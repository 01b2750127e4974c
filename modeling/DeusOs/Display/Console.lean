import DeusOs.Display.StatusBar

/-!
# The console

A row that is not marked is the row that was there, whether the content was
written, scrolled or replaced by a view; a render draws the rows that are
marked, so far as the clip can show them.
-/

namespace DeusOs

namespace Display

open Canvas (Apart Consistent Shows)
open OledConsole

variable {fb : MonoFb} {clip : Clip} {c c' : OledConsole}

/-! ## Marks -/

/-- A logical row. -/
def OledConsole.row (c : OledConsole) (i : ℕ) : ℕ → UInt8 :=
  c.cells ((c.firstRow.toNat + i) % consoleRows)

/-- A row that is not marked afterwards was not marked before, and shows the
same. -/
def ConsoleMarks (c c' : OledConsole) : Prop :=
  ∀ i < consoleRows, c'.dirtyRows.getLsbD i = false →
    c.dirtyRows.getLsbD i = false ∧ c'.row i = c.row i

theorem ConsoleMarks.refl (c : OledConsole) : ConsoleMarks c c := fun _ _ h => ⟨h, rfl⟩

theorem ConsoleMarks.trans {c'' : OledConsole} (h : ConsoleMarks c c') (h' : ConsoleMarks c' c'') :
    ConsoleMarks c c'' := by
  intro i hi hclean
  obtain ⟨hclean', hrow'⟩ := h' i hi hclean
  obtain ⟨hclean'', hrow⟩ := h i hi hclean'
  exact ⟨hclean'', hrow'.trans hrow⟩

/-- A cursor that moves changes nothing else. -/
theorem ConsoleMarks.cursor (h : ConsoleMarks c c') (x y : UInt8) :
    ConsoleMarks c { c' with cursorX := x, cursorY := y } := h

/-- The mask of all rows has every row. -/
theorem allRows_getLsbD : ∀ i < consoleRows, consoleAllRowsMask.getLsbD i = true := by decide

/-- Where every row is marked nothing is left to show. -/
theorem marks_of_all (h : c'.dirtyRows = consoleAllRowsMask) : ConsoleMarks c c' := by
  intro i hi hclean
  rw [h, allRows_getLsbD i hi] at hclean
  cases hclean

theorem marks_scrollOne (c : OledConsole) : ConsoleMarks c c.scrollOne := marks_of_all rfl

/-- Clearing the console marks what it changes. -/
theorem marks_clear (c : OledConsole) : ConsoleMarks c c.clear := marks_of_all rfl

theorem marks_preparePrintable (c : OledConsole) : ConsoleMarks c c.preparePrintable := by
  have hline : ConsoleMarks c (if consoleRows ≤ c.cursorY.toNat then
      { c.scrollOne with cursorY := UInt8.ofNat (consoleRows - 1), cursorX := 0 } else c) := by
    split
    · exact (marks_scrollOne c).cursor _ _
    · exact .refl c
  unfold preparePrintable
  dsimp only
  generalize (if consoleRows ≤ c.cursorY.toNat then
      { c.scrollOne with cursorY := UInt8.ofNat (consoleRows - 1), cursorX := 0 } else c) = d
    at hline ⊢
  split
  · split
    · exact hline.cursor _ _
    · exact hline.trans (marks_of_all rfl)
  · exact hline

theorem bottom_lt : (UInt8.ofNat (consoleRows - 1)).toNat < consoleRows := by decide

/-- The cursor is on a row before a character is written. -/
theorem cursorY_preparePrintable (c : OledConsole) :
    c.preparePrintable.cursorY.toNat < consoleRows := by
  have hline : (if consoleRows ≤ c.cursorY.toNat then
      { c.scrollOne with cursorY := UInt8.ofNat (consoleRows - 1), cursorX := 0 }
        else c).cursorY.toNat < consoleRows := by
    split
    · exact bottom_lt
    · rename_i hlt
      exact Nat.lt_of_not_le hlt
  unfold preparePrintable
  dsimp only
  generalize (if consoleRows ≤ c.cursorY.toNat then
      { c.scrollOne with cursorY := UInt8.ofNat (consoleRows - 1), cursorX := 0 } else c) = d
    at hline ⊢
  split
  · split
    · rename_i hlt
      show (d.cursorY + 1).toNat < consoleRows
      rw [UInt8.toNat_add]
      exact Nat.lt_of_le_of_lt (Nat.mod_le _ _) hlt
    · exact bottom_lt
  · exact hline

/-- **A character marks the row it is written on.** -/
theorem marks_putPrintable (hy : c.cursorY.toNat < consoleRows) (char : UInt8) :
    ConsoleMarks c (c.putPrintable char) := by
  intro i hi hclean
  have hmark : (c.putPrintable char).dirtyRows = c.dirtyRows ||| dirtyBit c.cursorY.toNat := by
    unfold putPrintable markRow
    dsimp only
    rw [if_neg (Nat.not_le_of_lt hy)]
  have hsame : (c.putPrintable char).row i =
      (Function.update c.cells ((c.firstRow.toNat + c.cursorY.toNat) % consoleRows)
        (Function.update (c.cells ((c.firstRow.toNat + c.cursorY.toNat) % consoleRows))
          c.cursorX.toNat char)) ((c.firstRow.toNat + i) % consoleRows) := by
    unfold OledConsole.row putPrintable markRow
    dsimp only
    rw [if_neg (Nat.not_le_of_lt hy)]
  have hy8 : c.cursorY.toNat < 8 := Nat.lt_trans hy (by decide)
  rw [hmark] at hclean
  obtain ⟨hbefore, hyi⟩ := clean_of_or_dirtyBit hy8 hclean
  refine ⟨hbefore, ?_⟩
  rw [hsame, Function.update_of_ne]
  · rfl
  · -- a row of the ring is shown in one place
    intro hmod
    have hrows : consoleRows = 3 := rfl
    rw [hrows] at hmod hi hy
    omega

/-- **Every character keeps the marks.** A row whose text changes is marked, and
a scroll, which moves every row, marks them all. -/
theorem marks_putc (c : OledConsole) (char : UInt8) : ConsoleMarks c (c.putc char) := by
  unfold putc
  split
  · exact (ConsoleMarks.refl c).cursor _ _
  · split
    · dsimp only
      split
      · exact (ConsoleMarks.refl c).cursor _ _
      · exact marks_of_all rfl
    · split
      · exact .refl c
      · exact (marks_preparePrintable c).trans
          (marks_putPrintable (cursorY_preparePrintable c) char)

/-- Writing marks what it changes. -/
theorem marks_write (c : OledConsole) (text : List UInt8) : ConsoleMarks c (c.write text) := by
  unfold write
  generalize (text.takeWhile fun c => decide (c ≠ 0)) = chars
  induction chars generalizing c with
  | nil => exact .refl c
  | cons char chars ih => exact (marks_putc c char).trans (ih _)

/-- Writing a line marks what it changes. -/
theorem marks_writeLine (c : OledConsole) (text : List UInt8) : ConsoleMarks c (c.writeLine text) :=
  (marks_write c text).trans (marks_putc _ _)

/-! ## A view -/

/-- The cells that were changed are on marked rows. -/
def Applied (cells : ℕ → ℕ → UInt8) (d : BitVec 8) (applied : (ℕ → ℕ → UInt8) × BitVec 8) : Prop :=
  ∀ i < consoleRows, applied.2.getLsbD i = false → d.getLsbD i = false ∧ applied.1 i = cells i

/-- One cell more of a view is applied. -/
theorem Applied.cell {cells : ℕ → ℕ → UInt8} {d : BitVec 8}
    {applied : (ℕ → ℕ → UInt8) × BitVec 8} (h : Applied cells d applied) {row : ℕ}
    (hrow : row < consoleRows) (desired : UInt8 × ℕ) :
    Applied cells d (applyCell row applied desired) := by
  intro i hi hclean
  unfold applyCell at hclean ⊢
  by_cases hne : applied.1 row desired.2 ≠ desired.1
  · rw [if_pos hne] at hclean ⊢
    have hrow8 : row < 8 := Nat.lt_trans hrow (by decide)
    obtain ⟨hbefore, hne'⟩ := clean_of_or_dirtyBit hrow8 hclean
    obtain ⟨hd, hcells⟩ := h i hi hbefore
    exact ⟨hd, (Function.update_of_ne (Ne.symm hne') _ _).trans hcells⟩
  · rw [if_neg hne] at hclean ⊢
    exact h i hi hclean

/-- One row more of a view is applied. -/
theorem Applied.row {cells : ℕ → ℕ → UInt8} {d : BitVec 8} {row : ℕ} (hrow : row < consoleRows)
    (desired : List (UInt8 × ℕ)) {applied : (ℕ → ℕ → UInt8) × BitVec 8}
    (h : Applied cells d applied) : Applied cells d (desired.foldl (applyCell row) applied) := by
  induction desired generalizing applied with
  | nil => exact h
  | cons cell desired ih => exact ih (h.cell hrow cell)

/-- **A view marks the rows it changes**, and all of them where it turns the
rows back. -/
theorem marks_applyView (c : OledConsole) (view : Option App.View) (forceRows : UInt32) :
    ConsoleMarks c (c.applyView view forceRows) := by
  cases view with
  | none => exact .refl c
  | some view =>
    unfold applyView
    dsimp only
    have hrows : ∀ (rows : List (Fin 3)) (d : BitVec 8) (applied : (ℕ → ℕ → UInt8) × BitVec 8),
        Applied c.cells d applied → Applied c.cells d (rows.foldl
          (fun applied (row : Fin 3) =>
            (viewChars false ((List.ofFn (view row)).take consoleColumns)).zipIdx.foldl
              (applyCell row) applied) applied) := by
      intro rows
      induction rows with
      | nil => exact fun _ _ h => h
      | cons row rows ih => exact fun d applied h => ih d _ (h.row row.2 _)
    have happlied := hrows (List.finRange 3)
      (if forceRows ≠ 0 ∨ c.firstRow ≠ 0 then consoleAllRowsMask else 0)
      (c.cells, if forceRows ≠ 0 ∨ c.firstRow ≠ 0 then consoleAllRowsMask else 0)
      fun _ _ h => ⟨h, rfl⟩
    intro i hi hclean
    rw [BitVec.getLsbD_or, Bool.or_eq_false_iff] at hclean
    obtain ⟨hd, hcells⟩ := happlied i hi hclean.2
    refine ⟨hclean.1, ?_⟩
    by_cases hfirst : c.firstRow = 0
    · have hmod : (c.firstRow.toNat + i) % consoleRows = i := by
        rw [hfirst]
        exact (congrArg (· % consoleRows) (Nat.zero_add i)).trans (Nat.mod_eq_of_lt hi)
      have hmod' : ((0 : UInt8).toNat + i) % consoleRows = i :=
        (congrArg (· % consoleRows) (Nat.zero_add i)).trans (Nat.mod_eq_of_lt hi)
      rw [OledConsole.row, OledConsole.row, hmod, hmod']
      exact hcells
    · -- the rows were turned, and all of them are marked
      rw [if_pos (Or.inr hfirst), allRows_getLsbD i hi] at hd
      cases hd

/-! ## Drawing -/

/-- The calls that draw a cell. -/
def cellAt (c : OledConsole) (clip : Clip) (row column : ℕ) : List SetPixel :=
  cellPixels clip (clip.x + Int32.ofNat (column * font5x6Info.advanceX))
    (clip.y + Int32.ofNat (row * font5x6Info.advanceY)) (font5x6Glyph (c.row row column)) font5x6Info

/-- The calls that draw a row. -/
def rowPixels (c : OledConsole) (clip : Clip) (row : ℕ) : List SetPixel :=
  (List.range (availableColumns clip)).flatMap (cellAt c clip row)

theorem rowPixels_congr {row : ℕ} (h : c'.row row = c.row row) (clip : Clip) :
    rowPixels c' clip row = rowPixels c clip row := by
  unfold rowPixels
  congr 1
  funext column
  rw [cellAt, cellAt, h]

theorem drawRow_eq (hclip : ¬ (clip.width ≤ 0 ∨ clip.height ≤ 0)) (c : OledConsole) (fb : MonoFb)
    (row : ℕ) : c.drawRow clip fb row = fb.setPixels (rowPixels c clip row) := by
  have hguard : ¬ (font5x6Info.glyphWidth = 0 ∨ font5x6Info.glyphHeight = 0 ∨
      font5x6Info.advanceX = 0 ∨ font5x6Info.advanceY = 0 ∨ clip.width ≤ 0 ∨ clip.height ≤ 0) := by
    rintro (h | h | h | h | h | h)
    · cases h
    · cases h
    · cases h
    · cases h
    · exact hclip (Or.inl h)
    · exact hclip (Or.inr h)
  rw [rowPixels, setPixels_flatMap, drawRow]
  simp only [drawGlyphCell, if_neg hguard]
  rfl

/-- The loop over the rows. -/
theorem foldl_drawRow (hclip : ¬ (clip.width ≤ 0 ∨ clip.height ≤ 0)) (c : OledConsole)
    (rows : List ℕ) (hrows : ∀ row ∈ rows, row < 8) (drawn : MonoFb × BitVec 8) :
    (rows.foldl
      (fun (drawn : MonoFb × BitVec 8) row =>
        if c.dirtyRows &&& dirtyBit row = 0 then drawn
        else (c.drawRow clip drawn.1 row, drawn.2 ||| dirtyBit row)) drawn).1 =
      drawn.1.setPixels ((rows.filter fun row => c.dirtyRows.getLsbD row).flatMap
        (rowPixels c clip)) := by
  induction rows generalizing drawn with
  | nil => rfl
  | cons row rows ih =>
    have hrow := hrows row List.mem_cons_self
    have hrest : ∀ row ∈ rows, row < 8 := fun r hr => hrows r (List.mem_cons_of_mem _ hr)
    rw [List.foldl_cons, List.filter_cons, ih hrest]
    by_cases hclean : c.dirtyRows &&& dirtyBit row = 0
    · rw [if_pos hclean, (and_dirtyBit_eq_zero hrow _).1 hclean, if_neg Bool.false_ne_true]
    · have hon : c.dirtyRows.getLsbD row = true := by
        rw [← Bool.not_eq_false]
        exact fun h => hclean ((and_dirtyBit_eq_zero hrow _).2 h)
      rw [if_neg hclean, hon, if_pos rfl, List.flatMap_cons, MonoFb.setPixels_append,
        drawRow_eq hclip]

theorem availableRows_le (clip : Clip) : availableRows clip ≤ consoleRows := Nat.min_le_right _ _

theorem availableColumns_le (clip : Clip) : availableColumns clip ≤ consoleColumns :=
  Nat.min_le_right _ _

/-- The rows that are marked and fit. -/
def drawnRows (c : OledConsole) (clip : Clip) : List ℕ :=
  (List.range (availableRows clip)).filter fun row => c.dirtyRows.getLsbD row

/-- A row is drawn exactly if it fits and is marked. -/
theorem mem_drawnRows {row : ℕ} :
    row ∈ drawnRows c clip ↔ row < availableRows clip ∧ c.dirtyRows.getLsbD row = true := by
  rw [drawnRows, List.mem_filter, List.mem_range]

/-- A cell is plotted in its block, inside of the clip. -/
theorem plots_cellAt (c : OledConsole) (clip : Clip) (row column : ℕ) :
    (∃ v, Plots clip (column * 6) 6 (row * 7) 7 v (cellAt c clip row column)) ∧
      ∀ q ∈ cellAt c clip row column, clip.contains q.x q.y = true := by
  have hmem : ∀ q ∈ cellAt c clip row column, ∃ i < 6, ∃ j < 7,
      clip.contains q.x q.y = true ∧ q.x = clip.x + Int32.ofNat (column * 6 + i) ∧
        q.y = clip.y + Int32.ofNat (row * 7 + j) ∧
        q.value = if i < 5 ∧ j < 6 ∧ (font5x6Glyph (c.row row column)).getD i 0 &&&
          1 <<< UInt8.ofNat j ≠ 0 then 1 else 0 := by
    intro q hq
    obtain ⟨i, hi, hq⟩ := List.mem_flatMap.1 hq
    obtain ⟨j, hj, hq⟩ := List.mem_flatMap.1 hq
    rw [List.mem_range] at hi hj
    split at hq
    · cases hq
    · rename_i hin
      rw [Bool.not_eq_false] at hin
      rw [List.mem_singleton.1 hq]
      refine ⟨i, hi, j, hj, hin, ?_, ?_, rfl⟩
      · rw [Int32.ofNat_add, ← Int32.add_assoc]
        rfl
      · rw [Int32.ofNat_add, ← Int32.add_assoc]
        rfl
  refine ⟨⟨fun x y => if x - column * 6 < 5 ∧ y - row * 7 < 6 ∧
    (font5x6Glyph (c.row row column)).getD (x - column * 6) 0 &&&
      1 <<< UInt8.ofNat (y - row * 7) ≠ 0 then 1 else 0, fun q hq => ?_⟩, fun q hq => ?_⟩
  · obtain ⟨i, hi, j, hj, -, hx, hy, hv⟩ := hmem q hq
    refine ⟨column * 6 + i, row * 7 + j, by omega, by omega, by omega, by omega, hx, hy, ?_⟩
    simp only [Nat.add_sub_cancel_left]
    exact hv
  · obtain ⟨i, -, j, -, hin, -⟩ := hmem q hq
    exact hin

/-- **The rows of the console are drawn consistently**, and apart. No point is
drawn with two values, and no row reaches into another. -/
theorem consistent_rows (fb : MonoFb) (c : OledConsole) (clip : Clip) (rows : List ℕ)
    (hrows : ∀ row ∈ rows, row < availableRows clip) :
    Consistent (fb.strokes (rows.flatMap (rowPixels c clip))) ∧
      ∀ row < availableRows clip, row ∉ rows →
        Apart (fb.strokes (rowPixels c clip row))
          (fb.strokes (rows.flatMap (rowPixels c clip))) := by
  have hcolumns : consoleColumns = 21 := rfl
  have hrowsmax : consoleRows = 3 := rfl
  have hle := availableColumns_le clip
  have hle' := availableRows_le clip
  have hblock : ∀ row column, InBlock clip (column * 6) 6 (row * 7) 7 (cellAt c clip row column) := by
    intro row column
    obtain ⟨⟨v, hv⟩, -⟩ := plots_cellAt c clip row column
    exact hv.inBlock
  have hcells : ∀ row < availableRows clip, Consistent (fb.strokes (rowPixels c clip row)) := by
    intro row hrow
    rw [rowPixels, strokes_flatMap]
    refine Canvas.consistent_flatMap (fun column hcolumn => ?_) fun i hi j hj hne => ?_
    · obtain ⟨⟨v, hv⟩, -⟩ := plots_cellAt c clip row column
      rw [List.mem_range] at hcolumn
      exact hv.consistent (by omega) (by omega)
    · rw [List.mem_range] at hi hj
      exact (hblock row i).apart (hblock row j) (by omega) (by omega) (by omega) (by omega)
        (by omega)
  have happart : ∀ row < availableRows clip, ∀ row' < availableRows clip, row ≠ row' →
      Apart (fb.strokes (rowPixels c clip row)) (fb.strokes (rowPixels c clip row')) := by
    intro row hrow row' hrow' hne w hw w' hw'
    rw [rowPixels, strokes_flatMap] at hw hw'
    obtain ⟨i, hi, hw⟩ := List.mem_flatMap.1 hw
    obtain ⟨j, hj, hw'⟩ := List.mem_flatMap.1 hw'
    rw [List.mem_range] at hi hj
    exact (hblock row i).apart (hblock row' j) (by omega) (by omega) (by omega) (by omega)
      (by omega) w hw w' hw'
  rw [strokes_flatMap]
  refine ⟨Canvas.consistent_flatMap (fun row hrow => hcells row (hrows row hrow))
    fun i hi j hj hne => happart i (hrows i hi) j (hrows j hj) hne, fun row hrow hnot w hw w' hw' => ?_⟩
  obtain ⟨row', hrow', hw'⟩ := List.mem_flatMap.1 hw'
  exact happart row hrow row' (hrows row' hrow') (fun he => hnot (he ▸ hrow')) w hw w' hw'

/-- **A render draws the rows that are marked**, and shows them as they are.
Those that do not fit are left out. -/
theorem render_eq (c : OledConsole) (fb : MonoFb) (clip : Clip) :
    (c.render fb clip).2 = fb.setPixels ((drawnRows c clip).flatMap (rowPixels c clip)) ∧
      ∀ i, (c.render fb clip).1.row i = c.row i := by
  unfold OledConsole.render
  by_cases hclip : clip.width ≤ 0 ∨ clip.height ≤ 0
  · -- a clip without an inside holds no pixel
    rw [if_pos hclip]
    have hnone : ∀ row, rowPixels c clip row = [] := by
      intro row
      refine List.flatMap_eq_nil_iff.2 fun column _ => List.eq_nil_iff_forall_not_mem.2 fun q hq => ?_
      have hin := (plots_cellAt c clip row column).2 q hq
      rw [Clip.contains, Bool.and_eq_true] at hin
      rcases hclip with hwidth | hheight
      · have hx := hin.1
        rw [axisContains, if_pos hwidth] at hx
        cases hx
      · have hy := hin.2
        rw [axisContains, if_pos hheight] at hy
        cases hy
    have hnil : (drawnRows c clip).flatMap (rowPixels c clip) = [] :=
      List.flatMap_eq_nil_iff.2 fun row _ => hnone row
    rw [hnil]
    exact ⟨rfl, fun i => rfl⟩
  · rw [if_neg hclip]
    by_cases hnothing : c.dirtyRows = 0 ∨ availableColumns clip = 0 ∨ availableRows clip = 0
    · rw [if_pos hnothing]
      have hnil : (drawnRows c clip).flatMap (rowPixels c clip) = [] := by
        refine List.flatMap_eq_nil_iff.2 fun row hrow => ?_
        obtain ⟨hlt, hdirty⟩ := mem_drawnRows.1 hrow
        rcases hnothing with hzero | hcolumns | hrows
        · rw [hzero] at hdirty
          exact absurd hdirty (Bool.not_eq_true _ ▸ BitVec.getLsbD_zero)
        · rw [rowPixels, hcolumns]
          rfl
        · rw [hrows] at hlt
          exact absurd hlt (Nat.not_lt_zero _)
      rw [hnil]
      exact ⟨rfl, fun i => rfl⟩
    · rw [if_neg hnothing]
      have hrows : ∀ row ∈ List.range (availableRows clip), row < 8 := fun row hrow =>
        Nat.lt_of_lt_of_le (List.mem_range.1 hrow) (Nat.le_trans (availableRows_le clip) (by decide))
      exact ⟨foldl_drawRow hclip c _ hrows (fb, 0), fun i => rfl⟩

end Display

end DeusOs
