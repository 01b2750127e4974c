import DeusOs.Display.Composition
import DeusOs.Display.Model.Desktop

/-!
# What the desktop holds

A snapshot decides what the status bar holds, and with the view of the
application what the console holds, whatever they held before. An accepted
layout keeps the two apart.
-/

namespace DeusOs

namespace Display

open App (View)
open OledConsole (applyCell applyView viewChars)
open StatusItem (content)

/-! ## The clips of a layout -/

/-- The fields of a rectangle are `int32_t`. -/
structure MonoRect.FitsInt32 (r : MonoRect) : Prop where
  y : r.y < 2147483648
  height : r.height < 2147483648

/-- **An accepted layout has its console below its status bar.** The bar is as
wide as the display and nine points high, and the check keeps the console out of
it. -/
theorem clips_of_validate {layout : OledUiLayout} (h : oledUiLayoutValidate layout = true)
    (hfit : layout.consoleRect.FitsInt32) :
    layout.statusRect.clip.width = 128 ∧ layout.statusRect.clip.height = 9 ∧
      ∀ x y, layout.statusRect.clip.contains x y = true →
        layout.consoleRect.clip.contains x y = false := by
  have hy := hfit.y
  have hheight := hfit.height
  simp only [oledUiLayoutValidate, Bool.and_eq_true, decide_eq_true_iff, unsignedSum] at h
  obtain ⟨⟨⟨⟨⟨⟨⟨⟨⟨-, hstatusY⟩, hstatusWidth⟩, hstatusHeight⟩, -⟩, hconsoleY⟩, -⟩,
    hconsoleHeight⟩, -⟩, hsum⟩ := h
  have hstart : layout.statusRect.clip.y = 0 := by
    rw [MonoRect.clip, hstatusY]
    rfl
  have hwidth : layout.statusRect.clip.width = 128 := by
    rw [MonoRect.clip, hstatusWidth]
    rfl
  have hlength : layout.statusRect.clip.height = 9 := by
    rw [MonoRect.clip, hstatusHeight]
    rfl
  refine ⟨hwidth, hlength, fun x y hin => ?_⟩
  rw [Clip.contains, Bool.and_eq_true] at hin
  have hin := hin.2
  rw [hstart, hlength, axisContains, if_neg (by decide)] at hin
  by_cases hneg : y < 0
  · rw [if_pos hneg] at hin
    cases hin
  rw [if_neg hneg, decide_eq_true_iff, Int32.sub_zero, UInt32.lt_iff_toNat_lt,
    Int32.toNat_toUInt32_of_le (Int32.not_lt.1 hneg)] at hin
  have hnine : ((9 : Int32).toUInt32).toNat = 9 := by decide
  -- the status bar ends above the first row of the console
  have hbelow : y < layout.consoleRect.clip.y := by
    have hten : (layout.consoleRect.clip.y).toInt = layout.consoleRect.y :=
      Int32.toInt_ofInt_of_le (by omega) (by omega)
    have hnat : y.toInt = y.toNatClampNeg :=
      (Int.toNat_of_nonneg (Int32.le_iff_toInt_le.1 (Int32.not_lt.1 hneg))).symm
    rw [Int32.lt_iff_toInt_lt, hten, hnat]
    omega
  rw [Clip.contains, Bool.and_eq_false_iff]
  right
  rw [axisContains, if_pos hbelow, ite_self]

/-! ## What the status bar holds -/

/-- Setting an indicator sets that one. -/
theorem indicator_setIndicator (s : OledStatusBar) (i : Fin 3) (value : UInt32) :
    (s.setIndicator i value).indicator =
      Function.update s.indicator i (if value = 1 then 1 else 0) := by
  unfold OledStatusBar.setIndicator
  dsimp only
  generalize (if value = 1 then (1 : UInt8) else 0) = new
  by_cases hne : s.indicator i ≠ new
  · rw [if_pos hne]
  · rw [if_neg hne, ← not_not.1 hne, Function.update_eq_self]

/-- Setting the time cuts it to two digits each, and leaves the indicators. -/
theorem setTime_spec (s : OledStatusBar) (hours minutes : UInt32) :
    (s.setTime hours minutes).indicator = s.indicator ∧
      (s.setTime hours minutes).hours = (if 99 < hours then 99 else hours.toUInt8) ∧
      (s.setTime hours minutes).minutes = (if 59 < minutes then 59 else minutes.toUInt8) := by
  unfold OledStatusBar.setTime
  dsimp only
  generalize (if 99 < hours then (99 : UInt8) else hours.toUInt8) = newHours
  generalize (if 59 < minutes then (59 : UInt8) else minutes.toUInt8) = newMinutes
  by_cases hsame : s.hours = newHours ∧ s.minutes = newMinutes
  · rw [if_pos hsame]
    exact ⟨rfl, hsame.1, hsame.2⟩
  · rw [if_neg hsame]
    exact ⟨rfl, rfl, rfl⟩

/-- **A snapshot decides what the status bar holds**, whatever it held. This is
why a redraw in part and one in full agree. -/
theorem content_setStatus (snapshot : DesktopSnapshot) (s s' : OledStatusBar) (item : StatusItem) :
    item.content (snapshot.setStatus s) = item.content (snapshot.setStatus s') := by
  unfold DesktopSnapshot.setStatus OledStatusBar.setIndicators
  cases item with
  | indicator i =>
    show OledStatusBar.indicator _ i = OledStatusBar.indicator _ i
    rw [(setTime_spec _ _ _).1, (setTime_spec _ _ _).1]
    simp only [indicator_setIndicator]
    match i with
    | 0 | 1 | 2 => rfl
  | digit i =>
    show oledStatusTimeText _ _ i = oledStatusTimeText _ _ i
    rw [(setTime_spec _ _ _).2.1, (setTime_spec _ _ _).2.1, (setTime_spec _ _ _).2.2,
      (setTime_spec _ _ _).2.2]

/-- Setting the status bar to a snapshot marks what it changes. -/
theorem marks_setStatus (snapshot : DesktopSnapshot) (s : OledStatusBar) :
    StatusMarks s (snapshot.setStatus s) :=
  (marks_setIndicators s _ _ _).trans (marks_setTime _ _ _)

/-- A snapshot's time has two digits each. -/
theorem inRange_setStatus (snapshot : DesktopSnapshot) {s : OledStatusBar} (hr : InRange s) :
    InRange (snapshot.setStatus s) :=
  inRange_setTime _ (inRange_setIndicator _ (inRange_setIndicator _
    (inRange_setIndicator _ hr _ _) _ _) _ _) _ _

/-- The time at the start has two digits each. -/
theorem inRange_init : InRange .init := ⟨by decide, by decide⟩

/-- Marking leaves the time. -/
theorem inRange_markAllDirty {s : OledStatusBar} (hr : InRange s) : InRange s.markAllDirty := hr

/-- Marks are no content. -/
theorem content_marked (item : StatusItem) (s : OledStatusBar) (d d' : BitVec 8) :
    item.content { s with dirty := d, timeDirty := d' } = item.content s := by
  cases item <;> rfl

/-- Marking leaves what an item shows. -/
theorem content_markAllDirty (item : StatusItem) (s : OledStatusBar) :
    item.content s.markAllDirty = item.content s := content_marked item s _ _

/-- Drawing the console leaves the status bar. -/
theorem status_renderConsole (clip : Clip) (ui : Ui) :
    (Ui.renderConsole clip ui).status = ui.status := rfl

/-! ## What the console holds -/

/-- Drawing the status bar leaves the console. -/
theorem console_renderStatus (clip : Clip) (ui : Ui) :
    (Ui.renderStatus clip ui).console = ui.console := rfl

/-- Drawing the console leaves its text. -/
theorem row_renderConsole (clip : Clip) (ui : Ui) (row : ℕ) :
    (Ui.renderConsole clip ui).console.row row = ui.console.row row :=
  (render_eq ui.console ui.fb clip).2 row


/-- A row of a view, applied cell by cell. -/
theorem foldl_applyCell (row : ℕ) (desired : List UInt8) (start : ℕ)
    (applied : (ℕ → ℕ → UInt8) × BitVec 8) (i column : ℕ) :
    ((desired.zipIdx start).foldl (applyCell row) applied).1 i column =
      if i = row ∧ start ≤ column ∧ column < start + desired.length then
        desired.getD (column - start) 0
      else applied.1 i column := by
  induction desired generalizing start applied with
  | nil =>
    rw [List.length_nil, Nat.add_zero, if_neg (by omega)]
    rfl
  | cons char desired ih =>
    have hcell : ∀ i column, (applyCell row applied (char, start)).1 i column =
        if i = row ∧ column = start then char else applied.1 i column := by
      intro i column
      unfold applyCell
      dsimp only
      by_cases hne : applied.1 row start ≠ char
      · rw [if_pos hne]
        dsimp only
        by_cases hi : i = row
        · subst hi
          by_cases hc : column = start
          · rw [if_pos ⟨rfl, hc⟩, hc, Function.update_self, Function.update_self]
          · rw [if_neg fun h => hc h.2, Function.update_self, Function.update_of_ne hc]
        · rw [if_neg fun h => hi h.1, Function.update_of_ne hi]
      · rw [if_neg hne]
        by_cases hcell : i = row ∧ column = start
        · rw [if_pos hcell, hcell.1, hcell.2]
          exact not_not.1 hne
        · rw [if_neg hcell]
    rw [List.zipIdx_cons, List.foldl_cons, ih, hcell, List.length_cons]
    by_cases hi : i = row
    · by_cases hc : column = start
      · -- the first of the cells
        rw [if_neg (by omega), if_pos ⟨hi, hc⟩, if_pos (by omega), hc, Nat.sub_self]
        rfl
      · by_cases hin : start + 1 ≤ column ∧ column < start + 1 + desired.length
        · have hsub : column - start = column - (start + 1) + 1 := by omega
          rw [if_pos ⟨hi, hin⟩, if_pos (by omega), hsub, List.getD_cons_succ]
        · rw [if_neg fun h => hin h.2, if_neg fun h => hc h.2, if_neg (by omega)]
    · rw [if_neg fun h => hi h.1, if_neg fun h => hi h.1, if_neg fun h => hi h.1]

/-- The cells that a row of a view asks for. -/
def viewRow (view : View) (row : Fin 3) : List UInt8 :=
  viewChars false ((List.ofFn (view row)).take consoleColumns)

theorem length_viewChars (ended : Bool) (chars : List UInt8) :
    (viewChars ended chars).length = chars.length := by
  induction chars generalizing ended with
  | nil => rfl
  | cons c chars ih =>
    cases ended with
    | true => exact congrArg (· + 1) (ih true)
    | false =>
      unfold viewChars
      split
      · exact congrArg (· + 1) (ih true)
      · exact congrArg (· + 1) (ih false)

theorem length_viewRow (view : View) (row : Fin 3) :
    (viewRow view row).length = consoleColumns := by
  rw [viewRow, length_viewChars, List.length_take, List.length_ofFn]
  rfl

theorem foldl_viewRow (view : View) (rows : List (Fin 3)) (applied : (ℕ → ℕ → UInt8) × BitVec 8)
    (row : Fin 3) {column : ℕ} (hcolumn : column < consoleColumns)
    (h : row ∈ rows ∨ applied.1 row column = (viewRow view row).getD column 0) :
    (rows.foldl (fun applied (row : Fin 3) =>
      (viewRow view row).zipIdx.foldl (applyCell row) applied) applied).1 row column =
      (viewRow view row).getD column 0 := by
  induction rows generalizing applied with
  | nil => exact h.resolve_left List.not_mem_nil
  | cons first rows ih =>
    refine ih _ ?_
    rw [foldl_applyCell, length_viewRow]
    by_cases hrow : row = first
    · right
      rw [if_pos ⟨by rw [hrow], Nat.zero_le _, by omega⟩, hrow, Nat.sub_zero]
    · have hne : ¬ ((row : ℕ) = first ∧ 0 ≤ column ∧ column < 0 + consoleColumns) :=
        fun he => hrow (Fin.ext he.1)
      rw [if_neg hne]
      rcases h with hmem | hsame
      · exact Or.inl ((List.mem_cons.1 hmem).resolve_left hrow)
      · exact Or.inr hsame

/-- **A view decides what the console holds**, whatever it held. -/
theorem row_applyView (c : OledConsole) (view : View) (forceRows : UInt32) {row column : ℕ}
    (hrow : row < consoleRows) (hcolumn : column < consoleColumns) :
    (c.applyView (some view) forceRows).row row column =
      (viewRow view ⟨row, hrow⟩).getD column 0 := by
  have hmod : (0 + row) % consoleRows = row := by
    rw [Nat.zero_add, Nat.mod_eq_of_lt hrow]
  unfold OledConsole.row applyView
  dsimp only
  rw [UInt8.toNat_zero, hmod]
  exact foldl_viewRow view (List.finRange 3) _ ⟨row, hrow⟩ hcolumn (Or.inl (List.mem_finRange _))

/-- A console that is blank. -/
def blankConsole : OledConsole := ⟨fun _ _ => 0x20, 0, 0, 0, consoleAllRowsMask⟩

/-- The console of a desktop. -/
def bodyConsole (state : DesktopState) (view : View) : OledConsole :=
  match state with
  | .splash => splashConsole blankConsole
  | .home => blankConsole.applyView (some view) 1

/-- The console holds what the desktop wants. -/
def HoldsBody (state : DesktopState) (view : View) (c : OledConsole) : Prop :=
  ∀ row < consoleRows, ∀ column < consoleColumns,
    c.row row column = (bodyConsole state view).row row column

/-- The splash's console holds its text. -/
theorem holdsBody_splash (view : View) (c : OledConsole) :
    HoldsBody .splash view (splashConsole c) := fun _ _ _ _ => rfl

/-- A console that a view was applied to holds the view. -/
theorem holdsBody_home (view : View) (c : OledConsole) (forceRows : UInt32) :
    HoldsBody .home view (c.applyView (some view) forceRows) := fun _ hrow _ hcolumn =>
  (row_applyView c view forceRows hrow hcolumn).trans
    (row_applyView blankConsole view 1 hrow hcolumn).symm

/-- Drawing the console leaves what it holds. -/
theorem HoldsBody.render {state : DesktopState} {view : View} {c : OledConsole}
    (h : HoldsBody state view c) (fb : MonoFb) (clip : Clip) :
    HoldsBody state view (c.render fb clip).1 := by
  intro row hrow column hcolumn
  rw [(render_eq c fb clip).2 row]
  exact h row hrow column hcolumn

/-- Every row of a console that was written anew is marked. -/
theorem allRows_splashConsole (c : OledConsole) {row : ℕ} (hrow : row < consoleRows) :
    (splashConsole c).dirtyRows.getLsbD row = true := by
  have hmarks : ConsoleMarks c.clear (splashConsole c) :=
    ((marks_writeLine c.clear _).trans (marks_writeLine _ _)).trans (marks_write _ _)
  rw [← Bool.not_eq_false]
  intro hclean
  have hclear : consoleAllRowsMask.getLsbD row = false := (hmarks row hrow hclean).1
  rw [allRows_getLsbD row hrow] at hclear
  cases hclear

theorem mark_applyCell (row : ℕ) (desired : List (UInt8 × ℕ))
    (applied : (ℕ → ℕ → UInt8) × BitVec 8) {i : ℕ} (h : applied.2.getLsbD i = true) :
    (desired.foldl (applyCell row) applied).2.getLsbD i = true := by
  induction desired generalizing applied with
  | nil => exact h
  | cons cell desired ih =>
    refine ih _ ?_
    unfold applyCell
    split
    · rw [BitVec.getLsbD_or, h, Bool.true_or]
    · exact h

/-- So is every row of one that is given a view anew. -/
theorem allRows_applyView (c : OledConsole) (view : View) {row : ℕ} (hrow : row < consoleRows) :
    (c.applyView (some view) 1).dirtyRows.getLsbD row = true := by
  have hrows : ∀ (rows : List (Fin 3)) (applied : (ℕ → ℕ → UInt8) × BitVec 8),
      applied.2.getLsbD row = true → (rows.foldl (fun applied (row : Fin 3) =>
        (viewRow view row).zipIdx.foldl (applyCell row) applied) applied).2.getLsbD row = true := by
    intro rows
    induction rows with
    | nil => exact fun _ h => h
    | cons first rows ih => exact fun applied h => ih _ (mark_applyCell _ _ _ h)
  unfold applyView
  dsimp only
  rw [BitVec.getLsbD_or, Bool.or_eq_true]
  right
  refine hrows (List.finRange 3) (c.cells, _) ?_
  rw [if_pos (Or.inl (by decide))]
  exact allRows_getLsbD row hrow

end Display

end DeusOs
