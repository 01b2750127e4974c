import DeusOs.Display.Committed

/-!
# The desktop — when a render succeeds

On a bus that works and in a layout of three rows, a render fails for one
reason only: the applications were not served, or none is active to be shown
(`desktop_alive`). What it takes is that nothing outside of the display is ever
marked: no page below its last (`Presentable`) and no row below the third
(`LowRows`). A board that is up in this sense comes home after the splash
(`desktop_alive_home`), and can overlook a layout (`layout_unnoticed_splash`).
-/

namespace DeusOs

namespace Display

open App (View)
open OledConsole (availableRows availableColumns applyCell applyView)

variable {ω : Type} {app : App.Index → App.Callbacks ω} {s s' : Desktop ω} {t : Readings}
  {snapshot : DesktopSnapshot} {force full : Bool} {fb : MonoFb} {d : Ssd1306} {c : OledConsole}

/-! ## A bus that works -/

/-- Every write to come succeeds. -/
def Ssd1306.Works (d : Ssd1306) : Prop := d.transfers = fun _ => .done

theorem works_i2c1Write (h : d.Works) (packet : List UInt8) :
    (i2c1Write d packet).2 = true ∧ (i2c1Write d packet).1.Works := by
  have hdone : d.transfers 0 = .done := congrFun h 0
  have hrest : (fun n => d.transfers (n + 1)) = fun _ => .done :=
    funext fun n => congrFun h (n + 1)
  unfold i2c1Write
  rw [hdone]
  exact ⟨rfl, hrest⟩

theorem works_setPageWindow (h : d.Works) {page x0 x1 : ℕ} (hpage : page < ssd1306Pages)
    (hspan : x0 ≤ x1) (hlast : x1 < ssd1306Width) :
    (setPageWindow d page x0 x1).2 = true ∧ (setPageWindow d page x0 x1).1.Works := by
  have hin : ¬ (ssd1306Pages ≤ page ∨ ssd1306Width ≤ x0 ∨ ssd1306Width ≤ x1 ∨ x1 < x0) := by
    rintro (hbad | hbad | hbad | hbad)
    · omega
    · omega
    · omega
    · omega
  have hcounted : ∀ stats, Ssd1306.Works { d with stats := stats } := fun _ => h
  unfold setPageWindow
  rw [if_neg hin]
  exact works_i2c1Write (hcounted _) _

/-- **A span is transferred.** -/
theorem works_presentSpan (h : d.Works) (data : Nor.Mem) (base x1 offset : ℕ) :
    (presentSpan d data base x1 offset).2 = true ∧
      (presentSpan d data base x1 offset).1.Works := by
  -- by what is left of the span
  induction hleft : x1 + 1 - offset using Nat.strong_induction_on generalizing offset d with
  | _ left ih =>
  rw [presentSpan]
  by_cases hmore : offset ≤ x1
  · rw [dif_pos hmore]
    dsimp only
    obtain ⟨chunk, hchunk⟩ : ∃ chunk, chunk = (if flushChunkData < x1 - offset + 1 then
      flushChunkData else x1 - offset + 1) := ⟨_, rfl⟩
    have hpos : 0 < chunk := by
      rw [hchunk]
      unfold flushChunkData
      split
      · omega
      · omega
    rw [← hchunk]
    obtain ⟨counted, hcounted⟩ : ∃ counted : Ssd1306, counted = { d with stats := { d.stats with
      i2cWriteCount := d.stats.i2cWriteCount + 1
      dataPayloadBytes := d.stats.dataPayloadBytes + (1 + chunk) } } := ⟨_, rfl⟩
    rw [← hcounted]
    have hworks : counted.Works := by
      rw [hcounted]
      exact h
    obtain ⟨hok, hnext⟩ := works_i2c1Write hworks
      (controlData :: data.bytes (base + offset) chunk)
    rcases hr : i2c1Write counted (controlData :: data.bytes (base + offset) chunk) with ⟨e, - | -⟩
    · rw [hr] at hok
      cases hok
    · rw [hr] at hnext
      exact ih (x1 + 1 - (offset + chunk)) (by omega) hnext (offset + chunk) rfl
  · rw [dif_neg hmore]
    exact ⟨rfl, h⟩

/-! ## The pages of the display -/

/-- A framebuffer of the display, of which no page below the last is marked. -/
structure Presentable (fb : MonoFb) : Prop where
  size : DisplaySize fb
  tidy : fb.Tidy
  pages : ∀ q, ssd1306Pages ≤ q → fb.dirtyPages.getLsbD q = false

/-- A bit of no page of the display. -/
theorem getLsbD_allPages {q : ℕ} (hq : ssd1306Pages ≤ q) :
    (pageMask ssd1306Pages - 1).getLsbD q = false := by
  by_cases hbyte : q < 8
  · have hhigh : ∀ q < 8, ssd1306Pages ≤ q → (pageMask ssd1306Pages - 1).getLsbD q = false := by
      decide
    exact hhigh q hbyte hq
  · exact BitVec.getLsbD_of_ge _ q (by omega)

theorem pages_writeMaskedByte (h : ∀ q, ssd1306Pages ≤ q → fb.dirtyPages.getLsbD q = false)
    (hcount : fb.pageCount = ssd1306Pages) (page x : ℕ) (value mask : UInt8) {q : ℕ}
    (hq : ssd1306Pages ≤ q) :
    (fb.writeMaskedByte page x value mask).1.dirtyPages.getLsbD q = false := by
  unfold MonoFb.writeMaskedByte
  split
  · exact h q hq
  · rename_i hin
    have hpage : page < ssd1306Pages := by
      rw [← hcount]
      exact Nat.lt_of_not_le fun hle => hin (Or.inr (Or.inl hle))
    have hmax : page < maxPages := Nat.lt_of_lt_of_le hpage (by decide)
    dsimp only
    split
    · exact h q hq
    · unfold MonoFb.markPageX
      split
      · exact h q hq
      · split
        · rw [← Bool.not_eq_true]
          show ¬ (fb.dirtyPages ||| pageMask page).getLsbD q = true
          rw [getLsbD_or_pageMask hmax, h q hq]
          rintro (hold | rfl)
          · cases hold
          · omega
        · exact h q hq

/-- Nothing outside of the display is ever drawn. -/
theorem Presentable.setPixels (h : Presentable fb) (l : List SetPixel) :
    Presentable (fb.setPixels l) := by
  refine ⟨h.size.of_same (MonoFb.sameSize_setPixels fb l), (drawn_setPixels h.tidy l).tidy, ?_⟩
  induction l generalizing fb with
  | nil => exact h.pages
  | cons w l ih =>
    rw [MonoFb.setPixels_cons]
    refine ih ⟨h.size.of_same (MonoFb.sameSize_setPixel fb w.x w.y w.value),
      (MonoFb.drawn_setPixel h.tidy w.x w.y w.value).tidy, fun q hq => ?_⟩
    unfold MonoFb.setPixel
    split
    · exact h.pages q hq
    · split
      · exact h.pages q hq
      · dsimp only
        split
        · exact h.pages q hq
        · split
          · exact pages_writeMaskedByte h.pages h.size.pageCount _ _ _ _ hq
          · exact pages_writeMaskedByte h.pages h.size.pageCount _ _ _ _ hq

/-- A framebuffer that is cleared is presentable, whatever was marked. -/
theorem presentable_clear (hsize : DisplaySize fb) : Presentable fb.clear.markAllDirty := by
  have hfresh := fresh_clear hsize
  have hall : fb.clear.markAllDirty.dirtyPages = pageMask ssd1306Pages - 1 := by
    have hcleared := (clear_spec hsize).1
    unfold MonoFb.markAllDirty
    rw [if_neg (not_not.2 hcleared.valid), hcleared.pageCount]
    rfl
  refine ⟨hfresh.size, (hfresh.reached darkDriver).tidy, fun q hq => ?_⟩
  rw [hall]
  exact getLsbD_allPages hq

/-- Clearing a page's mark leaves the framebuffer presentable. -/
theorem Presentable.clearDirty (h : Presentable fb) {page : ℕ} (hpage : page < maxPages) :
    Presentable (fb.clearDirty (pageMask page)) := by
  have hclear := MonoFb.clearDirty_pageMask hpage fb
  refine ⟨?_, MonoFb.tidy_clearDirty h.tidy hpage, fun q hq => ?_⟩
  · rw [hclear]
    exact ⟨h.size.width, h.size.height⟩
  · rw [hclear]
    show (fb.dirtyPages &&& ~~~pageMask page).getLsbD q = false
    rw [BitVec.getLsbD_and, h.pages q hq, Bool.false_and]

/-- **The pages are presented**, one after the other. The pages before this one
are clean already, and those from it on are marked as they were. -/
theorem works_presentPages {dirty : BitVec 8} {left page : ℕ} (h : Presentable fb)
    (hworks : d.Works) (hleft : page + left = ssd1306Pages)
    (hbefore : ∀ q < page, fb.dirtyPages.getLsbD q = false)
    (hafter : ∀ q, page ≤ q → fb.dirtyPages.getLsbD q = dirty.getLsbD q) :
    (presentPages dirty left page fb d).2.2 = true ∧
      (presentPages dirty left page fb d).2.1.Works ∧
      Presentable (presentPages dirty left page fb d).1 ∧
      (presentPages dirty left page fb d).1.dirtyPages = 0 := by
  induction left generalizing page fb d with
  | zero =>
    refine ⟨rfl, hworks, h, BitVec.eq_of_getLsbD_eq fun q _ => ?_⟩
    refine Eq.trans ?_ BitVec.getLsbD_zero.symm
    by_cases hq : q < page
    · exact hbefore q hq
    · exact h.pages q (by omega)
  | succ left ih =>
    have hpage : page < ssd1306Pages := by omega
    have hmax : page < maxPages := Nat.lt_of_lt_of_le hpage (by decide)
    rw [Display.presentPages]
    by_cases hclean : dirty.getLsbD page = false
    · rw [if_pos ((and_pageMask_eq_zero hmax dirty).2 hclean)]
      refine ih h hworks (by omega) (fun q hq => ?_) fun q hq => hafter q (by omega)
      rcases Nat.lt_succ_iff_lt_or_eq.1 hq with hq | rfl
      · exact hbefore q hq
      · rw [hafter q (Nat.le_refl q)]
        exact hclean
    · rw [if_neg (mt (and_pageMask_eq_zero hmax dirty).1 hclean)]
      rw [Bool.not_eq_false] at hclean
      have hbit : fb.dirtyPages.getLsbD page = true := by
        rw [hafter page (Nat.le_refl page)]
        exact hclean
      rw [MonoFb.dirtySpan_of_tidy h.tidy h.size.valid (by rw [h.size.pageCount]; exact hpage) hbit]
      dsimp only
      obtain ⟨hspan, hlast⟩ := (h.tidy page hmax).1 hbit
      rw [h.size.width] at hlast
      obtain ⟨hset, hopened⟩ := works_setPageWindow hworks hpage hspan hlast
      rcases hw : setPageWindow d page (fb.dirtyMinX page) (fb.dirtyMaxX page) with ⟨e, - | -⟩
      · rw [hw] at hset
        cases hset
      · rw [hw] at hopened
        dsimp only
        obtain ⟨hsent, hnext⟩ := works_presentSpan hopened fb.data (page * ssd1306Width)
          (fb.dirtyMaxX page) (fb.dirtyMinX page)
        rcases hs : presentSpan e fb.data (page * ssd1306Width) (fb.dirtyMaxX page)
          (fb.dirtyMinX page) with ⟨e', - | -⟩
        · rw [hs] at hsent
          cases hsent
        · rw [hs] at hnext
          dsimp only
          have hbits : ∀ q, (fb.clearDirty (pageMask page)).dirtyPages.getLsbD q =
              (fb.dirtyPages.getLsbD q && decide (page ≠ q)) := by
            intro q
            by_cases hq : q < maxPages
            · rw [MonoFb.clearDirty_pageMask hmax, Bool.eq_iff_iff, Bool.and_eq_true,
                decide_eq_true_iff]
              exact getLsbD_and_not_pageMask hq _
            · have hbyte : 8 ≤ q := Nat.le_of_not_lt hq
              rw [BitVec.getLsbD_of_ge _ q hbyte, BitVec.getLsbD_of_ge _ q hbyte, Bool.false_and]
          refine ih (h.clearDirty hmax) hnext (by omega) (fun q hq => ?_) fun q hq => ?_
          · rw [hbits]
            rcases Nat.lt_succ_iff_lt_or_eq.1 hq with hq | rfl
            · rw [hbefore q hq, Bool.false_and]
            · rw [decide_eq_false (not_not.2 rfl), Bool.and_false]
          · rw [hbits, decide_eq_true (by omega), Bool.and_true]
            exact hafter q (by omega)

/-- **Presenting succeeds**, and leaves nothing marked: the bus works, and every
span lies on the display. -/
theorem works_present (h : Presentable fb) (hworks : d.Works) :
    (present fb d).2.2 = true ∧ (present fb d).2.1.Works ∧ Presentable (present fb d).1 ∧
      (present fb d).1.dirtyPages = 0 := by
  have hguard : fb.dirtyPages &&& ~~~(pageMask ssd1306Pages - 1) = 0 := by
    refine BitVec.eq_of_getLsbD_eq fun q _ => ?_
    rw [BitVec.getLsbD_and]
    refine Eq.trans ?_ BitVec.getLsbD_zero.symm
    by_cases hq4 : ssd1306Pages ≤ q
    · rw [h.pages q hq4, Bool.false_and]
    · have hlow : ∀ q < ssd1306Pages, (~~~(pageMask ssd1306Pages - 1)).getLsbD q = false := by
        decide
      rw [hlow q (Nat.lt_of_not_le hq4), Bool.and_false]
  have hcounted : Ssd1306.Works { d with stats := ⟨0, 0, 0, 0⟩ } := hworks
  unfold present
  dsimp only
  rw [if_neg (by rw [not_or, not_not, not_not]; exact ⟨h.size.width, h.size.height⟩),
    if_neg (not_not.2 hguard)]
  split
  · rename_i hclean
    exact ⟨rfl, hcounted, h, hclean⟩
  · exact works_presentPages h hcounted (Nat.zero_add _) (fun q hq => absurd hq (Nat.not_lt_zero q))
      fun q _ => rfl

/-! ## The rows of the console -/

/-- No row is marked below the last. -/
def NoRows (rows : BitVec 8) : Prop := ∀ q, consoleRows ≤ q → rows.getLsbD q = false

/-- Only rows of the console are marked. -/
def LowRows (c : OledConsole) : Prop := NoRows c.dirtyRows

theorem noRows_mask : NoRows consoleAllRowsMask := by
  intro q hq
  by_cases hbyte : q < 8
  · have hhigh : ∀ q < 8, consoleRows ≤ q → consoleAllRowsMask.getLsbD q = false := by decide
    exact hhigh q hbyte hq
  · exact BitVec.getLsbD_of_ge _ q (by omega)

/-- Two masks that mark only rows of the console do so together. -/
theorem NoRows.or {rows rows' : BitVec 8} (h : NoRows rows) (h' : NoRows rows') :
    NoRows (rows ||| rows') := by
  intro q hq
  rw [BitVec.getLsbD_or, h q hq, h' q hq, Bool.false_or]

theorem noRows_dirtyBit {row : ℕ} (hrow : row < consoleRows) : NoRows (dirtyBit row) := by
  intro q hq
  have hor := getLsbD_or_dirtyBit_eq (j := q) (Nat.lt_trans hrow (by decide : consoleRows < 8)) 0#8
  rw [BitVec.zero_or, BitVec.getLsbD_zero, Bool.false_or] at hor
  rw [hor]
  exact decide_eq_false (by omega)

theorem lowRows_preparePrintable (h : LowRows c) : LowRows c.preparePrintable := by
  unfold OledConsole.preparePrintable
  dsimp only
  split
  · split
    · split
      · exact noRows_mask
      · exact noRows_mask
    · exact noRows_mask
  · split
    · split
      · exact h
      · exact noRows_mask
    · exact h

theorem lowRows_putPrintable (h : LowRows c) (char : UInt8) : LowRows (c.putPrintable char) := by
  unfold OledConsole.putPrintable OledConsole.markRow
  dsimp only
  split
  · exact h
  · rename_i hrow
    exact NoRows.or h (noRows_dirtyBit (Nat.lt_of_not_le hrow))

theorem lowRows_putc (h : LowRows c) (char : UInt8) : LowRows (c.putc char) := by
  unfold OledConsole.putc
  split
  · exact h
  · split
    · dsimp only
      split
      · exact h
      · exact noRows_mask
    · split
      · exact h
      · exact lowRows_putPrintable (lowRows_preparePrintable h) char

theorem lowRows_write (h : LowRows c) (text : List UInt8) : LowRows (c.write text) := by
  unfold OledConsole.write
  generalize (text.takeWhile fun c => decide (c ≠ 0)) = chars
  induction chars generalizing c with
  | nil => exact h
  | cons char chars ih => exact ih (lowRows_putc h char)

theorem lowRows_splashConsole (c : OledConsole) : LowRows (splashConsole c) :=
  lowRows_write (lowRows_putc (lowRows_write (lowRows_putc (lowRows_write
    (show LowRows c.clear from noRows_mask) _) _) _) _) _

theorem lowRows_applyView (h : LowRows c) (view : View) (forceRows : UInt32) :
    LowRows (c.applyView (some view) forceRows) := by
  have hcells : ∀ (row : ℕ), row < consoleRows → ∀ (desired : List (UInt8 × ℕ))
      (applied : (ℕ → ℕ → UInt8) × BitVec 8), NoRows applied.2 →
        NoRows (desired.foldl (applyCell row) applied).2 := by
    intro row hrow desired
    induction desired with
    | nil => exact fun _ h => h
    | cons cell desired ih =>
      intro applied h
      refine ih _ ?_
      unfold applyCell
      split
      · exact h.or (noRows_dirtyBit hrow)
      · exact h
  have hrows : ∀ (rows : List (Fin 3)) (applied : (ℕ → ℕ → UInt8) × BitVec 8),
      NoRows applied.2 → NoRows (rows.foldl (fun applied (row : Fin 3) =>
        (viewRow view row).zipIdx.foldl (applyCell row) applied) applied).2 := by
    intro rows
    induction rows with
    | nil => exact fun _ h => h
    | cons first rows ih => exact fun applied h => ih _ (hcells first first.isLt _ _ h)
  unfold applyView
  refine NoRows.or h (hrows (List.finRange 3) (c.cells, _) ?_)
  split
  · exact noRows_mask
  · exact fun q _ => BitVec.getLsbD_zero

theorem lowRows_render (h : LowRows c) (fb : MonoFb) (clip : Clip) :
    LowRows (c.render fb clip).1 := by
  unfold OledConsole.render
  split
  · exact h
  · split
    · exact h
    · intro q hq
      show (c.dirtyRows &&& _).getLsbD q = false
      rw [BitVec.getLsbD_and, h q hq, Bool.false_and]

/-- **Where three rows fit, none stays marked.** Only the lowest three rows may
be marked, so those that are drawn are all of them. -/
theorem render_rows (h : LowRows c) (fb : MonoFb) {clip : Clip}
    (hclip : ¬ (clip.width ≤ 0 ∨ clip.height ≤ 0)) (hcolumns : availableColumns clip ≠ 0)
    (hrows : availableRows clip = consoleRows) : (c.render fb clip).1.dirtyRows = 0 := by
  unfold OledConsole.render
  rw [if_neg hclip]
  split
  · rename_i hnothing
    rcases hnothing with hzero | hnone | hnone
    · exact hzero
    · exact absurd hnone hcolumns
    · rw [hrows] at hnone
      exact absurd hnone (by decide)
  · refine BitVec.eq_of_getLsbD_eq fun q hq => ?_
    have hrange : ∀ row ∈ List.range (availableRows clip), row < 8 := fun row hrow =>
      Nat.lt_of_lt_of_le (List.mem_range.1 hrow)
        (Nat.le_trans (availableRows_le clip) (by decide))
    have hdrawn := getLsbD_drawn c clip (List.range (availableRows clip)) hrange (fb, 0) q
    show (c.dirtyRows &&& ~~~_).getLsbD q = (0#8).getLsbD q
    rw [BitVec.getLsbD_and, BitVec.getLsbD_not, hdrawn, BitVec.getLsbD_zero]
    by_cases hlow : q < consoleRows
    · have hmem : q ∈ List.range (availableRows clip) := by
        rw [hrows]
        exact List.mem_range.2 hlow
      rw [decide_eq_true hmem, decide_eq_true hq, Bool.true_and, Bool.true_and]
      show (c.dirtyRows.getLsbD q && !((0#8).getLsbD q || c.dirtyRows.getLsbD q)) = false
      rw [BitVec.getLsbD_zero, Bool.false_or, Bool.and_not_self]
    · rw [h q (Nat.le_of_not_lt hlow), Bool.false_and]

/-- A layout that is accepted and at least twenty pixels high has room for three rows. -/
theorem room_of_tall {layout : Asset.Layout} (hvalid : oledUiLayoutValidate layout.active = true)
    (htall : 20 ≤ layout.height.toNat) :
    ¬ (layout.active.consoleRect.clip.width ≤ 0 ∨ layout.active.consoleRect.clip.height ≤ 0) ∧
      availableColumns layout.active.consoleRect.clip ≠ 0 ∧
      availableRows layout.active.consoleRect.clip = consoleRows := by
  have hwide := (Asset.oledUiLayoutValidate_iff.1 hvalid).wide
  have hint : ∀ n : UInt8, (Int32.ofInt (n.toNat : ℤ)).toInt = n.toNat := fun n => by
    have := n.toNat_lt
    exact Int32.toInt_ofInt_of_le (by omega) (by omega)
  have hnat : ∀ n : UInt8, (Int32.ofInt (n.toNat : ℤ)).toUInt32.toNat = n.toNat := fun n => by
    have hnonneg : (0 : Int32) ≤ Int32.ofInt (n.toNat : ℤ) := by
      rw [Int32.le_iff_toInt_le, hint]
      exact Int.natCast_nonneg _
    rw [Int32.toNat_toUInt32_of_le hnonneg]
    show (Int32.ofInt (n.toNat : ℤ)).toInt.toNat = n.toNat
    rw [hint]
    rfl
  refine ⟨?_, ?_, ?_⟩
  · rintro (hnone | hnone)
    · have hle := Int32.le_iff_toInt_le.1 hnone
      change (Int32.ofInt (layout.width.toNat : ℤ)).toInt ≤ 0 at hle
      rw [hint] at hle
      omega
    · have hle := Int32.le_iff_toInt_le.1 hnone
      change (Int32.ofInt (layout.height.toNat : ℤ)).toInt ≤ 0 at hle
      rw [hint] at hle
      omega
  · have hcolumns : availableColumns layout.active.consoleRect.clip =
        min (if (Int32.ofInt (layout.width.toNat : ℤ)).toUInt32.toNat < 5 then 0
          else 1 + ((Int32.ofInt (layout.width.toNat : ℤ)).toUInt32.toNat - 5) / 6)
          consoleColumns := rfl
    rw [hcolumns, hnat, if_neg (by omega)]
    unfold consoleColumns
    omega
  · have hrows : availableRows layout.active.consoleRect.clip =
        min (if (Int32.ofInt (layout.height.toNat : ℤ)).toUInt32.toNat < 6 then 0
          else 1 + ((Int32.ofInt (layout.height.toNat : ℤ)).toUInt32.toNat - 6) / 7)
          consoleRows := rfl
    rw [hrows, hnat, if_neg (by omega)]
    unfold consoleRows
    omega

/-! ## The desktop -/

/-- What a render on a bus that works needs and keeps. -/
structure Alive (s : Desktop ω) : Prop where
  bus : s.driver.Works
  layout : oledUiLayoutValidate s.layout = true
  tall : 20 ≤ s.activeLayout.height.toNat
  frame : Presentable s.ui.fb
  rows : LowRows s.ui.console

/-- What is alive is so by its display and its layout. -/
theorem Alive.of_same (h : Alive s) (hui : s'.ui = s.ui) (hdriver : s'.driver = s.driver)
    (hlayout : s'.activeLayout = s.activeLayout) : Alive s' := by
  refine ⟨hdriver ▸ h.bus, ?_, hlayout ▸ h.tall, hui ▸ h.frame, hui ▸ h.rows⟩
  show oledUiLayoutValidate s'.activeLayout.active = true
  rw [hlayout]
  exact h.layout

/-- The panel is initialised, at once. -/
theorem Alive.openPanel (h : Alive s) : s.openPanel.2 = true ∧ Alive s.openPanel.1 := by
  obtain ⟨hok, hworks⟩ := works_i2c1Write h.bus ssd1306InitPacket
  unfold Desktop.openPanel
  split
  · exact ⟨rfl, h⟩
  · exact ⟨hok, hworks, h.layout, h.tall, h.frame, h.rows⟩

/-- Drawing the status bar keeps the desktop alive. -/
theorem Alive.composeStatus (h : Alive s) (full : Bool) (snapshot : DesktopSnapshot) :
    Alive (s.composeStatus full snapshot) := by
  obtain ⟨hwidth, hheight, -⟩ := clips_of_validate h.layout s.fitsInt32
  have hdrawn : ∀ ui : Ui, Presentable ui.fb →
      Presentable (ui.renderStatus s.layout.statusRect.clip).fb := by
    intro ui hfb
    show Presentable (ui.status.render ui.fb s.layout.statusRect.clip).2
    rw [(render_status_eq hwidth hheight ui.status ui.fb).1]
    split
    · exact hfb.setPixels _
    · exact hfb.setPixels _
  have hconsole : (s.composeStatus full snapshot).ui.console = s.ui.console := by
    cases full with
    | true => rfl
    | false => rfl
  refine ⟨h.bus, h.layout, h.tall, ?_, by rw [hconsole]; exact h.rows⟩
  cases full with
  | true =>
    exact hdrawn ⟨(snapshot.setStatus s.ui.status).markAllDirty, s.ui.console,
      s.ui.fb.clear.markAllDirty⟩ (presentable_clear h.frame.size)
  | false => exact hdrawn ⟨snapshot.setStatus s.ui.status, s.ui.console, s.ui.fb⟩ h.frame

/-- **All that is marked is drawn.** -/
theorem Alive.drawConsole (h : Alive s) {c : OledConsole} (hc : LowRows c) :
    ({ s with ui := { s.ui with console := c } } : Desktop ω).drawConsole.2 = true ∧
      Alive ({ s with ui := { s.ui with console := c } } : Desktop ω).drawConsole.1 := by
  obtain ⟨hclip, hcolumns, hrows⟩ := room_of_tall h.layout h.tall
  refine ⟨decide_eq_true (render_rows hc s.ui.fb hclip hcolumns hrows), h.bus, h.layout, h.tall, ?_,
    lowRows_render hc s.ui.fb _⟩
  show Presentable (c.render s.ui.fb s.layout.consoleRect.clip).2
  rw [(render_eq c s.ui.fb _).1]
  exact h.frame.setPixels _

/-- The body is drawn whole, where there is a view to draw. -/
theorem Alive.composeBody (h : Alive s) (full : Bool) (snapshot : DesktopSnapshot) :
    Alive (s.composeBody full snapshot).1 ∧
      ((snapshot.state = .home → s.apps.machine.runtime.activeId ≠ 0) →
        (s.composeBody full snapshot).2 = true) := by
  unfold Desktop.composeBody
  split
  · split
    · obtain ⟨hok, hdrawn⟩ := h.drawConsole (lowRows_splashConsole s.ui.console)
      exact ⟨hdrawn, fun _ => hok⟩
    · exact ⟨h, fun _ => rfl⟩
  · rename_i hstate
    split
    · split
      · rename_i hview
        refine ⟨h, fun hactive => absurd hview ?_⟩
        unfold Desktop.viewGet
        rw [if_neg (hactive hstate)]
        exact Option.some_ne_none _
      · rename_i view hview
        obtain ⟨hok, hdrawn⟩ := h.drawConsole (lowRows_applyView h.rows view
          (if full = true then 1 else 0))
        exact ⟨hdrawn, fun _ => hok⟩
    · exact ⟨h, fun _ => rfl⟩

/-- The framebuffer is presented, and nothing is left marked. -/
theorem Alive.finish (h : Alive s) (enable : Bool) (snapshot : DesktopSnapshot) (t : Readings) :
    (s.finish enable snapshot t).2 = true ∧ Alive (s.finish enable snapshot t).1 := by
  obtain ⟨hok, hworks, hframe, hclean⟩ := works_present h.frame h.bus
  have hon : (switchOn enable (present s.ui.fb s.driver).2.1).2 = true ∧
      (switchOn enable (present s.ui.fb s.driver).2.1).1.Works := by
    unfold switchOn
    split
    · exact works_i2c1Write hworks _
    · exact ⟨rfl, hworks⟩
  unfold Desktop.finish
  dsimp only
  rw [hok, hon.1, if_neg Bool.noConfusion, if_neg (not_not.2 hclean), if_neg Bool.noConfusion]
  exact ⟨rfl, hon.2, h.layout, h.tall, hframe, h.rows⟩

/-- A composition succeeds, in part or in full. -/
theorem Alive.draw (h : Alive s) (force : Bool) (snapshot : DesktopSnapshot) (t : Readings) :
    Alive (s.draw force snapshot t).1 ∧
      ((snapshot.state = .home → s.apps.machine.runtime.activeId ≠ 0) →
        (s.draw force snapshot t).2 = true) := by
  obtain ⟨-, -, happs, -⟩ := openPanel_spec s
  obtain ⟨hopen, hpanel⟩ := h.openPanel
  unfold Desktop.draw
  dsimp only
  rw [h.layout, if_neg Bool.noConfusion, hopen, if_neg Bool.noConfusion]
  generalize (!s.panelInitialized || force || !s.snapshotValid ||
    decide (snapshot.state ≠ s.lastSnapshot.state)) = full
  obtain ⟨hbody, hfits⟩ := (hpanel.composeStatus full snapshot).composeBody full snapshot
  rw [show (s.openPanel.1.composeStatus full snapshot).apps = s.openPanel.1.apps from rfl,
    happs] at hfits
  split
  · rename_i hfailed
    exact ⟨hbody.of_same rfl rfl rfl, fun hactive => absurd (hfits hactive) (by
      rw [hfailed]
      exact Bool.noConfusion)⟩
  · obtain ⟨hok, hfinished⟩ := hbody.finish (!s.panelInitialized) snapshot t
    exact ⟨hfinished, fun _ => hok⟩

variable (app)

/-- The applications are served, and at home there is one to show. -/
def Desktop.Served (s : Desktop ω) (t : Readings) : Prop :=
  let served := (s.beginRender t).applicationService app (s.beginRender t).snapshotBuild
  served.2 = true ∧
    ((s.beginRender t).snapshotBuild.state = .home → served.1.apps.machine.runtime.activeId ≠ 0)

/-- **A render succeeds** where the applications are served, and keeps the
desktop alive in any case. -/
theorem Alive.render (h : Alive s) (force : Bool) (t : Readings) :
    Alive (s.render app force t).1 ∧ (s.Served app t → (s.render app force t).2 = true) := by
  have hbegun : Alive (s.beginRender t) := by
    have hstate : ∀ s : Desktop ω, Alive s → Alive ((s.updateState t).refresh t) := by
      intro s h
      unfold Desktop.updateState
      split
      · exact h.of_same rfl rfl rfl
      · exact h.of_same rfl rfl rfl
    unfold Desktop.beginRender
    split
    · exact hstate s.uiInitialize ⟨h.bus, h.layout, h.tall, h.frame, h.rows⟩
    · exact hstate s h
  have hserved : Alive ((s.beginRender t).applicationService app
      (s.beginRender t).snapshotBuild).1 := by
    unfold Desktop.applicationService
    split
    · exact hbegun
    · exact hbegun.of_same rfl rfl rfl
  unfold Desktop.render
  dsimp only
  split
  · rename_i hfailed
    exact ⟨hserved, fun hok => absurd hok.1 (by rw [hfailed]; exact Bool.noConfusion)⟩
  · split
    · exact ⟨hserved, fun _ => rfl⟩
    · obtain ⟨hdrawn, hok⟩ := hserved.draw force (s.beginRender t).snapshotBuild t
      exact ⟨hdrawn, fun hs => hok hs.2⟩

/-- A layout that is committed has room for three rows. -/
def Desktop.Event.roomy : Desktop.Event → Bool
  | .activate payload =>
    Asset.layoutValidate payload && decide (20 ≤ (payload.getD 4 0).toNat)
  | _ => true

/-- The height of a layout that is activated is the payload's fifth byte. -/
theorem height_layoutActivate (payload : List UInt8) (layout : Asset.Layout) :
    (Asset.layoutActivate payload layout).height = payload.getD 4 0 := by
  unfold Asset.layoutActivate
  split
  · rfl
  · rename_i hsame
    simp only [not_or, not_not] at hsame
    exact hsame.2.2.2

/-- Every event keeps the desktop alive, in layouts that leave room. -/
theorem Alive.step (h : Alive s) (event : Desktop.Event) (hroomy : event.roomy = true) :
    Alive (s.step app event) := by
  have hcurrent : ∀ t, Alive (s.applicationSnapshotCurrent t).1 := by
    intro t
    unfold Desktop.applicationSnapshotCurrent
    split
    · exact h
    · exact h.of_same rfl rfl rfl
  cases event with
  | render force t => exact (h.render app force t).1
  | start t id => exact (hcurrent t).of_same rfl rfl rfl
  | stop t => exact (hcurrent t).of_same rfl rfl rfl
  | activate payload =>
    simp only [Desktop.Event.roomy, Bool.and_eq_true, decide_eq_true_iff] at hroomy
    refine ⟨h.bus, ?_, ?_, h.frame, h.rows⟩
    · show oledUiLayoutValidate (Asset.layoutActivate payload s.activeLayout).active = true
      rw [Asset.active_layoutActivate]
      exact Asset.validate_payloadLayout hroomy.1
    · show 20 ≤ (Asset.layoutActivate payload s.activeLayout).height.toNat
      rw [height_layoutActivate]
      exact hroomy.2

/-- Every run of such events keeps the desktop alive. -/
theorem Alive.run (h : Alive s) (events : List Desktop.Event)
    (hroomy : ∀ event ∈ events, event.roomy = true) : Alive (s.run app events) := by
  induction events generalizing s with
  | nil => exact h
  | cons event events ih =>
    exact ih (h.step app event (hroomy event List.mem_cons_self))
      fun e hmem => hroomy e (List.mem_cons_of_mem _ hmem)

/-- A board boots alive. -/
theorem alive_boot (status : OledStatusBar) (console : OledConsole) (storage : Nor.Mem)
    (driver : Ssd1306) (hbus : driver.Works) (apps : App.Bridge ω) (layout : Asset.Layout)
    (hvalid : oledUiLayoutValidate layout.active = true) (htall : 20 ≤ layout.height.toNat) :
    Alive (Desktop.boot status console storage driver apps layout) := by
  refine ⟨hbus, hvalid, htall, ⟨⟨rfl, rfl⟩, fun page _ => ?_, fun q _ => BitVec.getLsbD_zero⟩,
    noRows_mask⟩
  -- no page is marked, and no span of one begins
  refine iff_of_false ?_ fun hspan => ?_
  · rw [Bool.not_eq_true]
    exact BitVec.getLsbD_zero
  · have hbegins : spanClean ≤ 0 := hspan.1
    exact absurd hbegins (by decide)

/-- Reading the same services twice changes nothing. -/
theorem update_update (services : ServiceState) (uptimeMs : UInt32) (a b c : UInt8) :
    ((services.update uptimeMs a b c).update uptimeMs a b c).current =
      (services.update uptimeMs a b c).current := by
  have hminute : (displayedMinuteFromUptime
      (displayedMinuteFromUptime services.uptimeSaturated uptimeMs).2 uptimeMs).1 =
        (displayedMinuteFromUptime services.uptimeSaturated uptimeMs).1 := by
    unfold displayedMinuteFromUptime
    by_cases hfull : services.uptimeSaturated = true ∨ 6000 ≤ uptimeMs / 60000
    · rw [if_pos hfull, if_pos (Or.inl rfl)]
    · rw [if_neg hfull, if_neg hfull]
  unfold ServiceState.update
  dsimp only
  rw [hminute]

/-- What a render remembers that succeeded. -/
structure Remembered (s : Desktop ω) (r : Desktop ω × Bool) : Prop where
  revision : r.1.layoutRevision = r.1.activeLayoutRevision
  apps : r.1.apps = s.apps

/-- A splash that was presented is remembered with the layout it was drawn in.
-/
theorem remembered_finish (hsplash : snapshot.state = .splash) {enable : Bool}
    (hok : (s.finish enable snapshot t).2 = true) : Remembered s (s.finish enable snapshot t) := by
  revert hok
  unfold Desktop.finish
  dsimp only
  split
  · exact fun hok => Bool.noConfusion hok
  · split
    · exact fun hok => Bool.noConfusion hok
    · split
      · exact fun hok => Bool.noConfusion hok
      · refine fun _ => ⟨rfl, ?_⟩
        show (if snapshot.state = .home then Desktop.viewConsumed s.apps else s.apps) = s.apps
        rw [if_neg (by rw [hsplash]; exact DesktopState.noConfusion)]

/-- The body leaves the applications and the splash's time alone. -/
theorem keeps_composeBody (full : Bool) (snapshot : DesktopSnapshot) (s : Desktop ω) :
    (s.composeBody full snapshot).1.apps = s.apps ∧
      (s.composeBody full snapshot).1.splashVisible = s.splashVisible := by
  unfold Desktop.composeBody
  split
  · split
    · exact ⟨rfl, rfl⟩
    · exact ⟨rfl, rfl⟩
  · split
    · split
      · exact ⟨rfl, rfl⟩
      · exact ⟨rfl, rfl⟩
    · exact ⟨rfl, rfl⟩

/-- A splash that was drawn is remembered with the layout it was drawn in. -/
theorem remembered_draw (hsplash : snapshot.state = .splash)
    (hok : (s.draw force snapshot t).2 = true) : Remembered s (s.draw force snapshot t) := by
  obtain ⟨-, -, happs, -⟩ := openPanel_spec s
  revert hok
  unfold Desktop.draw
  dsimp only
  split
  · exact fun hok => Bool.noConfusion hok
  · split
    · exact fun hok => Bool.noConfusion hok
    · split
      · exact fun hok => Bool.noConfusion hok
      · intro hok
        have h := remembered_finish hsplash hok
        exact ⟨h.revision, h.apps.trans ((keeps_composeBody _ snapshot _).1.trans happs)⟩

/-- A render begins with the applications as they were. -/
theorem apps_beginRender (s : Desktop ω) (t : Readings) : (s.beginRender t).apps = s.apps := by
  have hstate : ∀ s : Desktop ω, ((s.updateState t).refresh t).apps = s.apps := by
    intro s
    unfold Desktop.updateState
    split
    · rfl
    · rfl
  unfold Desktop.beginRender
  rw [hstate]
  split
  · rfl
  · rfl

/-- **Where the splash was drawn, it stays up**: the same service finds nothing to do. -/
theorem idle_of_splash (hinv : Inv False s) (hsplash : (s.beginRender t).state = .splash)
    (hready : t.ready = false) (hview : s.apps.machine.runtime.viewDirty = false)
    (hok : (s.render app force t).2 = true) : (s.render app force t).1.Idle app t := by
  obtain ⟨hvalid, hlast, -⟩ := (hinv.render app force t).last hok
  obtain ⟨hbegun, hinit, -⟩ := hinv.beginRender t
  have happs : (s.beginRender t).apps = s.apps := apps_beginRender s t
  obtain ⟨before, hs₁⟩ : ∃ before : Desktop ω, s.beginRender t = before.refresh t := ⟨_, rfl⟩
  have hserved : ∀ (s : Desktop ω), s.state = .splash →
      s.applicationService app s.snapshotBuild = (s, true) := fun s hstate =>
    if_pos (show s.state ≠ .home by rw [hstate]; exact DesktopState.noConfusion)
  have hdrawn : Remembered (s.beginRender t) (s.render app force t) ∧
      SameBase (s.beginRender t) (s.render app force t).1 := by
    revert hok
    unfold Desktop.render
    dsimp only
    rw [hserved _ hsplash, if_neg Bool.noConfusion]
    split
    · rename_i hcurrent
      simp only [Desktop.upToDate, Bool.and_eq_true, decide_eq_true_iff] at hcurrent
      exact fun _ => ⟨⟨hcurrent.1.2, rfl⟩, .refl _⟩
    · exact fun hok => ⟨remembered_draw hsplash hok, (hbegun.draw hinit force _ t).1⟩
  obtain ⟨⟨hrevision, hkept⟩, hbase⟩ := hdrawn
  obtain ⟨r, hr⟩ : ∃ r, r = (s.render app force t).1 := ⟨_, rfl⟩
  rw [← hr] at hvalid hlast hrevision hkept hbase ⊢
  -- the next service begins where this one ended
  have hagain : r.beginRender t = r.refresh t := by
    have hready' : ¬ t.ready = true := by rw [hready]; exact Bool.noConfusion
    have hinit' : ¬ r.initialized = false := by
      rw [hbase.initialized, hinit]
      exact Bool.noConfusion
    unfold Desktop.beginRender Desktop.updateState
    rw [if_neg hinit', if_neg fun hover => hready' hover.2.2.2.1]
  have hcurrent : (r.refresh t).services.current = r.services.current := by
    have hservices : r.services = (before.refresh t).services := by rw [hbase.services, hs₁]
    unfold Desktop.refresh
    rw [hservices]
    exact update_update _ _ _ _ _
  have hsnapshot : (r.refresh t).snapshotBuild = r.snapshotBuild := by
    unfold Desktop.snapshotBuild
    rw [hcurrent]
    rfl
  unfold Desktop.Idle
  dsimp only
  rw [hagain, hserved (r.refresh t) (hbase.state.trans hsplash), hsnapshot]
  refine ⟨rfl, ?_⟩
  show (!false && r.snapshotValid && !r.apps.machine.runtime.viewDirty &&
    decide (r.layoutRevision = r.activeLayoutRevision) &&
    decide (r.snapshotBuild = r.lastSnapshot)) = true
  rw [hvalid, hkept, happs, hview, decide_eq_true hrevision, decide_eq_true hlast.symm]
  rfl

theorem run_render (s : Desktop ω) (force : Bool) (t : Readings) :
    s.run app [.render force t] = (s.render app force t).1 := rfl

/-- What a board reads that has just booted. -/
def atBoot : Readings := ⟨false, 0, 0, false, false, 0⟩

/-- The splash, drawn. -/
def splashShown : Desktop Unit :=
  defaultBoot.run (fun _ => silentCallbacks) [.render true atBoot]

theorem inv_defaultBoot : Inv False defaultBoot :=
  inv_boot False .init blankConsole (fun _ => 0) darkDriver silentApps {}

/-- The splash is drawn with success. -/
theorem ok_splash : (defaultBoot.render (fun _ => silentCallbacks) true atBoot).2 = true :=
  ((alive_boot .init blankConsole (fun _ => 0) darkDriver rfl silentApps {} (by decide)
    (by decide)).render (fun _ => silentCallbacks) true atBoot).2
      ⟨rfl, fun hhome => absurd hhome (by decide)⟩

/-- A layout that is committed while the splash is up: the service after it
overlooks it. -/
theorem layout_unnoticed_splash : splashShown.Idle (fun _ => silentCallbacks) atBoot ∧
    Overlooked (splashShown.step (fun _ => silentCallbacks) (.activate [1, 2, 12, 120, 20, 0, 0, 0]))
      ((splashShown.step (fun _ => silentCallbacks) (.activate [1, 2, 12, 120, 20, 0, 0, 0])).render
        (fun _ => silentCallbacks) false atBoot) := by
  have hidle : splashShown.Idle (fun _ => silentCallbacks) atBoot := by
    rw [splashShown, run_render]
    exact idle_of_splash (fun _ => silentCallbacks) inv_defaultBoot rfl rfl rfl ok_splash
  exact ⟨hidle, layout_unnoticed (fun _ => silentCallbacks) .init blankConsole (fun _ => 0)
    darkDriver silentApps {} [.render true atBoot] [1, 2, 12, 120, 20, 0, 0, 0] (by decide) atBoot
    splashShown rfl hidle⟩

end Display

end DeusOs
