import DeusOs.Display.Regions

/-!
# The status bar

What the status bar shows are eight items, three indicators and five
characters of the time, each in a block of its own. An item that is not marked
is the item that was there; a render draws the items that are marked.
-/

namespace DeusOs

namespace Display

open Canvas (Apart Consistent Shows)

variable {fb : MonoFb} {clip : Clip} {s s' : OledStatusBar}

/-! ## Lists of calls -/

/-- A loop that draws where a test holds. -/
theorem foldl_setPixels {ι : Type} (test : ι → Bool) (g : ι → List SetPixel) (is : List ι)
    (fb : MonoFb) :
    is.foldl (fun fb i => if test i = true then fb.setPixels (g i) else fb) fb =
      fb.setPixels ((is.filter test).flatMap g) := by
  induction is generalizing fb with
  | nil => rfl
  | cons i is ih =>
    rw [List.foldl_cons, ih, List.filter_cons]
    split
    · rw [List.flatMap_cons, MonoFb.setPixels_append]
    · rfl

/-- Lists of pixels are set list by list. -/
theorem setPixels_flatMap {ι : Type} (g : ι → List SetPixel) (is : List ι) (fb : MonoFb) :
    fb.setPixels (is.flatMap g) = is.foldl (fun fb i => fb.setPixels (g i)) fb := by
  rw [MonoFb.setPixels, List.foldl_flatMap]
  rfl

theorem hline_eq (fb : MonoFb) (x y width value : Int32) :
    fb.hline x y width value = fb.setPixels
      ((List.range width.toNatClampNeg).map fun i => ⟨x + Int32.ofNat i, y, value⟩) := by
  rw [MonoFb.hline, MonoFb.setPixels, List.foldl_map]

/-- The calls of `drawFrame`. -/
def framePixels (clip : Clip) : List SetPixel :=
  ((List.range clip.height.toNatClampNeg).flatMap fun dy =>
      (List.range clip.width.toNatClampNeg).map fun dx =>
        ⟨clip.x + Int32.ofNat dx, clip.y + Int32.ofNat dy, 0⟩) ++
    ((List.range clip.width.toNatClampNeg).map fun i => ⟨clip.x + Int32.ofNat i, clip.y, 1⟩) ++
      ((List.range clip.width.toNatClampNeg).map fun i =>
        ⟨clip.x + Int32.ofNat i, clip.y + 8, 1⟩) ++
        (List.range 7).flatMap fun i =>
          [⟨clip.x, clip.y + 1 + Int32.ofNat i, 1⟩, ⟨clip.x + 127, clip.y + 1 + Int32.ofNat i, 1⟩]

/-- The frame is a list of pixels. -/
theorem drawFrame_eq (fb : MonoFb) (clip : Clip) :
    OledStatusBar.drawFrame fb clip = fb.setPixels (framePixels clip) := by
  rw [framePixels, MonoFb.setPixels_append, MonoFb.setPixels_append, MonoFb.setPixels_append,
    ← hline_eq, ← hline_eq, setPixels_flatMap, OledStatusBar.drawFrame, clearReferenceRect]
  rfl

/-! ## Items -/

/-- What the status bar draws on its frame. -/
inductive StatusItem
  | indicator (i : Fin 3)
  | digit (i : Fin 5)
  deriving DecidableEq

/-- The items, in the order in which they are drawn. -/
def statusItems : List StatusItem :=
  (List.finRange 3).map .indicator ++ (List.finRange 5).map .digit

/-- Every item is among the items. -/
theorem mem_statusItems (item : StatusItem) : item ∈ statusItems := by
  cases item with
  | indicator i => exact List.mem_append_left _ (List.mem_map_of_mem (List.mem_finRange i))
  | digit i => exact List.mem_append_right _ (List.mem_map_of_mem (List.mem_finRange i))

namespace StatusItem

/-- Where an item is drawn. -/
def left : StatusItem → ℕ
  | .indicator 0 => 2
  | .indicator 1 => 8
  | .indicator 2 => 14
  | .digit 0 => 109
  | .digit 1 => 113
  | .digit 2 => 116
  | .digit 3 => 119
  | .digit 4 => 123

/-- Its columns. -/
def columns : StatusItem → ℕ
  | .indicator _ => 5
  | .digit _ => 3

/-- The bitmap of an item. -/
def bitmap (s : OledStatusBar) : StatusItem → Option (List UInt8)
  | .indicator i => some (if s.indicator i = 1 then indicatorFilled else indicatorRing)
  | .digit i => font3x5Glyph (oledStatusTimeText s.hours s.minutes i)

/-- What an item shows. -/
def content (s : OledStatusBar) : StatusItem → UInt8
  | .indicator i => s.indicator i
  | .digit i => oledStatusTimeText s.hours s.minutes i

/-- An item is marked. -/
def isDirty (s : OledStatusBar) : StatusItem → Bool
  | .indicator i => decide (s.dirty &&& dirtyBit (i + 1) ≠ 0)
  | .digit i => decide (s.dirty &&& dirtyBit 4 ≠ 0) && decide (¬ s.timeDirty &&& dirtyBit i = 0)

/-- The calls that draw an item. -/
def pixels (s : OledStatusBar) (clip : Clip) (item : StatusItem) : List SetPixel :=
  ((item.bitmap s).map
    (bitmapPixels item.columns (clip.x + Int32.ofNat item.left) (clip.y + 2))).getD []

theorem bitmap_congr {item : StatusItem} (h : item.content s' = item.content s) :
    item.bitmap s' = item.bitmap s := by
  cases item with
  | indicator i =>
    have hi : s'.indicator i = s.indicator i := h
    rw [bitmap, bitmap, hi]
  | digit i => exact congrArg font3x5Glyph h

theorem pixels_congr {item : StatusItem} (h : item.content s' = item.content s) (clip : Clip) :
    item.pixels s' clip = item.pixels s clip := by
  rw [pixels, pixels, bitmap_congr h]

/-- Blocks of different items do not overlap. -/
theorem block_apart : ∀ item ∈ statusItems, ∀ item' ∈ statusItems, item ≠ item' →
    item.left + item.columns ≤ item'.left ∨ item'.left + item'.columns ≤ item.left := by
  decide

theorem block_le : ∀ item ∈ statusItems, item.left + item.columns ≤ 128 := by decide

end StatusItem

open StatusItem (content isDirty pixels)

/-- The value of a pixel of a bitmap. -/
def bitmapValue (columns : ℕ) (bitmap : List UInt8) (row column : ℕ) : Int32 :=
  if bitmap.getD row 0 &&& 1 <<< UInt8.ofNat (columns - 1 - column) ≠ 0 then 1 else 0

/-- **An item is plotted in its block.** -/
theorem plots_pixels (s : OledStatusBar) (clip : Clip) (item : StatusItem) :
    ∃ v, Plots clip item.left item.columns 2 5 v (item.pixels s clip) := by
  rw [pixels]
  cases item.bitmap s with
  | none => exact ⟨fun _ _ => 0, fun q hq => by cases hq⟩
  | some bitmap =>
    refine ⟨fun i j => bitmapValue item.columns bitmap (j - 2) (i - item.left), fun q hq => ?_⟩
    obtain ⟨row, hrow, hq⟩ := List.mem_flatMap.1 hq
    obtain ⟨column, hcolumn, rfl⟩ := List.mem_map.1 hq
    rw [List.mem_range] at hrow hcolumn
    refine ⟨item.left + column, 2 + row, by omega, by omega, by omega, by omega, ?_, ?_, ?_⟩
    · rw [Int32.ofNat_add, ← Int32.add_assoc]
    · rw [Int32.ofNat_add, ← Int32.add_assoc]
      rfl
    · show bitmapValue item.columns bitmap row column =
        bitmapValue item.columns bitmap (2 + row - 2) (item.left + column - item.left)
      rw [Nat.add_sub_cancel_left, Nat.add_sub_cancel_left]

theorem inBlock_pixels (s : OledStatusBar) (clip : Clip) (item : StatusItem) :
    InBlock clip item.left item.columns 2 5 (item.pixels s clip) := by
  obtain ⟨v, hv⟩ := plots_pixels s clip item
  exact hv.inBlock

theorem consistent_pixels (fb : MonoFb) (s : OledStatusBar) (clip : Clip) (item : StatusItem) :
    Consistent (fb.strokes (item.pixels s clip)) := by
  obtain ⟨v, hv⟩ := plots_pixels s clip item
  have hle := StatusItem.block_le item (mem_statusItems item)
  exact hv.consistent (by omega) (by omega)

/-- **Items are apart.** -/
theorem apart_pixels (fb : MonoFb) (s : OledStatusBar) (clip : Clip) {item item' : StatusItem}
    (hne : item ≠ item') :
    Apart (fb.strokes (item.pixels s clip)) (fb.strokes (item'.pixels s clip)) := by
  have hle := StatusItem.block_le item (mem_statusItems item)
  have hle' := StatusItem.block_le item' (mem_statusItems item')
  have hblock := StatusItem.block_apart item (mem_statusItems item) item' (mem_statusItems item') hne
  exact (inBlock_pixels s clip item).apart (inBlock_pixels s clip item') (by omega) (by omega)
    (by omega) (by omega) (by omega)

/-- Some of the items. -/
def itemPixels (s : OledStatusBar) (clip : Clip) (items : List StatusItem) : List SetPixel :=
  items.flatMap (pixels s clip)

/-- No two items draw one point differently. -/
theorem consistent_itemPixels (fb : MonoFb) (s : OledStatusBar) (clip : Clip)
    (items : List StatusItem) : Consistent (fb.strokes (itemPixels s clip items)) := by
  rw [itemPixels, strokes_flatMap]
  exact Canvas.consistent_flatMap (fun item _ => consistent_pixels fb s clip item)
    fun item _ item' _ hne => apart_pixels fb s clip hne

/-- **The items of the status bar are drawn where they are marked.** -/
theorem drawItems_eq (s : OledStatusBar) (fb : MonoFb) (clip : Clip) :
    s.drawItems fb clip = fb.setPixels (itemPixels s clip (statusItems.filter (isDirty s))) := by
  have hindicators : ∀ fb : MonoFb, (List.finRange 3).foldl
      (fun fb (i : Fin 3) =>
        if s.dirty &&& dirtyBit (i + 1) ≠ 0 then
          drawBitmap5x5 fb (clip.x + indicatorX i) (clip.y + 2)
            (if s.indicator i = 1 then indicatorFilled else indicatorRing)
        else fb) fb =
      fb.setPixels (itemPixels s clip
        (((List.finRange 3).map StatusItem.indicator).filter (isDirty s))) := by
    intro fb
    have hdraw : ∀ (fb : MonoFb) (i : Fin 3), drawBitmap5x5 fb (clip.x + indicatorX i) (clip.y + 2)
        (if s.indicator i = 1 then indicatorFilled else indicatorRing) =
          fb.setPixels (pixels s clip (.indicator i)) := by
      intro fb i
      have hleft : indicatorX i = Int32.ofNat (StatusItem.indicator i).left := by
        match i with
        | 0 | 1 | 2 => rfl
      rw [hleft]
      rfl
    rw [itemPixels, List.filter_map, List.flatMap_map, ← foldl_setPixels]
    simp only [hdraw, Function.comp_apply, isDirty, decide_eq_true_iff]
  have hdigits : ∀ fb : MonoFb, (if s.dirty &&& dirtyBit 4 ≠ 0 then
      (List.finRange 5).foldl
        (fun fb (i : Fin 5) =>
          if s.timeDirty &&& dirtyBit i = 0 then fb
          else
            drawFont3x5 fb (clip.x + 109 + timeXOffsets i) (clip.y + 2)
              (oledStatusTimeText s.hours s.minutes i)) fb
      else fb) =
      fb.setPixels (itemPixels s clip
        (((List.finRange 5).map StatusItem.digit).filter (isDirty s))) := by
    intro fb
    have hdraw : ∀ (fb : MonoFb) (i : Fin 5),
        drawFont3x5 fb (clip.x + 109 + timeXOffsets i) (clip.y + 2)
          (oledStatusTimeText s.hours s.minutes i) = fb.setPixels (pixels s clip (.digit i)) := by
      intro fb i
      have hleft : clip.x + 109 + timeXOffsets i =
          clip.x + Int32.ofNat (StatusItem.digit i).left := by
        rw [Int32.add_assoc]
        match i with
        | 0 | 1 | 2 | 3 | 4 => rfl
      rw [hleft, drawFont3x5, pixels, StatusItem.bitmap]
      cases font3x5Glyph (oledStatusTimeText s.hours s.minutes i) with
      | none => rfl
      | some glyph => rfl
    rw [itemPixels, List.filter_map, List.flatMap_map, ← foldl_setPixels]
    by_cases htime : s.dirty &&& dirtyBit 4 = 0
    · rw [if_neg (not_not.2 htime)]
      have hclean : ∀ i : Fin 5, isDirty s (.digit i) = false := by
        intro i
        rw [isDirty, decide_eq_false (not_not.2 htime), Bool.false_and]
      simp only [Function.comp_apply, hclean, Bool.false_eq_true, if_false]
      exact (List.foldl_fixed _).symm
    · rw [if_pos htime]
      have hdirty : ∀ i : Fin 5,
          isDirty s (.digit i) = decide (¬ s.timeDirty &&& dirtyBit i = 0) := by
        intro i
        rw [isDirty, decide_eq_true htime, Bool.true_and]
      simp only [hdraw, Function.comp_apply, hdirty, decide_eq_true_iff, ite_not]
  unfold OledStatusBar.drawItems
  dsimp only
  rw [hindicators, hdigits, ← MonoFb.setPixels_append, itemPixels, itemPixels, itemPixels,
    ← List.flatMap_append, ← List.filter_append]
  rfl

/-! ## Marks -/

/-- What is not marked afterwards was not marked before, and shows the same. -/
def StatusMarks (s s' : OledStatusBar) : Prop :=
  ∀ item : StatusItem, item.isDirty s' = false →
    item.isDirty s = false ∧ item.content s' = item.content s

theorem StatusMarks.refl (s : OledStatusBar) : StatusMarks s s := fun _ h => ⟨h, rfl⟩

theorem StatusMarks.trans {s'' : OledStatusBar} (h : StatusMarks s s') (h' : StatusMarks s' s'') :
    StatusMarks s s'' := by
  intro item hclean
  obtain ⟨hclean', hcontent'⟩ := h' item hclean
  obtain ⟨hclean'', hcontent⟩ := h item hclean'
  exact ⟨hclean'', hcontent'.trans hcontent⟩

/-- The time is one of a clock. -/
def InRange (s : OledStatusBar) : Prop := s.hours ≤ 99 ∧ s.minutes ≤ 59

/-- An item is not marked exactly if its bit is clear. -/
theorem and_dirtyBit_eq_zero {i : ℕ} (hi : i < 8) (d : BitVec 8) :
    d &&& dirtyBit i = 0 ↔ d.getLsbD i = false := and_pageMask_eq_zero hi d

/-- Marking an item sets its bit and no other. -/
theorem getLsbD_or_dirtyBit {i j : ℕ} (hi : i < 8) (d : BitVec 8) :
    (d ||| dirtyBit i).getLsbD j = true ↔ d.getLsbD j = true ∨ i = j := getLsbD_or_pageMask hi d

/-- What a mark leaves clean was clean, and is not what was marked. -/
theorem clean_of_or_dirtyBit {i j : ℕ} (hi : i < 8) {d : BitVec 8}
    (hclean : (d ||| dirtyBit i).getLsbD j = false) : d.getLsbD j = false ∧ i ≠ j := by
  have hor := (getLsbD_or_dirtyBit (j := j) hi d).not.1 (by rw [Bool.not_eq_true]; exact hclean)
  rwa [not_or, Bool.not_eq_true] at hor

/-- An indicator is dirty by its bit. -/
theorem isDirty_indicator {i : Fin 3} :
    isDirty s (.indicator i) = false ↔ s.dirty.getLsbD (i + 1) = false := by
  rw [isDirty, decide_eq_false_iff_not, not_not]
  exact and_dirtyBit_eq_zero (by omega) _

/-- A digit is dirty by its bit and the time's. -/
theorem isDirty_digit {i : Fin 5} : isDirty s (.digit i) = false ↔
    (s.dirty.getLsbD 4 = true → s.timeDirty.getLsbD i = false) := by
  rw [isDirty, Bool.and_eq_false_iff, decide_eq_false_iff_not, decide_eq_false_iff_not, not_not,
    not_not, and_dirtyBit_eq_zero (by omega), and_dirtyBit_eq_zero (by omega)]
  cases s.dirty.getLsbD 4 with
  | false => exact iff_of_true (Or.inl rfl) fun h => Bool.noConfusion h
  | true => exact ⟨fun h _ => h.resolve_left Bool.noConfusion, fun h => Or.inr (h rfl)⟩

/-- Setting an indicator marks it. -/
theorem marks_setIndicator (i : Fin 3) (value : UInt32) (s : OledStatusBar) :
    StatusMarks s (s.setIndicator i value) := by
  intro item hclean
  unfold OledStatusBar.setIndicator at hclean ⊢
  dsimp only at hclean ⊢
  generalize (if value = 1 then (1 : UInt8) else 0) = new at hclean ⊢
  by_cases hne : s.indicator i ≠ new
  · rw [if_pos hne] at hclean ⊢
    cases item with
    | indicator k =>
      rw [isDirty_indicator] at hclean
      obtain ⟨hbefore, hne'⟩ := clean_of_or_dirtyBit (show (i : ℕ) + 1 < 8 by omega) hclean
      refine ⟨isDirty_indicator.2 hbefore, ?_⟩
      have hki : k ≠ i := fun he => hne' (by rw [he])
      exact Function.update_of_ne hki _ _
    | digit k =>
      have hoff := isDirty_digit.1 hclean
      refine ⟨isDirty_digit.2 fun hdirty => hoff ?_, rfl⟩
      exact (getLsbD_or_dirtyBit (show (i : ℕ) + 1 < 8 by omega) s.dirty).2 (Or.inl hdirty)
  · rw [if_neg hne] at hclean ⊢
    exact ⟨hclean, rfl⟩

/-- Setting the indicators marks those it changes. -/
theorem marks_setIndicators (s : OledStatusBar) (system usb network : UInt32) :
    StatusMarks s (s.setIndicators system usb network) :=
  ((marks_setIndicator 0 system s).trans (marks_setIndicator 1 usb _)).trans
    (marks_setIndicator 2 network _)

/-- The characters that differ are marked. -/
theorem foldl_mark (differs : Fin 5 → Prop) [DecidablePred differs] (is : List (Fin 5))
    (d : BitVec 8) (j : Fin 5) :
    (is.foldl (fun d i => if differs i then d ||| dirtyBit i else d) d).getLsbD j = true ↔
      d.getLsbD j = true ∨ j ∈ is ∧ differs j := by
  induction is generalizing d with
  | nil => exact ⟨Or.inl, fun h => h.resolve_right fun hmem => by cases hmem.1⟩
  | cons i is ih =>
    rw [List.foldl_cons, ih, List.mem_cons]
    by_cases hi : differs i
    · rw [if_pos hi, getLsbD_or_dirtyBit (by omega)]
      constructor
      · rintro ((hd | hij) | ⟨hmem, hj⟩)
        · exact Or.inl hd
        · have hij' := Fin.ext hij
          subst hij'
          exact Or.inr ⟨Or.inl rfl, hi⟩
        · exact Or.inr ⟨Or.inr hmem, hj⟩
      · rintro (hd | ⟨rfl | hmem, hj⟩)
        · exact Or.inl (Or.inl hd)
        · exact Or.inl (Or.inr rfl)
        · exact Or.inr ⟨hmem, hj⟩
    · rw [if_neg hi]
      constructor
      · rintro (hd | ⟨hmem, hj⟩)
        · exact Or.inl hd
        · exact Or.inr ⟨Or.inr hmem, hj⟩
      · rintro (hd | ⟨rfl | hmem, hj⟩)
        · exact Or.inl hd
        · exact absurd hj hi
        · exact Or.inr ⟨hmem, hj⟩

/-- **Setting the time marks the characters that change.** -/
theorem marks_setTime (s : OledStatusBar) (hours minutes : UInt32) :
    StatusMarks s (s.setTime hours minutes) := by
  intro item hclean
  unfold OledStatusBar.setTime at hclean ⊢
  dsimp only at hclean ⊢
  generalize (if 99 < hours then (99 : UInt8) else hours.toUInt8) = newHours at hclean ⊢
  generalize (if 59 < minutes then (59 : UInt8) else minutes.toUInt8) = newMinutes at hclean ⊢
  by_cases hsame : s.hours = newHours ∧ s.minutes = newMinutes
  · rw [if_pos hsame] at hclean ⊢
    exact ⟨hclean, rfl⟩
  · rw [if_neg hsame] at hclean ⊢
    have hmarked := foldl_mark (fun i => oledStatusTimeText s.hours s.minutes i ≠
      oledStatusTimeText newHours newMinutes i) (List.finRange 5) s.timeDirty
    generalize (List.finRange 5).foldl
      (fun (d : BitVec 8) (i : Fin 5) => if oledStatusTimeText s.hours s.minutes i ≠
        oledStatusTimeText newHours newMinutes i then d ||| dirtyBit i else d) s.timeDirty = d
      at hclean hmarked ⊢
    -- the bits that were there are there
    have hkept : ∀ j, s.dirty.getLsbD j = true →
        (if d ≠ 0 then s.dirty ||| dirtyBit 4 else s.dirty).getLsbD j = true := by
      intro j hj
      split
      · exact (getLsbD_or_dirtyBit (by omega) _).2 (Or.inl hj)
      · exact hj
    cases item with
    | indicator k =>
      refine ⟨isDirty_indicator.2 ?_, rfl⟩
      have hoff := isDirty_indicator.1 hclean
      by_contra hon
      rw [hkept _ (Bool.not_eq_false _ ▸ hon)] at hoff
      cases hoff
    | digit k =>
      have hoff := isDirty_digit.1 hclean
      have hnone : d.getLsbD k = false := by
        by_contra hon
        have hset : d.getLsbD k = true := Bool.not_eq_false _ ▸ hon
        have hdne : d ≠ 0 := by
          intro hzero
          rw [hzero] at hset
          exact Bool.noConfusion (BitVec.getLsbD_zero.symm.trans hset)
        have htime : (if d ≠ 0 then s.dirty ||| dirtyBit 4 else s.dirty).getLsbD 4 = true := by
          rw [if_pos hdne]
          exact (getLsbD_or_dirtyBit (by omega) _).2 (Or.inr rfl)
        exact hon (hoff htime)
      have hor := (hmarked k).not.1 (by rw [Bool.not_eq_true]; exact hnone)
      rw [not_or, Bool.not_eq_true] at hor
      refine ⟨isDirty_digit.2 fun _ => hor.1, ?_⟩
      by_contra hdiffers
      exact hor.2 ⟨List.mem_finRange k, fun he => hdiffers he.symm⟩

/-- A number that is cut off at a bound. -/
theorem clamp_le (bound : UInt32) (x : UInt32) :
    (if bound < x then bound.toUInt8 else x.toUInt8) ≤ bound.toUInt8 ∨ 255 < bound.toNat := by
  rcases Nat.lt_or_ge 255 bound.toNat with hlt | hge
  · exact Or.inr hlt
  · refine Or.inl ?_
    split
    · exact UInt8.le_refl _
    · rename_i hle
      have hnat : x.toNat ≤ bound.toNat := UInt32.le_iff_toNat_le.1 (UInt32.not_lt.1 hle)
      rw [UInt8.le_iff_toNat_le, UInt32.toNat_toUInt8, UInt32.toNat_toUInt8,
        Nat.mod_eq_of_lt (by omega), Nat.mod_eq_of_lt (by omega)]
      exact hnat

/-- The time that is set has two digits each. -/
theorem inRange_setTime (s : OledStatusBar) (hr : InRange s) (hours minutes : UInt32) :
    InRange (s.setTime hours minutes) := by
  have hhours : (if 99 < hours then (99 : UInt8) else hours.toUInt8) ≤ 99 :=
    (clamp_le 99 hours).resolve_right (by decide)
  have hminutes : (if 59 < minutes then (59 : UInt8) else minutes.toUInt8) ≤ 59 :=
    (clamp_le 59 minutes).resolve_right (by decide)
  unfold OledStatusBar.setTime
  dsimp only
  generalize (if 99 < hours then (99 : UInt8) else hours.toUInt8) = newHours at hhours ⊢
  generalize (if 59 < minutes then (59 : UInt8) else minutes.toUInt8) = newMinutes at hminutes ⊢
  by_cases hsame : s.hours = newHours ∧ s.minutes = newMinutes
  · rw [if_pos hsame]
    exact hr
  · rw [if_neg hsame]
    exact ⟨hhours, hminutes⟩

/-- Setting an indicator leaves the time. -/
theorem inRange_setIndicator (s : OledStatusBar) (hr : InRange s) (i : Fin 3) (value : UInt32) :
    InRange (s.setIndicator i value) := by
  unfold OledStatusBar.setIndicator
  dsimp only
  generalize (if value = 1 then (1 : UInt8) else 0) = new
  by_cases hne : s.indicator i ≠ new
  · rw [if_pos hne]
    exact hr
  · rw [if_neg hne]
    exact hr

/-! ## Points -/

/-- The characters of a clock have glyphs. -/
theorem glyph_digit : ∀ n : Fin 100, ((font3x5Glyph (0x30 + UInt8.ofNat n / 10)).isSome &&
    (font3x5Glyph (0x30 + UInt8.ofNat n % 10)).isSome) = true := by
  decide

theorem bitmap_isSome (hr : InRange s) (item : StatusItem) : ∃ bitmap, item.bitmap s = some bitmap := by
  have hboth : ∀ x : UInt8, x ≤ 99 → (font3x5Glyph (0x30 + x / 10)).isSome = true ∧
      (font3x5Glyph (0x30 + x % 10)).isSome = true := by
    intro x hx
    have hlt : x.toNat < 100 := Nat.lt_succ_of_le (UInt8.le_iff_toNat_le.1 hx)
    have hglyph := glyph_digit ⟨x.toNat, hlt⟩
    rw [Bool.and_eq_true] at hglyph
    simpa only [UInt8.ofNat_toNat] using hglyph
  have hminutes : s.minutes ≤ 99 := UInt8.le_trans hr.2 (by decide)
  cases item with
  | indicator i => exact ⟨_, rfl⟩
  | digit i =>
    refine Option.isSome_iff_exists.1 ?_
    match i with
    | 0 => exact (hboth _ hr.1).1
    | 1 => exact (hboth _ hr.1).2
    | 2 => rfl
    | 3 => exact (hboth _ hminutes).1
    | 4 => exact (hboth _ hminutes).2

/-- **The points of the items do not depend on what they show.** -/
theorem points_itemPixels (hr : InRange s) (hr' : InRange s') (clip : Clip)
    (items : List StatusItem) :
    (itemPixels s clip items).map SetPixel.point = (itemPixels s' clip items).map SetPixel.point := by
  rw [itemPixels, itemPixels, List.map_flatMap, List.map_flatMap]
  congr 1
  funext item
  obtain ⟨bitmap, hb⟩ := bitmap_isSome hr item
  obtain ⟨bitmap', hb'⟩ := bitmap_isSome hr' item
  rw [pixels, pixels, hb, hb']
  show (bitmapPixels _ _ _ _).map _ = (bitmapPixels _ _ _ _).map _
  rw [bitmapPixels, bitmapPixels, List.map_flatMap, List.map_flatMap]
  congr 1
  funext row
  rw [List.map_map, List.map_map]
  rfl

/-! ## The clip -/

/-- The frame lies in the block of the clip. -/
theorem inBlock_framePixels (hw : clip.width = 128) (hh : clip.height = 9) :
    InBlock clip 0 128 0 9 (framePixels clip) := by
  have hwidth : clip.width.toNatClampNeg = 128 := by rw [hw]; rfl
  have hheight : clip.height.toNatClampNeg = 9 := by rw [hh]; rfl
  rw [framePixels, hwidth, hheight]
  refine ((InBlock.append ?_ ?_).append ?_).append ?_
  · refine inBlock_flatMap fun dy hdy q hq => ?_
    obtain ⟨dx, hdx, rfl⟩ := List.mem_map.1 hq
    rw [List.mem_range] at hdx hdy
    exact ⟨dx, dy, by omega, by omega, by omega, by omega, rfl, rfl⟩
  · intro q hq
    obtain ⟨i, hi, rfl⟩ := List.mem_map.1 hq
    rw [List.mem_range] at hi
    exact ⟨i, 0, by omega, by omega, by omega, by omega, rfl, (Int32.add_zero _).symm⟩
  · intro q hq
    obtain ⟨i, hi, rfl⟩ := List.mem_map.1 hq
    rw [List.mem_range] at hi
    exact ⟨i, 8, by omega, by omega, by omega, by omega, rfl, rfl⟩
  · refine inBlock_flatMap fun i hi q hq => ?_
    rw [List.mem_range] at hi
    have hy : clip.y + 1 + Int32.ofNat i = clip.y + Int32.ofNat (1 + i) := by
      rw [Int32.ofNat_add, ← Int32.add_assoc]
      rfl
    rcases List.mem_cons.1 hq with rfl | hq
    · exact ⟨0, 1 + i, by omega, by omega, by omega, by omega, (Int32.add_zero _).symm, hy⟩
    · rw [List.mem_singleton.1 hq]
      exact ⟨127, 1 + i, by omega, by omega, by omega, by omega, rfl, hy⟩

/-- Every item is drawn inside of the bar. -/
theorem inBlock_item (s : OledStatusBar) (clip : Clip) (item : StatusItem) :
    InBlock clip 0 128 0 9 (item.pixels s clip) := by
  have hle := StatusItem.block_le item (mem_statusItems item)
  exact (inBlock_pixels s clip item).mono (Nat.zero_le _) (by omega) (by omega) (by omega)

/-- Every list of items is drawn inside of the bar. -/
theorem inBlock_itemPixels (s : OledStatusBar) (clip : Clip) (items : List StatusItem) :
    InBlock clip 0 128 0 9 (itemPixels s clip items) :=
  inBlock_flatMap fun item _ => inBlock_item s clip item

end Display

end DeusOs
