import DeusOs.Display.Model.Text
import DeusOs.Display.Pixels

/-!
# Text cells — the two paths

Two writes of one value to a byte under two masks are one write under both,
the spans included (`write_write`). So the pixels of a column, set one after
the other, are the one byte that the aligned path writes
(`drawCellAligned_eq_generic`).
-/

namespace DeusOs

namespace Display

open OledConsole (cellPixels)

namespace MonoFb

variable {fb : MonoFb} {clip : Clip} {x y : Int32} {page ux : ℕ} {a b v m m₁ m₂ : UInt8}

/-! ## One byte -/

/-- A bit of a byte that was written under a mask. -/
theorem getLsbD_masked {k : ℕ} (hk : k < 8) (old v m : UInt8) :
    (old &&& ~~~m ||| v &&& m).toBitVec.getLsbD k =
      if m.toBitVec.getLsbD k = true then v.toBitVec.getLsbD k else old.toBitVec.getLsbD k := by
  simp only [UInt8.toBitVec_or, UInt8.toBitVec_and, UInt8.toBitVec_not, BitVec.getLsbD_or,
    BitVec.getLsbD_and, BitVec.getLsbD_not, decide_eq_true hk, Bool.true_and]
  cases m.toBitVec.getLsbD k <;> simp

theorem masked_zero (old v : UInt8) : old &&& ~~~0 ||| v &&& 0 = old := by
  refine UInt8.toBitVec_inj.1 (BitVec.eq_of_getLsbD_eq fun k hk => ?_)
  rw [getLsbD_masked hk]
  simp

theorem masked_masked (old v m₁ m₂ : UInt8) :
    (old &&& ~~~m₁ ||| v &&& m₁) &&& ~~~m₂ ||| v &&& m₂ =
      old &&& ~~~(m₁ ||| m₂) ||| v &&& (m₁ ||| m₂) := by
  refine UInt8.toBitVec_inj.1 (BitVec.eq_of_getLsbD_eq fun k hk => ?_)
  rw [getLsbD_masked hk, getLsbD_masked hk, getLsbD_masked hk, UInt8.toBitVec_or, BitVec.getLsbD_or]
  cases m₁.toBitVec.getLsbD k <;> cases m₂.toBitVec.getLsbD k <;> simp

/-- What both writes leave as it was the first one leaves as it was. -/
theorem masked_eq_of_masked {old : UInt8}
    (hboth : old &&& ~~~(m₁ ||| m₂) ||| v &&& (m₁ ||| m₂) = old) :
    old &&& ~~~m₁ ||| v &&& m₁ = old := by
  refine UInt8.toBitVec_inj.1 (BitVec.eq_of_getLsbD_eq fun k hk => ?_)
  have hbit : (old &&& ~~~(m₁ ||| m₂) ||| v &&& (m₁ ||| m₂)).toBitVec.getLsbD k =
      old.toBitVec.getLsbD k := by rw [hboth]
  rw [getLsbD_masked hk, UInt8.toBitVec_or, BitVec.getLsbD_or] at hbit
  rw [getLsbD_masked hk]
  cases h₁ : m₁.toBitVec.getLsbD k with
  | true =>
    rw [h₁] at hbit
    simpa using hbit
  | false => simp

/-- The picture's bytes, replaced. -/
def withData (fb : MonoFb) (data : Nor.Mem) : MonoFb := { fb with data := data }

/-- What is written behind the guards: the byte, and a mark if it changes. -/
def poke (fb : MonoFb) (page ux : ℕ) (newValue : UInt8) : MonoFb :=
  if newValue = fb.data (page * fb.width + ux) then fb
  else
    (fb.withData (Function.update fb.data (page * fb.width + ux) newValue)).markPageX page ux

theorem markPageX_withData (fb : MonoFb) (data : Nor.Mem) (page ux : ℕ) :
    (fb.withData data).markPageX page ux = (fb.markPageX page ux).withData data := by
  unfold markPageX withData
  split
  · rfl
  · split <;> rfl

/-- A column is marked once. -/
theorem markPageX_markPageX (fb : MonoFb) (page ux : ℕ) :
    (fb.markPageX page ux).markPageX page ux = fb.markPageX page ux := by
  by_cases hout : maxPages ≤ page ∨ fb.width ≤ ux ∨ 0xFFFF < ux
  · have hone : fb.markPageX page ux = fb := if_pos hout
    rw [hone, hone]
  have hpage : page < maxPages := Nat.lt_of_not_le fun h => hout (Or.inl h)
  by_cases hclean : fb.dirtyPages &&& pageMask page = 0
  · have hone : fb.markPageX page ux =
        { fb with
          dirtyMinX := Function.update fb.dirtyMinX page ux
          dirtyMaxX := Function.update fb.dirtyMaxX page ux
          dirtyPages := fb.dirtyPages ||| pageMask page } := by
      unfold markPageX
      rw [if_neg hout, if_pos hclean]
    have hmarked : ¬(fb.dirtyPages ||| pageMask page) &&& pageMask page = 0 := by
      rw [and_pageMask_eq_zero hpage, (getLsbD_or_pageMask hpage _).2 (Or.inr rfl)]
      exact Bool.noConfusion
    rw [hone]
    unfold markPageX
    rw [if_neg hout, if_neg hmarked]
    simp only [Function.update_self, Nat.lt_irrefl, if_false]
  · have hone : fb.markPageX page ux =
        { fb with
          dirtyMinX := if ux < fb.dirtyMinX page then Function.update fb.dirtyMinX page ux
            else fb.dirtyMinX
          dirtyMaxX := if fb.dirtyMaxX page < ux then Function.update fb.dirtyMaxX page ux
            else fb.dirtyMaxX } := by
      unfold markPageX
      rw [if_neg hout, if_neg hclean]
    rw [hone]
    unfold markPageX
    rw [if_neg hout, if_neg hclean]
    dsimp only
    by_cases hmin : ux < fb.dirtyMinX page
    · by_cases hmax : fb.dirtyMaxX page < ux
      · simp only [if_pos hmin, if_pos hmax, Function.update_self, Nat.lt_irrefl, if_false]
      · simp only [if_pos hmin, if_neg hmax, Function.update_self, Nat.lt_irrefl, if_false]
    · by_cases hmax : fb.dirtyMaxX page < ux
      · simp only [if_neg hmin, if_pos hmax, Function.update_self, Nat.lt_irrefl, if_false]
      · simp only [if_neg hmin, if_neg hmax]

/-- **Two writes are the last one**, unless the last one undoes the first: then
the byte was marked for nothing. -/
theorem poke_poke (h : b = fb.data (page * fb.width + ux) → a = fb.data (page * fb.width + ux)) :
    (fb.poke page ux a).poke page ux b = fb.poke page ux b := by
  by_cases ha : a = fb.data (page * fb.width + ux)
  · have hone : fb.poke page ux a = fb := if_pos ha
    rw [hone]
  have hb : ¬b = fb.data (page * fb.width + ux) := fun hb => ha (h hb)
  have hpoke : ∀ z, ¬z = fb.data (page * fb.width + ux) → fb.poke page ux z =
      (fb.markPageX page ux).withData
        (Function.update fb.data (page * fb.width + ux) z) := fun z hz => by
    rw [poke, if_neg hz, markPageX_withData]
  have hindex : page * ((fb.markPageX page ux).withData
      (Function.update fb.data (page * fb.width + ux) a)).width + ux = page * fb.width + ux := by
    rw [withData, (markPageX_same fb page ux).1]
  have hdata : ((fb.markPageX page ux).withData
      (Function.update fb.data (page * fb.width + ux) a)).data =
        Function.update fb.data (page * fb.width + ux) a := rfl
  rw [hpoke a ha, hpoke b hb, poke, hindex, hdata, Function.update_self]
  by_cases hab : b = a
  · rw [if_pos hab, hab]
  · rw [if_neg hab, Function.update_idem, markPageX_withData, markPageX_withData,
      markPageX_markPageX]
    rfl

theorem writeMaskedByte_eq_poke
    (h : ¬(¬fb.Valid ∨ fb.pageCount ≤ page ∨ maxPages ≤ page ∨ fb.width ≤ ux)) (v m : UInt8) :
    (fb.writeMaskedByte page ux v m).1 = fb.poke page ux
      (fb.data (page * fb.width + ux) &&& ~~~m ||| v &&& m) := by
  unfold writeMaskedByte poke
  by_cases hm : m = 0
  · rw [if_pos (by simp only [hm, or_true]), hm, masked_zero, if_pos rfl]
  · rw [if_neg]
    · dsimp only
      split <;> rfl
    · rintro (hv | hp | hx | hw | hz)
      · exact h (Or.inl hv)
      · exact h (Or.inr (Or.inl hp))
      · exact h (Or.inr (Or.inr (Or.inl hx)))
      · exact h (Or.inr (Or.inr (Or.inr hw)))
      · exact hm hz

theorem writeMaskedByte_of_out
    (h : ¬fb.Valid ∨ fb.pageCount ≤ page ∨ maxPages ≤ page ∨ fb.width ≤ ux) (v m : UInt8) :
    (fb.writeMaskedByte page ux v m).1 = fb := by
  unfold writeMaskedByte
  rw [if_pos]
  rcases h with hv | hp | hx | hw
  · exact Or.inl hv
  · exact Or.inr (Or.inl hp)
  · exact Or.inr (Or.inr (Or.inl hx))
  · exact Or.inr (Or.inr (Or.inr (Or.inl hw)))

theorem poke_same (fb : MonoFb) (page ux : ℕ) (z : UInt8) :
    SameSize fb (fb.poke page ux z) ∧ (fb.poke page ux z).data (page * fb.width + ux) = z := by
  unfold poke
  split
  · rename_i hz
    exact ⟨.refl fb, hz.symm⟩
  · obtain ⟨hw, hh, hd⟩ := markPageX_same
      (fb.withData (Function.update fb.data (page * fb.width + ux) z)) page ux
    refine ⟨⟨hw, hh⟩, ?_⟩
    rw [hd]
    exact Function.update_self ..

/-- **Two writes of one value under two masks are one under both.** -/
theorem write_write (fb : MonoFb) (page ux : ℕ) (v m₁ m₂ : UInt8) :
    ((fb.writeMaskedByte page ux v m₁).1.writeMaskedByte page ux v m₂).1 =
      (fb.writeMaskedByte page ux v (m₁ ||| m₂)).1 := by
  by_cases hout : ¬fb.Valid ∨ fb.pageCount ≤ page ∨ maxPages ≤ page ∨ fb.width ≤ ux
  · rw [writeMaskedByte_of_out hout, writeMaskedByte_of_out hout, writeMaskedByte_of_out hout]
  · rw [writeMaskedByte_eq_poke hout, writeMaskedByte_eq_poke hout]
    obtain ⟨hsize, hdata⟩ := poke_same fb page ux
      (fb.data (page * fb.width + ux) &&& ~~~m₁ ||| v &&& m₁)
    have hout' : ¬(¬(fb.poke page ux
          (fb.data (page * fb.width + ux) &&& ~~~m₁ ||| v &&& m₁)).Valid ∨
        (fb.poke page ux
          (fb.data (page * fb.width + ux) &&& ~~~m₁ ||| v &&& m₁)).pageCount ≤ page ∨
        maxPages ≤ page ∨ (fb.poke page ux
          (fb.data (page * fb.width + ux) &&& ~~~m₁ ||| v &&& m₁)).width ≤ ux) := by
      simp only [Valid, pageCount, hsize.width, hsize.height]
      exact hout
    rw [writeMaskedByte_eq_poke hout', hsize.width, hdata, masked_masked]
    exact poke_poke fun hboth => masked_eq_of_masked hboth

/-! ## The rows of a cell -/

/-- A coordinate that is not negative, as an unsigned word. -/
theorem toNat_toUInt32 {i : Int32} (h : ¬i < 0) : i.toUInt32.toNat = i.toNatClampNeg := by
  have hle : 0 ≤ i.toInt := Int32.le_iff_toInt_le.1 (Int32.not_lt.1 h)
  have hdef : i.toNatClampNeg = i.toBitVec.toInt.toNat := rfl
  have hint : i.toInt = i.toBitVec.toInt := rfl
  have hcond := BitVec.toInt_eq_toNat_cond i.toBitVec
  have hword : i.toUInt32.toNat = i.toBitVec.toNat := rfl
  rw [hint] at hle
  split at hcond
  · omega
  · have := i.toBitVec.isLt
    omega

/-- The cell is aligned to a page and lies above the last row. -/
structure Aligned (fb : MonoFb) (y : Int32) : Prop where
  nonneg : ¬y < 0
  page : y.toNatClampNeg % 8 = 0
  inside : y.toNatClampNeg + 7 < fb.height

theorem aligned_of_canUse {metrics : MonoFontMetrics}
    (h : fb.canUseAlignedFastPath y metrics = true) : fb.Aligned y := by
  unfold canUseAlignedFastPath at h
  split at h
  · cases h
  split at h
  · cases h
  rename_i hy
  rw [not_or, not_not] at hy
  have hnat := toNat_toUInt32 hy.1
  have hlt := Int32.toNatClampNeg_lt y
  have hmod : y.toUInt32.toNat % 8 = 0 := by
    have hand := congrArg (fun z : Int32 => z.toUInt32.toNat) hy.2
    have hword : (y &&& 7).toUInt32.toNat = y.toUInt32.toNat &&& 7 := rfl
    rw [hword, Nat.and_two_pow_sub_one_eq_mod y.toUInt32.toNat 3] at hand
    exact hand
  have hsum : (y.toUInt32 + 7).toNat = y.toUInt32.toNat + 7 := by
    rw [UInt32.toNat_add]
    exact Nat.mod_eq_of_lt (by show y.toUInt32.toNat + 7 < 4294967296; omega)
  rw [decide_eq_true_eq, hsum, hnat] at h
  exact ⟨hy.1, hnat ▸ hmod, h⟩

/-- A row of the cell. -/
theorem toInt_row (h : fb.Aligned y) {row : ℕ} (hrow : row < 8) :
    ¬y + Int32.ofNat row < 0 ∧ (y + Int32.ofNat row).toNatClampNeg = y.toNatClampNeg + row := by
  have hpage := h.page
  have hle : 0 ≤ y.toInt := Int32.le_iff_toInt_le.1 (Int32.not_lt.1 h.nonneg)
  have hlt := y.toInt_lt
  have hdef : y.toNatClampNeg = y.toInt.toNat := rfl
  have hofNat : (Int32.ofNat row).toInt = row := Int32.toInt_ofNat_of_lt (by omega)
  have hsum : (y + Int32.ofNat row).toInt = y.toInt + row := by
    rw [Int32.toInt_add, hofNat]
    exact Int.bmod_eq_of_le (by omega) (by omega)
  constructor
  · rw [Int32.lt_iff_toInt_lt, hsum]
    show ¬y.toInt + row < 0
    omega
  · show (y + Int32.ofNat row).toInt.toNat = _
    rw [hsum, hdef]
    omega

/-- Whether a cell is aligned depends on the size only. -/
theorem SameSize.aligned {fb' : MonoFb} (hsize : SameSize fb fb') (h : fb.Aligned y) :
    fb'.Aligned y :=
  ⟨h.nonneg, h.page, by rw [hsize.height]; exact h.inside⟩

theorem verticalMask_zero (fb : MonoFb) (clip : Clip) (y : Int32) : fb.verticalMask clip y 0 = 0 := rfl

/-- A row that the clip shows is in the mask. -/
theorem verticalMask_succ (h : fb.Aligned y) (clip : Clip) {row : ℕ} (hrow : row < 8) :
    fb.verticalMask clip y (row + 1) =
      if axisContains (y + Int32.ofNat row) clip.y clip.height = true then
        fb.verticalMask clip y row ||| 1 <<< UInt8.ofNat row
      else fb.verticalMask clip y row := by
  obtain ⟨hneg, hnat⟩ := toInt_row h hrow
  have hinside := h.inside
  have hin : 0 ≤ y + Int32.ofNat row ∧ (y + Int32.ofNat row).toNatClampNeg < fb.height :=
    ⟨Int32.not_lt.1 hneg, by omega⟩
  rw [verticalMask, List.range_succ, List.foldl_append, List.foldl_cons, List.foldl_nil]
  simp only [hin.1, hin.2, and_true]
  rfl

/-- The mask of a cell's rows depends on the size only. -/
theorem SameSize.verticalMask {fb' : MonoFb} (hsize : SameSize fb fb') (clip : Clip) (y : Int32)
    (rows : ℕ) : fb'.verticalMask clip y rows = fb.verticalMask clip y rows := by
  simp only [MonoFb.verticalMask, hsize.height]

/-! ## One column -/

/-- Only the bits under the mask are written. -/
theorem writeMaskedByte_congr {v' : UInt8} (h : v &&& m = v' &&& m) (fb : MonoFb) (page ux : ℕ) :
    fb.writeMaskedByte page ux v m = fb.writeMaskedByte page ux v' m := by
  simp only [writeMaskedByte, h]

theorem writeMaskedByte_zero (fb : MonoFb) (page ux : ℕ) (v : UInt8) :
    (fb.writeMaskedByte page ux v 0).1 = fb := by
  unfold writeMaskedByte
  rw [if_pos (by simp only [or_true])]

/-- One bit of a byte: nothing, or the mask. -/
theorem and_mask {row : ℕ} (hrow : row < 8) (v : UInt8) (h : v &&& 1 <<< UInt8.ofNat row ≠ 0) :
    v &&& 1 <<< UInt8.ofNat row = 1 <<< UInt8.ofNat row := by
  have hbit : (v &&& 1 <<< UInt8.ofNat row).toBitVec =
      if v.toBitVec.getLsbD row then BitVec.twoPow 8 row else 0#8 := by
    rw [UInt8.toBitVec_and, toBitVec_mask row hrow, BitVec.and_twoPow]
  refine UInt8.toBitVec_inj.1 ?_
  rw [hbit, toBitVec_mask row hrow]
  split
  · rfl
  · rename_i hclear
    rw [if_neg hclear] at hbit
    exact absurd (UInt8.toBitVec_inj.1 hbit) h

/-- **A pixel of the cell is a write of its bit.** -/
theorem setPixel_row (h : fb.Aligned y) {px value : Int32} (hpx : ¬px < 0)
    (hwidth : ¬fb.width ≤ px.toNatClampNeg) {row : ℕ} (hrow : row < 8)
    (hvalue : value ≠ 0 ↔ v &&& 1 <<< UInt8.ofNat row ≠ 0) :
    fb.setPixel px (y + Int32.ofNat row) value =
      (fb.writeMaskedByte (y.toNatClampNeg / 8) px.toNatClampNeg v (1 <<< UInt8.ofNat row)).1 := by
  obtain ⟨hneg, hnat⟩ := toInt_row h hrow
  have hpage := h.page
  have hinside := h.inside
  by_cases hvalid : fb.Valid
  · have hdiv : (y.toNatClampNeg + row) / 8 = y.toNatClampNeg / 8 := by omega
    have hmod : (y.toNatClampNeg + row) % 8 = row := by omega
    have hneg' : ¬(px < 0 ∨ y + Int32.ofNat row < 0) := not_or.2 ⟨hpx, hneg⟩
    have hsize : ¬(fb.width ≤ px.toNatClampNeg ∨
        fb.height ≤ (y + Int32.ofNat row).toNatClampNeg) := by
      rw [hnat]
      exact not_or.2 ⟨hwidth, by omega⟩
    unfold setPixel
    rw [if_neg (not_not.2 hvalid), if_neg hneg']
    dsimp only
    rw [if_neg hsize, hnat, hdiv, hmod]
    by_cases hv : value ≠ 0
    · rw [if_pos hv]
      refine congrArg Prod.fst (writeMaskedByte_congr ?_ _ _ _)
      rw [and_mask hrow v (hvalue.1 hv), UInt8.and_self]
    · have hclear : v &&& 1 <<< UInt8.ofNat row = 0 := not_not.1 fun hne => hv (hvalue.2 hne)
      rw [if_neg hv]
      refine congrArg Prod.fst (writeMaskedByte_congr ?_ _ _ _)
      rw [hclear, UInt8.zero_and]
  · rw [writeMaskedByte_of_out (Or.inl hvalid)]
    unfold setPixel
    rw [if_pos hvalid]

/-- The calls of the generic renderer in a column, in its first `rows` rows. -/
def columnPixels (clip : Clip) (x y : Int32) (glyph : List UInt8) (column rows : ℕ) :
    List SetPixel :=
  (List.range rows).flatMap fun row =>
    if clip.contains (x + Int32.ofNat column) (y + Int32.ofNat row) = false then []
    else
      [⟨x + Int32.ofNat column, y + Int32.ofNat row,
        if column < 5 ∧ row < 7 ∧ glyph.getD column 0 &&& 1 <<< UInt8.ofNat row ≠ 0 then 1 else 0⟩]

/-- The byte of the aligned path for a column. -/
def cellBits (glyph : List UInt8) (column : ℕ) : UInt8 :=
  if column < 5 then glyph.getD column 0 else 0

/-- It has the bits that the generic renderer sets. -/
theorem cellBits_row {glyph : List UInt8} (hglyph : ∀ c < 5, glyph.getD c 0 &&& 0x80 = 0)
    (column : ℕ) {row : ℕ} (hrow : row < 8) :
    (column < 5 ∧ row < 7 ∧ glyph.getD column 0 &&& 1 <<< UInt8.ofNat row ≠ 0) ↔
      cellBits glyph column &&& 1 <<< UInt8.ofNat row ≠ 0 := by
  unfold cellBits
  by_cases hcolumn : column < 5
  · rw [if_pos hcolumn]
    constructor
    · exact fun h => h.2.2
    · refine fun h => ⟨hcolumn, ?_, h⟩
      by_contra hlast
      obtain rfl : row = 7 := by omega
      exact h (hglyph column hcolumn)
  · rw [if_neg hcolumn, UInt8.zero_and]
    exact ⟨fun h => absurd h.1 hcolumn, fun h => absurd rfl h⟩

/-- **The rows of a column are one byte**, under the rows the clip shows. -/
theorem setPixels_rows (h : fb.Aligned y) {glyph : List UInt8}
    (hglyph : ∀ c < 5, glyph.getD c 0 &&& 0x80 = 0) {column : ℕ}
    (hpx : ¬x + Int32.ofNat column < 0) (hwidth : ¬fb.width ≤ (x + Int32.ofNat column).toNatClampNeg)
    (hclip : axisContains (x + Int32.ofNat column) clip.x clip.width = true) {rows : ℕ}
    (hrows : rows ≤ 8) :
    fb.setPixels (columnPixels clip x y glyph column rows) =
      (fb.writeMaskedByte (y.toNatClampNeg / 8) (x + Int32.ofNat column).toNatClampNeg
        (cellBits glyph column) (fb.verticalMask clip y rows)).1 := by
  induction rows with
  | zero =>
    rw [verticalMask_zero, writeMaskedByte_zero]
    rfl
  | succ rows ih =>
    have hstep : columnPixels clip x y glyph column (rows + 1) =
        columnPixels clip x y glyph column rows ++
          if clip.contains (x + Int32.ofNat column) (y + Int32.ofNat rows) = false then []
          else
            [⟨x + Int32.ofNat column, y + Int32.ofNat rows,
              if column < 5 ∧ rows < 7 ∧ glyph.getD column 0 &&& 1 <<< UInt8.ofNat rows ≠ 0 then 1
              else 0⟩] := by
      unfold columnPixels
      rw [List.range_succ, List.flatMap_append, List.flatMap_cons, List.flatMap_nil, List.append_nil]
    rw [hstep, setPixels_append, ih (by omega), verticalMask_succ h clip (by omega), Clip.contains,
      hclip, Bool.true_and]
    by_cases hrow : axisContains (y + Int32.ofNat rows) clip.y clip.height = true
    · have hsize := sameSize_writeMaskedByte fb (y.toNatClampNeg / 8)
        (x + Int32.ofNat column).toNatClampNeg (cellBits glyph column) (fb.verticalMask clip y rows)
      rw [if_neg (by rw [hrow]; exact Bool.noConfusion), if_pos hrow, ← write_write]
      refine setPixel_row (hsize.aligned h) hpx (by rw [hsize.width]; exact hwidth) (by omega) ?_
      rw [← cellBits_row hglyph column (by omega)]
      split
      · rename_i hset
        exact ⟨fun _ => hset, fun _ => (by decide : (1 : Int32) ≠ 0)⟩
      · rename_i hset
        exact ⟨fun hne => absurd rfl hne, fun hset' => absurd hset' hset⟩
    · rw [if_pos (Bool.eq_false_iff.2 hrow), if_neg hrow]
      rfl

/-- Points beside the screen are not written. -/
theorem setPixels_beside {l : List SetPixel}
    (h : ∀ w ∈ l, w.x < 0 ∨ fb.width ≤ w.x.toNatClampNeg) : fb.setPixels l = fb := by
  induction l with
  | nil => rfl
  | cons w l ih =>
    have hone : fb.setPixel w.x w.y w.value = fb := by
      unfold setPixel
      split
      · rfl
      split
      · rfl
      rename_i hneg
      dsimp only
      rcases h w List.mem_cons_self with hx | hx
      · exact absurd (Or.inl hx) hneg
      · rw [if_pos (Or.inl hx)]
    rw [setPixels_cons, hone]
    exact ih fun w' hw' => h w' (List.mem_cons_of_mem _ hw')

theorem x_of_mem_columnPixels {glyph : List UInt8} {column rows : ℕ} {w : SetPixel}
    (hw : w ∈ columnPixels clip x y glyph column rows) :
    w.x = x + Int32.ofNat column ∧ axisContains w.x clip.x clip.width = true := by
  unfold columnPixels at hw
  obtain ⟨row, -, hw⟩ := List.mem_flatMap.1 hw
  split at hw
  · cases hw
  · rename_i hin
    rw [List.mem_singleton.1 hw]
    rw [Clip.contains, Bool.and_eq_false_iff, not_or] at hin
    exact ⟨rfl, by simpa using hin.1⟩

/-- **A column is one byte.** -/
theorem setPixels_column (h : fb.Aligned y) {glyph : List UInt8}
    (hglyph : ∀ c < 5, glyph.getD c 0 &&& 0x80 = 0) (clip : Clip) (x : Int32) (column : ℕ) :
    fb.setPixels (columnPixels clip x y glyph column 8) =
      fb.drawColumnAligned clip x (y.toNatClampNeg / 8) (fb.verticalMask clip y 8) glyph column := by
  unfold drawColumnAligned
  dsimp only
  split
  · rename_i hout
    refine setPixels_beside fun w hw => ?_
    obtain ⟨hx, hclip⟩ := x_of_mem_columnPixels hw
    rw [← hx] at hout
    rcases hout with hneg | hwide | hclipped
    · exact Or.inl hneg
    · exact Or.inr hwide
    · rw [hclip] at hclipped
      cases hclipped
  · rename_i hin
    rw [not_or, not_or, Bool.not_eq_false] at hin
    exact setPixels_rows h hglyph hin.1 hin.2.1 hin.2.2 (Nat.le_refl 8)

/-! ## The cell -/

theorem sameSize_drawColumnAligned (fb : MonoFb) (clip : Clip) (x : Int32) (page : ℕ) (m : UInt8)
    (glyph : List UInt8) (column : ℕ) :
    SameSize fb (fb.drawColumnAligned clip x page m glyph column) := by
  unfold drawColumnAligned
  dsimp only
  split
  · exact .refl fb
  · exact sameSize_writeMaskedByte _ _ _ _ _

theorem setPixels_columns (h : fb.Aligned y) {glyph : List UInt8}
    (hglyph : ∀ c < 5, glyph.getD c 0 &&& 0x80 = 0) (hm : fb.verticalMask clip y 8 = m) (x : Int32)
    (columns : List ℕ) :
    fb.setPixels (columns.flatMap fun column => columnPixels clip x y glyph column 8) =
      columns.foldl
        (fun fb column => fb.drawColumnAligned clip x (y.toNatClampNeg / 8) m glyph column) fb := by
  induction columns generalizing fb with
  | nil => rfl
  | cons column columns ih =>
    have hsize := sameSize_drawColumnAligned fb clip x (y.toNatClampNeg / 8) m glyph column
    rw [List.flatMap_cons, setPixels_append, setPixels_column h hglyph, hm, List.foldl_cons]
    exact ih (hsize.aligned h) (by rw [hsize.verticalMask, hm])

/-- Where the clip shows no row of the cell nothing is written. -/
theorem foldl_drawColumnAligned_zero (fb : MonoFb) (clip : Clip) (x : Int32) (page : ℕ)
    (glyph : List UInt8) (columns : List ℕ) :
    columns.foldl (fun fb column => fb.drawColumnAligned clip x page 0 glyph column) fb = fb := by
  induction columns with
  | nil => rfl
  | cons column columns ih =>
    have hone : fb.drawColumnAligned clip x page 0 glyph column = fb := by
      unfold drawColumnAligned
      dsimp only
      split
      · rfl
      · exact writeMaskedByte_zero _ _ _ _
    rw [List.foldl_cons, hone, ih]

theorem drawCellAligned_of_aligned (h : fb.Aligned y) {glyph : List UInt8}
    (hglyph : ∀ c < 5, glyph.getD c 0 &&& 0x80 = 0) (clip : Clip) (x : Int32) :
    fb.drawCellAligned clip x y glyph = fb.drawCellGeneric clip x y glyph font5x7Info := by
  have hpage : (y.toUInt32 >>> 3).toNat = y.toNatClampNeg / 8 := by
    rw [UInt32.toNat_shiftRight, toNat_toUInt32 h.nonneg]
    exact Nat.shiftRight_eq_div_pow _ 3
  have hgeneric : fb.drawCellGeneric clip x y glyph font5x7Info =
      (List.range 6).foldl
        (fun fb' column => fb'.drawColumnAligned clip x (y.toNatClampNeg / 8)
          (fb.verticalMask clip y 8) glyph column) fb :=
    setPixels_columns h hglyph rfl x (List.range 6)
  rw [hgeneric, drawCellAligned, hpage]
  split
  · rename_i hmask
    rw [hmask, foldl_drawColumnAligned_zero]
  · rfl

/-- **The aligned path is the generic renderer.** Wherever the source takes it,
it leaves the same bytes, dirty pages and dirty spans as setting the pixels one
after the other, for any clip and any glyph without a bit in the eighth row. -/
theorem drawCellAligned_eq_generic (fb : MonoFb) (clip : Clip) (x y : Int32) (glyph : List UInt8)
    (h : fb.canUseAlignedFastPath y font5x7Info = true)
    (hglyph : ∀ c < 5, glyph.getD c 0 &&& 0x80 = 0) :
    fb.drawCellAligned clip x y glyph = fb.drawCellGeneric clip x y glyph font5x7Info :=
  drawCellAligned_of_aligned (aligned_of_canUse h) hglyph clip x

/-- The theorem at a letter that a clip of half its height shows in part. -/
theorem drawCellAligned_eq_generic_of_letter :
    (init (fun _ => 0xA5) 128 64).drawCellAligned ⟨4, 10, 3, 4⟩ 2 8 (font5x7Glyph 0x41) =
      (init (fun _ => 0xA5) 128 64).drawCellGeneric ⟨4, 10, 3, 4⟩ 2 8 (font5x7Glyph 0x41)
        font5x7Info :=
  drawCellAligned_eq_generic _ _ _ _ _ (by decide) (by decide)

/-- The glyphs of the font have seven rows. -/
theorem font5x7Glyph_rows (c : UInt8) :
    ∀ column < 5, (font5x7Glyph c).getD column 0 &&& 0x80 = 0 := by
  have hall : ∀ i < 37, ∀ column < 5, (font5x7Data.getD i []).getD column 0 &&& 0x80 = 0 := by
    decide
  unfold font5x7Glyph
  split
  · rename_i hdigit
    have hlo := UInt8.le_iff_toNat_le.1 hdigit.1
    have hhi := UInt8.le_iff_toNat_le.1 hdigit.2
    refine hall _ ?_
    rw [UInt8.toNat_sub_of_le _ _ hdigit.1]
    change c.toNat ≤ 57 at hhi
    change 48 ≤ c.toNat at hlo
    show c.toNat - 48 < 37
    omega
  split
  · rename_i hletter
    have hlo := UInt8.le_iff_toNat_le.1 hletter.1
    have hhi := UInt8.le_iff_toNat_le.1 hletter.2
    refine hall _ ?_
    rw [UInt8.toNat_sub_of_le _ _ hletter.1]
    change c.toNat ≤ 90 at hhi
    change 65 ≤ c.toNat at hlo
    show 10 + (c.toNat - 65) < 37
    omega
  · exact hall 36 (by decide)

/-- **No cell shows which path drew it.** A cell that is aligned is drawn column
by column, any other point by point, and the framebuffer is the same. -/
theorem drawCell_eq (fb : MonoFb) (clip : Clip) (x y : Int32) (c : UInt8) :
    fb.drawCell clip x y c =
      OledConsole.drawGlyphCell fb clip x y (font5x7Glyph c) font5x7Info := by
  have hmetrics : ¬(font5x7Info.glyphWidth = 0 ∨ font5x7Info.glyphHeight = 0 ∨
      font5x7Info.advanceX = 0 ∨ font5x7Info.advanceY = 0) := by decide
  unfold drawCell OledConsole.drawGlyphCell
  by_cases hclip : clip.width ≤ 0 ∨ clip.height ≤ 0
  · rw [if_pos hclip, if_pos (Or.inr (Or.inr (Or.inr (Or.inr hclip))))]
  · have hall : ¬(font5x7Info.glyphWidth = 0 ∨ font5x7Info.glyphHeight = 0 ∨
        font5x7Info.advanceX = 0 ∨ font5x7Info.advanceY = 0 ∨ clip.width ≤ 0 ∨ clip.height ≤ 0) := by
      rintro (h | h | h | h | h)
      · exact hmetrics (Or.inl h)
      · exact hmetrics (Or.inr (Or.inl h))
      · exact hmetrics (Or.inr (Or.inr (Or.inl h)))
      · exact hmetrics (Or.inr (Or.inr (Or.inr h)))
      · exact hclip h
    rw [if_neg hclip, if_neg hall]
    by_cases hcan : fb.canUseAlignedFastPath y font5x7Info = true
    · rw [if_pos hcan, drawCellAligned_of_aligned (aligned_of_canUse hcan) (font5x7Glyph_rows c)]
      rfl
    · rw [if_neg hcan]
      rfl

end MonoFb

end Display

end DeusOs
