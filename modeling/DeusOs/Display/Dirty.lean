import DeusOs.Common.Mirror
import DeusOs.Display.Model.MonoFb

/-!
# Drawing

Every drawing function is made of writes of single bytes, and a byte that
changes is marked. So the spans stay well formed (`Tidy`), what is dirty
stays so, and a byte outside of what is dirty is the byte it was (`Drawn`).
-/

namespace DeusOs

namespace Display

open Mirror (Covers)

variable {page q x y : ℕ}

/-! ## Masks -/

theorem pageMask_eq (page : ℕ) : pageMask page = BitVec.twoPow 8 page :=
  (BitVec.twoPow_eq 8 page).symm

/-- A page is not marked exactly if its bit is clear. -/
theorem and_pageMask_eq_zero (hpage : page < maxPages) (d : BitVec 8) :
    d &&& pageMask page = 0 ↔ d.getLsbD page = false := by
  have hne : BitVec.twoPow 8 page ≠ 0#8 := by
    intro hzero
    have hbit := congrArg (fun v => v.getLsbD page) hzero
    rw [BitVec.getLsbD_twoPow, BitVec.getLsbD_zero, decide_eq_true (p := page < 8) hpage,
      decide_eq_true rfl] at hbit
    exact Bool.noConfusion hbit
  rw [pageMask_eq, BitVec.and_twoPow]
  cases d.getLsbD page with
  | true => exact ⟨fun h => absurd h hne, fun h => Bool.noConfusion h⟩
  | false => exact ⟨fun _ => rfl, fun _ => rfl⟩

/-- Marking a page sets its bit and no other. -/
theorem getLsbD_or_pageMask (hpage : page < maxPages) (d : BitVec 8) :
    (d ||| pageMask page).getLsbD q = true ↔ d.getLsbD q = true ∨ page = q := by
  rw [pageMask_eq, BitVec.getLsbD_or, BitVec.getLsbD_twoPow,
    decide_eq_true (p := page < 8) hpage, Bool.true_and,
    Bool.or_eq_true, decide_eq_true_iff]

/-- Clearing a page's mark clears its bit and no other. -/
theorem getLsbD_and_not_pageMask (hq : q < maxPages) (d : BitVec 8) :
    (d &&& ~~~pageMask page).getLsbD q = true ↔ d.getLsbD q = true ∧ page ≠ q := by
  have hpage : (decide (page < 8) && decide (page = q)) = decide (page = q) := by
    by_cases h : page = q
    · rw [h, decide_eq_true (p := q < 8) hq, Bool.true_and]
    · rw [decide_eq_false h, Bool.and_false]
  rw [pageMask_eq, BitVec.getLsbD_and, BitVec.getLsbD_not, BitVec.getLsbD_twoPow,
    decide_eq_true (p := q < 8) hq, Bool.true_and, hpage, Bool.and_eq_true, Bool.not_eq_true',
    decide_eq_false_iff_not]

namespace MonoFb

variable {fb fb' fb'' : MonoFb}

/-! ## What is dirty -/

/-- The bytes that a dirty span holds. -/
def dirty (fb : MonoFb) : Set (ℕ × ℕ) :=
  {p | fb.dirtyPages.getLsbD p.1 = true ∧ fb.dirtyMinX p.1 ≤ p.2 ∧ p.2 ≤ fb.dirtyMaxX p.1}

/-- The bytes of the picture. -/
def screen (fb : MonoFb) : Set (ℕ × ℕ) := {p | p.1 < fb.pageCount ∧ p.2 < fb.width}

/-- The spans are well formed: a page is dirty just when its span is one. -/
def Tidy (fb : MonoFb) : Prop :=
  ∀ page < maxPages, fb.dirtyPages.getLsbD page = true ↔
    fb.dirtyMinX page ≤ fb.dirtyMaxX page ∧ fb.dirtyMaxX page < fb.width

/-- Marking changes no pixel, and no size. -/
theorem markPageX_same (fb : MonoFb) (page x : ℕ) :
    (fb.markPageX page x).width = fb.width ∧ (fb.markPageX page x).height = fb.height ∧
      (fb.markPageX page x).data = fb.data := by
  unfold markPageX
  split
  · exact ⟨rfl, rfl, rfl⟩
  · split
    · exact ⟨rfl, rfl, rfl⟩
    · exact ⟨rfl, rfl, rfl⟩

/-- **Marking:** one page's span grows to a column, the other pages keep
theirs. -/
theorem markPageX_spec (h : fb.Tidy) (hpage : page < maxPages) (hx : x < fb.width)
    (hwidth : fb.width ≤ 0xFFFF) :
    (fb.markPageX page x).Tidy ∧ fb.dirty ⊆ (fb.markPageX page x).dirty ∧
      (page, x) ∈ (fb.markPageX page x).dirty := by
  have hin : ¬ (maxPages ≤ page ∨ fb.width ≤ x ∨ 0xFFFF < x) := by omega
  unfold markPageX
  rw [if_neg hin]
  by_cases hclean : fb.dirtyPages &&& pageMask page = 0
  · rw [if_pos hclean]
    rw [and_pageMask_eq_zero hpage] at hclean
    refine ⟨?_, ?_, ?_⟩
    · intro q hq
      dsimp only
      rw [getLsbD_or_pageMask hpage]
      by_cases hpq : page = q
      · subst hpq
        rw [Function.update_self, Function.update_self]
        exact ⟨fun _ => ⟨Nat.le_refl x, hx⟩, fun _ => Or.inr rfl⟩
      · rw [Function.update_of_ne (Ne.symm hpq), Function.update_of_ne (Ne.symm hpq), ← h q hq]
        exact ⟨fun hor => hor.resolve_right hpq, Or.inl⟩
    · rintro ⟨q, y⟩ ⟨hbit, hmin, hmax⟩
      have hpq : q ≠ page := by
        rintro rfl
        dsimp only at hbit
        rw [hclean] at hbit
        exact Bool.noConfusion hbit
      refine ⟨(getLsbD_or_pageMask hpage _).2 (Or.inl hbit), ?_, ?_⟩
      · dsimp only
        rw [Function.update_of_ne hpq]
        exact hmin
      · dsimp only
        rw [Function.update_of_ne hpq]
        exact hmax
    · refine ⟨(getLsbD_or_pageMask hpage _).2 (Or.inr rfl), ?_, ?_⟩
      · dsimp only
        rw [Function.update_self]
      · dsimp only
        rw [Function.update_self]
  · rw [if_neg hclean]
    rw [and_pageMask_eq_zero hpage, Bool.not_eq_false] at hclean
    obtain ⟨hspan, hlast⟩ := (h page hpage).1 hclean
    -- what the span's ends become, on this page and on the others
    have hmin : ∀ q, (if x < fb.dirtyMinX page then Function.update fb.dirtyMinX page x
        else fb.dirtyMinX) q = if q = page then min x (fb.dirtyMinX page) else fb.dirtyMinX q := by
      intro q
      by_cases hq : q = page
      · subst hq
        rw [if_pos rfl]
        split
        · rw [Function.update_self]
          omega
        · omega
      · rw [if_neg hq]
        split
        · exact Function.update_of_ne hq _ _
        · rfl
    have hmax : ∀ q, (if fb.dirtyMaxX page < x then Function.update fb.dirtyMaxX page x
        else fb.dirtyMaxX) q = if q = page then max x (fb.dirtyMaxX page) else fb.dirtyMaxX q := by
      intro q
      by_cases hq : q = page
      · subst hq
        rw [if_pos rfl]
        split
        · rw [Function.update_self]
          omega
        · omega
      · rw [if_neg hq]
        split
        · exact Function.update_of_ne hq _ _
        · rfl
    refine ⟨?_, ?_, ?_⟩
    · intro q hq
      dsimp only
      rw [hmin, hmax, h q hq]
      by_cases hpq : q = page
      · subst hpq
        rw [if_pos rfl, if_pos rfl]
        constructor <;> intro _ <;> omega
      · rw [if_neg hpq, if_neg hpq]
    · rintro ⟨q, y⟩ ⟨hbit, hlo, hhi⟩
      refine ⟨hbit, ?_, ?_⟩
      · dsimp only at hlo ⊢
        rw [hmin]
        split
        · subst q
          omega
        · exact hlo
      · dsimp only at hhi ⊢
        rw [hmax]
        split
        · subst q
          omega
        · exact hhi
    · refine ⟨hclean, ?_, ?_⟩
      · dsimp only
        rw [hmin, if_pos rfl]
        omega
      · dsimp only
        rw [hmax, if_pos rfl]
        omega

/-! ## What drawing does -/

/-- What drawing does to a framebuffer. -/
structure Drawn (fb fb' : MonoFb) : Prop where
  width : fb'.width = fb.width
  height : fb'.height = fb.height
  tidy : fb'.Tidy
  grows : fb.dirty ⊆ fb'.dirty
  same : ∀ page x, x < fb.width → (page, x) ∉ fb'.dirty → fb'.pixels page x = fb.pixels page x

theorem Drawn.refl (h : fb.Tidy) : Drawn fb fb :=
  ⟨rfl, rfl, h, fun _ hp => hp, fun _ _ _ _ => rfl⟩

theorem Drawn.trans (h : Drawn fb fb') (h' : Drawn fb' fb'') : Drawn fb fb'' where
  width := h'.width.trans h.width
  height := h'.height.trans h.height
  tidy := h'.tidy
  grows := fun _ hp => h'.grows (h.grows hp)
  same := by
    intro page x hx hclean
    rw [h'.same page x (by rw [h.width]; exact hx) hclean]
    exact h.same page x hx fun hdirty => hclean (h'.grows hdirty)

/-- Drawing, one after the other. -/
theorem Drawn.foldl {α : Type} {draw : MonoFb → α → MonoFb}
    (hdraw : ∀ fb a, fb.Tidy → Drawn fb (draw fb a)) (h : fb.Tidy) (as : List α) :
    Drawn fb (as.foldl draw fb) := by
  induction as generalizing fb with
  | nil => exact Drawn.refl h
  | cons a as ih =>
    have hone := hdraw fb a h
    exact hone.trans (ih hone.tidy)

/-- **A byte is written,** and marked if it changed. A byte that gets the value
that it has is not marked. -/
theorem drawn_writeMaskedByte (h : fb.Tidy) (page x : ℕ) (value mask : UInt8) :
    Drawn fb (fb.writeMaskedByte page x value mask).1 := by
  unfold writeMaskedByte
  by_cases hbad : ¬ fb.Valid ∨ fb.pageCount ≤ page ∨ maxPages ≤ page ∨ fb.width ≤ x ∨ mask = 0
  · rw [if_pos hbad]
    exact Drawn.refl h
  rw [if_neg hbad]
  push Not at hbad
  obtain ⟨hvalid, -, hpage, hx, -⟩ := hbad
  dsimp only
  split
  · exact Drawn.refl h
  obtain ⟨written, hwritten⟩ : ∃ written, written = { fb with
    data := Function.update fb.data (page * fb.width + x)
      (fb.data (page * fb.width + x) &&& ~~~mask ||| value &&& mask) } := ⟨_, rfl⟩
  have htidy : written.Tidy := by
    rw [hwritten]
    exact h
  have hwidth : written.width = fb.width := by rw [hwritten]
  have hdirty : written.dirty = fb.dirty := by rw [hwritten]; rfl
  rw [← hwritten]
  obtain ⟨hw, hh, hdata⟩ := markPageX_same written page x
  obtain ⟨htidy', hgrows, hmarked⟩ := markPageX_spec htidy hpage (by rw [hwidth]; exact hx)
    (by rw [hwidth]; exact hvalid.2.2.1)
  refine ⟨hw.trans hwidth, by rw [hh, hwritten], htidy', by rw [← hdirty]; exact hgrows, ?_⟩
  intro q y hy hclean
  rw [pixels, hdata, hw, hwidth, hwritten]
  -- another byte than the one that was written
  refine Function.update_of_ne ?_ _ _
  intro hindex
  have hx' : y = x := by
    have hmod := congrArg (· % fb.width) hindex
    rwa [Nat.mul_add_mod_of_lt hy, Nat.mul_add_mod_of_lt hx] at hmod
  subst hx'
  have hq : q = page := Nat.eq_of_mul_eq_mul_right (by omega) (Nat.add_right_cancel hindex)
  rw [hq] at hclean
  exact hclean hmarked

/-- `mono_fb_clear` marks what it changes. -/
theorem drawn_clear (h : fb.Tidy) : Drawn fb fb.clear := by
  unfold clear
  split
  · exact Drawn.refl h
  · exact Drawn.foldl (fun fb page hfb =>
      Drawn.foldl (fun fb x hfb => drawn_writeMaskedByte hfb page x 0 0xFF) hfb _) h _

/-- `mono_fb_set_pixel` marks what it changes. -/
theorem drawn_setPixel (h : fb.Tidy) (x y value : Int32) : Drawn fb (fb.setPixel x y value) := by
  unfold setPixel
  split
  · exact Drawn.refl h
  split
  · exact Drawn.refl h
  dsimp only
  split
  · exact Drawn.refl h
  split
  · exact drawn_writeMaskedByte h _ _ _ _
  · exact drawn_writeMaskedByte h _ _ _ _

/-- `mono_fb_hline` marks what it changes. -/
theorem drawn_hline (h : fb.Tidy) (x y width value : Int32) :
    Drawn fb (fb.hline x y width value) :=
  Drawn.foldl (fun _ _ hfb => drawn_setPixel hfb _ _ _) h _

/-- `mono_fb_vline` marks what it changes. -/
theorem drawn_vline (h : fb.Tidy) (x y height value : Int32) :
    Drawn fb (fb.vline x y height value) :=
  Drawn.foldl (fun _ _ hfb => drawn_setPixel hfb _ _ _) h _

/-- `mono_fb_rect` marks what it changes. -/
theorem drawn_rect (h : fb.Tidy) (x y width height value : Int32) :
    Drawn fb (fb.rect x y width height value) := by
  unfold rect
  split
  · exact Drawn.refl h
  · have htop := drawn_hline h x y width value
    have hbottom := drawn_hline htop.tidy x (y + height - 1) width value
    have hleft := drawn_vline hbottom.tidy x y height value
    have hright := drawn_vline hleft.tidy (x + width - 1) y height value
    exact ((htop.trans hbottom).trans hleft).trans hright

/-- What is dirty covers the picture, as it did before it was drawn on. -/
theorem Drawn.covers {ram : ℕ × ℕ → UInt8} (h : Drawn fb fb')
    (hcovers : Covers fb.screen fb.dirty (fun p => fb.pixels p.1 p.2) ram) :
    Covers fb.screen fb'.dirty (fun p => fb'.pixels p.1 p.2) ram :=
  hcovers.write h.grows fun p hp hclean => h.same p.1 p.2 hp.2 hclean

/-! ## Clean pages -/

theorem pageMask_and_ne_zero (hq : q < maxPages) :
    pageMask page &&& pageMask q ≠ 0 ↔ q = page := by
  rw [Ne, and_pageMask_eq_zero hq, Bool.not_eq_false, pageMask_eq, BitVec.getLsbD_twoPow,
    Bool.and_eq_true, decide_eq_true_iff, decide_eq_true_iff]
  constructor
  · intro h
    exact h.2.symm
  · intro h
    exact ⟨by rw [← h]; exact hq, h.symm⟩

theorem foldl_resetSpan (pages : List ℕ) (hpages : ∀ q ∈ pages, q < maxPages) (fb : MonoFb) :
    pages.foldl
      (fun fb q => if pageMask page &&& pageMask q ≠ 0 then fb.resetSpan q else fb) fb =
      if page ∈ pages then fb.resetSpan page else fb := by
  induction pages generalizing fb with
  | nil => rfl
  | cons q pages ih =>
    rw [List.forall_mem_cons] at hpages
    rw [List.foldl_cons, ih hpages.2]
    by_cases hq : q = page
    · subst hq
      rw [if_pos ((pageMask_and_ne_zero hpages.1).2 rfl), if_pos List.mem_cons_self]
      split
      · -- resetting it once more changes nothing
        unfold resetSpan
        rw [if_neg (Nat.not_le.2 hpages.1), if_neg (Nat.not_le.2 hpages.1), Function.update_idem, Function.update_idem]
      · rfl
    · have hne : ¬ pageMask page &&& pageMask q ≠ 0 := fun h =>
        hq ((pageMask_and_ne_zero hpages.1).1 h)
      rw [if_neg hne]
      have hmem : page ∈ q :: pages ↔ page ∈ pages := by
        rw [List.mem_cons]
        exact ⟨fun h => h.resolve_left fun heq => hq heq.symm, Or.inr⟩
      simp only [hmem]

/-- **Clearing:** one page is clean, the others are as they were. -/
theorem clearDirty_pageMask (hpage : page < maxPages) (fb : MonoFb) :
    fb.clearDirty (pageMask page) =
      { fb with
        dirtyPages := fb.dirtyPages &&& ~~~pageMask page
        dirtyMinX := Function.update fb.dirtyMinX page spanClean
        dirtyMaxX := Function.update fb.dirtyMaxX page 0 } := by
  rw [clearDirty, foldl_resetSpan _ (fun q hq => List.mem_range.1 hq),
    if_pos (List.mem_range.2 hpage), resetSpan, if_neg (Nat.not_le.2 hpage)]

/-- Clearing a page's mark leaves the spans in order. -/
theorem tidy_clearDirty (h : fb.Tidy) (hpage : page < maxPages) :
    (fb.clearDirty (pageMask page)).Tidy := by
  rw [clearDirty_pageMask hpage]
  intro q hq
  dsimp only
  rw [getLsbD_and_not_pageMask hq]
  by_cases hpq : q = page
  · subst hpq
    rw [Function.update_self, Function.update_self]
    exact ⟨fun hne => absurd rfl hne.2, fun hspan => absurd hspan.1 (by decide)⟩
  · rw [Function.update_of_ne hpq, Function.update_of_ne hpq, h q hq]
    exact ⟨fun hand => hand.1, fun hspan => ⟨hspan, Ne.symm hpq⟩⟩

/-- Clearing a page's mark leaves what is dirty on the others. -/
theorem mem_dirty_clearDirty (hpage : page < maxPages) (hq : q < maxPages) :
    (q, x) ∈ (fb.clearDirty (pageMask page)).dirty ↔ (q, x) ∈ fb.dirty ∧ q ≠ page := by
  rw [clearDirty_pageMask hpage]
  change (_ ∧ _ ∧ _) ↔ (_ ∧ _ ∧ _) ∧ _
  dsimp only
  rw [getLsbD_and_not_pageMask hq]
  by_cases hpq : q = page
  · exact ⟨fun hand => absurd hpq.symm hand.1.2, fun hand => absurd hpq hand.2⟩
  · rw [Function.update_of_ne hpq, Function.update_of_ne hpq]
    exact ⟨fun hand => ⟨⟨hand.1.1, hand.2⟩, hpq⟩, fun hand => ⟨⟨hand.1.1, Ne.symm hpq⟩, hand.1.2⟩⟩

/-- A dirty page of a picture has its span. -/
theorem dirtySpan_of_tidy (h : fb.Tidy) (hvalid : fb.Valid) (hpage : page < fb.pageCount)
    (hbit : fb.dirtyPages.getLsbD page = true) :
    fb.dirtySpan page = some (fb.dirtyMinX page, fb.dirtyMaxX page) := by
  have hmax : page < maxPages := Nat.lt_of_lt_of_le hpage hvalid.2.2.2
  obtain ⟨hspan, hlast⟩ := (h page hmax).1 hbit
  have hwidth := hvalid.2.2.1
  have hin : ¬ (¬ fb.Valid ∨ fb.pageCount ≤ page ∨ maxPages ≤ page) := by
    rintro (hbad | hbad | hbad)
    · exact hbad hvalid
    · omega
    · omega
  have hwell : ¬ (fb.dirtyPages &&& pageMask page = 0 ∨ fb.dirtyMinX page = spanClean ∨
      fb.dirtyMaxX page < fb.dirtyMinX page ∨ fb.width ≤ fb.dirtyMaxX page) := by
    unfold spanClean
    rw [and_pageMask_eq_zero hmax, hbit]
    rintro (hbad | hbad | hbad | hbad)
    · exact Bool.noConfusion hbad
    · omega
    · omega
    · omega
  rw [dirtySpan, if_neg hin, if_neg hwell]

end MonoFb

end Display

end DeusOs
