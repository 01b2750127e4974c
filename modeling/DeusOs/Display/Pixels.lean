import DeusOs.Common.Canvas
import DeusOs.Display.Dirty
import DeusOs.Display.Model.Ui

/-!
# Pixels

The picture of a framebuffer is a function of the point, and setting pixels is
painting the points that are on the screen. Bytes that show the same picture
before and after are the same bytes.
-/

namespace DeusOs

namespace Display

open Canvas (paint)

/-- A point of the plane, in the coordinates of `mono_fb_set_pixel`. -/
abbrev Point := Int32 × Int32

namespace MonoFb

variable {fb fb' fb'' : MonoFb} {l : List SetPixel} {p q : Point}

/-- `mono_fb_set_pixel` writes the point. -/
def OnScreen (fb : MonoFb) (p : Point) : Prop :=
  fb.Valid ∧ ¬ (p.1 < 0 ∨ p.2 < 0) ∧
    ¬ (fb.width ≤ p.1.toNatClampNeg ∨ fb.height ≤ p.2.toNatClampNeg) ∧
      p.2.toNatClampNeg / 8 < fb.pageCount

instance (fb : MonoFb) (p : Point) : Decidable (fb.OnScreen p) :=
  inferInstanceAs (Decidable (_ ∧ _ ∧ _ ∧ _))

/-- The byte of a point. -/
def index (fb : MonoFb) (p : Point) : ℕ := p.2.toNatClampNeg / 8 * fb.width + p.1.toNatClampNeg

/-- A bit of a byte. -/
def bit (fb : MonoFb) (i b : ℕ) : Bool := (fb.data i).toBitVec.getLsbD b

/-- The picture. -/
def picture (fb : MonoFb) (p : Point) : Bool :=
  decide (fb.OnScreen p) && fb.bit (fb.index p) (p.2.toNatClampNeg % 8)

/-- What setting pixels draws. -/
def strokes (fb : MonoFb) (l : List SetPixel) : List (Point × Bool) :=
  (l.filter fun w => decide (fb.OnScreen (w.x, w.y))).map fun w =>
    ((w.x, w.y), decide (w.value ≠ 0))

/-- Two framebuffers of one size. -/
structure SameSize (fb fb' : MonoFb) : Prop where
  width : fb'.width = fb.width
  height : fb'.height = fb.height

theorem SameSize.refl (fb : MonoFb) : SameSize fb fb := ⟨rfl, rfl⟩

theorem SameSize.trans (h : SameSize fb fb') (h' : SameSize fb' fb'') : SameSize fb fb'' :=
  ⟨h'.width.trans h.width, h'.height.trans h.height⟩

/-- The same points are on screens of the same size. -/
theorem SameSize.onScreen (h : SameSize fb fb') : fb'.OnScreen = fb.OnScreen := by
  funext p
  simp only [OnScreen, Valid, pageCount, h.width, h.height]

/-- The same byte holds a pixel of framebuffers of the same size. -/
theorem SameSize.index (h : SameSize fb fb') : fb'.index = fb.index := by
  funext p
  rw [MonoFb.index, MonoFb.index, h.width]

/-- The same strokes are made on framebuffers of the same size. -/
theorem SameSize.strokes (h : SameSize fb fb') (l : List SetPixel) :
    fb'.strokes l = fb.strokes l := by
  have hp : (fun w : SetPixel => decide (fb'.OnScreen (w.x, w.y))) =
      fun w => decide (fb.OnScreen (w.x, w.y)) := by
    funext w
    have hon : fb'.OnScreen (w.x, w.y) ↔ fb.OnScreen (w.x, w.y) := by rw [h.onScreen]
    exact decide_eq_decide.2 hon
  rw [MonoFb.strokes, hp]
  rfl

/-! ## One pixel -/

/-- The mask of a pixel is its bit. -/
theorem toBitVec_mask : ∀ k < 8, ((1 : UInt8) <<< UInt8.ofNat k).toBitVec = BitVec.twoPow 8 k := by
  decide

/-- One bit of a byte is written. -/
theorem getLsbD_write {k b : ℕ} (hk : k < 8) (hb : b < 8) (old : UInt8) (v : Bool) :
    (old &&& ~~~(1 <<< UInt8.ofNat k) |||
      (if v = true then 1 <<< UInt8.ofNat k else 0) &&& 1 <<< UInt8.ofNat k).toBitVec.getLsbD b =
        if b = k then v else old.toBitVec.getLsbD b := by
  have hbit : (BitVec.twoPow 8 k).getLsbD b = decide (k = b) := by
    rw [BitVec.getLsbD_twoPow, decide_eq_true hk, Bool.true_and]
  cases v with
  | true =>
    rw [if_pos rfl]
    simp only [UInt8.toBitVec_or, UInt8.toBitVec_and, UInt8.toBitVec_not, toBitVec_mask k hk,
      BitVec.getLsbD_or, BitVec.getLsbD_and, BitVec.getLsbD_not, hbit]
    by_cases h : b = k
    · subst h
      simp
    · simp [h, Ne.symm h, hb]
  | false =>
    rw [if_neg Bool.false_ne_true]
    simp only [UInt8.toBitVec_or, UInt8.toBitVec_and, UInt8.toBitVec_not, toBitVec_mask k hk,
      BitVec.getLsbD_or, BitVec.getLsbD_and, BitVec.getLsbD_not, hbit]
    by_cases h : b = k
    · subst h
      simp
    · simp [h, Ne.symm h, hb]

/-- A byte is written where the guard lets it. -/
theorem data_writeMaskedByte (fb : MonoFb) (page x : ℕ) (value mask : UInt8) :
    (fb.writeMaskedByte page x value mask).1.data =
      if ¬ fb.Valid ∨ fb.pageCount ≤ page ∨ maxPages ≤ page ∨ fb.width ≤ x ∨ mask = 0 then fb.data
      else Function.update fb.data (page * fb.width + x)
        (fb.data (page * fb.width + x) &&& ~~~mask ||| value &&& mask) := by
  unfold writeMaskedByte
  split
  · rfl
  · dsimp only
    split
    · rename_i h
      rw [h, Function.update_eq_self]
    · exact (markPageX_same _ _ _).2.2

theorem sameSize_writeMaskedByte (fb : MonoFb) (page x : ℕ) (value mask : UInt8) :
    SameSize fb (fb.writeMaskedByte page x value mask).1 := by
  unfold writeMaskedByte
  split
  · exact .refl fb
  · dsimp only
    split
    · exact .refl fb
    · exact ⟨(markPageX_same _ _ _).1, (markPageX_same _ _ _).2.1⟩

theorem sameSize_setPixel (fb : MonoFb) (x y value : Int32) :
    SameSize fb (fb.setPixel x y value) := by
  unfold setPixel
  split
  · exact .refl fb
  · split
    · exact .refl fb
    · dsimp only
      split
      · exact .refl fb
      · split
        · exact sameSize_writeMaskedByte _ _ _ _ _
        · exact sameSize_writeMaskedByte _ _ _ _ _

/-- A point that is not on the screen is not written. -/
theorem data_setPixel_off {x y : Int32} (h : ¬ fb.OnScreen (x, y)) (value : Int32) :
    (fb.setPixel x y value).data = fb.data := by
  unfold setPixel
  split
  · rfl
  · rename_i hvalid
    split
    · rfl
    · rename_i hneg
      dsimp only
      split
      · rfl
      · rename_i hsize
        have hpage : fb.pageCount ≤ y.toNatClampNeg / 8 := by
          by_contra hlt
          exact h ⟨not_not.1 hvalid, hneg, hsize, Nat.lt_of_not_le hlt⟩
        split <;> rw [data_writeMaskedByte, if_pos (Or.inr (Or.inl hpage))]

/-- **One bit is set,** that of the point, and every other bit is as it was. -/
theorem bit_setPixel {x y : Int32} (h : fb.OnScreen (x, y)) (value : Int32) (i : ℕ) {b : ℕ}
    (hb : b < 8) :
    (fb.setPixel x y value).bit i b =
      if i = fb.index (x, y) ∧ b = y.toNatClampNeg % 8 then decide (value ≠ 0) else fb.bit i b := by
  obtain ⟨hvalid, hneg, hsize, hpage⟩ := h
  have hmod : y.toNatClampNeg % 8 < 8 := Nat.mod_lt _ (Nat.succ_pos 7)
  have hmask : (1 : UInt8) <<< UInt8.ofNat (y.toNatClampNeg % 8) ≠ 0 := by
    have hall : ∀ k < 8, (1 : UInt8) <<< UInt8.ofNat k ≠ 0 := by decide
    exact hall _ hmod
  have hguard : ¬ (¬ fb.Valid ∨ fb.pageCount ≤ y.toNatClampNeg / 8 ∨
      maxPages ≤ y.toNatClampNeg / 8 ∨ fb.width ≤ x.toNatClampNeg ∨
        (1 : UInt8) <<< UInt8.ofNat (y.toNatClampNeg % 8) = 0) := by
    have hmax : fb.pageCount ≤ maxPages := hvalid.2.2.2
    have hlt := Nat.lt_of_lt_of_le hpage hmax
    rintro (hv | hp | hm | hw | hz)
    · exact hv hvalid
    · exact Nat.not_le_of_lt hpage hp
    · exact Nat.not_le_of_lt hlt hm
    · exact hsize (Or.inl hw)
    · exact hmask hz
  have hdata : (fb.setPixel x y value).data = Function.update fb.data (fb.index (x, y))
      (fb.data (fb.index (x, y)) &&& ~~~(1 <<< UInt8.ofNat (y.toNatClampNeg % 8)) |||
        (if decide (value ≠ 0) = true then 1 <<< UInt8.ofNat (y.toNatClampNeg % 8) else 0) &&&
          1 <<< UInt8.ofNat (y.toNatClampNeg % 8)) := by
    unfold setPixel
    rw [if_neg (not_not.2 hvalid), if_neg hneg]
    dsimp only
    rw [if_neg hsize]
    by_cases hv : value ≠ 0
    · rw [if_pos hv, data_writeMaskedByte, if_neg hguard, decide_eq_true hv, if_pos rfl]
      rfl
    · rw [if_neg hv, data_writeMaskedByte, if_neg hguard, decide_eq_false hv,
        if_neg Bool.false_ne_true]
      rfl
  rw [bit, hdata]
  by_cases hi : i = fb.index (x, y)
  · subst hi
    rw [Function.update_self, getLsbD_write hmod hb]
    simp only [true_and]
    rfl
  · rw [Function.update_of_ne hi, if_neg fun hib => hi hib.1]
    rfl

/-! ## The picture -/

theorem eq_of_toNatClampNeg {a b : Int32} (ha : ¬ a < 0) (hb : ¬ b < 0)
    (h : a.toNatClampNeg = b.toNatClampNeg) : a = b := by
  have ha' : 0 ≤ a.toInt := by
    have hle := Int32.not_lt.1 ha
    exact Int32.le_iff_toInt_le.1 hle
  have hb' : 0 ≤ b.toInt := by
    have hle := Int32.not_lt.1 hb
    exact Int32.le_iff_toInt_le.1 hle
  have hnat : a.toInt.toNat = b.toInt.toNat := h
  exact Int32.toInt_inj.1 (by omega)

/-- Points that are on the screen are told apart by byte and bit. -/
theorem OnScreen.inj (hp : fb.OnScreen p) (hq : fb.OnScreen q) (hindex : fb.index p = fb.index q)
    (hbit : p.2.toNatClampNeg % 8 = q.2.toNatClampNeg % 8) : p = q := by
  obtain ⟨-, hpneg, hpsize, -⟩ := hp
  obtain ⟨-, hqneg, hqsize, -⟩ := hq
  rw [not_or] at hpneg hqneg hpsize hqsize
  have hpx := Nat.lt_of_not_le hpsize.1
  have hqx := Nat.lt_of_not_le hqsize.1
  rw [index, index] at hindex
  have hx : p.1.toNatClampNeg = q.1.toNatClampNeg := by
    have hmod := congrArg (· % fb.width) hindex
    simpa only [Nat.mul_add_mod_self_right, Nat.mod_eq_of_lt hpx, Nat.mod_eq_of_lt hqx] using hmod
  have hpage : p.2.toNatClampNeg / 8 = q.2.toNatClampNeg / 8 := by
    rw [hx, Nat.add_right_cancel_iff] at hindex
    exact Nat.eq_of_mul_eq_mul_right (by omega) hindex
  have hy : p.2.toNatClampNeg = q.2.toNatClampNeg := by omega
  exact Prod.ext (eq_of_toNatClampNeg hpneg.1 hqneg.1 hx) (eq_of_toNatClampNeg hpneg.2 hqneg.2 hy)

/-- **Setting a pixel paints the point**, if it is on the screen. Off the screen
nothing is written. -/
theorem picture_setPixel (fb : MonoFb) (w : SetPixel) :
    (fb.setPixel w.x w.y w.value).picture = paint fb.picture (fb.strokes [w]) := by
  have hsize := sameSize_setPixel fb w.x w.y w.value
  by_cases h : fb.OnScreen (w.x, w.y)
  · have hstrokes : fb.strokes [w] = [((w.x, w.y), decide (w.value ≠ 0))] := by
      simp only [strokes, List.filter_cons, h, decide_true, if_true, List.filter_nil, List.map_cons,
        List.map_nil]
    rw [hstrokes]
    show _ = Function.update fb.picture (w.x, w.y) (decide (w.value ≠ 0))
    funext p
    by_cases hp : fb.OnScreen p
    · have hb := Nat.mod_lt p.2.toNatClampNeg (Nat.succ_pos 7)
      have hpic : (fb.setPixel w.x w.y w.value).picture p =
          (fb.setPixel w.x w.y w.value).bit (fb.index p) (p.2.toNatClampNeg % 8) := by
        rw [picture, hsize.index, decide_eq_true (by rw [hsize.onScreen]; exact hp), Bool.true_and]
      rw [hpic, bit_setPixel h w.value _ hb]
      by_cases heq : p = (w.x, w.y)
      · subst heq
        rw [if_pos ⟨rfl, rfl⟩, Function.update_self]
      · rw [if_neg fun hib => heq (hp.inj h hib.1 hib.2), Function.update_of_ne heq, picture,
          decide_eq_true hp, Bool.true_and]
    · have hne : p ≠ (w.x, w.y) := fun he => hp (he ▸ h)
      rw [Function.update_of_ne hne, picture, picture, decide_eq_false hp,
        decide_eq_false (by rw [hsize.onScreen]; exact hp), Bool.false_and, Bool.false_and]
  · have hstrokes : fb.strokes [w] = [] := by
      simp only [strokes, List.filter_cons, h, decide_false, Bool.false_eq_true, if_false,
        List.filter_nil, List.map_nil]
    have hdata := data_setPixel_off h w.value
    rw [hstrokes]
    funext p
    show (fb.setPixel w.x w.y w.value).picture p = fb.picture p
    have hon : decide ((fb.setPixel w.x w.y w.value).OnScreen p) = decide (fb.OnScreen p) :=
      decide_eq_decide.2 (by rw [hsize.onScreen])
    rw [picture, picture, bit, bit, hsize.index, hdata, hon]

/-- The first pixel of a list is set first. -/
theorem setPixels_cons (fb : MonoFb) (w : SetPixel) (l : List SetPixel) :
    fb.setPixels (w :: l) = (fb.setPixel w.x w.y w.value).setPixels l := rfl

/-- Lists of pixels are set one after the other. -/
theorem setPixels_append (fb : MonoFb) (l l' : List SetPixel) :
    fb.setPixels (l ++ l') = (fb.setPixels l).setPixels l' := List.foldl_append

theorem sameSize_setPixels (fb : MonoFb) (l : List SetPixel) : SameSize fb (fb.setPixels l) := by
  induction l generalizing fb with
  | nil => exact .refl fb
  | cons w l ih => exact (sameSize_setPixel fb w.x w.y w.value).trans (ih _)

/-- The strokes of two lists are made one after the other. -/
theorem strokes_append (fb : MonoFb) (l l' : List SetPixel) :
    fb.strokes (l ++ l') = fb.strokes l ++ fb.strokes l' := by
  rw [strokes, List.filter_append, List.map_append]
  rfl

/-- **Setting pixels paints.** -/
theorem picture_setPixels (fb : MonoFb) (l : List SetPixel) :
    (fb.setPixels l).picture = paint fb.picture (fb.strokes l) := by
  induction l generalizing fb with
  | nil => rfl
  | cons w l ih =>
    have hsize := sameSize_setPixel fb w.x w.y w.value
    rw [setPixels_cons, ih, hsize.strokes, picture_setPixel, ← Canvas.paint_append,
      ← strokes_append]
    rfl

/-- A bit that is not of a point on the screen is left. -/
theorem bit_setPixels_off {i b : ℕ} (hb : b < 8)
    (h : ∀ p, fb.OnScreen p → ¬ (i = fb.index p ∧ b = p.2.toNatClampNeg % 8)) (l : List SetPixel) :
    (fb.setPixels l).bit i b = fb.bit i b := by
  induction l generalizing fb with
  | nil => rfl
  | cons w l ih =>
    have hsize := sameSize_setPixel fb w.x w.y w.value
    rw [setPixels_cons, ih (by rw [hsize.onScreen, hsize.index]; exact h)]
    by_cases hw : fb.OnScreen (w.x, w.y)
    · rw [bit_setPixel hw w.value i hb, if_neg (h _ hw)]
    · rw [bit, data_setPixel_off hw w.value]
      rfl

/-- **Where the picture stays, the bytes stay.** So what is drawn again as it is
shown changes no byte. -/
theorem data_setPixels_eq (h : (fb.setPixels l).picture = fb.picture) :
    (fb.setPixels l).data = fb.data := by
  have hsize := sameSize_setPixels fb l
  funext i
  apply UInt8.toBitVec_inj.1
  apply BitVec.eq_of_getLsbD_eq
  intro b hb
  show (fb.setPixels l).bit i b = fb.bit i b
  by_cases hp : ∃ p, fb.OnScreen p ∧ i = fb.index p ∧ b = p.2.toNatClampNeg % 8
  · obtain ⟨p, hon, rfl, rfl⟩ := hp
    have hpic := congrFun h p
    rw [picture, picture, hsize.index, decide_eq_true hon,
      decide_eq_true (by rw [hsize.onScreen]; exact hon), Bool.true_and, Bool.true_and] at hpic
    exact hpic
  · exact bit_setPixels_off hb (fun p hon hib => hp ⟨p, hon, hib⟩) l

end MonoFb

end Display

end DeusOs
