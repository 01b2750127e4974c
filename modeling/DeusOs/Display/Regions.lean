import DeusOs.Display.Pixels

/-!
# Regions

What the renderers draw lies in blocks at an offset from the corner of a clip:
blocks that do not overlap have no point in common, and what is on the screen
of the status bar's block is inside of its clip.
-/

namespace DeusOs

namespace Display

open Canvas (Apart Consistent Shows)

variable {fb : MonoFb} {clip : Clip} {l l' : List SetPixel} {a w b h a' w' b' h' : ℕ}
  {v : ℕ → ℕ → Int32}

/-- The point of a pixel. -/
def SetPixel.point (q : SetPixel) : Point := (q.x, q.y)

/-- Pixels of a block at an offset from the corner of a clip. -/
def InBlock (clip : Clip) (a w b h : ℕ) (l : List SetPixel) : Prop :=
  ∀ q ∈ l, ∃ i j, a ≤ i ∧ i < a + w ∧ b ≤ j ∧ j < b + h ∧
    q.x = clip.x + Int32.ofNat i ∧ q.y = clip.y + Int32.ofNat j

/-- Pixels of a block, with their values. -/
def Plots (clip : Clip) (a w b h : ℕ) (v : ℕ → ℕ → Int32) (l : List SetPixel) : Prop :=
  ∀ q ∈ l, ∃ i j, a ≤ i ∧ i < a + w ∧ b ≤ j ∧ j < b + h ∧
    q.x = clip.x + Int32.ofNat i ∧ q.y = clip.y + Int32.ofNat j ∧ q.value = v i j

/-- What is plotted in a block stays inside of it. -/
theorem Plots.inBlock (hp : Plots clip a w b h v l) : InBlock clip a w b h l := by
  intro q hq
  obtain ⟨i, j, hi, hi', hj, hj', hx, hy, -⟩ := hp q hq
  exact ⟨i, j, hi, hi', hj, hj', hx, hy⟩

/-- Offsets are told apart. -/
theorem offset_inj {x : Int32} {i j : ℕ} (hi : i < 65536) (hj : j < 65536)
    (heq : x + Int32.ofNat i = x + Int32.ofNat j) : i = j := by
  have hnat : Int32.ofNat i = Int32.ofNat j := (Int32.add_right_inj x).1 heq
  have hi' := Int32.toNatClampNeg_ofNat_of_lt (show i < 2 ^ 31 by omega)
  have hj' := Int32.toNatClampNeg_ofNat_of_lt (show j < 2 ^ 31 by omega)
  rw [← hi', ← hj', hnat]

/-! ## Strokes -/

/-- A stroke is a pixel that is set on the screen. -/
theorem mem_strokes {u : Point × Bool} :
    u ∈ fb.strokes l ↔ ∃ q ∈ l, fb.OnScreen q.point ∧ u = (q.point, decide (q.value ≠ 0)) := by
  rw [MonoFb.strokes, List.mem_map]
  constructor
  · rintro ⟨q, hq, rfl⟩
    obtain ⟨hq, hon⟩ := List.mem_filter.1 hq
    exact ⟨q, hq, of_decide_eq_true hon, rfl⟩
  · rintro ⟨q, hq, hon, rfl⟩
    exact ⟨q, List.mem_filter.2 ⟨hq, decide_eq_true hon⟩, rfl⟩

/-- The strokes of lists one after the other. -/
theorem strokes_flatMap {ι : Type} (fb : MonoFb) (is : List ι) (g : ι → List SetPixel) :
    fb.strokes (is.flatMap g) = is.flatMap fun i => fb.strokes (g i) := by
  induction is with
  | nil => rfl
  | cons i is ih => rw [List.flatMap_cons, MonoFb.strokes_append, ih, List.flatMap_cons]

/-- Pixels at the same points draw at the same points. -/
theorem strokes_points (h : l.map SetPixel.point = l'.map SetPixel.point) :
    ∀ u ∈ fb.strokes l, ∃ u' ∈ fb.strokes l', u'.1 = u.1 := by
  intro u hu
  obtain ⟨q, hq, hon, rfl⟩ := mem_strokes.1 hu
  have hmem : q.point ∈ l'.map SetPixel.point := by
    rw [← h]
    exact List.mem_map_of_mem hq
  obtain ⟨q', hq', hpoint⟩ := List.mem_map.1 hmem
  exact ⟨_, mem_strokes.2 ⟨q', hq', by rw [hpoint]; exact hon, rfl⟩, hpoint⟩

/-- **A block that is plotted is drawn consistently.** Each of its points has
one value, wherever the clip cuts the block. -/
theorem Plots.consistent (hp : Plots clip a w b h v l) (hw : a + w ≤ 65536) (hh : b + h ≤ 65536) :
    Consistent (fb.strokes l) := by
  intro u hu u' hu' heq
  obtain ⟨q, hq, -, rfl⟩ := mem_strokes.1 hu
  obtain ⟨q', hq', -, rfl⟩ := mem_strokes.1 hu'
  obtain ⟨i, j, hi, hi', hj, hj', hx, hy, hv⟩ := hp q hq
  obtain ⟨i₂, j₂, hi₂, hi₂', hj₂, hj₂', hx₂, hy₂, hv₂⟩ := hp q' hq'
  obtain ⟨hxx, hyy⟩ := Prod.mk.inj heq
  have hxeq : i = i₂ := by
    rw [hx, hx₂] at hxx
    exact offset_inj (by omega) (by omega) hxx
  have hyeq : j = j₂ := by
    rw [hy, hy₂] at hyy
    exact offset_inj (by omega) (by omega) hyy
  show decide (q.value ≠ 0) = decide (q'.value ≠ 0)
  rw [hv, hv₂, hxeq, hyeq]

/-- **Blocks that do not overlap are apart.** -/
theorem InBlock.apart (hl : InBlock clip a w b h l) (hl' : InBlock clip a' w' b' h' l')
    (hover : a + w ≤ a' ∨ a' + w' ≤ a ∨ b + h ≤ b' ∨ b' + h' ≤ b)
    (hw : a + w ≤ 65536) (hh : b + h ≤ 65536) (hw' : a' + w' ≤ 65536) (hh' : b' + h' ≤ 65536) :
    Apart (fb.strokes l) (fb.strokes l') := by
  intro u hu u' hu' heq
  obtain ⟨q, hq, -, rfl⟩ := mem_strokes.1 hu
  obtain ⟨q', hq', -, rfl⟩ := mem_strokes.1 hu'
  obtain ⟨i, j, hi, hi', hj, hj', hx, hy⟩ := hl q hq
  obtain ⟨i₂, j₂, hi₂, hi₂', hj₂, hj₂', hx₂, hy₂⟩ := hl' q' hq'
  obtain ⟨hxx, hyy⟩ := Prod.mk.inj heq
  have hxeq : i = i₂ := by
    rw [hx, hx₂] at hxx
    exact offset_inj (by omega) (by omega) hxx
  have hyeq : j = j₂ := by
    rw [hy, hy₂] at hyy
    exact offset_inj (by omega) (by omega) hyy
  omega

/-! ## Clips -/

/-- A coordinate that did not overflow is inside of its axis. -/
theorem axisContains_add {start length : Int32} {i : ℕ} (hi : i < length.toNatClampNeg)
    (hpos : ¬ start + Int32.ofNat i < 0) : axisContains (start + Int32.ofNat i) start length = true := by
  have hlen : 0 < length := (Int32.toNatClampNeg_pos_iff length).1 (by omega)
  have hlenlt := Int32.toNatClampNeg_lt length
  have hival : (Int32.ofNat i).toInt = i := Int32.toInt_ofNat_of_lt (by omega)
  have hstart : ¬ start + Int32.ofNat i < start := by
    rw [Int32.lt_iff_toInt_lt, Int32.toInt_add, hival] at hpos ⊢
    have hlo := Int32.le_toInt start
    have hhi := Int32.toInt_lt start
    rw [Int32.toInt_zero] at hpos
    rw [Int.bmod_def] at hpos ⊢
    split at hpos
    · rename_i hsmall
      rw [if_pos hsmall]
      omega
    · rename_i hsmall
      rw [if_neg hsmall]
      omega
  have hdiff : start + Int32.ofNat i - start = Int32.ofNat i := by
    rw [Int32.add_comm, Int32.add_sub_cancel]
  rw [axisContains, if_neg (Int32.not_le.2 hlen), if_neg hstart, hdiff]
  refine decide_eq_true (UInt32.lt_iff_toNat_lt.2 ?_)
  have hsize : i < UInt32.size := Nat.lt_trans (Nat.lt_trans hi hlenlt) (by decide)
  rw [Int32.toUInt32_ofNat', UInt32.toNat_ofNat_of_lt' hsize,
    Int32.toNat_toUInt32_of_le (Int32.le_of_lt hlen)]
  exact hi

/-- **A block of the clip's size lies in the clip**, where it is on the
screen. -/
theorem InBlock.contains (hl : InBlock clip 0 w 0 h l) (hw : clip.width.toNatClampNeg = w)
    (hh : clip.height.toNatClampNeg = h) {q : SetPixel} (hq : q ∈ l) (hon : fb.OnScreen q.point) :
    clip.contains q.x q.y = true := by
  obtain ⟨i, j, -, hi, -, hj, hx, hy⟩ := hl q hq
  obtain ⟨-, hneg, -, -⟩ := hon
  rw [not_or] at hneg
  obtain ⟨hxneg, hyneg⟩ := hneg
  have hxneg' : ¬ q.x < 0 := hxneg
  have hyneg' : ¬ q.y < 0 := hyneg
  rw [hx] at hxneg'
  rw [hy] at hyneg'
  rw [Clip.contains, hx, hy, axisContains_add (by omega) hxneg', axisContains_add (by omega) hyneg']
  rfl

theorem InBlock.mono (hl : InBlock clip a w b h l) (ha : a' ≤ a) (hw : a + w ≤ a' + w') (hb : b' ≤ b)
    (hh : b + h ≤ b' + h') : InBlock clip a' w' b' h' l := by
  intro q hq
  obtain ⟨i, j, hi, hi', hj, hj', hx, hy⟩ := hl q hq
  exact ⟨i, j, by omega, by omega, by omega, by omega, hx, hy⟩

/-- Two lists that stay inside of a block do so together. -/
theorem InBlock.append (hl : InBlock clip a w b h l) (hl' : InBlock clip a w b h l') :
    InBlock clip a w b h (l ++ l') := by
  intro q hq
  rcases List.mem_append.1 hq with hq | hq
  · exact hl q hq
  · exact hl' q hq

/-- Any number of lists that stay inside of a block do so together. -/
theorem inBlock_flatMap {ι : Type} {is : List ι} {g : ι → List SetPixel}
    (h' : ∀ i ∈ is, InBlock clip a w b h (g i)) : InBlock clip a w b h (is.flatMap g) := by
  intro q hq
  obtain ⟨i, hi, hq⟩ := List.mem_flatMap.1 hq
  exact h' i hi q hq

end Display

end DeusOs
