import Mathlib.Logic.Function.Basic
import Mathlib.Tactic.Common

/-!
# Drawing on a canvas

A picture is a function of the point, and a drawing a list of strokes, each of
which gives a point its value. A picture that shows a drawing is left as it is
when that is drawn again.

Under a drawing there may be a ground, which is drawn first and whose points
the drawing may draw over.
-/

namespace Canvas

variable {P V : Type} [DecidableEq P] {pic : P → V} {l l' ground items : List (P × V)} {p : P}

/-- The picture after a drawing. -/
def paint (pic : P → V) (l : List (P × V)) : P → V :=
  l.foldl (fun pic w => Function.update pic w.1 w.2) pic

/-- The picture shows a drawing. -/
def Shows (pic : P → V) (l : List (P × V)) : Prop := ∀ w ∈ l, pic w.1 = w.2

/-- A drawing gives no point two values. -/
def Consistent (l : List (P × V)) : Prop := ∀ w ∈ l, ∀ w' ∈ l, w.1 = w'.1 → w.2 = w'.2

/-- Two drawings have no point in common. -/
def Apart (l l' : List (P × V)) : Prop := ∀ w ∈ l, ∀ w' ∈ l', w.1 ≠ w'.1

/-- Outside the items the picture is as the ground leaves it. -/
def Grounded (pic : P → V) (ground items : List (P × V)) : Prop :=
  ∀ p, (∀ w ∈ items, w.1 ≠ p) → paint pic ground p = pic p

/-- Writing one list behind another paints the second over the first. -/
theorem paint_append (pic : P → V) (l l' : List (P × V)) :
    paint pic (l ++ l') = paint (paint pic l) l' := List.foldl_append

/-- A drawing leaves the other points. -/
theorem paint_of_ne (h : ∀ w ∈ l, w.1 ≠ p) : paint pic l p = pic p := by
  induction l generalizing pic with
  | nil => rfl
  | cons w l ih =>
    have hrest : paint (Function.update pic w.1 w.2) l p = Function.update pic w.1 w.2 p :=
      ih fun w' hw' => h w' (List.mem_cons_of_mem _ hw')
    exact hrest.trans (Function.update_of_ne (h w List.mem_cons_self).symm _ _)

/-- At its own points it does not depend on what was there. -/
theorem paint_of_mem (h : ∃ w ∈ l, w.1 = p) (pic pic' : P → V) : paint pic l p = paint pic' l p := by
  induction l generalizing pic pic' with
  | nil =>
    obtain ⟨w, hw, -⟩ := h
    cases hw
  | cons w l ih =>
    by_cases hl : ∃ w' ∈ l, w'.1 = p
    · exact ih hl _ _
    · have hne : ∀ w' ∈ l, w'.1 ≠ p := fun w' hw' he => hl ⟨w', hw', he⟩
      have hw : w.1 = p := by
        obtain ⟨w', hw', he⟩ := h
        rcases List.mem_cons.1 hw' with rfl | hw'
        · exact he
        · exact absurd he (hne w' hw')
      have h₁ : paint (Function.update pic w.1 w.2) l p = w.2 := by
        rw [paint_of_ne hne, hw, Function.update_self]
      have h₂ : paint (Function.update pic' w.1 w.2) l p = w.2 := by
        rw [paint_of_ne hne, hw, Function.update_self]
      exact h₁.trans h₂.symm

/-- A drawing over two pictures that are one beside it. -/
theorem paint_congr {pic' : P → V} (h : ∀ p, (∀ w ∈ l, w.1 ≠ p) → pic p = pic' p) :
    paint pic l = paint pic' l := by
  funext p
  by_cases hl : ∃ w ∈ l, w.1 = p
  · exact paint_of_mem hl pic pic'
  · have hne : ∀ w ∈ l, w.1 ≠ p := fun w hw he => hl ⟨w, hw, he⟩
    rw [paint_of_ne hne, paint_of_ne hne]
    exact h p hne

/-- **What is shown may be drawn again:** every point gets the value that it
has, so the picture stays. -/
theorem Shows.paint_eq (h : Shows pic l) : paint pic l = pic := by
  induction l with
  | nil => rfl
  | cons w l ih =>
    have hw : Function.update pic w.1 w.2 = pic := by
      rw [← h w List.mem_cons_self, Function.update_eq_self]
    show paint (Function.update pic w.1 w.2) l = pic
    rw [hw]
    exact ih fun w' hw' => h w' (List.mem_cons_of_mem _ hw')

/-- **What is drawn is shown,** if no point is drawn in two ways: then it does
not matter which stroke came last. -/
theorem Consistent.shows_paint (h : Consistent l) (pic : P → V) : Shows (paint pic l) l := by
  induction l generalizing pic with
  | nil => exact fun w hw => by cases hw
  | cons w l ih =>
    have hrest : Shows (paint (Function.update pic w.1 w.2) l) l :=
      ih (fun u hu u' hu' => h u (List.mem_cons_of_mem _ hu) u' (List.mem_cons_of_mem _ hu')) _
    intro u hu
    rcases List.mem_cons.1 hu with rfl | hu
    · by_cases hl : ∃ w' ∈ l, w'.1 = u.1
      · obtain ⟨w', hw', he⟩ := hl
        have hshow := hrest w' hw'
        rw [he] at hshow
        exact hshow.trans (h w' (List.mem_cons_of_mem _ hw') u List.mem_cons_self he)
      · have hne : ∀ w' ∈ l, w'.1 ≠ u.1 := fun w' hw' he => hl ⟨w', hw', he⟩
        exact (paint_of_ne hne).trans (Function.update_self _ _ _)
    · exact hrest u hu

/-- It stays shown, whatever is drawn apart from it. -/
theorem Shows.paint (h : Shows pic l) (ha : Apart l l') : Shows (Canvas.paint pic l') l := by
  intro w hw
  rw [paint_of_ne fun w' hw' => (ha w hw w' hw').symm]
  exact h w hw

omit [DecidableEq P] in
/-- A drawing in two parts that are apart. -/
theorem Consistent.append (h : Consistent l) (h' : Consistent l') (ha : Apart l l') :
    Consistent (l ++ l') := by
  intro w hw u hu he
  rcases List.mem_append.1 hw with hw | hw <;> rcases List.mem_append.1 hu with hu | hu
  · exact h w hw u hu he
  · exact absurd he (ha w hw u hu)
  · exact absurd he.symm (ha u hu w hw)
  · exact h' w hw u hu he

omit [DecidableEq P] in
/-- A drawing in parts, any two of which are apart. -/
theorem consistent_flatMap {ι : Type} {draw : ι → List (P × V)} {is : List ι}
    (hcons : ∀ i ∈ is, Consistent (draw i))
    (hapart : ∀ i ∈ is, ∀ j ∈ is, i ≠ j → Apart (draw i) (draw j)) :
    Consistent (is.flatMap draw) := by
  intro w hw u hu he
  obtain ⟨i, hi, hw⟩ := List.mem_flatMap.1 hw
  obtain ⟨j, hj, hu⟩ := List.mem_flatMap.1 hu
  by_cases hij : i = j
  · subst hij
    exact hcons i hi w hw u hu he
  · exact absurd he (hapart i hi j hj hij w hw u hu)

/-! ## A ground -/

/-- The ground is there once it was drawn, with the items over it. -/
theorem grounded_paint (pic : P → V) (ground items : List (P × V)) :
    Grounded (paint (paint pic ground) items) ground items := by
  intro p hp
  rw [paint_of_ne hp]
  by_cases hg : ∃ w ∈ ground, w.1 = p
  · exact paint_of_mem hg _ _
  · have hne : ∀ w ∈ ground, w.1 ≠ p := fun w hw he => hg ⟨w, hw, he⟩
    rw [paint_of_ne hne, paint_of_ne hp]

/-- It stays there while items are drawn, and what is not on the ground. -/
theorem Grounded.paint (h : Grounded pic ground items)
    (hl : ∀ w ∈ l, (∃ u ∈ items, u.1 = w.1) ∨ ∀ u ∈ ground, u.1 ≠ w.1) :
    Grounded (Canvas.paint pic l) ground items := by
  intro p hp
  by_cases hg : ∃ w ∈ ground, w.1 = p
  · have hne : ∀ w ∈ l, w.1 ≠ p := by
      intro w hw he
      rcases hl w hw with ⟨u, hu, hue⟩ | hno
      · exact hp u hu (hue.trans he)
      · obtain ⟨u, hu, hue⟩ := hg
        exact hno u hu (hue.trans he.symm)
    rw [paint_of_ne hne, paint_of_mem hg _ pic]
    exact h p hp
  · exact paint_of_ne fun w hw he => hg ⟨w, hw, he⟩

/-- **Ground and items may be drawn again** where the items are shown. The
ground alone would wipe the items out, and the items put themselves back. -/
theorem Grounded.paint_eq (h : Grounded pic ground items) (hcons : Consistent items)
    (hshow : Shows pic items) : Canvas.paint (Canvas.paint pic ground) items = pic := by
  funext p
  by_cases hi : ∃ w ∈ items, w.1 = p
  · obtain ⟨w, hw, rfl⟩ := hi
    rw [hcons.shows_paint _ w hw, hshow w hw]
  · have hne : ∀ w ∈ items, w.1 ≠ p := fun w hw he => hi ⟨w, hw, he⟩
    rw [paint_of_ne hne]
    exact h p hne

/-- Other items at the same points have the same ground. -/
theorem Grounded.congr (h : Grounded pic ground items)
    (hpoints : ∀ w ∈ items, ∃ w' ∈ l, w'.1 = w.1) : Grounded pic ground l := by
  intro p hp
  refine h p fun w hw he => ?_
  obtain ⟨w', hw', he'⟩ := hpoints w hw
  exact hp w' hw' (he'.trans he)

end Canvas
