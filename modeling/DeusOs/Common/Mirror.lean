import Mathlib.Data.Set.Basic

/-!
# Mirrors with a dirty set

A source is copied, part by part, into a mirror of it, and a set of places is
kept that are still to be copied. The set covers the source where it holds
every place at which the two differ; what covers the source stays so when
the source is written at places that are added to the set, when any places
at all are copied, and when places that were copied leave the set.
-/

namespace DeusOs

namespace Mirror

variable {ι β : Type} {screen dirty dirty' : Set ι} {src src' dst dst' : ι → β}

/-- Every place of the screen at which source and mirror differ is dirty. -/
def Covers (screen dirty : Set ι) (src dst : ι → β) : Prop :=
  ∀ i ∈ screen, src i ≠ dst i → i ∈ dirty

/-- The source is written, at places that are dirty from then on. -/
theorem Covers.write (h : Covers screen dirty src dst) (hsub : dirty ⊆ dirty')
    (hsame : ∀ i ∈ screen, i ∉ dirty' → src' i = src i) : Covers screen dirty' src' dst := by
  intro i hi hne
  by_contra hclean
  rw [hsame i hi hclean] at hne
  exact hclean (hsub (h i hi hne))

/-- **Whatever is copied, and however little of it,** what is dirty covers
the source. -/
theorem Covers.copy (h : Covers screen dirty src dst)
    (hcopy : ∀ i ∈ screen, dst' i = dst i ∨ dst' i = src i) : Covers screen dirty src dst' := by
  intro i hi hne
  rcases hcopy i hi with hold | hnew
  · rw [hold] at hne
    exact h i hi hne
  · exact absurd hnew.symm hne

/-- What was copied is no longer dirty. -/
theorem Covers.clean (h : Covers screen dirty src dst)
    (hcopied : ∀ i ∈ screen, i ∈ dirty → i ∉ dirty' → dst i = src i) :
    Covers screen dirty' src dst := by
  intro i hi hne
  by_contra hclean
  exact hne (hcopied i hi (h i hi hne) hclean).symm

/-- **Where nothing is dirty, the mirror is the source.** All that differs is
dirty, so what is clean agrees. -/
theorem Covers.eq (h : Covers screen dirty src dst) (hclean : ∀ i ∈ screen, i ∉ dirty) {i : ι}
    (hi : i ∈ screen) : dst i = src i := by
  by_contra hne
  exact hclean i hi (h i hi (Ne.symm hne))

end Mirror

end DeusOs
