import Mathlib.Tactic.Common

/-!
# The first least element of a list

One pass over a list that keeps the best element seen so far, and replaces
it by a strictly better one only. What it ends with is the first among the
eligible elements of least key.
-/

namespace FirstLeast

variable {α : Type} (p : α → Prop) [DecidablePred p] (key : α → ℕ)

/-- The pass, from what was selected so far and its key. -/
def select : List α → Option α → ℕ → Option α
  | [], selected, _ => selected
  | a :: l, selected, best =>
    if p a ∧ key a < best then select l (some a) (key a) else select l selected best

/-- `a` is eligible, no eligible element has a smaller key, and every
eligible element before it has a larger one. -/
def IsFirstLeast (l : List α) (a : α) : Prop :=
  ∃ before after, l = before ++ a :: after ∧ p a ∧ (∀ b ∈ l, p b → key a ≤ key b) ∧
    ∀ b ∈ before, p b → key a < key b

variable {p key}

variable (p key) in
/-- The pass keeps what it had when nothing in the list beats it, and ends
with the first least element below its bound otherwise. -/
theorem select_cases (l : List α) (selected : Option α) (best : ℕ) :
    (select p key l selected best = selected ∧ ∀ b ∈ l, p b → best ≤ key b) ∨
      ∃ a, select p key l selected best = some a ∧ key a < best ∧ IsFirstLeast p key l a := by
  induction l generalizing selected best with
  | nil => exact Or.inl ⟨rfl, by simp⟩
  | cons a l ih =>
    by_cases h : p a ∧ key a < best
    · -- the head is taken: the rest keeps it or finds a smaller one
      have hstep : select p key (a :: l) selected best = select p key l (some a) (key a) := by
        rw [select, if_pos h]
      rw [hstep]
      refine Or.inr ?_
      rcases ih (some a) (key a) with ⟨heq, hle⟩ | ⟨b, heq, hlt, before, after, hl, hpb, hmin, hpre⟩
      · refine ⟨a, heq, h.2, [], l, rfl, h.1, ?_, by simp⟩
        intro b hb hpb
        rcases List.mem_cons.mp hb with rfl | hb
        · exact Nat.le_refl _
        · exact hle b hb hpb
      · refine ⟨b, heq, Nat.lt_trans hlt h.2, a :: before, after, by rw [hl]; rfl, hpb, ?_, ?_⟩
        · intro c hc hpc
          rcases List.mem_cons.mp hc with rfl | hc
          · exact Nat.le_of_lt hlt
          · exact hmin c hc hpc
        · intro c hc hpc
          rcases List.mem_cons.mp hc with rfl | hc
          · exact hlt
          · exact hpre c hc hpc
    · have hstep : select p key (a :: l) selected best = select p key l selected best := by
        rw [select, if_neg h]
      rw [hstep]
      have hskip : p a → best ≤ key a := fun hpa => by
        by_contra hlt
        exact h ⟨hpa, by omega⟩
      rcases ih selected best with ⟨heq, hle⟩ | ⟨b, heq, hlt, before, after, hl, hpb, hmin, hpre⟩
      · refine Or.inl ⟨heq, ?_⟩
        intro b hb hpb
        rcases List.mem_cons.mp hb with rfl | hb
        · exact hskip hpb
        · exact hle b hb hpb
      · refine Or.inr ⟨b, heq, hlt, a :: before, after, by rw [hl]; rfl, hpb, ?_, ?_⟩
        · intro c hc hpc
          rcases List.mem_cons.mp hc with rfl | hc
          · have := hskip hpc
            omega
          · exact hmin c hc hpc
        · intro c hc hpc
          rcases List.mem_cons.mp hc with rfl | hc
          · have := hskip hpc
            omega
          · exact hpre c hc hpc

variable (p key) in
/-- What the pass selects from nothing is the first least element. -/
theorem isFirstLeast_of_select {l : List α} {best : ℕ} {a : α}
    (h : select p key l none best = some a) : IsFirstLeast p key l a := by
  have hcases := select_cases p key l none best
  rw [h] at hcases
  rcases hcases with ⟨heq, _⟩ | ⟨b, heq, _, hb⟩
  · exact absurd heq (by simp)
  · exact (Option.some.inj heq) ▸ hb

variable (p key) in
/-- With every key below the bound, it selects nothing only when nothing is
eligible. -/
theorem not_of_select {l : List α} {best : ℕ} (hkey : ∀ a ∈ l, key a < best)
    (h : select p key l none best = none) : ∀ a ∈ l, ¬ p a := by
  intro a ha hpa
  have hcases := select_cases p key l none best
  rw [h] at hcases
  rcases hcases with ⟨_, hle⟩ | ⟨b, heq, _, _⟩
  · have := hle a ha hpa
    have := hkey a ha
    omega
  · exact absurd heq (by simp)

omit [DecidablePred p] in
/-- The first least element is one of those that were to choose from. -/
theorem IsFirstLeast.eligible {l : List α} {a : α} (h : IsFirstLeast p key l a) : p a := by
  obtain ⟨_, _, _, hp, _⟩ := h
  exact hp

end FirstLeast
