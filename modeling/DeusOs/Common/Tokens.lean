import Mathlib.Data.List.Basic
import Mathlib.Data.List.TakeWhile
import Mathlib.Tactic.Common

/-!
# Tokens

A text cut at its separators: runs of them count as one, and those in front
and behind do not count at all. A text that was joined from words is cut into
these words again, whatever separators were put between them.
-/

namespace Tokens

variable {α : Type*} {sep : α → Bool} {x : α} {l gap word trail : List α}
  {pieces : List (List α × List α)}

/-- The words between the separators. -/
def tokens (sep : α → Bool) (l : List α) : List (List α) :=
  match l with
  | [] => []
  | x :: l =>
    if sep x = true then tokens sep l
    else (x :: l.takeWhile fun y => !sep y) :: tokens sep (l.dropWhile fun y => !sep y)
termination_by l.length
decreasing_by
  · exact Nat.lt_succ_self _
  · exact Nat.lt_succ_of_le (List.length_dropWhile_le _ _)

/-- Words, each behind the gap that separates it from the one before. -/
def join (pieces : List (List α × List α)) : List α := pieces.flatMap fun p => p.1 ++ p.2

/-- A gap between two words. -/
def Gap (sep : α → Bool) (gap : List α) : Prop := gap ≠ [] ∧ ∀ y ∈ gap, sep y = true

/-- A word. -/
def Word (sep : α → Bool) (word : List α) : Prop := word ≠ [] ∧ ∀ y ∈ word, sep y = false

@[simp] theorem tokens_nil : tokens sep [] = [] := by rw [tokens]

/-- A separator in front adds no token. -/
theorem tokens_sep (h : sep x = true) (l : List α) : tokens sep (x :: l) = tokens sep l := by
  rw [tokens, if_pos h]

theorem tokens_cons (h : sep x = false) (l : List α) :
    tokens sep (x :: l) =
      (x :: l.takeWhile fun y => !sep y) :: tokens sep (l.dropWhile fun y => !sep y) := by
  rw [tokens, if_neg (by rw [h]; exact Bool.noConfusion)]

/-- Separators in front do not count. -/
theorem tokens_gap (h : ∀ y ∈ gap, sep y = true) (l : List α) :
    tokens sep (gap ++ l) = tokens sep l := by
  induction gap with
  | nil => rfl
  | cons x gap ih =>
    rw [List.cons_append, tokens_sep (h x List.mem_cons_self)]
    exact ih fun y hy => h y (List.mem_cons_of_mem x hy)

/-- Leading separators add no token. -/
theorem tokens_dropWhile (l : List α) : tokens sep (l.dropWhile sep) = tokens sep l := by
  have hgap : ∀ y ∈ l.takeWhile sep, sep y = true := fun y hy => List.mem_takeWhile_imp hy
  have h := tokens_gap hgap (l.dropWhile sep)
  rw [List.takeWhile_append_dropWhile] at h
  exact h.symm

/-- What is left after the separators does not begin with one. -/
theorem sep_head_dropWhile (l : List α) : ∀ y ∈ (l.dropWhile sep).head?, sep y = false := by
  intro y hy
  have hnot := List.head?_dropWhile_not sep l
  rw [hy] at hnot
  exact hnot

/-- What is left after a token begins with a separator, if it begins at all. -/
theorem sep_head_dropWhile_not (l : List α) :
    ∀ y ∈ (l.dropWhile fun y => !sep y).head?, sep y = true := by
  intro y hy
  have hnot := List.head?_dropWhile_not (fun y => !sep y) l
  rw [hy] at hnot
  simpa using hnot

/-- The first word, and what is behind it. -/
theorem tokens_of_ne_nil (hne : l ≠ []) (h : ∀ y ∈ l.head?, sep y = false) :
    tokens sep l = (l.takeWhile fun y => !sep y) :: tokens sep (l.dropWhile fun y => !sep y) := by
  cases l with
  | nil => exact absurd rfl hne
  | cons x l =>
    have hx : sep x = false := h x rfl
    have hnot : (!sep x) = true := by rw [hx]; rfl
    rw [tokens_cons hx, List.takeWhile_cons_of_pos (p := fun y => !sep y) hnot,
      List.dropWhile_cons_of_pos (p := fun y => !sep y) hnot]

/-- A word ends at a separator, or at the end. -/
theorem tokens_word (hw : Word sep word) (hl : ∀ y ∈ l.head?, sep y = true) :
    tokens sep (word ++ l) = word :: tokens sep l := by
  have hpos : ∀ y ∈ word, (!sep y) = true := fun y hy => by rw [hw.2 y hy]; rfl
  have hstop : l.takeWhile (fun y => !sep y) = [] ∧ l.dropWhile (fun y => !sep y) = l := by
    cases l with
    | nil => exact ⟨rfl, rfl⟩
    | cons y l =>
      have hy : ¬(!sep y) = true := by rw [hl y rfl]; exact Bool.noConfusion
      exact ⟨List.takeWhile_cons_of_neg hy, List.dropWhile_cons_of_neg hy⟩
  have hhead : ∀ y ∈ (word ++ l).head?, sep y = false := by
    cases word with
    | nil => exact absurd rfl hw.1
    | cons x word =>
      rintro y hy
      exact hw.2 y (by cases hy; exact List.mem_cons_self)
  rw [tokens_of_ne_nil (List.append_ne_nil_of_left_ne_nil hw.1 l) hhead,
    List.takeWhile_append_of_pos hpos, List.dropWhile_append_of_pos hpos, hstop.1, hstop.2,
    List.append_nil]

/-- **What was joined is cut again,** into the same words in the same order,
however long the gaps are. -/
theorem tokens_join (hpieces : ∀ p ∈ pieces, Gap sep p.1 ∧ Word sep p.2)
    (htrail : ∀ y ∈ trail, sep y = true) :
    tokens sep (join pieces ++ trail) = pieces.map Prod.snd ∧
      ∀ y ∈ (join pieces ++ trail).head?, sep y = true := by
  induction pieces with
  | nil =>
    refine ⟨?_, fun y hy => htrail y (List.mem_of_mem_head? hy)⟩
    have h := tokens_gap htrail []
    rw [List.append_nil, tokens_nil] at h
    exact h
  | cons p pieces ih =>
    obtain ⟨hgap, hword⟩ := hpieces p List.mem_cons_self
    obtain ⟨hrest, hhead⟩ := ih fun q hq => hpieces q (List.mem_cons_of_mem p hq)
    have hsplit : join (p :: pieces) ++ trail = p.1 ++ (p.2 ++ (join pieces ++ trail)) := by
      rw [join, List.flatMap_cons, List.append_assoc, List.append_assoc]
      rfl
    rw [hsplit]
    constructor
    · rw [tokens_gap hgap.2, tokens_word hword hhead, hrest]
      rfl
    · cases hp : p.1 with
      | nil => exact absurd hp hgap.1
      | cons x gap =>
        intro y hy
        cases hy
        exact hgap.2 x (by rw [hp]; exact List.mem_cons_self)

end Tokens
