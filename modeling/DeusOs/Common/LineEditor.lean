import Mathlib.Data.List.Basic
import Mathlib.Tactic.Common

/-!
# Line editors

A line editor takes one character after the other. One kind of characters ends
a line, another erases the last character, and every other is put at the end;
a line that is full is given up with the next. The line never outgrows the
editor (`length_run_le`), and a stretch of ordinary characters is cut into full
lines that are given up and the rest (`run_plain`).
-/

namespace LineEditor

variable {α : Type}

/-- What characters are for. -/
structure Keys (α : Type) where
  ends : α → Bool
  erases : α → Bool

/-- A character that is put into the line. -/
def Keys.Plain (k : Keys α) (c : α) : Prop := k.ends c = false ∧ k.erases c = false

/-- What comes of a character, beside the line. -/
inductive Reply (α : Type)
  /-- A line is ready. -/
  | line (l : List α)
  /-- A line is given up. -/
  | refused
  deriving DecidableEq

variable (k : Keys α) (most : ℕ)

/-- One character. -/
def key (l : List α) (c : α) : List α × Option (Reply α) :=
  if k.ends c = true then ([], if l = [] then none else some (.line l))
  else if k.erases c = true then (l.dropLast, none)
  else if l.length < most then (l ++ [c], none)
  else ([], some .refused)

/-- One character after the other, with what came before. -/
def run : List α × List (Reply α) → List α → List α × List (Reply α)
  | s, [] => s
  | s, c :: cs => run ((key k most s.1 c).1, s.2 ++ (key k most s.1 c).2.toList) cs

variable {k most} {l cs : List α} {c : α} {replies : List (Reply α)} {s : List α × List (Reply α)}

theorem run_append (s : List α × List (Reply α)) (cs ds : List α) :
    run k most s (cs ++ ds) = run k most (run k most s cs) ds := by
  induction cs generalizing s with
  | nil => rfl
  | cons c cs ih => exact ih _

/-- One character behind the others. -/
theorem run_concat (s : List α × List (Reply α)) (cs : List α) (c : α) :
    run k most s (cs ++ [c]) = ((key k most (run k most s cs).1 c).1,
      (run k most s cs).2 ++ (key k most (run k most s cs).1 c).2.toList) := by
  rw [run_append]
  rfl

theorem length_key_le (h : l.length ≤ most) (c : α) : (key k most l c).1.length ≤ most := by
  unfold key
  split
  · exact Nat.zero_le _
  split
  · rw [List.length_dropLast]
    omega
  split
  · rw [List.length_append, List.length_singleton]
    omega
  · exact Nat.zero_le _

/-- **The line never outgrows the editor,** whatever is typed: the character
that would do so empties it. -/
theorem length_run_le (h : s.1.length ≤ most) (cs : List α) : (run k most s cs).1.length ≤ most := by
  induction cs generalizing s with
  | nil => exact h
  | cons c cs ih => exact ih (length_key_le h c)

/-- A stretch that fits. -/
theorem run_fits (h : ∀ c ∈ cs, k.Plain c) (hroom : l.length + cs.length ≤ most) :
    run k most (l, replies) cs = (l ++ cs, replies) := by
  induction cs generalizing l with
  | nil => rw [run, List.append_nil]
  | cons c cs ih =>
    rw [List.forall_mem_cons] at h
    rw [List.length_cons] at hroom
    have hkey : key k most l c = (l ++ [c], none) := by
      rw [key, if_neg (by rw [h.1.1]; decide), if_neg (by rw [h.1.2]; decide), if_pos (by omega)]
    rw [run, hkey]
    dsimp only [Option.toList]
    rw [List.append_nil, ih h.2 (by rw [List.length_append, List.length_singleton]; omega),
      List.append_assoc, List.singleton_append]

/-- One character more than a line can take. -/
theorem run_overflow (h : ∀ c ∈ cs, k.Plain c) (hlen : cs.length = most + 1) :
    run k most ([], replies) cs = ([], replies ++ [.refused]) := by
  obtain ⟨front, c, rfl⟩ : ∃ front c, cs = front ++ [c] := by
    have hne : cs ≠ [] := List.ne_nil_of_length_pos (by omega)
    exact ⟨cs.dropLast, cs.getLast hne, (List.dropLast_append_getLast hne).symm⟩
  rw [List.length_append, List.length_singleton] at hlen
  have hc := h c (List.mem_append_right _ List.mem_cons_self)
  rw [run_concat, run_fits (fun d hd => h d (List.mem_append_left _ hd))
    (by rw [List.length_nil]; omega), List.nil_append]
  have hkey : key k most front c = ([], some .refused) := by
    rw [key, if_neg (by rw [hc.1]; decide), if_neg (by rw [hc.2]; decide), if_neg (by omega)]
  rw [hkey]
  rfl

/-- **A stretch of ordinary characters,** from an empty line: each `most + 1` of
them are given up, and the rest is the line. -/
theorem run_plain (h : ∀ c ∈ cs, k.Plain c) (replies : List (Reply α)) :
    run k most ([], replies) cs = (cs.drop ((most + 1) * (cs.length / (most + 1))),
      replies ++ List.replicate (cs.length / (most + 1)) .refused) := by
  obtain ⟨n, hn⟩ : ∃ n, n = cs.length / (most + 1) := ⟨_, rfl⟩
  rw [← hn]
  induction n generalizing cs replies with
  | zero =>
    have hlt : cs.length < most + 1 := (Nat.div_eq_zero_iff_lt (by omega)).1 hn.symm
    rw [run_fits h (by rw [List.length_nil]; omega), Nat.mul_zero, List.drop_zero, List.nil_append,
      List.replicate_zero, List.append_nil]
  | succ n ih =>
    have hle : most + 1 ≤ cs.length := by
      by_contra hlt
      rw [Nat.div_eq_of_lt (by omega)] at hn
      cases hn
    have hdiv : n = (cs.drop (most + 1)).length / (most + 1) := by
      rw [Nat.div_eq_sub_div (by omega : 0 < most + 1) hle] at hn
      rw [List.length_drop]
      omega
    have hfirst : run k most ([], replies) (cs.take (most + 1)) = ([], replies ++ [.refused]) :=
      run_overflow (fun c hc => h c (List.mem_of_mem_take hc))
        (by rw [List.length_take, Nat.min_eq_left hle])
    have hrest : run k most ([], replies ++ [.refused]) (cs.drop (most + 1)) =
        ((cs.drop (most + 1)).drop ((most + 1) * n),
          replies ++ [.refused] ++ List.replicate n .refused) :=
      ih (fun c hc => h c (List.mem_of_mem_drop hc)) (replies ++ [.refused]) hdiv
    rw [← List.take_append_drop (most + 1) cs, run_append, hfirst, hrest, List.take_append_drop,
      List.drop_drop, Nat.mul_succ, Nat.add_comm (most + 1), List.append_assoc,
      List.replicate_succ, List.singleton_append]

/-- **A line of ordinary characters,** however long: what does not fit is given up,
and what is left over is a line like any other. -/
theorem run_line {e e' : α} (he : k.ends e = true) (he' : k.ends e' = true)
    (h : ∀ c ∈ cs, k.Plain c) (before : List α) :
    run k most s (before ++ [e] ++ cs ++ [e']) = ([], (run k most s (before ++ [e])).2 ++
      List.replicate (cs.length / (most + 1)) .refused ++
      (if cs.drop ((most + 1) * (cs.length / (most + 1))) = [] then none
        else some (.line (cs.drop ((most + 1) * (cs.length / (most + 1)))))).toList) := by
  have hempty : (run k most s (before ++ [e])).1 = [] := by rw [run_concat, key, if_pos he]
  have hbefore : run k most s (before ++ [e]) = ([], (run k most s (before ++ [e])).2) :=
    Prod.ext hempty rfl
  have hcs : run k most s (before ++ [e] ++ cs) =
      (cs.drop ((most + 1) * (cs.length / (most + 1))), (run k most s (before ++ [e])).2 ++
        List.replicate (cs.length / (most + 1)) .refused) := by
    rw [run_append, hbefore, run_plain h]
  rw [run_concat, hcs, key, if_pos he']

end LineEditor
