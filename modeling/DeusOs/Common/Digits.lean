import Mathlib.Data.List.Basic
import Mathlib.Tactic.Common
import Mathlib.Algebra.Order.Group.Nat

/-!
# Digits

Numbers in digits of a base, the most significant first: what is written with
some places is read as the number modulo what these places hold
(`read_write`).
-/

namespace Digits

variable {base : ℕ} {digits : List ℕ}

/-- The `width` last digits of a number. -/
def write (base : ℕ) : ℕ → ℕ → List ℕ
  | 0, _ => []
  | width + 1, value => write base width (value / base) ++ [value % base]

/-- The number of some digits, behind what was read before them. -/
def read (base : ℕ) (digits : List ℕ) (start : ℕ) : ℕ :=
  digits.foldl (fun value digit => value * base + digit) start

@[simp] theorem length_write (base width value : ℕ) : (write base width value).length = width := by
  induction width generalizing value with
  | zero => rfl
  | succ width ih => rw [write, List.length_append, ih, List.length_singleton]

/-- Every digit that is written is below the base. -/
theorem lt_of_mem_write (hbase : 0 < base) (width value : ℕ) :
    ∀ digit ∈ write base width value, digit < base := by
  induction width generalizing value with
  | zero => exact fun digit h => absurd h List.not_mem_nil
  | succ width ih =>
    intro digit h
    rw [write, List.mem_append, List.mem_singleton] at h
    rcases h with h | rfl
    · exact ih _ digit h
    · exact Nat.mod_lt _ hbase

/-- The first of `width + 1` digits. -/
theorem write_succ (width value : ℕ) :
    write base (width + 1) value = value / base ^ width % base :: write base width value := by
  induction width generalizing value with
  | zero => rw [write, write, Nat.pow_zero, Nat.div_one]; rfl
  | succ width ih =>
    have hdiv : value / base / base ^ width = value / base ^ (width + 1) := by
      rw [Nat.div_div_eq_div_mul, Nat.pow_succ']
    rw [write, ih, hdiv]
    rfl

/-- A digit in front of others counts as often as these have places. -/
theorem read_append (digits more : List ℕ) (start : ℕ) :
    read base (digits ++ more) start = read base more (read base digits start) :=
  List.foldl_append

/-- **What was written is read again,** modulo what the places hold: the digits
behind them are cut off when it is written. -/
theorem read_write (width value start : ℕ) :
    read base (write base width value) start = start * base ^ width + value % base ^ width := by
  induction width generalizing value with
  | zero => rw [write, Nat.pow_zero, Nat.mul_one, Nat.mod_one]; rfl
  | succ width ih =>
    have hlast : read base [value % base] (read base (write base width (value / base)) start) =
        read base (write base width (value / base)) start * base + value % base := rfl
    have hsplit : value % base ^ (width + 1) =
        value / base % base ^ width * base + value % base := by
      rw [Nat.pow_succ', Nat.mod_mul, Nat.add_comm, Nat.mul_comm]
    rw [write, read_append, hlast, ih, hsplit, Nat.add_mul, Nat.mul_assoc, ← Nat.pow_succ,
      Nat.add_assoc]

end Digits
