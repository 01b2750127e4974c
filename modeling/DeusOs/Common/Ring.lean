import Mathlib.Algebra.GroupWithZero.Nat
import Mathlib.Data.List.Basic
import Mathlib.Data.List.Range
import Mathlib.Logic.Function.Basic
import Mathlib.Tactic.Common

/-!
# Rings under free-running counters

A ring of `cap` cells is read and written through counters that only grow; a
counter stands for the cell at its remainder by `cap`. What lies between a
tail and a head is a list, to which a store at the head appends and from whose
front an advance of the tail takes.
-/

namespace Ring

variable {α : Type} {ring : ℕ → α} {cap c n m : ℕ} {a : α} {l : List α}

/-- The `n` values from the counter `c` on. -/
def contents (ring : ℕ → α) (cap c n : ℕ) : List α :=
  (List.range n).map fun i => ring ((c + i) % cap)

/-- The ring with `a` stored at the counter `c`. -/
def put (ring : ℕ → α) (cap c : ℕ) (a : α) : ℕ → α := Function.update ring (c % cap) a

/-- The ring with `l` stored from the counter `c` on. -/
def store (ring : ℕ → α) (cap : ℕ) : ℕ → List α → ℕ → α
  | _, [] => ring
  | c, a :: l => store (put ring cap c a) cap (c + 1) l

@[simp] theorem length_contents : (contents ring cap c n).length = n := by simp [contents]

@[simp] theorem contents_zero : contents ring cap c 0 = [] := rfl

/-- The contents split at any counter between. -/
theorem contents_add :
    contents ring cap c (m + n) = contents ring cap c m ++ contents ring cap (c + m) n := by
  simp [contents, List.range_add, Nat.add_assoc, Function.comp_def]

/-- One value. -/
theorem contents_one : contents ring cap c 1 = [ring (c % cap)] := by simp [contents]

/-- The front of the contents. -/
theorem take_contents (h : m ≤ n) : (contents ring cap c n).take m = contents ring cap c m := by
  obtain ⟨k, rfl⟩ := Nat.exists_eq_add_of_le h
  rw [contents_add, List.take_left' length_contents]

/-- What is left behind an advance of the tail. -/
theorem drop_contents (h : m ≤ n) :
    (contents ring cap c n).drop m = contents ring cap (c + m) (n - m) := by
  obtain ⟨k, rfl⟩ := Nat.exists_eq_add_of_le h
  rw [contents_add, List.drop_left' length_contents, Nat.add_sub_cancel_left]

/-- Only the remainder of a counter counts. -/
theorem contents_congr {d : ℕ} (h : c % cap = d % cap) :
    contents ring cap c n = contents ring cap d n := by
  refine List.map_congr_left fun i _ => ?_
  rw [Nat.add_mod, h, ← Nat.add_mod]

/-- Counters less than `cap` apart stand for different cells. -/
theorem mod_ne {i : ℕ} (hi : i < n) (hn : n < cap) : (c + i) % cap ≠ (c + n) % cap := by
  intro h
  have hdvd : cap ∣ (c + n) - (c + i) :=
    Nat.dvd_of_mod_eq_zero (Nat.sub_mod_eq_zero_of_mod_eq h.symm)
  have hle := Nat.le_of_dvd (by omega) hdvd
  omega

/-- A value stored behind the contents leaves them. -/
theorem contents_put_of_lt (hn : n < cap) :
    contents (put ring cap (c + n) a) cap c n = contents ring cap c n := by
  refine List.map_congr_left fun i hi => ?_
  exact Function.update_of_ne (mod_ne (List.mem_range.1 hi) hn) _ _

/-- **A value stored at the head is appended,** and overwrites nothing that is
still to be read, because the ring is not full. -/
theorem contents_put (hn : n < cap) :
    contents (put ring cap (c + n) a) cap c (n + 1) = contents ring cap c n ++ [a] := by
  rw [contents_add, contents_put_of_lt hn, contents_one, put, Function.update_self]

/-- **A list stored at the head is appended,** value by value, where it fits. -/
theorem contents_store (h : n + l.length ≤ cap) :
    contents (store ring cap (c + n) l) cap c (n + l.length) = contents ring cap c n ++ l := by
  induction l generalizing ring n with
  | nil => simp [store]
  | cons a l ih =>
    rw [List.length_cons] at h ⊢
    have hstep : contents (store (put ring cap (c + n) a) cap (c + (n + 1)) l) cap c
        (n + 1 + l.length) = contents (put ring cap (c + n) a) cap c (n + 1) ++ l := ih (by omega)
    rw [contents_put (by omega), List.append_assoc, List.singleton_append] at hstep
    rw [store, Nat.add_assoc c n 1, ← hstep, Nat.add_right_comm n 1, Nat.add_assoc n l.length]

/-- A store, too, takes its counter by the remainder. -/
theorem store_congr {d : ℕ} (h : c % cap = d % cap) : store ring cap c l = store ring cap d l := by
  induction l generalizing ring c d with
  | nil => rfl
  | cons a l ih =>
    have hput : put ring cap c a = put ring cap d a := by rw [put, put, h]
    rw [store, store, hput]
    exact ih (by rw [Nat.add_mod, h, ← Nat.add_mod])

/-! ## Counters of 32 bits -/

/-- The remainder of a sum of counters is that of the sum of their values. -/
theorem toNat_add_ofNat_mod (hcap : cap ∣ 2 ^ 32) (t : UInt32) (n : ℕ) :
    (t + UInt32.ofNat n).toNat % cap = (t.toNat + n) % cap := by
  rw [UInt32.toNat_add, UInt32.toNat_ofNat', Nat.mod_mod_of_dvd _ hcap, Nat.add_mod,
    Nat.mod_mod_of_dvd _ hcap, ← Nat.add_mod]

/-- What lies in a ring between its tail and its head. -/
structure Holds (ring : ℕ → α) (cap : ℕ) (head tail : UInt32) (l : List α) : Prop where
  head_eq : head = tail + UInt32.ofNat l.length
  fits : l.length ≤ cap
  contents_eq : contents ring cap tail.toNat l.length = l

namespace Holds

variable {head tail : UInt32} {d : List α}

/-- An empty ring. -/
theorem empty (ring : ℕ → α) (cap : ℕ) (t : UInt32) : Holds ring cap t t [] where
  head_eq := by simp
  fits := Nat.zero_le _
  contents_eq := rfl

/-- **The difference of the counters is the number of values**, over the wrap
of either. -/
theorem depth (h : Holds ring cap head tail l) (hcap : cap < 2 ^ 32) :
    head - tail = UInt32.ofNat l.length ∧ (head - tail).toNat = l.length := by
  have hdiff : head - tail = UInt32.ofNat l.length := by
    rw [h.head_eq, UInt32.add_comm, UInt32.add_sub_cancel]
  have hlt : l.length < 2 ^ 32 := Nat.lt_of_le_of_lt h.fits hcap
  exact ⟨hdiff, by rw [hdiff, UInt32.toNat_ofNat', Nat.mod_eq_of_lt hlt]⟩

/-- **A list stored at the head comes behind what the ring held.** The counters
run over `2 ^ 32`, and the capacity divides that, so a wrap moves no cell. -/
theorem push (h : Holds ring cap head tail l) (hcap : cap ∣ 2 ^ 32)
    (hfit : l.length + d.length ≤ cap) :
    Holds (store ring cap head.toNat d) cap (head + UInt32.ofNat d.length) tail (l ++ d) where
  head_eq := by
    rw [h.head_eq, List.length_append, UInt32.ofNat_add, UInt32.add_assoc]
  fits := by rw [List.length_append]; exact hfit
  contents_eq := by
    have hmod : head.toNat % cap = (tail.toNat + l.length) % cap := by
      rw [h.head_eq, toNat_add_ofNat_mod hcap]
    rw [store_congr hmod, List.length_append, contents_store hfit, h.contents_eq]

/-- **An advance of the tail takes from the front,** and moves nothing else,
over a wrap of the counters too. -/
theorem advance (h : Holds ring cap head tail l) (hcap : cap ∣ 2 ^ 32) (hm : m ≤ l.length) :
    Holds ring cap head (tail + UInt32.ofNat m) (l.drop m) where
  head_eq := by
    rw [h.head_eq, List.length_drop, UInt32.add_assoc, ← UInt32.ofNat_add, Nat.add_sub_cancel' hm]
  fits := by
    have := h.fits
    rw [List.length_drop]
    omega
  contents_eq := by
    rw [contents_congr (toNat_add_ofNat_mod hcap _ _), List.length_drop, ← drop_contents hm,
      h.contents_eq]

end Holds

end Ring
