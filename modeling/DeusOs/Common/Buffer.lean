import DeusOs.Common.Nor.Memory

/-!
# Buffers

A memory in which bytes are stored, and what is read back from it.
-/

namespace Nor

namespace Mem

/-- The memory with `bs` stored from `a` on. -/
def store (f : Mem) (a : ℕ) (bs : List UInt8) : Mem := fun x =>
  if a ≤ x ∧ x < a + bs.length then bs.getD (x - a) 0 else f x

variable {f : Mem} {a b n : ℕ} {bs : List UInt8}

theorem store_outside {x : ℕ} (h : x < a ∨ a + bs.length ≤ x) : f.store a bs x = f x :=
  if_neg (by omega)

/-- **What was stored is read back,** as long as nothing else is stored over it.
-/
theorem bytes_store (f : Mem) (a : ℕ) (bs : List UInt8) :
    (f.store a bs).bytes a bs.length = bs := by
  refine List.ext_getElem (length_bytes _ _ _) fun i hi hi' => ?_
  rw [getElem_bytes, store, if_pos (by omega), Nat.add_sub_cancel_left,
    List.getD_eq_getElem _ _ hi']

/-- Elsewhere the memory is as it was. -/
theorem bytes_store_of_disjoint (h : b + n ≤ a ∨ a + bs.length ≤ b) :
    (f.store a bs).bytes b n = f.bytes b n :=
  bytes_congr fun _ _ => store_outside (by omega)

/-- One byte more. -/
theorem bytes_store_one (f : Mem) (n : ℕ) (x : UInt8) :
    (f.store n [x]).bytes 0 (n + 1) = f.bytes 0 n ++ [x] := by
  have hnew := bytes_store f n [x]
  rw [List.length_singleton] at hnew
  rw [bytes_add, bytes_store_of_disjoint (Or.inl (Nat.le_of_eq (Nat.zero_add n))), Nat.zero_add, hnew]

end Mem

end Nor
