import DeusOs.Bootloader.Model.Bytes

/-!
# The bootloader — what the byte helpers compute

`bytes_equal` decides equality of prefixes and `bytes_copy` overwrites
one; a stored word loads back.
-/

namespace DeusOs

namespace Bootloader

theorem foldl_or_eq_zero {g : ℕ → UInt8} (l : List ℕ) (d : UInt8) :
    l.foldl (fun d i => d ||| g i) d = 0 ↔ d = 0 ∧ ∀ i ∈ l, g i = 0 := by
  induction l generalizing d with
  | nil => simp
  | cons a l ih =>
    rw [List.foldl_cons, ih, UInt8.or_eq_zero_iff]
    simp only [List.mem_cons, forall_eq_or_imp]
    tauto

/-- `bytes_equal` compares the first `n` bytes. -/
theorem bytesEqual_iff {a b : List UInt8} {n : ℕ} :
    bytesEqual a b n = true ↔ ∀ i < n, a.getD i 0 = b.getD i 0 := by
  simp only [bytesEqual, beq_iff_eq, foldl_or_eq_zero, true_and, List.mem_range,
    UInt8.xor_eq_zero_iff]

/-- On lists of that length it decides equality. -/
theorem bytesEqual_iff_eq {a b : List UInt8} {n : ℕ} (ha : a.length = n) (hb : b.length = n) :
    bytesEqual a b n = true ↔ a = b := by
  rw [bytesEqual_iff]
  constructor
  · intro h
    refine List.ext_getElem (ha.trans hb.symm) fun i hi hi' => ?_
    have := h i (ha ▸ hi)
    rwa [List.getD_eq_getElem _ _ hi, List.getD_eq_getElem _ _ hi'] at this
  · rintro rfl i _
    rfl

/-- Copying a list of the array's own length makes the array that list. -/
theorem toList_bytesCopy {k : ℕ} (d : Vector UInt8 k) {s : List UInt8} (hs : s.length = k) :
    (bytesCopy d s k).toList = s := by
  refine List.ext_getElem (by simp [hs]) fun i hi hi' => ?_
  simp [bytesCopy, List.getElem?_eq_getElem hi']

/-- Copying `n` bytes makes them the array's first. -/
theorem take_bytesCopy {k n : ℕ} (d : Vector UInt8 k) {s : List UInt8} (hs : s.length = n)
    (hn : n ≤ k) : (bytesCopy d s n).toList.take n = s := by
  refine List.ext_getElem (by simp [hs, hn]) fun i hi hi' => ?_
  have hin : i < n := hs ▸ hi'
  simp [bytesCopy, hin, List.getElem?_eq_getElem hi']

/-- Comparing against an array compares against its first bytes. -/
theorem bytesEqual_toList_iff {k : ℕ} {a : List UInt8} {d : Vector UInt8 k} (ha : a.length ≤ k) :
    bytesEqual a d.toList a.length = true ↔ a = d.toList.take a.length := by
  rw [bytesEqual_iff]
  constructor
  · intro h
    refine List.ext_getElem (by simp [ha]) fun i hi hi' => ?_
    have := h i hi
    rw [List.getD_eq_getElem _ _ hi, List.getD_eq_getElem _ _ (by simp; omega)] at this
    rw [this, List.getElem_take]
  · intro h i hi
    have hik : i < d.toList.length := by simp; omega
    conv_lhs => rw [h]
    rw [List.getD_eq_getElem _ _ (by simp; omega), List.getElem_take,
      List.getD_eq_getElem _ _ hik]

theorem loadLe16_lt (p : List UInt8) (off : ℕ) : loadLe16 p off < 65536 := by
  have h0 := (p.getD off 0).toNat_lt
  have h1 := (p.getD (off + 1) 0).toNat_lt
  unfold loadLe16
  omega

theorem loadLe32_lt (p : List UInt8) (off : ℕ) : loadLe32 p off < 4294967296 := by
  have h0 := (p.getD off 0).toNat_lt
  have h1 := (p.getD (off + 1) 0).toNat_lt
  have h2 := (p.getD (off + 2) 0).toNat_lt
  have h3 := (p.getD (off + 3) 0).toNat_lt
  unfold loadLe32
  omega

@[simp] theorem length_storeLe16 (v : ℕ) : (storeLe16 v).length = 2 := rfl

@[simp] theorem length_storeLe32 (v : ℕ) : (storeLe32 v).length = 4 := rfl

end Bootloader

end DeusOs
