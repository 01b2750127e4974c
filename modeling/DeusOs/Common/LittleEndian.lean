import Mathlib.Data.List.GetD
import Mathlib.Tactic.Common

/-!
# Little-endian words in byte lists

Reading a word at an offset of a list of bytes, and the bytes of a word.
A read past the end sees zero.
-/

namespace LittleEndian

/-- The 16-bit word at `off`. -/
def read16 (p : List UInt8) (off : ℕ) : ℕ :=
  (p.getD off 0).toNat + 256 * (p.getD (off + 1) 0).toNat

/-- The 32-bit word at `off`. -/
def read32 (p : List UInt8) (off : ℕ) : ℕ :=
  (p.getD off 0).toNat + 256 * (p.getD (off + 1) 0).toNat +
    65536 * (p.getD (off + 2) 0).toNat + 16777216 * (p.getD (off + 3) 0).toNat

/-- The two bytes of a 16-bit word. -/
def write16 (v : ℕ) : List UInt8 := [UInt8.ofNat v, UInt8.ofNat (v / 256)]

/-- The four bytes of a 32-bit word. -/
def write32 (v : ℕ) : List UInt8 :=
  [UInt8.ofNat v, UInt8.ofNat (v / 256), UInt8.ofNat (v / 65536), UInt8.ofNat (v / 16777216)]

@[simp] theorem length_write16 (v : ℕ) : (write16 v).length = 2 := rfl

@[simp] theorem length_write32 (v : ℕ) : (write32 v).length = 4 := rfl

variable {p q : List UInt8} {v : ℕ}

/-- **A word that was written reads back**, wherever it stands between other
bytes. -/
theorem read16_write16 (hv : v < 65536) (p q : List UInt8) :
    read16 (p ++ (write16 v ++ q)) p.length = v := by
  have h0 : (p ++ (write16 v ++ q)).getD p.length 0 = UInt8.ofNat v := by simp [write16]
  have h1 : (p ++ (write16 v ++ q)).getD (p.length + 1) 0 = UInt8.ofNat (v / 256) := by
    simp [write16]
  rw [read16, h0, h1, UInt8.toNat_ofNat', UInt8.toNat_ofNat']
  omega

/-- A word that was written is read where it begins, whatever stands around it.
-/
theorem read32_write32 (hv : v < 4294967296) (p q : List UInt8) :
    read32 (p ++ (write32 v ++ q)) p.length = v := by
  have h0 : (p ++ (write32 v ++ q)).getD p.length 0 = UInt8.ofNat v := by simp [write32]
  have h1 : (p ++ (write32 v ++ q)).getD (p.length + 1) 0 = UInt8.ofNat (v / 256) := by
    simp [write32]
  have h2 : (p ++ (write32 v ++ q)).getD (p.length + 2) 0 = UInt8.ofNat (v / 65536) := by
    simp [write32]
  have h3 : (p ++ (write32 v ++ q)).getD (p.length + 3) 0 = UInt8.ofNat (v / 16777216) := by
    simp [write32]
  rw [read32, h0, h1, h2, h3]
  simp only [UInt8.toNat_ofNat']
  omega

/-- **The bytes of a word that was read** are those it was read from. -/
theorem write16_read16 (p : List UInt8) (off : ℕ) :
    write16 (read16 p off) = [p.getD off 0, p.getD (off + 1) 0] := by
  have h0 := (p.getD off 0).toNat_lt
  have h1 := (p.getD (off + 1) 0).toNat_lt
  have hlow : UInt8.ofNat (read16 p off) = p.getD off 0 := by
    rw [← UInt8.toNat_inj, UInt8.toNat_ofNat', read16]
    omega
  have hhigh : UInt8.ofNat (read16 p off / 256) = p.getD (off + 1) 0 := by
    rw [← UInt8.toNat_inj, UInt8.toNat_ofNat', read16]
    omega
  rw [write16, hlow, hhigh]

/-- A word that was read is written as its four bytes. -/
theorem write32_read32 (p : List UInt8) (off : ℕ) :
    write32 (read32 p off) =
      [p.getD off 0, p.getD (off + 1) 0, p.getD (off + 2) 0, p.getD (off + 3) 0] := by
  have h0 := (p.getD off 0).toNat_lt
  have h1 := (p.getD (off + 1) 0).toNat_lt
  have h2 := (p.getD (off + 2) 0).toNat_lt
  have h3 := (p.getD (off + 3) 0).toNat_lt
  have hb0 : UInt8.ofNat (read32 p off) = p.getD off 0 := by
    rw [← UInt8.toNat_inj, UInt8.toNat_ofNat', read32]
    omega
  have hb1 : UInt8.ofNat (read32 p off / 256) = p.getD (off + 1) 0 := by
    rw [← UInt8.toNat_inj, UInt8.toNat_ofNat', read32]
    omega
  have hb2 : UInt8.ofNat (read32 p off / 65536) = p.getD (off + 2) 0 := by
    rw [← UInt8.toNat_inj, UInt8.toNat_ofNat', read32]
    omega
  have hb3 : UInt8.ofNat (read32 p off / 16777216) = p.getD (off + 3) 0 := by
    rw [← UInt8.toNat_inj, UInt8.toNat_ofNat', read32]
    omega
  rw [write32, hb0, hb1, hb2, hb3]

theorem read16_lt (p : List UInt8) (off : ℕ) : read16 p off < 65536 := by
  have h0 := (p.getD off 0).toNat_lt
  have h1 := (p.getD (off + 1) 0).toNat_lt
  rw [read16]
  omega

theorem read32_lt (p : List UInt8) (off : ℕ) : read32 p off < 4294967296 := by
  have h0 := (p.getD off 0).toNat_lt
  have h1 := (p.getD (off + 1) 0).toNat_lt
  have h2 := (p.getD (off + 2) 0).toNat_lt
  have h3 := (p.getD (off + 3) 0).toNat_lt
  rw [read32]
  omega

/-- The front of a list, byte for byte. -/
theorem take_eq_getD {n : ℕ} (hn : n ≤ p.length) :
    p.take n = (List.range n).map fun i => p.getD i 0 := by
  refine List.ext_getElem ?_ fun i hi hi' => ?_
  · rw [List.length_take, Nat.min_eq_left hn, List.length_map, List.length_range]
  · rw [List.length_take] at hi
    rw [List.getElem_take, List.getElem_map, List.getElem_range, List.getD_eq_getElem _ _ (by omega)]

end LittleEndian
