import DeusOs.Bootloader.Model.Sha256
import Mathlib.Tactic.Common

/-!
# The bootloader — the running hash

`sha256_init` leaves the old bytes in the block buffer. They are never
read: two contexts that agree on what has been absorbed (`Alike`) stay so
and end in the same digest. The digest of a session is therefore that of
its bytes, whatever the context held before.
-/

namespace DeusOs

namespace Bootloader

/-- The contexts have absorbed the same bytes: they differ at most in the
part of the buffer not yet written. -/
structure Alike (c d : Sha256Ctx) : Prop where
  h : c.h = d.h
  totalBytes : c.totalBytes = d.totalBytes
  bufferLen : c.bufferLen = d.bufferLen
  buffer : ∀ (i : ℕ) (hi : i < c.bufferLen.val), c.buffer[i] = d.buffer[i]

variable {c d : Sha256Ctx}

theorem alike_init (c d : Sha256Ctx) : Alike (sha256Init c) (sha256Init d) where
  h := rfl
  totalBytes := rfl
  bufferLen := rfl
  buffer i hi := absurd hi (Nat.not_lt_zero i)

/-- Writing the next byte extends the part they agree on. -/
theorem Alike.set (h : Alike c d) (b : UInt8) (i : ℕ) (hi : i ≤ c.bufferLen.val) :
    (c.buffer.set c.bufferLen b)[i] = (d.buffer.set d.bufferLen b)[i] := by
  have hlen := h.bufferLen
  rw [Vector.getElem_set, Vector.getElem_set, hlen]
  split
  · rfl
  · rename_i hne
    exact h.buffer i (by rw [← hlen] at hne; omega)

/-- Contexts that are alike stay alike over a byte. -/
theorem Alike.byte (h : Alike c d) (b : UInt8) : Alike (sha256Byte c b) (sha256Byte d b) := by
  have hset := h.set b
  have hlen := h.bufferLen
  have htotal := h.totalBytes
  have hh := h.h
  unfold sha256Byte
  by_cases hfull : c.bufferLen.val + 1 = 64
  · -- the block is complete, and the buffers agree throughout
    have hbuf : c.buffer.set c.bufferLen b = d.buffer.set d.bufferLen b :=
      Vector.ext fun i hi => hset i (by omega)
    rw [dif_pos hfull, dif_pos (hlen ▸ hfull)]
    exact ⟨by rw [hh, hbuf], by rw [htotal], rfl, fun i hi => by rw [hbuf]⟩
  · rw [dif_neg hfull, dif_neg (hlen ▸ hfull)]
    refine ⟨hh, by rw [htotal], Fin.ext (by simp only [hlen]), fun i hi => ?_⟩
    exact hset i (Nat.lt_succ_iff.1 hi)

/-- Contexts that are alike stay alike over an update. -/
theorem Alike.update (h : Alike c d) (data : List UInt8) :
    Alike (sha256Update c data) (sha256Update d data) := by
  induction data generalizing c d with
  | nil => exact h
  | cons b data ih => exact ih (h.byte b)

/-- Zeroing from the write position on leaves nothing they differ in. -/
theorem Alike.zeroFilled (h : Alike c d) (hi i : ℕ) (hlt : i < hi) (h64 : i < 64) :
    (zeroFill (c.buffer.set c.bufferLen 0x80) (c.bufferLen.val + 1) hi)[i] =
      (zeroFill (d.buffer.set d.bufferLen 0x80) (d.bufferLen.val + 1) hi)[i] := by
  have hlen := h.bufferLen
  simp only [zeroFill, Vector.getElem_ofFn]
  by_cases hc : c.bufferLen.val + 1 ≤ i ∧ i < hi
  · rw [if_pos hc, if_pos (hlen ▸ hc)]
  · rw [if_neg hc, if_neg (hlen ▸ hc)]
    exact h.set 0x80 i (by omega)

theorem putBitLength_congr {a b : Vector UInt8 64} (bitlen : UInt32)
    (h : ∀ (i : ℕ) (h56 : i < 56), a[i] = b[i]) : putBitLength a bitlen = putBitLength b bitlen := by
  refine Vector.ext fun i hi => ?_
  simp only [putBitLength, Vector.getElem_ofFn]
  split
  · rename_i h56
    exact h i h56
  · rfl

/-- The digest where the padding needs a block of its own. -/
theorem sha256Final_of_long (h : 56 < c.bufferLen.val + 1) :
    sha256Final c =
      let full := zeroFill (c.buffer.set c.bufferLen 0x80) (c.bufferLen.val + 1) 64
      digestBytes (sha256Transform (sha256Transform c.h full)
        (putBitLength (zeroFill full 0 56) (c.totalBytes * 8))) := by
  simp only [sha256Final, sha256Finish, if_pos h]

/-- And where it fits in the last one. -/
theorem sha256Final_of_short (h : ¬ 56 < c.bufferLen.val + 1) :
    sha256Final c =
      digestBytes (sha256Transform c.h (putBitLength
        (zeroFill (c.buffer.set c.bufferLen 0x80) (c.bufferLen.val + 1) 56) (c.totalBytes * 8))) := by
  simp only [sha256Final, sha256Finish, if_neg h]

/-- **Contexts that absorbed the same bytes end in the same digest,** whatever
stands in their buffers behind these. -/
theorem Alike.final (h : Alike c d) : sha256Final c = sha256Final d := by
  have hzero := h.zeroFilled
  have hlen := h.bufferLen
  by_cases hbig : 56 < c.bufferLen.val + 1
  · have hfull : zeroFill (c.buffer.set c.bufferLen 0x80) (c.bufferLen.val + 1) 64 =
        zeroFill (d.buffer.set d.bufferLen 0x80) (d.bufferLen.val + 1) 64 :=
      Vector.ext fun i hi => hzero 64 i hi hi
    rw [sha256Final_of_long hbig, sha256Final_of_long (hlen ▸ hbig), hfull, h.h, h.totalBytes]
  · have hlast : putBitLength (zeroFill (c.buffer.set c.bufferLen 0x80) (c.bufferLen.val + 1) 56)
          (c.totalBytes * 8) =
        putBitLength (zeroFill (d.buffer.set d.bufferLen 0x80) (d.bufferLen.val + 1) 56)
          (d.totalBytes * 8) := by
      rw [h.totalBytes]
      exact putBitLength_congr _ fun i h56 => hzero 56 i h56 (by omega)
    rw [sha256Final_of_short hbig, sha256Final_of_short (hlen ▸ hbig), hlast, h.h]

/-- **The digest of a stream is the digest of its bytes,** by definition of the
second. -/
theorem sha256Final_update_init (c : Sha256Ctx) (data : List UInt8) :
    sha256Final (sha256Update (sha256Init c) data) = sha256Memory data :=
  ((alike_init c Sha256Ctx.zero).update data).final

end Bootloader

end DeusOs
