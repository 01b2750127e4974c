import DeusOs.Common.Sha256
import DeusOs.Bootloader.Sha

/-!
# The bootloader — its hash is SHA-256

The context after any updates, in terms of the bytes absorbed
(`Absorbed`), and what `sha256_final` makes of it. The bit count of the
source is a 32-bit word, so the digest is the standard one up to `2 ^ 29`
bytes.
-/

namespace DeusOs

namespace Bootloader

open Sha256 (absorb compress)

/-! ## One block -/

theorem shaK_eq : shaK.toList = Sha256.constants := rfl

theorem shaRound_eq (r : Vector UInt32 8) (k w : UInt32) : shaRound r k w = Sha256.round r k w := rfl

/-- Reading an array is reading its list. -/
theorem getD_array (w : Array UInt32) (j : ℕ) : w.getD j 0 = w.toList.getD j 0 := by
  simp [Array.getD_eq_getD_getElem?, List.getD_eq_getElem?_getD]

/-- Reading a vector is reading its list. -/
theorem getD_vector {n : ℕ} {α : Type} (v : Vector α n) (j : ℕ) (d : α) :
    v.getD j d = v.toList.getD j d := by
  simp [Vector.getD, List.getD_eq_getElem?_getD]

/-- The code reads the words of a block as the standard does. -/
theorem blockWord_eq (block : Vector UInt8 64) (i : ℕ) :
    blockWord block i = Sha256.blockWord block.toList i := by
  simp only [blockWord, Sha256.blockWord, getD_vector]

theorem add_reversed (a b c d : UInt32) : a + b + c + d = d + c + b + a := by ac_rfl

/-- The code extends the schedule by the word that the standard does. -/
theorem scheduleWord_eq (w : Array UInt32) (t : ℕ) :
    scheduleWord w t = Sha256.scheduleWord w.toList t := by
  simp only [scheduleWord, getD_array]
  exact add_reversed _ _ _ _

theorem foldl_schedule (ks : List ℕ) (w : Array UInt32) :
    (ks.foldl (fun w k => w.push (scheduleWord w (k + 16))) w).toList =
      ks.foldl (fun w k => w ++ [Sha256.scheduleWord w (k + 16)]) w.toList := by
  induction ks generalizing w with
  | nil => rfl
  | cons k ks ih => rw [List.foldl_cons, List.foldl_cons, ih, Array.toList_push, scheduleWord_eq]

/-- The code's message schedule is the standard's. -/
theorem shaSchedule_eq (block : Vector UInt8 64) :
    (shaSchedule block).toList = Sha256.schedule block.toList := by
  have hwords : blockWord block = Sha256.blockWord block.toList :=
    funext fun i => blockWord_eq block i
  rw [shaSchedule, Sha256.schedule, foldl_schedule, Array.toList_map, Array.toList_range, hwords]

/-- A transformation is its sixty-four rounds, added to the state before them.
-/
theorem sha256Transform_def (h : Vector UInt32 8) (block : Vector UInt8 64) :
    sha256Transform h block = Vector.zipWith (· + ·) h ((List.range 64).foldl
      (fun r i => shaRound r (shaK.getD i 0) ((shaSchedule block).getD i 0)) h) := by
  delta sha256Transform
  with_reducible rfl

/-- **The block function is the standard one,** in its schedule and in its
rounds. -/
theorem sha256Transform_eq (h : Vector UInt32 8) (block : Vector UInt8 64) :
    sha256Transform h block = compress h block.toList := by
  have hstep : (fun (r : Vector UInt32 8) i =>
        shaRound r (shaK.getD i 0) ((shaSchedule block).getD i 0)) =
      fun r t => Sha256.round r (Sha256.constants.getD t 0)
        ((Sha256.schedule block.toList).getD t 0) := by
    funext r i
    rw [shaRound_eq, getD_vector, shaK_eq, getD_array, shaSchedule_eq]
  rw [sha256Transform_def, hstep, Sha256.compress_eq]

/-! ## The running context -/

/-- The context has absorbed `data`: whole blocks in the hash value, the
rest in the buffer. -/
structure Absorbed (c : Sha256Ctx) (data : List UInt8) : Prop where
  hash : c.h = absorb Sha256.initial data
  total : c.totalBytes = UInt32.ofNat data.length
  len : c.bufferLen.val = data.length % 64
  buffer : c.buffer.toList.take c.bufferLen.val = data.drop (data.length / 64 * 64)

variable {c : Sha256Ctx} {data : List UInt8}

/-- A fresh context has absorbed nothing. -/
theorem absorbed_init (c : Sha256Ctx) : Absorbed (sha256Init c) [] where
  hash := (Sha256.absorb_of_lt (by simp)).symm
  total := rfl
  len := rfl
  buffer := rfl

/-- A message is whole blocks and a rest shorter than a block. -/
theorem split_blocks (data : List UInt8) :
    (data.take (data.length / 64 * 64)).length % 64 = 0 ∧
      (data.drop (data.length / 64 * 64)).length = data.length % 64 := by
  rw [List.length_take, List.length_drop, Nat.min_eq_left (by omega)]
  omega

theorem absorb_split (h : Vector UInt32 8) (data extra : List UInt8) :
    absorb h (data ++ extra) =
      absorb (absorb h data) (data.drop (data.length / 64 * 64) ++ extra) := by
  obtain ⟨hfront, hrest⟩ := split_blocks data
  have hone : absorb h data = absorb h (data.take (data.length / 64 * 64)) := by
    conv_lhs => rw [← List.take_append_drop (data.length / 64 * 64) data]
    rw [Sha256.absorb_append hfront, Sha256.absorb_of_lt (by omega)]
  rw [hone, ← Sha256.absorb_append hfront, ← List.append_assoc, List.take_append_drop]

/-- The written part of a buffer, with the next byte. -/
theorem take_set {n : ℕ} (buffer : Vector UInt8 n) (k : Fin n) (b : UInt8) :
    (buffer.set k b k.isLt).toList.take (k.val + 1) = buffer.toList.take k.val ++ [b] := by
  have hlt := k.isLt
  rw [Vector.toList_set, List.take_add_one, List.take_set_of_le (Nat.le_refl _)]
  simp [hlt]

/-- **One byte more,** which fills the block buffer or completes a block. -/
theorem Absorbed.byte (h : Absorbed c data) (b : UInt8) : Absorbed (sha256Byte c b) (data ++ [b]) := by
  have htake := take_set c.buffer c.bufferLen b
  have hlen := h.len
  have hsplit := absorb_split Sha256.initial data [b]
  have hrest := (split_blocks data).2
  rw [h.buffer] at htake
  have htotal : c.totalBytes + 1 = UInt32.ofNat (data ++ [b]).length := by
    rw [h.total, List.length_append, List.length_singleton, UInt32.ofNat_add]
    rfl
  unfold sha256Byte
  by_cases hfull : c.bufferLen.val + 1 = 64
  · rw [dif_pos hfull]
    -- the buffer is a block: the old rest and this byte
    have hblock : (c.buffer.set c.bufferLen b).toList = data.drop (data.length / 64 * 64) ++ [b] := by
      rw [← htake, List.take_of_length_le (by simp [hfull])]
    have hlen' : (data ++ [b]).length / 64 * 64 = (data ++ [b]).length := by
      rw [List.length_append, List.length_singleton]
      omega
    refine ⟨?_, htotal, ?_, ?_⟩
    · have hone : (data.drop (data.length / 64 * 64) ++ [b]).length = 64 := by
        rw [List.length_append, List.length_singleton]
        omega
      show sha256Transform c.h (c.buffer.set c.bufferLen b) = _
      rw [sha256Transform_eq, hblock, h.hash, hsplit, Sha256.absorb_one hone]
    · simp only [List.length_append, List.length_singleton]
      show 0 = _
      omega
    · rw [hlen', List.drop_length]
      rfl
  · rw [dif_neg hfull]
    have hlen' : (data ++ [b]).length / 64 = data.length / 64 := by
      rw [List.length_append, List.length_singleton]
      omega
    refine ⟨?_, htotal, ?_, ?_⟩
    · have hshort : (data.drop (data.length / 64 * 64) ++ [b]).length < 64 := by
        rw [List.length_append, List.length_singleton]
        omega
      rw [hsplit, Sha256.absorb_of_lt hshort]
      exact h.hash
    · simp only [List.length_append, List.length_singleton]
      omega
    · rw [hlen', List.drop_append_of_le_length (by omega)]
      exact htake

/-- **An update absorbs its bytes** behind those before, wherever the blocks
end. -/
theorem Absorbed.update {more : List UInt8} (h : Absorbed c data) :
    Absorbed (sha256Update c more) (data ++ more) := by
  induction more generalizing c data with
  | nil => rwa [List.append_nil]
  | cons b more ih =>
    have := ih (h.byte b)
    rwa [List.append_assoc, List.singleton_append] at this

/-! ## The last blocks -/

/-- The eight length bytes of a count of bits below `2 ^ 32`. -/
theorem bigEndian_bits {v : ℕ} (hv : v < 4294967296) :
    Sha256.bigEndian 8 v = ([0, 0, 0, 0, (UInt32.ofNat v >>> 24).toUInt8,
      (UInt32.ofNat v >>> 16).toUInt8, (UInt32.ofNat v >>> 8).toUInt8,
      (UInt32.ofNat v).toUInt8] : List UInt8) := by
  have hbyte : ∀ s : UInt32, s.toNat < 32 →
      (UInt32.ofNat v >>> s).toUInt8 = UInt8.ofNat (v / 2 ^ s.toNat) := fun s hs => by
    refine UInt8.toNat_inj.1 ?_
    rw [UInt32.toNat_toUInt8, UInt32.toNat_shiftRight, UInt32.toNat_ofNat', UInt8.toNat_ofNat',
      Nat.mod_eq_of_lt hv, Nat.mod_eq_of_lt hs, Nat.shiftRight_eq_div_pow]
  have h24 := hbyte 24 (by decide)
  have h16 := hbyte 16 (by decide)
  have h8 := hbyte 8 (by decide)
  have h0 : (UInt32.ofNat v).toUInt8 = UInt8.ofNat v := by
    refine UInt8.toNat_inj.1 ?_
    rw [UInt32.toNat_toUInt8, UInt32.toNat_ofNat', UInt8.toNat_ofNat', Nat.mod_eq_of_lt hv]
  have hz : ∀ k, 4294967296 ≤ k → UInt8.ofNat (v / k) = 0 := fun k hk => by
    rw [Nat.div_eq_of_lt (by omega)]
    rfl
  rw [h24, h16, h8, h0]
  simp only [Sha256.bigEndian, Nat.div_div_eq_div_mul, List.nil_append, List.cons_append]
  rw [hz _ (by decide), hz _ (by decide), hz _ (by decide), hz _ (by decide)]
  rfl

theorem toList_zeroFill (b : Vector UInt8 64) {lo hi : ℕ} (hlo : lo ≤ hi) (hhi : hi ≤ 64) :
    (zeroFill b lo hi).toList =
      b.toList.take lo ++ (List.replicate (hi - lo) 0 ++ b.toList.drop hi) := by
  have hlen := b.length_toList
  refine List.ext_getElem ?_ fun i h1 h2 => ?_
  · simp only [Vector.length_toList, List.length_append, List.length_take, List.length_replicate,
      List.length_drop]
    omega
  rw [Vector.length_toList] at h1
  simp only [List.getElem_append, List.length_take, List.length_replicate, List.getElem_take,
    List.getElem_replicate, List.getElem_drop, Vector.getElem_toList, zeroFill, Vector.getElem_ofFn,
    Fin.getElem_fin, hlen]
  by_cases hilo : i < lo
  · rw [if_neg (by omega), dif_pos (by omega)]
  rw [dif_neg (by omega)]
  by_cases hihi : i < hi
  · rw [if_pos (by omega), dif_pos (by omega)]
  · rw [if_neg (by omega), dif_neg (by omega)]
    congr 1
    omega

theorem toList_putBitLength (b : Vector UInt8 64) (bitlen : UInt32) :
    (putBitLength b bitlen).toList = b.toList.take 56 ++ ([0, 0, 0, 0, (bitlen >>> 24).toUInt8,
      (bitlen >>> 16).toUInt8, (bitlen >>> 8).toUInt8, bitlen.toUInt8] : List UInt8) := by
  have hlen := b.length_toList
  refine List.ext_getElem ?_ fun i h1 h2 => ?_
  · simp only [Vector.length_toList, List.length_append, List.length_take, List.length_cons,
      List.length_nil]
    omega
  rw [Vector.length_toList] at h1
  simp only [List.getElem_append, List.length_take, List.getElem_take, Vector.getElem_toList,
    putBitLength, Vector.getElem_ofFn, Fin.getElem_fin, hlen]
  by_cases h56 : i < 56
  · rw [if_pos (show (⟨i, h1⟩ : Fin 64) < 56 from h56), dif_pos (by omega)]
  · rw [if_neg (show ¬ (⟨i, h1⟩ : Fin 64) < 56 from h56), dif_neg (by omega)]
    obtain rfl | rfl | rfl | rfl | rfl | rfl | rfl | rfl :
        i = 56 ∨ i = 57 ∨ i = 58 ∨ i = 59 ∨ i = 60 ∨ i = 61 ∨ i = 62 ∨ i = 63 := by omega
    all_goals simp
/-- The bit count of the source is the length in bits. -/
theorem Absorbed.bits (h : Absorbed c data) (hlen : data.length < 536870912) :
    ([0, 0, 0, 0, ((c.totalBytes * 8) >>> 24).toUInt8, ((c.totalBytes * 8) >>> 16).toUInt8,
      ((c.totalBytes * 8) >>> 8).toUInt8, (c.totalBytes * 8).toUInt8] : List UInt8) =
      Sha256.bigEndian 8 (8 * data.length) := by
  have htotal : c.totalBytes * 8 = UInt32.ofNat (8 * data.length) := by
    rw [h.total, Nat.mul_comm, UInt32.ofNat_mul]
    rfl
  rw [htotal, bigEndian_bits (by omega)]

/-- **The source's digest is SHA-256 of what the context absorbed.** The bit
count is a 32-bit word in the code, so the bytes must be fewer than `2 ^ 29`. -/
theorem Absorbed.final (h : Absorbed c data) (hlen : data.length < 536870912) :
    sha256Final c = Sha256.hash data := by
  -- the rest with the `0x80` byte is what the buffer starts with
  have hmark := take_set c.buffer c.bufferLen 0x80
  rw [h.buffer] at hmark
  have hbits := h.bits hlen
  have hr := h.len
  have hrest := (split_blocks data).2
  have h64 := c.bufferLen.isLt
  generalize hlast : Sha256.bigEndian 8 (8 * data.length) = length8 at hbits
  have h8 : length8.length = 8 := by rw [← hbits]; rfl
  rw [Sha256.hash, Sha256.pad, hlast, absorb_split, ← h.hash]
  generalize data.drop (data.length / 64 * 64) = rest at hmark hrest ⊢
  by_cases hlong : 56 < c.bufferLen.val + 1
  · -- the length needs a block of its own
    have hfull : (zeroFill (c.buffer.set c.bufferLen 0x80) (c.bufferLen.val + 1) 64).toList =
        rest ++ 0x80 :: List.replicate (63 - data.length % 64) 0 := by
      rw [toList_zeroFill _ (by omega) (Nat.le_refl 64), hmark, List.drop_of_length_le (by simp),
        List.append_nil, hr, List.append_assoc, List.singleton_append]
      congr 3
      omega
    have hblock : (rest ++ (0x80 : UInt8) :: List.replicate (63 - data.length % 64) 0).length =
        64 := by
      simp only [List.length_append, List.length_cons, List.length_replicate]
      omega
    have hzeros : (119 - data.length % 64) % 64 = (63 - data.length % 64) + 56 := by omega
    rw [sha256Final_of_long hlong, hzeros, ← List.replicate_append_replicate, List.append_assoc,
      ← List.cons_append, ← List.append_assoc, Sha256.absorb_block hblock]
    generalize zeroFill (c.buffer.set c.bufferLen 0x80) (c.bufferLen.val + 1) 64 = full at hfull ⊢
    have htail : (putBitLength (zeroFill full 0 56) (c.totalBytes * 8)).toList =
        List.replicate 56 0 ++ length8 := by
      rw [toList_putBitLength, hbits, toList_zeroFill _ (by omega) (by omega), List.take_zero,
        List.nil_append, List.take_left' (by simp)]
    dsimp only
    rw [Sha256.absorb_one (by simp [h8]), sha256Transform_eq, sha256Transform_eq, htail, hfull]
    rfl
  · have hshort : (putBitLength (zeroFill (c.buffer.set c.bufferLen 0x80) (c.bufferLen.val + 1) 56)
        (c.totalBytes * 8)).toList =
        rest ++ 0x80 :: (List.replicate (55 - data.length % 64) 0 ++ length8) := by
      have htake : (rest ++ [(0x80 : UInt8)] ++ List.replicate (56 - (c.bufferLen.val + 1)) 0).length =
          56 := by
        simp only [List.length_append, List.length_singleton, List.length_replicate]
        omega
      rw [toList_putBitLength, hbits, toList_zeroFill _ (by omega) (by omega), hmark,
        ← List.append_assoc, List.take_left' htake, hr, List.append_assoc, List.append_assoc,
        List.singleton_append]
      congr 4
      omega
    have hzeros : (119 - data.length % 64) % 64 = 55 - data.length % 64 := by omega
    have hblock : (rest ++ 0x80 :: (List.replicate (55 - data.length % 64) 0 ++ length8)).length =
        64 := by
      simp only [List.length_append, List.length_cons, List.length_replicate]
      omega
    rw [sha256Final_of_short hlong, hzeros, Sha256.absorb_one hblock, sha256Transform_eq, hshort]
    rfl

/-- **`sha256_memory` is SHA-256,** of fewer than `2 ^ 29` bytes. -/
theorem sha256Memory_eq (hlen : data.length < 536870912) : sha256Memory data = Sha256.hash data := by
  have h : Absorbed _ ([] ++ data) := (absorbed_init Sha256Ctx.zero).update
  exact h.final hlen

end Bootloader

end DeusOs
