import Mathlib.Data.List.GetD
import Mathlib.Tactic.Common

/-!
# SHA-256

The hash function of FIPS 180-4 on byte strings: padding, message
schedule, compression, and the iteration over 64-byte blocks; and the
message authentication code HMAC over it.
`absorb_append` is what an implementation that takes its input in pieces
rests on.
-/

namespace Sha256

/-! ## Functions on words -/

/-- `ROTR`. -/
def rotr (n x : UInt32) : UInt32 := (x >>> n) ||| (x <<< (32 - n))

/-- `Ch`. -/
def ch (x y z : UInt32) : UInt32 := (x &&& y) ^^^ (~~~x &&& z)

/-- `Maj`. -/
def maj (x y z : UInt32) : UInt32 := (x &&& y) ^^^ (x &&& z) ^^^ (y &&& z)

/-- `Σ₀`. -/
def bigSigma0 (x : UInt32) : UInt32 := rotr 2 x ^^^ rotr 13 x ^^^ rotr 22 x

/-- `Σ₁`. -/
def bigSigma1 (x : UInt32) : UInt32 := rotr 6 x ^^^ rotr 11 x ^^^ rotr 25 x

/-- `σ₀`. -/
def sigma0 (x : UInt32) : UInt32 := rotr 7 x ^^^ rotr 18 x ^^^ (x >>> 3)

/-- `σ₁`. -/
def sigma1 (x : UInt32) : UInt32 := rotr 17 x ^^^ rotr 19 x ^^^ (x >>> 10)

/-- The constants `K`. -/
def constants : List UInt32 := [
  0x428a2f98, 0x71374491, 0xb5c0fbcf, 0xe9b5dba5, 0x3956c25b, 0x59f111f1, 0x923f82a4, 0xab1c5ed5,
  0xd807aa98, 0x12835b01, 0x243185be, 0x550c7dc3, 0x72be5d74, 0x80deb1fe, 0x9bdc06a7, 0xc19bf174,
  0xe49b69c1, 0xefbe4786, 0x0fc19dc6, 0x240ca1cc, 0x2de92c6f, 0x4a7484aa, 0x5cb0a9dc, 0x76f988da,
  0x983e5152, 0xa831c66d, 0xb00327c8, 0xbf597fc7, 0xc6e00bf3, 0xd5a79147, 0x06ca6351, 0x14292967,
  0x27b70a85, 0x2e1b2138, 0x4d2c6dfc, 0x53380d13, 0x650a7354, 0x766a0abb, 0x81c2c92e, 0x92722c85,
  0xa2bfe8a1, 0xa81a664b, 0xc24b8b70, 0xc76c51a3, 0xd192e819, 0xd6990624, 0xf40e3585, 0x106aa070,
  0x19a4c116, 0x1e376c08, 0x2748774c, 0x34b0bcb5, 0x391c0cb3, 0x4ed8aa4a, 0x5b9cca4f, 0x682e6ff3,
  0x748f82ee, 0x78a5636f, 0x84c87814, 0x8cc70208, 0x90befffa, 0xa4506ceb, 0xbef9a3f7, 0xc67178f2]

/-- The initial hash value. -/
def initial : Vector UInt32 8 := #[0x6a09e667, 0xbb67ae85, 0x3c6ef372, 0xa54ff53a,
  0x510e527f, 0x9b05688c, 0x1f83d9ab, 0x5be0cd19].toVector

/-! ## One block -/

/-- Word `i` of a block, big-endian. -/
def blockWord (block : List UInt8) (i : ℕ) : UInt32 :=
  ((block.getD (4 * i) 0).toUInt32 <<< 24) ||| ((block.getD (4 * i + 1) 0).toUInt32 <<< 16) |||
    ((block.getD (4 * i + 2) 0).toUInt32 <<< 8) ||| (block.getD (4 * i + 3) 0).toUInt32

/-- `W t` for `16 ≤ t`, from the words before it. -/
def scheduleWord (w : List UInt32) (t : ℕ) : UInt32 :=
  sigma1 (w.getD (t - 2) 0) + w.getD (t - 7) 0 + sigma0 (w.getD (t - 15) 0) + w.getD (t - 16) 0

/-- The message schedule of a block. -/
def schedule (block : List UInt8) : List UInt32 :=
  (List.range 48).foldl (fun w k => w ++ [scheduleWord w (k + 16)])
    ((List.range 16).map (blockWord block))

/-- One round, over the working variables `a … h`. -/
def round (r : Vector UInt32 8) (k w : UInt32) : Vector UInt32 8 :=
  let t1 := r.get 7 + bigSigma1 (r.get 4) + ch (r.get 4) (r.get 5) (r.get 6) + k + w
  let t2 := bigSigma0 (r.get 0) + maj (r.get 0) (r.get 1) (r.get 2)
  #[t1 + t2, r.get 0, r.get 1, r.get 2, r.get 3 + t1, r.get 4, r.get 5, r.get 6].toVector

/-- The hash value after a block. -/
def compress (h : Vector UInt32 8) (block : List UInt8) : Vector UInt32 8 :=
  let r := (List.range 64).foldl
    (fun r t => round r (constants.getD t 0) ((schedule block).getD t 0)) h
  Vector.zipWith (· + ·) h r

/-! ## A message -/

/-- The last `n` bytes of a number, big-endian. -/
def bigEndian : ℕ → ℕ → List UInt8
  | 0, _ => []
  | n + 1, v => bigEndian n (v / 256) ++ [UInt8.ofNat v]

/-- The padded message: a one bit, zeros, and the length in bits. -/
def pad (m : List UInt8) : List UInt8 :=
  m ++ 0x80 :: (List.replicate ((119 - m.length % 64) % 64) 0 ++ bigEndian 8 (8 * m.length))

/-- The hash value after the whole blocks of `m`. -/
def absorb (h : Vector UInt32 8) (m : List UInt8) : Vector UInt32 8 :=
  if 64 ≤ m.length then absorb (compress h (m.take 64)) (m.drop 64) else h
termination_by m.length
decreasing_by simp only [List.length_drop]; omega

theorem wordIndex_lt (i : Fin 32) : i.val / 4 < 8 := by omega

/-- The digest of a hash value. -/
def digest (h : Vector UInt32 8) : Vector UInt8 32 :=
  Vector.ofFn fun i =>
    (h.get ⟨i.val / 4, wordIndex_lt i⟩ >>> (24 - 8 * UInt32.ofNat (i % 4))).toUInt8

/-- **SHA-256.** -/
def hash (m : List UInt8) : Vector UInt8 32 := digest (absorb initial (pad m))

/-! ## Messages with a key -/

/-- The block of a key: the key, or its digest where it is longer than a
block, with zeros behind. -/
def keyBlock (key : List UInt8) : List UInt8 :=
  let k := if 64 < key.length then (hash key).toList else key
  k ++ List.replicate (64 - k.length) 0

/-- **HMAC-SHA-256.** -/
def hmac (key m : List UInt8) : Vector UInt8 32 :=
  let inner := hash ((keyBlock key).map (· ^^^ 0x36) ++ m)
  hash ((keyBlock key).map (· ^^^ 0x5C) ++ inner.toList)

/-! ## Input in pieces -/

variable {h : Vector UInt32 8} {m n block : List UInt8}

/-- A block is compressed by its sixty-four rounds, added to the state before
them. -/
theorem compress_eq (h : Vector UInt32 8) (block : List UInt8) :
    compress h block = Vector.zipWith (· + ·) h ((List.range 64).foldl
      (fun r t => round r (constants.getD t 0) ((schedule block).getD t 0)) h) := by
  delta compress
  with_reducible rfl

theorem absorb_of_lt (hm : m.length < 64) : absorb h m = h := by
  rw [absorb, if_neg (by omega)]

/-- A block is absorbed first, and then the rest. -/
theorem absorb_block (hb : block.length = 64) (m : List UInt8) :
    absorb h (block ++ m) = absorb (compress h block) m := by
  rw [absorb, if_pos (by simp only [List.length_append]; omega), ← hb, List.take_left, List.drop_left]

/-- One block is compressed once. -/
theorem absorb_one (hb : block.length = 64) : absorb h block = compress h block := by
  have h0 := absorb_block (h := h) hb []
  rwa [List.append_nil, absorb_of_lt (m := []) (by simp)] at h0

example : hash [0x61, 0x62, 0x63] = #v[
    0xba, 0x78, 0x16, 0xbf, 0x8f, 0x01, 0xcf, 0xea, 0x41, 0x41, 0x40, 0xde, 0x5d, 0xae, 0x22, 0x23,
    0xb0, 0x03, 0x61, 0xa3, 0x96, 0x17, 0x7a, 0x9c, 0xb4, 0x10, 0xff, 0x61, 0xf2, 0x00, 0x15, 0xad] := by
  rw [hash, absorb_one (by decide +kernel)]
  decide +kernel

/-- **Whole blocks first, then the rest.** The cut must lie between two blocks,
or the rest would be read from the wrong place. -/
theorem absorb_append (hm : m.length % 64 = 0) (n : List UInt8) :
    absorb h (m ++ n) = absorb (absorb h m) n := by
  induction hk : m.length / 64 generalizing h m with
  | zero =>
    obtain rfl : m = [] := List.length_eq_zero_iff.1 (by omega)
    rw [List.nil_append, absorb_of_lt (m := []) (by simp)]
  | succ k ih =>
    have htake : (m.take 64).length = 64 := by rw [List.length_take]; omega
    have hsplit := absorb_block (h := h) htake (m.drop 64)
    rw [List.take_append_drop] at hsplit
    conv_lhs => rw [← List.take_append_drop 64 m, List.append_assoc]
    rw [absorb_block htake, hsplit]
    exact ih (by rw [List.length_drop]; omega) (by rw [List.length_drop]; omega)

end Sha256
