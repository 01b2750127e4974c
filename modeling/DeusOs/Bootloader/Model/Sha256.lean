import DeusOs.Bootloader.Model.Bytes

/-!
# The bootloader — SHA-256 and the header tag

`sha256_init`, `sha256_update`, `sha256_final` and `hmac_header` of
`bootloader.c`. The context keeps its block buffer as the source does:
`sha256_init` resets the counters and leaves the buffer's old bytes.
-/

namespace DeusOs

namespace Bootloader

/-- `rotr32`. -/
def rotr32 (x n : UInt32) : UInt32 := (x >>> n) ||| (x <<< (32 - n))

/-- `sha_k`. -/
def shaK : Vector UInt32 64 := #v[
  0x428a2f98, 0x71374491, 0xb5c0fbcf, 0xe9b5dba5, 0x3956c25b, 0x59f111f1, 0x923f82a4, 0xab1c5ed5,
  0xd807aa98, 0x12835b01, 0x243185be, 0x550c7dc3, 0x72be5d74, 0x80deb1fe, 0x9bdc06a7, 0xc19bf174,
  0xe49b69c1, 0xefbe4786, 0x0fc19dc6, 0x240ca1cc, 0x2de92c6f, 0x4a7484aa, 0x5cb0a9dc, 0x76f988da,
  0x983e5152, 0xa831c66d, 0xb00327c8, 0xbf597fc7, 0xc6e00bf3, 0xd5a79147, 0x06ca6351, 0x14292967,
  0x27b70a85, 0x2e1b2138, 0x4d2c6dfc, 0x53380d13, 0x650a7354, 0x766a0abb, 0x81c2c92e, 0x92722c85,
  0xa2bfe8a1, 0xa81a664b, 0xc24b8b70, 0xc76c51a3, 0xd192e819, 0xd6990624, 0xf40e3585, 0x106aa070,
  0x19a4c116, 0x1e376c08, 0x2748774c, 0x34b0bcb5, 0x391c0cb3, 0x4ed8aa4a, 0x5b9cca4f, 0x682e6ff3,
  0x748f82ee, 0x78a5636f, 0x84c87814, 0x8cc70208, 0x90befffa, 0xa4506ceb, 0xbef9a3f7, 0xc67178f2]

/-- Word `i` of the block, big-endian. -/
def blockWord (block : Vector UInt8 64) (i : ℕ) : UInt32 :=
  ((block.getD (4 * i) 0).toUInt32 <<< 24) ||| ((block.getD (4 * i + 1) 0).toUInt32 <<< 16) |||
    ((block.getD (4 * i + 2) 0).toUInt32 <<< 8) ||| (block.getD (4 * i + 3) 0).toUInt32

/-- Entry `i ≥ 16` of `sha_schedule`, from the entries below it. -/
def scheduleWord (w : Array UInt32) (i : ℕ) : UInt32 :=
  let w15 := w.getD (i - 15) 0
  let w2 := w.getD (i - 2) 0
  let s0 := rotr32 w15 7 ^^^ rotr32 w15 18 ^^^ (w15 >>> 3)
  let s1 := rotr32 w2 17 ^^^ rotr32 w2 19 ^^^ (w2 >>> 10)
  w.getD (i - 16) 0 + s0 + w.getD (i - 7) 0 + s1

/-- `sha_schedule`: sixteen words of the block, then forty-eight computed. -/
def shaSchedule (block : Vector UInt8 64) : Array UInt32 :=
  (List.range 48).foldl (fun w k => w.push (scheduleWord w (k + 16)))
    ((Array.range 16).map (blockWord block))

/-- One of the sixty-four rounds, over the registers `a … h`. -/
def shaRound (r : Vector UInt32 8) (k w : UInt32) : Vector UInt32 8 :=
  let ⟨a, b, c, d, e, f, g, h⟩ := (r[0], r[1], r[2], r[3], r[4], r[5], r[6], r[7])
  let s1 := rotr32 e 6 ^^^ rotr32 e 11 ^^^ rotr32 e 25
  let ch := (e &&& f) ^^^ (~~~e &&& g)
  let t1 := h + s1 + ch + k + w
  let s0 := rotr32 a 2 ^^^ rotr32 a 13 ^^^ rotr32 a 22
  let maj := (a &&& b) ^^^ (a &&& c) ^^^ (b &&& c)
  let t2 := s0 + maj
  #v[t1 + t2, a, b, c, d + t1, e, f, g]

/-- `sha256_transform`. -/
def sha256Transform (h : Vector UInt32 8) (block : Vector UInt8 64) : Vector UInt32 8 :=
  let w := shaSchedule block
  let r := (List.range 64).foldl (fun r i => shaRound r (shaK.getD i 0) (w.getD i 0)) h
  Vector.zipWith (· + ·) h r

/-- `sha256_ctx_t`. The buffer is never full between two bytes, so its
length is below 64 by type. -/
structure Sha256Ctx where
  h : Vector UInt32 8
  totalBytes : UInt32
  bufferLen : Fin 64
  buffer : Vector UInt8 64

/-- The context as the zeroed `.bss` has it. -/
def Sha256Ctx.zero : Sha256Ctx := ⟨Vector.replicate 8 0, 0, 0, Vector.replicate 64 0⟩

/-- The initial hash value. -/
def shaInitial : Vector UInt32 8 := #v[0x6a09e667, 0xbb67ae85, 0x3c6ef372, 0xa54ff53a,
  0x510e527f, 0x9b05688c, 0x1f83d9ab, 0x5be0cd19]

/-- `sha256_init`. -/
def sha256Init (c : Sha256Ctx) : Sha256Ctx :=
  { c with h := shaInitial, totalBytes := 0, bufferLen := 0 }

/-- One byte of `sha256_update`. -/
def sha256Byte (c : Sha256Ctx) (b : UInt8) : Sha256Ctx :=
  let buffer := c.buffer.set c.bufferLen b
  if h : c.bufferLen + 1 = (64 : ℕ) then
    { h := sha256Transform c.h buffer, totalBytes := c.totalBytes + 1, bufferLen := 0, buffer }
  else
    { h := c.h, totalBytes := c.totalBytes + 1, bufferLen := ⟨c.bufferLen + 1, by omega⟩, buffer }

/-- `sha256_update`. -/
def sha256Update (c : Sha256Ctx) (data : List UInt8) : Sha256Ctx := data.foldl sha256Byte c

/-- `while (len < hi) buffer[len++] = 0`, from `len = lo`. -/
def zeroFill (buffer : Vector UInt8 64) (lo hi : ℕ) : Vector UInt8 64 :=
  Vector.ofFn fun i => if lo ≤ i ∧ i < hi then 0 else buffer[i]

/-- The last eight bytes of the last block: four zeros and the bit length. -/
def putBitLength (buffer : Vector UInt8 64) (bitlen : UInt32) : Vector UInt8 64 :=
  Vector.ofFn fun i =>
    if i < 56 then buffer[i]
    else if i < 60 then 0
    else if i = 60 then (bitlen >>> 24).toUInt8
    else if i = 61 then (bitlen >>> 16).toUInt8
    else if i = 62 then (bitlen >>> 8).toUInt8
    else bitlen.toUInt8

/-- The digest bytes of the hash words, big-endian. -/
def digestBytes (h : Vector UInt32 8) : Vector UInt8 32 :=
  Vector.ofFn fun i => (h[i.val / 4] >>> (24 - 8 * UInt32.ofNat (i % 4))).toUInt8

/-- What `sha256_final` makes of the context: the `0x80` byte, zeros, the
bit length, and one or two more blocks. -/
def sha256Finish (c : Sha256Ctx) : Sha256Ctx :=
  let bitlen := c.totalBytes * 8
  let buffer := c.buffer.set c.bufferLen 0x80
  let len := c.bufferLen.val + 1
  if 56 < len then
    let full := zeroFill buffer len 64
    let last := putBitLength (zeroFill full 0 56) bitlen
    { c with
      h := sha256Transform (sha256Transform c.h full) last, bufferLen := 56, buffer := last }
  else
    let last := putBitLength (zeroFill buffer len 56) bitlen
    { c with h := sha256Transform c.h last, bufferLen := 56, buffer := last }

/-- The digest `sha256_final` writes. -/
def sha256Final (c : Sha256Ctx) : Vector UInt8 32 := digestBytes (sha256Finish c).h

/-- `sha256_memory`, on the bytes it reads. Its context is a local whose
buffer is not initialised; no byte of it is read before it is written. -/
def sha256Memory (data : List UInt8) : Vector UInt8 32 :=
  sha256Final (sha256Update (sha256Init Sha256Ctx.zero) data)

/-- `hmac_domain`: "DEUSHDR1". -/
def hmacDomain : List UInt8 := [0x44, 0x45, 0x55, 0x53, 0x48, 0x44, 0x52, 0x31]

/-- `origin_le`. -/
def originLe : List UInt8 := [0x00, 0x20, 0x00, 0x08]

/-- A 64-byte block of `pad` with the key exclusive-ored into its first
32 bytes. -/
def keyBlock (key : Vector UInt8 32) (pad : UInt8) : List UInt8 :=
  (List.range 64).map fun i => if i < 32 then pad ^^^ key.getD i 0 else pad

/-- `hmac_header`. -/
def hmacHeader (key : Vector UInt8 32) (header : List UInt8) : Vector UInt8 32 :=
  let inner := sha256Memory (keyBlock key 0x36 ++ hmacDomain ++ originLe ++ header.take 48)
  sha256Memory (keyBlock key 0x5C ++ inner.toList)

end Bootloader

end DeusOs
