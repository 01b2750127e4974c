import DeusOs.Bootloader.Model.Sha256

/-!
# The bootloader — hashing over the shared schedule

The functions of `bootloader.c` once more with the global array
`sha_schedule`, which `sha256_transform` overwrites in place, and
`hmac_header` call by call.
-/

namespace DeusOs

namespace Bootloader

/-- `sha_schedule`, and a context. -/
structure Hashing where
  schedule : Vector UInt32 64
  ctx : Sha256Ctx

/-- The two loops of `sha256_transform` that write `sha_schedule`. -/
def fillSchedule (w : Vector UInt32 64) (block : Vector UInt8 64) : Vector UInt32 64 :=
  let w := (List.range 16).foldl (fun w i => w.set! i (blockWord block i)) w
  (List.range 48).foldl (fun w k => w.set! (k + 16) (scheduleWord w.toArray (k + 16))) w

namespace Hashing

theorem emptyBuffer_lt : 0 < 64 := Nat.succ_pos 63

theorem fullBuffer_lt : 56 < 64 := Nat.lt_add_of_pos_right (Nat.succ_pos 7)

/-- `sha256_transform`. -/
def transform (s : Hashing) (block : Vector UInt8 64) : Hashing :=
  let w := fillSchedule s.schedule block
  let r := (List.range 64).foldl (fun r i => shaRound r (shaK.getD i 0) (w.getD i 0)) s.ctx.h
  { schedule := w, ctx := { s.ctx with h := Vector.zipWith (· + ·) s.ctx.h r } }

/-- `sha256_init`. -/
def init (s : Hashing) : Hashing := { s with ctx := sha256Init s.ctx }

/-- One byte of `sha256_update`. -/
def byte (s : Hashing) (b : UInt8) : Hashing :=
  let buffer := s.ctx.buffer.set s.ctx.bufferLen b
  let c := { s.ctx with buffer, totalBytes := s.ctx.totalBytes + 1 }
  if h : s.ctx.bufferLen + 1 = (64 : ℕ) then
    let s := transform { s with ctx := c } buffer
    { s with ctx := { s.ctx with bufferLen := ⟨0, emptyBuffer_lt⟩ } }
  else { s with ctx := { c with bufferLen := ⟨s.ctx.bufferLen + 1, by omega⟩ } }

/-- `sha256_update`. -/
def update (s : Hashing) (data : List UInt8) : Hashing := data.foldl byte s

/-- `sha256_final`, with the digest it writes. -/
def final (s : Hashing) : Hashing × Vector UInt8 32 :=
  let bitlen := s.ctx.totalBytes * 8
  let buffer := s.ctx.buffer.set s.ctx.bufferLen 0x80
  let len := s.ctx.bufferLen.val + 1
  let s :=
    if 56 < len then
      let full := zeroFill buffer len 64
      let s := transform { s with ctx := { s.ctx with buffer := full } } full
      let last := putBitLength (zeroFill full 0 56) bitlen
      transform { s with ctx := { s.ctx with buffer := last, bufferLen := ⟨56, fullBuffer_lt⟩ } } last
    else
      let last := putBitLength (zeroFill buffer len 56) bitlen
      transform { s with ctx := { s.ctx with buffer := last, bufferLen := ⟨56, fullBuffer_lt⟩ } } last
  (s, digestBytes s.ctx.h)

/-- `hmac_header`. -/
def hmacHeader (s : Hashing) (key : Vector UInt8 32) (header : Vector UInt8 48) :
    Vector UInt8 32 :=
  let s := s.init
  let s := s.update (keyBlock key 0x36)
  let s := s.update hmacDomain
  let s := s.update originLe
  let s := s.update header.toList
  let (s, inner) := s.final
  let s := s.init
  let s := s.update (keyBlock key 0x5C)
  let s := s.update inner.toList
  s.final.2

end Hashing

end Bootloader

end DeusOs
