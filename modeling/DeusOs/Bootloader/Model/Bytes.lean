import DeusOs.Common.Nor.Memory

/-!
# The bootloader — bytes, words and the packet checksum

The small helpers of `bootloader.c` that read and write byte arrays. A
pointer argument is the list of bytes it points to; pointer arithmetic is
an offset into the list.
-/

namespace DeusOs

namespace Bootloader

/-- `load_le16(p + off)`. -/
def loadLe16 (p : List UInt8) (off : ℕ) : ℕ :=
  (p.getD off 0).toNat + 256 * (p.getD (off + 1) 0).toNat

/-- `load_le32(p + off)`. -/
def loadLe32 (p : List UInt8) (off : ℕ) : ℕ :=
  (p.getD off 0).toNat + 256 * (p.getD (off + 1) 0).toNat +
    65536 * (p.getD (off + 2) 0).toNat + 16777216 * (p.getD (off + 3) 0).toNat

/-- `store_le16`. -/
def storeLe16 (v : ℕ) : List UInt8 := [UInt8.ofNat v, UInt8.ofNat (v / 256)]

/-- `store_le32`. -/
def storeLe32 (v : ℕ) : List UInt8 :=
  [UInt8.ofNat v, UInt8.ofNat (v / 256), UInt8.ofNat (v / 65536), UInt8.ofNat (v / 16777216)]

/-- `bytes_equal(a, b, n)`: the differences are accumulated, so the time
taken does not depend on them. -/
def bytesEqual (a b : List UInt8) (n : ℕ) : Bool :=
  (List.range n).foldl (fun d i => d ||| (a.getD i 0 ^^^ b.getD i 0)) 0 == 0

/-- `bytes_copy(d, s, n)`: the first `n` bytes of `d` become those of `s`. -/
def bytesCopy {k : ℕ} (d : Vector UInt8 k) (s : List UInt8) (n : ℕ) : Vector UInt8 k :=
  Vector.ofFn fun i => if i < n then s.getD i 0 else d[i]

/-- One bit of the CRC-16 register. -/
def crc16Bit (crc : UInt16) : UInt16 :=
  if crc &&& 0x8000 ≠ 0 then (crc <<< 1) ^^^ 0x1021 else crc <<< 1

/-- One byte: exclusive-ored into the top, then eight bits. -/
def crc16Byte (crc : UInt16) (b : UInt8) : UInt16 :=
  (List.range 8).foldl (fun c _ => crc16Bit c) (crc ^^^ (b.toUInt16 <<< (8 : UInt16)))

/-- `crc16_ccitt`. -/
def crc16Ccitt (data : List UInt8) : UInt16 := data.foldl crc16Byte 0xFFFF

end Bootloader

end DeusOs
