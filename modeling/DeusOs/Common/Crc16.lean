import Mathlib.Data.Nat.Notation

/-!
# CRC-16 CCITT-FALSE

The checksum of the binary frames: polynomial 0x1021, the most significant
bit first, from 0xFFFF.
-/

namespace Crc16

/-- One bit of the register. -/
def bit (crc : UInt16) : UInt16 :=
  if crc &&& 0x8000 ≠ 0 then (crc <<< 1) ^^^ 0x1021 else crc <<< 1

/-- One byte: exclusive-ored into the top, then eight bits. -/
def byte (crc : UInt16) (b : UInt8) : UInt16 :=
  (List.range 8).foldl (fun c _ => bit c) (crc ^^^ (b.toUInt16 <<< (8 : UInt16)))

/-- The checksum of a list of bytes. -/
def ccittFalse (bytes : List UInt8) : UInt16 := bytes.foldl byte 0xFFFF

example : ccittFalse "123456789".toUTF8.toList = 0x29B1 := by decide +kernel

end Crc16
