import DeusOs.Host.Model.Frame
import Mathlib.Algebra.GroupWithZero.Nat

/-!
# The host — RPC requests

`RpcRequestEncoder` of `DeusOs.Control.Core`. A string is the list of its
UTF-16 code units. What cannot be `null` here is not checked for it.
-/

namespace DeusOs

namespace Host

open LittleEndian (write16)

/-- `MaxArgs`. -/
def maxArgs : ℕ := 4
/-- `MaxArgBytes`. -/
def maxArgBytes : ℕ := 31

/-- `Rune.ReplacementChar` in UTF-8. -/
def utf8Replacement : List UInt8 := [0xEF, 0xBF, 0xBD]

/-- A code point of the basic plane in UTF-8. -/
def utf8OfUnit (unit : UInt16) : List UInt8 :=
  let u := unit.toNat
  if u < 0x80 then [UInt8.ofNat u]
  else if u < 0x800 then [UInt8.ofNat (0xC0 + u / 0x40), UInt8.ofNat (0x80 + u % 0x40)]
  else [UInt8.ofNat (0xE0 + u / 0x1000), UInt8.ofNat (0x80 + u / 0x40 % 0x40),
    UInt8.ofNat (0x80 + u % 0x40)]

/-- A pair of surrogates in UTF-8. -/
def utf8OfPair (high low : UInt16) : List UInt8 :=
  let u := 0x10000 + (high.toNat - 0xD800) * 0x400 + (low.toNat - 0xDC00)
  [UInt8.ofNat (0xF0 + u / 0x40000), UInt8.ofNat (0x80 + u / 0x1000 % 0x40),
    UInt8.ofNat (0x80 + u / 0x40 % 0x40), UInt8.ofNat (0x80 + u % 0x40)]

/-- A high surrogate. -/
def IsHigh (unit : UInt16) : Prop := 0xD800 ≤ unit.toNat ∧ unit.toNat < 0xDC00

/-- A low surrogate. -/
def IsLow (unit : UInt16) : Prop := 0xDC00 ≤ unit.toNat ∧ unit.toNat < 0xE000

instance (unit : UInt16) : Decidable (IsHigh unit) := inferInstanceAs (Decidable (_ ∧ _))

instance (unit : UInt16) : Decidable (IsLow unit) := inferInstanceAs (Decidable (_ ∧ _))

/-- `Encoding.UTF8.GetBytes`: a surrogate that stands alone is replaced. -/
def utf8GetBytes : List UInt16 → List UInt8
  | [] => []
  | [unit] => if IsHigh unit ∨ IsLow unit then utf8Replacement else utf8OfUnit unit
  | unit :: next :: rest =>
    if IsHigh unit ∧ IsLow next then utf8OfPair unit next ++ utf8GetBytes rest
    else (if IsHigh unit ∨ IsLow unit then utf8Replacement else utf8OfUnit unit) ++
      utf8GetBytes (next :: rest)

/-- The bytes of each argument, checked. -/
def encodeArguments : List (List UInt16) → Except HostError (List (List UInt8))
  | [] => .ok []
  | argument :: arguments =>
    let bytes := utf8GetBytes argument
    if maxArgBytes < bytes.length then .error .argument
    else if (0 : UInt8) ∈ bytes then .error .argument
    else match encodeArguments arguments with
      | .error e => .error e
      | .ok encoded => .ok (bytes :: encoded)

/-- What is written into the payload: the id, the count, zero, and each
argument behind its length. -/
def writePayload (rpcId : ℕ) (encoded : List (List UInt8)) : List UInt8 :=
  write16 rpcId ++ [UInt8.ofNat encoded.length, 0] ++
    encoded.flatMap fun bytes => UInt8.ofNat bytes.length :: bytes

/-- `EncodePayload`. -/
def encodePayload (rpcId : ℕ) (arguments : List (List UInt16)) : Except HostError (List UInt8) :=
  if maxArgs < arguments.length then .error .argument
  else match encodeArguments arguments with
    | .error e => .error e
    | .ok encoded =>
      if maxPayloadBytes < 4 + (encoded.map fun bytes => 1 + bytes.length).sum then .error .argument
      else .ok (writePayload rpcId encoded)

end Host

end DeusOs
