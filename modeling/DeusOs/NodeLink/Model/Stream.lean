import DeusOs.NodeLink.Model.Codec

/-!
# The node link — the byte stream

`dnl_stream_feed` of `deus_node_link.c`. The buffer is the list of its
`used` bytes.
-/

namespace DeusOs

namespace NodeLink

/-- `dnl_stream_t`; `{}` is what `dnl_stream_init` makes. -/
structure Stream where
  bytes : List UInt8 := []
  hasStarted : Bool := false
  startedAtMs : UInt32 := 0
  deriving DecidableEq, Repr

/-- The fourteen header bytes, of which the first two are the magic, are not
those of a frame. -/
def BadHeader (bytes : List UInt8) : Prop :=
  bytes.getD 2 0 ≠ version ∨ bytes.getD 4 0 ≠ nodeId ∨ bytes.getD 5 0 ≠ 0 ∨ bytes.getD 9 0 ≠ 0 ∨
    (bytes.getD 6 0 = 0 ∧ bytes.getD 7 0 = 0) ∨ maxPayload < (bytes.getD 8 0).toNat

instance (bytes : List UInt8) : Decidable (BadHeader bytes) := by
  unfold BadHeader
  infer_instance

/-- The length the header gives the frame. -/
def expected (bytes : List UInt8) : ℕ := (bytes.getD 8 0).toNat + frameOverhead

/-- The loop of `dnl_stream_feed` on a buffer that holds `bytes`; to call it
again on what follows the first byte is `stream_shift`. -/
def resync (hasStarted : Bool) (startedAtMs : UInt32) : List UInt8 → Stream × Option Frame
  | [] => ({ bytes := [], hasStarted, startedAtMs }, none)
  | byte :: rest =>
    let s : Stream := { bytes := byte :: rest, hasStarted, startedAtMs }
    let shifted := resync (if rest.length = 0 then false else hasStarted) startedAtMs rest
    if byte ≠ 0xD5 then shifted
    else if rest.length = 0 then (s, none)
    else if s.bytes.getD 1 0 ≠ 0x4E then shifted
    else if s.bytes.length < 14 then (s, none)
    else if BadHeader s.bytes then shifted
    else if s.bytes.length < expected s.bytes then (s, none)
    else
      match decode (s.bytes.take (expected s.bytes)) with
      | none => shifted
      | some f => ({}, some f)

/-- `dnl_stream_feed`; the frame is the one of `DNL_OK`. -/
def Stream.feed (s : Stream) (byte : UInt8) (timeMs : UInt32) : Stream × Option Frame :=
  let s := if s.hasStarted = true ∧ partialTimeoutMs < timeMs - s.startedAtMs then {} else s
  let s := if s.hasStarted = false then { s with startedAtMs := timeMs, hasStarted := true } else s
  let s := if maxFrame ≤ s.bytes.length then {} else s
  resync s.hasStarted s.startedAtMs (s.bytes ++ [byte])

/-- Bytes fed one after the other, each with its time. -/
def Stream.run (s : Stream) (inputs : List (UInt8 × UInt32)) : Stream :=
  inputs.foldl (fun s x => (s.feed x.1 x.2).1) s

/-- The frames returned meanwhile. -/
def Stream.frames (s : Stream) : List (UInt8 × UInt32) → List Frame
  | [] => []
  | x :: xs => (s.feed x.1 x.2).2.toList ++ (s.feed x.1 x.2).1.frames xs

end NodeLink

end DeusOs
