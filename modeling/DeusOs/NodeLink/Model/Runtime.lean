import DeusOs.NodeLink.Model.Endpoint
import DeusOs.NodeLink.Model.Stream

/-!
# The node link — the node's runtime

`node_runtime.c`: the bytes that arrive go through the stream, the frames it
returns are encoded again and handed to the worker. `tx_failed` is not
used.
-/

namespace DeusOs

namespace NodeLink

/-- `deus_esp01_node_runtime_t`; `{}` is what `deus_esp01_node_runtime_init` makes. -/
structure Runtime where
  worker : Worker := {}
  stream : Stream := {}
  framesReceived : UInt32 := 0
  framesReplied : UInt32 := 0
  invalidOrPartialBytes : UInt32 := 0
  deriving DecidableEq, Repr

/-- A counter that stays at `UINT32_MAX`. -/
def counted (n : UInt32) : UInt32 := if n ≠ 0xFFFFFFFF then n + 1 else n

/-- `deus_esp01_node_runtime_feed`. -/
def Runtime.feed (rt : Runtime) (byte : UInt8) (ms : UInt32) (cap : ℕ) :
    Runtime × Except Status (List UInt8) :=
  match rt.stream.feed byte ms with
  | (stream, none) =>
    ({ rt with stream, invalidOrPartialBytes := counted rt.invalidOrPartialBytes }, .error .drop)
  | (stream, some frame) =>
    let rt := { rt with stream, framesReceived := counted rt.framesReceived }
    match encode frame maxFrame with
    | .error e => (rt, .error e)
    | .ok raw =>
      match rt.worker.process raw cap with
      | (worker, .error e) => ({ rt with worker }, .error e)
      | (worker, .ok reply) =>
        ({ rt with worker, framesReplied := counted rt.framesReplied }, .ok reply)

/-- A byte as it is fed: its time, and the room for a reply. -/
structure Fed where
  byte : UInt8
  ms : UInt32
  cap : ℕ
  deriving DecidableEq, Repr

/-- Bytes fed one after the other. -/
def Runtime.run (rt : Runtime) (inputs : List Fed) : Runtime :=
  inputs.foldl (fun rt x => (rt.feed x.byte x.ms x.cap).1) rt

end NodeLink

end DeusOs
