import DeusOs.Host.Model.Channel
import DeusOs.Host.Model.RpcRequest

/-!
# The host — RPC

`RpcCoreAsync` of `DeusRpcClient`. Its loop takes one frame after the other
and has no bound of its own: here it has `fuel`, and a loop that runs out
of it is still waiting.
-/

namespace DeusOs

namespace Host

open Async (Prog)
open LittleEndian (read16 read32)

/-- `ProtocolConstants.RpcDataChunkMax`. -/
def rpcDataChunkMax : ℕ := 48

/-- `MaxAggregatedOutputBytes`. -/
def maxAggregatedOutputBytes : ℕ := 64 * 1024

/-- `RpcResult`. -/
structure RpcResult where
  rpcId : ℕ
  requestId : ℕ
  chunkCount : ℕ
  totalBytes : ℕ
  statusDomain : UInt8
  statusCode : UInt8
  output : List UInt8

/-- The locals of the loop: `output`, `expectedSequence` and
`receivedChunks`. -/
structure Collected where
  output : List UInt8
  expectedSequence : ℕ
  receivedChunks : ℕ

/-- The branch of the loop for `RPC_DATA`. -/
def takeData (rpcId : ℕ) (c : Collected) (payload : List UInt8) : Except HostError Collected :=
  if payload.length < 4 then .error (.deus .protocol)
  else
    let data := payload.drop 4
    if read16 payload 0 ≠ rpcId then .error (.deus .requestCorrelation)
    else if read16 payload 2 ≠ c.expectedSequence then .error (.deus .requestCorrelation)
    else if rpcDataChunkMax < data.length then .error (.deus .protocol)
    else if maxAggregatedOutputBytes < c.output.length + data.length then .error (.deus .protocol)
    else .ok
      { output := c.output ++ data
        expectedSequence := (c.expectedSequence + 1) % 65536
        receivedChunks := (c.receivedChunks + 1) % 65536 }

/-- What the loop does with `RPC_END`. -/
def takeEnd (rpcId requestId : ℕ) (c : Collected) (payload : List UInt8) :
    Except HostError RpcResult :=
  if payload.length ≠ 10 then .error (.deus .protocol)
  else if read16 payload 0 ≠ rpcId then .error (.deus .requestCorrelation)
  else if read16 payload 2 ≠ c.receivedChunks then .error (.deus .protocol)
  else if read32 payload 4 ≠ c.output.length then .error (.deus .protocol)
  else .ok
    { rpcId
      requestId
      chunkCount := read16 payload 2
      totalBytes := read32 payload 4
      statusDomain := payload.getD 8 0
      statusCode := payload.getD 9 0
      output := c.output }

/-- The body of the loop: it goes on, or returns. -/
def takeFrame (rpcId requestId : ℕ) (c : Collected) (frame : BinaryFrame) :
    Except HostError (Collected ⊕ RpcResult) := do
  validateCommonResponseFrame frame
  if frame.requestId ≠ requestId then .error (.deus .requestCorrelation)
  else if frame.type = FrameType.protocolError then .error (.deus .protocol)
  else if frame.type = FrameType.rpcData then
    return .inl (← takeData rpcId c frame.payload)
  else if frame.type ≠ FrameType.rpcEnd then .error (.deus .protocol)
  else return .inr (← takeEnd rpcId requestId c frame.payload)

variable {σ ε : Type} (T : Transport σ ε)

/-- The loop of `RpcCoreAsync`. -/
def collect (rpcId requestId : ℕ) : ℕ → Collected → Task σ ε RpcResult
  | 0, _ => fun s _ => .pending s
  | fuel + 1, c => do
    let frame ← readNextFrameAsync T
    match ← Prog.lift (takeFrame rpcId requestId c frame) with
    | .inl c => collect rpcId requestId fuel c
    | .inr result => pure result

/-- Its `try` block, after `NextRequestId`. -/
def tryRpc (fuel rpcId : ℕ) (arguments : List (List UInt16)) (flags : UInt8) (requestId : ℕ) :
    Task σ ε RpcResult := do
  let payload ← Prog.lift (encodePayload rpcId arguments)
  let wire ← Prog.lift (encode FrameType.rpcRequest flags requestId payload)
  writeAsync T wire
  collect T rpcId requestId fuel ⟨[], 0, 0⟩

/-- Its `catch` clauses, which throw again. -/
def catchRpc (requestId : ℕ) : HostError → Task σ ε RpcResult
  | .deus .timeout => do
    onChannel fun c => c.abandonRpcStream requestId
    Prog.raise (.deus .timeout)
  | .operationCanceled requested => do
    onChannel fun c => c.abandonRpcStream requestId
    Prog.raise (.operationCanceled requested)
  | e => Prog.raise e

/-- `RpcCoreAsync`. What `NextRequestId` throws, no clause catches. -/
def rpcCoreAsync (fuel rpcId : ℕ) (arguments : List (List UInt16)) (flags : UInt8) :
    Task σ ε RpcResult := do
  let requestId ← onChannel Channel.nextRequestId
  Prog.handle (tryRpc T fuel rpcId arguments flags requestId) (catchRpc requestId)

end Host

end DeusOs
