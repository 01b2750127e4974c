import DeusOs.Asset.Session
import DeusOs.Host.Frame
import DeusOs.Host.Model.AssetTransfer
import DeusOs.Host.Model.Channel

/-!
# An asset write across host and device

`AssetTransferClient` of `DeusOs.Control.Core` on a line to the device of
`Asset.handleFrame`. Nothing is lost: a request that was written is handled,
before the next one is, whether the host still waits for its answer or not.
An answer is handed to its own request, or comes late and is discarded;
that this is so on the wire is the subject of `Host/Correlation`.
-/

namespace DeusOs

namespace AssetLink

open Async (Prog)
open Host Host.AssetTransfer
open LittleEndian (read32 write16 write32)
open Nor (Machine Mem Outcome)

/-! ## The line -/

/-- The channel of the host, the device, the request on its way and the
opcodes that were written so far. -/
structure Line where
  channel : Channel
  device : Machine Asset.Ram
  pending : Option Asset.FrameView
  written : List AssetTransferOpcode

/-- What happens while the host waits: the device looks at its idle time;
the pipe takes the request; the device answers it, with its flash operations
of any fate; an abandoned request is answered late; a token is cancelled, by
its own timeout or as the caller requested, and the device handles what it
was sent all the same. -/
inductive LineEvent
  | poll (now : UInt32)
  | write
  | answer (now : UInt32) (tape : ℕ → Option Outcome)
  | late (frame : BinaryFrame)
  | cancel (requested : Bool) (now : UInt32) (tape : ℕ → Option Outcome)

/-- A method of the client. -/
abbrev LineTask (α : Type) := Prog Line LineEvent HostError α

/-- `asset_transfer_poll` runs on the device. -/
def Line.poll (s : Line) (now : UInt32) : Line :=
  match Asset.poll now s.device with
  | .ok _ m => { s with device := m }
  | .error _ _ => s

/-- The status byte of a response. -/
def statusByte : Asset.Status → UInt8
  | .ok => 0 | .malformed => 1 | .badFlags => 2 | .badOpcode => 3 | .badObjectType => 4
  | .badSchema => 5 | .badLength => 6 | .badTransferId => 7 | .busy => 8 | .badState => 9
  | .badOffset => 10 | .dataConflict => 11 | .crcMismatch => 12 | .validationFailed => 13
  | .notFound => 14 | .generationMismatch => 15 | .storageError => 16
  | .wearBudgetExhausted => 17 | .internalError => 18

/-- The session byte of a response. -/
def sessionByte : Asset.SessionState → UInt8
  | .none => 0 | .receiving => 1 | .completeUncommitted => 2

/-- The payload that `asset_send_response` puts on the wire. -/
def responsePayload (r : Asset.Response) : List UInt8 :=
  [1, r.opcode, statusByte r.status, sessionByte r.session] ++ write16 r.objectType ++
    write16 r.transferId ++ write32 r.committedGeneration ++ write16 r.totalLength ++
    write16 r.nextOffset ++ [UInt8.ofNat r.data.length, 0] ++ r.data

/-- The device handles the request on its way. A reset would cut it, and
then there is no answer. -/
def Line.serve (s : Line) (now : UInt32) (tape : ℕ → Option Outcome) : Line × Option BinaryFrame :=
  match s.pending with
  | none => (s, none)
  | some request =>
    match Asset.handleFrame request now { s.device with tape := tape } with
    | .ok response m => ({ s with device := m, pending := none },
        some (frameOf FrameType.assetTransferResponse 0 response.requestId
          (responsePayload response)))
    | .error _ _ => (s, none)

/-- A late answer to an abandoned request. -/
def Line.discard (s : Line) (frame : BinaryFrame) : Line :=
  if s.channel.Abandoned frame.requestId then
    { s with channel := (s.channel.discardIfAbandoned frame).1 }
  else s

/-- Which of the two tokens a request is made under: that of the call, which
may be cancelled at any time, or that of the cleanup, whose two seconds begin
with its one request. -/
inductive Token
  | linked | cleanup
  deriving DecidableEq

/-- A method of the channel that does not wait. -/
def onLine {α : Type} (g : Channel → Channel × Except HostError α) : LineTask α :=
  Prog.act fun s => ({ s with channel := (g s.channel).1 }, (g s.channel).2)

/-- One event, for a pending `WriteAsync`. A token that has been cancelled
keeps the request from being written; the cleanup's has not. -/
def writeEvent (opcode : AssetTransferOpcode) (request : Asset.FrameView) (token : Token)
    (ev : LineEvent) (s : Line) : Line × Option (Except HostError Unit) :=
  match ev with
  | .poll now => (s.poll now, none)
  | .write => ({ s with pending := some request, written := s.written ++ [opcode] }, some (.ok ()))
  | .answer _ _ => (s, none)
  | .late frame => (s.discard frame, none)
  | .cancel requested _ _ =>
    if token = .linked then (s, some (.error (.operationCanceled requested))) else (s, none)

/-- One event, for a pending `ReadMatchingFrameAsync`. -/
def answerEvent (requestId : ℕ) (ev : LineEvent) (s : Line) :
    Line × Option (Except HostError BinaryFrame) :=
  match ev with
  | .poll now => (s.poll now, none)
  | .write => (s, none)
  | .answer now tape => ((s.serve now tape).1,
      (s.serve now tape).2.map (matchFrame requestId FrameType.assetTransferResponse))
  | .late frame => (s.discard frame, none)
  | .cancel requested now tape => ((s.serve now tape).1,
      (s.serve now tape).2.map fun _ => .error (.operationCanceled requested))

/-! ## `AssetTransferClient` -/

/-- What the device's decoder makes of the wire. -/
def viewOf (flags : UInt8) (requestId : ℕ) (payload : List UInt8) : Asset.FrameView :=
  ⟨protocolVersion, FrameType.assetTransferRequest, flags, 0, requestId, some payload⟩

/-- The `try` block of `AssetRequestCoreAsync`, once it has its id. -/
def tryAssetRequest (opcode : AssetTransferOpcode) (flags : UInt8) (payload : List UInt8)
    (token : Token) (requestId : ℕ) : LineTask AssetTransferResponse := do
  let _ ← Prog.lift (encode FrameType.assetTransferRequest flags requestId payload)
  Prog.await (writeEvent opcode (viewOf flags requestId payload) token)
  let frame ← Prog.await (answerEvent requestId)
  Prog.lift (parseAssetResponse frame opcode)

/-- Its `catch` clauses, which throw again. -/
def catchAssetRequest (requestId : ℕ) : HostError → LineTask AssetTransferResponse
  | .deus .timeout => do
    onLine fun c => c.abandonSingleResponse requestId
    Prog.raise (.deus .timeout)
  | .operationCanceled requested => do
    onLine fun c => c.abandonSingleResponse requestId
    Prog.raise (.operationCanceled requested)
  | e => Prog.raise e

/-- `AssetRequestCoreAsync`. What `NextRequestId` throws abandons nothing:
there is no id yet. -/
def assetRequestCoreAsync (opcode : AssetTransferOpcode) (flags : UInt8) (payload : List UInt8)
    (token : Token) : LineTask AssetTransferResponse := do
  let requestId ← onLine Channel.nextRequestId
  Prog.handle (tryAssetRequest opcode flags payload token requestId) (catchAssetRequest requestId)

/-- A request that must succeed: `AssetRequestCoreAsync` and
`EnsureAssetSuccess`, one after the other in every caller. -/
def request (opcode : AssetTransferOpcode) (flags : UInt8)
    (payload : Except HostError (List UInt8)) (token : Token) :
    LineTask AssetTransferResponse := do
  let payload ← Prog.lift payload
  let response ← assetRequestCoreAsync opcode flags payload token
  Prog.lift (ensureAssetSuccess response)
  pure response

/-- The pre-write and the post-write STATUS. -/
def statusAsync : LineTask AssetStatusSnapshot := do
  let response ← request .status 0 (encodeStatus oledUiLayoutObjectType) .linked
  Prog.lift (toStatusSnapshot response)

/-- The loop of `WriteOledUiLayoutAsync` over the chunks, from an offset. -/
def writeChunks (transferId : ℕ) (payload : List UInt8) (offset : ℕ) : LineTask Unit :=
  if offset < payload.length then do
    let count := min chunkMax (payload.length - offset)
    let write ← request .writeChunk allowDestructive
      (encodeWriteChunk oledUiLayoutObjectType transferId offset ((payload.drop offset).take count))
      .linked
    if write.transferId ≠ transferId ∨ write.nextOffset ≠ offset + count then
      Prog.raise (.deus .protocol)
    else writeChunks transferId payload (offset + count)
  else pure ()
termination_by payload.length - offset
decreasing_by
  simp only [chunkMax]
  omega

/-- The loop of `ReadAssetPayloadCoreAsync`, with what it has read. -/
def readChunks (objectType generation totalLength : ℕ) (payload : List UInt8) (offset : ℕ) :
    LineTask (List UInt8) :=
  if offset < totalLength then do
    let count := min chunkMax (totalLength - offset)
    let response ← request .readChunk 0 (encodeReadChunk objectType generation offset count) .linked
    if response.objectType ≠ objectType ∨ response.committedGeneration ≠ generation ∨
        response.totalLength ≠ totalLength ∨ response.data.length ≠ count ∨
        response.nextOffset ≠ offset + count then
      Prog.raise (.deus .protocol)
    else readChunks objectType generation totalLength (payload ++ response.data) (offset + count)
  else pure payload
termination_by totalLength - offset
decreasing_by
  simp only [chunkMax]
  omega

/-- `ReadAssetPayloadCoreAsync`. -/
def readAssetPayloadCoreAsync (objectType generation totalLength : ℕ) : LineTask (List UInt8) :=
  if generation = 0 then Prog.raise .argument
  else if totalLength = 0 ∨ objectMax < totalLength then Prog.raise .argument
  else readChunks objectType generation totalLength [] 0

/-- `AssetCommitResult`. -/
structure AssetCommitResult where
  generation : ℕ
  payloadLength : ℕ
  payloadCrc32 : UInt32
  changed : Bool

/-- The requests of `WriteOledUiLayoutAsync` from BEGIN to the last chunk. -/
def beginAndWrite (transferId : ℕ) (payload : List UInt8) : LineTask Unit := do
  let begin' ← request .begin allowDestructive
    (encodeBegin oledUiLayoutObjectType transferId payload.length schemaVersion
      (crc32Compute payload)) .linked
  if begin'.transferId ≠ transferId ∨ begin'.objectType ≠ oledUiLayoutObjectType ∨
      begin'.totalLength ≠ payload.length ∨ begin'.nextOffset ≠ 0 then
    Prog.raise (.deus .protocol)
  else writeChunks transferId payload 0

/-- Its COMMIT. -/
def commitAsync (transferId : ℕ) : LineTask AssetTransferResponse :=
  request .commit allowDestructive (encodeCommit oledUiLayoutObjectType transferId) .linked

/-- What `WriteOledUiLayoutAsync` does once the commit has succeeded. -/
def afterCommit (before : AssetStatusSnapshot) (transferId : ℕ) (payload : List UInt8)
    (commit : AssetTransferResponse) : LineTask AssetCommitResult := do
  if commit.transferId ≠ transferId ∨ commit.committedGeneration = 0 ∨
      commit.totalLength ≠ payload.length ∨ commit.nextOffset ≠ payload.length then
    Prog.raise (.deus .protocol)
  else
    let after ← statusAsync
    if after.committedGeneration ≠ commit.committedGeneration ∨
        after.committedPayloadLength ≠ payload.length ∨
        after.committedPayloadCrc32 ≠ crc32Compute payload then
      Prog.raise (.deus .protocol)
    else
      let readback ← readAssetPayloadCoreAsync oledUiLayoutObjectType after.committedGeneration
        after.committedPayloadLength
      if payload ≠ readback ∨ crc32Compute readback ≠ crc32Compute payload then
        Prog.raise (.deus .crc)
      else pure ⟨after.committedGeneration, after.committedPayloadLength,
        after.committedPayloadCrc32, before.committedGeneration ≠ after.committedGeneration⟩

/-- `TryAbortWriteSessionAsync`, once there is a session to close. Only
`DeusHostException` and cancellations are swallowed. -/
def tryAbortWriteSessionAsync (transferId : ℕ) : LineTask Unit :=
  if transferId = 0 then pure ()
  else Prog.handle
    (do
      let _ ← request .abort 0 (encodeAbort oledUiLayoutObjectType transferId) .cleanup
      pure ())
    fun e => match e with
      | .deus _ => pure ()
      | .operationCanceled _ => pure ()
      | e => Prog.raise e

/-- The exception that the `catch` clauses of `WriteOledUiLayoutAsync` throw
for the one they caught. -/
def rethrown : HostError → HostError
  | .operationCanceled false => .deus .timeout
  | e => e

/-- The `catch` clauses of `WriteOledUiLayoutAsync`, where its session may
be active or not. -/
def catchWrite {α : Type} (transferId : ℕ) (sessionMayBeActive : Bool) (e : HostError) :
    LineTask α :=
  match e with
  | .deus _ => do
    if sessionMayBeActive then tryAbortWriteSessionAsync transferId
    Prog.raise (rethrown e)
  | .operationCanceled _ => do
    if sessionMayBeActive then tryAbortWriteSessionAsync transferId
    Prog.raise (rethrown e)
  | e => Prog.raise e

/-- `WriteOledUiLayoutAsync`, with the transfer ids as it finds them. The
`try` block is cut where `sessionMayBeActive` changes: what is thrown in
each part is caught with that part's value. -/
def writeOledUiLayoutAsync (transferIds : RequestIdAllocator)
    (configuration : OledUiLayoutConfigV1) : LineTask AssetCommitResult := do
  let payload ← Prog.lift configuration.serialize
  let before ← Prog.handle statusAsync (catchWrite 0 false)
  let transferId := transferIds.take.1
  let commit ← Prog.handle
    (do
      beginAndWrite transferId payload
      commitAsync transferId)
    (catchWrite transferId true)
  Prog.handle (afterCommit before transferId payload commit) (catchWrite transferId false)

end AssetLink

end DeusOs
