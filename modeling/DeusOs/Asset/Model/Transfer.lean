import DeusOs.Asset.Model.Persistence

/-!
# Asset transfer

`asset_transfer.c`: the session in which a host sends a configuration and
commits it. `handleFrame` is one request and its response; the response is
what `asset_send_response` puts on the wire, before the frame around it.
-/

namespace DeusOs.Asset

open Nor (Mem Prog)
open LittleEndian (read16 read32 write16 write32)

/-- `ASSET_TRANSFER_CHUNK_MAX`. -/
def chunkMax : ℕ := 32

/-- `ASSET_TRANSFER_IDLE_TIMEOUT_MS`. -/
def idleTimeoutMs : UInt32 := 30000

/-- `asset_transfer_status_t`. -/
inductive Status
  | ok | malformed | badFlags | badOpcode | badObjectType | badSchema | badLength
  | badTransferId | busy | badState | badOffset | dataConflict | crcMismatch
  | validationFailed | notFound | generationMismatch | storageError | wearBudgetExhausted
  | internalError
  deriving DecidableEq

/-- `asset_transfer_session_state_t`. -/
inductive SessionState
  | none | receiving | completeUncommitted
  deriving DecidableEq

/-- `binary_frame_view_t`, with the bytes it points at; `none` where it
points at none. -/
structure FrameView where
  version : UInt8
  frameType : UInt8
  flags : UInt8
  reserved : UInt8
  requestId : ℕ
  payload : Option (List UInt8)

/-- `BINARY_FRAME_PROTOCOL_VERSION`. -/
def frameProtocolVersion : UInt8 := 1

/-- `BINARY_FRAME_TYPE_ASSET_TRANSFER_REQUEST`. -/
def assetTransferRequest : UInt8 := 0x03

/-- What a response carries. -/
structure Response where
  requestId : ℕ
  opcode : UInt8
  status : Status
  session : SessionState
  objectType : ℕ
  transferId : ℕ
  committedGeneration : ℕ
  totalLength : ℕ
  nextOffset : ℕ
  data : List UInt8
  deriving DecidableEq

/-- `asset_session_state`. -/
def sessionState (t : TransferState) : SessionState :=
  if t.active = false then .none
  else if t.nextOffset = configBytes then .completeUncommitted
  else .receiving

/-- Change the session. -/
def modifyTransfer (g : TransferState → TransferState) : Prog Ram Unit :=
  Prog.modifyRam fun r => { r with transfer := g r.transfer }

/-- `asset_clear_session`. -/
def clearSession : Prog Ram Unit := do
  abortCandidate
  modifyTransfer fun t => { t with transferId := 0, active := false }

/-- `asset_finish_commit`. -/
def finishCommit : Prog Ram Unit := modifyTransfer fun t => { t with active := false }

/-- `asset_transfer_state.last_activity_ms = kernel_time_now();`. -/
def touch (now : UInt32) : Prog Ram Unit := modifyTransfer fun t => { t with lastActivityMs := now }

/-- `asset_transfer_init` and `asset_transfer_reset_session`. -/
def resetSession : Prog Ram Unit := clearSession

/-- `asset_transfer_poll`. -/
def poll (now : UInt32) : Prog Ram Unit := do
  let r ← Prog.ram
  if r.transfer.active = true ∧ idleTimeoutMs ≤ now - r.transfer.lastActivityMs then clearSession

/-- `asset_map_persistence_result`. -/
def mapPersistenceResult : Result → Status
  | .ok => .ok
  | .unchanged => .ok
  | .crcMismatch => .crcMismatch
  | .validationFailed => .validationFailed
  | .storageError => .storageError
  | .wearBudgetExhausted => .wearBudgetExhausted
  | .badState => .badState

/-- `asset_send_response`. -/
def sendResponse (frame : FrameView) (opcode : UInt8) (status : Status)
    (objectType transferId totalLength nextOffset : ℕ) (data : List UInt8) :
    Prog Ram Response := do
  let r ← Prog.ram
  pure
    { requestId := frame.requestId, opcode := opcode, status := status,
      session := sessionState r.transfer, objectType := objectType, transferId := transferId,
      committedGeneration := (r.activeRecord.map Record.generation).getD 0,
      totalLength := totalLength, nextOffset := nextOffset, data := data }

/-- `asset_send_simple`. -/
def sendSimple (frame : FrameView) (opcode : UInt8) (status : Status)
    (transferId totalLength nextOffset : ℕ) : Prog Ram Response :=
  sendResponse frame opcode status 1 transferId totalLength nextOffset []

/-- The body of `asset_handle_begin`, up to its status. -/
def beginStatus (p : List UInt8) (now : UInt32) : Prog Ram Status := do
  let r ← Prog.ram
  if p.getD 9 0 ≠ 0 ∨ p.getD 14 0 ≠ 0 ∨ p.getD 15 0 ≠ 0 then pure .malformed
  else if read16 p 2 ≠ 1 then pure .badObjectType
  else if p.getD 8 0 ≠ 1 then pure .badSchema
  else if read16 p 6 ≠ configBytes then pure .badLength
  else if read16 p 4 = 0 then pure .badTransferId
  else if r.transfer.active = true then
    if r.transfer.transferId ≠ read16 p 4 ∨
        r.transfer.payloadCrc32 ≠ UInt32.ofNat (read32 p 10) then pure .busy
    else
      touch now
      pure .ok
  else
    modifyTransfer fun _ =>
      { transferId := read16 p 4, nextOffset := 0, payloadCrc32 := UInt32.ofNat (read32 p 10),
        lastChunk := [], lastActivityMs := now, active := true }
    let result ← beginCandidate (UInt32.ofNat (read32 p 10))
    if mapPersistenceResult result ≠ .ok then clearSession
    pure (mapPersistenceResult result)

/-- `asset_handle_begin`. -/
def handleBegin (frame : FrameView) (p : List UInt8) (now : UInt32) : Prog Ram Response := do
  let status ← beginStatus p now
  let r ← Prog.ram
  sendSimple frame 0x01 status (read16 p 4) (if status = .ok then configBytes else 0)
    (if status = .ok then r.transfer.nextOffset else 0)

/-- The body of `asset_handle_write`, up to its status. -/
def writeStatus (p : List UInt8) (now : UInt32) : Prog Ram Status := do
  let r ← Prog.ram
  let offset := read16 p 6
  let length := (p.getD 8 0).toNat
  let data := (p.drop 10).take length
  if p.getD 9 0 ≠ 0 ∨ length = 0 ∨ chunkMax < length ∨ p.length ≠ 10 + length then pure .badLength
  else if read16 p 2 ≠ 1 then pure .badObjectType
  else if r.transfer.active = false ∨ r.transfer.transferId ≠ read16 p 4 then pure .badTransferId
  else if offset < r.transfer.nextOffset then
    if offset + length = r.transfer.nextOffset ∧ length = r.transfer.lastChunk.length then
      if r.transfer.lastChunk = data then
        touch now
        pure .ok
      else pure .dataConflict
    else pure .badOffset
  else if offset ≠ r.transfer.nextOffset then pure .badOffset
  else if configBytes < offset + length then pure .badLength
  else
    let result ← writeCandidate data
    if mapPersistenceResult result = .ok then
      modifyTransfer fun t =>
        { t with lastChunk := data, nextOffset := offset + length, lastActivityMs := now }
    else if mapPersistenceResult result = .storageError ∨
        mapPersistenceResult result = .internalError then clearSession
    pure (mapPersistenceResult result)

/-- `asset_handle_write`. -/
def handleWrite (frame : FrameView) (p : List UInt8) (now : UInt32) : Prog Ram Response := do
  let status ← writeStatus p now
  let r ← Prog.ram
  sendSimple frame 0x02 status (read16 p 4) (if r.transfer.active = true then configBytes else 0)
    (if r.transfer.active = true then r.transfer.nextOffset else 0)

/-- `asset_last_commit_matches`. -/
def LastCommitMatches (r : Ram) (transferId : ℕ) : Prop :=
  r.transfer.transferId = transferId ∧ r.transfer.transferId ≠ 0 ∧
    r.activeRecord.map Record.payloadCrc32 = some r.transfer.payloadCrc32

instance (r : Ram) (transferId : ℕ) : Decidable (LastCommitMatches r transferId) :=
  inferInstanceAs (Decidable (_ ∧ _))

/-- The body of `asset_handle_commit`, up to its status. -/
def commitStatus (p : List UInt8) : Prog Ram Status := do
  let r ← Prog.ram
  if read16 p 2 ≠ 1 then pure .badObjectType
  else if r.transfer.active = false then
    if LastCommitMatches r (read16 p 4) then pure .ok else pure .badTransferId
  else if r.transfer.transferId ≠ read16 p 4 then pure .badTransferId
  else if r.transfer.nextOffset ≠ configBytes then pure .badState
  else
    let result ← commitCandidate
    if mapPersistenceResult result = .ok then finishCommit else clearSession
    pure (mapPersistenceResult result)

/-- `asset_handle_commit`. -/
def handleCommit (frame : FrameView) (p : List UInt8) : Prog Ram Response := do
  let status ← commitStatus p
  sendResponse frame 0x03 status 1 (read16 p 4) (if status = .ok then configBytes else 0)
    (if status = .ok then configBytes else 0) []

/-- The body of `asset_handle_abort`, up to its status. -/
def abortStatus (p : List UInt8) : Prog Ram Status := do
  let r ← Prog.ram
  if read16 p 2 ≠ 1 then pure .badObjectType
  else if r.transfer.active = true ∧ r.transfer.transferId ≠ read16 p 4 then pure .badTransferId
  else
    if r.transfer.active = true then clearSession
    pure .ok

/-- `asset_handle_abort`. -/
def handleAbort (frame : FrameView) (p : List UInt8) : Prog Ram Response := do
  let status ← abortStatus p
  sendSimple frame 0x04 status (read16 p 4) 0 0

/-- The committed length and CRC that a status response carries. -/
def committedData (active : Option Record) : List UInt8 :=
  write16 (if active.isSome then configBytes else 0) ++ write16 0 ++
    write32 ((active.map Record.payloadCrc32).getD 0).toNat

/-- `asset_handle_status`. -/
def handleStatus (frame : FrameView) (p : List UInt8) (now : UInt32) : Prog Ram Response := do
  let r ← Prog.ram
  if read16 p 2 ≠ 1 then
    sendResponse frame 0x05 .badObjectType (read16 p 2) (read16 p 4) 0 0
      (committedData r.activeRecord)
  else if read16 p 4 = 0 then
    sendResponse frame 0x05 .ok (read16 p 2) (read16 p 4)
      (if r.transfer.active = true then configBytes else 0)
      (if r.transfer.active = true then r.transfer.nextOffset else 0)
      (committedData r.activeRecord)
  else if r.transfer.active = false ∨ r.transfer.transferId ≠ read16 p 4 then
    sendResponse frame 0x05 .badTransferId (read16 p 2) (read16 p 4) 0 0
      (committedData r.activeRecord)
  else
    touch now
    sendResponse frame 0x05 .ok (read16 p 2) (read16 p 4) configBytes r.transfer.nextOffset
      (committedData r.activeRecord)

/-- `asset_handle_read`. -/
def handleRead (frame : FrameView) (p : List UInt8) : Prog Ram Response := do
  let r ← Prog.ram
  let f ← Prog.flash
  let offset := read16 p 8
  let length := (p.getD 10 0).toNat
  let refuse (status : Status) : Prog Ram Response :=
    sendResponse frame 0x06 status (read16 p 2) 0 0 offset []
  if p.getD 11 0 ≠ 0 then refuse .malformed
  else if read16 p 2 ≠ 1 then refuse .badObjectType
  else
    match r.activeRecord with
    | none => refuse .notFound
    | some record =>
      if record.generation ≠ read32 p 4 then refuse .generationMismatch
      else if length = 0 ∨ configBytes < offset + length then refuse .badLength
      else
        match readActive f (some record) offset length with
        | none => refuse .internalError
        | some data =>
          sendResponse frame 0x06 .ok (read16 p 2) 0 configBytes (offset + length) data

/-- The checks of `asset_transfer_handle_frame` on the flags and the length
of a known opcode. -/
def requestStatus (flags opcode : UInt8) (p : List UInt8) : Status :=
  if flags ≠ (if opcode ≤ 0x03 then 0x01 else 0x00) then .badFlags
  else if opcode = 0x02 then (if p.length < 11 then .malformed else .ok)
  else if p.length ≠ (if opcode = 0x01 then 16 else if opcode = 0x06 then 12 else 6) then .malformed
  else .ok

/-- `asset_transfer_handle_frame`. -/
def handleFrame (frame : FrameView) (now : UInt32) : Prog Ram Response :=
  match frame.payload with
  | none => sendSimple frame 0 .malformed 0 0 0
  | some p =>
    if frame.version ≠ frameProtocolVersion ∨ frame.reserved ≠ 0 ∨ frame.requestId = 0 ∨
        frame.frameType ≠ assetTransferRequest ∨ p.length < 2 ∨ p.getD 0 0 ≠ 1 then
      sendSimple frame (if 2 ≤ p.length then p.getD 1 0 else 0) .malformed 0 0 0
    else
      let opcode := p.getD 1 0
      if (1 ≤ opcode ∧ opcode ≤ 6) ∧ requestStatus frame.flags opcode p ≠ .ok then
        sendSimple frame opcode (requestStatus frame.flags opcode p) 0 0 0
      else if opcode = 0x01 then handleBegin frame p now
      else if opcode = 0x02 then handleWrite frame p now
      else if opcode = 0x03 then handleCommit frame p
      else if opcode = 0x04 then handleAbort frame p
      else if opcode = 0x05 then handleStatus frame p now
      else if opcode = 0x06 then handleRead frame p
      else sendSimple frame opcode .badOpcode 0 0 0

end DeusOs.Asset
