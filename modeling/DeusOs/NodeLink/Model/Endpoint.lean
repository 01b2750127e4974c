import DeusOs.NodeLink.Model.Codec

/-!
# The node link — worker and controller

The two endpoints of `deus_node_link.c`. A stored byte array is the list
of its valid bytes, its length field the length of the list. A call
returns the new state and either the bytes it put in its output buffer,
of `cap` bytes, or the status it returned instead of `DNL_OK`.
-/

namespace DeusOs

namespace NodeLink

open LittleEndian (read16 read32 write16 write32)

/-! ## The worker -/

/-- `dnl_worker_t`; `{}` is what `dnl_worker_init` makes. -/
structure Worker where
  sessionId : UInt32 := 0
  highestSequence : UInt16 := 0
  completedJobs : ℕ := 0
  lastRequest : List UInt8 := []
  lastReply : List UInt8 := []
  helloReply : List UInt8 := []
  hasLast : Bool := false
  deriving DecidableEq, Repr

/-- The `HELLO_ACK` to a challenge. -/
def helloAckFrame (challenge : UInt32) : Frame :=
  { type := Message.helloAck, sequence := 1, sessionId := challenge
    payload := write32 challenge.toNat ++ [1, 3, 16, 2] }

/-- The `DNL_ERROR` that answers a request of type `type`. -/
def errorFrame (code type : UInt8) (sequence : UInt16) (sessionId : UInt32) : Frame :=
  { type := Message.error, sequence, sessionId, payload := [code, type] }

/-- `worker_error`. -/
def workerError (type : UInt8) (sequence : UInt16) (sessionId : UInt32) (code : UInt8) (cap : ℕ) :
    Except Status (List UInt8) :=
  encode (errorFrame code type sequence sessionId) cap

/-- The bytes a `JOB_CRC32` asks the checksum of. -/
def jobBytes (payload : List UInt8) : List UInt8 :=
  (payload.drop 1).take (payload.getD 0 0).toNat

/-- The reply `dnl_worker_process` composes to the next request. -/
def Worker.answer (w : Worker) (req : Frame) : Frame :=
  let resp (type : UInt8) (payload : List UInt8) : Frame :=
    { type, sequence := req.sequence, sessionId := w.sessionId, payload }
  if validatePayload req = false then
    errorFrame ErrorCode.badPayload req.type req.sequence w.sessionId
  else if req.type = Message.ping then resp Message.pong []
  else if req.type = Message.jobCrc32 then
    resp Message.jobResult
      (req.payload.getD 0 0 :: write32 (crc32Ieee (jobBytes req.payload)).toNat)
  else if req.type = Message.getStatus then
    resp Message.status ([2, 0] ++ write16 w.completedJobs)
  else errorFrame ErrorCode.unsupported req.type req.sequence w.sessionId

/-- `dnl_worker_process` on a `HELLO`. -/
def Worker.processHello (w : Worker) (req : Frame) (cap : ℕ) :
    Worker × Except Status (List UInt8) :=
  if req.sessionId ≠ 0 ∨ req.sequence ≠ 1 ∨ validatePayload req = false then (w, .error .drop)
  else
    let challenge := UInt32.ofNat (read32 req.payload 0)
    if challenge = w.sessionId ∧ w.helloReply.length ≠ 0 then
      if cap < w.helloReply.length then (w, .error .outputTooSmall)
      else (w, .ok w.helloReply)
    else
      match encode (helloAckFrame challenge) cap with
      | .error e => (w, .error e)
      | .ok out =>
        -- `dnl_worker_init`, then the new session
        ({ sessionId := challenge, highestSequence := 1, helloReply := out }, .ok out)

/-- `dnl_worker_process`. -/
def Worker.process (w : Worker) (raw : List UInt8) (cap : ℕ) :
    Worker × Except Status (List UInt8) :=
  match decode raw with
  | none => (w, .error .drop)
  | some req =>
    if 0x80 ≤ req.type then (w, .error .drop)
    else if req.type = Message.hello then w.processHello req cap
    else if w.sessionId = 0 ∨ req.sessionId ≠ w.sessionId then (w, .error .drop)
    else if req.sequence = w.highestSequence ∧ w.hasLast = true then
      if raw = w.lastRequest then
        if cap < w.lastReply.length then (w, .error .outputTooSmall)
        else (w, .ok w.lastReply)
      else (w, workerError req.type req.sequence w.sessionId ErrorCode.badSequence cap)
    else if req.sequence < w.highestSequence then (w, .error .drop)
    else if req.sequence.toNat ≠ w.highestSequence.toNat + 1 then
      (w, workerError req.type req.sequence w.sessionId ErrorCode.badSequence cap)
    else
      match encode (w.answer req) cap with
      | .error e => (w, .error e)
      | .ok out =>
        -- the request and its reply are kept for the replay
        ({ w with
            lastRequest := raw
            lastReply := out
            hasLast := true
            highestSequence := req.sequence
            completedJobs :=
              if req.type = Message.jobCrc32 ∧ (w.answer req).type = Message.jobResult ∧
                  w.completedJobs < 0xFFFF then w.completedJobs + 1
              else w.completedJobs }, .ok out)

/-! ## The controller -/

/-- `dnl_controller_t`; `{}` is what `dnl_controller_init` makes. -/
structure Controller where
  sessionId : UInt32 := 0
  lastSequence : UInt16 := 0
  ready : Bool := false
  pending : Bool := false
  pendingType : UInt8 := 0
  retryCount : ℕ := 0
  requestedJobLength : UInt8 := 0
  requestBytes : List UInt8 := []
  deriving DecidableEq, Repr

/-- `controller_emit`. -/
def Controller.emit (c : Controller) (f : Frame) (cap : ℕ) :
    Except Status (Controller × List UInt8) := do
  let out ← encode f cap
  .ok ({ c with requestBytes := out, pending := true, pendingType := f.type, retryCount := 0 }, out)

/-- The `HELLO` of a challenge. -/
def helloFrame (challenge : UInt32) : Frame :=
  { type := Message.hello, sequence := 1, sessionId := 0, payload := write32 challenge.toNat }

/-- `dnl_controller_hello`. -/
def Controller.hello (c : Controller) (challenge : UInt32) (cap : ℕ) :
    Controller × Except Status (List UInt8) :=
  if challenge = 0 ∨ challenge = c.sessionId then (c, .error .badMessage)
  else
    match c.emit (helloFrame challenge) cap with
    | .error e => (c, .error e)
    | .ok (c, out) =>
      ({ c with sessionId := challenge, lastSequence := 1, ready := false,
                requestedJobLength := 0 }, .ok out)

/-- The frame `dnl_controller_request` sends. -/
def Controller.requestFrame (c : Controller) (type : UInt8) (payload : List UInt8) : Frame :=
  { type, sequence := c.lastSequence + 1, sessionId := c.sessionId, payload }

/-- `dnl_controller_request`. -/
def Controller.request (c : Controller) (type : UInt8) (payload : List UInt8) (cap : ℕ) :
    Controller × Except Status (List UInt8) :=
  if c.ready = false ∨ c.pending = true then (c, .error .notReadyOrBusy)
  else if type ≠ Message.ping ∧ type ≠ Message.jobCrc32 ∧ type ≠ Message.getStatus then
    (c, .error .badMessage)
  else if maxPayload < payload.length then (c, .error .badArgument)
  else if c.lastSequence = 0xFFFF then (c, .error .rehandshakeRequired)
  else
    let f := c.requestFrame type payload
    if validatePayload f = false then (c, .error .badMessage)
    else
      match c.emit f cap with
      | .error e => (c, .error e)
      | .ok (c, out) =>
        ({ c with
            lastSequence := f.sequence
            requestedJobLength := if type = Message.jobCrc32 then payload.getD 0 0 else 0 },
          .ok out)

/-- `dnl_controller_receive`; `none` is `DNL_OK`. -/
def Controller.receive (c : Controller) (raw : List UInt8) : Controller × Option Status :=
  match decode raw with
  | none => (c, some .badFrame)
  | some f =>
    if isReply f.type = false then (c, some .wrongDirection)
    else if c.pending = false then (c, some .unsolicited)
    else if f.sessionId ≠ c.sessionId then (c, some .staleSession)
    else if f.sequence ≠ c.lastSequence then (c, some .wrongSequence)
    else if f.type ≠ c.pendingType ||| 0x80 ∧ f.type ≠ Message.error then
      (c, some .wrongReplyType)
    else if validatePayload f = false then (c, some .badMessage)
    else if f.type = Message.error then
      if f.payload.getD 1 0 ≠ c.pendingType then (c, some .wrongReplyType)
      else ({ c with pending := false }, some .remoteError)
    else if c.pendingType = Message.hello ∧
        (read32 f.payload 0 ≠ c.sessionId.toNat ∨ f.sessionId.toNat ≠ read32 f.payload 0) then
      (c, some .badHelloEcho)
    else if c.pendingType = Message.jobCrc32 ∧ f.payload.getD 0 0 ≠ c.requestedJobLength then
      (c, some .badResultLength)
    else
      ({ c with
          pending := false
          ready := if c.pendingType = Message.hello then true else c.ready }, none)

/-- `dnl_controller_timeout`. -/
def Controller.timeout (c : Controller) (cap : ℕ) : Controller × Except Status (List UInt8) :=
  if c.pending = false then (c, .error .drop)
  else if (c.pendingType = Message.hello ∨ c.pendingType = Message.ping ∨
      c.pendingType = Message.getStatus) ∧ c.retryCount = 0 then
    if cap < c.requestBytes.length then (c, .error .outputTooSmall)
    else ({ c with retryCount := 1 }, .ok c.requestBytes)
  else ({ c with pending := false, ready := false }, .error .drop)

end NodeLink

end DeusOs
