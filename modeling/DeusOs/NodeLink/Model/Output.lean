import DeusOs.NodeLink.Model.Endpoint

/-!
# The node link — output buffers

The calls of `deus_node_link.c` once more, with the output buffer and the
length they report in it, each written where the source writes it. The
status `none` is `DNL_OK`.
-/

namespace DeusOs

namespace NodeLink

open LittleEndian (read32)

/-- A caller's buffer, with all its bytes, and the length reported in it. -/
structure Output where
  buf : List UInt8
  len : ℕ
  deriving DecidableEq, Repr

/-- `memcpy` of kept bytes to the front of the buffer, and their length. -/
def Output.copy (o : Output) (bytes : List UInt8) : Output :=
  { buf := bytes ++ o.buf.drop bytes.length, len := bytes.length }

/-- `dnl_encode`. -/
def encodeInto (f : Frame) (o : Output) : Output × Option Status :=
  let o := { o with len := 0 }
  if f.sequence = 0 ∨ maxPayload < f.payload.length then (o, some .badMessage)
  else
    let n := frameOverhead + f.payload.length
    if o.buf.length < n then (o, some .outputTooSmall)
    else ({ buf := f.wire ++ o.buf.drop n, len := n }, none)

/-! ## The worker -/

/-- `worker_error`. -/
def workerErrorInto (type : UInt8) (sequence : UInt16) (sessionId : UInt32) (code : UInt8)
    (o : Output) : Output × Option Status :=
  encodeInto (errorFrame code type sequence sessionId) o

/-- `dnl_worker_process` on a `HELLO`. -/
def Worker.processHelloInto (w : Worker) (req : Frame) (o : Output) :
    Worker × Output × Option Status :=
  if req.sessionId ≠ 0 ∨ req.sequence ≠ 1 ∨ validatePayload req = false then (w, o, some .drop)
  else
    let challenge := UInt32.ofNat (read32 req.payload 0)
    if challenge = w.sessionId ∧ w.helloReply.length ≠ 0 then
      if o.buf.length < w.helloReply.length then (w, o, some .outputTooSmall)
      else (w, o.copy w.helloReply, none)
    else
      -- the length goes to `reply_len` first
      match encodeInto (helloAckFrame challenge) { o with len := 0 } with
      | (out, some e) => (w, { o with buf := out.buf }, some e)
      | (out, none) =>
        let w : Worker := {}
        let w := { w with sessionId := challenge, highestSequence := 1 }
        let w := { w with helloReply := out.buf.take out.len }
        (w, out, none)

/-- `dnl_worker_process`. -/
def Worker.processInto (w : Worker) (raw : List UInt8) (o : Output) :
    Worker × Output × Option Status :=
  let o := { o with len := 0 }
  match decode raw with
  | none => (w, o, some .drop)
  | some req =>
    if 0x80 ≤ req.type then (w, o, some .drop)
    else if req.type = Message.hello then w.processHelloInto req o
    else if w.sessionId = 0 ∨ req.sessionId ≠ w.sessionId then (w, o, some .drop)
    else if req.sequence = w.highestSequence ∧ w.hasLast = true then
      if raw = w.lastRequest then
        if o.buf.length < w.lastReply.length then (w, o, some .outputTooSmall)
        else (w, o.copy w.lastReply, none)
      else (w, workerErrorInto req.type req.sequence w.sessionId ErrorCode.badSequence o)
    else if req.sequence < w.highestSequence then (w, o, some .drop)
    else if req.sequence.toNat ≠ w.highestSequence.toNat + 1 then
      (w, workerErrorInto req.type req.sequence w.sessionId ErrorCode.badSequence o)
    else
      match encodeInto (w.answer req) { o with len := 0 } with
      | (out, some e) => (w, { o with buf := out.buf }, some e)
      | (out, none) =>
        let resp := w.answer req
        let w := { w with lastRequest := raw }
        let w := { w with lastReply := out.buf.take out.len }
        let w := { w with hasLast := true, highestSequence := req.sequence }
        let w :=
          if req.type = Message.jobCrc32 ∧ resp.type = Message.jobResult ∧
              w.completedJobs < 0xFFFF then
            { w with completedJobs := w.completedJobs + 1 }
          else w
        (w, out, none)

/-! ## The controller -/

/-- `controller_emit`. -/
def Controller.emitInto (c : Controller) (f : Frame) (o : Output) :
    Controller × Output × Option Status :=
  match encodeInto f o with
  | (o, some e) => (c, o, some e)
  | (o, none) =>
    let c := { c with requestBytes := o.buf.take o.len }
    ({ c with pending := true, pendingType := f.type, retryCount := 0 }, o, none)

/-- `dnl_controller_hello`. -/
def Controller.helloInto (c : Controller) (challenge : UInt32) (o : Output) :
    Controller × Output × Option Status :=
  let o := { o with len := 0 }
  if challenge = 0 ∨ challenge = c.sessionId then (c, o, some .badMessage)
  else
    match c.emitInto (helloFrame challenge) o with
    | (c, o, some e) => (c, o, some e)
    | (c, o, none) =>
      ({ c with sessionId := challenge, lastSequence := 1, ready := false,
                requestedJobLength := 0 }, o, none)

/-- `dnl_controller_request`. The payload is `none` for a null pointer; else
`length` of its bytes are read. -/
def Controller.requestInto (c : Controller) (type : UInt8) (payload : Option (List UInt8))
    (length : UInt8) (o : Output) : Controller × Output × Option Status :=
  let o := { o with len := 0 }
  if c.ready = false ∨ c.pending = true then (c, o, some .notReadyOrBusy)
  else if type ≠ Message.ping ∧ type ≠ Message.jobCrc32 ∧ type ≠ Message.getStatus then
    (c, o, some .badMessage)
  else if maxPayload < length.toNat ∨ (length ≠ 0 ∧ payload = none) then (c, o, some .badArgument)
  else if c.lastSequence = 0xFFFF then (c, o, some .rehandshakeRequired)
  else
    let f := c.requestFrame type ((payload.getD []).take length.toNat)
    if validatePayload f = false then (c, o, some .badMessage)
    else
      match c.emitInto f o with
      | (c, o, some e) => (c, o, some e)
      | (c, o, none) =>
        let c := { c with lastSequence := f.sequence }
        ({ c with
            requestedJobLength := if type = Message.jobCrc32 then f.payload.getD 0 0 else 0 },
          o, none)

/-- `dnl_controller_timeout`. -/
def Controller.timeoutInto (c : Controller) (o : Output) : Controller × Output × Option Status :=
  let o := { o with len := 0 }
  if c.pending = false then (c, o, some .drop)
  else if (c.pendingType = Message.hello ∨ c.pendingType = Message.ping ∨
      c.pendingType = Message.getStatus) ∧ c.retryCount = 0 then
    if o.buf.length < c.requestBytes.length then (c, o, some .outputTooSmall)
    else
      let o := o.copy c.requestBytes
      ({ c with retryCount := 1 }, o, none)
  else ({ c with pending := false, ready := false }, o, some .drop)

end NodeLink

end DeusOs
