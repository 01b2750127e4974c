import DeusOs.Common.Async
import DeusOs.Host.Model.Frame

/-!
# The host — requests, answers and abandoned answers

`RequestIdAllocator` and `DeviceProtocolChannel` of `DeusOs.Control.Core`,
over a transport that is a parameter: what a write does to it, and what
each of its events hands to a pending read. The gate that serialises
operations is not modelled: one operation runs at a time.
-/

namespace DeusOs

namespace Host

open Async (Prog)

/-! ## `RequestIdAllocator` -/

/-- `RequestIdAllocator`, with its `_next`. -/
structure RequestIdAllocator where
  next : ℕ
  deriving DecidableEq, Repr

/-- `Next`: ids go from 1 to 65535 and start again at 1. -/
def RequestIdAllocator.take (a : RequestIdAllocator) : ℕ × RequestIdAllocator :=
  (a.next, ⟨if a.next = 65535 then 1 else a.next + 1⟩)

/-! ## `DeviceProtocolChannel` -/

/-- `AbandonedResponseShape`. -/
inductive AbandonedResponseShape
  | singleResponse | rpcUntilTerminal
  deriving DecidableEq, Repr

/-- The fields of `DeviceProtocolChannel`. The dictionary of abandoned
requests is the list of its entries. -/
structure Channel where
  decoder : BinaryFrameDecoder
  requestIds : RequestIdAllocator
  queuedFrames : List BinaryFrame
  abandonedRequests : List (ℕ × AbandonedResponseShape)
  requestIdEpochStarted : Bool
  freshSessionRequired : Bool

/-- A new channel. -/
def Channel.new : Channel := ⟨.reset, ⟨1⟩, [], [], false, false⟩

/-- `_abandonedRequests.ContainsKey`. -/
def Channel.Abandoned (c : Channel) (requestId : ℕ) : Prop :=
  requestId ∈ c.abandonedRequests.map Prod.fst

instance (c : Channel) (requestId : ℕ) : Decidable (c.Abandoned requestId) :=
  inferInstanceAs (Decidable (requestId ∈ c.abandonedRequests.map Prod.fst))

/-- The loop of `NextRequestId`, with its remaining attempts. -/
def Channel.nextRequestIdLoop : ℕ → Channel → Channel × Except HostError ℕ
  | 0, c => ({ c with freshSessionRequired := true }, .error (.deus .requestCorrelation))
  | attempts + 1, c =>
    let (requestId, requestIds) := c.requestIds.take
    let c := { c with requestIds }
    if c.requestIdEpochStarted ∧ requestId = 1 ∧ c.abandonedRequests.length ≠ 0 then
      ({ c with freshSessionRequired := true }, .error (.deus .requestCorrelation))
    else
      let c := { c with requestIdEpochStarted := true }
      if ¬ c.Abandoned requestId then (c, .ok requestId) else c.nextRequestIdLoop attempts

/-- `NextRequestId`. -/
def Channel.nextRequestId (c : Channel) : Channel × Except HostError ℕ :=
  if c.freshSessionRequired then (c, .error (.deus .requestCorrelation))
  else c.nextRequestIdLoop 65535

/-- `RegisterAbandonedRequest`. -/
def Channel.registerAbandonedRequest (c : Channel) (requestId : ℕ)
    (responseShape : AbandonedResponseShape) : Channel × Except HostError Unit :=
  if requestId = 0 then (c, .error .argument)
  else match c.abandonedRequests.lookup requestId with
    | some existing => if existing ≠ responseShape then (c, .error .invalidOperation) else (c, .ok ())
    | none => ({ c with abandonedRequests := (requestId, responseShape) :: c.abandonedRequests },
        .ok ())

/-- `AbandonSingleResponse`. -/
def Channel.abandonSingleResponse (c : Channel) (requestId : ℕ) : Channel × Except HostError Unit :=
  c.registerAbandonedRequest requestId .singleResponse

/-- `AbandonRpcStream`. -/
def Channel.abandonRpcStream (c : Channel) (requestId : ℕ) : Channel × Except HostError Unit :=
  c.registerAbandonedRequest requestId .rpcUntilTerminal

/-- `ResetProtocolState`. -/
def Channel.resetProtocolState (c : Channel) : Channel where
  decoder := .reset
  requestIds := ⟨1⟩
  queuedFrames := []
  abandonedRequests := c.abandonedRequests
  requestIdEpochStarted := false
  freshSessionRequired := c.freshSessionRequired || decide (c.abandonedRequests.length ≠ 0)

/-- `DiscardIfAbandoned`. -/
def Channel.discardIfAbandoned (c : Channel) (frame : BinaryFrame) : Channel × Bool :=
  match c.abandonedRequests.lookup frame.requestId with
  | none => (c, false)
  | some responseShape =>
    if responseShape = .singleResponse ∨ frame.type = FrameType.rpcEnd ∨
        frame.type = FrameType.protocolError then
      ({ c with abandonedRequests :=
          c.abandonedRequests.filter fun entry => entry.1 ≠ frame.requestId }, true)
    else (c, true)

/-- The inner loop of `ReadNextFrameAsync`: frames are dequeued until one
is not discarded. -/
def Channel.dequeueLoop : List BinaryFrame → Channel → Channel × Option BinaryFrame
  | [], c => ({ c with queuedFrames := [] }, none)
  | queued :: rest, c =>
    match c.discardIfAbandoned queued with
    | (c, true) => c.dequeueLoop rest
    | (c, false) => ({ c with queuedFrames := rest }, some queued)

/-- The queue, dequeued. -/
def Channel.dequeue (c : Channel) : Channel × Option BinaryFrame := c.dequeueLoop c.queuedFrames

/-- The errors of a batch. -/
def batchErrors (evs : List DecodeEvent) : List FrameDecodeErrorKind :=
  evs.filterMap fun ev => match ev with
    | .error kind => some kind
    | .frame _ => none

/-- The frames of a batch. -/
def batchFrames (evs : List DecodeEvent) : List BinaryFrame :=
  evs.filterMap fun ev => match ev with
    | .error _ => none
    | .frame frame => some frame

/-- What the loop of `ReadNextFrameAsync` does with the bytes of one read:
the first decode error is thrown and drops the batch, else its frames are
queued and the queue is dequeued. -/
def Channel.receive (c : Channel) (data : List UInt8) :
    Channel × Option (Except HostError BinaryFrame) :=
  if data.length = 0 then (c, some (.error (.deus .transportDisconnected)))
  else
    let (decoder, evs) := feed c.decoder data
    let c := { c with decoder }
    match batchErrors evs with
    | .crc :: _ => (c, some (.error (.deus .crc)))
    | _ :: _ => (c, some (.error (.deus .protocol)))
    | [] =>
      match ({ c with queuedFrames := c.queuedFrames ++ batchFrames evs }).dequeue with
      | (c, some frame) => (c, some (.ok frame))
      | (c, none) => (c, none)

/-- `ValidateCommonResponseFrame`. -/
def validateCommonResponseFrame (frame : BinaryFrame) : Except HostError Unit :=
  if frame.version ≠ protocolVersion then .error (.deus .incompatibleProtocol)
  else if frame.flags ≠ 0 ∨ frame.reserved ≠ 0 then .error (.deus .protocol)
  else .ok ()

/-- The checks of `ReadMatchingFrameAsync` on the frame it read. -/
def matchFrame (requestId : ℕ) (expectedType : UInt8) (frame : BinaryFrame) :
    Except HostError BinaryFrame := do
  validateCommonResponseFrame frame
  if frame.requestId ≠ requestId then .error (.deus .requestCorrelation)
  else if frame.type = FrameType.protocolError then .error (.deus .protocol)
  else if frame.type ≠ expectedType then .error (.deus .protocol)
  else pure frame

/-! ## The transport -/

/-- What a transport hands to a pending read: bytes (none, where it was
closed), or the cancellation of the read, by the request's own timeout or
by the caller. -/
inductive Signal
  | bytes (data : List UInt8)
  | timedOut
  | cancelled

/-- `IDeviceTransport`, as the client meets it. -/
structure Transport (σ ε : Type) where
  write : List UInt8 → σ → σ
  event : ε → σ → σ × Option Signal

/-- A channel over the state of its transport. -/
structure Conn (σ : Type) where
  channel : Channel
  link : σ

variable {σ ε α : Type}

/-- An asynchronous method of the client. -/
abbrev Task (σ ε α : Type) := Prog (Conn σ) ε HostError α

/-- A method of the channel that does not wait. -/
def onChannel (g : Channel → Channel × Except HostError α) : Task σ ε α :=
  Prog.act fun s => ({ s with channel := (g s.channel).1 }, (g s.channel).2)

variable (T : Transport σ ε)

/-- `WriteAsync`. -/
def writeAsync (data : List UInt8) : Task σ ε Unit :=
  Prog.act fun s => ({ s with link := T.write data s.link }, .ok ())

/-- One event, for a pending `ReadNextFrameAsync`. -/
def readEvent (ev : ε) (s : Conn σ) : Conn σ × Option (Except HostError BinaryFrame) :=
  match T.event ev s.link with
  | (link, none) => ({ s with link }, none)
  | (link, some .timedOut) => ({ s with link }, some (.error (.operationCanceled false)))
  | (link, some .cancelled) => ({ s with link }, some (.error (.operationCanceled true)))
  | (link, some (.bytes data)) =>
    let (channel, result) := s.channel.receive data
    (⟨channel, link⟩, result)

/-- `ReadNextFrameAsync`: what is queued, or else what comes. -/
def readNextFrameAsync : Task σ ε BinaryFrame := do
  match ← onChannel fun c => ((c.dequeue).1, .ok (c.dequeue).2) with
  | some frame => pure frame
  | none => Prog.await (readEvent T)

/-- `ReadMatchingFrameAsync`. -/
def readMatchingFrameAsync (requestId : ℕ) (expectedType : UInt8) : Task σ ε BinaryFrame := do
  let frame ← readNextFrameAsync T
  Prog.lift (matchFrame requestId expectedType frame)

end Host

end DeusOs
