import DeusOs.Host.Model.Channel

/-!
# The host — requests and a device that answers them

The channel makes one request after another, and reads what a device
answers. The device answers a request with one frame, or, where it is an
RPC, with data and then one terminal frame; or it never does. It takes its
time, so that an answer may come long after its request was abandoned. A
request has a serial number beside its id, which no frame carries.
-/

namespace DeusOs

namespace Host

/-- One request. -/
structure Request where
  serial : ℕ
  id : ℕ
  shape : AbandonedResponseShape
  deriving DecidableEq

/-- A frame of this type is the last that answers the request. -/
def Request.Closes (o : Request) (type : UInt8) : Prop :=
  o.shape = .singleResponse ∨ type = FrameType.rpcEnd ∨ type = FrameType.protocolError

instance (o : Request) (type : UInt8) : Decidable (o.Closes type) :=
  inferInstanceAs (Decidable (_ ∨ _ ∨ _))

/-- The channel, and the device at the other end of the link. -/
structure Conversation where
  channel : Channel
  /-- The request that the host has not ended yet. -/
  current : Option Request
  /-- How many requests were made. -/
  issued : ℕ
  /-- The requests that the device may still answer. -/
  unanswered : List Request
  /-- The bytes that the device has sent and the host has not read. -/
  link : List UInt8
  /-- The frames that the device has sent, each with the request that it
  answers. -/
  sent : List (Request × BinaryFrame)

/-- A new session. -/
def Conversation.new : Conversation := ⟨.new, none, 0, [], [], []⟩

/-- What a step shows to the caller of the channel. -/
inductive Label
  | quiet
  /-- `ReadNextFrameAsync` returned a frame to a request. -/
  | returned (request : Request) (frame : BinaryFrame)
  /-- `ReadNextFrameAsync` threw. -/
  | threw (e : HostError)
  /-- `NextRequestId` threw. -/
  | refused (e : HostError)

/-- `AbandonSingleResponse` or `AbandonRpcStream`, as the request is. -/
def Channel.abandonRequest (c : Channel) (o : Request) : Channel × Except HostError Unit :=
  match o.shape with
  | .singleResponse => c.abandonSingleResponse o.id
  | .rpcUntilTerminal => c.abandonRpcStream o.id

/-- The request is over once its last frame was read. -/
def Request.after (o : Request) (frame : BinaryFrame) : Option Request :=
  if o.Closes frame.type then none else some o

/-- One step of host or device. `ReadNextFrameAsync` is two of them: what is
queued is dequeued, or else a read completes. -/
inductive Step : Conversation → Label → Conversation → Prop
  /-- The host gets an id, and writes its request. -/
  | request {s : Conversation} {channel : Channel} {id : ℕ} (shape : AbandonedResponseShape) :
      s.current = none → s.channel.nextRequestId = (channel, .ok id) →
      Step s .quiet { s with
        channel
        current := some ⟨s.issued, id, shape⟩
        issued := s.issued + 1
        unanswered := s.unanswered ++ [⟨s.issued, id, shape⟩] }
  | refuse {s : Conversation} {channel : Channel} {e : HostError} :
      s.current = none → s.channel.nextRequestId = (channel, .error e) →
      Step s (.refused e) { s with channel }
  /-- The device sends a frame for a request, whenever it does. -/
  | answer {s : Conversation} {o : Request} {type flags : UInt8} {payload bytes : List UInt8} :
      o ∈ s.unanswered → encode type flags o.id payload = .ok bytes →
      (o.shape = .rpcUntilTerminal → type = FrameType.rpcData ∨ type = FrameType.rpcEnd ∨
        type = FrameType.protocolError) →
      Step s .quiet { s with
        unanswered := if o.Closes type then s.unanswered.filter (· ≠ o) else s.unanswered
        link := s.link ++ bytes
        sent := s.sent ++ [(o, ⟨protocolVersion, type, flags, 0, o.id, payload⟩)] }
  | dequeue {s : Conversation} {o : Request} {channel : Channel} :
      s.current = some o → s.channel.dequeue = (channel, none) →
      Step s .quiet { s with channel }
  | dequeued {s : Conversation} {o : Request} {channel : Channel} {frame : BinaryFrame} :
      s.current = some o → s.channel.dequeue = (channel, some frame) →
      Step s (.returned o frame) { s with channel, current := o.after frame }
  | receive {s : Conversation} {o : Request} {channel : Channel} {data link : List UInt8} :
      s.current = some o → s.link = data ++ link → data ≠ [] → data.length ≤ 512 →
      s.channel.receive data = (channel, none) →
      Step s .quiet { s with channel, link }
  | received {s : Conversation} {o : Request} {channel : Channel} {data link : List UInt8}
      {frame : BinaryFrame} :
      s.current = some o → s.link = data ++ link → data ≠ [] → data.length ≤ 512 →
      s.channel.receive data = (channel, some (.ok frame)) →
      Step s (.returned o frame) { s with channel, link, current := o.after frame }
  | threw {s : Conversation} {o : Request} {channel : Channel} {data link : List UInt8} {e : HostError} :
      s.current = some o → s.link = data ++ link → data ≠ [] → data.length ≤ 512 →
      s.channel.receive data = (channel, some (.error e)) →
      Step s (.threw e) { s with channel, link }
  /-- A timeout or a cancellation ends the request. -/
  | abandon {s : Conversation} {o : Request} :
      s.current = some o →
      Step s .quiet { s with channel := (s.channel.abandonRequest o).1, current := none }
  | reset {s : Conversation} :
      s.current = none → Step s .quiet { s with channel := s.channel.resetProtocolState }

/-- The states of all runs. -/
inductive Reachable : Conversation → Prop
  | new : Reachable .new
  | step {s s' : Conversation} {l : Label} : Reachable s → Step s l s' → Reachable s'

end Host

end DeusOs
