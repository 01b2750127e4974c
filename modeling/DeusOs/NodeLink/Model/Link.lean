import DeusOs.NodeLink.Worker

/-!
# The node link — a controller and a worker over two channels

The controller and the worker joined by two channels that keep the order
of what they carry and may lose any of it. Besides the state of the parties
and the messages on their way, a link records the challenges that were used,
the frames the controller issued and those the worker executed.
-/

namespace DeusOs

namespace NodeLink

open LittleEndian (read32)

/-- The `HELLO` a call opens a session with, if any. -/
def Worker.opening (w : Worker) (raw : List UInt8) (cap : ℕ) : Option Frame :=
  (decode raw).filter fun req =>
    req.type = Message.hello ∧ req.sessionId = 0 ∧ req.sequence = 1 ∧ validatePayload req = true ∧
      ¬(UInt32.ofNat (read32 req.payload 0) = w.sessionId ∧ w.helloReply.length ≠ 0) ∧
      frameOverhead + (helloAckFrame (UInt32.ofNat (read32 req.payload 0))).payload.length ≤ cap

/-- A link: the two parties, what is on its way between them, the oldest
message first, and what has happened so far. -/
structure Link where
  controller : Controller := {}
  worker : Worker := {}
  toWorker : List (List UInt8) := []
  toController : List (List UInt8) := []
  challenges : List UInt32 := []
  issued : List Frame := []
  executed : List Frame := []

/-- What can happen on a link. A call that writes a message is given the
room of its output buffer. -/
inductive Link.Event
  | hello (challenge : UInt32) (cap : ℕ)
  | request (type : UInt8) (payload : List UInt8) (cap : ℕ)
  | timeout (cap : ℕ)
  | deliverRequest (cap : ℕ)
  | deliverReply
  | loseRequest (i : ℕ)
  | loseReply (i : ℕ)

namespace Link

variable (l : Link)

/-- An event as the link admits it: every challenge is a new one and every
output buffer has room for a frame. -/
def Allows : Event → Prop
  | .hello challenge cap => challenge ∉ l.challenges ∧ maxFrame ≤ cap
  | .request _ _ cap => maxFrame ≤ cap
  | .timeout cap => maxFrame ≤ cap
  | .deliverRequest cap => maxFrame ≤ cap
  | .deliverReply => True
  | .loseRequest _ => True
  | .loseReply _ => True

/-- What a call put out, as a message. -/
def sent : Except Status (List UInt8) → List (List UInt8)
  | .ok out => [out]
  | .error _ => []

/-- `dnl_controller_hello`, its message sent. -/
def hello (challenge : UInt32) (cap : ℕ) : Link :=
  let r := l.controller.hello challenge cap
  { l with
    controller := r.1
    toWorker := l.toWorker ++ sent r.2
    challenges := l.challenges ++ [challenge]
    issued := l.issued ++ (sent r.2).map fun _ => helloFrame challenge }

/-- `dnl_controller_request`, its message sent. -/
def request (type : UInt8) (payload : List UInt8) (cap : ℕ) : Link :=
  let r := l.controller.request type payload cap
  { l with
    controller := r.1
    toWorker := l.toWorker ++ sent r.2
    issued := l.issued ++ (sent r.2).map fun _ => l.controller.requestFrame type payload }

/-- `dnl_controller_timeout`, its message sent. -/
def timeout (cap : ℕ) : Link :=
  let r := l.controller.timeout cap
  { l with controller := r.1, toWorker := l.toWorker ++ sent r.2 }

/-- `dnl_worker_process` on the oldest message to the worker, its reply sent. -/
def deliverRequest (cap : ℕ) : Link :=
  match l.toWorker with
  | [] => l
  | raw :: rest =>
    let r := l.worker.process raw cap
    { l with
      worker := r.1
      toWorker := rest
      toController := l.toController ++ sent r.2
      executed := l.executed ++
        ((l.worker.nextRequest raw cap).toList ++ (l.worker.opening raw cap).toList) }

/-- `dnl_controller_receive` on the oldest message to the controller. -/
def deliverReply : Link :=
  match l.toController with
  | [] => l
  | raw :: rest =>
    { l with controller := (l.controller.receive raw).1, toController := rest }

/-- One event. -/
def step : Event → Link
  | .hello challenge cap => l.hello challenge cap
  | .request type payload cap => l.request type payload cap
  | .timeout cap => l.timeout cap
  | .deliverRequest cap => l.deliverRequest cap
  | .deliverReply => l.deliverReply
  | .loseRequest i => { l with toWorker := l.toWorker.eraseIdx i }
  | .loseReply i => { l with toController := l.toController.eraseIdx i }

/-- The events are admitted one after the other. -/
def Admits (l : Link) : List Event → Prop
  | [] => True
  | e :: es => l.Allows e ∧ (l.step e).Admits es

instance : DecidablePred l.Allows
  | .hello challenge cap => inferInstanceAs (Decidable (challenge ∉ l.challenges ∧ maxFrame ≤ cap))
  | .request _ _ cap => inferInstanceAs (Decidable (maxFrame ≤ cap))
  | .timeout cap => inferInstanceAs (Decidable (maxFrame ≤ cap))
  | .deliverRequest cap => inferInstanceAs (Decidable (maxFrame ≤ cap))
  | .deliverReply => isTrue trivial
  | .loseRequest _ => isTrue trivial
  | .loseReply _ => isTrue trivial

instance decidableAdmits : (l : Link) → (events : List Event) → Decidable (l.Admits events)
  | _, [] => isTrue trivial
  | l, e :: es =>
    have := decidableAdmits (l.step e) es
    inferInstanceAs (Decidable (l.Allows e ∧ (l.step e).Admits es))

end Link

/-- A run of a link from the two parties' initialisation. -/
structure Link.Run where
  events : List Link.Event
  admitted : Link.Admits {} events

/-- The link at the end of a run. -/
def Link.Run.link (r : Link.Run) : Link := r.events.foldl Link.step {}

end NodeLink

end DeusOs
