import DeusOs.Common.Async
import DeusOs.Host.Model.Frame

/-!
# The host — the device session

`DeusDeviceSession` of `DeusOs.Control.Core`. An operation that is behind the
gate waits for discovery, the transport, the client and the caller's own
operation, each of which may answer or throw anything; disposing a client does
not throw. The retry loop of the recovery has no bound of its own; a turn of
it takes an answer at least, so there are no more turns than answers.

The notifications of state changes are tasks, each of which waits for the one
before; they run on their own beside the operations.
-/

namespace DeusOs

namespace Host

open Async (Prog)

/-- `ConnectionState`. -/
inductive ConnectionState
  | disconnected
  | discovered
  | opening
  | negotiating
  | ready
  | recovering
  | faulted
  deriving DecidableEq, Repr

/-- `DeviceCandidate`. -/
structure DeviceCandidate where
  locator : String
  displayName : String
  platform : String
  deriving DecidableEq, Repr

/-- `DeusDeviceSession`, over the type of a negotiation result. A client is
its number among those opened. -/
structure DeviceSession (ν : Type) where
  state : ConnectionState := .disconnected
  client : Option ℕ := none
  candidate : Option DeviceCandidate := none
  lastNegotiation : Option ν := none
  isDisposed : Bool := false
  /-- How many transports were opened. -/
  opened : ℕ := 0
  /-- The calls of `DisposeAsync` of a client. -/
  disposals : List ℕ := []
  /-- The clients that negotiated. -/
  negotiated : List ℕ := []
  /-- The clients an operation was run on, and the last that had negotiated
  then. -/
  executed : List (ℕ × Option ℕ) := []
  /-- The changes of state, as they were scheduled for notification. -/
  changes : List ConnectionState := []

/-- What an operation that waits is answered. -/
inductive Answer (ν : Type)
  /-- It throws, or the token is cancelled. -/
  | threw (e : HostError)
  /-- The gate is entered, the token found not cancelled, or the delay over. -/
  | passed
  | candidates (found : List DeviceCandidate)
  | opened
  | negotiated (result : ν)
  /-- The caller's operation returns. -/
  | returned

/-- What a member throws once the session is disposed: an
`ObjectDisposedException`, which is an invalid operation. -/
def objectDisposed : HostError := .invalidOperation

variable {ν : Type}

/-- A member of the session. -/
abbrev Member (ν α : Type) := Prog (DeviceSession ν) (Answer ν) HostError α

namespace DeviceSession

/-- `SetState`, with `ScheduleStateNotification`. -/
def setState (st : ConnectionState) (s : DeviceSession ν) : DeviceSession ν :=
  if s.state = st then s else { s with state := st, changes := s.changes ++ [st] }

/-- `DisposeCurrentClientAsync`. -/
def disposeCurrentClient (s : DeviceSession ν) : DeviceSession ν :=
  match s.client with
  | none => s
  | some client => { s with client := none, disposals := s.disposals ++ [client] }

end DeviceSession

open DeviceSession

/-- A change of the session that waits for nothing. -/
def modify (f : DeviceSession ν → DeviceSession ν) : Member ν Unit :=
  Prog.act fun s => (f s, .ok ())

/-- `ThrowIfDisposed`. -/
def throwIfDisposed : Member ν Unit :=
  Prog.act fun s => (s, if s.isDisposed = true then .error objectDisposed else .ok ())

/-- A wait that passes or throws: for the gate, the token or the delay. -/
def pass : Member ν Unit :=
  Prog.await fun a s =>
    match a with
    | .passed => (s, some (.ok ()))
    | .threw e => (s, some (.error e))
    | _ => (s, none)

/-- The wait of `DisposeAsync` for the gate, which no token cancels. -/
def enterGate : Member ν Unit :=
  Prog.await fun a s =>
    match a with
    | .passed => (s, some (.ok ()))
    | _ => (s, none)

/-- `_discovery.DiscoverAsync`. -/
def discover : Member ν (List DeviceCandidate) :=
  Prog.await fun a s =>
    match a with
    | .candidates found => (s, some (.ok found))
    | .threw e => (s, some (.error e))
    | _ => (s, none)

/-- `_discovery.OpenAsync`, and the new client on the transport. -/
def openTransport : Member ν ℕ :=
  Prog.await fun a s =>
    match a with
    | .opened => ({ s with opened := s.opened + 1 }, some (.ok s.opened))
    | .threw e => (s, some (.error e))
    | _ => (s, none)

/-- `client.NegotiateAsync`, and what `OpenAndNegotiateAsync` makes of its
result. -/
def negotiate (client : ℕ) (candidate : DeviceCandidate) : Member ν ν :=
  Prog.await fun a s =>
    match a with
    | .negotiated result =>
      (setState .ready
        { s with
            client := some client
            candidate := some candidate
            lastNegotiation := some result
            negotiated := s.negotiated ++ [client] }, some (.ok result))
    | .threw e => (s, some (.error e))
    | _ => (s, none)

/-- `OpenAndNegotiateAsync`. -/
def openAndNegotiate (candidate : DeviceCandidate) : Member ν ν :=
  modify (setState .opening) >>= fun _ =>
  openTransport >>= fun client =>
  Prog.handle (modify (setState .negotiating) >>= fun _ => negotiate client candidate) fun e =>
    modify (fun s => { s with disposals := s.disposals ++ [client] }) >>= fun _ => Prog.raise e

/-- The body of `ConnectAsync` behind the gate. -/
def connectBody (candidate : DeviceCandidate) : Member ν ν :=
  throwIfDisposed >>= fun _ =>
  -- the client in hand is gone before the new one is opened
  modify (fun s =>
    setState .discovered
      { s.disposeCurrentClient with candidate := some candidate, lastNegotiation := none })
    >>= fun _ =>
  Prog.handle (openAndNegotiate candidate) fun e =>
    modify (fun s => setState .faulted { s with lastNegotiation := none }) >>= fun _ => Prog.raise e

/-- `ConnectAsync`. -/
def connect (candidate : DeviceCandidate) : Member ν ν :=
  throwIfDisposed >>= fun _ => pass >>= fun _ => connectBody candidate

/-- `IsTransientRecoveryError`. -/
def isTransientRecoveryError : HostErrorKind → Bool
  | .discovery | .open | .transportDisconnected | .timeout => true
  | _ => false

/-- The `try` of a turn of `RecoverAsync`, and whether it opened the device
again. -/
def recoverTurn (previous : DeviceCandidate) : Member ν Bool :=
  Prog.handle
    (discover >>= fun candidates =>
      match candidates.find? fun candidate => decide (candidate.locator = previous.locator) with
      | some found =>
        modify (setState .discovered) >>= fun _ =>
        openAndNegotiate found >>= fun _ => pure true
      -- not found: the delay, and another turn
      | none => pure false)
    fun e =>
      match e with
      | .deus kind =>
        if isTransientRecoveryError kind = true then
          modify (setState .recovering) >>= fun _ => pure false
        else Prog.raise e
      | _ => Prog.raise e

/-- The loop of `RecoverAsync`. -/
def recoverLoop (previous : DeviceCandidate) : ℕ → Member ν Unit
  | 0 => fun s _ => .pending s
  | turns + 1 =>
    pass >>= fun _ =>
    recoverTurn previous >>= fun done =>
    if done = true then pure () else pass >>= fun _ => recoverLoop previous turns

/-- `RecoverAsync`. -/
def recover : Member ν Unit := fun s answers =>
  match s.candidate with
  | none => .threw .invalidOperation s answers
  | some previous => recoverLoop previous (answers.length + 1) s answers

/-- The call of the caller's operation on the client. -/
def operate (client : ℕ) : Member ν Unit :=
  modify (fun s => { s with executed := s.executed ++ [(client, s.negotiated.getLast?)] })
    >>= fun _ =>
  Prog.await fun a s =>
    match a with
    | .returned => (s, some (.ok ()))
    | .threw e => (s, some (.error e))
    | _ => (s, none)

/-- The client of a session that is ready. -/
def readyClient : Member ν ℕ :=
  Prog.act fun s =>
    match s.client with
    | some client => (s, if s.state ≠ .ready then .error .invalidOperation else .ok client)
    | none => (s, .error .invalidOperation)

/-- The `catch` of `ExecuteAsync`. -/
def recoverFrom (e : HostError) : Member ν Unit :=
  if e = .deus .transportDisconnected then
    modify (fun s =>
      (setState .recovering { s with lastNegotiation := none }).disposeCurrentClient) >>= fun _ =>
    Prog.handle recover (fun _ =>
      modify (fun s => setState .faulted { s with lastNegotiation := none }) >>= fun _ =>
      Prog.raise (.deus .transportDisconnected)) >>= fun _ =>
    -- the device is open again, but the operation is not retried
    Prog.raise e
  else Prog.raise e

/-- `ExecuteAsync`. -/
def execute : Member ν Unit :=
  throwIfDisposed >>= fun _ =>
  pass >>= fun _ =>
  throwIfDisposed >>= fun _ =>
  readyClient >>= fun client =>
  Prog.handle (operate client) recoverFrom

/-- What `DisconnectAsync` and `DisposeAsync` leave. -/
def leftDisconnected (s : DeviceSession ν) : DeviceSession ν :=
  setState .disconnected
    { s.disposeCurrentClient with candidate := none, lastNegotiation := none }

/-- `DisconnectAsync`. -/
def disconnect : Member ν Unit :=
  throwIfDisposed >>= fun _ =>
  pass >>= fun _ =>
  throwIfDisposed >>= fun _ =>
  modify leftDisconnected

/-- `DisposeAsync`. -/
def dispose : Member ν Unit := fun s answers =>
  if s.isDisposed = true then .returned () s answers
  else
    (enterGate >>= fun _ =>
      -- another call may have disposed the session while this one waited
      modify fun s =>
        if s.isDisposed = true then s else leftDisconnected { s with isDisposed := true }) s answers

/-- A call of a member. -/
inductive SessionCall
  | connect (candidate : DeviceCandidate)
  | execute
  | disconnect
  | dispose

/-- The member that is called, without what it returns. -/
def SessionCall.run : SessionCall → Member ν Unit
  | .connect candidate => Host.connect candidate >>= fun _ => pure ()
  | .execute => Host.execute
  | .disconnect => Host.disconnect
  | .dispose => Host.dispose

/-- The state between two calls: the gate lets one through behind the
other. -/
inductive BetweenCalls : DeviceSession ν → Prop
  | created : BetweenCalls {}
  | returned {s s' : DeviceSession ν} (call : SessionCall) (answers rest : List (Answer ν))
      (before : BetweenCalls s) (run : call.run s answers = .returned () s' rest) : BetweenCalls s'
  | threw {s s' : DeviceSession ν} (call : SessionCall) (answers rest : List (Answer ν))
      (e : HostError) (before : BetweenCalls s) (run : call.run s answers = .threw e s' rest) :
      BetweenCalls s'

/-! ## Notifications -/

/-- Where `DispatchStateNotificationAsync` is: at its predecessor, among the
subscribers it found (those called, and those to come), or at its end. -/
inductive Dispatch
  | waiting
  | calling (called rest : List ℕ)
  | completed (called : List ℕ)
  deriving DecidableEq, Repr

/-- A notification task. -/
structure NotificationTask where
  state : ConnectionState
  dispatch : Dispatch := .waiting
  deriving DecidableEq, Repr

/-- The chain of tasks, the invocation list of `StateChanged`, and what the
subscribers were called with, in order. -/
structure Notifier where
  subscribers : List ℕ := []
  tasks : List NotificationTask := []
  observed : List (ℕ × ConnectionState) := []
  deriving DecidableEq, Repr

/-- The task has ended. -/
def NotificationTask.isCompleted (t : NotificationTask) : Bool :=
  match t.dispatch with
  | .completed _ => true
  | _ => false

/-- What may happen to the notifications, in any order. -/
inductive NotifierEvent
  /-- `ScheduleStateNotification`. -/
  | schedule (st : ConnectionState)
  /-- Subscribers come or go. -/
  | subscribe (subscribers : List ℕ)
  /-- A task finds its predecessor completed and reads the invocation list. -/
  | resume (k : ℕ)
  /-- A task calls its next subscriber, which may throw. -/
  | call (k : ℕ) (throws : Bool)
  /-- A task has called them all. -/
  | finish (k : ℕ)

/-- The predecessor of a task has completed. -/
def Notifier.predecessorCompleted (n : Notifier) (k : ℕ) : Bool :=
  decide (k = 0) || (n.tasks[k - 1]?.map NotificationTask.isCompleted).getD false

/-- One event. -/
def Notifier.step (n : Notifier) : NotifierEvent → Notifier
  | .schedule st => { n with tasks := n.tasks ++ [⟨st, .waiting⟩] }
  | .subscribe subscribers => { n with subscribers := subscribers }
  | .resume k =>
    match n.tasks[k]? with
    | some ⟨st, .waiting⟩ =>
      if n.predecessorCompleted k = true then
        { n with tasks := n.tasks.set k ⟨st, .calling [] n.subscribers⟩ }
      else n
    | _ => n
  | .call k _ =>
    match n.tasks[k]? with
    | some ⟨st, .calling called (subscriber :: rest)⟩ =>
      { n with
          tasks := n.tasks.set k ⟨st, .calling (called ++ [subscriber]) rest⟩
          observed := n.observed ++ [(subscriber, st)] }
    | _ => n
  | .finish k =>
    match n.tasks[k]? with
    | some ⟨st, .calling called []⟩ => { n with tasks := n.tasks.set k ⟨st, .completed called⟩ }
    | _ => n

/-- The notifications after a list of events. -/
def Notifier.run (n : Notifier) (events : List NotifierEvent) : Notifier :=
  events.foldl Notifier.step n

/-- The changes of state that were scheduled. -/
def scheduled : List NotifierEvent → List ConnectionState
  | [] => []
  | .schedule st :: events => st :: scheduled events
  | _ :: events => scheduled events

end Host

end DeusOs
