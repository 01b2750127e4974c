import Mathlib.Data.BitVec
import Mathlib.Data.Fintype.Basic
import Mathlib.Logic.Function.Basic
import DeusOs.Common.FirstLeast

/-!
# The kernel scheduler

`scheduler.c`: the task table, the run that `scheduler_start` and
`scheduler_start_preemptive` begin, and the five entry points that change
it while it goes on. Each entry point is one step: the source runs it with
interrupts masked or at a priority of its own.

Of a task's saved frame the scheduler reads and writes the words of `r0`
and `r1` (`saved_sp[8]` and `saved_sp[9]`); the number of the `SVC`
instruction before the stacked `pc` is an argument of the step.
-/

namespace DeusOs.Kernel

open FirstLeast

/-- `SCHEDULER_TASK_COUNT`. -/
def taskCount : ℕ := 2

/-- `SCHEDULER_PRIORITY_LOWEST`: a larger number is a lower priority. -/
def priorityLowest : ℕ := 255

/-- `SCHEDULER_PRIORITY_DEFAULT`. -/
def priorityDefault : ℕ := 128

/-- `SCHEDULER_MAX_TIMEOUT_MS`. -/
def maxTimeoutMs : BitVec 32 := 0x7FFFFFFF

/-- `SCHEDULER_INITIAL_FRAME_WORDS`. -/
def initialFrameWords : ℕ := 16

/-- The place of a task in `scheduler_tasks`. -/
abbrev TaskIndex := Fin taskCount

/-- `scheduler_task_state_t`. -/
inductive TaskState
  | unused | ready | done | blocked
  deriving DecidableEq

/-- The two words of a saved frame that the scheduler uses. -/
structure Frame where
  r0 : BitVec 32
  r1 : BitVec 32
  deriving DecidableEq

/-- `scheduler_task_t`. `saved` is what `saved_sp` points at, `none` where
`scheduler_frame_pointer_valid` refuses the pointer. -/
structure Task where
  stackLow : ℕ := 0
  stackWords : ℕ := 0
  saved : Option Frame := none
  state : TaskState := .unused
  priority : ℕ := priorityDefault
  waitEvents : BitVec 32 := 0
  wakeEvents : BitVec 32 := 0
  deadlineMs : BitVec 32 := 0
  deadlineActive : Bool := false

/-- `stack_high`, in bytes. -/
def Task.stackHigh (t : Task) : ℕ := t.stackLow + 4 * t.stackWords

/-- What the last dispatch chose from: the task after which it began to
look, and the task table. -/
structure Dispatch where
  after : ℕ
  tasks : TaskIndex → Task

/-- Why a run was given up: the call of `scheduler_abort_run`. -/
inductive AbortSite
  | badEntry | badFrame | noReady | emptyRequest | badSvc | hostCurrent | noBlockedTask
  deriving DecidableEq

/-- The statics of `scheduler.c`. `lastDispatch` and `abortedAt` are kept
for the statements: nothing reads them. -/
structure Scheduler where
  tasks : TaskIndex → Task := fun _ => {}
  currentIndex : Option TaskIndex := none
  active : Bool := false
  completedCount : ℕ := 0
  targetCount : ℕ := 0
  runResult : Bool := false
  preemptEnabled : Bool := false
  preemptSwitchCount : ℕ := 0
  pendingEvents : BitVec 32 := 0
  idleWaitCount : ℕ := 0
  nowMs : BitVec 32 := 0
  lastDispatch : Option Dispatch := none
  abortedAt : Option AbortSite := none

namespace Scheduler

/-- The scheduler with one task replaced. -/
def setTask (s : Scheduler) (i : TaskIndex) (t : Task) : Scheduler :=
  { s with tasks := Function.update s.tasks i t }

/-! ## Before a run -/

/-- `scheduler_init`; `scheduler_now_ms` stays. -/
def init (s : Scheduler) : Option Scheduler :=
  if s.active = true then none else some { nowMs := s.nowMs }

/-- `scheduler_task_priority_set`. -/
def taskPrioritySet (s : Scheduler) (index : ℕ) (priority : ℕ) : Scheduler :=
  if h : index < taskCount then
    if priorityLowest < priority ∨ s.active = true then s
    else s.setTask ⟨index, h⟩ { s.tasks ⟨index, h⟩ with priority := priority }
  else s

/-- `scheduler_task_stack_bind`, of the stack at the address `stackLow`. The
pointer it saves, `stack_high`, is not one to a frame. -/
def taskStackBind (s : Scheduler) (index stackLow stackWords : ℕ) : Scheduler :=
  if h : index < taskCount then
    if stackLow = 0 ∨ stackWords < initialFrameWords ∨ s.active = true ∨
        stackLow % 8 ≠ 0 ∨ (stackLow + 4 * stackWords) % 8 ≠ 0 ∨
        (s.tasks ⟨index, h⟩).state ≠ .unused then s
    else
      s.setTask ⟨index, h⟩
        { s.tasks ⟨index, h⟩ with
          stackLow := stackLow, stackWords := stackWords, saved := none,
          waitEvents := 0, wakeEvents := 0, deadlineMs := 0, deadlineActive := false }
  else s

/-- `scheduler_task_prepare`, with the address of the entry. -/
def taskPrepare (s : Scheduler) (index entry : ℕ) (argument : BitVec 32) : Scheduler :=
  if h : index < taskCount then
    if entry = 0 ∨ s.active = true ∨ (s.tasks ⟨index, h⟩).stackLow = 0 ∨
        (s.tasks ⟨index, h⟩).stackWords < initialFrameWords ∨
        (s.tasks ⟨index, h⟩).stackHigh % 8 ≠ 0 then s
    else
      s.setTask ⟨index, h⟩
        { s.tasks ⟨index, h⟩ with
          saved := some { r0 := argument, r1 := 0 }, state := .ready,
          waitEvents := 0, wakeEvents := 0, deadlineMs := 0, deadlineActive := false }
  else s

/-! ## Choosing a task -/

/-- The order in which the tasks are looked at after `after`. -/
def cyclic (after : ℕ) : List TaskIndex :=
  (List.range taskCount).map fun offset =>
    ⟨(after + (offset + 1)) % taskCount, Nat.mod_lt _ (by decide)⟩

/-- `scheduler_select_next_ready`: in cyclic order, a READY task of a
strictly smaller priority value replaces the selected one. -/
def selectNextReady (tasks : TaskIndex → Task) (after : ℕ) : Option TaskIndex :=
  select (fun i => (tasks i).state = .ready) (fun i => (tasks i).priority) (cyclic after)
    none (priorityLowest + 1)

/-- `scheduler_has_blocked_tasks`. -/
def hasBlockedTasks (s : Scheduler) : Bool :=
  decide (∃ i, (s.tasks i).state = .blocked)

/-- `scheduler_abort_run`. -/
def abortRun (site : AbortSite) (s : Scheduler) : Scheduler :=
  { s with
    preemptEnabled := false, active := false, currentIndex := none, runResult := false,
    abortedAt := some site }

/-- `scheduler_start_mode`, up to its first `svc #0`. -/
def startMode (preemptive : Bool) (s : Scheduler) : Option Scheduler :=
  if s.active = true then none
  else if ∃ i, (s.tasks i).state = .ready ∧ (s.tasks i).saved = none then none
  else if Finset.card (Finset.univ.filter fun i => (s.tasks i).state = .ready) = 0 then none
  else
    some { s with
      currentIndex := none, completedCount := 0,
      targetCount := Finset.card (Finset.univ.filter fun i => (s.tasks i).state = .ready),
      runResult := false, preemptEnabled := preemptive, preemptSwitchCount := 0,
      active := true }

/-! ## Supervisor calls -/

/-- The pointer an exception entry hands over: null, refused by
`scheduler_frame_pointer_valid`, or one to a frame. -/
inductive SavedSp
  | null | outside | frame (f : Frame)
  deriving DecidableEq

/-- `scheduler_svc_dispatch` entered from the host thread
(`(exc_return & 4) == 0`). -/
def svcStart (s : Scheduler) (savedSp : SavedSp) : Scheduler × Option Frame :=
  if s.active = false ∨ s.currentIndex ≠ none ∨ savedSp ≠ .null then
    (abortRun .badEntry s, none)
  else
    match selectNextReady s.tasks (taskCount - 1) with
    | none => (abortRun .noReady s, none)
    | some next =>
      match (s.tasks next).saved with
      | none => (abortRun .badFrame s, none)
      | some f =>
        ({ s with currentIndex := some next, lastDispatch := some ⟨taskCount - 1, s.tasks⟩ },
          some f)

/-- What a request leaves to do: give the run up, return to the caller at
once, or choose the next task. -/
inductive Request
  | abort (site : AbortSite)
  | resume (s : Scheduler) (f : Frame)
  | reschedule (s : Scheduler)

/-- A wait that ends at once: the caller's waits are cleared and `result`
is patched into its frame. -/
def resumeWith (s : Scheduler) (i : TaskIndex) (f : Frame) (matched result : BitVec 32) :
    Request :=
  .resume
    ({ s with pendingEvents := s.pendingEvents &&& ~~~matched }.setTask i
      { s.tasks i with
        saved := some { f with r0 := result }, waitEvents := 0, wakeEvents := matched,
        deadlineMs := 0, deadlineActive := false })
    { f with r0 := result }

/-- `SCHEDULER_SVC_YIELD`. -/
def svcYield (s : Scheduler) (i : TaskIndex) (f : Frame) : Request :=
  .reschedule (s.setTask i { s.tasks i with saved := some f })

/-- `SCHEDULER_SVC_EXIT`. -/
def svcExit (s : Scheduler) (i : TaskIndex) (f : Frame) : Request :=
  .reschedule
    ({ s with completedCount := s.completedCount + 1 }.setTask i
      { s.tasks i with
        saved := some f, state := .done, waitEvents := 0, wakeEvents := 0, deadlineMs := 0,
        deadlineActive := false })

/-- `SCHEDULER_SVC_WAIT_EVENTS`. -/
def svcWaitEvents (s : Scheduler) (i : TaskIndex) (f : Frame) : Request :=
  if f.r0 = 0 then .abort .emptyRequest
  else if s.pendingEvents &&& f.r0 ≠ 0 then
    resumeWith s i f (s.pendingEvents &&& f.r0) (s.pendingEvents &&& f.r0)
  else
    .reschedule
      (s.setTask i
        { s.tasks i with
          saved := some f, waitEvents := f.r0, wakeEvents := 0, deadlineMs := 0,
          deadlineActive := false, state := .blocked })

/-- `SCHEDULER_SVC_TIMED_BLOCK`: an event wait with a timeout, or a sleep
where no event is requested. -/
def svcTimedBlock (s : Scheduler) (i : TaskIndex) (f : Frame) : Request :=
  if f.r0 ≠ 0 ∧ s.pendingEvents &&& f.r0 ≠ 0 then
    resumeWith s i f (s.pendingEvents &&& f.r0) (s.pendingEvents &&& f.r0)
  else if f.r1 = 0 then resumeWith s i f 0 (if f.r0 = 0 then 1 else 0)
  else if maxTimeoutMs < f.r1 then resumeWith s i f 0 0
  else
    .reschedule
      (s.setTask i
        { s.tasks i with
          saved := some f, waitEvents := f.r0, wakeEvents := 0,
          deadlineMs := s.nowMs + f.r1, deadlineActive := true, state := .blocked })

/-- The request of an `SVC` instruction with this number. -/
def svcRequest (s : Scheduler) (i : TaskIndex) (number : ℕ) (f : Frame) : Request :=
  match number with
  | 1 => svcYield s i f
  | 2 => svcExit s i f
  | 3 => svcWaitEvents s i f
  | 4 => svcTimedBlock s i f
  | _ => .abort .badSvc

/-- The end of `scheduler_svc_dispatch`: choose the task after `i`. -/
def reschedule (s : Scheduler) (i : TaskIndex) : Scheduler × Option Frame :=
  match selectNextReady s.tasks i with
  | none =>
    if s.completedCount = s.targetCount then
      ({ s with currentIndex := none, preemptEnabled := false, active := false,
                runResult := true }, none)
    else if hasBlockedTasks s = false then
      (abortRun .noBlockedTask { s with currentIndex := none }, none)
    else ({ s with currentIndex := none }, none)
  | some next =>
    match (s.tasks next).saved with
    | none => (abortRun .badFrame s, none)
    | some f =>
      ({ s with currentIndex := some next, lastDispatch := some ⟨i, s.tasks⟩ }, some f)

/-- `scheduler_svc_dispatch` entered from a task. -/
def svcTask (s : Scheduler) (number : ℕ) (savedSp : SavedSp) : Scheduler × Option Frame :=
  match s.active, s.currentIndex, savedSp with
  | true, some i, .frame f =>
    match svcRequest s i number f with
    | .abort site => (abortRun site s, none)
    | .resume t g => (t, some g)
    | .reschedule t => reschedule t i
  | true, some _, .outside => (abortRun .badFrame s, none)
  | _, _, _ => (abortRun .badEntry s, none)

/-! ## Preemption, events and time -/

/-- The end of `scheduler_pendsv_dispatch`: a READY task that preempts the
one at `i`, or that one itself. -/
def preempt (s : Scheduler) (i : TaskIndex) : Scheduler × Option Frame :=
  match selectNextReady s.tasks i with
  | none => (abortRun .noReady s, none)
  | some next =>
    match (s.tasks next).saved with
    | none => (abortRun .badFrame s, none)
    | some g =>
      ({ s with
          currentIndex := some next, lastDispatch := some ⟨i, s.tasks⟩,
          preemptSwitchCount :=
            if next = i then s.preemptSwitchCount else s.preemptSwitchCount + 1 }, some g)

/-- `scheduler_pendsv_dispatch`. -/
def pendsvDispatch (s : Scheduler) (savedSp : SavedSp) : Scheduler × Option Frame :=
  match s.active, s.preemptEnabled, s.currentIndex, savedSp with
  | true, true, some i, .frame f => preempt (s.setTask i { s.tasks i with saved := some f }) i
  | true, true, some _, .outside => (abortRun .badFrame s, none)
  | _, _, _, _ => (abortRun .badEntry s, none)

/-- A wake: the task is READY, and its wait returns `result`. -/
def wakeTask (t : Task) (matched result : BitVec 32) : Task :=
  { t with
    waitEvents := 0, wakeEvents := matched, deadlineMs := 0, deadlineActive := false,
    saved := t.saved.map fun f => { f with r0 := result }, state := .ready }

/-- The bits a signal gives to a task. -/
def matchedEvents (pending : BitVec 32) (t : Task) : BitVec 32 :=
  if t.state = .blocked then t.waitEvents &&& pending else 0

/-- The loop body of `scheduler_event_signal`. -/
def signalTask (pending : BitVec 32) (t : Task) : Task :=
  if matchedEvents pending t ≠ 0 then
    wakeTask t (matchedEvents pending t) (matchedEvents pending t)
  else t

/-- `consumed_events`. -/
def consumedEvents (pending : BitVec 32) (tasks : TaskIndex → Task) : BitVec 32 :=
  (List.finRange taskCount).foldl (fun consumed i => consumed ||| matchedEvents pending (tasks i)) 0

/-- `scheduler_event_signal`. -/
def eventSignal (events : BitVec 32) (s : Scheduler) : Scheduler :=
  if events = 0 ∨ s.active = false then s
  else
    { s with
      tasks := fun i => signalTask (s.pendingEvents ||| events) (s.tasks i)
      pendingEvents := (s.pendingEvents ||| events) &&&
        ~~~consumedEvents (s.pendingEvents ||| events) s.tasks }

/-- `scheduler_time_reached`: the difference as a signed number. -/
def timeReached (nowMs deadlineMs : BitVec 32) : Bool :=
  decide (0 ≤ (nowMs - deadlineMs).toInt)

/-- The tick finds the task's deadline reached. -/
def Expires (nowMs : BitVec 32) (t : Task) : Prop :=
  t.state = .blocked ∧ t.deadlineActive = true ∧ timeReached nowMs t.deadlineMs = true

instance (nowMs : BitVec 32) (t : Task) : Decidable (Expires nowMs t) :=
  inferInstanceAs (Decidable (_ ∧ _ ∧ _))

/-- `sleep_wait`: a sleep that ends succeeds, an event wait that ends in
time-out has no events. -/
def sleepWait (t : Task) : BitVec 32 := if t.waitEvents = 0 then 1 else 0

/-- The loop body of `scheduler_tick`. -/
def tickTask (nowMs : BitVec 32) (t : Task) : Task :=
  if Expires nowMs t then wakeTask t 0 (sleepWait t) else t

/-- `scheduler_tick`. -/
def tick (nowMs : BitVec 32) (s : Scheduler) : Scheduler :=
  if s.active = true then
    { s with nowMs := nowMs, tasks := fun i => tickTask nowMs (s.tasks i) }
  else { s with nowMs := nowMs }

/-- One turn of the loop of `scheduler_start_mode` on the host thread. -/
def hostLoop (s : Scheduler) : Scheduler × Option Frame :=
  if s.currentIndex ≠ none then (abortRun .hostCurrent s, none)
  else if (selectNextReady s.tasks (taskCount - 1)).isSome = true then svcStart s .null
  else if hasBlockedTasks s = true then
    ({ s with idleWaitCount := s.idleWaitCount + 1 }, none)
  else (abortRun .noBlockedTask s, none)

/-! ## Runs -/

/-- What happens next. -/
inductive Event
  | svcHost (savedSp : SavedSp)
  | svc (number : ℕ) (savedSp : SavedSp)
  | pendsv (savedSp : SavedSp)
  | signal (events : BitVec 32)
  | tick (nowMs : BitVec 32)
  | host

/-- One step, with the frame it returns into, if any. -/
def dispatch : Event → Scheduler → Scheduler × Option Frame
  | .svcHost sp, s => svcStart s sp
  | .svc number sp, s => svcTask s number sp
  | .pendsv sp, s => pendsvDispatch s sp
  | .signal events, s => (eventSignal events s, none)
  | .tick now, s => (tick now s, none)
  | .host, s => hostLoop s

/-- One step. -/
def step (ev : Event) (s : Scheduler) : Scheduler := (dispatch ev s).1

/-- A run is over once `scheduler_active` is clear. Interrupts still come
then, and the scheduler is entered no more. -/
def MayOccur : Event → Scheduler → Prop
  | .signal _, _ => True
  | .tick _, _ => True
  | _, s => s.active = true

/-- What the caller does between `scheduler_init` and the start. -/
inductive SetupCall
  | bind (index stackLow stackWords : ℕ)
  | priority (index priority : ℕ)
  | prepare (index entry : ℕ) (argument : BitVec 32)

/-- One call before the start. -/
def setup (s : Scheduler) : SetupCall → Scheduler
  | .bind index stackLow stackWords => taskStackBind s index stackLow stackWords
  | .priority index priority => taskPrioritySet s index priority
  | .prepare index entry argument => taskPrepare s index entry argument

/-- A run that has just been started, cooperative or preemptive, after
`scheduler_init` and any calls that bind, prepare and rank tasks. -/
def Started (s₀ : Scheduler) : Prop :=
  ∃ (s s₁ : Scheduler) (calls : List SetupCall) (preemptive : Bool),
    init s = some s₁ ∧ startMode preemptive (calls.foldl setup s₁) = some s₀

/-- `result` of `scheduler_start_mode`, once its loop has ended. -/
def startResult (s : Scheduler) : Bool := s.currentIndex.isNone && s.runResult

/-! ## The calls of a task -/

/-- What a library call does: return at once, or trap with `r0` and `r1`. -/
inductive Call
  | returns (result : BitVec 32)
  | svc (number : ℕ) (r0 r1 : BitVec 32)
  deriving DecidableEq

/-- `scheduler_wait_events`; `r1` is whatever the caller had there. -/
def waitEventsCall (events r1 : BitVec 32) : Call :=
  if events = 0 then .returns 0 else .svc 3 events r1

/-- `scheduler_wait_events_timeout`. -/
def waitEventsTimeoutCall (events timeoutMs : BitVec 32) : Call :=
  if events = 0 ∨ maxTimeoutMs < timeoutMs then .returns 0 else .svc 4 events timeoutMs

/-- `scheduler_sleep_ms`. -/
def sleepMsCall (durationMs : BitVec 32) : Call :=
  if durationMs = 0 then .returns 1
  else if maxTimeoutMs < durationMs then .returns 0
  else .svc 4 0 durationMs

end Scheduler

end DeusOs.Kernel
