import DeusOs.Console.Receive
import DeusOs.Kernel.Progress

/-!
# The console — no byte waits unseen

The console task looks into its ring, finds it empty and waits; a byte may come
at any point of this, and what wakes the task is an event that is signalled a
moment after the byte is published. In every run, whatever the order of the
interrupts, of the two tasks and of the commands the console executes, the
console waits with an empty ring, or with a signal on its way, and neither task
ever returns (`production_serves`).
-/

namespace DeusOs

namespace Console

open Kernel (Framed Frame Invariant IsInterrupt Latched Scheduler Signals Delivers Consumes Task
  TaskIndex TimedWait WaitsOn Wakes active_interrupt interrupt_task timedBlock_spec
  wakes_signal_iff)
open Kernel.Scheduler (Call Event Started sleepMsCall waitEventsTimeoutCall)
open LineEditor (run)

variable {b : Boot} {s : Production} {sched sched' : Scheduler} {unread : List UInt8}
  {signalling : Bool} {point : ConsolePoint}

/-! ## What the tasks keep -/

/-- The console task, between two steps. On the way to its wait, the event is
latched for what has come; in its wait, nothing has come. -/
def ConsoleTask (b : Boot) (sched : Scheduler) (unread : List UInt8) (signalling : Bool) :
    ConsolePoint → Prop
  | .starting => (sched.tasks consoleIndex).state = .ready ∧
      result sched consoleIndex = b.consoleCookie
  | .serving => ¬ WaitsOn sched consoleIndex 0 ∧
      (unread ≠ [] → signalling = true ∨ Latched sched 0)
  | .waiting =>
    ((sched.tasks consoleIndex).state = .blocked →
      (sched.tasks consoleIndex).waitEvents = consoleRxEvents ∧
        (unread ≠ [] → signalling = true)) ∧
    ((sched.tasks consoleIndex).state = .ready →
      result sched consoleIndex &&& ~~~consoleRxEvents = 0)
  | .returned => False
  | _ => True

/-- The heartbeat task, between two steps: it waits for no event. -/
structure HeartbeatTask (b : Boot) (sched : Scheduler) (point : HeartbeatPoint) : Prop where
  quiet : (sched.tasks heartbeatIndex).waitEvents = 0
  starts : point = .starting → (sched.tasks heartbeatIndex).state = .ready ∧
    result sched heartbeatIndex = b.heartbeatCookie
  sleeps : point = .sleeping → (sched.tasks heartbeatIndex).state = .ready →
    result sched heartbeatIndex ≠ 0
  stays : point ≠ .returned

/-- The machine, between two steps. -/
structure Inv (b : Boot) (s : Production) : Prop where
  invariant : Invariant s.scheduler
  framed : Framed s.scheduler
  active : s.scheduler.active = true
  received : Received s
  console : ConsoleTask b s.scheduler s.unread s.signalling s.console
  heartbeat : HeartbeatTask b s.scheduler s.heartbeat

theorem result_saved {i : TaskIndex} {f : Frame} (h : (sched.tasks i).saved = some f) :
    result sched i = f.r0 := by
  rw [result, h]

theorem result_congr {i : TaskIndex} (h : sched'.tasks i = sched.tasks i) :
    result sched' i = result sched i := by
  rw [result, result, h]

/-- A scheduler that keeps the task and its event keeps the console. -/
theorem ConsoleTask.congr (h : ConsoleTask b sched unread signalling point)
    (htask : sched'.tasks consoleIndex = sched.tasks consoleIndex)
    (hlatched : Latched sched 0 → Latched sched' 0) :
    ConsoleTask b sched' unread signalling point := by
  have hresult := result_congr htask
  cases point with
  | starting =>
    rw [ConsoleTask, htask, hresult]
    exact h
  | serving =>
    refine ⟨?_, fun hne => (h.2 hne).imp id hlatched⟩
    rw [WaitsOn, htask]
    exact h.1
  | waiting =>
    rw [ConsoleTask, htask, hresult]
    exact h
  | returned => exact h
  | polling => trivial
  | loading tail => trivial
  | storing tail byte => trivial
  | feeding => trivial

/-- A scheduler that keeps the task keeps the heartbeat. -/
theorem HeartbeatTask.congr {point : HeartbeatPoint} (h : HeartbeatTask b sched point)
    (htask : sched'.tasks heartbeatIndex = sched.tasks heartbeatIndex) :
    HeartbeatTask b sched' point := by
  have hresult := result_congr htask
  refine ⟨?_, ?_, ?_, h.stays⟩
  · rw [htask]
    exact h.quiet
  · rw [htask, hresult]
    exact h.starts
  · rw [htask, hresult]
    exact h.sleeps

/-! ## Interrupts -/

/-- The event of the ring, in a mask. -/
theorem getLsbD_consoleRxEvents : consoleRxEvents.getLsbD 0 = true := by decide

theorem and_uartRxEvent {events : BitVec 32} : events &&& uartRxEvent = 0 ↔ events.getLsbD 0 = false := by
  have hbit : uartRxEvent = BitVec.twoPow 32 0 := by decide
  rw [hbit, BitVec.and_twoPow]
  cases events.getLsbD 0
  · exact ⟨fun _ => rfl, fun _ => rfl⟩
  · refine ⟨fun h => ?_, fun h => ?_⟩
    · exact absurd h (by decide)
    · cases h

theorem index_cases : ∀ i : TaskIndex, i = consoleIndex ∨ i = heartbeatIndex := by decide

/-- Nobody but the console waits for an event. -/
theorem no_waiter (hconsole : ¬ WaitsOn sched consoleIndex 0)
    (hquiet : (sched.tasks heartbeatIndex).waitEvents = 0) : ¬ ∃ i, WaitsOn sched i 0 := by
  rintro ⟨i, hwaits⟩
  rcases index_cases i with rfl | rfl
  · exact hconsole hwaits
  · rw [WaitsOn, hquiet] at hwaits
    exact absurd hwaits.2 (by decide)

/-- **An interrupt keeps the heartbeat:** a tick that ends its sleep says so. No
other interrupt wakes it, since it waits for no event. -/
theorem HeartbeatTask.interrupt {point : HeartbeatPoint} (h : HeartbeatTask b sched point)
    (hinv : Invariant sched) (hact : sched.active = true) {ev : Event} (hev : IsInterrupt ev) :
    HeartbeatTask b (Kernel.Scheduler.step ev sched) point := by
  rcases interrupt_task hinv hev heartbeatIndex with ⟨-, hsame⟩ | ⟨hw, hready, hwait, hsaved⟩
  · exact h.congr hsame
  have hblocked := Kernel.blocked_of_wakes hw
  refine ⟨hwait, fun hstart => ?_, fun _ _ => ?_, h.stays⟩
  · rw [(h.starts hstart).1] at hblocked
    cases hblocked
  cases ev with
  | signal events =>
    have hne := ((wakes_signal_iff hinv hact events).1 hw).2
    rw [h.quiet] at hne
    exact absurd BitVec.zero_and hne
  | tick now =>
    have hframe := hinv.toBooks.sound heartbeatIndex |>.framed hblocked
    obtain ⟨f, hf⟩ := Option.ne_none_iff_exists'.1 hframe
    rw [hf, h.quiet] at hsaved
    rw [result_saved hsaved]
    change (if (0 : BitVec 32) = 0 then (1 : BitVec 32) else 0) ≠ 0
    decide
  | svcHost sp => exact absurd hev id
  | svc number sp => exact absurd hev id
  | pendsv sp => exact absurd hev id
  | host => exact absurd hev id

/-- **An interrupt keeps the console:** what ends its wait is something that it
waits for. `signalling'` is false only where the interrupt signals the event. -/
theorem ConsoleTask.interrupt (h : ConsoleTask b sched unread signalling point)
    (hinv : Invariant sched) (hact : sched.active = true)
    (hquiet : (sched.tasks heartbeatIndex).waitEvents = 0) {ev : Event} (hev : IsInterrupt ev)
    {signalling' : Bool} (hsignal : signalling = true → signalling' = true ∨ Signals 0 ev sched) :
    ConsoleTask b (Kernel.Scheduler.step ev sched) unread signalling' point := by
  have hconsumes : ¬ Consumes 0 ev sched := by
    cases ev with
    | svc number sp => exact absurd hev id
    | svcHost sp => exact id
    | pendsv sp => exact id
    | signal events => exact id
    | tick now => exact id
    | host => exact id
  have htask := interrupt_task hinv hev consoleIndex
  cases point with
  | starting =>
    rcases htask with ⟨-, hsame⟩ | ⟨hw, -⟩
    · rw [ConsoleTask, result_congr hsame, hsame]
      exact h
    · have hblocked := Kernel.blocked_of_wakes hw
      rw [h.1] at hblocked
      cases hblocked
  | serving =>
    obtain ⟨hwaits, hevent⟩ := h
    refine ⟨?_, fun hne => ?_⟩
    · rcases htask with ⟨-, hsame⟩ | ⟨-, hready, -⟩
      · rw [WaitsOn, hsame]
        exact hwaits
      · rintro ⟨hblocked, -⟩
        rw [hready] at hblocked
        cases hblocked
    have hdelivers : ¬ Delivers 0 ev sched := fun hd => no_waiter hwaits hquiet hd.2
    have hlatched := fun hor => (Kernel.latched_step hinv ev).2 ⟨hor, hdelivers, hconsumes⟩
    rcases hevent hne with hon | hold
    · exact (hsignal hon).imp id fun hs => hlatched (Or.inr hs)
    · exact Or.inr (hlatched (Or.inl hold))
  | waiting =>
    obtain ⟨hwaits, hreturns⟩ := h
    rcases htask with ⟨hw, hsame⟩ | ⟨hw, hready, -, hsaved⟩
    · refine ⟨fun hblocked => ?_, fun hready => ?_⟩
      · rw [hsame] at hblocked ⊢
        obtain ⟨hevents, hcome⟩ := hwaits hblocked
        refine ⟨hevents, fun hne => (hsignal (hcome hne)).resolve_right fun hs => hw ?_⟩
        -- a signal of the event would have woken the task
        cases ev with
        | signal events =>
          refine (wakes_signal_iff hinv hact events).2 ⟨hblocked, fun hzero => ?_⟩
          have hbit : (consoleRxEvents &&& events).getLsbD 0 = true := by
            rw [BitVec.getLsbD_and, getLsbD_consoleRxEvents, hs.2]
            rfl
          rw [hevents] at hzero
          rw [hzero] at hbit
          cases hbit
        | svcHost sp => exact absurd hs id
        | svc number sp => exact absurd hs id
        | pendsv sp => exact absurd hs id
        | tick now => exact absurd hs id
        | host => exact absurd hs id
      · rw [result_congr hsame]
        rw [hsame] at hready
        exact hreturns hready
    · have hblocked := Kernel.blocked_of_wakes hw
      refine ⟨fun hblocked' => ?_, fun _ => ?_⟩
      · rw [hready] at hblocked'
        cases hblocked'
      obtain ⟨f, hf⟩ := Option.ne_none_iff_exists'.1 ((hinv.sound consoleIndex).framed hblocked)
      rw [hf, (hwaits hblocked).1] at hsaved
      rw [result_saved hsaved]
      cases ev with
      | signal events =>
        change consoleRxEvents &&& events &&& ~~~consoleRxEvents = 0
        rw [BitVec.and_comm consoleRxEvents]
        exact Kernel.and_and_not _ _
      | tick now =>
        change (if consoleRxEvents = 0 then 1 else 0) &&& ~~~consoleRxEvents = 0
        decide
      | svcHost sp => exact absurd hev id
      | svc number sp => exact absurd hev id
      | pendsv sp => exact absurd hev id
      | host => exact absurd hev id
  | returned => exact h
  | polling => trivial
  | loading tail => trivial
  | storing tail byte => trivial
  | feeding => trivial

/-- **An interrupt keeps the machine.** Where the receiver is in the middle of
signalling, the event is on its way, or this is the signal. -/
theorem Inv.interrupt (h : Inv b s) (ev : Event) (hev : IsInterrupt ev) {signalling : Bool}
    (hsignal : s.signalling = true → signalling = true ∨ Signals 0 ev s.scheduler) :
    Inv b { s with scheduler := Kernel.Scheduler.step ev s.scheduler, signalling } := by
  have hmay : Kernel.Scheduler.MayOccur ev s.scheduler := by
    cases ev with
    | signal events => trivial
    | tick now => trivial
    | svcHost sp => exact absurd hev id
    | svc number sp => exact absurd hev id
    | pendsv sp => exact absurd hev id
    | host => exact absurd hev id
  exact
    { invariant := Kernel.invariant_step ev _ h.invariant hmay
      framed := Kernel.framed_step h.invariant h.framed ev
      active := active_interrupt h.active hev
      received := h.received.moved h.received.inHand
      console := h.console.interrupt h.invariant h.active h.heartbeat.quiet hev hsignal
      heartbeat := h.heartbeat.interrupt h.invariant h.active hev }

/-! ## Calls -/

/-- A library call that waits for nothing returns at once, and any other traps. -/
theorem trap_of_isWait {events : BitVec 32} {call : Call} (h : Production.IsWait events call)
    (sched : Scheduler) : trap call sched = sched ∨
      ∃ ms, trap call sched = Kernel.Scheduler.step (.svc 4 (.frame ⟨events, ms⟩)) sched := by
  obtain ⟨ms, rfl | ⟨rfl, rfl⟩⟩ := h
  · unfold waitEventsTimeoutCall
    split
    · exact Or.inl rfl
    · exact Or.inr ⟨ms, rfl⟩
  · unfold sleepMsCall
    split
    · exact Or.inl rfl
    split
    · exact Or.inl rfl
    · exact Or.inr ⟨ms, rfl⟩

/-- **A wait of the console task** keeps what the two tasks keep, where the
console may be at the point that it leaves it at. -/
theorem Inv.waits (h : Inv b s) {events : BitVec 32}
    (hwait : TimedWait events consoleIndex s.scheduler sched') {point : ConsolePoint}
    (hhand : InHand s.usart.rxTail s.unread point)
    (hconsole : ConsoleTask b sched' s.unread s.signalling point) :
    Inv b { s with scheduler := sched', console := point } where
  invariant := hwait.invariant
  framed := hwait.framed
  active := hwait.active
  received := h.received.moved hhand
  console := hconsole
  heartbeat := h.heartbeat.congr (hwait.others _ (by decide))

/-- **The console blocks with an empty ring,** or finds the event latched. This
is where a wake-up would be lost: a byte that came behind the last look has
signalled. -/
theorem consoleTask_waiting (hsignalling : signalling = false)
    (h : ConsoleTask b sched unread signalling .serving)
    (hwait : TimedWait consoleRxEvents consoleIndex sched sched') :
    ConsoleTask b sched' unread signalling .waiting := by
  rcases hwait.task with ⟨hblocked, hevents, hnone⟩ | ⟨hready, g, hsaved, hresult⟩
  · refine ⟨fun _ => ⟨hevents, fun hne => ?_⟩, fun hready => ?_⟩
    · have hlatched : Latched sched 0 := by
        rcases h.2 hne with hon | hlatched
        · rw [hsignalling] at hon
          cases hon
        · exact hlatched
      have hbit : (sched.pendingEvents &&& consoleRxEvents).getLsbD 0 = true := by
        rw [BitVec.getLsbD_and, getLsbD_consoleRxEvents, hlatched]
        rfl
      rw [hnone] at hbit
      cases hbit
    · rw [hblocked] at hready
      cases hready
  · refine ⟨fun hblocked => ?_, fun _ => ?_⟩
    · rw [hready] at hblocked
      cases hblocked
    · rw [result_saved hsaved]
      exact hresult (by decide)

/-- **A step of the console task.** It goes on behind its start only where the
bridge was initialised, as the source has it. -/
theorem Inv.consoleStep (h : Inv b s) (hbridge : b.bridgeReady = true)
    (hruns : s.Runs consoleIndex) : Inv b (s.consoleStep b) := by
  obtain ⟨hsignalling, hact, hcur⟩ := hruns
  have hready := (h.invariant.current _ hcur).1
  have htask := h.console
  have hreceived := h.received.consoleStep b
  -- no call: the scheduler stays
  have hstay : ∀ {s' : Production}, Received s' → s'.scheduler = s.scheduler →
      s'.heartbeat = s.heartbeat →
      ConsoleTask b s.scheduler s'.unread s'.signalling s'.console → Inv b s' := by
    intro s' hreceived' hsched hheart hconsole'
    refine ⟨?_, ?_, ?_, hreceived', ?_, ?_⟩
    · rw [hsched]
      exact h.invariant
    · rw [hsched]
      exact h.framed
    · rw [hsched]
      exact h.active
    · rw [hsched]
      exact hconsole'
    · rw [hsched, hheart]
      exact h.heartbeat
  unfold Production.consoleStep at hreceived ⊢
  cases hpoint : s.console with
  | starting =>
    rw [hpoint] at htask hreceived
    have hgo : ¬ (result s.scheduler consoleIndex ≠ b.consoleCookie ∨ b.bridgeReady = false) := by
      rw [htask.2, hbridge]
      simp
    dsimp only at hreceived ⊢
    rw [if_neg hgo] at hreceived ⊢
    exact hstay hreceived rfl rfl trivial
  | polling =>
    rw [hpoint] at hreceived
    dsimp only at hreceived ⊢
    have hload := loadTail_spec h.received.ring
    cases htail : s.usart.loadTail with
    | none =>
      rw [htail] at hreceived hload
      have hempty : s.unread = [] := by
        by_contra hne
        rw [if_neg hne] at hload
        cases hload
      refine hstay hreceived rfl rfl ⟨?_, fun hne => absurd hempty hne⟩
      rintro ⟨hblocked, -⟩
      rw [hready] at hblocked
      cases hblocked
    | some tail =>
      rw [htail] at hreceived
      exact hstay hreceived rfl rfl trivial
  | loading tail =>
    rw [hpoint] at hreceived
    exact hstay hreceived rfl rfl trivial
  | storing tail byte =>
    rw [hpoint] at hreceived
    exact hstay hreceived rfl rfl trivial
  | feeding =>
    rw [hpoint] at hreceived
    exact hstay hreceived rfl rfl trivial
  | serving =>
    rw [hpoint] at htask
    have hcall : waitEventsTimeoutCall consoleRxEvents bootDesktopUiPollMs =
        .svc 4 consoleRxEvents bootDesktopUiPollMs := by decide
    have hwait := timedBlock_spec h.invariant h.framed hact hcur
      ⟨consoleRxEvents, bootDesktopUiPollMs⟩
    dsimp only
    rw [hcall]
    exact h.waits hwait trivial (consoleTask_waiting hsignalling htask hwait)
  | waiting =>
    rw [hpoint] at htask hreceived
    have hevents := htask.2 hready
    dsimp only at hreceived ⊢
    rw [if_neg (not_not.2 hevents)] at hreceived ⊢
    exact hstay hreceived rfl rfl trivial
  | returned =>
    rw [hpoint] at htask
    exact absurd htask id

/-- **A command that the console executes** may sleep or wait. It must not ask
for the receiver's event where the console is about to wait for it. -/
theorem Inv.command (h : Inv b s) {call : Call} (hruns : s.Runs consoleIndex)
    {events : BitVec 32} (hcall : Production.IsWait events call)
    (hpoint : s.console = .feeding ∨ s.console = .serving ∧ events &&& uartRxEvent = 0) :
    Inv b { s with scheduler := trap call s.scheduler } := by
  obtain ⟨-, hact, hcur⟩ := hruns
  rcases trap_of_isWait hcall s.scheduler with heq | ⟨ms, heq⟩
  · rw [heq]
    exact h
  rw [heq]
  have hwait := timedBlock_spec h.invariant h.framed hact hcur ⟨events, ms⟩
  refine h.waits hwait h.received.inHand ?_
  rcases hpoint with hfeeding | ⟨hserving, hevents⟩
  · rw [hfeeding]
    trivial
  · have hbit := and_uartRxEvent.1 hevents
    have htask := h.console
    rw [hserving] at htask ⊢
    refine ⟨?_, fun hne => (htask.2 hne).imp id fun hold => (hwait.latched 0).2 ⟨hold, hbit⟩⟩
    rintro ⟨hblocked, hwaits⟩
    rcases hwait.task with ⟨-, hasked, -⟩ | ⟨hready, -⟩
    · rw [hasked, hbit] at hwaits
      cases hwaits
    · rw [hready] at hblocked
      cases hblocked

/-- **A step of the heartbeat task,** which blinks and sleeps, and never
returns. -/
theorem Inv.heartbeatStep (h : Inv b s) (hruns : s.Runs heartbeatIndex) :
    Inv b (s.heartbeatStep b) := by
  obtain ⟨-, hact, hcur⟩ := hruns
  have hready := (h.invariant.current _ hcur).1
  have hheart := h.heartbeat
  have hgoes : HeartbeatTask b s.scheduler .running :=
    ⟨hheart.quiet, fun hstart => absurd hstart (by simp), fun hsleep => absurd hsleep (by simp),
      by simp⟩
  have hgo : Inv b { s with heartbeat := .running } :=
    ⟨h.invariant, h.framed, h.active, h.received.moved h.received.inHand, h.console, hgoes⟩
  unfold Production.heartbeatStep
  cases hpoint : s.heartbeat with
  | starting =>
    dsimp only
    rw [if_neg (not_not.2 (hheart.starts hpoint).2)]
    exact hgo
  | running =>
    have hcall : sleepMsCall heartbeatPeriodMs = .svc 4 0 heartbeatPeriodMs := by decide
    have hwait := timedBlock_spec h.invariant h.framed hact hcur ⟨0, heartbeatPeriodMs⟩
    have hblocked := (Kernel.sleeping_timedBlock hact hcur (f := ⟨0, heartbeatPeriodMs⟩)
      BitVec.and_zero (by decide) (by decide)).blocked
    dsimp only
    rw [hcall]
    refine ⟨hwait.invariant, hwait.framed, hwait.active, h.received.moved h.received.inHand,
      h.console.congr (hwait.others _ (by decide)) fun hold => (hwait.latched 0).2 ⟨hold, rfl⟩, ?_⟩
    refine ⟨?_, fun hstart => absurd hstart (by simp), fun _ hready' => ?_, by simp⟩
    · rcases hwait.task with ⟨-, hasked, -⟩ | ⟨hready', -⟩
      · exact hasked
      · exact ((hwait.invariant.sound heartbeatIndex).clear (by rw [hready']; decide)).1
    · exact absurd (hblocked.symm.trans hready') (by decide)
  | sleeping =>
    dsimp only
    rw [if_neg (hheart.sleeps hpoint hready)]
    exact hgo
  | returned => exact absurd hpoint hheart.stays

/-! ## Steps -/

/-- A byte that is published is one whose signal is on its way. -/
theorem Inv.usartIrq (h : Inv b s) (hsignalling : s.signalling = false) (status dr : UInt32) :
    Inv b (s.usartIrq status dr) := by
  obtain ⟨hreceived, hunread⟩ := h.received.usartIrq status dr
  have hpublished : (s.usartIrq status dr).signalling = (s.usart.irqService status dr).2 := rfl
  have hcome : (s.usartIrq status dr).unread ≠ [] →
      (s.usartIrq status dr).signalling = true ∨ s.unread ≠ [] := by
    intro hne
    rw [hpublished]
    by_cases hpub : (s.usart.irqService status dr).2 = true
    · exact Or.inl hpub
    · rw [hunread, if_neg hpub] at hne
      exact Or.inr hne
  refine ⟨h.invariant, h.framed, h.active, hreceived, ?_, h.heartbeat⟩
  have htask := h.console
  change ConsoleTask b s.scheduler (s.usartIrq status dr).unread
    (s.usartIrq status dr).signalling s.console
  cases hpoint : s.console with
  | serving =>
    rw [hpoint] at htask
    refine ⟨htask.1, fun hne => (hcome hne).imp id fun hold => ?_⟩
    rcases htask.2 hold with hon | hlatched
    · rw [hsignalling] at hon
      cases hon
    · exact hlatched
  | waiting =>
    rw [hpoint] at htask
    refine ⟨fun hblocked => ⟨(htask.1 hblocked).1, fun hne => ?_⟩, htask.2⟩
    rcases hcome hne with hon | hold
    · exact hon
    · have hon := (htask.1 hblocked).2 hold
      rw [hsignalling] at hon
      cases hon
  | starting =>
    rw [hpoint] at htask
    exact htask
  | returned =>
    rw [hpoint] at htask
    exact htask
  | polling => trivial
  | loading tail => trivial
  | storing tail byte => trivial
  | feeding => trivial

/-- **Every step keeps the machine:** a step of one of the tasks, of the host
loop, or an interrupt. -/
theorem Inv.step (hbridge : b.bridgeReady = true) (ev : Production.Step) (s : Production)
    (h : Inv b s) (hmay : Production.MayOccur ev s) : Inv b (s.step b ev) := by
  cases ev with
  | usart status dr => exact h.usartIrq hmay status dr
  | usartSignal =>
    refine h.interrupt (.signal uartRxEvent) trivial fun _ => Or.inr ⟨h.active, ?_⟩
    decide
  | usbNotify => exact h.interrupt (.signal usbManagementRxEvent) trivial Or.inl
  | sysTick now => exact h.interrupt (.tick now) trivial Or.inl
  | host =>
    obtain ⟨-, hact, hcur⟩ := hmay
    have hframe := Kernel.hostLoop_frame s.scheduler
    exact
      { invariant := Kernel.invariant_step .host _ h.invariant hact
        framed := Kernel.framed_step h.invariant h.framed .host
        active := Kernel.active_host h.invariant h.framed hact hcur
        received := h.received.moved h.received.inHand
        console := h.console.congr (congrFun hframe.1 _) fun hold =>
          (congrArg (fun p => BitVec.getLsbD p 0) hframe.2).trans hold
        heartbeat := h.heartbeat.congr (congrFun hframe.1 _) }
  | console => exact h.consoleStep hbridge hmay
  | command call =>
    obtain ⟨hruns, events, hcall, hpoint⟩ := hmay
    exact h.command hruns hcall hpoint
  | heartbeat => exact h.heartbeatStep hmay

/-! ## The start -/

/-- What a task is started with. -/
def cookie (b : Boot) (i : TaskIndex) : BitVec 32 :=
  if i = consoleIndex then b.consoleCookie else b.heartbeatCookie

/-- A task that is READY will find its cookie. -/
def Prepared (b : Boot) (sched : Scheduler) : Prop :=
  ∀ i, (sched.tasks i).state = .ready → (sched.tasks i).saved = some ⟨cookie b i, 0⟩

theorem prepared_setTask (h : Prepared b sched) {i : TaskIndex} {t : Task}
    (ht : t.state = .ready → t.saved = some ⟨cookie b i, 0⟩) : Prepared b (sched.setTask i t) := by
  intro j
  by_cases hj : j = i
  · rw [hj, Scheduler.setTask]
    dsimp only
    rw [Function.update_self]
    exact ht
  · rw [Scheduler.setTask]
    dsimp only
    rw [Function.update_of_ne hj]
    exact h j

theorem prepared_bind (h : Prepared b sched) (index low words : ℕ) :
    Prepared b (Kernel.Scheduler.taskStackBind sched index low words) := by
  unfold Kernel.Scheduler.taskStackBind
  split
  · split
    · exact h
    · rename_i hunused
      refine prepared_setTask h fun hready => absurd ?_ hunused
      -- only a task that is UNUSED is bound
      have hne : (sched.tasks ⟨index, ‹_›⟩).state ≠ .unused := by
        change (sched.tasks ⟨index, _⟩).state = .ready at hready
        rw [hready]
        decide
      exact Or.inr (Or.inr (Or.inr (Or.inr (Or.inr hne))))
  · exact h

theorem prepared_priority (h : Prepared b sched) (index priority : ℕ) :
    Prepared b (Kernel.Scheduler.taskPrioritySet sched index priority) := by
  unfold Kernel.Scheduler.taskPrioritySet
  split
  · split
    · exact h
    · exact prepared_setTask h (h _)
  · exact h

theorem prepared_prepare (h : Prepared b sched) (index entry : ℕ) (argument : BitVec 32)
    (hcookie : ∀ hi : index < Kernel.taskCount, argument = cookie b ⟨index, hi⟩) :
    Prepared b (Kernel.Scheduler.taskPrepare sched index entry argument) := by
  unfold Kernel.Scheduler.taskPrepare
  split
  · rename_i hi
    split
    · exact h
    · refine prepared_setTask h fun _ => ?_
      rw [hcookie hi]
  · exact h

/-- **The machine as `kernel_main` starts it,** with whatever was received
before the scheduler was started. -/
theorem inv_start (hreceived : Received s)
    (hpoints : s.console = .starting ∧ s.heartbeat = .starting) {s₀ : Scheduler}
    (h : productionScheduler b s.scheduler = some s₀) : Inv b { s with scheduler := s₀ } := by
  unfold productionScheduler at h
  split at h
  · cases h
  rename_i s₁ hinit
  obtain ⟨calls, hcalls⟩ : ∃ calls, calls = [Kernel.Scheduler.SetupCall.bind 0 b.consoleStack
      consoleStackWords, .priority 0 Kernel.priorityDefault,
      .prepare 0 b.consoleEntry b.consoleCookie, .bind 1 b.heartbeatStack heartbeatStackWords,
      .priority 1 Kernel.priorityLowest, .prepare 1 b.heartbeatEntry b.heartbeatCookie] := ⟨_, rfl⟩
  rw [← hcalls] at h
  dsimp only at h
  split at h
  · cases h
  rename_i hready
  have hprepared : Prepared b (calls.foldl Kernel.Scheduler.setup s₁) := by
    have hinit : Prepared b s₁ := by
      unfold Kernel.Scheduler.init at hinit
      split at hinit
      · cases hinit
      · obtain rfl := Option.some.inj hinit
        intro i hi
        cases hi
    have hconsole := prepared_prepare (prepared_priority (prepared_bind hinit 0 b.consoleStack
      consoleStackWords) 0 Kernel.priorityDefault) 0 b.consoleEntry b.consoleCookie fun _ => rfl
    have hheartbeat := prepared_prepare (prepared_priority (prepared_bind hconsole 1
      b.heartbeatStack heartbeatStackWords) 1 Kernel.priorityLowest) 1 b.heartbeatEntry
      b.heartbeatCookie fun _ => rfl
    rw [hcalls]
    exact hheartbeat
  have hstarted : Started s₀ := ⟨s.scheduler, s₁, calls, false, hinit, h⟩
  have hinv := hstarted.invariant
  have hfresh := hstarted.fresh
  have hframed := Kernel.framed_started hstarted
  unfold Kernel.Scheduler.startMode at h
  split at h
  · cases h
  split at h
  · cases h
  split at h
  · cases h
  obtain rfl := Option.some.inj h
  simp only [not_or, ne_eq, not_not] at hready
  exact
    { invariant := hinv
      framed := hframed
      active := rfl
      received := hreceived.moved hreceived.inHand
      console := by
        change ConsoleTask b _ s.unread s.signalling s.console
        rw [hpoints.1]
        exact ⟨hready.1, result_saved (hprepared _ hready.1)⟩
      heartbeat := by
        change HeartbeatTask b _ s.heartbeat
        rw [hpoints.2]
        exact ⟨(hfresh.clear _).1, fun _ => ⟨hready.2.1, result_saved (hprepared _ hready.2.1)⟩,
          fun hsleep => absurd hsleep (by simp), by simp⟩ }

/-- The machine, before anything has come. -/
theorem received_boot (sched : Scheduler) : Received { scheduler := sched } :=
  ⟨List.nil_prefix, Ring.Holds.empty _ _ _, rfl, trivial, ⟨rfl, Nat.zero_le _, rfl⟩, .nil⟩

/-- Interrupts come before the start, too: bytes are kept, and nobody is there to
be signalled. -/
theorem received_boots (b : Boot) {boots : List Production.Step}
    (hboots : ∀ ev ∈ boots, Production.IsInterrupt ev) (h : Received s)
    (hpoints : s.console = .starting ∧ s.heartbeat = .starting) :
    Received (Ledger.run (Production.step b) boots s) ∧
      (Ledger.run (Production.step b) boots s).console = .starting ∧
      (Ledger.run (Production.step b) boots s).heartbeat = .starting := by
  induction boots generalizing s with
  | nil => exact ⟨h, hpoints⟩
  | cons ev boots ih =>
    refine ih (fun ev' hev' => hboots ev' (List.mem_cons_of_mem _ hev')) (h.step b ev) ?_
    have hint := hboots ev List.mem_cons_self
    cases ev with
    | usart status dr => exact hpoints
    | usartSignal => exact hpoints
    | usbNotify => exact hpoints
    | sysTick now => exact hpoints
    | host => exact absurd hint id
    | console => exact absurd hint id
    | command call => exact absurd hint id
    | heartbeat => exact absurd hint id

/-! ## Runs -/

/-- What holds whenever one looks: the run is on and the tasks have not left
their loops; what was received while fewer than 128 bytes waited was kept, and is
taken in order, and the ring tells how much waits; the lines are the editor's, and
were parsed inside of their buffer; and where the console is BLOCKED in its wait
and no interrupt is being served, nothing waits. -/
structure Serves (s : Production) : Prop where
  active : s.scheduler.active = true
  console : s.console ≠ .returned
  heartbeat : s.heartbeat ≠ .returned
  kept : s.kept = (s.offered.filter Prod.snd).map Prod.fst
  taken : s.taken <+: s.kept
  depth : s.usart.depth.toNat = s.kept.length - s.taken.length ∧
    s.kept.length - s.taken.length ≤ rxRingCapacity
  reactions : List.Forall₂ Reacts (run consoleKeys lineMost ([], []) s.taken).2 s.reactions
  awake : s.signalling = false → s.console = .waiting →
    (s.scheduler.tasks consoleIndex).state = .blocked → s.taken = s.kept

/-- The invariant says all that is served. -/
theorem Inv.serves (h : Inv b s) : Serves s := by
  have htask := h.console
  have hlength := Received.length_unread s
  refine ⟨h.active, fun hreturned => ?_, h.heartbeat.stays, h.received.offered, h.received.taken,
    ⟨?_, ?_⟩, h.received.reactions, fun hsignalling hwaiting hblocked => ?_⟩
  · rw [hreturned] at htask
    exact htask
  · rw [← hlength]
    exact h.received.ring.depth
  · rw [← hlength]
    exact h.received.ring.fits
  · rw [hwaiting] at htask
    have hempty : s.unread = [] := by
      by_contra hne
      have hon := (htask.1 hblocked).2 hne
      rw [hsignalling] at hon
      cases hon
    rw [h.received.kept_eq, hempty, List.append_nil]

/-- **No byte waits unseen,** in any run of the two tasks, their interrupts and
the commands that the console executes, whatever had come before the start. -/
theorem production_serves (hbridge : b.bridgeReady = true) (h : Production.Reached b s) :
    Serves s := by
  obtain ⟨sched, s₀, boots, evs, hboots, hstart, hlegal, rfl⟩ := h
  obtain ⟨hreceived, hpoints⟩ := received_boots b hboots (received_boot sched) ⟨rfl, rfl⟩
  exact (Ledger.invariant_run (Inv.step hbridge) (inv_start hreceived hpoints hstart) hlegal).serves

/-- What answers two lists, one behind the other, is two lists. -/
theorem forall₂_append_left {α β : Type} {R : α → β → Prop} {l₁ l₂ : List α} {l : List β}
    (h : List.Forall₂ R (l₁ ++ l₂) l) :
    ∃ m₁ m₂, l = m₁ ++ m₂ ∧ List.Forall₂ R l₁ m₁ ∧ List.Forall₂ R l₂ m₂ :=
  ⟨l.take l₁.length, l.drop l₁.length, (List.take_append_drop _ l).symm,
    (List.forall₂_take_append _ _ _ h.flip).flip, (List.forall₂_drop_append _ _ _ h.flip).flip⟩

theorem replicate_of_reacts {n : ℕ} {reactions : List Reaction}
    (h : List.Forall₂ Reacts (List.replicate n .refused) reactions) :
    reactions = List.replicate n .refused := by
  induction n generalizing reactions with
  | zero =>
    cases h
    rfl
  | succ n ih =>
    rw [List.replicate_succ] at h ⊢
    cases h with
    | cons hfirst hrest =>
      cases hfirst
      rw [ih hrest]

/-- **A line that is too long is cut,** not dropped: wherever the console has
taken a line of ordinary characters and its end, it has written one `ERR` for each
32 of them, and executed what is left over. -/
theorem overlong_line (hbridge : b.bridgeReady = true) (h : Production.Reached b s)
    {before cs : List UInt8} {e e' : UInt8} (he : e = 0x0D ∨ e = 0x0A)
    (he' : e' = 0x0D ∨ e' = 0x0A)
    (hplain : ∀ c ∈ cs, c ≠ 0x0D ∧ c ≠ 0x0A ∧ c ≠ 0x08 ∧ c ≠ 0x7F)
    (htaken : s.taken = before ++ [e] ++ cs ++ [e']) :
    ∃ earlier last, s.reactions = earlier ++ List.replicate (cs.length / 32) .refused ++ last ∧
      List.Forall₂ Reacts (run consoleKeys lineMost ([], []) (before ++ [e])).2 earlier ∧
      if 32 ∣ cs.length then last = []
      else ∃ p, last = [.executed (cs.drop (32 * (cs.length / 32))) (some p)] ∧
        Rpc.Parsed (Tokens.tokens Rpc.commandIsSeparator
          (lineText (cs.drop (32 * (cs.length / 32))))) p := by
  have hreactions := (production_serves hbridge h).reactions
  have hends : ∀ c : UInt8, c = 0x0D ∨ c = 0x0A → consoleKeys.ends c = true := by
    intro c hc
    simpa [consoleKeys] using hc
  have hplain' : ∀ c ∈ cs, consoleKeys.Plain c := by
    intro c hc
    obtain ⟨hcr, hlf, hbs, hdel⟩ := hplain c hc
    exact ⟨by simp [consoleKeys, hcr, hlf], by simp [consoleKeys, hbs, hdel]⟩
  have hrest : cs.drop (32 * (cs.length / 32)) = [] ↔ 32 ∣ cs.length := by
    rw [List.drop_eq_nil_iff]
    omega
  rw [htaken, LineEditor.run_line (hends e he) (hends e' he') hplain'] at hreactions
  change List.Forall₂ Reacts (_ ++ List.replicate (cs.length / 32) _ ++
    (if cs.drop (32 * (cs.length / 32)) = [] then none
      else some (.line (cs.drop (32 * (cs.length / 32))))).toList) _ at hreactions
  obtain ⟨front, last, hsplit, hfront, hlast⟩ := forall₂_append_left hreactions
  obtain ⟨earlier, refused, rfl, hearlier, hrefused⟩ := forall₂_append_left hfront
  obtain rfl := replicate_of_reacts hrefused
  refine ⟨earlier, last, hsplit, hearlier, ?_⟩
  by_cases hdvd : 32 ∣ cs.length
  · rw [if_pos (hrest.2 hdvd)] at hlast
    rw [if_pos hdvd]
    cases hlast
    rfl
  · rw [if_neg fun hnil => hdvd (hrest.1 hnil)] at hlast
    rw [if_neg hdvd]
    cases hlast with
    | cons hline hnone =>
      cases hnone
      cases hline with
      | executed hparsed _ => exact ⟨_, rfl, hparsed⟩

/-- The two tasks, on stacks of their own. -/
def boardBoot : Boot where
  consoleStack := 0x20000000
  heartbeatStack := 0x20000400
  consoleEntry := 0x08001001
  heartbeatEntry := 0x08001101
  consoleCookie := 0x20000600
  heartbeatCookie := 0x20000604
  bridgeReady := true

/-- The scheduler of the two tasks, just started. -/
def boardStarted : Scheduler := (productionScheduler boardBoot {}).getD {}

theorem boardStarted_eq : productionScheduler boardBoot {} = some boardStarted := by
  have hsome : (productionScheduler boardBoot {}).isSome = true := by decide
  obtain ⟨s, hs⟩ := Option.isSome_iff_exists.1 hsome
  rw [boardStarted, hs]
  rfl

instance (s : Production) (i : Kernel.TaskIndex) : Decidable (s.Runs i) :=
  inferInstanceAs (Decidable (_ ∧ _ ∧ _))

/-- The console task may take `n` steps, one after the other. -/
def runsConsole (b : Boot) : ℕ → Production → Bool
  | 0, _ => true
  | n + 1, s => decide (s.Runs consoleIndex) && runsConsole b n (s.step b .console)

theorem legal_of_runsConsole {n : ℕ} (h : runsConsole b n s = true) :
    Ledger.Legal (Production.step b) Production.MayOccur (List.replicate n .console) s := by
  induction n generalizing s with
  | zero => trivial
  | succ n ih =>
    rw [runsConsole, Bool.and_eq_true] at h
    have hruns : s.Runs consoleIndex := of_decide_eq_true h.1
    exact ⟨hruns, ih h.2⟩

/-- A line of 33 characters, and the end of one before it, come before the start. -/
def boardBoots : List Production.Step :=
  ([0x0D] ++ List.replicate 33 0x41 ++ [0x0D] : List UInt32).flatMap fun dr =>
    [.usart 0x20 dr, .usartSignal]

/-- The console takes them all. -/
def boardSteps : List Production.Step := .host :: List.replicate 141 .console

/-- The machine when the scheduler has started. -/
def boardStart : Production :=
  { Ledger.run (Production.step boardBoot) boardBoots { scheduler := {} } with
    scheduler := boardStarted }

/-- And when the console has taken what came. -/
def boardState : Production := Ledger.run (Production.step boardBoot) boardSteps boardStart

set_option maxRecDepth 20000 in
theorem reached_board : Production.Reached boardBoot boardState := by
  refine ⟨{}, boardStarted, boardBoots, boardSteps, ?_, boardStarted_eq, ?_, rfl⟩
  · intro ev hev
    obtain ⟨dr, -, hdr⟩ := List.mem_flatMap.1 hev
    simp only [List.mem_cons, List.not_mem_nil, or_false] at hdr
    rcases hdr with rfl | rfl
    · trivial
    · trivial
  · have hhost : Production.MayOccur .host boardStart :=
      ⟨by decide +kernel, by decide +kernel, by decide +kernel⟩
    have hconsole : runsConsole boardBoot 141 (boardStart.step boardBoot .host) = true := by
      decide +kernel
    exact ⟨hhost, legal_of_runsConsole hconsole⟩

/-- The theorem at the end of that run. -/
theorem production_serves_board : Serves boardState := production_serves rfl reached_board

set_option maxRecDepth 20000 in
/-- Its first 32 characters are refused, and the last is a command of its own. -/
theorem overlong_line_board : ∃ earlier p,
    boardState.reactions = earlier ++ [.refused] ++ [.executed [0x41] (some p)] ∧
    List.Forall₂ Reacts (run consoleKeys lineMost ([], []) ([] ++ [0x0D])).2 earlier ∧
    Rpc.Parsed (Tokens.tokens Rpc.commandIsSeparator (lineText [0x41])) p := by
  have htaken : boardState.taken = [] ++ [0x0D] ++ List.replicate 33 0x41 ++ [0x0D] := by
    decide +kernel
  have hplain : ∀ c ∈ List.replicate 33 (0x41 : UInt8),
      c ≠ 0x0D ∧ c ≠ 0x0A ∧ c ≠ 0x08 ∧ c ≠ 0x7F := by decide
  obtain ⟨earlier, last, hreactions, hearlier, hlast⟩ :=
    overlong_line rfl reached_board (Or.inl rfl) (Or.inl rfl) hplain htaken
  rw [if_neg (by decide)] at hlast
  obtain ⟨p, rfl, hparsed⟩ := hlast
  exact ⟨earlier, p, hreactions, hearlier, hparsed⟩

end Console

end DeusOs
