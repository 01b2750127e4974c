import DeusOs.Common.Ledger
import DeusOs.Console.Model.Usart
import DeusOs.Kernel.Model.Scheduler

/-!
# The console — the two production tasks

What `kernel_main` of `kernel.c` starts: `production_console_task` and
`production_heartbeat_task` under the cooperative scheduler, and the interrupts.
The interrupt of the UART publishes a byte and signals in two steps, between
which other interrupts may come, but no task. What the console task does beside
its ring and its waits is one step; a command that it executes may call the
scheduler itself, any number of times.
-/

namespace DeusOs

namespace Console

open Kernel (Frame Scheduler TaskIndex)
open Kernel.Scheduler (Call init setup sleepMsCall startMode step waitEventsTimeoutCall)

/-! ## Constants -/

/-- `PRODUCTION_UART_RX_EVENT`. -/
def uartRxEvent : BitVec 32 := 1
/-- `PRODUCTION_USB_MANAGEMENT_RX_EVENT`. -/
def usbManagementRxEvent : BitVec 32 := 4
/-- `PRODUCTION_CONSOLE_RX_EVENTS`. -/
def consoleRxEvents : BitVec 32 := uartRxEvent ||| usbManagementRxEvent
/-- `BOOT_DESKTOP_UI_POLL_MS`. -/
def bootDesktopUiPollMs : BitVec 32 := 250
/-- `PRODUCTION_HEARTBEAT_PERIOD_MS`. -/
def heartbeatPeriodMs : BitVec 32 := 500
/-- `PRODUCTION_CONSOLE_STACK_WORDS`. -/
def consoleStackWords : ℕ := 256
/-- `PRODUCTION_HEARTBEAT_STACK_WORDS`. -/
def heartbeatStackWords : ℕ := 128

/-- The place of the console task. -/
def consoleIndex : TaskIndex := ⟨0, by decide⟩
/-- The place of the heartbeat task. -/
def heartbeatIndex : TaskIndex := ⟨1, by decide⟩

/-! ## The state -/

/-- Where the console task is. -/
inductive ConsolePoint
  /-- At its entry. -/
  | starting
  /-- `usart1_try_read` looks for a byte. -/
  | polling
  /-- It has loaded the tail. -/
  | loading (tail : UInt32)
  /-- It has loaded the byte. -/
  | storing (tail : UInt32) (byte : UInt8)
  /-- `console_feed_char` executes what the byte completed. -/
  | feeding
  /-- `usb_management_runtime_service` and what comes behind it. -/
  | serving
  /-- In `scheduler_wait_events_timeout`. -/
  | waiting
  /-- It has returned. -/
  | returned

/-- Where the heartbeat task is. -/
inductive HeartbeatPoint
  | starting | running | sleeping | returned

/-- What the linker and the start of the application bridge decide. -/
structure Boot where
  consoleStack : ℕ
  heartbeatStack : ℕ
  consoleEntry : ℕ
  heartbeatEntry : ℕ
  consoleCookie : BitVec 32
  heartbeatCookie : BitVec 32
  /-- What `application_runtime_bridge_initialize` returns. -/
  bridgeReady : Bool

/-- The machine. What the receiver was offered, and had room for, what it kept,
what the console took and what came of it are kept for the statements: nothing
reads them. -/
structure Production where
  usart : Usart := {}
  line : CommandState := ⟨fun _ => 0, 0⟩
  scheduler : Scheduler
  console : ConsolePoint := .starting
  heartbeat : HeartbeatPoint := .starting
  /-- `USART1_IRQHandler` has published a byte and not signalled yet. -/
  signalling : Bool := false
  offered : List (UInt8 × Bool) := []
  kept : List UInt8 := []
  taken : List UInt8 := []
  reactions : List Reaction := []

/-- The scheduler that `kernel_main` starts, if it prepares both tasks. -/
def productionScheduler (b : Boot) (s : Scheduler) : Option Scheduler :=
  match init s with
  | none => none
  | some s =>
    let s := [.bind 0 b.consoleStack consoleStackWords, .priority 0 Kernel.priorityDefault,
      .prepare 0 b.consoleEntry b.consoleCookie, .bind 1 b.heartbeatStack heartbeatStackWords,
      .priority 1 Kernel.priorityLowest, .prepare 1 b.heartbeatEntry b.heartbeatCookie].foldl setup s
    if (s.tasks consoleIndex).state ≠ .ready ∨ (s.tasks heartbeatIndex).state ≠ .ready ∨
        (s.tasks consoleIndex).priority ≠ Kernel.priorityDefault ∨
        (s.tasks heartbeatIndex).priority ≠ Kernel.priorityLowest then none
    else startMode false s

/-- What the last call of a task returned to it. -/
def result (s : Scheduler) (i : TaskIndex) : BitVec 32 :=
  match (s.tasks i).saved with
  | some f => f.r0
  | none => 0

/-- A library call of the current task. -/
def trap (call : Call) (s : Scheduler) : Scheduler :=
  match call with
  | .returns _ => s
  | .svc number r0 r1 => step (.svc number (.frame ⟨r0, r1⟩)) s

namespace Production

/-! ## The tasks -/

/-- `USART1_IRQHandler`, up to its signal. -/
def usartIrq (s : Production) (status dr : UInt32) : Production :=
  let (usart, published) := s.usart.irqService status dr
  { s with
    usart
    signalling := published
    offered := if status &&& statusRxne ≠ 0 then
      s.offered ++ [(dr.toUInt8, decide (s.kept.length - s.taken.length < rxRingCapacity))]
    else s.offered
    kept := if published = true then s.kept ++ [dr.toUInt8] else s.kept }

/-- `production_console_task`, with `console_drain_uart_rx`. -/
def consoleStep (b : Boot) (s : Production) : Production :=
  match s.console with
  | .starting =>
    if result s.scheduler consoleIndex ≠ b.consoleCookie ∨ b.bridgeReady = false then
      { s with console := .returned }
    else { s with console := .polling }
  | .polling =>
    match s.usart.loadTail with
    | none => { s with console := .serving }
    | some tail => { s with console := .loading tail }
  | .loading tail => { s with console := .storing tail (s.usart.loadByte tail) }
  | .storing tail byte =>
    let (line, reaction) := consoleFeedChar s.line byte
    { s with
      usart := s.usart.storeTail tail
      line
      console := .feeding
      taken := s.taken ++ [byte]
      reactions := s.reactions ++ reaction.toList }
  | .feeding => { s with console := .polling }
  | .serving =>
    { s with
      scheduler := trap (waitEventsTimeoutCall consoleRxEvents bootDesktopUiPollMs) s.scheduler
      console := .waiting }
  | .waiting =>
    if result s.scheduler consoleIndex &&& ~~~consoleRxEvents ≠ 0 then { s with console := .returned }
    else { s with console := .polling }
  | .returned => { s with scheduler := step (.svc 2 (.frame ⟨0, 0⟩)) s.scheduler }

/-- `production_heartbeat_task`. -/
def heartbeatStep (b : Boot) (s : Production) : Production :=
  match s.heartbeat with
  | .starting =>
    if result s.scheduler heartbeatIndex ≠ b.heartbeatCookie then { s with heartbeat := .returned }
    else { s with heartbeat := .running }
  | .running =>
    { s with scheduler := trap (sleepMsCall heartbeatPeriodMs) s.scheduler, heartbeat := .sleeping }
  | .sleeping =>
    if result s.scheduler heartbeatIndex = 0 then { s with heartbeat := .returned }
    else { s with heartbeat := .running }
  | .returned => { s with scheduler := step (.svc 2 (.frame ⟨0, 0⟩)) s.scheduler }

/-! ## Steps -/

/-- What happens next. -/
inductive Step
  /-- The UART's interrupt, with what it reads in the two registers. -/
  | usart (status dr : UInt32)
  /-- The rest of that interrupt. -/
  | usartSignal
  /-- `usb_management_rx_event_notify`. -/
  | usbNotify
  /-- `SysTick_Handler`. -/
  | sysTick (now : BitVec 32)
  /-- A turn of the scheduler's own loop. -/
  | host
  | console
  /-- A command that the console task executes calls the scheduler. -/
  | command (call : Call)
  | heartbeat

/-- One step. -/
def step (b : Boot) (ev : Step) (s : Production) : Production :=
  match ev with
  | .usart status dr => s.usartIrq status dr
  | .usartSignal =>
    { s with scheduler := Kernel.Scheduler.step (.signal uartRxEvent) s.scheduler, signalling := false }
  | .usbNotify =>
    { s with scheduler := Kernel.Scheduler.step (.signal usbManagementRxEvent) s.scheduler }
  | .sysTick now => { s with scheduler := Kernel.Scheduler.step (.tick now) s.scheduler }
  | .host => { s with scheduler := Kernel.Scheduler.step .host s.scheduler }
  | .console => s.consoleStep b
  | .command call => { s with scheduler := trap call s.scheduler }
  | .heartbeat => s.heartbeatStep b

/-- The task is the current one, and no interrupt is being served. -/
def Runs (s : Production) (i : TaskIndex) : Prop :=
  s.signalling = false ∧ s.scheduler.active = true ∧ s.scheduler.currentIndex = some i

/-- What comes while the tasks do not run, too. -/
def IsInterrupt : Step → Prop
  | .usart _ _ => True
  | .usartSignal => True
  | .usbNotify => True
  | .sysTick _ => True
  | _ => False

/-- A sleep, or a wait for these events. -/
def IsWait (events : BitVec 32) (call : Call) : Prop :=
  ∃ ms, call = waitEventsTimeoutCall events ms ∨ events = 0 ∧ call = sleepMsCall ms

/-- What may happen. A command from the UART may sleep and wait for anything; one
that came in over USB may sleep, and wait for its own event. -/
def MayOccur : Step → Production → Prop
  | .usart _ _, s => s.signalling = false
  | .usartSignal, s => s.signalling = true
  | .usbNotify, _ => True
  | .sysTick _, _ => True
  | .host, s =>
    s.signalling = false ∧ s.scheduler.active = true ∧ s.scheduler.currentIndex = none
  | .console, s => s.Runs consoleIndex
  | .command call, s => s.Runs consoleIndex ∧ ∃ events, IsWait events call ∧
      (s.console = .feeding ∨ s.console = .serving ∧ events &&& uartRxEvent = 0)
  | .heartbeat, s => s.Runs heartbeatIndex

/-- A state of a run: interrupts come before the start, and then what may. -/
def Reached (b : Boot) (s : Production) : Prop :=
  ∃ (sched s₀ : Scheduler) (boots evs : List Step),
    (∀ ev ∈ boots, IsInterrupt ev) ∧
      productionScheduler b (Ledger.run (step b) boots { scheduler := sched }).scheduler = some s₀ ∧
      Ledger.Legal (step b) MayOccur evs
        { Ledger.run (step b) boots { scheduler := sched } with scheduler := s₀ } ∧
      s = Ledger.run (step b) evs
        { Ledger.run (step b) boots { scheduler := sched } with scheduler := s₀ }

end Production

end Console

end DeusOs
