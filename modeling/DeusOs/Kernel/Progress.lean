import DeusOs.Kernel.TimedWake

/-!
# A run goes on

What one step leaves of a task and of the run, for the code that runs on the
scheduler: an interrupt wakes a task that is BLOCKED or leaves it alone
(`interrupt_task`), the turn of the host keeps the run (`active_host`), and a
timed wait either blocks or returns something of what it asked for
(`timedBlock_spec`).
-/

namespace DeusOs.Kernel

open Scheduler

variable {s : Scheduler} {i : TaskIndex} {ev : Event} {b : ℕ}

/-! ## Interrupts -/

/-- No interrupt stops the scheduler. -/
theorem active_interrupt (hact : s.active = true) (hev : IsInterrupt ev) :
    (step ev s).active = true := by
  have hone : ∀ ev' ∈ [ev], IsInterrupt ev' := by
    intro ev' hmem
    rw [List.mem_singleton.1 hmem]
    exact hev
  exact active_of_interrupts hact hone

/-- **An interrupt wakes a task that is BLOCKED, or leaves it alone.** A task
that is woken finds in `r0` what ended its wait. -/
theorem interrupt_task (h : Invariant s) (hev : IsInterrupt ev) (i : TaskIndex) :
    ¬ Wakes i ev s ∧ (step ev s).tasks i = s.tasks i ∨
      Wakes i ev s ∧ ((step ev s).tasks i).state = .ready ∧
        ((step ev s).tasks i).waitEvents = 0 ∧
        ((step ev s).tasks i).saved =
          (s.tasks i).saved.map fun f => { f with r0 := wakeResult (s.tasks i).waitEvents ev } := by
  by_cases hw : Wakes i ev s
  · obtain ⟨matched, htask⟩ := task_of_wakes h hw
    refine Or.inr ⟨hw, ?_⟩
    rw [htask]
    exact ⟨rfl, rfl, rfl⟩
  refine Or.inl ⟨hw, ?_⟩
  by_cases hcur : s.currentIndex = some i
  · -- the current task is READY, which no interrupt changes
    have hready : (s.tasks i).state ≠ .blocked := by
      rw [(h.current i hcur).1]
      decide
    cases ev with
    | signal events =>
      change (eventSignal events s).tasks i = _
      unfold eventSignal
      split
      · rfl
      · exact if_neg fun hne => hne (if_neg hready)
    | tick now =>
      change (tick now s).tasks i = _
      unfold tick
      split
      · exact if_neg fun hexp => hready hexp.1
      · rfl
    | svcHost sp => exact absurd hev id
    | svc number sp => exact absurd hev id
    | pendsv sp => exact absurd hev id
    | host => exact absurd hev id
  · exact task_same hcur hw

/-- A signal leaves BLOCKED what waits for nothing of it. -/
theorem wakes_signal_iff (h : Invariant s) (hact : s.active = true) (events : BitVec 32) :
    Wakes i (.signal events) s ↔
      (s.tasks i).state = .blocked ∧ (s.tasks i).waitEvents &&& events ≠ 0 := by
  refine ⟨fun hw => ⟨blocked_of_wakes hw, ?_⟩, fun ⟨hblocked, hne⟩ => ⟨hact, ?_⟩⟩
  · have hne := hw.2
    rw [matched_signal h, matchedEvents, if_pos (blocked_of_wakes hw)] at hne
    exact hne
  · rw [matched_signal h, matchedEvents, if_pos hblocked]
    exact hne

/-! ## The host -/

/-- **The host finds a task to run, or one to wait for,** so the scheduler stays
active. -/
theorem active_host (h : Invariant s) (hf : Framed s) (hact : s.active = true)
    (hcur : s.currentIndex = none) : (step .host s).active = true := by
  have hkept : (step .host s).abortedAt ≠ some .noBlockedTask :=
    (invariant_step .host s h hact).aborted
  change (hostLoop s).1.abortedAt ≠ some .noBlockedTask at hkept
  change (hostLoop s).1.active = true
  unfold hostLoop at hkept ⊢
  rw [if_neg (not_not.2 hcur)] at hkept ⊢
  by_cases hselect : (selectNextReady s.tasks (taskCount - 1)).isSome = true
  · rw [if_pos hselect]
    obtain ⟨next, hnext⟩ := Option.isSome_iff_exists.1 hselect
    have hentry : ¬ (s.active = false ∨ s.currentIndex ≠ none ∨ SavedSp.null ≠ .null) := by
      rw [hact, hcur]
      simp
    obtain ⟨f, hframe⟩ := Option.ne_none_iff_exists'.1 (hf next (Or.inl (ready_of_select hnext)))
    unfold svcStart
    rw [if_neg hentry]
    simp only [hnext, hframe]
    exact hact
  rw [if_neg hselect] at hkept ⊢
  by_cases hblocked : hasBlockedTasks s = true
  · rw [if_pos hblocked]
    exact hact
  · rw [if_neg hblocked] at hkept
    exact absurd rfl hkept

/-! ## Timed waits -/

/-- What a timed wait for `events` leaves: its task is BLOCKED on them, of which
none was latched, or READY with a result that is among them. -/
structure TimedWait (events : BitVec 32) (i : TaskIndex) (s s' : Scheduler) : Prop where
  invariant : Invariant s'
  framed : Framed s'
  active : s'.active = true
  others : ∀ j, j ≠ i → s'.tasks j = s.tasks j
  latched : ∀ b, Latched s' b ↔ Latched s b ∧ events.getLsbD b = false
  task : (s'.tasks i).state = .blocked ∧ (s'.tasks i).waitEvents = events ∧
      s.pendingEvents &&& events = 0 ∨
    (s'.tasks i).state = .ready ∧
      ∃ g, (s'.tasks i).saved = some g ∧ (events ≠ 0 → g.r0 &&& ~~~events = 0)

/-- A bit that was cleared is not set. -/
theorem and_and_not (a b : BitVec 32) : a &&& b &&& ~~~b = 0 := by
  rw [BitVec.and_assoc, BitVec.and_not_self]
  exact BitVec.and_zero

/-- A timed wait blocks, or returns at once. -/
theorem svcTimedBlock_cases (s : Scheduler) (i : TaskIndex) (f : Frame) :
    MustWait s.pendingEvents 4 f ∨ ∃ matched result,
      svcRequest s i 4 f = resumeWith s i f matched result ∧
        (f.r0 ≠ 0 → result &&& ~~~f.r0 = 0) := by
  by_cases hmatch : f.r0 ≠ 0 ∧ s.pendingEvents &&& f.r0 ≠ 0
  · exact Or.inr ⟨_, _, if_pos hmatch, fun _ => and_and_not _ _⟩
  by_cases hzero : f.r1 = 0
  · refine Or.inr ⟨_, _, (if_neg hmatch).trans (if_pos hzero), fun hr0 => ?_⟩
    rw [if_neg hr0]
    exact BitVec.zero_and
  by_cases hlong : maxTimeoutMs < f.r1
  · exact Or.inr ⟨_, _, (if_neg hmatch).trans ((if_neg hzero).trans (if_pos hlong)),
      fun _ => BitVec.zero_and⟩
  · refine Or.inl ⟨?_, Or.inr ⟨rfl, hzero, hlong⟩⟩
    by_contra hne
    refine hmatch ⟨fun hr0 => hne ?_, hne⟩
    rw [hr0]
    exact BitVec.and_zero

/-- **A timed wait** of the current task: it goes on at once where an event is
latched or the wait is refused, and blocks for its time otherwise. -/
theorem timedBlock_spec (h : Invariant s) (hf : Framed s) (hact : s.active = true)
    (hcur : s.currentIndex = some i) (f : Frame) :
    TimedWait f.r0 i s (step (.svc 4 (.frame f)) s) := by
  have hother : ∀ j, j ≠ i → (step (.svc 4 (.frame f)) s).tasks j = s.tasks j := by
    intro j hj
    refine task_same ?_ id
    rw [hcur]
    exact fun heq => hj (Option.some.inj heq).symm
  have hlatched : ∀ b, Latched (step (.svc 4 (.frame f)) s) b ↔
      Latched s b ∧ f.r0.getLsbD b = false := by
    intro b
    have hstep := latched_step (b := b) h (.svc 4 (.frame f))
    have hwait : IsWait 4 := Or.inr rfl
    simp only [Signals, Delivers, Consumes, hact, hcur, hwait] at hstep
    rw [hstep, ← Bool.not_eq_true]
    simp only [or_false, false_and, not_false_eq_true, true_and, ne_eq, reduceCtorEq]
    tauto
  obtain hmust | ⟨matched, r, hreq, hr⟩ := svcTimedBlock_cases s i f
  · obtain ⟨hnone, ⟨hthree, -⟩ | ⟨-, hr1, hlong⟩⟩ := hmust
    · cases hthree
    refine ⟨invariant_step _ s h hact, framed_step h hf _,
      active_timedBlock h hf hact hcur hnone hr1 hlong, hother, hlatched,
      Or.inl ⟨(sleeping_timedBlock hact hcur hnone hr1 hlong).blocked, ?_, hnone⟩⟩
    change ((svcTask s 4 (.frame f)).1.tasks i).waitEvents = _
    rw [(svcTask_frame hact hcur 4 f).1, svcRequest_timed hnone hr1 hlong]
    simp [Request.after, Scheduler.setTask]
  · have hready := (resumes_svcTask h hact hcur hreq).2.2
    refine ⟨invariant_step _ s h hact, framed_step h hf _, ?_, hother, hlatched,
      Or.inr ⟨hready, { f with r0 := r }, ?_, hr⟩⟩
    · change (svcTask s 4 (.frame f)).1.active = true
      unfold svcTask
      rw [hact, hcur]
      simp only [hreq, resumeWith]
      exact hact
    · change ((svcTask s 4 (.frame f)).1.tasks i).saved = _
      rw [(svcTask_frame hact hcur 4 f).1, hreq]
      simp [resumeWith, Request.after, Scheduler.setTask]

end DeusOs.Kernel
