import DeusOs.Kernel.EventDelivery

/-!
# When a timed wait ends

A task that blocks with a timeout is READY at the first tick at which the
time that has passed is at least the timeout, and at none before: the
deadline and the clock are 32-bit words that wrap, the timeout is at most
`SCHEDULER_MAX_TIMEOUT_MS`, and no tick moves the clock by more than that
(`timed_wake_exact`). What happens between the ticks does not matter.
-/

namespace DeusOs.Kernel

open Scheduler

variable {s : Scheduler} {i : TaskIndex} {f : Frame} {left : ℕ}

/-! ## Time -/

/-- The time that passes over the ticks of a run, from `now` on. -/
def elapsed : BitVec 32 → List Event → ℕ
  | _, [] => 0
  | now, .tick next :: evs => (next - now).toNat + elapsed next evs
  | now, _ :: evs => elapsed now evs

/-- Every tick moves the clock, by less than half its range. -/
def Advances : BitVec 32 → List Event → Prop
  | _, [] => True
  | now, .tick next :: evs =>
    1 ≤ (next - now).toNat ∧ (next - now).toNat < 2147483648 ∧ Advances next evs
  | now, _ :: evs => Advances now evs

/-- No signal wakes the task. -/
def Undisturbed (i : TaskIndex) : List Event → Scheduler → Prop
  | [], _ => True
  | .signal events :: evs, s =>
    ¬ Wakes i (.signal events) s ∧ Undisturbed i evs (step (.signal events) s)
  | ev :: evs, s => Undisturbed i evs (step ev s)

variable {ev : Event} {evs : List Event} {now : BitVec 32}

theorem elapsed_cons (hev : ∀ now, ev ≠ .tick now) :
    elapsed now (ev :: evs) = elapsed now evs := by
  cases ev with
  | tick now => exact absurd rfl (hev now)
  | _ => rfl

theorem advances_cons (hev : ∀ now, ev ≠ .tick now) :
    Advances now (ev :: evs) ↔ Advances now evs := by
  cases ev with
  | tick now => exact absurd rfl (hev now)
  | _ => rfl

theorem undisturbed_cons (hev : ∀ now, ev ≠ .tick now) (h : Undisturbed i (ev :: evs) s) :
    ¬ Wakes i ev s ∧ Undisturbed i evs (step ev s) := by
  cases ev with
  | tick now => exact absurd rfl (hev now)
  | signal events => exact h
  | _ => exact ⟨id, h⟩

/-- **The comparison is exact.** A deadline that is `left` ahead is reached
by a step of the clock that is at least that long. -/
theorem timeReached_iff {next : BitVec 32} (hpos : 1 ≤ left) (hleft : left < 2147483648)
    (hstep : (next - now).toNat < 2147483648) :
    Scheduler.timeReached next (now + BitVec.ofNat 32 left) = true ↔ left ≤ (next - now).toNat := by
  have hdiff : next - (now + BitVec.ofNat 32 left) = (next - now) - BitVec.ofNat 32 left := by
    bv_omega
  obtain ⟨d, hd⟩ : ∃ d, d = next - now := ⟨_, rfl⟩
  rw [Scheduler.timeReached, hdiff, ← hd, decide_eq_true_iff]
  rw [← hd] at hstep
  have hl : (BitVec.ofNat 32 left).toNat = left := by
    rw [BitVec.toNat_ofNat]
    omega
  rw [BitVec.toInt_eq_toNat_cond, BitVec.toNat_sub, hl]
  split <;> omega

/-! ## Steps -/

theorem nowMs_reschedule (s : Scheduler) (i : TaskIndex) : (reschedule s i).1.nowMs = s.nowMs := by
  unfold reschedule
  split
  · split
    · rfl
    · split <;> rfl
  · split <;> rfl

theorem nowMs_svcStart (s : Scheduler) (sp : SavedSp) : (svcStart s sp).1.nowMs = s.nowMs := by
  unfold svcStart
  split
  · rfl
  split
  · rfl
  · split <;> rfl

theorem nowMs_preempt (s : Scheduler) (i : TaskIndex) : (preempt s i).1.nowMs = s.nowMs := by
  unfold preempt
  split
  · rfl
  · split <;> rfl

theorem nowMs_svcRequest (s : Scheduler) (i : TaskIndex) (number : ℕ) (f : Frame) :
    ((svcRequest s i number f).after s).nowMs = s.nowMs := by
  unfold svcRequest
  split
  · rfl
  · rfl
  · unfold svcWaitEvents
    split
    · rfl
    · split <;> rfl
  · unfold svcTimedBlock
    split
    · rfl
    split
    · rfl
    · split <;> rfl
  · rfl

theorem nowMs_svcTask (s : Scheduler) (number : ℕ) (sp : SavedSp) :
    (svcTask s number sp).1.nowMs = s.nowMs := by
  unfold svcTask
  split
  · rename_i i f _ _
    have hreq := nowMs_svcRequest s i number f
    split
    · rfl
    · rename_i hresume
      rw [hresume] at hreq
      exact hreq
    · rename_i t hresched
      rw [hresched] at hreq
      exact (nowMs_reschedule t i).trans hreq
  · rfl
  · rfl

/-- Only a tick moves the clock. -/
theorem nowMs_step (hev : ∀ now, ev ≠ .tick now) (s : Scheduler) :
    (step ev s).nowMs = s.nowMs := by
  cases ev with
  | svcHost sp => exact nowMs_svcStart s sp
  | svc number sp => exact nowMs_svcTask s number sp
  | pendsv sp =>
    change (pendsvDispatch s sp).1.nowMs = _
    unfold pendsvDispatch
    split
    · exact nowMs_preempt _ _
    · rfl
    · rfl
  | signal events =>
    change (eventSignal events s).nowMs = _
    unfold eventSignal
    split <;> rfl
  | tick now => exact absurd rfl (hev now)
  | host =>
    change (hostLoop s).1.nowMs = _
    unfold hostLoop
    split
    · rfl
    split
    · exact nowMs_svcStart s .null
    · split <;> rfl

theorem nowMs_tick (now : BitVec 32) (s : Scheduler) : (step (.tick now) s).nowMs = now := by
  change (tick now s).nowMs = now
  unfold tick
  split <;> rfl

/-! ## A wait with a time -/

/-- The task is BLOCKED, and `left` of its time is to come. -/
structure Sleeping (left : ℕ) (s : Scheduler) (i : TaskIndex) : Prop where
  blocked : (s.tasks i).state = .blocked
  active : (s.tasks i).deadlineActive = true
  deadline : (s.tasks i).deadlineMs = s.nowMs + BitVec.ofNat 32 left
  pos : 1 ≤ left
  lt : left < 2147483648

/-- A BLOCKED task is not the current one. -/
theorem Sleeping.not_current (h : Invariant s) (hs : Sleeping left s i) :
    s.currentIndex ≠ some i := by
  intro hcur
  have hready := (h.current i hcur).1
  rw [hs.blocked] at hready
  cases hready

/-- Whatever is neither a tick nor a signal that wakes the task leaves it as
it is. -/
theorem Sleeping.quiet (h : Invariant s) (hs : Sleeping left s i)
    (hev : ∀ now, ev ≠ .tick now) (hw : ¬ Wakes i ev s) : Sleeping left (step ev s) i := by
  have htask := task_same (hs.not_current h) hw
  have hnow := nowMs_step hev s
  refine ⟨?_, ?_, ?_, hs.pos, hs.lt⟩
  · rw [htask]
    exact hs.blocked
  · rw [htask]
    exact hs.active
  · rw [htask, hnow]
    exact hs.deadline

theorem Sleeping.expires_iff (hs : Sleeping left s i)
    (hstep : (now - s.nowMs).toNat < 2147483648) :
    Expires now (s.tasks i) ↔ left ≤ (now - s.nowMs).toNat := by
  rw [← timeReached_iff hs.pos hs.lt hstep, ← hs.deadline]
  exact ⟨fun h => h.2.2, fun h => ⟨hs.blocked, hs.active, h⟩⟩

/-- A tick before the time is over takes its part of it. -/
theorem Sleeping.early (h : Invariant s) (hs : Sleeping left s i)
    (hstep : (now - s.nowMs).toNat < left) :
    Sleeping (left - (now - s.nowMs).toNat) (step (.tick now) s) i := by
  have hlt := hs.lt
  have hexp : ¬ Expires now (s.tasks i) := by
    rw [hs.expires_iff (by omega)]
    omega
  have hw : ¬ Wakes i (.tick now) s := fun hw => hexp hw.2
  have htask := task_same (hs.not_current h) hw
  refine ⟨?_, ?_, ?_, by omega, by omega⟩
  · rw [htask]
    exact hs.blocked
  · rw [htask]
    exact hs.active
  · rw [htask, nowMs_tick, hs.deadline]
    obtain ⟨d, hd⟩ : ∃ d, d = now - s.nowMs := ⟨_, rfl⟩
    have hnow : now = s.nowMs + d := by
      rw [hd]
      bv_omega
    rw [← hd] at hstep ⊢
    rw [hnow]
    bv_omega

/-- The tick at which the time is over makes the task READY. -/
theorem Sleeping.due (hs : Sleeping left s i) (hact : s.active = true)
    (hstep : (now - s.nowMs).toNat < 2147483648) (hdue : left ≤ (now - s.nowMs).toNat) :
    ((step (.tick now) s).tasks i).state = .ready := by
  change ((tick now s).tasks i).state = .ready
  unfold tick
  rw [if_pos hact]
  dsimp only
  rw [tickTask, if_pos ((hs.expires_iff hstep).2 hdue)]
  rfl

/-- **A run before the time is over** leaves the task BLOCKED, with what is
left of its time. -/
theorem Sleeping.run (h : Invariant s) (hs : Sleeping left s i)
    (hlegal : Ledger.Legal step MayOccur evs s) (hadv : Advances s.nowMs evs)
    (hquiet : Undisturbed i evs s) (hbefore : elapsed s.nowMs evs < left) :
    Sleeping (left - elapsed s.nowMs evs) (Ledger.run step evs s) i := by
  induction evs generalizing s left with
  | nil => exact hs
  | cons ev evs ih =>
    have hinv := invariant_step ev s h hlegal.1
    by_cases hev : ∀ now, ev ≠ .tick now
    · rw [elapsed_cons hev] at hbefore ⊢
      obtain ⟨hw, hrest⟩ := undisturbed_cons hev hquiet
      have hnow := nowMs_step hev s
      have hadv' := (advances_cons hev).1 hadv
      rw [← hnow] at hadv' hbefore ⊢
      exact ih hinv (hs.quiet h hev hw) hlegal.2 hadv' hrest hbefore
    · obtain ⟨now, rfl⟩ : ∃ now, ev = .tick now := by
        by_contra hne
        exact hev fun now htick => hne ⟨now, htick⟩
      obtain ⟨-, -, hadv⟩ := hadv
      rw [elapsed] at hbefore ⊢
      have hleft : (now - s.nowMs).toNat < left := by omega
      have hnext := hs.early h hleft
      rw [← nowMs_tick now s] at hadv
      have hrest := ih hinv hnext hlegal.2 hadv hquiet (by rw [nowMs_tick]; omega)
      rw [nowMs_tick, Nat.sub_sub] at hrest
      exact hrest

/-! ## The frames of the tasks -/

/-- Every task that can be dispatched, or will be, has a frame. -/
def Framed (s : Scheduler) : Prop :=
  ∀ i, (s.tasks i).state = .ready ∨ (s.tasks i).state = .blocked → (s.tasks i).saved ≠ none

theorem saved_svcRequest (hsaved : (s.tasks i).saved ≠ none) (number : ℕ) (f : Frame) :
    (((svcRequest s i number f).after s).tasks i).saved ≠ none := by
  have hset : ∀ (u : Scheduler) (t : Task), t.saved ≠ none →
      ((u.setTask i t).tasks i).saved ≠ none := by
    intro u t ht
    simp only [Scheduler.setTask, Function.update_self]
    exact ht
  have hsome : some f ≠ none := Option.some_ne_none f
  unfold svcRequest
  split
  · exact hset _ _ hsome
  · exact hset _ _ hsome
  · unfold svcWaitEvents
    split
    · exact hsaved
    split
    · exact hset _ _ (Option.some_ne_none _)
    · exact hset _ _ hsome
  · unfold svcTimedBlock
    split
    · exact hset _ _ (Option.some_ne_none _)
    split
    · exact hset _ _ (Option.some_ne_none _)
    split
    · exact hset _ _ (Option.some_ne_none _)
    · exact hset _ _ hsome
  · exact hsaved

/-- A step keeps the current task's frame. -/
theorem saved_step_current (h : Invariant s) (hf : Framed s) (hcur : s.currentIndex = some i)
    (ev : Event) : ((step ev s).tasks i).saved ≠ none := by
  have hready := (h.current i hcur).1
  have hsaved := hf i (Or.inl hready)
  have hblocked : (s.tasks i).state ≠ .blocked := by
    rw [hready]
    decide
  cases ev with
  | svcHost sp =>
    change ((svcStart s sp).1.tasks i).saved ≠ none
    rw [(svcStart_frame s sp).1]
    exact hsaved
  | host =>
    change ((hostLoop s).1.tasks i).saved ≠ none
    rw [(hostLoop_frame s).1]
    exact hsaved
  | signal events =>
    change ((eventSignal events s).tasks i).saved ≠ none
    unfold eventSignal
    split
    · exact hsaved
    · dsimp only
      rw [signalTask, matchedEvents, if_neg hblocked, if_neg (fun hne => hne rfl)]
      exact hsaved
  | tick now =>
    change ((tick now s).tasks i).saved ≠ none
    unfold tick
    split
    · dsimp only
      rw [tickTask, if_neg (fun hexp => hblocked hexp.1)]
      exact hsaved
    · exact hsaved
  | pendsv sp =>
    change ((pendsvDispatch s sp).1.tasks i).saved ≠ none
    unfold pendsvDispatch
    split
    · rename_i j f _ _ hj
      obtain rfl : i = j := Option.some.inj (hcur.symm.trans hj)
      rw [(preempt_frame _ _).1]
      simp [Scheduler.setTask]
    · exact hsaved
    · exact hsaved
  | svc number sp =>
    change ((svcTask s number sp).1.tasks i).saved ≠ none
    by_cases hrun : s.active = true ∧ ∃ f, sp = .frame f
    · obtain ⟨hact, f, rfl⟩ := hrun
      rw [(svcTask_frame hact hcur number f).1]
      exact saved_svcRequest hsaved number f
    · unfold svcTask
      split
      · rename_i j f hact _
        exact absurd ⟨hact, f, rfl⟩ hrun
      · exact hsaved
      · exact hsaved

/-- No event takes a frame from a task that will need it. -/
theorem framed_step (h : Invariant s) (hf : Framed s) (ev : Event) : Framed (step ev s) := by
  intro j hstate
  by_cases hcur : s.currentIndex = some j
  · exact saved_step_current h hf hcur ev
  by_cases hw : Wakes j ev s
  · obtain ⟨matched, htask⟩ := task_of_wakes h hw
    have hsaved := hf j (Or.inr (blocked_of_wakes hw))
    rw [htask]
    simpa [wakeTask] using hsaved
  · rw [task_same hcur hw] at hstate ⊢
    exact hf j hstate

/-- A run begins with frames for the tasks that are READY, and none BLOCKED. -/
theorem framed_started {s₀ : Scheduler} (h : Started s₀) : Framed s₀ := by
  have hfresh := h.fresh
  obtain ⟨s, s₁, calls, preemptive, -, hstart⟩ := h
  unfold startMode at hstart
  split at hstart
  · cases hstart
  split at hstart
  · cases hstart
  rename_i hframes
  split at hstart
  · cases hstart
  · obtain rfl := Option.some.inj hstart
    intro i hstate hnone
    rcases hstate with hready | hblocked
    · exact hframes ⟨i, hready, hnone⟩
    · rcases hfresh.states i with hi | hi
      · rw [hi] at hblocked
        cases hblocked
      · rw [hi] at hblocked
        cases hblocked

theorem framed_run {s₀ : Scheduler} (h : Started s₀)
    (hlegal : Ledger.Legal step MayOccur evs s₀) :
    Invariant (Ledger.run step evs s₀) ∧ Framed (Ledger.run step evs s₀) :=
  Ledger.invariant_run (I := fun s => Invariant s ∧ Framed s)
    (fun ev s hs hmay => ⟨invariant_step ev s hs.1 hmay, framed_step hs.1 hs.2 ev⟩)
    ⟨h.invariant, framed_started h⟩ hlegal

/-! ## The three outcomes of the call -/

/-- A tick or a signal: what comes while no task is entered. -/
def IsInterrupt : Event → Prop
  | .tick _ => True
  | .signal _ => True
  | _ => False

/-- No number of interrupts stops the scheduler. -/
theorem active_of_interrupts (hact : s.active = true)
    (hevs : ∀ ev ∈ evs, IsInterrupt ev) : (Ledger.run step evs s).active = true := by
  induction evs generalizing s with
  | nil => exact hact
  | cons ev evs ih =>
    refine ih ?_ fun ev' hev' => hevs ev' (List.mem_cons_of_mem _ hev')
    have hint := hevs ev List.mem_cons_self
    cases ev with
    | tick now =>
      change (tick now s).active = true
      unfold tick
      rw [if_pos hact]
      exact hact
    | signal events =>
      change (eventSignal events s).active = true
      unfold eventSignal
      split <;> exact hact
    | svcHost sp => exact absurd hint id
    | svc number sp => exact absurd hint id
    | pendsv sp => exact absurd hint id
    | host => exact absurd hint id

/-- What `SCHEDULER_SVC_TIMED_BLOCK` does to the task `i`, which called it
with the frame `f` in the state `s`. -/
structure TimedBlock (s : Scheduler) (i : TaskIndex) (f : Frame) : Prop where
  /-- The task blocks, and the run goes on. -/
  blocks : s.pendingEvents &&& f.r0 = 0 → f.r1 ≠ 0 → ¬ maxTimeoutMs < f.r1 →
    ((step (.svc 4 (.frame f)) s).tasks i).state = .blocked ∧
      (step (.svc 4 (.frame f)) s).active = true
  /-- Until the time is over, a task that no event wakes is BLOCKED. -/
  before : s.pendingEvents &&& f.r0 = 0 → f.r1 ≠ 0 → ¬ maxTimeoutMs < f.r1 → ∀ evs,
    Ledger.Legal step MayOccur evs (step (.svc 4 (.frame f)) s) → Advances s.nowMs evs →
    Undisturbed i evs (step (.svc 4 (.frame f)) s) → elapsed s.nowMs evs < f.r1.toNat →
    ((Ledger.run step evs (step (.svc 4 (.frame f)) s)).tasks i).state = .blocked
  /-- The first tick at which it is over makes it READY, in a run that has
  not been given up. -/
  wakes : s.pendingEvents &&& f.r0 = 0 → f.r1 ≠ 0 → ¬ maxTimeoutMs < f.r1 → ∀ evs now,
    Ledger.Legal step MayOccur evs (step (.svc 4 (.frame f)) s) →
    Advances s.nowMs (evs ++ [.tick now]) → Undisturbed i evs (step (.svc 4 (.frame f)) s) →
    elapsed s.nowMs evs < f.r1.toNat → f.r1.toNat ≤ elapsed s.nowMs (evs ++ [.tick now]) →
    (Ledger.run step evs (step (.svc 4 (.frame f)) s)).active = true →
    ((Ledger.run step (evs ++ [.tick now]) (step (.svc 4 (.frame f)) s)).tasks i).state = .ready
  /-- Ticks and signals do not give it up. -/
  goesOn : s.pendingEvents &&& f.r0 = 0 → f.r1 ≠ 0 → ¬ maxTimeoutMs < f.r1 → ∀ evs,
    (∀ ev ∈ evs, IsInterrupt ev) →
    (Ledger.run step evs (step (.svc 4 (.frame f)) s)).active = true
  /-- A time that is too long is refused at once. -/
  refused : s.pendingEvents &&& f.r0 = 0 → maxTimeoutMs < f.r1 →
    (dispatch (.svc 4 (.frame f)) s).2 = some { f with r0 := 0 } ∧
      (step (.svc 4 (.frame f)) s).currentIndex = some i ∧
      ((step (.svc 4 (.frame f)) s).tasks i).state = .ready
  /-- A time of zero returns at once, whatever is pending. -/
  zero : f.r1 = 0 → (dispatch (.svc 4 (.frame f)) s).2.isSome = true ∧
    (step (.svc 4 (.frame f)) s).currentIndex = some i ∧
    ((step (.svc 4 (.frame f)) s).tasks i).state = .ready

/-- The state in which a timed wait leaves the task. -/
theorem svcRequest_timed (hnone : s.pendingEvents &&& f.r0 = 0) (hr1 : f.r1 ≠ 0)
    (hmax : ¬ maxTimeoutMs < f.r1) :
    svcRequest s i 4 f = .reschedule (s.setTask i
      { s.tasks i with
        saved := some f, waitEvents := f.r0, wakeEvents := 0,
        deadlineMs := s.nowMs + f.r1, deadlineActive := true, state := .blocked }) := by
  have hmatch : ¬ (f.r0 ≠ 0 ∧ s.pendingEvents &&& f.r0 ≠ 0) := fun h => h.2 hnone
  exact (if_neg hmatch).trans ((if_neg hr1).trans (if_neg hmax))

/-- **A timed wait blocks** for its time, where nothing that it asks for is
latched and the time is one that the source accepts. -/
theorem sleeping_timedBlock (hact : s.active = true) (hcur : s.currentIndex = some i)
    (hnone : s.pendingEvents &&& f.r0 = 0) (hr1 : f.r1 ≠ 0) (hmax : ¬ maxTimeoutMs < f.r1) :
    Sleeping f.r1.toNat (step (.svc 4 (.frame f)) s) i := by
  have hnow : (step (.svc 4 (.frame f)) s).nowMs = s.nowMs :=
    nowMs_step (fun _ h => by cases h) s
  have htask : (step (.svc 4 (.frame f)) s).tasks i =
      { s.tasks i with
        saved := some f, waitEvents := f.r0, wakeEvents := 0,
        deadlineMs := s.nowMs + f.r1, deadlineActive := true, state := .blocked } := by
    change (svcTask s 4 (.frame f)).1.tasks i = _
    rw [(svcTask_frame hact hcur 4 f).1, svcRequest_timed hnone hr1 hmax]
    simp [Request.after, Scheduler.setTask]
  have hpos : f.r1.toNat ≠ 0 := fun h => hr1 (BitVec.eq_of_toNat_eq (by simpa using h))
  have hlt : ¬ (2147483647 < f.r1.toNat) := fun h =>
    hmax (by simpa [maxTimeoutMs, BitVec.lt_def] using h)
  refine ⟨by rw [htask], by rw [htask], ?_, by omega, by omega⟩
  rw [htask, hnow]
  simp

/-- Another task is dispatched, or none is READY and the run waits. -/
theorem active_timedBlock (h : Invariant s) (hf : Framed s) (hact : s.active = true)
    (hcur : s.currentIndex = some i) (hnone : s.pendingEvents &&& f.r0 = 0) (hr1 : f.r1 ≠ 0)
    (hmax : ¬ maxTimeoutMs < f.r1) : (step (.svc 4 (.frame f)) s).active = true := by
  change (svcTask s 4 (.frame f)).1.active = true
  unfold svcTask
  rw [hact, hcur]
  simp only [svcRequest_timed hnone hr1 hmax]
  obtain ⟨t, ht⟩ : ∃ t : Task, t = { s.tasks i with
      saved := some f, waitEvents := f.r0, wakeEvents := 0,
      deadlineMs := s.nowMs + f.r1, deadlineActive := true, state := .blocked } := ⟨_, rfl⟩
  rw [← ht]
  have hcount : (s.setTask i t).completedCount ≠ (s.setTask i t).targetCount :=
    Nat.ne_of_lt (h.running hact).2
  have hblocked : hasBlockedTasks (s.setTask i t) = true := by
    refine decide_eq_true ⟨i, ?_⟩
    simp [Scheduler.setTask, ht]
  unfold reschedule
  split
  · rw [if_neg hcount, if_neg (by rw [hblocked]; decide)]
    exact hact
  · rename_i next hnext
    split
    · rename_i hsaved
      have hready := ready_of_select hnext
      by_cases hi : next = i
      · rw [hi] at hready
        simp [Scheduler.setTask, ht] at hready
      · simp only [Scheduler.setTask, Function.update_of_ne hi] at hready hsaved
        exact absurd hsaved (hf next (Or.inl hready))
    · exact hact

theorem advances_append {now : BitVec 32} {next : BitVec 32} :
    Advances now (evs ++ [.tick next]) → Advances now evs ∧
      ∃ last, elapsed now (evs ++ [.tick next]) = elapsed now evs + (next - last).toNat ∧
        (next - last).toNat < 2147483648 ∧
        ∀ {s : Scheduler}, s.nowMs = now → (Ledger.run step evs s).nowMs = last := by
  induction evs generalizing now with
  | nil =>
    intro hadv
    exact ⟨trivial, now, Nat.add_comm _ _, hadv.2.1, fun hs => hs⟩
  | cons ev evs ih =>
    by_cases hev : ∀ now, ev ≠ .tick now
    · rw [List.cons_append, advances_cons hev, advances_cons hev, elapsed_cons hev, elapsed_cons hev]
      intro hadv
      obtain ⟨hadv, last, hsum, hlt, hlast⟩ := ih hadv
      exact ⟨hadv, last, hsum, hlt, fun hs => hlast ((nowMs_step hev _).trans hs)⟩
    · obtain ⟨tick, rfl⟩ : ∃ now, ev = .tick now := by
        by_contra hne
        exact hev fun now htick => hne ⟨now, htick⟩
      rintro ⟨hpos, hstep, hadv⟩
      obtain ⟨hadv, last, hsum, hlt, hlast⟩ := ih hadv
      refine ⟨⟨hpos, hstep, hadv⟩, last, ?_, hlt, fun _ => hlast (nowMs_tick tick _)⟩
      rw [List.cons_append, elapsed, elapsed, hsum, Nat.add_assoc]

/-- A request that returns at once leaves its task READY and current. -/
theorem resumes_svcTask (h : Invariant s) (hact : s.active = true) (hcur : s.currentIndex = some i)
    {matched result : BitVec 32} (hreq : svcRequest s i 4 f = resumeWith s i f matched result) :
    (dispatch (.svc 4 (.frame f)) s).2 = some { f with r0 := result } ∧
      (step (.svc 4 (.frame f)) s).currentIndex = some i ∧
      ((step (.svc 4 (.frame f)) s).tasks i).state = .ready := by
  change (svcTask s 4 (.frame f)).2 = _ ∧ (svcTask s 4 (.frame f)).1.currentIndex = _ ∧
    ((svcTask s 4 (.frame f)).1.tasks i).state = _
  unfold svcTask
  rw [hact, hcur]
  simp only [hreq, resumeWith, true_and]
  refine ⟨hcur, ?_⟩
  simp [Scheduler.setTask, (h.current i hcur).1]

/-- **Timed wake-up is exact,** whatever the clock reads when the task blocks,
in every state of every run in which the task is the current one: it is not
woken before its time, unless by an event that it waits for, and it is woken
with its time, modulo `2 ^ 32`. -/
theorem timed_wake_exact {s₀ : Scheduler} (h : Started s₀) {past : List Event}
    (hpast : Ledger.Legal step MayOccur past s₀) {i : TaskIndex}
    (hact : (Ledger.run step past s₀).active = true)
    (hcur : (Ledger.run step past s₀).currentIndex = some i) (f : Frame) :
    TimedBlock (Ledger.run step past s₀) i f := by
  obtain ⟨s, hs⟩ : ∃ s, s = Ledger.run step past s₀ := ⟨_, rfl⟩
  obtain ⟨hinv, hframed⟩ := framed_run h hpast
  rw [← hs] at hact hcur hinv hframed ⊢
  have hnext : Invariant (step (.svc 4 (.frame f)) s) := invariant_step _ s hinv hact
  have hnow : (step (.svc 4 (.frame f)) s).nowMs = s.nowMs :=
    nowMs_step (fun _ h => by cases h) s
  have hmatch : s.pendingEvents &&& f.r0 = 0 → ¬ (f.r0 ≠ 0 ∧ s.pendingEvents &&& f.r0 ≠ 0) :=
    fun hnone hm => hm.2 hnone
  constructor
  case blocks =>
    intro hnone hr1 hmax
    exact ⟨(sleeping_timedBlock hact hcur hnone hr1 hmax).blocked,
      active_timedBlock hinv hframed hact hcur hnone hr1 hmax⟩
  case before =>
    intro hnone hr1 hmax evs hlegal hadv hquiet hearly
    have hsleep := sleeping_timedBlock hact hcur hnone hr1 hmax
    rw [← hnow] at hadv hearly
    exact (hsleep.run hnext hlegal hadv hquiet hearly).blocked
  case wakes =>
    intro hnone hr1 hmax evs now hlegal hadv hquiet hearly hdue hrunning
    have hsleep := sleeping_timedBlock hact hcur hnone hr1 hmax
    obtain ⟨hadv, last, hsum, hlt, hlast⟩ := advances_append hadv
    have hclock := hlast hnow
    rw [hsum] at hdue
    rw [← hnow] at hadv hearly hdue
    have hrest := hsleep.run hnext hlegal hadv hquiet hearly
    rw [Ledger.run_append]
    refine hrest.due hrunning (by rw [hclock]; exact hlt) ?_
    rw [hclock]
    omega
  case goesOn =>
    intro hnone hr1 hmax evs hevs
    exact active_of_interrupts (active_timedBlock hinv hframed hact hcur hnone hr1 hmax) hevs
  case refused =>
    intro hnone hmax
    have hr1 : f.r1 ≠ 0 := by
      intro hr1
      rw [hr1] at hmax
      exact absurd hmax (by decide)
    exact resumes_svcTask hinv hact hcur
      ((if_neg (hmatch hnone)).trans ((if_neg hr1).trans (if_pos hmax)))
  case zero =>
    intro hr1
    by_cases hpending : f.r0 ≠ 0 ∧ s.pendingEvents &&& f.r0 ≠ 0
    · have hreturn := resumes_svcTask hinv hact hcur (f := f) (if_pos hpending)
      exact ⟨by rw [hreturn.1]; rfl, hreturn.2⟩
    · have hreturn := resumes_svcTask hinv hact hcur (f := f)
        ((if_neg hpending).trans (if_pos hr1))
      exact ⟨by rw [hreturn.1]; rfl, hreturn.2⟩

/-- The clock is about to wrap when the more urgent of two tasks blocks. -/
theorem timed_wake_exact_of_twoTasks :
    TimedBlock (Ledger.run step [.svcHost .null, .tick 0xFFFFFFF0] twoTasksStarted)
      ⟨1, by decide⟩ ⟨0, 100⟩ := by
  have hlegal : Ledger.Legal step MayOccur [.svcHost .null, .tick 0xFFFFFFF0] twoTasksStarted := by
    refine ⟨?_, trivial, trivial⟩
    show (Scheduler.active _ = true)
    decide
  exact timed_wake_exact started_twoTasks hlegal (by decide) (by decide) _

end DeusOs.Kernel
