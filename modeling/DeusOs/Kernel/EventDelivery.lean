import DeusOs.Kernel.Scheduler

/-!
# What becomes of an event

`event_accounting`: every bit of every signal goes to all the tasks that are
BLOCKED on it, or is latched and waits for the one wait that consumes it; a
task that blocks is woken once, and its wait returns what woke it.

A bit is the number of its place in the event word.
-/

namespace DeusOs.Kernel

open FirstLeast Scheduler

/-! ## The kinds of steps -/

/-- The task is BLOCKED, and the bit is among those it waits for. -/
def WaitsOn (s : Scheduler) (i : TaskIndex) (b : ℕ) : Prop :=
  (s.tasks i).state = .blocked ∧ (s.tasks i).waitEvents.getLsbD b = true

instance (s : Scheduler) (i : TaskIndex) (b : ℕ) : Decidable (WaitsOn s i b) :=
  inferInstanceAs (Decidable (_ ∧ _))

/-- The bit is latched. -/
def Latched (s : Scheduler) (b : ℕ) : Prop := s.pendingEvents.getLsbD b = true

instance (s : Scheduler) (b : ℕ) : Decidable (Latched s b) := inferInstanceAs (Decidable (_ = _))

/-- The step signals the bit. -/
def Signals (b : ℕ) : Event → Scheduler → Prop
  | .signal events, s => s.active = true ∧ events.getLsbD b = true
  | _, _ => False

instance (b : ℕ) : ∀ ev s, Decidable (Signals b ev s)
  | .signal _, _ => inferInstanceAs (Decidable (_ ∧ _))
  | .svcHost _, _ | .svc _ _, _ | .pendsv _, _ | .tick _, _ | .host, _ =>
    inferInstanceAs (Decidable False)

/-- The step signals the bit while some task waits for it. -/
def Delivers (b : ℕ) (ev : Event) (s : Scheduler) : Prop :=
  Signals b ev s ∧ ∃ i, WaitsOn s i b

/-- The step signals the bit while no task waits for it and it is not
latched: it is latched now. -/
def Latches (b : ℕ) (ev : Event) (s : Scheduler) : Prop :=
  Signals b ev s ∧ (¬ ∃ i, WaitsOn s i b) ∧ ¬ Latched s b

/-- The step signals the bit while it is latched: the two signals become
one. -/
def Merges (b : ℕ) (ev : Event) (s : Scheduler) : Prop :=
  Signals b ev s ∧ (¬ ∃ i, WaitsOn s i b) ∧ Latched s b

instance (b : ℕ) (ev : Event) (s : Scheduler) : Decidable (Delivers b ev s) :=
  inferInstanceAs (Decidable (_ ∧ _))

instance (b : ℕ) (ev : Event) (s : Scheduler) : Decidable (Latches b ev s) :=
  inferInstanceAs (Decidable (_ ∧ _))

instance (b : ℕ) (ev : Event) (s : Scheduler) : Decidable (Merges b ev s) :=
  inferInstanceAs (Decidable (_ ∧ _))

/-- The numbers of the two waits. -/
def IsWait (number : ℕ) : Prop := number = 3 ∨ number = 4

instance (number : ℕ) : Decidable (IsWait number) := inferInstanceAs (Decidable (_ ∨ _))

/-- The current task waits, and the bit is latched and among those it asks
for. -/
def Consumes (b : ℕ) : Event → Scheduler → Prop
  | .svc number (.frame f), s =>
    s.active = true ∧ s.currentIndex ≠ none ∧ IsWait number ∧ f.r0.getLsbD b = true ∧ Latched s b
  | _, _ => False

instance (b : ℕ) : ∀ ev s, Decidable (Consumes b ev s)
  | .svc _ (.frame _), _ => inferInstanceAs (Decidable (_ ∧ _))
  | .svc _ .null, _ | .svc _ .outside, _ => inferInstanceAs (Decidable False)
  | .svcHost _, _ | .pendsv _, _ | .signal _, _ | .tick _, _ | .host, _ =>
    inferInstanceAs (Decidable False)

/-- A wait that cannot end at once: nothing it asks for is latched, and,
where it has a timeout, the timeout is one that can be waited for. -/
def MustWait (pending : BitVec 32) (number : ℕ) (f : Frame) : Prop :=
  pending &&& f.r0 = 0 ∧
    (number = 3 ∧ f.r0 ≠ 0 ∨ number = 4 ∧ f.r1 ≠ 0 ∧ ¬ maxTimeoutMs < f.r1)

instance (pending : BitVec 32) (number : ℕ) (f : Frame) : Decidable (MustWait pending number f) :=
  inferInstanceAs (Decidable (_ ∧ _))

/-- The task blocks. -/
def Blocks (i : TaskIndex) : Event → Scheduler → Prop
  | .svc number (.frame f), s =>
    s.active = true ∧ s.currentIndex = some i ∧ MustWait s.pendingEvents number f
  | _, _ => False

instance (i : TaskIndex) : ∀ ev s, Decidable (Blocks i ev s)
  | .svc _ (.frame _), _ => inferInstanceAs (Decidable (_ ∧ _))
  | .svc _ .null, _ | .svc _ .outside, _ => inferInstanceAs (Decidable False)
  | .svcHost _, _ | .pendsv _, _ | .signal _, _ | .tick _, _ | .host, _ =>
    inferInstanceAs (Decidable False)

/-- The step patches the task's frame and makes it READY: a signal of
something it waits for, or the tick that finds its deadline reached. -/
def Wakes (i : TaskIndex) : Event → Scheduler → Prop
  | .signal events, s =>
    s.active = true ∧ matchedEvents (s.pendingEvents ||| events) (s.tasks i) ≠ 0
  | .tick now, s => s.active = true ∧ Expires now (s.tasks i)
  | _, _ => False

instance (i : TaskIndex) : ∀ ev s, Decidable (Wakes i ev s)
  | .signal _, _ => inferInstanceAs (Decidable (_ ∧ _))
  | .tick _, _ => inferInstanceAs (Decidable (_ ∧ _))
  | .svcHost _, _ | .svc _ _, _ | .pendsv _, _ | .host, _ => inferInstanceAs (Decidable False)

/-- What the wait that asked for `requested` returns when this step wakes
it. -/
def wakeResult (requested : BitVec 32) : Event → BitVec 32
  | .signal events => requested &&& events
  | _ => if requested = 0 then 1 else 0

/-! ## What a request leaves -/

/-- The state that a request leaves to the end of the call. -/
def Scheduler.Request.after (s : Scheduler) : Request → Scheduler
  | .abort _ => s
  | .resume t _ => t
  | .reschedule t => t

/-- The end of a call leaves the task table and the latch alone. -/
theorem reschedule_frame (s : Scheduler) (i : TaskIndex) :
    (reschedule s i).1.tasks = s.tasks ∧
      (reschedule s i).1.pendingEvents = s.pendingEvents := by
  unfold reschedule
  split
  · split
    · exact ⟨rfl, rfl⟩
    · split
      · exact ⟨rfl, rfl⟩
      · exact ⟨rfl, rfl⟩
  · split
    · exact ⟨rfl, rfl⟩
    · exact ⟨rfl, rfl⟩

/-- Starting the scheduler leaves the tasks and the pending events. -/
theorem svcStart_frame (s : Scheduler) (sp : SavedSp) :
    (svcStart s sp).1.tasks = s.tasks ∧ (svcStart s sp).1.pendingEvents = s.pendingEvents := by
  unfold svcStart
  split
  · exact ⟨rfl, rfl⟩
  split
  · exact ⟨rfl, rfl⟩
  · split
    · exact ⟨rfl, rfl⟩
    · exact ⟨rfl, rfl⟩

/-- The host loop leaves the tasks and the pending events. -/
theorem hostLoop_frame (s : Scheduler) :
    (hostLoop s).1.tasks = s.tasks ∧ (hostLoop s).1.pendingEvents = s.pendingEvents := by
  unfold hostLoop
  split
  · exact ⟨rfl, rfl⟩
  split
  · exact svcStart_frame s .null
  · split
    · exact ⟨rfl, rfl⟩
    · exact ⟨rfl, rfl⟩

/-- A preemption saves the current task's frame and nothing else. -/
theorem preempt_frame (s : Scheduler) (i : TaskIndex) :
    (preempt s i).1.tasks = s.tasks ∧ (preempt s i).1.pendingEvents = s.pendingEvents := by
  unfold preempt
  split
  · exact ⟨rfl, rfl⟩
  · split
    · exact ⟨rfl, rfl⟩
    · exact ⟨rfl, rfl⟩

section Svc

variable {s : Scheduler} {i : TaskIndex} {f : Frame} {number : ℕ}

/-- A call of a task changes of the tasks and the pending events what its
request does. -/
theorem svcTask_frame (hact : s.active = true) (hcur : s.currentIndex = some i) (number : ℕ)
    (f : Frame) :
    (svcTask s number (.frame f)).1.tasks = ((svcRequest s i number f).after s).tasks ∧
      (svcTask s number (.frame f)).1.pendingEvents =
        ((svcRequest s i number f).after s).pendingEvents := by
  unfold svcTask
  rw [hact, hcur]
  simp only
  cases hreq : svcRequest s i number f with
  | abort site => exact ⟨rfl, rfl⟩
  | resume t g => exact ⟨rfl, rfl⟩
  | reschedule t => exact reschedule_frame t i

/-- A wait that must block makes its task BLOCKED on what it asked for, with
the frame it came with. -/
theorem svcRequest_of_mustWait (h : MustWait s.pendingEvents number f) :
    ∃ t, svcRequest s i number f = .reschedule (s.setTask i t) ∧ t.state = .blocked ∧
      t.waitEvents = f.r0 ∧ t.saved = some f ∧ (t.deadlineActive = true → number = 4) := by
  obtain ⟨hnone, ⟨rfl, hr0⟩ | ⟨rfl, hr1, hlong⟩⟩ := h
  · exact ⟨_, (if_neg hr0).trans (if_neg (not_not.mpr hnone)), rfl, rfl, rfl,
      fun h => absurd h (by simp)⟩
  · have hmatch : ¬ (f.r0 ≠ 0 ∧ s.pendingEvents &&& f.r0 ≠ 0) := fun h => h.2 hnone
    exact ⟨_, (if_neg hmatch).trans ((if_neg hr1).trans (if_neg hlong)), rfl, rfl, rfl,
      fun _ => rfl⟩

/-- Any other request leaves its task as it was, READY or DONE. -/
theorem svcRequest_of_not_mustWait (hready : (s.tasks i).state = .ready)
    (h : ¬ MustWait s.pendingEvents number f) :
    (((svcRequest s i number f).after s).tasks i).state ≠ .blocked := by
  have hresume : ∀ matched result,
      (((resumeWith s i f matched result).after s).tasks i).state ≠ .blocked := by
    intro matched result
    simp [resumeWith, Request.after, Scheduler.setTask, hready]
  unfold svcRequest
  split
  · simp [svcYield, Request.after, Scheduler.setTask, hready]
  · simp [svcExit, Request.after, Scheduler.setTask]
  · unfold svcWaitEvents
    by_cases hzero : f.r0 = 0
    · rw [if_pos hzero]
      simp [Request.after, hready]
    rw [if_neg hzero]
    by_cases hmatch : s.pendingEvents &&& f.r0 ≠ 0
    · rw [if_pos hmatch]
      exact hresume _ _
    · exact absurd ⟨not_not.mp hmatch, Or.inl ⟨rfl, hzero⟩⟩ h
  · unfold svcTimedBlock
    by_cases hmatch : f.r0 ≠ 0 ∧ s.pendingEvents &&& f.r0 ≠ 0
    · rw [if_pos hmatch]
      exact hresume _ _
    rw [if_neg hmatch]
    by_cases hzero : f.r1 = 0
    · rw [if_pos hzero]
      exact hresume _ _
    rw [if_neg hzero]
    by_cases hlong : maxTimeoutMs < f.r1
    · rw [if_pos hlong]
      exact hresume _ _
    · refine absurd ⟨?_, Or.inr ⟨rfl, hzero, hlong⟩⟩ h
      by_contra hne
      refine hmatch ⟨fun hr0 => hne ?_, hne⟩
      rw [hr0]
      exact BitVec.and_zero
  · simp [Request.after, hready]

/-- A request changes no other task. -/
theorem svcRequest_other {j : TaskIndex} (hj : j ≠ i) :
    ((svcRequest s i number f).after s).tasks j = s.tasks j := by
  have hset : ∀ (s' : Scheduler) (t : Task), (s'.setTask i t).tasks j = s'.tasks j :=
    fun s' t => by simp [Scheduler.setTask, Function.update_of_ne hj]
  unfold svcRequest
  split
  · exact hset _ _
  · exact hset _ _
  · unfold svcWaitEvents
    split
    · rfl
    split
    · exact hset _ _
    · exact hset _ _
  · unfold svcTimedBlock
    split
    · exact hset _ _
    split
    · exact hset _ _
    split
    · exact hset _ _
    · exact hset _ _
  · rfl

/-- A wait takes from the latch what it asked for; nothing else takes
anything. -/
theorem pending_svcRequest (b : ℕ) :
    ((svcRequest s i number f).after s).pendingEvents.getLsbD b = true ↔
      Latched s b ∧ ¬ (IsWait number ∧ f.r0.getLsbD b = true) := by
  have htake : ∀ matched : BitVec 32, matched = s.pendingEvents &&& f.r0 →
      ((s.pendingEvents &&& ~~~matched).getLsbD b = true ↔
        Latched s b ∧ ¬ f.r0.getLsbD b = true) := by
    rintro matched rfl
    unfold Latched
    by_cases hb : b < 32
    · simp only [BitVec.getLsbD_and, BitVec.getLsbD_not, hb, decide_true]
      cases s.pendingEvents.getLsbD b <;> cases f.r0.getLsbD b <;> simp
    · simp [BitVec.getLsbD_of_ge _ b (Nat.le_of_not_lt hb)]
  have hnone : s.pendingEvents &&& f.r0 = 0 →
      (s.pendingEvents.getLsbD b = true ↔ Latched s b ∧ ¬ f.r0.getLsbD b = true) := by
    intro hzero
    have hand : (s.pendingEvents &&& f.r0).getLsbD b = false := by simp [hzero]
    rw [BitVec.getLsbD_and] at hand
    unfold Latched
    cases hp : s.pendingEvents.getLsbD b <;> simp_all
  unfold svcRequest
  split
  · simp [svcYield, Request.after, Scheduler.setTask, IsWait, Latched]
  · simp [svcExit, Request.after, Scheduler.setTask, IsWait, Latched]
  · have hw : IsWait 3 := Or.inl rfl
    simp only [hw, true_and]
    unfold svcWaitEvents
    by_cases hzero : f.r0 = 0
    · rw [if_pos hzero]
      exact hnone (by rw [hzero]; exact BitVec.and_zero)
    rw [if_neg hzero]
    by_cases hmatch : s.pendingEvents &&& f.r0 ≠ 0
    · rw [if_pos hmatch]
      exact htake _ rfl
    · rw [if_neg hmatch]
      exact hnone (not_not.mp hmatch)
  · have hw : IsWait 4 := Or.inr rfl
    simp only [hw, true_and]
    unfold svcTimedBlock
    by_cases hmatch : f.r0 ≠ 0 ∧ s.pendingEvents &&& f.r0 ≠ 0
    · rw [if_pos hmatch]
      exact htake _ rfl
    have hzero : s.pendingEvents &&& f.r0 = 0 := by
      by_contra hne
      refine hmatch ⟨fun hr0 => hne ?_, hne⟩
      rw [hr0]
      exact BitVec.and_zero
    rw [if_neg hmatch]
    split
    · exact htake _ hzero.symm
    split
    · exact htake _ hzero.symm
    · exact hnone hzero
  next h1 h2 h3 h4 =>
    have hw : ¬ IsWait number := fun hw => by
      rcases hw with rfl | rfl
      · exact h3 rfl
      · exact h4 rfl
    simp [hw, Request.after, Latched]

end Svc

/-! ## The latch, step by step -/

theorem matchedEvents_bit {pending : BitVec 32} {t : Task} {b : ℕ} :
    (matchedEvents pending t).getLsbD b = true ↔
      (t.state = .blocked ∧ t.waitEvents.getLsbD b = true) ∧ pending.getLsbD b = true := by
  unfold matchedEvents
  by_cases hb : t.state = .blocked
  · simp [hb]
  · simp [hb]

/-- A bit is consumed by a signal when some task matches it. -/
theorem consumedEvents_bit {pending : BitVec 32} {tasks : TaskIndex → Task} {b : ℕ} :
    (consumedEvents pending tasks).getLsbD b = true ↔
      ∃ i, (matchedEvents pending (tasks i)).getLsbD b = true := by
  have hfold : ∀ (l : List TaskIndex) (consumed : BitVec 32),
      (l.foldl (fun consumed i => consumed ||| matchedEvents pending (tasks i)) consumed).getLsbD b
        = true ↔
      consumed.getLsbD b = true ∨ ∃ i ∈ l, (matchedEvents pending (tasks i)).getLsbD b = true := by
    intro l
    induction l with
    | nil => simp
    | cons i l ih =>
      intro consumed
      rw [List.foldl_cons, ih, BitVec.getLsbD_or]
      simp [or_assoc]
  unfold consumedEvents
  rw [hfold]
  simp

section Steps

variable {s : Scheduler} {b : ℕ} {i : TaskIndex} {ev : Event}

/-- No bit is latched that a task is BLOCKED on. -/
theorem not_latched_of_waitsOn (h : Invariant s) (hwaits : WaitsOn s i b) : ¬ Latched s b := by
  intro hlatched
  have hzero := (h.sound i).not_lost hwaits.1
  have hbit : ((s.tasks i).waitEvents &&& s.pendingEvents).getLsbD b = true := by
    rw [BitVec.getLsbD_and, hwaits.2, hlatched]
    rfl
  rw [hzero] at hbit
  simp at hbit

/-- A signalled bit is in the word the tasks are matched with, and no bit of
a BLOCKED task's wait was there before. -/
theorem matched_signal (h : Invariant s) (events : BitVec 32) :
    matchedEvents (s.pendingEvents ||| events) (s.tasks i) =
      matchedEvents events (s.tasks i) := by
  unfold matchedEvents
  by_cases hb : (s.tasks i).state = .blocked
  · have hzero := (h.sound i).not_lost hb
    rw [if_pos hb, if_pos hb]
    apply BitVec.eq_of_getLsbD_eq
    intro k _
    have hk : ((s.tasks i).waitEvents &&& s.pendingEvents).getLsbD k = false := by simp [hzero]
    rw [BitVec.getLsbD_and] at hk
    simp only [BitVec.getLsbD_and, BitVec.getLsbD_or]
    cases hw : (s.tasks i).waitEvents.getLsbD k <;> simp_all
  · rw [if_neg hb, if_neg hb]

theorem latched_signal (h : Invariant s) (hact : s.active = true) (events : BitVec 32) :
    Latched (eventSignal events s) b ↔
      (Latched s b ∨ events.getLsbD b = true) ∧
        ¬ (events.getLsbD b = true ∧ ∃ i, WaitsOn s i b) := by
  by_cases hzero : events = 0
  · -- the early return: no bit is signalled
    subst hzero
    simp [eventSignal]
  have hstep : Latched (eventSignal events s) b ↔
      ((s.pendingEvents ||| events).getLsbD b = true ∧
        ¬ (consumedEvents (s.pendingEvents ||| events) s.tasks).getLsbD b = true) := by
    unfold eventSignal Latched
    have hgo : ¬ (events = 0 ∨ s.active = false) := not_or.mpr ⟨hzero, by simp [hact]⟩
    rw [if_neg hgo]
    by_cases hb : b < 32
    · simp [hb]
    · simp [BitVec.getLsbD_of_ge _ b (Nat.le_of_not_lt hb)]
  have hconsumed : (consumedEvents (s.pendingEvents ||| events) s.tasks).getLsbD b = true ↔
      events.getLsbD b = true ∧ ∃ i, WaitsOn s i b := by
    rw [consumedEvents_bit]
    simp only [matched_signal h, matchedEvents_bit]
    constructor
    · rintro ⟨i, hi, he⟩
      exact ⟨he, i, hi⟩
    · rintro ⟨he, i, hi⟩
      exact ⟨i, hi, he⟩
  rw [hstep, hconsumed, BitVec.getLsbD_or, Bool.or_eq_true]
  exact Iff.rfl

/-- **The latch.** After a step a bit is latched when it was or is signalled
now, no task was BLOCKED on it when it was signalled, and no wait took it. -/
theorem latched_step (h : Invariant s) (ev : Event) :
    Latched (step ev s) b ↔
      (Latched s b ∨ Signals b ev s) ∧ ¬ Delivers b ev s ∧ ¬ Consumes b ev s := by
  have hquiet : ∀ s', s'.pendingEvents = s.pendingEvents → ¬ Signals b ev s → ¬ Consumes b ev s →
      (Latched s' b ↔ (Latched s b ∨ Signals b ev s) ∧ ¬ Delivers b ev s ∧ ¬ Consumes b ev s) := by
    intro s' hsame hsig hcons
    have hdel : ¬ Delivers b ev s := fun hd => hsig hd.1
    simp [Latched, hsame, hsig, hdel, hcons]
  cases ev with
  | svcHost sp => exact hquiet _ (svcStart_frame s sp).2 id id
  | host => exact hquiet _ (hostLoop_frame s).2 id id
  | tick now =>
    refine hquiet _ ?_ id id
    change (tick now s).pendingEvents = _
    unfold tick
    split
    · rfl
    · rfl
  | pendsv sp =>
    refine hquiet _ ?_ id id
    change (pendsvDispatch s sp).1.pendingEvents = _
    unfold pendsvDispatch
    split
    · exact (preempt_frame _ _).2
    · rfl
    · rfl
  | signal events =>
    by_cases hact : s.active = true
    · have hlatched := latched_signal (b := b) h hact events
      change Latched (eventSignal events s) b ↔ _
      rw [hlatched]
      simp [Signals, Delivers, Consumes, hact]
    · have hsame : step (.signal events) s = s := if_pos (Or.inr (by simpa using hact))
      exact hquiet _ (by rw [hsame]) (fun hs => hact hs.1) id
  | svc number sp =>
    by_cases hrun : s.active = true ∧ s.currentIndex ≠ none ∧ ∃ f, sp = .frame f
    · obtain ⟨hact, hcur, f, rfl⟩ := hrun
      obtain ⟨i, hi⟩ := Option.ne_none_iff_exists'.mp hcur
      change Latched (svcTask s number (.frame f)).1 b ↔ _
      have hframe := (svcTask_frame hact hi number f).2
      have hpending := @pending_svcRequest s i f number b
      rw [← hframe] at hpending
      refine hpending.trans ?_
      simp only [Signals, Delivers, Consumes, hact]
      tauto
    · have hcons : ¬ Consumes b (.svc number sp) s := by
        intro hc
        cases sp with
        | null => exact hc
        | outside => exact hc
        | frame f => exact hrun ⟨hc.1, hc.2.1, f, rfl⟩
      refine hquiet _ ?_ id hcons
      change (svcTask s number sp).1.pendingEvents = _
      unfold svcTask
      split
      next i f hact hcur => exact absurd ⟨hact, by simp [hcur], f, rfl⟩ hrun
      · rfl
      · rfl

/-- What a step adds to the latch of a bit, it or a later wait takes. -/
theorem latch_balance (h : Invariant s) (ev : Event) :
    (if Latches b ev s then 1 else 0) + (if Latched s b then 1 else 0) =
      (if Consumes b ev s then 1 else 0) + (if Latched (step ev s) b then 1 else 0) := by
  have hstep := latched_step (b := b) h ev
  have hwaits : (∃ i, WaitsOn s i b) → ¬ Latched s b := fun ⟨i, hi⟩ =>
    not_latched_of_waitsOn h hi
  have hcons : Consumes b ev s → Latched s b := by
    intro hc
    cases ev with
    | svc number sp =>
      cases sp with
      | frame f => exact hc.2.2.2.2
      | null => exact absurd hc id
      | outside => exact absurd hc id
    | svcHost sp => exact absurd hc id
    | pendsv sp => exact absurd hc id
    | signal events => exact absurd hc id
    | tick now => exact absurd hc id
    | host => exact absurd hc id
  have hlatches : Latches b ev s ↔ Signals b ev s ∧ (¬ ∃ i, WaitsOn s i b) ∧ ¬ Latched s b := Iff.rfl
  have hdelivers : Delivers b ev s ↔ Signals b ev s ∧ ∃ i, WaitsOn s i b := Iff.rfl
  by_cases h1 : Latched s b
  · by_cases h2 : Consumes b ev s
    · have h3 : ¬ Latched (step ev s) b := fun h => (hstep.mp h).2.2 h2
      have h4 : ¬ Latches b ev s := fun h => h.2.2 h1
      simp [h1, h2, h3, h4]
    · have h3 : Latched (step ev s) b :=
        hstep.mpr ⟨Or.inl h1, fun hd => hwaits hd.2 h1, h2⟩
      have h4 : ¬ Latches b ev s := fun h => h.2.2 h1
      simp [h1, h2, h3, h4]
  · have h2 : ¬ Consumes b ev s := fun h => h1 (hcons h)
    have h3 : Latched (step ev s) b ↔ Latches b ev s := by
      rw [hstep, hlatches, hdelivers]
      constructor
      · rintro ⟨hor, hdel, -⟩
        have hs := hor.resolve_left h1
        exact ⟨hs, fun hw => hdel ⟨hs, hw⟩, h1⟩
      · rintro ⟨hs, hw, -⟩
        exact ⟨Or.inr hs, fun hd => hw hd.2, h2⟩
    simp [h1, h2, h3]

/-! ## The tasks, step by step -/

/-- A wake finds its task BLOCKED. -/
theorem blocked_of_wakes (hw : Wakes i ev s) : (s.tasks i).state = .blocked := by
  cases ev with
  | signal events =>
    by_contra hne
    exact hw.2 (if_neg hne)
  | tick now => exact hw.2.1
  | svcHost sp => exact absurd hw id
  | svc number sp => exact absurd hw id
  | pendsv sp => exact absurd hw id
  | host => exact absurd hw id

/-- A wait is asked for by a task that runs. -/
theorem ready_of_blocks (h : Invariant s) (hb : Blocks i ev s) : (s.tasks i).state = .ready := by
  cases ev with
  | svc number sp =>
    cases sp with
    | frame f => exact (h.current i hb.2.1).1
    | null => exact absurd hb id
    | outside => exact absurd hb id
  | signal events => exact absurd hb id
  | tick now => exact absurd hb id
  | svcHost sp => exact absurd hb id
  | pendsv sp => exact absurd hb id
  | host => exact absurd hb id

/-- A wake makes the task READY and patches one word of its frame: `r0`
becomes what the wait returns. -/
theorem task_of_wakes (h : Invariant s) (hw : Wakes i ev s) :
    ∃ matched, (step ev s).tasks i =
      wakeTask (s.tasks i) matched (wakeResult (s.tasks i).waitEvents ev) := by
  have hblocked := blocked_of_wakes hw
  cases ev with
  | signal events =>
    obtain ⟨hact, hne⟩ := hw
    have hmatch := matched_signal (i := i) h events
    have hevents : ¬ (events = 0 ∨ s.active = false) := by
      refine not_or.mpr ⟨fun hzero => hne ?_, by simp [hact]⟩
      rw [hmatch, matchedEvents, if_pos hblocked, hzero]
      exact BitVec.and_zero
    refine ⟨(s.tasks i).waitEvents &&& events, ?_⟩
    change (eventSignal events s).tasks i = _
    unfold eventSignal
    rw [if_neg hevents]
    change signalTask (s.pendingEvents ||| events) (s.tasks i) = _
    unfold signalTask
    rw [if_pos hne, hmatch, matchedEvents, if_pos hblocked]
    rfl
  | tick now =>
    refine ⟨0, ?_⟩
    change (tick now s).tasks i = _
    unfold tick
    rw [if_pos hw.1]
    change tickTask now (s.tasks i) = _
    unfold tickTask
    rw [if_pos hw.2]
    rfl
  | svcHost sp => exact absurd hw id
  | svc number sp => exact absurd hw id
  | pendsv sp => exact absurd hw id
  | host => exact absurd hw id

/-- A task that is not current and is not woken stays as it is. -/
theorem task_same (hcur : s.currentIndex ≠ some i) (hw : ¬ Wakes i ev s) :
    (step ev s).tasks i = s.tasks i := by
  cases ev with
  | svcHost sp => exact congrFun (svcStart_frame s sp).1 i
  | host => exact congrFun (hostLoop_frame s).1 i
  | signal events =>
    change (eventSignal events s).tasks i = _
    unfold eventSignal
    split
    · rfl
    next hgo =>
      refine if_neg (not_not.mpr ?_)
      by_contra hne
      exact hw ⟨by simpa using (not_or.mp hgo).2, hne⟩
  | tick now =>
    change (tick now s).tasks i = _
    unfold tick
    split
    next hact => exact if_neg fun hexp => hw ⟨hact, hexp⟩
    · rfl
  | pendsv sp =>
    change (pendsvDispatch s sp).1.tasks i = _
    unfold pendsvDispatch
    split
    next j f _ _ hj =>
      have hij : i ≠ j := fun hij => hcur (hij ▸ hj)
      rw [(preempt_frame _ _).1]
      simp [Scheduler.setTask, Function.update_of_ne hij]
    · rfl
    · rfl
  | svc number sp =>
    change (svcTask s number sp).1.tasks i = _
    by_cases hrun : s.active = true ∧ ∃ j f, s.currentIndex = some j ∧ sp = .frame f
    · obtain ⟨hact, j, f, hj, rfl⟩ := hrun
      have hij : i ≠ j := fun hij => hcur (hij ▸ hj)
      rw [(svcTask_frame hact hj number f).1]
      exact svcRequest_other hij
    · unfold svcTask
      split
      next j f hact hj => exact absurd ⟨hact, j, f, hj, rfl⟩ hrun
      · rfl
      · rfl

/-- **A task is BLOCKED after a step when it blocked, or was BLOCKED and was
not woken.** -/
theorem blocked_step (h : Invariant s) (ev : Event) :
    ((step ev s).tasks i).state = .blocked ↔
      Blocks i ev s ∨ (s.tasks i).state = .blocked ∧ ¬ Wakes i ev s := by
  by_cases hcur : s.currentIndex = some i
  · -- the task is READY: only its own wait blocks it
    have hready := (h.current i hcur).1
    have hnot : ¬ (s.tasks i).state = .blocked := by simp [hready]
    have hwakes : ¬ Wakes i ev s := fun hw => hnot (blocked_of_wakes hw)
    simp only [hnot, false_and, or_false]
    cases ev with
    | svc number sp =>
      change ((svcTask s number sp).1.tasks i).state = .blocked ↔ _
      by_cases hrun : s.active = true ∧ ∃ f, sp = .frame f
      · obtain ⟨hact, f, rfl⟩ := hrun
        rw [(svcTask_frame hact hcur number f).1]
        by_cases hmust : MustWait s.pendingEvents number f
        · obtain ⟨t, hreq, hstate, _⟩ := svcRequest_of_mustWait (i := i) hmust
          rw [hreq]
          simp [Request.after, Scheduler.setTask, hstate, Blocks, hact, hcur, hmust]
        · have hkeep := svcRequest_of_not_mustWait hready hmust
          simp [hkeep, Blocks, hmust]
      · have hnoblock : ¬ Blocks i (.svc number sp) s := by
          cases sp with
          | frame f => exact fun hb => hrun ⟨hb.1, f, rfl⟩
          | null => exact id
          | outside => exact id
        have hsame : (svcTask s number sp).1.tasks = s.tasks := by
          unfold svcTask
          split
          next j f hact hj => exact absurd ⟨hact, f, rfl⟩ hrun
          · rfl
          · rfl
        simp [hsame, hready, hnoblock]
    | pendsv sp =>
      have hsame : ((pendsvDispatch s sp).1.tasks i).state = .ready := by
        unfold pendsvDispatch
        split
        next j f _ _ hj =>
          obtain rfl : i = j := Option.some.inj (hcur.symm.trans hj)
          rw [(preempt_frame _ _).1]
          simp [Scheduler.setTask, hready]
        · exact hready
        · exact hready
      change ((pendsvDispatch s sp).1.tasks i).state = .blocked ↔ False
      simp [hsame]
    | svcHost sp =>
      change ((svcStart s sp).1.tasks i).state = .blocked ↔ False
      simp [(svcStart_frame s sp).1, hready]
    | host =>
      change ((hostLoop s).1.tasks i).state = .blocked ↔ False
      simp [(hostLoop_frame s).1, hready]
    | signal events =>
      have hwoken : WokenOrSame (s.tasks i) ((step (.signal events) s).tasks i) := by
        change WokenOrSame _ ((eventSignal events s).tasks i)
        unfold eventSignal
        split
        · exact Or.inl rfl
        · exact signalTask_wokenOrSame _ _
      rw [hwoken.ready hready]
      simp [hready, Blocks]
    | tick now =>
      have hwoken : WokenOrSame (s.tasks i) ((step (.tick now) s).tasks i) := by
        change WokenOrSame _ ((tick now s).tasks i)
        unfold tick
        split
        · exact tickTask_wokenOrSame _ _
        · exact Or.inl rfl
      rw [hwoken.ready hready]
      simp [hready, Blocks]
  · have hblocks : ¬ Blocks i ev s := by
      intro hb
      cases ev with
      | svc number sp =>
        cases sp with
        | frame f => exact hcur hb.2.1
        | null => exact absurd hb id
        | outside => exact absurd hb id
      | signal events => exact absurd hb id
      | tick now => exact absurd hb id
      | svcHost sp => exact absurd hb id
      | pendsv sp => exact absurd hb id
      | host => exact absurd hb id
    by_cases hw : Wakes i ev s
    · obtain ⟨matched, htask⟩ := task_of_wakes h hw
      rw [htask]
      simp [wakeTask, hblocks, hw]
    · rw [task_same hcur hw]
      simp [hblocks, hw]

/-- What a step blocks, it or a later step wakes. -/
theorem block_balance (h : Invariant s) (ev : Event) :
    (if Blocks i ev s then 1 else 0) + (if (s.tasks i).state = .blocked then 1 else 0) =
      (if Wakes i ev s then 1 else 0) +
        (if ((step ev s).tasks i).state = .blocked then 1 else 0) := by
  have hstep := blocked_step (i := i) h ev
  by_cases hb : Blocks i ev s
  · have hready := ready_of_blocks h hb
    have hw : ¬ Wakes i ev s := fun hw => absurd (blocked_of_wakes hw) (by simp [hready])
    simp [hb, hw, hready, hstep]
  · by_cases hw : Wakes i ev s
    · simp [hb, hw, hstep, blocked_of_wakes hw]
    · simp [hb, hw, hstep]

end Steps

/-! ## From the wait to its return -/

/-- The task waits, as the request `number` with the frame `f` left it. -/
def Waiting (number : ℕ) (f : Frame) (s : Scheduler) (i : TaskIndex) : Prop :=
  (s.tasks i).state = .blocked ∧ (s.tasks i).waitEvents = f.r0 ∧ (s.tasks i).saved = some f ∧
    ((s.tasks i).deadlineActive = true → number = 4)

/-- The task's wait is over and will return `result`, in the frame it came
with. -/
def Woken (f : Frame) (result : BitVec 32) (s : Scheduler) (i : TaskIndex) : Prop :=
  (s.tasks i).state = .ready ∧ (s.tasks i).saved = some { f with r0 := result }

/-- What may end the wait: a signal of something it asked for, or, where the
wait has a time, the tick that finds it over. -/
def EndsWait (number : ℕ) (f : Frame) (result : BitVec 32) : Event → Prop
  | .signal events => result = f.r0 &&& events ∧ result ≠ 0
  | .tick _ => number = 4 ∧ result = if f.r0 = 0 then 1 else 0
  | _ => False

section Waits

variable {s : Scheduler} {i : TaskIndex} {f : Frame} {number : ℕ}

theorem waiting_of_blocks (hb : Blocks i (.svc number (.frame f)) s) :
    Waiting number f (step (.svc number (.frame f)) s) i := by
  obtain ⟨hact, hcur, hmust⟩ := hb
  obtain ⟨t, hreq, hstate, hwait, hsaved, htime⟩ := svcRequest_of_mustWait (i := i) hmust
  have htask : (step (.svc number (.frame f)) s).tasks i = t := by
    change (svcTask s number (.frame f)).1.tasks i = t
    rw [(svcTask_frame hact hcur number f).1, hreq]
    simp [Request.after, Scheduler.setTask]
  unfold Waiting
  rw [htask]
  exact ⟨hstate, hwait, hsaved, htime⟩

/-- One step of a wait: it goes on, or ends with what its end returns. -/
theorem waiting_step (h : Invariant s) (hwaiting : Waiting number f s i) (ev : Event) :
    (¬ Wakes i ev s ∧ Waiting number f (step ev s) i) ∨
      (Wakes i ev s ∧ EndsWait number f (wakeResult f.r0 ev) ev ∧
        Woken f (wakeResult f.r0 ev) (step ev s) i) := by
  obtain ⟨hstate, hwait, hsaved, htime⟩ := hwaiting
  have hcur : s.currentIndex ≠ some i := fun hcur => by
    have := (h.current i hcur).1
    simp [hstate] at this
  by_cases hw : Wakes i ev s
  · obtain ⟨matched, htask⟩ := task_of_wakes h hw
    rw [hwait] at htask
    refine Or.inr ⟨hw, ?_, ?_⟩
    · cases ev with
      | signal events =>
        refine ⟨rfl, ?_⟩
        have hne := hw.2
        rw [matched_signal h events, matchedEvents, if_pos hstate, hwait] at hne
        exact hne
      | tick now => exact ⟨htime hw.2.2.1, rfl⟩
      | svcHost sp => exact absurd hw id
      | svc number sp => exact absurd hw id
      | pendsv sp => exact absurd hw id
      | host => exact absurd hw id
    · unfold Woken
      rw [htask]
      exact ⟨rfl, by simp [wakeTask, hsaved]⟩
  · refine Or.inl ⟨hw, ?_⟩
    unfold Waiting
    rw [task_same hcur hw]
    exact ⟨hstate, hwait, hsaved, htime⟩

/-- A task that was woken is not woken again, and keeps its frame, until it
is dispatched. -/
theorem woken_run {result : BitVec 32} {evs : List Event} {s : Scheduler}
    (hwoken : Woken f result s i)
    (hidle : ∀ before, before <+: evs → (Ledger.run step before s).currentIndex ≠ some i) :
    Ledger.tally step (Wakes i) evs s = 0 ∧ Woken f result (Ledger.run step evs s) i := by
  induction evs generalizing s with
  | nil => exact ⟨rfl, hwoken⟩
  | cons ev evs ih =>
    have hw : ¬ Wakes i ev s := fun hw => by
      have := blocked_of_wakes hw
      simp [hwoken.1] at this
    have hcur : s.currentIndex ≠ some i := hidle [] (List.nil_prefix)
    have hnext : Woken f result (step ev s) i := by
      unfold Woken
      rw [task_same hcur hw]
      exact hwoken
    have hrest := ih hnext fun before hbefore =>
      hidle (ev :: before) (List.cons_prefix_cons.mpr ⟨rfl, hbefore⟩)
    refine ⟨?_, hrest.2⟩
    simp [Ledger.tally, hw, hrest.1]

/-- **A wait, until its task is dispatched again:** it is not over and was
not woken; or it was woken once, by a step that may end it, and the task's
frame is the one it came with but for what that step returns. -/
theorem waiting_run {evs : List Event} {s : Scheduler} (h : Invariant s)
    (hlegal : Ledger.Legal step MayOccur evs s) (hwaiting : Waiting number f s i)
    (hidle : ∀ before, before <+: evs → (Ledger.run step before s).currentIndex ≠ some i) :
    (Waiting number f (Ledger.run step evs s) i ∧ Ledger.tally step (Wakes i) evs s = 0) ∨
      (Ledger.tally step (Wakes i) evs s = 1 ∧
        ∃ before ev after result, evs = before ++ ev :: after ∧
          Wakes i ev (Ledger.run step before s) ∧ EndsWait number f result ev ∧
          Woken f result (Ledger.run step evs s) i) := by
  induction evs generalizing s with
  | nil => exact Or.inl ⟨hwaiting, rfl⟩
  | cons ev evs ih =>
    have hidle' : ∀ before, before <+: evs →
        (Ledger.run step before (step ev s)).currentIndex ≠ some i := fun before hbefore =>
      hidle (ev :: before) (List.cons_prefix_cons.mpr ⟨rfl, hbefore⟩)
    rcases waiting_step h hwaiting ev with ⟨hw, hnext⟩ | ⟨hw, hends, hwoken⟩
    · rcases ih (invariant_step ev s h hlegal.1) hlegal.2 hnext hidle' with
        ⟨hstill, hzero⟩ | ⟨hone, before, ev', after, result, hevs, hw', hends, hwoken⟩
      · refine Or.inl ⟨hstill, ?_⟩
        simp [Ledger.tally, hw, hzero]
      · refine Or.inr ⟨?_, ev :: before, ev', after, result, by rw [hevs]; rfl, hw', hends, hwoken⟩
        simp [Ledger.tally, hw, hone]
    · obtain ⟨hzero, hend⟩ := woken_run hwoken hidle'
      refine Or.inr ⟨?_, [], ev, evs, _, rfl, hw, hends, hend⟩
      simp [Ledger.tally, hw, hzero]

/-- A wait for something latched returns it at once. -/
theorem wait_returns (hact : s.active = true) (hcur : s.currentIndex = some i)
    (hwait : IsWait number) (hmatch : s.pendingEvents &&& f.r0 ≠ 0) :
    (dispatch (.svc number (.frame f)) s).2 = some { f with r0 := s.pendingEvents &&& f.r0 } ∧
      (step (.svc number (.frame f)) s).currentIndex = some i := by
  have hr0 : f.r0 ≠ 0 := fun hr0 => hmatch (by rw [hr0]; exact BitVec.and_zero)
  have hreq : svcRequest s i number f =
      resumeWith s i f (s.pendingEvents &&& f.r0) (s.pendingEvents &&& f.r0) := by
    rcases hwait with rfl | rfl
    · exact (if_neg hr0).trans (if_pos hmatch)
    · exact if_pos ⟨hr0, hmatch⟩
  change (svcTask s number (.frame f)).2 = _ ∧ (svcTask s number (.frame f)).1.currentIndex = _
  unfold svcTask
  rw [hact, hcur]
  simp only [hreq]
  exact ⟨rfl, hcur⟩

/-- A timed wait that cannot wait returns at once: a time of zero is over,
and one that is too long is refused. -/
theorem timed_returns (hact : s.active = true) (hcur : s.currentIndex = some i)
    (hnone : s.pendingEvents &&& f.r0 = 0) (htime : f.r1 = 0 ∨ maxTimeoutMs < f.r1) :
    (dispatch (.svc 4 (.frame f)) s).2 =
        some { f with r0 := if f.r0 = 0 ∧ f.r1 = 0 then 1 else 0 } ∧
      (step (.svc 4 (.frame f)) s).currentIndex = some i := by
  have hmatch : ¬ (f.r0 ≠ 0 ∧ s.pendingEvents &&& f.r0 ≠ 0) := fun h => h.2 hnone
  have hreq : svcRequest s i 4 f =
      resumeWith s i f 0 (if f.r0 = 0 ∧ f.r1 = 0 then 1 else 0) := by
    refine (if_neg hmatch).trans ?_
    by_cases hzero : f.r1 = 0
    · rw [if_pos hzero]
      simp [hzero]
    · rw [if_neg hzero, if_pos (htime.resolve_left hzero), if_neg fun h => hzero h.2]
  change (svcTask s 4 (.frame f)).2 = _ ∧ (svcTask s 4 (.frame f)).1.currentIndex = _
  unfold svcTask
  rw [hact, hcur]
  simp only [hreq]
  exact ⟨rfl, hcur⟩

end Waits

/-! ## What a task is resumed with -/

/-- A step that returns into a task makes it current, and returns into the
frame that is saved for it. -/
def Resumes (p : Scheduler × Option Frame) : Prop :=
  ∀ g, p.2 = some g → ∃ i, p.1.currentIndex = some i ∧ (p.1.tasks i).saved = some g

theorem resumes_none (s : Scheduler) : Resumes (s, none) := fun _ h => nomatch h

theorem resumes_reschedule (s : Scheduler) (i : TaskIndex) : Resumes (reschedule s i) := by
  unfold reschedule
  split
  · split
    · exact resumes_none _
    · split
      · exact resumes_none _
      · exact resumes_none _
  next next _ =>
    split
    · exact resumes_none _
    next f hf =>
      intro g hg
      exact ⟨next, rfl, hf.trans hg⟩

theorem resumes_svcStart (s : Scheduler) (sp : SavedSp) : Resumes (svcStart s sp) := by
  unfold svcStart
  split
  · exact resumes_none _
  split
  · exact resumes_none _
  next next _ =>
    split
    · exact resumes_none _
    next f hf =>
      intro g hg
      exact ⟨next, rfl, hf.trans hg⟩

theorem resumes_preempt (s : Scheduler) (i : TaskIndex) : Resumes (preempt s i) := by
  unfold preempt
  split
  · exact resumes_none _
  next next _ =>
    split
    · exact resumes_none _
    next f hf =>
      intro g hg
      exact ⟨next, rfl, hf.trans hg⟩

/-- A request that returns at once returns into the frame it patched. -/
theorem resumed_frame {s t : Scheduler} {i : TaskIndex} {number : ℕ} {f g : Frame}
    (h : svcRequest s i number f = .resume t g) :
    t.currentIndex = s.currentIndex ∧ (t.tasks i).saved = some g := by
  have hresume : ∀ matched result, resumeWith s i f matched result = .resume t g →
      t.currentIndex = s.currentIndex ∧ (t.tasks i).saved = some g := by
    intro matched result heq
    obtain ⟨rfl, rfl⟩ := Request.resume.inj heq
    exact ⟨rfl, by simp [Scheduler.setTask]⟩
  unfold svcRequest at h
  split at h
  · cases h
  · cases h
  · unfold svcWaitEvents at h
    split at h
    · cases h
    split at h
    · exact hresume _ _ h
    · cases h
  · unfold svcTimedBlock at h
    split at h
    · exact hresume _ _ h
    split at h
    · exact hresume _ _ h
    split at h
    · exact hresume _ _ h
    · cases h
  · cases h

theorem resumes_dispatch (ev : Event) (s : Scheduler) : Resumes (dispatch ev s) := by
  cases ev with
  | svcHost sp => exact resumes_svcStart s sp
  | signal events => exact resumes_none _
  | tick now => exact resumes_none _
  | host =>
    change Resumes (hostLoop s)
    unfold hostLoop
    split
    · exact resumes_none _
    split
    · exact resumes_svcStart s .null
    · split
      · exact resumes_none _
      · exact resumes_none _
  | pendsv sp =>
    change Resumes (pendsvDispatch s sp)
    unfold pendsvDispatch
    split
    · exact resumes_preempt _ _
    · exact resumes_none _
    · exact resumes_none _
  | svc number sp =>
    change Resumes (svcTask s number sp)
    unfold svcTask
    split
    next i f _ hcur =>
      split
      · exact resumes_none _
      next t g heq =>
        intro g' hg
        obtain rfl : g = g' := Option.some.inj hg
        obtain ⟨hsame, hsaved⟩ := resumed_frame heq
        exact ⟨i, hsame.trans hcur, hsaved⟩
      · exact resumes_reschedule _ _
    · exact resumes_none _
    · exact resumes_none _

/-! ## The accounts of a run -/

/-- The states of a run. -/
def Reached (s₀ s : Scheduler) : Prop :=
  ∃ evs, Ledger.Legal step MayOccur evs s₀ ∧ Ledger.run step evs s₀ = s

/-- The accounts of the events in a run from `s₀`. -/
structure EventAccounting (s₀ : Scheduler) : Prop where
  /-- A signalled bit that tasks are BLOCKED on goes to all of them, and is
  not latched. -/
  delivered : ∀ s, Reached s₀ s → ∀ b events, Delivers b (.signal events) s →
    ¬ Latched (step (.signal events) s) b ∧
      ∀ i, WaitsOn s i b → ∃ f, (s.tasks i).saved = some f ∧
        Woken f ((s.tasks i).waitEvents &&& events) (step (.signal events) s) i ∧
        ((s.tasks i).waitEvents &&& events).getLsbD b = true
  /-- A signalled bit that no task is BLOCKED on is latched, and no task
  that the signal wakes is given it. -/
  latched : ∀ s, Reached s₀ s → ∀ b events, Signals b (.signal events) s →
    (¬ ∃ i, WaitsOn s i b) → Latched (step (.signal events) s) b ∧
      ∀ i, Wakes i (.signal events) s →
        ((s.tasks i).waitEvents &&& events).getLsbD b = false
  /-- A latched bit stays, whatever comes, until a wait that asks for it. -/
  stays : ∀ s, Reached s₀ s → ∀ ev b, Latched s b → ¬ Consumes b ev s → Latched (step ev s) b
  /-- That wait returns the bit at once, and the bit is latched no more. -/
  consumed : ∀ s, Reached s₀ s → ∀ ev b, Consumes b ev s → ¬ Latched (step ev s) b ∧
    ∃ i g, s.currentIndex = some i ∧ (step ev s).currentIndex = some i ∧
      (dispatch ev s).2 = some g ∧ g.r0.getLsbD b = true
  /-- Nothing is latched that was not signalled. -/
  signalled : ∀ s, Reached s₀ s → ∀ ev b, ¬ Latched s b → Latched (step ev s) b → Latches b ev s
  /-- Every signal of a bit is delivered, latched, or merged with one that is
  latched, and it is one of the three. -/
  signals_counted : ∀ evs b, Ledger.tally step (Signals b) evs s₀ =
    Ledger.tally step (Delivers b) evs s₀ + Ledger.tally step (Latches b) evs s₀ +
      Ledger.tally step (Merges b) evs s₀
  /-- What was latched was consumed once, or is latched still. -/
  latch_counted : ∀ evs, Ledger.Legal step MayOccur evs s₀ → ∀ b,
    Ledger.tally step (Latches b) evs s₀ = Ledger.tally step (Consumes b) evs s₀ +
      (if Latched (Ledger.run step evs s₀) b then 1 else 0)
  /-- A task that blocked was woken once, or is BLOCKED still. -/
  blocks_counted : ∀ evs, Ledger.Legal step MayOccur evs s₀ → ∀ i,
    Ledger.tally step (Blocks i) evs s₀ = Ledger.tally step (Wakes i) evs s₀ +
      (if ((Ledger.run step evs s₀).tasks i).state = .blocked then 1 else 0)
  /-- A wait that finds something it asks for latched returns exactly that,
  at once. -/
  returns_latched : ∀ s, Reached s₀ s → ∀ i number f, s.active = true → s.currentIndex = some i →
    IsWait number → s.pendingEvents &&& f.r0 ≠ 0 →
    (dispatch (.svc number (.frame f)) s).2 = some { f with r0 := s.pendingEvents &&& f.r0 } ∧
      (step (.svc number (.frame f)) s).currentIndex = some i
  /-- A wait that blocks is, until its task is dispatched again, not over and
  the task not woken; or the task was woken once, by a signal of something
  it asked for, which the wait returns, or by the tick that found its time
  over, and then an event wait returns nothing and a sleep succeeds. -/
  returns_woken : ∀ s, Reached s₀ s → ∀ i number f evs, Blocks i (.svc number (.frame f)) s →
    Ledger.Legal step MayOccur evs (step (.svc number (.frame f)) s) →
    (∀ before, before <+: evs →
      (Ledger.run step before (step (.svc number (.frame f)) s)).currentIndex ≠ some i) →
    (Waiting number f (Ledger.run step evs (step (.svc number (.frame f)) s)) i ∧
        Ledger.tally step (Wakes i) evs (step (.svc number (.frame f)) s) = 0) ∨
      (Ledger.tally step (Wakes i) evs (step (.svc number (.frame f)) s) = 1 ∧
        ∃ before ev after result, evs = before ++ ev :: after ∧
          Wakes i ev (Ledger.run step before (step (.svc number (.frame f)) s)) ∧
          EndsWait number f result ev ∧
          Woken f result (Ledger.run step evs (step (.svc number (.frame f)) s)) i)
  /-- A timed wait that neither finds anything nor can wait returns at once:
  after a time of zero an event wait has nothing and a sleep succeeds, and a
  time that is too long is refused. -/
  returns_timed : ∀ s, Reached s₀ s → ∀ i f, s.active = true → s.currentIndex = some i →
    s.pendingEvents &&& f.r0 = 0 → (f.r1 = 0 ∨ maxTimeoutMs < f.r1) →
    (dispatch (.svc 4 (.frame f)) s).2 =
        some { f with r0 := if f.r0 = 0 ∧ f.r1 = 0 then 1 else 0 } ∧
      (step (.svc 4 (.frame f)) s).currentIndex = some i
  /-- A task is resumed with the frame that is saved for it. -/
  resumed : ∀ s, Reached s₀ s → ∀ ev g, (dispatch ev s).2 = some g →
    ∃ i, (step ev s).currentIndex = some i ∧ ((step ev s).tasks i).saved = some g
  /-- A sleep of a time that can be slept succeeds at once, or blocks and
  waits for nothing but its time. -/
  sleeps : ∀ durationMs, ¬ maxTimeoutMs < durationMs →
    (durationMs = 0 ∧ sleepMsCall durationMs = .returns 1) ∨
      (sleepMsCall durationMs = .svc 4 0 durationMs ∧
        ∀ pending, MustWait pending 4 ⟨0, durationMs⟩)

/-- **Every event is accounted for,** in every run of a started scheduler: a
bit that is signalled goes to every task that is blocked on it, or else is
latched until a wait asks for it; signals, latches, waits and wake-ups agree
in number; and a wait returns what it was given, and nothing where its time
ran out. -/
theorem event_accounting {s₀ : Scheduler} (h : Started s₀) : EventAccounting s₀ where
  delivered := by
    rintro s ⟨evs, hlegal, rfl⟩ b events hdel
    have hinv := h.run_invariant hlegal
    refine ⟨fun hl => ((latched_step hinv _).mp hl).2.1 hdel, fun i hwaits => ?_⟩
    obtain ⟨f, hf⟩ := Option.ne_none_iff_exists'.mp ((hinv.sound i).framed hwaits.1)
    have hbit : ((((Ledger.run step evs s₀).tasks i).waitEvents) &&& events).getLsbD b = true := by
      rw [BitVec.getLsbD_and, hwaits.2, hdel.1.2]
      rfl
    have hwakes : Wakes i (.signal events) (Ledger.run step evs s₀) := by
      refine ⟨hdel.1.1, fun hzero => ?_⟩
      rw [matched_signal hinv events, matchedEvents, if_pos hwaits.1] at hzero
      rw [hzero] at hbit
      simp at hbit
    obtain ⟨matched, htask⟩ := task_of_wakes hinv hwakes
    refine ⟨f, hf, ?_, hbit⟩
    unfold Woken
    rw [htask]
    exact ⟨rfl, by simp [wakeTask, hf, wakeResult]⟩
  latched := by
    rintro s ⟨evs, hlegal, rfl⟩ b events hsig hnone
    have hinv := h.run_invariant hlegal
    refine ⟨(latched_step hinv _).mpr ⟨Or.inr hsig, fun hd => hnone hd.2, id⟩, ?_⟩
    intro i hw
    have hblocked := blocked_of_wakes hw
    rw [BitVec.getLsbD_and]
    cases hbit : ((Ledger.run step evs s₀).tasks i).waitEvents.getLsbD b with
    | true => exact absurd ⟨i, hblocked, hbit⟩ hnone
    | false => rfl
  stays := by
    rintro s ⟨evs, hlegal, rfl⟩ ev b hl hcons
    have hinv := h.run_invariant hlegal
    refine (latched_step hinv ev).mpr ⟨Or.inl hl, ?_, hcons⟩
    rintro ⟨_, i, hi⟩
    exact not_latched_of_waitsOn hinv hi hl
  consumed := by
    rintro s ⟨evs, hlegal, rfl⟩ ev b hcons
    have hinv := h.run_invariant hlegal
    refine ⟨fun hl => ((latched_step hinv ev).mp hl).2.2 hcons, ?_⟩
    -- only a wait of a task whose frame is read consumes
    cases ev with
    | svc number sp =>
      cases sp with
      | frame f =>
        obtain ⟨hact, hcur, hwait, hr0, hl⟩ := hcons
        obtain ⟨i, hi⟩ := Option.ne_none_iff_exists'.mp hcur
        have hbit : ((Ledger.run step evs s₀).pendingEvents &&& f.r0).getLsbD b = true := by
          rw [BitVec.getLsbD_and, hl, hr0]
          rfl
        have hmatch : (Ledger.run step evs s₀).pendingEvents &&& f.r0 ≠ 0 := fun hzero => by
          rw [hzero] at hbit
          simp at hbit
        obtain ⟨hret, hcur'⟩ := wait_returns hact hi hwait hmatch
        exact ⟨i, _, hi, hcur', hret, hbit⟩
      | null => exact hcons.elim
      | outside => exact hcons.elim
    | svcHost _ => exact hcons.elim
    | pendsv _ => exact hcons.elim
    | signal _ => exact hcons.elim
    | tick _ => exact hcons.elim
    | host => exact hcons.elim
  signalled := by
    rintro s ⟨evs, hlegal, rfl⟩ ev b hnot hl
    have hinv := h.run_invariant hlegal
    obtain ⟨hor, hdel, _⟩ := (latched_step hinv ev).mp hl
    have hsig := hor.resolve_left hnot
    exact ⟨hsig, fun hw => hdel ⟨hsig, hw⟩, hnot⟩
  signals_counted := by
    intro evs b
    generalize s₀ = s
    induction evs generalizing s with
    | nil => rfl
    | cons ev evs ih =>
      have hrest := ih (step ev s)
      simp only [Ledger.tally, hrest]
      by_cases hs : Signals b ev s <;> by_cases hw : ∃ i, WaitsOn s i b <;>
        by_cases hl : Latched s b <;>
        simp only [Delivers, Latches, Merges, hs, hw, hl, not_true, not_false_iff, and_true,
          and_false, if_true, if_false] <;> omega
  latch_counted := by
    intro evs hlegal b
    have hbal := Ledger.balance (q := Latches b) (r := Consumes b)
      (fun s => if Latched s b then 1 else 0) invariant_step
      (fun ev s hinv _ => latch_balance hinv ev) h.invariant hlegal
    have hnone : ¬ Latched s₀ b := by simp [Latched, h.fresh.latched]
    simpa [hnone] using hbal
  blocks_counted := by
    intro evs hlegal i
    have hbal := Ledger.balance (q := Blocks i) (r := Wakes i)
      (fun s => if (s.tasks i).state = .blocked then 1 else 0) invariant_step
      (fun ev s hinv _ => block_balance hinv ev) h.invariant hlegal
    have hnone : (s₀.tasks i).state ≠ .blocked := by
      rcases h.fresh.states i with hi | hi <;> simp [hi]
    simpa [hnone] using hbal
  returns_latched := by
    intro s _ i number f hact hcur hwait hmatch
    exact wait_returns hact hcur hwait hmatch
  returns_woken := by
    rintro s ⟨evs₀, hlegal₀, rfl⟩ i number f evs hblocks hlegal hidle
    have hinv := h.run_invariant hlegal₀
    have hnext := invariant_step (.svc number (.frame f)) _ hinv hblocks.1
    exact waiting_run hnext hlegal (waiting_of_blocks hblocks) hidle
  returns_timed := by
    intro s _ i f hact hcur hnone htime
    exact timed_returns hact hcur hnone htime
  resumed := fun s _ ev g hg => resumes_dispatch ev s g hg
  sleeps := by
    intro durationMs hshort
    by_cases hzero : durationMs = 0
    · exact Or.inl ⟨hzero, if_pos hzero⟩
    · refine Or.inr ⟨(if_neg hzero).trans (if_neg hshort), fun pending => ?_⟩
      exact ⟨BitVec.and_zero, Or.inr ⟨rfl, hzero, hshort⟩⟩

/-- The accounts of the run of two tasks. -/
theorem event_accounting_of_twoTasks : EventAccounting twoTasksStarted :=
  event_accounting started_twoTasks

end DeusOs.Kernel
