import Mathlib.Algebra.BigOperators.Group.Finset.Basic
import Mathlib.Algebra.BigOperators.Group.Finset.Piecewise
import Mathlib.Algebra.Order.BigOperators.Group.Finset
import DeusOs.Common.Ledger
import DeusOs.Kernel.Model.Scheduler

/-!
# The scheduler's state in every run

`scheduler_invariant`: whatever the order of supervisor calls, preemptions,
signals and ticks, a task that is BLOCKED waits for something and for
nothing that is already latched, the counters count the task table, the
current task is the one the last dispatch had to choose, and a run ends
well exactly when every task it started is done.
-/

namespace DeusOs.Kernel

open FirstLeast Scheduler

/-! ## Counting tasks -/

/-- The tasks in the states `q`, counted. -/
def countTasks (q : TaskState → Prop) [DecidablePred q] (tasks : TaskIndex → Task) : ℕ :=
  ∑ i, if q (tasks i).state then 1 else 0

/-- A task that the run still waits for. -/
def Live (st : TaskState) : Prop := st = .ready ∨ st = .blocked

instance : DecidablePred Live := fun _ => inferInstanceAs (Decidable (_ ∨ _))

section Count

variable {q : TaskState → Prop} [DecidablePred q] {tasks tasks' : TaskIndex → Task}

/-- What one replaced task changes. -/
theorem countTasks_update (tasks : TaskIndex → Task) (i : TaskIndex) (t : Task) :
    countTasks q (Function.update tasks i t) + (if q (tasks i).state then 1 else 0) =
      countTasks q tasks + (if q t.state then 1 else 0) := by
  have hrest : ∑ j ∈ Finset.univ.erase i,
        (if q (Function.update tasks i t j).state then 1 else 0) =
      ∑ j ∈ Finset.univ.erase i, (if q (tasks j).state then 1 else 0) := by
    refine Finset.sum_congr rfl fun j hj => ?_
    rw [Function.update_of_ne (Finset.ne_of_mem_erase hj)]
  have hnew := Finset.add_sum_erase Finset.univ
    (fun j => if q (Function.update tasks i t j).state then 1 else 0) (Finset.mem_univ i)
  have hold := Finset.add_sum_erase Finset.univ
    (fun j => if q (tasks j).state then 1 else 0) (Finset.mem_univ i)
  simp only [Function.update_self] at hnew
  unfold countTasks
  rw [← hnew, ← hold, hrest]
  omega

theorem countTasks_congr (h : ∀ i, q (tasks' i).state ↔ q (tasks i).state) :
    countTasks q tasks' = countTasks q tasks := by
  unfold countTasks
  simp only [h]

theorem countTasks_pos : 0 < countTasks q tasks ↔ ∃ i, q (tasks i).state := by
  unfold countTasks
  rw [Finset.sum_pos_iff]
  refine exists_congr fun i => ?_
  by_cases h : q (tasks i).state <;> simp [h]

end Count

/-! ## The invariant -/

/-- What a task keeps while `pending` is latched: BLOCKED, it waits for an
event or a time and for no event that is latched, with a frame to patch;
otherwise it waits for nothing. -/
structure Task.Sound (pending : BitVec 32) (t : Task) : Prop where
  blocked_waits : t.state = .blocked → t.waitEvents ≠ 0 ∨ t.deadlineActive = true
  clear : t.state ≠ .blocked → t.waitEvents = 0 ∧ t.deadlineActive = false
  not_lost : t.state = .blocked → t.waitEvents &&& pending = 0
  framed : t.state = .blocked → t.saved ≠ none
  ranked : t.priority ≤ priorityLowest

/-- The part that holds between a request and the dispatch that ends it:
every task is sound, the counters are those of the table, and the run was
not given up for want of a blocked task. -/
structure Books (s : Scheduler) : Prop where
  sound : ∀ i, (s.tasks i).Sound s.pendingEvents
  completed : s.completedCount = countTasks (· = .done) s.tasks
  target : s.completedCount + countTasks Live s.tasks = s.targetCount
  aborted : s.abortedAt ≠ some .noBlockedTask

/-- `i` is the task that a dispatch from `d` has to choose: READY, of the
least priority value among the READY tasks, and the first of these in
cyclic order. -/
def Dispatch.Chose (d : Dispatch) (i : TaskIndex) : Prop :=
  IsFirstLeast (fun j => (d.tasks j).state = .ready) (fun j => (d.tasks j).priority)
    (cyclic d.after) i

/-- The state of a run, between two steps. -/
structure Invariant (s : Scheduler) : Prop extends Books s where
  current : ∀ i, s.currentIndex = some i → (s.tasks i).state = .ready ∧
    ∃ d, s.lastDispatch = some d ∧ d.Chose i
  running : s.active = true → s.runResult = false ∧ s.completedCount < s.targetCount
  ended : s.active = false →
    s.currentIndex = none ∧ (s.runResult = true ↔ s.completedCount = s.targetCount)

/-! ## Choosing -/

/-- The cyclic order visits every task. -/
theorem mem_cyclic (after : ℕ) (i : TaskIndex) : i ∈ cyclic after := by
  refine List.mem_map.mpr ⟨(i + (after + 1) % taskCount) % taskCount, ?_, ?_⟩
  · exact List.mem_range.mpr (Nat.mod_lt _ (by decide))
  · apply Fin.ext
    have hi : (i : ℕ) < 2 := i.isLt
    simp only [taskCount]
    omega

theorem chose_of_select {tasks : TaskIndex → Task} {after : ℕ} {i : TaskIndex}
    (h : selectNextReady tasks after = some i) : (⟨after, tasks⟩ : Dispatch).Chose i :=
  isFirstLeast_of_select _ _ h

/-- The task that is selected is ready. -/
theorem ready_of_select {tasks : TaskIndex → Task} {after : ℕ} {i : TaskIndex}
    (h : selectNextReady tasks after = some i) : (tasks i).state = .ready :=
  (isFirstLeast_of_select _ _ h).eligible

/-- Nothing selected: no task is READY. -/
theorem not_ready_of_select {tasks : TaskIndex → Task} {after : ℕ}
    (hranked : ∀ i, (tasks i).priority ≤ priorityLowest)
    (h : selectNextReady tasks after = none) (i : TaskIndex) : (tasks i).state ≠ .ready := by
  refine not_of_select _ _ (fun j _ => ?_) h i (mem_cyclic after i)
  exact Nat.lt_succ_of_le (hranked j)

/-! ## The books under one change -/

theorem Task.Sound.of_clear {pending : BitVec 32} {t : Task} (hstate : t.state ≠ .blocked)
    (hwait : t.waitEvents = 0) (hdeadline : t.deadlineActive = false)
    (hranked : t.priority ≤ priorityLowest) : t.Sound pending :=
  ⟨fun h => absurd h hstate, fun _ => ⟨hwait, hdeadline⟩, fun h => absurd h hstate,
    fun h => absurd h hstate, hranked⟩

/-- Consuming latched events loses no wake. -/
theorem Task.Sound.consume {pending : BitVec 32} {t : Task} (h : t.Sound pending)
    (matched : BitVec 32) : t.Sound (pending &&& ~~~matched) := by
  refine ⟨h.blocked_waits, h.clear, fun hb => ?_, h.framed, h.ranked⟩
  rw [← BitVec.and_assoc, h.not_lost hb]
  exact BitVec.zero_and

section Books

variable {s : Scheduler} {i : TaskIndex} {t : Task}

/-- A task replaced by a sound one that counts the same. -/
theorem Books.setTask (h : Books s) (hsound : t.Sound s.pendingEvents)
    (hdone : t.state = .done ↔ (s.tasks i).state = .done)
    (hlive : Live t.state ↔ Live (s.tasks i).state) : Books (s.setTask i t) := by
  have hd := countTasks_update (q := (· = .done)) s.tasks i t
  have hl := countTasks_update (q := Live) s.tasks i t
  simp only [hdone] at hd
  simp only [hlive] at hl
  refine ⟨fun j => ?_, ?_, ?_, h.aborted⟩
  · by_cases hj : j = i
    · subst hj
      simpa [Scheduler.setTask] using hsound
    · simpa [Scheduler.setTask, hj] using h.sound j
  · have := h.completed
    simp only [Scheduler.setTask]
    omega
  · have := h.target
    simp only [Scheduler.setTask]
    omega

/-- The current task replaced by one that is done. -/
theorem Books.exit (h : Books s) (hready : (s.tasks i).state = .ready) (hstate : t.state = .done)
    (hsound : t.Sound s.pendingEvents) :
    Books ({ s with completedCount := s.completedCount + 1 }.setTask i t) := by
  have hd := countTasks_update (q := (· = .done)) s.tasks i t
  have hl := countTasks_update (q := Live) s.tasks i t
  simp only [hready, hstate] at hd
  simp only [hready, hstate, Live] at hl
  refine ⟨fun j => ?_, ?_, ?_, h.aborted⟩
  · by_cases hj : j = i
    · subst hj
      simpa [Scheduler.setTask] using hsound
    · simpa [Scheduler.setTask, hj] using h.sound j
  · have := h.completed
    simp only [Scheduler.setTask]
    simp at hd
    omega
  · have := h.target
    simp only [Scheduler.setTask]
    simp only [reduceCtorEq, or_false, or_self, if_true, if_false] at hl
    have hl' : countTasks Live (Function.update s.tasks i t) + 1 = countTasks Live s.tasks := hl
    omega

theorem Books.consume (h : Books s) (matched : BitVec 32) :
    Books { s with pendingEvents := s.pendingEvents &&& ~~~matched } :=
  ⟨fun j => (h.sound j).consume matched, h.completed, h.target, h.aborted⟩

/-- A live task keeps the target out of reach. -/
theorem Books.short (h : Books s) (hlive : Live (s.tasks i).state) :
    s.completedCount < s.targetCount := by
  have := h.target
  have := countTasks_pos.mpr ⟨i, hlive⟩
  omega

/-- A run that is given up for another reason. -/
theorem Books.abort (h : Books s) (hshort : s.completedCount < s.targetCount) {site : AbortSite}
    (hsite : site ≠ .noBlockedTask) : Invariant (abortRun site s) where
  sound := h.sound
  completed := h.completed
  target := h.target
  aborted := by simpa [abortRun] using hsite
  current := by simp [abortRun]
  running := by simp [abortRun]
  ended := by
    intro _
    refine ⟨rfl, ?_⟩
    have : s.completedCount ≠ s.targetCount := by omega
    simp [abortRun, this]

end Books

/-! ## Supervisor calls -/

/-- What a request hands to the end of `scheduler_svc_dispatch`. -/
def Scheduler.Request.Kept : Request → Prop
  | .abort site => site ≠ .noBlockedTask
  | .resume t _ => Invariant t
  | .reschedule t => Books t ∧ t.active = true ∧ t.runResult = false

section Svc

variable {s : Scheduler} {i : TaskIndex} {f : Frame}

/-- A wait that ends at once changes the caller's frame and the latch. -/
theorem kept_resumeWith (h : Invariant s) (hcur : s.currentIndex = some i)
    (matched result : BitVec 32) : (resumeWith s i f matched result).Kept := by
  have hready := (h.current i hcur).1
  have hbooks := (h.toBooks.consume matched).setTask (i := i)
    (t := { s.tasks i with
      saved := some { f with r0 := result }, waitEvents := 0, wakeEvents := matched,
      deadlineMs := 0, deadlineActive := false })
    (Task.Sound.of_clear (by simp [hready]) rfl rfl (h.sound i).ranked) Iff.rfl Iff.rfl
  refine ⟨hbooks, fun j hj => ?_, h.running, h.ended⟩
  obtain ⟨hj', d, hd⟩ := h.current j hj
  refine ⟨?_, d, hd⟩
  by_cases hji : j = i
  · subst hji
    simpa [Scheduler.setTask] using hready
  · simpa [Scheduler.setTask, hji] using hj'

/-- A task that blocks counts as it did. -/
theorem kept_block (h : Invariant s) (hcur : s.currentIndex = some i) (hact : s.active = true)
    {t : Task} (hstate : t.state = .blocked) (hsound : t.Sound s.pendingEvents) :
    (Request.reschedule (s.setTask i t)).Kept := by
  have hready := (h.current i hcur).1
  refine ⟨h.toBooks.setTask hsound ?_ ?_, hact, (h.running hact).1⟩
  · simp [hstate, hready]
  · simp [hstate, hready, Live]

theorem kept_svcWaitEvents (h : Invariant s) (hcur : s.currentIndex = some i)
    (hact : s.active = true) : (svcWaitEvents s i f).Kept := by
  unfold svcWaitEvents
  by_cases hzero : f.r0 = 0
  · rw [if_pos hzero]
    exact fun h => nomatch h
  rw [if_neg hzero]
  by_cases hmatch : s.pendingEvents &&& f.r0 ≠ 0
  · rw [if_pos hmatch]
    exact kept_resumeWith h hcur _ _
  rw [if_neg hmatch]
  refine kept_block h hcur hact rfl ⟨fun _ => Or.inl hzero, fun hb => absurd rfl hb, fun _ => ?_,
    fun _ => by simp, ?_⟩
  · -- nothing requested is latched: this is the check that loses no wake
    simpa [BitVec.and_comm] using hmatch
  · exact (h.sound i).ranked

theorem kept_svcTimedBlock (h : Invariant s) (hcur : s.currentIndex = some i)
    (hact : s.active = true) : (svcTimedBlock s i f).Kept := by
  unfold svcTimedBlock
  by_cases hmatch : f.r0 ≠ 0 ∧ s.pendingEvents &&& f.r0 ≠ 0
  · rw [if_pos hmatch]
    exact kept_resumeWith h hcur _ _
  rw [if_neg hmatch]
  by_cases hzero : f.r1 = 0
  · rw [if_pos hzero]
    exact kept_resumeWith h hcur _ _
  rw [if_neg hzero]
  by_cases hlong : maxTimeoutMs < f.r1
  · rw [if_pos hlong]
    exact kept_resumeWith h hcur _ _
  rw [if_neg hlong]
  refine kept_block h hcur hact rfl ⟨fun _ => Or.inr rfl, fun hb => absurd rfl hb, fun _ => ?_,
    fun _ => by simp, ?_⟩
  · have hnone : f.r0 &&& s.pendingEvents = 0 := by
      by_contra hne
      refine hmatch ⟨fun hr0 => hne ?_, ?_⟩
      · rw [hr0]
        exact BitVec.zero_and
      · rwa [BitVec.and_comm]
    exact hnone
  · exact (h.sound i).ranked

theorem kept_svcRequest (h : Invariant s) (hcur : s.currentIndex = some i)
    (hact : s.active = true) (number : ℕ) : (svcRequest s i number f).Kept := by
  have hready := (h.current i hcur).1
  have hclear := (h.sound i).clear (by simp [hready])
  have hranked := (h.sound i).ranked
  unfold svcRequest
  split
  · refine ⟨h.toBooks.setTask ?_ Iff.rfl Iff.rfl, hact, (h.running hact).1⟩
    exact Task.Sound.of_clear (by simp [hready]) hclear.1 hclear.2 hranked
  · refine ⟨h.toBooks.exit hready rfl ?_, hact, (h.running hact).1⟩
    exact Task.Sound.of_clear (by simp) rfl rfl hranked
  · exact kept_svcWaitEvents h hcur hact
  · exact kept_svcTimedBlock h hcur hact
  · exact fun h => nomatch h

/-- **The end of a dispatch keeps the state of the run**, and finds a
BLOCKED task whenever it finds no READY one and the target is not met. -/
theorem invariant_reschedule (h : Books s) (hact : s.active = true)
    (hres : s.runResult = false) : Invariant (reschedule s i).1 := by
  unfold reschedule
  split
  next hnone =>
    have hidle := not_ready_of_select (fun j => (h.sound j).ranked) hnone
    by_cases htarget : s.completedCount = s.targetCount
    · rw [if_pos htarget]
      exact ⟨⟨h.sound, h.completed, h.target, h.aborted⟩, by simp, by simp, by simp [htarget]⟩
    rw [if_neg htarget]
    have hblocked : ∃ j, (s.tasks j).state = .blocked := by
      -- some task is live, and none is READY
      have hpos : 0 < countTasks Live s.tasks := by
        have := h.target
        omega
      obtain ⟨j, hj | hj⟩ := countTasks_pos.mp hpos
      · exact absurd hj (hidle j)
      · exact ⟨j, hj⟩
    rw [if_neg (by simpa [hasBlockedTasks] using hblocked)]
    have hshort : s.completedCount < s.targetCount := by
      obtain ⟨j, hj⟩ := hblocked
      exact h.short (Or.inr hj)
    exact ⟨⟨h.sound, h.completed, h.target, h.aborted⟩, by simp, fun _ => ⟨hres, hshort⟩,
      by simp [hact]⟩
  next next hnext =>
    have hready := ready_of_select hnext
    have hshort := h.short (Or.inl hready)
    split
    · exact h.abort hshort (by simp)
    · refine ⟨⟨h.sound, h.completed, h.target, h.aborted⟩, ?_, fun _ => ⟨hres, hshort⟩,
        by simp [hact]⟩
      intro j hj
      obtain rfl : next = j := Option.some.inj hj
      exact ⟨hready, _, rfl, chose_of_select hnext⟩

end Svc

/-! ## The steps -/

section Steps

variable {s : Scheduler}

/-- A run that is on is given up from any of its states. -/
theorem Invariant.abort (h : Invariant s) (hact : s.active = true) {site : AbortSite}
    (hsite : site ≠ .noBlockedTask) : Invariant (abortRun site s) :=
  h.toBooks.abort (h.running hact).2 hsite

theorem invariant_svcStart (h : Invariant s) (hact : s.active = true) (sp : SavedSp) :
    Invariant (svcStart s sp).1 := by
  unfold svcStart
  split
  · exact h.abort hact (by simp)
  split
  · exact h.abort hact (by simp)
  next next hnext =>
    split
    · exact h.abort hact (by simp)
    · refine ⟨⟨h.sound, h.completed, h.target, h.aborted⟩, ?_, h.running, by simp [hact]⟩
      intro j hj
      obtain rfl : next = j := Option.some.inj hj
      exact ⟨ready_of_select hnext, _, rfl, chose_of_select hnext⟩

theorem invariant_svcTask (h : Invariant s) (hact : s.active = true) (number : ℕ) (sp : SavedSp) :
    Invariant (svcTask s number sp).1 := by
  unfold svcTask
  split
  next i f _ hcur =>
    have hkept := kept_svcRequest (f := f) h hcur hact number
    split
    next site heq =>
      rw [heq] at hkept
      exact h.abort hact hkept
    next t g heq =>
      rw [heq] at hkept
      exact hkept
    next t heq =>
      rw [heq] at hkept
      exact invariant_reschedule hkept.1 hkept.2.1 hkept.2.2
  · exact h.abort hact (by simp)
  · exact h.abort hact (by simp)

theorem invariant_preempt (h : Books s) (hact : s.active = true)
    (hrun : s.runResult = false ∧ s.completedCount < s.targetCount) (i : TaskIndex) :
    Invariant (preempt s i).1 := by
  unfold preempt
  split
  · exact h.abort hrun.2 (by simp)
  next next hnext =>
    split
    · exact h.abort hrun.2 (by simp)
    · refine ⟨⟨h.sound, h.completed, h.target, h.aborted⟩, ?_, fun _ => hrun, by simp [hact]⟩
      intro j hj
      obtain rfl : next = j := Option.some.inj hj
      exact ⟨ready_of_select hnext, _, rfl, chose_of_select hnext⟩

theorem invariant_pendsvDispatch (h : Invariant s) (hact : s.active = true) (sp : SavedSp) :
    Invariant (pendsvDispatch s sp).1 := by
  unfold pendsvDispatch
  split
  next i f _ _ hcur =>
    have hready := (h.current i hcur).1
    have hclear := (h.sound i).clear (by simp [hready])
    have hsound : Task.Sound s.pendingEvents { s.tasks i with saved := some f } :=
      Task.Sound.of_clear (by simp [hready]) hclear.1 hclear.2 (h.sound i).ranked
    have hbooks := h.toBooks.setTask hsound Iff.rfl Iff.rfl
    exact invariant_preempt hbooks hact (h.running hact) i
  · exact h.abort hact (by simp)
  · exact h.abort hact (by simp)

theorem invariant_hostLoop (h : Invariant s) (hact : s.active = true) :
    Invariant (hostLoop s).1 := by
  unfold hostLoop
  split
  · exact h.abort hact (by simp)
  split
  · exact invariant_svcStart h hact _
  next hnone =>
    have hnone : selectNextReady s.tasks (taskCount - 1) = none := by simpa using hnone
    have hidle := not_ready_of_select (fun j => (h.sound j).ranked) hnone
    have hblocked : ∃ j, (s.tasks j).state = .blocked := by
      have hpos : 0 < countTasks Live s.tasks := by
        have := h.target
        have := (h.running hact).2
        omega
      obtain ⟨j, hj | hj⟩ := countTasks_pos.mp hpos
      · exact absurd hj (hidle j)
      · exact ⟨j, hj⟩
    rw [if_pos (by simpa [hasBlockedTasks] using hblocked)]
    exact ⟨⟨h.sound, h.completed, h.target, h.aborted⟩, h.current, h.running, h.ended⟩

end Steps

/-! ## Signals and ticks -/

/-- What a signal or a tick does to a task: it is left alone, or it was
BLOCKED and is READY, waiting for nothing. -/
def WokenOrSame (t t' : Task) : Prop :=
  t' = t ∨ t.state = .blocked ∧ ∃ matched result, t' = wakeTask t matched result

/-- A task that is done is not woken. -/
theorem WokenOrSame.done {t t' : Task} (h : WokenOrSame t t') :
    t'.state = .done ↔ t.state = .done := by
  rcases h with rfl | ⟨hb, matched, result, rfl⟩
  · exact Iff.rfl
  · simp [wakeTask, hb]

/-- Waking makes no task live, and ends none. -/
theorem WokenOrSame.live {t t' : Task} (h : WokenOrSame t t') :
    Live t'.state ↔ Live t.state := by
  rcases h with rfl | ⟨hb, matched, result, rfl⟩
  · exact Iff.rfl
  · simp [wakeTask, hb, Live]

/-- A task that is ready is not woken. -/
theorem WokenOrSame.ready {t t' : Task} (h : WokenOrSame t t') (hready : t.state = .ready) :
    t' = t := by
  rcases h with rfl | ⟨hb, _⟩
  · rfl
  · exact absurd (hready.symm.trans hb) (by simp)

/-- A signal wakes a task, or leaves it. -/
theorem signalTask_wokenOrSame (pending : BitVec 32) (t : Task) :
    WokenOrSame t (signalTask pending t) := by
  unfold signalTask
  split
  next hne =>
    refine Or.inr ⟨?_, _, _, rfl⟩
    by_contra hstate
    exact hne (if_neg hstate)
  · exact Or.inl rfl

/-- A tick wakes a task, or leaves it. -/
theorem tickTask_wokenOrSame (now : BitVec 32) (t : Task) : WokenOrSame t (tickTask now t) := by
  unfold tickTask
  split
  next hexp => exact Or.inr ⟨hexp.1, _, _, rfl⟩
  · exact Or.inl rfl

theorem wakeTask_sound {t : Task} (hranked : t.priority ≤ priorityLowest)
    (pending matched result : BitVec 32) : (wakeTask t matched result).Sound pending :=
  Task.Sound.of_clear (by simp [wakeTask]) rfl rfl hranked

/-- After the loop body of a signal, no BLOCKED task waits for a bit of the
word it was run with. -/
theorem signalTask_sound {pending : BitVec 32} {t : Task} (h : t.Sound pending)
    (latched : BitVec 32) : (signalTask latched t).Sound latched := by
  unfold signalTask
  split
  · exact wakeTask_sound h.ranked _ _ _
  next hnone =>
    refine ⟨h.blocked_waits, h.clear, fun hb => ?_, h.framed, h.ranked⟩
    simpa [matchedEvents, hb] using hnone

theorem tickTask_sound {pending : BitVec 32} {t : Task} (h : t.Sound pending) (now : BitVec 32) :
    (tickTask now t).Sound pending := by
  unfold tickTask
  split
  · exact wakeTask_sound h.ranked _ _ _
  · exact h

section Interrupts

variable {s : Scheduler}

/-- Every task left alone or woken: the run goes on as it was. -/
theorem Invariant.woken (h : Invariant s) {s' : Scheduler}
    (hwoken : ∀ i, WokenOrSame (s.tasks i) (s'.tasks i))
    (hsound : ∀ i, (s'.tasks i).Sound s'.pendingEvents)
    (hrest : s'.currentIndex = s.currentIndex ∧ s'.active = s.active ∧
      s'.completedCount = s.completedCount ∧ s'.targetCount = s.targetCount ∧
      s'.runResult = s.runResult ∧ s'.lastDispatch = s.lastDispatch ∧
      s'.abortedAt = s.abortedAt) : Invariant s' := by
  obtain ⟨hcur, hact, hcompleted, htarget, hresult, hlast, haborted⟩ := hrest
  have hdone := countTasks_congr (q := (· = .done)) fun i => (hwoken i).done
  have hlive := countTasks_congr (q := Live) fun i => (hwoken i).live
  refine ⟨⟨hsound, ?_, ?_, ?_⟩, ?_, ?_, ?_⟩
  · rw [hcompleted, hdone, h.completed]
  · rw [hcompleted, htarget, hlive, h.target]
  · rw [haborted]
    exact h.aborted
  · intro i hi
    obtain ⟨hready, d, hd, hchose⟩ := h.current i (hcur ▸ hi)
    refine ⟨?_, d, hlast ▸ hd, hchose⟩
    rw [(hwoken i).ready hready, hready]
  · rw [hact, hresult, hcompleted, htarget]
    exact h.running
  · rw [hact, hcur, hresult, hcompleted, htarget]
    exact h.ended

theorem invariant_eventSignal (h : Invariant s) (events : BitVec 32) :
    Invariant (eventSignal events s) := by
  unfold eventSignal
  split
  · exact h
  · refine h.woken (fun i => signalTask_wokenOrSame _ _) (fun i => ?_)
      ⟨rfl, rfl, rfl, rfl, rfl, rfl, rfl⟩
    exact (signalTask_sound (h.sound i) _).consume _

theorem invariant_tick (h : Invariant s) (now : BitVec 32) : Invariant (tick now s) := by
  unfold tick
  split
  · exact h.woken (fun i => tickTask_wokenOrSame _ _) (fun i => tickTask_sound (h.sound i) now)
      ⟨rfl, rfl, rfl, rfl, rfl, rfl, rfl⟩
  · exact h.woken (fun i => Or.inl rfl) h.sound ⟨rfl, rfl, rfl, rfl, rfl, rfl, rfl⟩

/-- One step keeps the state of the run. -/
theorem invariant_step (ev : Event) (s : Scheduler) (h : Invariant s) (hmay : MayOccur ev s) :
    Invariant (step ev s) := by
  cases ev with
  | svcHost sp => exact invariant_svcStart h hmay sp
  | svc number sp => exact invariant_svcTask h hmay number sp
  | pendsv sp => exact invariant_pendsvDispatch h hmay sp
  | signal events => exact invariant_eventSignal h events
  | tick now => exact invariant_tick h now
  | host => exact invariant_hostLoop h hmay

end Interrupts

/-! ## The start -/

/-- A table before the start: no task has run or waits. -/
structure Fresh (s : Scheduler) : Prop where
  states : ∀ i, (s.tasks i).state = .unused ∨ (s.tasks i).state = .ready
  clear : ∀ i, (s.tasks i).waitEvents = 0 ∧ (s.tasks i).deadlineActive = false
  ranked : ∀ i, (s.tasks i).priority ≤ priorityLowest
  latched : s.pendingEvents = 0
  aborted : s.abortedAt = none

theorem fresh_init {s s₁ : Scheduler} (h : init s = some s₁) : Fresh s₁ := by
  unfold init at h
  split at h
  · exact absurd h (by simp)
  · obtain rfl := Option.some.inj h
    have hdefault : priorityDefault ≤ priorityLowest := by decide
    exact ⟨fun _ => Or.inl rfl, fun _ => ⟨rfl, rfl⟩, fun _ => hdefault, rfl, rfl⟩

/-- Preparing a task leaves the scheduler fresh. -/
theorem Fresh.setTask {s : Scheduler} (h : Fresh s) {i : TaskIndex} {t : Task}
    (hstate : t.state = .unused ∨ t.state = .ready)
    (hclear : t.waitEvents = 0 ∧ t.deadlineActive = false)
    (hranked : t.priority ≤ priorityLowest) : Fresh (s.setTask i t) := by
  have hat : ∀ j, (s.setTask i t).tasks j = t ∨ (s.setTask i t).tasks j = s.tasks j := by
    intro j
    by_cases hj : j = i
    · exact Or.inl (by simp [Scheduler.setTask, hj])
    · exact Or.inr (by simp [Scheduler.setTask, hj])
  refine ⟨fun j => ?_, fun j => ?_, fun j => ?_, h.latched, h.aborted⟩
  · rcases hat j with hj | hj <;> rw [hj]
    · exact hstate
    · exact h.states j
  · rcases hat j with hj | hj <;> rw [hj]
    · exact hclear
    · exact h.clear j
  · rcases hat j with hj | hj <;> rw [hj]
    · exact hranked
    · exact h.ranked j

theorem fresh_taskStackBind {s : Scheduler} (h : Fresh s) (index stackLow stackWords : ℕ) :
    Fresh (taskStackBind s index stackLow stackWords) := by
  unfold taskStackBind
  split
  · split
    · exact h
    · exact h.setTask (h.states _) ⟨rfl, rfl⟩ (h.ranked _)
  · exact h

theorem fresh_taskPrioritySet {s : Scheduler} (h : Fresh s) (index priority : ℕ) :
    Fresh (taskPrioritySet s index priority) := by
  unfold taskPrioritySet
  split
  · split
    · exact h
    next hrefused =>
      refine h.setTask (h.states _) (h.clear _) ?_
      have := not_or.mp hrefused
      exact Nat.le_of_not_lt this.1
  · exact h

theorem fresh_taskPrepare {s : Scheduler} (h : Fresh s) (index entry : ℕ)
    (argument : BitVec 32) : Fresh (taskPrepare s index entry argument) := by
  unfold taskPrepare
  split
  · split
    · exact h
    · exact h.setTask (Or.inr rfl) ⟨rfl, rfl⟩ (h.ranked _)
  · exact h

theorem fresh_setup {s : Scheduler} (h : Fresh s) (call : SetupCall) : Fresh (setup s call) := by
  cases call with
  | bind index stackLow stackWords => exact fresh_taskStackBind h index stackLow stackWords
  | priority index priority => exact fresh_taskPrioritySet h index priority
  | prepare index entry argument => exact fresh_taskPrepare h index entry argument

theorem fresh_setups {s : Scheduler} (h : Fresh s) (calls : List SetupCall) :
    Fresh (calls.foldl setup s) := by
  induction calls generalizing s with
  | nil => exact h
  | cons call calls ih => exact ih (fresh_setup h call)

/-- A run begins with every counter at its place. -/
theorem invariant_startMode {s s₀ : Scheduler} (h : Fresh s) {preemptive : Bool}
    (hstart : startMode preemptive s = some s₀) : Invariant s₀ := by
  unfold startMode at hstart
  split at hstart
  · exact absurd hstart (by simp)
  split at hstart
  · exact absurd hstart (by simp)
  split at hstart
  · exact absurd hstart (by simp)
  next hsome =>
    obtain rfl := Option.some.inj hstart
    have hnotDone : ∀ i, (s.tasks i).state ≠ .done := fun i => by
      rcases h.states i with hi | hi <;> simp [hi]
    have hnotBlocked : ∀ i, (s.tasks i).state ≠ .blocked := fun i => by
      rcases h.states i with hi | hi <;> simp [hi]
    have hlive : countTasks Live s.tasks =
        Finset.card (Finset.univ.filter fun i => (s.tasks i).state = .ready) := by
      rw [Finset.card_filter, countTasks]
      refine Finset.sum_congr rfl fun i _ => ?_
      simp [Live, hnotBlocked i]
    refine ⟨⟨fun i => ?_, ?_, ?_, ?_⟩, by simp, fun _ => ⟨rfl, ?_⟩, by simp⟩
    · exact Task.Sound.of_clear (hnotBlocked i) (h.clear i).1 (h.clear i).2 (h.ranked i)
    · simp [countTasks, hnotDone]
    · simp only [hlive, Nat.zero_add]
    · simp [h.aborted]
    · exact Nat.pos_of_ne_zero hsome

/-- A run begins with nothing latched and no task BLOCKED. -/
theorem fresh_startMode {s s₀ : Scheduler} (h : Fresh s) {preemptive : Bool}
    (hstart : startMode preemptive s = some s₀) : Fresh s₀ := by
  unfold startMode at hstart
  split at hstart
  · exact absurd hstart (by simp)
  split at hstart
  · exact absurd hstart (by simp)
  split at hstart
  · exact absurd hstart (by simp)
  · obtain rfl := Option.some.inj hstart
    exact ⟨h.states, h.clear, h.ranked, h.latched, h.aborted⟩

/-- What can be started is fresh. -/
theorem Scheduler.Started.fresh {s₀ : Scheduler} (h : Started s₀) : Fresh s₀ := by
  obtain ⟨s, s₁, calls, preemptive, hinit, hstart⟩ := h
  exact fresh_startMode (fresh_setups (fresh_init hinit) calls) hstart

/-- **The invariant holds at the start.** -/
theorem Scheduler.Started.invariant {s₀ : Scheduler} (h : Started s₀) : Invariant s₀ := by
  obtain ⟨s, s₁, calls, preemptive, hinit, hstart⟩ := h
  exact invariant_startMode (fresh_setups (fresh_init hinit) calls) hstart

/-- Every state of a run. -/
theorem Scheduler.Started.run_invariant {s₀ : Scheduler} (h : Started s₀) {evs : List Event}
    (hlegal : Ledger.Legal step MayOccur evs s₀) : Invariant (Ledger.run step evs s₀) :=
  Ledger.invariant_run invariant_step h.invariant hlegal

/-! ## Dispatches -/

/-- Where a dispatch begins to look: after the current task, or at the
beginning of the table when there is none. -/
def previous (s : Scheduler) : ℕ :=
  match s.currentIndex with
  | some i => i
  | none => taskCount - 1

/-- The last dispatch is the one of before the step, or one that the step
itself made, after the task that was current, in the table it leaves. -/
def DispatchesAfter (k : ℕ) (s : Scheduler) (s' : Scheduler) : Prop :=
  s'.lastDispatch = s.lastDispatch ∨ s'.lastDispatch = some ⟨k, s'.tasks⟩

theorem dispatchesAfter_reschedule (s : Scheduler) (i : TaskIndex) :
    DispatchesAfter i s (reschedule s i).1 := by
  unfold reschedule
  split
  · split
    · exact Or.inl rfl
    · split
      · exact Or.inl rfl
      · exact Or.inl rfl
  · split
    · exact Or.inl rfl
    · exact Or.inr rfl

theorem dispatchesAfter_svcStart (s : Scheduler) (sp : SavedSp) :
    DispatchesAfter (previous s) s (svcStart s sp).1 := by
  unfold svcStart
  split
  · exact Or.inl rfl
  next hentry =>
    have hcur : s.currentIndex = none := by
      by_contra hne
      exact hentry (Or.inr (Or.inl hne))
    split
    · exact Or.inl rfl
    · split
      · exact Or.inl rfl
      · refine Or.inr ?_
        simp [previous, hcur]

theorem dispatchesAfter_step (ev : Event) (s : Scheduler) :
    DispatchesAfter (previous s) s (step ev s) := by
  cases ev with
  | svcHost sp => exact dispatchesAfter_svcStart s sp
  | host =>
    change DispatchesAfter (previous s) s (hostLoop s).1
    unfold hostLoop
    split
    · exact Or.inl rfl
    split
    · exact dispatchesAfter_svcStart s .null
    · split
      · exact Or.inl rfl
      · exact Or.inl rfl
  | signal events =>
    change DispatchesAfter (previous s) s (eventSignal events s)
    unfold eventSignal
    split
    · exact Or.inl rfl
    · exact Or.inl rfl
  | tick now =>
    change DispatchesAfter (previous s) s (tick now s)
    unfold tick
    split
    · exact Or.inl rfl
    · exact Or.inl rfl
  | pendsv sp =>
    change DispatchesAfter (previous s) s (pendsvDispatch s sp).1
    unfold pendsvDispatch
    split
    next i f _ _ hcur =>
      unfold preempt
      split
      · exact Or.inl rfl
      · split
        · exact Or.inl rfl
        · refine Or.inr ?_
          simp [previous, hcur]
    · exact Or.inl rfl
    · exact Or.inl rfl
  | svc number sp =>
    change DispatchesAfter (previous s) s (svcTask s number sp).1
    unfold svcTask
    split
    next i f _ hcur =>
      have hsame : ∀ t, svcRequest s i number f = .reschedule t →
          t.lastDispatch = s.lastDispatch := by
        intro t ht
        unfold svcRequest svcYield svcExit svcWaitEvents svcTimedBlock resumeWith at ht
        split at ht <;> (try split_ifs at ht) <;> cases ht <;> rfl
      have hsame' : ∀ t g, svcRequest s i number f = .resume t g →
          t.lastDispatch = s.lastDispatch := by
        intro t g ht
        unfold svcRequest svcYield svcExit svcWaitEvents svcTimedBlock resumeWith at ht
        split at ht <;> (try split_ifs at ht) <;> cases ht <;> rfl
      split
      · exact Or.inl rfl
      next t g heq => exact Or.inl (hsame' t g heq)
      next t heq =>
        have hprev : previous s = i := by simp [previous, hcur]
        rw [hprev]
        rcases dispatchesAfter_reschedule t i with h | h
        · exact Or.inl (h.trans (hsame t heq))
        · exact Or.inr h
    · exact Or.inl rfl
    · exact Or.inl rfl

/-! ## The result -/

/-- **The scheduler's state in every run.** Whatever tasks were prepared
with whatever priorities, and in whatever order supervisor calls,
preemptions, signals, ticks and turns of the host loop come: the state keeps
`Invariant`, each dispatch looks after the task that was current in the
table it leaves, and a run that has ended returns success exactly when as
many tasks are DONE as were started. -/
theorem scheduler_invariant {s₀ : Scheduler} (h : Started s₀) {evs : List Event}
    (hlegal : Ledger.Legal step MayOccur evs s₀) :
    Invariant (Ledger.run step evs s₀) ∧
      (∀ ev, DispatchesAfter (previous (Ledger.run step evs s₀)) (Ledger.run step evs s₀)
        (step ev (Ledger.run step evs s₀))) ∧
      ((Ledger.run step evs s₀).active = false →
        (startResult (Ledger.run step evs s₀) = true ↔
          countTasks (· = .done) (Ledger.run step evs s₀).tasks =
            (Ledger.run step evs s₀).targetCount)) := by
  have hinv := h.run_invariant hlegal
  refine ⟨hinv, fun ev => dispatchesAfter_step ev _, fun hended => ?_⟩
  obtain ⟨hcur, hresult⟩ := hinv.ended hended
  rw [← hinv.completed, ← hresult]
  simp [startResult, hcur]

/-- Two prepared tasks of different priorities. -/
def twoTasks : List SetupCall :=
  [.bind 0 0x20000000 128, .bind 1 0x20000200 128, .priority 1 10,
    .prepare 0 0x08001000 1, .prepare 1 0x08002000 2]

/-- The run of the two tasks, just started. -/
def twoTasksStarted : Scheduler :=
  (startMode true (twoTasks.foldl setup ((init {}).getD {}))).getD {}

/-- Two tasks can be started. -/
theorem started_twoTasks : Started twoTasksStarted := by
  refine ⟨{}, (init {}).getD {}, twoTasks, true, rfl, ?_⟩
  have hsome : (startMode true (twoTasks.foldl setup ((init {}).getD {}))).isSome = true := by
    decide
  unfold twoTasksStarted
  obtain ⟨s, hs⟩ := Option.isSome_iff_exists.mp hsome
  rw [hs]
  rfl

/-- Both tasks run and exit: the run ends, and succeeds. -/
theorem scheduler_invariant_of_twoTasks :
    (Ledger.run step [.svcHost .null, .tick 1, .svc 2 (.frame ⟨0, 0⟩), .svc 2 (.frame ⟨0, 0⟩)]
      twoTasksStarted).active = false ∧
    Invariant (Ledger.run step
      [.svcHost .null, .tick 1, .svc 2 (.frame ⟨0, 0⟩), .svc 2 (.frame ⟨0, 0⟩)]
      twoTasksStarted) := by
  refine ⟨by decide, (scheduler_invariant started_twoTasks ?_).1⟩
  refine ⟨?_, trivial, ?_, ?_, trivial⟩
  · show (Scheduler.active _ = true)
    decide
  · show (Scheduler.active _ = true)
    decide
  · show (Scheduler.active _ = true)
    decide

end DeusOs.Kernel
