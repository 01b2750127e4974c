import DeusOs.Host.Model.Session
import Mathlib.Data.List.Basic

/-!
# The host — notifications

A notification task starts when its predecessor has completed. So the tasks
that have completed come first, then at most one that is calling, then those
that wait; and what a subscriber was called with is the first of the changes
that were scheduled, in their order. A subscriber that throws changes nothing
of this.
-/

namespace DeusOs

namespace Host

/-- The subscribers a task has called. -/
def NotificationTask.called (t : NotificationTask) : List ℕ :=
  match t.dispatch with
  | .waiting => []
  | .calling called _ => called
  | .completed called => called

/-- What a task has shown its subscribers. -/
def NotificationTask.shown (t : NotificationTask) : List (ℕ × ConnectionState) :=
  t.called.map fun subscriber => (subscriber, t.state)

/-- What a subscriber was called with. -/
def Notifier.observedBy (n : Notifier) (subscriber : ℕ) : List ConnectionState :=
  (n.observed.filter fun p => decide (p.1 = subscriber)).map Prod.snd

/-- Every task has ended. -/
def Notifier.Quiescent (n : Notifier) : Prop := ∀ t ∈ n.tasks, t.isCompleted = true

/-- The invocation list that a task has read has a subscriber on it once. -/
def NotificationTask.Calls (t : NotificationTask) (subscriber : ℕ) : Prop :=
  match t.dispatch with
  | .waiting => True
  | .calling called rest => (called ++ rest).count subscriber = 1
  | .completed called => called.count subscriber = 1

/-- **The tasks run one after the other**: some have completed, and of the
others all but the first still wait. -/
structure InTurn (n : Notifier) (done pending : List NotificationTask) : Prop where
  tasks_eq : n.tasks = done ++ pending
  completed : ∀ t ∈ done, t.isCompleted = true
  running : ∀ t ∈ pending, t.isCompleted = false
  waiting : ∀ t ∈ pending.tail, t.dispatch = .waiting
  observed : n.observed = n.tasks.flatMap NotificationTask.shown

variable {n : Notifier} {done pending : List NotificationTask}

theorem shown_waiting {t : NotificationTask} (h : t.dispatch = .waiting) : t.shown = [] := by
  rw [NotificationTask.shown, NotificationTask.called, h]
  rfl

/-- What is shown is shown by the tasks up to the first that runs. -/
theorem InTurn.observed_eq (h : InTurn n done pending) :
    n.observed = done.flatMap NotificationTask.shown ++ (pending.head?.map
      NotificationTask.shown).getD [] := by
  rw [h.observed, h.tasks_eq, List.flatMap_append]
  congr 1
  cases pending with
  | nil => rfl
  | cons t rest =>
    have hrest : rest.flatMap NotificationTask.shown = [] :=
      List.flatMap_eq_nil_iff.2 fun t' ht' => shown_waiting (h.waiting t' ht')
    rw [List.flatMap_cons, hrest, List.append_nil]
    rfl

/-- A task that runs, or may start, is the first that has not completed. -/
theorem InTurn.head (h : InTurn n done pending) {k : ℕ} {t : NotificationTask}
    (hk : n.tasks[k]? = some t) (hrun : t.isCompleted = false)
    (hturn : t.dispatch = .waiting → n.predecessorCompleted k = true) :
    k = done.length ∧ ∃ rest, pending = t :: rest := by
  rw [h.tasks_eq] at hk
  rcases Nat.lt_trichotomy k done.length with hlt | heq | hgt
  · rw [List.getElem?_append_left hlt] at hk
    rw [h.completed t (List.mem_of_getElem? hk)] at hrun
    cases hrun
  · subst heq
    rw [List.getElem?_append_right (Nat.le_refl _), Nat.sub_self] at hk
    cases pending with
    | nil => cases hk
    | cons t' rest =>
      cases hk
      exact ⟨rfl, rest, rfl⟩
  · -- the predecessor is not among the completed
    exfalso
    rw [List.getElem?_append_right (Nat.le_of_lt hgt)] at hk
    obtain ⟨i, hi⟩ : ∃ i, k - done.length = i + 1 := ⟨k - done.length - 1, by omega⟩
    rw [hi] at hk
    have hwait : t.dispatch = .waiting := by
      cases pending with
      | nil => cases hk
      | cons t' rest => exact h.waiting t (List.mem_of_getElem? hk)
    have hpred := hturn hwait
    rw [Notifier.predecessorCompleted, h.tasks_eq,
      List.getElem?_append_right (by omega), show k - 1 - done.length = i by omega] at hpred
    have hk0 : decide (k = 0) = false := decide_eq_false (by omega)
    rw [hk0, Bool.false_or] at hpred
    cases hp : pending[i]? with
    | none =>
      rw [hp] at hpred
      cases hpred
    | some t' =>
      rw [hp] at hpred
      have hrun' := h.running t' (List.mem_of_getElem? hp)
      have hdone : t'.isCompleted = true := hpred
      rw [hrun'] at hdone
      cases hdone

/-- The first that has not completed goes on. -/
theorem InTurn.move {rest : List NotificationTask} {t t' : NotificationTask}
    (h : InTurn n done (t :: rest)) {observed : List (ℕ × ConnectionState)}
    (hrun : t'.isCompleted = false)
    (hshown : n.observed ++ observed = done.flatMap NotificationTask.shown ++ t'.shown) :
    InTurn { n with tasks := n.tasks.set done.length t', observed := n.observed ++ observed } done
      (t' :: rest) := by
  have htasks : n.tasks.set done.length t' = done ++ t' :: rest := by
    rw [h.tasks_eq, List.set_append_right _ _ (Nat.le_refl _), Nat.sub_self]
    rfl
  refine ⟨htasks, h.completed, fun u hu => ?_, h.waiting, ?_⟩
  · rcases List.mem_cons.1 hu with rfl | hu
    · exact hrun
    · exact h.running u (List.mem_cons_of_mem _ hu)
  · have hrest : rest.flatMap NotificationTask.shown = [] :=
      List.flatMap_eq_nil_iff.2 fun u hu => shown_waiting (h.waiting u hu)
    show n.observed ++ observed = (n.tasks.set done.length t').flatMap NotificationTask.shown
    rw [htasks, hshown, List.flatMap_append, List.flatMap_cons, hrest, List.append_nil]

/-- The first that has not completed is found behind those that have. -/
theorem InTurn.getElem?_head {rest : List NotificationTask} {t : NotificationTask}
    (h : InTurn n done (t :: rest)) : n.tasks[done.length]? = some t := by
  rw [h.tasks_eq, List.getElem?_append_right (Nat.le_refl _), Nat.sub_self]
  rfl

/-- It starts. -/
theorem InTurn.start {rest : List NotificationTask} {st : ConnectionState}
    (h : InTurn n done (⟨st, .waiting⟩ :: rest)) :
    InTurn { n with tasks := n.tasks.set done.length ⟨st, .calling [] n.subscribers⟩ } done
      (⟨st, .calling [] n.subscribers⟩ :: rest) := by
  have hshown : n.observed ++ [] = done.flatMap NotificationTask.shown ++
      NotificationTask.shown ⟨st, .calling [] n.subscribers⟩ := by
    rw [List.append_nil, h.observed_eq]
    rfl
  have hmove := h.move rfl hshown
  rw [List.append_nil] at hmove
  exact hmove

/-- It calls a subscriber. -/
theorem InTurn.call {rest : List NotificationTask} {st : ConnectionState} {called rest' : List ℕ}
    {subscriber : ℕ} (h : InTurn n done (⟨st, .calling called (subscriber :: rest')⟩ :: rest)) :
    InTurn
      { n with
        tasks := n.tasks.set done.length ⟨st, .calling (called ++ [subscriber]) rest'⟩
        observed := n.observed ++ [(subscriber, st)] } done
      (⟨st, .calling (called ++ [subscriber]) rest'⟩ :: rest) := by
  have hshown : NotificationTask.shown ⟨st, .calling (called ++ [subscriber]) rest'⟩ =
      NotificationTask.shown ⟨st, .calling called (subscriber :: rest')⟩ ++
        [(subscriber, st)] := List.map_append
  refine h.move rfl ?_
  rw [h.observed_eq, List.append_assoc, hshown]
  rfl

/-- The first that has not completed ends. -/
theorem InTurn.complete {rest : List NotificationTask} {t t' : NotificationTask}
    (h : InTurn n done (t :: rest)) (hend : t'.isCompleted = true) (hshown : t'.shown = t.shown) :
    InTurn { n with tasks := n.tasks.set done.length t' } (done ++ [t']) rest := by
  have htasks : n.tasks.set done.length t' = (done ++ [t']) ++ rest := by
    rw [h.tasks_eq, List.set_append_right _ _ (Nat.le_refl _), Nat.sub_self, List.append_assoc]
    rfl
  refine ⟨htasks, fun u hu => ?_, fun u hu => h.running u (List.mem_cons_of_mem _ hu),
    fun u hu => h.waiting u (List.mem_of_mem_tail hu), ?_⟩
  · rcases List.mem_append.1 hu with hu | hu
    · exact h.completed u hu
    · rw [List.mem_singleton.1 hu]
      exact hend
  · show n.observed = (n.tasks.set done.length t').flatMap NotificationTask.shown
    rw [h.observed, htasks, h.tasks_eq]
    simp only [List.flatMap_append, List.flatMap_cons, List.flatMap_nil, List.append_nil, hshown,
      List.append_assoc]

/-- **One event.** -/
theorem InTurn.step (h : InTurn n done pending) (ev : NotifierEvent) :
    ∃ done' pending', InTurn (n.step ev) done' pending' := by
  cases ev with
  | schedule st =>
    refine ⟨done, pending ++ [⟨st, .waiting⟩], ?_, h.completed, fun t ht => ?_, fun t ht => ?_, ?_⟩
    · show n.tasks ++ _ = _
      rw [h.tasks_eq, List.append_assoc]
    · rcases List.mem_append.1 ht with ht | ht
      · exact h.running t ht
      · rw [List.mem_singleton.1 ht]
        rfl
    · cases pending with
      | nil => cases ht
      | cons t' rest =>
        rcases List.mem_append.1 ht with ht | ht
        · exact h.waiting t ht
        · rw [List.mem_singleton.1 ht]
    · show n.observed =
        (n.tasks ++ [(⟨st, .waiting⟩ : NotificationTask)]).flatMap NotificationTask.shown
      rw [List.flatMap_append, ← h.observed]
      exact (List.append_nil _).symm
  | subscribe subscribers =>
    exact ⟨done, pending, h.tasks_eq, h.completed, h.running, h.waiting, h.observed⟩
  | resume k =>
    simp only [Notifier.step]
    split
    · rename_i st hk
      split
      · rename_i hpred
        obtain ⟨rfl, rest, rfl⟩ := h.head hk rfl fun _ => hpred
        exact ⟨_, _, h.start⟩
      · exact ⟨done, pending, h⟩
    · exact ⟨done, pending, h⟩
  | call k throws =>
    simp only [Notifier.step]
    split
    · rename_i st called subscriber rest' hk
      obtain ⟨rfl, rest, rfl⟩ := h.head hk rfl nofun
      exact ⟨_, _, h.call⟩
    · exact ⟨done, pending, h⟩
  | finish k =>
    simp only [Notifier.step]
    split
    · rename_i st called hk
      obtain ⟨rfl, rest, rfl⟩ := h.head hk rfl nofun
      exact ⟨_, _, h.complete rfl rfl⟩
    · exact ⟨done, pending, h⟩

/-- **A run of events** keeps the turn, by induction over the events. -/
theorem InTurn.run (h : InTurn n done pending) (events : List NotifierEvent) :
    ∃ done' pending', InTurn (n.run events) done' pending' := by
  induction events generalizing n done pending with
  | nil => exact ⟨done, pending, h⟩
  | cons ev events ih =>
    obtain ⟨done', pending', h'⟩ := h.step ev
    exact ih h'

/-! ## What a subscriber is told -/

variable {subscriber : ℕ}

/-- A replaced task leaves the states of the tasks as they were. -/
theorem map_state_set {tasks : List NotificationTask} {k : ℕ} {t t' : NotificationTask}
    (hk : tasks[k]? = some t) (hst : t'.state = t.state) :
    (tasks.set k t').map NotificationTask.state = tasks.map NotificationTask.state := by
  obtain ⟨hlt, rfl⟩ := List.getElem?_eq_some_iff.1 hk
  rw [List.map_set, hst, ← List.getElem_map NotificationTask.state, List.set_getElem_self]
  rwa [List.length_map]

/-- The tasks are for the changes that were scheduled. -/
theorem states_run (events : List NotifierEvent) :
    (n.run events).tasks.map NotificationTask.state =
      n.tasks.map NotificationTask.state ++ scheduled events := by
  induction events generalizing n with
  | nil => exact (List.append_nil _).symm
  | cons ev events ih =>
    refine ih.trans ?_
    cases ev with
    | schedule st =>
      simp only [Notifier.step, scheduled, List.map_append, List.map_cons, List.map_nil,
        List.append_assoc, List.cons_append, List.nil_append]
    | subscribe subscribers => rfl
    | resume k =>
      simp only [Notifier.step, scheduled]
      congr 1
      split
      · rename_i st hk
        split
        · exact map_state_set hk rfl
        · rfl
      · rfl
    | call k throws =>
      simp only [Notifier.step, scheduled]
      congr 1
      split
      · rename_i hk
        exact map_state_set hk rfl
      · rfl
    | finish k =>
      simp only [Notifier.step, scheduled]
      congr 1
      split
      · rename_i hk
        exact map_state_set hk rfl
      · rfl

/-- A subscriber is on the invocation list once, as on those that were read. -/
structure Subscribed (n : Notifier) (subscriber : ℕ) : Prop where
  listed : n.subscribers.count subscriber = 1
  calls : ∀ t ∈ n.tasks, t.Calls subscriber

/-- A subscriber stays subscribed while a task calls it. -/
theorem Subscribed.set (h : Subscribed n subscriber) {k : ℕ} {t : NotificationTask}
    (ht : t.Calls subscriber) {observed : List (ℕ × ConnectionState)} :
    Subscribed { n with tasks := n.tasks.set k t, observed := observed } subscriber := by
  refine ⟨h.listed, fun u hu => ?_⟩
  rcases List.mem_or_eq_of_mem_set hu with hu | rfl
  · exact h.calls u hu
  · exact ht

/-- Whoever stays subscribed is called by every task. -/
theorem Subscribed.step (h : Subscribed n subscriber) (ev : NotifierEvent)
    (hev : ∀ subscribers, ev = .subscribe subscribers → subscribers.count subscriber = 1) :
    Subscribed (n.step ev) subscriber := by
  cases ev with
  | schedule st =>
    refine ⟨h.listed, fun t ht => ?_⟩
    rcases List.mem_append.1 ht with ht | ht
    · exact h.calls t ht
    · rw [List.mem_singleton.1 ht]
      trivial
  | subscribe subscribers => exact ⟨hev subscribers rfl, h.calls⟩
  | resume k =>
    simp only [Notifier.step]
    split
    · rename_i st hk
      split
      · refine h.set ?_
        exact h.listed
      · exact h
    · exact h
  | call k throws =>
    simp only [Notifier.step]
    split
    · rename_i st called subscriber' rest hk
      have hcalls : (called ++ subscriber' :: rest).count subscriber = 1 :=
        h.calls _ (List.mem_of_getElem? hk)
      refine h.set ?_
      show ((called ++ [subscriber']) ++ rest).count subscriber = 1
      rw [List.append_assoc]
      exact hcalls
    · exact h
  | finish k =>
    simp only [Notifier.step]
    split
    · rename_i st called hk
      have hcalls : (called ++ []).count subscriber = 1 := h.calls _ (List.mem_of_getElem? hk)
      rw [List.append_nil] at hcalls
      refine h.set ?_
      exact hcalls
    · exact h

/-- A subscriber stays subscribed over every run that does not subscribe it
twice. -/
theorem Subscribed.run (h : Subscribed n subscriber) (events : List NotifierEvent)
    (hev : ∀ subscribers, .subscribe subscribers ∈ events → subscribers.count subscriber = 1) :
    Subscribed (n.run events) subscriber := by
  induction events generalizing n with
  | nil => exact h
  | cons ev events ih =>
    refine ih (h.step ev fun subscribers he => hev subscribers ?_) fun subscribers hmem =>
      hev subscribers (List.mem_cons_of_mem _ hmem)
    rw [he]
    exact List.mem_cons_self

/-- A list of calls that show one state. -/
theorem calls_of_map (called : List ℕ) (st : ConnectionState) :
    ((called.map fun subscriber' => (subscriber', st)).filter
      fun p => decide (p.1 = subscriber)).map Prod.snd =
        List.replicate (called.count subscriber) st := by
  induction called with
  | nil => rfl
  | cons subscriber' called ih =>
    by_cases h : subscriber' = subscriber
    · simp only [List.map_cons, h, decide_true, List.filter_cons_of_pos, ih, List.count_cons_self,
        List.replicate_succ]
    · rw [List.count_cons_of_ne h, ← ih]
      simp only [List.map_cons, h, decide_false, Bool.false_eq_true, not_false_eq_true,
        List.filter_cons_of_neg]

/-- A task that has completed has shown its state to the subscriber. -/
theorem calls_completed {t : NotificationTask} (hdone : t.isCompleted = true)
    (hcalls : t.Calls subscriber) :
    (t.shown.filter fun p => decide (p.1 = subscriber)).map Prod.snd = [t.state] := by
  rw [NotificationTask.shown, calls_of_map]
  have hone : t.called.count subscriber = 1 := by
    obtain ⟨st, dispatch⟩ := t
    cases dispatch with
    | completed called => exact hcalls
    | waiting => cases hdone
    | calling called rest => cases hdone
  rw [hone]
  rfl

/-- A task has shown its state to the subscriber, or not yet. -/
theorem calls_prefix {t : NotificationTask} (hcalls : t.Calls subscriber) :
    (t.shown.filter fun p => decide (p.1 = subscriber)).map Prod.snd <+: [t.state] := by
  rw [NotificationTask.shown, calls_of_map]
  have hle : t.called.count subscriber ≤ 1 := by
    obtain ⟨st, dispatch⟩ := t
    cases dispatch with
    | completed called => exact Nat.le_of_eq hcalls
    | waiting => exact Nat.zero_le _
    | calling called rest =>
      have hcount : (called ++ rest).count subscriber = 1 := hcalls
      rw [List.count_append] at hcount
      show called.count subscriber ≤ 1
      omega
  rcases Nat.le_one_iff_eq_zero_or_eq_one.1 hle with hzero | hone
  -- not called yet
  · rw [hzero]
    exact List.nil_prefix
  · rw [hone]
    exact List.prefix_rfl

/-- What the completed tasks have shown a subscriber. -/
theorem calls_done (hdone : ∀ t ∈ done, t.isCompleted = true)
    (hcalls : ∀ t ∈ done, t.Calls subscriber) :
    ((done.flatMap NotificationTask.shown).filter fun p => decide (p.1 = subscriber)).map Prod.snd =
      done.map NotificationTask.state := by
  induction done with
  | nil => rfl
  | cons t done ih =>
    rw [List.flatMap_cons, List.filter_append, List.map_append,
      calls_completed (hdone t List.mem_cons_self) (hcalls t List.mem_cons_self),
      ih (fun t' ht' => hdone t' (List.mem_cons_of_mem _ ht'))
        fun t' ht' => hcalls t' (List.mem_cons_of_mem _ ht')]
    rfl

/-- **What a subscriber was called with** is the first of the states of the
tasks. -/
theorem InTurn.observedBy_prefix (h : InTurn n done pending) (hsub : Subscribed n subscriber) :
    n.observedBy subscriber <+: n.tasks.map NotificationTask.state := by
  have hcalls : ∀ t ∈ done ++ pending, t.Calls subscriber := by
    rw [← h.tasks_eq]
    exact hsub.calls
  rw [Notifier.observedBy, h.observed_eq, h.tasks_eq, List.filter_append, List.map_append,
    List.map_append, calls_done h.completed fun t ht => hcalls t (List.mem_append_left _ ht)]
  refine List.prefix_append_right_inj _ |>.2 ?_
  cases pending with
  | nil => exact List.nil_prefix
  | cons t rest =>
    have hshown := calls_prefix (hcalls t (List.mem_append_right _ List.mem_cons_self))
    exact hshown.trans (List.prefix_append [t.state] _)

/-- Once every task has ended, it is all of them. -/
theorem InTurn.observedBy_eq (h : InTurn n done pending) (hsub : Subscribed n subscriber)
    (hall : n.Quiescent) : n.observedBy subscriber = n.tasks.map NotificationTask.state := by
  rw [Notifier.observedBy, h.observed]
  exact calls_done hall hsub.calls

/-! ## The end of the tasks -/

/-- An event that only lets the tasks go on. -/
def NotifierEvent.Serves : NotifierEvent → Prop
  | .schedule _ => False
  | .subscribe _ => False
  | _ => True

theorem scheduled_of_serves {events : List NotifierEvent} (h : ∀ ev ∈ events, ev.Serves) :
    scheduled events = [] := by
  induction events with
  | nil => rfl
  | cons ev events ih =>
    have hev := h ev List.mem_cons_self
    have hevents := ih fun ev' hev' => h ev' (List.mem_cons_of_mem _ hev')
    cases ev with
    | schedule st => exact hev.elim
    | subscribe subscribers => exact hev.elim
    | _ => exact hevents

theorem Notifier.run_append (events more : List NotifierEvent) :
    n.run (events ++ more) = (n.run events).run more := List.foldl_append

/-- A task that calls comes to its end. -/
theorem InTurn.end_calling {st : ConnectionState} {called rest' : List ℕ}
    {rest : List NotificationTask} (h : InTurn n done (⟨st, .calling called rest'⟩ :: rest)) :
    ∃ more, (∀ ev ∈ more, ev.Serves) ∧ ∃ done', InTurn (n.run more) done' rest := by
  induction rest' generalizing n called with
  | nil =>
    have hk := h.getElem?_head
    refine ⟨[.finish done.length], fun ev hev => ?_, done ++ [⟨st, .completed called⟩], ?_⟩
    · rw [List.mem_singleton.1 hev]
      trivial
    · show InTurn (n.step (.finish done.length)) _ _
      simp only [Notifier.step, hk]
      exact h.complete rfl rfl
  | cons subscriber' rest' ih =>
    have hk := h.getElem?_head
    -- a subscriber that throws does not keep the next from being called
    have hstep : InTurn (n.step (.call done.length true)) done
        (⟨st, .calling (called ++ [subscriber']) rest'⟩ :: rest) := by
      simp only [Notifier.step, hk]
      exact h.call
    obtain ⟨more, hserves, done', hend⟩ := ih hstep
    refine ⟨.call done.length true :: more, fun ev hev => ?_, done', hend⟩
    rcases List.mem_cons.1 hev with rfl | hev
    · trivial
    · exact hserves ev hev

/-- The first task that has not completed comes to its end. -/
theorem InTurn.end_head {t : NotificationTask} {rest : List NotificationTask}
    (h : InTurn n done (t :: rest)) :
    ∃ more, (∀ ev ∈ more, ev.Serves) ∧ ∃ done', InTurn (n.run more) done' rest := by
  obtain ⟨st, dispatch⟩ := t
  cases dispatch with
  | completed called => cases h.running _ List.mem_cons_self
  | calling called rest' => exact h.end_calling
  | waiting =>
    have hk := h.getElem?_head
    -- the first task that has not completed has no predecessor, or one that has
    have hpred : n.predecessorCompleted done.length = true := by
      rw [Notifier.predecessorCompleted, h.tasks_eq]
      rcases List.eq_nil_or_concat done with rfl | ⟨before, t, rfl⟩
      · rfl
      · have hlast : ((before.concat t ++ ⟨st, .waiting⟩ :: rest)[(before.concat t).length - 1]?) =
            some t := by
          rw [List.concat_eq_append, List.length_append, List.length_singleton, Nat.add_sub_cancel,
            List.append_assoc, List.getElem?_append_right (Nat.le_refl _), Nat.sub_self]
          rfl
        rw [hlast]
        have hcompleted := h.completed t (by rw [List.concat_eq_append]; simp)
        exact Bool.or_eq_true_iff.2 (Or.inr hcompleted)
    have hstep : n.step (.resume done.length) =
        { n with tasks := n.tasks.set done.length ⟨st, .calling [] n.subscribers⟩ } := by
      simp only [Notifier.step, hk, hpred, if_true]
    obtain ⟨more, hserves, done', hend⟩ := h.start.end_calling
    refine ⟨.resume done.length :: more, fun ev hev => ?_, done', ?_⟩
    · rcases List.mem_cons.1 hev with rfl | hev
      · trivial
      · exact hserves ev hev
    · rw [Notifier.run, List.foldl_cons, hstep]
      exact hend

/-- **All the tasks can come to their end**, whatever the subscribers throw: no
task waits for one that comes after it. -/
theorem InTurn.end_all (h : InTurn n done pending) :
    ∃ more, (∀ ev ∈ more, ev.Serves) ∧ (n.run more).Quiescent := by
  induction pending generalizing n done with
  | nil =>
    refine ⟨[], List.forall_mem_nil _, fun t ht => h.completed t ?_⟩
    have hmem : t ∈ n.tasks := ht
    rw [h.tasks_eq, List.append_nil] at hmem
    exact hmem
  | cons t rest ih =>
    obtain ⟨more, hserves, done', h'⟩ := h.end_head
    obtain ⟨more', hserves', hend⟩ := ih h'
    refine ⟨more ++ more', fun ev hev => ?_, ?_⟩
    · rcases List.mem_append.1 hev with hev | hev
      · exact hserves ev hev
      · exact hserves' ev hev
    · rw [Notifier.run_append]
      exact hend

/-! ## Runs -/

/-- A notifier on which nothing was scheduled. -/
theorem inTurn_idle (subscribers : List ℕ) :
    InTurn { subscribers := subscribers } [] [] := ⟨rfl, nofun, nofun, nofun, rfl⟩

/-- **Subscribers are told the changes of state, in order**: so far as the
tasks have come, and all of them once the tasks have ended, as they can. -/
theorem told (subscribers : List ℕ) (events : List NotifierEvent)
    (hlisted : subscribers.count subscriber = 1)
    (hev : ∀ subscribers, .subscribe subscribers ∈ events → subscribers.count subscriber = 1) :
    (Notifier.run { subscribers := subscribers } events).observedBy subscriber <+:
        scheduled events ∧
      ((Notifier.run { subscribers := subscribers } events).Quiescent →
        (Notifier.run { subscribers := subscribers } events).observedBy subscriber =
          scheduled events) ∧
      ∃ more, (∀ ev ∈ more, ev.Serves) ∧
        (Notifier.run { subscribers := subscribers } (events ++ more)).observedBy subscriber =
          scheduled events := by
  obtain ⟨done, pending, h⟩ := (inTurn_idle subscribers).run events
  have hsub : Subscribed { subscribers := subscribers } subscriber := ⟨hlisted, nofun⟩
  have hrun := hsub.run events hev
  have hstates := states_run (n := { subscribers := subscribers }) events
  refine ⟨?_, fun hall => ?_, ?_⟩
  · rw [← List.nil_append (scheduled events)]
    exact hstates ▸ h.observedBy_prefix hrun
  · exact (h.observedBy_eq hrun hall).trans hstates
  · obtain ⟨more, hserves, hend⟩ := h.end_all
    -- nothing is scheduled on the way to the end
    obtain ⟨done', pending', h'⟩ := h.run more
    have hmore := hrun.run more fun subscribers hmem => (hserves _ hmem).elim
    refine ⟨more, hserves, ?_⟩
    rw [Notifier.run_append, h'.observedBy_eq hmore hend, states_run, hstates, scheduled_of_serves hserves,
      List.append_nil]
    rfl

end Host

end DeusOs
