import DeusOs.App.Model.Runtime
import Mathlib.Data.List.Pairwise
import Mathlib.Tactic.Common

/-!
# Ownership of the application runtime

At most one application runs, the active one, whatever the callbacks answer.
An application whose callback failed is failed for good; where it is the
owner's stop that failed, the runtime stays with the owner and starts nothing
any more. The view on display is one that the active application rendered.
-/

namespace DeusOs

namespace App

/-! ## The record of calls -/

/-- The call is one that fails its application. -/
def Call.Fails (c : Call) (i : Index) : Prop :=
  c = .init i false ∨ c = .start i false ∨ c = .stop i false

/-- The call starts the application. -/
def Call.Starts (c : Call) (i : Index) : Prop := ∃ ok, c = .start i ok

/-- Behind a failed call an application is not started; behind a failed stop
none is. -/
def Call.Before (c c' : Call) : Prop :=
  (∀ i, c.Fails i → ¬ c'.Starts i) ∧ ∀ i, c = .stop i false → ∀ j, ¬ c'.Starts j

variable {ω : Type} {app : Index → Callbacks ω} {m m' : Machine ω} {i : Index} {c : Call}
  {calls : List Call} {services : ServiceSnapshot}

theorem pairwise_append_other (h : calls.Pairwise Call.Before) (hc : ∀ i, ¬ c.Starts i) :
    (calls ++ [c]).Pairwise Call.Before := by
  refine List.pairwise_append.2 ⟨h, List.pairwise_singleton _ _, fun d _ e he => ?_⟩
  rw [List.mem_singleton] at he
  subst he
  exact ⟨fun i _ => hc i, fun _ _ j => hc j⟩

theorem pairwise_append_start (h : calls.Pairwise Call.Before) {ok : Bool}
    (hf : ∀ d ∈ calls, ¬ d.Fails i) (hs : ∀ j, Call.stop j false ∉ calls) :
    (calls ++ [Call.start i ok]).Pairwise Call.Before := by
  refine List.pairwise_append.2 ⟨h, List.pairwise_singleton _ _, fun d hd e he => ?_⟩
  rw [List.mem_singleton] at he
  subst he
  constructor
  · rintro j hj ⟨ok', hstart⟩
    cases hstart
    exact hf d hd hj
  · rintro j rfl
    exact absurd hd (hs j)

/-! ## The registry -/

theorem registryId_ne_zero (i : Index) : registryId i ≠ 0 := by
  rw [registryId]
  split <;> decide

/-- An application is found by its id. -/
theorem indexFromId_registryId (i : Index) : indexFromId (registryId i) = some i :=
  (Fin.forall_fin_two (p := fun i => indexFromId (registryId i) = some i)).2 ⟨rfl, rfl⟩ i

theorem registryId_of_indexFromId {id : UInt16} (h : indexFromId id = some i) :
    registryId i = id := by
  rw [indexFromId] at h
  split at h
  · cases h
  split at h
  · cases h
    assumption
  split at h
  · cases h
    assumption
  · cases h

/-- None is found by the id 0. -/
theorem indexFromId_zero : indexFromId 0 = none := rfl

theorem registryId_inj {j : Index} (h : registryId i = registryId j) : i = j := by
  have hi := indexFromId_registryId i
  rw [h, indexFromId_registryId] at hi
  exact (Option.some.inj hi).symm

/-! ## The invariant -/

/-- What holds of the states, the owner and the record between any two calls
of callbacks. -/
structure Owned (m : Machine ω) : Prop where
  failed_iff : ∀ i, m.runtime.states i = .failed ↔ ∃ c ∈ m.calls, c.Fails i
  running : ∀ i, m.runtime.states i = .running → registryId i = m.runtime.activeId
  active : m.runtime.activeId = 0 ∨ ∃ i, registryId i = m.runtime.activeId ∧
    (m.runtime.states i = .running ∨
      m.runtime.states i = .failed ∧ Call.stop i false ∈ m.calls)
  /-- The owner whose stop failed stays the owner. -/
  stopFailed : ∀ i, Call.stop i false ∈ m.calls → registryId i = m.runtime.activeId
  settled : ∀ i, m.runtime.states i ≠ .starting ∧ m.runtime.states i ≠ .stopping
  ordered : m.calls.Pairwise Call.Before

/-- The same, with nobody the owner. -/
structure Vacant (m : Machine ω) : Prop extends Owned m where
  vacant : m.runtime.activeId = 0

/-- With nobody the owner no stop has failed. -/
theorem Vacant.no_stop (h : Vacant m) (i : Index) : Call.stop i false ∉ m.calls := fun hmem =>
  registryId_ne_zero i ((h.stopFailed i hmem).trans h.vacant)

theorem Vacant.not_running (h : Vacant m) (i : Index) : m.runtime.states i ≠ .running := fun hrun =>
  registryId_ne_zero i ((h.running i hrun).trans h.vacant)

/-- An application that has not failed has no failed call. -/
theorem Owned.not_fails (h : Owned m) (hi : m.runtime.states i ≠ .failed) :
    ∀ c ∈ m.calls, ¬ c.Fails i := fun c hc hfails => hi ((h.failed_iff i).2 ⟨c, hc, hfails⟩)

/-- The states of all but one application, and one call more. -/
theorem failed_iff_append (h : Owned m) {st : LifecycleState} {c : Call}
    (hi : c.Fails i ↔ st = .failed) (hne : m.runtime.states i ≠ .failed)
    (hother : ∀ j, c.Fails j → j = i) (j : Index) :
    Function.update m.runtime.states i st j = .failed ↔ ∃ d ∈ m.calls ++ [c], d.Fails j := by
  have hsplit : (∃ d ∈ m.calls ++ [c], d.Fails j) ↔ (∃ d ∈ m.calls, d.Fails j) ∨ c.Fails j := by
    simp only [List.mem_append, List.mem_singleton, or_and_right, exists_or, exists_eq_left]
  rw [hsplit]
  by_cases hji : j = i
  · subst hji
    rw [Function.update_self, ← hi]
    refine ⟨Or.inr, ?_⟩
    rintro (⟨d, hd, hf⟩ | hf)
    · exact absurd hf (h.not_fails hne d hd)
    · exact hf
  · rw [Function.update_of_ne hji, h.failed_iff j]
    refine ⟨Or.inl, ?_⟩
    rintro (hold | hf)
    · exact hold
    · exact absurd (hother j hf) hji

/-! ## Rendering -/

/-- What rendering leaves: nothing was rendered, the same view or none was,
or a new one is on display. -/
inductive Rendered (m m' : Machine ω) : Prop
  | skipped (eq : m' = m)
  | rendered (i : Index) (ok : Bool) (candidate : View)
      (active : registryId i = m.runtime.activeId) (running : m.runtime.states i = .running)
      (calls : m'.calls = m.calls ++ [.render i ok candidate])
      (states : m'.runtime.states = m.runtime.states)
      (activeId : m'.runtime.activeId = m.runtime.activeId)
      (initialized : m'.runtime.initialized = m.runtime.initialized)
      (shown : m'.runtime.view = m.runtime.view ∧ m'.runtime.viewRevision = m.runtime.viewRevision ∨
        ok = true ∧ m'.runtime.view = candidate ∧ candidate ≠ m.runtime.view ∧
          m'.runtime.viewRevision = counterIncrement m.runtime.viewRevision)

theorem renderActive_spec (m : Machine ω) (services : ServiceSnapshot) :
    Rendered m (renderActive app m services).1 := by
  cases hidx : indexFromId m.runtime.activeId with
  | none =>
    have hskip : renderActive app m services = (m, false) := by simp only [renderActive, hidx]
    exact .skipped (congrArg Prod.fst hskip)
  | some i =>
    have hactive := registryId_of_indexFromId hidx
    by_cases hrun : m.runtime.states i = .running
    · obtain ⟨ok, candidate, world, hans⟩ : ∃ ok candidate world,
          (app i).render .clear services m.world = (ok, candidate, world) := ⟨_, _, _, rfl⟩
      simp only [renderActive, hidx, if_neg (not_not.2 hrun), hans]
      cases ok with
      | false =>
        simp only [if_true]
        refine .rendered i false candidate hactive hrun rfl ?_ ?_ ?_ (Or.inl ⟨?_, ?_⟩) <;>
          split <;> rfl
      | true =>
        simp only [Bool.true_eq_false, if_false]
        by_cases hsame : m.runtime.view = candidate
        · simp only [if_pos hsame]
          exact .rendered i true candidate hactive hrun rfl rfl rfl rfl (Or.inl ⟨rfl, rfl⟩)
        · simp only [if_neg hsame]
          exact .rendered i true candidate hactive hrun rfl rfl rfl rfl
            (Or.inr ⟨rfl, rfl, Ne.symm hsame, rfl⟩)
    · have hskip : renderActive app m services = (m, false) := by
        simp only [renderActive, hidx, if_pos hrun]
      exact .skipped (congrArg Prod.fst hskip)

/-- A call that fails and starts nothing leaves the invariant, where the
states and the owner stay. -/
theorem Owned.append (h : Owned m) (hstates : m'.runtime.states = m.runtime.states)
    (hactive : m'.runtime.activeId = m.runtime.activeId) (hcalls : m'.calls = m.calls ++ [c])
    (hfails : ∀ i, ¬ c.Fails i) (hstarts : ∀ i, ¬ c.Starts i) : Owned m' := by
  have hmem : ∀ i, Call.stop i false ∈ m'.calls ↔ Call.stop i false ∈ m.calls := by
    intro i
    rw [hcalls, List.mem_append, List.mem_singleton, or_iff_left]
    rintro rfl
    exact hfails i (Or.inr (Or.inr rfl))
  refine ⟨fun i => ?_, ?_, ?_, fun i hi => ?_, ?_, ?_⟩
  · rw [hstates, hcalls, h.failed_iff i]
    simp only [List.mem_append, List.mem_singleton, or_and_right, exists_or, exists_eq_left,
      hfails i, or_false]
  · rw [hstates, hactive]
    exact h.running
  · rw [hstates, hactive]
    simp only [hmem]
    exact h.active
  · rw [hactive]
    exact h.stopFailed i ((hmem i).1 hi)
  · rw [hstates]
    exact h.settled
  · rw [hcalls]
    exact pairwise_append_other h.ordered hstarts

/-- Rendering leaves the owner the owner. -/
theorem Owned.renderActive (h : Owned m) (services : ServiceSnapshot) :
    Owned (renderActive app m services).1 := by
  cases renderActive_spec m services with
  | skipped eq => rw [eq]; exact h
  | rendered i ok candidate active running calls states activeId initialized shown =>
    refine h.append states activeId calls (fun i hf => ?_) fun i hs => ?_
    · rcases hf with hf | hf | hf <;> cases hf
    · obtain ⟨_, hs⟩ := hs
      cases hs

/-! ## Starting and stopping -/

theorem settled_update {states : Index → LifecycleState} {st : LifecycleState}
    (h : ∀ j, states j ≠ .starting ∧ states j ≠ .stopping) (hst : st ≠ .starting ∧ st ≠ .stopping)
    (j : Index) : Function.update states i st j ≠ .starting ∧
      Function.update states i st j ≠ .stopping := by
  by_cases hji : j = i
  · rw [hji, Function.update_self]
    exact hst
  · rw [Function.update_of_ne hji]
    exact h j

/-- One application stops or fails, and nobody is the owner. -/
theorem Owned.vacate (h : Owned m) {st : LifecycleState} (hst : st = .stopped ∨ st = .failed)
    (hne : m.runtime.states i ≠ .failed) (hothers : ∀ j, j ≠ i → m.runtime.states j ≠ .running)
    (hstops : ∀ j, Call.stop j false ∉ m.calls) (hcstop : ∀ j, c ≠ .stop j false)
    (hc : c.Fails i ↔ st = .failed) (hother : ∀ j, c.Fails j → j = i)
    (hord : (m.calls ++ [c]).Pairwise Call.Before)
    (hstates : m'.runtime.states = Function.update m.runtime.states i st)
    (hactive : m'.runtime.activeId = 0) (hcalls : m'.calls = m.calls ++ [c]) : Vacant m' := by
  have hstops' : ∀ j, Call.stop j false ∉ m'.calls := by
    intro j hj
    rw [hcalls, List.mem_append, List.mem_singleton] at hj
    rcases hj with hj | hj
    · exact hstops j hj
    · exact hcstop j hj.symm
  refine ⟨⟨fun j => ?_, fun j hj => ?_, Or.inl hactive, fun j hj => absurd hj (hstops' j), ?_, ?_⟩,
    hactive⟩
  · rw [hstates, hcalls]
    exact failed_iff_append h hc hne hother j
  · rw [hstates] at hj
    by_cases hji : j = i
    · rw [hji, Function.update_self] at hj
      rcases hst with hst | hst <;> rw [hst] at hj <;> cases hj
    · rw [Function.update_of_ne hji] at hj
      exact absurd hj (hothers j hji)
  · rw [hstates]
    refine settled_update h.settled ?_
    rcases hst with hst | hst <;> rw [hst] <;> exact ⟨nofun, nofun⟩
  · rw [hcalls]
    exact hord

/-- One application runs, and is the owner. -/
theorem Vacant.occupy (h : Vacant m) (hne : m.runtime.states i ≠ .failed)
    (hstates : m'.runtime.states = Function.update m.runtime.states i .running)
    (hactive : m'.runtime.activeId = registryId i)
    (hcalls : m'.calls = m.calls ++ [.start i true]) : Owned m' := by
  have hnofail : ∀ k, ¬ Call.Fails (.start i true) k := by
    rintro k (hf | hf | hf) <;> cases hf
  have hiff : Call.Fails (.start i true) i ↔ LifecycleState.running = .failed :=
    iff_of_false (hnofail i) nofun
  refine ⟨fun j => ?_, fun j hj => ?_, Or.inr ⟨i, hactive.symm, Or.inl ?_⟩, fun j hj => ?_, ?_, ?_⟩
  · rw [hstates, hcalls]
    exact failed_iff_append h.toOwned hiff hne (fun j hf => absurd hf (hnofail j)) j
  · rw [hstates] at hj
    by_cases hji : j = i
    · rw [hji, hactive]
    · rw [Function.update_of_ne hji] at hj
      exact absurd hj (h.not_running j)
  · rw [hstates, Function.update_self]
  · rw [hcalls, List.mem_append, List.mem_singleton] at hj
    rcases hj with hj | hj
    · exact absurd hj (h.no_stop j)
    · cases hj
  · rw [hstates]
    exact settled_update h.settled ⟨nofun, nofun⟩
  · rw [hcalls]
    exact pairwise_append_start h.ordered (h.not_fails hne) h.no_stop

/-- The application did not come up, and nobody is the owner. -/
theorem Vacant.start_failed (h : Vacant m) (hne : m.runtime.states i ≠ .failed)
    (hstates : m'.runtime.states = Function.update m.runtime.states i .failed)
    (hactive : m'.runtime.activeId = 0) (hcalls : m'.calls = m.calls ++ [.start i false]) :
    Vacant m' := by
  have hnostop : ∀ j, Call.start i false ≠ .stop j false := by
    intro j hj
    cases hj
  have hother : ∀ j, Call.Fails (.start i false) j → j = i := by
    rintro j (hf | hf | hf) <;> cases hf
    rfl
  exact h.vacate (Or.inr rfl) hne (fun j _ => h.not_running j) h.no_stop hnostop
    (iff_of_true (Or.inr (Or.inl rfl)) rfl) hother
    (pairwise_append_start h.ordered (h.not_fails hne) h.no_stop) hstates hactive hcalls

/-- The view is left, and the runtime is initialized as it was. -/
structure SameView (m m' : Machine ω) : Prop where
  view : m'.runtime.view = m.runtime.view
  viewRevision : m'.runtime.viewRevision = m.runtime.viewRevision
  initialized : m'.runtime.initialized = m.runtime.initialized

/-- What a call may leave of the view, and where it ends behind a start that
failed. -/
structure Stepped (m m' : Machine ω) : Prop where
  record : ∃ new, m'.calls = m.calls ++ new ∧
    (m'.runtime.view ≠ m.runtime.view → ∃ i, registryId i = m'.runtime.activeId ∧
      m'.runtime.states i = .running ∧ Call.render i true m'.runtime.view ∈ new) ∧
    (∀ i, i ≠ homeIndex → Call.start i false ∈ new →
      m'.runtime.states homeIndex = .running ∧ m'.runtime.activeId = idSystemHome ∨
        m'.runtime.activeId = 0)
  revision : m'.runtime.viewRevision =
    if m'.runtime.view = m.runtime.view then m.runtime.viewRevision
    else counterIncrement m.runtime.viewRevision
  initialized : m.runtime.initialized = true → m'.runtime.initialized = true

theorem Stepped.refl (m : Machine ω) : Stepped m m :=
  ⟨⟨[], (List.append_nil _).symm, fun h => absurd rfl h, fun _ _ h => (List.not_mem_nil h).elim⟩,
    (if_pos rfl).symm, id⟩

/-- The same after calls that leave the view. -/
theorem Stepped.after {t : Machine ω} (h : Stepped t m') {new : List Call}
    (hcalls : t.calls = m.calls ++ new) (hsame : SameView m t)
    (hnew : ∀ i, i ≠ homeIndex → Call.start i false ∈ new →
      m'.runtime.states homeIndex = .running ∧ m'.runtime.activeId = idSystemHome ∨
        m'.runtime.activeId = 0) : Stepped m m' := by
  obtain ⟨⟨rest, hrest, hshown, hback⟩, hrev, hkept⟩ := h
  rw [hsame.initialized] at hkept
  rw [hsame.view] at hshown hrev
  rw [hsame.viewRevision] at hrev
  refine ⟨⟨new ++ rest, by rw [hrest, hcalls, List.append_assoc], fun hne => ?_, fun i hi hmem => ?_⟩,
    hrev, hkept⟩
  · obtain ⟨i, hid, hrun, hmem⟩ := hshown hne
    exact ⟨i, hid, hrun, List.mem_append_right _ hmem⟩
  · rcases List.mem_append.1 hmem with hmem | hmem
    · exact hnew i hi hmem
    · exact hback i hi hmem

/-- A render of the active application is a step. -/
theorem Stepped.render (m : Machine ω) (services : ServiceSnapshot) :
    Stepped m (renderActive app m services).1 := by
  cases renderActive_spec m services with
  | skipped eq => rw [eq]; exact .refl m
  | rendered i ok candidate active running calls states activeId initialized shown =>
    have hnostart : ∀ j, j ≠ homeIndex → Call.start j false ∈ [Call.render i ok candidate] → False := by
      intro j _ hmem
      rw [List.mem_singleton] at hmem
      cases hmem
    rcases shown with ⟨hview, hrev⟩ | ⟨hok, hview, hne, hrev⟩
    · exact ⟨⟨_, calls, fun hno => absurd hview hno, fun j hj hmem => (hnostart j hj hmem).elim⟩,
        by rw [hrev, if_pos hview], initialized.trans⟩
    · refine ⟨⟨_, calls, fun _ => ⟨i, active.trans activeId.symm, ?_, ?_⟩,
        fun j hj hmem => (hnostart j hj hmem).elim⟩, ?_, initialized.trans⟩
      · rw [states]
        exact running
      · rw [hview, hok]
        exact List.mem_singleton_self _
      · rw [hrev, if_neg (by rw [hview]; exact hne)]

/-- The states and the owner stay where the active application renders. -/
theorem renderActive_states (m : Machine ω) (services : ServiceSnapshot) :
    (renderActive app m services).1.runtime.states = m.runtime.states ∧
      (renderActive app m services).1.runtime.activeId = m.runtime.activeId ∧
      (renderActive app m services).1.runtime.initialized = m.runtime.initialized := by
  cases renderActive_spec m services with
  | skipped eq => rw [eq]; exact ⟨rfl, rfl, rfl⟩
  | rendered _ _ _ _ _ _ states activeId initialized _ => exact ⟨states, activeId, initialized⟩

/-- Home runs and is active, or nobody is. -/
def Fallback (m : Machine ω) : Prop :=
  m.runtime.states homeIndex = .running ∧ m.runtime.activeId = idSystemHome ∨
    m.runtime.activeId = 0

/-- **Home is started where it has not failed.** Nobody may own the runtime
before: where home has failed, nobody does afterwards. -/
theorem startHomeFallback_spec (h : Vacant m) (services : ServiceSnapshot) :
    Owned (startHomeFallback app m services).1 ∧ Stepped m (startHomeFallback app m services).1 ∧
      Fallback (startHomeFallback app m services).1 := by
  by_cases hfailed : m.runtime.states homeIndex = .failed
  · have hrun : startHomeFallback app m services = (m, false) := by
      have hsame : { m with runtime := { m.runtime with activeId := 0 } } = m := by
        rw [← h.vacant]
      rw [startHomeFallback, if_pos hfailed, hsame]
    rw [hrun]
    exact ⟨h.toOwned, .refl m, Or.inr h.vacant⟩
  obtain ⟨ok, world, hans⟩ : ∃ ok world, (app homeIndex).start services m.world = (ok, world) :=
    ⟨_, _, rfl⟩
  simp only [startHomeFallback, if_neg hfailed, hans]
  cases ok with
  | false =>
    simp only [if_true]
    obtain ⟨t, ht⟩ : ∃ t : Machine ω, t =
        { runtime :=
            { (((m.runtime.setState homeIndex .starting).setState homeIndex .failed).fault) with
                activeId := 0 }
          world := world
          calls := m.calls ++ [.start homeIndex false] } := ⟨_, rfl⟩
    have hend : Vacant t := by
      refine h.start_failed (i := homeIndex) hfailed ?_ ?_ ?_
      · rw [ht]
        exact Function.update_idem _ _ _
      · rw [ht]
      · rw [ht]
    rw [ht] at hend
    exact ⟨hend.toOwned, (Stepped.refl _).after rfl ⟨rfl, rfl, rfl⟩ (fun _ _ _ => Or.inr rfl), Or.inr rfl⟩
  | true =>
    simp only [Bool.true_eq_false, if_false]
    obtain ⟨t, ht⟩ : ∃ t : Machine ω, t =
        { runtime :=
            { (m.runtime.setState homeIndex .starting).setState homeIndex .running with
                activeId := idSystemHome }
          world := world
          calls := m.calls ++ [.start homeIndex true] } := ⟨_, rfl⟩
    have hstates : t.runtime.states = Function.update m.runtime.states homeIndex .running := by
      rw [ht]
      exact Function.update_idem _ _ _
    have hcalls : t.calls = m.calls ++ [.start homeIndex true] := by rw [ht]
    have hactive : t.runtime.activeId = registryId homeIndex := by rw [ht]; rfl
    have hsame : SameView m t := by
      rw [ht]
      exact ⟨rfl, rfl, rfl⟩
    rw [← ht]
    obtain ⟨hst, hact, -⟩ := renderActive_states t services
    have hback : Fallback (renderActive app t services).1 := by
      refine Or.inl ⟨?_, hact.trans hactive⟩
      rw [hst, hstates, Function.update_self]
    exact ⟨(h.occupy hfailed hstates hactive hcalls).renderActive services,
      (Stepped.render t services).after hcalls hsame (fun _ _ _ => hback), hback⟩

/-- **The target runs, or has failed and home is fallen back to.** Either way
there is one owner at most. -/
theorem startTarget_spec (h : Vacant m) (hne : m.runtime.states i ≠ .failed)
    (services : ServiceSnapshot) :
    Owned (startTarget app m (registryId i) i services).1 ∧
      Stepped m (startTarget app m (registryId i) i services).1 := by
  obtain ⟨ok, world, hans⟩ : ∃ ok world, (app i).start services m.world = (ok, world) := ⟨_, _, rfl⟩
  simp only [startTarget, hans]
  cases ok with
  | false =>
    simp only [if_true]
    obtain ⟨t, ht⟩ : ∃ t : Machine ω, t =
        { runtime := ((m.runtime.setState i .starting).setState i .failed).fault
          world := world
          calls := m.calls ++ [.start i false] } := ⟨_, rfl⟩
    have hcalls : t.calls = m.calls ++ [.start i false] := by rw [ht]
    have hactive : t.runtime.activeId = 0 := by rw [ht]; exact h.vacant
    have hsame : SameView m t := by
      rw [ht]
      exact ⟨rfl, rfl, rfl⟩
    have hend : Vacant t :=
      h.start_failed hne (by rw [ht]; exact Function.update_idem _ _ _) hactive hcalls
    rw [← ht]
    by_cases hhome : registryId i ≠ idSystemHome
    · rw [if_pos hhome]
      obtain ⟨howned, hstep, hback⟩ := startHomeFallback_spec hend services
      exact ⟨howned, hstep.after hcalls hsame (fun _ _ _ => hback)⟩
    · rw [if_neg hhome]
      exact ⟨hend.toOwned, (Stepped.refl t).after hcalls hsame fun _ _ _ => Or.inr hactive⟩
  | true =>
    simp only [Bool.true_eq_false, if_false]
    obtain ⟨t, ht⟩ : ∃ t : Machine ω, t =
        { runtime :=
            { (m.runtime.setState i .starting).setState i .running with activeId := registryId i }
          world := world
          calls := m.calls ++ [.start i true] } := ⟨_, rfl⟩
    have hcalls : t.calls = m.calls ++ [.start i true] := by rw [ht]
    have hsame : SameView m t := by
      rw [ht]
      exact ⟨rfl, rfl, rfl⟩
    have howned : Owned t :=
      h.occupy hne (by rw [ht]; exact Function.update_idem _ _ _) (by rw [ht]) hcalls
    rw [← ht]
    refine ⟨howned.renderActive services,
      (Stepped.render t services).after hcalls hsame fun j _ hmem => ?_⟩
    rw [List.mem_singleton] at hmem
    cases hmem

/-- **The owner's stop leaves nobody the owner, or the owner failed.** No other
application is touched, and nothing is put on display. -/
theorem stopOwner_spec (h : Owned m) (hid : registryId i = m.runtime.activeId)
    (hne : m.runtime.states i ≠ .failed) (services : ServiceSnapshot) :
    (∃ ok, (stopOwner app m i services).1.calls = m.calls ++ [.stop i ok]) ∧
      SameView m (stopOwner app m i services).1 ∧
      ((stopOwner app m i services).2 = false ∧ Owned (stopOwner app m i services).1 ∨
        (stopOwner app m i services).2 = true ∧ Vacant (stopOwner app m i services).1 ∧
          ∀ j, m.runtime.states j ≠ .failed →
            (stopOwner app m i services).1.runtime.states j ≠ .failed) := by
  obtain ⟨ok, world, hans⟩ : ∃ ok world, (app i).stop services m.world = (ok, world) := ⟨_, _, rfl⟩
  -- the others do not run, and no stop has failed yet
  have hothers : ∀ j, j ≠ i → m.runtime.states j ≠ .running := fun j hji hrun =>
    hji (registryId_inj ((h.running j hrun).trans hid.symm))
  have hstops : ∀ j, Call.stop j false ∉ m.calls := by
    intro j hj
    have hji : j = i := registryId_inj ((h.stopFailed j hj).trans hid.symm)
    subst hji
    exact h.not_fails hne _ hj (Or.inr (Or.inr rfl))
  have hnostart : ∀ ok j, ¬ Call.Starts (.stop i ok) j := by
    rintro ok j ⟨ok', hs⟩
    cases hs
  cases ok with
  | false =>
    obtain ⟨t, ht⟩ : ∃ t : Machine ω, t =
        { runtime := ((m.runtime.setState i .stopping).setState i .failed).fault
          world := world
          calls := m.calls ++ [.stop i false] } := ⟨_, rfl⟩
    have hcalls : t.calls = m.calls ++ [.stop i false] := by rw [ht]
    have hactive : t.runtime.activeId = m.runtime.activeId := by rw [ht]; rfl
    have hstates : t.runtime.states = Function.update m.runtime.states i .failed := by
      rw [ht]
      exact Function.update_idem _ _ _
    have hsame : SameView m t := by
      rw [ht]
      exact ⟨rfl, rfl, rfl⟩
    have hfails : Call.Fails (.stop i false) i := Or.inr (Or.inr rfl)
    have hother : ∀ j, Call.Fails (.stop i false) j → j = i := by
      rintro j (hf | hf | hf) <;> cases hf
      rfl
    have hrun : stopOwner app m i services = (t, false) := by
      simp only [stopOwner, hans, if_true, ht]
    rw [hrun]
    refine ⟨⟨false, hcalls⟩, hsame, Or.inl ⟨rfl, fun j => ?_, fun j hj => ?_,
      Or.inr ⟨i, hid.trans hactive.symm, Or.inr ⟨?_, ?_⟩⟩, fun j hj => ?_, ?_, ?_⟩⟩
    · rw [hstates, hcalls]
      exact failed_iff_append h (iff_of_true hfails rfl) hne hother j
    · rw [hstates] at hj
      by_cases hji : j = i
      · rw [hji, Function.update_self] at hj
        cases hj
      · rw [Function.update_of_ne hji] at hj
        exact absurd hj (hothers j hji)
    · rw [hstates, Function.update_self]
    · rw [hcalls]
      exact List.mem_append_right _ (List.mem_singleton_self _)
    -- a failed stop is the owner's, and it stays the owner
    · rw [hcalls, List.mem_append, List.mem_singleton] at hj
      rcases hj with hj | hj
      · exact absurd hj (hstops j)
      · cases hj
        exact hid.trans hactive.symm
    · rw [hstates]
      exact settled_update h.settled ⟨nofun, nofun⟩
    · rw [hcalls]
      exact pairwise_append_other h.ordered (hnostart false)
  | true =>
    obtain ⟨t, ht⟩ : ∃ t : Machine ω, t =
        { runtime := { (m.runtime.setState i .stopping).setState i .stopped with activeId := 0 }
          world := world
          calls := m.calls ++ [.stop i true] } := ⟨_, rfl⟩
    have hcalls : t.calls = m.calls ++ [.stop i true] := by rw [ht]
    have hactive : t.runtime.activeId = 0 := by rw [ht]
    have hstates : t.runtime.states = Function.update m.runtime.states i .stopped := by
      rw [ht]
      exact Function.update_idem _ _ _
    have hsame : SameView m t := by
      rw [ht]
      exact ⟨rfl, rfl, rfl⟩
    have hnofail : ∀ j, ¬ Call.Fails (.stop i true) j := by
      rintro j (hf | hf | hf) <;> cases hf
    have hnostop : ∀ j, Call.stop i true ≠ .stop j false := by
      intro j hj
      cases hj
    have hrun : stopOwner app m i services = (t, true) := by
      simp only [stopOwner, hans, Bool.true_eq_false, if_false, ht]
    rw [hrun]
    -- nobody is the owner, and no failure was added
    refine ⟨⟨true, hcalls⟩, hsame, Or.inr ⟨rfl, ?_, fun j hj => ?_⟩⟩
    · exact h.vacate (Or.inl rfl) hne hothers hstops hnostop (iff_of_false (hnofail i) nofun)
        (fun j hf => absurd hf (hnofail j)) (pairwise_append_other h.ordered (hnostart true))
        hstates hactive hcalls
    · rw [hstates]
      by_cases hji : j = i
      · rw [hji, Function.update_self]
        nofun
      · rw [Function.update_of_ne hji]
        exact hj

/-! ## Calls -/

/-- **Starting an application**, whoever is the owner: the owner is stopped
first, and where that fails it stays the owner and nothing is started. -/
theorem runtimeStart_spec (h : Owned m) (id : UInt16) (services : Option ServiceSnapshot) :
    Owned (runtimeStart app m id services).1 ∧ Stepped m (runtimeStart app m id services).1 := by
  have hrefl : Owned m ∧ Stepped m m := ⟨h, .refl m⟩
  cases services with
  | none => exact hrefl
  | some services =>
    cases hidx : indexFromId id with
    | none =>
      simp only [runtimeStart, hidx]
      exact hrefl
    | some i =>
      obtain rfl := registryId_of_indexFromId hidx
      simp only [runtimeStart, hidx]
      split
      · exact hrefl
      split
      · exact hrefl
      split
      · exact hrefl
      rename_i hne
      split
      · split
        · exact hrefl
        · rename_i k hcur
          have hid := registryId_of_indexFromId hcur
          split
          · exact hrefl
          rename_i hcurne
          obtain ⟨⟨ok, hcalls⟩, hsame, hend⟩ :=
            stopOwner_spec h hid hcurne services
          -- behind a stop that failed the target is not started
          rcases hend with ⟨hno, howned⟩ | ⟨hyes, hvacant, hkeep⟩
          · rw [if_pos hno]
            refine ⟨howned, (Stepped.refl _).after hcalls hsame fun j _ hmem => ?_⟩
            rw [List.mem_singleton] at hmem
            cases hmem
          · rw [if_neg (by rw [hyes]; nofun)]
            obtain ⟨howned, hstep⟩ := startTarget_spec hvacant (hkeep i hne) services
            refine ⟨howned, hstep.after hcalls hsame fun j _ hmem => ?_⟩
            rw [List.mem_singleton] at hmem
            cases hmem
      · rename_i hzero
        exact startTarget_spec ⟨h, not_not.1 hzero⟩ hne services

theorem runtimeStop_spec (h : Owned m) (services : Option ServiceSnapshot) :
    Owned (runtimeStop app m services).1 ∧ Stepped m (runtimeStop app m services).1 := by
  rw [runtimeStop]
  split
  · exact ⟨h, .refl m⟩
  split
  · exact ⟨h, .refl m⟩
  · exact runtimeStart_spec h _ services

/-- An event is handed over, and the view rendered where the answer asks for
it. -/
theorem runtimeDispatchEvent_spec (h : Owned m) (event : Option Event)
    (services : Option ServiceSnapshot) :
    Owned (runtimeDispatchEvent app m event services).1 ∧
      Stepped m (runtimeDispatchEvent app m event services).1 := by
  have hrefl : Owned m ∧ Stepped m m := ⟨h, .refl m⟩
  cases event with
  | none => exact hrefl
  | some event =>
    cases services with
    | none => exact hrefl
    | some services =>
      cases hidx : indexFromId m.runtime.activeId with
      | none =>
        simp only [runtimeDispatchEvent, hidx]
        exact hrefl
      | some i =>
        obtain ⟨effects, world, hans⟩ : ∃ effects world,
            (app i).event event services m.world = (effects, world) := ⟨_, _, rfl⟩
        simp only [runtimeDispatchEvent, hidx, hans]
        split
        · exact hrefl
        split
        · exact hrefl
        · generalize ht : (⟨_, world, m.calls ++ [Call.event i event effects]⟩ : Machine ω) = t
          have hcalls : t.calls = m.calls ++ [.event i event effects] := by rw [← ht]
          have hruntime : t.runtime.states = m.runtime.states ∧
              t.runtime.activeId = m.runtime.activeId ∧ SameView m t := by
            rw [← ht]
            dsimp only
            split <;> exact ⟨rfl, rfl, ⟨rfl, rfl, rfl⟩⟩
          obtain ⟨hstates, hactive, hsame⟩ := hruntime
          have howned : Owned t := by
            refine h.append hstates hactive hcalls (fun j hf => ?_) fun j hs => ?_
            · rcases hf with hf | hf | hf <;> cases hf
            · obtain ⟨_, hs⟩ := hs
              cases hs
          have hnostart : ∀ j, j ≠ homeIndex →
              Call.start j false ∈ [Call.event i event effects] → False := by
            intro j _ hmem
            rw [List.mem_singleton] at hmem
            cases hmem
          split
          · exact ⟨howned.renderActive services, (Stepped.render t services).after hcalls hsame
              fun j hj hmem => (hnostart j hj hmem).elim⟩
          · exact ⟨howned, (Stepped.refl t).after hcalls hsame
              fun j hj hmem => (hnostart j hj hmem).elim⟩

theorem runtimeService_spec (h : Owned m) (services : Option ServiceSnapshot) :
    Owned (runtimeService app m services).1 ∧ Stepped m (runtimeService app m services).1 := by
  cases services with
  | none => exact ⟨h, .refl m⟩
  | some services =>
    simp only [runtimeService]
    split
    · exact ⟨h, .refl m⟩
    split
    · exact ⟨h.renderActive services, .render m services⟩
    · exact ⟨h, .refl m⟩

/-- One application's turn of the initialization. -/
theorem initOne_spec (h : Vacant m) (hne : m.runtime.states i ≠ .failed) :
    Vacant (initOne app m i) ∧ (∃ ok, (initOne app m i).calls = m.calls ++ [.init i ok]) ∧
      (initOne app m i).runtime.view = m.runtime.view ∧
      (initOne app m i).runtime.viewRevision = m.runtime.viewRevision ∧
      (initOne app m i).runtime.initialized = m.runtime.initialized ∧
      ∀ j, j ≠ i → (initOne app m i).runtime.states j = m.runtime.states j := by
  obtain ⟨ok, world, hans⟩ : ∃ ok world, (app i).init m.world = (ok, world) := ⟨_, _, rfl⟩
  obtain ⟨t, ht⟩ : ∃ t, t = initOne app m i := ⟨_, rfl⟩
  obtain ⟨st, hst, hok, hstates⟩ : ∃ st, (st = .stopped ∨ st = .failed) ∧
      (ok = false ↔ st = .failed) ∧ t.runtime.states = Function.update m.runtime.states i st := by
    cases ok with
    | false =>
      refine ⟨.failed, Or.inr rfl, iff_of_true rfl rfl, ?_⟩
      simp only [ht, initOne, hans, if_true]
      exact Function.update_idem _ _ _
    | true =>
      refine ⟨.stopped, Or.inl rfl, iff_of_false nofun nofun, ?_⟩
      simp only [ht, initOne, hans, Bool.true_eq_false, if_false]
      exact Function.update_idem _ _ _
  have hcalls : t.calls = m.calls ++ [.init i ok] := by simp only [ht, initOne, hans]
  have hruntime : t.runtime.activeId = m.runtime.activeId ∧ t.runtime.view = m.runtime.view ∧
      t.runtime.viewRevision = m.runtime.viewRevision ∧
      t.runtime.initialized = m.runtime.initialized := by
    simp only [ht, initOne, hans]
    split <;> exact ⟨rfl, rfl, rfl, rfl⟩
  obtain ⟨hactive, hview, hrev, hinit⟩ := hruntime
  have hfails : Call.Fails (.init i ok) i ↔ st = .failed := by
    rw [← hok]
    refine ⟨?_, fun hf => Or.inl (by rw [hf])⟩
    rintro (hf | hf | hf) <;> cases hf
    rfl
  have hother : ∀ j, Call.Fails (.init i ok) j → j = i := by
    rintro j (hf | hf | hf) <;> cases hf
    rfl
  have hnostop : ∀ j, Call.init i ok ≠ .stop j false := by
    intro j hj
    cases hj
  have hnostart : ∀ j, ¬ Call.Starts (.init i ok) j := by
    rintro j ⟨ok', hs⟩
    cases hs
  rw [← ht]
  refine ⟨h.vacate hst hne (fun j _ => h.not_running j) h.no_stop hnostop hfails hother
    (pairwise_append_other h.ordered hnostart) hstates (hactive.trans h.vacant) hcalls,
    ⟨ok, hcalls⟩, hview, hrev, hinit, fun j hji => ?_⟩
  rw [hstates, Function.update_of_ne hji]

/-- What every run of calls keeps. -/
structure Reached (m : Machine ω) : Prop extends Owned m where
  fresh : m.runtime.initialized = false → m.runtime.activeId = 0 ∧
    ∀ i, m.runtime.states i = .registered

theorem runtimeInitialize_spec (h : Reached m) :
    Reached (runtimeInitialize app m).1 ∧ Stepped m (runtimeInitialize app m).1 := by
  rw [runtimeInitialize]
  split
  · exact ⟨h, .refl m⟩
  rename_i hno
  obtain ⟨hactive, hstates⟩ := h.fresh (by simpa using hno)
  have hregistered : ∀ i, m.runtime.states i ≠ .failed := by
    intro i
    rw [hstates i]
    nofun
  -- a failed init does not keep the next application from being initialized
  obtain ⟨hvac0, ⟨ok0, hcalls0⟩, hview0, hrev0, -, hkeep0⟩ :=
    initOne_spec (i := 0) ⟨h.toOwned, hactive⟩ (hregistered 0)
  have hne1 : (initOne app m 0).runtime.states 1 ≠ .failed := by
    rw [hkeep0 1 (by decide)]
    exact hregistered 1
  obtain ⟨hvac1, ⟨ok1, hcalls1⟩, hview1, hrev1, -, -⟩ :=
    initOne_spec (i := 1) hvac0 hne1
  generalize initOne app (initOne app m 0) 1 = t at hvac1 hcalls1 hview1 hrev1
  have hcalls : t.calls = m.calls ++ ([.init 0 ok0] ++ [.init 1 ok1]) := by
    rw [hcalls1, hcalls0, List.append_assoc]
  have hview : t.runtime.view = m.runtime.view := hview1.trans hview0
  have hrev : t.runtime.viewRevision = m.runtime.viewRevision := hrev1.trans hrev0
  have howned : Owned { t with runtime := { t.runtime with initialized := true } } :=
    ⟨hvac1.failed_iff, hvac1.running, hvac1.active, hvac1.stopFailed, hvac1.settled, hvac1.ordered⟩
  refine ⟨⟨howned, nofun⟩, ⟨⟨_, hcalls, fun hne => absurd hview hne, fun i _ hmem => ?_⟩, ?_,
    fun _ => rfl⟩⟩
  · rcases List.mem_append.1 hmem with hmem | hmem <;> rw [List.mem_singleton] at hmem <;> cases hmem
  · exact hrev.trans (if_pos hview).symm

/-! ## Runs -/

/-- **One call keeps the ownership**, and leaves what it may. The calls differ
in what they ask of the runtime; each is one of the lemmas above. -/
theorem Reached.step (h : Reached m) (op : Op) :
    Reached (step app m op) ∧ Stepped m (step app m op) := by
  -- no call but the first takes effect on a runtime that is not initialized
  have hkeep : ∀ t : Machine ω, (m.runtime.initialized = false → t = m) → Owned t → Stepped m t →
      Reached t ∧ Stepped m t := by
    intro t hnothing howned hstep
    refine ⟨⟨howned, fun hno => ?_⟩, hstep⟩
    cases hinit : m.runtime.initialized with
    | true =>
      rw [hstep.initialized hinit] at hno
      cases hno
    | false =>
      rw [hnothing hinit]
      exact h.fresh hinit
  cases op with
  | runtimeInitialize => exact runtimeInitialize_spec h
  | start id services =>
    obtain ⟨howned, hstep⟩ := runtimeStart_spec h.toOwned id services
    refine hkeep _ (fun hinit => ?_) howned hstep
    cases services with
    | none => rfl
    | some services =>
      cases hidx : indexFromId id with
      | none => simp only [App.step, runtimeStart, hidx]
      | some i => simp only [App.step, runtimeStart, hidx, hinit, if_true]
  | stop services =>
    obtain ⟨howned, hstep⟩ := runtimeStop_spec h.toOwned services
    exact hkeep _ (fun hinit => congrArg Prod.fst (if_pos (Or.inr hinit))) howned hstep
  | dispatchEvent event services =>
    obtain ⟨howned, hstep⟩ := runtimeDispatchEvent_spec h.toOwned event services
    refine hkeep _ (fun hinit => ?_) howned hstep
    have hzero := (h.fresh hinit).1
    simp only [App.step, runtimeDispatchEvent, hzero, indexFromId_zero]
  | service services =>
    obtain ⟨howned, hstep⟩ := runtimeService_spec h.toOwned services
    refine hkeep _ (fun hinit => ?_) howned hstep
    cases services with
    | none => rfl
    | some services => simp only [App.step, runtimeService, hinit, if_true]

/-- Every run of calls keeps it. -/
theorem reached_run (app : Index → Callbacks ω) (world : ω) (ops : List Op) :
    Reached (run app world ops) := by
  have hreset : Reached ({ world := world } : Machine ω) :=
    ⟨⟨fun i => ⟨nofun, fun ⟨_, hc, _⟩ => (List.not_mem_nil hc).elim⟩, nofun, Or.inl rfl,
      fun _ hc => (List.not_mem_nil hc).elim, fun _ => ⟨nofun, nofun⟩, .nil⟩,
      fun _ => ⟨rfl, fun _ => rfl⟩⟩
  have hrun : ∀ (ops : List Op) (m : Machine ω), Reached m → Reached (ops.foldl (step app) m) := by
    intro ops
    induction ops with
    | nil => exact fun _ h => h
    | cons op ops ih => exact fun m h => ih _ (h.step op).1
  exact hrun ops _ hreset

/-- **The runtime has one owner.** After any calls on a reset runtime, and
whatever the callbacks answer: at most one application runs; a runtime that is
owned is owned by the application that runs or by one whose stop failed; none
is left on its way up or down. An application is failed just where a callback
of it failed, and is never started again; behind a failed stop nothing is
started, and the owner stays. Any further call puts a view on display only
where the application then active has rendered it, counts it just then, and
falls back to home, or to nobody, where another application did not start. -/
theorem application_ownership (app : Index → Callbacks ω) (world : ω) (ops : List Op) :
    let m := run app world ops
    (∀ i j, m.runtime.states i = .running → m.runtime.states j = .running → i = j) ∧
    (m.runtime.activeId ≠ 0 → ∃ i, registryId i = m.runtime.activeId ∧
      (m.runtime.states i = .running ∨
        m.runtime.states i = .failed ∧ Call.stop i false ∈ m.calls)) ∧
    (∀ i, m.runtime.states i ≠ .starting ∧ m.runtime.states i ≠ .stopping) ∧
    (∀ i, m.runtime.states i = .failed ↔ ∃ c ∈ m.calls, c.Fails i) ∧
    (∀ i, Call.stop i false ∈ m.calls → registryId i = m.runtime.activeId) ∧
    m.calls.Pairwise Call.Before ∧
    ∀ op, Stepped m (step app m op) := by
  intro m
  have h : Reached m := reached_run app world ops
  clear_value m
  refine ⟨fun i j hi hj => registryId_inj ((h.running i hi).trans (h.running j hj).symm),
    fun hne => ?_, h.settled, h.failed_iff, h.stopFailed, h.ordered, fun op => (h.step op).2⟩
  rcases h.active with hzero | howner
  · exact absurd hzero hne
  · exact howner

end App

end DeusOs
