import DeusOs.Host.Notify
import Mathlib.Data.List.Chain

/-!
# The host — the life of a session

Between two calls a session is ready just where it has a client and a
negotiation result; the client is the last that negotiated, and every other
client whose transport was opened has been disposed once. The recovery keeps
this over any number of turns. Subscribers are told every change of state, in
order.
-/

namespace DeusOs

namespace Host

open Async (Prog Takes Triple)
open DeviceSession

variable {ν : Type} {s : DeviceSession ν}

/-! ## The invariant -/

/-- The record of a session is in order. -/
structure Recorded (s : DeviceSession ν) : Prop where
  executed : ∀ p ∈ s.executed, p.2 = some p.1
  state_eq : s.state = s.changes.getLast?.getD .disconnected
  changed : (ConnectionState.disconnected :: s.changes).IsChain (· ≠ ·)

/-- Every client but the one that is held was disposed once. -/
structure Accounted (s : DeviceSession ν) (held : Option ℕ) : Prop where
  held_lt : ∀ c, held = some c → c < s.opened ∧ c ∉ s.disposals
  once : ∀ c, c < s.opened → held ≠ some c → s.disposals.count c = 1
  lt : ∀ c ∈ s.disposals, c < s.opened

/-- No client is current, while one may be held by the call. -/
structure Clientless (s : DeviceSession ν) (held : Option ℕ) : Prop where
  recorded : Recorded s
  accounted : Accounted s held
  client : s.client = none
  lastNegotiation : s.lastNegotiation = none

/-- **Between two calls.** -/
structure Settled (s : DeviceSession ν) : Prop where
  recorded : Recorded s
  accounted : Accounted s s.client
  ready_iff : s.state = .ready ↔ s.client.isSome = true
  client_iff : s.client.isSome = true ↔ s.lastNegotiation.isSome = true
  last : ∀ c, s.client = some c → s.negotiated.getLast? = some c

theorem setState_eq (st : ConnectionState) (s : DeviceSession ν) :
    setState st s = { s with state := st, changes := (setState st s).changes } := by
  rw [setState]
  split
  · rename_i h
    rw [← h]
  · rfl

/-- A change of state is recorded, and only a change. -/
theorem Recorded.setState (h : Recorded s) (st : ConnectionState) : Recorded (setState st s) := by
  rw [DeviceSession.setState]
  split
  · exact h
  · rename_i hne
    refine ⟨h.executed, by simp, ?_⟩
    have hlast : (ConnectionState.disconnected :: s.changes).getLast? = some s.state := by
      rw [h.state_eq]
      cases hc : s.changes.getLast? with
      | none => rw [List.getLast?_eq_none_iff.1 hc]; rfl
      | some x => simp [List.getLast?_cons, hc]
    have happend := List.isChain_append.2 ⟨h.changed, List.isChain_singleton st, fun x hx y hy => ?_⟩
    · exact happend
    · rw [hlast] at hx
      cases hx
      cases hy
      exact hne

/-- The state that is set does not make a client. -/
theorem Clientless.setState {held : Option ℕ} (h : Clientless s held) (st : ConnectionState) :
    Clientless (setState st s) held := by
  have hrec := h.recorded.setState st
  rw [setState_eq] at hrec ⊢
  exact ⟨hrec, ⟨h.accounted.held_lt, h.accounted.once, h.accounted.lt⟩, h.client, h.lastNegotiation⟩

/-- A state that is not ready, without a client, is one between calls. -/
theorem Clientless.settle (h : Clientless s none) {st : ConnectionState} (hst : st ≠ .ready) :
    Settled (DeviceSession.setState st s) := by
  have hset := h.setState st
  have hstate : (DeviceSession.setState st s).state = st := by rw [setState_eq]
  refine ⟨hset.recorded, by rw [hset.client]; exact hset.accounted, ?_, ?_, fun c hc => ?_⟩
  · rw [hstate, hset.client]
    exact iff_of_false hst (by simp)
  · rw [hset.client, hset.lastNegotiation]
    simp
  · rw [hset.client] at hc
    cases hc

/-- The disposal of the client that is held. -/
theorem Accounted.disposed {held : ℕ} {s' : DeviceSession ν} (h : Accounted s (some held))
    (hopened : s'.opened = s.opened) (hdisposals : s'.disposals = s.disposals ++ [held]) :
    Accounted s' none := by
  obtain ⟨hlt, hfresh⟩ := h.held_lt held rfl
  refine ⟨nofun, fun c hc _ => ?_, fun c hc => ?_⟩
  · rw [hdisposals, List.count_append]
    rw [hopened] at hc
    by_cases hch : held = c
    · subst hch
      rw [List.count_eq_zero_of_not_mem hfresh, List.count_singleton_self]
    · rw [h.once c hc (fun he => hch (Option.some.inj he)),
        List.count_eq_zero_of_not_mem (fun hmem => hch (List.mem_singleton.1 hmem).symm)]
  · rw [hopened]
    rw [hdisposals, List.mem_append, List.mem_singleton] at hc
    rcases hc with hc | rfl
    · exact h.lt c hc
    · exact hlt

/-- Once a negotiation is forgotten, the current client can be given up. -/
theorem clientless_disposeCurrentClient (hrec : Recorded s) (hacc : Accounted s s.client)
    (hnone : s.lastNegotiation = none) : Clientless s.disposeCurrentClient none := by
  rw [disposeCurrentClient]
  cases hclient : s.client with
  | none =>
    rw [hclient] at hacc
    exact ⟨hrec, hacc, hclient, hnone⟩
  | some c =>
    rw [hclient] at hacc
    exact ⟨⟨hrec.executed, hrec.state_eq, hrec.changed⟩, hacc.disposed rfl rfl, rfl, hnone⟩

/-- The current client is given up for another, or for none. -/
theorem Settled.leave (h : Settled s) (candidate : Option DeviceCandidate) :
    Clientless ({ s.disposeCurrentClient with
      candidate := candidate, lastNegotiation := none } : DeviceSession ν) none := by
  have hacc := h.accounted
  rw [disposeCurrentClient]
  cases hclient : s.client with
  | none =>
    rw [hclient] at hacc
    exact ⟨⟨h.recorded.executed, h.recorded.state_eq, h.recorded.changed⟩,
      ⟨hacc.held_lt, hacc.once, hacc.lt⟩, hclient, rfl⟩
  | some c =>
    rw [hclient] at hacc
    exact ⟨⟨h.recorded.executed, h.recorded.state_eq, h.recorded.changed⟩,
      hacc.disposed rfl rfl, rfl, rfl⟩

/-- The client is given up for the recovery. -/
theorem Settled.drop (h : Settled s) :
    Clientless (setState .recovering
      ({ s with lastNegotiation := none } : DeviceSession ν)).disposeCurrentClient none := by
  have hrec : Recorded ({ s with lastNegotiation := none } : DeviceSession ν) :=
    ⟨h.recorded.executed, h.recorded.state_eq, h.recorded.changed⟩
  refine clientless_disposeCurrentClient (hrec.setState _) ?_ ?_
  · rw [setState_eq]
    exact ⟨h.accounted.held_lt, h.accounted.once, h.accounted.lt⟩
  · rw [setState_eq]

/-! ## Steps -/

section steps

variable {α : Type} {P : DeviceSession ν → Prop} {Q : Unit → DeviceSession ν → Prop}
  {R : HostError → DeviceSession ν → Prop}

theorem triple_modify {f : DeviceSession ν → DeviceSession ν} (h : ∀ s, P s → Q () (f s)) :
    Triple P (modify f) Q R :=
  Triple.act (fun s s' a hs hrun => by cases hrun; exact h s hs) fun s s' e _ hrun => by cases hrun

theorem triple_throwIfDisposed (h : ∀ e s, P s → R e s) :
    Triple P throwIfDisposed (fun _ => P) R := by
  refine Triple.act (fun s s' a hs hrun => ?_) fun s s' e hs hrun => ?_
  · rw [← (Prod.mk.inj hrun).1]
    exact hs
  · rw [← (Prod.mk.inj hrun).1]
    exact h e s hs

theorem triple_pass (h : ∀ e s, P s → R e s) : Triple P pass (fun _ => P) R := by
  refine Triple.await_of fun a s hs => ?_
  cases a with
  | passed => exact hs
  | threw e => exact h e s hs
  | _ => exact hs

theorem triple_enterGate : Triple P enterGate (fun _ => P) R := by
  refine Triple.await_of fun a s hs => ?_
  cases a with
  | _ => exact hs

theorem triple_discover (h : ∀ e s, P s → R e s) : Triple P discover (fun _ => P) R := by
  refine Triple.await_of fun a s hs => ?_
  cases a with
  | candidates found => exact hs
  | threw e => exact h e s hs
  | _ => exact hs

end steps

/-- **Opening and negotiating** ends with the new client current, or with it
disposed. -/
theorem triple_openAndNegotiate (candidate : DeviceCandidate) :
    Triple (fun s : DeviceSession ν => Clientless s none) (openAndNegotiate candidate)
      (fun _ s => Settled s) (fun _ s => Clientless s none) := by
  refine Triple.bind (triple_modify (Q := fun _ s => Clientless s none) fun s h => h.setState _)
    fun _ => ?_
  -- the transport is opened: the client is held by the call
  refine Triple.bind (Q := fun client s => Clientless s (some client)) ?_ fun client => ?_
  · refine Triple.await_of fun a s h => ?_
    cases a with
    | opened =>
      refine ⟨⟨h.recorded.executed, h.recorded.state_eq, h.recorded.changed⟩,
        ⟨fun c hc => ?_, fun c hc hne => ?_, fun c hc => ?_⟩, h.client, h.lastNegotiation⟩
      · cases hc
        exact ⟨Nat.lt_succ_self _, fun hmem => Nat.lt_irrefl _ (h.accounted.lt _ hmem)⟩
      · have hlt : c < s.opened := by
          have hne' : c ≠ s.opened := fun he => hne (by rw [he])
          exact Nat.lt_of_le_of_ne (Nat.lt_succ_iff.1 hc) hne'
        exact h.accounted.once c hlt nofun
      · exact Nat.lt_succ_of_lt (h.accounted.lt c hc)
    | threw e => exact h
    | _ => exact h
  refine Triple.handle (R := fun _ s => Clientless s (some client)) ?_ fun e => ?_
  · refine Triple.bind (triple_modify (Q := fun _ s => Clientless s (some client))
      fun s h => h.setState _) fun _ => ?_
    refine Triple.await_of fun a s h => ?_
    cases a with
    -- from here the client is the session's, and no longer the call's
    | negotiated result =>
      have hrec : Recorded
          { s with
              client := some client
              candidate := some candidate
              lastNegotiation := some result
              negotiated := s.negotiated ++ [client] } :=
        ⟨h.recorded.executed, h.recorded.state_eq, h.recorded.changed⟩
      have hset := hrec.setState .ready
      simp only [Async.Waits]
      rw [setState_eq] at hset ⊢
      exact ⟨hset, ⟨h.accounted.held_lt, h.accounted.once, h.accounted.lt⟩,
        iff_of_true rfl rfl, iff_of_true rfl rfl, fun c hc => by cases hc; exact List.getLast?_concat⟩
    | threw e => exact h
    | _ => exact h
  -- the negotiation threw: the call disposes the client it holds
  · refine Triple.bind (triple_modify (Q := fun _ s => Clientless s none) fun s h => ?_) fun _ =>
      Triple.raise fun s h => h
    exact ⟨⟨h.recorded.executed, h.recorded.state_eq, h.recorded.changed⟩,
      h.accounted.disposed rfl rfl, h.client, h.lastNegotiation⟩

/-- Where a call gives up, the session is faulted. -/
theorem triple_faulted {α : Type} (e : HostError) {Q : α → DeviceSession ν → Prop} :
    Triple (fun s => Clientless s none)
      (modify (fun s => DeviceSession.setState .faulted { s with lastNegotiation := none }) >>=
        fun _ => Prog.raise e)
      Q (fun _ s => Settled s) := by
  refine Triple.bind (triple_modify (Q := fun _ s => Settled s) fun s h => ?_) fun _ =>
    Triple.raise fun s h => h
  have hsame : Clientless ({ s with lastNegotiation := none } : DeviceSession ν) none :=
    ⟨⟨h.recorded.executed, h.recorded.state_eq, h.recorded.changed⟩,
      ⟨h.accounted.held_lt, h.accounted.once, h.accounted.lt⟩, h.client, rfl⟩
  exact hsame.settle nofun

/-- **`ConnectAsync`.** However it ends, the session is in order: it is ready
exactly where it has a client. -/
theorem triple_connect (candidate : DeviceCandidate) :
    Triple (fun s : DeviceSession ν => Settled s) (connect candidate) (fun _ s => Settled s)
      (fun _ s => Settled s) := by
  refine Triple.bind (triple_throwIfDisposed fun _ _ h => h) fun _ =>
    Triple.bind (triple_pass fun _ _ h => h) fun _ =>
    Triple.bind (triple_throwIfDisposed fun _ _ h => h) fun _ => ?_
  refine Triple.bind (triple_modify (Q := fun _ s => Clientless s none)
    fun s h => (h.leave _).setState _) fun _ => ?_
  exact Triple.handle (triple_openAndNegotiate candidate) fun e => triple_faulted e

/-! ## Recovery -/

/-- **A turn** opens the device again, or leaves no client. -/
theorem triple_recoverTurn (previous : DeviceCandidate) :
    Triple (fun s : DeviceSession ν => Clientless s none) (recoverTurn previous)
      (fun done s => if done = true then Settled s else Clientless s none)
      (fun _ s => Clientless s none) := by
  refine Triple.handle (R := fun _ s => Clientless s none) ?_ fun e => ?_
  · refine Triple.bind (triple_discover fun _ _ h => h) fun candidates => ?_
    split
    · refine Triple.bind (triple_modify (Q := fun _ s => Clientless s none)
        fun s h => h.setState _) fun _ => ?_
      exact Triple.bind (triple_openAndNegotiate _) fun _ => Triple.ret fun s h => h
    · exact Triple.ret fun s h => h
  · split
    · split
      · exact Triple.bind (triple_modify (Q := fun _ s => Clientless s none)
          fun s h => h.setState _) fun _ => Triple.ret fun s h => h
      · exact Triple.raise fun s h => h
    · exact Triple.raise fun s h => h

/-- **So does the loop**, after any number of turns, by induction over the
turns. -/
theorem triple_recoverLoop (previous : DeviceCandidate) (turns : ℕ) :
    Triple (fun s : DeviceSession ν => Clientless s none) (recoverLoop previous turns)
      (fun _ s => Settled s) (fun _ s => Clientless s none) := by
  induction turns with
  | zero =>
    refine fun s answers _ => ⟨fun a s' rest hrun => ?_, fun e s' rest hrun => ?_⟩
    · cases hrun
    · cases hrun
  | succ turns ih =>
    refine Triple.bind (triple_pass fun _ _ h => h) fun _ =>
      Triple.bind (triple_recoverTurn previous) fun done => ?_
    cases done with
    | true => exact Triple.ret fun s h => h
    | false => exact Triple.bind (triple_pass fun _ _ h => h) fun _ => ih

/-! ### Turns -/

theorem takes_modify (f : DeviceSession ν → DeviceSession ν) : Takes 0 (modify f) :=
  Async.takes_act _

theorem takes_openAndNegotiate (candidate : DeviceCandidate) :
    Takes 0 (openAndNegotiate candidate : Member ν ν) := by
  refine (takes_modify _).bind fun _ => (Async.takes_await _).zero.bind fun client => ?_
  refine Takes.handle ((takes_modify _).bind fun _ => (Async.takes_await _).zero) fun e => ?_
  exact (takes_modify _).bind fun _ => Async.takes_raise e

theorem takes_recoverTurn (previous : DeviceCandidate) :
    Takes 0 (recoverTurn previous : Member ν Bool) := by
  refine Takes.handle ((Async.takes_await _).zero.bind fun candidates => ?_) fun e => ?_
  · split
    · exact (takes_modify _).bind fun _ =>
        (takes_openAndNegotiate _).bind fun _ => Async.takes_ret true
    · exact Async.takes_ret false
  · split
    · split
      · exact (takes_modify _).bind fun _ => Async.takes_ret false
      · exact Async.takes_raise _
    · exact Async.takes_raise _

/-- **The turns do not run out**: a turn takes an answer at least, so as many
turns as there are answers, and one, are all the turns there can be. -/
theorem recoverLoop_enough (previous : DeviceCandidate) {turns m : ℕ} (s : DeviceSession ν)
    {answers : List (Answer ν)} (hturns : answers.length < turns) (hm : answers.length < m) :
    recoverLoop previous turns s answers = recoverLoop previous m s answers := by
  induction turns generalizing m s answers with
  | zero => exact absurd hturns (Nat.not_lt_zero _)
  | succ turns ih =>
    cases m with
    | zero => exact absurd hm (Nat.not_lt_zero _)
    | succ m =>
      refine Async.bind_congr_of_takes (Async.takes_await _) fun _ s₁ rest hrest => ?_
      refine Async.bind_congr_of_takes (takes_recoverTurn previous) fun done s₂ rest₂ hrest₂ => ?_
      split
      · rfl
      · refine Async.bind_congr_of_takes (Async.takes_await _) fun _ s₃ rest₃ hrest₃ => ?_
        exact ih s₃ (by omega) (by omega)

theorem triple_recover :
    Triple (fun s : DeviceSession ν => Clientless s none) recover (fun _ s => Settled s)
      (fun _ s => Clientless s none) := by
  intro s answers h
  unfold recover
  cases s.candidate with
  | none =>
    refine ⟨nofun, fun e s' rest hrun => ?_⟩
    cases hrun
    exact h
  | some previous => exact triple_recoverLoop previous _ s answers h

/-- **What `ExecuteAsync` makes of an exception.** -/
theorem triple_recoverFrom (e : HostError) :
    Triple (fun s : DeviceSession ν => Settled s) (recoverFrom e) (fun _ s => Settled s)
      (fun _ s => Settled s) := by
  unfold recoverFrom
  split
  · refine Triple.bind (triple_modify (Q := fun _ s => Clientless s none) fun s h => ?_) fun _ => ?_
    · exact h.drop
    · refine Triple.bind (Q := fun _ s => Settled s) ?_ fun _ => Triple.raise fun s h => h
      exact Triple.handle triple_recover fun e => triple_faulted _
  · exact Triple.raise fun s h => h

/-! ## The members -/

/-- The operation is run on the client that negotiated last. -/
theorem triple_operate (client : ℕ) :
    Triple (fun s : DeviceSession ν => Settled s ∧ s.client = some client) (operate client)
      (fun _ s => Settled s) (fun _ s => Settled s) := by
  refine Triple.bind (triple_modify (Q := fun _ s => Settled s) fun s h => ?_) fun _ => ?_
  · obtain ⟨h, hclient⟩ := h
    refine ⟨⟨fun p hp => ?_, h.recorded.state_eq, h.recorded.changed⟩,
      ⟨h.accounted.held_lt, h.accounted.once, h.accounted.lt⟩, h.ready_iff, h.client_iff, h.last⟩
    rcases List.mem_append.1 hp with hp | hp
    · exact h.recorded.executed p hp
    · rw [List.mem_singleton.1 hp]
      exact h.last client hclient
  · refine Triple.await_of fun a s h => ?_
    cases a with
    | _ => exact h

/-- **`ExecuteAsync`.** -/
theorem triple_execute :
    Triple (fun s : DeviceSession ν => Settled s) execute (fun _ s => Settled s)
      (fun _ s => Settled s) := by
  refine Triple.bind (triple_throwIfDisposed fun _ _ h => h) fun _ =>
    Triple.bind (triple_pass fun _ _ h => h) fun _ =>
    Triple.bind (triple_throwIfDisposed fun _ _ h => h) fun _ => ?_
  -- the client is still the session's when the operation is called on it
  refine Triple.bind (Q := fun client s => Settled s ∧ s.client = some client) ?_ fun client =>
    Triple.handle (triple_operate client) triple_recoverFrom
  refine Triple.act (fun s s' client h hrun => ?_) fun s s' e h hrun => ?_
  · cases hclient : s.client with
    | none =>
      rw [hclient] at hrun
      cases hrun
    | some c =>
      rw [hclient] at hrun
      obtain ⟨rfl, hok⟩ := Prod.mk.inj hrun
      split at hok
      · cases hok
      · cases hok
        exact ⟨h, hclient⟩
  · have hsame : s = s' := by
      cases hclient : s.client with
      | none =>
        rw [hclient] at hrun
        exact (Prod.mk.inj hrun).1
      | some c =>
        rw [hclient] at hrun
        exact (Prod.mk.inj hrun).1
    rw [← hsame]
    exact h

theorem settled_leftDisconnected (h : Settled s) : Settled (leftDisconnected s) :=
  (h.leave none).settle nofun

/-- **`DisconnectAsync`.** -/
theorem triple_disconnect :
    Triple (fun s : DeviceSession ν => Settled s) disconnect (fun _ s => Settled s)
      (fun _ s => Settled s) :=
  Triple.bind (triple_throwIfDisposed fun _ _ h => h) fun _ =>
    Triple.bind (triple_pass fun _ _ h => h) fun _ =>
    Triple.bind (triple_throwIfDisposed fun _ _ h => h) fun _ =>
    triple_modify fun _ h => settled_leftDisconnected h

/-- **`DisposeAsync`.** -/
theorem triple_dispose :
    Triple (fun s : DeviceSession ν => Settled s) dispose (fun _ s => Settled s)
      (fun _ s => Settled s) := by
  have hbody : Triple (fun s : DeviceSession ν => Settled s)
      (enterGate >>= fun _ =>
        modify fun s => if s.isDisposed = true then s else leftDisconnected { s with isDisposed := true })
      (fun _ s => Settled s) fun _ s => Settled s := by
    refine Triple.bind triple_enterGate fun _ => triple_modify fun s h => ?_
    split
    · exact h
    · exact settled_leftDisconnected ⟨⟨h.recorded.executed, h.recorded.state_eq, h.recorded.changed⟩,
        ⟨h.accounted.held_lt, h.accounted.once, h.accounted.lt⟩, h.ready_iff, h.client_iff, h.last⟩
  intro s answers h
  unfold dispose
  split
  · refine ⟨fun a s' rest hrun => ?_, fun e s' rest hrun => ?_⟩
    · cases hrun
      exact h
    · cases hrun
  · exact hbody s answers h

/-- **Every member** leaves the session as it found it in order. -/
theorem triple_run (call : SessionCall) :
    Triple (fun s : DeviceSession ν => Settled s) call.run (fun _ s => Settled s)
      (fun _ s => Settled s) := by
  cases call with
  | connect candidate => exact Triple.bind (triple_connect candidate) fun _ => Triple.ret fun s h => h
  | execute => exact triple_execute
  | disconnect => exact triple_disconnect
  | dispose => exact triple_dispose

theorem settled_created : Settled ({} : DeviceSession ν) :=
  ⟨⟨nofun, rfl, List.isChain_singleton _⟩, ⟨nofun, nofun, nofun⟩, iff_of_false nofun nofun,
    iff_of_false nofun nofun, nofun⟩

/-- **Between any two calls the session is in order,** by induction over the
calls. -/
theorem BetweenCalls.settled (h : BetweenCalls s) : Settled s := by
  induction h with
  | created => exact settled_created
  | returned call answers rest _ hrun ih => exact (triple_run call _ answers ih).1 _ _ _ hrun
  | threw call answers rest e _ hrun ih => exact (triple_run call _ answers ih).2 e _ _ hrun

/-- **The life of a session.** Between two calls it is ready just where it has
a client and a negotiation result; operations were run on the client that had
negotiated last; every client that was opened is the current one or has been
disposed once; and whoever is subscribed is told the changes of state, in
order. -/
theorem session_lifecycle (h : BetweenCalls s) :
    ((s.state = .ready ↔ s.client.isSome = true) ∧
        (s.client.isSome = true ↔ s.lastNegotiation.isSome = true)) ∧
      (∀ p ∈ s.executed, p.2 = some p.1) ∧
      (∀ c, c < s.opened → s.client = some c ∧ s.disposals.count c = 0 ∨
        s.client ≠ some c ∧ s.disposals.count c = 1) ∧
      (s.state = s.changes.getLast?.getD .disconnected ∧
        (ConnectionState.disconnected :: s.changes).IsChain (· ≠ ·)) ∧
      ∀ (subscribers : List ℕ) (events : List NotifierEvent) (subscriber : ℕ),
        scheduled events = s.changes → subscribers.count subscriber = 1 →
        (∀ subscribers, .subscribe subscribers ∈ events → subscribers.count subscriber = 1) →
          (Notifier.run { subscribers := subscribers } events).observedBy subscriber <+:
              s.changes ∧
            ((Notifier.run { subscribers := subscribers } events).Quiescent →
              (Notifier.run { subscribers := subscribers } events).observedBy subscriber =
                s.changes) ∧
            ∃ more, (∀ ev ∈ more, ev.Serves) ∧
              (Notifier.run { subscribers := subscribers } (events ++ more)).observedBy subscriber =
                s.changes := by
  have hset := h.settled
  refine ⟨⟨hset.ready_iff, hset.client_iff⟩, hset.recorded.executed, fun c hc => ?_,
    ⟨hset.recorded.state_eq, hset.recorded.changed⟩, fun subscribers events subscriber hev hl hs => ?_⟩
  -- the current client was not disposed, any other was once
  · by_cases hclient : s.client = some c
    · exact Or.inl ⟨hclient, List.count_eq_zero_of_not_mem (hset.accounted.held_lt c hclient).2⟩
    · exact Or.inr ⟨hclient, hset.accounted.once c hc hclient⟩
  · rw [← hev]
    exact told subscribers events hl hs

/-- A session that was connected, and whose subscriber throws once. -/
theorem session_lifecycle_connected :
    ∃ s : DeviceSession Unit, BetweenCalls s ∧ s.state = .ready ∧ s.client.isSome = true ∧
      ∃ events : List NotifierEvent,
        (Notifier.run { subscribers := [7] } events).observedBy 7 <+: s.changes := by
  have hrun : (SessionCall.connect ⟨"usb:0", "DEUS", "usb"⟩).run ({} : DeviceSession Unit)
      [.passed, .opened, .negotiated ()] = .returned ()
        { state := .ready
          client := some 0
          candidate := some ⟨"usb:0", "DEUS", "usb"⟩
          lastNegotiation := some ()
          opened := 1
          negotiated := [0]
          changes := [.discovered, .opening, .negotiating, .ready] } [] := rfl
  have hcalls := BetweenCalls.returned _ _ _ .created hrun
  have hlife := session_lifecycle hcalls
  obtain ⟨events, hevents⟩ : ∃ events : List NotifierEvent, events =
      [.schedule .discovered, .resume 0, .call 0 true, .schedule .opening, .schedule .negotiating,
        .finish 0, .schedule .ready, .resume 1] := ⟨_, rfl⟩
  have hscheduled : scheduled events = [.discovered, .opening, .negotiating, .ready] := by
    rw [hevents]
    rfl
  have hsubscribe : ∀ subscribers, .subscribe subscribers ∈ events →
      subscribers.count 7 = 1 := by
    rw [hevents]
    simp
  exact ⟨_, hcalls, rfl, hlife.1.1.1 rfl, events,
    (hlife.2.2.2.2 [7] events 7 hscheduled rfl hsubscribe).1⟩

end Host

end DeusOs
