import DeusOs.App.Ownership
import DeusOs.App.Model.Bridge
import Mathlib.Data.List.Chain

/-!
# Service events reach the application

Where no view that an event asked for fails to render, the active application
is told that the runtime is ready and then of every change of a service, once
and in order. A render that fails makes the bridge forget that the event was
handed over: the next snapshot repeats it, or drops the change back.
-/

namespace DeusOs

namespace App

/-! ## What is demanded -/

/-- The events the application's callback was called with. -/
def handed : List Call → List Event
  | [] => []
  | .event _ e _ :: calls => e :: handed calls
  | _ :: calls => handed calls

/-- The changes from one snapshot to the next. -/
def changes (old new : ServiceSnapshot) : List Event :=
  (if new.displayedMinute ≠ old.displayedMinute then
    [⟨0x0002, 0x0002, new.displayedMinute, old.displayedMinute⟩] else []) ++
  ((if new.systemHealthy ≠ old.systemHealthy then
    [⟨0x0003, 0x0003, new.systemHealthy.toUInt32, old.systemHealthy.toUInt32⟩] else []) ++
  ((if new.usbConfigured ≠ old.usbConfigured then
    [⟨0x0004, 0x0004, new.usbConfigured.toUInt32, old.usbConfigured.toUInt32⟩] else []) ++
  (if new.networkOnline ≠ old.networkOnline then
    [⟨0x0005, 0x0005, new.networkOnline.toUInt32, old.networkOnline.toUInt32⟩] else [])))

/-- The changes along a list of snapshots. -/
def changesFrom (last : ServiceSnapshot) : List ServiceSnapshot → List Event
  | [] => []
  | s :: rest => changes last s ++ changesFrom s rest

/-- What the application is to be told of a list of snapshots. -/
def expected (id : UInt16) : List ServiceSnapshot → List Event
  | [] => []
  | s :: rest => ⟨0x0001, 0x0001, id.toUInt32, 0⟩ :: changesFrom s rest

/-- An event whose answer asks for the view is followed by a render that
fails. -/
def refused : Call → Call → Bool
  | .event _ _ effects, .render _ false _ => decide (effects &&& effectViewDirty ≠ 0)
  | _, _ => false

/-- No view that an event asked for fails to render. -/
def Clean (calls : List Call) : Prop := calls.IsChain fun c c' => refused c c' = false

instance (calls : List Call) : Decidable (Clean calls) :=
  inferInstanceAs (Decidable (List.IsChain _ _))

/-! ## Calls -/

variable {ω : Type} {app : Index → Callbacks ω} {m : Machine ω} {i : Index}
  {calls calls' : List Call} {services : ServiceSnapshot}

theorem handed_append : handed (calls ++ calls') = handed calls ++ handed calls' := by
  induction calls with
  | nil => rfl
  | cons c calls ih => cases c <;> simp [handed, ih]

/-- The active application runs. -/
structure Active (m : Machine ω) (i : Index) : Prop where
  initialized : m.runtime.initialized = true
  active : m.runtime.activeId = registryId i
  running : m.runtime.states i = .running

/-- Some calls, behind which the application still runs, and which have handed
over `events` unless a view was refused. -/
structure Delivers (m : Machine ω) (i : Index) (r : Machine ω × Bool) (events : List Event) :
    Prop where
  active : Active r.1 i
  record : ∃ new, r.1.calls = m.calls ++ new ∧ (Clean new → r.2 = true ∧ handed new = events)

theorem Delivers.refl (h : Active m i) : Delivers m i (m, true) [] :=
  ⟨h, [], (List.append_nil _).symm, fun _ => ⟨rfl, rfl⟩⟩

/-- One after the other, unless the first stops. -/
theorem Delivers.bind {r r' : Machine ω × Bool} {events events' : List Event}
    (h : Delivers m i r events) (h' : Delivers r.1 i r' events') :
    Delivers m i (if r.2 = false then (r.1, false) else r') (events ++ events') := by
  obtain ⟨hact, new, hcalls, hclean⟩ := h
  obtain ⟨hact', new', hcalls', hclean'⟩ := h'
  by_cases hstop : r.2 = false
  · rw [if_pos hstop]
    refine ⟨hact, new, hcalls, fun hc => ?_⟩
    rw [(hclean hc).1] at hstop
    cases hstop
  · rw [if_neg hstop]
    refine ⟨hact', new ++ new', by rw [hcalls', hcalls, List.append_assoc], fun hc => ?_⟩
    rw [handed_append, (hclean hc.left_of_append).2, (hclean' hc.right_of_append).2]
    exact ⟨(hclean' hc.right_of_append).1, rfl⟩

/-- Rendering the active application, and what it answers. -/
theorem renderActive_answer (h : Active m i) (services : ServiceSnapshot) :
    Active (renderActive app m services).1 i ∧ ∃ ok view,
      (renderActive app m services).1.calls = m.calls ++ [.render i ok view] ∧
        (renderActive app m services).2 = ok := by
  obtain ⟨hstates, hactive, hinit⟩ := renderActive_states m services
  refine ⟨⟨hinit.trans h.initialized, hactive.trans h.active, by rw [hstates]; exact h.running⟩, ?_⟩
  have hidx : indexFromId m.runtime.activeId = some i := by
    rw [h.active]
    exact indexFromId_registryId i
  obtain ⟨ok, candidate, world, hans⟩ : ∃ ok candidate world,
      (app i).render .clear services m.world = (ok, candidate, world) := ⟨_, _, _, rfl⟩
  refine ⟨ok, candidate, ?_⟩
  simp only [renderActive, hidx, if_neg (not_not.2 h.running), hans]
  cases ok with
  | false => exact ⟨rfl, rfl⟩
  | true =>
    simp only [Bool.true_eq_false, if_false]
    split <;> exact ⟨rfl, rfl⟩

/-- **An event is handed over**, and comes through unless the view it asks for
is refused. -/
theorem dispatch_delivers (h : Active m i) (type source : UInt16) (value0 value1 : UInt32)
    (services : ServiceSnapshot) :
    Delivers m i (bridgeDispatchEvent app m type source value0 value1 services)
      [⟨type, source, value0, value1⟩] := by
  have hidx : indexFromId m.runtime.activeId = some i := by
    rw [h.active]
    exact indexFromId_registryId i
  generalize he : (⟨type, source, value0, value1⟩ : Event) = e
  obtain ⟨effects, world, hans⟩ : ∃ effects world,
      (app i).event e services m.world = (effects, world) := ⟨_, _, rfl⟩
  have hinit : ¬ m.runtime.initialized = false := by
    rw [h.initialized]
    nofun
  simp only [bridgeDispatchEvent, he, runtimeDispatchEvent, hidx, hans, if_neg hinit,
    if_neg (not_not.2 h.running)]
  generalize ht : (⟨_, world, m.calls ++ [Call.event i e effects]⟩ : Machine ω) = t
  have hcalls : t.calls = m.calls ++ [.event i e effects] := by rw [← ht]
  have hact : Active t i := by
    rw [← ht]
    split <;> exact ⟨h.initialized, h.active, h.running⟩
  split
  · rename_i hdirty
    obtain ⟨hact', ok, view, hrender, hok⟩ := renderActive_answer hact services
    refine ⟨hact', [.event i e effects, .render i ok view], ?_, fun hc => ?_⟩
    · rw [hrender, hcalls, List.append_assoc]
      rfl
    · rw [hok]
      cases ok with
      | true => exact ⟨rfl, rfl⟩
      | false =>
        have hno : decide (effects &&& effectViewDirty ≠ 0) = false := (List.isChain_cons_cons.1 hc).1
        exact absurd hdirty (of_decide_eq_false hno)
  -- no view is asked for
  · exact ⟨hact, [.event i e effects], hcalls, fun _ => ⟨rfl, rfl⟩⟩

theorem change_delivers (app : Index → Callbacks ω) (h : Active m i) (type source : UInt16)
    (value old : UInt32) (services : ServiceSnapshot) :
    Delivers m i (bridgeChange app m type source value old services)
      (if value ≠ old then [⟨type, source, value, old⟩] else []) := by
  rw [bridgeChange]
  split
  · exact dispatch_delivers h type source value old services
  · exact .refl h

theorem toUInt32_ne (a b : UInt8) : a.toUInt32 ≠ b.toUInt32 ↔ a ≠ b := by
  rw [not_iff_not]
  exact UInt8.toUInt32_inj

/-- **The four comparisons hand over the changes,** in the order in which the
source compares the fields, each with the old value and the new one. -/
theorem changes_delivers (h : Active m i) (last services : ServiceSnapshot) :
    Delivers m i (bridgeChanges app m last services) (changes last services) := by
  have h1 := change_delivers app h 0x0002 0x0002 services.displayedMinute
    last.displayedMinute services
  have h2 := change_delivers app h1.active 0x0003 0x0003 services.systemHealthy.toUInt32
    last.systemHealthy.toUInt32 services
  have h3 := change_delivers app h2.active 0x0004 0x0004 services.usbConfigured.toUInt32
    last.usbConfigured.toUInt32 services
  have h4 := change_delivers app h3.active 0x0005 0x0005 services.networkOnline.toUInt32
    last.networkOnline.toUInt32 services
  simp only [toUInt32_ne] at h2 h3 h4
  exact h1.bind (h2.bind (h3.bind h4))

/-! ## The bridge -/

/-- What a bridge is still to tell of a snapshot. -/
def Bridge.due (b : Bridge ω) (id : UInt16) (s : ServiceSnapshot) : List Event :=
  (if b.readyEventSent = false then [⟨0x0001, 0x0001, id.toUInt32, 0⟩] else []) ++
    (if b.serviceSnapshotValid = true then changes b.lastServiceSnapshot s else [])

theorem ready_delivers (app : Index → Callbacks ω) (h : Active m i) (sent : Bool)
    (services : ServiceSnapshot) :
    Delivers m i (bridgeReady app sent m services)
      (if sent = false then [⟨0x0001, 0x0001, (registryId i).toUInt32, 0⟩] else []) := by
  rw [bridgeReady]
  split
  · rw [← h.active]
    exact dispatch_delivers h 0x0001 0x0001 m.runtime.activeId.toUInt32 0 services
  · exact .refl h

/-- The view that is still pending may fail: the events are through. -/
theorem service_delivers (h : Active m i) (services : ServiceSnapshot) :
    Active (runtimeService app m (some services)).1 i ∧ ∃ new,
      (runtimeService app m (some services)).1.calls = m.calls ++ new ∧ handed new = [] := by
  have hinit : ¬ m.runtime.initialized = false := by
    rw [h.initialized]
    nofun
  simp only [runtimeService, if_neg hinit]
  split
  · obtain ⟨hact, ok, view, hcalls, -⟩ := renderActive_answer h services
    exact ⟨hact, _, hcalls, rfl⟩
  · exact ⟨h, [], (List.append_nil _).symm, rfl⟩

/-- **One snapshot**: what is due is handed over and remembered, unless a view
was refused. -/
theorem bridgeService_spec (b : Bridge ω) (h : Active b.machine i) (s : ServiceSnapshot) :
    Active (bridgeService app b (some s)).1.machine i ∧ ∃ new,
      (bridgeService app b (some s)).1.machine.calls = b.machine.calls ++ new ∧
        (Clean new → handed new = b.due (registryId i) s ∧
          (bridgeService app b (some s)).1.lastServiceSnapshot = s ∧
          (bridgeService app b (some s)).1.serviceSnapshotValid = true ∧
          (bridgeService app b (some s)).1.readyEventSent = true) := by
  have hinit : ¬ b.machine.runtime.initialized = false := by
    rw [h.initialized]
    nofun
  have howner : bridgeOwner app b.machine s = (b.machine, true) := by
    refine if_neg ?_
    rw [h.active]
    exact registryId_ne_zero i
  have hready := ready_delivers app h b.readyEventSent s
  obtain ⟨ready, hr⟩ : ∃ r, bridgeReady app b.readyEventSent b.machine s = r := ⟨_, rfl⟩
  rw [hr] at hready
  have hchanges : Delivers ready.1 i
      (if b.serviceSnapshotValid = true then bridgeChanges app ready.1 b.lastServiceSnapshot s
        else (ready.1, true))
      (if b.serviceSnapshotValid = true then changes b.lastServiceSnapshot s else []) := by
    split
    · exact changes_delivers hready.active _ _
    · exact .refl hready.active
  obtain ⟨through, ht⟩ : ∃ r, (if b.serviceSnapshotValid = true then
      bridgeChanges app ready.1 b.lastServiceSnapshot s else (ready.1, true)) = r := ⟨_, rfl⟩
  rw [ht] at hchanges
  have hrun : (bridgeService app b (some s)).1 =
      if ready.2 = false then { b with machine := ready.1 }
      else if through.2 = false then { b with machine := through.1, readyEventSent := true }
      else
        { machine := (runtimeService app through.1 (some s)).1
          lastServiceSnapshot := s
          serviceSnapshotValid := true
          readyEventSent := true } := by
    simp only [bridgeService, if_neg hinit, howner, Bool.true_eq_false, if_false, hr, ht]
    split
    · rfl
    · split <;> rfl
  rw [hrun]
  obtain ⟨hact, new, hcalls, hclean⟩ := hready
  obtain ⟨hact', new', hcalls', hclean'⟩ := hchanges
  -- where a view was refused the rest is skipped, and the record is not clean
  by_cases hstop : ready.2 = false
  · rw [if_pos hstop]
    refine ⟨hact, new, hcalls, fun hc => ?_⟩
    rw [(hclean hc).1] at hstop
    cases hstop
  rw [if_neg hstop]
  by_cases hstop' : through.2 = false
  · rw [if_pos hstop']
    refine ⟨hact', new ++ new', by rw [hcalls', hcalls, List.append_assoc], fun hc => ?_⟩
    rw [(hclean' hc.right_of_append).1] at hstop'
    cases hstop'
  · rw [if_neg hstop']
    obtain ⟨hserved, last, hlast, hnone⟩ := service_delivers hact' s
    refine ⟨hserved, new ++ (new' ++ last), ?_, fun hc => ⟨?_, rfl, rfl, rfl⟩⟩
    · rw [hlast, hcalls', hcalls, List.append_assoc, List.append_assoc]
    · rw [handed_append, handed_append, hnone, List.append_nil, (hclean hc.left_of_append).2,
        (hclean' hc.right_of_append.left_of_append).2]
      rfl

theorem bridgeRun_cons (b : Bridge ω) (s : ServiceSnapshot) (rest : List ServiceSnapshot) :
    bridgeRun app b (s :: rest) = bridgeRun app (bridgeService app b (some s)).1 rest := rfl

/-- The record only grows. -/
theorem bridgeRun_grows (snapshots : List ServiceSnapshot) (b : Bridge ω)
    (h : Active b.machine i) :
    ∃ new, (bridgeRun app b snapshots).machine.calls = b.machine.calls ++ new := by
  induction snapshots generalizing b with
  | nil => exact ⟨[], (List.append_nil _).symm⟩
  | cons s rest ih =>
    obtain ⟨hact, new, hcalls, -⟩ := bridgeService_spec b h s
    obtain ⟨new', hcalls'⟩ := ih _ hact
    exact ⟨new ++ new', by rw [bridgeRun_cons, hcalls', hcalls, List.append_assoc]⟩

/-- A bridge that remembers the last snapshot tells of the changes from it. -/
theorem bridgeRun_synced (snapshots : List ServiceSnapshot) (b : Bridge ω)
    (h : Active b.machine i) (hvalid : b.serviceSnapshotValid = true)
    (hsent : b.readyEventSent = true) {new : List Call}
    (hnew : (bridgeRun app b snapshots).machine.calls = b.machine.calls ++ new)
    (hclean : Clean new) : handed new = changesFrom b.lastServiceSnapshot snapshots := by
  induction snapshots generalizing b new with
  | nil =>
    have hnil : new = [] := List.append_right_eq_self.1 hnew.symm
    rw [hnil]
    rfl
  | cons s rest ih =>
    obtain ⟨hact, first, hcalls, hfirst⟩ := bridgeService_spec b h s
    obtain ⟨later, hlater⟩ := bridgeRun_grows rest _ hact
    have hsplit : new = first ++ later := by
      rw [bridgeRun_cons, hlater, hcalls, List.append_assoc] at hnew
      exact (List.append_cancel_left hnew).symm
    rw [hsplit] at hclean ⊢
    obtain ⟨hhanded, hlast, hvalid', hsent'⟩ := hfirst hclean.left_of_append
    have hdue : b.due (registryId i) s = changes b.lastServiceSnapshot s := by
      rw [Bridge.due, hsent, hvalid]
      rfl
    rw [handed_append, hhanded, hdue, ih _ hact hvalid' hsent' hlater hclean.right_of_append, hlast]
    rfl

/-- The calls of callbacks since an earlier state. -/
def Bridge.since (b b' : Bridge ω) : List Call := b'.machine.calls.drop b.machine.calls.length

theorem since_eq {b b' : Bridge ω} {new : List Call}
    (h : b'.machine.calls = b.machine.calls ++ new) : b.since b' = new := by
  rw [Bridge.since, h, List.drop_left' rfl]

/-- The record of a shorter run is the front of that of a longer. -/
theorem since_prefix {seen snapshots : List ServiceSnapshot} (hseen : seen <+: snapshots)
    (b : Bridge ω) (h : Active b.machine i) :
    b.since (bridgeRun app b seen) <+: b.since (bridgeRun app b snapshots) := by
  obtain ⟨rest, rfl⟩ := hseen
  have hactive : ∀ (seen : List ServiceSnapshot) (b : Bridge ω), Active b.machine i →
      Active (bridgeRun app b seen).machine i := by
    intro seen
    induction seen with
    | nil => exact fun _ h => h
    | cons s seen ih => exact fun b h => ih _ (bridgeService_spec b h s).1
  obtain ⟨new, hnew⟩ := bridgeRun_grows seen b h
  obtain ⟨new', hnew'⟩ := bridgeRun_grows rest _ (hactive seen b h)
  have hrun : bridgeRun app b (seen ++ rest) = bridgeRun app (bridgeRun app b seen) rest :=
    List.foldl_append
  have hboth : (bridgeRun app (bridgeRun app b seen) rest).machine.calls =
      b.machine.calls ++ (new ++ new') := by rw [hnew', hnew, List.append_assoc]
  rw [since_eq hnew, hrun, since_eq hboth]
  exact List.prefix_append _ _

/-- **Every change of a service is handed over once.** A bridge that has told
nothing yet, with an active application that runs, is passed snapshots. Where
no view that an event asked for failed to render, the application's callback
has been called, after every snapshot, with the event that the runtime is
ready and then with the changes from each snapshot to the next, in order, each
with the value last handed over as the old one. -/
theorem service_events_once (app : Index → Callbacks ω) (b : Bridge ω) (i : Index)
    (h : Active b.machine i) (hvalid : b.serviceSnapshotValid = false)
    (hsent : b.readyEventSent = false) (snapshots : List ServiceSnapshot)
    (hclean : Clean (b.since (bridgeRun app b snapshots))) :
    ∀ seen, seen <+: snapshots →
      handed (b.since (bridgeRun app b seen)) = expected (registryId i) seen := by
  intro seen hseen
  obtain ⟨tail, htail⟩ := since_prefix hseen b h
  rw [← htail] at hclean
  have hclean := hclean.left_of_append
  cases seen with
  | nil =>
    have hnil : b.since (bridgeRun app b []) = [] := since_eq (List.append_nil _).symm
    rw [hnil]
    rfl
  | cons s rest =>
    obtain ⟨hact, first, hcalls, hfirst⟩ := bridgeService_spec b h s
    obtain ⟨later, hlater⟩ := bridgeRun_grows rest _ hact
    have hsplit : b.since (bridgeRun app b (s :: rest)) = first ++ later :=
      since_eq (by rw [bridgeRun_cons, hlater, hcalls, List.append_assoc])
    rw [hsplit] at hclean ⊢
    obtain ⟨hhanded, hlast, hvalid', hsent'⟩ := hfirst hclean.left_of_append
    -- nothing is remembered yet: the first snapshot is told as ready only
    have hdue : b.due (registryId i) s = [⟨0x0001, 0x0001, (registryId i).toUInt32, 0⟩] := by
      rw [Bridge.due, hsent, hvalid]
      rfl
    rw [handed_append, hhanded, hdue,
      bridgeRun_synced rest _ hact hvalid' hsent' hlater hclean.right_of_append, hlast]
    rfl

/-! ## A view refused once -/

/-- An application that asks for the view on a change of the USB state, and
whose render, counted from the start, fails at one count. -/
def onUsb (fails : ℕ) : Index → Callbacks ℕ := fun _ =>
  { init := fun n => (true, n)
    start := fun _ n => (true, n)
    event := fun e _ n => (if e.type = 0x0004 then 1 else 0, n)
    render := fun view _ n => (decide (n ≠ fails), view, n + 1)
    stop := fun _ n => (true, n) }

/-- A snapshot with a USB state. -/
def usbSnapshot (configured : UInt8) : ServiceSnapshot := ⟨0, 0, 1, configured, 0⟩

/-- The bridge behind the start of home. -/
def homeBridge (fails : ℕ) : Bridge ℕ :=
  { machine := run (onUsb fails) 0
      [.runtimeInitialize, .start idSystemHome (some (usbSnapshot 0))] }

theorem homeBridge_active : Active (homeBridge 9).machine 0 := ⟨by decide, by decide, by decide⟩

/-- Where no render fails, all three changes are handed over. -/
theorem service_events_once_usb :
    handed ((homeBridge 9).since (bridgeRun (onUsb 9) (homeBridge 9)
        [usbSnapshot 0, usbSnapshot 1, usbSnapshot 0])) =
      expected (registryId 0) [usbSnapshot 0, usbSnapshot 1, usbSnapshot 0] :=
  service_events_once (onUsb 9) (homeBridge 9) 0 homeBridge_active rfl rfl
    [usbSnapshot 0, usbSnapshot 1, usbSnapshot 0] (by decide) _ List.prefix_rfl

/-- The render fails once, and the change back is never handed over. -/
theorem service_events_lost :
    ¬ ∀ (app : Index → Callbacks ℕ) (b : Bridge ℕ) (i : Index), Active b.machine i →
      b.serviceSnapshotValid = false → b.readyEventSent = false →
      ∀ snapshots, handed (b.since (bridgeRun app b snapshots)) =
        expected (registryId i) snapshots := by
  intro h
  have hrun := h (onUsb 1) (homeBridge 1) 0 ⟨by decide, by decide, by decide⟩ rfl rfl
    [usbSnapshot 0, usbSnapshot 1, usbSnapshot 0]
  exact absurd hrun (by decide)

end App

end DeusOs
