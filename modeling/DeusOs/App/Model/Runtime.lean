import Mathlib.Data.Fintype.Pi
import Mathlib.Data.Fintype.Basic
import Mathlib.Logic.Function.Basic

/-!
# Applications — the runtime

`application_runtime.c`: two registered applications, one of them active. The
callbacks are parameters over a state of their own, so that they may answer
anything at any time; every call of one is kept in a record, in order, with
what it answered. A pointer that may be null is an `Option`.
-/

namespace DeusOs

namespace App

/-- `APPLICATION_RUNTIME_REGISTRY_COUNT` applications, by index. -/
abbrev Index := Fin 2

/-- `APPLICATION_ID_SYSTEM_HOME`. -/
abbrev idSystemHome : UInt16 := 0x0001
/-- `APPLICATION_ID_DEVICE_INFO`. -/
abbrev idDeviceInfo : UInt16 := 0x0002
/-- The index of home in `application_registry`. -/
abbrev homeIndex : Index := 0
/-- `APPLICATION_EFFECT_VIEW_DIRTY`. -/
abbrev effectViewDirty : UInt32 := 1

/-- `application_lifecycle_state_t`. -/
inductive LifecycleState
  | registered
  | stopped
  | starting
  | running
  | blocked
  | stopping
  | failed
  deriving DecidableEq, Repr

/-- `application_event_t`. -/
structure Event where
  type : UInt16
  source : UInt16
  value0 : UInt32
  value1 : UInt32
  deriving DecidableEq, Repr

/-- `application_service_snapshot_t`. -/
structure ServiceSnapshot where
  uptimeMs : UInt32
  displayedMinute : UInt32
  systemHealthy : UInt8
  usbConfigured : UInt8
  networkOnline : UInt8
  deriving DecidableEq, Repr

/-- `application_view_t`: `APPLICATION_VIEW_ROWS` rows of
`APPLICATION_VIEW_STORAGE_COLUMNS` characters. -/
abbrev View := Fin 3 → Fin 22 → UInt8

/-- `application_view_clear`. -/
def View.clear : View := fun _ _ => 0

/-- The callbacks of an application, over what they keep between calls. -/
structure Callbacks (ω : Type) where
  init : ω → Bool × ω
  start : ServiceSnapshot → ω → Bool × ω
  event : Event → ServiceSnapshot → ω → UInt32 × ω
  /-- The view is written whether or not the callback succeeds. -/
  render : View → ServiceSnapshot → ω → Bool × View × ω
  stop : ServiceSnapshot → ω → Bool × ω

/-- A call of a callback, and its answer. -/
inductive Call
  | init (i : Index) (ok : Bool)
  | start (i : Index) (ok : Bool)
  | event (i : Index) (event : Event) (effects : UInt32)
  | render (i : Index) (ok : Bool) (view : View)
  | stop (i : Index) (ok : Bool)
  deriving DecidableEq

/-- `application_runtime_t`. -/
structure Runtime where
  view : View := .clear
  stagingView : View := .clear
  faultCount : UInt32 := 0
  eventCount : UInt32 := 0
  viewRevision : UInt32 := 0
  lastEventValue0 : UInt32 := 0
  lastEventValue1 : UInt32 := 0
  activeId : UInt16 := 0
  lastEventType : UInt16 := 0
  lastEventSource : UInt16 := 0
  states : Index → LifecycleState := fun _ => .registered
  initialized : Bool := false
  viewDirty : Bool := false
  renderPending : Bool := false
  deriving DecidableEq

/-- The runtime, what the callbacks keep, and their calls so far. -/
structure Machine (ω : Type) where
  runtime : Runtime := {}
  world : ω
  calls : List Call := []

/-- The id at an index of `application_registry`. -/
def registryId (i : Index) : UInt16 := if i = 0 then idSystemHome else idDeviceInfo

/-- `application_counter_increment`. -/
def counterIncrement (counter : UInt32) : UInt32 :=
  if counter ≠ 0xFFFFFFFF then counter + 1 else counter

/-- `application_runtime_index_from_id`. -/
def indexFromId (id : UInt16) : Option Index :=
  if id = 0 then none
  else if registryId 0 = id then some 0
  else if registryId 1 = id then some 1
  else none

/-- One more fault. -/
def Runtime.fault (r : Runtime) : Runtime := { r with faultCount := counterIncrement r.faultCount }

/-- The state of one application. -/
def Runtime.setState (r : Runtime) (i : Index) (st : LifecycleState) : Runtime :=
  { r with states := Function.update r.states i st }

variable {ω : Type} (app : Index → Callbacks ω)

/-- `application_runtime_render_active`, and what it returns. -/
def renderActive (m : Machine ω) (services : ServiceSnapshot) : Machine ω × Bool :=
  let r := m.runtime
  match indexFromId r.activeId with
  | none => (m, false)
  | some index =>
    if r.states index ≠ .running then (m, false)
    else
      let (ok, candidate, world) := (app index).render .clear services m.world
      let m : Machine ω :=
        { runtime := { r with stagingView := candidate }
          world := world
          calls := m.calls ++ [.render index ok candidate] }
      if ok = false then
        let r := if r.renderPending = false then m.runtime.fault else m.runtime
        ({ m with runtime := { r with renderPending := true } }, false)
      else
        let r := { m.runtime with renderPending := false }
        if r.view = candidate then ({ m with runtime := r }, true)
        else
          ({ m with
              runtime :=
                { r with
                    view := candidate
                    viewDirty := true
                    viewRevision := counterIncrement r.viewRevision } }, true)

/-- `application_runtime_start_home_fallback`, and what it returns. -/
def startHomeFallback (m : Machine ω) (services : ServiceSnapshot) : Machine ω × Bool :=
  if m.runtime.states homeIndex = .failed then
    ({ m with runtime := { m.runtime with activeId := 0 } }, false)
  else
    let r := m.runtime.setState homeIndex .starting
    let (ok, world) := (app homeIndex).start services m.world
    let calls := m.calls ++ [.start homeIndex ok]
    if ok = false then
      ({ runtime := { (r.setState homeIndex .failed).fault with activeId := 0 }
         world := world
         calls := calls }, false)
    else
      let m : Machine ω :=
        { runtime := { r.setState homeIndex .running with activeId := idSystemHome }
          world := world
          calls := calls }
      ((renderActive app m services).1, true)

/-- `application_runtime_stop_owner`, and what it returns. -/
def stopOwner (m : Machine ω) (currentIndex : Index) (services : ServiceSnapshot) :
    Machine ω × Bool :=
  let r := m.runtime.setState currentIndex .stopping
  let (ok, world) := (app currentIndex).stop services m.world
  let calls := m.calls ++ [.stop currentIndex ok]
  if ok = false then
    ({ runtime := (r.setState currentIndex .failed).fault, world := world, calls := calls }, false)
  else
    ({ runtime := { r.setState currentIndex .stopped with activeId := 0 }
       world := world
       calls := calls }, true)

/-- One turn of the loop of `application_runtime_initialize`. -/
def initOne (m : Machine ω) (index : Index) : Machine ω :=
  let r := m.runtime.setState index .registered
  let (ok, world) := (app index).init m.world
  { runtime := if ok = false then (r.setState index .failed).fault else r.setState index .stopped
    world := world
    calls := m.calls ++ [.init index ok] }

/-- `application_runtime_initialize`, and what it returns. -/
def runtimeInitialize (m : Machine ω) : Machine ω × Bool :=
  if m.runtime.initialized = true then (m, true)
  else
    let m := initOne app (initOne app m 0) 1
    let m := { m with runtime := { m.runtime with initialized := true } }
    (m, decide (m.runtime.states homeIndex = .stopped))

/-- The end of `application_runtime_start`: nobody owns the runtime. -/
def startTarget (m : Machine ω) (id : UInt16) (targetIndex : Index) (services : ServiceSnapshot) :
    Machine ω × Bool :=
  let r := m.runtime.setState targetIndex .starting
  let (ok, world) := (app targetIndex).start services m.world
  let calls := m.calls ++ [.start targetIndex ok]
  if ok = false then
    let m : Machine ω :=
      { runtime := (r.setState targetIndex .failed).fault, world := world, calls := calls }
    if id ≠ idSystemHome then ((startHomeFallback app m services).1, false) else (m, false)
  else
    let m : Machine ω :=
      { runtime := { r.setState targetIndex .running with activeId := id }
        world := world
        calls := calls }
    ((renderActive app m services).1, true)

/-- `application_runtime_start`, and what it returns. -/
def runtimeStart (m : Machine ω) (id : UInt16) (services : Option ServiceSnapshot) : Machine ω × Bool :=
  match services, indexFromId id with
  | some services, some targetIndex =>
    if m.runtime.initialized = false then (m, false)
    else if m.runtime.activeId = id ∧ m.runtime.states targetIndex = .running then (m, true)
    else if m.runtime.states targetIndex = .failed then (m, false)
    else if m.runtime.activeId ≠ 0 then
      match indexFromId m.runtime.activeId with
      | none => (m, false)
      | some currentIndex =>
        if m.runtime.states currentIndex = .failed then (m, false)
        else
          let (stopped, ok) := stopOwner app m currentIndex services
          if ok = false then (stopped, false) else startTarget app stopped id targetIndex services
    else startTarget app m id targetIndex services
  | _, _ => (m, false)

/-- `application_runtime_stop`, and what it returns. -/
def runtimeStop (m : Machine ω) (services : Option ServiceSnapshot) : Machine ω × Bool :=
  if services = none ∨ m.runtime.initialized = false then (m, false)
  else if m.runtime.activeId = idSystemHome then (m, true)
  else runtimeStart app m idSystemHome services

/-- `application_runtime_dispatch_event`, and what it returns. -/
def runtimeDispatchEvent (m : Machine ω) (event : Option Event) (services : Option ServiceSnapshot) :
    Machine ω × Bool :=
  match event, services, indexFromId m.runtime.activeId with
  | some event, some services, some index =>
    if m.runtime.initialized = false then (m, false)
    else if m.runtime.states index ≠ .running then (m, false)
    else
      let r :=
        { m.runtime with
            lastEventType := event.type
            lastEventSource := event.source
            lastEventValue0 := event.value0
            lastEventValue1 := event.value1
            eventCount := counterIncrement m.runtime.eventCount }
      let (effects, world) := (app index).event event services m.world
      let r := if effects &&& ~~~effectViewDirty ≠ 0 then r.fault else r
      let m : Machine ω :=
        { runtime := r, world := world, calls := m.calls ++ [.event index event effects] }
      if effects &&& effectViewDirty ≠ 0 then renderActive app m services else (m, true)
  | _, _, _ => (m, false)

/-- `application_runtime_service`, and what it returns. -/
def runtimeService (m : Machine ω) (services : Option ServiceSnapshot) : Machine ω × Bool :=
  match services with
  | none => (m, false)
  | some services =>
    if m.runtime.initialized = false then (m, false)
    else if m.runtime.renderPending = true then renderActive app m services
    else (m, true)

/-- A call of the runtime. -/
inductive Op
  | runtimeInitialize
  | start (id : UInt16) (services : Option ServiceSnapshot)
  | stop (services : Option ServiceSnapshot)
  | dispatchEvent (event : Option Event) (services : Option ServiceSnapshot)
  | service (services : Option ServiceSnapshot)

/-- What a call leaves. -/
def step (m : Machine ω) : Op → Machine ω
  | .runtimeInitialize => (runtimeInitialize app m).1
  | .start id services => (runtimeStart app m id services).1
  | .stop services => (runtimeStop app m services).1
  | .dispatchEvent event services => (runtimeDispatchEvent app m event services).1
  | .service services => (runtimeService app m services).1

/-- A list of calls, on a reset runtime. -/
def run (world : ω) (ops : List Op) : Machine ω := ops.foldl (step app) { world := world }

end App

end DeusOs
