import DeusOs.App.Model.Runtime

/-!
# Applications — service events

`application_runtime_bridge.c` where it turns the snapshots of the system's
services into events for the active application. What it remembers between two
calls is the last snapshot whose events all came through, and whether the
application was told that the runtime is ready.
-/

namespace DeusOs

namespace App

/-- The static variables of `application_runtime_bridge.c`. -/
structure Bridge (ω : Type) where
  machine : Machine ω
  lastServiceSnapshot : ServiceSnapshot := ⟨0, 0, 0, 0, 0⟩
  serviceSnapshotValid : Bool := false
  readyEventSent : Bool := false

variable {ω : Type} (app : Index → Callbacks ω)

/-- `application_runtime_bridge_dispatch_event`. -/
def bridgeDispatchEvent (m : Machine ω) (type source : UInt16) (value0 value1 : UInt32)
    (services : ServiceSnapshot) : Machine ω × Bool :=
  runtimeDispatchEvent app m (some ⟨type, source, value0, value1⟩) (some services)

/-- One comparison of `application_runtime_bridge_service`: an event where a
value is no longer what it was. -/
def bridgeChange (m : Machine ω) (type source : UInt16) (value old : UInt32)
    (services : ServiceSnapshot) : Machine ω × Bool :=
  if value ≠ old then bridgeDispatchEvent app m type source value old services else (m, true)

/-- The four comparisons, up to the first event that does not come through. -/
def bridgeChanges (m : Machine ω) (last services : ServiceSnapshot) : Machine ω × Bool :=
  let r := bridgeChange app m 0x0002 0x0002 services.displayedMinute last.displayedMinute services
  if r.2 = false then (r.1, false)
  else
    let r := bridgeChange app r.1 0x0003 0x0003 services.systemHealthy.toUInt32
      last.systemHealthy.toUInt32 services
    if r.2 = false then (r.1, false)
    else
      let r := bridgeChange app r.1 0x0004 0x0004 services.usbConfigured.toUInt32
        last.usbConfigured.toUInt32 services
      if r.2 = false then (r.1, false)
      else
        bridgeChange app r.1 0x0005 0x0005 services.networkOnline.toUInt32
          last.networkOnline.toUInt32 services

/-- The first part of `application_runtime_bridge_service`: home is started
where nobody is active. -/
def bridgeOwner (m : Machine ω) (services : ServiceSnapshot) : Machine ω × Bool :=
  if m.runtime.activeId = 0 then runtimeStart app m idSystemHome (some services) else (m, true)

/-- The second: the application is told that the runtime is ready. -/
def bridgeReady (sent : Bool) (m : Machine ω) (services : ServiceSnapshot) : Machine ω × Bool :=
  if sent = false then
    bridgeDispatchEvent app m 0x0001 0x0001 m.runtime.activeId.toUInt32 0 services
  else (m, true)

/-- `application_runtime_bridge_service`, and what it returns. -/
def bridgeService (b : Bridge ω) (services : Option ServiceSnapshot) : Bridge ω × Bool :=
  match services with
  | none => (b, false)
  | some services =>
    if b.machine.runtime.initialized = false then (b, false)
    else
      let owner := bridgeOwner app b.machine services
      if owner.2 = false then ({ b with machine := owner.1 }, false)
      else
        let ready := bridgeReady app b.readyEventSent owner.1 services
        if ready.2 = false then ({ b with machine := ready.1 }, false)
        else
          let changes :=
            if b.serviceSnapshotValid = true then
              bridgeChanges app ready.1 b.lastServiceSnapshot services
            else (ready.1, true)
          if changes.2 = false then
            ({ b with machine := changes.1, readyEventSent := true }, false)
          else
            let served := runtimeService app changes.1 (some services)
            ({ machine := served.1
               lastServiceSnapshot := services
               serviceSnapshotValid := true
               readyEventSent := true }, served.2)

/-- The bridge after a list of snapshots. -/
def bridgeRun (b : Bridge ω) (snapshots : List ServiceSnapshot) : Bridge ω :=
  snapshots.foldl (fun b s => (bridgeService app b (some s)).1) b

end App

end DeusOs
