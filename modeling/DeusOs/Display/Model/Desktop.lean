import DeusOs.App.Model.Bridge
import DeusOs.Asset.Layout
import DeusOs.Display.Model.Ssd1306
import DeusOs.Display.Model.Ui

/-!
# The boot desktop

`boot_desktop_ui_render` of `kernel.c` and what decides it: the state of the
services (`system_service_state.c`), the snapshot that was last drawn, and the
view of the active application. It composes the display in full, or draws what
is marked, and presents it. What it reads of the clock, of the production tasks
and of USB is an argument.
-/

namespace DeusOs

namespace Display

/-- `boot_desktop_ui_state_t`. -/
inductive DesktopState
  | splash
  | home
  deriving DecidableEq

/-- `boot_desktop_ui_snapshot_t`. -/
structure DesktopSnapshot where
  state : DesktopState := .splash
  systemIndicator : UInt8 := 0
  usbIndicator : UInt8 := 0
  networkIndicator : UInt8 := 0
  totalMinutes : UInt32 := 0
  deriving DecidableEq

/-- `current_state` of `system_service_state.c`, and `uptime_saturated`. -/
structure ServiceState where
  current : App.ServiceSnapshot := ⟨0, 0, 0, 0, 0⟩
  uptimeSaturated : Bool := false

/-- `BOOT_DESKTOP_UI_SPLASH_MIN_MS`. -/
def splashMinMs : UInt32 := 1000

/-- `displayed_minute_from_uptime`, and whether the uptime is saturated then. -/
def displayedMinuteFromUptime (uptimeSaturated : Bool) (uptimeMs : UInt32) : UInt32 × Bool :=
  if uptimeSaturated = true ∨ 6000 ≤ uptimeMs / 60000 then (5999, true)
  else (uptimeMs / 60000, uptimeSaturated)

/-- `system_service_state_update`. -/
def ServiceState.update (s : ServiceState) (uptimeMs : UInt32)
    (systemHealthy usbConfigured networkOnline : UInt8) : ServiceState where
  current :=
    { uptimeMs := uptimeMs
      displayedMinute := (displayedMinuteFromUptime s.uptimeSaturated uptimeMs).1
      systemHealthy := if systemHealthy ≠ 0 then 1 else 0
      usbConfigured := if usbConfigured ≠ 0 then 1 else 0
      networkOnline := if networkOnline ≠ 0 then 1 else 0 }
  uptimeSaturated := (displayedMinuteFromUptime s.uptimeSaturated uptimeMs).2

/-- What one call reads, in its order: `boot_desktop_ui_runtime_ready` and
`kernel_time_now` twice, `usb_management_is_configured`, and the clock once
more where the splash is first shown. -/
structure Readings where
  ready : Bool
  now : UInt32
  refreshNow : UInt32
  refreshReady : Bool
  usbConfigured : Bool
  shownNow : UInt32

/-- The static variables of the desktop, with the display, the application
runtime and the active layout that it uses. -/
structure Desktop (ω : Type) where
  ui : Ui
  driver : Ssd1306
  apps : App.Bridge ω
  services : ServiceState := {}
  state : DesktopState := .splash
  splashStartedAt : UInt32 := 0
  splashVisible : Bool := false
  initialized : Bool := false
  snapshotValid : Bool := false
  panelInitialized : Bool := false
  layoutRevision : UInt32 := 0
  lastSnapshot : DesktopSnapshot := {}
  activeLayout : Asset.Layout

/-- `init_packet` of `ssd1306_init`. -/
def ssd1306InitPacket : List UInt8 :=
  [controlCmd, 0xAE, 0xD5, 0x80, 0xA8, 0x1F, 0xD3, 0x00, 0x40, 0x8D, 0x14, 0x20, 0x00, 0xA1, 0xC8,
    0xDA, 0x02, 0x81, 0xCF, 0xD9, 0xF1, 0xDB, 0x40, 0xA4, 0xA6]

/-- `ssd1306_init`. -/
def ssd1306Init (d : Ssd1306) : Ssd1306 × Bool := i2c1Write d ssd1306InitPacket

/-- `ssd1306_display_on`. -/
def ssd1306DisplayOn (d : Ssd1306) : Ssd1306 × Bool := i2c1Write d [controlCmd, 0xAF]

/-- The display is switched on, where that is required. -/
def switchOn (required : Bool) (d : Ssd1306) : Ssd1306 × Bool :=
  if required = true then ssd1306DisplayOn d else (d, true)

/-- What `boot_desktop_ui_render` writes to the console of the splash. -/
def splashConsole (console : OledConsole) : OledConsole :=
  ((console.clear.writeLine [0x44, 0x45, 0x55, 0x53, 0x20, 0x4F, 0x53]).writeLine
    [0x53, 0x54, 0x41, 0x52, 0x54, 0x49, 0x4E, 0x47]).write
    [0x50, 0x4C, 0x45, 0x41, 0x53, 0x45, 0x20, 0x57, 0x41, 0x49, 0x54]

/-- The status bar is set to a snapshot. -/
def DesktopSnapshot.setStatus (snapshot : DesktopSnapshot) (status : OledStatusBar) :
    OledStatusBar :=
  (status.setIndicators snapshot.systemIndicator.toUInt32 snapshot.usbIndicator.toUInt32
    snapshot.networkIndicator.toUInt32).setTime (snapshot.totalMinutes / 60)
      (snapshot.totalMinutes % 60)

namespace Desktop

variable {ω : Type} (app : App.Index → App.Callbacks ω)

/-- `oled_ui_layout_active`. -/
def layout (s : Desktop ω) : OledUiLayout := s.activeLayout.active

/-- `oled_ui_layout_revision`. -/
def activeLayoutRevision (s : Desktop ω) : UInt32 := UInt32.ofNat s.activeLayout.revision

/-- `boot_desktop_ui_initialize`. -/
def uiInitialize (s : Desktop ω) : Desktop ω :=
  { s with
    state := .splash
    splashStartedAt := 0
    splashVisible := false
    snapshotValid := false
    panelInitialized := false
    layoutRevision := s.activeLayoutRevision
    services := {}
    ui := { s.ui with status := .init }
    initialized := true }

/-- `boot_desktop_ui_update_state`. -/
def updateState (t : Readings) (s : Desktop ω) : Desktop ω :=
  if s.initialized = true ∧ s.state = .splash ∧ s.splashVisible = true ∧ t.ready = true ∧
      splashMinMs ≤ t.now - s.splashStartedAt then { s with state := .home }
  else s

/-- `system_service_state_refresh`. -/
def refresh (t : Readings) (s : Desktop ω) : Desktop ω :=
  { s with
    services := s.services.update t.refreshNow (if t.refreshReady = true then 1 else 0)
      (if t.usbConfigured = true then 1 else 0) 0 }

/-- `boot_desktop_ui_snapshot_build`. -/
def snapshotBuild (s : Desktop ω) : DesktopSnapshot where
  state := s.state
  systemIndicator := if s.services.current.systemHealthy ≠ 0 then 1 else 0
  usbIndicator := if s.services.current.usbConfigured ≠ 0 then 1 else 0
  networkIndicator := if s.services.current.networkOnline ≠ 0 then 1 else 0
  totalMinutes := s.services.current.displayedMinute

/-- `boot_desktop_ui_application_service`, which hands the services on. -/
def applicationService (snapshot : DesktopSnapshot) (s : Desktop ω) : Desktop ω × Bool :=
  if snapshot.state ≠ .home then (s, true)
  else
    ({ s with apps := (App.bridgeService app s.apps (some s.services.current)).1 },
      (App.bridgeService app s.apps (some s.services.current)).2)

/-- `boot_desktop_ui_application_snapshot_current`. -/
def applicationSnapshotCurrent (t : Readings) (s : Desktop ω) :
    Desktop ω × Option App.ServiceSnapshot :=
  if s.state ≠ .home ∨ s.apps.machine.runtime.initialized = false then (s, none)
  else (s.refresh t, some (s.refresh t).services.current)

/-- `application_runtime_view_get`. -/
def viewGet (s : Desktop ω) : Option App.View :=
  if s.apps.machine.runtime.activeId = 0 then none else some s.apps.machine.runtime.view

/-- `application_runtime_view_consumed`. -/
def viewConsumed (apps : App.Bridge ω) : App.Bridge ω :=
  { apps with machine := { apps.machine with
      runtime := { apps.machine.runtime with viewDirty := false } } }

/-- Where `boot_desktop_ui_render` has nothing to draw. -/
def upToDate (force : Bool) (snapshot : DesktopSnapshot) (s : Desktop ω) : Bool :=
  !force && s.snapshotValid && !s.apps.machine.runtime.viewDirty &&
    decide (s.layoutRevision = s.activeLayoutRevision) && decide (snapshot = s.lastSnapshot)

/-- The panel is initialised where it was not, or was lost. -/
def openPanel (s : Desktop ω) : Desktop ω × Bool :=
  if s.panelInitialized = true then (s, true)
  else
    ({ s with driver := (ssd1306Init s.driver).1, panelInitialized := (ssd1306Init s.driver).2 },
      (ssd1306Init s.driver).2)

/-- The status bar is set, and drawn: on a cleared framebuffer where the
display is composed in full. -/
def composeStatus (full : Bool) (snapshot : DesktopSnapshot) (s : Desktop ω) : Desktop ω :=
  let status := snapshot.setStatus s.ui.status
  let ui : Ui :=
    if full = true then
      { s.ui with status := status.markAllDirty, fb := s.ui.fb.clear.markAllDirty }
    else { s.ui with status := status }
  { s with ui := ui.renderStatus s.layout.statusRect.clip }

/-- The console is drawn, and whether every row of it fits. -/
def drawConsole (s : Desktop ω) : Desktop ω × Bool :=
  let ui := s.ui.renderConsole s.layout.consoleRect.clip
  ({ s with ui := ui }, decide (ui.console.dirtyRows = 0))

/-- What is below the status bar: the splash, or the view of the application. -/
def composeBody (full : Bool) (snapshot : DesktopSnapshot) (s : Desktop ω) : Desktop ω × Bool :=
  match snapshot.state with
  | .splash =>
    if full = true then
      { s with ui := { s.ui with console := splashConsole s.ui.console } }.drawConsole
    else (s, true)
  | .home =>
    if full = true ∨ s.apps.machine.runtime.viewDirty = true then
      match s.viewGet with
      | none => (s, false)
      | some view =>
        let console := s.ui.console.applyView (some view) (if full = true then 1 else 0)
        { s with ui := { s.ui with console := console } }.drawConsole
    else (s, true)

/-- What was drawn is remembered, and the view consumed that was. -/
def remember (snapshot : DesktopSnapshot) (t : Readings) (s : Desktop ω) : Desktop ω :=
  { s with
    apps := if snapshot.state = .home then viewConsumed s.apps else s.apps
    splashStartedAt :=
      if snapshot.state = .splash ∧ s.splashVisible = false then t.shownNow else s.splashStartedAt
    splashVisible :=
      if snapshot.state = .splash ∧ s.splashVisible = false then true else s.splashVisible
    lastSnapshot := snapshot
    layoutRevision := s.activeLayoutRevision
    snapshotValid := true }

/-- The framebuffer is presented, and the display switched on where its panel
was initialised. -/
def finish (enable : Bool) (snapshot : DesktopSnapshot) (t : Readings) (s : Desktop ω) :
    Desktop ω × Bool :=
  let presented := present s.ui.fb s.driver
  let s := { s with ui := { s.ui with fb := presented.1 }, driver := presented.2.1 }
  if presented.2.2 = false then
    ({ s with panelInitialized := false, snapshotValid := false }, false)
  else if s.ui.fb.dirtyPages ≠ 0 then ({ s with snapshotValid := false }, false)
  else
    let on := switchOn enable s.driver
    if on.2 = false then
      ({ s with driver := on.1, panelInitialized := false, snapshotValid := false }, false)
    else (remember snapshot t { s with driver := on.1 }, true)

/-- The beginning of `boot_desktop_ui_render`: the state and the services. -/
def beginRender (t : Readings) (s : Desktop ω) : Desktop ω :=
  ((if s.initialized = false then s.uiInitialize else s).updateState t).refresh t

/-- The end, where there is something to draw. -/
def draw (force : Bool) (snapshot : DesktopSnapshot) (t : Readings) (s : Desktop ω) :
    Desktop ω × Bool :=
  if oledUiLayoutValidate s.layout = false then (s, false)
  else
    let panel := s.openPanel
    if panel.2 = false then (panel.1, false)
    else
      let full := !s.panelInitialized || force || !s.snapshotValid ||
        decide (snapshot.state ≠ s.lastSnapshot.state)
      let body := (panel.1.composeStatus full snapshot).composeBody full snapshot
      if body.2 = false then ({ body.1 with snapshotValid := false }, false)
      else body.1.finish (!s.panelInitialized) snapshot t

/-- `boot_desktop_ui_render`, and what it returns. -/
def render (force : Bool) (t : Readings) (s : Desktop ω) : Desktop ω × Bool :=
  let s := s.beginRender t
  let snapshot := s.snapshotBuild
  let serviced := s.applicationService app snapshot
  if serviced.2 = false then (serviced.1, false)
  else if serviced.1.upToDate force snapshot = true then (serviced.1, true)
  else serviced.1.draw force snapshot t

/-- What happens: `boot_desktop_ui_service`, or `oled_runtime_ui_show` where it is
forced; the commands that start and stop an application; and the commit of a
layout, which activates its payload. The commands that draw pictures of their
own on the same display (`oledtext`, `oledconsole` and the tests) are not among
them. -/
inductive Event
  | render (force : Bool) (t : Readings)
  | start (t : Readings) (id : UInt16)
  | stop (t : Readings)
  | activate (payload : List UInt8)

def step (s : Desktop ω) : Event → Desktop ω
  | .render force t => (s.render app force t).1
  | .start t id =>
    let current := s.applicationSnapshotCurrent t
    { current.1 with apps := { current.1.apps with
        machine := (App.runtimeStart app current.1.apps.machine id current.2).1 } }
  | .stop t =>
    let current := s.applicationSnapshotCurrent t
    { current.1 with apps := { current.1.apps with
        machine := (App.runtimeStop app current.1.apps.machine current.2).1 } }
  | .activate payload => { s with activeLayout := Asset.layoutActivate payload s.activeLayout }

/-- Whether the layout stays. -/
def Event.keepsLayout : Event → Bool
  | .activate _ => false
  | _ => true

/-- What has happened. -/
def run (s : Desktop ω) (events : List Event) : Desktop ω := events.foldl (step app) s

/-- The desktop as `kernel_main` leaves it, before it is first rendered: the
framebuffer is clean, whatever the display holds. -/
def boot (status : OledStatusBar) (console : OledConsole) (storage : Nor.Mem) (driver : Ssd1306)
    (apps : App.Bridge ω) (layout : Asset.Layout) : Desktop ω where
  ui := ⟨status, console.clear, MonoFb.init storage ssd1306Width ssd1306Height⟩
  driver := driver
  apps := apps
  activeLayout := layout

end Desktop

end Display

end DeusOs
