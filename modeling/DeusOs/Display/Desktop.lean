import DeusOs.App.Views
import DeusOs.Display.Content

/-!
# The desktop — what is on the display

The desktop draws what has changed. Whatever it drew before, whatever the
applications were asked, and however the bus failed in between, after a render
that succeeds the display holds what a composition of the present snapshot and
view draws on a dark display (`desktop_shown`). A layout that is activated in
between is on the display after the next render that is forced
(`layout_shown`), and after no other where nothing else has changed
(`layout_unnoticed`).
-/

namespace DeusOs

namespace Display

open App (KeepsView View)
open StatusItem (content)

variable {ω : Type} {app : App.Index → App.Callbacks ω} {s s' : Desktop ω} {t : Readings}
  {snapshot : DesktopSnapshot} {force full : Bool}

/-! ## A composition in full -/

/-- What a desktop draws on a dark display. -/
def composition (layout : OledUiLayout) (snapshot : DesktopSnapshot) (view : View) : Ui :=
  Ui.renderConsole layout.consoleRect.clip (Ui.renderStatus layout.statusRect.clip
    { status := (snapshot.setStatus .init).markAllDirty
      console := bodyConsole snapshot.state view
      fb := MonoFb.init (fun _ => 0) ssd1306Width ssd1306Height })

theorem allRows_bodyConsole (state : DesktopState) (view : View) :
    ∀ row < consoleRows, (bodyConsole state view).dirtyRows.getLsbD row = true := by
  cases state with
  | splash => exact fun row hrow => allRows_splashConsole _ hrow
  | home => exact fun row hrow => allRows_applyView _ view hrow

theorem picture_init : (MonoFb.init (fun _ => 0) ssd1306Width ssd1306Height).picture =
    fun _ => false := by
  funext p
  rw [MonoFb.picture, Bool.and_eq_false_iff]
  exact Or.inr BitVec.getLsbD_zero

section

variable {layout : OledUiLayout} (hvalid : oledUiLayoutValidate layout = true)
  (hfit : layout.consoleRect.FitsInt32)

include hvalid hfit

theorem composed_composition (snapshot : DesktopSnapshot) (view : View) :
    Composed layout.statusRect.clip layout.consoleRect.clip (composition layout snapshot view) := by
  obtain ⟨hwidth, hheight, hdisjoint⟩ := clips_of_validate hvalid hfit
  have hr := inRange_markAllDirty (inRange_setStatus snapshot inRange_init)
  obtain ⟨hsync, hdark⟩ := synced_fresh hwidth hheight hdisjoint
    ⟨(snapshot.setStatus .init).markAllDirty, bodyConsole snapshot.state view,
      MonoFb.init (fun _ => 0) ssd1306Width ssd1306Height⟩ picture_init hr
    (statusDirtyAll_getLsbD 0 (by omega)) (allRows_bodyConsole snapshot.state view)
  refine composed_renderConsole hwidth hheight hdisjoint hsync hdark ?_
  rw [status_renderStatus hwidth hheight]

theorem size_composition (snapshot : DesktopSnapshot) (view : View) :
    DisplaySize (composition layout snapshot view).fb := by
  obtain ⟨hwidth, hheight, -⟩ := clips_of_validate hvalid hfit
  refine DisplaySize.of_same ⟨rfl, rfl⟩ (MonoFb.SameSize.trans
    (sameSize_renderStatus hwidth hheight ⟨(snapshot.setStatus .init).markAllDirty,
      bodyConsole snapshot.state view, MonoFb.init (fun _ => 0) ssd1306Width ssd1306Height⟩) ?_)
  show MonoFb.SameSize _ (OledConsole.render _ _ _).2
  rw [(render_eq _ _ _).1]
  exact MonoFb.sameSize_setPixels _ _

/-- A display that holds a snapshot and a view draws what their composition
draws. -/
theorem drawing_composition {ui : Ui} {view : View}
    (hcontent : ∀ item : StatusItem, item.content ui.status =
      item.content (snapshot.setStatus .init))
    (hbody : HoldsBody snapshot.state view ui.console) :
    drawing layout.statusRect.clip layout.consoleRect.clip ui =
      drawing layout.statusRect.clip layout.consoleRect.clip
        (composition layout snapshot view) := by
  obtain ⟨hwidth, hheight, -⟩ := clips_of_validate hvalid hfit
  refine drawing_congr (fun item => (hcontent item).trans ?_) fun row hrow column hcolumn => ?_
  · rw [composition, status_renderConsole, status_renderStatus hwidth hheight]
    exact ((content_marked item _ 0 0).trans (content_markAllDirty item _)).symm
  · rw [hbody row hrow column hcolumn, composition, row_renderConsole, console_renderStatus]

end

/-! ## The invariant -/

/-- The coordinates of the active layout are bytes. -/
theorem Desktop.fitsInt32 (s : Desktop ω) : s.layout.consoleRect.FitsInt32 := by
  have hy := s.activeLayout.y.toNat_lt
  have hheight := s.activeLayout.height.toNat_lt
  refine ⟨?_, ?_⟩
  · show (s.activeLayout.y.toNat : ℤ) < 2147483648
    omega
  · show (s.activeLayout.height.toNat : ℤ) < 2147483648
    omega

/-- The display holds a snapshot, and at home the view unless that is marked. -/
structure Holds (snapshot : DesktopSnapshot) (s : Desktop ω) : Prop where
  layout : oledUiLayoutValidate s.layout = true
  reached : Reached s.ui.fb s.driver
  clean : ∀ page < ssd1306Pages, s.ui.fb.dirtyPages.getLsbD page = false
  composed : Composed s.layout.statusRect.clip s.layout.consoleRect.clip s.ui
  status : ∀ item : StatusItem, item.content s.ui.status =
    item.content (snapshot.setStatus .init)
  body : (snapshot.state = .home → s.apps.machine.runtime.viewDirty = false) →
    HoldsBody snapshot.state s.apps.machine.runtime.view s.ui.console

/-- **What holds between two renders**: where the layout is the one that was drawn,
the display holds the last snapshot. -/
structure Inv (drawn : Prop) (s : Desktop ω) : Prop where
  size : DisplaySize s.ui.fb
  time : s.initialized = true → InRange s.ui.status
  holds : drawn → s.snapshotValid = true → Holds s.lastSnapshot s

theorem Inv.mono {drawn drawn' : Prop} (h : Inv drawn s) (hless : drawn' → drawn) : Inv drawn' s :=
  ⟨h.size, h.time, fun hd => h.holds (hless hd)⟩

/-- **A display that holds a snapshot and the view shows their composition.** At
home the view must not be marked, or the display may hold an older one. -/
theorem Holds.shown (h : Holds snapshot s)
    (hview : snapshot.state = .home → s.apps.machine.runtime.viewDirty = false) {page x : ℕ}
    (hpage : page < ssd1306Pages) (hx : x < ssd1306Width) :
    s.driver.panel.ram page x =
      (composition s.layout snapshot s.apps.machine.runtime.view).fb.pixels page x := by
  rw [h.reached.ram_eq h.clean hpage hx]
  exact (composed_composition h.layout s.fitsInt32 snapshot _).pixels_eq h.composed
    (size_composition h.layout s.fitsInt32 snapshot _) ⟨h.reached.width, h.reached.height⟩
    (drawing_composition h.layout s.fitsInt32 h.status (h.body hview)) hpage hx

/-- What touches only the services, the state and the applications. -/
theorem Inv.of_keeps {drawn : Prop} (h : Inv drawn s) (hui : s'.ui = s.ui)
    (hdriver : s'.driver = s.driver)
    (hlast : s'.lastSnapshot = s.lastSnapshot) (hvalid : s'.snapshotValid = s.snapshotValid)
    (hlayout : s'.layout = s.layout) (hinit : s'.initialized = s.initialized)
    (hview : KeepsView s.apps.machine s'.apps.machine) : Inv drawn s' := by
  refine ⟨hui ▸ h.size, fun hi => hui ▸ h.time (hinit ▸ hi), fun hd hv => ?_⟩
  have hold := h.holds hd (hvalid ▸ hv)
  refine ⟨hlayout ▸ hold.layout, ?_, hui ▸ hold.clean, ?_, ?_, fun hclean => ?_⟩
  · rw [hui, hdriver]
    exact hold.reached
  · rw [hui, hlayout]
    exact hold.composed
  · rw [hui, hlast]
    exact hold.status
  · rw [hlast] at hclean ⊢
    rw [hui]
    cases hstate : s.lastSnapshot.state with
    | splash =>
      have hbody := hold.body fun hhome => by rw [hstate] at hhome; cases hhome
      rw [hstate] at hbody
      exact hbody
    | home =>
      obtain ⟨hclean', hsame⟩ := hview (hclean hstate)
      have hbody := hold.body fun _ => hclean'
      rw [hstate] at hbody
      rw [hsame]
      exact hbody

/-! ## Beginning a render -/

/-- The beginning of a render keeps the invariant, and the layout. -/
theorem Inv.beginRender {drawn : Prop} (h : Inv drawn s) (t : Readings) :
    Inv drawn (s.beginRender t) ∧ (s.beginRender t).initialized = true ∧
      (s.beginRender t).layout = s.layout := by
  have hstate : ∀ s : Desktop ω, Inv drawn s → s.initialized = true →
      Inv drawn ((s.updateState t).refresh t) ∧ ((s.updateState t).refresh t).initialized = true ∧
        ((s.updateState t).refresh t).layout = s.layout := by
    intro s h hi
    unfold Desktop.updateState
    split
    · exact ⟨h.of_keeps rfl rfl rfl rfl rfl rfl (.refl _), hi, rfl⟩
    · exact ⟨h.of_keeps rfl rfl rfl rfl rfl rfl (.refl _), hi, rfl⟩
  unfold Desktop.beginRender
  by_cases hi : s.initialized = false
  · rw [if_pos hi]
    exact hstate s.uiInitialize ⟨h.size, fun _ => inRange_init, fun _ hv => Bool.noConfusion hv⟩ rfl
  · rw [if_neg hi]
    exact hstate s h (Bool.not_eq_false _ ▸ hi)

/-! ## Drawing -/

/-- The status bar is drawn, and a console may take its place below it. -/
structure Ready (snapshot : DesktopSnapshot) (c : OledConsole) (s : Desktop ω) : Prop where
  size : DisplaySize s.ui.fb
  reached : Reached s.ui.fb s.driver
  synced : Synced s.layout.statusRect.clip s.layout.consoleRect.clip { s.ui with console := c }
  dark : Dark s.layout.statusRect.clip s.layout.consoleRect.clip { s.ui with console := c }
  items : s.ui.status.dirty = 0
  status : ∀ item : StatusItem, item.content s.ui.status =
    item.content (snapshot.setStatus .init)

/-- A framebuffer of the right size, with a status bar that can be drawn. -/
def Sound (s : Desktop ω) : Prop := DisplaySize s.ui.fb ∧ InRange s.ui.status

/-- The framebuffer holds the snapshot and the view. -/
structure Painted (snapshot : DesktopSnapshot) (s : Desktop ω) : Prop where
  size : DisplaySize s.ui.fb
  reached : Reached s.ui.fb s.driver
  composed : Composed s.layout.statusRect.clip s.layout.consoleRect.clip s.ui
  status : ∀ item : StatusItem, item.content s.ui.status =
    item.content (snapshot.setStatus .init)
  body : HoldsBody snapshot.state s.apps.machine.runtime.view s.ui.console

section

variable (hvalid : oledUiLayoutValidate s.layout = true)

include hvalid

theorem content_composeStatus (full : Bool) (snapshot : DesktopSnapshot) :
    (s.composeStatus full snapshot).ui.status.dirty = 0 ∧
      ∀ item : StatusItem, item.content (s.composeStatus full snapshot).ui.status =
        item.content (snapshot.setStatus .init) := by
  obtain ⟨hwidth, hheight, -⟩ := clips_of_validate hvalid s.fitsInt32
  unfold Desktop.composeStatus
  dsimp only
  rw [status_renderStatus hwidth hheight]
  refine ⟨rfl, fun item => ?_⟩
  rw [content_marked, ← content_setStatus snapshot s.ui.status .init item]
  cases full with
  | true => exact content_markAllDirty item _
  | false => rfl

/-- **Composed in full, a console of which every row is marked may follow.** -/
theorem ready_full (snapshot : DesktopSnapshot) (hsize : DisplaySize s.ui.fb)
    (hr : InRange s.ui.status) (c : OledConsole)
    (hall : ∀ row < consoleRows, c.dirtyRows.getLsbD row = true) :
    Ready snapshot c (s.composeStatus true snapshot) := by
  obtain ⟨hwidth, hheight, hdisjoint⟩ := clips_of_validate hvalid s.fitsInt32
  obtain ⟨hitems, hcontent⟩ := content_composeStatus hvalid true snapshot
  have hfresh := fresh_clear hsize
  obtain ⟨hsync, hdark⟩ := synced_fresh hwidth hheight hdisjoint
    ⟨(snapshot.setStatus s.ui.status).markAllDirty, c, s.ui.fb.clear.markAllDirty⟩
    hfresh.picture (inRange_markAllDirty (inRange_setStatus snapshot hr))
    (statusDirtyAll_getLsbD 0 (by omega)) hall
  have hreached : Reached (s.composeStatus true snapshot).ui.fb s.driver :=
    Reached.renderStatus hwidth hheight (hfresh.reached s.driver)
  exact ⟨⟨hreached.width, hreached.height⟩, hreached, hsync, hdark, hitems, hcontent⟩

/-- **Drawn in part, the display stays composed.** Only what changed is drawn,
over what was shown. -/
theorem composed_part (snapshot : DesktopSnapshot) (hreached : Reached s.ui.fb s.driver)
    (hcomposed : Composed s.layout.statusRect.clip s.layout.consoleRect.clip s.ui) :
    Composed s.layout.statusRect.clip s.layout.consoleRect.clip
        (s.composeStatus false snapshot).ui ∧
      Reached (s.composeStatus false snapshot).ui.fb s.driver := by
  obtain ⟨hwidth, hheight, hdisjoint⟩ := clips_of_validate hvalid s.fitsInt32
  have hr := inRange_setStatus snapshot hcomposed.synced.time
  have hset : Reached ({ s.ui with status := snapshot.setStatus s.ui.status } : Ui).fb s.driver :=
    hreached
  exact ⟨hcomposed.renderStatus hwidth hheight hdisjoint (marks_setStatus snapshot _) hr,
    hset.renderStatus hwidth hheight⟩

/-- **The console is drawn**, and what was ready is painted. -/
theorem Ready.drawConsole {c : OledConsole} (h : Ready snapshot c s)
    (hbody : HoldsBody snapshot.state s.apps.machine.runtime.view c) :
    Painted snapshot ({ s with ui := { s.ui with console := c } } : Desktop ω).drawConsole.1 := by
  obtain ⟨hwidth, hheight, hdisjoint⟩ := clips_of_validate hvalid s.fitsInt32
  have hreached : Reached (Ui.renderConsole s.layout.consoleRect.clip
      { s.ui with console := c }).fb s.driver := Reached.renderConsole h.reached
  exact ⟨⟨hreached.width, hreached.height⟩, hreached,
    composed_renderConsole hwidth hheight hdisjoint h.synced h.dark h.items, h.status,
    hbody.render _ _⟩

end

/-- What a render leaves alone once the applications were served. -/
structure SameBase (s s' : Desktop ω) : Prop where
  state : s'.state = s.state
  services : s'.services = s.services
  layout : s'.layout = s.layout
  initialized : s'.initialized = s.initialized

theorem SameBase.refl (s : Desktop ω) : SameBase s s := ⟨rfl, rfl, rfl, rfl⟩

theorem SameBase.trans {s'' : Desktop ω} (h : SameBase s s') (h' : SameBase s' s'') :
    SameBase s s'' :=
  ⟨h'.state.trans h.state, h'.services.trans h.services, h'.layout.trans h.layout,
    h'.initialized.trans h.initialized⟩

theorem sameBase_composeBody (full : Bool) (snapshot : DesktopSnapshot) (s : Desktop ω) :
    SameBase s (s.composeBody full snapshot).1 := by
  unfold Desktop.composeBody
  split
  · split
    · exact ⟨rfl, rfl, rfl, rfl⟩
    · exact .refl s
  · split
    · split
      · exact .refl s
      · exact ⟨rfl, rfl, rfl, rfl⟩
    · exact .refl s

theorem sameBase_finish (enable : Bool) (snapshot : DesktopSnapshot) (t : Readings)
    (s : Desktop ω) : SameBase s (s.finish enable snapshot t).1 := by
  unfold Desktop.finish
  dsimp only
  split
  · exact ⟨rfl, rfl, rfl, rfl⟩
  · split
    · exact ⟨rfl, rfl, rfl, rfl⟩
    · split
      · exact ⟨rfl, rfl, rfl, rfl⟩
      · exact ⟨rfl, rfl, rfl, rfl⟩

/-- The panel is opened, which stores nothing. -/
theorem openPanel_spec (s : Desktop ω) :
    SameBase s s.openPanel.1 ∧ s.openPanel.1.ui = s.ui ∧ s.openPanel.1.apps = s.apps ∧
      s.openPanel.1.lastSnapshot = s.lastSnapshot ∧
      s.openPanel.1.snapshotValid = s.snapshotValid ∧
      s.openPanel.1.driver.panel.ram = s.driver.panel.ram := by
  have hram : (ssd1306Init s.driver).1.panel.ram = s.driver.panel.ram := by
    unfold ssd1306Init i2c1Write
    cases s.driver.transfers 0 with
    | done => rfl
    | failed stored window pointer => rfl
  unfold Desktop.openPanel
  split
  · exact ⟨.refl s, rfl, rfl, rfl, rfl, rfl⟩
  · exact ⟨⟨rfl, rfl, rfl, rfl⟩, rfl, rfl, rfl, rfl, hram⟩

/-- What was reached does not depend on the panel's commands. -/
theorem Reached.driver {fb : MonoFb} {d d' : Ssd1306} (h : Reached fb d)
    (hram : d'.panel.ram = d.panel.ram) : Reached fb d' := by
  refine ⟨h.width, h.height, h.tidy, ?_⟩
  rw [hram]
  exact h.covers

/-- **What is painted is presented:** a render that succeeds holds the snapshot,
and one that fails leaves none. -/
theorem Sound.finish {drawn : Prop} (h : Sound s) (hpainted : drawn → Painted snapshot s)
    (hvalid : oledUiLayoutValidate s.layout = true) (enable : Bool) (t : Readings) :
    Inv drawn (s.finish enable snapshot t).1 ∧ ((s.finish enable snapshot t).2 = true →
      (s.finish enable snapshot t).1.snapshotValid = true ∧
      (s.finish enable snapshot t).1.lastSnapshot = snapshot ∧
      (snapshot.state = .home →
        (s.finish enable snapshot t).1.apps.machine.runtime.viewDirty = false)) := by
  obtain ⟨hsize, htime⟩ := h
  obtain ⟨hpicture, hsame⟩ := picture_present s.ui.fb s.driver
  replace hsize := hsize.of_same hsame
  have hon : (switchOn enable (present s.ui.fb s.driver).2.1).1.panel.ram =
      (present s.ui.fb s.driver).2.1.panel.ram := by
    unfold switchOn
    split
    · unfold ssd1306DisplayOn i2c1Write
      cases (present s.ui.fb s.driver).2.1.transfers 0 with
      | done => rfl
      | failed stored window pointer => rfl
    · rfl
  unfold Desktop.finish
  dsimp only
  by_cases hok : (present s.ui.fb s.driver).2.2 = false
  · rw [if_pos hok]
    exact ⟨⟨hsize, fun _ => htime, fun _ hv => Bool.noConfusion hv⟩,
      fun hv => Bool.noConfusion hv⟩
  rw [if_neg hok]
  by_cases hdirty : (present s.ui.fb s.driver).1.dirtyPages ≠ 0
  · rw [if_pos hdirty]
    exact ⟨⟨hsize, fun _ => htime, fun _ hv => Bool.noConfusion hv⟩,
      fun hv => Bool.noConfusion hv⟩
  rw [if_neg hdirty]
  by_cases hlit : (switchOn enable (present s.ui.fb s.driver).2.1).2 = false
  · rw [if_pos hlit]
    exact ⟨⟨hsize, fun _ => htime, fun _ hv => Bool.noConfusion hv⟩,
      fun hv => Bool.noConfusion hv⟩
  rw [if_neg hlit]
  have hview : ((if snapshot.state = .home then Desktop.viewConsumed s.apps else
      s.apps).machine.runtime.view) = s.apps.machine.runtime.view := by
    split <;> rfl
  refine ⟨⟨hsize, fun _ => htime, fun hd _ => ?_⟩, fun _ => ⟨rfl, rfl, fun hhome => ?_⟩⟩
  · have hp := hpainted hd
    obtain ⟨hreached, hclean⟩ := hp.reached.present
    refine ⟨hvalid, hreached.driver hon, hclean (Bool.not_eq_false _ ▸ hok),
      hp.composed.framebuffer hsame hpicture, hp.status, fun _ => ?_⟩
    show HoldsBody snapshot.state (if snapshot.state = .home then Desktop.viewConsumed s.apps else
      s.apps).machine.runtime.view s.ui.console
    rw [hview]
    exact hp.body
  · show (if snapshot.state = .home then Desktop.viewConsumed s.apps else
      s.apps).machine.runtime.viewDirty = false
    rw [if_pos hhome]
    rfl

theorem viewGet_eq {view : View} (h : s.viewGet = some view) :
    view = s.apps.machine.runtime.view := by
  unfold Desktop.viewGet at h
  split at h
  · cases h
  · exact (Option.some.inj h).symm

section

variable (hvalid : oledUiLayoutValidate s.layout = true)

include hvalid

/-- **Whatever is composed, the display stays sound,** even where the console
does not fit and the render gives up. -/
theorem Sound.compose (h : Sound s) (full : Bool) (snapshot : DesktopSnapshot) :
    Sound ((s.composeStatus full snapshot).composeBody full snapshot).1 := by
  obtain ⟨hwidth, hheight, -⟩ := clips_of_validate hvalid s.fitsInt32
  have hrender : ∀ ui : Ui, DisplaySize ui.fb → InRange ui.status →
      DisplaySize (ui.renderStatus s.layout.statusRect.clip).fb ∧
        InRange (ui.renderStatus s.layout.statusRect.clip).status := by
    intro ui hsize hr
    rw [status_renderStatus hwidth hheight]
    exact ⟨hsize.of_same (sameSize_renderStatus hwidth hheight ui), hr⟩
  have hset : Sound (s.composeStatus full snapshot) := by
    have hr := inRange_setStatus snapshot h.2
    cases full with
    | true =>
      have hfresh := (fresh_clear h.1).reached s.driver
      exact hrender ⟨(snapshot.setStatus s.ui.status).markAllDirty, s.ui.console,
        s.ui.fb.clear.markAllDirty⟩ ⟨hfresh.width, hfresh.height⟩ (inRange_markAllDirty hr)
    | false => exact hrender ⟨snapshot.setStatus s.ui.status, s.ui.console, s.ui.fb⟩ h.1 hr
  obtain ⟨s₁, hs₁⟩ : ∃ s₁, s₁ = s.composeStatus full snapshot := ⟨_, rfl⟩
  rw [← hs₁] at hset ⊢
  have hdrawn : ∀ c,
      Sound ({ s₁ with ui := { s₁.ui with console := c } } : Desktop ω).drawConsole.1 := by
    intro c
    refine ⟨hset.1.of_same ?_, hset.2⟩
    show MonoFb.SameSize _ (OledConsole.render _ _ _).2
    rw [(render_eq _ _ _).1]
    exact MonoFb.sameSize_setPixels _ _
  unfold Desktop.composeBody
  split
  · split
    · exact hdrawn _
    · exact hset
  · split
    · split
      · exact hset
      · exact hdrawn _
    · exact hset

/-- **What is composed in full is painted**, from a display in any state, since
it is cleared first. -/
theorem painted_full (h : Sound s) (snapshot : DesktopSnapshot)
    (hok : ((s.composeStatus true snapshot).composeBody true snapshot).2 = true) :
    Painted snapshot ((s.composeStatus true snapshot).composeBody true snapshot).1 := by
  have hready := fun c hall => ready_full hvalid snapshot h.1 h.2 c hall
  obtain ⟨s₁, hs₁⟩ : ∃ s₁, s₁ = s.composeStatus true snapshot := ⟨_, rfl⟩
  have hlayout : s₁.layout = s.layout := by rw [hs₁]; rfl
  rw [← hs₁] at hready hok ⊢
  rw [← hlayout] at hvalid
  revert hok
  unfold Desktop.composeBody
  split
  · rename_i hstate
    rw [if_pos rfl]
    exact fun _ => (hready _ fun row hrow =>
      allRows_splashConsole s₁.ui.console hrow).drawConsole hvalid
        (by rw [hstate]; exact holdsBody_splash _ _)
  · rename_i hstate
    rw [if_pos (Or.inl rfl)]
    split
    · exact fun hok => Bool.noConfusion hok
    · rename_i view hview
      rw [if_pos rfl, viewGet_eq hview]
      exact fun _ => (hready _ fun row hrow => allRows_applyView s₁.ui.console
        s₁.apps.machine.runtime.view hrow).drawConsole hvalid
          (by rw [hstate]; exact holdsBody_home _ _ _)

/-- **So is what is composed in part**, from a display that held the snapshot
before and is in the same state. -/
theorem painted_part {last : DesktopSnapshot} (hold : Holds last s)
    (hsame : snapshot.state = last.state)
    (hok : ((s.composeStatus false snapshot).composeBody false snapshot).2 = true) :
    Painted snapshot ((s.composeStatus false snapshot).composeBody false snapshot).1 := by
  obtain ⟨hcomposed, hreached⟩ := composed_part hvalid snapshot hold.reached hold.composed
  obtain ⟨-, hcontent⟩ := content_composeStatus hvalid false snapshot
  have hbody := hold.body
  rw [← hsame] at hbody
  obtain ⟨s₁, hs₁⟩ : ∃ s₁, s₁ = s.composeStatus false snapshot := ⟨_, rfl⟩
  have hlayout : s₁.layout = s.layout := by rw [hs₁]; rfl
  have hdriver : s₁.driver = s.driver := by rw [hs₁]; rfl
  have happs : s₁.apps = s.apps := by rw [hs₁]; rfl
  have hconsole : s₁.ui.console = s.ui.console := by rw [hs₁]; rfl
  rw [← hs₁, ← hlayout] at hcomposed
  rw [← hs₁, ← hdriver] at hreached
  rw [← hs₁] at hcontent hok ⊢
  rw [← happs, ← hconsole] at hbody
  rw [← hlayout] at hvalid
  have hsize : DisplaySize s₁.ui.fb := ⟨hreached.width, hreached.height⟩
  have hkept : ∀ _ : HoldsBody snapshot.state s₁.apps.machine.runtime.view s₁.ui.console,
      Painted snapshot s₁ := fun hb => ⟨hsize, hreached, hcomposed, hcontent, hb⟩
  revert hok
  unfold Desktop.composeBody
  split
  · rename_i hstate
    rw [if_neg Bool.false_ne_true]
    exact fun _ => hkept (hbody fun hhome => by rw [hstate] at hhome; cases hhome)
  · rename_i hstate
    split
    · -- the view has changed, and is applied to the console as it is
      split
      · exact fun hok => Bool.noConfusion hok
      · rename_i view hview
        rw [if_neg Bool.false_ne_true, viewGet_eq hview]
        have hready : Ready snapshot
            (s₁.ui.console.applyView (some s₁.apps.machine.runtime.view) 0) s₁ :=
          ⟨hsize, hreached, hcomposed.synced.console (marks_applyView _ _ _),
            hcomposed.dark.draw hcomposed.synced.time hcomposed.synced.time (l := []) rfl
              fun q hq => absurd hq List.not_mem_nil, hcomposed.items, hcontent⟩
        exact fun _ => hready.drawConsole hvalid (by rw [hstate]; exact holdsBody_home _ _ _)
    · rename_i hclean
      exact fun _ => hkept (hbody fun _ => by
        rw [← Bool.not_eq_true]
        exact fun hdirty => hclean (Or.inr hdirty))

end

/-- What a render leaves: the invariant, and the snapshot it drew if it
succeeded; and where it was forced, this is of the layout as it is. -/
structure Rendered (drawn : Prop) (force : Bool) (snapshot : DesktopSnapshot)
    (r : Desktop ω × Bool) : Prop where
  inv : Inv drawn r.1
  last : r.2 = true → r.1.snapshotValid = true ∧ r.1.lastSnapshot = snapshot ∧
    (snapshot.state = .home → r.1.apps.machine.runtime.viewDirty = false)
  forced : r.2 = true → force = true → Inv True r.1

/-- A render that did nothing and failed keeps the invariant. -/
theorem Rendered.failed {drawn : Prop} (h : Inv drawn s) :
    Rendered drawn force snapshot (s, false) :=
  ⟨h, fun hok => Bool.noConfusion hok, fun hok => Bool.noConfusion hok⟩

/-- **Drawing keeps the invariant.** -/
theorem Inv.draw {drawn : Prop} (h : Inv drawn s) (hinit : s.initialized = true) (force : Bool)
    (snapshot : DesktopSnapshot) (t : Readings) :
    SameBase s (s.draw force snapshot t).1 ∧
      Rendered drawn force snapshot (s.draw force snapshot t) := by
  obtain ⟨hbase, hui, happs, hlast, hsnapshot, hram⟩ := openPanel_spec s
  have hpanel : Inv drawn s.openPanel.1 := by
    refine ⟨hui ▸ h.size, fun _ => hui ▸ h.time hinit, fun hd hv => ?_⟩
    have hold := h.holds hd (hsnapshot ▸ hv)
    rw [hlast]
    refine ⟨hbase.layout ▸ hold.layout, ?_, hui ▸ hold.clean, ?_, hui ▸ hold.status, ?_⟩
    · rw [hui]
      exact hold.reached.driver hram
    · rw [hui, hbase.layout]
      exact hold.composed
    · rw [hui, happs]
      exact hold.body
  have hsound : Sound s.openPanel.1 := ⟨hpanel.size, hpanel.time (hbase.initialized ▸ hinit)⟩
  unfold Desktop.draw
  dsimp only
  by_cases hvalid : oledUiLayoutValidate s.layout = false
  · rw [if_pos hvalid]
    exact ⟨.refl s, .failed h⟩
  rw [if_neg hvalid]
  rw [Bool.not_eq_false, ← hbase.layout] at hvalid
  by_cases hopen : s.openPanel.2 = false
  · rw [if_pos hopen]
    exact ⟨hbase, .failed hpanel⟩
  rw [if_neg hopen]
  obtain ⟨full, hfull⟩ : ∃ full, full = (!s.panelInitialized || force || !s.snapshotValid ||
    decide (snapshot.state ≠ s.lastSnapshot.state)) := ⟨_, rfl⟩
  have hforced : force = true → full = true := by
    intro hforce
    rw [hfull, hforce, Bool.or_true, Bool.true_or, Bool.true_or]
  rw [← hfull]
  have hbody : ((s.openPanel.1.composeStatus full snapshot).composeBody full snapshot).2 = true →
      drawn ∨ full = true → Painted snapshot
        ((s.openPanel.1.composeStatus full snapshot).composeBody full snapshot).1 := by
    intro hok hdrawn
    cases full with
    | true => exact painted_full hvalid hsound snapshot hok
    | false =>
      -- in part only where the last snapshot is on the display, in the same state
      have hparts := Bool.or_eq_false_iff.1 hfull.symm
      have hstate := not_not.1 (of_decide_eq_false hparts.2)
      have hkept : s.snapshotValid = true := by
        have hnot := (Bool.or_eq_false_iff.1 hparts.1).2
        rwa [Bool.not_eq_false'] at hnot
      exact painted_part hvalid (hpanel.holds (hdrawn.resolve_right Bool.false_ne_true)
        (hsnapshot ▸ hkept)) (hlast ▸ hstate) hok
  have hset : SameBase s (s.openPanel.1.composeStatus full snapshot) :=
    ⟨hbase.state, hbase.services, hbase.layout, hbase.initialized⟩
  have hsame := hset.trans (sameBase_composeBody full snapshot _)
  have hcomposed := hsound.compose hvalid full snapshot
  obtain ⟨r, hr⟩ : ∃ r, r = (s.openPanel.1.composeStatus full snapshot).composeBody full snapshot :=
    ⟨_, rfl⟩
  rw [← hr] at hbody hsame hcomposed ⊢
  by_cases hfits : r.2 = false
  · rw [if_pos hfits]
    exact ⟨⟨hsame.state, hsame.services, hsame.layout, hsame.initialized⟩,
      .failed ⟨hcomposed.1, fun _ => hcomposed.2, fun _ hv => Bool.noConfusion hv⟩⟩
  · rw [if_neg hfits]
    obtain ⟨hinv, hdrawn⟩ := hcomposed.finish (hbody (Bool.not_eq_false _ ▸ hfits))
      (hsame.layout ▸ hbase.layout ▸ hvalid) (!s.panelInitialized) t
    exact ⟨hsame.trans (sameBase_finish _ _ _ _), hinv.mono Or.inl, hdrawn,
      fun _ hforce => hinv.mono fun _ => Or.inr (hforced hforce)⟩

/-! ## Over a whole run -/

theorem snapshotBuild_congr (h : SameBase s s') : s'.snapshotBuild = s.snapshotBuild := by
  unfold Desktop.snapshotBuild
  rw [h.state, h.services]

variable (app)

/-- **A render keeps the invariant**, and is of what the desktop is then. -/
theorem Inv.render {drawn : Prop} (h : Inv drawn s) (force : Bool) (t : Readings) :
    Rendered drawn force (s.render app force t).1.snapshotBuild (s.render app force t) := by
  obtain ⟨hbegun, hinit, -⟩ := h.beginRender t
  obtain ⟨s₁, hs₁⟩ : ∃ s₁, s₁ = s.beginRender t := ⟨_, rfl⟩
  rw [← hs₁] at hbegun hinit
  obtain ⟨r, hr⟩ : ∃ r, r = s₁.applicationService app s₁.snapshotBuild := ⟨_, rfl⟩
  -- the applications are served, which leaves the display as it is
  have hserved : Inv drawn r.1 ∧ SameBase s₁ r.1 := by
    rw [hr]
    unfold Desktop.applicationService
    split
    · exact ⟨hbegun, .refl s₁⟩
    · exact ⟨hbegun.of_keeps rfl rfl rfl rfl rfl rfl (App.keeps_bridgeService app _ _),
        ⟨rfl, rfl, rfl, rfl⟩⟩
  have hsnapshot := snapshotBuild_congr hserved.2
  unfold Desktop.render
  dsimp only
  rw [← hs₁, ← hr]
  by_cases hok : r.2 = false
  · rw [if_pos hok]
    exact .failed hserved.1
  rw [if_neg hok]
  by_cases hcurrent : r.1.upToDate force s₁.snapshotBuild = true
  · rw [if_pos hcurrent]
    simp only [Desktop.upToDate, Bool.and_eq_true, decide_eq_true_iff,
      Bool.not_eq_true'] at hcurrent
    obtain ⟨⟨⟨⟨hforce, hvalid⟩, hview⟩, -⟩, hlast⟩ := hcurrent
    exact ⟨hserved.1, fun _ => ⟨hvalid, hlast.symm.trans hsnapshot.symm, fun _ => hview⟩,
      fun _ htrue => Bool.noConfusion (htrue.symm.trans hforce)⟩
  · rw [if_neg hcurrent]
    obtain ⟨hbase, hdrawn⟩ := hserved.1.draw (hserved.2.initialized.trans hinit) force
      s₁.snapshotBuild t
    rw [(snapshotBuild_congr hbase).trans hsnapshot]
    exact hdrawn

/-- **Every event keeps the invariant**, up to the layout: that something was
drawn lasts over the events that keep the layout. -/
theorem Inv.step {drawn : Prop} (h : Inv drawn s) (event : Desktop.Event)
    (hkeeps : drawn → event.keepsLayout = true) : Inv drawn (s.step app event) := by
  have hcurrent : ∀ t, Inv drawn (s.applicationSnapshotCurrent t).1 := by
    intro t
    unfold Desktop.applicationSnapshotCurrent
    split
    · exact h
    · exact h.of_keeps rfl rfl rfl rfl rfl rfl (.refl _)
  cases event with
  | render force t => exact (h.render app force t).inv
  | start t id =>
    exact (hcurrent t).of_keeps rfl rfl rfl rfl rfl rfl (App.keeps_runtimeStart app _ _ _)
  | stop t => exact (hcurrent t).of_keeps rfl rfl rfl rfl rfl rfl (App.keeps_runtimeStop app _ _)
  | activate payload => exact ⟨h.size, h.time, fun hd => Bool.noConfusion (hkeeps hd)⟩

/-- **So does every run,** by induction over its events. -/
theorem Inv.run {drawn : Prop} (h : Inv drawn s) (events : List Desktop.Event)
    (hkeeps : drawn → ∀ event ∈ events, event.keepsLayout = true) :
    Inv drawn (s.run app events) := by
  induction events generalizing s with
  | nil => exact h
  | cons event events ih =>
    exact ih (h.step app event fun hd => hkeeps hd event List.mem_cons_self)
      fun hd e hmem => hkeeps hd e (List.mem_cons_of_mem _ hmem)

/-- The invariant holds at the boot, where nothing was drawn. -/
theorem inv_boot (drawn : Prop) (status : OledStatusBar) (console : OledConsole)
    (storage : Nor.Mem) (driver : Ssd1306) (apps : App.Bridge ω) (layout : Asset.Layout) :
    Inv drawn (Desktop.boot status console storage driver apps layout) :=
  ⟨⟨rfl, rfl⟩, fun h => Bool.noConfusion h, fun _ h => Bool.noConfusion h⟩

/-- The display holds what a composition of the snapshot and the view draws on
a dark display. -/
def Desktop.Shown (s : Desktop ω) : Prop :=
  ∀ page < ssd1306Pages, ∀ x < ssd1306Width, s.driver.panel.ram page x =
    (composition s.layout s.snapshotBuild s.apps.machine.runtime.view).fb.pixels page x

/-- A render that reports success has shown it. -/
def Desktop.Truthful (r : Desktop ω × Bool) : Prop := r.2 = true → r.1.Shown

/-- A render that keeps the invariant tells the truth when it reports success.
-/
theorem Rendered.truthful {r : Desktop ω × Bool} (h : Rendered True force r.1.snapshotBuild r) :
    Desktop.Truthful r := by
  intro hok
  obtain ⟨hvalid, hlast, hview⟩ := h.last hok
  have hholds := h.inv.holds trivial hvalid
  rw [hlast] at hholds
  exact fun page hpage x hx => hholds.shown hview hpage hx

/-- **Every render that succeeds shows the desktop as it is.** From the boot on,
whatever the display held and the status bar, after any renders, forced or
not, and any applications started and stopped, whatever the callbacks of
these do, whatever the clock, the tasks and USB say, and whichever writes to
the bus failed and however much of them came through: where a render reports
success, each byte of the display is the one that a composition of the present
services, of the state and of the view of the application would draw on a dark
display. -/
theorem desktop_shown (app : App.Index → App.Callbacks ω) (status : OledStatusBar)
    (console : OledConsole) (storage : Nor.Mem) (driver : Ssd1306) (apps : App.Bridge ω)
    (layout : Asset.Layout) (events : List Desktop.Event)
    (hkeeps : ∀ event ∈ events, event.keepsLayout = true) (force : Bool) (t : Readings) :
    Desktop.Truthful (((Desktop.boot status console storage driver apps layout).run app
      events).render app force t) :=
  (((inv_boot True status console storage driver apps layout).run app events
    fun _ => hkeeps).render app force t).truthful

/-- The callbacks of a board whose applications have nothing to say. -/
def silentCallbacks : App.Callbacks Unit where
  init world := (true, world)
  start _ world := (true, world)
  event _ _ world := (0, world)
  render view _ world := (true, view, world)
  stop _ world := (true, world)

/-- A dark display on a bus that works. -/
def darkDriver : Ssd1306 :=
  ⟨⟨fun _ _ => 0, ⟨0, 127, 0, 3⟩, ⟨0, 0⟩⟩, fun _ => .done, ⟨0, 0, 0, 0⟩⟩

/-- The applications of this board, initialised. -/
def silentApps : App.Bridge Unit :=
  ⟨(App.runtimeInitialize (fun _ => silentCallbacks) { world := () }).1, ⟨0, 0, 0, 0, 0⟩, false,
    false⟩

/-- Its boot with the default layout. -/
def defaultBoot : Desktop Unit :=
  Desktop.boot .init blankConsole (fun _ => 0) darkDriver silentApps {}

/-- The splash, and an application that is started too early. -/
def firstEvents : List Desktop.Event :=
  [.render true ⟨false, 0, 0, false, false, 0⟩, .start ⟨true, 500, 1, true, false, 30⟩ 1]

/-- The render after these, which turns to the home state. -/
theorem desktop_shown_default :
    Desktop.Truthful ((defaultBoot.run (fun _ => silentCallbacks) firstEvents).render
      (fun _ => silentCallbacks) false ⟨true, 1000, 2, true, true, 60000⟩) :=
  desktop_shown (fun _ => silentCallbacks) .init blankConsole (fun _ => 0) darkDriver silentApps
    {} firstEvents (by decide) false ⟨true, 1000, 2, true, true, 60000⟩

end Display

end DeusOs
