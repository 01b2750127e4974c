import DeusOs.Display.Desktop

/-!
# The desktop — layouts the display does not take

Two layouts that were accepted and are not shown. One that is committed while
nothing else changes: the service that follows finds the new revision, draws
what is marked, which is nothing, and takes it for drawn (`layout_unnoticed`).
And one in which fewer than three rows fit: the rows that do not fit stay
marked, and the desktop takes none of it to the display (`desktop_dark`).
-/

namespace DeusOs

namespace Display

open App (View)
open OledConsole (availableRows)

variable {ω : Type} {app : App.Index → App.Callbacks ω} {s s' : Desktop ω} {t : Readings}
  {snapshot : DesktopSnapshot} {force full : Bool}

/-! ## The rows that stay marked -/

/-- Marking one row sets its bit and no other. -/
theorem getLsbD_or_dirtyBit_eq {i j : ℕ} (hi : i < 8) (d : BitVec 8) :
    (d ||| dirtyBit i).getLsbD j = (d.getLsbD j || decide (i = j)) := by
  rw [Bool.eq_iff_iff, Bool.or_eq_true, decide_eq_true_iff]
  exact getLsbD_or_dirtyBit hi d

/-- A render draws the marked rows among those that fit. -/
theorem getLsbD_drawn (c : OledConsole) (clip : Clip) (rows : List ℕ)
    (hrows : ∀ row ∈ rows, row < 8) (drawn : MonoFb × BitVec 8) (i : ℕ) :
    (rows.foldl
      (fun (drawn : MonoFb × BitVec 8) row =>
        if c.dirtyRows &&& dirtyBit row = 0 then drawn
        else (c.drawRow clip drawn.1 row, drawn.2 ||| dirtyBit row)) drawn).2.getLsbD i =
      (drawn.2.getLsbD i || (decide (i ∈ rows) && c.dirtyRows.getLsbD i)) := by
  induction rows generalizing drawn with
  | nil => rw [List.foldl_nil, decide_eq_false List.not_mem_nil, Bool.false_and, Bool.or_false]
  | cons row rows ih =>
    have hrow := hrows row List.mem_cons_self
    rw [List.foldl_cons, ih (fun r hr => hrows r (List.mem_cons_of_mem _ hr))]
    by_cases hclean : c.dirtyRows &&& dirtyBit row = 0
    · rw [if_pos hclean]
      have hoff := (and_dirtyBit_eq_zero hrow _).1 hclean
      by_cases hi : i = row
      · rw [hi, hoff, Bool.and_false, Bool.and_false]
      · have hmem : decide (i ∈ row :: rows) = decide (i ∈ rows) := by
          rw [decide_eq_decide, List.mem_cons]
          exact or_iff_right hi
        rw [hmem]
    · rw [if_neg hclean, getLsbD_or_dirtyBit_eq hrow]
      have hon : c.dirtyRows.getLsbD row = true := by
        rw [← Bool.not_eq_false]
        exact fun h => hclean ((and_dirtyBit_eq_zero hrow _).2 h)
      by_cases hi : i = row
      · rw [hi, hon, decide_eq_true (rfl : row = row), decide_eq_true List.mem_cons_self,
          Bool.or_true, Bool.true_or, Bool.and_true, Bool.or_true]
      · have hmem : decide (i ∈ row :: rows) = decide (i ∈ rows) := by
          rw [decide_eq_decide, List.mem_cons]
          exact or_iff_right hi
        rw [hmem, decide_eq_false (Ne.symm hi), Bool.or_false]

/-- **A row that does not fit stays marked.** A render clears the marks of the
rows that it draws, and it draws those that fit. -/
theorem getLsbD_render (c : OledConsole) (fb : MonoFb) (clip : Clip) {i : ℕ}
    (hi : availableRows clip ≤ i) :
    (c.render fb clip).1.dirtyRows.getLsbD i = c.dirtyRows.getLsbD i := by
  unfold OledConsole.render
  split
  · rfl
  · split
    · rfl
    · dsimp only
      have hrows : ∀ row ∈ List.range (availableRows clip), row < 8 := fun row hrow =>
        Nat.lt_of_lt_of_le (List.mem_range.1 hrow)
          (Nat.le_trans (availableRows_le clip) (by decide))
      have hnot : i ∉ List.range (availableRows clip) := fun h =>
        Nat.not_lt.2 hi (List.mem_range.1 h)
      have hdrawn := getLsbD_drawn c clip (List.range (availableRows clip)) hrows (fb, 0) i
      rw [decide_eq_false hnot, Bool.false_and, Bool.or_false] at hdrawn
      rw [BitVec.getLsbD_and, BitVec.getLsbD_not, hdrawn]
      by_cases hlt : i < 8
      · rw [decide_eq_true hlt]
        show (c.dirtyRows.getLsbD i && (true && !(0#8).getLsbD i)) = c.dirtyRows.getLsbD i
        rw [BitVec.getLsbD_zero, Bool.not_false, Bool.and_true, Bool.and_true]
      · rw [BitVec.getLsbD_of_ge _ i (by omega), Bool.false_and]

/-- Below twenty pixels there is no third row. -/
theorem availableRows_low (layout : Asset.Layout) (hlow : layout.height.toNat < 20) :
    availableRows layout.active.consoleRect.clip ≤ 2 := by
  have hheight : layout.active.consoleRect.clip.height.toUInt32.toNat = layout.height.toNat := by
    have hint : (Int32.ofInt (layout.height.toNat : ℤ)).toInt = layout.height.toNat :=
      Int32.toInt_ofInt_of_le (by omega) (by omega)
    have hnonneg : (0 : Int32) ≤ Int32.ofInt (layout.height.toNat : ℤ) := by
      rw [Int32.le_iff_toInt_le, hint]
      exact Int.natCast_nonneg _
    show (Int32.ofInt (layout.height.toNat : ℤ)).toUInt32.toNat = layout.height.toNat
    rw [Int32.toNat_toUInt32_of_le hnonneg]
    show (Int32.ofInt (layout.height.toNat : ℤ)).toInt.toNat = layout.height.toNat
    rw [hint]
    rfl
  unfold availableRows
  rw [hheight]
  refine Nat.le_trans (Nat.min_le_left _ _) ?_
  show (if layout.height.toNat < 6 then 0 else 1 + (layout.height.toNat - 6) / 7) ≤ 2
  split
  · omega
  · omega

/-! ## A layout with too few rows -/

/-- Nothing is remembered as drawn, and three rows do not fit. -/
structure Low (ram : ℕ → ℕ → UInt8) (s : Desktop ω) : Prop where
  height : s.activeLayout.height.toNat < 20
  valid : s.snapshotValid = false
  ram : s.driver.panel.ram = ram

theorem drawConsole_low (hheight : s.activeLayout.height.toNat < 20)
    (hall : ∀ row < consoleRows, s.ui.console.dirtyRows.getLsbD row = true) :
    s.drawConsole.2 = false := by
  refine decide_eq_false fun hzero => ?_
  have hbit := getLsbD_render s.ui.console s.ui.fb s.layout.consoleRect.clip
    (availableRows_low s.activeLayout hheight)
  rw [hall 2 (by decide)] at hbit
  replace hzero : (s.ui.console.render s.ui.fb s.layout.consoleRect.clip).1.dirtyRows = 0 := hzero
  rw [hzero] at hbit
  exact Bool.noConfusion (hbit.symm.trans BitVec.getLsbD_zero)

/-- **What is composed in full does not fit.** Every row of the console is
marked then, and below a height of twenty there is no room for three. -/
theorem composeBody_low (hheight : s.activeLayout.height.toNat < 20) (snapshot : DesktopSnapshot) :
    ((s.composeStatus true snapshot).composeBody true snapshot).2 = false := by
  obtain ⟨s₁, hs₁⟩ : ∃ s₁, s₁ = s.composeStatus true snapshot := ⟨_, rfl⟩
  have hheight' : s₁.activeLayout.height.toNat < 20 := by rw [hs₁]; exact hheight
  rw [← hs₁]
  unfold Desktop.composeBody
  split
  · rw [if_pos rfl]
    exact drawConsole_low hheight' fun row hrow => allRows_splashConsole s₁.ui.console hrow
  · rw [if_pos (Or.inl rfl)]
    split
    · rfl
    · exact drawConsole_low hheight' fun row hrow => allRows_applyView s₁.ui.console _ hrow

/-- A part of a render that leaves the layout and what is remembered. -/
structure SameLayout (s s' : Desktop ω) : Prop where
  layout : s'.activeLayout = s.activeLayout
  driver : s'.driver = s.driver

theorem sameLayout_composeBody (full : Bool) (snapshot : DesktopSnapshot) (s : Desktop ω) :
    SameLayout s (s.composeBody full snapshot).1 := by
  unfold Desktop.composeBody
  split
  · split
    · exact ⟨rfl, rfl⟩
    · exact ⟨rfl, rfl⟩
  · split
    · split
      · exact ⟨rfl, rfl⟩
      · exact ⟨rfl, rfl⟩
    · exact ⟨rfl, rfl⟩

theorem layout_openPanel (s : Desktop ω) : s.openPanel.1.activeLayout = s.activeLayout := by
  unfold Desktop.openPanel
  split
  · rfl
  · rfl

variable {ram : ℕ → ℕ → UInt8}

/-- In a layout too low for its rows, no composition succeeds, and the display
stays as it is. -/
theorem Low.draw (h : Low ram s) (force : Bool) (snapshot : DesktopSnapshot) (t : Readings) :
    (s.draw force snapshot t).2 = false ∧ Low ram (s.draw force snapshot t).1 := by
  obtain ⟨-, -, -, -, hvalid, hram⟩ := openPanel_spec s
  have hpanel : Low ram s.openPanel.1 :=
    ⟨layout_openPanel s ▸ h.height, hvalid.trans h.valid, hram.trans h.ram⟩
  have hfull : (!s.panelInitialized || force || !s.snapshotValid ||
      decide (snapshot.state ≠ s.lastSnapshot.state)) = true := by
    rw [h.valid, Bool.not_false, Bool.or_true, Bool.true_or]
  unfold Desktop.draw
  dsimp only
  split
  · exact ⟨rfl, h⟩
  · split
    · exact ⟨rfl, hpanel⟩
    · have hfits := composeBody_low hpanel.height snapshot
      have hsame := sameLayout_composeBody true snapshot (s.openPanel.1.composeStatus true snapshot)
      obtain ⟨r, hr⟩ : ∃ r, r =
        (s.openPanel.1.composeStatus true snapshot).composeBody true snapshot := ⟨_, rfl⟩
      rw [← hr] at hfits hsame
      rw [hfull, ← hr, if_pos hfits]
      refine ⟨rfl, ⟨?_, rfl, ?_⟩⟩
      · show r.1.activeLayout.height.toNat < 20
        rw [hsame.layout]
        exact hpanel.height
      · show r.1.driver.panel.ram = ram
        rw [hsame.driver]
        exact hpanel.ram

/-- A display stays low by its layout, its driver and its snapshot. -/
theorem Low.of_same (h : Low ram s) (hlayout : s'.activeLayout = s.activeLayout)
    (hvalid : s'.snapshotValid = s.snapshotValid) (hdriver : s'.driver = s.driver) : Low ram s' :=
  ⟨hlayout ▸ h.height, hvalid.trans h.valid, hdriver ▸ h.ram⟩

variable (app)

/-- **No render succeeds, and none reaches the display,** since it gives up
before it presents. The next render finds the rows marked again. -/
theorem Low.render (h : Low ram s) (force : Bool) (t : Readings) :
    (s.render app force t).2 = false ∧ Low ram (s.render app force t).1 := by
  have hbegun : Low ram (s.beginRender t) := by
    unfold Desktop.beginRender
    have hstate : ∀ s : Desktop ω, Low ram s → Low ram ((s.updateState t).refresh t) := by
      intro s h
      unfold Desktop.updateState
      split
      · exact h.of_same rfl rfl rfl
      · exact h.of_same rfl rfl rfl
    split
    · exact hstate _ ⟨h.height, rfl, h.ram⟩
    · exact hstate _ h
  obtain ⟨s₁, hs₁⟩ : ∃ s₁, s₁ = s.beginRender t := ⟨_, rfl⟩
  rw [← hs₁] at hbegun
  have hserved : Low ram (s₁.applicationService app s₁.snapshotBuild).1 := by
    unfold Desktop.applicationService
    split
    · exact hbegun
    · exact hbegun.of_same rfl rfl rfl
  have hcurrent : (s₁.applicationService app s₁.snapshotBuild).1.upToDate force
      s₁.snapshotBuild = false := by
    unfold Desktop.upToDate
    rw [hserved.valid, Bool.and_false, Bool.false_and, Bool.false_and, Bool.false_and]
  unfold Desktop.render
  dsimp only
  rw [← hs₁, hcurrent, if_neg Bool.false_ne_true]
  split
  · rename_i hfailed
    exact ⟨rfl, hserved⟩
  · exact hserved.draw force _ t

/-- No event but a commit lifts a low display. -/
theorem Low.step (h : Low ram s) (event : Desktop.Event) (hkeeps : event.keepsLayout = true) :
    Low ram (s.step app event) := by
  have hcurrent : ∀ t, Low ram (s.applicationSnapshotCurrent t).1 := by
    intro t
    unfold Desktop.applicationSnapshotCurrent
    split
    · exact h
    · exact h.of_same rfl rfl rfl
  cases event with
  | render force t => exact (h.render app force t).2
  | start t id => exact (hcurrent t).of_same rfl rfl rfl
  | stop t => exact (hcurrent t).of_same rfl rfl rfl
  | activate payload => exact Bool.noConfusion hkeeps

/-- No run without a commit lifts a low display. -/
theorem Low.run (h : Low ram s) (events : List Desktop.Event)
    (hkeeps : ∀ event ∈ events, event.keepsLayout = true) : Low ram (s.run app events) := by
  induction events generalizing s with
  | nil => exact h
  | cons event events ih =>
    exact ih (h.step app event (hkeeps event List.mem_cons_self))
      fun e hmem => hkeeps e (List.mem_cons_of_mem _ hmem)

/-- **Booted with a layout in which three rows do not fit, the desktop stays dark.**
Such a layout is accepted from a height of six pixels, and from a height of
twenty three rows fit: in between, whatever happens up to the next commit, no
render succeeds, and what the display holds is what it held at the boot. -/
theorem desktop_dark (status : OledStatusBar) (console : OledConsole) (storage : Nor.Mem)
    (driver : Ssd1306) (apps : App.Bridge ω) (layout : Asset.Layout)
    (hlow : layout.height.toNat < 20) (events : List Desktop.Event)
    (hkeeps : ∀ event ∈ events, event.keepsLayout = true) (force : Bool) (t : Readings)
    (r : Desktop ω × Bool)
    (hr : r = ((Desktop.boot status console storage driver apps layout).run app events).render
      app force t) :
    r.2 = false ∧ r.1.driver.panel.ram = driver.panel.ram := by
  have hboot : Low driver.panel.ram (Desktop.boot status console storage driver apps layout) :=
    ⟨hlow, rfl, rfl⟩
  have h := (hboot.run app events hkeeps).render app force t
  rw [← hr] at h
  exact ⟨h.1, h.2.ram⟩

/-- The lowest layout that the device accepts. -/
theorem desktop_dark_lowest :
    (((Desktop.boot .init blankConsole (fun _ => 0) darkDriver silentApps ⟨1, 10, 126, 6, 0⟩).run
        (fun _ => silentCallbacks) firstEvents).render (fun _ => silentCallbacks) true
          ⟨true, 1000, 2, true, true, 60000⟩).2 = false ∧
      (((Desktop.boot .init blankConsole (fun _ => 0) darkDriver silentApps ⟨1, 10, 126, 6, 0⟩).run
        (fun _ => silentCallbacks) firstEvents).render (fun _ => silentCallbacks) true
          ⟨true, 1000, 2, true, true, 60000⟩).1.driver.panel.ram = darkDriver.panel.ram :=
  desktop_dark (fun _ => silentCallbacks) .init blankConsole (fun _ => 0) darkDriver silentApps
    ⟨1, 10, 126, 6, 0⟩ (by decide) firstEvents (by decide) true ⟨true, 1000, 2, true, true, 60000⟩
    _ rfl

/-! ## A layout that nothing else accompanies -/

theorem setIndicator_eq_self {status : OledStatusBar} {i : Fin 3} {value : UInt32}
    (h : status.indicator i = if value = 1 then 1 else 0) :
    status.setIndicator i value = status := by
  unfold OledStatusBar.setIndicator
  dsimp only
  rw [if_neg (not_not.2 h)]

theorem setTime_eq_self {status : OledStatusBar} {hours minutes : UInt32}
    (hhours : status.hours = if 99 < hours then 99 else hours.toUInt8)
    (hminutes : status.minutes = if 59 < minutes then 59 else minutes.toUInt8) :
    status.setTime hours minutes = status := by
  unfold OledStatusBar.setTime
  dsimp only
  rw [if_pos ⟨hhours, hminutes⟩]

/-- A status bar that was set to a snapshot is not changed by it, whatever is
marked. -/
theorem setStatus_marked (snapshot : DesktopSnapshot) (status : OledStatusBar) (d d' : BitVec 8) :
    snapshot.setStatus { snapshot.setStatus status with dirty := d, timeDirty := d' } =
      { snapshot.setStatus status with dirty := d, timeDirty := d' } := by
  obtain ⟨set, hset⟩ : ∃ set, set = snapshot.setStatus status := ⟨_, rfl⟩
  have htime := setTime_spec (status.setIndicators snapshot.systemIndicator.toUInt32
    snapshot.usbIndicator.toUInt32 snapshot.networkIndicator.toUInt32)
      (snapshot.totalMinutes / 60) (snapshot.totalMinutes % 60)
  change (snapshot.setStatus status).indicator = _ ∧ (snapshot.setStatus status).hours = _ ∧
    (snapshot.setStatus status).minutes = _ at htime
  rw [← hset] at htime ⊢
  have hindicator := htime.1
  unfold OledStatusBar.setIndicators at hindicator
  simp only [indicator_setIndicator] at hindicator
  show snapshot.setStatus ⟨set.hours, set.minutes, set.indicator, d, d'⟩ =
    ⟨set.hours, set.minutes, set.indicator, d, d'⟩
  obtain ⟨marked, hmarked⟩ : ∃ marked : OledStatusBar,
    marked = ⟨set.hours, set.minutes, set.indicator, d, d'⟩ := ⟨_, rfl⟩
  have hsame : marked.indicator = set.indicator := by rw [hmarked]
  have hhours : marked.hours = set.hours := by rw [hmarked]
  have hminutes : marked.minutes = set.minutes := by rw [hmarked]
  rw [← hmarked]
  rw [← hsame] at hindicator
  unfold DesktopSnapshot.setStatus OledStatusBar.setIndicators
  rw [setIndicator_eq_self (congrFun hindicator 0), setIndicator_eq_self (congrFun hindicator 1),
    setIndicator_eq_self (congrFun hindicator 2)]
  exact setTime_eq_self (hhours.trans htime.2.1) (hminutes.trans htime.2.2)

/-- Where nothing is marked, nothing is drawn. -/
theorem render_clean {status : OledStatusBar} (hclean : status.dirty = 0) (fb : MonoFb)
    {clip : Clip} (hwidth : clip.width = 128) (hheight : clip.height = 9) :
    (status.render fb clip).2 = fb := by
  have hbit : ¬ status.dirty.getLsbD 0 = true := by
    rw [hclean, Bool.not_eq_true]
    exact BitVec.getLsbD_zero
  have hnone : statusItems.filter (StatusItem.isDirty status) = [] := by
    refine List.filter_eq_nil_iff.2 fun item _ => ?_
    rw [Bool.not_eq_true]
    have hoff : ∀ i, decide (status.dirty &&& dirtyBit i ≠ 0) = false := by
      intro i
      rw [hclean]
      exact decide_eq_false (not_not.2 BitVec.zero_and)
    cases item with
    | indicator i => exact hoff _
    | digit i => exact Bool.and_eq_false_iff.2 (Or.inl (hoff 4))
  rw [(render_status_eq hwidth hheight status fb).1, if_neg hbit, hnone]
  rfl

/-- What a render that succeeded leaves to do. -/
structure Quiet (s : Desktop ω) : Prop where
  panel : s.panelInitialized = true
  size : DisplaySize s.ui.fb
  pages : s.ui.fb.dirtyPages = 0
  items : s.ui.status.dirty = 0
  status : s.lastSnapshot.setStatus s.ui.status = s.ui.status

/-- Nothing is left to do where a snapshot is remembered as drawn. -/
def Rests (s : Desktop ω) : Prop := s.snapshotValid = true → Quiet s

/-- What rests does so by its display and its snapshot. -/
theorem Rests.of_same (h : Rests s) (hui : s'.ui = s.ui)
    (hpanel : s'.panelInitialized = s.panelInitialized) (hlast : s'.lastSnapshot = s.lastSnapshot)
    (hvalid : s'.snapshotValid = s.snapshotValid) : Rests s' := by
  intro hv
  obtain ⟨hpanel', hsize, hpages, hitems, hstatus⟩ := h (hvalid ▸ hv)
  exact ⟨hpanel.trans hpanel', hui ▸ hsize, hui ▸ hpages, hui ▸ hitems, hlast ▸ hui ▸ hstatus⟩

theorem rests_of_invalid (h : s.snapshotValid = false) : Rests s := fun hv =>
  Bool.noConfusion (hv.symm.trans h)

theorem rests_finish (hpanel : s.panelInitialized = true) (hsize : DisplaySize s.ui.fb)
    (hitems : s.ui.status.dirty = 0) (hstatus : snapshot.setStatus s.ui.status = s.ui.status)
    (enable : Bool) (t : Readings) : Rests (s.finish enable snapshot t).1 := by
  have hsame := (picture_present s.ui.fb s.driver).2
  unfold Desktop.finish
  dsimp only
  split
  · exact rests_of_invalid rfl
  · split
    · exact rests_of_invalid rfl
    · rename_i hclean
      split
      · exact rests_of_invalid rfl
      · exact fun _ => ⟨hpanel, hsize.of_same hsame, not_not.1 hclean, hitems, hstatus⟩

theorem status_composeBody (full : Bool) (snapshot : DesktopSnapshot) (s : Desktop ω) :
    (s.composeBody full snapshot).1.ui.status = s.ui.status ∧
      (s.composeBody full snapshot).1.panelInitialized = s.panelInitialized := by
  unfold Desktop.composeBody
  split
  · split
    · exact ⟨rfl, rfl⟩
    · exact ⟨rfl, rfl⟩
  · split
    · split
      · exact ⟨rfl, rfl⟩
      · exact ⟨rfl, rfl⟩
    · exact ⟨rfl, rfl⟩

theorem status_composeStatus (hvalid : oledUiLayoutValidate s.layout = true) (full : Bool)
    (snapshot : DesktopSnapshot) :
    (s.composeStatus full snapshot).ui.status =
      { snapshot.setStatus s.ui.status with dirty := 0, timeDirty := 0 } := by
  obtain ⟨hwidth, hheight, -⟩ := clips_of_validate hvalid s.fitsInt32
  unfold Desktop.composeStatus
  dsimp only
  rw [status_renderStatus hwidth hheight]
  generalize snapshot.setStatus s.ui.status = set
  cases full with
  | true => rw [if_pos rfl]; rfl
  | false => rw [if_neg Bool.false_ne_true]

theorem panelInitialized_openPanel (h : s.openPanel.2 = true) :
    s.openPanel.1.panelInitialized = true := by
  unfold Desktop.openPanel at h ⊢
  split
  · assumption
  · rename_i hclosed
    rw [if_neg hclosed] at h
    exact h

theorem openPanel_of_initialized (h : s.panelInitialized = true) : s.openPanel = (s, true) := by
  unfold Desktop.openPanel
  rw [if_pos h]

/-- After a composition that succeeded nothing is marked; after any other the
snapshot does not count. -/
theorem Rests.draw (h : Rests s) (hsound : Sound s) (force : Bool) (snapshot : DesktopSnapshot)
    (t : Readings) : Rests (s.draw force snapshot t).1 := by
  obtain ⟨hbase, hui, -, hlast, hsnapshot, -⟩ := openPanel_spec s
  unfold Desktop.draw
  dsimp only
  split
  · exact h
  · rename_i hvalid
    rw [Bool.not_eq_false, ← hbase.layout] at hvalid
    split
    · rename_i hfailed
      refine rests_of_invalid ?_
      rw [hsnapshot, ← Bool.not_eq_true]
      intro hv
      rw [openPanel_of_initialized (h hv).panel] at hfailed
      cases hfailed
    · rename_i hopen
      rw [Bool.not_eq_false] at hopen
      generalize (!s.panelInitialized || force || !s.snapshotValid ||
        decide (snapshot.state ≠ s.lastSnapshot.state)) = full
      split
      · exact rests_of_invalid rfl
      · have hcomposed := Sound.compose hvalid (s := s.openPanel.1) ⟨hui ▸ hsound.1, hui ▸ hsound.2⟩
          full snapshot
        obtain ⟨hstatus, hpanel⟩ := status_composeBody full snapshot
          (s.openPanel.1.composeStatus full snapshot)
        rw [status_composeStatus hvalid] at hstatus
        refine rests_finish (hpanel.trans (panelInitialized_openPanel hopen)) hcomposed.1 ?_ ?_ _ t
        · rw [hstatus]
        · rw [hstatus]
          exact setStatus_marked snapshot _ 0 0

/-- Once the applications are served. -/
theorem Rests.served (h : Rests s) (hinv : Inv False s) (t : Readings) :
    Rests ((s.beginRender t).applicationService app (s.beginRender t).snapshotBuild).1 ∧
      Sound ((s.beginRender t).applicationService app (s.beginRender t).snapshotBuild).1 := by
  obtain ⟨hbegun, hinit, -⟩ := hinv.beginRender t
  have hrests : Rests (s.beginRender t) := by
    have hstate : ∀ s : Desktop ω, Rests s → Rests ((s.updateState t).refresh t) := by
      intro s h
      unfold Desktop.updateState
      split
      · exact h.of_same rfl rfl rfl rfl
      · exact h.of_same rfl rfl rfl rfl
    unfold Desktop.beginRender
    split
    · exact hstate _ (rests_of_invalid rfl)
    · exact hstate _ h
  unfold Desktop.applicationService
  split
  · exact ⟨hrests, hbegun.size, hbegun.time hinit⟩
  · exact ⟨hrests.of_same rfl rfl rfl rfl, hbegun.size, hbegun.time hinit⟩

/-- **A render leaves nothing to do** where it succeeds: what it drew is what
the next one would compose. -/
theorem Rests.render (h : Rests s) (hinv : Inv False s) (force : Bool) (t : Readings) :
    Rests (s.render app force t).1 := by
  have hserved := h.served app hinv t
  unfold Desktop.render
  dsimp only
  split
  · exact hserved.1
  · split
    · exact hserved.1
    · exact hserved.1.draw hserved.2 force _ t

/-- Every event leaves a display that rests, or a snapshot that does not count.
-/
theorem Rests.step (h : Rests s) (hinv : Inv False s) (event : Desktop.Event) :
    Rests (s.step app event) := by
  have hcurrent : ∀ t, Rests (s.applicationSnapshotCurrent t).1 := by
    intro t
    unfold Desktop.applicationSnapshotCurrent
    split
    · exact h
    · exact h.of_same rfl rfl rfl rfl
  cases event with
  | render force t => exact h.render app hinv force t
  | start t id => exact (hcurrent t).of_same rfl rfl rfl rfl
  | stop t => exact (hcurrent t).of_same rfl rfl rfl rfl
  | activate payload => exact h.of_same rfl rfl rfl rfl

/-- So does every run. -/
theorem Rests.run (h : Rests s) (hinv : Inv False s) (events : List Desktop.Event) :
    Rests (s.run app events) := by
  induction events generalizing s with
  | nil => exact h
  | cons event events ih =>
    exact ih (h.step app hinv event) (hinv.step app event False.elim)

/-- A service in which everything is as it was drawn. -/
def Desktop.Idle (s : Desktop ω) (t : Readings) : Prop :=
  let served := (s.beginRender t).applicationService app (s.beginRender t).snapshotBuild
  served.2 = true ∧ served.1.upToDate false (s.beginRender t).snapshotBuild = true

/-- The same with another layout. -/
def Desktop.withLayout (s : Desktop ω) (layout : Asset.Layout) : Desktop ω :=
  { s with activeLayout := layout }

theorem beginRender_withLayout (hinit : s.initialized = true) (layout : Asset.Layout) :
    (s.withLayout layout).beginRender t = (s.beginRender t).withLayout layout := by
  have hnot : ¬ s.initialized = false := by rw [hinit]; exact Bool.noConfusion
  unfold Desktop.beginRender Desktop.updateState
  rw [if_neg hnot, if_neg (show ¬ (s.withLayout layout).initialized = false from hnot)]
  -- the layout is not asked whether the splash is over
  split
  · split
    · rfl
    · rename_i hover hnotOver
      exact absurd hover hnotOver
  · split
    · rename_i hnotOver hover
      exact absurd hover hnotOver
    · rfl

theorem applicationService_withLayout (layout : Asset.Layout) (snapshot : DesktopSnapshot) :
    (s.withLayout layout).applicationService app snapshot =
      ((s.applicationService app snapshot).1.withLayout layout,
        (s.applicationService app snapshot).2) := by
  unfold Desktop.applicationService
  by_cases hhome : snapshot.state ≠ .home
  · rw [if_pos hhome, if_pos hhome]
  · rw [if_neg hhome, if_neg hhome]
    rfl

theorem valid_beginRender (hinit : s.initialized = false) :
    (s.beginRender t).snapshotValid = false := by
  unfold Desktop.beginRender Desktop.updateState
  rw [if_pos hinit]
  split
  · rfl
  · rfl

theorem driver_beginRender (s : Desktop ω) (t : Readings) :
    (s.beginRender t).driver = s.driver := by
  have hstate : ∀ s : Desktop ω, ((s.updateState t).refresh t).driver = s.driver := by
    intro s
    unfold Desktop.updateState
    split
    · rfl
    · rfl
  unfold Desktop.beginRender
  rw [hstate]
  split
  · rfl
  · rfl

theorem same_applicationService (snapshot : DesktopSnapshot) (s : Desktop ω) :
    (s.applicationService app snapshot).1.snapshotValid = s.snapshotValid ∧
      (s.applicationService app snapshot).1.driver = s.driver := by
  unfold Desktop.applicationService
  split
  · exact ⟨rfl, rfl⟩
  · exact ⟨rfl, rfl⟩

/-- What a service did that drew nothing in a new layout, and took it for drawn. -/
structure Overlooked (s : Desktop ω) (r : Desktop ω × Bool) : Prop where
  ok : r.2 = true
  revision : r.1.layoutRevision = r.1.activeLayoutRevision
  layout : r.1.activeLayout = s.activeLayout
  panel : r.1.driver.panel = s.driver.panel
  transfers : r.1.driver.transfers = s.driver.transfers

/-- **What rests draws nothing** in an accepted layout. -/
theorem Quiet.draw (h : Quiet s) (hvalid : oledUiLayoutValidate s.layout = true)
    (hsnapshot : s.snapshotValid = true) (hview : s.apps.machine.runtime.viewDirty = false)
    (t : Readings) : Overlooked s (s.draw false s.lastSnapshot t) := by
  obtain ⟨hwidth, hheight, -⟩ := clips_of_validate hvalid s.fitsInt32
  have hpart : (!s.panelInitialized || false || !s.snapshotValid ||
      decide (s.lastSnapshot.state ≠ s.lastSnapshot.state)) = false := by
    rw [h.panel, hsnapshot, decide_eq_false (not_not.2 rfl)]
    rfl
  unfold Desktop.draw
  dsimp only
  rw [if_neg (by rw [hvalid]; exact Bool.noConfusion), openPanel_of_initialized h.panel,
    if_neg Bool.noConfusion, hpart]
  -- the status bar is as it was, and so is the framebuffer
  obtain ⟨s₁, hs₁⟩ : ∃ s₁, s₁ = s.composeStatus false s.lastSnapshot := ⟨_, rfl⟩
  have hfb : s₁.ui.fb = s.ui.fb := by
    rw [hs₁]
    show (OledStatusBar.render (s.lastSnapshot.setStatus s.ui.status) s.ui.fb _).2 = s.ui.fb
    rw [h.status]
    exact render_clean h.items s.ui.fb hwidth hheight
  have hdriver : s₁.driver = s.driver := by rw [hs₁]; rfl
  have happs : s₁.apps = s.apps := by rw [hs₁]; rfl
  have hlayout : s₁.activeLayout = s.activeLayout := by rw [hs₁]; rfl
  rw [← hs₁]
  have hbody : s₁.composeBody false s.lastSnapshot = (s₁, true) := by
    unfold Desktop.composeBody
    split
    · rw [if_neg Bool.false_ne_true]
    · rw [if_neg]
      rintro (hfull | hdirty)
      · exact Bool.noConfusion hfull
      · rw [happs, hview] at hdirty
        exact Bool.noConfusion hdirty
  have hpresent : present s₁.ui.fb s₁.driver =
      (s.ui.fb, { s.driver with stats := ⟨0, 0, 0, 0⟩ }, true) := by
    rw [hfb, hdriver]
    unfold present
    dsimp only
    have hguard : s.ui.fb.dirtyPages &&& ~~~(pageMask ssd1306Pages - 1) = 0 := by
      rw [h.pages]
      exact BitVec.zero_and
    rw [if_neg (by rw [not_or, not_not, not_not]; exact ⟨h.size.width, h.size.height⟩),
      if_neg (not_not.2 hguard), if_pos h.pages]
  rw [hbody, if_neg Bool.noConfusion]
  unfold Desktop.finish
  rw [hpresent, h.panel]
  dsimp only
  rw [if_neg Bool.noConfusion, if_neg (not_not.2 h.pages)]
  unfold switchOn
  rw [if_neg (by rw [Bool.not_true]; exact Bool.noConfusion), if_neg Bool.noConfusion]
  exact ⟨rfl, rfl, hlayout, rfl, rfl⟩

/-- **A layout that is committed while nothing else changes is not drawn**, and the
service takes it for drawn: where a service would find everything as it was
drawn, the one after the commit of a valid layout sends nothing to the display
and reports success, and the desktop has the revision of the new layout from
then on. This holds in every state that is reached from the boot. -/
theorem layout_unnoticed (status : OledStatusBar) (console : OledConsole) (storage : Nor.Mem)
    (driver : Ssd1306) (apps : App.Bridge ω) (layout : Asset.Layout)
    (events : List Desktop.Event) (payload : List UInt8)
    (hpayload : Asset.layoutValidate payload = true) (t : Readings)
    (idle : Desktop ω)
    (hidle : idle = (Desktop.boot status console storage driver apps layout).run app events) :
    idle.Idle app t →
      Overlooked (idle.step app (.activate payload))
        ((idle.step app (.activate payload)).render app false t) := by
  rintro ⟨hok, hcurrent⟩
  have hinv : Inv False idle := by
    rw [hidle]
    exact (inv_boot False status console storage driver apps layout).run app events False.elim
  have hrests : Rests idle := by
    rw [hidle]
    exact (rests_of_invalid rfl : Rests (Desktop.boot status console storage driver apps
      layout)).run app (inv_boot False status console storage driver apps layout) events
  have hserved := (hrests.served app hinv t).1
  obtain ⟨hvalid, hdriver⟩ :=
    same_applicationService app (idle.beginRender t).snapshotBuild (idle.beginRender t)
  rw [driver_beginRender] at hdriver
  simp only [Desktop.upToDate, Bool.and_eq_true, decide_eq_true_iff,
    Bool.not_eq_true'] at hcurrent
  obtain ⟨⟨⟨⟨-, hsnapshot⟩, hview⟩, -⟩, hlast⟩ := hcurrent
  have hinit : idle.initialized = true := by
    rw [← Bool.not_eq_false]
    intro hnot
    rw [hvalid, valid_beginRender hnot] at hsnapshot
    cases hsnapshot
  have hquiet := hserved hsnapshot
  show Overlooked (idle.withLayout (Asset.layoutActivate payload idle.activeLayout))
    ((idle.withLayout (Asset.layoutActivate payload idle.activeLayout)).render app false t)
  unfold Desktop.render
  dsimp only
  rw [beginRender_withLayout hinit]
  rw [show ((idle.beginRender t).withLayout (Asset.layoutActivate payload
    idle.activeLayout)).snapshotBuild = (idle.beginRender t).snapshotBuild from rfl,
    applicationService_withLayout]
  obtain ⟨served, hs⟩ : ∃ served, served = (idle.beginRender t).applicationService app
    (idle.beginRender t).snapshotBuild := ⟨_, rfl⟩
  obtain ⟨snapshot, hsnap⟩ : ∃ snapshot, snapshot = (idle.beginRender t).snapshotBuild := ⟨_, rfl⟩
  rw [← hsnap] at hs ⊢
  rw [← hsnap, ← hs] at hok hdriver hsnapshot hview hlast hquiet
  rw [← hs]
  dsimp only
  rw [if_neg (by rw [hok]; exact Bool.noConfusion)]
  by_cases hagain : (served.1.withLayout (Asset.layoutActivate payload
      idle.activeLayout)).upToDate false snapshot = true
  · -- the revision is the old one, after as many commits as there are revisions
    rw [if_pos hagain]
    simp only [Desktop.upToDate, Bool.and_eq_true, decide_eq_true_iff] at hagain
    exact ⟨rfl, hagain.1.2, rfl, congrArg Ssd1306.panel hdriver,
      congrArg Ssd1306.transfers hdriver⟩
  · rw [if_neg hagain, hlast]
    have hdrawn := Quiet.draw (s := served.1.withLayout (Asset.layoutActivate payload
      idle.activeLayout)) ⟨hquiet.panel, hquiet.size, hquiet.pages, hquiet.items, hquiet.status⟩
      (by
        show oledUiLayoutValidate (Asset.layoutActivate payload idle.activeLayout).active = true
        rw [Asset.active_layoutActivate]
        exact Asset.validate_payloadLayout hpayload) hsnapshot hview t
    exact ⟨hdrawn.ok, hdrawn.revision, hdrawn.layout,
      hdrawn.panel.trans (congrArg Ssd1306.panel hdriver),
      hdrawn.transfers.trans (congrArg Ssd1306.transfers hdriver)⟩

end Display

end DeusOs
