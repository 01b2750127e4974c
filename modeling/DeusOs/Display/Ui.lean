import DeusOs.Display.Console

/-!
# Incremental rendering

What is not marked is on the screen, as it would be drawn now. Every call
keeps this, so that a render, which draws what is marked, leaves nothing for a
render of everything to change.
-/

namespace DeusOs

namespace Display

open Canvas (Apart Consistent Grounded Shows paint)
open StatusItem (content isDirty pixels)
open OledConsole (availableRows)

variable {statusClip consoleClip : Clip} {ui : Ui} {fb : MonoFb}

/-! ## Apart -/

theorem contains_rowPixels (c : OledConsole) (clip : Clip) (row : ℕ) :
    ∀ q ∈ rowPixels c clip row, clip.contains q.x q.y = true := by
  intro q hq
  obtain ⟨column, -, hq⟩ := List.mem_flatMap.1 hq
  exact (plots_cellAt c clip row column).2 q hq

/-- **Nothing of the status bar is where the console draws,** so either of them
may be drawn without a look at the other. -/
theorem apart_clips (hwidth : statusClip.width = 128) (hheight : statusClip.height = 9)
    (hdisjoint : ∀ x y, statusClip.contains x y = true → consoleClip.contains x y = false)
    {l l' : List SetPixel} (hl : InBlock statusClip 0 128 0 9 l)
    (hl' : ∀ q ∈ l', consoleClip.contains q.x q.y = true) :
    Apart (fb.strokes l) (fb.strokes l') := by
  intro u hu u' hu' heq
  obtain ⟨q, hq, hon, rfl⟩ := mem_strokes.1 hu
  obtain ⟨q', hq', -, rfl⟩ := mem_strokes.1 hu'
  have hin := hl.contains (by rw [hwidth]; rfl) (by rw [hheight]; rfl) hq hon
  have hin' := hl' q' hq'
  obtain ⟨hx, hy⟩ := Prod.mk.inj heq
  rw [← hx, ← hy, hdisjoint _ _ hin] at hin'
  cases hin'

/-! ## A render of the status bar -/

/-- The mask of all items has every item. -/
theorem statusDirtyAll_getLsbD : ∀ j < 5, statusDirtyAll.getLsbD j = true := by decide

/-- Where everything is marked, every item is. -/
theorem isDirty_of_all {s : OledStatusBar} (hdirty : ∀ j < 5, s.dirty.getLsbD j = true)
    (htime : ∀ j < 5, s.timeDirty.getLsbD j = true) (item : StatusItem) : item.isDirty s = true := by
  rw [← Bool.not_eq_false]
  cases item with
  | indicator i =>
    rw [isDirty_indicator, hdirty _ (by omega)]
    exact Bool.noConfusion
  | digit i =>
    intro hclean
    have hoff := isDirty_digit.1 hclean (hdirty 4 (by omega))
    rw [htime i i.2] at hoff
    cases hoff

/-- **What a render of the status bar draws**: the frame and every item, or
the items that are marked. -/
theorem render_status_eq (hwidth : statusClip.width = 128) (hheight : statusClip.height = 9)
    (s : OledStatusBar) (fb : MonoFb) :
    (s.render fb statusClip).2 = (if s.dirty.getLsbD 0 = true then
        fb.setPixels (framePixels statusClip ++ itemPixels s statusClip statusItems)
      else fb.setPixels (itemPixels s statusClip (statusItems.filter (isDirty s)))) ∧
      (s.render fb statusClip).1 = { s with dirty := 0, timeDirty := 0 } := by
  have hguard : ¬ (statusClip.width ≠ 128 ∨ statusClip.height ≠ 9) := by
    rw [not_or, not_not, not_not]
    exact ⟨hwidth, hheight⟩
  unfold OledStatusBar.render
  rw [if_neg hguard]
  by_cases hframe : s.dirty &&& dirtyBit 0 = 0
  · rw [if_neg (not_not.2 hframe), (and_dirtyBit_eq_zero (by omega) _).1 hframe,
      if_neg Bool.false_ne_true, drawItems_eq]
    exact ⟨rfl, rfl⟩
  · have hon : s.dirty.getLsbD 0 = true := by
      rw [← Bool.not_eq_false]
      exact fun hoff => hframe ((and_dirtyBit_eq_zero (by omega) _).2 hoff)
    rw [if_pos hframe, hon, if_pos rfl]
    dsimp only
    refine ⟨?_, rfl⟩
    rw [drawItems_eq, drawFrame_eq, MonoFb.setPixels_append]
    have hall : statusItems.filter (isDirty { s with
        dirty := s.dirty ||| statusDirtyAll, timeDirty := s.timeDirty ||| statusDirtyAll }) =
          statusItems := by
      refine List.filter_eq_self.2 fun item _ => isDirty_of_all (fun j hj => ?_) (fun j hj => ?_) item
      · rw [BitVec.getLsbD_or, statusDirtyAll_getLsbD j hj, Bool.or_true]
      · rw [BitVec.getLsbD_or, statusDirtyAll_getLsbD j hj, Bool.or_true]
    have hsame : ∀ (d : BitVec 8) (d' : BitVec 8), itemPixels { s with dirty := d, timeDirty := d' }
        statusClip statusItems = itemPixels s statusClip statusItems := by
      intro d d'
      unfold itemPixels
      congr 1
    rw [hall, hsame]

/-! ## The invariant -/

/-- **What is not marked is on the screen.** -/
structure Synced (statusClip consoleClip : Clip) (ui : Ui) : Prop where
  time : InRange ui.status
  ground : Grounded ui.fb.picture (ui.fb.strokes (framePixels statusClip))
    (ui.fb.strokes (itemPixels ui.status statusClip statusItems))
  items : ∀ item : StatusItem, item.isDirty ui.status = false →
    Shows ui.fb.picture (ui.fb.strokes (item.pixels ui.status statusClip))
  rows : ∀ row < availableRows consoleClip, ui.console.dirtyRows.getLsbD row = false →
    Shows ui.fb.picture (ui.fb.strokes (rowPixels ui.console consoleClip row))

/-- The whole status bar is on the screen. -/
def StatusShown (statusClip : Clip) (ui : Ui) : Prop :=
  ∀ item : StatusItem, Shows ui.fb.picture (ui.fb.strokes (item.pixels ui.status statusClip))

/-- So is what the clip can show of the console. -/
def ConsoleShown (consoleClip : Clip) (ui : Ui) : Prop :=
  ∀ row < availableRows consoleClip,
    Shows ui.fb.picture (ui.fb.strokes (rowPixels ui.console consoleClip row))

/-- The status bar is changed, and what changes is marked. -/
theorem Synced.status (h : Synced statusClip consoleClip ui) {s : OledStatusBar}
    (hmarks : StatusMarks ui.status s) (hr : InRange s) :
    Synced statusClip consoleClip { ui with status := s } := by
  refine ⟨hr, h.ground.congr ?_, fun item hclean => ?_, h.rows⟩
  · exact strokes_points (points_itemPixels h.time hr statusClip statusItems)
  · obtain ⟨hclean', hcontent⟩ := hmarks item hclean
    rw [StatusItem.pixels_congr hcontent]
    exact h.items item hclean'

/-- So is the console. -/
theorem Synced.console (h : Synced statusClip consoleClip ui) {c : OledConsole}
    (hmarks : ConsoleMarks ui.console c) :
    Synced statusClip consoleClip { ui with console := c } := by
  refine ⟨h.time, h.ground, h.items, fun row hrow hclean => ?_⟩
  obtain ⟨hclean', hcontent⟩ :=
    hmarks row (Nat.lt_of_lt_of_le hrow (availableRows_le consoleClip)) hclean
  rw [rowPixels_congr hcontent]
  exact h.rows row hrow hclean'

/-- A console that is shown stays shown while the status bar is drawn. -/
theorem shows_row_setPixels (hwidth : statusClip.width = 128) (hheight : statusClip.height = 9)
    (hdisjoint : ∀ x y, statusClip.contains x y = true → consoleClip.contains x y = false)
    {l : List SetPixel} (hl : InBlock statusClip 0 128 0 9 l) (c : OledConsole) (row : ℕ)
    (h : Shows fb.picture (fb.strokes (rowPixels c consoleClip row))) :
    Shows (fb.setPixels l).picture ((fb.setPixels l).strokes (rowPixels c consoleClip row)) := by
  rw [(MonoFb.sameSize_setPixels fb l).strokes, MonoFb.picture_setPixels]
  refine h.paint fun u hu u' hu' heq => ?_
  exact apart_clips hwidth hheight hdisjoint hl (contains_rowPixels c consoleClip row) u' hu' u hu
    heq.symm

/-- **The frame and every item are drawn.** -/
theorem shown_frame (s : OledStatusBar) (fb : MonoFb) :
    Grounded (fb.setPixels (framePixels statusClip ++ itemPixels s statusClip statusItems)).picture
        (fb.strokes (framePixels statusClip)) (fb.strokes (itemPixels s statusClip statusItems)) ∧
      ∀ item : StatusItem,
        Shows (fb.setPixels (framePixels statusClip ++ itemPixels s statusClip statusItems)).picture
          (fb.strokes (item.pixels s statusClip)) := by
  rw [MonoFb.picture_setPixels, MonoFb.strokes_append, Canvas.paint_append]
  refine ⟨Canvas.grounded_paint _ _ _, fun item w hw => ?_⟩
  refine (consistent_itemPixels fb s statusClip statusItems).shows_paint _ w ?_
  rw [itemPixels, strokes_flatMap]
  exact List.mem_flatMap.2 ⟨item, mem_statusItems item, hw⟩

/-- **The items that are marked are drawn,** and the others are shown already:
together the whole status bar is shown. -/
theorem shown_items (s : OledStatusBar) (fb : MonoFb)
    (hground : Grounded fb.picture (fb.strokes (framePixels statusClip))
      (fb.strokes (itemPixels s statusClip statusItems)))
    (hitems : ∀ item : StatusItem, item.isDirty s = false →
      Shows fb.picture (fb.strokes (item.pixels s statusClip))) :
    Grounded (fb.setPixels (itemPixels s statusClip (statusItems.filter (isDirty s)))).picture
        (fb.strokes (framePixels statusClip)) (fb.strokes (itemPixels s statusClip statusItems)) ∧
      ∀ item : StatusItem,
        Shows (fb.setPixels (itemPixels s statusClip (statusItems.filter (isDirty s)))).picture
          (fb.strokes (item.pixels s statusClip)) := by
  rw [MonoFb.picture_setPixels]
  refine ⟨hground.paint fun w hw => Or.inl ⟨w, ?_, rfl⟩, fun item => ?_⟩
  · rw [itemPixels, strokes_flatMap] at hw ⊢
    obtain ⟨item, -, hw⟩ := List.mem_flatMap.1 hw
    exact List.mem_flatMap.2 ⟨item, mem_statusItems item, hw⟩
  · cases hdirty : item.isDirty s with
    | true =>
      intro w hw
      refine (consistent_itemPixels fb s statusClip _).shows_paint _ w ?_
      rw [itemPixels, strokes_flatMap]
      exact List.mem_flatMap.2
        ⟨item, List.mem_filter.2 ⟨mem_statusItems item, hdirty⟩, hw⟩
    | false =>
      refine (hitems item hdirty).paint fun w hw w' hw' => ?_
      rw [itemPixels, strokes_flatMap] at hw'
      obtain ⟨item', hitem', hw'⟩ := List.mem_flatMap.1 hw'
      have hne : item ≠ item' := by
        rintro rfl
        rw [(List.mem_filter.1 hitem').2] at hdirty
        cases hdirty
      exact apart_pixels fb s statusClip hne w hw w' hw'

/-- **A render of the status bar** from a state in sync, or with its frame
marked. -/
theorem synced_renderStatus (hwidth : statusClip.width = 128) (hheight : statusClip.height = 9)
    (hdisjoint : ∀ x y, statusClip.contains x y = true → consoleClip.contains x y = false)
    (htime : InRange ui.status)
    (hrows : ∀ row < availableRows consoleClip, ui.console.dirtyRows.getLsbD row = false →
      Shows ui.fb.picture (ui.fb.strokes (rowPixels ui.console consoleClip row)))
    (h : ui.status.dirty.getLsbD 0 = true ∨ Synced statusClip consoleClip ui) :
    Synced statusClip consoleClip (ui.renderStatus statusClip) ∧
      StatusShown statusClip (ui.renderStatus statusClip) := by
  obtain ⟨hfb, hstatus⟩ := render_status_eq hwidth hheight ui.status ui.fb
  obtain ⟨l, hl, hblock, hground, hitems⟩ : ∃ l, (ui.status.render ui.fb statusClip).2 =
      ui.fb.setPixels l ∧ InBlock statusClip 0 128 0 9 l ∧
        Grounded (ui.fb.setPixels l).picture (ui.fb.strokes (framePixels statusClip))
          (ui.fb.strokes (itemPixels ui.status statusClip statusItems)) ∧
        ∀ item : StatusItem, Shows (ui.fb.setPixels l).picture
          (ui.fb.strokes (item.pixels ui.status statusClip)) := by
    by_cases hframe : ui.status.dirty.getLsbD 0 = true
    -- the frame clears the rectangle, so every item has to be drawn
    · rw [if_pos hframe] at hfb
      exact ⟨_, hfb, (inBlock_framePixels hwidth hheight).append (inBlock_itemPixels _ _ _),
        shown_frame ui.status ui.fb⟩
    · rw [if_neg hframe] at hfb
      have hsync := h.resolve_left hframe
      exact ⟨_, hfb, inBlock_itemPixels _ _ _, shown_items ui.status ui.fb hsync.ground hsync.items⟩
  -- the render clears the marks, which no pixel depends on
  have hui : ui.renderStatus statusClip =
      { ui with
          status := { ui.status with dirty := 0, timeDirty := 0 }
          fb := ui.fb.setPixels l } := by
    rw [Ui.renderStatus, hl, hstatus]
  have hsize := MonoFb.sameSize_setPixels ui.fb l
  have hshown : StatusShown statusClip (ui.renderStatus statusClip) := by
    rw [hui]
    intro item
    show Shows (ui.fb.setPixels l).picture ((ui.fb.setPixels l).strokes
      (item.pixels { ui.status with dirty := 0, timeDirty := 0 } statusClip))
    rw [hsize.strokes, StatusItem.pixels_congr (s := ui.status) (by cases item <;> rfl)]
    exact hitems item
  refine ⟨⟨?_, ?_, fun item _ => hshown item, fun row hrow hclean => ?_⟩, hshown⟩
  · rw [hui]
    exact htime
  · rw [hui]
    show Grounded (ui.fb.setPixels l).picture ((ui.fb.setPixels l).strokes _)
      ((ui.fb.setPixels l).strokes _)
    rw [hsize.strokes, hsize.strokes]
    exact hground.congr (strokes_points (points_itemPixels htime htime statusClip statusItems))
  · rw [hui] at hclean ⊢
    exact shows_row_setPixels hwidth hheight hdisjoint hblock ui.console row
      (hrows row hrow hclean)

/-- **A render of the console,** which shows the console, and leaves the status
bar as it is. -/
theorem synced_renderConsole (hwidth : statusClip.width = 128) (hheight : statusClip.height = 9)
    (hdisjoint : ∀ x y, statusClip.contains x y = true → consoleClip.contains x y = false)
    (h : Synced statusClip consoleClip ui) :
    Synced statusClip consoleClip (ui.renderConsole consoleClip) ∧
      ConsoleShown consoleClip (ui.renderConsole consoleClip) := by
  obtain ⟨hfb, hrow⟩ := render_eq ui.console ui.fb consoleClip
  obtain ⟨rows, hrows⟩ : ∃ rows, rows = drawnRows ui.console consoleClip := ⟨_, rfl⟩
  obtain ⟨l, hl⟩ : ∃ l, l = rows.flatMap (rowPixels ui.console consoleClip) := ⟨_, rfl⟩
  rw [← hrows, ← hl] at hfb
  have hlt : ∀ row ∈ rows, row < availableRows consoleClip := by
    intro row hmem
    rw [hrows] at hmem
    exact (mem_drawnRows.1 hmem).1
  obtain ⟨hcons, hapart⟩ := consistent_rows ui.fb ui.console consoleClip rows hlt
  rw [← hl] at hcons hapart
  have hcontains : ∀ q ∈ l, consoleClip.contains q.x q.y = true := by
    intro q hq
    rw [hl] at hq
    obtain ⟨row, -, hq⟩ := List.mem_flatMap.1 hq
    exact contains_rowPixels ui.console consoleClip row q hq
  have hui : ui.renderConsole consoleClip =
      { ui with
          console := (ui.console.render ui.fb consoleClip).1
          fb := ui.fb.setPixels l } := by
    rw [Ui.renderConsole, hfb]
  have hsize := MonoFb.sameSize_setPixels ui.fb l
  have hshown : ConsoleShown consoleClip (ui.renderConsole consoleClip) := by
    rw [hui]
    intro row hlt'
    show Shows (ui.fb.setPixels l).picture ((ui.fb.setPixels l).strokes
      (rowPixels (ui.console.render ui.fb consoleClip).1 consoleClip row))
    rw [hsize.strokes, rowPixels_congr (hrow row), MonoFb.picture_setPixels]
    -- a row that is drawn shows; one that is not was shown, and no other row is near it
    by_cases hmem : row ∈ rows
    · intro w hw
      refine hcons.shows_paint _ w ?_
      rw [hl, strokes_flatMap]
      exact List.mem_flatMap.2 ⟨row, hmem, hw⟩
    · refine Shows.paint (h.rows row hlt' ?_) (hapart row hlt' hmem)
      rw [← Bool.not_eq_true]
      intro hdirty
      rw [hrows] at hmem
      exact hmem (mem_drawnRows.2 ⟨hlt', hdirty⟩)
  refine ⟨⟨?_, ?_, fun item hclean => ?_, fun row hlt' _ => hshown row hlt'⟩, hshown⟩
  · rw [hui]
    exact h.time
  · rw [hui]
    show Grounded (ui.fb.setPixels l).picture ((ui.fb.setPixels l).strokes _)
      ((ui.fb.setPixels l).strokes _)
    rw [hsize.strokes, hsize.strokes, MonoFb.picture_setPixels]
    refine h.ground.paint fun w hw => Or.inr fun u hu => ?_
    exact apart_clips hwidth hheight hdisjoint (inBlock_framePixels hwidth hheight) hcontains u hu w
      hw
  · rw [hui] at hclean ⊢
    show Shows (ui.fb.setPixels l).picture ((ui.fb.setPixels l).strokes _)
    rw [hsize.strokes, MonoFb.picture_setPixels]
    refine Shows.paint (h.items item hclean) fun w hw w' hw' => ?_
    exact apart_clips hwidth hheight hdisjoint (inBlock_item ui.status statusClip item) hcontains w
      hw w' hw'

/-! ## Calls -/

/-- **Every call keeps the invariant.** -/
theorem Synced.step (hwidth : statusClip.width = 128) (hheight : statusClip.height = 9)
    (hdisjoint : ∀ x y, statusClip.contains x y = true → consoleClip.contains x y = false)
    (h : Synced statusClip consoleClip ui) (call : UiCall) :
    Synced statusClip consoleClip (ui.step statusClip consoleClip call) := by
  cases call with
  | setTime hours minutes =>
    exact h.status (marks_setTime _ hours minutes) (inRange_setTime _ h.time hours minutes)
  | setIndicators system usb network =>
    refine h.status (marks_setIndicators _ system usb network) ?_
    exact inRange_setIndicator _ (inRange_setIndicator _ (inRange_setIndicator _ h.time _ _) _ _) _ _
  | renderStatus =>
    exact (synced_renderStatus hwidth hheight hdisjoint h.time h.rows (Or.inr h)).1
  | putc c => exact h.console (marks_putc _ c)
  | write text => exact h.console (marks_write _ text)
  | writeLine text => exact h.console (marks_writeLine _ text)
  | clear => exact h.console (marks_clear _)
  | renderConsole => exact (synced_renderConsole hwidth hheight hdisjoint h).1
  | applyView view forceRows => exact h.console (marks_applyView _ view forceRows)

/-- **So does every list of calls,** by induction over the calls. -/
theorem Synced.run (hwidth : statusClip.width = 128) (hheight : statusClip.height = 9)
    (hdisjoint : ∀ x y, statusClip.contains x y = true → consoleClip.contains x y = false)
    (h : Synced statusClip consoleClip ui) (calls : List UiCall) :
    Synced statusClip consoleClip (ui.run statusClip consoleClip calls) := by
  induction calls generalizing ui with
  | nil => exact h
  | cons call calls ih => exact ih (h.step hwidth hheight hdisjoint call)

theorem inRange_step (hr : InRange ui.status) (call : UiCall) :
    InRange (ui.step statusClip consoleClip call).status := by
  cases call with
  | setTime hours minutes => exact inRange_setTime _ hr hours minutes
  | setIndicators system usb network =>
    exact inRange_setIndicator _ (inRange_setIndicator _ (inRange_setIndicator _ hr _ _) _ _) _ _
  | renderStatus =>
    show InRange (ui.status.render ui.fb statusClip).1
    unfold OledStatusBar.render
    split
    · exact hr
    · split
      · exact hr
      · exact hr
  | _ => exact hr

theorem inRange_run (hr : InRange ui.status) (calls : List UiCall) :
    InRange (ui.run statusClip consoleClip calls).status := by
  induction calls generalizing ui with
  | nil => exact hr
  | cons call calls ih => exact ih (inRange_step hr call)

/-- Everything is marked and rendered. -/
def Ui.renderAll (statusClip consoleClip : Clip) (ui : Ui) : Ui :=
  (ui.markStatus.markConsole.renderStatus statusClip).renderConsole consoleClip

/-- **A render of everything comes in sync,** from whatever was on the
framebuffer, because it clears it. -/
theorem synced_renderAll (hwidth : statusClip.width = 128) (hheight : statusClip.height = 9)
    (hdisjoint : ∀ x y, statusClip.contains x y = true → consoleClip.contains x y = false)
    (hr : InRange ui.status) :
    Synced statusClip consoleClip (ui.renderAll statusClip consoleClip) := by
  have hstatus : Synced statusClip consoleClip
      (ui.markStatus.markConsole.renderStatus statusClip) ∧
        StatusShown statusClip (ui.markStatus.markConsole.renderStatus statusClip) :=
    synced_renderStatus hwidth hheight hdisjoint hr
    (fun row hrow hclean => by
      have hmarked : consoleAllRowsMask.getLsbD row = false := hclean
      rw [allRows_getLsbD row (Nat.lt_of_lt_of_le hrow (availableRows_le consoleClip))] at hmarked
      cases hmarked)
    (Or.inl (statusDirtyAll_getLsbD 0 (by omega)))
  exact (synced_renderConsole hwidth hheight hdisjoint hstatus.1).1

theorem sameSize_renderStatus (hwidth : statusClip.width = 128) (hheight : statusClip.height = 9)
    (ui : Ui) : MonoFb.SameSize ui.fb (ui.renderStatus statusClip).fb := by
  show MonoFb.SameSize ui.fb (ui.status.render ui.fb statusClip).2
  rw [(render_status_eq hwidth hheight ui.status ui.fb).1]
  split
  · exact MonoFb.sameSize_setPixels _ _
  · exact MonoFb.sameSize_setPixels _ _

/-! ## Rendering once more -/

/-- **A status bar that is shown may be rendered again** in full: not one byte
of the framebuffer changes. -/
theorem redraw_status (hwidth : statusClip.width = 128) (hheight : statusClip.height = 9)
    (h : Synced statusClip consoleClip ui) (hshown : StatusShown statusClip ui) :
    (ui.markStatus.renderStatus statusClip).fb.data = ui.fb.data := by
  obtain ⟨hfb, -⟩ := render_status_eq hwidth hheight ui.status.markAllDirty ui.fb
  have hmarked : ui.status.markAllDirty.dirty.getLsbD 0 = true :=
    statusDirtyAll_getLsbD 0 (by omega)
  rw [if_pos hmarked] at hfb
  have hsame : itemPixels ui.status.markAllDirty statusClip statusItems =
      itemPixels ui.status statusClip statusItems := by
    unfold itemPixels
    congr 1
  rw [hsame] at hfb
  show (ui.status.markAllDirty.render ui.fb statusClip).2.data = ui.fb.data
  rw [hfb]
  refine MonoFb.data_setPixels_eq ?_
  rw [MonoFb.picture_setPixels, MonoFb.strokes_append, Canvas.paint_append]
  refine h.ground.paint_eq (consistent_itemPixels _ _ _ _) fun w hw => ?_
  rw [itemPixels, strokes_flatMap] at hw
  obtain ⟨item, -, hw⟩ := List.mem_flatMap.1 hw
  exact hshown item w hw

/-- **So may a console.** -/
theorem redraw_console (hshown : ConsoleShown consoleClip ui) :
    (ui.markConsole.renderConsole consoleClip).fb.data = ui.fb.data := by
  obtain ⟨hfb, -⟩ := render_eq ui.console.markAllDirty ui.fb consoleClip
  show (ui.console.markAllDirty.render ui.fb consoleClip).2.data = ui.fb.data
  rw [hfb]
  refine MonoFb.data_setPixels_eq ?_
  rw [MonoFb.picture_setPixels]
  refine Shows.paint_eq fun w hw => ?_
  rw [strokes_flatMap] at hw
  obtain ⟨row, hrow, hw⟩ := List.mem_flatMap.1 hw
  have hsame : rowPixels ui.console.markAllDirty consoleClip row =
      rowPixels ui.console consoleClip row := rowPixels_congr rfl consoleClip
  rw [hsame] at hw
  exact hshown row (mem_drawnRows.1 hrow).1 w hw

/-- A render of the console leaves a status bar that is shown. -/
theorem statusShown_renderConsole (hwidth : statusClip.width = 128)
    (hheight : statusClip.height = 9)
    (hdisjoint : ∀ x y, statusClip.contains x y = true → consoleClip.contains x y = false)
    (h : Synced statusClip consoleClip ui) (hclean : ∀ item : StatusItem,
      item.isDirty ui.status = false) :
    StatusShown statusClip (ui.renderConsole consoleClip) := fun item =>
  (synced_renderConsole hwidth hheight hdisjoint h).1.items item (hclean item)

/-- The bytes of a framebuffer decide its picture. -/
theorem consoleShown_congr {ui' : Ui} (h : ConsoleShown consoleClip ui)
    (hsize : MonoFb.SameSize ui.fb ui'.fb) (hdata : ui'.fb.data = ui.fb.data)
    (hconsole : ui'.console = ui.console) : ConsoleShown consoleClip ui' := by
  have hpicture : ui'.fb.picture = ui.fb.picture := by
    funext p
    have hon : decide (ui'.fb.OnScreen p) = decide (ui.fb.OnScreen p) :=
      decide_eq_decide.2 (by rw [hsize.onScreen])
    rw [MonoFb.picture, MonoFb.picture, MonoFb.bit, MonoFb.bit, hsize.index, hdata, hon]
  intro row hrow
  rw [hpicture, hsize.strokes, hconsole]
  exact h row hrow

/-! ## What is marked -/

/-- Until the next render of the status bar what changes is marked. -/
theorem marks_status_run (statusClip consoleClip : Clip) (calls : List UiCall)
    (hno : ∀ call ∈ calls, call ≠ .renderStatus) (ui : Ui) :
    StatusMarks ui.status (ui.run statusClip consoleClip calls).status := by
  induction calls generalizing ui with
  | nil => exact .refl _
  | cons call calls ih =>
    have hstep : StatusMarks ui.status (ui.step statusClip consoleClip call).status := by
      cases call with
      | setTime hours minutes => exact marks_setTime _ hours minutes
      | setIndicators system usb network => exact marks_setIndicators _ system usb network
      | renderStatus => exact absurd rfl (hno _ List.mem_cons_self)
      | _ => exact .refl _
    exact hstep.trans (ih (fun call' h => hno call' (List.mem_cons_of_mem _ h)) _)

/-- So it is of the console. -/
theorem marks_console_run (statusClip consoleClip : Clip) (calls : List UiCall)
    (hno : ∀ call ∈ calls, call ≠ .renderConsole) (ui : Ui) :
    ConsoleMarks ui.console (ui.run statusClip consoleClip calls).console := by
  induction calls generalizing ui with
  | nil => exact .refl _
  | cons call calls ih =>
    have hstep : ConsoleMarks ui.console (ui.step statusClip consoleClip call).console := by
      cases call with
      | putc c => exact marks_putc _ c
      | write text => exact marks_write _ text
      | writeLine text => exact marks_writeLine _ text
      | clear => exact marks_clear _
      | applyView view forceRows => exact marks_applyView _ view forceRows
      | renderConsole => exact absurd rfl (hno _ List.mem_cons_self)
      | _ => exact .refl _
    exact hstep.trans (ih (fun call' h => hno call' (List.mem_cons_of_mem _ h)) _)

theorem run_append (ui : Ui) (calls later : List UiCall) :
    ui.run statusClip consoleClip (calls ++ later) =
      (ui.run statusClip consoleClip calls).run statusClip consoleClip later := List.foldl_append

/-! ## Runs -/

/-- The producers as they are initialised, on a framebuffer. -/
def Ui.init (console : OledConsole) (fb : MonoFb) : Ui := ⟨.init, console.clear, fb⟩

/-- **Incremental rendering is a full redraw.** In every run that begins with
a render of everything, a render leaves nothing for a render of everything to
change; and what has changed since the last render is marked. -/
theorem incremental_redraw (hwidth : statusClip.width = 128) (hheight : statusClip.height = 9)
    (hdisjoint : ∀ x y, statusClip.contains x y = true → consoleClip.contains x y = false)
    (console : OledConsole) (fb : MonoFb) (before calls : List UiCall) :
    let ui := Ui.run statusClip consoleClip
      (((Ui.init console fb).run statusClip consoleClip before).renderAll statusClip consoleClip)
      calls
    ((ui.renderStatus statusClip).markStatus.renderStatus statusClip).fb.data =
        (ui.renderStatus statusClip).fb.data ∧
      ((ui.renderConsole consoleClip).markConsole.renderConsole consoleClip).fb.data =
        (ui.renderConsole consoleClip).fb.data ∧
      (((ui.renderStatus statusClip).renderConsole consoleClip).renderAll statusClip
          consoleClip).fb.data =
        ((ui.renderStatus statusClip).renderConsole consoleClip).fb.data ∧
      (∀ mid late : List UiCall, (∀ call ∈ mid ++ late, call ≠ .renderStatus) →
        ∀ item : StatusItem,
          item.content ((ui.renderStatus statusClip).run statusClip consoleClip mid).status ≠
              item.content (ui.renderStatus statusClip).status →
            item.isDirty ((ui.renderStatus statusClip).run statusClip consoleClip
              (mid ++ late)).status = true) ∧
      ∀ mid late : List UiCall, (∀ call ∈ mid ++ late, call ≠ .renderConsole) →
        ∀ row < availableRows consoleClip,
          ((ui.renderConsole consoleClip).run statusClip consoleClip mid).console.row row ≠
              (ui.renderConsole consoleClip).console.row row →
            ((ui.renderConsole consoleClip).run statusClip consoleClip
              (mid ++ late)).console.dirtyRows.getLsbD row = true := by
  have hinit : InRange OledStatusBar.init := ⟨by decide, by decide⟩
  intro ui
  have h : Synced statusClip consoleClip ui :=
    (synced_renderAll hwidth hheight hdisjoint (inRange_run hinit before)).run hwidth hheight
      hdisjoint calls
  obtain ⟨hstatus, hshown⟩ :=
    synced_renderStatus hwidth hheight hdisjoint h.time h.rows (Or.inr h)
  refine ⟨redraw_status hwidth hheight hstatus hshown,
    redraw_console (synced_renderConsole hwidth hheight hdisjoint h).2, ?_, ?_, ?_⟩
  · -- both are shown, and stay so
    obtain ⟨hboth, hrows⟩ := synced_renderConsole hwidth hheight hdisjoint hstatus
    have hclean : ∀ item : StatusItem,
        item.isDirty (ui.renderStatus statusClip).status = false := by
      intro item
      rw [Ui.renderStatus, (render_status_eq hwidth hheight ui.status ui.fb).2]
      cases item with
      | indicator i => exact isDirty_indicator.2 BitVec.getLsbD_zero
      | digit i => exact isDirty_digit.2 fun _ => BitVec.getLsbD_zero
    have hitems := statusShown_renderConsole hwidth hheight hdisjoint hstatus hclean
    obtain ⟨both, hb⟩ : ∃ both, both = (ui.renderStatus statusClip).renderConsole consoleClip :=
      ⟨_, rfl⟩
    rw [← hb] at hboth hrows hitems ⊢
    -- the console is rendered once more from what the status bar has left, which is the same
    have hfirst : (both.markStatus.renderStatus statusClip).fb.data = both.fb.data :=
      redraw_status hwidth hheight hboth hitems
    have hconsole : ConsoleShown consoleClip (both.markStatus.renderStatus statusClip) :=
      consoleShown_congr hrows (sameSize_renderStatus hwidth hheight both.markStatus) hfirst rfl
    exact (redraw_console hconsole).trans hfirst
  · intro mid late hno item hne
    have hmid := marks_status_run statusClip consoleClip mid
      (fun call hmem => hno call (List.mem_append_left _ hmem)) (ui.renderStatus statusClip)
    have hlate := marks_status_run statusClip consoleClip late
      (fun call hmem => hno call (List.mem_append_right _ hmem))
      ((ui.renderStatus statusClip).run statusClip consoleClip mid)
    rw [← Bool.not_eq_false, run_append]
    intro hclean
    exact hne (hmid item (hlate item hclean).1).2
  · intro mid late hno row hrow hne
    have hlt := Nat.lt_of_lt_of_le hrow (availableRows_le consoleClip)
    have hmid := marks_console_run statusClip consoleClip mid
      (fun call hmem => hno call (List.mem_append_left _ hmem)) (ui.renderConsole consoleClip)
    have hlate := marks_console_run statusClip consoleClip late
      (fun call hmem => hno call (List.mem_append_right _ hmem))
      ((ui.renderConsole consoleClip).run statusClip consoleClip mid)
    rw [← Bool.not_eq_false, run_append]
    intro hclean
    exact hne (hmid row hlt (hlate row hlt hclean).1).2

/-- The clips of the default layout. -/
theorem default_disjoint : ∀ x y, oledUiLayoutDefault.statusRect.clip.contains x y = true →
    oledUiLayoutDefault.consoleRect.clip.contains x y = false := by
  intro x y h
  rw [Clip.contains, Bool.and_eq_true] at h
  have hy := h.2
  rw [← Bool.not_eq_true, Clip.contains, Bool.and_eq_true]
  rintro ⟨-, hy'⟩
  have hstart : (oledUiLayoutDefault.statusRect.clip.y : Int32) = 0 := by decide
  have hlength : oledUiLayoutDefault.statusRect.clip.height = 9 := by decide
  have hstart' : oledUiLayoutDefault.consoleRect.clip.y = 10 := by decide
  have hlength' : oledUiLayoutDefault.consoleRect.clip.height = 22 := by decide
  rw [hstart, hlength, axisContains, if_neg (by decide)] at hy
  rw [hstart', hlength', axisContains, if_neg (by decide)] at hy'
  by_cases hneg : y < 10
  · rw [if_pos hneg] at hy'
    cases hy'
  · have hten : (10 : Int32) ≤ y := Int32.not_lt.1 hneg
    have hpos : ¬ y < 0 := fun hlt => hneg (Int32.lt_trans hlt (by decide))
    rw [if_neg hpos, decide_eq_true_iff, Int32.sub_zero, UInt32.lt_iff_toNat_lt,
      Int32.toNat_toUInt32_of_le (Int32.not_lt.1 hpos)] at hy
    have hle := Int32.toNatClampNeg_le hten
    have htennat : (10 : Int32).toNatClampNeg = 10 := by decide
    have hninenat : ((9 : Int32).toUInt32).toNat = 9 := by decide
    omega

/-- A display of the default layout, where a line was written. -/
def lineWritten : Ui :=
  Ui.run oledUiLayoutDefault.statusRect.clip oledUiLayoutDefault.consoleRect.clip
    (((Ui.init ⟨fun _ _ => 0, 0, 0, 0, 0⟩ (MonoFb.init (fun _ => 0) 128 32)).run
      oledUiLayoutDefault.statusRect.clip oledUiLayoutDefault.consoleRect.clip []).renderAll
        oledUiLayoutDefault.statusRect.clip oledUiLayoutDefault.consoleRect.clip)
    [.writeLine [0x48, 0x49], .setTime 12 34]

/-- Its console, once rendered, may be rendered again. -/
theorem incremental_redraw_default :
    ((lineWritten.renderConsole oledUiLayoutDefault.consoleRect.clip).markConsole.renderConsole
        oledUiLayoutDefault.consoleRect.clip).fb.data =
      (lineWritten.renderConsole oledUiLayoutDefault.consoleRect.clip).fb.data :=
  (incremental_redraw (by decide) (by decide) default_disjoint ⟨fun _ _ => 0, 0, 0, 0, 0⟩
    (MonoFb.init (fun _ => 0) 128 32) [] [.writeLine [0x48, 0x49], .setTime 12 34]).2.1

end Display

end DeusOs
