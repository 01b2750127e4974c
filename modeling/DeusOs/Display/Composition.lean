import DeusOs.Display.Present
import DeusOs.Display.Ui

/-!
# Compositions

A display is composed when it shows what the status bar and the console hold,
nothing of it is marked, and it is dark elsewhere. Then its picture is that
drawing on a dark ground, however it came about (`Composed.picture_eq`): what
was drawn part by part is what a composition in full draws.
-/

namespace DeusOs

namespace Display

open Canvas (Shows paint)
open OledConsole (availableColumns availableRows)
open StatusItem (content isDirty)

variable {statusClip consoleClip : Clip} {ui ui' : Ui} {fb fb' : MonoFb} {d : Ssd1306}

/-! ## A framebuffer that is cleared -/

/-- The framebuffer is as large as the display. -/
structure DisplaySize (fb : MonoFb) : Prop where
  width : fb.width = ssd1306Width
  height : fb.height = ssd1306Height

/-- The display has four pages. -/
theorem DisplaySize.pageCount (h : DisplaySize fb) : fb.pageCount = ssd1306Pages := by
  rw [MonoFb.pageCount, h.height]
  rfl

/-- A framebuffer of the display's size is valid. -/
theorem DisplaySize.valid (h : DisplaySize fb) : fb.Valid := by
  unfold MonoFb.Valid
  rw [h.width, h.height, h.pageCount]
  decide

/-- Drawing leaves the display's size. -/
theorem DisplaySize.of_same (h : DisplaySize fb) (hs : MonoFb.SameSize fb fb') : DisplaySize fb' :=
  ⟨hs.width.trans h.width, hs.height.trans h.height⟩

/-- Framebuffers of the display's size are of the same size. -/
theorem DisplaySize.same (h : DisplaySize fb) (h' : DisplaySize fb') : MonoFb.SameSize fb fb' :=
  ⟨h'.width.trans h.width.symm, h'.height.trans h.height.symm⟩

/-- A page is cleared column by column. -/
theorem clear_columns (h : DisplaySize fb) {page : ℕ} (hpage : page < ssd1306Pages) (xs : List ℕ)
    (hxs : ∀ x ∈ xs, x < ssd1306Width) :
    DisplaySize (xs.foldl (fun fb x => (fb.writeMaskedByte page x 0 0xFF).1) fb) ∧
      ∀ i, (xs.foldl (fun fb x => (fb.writeMaskedByte page x 0 0xFF).1) fb).data i =
        if ∃ x ∈ xs, i = page * ssd1306Width + x then 0 else fb.data i := by
  induction xs generalizing fb with
  | nil => exact ⟨h, fun i => (if_neg (by simp)).symm⟩
  | cons x xs ih =>
    have hx := hxs x List.mem_cons_self
    have hin : ¬ (¬ fb.Valid ∨ fb.pageCount ≤ page ∨ maxPages ≤ page ∨ fb.width ≤ x ∨
        (0xFF : UInt8) = 0) := by
      rw [h.pageCount, h.width]
      unfold ssd1306Pages maxPages at *
      rintro (hv | hp | hp | hw | hm)
      · exact hv h.valid
      · omega
      · omega
      · omega
      · exact absurd hm (by decide)
    have hdata := MonoFb.data_writeMaskedByte fb page x 0 0xFF
    have hzero : ∀ old : UInt8, old &&& ~~~0xFF ||| 0 &&& 0xFF = 0 := by
      intro old
      rw [show ~~~(0xFF : UInt8) = 0 from rfl, UInt8.and_zero]
      rfl
    rw [if_neg hin, hzero, h.width] at hdata
    obtain ⟨hsize, hrest⟩ := ih (h.of_same (MonoFb.sameSize_writeMaskedByte fb page x 0 0xFF))
      fun y hy => hxs y (List.mem_cons_of_mem _ hy)
    refine ⟨hsize, fun i => (hrest i).trans ?_⟩
    rw [hdata]
    by_cases hi : i = page * ssd1306Width + x
    · rw [if_pos (c := ∃ y ∈ x :: xs, i = page * ssd1306Width + y) ⟨x, List.mem_cons_self, hi⟩, hi,
        Function.update_self, ite_self]
    · rw [Function.update_of_ne hi]
      refine if_congr ⟨?_, ?_⟩ rfl rfl
      · rintro ⟨y, hy, he⟩
        exact ⟨y, List.mem_cons_of_mem _ hy, he⟩
      · rintro ⟨y, hy, he⟩
        rcases List.mem_cons.1 hy with rfl | hy
        · exact absurd he hi
        · exact ⟨y, hy, he⟩

/-- **A framebuffer that is cleared is dark.** -/
theorem clear_spec (h : DisplaySize fb) :
    DisplaySize fb.clear ∧ ∀ page < ssd1306Pages, ∀ x < ssd1306Width,
      fb.clear.data (page * ssd1306Width + x) = 0 := by
  have hpages : ∀ (pages : List ℕ) (fb : MonoFb), DisplaySize fb →
      (∀ page ∈ pages, page < ssd1306Pages) →
      DisplaySize (pages.foldl (fun fb page => (List.range fb.width).foldl
        (fun fb x => (fb.writeMaskedByte page x 0 0xFF).1) fb) fb) ∧
      ∀ page x, x < ssd1306Width → (page ∈ pages ∨ fb.data (page * ssd1306Width + x) = 0) →
        (pages.foldl (fun fb page => (List.range fb.width).foldl
          (fun fb x => (fb.writeMaskedByte page x 0 0xFF).1) fb) fb).data
            (page * ssd1306Width + x) = 0 := by
    intro pages
    induction pages with
    | nil => exact fun fb hfb _ => ⟨hfb, fun page x _ h => h.resolve_left List.not_mem_nil⟩
    | cons first pages ih =>
      intro fb hfb hlt
      obtain ⟨hsize, hdata⟩ := clear_columns hfb (hlt first List.mem_cons_self)
        (List.range fb.width) fun x hx => hfb.width ▸ List.mem_range.1 hx
      obtain ⟨hsize', hrest⟩ := ih _ hsize fun page hpage => hlt page (List.mem_cons_of_mem _ hpage)
      refine ⟨hsize', fun page x hx hor => hrest page x hx ?_⟩
      rw [hdata]
      by_cases hfirst : page = first
      · right
        rw [if_pos ⟨x, List.mem_range.2 (hfb.width ▸ hx), by rw [hfirst]⟩]
      · rcases hor with hmem | hzero
        · exact Or.inl ((List.mem_cons.1 hmem).resolve_left hfirst)
        · right
          rw [hzero, ite_self]
  unfold MonoFb.clear
  rw [if_neg (not_not.2 h.valid)]
  obtain ⟨hsize, hdata⟩ := hpages (List.range fb.pageCount) fb h fun page hpage =>
    h.pageCount ▸ List.mem_range.1 hpage
  refine ⟨hsize, fun page hpage x hx => hdata page x hx (Or.inl (List.mem_range.2 ?_))⟩
  rw [h.pageCount]
  exact hpage

/-- The marks of a framebuffer do not depend on those it had. -/
theorem markAllDirty_eq (h : DisplaySize fb) :
    fb.markAllDirty = (MonoFb.init fb.data ssd1306Width ssd1306Height).markAllDirty := by
  have hinit : DisplaySize (MonoFb.init fb.data ssd1306Width ssd1306Height) := ⟨rfl, rfl⟩
  unfold MonoFb.markAllDirty
  rw [if_neg (not_not.2 h.valid), if_neg (not_not.2 hinit.valid), h.pageCount, hinit.pageCount]
  obtain ⟨data, width, height, dirtyPages, dirtyMinX, dirtyMaxX⟩ := fb
  obtain ⟨hwidth, hheight⟩ := h
  dsimp only at hwidth hheight
  subst hwidth hheight
  rfl

/-- A dark framebuffer, of which everything is marked. -/
structure Fresh (fb : MonoFb) : Prop where
  size : DisplaySize fb
  picture : fb.picture = fun _ => false
  reached : ∀ d, Reached fb d

/-- **Clearing and marking makes it fresh**, whatever it was: no point is lit,
and every page will be presented. -/
theorem fresh_clear (h : DisplaySize fb) : Fresh fb.clear.markAllDirty := by
  obtain ⟨hsize, hdata⟩ := clear_spec h
  have heq := markAllDirty_eq hsize
  have hsame : fb.clear.markAllDirty.data = fb.clear.data := by
    unfold MonoFb.markAllDirty
    split <;> rfl
  have hmarked : DisplaySize fb.clear.markAllDirty := by
    unfold MonoFb.markAllDirty
    split
    · exact hsize
    · exact ⟨hsize.width, hsize.height⟩
  refine ⟨hmarked, ?_, fun d => ?_⟩
  · funext p
    rw [MonoFb.picture, Bool.and_eq_false_iff, decide_eq_false_iff_not]
    by_cases hon : fb.clear.markAllDirty.OnScreen p
    · right
      obtain ⟨-, -, hin, hpage⟩ := hon
      rw [hmarked.width, hmarked.height] at hin
      rw [hmarked.pageCount] at hpage
      rw [MonoFb.bit, MonoFb.index, hsame, hmarked.width,
        hdata _ hpage _ (Nat.lt_of_not_le fun hle => hin (Or.inl hle))]
      exact BitVec.getLsbD_zero
    · exact Or.inl hon
  · rw [heq]
    exact reached_markAllDirty _ d

/-- **The picture decides the bytes.** A byte of a page is eight points of the
picture, and no page holds anything else. -/
theorem pixels_of_picture (h : DisplaySize fb) (h' : DisplaySize fb')
    (hpicture : fb'.picture = fb.picture) {page x : ℕ} (hpage : page < ssd1306Pages)
    (hx : x < ssd1306Width) : fb'.pixels page x = fb.pixels page x := by
  have hpages : ssd1306Pages = 4 := rfl
  have hwidth : ssd1306Width = 128 := rfl
  have hheight : ssd1306Height = 32 := rfl
  apply UInt8.toBitVec_inj.1
  apply BitVec.eq_of_getLsbD_eq
  intro b hb
  have hnat : ∀ n < 128, ¬ Int32.ofNat n < 0 ∧ (Int32.ofNat n).toNatClampNeg = n := by decide
  obtain ⟨hxneg, hxnat⟩ := hnat x (by omega)
  obtain ⟨hyneg, hynat⟩ := hnat (page * 8 + b) (by omega)
  have hdiv : (page * 8 + b) / 8 = page := by omega
  have hmod : (page * 8 + b) % 8 = b := by omega
  have hbit : ∀ fb : MonoFb, DisplaySize fb →
      fb.picture (Int32.ofNat x, Int32.ofNat (page * 8 + b)) =
        (fb.pixels page x).toBitVec.getLsbD b := by
    intro fb hfb
    have hon : fb.OnScreen (Int32.ofNat x, Int32.ofNat (page * 8 + b)) := by
      refine ⟨hfb.valid, not_or.2 ⟨hxneg, hyneg⟩, ?_, ?_⟩
      · rw [hfb.width, hfb.height, hxnat, hynat]
        omega
      · rw [hynat, hdiv, hfb.pageCount]
        exact hpage
    rw [MonoFb.picture, decide_eq_true hon, Bool.true_and, MonoFb.bit, MonoFb.index, hxnat, hynat,
      hdiv, hmod]
    rfl
  rw [← hbit fb' h', hpicture, hbit fb h]

/-! ## What a display draws -/

/-- Everything that a display draws: the frame, the items, and the rows. -/
def drawing (statusClip consoleClip : Clip) (ui : Ui) : List SetPixel :=
  framePixels statusClip ++ itemPixels ui.status statusClip statusItems ++
    (List.range (availableRows consoleClip)).flatMap (rowPixels ui.console consoleClip)

theorem points_rowPixels (c c' : OledConsole) (clip : Clip) (row : ℕ) :
    (rowPixels c clip row).map SetPixel.point = (rowPixels c' clip row).map SetPixel.point := by
  rw [rowPixels, rowPixels, List.map_flatMap, List.map_flatMap]
  congr 1
  funext column
  unfold cellAt OledConsole.cellPixels
  rw [List.map_flatMap, List.map_flatMap]
  congr 1
  funext i
  rw [List.map_flatMap, List.map_flatMap]
  congr 1
  funext j
  split <;> rfl

/-- **Whatever a display holds, it draws at the same points.** What it holds
decides which of them are lit. -/
theorem points_drawing (hr : InRange ui.status) (hr' : InRange ui'.status) :
    (drawing statusClip consoleClip ui).map SetPixel.point =
      (drawing statusClip consoleClip ui').map SetPixel.point := by
  rw [drawing, drawing, List.map_append, List.map_append, List.map_append, List.map_append,
    points_itemPixels hr hr', List.map_flatMap, List.map_flatMap]
  congr 2
  funext row
  exact points_rowPixels _ _ _ _

/-- Displays that hold the same draw the same. -/
theorem drawing_congr
    (hitems : ∀ item : StatusItem, item.content ui'.status = item.content ui.status)
    (hrows : ∀ row < consoleRows, ∀ column < consoleColumns,
      ui'.console.row row column = ui.console.row row column) :
    drawing statusClip consoleClip ui' = drawing statusClip consoleClip ui := by
  have hstatus : itemPixels ui'.status statusClip statusItems =
      itemPixels ui.status statusClip statusItems := by
    rw [itemPixels, itemPixels]
    congr 1
    funext item
    exact StatusItem.pixels_congr (hitems item) statusClip
  have hrow : ∀ row < availableRows consoleClip,
      rowPixels ui'.console consoleClip row = rowPixels ui.console consoleClip row := by
    intro row hlt
    unfold rowPixels
    refine List.flatMap_congr fun column hcolumn => ?_
    rw [cellAt, cellAt, hrows row (Nat.lt_of_lt_of_le hlt (availableRows_le consoleClip)) column
      (Nat.lt_of_lt_of_le (List.mem_range.1 hcolumn) (availableColumns_le consoleClip))]
  rw [drawing, drawing, hstatus]
  congr 1
  exact List.flatMap_congr fun row hlt => hrow row (List.mem_range.1 hlt)

/-- The display is dark where it draws nothing. -/
def Dark (statusClip consoleClip : Clip) (ui : Ui) : Prop :=
  ∀ p, (∀ w ∈ ui.fb.strokes (drawing statusClip consoleClip ui), w.1 ≠ p) →
    ui.fb.picture p = false

/-- **It stays dark** whatever of it is drawn. -/
theorem Dark.draw (h : Dark statusClip consoleClip ui) (hr : InRange ui.status)
    (hr' : InRange ui'.status) {l : List SetPixel} (hfb : ui'.fb = ui.fb.setPixels l)
    (hl : ∀ q ∈ l, q ∈ drawing statusClip consoleClip ui) : Dark statusClip consoleClip ui' := by
  intro p hp
  rw [hfb, (MonoFb.sameSize_setPixels ui.fb l).strokes] at hp
  have hold : ∀ w ∈ ui.fb.strokes (drawing statusClip consoleClip ui), w.1 ≠ p := by
    intro w hw he
    obtain ⟨w', hw', he'⟩ := strokes_points (points_drawing hr hr') w hw
    exact hp w' hw' (he'.trans he)
  have hnew : ∀ w ∈ ui.fb.strokes l, w.1 ≠ p := by
    intro w hw
    obtain ⟨q, hq, hon, rfl⟩ := mem_strokes.1 hw
    exact hold _ (mem_strokes.2 ⟨q, hl q hq, hon, rfl⟩)
  rw [hfb, MonoFb.picture_setPixels, Canvas.paint_of_ne hnew]
  exact h p hold

theorem dark_renderStatus (hwidth : statusClip.width = 128) (hheight : statusClip.height = 9)
    (hr : InRange ui.status) (h : Dark statusClip consoleClip ui) :
    Dark statusClip consoleClip (ui.renderStatus statusClip) := by
  obtain ⟨hfb, hstatus⟩ := render_status_eq hwidth hheight ui.status ui.fb
  have hr' : InRange (ui.renderStatus statusClip).status := by
    show InRange (ui.status.render ui.fb statusClip).1
    rw [hstatus]
    exact hr
  by_cases hframe : ui.status.dirty.getLsbD 0 = true
  · rw [if_pos hframe] at hfb
    exact h.draw hr hr' hfb fun q hq => List.mem_append_left _ hq
  · rw [if_neg hframe] at hfb
    refine h.draw hr hr' hfb fun q hq => List.mem_append_left _ (List.mem_append_right _ ?_)
    obtain ⟨item, -, hq⟩ := List.mem_flatMap.1 hq
    exact List.mem_flatMap.2 ⟨item, mem_statusItems item, hq⟩

theorem dark_renderConsole (hr : InRange ui.status) (h : Dark statusClip consoleClip ui) :
    Dark statusClip consoleClip (ui.renderConsole consoleClip) := by
  refine h.draw hr hr (render_eq ui.console ui.fb consoleClip).1 fun q hq => ?_
  obtain ⟨row, hrow, hq⟩ := List.mem_flatMap.1 hq
  exact List.mem_append_right _
    (List.mem_flatMap.2 ⟨row, List.mem_range.2 (mem_drawnRows.1 hrow).1, hq⟩)

/-! ## Compositions -/

/-- The display shows what it holds, and nothing else. -/
structure Composed (statusClip consoleClip : Clip) (ui : Ui) : Prop where
  synced : Synced statusClip consoleClip ui
  items : ui.status.dirty = 0
  rows : ConsoleShown consoleClip ui
  dark : Dark statusClip consoleClip ui

theorem isDirty_of_zero {s : OledStatusBar} (h : s.dirty = 0) (item : StatusItem) :
    item.isDirty s = false := by
  have hbit : ∀ j, s.dirty.getLsbD j = false := by
    intro j
    rw [h]
    exact BitVec.getLsbD_zero
  cases item with
  | indicator i => exact isDirty_indicator.2 (hbit _)
  | digit i =>
    refine isDirty_digit.2 fun hon => ?_
    rw [hbit] at hon
    cases hon

/-- **What is composed is its drawing on a dark ground.** However it came about,
nothing else is left on it. -/
theorem Composed.picture_eq (h : Composed statusClip consoleClip ui) :
    ui.fb.picture = paint (fun _ => false) (ui.fb.strokes (drawing statusClip consoleClip ui)) := by
  have hstatus : paint (paint ui.fb.picture (ui.fb.strokes (framePixels statusClip)))
      (ui.fb.strokes (itemPixels ui.status statusClip statusItems)) = ui.fb.picture := by
    refine h.synced.ground.paint_eq (consistent_itemPixels _ _ _ _) fun w hw => ?_
    rw [itemPixels, strokes_flatMap] at hw
    obtain ⟨item, -, hw⟩ := List.mem_flatMap.1 hw
    exact h.synced.items item (isDirty_of_zero h.items item) w hw
  have hrows : paint ui.fb.picture (ui.fb.strokes ((List.range (availableRows consoleClip)).flatMap
      (rowPixels ui.console consoleClip))) = ui.fb.picture := by
    refine Shows.paint_eq fun w hw => ?_
    rw [strokes_flatMap] at hw
    obtain ⟨row, hrow, hw⟩ := List.mem_flatMap.1 hw
    exact h.rows row (List.mem_range.1 hrow) w hw
  have hagain : paint ui.fb.picture (ui.fb.strokes (drawing statusClip consoleClip ui)) =
      ui.fb.picture := by
    rw [drawing, MonoFb.strokes_append, MonoFb.strokes_append, Canvas.paint_append,
      Canvas.paint_append, hstatus, hrows]
  exact hagain.symm.trans (Canvas.paint_congr h.dark)

/-- **Two compositions of the same are the same display,** byte for byte,
however either of them came about. -/
theorem Composed.pixels_eq (h : Composed statusClip consoleClip ui)
    (h' : Composed statusClip consoleClip ui') (hs : DisplaySize ui.fb) (hs' : DisplaySize ui'.fb)
    (heq : drawing statusClip consoleClip ui' = drawing statusClip consoleClip ui) {page x : ℕ}
    (hpage : page < ssd1306Pages) (hx : x < ssd1306Width) :
    ui'.fb.pixels page x = ui.fb.pixels page x := by
  refine pixels_of_picture hs hs' ?_ hpage hx
  rw [h.picture_eq, h'.picture_eq, heq, (hs.same hs').strokes]

/-- A framebuffer with the same picture may take its place. -/
theorem Composed.framebuffer (h : Composed statusClip consoleClip ui)
    (hsize : MonoFb.SameSize ui.fb fb) (hpicture : fb.picture = ui.fb.picture) :
    Composed statusClip consoleClip { ui with fb := fb } := by
  have hrows : ConsoleShown consoleClip { ui with fb := fb } := by
    intro row hrow
    show Shows fb.picture (fb.strokes _)
    rw [hpicture, hsize.strokes]
    exact h.rows row hrow
  refine ⟨⟨h.synced.time, ?_, fun item hclean => ?_, fun row hrow _ => hrows row hrow⟩, h.items,
    hrows, fun p hp => ?_⟩
  · show Canvas.Grounded fb.picture (fb.strokes _) (fb.strokes _)
    rw [hpicture, hsize.strokes, hsize.strokes]
    exact h.synced.ground
  · show Shows fb.picture (fb.strokes _)
    rw [hpicture, hsize.strokes]
    exact h.synced.items item hclean
  · have hp' : ∀ w ∈ fb.strokes (drawing statusClip consoleClip ui), w.1 ≠ p := hp
    rw [hsize.strokes] at hp'
    show fb.picture p = false
    rw [hpicture]
    exact h.dark p hp'

section

variable (hwidth : statusClip.width = 128) (hheight : statusClip.height = 9)
  (hdisjoint : ∀ x y, statusClip.contains x y = true → consoleClip.contains x y = false)

include hwidth hheight

/-- Drawing the status bar clears its marks, and no value of it. -/
theorem status_renderStatus (ui : Ui) :
    (ui.renderStatus statusClip).status = { ui.status with dirty := 0, timeDirty := 0 } :=
  (render_status_eq hwidth hheight ui.status ui.fb).2

include hdisjoint

/-- **The status bar is drawn on a dark framebuffer**, with a console of which
every row is marked. -/
theorem synced_fresh (ui : Ui) (hdark : ui.fb.picture = fun _ => false) (hr : InRange ui.status)
    (hframe : ui.status.dirty.getLsbD 0 = true)
    (hall : ∀ row < consoleRows, ui.console.dirtyRows.getLsbD row = true) :
    Synced statusClip consoleClip (ui.renderStatus statusClip) ∧
      Dark statusClip consoleClip (ui.renderStatus statusClip) := by
  refine ⟨(synced_renderStatus hwidth hheight hdisjoint hr (fun row hrow hclean => ?_)
    (Or.inl hframe)).1, dark_renderStatus hwidth hheight hr fun p _ => ?_⟩
  · rw [hall row (Nat.lt_of_lt_of_le hrow (availableRows_le consoleClip))] at hclean
    cases hclean
  · rw [hdark]

/-- **A composed display stays composed** when its status bar is set and drawn. -/
theorem Composed.renderStatus (h : Composed statusClip consoleClip ui) {s : OledStatusBar}
    (hmarks : StatusMarks ui.status s) (hr : InRange s) :
    Composed statusClip consoleClip (Ui.renderStatus statusClip { ui with status := s }) := by
  have hset := h.synced.status hmarks hr
  have hdark : Dark statusClip consoleClip { ui with status := s } :=
    h.dark.draw h.synced.time hr (l := []) rfl fun q hq => absurd hq List.not_mem_nil
  have hstatus := status_renderStatus hwidth hheight { ui with status := s }
  refine ⟨(synced_renderStatus hwidth hheight hdisjoint hr hset.rows (Or.inr hset)).1, ?_,
    fun row hrow => ?_, dark_renderStatus hwidth hheight hr hdark⟩
  · rw [hstatus]
  -- nothing of the status bar is where the row is
  · obtain ⟨l, hl, hblock⟩ : ∃ l, (s.render ui.fb statusClip).2 = ui.fb.setPixels l ∧
        InBlock statusClip 0 128 0 9 l := by
      rw [(render_status_eq hwidth hheight s ui.fb).1]
      split
      · exact ⟨_, rfl, (inBlock_framePixels hwidth hheight).append (inBlock_itemPixels _ _ _)⟩
      · exact ⟨_, rfl, inBlock_itemPixels _ _ _⟩
    show Shows (s.render ui.fb statusClip).2.picture ((s.render ui.fb statusClip).2.strokes
      (rowPixels ui.console consoleClip row))
    rw [hl]
    exact shows_row_setPixels hwidth hheight hdisjoint hblock ui.console row (h.rows row hrow)

/-- **And a display comes composed** when its console is drawn, if it was dark
but for what it has drawn. -/
theorem composed_renderConsole (h : Synced statusClip consoleClip ui)
    (hdark : Dark statusClip consoleClip ui) (hitems : ui.status.dirty = 0) :
    Composed statusClip consoleClip (ui.renderConsole consoleClip) :=
  ⟨(synced_renderConsole hwidth hheight hdisjoint h).1, hitems,
    (synced_renderConsole hwidth hheight hdisjoint h).2, dark_renderConsole h.time hdark⟩

end

/-! ## What is reached -/

/-- Pixels that are set are drawing. -/
theorem drawn_setPixels (h : fb.Tidy) (l : List SetPixel) : fb.Drawn (fb.setPixels l) :=
  MonoFb.Drawn.foldl (fun _ w hfb => MonoFb.drawn_setPixel hfb w.x w.y w.value) h l

/-- What the display misses stays dirty while the status bar is drawn. -/
theorem Reached.renderStatus (hwidth : statusClip.width = 128) (hheight : statusClip.height = 9)
    (h : Reached ui.fb d) : Reached (ui.renderStatus statusClip).fb d := by
  show Reached (ui.status.render ui.fb statusClip).2 d
  rw [(render_status_eq hwidth hheight ui.status ui.fb).1]
  split
  · exact h.drawn (drawn_setPixels h.tidy _)
  · exact h.drawn (drawn_setPixels h.tidy _)

/-- So it does while the console is. -/
theorem Reached.renderConsole (h : Reached ui.fb d) :
    Reached (ui.renderConsole consoleClip).fb d := by
  show Reached (ui.console.render ui.fb consoleClip).2 d
  rw [(render_eq ui.console ui.fb consoleClip).1]
  exact h.drawn (drawn_setPixels h.tidy _)

/-- Presenting leaves the bytes as they are. -/
theorem data_presentPages (dirty : BitVec 8) (left page : ℕ) (hleft : page + left ≤ maxPages)
    (fb : MonoFb) (d : Ssd1306) :
    (presentPages dirty left page fb d).1.data = fb.data ∧
      MonoFb.SameSize fb (presentPages dirty left page fb d).1 := by
  induction left generalizing page fb d with
  | zero => exact ⟨rfl, .refl fb⟩
  | succ left ih =>
    rw [presentPages]
    split
    · exact ih (page + 1) (by omega) fb d
    · split
      · exact ⟨rfl, .refl fb⟩
      · split
        · exact ⟨rfl, .refl fb⟩
        · split
          · exact ⟨rfl, .refl fb⟩
          · obtain ⟨hdata, hsize⟩ := ih (page + 1) (by omega) (fb.clearDirty (pageMask page)) _
            have hclear := MonoFb.clearDirty_pageMask (show page < maxPages by omega) fb
            rw [hdata]
            refine ⟨by rw [hclear], MonoFb.SameSize.trans ⟨?_, ?_⟩ hsize⟩
            · rw [hclear]
            · rw [hclear]

/-- **Presenting leaves the picture,** since it changes nothing of the
framebuffer but its marks. -/
theorem picture_present (fb : MonoFb) (d : Ssd1306) :
    (present fb d).1.picture = fb.picture ∧ MonoFb.SameSize fb (present fb d).1 := by
  have h : (present fb d).1.data = fb.data ∧ MonoFb.SameSize fb (present fb d).1 := by
    unfold present
    dsimp only
    split
    · exact ⟨rfl, .refl fb⟩
    · split
      · exact ⟨rfl, .refl fb⟩
      · split
        · exact ⟨rfl, .refl fb⟩
        · exact data_presentPages _ _ _ (by decide) _ _
  obtain ⟨hdata, hsize⟩ := h
  refine ⟨?_, hsize⟩
  funext p
  have hon : decide ((present fb d).1.OnScreen p) = decide (fb.OnScreen p) :=
    decide_eq_decide.2 (by rw [hsize.onScreen])
  rw [MonoFb.picture, MonoFb.picture, MonoFb.bit, MonoFb.bit, hsize.index, hdata, hon]

/-- A display of which nothing is dirty is the framebuffer. -/
theorem Reached.ram_eq (h : Reached fb d)
    (hclean : ∀ page < ssd1306Pages, fb.dirtyPages.getLsbD page = false) {page x : ℕ}
    (hpage : page < ssd1306Pages) (hx : x < ssd1306Width) :
    d.panel.ram page x = fb.pixels page x := by
  refine h.covers.eq (i := (page, x)) (fun p hp hdirty => ?_) ⟨?_, ?_⟩
  · have hp4 : p.1 < fb.pageCount := hp.1
    rw [h.pageCount] at hp4
    have hbit := hdirty.1
    rw [hclean p.1 hp4] at hbit
    cases hbit
  · rw [h.pageCount]
    exact hpage
  · rw [h.width]
    exact hx

end Display

end DeusOs
