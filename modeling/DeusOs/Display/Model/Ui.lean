import DeusOs.App.Model.Runtime
import DeusOs.Display.Model.Layout
import DeusOs.Display.Model.MonoFb

/-!
# The user interface

The status bar (`oled_status_bar.c`), the console (`oled_console.c`), the
glyph cells of `text_renderer.c` with the two fonts they draw, and
`application_runtime_bridge_apply_view`. A character is its byte. The nested
loops over `mono_fb_set_pixel` are the list of the calls, in their order.
-/

namespace DeusOs

namespace Display

/-- `mono_rect_t`, as the renderers add its fields. -/
structure Clip where
  x : Int32
  y : Int32
  width : Int32
  height : Int32
  deriving DecidableEq

/-- A rectangle of the layout. -/
def MonoRect.clip (r : MonoRect) : Clip :=
  ⟨Int32.ofInt r.x, Int32.ofInt r.y, Int32.ofInt r.width, Int32.ofInt r.height⟩

/-- `text_renderer_axis_contains`. -/
def axisContains (value start length : Int32) : Bool :=
  if length ≤ 0 then false
  else if value < start then false
  else decide ((value - start).toUInt32 < length.toUInt32)

/-- `text_renderer_clip_contains`. -/
def Clip.contains (clip : Clip) (x y : Int32) : Bool :=
  axisContains x clip.x clip.width && axisContains y clip.y clip.height

/-- A call of `mono_fb_set_pixel`. -/
structure SetPixel where
  x : Int32
  y : Int32
  value : Int32

/-- Calls of `mono_fb_set_pixel`. -/
def MonoFb.setPixels (fb : MonoFb) (l : List SetPixel) : MonoFb :=
  l.foldl (fun fb p => fb.setPixel p.x p.y p.value) fb

/-- `(uint8_t)(1u << i)`, of a dirty mask. -/
def dirtyBit (i : ℕ) : BitVec 8 := 1#8 <<< i

/-! ## Fonts -/

/-- The glyphs of `font3x5.c`. -/
def font3x5Data : List (UInt8 × List UInt8) :=
  [(0x30, [0x7, 0x5, 0x5, 0x5, 0x7]), (0x31, [0x2, 0x6, 0x2, 0x2, 0x7]),
    (0x32, [0x7, 0x1, 0x7, 0x4, 0x7]), (0x33, [0x7, 0x1, 0x7, 0x1, 0x7]),
    (0x34, [0x5, 0x5, 0x7, 0x1, 0x1]), (0x35, [0x7, 0x4, 0x7, 0x1, 0x7]),
    (0x36, [0x7, 0x4, 0x7, 0x5, 0x7]), (0x37, [0x7, 0x1, 0x2, 0x2, 0x2]),
    (0x38, [0x7, 0x5, 0x7, 0x5, 0x7]), (0x39, [0x7, 0x5, 0x7, 0x1, 0x7]),
    (0x3A, [0x0, 0x2, 0x0, 0x2, 0x0])]

/-- `font3x5_glyph`. -/
def font3x5Glyph (c : UInt8) : Option (List UInt8) := font3x5Data.lookup c

/-- `font5x6_data`. -/
def font5x6Data : List (List UInt8) :=
  [[0x1E, 0x29, 0x29, 0x25, 0x1E], [0x00, 0x22, 0x3F, 0x20, 0x00], [0x22, 0x31, 0x29, 0x29, 0x26],
    [0x11, 0x21, 0x25, 0x2B, 0x19], [0x08, 0x0C, 0x0A, 0x3F, 0x08], [0x17, 0x25, 0x25, 0x25, 0x19],
    [0x1C, 0x2A, 0x29, 0x29, 0x18], [0x01, 0x39, 0x09, 0x05, 0x03], [0x1E, 0x29, 0x29, 0x29, 0x1E],
    [0x06, 0x29, 0x29, 0x19, 0x0E], [0x3E, 0x09, 0x09, 0x09, 0x3E], [0x3F, 0x29, 0x29, 0x29, 0x1E],
    [0x1E, 0x21, 0x21, 0x21, 0x12], [0x3F, 0x21, 0x21, 0x12, 0x0C], [0x3F, 0x29, 0x29, 0x29, 0x21],
    [0x3F, 0x09, 0x09, 0x09, 0x01], [0x1E, 0x21, 0x29, 0x29, 0x3A], [0x3F, 0x08, 0x08, 0x08, 0x3F],
    [0x00, 0x21, 0x3F, 0x21, 0x00], [0x10, 0x20, 0x21, 0x1F, 0x01], [0x3F, 0x08, 0x0C, 0x12, 0x21],
    [0x3F, 0x20, 0x20, 0x20, 0x20], [0x3F, 0x02, 0x0C, 0x02, 0x3F], [0x3F, 0x04, 0x08, 0x08, 0x3F],
    [0x1E, 0x21, 0x21, 0x21, 0x1E], [0x3F, 0x09, 0x09, 0x09, 0x06], [0x1E, 0x21, 0x29, 0x11, 0x2E],
    [0x3F, 0x09, 0x09, 0x19, 0x26], [0x26, 0x29, 0x29, 0x29, 0x19], [0x01, 0x01, 0x3F, 0x01, 0x01],
    [0x1F, 0x20, 0x20, 0x20, 0x1F], [0x0F, 0x10, 0x20, 0x10, 0x0F], [0x1F, 0x20, 0x18, 0x20, 0x1F],
    [0x33, 0x0C, 0x08, 0x0C, 0x33], [0x07, 0x08, 0x38, 0x08, 0x07], [0x31, 0x29, 0x29, 0x25, 0x23],
    [0x00, 0x00, 0x00, 0x00, 0x00]]

/-- `font5x6_glyph`. -/
def font5x6Glyph (c : UInt8) : List UInt8 :=
  if 0x30 ≤ c ∧ c ≤ 0x39 then font5x6Data.getD (c - 0x30).toNat []
  else if 0x41 ≤ c ∧ c ≤ 0x5A then font5x6Data.getD (10 + (c - 0x41).toNat) []
  else font5x6Data.getD 36 []

/-- `mono_font_metrics_t`. -/
structure MonoFontMetrics where
  glyphWidth : ℕ
  glyphHeight : ℕ
  advanceX : ℕ
  advanceY : ℕ

/-- `font5x6_info`. -/
def font5x6Info : MonoFontMetrics := ⟨5, 6, 6, 7⟩

/-! ## The status bar -/

/-- `oled_status_bar_t`. The three indicators are the system's, that of USB
and that of the network: filled (1) or a ring (0). -/
structure OledStatusBar where
  hours : UInt8
  minutes : UInt8
  indicator : Fin 3 → UInt8
  dirty : BitVec 8
  timeDirty : BitVec 8

/-- `OLED_STATUS_DIRTY_ALL`, and `OLED_STATUS_TIME_DIRTY_ALL`. -/
def statusDirtyAll : BitVec 8 := 0x1F

/-- `indicator_filled`. -/
def indicatorFilled : List UInt8 := [0x0E, 0x1F, 0x1F, 0x1F, 0x0E]

/-- `indicator_ring`. -/
def indicatorRing : List UInt8 := [0x0E, 0x1B, 0x11, 0x1B, 0x0E]

/-- The calls of `draw_bitmap_5x5`, and of `draw_font3x5`: five rows, the
leftmost column in the highest bit. -/
def bitmapPixels (columns : ℕ) (x y : Int32) (bitmap : List UInt8) : List SetPixel :=
  (List.range 5).flatMap fun row =>
    (List.range columns).map fun column =>
      ⟨x + Int32.ofNat column, y + Int32.ofNat row,
        if bitmap.getD row 0 &&& 1 <<< UInt8.ofNat (columns - 1 - column) ≠ 0 then 1 else 0⟩

/-- `draw_bitmap_5x5`. -/
def drawBitmap5x5 (fb : MonoFb) (x y : Int32) (bitmap : List UInt8) : MonoFb :=
  fb.setPixels (bitmapPixels 5 x y bitmap)

/-- `draw_font3x5`. -/
def drawFont3x5 (fb : MonoFb) (x y : Int32) (c : UInt8) : MonoFb :=
  match font3x5Glyph c with
  | none => fb
  | some glyph => fb.setPixels (bitmapPixels 3 x y glyph)

/-- `clear_reference_rect`. -/
def clearReferenceRect (fb : MonoFb) (clip : Clip) : MonoFb :=
  fb.setPixels ((List.range clip.height.toNatClampNeg).flatMap fun dy =>
    (List.range clip.width.toNatClampNeg).map fun dx =>
      ⟨clip.x + Int32.ofNat dx, clip.y + Int32.ofNat dy, 0⟩)

/-- `oled_status_time_text`. -/
def oledStatusTimeText (hours minutes : UInt8) : Fin 5 → UInt8
  | 0 => 0x30 + hours / 10
  | 1 => 0x30 + hours % 10
  | 2 => 0x3A
  | 3 => 0x30 + minutes / 10
  | 4 => 0x30 + minutes % 10

/-- `time_x_offsets`. -/
def timeXOffsets : Fin 5 → Int32
  | 0 => 0
  | 1 => 4
  | 2 => 7
  | 3 => 10
  | 4 => 14

/-- Where `oled_status_bar_render` draws the indicators. -/
def indicatorX : Fin 3 → Int32
  | 0 => 2
  | 1 => 8
  | 2 => 14

namespace OledStatusBar

/-- `oled_status_bar_init`. -/
def init : OledStatusBar where
  hours := 0
  minutes := 0
  indicator := fun
    | 0 => 1
    | 1 => 1
    | 2 => 0
  dirty := statusDirtyAll
  timeDirty := statusDirtyAll

/-- `oled_status_bar_mark_all_dirty`. -/
def markAllDirty (status : OledStatusBar) : OledStatusBar :=
  { status with dirty := statusDirtyAll, timeDirty := statusDirtyAll }

/-- `oled_status_bar_set_time`. -/
def setTime (status : OledStatusBar) (hours minutes : UInt32) : OledStatusBar :=
  let newHours := if 99 < hours then 99 else hours.toUInt8
  let newMinutes := if 59 < minutes then 59 else minutes.toUInt8
  if status.hours = newHours ∧ status.minutes = newMinutes then status
  else
    let oldText := oledStatusTimeText status.hours status.minutes
    let newText := oledStatusTimeText newHours newMinutes
    let timeDirty := (List.finRange 5).foldl
      (fun d i => if oldText i ≠ newText i then d ||| dirtyBit i else d) status.timeDirty
    { status with
      hours := newHours
      minutes := newMinutes
      timeDirty := timeDirty
      dirty := if timeDirty ≠ 0 then status.dirty ||| dirtyBit 4 else status.dirty }

/-- What `oled_status_bar_set_indicators` does with one of its indicators. -/
def setIndicator (i : Fin 3) (value : UInt32) (status : OledStatusBar) : OledStatusBar :=
  let new : UInt8 := if value = 1 then 1 else 0
  if status.indicator i ≠ new then
    { status with
      indicator := Function.update status.indicator i new
      dirty := status.dirty ||| dirtyBit (i + 1) }
  else status

/-- `oled_status_bar_set_indicators`. -/
def setIndicators (status : OledStatusBar) (system usb network : UInt32) : OledStatusBar :=
  ((status.setIndicator 0 system).setIndicator 1 usb).setIndicator 2 network

/-- The frame of `oled_status_bar_render`. -/
def drawFrame (fb : MonoFb) (clip : Clip) : MonoFb :=
  (List.range 7).foldl
    (fun fb i =>
      (fb.setPixel clip.x (clip.y + 1 + Int32.ofNat i) 1).setPixel (clip.x + 127)
        (clip.y + 1 + Int32.ofNat i) 1)
    (((clearReferenceRect fb clip).hline clip.x clip.y clip.width 1).hline clip.x (clip.y + 8)
      clip.width 1)

/-- The indicators and the time that `oled_status_bar_render` draws. -/
def drawItems (status : OledStatusBar) (fb : MonoFb) (clip : Clip) : MonoFb :=
  let fb := (List.finRange 3).foldl
    (fun fb (i : Fin 3) =>
      if status.dirty &&& dirtyBit (i + 1) ≠ 0 then
        drawBitmap5x5 fb (clip.x + indicatorX i) (clip.y + 2)
          (if status.indicator i = 1 then indicatorFilled else indicatorRing)
      else fb) fb
  if status.dirty &&& dirtyBit 4 ≠ 0 then
    (List.finRange 5).foldl
      (fun fb (i : Fin 5) =>
        if status.timeDirty &&& dirtyBit i = 0 then fb
        else
          drawFont3x5 fb (clip.x + 109 + timeXOffsets i) (clip.y + 2)
            (oledStatusTimeText status.hours status.minutes i)) fb
  else fb

/-- `oled_status_bar_render`. -/
def render (status : OledStatusBar) (fb : MonoFb) (clip : Clip) : OledStatusBar × MonoFb :=
  if clip.width ≠ 128 ∨ clip.height ≠ 9 then (status, fb)
  else if status.dirty &&& dirtyBit 0 ≠ 0 then
    let marked := { status with
      dirty := status.dirty ||| statusDirtyAll, timeDirty := status.timeDirty ||| statusDirtyAll }
    ({ marked with dirty := 0, timeDirty := 0 }, marked.drawItems (drawFrame fb clip) clip)
  else ({ status with dirty := 0, timeDirty := 0 }, status.drawItems fb clip)

end OledStatusBar

/-! ## The console -/

/-- `oled_console_t`. -/
structure OledConsole where
  cells : ℕ → ℕ → UInt8
  firstRow : UInt8
  cursorX : UInt8
  cursorY : UInt8
  dirtyRows : BitVec 8

/-- `OLED_CONSOLE_COLUMNS`. -/
def consoleColumns : ℕ := 21

/-- `OLED_CONSOLE_ROWS`. -/
def consoleRows : ℕ := 3

/-- `oled_console_all_rows_mask`. -/
def consoleAllRowsMask : BitVec 8 := dirtyBit consoleRows - 1

namespace OledConsole

/-- `oled_console_mark_row`. -/
def markRow (console : OledConsole) (row : ℕ) : OledConsole :=
  if consoleRows ≤ row then console
  else { console with dirtyRows := console.dirtyRows ||| dirtyBit row }

/-- `oled_console_clear_physical_row`. -/
def clearPhysicalRow (console : OledConsole) (physicalRow : ℕ) : OledConsole :=
  if consoleRows ≤ physicalRow then console
  else { console with cells := Function.update console.cells physicalRow fun _ => 0x20 }

/-- `oled_console_scroll_one`. -/
def scrollOne (console : OledConsole) : OledConsole :=
  let firstRow := UInt8.ofNat ((console.firstRow.toNat + 1) % consoleRows)
  let newBottomRow := (firstRow.toNat + (consoleRows - 1)) % consoleRows
  { { console with firstRow := firstRow }.clearPhysicalRow newBottomRow with
    dirtyRows := consoleAllRowsMask }

/-- `oled_console_prepare_printable`. -/
def preparePrintable (console : OledConsole) : OledConsole :=
  let console :=
    if consoleRows ≤ console.cursorY.toNat then
      { console.scrollOne with cursorY := UInt8.ofNat (consoleRows - 1), cursorX := 0 }
    else console
  if consoleColumns ≤ console.cursorX.toNat then
    let console := { console with cursorX := 0 }
    if console.cursorY.toNat + 1 < consoleRows then
      { console with cursorY := console.cursorY + 1 }
    else { console.scrollOne with cursorY := UInt8.ofNat (consoleRows - 1) }
  else console

/-- `oled_console_clear`, and `oled_console_init`. -/
def clear (console : OledConsole) : OledConsole :=
  { console with
    cells := fun _ _ => 0x20
    firstRow := 0
    cursorX := 0
    cursorY := 0
    dirtyRows := consoleAllRowsMask }

/-- The cell that `oled_console_putc` writes, once the cursor is prepared. -/
def putPrintable (console : OledConsole) (c : UInt8) : OledConsole :=
  let physicalRow := (console.firstRow.toNat + console.cursorY.toNat) % consoleRows
  let console :=
    { console with
      cells := Function.update console.cells physicalRow
        (Function.update (console.cells physicalRow) console.cursorX.toNat c) }
  { console.markRow console.cursorY.toNat with cursorX := console.cursorX + 1 }

/-- `oled_console_putc`. -/
def putc (console : OledConsole) (c : UInt8) : OledConsole :=
  if c = 0x0D then { console with cursorX := 0 }
  else if c = 0x0A then
    let console := { console with cursorX := 0 }
    if console.cursorY.toNat < consoleRows then { console with cursorY := console.cursorY + 1 }
    else { console.scrollOne with cursorY := UInt8.ofNat consoleRows }
  else if c < 0x20 ∨ 0x7E < c then console
  else console.preparePrintable.putPrintable c

/-- `oled_console_write`: up to the zero that ends the text. -/
def write (console : OledConsole) (text : List UInt8) : OledConsole :=
  (text.takeWhile fun c => c ≠ 0).foldl putc console

/-- `oled_console_write_line`. -/
def writeLine (console : OledConsole) (text : List UInt8) : OledConsole :=
  (console.write text).putc 0x0A

/-- `available_columns` of `oled_console_render`. -/
def availableColumns (clip : Clip) : ℕ :=
  min (if clip.width.toUInt32.toNat < font5x6Info.glyphWidth then 0
    else 1 + (clip.width.toUInt32.toNat - font5x6Info.glyphWidth) / font5x6Info.advanceX)
    consoleColumns

/-- `available_rows` of `oled_console_render`. -/
def availableRows (clip : Clip) : ℕ :=
  min (if clip.height.toUInt32.toNat < font5x6Info.glyphHeight then 0
    else 1 + (clip.height.toUInt32.toNat - font5x6Info.glyphHeight) / font5x6Info.advanceY)
    consoleRows

/-- The calls of `text_renderer_draw_cell_generic`. -/
def cellPixels (clip : Clip) (x y : Int32) (glyph : List UInt8) (metrics : MonoFontMetrics) :
    List SetPixel :=
  (List.range metrics.advanceX).flatMap fun column =>
    (List.range metrics.advanceY).flatMap fun row =>
      if clip.contains (x + Int32.ofNat column) (y + Int32.ofNat row) = false then []
      else
        [⟨x + Int32.ofNat column, y + Int32.ofNat row,
          if column < metrics.glyphWidth ∧ row < metrics.glyphHeight ∧
            glyph.getD column 0 &&& 1 <<< UInt8.ofNat row ≠ 0 then 1 else 0⟩]

/-- `text_renderer_draw_glyph_cell`. -/
def drawGlyphCell (fb : MonoFb) (clip : Clip) (x y : Int32) (glyph : List UInt8)
    (metrics : MonoFontMetrics) : MonoFb :=
  if metrics.glyphWidth = 0 ∨ metrics.glyphHeight = 0 ∨ metrics.advanceX = 0 ∨
      metrics.advanceY = 0 ∨ clip.width ≤ 0 ∨ clip.height ≤ 0 then fb
  else fb.setPixels (cellPixels clip x y glyph metrics)

/-- A row of `oled_console_render`. -/
def drawRow (console : OledConsole) (clip : Clip) (fb : MonoFb) (row : ℕ) : MonoFb :=
  let physicalRow := (console.firstRow.toNat + row) % consoleRows
  (List.range (availableColumns clip)).foldl
    (fun fb column =>
      drawGlyphCell fb clip (clip.x + Int32.ofNat (column * font5x6Info.advanceX))
        (clip.y + Int32.ofNat (row * font5x6Info.advanceY))
        (font5x6Glyph (console.cells physicalRow column)) font5x6Info) fb

/-- `oled_console_render`. -/
def render (console : OledConsole) (fb : MonoFb) (clip : Clip) : OledConsole × MonoFb :=
  if clip.width ≤ 0 ∨ clip.height ≤ 0 then (console, fb)
  else if console.dirtyRows = 0 ∨ availableColumns clip = 0 ∨ availableRows clip = 0 then
    (console, fb)
  else
    let drawn := (List.range (availableRows clip)).foldl
      (fun (drawn : MonoFb × BitVec 8) row =>
        if console.dirtyRows &&& dirtyBit row = 0 then drawn
        else (console.drawRow clip drawn.1 row, drawn.2 ||| dirtyBit row)) (fb, 0)
    ({ console with dirtyRows := console.dirtyRows &&& ~~~drawn.2 }, drawn.1)

/-- The characters of a row of a view, blank behind its zero. -/
def viewChars : Bool → List UInt8 → List UInt8
  | _, [] => []
  | true, _ :: source => 0x20 :: viewChars true source
  | false, c :: source => if c = 0 then 0x20 :: viewChars true source else c :: viewChars false source

/-- A cell of `application_runtime_bridge_apply_view`, with the rows it has
marked. -/
def applyCell (row : ℕ) (applied : (ℕ → ℕ → UInt8) × BitVec 8) (desired : UInt8 × ℕ) :
    (ℕ → ℕ → UInt8) × BitVec 8 :=
  if applied.1 row desired.2 ≠ desired.1 then
    (Function.update applied.1 row (Function.update (applied.1 row) desired.2 desired.1),
      applied.2 ||| dirtyBit row)
  else applied

/-- `application_runtime_bridge_apply_view`, of the view that the runtime has
while an application is active. -/
def applyView (console : OledConsole) (view : Option App.View) (forceRows : UInt32) : OledConsole :=
  match view with
  | none => console
  | some view =>
    let dirtyRows : BitVec 8 :=
      if forceRows ≠ 0 ∨ console.firstRow ≠ 0 then consoleAllRowsMask else 0
    let applied := (List.finRange 3).foldl
      (fun applied (row : Fin 3) =>
        (viewChars false ((List.ofFn (view row)).take consoleColumns)).zipIdx.foldl
          (applyCell row) applied) (console.cells, dirtyRows)
    { cells := applied.1
      firstRow := 0
      cursorX := 0
      cursorY := UInt8.ofNat consoleRows
      dirtyRows := console.dirtyRows ||| applied.2 }

/-- Everything is marked dirty. -/
def markAllDirty (console : OledConsole) : OledConsole :=
  { console with dirtyRows := consoleAllRowsMask }

end OledConsole

/-! ## The display -/

/-- The producers, and the framebuffer they share. -/
structure Ui where
  status : OledStatusBar
  console : OledConsole
  fb : MonoFb

/-- A call. -/
inductive UiCall
  | setTime (hours minutes : UInt32)
  | setIndicators (system usb network : UInt32)
  | renderStatus
  | putc (c : UInt8)
  | write (text : List UInt8)
  | writeLine (text : List UInt8)
  | clear
  | renderConsole
  | applyView (view : Option App.View) (forceRows : UInt32)

namespace Ui

/-- The status bar is rendered. -/
def renderStatus (statusClip : Clip) (ui : Ui) : Ui :=
  { ui with
    status := (ui.status.render ui.fb statusClip).1
    fb := (ui.status.render ui.fb statusClip).2 }

/-- The console is rendered. -/
def renderConsole (consoleClip : Clip) (ui : Ui) : Ui :=
  { ui with
    console := (ui.console.render ui.fb consoleClip).1
    fb := (ui.console.render ui.fb consoleClip).2 }

/-- One call. -/
def step (statusClip consoleClip : Clip) (ui : Ui) : UiCall → Ui
  | .setTime hours minutes => { ui with status := ui.status.setTime hours minutes }
  | .setIndicators system usb network =>
    { ui with status := ui.status.setIndicators system usb network }
  | .renderStatus => ui.renderStatus statusClip
  | .putc c => { ui with console := ui.console.putc c }
  | .write text => { ui with console := ui.console.write text }
  | .writeLine text => { ui with console := ui.console.writeLine text }
  | .clear => { ui with console := ui.console.clear }
  | .renderConsole => ui.renderConsole consoleClip
  | .applyView view forceRows => { ui with console := ui.console.applyView view forceRows }

/-- The display after a list of calls. -/
def run (statusClip consoleClip : Clip) (ui : Ui) (calls : List UiCall) : Ui :=
  calls.foldl (step statusClip consoleClip) ui

/-- The status bar is marked dirty as a whole. -/
def markStatus (ui : Ui) : Ui := { ui with status := ui.status.markAllDirty }

/-- So is the console. -/
def markConsole (ui : Ui) : Ui := { ui with console := ui.console.markAllDirty }

end Ui

end Display

end DeusOs
