import DeusOs.Display.Model.MonoFb

/-!
# The display and its driver

The controller as its driver sees it: 128 × 4 bytes of memory, a window of
columns and pages, and a pointer that goes through the window row by row
and wraps. `ssd1306.c`: `ssd1306_present`, over a bus on which every write
may fail.
-/

namespace DeusOs

namespace Display

open Nor (Mem)

/-- `SSD1306_WIDTH`. -/
def ssd1306Width : ℕ := 128

/-- `SSD1306_HEIGHT`. -/
def ssd1306Height : ℕ := 32

/-- `SSD1306_PAGES`. -/
def ssd1306Pages : ℕ := 4

/-- `SSD1306_CONTROL_CMD`. -/
def controlCmd : UInt8 := 0x00

/-- `SSD1306_CONTROL_DATA`. -/
def controlData : UInt8 := 0x40

/-- `SSD1306_FLUSH_CHUNK_DATA`. -/
def flushChunkData : ℕ := 16

/-! ## The controller -/

/-- The columns and pages that the pointer goes through. -/
structure Window where
  columnStart : ℕ
  columnEnd : ℕ
  pageStart : ℕ
  pageEnd : ℕ

/-- Where the next byte is stored. -/
structure Pointer where
  column : ℕ
  page : ℕ

/-- The controller: what it displays, page by page, and where it stores. -/
structure Panel where
  ram : ℕ → ℕ → UInt8
  window : Window
  pointer : Pointer

/-- The pointer moves on, and wraps at the ends of the window. -/
def Window.next (w : Window) (p : Pointer) : Pointer :=
  if p.column = w.columnEnd then
    ⟨w.columnStart, if p.page = w.pageEnd then w.pageStart else (p.page + 1) % ssd1306Pages⟩
  else ⟨(p.column + 1) % ssd1306Width, p.page⟩

namespace Panel

def store (panel : Panel) (byte : UInt8) : Panel :=
  { panel with
    ram := Function.update panel.ram panel.pointer.page
      (Function.update (panel.ram panel.pointer.page) panel.pointer.column byte)
    pointer := panel.window.next panel.pointer }

def storeAll (panel : Panel) (bytes : List UInt8) : Panel := bytes.foldl store panel

/-- A whole packet arrives: a window, or data. -/
def receive (panel : Panel) : List UInt8 → Panel
  | [0x00, 0x21, x0, x1, 0x22, page0, page1] =>
    { panel with
      window := ⟨x0.toNat, x1.toNat, page0.toNat, page1.toNat⟩
      pointer := ⟨x0.toNat, page0.toNat⟩ }
  | 0x40 :: data => panel.storeAll data
  | _ => panel

end Panel

/-- What becomes of a write to the bus. Of a failed one the controller has
taken some bytes of data, or holds any window and pointer. -/
inductive Transfer
  | done
  | failed (stored : ℕ) (window : Window) (pointer : Pointer)

/-- A packet of which the write failed. -/
def Panel.receivePart (panel : Panel) (stored : ℕ) (window : Window) (pointer : Pointer) :
    List UInt8 → Panel
  | 0x40 :: data => panel.storeAll (data.take stored)
  | _ => { panel with window, pointer }

/-! ## The driver -/

/-- `ssd1306_present_stats_t`. -/
structure PresentStats where
  windowPayloadBytes : ℕ
  dataPayloadBytes : ℕ
  i2cWriteCount : ℕ
  presentedPages : ℕ

/-- The driver: the controller behind its bus, what becomes of the writes
to come, and `ssd1306_last_present_stats`. -/
structure Ssd1306 where
  panel : Panel
  transfers : ℕ → Transfer
  stats : PresentStats

/-- `i2c1_write`, to the controller. -/
def i2c1Write (d : Ssd1306) (packet : List UInt8) : Ssd1306 × Bool :=
  match d.transfers 0 with
  | .done =>
    ({ d with panel := d.panel.receive packet, transfers := fun n => d.transfers (n + 1) }, true)
  | .failed stored window pointer =>
    ({ d with
        panel := d.panel.receivePart stored window pointer packet
        transfers := fun n => d.transfers (n + 1) }, false)

/-- `ssd1306_set_page_window`. -/
def setPageWindow (d : Ssd1306) (page x0 x1 : ℕ) : Ssd1306 × Bool :=
  if ssd1306Pages ≤ page ∨ ssd1306Width ≤ x0 ∨ ssd1306Width ≤ x1 ∨ x1 < x0 then (d, false)
  else
    i2c1Write
      { d with stats := { d.stats with
          i2cWriteCount := d.stats.i2cWriteCount + 1
          windowPayloadBytes := d.stats.windowPayloadBytes + 7 } }
      [controlCmd, 0x21, UInt8.ofNat x0, UInt8.ofNat x1, 0x22, UInt8.ofNat page,
        UInt8.ofNat page]

/-- The transfer of one span: the `while` of `ssd1306_present`. -/
def presentSpan (d : Ssd1306) (data : Mem) (base x1 offset : ℕ) : Ssd1306 × Bool :=
  if _h : offset ≤ x1 then
    let remaining := x1 - offset + 1
    let chunk := if flushChunkData < remaining then flushChunkData else remaining
    match i2c1Write
        { d with stats := { d.stats with
            i2cWriteCount := d.stats.i2cWriteCount + 1
            dataPayloadBytes := d.stats.dataPayloadBytes + (1 + chunk) } }
        (controlData :: data.bytes (base + offset) chunk) with
    | (d, false) => (d, false)
    | (d, true) => presentSpan d data base x1 (offset + chunk)
  else (d, true)
termination_by x1 + 1 - offset
decreasing_by
  unfold flushChunkData
  split <;> omega

/-- The pages that are left: the `for` of `ssd1306_present`, with the pages
that were dirty before it. A page is clean only when its whole span was
transferred. -/
def presentPages (dirty : BitVec 8) :
    ℕ → ℕ → MonoFb → Ssd1306 → MonoFb × Ssd1306 × Bool
  | 0, _, fb, d => (fb, d, true)
  | left + 1, page, fb, d =>
    if dirty &&& pageMask page = 0 then presentPages dirty left (page + 1) fb d
    else
      match fb.dirtySpan page with
      | none => (fb, d, false)
      | some (x0, x1) =>
        match setPageWindow d page x0 x1 with
        | (d, false) => (fb, d, false)
        | (d, true) =>
          match presentSpan d fb.data (page * ssd1306Width) x1 x0 with
          | (d, false) => (fb, d, false)
          | (d, true) =>
            presentPages dirty left (page + 1) (fb.clearDirty (pageMask page))
              { d with stats := { d.stats with presentedPages := d.stats.presentedPages + 1 } }

/-- `ssd1306_present`. -/
def present (fb : MonoFb) (d : Ssd1306) : MonoFb × Ssd1306 × Bool :=
  let d := { d with stats := ⟨0, 0, 0, 0⟩ }
  if fb.width ≠ ssd1306Width ∨ fb.height ≠ ssd1306Height then (fb, d, false)
  else if fb.dirtyPages &&& ~~~(pageMask ssd1306Pages - 1) ≠ 0 then (fb, d, false)
  else if fb.dirtyPages = 0 then (fb, d, true)
  else presentPages fb.dirtyPages ssd1306Pages 0 fb d

/-! ## The system -/

/-- What is done with the framebuffer and the display. -/
inductive Operation
  | setPixel (x y value : Int32)
  | hline (x y width value : Int32)
  | vline (x y height value : Int32)
  | rect (x y width height value : Int32)
  | clear
  | writeMaskedByte (page x : ℕ) (value mask : UInt8)
  | present

def Operation.apply (fb : MonoFb) (d : Ssd1306) : Operation → MonoFb × Ssd1306
  | .setPixel x y value => (fb.setPixel x y value, d)
  | .hline x y width value => (fb.hline x y width value, d)
  | .vline x y height value => (fb.vline x y height value, d)
  | .rect x y width height value => (fb.rect x y width height value, d)
  | .clear => (fb.clear, d)
  | .writeMaskedByte page x value mask => ((fb.writeMaskedByte page x value mask).1, d)
  | .present => ((Display.present fb d).1, (Display.present fb d).2.1)

/-- The operations, one after the other. -/
def run : List Operation → MonoFb → Ssd1306 → MonoFb × Ssd1306
  | [], fb, d => (fb, d)
  | operation :: operations, fb, d =>
    run operations (operation.apply fb d).1 (operation.apply fb d).2

end Display

end DeusOs
