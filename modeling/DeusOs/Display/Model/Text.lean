import DeusOs.Display.Model.Ui

/-!
# Text cells

The cells of `text_renderer.c` in `font5x7.c`: the generic renderer, which
sets one pixel after the other, and the path for rows that are aligned to a
page, which writes whole bytes.
-/

namespace DeusOs

namespace Display

/-- `font5x7_data`. -/
def font5x7Data : List (List UInt8) :=
  [[0x3E, 0x51, 0x49, 0x45, 0x3E], [0x00, 0x42, 0x7F, 0x40, 0x00], [0x42, 0x61, 0x51, 0x49, 0x46],
    [0x21, 0x41, 0x45, 0x4B, 0x31], [0x18, 0x14, 0x12, 0x7F, 0x10], [0x27, 0x45, 0x45, 0x45, 0x39],
    [0x3C, 0x4A, 0x49, 0x49, 0x30], [0x01, 0x71, 0x09, 0x05, 0x03], [0x36, 0x49, 0x49, 0x49, 0x36],
    [0x06, 0x49, 0x49, 0x29, 0x1E], [0x7E, 0x11, 0x11, 0x11, 0x7E], [0x7F, 0x49, 0x49, 0x49, 0x36],
    [0x3E, 0x41, 0x41, 0x41, 0x22], [0x7F, 0x41, 0x41, 0x22, 0x1C], [0x7F, 0x49, 0x49, 0x49, 0x41],
    [0x7F, 0x09, 0x09, 0x09, 0x01], [0x3E, 0x41, 0x49, 0x49, 0x7A], [0x7F, 0x08, 0x08, 0x08, 0x7F],
    [0x00, 0x41, 0x7F, 0x41, 0x00], [0x20, 0x40, 0x41, 0x3F, 0x01], [0x7F, 0x08, 0x14, 0x22, 0x41],
    [0x7F, 0x40, 0x40, 0x40, 0x40], [0x7F, 0x02, 0x0C, 0x02, 0x7F], [0x7F, 0x04, 0x08, 0x10, 0x7F],
    [0x3E, 0x41, 0x41, 0x41, 0x3E], [0x7F, 0x09, 0x09, 0x09, 0x06], [0x3E, 0x41, 0x51, 0x21, 0x5E],
    [0x7F, 0x09, 0x19, 0x29, 0x46], [0x46, 0x49, 0x49, 0x49, 0x31], [0x01, 0x01, 0x7F, 0x01, 0x01],
    [0x3F, 0x40, 0x40, 0x40, 0x3F], [0x1F, 0x20, 0x40, 0x20, 0x1F], [0x3F, 0x40, 0x38, 0x40, 0x3F],
    [0x63, 0x14, 0x08, 0x14, 0x63], [0x07, 0x08, 0x70, 0x08, 0x07], [0x61, 0x51, 0x49, 0x45, 0x43],
    [0x00, 0x00, 0x00, 0x00, 0x00]]

/-- `font5x7_glyph`. -/
def font5x7Glyph (c : UInt8) : List UInt8 :=
  if 0x30 ≤ c ∧ c ≤ 0x39 then font5x7Data.getD (c - 0x30).toNat []
  else if 0x41 ≤ c ∧ c ≤ 0x5A then font5x7Data.getD (10 + (c - 0x41).toNat) []
  else font5x7Data.getD 36 []

/-- `font5x7_info`. -/
def font5x7Info : MonoFontMetrics := ⟨5, 7, 6, 8⟩

namespace MonoFb

/-- `text_renderer_draw_cell_generic`. -/
def drawCellGeneric (fb : MonoFb) (clip : Clip) (x y : Int32) (glyph : List UInt8)
    (metrics : MonoFontMetrics) : MonoFb :=
  fb.setPixels (OledConsole.cellPixels clip x y glyph metrics)

/-- `text_renderer_can_use_aligned_fast_path`. -/
def canUseAlignedFastPath (fb : MonoFb) (y : Int32) (metrics : MonoFontMetrics) : Bool :=
  if metrics.glyphWidth ≠ 5 ∨ metrics.glyphHeight ≠ 7 ∨ metrics.advanceX ≠ 6 ∨
      metrics.advanceY ≠ 8 then false
  else if y < 0 ∨ y &&& 7 ≠ 0 then false
  else decide ((y.toUInt32 + 7).toNat < fb.height)

/-- The rows of the cell at `y`, out of the first `rows`, that the clip shows. -/
def verticalMask (fb : MonoFb) (clip : Clip) (y : Int32) (rows : ℕ) : UInt8 :=
  (List.range rows).foldl
    (fun mask row =>
      let py := y + Int32.ofNat row
      if axisContains py clip.y clip.height = true ∧ 0 ≤ py ∧ py.toNatClampNeg < fb.height then
        mask ||| 1 <<< UInt8.ofNat row
      else mask) 0

/-- A column of `text_renderer_draw_cell_aligned`. -/
def drawColumnAligned (fb : MonoFb) (clip : Clip) (x : Int32) (page : ℕ) (verticalMask : UInt8)
    (glyph : List UInt8) (column : ℕ) : MonoFb :=
  let px := x + Int32.ofNat column
  if px < 0 ∨ fb.width ≤ px.toNatClampNeg ∨ axisContains px clip.x clip.width = false then fb
  else
    let cellBits := if column < 5 then glyph.getD column 0 else 0
    (fb.writeMaskedByte page px.toNatClampNeg cellBits verticalMask).1

/-- `text_renderer_draw_cell_aligned`. -/
def drawCellAligned (fb : MonoFb) (clip : Clip) (x y : Int32) (glyph : List UInt8) : MonoFb :=
  let page := (y.toUInt32 >>> 3).toNat
  let verticalMask := fb.verticalMask clip y 8
  if verticalMask = 0 then fb
  else
    (List.range 6).foldl
      (fun fb column => fb.drawColumnAligned clip x page verticalMask glyph column) fb

/-- `text_renderer_draw_cell`. -/
def drawCell (fb : MonoFb) (clip : Clip) (x y : Int32) (c : UInt8) : MonoFb :=
  if clip.width ≤ 0 ∨ clip.height ≤ 0 then fb
  else if fb.canUseAlignedFastPath y font5x7Info = true then
    fb.drawCellAligned clip x y (font5x7Glyph c)
  else fb.drawCellGeneric clip x y (font5x7Glyph c) font5x7Info

end MonoFb

end Display

end DeusOs
