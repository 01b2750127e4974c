import Mathlib.Data.BitVec
import Mathlib.Logic.Function.Basic
import DeusOs.Common.Nor.Memory

/-!
# The framebuffer

`mono_fb.c`: a monochrome picture in pages of eight rows, one byte a column,
and for every page the span of columns that changed since it was last
presented. The framebuffer and its storage are never null here.
-/

namespace DeusOs

namespace Display

open Nor (Mem)

/-- `MONO_FB_MAX_PAGES`. -/
def maxPages : ℕ := 8

/-- `MONO_FB_SPAN_CLEAN`. -/
def spanClean : ℕ := 0xFFFF

/-- `mono_fb_t`. The spans are `uint16_t`. -/
structure MonoFb where
  data : Mem
  width : ℕ
  height : ℕ
  dirtyPages : BitVec 8
  dirtyMinX : ℕ → ℕ
  dirtyMaxX : ℕ → ℕ

/-- `(uint8_t)(1u << page)`. -/
def pageMask (page : ℕ) : BitVec 8 := 1#8 <<< page

namespace MonoFb

/-- `mono_fb_page_count`. -/
def pageCount (fb : MonoFb) : ℕ := (fb.height + 7) % 4294967296 / 8

/-- `mono_fb_valid`. -/
def Valid (fb : MonoFb) : Prop :=
  fb.width ≠ 0 ∧ fb.height ≠ 0 ∧ fb.width ≤ 0xFFFF ∧ fb.pageCount ≤ maxPages

instance (fb : MonoFb) : Decidable fb.Valid := inferInstanceAs (Decidable (_ ∧ _ ∧ _ ∧ _))

/-- The byte of a page's column. -/
def pixels (fb : MonoFb) (page x : ℕ) : UInt8 := fb.data (page * fb.width + x)

/-- `mono_fb_reset_span`. -/
def resetSpan (fb : MonoFb) (page : ℕ) : MonoFb :=
  if maxPages ≤ page then fb
  else
    { fb with
      dirtyMinX := Function.update fb.dirtyMinX page spanClean
      dirtyMaxX := Function.update fb.dirtyMaxX page 0 }

/-- `mono_fb_mark_page_x`. -/
def markPageX (fb : MonoFb) (page x : ℕ) : MonoFb :=
  if maxPages ≤ page ∨ fb.width ≤ x ∨ 0xFFFF < x then fb
  else if fb.dirtyPages &&& pageMask page = 0 then
    { fb with
      dirtyMinX := Function.update fb.dirtyMinX page x
      dirtyMaxX := Function.update fb.dirtyMaxX page x
      dirtyPages := fb.dirtyPages ||| pageMask page }
  else
    { fb with
      dirtyMinX := if x < fb.dirtyMinX page then Function.update fb.dirtyMinX page x
        else fb.dirtyMinX
      dirtyMaxX := if fb.dirtyMaxX page < x then Function.update fb.dirtyMaxX page x
        else fb.dirtyMaxX }

/-- `mono_fb_init`. -/
def init (storage : Mem) (width height : ℕ) : MonoFb where
  data := storage
  width := width
  height := height
  dirtyPages := 0
  dirtyMinX := fun _ => spanClean
  dirtyMaxX := fun _ => 0

/-- `mono_fb_mark_all_dirty`. -/
def markAllDirty (fb : MonoFb) : MonoFb :=
  if ¬ fb.Valid then fb
  else
    { fb with
      dirtyPages := if maxPages ≤ fb.pageCount then 0xFF
        else if fb.pageCount = 0 then 0
        else pageMask fb.pageCount - 1
      dirtyMinX := fun page => if page < fb.pageCount then 0 else spanClean
      dirtyMaxX := fun page => if page < fb.pageCount then fb.width - 1 else 0 }

/-- `mono_fb_dirty_span`. -/
def dirtySpan (fb : MonoFb) (page : ℕ) : Option (ℕ × ℕ) :=
  if ¬ fb.Valid ∨ fb.pageCount ≤ page ∨ maxPages ≤ page then none
  else if fb.dirtyPages &&& pageMask page = 0 ∨ fb.dirtyMinX page = spanClean ∨
      fb.dirtyMaxX page < fb.dirtyMinX page ∨ fb.width ≤ fb.dirtyMaxX page then none
  else some (fb.dirtyMinX page, fb.dirtyMaxX page)

/-- `mono_fb_clear_dirty`. -/
def clearDirty (fb : MonoFb) (mask : BitVec 8) : MonoFb :=
  (List.range maxPages).foldl
    (fun fb page => if mask &&& pageMask page ≠ 0 then fb.resetSpan page else fb)
    { fb with dirtyPages := fb.dirtyPages &&& ~~~mask }

/-- `mono_fb_write_masked_byte`: whether the byte changed. -/
def writeMaskedByte (fb : MonoFb) (page x : ℕ) (value mask : UInt8) : MonoFb × Bool :=
  if ¬ fb.Valid ∨ fb.pageCount ≤ page ∨ maxPages ≤ page ∨ fb.width ≤ x ∨ mask = 0 then (fb, false)
  else
    let index := page * fb.width + x
    let oldValue := fb.data index
    let newValue := oldValue &&& ~~~mask ||| value &&& mask
    if newValue = oldValue then (fb, false)
    else
      ({ fb with data := Function.update fb.data index newValue }.markPageX page x, true)

/-- `mono_fb_clear`. -/
def clear (fb : MonoFb) : MonoFb :=
  if ¬ fb.Valid then fb
  else
    (List.range fb.pageCount).foldl
      (fun fb page =>
        (List.range fb.width).foldl (fun fb x => (fb.writeMaskedByte page x 0 0xFF).1) fb)
      fb

/-- `mono_fb_set_pixel`. -/
def setPixel (fb : MonoFb) (x y value : Int32) : MonoFb :=
  if ¬ fb.Valid then fb
  else if x < 0 ∨ y < 0 then fb
  else
    let ux := x.toNatClampNeg
    let uy := y.toNatClampNeg
    if fb.width ≤ ux ∨ fb.height ≤ uy then fb
    else
      let page := uy / 8
      let mask : UInt8 := 1 <<< UInt8.ofNat (uy % 8)
      if value ≠ 0 then (fb.writeMaskedByte page ux mask mask).1
      else (fb.writeMaskedByte page ux 0 mask).1

/-- `mono_fb_hline`. A sum of coordinates that overflows wraps, here as in
`vline` and `rect`. -/
def hline (fb : MonoFb) (x y width value : Int32) : MonoFb :=
  (List.range width.toNatClampNeg).foldl
    (fun fb i => fb.setPixel (x + Int32.ofNat i) y value) fb

/-- `mono_fb_vline`. -/
def vline (fb : MonoFb) (x y height value : Int32) : MonoFb :=
  (List.range height.toNatClampNeg).foldl
    (fun fb i => fb.setPixel x (y + Int32.ofNat i) value) fb

/-- `mono_fb_rect`. -/
def rect (fb : MonoFb) (x y width height value : Int32) : MonoFb :=
  if width ≤ 0 ∨ height ≤ 0 then fb
  else
    (((fb.hline x y width value).hline x (y + height - 1) width value).vline x y height
      value).vline (x + width - 1) y height value

end MonoFb

end Display

end DeusOs
