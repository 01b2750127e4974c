import Mathlib.Data.Int.Basic
import Mathlib.Tactic.Common

/-!
# The layout of the display

`oled_ui_layout.c`: the rectangles of the status bar and of the console, and
what is asked of them. A coordinate is an `int32_t`.
-/

namespace DeusOs

namespace Display

/-- `mono_rect_t`. -/
structure MonoRect where
  x : ℤ
  y : ℤ
  width : ℤ
  height : ℤ
  deriving DecidableEq, Repr

/-- `oled_ui_layout_t`. -/
structure OledUiLayout where
  statusRect : MonoRect
  consoleRect : MonoRect
  deriving DecidableEq, Repr

/-- `oled_ui_layout_default`. -/
def oledUiLayoutDefault : OledUiLayout := ⟨⟨0, 0, 128, 9⟩, ⟨1, 10, 126, 22⟩⟩

/-- The sum of two coordinates, each cast to `uint32_t`. -/
def unsignedSum (a b : ℤ) : ℤ := (a % 4294967296 + b % 4294967296) % 4294967296

/-- `oled_ui_layout_validate`. -/
def oledUiLayoutValidate (layout : OledUiLayout) : Bool :=
  decide (layout.statusRect.x = 0) && decide (layout.statusRect.y = 0) &&
    decide (layout.statusRect.width = 128) && decide (layout.statusRect.height = 9) &&
    decide (0 ≤ layout.consoleRect.x) && decide (10 ≤ layout.consoleRect.y) &&
    decide (5 ≤ layout.consoleRect.width) && decide (6 ≤ layout.consoleRect.height) &&
    decide (unsignedSum layout.consoleRect.x layout.consoleRect.width ≤ 128) &&
    decide (unsignedSum layout.consoleRect.y layout.consoleRect.height ≤ 32)

end Display

end DeusOs
