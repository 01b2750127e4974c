import Mathlib.Data.Nat.Basic
import Mathlib.Logic.Function.Basic
import Mathlib.Tactic.Common

/-!
# A terminal with a window

An unbounded terminal: every line that was ever written is kept, and a window of
`height` lines is shown. A character that arrives behind the last column
goes to the next line, and the window moves on only when the line just below
it is written on or left.
-/

/-- The lines, the cursor, and the line at the top of the window. -/
structure Terminal (α : Type*) where
  lines : ℕ → ℕ → α
  line : ℕ
  column : ℕ
  top : ℕ

namespace Terminal

/-- What is typed: a character, a carriage return, a line feed, or something
without effect. -/
inductive Key (α : Type*)
  | printable (c : α)
  | carriageReturn
  | lineFeed
  | ignored

variable {α : Type*}

/-- Nothing typed yet. -/
def empty (blank : α) : Terminal α := ⟨fun _ _ => blank, 0, 0, 0⟩

/-- A line that is full is left for the next one. -/
def wrap (columns : ℕ) (t : Terminal α) : Terminal α :=
  if columns ≤ t.column then { t with line := t.line + 1, column := 0 } else t

/-- The window moves on by a line if the cursor is just below it. -/
def reveal (height : ℕ) (t : Terminal α) : Terminal α :=
  if t.line = t.top + height then { t with top := t.top + 1 } else t

/-- The character at the cursor. -/
def write (t : Terminal α) (c : α) : Terminal α :=
  { t with
    lines := Function.update t.lines t.line (Function.update (t.lines t.line) t.column c)
    column := t.column + 1 }

/-- One key. -/
def type (columns height : ℕ) (t : Terminal α) : Key α → Terminal α
  | .printable c => ((t.wrap columns).reveal height).write c
  | .carriageReturn => { t with column := 0 }
  | .lineFeed => { t.reveal height with line := t.line + 1, column := 0 }
  | .ignored => t

/-! ## What holds of every terminal -/

/-- The cursor is in the window or at the start of the line just below it, and
below the window nothing is written. -/
structure Tidy (columns height : ℕ) (blank : α) (t : Terminal α) : Prop where
  column_le : t.column ≤ columns
  line_le : t.line ≤ t.top + height
  pending : t.line = t.top + height → t.column = 0
  unseen : ∀ l, t.top + height ≤ l → t.lines l = fun _ => blank

variable {columns height : ℕ} {blank : α} {t : Terminal α}

/-- The empty terminal is tidy. -/
theorem tidy_empty : Tidy columns height blank (empty blank) where
  column_le := Nat.zero_le _
  line_le := Nat.zero_le _
  pending := fun _ => rfl
  unseen := fun _ _ => rfl

/-- A cursor one line below the window moves the window down by one. -/
theorem reveal_of_eq (h : t.line = t.top + height) : t.reveal height = { t with top := t.top + 1 } :=
  if_pos h

/-- A cursor inside of the window leaves the window. -/
theorem reveal_of_ne (h : t.line ≠ t.top + height) : t.reveal height = t := if_neg h

theorem line_reveal : (t.reveal height).line = t.line := by
  unfold reveal
  split <;> rfl

/-- Moving the window leaves the cursor's column. -/
theorem column_reveal : (t.reveal height).column = t.column := by
  unfold reveal
  split <;> rfl

theorem lines_reveal : (t.reveal height).lines = t.lines := by
  unfold reveal
  split <;> rfl

theorem top_reveal_le : t.top ≤ (t.reveal height).top := by
  unfold reveal
  split
  · exact Nat.le_succ _
  · exact Nat.le_refl _

/-- After that the cursor is in the window. -/
theorem line_lt_reveal (h : t.line ≤ t.top + height) :
    (t.reveal height).line < (t.reveal height).top + height := by
  unfold reveal
  split
  · show t.line < t.top + 1 + height
    omega
  · exact Nat.lt_of_le_of_ne h ‹_›

/-- A full line is in the window, so the next one is at most just below it. -/
theorem Tidy.line_wrap_le (h : Tidy columns height blank t) (hcolumns : 0 < columns) :
    (t.wrap columns).line ≤ t.top + height := by
  have hline := h.line_le
  have hpending := h.pending
  unfold wrap
  split
  · show t.line + 1 ≤ t.top + height
    omega
  · exact hline

theorem top_wrap : (t.wrap columns).top = t.top := by
  unfold wrap
  split <;> rfl

theorem lines_wrap : (t.wrap columns).lines = t.lines := by
  unfold wrap
  split <;> rfl

theorem column_wrap_lt (hcolumns : 0 < columns) : (t.wrap columns).column < columns := by
  unfold wrap
  split
  · exact hcolumns
  · exact Nat.lt_of_not_le ‹_›

/-- **Every key keeps a terminal tidy:** the cursor stays inside of its line,
and what the window has not reached stays blank. -/
theorem Tidy.type (h : Tidy columns height blank t) (hcolumns : 0 < columns) (k : Key α) :
    Tidy columns height blank (t.type columns height k) := by
  cases k with
  | printable c =>
    have hline : (t.wrap columns).line ≤ (t.wrap columns).top + height := by
      rw [top_wrap]
      exact h.line_wrap_le hcolumns
    have hin := line_lt_reveal hline
    have htop : (t.wrap columns).top ≤ ((t.wrap columns).reveal height).top := top_reveal_le
    have hcol := column_wrap_lt (t := t) hcolumns
    rw [top_wrap] at htop
    refine ⟨?_, Nat.le_of_lt hin, fun heq => absurd heq (Nat.ne_of_lt hin), fun l hl => ?_⟩
    · show ((t.wrap columns).reveal height).column + 1 ≤ columns
      rw [column_reveal]
      exact hcol
    · have hl' : ((t.wrap columns).reveal height).top + height ≤ l := hl
      show Function.update _ _ _ l = _
      rw [Function.update_of_ne (by omega), lines_reveal, lines_wrap]
      exact h.unseen l (by omega)
  | carriageReturn => exact ⟨Nat.zero_le _, h.line_le, fun _ => rfl, h.unseen⟩
  | lineFeed =>
    have hin := line_lt_reveal h.line_le
    have htop : t.top ≤ (t.reveal height).top := top_reveal_le
    rw [line_reveal] at hin
    refine ⟨Nat.zero_le _, hin, fun _ => rfl, fun l hl => ?_⟩
    have hl' : (t.reveal height).top + height ≤ l := hl
    show (t.reveal height).lines l = _
    rw [lines_reveal]
    exact h.unseen l (by omega)
  | ignored => exact h

end Terminal
