import DeusOs.Common.Terminal
import DeusOs.Display.Console

/-!
# The console — a terminal's window

The three rows of the console are a window on an unbounded terminal: a row
of the ring is the line of the terminal that it shows, and the ring turns
when the window moves (`console_is_window`).
-/

namespace DeusOs

namespace Display

open OledConsole
open Terminal (Key Tidy)

variable {c : OledConsole} {t : Terminal UInt8}

/-! ## The ring -/

/-- The rows of the console are lines of a terminal, from `top` on. -/
structure ShowsLines (c : OledConsole) (lines : ℕ → ℕ → UInt8) (top : ℕ) : Prop where
  first : c.firstRow.toNat < consoleRows
  rows : ∀ i < consoleRows, c.row i = lines (top + i)

theorem first_scrollOne (c : OledConsole) :
    c.scrollOne.firstRow.toNat = (c.firstRow.toNat + 1) % consoleRows := by
  have hmod : (c.firstRow.toNat + 1) % consoleRows < 3 := Nat.mod_lt _ (by decide)
  have hfirst : c.scrollOne.firstRow = UInt8.ofNat ((c.firstRow.toNat + 1) % consoleRows) := by
    unfold scrollOne clearPhysicalRow
    dsimp only
    split <;> rfl
  rw [hfirst, UInt8.toNat_ofNat']
  omega

/-- A turn of the ring clears one physical row. -/
theorem cells_scrollOne (c : OledConsole) :
    c.scrollOne.cells = Function.update c.cells
      (((c.firstRow.toNat + 1) % consoleRows + (consoleRows - 1)) % consoleRows) fun _ => 0x20 := by
  have hfirst := first_scrollOne c
  have hmod : (c.firstRow.toNat + 1) % consoleRows < 3 := Nat.mod_lt _ (by decide)
  have hnat : (UInt8.ofNat ((c.firstRow.toNat + 1) % consoleRows)).toNat =
      (c.firstRow.toNat + 1) % consoleRows := by
    rw [UInt8.toNat_ofNat']
    omega
  unfold scrollOne clearPhysicalRow
  dsimp only
  rw [hnat, if_neg (Nat.not_le_of_lt (Nat.mod_lt _ (by decide)))]

theorem cursorX_scrollOne (c : OledConsole) : c.scrollOne.cursorX = c.cursorX := by
  unfold scrollOne clearPhysicalRow
  dsimp only
  split <;> rfl

/-- **A turn of the ring moves the window by a line**, a blank one. -/
theorem ShowsLines.scroll {lines : ℕ → ℕ → UInt8} {top : ℕ} (h : ShowsLines c lines top)
    (hblank : lines (top + consoleRows) = fun _ => 0x20) : ShowsLines c.scrollOne lines (top + 1) := by
  have hfirst := first_scrollOne c
  have hlt := h.first
  have hrows : consoleRows = 3 := rfl
  refine ⟨by rw [hfirst]; exact Nat.mod_lt _ (by decide), fun i hi => ?_⟩
  rw [OledConsole.row, hfirst, cells_scrollOne]
  rw [hrows] at hi hlt hblank ⊢
  by_cases hlast : i = 2
  · subst hlast
    rw [Function.update_self, Nat.add_assoc]
    exact hblank.symm
  · rw [Function.update_of_ne (by omega)]
    have hnext := h.rows (i + 1) (by omega)
    rw [OledConsole.row, hrows] at hnext
    rw [show top + 1 + i = top + (i + 1) by omega, ← hnext]
    congr 1
    omega

/-- The character at the cursor is the one in its line. -/
theorem ShowsLines.write {lines : ℕ → ℕ → UInt8} {top : ℕ} (h : ShowsLines c lines top)
    (hy : c.cursorY.toNat < consoleRows) (char : UInt8) :
    ShowsLines (c.putPrintable char)
      (Function.update lines (top + c.cursorY.toNat)
        (Function.update (lines (top + c.cursorY.toNat)) c.cursorX.toNat char)) top := by
  have hlt := h.first
  have hrows : consoleRows = 3 := rfl
  have hfirst : (c.putPrintable char).firstRow = c.firstRow := by
    unfold putPrintable markRow
    dsimp only
    rw [if_neg (Nat.not_le_of_lt hy)]
  have hcells : (c.putPrintable char).cells =
      Function.update c.cells ((c.firstRow.toNat + c.cursorY.toNat) % consoleRows)
        (Function.update (c.cells ((c.firstRow.toNat + c.cursorY.toNat) % consoleRows))
          c.cursorX.toNat char) := by
    unfold putPrintable markRow
    dsimp only
    rw [if_neg (Nat.not_le_of_lt hy)]
  refine ⟨by rw [hfirst]; exact hlt, fun i hi => ?_⟩
  have hcursor := h.rows _ hy
  rw [OledConsole.row] at hcursor
  rw [OledConsole.row, hfirst, hcells, hcursor]
  by_cases hsame : i = c.cursorY.toNat
  · subst hsame
    rw [Function.update_self, Function.update_self]
  · rw [Function.update_of_ne, Function.update_of_ne (by omega)]
    · exact h.rows i hi
    · rw [hrows] at hi hy hlt ⊢
      omega

/-! ## The cursor -/

/-- The key of a character. -/
def key (char : UInt8) : Key UInt8 :=
  if char = 0x0D then .carriageReturn
  else if char = 0x0A then .lineFeed
  else if char < 0x20 ∨ 0x7E < char then .ignored
  else .printable char

/-- The console shows the window of the terminal, with the cursor where the
terminal has it. -/
structure Mirrors (c : OledConsole) (t : Terminal UInt8) : Prop where
  shows : ShowsLines c t.lines t.top
  column : c.cursorX.toNat = t.column
  line : t.line = t.top + c.cursorY.toNat
  tidy : Tidy consoleColumns consoleRows 0x20 t

/-- The window has moved on where the source turns the ring. -/
theorem Mirrors.scroll (h : Mirrors c t) (x : UInt8) :
    ShowsLines ({ c with cursorX := x } : OledConsole).scrollOne t.lines (t.top + 1) :=
  ShowsLines.scroll ⟨h.shows.first, h.shows.rows⟩ (h.tidy.unseen _ (Nat.le_refl _))

/-- What the source has once the cursor is prepared for a character. -/
structure Prepared (c : OledConsole) (t : Terminal UInt8) : Prop where
  shows : ShowsLines c t.lines t.top
  column : c.cursorX.toNat = t.column
  line : t.line = t.top + c.cursorY.toNat
  row : c.cursorY.toNat < consoleRows

/-- **Preparing the cursor is to wrap and to reveal.** -/
theorem Mirrors.prepare (h : Mirrors c t) :
    Prepared c.preparePrintable ((t.wrap consoleColumns).reveal consoleRows) := by
  have hcol := h.column
  have hline := h.line
  have hle := h.tidy.line_le
  have hrows : consoleRows = 3 := rfl
  have hcolumns : consoleColumns = 21 := rfl
  by_cases hpending : consoleRows ≤ c.cursorY.toNat
  · -- the line just below the window, which nothing was written on
    have hzero : t.column = 0 := h.tidy.pending (by omega)
    have hwrap : t.wrap consoleColumns = t := if_neg (by omega)
    have hreveal : t.reveal consoleRows = { t with top := t.top + 1 } :=
      Terminal.reveal_of_eq (by omega)
    have hconsole : c.preparePrintable =
        { c.scrollOne with cursorY := UInt8.ofNat (consoleRows - 1), cursorX := 0 } := by
      unfold preparePrintable
      dsimp only
      rw [if_pos hpending]
      exact if_neg (by decide : ¬consoleColumns ≤ (0 : UInt8).toNat)
    have hscroll := h.scroll c.cursorX
    rw [hwrap, hreveal, hconsole]
    exact ⟨⟨hscroll.first, hscroll.rows⟩, hzero.symm, (by omega : t.line = t.top + 1 + 2), bottom_lt⟩
  have hconsole : c.preparePrintable =
      if consoleColumns ≤ c.cursorX.toNat then
        if c.cursorY.toNat + 1 < consoleRows then
          { c with cursorX := 0, cursorY := c.cursorY + 1 }
        else { ({ c with cursorX := 0 } : OledConsole).scrollOne with
          cursorY := UInt8.ofNat (consoleRows - 1) }
      else c := by
    unfold preparePrintable
    dsimp only
    rw [if_neg hpending]
  rw [hconsole]
  by_cases hfull : consoleColumns ≤ c.cursorX.toNat
  · have hwrap : t.wrap consoleColumns = { t with line := t.line + 1, column := 0 } :=
      if_pos (by omega)
    rw [if_pos hfull, hwrap]
    by_cases hnext : c.cursorY.toNat + 1 < consoleRows
    · have hy : (c.cursorY + 1).toNat = c.cursorY.toNat + 1 := by
        rw [UInt8.toNat_add]
        exact Nat.mod_eq_of_lt (by show c.cursorY.toNat + 1 < 256; omega)
      rw [if_pos hnext, Terminal.reveal_of_ne (by show t.line + 1 ≠ t.top + consoleRows; omega)]
      refine ⟨⟨h.shows.first, h.shows.rows⟩, rfl, ?_, by rw [hy]; exact hnext⟩
      show t.line + 1 = t.top + (c.cursorY + 1).toNat
      omega
    · have hscroll := h.scroll 0
      rw [if_neg hnext,
        Terminal.reveal_of_eq (by show t.line + 1 = t.top + consoleRows; omega)]
      exact ⟨⟨hscroll.first, hscroll.rows⟩, congrArg UInt8.toNat (cursorX_scrollOne _),
        (by omega : t.line + 1 = t.top + 1 + 2), bottom_lt⟩
  · have hwrap : t.wrap consoleColumns = t := if_neg (by omega)
    rw [if_neg hfull, hwrap, Terminal.reveal_of_ne (by omega)]
    exact ⟨h.shows, hcol, hline, by omega⟩

/-- The character is written where the terminal writes it. -/
theorem Prepared.write (h : Prepared c t) (hcol : t.column < consoleColumns) (char : UInt8) :
    ShowsLines (c.putPrintable char) (t.write char).lines t.top ∧
      (c.putPrintable char).cursorX.toNat = t.column + 1 ∧
      (c.putPrintable char).cursorY = c.cursorY := by
  have hcolumns : consoleColumns = 21 := rfl
  have hshows := h.shows.write h.row char
  rw [h.column, ← h.line] at hshows
  have hx : (c.putPrintable char).cursorX = c.cursorX + 1 := by
    unfold putPrintable
    rfl
  have hy : (c.putPrintable char).cursorY = c.cursorY := by
    unfold putPrintable markRow
    dsimp only
    rw [if_neg (Nat.not_le_of_lt h.row)]
  refine ⟨hshows, ?_, hy⟩
  rw [hx, UInt8.toNat_add, h.column]
  exact Nat.mod_eq_of_lt (by show t.column + 1 < 256; omega)

/-- **Every character is the terminal's key.** -/
theorem Mirrors.putc (h : Mirrors c t) (char : UInt8) :
    Mirrors (c.putc char) (t.type consoleColumns consoleRows (key char)) := by
  have htidy := h.tidy.type (by decide) (key char)
  have hrows : consoleRows = 3 := rfl
  have hline := h.line
  have hle := h.tidy.line_le
  unfold OledConsole.putc
  unfold key at htidy ⊢
  by_cases hcr : char = 0x0D
  · rw [if_pos hcr] at htidy ⊢
    rw [if_pos hcr]
    exact ⟨⟨h.shows.first, h.shows.rows⟩, rfl, h.line, htidy⟩
  rw [if_neg hcr] at htidy ⊢
  rw [if_neg hcr]
  by_cases hlf : char = 0x0A
  · rw [if_pos hlf] at htidy ⊢
    rw [if_pos hlf]
    dsimp only
    by_cases hy : c.cursorY.toNat < consoleRows
    · have hreveal : t.reveal consoleRows = t := Terminal.reveal_of_ne (by omega)
      have hnext : (c.cursorY + 1).toNat = c.cursorY.toNat + 1 := by
        rw [UInt8.toNat_add]
        exact Nat.mod_eq_of_lt (by show c.cursorY.toNat + 1 < 256; omega)
      simp only [Terminal.type, hreveal] at htidy ⊢
      rw [if_pos hy]
      refine ⟨⟨h.shows.first, h.shows.rows⟩, rfl, ?_, htidy⟩
      show t.line + 1 = t.top + (c.cursorY + 1).toNat
      omega
    · have hreveal : t.reveal consoleRows = { t with top := t.top + 1 } :=
        Terminal.reveal_of_eq (by omega)
      have hscroll := h.scroll 0
      simp only [Terminal.type, hreveal] at htidy ⊢
      rw [if_neg hy]
      exact ⟨⟨hscroll.first, hscroll.rows⟩, congrArg UInt8.toNat (cursorX_scrollOne _),
        (by omega : t.line + 1 = t.top + 1 + 3), htidy⟩
  rw [if_neg hlf] at htidy ⊢
  rw [if_neg hlf]
  by_cases hother : char < 0x20 ∨ 0x7E < char
  · rw [if_pos hother] at htidy ⊢
    rw [if_pos hother]
    exact h
  rw [if_neg hother] at htidy ⊢
  rw [if_neg hother]
  have hprepared := h.prepare
  have hcol : ((t.wrap consoleColumns).reveal consoleRows).column < consoleColumns := by
    rw [Terminal.column_reveal]
    exact Terminal.column_wrap_lt (by decide)
  obtain ⟨hshows, hx, hy⟩ := hprepared.write hcol char
  refine ⟨hshows, hx, ?_, htidy⟩
  rw [hy]
  exact hprepared.line

theorem mirrors_clear (c : OledConsole) : Mirrors c.clear (.empty 0x20) where
  shows := ⟨(by decide : (0 : UInt8).toNat < consoleRows), fun _ _ => rfl⟩
  column := rfl
  line := rfl
  tidy := Terminal.tidy_empty

/-- **The console is a window on a terminal.** Whatever is written to a console
that was initialised, its rows are the three lines in the window of a
terminal of 21 columns that was typed the same, the cursor is where the
terminal has it, in the window or behind its last row, and the lines that
the window has not reached are blank. -/
theorem console_is_window (c : OledConsole) (chars : List UInt8) :
    (∀ i < consoleRows, ∀ column < consoleColumns,
      (chars.foldl OledConsole.putc c.clear).row i column =
        ((chars.map key).foldl (Terminal.type consoleColumns consoleRows) (.empty 0x20)).lines
          (((chars.map key).foldl (Terminal.type consoleColumns consoleRows) (.empty 0x20)).top + i)
          column) ∧
    (∀ l, ((chars.map key).foldl (Terminal.type consoleColumns consoleRows) (.empty 0x20)).top +
        consoleRows ≤ l →
      ((chars.map key).foldl (Terminal.type consoleColumns consoleRows) (.empty 0x20)).lines l =
        fun _ => 0x20) ∧
    (chars.foldl OledConsole.putc c.clear).cursorX.toNat =
      ((chars.map key).foldl (Terminal.type consoleColumns consoleRows) (.empty 0x20)).column ∧
    ((chars.map key).foldl (Terminal.type consoleColumns consoleRows) (.empty 0x20)).line =
      ((chars.map key).foldl (Terminal.type consoleColumns consoleRows) (.empty 0x20)).top +
        (chars.foldl OledConsole.putc c.clear).cursorY.toNat ∧
    (chars.foldl OledConsole.putc c.clear).cursorX.toNat ≤ 21 ∧
    (chars.foldl OledConsole.putc c.clear).cursorY.toNat ≤ 3 := by
  have hrun : ∀ (c : OledConsole) (t : Terminal UInt8), Mirrors c t →
      Mirrors (chars.foldl OledConsole.putc c)
        ((chars.map key).foldl (Terminal.type consoleColumns consoleRows) t) := by
    induction chars with
    | nil => exact fun c t h => h
    | cons char chars ih => exact fun c t h => ih _ _ (h.putc char)
  have h := hrun c.clear (.empty 0x20) (mirrors_clear c)
  have hcol := h.tidy.column_le
  have hle := h.tidy.line_le
  have hline := h.line
  rw [← h.column] at hcol
  refine ⟨fun i hi column _ => congrFun (h.shows.rows i hi) column, h.tidy.unseen, h.column, h.line,
    hcol, ?_⟩
  have hrows : consoleRows = 3 := rfl
  omega

end Display

end DeusOs
