import DeusOs.Display.Dirty
import DeusOs.Display.Model.Ssd1306

/-!
# Presenting

A transfer stores bytes of the framebuffer at their places or leaves the
display as it was, whether the bus fails or not (`presentSpan_spec`), and a
page is clean only when its whole span was stored. So what is dirty covers
the framebuffer over every run (`reached_run`), and a display that was
presented is the framebuffer (`presented`).
-/

namespace DeusOs

namespace Display

open Mirror (Covers)
open Nor (Mem)

variable {fb : MonoFb} {d : Ssd1306} {panel : Panel} {bytes : List UInt8}
variable {page x0 x1 offset : ℕ}

/-! ## Storing a row -/

/-- The panel stores into one row, from `offset` on. -/
structure Pointing (page x0 x1 offset : ℕ) (panel : Panel) : Prop where
  window : panel.window = ⟨x0, x1, page, page⟩
  pointer : offset ≤ x1 → panel.pointer = ⟨offset, page⟩

/-- **Bytes are stored** at their places in the row, from where the panel points
to, and no other byte of its memory changes. -/
theorem storeAll_spec (h : Pointing page x0 x1 offset panel) (hx1 : x1 < ssd1306Width)
    (hroom : offset + bytes.length ≤ x1 + 1) :
    Pointing page x0 x1 (offset + bytes.length) (panel.storeAll bytes) ∧
      ∀ q x, (panel.storeAll bytes).ram q x =
        if q = page ∧ offset ≤ x ∧ x < offset + bytes.length then bytes.getD (x - offset) 0
        else panel.ram q x := by
  induction bytes generalizing panel offset with
  | nil =>
    refine ⟨h, fun q x => ?_⟩
    rw [List.length_nil, Nat.add_zero, if_neg (by omega)]
    rfl
  | cons byte bytes ih =>
    rw [List.length_cons] at hroom ⊢
    have hpointer := h.pointer (by omega)
    have hnext : Pointing page x0 x1 (offset + 1) (panel.store byte) := by
      refine ⟨h.window, fun hmore => ?_⟩
      have hinside : offset ≠ x1 := by omega
      have hcolumn : (offset + 1) % ssd1306Width = offset + 1 := Nat.mod_eq_of_lt (by omega)
      rw [Panel.store, hpointer, h.window]
      dsimp only [Window.next]
      rw [if_neg hinside, hcolumn]
    obtain ⟨hend, hram⟩ := ih hnext (by omega)
    have hlen : offset + (bytes.length + 1) = offset + 1 + bytes.length := by omega
    rw [hlen]
    refine ⟨hend, fun q x => ?_⟩
    have hfirst : (panel.store byte).ram q x =
        if q = page ∧ x = offset then byte else panel.ram q x := by
      rw [Panel.store, hpointer]
      dsimp only
      by_cases hq : q = page
      · subst hq
        rw [Function.update_self]
        by_cases hx : x = offset
        · rw [hx, Function.update_self, if_pos ⟨rfl, rfl⟩]
        · rw [Function.update_of_ne hx, if_neg fun hand => hx hand.2]
      · rw [Function.update_of_ne hq, if_neg fun hand => hq hand.1]
    refine (hram q x).trans ?_
    rw [hfirst]
    by_cases hq : q = page
    · by_cases hx : x = offset
      · -- the first of the bytes
        rw [if_neg (by omega), if_pos ⟨hq, hx⟩, if_pos (by omega), hx, Nat.sub_self]
        rfl
      · by_cases hin : offset + 1 ≤ x ∧ x < offset + 1 + bytes.length
        · have hsub : x - offset = x - (offset + 1) + 1 := by omega
          rw [if_pos ⟨hq, hin⟩, if_pos ⟨hq, by omega, hin.2⟩, hsub, List.getD_cons_succ]
        · rw [if_neg fun hand => hin hand.2, if_neg fun hand => hx hand.2, if_neg (by omega)]
    · rw [if_neg fun hand => hq hand.1, if_neg fun hand => hq hand.1, if_neg fun hand => hq hand.1]

/-- **One write of data:** the bytes are stored, all of them if it succeeds, and
the first few of them if the bus fails in between. -/
theorem i2cWrite_data (d : Ssd1306) (bytes : List UInt8) :
    ∃ stored, (i2c1Write d (controlData :: bytes)).1.panel = d.panel.storeAll (bytes.take stored) ∧
      ((i2c1Write d (controlData :: bytes)).2 = true → bytes.take stored = bytes) := by
  unfold i2c1Write
  cases d.transfers 0 with
  | done => exact ⟨bytes.length, by rw [List.take_length]; rfl, fun _ => List.take_length⟩
  | failed stored window pointer => exact ⟨stored, rfl, fun h => Bool.noConfusion h⟩

/-! ## Presenting a span -/

/-- **A span is transferred:** what is stored is the framebuffer's, and all
of it is stored if no write fails. -/
theorem presentSpan_spec (h : Pointing page x0 x1 offset d.panel) (hx1 : x1 < ssd1306Width)
    (data : Mem) (base : ℕ) :
    (∀ q x, (presentSpan d data base x1 offset).1.panel.ram q x = d.panel.ram q x ∨
        q = page ∧ x ≤ x1 ∧
          (presentSpan d data base x1 offset).1.panel.ram q x = data (base + x)) ∧
      ((presentSpan d data base x1 offset).2 = true → ∀ x, offset ≤ x → x ≤ x1 →
        (presentSpan d data base x1 offset).1.panel.ram page x = data (base + x)) := by
  -- by what is left of the span
  induction hleft : x1 + 1 - offset using Nat.strong_induction_on generalizing offset d with
  | _ left ih =>
  rw [presentSpan]
  by_cases hmore : offset ≤ x1
  · rw [dif_pos hmore]
    dsimp only
    obtain ⟨chunk, hchunk⟩ : ∃ chunk, chunk = (if flushChunkData < x1 - offset + 1 then
      flushChunkData else x1 - offset + 1) := ⟨_, rfl⟩
    have hpos : 0 < chunk ∧ offset + chunk ≤ x1 + 1 := by
      rw [hchunk]
      unfold flushChunkData
      split
      · omega
      · omega
    rw [← hchunk]
    obtain ⟨counted, hcounted⟩ : ∃ counted : Ssd1306, counted = { d with stats := { d.stats with
      i2cWriteCount := d.stats.i2cWriteCount + 1
      dataPayloadBytes := d.stats.dataPayloadBytes + (1 + chunk) } } := ⟨_, rfl⟩
    rw [← hcounted]
    have hpanel : counted.panel = d.panel := by rw [hcounted]
    obtain ⟨stored, hwrite, hwhole⟩ := i2cWrite_data counted (data.bytes (base + offset) chunk)
    rw [hpanel] at hwrite
    have hlen : ((data.bytes (base + offset) chunk).take stored).length ≤ chunk := by
      rw [List.length_take, Mem.length_bytes]
      exact Nat.min_le_right _ _
    have hroom : offset + ((data.bytes (base + offset) chunk).take stored).length ≤ x1 + 1 := by
      omega
    obtain ⟨hpointing, hram⟩ := storeAll_spec h hx1 hroom
    rw [← hwrite] at hpointing hram
    -- what this write stores is the framebuffer's
    have hstored : ∀ q x, (i2c1Write counted
        (controlData :: data.bytes (base + offset) chunk)).1.panel.ram q x =
          if q = page ∧ offset ≤ x ∧
            x < offset + ((data.bytes (base + offset) chunk).take stored).length
          then data (base + x) else d.panel.ram q x := by
      intro q x
      rw [hram]
      split
      · rename_i hin
        have hi : x - offset < ((data.bytes (base + offset) chunk).take stored).length := by omega
        rw [List.getD_eq_getElem _ _ hi, List.getElem_take, Mem.getElem_bytes]
        congr 1
        omega
      · rfl
    rcases hr : i2c1Write counted (controlData :: data.bytes (base + offset) chunk) with ⟨e, - | -⟩
    -- the write fails: what it stored before is the framebuffer's all the same
    · rw [hr] at hstored
      dsimp only at hstored ⊢
      refine ⟨fun q x => ?_, fun hok => Bool.noConfusion hok⟩
      rw [hstored]
      split
      · rename_i hin
        exact Or.inr ⟨hin.1, by omega, rfl⟩
      · exact Or.inl rfl
    · rw [hr] at hstored hpointing hwhole
      dsimp only at hstored hpointing hwhole ⊢
      rw [hwhole rfl, Mem.length_bytes] at hstored hpointing
      obtain ⟨hmoved, hall⟩ := ih (x1 + 1 - (offset + chunk)) (by omega) hpointing rfl
      refine ⟨fun q x => ?_, fun hok x hlo hhi => ?_⟩
      · rcases hmoved q x with hold | hnew
        · rw [hold, hstored]
          split
          · rename_i hin
            exact Or.inr ⟨hin.1, by omega, rfl⟩
          · exact Or.inl rfl
        · exact Or.inr hnew
      -- of this chunk, or of those to come
      · by_cases hx : x < offset + chunk
        · rcases hmoved page x with hold | hnew
          · rw [hold, hstored, if_pos ⟨rfl, hlo, hx⟩]
          · exact hnew.2.2
        · exact hall hok x (Nat.le_of_not_lt hx) hhi
  · rw [dif_neg hmore]
    exact ⟨fun q x => Or.inl rfl, fun _ x hlo hhi => absurd (Nat.le_trans hlo hhi) hmore⟩

/-- **The window is set,** or the write fails and nothing is stored. -/
theorem setPageWindow_spec (d : Ssd1306) (hpage : page < ssd1306Pages) (hspan : x0 ≤ x1)
    (hx1 : x1 < ssd1306Width) :
    (setPageWindow d page x0 x1).1.panel.ram = d.panel.ram ∧
      ((setPageWindow d page x0 x1).2 = true →
        Pointing page x0 x1 x0 (setPageWindow d page x0 x1).1.panel) := by
  have hin : ¬ (ssd1306Pages ≤ page ∨ ssd1306Width ≤ x0 ∨ ssd1306Width ≤ x1 ∨ x1 < x0) := by omega
  have hbyte : ∀ n < 128, (UInt8.ofNat n).toNat = n := by
    intro n hn
    exact UInt8.toNat_ofNat_of_lt' (Nat.lt_trans hn (by decide))
  unfold ssd1306Width at hx1
  unfold ssd1306Pages at hpage
  rw [setPageWindow, if_neg hin]
  unfold i2c1Write
  dsimp only
  cases d.transfers 0 with
  | done =>
    have hset : d.panel.receive [controlCmd, 0x21, UInt8.ofNat x0, UInt8.ofNat x1, 0x22,
        UInt8.ofNat page, UInt8.ofNat page] =
        { d.panel with window := ⟨x0, x1, page, page⟩, pointer := ⟨x0, page⟩ } := by
      have hreceive : d.panel.receive [controlCmd, 0x21, UInt8.ofNat x0, UInt8.ofNat x1, 0x22,
          UInt8.ofNat page, UInt8.ofNat page] =
          { d.panel with
            window := ⟨(UInt8.ofNat x0).toNat, (UInt8.ofNat x1).toNat,
              (UInt8.ofNat page).toNat, (UInt8.ofNat page).toNat⟩
            pointer := ⟨(UInt8.ofNat x0).toNat, (UInt8.ofNat page).toNat⟩ } := rfl
      rw [hreceive, hbyte x0 (by omega), hbyte x1 hx1, hbyte page (by omega)]
    dsimp only
    rw [hset]
    exact ⟨rfl, fun _ => ⟨rfl, fun _ => rfl⟩⟩
  | failed stored window pointer => exact ⟨rfl, fun hok => Bool.noConfusion hok⟩

/-! ## Presenting the dirty pages -/

/-- What holds of the framebuffer and the display. -/
structure Reached (fb : MonoFb) (d : Ssd1306) : Prop where
  width : fb.width = ssd1306Width
  height : fb.height = ssd1306Height
  tidy : fb.Tidy
  covers : Covers fb.screen fb.dirty (fun p => fb.pixels p.1 p.2) fun p => d.panel.ram p.1 p.2

/-- The framebuffer has the display's four pages. -/
theorem Reached.pageCount (h : Reached fb d) : fb.pageCount = ssd1306Pages := by
  rw [MonoFb.pageCount, h.height]
  rfl

/-- The framebuffer is valid. -/
theorem Reached.valid (h : Reached fb d) : fb.Valid := by
  refine ⟨?_, ?_, ?_, ?_⟩
  · rw [h.width]
    decide
  · rw [h.height]
    decide
  · rw [h.width]
    decide
  · rw [h.pageCount]
    decide

/-- **One page is presented:** what was dirty and is not stored stays
dirty; of a page whose span was stored, nothing does. -/
theorem Reached.presentPage (h : Reached fb d) (hpage : page < ssd1306Pages)
    (hbit : fb.dirtyPages.getLsbD page = true) :
    (setPageWindow d page (fb.dirtyMinX page) (fb.dirtyMaxX page)).1.panel.ram = d.panel.ram ∧
      ∀ e, (setPageWindow d page (fb.dirtyMinX page) (fb.dirtyMaxX page)) = (e, true) →
        Reached fb (presentSpan e fb.data (page * ssd1306Width) (fb.dirtyMaxX page)
          (fb.dirtyMinX page)).1 ∧
        ((presentSpan e fb.data (page * ssd1306Width) (fb.dirtyMaxX page)
            (fb.dirtyMinX page)).2 = true →
          Reached (fb.clearDirty (pageMask page)) (presentSpan e fb.data (page * ssd1306Width)
            (fb.dirtyMaxX page) (fb.dirtyMinX page)).1) := by
  have hmax : page < maxPages := Nat.lt_of_lt_of_le hpage (by decide)
  obtain ⟨hspan, hlast⟩ := (h.tidy page hmax).1 hbit
  rw [h.width] at hlast
  obtain ⟨hram, hpointing⟩ := setPageWindow_spec d hpage hspan hlast
  refine ⟨hram, fun e he => ?_⟩
  rw [he] at hram hpointing
  obtain ⟨hmoved, hall⟩ := presentSpan_spec (hpointing rfl) hlast fb.data (page * ssd1306Width)
  obtain ⟨r, hr⟩ : ∃ r, r = presentSpan e fb.data (page * ssd1306Width) (fb.dirtyMaxX page)
    (fb.dirtyMinX page) := ⟨_, rfl⟩
  rw [← hr] at hmoved hall ⊢
  have hpixels : ∀ x, fb.data (page * ssd1306Width + x) = fb.pixels page x := by
    intro x
    rw [MonoFb.pixels, h.width]
  have hcovers : Covers fb.screen fb.dirty (fun p => fb.pixels p.1 p.2)
      fun p => r.1.panel.ram p.1 p.2 := by
    refine h.covers.copy fun p _ => ?_
    rcases hmoved p.1 p.2 with hold | ⟨hq, -, hnew⟩
    · left
      rw [hold, hram]
    · right
      rw [hnew, hpixels, hq]
  refine ⟨⟨h.width, h.height, h.tidy, hcovers⟩, fun hok => ?_⟩
  have hclear := MonoFb.clearDirty_pageMask hmax fb
  refine ⟨?_, ?_, MonoFb.tidy_clearDirty h.tidy hmax, ?_⟩
  · rw [hclear]
    exact h.width
  · rw [hclear]
    exact h.height
  · have hscreen : (fb.clearDirty (pageMask page)).screen = fb.screen := by
      rw [hclear]
      rfl
    have hsame : (fun p : ℕ × ℕ => (fb.clearDirty (pageMask page)).pixels p.1 p.2) =
        fun p => fb.pixels p.1 p.2 := by
      rw [hclear]
      rfl
    rw [hscreen, hsame]
    refine hcovers.clean fun p hp hdirty hclean => ?_
    -- what is clean now is of this page, and was stored
    have hp4 : p.1 < ssd1306Pages := by
      rw [← h.pageCount]
      exact hp.1
    have hq : p.1 = page := by
      by_contra hne
      exact hclean ((MonoFb.mem_dirty_clearDirty hmax (Nat.lt_of_lt_of_le hp4 (by decide))).2
        ⟨hdirty, hne⟩)
    obtain ⟨-, hlo, hhi⟩ := hdirty
    rw [hq] at hlo hhi ⊢
    rw [hall hok p.2 hlo hhi, hpixels]

/-- **The pages are presented,** one after the other: the pages before are
clean, and the pages to come are those that were dirty. -/
theorem Reached.presentPages {dirty : BitVec 8} {left : ℕ} (h : Reached fb d)
    (hleft : page + left = ssd1306Pages) (hbefore : ∀ q < page, fb.dirtyPages.getLsbD q = false)
    (hafter : ∀ q, page ≤ q → fb.dirtyPages.getLsbD q = dirty.getLsbD q) :
    Reached (presentPages dirty left page fb d).1 (presentPages dirty left page fb d).2.1 ∧
      ((presentPages dirty left page fb d).2.2 = true → ∀ q < ssd1306Pages,
        (presentPages dirty left page fb d).1.dirtyPages.getLsbD q = false) := by
  induction left generalizing page fb d with
  | zero =>
    refine ⟨h, fun _ q hq => hbefore q ?_⟩
    omega
  | succ left ih =>
    have hpage : page < ssd1306Pages := by omega
    have hmax : page < maxPages := Nat.lt_of_lt_of_le hpage (by decide)
    rw [Display.presentPages]
    by_cases hclean : dirty.getLsbD page = false
    · rw [if_pos ((and_pageMask_eq_zero hmax dirty).2 hclean)]
      refine ih h (by omega) (fun q hq => ?_) (fun q hq => hafter q (by omega))
      rcases Nat.lt_succ_iff_lt_or_eq.1 hq with hlt | rfl
      · exact hbefore q hlt
      · rw [hafter q (Nat.le_refl q)]
        exact hclean
    · rw [if_neg (mt (and_pageMask_eq_zero hmax dirty).1 hclean)]
      rw [Bool.not_eq_false] at hclean
      have hbit : fb.dirtyPages.getLsbD page = true := by
        rw [hafter page (Nat.le_refl page)]
        exact hclean
      rw [MonoFb.dirtySpan_of_tidy h.tidy h.valid (by rw [h.pageCount]; exact hpage) hbit]
      dsimp only
      obtain ⟨hram, hpresent⟩ := h.presentPage hpage hbit
      rcases hw : setPageWindow d page (fb.dirtyMinX page) (fb.dirtyMaxX page) with ⟨e, - | -⟩
      -- the window is not set: the page stays dirty, as it was
      · rw [hw] at hram
        refine ⟨⟨h.width, h.height, h.tidy, ?_⟩, fun hok => Bool.noConfusion hok⟩
        dsimp only
        rw [hram]
        exact h.covers
      · obtain ⟨hpart, hwhole⟩ := hpresent e hw
        dsimp only
        rcases hs : presentSpan e fb.data (page * ssd1306Width) (fb.dirtyMaxX page)
          (fb.dirtyMinX page) with ⟨e', - | -⟩
        -- the span is stored in part: the page stays dirty
        · rw [hs] at hpart
          exact ⟨hpart, fun hok => Bool.noConfusion hok⟩
        · rw [hs] at hwhole
          have hnext := hwhole rfl
          dsimp only at hnext ⊢
          have hpages : ∀ q, q < maxPages →
              ((fb.clearDirty (pageMask page)).dirtyPages.getLsbD q = true ↔
                fb.dirtyPages.getLsbD q = true ∧ page ≠ q) := by
            intro q hq
            rw [MonoFb.clearDirty_pageMask hmax]
            exact getLsbD_and_not_pageMask hq _
          refine ih ⟨hnext.width, hnext.height, hnext.tidy, hnext.covers⟩ (by omega) ?_ ?_
          · intro q hq
            rw [← Bool.not_eq_true, hpages q (by omega)]
            rintro ⟨hqbit, hne⟩
            rw [hbefore q (by omega)] at hqbit
            exact Bool.noConfusion hqbit
          · intro q hq
            rw [← hafter q (by omega), Bool.eq_iff_iff]
            by_cases h8 : q < maxPages
            · rw [hpages q h8]
              exact ⟨fun hand => hand.1, fun hq' => ⟨hq', by omega⟩⟩
            · have hge : 8 ≤ q := Nat.le_of_not_lt h8
              rw [BitVec.getLsbD_of_ge _ _ hge, BitVec.getLsbD_of_ge _ _ hge]

/-- **Presenting** keeps what holds, and leaves nothing dirty if it succeeds. A
page that fails stays marked, so that the next attempt sends it again. -/
theorem Reached.present (h : Reached fb d) :
    Reached (Display.present fb d).1 (Display.present fb d).2.1 ∧
      ((Display.present fb d).2.2 = true → ∀ q < ssd1306Pages,
        (Display.present fb d).1.dirtyPages.getLsbD q = false) := by
  have hstart : Reached fb { d with stats := ⟨0, 0, 0, 0⟩ } :=
    ⟨h.width, h.height, h.tidy, h.covers⟩
  have hsize : ¬ (fb.width ≠ ssd1306Width ∨ fb.height ≠ ssd1306Height) := by
    rw [h.width, h.height]
    rintro (hne | hne)
    · exact hne rfl
    · exact hne rfl
  unfold Display.present
  dsimp only
  rw [if_neg hsize]
  split
  · exact ⟨hstart, fun hok => Bool.noConfusion hok⟩
  · by_cases hzero : fb.dirtyPages = 0
    · rw [if_pos hzero]
      refine ⟨hstart, fun _ q _ => ?_⟩
      rw [hzero]
      exact BitVec.getLsbD_zero
    · rw [if_neg hzero]
      exact hstart.presentPages (Nat.zero_add _) (fun q hq => absurd hq (Nat.not_lt_zero q))
        fun q _ => rfl

/-! ## Over a whole run -/

/-- Drawing keeps every difference to the display marked. -/
theorem Reached.drawn {fb' : MonoFb} (h : Reached fb d) (hdrawn : fb.Drawn fb') :
    Reached fb' d := by
  refine ⟨hdrawn.width.trans h.width, hdrawn.height.trans h.height, hdrawn.tidy, ?_⟩
  have hscreen : fb'.screen = fb.screen := by
    unfold MonoFb.screen MonoFb.pageCount
    rw [hdrawn.width, hdrawn.height]
  rw [hscreen]
  exact hdrawn.covers h.covers

/-- Every operation keeps every difference to the display marked. -/
theorem Reached.apply (h : Reached fb d) (operation : Operation) :
    Reached (operation.apply fb d).1 (operation.apply fb d).2 := by
  cases operation with
  | setPixel x y value => exact h.drawn (MonoFb.drawn_setPixel h.tidy x y value)
  | hline x y width value => exact h.drawn (MonoFb.drawn_hline h.tidy x y width value)
  | vline x y height value => exact h.drawn (MonoFb.drawn_vline h.tidy x y height value)
  | rect x y width height value => exact h.drawn (MonoFb.drawn_rect h.tidy x y width height value)
  | clear => exact h.drawn (MonoFb.drawn_clear h.tidy)
  | writeMaskedByte page x value mask =>
    exact h.drawn (MonoFb.drawn_writeMaskedByte h.tidy page x value mask)
  | present => exact h.present.1

/-- **Every run of operations** keeps every difference to the display marked,
whatever the bus does. -/
theorem Reached.run (h : Reached fb d) (operations : List Operation) :
    Reached (Display.run operations fb d).1 (Display.run operations fb d).2 := by
  induction operations generalizing fb d with
  | nil => exact h
  | cons operation operations ih => exact ih (h.apply operation)

/-- A framebuffer of which every page is dirty covers any display. -/
theorem reached_markAllDirty (storage : Mem) (d : Ssd1306) :
    Reached (MonoFb.init storage ssd1306Width ssd1306Height).markAllDirty d := by
  obtain ⟨fb, hfb⟩ : ∃ fb, fb = MonoFb.init storage ssd1306Width ssd1306Height := ⟨_, rfl⟩
  have hwidth : fb.width = 128 := by rw [hfb]; rfl
  have hheight : fb.height = 32 := by rw [hfb]; rfl
  have hcount : fb.pageCount = 4 := by rw [MonoFb.pageCount, hheight]
  have hvalid : fb.Valid := by
    unfold MonoFb.Valid
    rw [hwidth, hheight, hcount]
    decide
  have hmask : (if maxPages ≤ 4 then (0xFF : BitVec 8) else if 4 = 0 then 0 else pageMask 4 - 1) =
      0x0F := by decide
  have hdirty : fb.markAllDirty =
      { fb with
        dirtyPages := 0x0F
        dirtyMinX := fun page => if page < 4 then 0 else spanClean
        dirtyMaxX := fun page => if page < 4 then 127 else 0 } := by
    rw [MonoFb.markAllDirty, if_neg (not_not.2 hvalid), hcount, hmask, hwidth]
  rw [← hfb, hdirty]
  have hbits : ∀ page < 8, (0x0F : BitVec 8).getLsbD page = true ↔ page < 4 := by decide
  refine ⟨hwidth, hheight, ?_, ?_⟩
  · intro page hpage
    dsimp only
    rw [hbits page hpage, hwidth]
    by_cases h4 : page < 4
    · rw [if_pos h4, if_pos h4]
      exact ⟨fun _ => ⟨Nat.zero_le _, Nat.lt_succ_self 127⟩, fun _ => h4⟩
    · rw [if_neg h4, if_neg h4]
      exact ⟨fun h => absurd h h4, fun h => absurd h.1 (by decide)⟩
  · intro p hp _
    have hp4 : p.1 < 4 := hcount ▸ hp.1
    have hp128 : p.2 < 128 := hwidth ▸ hp.2
    refine ⟨(hbits p.1 (by omega)).2 hp4, ?_, ?_⟩
    · dsimp only
      rw [if_pos hp4]
      exact Nat.zero_le _
    · dsimp only
      rw [if_pos hp4]
      omega

/-- **Over every run of drawing and presenting,** whichever writes to the
bus fail: where the display differs from the framebuffer, the page is dirty
there; the dirty spans are well formed; and a display that was presented
is the framebuffer. -/
theorem presented (storage : Mem) (d : Ssd1306) (operations : List Operation) :
    ∃ fb e, run operations (MonoFb.init storage ssd1306Width ssd1306Height).markAllDirty d =
        (fb, e) ∧
      (∀ page < ssd1306Pages, ∀ x < ssd1306Width, e.panel.ram page x ≠ fb.pixels page x →
        fb.dirtyPages.getLsbD page = true ∧ fb.dirtyMinX page ≤ x ∧ x ≤ fb.dirtyMaxX page) ∧
      (∀ page < maxPages, fb.dirtyPages.getLsbD page = true ↔
        fb.dirtyMinX page ≤ fb.dirtyMaxX page ∧ fb.dirtyMaxX page < ssd1306Width) ∧
      ((present fb e).2.2 = true → ∀ page < ssd1306Pages, ∀ x < ssd1306Width,
        (present fb e).2.1.panel.ram page x = (present fb e).1.pixels page x) := by
  have h := (reached_markAllDirty storage d).run operations
  refine ⟨_, _, rfl, ?_, ?_, ?_⟩
  · intro page hpage x hx hne
    refine h.covers (page, x) ⟨?_, ?_⟩ (Ne.symm hne)
    · rw [h.pageCount]
      exact hpage
    · rw [h.width]
      exact hx
  · intro page hpage
    have htidy := h.tidy page hpage
    rwa [h.width] at htidy
  · intro hok page hpage x hx
    obtain ⟨hafter, hnone⟩ := h.present
    have hclean := hnone hok
    refine hafter.covers.eq (i := (page, x)) ?_ ⟨?_, ?_⟩
    · intro p hp hdirty
      have hp4 : p.1 < _ := hp.1
      rw [hafter.pageCount] at hp4
      have hbit := hdirty.1
      rw [hclean p.1 hp4] at hbit
      exact Bool.noConfusion hbit
    · rw [hafter.pageCount]
      exact hpage
    · rw [hafter.width]
      exact hx

end Display

end DeusOs
