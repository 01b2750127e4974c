import DeusOs.Asset.Successor
import DeusOs.Display.Model.Layout
import DeusOs.Host.Model.AssetTransfer

/-!
# The layout that is shown

Three checks say what a layout is: the device's on eight stored bytes, the
device's on a layout of `int32_t` rectangles, and the host's. They accept the
same (`layoutValidate_iff`, `deserialize_iff`). Nothing checks a layout again
once its record is active; that it is valid all the same is an invariant
(`Shown`).
-/

namespace DeusOs.Asset

open Nor
open Display (OledUiLayout oledUiLayoutValidate)
open Host (OledUiLayoutConfigV1)

/-! ## Three checks -/

/-- `oled_ui_layout_active`. -/
def Layout.active (l : Layout) : OledUiLayout :=
  ⟨⟨0, 0, 128, 9⟩, ⟨l.x.toNat, l.y.toNat, l.width.toNat, l.height.toNat⟩⟩

/-- The layout that a payload describes. -/
def payloadLayout (p : List UInt8) : OledUiLayout :=
  ⟨⟨0, 0, 128, 9⟩,
    ⟨(p.getD 1 0).toNat, (p.getD 2 0).toNat, (p.getD 3 0).toNat, (p.getD 4 0).toNat⟩⟩

/-- A console rectangle of bytes that fits below the status bar. -/
structure Fits (x y width height : UInt8) : Prop where
  top : 10 ≤ y.toNat
  wide : 5 ≤ width.toNat
  tall : 6 ≤ height.toNat
  right : x.toNat + width.toNat ≤ 128
  bottom : y.toNat + height.toNat ≤ 32

variable {x y width height : UInt8} {p : List UInt8} {m m' : Machine Ram}

/-- The device's check of a layout whose coordinates are bytes. -/
theorem oledUiLayoutValidate_iff :
    oledUiLayoutValidate ⟨⟨0, 0, 128, 9⟩, ⟨x.toNat, y.toNat, width.toNat, height.toNat⟩⟩ = true ↔
      Fits x y width height := by
  have hx := x.toNat_lt
  have hy := y.toNat_lt
  have hw := width.toNat_lt
  have hh := height.toNat_lt
  unfold oledUiLayoutValidate
  simp only [Bool.and_eq_true, decide_eq_true_eq]
  unfold Display.unsignedSum
  constructor
  · rintro ⟨⟨⟨⟨⟨-, h1⟩, h2⟩, h3⟩, h4⟩, h5⟩
    exact ⟨by omega, by omega, by omega, by omega, by omega⟩
  · rintro ⟨h1, h2, h3, h4, h5⟩
    refine ⟨⟨⟨⟨⟨⟨⟨⟨⟨trivial, trivial⟩, trivial⟩, trivial⟩, ?_⟩, ?_⟩, ?_⟩, ?_⟩, ?_⟩, ?_⟩ <;> omega

theorem or_eq_zero {a b c : UInt8} : a ||| b ||| c = 0 ↔ a = 0 ∧ b = 0 ∧ c = 0 := by
  constructor
  · intro h
    have hbits : ∀ i, (a.toBitVec ||| b.toBitVec ||| c.toBitVec).getLsbD i = false := by
      intro i
      rw [← UInt8.toBitVec_or, ← UInt8.toBitVec_or, h]
      simp
    simp only [BitVec.getLsbD_or, Bool.or_eq_false_iff] at hbits
    refine ⟨?_, ?_, ?_⟩
    · exact UInt8.toBitVec_inj.1 (BitVec.eq_of_getLsbD_eq fun i _ => by simp [(hbits i).1.1])
    · exact UInt8.toBitVec_inj.1 (BitVec.eq_of_getLsbD_eq fun i _ => by simp [(hbits i).1.2])
    · exact UInt8.toBitVec_inj.1 (BitVec.eq_of_getLsbD_eq fun i _ => by simp [(hbits i).2])
  · rintro ⟨rfl, rfl, rfl⟩
    rfl

/-- Schema 1, and nothing in the reserved bytes. -/
structure Framed (p : List UInt8) : Prop where
  length : p.length = 8
  schema : p.getD 0 0 = 1
  reserved : p.getD 5 0 = 0 ∧ p.getD 6 0 = 0 ∧ p.getD 7 0 = 0

/-- **The device's check of the stored bytes:** the length and the fixed bytes,
and a rectangle that fits beneath the status bar. -/
theorem layoutValidate_iff :
    layoutValidate p = true ↔
      Framed p ∧ Fits (p.getD 1 0) (p.getD 2 0) (p.getD 3 0) (p.getD 4 0) := by
  unfold layoutValidate
  simp only [Bool.and_eq_true, decide_eq_true_eq]
  simp only [or_eq_zero, UInt8.le_iff_toNat_le]
  constructor
  · rintro ⟨⟨⟨⟨⟨⟨⟨h1, h2⟩, h3⟩, h4⟩, h5⟩, h6⟩, h7⟩, h8⟩
    exact ⟨⟨h1, h2, h3⟩, h6, h4, h5, h7, h8⟩
  · rintro ⟨⟨h1, h2, h3⟩, h6, h4, h5, h7, h8⟩
    exact ⟨⟨⟨⟨⟨⟨⟨h1, h2⟩, h3⟩, h4⟩, h5⟩, h6⟩, h7⟩, h8⟩

theorem valid_iff (c : OledUiLayoutConfigV1) :
    c.Valid ↔ Fits c.consoleX c.consoleY c.consoleWidth c.consoleHeight := by
  simp only [OledUiLayoutConfigV1.Valid, not_or, UInt8.lt_iff_toNat_lt, Nat.not_lt]
  exact ⟨fun ⟨h1, h2, h3, h4, h5⟩ => ⟨h1, h2, h3, h4, h5⟩,
    fun ⟨h1, h2, h3, h4, h5⟩ => ⟨h1, h2, h3, h4, h5⟩⟩

/-- **The host's check** of the same bytes, and what it reads from them. It is
the device's check, though the two are written differently. -/
theorem deserialize_iff {c : OledUiLayoutConfigV1} :
    OledUiLayoutConfigV1.deserialize p = .ok c ↔
      Framed p ∧ Fits (p.getD 1 0) (p.getD 2 0) (p.getD 3 0) (p.getD 4 0) ∧
        c = ⟨p.getD 1 0, p.getD 2 0, p.getD 3 0, p.getD 4 0⟩ := by
  have hvalid := valid_iff ⟨p.getD 1 0, p.getD 2 0, p.getD 3 0, p.getD 4 0⟩
  unfold OledUiLayoutConfigV1.deserialize
  constructor
  · intro h
    split at h
    · cases h
    rename_i hframe
    simp only [not_or, not_not] at hframe
    obtain ⟨h1, h2, h3, h4, h5⟩ := hframe
    dsimp only at h
    split at h
    · rename_i hv
      cases h
      exact ⟨⟨h1, h2, h3, h4, h5⟩, hvalid.1 hv, rfl⟩
    · cases h
  · rintro ⟨⟨h1, h2, h3, h4, h5⟩, hfits, rfl⟩
    have hframe : ¬ (p.length ≠ 8 ∨ p.getD 0 0 ≠ Host.schemaVersion ∨ p.getD 5 0 ≠ 0 ∨
        p.getD 6 0 ≠ 0 ∨ p.getD 7 0 ≠ 0) := by
      simp only [not_or, not_not]
      exact ⟨h1, h2, h3, h4, h5⟩
    rw [if_neg hframe]
    exact if_pos (hvalid.2 hfits)

/-- Eight bytes are their reads. -/
theorem eq_of_length_eight (h : p.length = 8) :
    p = [p.getD 0 0, p.getD 1 0, p.getD 2 0, p.getD 3 0, p.getD 4 0, p.getD 5 0, p.getD 6 0,
      p.getD 7 0] := by
  obtain ⟨a, b, c, d, e, f, g, i, rfl⟩ : ∃ a b c d e f g i, p = [a, b, c, d, e, f, g, i] := by
    match p, h with
    | [a, b, c, d, e, f, g, i], _ => exact ⟨a, b, c, d, e, f, g, i, rfl⟩
  rfl

/-- **What is read is written back,** byte for byte: the fixed bytes are checked
when it is read. -/
theorem serialize_deserialize {c : OledUiLayoutConfigV1}
    (h : OledUiLayoutConfigV1.deserialize p = .ok c) : c.serialize = .ok p := by
  obtain ⟨⟨hlen, hschema, h5, h6, h7⟩, hfits, rfl⟩ := deserialize_iff.1 h
  have hp := eq_of_length_eight hlen
  rw [OledUiLayoutConfigV1.serialize, if_pos ((valid_iff _).2 hfits)]
  rw [hschema, h5, h6, h7] at hp
  exact congrArg Except.ok hp.symm

/-- **And what is written is read back.** -/
theorem deserialize_serialize {c : OledUiLayoutConfigV1} (h : c.serialize = .ok p) :
    OledUiLayoutConfigV1.deserialize p = .ok c := by
  unfold OledUiLayoutConfigV1.serialize at h
  split at h
  · rename_i hv
    cases h
    exact deserialize_iff.2 ⟨⟨rfl, rfl, rfl, rfl, rfl⟩, (valid_iff c).1 hv, rfl⟩
  · cases h

/-! ## What is shown -/

/-- The layout that is shown is valid; and where a record is active, the boot
would find it again, and the layout is its payload's. -/
structure Shown (m : Machine Ram) : Prop where
  layout : oledUiLayoutValidate m.ram.layout.active = true
  record : ∀ r, m.ram.activeRecord = some r →
    Holds m.flash r.slotAddress r ∧
      m.ram.layout.active = payloadLayout (payload m.flash r.slotAddress)

/-- The layout that is active after an activation is the payload's. -/
theorem active_layoutActivate (p : List UInt8) (l : Layout) :
    (layoutActivate p l).active = payloadLayout p := by
  unfold layoutActivate
  split
  · rfl
  · rename_i hsame
    simp only [not_or, not_not] at hsame
    obtain ⟨h1, h2, h3, h4⟩ := hsame
    rw [Layout.active, payloadLayout, h1, h2, h3, h4]

/-- A payload that validates describes a layout that does. -/
theorem validate_payloadLayout (h : layoutValidate p = true) :
    oledUiLayoutValidate (payloadLayout p) = true :=
  oledUiLayoutValidate_iff.2 (layoutValidate_iff.1 h).2

/-- A record that has just become active, and its layout with it. -/
theorem Shown.of_activated {r : Record} {l : Layout} (hholds : Holds m.flash r.slotAddress r)
    (hrecord : m.ram.activeRecord = some r)
    (hlayout : m.ram.layout = layoutActivate (payload m.flash r.slotAddress) l) : Shown m := by
  have hactive : m.ram.layout.active = payloadLayout (payload m.flash r.slotAddress) := by
    rw [hlayout, active_layoutActivate]
  refine ⟨?_, fun r' hr' => ?_⟩
  · rw [hactive]
    exact validate_payloadLayout (layoutValidate_of_validate hholds)
  · obtain rfl := Option.some.inj (hr'.symm.trans hrecord)
    exact ⟨hholds, hactive⟩

/-- **What spares the active record** and its layout goes on showing it, since
the payload on the flash is untouched. -/
theorem Shown.kept (h : Shown m) (hinv : Inv m) (hspares : Spares m m')
    (hlayout : m'.ram.layout = m.ram.layout) : Shown m' := by
  refine ⟨?_, fun r hr => ?_⟩
  · rw [hlayout]
    exact h.layout
  · rw [hspares.record] at hr
    obtain ⟨hholds, hactive⟩ := h.record r hr
    have hslot := hinv.record r hr
    have hne : r.slotAddress ≠ otherSlot m.ram.activeRecord := by
      rw [hr]
      exact otherSlot_ne hslot
    refine ⟨(hspares.flash.holds (otherSlot_cases _) hslot hne).2 hholds, ?_⟩
    rw [hlayout, hspares.payload hr hslot]
    exact hactive

/-! ## The operations leave the layout -/

theorem layout_of_startStep {result : Result} (h : StartStep m (some result) m') :
    m'.ram.layout = m.ram.layout := by
  cases h with
  | wornOut => rfl
  | started _ _ hram => rw [hram]
  | failed _ _ _ hram => rw [hram]

theorem layout_of_beginStep {crc : UInt32} {result : Result}
    (h : BeginStep crc m (some result) m') : m'.ram.layout = m.ram.layout := by
  cases h with
  | refused => rfl
  | comparing => rfl
  | starting _ _ hstart =>
    have hsame := layout_of_startStep hstart
    exact hsame

theorem layout_of_putStep {data : List UInt8} {result : Result}
    (h : PutStep data m (some result) m') : m'.ram.layout = m.ram.layout := by
  cases h with
  | refused => rfl
  | compared => rfl
  | wornOut => rfl
  | started _ _ _ _ _ _ _ hram => rw [hram]
  | startFailed _ _ _ _ _ _ _ hram => rw [hram]
  | stored _ _ _ hwrite =>
    cases hwrite with
    | written _ hram => rw [hram]
    | failed _ hram => rw [hram]

theorem layout_of_commitStep {result : Result} (hne : result ≠ .ok)
    (h : CommitStep m (some result) m') : m'.ram.layout = m.ram.layout := by
  cases h with
  | refused => rfl
  | unchanged => rfl
  | headerFailed _ _ hram => rw [hram]
  | invalid _ _ hram => rw [hram]
  | markerFailed _ _ _ _ _ hram => rw [hram]
  | markedInvalid _ _ _ _ hram => rw [hram]
  | committed => exact absurd rfl hne

/-! ## The runs -/

section Runs

variable {frame : FrameView} {now : UInt32} {response : Response} {status : Status}

theorem layout_of_beginEnd (h : BeginEnd p now m status m') :
    m'.ram.layout = m.ram.layout := by
  cases h with
  | refused => rfl
  | again => rfl
  | opened _ _ hstep =>
    have hsame := layout_of_beginStep hstep
    exact hsame
  | closed _ _ _ _ hstep =>
    have hsame := layout_of_beginStep hstep
    exact hsame

theorem layout_of_writeEnd (h : WriteEnd p now m status m') :
    m'.ram.layout = m.ram.layout := by
  cases h with
  | refused => rfl
  | again => rfl
  | stored _ hput =>
    have hsame := layout_of_putStep hput
    exact hsame
  | wornOut _ hput => exact layout_of_putStep hput
  | closed _ hput =>
    have hsame := layout_of_putStep hput
    exact hsame

/-- What only the session sees does not matter. -/
theorem Shown.congr (h : Shown m) (hflash : m'.flash = m.flash)
    (hrecord : m'.ram.activeRecord = m.ram.activeRecord)
    (hlayout : m'.ram.layout = m.ram.layout) : Shown m' := by
  refine ⟨?_, ?_⟩
  · rw [hlayout]
    exact h.layout
  · rw [hflash, hrecord, hlayout]
    exact h.record

theorem shown_commitEnd (hinv : Inv m) (hready : Ready m) (h : Shown m)
    (hend : CommitEnd p m status m') : Shown m' := by
  cases hend with
  | refused => exact h
  | again => exact h
  | committed _ _ _ _ hok hstep =>
    rcases hok with rfl | rfl
    · cases hstep with
      | invalid _ _ _ hvalid => exact absurd (Or.inl rfl) (validateRecord_error hvalid)
      | markedInvalid _ _ _ _ _ hvalid => exact absurd (Or.inl rfl) (validateRecord_error hvalid)
      | committed _ _ _ _ _ hvalid =>
        have hslot := slotAddress_of_validate hvalid
        rw [← hslot] at hvalid
        exact Shown.of_activated hvalid rfl rfl
    · have hne : Result.unchanged ≠ .ok := by decide
      have hkept := h.kept hinv (spares_commitStep hready.slotAddress hne hstep)
        (layout_of_commitStep hne hstep)
      exact hkept.congr rfl rfl rfl
  | closed _ hne _ _ hstep =>
    have hkept := h.kept hinv (spares_commitStep hready.slotAddress hne hstep)
      (layout_of_commitStep hne hstep)
    exact hkept.congr rfl rfl rfl

theorem shown_frameEnd (hinv : Inv m) (hready : Ready m) (h : Shown m)
    (hend : FrameEnd frame now m response m') : Shown m' := by
  cases hend with
  | refused => exact h
  | begin _ hend => exact h.kept hinv (spares_beginEnd hend) (layout_of_beginEnd hend)
  | write _ hend => exact h.kept hinv (spares_writeEnd hinv hready hend) (layout_of_writeEnd hend)
  | commit _ hend => exact shown_commitEnd hinv hready h hend
  | abort _ hend =>
    cases hend with
    | refused => exact h
    | idle => exact h
    | closed => exact h.congr rfl rfl rfl
  | status _ hend =>
    cases hend with
    | refused => exact h
    | any => exact h
    | session => exact h.congr rfl rfl rfl
  | read _ hend =>
    cases hend with
    | refused => exact h
    | read => exact h

/-- The boot shows the record it finds, or the default. -/
theorem shown_boot (flash : Mem) (log : List (Entry Ram)) (tape : ℕ → Option Outcome) :
    Shown ⟨flash, boot flash, log, tape⟩ := by
  cases hchosen : (bootRecord flash).1 with
  | none =>
    have hram : (boot flash).activeRecord = none ∧ (boot flash).layout = {} := by
      simp only [boot, selectBootRecord, hchosen]
      exact ⟨trivial, trivial⟩
    refine ⟨?_, fun r hr => ?_⟩
    · show oledUiLayoutValidate (boot flash).layout.active = true
      rw [hram.2]
      decide
    · rw [show (boot flash).activeRecord = none from hram.1] at hr
      cases hr
  | some r =>
    have hholds := holds_bootRecord hchosen
    have hram : (boot flash).activeRecord = some r ∧
        (boot flash).layout = layoutActivate (payload flash r.slotAddress) {} := by
      simp only [boot, selectBootRecord, hchosen]
      exact ⟨trivial, trivial⟩
    exact Shown.of_activated hholds hram.1 hram.2

/-- **In every reachable state** the layout that is shown is valid: a commit
validates before it marks, and a boot before it selects. -/
theorem Reachable.shown (h : Reachable m) : Shown m := by
  induction h with
  | boot flash log tape => exact shown_boot flash log tape
  | arm control _ ih => exact ih.congr rfl rfl rfl
  | @step m m' ev r tape hreach hserve ih =>
    have hinv : Inv { m with tape := tape } :=
      hreach.inv.congr rfl rfl rfl ⟨rfl, rfl, rfl, rfl⟩
    have hready : Ready { m with tape := tape } := hreach.ready.congr rfl rfl rfl
    have hshown : Shown { m with tape := tape } := ih.congr rfl rfl rfl
    suffices hwp : wp (serve ev) (fun _ m' => Shown m') (fun _ => True) { m with tape := tape } from
      wp_ok hwp hserve
    have hclear : Shown (cleared { m with tape := tape }) := hshown.congr rfl rfl rfl
    cases ev with
    | frame frame now =>
      simp only [serve, wp_bind]
      exact wp_mono (handleFrame_wp hinv frame now)
        (fun _ _ hend => shown_frameEnd hinv hready hshown hend) fun _ _ => trivial
    | poll now =>
      simp only [serve, wp_bind]
      exact wp_poll now hshown fun _ => hclear
    | resetSession =>
      simp only [serve, wp_bind]
      exact wp_clearSession hclear

end Runs

/-- **Only a valid layout is ever active,** and all the checks accept the
same payloads: whatever the flash held, whatever the host sends and wherever
the power is lost. -/
theorem layout_always_valid :
    (∀ m, Reachable m → oledUiLayoutValidate m.ram.layout.active = true ∧
      ∀ r, m.ram.activeRecord = some r →
        validateRecord m.flash r.slotAddress commitMarker = .ok r ∧
        layoutValidate (payload m.flash r.slotAddress) = true ∧
        m.ram.layout.active = payloadLayout (payload m.flash r.slotAddress)) ∧
    (∀ p : List UInt8, p.length = 8 →
      (layoutValidate p = true ↔ ∃ c, OledUiLayoutConfigV1.deserialize p = .ok c) ∧
      (layoutValidate p = true ↔
        p.getD 0 0 = 1 ∧ (p.getD 5 0 = 0 ∧ p.getD 6 0 = 0 ∧ p.getD 7 0 = 0) ∧
          oledUiLayoutValidate (payloadLayout p) = true)) ∧
    (∀ (p : List UInt8) (c : OledUiLayoutConfigV1),
      OledUiLayoutConfigV1.deserialize p = .ok c ↔ c.serialize = .ok p) := by
  refine ⟨fun m h => ?_, fun p hlen => ⟨?_, ?_⟩, fun p c => ?_⟩
  · have hshown := h.shown
    refine ⟨hshown.layout, fun r hr => ?_⟩
    obtain ⟨hholds, hactive⟩ := hshown.record r hr
    exact ⟨hholds, layoutValidate_of_validate hholds, hactive⟩
  · rw [layoutValidate_iff]
    constructor
    · rintro ⟨hframed, hfits⟩
      exact ⟨_, deserialize_iff.2 ⟨hframed, hfits, rfl⟩⟩
    · rintro ⟨c, hc⟩
      obtain ⟨hframed, hfits, -⟩ := deserialize_iff.1 hc
      exact ⟨hframed, hfits⟩
  · rw [layoutValidate_iff, payloadLayout, oledUiLayoutValidate_iff]
    exact ⟨fun ⟨hframed, hfits⟩ => ⟨hframed.schema, hframed.reserved, hfits⟩,
      fun ⟨hschema, hreserved, hfits⟩ => ⟨⟨hlen, hschema, hreserved⟩, hfits⟩⟩
  · exact ⟨serialize_deserialize, deserialize_serialize⟩

end DeusOs.Asset
