import DeusOs.Bootloader.Data

/-!
# The bootloader — END

An END answered `ST_OK` leaves the received image in the application
pages, under a slot that a reset boots. The other direction is about runs:
from the AUTHORIZE that erased a slot until its marker halfword is
programmed, through whatever fails and wherever a reset strikes, that
slot is not authenticated.
-/

namespace DeusOs

namespace Bootloader

open Nor (Mem Op Machine Outcome Entry applyAll replay)

variable {board : Board} {s : Sys} {e : Event} {slot : ℕ}

/-! ## The log of a run -/

theorem step_log (h : s.Inv board) (e : Event) :
    (s.step board e).machine.log = s.machine.log ++ s.issued board e ∧
      (s.step board e).machine.flash = replay (s.issued board e) s.machine.flash := by
  obtain ⟨r, plan, -, hran⟩ := step_work h e
  obtain ⟨es, hlog, hflash, -⟩ := hran.log
  rw [issued_of_ran hlog]
  exact ⟨hlog, hflash⟩

/-- **The flash of a run is the replay of its log**, and what holds of the
operations of every step holds of the operations of a run. -/
theorem run_log (h : s.Inv board) {P : Entry BootRam → Prop}
    (hP : ∀ s' : Sys, s'.Inv board → ∀ e, ∀ en ∈ s'.issued board e, P en) (evs : List Event) :
    ∃ es, (s.run board evs).machine.log = s.machine.log ++ es ∧
      (s.run board evs).machine.flash = replay es s.machine.flash ∧ ∀ en ∈ es, P en := by
  induction evs using List.reverseRecOn with
  | nil => exact ⟨[], (List.append_nil _).symm, rfl, by simp⟩
  | append_singleton evs e ih =>
    obtain ⟨es, hlog, hflash, hall⟩ := ih
    have hinv := inv_run_of h evs
    obtain ⟨hlog', hflash'⟩ := step_log hinv e
    rw [run_append_singleton]
    refine ⟨es ++ (s.run board evs).issued board e, ?_, ?_, fun en hen => ?_⟩
    · rw [hlog', hlog, List.append_assoc]
    · rw [hflash', hflash, Nor.replay_append]
    · rcases List.mem_append.1 hen with hen | hen
      · exact hall en hen
      · exact hP _ hinv e en hen

/-! ## The marker -/

/-- An operation reaches a slot's marker halfword only by erasing the page
or by programming the committed marker there. -/
def MarkerOp (slot : ℕ) (o : Op) : Prop :=
  (¬ o.Covers (slot + metaMarkerOffset) ∧ ¬ o.Covers (slot + metaMarkerOffset + 1)) ∨
    o = .erase slot metaPageBytes ∨ o = .program (slot + metaMarkerOffset) metaMarkerCommitted

theorem markerOp_of_issued (hslot : IsSlot slot) (h : s.Inv board) {en : Entry BootRam}
    (hen : en ∈ s.issued board e) : MarkerOp slot en.op := by
  obtain ⟨r, plan, hw, hran⟩ := step_work h e
  obtain ⟨es, hlog, -, hops, -⟩ := hran.log
  rw [issued_of_ran hlog] at hen
  have hop : en.op ∈ plan := hops.subset (List.mem_map_of_mem hen)
  have hb := hslot.bounds
  have hap := hslot.apart
  unfold MarkerOp
  cases hw with
  | none => simp at hop
  | authorize =>
    rw [List.mem_singleton.1 hop]
    rcases hslot.eq_or (isSlot_targetSlot board s.machine.flash) with heq | heq
    · exact Or.inr (Or.inl (by rw [heq]; rfl))
    · left
      rw [heq]
      simp only [Op.Covers, metaMarkerOffset]
      omega
  | data hp _ ha =>
    left
    have happ := ha.fits.app
    have hpos := ha.fits.len_pos
    constructor <;>
    · intro hc
      have := covers_chunkOps ha.fits hop hc
      simp only [appBase, appEnd, appMaxBytes, metaMarkerOffset] at *
      omega
  | commit hp _ hc =>
    have ho := (h hp).live hc.live
    rw [ho.endOps_eq] at hop
    rcases hslot.eq_or ho.isSlot with heq | heq
    · rw [heq] at hop
      rcases mem_metadataOps ho.length_header ho.length_tag hop with ⟨x, v, hx, h1, h2⟩ | hx
      · left
        rw [hx]
        simp only [Op.Covers]
        omega
      · exact Or.inr (Or.inr hx)
    · left
      constructor <;>
      · intro hc
        have := covers_metadataOps ho.length_header ho.length_tag hop hc
        simp only [heq, metaMarkerOffset] at *
        omega

/-- The marker halfword reads erased. -/
def Unmarked (slot : ℕ) (f : Mem) : Prop :=
  f (slot + metaMarkerOffset) = 0xFF ∧ f (slot + metaMarkerOffset + 1) = 0xFF

/-- A slot without its marker is not authenticated. -/
theorem Unmarked.unauthenticated {f : Mem} (h : Unmarked slot f) :
    metadataAuthenticated board f slot = none := by
  refine slotVersion_eq_zero.1 (slotVersion_of_marker ?_)
  have hff : f.half (slot + metaMarkerOffset) = 0xFFFF := Nor.le16_eq_ffff.2 h
  rw [hff]
  decide

/-- Only the marker itself marks a slot. -/
theorem Unmarked.apply {f : Mem} {o : Op} (h : Unmarked slot f) (ho : MarkerOp slot o)
    (hne : o ≠ .program (slot + metaMarkerOffset) metaMarkerCommitted) :
    Unmarked slot (o.apply f) := by
  rcases ho with ⟨h0, h1⟩ | rfl | rfl
  · exact ⟨(Op.apply_of_not_covers h0 f).trans h.1, (Op.apply_of_not_covers h1 f).trans h.2⟩
  · have hb := Op.blank_apply_erase f slot metaPageBytes
    exact ⟨hb metaMarkerOffset (by decide), hb (metaMarkerOffset + 1) (by decide)⟩
  · exact absurd rfl hne

/-- It stays so until an effective program of the marker. -/
theorem Unmarked.replay {f : Mem} {es : List (Entry BootRam)} (h : Unmarked slot f)
    (hall : ∀ en ∈ es, MarkerOp slot en.op)
    (hne : ∀ en ∈ es, ¬ (en.outcome.done = true ∧
      en.op = .program (slot + metaMarkerOffset) metaMarkerCommitted)) :
    Unmarked slot (Nor.replay es f) := by
  induction es generalizing f with
  | nil => exact h
  | cons en es ih =>
    rw [Nor.replay_cons]
    refine ih ?_ (fun en' hen' => hall en' (List.mem_cons_of_mem _ hen'))
      fun en' hen' => hne en' (List.mem_cons_of_mem _ hen')
    unfold Entry.effect
    split
    · rename_i hdone
      exact h.apply (hall en List.mem_cons_self) fun heq => hne en List.mem_cons_self ⟨hdone, heq⟩
    · exact h

/-! ## The two directions -/

variable (board) in
/-- What a reset finds on the flash `f` of a committed session: the image
received, under the session's header, and the hand-off to it. -/
structure Committed (f : Mem) (ses : Session) : Prop where
  image : f.bytes appBase (imageLength ses.header) = ses.received
  digest : (sha256Memory ses.received).toList = imageDigest ses.header
  record : slotHeader f ses.slot = ses.header ∧ slotTag f ses.slot = ses.tag
  authenticated : metadataAuthenticated board f ses.slot = some (imageVersion ses.header)
  handoff : ∀ bkpDr1 bkpDr2, consumeUpdateToken bkpDr1 bkpDr2 = false → ∃ r,
    bootMain board f bkpDr1 bkpDr2 =
      .handoffApp (word f appBase) (word f (appBase + 4)) r ∧
    r.committedVersion = imageVersion ses.header

theorem digest_of_appMatches {f : Mem} {h : List UInt8} (hlen : h.length = 48)
    (hm : appMatchesHeader f h = true) :
    (sha256Memory (f.bytes appBase (imageLength h))).toList = imageDigest h := by
  simp only [appMatchesHeader, Bool.and_eq_true] at hm
  exact (bytesEqual_iff_eq (by simp) (by simp [imageDigest, hlen])).1 hm.1

/-- Without a token, a bootable flash is handed off to. -/
theorem bootMain_of_committed {f : Mem} {d1 d2 : ℕ} (ht : consumeUpdateToken d1 d2 = false)
    (hc : (scanFlash board f).committedVersion ≠ 0) :
    bootMain board f d1 d2 =
      .handoffApp (word f appBase) (word f (appBase + 4)) (bootRam board f) := by
  simp only [bootMain]
  exact if_pos ⟨by simp [ht], hc⟩

/-- **The commit of an open session:** every byte of the image, of the header
and of the tag is where it belongs. -/
theorem Open.committed {m : Machine BootRam} {ses : Session} (h : Open board m ses)
    (hc : Commits m) : Committed board (applyAll (endOps m.ram) m.flash) ses := by
  have hin := h.installed hc
  have hlen := imageLength_bounds h.structural
  have hb := h.isSlot.bounds
  have hcount : ses.received.length = imageLength ses.header := by
    rw [← h.offset, hc.complete, h.header]
  have himage : (applyAll (endOps m.ram) m.flash).bytes appBase (imageLength ses.header) =
      ses.received := by
    rw [← hcount]
    refine (Nor.Mem.bytes_congr fun i hi => ?_).trans h.app
    refine h.applyAll_endOps_of_outside (fun o ho => ho) (Or.inl ?_) _
    simp only [appBase, appEnd, appMaxBytes] at *
    omega
  exact
    { image := himage
      digest := by
        rw [← himage]
        exact digest_of_appMatches h.length_header hin.app
      record := ⟨hin.header, hin.tag⟩
      authenticated := metadataAuthenticated_eq_some.2 ⟨hin.authentic, by rw [hin.header]⟩
      handoff := fun d1 d2 ht => ⟨_, bootMain_of_committed ht (by
          rw [hin.committed]
          exact imageVersion_ne_zero h.structural), hin.committed⟩ }

/-- An END answered `ST_OK` ran the whole commit. -/
theorem commits_of_ok (h : s.Inv board) (hp : s.phase = .update) {rx : List UInt8}
    {tape : ℕ → Option Outcome} {m' : Machine BootRam} (hop : packetOpcode rx = opEnd)
    (hrun : processBulkPacket board rx { s.machine with tape } = .ok (some .ok) m') :
    Commits s.machine ∧ m'.flash = applyAll (endOps s.machine.ram) s.machine.flash := by
  have hstep := Nor.wp_ok (packetStep_of_inv h hp rx tape) hrun
  generalize hm' : m' = m₂ at hstep
  cases hstep with
  | served _ hd =>
    have he := DispatchStep.handled (hd.of_end hop)
    cases he with
    | refused _ hst => simp at hst
    | unverified _ _ hst => simp at hst
    | committed _ hc hdoes => exact ⟨⟨hc.1, hc.2, hc.3, hc.4, hc.5⟩, hdoes.flash⟩

variable (board) in
/-- **END commits exactly the received image**: what it leaves when it
answers `ST_OK`, and, of the live session's slot, that no run without an
effective program of its marker authenticates it. -/
structure CommitsExactly (s : Sys) : Prop where
  ok : ∀ rx tape m', s.phase = .update → packetOpcode rx = opEnd →
    processBulkPacket board rx { s.machine with tape } = .ok (some .ok) m' →
    Authentic board m'.flash s.session.slot ∧ Committed board m'.flash s.session
  unmarked : s.phase = .update → s.machine.ram.Live → ∀ evs,
    (∀ en ∈ (s.run board evs).machine.log.drop s.machine.log.length,
      ¬ (en.outcome.done = true ∧
        en.op = .program (s.session.slot + metaMarkerOffset) metaMarkerCommitted)) →
    metadataAuthenticated board (s.run board evs).machine.flash s.session.slot = none

/-- **END commits exactly where it says so,** in every run from every flash:
where it answers `ST_OK`, the slot of the session is authenticated and holds
what was received; and the slot of a live session is not authenticated, in
whatever follows, unless its marker has been programmed since. -/
theorem end_commits_exactly (board : Board) (f : Mem) (evs : List Event) :
    CommitsExactly board ((Sys.unpowered f).run board evs) where
  ok rx tape m' hp hop hrun := by
    obtain ⟨hc, hflash⟩ := commits_of_ok (inv_run board f evs) hp hop hrun
    have ho := (inv_run board f evs hp).live hc.live
    rw [hflash]
    exact ⟨(ho.installed hc).authentic, ho.committed hc⟩
  unmarked hp hl evs' hne := by
    have hinv := inv_run board f evs
    have ho := (hinv hp).live hl
    obtain ⟨es, hlog, hflash, hall⟩ :=
      run_log hinv (fun s' hs' e en hen => markerOp_of_issued ho.isSlot hs' hen) evs'
    rw [hlog, List.drop_left] at hne
    rw [hflash]
    exact (Unmarked.replay ⟨ho.blank 80 (by omega), ho.blank 81 (by omega)⟩ hall hne).unauthenticated

end Bootloader

end DeusOs
