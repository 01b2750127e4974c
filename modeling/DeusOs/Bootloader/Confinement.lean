import Mathlib.Data.List.Induction
import DeusOs.Bootloader.Commit

/-!
# The bootloader — where and why flash is mutated

Every operation of every run is covered by an AUTHORIZE that passed all
its checks for the header still staged, and stays in the pages of that
header's image or in the metadata slot that AUTHORIZE chose. Read the
other way: nothing else, and in particular nothing before AUTHORIZE,
touches flash.
-/

namespace DeusOs

namespace Bootloader

open Nor (Mem Op Machine Entry replay)

variable {board : Board} {s : Sys} {e : Event} {r : BootRam} {plan : List Op} {f : Mem}

/-! ## The slot that holds the floor -/

/-- The slot the scan takes the floor from, if any. -/
theorem highestFloorSlot_cases (board : Board) (f : Mem) :
    ((scanFlash board f).highestFloorSlot = 0 ∧ floor board f = 0) ∨
      (IsSlot (scanFlash board f).highestFloorSlot ∧ floor board f ≠ 0 ∧
        slotVersion board f (scanFlash board f).highestFloorSlot = floor board f) := by
  have hA := @slotVersion_eq_zero board f metaA
  have hB := @slotVersion_eq_zero board f metaB
  unfold floor
  unfold scanFlash
  unfold slotVersion at hA hB ⊢
  rcases hva : metadataAuthenticated board f metaA with - | va <;>
    rcases hvb : metadataAuthenticated board f metaB with - | vb <;>
    simp only [hva, hvb, Option.getD] at hA hB ⊢
  · exact Or.inl ⟨trivial, rfl⟩
  · simp at hB
    have hpos : max 0 vb = vb := by omega
    simp only [Nat.zero_le, if_true, hpos]
    right
    split <;> exact ⟨Or.inr rfl, by omega, by simp [hvb]⟩
  · simp at hA
    right
    split <;> exact ⟨Or.inl rfl, by omega, by simp [hva]⟩
  · simp at hA hB
    right
    by_cases hle : va ≤ vb
    · simp only [if_pos hle, Nat.max_eq_right hle]
      split <;> split <;> exact ⟨Or.inr rfl, by omega, by simp [hvb]⟩
    · simp only [if_neg hle, Nat.max_eq_left (Nat.le_of_not_le hle)]
      split <;> split <;> exact ⟨Or.inl rfl, by omega, by simp [hva]⟩

/-- A slot other than the floor's leaves the whole floor to its twin. -/
theorem floor_eq_of_ne_highest {slot : ℕ} (hslot : IsSlot slot)
    (h : slot ≠ (scanFlash board f).highestFloorSlot) :
    floor board f = slotVersion board f (otherSlot slot) := by
  rcases highestFloorSlot_cases board f with ⟨-, hz⟩ | ⟨his, -, hver⟩
  · have : slotVersion board f (otherSlot slot) ≤ floor board f :=
      slotVersion_le_floor (isSlot_otherSlot slot)
    omega
  · rcases hslot.eq_or his with heq | heq
    · exact absurd heq.symm h
    · rw [← heq, hver]

theorem ne_highest_of_uncounted {slot : ℕ} (hslot : IsSlot slot)
    (h : slotVersion board f slot = 0) : slot ≠ (scanFlash board f).highestFloorSlot := by
  rintro heq
  rcases highestFloorSlot_cases board f with ⟨hz, -⟩ | ⟨-, hne, hver⟩
  · have := hslot.bounds
    rw [hz] at heq
    simp only [appEnd] at this
    omega
  · rw [← heq, h] at hver
    exact hne hver.symm

/-- AUTHORIZE never erases the slot that holds the floor. -/
theorem targetSlot_ne_highest (f : Mem) :
    targetSlot board f ≠ (scanFlash board f).highestFloorSlot := by
  unfold targetSlot authorizeTarget
  split
  · rename_i h
    rw [h]
    decide
  · rename_i h
    exact fun h' => h h'.symm

/-! ## One operation -/

/-- `x` lies in a page that starts inside an image of `imageLen` bytes. -/
def InImagePage (imageLen x : ℕ) : Prop := appBase ≤ x ∧ (x - appBase) / 1024 * 1024 < imageLen

/-- The pages of an image lie inside of the application's flash. -/
theorem InImagePage.bounds {imageLen x : ℕ} (h : InImagePage imageLen x)
    (hlen : imageLen ≤ appMaxBytes) : appBase ≤ x ∧ x < appEnd := by
  unfold InImagePage at h
  simp only [appMaxBytes, appBase, appEnd] at *
  omega

/-- Where an operation may act, given the RAM and the flash it is issued
in: a page of the staged image, or the chosen slot, which is not the one
that holds the floor. -/
def Placed (board : Board) (en : Entry BootRam) : Prop :=
  (∀ x, en.op.Covers x → InImagePage (imageLength en.ram.stagedHeader.toList) x) ∨
    (IsSlot en.ram.targetMetadataSlot ∧
      en.ram.targetMetadataSlot ≠ (scanFlash board en.flash).highestFloorSlot ∧
      ∀ x, en.op.Covers x →
        en.ram.targetMetadataSlot ≤ x ∧ x < en.ram.targetMetadataSlot + 1024)

/-- The entries a step adds to the log. -/
def Sys.issued (board : Board) (s : Sys) (e : Event) : List (Entry BootRam) :=
  (s.step board e).machine.log.drop s.machine.log.length

/-- What a step issued is what it added to the log. -/
theorem issued_of_ran {es : List (Entry BootRam)}
    (h : (s.step board e).machine.log = s.machine.log ++ es) : s.issued board e = es := by
  rw [Sys.issued, h, List.drop_left]

/-- **Every operation is placed:** in a page of the staged image, or in the slot
that the session was opened for. -/
theorem placed_of_issued (h : s.Inv board) {en : Entry BootRam} (hen : en ∈ s.issued board e) :
    Placed board en := by
  obtain ⟨r, plan, hw, hran⟩ := step_work h e
  obtain ⟨es, hlog, -, hops, hflash, hram⟩ := hran.log
  rw [issued_of_ran hlog] at hen
  obtain ⟨i, hi, rfl⟩ := List.mem_iff_getElem.1 hen
  have hop : es[i].op ∈ plan := hops.subset (List.mem_map_of_mem hen)
  have hr := hram _ hen
  unfold Placed
  rw [hr]
  cases hw with
  | none => simp at hop
  | authorize hp _ ha =>
    right
    have hone := hops.length_le
    simp only [List.length_map, List.length_singleton] at hone
    obtain rfl : i = 0 := by omega
    refine ⟨isSlot_targetSlot board s.machine.flash, ?_, fun x hx => ?_⟩
    · rw [hflash 0 hi]
      exact targetSlot_ne_highest s.machine.flash
    · rw [List.mem_singleton.1 hop] at hx
      exact hx
  | data hp _ ha =>
    left
    intro x hx
    have hcov := covers_chunkOps ha.fits hop hx
    have hin := ha.image
    have hpos := ha.fits.len_pos
    unfold InImagePage
    omega
  | commit hp _ hc =>
    right
    have ho := (h hp).live hc.live
    have hslot : (endRam s.machine.ram).targetMetadataSlot = s.session.slot := by
      simp only [endRam]
      exact ho.slot
    rw [hslot]
    refine ⟨ho.isSlot, ?_, fun x hx => ?_⟩
    · rw [hflash i hi]
      exact ne_highest_of_uncounted ho.isSlot (ho.issued_uncounted hops hi)
    · have := ho.covers_endOps hop hx
      omega

/-! ## The AUTHORIZE behind an operation -/

/-- The event is an AUTHORIZE packet that passes every check in `s`. -/
def Authorizing (board : Board) (s : Sys) (e : Event) : Prop :=
  ∃ rx tape, e = .packet rx tape ∧ s.phase = .update ∧ packetOpcode rx = opAuthorize ∧
    headerStructuralValid s.machine.ram.stagedHeader.toList = true ∧
    Authorizes board s.machine (packetPayload rx)

/-- The device serves a live session, for this header and slot. -/
structure Serving (header : List UInt8) (slot : ℕ) (s : Sys) : Prop where
  phase : s.phase = .update
  live : s.machine.ram.Live
  header : s.machine.ram.stagedHeader.toList = header
  slot : s.machine.ram.targetMetadataSlot = slot

/-- **A session goes live by AUTHORIZE, and keeps its header and slot.** No
other packet makes a device live, and none changes what was staged. -/
theorem serving_step (h : s.Inv board) (hp' : (s.step board e).phase = .update)
    (hl' : (s.step board e).machine.ram.Live) :
    (Authorizing board s e ∧ Serving s.machine.ram.stagedHeader.toList
        (targetSlot board s.machine.flash) (s.step board e)) ∨
      (s.phase = .update ∧ s.machine.ram.Live ∧
        Serving s.machine.ram.stagedHeader.toList s.machine.ram.targetMetadataSlot
          (s.step board e)) := by
  have hm := moves h e
  generalize s.step board e = s' at hm hp' hl'
  cases hm with
  | idle => exact Or.inr ⟨hp', hl', hp', hl', rfl, rfl⟩
  | endpoint r => exact Or.inr ⟨hp', hl', hp', hl', rfl, rfl⟩
  | boot hr => rcases hl' with hl' | hl' <;> rw [hr] at hl' <;> cases hl'
  | cut => cases hp'
  | @served rx tape answer m' hp hrun hstep =>
    cases hstep with
    | ignored => exact Or.inr ⟨hp, hl', hp, hl', rfl, rfl⟩
    | @served st m₁ _ hd =>
      obtain ⟨r, hr⟩ := respond_eq_aside rx st m₁
      simp only [hr] at hl' ⊢
      -- the endpoint variables apart, the machine is the handler's
      have hlive : m₁.ram.Live := hl'
      cases hd with
      | refused => exact Or.inr ⟨hp, hlive, hp, hl', rfl, rfl⟩
      | info => refine Or.inr ⟨hp, hlive, hp, hl', ?_, ?_⟩ <;> simp only [aside, scanRam]
      | begin _ hb =>
        cases hb with
        | refused => exact Or.inr ⟨hp, hlive, hp, hl', rfl, rfl⟩
        | malformed => rcases hlive with hl | hl <;> cases hl
        | staged => rcases hlive with hl | hl <;> cases hl
      | authorize hop ha =>
        cases ha with
        | refused => exact Or.inr ⟨hp, hlive, hp, hl', rfl, rfl⟩
        | unauthenticated _ hs => exact absurd hlive (not_live_of_staged hs)
        | rejected _ hs =>
          refine absurd hlive (not_live_of_staged ?_)
          simp only [scanRam]
          exact hs
        | authorized ha hd =>
          refine Or.inl ⟨⟨rx, tape, rfl, hp, hop, (h hp).staged ha.staged,
            (authorizes_tape.1 ha)⟩, hp, hl', ?_, ?_⟩
          · simp only [aside, authorizedRam, authorizeRam, scanRam]
          · simp only [aside, authorizedRam, authorizeRam]
        | failed => rcases hlive with hl | hl <;> cases hl
      | data _ hstep =>
        cases hstep with
        | refused => exact Or.inr ⟨hp, hlive, hp, hl', rfl, rfl⟩
        | repeated => exact Or.inr ⟨hp, hlive, hp, hl', rfl, rfl⟩
        | accepted ha _ => refine Or.inr ⟨hp, ha.live, hp, hl', ?_, ?_⟩ <;> simp only [aside, dataRam]
        | failed => rcases hlive with hl | hl <;> cases hl
      | «end» _ he =>
        cases he with
        | refused => exact Or.inr ⟨hp, hlive, hp, hl', rfl, rfl⟩
        | unverified => rcases hlive with hl | hl <;> cases hl
        | committed => rcases hlive with hl | hl <;> cases hl
        | failed => rcases hlive with hl | hl <;> cases hl

/-- **A live session goes back to one AUTHORIZE**, and at every point since
it has been live, with that header and slot. -/
theorem serving_since (f : Mem) (evs : List Event)
    (hp : ((Sys.unpowered f).run board evs).phase = .update)
    (hl : ((Sys.unpowered f).run board evs).machine.ram.Live) :
    ∃ pre a post, evs = pre ++ a :: post ∧
      Authorizing board ((Sys.unpowered f).run board pre) a ∧
      ∀ mid, mid <+: post →
        Serving ((Sys.unpowered f).run board pre).machine.ram.stagedHeader.toList
          (targetSlot board ((Sys.unpowered f).run board pre).machine.flash)
          ((Sys.unpowered f).run board (pre ++ a :: mid)) := by
  induction evs using List.reverseRecOn with
  | nil => cases hp
  | append_singleton evs e ih =>
    have hinv := inv_run board f evs
    have hstep := serving_step (e := e) hinv (by rwa [← run_append_singleton])
      (by rwa [← run_append_singleton])
    rw [← run_append_singleton] at hstep
    rcases hstep with ⟨ha, hserve⟩ | ⟨hp₀, hl₀, hserve⟩
    · refine ⟨evs, e, [], rfl, ha, fun mid hmid => ?_⟩
      rw [List.prefix_nil.1 hmid]
      exact hserve
    · obtain ⟨pre, a, post, rfl, ha, hmid⟩ := ih hp₀ hl₀
      refine ⟨pre, a, post ++ [e], by simp, ha, fun mid hm => ?_⟩
      rcases List.prefix_concat_iff.1 hm with rfl | hm
      · have hlast := hmid post List.prefix_rfl
        rw [hlast.header, hlast.slot] at hserve
        simpa using hserve
      · exact hmid mid hm

/-- The RAM an operation is issued in: AUTHORIZE's own, or a live
session's, with the staged header and its tag. -/
theorem issued_ram (h : s.Inv board) {en : Entry BootRam} (hen : en ∈ s.issued board e) :
    en.ram.stagedHeader = s.machine.ram.stagedHeader ∧
      en.ram.stagedTag.toList =
        (hmacHeader board.deusUpdateKey s.machine.ram.stagedHeader.toList).toList ∧
      ((Authorizing board s e ∧
          en.ram.targetMetadataSlot = targetSlot board s.machine.flash) ∨
        (s.phase = .update ∧ s.machine.ram.Live ∧
          en.ram.targetMetadataSlot = s.machine.ram.targetMetadataSlot)) := by
  obtain ⟨r, plan, hw, hran⟩ := step_work h e
  obtain ⟨es, hlog, -, hops, -, hram⟩ := hran.log
  rw [issued_of_ran hlog] at hen
  rw [hram _ hen]
  have hop : en.op ∈ plan := hops.subset (List.mem_map_of_mem hen)
  cases hw with
  | none => simp at hop
  | @authorize rx tape hp hopc ha =>
    refine ⟨by simp only [authorizeRam, scanRam], ?_, Or.inl ⟨⟨rx, tape, rfl, hp, hopc,
      (h hp).staged ha.staged, ha⟩, by simp only [authorizeRam]⟩⟩
    simp only [authorizeRam]
    rw [toList_bytesCopy _ (by simp [ha.length]), ha.tag]
  | data hp _ ha =>
    have ho := (h hp).live ha.live
    exact ⟨rfl, by rw [ho.tag, ho.header, ho.authentic], Or.inr ⟨hp, ha.live, rfl⟩⟩
  | commit hp _ hc =>
    have ho := (h hp).live hc.live
    simp only [endRam]
    exact ⟨trivial, by rw [ho.tag, ho.header, ho.authentic], Or.inr ⟨hp, hc.live, trivial⟩⟩

/-- What a placed operation leaves alone: the bootloader's pages, the
persistence pages, and the slot that holds the floor. -/
theorem Placed.spares {en : Entry BootRam} (h : Placed board en)
    (hlen : imageLength en.ram.stagedHeader.toList ≤ appMaxBytes) {x : ℕ} (hx : en.op.Covers x) :
    appBase ≤ x ∧ x < persistA ∧ ¬ ((scanFlash board en.flash).highestFloorSlot ≤ x ∧
      x < (scanFlash board en.flash).highestFloorSlot + metaPageBytes) := by
  have hA := IsSlot.bounds (Or.inl rfl : IsSlot metaA)
  have hB := IsSlot.bounds (Or.inr rfl : IsSlot metaB)
  have hhigh := highestFloorSlot_cases board en.flash
  rcases h with happ | ⟨hslot, hne, hin⟩
  · have hb := (happ x hx).bounds hlen
    rcases hhigh with ⟨hz, -⟩ | ⟨his, -⟩
    · rw [hz]
      simp only [appBase, appEnd, persistA, metaPageBytes] at *
      omega
    · have := his.bounds
      simp only [appBase, appEnd, persistA, metaPageBytes] at *
      omega
  · have hb := hslot.bounds
    have hc := hin x hx
    rcases hhigh with ⟨hz, -⟩ | ⟨his, -⟩
    · rw [hz]
      simp only [appBase, appEnd, persistA, metaPageBytes] at *
      omega
    · have hap := hslot.apart
      rcases hslot.eq_or his with heq | heq
      · exact absurd heq.symm hne
      · rw [heq]
        simp only [appBase, appEnd, persistA, metaPageBytes] at *
        omega

variable (board) in
/-- What the AUTHORIZE `a`, served after `pre`, vouches for in the
operation `en`, which the last of the events `post` after it issued. -/
structure Vouches (f : Mem) (pre : List Event) (a : Event) (post : List Event)
    (en : Entry BootRam) : Prop where
  authorizing : Authorizing board ((Sys.unpowered f).run board pre) a
  serving : ∀ mid, mid <+: post → mid ≠ post →
    Serving ((Sys.unpowered f).run board pre).machine.ram.stagedHeader.toList
      (targetSlot board ((Sys.unpowered f).run board pre).machine.flash)
      ((Sys.unpowered f).run board (pre ++ a :: mid))
  header : en.ram.stagedHeader.toList =
    ((Sys.unpowered f).run board pre).machine.ram.stagedHeader.toList
  tag : en.ram.stagedTag.toList =
    (hmacHeader board.deusUpdateKey en.ram.stagedHeader.toList).toList
  unpreferred : targetSlot board ((Sys.unpowered f).run board pre).machine.flash ≠
    (scanFlash board ((Sys.unpowered f).run board pre).machine.flash).highestFloorSlot
  place : (∀ x, en.op.Covers x → InImagePage (imageLength en.ram.stagedHeader.toList) x) ∨
    ∀ x, en.op.Covers x →
      targetSlot board ((Sys.unpowered f).run board pre).machine.flash ≤ x ∧
        x < targetSlot board ((Sys.unpowered f).run board pre).machine.flash + metaPageBytes
  spares : ∀ x, en.op.Covers x → appBase ≤ x ∧ x < persistA ∧
    ¬ ((scanFlash board en.flash).highestFloorSlot ≤ x ∧
      x < (scanFlash board en.flash).highestFloorSlot + metaPageBytes)

variable (board) in
/-- Some AUTHORIZE among the events vouches for each operation the last of
them issues. -/
def Confined (f : Mem) (evs : List Event) (e : Event) : Prop :=
  ∀ en ∈ ((Sys.unpowered f).run board evs).issued board e, ∃ pre a post,
    evs ++ [e] = pre ++ a :: post ∧ Vouches board f pre a post en

/-- **No unauthorised mutation, and strict confinement.** Behind every
operation of every run stands an AUTHORIZE that passed all its checks,
served now or earlier with the device live ever since for the same staged
header; the operation acts in a page of that header's image, or in the
slot that AUTHORIZE chose, which did not hold the floor. It never touches
the bootloader's pages, the persistence pages, or the slot that holds the
floor when it is issued. -/
theorem mutations_authorized_and_confined (board : Board) (f : Mem) (evs : List Event)
    (e : Event) : Confined board f evs e := by
  intro en hen
  have hinv := inv_run board f evs
  obtain ⟨hheader, htag, hwhen⟩ := issued_ram hinv hen
  have hplaced := placed_of_issued hinv hen
  rw [← hheader] at htag
  rcases hwhen with ⟨ha, hslot⟩ | ⟨hp, hl, hslot⟩
  · -- AUTHORIZE's own erase
    obtain ⟨-, -, -, -, -, hstr, -⟩ := id ha
    have hlen := (imageLength_bounds hstr).2
    rw [← hheader] at hlen
    exact ⟨evs, e, [], rfl,
      { authorizing := ha
        serving := fun mid hmid hne => absurd (List.prefix_nil.1 hmid) hne
        header := congrArg Vector.toList hheader
        tag := htag
        unpreferred := targetSlot_ne_highest _
        place := hplaced.imp id fun h => hslot ▸ h.2.2
        spares := fun x hx => hplaced.spares hlen hx }⟩
  · -- a live session's operation
    obtain ⟨pre, a, post, heq, ha, hmid⟩ := serving_since f evs hp hl
    have hnow := hmid post List.prefix_rfl
    rw [← heq] at hnow
    have ho := (hinv hp).live hl
    have hlen := (imageLength_bounds ho.structural).2
    rw [← ho.header, ← hheader] at hlen
    exact ⟨pre, a, post ++ [e], by simp [heq],
      { authorizing := ha
        serving := fun mid hm hne => by
          rcases List.prefix_concat_iff.1 hm with rfl | hm
          · exact absurd rfl hne
          · exact hmid mid hm
        header := by rw [hheader, hnow.header]
        tag := htag
        unpreferred := targetSlot_ne_highest _
        place := by
          rw [← hnow.slot, ← hslot]
          exact hplaced.imp id fun h => h.2.2
        spares := fun x hx => hplaced.spares hlen hx }⟩

end Bootloader

end DeusOs
