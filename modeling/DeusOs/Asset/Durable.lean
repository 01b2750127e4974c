import DeusOs.Asset.Chunking
import DeusOs.Asset.Successor

/-!
# A committed record is durable

What a commit stored is what the next boot selects, whatever calls come in
between (`durable_of_not_ambiguous`). The exception is a flash that already
holds two records of one generation that differ: the boot then selects
neither, the first commit is the first generation again, and the record in
the other slot goes before it (`not_durable_of_ambiguous`).

Up to the first start of a slot nothing is known of the other slot, and
nothing has to be: the start erases it (`ran_withoutOther`). From then on
the discipline of the candidate holds.
-/

namespace DeusOs.Asset

open Nor

/-! ## Calls -/

/-- Calls one after another, with their answers. The flash operations
succeed. -/
inductive Calls : List (Call × Result) → Machine Ram → Machine Ram → Prop
  | nil (m : Machine Ram) : Calls [] m m
  | cons {c : Call} {r : Result} {cs : List (Call × Result)} {m m₁ m₂ : Machine Ram} :
      c.run { m with tape := fun _ => some Outcome.good } = .ok r m₁ → Calls cs m₁ m₂ →
      Calls ((c, r) :: cs) m m₂

/-- A device that has booted from the flash. -/
def booted (f : Mem) : Machine Ram := ⟨f, boot f, [], fun _ => some Outcome.good⟩

/-- The boot from `f` selects the record that the commit from `m` to `m₁`
stored. -/
def Recovered (m m₁ : Machine Ram) (f : Mem) : Prop :=
  ∃ r, m₁.ram.activeRecord = some r ∧ r.slotAddress = m.ram.candidate.slotAddress ∧
    r.generation = m.ram.candidate.generation ∧ r.payloadCrc32 = m.ram.candidate.payloadCrc32 ∧
    (boot f).activeRecord = some r ∧ payload f r.slotAddress = payload m₁.flash r.slotAddress

/-- **From this content, what is committed is durable:** the record of the
last commit that answered OK, with nothing erased since, is the one that
a boot selects. -/
def Durable (f : Mem) : Prop :=
  ∀ (before after : List (Call × Result)) (m m₁ m₂ : Machine Ram), Calls before (booted f) m →
    Calls [(.commit, .ok)] m m₁ → Calls after m₁ m₂ →
    (Call.commit, Result.ok) ∉ after →
    (∀ e ∈ m₂.log.drop m₁.log.length, ∀ base size, e.op ≠ .erase base size) →
    Recovered m m₁ m₂.flash

/-- Two records of one generation that differ. -/
def Ambiguous (f : Mem) : Prop :=
  ∃ a b, Holds f slotA a ∧ Holds f slotB b ∧ a.generation = b.generation ∧
    recordsIdentical f a b = false

/-! ## What the boot selects -/

section Boot

variable {f : Mem} {active active' : Option Record}

theorem activeRecord_boot (f : Mem) : (boot f).activeRecord = (bootRecord f).1 := rfl

/-- What backs two records backs one. -/
theorem Backed.unique (h : Backed f active) (h' : Backed f active') : active = active' := by
  rcases active with - | r
  · rcases active' with - | r'
    · rfl
    · obtain ⟨hslot, hholds⟩ := h'.record r' rfl
      obtain ⟨r, hr, -⟩ := h.older _ hslot r' hholds
      cases hr
  · obtain ⟨hslot, hholds⟩ := h.record r rfl
    obtain ⟨r', rfl, hnext⟩ := h'.older _ hslot r hholds
    rcases hnext with rfl | hnext
    · rfl
    · obtain ⟨hslot', hholds'⟩ := h'.record r' rfl
      obtain ⟨r₁, hr₁, hnext'⟩ := h.older _ hslot' r' hholds'
      obtain rfl := Option.some.inj hr₁
      rcases hnext' with rfl | hnext'
      · rfl
      · omega

/-- **The boot selects the active record,** since it is the newer of the two, or
the only one. -/
theorem Discipline.boots {m : Machine Ram} (h : Discipline m) :
    (boot m.flash).activeRecord = m.ram.activeRecord := by
  rw [activeRecord_boot]
  exact h.slots.apart.boot.unique h.slots

/-- Where the boot selects nothing, the second slot holds nothing, or it
is ambiguous. -/
theorem ambiguous_of_none {b : Record} (h : (bootRecord f).1 = none) (hb : Holds f slotB b) :
    Ambiguous f := by
  unfold bootRecord at h
  unfold Holds at hb
  rcases ha : validateRecord f slotA commitMarker with e | a
  · simp [ha, hb] at h
  · simp only [ha, hb] at h
    split_ifs at h with hlt hgt hsame
    exact ⟨a, b, ha, hb, by omega, by simpa using hsame⟩

/-- The flash with its other slot erased. -/
def withoutOther (active : Option Record) (f : Mem) : Mem :=
  (Op.erase (otherSlot active) pageSize).apply f

/-- Leaving the other slot out changes only that slot. -/
theorem onlyIn_withoutOther (active : Option Record) (f : Mem) :
    OnlyIn (otherSlot active) f (withoutOther active f) := by
  have hkeeps : KeepsTo (otherSlot active) [.erase (otherSlot active) pageSize] := by
    intro o ho x hx
    obtain rfl := List.mem_singleton.mp ho
    exact hx
  exact hkeeps.onlyIn f

/-- **Once the other slot is erased,** the record that the boot selected is
the only one. -/
theorem backed_withoutOther (h : ¬ Ambiguous f) :
    Backed (withoutOther (bootRecord f).1 f) (bootRecord f).1 where
  record r hr := by
    have hslot := bootRecord_slot hr
    have hne : r.slotAddress ≠ otherSlot (bootRecord f).1 := by
      rw [hr]
      exact otherSlot_ne hslot
    exact ⟨hslot, ((onlyIn_withoutOther _ f).holds (otherSlot_cases _) hslot hne).mpr
      (holds_bootRecord hr)⟩
  older slot hslot r' hholds := by
    by_cases hother : slot = otherSlot (bootRecord f).1
    · subst hother
      refine absurd hholds (not_holds_of_unmarked ?_ r')
      exact Mem.half_eq_ffff.mpr ((Op.blank_apply_erase f _ pageSize).sub
        (by unfold offsetMarker; omega) (by unfold offsetMarker pageSize; omega))
    · have hold := ((onlyIn_withoutOther _ f).holds (otherSlot_cases _) hslot hother).mp hholds
      rcases hrec : (bootRecord f).1 with - | r
      · have hB : slot = slotB := by
          rw [hrec] at hother
          rcases hslot with rfl | rfl
          · exact absurd rfl hother
          · rfl
        exact absurd (ambiguous_of_none hrec (hB ▸ hold)) h
      · have hrslot := bootRecord_slot hrec
        have hne := otherSlot_ne hrslot
        rw [hrec] at hother
        have hsame : r.slotAddress = slot := by
          have hcases := otherSlot_cases (some r)
          unfold slotA slotB at *
          omega
        exact ⟨r, rfl, Or.inl (hold.unique (hsame ▸ holds_bootRecord hrec))⟩

end Boot

/-! ## Before the first start -/

/-- No slot was started since the boot. -/
structure Unstarted (f : Mem) (m : Machine Ram) : Prop where
  flash : m.flash = f
  log : m.log = []
  record : m.ram.activeRecord = (bootRecord f).1
  control : m.ram.faultControl = 0
  generation : m.ram.candidate.generation = 0
  candidate : (m.ram.candidate.compareActive = true ∧ ∃ r, m.ram.activeRecord = some r) ∨
    Unused m.ram.candidate

section Unstarted

variable {f : Mem} {m m' : Machine Ram} {crc : UInt32} {data : List UInt8} {result : Result}

theorem unstarted_booted (f : Mem) : Unstarted f (booted f) :=
  ⟨rfl, rfl, rfl, rfl, rfl, Or.inr ⟨rfl, rfl, Or.inl ⟨rfl, rfl⟩⟩⟩

theorem Unstarted.calm (h : Unstarted f m) (hm : Sound m) : Calm m := by
  refine ⟨hm, fun k harmed => ?_⟩
  rw [h.control] at harmed
  exact absurd harmed.1 (by decide)

/-- A start does not see what the other slot held: it erases it first. -/
theorem ran_withoutOther {rest : List Op}
    (h : Ran (.erase (otherSlot m.ram.activeRecord) pageSize :: rest) m m') :
    Ran (.erase (otherSlot m.ram.activeRecord) pageSize :: rest)
      { m with flash := withoutOther m.ram.activeRecord m.flash } m' := by
  refine ⟨?_, h.log, h.record, h.control, h.sound, h.honest⟩
  have htwice : (Op.erase (otherSlot m.ram.activeRecord) pageSize).apply
      (withoutOther m.ram.activeRecord m.flash) =
        (Op.erase (otherSlot m.ram.activeRecord) pageSize).apply m.flash := by
    funext x
    simp only [withoutOther, Op.apply]
    split_ifs
    · rfl
    · rfl
  rw [applyAll_cons, htwice, ← applyAll_cons]
  exact h.flash

/-- With the other slot erased, it keeps the discipline. -/
theorem Unstarted.discipline (h : Unstarted f m) (hf : ¬ Ambiguous f) :
    Discipline { m with flash := withoutOther m.ram.activeRecord m.flash } where
  slots := by
    have hbacked := backed_withoutOther hf
    rw [← h.record, ← h.flash] at hbacked
    exact hbacked
  staged := by
    rcases h.candidate with ⟨hcmp, r, hrec⟩ | ⟨hcmp, hslot, hacc⟩
    · exact .comparing hcmp hrec
    · exact .unused hcmp hslot hacc
  spared := by
    intro e he
    rw [h.log] at he
    exact absurd he List.not_mem_nil
  generation := Nat.le_trans (Nat.le_of_eq h.generation) (Nat.zero_le _)

/-- Dropping the candidate starts nothing. -/
theorem Unstarted.drop (h : Unstarted f m) : Unstarted f { m with ram :=
    { m.ram with candidate := { m.ram.candidate with active := false } } } := by
  refine ⟨h.flash, h.log, h.record, h.control, h.generation, ?_⟩
  exact h.candidate.imp id fun hun => ⟨hun.changed, hun.slotAddress, hun.accepted⟩

/-- A call that did nothing starts nothing. -/
theorem Unstarted.idled (h : Unstarted f m) (hidled : Idled m m') : Unstarted f m' := by
  obtain ⟨⟨hflash, hlog⟩, hram⟩ := hidled
  have hkept : ∀ {m₁ : Machine Ram}, Unstarted f m₁ → m₁.flash = m.flash → m₁.log = m.log →
      m'.ram = m₁.ram → Unstarted f m' := by
    intro m₁ h₁ hf hl hr
    refine ⟨(hflash.trans hf.symm).trans h₁.flash, (hlog.trans hl.symm).trans h₁.log, ?_, ?_, ?_, ?_⟩
    · rw [hr]
      exact h₁.record
    · rw [hr]
      exact h₁.control
    · rw [hr]
      exact h₁.generation
    · rw [hr]
      exact h₁.candidate
  rcases hram with hram | hram
  · exact hkept h rfl rfl hram
  · exact hkept h.drop rfl rfl hram

theorem unstarted_begin (h : Unstarted f m) (hf : ¬ Ambiguous f) (hm : Sound m)
    (hstep : BeginStep crc m (some result) m') : Unstarted f m' ∨ Discipline m' := by
  have hd := h.discipline hf
  cases hstep with
  | refused => exact Or.inl h
  | comparing _ hcrc =>
    obtain ⟨r, hrec, -⟩ := Option.map_eq_some_iff.mp hcrc
    exact Or.inl ⟨h.flash, h.log, h.record, h.control, h.generation, Or.inl ⟨rfl, r, hrec⟩⟩
  | starting _ _ hstart =>
    cases hstart with
    | wornOut =>
      refine Or.inl ⟨h.flash, h.log, h.record, h.control, h.generation, ?_⟩
      exact h.candidate.imp id fun hun => ⟨hun.changed, hun.slotAddress, hun.accepted⟩
    | started hnot hran hram =>
      have hstart' := StartStep.started
        (m := { m with
          flash := withoutOther m.ram.activeRecord m.flash, ram := declared m.ram crc })
        hnot (ran_withoutOther hran) hram
      have hstarted := discipline_start (m := { m with
          flash := withoutOther m.ram.activeRecord m.flash, ram := declared m.ram crc })
        hd.slots hd.spared (fun hworn => absurd hworn hnot) hd.generation hstart'
      exact Or.inr (hstarted.1 (by simp))
    | failed _ hcalm =>
      have hsame : Calm m := h.calm hm
      exact absurd ⟨hsame.sound, hsame.control⟩ hcalm

theorem unstarted_put (h : Unstarted f m) (hf : ¬ Ambiguous f) (hm : Sound m)
    (hcmp : m.ram.candidate.compareActive = true) (hstep : PutStep data m (some result) m') :
    Unstarted f m' ∨ Discipline m' := by
  have hd := h.discipline hf
  cases hstep with
  | refused => exact Or.inl h
  | compared _ _ hrec =>
    exact Or.inl ⟨h.flash, h.log, h.record, h.control, h.generation, Or.inl ⟨hcmp, _, hrec⟩⟩
  | wornOut => exact Or.inl ⟨h.flash, h.log, h.record, h.control, h.generation, h.candidate⟩
  | @started record _ _ hact _ hrec hfits hdiff hnot hran hram hsame htracks =>
    -- the active record reads the same without the other slot
    have hslot := bootRecord_slot (h.record.symm.trans hrec)
    have hbytes : ∀ a n, record.slotAddress ≤ a → a + n ≤ record.slotAddress + pageSize →
        (withoutOther m.ram.activeRecord m.flash).bytes a n = m.flash.bytes a n := by
      intro a n hlow hhigh
      refine Mem.bytes_congr fun i hi => onlyIn_withoutOther _ _ _ ?_
      have hne := otherSlot_ne hslot
      have hother := otherSlot_cases m.ram.activeRecord
      rw [← hrec] at hne
      unfold slotA slotB pageSize at *
      omega
    have hcopied := hbytes (record.slotAddress + offsetPayload) m.ram.candidate.acceptedBytes
      (by omega) (by unfold offsetPayload configBytes pageSize at *; omega)
    have hcompared := hbytes (record.slotAddress + offsetPayload +
      m.ram.candidate.acceptedBytes) data.length (by omega)
        (by unfold offsetPayload configBytes pageSize at *; omega)
    have hstep' : PutStep data
        { m with flash := withoutOther m.ram.activeRecord m.flash } (some .ok) m' :=
      .started hact hcmp hrec hfits (by rw [hcompared]; exact hdiff) hnot
        (by rw [hcopied]; exact ran_withoutOther hran) hram hsame (by rw [hcopied]; exact htracks)
    exact Or.inr ((discipline_put hd (fun hc => absurd (hcmp.symm.trans hc) (by simp))
      hstep').1 (by simp))
  | startFailed _ _ _ _ _ hcalm => exact absurd (h.calm hm) hcalm
  | stored _ hold => exact absurd (hcmp.symm.trans hold) (by simp)

/-- **A call before the first start** starts a slot, or does not, and
commits nothing. -/
theorem unstarted_call (h : Unstarted f m) (hf : ¬ Ambiguous f) (hm : Sound m) (c : Call) :
    wp c.run (fun r m' => (Unstarted f m' ∨ Discipline m') ∧ (c = .commit → r ≠ .ok))
      (fun _ => True) m := by
  cases c with
  | begin crc =>
    refine wp_mono (beginCandidate_wp crc m) (fun r m' hstep => ?_) fun _ _ => trivial
    exact ⟨unstarted_begin h hf hm hstep, fun h => by cases h⟩
  | write data =>
    rcases h.candidate with ⟨hcmp, r, hrec⟩ | hun
    · have hslot := bootRecord_slot (h.record.symm.trans hrec)
      refine wp_mono (writeCandidate_wp data m (fun _ => ⟨r, hrec, hslot⟩) fun hc => ?_)
        (fun r m' hstep => ⟨unstarted_put h hf hm hcmp hstep, fun h => by cases h⟩) fun _ _ => trivial
      exact absurd (hcmp.symm.trans hc) (by simp)
    · refine wp_mono (write_unused hun) (fun r m' hstep => ⟨?_, fun h => by cases h⟩) fun _ _ => trivial
      obtain ⟨c, hun', hgen, rfl⟩ := hstep
      exact Or.inl ⟨h.flash, h.log, h.record, h.control, hgen.trans h.generation, Or.inr hun'⟩
  | commit =>
    have hnot : ¬ Complete m.ram.candidate := by
      intro hcomplete
      rcases h.candidate with ⟨hcmp, -⟩ | hun
      · exact absurd (hcmp.symm.trans hcomplete.changed) (by simp)
      · have hall := hcomplete.accepted
        have hacc := hun.accepted
        unfold configBytes at hall
        omega
    refine wp_mono (wp_and (commit_incomplete hnot) (commitCandidate_wp m)) ?_ fun _ _ => trivial
    rintro r m' ⟨hidled, hstep⟩
    refine ⟨Or.inl (h.idled hidled), fun _ hok => ?_⟩
    rw [hok] at hstep
    cases hstep with
    | invalid hcomplete => exact hnot hcomplete
    | markedInvalid hcomplete => exact hnot hcomplete
    | committed hcomplete => exact hnot hcomplete
  | abort =>
    simp only [Call.run, abortCandidate, candidateReset, modifyCandidate, wp_bind, wp_modifyRam,
      wp_pure]
    exact ⟨Or.inl h.drop, fun h => by cases h⟩

end Unstarted

/-! ## After it -/

section Started

variable {m m' : Machine Ram} {result : Result}

/-- **A commit that answers OK** makes the candidate the active record, with the
generation and the CRC that it was begun with. -/
theorem committed_candidate (h : Discipline m) (hstep : CommitStep m (some .ok) m') :
    ∃ r, m'.ram.activeRecord = some r ∧ r.slotAddress = m.ram.candidate.slotAddress ∧
      r.generation = m.ram.candidate.generation ∧
      r.payloadCrc32 = m.ram.candidate.payloadCrc32 := by
  cases hstep with
  | invalid _ _ _ hvalid => exact absurd (Or.inl rfl) (validateRecord_error hvalid)
  | markedInvalid _ _ _ _ _ hvalid => exact absurd (Or.inl rfl) (validateRecord_error hvalid)
  | committed hcomplete hran hblank hran' _ hvalid =>
    rcases h.staged.of_complete hcomplete with ⟨r, hrec, hslot⟩ | ⟨-, -, -, hheader, -⟩
    · -- the candidate of an earlier commit is marked already
      have hholds := (h.slots.record r hrec).2
      rw [← hslot] at hholds
      have hmark := (intact_of_crc hran.toBroke).marker
      rw [marker_of_validate hblank, marker_of_validate hholds] at hmark
      exact absurd hmark (by decide)
    · rw [← header_of_commit (hran.trans hran').toBroke] at hheader
      refine ⟨_, rfl, slotAddress_of_validate hvalid, ?_, ?_⟩
      · rw [(validateRecord_ok hvalid).2.1, generation_of_header h.generation hheader]
      · rw [crc_of_validate hvalid, crc_of_header hheader]

theorem spares_of_idled (h : Idled m m') : Spares m m' := by
  obtain ⟨⟨hflash, -⟩, hram | hram⟩ := h
  · exact Spares.of_eq (by rw [hram]) hflash
  · exact Spares.of_eq (by rw [hram]) hflash

/-- A write spares the active record. -/
theorem spares_write (h : Discipline m) (data : List UInt8) :
    wp (writeCandidate data) (fun _ m' => Spares m m') (fun _ => True) m := by
  rcases h.put data with ⟨hused, hput⟩ | hquiet
  · refine wp_mono hput (fun r m' hstep => spares_put hstep ?_) fun _ _ => trivial
    intro hact hcmp hfits hwrite
    cases h.staged with
    | comparing hcmp' => exact absurd (hcmp.symm.trans hcmp') (by simp)
    | unused _ hslot => exact absurd hslot (hused hcmp)
    | dropped hidle => exact absurd (hact.symm.trans hidle) (by simp)
    | done _ _ _ hacc hpend =>
      have hnil : data = [] := List.eq_nil_of_length_eq_zero (by omega)
      rw [(stored_done hpend hnil hwrite).1]
      exact OnlyIn.refl _ _
    | fresh _ _ hslot _ _ _ hpend =>
      have hkeeps : KeepsTo (otherSlot m.ram.activeRecord)
          (programOps (payloadAddress m.ram.candidate
            (m.ram.candidate.acceptedBytes - (held m.ram.candidate).length))
            (held m.ram.candidate ++ data)) := by
        have hheld : (held m.ram.candidate).length ≤ m.ram.candidate.acceptedBytes := by
          unfold held
          split
          next hp => exact hpend hp
          · exact Nat.zero_le _
        refine keepsTo_programOps (by unfold payloadAddress; omega) ?_
        rw [List.length_append]
        unfold payloadAddress offsetPayload configBytes pageSize at *
        omega
      cases hwrite with
      | written hran => exact onlyIn_of_broke hkeeps hran.toBroke
      | failed hbroke => exact onlyIn_of_broke hkeeps hbroke
  · exact wp_mono hquiet (fun _ _ hq => Spares.of_eq hq.record hq.quiet.1) fun _ _ => trivial

/-- **Only a commit that answers OK** does not spare the active record: every
other call leaves the record in RAM, and its slot on the flash. -/
theorem spares_call (h : Discipline m) (c : Call) :
    wp c.run (fun r m' => (c = .commit → r ≠ .ok) → Spares m m') (fun _ => True) m := by
  cases c with
  | begin crc =>
    exact wp_mono (beginCandidate_wp crc m) (fun _ _ hstep _ => spares_beginStep hstep)
      fun _ _ => trivial
  | write data => exact wp_mono (spares_write h data) (fun _ _ hs _ => hs) fun _ _ => trivial
  | commit =>
    by_cases hcomplete : Complete m.ram.candidate
    · rcases h.staged.of_complete hcomplete with ⟨r, hrec, hslot⟩ | ⟨-, hslot, -⟩
      · exact wp_mono (commit_done h hrec hslot) (fun _ _ hi _ => spares_of_idled hi)
          fun _ _ => trivial
      · exact wp_mono (commitCandidate_wp m)
          (fun _ _ hstep hne => spares_commitStep (fun _ => hslot) (hne rfl) hstep)
          fun _ _ => trivial
    · exact wp_mono (commit_incomplete hcomplete) (fun _ _ hi _ => spares_of_idled hi)
        fun _ _ => trivial
  | abort =>
    simp only [Call.run, abortCandidate, candidateReset, modifyCandidate, wp_bind, wp_modifyRam,
      wp_pure]
    exact fun _ => Spares.of_eq rfl rfl

end Started

/-! ## The runs -/

section Runs

variable {f : Mem} {m m' m₁ m₂ : Machine Ram} {cs before after : List (Call × Result)}

theorem good_sound (m : Machine Ram) : Sound { m with tape := fun _ => some Outcome.good } :=
  fun _ => rfl

theorem good_honest (m : Machine Ram) : Honest { m with tape := fun _ => some Outcome.good } := by
  intro i x hx
  obtain rfl := Option.some.inj hx
  rfl

/-- A run from the boot has started a slot, or not. -/
theorem calls_invariant (hf : ¬ Ambiguous f) (hrun : Calls cs m m')
    (h : Unstarted f m ∨ Discipline m) : Unstarted f m' ∨ Discipline m' := by
  induction hrun with
  | nil => exact h
  | @cons c r cs m m₁ m₂ hcall _ ih =>
    refine ih ?_
    rcases h with h | h
    · have h' : Unstarted f { m with tape := fun _ => some Outcome.good } :=
        ⟨h.flash, h.log, h.record, h.control, h.generation, h.candidate⟩
      exact (wp_ok (unstarted_call h' hf (good_sound m) c) hcall).1
    · have h' : Discipline { m with tape := fun _ => some Outcome.good } :=
        ⟨h.slots, h.staged, h.spared, h.generation⟩
      exact Or.inr (wp_ok (call_discipline h' (good_honest m) c) hcall)

/-- **Without a commit that answers OK,** the active record stays, in RAM
and on flash. -/
theorem calls_spare (hrun : Calls cs m m') (h : Discipline m)
    (hnone : (Call.commit, Result.ok) ∉ cs) : Discipline m' ∧ Spares m m' := by
  induction hrun with
  | nil => exact ⟨h, Spares.refl _⟩
  | @cons c r cs m m₁ m₂ hcall _ ih =>
    have h' : Discipline { m with tape := fun _ => some Outcome.good } :=
      ⟨h.slots, h.staged, h.spared, h.generation⟩
    have hspares := wp_ok (spares_call h' c) hcall fun hc hr =>
      hnone (by rw [hc, hr]; exact List.mem_cons_self)
    have hkept : Spares m m₁ := ⟨hspares.record, hspares.flash⟩
    obtain ⟨hd, hrest⟩ := ih (wp_ok (call_discipline h' (good_honest m) c) hcall)
      fun hmem => hnone (List.mem_cons_of_mem _ hmem)
    exact ⟨hd, hkept.trans hrest⟩

/-- **What is committed is durable,** unless the flash began with two
records of one generation that differ. -/
theorem durable_of_not_ambiguous (hf : ¬ Ambiguous f) : Durable f := by
  intro before after m m₁ m₂ hbefore hcommit hafter hnone _
  have hinv := calls_invariant hf hbefore (Or.inl (unstarted_booted f))
  cases hcommit with
  | cons hcall hnil =>
    cases hnil with
    | nil =>
      rcases hinv with h | h
      · -- before the first start nothing is committed
        have h' : Unstarted f { m with tape := fun _ => some Outcome.good } :=
          ⟨h.flash, h.log, h.record, h.control, h.generation, h.candidate⟩
        exact absurd rfl ((wp_ok (unstarted_call h' hf (good_sound m) .commit) hcall).2 rfl)
      · have h' : Discipline { m with tape := fun _ => some Outcome.good } :=
          ⟨h.slots, h.staged, h.spared, h.generation⟩
        have hwp := commitCandidate_wp { m with tape := fun _ => some Outcome.good }
        have hstep := wp_ok hwp hcall
        obtain ⟨r, hrec, hslot, hgen, hcrc⟩ := committed_candidate h' hstep
        have hd₁ := wp_ok (call_discipline h' (good_honest m) .commit) hcall
        obtain ⟨hd₂, hspares⟩ := calls_spare hafter hd₁ hnone
        refine ⟨r, hrec, hslot, hgen, hcrc, ?_, ?_⟩
        · rw [hd₂.boots, hspares.record, hrec]
        · exact hspares.payload hrec (hd₁.slots.record r hrec).1

end Runs

/-! ## Two records of one generation -/

section Ambiguity

variable {f g : Mem} {slot : ℕ} {m : Machine Ram} {crc : UInt32} {p : List UInt8}

/-- Two flashes that agree on the slot. -/
def Agree (slot : ℕ) (f g : Mem) : Prop := ∀ x, slot ≤ x → x < slot + pageSize → f x = g x

/-- Operations keep what two flashes agree on. -/
theorem Agree.applyAll (h : Agree slot f g) (plan : List Op) :
    Agree slot (applyAll plan f) (applyAll plan g) :=
  fun x hlow hhigh => byte_applyAll_congr plan (h x hlow hhigh)

/-- An erase makes them agree. -/
theorem agree_erase (slot : ℕ) (f g : Mem) :
    Agree slot ((Op.erase slot pageSize).apply f) ((Op.erase slot pageSize).apply g) := by
  intro x hlow hhigh
  simp only [Op.apply]
  rw [if_pos ⟨hlow, hhigh⟩, if_pos ⟨hlow, hhigh⟩]

/-- A slot is validated by the bytes of its record. -/
theorem Agree.validateRecord (h : Agree slot f g) (marker : ℕ) :
    validateRecord f slot marker = validateRecord g slot marker :=
  validateRecord_congr fun i hi => h _ (by omega) (by unfold pageSize; omega)

/-- What a commit answers is a matter of the slot. -/
theorem commitOutcome_agree (h : Agree slot f g) (r r' : Ram) :
    (commitOutcome slot f r).1 = (commitOutcome slot g r').1 := by
  have hbytes : f.bytes slot 24 = g.bytes slot 24 :=
    Mem.bytes_congr fun i hi => h _ (by omega) (by unfold pageSize; omega)
  have hplan : crcPlan slot f = crcPlan slot g := by rw [crcPlan, crcPlan, hbytes]
  unfold commitOutcome
  rw [hplan, (h.applyAll (crcPlan slot g)).validateRecord]
  split
  · rfl
  · dsimp only
    rw [(h.applyAll (crcPlan slot g ++ markerPlan slot)).validateRecord]
    split
    · rfl
    · rfl

/-- A commit stores in the slot of its candidate. -/
theorem keepsTo_commitOutcome (slot : ℕ) (f : Mem) (r : Ram) :
    KeepsTo slot (commitOutcome slot f r).2.1 := by
  intro o ho x hx
  obtain ⟨a, v, rfl, hlow, hhigh⟩ := commitOutcome_plan slot f r o ho
  simp only [Op.Covers] at hx
  unfold offsetPayload at hhigh
  unfold pageSize
  omega

theorem eq_of_sound (h : Sound m) : { m with tape := fun _ => some Outcome.good } = m := by
  have htape : (fun _ => some Outcome.good) = m.tape := funext fun i => (h i).symm
  rw [htape]

/-- A payload, with its CRC, whose record a commit takes. -/
structure Committable (crc : UInt32) (p : List UInt8) : Prop where
  length : p.length = configBytes
  committed : (commitOutcome slotA (applyAll (storePlan none crc p) fun _ => 0xFF) {}).1 = .ok

/-- **Where the boot selects nothing,** the first commit stores the first
generation in the first slot, and leaves the second alone. -/
theorem first_commit (hnone : (bootRecord f).1 = none) (hp : Committable crc p) :
    ∃ m m₁, Calls [(.begin crc, .ok), (.write p, .ok)] (booted f) m ∧
      Calls [(.commit, .ok)] m m₁ ∧ m.ram.candidate.slotAddress = slotA ∧
      m.ram.candidate.generation = 1 ∧ payload m₁.flash slotA = p ∧
      OnlyIn slotA f m₁.flash := by
  have hsound : Sound (booted f) := fun _ => rfl
  have hcalm : Calm (booted f) := (unstarted_booted f).calm hsound
  have hactive : (booted f).ram.activeRecord = none := hnone
  have hrecord : ∀ record, (booted f).ram.activeRecord = some record →
      record.slotAddress = slotA ∨ record.slotAddress = slotB := by
    intro record hrec
    exact bootRecord_slot hrec
  have hnotUnchanged : ∀ bytes, ¬ Unchanged (booted f) crc bytes := by
    rintro bytes ⟨record, hrec, -⟩
    cases hactive.symm.trans hrec
  have hnotWorn : ¬ WornOut (booted f).ram.activeRecord := by
    rintro ⟨record, hrec, -⟩
    cases hactive.symm.trans hrec
  -- the candidate is started, and takes the payload
  obtain ⟨m₀, hbegun⟩ : ∃ m₀, beginCandidate crc (booted f) = .ok .ok m₀ :=
    begin_total hcalm rfl fun hw => absurd hw hnotWorn
  have hbegin := wp_ok (beginCandidate_wp crc (booted f)) hbegun
  have hstarted : Stored crc (booted f) [] m₀ :=
    (progress_begin hbegin).resolve_left fun hc => hnotUnchanged _ hc.unchanged
  obtain ⟨m, hwrite⟩ : ∃ m, writeCandidate p m₀ = .ok .ok m :=
    write_total hcalm hrecord (Or.inr hstarted) (Nat.le_of_eq hp.length) fun hw =>
      absurd hw hnotWorn
  have hput := wp_ok (write_wp hrecord (Or.inr hstarted) p) hwrite
  have hstored : Stored crc (booted f) p m := hstarted.write hput
  -- and is committed
  obtain ⟨m₁, hcommit, hflash, -, -⟩ := hstored.commit hcalm hp.length rfl
  obtain ⟨r, m₁', hcommit', hfinished⟩ := hstored.finished hcalm hp.length
  obtain ⟨rfl, rfl⟩ := EStateM.Result.ok.inj (hcommit.symm.trans hcommit')
  have hslot : m.ram.candidate.slotAddress = slotA := by
    rw [hstored.kept.slotAddress]
    simp only [startedCandidate, hactive]
    rfl
  have hok : (commitOutcome (otherSlot (booted f).ram.activeRecord)
      (applyAll (storePlan (booted f).ram.activeRecord crc p) (booted f).flash)
      (completeRam (booted f) crc)).1 = .ok := by
    rw [hactive, ← hp.committed]
    exact commitOutcome_agree ((agree_erase slotA _ _).applyAll _) _ _
  have hwritten : (Call.write p).run { m₀ with tape := fun _ => some Outcome.good } =
      .ok .ok m := by
    rw [eq_of_sound (hstarted.ran.sound hsound)]
    exact hwrite
  have hcommitted : Call.commit.run { m with tape := fun _ => some Outcome.good } =
      .ok .ok m₁ := by
    rw [eq_of_sound (hstored.ran.sound hsound), ← hok]
    exact hcommit
  refine ⟨m, m₁, .cons hbegun (.cons hwritten (.nil m)), .cons hcommitted (.nil m₁), hslot,
    ?_, ?_, ?_⟩
  · rw [hstored.kept.generation]
    simp only [startedCandidate, hactive]
    rfl
  · have hbytes := (hfinished.started hstored.compareActive).2.1
    rwa [hslot] at hbytes
  · have hstore : KeepsTo (otherSlot (booted f).ram.activeRecord)
        (storePlan (booted f).ram.activeRecord crc p) :=
      (starts_storePlan _ crc (Nat.le_of_eq hp.length)).keeps
    have hfirst : otherSlot (booted f).ram.activeRecord = slotA := by rw [hactive]; rfl
    rw [hfirst] at hstore hflash
    have hrest := (keepsTo_commitOutcome slotA (applyAll (storePlan
      (booted f).ram.activeRecord crc p) (booted f).flash) (completeRam (booted f) crc)).onlyIn
        m.flash
    rw [hflash]
    refine OnlyIn.trans ?_ hrest
    rw [hstored.ran.flash]
    exact hstore.onlyIn f

/-- The bytes as a flash of their own. -/
def ofBytes (p : List UInt8) : Mem := fun i => p.getD i 0

theorem word_congr {a b : ℕ} (h : ∀ i < 4, f (a + i) = g (b + i)) : word f a = word g b := by
  have h0 := h 0 (by decide)
  have h1 := h 1 (by decide)
  have h2 := h 2 (by decide)
  have h3 := h 3 (by decide)
  simp only [Nat.add_zero] at h0
  simp only [word, Mem.half, Nat.add_assoc, Nat.reduceAdd, h0, h1, h2, h3]

/-- There is a payload to commit that is not the one in the second slot. -/
theorem exists_committable (f : Mem) :
    ∃ crc p, Committable crc p ∧ word f (slotB + offsetPayload) ≠ word (ofBytes p) 0 := by
  by_cases h : word f (slotB + offsetPayload) = word (ofBytes [1, 2, 10, 120, 22, 0, 0, 0]) 0
  · refine ⟨0x9DF4A1C8, [1, 1, 10, 126, 22, 0, 0, 0], ⟨rfl, by decide +kernel⟩, ?_⟩
    rw [h]
    decide
  · exact ⟨0x235C4EF5, [1, 2, 10, 120, 22, 0, 0, 0], ⟨rfl, by decide +kernel⟩, h⟩

/-- **From two records of one generation that differ,** the first commit
does not survive a boot. -/
theorem not_durable_of_ambiguous (h : Ambiguous f) : ¬ Durable f := by
  obtain ⟨a, b, ha, hb, hgen, hdiff⟩ := h
  have hnone : (bootRecord f).1 = none := by
    unfold Holds at ha hb
    simp [bootRecord, ha, hb, hgen, hdiff]
  obtain ⟨crc, p, hp, hword⟩ := exists_committable f
  obtain ⟨m, m₁, hbefore, hcommit, hslot, hone, hpayload, honly⟩ := first_commit hnone hp
  intro hdurable
  obtain ⟨r, -, hrslot, hrgen, -, hboot, -⟩ := hdurable _ [] m m₁ m₁ hbefore hcommit (.nil m₁)
    List.not_mem_nil fun e he => by
      rw [List.drop_length] at he
      exact absurd he List.not_mem_nil
  rw [activeRecord_boot] at hboot
  rw [hslot] at hrslot
  rw [hone] at hrgen
  have hr : validateRecord m₁.flash slotA commitMarker = .ok r := hrslot ▸ holds_bootRecord hboot
  have hb' : validateRecord m₁.flash slotB commitMarker = .ok b :=
    (honly.holds (Or.inl rfl) (Or.inr rfl) (by decide)).mpr hb
  have hpos := (validated_of_ok hb').positive
  have hbslot := slotAddress_of_validate hb'
  have hne : r ≠ b := by
    intro heq
    rw [heq, hbslot] at hrslot
    exact absurd hrslot (by decide)
  -- the record in the second slot is not an older one, nor the same
  simp only [bootRecord, hr, hb'] at hboot
  split_ifs at hboot with hlt hgt hsame
  · omega
  · exact hne (Option.some.inj hboot).symm
  · have hwords : word m₁.flash (slotA + offsetPayload) = word m₁.flash (slotB + offsetPayload) := by
      have hidentical : recordsIdentical m₁.flash r b = true := by simpa using hsame
      unfold recordsIdentical at hidentical
      simp only [Bool.and_eq_true, decide_eq_true_eq] at hidentical
      rw [← hrslot, ← hbslot]
      exact hidentical.1.2
    have hsecond : word m₁.flash (slotB + offsetPayload) = word f (slotB + offsetPayload) :=
      word_congr fun i _ => honly _ (by unfold slotA slotB pageSize; omega)
    have hfirst : word m₁.flash (slotA + offsetPayload) = word (ofBytes p) 0 := by
      refine word_congr fun i hi => ?_
      have hlt : i < configBytes := Nat.lt_of_lt_of_le hi (by decide)
      rw [ofBytes, Nat.zero_add, ← hpayload]
      exact (Mem.getD_bytes hlt).symm
    exact hword (hsecond.symm.trans (hwords.symm.trans hfirst))

/-- **What is committed is durable** exactly where the flash did not begin
with two records of one generation that differ. -/
theorem durable_iff (f : Mem) : Durable f ↔ ¬ Ambiguous f :=
  ⟨fun hdurable hambiguous => not_durable_of_ambiguous hambiguous hdurable,
    durable_of_not_ambiguous⟩

end Ambiguity

/-- A record of the fifth generation, as it is stored. -/
def fifthRecord (payloadCrc32 headerCrc payload : List UInt8) : List UInt8 :=
  [0x44, 0x45, 0x55, 0x53, 1, 1, 1, 0, 0x40, 0, 8, 0, 5, 0, 0, 0] ++ payloadCrc32 ++
    List.replicate 4 0 ++ List.replicate 32 0xFF ++ headerCrc ++ [0xFF, 0xFF, 0x5A, 0xA5] ++ payload

/-- A flash with two records of one generation. -/
def twins : Mem := fun a =>
  if slotB ≤ a then
    (fifthRecord [0xC8, 0xA1, 0xF4, 0x9D] [0xD0, 0x11, 0x8C, 0xA9]
      [1, 1, 10, 126, 22, 0, 0, 0]).getD (a - slotB) 0xFF
  else if slotA ≤ a then
    (fifthRecord [0xF5, 0x4E, 0x5C, 0x23] [0x74, 0xA4, 0x14, 0x18]
      [1, 2, 10, 120, 22, 0, 0, 0]).getD (a - slotA) 0xFF
  else 0xFF

/-- Two records of the fifth generation: the first commit is the first
generation, in the first slot, and the next boot selects the record in the
second. -/
theorem not_durable_twins : ¬ Durable twins := by
  refine not_durable_of_ambiguous ⟨⟨slotA, 5, 0x235C4EF5⟩, ⟨slotB, 5, 0x9DF4A1C8⟩, ?_, ?_, rfl, ?_⟩
  · unfold Holds
    decide +kernel
  · unfold Holds
    decide +kernel
  · decide +kernel

end DeusOs.Asset
