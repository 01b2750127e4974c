import DeusOs.Asset.Model.Persistence

/-!
# What the candidate operations do

For each operation of `asset_persistence.c`, every way it can end: what it
answers, what it did to the flash, and what it left in RAM. `Ran` is a
stretch of flash operations done whole, `Broke` one that stopped inside; a
reset ends an operation with no answer, and there only the flash counts.
-/

namespace DeusOs.Asset

open Nor

/-! ## Stretches of flash operations -/

/-- The operations `es` were issued while `active` was the active record. -/
def IssuedUnder (active : Option Record) (es : List (Entry Ram)) : Prop :=
  ∀ e ∈ es, e.ram.activeRecord = active

/-- The plan was done whole, and the active record is the same. -/
structure Ran (plan : List Op) (m m' : Machine Ram) : Prop where
  flash : m'.flash = applyAll plan m.flash
  log : ∃ es, m'.log = m.log ++ es ∧ es.map Entry.op = plan ∧
    IssuedUnder m.ram.activeRecord es
  record : m'.ram.activeRecord = m.ram.activeRecord
  control : m'.ram.faultControl = m.ram.faultControl
  sound : Sound m → Sound m'
  honest : Honest m → Honest m'

/-- The plan was begun and stopped inside, or after its end. -/
structure Broke (plan : List Op) (m m' : Machine Ram) : Prop where
  flash : ∃ j, m'.flash = applyAll (plan.take j) m.flash
  log : ∃ es, m'.log = m.log ++ es ∧ es.map Entry.op <+: plan ∧
    IssuedUnder m.ram.activeRecord es

/-- Every flash operation to come succeeds, and no fault checkpoint is
armed. -/
structure Calm (m : Machine Ram) : Prop where
  sound : Sound m
  control : ∀ k, ¬ Armed m.ram.faultControl k

section Stretches

variable {m m' m'' : Machine Ram} {plan plan' : List Op}

theorem Ran.refl (m : Machine Ram) : Ran [] m m :=
  ⟨rfl, ⟨[], by simp, rfl, by simp [IssuedUnder]⟩, rfl, rfl, id, id⟩

theorem Broke.refl (plan : List Op) (m : Machine Ram) : Broke plan m m :=
  ⟨⟨0, rfl⟩, [], by simp, List.nil_prefix, by simp [IssuedUnder]⟩

/-- Nothing done yet, whatever is in RAM. -/
theorem Broke.none (plan : List Op) (m : Machine Ram) (r : Ram) : Broke plan m { m with ram := r } :=
  ⟨⟨0, rfl⟩, [], by simp, List.nil_prefix, by simp [IssuedUnder]⟩

/-- A plan that was done has run. -/
theorem Ran.of_does (h : Does plan m m') : Ran plan m m' := by
  obtain ⟨es, hes, hops⟩ := h.issued
  refine ⟨h.flash, ⟨es, hes.log, hops, fun e he => ?_⟩, ?_, ?_, h.sound, h.honest⟩
  · rw [hes.snapshot e he]
  · rw [h.ram]
  · rw [h.ram]

/-- A plan that stopped broke there. -/
theorem Broke.of_stops (h : Stops plan m m') : Broke plan m m' := by
  obtain ⟨es, hes, hops⟩ := h.issued
  refine ⟨h.flash, es, hes.log, hops, fun e he => ?_⟩
  rw [hes.snapshot e he]

/-- A plan that has run broke at its end. -/
theorem Ran.toBroke (h : Ran plan m m') : Broke plan m m' := by
  obtain ⟨es, hlog, hops, hunder⟩ := h.log
  exact ⟨⟨plan.length, by rw [List.take_length, h.flash]⟩, es, hlog, hops ▸ List.prefix_rfl, hunder⟩

theorem Ran.trans (h : Ran plan m m') (h' : Ran plan' m' m'') : Ran (plan ++ plan') m m'' := by
  obtain ⟨es, hlog, hops, hunder⟩ := h.log
  obtain ⟨es', hlog', hops', hunder'⟩ := h'.log
  refine ⟨?_, ⟨es ++ es', ?_, ?_, ?_⟩, h'.record.trans h.record, h'.control.trans h.control,
    fun hs => h'.sound (h.sound hs), fun hs => h'.honest (h.honest hs)⟩
  · rw [h'.flash, h.flash, applyAll_append]
  · rw [hlog', hlog, List.append_assoc]
  · rw [List.map_append, hops, hops']
  · intro e he
    rcases List.mem_append.mp he with he | he
    · exact hunder e he
    · exact (hunder' e he).trans h.record

/-- A plan that broke behind one that ran broke them both. -/
theorem Ran.broke (h : Ran plan m m') (h' : Broke plan' m' m'') : Broke (plan ++ plan') m m'' := by
  obtain ⟨es, hlog, hops, hunder⟩ := h.log
  obtain ⟨es', hlog', hops', hunder'⟩ := h'.log
  obtain ⟨j, hj⟩ := h'.flash
  refine ⟨⟨plan.length + j, ?_⟩, es ++ es', ?_, ?_, ?_⟩
  · rw [hj, h.flash, List.take_length_add_append, applyAll_append]
  · rw [hlog', hlog, List.append_assoc]
  · rw [List.map_append, hops]
    exact (List.prefix_append_right_inj plan).2 hops'
  · intro e he
    rcases List.mem_append.mp he with he | he
    · exact hunder e he
    · exact (hunder' e he).trans h.record

/-- A plan that broke broke whatever was to follow. -/
theorem Broke.append (h : Broke plan m m') (plan' : List Op) : Broke (plan ++ plan') m m' := by
  obtain ⟨es, hlog, hops, hunder⟩ := h.log
  obtain ⟨j, hj⟩ := h.flash
  refine ⟨⟨min j plan.length, ?_⟩, es, hlog, hops.trans (List.prefix_append _ _), hunder⟩
  rw [List.take_append_of_le_length (Nat.min_le_right _ _), ← List.take_eq_take_min, hj]

/-- RAM written before the stretch, the active record apart. -/
theorem Ran.of_ram {r : Ram} (hrec : r.activeRecord = m.ram.activeRecord)
    (hctl : r.faultControl = m.ram.faultControl) (h : Ran plan { m with ram := r } m') :
    Ran plan m m' := by
  obtain ⟨es, hlog, hops, hunder⟩ := h.log
  exact ⟨h.flash, ⟨es, hlog, hops, fun e he => (hunder e he).trans hrec⟩, h.record.trans hrec,
    h.control.trans hctl, h.sound, h.honest⟩

/-- A plan may begin with other RAM, the active record apart. -/
theorem Broke.of_ram {r : Ram} (hrec : r.activeRecord = m.ram.activeRecord)
    (h : Broke plan { m with ram := r } m') : Broke plan m m' := by
  obtain ⟨es, hlog, hops, hunder⟩ := h.log
  exact ⟨h.flash, es, hlog, hops, fun e he => (hunder e he).trans hrec⟩

/-- RAM written after the stretch. -/
theorem Ran.set_ram {r : Ram} (h : Ran plan m m') (hrec : r.activeRecord = m'.ram.activeRecord)
    (hctl : r.faultControl = m'.ram.faultControl) : Ran plan m { m' with ram := r } :=
  ⟨h.flash, h.log, hrec.trans h.record, hctl.trans h.control, h.sound, h.honest⟩

/-- What the RAM is set to behind a plan does not matter to it. -/
theorem Broke.set_ram {r : Ram} (h : Broke plan m m') : Broke plan m { m' with ram := r } :=
  ⟨h.flash, h.log⟩

theorem Ran.calm (h : Ran plan m m') (hm : Calm m) : Calm m' :=
  ⟨h.sound hm.sound, by rw [h.control]; exact hm.control⟩

end Stretches

/-! ## The driver and the checkpoints -/

section Driver

variable {m : Machine Ram} {Q : Bool → Machine Ram → Prop} {C : Machine Ram → Prop}

theorem not_calm_of_cut {m m' : Machine Ram} {plan : List Op} (h : Stops plan m m') (hc : Cut m') :
    ¬ Calm m := fun hm => h.not_cut hm.sound hc

/-- A checkpoint goes on, or resets. -/
theorem wp_faultCheckpoint {k : UInt8} {Q : Unit → Machine Ram → Prop}
    (hgo : ¬ Armed m.ram.faultControl k → Q () m)
    (hcut : Armed m.ram.faultControl k → C { m with ram := { m.ram with faultControl := 0 } }) :
    wp (faultCheckpoint k) Q C m := by
  simp only [faultCheckpoint, wp_bind, wp_ram, wp_ite, wp_modifyRam, wp_reset, wp_pure]
  split
  next h => exact hcut h
  next h => exact hgo h

/-- The rule of a page erase. -/
theorem wp_flashErasePage {page : ℕ} (hpage : page = slotA ∨ page = slotB)
    (hok : ∀ m', Does [.erase page pageSize] m m' → Q true m')
    (hfail : ∀ m', Stops [.erase page pageSize] m m' → ¬ Calm m → Q false m')
    (hcut : ∀ m', Stops [.erase page pageSize] m m' → ¬ Calm m → C m') :
    wp (flashErasePage page) Q C m := by
  unfold flashErasePage
  rw [if_neg (by omega)]
  refine (drives_eraseVerified page pageSize).wp (fun m' h _ => hok m' h) (fun m' h hf => ?_)
    fun m' h hc => hcut m' h (not_calm_of_cut h hc)
  exact hfail m' h fun hm => h.not_faulty hm.sound (hf trivial)

/-- The rule of a halfword. Where the address is not owned or does not read
erased, it fails with no operation. -/
theorem wp_flashProgramHalfword {a v : ℕ} (hv : v < 65536)
    (hok : ∀ m', Does (halfOps a v) m m' → m.flash.half a = 0xFFFF → Q true m')
    (hfail : ∀ m', Stops (halfOps a v) m m' →
      (Calm m → flashAddressOwned a = true → m.flash.half a ≠ 0xFFFF) →
      (Honest m → m'.flash = m.flash) → Q false m')
    (hcut : ∀ m', Stops (halfOps a v) m m' → ¬ Calm m → C m') :
    wp (flashProgramHalfword a v) Q C m := by
  unfold flashProgramHalfword
  by_cases hown : flashAddressOwned a = false
  · rw [if_pos hown, wp_pure]
    exact hfail m (Stops.refl _ m) (fun _ h => absurd h (by simp [hown])) fun _ => rfl
  rw [if_neg hown]
  have hdrive : wp (programVerified a v)
      (fun done m' => (done = true → Does (halfOps a v) m m' ∧ m.flash.half a = 0xFFFF) ∧
        (done = false → Stops (halfOps a v) m m' ∧ (m.flash.half a = 0xFFFF → Faulty m m')))
      (fun m' => Stops (halfOps a v) m m' ∧ Cut m') m := drives_programVerified a hv m
  refine wp_mono (wp_and hdrive (wp_programVerified_honest a hv m)) (fun done m' h => ?_)
    fun m' h => hcut m' h.1.1 (not_calm_of_cut h.1.1 h.1.2)
  obtain ⟨⟨hdone, hstopped⟩, hhonest⟩ := h
  cases done with
  | true => exact hok m' (hdone rfl).1 (hdone rfl).2
  | false =>
    obtain ⟨hstop, hfaulty⟩ := hstopped rfl
    exact hfail m' hstop (fun hm _ hr => hstop.not_faulty hm.sound (hfaulty hr)) fun hm =>
      hhonest hm rfl

end Driver

/-! ## Starting a candidate -/

/-- The flash operations that start a candidate. -/
def startPlan (slot generation : ℕ) (crc : UInt32) : List Op :=
  .erase slot pageSize :: programOps slot (metadataBytes generation crc)

/-- The candidate that is started after `active`. -/
def startedCandidate (active : Option Record) (c : Candidate) : Candidate :=
  { c with
    slotAddress := otherSlot active, generation := nextGeneration active, acceptedBytes := 0,
    pendingValid := false, compareActive := false }

/-- The plan of a start after `active`, of a candidate declared as `crc`. -/
abbrev planAfter (active : Option Record) (crc : UInt32) : List Op :=
  startPlan (otherSlot active) (nextGeneration active) crc

/-- The other slot is one of the two. -/
theorem otherSlot_cases (active : Option Record) :
    otherSlot active = slotA ∨ otherSlot active = slotB := by
  unfold otherSlot
  split
  · split
    · exact Or.inr rfl
    · exact Or.inl rfl
  · exact Or.inl rfl

/-- Every halfword of the header is one. -/
theorem length_metadataBytes (generation : ℕ) (crc : UInt32) :
    (metadataBytes generation crc).length = 24 := rfl

/-- An address of a slot is owned. -/
theorem owned_of_slot {slot offset : ℕ} (hslot : slot = slotA ∨ slot = slotB)
    (hoff : offset + 2 ≤ pageSize) (heven : offset % 2 = 0) :
    flashAddressOwned (slot + offset) = true := by
  unfold flashAddressOwned
  simp only [Bool.and_eq_true, decide_eq_true_eq]
  rcases hslot with rfl | rfl <;> simp only [slotA, slotB, slotsEnd, pageSize] at * <;> omega

/-- How `asset_start_changed` ends. -/
inductive StartStep (m : Machine Ram) : Option Result → Machine Ram → Prop
  /-- The active record may not be replaced: nothing else happens. -/
  | wornOut : WornOut m.ram.activeRecord → StartStep m (some .wearBudgetExhausted)
      { m with ram :=
        { m.ram with wearPolicyRejectionCount := m.ram.wearPolicyRejectionCount + 1 } }
  /-- The page is erased and the header written. -/
  | started {m' : Machine Ram} : ¬ WornOut m.ram.activeRecord →
      Ran (planAfter m.ram.activeRecord m.ram.candidate.payloadCrc32) m m' →
      m'.ram = { m.ram with
        candidate := startedCandidate m.ram.activeRecord m.ram.candidate } →
      StartStep m (some .ok) m'
  /-- A flash operation failed, and the candidate is dropped. -/
  | failed {m' : Machine Ram} : ¬ WornOut m.ram.activeRecord → ¬ Calm m →
      Broke (planAfter m.ram.activeRecord m.ram.candidate.payloadCrc32) m m' →
      m'.ram = { m.ram with
        candidate := { startedCandidate m.ram.activeRecord m.ram.candidate with
          active := false } } →
      StartStep m (some .storageError) m'
  /-- A reset struck. -/
  | cut {m' : Machine Ram} : ¬ WornOut m.ram.activeRecord → ¬ Calm m →
      Broke (planAfter m.ram.activeRecord m.ram.candidate.payloadCrc32) m m' →
      StartStep m none m'

/-- The header goes in whole, or stops inside. -/
theorem wp_programMetadata {m : Machine Ram} {Q : Bool → Machine Ram → Prop}
    {C : Machine Ram → Prop} {slot generation : ℕ} {crc : UInt32}
    (hslot : slot = slotA ∨ slot = slotB) (hblank : m.flash.Blank slot 24)
    (hcand : m.ram.candidate.slotAddress = slot ∧ m.ram.candidate.generation = generation ∧
      m.ram.candidate.payloadCrc32 = crc)
    (hok : ∀ m', Does (programOps slot (metadataBytes generation crc)) m m' → Q true m')
    (hfail : ∀ m', Stops (programOps slot (metadataBytes generation crc)) m m' → ¬ Calm m →
      Q false m')
    (hcut : ∀ m', Stops (programOps slot (metadataBytes generation crc)) m m' → ¬ Calm m →
      C m') : wp programMetadata Q C m := by
  obtain ⟨rfl, rfl, rfl⟩ := hcand
  simp only [programMetadata, wp_bind, wp_ram]
  have hdrive : Drives
      (programEach flashProgramHalfword m.ram.candidate.slotAddress
        (metadataBytes m.ram.candidate.generation m.ram.candidate.payloadCrc32))
      (programOps m.ram.candidate.slotAddress
        (metadataBytes m.ram.candidate.generation m.ram.candidate.payloadCrc32))
      (fun f => f.Blank m.ram.candidate.slotAddress 24) := by
    refine drives_programEach (fun x v hx hx' heven hv => ?_) (by rw [length_metadataBytes])
    rw [length_metadataBytes] at hx'
    have hown : flashAddressOwned x = true := by
      have := @owned_of_slot _ (x - m.ram.candidate.slotAddress) hslot
        (by unfold pageSize; omega) heven
      rwa [Nat.add_sub_cancel' hx] at this
    rw [flashProgramHalfword, if_neg (by simp [hown])]
    exact drives_programVerified x hv
  refine hdrive.wp (fun m' h _ => hok m' h) (fun m' h hf => ?_)
    fun m' h hc => hcut m' h (not_calm_of_cut h hc)
  exact hfail m' h fun hm => h.not_faulty hm.sound (hf hblank)

/-- **`asset_start_changed`:** the other slot is erased and its header
programmed, or the call fails on the way, or a reset cuts it short. -/
theorem startChanged_wp (m : Machine Ram) :
    wp startChanged (fun r m' => StartStep m (some r) m') (fun m' => StartStep m none m') m := by
  simp only [startChanged, wp_bind, wp_ram, wp_ite, wp_modifyRam, wp_pure, modifyCandidate, giveUp,
    candidateReset]
  split
  next hworn => exact .wornOut hworn
  next hworn =>
    -- the RAM in which the operations are issued, and the plan they follow
    obtain ⟨r, hr⟩ : ∃ r, r = { m.ram with
      candidate := startedCandidate m.ram.activeRecord m.ram.candidate } := ⟨_, rfl⟩
    have hrec : r.activeRecord = m.ram.activeRecord := by rw [hr]
    have hctl : r.faultControl = m.ram.faultControl := by rw [hr]
    have hplan : planAfter m.ram.activeRecord m.ram.candidate.payloadCrc32 =
        [.erase (otherSlot m.ram.activeRecord) pageSize] ++
          programOps (otherSlot m.ram.activeRecord)
            (metadataBytes (nextGeneration m.ram.activeRecord) m.ram.candidate.payloadCrc32) := rfl
    have hslot := otherSlot_cases m.ram.activeRecord
    have hcalm : Calm m → Calm { m with ram := r } := fun h => ⟨h.sound, hctl ▸ h.control⟩
    refine wp_faultCheckpoint (fun _ => ?_) fun harmed => ?_
    rotate_left
    · refine .cut hworn (fun h => h.control _ harmed) ?_
      exact Broke.none _ m _
    change wp _ _ _ { m with ram := { m.ram with
      candidate := startedCandidate m.ram.activeRecord m.ram.candidate } }
    rw [← hr]
    simp only [wp_bind]
    refine wp_flashErasePage hslot (fun m₁ h₁ => ?_) (fun m₁ h₁ hnot => ?_) fun m₁ h₁ hnot => ?_
    rotate_left
    · simp only [Bool.false_eq_true, if_false, wp_bind, wp_modifyRam, wp_pure]
      refine .failed hworn (fun h => hnot (hcalm h)) ?_ ?_
      · rw [hplan]
        exact (Broke.of_ram hrec (Broke.of_stops h₁)).set_ram.append _
      · rw [h₁.ram, hr]
    · refine .cut hworn (fun h => hnot (hcalm h)) ?_
      rw [hplan]
      exact (Broke.of_ram hrec (Broke.of_stops h₁)).append _
    simp only [if_true, wp_bind]
    have hran₁ := Ran.of_ram hrec hctl (Ran.of_does h₁)
    have hcalm₁ : Calm m → Calm m₁ := fun h => hran₁.calm h
    refine wp_faultCheckpoint (fun _ => ?_) fun harmed => ?_
    rotate_left
    · refine .cut hworn (fun h => (hcalm₁ h).control _ harmed) ?_
      rw [hplan]
      exact hran₁.toBroke.set_ram.append _
    simp only [wp_bind]
    have hblank : m₁.flash.Blank (otherSlot m.ram.activeRecord) 24 := by
      rw [h₁.flash, applyAll_cons, applyAll_nil]
      exact (Op.blank_apply_erase _ _ _).sub (Nat.le_refl _) (by unfold pageSize; omega)
    have hcand : m₁.ram.candidate.slotAddress = otherSlot m.ram.activeRecord ∧
        m₁.ram.candidate.generation = nextGeneration m.ram.activeRecord ∧
        m₁.ram.candidate.payloadCrc32 = m.ram.candidate.payloadCrc32 := by
      rw [h₁.ram, hr]
      exact ⟨rfl, rfl, rfl⟩
    refine wp_programMetadata hslot hblank hcand (fun m₂ h₂ => ?_) (fun m₂ h₂ hnot => ?_)
      fun m₂ h₂ hnot => ?_
    rotate_left
    · simp only [Bool.false_eq_true, if_false, wp_bind, wp_modifyRam, wp_pure]
      refine .failed hworn (fun h => hnot (hcalm₁ h)) ?_ ?_
      · rw [hplan]
        exact (hran₁.broke (Broke.of_stops h₂)).set_ram
      · rw [h₂.ram, h₁.ram, hr]
    · refine .cut hworn (fun h => hnot (hcalm₁ h)) ?_
      rw [hplan]
      exact hran₁.broke (Broke.of_stops h₂)
    simp only [if_true, wp_bind]
    have hran₂ := hran₁.trans (Ran.of_does h₂)
    refine wp_faultCheckpoint (fun _ => ?_) fun harmed => ?_
    · refine .started hworn ?_ (by rw [h₂.ram, h₁.ram, hr])
      rw [hplan]
      exact hran₂
    · refine .cut hworn (fun h => (hran₂.calm h).control _ harmed) ?_
      rw [hplan]
      exact hran₂.toBroke.set_ram

/-! ## Writing the payload -/

/-- The address of the byte of the payload at `offset`. -/
def payloadAddress (c : Candidate) (offset : ℕ) : ℕ := c.slotAddress + offsetPayload + offset

/-- The rule of one halfword of the payload. -/
theorem wp_programPayloadHalfword {m : Machine Ram} {Q : Bool → Machine Ram → Prop}
    {C : Machine Ram → Prop} {offset v : ℕ} (hv : v < 65536)
    (hok : ∀ m', Ran (halfOps (payloadAddress m.ram.candidate offset) v) m m' →
      m'.ram = m.ram → m.flash.half (payloadAddress m.ram.candidate offset) = 0xFFFF → Q true m')
    (hfail : ∀ m', Broke (halfOps (payloadAddress m.ram.candidate offset) v) m m' →
      m'.ram = m.ram →
      (Calm m → flashAddressOwned (payloadAddress m.ram.candidate offset) = true →
        m.flash.half (payloadAddress m.ram.candidate offset) ≠ 0xFFFF) → Q false m')
    (hcut : ∀ m', Broke (halfOps (payloadAddress m.ram.candidate offset) v) m m' → ¬ Calm m →
      C m') : wp (programPayloadHalfword offset v) Q C m := by
  simp only [programPayloadHalfword, wp_bind, wp_ram]
  refine wp_flashProgramHalfword hv (fun m' h hr => ?_) (fun m' h hf _ => ?_) fun m' h hnot => ?_
  · have hran := Ran.of_does h
    simp only [if_true]
    by_cases hzero : offset = 0
    · rw [if_pos hzero]
      simp only [wp_bind]
      refine wp_faultCheckpoint (fun _ => hok m' hran h.ram hr) fun harmed => ?_
      exact hcut _ hran.toBroke.set_ram fun hm => (hran.calm hm).control _ harmed
    · rw [if_neg hzero]
      exact hok m' hran h.ram hr
  · exact hfail m' (Broke.of_stops h) h.ram hf
  · exact hcut m' (Broke.of_stops h) hnot

/-- The candidate after `data` more bytes, of which the odd last one
waits. -/
def advance (c : Candidate) (data : List UInt8) : Candidate :=
  if data.length % 2 = 1 then
    { c with
      acceptedBytes := c.acceptedBytes + data.length, pendingByte := data.getLastD 0,
      pendingValid := true }
  else { c with acceptedBytes := c.acceptedBytes + data.length }

/-- What a write that fails leaves of the candidate: everything but how far
it came. -/
structure SameCandidate (c c' : Candidate) : Prop where
  slotAddress : c'.slotAddress = c.slotAddress
  generation : c'.generation = c.generation
  payloadCrc32 : c'.payloadCrc32 = c.payloadCrc32
  compareActive : c'.compareActive = c.compareActive
  active : c'.active = c.active

/-- How a stretch of payload writing ends that stores `bytes` at `base`, and
leaves `c'` when it succeeds. -/
inductive WriteStep (base : ℕ) (bytes : List UInt8) (c' : Candidate) (m : Machine Ram) :
    Option Result → Machine Ram → Prop
  /-- All is stored, up to an odd last byte. -/
  | written {m' : Machine Ram} : Ran (programOps base bytes) m m' →
      m'.ram = { m.ram with candidate := c' } →
      WriteStep base bytes c' m (some .ok) m'
  /-- A halfword failed. -/
  | failed {m' : Machine Ram} {c'' : Candidate} : Broke (programOps base bytes) m m' →
      m'.ram = { m.ram with candidate := c'' } → SameCandidate m.ram.candidate c'' →
      (m.ram.candidate.acceptedBytes ≤ c''.acceptedBytes ∧ c''.acceptedBytes ≤ c'.acceptedBytes) →
      (Calm m → (∀ x, base ≤ x → x + 2 ≤ base + bytes.length → (x - base) % 2 = 0 →
        flashAddressOwned x = true) → ¬ m.flash.Blank base bytes.length) →
      (c''.pendingValid = true → m.ram.candidate.pendingValid = true) →
      WriteStep base bytes c' m (some .storageError) m'
  /-- A reset struck. -/
  | cut {m' : Machine Ram} : Broke (programOps base bytes) m m' → ¬ Calm m →
      WriteStep base bytes c' m none m'

theorem SameCandidate.refl (c : Candidate) : SameCandidate c c := ⟨rfl, rfl, rfl, rfl, rfl⟩

theorem SameCandidate.trans {c c' c'' : Candidate} (h : SameCandidate c c')
    (h' : SameCandidate c' c'') : SameCandidate c c'' :=
  ⟨h'.1.trans h.1, h'.2.trans h.2, h'.3.trans h.3, h'.4.trans h.4, h'.5.trans h.5⟩

/-- Storing bytes leaves the candidate what it is. -/
theorem sameCandidate_advance (c : Candidate) (data : List UInt8) :
    SameCandidate c (advance c data) := by
  unfold advance
  split
  · exact ⟨rfl, rfl, rfl, rfl, rfl⟩
  · exact ⟨rfl, rfl, rfl, rfl, rfl⟩

theorem advance_acceptedBytes (c : Candidate) (data : List UInt8) :
    (advance c data).acceptedBytes = c.acceptedBytes + data.length := by
  unfold advance
  split
  · rfl
  · rfl

/-- Two bytes, then the rest. -/
theorem advance_cons {c c₁ : Candidate} (hc₁ : c₁ = { c with acceptedBytes := c.acceptedBytes + 2 })
    (data : List UInt8) {lo hi : UInt8} : advance c₁ data = advance c (lo :: hi :: data) := by
  have hlen : (lo :: hi :: data).length = data.length + 2 := rfl
  have hmod : (data.length + 2) % 2 = data.length % 2 := by omega
  have hsum : c.acceptedBytes + 2 + data.length = c.acceptedBytes + (data.length + 2) := by omega
  unfold advance
  rw [hlen, hmod, hc₁]
  by_cases hodd : data.length % 2 = 1
  · have hlast : (lo :: hi :: data).getLastD 0 = data.getLastD 0 := by
      rcases data with - | ⟨b, data⟩
      · simp at hodd
      · simp
    rw [if_pos hodd, if_pos hodd, hlast]
    simp only [hsum]
  · rw [if_neg hodd, if_neg hodd]
    simp only [hsum]

/-- **One halfword, then the rest.** A write of bytes is a step for each pair,
and fails where the first of them does. -/
theorem WriteStep.cons {base : ℕ} {lo hi : UInt8} {bytes : List UInt8} {c₁ c' : Candidate}
    {m m₁ m' : Machine Ram} {r : Option Result}
    (hran : Ran (halfOps base (le16 lo hi)) m m₁) (hram : m₁.ram = m.ram)
    (hsame : SameCandidate m.ram.candidate c₁)
    (hle : m.ram.candidate.acceptedBytes ≤ c₁.acceptedBytes)
    (hpend : c₁.pendingValid = true → m.ram.candidate.pendingValid = true)
    (h : WriteStep (base + 2) bytes c' { m₁ with ram := { m₁.ram with candidate := c₁ } } r m') :
    WriteStep base (lo :: hi :: bytes) c' m r m' := by
  have hran' : Ran (halfOps base (le16 lo hi)) m
      { m₁ with ram := { m₁.ram with candidate := c₁ } } := hran.set_ram rfl rfl
  cases h with
  | written h hr =>
    refine .written ?_ ?_
    · rw [programOps]
      exact hran'.trans h
    · rw [hr, hram]
  | failed h hr hs hb hnot hp =>
    refine .failed ?_ ?_ (hsame.trans hs) ⟨Nat.le_trans hle hb.1, hb.2⟩ ?_ fun h => hpend (hp h)
    · rw [programOps]
      exact hran'.broke h
    · rw [hr, hram]
    · intro hcalm hown hblank
      refine hnot (hran'.calm hcalm) (fun x hx hx' heven => ?_) ?_
      · exact hown x (by omega) (by simp only [List.length_cons]; omega) (by omega)
      · change m₁.flash.Blank (base + 2) bytes.length
        rw [hran.flash]
        exact blank_applyAll_halfOps hblank
  | cut h hnot =>
    refine .cut ?_ fun hm => hnot (hran'.calm hm)
    rw [programOps]
    exact hran'.broke h

/-- A halfword that fails ends the stretch. -/
theorem WriteStep.stopped {base : ℕ} {lo hi : UInt8} {bytes : List UInt8} {c' : Candidate}
    {m m' : Machine Ram} (h : Broke (halfOps base (le16 lo hi)) m m') (hram : m'.ram = m.ram)
    (hle : m.ram.candidate.acceptedBytes ≤ c'.acceptedBytes)
    (hnot : Calm m → flashAddressOwned base = true → m.flash.half base ≠ 0xFFFF) :
    WriteStep base (lo :: hi :: bytes) c' m (some .storageError) m' := by
  refine .failed ?_ (by rw [hram]) (SameCandidate.refl m.ram.candidate)
    ⟨Nat.le_refl _, hle⟩ ?_ id
  · rw [programOps]
    exact h.append _
  · intro hcalm hown hblank
    refine hnot hcalm (hown base (Nat.le_refl _) ?_ (by omega)) ?_
    · simp only [List.length_cons]
      omega
    · exact Mem.half_eq_ffff.mpr (hblank.sub (Nat.le_refl _) (by simp only [List.length_cons]; omega))

/-- The pairs of `data`, from an even place. -/
theorem writePairs_wp (data : List UInt8) (m : Machine Ram) :
    wp (writePairs data)
      (fun r m' => WriteStep (payloadAddress m.ram.candidate m.ram.candidate.acceptedBytes) data
        (advance m.ram.candidate data) m (some r) m')
      (fun m' => WriteStep (payloadAddress m.ram.candidate m.ram.candidate.acceptedBytes) data
        (advance m.ram.candidate data) m none m') m := by
  induction data using writePairs.induct generalizing m with
  | case1 lo hi data ih =>
    have hle : m.ram.candidate.acceptedBytes ≤
        (advance m.ram.candidate (lo :: hi :: data)).acceptedBytes := by
      rw [advance_acceptedBytes]
      omega
    simp only [writePairs, wp_bind, wp_ram]
    refine wp_programPayloadHalfword (le16_lt lo hi) (fun m₁ h₁ hram _ => ?_)
      (fun m₁ h₁ hram hnot => ?_) fun m₁ h₁ hnot => ?_
    · simp only [if_true, wp_bind, wp_modifyRam, modifyCandidate]
      -- the rest is written from two bytes further on
      obtain ⟨c₁, hc₁⟩ : ∃ c₁ : Candidate, c₁ =
        { m.ram.candidate with acceptedBytes := m.ram.candidate.acceptedBytes + 2 } := ⟨_, rfl⟩
      have hrest := ih { m₁ with ram := { m₁.ram with candidate := c₁ } }
      have hbase : payloadAddress c₁ c₁.acceptedBytes =
          payloadAddress m.ram.candidate m.ram.candidate.acceptedBytes + 2 := by
        rw [hc₁]
        rfl
      have hadv := @advance_cons _ _ hc₁ data lo hi
      simp only [hbase, hadv] at hrest
      rw [hram, ← hc₁]
      rw [hram] at hrest
      have hsame : SameCandidate m.ram.candidate c₁ := hc₁ ▸ ⟨rfl, rfl, rfl, rfl, rfl⟩
      have hpend : c₁.pendingValid = true → m.ram.candidate.pendingValid = true := by
        rw [hc₁]
        exact id
      have hstep : m.ram.candidate.acceptedBytes ≤ c₁.acceptedBytes := by
        rw [hc₁]
        exact Nat.le_add_right _ _
      refine wp_mono hrest (fun r m' h => ?_) fun m' h => ?_
      · exact WriteStep.cons h₁ hram hsame hstep hpend (by rw [hram]; exact h)
      · exact WriteStep.cons h₁ hram hsame hstep hpend (by rw [hram]; exact h)
    · simp only [Bool.false_eq_true, if_false, wp_pure]
      exact WriteStep.stopped h₁ hram hle hnot
    · refine .cut ?_ hnot
      rw [programOps]
      exact h₁.append _
  | case2 b =>
    simp only [writePairs, wp_bind, wp_modifyRam, wp_pure, modifyCandidate]
    exact .written ((Ran.refl m).set_ram rfl rfl) rfl
  | case3 =>
    simp only [writePairs, wp_pure]
    exact .written (Ran.refl m) rfl

/-- The byte that waits for its other half. -/
def held (c : Candidate) : List UInt8 := if c.pendingValid = true then [c.pendingByte] else []

/-- The candidate after `data` more bytes, the held one in front. -/
def accept (c : Candidate) (data : List UInt8) : Candidate :=
  match c.pendingValid, data with
  | true, _ :: data =>
    advance { c with pendingValid := false, acceptedBytes := c.acceptedBytes + 1 } data
  | _, data => advance c data

/-- Accepting bytes leaves the candidate what it is. -/
theorem sameCandidate_accept (c : Candidate) (data : List UInt8) :
    SameCandidate c (accept c data) := by
  unfold accept
  split
  next data _ =>
    have h := sameCandidate_advance
      { c with pendingValid := false, acceptedBytes := c.acceptedBytes + 1 } data
    exact ⟨h.1, h.2, h.3, h.4, h.5⟩
  · exact sameCandidate_advance c _

/-- No byte changes nothing. -/
theorem accept_nil (c : Candidate) : accept c [] = c := by
  unfold accept
  split
  next h => exact nomatch h
  · rfl

/-- Accepting bytes counts them. -/
theorem accept_acceptedBytes (c : Candidate) (data : List UInt8) :
    (accept c data).acceptedBytes = c.acceptedBytes + data.length := by
  unfold accept
  split
  · rw [advance_acceptedBytes, List.length_cons]
    change c.acceptedBytes + 1 + _ = _
    omega
  · exact advance_acceptedBytes c _

/-- **`asset_write_payload_bytes`** stores the held byte and the new ones,
from where the held one belongs. -/
theorem writePayloadBytes_wp (data : List UInt8) (m : Machine Ram)
    (hheld : m.ram.candidate.pendingValid = true → 1 ≤ m.ram.candidate.acceptedBytes) :
    wp (writePayloadBytes data)
      (fun r m' => WriteStep
        (payloadAddress m.ram.candidate
          (m.ram.candidate.acceptedBytes - (held m.ram.candidate).length))
        (held m.ram.candidate ++ data) (accept m.ram.candidate data) m (some r) m')
      (fun m' => WriteStep
        (payloadAddress m.ram.candidate
          (m.ram.candidate.acceptedBytes - (held m.ram.candidate).length))
        (held m.ram.candidate ++ data) (accept m.ram.candidate data) m none m') m := by
  simp only [writePayloadBytes, wp_bind, wp_ram]
  rcases hp : m.ram.candidate.pendingValid with _ | _
  · -- nothing is held
    have hnone : held m.ram.candidate = [] := by simp [held, hp]
    have haccept : accept m.ram.candidate data = advance m.ram.candidate data := by
      simp [accept, hp]
    rw [hnone, haccept]
    exact writePairs_wp data m
  have hone : held m.ram.candidate = [m.ram.candidate.pendingByte] := by simp [held, hp]
  rw [hone]
  rcases data with - | ⟨b, data⟩
  · rw [accept_nil]
    simp only [writePairs, wp_pure]
    exact .written (Ran.refl m) rfl
  have haccept : accept m.ram.candidate (b :: data) =
      advance { m.ram.candidate with
        pendingValid := false, acceptedBytes := m.ram.candidate.acceptedBytes + 1 } data := by
    simp [accept, hp]
  have hle : m.ram.candidate.acceptedBytes ≤
      (accept m.ram.candidate (b :: data)).acceptedBytes := by
    rw [accept_acceptedBytes]
    omega
  simp only [List.length_singleton, List.singleton_append, wp_bind]
  refine wp_programPayloadHalfword (le16_lt _ _) (fun m₁ h₁ hram _ => ?_)
    (fun m₁ h₁ hram hnot => ?_) fun m₁ h₁ hnot => ?_
  · simp only [if_true, wp_bind, wp_modifyRam, modifyCandidate]
    obtain ⟨c₁, hc₁⟩ : ∃ c₁ : Candidate, c₁ =
      { m.ram.candidate with
        pendingValid := false, acceptedBytes := m.ram.candidate.acceptedBytes + 1 } := ⟨_, rfl⟩
    have hrest := writePairs_wp data { m₁ with ram := { m₁.ram with candidate := c₁ } }
    have hbase : payloadAddress c₁ c₁.acceptedBytes =
        payloadAddress m.ram.candidate (m.ram.candidate.acceptedBytes - 1) + 2 := by
      have := hheld hp
      rw [hc₁]
      simp only [payloadAddress]
      omega
    simp only [hbase] at hrest
    rw [haccept, hram, ← hc₁]
    rw [hram] at hrest
    have hsame : SameCandidate m.ram.candidate c₁ := hc₁ ▸ ⟨rfl, rfl, rfl, rfl, rfl⟩
    have hpend : c₁.pendingValid = true → m.ram.candidate.pendingValid = true := fun _ => hp
    have hstep : m.ram.candidate.acceptedBytes ≤ c₁.acceptedBytes := by
      rw [hc₁]
      exact Nat.le_add_right _ _
    refine wp_mono hrest (fun r m' h => ?_) fun m' h => ?_
    · exact WriteStep.cons h₁ hram hsame hstep hpend (by rw [hram]; exact h)
    · exact WriteStep.cons h₁ hram hsame hstep hpend (by rw [hram]; exact h)
  · simp only [Bool.false_eq_true, if_false, wp_pure]
    exact WriteStep.stopped h₁ hram hle hnot
  · refine .cut ?_ hnot
    rw [programOps]
    exact h₁.append _

/-! ## Copying what matched -/

/-- What is written in one slot does not show in the other. -/
theorem flash_other_slot {slot slot' base : ℕ} {bytes : List UInt8} {f : Mem}
    (hslot : slot = slotA ∨ slot = slotB) (hslot' : slot' = slotA ∨ slot' = slotB)
    (hne : slot ≠ slot') (hbase : slot' ≤ base) (hend : base + bytes.length ≤ slot' + pageSize)
    {x : ℕ} (hx : slot ≤ x) (hx' : x < slot + pageSize) :
    applyAll (programOps base bytes) f x = f x := by
  refine applyAll_programOps_of_outside ?_ f
  unfold slotA slotB pageSize at *
  omega

/-- The bytes that matched are stored again, from the active record's
slot. -/
theorem copyPrefix_wp {slot : ℕ} (hslot : slot = slotA ∨ slot = slotB) (left : ℕ)
    (offset : ℕ) (m : Machine Ram)
    (hcand : m.ram.candidate.slotAddress = slotA ∨ m.ram.candidate.slotAddress = slotB)
    (hne : slot ≠ m.ram.candidate.slotAddress) (hleft : offset + left ≤ configBytes)
    (haccepted : m.ram.candidate.acceptedBytes = offset) :
    wp (copyPrefix slot offset left)
      (fun r m' => WriteStep (payloadAddress m.ram.candidate offset)
        (m.flash.bytes (slot + offsetPayload + offset) left)
        (advance m.ram.candidate (m.flash.bytes (slot + offsetPayload + offset) left)) m (some r) m')
      (fun m' => WriteStep (payloadAddress m.ram.candidate offset)
        (m.flash.bytes (slot + offsetPayload + offset) left)
        (advance m.ram.candidate (m.flash.bytes (slot + offsetPayload + offset) left)) m none m')
      m := by
  induction offset, left using copyPrefix.induct generalizing m with
  | case1 offset left ih =>
    obtain ⟨src, hsrc⟩ : ∃ src, src = slot + offsetPayload + offset := ⟨_, rfl⟩
    rw [← hsrc]
    have hbytes : m.flash.bytes src (left + 2) =
        m.flash src :: m.flash (src + 1) :: m.flash.bytes (src + 2) left := by
      rw [Nat.add_comm left 2, Mem.bytes_add]
      rfl
    have hle : m.ram.candidate.acceptedBytes ≤
        (advance m.ram.candidate (m.flash src :: m.flash (src + 1) ::
          m.flash.bytes (src + 2) left)).acceptedBytes := by
      rw [advance_acceptedBytes]
      omega
    simp only [copyPrefix, wp_bind, wp_flash, ← hsrc, hbytes]
    refine wp_programPayloadHalfword (le16_lt _ _) (fun m₁ h₁ hram _ => ?_)
      (fun m₁ h₁ hram hnot => ?_) fun m₁ h₁ hnot => ?_
    · simp only [if_true, wp_bind, wp_modifyRam, modifyCandidate]
      obtain ⟨c₁, hc₁⟩ : ∃ c₁ : Candidate, c₁ =
        { m.ram.candidate with acceptedBytes := m.ram.candidate.acceptedBytes + 2 } := ⟨_, rfl⟩
      have hrest := ih { m₁ with ram := { m₁.ram with candidate := c₁ } } (by rw [hc₁]; exact hcand)
        (by rw [hc₁]; exact hne) (by omega) (by rw [hc₁]; simp only [haccepted])
      -- the bytes still to be copied are the ones that were there
      have hsame : m₁.flash.bytes (slot + offsetPayload + (offset + 2)) left =
          m.flash.bytes (src + 2) left := by
        have haddr : slot + offsetPayload + (offset + 2) = src + 2 := by omega
        rw [haddr]
        refine Mem.bytes_congr fun i hi => ?_
        have hprog : programOps (payloadAddress m.ram.candidate offset)
            [m.flash src, m.flash (src + 1)] =
            halfOps (payloadAddress m.ram.candidate offset) (m.flash.half src) := by
          simp [programOps, Mem.half]
        have hthere := @flash_other_slot _ _ (payloadAddress m.ram.candidate offset)
          [m.flash src, m.flash (src + 1)] m.flash hslot hcand hne
          (by unfold payloadAddress; omega)
          (by simp only [List.length_cons, List.length_nil]
              unfold payloadAddress offsetPayload pageSize
              unfold configBytes at hleft
              omega)
          (src + 2 + i) (by omega)
          (by unfold configBytes at hleft
              unfold offsetPayload at hsrc
              unfold pageSize
              omega)
        rw [h₁.flash, ← hprog]
        exact hthere
      have hbase : payloadAddress c₁ (offset + 2) = payloadAddress m.ram.candidate offset + 2 := by
        rw [hc₁]
        rfl
      have hadv : advance c₁ (m.flash.bytes (src + 2) left) =
          advance m.ram.candidate (m.flash src :: m.flash (src + 1) ::
            m.flash.bytes (src + 2) left) := by
        obtain ⟨data, hdata⟩ : ∃ data, data = m.flash.bytes (src + 2) left := ⟨_, rfl⟩
        rw [← hdata]
        exact advance_cons hc₁ data
      simp only [hsame, hbase, hadv] at hrest
      rw [hram, ← hc₁]
      rw [hram] at hrest
      have hsamec : SameCandidate m.ram.candidate c₁ := hc₁ ▸ ⟨rfl, rfl, rfl, rfl, rfl⟩
      have hpend : c₁.pendingValid = true → m.ram.candidate.pendingValid = true := by
        rw [hc₁]
        exact id
      have hstep : m.ram.candidate.acceptedBytes ≤ c₁.acceptedBytes := by
        rw [hc₁]
        exact Nat.le_add_right _ _
      refine wp_mono hrest (fun r m' h => ?_) fun m' h => ?_
      · exact WriteStep.cons h₁ hram hsamec hstep hpend (by rw [hram]; exact h)
      · exact WriteStep.cons h₁ hram hsamec hstep hpend (by rw [hram]; exact h)
    · simp only [Bool.false_eq_true, if_false, wp_pure]
      exact WriteStep.stopped h₁ hram hle hnot
    · refine .cut ?_ hnot
      rw [programOps]
      exact h₁.append _
  | case2 offset =>
    simp only [copyPrefix, wp_bind, wp_flash, wp_modifyRam, wp_pure, modifyCandidate]
    exact .written ((Ran.refl m).set_ram rfl rfl) rfl
  | case3 offset =>
    simp only [copyPrefix, wp_pure]
    exact .written (Ran.refl m) rfl

/-! ## Splitting a payload -/

/-- The bytes that a stretch of odd length leaves unstored: its last. -/
def oddTail (bytes : List UInt8) : List UInt8 := bytes.drop (2 * (bytes.length / 2))

theorem length_oddTail (bytes : List UInt8) : (oddTail bytes).length = bytes.length % 2 := by
  rw [oddTail, List.length_drop]
  omega

/-- **Storing two stretches is storing one:** the second begins with what
the first left unstored. -/
theorem programOps_append (a : ℕ) (xs ys : List UInt8) :
    programOps a (xs ++ ys) =
      programOps a xs ++ programOps (a + 2 * (xs.length / 2)) (oddTail xs ++ ys) := by
  induction a, xs using programOps.induct with
  | case1 a lo hi xs ih =>
    have hdiv : 2 * ((lo :: hi :: xs).length / 2) = 2 * (xs.length / 2) + 2 := by
      simp only [List.length_cons]
      omega
    have hadd : a + (2 * (xs.length / 2) + 2) = a + 2 + 2 * (xs.length / 2) := by omega
    have htail : oddTail (lo :: hi :: xs) = oddTail xs := by
      rw [oddTail, hdiv]
      rfl
    rw [hdiv, hadd, htail]
    simp only [List.cons_append, programOps]
    rw [ih, List.append_assoc]
  | case2 xs a hxs =>
    rcases xs with - | ⟨b, - | ⟨hi, xs⟩⟩
    · rfl
    · simp [programOps, oddTail]
    · exact absurd rfl (hxs b hi xs)

theorem oddTail_append (xs ys : List UInt8) : oddTail (oddTail xs ++ ys) = oddTail (xs ++ ys) := by
  have hlen := length_oddTail xs
  have hle : 2 * (xs.length / 2) ≤ xs.length := by omega
  have hsplit : xs ++ ys = xs.take (2 * (xs.length / 2)) ++ (oddTail xs ++ ys) := by
    rw [← List.append_assoc, oddTail, List.take_append_drop]
  have htake : (xs.take (2 * (xs.length / 2))).length = 2 * (xs.length / 2) := by
    rw [List.length_take]
    omega
  obtain ⟨rest, hrest⟩ : ∃ rest, rest = oddTail xs ++ ys := ⟨_, rfl⟩
  obtain ⟨pre, hpre⟩ : ∃ pre, pre = xs.take (2 * (xs.length / 2)) := ⟨_, rfl⟩
  rw [← hpre] at htake hsplit
  rw [hsplit, ← hrest]
  have hdiv : 2 * ((pre ++ rest).length / 2) = pre.length + 2 * (rest.length / 2) := by
    rw [List.length_append]
    omega
  unfold oddTail
  rw [hdiv, List.drop_length_add_append]

/-- What a candidate holds is the odd tail of what it was given. -/
structure Tracks (c : Candidate) (bytes : List UInt8) : Prop where
  accepted : c.acceptedBytes = bytes.length
  odd : c.pendingValid = true ↔ bytes.length % 2 = 1
  held : held c = oddTail bytes

/-- What is stored of the bytes that were accepted are whole halfwords. -/
theorem Tracks.even {c : Candidate} {bytes : List UInt8} (h : Tracks c bytes) :
    c.acceptedBytes - (Asset.held c).length = 2 * (bytes.length / 2) := by
  rw [h.accepted, h.held, length_oddTail]
  omega

theorem getLastD_oddTail {bytes : List UInt8} (hodd : bytes.length % 2 = 1) :
    oddTail bytes = [bytes.getLastD 0] := by
  have hne : bytes ≠ [] := by
    rintro rfl
    simp at hodd
  obtain ⟨init, b, rfl⟩ : ∃ init b, bytes = init ++ [b] :=
    ⟨bytes.dropLast, bytes.getLast hne, (List.dropLast_concat_getLast hne).symm⟩
  have hdiv : 2 * ((init ++ [b]).length / 2) = init.length := by
    rw [List.length_append, List.length_singleton] at *
    omega
  rw [oddTail, hdiv, List.drop_append_length]
  simp

/-- Nothing is left over of an even number of bytes. -/
theorem oddTail_of_even {bytes : List UInt8} (heven : ¬ bytes.length % 2 = 1) :
    oddTail bytes = [] := by
  apply List.eq_nil_of_length_eq_zero
  rw [length_oddTail]
  omega

/-- From nothing held, the candidate tracks what it advances by. -/
theorem tracks_advance {c : Candidate} {bytes : List UInt8} (hacc : c.acceptedBytes = 0)
    (hpend : c.pendingValid = false) : Tracks (advance c bytes) bytes := by
  refine ⟨by rw [advance_acceptedBytes, hacc, Nat.zero_add], ?_, ?_⟩
  · unfold advance
    split
    next hodd => simp [hodd]
    next heven => simp [heven, hpend]
  · unfold advance
    split
    next hodd => rw [getLastD_oddTail hodd]; rfl
    next heven => rw [oddTail_of_even heven]; simp [held, hpend]

/-- **What is accepted is tracked**, whatever was held before: whole pairs are
stored, and a last odd byte is pending. -/
theorem Tracks.accept {c : Candidate} {bytes : List UInt8} (h : Tracks c bytes)
    (data : List UInt8) : Tracks (accept c data) (bytes ++ data) := by
  have hacc : (Asset.accept c data).acceptedBytes = (bytes ++ data).length := by
    rw [accept_acceptedBytes, h.accepted, List.length_append]
  have hlast : ∀ {b : UInt8} {rest : List UInt8}, oddTail (bytes ++ rest) =
      oddTail (Asset.held c ++ rest) := fun {_ rest} => by
    rw [h.held, oddTail_append]
  rcases hp : c.pendingValid with _ | _
  · have hnone : Asset.held c = [] := by simp [Asset.held, hp]
    have heven : ¬ bytes.length % 2 = 1 := fun hodd => by
      rw [h.odd.mpr hodd] at hp
      exact absurd hp (by simp)
    have htail : oddTail (bytes ++ data) = oddTail data := by
      rw [← oddTail_append, ← h.held, hnone]
      rfl
    have hmod : (bytes ++ data).length % 2 = data.length % 2 := by
      rw [List.length_append]
      omega
    have haccept : Asset.accept c data = advance c data := by simp [Asset.accept, hp]
    refine ⟨hacc, ?_, ?_⟩
    · rw [haccept, hmod]
      unfold advance
      split
      next hodd => simp [hodd]
      next heven => simp [heven, hp]
    · rw [haccept, htail]
      unfold advance
      split
      next hodd => rw [getLastD_oddTail hodd]; rfl
      next heven => rw [oddTail_of_even heven]; simp [Asset.held, hp]
  · have hodd : bytes.length % 2 = 1 := h.odd.mp hp
    rcases data with - | ⟨b, data⟩
    · rw [accept_nil, List.append_nil]
      exact h
    have htail : oddTail (bytes ++ b :: data) = oddTail data := by
      have hone : Asset.held c = [c.pendingByte] := by simp [Asset.held, hp]
      rw [← oddTail_append, ← h.held, hone]
      have hdiv : 2 * (([c.pendingByte] ++ b :: data).length / 2) = 2 * (data.length / 2) + 2 := by
        simp only [List.length_append, List.length_cons, List.length_nil]
        omega
      rw [oddTail, hdiv]
      rfl
    have hmod : (bytes ++ b :: data).length % 2 = data.length % 2 := by
      rw [List.length_append, List.length_cons]
      omega
    have haccept : Asset.accept c (b :: data) =
        advance { c with pendingValid := false, acceptedBytes := c.acceptedBytes + 1 } data := by
      simp [Asset.accept, hp]
    refine ⟨hacc, ?_, ?_⟩
    · rw [haccept, hmod]
      unfold advance
      split
      next hodd => simp [hodd]
      next heven => simp [heven]
    · rw [haccept, htail]
      unfold advance
      split
      next hodd => rw [getLastD_oddTail hodd]; rfl
      next heven => rw [oddTail_of_even heven]; rfl

end DeusOs.Asset
