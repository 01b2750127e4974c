import DeusOs.Asset.Candidate

/-!
# The operations on the candidate

Begin, write and commit, each with every way it can end.
-/

namespace DeusOs.Asset

open Nor

/-! ## Begin -/

/-- The candidate that begins in compare mode. -/
def comparing (c : Candidate) (crc : UInt32) : Candidate :=
  { c with
    payloadCrc32 := crc, active := true, acceptedBytes := 0, pendingValid := false,
    compareActive := true }

/-- The RAM in which a candidate is declared. -/
def declared (r : Ram) (crc : UInt32) : Ram :=
  { r with candidate := { r.candidate with payloadCrc32 := crc, active := true } }

/-- How `asset_persistence_begin_candidate` ends. -/
inductive BeginStep (crc : UInt32) (m : Machine Ram) : Option Result → Machine Ram → Prop
  /-- A candidate is active. -/
  | refused : m.ram.candidate.active = true → BeginStep crc m (some .badState) m
  /-- The active record is declared the same: compare. -/
  | comparing : m.ram.candidate.active = false →
      m.ram.activeRecord.map Record.payloadCrc32 = some crc →
      BeginStep crc m (some .ok)
        { m with ram := { m.ram with candidate := comparing m.ram.candidate crc } }
  /-- A changed candidate is started. -/
  | starting {r : Option Result} {m' : Machine Ram} : m.ram.candidate.active = false →
      m.ram.activeRecord.map Record.payloadCrc32 ≠ some crc →
      StartStep { m with ram := declared m.ram crc } r m' → BeginStep crc m r m'

/-- **`asset_persistence_begin_candidate`.** With the active record's CRC it
only compares; with another it starts the other slot at once. -/
theorem beginCandidate_wp (crc : UInt32) (m : Machine Ram) :
    wp (beginCandidate crc) (fun r m' => BeginStep crc m (some r) m')
      (fun m' => BeginStep crc m none m') m := by
  simp only [beginCandidate, wp_bind, wp_ram, wp_ite, wp_pure, wp_modifyRam, modifyCandidate]
  split
  next hact => exact .refused hact
  next hact =>
    have hact : m.ram.candidate.active = false := by simpa using hact
    split
    next hcrc => exact .comparing hact hcrc
    next hcrc =>
      refine wp_mono (startChanged_wp _) (fun r m' h => ?_) fun m' h => ?_
      · exact .starting hact hcrc h
      · exact .starting hact hcrc h

/-! ## Write -/

/-- The length that matched is the length of a common prefix. -/
theorem matching_spec (f : Mem) (a : ℕ) (data : List UInt8) :
    matching f a data ≤ data.length ∧
      f.bytes a (matching f a data) = data.take (matching f a data) ∧
      (matching f a data < data.length →
        f (a + matching f a data) ≠ data.getD (matching f a data) 0) := by
  induction data generalizing a with
  | nil => exact ⟨Nat.le_refl _, rfl, fun h => absurd h (Nat.lt_irrefl _)⟩
  | cons b data ih =>
    obtain ⟨hle, heq, hne⟩ := ih (a + 1)
    by_cases hb : f a = b
    · have hstep : matching f a (b :: data) = matching f (a + 1) data + 1 := by
        simp [matching, hb]
      rw [hstep]
      refine ⟨by simpa using hle, ?_, fun hlt => ?_⟩
      · have hcons : f.bytes a (matching f (a + 1) data + 1) =
            f a :: f.bytes (a + 1) (matching f (a + 1) data) := by
          rw [Nat.add_comm, Mem.bytes_add]
          rfl
        rw [hcons, heq, hb, List.take_succ_cons]
      · have := hne (by simpa using hlt)
        rw [List.getD_cons_succ]
        have haddr : a + (matching f (a + 1) data + 1) = a + 1 + matching f (a + 1) data := by omega
        rwa [haddr]
    · have hstep : matching f a (b :: data) = 0 := by simp [matching, hb]
      rw [hstep]
      exact ⟨Nat.zero_le _, rfl, fun _ => by simpa using hb⟩

/-- All matched: the bytes are the stored ones. -/
theorem matching_eq_length {f : Mem} {a : ℕ} {data : List UInt8} :
    matching f a data = data.length ↔ f.bytes a data.length = data := by
  obtain ⟨hle, heq, hne⟩ := matching_spec f a data
  constructor
  · intro h
    rw [h, List.take_length] at heq
    exact heq
  · intro h
    by_contra hlt
    have hlt : matching f a data < data.length := by omega
    refine hne hlt ?_
    have hget := congrArg (fun l => l.getD (matching f a data) 0) h
    simpa only [Mem.getD_bytes hlt] using hget

/-- The candidate's payload area, as the start left it, is erased. -/
theorem blank_after_start (slot generation : ℕ) (crc : UInt32) (f : Mem) :
    (applyAll (startPlan slot generation crc) f).Blank (slot + 24) (pageSize - 24) := by
  intro i hi
  have hout := @applyAll_programOps_of_outside slot (slot + 24 + i)
    (metadataBytes generation crc) (Or.inr (by rw [length_metadataBytes]; omega))
    ((Op.erase slot pageSize).apply f)
  rw [startPlan, applyAll_cons, hout]
  exact if_pos ⟨by omega, by omega⟩

/-- Past what a stretch stored, the flash is as it was. -/
theorem blank_after_programOps {a n : ℕ} {bytes : List UInt8} {f : Mem} (h : f.Blank a n) :
    (applyAll (programOps a bytes) f).Blank (a + 2 * (bytes.length / 2))
      (n - 2 * (bytes.length / 2)) := by
  intro i hi
  rw [applyAll_of_not_covers]
  · have := h (2 * (bytes.length / 2) + i) (by omega)
    rwa [← Nat.add_assoc] at this
  · intro o ho hx
    obtain ⟨y, v, rfl, h1, h2, h3, _⟩ := mem_programOps ho
    simp only [Op.Covers] at hx
    omega

/-- How `asset_persistence_write_candidate` ends. -/
inductive PutStep (data : List UInt8) (m : Machine Ram) : Option Result → Machine Ram → Prop
  /-- No candidate, or too many bytes. -/
  | refused : (m.ram.candidate.active = false ∨
        configBytes < m.ram.candidate.acceptedBytes + data.length) →
      PutStep data m (some .badState) m
  /-- Compared, and all the same. -/
  | compared {record : Record} : m.ram.candidate.active = true →
      m.ram.candidate.compareActive = true → m.ram.activeRecord = some record →
      m.ram.candidate.acceptedBytes + data.length ≤ configBytes →
      m.flash.bytes (record.slotAddress + offsetPayload + m.ram.candidate.acceptedBytes)
        data.length = data →
      PutStep data m (some .ok)
        { m with ram := { m.ram with candidate :=
          { m.ram.candidate with
            acceptedBytes := m.ram.candidate.acceptedBytes + data.length } } }
  /-- Compared, and different, and the active record may not be replaced. -/
  | wornOut {record : Record} : m.ram.candidate.compareActive = true →
      m.ram.activeRecord = some record →
      m.flash.bytes (record.slotAddress + offsetPayload + m.ram.candidate.acceptedBytes)
        data.length ≠ data →
      WornOut m.ram.activeRecord →
      PutStep data m (some .wearBudgetExhausted)
        { m with ram :=
          { m.ram with wearPolicyRejectionCount := m.ram.wearPolicyRejectionCount + 1 } }
  /-- Compared, and different: the candidate is started, what had matched is
  copied, and the rest is stored after it. -/
  | started {record : Record} {c' : Candidate} {m' : Machine Ram} :
      m.ram.candidate.active = true → m.ram.candidate.compareActive = true →
      m.ram.activeRecord = some record →
      m.ram.candidate.acceptedBytes + data.length ≤ configBytes →
      m.flash.bytes (record.slotAddress + offsetPayload + m.ram.candidate.acceptedBytes)
        data.length ≠ data →
      ¬ WornOut m.ram.activeRecord →
      Ran (planAfter m.ram.activeRecord m.ram.candidate.payloadCrc32 ++
        programOps (otherSlot m.ram.activeRecord + offsetPayload)
          (m.flash.bytes (record.slotAddress + offsetPayload) m.ram.candidate.acceptedBytes ++
            data)) m m' →
      m'.ram = { m.ram with candidate := c' } →
      SameCandidate (startedCandidate m.ram.activeRecord m.ram.candidate) c' →
      Tracks c' (m.flash.bytes (record.slotAddress + offsetPayload)
        m.ram.candidate.acceptedBytes ++ data) →
      PutStep data m (some .ok) m'
  /-- Compared, and different, and a flash operation failed. -/
  | startFailed {record : Record} {c' : Candidate} {m' : Machine Ram} :
      m.ram.candidate.active = true → m.ram.candidate.compareActive = true →
      m.ram.activeRecord = some record →
      m.ram.candidate.acceptedBytes + data.length ≤ configBytes →
      ¬ WornOut m.ram.activeRecord → ¬ Calm m →
      Broke (planAfter m.ram.activeRecord m.ram.candidate.payloadCrc32 ++
        programOps (otherSlot m.ram.activeRecord + offsetPayload)
          (m.flash.bytes (record.slotAddress + offsetPayload) m.ram.candidate.acceptedBytes ++
            data)) m m' →
      m'.ram = { m.ram with candidate := c' } →
      (c'.active = false ∧ c'.generation = nextGeneration m.ram.activeRecord ∨
        SameCandidate (startedCandidate m.ram.activeRecord m.ram.candidate) c' ∧
        (c'.pendingValid = true → 1 ≤ c'.acceptedBytes) ∧
        ∃ m₁, Ran (planAfter m.ram.activeRecord m.ram.candidate.payloadCrc32) m m₁ ∧
          Broke (programOps (otherSlot m.ram.activeRecord + offsetPayload)
            (m.flash.bytes (record.slotAddress + offsetPayload) m.ram.candidate.acceptedBytes ++
              data)) m₁ m') →
      PutStep data m (some .storageError) m'
  /-- Compared, and different, and a reset struck. -/
  | startCut {record : Record} {m' : Machine Ram} :
      m.ram.candidate.active = true → m.ram.candidate.compareActive = true →
      m.ram.activeRecord = some record →
      m.ram.candidate.acceptedBytes + data.length ≤ configBytes →
      ¬ WornOut m.ram.activeRecord → ¬ Calm m →
      Broke (planAfter m.ram.activeRecord m.ram.candidate.payloadCrc32 ++
        programOps (otherSlot m.ram.activeRecord + offsetPayload)
          (m.flash.bytes (record.slotAddress + offsetPayload) m.ram.candidate.acceptedBytes ++
            data)) m m' →
      PutStep data m none m'
  /-- Not in compare mode: stored. -/
  | stored {r : Option Result} {m' : Machine Ram} : m.ram.candidate.active = true →
      m.ram.candidate.compareActive = false →
      m.ram.candidate.acceptedBytes + data.length ≤ configBytes →
      WriteStep
        (payloadAddress m.ram.candidate
          (m.ram.candidate.acceptedBytes - (held m.ram.candidate).length))
        (held m.ram.candidate ++ data) (accept m.ram.candidate data) m r m' →
      PutStep data m r m'

/-- A record is not in its other slot. -/
theorem otherSlot_ne {record : Record}
    (hslot : record.slotAddress = slotA ∨ record.slotAddress = slotB) :
    record.slotAddress ≠ otherSlot (some record) := by
  unfold otherSlot
  rcases hslot with h | h
  · simp [h, slotA, slotB]
  · simp [h, slotA, slotB]

/-- A write in compare mode finds a difference: `index` bytes of `data` match. -/
structure Diverges (data : List UInt8) (m : Machine Ram) (record : Record) (index : ℕ) : Prop where
  active : m.ram.candidate.active = true
  comparing : m.ram.candidate.compareActive = true
  activeRecord : m.ram.activeRecord = some record
  slot : record.slotAddress = slotA ∨ record.slotAddress = slotB
  fits : m.ram.candidate.acceptedBytes + data.length ≤ configBytes
  inside : index < data.length
  matched : m.flash.bytes (record.slotAddress + offsetPayload + m.ram.candidate.acceptedBytes)
    index = data.take index
  differs : m.flash.bytes (record.slotAddress + offsetPayload + m.ram.candidate.acceptedBytes)
    data.length ≠ data

/-- The bytes of the active record that have matched. -/
def matchedBytes (m : Machine Ram) (record : Record) (index : ℕ) : List UInt8 :=
  m.flash.bytes (record.slotAddress + offsetPayload) (m.ram.candidate.acceptedBytes + index)

/-- The other slot is started for the candidate. -/
structure Restarted (m m₁ : Machine Ram) : Prop where
  ran : Ran (planAfter m.ram.activeRecord m.ram.candidate.payloadCrc32) m m₁
  ram : m₁.ram =
    { m.ram with candidate := startedCandidate m.ram.activeRecord m.ram.candidate }

section Diverging

variable {data : List UInt8} {m m₁ m₂ m' : Machine Ram} {record : Record} {index : ℕ}

@[simp] theorem length_matchedBytes (m : Machine Ram) (record : Record) (index : ℕ) :
    (matchedBytes m record index).length = m.ram.candidate.acceptedBytes + index :=
  Mem.length_bytes _ _ _

/-- The matched bytes and the rest of the data are what is accepted in all. -/
theorem Diverges.accepted (h : Diverges data m record index) :
    matchedBytes m record index ++ data.drop index =
      m.flash.bytes (record.slotAddress + offsetPayload) m.ram.candidate.acceptedBytes ++ data := by
  rw [matchedBytes, Mem.bytes_add, h.matched, List.append_assoc, List.take_append_drop]

/-- The plan of the whole write, in its three parts. -/
theorem Diverges.plan (h : Diverges data m record index) (base : ℕ) :
    planAfter m.ram.activeRecord m.ram.candidate.payloadCrc32 ++
        programOps base (m.flash.bytes (record.slotAddress + offsetPayload)
          m.ram.candidate.acceptedBytes ++ data) =
      planAfter m.ram.activeRecord m.ram.candidate.payloadCrc32 ++
          programOps base (matchedBytes m record index) ++
        programOps (base + 2 * ((matchedBytes m record index).length / 2))
          (oddTail (matchedBytes m record index) ++ data.drop index) := by
  rw [← h.accepted, programOps_append, ← List.append_assoc]

/-- The start leaves the active record's slot. -/
theorem Diverges.bytes_restarted (h : Diverges data m record index) (hstart : Restarted m m₁) :
    m₁.flash.bytes (record.slotAddress + offsetPayload) (m.ram.candidate.acceptedBytes + index) =
      matchedBytes m record index := by
  have hslot := h.slot
  have hfits := h.fits
  have hindex := h.inside
  have hother := otherSlot_cases m.ram.activeRecord
  have hne := otherSlot_ne h.slot
  rw [← h.activeRecord] at hne
  refine Mem.bytes_congr fun i hi => ?_
  rw [hstart.ran.flash, applyAll_of_not_covers]
  intro o ho hx
  unfold configBytes at hfits
  rcases List.mem_cons.mp ho with rfl | ho
  · simp only [Op.Covers] at hx
    unfold slotA slotB offsetPayload pageSize at *
    omega
  · have hcov := covers_programOps ho hx
    rw [length_metadataBytes] at hcov
    unfold slotA slotB offsetPayload at *
    omega

/-- The payload of the other slot is erased then. -/
theorem Restarted.blank (h : Restarted m m₁) :
    m₁.flash.Blank (otherSlot m.ram.activeRecord + offsetPayload) configBytes := by
  rw [h.ran.flash]
  exact (blank_after_start _ _ _ _).sub (by unfold offsetPayload; omega)
    (by unfold offsetPayload configBytes pageSize; omega)

/-- Every halfword of the other slot's payload may be programmed. -/
theorem owned_otherPayload (active : Option Record) {x : ℕ}
    (hx : otherSlot active + offsetPayload ≤ x)
    (hx' : x + 2 ≤ otherSlot active + offsetPayload + configBytes)
    (heven : (x - (otherSlot active + offsetPayload)) % 2 = 0) : flashAddressOwned x = true := by
  have howned := @owned_of_slot _ (x - otherSlot active) (otherSlot_cases active)
    (by unfold offsetPayload configBytes at *; unfold pageSize; omega)
    (by unfold offsetPayload at *; omega)
  rwa [Nat.add_sub_cancel' (by omega)] at howned

/-- **The matched bytes are copied** to the slot that was started, in pairs read
from the active record's slot. -/
theorem Diverges.copyPrefix_wp (h : Diverges data m record index) (hstart : Restarted m m₁) :
    wp (copyPrefix record.slotAddress 0 (m.ram.candidate.acceptedBytes + index))
      (fun r m₂ => WriteStep (otherSlot m.ram.activeRecord + offsetPayload)
        (matchedBytes m record index)
        (advance (startedCandidate m.ram.activeRecord m.ram.candidate) (matchedBytes m record index))
        m₁ (some r) m₂)
      (fun m₂ => WriteStep (otherSlot m.ram.activeRecord + offsetPayload)
        (matchedBytes m record index)
        (advance (startedCandidate m.ram.activeRecord m.ram.candidate) (matchedBytes m record index))
        m₁ none m₂) m₁ := by
  obtain ⟨c₁, hc₁⟩ : ∃ c₁, c₁ = startedCandidate m.ram.activeRecord m.ram.candidate := ⟨_, rfl⟩
  have hcand : m₁.ram.candidate = c₁ := by rw [hstart.ram, hc₁]
  have hslot₁ : c₁.slotAddress = otherSlot m.ram.activeRecord := by rw [hc₁]; rfl
  have hacc₁ : c₁.acceptedBytes = 0 := by rw [hc₁]; rfl
  have hfits := h.fits
  have hindex := h.inside
  have hcopy := Asset.copyPrefix_wp h.slot (m.ram.candidate.acceptedBytes + index) 0 m₁
    (by rw [hcand, hslot₁]; exact otherSlot_cases m.ram.activeRecord)
    (by rw [hcand, hslot₁, h.activeRecord]; exact otherSlot_ne h.slot)
    (by omega) (by rw [hcand, hacc₁])
  have hbase : payloadAddress c₁ 0 = otherSlot m.ram.activeRecord + offsetPayload := by
    rw [payloadAddress, hslot₁, Nat.add_zero]
  rw [hcand] at hcopy
  simp only [Nat.add_zero, h.bytes_restarted hstart, hbase] at hcopy
  rw [← hc₁]
  exact hcopy

/-- A copy that fails gives the candidate up. -/
theorem Diverges.copyFailed (h : Diverges data m record index) (hstart : Restarted m m₁)
    (hworn : ¬ WornOut m.ram.activeRecord) {c' : Candidate}
    (hstep : WriteStep (otherSlot m.ram.activeRecord + offsetPayload)
      (matchedBytes m record index) c' m₁ (some .storageError) m₂) :
    PutStep data m (some .storageError)
      { m₂ with ram := { m₂.ram with candidate := { m₂.ram.candidate with active := false } } } := by
  have hfits := h.fits
  have hindex := h.inside
  have hlength := length_matchedBytes m record index
  cases hstep with
  | failed hbroke hram₂ hsame₂ hb hnot =>
    refine .startFailed h.active h.comparing h.activeRecord hfits hworn (fun hcalm => ?_) ?_
      (by rw [hram₂, hstart.ram]) (Or.inl ⟨rfl, ?_⟩)
    · refine hnot (hstart.ran.calm hcalm)
        (fun x hx hx' heven => owned_otherPayload _ hx (by omega) heven) ?_
      exact hstart.blank.sub (Nat.le_refl _) (by omega)
    · rw [h.plan]
      exact ((hstart.ran.broke hbroke).append _).set_ram
    · exact hsame₂.generation.trans (by rw [hstart.ram]; rfl)

/-- **The rest of the data is stored** behind the matched bytes. A byte that was
left over of these is pending, and is stored with the first of the rest. -/
theorem Diverges.writeRest_wp (h : Diverges data m record index) (hstart : Restarted m m₁)
    (hworn : ¬ WornOut m.ram.activeRecord)
    (hran₂ : Ran (programOps (otherSlot m.ram.activeRecord + offsetPayload)
      (matchedBytes m record index)) m₁ m₂)
    (hram₂ : m₂.ram =
      { m₁.ram with
        candidate := advance (startedCandidate m.ram.activeRecord m.ram.candidate)
          (matchedBytes m record index) }) :
    wp (writePayloadBytes (data.drop index)) (fun r m' => PutStep data m (some r) m')
      (fun m' => PutStep data m none m') m₂ := by
  obtain ⟨pre, hpre⟩ : ∃ pre, pre = matchedBytes m record index := ⟨_, rfl⟩
  have hplan := h.plan (otherSlot m.ram.activeRecord + offsetPayload)
  have haccepted := h.accepted
  have hprelen := length_matchedBytes m record index
  rw [← hpre] at hplan haccepted hprelen hran₂ hram₂
  have hfits := h.fits
  have hindex := h.inside
  have htracks : Tracks m₂.ram.candidate pre := by
    rw [hram₂]
    exact tracks_advance rfl rfl
  have hheld : m₂.ram.candidate.pendingValid = true → 1 ≤ m₂.ram.candidate.acceptedBytes := by
    intro hp
    have := htracks.odd.mp hp
    rw [htracks.accepted]
    omega
  have hwrite := writePayloadBytes_wp (data.drop index) m₂ hheld
  have hbase : payloadAddress m₂.ram.candidate
      (m₂.ram.candidate.acceptedBytes - (held m₂.ram.candidate).length) =
      otherSlot m.ram.activeRecord + offsetPayload + 2 * (pre.length / 2) := by
    have hslot₂ : m₂.ram.candidate.slotAddress = otherSlot m.ram.activeRecord := by
      rw [hram₂]
      exact (sameCandidate_advance _ pre).slotAddress
    rw [htracks.even, payloadAddress, hslot₂]
  rw [hbase, htracks.held] at hwrite
  have hran := hstart.ran.trans hran₂
  have hsame : SameCandidate (startedCandidate m.ram.activeRecord m.ram.candidate)
      m₂.ram.candidate := by
    rw [hram₂]
    exact sameCandidate_advance _ pre
  refine wp_mono hwrite (fun r m₃ h₃ => ?_) fun m₃ h₃ => ?_
  · cases h₃ with
    | written hran₃ hram₃ =>
      refine .started h.active h.comparing h.activeRecord hfits h.differs hworn ?_
        (by rw [hram₃, hram₂, hstart.ram]) (hsame.trans (sameCandidate_accept _ _)) ?_
      · rw [hplan]
        exact hran.trans hran₃
      · rw [← haccepted]
        exact htracks.accept _
    | failed hbroke₃ hram₃ hsame₃ hb₃ hnot₃ hp₃ =>
      refine .startFailed h.active h.comparing h.activeRecord hfits hworn (fun hcalm => ?_) ?_
        (by rw [hram₃, hram₂, hstart.ram])
        (Or.inr ⟨hsame.trans hsame₃, fun hpend => ?_, m₁, hstart.ran, ?_⟩)
      · -- what is left to store is erased
        have hlen : (oddTail pre ++ data.drop index).length =
            pre.length % 2 + (data.length - index) := by
          rw [List.length_append, length_oddTail, List.length_drop]
        refine hnot₃ (hran.calm hcalm)
          (fun x hx hx' heven =>
            owned_otherPayload m.ram.activeRecord (by omega) (by omega) (by omega)) ?_
        have hrest : (applyAll (programOps _ pre) m₁.flash).Blank _ _ :=
          blank_after_programOps hstart.blank
        rw [hran₂.flash]
        exact hrest.sub (Nat.le_refl _) (by omega)
      · rw [hplan]
        exact hran.broke hbroke₃
      · have hodd := htracks.odd.mp (hp₃ hpend)
        have hcount := htracks.accepted
        have hle := hb₃.1
        omega
      · rw [← haccepted, programOps_append]
        exact hran₂.broke hbroke₃
  · cases h₃ with
    | cut hbroke₃ hcalm₃ =>
      refine .startCut h.active h.comparing h.activeRecord hfits hworn
        (fun hcalm => hcalm₃ (hran.calm hcalm)) ?_
      rw [hplan]
      exact hran.broke hbroke₃

/-- **The part of a write in compare mode that found a difference:** the other
slot is started, the bytes that matched are copied, and the rest is stored. -/
theorem diverge_wp (h : Diverges data m record index) :
    wp (do
        match ← startChanged with
        | .ok =>
          match ← copyPrefix record.slotAddress 0 (m.ram.candidate.acceptedBytes + index) with
          | .ok => writePayloadBytes (data.drop index)
          | result => giveUp result
        | result => pure result)
      (fun r m' => PutStep data m (some r) m') (fun m' => PutStep data m none m') m := by
  rw [wp_bind]
  refine wp_mono (startChanged_wp m) (fun r m₁ h₁ => ?_) fun m₁ h₁ => ?_
  · cases h₁ with
    | wornOut hworn => exact .wornOut h.comparing h.activeRecord h.differs hworn
    | failed hworn hcalm hbroke hram =>
      exact .startFailed h.active h.comparing h.activeRecord h.fits hworn hcalm (hbroke.append _)
        hram (Or.inl ⟨rfl, rfl⟩)
    | started hworn hran hram =>
      have hstart : Restarted m m₁ := ⟨hran, hram⟩
      simp only [wp_bind]
      refine wp_mono (h.copyPrefix_wp hstart) (fun r m₂ h₂ => ?_) fun m₂ h₂ => ?_
      · cases h₂ with
        | failed hbroke hram₂ hsame₂ hb hnot hp =>
          simp only [giveUp, candidateReset, modifyCandidate, wp_bind, wp_modifyRam, wp_pure]
          exact h.copyFailed hstart hworn (.failed hbroke hram₂ hsame₂ hb hnot hp)
        | written hran₂ hram₂ => exact h.writeRest_wp hstart hworn hran₂ hram₂
      · cases h₂ with
        | cut hbroke hcalm =>
          refine .startCut h.active h.comparing h.activeRecord h.fits hworn
            (fun hc => hcalm (hran.calm hc)) ?_
          rw [h.plan]
          exact (hran.broke hbroke).append _
  · cases h₁ with
    | cut hworn hcalm hbroke =>
      exact .startCut h.active h.comparing h.activeRecord h.fits hworn hcalm (hbroke.append _)

end Diverging

/-- **`asset_persistence_write_candidate`.** In compare mode it reads the active
record, and starts the other slot at the first byte that differs; else it stores
the data. -/
theorem writeCandidate_wp (data : List UInt8) (m : Machine Ram)
    (hcompare : m.ram.candidate.compareActive = true → ∃ record, m.ram.activeRecord = some record ∧
      (record.slotAddress = slotA ∨ record.slotAddress = slotB))
    (hheld : m.ram.candidate.compareActive = false → m.ram.candidate.pendingValid = true →
      1 ≤ m.ram.candidate.acceptedBytes) :
    wp (writeCandidate data) (fun r m' => PutStep data m (some r) m')
      (fun m' => PutStep data m none m') m := by
  unfold writeCandidate
  rw [wp_bind, wp_ram, wp_ite]
  split
  next href => exact .refused href
  next href =>
    obtain ⟨hact, hfits⟩ := not_or.mp href
    have hact : m.ram.candidate.active = true := by simpa using hact
    have hfits := Nat.le_of_not_lt hfits
    rw [wp_ite]
    split
    next hcmp =>
      obtain ⟨record, hrec, hslot⟩ := hcompare hcmp
      obtain ⟨hle, heq, hdiff⟩ := matching_spec m.flash
        (record.slotAddress + offsetPayload + m.ram.candidate.acceptedBytes) data
      have hget : (m.ram.activeRecord.map Record.slotAddress).getD 0 = record.slotAddress := by
        rw [hrec]
        rfl
      simp only [wp_bind, wp_flash, hget]
      by_cases hall : matching m.flash
          (record.slotAddress + offsetPayload + m.ram.candidate.acceptedBytes) data < data.length
      · rw [if_pos hall]
        have hne := mt matching_eq_length.mpr (Nat.ne_of_lt hall)
        exact diverge_wp ⟨hact, hcmp, hrec, hslot, hfits, hall, heq, hne⟩
      · rw [if_neg hall]
        have hfull : matching m.flash
            (record.slotAddress + offsetPayload + m.ram.candidate.acceptedBytes) data =
            data.length := by omega
        simp only [wp_bind, wp_modifyRam, wp_pure, modifyCandidate]
        exact .compared hact hcmp hrec hfits (matching_eq_length.mp hfull)
    next hcmp =>
      have hcmp : m.ram.candidate.compareActive = false := by simpa using hcmp
      refine wp_mono (writePayloadBytes_wp data m (hheld hcmp)) (fun r m' h => ?_) fun m' h => ?_
      · exact .stored hact hcmp hfits h
      · exact .stored hact hcmp hfits h

/-! ## Commit -/

/-- The operations that store the header's CRC. -/
def crcPlan (slot : ℕ) (f : Mem) : List Op :=
  halfOps (slot + offsetHeaderCrc) ((crc32 (f.bytes slot 24)).toNat % 65536) ++
    halfOps (slot + offsetHeaderCrc + 2) ((crc32 (f.bytes slot 24)).toNat / 65536)

/-- The operation that stores the commit marker. -/
def markerPlan (slot : ℕ) : List Op := halfOps (slot + offsetMarker) commitMarker

/-- The RAM once `record` is the active one. -/
def activated (f : Mem) (record : Record) (r : Ram) : Ram :=
  { r with
    activeRecord := some record
    layout := layoutActivate (payload f record.slotAddress) r.layout
    successfulCommitCount := r.successfulCommitCount + 1
    candidate := { r.candidate with active := false } }

/-- A changed candidate that is complete. -/
structure Complete (c : Candidate) : Prop where
  active : c.active = true
  accepted : c.acceptedBytes = configBytes
  changed : c.compareActive = false
  stored : c.pendingValid = false

/-- How `asset_persistence_commit_candidate` ends. -/
inductive CommitStep (m : Machine Ram) : Option Result → Machine Ram → Prop
  /-- No candidate, or not all of it. -/
  | refused : (m.ram.candidate.active = false ∨ m.ram.candidate.acceptedBytes ≠ configBytes ∨
      m.ram.candidate.compareActive = false ∧ m.ram.candidate.pendingValid = true) →
      CommitStep m (some .badState) m
  /-- All compared, and all the same. -/
  | unchanged : m.ram.candidate.active = true → m.ram.candidate.acceptedBytes = configBytes →
      m.ram.candidate.compareActive = true →
      CommitStep m (some .unchanged)
        { m with ram := { m.ram with candidate := { m.ram.candidate with active := false } } }
  /-- The header's CRC could not be stored. -/
  | headerFailed {m' : Machine Ram} : Complete m.ram.candidate →
      Broke (crcPlan m.ram.candidate.slotAddress m.flash) m m' → m'.ram = m.ram →
      (Calm m → flashAddressOwned (m.ram.candidate.slotAddress + offsetHeaderCrc) = true →
        flashAddressOwned (m.ram.candidate.slotAddress + offsetHeaderCrc + 2) = true →
        ¬ m.flash.Blank (m.ram.candidate.slotAddress + offsetHeaderCrc) 4) →
      CommitStep m (some .storageError) m'
  /-- The record does not validate. -/
  | invalid {m' : Machine Ram} {e : Result} : Complete m.ram.candidate →
      Ran (crcPlan m.ram.candidate.slotAddress m.flash) m m' → m'.ram = m.ram →
      validateRecord m'.flash m.ram.candidate.slotAddress 0xFFFF = .error e →
      CommitStep m (some e) m'
  /-- The marker could not be stored. -/
  | markerFailed {m₁ m' : Machine Ram} {record : Record} : Complete m.ram.candidate →
      Ran (crcPlan m.ram.candidate.slotAddress m.flash) m m₁ → m₁.ram = m.ram →
      validateRecord m₁.flash m.ram.candidate.slotAddress 0xFFFF = .ok record →
      Broke (markerPlan m.ram.candidate.slotAddress) m₁ m' → m'.ram = m.ram →
      (Calm m → flashAddressOwned (m.ram.candidate.slotAddress + offsetMarker) = true →
        m₁.flash.half (m.ram.candidate.slotAddress + offsetMarker) ≠ 0xFFFF) →
      (Honest m → m'.flash = m₁.flash) →
      CommitStep m (some .storageError) m'
  /-- The marker is stored, and the record does not validate with it. -/
  | markedInvalid {m₁ m' : Machine Ram} {record : Record} {e : Result} :
      Complete m.ram.candidate →
      Ran (crcPlan m.ram.candidate.slotAddress m.flash) m m₁ →
      validateRecord m₁.flash m.ram.candidate.slotAddress 0xFFFF = .ok record →
      Ran (markerPlan m.ram.candidate.slotAddress) m₁ m' → m'.ram = m.ram →
      validateRecord m'.flash m.ram.candidate.slotAddress commitMarker = .error e →
      CommitStep m (some e) m'
  /-- The record is the active one. -/
  | committed {m₁ m' : Machine Ram} {record record' : Record} : Complete m.ram.candidate →
      Ran (crcPlan m.ram.candidate.slotAddress m.flash) m m₁ →
      validateRecord m₁.flash m.ram.candidate.slotAddress 0xFFFF = .ok record' →
      Ran (markerPlan m.ram.candidate.slotAddress) m₁ m' → m'.ram = m.ram →
      validateRecord m'.flash m.ram.candidate.slotAddress commitMarker = .ok record →
      CommitStep m (some .ok) { m' with ram := activated m'.flash record m.ram }
  /-- A reset struck. -/
  | cut {m' : Machine Ram} : Complete m.ram.candidate → ¬ Calm m →
      Broke (crcPlan m.ram.candidate.slotAddress m.flash ++
        markerPlan m.ram.candidate.slotAddress) m m' →
      CommitStep m none m'

theorem crc_low_lt (crc : UInt32) : crc.toNat % 65536 < 65536 := Nat.mod_lt _ (by decide)

theorem crc_high_lt (crc : UInt32) : crc.toNat / 65536 < 65536 := by
  have := crc.toNat_lt
  omega

/-- The header's CRC goes in whole, or stops inside. -/
theorem wp_programHeaderCrc {m : Machine Ram} {Q : Bool → Machine Ram → Prop}
    {C : Machine Ram → Prop}
    (hok : ∀ m', Does (crcPlan m.ram.candidate.slotAddress m.flash) m m' → Q true m')
    (hfail : ∀ m', Stops (crcPlan m.ram.candidate.slotAddress m.flash) m m' →
      (Calm m → flashAddressOwned (m.ram.candidate.slotAddress + offsetHeaderCrc) = true →
        flashAddressOwned (m.ram.candidate.slotAddress + offsetHeaderCrc + 2) = true →
        ¬ m.flash.Blank (m.ram.candidate.slotAddress + offsetHeaderCrc) 4) → Q false m')
    (hcut : ∀ m', Stops (crcPlan m.ram.candidate.slotAddress m.flash) m m' → ¬ Calm m → C m') :
    wp programHeaderCrc Q C m := by
  obtain ⟨a, ha⟩ : ∃ a, a = m.ram.candidate.slotAddress + offsetHeaderCrc := ⟨_, rfl⟩
  obtain ⟨crc, hcrc⟩ : ∃ crc, crc = crc32 (m.flash.bytes m.ram.candidate.slotAddress 24) :=
    ⟨_, rfl⟩
  have hplan : crcPlan m.ram.candidate.slotAddress m.flash =
      halfOps a (crc.toNat % 65536) ++ halfOps (a + 2) (crc.toNat / 65536) := by
    rw [ha, hcrc]
    rfl
  rw [hplan] at hok hfail hcut
  rw [← ha] at hfail
  simp only [programHeaderCrc, wp_bind, wp_ram, wp_flash, Prog.andThen, ← ha, ← hcrc]
  refine wp_flashProgramHalfword (crc_low_lt crc) (fun m₁ h₁ hr₁ => ?_) (fun m₁ h₁ hf₁ _ => ?_)
    fun m₁ h₁ hnot => hcut m₁ (h₁.append _) hnot
  · simp only [if_true]
    refine wp_flashProgramHalfword (crc_high_lt crc) (fun m₂ h₂ hr₂ => ?_) (fun m₂ h₂ hf₂ _ => ?_)
      fun m₂ h₂ hnot => ?_
    · exact hok m₂ (h₁.trans h₂)
    · refine hfail m₂ (h₁.stops h₂) fun hcalm _ hown hblank => ?_
      refine hf₂ ((Ran.of_does h₁).calm hcalm) hown ?_
      rw [h₁.flash, Mem.half_eq_ffff]
      exact (blank_applyAll_halfOps (n := 2) hblank)
    · exact hcut m₂ (h₁.stops h₂) fun hcalm => hnot ((Ran.of_does h₁).calm hcalm)
  · simp only [Bool.false_eq_true, if_false, wp_pure]
    refine hfail m₁ (h₁.append _) fun hcalm hown _ hblank => ?_
    exact hf₁ hcalm hown (Mem.half_eq_ffff.mpr (hblank.sub (Nat.le_refl _) (by omega)))

/-- **`asset_persistence_commit_candidate`.** The header's CRC is programmed,
the slot checked without its marker, the marker programmed, and the slot checked
with it. -/
theorem commitCandidate_wp (m : Machine Ram) :
    wp commitCandidate (fun r m' => CommitStep m (some r) m') (fun m' => CommitStep m none m') m := by
  simp only [commitCandidate, wp_bind, wp_ram, wp_ite, wp_pure]
  split
  next href => exact .refused (href.imp_right Or.inl)
  next href =>
  obtain ⟨hact, hacc⟩ := not_or.mp href
  have hact : m.ram.candidate.active = true := by simpa using hact
  have hacc : m.ram.candidate.acceptedBytes = configBytes := not_not.mp hacc
  split
  next hcmp =>
    simp only [giveUp, candidateReset, modifyCandidate, wp_bind, wp_modifyRam, wp_pure]
    exact .unchanged hact hacc hcmp
  next hcmp =>
  have hcmp : m.ram.candidate.compareActive = false := by simpa using hcmp
  split
  next hpend => exact .refused (Or.inr (Or.inr ⟨hcmp, hpend⟩))
  next hpend =>
  have hcomplete : Complete m.ram.candidate := ⟨hact, hacc, hcmp, by simpa using hpend⟩
  obtain ⟨slot, hslot⟩ : ∃ slot, slot = m.ram.candidate.slotAddress := ⟨_, rfl⟩
  -- every cut is inside the whole plan
  have hcut : ∀ m', Broke (crcPlan slot m.flash ++ markerPlan slot) m m' → ¬ Calm m →
      CommitStep m none m' := fun m' hbroke hcalm => .cut hcomplete hcalm (hslot ▸ hbroke)
  refine wp_faultCheckpoint (fun _ => ?_) fun harmed => ?_
  rotate_left
  · exact hcut _ (Broke.none _ m _) fun h => h.control _ harmed
  simp only [wp_bind]
  refine wp_programHeaderCrc (fun m₁ h₁ => ?_) (fun m₁ h₁ hnot => ?_) fun m₁ h₁ hnot => ?_
  rotate_left
  · simp only [Bool.false_eq_true, if_false, wp_pure]
    exact .headerFailed hcomplete (Broke.of_stops h₁) h₁.ram hnot
  · exact hcut _ (hslot ▸ (Broke.of_stops h₁).append _) hnot
  have hran₁ := Ran.of_does h₁
  simp only [if_true, wp_bind, wp_flash, ← hslot]
  cases hvalid : validateRecord m₁.flash slot 0xFFFF with
  | error e => exact .invalid hcomplete hran₁ h₁.ram (hslot ▸ hvalid)
  | ok record' =>
  simp only [programMarker, wp_bind, wp_ram]
  refine wp_faultCheckpoint (fun _ => ?_) fun harmed => ?_
  rotate_left
  · exact hcut _ (hslot ▸ hran₁.toBroke.set_ram.append _) fun h => (hran₁.calm h).control _ harmed
  have hslot₁ : m₁.ram.candidate.slotAddress = slot := by rw [h₁.ram, hslot]
  simp only [wp_bind, hslot₁]
  refine wp_flashProgramHalfword (by decide) (fun m₂ h₂ hr₂ => ?_) (fun m₂ h₂ hf₂ hh₂ => ?_)
    fun m₂ h₂ hnot => ?_
  rotate_left
  · simp only [Bool.false_eq_true, if_false, wp_pure]
    refine .markerFailed hcomplete hran₁ h₁.ram (hslot ▸ hvalid) (hslot ▸ Broke.of_stops h₂)
      (h₂.ram.trans h₁.ram) (fun hcalm hown => ?_) fun hm => hh₂ (hran₁.honest hm)
    rw [← hslot] at hown ⊢
    exact hf₂ (hran₁.calm hcalm) hown
  · exact hcut _ (hran₁.broke (Broke.of_stops h₂) |> fun h => by rw [hslot]; exact hslot ▸ h)
      fun h => hnot (hran₁.calm h)
  have hran₂ := Ran.of_does h₂
  have hram₂ : m₂.ram = m.ram := h₂.ram.trans h₁.ram
  have hread : m₂.flash.half (slot + offsetMarker) = commitMarker := by
    rw [h₂.flash, halfOps, if_neg (by decide), applyAll_cons, applyAll_nil]
    exact Op.half_apply_program _ _ (by decide)
  simp only [if_true, wp_bind, wp_flash]
  rw [if_neg (not_not.mpr hread)]
  have hboth : Broke (crcPlan slot m.flash ++ markerPlan slot) m m₂ :=
    hslot ▸ (hran₁.trans hran₂).toBroke
  have hcalm₂ : Calm m → Calm m₂ := fun h => hran₂.calm (hran₁.calm h)
  simp only [wp_bind]
  refine wp_faultCheckpoint (fun _ => ?_) fun harmed => ?_
  rotate_left
  · exact hcut _ hboth.set_ram fun h => (hcalm₂ h).control _ harmed
  cases hmarked : validateRecord m₂.flash slot commitMarker with
  | error e =>
    exact .markedInvalid hcomplete hran₁ (hslot ▸ hvalid) (hslot ▸ hran₂) hram₂ (hslot ▸ hmarked)
  | ok record =>
  simp only [activate, wp_bind]
  refine wp_faultCheckpoint (fun _ => ?_) fun harmed => ?_
  rotate_left
  · exact hcut _ hboth.set_ram fun h => (hcalm₂ h).control _ harmed
  simp only [wp_bind, wp_flash, wp_modifyRam, candidateReset, modifyCandidate]
  refine wp_faultCheckpoint (fun _ => ?_) fun harmed => ?_
  rotate_left
  · exact hcut _ hboth.set_ram fun h => (hcalm₂ h).control _ harmed
  have hend : CommitStep m (some .ok) { m₂ with ram := activated m₂.flash record m.ram } :=
    .committed hcomplete hran₁ (hslot ▸ hvalid) (hslot ▸ hran₂) hram₂ (hslot ▸ hmarked)
  rw [← hram₂] at hend
  exact hend

end DeusOs.Asset
