import DeusOs.Asset.Frames
import Mathlib.Data.List.Induction

/-!
# However the payload is cut

A configuration is written in chunks. `chunking_independence`: what is
stored, and what a commit of it comes to, is a matter of the bytes and of
the active record, and not of where the bytes were cut. In compare mode the
bytes so far are the active record's; outside it, they are on flash but for
an odd last one.
-/

namespace DeusOs.Asset

open Nor

/-! ## A payload, call by call -/

/-- A candidate is begun and the chunks are written, a call each, and all
the calls are answered OK. -/
inductive Sent (crc : UInt32) (m : Machine Ram) : List (List UInt8) → Machine Ram → Prop
  | begun {m' : Machine Ram} : beginCandidate crc m = .ok .ok m' → Sent crc m [] m'
  | wrote {chunks : List (List UInt8)} {data : List UInt8} {m₁ m' : Machine Ram} :
      Sent crc m chunks m₁ → data ≠ [] → writeCandidate data m₁ = .ok .ok m' →
      Sent crc m (chunks ++ [data]) m'

/-- The active record is declared the same, and stores these bytes so far. -/
def Unchanged (m : Machine Ram) (crc : UInt32) (bytes : List UInt8) : Prop :=
  ∃ record, m.ram.activeRecord = some record ∧ record.payloadCrc32 = crc ∧
    m.flash.bytes (record.slotAddress + offsetPayload) bytes.length = bytes

/-- Where nothing changes for some bytes, nothing changes for the first of them.
-/
theorem Unchanged.of_append {m : Machine Ram} {crc : UInt32} {bytes data : List UInt8}
    (h : Unchanged m crc (bytes ++ data)) : Unchanged m crc bytes := by
  obtain ⟨record, hrec, hcrc, hbytes⟩ := h
  rw [List.length_append, Mem.bytes_add] at hbytes
  exact ⟨record, hrec, hcrc, (List.append_inj hbytes (Mem.length_bytes _ _ _)).1⟩

/-- The operations that store `bytes` as the payload of a candidate. -/
def storePlan (active : Option Record) (crc : UInt32) (bytes : List UInt8) : List Op :=
  planAfter active crc ++ programOps (otherSlot active + offsetPayload) bytes

/-- Compare mode: only the candidate has moved. -/
structure Compared (crc : UInt32) (m : Machine Ram) (bytes : List UInt8) (m' : Machine Ram) :
    Prop where
  unchanged : Unchanged m crc bytes
  same : m' = { m with ram := { m.ram with candidate :=
    { comparing m.ram.candidate crc with acceptedBytes := bytes.length } } }

/-- A changed candidate: its slot is started, and the bytes are stored. -/
structure Stored (crc : UInt32) (m : Machine Ram) (bytes : List UInt8) (m' : Machine Ram) :
    Prop where
  changed : ¬ Unchanged m crc bytes
  replaceable : ¬ WornOut m.ram.activeRecord
  ran : Ran (storePlan m.ram.activeRecord crc bytes) m m'
  ram : m'.ram = { m.ram with candidate := m'.ram.candidate }
  kept : SameCandidate (startedCandidate m.ram.activeRecord (declared m.ram crc).candidate)
    m'.ram.candidate
  tracks : Tracks m'.ram.candidate bytes

section Calls

variable {crc : UInt32} {m m₁ m' : Machine Ram} {bytes data : List UInt8}

/-- A candidate that is stored is not compared any more. -/
theorem Stored.compareActive (h : Stored crc m bytes m') :
    m'.ram.candidate.compareActive = false := h.kept.compareActive

/-- What a begin leaves. -/
theorem progress_begin (hstep : BeginStep crc m (some .ok) m') :
    Compared crc m [] m' ∨ Stored crc m [] m' := by
  cases hstep with
  | comparing _ hcrc =>
    obtain ⟨record, hrec, hsame⟩ := Option.map_eq_some_iff.mp hcrc
    exact Or.inl ⟨⟨record, hrec, hsame, rfl⟩, rfl⟩
  | starting _ hcrc hstart =>
    cases hstart with
    | started hworn hran hram =>
      have hcand : m'.ram.candidate =
          startedCandidate m.ram.activeRecord (declared m.ram crc).candidate := by
        rw [hram]
        rfl
      refine Or.inr ⟨?_, hworn, ?_, ?_, ?_, ?_⟩
      · rintro ⟨record, hrec, hsame, _⟩
        exact hcrc (by rw [hrec, Option.map_some, hsame])
      · have hnil : storePlan m.ram.activeRecord crc [] = planAfter m.ram.activeRecord crc :=
          List.append_nil _
        rw [hnil]
        exact Ran.of_ram (m := m) (r := declared m.ram crc) rfl rfl hran
      · rw [hram]
        rfl
      · rw [hcand]
        exact SameCandidate.refl _
      · rw [hcand]
        exact ⟨rfl, by simp [startedCandidate], by simp [held, startedCandidate, oddTail]⟩

/-- A write in compare mode. -/
theorem Compared.write (h : Compared crc m bytes m₁) (hput : PutStep data m₁ (some .ok) m') :
    Compared crc m (bytes ++ data) m' ∨ Stored crc m (bytes ++ data) m' := by
  obtain ⟨⟨record, hrec, hcrc, hbytes⟩, rfl⟩ := h
  cases hput with
  | compared _ _ hrec' _ hdata =>
    obtain rfl := Option.some.inj (hrec.symm.trans hrec')
    refine Or.inl ⟨⟨record, hrec, hcrc, ?_⟩, ?_⟩
    · rw [List.length_append, Mem.bytes_add, hbytes]
      exact congrArg (bytes ++ ·) hdata
    · rw [List.length_append]
  | started _ _ hrec' _ hne hworn hran hram hkept htracks =>
    obtain rfl := Option.some.inj (hrec.symm.trans hrec')
    -- the bytes copied are the ones that had matched
    have hcopied : m.flash.bytes (record.slotAddress + offsetPayload) bytes.length = bytes := hbytes
    obtain ⟨r, hr⟩ : ∃ r : Ram, r = { m.ram with candidate :=
      { comparing m.ram.candidate crc with acceptedBytes := bytes.length } } := ⟨_, rfl⟩
    have hran' : Ran (storePlan m.ram.activeRecord crc (bytes ++ data)) { m with ram := r } m' := by
      rw [hr, storePlan]
      nth_rewrite 1 [← hcopied]
      exact hran
    refine Or.inr ⟨?_, hworn, hran'.of_ram (by rw [hr]) (by rw [hr]), by rw [hram], ?_, ?_⟩
    · rintro ⟨record', hrec'', _, hall⟩
      obtain rfl := Option.some.inj (hrec.symm.trans hrec'')
      rw [List.length_append, Mem.bytes_add, hbytes] at hall
      exact hne (List.append_cancel_left hall)
    · rw [hram]
      exact ⟨hkept.1, hkept.2, hkept.3, hkept.4, hkept.5⟩
    · rw [hram]
      rw [← hcopied]
      exact htracks
  | stored _ hcmp => exact absurd hcmp (by simp [comparing])

/-- Two stretches of payload are one. -/
theorem storePlan_append (active : Option Record) (bytes data : List UInt8) :
    storePlan active crc (bytes ++ data) = storePlan active crc bytes ++
      programOps (otherSlot active + offsetPayload + 2 * (bytes.length / 2))
        (oddTail bytes ++ data) := by
  rw [storePlan, programOps_append, ← List.append_assoc, storePlan]

/-- Where the next bytes of a changed candidate go. -/
theorem Stored.payloadAddress (h : Stored crc m bytes m₁) :
    payloadAddress m₁.ram.candidate
        (m₁.ram.candidate.acceptedBytes - (held m₁.ram.candidate).length) =
      otherSlot m.ram.activeRecord + offsetPayload + 2 * (bytes.length / 2) := by
  rw [h.tracks.even, Asset.payloadAddress, h.kept.slotAddress]
  rfl

/-- A write outside compare mode. -/
theorem Stored.write (h : Stored crc m bytes m₁) (hput : PutStep data m₁ (some .ok) m') :
    Stored crc m (bytes ++ data) m' := by
  have hcmp := h.compareActive
  cases hput with
  | compared _ hcmp' => exact absurd (hcmp.symm.trans hcmp') (by simp)
  | started _ hcmp' => exact absurd (hcmp.symm.trans hcmp') (by simp)
  | stored _ _ _ hwrite =>
    rw [h.payloadAddress, h.tracks.held] at hwrite
    cases hwrite with
    | written hran hram =>
      refine ⟨fun hun => h.changed hun.of_append, h.replaceable, ?_, ?_, ?_, ?_⟩
      · rw [storePlan_append]
        exact h.ran.trans hran
      · rw [hram]
        exact congrArg (fun r : Ram =>
          { r with candidate := accept m₁.ram.candidate data }) h.ram
      · rw [hram]
        exact h.kept.trans (sameCandidate_accept _ _)
      · rw [hram]
        exact h.tracks.accept data

/-! ## What is on flash -/

/-- An odd last byte is not stored. -/
theorem programOps_take (a : ℕ) (bytes : List UInt8) :
    programOps a (bytes.take (2 * (bytes.length / 2))) = programOps a bytes := by
  induction a, bytes using programOps.induct with
  | case1 a lo hi bytes ih =>
    have hdiv : 2 * ((lo :: hi :: bytes).length / 2) = 2 * (bytes.length / 2) + 2 := by
      simp only [List.length_cons]
      omega
    rw [hdiv, List.take_succ_cons, List.take_succ_cons, programOps, programOps, ih]
  | case2 bytes a hbytes =>
    rcases bytes with - | ⟨b, - | ⟨hi, bytes⟩⟩
    · rfl
    · simp [programOps]
    · exact absurd rfl (hbytes b hi bytes)

/-- Behind the header, nothing but the payload is stored. -/
theorem Stored.blank (h : Stored crc m bytes m') :
    m'.flash.Blank (otherSlot m.ram.activeRecord + 24) 40 := by
  intro i hi
  rw [h.ran.flash, storePlan, applyAll_append,
    applyAll_programOps_of_outside (Or.inl (by unfold offsetPayload; omega))]
  exact blank_after_start _ _ _ _ i (by unfold pageSize; omega)

/-- What is left of the payload area is erased. -/
theorem Stored.blank_rest (h : Stored crc m bytes m') :
    m'.flash.Blank (otherSlot m.ram.activeRecord + offsetPayload + 2 * (bytes.length / 2))
      (configBytes - 2 * (bytes.length / 2)) := by
  rw [h.ran.flash, storePlan, applyAll_append]
  refine blank_after_programOps ((blank_after_start _ _ _ _).sub ?_ ?_)
  · unfold offsetPayload
    omega
  · unfold offsetPayload configBytes pageSize
    omega

/-- **What is stored of a candidate are its bytes,** to an even number; a last
one waits in RAM for its pair. -/
theorem Stored.bytes_eq (h : Stored crc m bytes m') (hle : bytes.length ≤ configBytes) :
    m'.flash.bytes (otherSlot m.ram.activeRecord + offsetPayload) (2 * (bytes.length / 2)) =
      bytes.take (2 * (bytes.length / 2)) := by
  obtain ⟨f, hf⟩ : ∃ f, f = applyAll (planAfter m.ram.activeRecord crc) m.flash := ⟨_, rfl⟩
  have hlen : (bytes.take (2 * (bytes.length / 2))).length = 2 * (bytes.length / 2) := by
    rw [List.length_take]
    omega
  have hblank : f.Blank (otherSlot m.ram.activeRecord + offsetPayload)
      (bytes.take (2 * (bytes.length / 2))).length := by
    rw [hf, hlen]
    unfold configBytes at hle
    exact (blank_after_start _ _ _ _).sub (by unfold offsetPayload; omega)
      (by unfold offsetPayload pageSize; omega)
  have hprog := bytes_applyAll_programOps (by rw [hlen]; omega) hblank
  rw [programOps_take, hlen] at hprog
  rw [h.ran.flash, storePlan, applyAll_append, ← hf]
  exact hprog

/-! ## No call fails -/

/-- With the flash working, a begin is answered OK, unless the record is
worn out and declared different. -/
theorem begin_total (hcalm : Calm m) (hidle : m.ram.candidate.active = false)
    (hworn : WornOut m.ram.activeRecord → Unchanged m crc []) :
    ∃ m', beginCandidate crc m = .ok .ok m' := by
  obtain ⟨r, m', hrun, hstep⟩ := wp_returned (beginCandidate_wp crc m) fun m' hcut => by
    cases hcut with
    | starting _ _ hstart =>
      cases hstart with
      | cut _ hnot => exact hnot ⟨hcalm.sound, hcalm.control⟩
  refine ⟨m', ?_⟩
  cases hstep with
  | refused hact => exact absurd (hidle.symm.trans hact) (by simp)
  | comparing => exact hrun
  | starting _ hcrc hstart =>
    cases hstart with
    | wornOut h =>
      obtain ⟨record, hrec, hsame, _⟩ := hworn h
      exact absurd (by rw [hrec, Option.map_some, hsame]) hcrc
    | started => exact hrun
    | failed _ hnot => exact absurd ⟨hcalm.sound, hcalm.control⟩ hnot

theorem Compared.calm (h : Compared crc m bytes m') (hcalm : Calm m) : Calm m' := by
  rw [h.same]
  exact ⟨hcalm.sound, hcalm.control⟩

/-- The bytes of a slot's payload that are still to come can be stored. -/
theorem Stored.ready (h : Stored crc m bytes m') (hfits : (bytes ++ data).length ≤ configBytes) :
    (∀ x, otherSlot m.ram.activeRecord + offsetPayload + 2 * (bytes.length / 2) ≤ x →
      x + 2 ≤ otherSlot m.ram.activeRecord + offsetPayload + 2 * (bytes.length / 2) +
        (oddTail bytes ++ data).length →
      (x - (otherSlot m.ram.activeRecord + offsetPayload + 2 * (bytes.length / 2))) % 2 = 0 →
      flashAddressOwned x = true) ∧
    m'.flash.Blank (otherSlot m.ram.activeRecord + offsetPayload + 2 * (bytes.length / 2))
      (oddTail bytes ++ data).length := by
  have hlen : (oddTail bytes ++ data).length = bytes.length % 2 + data.length := by
    rw [List.length_append, length_oddTail]
  rw [List.length_append] at hfits
  rw [hlen]
  refine ⟨fun x hx hx' heven => ?_, h.blank_rest.sub (Nat.le_refl _) (by omega)⟩
  have hown := @owned_of_slot _ (x - otherSlot m.ram.activeRecord)
    (otherSlot_cases m.ram.activeRecord)
    (by unfold offsetPayload configBytes at *; unfold pageSize; omega)
    (by unfold offsetPayload at *; omega)
  rwa [Nat.add_sub_cancel' (by omega)] at hown

/-- The candidate is what the write relies on. -/
theorem write_wp (hrecord : ∀ record, m.ram.activeRecord = some record →
      record.slotAddress = slotA ∨ record.slotAddress = slotB)
    (h : Compared crc m bytes m₁ ∨ Stored crc m bytes m₁) (data : List UInt8) :
    wp (writeCandidate data) (fun r m' => PutStep data m₁ (some r) m')
      (fun m' => PutStep data m₁ none m') m₁ := by
  refine writeCandidate_wp data m₁ (fun hcmp => ?_) fun hcmp hpend => ?_
  · rcases h with h | h
    · obtain ⟨⟨record, hrec, -, -⟩, hsame⟩ := h
      exact ⟨record, by rw [hsame]; exact hrec, hrecord record hrec⟩
    · exact absurd (h.compareActive.symm.trans hcmp) (by simp)
  · rcases h with h | h
    · rw [h.same] at hcmp
      exact absurd hcmp (by simp [comparing])
    · have hodd := h.tracks.odd.mp hpend
      rw [h.tracks.accepted]
      omega

/-- **With the flash working, a write is answered OK,** unless the record is
worn out and stores other bytes. -/
theorem write_total (hcalm : Calm m)
    (hrecord : ∀ record, m.ram.activeRecord = some record →
      record.slotAddress = slotA ∨ record.slotAddress = slotB)
    (h : Compared crc m bytes m₁ ∨ Stored crc m bytes m₁)
    (hfits : (bytes ++ data).length ≤ configBytes)
    (hworn : WornOut m.ram.activeRecord → Unchanged m crc (bytes ++ data)) :
    ∃ m', writeCandidate data m₁ = .ok .ok m' := by
  have hlen : (bytes ++ data).length = bytes.length + data.length := List.length_append
  have hcalm₁ : Calm m₁ := by
    rcases h with h | h
    · exact h.calm hcalm
    · exact h.ran.calm hcalm
  have hwp := write_wp hrecord h data
  obtain ⟨r, m', hrun, hput⟩ := wp_returned hwp fun m' hcut => by
    cases hcut with
    | startCut _ _ _ _ _ hnot => exact hnot hcalm₁
    | stored _ _ _ hwrite =>
      cases hwrite with
      | cut _ hnot => exact hnot hcalm₁
  refine ⟨m', ?_⟩
  rcases h with h | h
  · -- compare mode: only a record that is worn out stops it
    obtain ⟨hun, rfl⟩ := h
    cases hput with
    | refused href =>
      simp only [comparing, Bool.true_eq_false, false_or] at href
      omega
    | compared => exact hrun
    | wornOut _ hrec hne hw =>
      obtain ⟨record, hrec', -, hall⟩ := hworn hw
      obtain rfl := Option.some.inj (hrec.symm.trans hrec')
      rw [List.length_append, Mem.bytes_add] at hall
      exact absurd (List.append_inj hall (Mem.length_bytes _ _ _)).2 hne
    | started => exact hrun
    | startFailed _ _ _ _ _ hnot => exact absurd hcalm₁ hnot
    | stored _ hcmp => exact absurd hcmp (by simp [comparing])
  · have hcmp := h.compareActive
    have hact : m₁.ram.candidate.active = true := h.kept.active
    cases hput with
    | refused href =>
      rw [hact, h.tracks.accepted] at href
      rcases href with href | href
      · exact absurd href (by simp)
      · omega
    | compared => exact hrun
    | wornOut hcmp' => exact absurd (hcmp.symm.trans hcmp') (by simp)
    | started => exact hrun
    | startFailed _ hcmp' => exact absurd (hcmp.symm.trans hcmp') (by simp)
    | stored _ _ _ hwrite =>
      rw [h.payloadAddress, h.tracks.held] at hwrite
      cases hwrite with
      | written => exact hrun
      | failed _ _ _ _ hnot =>
        obtain ⟨hown, hblank⟩ := h.ready hfits
        exact absurd hblank (hnot hcalm₁ hown)

/-! ## The commit -/

/-- What a commit of a candidate at `slot` comes to, from the flash `f` and
the RAM `r`: its answer, its flash operations and the RAM it leaves. -/
def commitOutcome (slot : ℕ) (f : Mem) (r : Ram) : Result × List Op × Ram :=
  match validateRecord (applyAll (crcPlan slot f) f) slot 0xFFFF with
  | .error e => (e, crcPlan slot f, r)
  | .ok _ =>
    let plan := crcPlan slot f ++ markerPlan slot
    match validateRecord (applyAll plan f) slot commitMarker with
    | .error e => (e, plan, r)
    | .ok record => (.ok, plan, activated (applyAll plan f) record r)

/-- What the commit stores is behind the header and before the payload. -/
theorem commitOutcome_plan (slot : ℕ) (f : Mem) (r : Ram) :
    ∀ o ∈ (commitOutcome slot f r).2.1, ∃ x v, o = .program x v ∧ slot + offsetHeaderCrc ≤ x ∧
      x + 2 ≤ slot + offsetPayload := by
  have hcrc : ∀ o ∈ crcPlan slot f, ∃ x v, o = .program x v ∧ slot + offsetHeaderCrc ≤ x ∧
      x + 2 ≤ slot + offsetPayload := by
    intro o ho
    unfold offsetHeaderCrc offsetPayload
    rcases List.mem_append.mp ho with ho | ho
    · exact ⟨_, _, (mem_halfOps.mp ho).1, by unfold offsetHeaderCrc; omega, by
        unfold offsetHeaderCrc; omega⟩
    · exact ⟨_, _, (mem_halfOps.mp ho).1, by unfold offsetHeaderCrc; omega, by
        unfold offsetHeaderCrc; omega⟩
  have hboth : ∀ o ∈ crcPlan slot f ++ markerPlan slot, ∃ x v, o = .program x v ∧
      slot + offsetHeaderCrc ≤ x ∧ x + 2 ≤ slot + offsetPayload := by
    intro o ho
    rcases List.mem_append.mp ho with ho | ho
    · exact hcrc o ho
    · refine ⟨_, _, (mem_halfOps.mp ho).1, ?_, ?_⟩
      · unfold offsetHeaderCrc offsetMarker
        omega
      · unfold offsetMarker offsetPayload
        omega
  unfold commitOutcome
  split
  · exact hcrc
  · simp only
    split
    · exact hboth
    · exact hboth

/-- **A commit with the flash working** comes to `commitOutcome`, which computes
what it answers, what it does to the flash and what is left in RAM. -/
theorem commit_calm (hcalm : Calm m) (hcomplete : Complete m.ram.candidate)
    (hslot : m.ram.candidate.slotAddress = slotA ∨ m.ram.candidate.slotAddress = slotB)
    (hblank : m.flash.Blank (m.ram.candidate.slotAddress + 24) 40) :
    ∃ m', commitCandidate m =
        .ok (commitOutcome m.ram.candidate.slotAddress m.flash m.ram).1 m' ∧
      m'.flash =
        applyAll (commitOutcome m.ram.candidate.slotAddress m.flash m.ram).2.1 m.flash ∧
      m'.ram = (commitOutcome m.ram.candidate.slotAddress m.flash m.ram).2.2 ∧
      ∃ es, m'.log = m.log ++ es ∧
        es.map Entry.op = (commitOutcome m.ram.candidate.slotAddress m.flash m.ram).2.1 := by
  obtain ⟨r, m', hrun, hstep⟩ := wp_returned (commitCandidate_wp m) fun m' hcut => by
    cases hcut with
    | cut _ hnot => exact hnot hcalm
  obtain ⟨slot, hs⟩ : ∃ slot, slot = m.ram.candidate.slotAddress := ⟨_, rfl⟩
  rw [← hs] at hslot hblank ⊢
  have hown : ∀ k, k + 2 ≤ pageSize → k % 2 = 0 → flashAddressOwned (slot + k) = true :=
    fun k => owned_of_slot hslot
  refine ⟨m', ?_⟩
  rw [hrun]
  cases hstep with
  | refused href =>
    rcases href with href | href | ⟨-, href⟩
    · exact absurd (hcomplete.active.symm.trans href) (by simp)
    · exact absurd hcomplete.accepted href
    · exact absurd (hcomplete.stored.symm.trans href) (by simp)
  | unchanged _ _ hcmp => exact absurd (hcomplete.changed.symm.trans hcmp) (by simp)
  | headerFailed _ _ _ hnot =>
    rw [← hs] at hnot
    refine absurd (hblank.sub ?_ ?_)
      (hnot hcalm (hown offsetHeaderCrc (by decide) (by decide))
        (hown (offsetHeaderCrc + 2) (by decide) (by decide)))
    · unfold offsetHeaderCrc
      omega
    · unfold offsetHeaderCrc
      omega
  | invalid _ hran hram hvalid =>
    rw [← hs] at hran hvalid
    have hout : commitOutcome slot m.flash m.ram = (r, crcPlan slot m.flash, m.ram) := by
      rw [hran.flash] at hvalid
      rw [commitOutcome, hvalid]
    obtain ⟨es, hlog, hops, -⟩ := hran.log
    rw [hout]
    exact ⟨rfl, hran.flash, hram, es, hlog, hops⟩
  | markerFailed _ hran _ _ _ _ hnot =>
    rw [← hs] at hran hnot
    refine absurd ?_ (hnot hcalm (hown offsetMarker (by decide) (by decide)))
    rw [Mem.half_eq_ffff]
    intro i hi
    rw [hran.flash, applyAll_of_not_covers]
    · have := hblank (offsetMarker - 24 + i) (by unfold offsetMarker; omega)
      unfold offsetMarker at this ⊢
      have haddr : slot + 24 + (62 - 24 + i) = slot + 62 + i := by omega
      rwa [haddr] at this
    · intro o ho hx
      unfold offsetMarker at hx
      rcases List.mem_append.mp ho with ho | ho
      · obtain ⟨rfl, -⟩ := mem_halfOps.mp ho
        simp only [Op.Covers] at hx
        unfold offsetHeaderCrc at hx
        omega
      · obtain ⟨rfl, -⟩ := mem_halfOps.mp ho
        simp only [Op.Covers] at hx
        unfold offsetHeaderCrc at hx
        omega
  | markedInvalid _ hran hvalid hran' hram hmarked =>
    rw [← hs] at hran hvalid hran' hmarked
    have hboth := hran.trans hran'
    have hout : commitOutcome slot m.flash m.ram =
        (r, crcPlan slot m.flash ++ markerPlan slot, m.ram) := by
      rw [hran.flash] at hvalid
      rw [hboth.flash] at hmarked
      rw [commitOutcome, hvalid]
      simp only [hmarked]
    obtain ⟨es, hlog, hops, -⟩ := hboth.log
    rw [hout]
    exact ⟨rfl, hboth.flash, hram, es, hlog, hops⟩
  | @committed m₁ m₂ record record' _ hran hvalid hran' hram hmarked =>
    rw [← hs] at hran hvalid hran' hmarked
    have hboth := hran.trans hran'
    have hout : commitOutcome slot m.flash m.ram =
        (.ok, crcPlan slot m.flash ++ markerPlan slot,
          activated (applyAll (crcPlan slot m.flash ++ markerPlan slot) m.flash) record m.ram) := by
      rw [hran.flash] at hvalid
      rw [hboth.flash] at hmarked
      rw [commitOutcome, hvalid]
      simp only [hmarked]
    obtain ⟨es, hlog, hops, -⟩ := hboth.log
    rw [hout]
    exact ⟨rfl, hboth.flash, by rw [hboth.flash], es, hlog, hops⟩

/-! ## However it is cut -/

/-- A write that is answered OK fits. -/
theorem putStep_fits (h : PutStep data m₁ (some .ok) m') :
    m₁.ram.candidate.acceptedBytes + data.length ≤ configBytes := by
  cases h with
  | compared _ _ _ hfits => exact hfits
  | started _ _ _ hfits => exact hfits
  | stored _ _ hfits => exact hfits

/-- **What the calls have come to** is a matter of the bytes, and not of how
they were cut: they agree with the active record so far, or they are stored. -/
theorem Sent.progress {chunks : List (List UInt8)} (h : Sent crc m chunks m')
    (hrecord : ∀ record, m.ram.activeRecord = some record →
      record.slotAddress = slotA ∨ record.slotAddress = slotB) :
    (Compared crc m chunks.flatten m' ∨ Stored crc m chunks.flatten m') ∧
      chunks.flatten.length ≤ configBytes := by
  induction h with
  | begun hrun =>
    have hstep := wp_ok (beginCandidate_wp crc m) hrun
    exact ⟨progress_begin hstep, Nat.zero_le _⟩
  | @wrote chunks data m₁ m' _ _ hrun ih =>
    obtain ⟨hprogress, -⟩ := ih
    have hput := wp_ok (write_wp hrecord hprogress data) hrun
    have hfits := putStep_fits hput
    have hflat : (chunks ++ [data]).flatten = chunks.flatten ++ data := by simp
    rw [hflat, List.length_append]
    rcases hprogress with h | h
    · refine ⟨h.write hput, ?_⟩
      rw [h.same] at hfits
      exact hfits
    · refine ⟨Or.inr (h.write hput), ?_⟩
      rw [h.tracks.accepted] at hfits
      exact hfits

/-- The operation programs the halfword at `a`. -/
def programsAt (a : ℕ) : Op → Bool
  | .program x _ => decide (x = a)
  | .erase _ _ => false

theorem countP_programsAt_eq_zero {plan : List Op} {a : ℕ}
    (h : ∀ o ∈ plan, ∀ v, o ≠ .program a v) : plan.countP (programsAt a) = 0 := by
  rw [List.countP_eq_zero]
  intro o ho hprog
  cases o with
  | erase => exact absurd hprog (by simp [programsAt])
  | program x v =>
    have hx : x = a := by simpa [programsAt] using hprog
    exact h _ ho v (by rw [hx])

/-- Each halfword of a stretch is programmed once. -/
theorem countP_programOps (a base : ℕ) (bytes : List UInt8) :
    (programOps base bytes).countP (programsAt a) ≤ 1 := by
  induction base, bytes using programOps.induct with
  | case1 base lo hi bytes ih =>
    rw [programOps, List.countP_append]
    by_cases hbase : a = base
    · have hrest : (programOps (base + 2) bytes).countP (programsAt a) = 0 := by
        refine countP_programsAt_eq_zero fun o ho v heq => ?_
        obtain ⟨x, w, hox, hx, -⟩ := mem_programOps ho
        cases hox.symm.trans heq
        omega
      have hone : (halfOps base (le16 lo hi)).countP (programsAt a) ≤ 1 := by
        have hlen : (halfOps base (le16 lo hi)).length ≤ 1 := by
          unfold halfOps
          split
          · exact Nat.zero_le _
          · exact Nat.le_refl _
        exact Nat.le_trans List.countP_le_length hlen
      omega
    · have hfirst : (halfOps base (le16 lo hi)).countP (programsAt a) = 0 := by
        refine countP_programsAt_eq_zero fun o ho v heq => ?_
        cases (mem_halfOps.mp ho).1.symm.trans heq
        exact hbase rfl
      omega
  | case2 bytes base hbytes =>
    rcases bytes with - | ⟨b, - | ⟨hi, bytes⟩⟩
    · exact Nat.zero_le _
    · simp [programOps]
    · exact absurd rfl (hbytes b hi bytes)

/-- The start of a candidate programs nothing of its payload. -/
theorem countP_start {slot generation a : ℕ} (ha : slot + offsetPayload ≤ a) :
    (startPlan slot generation crc).countP (programsAt a) = 0 := by
  refine countP_programsAt_eq_zero fun o ho v heq => ?_
  rcases List.mem_cons.mp ho with rfl | ho
  · exact nomatch heq
  · obtain ⟨x, w, hox, -, hx, -⟩ := mem_programOps ho
    cases hox.symm.trans heq
    rw [length_metadataBytes] at hx
    unfold offsetPayload at ha
    omega

/-- Everything but the byte that waited last. -/
def forgetPending (r : Ram) : Ram := { r with candidate := { r.candidate with pendingByte := 0 } }

/-- The RAM in which a changed candidate is complete. -/
def completeRam (m : Machine Ram) (crc : UInt32) : Ram :=
  { m.ram with candidate :=
    { slotAddress := otherSlot m.ram.activeRecord
      generation := nextGeneration m.ram.activeRecord
      payloadCrc32 := crc, acceptedBytes := configBytes, active := true } }

/-- A candidate is complete once all eight bytes are stored. -/
theorem Stored.complete (h : Stored crc m bytes m') (hall : bytes.length = configBytes) :
    Complete m'.ram.candidate ∧ forgetPending m'.ram = completeRam m crc := by
  have hacc : m'.ram.candidate.acceptedBytes = configBytes := h.tracks.accepted.trans hall
  have hpend : m'.ram.candidate.pendingValid = false := by
    have hodd := h.tracks.odd
    rw [hall] at hodd
    simpa [configBytes] using hodd
  have hcmp := h.compareActive
  have hact : m'.ram.candidate.active = true := h.kept.active
  have hslot : m'.ram.candidate.slotAddress = otherSlot m.ram.activeRecord := h.kept.slotAddress
  have hgen : m'.ram.candidate.generation = nextGeneration m.ram.activeRecord := h.kept.generation
  have hcrc : m'.ram.candidate.payloadCrc32 = crc := h.kept.payloadCrc32
  refine ⟨⟨hact, hacc, hcmp, hpend⟩, ?_⟩
  have hram := h.ram
  obtain ⟨c, hc⟩ : ∃ c, c = m'.ram.candidate := ⟨_, rfl⟩
  rw [← hc] at hram hacc hpend hcmp hact hslot hgen hcrc
  obtain ⟨slot, generation, crc', accepted, byte, pending, compare, active⟩ := c
  subst hacc hpend hcmp hact hslot hgen hcrc
  rw [hram]
  rfl

theorem commitOutcome_forgetPending (slot : ℕ) (f : Mem) (r : Ram) :
    (commitOutcome slot f (forgetPending r)).1 = (commitOutcome slot f r).1 ∧
      (commitOutcome slot f (forgetPending r)).2.1 = (commitOutcome slot f r).2.1 ∧
      (commitOutcome slot f (forgetPending r)).2.2 = forgetPending (commitOutcome slot f r).2.2 := by
  unfold commitOutcome
  split
  · exact ⟨rfl, rfl, rfl⟩
  · simp only
    split
    · exact ⟨rfl, rfl, rfl⟩
    · exact ⟨rfl, rfl, rfl⟩

theorem commitOutcome_ne_unchanged (slot : ℕ) (f : Mem) (r : Ram) :
    (commitOutcome slot f r).1 ≠ .unchanged := by
  unfold commitOutcome
  split
  next e he => exact fun h => validateRecord_error he (Or.inr h)
  · simp only
    split
    next e he => exact fun h => validateRecord_error he (Or.inr h)
    · simp

end Calls

/-! ## The statement -/

/-- Outside compare mode: the candidate holds an odd last byte, and the ones
before it are on flash. -/
structure InBetween (m' : Machine Ram) (bytes : List UInt8) : Prop where
  accepted : m'.ram.candidate.acceptedBytes = bytes.length
  pending : m'.ram.candidate.pendingValid = true ↔ m'.ram.candidate.acceptedBytes % 2 = 1
  programmed : m'.flash.bytes (m'.ram.candidate.slotAddress + offsetPayload)
      (2 * (m'.ram.candidate.acceptedBytes / 2)) =
    bytes.take (2 * (m'.ram.candidate.acceptedBytes / 2))
  rest : m'.flash.Blank
    (m'.ram.candidate.slotAddress + offsetPayload + 2 * (m'.ram.candidate.acceptedBytes / 2))
    (configBytes - 2 * (m'.ram.candidate.acceptedBytes / 2))

/-- A commit of all the bytes `bytes`, from `m'`: the calls began at `m`, and
the commit answers `r` and leaves `m''`. -/
structure Finished (crc : UInt32) (m : Machine Ram) (bytes : List UInt8) (m' : Machine Ram)
    (r : Result) (m'' : Machine Ram) : Prop where
  /-- UNCHANGED is answered, with nothing erased or programmed since the
  begin, where the active record is declared the same and stores the same. -/
  unchanged : r = .unchanged ∧ m''.log = m.log ↔
    ∃ record, m.ram.activeRecord = some record ∧ record.payloadCrc32 = crc ∧
      payload m.flash record.slotAddress = bytes
  idle : r = .unchanged → m''.log = m.log ∧ m''.flash = m.flash
  /-- The slot of a candidate that was started holds the bytes, and no
  halfword of them was programmed twice. -/
  started : m'.ram.candidate.compareActive = false →
    payload m'.flash m'.ram.candidate.slotAddress = bytes ∧
      payload m''.flash m'.ram.candidate.slotAddress = bytes ∧
      ∃ es, m''.log = m.log ++ es ∧
        ∀ a, m'.ram.candidate.slotAddress + offsetPayload ≤ a →
          a < m'.ram.candidate.slotAddress + offsetPayload + configBytes →
          (es.map Entry.op).countP (programsAt a) ≤ 1

/-- The same flash, by the same operations, and the same RAM, but for the
byte that the candidate last had waiting. -/
structure SameOutcome (m₁ m₂ : Machine Ram) : Prop where
  flash : m₁.flash = m₂.flash
  operations : m₁.log.map Entry.op = m₂.log.map Entry.op
  ram : forgetPending m₁.ram = forgetPending m₂.ram

/-- How the payload `bytes` is stored and committed does not depend on how
it is cut. -/
structure ChunkingIndependent (m : Machine Ram) (crc : UInt32) (bytes : List UInt8) : Prop where
  /-- Every way to cut it can be sent, unless the active record is worn out
  and another. -/
  sent : (WornOut m.ram.activeRecord → Unchanged m crc bytes) → ∀ chunks,
    chunks.flatten = bytes → (∀ data ∈ chunks, data ≠ []) → ∃ m', Sent crc m chunks m'
  between : ∀ chunks m', Sent crc m chunks m' → m'.ram.candidate.compareActive = false →
    InBetween m' chunks.flatten
  committed : ∀ chunks m', Sent crc m chunks m' → chunks.flatten = bytes →
    ∃ r m'', commitCandidate m' = .ok r m'' ∧ Finished crc m bytes m' r m''
  agree : ∀ chunks₁ chunks₂ m₁ m₂, Sent crc m chunks₁ m₁ → Sent crc m chunks₂ m₂ →
    chunks₁.flatten = bytes → chunks₂.flatten = bytes →
    ∃ r m₁' m₂', commitCandidate m₁ = .ok r m₁' ∧ commitCandidate m₂ = .ok r m₂' ∧
      SameOutcome m₁' m₂'

section Statement

variable {crc : UInt32} {m m' : Machine Ram} {bytes : List UInt8}

theorem Stored.inBetween (h : Stored crc m bytes m') (hle : bytes.length ≤ configBytes) :
    InBetween m' bytes := by
  have hslot : m'.ram.candidate.slotAddress = otherSlot m.ram.activeRecord := h.kept.slotAddress
  refine ⟨h.tracks.accepted, ?_, ?_, ?_⟩
  · rw [h.tracks.accepted]
    exact h.tracks.odd
  · rw [hslot, h.tracks.accepted]
    exact h.bytes_eq hle
  · rw [hslot, h.tracks.accepted]
    exact h.blank_rest

/-- The commit in compare mode: nothing has changed. -/
theorem Compared.commit (h : Compared crc m bytes m') (hall : bytes.length = configBytes) :
    ∃ c, commitCandidate m' = .ok .unchanged { m with ram := { m.ram with candidate := c } } := by
  rw [h.same]
  refine ⟨{ comparing m.ram.candidate crc with acceptedBytes := bytes.length, active := false }, ?_⟩
  rw [hall]
  rfl

/-- The commit of a changed candidate: its outcome is that of the flash and
the RAM that the bytes alone decide. -/
theorem Stored.commit (h : Stored crc m bytes m') (hcalm : Calm m)
    (hall : bytes.length = configBytes) {out : Result × List Op × Ram}
    (hout : out = commitOutcome (otherSlot m.ram.activeRecord)
      (applyAll (storePlan m.ram.activeRecord crc bytes) m.flash) (completeRam m crc)) :
    ∃ m'', commitCandidate m' = .ok out.1 m'' ∧
      m''.flash = applyAll out.2.1 m'.flash ∧ forgetPending m''.ram = out.2.2 ∧
      ∃ es, m''.log = m.log ++ es ∧
        es.map Entry.op = storePlan m.ram.activeRecord crc bytes ++ out.2.1 := by
  obtain ⟨hcomplete, hram⟩ := h.complete hall
  have hslot : m'.ram.candidate.slotAddress = otherSlot m.ram.activeRecord := h.kept.slotAddress
  obtain ⟨m'', hrun, hflash, hram'', es, hlog, hops⟩ := commit_calm (h.ran.calm hcalm) hcomplete
    (by rw [hslot]; exact otherSlot_cases _) (by rw [hslot]; exact h.blank)
  obtain ⟨h1, h2, h3⟩ :=
    commitOutcome_forgetPending (otherSlot m.ram.activeRecord) m'.flash m'.ram
  rw [hram] at h1 h2 h3
  rw [← h.ran.flash] at hout
  rw [hslot] at hrun hflash hram'' hops
  rw [← h1, ← hout] at hrun
  rw [← h2, ← hout] at hflash hops
  obtain ⟨es', hlog', hops', -⟩ := h.ran.log
  refine ⟨m'', hrun, hflash, ?_, es' ++ es, ?_, ?_⟩
  · rw [hram'', ← h3, hout]
  · rw [hlog, hlog', List.append_assoc]
  · rw [List.map_append, hops', hops]

/-- What is stored behind the header and before the payload leaves the
payload. -/
theorem payload_commit {slot : ℕ} {f f' : Mem} {r : Ram}
    (hflash : f' = applyAll (commitOutcome slot f r).2.1 f) : payload f' slot = payload f slot := by
  refine Mem.bytes_congr fun i _ => ?_
  rw [hflash, applyAll_of_not_covers]
  intro o ho hx
  obtain ⟨x, v, rfl, -, hle⟩ := commitOutcome_plan slot f r o ho
  simp only [Op.Covers] at hx
  omega

/-- **A candidate that is complete is finished** by its commit, as a matter of
its bytes and its declared CRC. -/
theorem Stored.finished (h : Stored crc m bytes m') (hcalm : Calm m)
    (hall : bytes.length = configBytes) :
    ∃ r m'', commitCandidate m' = .ok r m'' ∧ Finished crc m bytes m' r m'' := by
  obtain ⟨m'', hrun, hflash, -, es, hlog, hops⟩ := h.commit hcalm hall rfl
  have hslot : m'.ram.candidate.slotAddress = otherSlot m.ram.activeRecord := h.kept.slotAddress
  have hne := commitOutcome_ne_unchanged (otherSlot m.ram.activeRecord)
    (applyAll (storePlan m.ram.activeRecord crc bytes) m.flash) (completeRam m crc)
  have hbytes : payload m'.flash m'.ram.candidate.slotAddress = bytes := by
    have heq := h.bytes_eq (Nat.le_of_eq hall)
    have heven : 2 * (configBytes / 2) = configBytes := rfl
    rw [hall, heven, ← hall, List.take_length, hall] at heq
    rw [hslot]
    exact heq
  refine ⟨_, m'', hrun, ⟨fun hun => absurd hun.1 hne, fun hun => absurd ?_ h.changed⟩,
    fun hun => absurd hun hne, fun _ => ⟨hbytes, ?_, es, hlog, fun a ha _ => ?_⟩⟩
  · rw [Unchanged, hall]
    exact hun
  · rw [← h.ran.flash] at hflash
    rw [hslot, payload_commit hflash, ← hslot, hbytes]
  · rw [hslot] at ha
    -- neither the header nor the commit programs in the payload
    have hcommit : ∀ {f : Mem} {r : Ram},
        (commitOutcome (otherSlot m.ram.activeRecord) f r).2.1.countP (programsAt a) = 0 := by
      intro f r
      refine countP_programsAt_eq_zero fun o ho v heq => ?_
      obtain ⟨x, w, hox, -, hle⟩ := commitOutcome_plan _ f r o ho
      cases hox.symm.trans heq
      omega
    rw [hops, storePlan, List.countP_append, List.countP_append, countP_start ha, hcommit]
    have hone := countP_programOps a (otherSlot m.ram.activeRecord + offsetPayload) bytes
    omega

/-- **With the flash working, every chunk is taken,** however the payload is
cut. -/
theorem sent_total (hcalm : Calm m) (hidle : m.ram.candidate.active = false)
    (hrecord : ∀ record, m.ram.activeRecord = some record →
      record.slotAddress = slotA ∨ record.slotAddress = slotB)
    {chunks : List (List UInt8)} (hne : ∀ data ∈ chunks, data ≠ [])
    (hfits : chunks.flatten.length ≤ configBytes)
    (hworn : WornOut m.ram.activeRecord → Unchanged m crc chunks.flatten) :
    ∃ m', Sent crc m chunks m' := by
  -- chunk by chunk, the last one last
  induction chunks using List.reverseRecOn with
  | nil =>
    obtain ⟨m', hrun⟩ := begin_total hcalm hidle hworn
    exact ⟨m', .begun hrun⟩
  | append_singleton chunks data ih =>
    have hflat : (chunks ++ [data]).flatten = chunks.flatten ++ data := by simp
    rw [hflat] at hfits hworn
    have hlen : (chunks.flatten ++ data).length = chunks.flatten.length + data.length :=
      List.length_append
    obtain ⟨m₁, hsent⟩ := ih (fun d hd => hne d (List.mem_append_left _ hd)) (by omega)
      fun hw => (hworn hw).of_append
    obtain ⟨m', hrun⟩ := write_total hcalm hrecord (hsent.progress hrecord).1 hfits hworn
    exact ⟨m', .wrote hsent (hne data (by simp)) hrun⟩

/-- **Chunking does not matter.** With the flash working, for every payload,
every way to cut it, every active record and every declared CRC: the commit
answers the same and leaves the same, the candidate's slot holds the
payload, and UNCHANGED is answered for the payload that is active already. -/
theorem chunking_independence (hcalm : Calm m) (hidle : m.ram.candidate.active = false)
    (hrecord : ∀ record, m.ram.activeRecord = some record →
      record.slotAddress = slotA ∨ record.slotAddress = slotB)
    (hall : bytes.length = configBytes) : ChunkingIndependent m crc bytes where
  sent := by
    rintro hworn chunks rfl hne
    exact sent_total hcalm hidle hrecord hne (Nat.le_of_eq hall) hworn
  between := by
    intro chunks m' hsent hcmp
    obtain ⟨h | h, hle⟩ := hsent.progress hrecord
    · rw [h.same] at hcmp
      exact absurd hcmp (by simp [comparing])
    · exact h.inBetween hle
  committed := by
    rintro chunks m' hsent rfl
    obtain ⟨h | h, hle⟩ := hsent.progress hrecord
    · obtain ⟨c, hrun⟩ := h.commit hall
      have hun := h.unchanged
      rw [Unchanged, hall] at hun
      refine ⟨_, _, hrun, ⟨fun _ => hun, fun _ => ⟨rfl, rfl⟩⟩, fun _ => ⟨rfl, rfl⟩, fun hcmp => ?_⟩
      rw [h.same] at hcmp
      exact absurd hcmp (by simp [comparing])
    · exact h.finished hcalm hall
  agree := by
    rintro chunks₁ chunks₂ m₁ m₂ hsent₁ hsent₂ rfl hflat
    have h₁ := (hsent₁.progress hrecord).1
    have h₂ := (hsent₂.progress hrecord).1
    rw [hflat] at h₂
    by_cases hun : Unchanged m crc chunks₁.flatten
    · -- in compare mode both are one state
      have h₁ := h₁.resolve_right fun h => h.changed hun
      have h₂ := h₂.resolve_right fun h => h.changed hun
      obtain ⟨c, hrun⟩ := h₁.commit hall
      have hsame : m₂ = m₁ := h₂.same.trans h₁.same.symm
      rw [hsame]
      exact ⟨_, _, _, hrun, hrun, rfl, rfl, rfl⟩
    · have h₁ := h₁.resolve_left fun h => hun h.unchanged
      have h₂ := h₂.resolve_left fun h => hun h.unchanged
      obtain ⟨m₁', hrun₁, hflash₁, hram₁, es₁, hlog₁, hops₁⟩ := h₁.commit hcalm hall rfl
      obtain ⟨m₂', hrun₂, hflash₂, hram₂, es₂, hlog₂, hops₂⟩ := h₂.commit hcalm hall rfl
      refine ⟨_, m₁', m₂', hrun₁, hrun₂, ?_, ?_, hram₁.trans hram₂.symm⟩
      · rw [hflash₁, hflash₂, h₁.ran.flash, h₂.ran.flash]
      · rw [hlog₁, hlog₂, List.map_append, List.map_append, hops₁, hops₂]

/-- The theorem at the erased device, and a payload whose CRC is not the
declared one. -/
theorem chunking_independence_of_erased :
    ChunkingIndependent erasedDevice 0x12345678 [1, 2, 8, 120, 20, 0, 0, 0] :=
  chunking_independence ⟨fun _ => rfl, fun _ h => absurd h.1 (by decide)⟩ rfl (fun _ h => nomatch h)
    rfl

end Statement

end DeusOs.Asset
