import DeusOs.Asset.Discipline

/-!
# The two slots, in every state

Whatever calls are made on the candidate, and wherever a reset strikes:
the active record's slot is left alone, and of two valid slots one is the
record before the other. At the last generation, nothing is written.
-/

namespace DeusOs.Asset

open Nor

section Worn

variable {m m' : Machine Ram} {crc : UInt32} {data : List UInt8}

/-! ## At the last generation -/

/-- Where the active record may not be replaced, a write stores nothing. -/
theorem worn_put {r : Option Result} (hworn : WornOut m.ram.activeRecord) (h : Discipline m)
    (hused : m.ram.candidate.compareActive = false → m.ram.candidate.slotAddress ≠ 0)
    (hstep : PutStep data m r m') : Quiet m m' := by
  cases hstep with
  | refused => exact ⟨rfl, rfl⟩
  | compared => exact ⟨rfl, rfl⟩
  | wornOut => exact ⟨rfl, rfl⟩
  | started _ _ _ _ _ hnot => exact absurd hworn hnot
  | startFailed _ _ _ _ hnot => exact absurd hworn hnot
  | startCut _ _ _ _ hnot => exact absurd hworn hnot
  | stored hact hcmp hfits hwrite =>
    cases h.staged with
    | comparing hcmp' => exact absurd (hcmp.symm.trans hcmp') (by simp)
    | unused _ hslot => exact absurd hslot (hused hcmp)
    | fresh _ hnot => exact absurd hworn hnot
    | done _ _ _ hacc hpend =>
      exact stored_done hpend (List.eq_nil_of_length_eq_zero (by omega)) hwrite
    | dropped _ hnot => exact absurd hworn hnot

theorem worn_start {r : Option Result} (hworn : WornOut m.ram.activeRecord)
    (hstep : StartStep m r m') : r = some .wearBudgetExhausted ∧ Quiet m m' := by
  cases hstep with
  | wornOut => exact ⟨rfl, rfl, rfl⟩
  | started hnot => exact absurd hworn hnot
  | failed hnot => exact absurd hworn hnot
  | cut hnot => exact absurd hworn hnot

/-- **Where the active record may not be replaced, no call touches the
flash.** -/
theorem worn_call (h : Discipline m) (hworn : WornOut m.ram.activeRecord) (c : Call) :
    wp c.run (fun _ m' => Quiet m m') (Quiet m) m := by
  cases c with
  | begin crc =>
    have hquiet : ∀ {r : Option Result} {m' : Machine Ram}, BeginStep crc m r m' → Quiet m m' := by
      intro r m' hstep
      cases hstep with
      | refused => exact ⟨rfl, rfl⟩
      | comparing => exact ⟨rfl, rfl⟩
      | starting _ _ hstart =>
        exact (worn_start (m := { m with ram := declared m.ram crc }) hworn hstart).2
    exact wp_mono (beginCandidate_wp crc m) (fun _ _ => hquiet) fun _ => hquiet
  | write data =>
    rcases h.put data with hput | hquiet
    · exact wp_mono hput.2 (fun _ _ => worn_put hworn h hput.1) fun _ => worn_put hworn h hput.1
    · exact wp_mono hquiet (fun _ _ hq => hq.quiet) fun _ => False.elim
  | commit =>
    by_cases hcomplete : Complete m.ram.candidate
    · rcases h.staged.of_complete hcomplete with ⟨r, hrec, hslot⟩ | ⟨hnot, -⟩
      · exact wp_mono (commit_done h hrec hslot) (fun _ _ hi => hi.quiet) fun _ hq => hq
      · exact absurd hworn hnot
    · exact wp_mono (commit_incomplete hcomplete) (fun _ _ hi => hi.quiet) fun _ hq => hq
  | abort =>
    simp only [Call.run, abortCandidate, candidateReset, modifyCandidate, wp_bind, wp_modifyRam,
      wp_pure]
    exact ⟨rfl, rfl⟩

/-- **A changed candidate is refused at its begin** behind the last generation,
before any operation is issued. -/
theorem begin_worn (hworn : WornOut m.ram.activeRecord) (hidle : m.ram.candidate.active = false)
    (hcrc : m.ram.activeRecord.map Record.payloadCrc32 ≠ some crc) :
    ∃ m', (Call.begin crc).run m = .ok .wearBudgetExhausted m' := by
  have hanswer : ∀ {r : Option Result} {m' : Machine Ram}, BeginStep crc m r m' →
      r = some .wearBudgetExhausted := by
    intro r m' hstep
    cases hstep with
    | refused hact => exact absurd (hidle.symm.trans hact) (by simp)
    | comparing _ hsame => exact absurd hsame hcrc
    | starting _ _ hstart =>
      exact (worn_start (m := { m with ram := declared m.ram crc }) hworn hstart).1
  obtain ⟨r, m', hrun, hstep⟩ :=
    wp_returned (beginCandidate_wp crc m) fun _ hstep => nomatch hanswer hstep
  obtain rfl := Option.some.inj (hanswer hstep)
  exact ⟨m', hrun⟩

/-- **A candidate that differs is refused at its first byte that does** behind
the last generation, before any operation is issued. -/
theorem write_worn {record : Record} (hworn : WornOut m.ram.activeRecord)
    (hact : m.ram.candidate.active = true) (hcmp : m.ram.candidate.compareActive = true)
    (hrec : m.ram.activeRecord = some record)
    (hslot : record.slotAddress = slotA ∨ record.slotAddress = slotB)
    (hfits : m.ram.candidate.acceptedBytes + data.length ≤ configBytes)
    (hdiff : m.flash.bytes (record.slotAddress + offsetPayload + m.ram.candidate.acceptedBytes)
      data.length ≠ data) :
    ∃ m', (Call.write data).run m = .ok .wearBudgetExhausted m' := by
  have hanswer : ∀ {r : Option Result} {m' : Machine Ram}, PutStep data m r m' →
      r = some .wearBudgetExhausted := by
    intro r m' hstep
    cases hstep with
    | refused href =>
      rcases href with hidle | hlong
      · exact absurd (hidle.symm.trans hact) (by simp)
      · omega
    | compared _ _ hrec' _ hsame =>
      obtain rfl := Option.some.inj (hrec.symm.trans hrec')
      exact absurd hsame hdiff
    | wornOut => rfl
    | started _ _ _ _ _ hnot => exact absurd hworn hnot
    | startFailed _ _ _ _ hnot => exact absurd hworn hnot
    | startCut _ _ _ _ hnot => exact absurd hworn hnot
    | stored _ hcmp' => exact absurd (hcmp'.symm.trans hcmp) (by simp)
  have hwp := writeCandidate_wp data m (fun _ => ⟨record, hrec, hslot⟩)
    fun hcmp' => absurd (hcmp'.symm.trans hcmp) (by simp)
  obtain ⟨r, m', hrun, hstep⟩ := wp_returned hwp fun _ hstep => nomatch hanswer hstep
  obtain rfl := Option.some.inj (hanswer hstep)
  exact ⟨m', hrun⟩

end Worn

/-! ## The two slots -/

/-- At the last generation, nothing is written, and a changed candidate is
told so. -/
structure Rejects (m : Machine Ram) : Prop where
  quiet : ∀ c : Call, wp c.run (fun _ m' => Quiet m m') (Quiet m) m
  begin : ∀ crc : UInt32, m.ram.candidate.active = false →
    m.ram.activeRecord.map Record.payloadCrc32 ≠ some crc →
    ∃ m', (Call.begin crc).run m = .ok .wearBudgetExhausted m'
  write : ∀ (record : Record) (data : List UInt8), m.ram.activeRecord = some record →
    m.ram.candidate.active = true → m.ram.candidate.compareActive = true →
    m.ram.candidate.acceptedBytes + data.length ≤ configBytes →
    m.flash.bytes (record.slotAddress + offsetPayload + m.ram.candidate.acceptedBytes)
      data.length ≠ data →
    ∃ m', (Call.write data).run m = .ok .wearBudgetExhausted m'

/-- What holds of the two slots between two calls. -/
structure TwoSlots (m : Machine Ram) : Prop where
  /-- No operation was issued on the slot of the active record. -/
  spared : Spared m.log
  /-- Of two valid slots, the active record is the next after the other. -/
  newer : ∀ a b, Holds m.flash slotA a → Holds m.flash slotB b →
    a.generation = b.generation + 1 ∧ m.ram.activeRecord = some a ∨
      b.generation = a.generation + 1 ∧ m.ram.activeRecord = some b
  /-- No generation is past the last. -/
  bounded : m.ram.candidate.generation ≤ generationMax ∧
    ∀ r, m.ram.activeRecord = some r ∨ Holds m.flash slotA r ∨ Holds m.flash slotB r →
      r.generation ≤ generationMax
  /-- At the last generation, whatever the fates to come. -/
  rejects : WornOut m.ram.activeRecord → ∀ tape, Rejects { m with tape := tape }

/-- **Whatever calls are made, and wherever a reset strikes,** the active
record's slot is left alone; of two records the active one is the newer, by
one generation; no generation exceeds the last one; and behind that one
nothing is begun, and no call touches the flash. -/
theorem two_slots {m : Machine Ram} (h : Lived m) : TwoSlots m where
  spared := (discipline_of_lived h).spared
  newer _ _ ha hb := (discipline_of_lived h).slots.newer ha hb
  bounded := by
    refine ⟨(discipline_of_lived h).generation, fun r hr => ?_⟩
    have hmax : ∀ {slot : ℕ}, Holds m.flash slot r → r.generation ≤ generationMax :=
      fun hholds => (validateRecord_ok hholds).2.2.1
    rcases hr with hr | hr | hr
    · exact hmax ((discipline_of_lived h).slots.record r hr).2
    · exact hmax hr
    · exact hmax hr
  rejects hworn tape := by
    have hd := discipline_of_lived h
    have h' : Discipline { m with tape := tape } := ⟨hd.slots, hd.staged, hd.spared, hd.generation⟩
    refine ⟨fun c => worn_call h' hworn c, fun crc hidle hcrc => begin_worn hworn hidle hcrc, ?_⟩
    intro record data hrec hact hcmp hfits hdiff
    exact write_worn hworn hact hcmp hrec (h'.slots.record record hrec).1 hfits hdiff

/-- A first layout, given its bytes and committed. -/
def firstCommitted : Machine Ram :=
  (Call.commit.done ((Call.write [1, 1, 10, 126, 22, 0, 0, 0]).done
    ((Call.begin 0x9DF4A1C8).done erasedDevice).2).2).2

/-- And a second, over it. -/
def secondCommitted : Machine Ram :=
  (Call.commit.done ((Call.write [1, 2, 10, 120, 22, 0, 0, 0]).done
    ((Call.begin 0x235C4EF5).done firstCommitted).2).2).2

set_option maxRecDepth 20000 in
theorem lived_firstCommitted : Lived firstCommitted := by
  have hbegun := lived_erasedDevice.done (.begin 0x9DF4A1C8)
    (show _ = some Result.ok by decide +kernel)
  have hwritten := hbegun.done (.write [1, 1, 10, 126, 22, 0, 0, 0])
    (show _ = some Result.ok by decide +kernel)
  exact hwritten.done .commit (show _ = some Result.ok by decide +kernel)

set_option maxRecDepth 20000 in
theorem lived_secondCommitted : Lived secondCommitted := by
  have hbegun := lived_firstCommitted.done (.begin 0x235C4EF5)
    (show _ = some Result.ok by decide +kernel)
  have hwritten := hbegun.done (.write [1, 2, 10, 120, 22, 0, 0, 0])
    (show _ = some Result.ok by decide +kernel)
  exact hwritten.done .commit (show _ = some Result.ok by decide +kernel)

set_option maxRecDepth 20000 in
/-- Both layouts are on the flash then, the second one active. -/
theorem two_slots_second_commit : TwoSlots secondCommitted ∧
    Holds secondCommitted.flash slotA ⟨slotA, 1, 0x9DF4A1C8⟩ ∧
    Holds secondCommitted.flash slotB ⟨slotB, 2, 0x235C4EF5⟩ ∧
    secondCommitted.ram.activeRecord = some ⟨slotB, 2, 0x235C4EF5⟩ :=
  ⟨two_slots lived_secondCommitted, by decide +kernel, by decide +kernel, by decide +kernel⟩

end DeusOs.Asset
