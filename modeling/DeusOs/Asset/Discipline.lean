import DeusOs.Asset.Slots

/-!
# The discipline of the candidate

Between two calls on the candidate, the active record is in its slot, and
the other slot holds the record before it at most (`Discipline`); a reset
inside a call leaves a flash from which the boot restores that
(`Recoverable`). The flash operations say whether they took effect.
-/

namespace DeusOs.Asset

open Nor

/-! ## Runs -/

/-- A call on the candidate. -/
inductive Call
  | begin (payloadCrc32 : UInt32)
  | write (data : List UInt8)
  | commit
  | abort

/-- The call, with its answer. -/
def Call.run : Call → Prog Ram Result
  | .begin payloadCrc32 => beginCandidate payloadCrc32
  | .write data => writeCandidate data
  | .commit => commitCandidate
  | .abort => do
    abortCandidate
    pure .ok

/-- The states of a device that began with erased slots. Calls find flash
operations that say whether they took effect; a reset strikes between two
of them, or between two calls, and the device boots from the flash. -/
inductive Lived : Machine Ram → Prop
  | erased {flash : Mem} (tape : ℕ → Option Outcome) : flash.Blank slotA pageSize →
      flash.Blank slotB pageSize → Lived ⟨flash, boot flash, [], tape⟩
  | call {m m' : Machine Ram} {r : Result} (c : Call) (tape : ℕ → Option Outcome) : Lived m →
      Honest { m with tape := tape } → c.run { m with tape := tape } = .ok r m' → Lived m'
  | cut {m m' : Machine Ram} (c : Call) (tape : ℕ → Option Outcome) : Lived m →
      Honest { m with tape := tape } → c.run { m with tape := tape } = .error () m' →
      Lived { m' with ram := boot m'.flash }
  | reset {m : Machine Ram} : Lived m → Lived { m with ram := boot m.flash }
  | arm {m : Machine Ram} (control : UInt32) : Lived m →
      Lived { m with ram := { m.ram with faultControl := control } }

/-- A call on flash operations that work. -/
def Call.done (c : Call) (m : Machine Ram) : Option Result × Machine Ram :=
  outcome c.run { m with tape := goodTape }

/-- The erased device has been lived with. -/
theorem lived_erasedDevice : Lived erasedDevice :=
  .erased goodTape (fun _ _ => rfl) fun _ _ => rfl

/-- A device lives on through a call that answers. -/
theorem Lived.done {m : Machine Ram} {r : Result} (h : Lived m) (c : Call)
    (hanswer : (c.done m).1 = some r) : Lived (c.done m).2 :=
  .call c goodTape h (fun _ _ hx => by obtain rfl := Option.some.inj hx; rfl)
    (run_of_outcome hanswer)

/-! ## The invariant -/

/-- The active record is on flash, and any other there is the one before. -/
structure Backed (f : Mem) (active : Option Record) : Prop where
  record : ∀ r, active = some r →
    (r.slotAddress = slotA ∨ r.slotAddress = slotB) ∧ Holds f r.slotAddress r
  older : ∀ slot, (slot = slotA ∨ slot = slotB) → ∀ r', Holds f slot r' →
    ∃ r, active = some r ∧ (r' = r ∨ r.generation = r'.generation + 1)

/-- Two valid slots are one generation apart. -/
def OneApart (f : Mem) : Prop :=
  ∀ a b, Holds f slotA a → Holds f slotB b →
    a.generation = b.generation + 1 ∨ b.generation = a.generation + 1

/-- No operation was issued on the active record's slot. -/
def Spared (log : List (Entry Ram)) : Prop :=
  ∀ e ∈ log, ∀ r, e.ram.activeRecord = some r → ∀ x, e.op.Covers x →
    x < r.slotAddress ∨ r.slotAddress + pageSize ≤ x

/-- What the candidate's fields are, between two calls. They survive the
candidate they were written for. -/
inductive Staged (f : Mem) (active : Option Record) (c : Candidate) : Prop
  /-- Compare mode. -/
  | comparing {r : Record} : c.compareActive = true → active = some r → Staged f active c
  /-- As the boot left them: no slot was started. -/
  | unused : c.compareActive = false → c.slotAddress = 0 →
      (c.acceptedBytes = 0 ∧ c.pendingValid = false ∨
        c.acceptedBytes = 1 ∧ c.pendingValid = true) → Staged f active c
  /-- The other slot is started, and not marked. -/
  | fresh : c.compareActive = false → ¬ WornOut active → c.slotAddress = otherSlot active →
      c.generation = nextGeneration active →
      f.bytes c.slotAddress 24 = metadataBytes c.generation c.payloadCrc32 →
      f.half (c.slotAddress + offsetMarker) = 0xFFFF →
      (c.pendingValid = true → 1 ≤ c.acceptedBytes) → Staged f active c
  /-- The candidate has become the active record. -/
  | done {r : Record} : c.compareActive = false → active = some r →
      c.slotAddress = r.slotAddress → c.acceptedBytes = configBytes → c.pendingValid = false →
      Staged f active c
  /-- The start failed. -/
  | dropped : c.active = false → ¬ WornOut active → Staged f active c

/-- The slots, the candidate and the log, between two calls. -/
structure Discipline (m : Machine Ram) : Prop where
  slots : Backed m.flash m.ram.activeRecord
  staged : Staged m.flash m.ram.activeRecord m.ram.candidate
  spared : Spared m.log
  generation : m.ram.candidate.generation ≤ generationMax

/-- What a reset inside a call leaves. -/
structure Recoverable (m : Machine Ram) : Prop where
  apart : OneApart m.flash
  spared : Spared m.log

section Slots

variable {f f' : Mem} {active : Option Record}

/-- The generation that a candidate gets is one that a record may have. -/
theorem nextGeneration_le (h : ¬ WornOut active) : nextGeneration active ≤ generationMax := by
  rcases active with - | r
  · exact Nat.le_of_ble_eq_true rfl
  · by_contra hlt
    refine h ⟨r, rfl, ?_⟩
    simp only [nextGeneration] at hlt
    omega

/-- The active record is not in the other slot. -/
theorem Backed.slot_ne (h : Backed f active) {r : Record} (hr : active = some r) :
    r.slotAddress ≠ otherSlot active := by
  rw [hr]
  exact otherSlot_ne (h.record r hr).1

/-- A slot that is not the other one is the active record's, if there is
one. -/
theorem Backed.holds_old (h : Backed f active) (honly : OnlyIn (otherSlot active) f f')
    {slot : ℕ} (hslot : slot = slotA ∨ slot = slotB) (hne : slot ≠ otherSlot active)
    {r' : Record} (hholds : Holds f' slot r') : active = some r' := by
  have hold : Holds f slot r' := (honly.holds (otherSlot_cases active) hslot hne).mp hholds
  obtain ⟨r, hr, -⟩ := h.older slot hslot r' hold
  have hrslot := h.record r hr
  have hrne := h.slot_ne hr
  have hsame : r.slotAddress = slot := by
    have hother := otherSlot_cases active
    unfold slotA slotB at *
    omega
  rw [hr, hold.unique (hsame ▸ hrslot.2)]

/-- Whatever is done in the other slot, the active record stays in its own. -/
theorem Backed.active_kept (h : Backed f active) (honly : OnlyIn (otherSlot active) f f') :
    ∀ r, active = some r →
      (r.slotAddress = slotA ∨ r.slotAddress = slotB) ∧ Holds f' r.slotAddress r := by
  intro r hr
  obtain ⟨hslot, hholds⟩ := h.record r hr
  exact ⟨hslot, (honly.holds (otherSlot_cases active) hslot (h.slot_ne hr)).mpr hholds⟩

/-- The other slot is written to, and holds nothing. -/
theorem Backed.unmarked (h : Backed f active) (honly : OnlyIn (otherSlot active) f f')
    (hmark : f'.half (otherSlot active + offsetMarker) = 0xFFFF) : Backed f' active where
  record := h.active_kept honly
  older slot hslot r' hholds := by
    by_cases hother : slot = otherSlot active
    · subst hother
      exact absurd hholds (not_holds_of_unmarked hmark r')
    · exact ⟨r', h.holds_old honly hslot hother hholds, Or.inl rfl⟩

/-- The other slot holds the next record, and it becomes the active one. -/
theorem Backed.committed (h : Backed f active) (honly : OnlyIn (otherSlot active) f f')
    {record : Record} (hholds : Holds f' (otherSlot active) record)
    (hgen : record.generation = nextGeneration active) : Backed f' (some record) where
  record r hr := by
    obtain rfl := Option.some.inj hr
    rw [hholds.slotAddress]
    exact ⟨otherSlot_cases active, hholds⟩
  older slot hslot r' hr' := by
    refine ⟨record, rfl, ?_⟩
    by_cases hother : slot = otherSlot active
    · subst hother
      exact Or.inl (hr'.unique hholds)
    · right
      have hold := h.holds_old honly hslot hother hr'
      rw [hgen, hold]
      rfl

/-- Of two valid slots, the active record is the next after the other. -/
theorem Backed.newer (h : Backed f active) {a b : Record}
    (ha : Holds f slotA a) (hb : Holds f slotB b) :
    a.generation = b.generation + 1 ∧ active = some a ∨
      b.generation = a.generation + 1 ∧ active = some b := by
  obtain ⟨r, hr, hra⟩ := h.older slotA (Or.inl rfl) a ha
  obtain ⟨r', hr', hrb⟩ := h.older slotB (Or.inr rfl) b hb
  obtain rfl := Option.some.inj (hr.symm.trans hr')
  obtain ⟨hslot, hholds⟩ := h.record r hr
  rcases hslot with hslot | hslot
  · rw [hslot] at hholds
    obtain rfl := hholds.unique ha
    rcases hrb with rfl | hrb
    · exact absurd (hb.slotAddress.symm.trans hslot) (by decide)
    · exact Or.inl ⟨hrb, hr⟩
  · rw [hslot] at hholds
    obtain rfl := hholds.unique hb
    rcases hra with rfl | hra
    · exact absurd (ha.slotAddress.symm.trans hslot) (by decide)
    · exact Or.inr ⟨hra, hr⟩

/-- The records of the two slots are one generation apart. -/
theorem Backed.apart (h : Backed f active) : OneApart f :=
  fun _ _ ha hb => (h.newer ha hb).imp And.left And.left

/-- Inside a commit, whatever the other slot holds is the next record. -/
theorem Backed.apart_commit (h : Backed f active) (honly : OnlyIn (otherSlot active) f f')
    (hnext : ∀ r', Holds f' (otherSlot active) r' → r'.generation = nextGeneration active) :
    OneApart f' := by
  have hold : ∀ {slot slot' : ℕ} {r r' : Record}, (slot' = slotA ∨ slot' = slotB) →
      slot = otherSlot active → slot' ≠ otherSlot active → Holds f' slot r → Holds f' slot' r' →
      r.generation = r'.generation + 1 := by
    intro slot slot' r r' hslot' hother hne hr hr'
    subst hother
    rw [hnext r hr, h.holds_old honly hslot' hne hr']
    rfl
  intro a b ha hb
  rcases otherSlot_cases active with hother | hother
  · exact Or.inl (hold (Or.inr rfl) hother.symm (by rw [hother]; decide) ha hb)
  · exact Or.inr (hold (Or.inl rfl) hother.symm (by rw [hother]; decide) hb ha)

/-- **A boot takes the newer of two records.** They are one generation apart, so
one of them is newer. -/
theorem OneApart.boot (h : OneApart f) : Backed f (bootRecord f).1 := by
  refine ⟨fun r hr => ⟨bootRecord_slot hr, holds_bootRecord hr⟩, ?_⟩
  rintro slot (rfl | rfl) r' hr'
  · by_cases hother : ∃ b, Holds f slotB b
    · obtain ⟨b, hb⟩ := hother
      rcases h r' b hr' hb with hgen | hgen
      · refine ⟨r', bootRecord_of_left hr' fun b' hb' => ?_, Or.inl rfl⟩
        rw [hb'.unique hb]
        omega
      · refine ⟨b, bootRecord_of_right hb fun a ha => ?_, Or.inr hgen⟩
        rw [ha.unique hr']
        omega
    · exact ⟨r', bootRecord_of_left hr' fun b hb => absurd ⟨b, hb⟩ hother, Or.inl rfl⟩
  · by_cases hother : ∃ a, Holds f slotA a
    · obtain ⟨a, ha⟩ := hother
      rcases h a r' ha hr' with hgen | hgen
      · refine ⟨a, bootRecord_of_left ha fun b hb => ?_, Or.inr hgen⟩
        rw [hb.unique hr']
        omega
      · refine ⟨r', bootRecord_of_right hr' fun a' ha' => ?_, Or.inl rfl⟩
        rw [ha'.unique ha]
        omega
    · exact ⟨r', bootRecord_of_right hr' fun a ha => absurd ⟨a, ha⟩ hother, Or.inl rfl⟩

end Slots

/-! ## Calls on the other slot -/

section Calls

variable {m m' : Machine Ram} {crc : UInt32} {data : List UInt8}

/-- Work on the other slot spares the active record's. -/
theorem spared_broke (hslots : Backed m.flash m.ram.activeRecord) (hspared : Spared m.log)
    {plan : List Op} (hkeeps : KeepsTo (otherSlot m.ram.activeRecord) plan)
    (hbroke : Broke plan m m') :
    Spared m'.log ∧ OnlyIn (otherSlot m.ram.activeRecord) m.flash m'.flash := by
  obtain ⟨⟨j, hflash⟩, es, hlog, hops, hunder⟩ := hbroke
  refine ⟨?_, hflash ▸ (hkeeps.take j).onlyIn m.flash⟩
  rw [hlog]
  intro e he r hr x hx
  rcases List.mem_append.mp he with he | he
  · exact hspared e he r hr x hx
  · have hmem : e.op ∈ plan := hops.subset (List.mem_map_of_mem he)
    obtain ⟨hlow, hhigh⟩ := hkeeps e.op hmem x hx
    rw [hunder e he] at hr
    have hslot := (hslots.record r hr).1
    have hne := hslots.slot_ne hr
    have hother := otherSlot_cases m.ram.activeRecord
    unfold slotA slotB pageSize at *
    omega

/-- A plan that starts a slot and stores no marker. -/
structure Starts (slot : ℕ) (plan : List Op) : Prop where
  keeps : KeepsTo slot plan
  erases : ∃ rest, plan = .erase slot pageSize :: rest ∧
    ∀ o ∈ rest, ¬ o.Covers (slot + offsetMarker) ∧ ¬ o.Covers (slot + offsetMarker + 1)

/-- Once the slot is erased, its marker reads erased. -/
theorem Starts.half_marker {slot : ℕ} {plan : List Op} (h : Starts slot plan) (f : Mem) {j : ℕ}
    (hj : 0 < j) : (applyAll (plan.take j) f).half (slot + offsetMarker) = 0xFFFF := by
  obtain ⟨rest, rfl, hrest⟩ := h.erases
  obtain ⟨j, rfl⟩ : ∃ k, j = k + 1 := ⟨j - 1, by omega⟩
  rw [List.take_succ_cons, applyAll_cons, Mem.half_eq_ffff]
  have hblank : ((Op.erase slot pageSize).apply f).Blank (slot + offsetMarker) 2 :=
    (Op.blank_apply_erase f slot pageSize).sub (by omega) (by unfold offsetMarker pageSize; omega)
  intro i hi
  rw [applyAll_of_not_covers]
  · exact hblank i hi
  · intro o ho
    have hcov := hrest o (List.mem_of_mem_take ho)
    rcases Nat.lt_or_ge i 1 with hlt | hge
    · have hzero : i = 0 := by omega
      rw [hzero]
      exact hcov.1
    · have hone : i = 1 := by omega
      rw [hone]
      exact hcov.2

/-- A plan that starts a slot leaves it unmarked. -/
theorem Starts.half_done {slot : ℕ} {plan : List Op} (h : Starts slot plan) (f : Mem) :
    (applyAll plan f).half (slot + offsetMarker) = 0xFFFF := by
  have hlen : 0 < plan.length := by
    obtain ⟨rest, rfl, -⟩ := h.erases
    exact Nat.succ_pos _
  have hmark := h.half_marker f hlen
  rwa [List.take_length] at hmark

/-- A start with some of the payload starts the slot. -/
theorem starts_storePlan (active : Option Record) (crc : UInt32) {bytes : List UInt8}
    (hle : bytes.length ≤ configBytes) :
    Starts (otherSlot active) (planAfter active crc ++
      programOps (otherSlot active + offsetPayload) bytes) where
  keeps := (keepsTo_startPlan _ _ _).append (keepsTo_programOps (by omega)
    (by unfold offsetPayload configBytes pageSize at *; omega))
  erases := by
    refine ⟨_, rfl, fun o ho => ?_⟩
    rcases List.mem_append.mp ho with ho | ho
    · constructor
      · intro hx
        have := covers_programOps ho hx
        rw [length_metadataBytes] at this
        unfold offsetMarker at this
        omega
      · intro hx
        have := covers_programOps ho hx
        rw [length_metadataBytes] at this
        unfold offsetMarker at this
        omega
    · constructor
      · intro hx
        have := covers_programOps ho hx
        unfold offsetMarker offsetPayload at this
        omega
      · intro hx
        have := covers_programOps ho hx
        unfold offsetMarker offsetPayload at this
        omega

/-- A start without any payload starts the slot. -/
theorem starts_planAfter (active : Option Record) (crc : UInt32) :
    Starts (otherSlot active) (planAfter active crc) := by
  have hstarts := @starts_storePlan active crc [] (Nat.zero_le _)
  have hnil : programOps (otherSlot active + offsetPayload) [] = [] := rfl
  rwa [hnil, List.append_nil] at hstarts

/-- A slot that is started is not marked. -/
theorem half_after_start (slot generation : ℕ) (crc : UInt32) (f : Mem) :
    (applyAll (startPlan slot generation crc) f).half (slot + offsetMarker) = 0xFFFF :=
  Mem.half_eq_ffff.mpr ((blank_after_start _ _ _ _).sub (by unfold offsetMarker; omega)
    (by unfold offsetMarker pageSize; omega))

/-- **The other slot is started,** up to where it stopped. Its first operation
is the erase, so it holds no record behind that. -/
theorem backed_starts (hslots : Backed m.flash m.ram.activeRecord) (hspared : Spared m.log)
    {plan : List Op} (hstarts : Starts (otherSlot m.ram.activeRecord) plan)
    (hbroke : Broke plan m m') : Backed m'.flash m.ram.activeRecord ∧ Spared m'.log := by
  obtain ⟨hs, honly⟩ := spared_broke hslots hspared hstarts.keeps hbroke
  refine ⟨?_, hs⟩
  obtain ⟨j, hflash⟩ := hbroke.flash
  rcases Nat.eq_zero_or_pos j with rfl | hj
  · have hsame : m'.flash = m.flash := hflash
    rw [hsame]
    exact hslots
  · have hmark := hstarts.half_marker m.flash hj
    rw [← hflash] at hmark
    exact hslots.unmarked honly hmark

/-- The start of a candidate. -/
theorem discipline_start {r : Option Result} (hslots : Backed m.flash m.ram.activeRecord)
    (hspared : Spared m.log)
    (hworn : WornOut m.ram.activeRecord → Staged m.flash m.ram.activeRecord m.ram.candidate)
    (hgen : m.ram.candidate.generation ≤ generationMax)
    (hstep : StartStep m r m') :
    (r ≠ none → Discipline m') ∧ (r = none → Recoverable m') := by
  have hplan := starts_planAfter m.ram.activeRecord m.ram.candidate.payloadCrc32
  cases hstep with
  | wornOut h => exact ⟨fun _ => ⟨hslots, hworn h, hspared, hgen⟩, fun h => by cases h⟩
  | started hnot hran hram =>
    refine ⟨fun _ => ?_, fun h => by cases h⟩
    obtain ⟨hb, hs⟩ := backed_starts hslots hspared hplan hran.toBroke
    have hmark : m'.flash.half (otherSlot m.ram.activeRecord + offsetMarker) = 0xFFFF := by
      rw [hran.flash]
      exact half_after_start _ _ _ _
    refine ⟨?_, ?_, hs, ?_⟩
    · rw [hram]
      exact hb
    · rw [hram]
      refine .fresh rfl hnot rfl rfl ?_ hmark (by simp [startedCandidate])
      rw [hran.flash]
      exact header_after_start
    · rw [hram]
      exact nextGeneration_le hnot
  | failed hnot _ hbroke hram =>
    refine ⟨fun _ => ?_, fun h => by cases h⟩
    obtain ⟨hb, hs⟩ := backed_starts hslots hspared hplan hbroke
    refine ⟨?_, ?_, hs, ?_⟩
    · rw [hram]
      exact hb
    · rw [hram]
      exact .dropped rfl hnot
    · rw [hram]
      exact nextGeneration_le hnot
  | cut _ _ hbroke =>
    refine ⟨fun h => absurd rfl h, fun _ => ?_⟩
    obtain ⟨hb, hs⟩ := backed_starts hslots hspared hplan hbroke
    exact ⟨hb.apart, hs⟩

/-- What is staged does not depend on the CRC that is declared, unless a
slot is started for it. -/
theorem Staged.declare {f : Mem} {active : Option Record} {c : Candidate}
    (h : Staged f active c) (hworn : WornOut active) (crc : UInt32) :
    Staged f active { c with payloadCrc32 := crc, active := true } := by
  cases h with
  | comparing hcmp hrec => exact .comparing hcmp hrec
  | unused hcmp hslot hacc => exact .unused hcmp hslot hacc
  | fresh _ hnot => exact absurd hworn hnot
  | done hcmp hrec hslot hacc hpend => exact .done hcmp hrec hslot hacc hpend
  | dropped _ hnot => exact absurd hworn hnot

theorem discipline_begin {r : Option Result} (h : Discipline m) (hstep : BeginStep crc m r m') :
    (r ≠ none → Discipline m') ∧ (r = none → Recoverable m') := by
  cases hstep with
  | refused => exact ⟨fun _ => h, nofun⟩
  | comparing _ hcrc =>
    obtain ⟨record, hrec, -⟩ := Option.map_eq_some_iff.mp hcrc
    exact ⟨fun _ => ⟨h.slots, .comparing rfl hrec, h.spared, h.generation⟩, nofun⟩
  | starting _ _ hstart =>
    exact discipline_start (m := { m with ram := declared m.ram crc }) h.slots h.spared
      (fun hworn => h.staged.declare hworn crc) h.generation hstart

/-- Where the plan stores nothing, the flash is as it was. -/
theorem Broke.flash_of_not_covers {plan : List Op} (h : Broke plan m m') {x : ℕ}
    (hx : ∀ o ∈ plan, ¬ o.Covers x) : m'.flash x = m.flash x := by
  obtain ⟨j, hflash⟩ := h.flash
  rw [hflash, applyAll_of_not_covers fun o ho => hx o (List.mem_of_mem_take ho)]

/-- The header of the slot and its marker are as they were. -/
structure Intact (slot : ℕ) (f f' : Mem) : Prop where
  header : f'.bytes slot 24 = f.bytes slot 24
  marker : f'.half (slot + offsetMarker) = f.half (slot + offsetMarker)

theorem intact_of_apart {slot : ℕ} {plan : List Op}
    (hplan : ∀ o ∈ plan, ∀ x, o.Covers x →
      slot + 24 ≤ x ∧ x ≠ slot + offsetMarker ∧ x ≠ slot + offsetMarker + 1)
    (hbroke : Broke plan m m') : Intact slot m.flash m'.flash where
  header := by
    refine Mem.bytes_congr fun i hi => hbroke.flash_of_not_covers fun o ho hx => ?_
    have := hplan o ho _ hx
    omega
  marker := by
    have h0 : m'.flash (slot + offsetMarker) = m.flash (slot + offsetMarker) :=
      hbroke.flash_of_not_covers fun o ho hx => (hplan o ho _ hx).2.1 rfl
    have h1 : m'.flash (slot + offsetMarker + 1) = m.flash (slot + offsetMarker + 1) :=
      hbroke.flash_of_not_covers fun o ho hx => (hplan o ho _ hx).2.2 rfl
    rw [Mem.half, Mem.half, h0, h1]

/-- Storing the payload leaves the header and the marker. -/
theorem intact_of_payload {slot base : ℕ} {bytes : List UInt8} (hbase : slot + offsetPayload ≤ base)
    (hbroke : Broke (programOps base bytes) m m') : Intact slot m.flash m'.flash := by
  refine intact_of_apart (fun o ho x hx => ?_) hbroke
  have := covers_programOps ho hx
  unfold offsetPayload offsetMarker at *
  omega

/-- A stretch of payload in the slot that is started. -/
theorem backed_payload {base : ℕ} {bytes : List UInt8} (h : Discipline m)
    (hmark : m.flash.half (otherSlot m.ram.activeRecord + offsetMarker) = 0xFFFF)
    (hbase : otherSlot m.ram.activeRecord + offsetPayload ≤ base)
    (hend : base + bytes.length ≤ otherSlot m.ram.activeRecord + pageSize)
    (hbroke : Broke (programOps base bytes) m m') :
    Backed m'.flash m.ram.activeRecord ∧ Spared m'.log := by
  have hkeeps : KeepsTo (otherSlot m.ram.activeRecord) (programOps base bytes) :=
    keepsTo_programOps (by omega) hend
  obtain ⟨hs, honly⟩ := spared_broke h.slots h.spared hkeeps hbroke
  exact ⟨h.slots.unmarked honly ((intact_of_payload hbase hbroke).marker.trans hmark), hs⟩

/-- The call left the flash alone. -/
def Quiet (m m' : Machine Ram) : Prop := m'.flash = m.flash ∧ m'.log = m.log

theorem quiet_of_broke_nil (hbroke : Broke [] m m') : Quiet m m' := by
  obtain ⟨⟨j, hflash⟩, es, hlog, hops, -⟩ := hbroke
  have hes : es = [] := by simpa using hops
  exact ⟨by rw [hflash, List.take_nil, applyAll_nil], by rw [hlog, hes, List.append_nil]⟩

/-- A write to a candidate that is complete stores nothing. -/
theorem stored_done {r : Option Result} {base : ℕ} {c' : Candidate}
    (hpend : m.ram.candidate.pendingValid = false) (hnil : data = [])
    (hwrite : WriteStep base (held m.ram.candidate ++ data) c' m r m') : Quiet m m' := by
  have hnone : held m.ram.candidate ++ data = [] := by simp [held, hpend, hnil]
  rw [hnone] at hwrite
  have hplan : programOps base [] = [] := rfl
  cases hwrite with
  | written hran => exact quiet_of_broke_nil (hplan ▸ hran.toBroke)
  | failed hbroke => exact quiet_of_broke_nil (hplan ▸ hbroke)
  | cut hbroke => exact quiet_of_broke_nil (hplan ▸ hbroke)

/-- A write to the slot that is started. -/
theorem discipline_stored {r : Option Result} (h : Discipline m)
    (hact : m.ram.candidate.active = true) (hcmp : m.ram.candidate.compareActive = false)
    (hused : m.ram.candidate.slotAddress ≠ 0)
    (hfits : m.ram.candidate.acceptedBytes + data.length ≤ configBytes)
    (hwrite : WriteStep
      (payloadAddress m.ram.candidate
        (m.ram.candidate.acceptedBytes - (held m.ram.candidate).length))
      (held m.ram.candidate ++ data) (accept m.ram.candidate data) m r m') :
    (r ≠ none → Discipline m') ∧ (r = none → Recoverable m') := by
  cases h.staged with
  | comparing hcmp' => exact absurd (hcmp.symm.trans hcmp') (by simp)
  | unused _ hslot => exact absurd hslot hused
  | dropped hidle => exact absurd (hact.symm.trans hidle) (by simp)
  | fresh _ hnot hslot hgen hheader hmark hpend =>
    have hheld : (held m.ram.candidate).length ≤ m.ram.candidate.acceptedBytes := by
      unfold held
      split
      next hp => exact hpend hp
      · exact Nat.zero_le _
    have hbase : otherSlot m.ram.activeRecord + offsetPayload ≤
        payloadAddress m.ram.candidate
          (m.ram.candidate.acceptedBytes - (held m.ram.candidate).length) := by
      unfold payloadAddress
      omega
    have hend : payloadAddress m.ram.candidate
          (m.ram.candidate.acceptedBytes - (held m.ram.candidate).length) +
        (held m.ram.candidate ++ data).length ≤ otherSlot m.ram.activeRecord + pageSize := by
      rw [List.length_append]
      unfold payloadAddress offsetPayload configBytes pageSize at *
      omega
    have hmark' : m.flash.half (otherSlot m.ram.activeRecord + offsetMarker) = 0xFFFF := by
      rw [← hslot]
      exact hmark
    -- the candidate moves on, in the slot that it was in
    have hfresh : ∀ {c : Candidate} {m' : Machine Ram}, SameCandidate m.ram.candidate c →
        (c.pendingValid = true → 1 ≤ c.acceptedBytes) → Broke
          (programOps (payloadAddress m.ram.candidate
            (m.ram.candidate.acceptedBytes - (held m.ram.candidate).length))
            (held m.ram.candidate ++ data)) m m' →
        m'.ram = { m.ram with candidate := c } → Discipline m' := by
      intro c m' hsame hpend' hbroke hram
      obtain ⟨hb, hs⟩ := backed_payload h hmark' hbase hend hbroke
      have hintact := intact_of_payload hbase hbroke
      rw [← hslot] at hintact
      refine ⟨by rw [hram]; exact hb, ?_, hs, by rw [hram]; exact hsame.generation ▸ h.generation⟩
      rw [hram]
      refine .fresh (hsame.compareActive.trans hcmp) hnot (hsame.slotAddress.trans hslot)
        (hsame.generation.trans hgen) ?_ ?_ hpend'
      · rw [hsame.slotAddress, hsame.generation, hsame.payloadCrc32, hintact.header, hheader]
      · rw [hsame.slotAddress, hintact.marker, hmark]
    cases hwrite with
    | written hran hram =>
      refine ⟨fun _ => hfresh (sameCandidate_accept _ _) (fun hp => ?_) hran.toBroke hram, nofun⟩
      rw [accept_acceptedBytes]
      rcases data with - | ⟨b, data⟩
      · rw [accept_nil] at hp
        exact hpend hp
      · simp only [List.length_cons]
        omega
    | failed hbroke hram hsame hb _ hp =>
      exact ⟨fun _ => hfresh hsame (fun hp' => Nat.le_trans (hpend (hp hp')) hb.1) hbroke hram,
        nofun⟩
    | cut hbroke =>
      obtain ⟨hb, hs⟩ := backed_payload h hmark' hbase hend hbroke
      exact ⟨fun hne => absurd rfl hne, fun _ => ⟨hb.apart, hs⟩⟩
  | done _ hrec hslot hacc hpend =>
    -- all the bytes are there: only an empty write gets here
    have hnil : data = [] := List.eq_nil_of_length_eq_zero (by omega)
    obtain ⟨hflash, hlog⟩ := stored_done hpend hnil hwrite
    have hdone : ∀ {c : Candidate}, SameCandidate m.ram.candidate c →
        c.acceptedBytes = configBytes → c.pendingValid = false →
        m'.ram = { m.ram with candidate := c } → Discipline m' := by
      intro c hkept hacc' hpend' hram
      refine ⟨by rw [hflash, hram]; exact h.slots, ?_, by rw [hlog]; exact h.spared,
        by rw [hram]; exact hkept.generation ▸ h.generation⟩
      rw [hram]
      exact .done (hkept.compareActive.trans hcmp) hrec (hkept.slotAddress.trans hslot) hacc' hpend'
    cases hwrite with
    | written _ hram =>
      rw [hnil, accept_nil] at hram
      exact ⟨fun _ => hdone (SameCandidate.refl _) hacc hpend hram, nofun⟩
    | failed _ hram hkept hb _ hp =>
      rw [hnil, accept_nil] at hb
      refine ⟨fun _ => hdone hkept (by omega) ?_ hram, nofun⟩
      by_contra hpend'
      have := hp (by simpa using hpend')
      rw [hpend] at this
      exact absurd this (by simp)
    | cut =>
      refine ⟨fun hne => absurd rfl hne, fun _ => ⟨?_, ?_⟩⟩
      · rw [hflash]
        exact h.slots.apart
      · rw [hlog]
        exact h.spared

/-- **A write** keeps the discipline where it answers, and leaves a flash to
recover from where a reset cuts it short. -/
theorem discipline_put {r : Option Result} (h : Discipline m)
    (hused : m.ram.candidate.compareActive = false → m.ram.candidate.slotAddress ≠ 0)
    (hstep : PutStep data m r m') :
    (r ≠ none → Discipline m') ∧ (r = none → Recoverable m') := by
  have hlen : ∀ record : Record, m.ram.candidate.acceptedBytes + data.length ≤ configBytes →
      (m.flash.bytes (record.slotAddress + offsetPayload) m.ram.candidate.acceptedBytes ++
        data).length ≤ configBytes := by
    intro record hfits
    rwa [List.length_append, Mem.length_bytes]
  cases hstep with
  | refused => exact ⟨fun _ => h, fun h => by cases h⟩
  | compared _ hcmp hrec => exact ⟨fun _ => ⟨h.slots, .comparing hcmp hrec, h.spared, h.generation⟩, fun h => by cases h⟩
  | wornOut => exact ⟨fun _ => ⟨h.slots, h.staged, h.spared, h.generation⟩, fun h => by cases h⟩
  | @started record _ _ _ _ _ hfits _ hnot hran hram hsame htracks =>
    refine ⟨fun _ => ?_, fun h => by cases h⟩
    have hstarts := starts_storePlan m.ram.activeRecord m.ram.candidate.payloadCrc32
      (hlen record hfits)
    obtain ⟨hb, hs⟩ := backed_starts h.slots h.spared hstarts hran.toBroke
    have hmark := hstarts.half_done m.flash
    rw [← hran.flash] at hmark
    refine ⟨by rw [hram]; exact hb, ?_, hs,
      by rw [hram]; exact Nat.le_trans (Nat.le_of_eq hsame.generation) (nextGeneration_le hnot)⟩
    rw [hram]
    refine .fresh hsame.compareActive hnot hsame.slotAddress hsame.generation ?_ ?_ fun hp => ?_
    · rw [hsame.slotAddress, hsame.generation, hsame.payloadCrc32, hran.flash, applyAll_append]
      refine (header_frame ?_).trans header_after_start
      simp only [startedCandidate]
      unfold offsetPayload
      omega
    · rw [hsame.slotAddress]
      exact hmark
    · have hodd := htracks.odd.mp hp
      refine Nat.le_trans ?_ (Nat.le_of_eq htracks.accepted.symm)
      omega
  | @startFailed record _ _ _ _ _ hfits hnot _ hbroke hram hcand =>
    refine ⟨fun _ => ?_, fun h => by cases h⟩
    have hstarts := starts_storePlan m.ram.activeRecord m.ram.candidate.payloadCrc32
      (hlen record hfits)
    obtain ⟨hb, hs⟩ := backed_starts h.slots h.spared hstarts hbroke
    refine ⟨by rw [hram]; exact hb, ?_, hs, ?_⟩
    rotate_left
    · rw [hram]
      rcases hcand with ⟨-, hgen⟩ | ⟨hsame, -⟩
      · exact Nat.le_trans (Nat.le_of_eq hgen) (nextGeneration_le hnot)
      · exact Nat.le_trans (Nat.le_of_eq hsame.generation) (nextGeneration_le hnot)
    rw [hram]
    rcases hcand with ⟨hidle, -⟩ | ⟨hsame, hpend, m₁, hran, hrest⟩
    · exact .dropped hidle hnot
    · -- the slot was started, and the payload stopped inside
      have hintact := intact_of_payload (Nat.le_refl _) hrest
      refine .fresh hsame.compareActive hnot hsame.slotAddress hsame.generation ?_ ?_ hpend
      · rw [hsame.slotAddress, hsame.generation, hsame.payloadCrc32]
        refine hintact.header.trans ?_
        rw [hran.flash]
        exact header_after_start
      · rw [hsame.slotAddress]
        refine hintact.marker.trans ?_
        rw [hran.flash]
        exact half_after_start _ _ _ _
  | @startCut record _ _ _ _ hfits _ _ hbroke =>
    refine ⟨fun hne => absurd rfl hne, fun _ => ?_⟩
    have hstarts := starts_storePlan m.ram.activeRecord m.ram.candidate.payloadCrc32
      (hlen record hfits)
    obtain ⟨hb, hs⟩ := backed_starts h.slots h.spared hstarts hbroke
    exact ⟨hb.apart, hs⟩
  | stored hact hcmp hfits hwrite => exact discipline_stored h hact hcmp (hused hcmp) hfits hwrite

/-- The candidate as the boot left it: no slot was started. -/
structure Unused (c : Candidate) : Prop where
  changed : c.compareActive = false
  slotAddress : c.slotAddress = 0
  accepted : c.acceptedBytes = 0 ∧ c.pendingValid = false ∨
    c.acceptedBytes = 1 ∧ c.pendingValid = true

/-- With no slot started, the driver refuses every address. -/
theorem write_unused (h : Unused m.ram.candidate) :
    wp (writeCandidate data) (fun _ m' => ∃ c, Unused c ∧
      c.generation = m.ram.candidate.generation ∧
        m' = { m with ram := { m.ram with candidate := c } }) (fun _ => False) m := by
  obtain ⟨hcmp, hslot, hacc⟩ := h
  have hunowned : flashAddressOwned (0 + offsetPayload + 0) = false := by decide
  have hsame : ∃ c, Unused c ∧ c.generation = m.ram.candidate.generation ∧
      m = { m with ram := { m.ram with candidate := c } } :=
    ⟨m.ram.candidate, ⟨hcmp, hslot, hacc⟩, rfl, rfl⟩
  unfold writeCandidate
  rw [wp_bind, wp_ram, wp_ite]
  split
  · exact hsame
  rw [wp_ite, if_neg (by simp [hcmp])]
  simp only [writePayloadBytes, wp_bind, wp_ram]
  rcases hacc with ⟨hzero, hpend⟩ | ⟨hone, hpend⟩
  · rw [hpend]
    rcases data with - | ⟨b, - | ⟨hi, data⟩⟩
    · exact hsame
    · simp only [writePairs, wp_bind, wp_modifyRam, wp_pure, modifyCandidate]
      exact ⟨{ m.ram.candidate with
          pendingByte := b, pendingValid := true,
          acceptedBytes := m.ram.candidate.acceptedBytes + 1 },
        ⟨hcmp, hslot, Or.inr ⟨congrArg (· + 1) hzero, rfl⟩⟩, rfl, rfl⟩
    · simp only [writePairs, programPayloadHalfword, wp_bind, wp_ram, hzero, hslot]
      rw [flashProgramHalfword, if_pos hunowned]
      exact hsame
  · rw [hpend]
    rcases data with - | ⟨b, data⟩
    · exact hsame
    · simp only [programPayloadHalfword, wp_bind, wp_ram, hone, hslot, Nat.sub_self]
      rw [flashProgramHalfword, if_pos hunowned]
      exact hsame

/-- The call kept the discipline, and left the flash and the active record
alone. -/
structure Undisturbed (m m' : Machine Ram) : Prop where
  discipline : Discipline m'
  quiet : Quiet m m'
  record : m'.ram.activeRecord = m.ram.activeRecord

/-- A write goes by `PutStep`, unless no slot was started. -/
theorem Discipline.put (h : Discipline m) (data : List UInt8) :
    ((m.ram.candidate.compareActive = false → m.ram.candidate.slotAddress ≠ 0) ∧
      wp (writeCandidate data) (fun r m' => PutStep data m (some r) m')
        (fun m' => PutStep data m none m') m) ∨
      wp (writeCandidate data) (fun _ m' => Undisturbed m m') (fun _ => False) m := by
  have hother := otherSlot_cases m.ram.activeRecord
  cases h.staged with
  | @comparing r hcmp hrec =>
    have hneq : m.ram.candidate.compareActive ≠ false := by simp [hcmp]
    refine Or.inl ⟨fun hc => absurd hc hneq, writeCandidate_wp data m (fun _ => ?_) fun hc => ?_⟩
    · exact ⟨r, hrec, (h.slots.record r hrec).1⟩
    · exact absurd hc hneq
  | unused hcmp hslot hacc =>
    refine Or.inr (wp_mono (write_unused ⟨hcmp, hslot, hacc⟩) ?_ fun _ => id)
    rintro _ m' ⟨c, ⟨hcmp', hslot', hacc'⟩, hgen, rfl⟩
    exact ⟨⟨h.slots, .unused hcmp' hslot' hacc', h.spared, Nat.le_trans (Nat.le_of_eq hgen)
      h.generation⟩, ⟨rfl, rfl⟩, rfl⟩
  | fresh hcmp _ hslot _ _ _ hpend =>
    refine Or.inl ⟨fun _ => ?_, writeCandidate_wp data m (fun hc => ?_) fun _ => hpend⟩
    · rw [hslot]
      unfold slotA slotB at hother
      omega
    · exact absurd (hcmp.symm.trans hc) (by simp)
  | @done r hcmp hrec hslot _ hpend =>
    refine Or.inl ⟨fun _ => ?_, writeCandidate_wp data m (fun hc => ?_) fun _ hp => ?_⟩
    · have hactive := (h.slots.record r hrec).1
      rw [hslot]
      unfold slotA slotB at hactive
      omega
    · exact absurd (hcmp.symm.trans hc) (by simp)
    · exact absurd (hpend.symm.trans hp) (by simp)
  | dropped hidle =>
    right
    unfold writeCandidate
    rw [wp_bind, wp_ram, wp_ite, if_pos (Or.inl hidle)]
    exact ⟨h, ⟨rfl, rfl⟩, rfl⟩

/-- **A write keeps the discipline,** in compare mode and in the slot that is
started. -/
theorem write_discipline (h : Discipline m) (data : List UInt8) :
    wp (writeCandidate data) (fun _ m' => Discipline m') Recoverable m := by
  rcases h.put data with ⟨hused, hput⟩ | hquiet
  · refine wp_mono hput (fun r m' hstep => ?_) fun m' hstep => ?_
    · exact (discipline_put h hused hstep).1 (by simp)
    · exact (discipline_put h hused hstep).2 rfl
  · exact wp_mono hquiet (fun _ _ hd => hd.discipline) fun _ => False.elim

/-! ### Commit -/

/-- The generation that a header declares. -/
theorem generation_of_header {f : Mem} {slot generation : ℕ} {crc : UInt32}
    (hle : generation ≤ generationMax) (h : f.bytes slot 24 = metadataBytes generation crc) :
    word f (slot + 0x0C) = generation := by
  have hget : ∀ i < 24, f (slot + i) = (metadataBytes generation crc).getD i 0 := by
    intro i hi
    rw [← h, Mem.getD_bytes hi]
  have h12 : f (slot + 12) = UInt8.ofNat (generation % 65536) := hget 12 (by decide)
  have h13 : f (slot + 13) = UInt8.ofNat (generation % 65536 / 256) := hget 13 (by decide)
  have h14 : f (slot + 14) = UInt8.ofNat (generation / 65536) := hget 14 (by decide)
  have h15 : f (slot + 15) = UInt8.ofNat (generation / 65536 / 256) := hget 15 (by decide)
  unfold generationMax at hle
  simp only [word, Mem.half, Nat.add_assoc, Nat.reduceAdd, h12, h13, h14, h15, le16,
    UInt8.toNat_ofNat']
  omega

/-- The header's CRC is stored past the header, and before the marker. -/
theorem intact_of_crc {slot : ℕ} {f : Mem} (hbroke : Broke (crcPlan slot f) m m') :
    Intact slot m.flash m'.flash := by
  refine intact_of_apart (fun o ho x hx => ?_) hbroke
  rcases List.mem_append.mp ho with ho | ho
  · obtain ⟨rfl, -⟩ := mem_halfOps.mp ho
    simp only [Op.Covers, offsetHeaderCrc, offsetMarker] at hx ⊢
    omega
  · obtain ⟨rfl, -⟩ := mem_halfOps.mp ho
    simp only [Op.Covers, offsetHeaderCrc, offsetMarker] at hx ⊢
    omega

/-- The marker is stored past the header. -/
theorem header_of_commit {slot : ℕ} {f : Mem}
    (hbroke : Broke (crcPlan slot f ++ markerPlan slot) m m') :
    m'.flash.bytes slot 24 = m.flash.bytes slot 24 := by
  refine Mem.bytes_congr fun i hi => hbroke.flash_of_not_covers fun o ho hx => ?_
  rcases List.mem_append.mp ho with ho | ho
  · rcases List.mem_append.mp ho with ho | ho
    · obtain ⟨rfl, -⟩ := mem_halfOps.mp ho
      simp only [Op.Covers, offsetHeaderCrc] at hx
      omega
    · obtain ⟨rfl, -⟩ := mem_halfOps.mp ho
      simp only [Op.Covers, offsetHeaderCrc] at hx
      omega
  · obtain ⟨rfl, -⟩ := mem_halfOps.mp ho
    simp only [Op.Covers, offsetMarker] at hx
    omega

/-- **A commit of the slot that is started.** Only its last operation, the
marker, makes the slot a record, and that record is the next generation. -/
theorem discipline_commit {r : Option Result} (h : Discipline m) (hm : Honest m)
    (hslot : m.ram.candidate.slotAddress = otherSlot m.ram.activeRecord)
    (hgen : m.ram.candidate.generation = nextGeneration m.ram.activeRecord)
    (hheader : m.flash.bytes m.ram.candidate.slotAddress 24 =
      metadataBytes m.ram.candidate.generation m.ram.candidate.payloadCrc32)
    (hmark : m.flash.half (m.ram.candidate.slotAddress + offsetMarker) = 0xFFFF)
    (hnot : ¬ WornOut m.ram.activeRecord) (hcomplete : Complete m.ram.candidate)
    (hstep : CommitStep m r m') :
    (r ≠ none → Discipline m') ∧ (r = none → Recoverable m') := by
  obtain ⟨hact, hacc, hcmp, hpend⟩ := hcomplete
  have hkeeps : KeepsTo (otherSlot m.ram.activeRecord)
      (crcPlan m.ram.candidate.slotAddress m.flash ++ markerPlan m.ram.candidate.slotAddress) := by
    rw [hslot]
    exact (keepsTo_crcPlan _ _).append (keepsTo_markerPlan _)
  -- whatever the slot holds has the generation of the header
  have hnext : ∀ {m' : Machine Ram}, Broke (crcPlan m.ram.candidate.slotAddress m.flash ++
      markerPlan m.ram.candidate.slotAddress) m m' →
      ∀ r', Holds m'.flash (otherSlot m.ram.activeRecord) r' →
        r'.generation = nextGeneration m.ram.activeRecord := by
    intro m' hbroke r' hr'
    rw [(validateRecord_ok hr').2.1, ← hslot, ← hgen]
    exact generation_of_header h.generation ((header_of_commit hbroke).trans hheader)
  -- with no marker, the candidate is where it was
  have hkept : ∀ {m₁ m' : Machine Ram}, Broke (crcPlan m.ram.candidate.slotAddress m.flash) m m₁ →
      Broke (crcPlan m.ram.candidate.slotAddress m.flash ++
        markerPlan m.ram.candidate.slotAddress) m m' →
      m'.flash = m₁.flash → m'.ram = m.ram → Discipline m' := by
    intro m₁ m' hcrc hbroke hflash hram
    have hintact := intact_of_crc hcrc
    obtain ⟨hs, honly⟩ := spared_broke h.slots h.spared hkeeps hbroke
    rw [← hflash] at hintact
    have hmark' := hintact.marker.trans hmark
    refine ⟨?_, ?_, hs, by rw [hram]; exact h.generation⟩
    · rw [hram]
      exact h.slots.unmarked honly (hslot ▸ hmark')
    · rw [hram]
      exact .fresh hcmp hnot hslot hgen (hintact.header.trans hheader) hmark'
        fun hp => absurd (hpend.symm.trans hp) (by simp)
  cases hstep with
  | refused => exact ⟨fun _ => h, nofun⟩
  | unchanged _ _ hcmp' => exact absurd (hcmp.symm.trans hcmp') (by simp)
  | headerFailed _ hbroke hram =>
    exact ⟨fun _ => hkept hbroke (hbroke.append _) rfl hram, nofun⟩
  | invalid _ hran hram =>
    exact ⟨fun _ => hkept hran.toBroke (hran.toBroke.append _) rfl hram, nofun⟩
  | markerFailed _ hran _ _ hbroke hram _ hflash =>
    exact ⟨fun _ => hkept hran.toBroke (hran.broke hbroke) (hflash hm) hram, nofun⟩
  | markedInvalid _ _ hvalid hran' _ herr =>
    have hholds := holds_of_marked hvalid hran'.flash
    unfold Holds at hholds
    rw [hholds] at herr
    exact nomatch herr
  | @committed m₁ m₂ record _ _ hran _ hran' _ hvalid =>
    refine ⟨fun _ => ?_, nofun⟩
    have hbroke := (hran.trans hran').toBroke
    obtain ⟨hs, honly⟩ := spared_broke h.slots h.spared hkeeps hbroke
    have hholds : Holds m₂.flash (otherSlot m.ram.activeRecord) record := hslot ▸ hvalid
    refine ⟨h.slots.committed honly hholds (hnext hbroke _ hholds), ?_, hs, h.generation⟩
    exact .done hcmp rfl (hslot.trans hholds.slotAddress.symm) hacc hpend
  | cut _ _ hbroke =>
    refine ⟨fun hne => absurd rfl hne, fun _ => ?_⟩
    obtain ⟨hs, honly⟩ := spared_broke h.slots h.spared hkeeps hbroke
    exact ⟨h.slots.apart_commit honly (hnext hbroke), hs⟩

/-- A halfword that is stored already is not stored again. -/
theorem wp_flashProgramHalfword_stored {a v : ℕ} (h : m.flash.half a = v)
    {Q : Bool → Machine Ram → Prop} {C : Machine Ram → Prop} (hQ : ∀ b, Q b m) :
    wp (flashProgramHalfword a v) Q C m := by
  unfold flashProgramHalfword
  split
  · exact hQ false
  · simp only [programVerified, wp_bind, wp_flash, h]
    split
    · exact hQ _
    · exact hQ _

/-- The call left the flash alone, and the candidate at most dropped. -/
structure Idled (m m' : Machine Ram) : Prop where
  quiet : Quiet m m'
  ram : m'.ram = m.ram ∨
    m'.ram = { m.ram with candidate := { m.ram.candidate with active := false } }

theorem Idled.refl (m : Machine Ram) : Idled m m := ⟨⟨rfl, rfl⟩, Or.inl rfl⟩

/-- A candidate that is not complete is not committed. -/
theorem commit_incomplete (hnot : ¬ Complete m.ram.candidate) :
    wp commitCandidate (fun _ m' => Idled m m') (Quiet m) m := by
  simp only [commitCandidate, wp_bind, wp_ram, wp_ite, wp_pure]
  split
  · exact Idled.refl m
  next href =>
  split
  · simp only [giveUp, candidateReset, modifyCandidate, wp_bind, wp_modifyRam, wp_pure]
    exact ⟨⟨rfl, rfl⟩, Or.inr rfl⟩
  next hcmp =>
  split
  · exact Idled.refl m
  next hpend =>
  obtain ⟨hact, hacc⟩ := not_or.mp href
  exact absurd ⟨by simpa using hact, not_not.mp hacc, by simpa using hcmp, by simpa using hpend⟩ hnot

/-- **A slot that is marked already is not committed again:** its header is
complete, and its marker is set. -/
theorem commit_marked {record : Record} (hholds : Holds m.flash m.ram.candidate.slotAddress record) :
    wp commitCandidate (fun _ m' => Idled m m') (Quiet m) m := by
  obtain ⟨hmarker, -, -, hcrc⟩ := validateRecord_ok hholds
  simp only [commitCandidate, wp_bind, wp_ram, wp_ite, wp_pure]
  split
  · exact Idled.refl m
  split
  · simp only [giveUp, candidateReset, modifyCandidate, wp_bind, wp_modifyRam, wp_pure]
    exact ⟨⟨rfl, rfl⟩, Or.inr rfl⟩
  split
  · exact Idled.refl m
  refine wp_faultCheckpoint (fun _ => ?_) fun _ => ⟨rfl, rfl⟩
  have hlow : m.flash.half (m.ram.candidate.slotAddress + offsetHeaderCrc) < 65536 := le16_lt _ _
  have hhigh : m.flash.half (m.ram.candidate.slotAddress + offsetHeaderCrc + 2) < 65536 :=
    le16_lt _ _
  simp only [programHeaderCrc, Prog.andThen, wp_bind, wp_ram, wp_flash]
  unfold word at hcrc
  refine wp_flashProgramHalfword_stored (by omega) fun b => ?_
  rcases b with - | -
  · simp only [Bool.false_eq_true, if_false, wp_pure]
    exact Idled.refl m
  simp only [if_true]
  refine wp_flashProgramHalfword_stored (by omega) fun b => ?_
  rcases b with - | -
  · exact Idled.refl m
  simp only [if_true, wp_bind, wp_flash]
  cases hvalid : validateRecord m.flash m.ram.candidate.slotAddress 0xFFFF with
  | error e => exact Idled.refl m
  | ok record' =>
    -- the marker is set, so the slot does not validate without one
    have hblank := (validateRecord_ok hvalid).1
    rw [hmarker] at hblank
    exact absurd hblank (by decide)

/-- **The candidate that has become the active record is not committed
again.** -/
theorem commit_done {record : Record} (h : Discipline m)
    (hrec : m.ram.activeRecord = some record)
    (hslot : m.ram.candidate.slotAddress = record.slotAddress) :
    wp commitCandidate (fun _ m' => Idled m m') (Quiet m) m := by
  have hholds := (h.slots.record record hrec).2
  rw [← hslot] at hholds
  exact commit_marked hholds

/-- Dropping the candidate leaves what it was written for. -/
theorem Discipline.drop (h : Discipline m) : Discipline { m with ram :=
    { m.ram with candidate := { m.ram.candidate with active := false } } } := by
  refine ⟨h.slots, ?_, h.spared, h.generation⟩
  cases h.staged with
  | comparing hcmp hrec => exact .comparing hcmp hrec
  | unused hcmp hslot hacc => exact .unused hcmp hslot hacc
  | fresh hcmp hnot hslot hgen hheader hmark hpend =>
    exact .fresh hcmp hnot hslot hgen hheader hmark hpend
  | done hcmp hrec hslot hacc hpend => exact .done hcmp hrec hslot hacc hpend
  | dropped _ hnot => exact .dropped rfl hnot

/-- A call that did nothing keeps the discipline. -/
theorem Discipline.idled (h : Discipline m) (hidled : Idled m m') : Discipline m' := by
  obtain ⟨⟨hflash, hlog⟩, hram⟩ := hidled
  have hkept : ∀ {m₁ : Machine Ram}, Discipline m₁ → m₁.flash = m.flash → m₁.log = m.log →
      m'.ram = m₁.ram → Discipline m' := by
    intro m₁ h₁ hf hl hr
    refine ⟨?_, ?_, ?_, ?_⟩
    · rw [hflash, hr, ← hf]
      exact h₁.slots
    · rw [hflash, hr, ← hf]
      exact h₁.staged
    · rw [hlog, ← hl]
      exact h₁.spared
    · rw [hr]
      exact h₁.generation
  rcases hram with hram | hram
  · exact hkept h rfl rfl hram
  · exact hkept h.drop rfl rfl hram

theorem Discipline.recoverable (h : Discipline m) (hquiet : Quiet m m') : Recoverable m' := by
  obtain ⟨hflash, hlog⟩ := hquiet
  refine ⟨?_, ?_⟩
  · rw [hflash]
    exact h.slots.apart
  · rw [hlog]
    exact h.spared

/-- A candidate that is complete is the active record, or the next one. -/
theorem Staged.of_complete {f : Mem} {active : Option Record} {c : Candidate}
    (h : Staged f active c) (hcomplete : Complete c) :
    (∃ r, active = some r ∧ c.slotAddress = r.slotAddress) ∨
      ¬ WornOut active ∧ c.slotAddress = otherSlot active ∧ c.generation = nextGeneration active ∧
        f.bytes c.slotAddress 24 = metadataBytes c.generation c.payloadCrc32 ∧
        f.half (c.slotAddress + offsetMarker) = 0xFFFF := by
  obtain ⟨hact, hacc, hcmp, -⟩ := hcomplete
  cases h with
  | comparing hcmp' => exact absurd (hcmp.symm.trans hcmp') (by simp)
  | unused _ _ hacc' =>
    unfold configBytes at hacc
    omega
  | fresh _ hnot hslot hgen hheader hmark => exact Or.inr ⟨hnot, hslot, hgen, hheader, hmark⟩
  | done _ hrec hslot => exact Or.inl ⟨_, hrec, hslot⟩
  | dropped hidle => exact absurd (hact.symm.trans hidle) (by simp)

/-- **A commit keeps the discipline:** it is refused, or finds nothing changed,
or commits the slot that is started. -/
theorem commit_discipline (h : Discipline m) (hm : Honest m) :
    wp commitCandidate (fun _ m' => Discipline m') Recoverable m := by
  have hidle : wp commitCandidate (fun _ m' => Idled m m') (Quiet m) m →
      wp commitCandidate (fun _ m' => Discipline m') Recoverable m :=
    fun hwp => wp_mono hwp (fun _ _ => h.idled) fun _ => h.recoverable
  by_cases hcomplete : Complete m.ram.candidate
  · rcases h.staged.of_complete hcomplete with ⟨r, hrec, hslot⟩ | ⟨hnot, hslot, hgen, hheader, hmark⟩
    · exact hidle (commit_done h hrec hslot)
    · refine wp_mono (commitCandidate_wp m) (fun r m' hstep => ?_) fun m' hstep => ?_
      · exact (discipline_commit h hm hslot hgen hheader hmark hnot hcomplete hstep).1 (by simp)
      · exact (discipline_commit h hm hslot hgen hheader hmark hnot hcomplete hstep).2 rfl
  · exact hidle (commit_incomplete hcomplete)

/-- **Every call keeps the discipline,** and whatever a reset leaves of it can
be recovered from. -/
theorem call_discipline (h : Discipline m) (hm : Honest m) (c : Call) :
    wp c.run (fun _ m' => Discipline m') Recoverable m := by
  cases c with
  | begin crc =>
    refine wp_mono (beginCandidate_wp crc m) (fun r m' hstep => ?_) fun m' hstep => ?_
    · exact (discipline_begin h hstep).1 (by simp)
    · exact (discipline_begin h hstep).2 rfl
  | write data => exact write_discipline h data
  | commit => exact commit_discipline h hm
  | abort =>
    simp only [Call.run, abortCandidate, candidateReset, modifyCandidate, wp_bind, wp_modifyRam,
      wp_pure]
    exact h.drop

/-- A boot starts over with the newer record. -/
theorem Recoverable.boot (h : Recoverable m) : Discipline { m with ram := boot m.flash } where
  slots := h.apart.boot
  staged := .unused rfl rfl (Or.inl ⟨rfl, rfl⟩)
  spared := h.spared
  generation := Nat.zero_le _

/-- **The discipline holds in every state,** by induction over what the device
has lived through. -/
theorem discipline_of_lived (h : Lived m) : Discipline m := by
  induction h with
  | @erased flash tape ha hb =>
    have hnone : ∀ slot, flash.Blank slot pageSize → ∀ r, ¬ Holds flash slot r := by
      intro slot hblank
      refine not_holds_of_unmarked (Mem.half_eq_ffff.mpr (hblank.sub (by omega) ?_))
      unfold offsetMarker pageSize
      omega
    have hempty : Recoverable ⟨flash, boot flash, [], tape⟩ :=
      ⟨fun a _ hholds => absurd hholds (hnone slotA ha a), by simp [Spared]⟩
    exact hempty.boot
  | @call m m' r c tape _ hm hrun ih =>
    have h' : Discipline { m with tape := tape } := ⟨ih.slots, ih.staged, ih.spared, ih.generation⟩
    exact wp_ok (call_discipline h' hm c) hrun
  | @cut m m' c tape _ hm hrun ih =>
    have h' : Discipline { m with tape := tape } := ⟨ih.slots, ih.staged, ih.spared, ih.generation⟩
    have hcut := wp_cut (call_discipline h' hm c) hrun
    exact hcut.boot
  | reset _ ih => exact (ih.recoverable ⟨rfl, rfl⟩).boot
  | arm _ _ ih => exact ⟨ih.slots, ih.staged, ih.spared, ih.generation⟩

end Calls

end DeusOs.Asset
