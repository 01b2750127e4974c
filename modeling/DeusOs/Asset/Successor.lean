import DeusOs.Asset.Discipline
import DeusOs.Asset.Retransmission

/-!
# The active record and its successor

While a session is open, the active record stays what it is, in RAM and on
flash: the candidate has the other slot (`Spares`). The candidate is the
active record's successor, one generation on (`Ready`), and only a commit
makes it the active one (`commit_end`).
-/

namespace DeusOs.Asset

open Nor
open LittleEndian (read16 read32)

/-! ## The invariant -/

/-- The record is what its slot holds. -/
structure OnFlash (f : Mem) (r : Record) : Prop where
  crc : r.payloadCrc32 = crc32 (payload f r.slotAddress)
  generation : r.generation ≤ generationMax

/-- The candidate is the one to follow `active`. -/
structure Succeeds (active : Option Record) (c : Candidate) : Prop where
  slotAddress : c.slotAddress = otherSlot active
  generation : c.generation = nextGeneration active
  notWorn : ¬ WornOut active
  differs : c.acceptedBytes = 0 → active.map Record.payloadCrc32 ≠ some c.payloadCrc32

/-- The active record is on flash, and a candidate is its successor. -/
structure Ready (m : Machine Ram) : Prop where
  record : ∀ r, m.ram.activeRecord = some r → OnFlash m.flash r
  candidate : m.ram.candidate.active = true → m.ram.candidate.compareActive = false →
    Succeeds m.ram.activeRecord m.ram.candidate

/-- The active record is the same, and its slot is untouched. -/
structure Spares (m m' : Machine Ram) : Prop where
  record : m'.ram.activeRecord = m.ram.activeRecord
  flash : OnlyIn (otherSlot m.ram.activeRecord) m.flash m'.flash

section Spared

variable {m m' m'' : Machine Ram} {r : Record}

theorem Spares.refl (m : Machine Ram) : Spares m m := ⟨rfl, OnlyIn.refl _ _⟩

theorem Spares.trans (h : Spares m m') (h' : Spares m' m'') : Spares m m'' := by
  refine ⟨h'.record.trans h.record, h.flash.trans ?_⟩
  rw [← h.record]
  exact h'.flash

/-- Nothing but the flash and the active record matters. -/
theorem Spares.of_eq (hrecord : m'.ram.activeRecord = m.ram.activeRecord)
    (hflash : m'.flash = m.flash) : Spares m m' := by
  refine ⟨hrecord, ?_⟩
  rw [hflash]
  exact OnlyIn.refl _ _

/-- A plan that keeps to a slot changes that slot only, wherever it broke. -/
theorem onlyIn_of_broke {slot : ℕ} {plan : List Op} (hkeeps : KeepsTo slot plan)
    (h : Broke plan m m') : OnlyIn slot m.flash m'.flash := by
  intro x hx
  refine h.flash_of_not_covers fun o ho hcov => ?_
  have := hkeeps o ho x hcov
  omega

/-- **The active record's payload is untouched,** as it lies in the slot that is
not written. -/
theorem Spares.payload (h : Spares m m') (hactive : m.ram.activeRecord = some r)
    (hslot : r.slotAddress = slotA ∨ r.slotAddress = slotB) :
    payload m'.flash r.slotAddress = payload m.flash r.slotAddress := by
  have hother := otherSlot_cases m.ram.activeRecord
  have hne := otherSlot_ne hslot
  rw [← hactive] at hne
  refine Mem.bytes_congr fun i hi => h.flash _ ?_
  unfold configBytes at hi
  unfold slotA slotB pageSize offsetPayload at *
  omega

/-- A candidate that is complete has the other slot. -/
theorem Ready.slotAddress (h : Ready m) (hcomplete : Complete m.ram.candidate) :
    m.ram.candidate.slotAddress = otherSlot m.ram.activeRecord :=
  (h.candidate hcomplete.active hcomplete.changed).slotAddress

/-- The active record stays on flash. -/
theorem Ready.kept (h : Ready m) (hinv : Inv m) (hspares : Spares m m') :
    ∀ r, m'.ram.activeRecord = some r → OnFlash m'.flash r := by
  intro r hr
  rw [hspares.record] at hr
  obtain ⟨hcrc, hgeneration⟩ := h.record r hr
  refine ⟨?_, hgeneration⟩
  rw [hspares.payload hr (hinv.record r hr)]
  exact hcrc

end Spared

/-! ## The operations on the candidate -/

section Operations

variable {m m' : Machine Ram} {crc : UInt32} {data : List UInt8} {result : Result}

theorem spares_startStep (h : StartStep m (some result) m') : Spares m m' := by
  have hrecord := record_of_startStep h
  cases h with
  | wornOut => exact Spares.of_eq rfl rfl
  | started _ hran => exact ⟨hrecord, onlyIn_of_broke (keepsTo_startPlan _ _ _) hran.toBroke⟩
  | failed _ _ hbroke => exact ⟨hrecord, onlyIn_of_broke (keepsTo_startPlan _ _ _) hbroke⟩

/-- A begin spares the active record. -/
theorem spares_beginStep (h : BeginStep crc m (some result) m') : Spares m m' := by
  cases h with
  | refused => exact Spares.refl m
  | comparing => exact Spares.of_eq rfl rfl
  | starting _ _ hstart =>
    have hspares := spares_startStep hstart
    exact ⟨hspares.record, hspares.flash⟩

/-- A candidate that began is the successor. -/
theorem succeeds_beginStep (h : BeginStep crc m (some .ok) m')
    (hcmp : m'.ram.candidate.compareActive = false) :
    Succeeds m'.ram.activeRecord m'.ram.candidate := by
  cases h with
  | comparing => exact absurd hcmp (by simp [comparing])
  | starting _ hcrc hstart =>
    cases hstart with
    | started hnot _ hram =>
      rw [hram]
      exact ⟨rfl, rfl, hnot, fun _ => hcrc⟩

/-- The bytes that a chunk stores are in the successor's slot. -/
theorem keepsTo_stored (hinv : Inv m) (hready : Ready m)
    (hact : m.ram.candidate.active = true) (hcmp : m.ram.candidate.compareActive = false)
    (hfits : m.ram.candidate.acceptedBytes + data.length ≤ configBytes) :
    KeepsTo (otherSlot m.ram.activeRecord)
      (programOps (payloadAddress m.ram.candidate
        (m.ram.candidate.acceptedBytes - (held m.ram.candidate).length))
        (held m.ram.candidate ++ data)) := by
  have hslot := (hready.candidate hact hcmp).slotAddress
  have hparity := (hinv.changed hact hcmp).1
  have hheld : (held m.ram.candidate).length ≤ m.ram.candidate.acceptedBytes := by
    unfold held
    split
    next hpend =>
      have := hparity.mp hpend
      rw [List.length_singleton]
      omega
    next => exact Nat.zero_le _
  refine keepsTo_programOps ?_ ?_
  · rw [payloadAddress, hslot]
    omega
  · rw [payloadAddress, hslot, List.length_append]
    unfold configBytes at hfits
    unfold offsetPayload pageSize
    omega

/-- A write that starts the candidate spares the active record; one that
goes on has to. -/
theorem spares_put (h : PutStep data m (some result) m')
    (hstored : m.ram.candidate.active = true → m.ram.candidate.compareActive = false →
      m.ram.candidate.acceptedBytes + data.length ≤ configBytes →
      WriteStep (payloadAddress m.ram.candidate
        (m.ram.candidate.acceptedBytes - (held m.ram.candidate).length))
        (held m.ram.candidate ++ data) (accept m.ram.candidate data) m (some result) m' →
      OnlyIn (otherSlot m.ram.activeRecord) m.flash m'.flash) : Spares m m' := by
  have hrecord := record_of_putStep h
  -- the plan of a write that starts the candidate
  have hstart : ∀ {record : Record}, m.ram.candidate.acceptedBytes + data.length ≤ configBytes →
      KeepsTo (otherSlot m.ram.activeRecord)
        (planAfter m.ram.activeRecord m.ram.candidate.payloadCrc32 ++
          programOps (otherSlot m.ram.activeRecord + offsetPayload)
            (m.flash.bytes (record.slotAddress + offsetPayload)
              m.ram.candidate.acceptedBytes ++ data)) := by
    intro record hfits
    refine (keepsTo_startPlan _ _ _).append (keepsTo_programOps (by omega) ?_)
    rw [List.length_append, Mem.length_bytes]
    unfold configBytes at hfits
    unfold offsetPayload pageSize
    omega
  cases h with
  | refused => exact Spares.refl m
  | compared => exact Spares.of_eq rfl rfl
  | wornOut => exact Spares.of_eq rfl rfl
  | started _ _ _ hfits _ _ hran =>
    exact ⟨hrecord, onlyIn_of_broke (hstart hfits) hran.toBroke⟩
  | startFailed _ _ _ hfits _ _ hbroke =>
    exact ⟨hrecord, onlyIn_of_broke (hstart hfits) hbroke⟩
  | stored hact hcmp hfits hwrite => exact ⟨hrecord, hstored hact hcmp hfits hwrite⟩

theorem spares_putStep (hinv : Inv m) (hready : Ready m)
    (h : PutStep data m (some result) m') : Spares m m' := by
  refine spares_put h fun hact hcmp hfits hwrite => ?_
  have hkeeps := keepsTo_stored hinv hready hact hcmp hfits
  cases hwrite with
  | written hran => exact onlyIn_of_broke hkeeps hran.toBroke
  | failed hbroke => exact onlyIn_of_broke hkeeps hbroke

/-- A candidate that took a chunk is the successor. -/
theorem succeeds_putStep (hready : Ready m) (hpos : data ≠ [])
    (h : PutStep data m (some .ok) m') (hcmp : m'.ram.candidate.compareActive = false) :
    Succeeds m'.ram.activeRecord m'.ram.candidate := by
  have hlen : 0 < data.length := List.length_pos_iff.mpr hpos
  cases h with
  | compared _ hold => exact absurd hcmp (by simp [hold])
  | started _ _ _ _ _ hnot _ hram hsame htracks =>
    rw [hram]
    refine ⟨hsame.slotAddress, hsame.generation, hnot, fun hzero => ?_⟩
    have haccepted := htracks.accepted
    rw [List.length_append] at haccepted
    exact absurd (haccepted.symm.trans hzero) (by omega)
  | stored hact hold _ hwrite =>
    obtain ⟨hslot, hgeneration, hnot, -⟩ := hready.candidate hact hold
    cases hwrite with
    | written _ hram =>
      have hsame := sameCandidate_accept m.ram.candidate data
      rw [hram]
      refine ⟨hsame.slotAddress.trans hslot, hsame.generation.trans hgeneration, hnot,
        fun hzero => ?_⟩
      have haccepted := accept_acceptedBytes m.ram.candidate data
      exact absurd (haccepted.symm.trans hzero) (by omega)

/-- What a record that validates is. -/
theorem stored_of_validate {f : Mem} {slot marker : ℕ} {record : Record}
    (h : validateRecord f slot marker = .ok record) : OnFlash f record := by
  have hvalid := validated_of_ok h
  refine ⟨?_, hvalid.bounded⟩
  rw [slotAddress_of_validate h]
  exact hvalid.payload

/-- A commit that does not succeed leaves the active record, where the
candidate has the other slot. -/
theorem spares_commitStep
    (hslot : Complete m.ram.candidate → m.ram.candidate.slotAddress = otherSlot m.ram.activeRecord)
    (hne : result ≠ .ok) (h : CommitStep m (some result) m') : Spares m m' := by
  have honly : ∀ {plan' : List Op} {m' : Machine Ram}, Complete m.ram.candidate →
      Broke plan' m m' → plan' <+: crcPlan m.ram.candidate.slotAddress m.flash ++
        markerPlan m.ram.candidate.slotAddress →
      OnlyIn (otherSlot m.ram.activeRecord) m.flash m'.flash := by
    intro plan' m' hcomplete hbroke hpart
    have hkeeps : KeepsTo (otherSlot m.ram.activeRecord)
        (crcPlan m.ram.candidate.slotAddress m.flash ++
          markerPlan m.ram.candidate.slotAddress) := by
      rw [hslot hcomplete]
      exact (keepsTo_crcPlan _ _).append (keepsTo_markerPlan _)
    exact onlyIn_of_broke (fun o ho => hkeeps o (hpart.subset ho)) hbroke
  have hfirst : crcPlan m.ram.candidate.slotAddress m.flash <+:
      crcPlan m.ram.candidate.slotAddress m.flash ++ markerPlan m.ram.candidate.slotAddress :=
    List.prefix_append _ _
  have hall : crcPlan m.ram.candidate.slotAddress m.flash ++
      markerPlan m.ram.candidate.slotAddress <+:
        crcPlan m.ram.candidate.slotAddress m.flash ++ markerPlan m.ram.candidate.slotAddress :=
    ⟨[], List.append_nil _⟩
  cases h with
  | refused => exact Spares.refl m
  | unchanged => exact Spares.of_eq rfl rfl
  | headerFailed hcomplete hbroke hram =>
    exact ⟨by rw [hram], honly hcomplete hbroke hfirst⟩
  | invalid hcomplete hran hram =>
    exact ⟨by rw [hram], honly hcomplete hran.toBroke hfirst⟩
  | markerFailed hcomplete hran _ _ hbroke hram =>
    exact ⟨by rw [hram], honly hcomplete (hran.broke hbroke) hall⟩
  | markedInvalid hcomplete hran _ hran' hram =>
    exact ⟨by rw [hram], honly hcomplete (hran.trans hran').toBroke hall⟩
  | committed => exact absurd rfl hne

/-- **A commit makes the successor the active record,** on the flash and in RAM,
and ends the candidate. -/
theorem commit_end (hinv : Inv m) (hready : Ready m) (h : CommitStep m (some .ok) m') :
    m.ram.candidate.compareActive = false ∧ m'.ram.candidate.active = false ∧
      ∃ record, m'.ram.activeRecord = some record ∧ OnFlash m'.flash record ∧
        record.generation = nextGeneration m.ram.activeRecord := by
  cases h with
  | invalid _ _ _ hvalid => exact absurd (Or.inl rfl) (validateRecord_error hvalid)
  | markedInvalid _ _ _ _ _ hvalid => exact absurd (Or.inl rfl) (validateRecord_error hvalid)
  | committed hcomplete hran _ hran' _ hvalid =>
    obtain ⟨hact, -, hcmp, -⟩ := hcomplete
    have hsucceeds := hready.candidate hact hcmp
    have hheader := (hinv.changed hact hcmp).2.2
    rw [← header_of_commit (hran.trans hran').toBroke] at hheader
    have hle := nextGeneration_le hsucceeds.notWorn
    rw [← hsucceeds.generation] at hle
    refine ⟨hcmp, rfl, _, rfl, stored_of_validate hvalid, ?_⟩
    rw [(validateRecord_ok hvalid).2.1, generation_of_header hle hheader, hsucceeds.generation]

end Operations

/-! ## The runs -/

section Runs

variable {m m' : Machine Ram} {frame : FrameView} {p : List UInt8} {now : UInt32}
  {response : Response}

/-- The fates to come, the session and the fault control do not matter. -/
theorem Ready.congr (h : Ready m) (hflash : m'.flash = m.flash)
    (hrecord : m'.ram.activeRecord = m.ram.activeRecord)
    (hcandidate : m'.ram.candidate = m.ram.candidate) : Ready m' := by
  refine ⟨?_, ?_⟩
  · rw [hflash, hrecord]
    exact h.record
  · rw [hrecord, hcandidate]
    exact h.candidate

/-- Without a candidate, what is on flash is enough. -/
theorem Ready.of_idle (hidle : m.ram.candidate.active = false)
    (h : ∀ r, m.ram.activeRecord = some r → OnFlash m.flash r) : Ready m :=
  ⟨h, fun hact => absurd hact (by simp [hidle])⟩

/-- **Before a commit the active record stays:** a BEGIN at most starts the
other slot. -/
theorem spares_beginEnd {status : Status} (h : BeginEnd p now m status m') : Spares m m' := by
  cases h with
  | refused => exact Spares.refl m
  | again => exact Spares.of_eq rfl rfl
  | opened _ _ hstep => exact ⟨(spares_beginStep hstep).record, (spares_beginStep hstep).flash⟩
  | closed _ _ _ _ hstep =>
    exact ⟨(spares_beginStep hstep).record, (spares_beginStep hstep).flash⟩

/-- A WRITE_CHUNK spares the active record. -/
theorem spares_writeEnd {status : Status} (hinv : Inv m) (hready : Ready m)
    (h : WriteEnd p now m status m') : Spares m m' := by
  cases h with
  | refused => exact Spares.refl m
  | again => exact Spares.of_eq rfl rfl
  | stored _ hput =>
    have hspares := spares_putStep hinv hready hput
    exact ⟨hspares.record, hspares.flash⟩
  | wornOut _ hput => exact spares_putStep hinv hready hput
  | closed _ hput =>
    have hspares := spares_putStep hinv hready hput
    exact ⟨hspares.record, hspares.flash⟩

theorem ready_beginEnd {status : Status} (hinv : Inv m) (hready : Ready m)
    (h : BeginEnd p now m status m') : Ready m' := by
  have hspares := spares_beginEnd h
  cases h with
  | refused => exact hready
  | again => exact hready.congr rfl rfl rfl
  | opened _ _ hstep =>
    exact ⟨hready.kept hinv hspares, fun _ hcmp => succeeds_beginStep hstep hcmp⟩
  | closed => exact Ready.of_idle rfl (hready.kept hinv hspares)

theorem ready_writeEnd {status : Status} (hinv : Inv m) (hready : Ready m)
    (h : WriteEnd p now m status m') : Ready m' := by
  have hspares := spares_writeEnd hinv hready h
  cases h with
  | refused => exact hready
  | again => exact hready.congr rfl rfl rfl
  | stored hnext hput =>
    have hpos : chunk p ≠ [] := by
      intro hnil
      have hlen := hnext.length_chunk
      have hsome := hnext.pos
      rw [hnil, List.length_nil] at hlen
      omega
    have hsucceeds := succeeds_putStep hready hpos hput
    exact ⟨hready.kept hinv hspares, fun _ => hsucceeds⟩
  | wornOut _ hput =>
    cases hput with
    | wornOut hold => exact hready.congr rfl rfl rfl
    | stored _ _ _ hwrite => exact nomatch hwrite
  | closed => exact Ready.of_idle rfl (hready.kept hinv hspares)

theorem ready_commitEnd {status : Status} (hinv : Inv m) (hready : Ready m)
    (h : CommitEnd p m status m') : Ready m' := by
  cases h with
  | refused => exact hready
  | again => exact hready
  | committed _ _ _ _ hok hstep =>
    have hidle := idle_of_commitStep hstep hok
    rcases hok with rfl | rfl
    · obtain ⟨-, -, record, hrecord, hstored, -⟩ := commit_end hinv hready hstep
      refine Ready.of_idle hidle fun r hr => ?_
      obtain rfl := Option.some.inj (hr.symm.trans hrecord)
      exact hstored
    · have hne : Result.unchanged ≠ .ok := by decide
      have hkept := hready.kept hinv (spares_commitStep hready.slotAddress hne hstep)
      exact Ready.of_idle hidle hkept
  | closed _ hne _ _ hstep =>
    have hkept := hready.kept hinv (spares_commitStep hready.slotAddress hne hstep)
    exact Ready.of_idle rfl hkept

theorem ready_frameEnd (hinv : Inv m) (hready : Ready m)
    (h : FrameEnd frame now m response m') : Ready m' := by
  cases h with
  | refused => exact hready
  | begin _ hend => exact ready_beginEnd hinv hready hend
  | write _ hend => exact ready_writeEnd hinv hready hend
  | commit _ hend => exact ready_commitEnd hinv hready hend
  | abort _ hend =>
    cases hend with
    | refused => exact hready
    | idle => exact hready
    | closed => exact Ready.of_idle rfl hready.record
  | status _ hend =>
    cases hend with
    | refused => exact hready
    | any => exact hready
    | session => exact hready.congr rfl rfl rfl
  | read _ hend =>
    cases hend with
    | refused => exact hready
    | read => exact hready

/-- The record that the boot finds is on flash. -/
theorem onFlash_bootRecord {f : Mem} {record : Record} (h : (bootRecord f).1 = some record) :
    OnFlash f record := (validate_bootRecord h).elim stored_of_validate stored_of_validate

/-- **In every reachable state** the active record is on flash, and a
candidate is its successor. -/
theorem Reachable.ready (h : Reachable m) : Ready m := by
  induction h with
  | boot flash log tape =>
    refine Ready.of_idle rfl fun record hrecord => onFlash_bootRecord ?_
    simpa [Asset.boot, selectBootRecord] using hrecord
  | arm control _ ih => exact ih.congr rfl rfl rfl
  | @step m m' ev r tape hreach hserve ih =>
    have hinv : Inv { m with tape := tape } :=
      hreach.inv.congr rfl rfl rfl ⟨rfl, rfl, rfl, rfl⟩
    have hready : Ready { m with tape := tape } := ih.congr rfl rfl rfl
    suffices hwp : wp (serve ev) (fun _ m' => Ready m') (fun _ => True) { m with tape := tape } from
      wp_ok hwp hserve
    have hclear : Ready (cleared { m with tape := tape }) := Ready.of_idle rfl hready.record
    cases ev with
    | frame frame now =>
      simp only [serve, wp_bind]
      exact wp_mono (handleFrame_wp hinv frame now) (fun _ _ hend => ready_frameEnd hinv hready hend)
        fun _ _ => trivial
    | poll now =>
      simp only [serve, wp_bind]
      exact wp_poll now hready fun _ => hclear
    | resetSession =>
      simp only [serve, wp_bind]
      exact wp_clearSession hclear

end Runs

end DeusOs.Asset
