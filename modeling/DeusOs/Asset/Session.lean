import DeusOs.Asset.Model.Transfer
import DeusOs.Asset.Operations

/-!
# The session and the candidate

Two layers keep a state each: the session that the host sees, and the
candidate that is written to flash. `Inv` says that they are in step, and
holds in every state, whatever frames arrive, whenever flash operations
fail, and wherever a reset strikes.
-/

namespace DeusOs.Asset

open Nor
open LittleEndian (read16 read32)

/-! ## Runs -/

/-- What happens next. -/
inductive Event
  | frame (frame : FrameView) (now : UInt32)
  | poll (now : UInt32)
  | resetSession

/-- One event, with the response to a frame. -/
def serve : Event → Prog Ram (Option Response)
  | .frame frame now => do
    let response ← handleFrame frame now
    pure (some response)
  | .poll now => do
    poll now
    pure none
  | .resetSession => do
    resetSession
    pure none

/-- The states of the device. Each event finds flash operations of any fate
to come; a reset starts over from the flash it left; and a debugger may
write the fault control between two events. -/
inductive Reachable : Machine Ram → Prop
  | boot (flash : Mem) (log : List (Entry Ram)) (tape : ℕ → Option Outcome) :
      Reachable ⟨flash, boot flash, log, tape⟩
  | step {m m' : Machine Ram} {ev : Event} {r : Option Response} (tape : ℕ → Option Outcome) :
      Reachable m → serve ev { m with tape := tape } = .ok r m' → Reachable m'
  | arm {m : Machine Ram} (control : UInt32) :
      Reachable m → Reachable { m with ram := { m.ram with faultControl := control } }

/-- Every operation takes effect and says so. -/
def goodTape : ℕ → Option Outcome := fun _ => some Outcome.good

/-- A device with erased slots. -/
def erasedDevice : Machine Ram := ⟨fun _ => 0xFF, boot fun _ => 0xFF, [], goodTape⟩

/-- A request that changes something, of this payload. -/
def request (payload : List UInt8) : FrameView :=
  ⟨frameProtocolVersion, assetTransferRequest, 0x01, 0, 1, some payload⟩

/-- An event on flash operations that work. -/
def Event.done (ev : Event) (m : Machine Ram) : Option (Option Response) × Machine Ram :=
  outcome (serve ev) { m with tape := goodTape }

/-- A run goes on through an event that ends. -/
theorem Reachable.done {m : Machine Ram} (h : Reachable m) (ev : Event)
    (hends : (ev.done m).1.isSome = true) : Reachable (ev.done m).2 :=
  .step goodTape h (run_of_outcome (Option.eq_some_of_isSome hends))

/-! ## The invariant -/

/-- The two layers are in step. -/
structure InStep (r : Ram) : Prop where
  active : r.transfer.active = r.candidate.active
  offset : r.transfer.active = true → r.transfer.nextOffset = r.candidate.acceptedBytes
  bound : r.transfer.active = true → r.transfer.nextOffset ≤ configBytes
  crc : r.transfer.active = true → r.transfer.payloadCrc32 = r.candidate.payloadCrc32

/-- What the operations on the candidate rely on. -/
structure Inv (m : Machine Ram) : Prop extends InStep m.ram where
  record : ∀ record, m.ram.activeRecord = some record →
    record.slotAddress = slotA ∨ record.slotAddress = slotB
  identified : m.ram.transfer.active = true → m.ram.transfer.transferId ≠ 0
  compared : m.ram.candidate.active = true → m.ram.candidate.compareActive = true →
    m.ram.activeRecord.map Record.payloadCrc32 = some m.ram.candidate.payloadCrc32
  changed : m.ram.candidate.active = true → m.ram.candidate.compareActive = false →
    (m.ram.candidate.pendingValid = true ↔ m.ram.candidate.acceptedBytes % 2 = 1) ∧
      (m.ram.candidate.slotAddress = slotA ∨ m.ram.candidate.slotAddress = slotB) ∧
      m.flash.bytes m.ram.candidate.slotAddress 24 =
        metadataBytes m.ram.candidate.generation m.ram.candidate.payloadCrc32

/-- With no session and no candidate, the layers are in step. -/
theorem Inv.of_idle {m : Machine Ram} (hsession : m.ram.transfer.active = false)
    (hcandidate : m.ram.candidate.active = false)
    (hrecord : ∀ record, m.ram.activeRecord = some record →
      record.slotAddress = slotA ∨ record.slotAddress = slotB) : Inv m where
  active := by rw [hsession, hcandidate]
  offset h := absurd h (by simp [hsession])
  bound h := absurd h (by simp [hsession])
  crc h := absurd h (by simp [hsession])
  record := hrecord
  identified h := absurd h (by simp [hsession])
  compared h := absurd h (by simp [hcandidate])
  changed h := absurd h (by simp [hcandidate])

/-- What is checked of a record that validates. -/
structure Validated (f : Mem) (slot marker : ℕ) (r : Record) : Prop where
  record : r = ⟨slot, word f (slot + 0x0C), UInt32.ofNat (word f (slot + 0x10))⟩
  marker : word f (slot + 0x3C) = 0xFFFF + 65536 * marker
  positive : r.generation ≠ 0
  bounded : r.generation ≤ generationMax
  header : (crc32 (f.bytes slot 24)).toNat = word f (slot + offsetHeaderCrc)
  payload : r.payloadCrc32 = crc32 (payload f slot)

/-- What a validated slot says, check by check. -/
theorem validated_of_ok {f : Mem} {slot marker : ℕ} {record : Record}
    (h : validateRecord f slot marker = .ok record) : Validated f slot marker record := by
  unfold validateRecord at h
  split_ifs at h with hfields hspare hgen hcrc hlayout
  obtain rfl := Except.ok.inj h
  obtain ⟨-, -, -, -, hmarker⟩ : _ ∧ _ ∧ _ ∧ _ ∧ _ := by simpa only [not_or, not_not] using hfields
  obtain ⟨hpos, hmax, hheader⟩ : _ ∧ _ ∧ _ := by simpa only [not_or, not_not] using hgen
  exact ⟨rfl, hmarker, hpos, Nat.le_of_not_lt hmax, hheader, not_not.mp hcrc⟩

/-- A record that validates has a payload that does. -/
theorem layoutValidate_of_validate {f : Mem} {slot marker : ℕ} {r : Record}
    (h : validateRecord f slot marker = .ok r) : layoutValidate (payload f slot) = true := by
  unfold validateRecord at h
  split at h
  · cases h
  split at h
  · cases h
  split at h
  · cases h
  split at h
  · cases h
  split at h
  · cases h
  · rename_i hlayout
    exact Bool.not_eq_false _ ▸ hlayout

/-- A record that validates is the one at the slot. -/
theorem slotAddress_of_validate {f : Mem} {slot marker : ℕ} {record : Record}
    (h : validateRecord f slot marker = .ok record) : record.slotAddress = slot := by
  rw [(validated_of_ok h).record]

/-- Why a record may be refused. -/
theorem validateRecord_error {f : Mem} {slot marker : ℕ} {e : Result}
    (h : validateRecord f slot marker = .error e) : ¬ (e = .ok ∨ e = .unchanged) := by
  unfold validateRecord at h
  split at h
  · cases h
    simp
  split at h
  · cases h
    simp
  split at h
  · cases h
    simp
  split at h
  · cases h
    simp
  split at h
  · cases h
    simp
  · exact nomatch h

/-- The record chosen at boot is one of the two that validate. -/
theorem validate_bootRecord {f : Mem} {record : Record} (h : (bootRecord f).1 = some record) :
    validateRecord f slotA commitMarker = .ok record ∨
      validateRecord f slotB commitMarker = .ok record := by
  unfold bootRecord at h
  rcases ha : validateRecord f slotA commitMarker with e | a
  · rcases hb : validateRecord f slotB commitMarker with e' | b
    · simp [ha, hb] at h
    · simp only [ha, hb, Option.some.injEq] at h
      exact Or.inr (congrArg Except.ok h)
  · rcases hb : validateRecord f slotB commitMarker with e' | b
    · simp only [ha, hb, Option.some.injEq] at h
      exact Or.inl (congrArg Except.ok h)
    · simp only [ha, hb] at h
      split_ifs at h
      · exact Or.inl (congrArg Except.ok (Option.some.inj h))
      · exact Or.inr (congrArg Except.ok (Option.some.inj h))
      · exact Or.inl (congrArg Except.ok (Option.some.inj h))

/-- A boot selects a record in one of the two slots. -/
theorem bootRecord_slot {f : Mem} {record : Record} (h : (bootRecord f).1 = some record) :
    record.slotAddress = slotA ∨ record.slotAddress = slotB :=
  (validate_bootRecord h).imp slotAddress_of_validate slotAddress_of_validate

/-- A boot has no session. -/
theorem inv_boot (flash : Mem) (log : List (Entry Ram)) (tape : ℕ → Option Outcome) :
    Inv ⟨flash, boot flash, log, tape⟩ := by
  refine Inv.of_idle rfl rfl fun record h => bootRecord_slot (f := flash) ?_
  simpa [boot, selectBootRecord] using h

/-- The fates to come and the fault control do not matter. -/
theorem Inv.congr {m m' : Machine Ram} (h : Inv m) (hflash : m'.flash = m.flash)
    (hrecord : m'.ram.activeRecord = m.ram.activeRecord)
    (hcandidate : m'.ram.candidate = m.ram.candidate)
    (htransfer : m'.ram.transfer.active = m.ram.transfer.active ∧
      m'.ram.transfer.nextOffset = m.ram.transfer.nextOffset ∧
      m'.ram.transfer.payloadCrc32 = m.ram.transfer.payloadCrc32 ∧
      m'.ram.transfer.transferId = m.ram.transfer.transferId) : Inv m' := by
  obtain ⟨hact, hoff, hcrc, hid⟩ := htransfer
  refine ⟨⟨?_, ?_, ?_, ?_⟩, ?_, ?_, ?_, ?_⟩
  · rw [hact, hcandidate]
    exact h.active
  · rw [hact, hoff, hcandidate]
    exact h.offset
  · rw [hact, hoff]
    exact h.bound
  · rw [hact, hcrc, hcandidate]
    exact h.crc
  · rw [hrecord]
    exact h.record
  · rw [hact, hid]
    exact h.identified
  · rw [hcandidate, hrecord]
    exact h.compared
  · rw [hcandidate, hflash]
    exact h.changed

/-! ## What the transfer layer does -/

section Handlers

variable {m : Machine Ram} {C : Machine Ram → Prop}

/-- `asset_clear_session` closes both. -/
theorem wp_clearSession {Q : Unit → Machine Ram → Prop}
    (h : Q () { m with ram := { m.ram with
      candidate := { m.ram.candidate with active := false }
      transfer := { m.ram.transfer with transferId := 0, active := false } } }) :
    wp clearSession Q C m := by
  simp only [clearSession, abortCandidate, candidateReset, modifyCandidate, modifyTransfer, wp_bind,
    wp_modifyRam]
  exact h

/-- The state that `asset_clear_session` leaves. -/
def cleared (m : Machine Ram) : Machine Ram :=
  { m with ram := { m.ram with
    candidate := { m.ram.candidate with active := false }
    transfer := { m.ram.transfer with transferId := 0, active := false } } }

/-- Clearing puts the layers in step from anywhere. -/
theorem inv_cleared {m : Machine Ram} (hrecord : ∀ record, m.ram.activeRecord = some record →
    record.slotAddress = slotA ∨ record.slotAddress = slotB) : Inv (cleared m) :=
  Inv.of_idle rfl rfl hrecord

/-- The time of the last activity does not matter to the invariant. -/
theorem inv_touch (h : Inv m) (now : UInt32) :
    Inv { m with ram := { m.ram with
      transfer := { m.ram.transfer with lastActivityMs := now } } } :=
  h.congr rfl rfl rfl ⟨rfl, rfl, rfl, rfl⟩

/-- The header is on flash after the start of a candidate. -/
theorem header_after_start {slot generation : ℕ} {crc : UInt32} {f : Mem} :
    (applyAll (startPlan slot generation crc) f).bytes slot 24 = metadataBytes generation crc := by
  have hblank : ((Op.erase slot pageSize).apply f).Blank slot 24 :=
    (Op.blank_apply_erase f slot pageSize).sub (Nat.le_refl _) (by unfold pageSize; omega)
  rw [startPlan, applyAll_cons]
  have hlen := length_metadataBytes generation crc
  have := @bytes_applyAll_programOps slot (metadataBytes generation crc)
    ((Op.erase slot pageSize).apply f) (by rw [hlen]) (by rw [hlen]; exact hblank)
  rwa [hlen] at this

/-- What is stored past the header leaves it. -/
theorem header_frame {slot base : ℕ} {bytes : List UInt8} {f : Mem} (hbase : slot + 24 ≤ base) :
    (applyAll (programOps base bytes) f).bytes slot 24 = f.bytes slot 24 := by
  refine Mem.bytes_congr fun i hi => ?_
  exact applyAll_programOps_of_outside (Or.inl (by omega)) f

/-- The session that a BEGIN opens. -/
def opened (r : Ram) (p : List UInt8) (now : UInt32) : Ram :=
  { r with transfer :=
    { transferId := read16 p 4, nextOffset := 0, payloadCrc32 := UInt32.ofNat (read32 p 10),
      lastChunk := [], lastActivityMs := now, active := true } }

/-- The fields of a BEGIN are those of a configuration that can be sent. -/
structure BeginFields (p : List UInt8) : Prop where
  reserved : p.getD 9 0 = 0 ∧ p.getD 14 0 = 0 ∧ p.getD 15 0 = 0
  objectType : read16 p 2 = 1
  schema : p.getD 8 0 = 1
  length : read16 p 6 = configBytes
  transferId : read16 p 4 ≠ 0

/-- The session is the one this BEGIN asks for. -/
def SameSession (r : Ram) (p : List UInt8) : Prop :=
  r.transfer.active = true ∧ r.transfer.transferId = read16 p 4 ∧
    r.transfer.payloadCrc32 = UInt32.ofNat (read32 p 10)

/-- A status with which the session turns a request away by itself. -/
def Refusal (status : Status) : Prop :=
  status ≠ .ok ∧ status ≠ .badState ∧ status ≠ .storageError ∧ status ≠ .wearBudgetExhausted

instance (status : Status) : Decidable (Refusal status) := inferInstanceAs (Decidable (_ ∧ _))

/-- How `asset_handle_begin` comes to its status. -/
inductive BeginEnd (p : List UInt8) (now : UInt32) (m : Machine Ram) : Status → Machine Ram → Prop
  /-- Refused: nothing changes. -/
  | refused {status : Status} : Refusal status →
      ¬ (BeginFields p ∧ (m.ram.transfer.active = false ∨ SameSession m.ram p)) →
      BeginEnd p now m status m
  /-- The session is there already. -/
  | again : BeginFields p → SameSession m.ram p →
      BeginEnd p now m .ok { m with ram := { m.ram with
        transfer := { m.ram.transfer with lastActivityMs := now } } }
  /-- The session is opened, and a candidate with it. -/
  | opened {m' : Machine Ram} : BeginFields p → m.ram.transfer.active = false →
      BeginStep (UInt32.ofNat (read32 p 10)) { m with ram := opened m.ram p now } (some .ok) m' →
      BeginEnd p now m .ok m'
  /-- The candidate could not be started: the session is closed again. -/
  | closed {result : Result} {m' : Machine Ram} : BeginFields p →
      m.ram.transfer.active = false → result ≠ .ok → result ≠ .unchanged →
      BeginStep (UInt32.ofNat (read32 p 10)) { m with ram := opened m.ram p now } (some result) m' →
      BeginEnd p now m (mapPersistenceResult result) (cleared m')

/-- A session is told of success also where nothing had to change. -/
theorem mapPersistenceResult_eq_ok {result : Result} :
    mapPersistenceResult result = .ok ↔ result = .ok ∨ result = .unchanged := by
  cases result <;> simp [mapPersistenceResult]

theorem beginStep_ne_unchanged {crc : UInt32} {m m' : Machine Ram} :
    ¬ BeginStep crc m (some .unchanged) m' := by
  intro h
  cases h with
  | starting _ _ h => exact nomatch h

/-- **The status of a BEGIN.** Beside a session that is open it is refused,
unless it is that session's own once more. -/
theorem beginStatus_wp (p : List UInt8) (now : UInt32) (m : Machine Ram) :
    wp (beginStatus p now) (BeginEnd p now m) (fun _ => m.ram.transfer.active = false) m := by
  simp only [beginStatus, wp_bind, wp_ram, wp_ite, wp_pure, wp_modifyRam, modifyTransfer, touch]
  split
  next h =>
    refine .refused (by decide) fun hf => ?_
    obtain ⟨h9, h14, h15⟩ := hf.1.reserved
    rcases h with h | h | h
    · exact h h9
    · exact h h14
    · exact h h15
  next hres =>
  split
  next h => exact .refused (by decide) fun hf => h hf.1.objectType
  next hobj =>
  split
  next h => exact .refused (by decide) fun hf => h hf.1.schema
  next hschema =>
  split
  next h => exact .refused (by decide) fun hf => h hf.1.length
  next hlen =>
  split
  next h => exact .refused (by decide) fun hf => hf.1.transferId h
  next hid =>
  have hfields : BeginFields p := by
    refine ⟨?_, not_not.mp hobj, not_not.mp hschema, not_not.mp hlen, hid⟩
    have := not_or.mp hres
    have h2 := not_or.mp this.2
    exact ⟨not_not.mp this.1, not_not.mp h2.1, not_not.mp h2.2⟩
  split
  next hact =>
    split
    next h =>
      refine .refused (by decide) fun hf => ?_
      rcases hf.2 with hidle | ⟨_, hid, hcrc⟩
      · exact absurd hidle (by simp [hact])
      · rcases h with h | h
        · exact h hid
        · exact h hcrc
    next h =>
      have := not_or.mp h
      exact .again hfields ⟨hact, not_not.mp this.1, not_not.mp this.2⟩
  next hact =>
    have hact : m.ram.transfer.active = false := by simpa using hact
    refine wp_mono (beginCandidate_wp _ _) (fun result m' h => ?_) fun _ _ => hact
    by_cases hok : mapPersistenceResult result = .ok
    · rw [if_neg (not_not.mpr hok)]
      rcases mapPersistenceResult_eq_ok.mp hok with rfl | rfl
      · exact .opened hfields hact h
      · exact absurd h beginStep_ne_unchanged
    · rw [if_pos hok, wp_bind]
      refine wp_clearSession ?_
      have hne := not_or.mp (mt mapPersistenceResult_eq_ok.mpr hok)
      exact .closed hfields hact hne.1 hne.2 h

/-- The fields of a chunk. -/
structure WriteFields (p : List UInt8) : Prop where
  reserved : p.getD 9 0 = 0
  pos : 0 < (p.getD 8 0).toNat
  le : (p.getD 8 0).toNat ≤ chunkMax
  length : p.length = 10 + (p.getD 8 0).toNat
  objectType : read16 p 2 = 1

/-- The chunk. -/
def chunk (p : List UInt8) : List UInt8 := (p.drop 10).take (p.getD 8 0).toNat

theorem WriteFields.length_chunk {p : List UInt8} (h : WriteFields p) :
    (chunk p).length = (p.getD 8 0).toNat := by
  have := h.length
  rw [chunk, List.length_take, List.length_drop]
  omega

/-- The session takes the chunk. -/
def chunkTaken (t : TransferState) (p : List UInt8) (now : UInt32) : TransferState :=
  { t with
    lastChunk := chunk p, nextOffset := read16 p 6 + (p.getD 8 0).toNat, lastActivityMs := now }

/-- The chunk is the last one that the session took. -/
structure Duplicate (r : Ram) (p : List UInt8) : Prop extends WriteFields p where
  active : r.transfer.active = true
  transferId : r.transfer.transferId = read16 p 4
  offset : read16 p 6 + (p.getD 8 0).toNat = r.transfer.nextOffset
  same : r.transfer.lastChunk = chunk p

/-- The chunk is the next one of the session. -/
structure Next (r : Ram) (p : List UInt8) : Prop extends WriteFields p where
  active : r.transfer.active = true
  transferId : r.transfer.transferId = read16 p 4
  offset : read16 p 6 = r.transfer.nextOffset
  fits : read16 p 6 + (p.getD 8 0).toNat ≤ configBytes

/-- No chunk is both. -/
theorem Duplicate.not_next {r : Ram} {p : List UInt8} (h : Duplicate r p) : ¬ Next r p := by
  intro hnext
  have hpos := h.pos
  have hdup := h.offset
  rw [← hnext.offset] at hdup
  omega

/-- How `asset_handle_write` comes to its status. -/
inductive WriteEnd (p : List UInt8) (now : UInt32) (m : Machine Ram) : Status → Machine Ram → Prop
  /-- Refused: nothing changes. -/
  | refused {status : Status} : Refusal status →
      ¬ (Duplicate m.ram p ∨ Next m.ram p) → WriteEnd p now m status m
  /-- The last chunk again. -/
  | again : Duplicate m.ram p →
      WriteEnd p now m .ok { m with ram := { m.ram with
        transfer := { m.ram.transfer with lastActivityMs := now } } }
  /-- The next chunk, stored or compared. -/
  | stored {m' : Machine Ram} : Next m.ram p → PutStep (chunk p) m (some .ok) m' →
      WriteEnd p now m .ok
        { m' with ram := { m'.ram with transfer := chunkTaken m'.ram.transfer p now } }
  /-- The active record may not be replaced: the session stays. -/
  | wornOut {m' : Machine Ram} : Next m.ram p →
      PutStep (chunk p) m (some .wearBudgetExhausted) m' →
      WriteEnd p now m .wearBudgetExhausted m'
  /-- A flash operation failed: the session is closed. -/
  | closed {m' : Machine Ram} : Next m.ram p → PutStep (chunk p) m (some .storageError) m' →
      WriteEnd p now m .storageError (cleared m')

/-- What a write can answer. -/
theorem putStep_result {data : List UInt8} {m' : Machine Ram} {result : Result}
    (h : PutStep data m (some result) m') :
    result = .ok ∨ result = .storageError ∨ result = .wearBudgetExhausted ∨
      result = .badState ∧ (m.ram.candidate.active = false ∨
        configBytes < m.ram.candidate.acceptedBytes + data.length) := by
  cases h with
  | refused h => exact Or.inr (Or.inr (Or.inr ⟨rfl, h⟩))
  | compared => exact Or.inl rfl
  | wornOut => exact Or.inr (Or.inr (Or.inl rfl))
  | started => exact Or.inl rfl
  | startFailed => exact Or.inr (Or.inl rfl)
  | stored _ _ _ h =>
    cases h with
    | written => exact Or.inl rfl
    | failed => exact Or.inr (Or.inl rfl)

/-- The candidate is what the write relies on. -/
theorem Inv.writeCandidate_wp (h : Inv m) (hact : m.ram.transfer.active = true)
    (data : List UInt8) :
    wp (writeCandidate data) (fun r m' => PutStep data m (some r) m')
      (fun m' => PutStep data m none m') m := by
  have hcand : m.ram.candidate.active = true := h.active ▸ hact
  refine Asset.writeCandidate_wp data m (fun hcmp => ?_) fun hcmp hpend => ?_
  · have hcrc := h.compared hcand hcmp
    obtain ⟨record, hrec, _⟩ := Option.map_eq_some_iff.mp hcrc
    exact ⟨record, hrec, h.record record hrec⟩
  · have hodd := (h.changed hcand hcmp).1.mp hpend
    omega

/-- **The status of a WRITE_CHUNK.** The next chunk is written, the last one
again is answered as before, and any other refused. -/
theorem writeStatus_wp (h : Inv m) (p : List UInt8) (now : UInt32) :
    wp (writeStatus p now) (WriteEnd p now m) (fun _ => Next m.ram p) m := by
  simp only [writeStatus, wp_bind, wp_ram, wp_ite, wp_pure, wp_modifyRam, modifyTransfer, touch]
  -- neither the last chunk again nor the next one
  have hrefused : ∀ {status : Status}, Refusal status →
      (Duplicate m.ram p → False) → (Next m.ram p → False) → WriteEnd p now m status m :=
    fun href hdup hnext => .refused href fun hor => hor.elim hdup hnext
  split
  next hlen =>
    have hno : WriteFields p → False := fun hf => by
      have hpos := hf.pos
      have hle := hf.le
      rcases hlen with hres | hzero | hlong | hlen
      · exact hres hf.reserved
      · omega
      · omega
      · exact hlen hf.length
    exact hrefused (by decide) (fun hd => hno hd.toWriteFields) fun hn =>
      hno hn.toWriteFields
  next hlen =>
  split
  next hobj =>
    exact hrefused (by decide) (fun hd => hobj hd.objectType) fun hn => hobj hn.objectType
  next hobj =>
  obtain ⟨hres, hlen⟩ := not_or.mp hlen
  obtain ⟨hpos, hlen⟩ := not_or.mp hlen
  obtain ⟨hle, hlen⟩ := not_or.mp hlen
  have hfields : WriteFields p :=
    ⟨not_not.mp hres, Nat.pos_of_ne_zero hpos, Nat.le_of_not_lt hle, not_not.mp hlen,
      not_not.mp hobj⟩
  split
  next hsession =>
    have hno : m.ram.transfer.active = true → m.ram.transfer.transferId = read16 p 4 → False := by
      intro hact hid
      rcases hsession with hidle | hne
      · exact absurd (hact.symm.trans hidle) (by simp)
      · exact hne hid
    exact hrefused (by decide) (fun hd => hno hd.active hd.transferId) fun hn =>
      hno hn.active hn.transferId
  next hsession =>
  obtain ⟨hact, hid⟩ := not_or.mp hsession
  have hact : m.ram.transfer.active = true := by simpa using hact
  have hid := not_not.mp hid
  split
  next hbefore =>
    have hnext : Next m.ram p → False := fun hn => by
      have := hn.offset
      omega
    split
    next hdup =>
      split
      next heq => exact .again ⟨hfields, hact, hid, hdup.1, heq⟩
      next hne => exact hrefused (by decide) (fun hd => hne hd.same) hnext
    next hdup =>
      refine hrefused (by decide) (fun hd => hdup ⟨hd.offset, ?_⟩) hnext
      rw [hd.same, hfields.length_chunk]
  next hafter =>
  have hdup : Duplicate m.ram p → False := fun hd => by
    have := hd.offset
    omega
  split
  next hne => exact hrefused (by decide) hdup fun hn => hne hn.offset
  next hoff =>
  have hoff := not_not.mp hoff
  split
  next hlong =>
    refine hrefused (by decide) hdup fun hn => ?_
    have := hn.fits
    omega
  next hfits =>
  have hfits := Nat.le_of_not_lt hfits
  have hnext : Next m.ram p := ⟨hfields, hact, hid, hoff, hfits⟩
  refine wp_mono (h.writeCandidate_wp hact _) (fun result m' hput => ?_) fun _ _ => hnext
  rcases putStep_result hput with rfl | rfl | rfl | ⟨rfl, hbad⟩
  · simp only [mapPersistenceResult, if_true, wp_bind, wp_modifyRam, wp_pure]
    exact .stored hnext hput
  · simp only [mapPersistenceResult, reduceCtorEq, if_false, true_or, if_true, wp_bind]
    refine wp_clearSession ?_
    exact .closed hnext hput
  · simp only [mapPersistenceResult, reduceCtorEq, if_false, or_self, wp_pure]
    exact .wornOut hnext hput
  · -- the layers are in step, so the write is not refused
    rcases hbad with hbad | hbad
    · rw [← h.active, hact] at hbad
      exact absurd hbad (by simp)
    · have hchunk := hfields.length_chunk
      rw [← h.offset hact, ← hoff] at hbad
      unfold chunk at hchunk
      omega

/-- The session is closed by a commit. -/
def finished (m : Machine Ram) : Machine Ram :=
  { m with ram := { m.ram with transfer := { m.ram.transfer with active := false } } }

/-- How `asset_handle_commit` comes to its status. -/
inductive CommitEnd (p : List UInt8) (m : Machine Ram) : Status → Machine Ram → Prop
  /-- Refused: nothing changes. -/
  | refused {status : Status} : status ≠ .ok →
      (status = .badState → m.ram.transfer.active = true ∧
        m.ram.transfer.nextOffset ≠ configBytes) →
      (read16 p 2 = 1 → m.ram.transfer.active = false →
        ¬ LastCommitMatches m.ram (read16 p 4)) →
      CommitEnd p m status m
  /-- The last commit again. -/
  | again : read16 p 2 = 1 → m.ram.transfer.active = false →
      LastCommitMatches m.ram (read16 p 4) → CommitEnd p m .ok m
  /-- Committed, or unchanged. -/
  | committed {result : Result} {m' : Machine Ram} : read16 p 2 = 1 →
      m.ram.transfer.active = true → m.ram.transfer.transferId = read16 p 4 →
      m.ram.transfer.nextOffset = configBytes → result = .ok ∨ result = .unchanged →
      CommitStep m (some result) m' → CommitEnd p m .ok (finished m')
  /-- Failed: the session is closed. -/
  | closed {result : Result} {m' : Machine Ram} : m.ram.transfer.active = true →
      result ≠ .ok → result ≠ .unchanged → result ≠ .badState →
      CommitStep m (some result) m' →
      CommitEnd p m (mapPersistenceResult result) (cleared m')

/-- With the layers in step, a commit of all the bytes is not refused. -/
theorem Inv.commit_ne_badState (h : Inv m) (hact : m.ram.transfer.active = true)
    (hall : m.ram.transfer.nextOffset = configBytes) {m' : Machine Ram} :
    ¬ CommitStep m (some .badState) m' := by
  have hcand : m.ram.candidate.active = true := h.active ▸ hact
  have hacc : m.ram.candidate.acceptedBytes = configBytes := (h.offset hact).symm.trans hall
  intro hstep
  have hvalid : ∀ {f : Mem} {slot marker : ℕ},
      validateRecord f slot marker ≠ .error .badState := by
    intro f slot marker hv
    unfold validateRecord at hv
    split at hv
    · cases hv
    split at hv
    · cases hv
    split at hv
    · cases hv
    split at hv
    · cases hv
    split at hv
    · cases hv
    · cases hv
  cases hstep with
  | refused href =>
    rcases href with hc | hc | ⟨hcmp, hpend⟩
    · rw [hcand] at hc
      exact absurd hc (by simp)
    · exact hc hacc
    · have hodd := (h.changed hcand hcmp).1.mp hpend
      rw [hacc] at hodd
      exact absurd hodd (by decide)
  | invalid _ _ _ hv => exact hvalid hv
  | markedInvalid _ _ _ _ _ hv => exact hvalid hv

/-- **The status of a COMMIT,** of a session that is complete; the last one's is
answered again. -/
theorem commitStatus_wp (h : Inv m) (p : List UInt8) :
    wp (commitStatus p) (CommitEnd p m) (fun _ => m.ram.transfer.active = true) m := by
  simp only [commitStatus, wp_bind, wp_ram, wp_ite, wp_pure]
  split
  next hobj => exact .refused (by simp) (by simp) fun hp => absurd hp hobj
  next hobj =>
  have hobj := not_not.mp hobj
  split
  next hact =>
    split
    next hmatch => exact .again hobj hact hmatch
    next hmatch => exact .refused (by simp) (by simp) fun _ _ => hmatch
  next hact =>
  have hact : m.ram.transfer.active = true := by simpa using hact
  have hidle : m.ram.transfer.active ≠ false := by simp [hact]
  split
  · exact .refused (by simp) (by simp) fun _ hf => absurd hf hidle
  next hid =>
  split
  next hoff => exact .refused (by simp) (fun _ => ⟨hact, hoff⟩) fun _ hf => absurd hf hidle
  next hoff =>
  have hoff := not_not.mp hoff
  refine wp_mono (commitCandidate_wp m) (fun result m' hstep => ?_) fun _ _ => hact
  by_cases hok : mapPersistenceResult result = .ok
  · rw [if_pos hok]
    simp only [finishCommit, modifyTransfer, wp_bind, wp_modifyRam, wp_pure, hok]
    exact .committed hobj hact (not_not.mp hid) hoff (mapPersistenceResult_eq_ok.mp hok) hstep
  · rw [if_neg hok, wp_bind]
    refine wp_clearSession ?_
    have hne := not_or.mp (mt mapPersistenceResult_eq_ok.mpr hok)
    refine .closed hact hne.1 hne.2 (fun hbad => ?_) hstep
    subst hbad
    exact h.commit_ne_badState hact hoff hstep

end Handlers

/-! ## The invariant is kept -/

section Kept

variable {m m' : Machine Ram}

/-- Starting a slot leaves the active record. -/
theorem record_of_startStep {result : Result} (h : StartStep m (some result) m') :
    m'.ram.activeRecord = m.ram.activeRecord := by
  cases h with
  | wornOut => rfl
  | started _ _ hram => rw [hram]
  | failed _ _ _ hram => rw [hram]

theorem record_of_beginStep {crc : UInt32} {result : Result}
    (h : BeginStep crc m (some result) m') : m'.ram.activeRecord = m.ram.activeRecord := by
  cases h with
  | refused => rfl
  | comparing => rfl
  | starting _ _ h =>
    have hsame := record_of_startStep h
    exact hsame

/-- Writing bytes leaves the active record. -/
theorem record_of_putStep {data : List UInt8} {result : Result}
    (h : PutStep data m (some result) m') : m'.ram.activeRecord = m.ram.activeRecord := by
  cases h with
  | refused => rfl
  | compared => rfl
  | wornOut => rfl
  | started _ _ _ _ _ _ _ hram => rw [hram]
  | startFailed _ _ _ _ _ _ _ hram => rw [hram]
  | stored _ _ _ h =>
    cases h with
    | written _ hram => rw [hram]
    | failed _ hram => rw [hram]

/-- A session opened with a candidate declared the same. -/
theorem inv_opened {p : List UInt8} {now : UInt32} (h : Inv m) (hfields : BeginFields p)
    (hstep : BeginStep (UInt32.ofNat (read32 p 10)) { m with ram := opened m.ram p now }
      (some .ok) m') : Inv m' := by
  have hnext : (0 : ℕ) ≤ configBytes := Nat.zero_le _
  cases hstep with
  | comparing hidle hcrc =>
    refine ⟨⟨rfl, fun _ => rfl, fun _ => hnext, fun _ => rfl⟩, h.record,
      fun _ => hfields.transferId, fun _ _ => hcrc, fun _ hcmp => absurd hcmp (by simp [comparing])⟩
  | starting hidle hcrc hstart =>
    cases hstart with
    | started hworn hran hram =>
      have hother := otherSlot_cases m.ram.activeRecord
      refine ⟨⟨?_, ?_, ?_, ?_⟩, ?_, ?_, ?_, ?_⟩
      · rw [hram]
        rfl
      · intro _
        rw [hram]
        rfl
      · intro _
        rw [hram]
        exact hnext
      · intro _
        rw [hram]
        rfl
      · rw [hram]
        exact h.record
      · intro _
        rw [hram]
        exact hfields.transferId
      · intro _ hcmp
        rw [hram] at hcmp
        exact absurd hcmp (by simp [startedCandidate])
      · intro _ _
        rw [hram, hran.flash]
        exact ⟨by simp [startedCandidate], hother, header_after_start⟩

/-- A BEGIN keeps the invariant. -/
theorem inv_beginEnd {p : List UInt8} {now : UInt32} {status : Status} (h : Inv m)
    (hend : BeginEnd p now m status m') : Inv m' := by
  cases hend with
  | refused => exact h
  | again => exact inv_touch h now
  | opened hfields _ hstep => exact inv_opened h hfields hstep
  | closed _ _ _ _ hstep =>
    refine inv_cleared fun record hrec => h.record record ?_
    rw [record_of_beginStep hstep] at hrec
    exact hrec

/-- A stretch of payload leaves the header. -/
theorem header_after_write {c c' : Candidate} {base : ℕ} {bytes : List UInt8} {f f' : Mem}
    (hsame : SameCandidate c c') (hbase : c.slotAddress + 24 ≤ base)
    (hflash : f' = applyAll (programOps base bytes) f)
    (hheader : f.bytes c.slotAddress 24 = metadataBytes c.generation c.payloadCrc32) :
    f'.bytes c'.slotAddress 24 = metadataBytes c'.generation c'.payloadCrc32 := by
  rw [hsame.slotAddress, hsame.generation, hsame.payloadCrc32, hflash, header_frame hbase, hheader]

/-- Where the payload begins to be stored is past the header. -/
theorem payloadAddress_ge (c : Candidate) (offset : ℕ) :
    c.slotAddress + 24 ≤ payloadAddress c offset := by
  unfold payloadAddress offsetPayload
  omega

/-- An odd byte is held exactly when an odd number was accepted. -/
theorem parity_accept {c : Candidate}
    (h : c.pendingValid = true ↔ c.acceptedBytes % 2 = 1) (data : List UInt8) :
    (accept c data).pendingValid = true ↔ (accept c data).acceptedBytes % 2 = 1 := by
  rw [accept_acceptedBytes]
  rcases hp : c.pendingValid with _ | _
  · have heven : ¬ c.acceptedBytes % 2 = 1 := fun hodd => by
      rw [h.mpr hodd] at hp
      exact absurd hp (by simp)
    have haccept : accept c data = advance c data := by simp [accept, hp]
    rw [haccept]
    unfold advance
    split
    next hodd =>
      simp only [true_iff]
      omega
    next hodd =>
      simp only [hp, Bool.false_eq_true, false_iff]
      omega
  · have hodd := h.mp hp
    rcases data with - | ⟨b, data⟩
    · rw [accept_nil]
      exact h
    have haccept : accept c (b :: data) =
        advance { c with pendingValid := false, acceptedBytes := c.acceptedBytes + 1 } data := by
      simp [accept, hp]
    rw [haccept, List.length_cons]
    unfold advance
    split
    next ho =>
      simp only [true_iff]
      omega
    next ho =>
      simp only [Bool.false_eq_true, false_iff]
      omega

/-- **The next chunk, and the candidate moves with the session.** Both count the
bytes that were accepted, and both have counted the same. -/
theorem inv_stored {p : List UInt8} {now : UInt32} (h : Inv m) (hnext : Next m.ram p)
    (hput : PutStep (chunk p) m (some .ok) m') :
    Inv { m' with ram := { m'.ram with transfer := chunkTaken m'.ram.transfer p now } } := by
  obtain ⟨hfields, hact, _, hoff, hfits⟩ := hnext
  have hcand : m.ram.candidate.active = true := h.active ▸ hact
  have hlen := hfields.length_chunk
  have hacc : read16 p 6 = m.ram.candidate.acceptedBytes := hoff.trans (h.offset hact)
  cases hput with
  | compared _ hcmp hrec _ _ =>
    refine ⟨⟨h.active, fun _ => ?_, fun _ => hfits, fun _ => h.crc hact⟩, h.record,
      fun _ => h.identified hact, fun _ _ => h.compared hcand hcmp,
      fun _ hf => absurd (hcmp.symm.trans hf) (by simp)⟩
    change read16 p 6 + _ = m.ram.candidate.acceptedBytes + (chunk p).length
    rw [hlen, hacc]
  | started _ hcmp hrec _ _ _ hran hram hsame htracks =>
    obtain ⟨hslot', hgen', hcrc', hcmp', hact'⟩ := hsame
    have hother := otherSlot_cases m.ram.activeRecord
    have hcount := htracks.accepted
    rw [List.length_append, Mem.length_bytes, hlen] at hcount
    refine ⟨⟨?_, ?_, ?_, ?_⟩, ?_, ?_, ?_, ?_⟩
    · rw [hram]
      change m.ram.transfer.active = _
      rw [hact']
      exact h.active
    · intro _
      rw [hram]
      change read16 p 6 + _ = _
      rw [hcount, hacc]
    · exact fun _ => hfits
    · intro _
      rw [hram]
      change m.ram.transfer.payloadCrc32 = _
      rw [hcrc']
      exact h.crc hact
    · rw [hram]
      exact h.record
    · intro _
      rw [hram]
      exact h.identified hact
    · intro _ hc
      rw [hram] at hc
      exact absurd (hcmp'.symm.trans hc) (by simp [startedCandidate])
    · intro _ _
      rw [hram]
      refine ⟨?_, ?_, ?_⟩
      · rw [htracks.accepted]
        exact htracks.odd
      · rw [hslot']
        exact hother
      · change m'.flash.bytes _ 24 = metadataBytes _ _
        rw [hslot', hgen', hcrc', hran.flash, applyAll_append]
        refine (header_frame ?_).trans header_after_start
        simp only [startedCandidate]
        unfold offsetPayload
        omega
  | stored _ hcmp _ hwrite =>
    cases hwrite with
    | written hran hram =>
      have hsame := sameCandidate_accept m.ram.candidate (chunk p)
      obtain ⟨hpar, hslot, hheader⟩ := h.changed hcand hcmp
      refine ⟨⟨?_, ?_, ?_, ?_⟩, ?_, ?_, ?_, ?_⟩
      · rw [hram]
        change m.ram.transfer.active = _
        rw [hsame.active]
        exact h.active
      · intro _
        rw [hram]
        change read16 p 6 + _ = _
        rw [accept_acceptedBytes, hlen, hacc]
      · exact fun _ => hfits
      · intro _
        rw [hram]
        change m.ram.transfer.payloadCrc32 = _
        rw [hsame.payloadCrc32]
        exact h.crc hact
      · rw [hram]
        exact h.record
      · intro _
        rw [hram]
        exact h.identified hact
      · intro _ hc
        rw [hram] at hc
        exact absurd (hcmp.symm.trans (hsame.compareActive.symm.trans hc)) (by simp)
      · intro _ _
        rw [hram]
        refine ⟨parity_accept hpar _, ?_, ?_⟩
        · rw [hsame.slotAddress]
          exact hslot
        · exact header_after_write hsame (payloadAddress_ge _ _) hran.flash hheader

/-- A WRITE_CHUNK keeps the invariant. -/
theorem inv_writeEnd {p : List UInt8} {now : UInt32} {status : Status} (h : Inv m)
    (hend : WriteEnd p now m status m') : Inv m' := by
  cases hend with
  | refused => exact h
  | again => exact inv_touch h now
  | stored hnext hput => exact inv_stored h hnext hput
  | wornOut _ hput =>
    cases hput with
    | wornOut => exact h.congr rfl rfl rfl ⟨rfl, rfl, rfl, rfl⟩
    | stored _ _ _ hwrite => exact nomatch hwrite
  | closed _ hput =>
    refine inv_cleared fun record hrec => h.record record ?_
    rw [record_of_putStep hput] at hrec
    exact hrec

/-- The record that a commit makes active, if it does. -/
theorem record_of_commitStep {result : Result} (h : CommitStep m (some result) m')
    (hslot : m.ram.candidate.active = true → m.ram.candidate.compareActive = false →
      m.ram.candidate.slotAddress = slotA ∨ m.ram.candidate.slotAddress = slotB)
    (hrecord : ∀ record, m.ram.activeRecord = some record →
      record.slotAddress = slotA ∨ record.slotAddress = slotB) :
    ∀ record, m'.ram.activeRecord = some record →
      record.slotAddress = slotA ∨ record.slotAddress = slotB := by
  cases h with
  | refused => exact hrecord
  | unchanged => exact hrecord
  | headerFailed _ _ hram => rw [hram]; exact hrecord
  | invalid _ _ hram => rw [hram]; exact hrecord
  | markerFailed _ _ _ _ _ hram => rw [hram]; exact hrecord
  | markedInvalid _ _ _ _ hram => rw [hram]; exact hrecord
  | committed hcomplete _ _ _ _ hvalid =>
    intro record hrec
    obtain rfl := Option.some.inj hrec
    rw [slotAddress_of_validate hvalid]
    exact hslot hcomplete.active hcomplete.changed

/-- A commit that succeeded leaves no candidate. -/
theorem idle_of_commitStep {result : Result} (h : CommitStep m (some result) m')
    (hok : result = .ok ∨ result = .unchanged) : m'.ram.candidate.active = false := by
  cases h with
  | refused => simp at hok
  | unchanged => rfl
  | headerFailed => simp at hok
  | markerFailed => simp at hok
  | committed => rfl
  | invalid _ _ _ hvalid => exact absurd hok (validateRecord_error hvalid)
  | markedInvalid _ _ _ _ _ hvalid => exact absurd hok (validateRecord_error hvalid)

/-- A COMMIT keeps the invariant. -/
theorem inv_commitEnd {p : List UInt8} {status : Status} (h : Inv m)
    (hend : CommitEnd p m status m') : Inv m' := by
  cases hend with
  | refused => exact h
  | again => exact h
  | committed _ _ _ _ hok hstep =>
    have hidle := idle_of_commitStep hstep hok
    have hrecord := record_of_commitStep hstep (fun ha hc => (h.changed ha hc).2.1) h.record
    exact Inv.of_idle rfl hidle hrecord
  | closed _ _ _ _ hstep =>
    exact inv_cleared (record_of_commitStep hstep (fun ha hc => (h.changed ha hc).2.1) h.record)

end Kept

end DeusOs.Asset
