import DeusOs.Common.LittleEndian
import DeusOs.Common.Nor.Verified

/-!
# Asset persistence

`asset_persistence.c`, `flash_persistence.c` and the layout configuration
they store: two flash pages, each with room for one record, and the
candidate that the next record is written as. The operations are programs
over the flash machine. A reset between two flash operations, or at a fault
checkpoint, cuts them.
-/

namespace DeusOs.Asset

open Nor (Mem Prog)

/-! ## Constants -/

/-- `FLASH_PERSISTENCE_SLOT_A_ADDRESS`. -/
def slotA : ℕ := 0x0800F800

/-- `FLASH_PERSISTENCE_SLOT_B_ADDRESS`. -/
def slotB : ℕ := 0x0800FC00

/-- `FLASH_PERSISTENCE_END_ADDRESS`. -/
def slotsEnd : ℕ := 0x08010000

/-- `FLASH_PERSISTENCE_PAGE_SIZE`. -/
def pageSize : ℕ := 1024

/-- `ASSET_PERSISTENCE_COMMIT_MARKER`. -/
def commitMarker : ℕ := 0xA55A

/-- `ASSET_PERSISTENCE_GENERATION_MAX`. -/
def generationMax : ℕ := 10000

/-- `OLED_UI_LAYOUT_CONFIG_V1_BYTES`. -/
def configBytes : ℕ := 8

/-- `ASSET_RECORD_OFFSET_HEADER_CRC`. -/
def offsetHeaderCrc : ℕ := 0x38

/-- `ASSET_RECORD_OFFSET_MARKER`. -/
def offsetMarker : ℕ := 0x3E

/-- `ASSET_RECORD_OFFSET_PAYLOAD`. -/
def offsetPayload : ℕ := 0x40

/-! ## State -/

/-- `asset_persistence_result_t`. -/
inductive Result
  | ok | unchanged | badState | crcMismatch | validationFailed | storageError
  | wearBudgetExhausted
  deriving DecidableEq

/-- `asset_persistence_record_t`. -/
structure Record where
  slotAddress : ℕ
  generation : ℕ
  payloadCrc32 : UInt32
  deriving DecidableEq

/-- `asset_candidate_state_t`. -/
structure Candidate where
  slotAddress : ℕ := 0
  generation : ℕ := 0
  payloadCrc32 : UInt32 := 0
  acceptedBytes : ℕ := 0
  pendingByte : UInt8 := 0
  pendingValid : Bool := false
  compareActive : Bool := false
  active : Bool := false
  deriving DecidableEq

/-- The console rectangle of `active_layout`, with
`active_layout_revision`. -/
structure Layout where
  x : UInt8 := 1
  y : UInt8 := 10
  width : UInt8 := 126
  height : UInt8 := 22
  revision : ℕ := 0
  deriving DecidableEq

/-- `asset_transfer_state_t`; `last_chunk` up to `last_chunk_length`, the
only part of it that is read. -/
structure TransferState where
  lastActivityMs : UInt32 := 0
  payloadCrc32 : UInt32 := 0
  transferId : ℕ := 0
  nextOffset : ℕ := 0
  lastChunk : List UInt8 := []
  active : Bool := false
  deriving DecidableEq

/-- The statics of the asset modules: `active_record` (`none` where its
slot address is zero), `candidate_state`, the diagnostics a run can tell
apart, the layout, the fault control and the transfer session. -/
structure Ram where
  activeRecord : Option Record := none
  candidate : Candidate := {}
  ambiguityCount : ℕ := 0
  successfulCommitCount : ℕ := 0
  wearPolicyRejectionCount : ℕ := 0
  layout : Layout := {}
  faultControl : UInt32 := 0
  transfer : TransferState := {}
  deriving DecidableEq

/-! ## The flash driver -/

/-- `flash_address_owned`. -/
def flashAddressOwned (a : ℕ) : Bool :=
  decide (slotA ≤ a) && decide (a < slotsEnd - 1) && decide (a % 2 = 0)

/-- `flash_persistence_erase_page`. The unlock, the clock check and the wait
belong to the operation's fate. -/
def flashErasePage (page : ℕ) : Prog Ram Bool :=
  if page ≠ slotA ∧ page ≠ slotB then pure false else Nor.eraseVerified page pageSize

/-- `flash_persistence_program_halfword`. -/
def flashProgramHalfword (a v : ℕ) : Prog Ram Bool :=
  if flashAddressOwned a = false then pure false else Nor.programVerified a v

/-! ## Records on flash -/

/-- `asset_flash_read_u32`. -/
def word (f : Mem) (a : ℕ) : ℕ := f.half a + 65536 * f.half (a + 2)

/-- One round of `asset_crc32_update`. -/
def crc32Bit (crc : UInt32) : UInt32 :=
  (crc >>> 1) ^^^ (0xEDB88320 &&& (0 - (crc &&& 1)))

/-- `asset_crc32_update`. -/
def crc32Update (crc : UInt32) (value : UInt8) : UInt32 :=
  (List.range 8).foldl (fun c _ => crc32Bit c) (crc ^^^ value.toUInt32)

/-- `asset_crc32_flash`, of the bytes read there. -/
def crc32 (bytes : List UInt8) : UInt32 := bytes.foldl crc32Update 0xFFFFFFFF ^^^ 0xFFFFFFFF

example : crc32 "123456789".toUTF8.toList = 0xCBF43926 := by decide +kernel

/-- `oled_ui_layout_config_v1_validate`, of the bytes read there. -/
def layoutValidate (p : List UInt8) : Bool :=
  decide (p.length = configBytes) && decide (p.getD 0 0 = 1) &&
    decide (p.getD 5 0 ||| p.getD 6 0 ||| p.getD 7 0 = 0) && decide (5 ≤ p.getD 3 0) &&
    decide (6 ≤ p.getD 4 0) && decide (10 ≤ p.getD 2 0) &&
    decide ((p.getD 1 0).toNat + (p.getD 3 0).toNat ≤ 128) &&
    decide ((p.getD 2 0).toNat + (p.getD 4 0).toNat ≤ 32)

/-- `oled_ui_layout_config_v1_activate_validated`. -/
def layoutActivate (p : List UInt8) (l : Layout) : Layout :=
  if l.x ≠ p.getD 1 0 ∨ l.y ≠ p.getD 2 0 ∨ l.width ≠ p.getD 3 0 ∨ l.height ≠ p.getD 4 0 then
    { x := p.getD 1 0, y := p.getD 2 0, width := p.getD 3 0, height := p.getD 4 0,
      revision := l.revision + 1 }
  else l

/-- The payload of the slot at `slot`. -/
def payload (f : Mem) (slot : ℕ) : List UInt8 := f.bytes (slot + offsetPayload) configBytes

/-- `asset_validate_record`: why the record is refused, or what it is. -/
def validateRecord (f : Mem) (slot marker : ℕ) : Except Result Record :=
  if word f slot ≠ 0x53554544 ∨ word f (slot + 0x04) ≠ 0x00010101 ∨
      word f (slot + 0x08) ≠ 64 + 65536 * configBytes ∨ word f (slot + 0x14) ≠ 0 ∨
      word f (slot + 0x3C) ≠ 0xFFFF + 65536 * marker then .error .storageError
  else if ∃ i < 8, word f (slot + 0x18 + 4 * i) ≠ 0xFFFFFFFF then .error .storageError
  else if word f (slot + 0x0C) = 0 ∨ generationMax < word f (slot + 0x0C) ∨
      (crc32 (f.bytes slot 24)).toNat ≠ word f (slot + offsetHeaderCrc) then .error .storageError
  else if UInt32.ofNat (word f (slot + 0x10)) ≠ crc32 (payload f slot) then .error .crcMismatch
  else if layoutValidate (payload f slot) = false then .error .validationFailed
  else .ok ⟨slot, word f (slot + 0x0C), UInt32.ofNat (word f (slot + 0x10))⟩

/-- `asset_records_identical`. -/
def recordsIdentical (f : Mem) (l r : Record) : Bool :=
  decide (l.generation = r.generation) && decide (l.payloadCrc32 = r.payloadCrc32) &&
    decide (word f (l.slotAddress + offsetPayload) = word f (r.slotAddress + offsetPayload)) &&
    decide (word f (l.slotAddress + offsetPayload + 4) = word f (r.slotAddress + offsetPayload + 4))

/-- The record that `asset_select_boot_record` makes active, and whether the
two records were of one generation. -/
def bootRecord (f : Mem) : Option Record × Bool :=
  match validateRecord f slotA commitMarker, validateRecord f slotB commitMarker with
  | .error _, .error _ => (none, false)
  | .ok a, .error _ => (some a, false)
  | .error _, .ok b => (some b, false)
  | .ok a, .ok b =>
    if b.generation < a.generation then (some a, false)
    else if a.generation < b.generation then (some b, false)
    else if recordsIdentical f a b = false then (none, true)
    else (some a, true)

/-- `asset_select_boot_record`. -/
def selectBootRecord (f : Mem) (r : Ram) : Ram :=
  let chosen := bootRecord f
  { r with
    activeRecord := chosen.1
    ambiguityCount := if chosen.2 then r.ambiguityCount + 1 else r.ambiguityCount
    layout :=
      match chosen.1 with
      | some record => layoutActivate (payload f record.slotAddress) r.layout
      | none => r.layout }

/-- `asset_persistence_init`, after the start-up code has cleared the
statics. -/
def boot (f : Mem) : Ram := selectBootRecord f {}

/-! ## Faults -/

/-- The control word asks for a reset at this checkpoint. -/
def Armed (control : UInt32) (checkpoint : UInt8) : Prop :=
  control &&& 0xFFFFFF00 = 0xA55A0000 ∧ control.toUInt8 = checkpoint

instance (control : UInt32) (checkpoint : UInt8) : Decidable (Armed control checkpoint) :=
  inferInstanceAs (Decidable (_ ∧ _))

/-- `asset_persistence_fault_checkpoint`. -/
def faultCheckpoint (checkpoint : UInt8) : Prog Ram Unit := do
  let r ← Prog.ram
  if Armed r.faultControl checkpoint then
    Prog.modifyRam fun r => { r with faultControl := 0 }
    Prog.reset
  else pure ()

/-! ## The candidate -/

/-- Change `candidate_state`. -/
def modifyCandidate (g : Candidate → Candidate) : Prog Ram Unit :=
  Prog.modifyRam fun r => { r with candidate := g r.candidate }

/-- `asset_candidate_reset`. -/
def candidateReset : Prog Ram Unit := modifyCandidate fun c => { c with active := false }

/-- `asset_candidate_reset(); return result;`. -/
def giveUp (result : Result) : Prog Ram Result := do
  candidateReset
  pure result

/-- `words` of `asset_program_metadata`. -/
def metadataWords (generation : ℕ) (payloadCrc32 : UInt32) : List ℕ :=
  [0x4544, 0x5355, 0x0101, 0x0001, 64, configBytes, generation % 65536, generation / 65536,
    payloadCrc32.toNat % 65536, payloadCrc32.toNat / 65536, 0, 0]

/-- The words as the bytes of the header. -/
def metadataBytes (generation : ℕ) (payloadCrc32 : UInt32) : List UInt8 :=
  (metadataWords generation payloadCrc32).flatMap LittleEndian.write16

/-- `asset_program_metadata`: a halfword at a time, up to the first that
fails. -/
def programMetadata : Prog Ram Bool := do
  let r ← Prog.ram
  Nor.programEach flashProgramHalfword r.candidate.slotAddress
    (metadataBytes r.candidate.generation r.candidate.payloadCrc32)

/-- The slot that a candidate is written to: not the active record's. -/
def otherSlot (active : Option Record) : ℕ :=
  match active with
  | some r => if r.slotAddress = slotA then slotB else slotA
  | none => slotA

/-- The generation that a candidate gets. -/
def nextGeneration (active : Option Record) : ℕ :=
  match active with
  | some r => r.generation + 1
  | none => 1

/-- The active record may not be replaced any more. -/
def WornOut (active : Option Record) : Prop := ∃ r, active = some r ∧ generationMax ≤ r.generation

instance : DecidablePred WornOut
  | none => isFalse fun ⟨_, h, _⟩ => nomatch h
  | some r => decidable_of_iff (generationMax ≤ r.generation)
      ⟨fun h => ⟨r, rfl, h⟩, fun ⟨_, h, h'⟩ => Option.some.inj h ▸ h'⟩

/-- `asset_start_changed`. -/
def startChanged : Prog Ram Result := do
  let r ← Prog.ram
  if WornOut r.activeRecord then
    Prog.modifyRam fun r =>
      { r with wearPolicyRejectionCount := r.wearPolicyRejectionCount + 1 }
    pure .wearBudgetExhausted
  else
    modifyCandidate fun c =>
      { c with
        slotAddress := otherSlot r.activeRecord, generation := nextGeneration r.activeRecord,
        acceptedBytes := 0, pendingValid := false, compareActive := false }
    faultCheckpoint 1
    if ← flashErasePage (otherSlot r.activeRecord) then
      faultCheckpoint 2
      if ← programMetadata then
        faultCheckpoint 3
        pure .ok
      else giveUp .storageError
    else giveUp .storageError

/-- `asset_persistence_begin_candidate`. -/
def beginCandidate (payloadCrc32 : UInt32) : Prog Ram Result := do
  let r ← Prog.ram
  if r.candidate.active = true then pure .badState
  else
    modifyCandidate fun c => { c with payloadCrc32 := payloadCrc32, active := true }
    if (r.activeRecord.map Record.payloadCrc32) = some payloadCrc32 then
      modifyCandidate fun c =>
        { c with acceptedBytes := 0, pendingValid := false, compareActive := true }
      pure .ok
    else startChanged

/-- `asset_program_payload_halfword`. -/
def programPayloadHalfword (offset value : ℕ) : Prog Ram Bool := do
  let r ← Prog.ram
  if ← flashProgramHalfword (r.candidate.slotAddress + offsetPayload + offset) value then
    if offset = 0 then faultCheckpoint 4
    pure true
  else pure false

/-- The pairs of `asset_write_payload_bytes`, and the byte left over. -/
def writePairs : List UInt8 → Prog Ram Result
  | lo :: hi :: data => do
    let r ← Prog.ram
    if ← programPayloadHalfword r.candidate.acceptedBytes (Nor.le16 lo hi) then
      modifyCandidate fun c => { c with acceptedBytes := c.acceptedBytes + 2 }
      writePairs data
    else pure .storageError
  | [b] => do
    modifyCandidate fun c =>
      { c with pendingByte := b, pendingValid := true, acceptedBytes := c.acceptedBytes + 1 }
    pure .ok
  | [] => pure .ok

/-- `asset_write_payload_bytes`. -/
def writePayloadBytes (data : List UInt8) : Prog Ram Result := do
  let r ← Prog.ram
  match r.candidate.pendingValid, data with
  | true, b :: data =>
    if ← programPayloadHalfword (r.candidate.acceptedBytes - 1)
        (Nor.le16 r.candidate.pendingByte b) then
      modifyCandidate fun c =>
        { c with pendingValid := false, acceptedBytes := c.acceptedBytes + 1 }
      writePairs data
    else pure .storageError
  | _, data => writePairs data

/-- The bytes that matched, copied from the active record's slot: from
`offset`, as many as are left. -/
def copyPrefix (slot : ℕ) : ℕ → ℕ → Prog Ram Result
  | offset, left + 2 => do
    let f ← Prog.flash
    if ← programPayloadHalfword offset (f.half (slot + offsetPayload + offset)) then
      modifyCandidate fun c => { c with acceptedBytes := c.acceptedBytes + 2 }
      copyPrefix slot (offset + 2) left
    else pure .storageError
  | offset, 1 => do
    let f ← Prog.flash
    modifyCandidate fun c =>
      { c with
        pendingByte := f (slot + offsetPayload + offset), pendingValid := true,
        acceptedBytes := c.acceptedBytes + 1 }
    pure .ok
  | _, 0 => pure .ok

/-- How many bytes of `data` equal the stored ones from `a` on. -/
def matching (f : Mem) : ℕ → List UInt8 → ℕ
  | a, b :: data => if f a = b then matching f (a + 1) data + 1 else 0
  | _, [] => 0

/-- `asset_persistence_write_candidate`. In compare mode the bytes are held
against the active record's, and the first that differs starts the
candidate. -/
def writeCandidate (data : List UInt8) : Prog Ram Result := do
  let r ← Prog.ram
  if r.candidate.active = false ∨ configBytes < r.candidate.acceptedBytes + data.length then
    pure .badState
  else if r.candidate.compareActive = true then
    let f ← Prog.flash
    let slot := (r.activeRecord.map Record.slotAddress).getD 0
    let index := matching f (slot + offsetPayload + r.candidate.acceptedBytes) data
    if index < data.length then
      match ← startChanged with
      | .ok =>
        match ← copyPrefix slot 0 (r.candidate.acceptedBytes + index) with
        | .ok => writePayloadBytes (data.drop index)
        | result => giveUp result
      | result => pure result
    else
      modifyCandidate fun c => { c with acceptedBytes := c.acceptedBytes + data.length }
      pure .ok
  else writePayloadBytes data

/-- `asset_program_header_crc`. -/
def programHeaderCrc : Prog Ram Bool := do
  let r ← Prog.ram
  let f ← Prog.flash
  let crc := (crc32 (f.bytes r.candidate.slotAddress 24)).toNat
  (flashProgramHalfword (r.candidate.slotAddress + offsetHeaderCrc) (crc % 65536)).andThen
    (flashProgramHalfword (r.candidate.slotAddress + offsetHeaderCrc + 2) (crc / 65536))

/-- The end of `asset_persistence_commit_candidate`: the record becomes the
active one. -/
def activate (committed : Record) : Prog Ram Result := do
  faultCheckpoint 8
  let f ← Prog.flash
  Prog.modifyRam fun r =>
    { r with
      activeRecord := some committed
      layout := layoutActivate (payload f committed.slotAddress) r.layout
      successfulCommitCount := r.successfulCommitCount + 1 }
  candidateReset
  faultCheckpoint 9
  pure .ok

/-- The commit marker, from the validated record to the active one. -/
def programMarker : Prog Ram Result := do
  let r ← Prog.ram
  faultCheckpoint 6
  if ← flashProgramHalfword (r.candidate.slotAddress + offsetMarker) commitMarker then
    let f ← Prog.flash
    if f.half (r.candidate.slotAddress + offsetMarker) ≠ commitMarker then pure .storageError
    else
      faultCheckpoint 7
      match validateRecord f r.candidate.slotAddress commitMarker with
      | .error result => pure result
      | .ok committed => activate committed
  else pure .storageError

/-- `asset_persistence_commit_candidate`. -/
def commitCandidate : Prog Ram Result := do
  let r ← Prog.ram
  if r.candidate.active = false ∨ r.candidate.acceptedBytes ≠ configBytes then pure .badState
  else if r.candidate.compareActive = true then giveUp .unchanged
  else if r.candidate.pendingValid = true then pure .badState
  else
    faultCheckpoint 5
    if ← programHeaderCrc then
      let f ← Prog.flash
      match validateRecord f r.candidate.slotAddress 0xFFFF with
      | .error result => pure result
      | .ok _ => programMarker
    else pure .storageError

/-- `asset_persistence_abort_candidate`. -/
def abortCandidate : Prog Ram Unit := candidateReset

/-- `asset_persistence_read_active`: the bytes read, `none` where the range
is refused. -/
def readActive (f : Mem) (active : Option Record) (offset length : ℕ) : Option (List UInt8) :=
  match active with
  | none => none
  | some r =>
    if configBytes < offset ∨ configBytes - offset < length then none
    else some (f.bytes (r.slotAddress + offsetPayload + offset) length)

end DeusOs.Asset
