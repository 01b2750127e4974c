import DeusOs.Bootloader.Scan

/-!
# The bootloader — what an answer says of the session

Over any state, reachable or not. A packet that the checks of
`process_bulk_packet` refuse moves nothing (`process_refused`). Any other is
answered once, by a response that says what the state has become
(`Response`), and its status says what was kept (`Handled`): everything,
where the request was refused before it was looked into; the staged header,
where AUTHORIZE was; and nothing, where the session was given up.
-/

namespace DeusOs

namespace Bootloader

open Nor (Mem Prog Machine Does Stops Works Issued wp)

variable {board : Board} {m m' : Machine BootRam} {st : Status} {rx p : List UInt8}

/-! ## The flash driver, anywhere -/

theorem works_flashErasePage (page : ℕ) : Works (flashErasePage page) := by
  unfold flashErasePage
  exact Nor.works_ite (Nor.works_pure _)
    (Nor.works_ite (Nor.works_pure _) (Nor.drives_eraseVerified page 1024).works)

theorem works_flashProgramHalfword (a : ℕ) {v : ℕ} (hv : v < 65536) :
    Works (flashProgramHalfword a v) := by
  unfold flashProgramHalfword
  exact Nor.works_ite (Nor.works_pure _) (Nor.drives_programVerified a hv).works

theorem works_flashProgramEvenBytes (a : ℕ) (bs : List UInt8) :
    Works (flashProgramEvenBytes a bs) := by
  unfold flashProgramEvenBytes
  exact Nor.works_ite (Nor.works_pure _)
    (Nor.works_programEach (fun x _ hv => works_flashProgramHalfword x hv) a bs)

theorem works_writeChunk (off : ℕ) (data : List UInt8) : Works (writeChunk off data) :=
  (Nor.works_ite (works_flashErasePage _) (Nor.works_pure _)).andThen
    ((works_flashProgramEvenBytes _ _).andThen (drives_readBack _ _).works)

/-! ## What a handler keeps -/

/-- The values are within the range of their C types. -/
structure BootRam.Typed (r : BootRam) : Prop where
  expectedOffset : r.expectedOffset < 65536
  versionFloor : r.versionFloor < 4294967296
  committedVersion : r.committedVersion < 4294967296

/-- `BAD_FLAGS`, `BAD_LENGTH`, `INVALID_STATE` and `OUT_OF_SEQUENCE`. -/
def Status.Early (st : Status) : Prop :=
  st = .badFlags ∨ st = .badLength ∨ st = .invalidState ∨ st = .outOfSequence

/-- `AUTH_FAILED`, `TARGET_MISMATCH` and `VERSION_REJECTED`. -/
def Status.Repeatable (st : Status) : Prop :=
  st = .authFailed ∨ st = .targetMismatch ∨ st = .versionRejected

/-- Flash and session are what they were, and no operation was issued. -/
structure Intact (m m' : Machine BootRam) : Prop where
  flash : m'.flash = m.flash
  log : m'.log = m.log
  stagedHeader : m'.ram.stagedHeader = m.ram.stagedHeader
  targetMetadataSlot : m'.ram.targetMetadataSlot = m.ram.targetMetadataSlot
  streamSha : m'.ram.streamSha = m.ram.streamSha
  expectedOffset : m'.ram.expectedOffset = m.ram.expectedOffset
  previousData : m'.ram.previousData = m.ram.previousData
  previousOffset : m'.ram.previousOffset = m.ram.previousOffset
  previousLength : m'.ram.previousLength = m.ram.previousLength
  previousValid : m'.ram.previousValid = m.ram.previousValid
  updateState : m'.ram.updateState = m.ram.updateState

/-- No operation was issued, and the header is still staged. -/
structure StillStaged (m m' : Machine BootRam) : Prop where
  flash : m'.flash = m.flash
  log : m'.log = m.log
  updateState : m'.ram.updateState = .headerStaged
  stagedHeader : m'.ram.stagedHeader = m.ram.stagedHeader

/-- **What the status says** of a request that has been processed. -/
structure Kept (m : Machine BootRam) (st : Status) (m' : Machine BootRam) : Prop where
  early : st.Early → Intact m m'
  repeatable : st.Repeatable → StillStaged m m'
  ended : st ≠ .ok → ¬ st.Early → ¬ st.Repeatable → m'.ram.updateState = .recoveryIdle

/-- What every handler leaves: values in range, and the endpoint as it was. -/
structure Settles (m m' : Machine BootRam) : Prop where
  typed : m.ram.Typed → m'.ram.Typed
  usbConfiguration : m'.ram.usbConfiguration = m.ram.usbConfiguration
  usbTxActive : m'.ram.usbTxActive = m.ram.usbTxActive
  ep1Tx : m'.ram.ep1Tx = m.ram.ep1Tx

/-- A handler returned. -/
structure Handled (m : Machine BootRam) (st : Status) (m' : Machine BootRam) : Prop
    extends Kept m st m', Settles m m'

/-- A reset came where the tape ended. -/
def Unpowered (m : Machine BootRam) : Prop := ∃ n, m.tape n = none

theorem Intact.refl (m : Machine BootRam) : Intact m m :=
  ⟨rfl, rfl, rfl, rfl, rfl, rfl, rfl, rfl, rfl, rfl, rfl⟩

theorem Intact.aside (h : Intact m m') {ep1Tx : List (List UInt8)} {usbTxActive : Bool} :
    Intact m { m' with ram := { m'.ram with ep1Tx, usbTxActive } } :=
  ⟨h.flash, h.log, h.stagedHeader, h.targetMetadataSlot, h.streamSha, h.expectedOffset,
    h.previousData, h.previousOffset, h.previousLength, h.previousValid, h.updateState⟩

theorem StillStaged.aside (h : StillStaged m m') {ep1Tx : List (List UInt8)} {usbTxActive : Bool} :
    StillStaged m { m' with ram := { m'.ram with ep1Tx, usbTxActive } } :=
  ⟨h.flash, h.log, h.updateState, h.stagedHeader⟩

/-- A packet that was refused early was not answered `ST_OK`. -/
theorem Status.Early.ne_ok (h : st.Early) : st ≠ .ok := by
  rcases h with rfl | rfl | rfl | rfl <;> decide

theorem Status.Repeatable.not_early (h : st.Repeatable) : ¬ st.Early := by
  unfold Status.Early
  rcases h with rfl | rfl | rfl <;> decide

/-- A packet that may be sent once more was not answered `ST_OK`. -/
theorem Status.Repeatable.ne_ok (h : st.Repeatable) : st ≠ .ok := by
  rcases h with rfl | rfl | rfl <;> decide

theorem kept_early (h : st.Early) (m : Machine BootRam) : Kept m st m :=
  ⟨fun _ => Intact.refl m, fun hr => absurd h hr.not_early, fun _ he _ => absurd h he⟩

theorem kept_repeatable (h : st.Repeatable) (hstaged : StillStaged m m') : Kept m st m' :=
  ⟨fun he => absurd he h.not_early, fun _ => hstaged, fun _ _ hr => absurd h hr⟩

theorem kept_ok (m m' : Machine BootRam) : Kept m .ok m' :=
  ⟨fun he => absurd rfl he.ne_ok, fun hr => absurd rfl hr.ne_ok, fun h _ _ => absurd rfl h⟩

theorem kept_ended (he : ¬ st.Early) (hr : ¬ st.Repeatable)
    (hidle : m'.ram.updateState = .recoveryIdle) : Kept m st m' :=
  ⟨fun h => absurd h he, fun h => absurd h hr, fun _ _ _ => hidle⟩

theorem handled_early (h : st.Early) (m : Machine BootRam) : Handled m st m :=
  ⟨kept_early h m, ⟨id, rfl, rfl, rfl⟩⟩

/-! ## The handlers -/

theorem slotVersion_lt (board : Board) (f : Mem) (slot : ℕ) :
    slotVersion board f slot < 4294967296 := by
  unfold slotVersion metadataAuthenticated
  dsimp only
  split
  · exact Nat.succ_pos _
  split
  · exact Nat.succ_pos _
  split
  · exact Nat.succ_pos _
  split
  · exact Nat.succ_pos _
  · exact loadLe32_lt _ _

theorem typed_scanRam (board : Board) (f : Mem) {r : BootRam} (h : r.Typed) :
    (scanRam board f r).Typed := by
  have hfloor : floor board f < 4294967296 :=
    Nat.max_lt.2 ⟨slotVersion_lt board f metaA, slotVersion_lt board f metaB⟩
  have hboot : max (bootVersion board f metaA) (bootVersion board f metaB) < 4294967296 :=
    Nat.max_lt.2 ⟨Nat.lt_of_le_of_lt (bootVersion_le board f metaA) (slotVersion_lt board f metaA),
      Nat.lt_of_le_of_lt (bootVersion_le board f metaB) (slotVersion_lt board f metaB)⟩
  refine ⟨h.expectedOffset, ?_, ?_⟩
  · rw [← scan_versionFloor] at hfloor
    exact hfloor
  · rw [← scan_committedVersion] at hboot
    exact hboot

/-- A status that ends the session. -/
theorem not_early_of_ending (h : st = .badHeader ∨ st = .flashFailed ∨ st = .digestFailed ∨
    st = .vectorInvalid ∨ st = .internalError) : ¬ st.Early ∧ ¬ st.Repeatable := by
  unfold Status.Early Status.Repeatable
  rcases h with rfl | rfl | rfl | rfl | rfl <;> decide

theorem settles_beginRam (m : Machine BootRam) (p : List UInt8) (s : UpdateState) :
    Settles m { m with ram := beginRam m.ram p s } := by
  refine ⟨fun h => ⟨?_, ?_, ?_⟩, ?_, ?_, ?_⟩ <;> simp only [beginRam]
  · decide
  · exact h.versionFloor
  · exact h.committedVersion

theorem handled_begin (h : BeginStep m p st m') : Handled m st m' := by
  cases h with
  | refused _ hst => exact handled_early (hst.elim (by tauto) (by tauto)) m
  | malformed =>
    obtain ⟨he, hr⟩ := not_early_of_ending (Or.inl rfl)
    exact ⟨kept_ended he hr rfl, settles_beginRam m p _⟩
  | staged => exact ⟨kept_ok _ _, settles_beginRam m p _⟩

theorem settles_scanRam (board : Board) (m m' : Machine BootRam) (tag : Vector UInt8 32)
    (slot : ℕ) :
    Settles m { m' with ram := { scanRam board m.flash m.ram with
      stagedTag := tag, targetMetadataSlot := slot } } := by
  refine ⟨fun h => ?_, rfl, rfl, rfl⟩
  have hscan := typed_scanRam board m.flash h
  exact ⟨hscan.expectedOffset, hscan.versionFloor, hscan.committedVersion⟩

theorem handled_authorize (h : AuthorizeStep board m p (some st) m') : Handled m st m' := by
  generalize hst : some st = answer at h
  cases h with
  | refused _ hr =>
    cases hst
    exact handled_early (hr.elim (by tauto) (by tauto)) m
  | unauthenticated _ hstaged hr =>
    cases hst
    exact ⟨kept_repeatable (hr.elim (by tauto) (by tauto)) ⟨rfl, rfl, hstaged, rfl⟩,
      fun h => ⟨h.expectedOffset, h.versionFloor, h.committedVersion⟩, rfl, rfl, rfl⟩
  | rejected _ hstaged =>
    cases hst
    exact ⟨kept_repeatable (Or.inr (Or.inr rfl)) ⟨rfl, rfl, hstaged, rfl⟩,
      settles_scanRam board m m _ _⟩
  | authorized =>
    cases hst
    refine ⟨kept_ok _ _, fun h => ⟨?_, ?_, ?_⟩, ?_, ?_, ?_⟩ <;>
      simp only [authorizedRam, authorizeRam, scanRam]
    · decide
    · exact (typed_scanRam board m.flash h).versionFloor
    · exact (typed_scanRam board m.flash h).committedVersion
  | failed =>
    cases hst
    obtain ⟨he, hr⟩ := @not_early_of_ending .flashFailed (by tauto)
    refine ⟨kept_ended he hr rfl, fun h => ⟨?_, ?_, ?_⟩, ?_, ?_, ?_⟩ <;>
      simp only [authorizeRam, scanRam]
    · exact h.expectedOffset
    · exact (typed_scanRam board m.flash h).versionFloor
    · exact (typed_scanRam board m.flash h).committedVersion
  | cut => cases hst

theorem handled_end {n : ℕ} (h : EndStep m n (some st) m') : Handled m st m' := by
  generalize hst : some st = answer at h
  cases h with
  | refused _ hr =>
    cases hst
    exact handled_early (by unfold Status.Early; tauto) m
  | unverified _ _ hr =>
    cases hst
    obtain ⟨he, hr⟩ := @not_early_of_ending st (by tauto)
    exact ⟨kept_ended he hr rfl,
      fun h => ⟨h.expectedOffset, h.versionFloor, h.committedVersion⟩, rfl, rfl, rfl⟩
  | committed =>
    cases hst
    refine ⟨kept_ok _ _, fun h => ⟨h.expectedOffset, ?_, loadLe32_lt _ _⟩, rfl, rfl, rfl⟩
    show (if _ then _ else _) < _
    split
    · exact loadLe32_lt _ _
    · exact h.versionFloor
  | failed =>
    cases hst
    obtain ⟨he, hr⟩ := @not_early_of_ending .flashFailed (by tauto)
    exact ⟨kept_ended he hr rfl,
      fun h => ⟨h.expectedOffset, h.versionFloor, h.committedVersion⟩, rfl, rfl, rfl⟩
  | cut => cases hst

/-- **DATA, on any state**: what the flash work does is left open, so nothing is
asked of the session. -/
theorem handleData_handled (m : Machine BootRam) (p : List UInt8) :
    wp (handleData p) (Handled m) (fun _ => Unpowered m) m := by
  simp only [handleData, leave, Nor.wp_bind, Nor.wp_ram, Nor.wp_ite, Nor.wp_pure]
  split
  · exact handled_early (Or.inr (Or.inl rfl)) m
  split
  · exact handled_early (Or.inr (Or.inr (Or.inl rfl))) m
  split
  · exact handled_early (Or.inr (Or.inl rfl)) m
  split
  · exact ⟨kept_ok _ _, id, rfl, rfl, rfl⟩
  split
  · exact handled_early (Or.inr (Or.inr (Or.inr rfl))) m
  refine Nor.wp_mono (works_writeChunk (dataOffset p) (dataBytes p) m) (fun b m' hm => ?_)
    fun m' hm => ?_
  · obtain ⟨es, hes⟩ := hm
    have hram := hes.ram
    cases b with
    | true =>
      simp only [if_true, Nor.wp_bind, Nor.wp_modifyRam, Nor.wp_pure]
      refine ⟨kept_ok _ _, fun h => ⟨Nat.mod_lt _ (Nat.succ_pos 65535), ?_, ?_⟩, ?_, ?_, ?_⟩ <;>
        dsimp only <;> rw [hram]
      · exact h.versionFloor
      · exact h.committedVersion
    | false =>
      simp only [Bool.false_eq_true, if_false, Nor.wp_bind, Nor.wp_modifyRam, Nor.wp_pure]
      obtain ⟨he, hr⟩ := @not_early_of_ending .flashFailed (by tauto)
      refine ⟨kept_ended he hr rfl, fun h => ⟨?_, ?_, ?_⟩, ?_, ?_, ?_⟩ <;> dsimp only <;> rw [hram]
      · exact h.expectedOffset
      · exact h.versionFloor
      · exact h.committedVersion
  · obtain ⟨⟨es, hes⟩, hcut⟩ := hm
    exact ⟨_, hes.tape_of_cut hcut⟩

/-! ## A packet -/

/-- The opcode switch, on any state. -/
theorem dispatch_handled (board : Board) (m : Machine BootRam) (rx : List UInt8) :
    wp (dispatch board rx) (Handled m) (fun _ => Unpowered m) m := by
  simp only [dispatch, scanMetadata, Nor.wp_ite, Nor.wp_pure, Nor.wp_bind, Nor.wp_flash,
    Nor.wp_modifyRam]
  split
  · split
    · exact handled_early (Or.inl rfl) m
    split
    · exact handled_early (Or.inr (Or.inl rfl)) m
    · exact ⟨kept_ok _ _, settles_scanRam board m m m.ram.stagedTag m.ram.targetMetadataSlot⟩
  split
  · exact handled_early (Or.inl rfl) m
  split
  · exact Nor.wp_mono (handleBegin_wp m _ (fun _ => Unpowered m)) (fun _ _ h => handled_begin h)
      fun _ h => h
  split
  · refine Nor.wp_mono (handleAuthorize_wp board m _) (fun _ _ h => handled_authorize h)
      fun m' h => ?_
    cases h with
    | cut _ hstops hcut => exact hstops.tape_of_cut hcut
  split
  · exact handleData_handled m _
  split
  · refine Nor.wp_mono (handleEnd_wp m _) (fun _ _ h => handled_end h) fun m' h => ?_
    cases h with
    | cut _ hstops hcut => exact hstops.tape_of_cut hcut
  · exact handled_early (Or.inr (Or.inr (Or.inl rfl))) m

/-- **A response** to the packet `rx`: which request it answers, and what it
says of the state `r`. -/
structure Response (rx : List UInt8) (st : Status) (r : BootRam) (tx : List UInt8) : Prop where
  length : tx.length = 28
  requestId : loadLe16 tx 6 = loadLe16 rx 6
  opcode : tx.getD 10 0 = packetOpcode rx
  status : tx.getD 11 0 = st.code
  updateState : tx.getD 12 0 = r.updateState.code
  expectedOffset : loadLe16 tx 14 =
    if r.updateState = .authorized ∨ r.updateState = .receiving then r.expectedOffset else 0
  versionFloor : loadLe32 tx 18 = r.versionFloor
  committedVersion : loadLe32 tx 22 = r.committedVersion
  crc : loadLe16 tx 26 = (crc16Ccitt ((tx.drop 2).take 24)).toNat

theorem load_store_le16 {v : ℕ} (h : v < 65536) :
    (UInt8.ofNat v).toNat + 256 * (UInt8.ofNat (v / 256)).toNat = v := by
  simp only [UInt8.toNat_ofNat']
  omega

theorem load_store_le32 {v : ℕ} (h : v < 4294967296) :
    (UInt8.ofNat v).toNat + 256 * (UInt8.ofNat (v / 256)).toNat +
      65536 * (UInt8.ofNat (v / 65536)).toNat + 16777216 * (UInt8.ofNat (v / 16777216)).toNat =
        v := by
  simp only [UInt8.toNat_ofNat']
  omega

/-- **`build_response` builds one:** its fields are read from the state that the
handler left. -/
theorem response_buildResponse (rx : List UInt8) (st : Status) {r : BootRam} (h : r.Typed) :
    Response rx st r (buildResponse r (loadLe16 rx 6) (packetOpcode rx) st) where
  length := rfl
  requestId := load_store_le16 (loadLe16_lt rx 6)
  opcode := rfl
  status := rfl
  updateState := rfl
  expectedOffset := by
    refine load_store_le16 (v := if r.updateState = .authorized ∨ r.updateState = .receiving then
      r.expectedOffset else 0) ?_
    split
    · exact h.expectedOffset
    · exact Nat.succ_pos 65535
  versionFloor := load_store_le32 h.versionFloor
  committedVersion := load_store_le32 h.committedVersion
  crc := load_store_le16 (UInt16.toNat_lt _)

/-- **Every packet, on every state.** A packet that is refused moves nothing
and is not answered. Any other, served by an idle endpoint, is answered once,
by a response that tells the state it leaves; and its status tells what was
kept. Only where the power was lost is there no answer. -/
theorem process_answers (board : Board) (m : Machine BootRam) (rx : List UInt8) :
    (packetAccepted rx = false → processBulkPacket board rx m = .ok none m) ∧
    (packetAccepted rx = true → m.ram.usbConfiguration = 1 → m.ram.usbTxActive = false →
      m.ram.Typed →
      wp (processBulkPacket board rx)
        (fun answer m' => ∃ st tx, answer = some st ∧ m'.ram.ep1Tx = m.ram.ep1Tx ++ [tx] ∧
          Response rx st m'.ram tx ∧ Kept m st m' ∧ m'.ram.Typed)
        (fun _ => Unpowered m) m) := by
  constructor
  · intro hacc
    unfold processBulkPacket
    have hnot : ¬ packetAccepted rx = true := Bool.eq_false_iff.1 hacc
    rw [if_pos hnot]
    rfl
  · intro hacc hconf hidle htyped
    simp only [processBulkPacket, Nor.wp_ite, Nor.wp_bind]
    rw [if_neg (not_not_intro hacc)]
    refine Nor.wp_mono (dispatch_handled board m rx) (fun st m' h => ?_) fun _ h => h
    have hopen : ¬ (m'.ram.usbConfiguration ≠ 1 ∨ m'.ram.usbTxActive = true ∨
        64 < (buildResponse m'.ram (loadLe16 rx 6) (packetOpcode rx) st).length) := by
      rw [h.usbConfiguration, h.usbTxActive, hconf, hidle]
      rintro (hne | hactive | hlong)
      · exact hne rfl
      · exact Bool.false_ne_true hactive
      · exact absurd hlong (Nat.not_lt.2 (Nat.le_of_ble_eq_true rfl))
    simp only [bulkSend, Nor.wp_bind, Nor.wp_ram, Nor.wp_ite, Nor.wp_pure, Nor.wp_modifyRam]
    rw [if_neg hopen]
    have htyped' := h.typed htyped
    refine ⟨st, _, rfl, by rw [h.ep1Tx], ?_, ?_,
      htyped'.expectedOffset, htyped'.versionFloor, htyped'.committedVersion⟩
    · have hresp := response_buildResponse rx st htyped'
      exact ⟨hresp.length, hresp.requestId, hresp.opcode, hresp.status, hresp.updateState,
        hresp.expectedOffset, hresp.versionFloor, hresp.committedVersion, hresp.crc⟩
    · exact ⟨fun he => (h.early he).aside, fun hr => (h.repeatable hr).aside, h.ended⟩

/-- An INFO request with the flag of a destructive one. -/
def flaggedInfo : List UInt8 := [0xA5, 0x5A, 1, 4, 1, 0, 7, 0, 1, 0, 2, 0xFB, 0x34]

/-- An erased device that serves updates. -/
def erasedMachine : Machine BootRam where
  flash _ := 0xFF
  ram := { BootRam.zero with usbConfiguration := 1 }
  log := []
  tape _ := some Nor.Outcome.good

/-- A board with the key of zeros. -/
def keylessBoard : Board := ⟨Vector.replicate 32 0, 0⟩

/-- The request is answered, with the state of the device. -/
theorem flaggedInfo_answered : ∃ st m' tx,
    processBulkPacket keylessBoard flaggedInfo erasedMachine = .ok (some st) m' ∧
      m'.ram.ep1Tx = [tx] ∧ Response flaggedInfo st m'.ram tx := by
  have haccepted : packetAccepted flaggedInfo = true := by decide +kernel
  -- machine and packet are kept folded, so that nothing runs the program
  obtain ⟨m, hm⟩ : ∃ m, m = erasedMachine := ⟨_, rfl⟩
  obtain ⟨rx, hrx⟩ : ∃ rx, rx = flaggedInfo := ⟨_, rfl⟩
  have hram : m.ram = { BootRam.zero with usbConfiguration := 1 } := by rw [hm]; rfl
  have htyped : m.ram.Typed := by
    rw [hram]
    exact ⟨Nat.succ_pos _, Nat.succ_pos _, Nat.succ_pos _⟩
  rw [← hrx] at haccepted ⊢
  rw [← hm]
  have hwp := (process_answers keylessBoard m rx).2 haccepted (by rw [hram]) (by rw [hram]; rfl)
    htyped
  have hpowered : ¬ Unpowered m := by
    rintro ⟨n, hn⟩
    rw [hm] at hn
    cases hn
  obtain ⟨answer, m', hrun, st, tx, rfl, hsent, hresponse, -⟩ :=
    Nor.wp_returned hwp fun _ => hpowered
  rw [hram] at hsent
  exact ⟨st, m', tx, hrun, hsent, hresponse⟩

end Bootloader

end DeusOs
