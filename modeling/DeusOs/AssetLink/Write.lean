import DeusOs.AssetLink.Request

/-!
# An asset write — what the device does with each request

While the write goes on, the active record stays; once its chunk was taken,
the device has decided whether the configuration is the active one or a new
one (`Decided`), and the commit does what was decided (`Done`).
-/

namespace DeusOs

namespace AssetLink

open Async (Prog Triple)
open Asset (Ram Record OnlyIn otherSlot nextGeneration payload configBytes offsetPayload Inv Ready
  FrameEnd BeginEnd WriteEnd CommitEnd AbortEnd StatusEnd ReadEnd Accepted cleared)
open Host Host.AssetTransfer
open LittleEndian (read16 read32 write16 write32 read16_write16 read32_write32)
open Nor (Machine Mem Outcome wp wp_ok wp_mono)

/-! ## The requests -/

/-- The payload of a request that names no more than a transfer. -/
def shortPayload (opcode : AssetTransferOpcode) (transferId : ℕ) : List UInt8 :=
  [1, opcode.code] ++ write16 1 ++ write16 transferId

/-- The payload of BEGIN. -/
def beginPayload (transferId : ℕ) (payloadCrc32 : UInt32) : List UInt8 :=
  [1, 0x01] ++ write16 1 ++ write16 transferId ++ write16 8 ++ [1, 0] ++
    write32 payloadCrc32.toNat ++ [0, 0]

/-- The payload of the one WRITE_CHUNK. -/
def chunkPayload (transferId : ℕ) (bytes : List UInt8) : List UInt8 :=
  [1, 0x02] ++ write16 1 ++ write16 transferId ++ write16 0 ++ [8, 0] ++ bytes

/-- The payload of the one READ_CHUNK. -/
def readPayload (generation : ℕ) : List UInt8 :=
  [1, 0x06] ++ write16 1 ++ write32 generation ++ write16 0 ++ [8, 0]

section Payloads

variable {transferId : ℕ} {bytes : List UInt8} {opcode : AssetTransferOpcode}

theorem read16_shortPayload (ht : transferId < 65536) :
    read16 (shortPayload opcode transferId) 4 = transferId := by
  have hread := read16_write16 ht ([1, opcode.code] ++ write16 1) []
  rw [List.append_nil] at hread
  exact hread

theorem read16_beginPayload (ht : transferId < 65536) (crc : UInt32) :
    read16 (beginPayload transferId crc) 4 = transferId := by
  have hread := read16_write16 ht ([1, 0x01] ++ write16 1)
    (write16 8 ++ [1, 0] ++ write32 crc.toNat ++ [0, 0])
  simp only [← List.append_assoc] at hread
  exact hread

theorem crc_beginPayload (crc : UInt32) :
    UInt32.ofNat (read32 (beginPayload transferId crc) 10) = crc := by
  have hread := read32_write32 crc.toNat_lt
    ([1, 0x01] ++ write16 1 ++ write16 transferId ++ write16 8 ++ [1, 0]) [0, 0]
  simp only [← List.append_assoc] at hread
  have hword : read32 (beginPayload transferId crc) 10 = crc.toNat := hread
  rw [hword, UInt32.ofNat_toNat]

theorem chunk_chunkPayload (hlen : bytes.length = 8) :
    Asset.chunk (chunkPayload transferId bytes) = bytes := by
  have hcount : ((chunkPayload transferId bytes).getD 8 0).toNat = 8 := rfl
  have hdrop : (chunkPayload transferId bytes).drop 10 = bytes := rfl
  rw [Asset.chunk, hcount, hdrop, ← hlen, List.take_length]

end Payloads

/-! ## The phases of a write -/

section Phases

variable (m₀ : Machine Ram) (transferId : ℕ) (bytes : List UInt8) (m : Machine Ram)

/-- The active record is the one of `m₀`, and its slot is untouched. -/
def Kept : Prop :=
  m.ram.activeRecord = m₀.ram.activeRecord ∧
    OnlyIn (otherSlot m₀.ram.activeRecord) m₀.flash m.flash

/-- An open session was open in `m₀`. -/
def Foreign : Prop :=
  m.ram.transfer.active = true →
    m₀.ram.transfer.active = true ∧ m.ram.transfer.transferId = m₀.ram.transfer.transferId

/-- An open session was open in `m₀`, or is the one of the write. -/
def Known : Prop :=
  m.ram.transfer.active = true → m.ram.transfer.transferId = transferId ∨
    m₀.ram.transfer.active = true ∧ m.ram.transfer.transferId = m₀.ram.transfer.transferId

/-- The active record of `m₀` has these bytes. -/
def Same : Prop :=
  ∃ record, m₀.ram.activeRecord = some record ∧ payload m₀.flash record.slotAddress = bytes

/-- The session is the one of the write, and has no byte yet, or it has been
cleared. -/
def Begun (crc : UInt32) : Prop :=
  (m.ram.transfer.active = false → m.ram.transfer.transferId = 0) ∧
    (m.ram.transfer.active = true → m.ram.transfer.transferId = transferId ∧
      m.ram.transfer.payloadCrc32 = crc ∧ m.ram.transfer.nextOffset = 0)

/-- The device compares where the bytes are those of the active record, or
the session has been cleared. -/
def Decided : Prop :=
  (m.ram.transfer.active = false → m.ram.transfer.transferId = 0) ∧
    (m.ram.transfer.active = true → (m.ram.candidate.compareActive = true ↔ Same m₀ bytes))

/-- The commit left the active record, or put its successor in its place. -/
def Done : Prop :=
  Same m₀ bytes ∧ m.ram.activeRecord = m₀.ram.activeRecord ∨
    ¬ Same m₀ bytes ∧ ∃ record, m.ram.activeRecord = some record ∧
      record.generation = nextGeneration m₀.ram.activeRecord

end Phases

section Steps

variable {m₀ m m' : Machine Ram} {transferId id generation : ℕ} {bytes p p' : List UInt8}
  {w : List AssetTransferOpcode} {now : UInt32} {tape : ℕ → Option Outcome} {flags code : UInt8}
  {crc : UInt32} {response : Asset.Response} {a : AssetTransferResponse} {opcode : AssetTransferOpcode}

/-- What spares the active record keeps it. -/
theorem Kept.spares (h : Kept m₀ m) (hspares : Asset.Spares m m') : Kept m₀ m' := by
  refine ⟨hspares.record.trans h.1, h.2.trans ?_⟩
  rw [← h.1]
  exact hspares.flash

/-- The idle time closes a session, or does nothing. -/
theorem poll_end (hrun : Asset.poll now m = .ok () m') : m' = m ∨ m' = cleared m := by
  have hwp : wp (Asset.poll now) (fun _ m' => m' = m ∨ m' = cleared m) (fun _ => True) m :=
    Asset.wp_poll now (Or.inl rfl) fun _ => Or.inr rfl
  exact wp_ok hwp hrun

/-- A poll keeps the active record. -/
theorem kept_poll (h : Kept m₀ m) (hrun : Asset.poll now m = .ok () m') : Kept m₀ m' := by
  rcases poll_end hrun with rfl | rfl
  · exact h
  · exact h

theorem closed_or_same (hrun : Asset.poll now m = .ok () m') :
    m' = m ∨ m'.ram.transfer.active = false ∧ m'.ram.transfer.transferId = 0 := by
  rcases poll_end hrun with rfl | rfl
  · exact Or.inl rfl
  · exact Or.inr ⟨rfl, rfl⟩

/-- A poll opens no session. -/
theorem foreign_poll (h : Foreign m₀ m) (hrun : Asset.poll now m = .ok () m') :
    Foreign m₀ m' := by
  rcases closed_or_same hrun with rfl | ⟨hidle, -⟩
  · exact h
  · exact fun hact => absurd hact (by simp [hidle])

/-- A poll opens no session that is not known. -/
theorem known_poll (h : Known m₀ transferId m) (hrun : Asset.poll now m = .ok () m') :
    Known m₀ transferId m' := by
  rcases closed_or_same hrun with rfl | ⟨hidle, -⟩
  · exact h
  · exact fun hact => absurd hact (by simp [hidle])

/-- A poll leaves a session that was begun, or closes it. -/
theorem begun_poll (h : Begun transferId m crc) (hrun : Asset.poll now m = .ok () m') :
    Begun transferId m' crc := by
  rcases closed_or_same hrun with rfl | ⟨hidle, hzero⟩
  · exact h
  · exact ⟨fun _ => hzero, fun hact => absurd hact (by simp [hidle])⟩

/-- A poll leaves what was decided, or closes the session. -/
theorem decided_poll (h : Decided m₀ bytes m) (hrun : Asset.poll now m = .ok () m') :
    Decided m₀ bytes m' := by
  rcases closed_or_same hrun with rfl | ⟨hidle, hzero⟩
  · exact h
  · exact ⟨fun _ => hzero, fun hact => absurd hact (by simp [hidle])⟩

/-- A poll leaves what is done, or closes the session. -/
theorem done_poll (h : Done m₀ bytes m) (hrun : Asset.poll now m = .ok () m') :
    Done m₀ bytes m' := by
  rcases poll_end hrun with rfl | rfl
  · exact h
  · exact h

/-! ### What a frame does -/

/-- How the device ends with a frame of the host. -/
theorem frameEnd_of_run (hreach : Asset.Reachable m)
    (hrun : Asset.handleFrame (viewOf flags id p) now { m with tape := tape } = .ok response m') :
    FrameEnd (viewOf flags id p) now { m with tape := tape } response m' := by
  have hinv : Inv { m with tape := tape } := hreach.inv.congr rfl rfl rfl ⟨rfl, rfl, rfl, rfl⟩
  exact wp_ok (Asset.handleFrame_wp hinv (viewOf flags id p) now) hrun

/-- A frame goes to the handler of its opcode. -/
theorem accepted_opcode (h : Accepted (viewOf flags id p) p' code) : p' = p ∧ p.getD 1 0 = code := by
  obtain rfl := Option.some.inj h.payload
  exact ⟨rfl, h.opcode_eq⟩

/-- A response that the host takes for a success is one. -/
theorem ok_of_parsed (h : Parsed opcode response a) (hok : a.status = statusOk) :
    response.status = .ok := by
  rw [h.status] at hok
  exact statusByte_ok hok

/-- The generation of an active record fits its field. -/
theorem generation_lt (hreach : Asset.Reachable m) :
    (m.ram.activeRecord.map Record.generation).getD 0 < 4294967296 := by
  rcases hactive : m.ram.activeRecord with - | record
  · exact Nat.lt_of_sub_eq_succ rfl
  · have hle := (hreach.ready.record record hactive).generation
    unfold Asset.generationMax at hle
    change record.generation < 4294967296
    omega

/-- **STATUS** changes nothing, and tells the active record's generation. -/
theorem status_end (hreach : Asset.Reachable m)
    (hrun : Asset.handleFrame (viewOf 0 id (shortPayload .status 0)) now
      { m with tape := tape } = .ok response m') :
    m' = { m with tape := tape } ∧ (response.status = .ok →
      response.committedGeneration = (m.ram.activeRecord.map Record.generation).getD 0) := by
  have hcode : (shortPayload .status 0).getD 1 0 = 0x05 := rfl
  have hzero : read16 (shortPayload .status 0) 4 = 0 := rfl
  cases frameEnd_of_run hreach hrun with
  | refused href => exact ⟨rfl, fun hok => absurd hok href.1⟩
  | begin hacc => exact absurd (hcode.symm.trans (accepted_opcode hacc).2) (by decide)
  | write hacc => exact absurd (hcode.symm.trans (accepted_opcode hacc).2) (by decide)
  | commit hacc => exact absurd (hcode.symm.trans (accepted_opcode hacc).2) (by decide)
  | abort hacc => exact absurd (hcode.symm.trans (accepted_opcode hacc).2) (by decide)
  | read hacc => exact absurd (hcode.symm.trans (accepted_opcode hacc).2) (by decide)
  | status hacc hend =>
    obtain ⟨rfl, -⟩ := accepted_opcode hacc
    cases hend with
    | refused href => exact ⟨rfl, fun hok => absurd hok href.1⟩
    | any => exact ⟨rfl, fun _ => rfl⟩
    | session _ hid => exact absurd hzero hid

/-- **BEGIN** opens the session of the write, or joins it, or leaves
another one. -/
theorem begin_end (hreach : Asset.Reachable m) (ht : transferId < 65536) (hkept : Kept m₀ m)
    (hknown : Known m₀ transferId m)
    (hrun : Asset.handleFrame (viewOf allowDestructive id (beginPayload transferId crc)) now
      { m with tape := tape } = .ok response m') :
    Kept m₀ m' ∧ Known m₀ transferId m' ∧ (response.status = .ok →
      response.nextOffset = m'.ram.transfer.nextOffset ∧ m'.ram.transfer.active = true ∧
        m'.ram.transfer.transferId = transferId ∧
        m'.ram.transfer.payloadCrc32 = crc) := by
  have hcode : (beginPayload transferId crc).getD 1 0 = 0x01 := rfl
  have hid := read16_beginPayload ht crc
  have hcrc := @crc_beginPayload transferId crc
  cases frameEnd_of_run hreach hrun with
  | refused href => exact ⟨hkept, hknown, fun hok => absurd hok href.1⟩
  | write hacc => exact absurd (hcode.symm.trans (accepted_opcode hacc).2) (by decide)
  | commit hacc => exact absurd (hcode.symm.trans (accepted_opcode hacc).2) (by decide)
  | abort hacc => exact absurd (hcode.symm.trans (accepted_opcode hacc).2) (by decide)
  | status hacc => exact absurd (hcode.symm.trans (accepted_opcode hacc).2) (by decide)
  | read hacc => exact absurd (hcode.symm.trans (accepted_opcode hacc).2) (by decide)
  | begin hacc hend =>
    obtain ⟨rfl, -⟩ := accepted_opcode hacc
    have hspares := Asset.spares_beginEnd hend
    have hkept' : Kept m₀ m' := Kept.spares (m := { m with tape := tape }) hkept hspares
    cases hend with
    | refused href => exact ⟨hkept', hknown, fun hok => absurd hok href.1⟩
    | again _ hsame =>
      obtain ⟨hact, hsession, hdeclared⟩ := hsame
      rw [hid] at hsession
      rw [hcrc] at hdeclared
      exact ⟨hkept', fun _ => Or.inl hsession, fun _ => ⟨rfl, hact, hsession, hdeclared⟩⟩
    | opened _ _ hstep =>
      have htransfer := Asset.transfer_of_beginStep hstep
      have hsession : m'.ram.transfer.transferId = transferId := by
        rw [htransfer]
        exact hid
      refine ⟨hkept', fun _ => Or.inl hsession, fun _ => ⟨rfl, ?_, hsession, ?_⟩⟩
      · rw [htransfer]
        rfl
      · rw [htransfer]
        exact hcrc
    | closed _ _ hne hne' =>
      refine ⟨hkept', fun hact => absurd hact (by simp [cleared]), fun hok => ?_⟩
      rcases Asset.mapPersistenceResult_eq_ok.mp hok with h | h
      · exact absurd h hne
      · exact absurd h hne'

/-- The active record's bytes are those of the start. -/
theorem Kept.payload {record : Record} (h : Kept m₀ m) (hinv : Inv m)
    (hrecord : m.ram.activeRecord = some record) :
    Asset.payload m.flash record.slotAddress = Asset.payload m₀.flash record.slotAddress := by
  have hspares : Asset.Spares m₀ m := ⟨h.1, h.2⟩
  exact hspares.payload (h.1.symm.trans hrecord) (hinv.record record hrecord)

/-- Where the declared CRCs differ, the bytes do. -/
theorem not_same_of_crc (hkept : Kept m₀ m) (hinv : Inv m) (hready : Ready m)
    (hne : m.ram.activeRecord.map Record.payloadCrc32 ≠ some (Asset.crc32 bytes)) :
    ¬ Same m₀ bytes := by
  rintro ⟨record, hrecord, hbytes⟩
  have hactive : m.ram.activeRecord = some record := hkept.1.trans hrecord
  refine hne ?_
  rw [hactive, ← hbytes, ← hkept.payload hinv hactive, ← (hready.record record hactive).crc]
  rfl

/-- **What a chunk decides,** where all of it was to come: to compare to the
end, or to write a successor. -/
theorem decided_putStep (hkept : Kept m₀ m) (hinv : Inv m) (hready : Ready m)
    (hact : m.ram.transfer.active = true) (hoffset : m.ram.transfer.nextOffset = 0)
    (hcrc : m.ram.transfer.payloadCrc32 = Asset.crc32 bytes) (hlen : bytes.length = 8)
    (hput : Asset.PutStep bytes m (some .ok) m') :
    m'.ram.candidate.compareActive = true ↔ Same m₀ bytes := by
  have haccepted : m.ram.candidate.acceptedBytes = 0 := (hinv.offset hact).symm.trans hoffset
  cases hput with
  | compared _ hcmp hrecord _ hbytes =>
    rw [haccepted, Nat.add_zero, hlen] at hbytes
    refine ⟨fun _ => ⟨_, hkept.1.symm.trans hrecord, ?_⟩, fun _ => hcmp⟩
    rw [← hkept.payload hinv hrecord]
    exact hbytes
  | started _ _ hrecord _ hne _ _ hram hsame =>
    rw [haccepted, Nat.add_zero, hlen] at hne
    have hchanged : m'.ram.candidate.compareActive = false := by
      rw [hram]
      exact hsame.compareActive
    refine ⟨fun hcmp => absurd (hcmp.symm.trans hchanged) (by decide), ?_⟩
    rintro ⟨record, hrecord', hbytes⟩
    obtain rfl := Option.some.inj (hrecord.symm.trans (hkept.1.trans hrecord'))
    refine absurd ?_ hne
    rw [← hkept.payload hinv hrecord] at hbytes
    exact hbytes
  | stored hcand hcmp _ hwrite =>
    have hdiffers := (hready.candidate hcand hcmp).differs haccepted
    rw [← hinv.crc hact, hcrc] at hdiffers
    have hchanged : m'.ram.candidate.compareActive = false := by
      cases hwrite with
      | written _ hram =>
        rw [hram]
        exact (Asset.sameCandidate_accept _ _).compareActive.trans hcmp
    exact ⟨fun hcmp' => absurd (hcmp'.symm.trans hchanged) (by decide),
      fun hsame => absurd hsame (not_same_of_crc hkept hinv hready hdiffers)⟩

/-- A write that is refused for wear leaves the session. -/
theorem transfer_of_wornOut {data : List UInt8}
    (hput : Asset.PutStep data m (some .wearBudgetExhausted) m') :
    m'.ram.transfer = m.ram.transfer := by
  cases hput with
  | wornOut => rfl
  | stored _ _ _ hwrite => exact nomatch hwrite

/-- **WRITE_CHUNK** decides: the bytes are those of the active record, or are
stored in the other slot. -/
theorem write_end (hreach : Asset.Reachable m) (hlen : bytes.length = 8)
    (hkept : Kept m₀ m) (hknown : Known m₀ transferId m)
    (hbegun : Begun transferId m (Asset.crc32 bytes))
    (hrun : Asset.handleFrame (viewOf allowDestructive id (chunkPayload transferId bytes)) now
      { m with tape := tape } = .ok response m') :
    Kept m₀ m' ∧ Known m₀ transferId m' ∧ (response.status = .ok → Decided m₀ bytes m') := by
  have hcode : (chunkPayload transferId bytes).getD 1 0 = 0x02 := rfl
  have hinv : Inv { m with tape := tape } := hreach.inv.congr rfl rfl rfl ⟨rfl, rfl, rfl, rfl⟩
  have hready : Ready { m with tape := tape } := hreach.ready.congr rfl rfl rfl
  cases frameEnd_of_run hreach hrun with
  | refused href => exact ⟨hkept, hknown, fun hok => absurd hok href.1⟩
  | begin hacc => exact absurd (hcode.symm.trans (accepted_opcode hacc).2) (by decide)
  | commit hacc => exact absurd (hcode.symm.trans (accepted_opcode hacc).2) (by decide)
  | abort hacc => exact absurd (hcode.symm.trans (accepted_opcode hacc).2) (by decide)
  | status hacc => exact absurd (hcode.symm.trans (accepted_opcode hacc).2) (by decide)
  | read hacc => exact absurd (hcode.symm.trans (accepted_opcode hacc).2) (by decide)
  | write hacc hend =>
    obtain ⟨rfl, -⟩ := accepted_opcode hacc
    have hspares := Asset.spares_writeEnd hinv hready hend
    have hkept' : Kept m₀ m' := Kept.spares (m := { m with tape := tape }) hkept hspares
    cases hend with
    | refused href => exact ⟨hkept', hknown, fun hok => absurd hok href.1⟩
    | again hdup =>
      -- nothing was taken yet
      have hzero := (hbegun.2 hdup.active).2.2
      have hoffset := hdup.offset
      have hpos := hdup.pos
      change _ = m.ram.transfer.nextOffset at hoffset
      omega
    | stored hnext hput =>
      obtain ⟨hsession, hcrc, hzero⟩ := hbegun.2 hnext.active
      have htransfer := Asset.transfer_of_putStep hput
      rw [chunk_chunkPayload hlen] at hput
      have hdecided := decided_putStep (m := { m with tape := tape }) hkept hinv hready hnext.active
        hzero hcrc hlen hput
      refine ⟨hkept', fun _ => Or.inl ?_, fun _ => ⟨fun hidle => ?_, fun _ => hdecided⟩⟩
      · have hsame : _ = m.ram.transfer.transferId := congrArg Asset.TransferState.transferId htransfer
        exact hsame.trans hsession
      · have hsame : _ = m.ram.transfer.active := congrArg Asset.TransferState.active htransfer
        exact absurd (hidle.symm.trans (hsame.trans hnext.active)) (by decide)
    | wornOut _ hput =>
      refine ⟨hkept', ?_, fun hok => nomatch (show Asset.Status.wearBudgetExhausted = .ok from hok)⟩
      intro hact
      rw [transfer_of_wornOut hput] at hact ⊢
      exact hknown hact
    | closed =>
      exact ⟨hkept', fun hact => absurd hact (by simp [cleared]),
        fun hok => nomatch (show Asset.Status.storageError = .ok from hok)⟩

/-- **COMMIT** does what was decided. -/
theorem commit_end (hreach : Asset.Reachable m) (hkept : Kept m₀ m)
    (hdecided : Decided m₀ bytes m)
    (hrun : Asset.handleFrame (viewOf allowDestructive id (shortPayload .commit transferId)) now
      { m with tape := tape } = .ok response m') (hok : response.status = .ok) :
    Done m₀ bytes m' := by
  have hcode : (shortPayload .commit transferId).getD 1 0 = 0x03 := rfl
  have hinv : Inv { m with tape := tape } := hreach.inv.congr rfl rfl rfl ⟨rfl, rfl, rfl, rfl⟩
  have hready : Ready { m with tape := tape } := hreach.ready.congr rfl rfl rfl
  cases frameEnd_of_run hreach hrun with
  | refused href => exact absurd hok href.1
  | begin hacc => exact absurd (hcode.symm.trans (accepted_opcode hacc).2) (by decide)
  | write hacc => exact absurd (hcode.symm.trans (accepted_opcode hacc).2) (by decide)
  | abort hacc => exact absurd (hcode.symm.trans (accepted_opcode hacc).2) (by decide)
  | status hacc => exact absurd (hcode.symm.trans (accepted_opcode hacc).2) (by decide)
  | read hacc => exact absurd (hcode.symm.trans (accepted_opcode hacc).2) (by decide)
  | commit hacc hend =>
    obtain ⟨rfl, -⟩ := accepted_opcode hacc
    cases hend with
    | refused hne => exact absurd hok hne
    | again _ hidle hmatches =>
      -- a session that was cleared is not remembered
      have hzero := hdecided.1 hidle
      exact absurd hzero hmatches.2.1
    | committed _ hact _ _ hresult hstep =>
      have hsame := hdecided.2 hact
      rcases hresult with rfl | rfl
      · obtain ⟨hcmp, -, record, hrecord, -, hgeneration⟩ := Asset.commit_end hinv hready hstep
        refine Or.inr ⟨fun h => ?_, record, hrecord, ?_⟩
        · exact absurd (hcmp.symm.trans (hsame.mpr h)) (by decide)
        · rw [hgeneration]
          exact congrArg nextGeneration hkept.1
      · cases hstep with
        | unchanged _ _ hcmp => exact Or.inl ⟨hsame.mp hcmp, hkept.1⟩
        | invalid _ _ _ hvalid =>
          exact absurd (Or.inr rfl) (Asset.validateRecord_error hvalid)
        | markedInvalid _ _ _ _ _ hvalid =>
          exact absurd (Or.inr rfl) (Asset.validateRecord_error hvalid)
    | closed _ hne hne' =>
      rcases Asset.mapPersistenceResult_eq_ok.mp hok with h | h
      · exact absurd h hne
      · exact absurd h hne'

/-- **ABORT** leaves no session of the write. One that was open before the
write, under another id, stays open. -/
theorem abort_end (hid : IsId id) (ht : transferId < 65536) (hkept : Kept m₀ m)
    (hknown : Known m₀ transferId m)
    (hrun : Asset.handleFrame (viewOf 0 id (shortPayload .abort transferId)) now
      { m with tape := tape } = .ok response m') : Kept m₀ m' ∧ Foreign m₀ m' := by
  have hacc : Accepted (viewOf 0 id (shortPayload .abort transferId))
      (shortPayload .abort transferId) 0x04 := by
    refine ⟨rfl, ?_, rfl, rfl⟩
    rintro (h | h | h | h | h | h)
    · exact h rfl
    · exact h rfl
    · exact Nat.ne_of_gt hid.1 h
    · exact h rfl
    · exact absurd h (by simp [shortPayload])
    · exact h rfl
  have htransfer := @read16_shortPayload transferId .abort ht
  have hwp : wp (Asset.handleFrame (viewOf 0 id (shortPayload .abort transferId)) now)
      (fun _ m' => Kept m₀ m' ∧ Foreign m₀ m') (fun _ => True) { m with tape := tape } := by
    rw [Asset.handleFrame_accepted hacc]
    change wp (Asset.handleAbort _ _) _ _ _
    simp only [Asset.handleAbort, Asset.abortStatus, Nor.wp_bind, Nor.wp_ram, Nor.wp_ite,
      Nor.wp_pure, Asset.wp_sendSimple]
    split
    next hobj => exact absurd rfl hobj
    next =>
    split
    next hother =>
      refine ⟨hkept, fun hact => ?_⟩
      rcases hknown hact with hsame | hforeign
      · exact absurd (hsame.trans htransfer.symm) hother.2
      · exact hforeign
    next =>
    split
    next => exact Asset.wp_clearSession ⟨hkept, fun hact => by cases hact⟩
    next hidle => exact ⟨hkept, fun hact => absurd hact hidle⟩
  exact wp_ok hwp hrun

/-- **READ_CHUNK** reads the active record. -/
theorem read_end (hreach : Asset.Reachable m)
    (hrun : Asset.handleFrame (viewOf 0 id (readPayload generation)) now
      { m with tape := tape } = .ok response m') :
    m' = { m with tape := tape } ∧ (response.status = .ok → ∃ record,
      m.ram.activeRecord = some record ∧ response.committedGeneration = record.generation ∧
        response.data = Asset.payload m.flash record.slotAddress) := by
  have hcode : (readPayload generation).getD 1 0 = 0x06 := rfl
  cases frameEnd_of_run hreach hrun with
  | refused href => exact ⟨rfl, fun hok => absurd hok href.1⟩
  | begin hacc => exact absurd (hcode.symm.trans (accepted_opcode hacc).2) (by decide)
  | write hacc => exact absurd (hcode.symm.trans (accepted_opcode hacc).2) (by decide)
  | commit hacc => exact absurd (hcode.symm.trans (accepted_opcode hacc).2) (by decide)
  | abort hacc => exact absurd (hcode.symm.trans (accepted_opcode hacc).2) (by decide)
  | status hacc => exact absurd (hcode.symm.trans (accepted_opcode hacc).2) (by decide)
  | read hacc hend =>
    obtain ⟨rfl, -⟩ := accepted_opcode hacc
    cases hend with
    | refused href => exact ⟨rfl, fun hok => absurd hok href.1⟩
    | @read record data hrecord _ hread =>
      have hactive : m.ram.activeRecord = some record := hrecord
      have hwhole : Asset.readActive m.flash (some record) 0 8 = some data := hread
      refine ⟨rfl, fun _ => ⟨record, hactive, ?_, ?_⟩⟩
      · change (m.ram.activeRecord.map Record.generation).getD 0 = _
        rw [hactive]
        rfl
      · exact (Option.some.inj hwhole).symm

end Steps

end AssetLink

end DeusOs
