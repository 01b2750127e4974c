import DeusOs.AssetLink.Write

/-!
# An asset write — the client

`WriteOledUiLayoutAsync` step by step: where it returns, the device holds
the configuration, and where it throws before it asked for a commit, the
active record is what it was, and no session of the call is left
(`write_layout`).
-/

namespace DeusOs

namespace AssetLink

open Async (Prog Triple)
open Asset (Ram Record nextGeneration)
open Host Host.AssetTransfer
open LittleEndian (write16 write32)
open Nor (Machine Outcome)

variable {m₀ m m' : Machine Ram} {transferId generation : ℕ} {bytes : List UInt8}
  {w : List AssetTransferOpcode} {P : World}

/-! ## The requests -/

/-- No commit was asked for, and the write goes on. -/
def During (m₀ : Machine Ram) (transferId : ℕ) : World := fun m w =>
  Kept m₀ m ∧ Known m₀ transferId m ∧ .commit ∉ w

/-- No commit was asked for, and no session of the write is open. -/
def Clear (m₀ : Machine Ram) : World := fun m w => Kept m₀ m ∧ Foreign m₀ m ∧ .commit ∉ w

/-- Before the cleanup: a commit was asked for, or the write goes on. -/
def Unclean (m₀ : Machine Ram) (transferId : ℕ) : World := fun m w =>
  .commit ∈ w ∨ During m₀ transferId m w

/-- After the cleanup. -/
def Clean (m₀ : Machine Ram) : World := fun m w => .commit ∈ w ∨ Clear m₀ m w

/-- A commit was asked for, and has done what was decided. -/
def Committed (m₀ : Machine Ram) (bytes : List UInt8) : World := fun m w =>
  Done m₀ bytes m ∧ .commit ∈ w

theorem not_mem_append {opcode : AssetTransferOpcode} (h : .commit ∉ w) (hne : opcode ≠ .commit) :
    .commit ∉ w ++ [opcode] := by
  intro hmem
  rcases List.mem_append.mp hmem with hmem | hmem
  · exact h hmem
  · exact hne (List.mem_singleton.mp hmem).symm

/-- What a request that only reads needs of a phase. -/
structure Settled (opcode : AssetTransferOpcode) (P : World) : Prop where
  poll : ∀ {m m' : Machine Ram} {w : List AssetTransferOpcode} {now : UInt32}, P m w →
    Asset.poll now m = .ok () m' → P m' w
  written : ∀ {m : Machine Ram} {w : List AssetTransferOpcode} (tape : ℕ → Option Outcome), P m w →
    P { m with tape := tape } (w ++ [opcode])

theorem settled_clear (m₀ : Machine Ram) : Settled .status (Clear m₀) where
  poll h hrun := ⟨kept_poll h.1 hrun, foreign_poll h.2.1 hrun, h.2.2⟩
  written _ h := ⟨h.1, h.2.1, not_mem_append h.2.2 (by decide)⟩

theorem settled_committed (opcode : AssetTransferOpcode) (m₀ : Machine Ram) (bytes : List UInt8) :
    Settled opcode (Committed m₀ bytes) where
  poll h hrun := ⟨done_poll h.1 hrun, h.2⟩
  written _ h := ⟨h.1, List.mem_append_left _ h.2⟩

theorem serves_status (hsettled : Settled .status P) :
    Serves .status 0 (shortPayload .status 0) P
      (fun a m w => P m w ∧
        a.committedGeneration = (m.ram.activeRecord.map Record.generation).getD 0) P where
  poll _ h hrun := hsettled.poll h hrun
  serve {m m' w id now tape response} _ hreach h hrun := by
    obtain ⟨rfl, hgeneration⟩ := status_end hreach hrun
    refine ⟨hsettled.written tape h, fun a hparsed hok => ⟨hsettled.written tape h, ?_⟩⟩
    have hsame := hgeneration (ok_of_parsed hparsed hok)
    have hlt := generation_lt hreach
    rw [← hsame] at hlt
    exact (hparsed.generation hlt).trans hsame

theorem serves_begin (ht : transferId < 65536) (crc : UInt32) :
    Serves .begin allowDestructive (beginPayload transferId crc) (During m₀ transferId)
      (fun a m w => During m₀ transferId m w ∧ (a.nextOffset = 0 → Begun transferId m crc))
      (During m₀ transferId) where
  poll _ h hrun := ⟨kept_poll h.1 hrun, known_poll h.2.1 hrun, h.2.2⟩
  serve {m m' w id now tape response} _ hreach h hrun := by
    obtain ⟨hkept, hknown, hsession⟩ := begin_end hreach ht h.1 h.2.1 hrun
    have hduring : During m₀ transferId m' (w ++ [.begin]) :=
      ⟨hkept, hknown, not_mem_append h.2.2 (by decide)⟩
    refine ⟨hduring, fun a hparsed hok => ⟨hduring, fun hzero => ?_⟩⟩
    obtain ⟨hoffset, hact, hid, hcrc⟩ := hsession (ok_of_parsed hparsed hok)
    have hbound := (reachable_handleFrame hreach hrun).inv.bound hact
    unfold Asset.configBytes at hbound
    have hlt : response.nextOffset < 65536 := by omega
    have hparsedOffset := hparsed.nextOffset hlt
    exact ⟨fun hidle => absurd (hidle.symm.trans hact) (by decide),
      fun _ => ⟨hid, hcrc, by omega⟩⟩

theorem serves_write (hlen : bytes.length = 8) :
    Serves .writeChunk allowDestructive (chunkPayload transferId bytes)
      (fun m w => During m₀ transferId m w ∧ Begun transferId m (Asset.crc32 bytes))
      (fun _ m w => During m₀ transferId m w ∧ Decided m₀ bytes m) (During m₀ transferId) where
  poll _ h hrun :=
    ⟨⟨kept_poll h.1.1 hrun, known_poll h.1.2.1 hrun, h.1.2.2⟩, begun_poll h.2 hrun⟩
  serve {m m' w id now tape response} _ hreach h hrun := by
    obtain ⟨hkept, hknown, hdecided⟩ := write_end hreach hlen h.1.1 h.1.2.1 h.2 hrun
    have hduring : During m₀ transferId m' (w ++ [.writeChunk]) :=
      ⟨hkept, hknown, not_mem_append h.1.2.2 (by decide)⟩
    exact ⟨hduring, fun a hparsed hok => ⟨hduring, hdecided (ok_of_parsed hparsed hok)⟩⟩

theorem serves_commit :
    Serves .commit allowDestructive (shortPayload .commit transferId)
      (fun m w => During m₀ transferId m w ∧ Decided m₀ bytes m)
      (fun _ => Committed m₀ bytes) (fun _ w => .commit ∈ w) where
  poll _ h hrun :=
    ⟨⟨kept_poll h.1.1 hrun, known_poll h.1.2.1 hrun, h.1.2.2⟩, decided_poll h.2 hrun⟩
  serve {m m' w id now tape response} _ hreach h hrun := by
    have hwritten : .commit ∈ w ++ [AssetTransferOpcode.commit] :=
      List.mem_append_right _ List.mem_cons_self
    exact ⟨hwritten, fun a hparsed hok =>
      ⟨commit_end hreach h.1.1 h.2 hrun (ok_of_parsed hparsed hok), hwritten⟩⟩

theorem serves_read :
    Serves .readChunk 0 (readPayload generation) (Committed m₀ bytes)
      (fun a m w => Committed m₀ bytes m w ∧ ∃ record, m.ram.activeRecord = some record ∧
        a.committedGeneration = record.generation ∧
          a.data = Asset.payload m.flash record.slotAddress) (Committed m₀ bytes) where
  poll _ h hrun := (settled_committed .readChunk m₀ bytes).poll h hrun
  serve {m m' w id now tape response} _ hreach h hrun := by
    obtain ⟨rfl, hread⟩ := read_end hreach hrun
    have hsettled := (settled_committed .readChunk m₀ bytes).written tape h
    refine ⟨hsettled, fun a hparsed hok => ⟨hsettled, ?_⟩⟩
    obtain ⟨record, hrecord, hgeneration, hdata⟩ := hread (ok_of_parsed hparsed hok)
    have hle := (hreach.ready.record record hrecord).generation
    unfold Asset.generationMax at hle
    have hlt : response.committedGeneration < 4294967296 := by omega
    exact ⟨record, hrecord, (hparsed.generation hlt).trans hgeneration, hparsed.data.trans hdata⟩

/-- An ABORT, before a commit was asked for or after. -/
theorem serves_abort (ht : transferId < 65536) :
    Serves .abort 0 (shortPayload .abort transferId) (Unclean m₀ transferId) (fun _ => Clean m₀)
      (Clean m₀) where
  poll _ h hrun := by
    rcases h with hwritten | h
    · exact Or.inl hwritten
    · exact Or.inr ⟨kept_poll h.1 hrun, known_poll h.2.1 hrun, h.2.2⟩
  serve {m m' w id now tape response} hid _ h hrun := by
    have hafter : Clean m₀ m' (w ++ [.abort]) := by
      rcases h with hwritten | ⟨hkept, hknown, hnot⟩
      · exact Or.inl (List.mem_append_left _ hwritten)
      · obtain ⟨hkept', hforeign⟩ := abort_end hid ht hkept hknown hrun
        exact Or.inr ⟨hkept', hforeign, not_mem_append hnot (by decide)⟩
    exact ⟨hafter, fun _ _ _ => hafter⟩

/-! ## The steps of the call -/

section Steps

variable {before : AssetStatusSnapshot} {commit : AssetTransferResponse}

theorem length_shortPayload_le (opcode : AssetTransferOpcode) (transferId : ℕ) :
    (shortPayload opcode transferId).length ≤ maxPayloadBytes := Nat.le_of_ble_eq_true rfl

/-- A phase that a failed request stays in. -/
theorem failed_same {R : World} {e : HostError} {token : Token} {s : Line} (h : Failed P R token e s)
    (hP : P s.device s.written → R s.device s.written) :
    Caught e ∧ Sound s ∧ R s.device s.written := by
  obtain ⟨hcaught, hsound, ⟨hworld, -⟩ | hworld⟩ := h
  · exact ⟨hcaught, hsound, hP hworld⟩
  · exact ⟨hcaught, hsound, hworld⟩

/-- **STATUS.** The answer tells which generation is committed, and nothing that
is decided changes. -/
theorem triple_status (hsettled : Settled .status P) :
    Triple (fun s => Sound s ∧ P s.device s.written) statusAsync
      (fun snapshot s => Sound s ∧ P s.device s.written ∧ snapshot.committedGeneration =
        (s.device.ram.activeRecord.map Record.generation).getD 0)
      (fun e s => Caught e ∧ Sound s ∧ P s.device s.written) := by
  have hencode : encodeStatus oledUiLayoutObjectType = .ok (shortPayload .status 0) := rfl
  unfold statusAsync
  rw [hencode]
  refine Triple.bind ((triple_request (length_shortPayload_le _ _) (serves_status hsettled)).conseq
    (fun _ h => h) (fun _ _ h => h) fun e s h => failed_same h id) fun a => Triple.lift ?_ ?_
  · rintro s snapshot ⟨hsound, -, hworld, hgeneration⟩ hsnapshot
    unfold toStatusSnapshot at hsnapshot
    split_ifs at hsnapshot
    obtain rfl := Except.ok.inj hsnapshot
    exact ⟨hsound, hworld, hgeneration⟩
  · rintro s e ⟨hsound, -, hworld, -⟩ hsnapshot
    unfold toStatusSnapshot at hsnapshot
    split_ifs at hsnapshot
    exact ⟨Or.inl ⟨_, (Except.error.inj hsnapshot).symm⟩, hsound, hworld⟩

theorem encodeBegin_eq (hpos : transferId ≠ 0) (crc : UInt32) :
    encodeBegin oledUiLayoutObjectType transferId 8 schemaVersion crc =
      .ok (beginPayload transferId crc) := by
  have hlength : ¬ ((8 : ℕ) = 0 ∨ objectMax < 8) := by decide
  rw [encodeBegin, if_neg hpos, if_neg hlength]
  rfl

/-- The chunks are one. -/
theorem writeChunks_eq (hpos : transferId ≠ 0) (hlen : bytes.length = 8) :
    writeChunks transferId bytes 0 = (do
      let write ← request .writeChunk allowDestructive (.ok (chunkPayload transferId bytes)) .linked
      if write.transferId ≠ transferId ∨ write.nextOffset ≠ 0 + 8 then Prog.raise (.deus .protocol)
      else pure ()) := by
  have hcount : min AssetTransfer.chunkMax (bytes.length - 0) = 8 := by
    rw [hlen]
    rfl
  have hchunk : (bytes.drop 0).take 8 = bytes := by rw [List.drop_zero, ← hlen, List.take_length]
  have hend : writeChunks transferId bytes (0 + 8) = pure () := by
    rw [writeChunks, if_neg (by omega)]
  have hencode : encodeWriteChunk oledUiLayoutObjectType transferId 0 bytes =
      .ok (chunkPayload transferId bytes) := by
    have hlength : ¬ (bytes.length < 1 ∨ AssetTransfer.chunkMax < bytes.length) := by
      rw [hlen]
      decide
    rw [encodeWriteChunk, if_neg hpos, if_neg hlength, hlen]
    rfl
  rw [writeChunks, if_pos (by omega)]
  simp only [hcount, hchunk, hencode, hend]

/-- **From BEGIN to the last chunk.** If both are answered, the device has
decided: the bytes are the active record's, or are stored in the other slot. -/
theorem triple_beginAndWrite (ht : IsId transferId) (hlen : bytes.length = 8) :
    Triple (fun s => Sound s ∧ During m₀ transferId s.device s.written)
      (beginAndWrite transferId bytes)
      (fun _ s => Sound s ∧ During m₀ transferId s.device s.written ∧ Decided m₀ bytes s.device)
      (fun e s => Caught e ∧ Sound s ∧ During m₀ transferId s.device s.written) := by
  have hpos : transferId ≠ 0 := Nat.ne_of_gt ht.1
  unfold beginAndWrite
  rw [hlen, encodeBegin_eq hpos]
  refine Triple.bind ((triple_request (Nat.le_of_ble_eq_true rfl)
    (serves_begin ht.2 (crc32Compute bytes))).conseq (fun _ h => h) (fun _ _ h => h)
    fun e s h => failed_same h id) fun a => ?_
  split
  next => exact Triple.raise fun s h => ⟨Or.inl ⟨_, rfl⟩, h.1, h.2.2.1⟩
  next hstate =>
  obtain ⟨-, hstate⟩ := not_or.mp hstate
  obtain ⟨-, hstate⟩ := not_or.mp hstate
  obtain ⟨-, hzero⟩ := not_or.mp hstate
  rw [writeChunks_eq hpos hlen]
  have hlength : (chunkPayload transferId bytes).length ≤ maxPayloadBytes := by
    rw [chunkPayload, List.length_append, hlen]
    exact Nat.le_of_ble_eq_true rfl
  have hserves : Serves .writeChunk allowDestructive (chunkPayload transferId bytes) _
      (fun _ m w => During m₀ transferId m w ∧ Decided m₀ bytes m) _ := serves_write hlen
  refine Triple.bind ((triple_request hlength hserves).conseq ?_
    (fun _ _ h => h) fun e s h => failed_same h And.left) fun b => ?_
  · rintro s ⟨hsound, -, hduring, hbegun⟩
    have h := hbegun (not_not.mp hzero)
    rw [crc32Compute_eq] at h
    exact ⟨hsound, hduring, h⟩
  · split
    · exact Triple.raise fun s h => ⟨Or.inl ⟨_, rfl⟩, h.1, h.2.2.1⟩
    · exact Triple.ret fun s h => ⟨h.1, h.2.2⟩

/-- **COMMIT.** If it throws, the device may have committed and the answer been
lost, so the end is left open. -/
theorem triple_commit (ht : IsId transferId) :
    Triple (fun s => Sound s ∧ During m₀ transferId s.device s.written ∧ Decided m₀ bytes s.device)
      (commitAsync transferId) (fun _ s => Sound s ∧ Committed m₀ bytes s.device s.written)
      (fun e s => Caught e ∧ Sound s ∧
        Unclean m₀ transferId s.device s.written) := by
  have hencode : encodeCommit oledUiLayoutObjectType transferId =
      .ok (shortPayload .commit transferId) := by
    have hid : ¬ (AssetTransferOpcode.commit ≠ .status ∧ transferId = 0) :=
      fun h => Nat.ne_of_gt ht.1 h.2
    rw [encodeCommit, encodeShort, if_neg hid]
    rfl
  unfold commitAsync
  rw [hencode]
  refine (triple_request (length_shortPayload_le _ _) serves_commit).conseq (fun _ h => h)
    (fun a s h => ⟨h.1, h.2.2⟩) ?_
  rintro e s ⟨hcaught, hsound, ⟨hworld, -⟩ | hwritten⟩
  · exact ⟨hcaught, hsound, Or.inr hworld.1⟩
  · exact ⟨hcaught, hsound, Or.inl hwritten⟩

/-- The chunks of the readback are one. -/
theorem readChunks_eq (generation : ℕ) :
    readChunks oledUiLayoutObjectType generation 8 [] 0 = (do
      let response ← request .readChunk 0 (.ok (readPayload generation)) .linked
      if response.objectType ≠ oledUiLayoutObjectType ∨
          response.committedGeneration ≠ generation ∨ response.totalLength ≠ 8 ∨
          response.data.length ≠ 8 ∨ response.nextOffset ≠ 0 + 8 then Prog.raise (.deus .protocol)
      else pure ([] ++ response.data)) := by
  have hcount : min AssetTransfer.chunkMax (8 - 0) = 8 := rfl
  have hend : ∀ payload, readChunks oledUiLayoutObjectType generation 8 payload (0 + 8) =
      pure payload := by
    intro payload
    rw [readChunks, if_neg (by omega)]
  have hencode : encodeReadChunk oledUiLayoutObjectType generation 0 8 =
      .ok (readPayload generation) := rfl
  rw [readChunks, if_pos (by omega)]
  simp only [hcount, hencode, hend]

/-- **The readback** is the active record's payload. -/
theorem triple_read (generation : ℕ) :
    Triple (fun s => Sound s ∧ Committed m₀ bytes s.device s.written)
      (readAssetPayloadCoreAsync oledUiLayoutObjectType generation 8)
      (fun data s => Committed m₀ bytes s.device s.written ∧
        ∃ record, s.device.ram.activeRecord = some record ∧ generation = record.generation ∧
          data = Asset.payload s.device.flash record.slotAddress)
      (fun _ s => .commit ∈ s.written) := by
  unfold readAssetPayloadCoreAsync
  split
  · exact Triple.raise fun s h => h.2.2
  split
  · exact Triple.raise fun s h => h.2.2
  rw [readChunks_eq]
  refine Triple.bind ((triple_request (Nat.le_of_ble_eq_true rfl) serves_read).conseq (fun _ h => h)
    (fun _ _ h => h) fun e s h => (failed_same h id).2.2.2) fun a => ?_
  split
  next => exact Triple.raise fun s h => h.2.2.1.2
  next hstate =>
    obtain ⟨-, hstate⟩ := not_or.mp hstate
    obtain ⟨hgeneration, -⟩ := not_or.mp hstate
    refine Triple.ret fun s h => ?_
    obtain ⟨-, -, hcommitted, record, hrecord, hsame, hdata⟩ := h
    exact ⟨hcommitted, record, hrecord, (not_not.mp hgeneration).symm.trans hsame, hdata⟩

end Steps

/-! ## The call -/

section Call

variable {before : AssetStatusSnapshot} {commit : AssetTransferResponse} {e : HostError}

/-- The device holds what the call reports. -/
structure Installed (m₀ : Machine Ram) (bytes : List UInt8) (result : AssetCommitResult)
    (m : Machine Ram) : Prop where
  record : ∃ record, m.ram.activeRecord = some record ∧
    Asset.payload m.flash record.slotAddress = bytes ∧ result.generation = record.generation
  changed : result.changed = true ↔ ¬ Same m₀ bytes
  generation : result.changed = true → result.generation = nextGeneration m₀.ram.activeRecord

/-- The call has ended without a success: it had asked for a commit, or the
active record is what it was, and either the host gives out no more ids, or
no session of the call is open. -/
def Ended (m₀ : Machine Ram) (s : Line) : Prop :=
  .commit ∈ s.written ∨ Kept m₀ s.device ∧ Asset.Reachable s.device ∧
    (s.channel.freshSessionRequired = true ∨ Foreign m₀ s.device)

theorem nextGeneration_eq (active : Option Record) :
    nextGeneration active = (active.map Record.generation).getD 0 + 1 := by
  rcases active with - | record
  · rfl
  · rfl

/-- What was done shows in the generations. -/
theorem installed_of_done {after : AssetStatusSnapshot} {record : Record}
    (hbefore : before.committedGeneration = (m₀.ram.activeRecord.map Record.generation).getD 0)
    (hdone : Done m₀ bytes m) (hrecord : m.ram.activeRecord = some record)
    (hbytes : Asset.payload m.flash record.slotAddress = bytes)
    (hafter : after.committedGeneration = record.generation) :
    Installed m₀ bytes ⟨after.committedGeneration, after.committedPayloadLength,
      after.committedPayloadCrc32, before.committedGeneration ≠ after.committedGeneration⟩ m := by
  have hnext := nextGeneration_eq m₀.ram.activeRecord
  rcases hdone with ⟨hsame, hactive⟩ | ⟨hdiffers, record', hrecord', hgeneration⟩
  · have hequal : before.committedGeneration = after.committedGeneration := by
      rw [hbefore, ← hactive, hrecord, hafter]
      rfl
    refine ⟨⟨record, hrecord, hbytes, hafter⟩, ?_, ?_⟩
    · simp [hequal, hsame]
    · simp [hequal]
  · obtain rfl := Option.some.inj (hrecord.symm.trans hrecord')
    have hne : before.committedGeneration ≠ after.committedGeneration := by omega
    refine ⟨⟨record, hrecord, hbytes, hafter⟩, ?_, fun _ => hafter.trans hgeneration⟩
    simp [hne, hdiffers]

/-- **After the commit,** the host checks what the device holds: it asks for the
status and reads the payload back. -/
theorem triple_afterCommit (hlen : bytes.length = 8)
    (hbefore : before.committedGeneration = (m₀.ram.activeRecord.map Record.generation).getD 0) :
    Triple (fun s => Sound s ∧ Committed m₀ bytes s.device s.written)
      (afterCommit before transferId bytes commit)
      (fun result s => Installed m₀ bytes result s.device) (fun _ s => .commit ∈ s.written) := by
  unfold afterCommit
  split
  · exact Triple.raise fun s h => h.2.2
  refine Triple.bind ((triple_status (settled_committed .status m₀ bytes)).conseq (fun _ h => h)
    (fun _ s h => (⟨h.1, h.2.1⟩ : Sound s ∧ Committed m₀ bytes s.device s.written))
    fun e s h => h.2.2.2) fun after => ?_
  split
  next => exact Triple.raise fun s h => h.2.2
  next hidentity =>
  obtain ⟨-, hidentity⟩ := not_or.mp hidentity
  obtain ⟨hlength, -⟩ := not_or.mp hidentity
  rw [not_not.mp hlength, hlen]
  refine Triple.bind (triple_read after.committedGeneration) fun readback => ?_
  split
  next => exact Triple.raise fun s h => h.1.2
  next hcheck =>
    obtain ⟨hequal, -⟩ := not_or.mp hcheck
    refine Triple.ret ?_
    rintro s ⟨hcommitted, record, hrecord, hgeneration, hdata⟩
    have hinstalled := installed_of_done hbefore hcommitted.1 hrecord
      (hdata.symm.trans (not_not.mp hequal).symm) hgeneration
    rw [not_not.mp hlength, hlen] at hinstalled
    exact hinstalled

/-- **The cleanup** leaves no session of the call, whether its ABORT is answered
or not, unless the host gives out no more ids. -/
theorem triple_tryAbort (ht : IsId transferId) :
    Triple (fun s => Sound s ∧ Unclean m₀ transferId s.device s.written)
      (tryAbortWriteSessionAsync transferId) (fun _ s => Ended m₀ s) (fun _ s => Ended m₀ s) := by
  have hpos : transferId ≠ 0 := Nat.ne_of_gt ht.1
  have hencode : encodeAbort oledUiLayoutObjectType transferId =
      .ok (shortPayload .abort transferId) := by
    have hid : ¬ (AssetTransferOpcode.abort ≠ .status ∧ transferId = 0) := fun h => hpos h.2
    rw [encodeAbort, encodeShort, if_neg hid]
    rfl
  have hclean : ∀ {s : Line}, Sound s → Clean m₀ s.device s.written → Ended m₀ s := by
    rintro s hsound (hwritten | h)
    · exact Or.inl hwritten
    · exact Or.inr ⟨h.1, hsound.device, Or.inr h.2.1⟩
  have hfailed : ∀ {e : HostError} {s : Line},
      Failed (Unclean m₀ transferId) (Clean m₀) .cleanup e s → Ended m₀ s := by
    rintro e s ⟨-, hsound, ⟨hworld, hfresh | htoken⟩ | hworld⟩
    · -- no id was left for it
      rcases hworld with hwritten | hduring
      · exact Or.inl hwritten
      · exact Or.inr ⟨hduring.1, hsound.device, Or.inl hfresh⟩
    · exact nomatch htoken
    · exact hclean hsound hworld
  unfold tryAbortWriteSessionAsync
  rw [if_neg hpos, hencode]
  have hrequest := (triple_request (length_shortPayload_le .abort transferId)
    (serves_abort ht.2)).conseq (fun _ h => h) (fun _ _ h => h) fun _ _ h => hfailed h
  refine Triple.handle (Triple.bind hrequest fun _ => Triple.ret fun s h => hclean h.1 h.2.2)
    fun e => ?_
  split
  · exact Triple.ret fun s h => h
  · exact Triple.ret fun s h => h
  · exact Triple.raise fun s h => h

theorem triple_catchWrite {α : Type} {A : α → Line → Prop} (ht : IsId transferId)
    (e : HostError) :
    Triple (fun s => Caught e ∧ Sound s ∧ Unclean m₀ transferId s.device s.written)
      (catchWrite transferId true e : LineTask α) A (fun _ s => Ended m₀ s) := by
  rcases e with - | - | - | requested | kind
  · exact fun s evs h => absurd h.1 (by simp [Caught])
  · exact fun s evs h => absurd h.1 (by simp [Caught])
  · exact fun s evs h => absurd h.1 (by simp [Caught])
  · exact Triple.bind ((triple_tryAbort ht).conseq (fun s h => h.2) (fun _ _ h => h)
      fun _ _ h => h) fun _ => Triple.raise fun s h => h
  · exact Triple.bind ((triple_tryAbort ht).conseq (fun s h => h.2) (fun _ _ h => h)
      fun _ _ h => h) fun _ => Triple.raise fun s h => h

/-- Where no session of the call may be active, what was thrown is thrown
on. -/
theorem triple_catchIdle {α : Type} {A : α → Line → Prop} {R : Line → Prop} (e : HostError) :
    Triple R (catchWrite transferId false e : LineTask α) A (fun _ s => R s) := by
  have hraise : (catchWrite transferId false e : LineTask α) = Prog.raise (rethrown e) := by
    rcases e with - | - | - | requested | kind <;> rfl
  rw [hraise]
  exact Triple.raise fun s h => h

/-- The request before BEGIN. -/
theorem triple_before (m₀ : Machine Ram) :
    Triple (fun s => Sound s ∧ Clear m₀ s.device s.written)
      (Prog.handle statusAsync (catchWrite 0 false))
      (fun before s => (Sound s ∧ Clear m₀ s.device s.written) ∧ before.committedGeneration =
        (m₀.ram.activeRecord.map Record.generation).getD 0)
      (fun _ s => Ended m₀ s) := by
  have hstatus := triple_status (settled_clear m₀)
  refine Triple.handle (hstatus.conseq (fun _ h => h) ?_ ?_) fun e => triple_catchIdle e
  · rintro before s ⟨hsound, hclear, hgeneration⟩
    rw [hclear.1.1] at hgeneration
    exact ⟨⟨hsound, hclear⟩, hgeneration⟩
  · rintro e s ⟨-, hsound, hclear⟩
    exact Or.inr ⟨hclear.1, hsound.device, Or.inr hclear.2.1⟩

/-- From BEGIN to COMMIT, with the cleanup. -/
theorem triple_session (ht : IsId transferId) (hlen : bytes.length = 8) :
    Triple (fun s => Sound s ∧ Clear m₀ s.device s.written)
      (Prog.handle
        (do
          beginAndWrite transferId bytes
          commitAsync transferId)
        (catchWrite transferId true))
      (fun _ s => Sound s ∧ Committed m₀ bytes s.device s.written) (fun _ s => Ended m₀ s) := by
  have hbegin : Triple (fun s => Sound s ∧ During m₀ transferId s.device s.written) _ _
      (fun e s => Caught e ∧ Sound s ∧ Unclean m₀ transferId s.device s.written) :=
    (triple_beginAndWrite ht hlen).conseq (fun _ h => h) (fun _ _ h => h)
      fun _ _ h => ⟨h.1, h.2.1, Or.inr h.2.2⟩
  refine Triple.handle (Triple.bind (hbegin.conseq ?_ (fun _ _ h => h) fun _ _ h => h)
    fun _ => triple_commit ht) fun e => triple_catchWrite ht e
  rintro s ⟨hsound, hkept, hforeign, hnot⟩
  exact ⟨hsound, hkept, fun hact => Or.inr (hforeign hact), hnot⟩

/-- **The call,** from a device with nothing on its way. -/
theorem triple_call {transferIds : RequestIdAllocator} {configuration : OledUiLayoutConfigV1}
    (ht : IsId transferIds.next) (hbytes : configuration.serialize = .ok bytes)
    (hlen : bytes.length = 8) :
    Triple (fun s => Sound s ∧ Clear m₀ s.device s.written)
      (writeOledUiLayoutAsync transferIds configuration)
      (fun result s => Installed m₀ bytes result s.device) (fun _ s => Ended m₀ s) := by
  unfold writeOledUiLayoutAsync
  rw [hbytes, Async.lift_bind]
  refine Triple.bind (triple_before m₀) fun before => ?_
  intro s evs ⟨hs, hbefore⟩
  refine Triple.bind (triple_session ht hlen) (fun commit => ?_) s evs hs
  refine Triple.handle ((triple_afterCommit hlen hbefore).conseq (fun _ h => h) (fun _ _ h => h)
    fun e s h => ?_) fun e => triple_catchIdle e
  exact Or.inl h

end Call

/-! ## A later call -/

section Later

variable {s : Line} {e : HostError} {crc : UInt32} {id : ℕ} {now : UInt32}
  {tape : ℕ → Option Outcome} {response : Asset.Response}

/-- What the device does before the BEGIN of a later call. -/
inductive Waited (m : Machine Ram) : Machine Ram → Prop
  | refl : Waited m m
  | poll {m₁ m₂ : Machine Ram} {now : UInt32} : Waited m m₁ → Asset.poll now m₁ = .ok () m₂ →
      Waited m m₂
  | status {m₁ m₂ : Machine Ram} {id : ℕ} {now : UInt32} {tape : ℕ → Option Outcome}
      {response : Asset.Response} : Waited m m₁ →
      Asset.handleFrame (viewOf 0 id (shortPayload .status 0)) now { m₁ with tape := tape } =
        .ok response m₂ → Waited m m₂

/-- Waiting keeps the device reachable, and opens no session. -/
theorem Waited.foreign (h : Waited m m') (hreach : Asset.Reachable m) (hforeign : Foreign m₀ m) :
    Asset.Reachable m' ∧ Foreign m₀ m' := by
  induction h with
  | refl => exact ⟨hreach, hforeign⟩
  | poll _ hrun ih => exact ⟨reachable_poll ih.1 hrun, foreign_poll ih.2 hrun⟩
  | status _ hrun ih =>
    have hreach' := reachable_handleFrame ih.1 hrun
    obtain ⟨rfl, -⟩ := status_end ih.1 hrun
    exact ⟨hreach', ih.2⟩

/-- Without a session, no BEGIN finds the device busy. -/
theorem beginStatus_idle (p : List UInt8) (now : UInt32) (hidle : m.ram.transfer.active = false) :
    Nor.wp (Asset.beginStatus p now) (fun status _ => status ≠ .busy) (fun _ => True) m := by
  have hmap : ∀ result, Asset.mapPersistenceResult result ≠ .busy := by
    intro result
    cases result <;> decide
  simp only [Asset.beginStatus, Nor.wp_bind, Nor.wp_ram, Nor.wp_ite, Nor.wp_pure,
    Asset.modifyTransfer, Nor.wp_modifyRam]
  split_ifs with h1 h2 h3 h4 h5 hact
  any_goals decide
  · exact absurd hact (by simp [hidle])
  · exact absurd hact (by simp [hidle])
  · refine Nor.wp_mono (Asset.beginCandidate_wp _ _) (fun result m' _ => ?_) fun _ _ => trivial
    split
    · rw [Nor.wp_bind]
      refine Asset.wp_clearSession ?_
      exact hmap result
    · exact hmap result

/-- **A BEGIN that finds the device busy** finds an open session. -/
theorem begin_busy (hid : IsId id)
    (hrun : Asset.handleFrame (viewOf allowDestructive id (beginPayload transferId crc)) now
      { m with tape := tape } = .ok response m') (hbusy : response.status = .busy) :
    m.ram.transfer.active = true := by
  have hacc : Asset.Accepted (viewOf allowDestructive id (beginPayload transferId crc))
      (beginPayload transferId crc) 0x01 := by
    refine ⟨rfl, ?_, rfl, rfl⟩
    rintro (h | h | h | h | h | h)
    · exact h rfl
    · exact h rfl
    · exact Nat.ne_of_gt hid.1 h
    · exact h rfl
    · exact absurd h (by simp [beginPayload])
    · exact h rfl
  by_contra hopen
  have hidle : m.ram.transfer.active = false := Bool.eq_false_iff.mpr hopen
  have hwp : Nor.wp (Asset.handleFrame (viewOf allowDestructive id (beginPayload transferId crc)) now)
      (fun response _ => response.status ≠ .busy) (fun _ => True) { m with tape := tape } := by
    rw [Asset.handleFrame_accepted hacc]
    change Nor.wp (Asset.handleBegin _ _ now) _ _ _
    simp only [Asset.handleBegin, Nor.wp_bind]
    exact Nor.wp_mono (beginStatus_idle _ now hidle) (fun _ _ hne => hne) fun _ h => h
  exact Nor.wp_ok hwp hrun hbusy

/-- Where the host gives out no more ids, a call ends before it has written
anything. -/
theorem write_of_fresh (hfresh : s.channel.freshSessionRequired = true)
    (transferIds : RequestIdAllocator) {configuration : OledUiLayoutConfigV1}
    (hbytes : configuration.serialize = .ok bytes) (evs : List LineEvent) :
    writeOledUiLayoutAsync transferIds configuration s evs =
      .threw (.deus .requestCorrelation) s evs := by
  have hencode : encodeStatus oledUiLayoutObjectType = .ok (shortPayload .status 0) := rfl
  have hid : onLine Channel.nextRequestId s evs = .threw (.deus .requestCorrelation) s evs := by
    simp only [onLine, Prog.act, nextRequestId_of_fresh hfresh]
  have hrequest : request .status 0 (.ok (shortPayload .status 0)) .linked s evs =
      .threw (.deus .requestCorrelation) s evs := by
    unfold request assetRequestCoreAsync
    rw [Async.lift_bind]
    exact Async.bind_threw (Async.bind_threw hid)
  have hstatus : statusAsync s evs = .threw (.deus .requestCorrelation) s evs := by
    unfold statusAsync
    rw [hencode]
    exact Async.bind_threw hrequest
  unfold writeOledUiLayoutAsync
  rw [hbytes, Async.lift_bind]
  refine Async.bind_threw ?_
  rw [Async.handle_threw hstatus]
  rfl

end Later

/-! ## The write -/

/-- No later call is refused for a session of the call that left the line
like this: either the host gives out no more ids, and refuses it by itself,
or where its BEGIN finds the device busy, it is with a session that was open
in `m₀`. -/
def LeavesNoSession (m₀ : Machine Ram) (s : Line) : Prop :=
  (∀ (transferIds : RequestIdAllocator) (configuration : OledUiLayoutConfigV1)
      (evs : List LineEvent), configuration.Valid →
    writeOledUiLayoutAsync transferIds configuration s evs =
      .threw (.deus .requestCorrelation) s evs) ∨
  ∀ (m m' : Machine Ram) (id transferId : ℕ) (crc : UInt32) (now : UInt32)
    (tape : ℕ → Option Outcome) (response : Asset.Response), Waited s.device m → IsId id →
    Asset.handleFrame (viewOf allowDestructive id (beginPayload transferId crc)) now
      { m with tape := tape } = .ok response m' → response.status = .busy →
    m₀.ram.transfer.active = true ∧ m.ram.transfer.transferId = m₀.ram.transfer.transferId

theorem serialize_valid {configuration : OledUiLayoutConfigV1} (hvalid : configuration.Valid) :
    ∃ bytes, configuration.serialize = .ok bytes ∧ bytes.length = 8 := by
  rw [OledUiLayoutConfigV1.serialize, if_pos hvalid]
  exact ⟨_, rfl, rfl⟩

theorem Ended.leavesNoSession {s : Line} (h : Ended m₀ s) (hnot : .commit ∉ s.written) :
    Kept m₀ s.device ∧ LeavesNoSession m₀ s := by
  obtain hwritten | ⟨hkept, hreach, hfresh | hforeign⟩ := h
  · exact absurd hwritten hnot
  · refine ⟨hkept, Or.inl fun transferIds configuration evs hvalid => ?_⟩
    obtain ⟨bytes, hbytes, -⟩ := serialize_valid hvalid
    exact write_of_fresh hfresh transferIds hbytes evs
  · refine ⟨hkept, Or.inr ?_⟩
    intro m m' id transferId crc now tape response hwaited hid hrun hbusy
    exact (hwaited.foreign hreach hforeign).2 (begin_busy hid hrun hbusy)

/-- **An asset write across host and device.** Where the call returns, the
active record of the device is the configuration, with the generation that
is reported, and it is a new one exactly where the configuration was not the
active record before. Where it throws with no commit asked for, the active
record is what it was, and no later call is refused for a session of this
one. -/
theorem write_layout {channel : Channel} {device : Machine Ram} {transferIds : RequestIdAllocator}
    {configuration : OledUiLayoutConfigV1} (hdevice : Asset.Reachable device)
    (hchannel : IsId channel.requestIds.next) (htransfer : IsId transferIds.next)
    (hvalid : configuration.Valid) (evs : List LineEvent) :
    (∀ result s evs', writeOledUiLayoutAsync transferIds configuration ⟨channel, device, none, []⟩
        evs = .returned result s evs' →
      ∃ bytes, configuration.serialize = .ok bytes ∧ Installed device bytes result s.device) ∧
    ∀ e s evs', writeOledUiLayoutAsync transferIds configuration ⟨channel, device, none, []⟩
        evs = .threw e s evs' → .commit ∉ s.written →
      s.device.ram.activeRecord = device.ram.activeRecord ∧
        (∀ record, device.ram.activeRecord = some record →
          Asset.payload s.device.flash record.slotAddress =
            Asset.payload device.flash record.slotAddress) ∧ LeavesNoSession device s := by
  obtain ⟨bytes, hbytes, hlen⟩ := serialize_valid hvalid
  have hclear : Clear device device [] :=
    ⟨⟨rfl, Asset.OnlyIn.refl _ _⟩, fun hact => ⟨hact, rfl⟩, List.not_mem_nil⟩
  obtain ⟨hreturned, hthrew⟩ := triple_call htransfer hbytes hlen ⟨channel, device, none, []⟩ evs
    ⟨⟨hchannel, hdevice⟩, hclear⟩
  refine ⟨fun result s evs' hrun => ⟨bytes, hbytes, hreturned result s evs' hrun⟩, ?_⟩
  intro e s evs' hrun hnot
  obtain ⟨hkept, hleaves⟩ := (hthrew e s evs' hrun).leavesNoSession hnot
  refine ⟨hkept.1, fun record hrecord => ?_, hleaves⟩
  have hspares : Asset.Spares device s.device := ⟨hkept.1, hkept.2⟩
  exact hspares.payload hrecord (hdevice.inv.record record hrecord)

/-- Every request is written and answered, and every flash operation
succeeds. -/
def answers (requests : ℕ) : List LineEvent :=
  (List.replicate requests [LineEvent.write, .answer 0 fun _ => some Outcome.good]).flatten

/-- What a call that returned reports, and how many events it left. -/
def reported : Async.Completion Line LineEvent HostError AssetCommitResult → Option (ℕ × Bool × ℕ)
  | .returned result _ evs => some (result.generation, result.changed, evs.length)
  | .threw _ _ _ => none
  | .pending _ => none

/-- The first write of a layout, six answers long: it returns generation 1, as
new, and the device has the layout. -/
theorem write_layout_first :
    ∃ result s evs, writeOledUiLayoutAsync ⟨1⟩ ⟨1, 10, 126, 22⟩
        ⟨Channel.new, Asset.erasedDevice, none, []⟩ (answers 6) = .returned result s evs ∧
      result.generation = 1 ∧ result.changed = true ∧
        ∃ bytes, OledUiLayoutConfigV1.serialize ⟨1, 10, 126, 22⟩ = .ok bytes ∧
          Installed Asset.erasedDevice bytes result s.device := by
  have hreport : reported (writeOledUiLayoutAsync ⟨1⟩ ⟨1, 10, 126, 22⟩
      ⟨Channel.new, Asset.erasedDevice, none, []⟩ (answers 6)) = some (1, true, 0) := by
    decide +kernel
  have hwrite := (@write_layout Channel.new Asset.erasedDevice ⟨1⟩ ⟨1, 10, 126, 22⟩ (.boot _ _ _)
    ⟨by decide, by decide⟩ ⟨by decide, by decide⟩ (by decide) (answers 6)).1
  rcases hrun : writeOledUiLayoutAsync ⟨1⟩ ⟨1, 10, 126, 22⟩
      ⟨Channel.new, Asset.erasedDevice, none, []⟩ (answers 6) with
    ⟨result, s, evs⟩ | ⟨e, s, evs⟩ | s
  · rw [hrun] at hreport
    simp only [reported, Option.some.injEq, Prod.mk.injEq] at hreport
    exact ⟨result, s, evs, rfl, hreport.1, hreport.2.1, hwrite result s evs hrun⟩
  · rw [hrun] at hreport
    exact nomatch hreport
  · rw [hrun] at hreport
    exact nomatch hreport

end AssetLink

end DeusOs
