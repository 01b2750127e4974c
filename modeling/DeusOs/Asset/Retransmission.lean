import DeusOs.Asset.Frames

/-!
# A request again

The host sends a request again when it has missed the response.
`retransmission`: what was answered OK is answered the same again, and moves
nothing but the time of the last activity; and a COMMIT that finds no
session is answered OK exactly where the last session was committed under
its id and the record of it is active, as long as the session layer has not
been reset in between.
-/

namespace DeusOs.Asset

open Nor
open LittleEndian (read16 read32)

/-! ## One request, twice -/

/-- Only the time of the last activity moves. -/
def touched (m : Machine Ram) (now : UInt32) : Machine Ram :=
  { m with ram := { m.ram with transfer := { m.ram.transfer with lastActivityMs := now } } }

section Again

variable {m m' : Machine Ram} {frame : FrameView} {p : List UInt8} {now : UInt32}

/-- A BEGIN for the session that is open. -/
theorem begin_again (hacc : Accepted frame p 0x01) (hfields : BeginFields p)
    (hsame : SameSession m.ram p) (now : UInt32) :
    handleFrame frame now m = .ok (beginResponse frame p m.ram .ok) (touched m now) := by
  have hwp : wp (beginStatus p now) (fun status m' => status = .ok ∧ m' = touched m now)
      (fun _ => False) m := by
    refine wp_mono (beginStatus_wp p now m) (fun status m' hend => ?_) fun _ hidle => ?_
    · cases hend with
      | refused _ hwhy => exact absurd ⟨hfields, Or.inr hsame⟩ hwhy
      | again => exact ⟨rfl, rfl⟩
      | opened _ hidle => exact absurd (hsame.1.symm.trans hidle) (by simp)
      | closed _ hidle => exact absurd (hsame.1.symm.trans hidle) (by simp)
    · exact absurd (hsame.1.symm.trans hidle) (by simp)
  obtain ⟨status, m', hrun, rfl, rfl⟩ := wp_returned hwp fun _ => id
  rw [handleFrame_accepted hacc]
  change handleBegin frame p now m = _
  simp only [handleBegin, bind, EStateM.bind, hrun]
  rfl

/-- The last chunk. -/
theorem write_again (h : Inv m) (hacc : Accepted frame p 0x02) (hdup : Duplicate m.ram p)
    (now : UInt32) :
    handleFrame frame now m = .ok (writeResponse frame p m.ram .ok) (touched m now) := by
  have hwp : wp (writeStatus p now) (fun status m' => status = .ok ∧ m' = touched m now)
      (fun _ => False) m := by
    refine wp_mono (writeStatus_wp h p now) (fun status m' hend => ?_) fun _ hnext => ?_
    · cases hend with
      | refused _ hwhy => exact absurd (Or.inl hdup) hwhy
      | again => exact ⟨rfl, rfl⟩
      | stored hnext => exact absurd hnext hdup.not_next
      | wornOut hnext => exact absurd hnext hdup.not_next
      | closed hnext => exact absurd hnext hdup.not_next
    · exact hdup.not_next hnext
  obtain ⟨status, m', hrun, rfl, rfl⟩ := wp_returned hwp fun _ => id
  rw [handleFrame_accepted hacc]
  change handleWrite frame p now m = _
  simp only [handleWrite, bind, EStateM.bind, hrun]
  rfl

/-- A COMMIT of the session that was committed last. -/
theorem commit_again (h : Inv m) (hacc : Accepted frame p 0x03) (hobj : read16 p 2 = 1)
    (hidle : m.ram.transfer.active = false) (hlast : LastCommitMatches m.ram (read16 p 4))
    (now : UInt32) : handleFrame frame now m = .ok (commitResponse frame p m.ram .ok) m := by
  have hwp : wp (commitStatus p) (fun status m' => status = .ok ∧ m' = m) (fun _ => False) m := by
    refine wp_mono (commitStatus_wp h p) (fun status m' hend => ?_) fun _ hact => ?_
    · cases hend with
      | refused _ _ hwhy => exact absurd hlast (hwhy hobj hidle)
      | again => exact ⟨rfl, rfl⟩
      | committed _ hact => exact absurd (hact.symm.trans hidle) (by simp)
      | closed hact => exact absurd (hact.symm.trans hidle) (by simp)
    · exact absurd (hact.symm.trans hidle) (by simp)
  obtain ⟨status, m', hrun, rfl, rfl⟩ := wp_returned hwp fun _ => id
  rw [handleFrame_accepted hacc]
  change handleCommit frame p m' = _
  simp only [handleCommit, bind, EStateM.bind, hrun]
  rfl

/-- An ABORT with no session open. -/
theorem abort_again (hacc : Accepted frame p 0x04) (hobj : read16 p 2 = 1)
    (hidle : m.ram.transfer.active = false) (now : UInt32) :
    handleFrame frame now m = .ok (abortResponse frame p m.ram .ok) m := by
  have hwp : wp (abortStatus p) (fun status m' => status = .ok ∧ m' = m) (fun _ => False) m := by
    refine wp_mono (abortStatus_wp p m _) (fun status m' hend => ?_) fun _ hc => hc
    cases hend with
    | refused _ hwhy => exact absurd ⟨hobj, hidle⟩ hwhy
    | idle => exact ⟨rfl, rfl⟩
    | closed _ hact => exact absurd (hact.symm.trans hidle) (by simp)
  obtain ⟨status, m', hrun, rfl, rfl⟩ := wp_returned hwp fun _ => id
  rw [handleFrame_accepted hacc]
  change handleAbort frame p m' = _
  simp only [handleAbort, bind, EStateM.bind, hrun]
  rfl

/-- A STATUS of any session. -/
theorem status_again (hacc : Accepted frame p 0x05) (hobj : read16 p 2 = 1)
    (hid : read16 p 4 = 0) (now : UInt32) :
    handleFrame frame now m = .ok
      (respond frame m.ram 0x05 .ok (read16 p 2) (read16 p 4)
        (if m.ram.transfer.active = true then configBytes else 0)
        (if m.ram.transfer.active = true then m.ram.transfer.nextOffset else 0)
        (committedData m.ram.activeRecord)) m := by
  obtain ⟨response, m', hrun, hend⟩ :=
    wp_returned (handleStatus_wp frame p now m fun _ => False) fun _ => id
  rw [handleFrame_accepted hacc]
  change handleStatus frame p now m = _
  rw [hrun]
  cases hend with
  | refused _ hwhy => exact absurd ⟨hobj, Or.inl hid⟩ hwhy
  | any => rfl
  | session _ hne => exact absurd hid hne

/-- A STATUS of the session that is open. -/
theorem session_again (hacc : Accepted frame p 0x05) (hobj : read16 p 2 = 1)
    (hid : read16 p 4 ≠ 0) (hact : m.ram.transfer.active = true)
    (hmatch : m.ram.transfer.transferId = read16 p 4) (now : UInt32) :
    handleFrame frame now m = .ok
      (respond frame m.ram 0x05 .ok (read16 p 2) (read16 p 4) configBytes
        m.ram.transfer.nextOffset (committedData m.ram.activeRecord)) (touched m now) := by
  obtain ⟨response, m', hrun, hend⟩ :=
    wp_returned (handleStatus_wp frame p now m fun _ => False) fun _ => id
  rw [handleFrame_accepted hacc]
  change handleStatus frame p now m = _
  rw [hrun]
  cases hend with
  | refused _ hwhy => exact absurd ⟨hobj, Or.inr ⟨hact, hmatch⟩⟩ hwhy
  | any _ hzero => exact absurd hzero hid
  | session => rfl

/-- A read of the active record. -/
theorem read_again (hacc : Accepted frame p 0x06) {record : Record} {data : List UInt8}
    (hrec : m.ram.activeRecord = some record) (hfields : ReadFields p record)
    (hread : readActive m.flash (some record) (read16 p 8) (p.getD 10 0).toNat = some data)
    (now : UInt32) :
    handleFrame frame now m = .ok
      (respond frame m.ram 0x06 .ok (read16 p 2) 0 configBytes
        (read16 p 8 + (p.getD 10 0).toNat) data) m := by
  obtain ⟨response, m', hrun, hend⟩ :=
    wp_returned (handleRead_wp frame p m fun _ => False) fun _ => id
  rw [handleFrame_accepted hacc]
  change handleRead frame p m = _
  rw [hrun]
  cases hend with
  | refused _ hwhy => exact absurd hread (hwhy record data hrec hfields)
  | read hrec' _ hread' =>
    obtain rfl := Option.some.inj (hrec.symm.trans hrec')
    obtain rfl := Option.some.inj (hread.symm.trans hread')
    rfl

end Again

/-! ## What an OK leaves behind -/

section Left

variable {m m' : Machine Ram} {frame : FrameView} {p : List UInt8} {now : UInt32}

/-- The persistence layer leaves the session when a candidate is begun. -/
theorem transfer_of_beginStep {crc : UInt32} (h : BeginStep crc m (some .ok) m') :
    m'.ram.transfer = m.ram.transfer := by
  cases h with
  | comparing => rfl
  | starting _ _ hstart =>
    cases hstart with
    | started _ _ hram => rw [hram]; rfl

/-- The persistence layer leaves the session when bytes are written. -/
theorem transfer_of_putStep {data : List UInt8} (h : PutStep data m (some .ok) m') :
    m'.ram.transfer = m.ram.transfer := by
  cases h with
  | compared => rfl
  | started _ _ _ _ _ _ _ hram => rw [hram]
  | stored _ _ _ hwrite =>
    cases hwrite with
    | written _ hram => rw [hram]

theorem transfer_of_commitStep {result : Result} (hok : result = .ok ∨ result = .unchanged)
    (h : CommitStep m (some result) m') : m'.ram.transfer = m.ram.transfer := by
  cases h with
  | refused => simp at hok
  | unchanged => rfl
  | headerFailed => simp at hok
  | markerFailed => simp at hok
  | committed => rfl
  | invalid _ _ _ hvalid => exact absurd hok (validateRecord_error hvalid)
  | markedInvalid _ _ _ _ _ hvalid => exact absurd hok (validateRecord_error hvalid)

/-- The header declares the CRC that it was written with. -/
theorem crc_of_header {f : Mem} {slot generation : ℕ} {crc : UInt32}
    (h : f.bytes slot 24 = metadataBytes generation crc) :
    UInt32.ofNat (word f (slot + 0x10)) = crc := by
  have hget : ∀ i < 24, f (slot + i) = (metadataBytes generation crc).getD i 0 := by
    intro i hi
    rw [← h, Mem.getD_bytes hi]
  have h16 : f (slot + 16) = UInt8.ofNat (crc.toNat % 65536) := hget 16 (by decide)
  have h17 : f (slot + 17) = UInt8.ofNat (crc.toNat % 65536 / 256) := hget 17 (by decide)
  have h18 : f (slot + 18) = UInt8.ofNat (crc.toNat / 65536) := hget 18 (by decide)
  have h19 : f (slot + 19) = UInt8.ofNat (crc.toNat / 65536 / 256) := hget 19 (by decide)
  have hlt := crc.toNat_lt
  have hword : word f (slot + 0x10) = crc.toNat := by
    simp only [word, Mem.half, Nat.add_assoc, Nat.reduceAdd, h16, h17, h18, h19, le16,
      UInt8.toNat_ofNat']
    omega
  rw [hword, UInt32.ofNat_toNat]

/-- A record that validates has the CRC that its header declares. -/
theorem crc_of_validate {f : Mem} {slot marker : ℕ} {record : Record}
    (h : validateRecord f slot marker = .ok record) :
    record.payloadCrc32 = UInt32.ofNat (word f (slot + 0x10)) := by
  rw [(validated_of_ok h).record]

/-- **The record that a session commits** is the one it declared: its CRC is the
CRC of the session. -/
theorem committed_crc (h : Inv m) (hact : m.ram.transfer.active = true) {result : Result}
    (hok : result = .ok ∨ result = .unchanged) (hstep : CommitStep m (some result) m') :
    m'.ram.activeRecord.map Record.payloadCrc32 = some m.ram.transfer.payloadCrc32 := by
  have hcand : m.ram.candidate.active = true := h.active ▸ hact
  rw [h.crc hact]
  cases hstep with
  | refused => simp at hok
  | unchanged _ _ hcmp => exact h.compared hcand hcmp
  | headerFailed => simp at hok
  | markerFailed => simp at hok
  | invalid _ _ _ hvalid => exact absurd hok (validateRecord_error hvalid)
  | markedInvalid _ _ _ _ _ hvalid => exact absurd hok (validateRecord_error hvalid)
  | @committed m₁ m₂ record record' hcomplete hran _ hran' _ hvalid =>
    obtain ⟨-, -, hheader⟩ := h.changed hcand hcomplete.changed
    -- the header is where it was: the commit stores behind it
    have hkept : m₂.flash.bytes m.ram.candidate.slotAddress 24 =
        m.flash.bytes m.ram.candidate.slotAddress 24 := by
      refine Mem.bytes_congr fun i hi => ?_
      rw [(hran.trans hran').flash, applyAll_of_not_covers]
      intro o ho hx
      rcases List.mem_append.mp ho with ho | ho
      · rcases List.mem_append.mp ho with ho | ho
        · obtain ⟨rfl, -⟩ := mem_halfOps.mp ho
          simp only [Op.Covers, offsetHeaderCrc] at hx
          omega
        · obtain ⟨rfl, -⟩ := mem_halfOps.mp ho
          simp only [Op.Covers, offsetHeaderCrc] at hx
          omega
      · obtain ⟨rfl, -⟩ := mem_halfOps.mp ho
        simp only [Op.Covers, offsetMarker] at hx
        omega
    have hcrc := crc_of_header (hkept.trans hheader)
    change some record.payloadCrc32 = _
    rw [crc_of_validate hvalid, hcrc]

/-- **A request that was answered OK is answered the same again,** by what it
left behind, opcode by opcode. -/
theorem answered_again {response : Response} (h : Inv m) (hend : FrameEnd frame now m response m')
    (hok : response.status = .ok) (now' : UInt32) (tape : ℕ → Option Outcome) :
    ∃ last, handleFrame frame now' { m' with tape := tape } =
      .ok response (touched { m' with tape := tape } last) := by
  have hinv : Inv { m' with tape := tape } :=
    (inv_frameEnd h hend).congr rfl rfl rfl ⟨rfl, rfl, rfl, rfl⟩
  cases hend with
  | refused href => exact absurd hok href.1
  | begin hacc hend =>
    have hstatus : _ = Status.ok := hok
    cases hend with
    | refused href => exact absurd hstatus href.1
    | again hfields hsame =>
      exact ⟨now', begin_again (m := { touched m now with tape := tape }) hacc hfields hsame now'⟩
    | @opened m' hfields hidle hstep =>
      have hsame : ∀ {p : List UInt8}, m'.ram.transfer = (opened m.ram p now).transfer →
          SameSession m'.ram p := by
        intro p htransfer
        rw [SameSession, htransfer]
        exact ⟨rfl, rfl, rfl⟩
      exact ⟨now', begin_again (m := { m' with tape := tape }) hacc hfields
        (hsame (transfer_of_beginStep hstep)) now'⟩
    | closed _ _ hne hne' =>
      rcases mapPersistenceResult_eq_ok.mp hstatus with h | h
      · exact absurd h hne
      · exact absurd h hne'
  | write hacc hend =>
    have hstatus : _ = Status.ok := hok
    cases hend with
    | refused href => exact absurd hstatus href.1
    | again hdup =>
      exact ⟨now', write_again hinv hacc ⟨hdup.1, hdup.2, hdup.3, hdup.4, hdup.5⟩ now'⟩
    | stored hnext hput =>
      have htransfer := transfer_of_putStep hput
      refine ⟨now', write_again hinv hacc ⟨hnext.1, ?_, ?_, rfl, rfl⟩ now'⟩
      · exact (congrArg TransferState.active htransfer).trans hnext.active
      · exact (congrArg TransferState.transferId htransfer).trans hnext.transferId
    | wornOut => exact nomatch hstatus
    | closed => exact nomatch hstatus
  | commit hacc hend =>
    have hstatus : _ = Status.ok := hok
    cases hend with
    | refused hne => exact absurd hstatus hne
    | again hobj hidle hlast =>
      exact ⟨m.ram.transfer.lastActivityMs, commit_again hinv hacc hobj hidle hlast now'⟩
    | @committed _ m' hobj hact hid _ hres hstep =>
      have htransfer := transfer_of_commitStep hres hstep
      refine ⟨m'.ram.transfer.lastActivityMs, commit_again hinv hacc hobj rfl ⟨?_, ?_, ?_⟩ now'⟩
      · exact (congrArg TransferState.transferId htransfer).trans hid
      · have hne := h.identified hact
        rw [← htransfer] at hne
        exact hne
      · have hcrc := committed_crc h hact hres hstep
        rw [← htransfer] at hcrc
        exact hcrc
    | closed _ hne hne' =>
      rcases mapPersistenceResult_eq_ok.mp hstatus with h | h
      · exact absurd h hne
      · exact absurd h hne'
  | abort hacc hend =>
    have hstatus : _ = Status.ok := hok
    cases hend with
    | refused href => exact absurd hstatus href.1
    | idle hobj hidle =>
      exact ⟨m.ram.transfer.lastActivityMs,
        abort_again (m := { m with tape := tape }) hacc hobj hidle now'⟩
    | closed hobj =>
      exact ⟨m.ram.transfer.lastActivityMs,
        abort_again (m := { cleared m with tape := tape }) hacc hobj rfl now'⟩
  | status hacc hend =>
    cases hend with
    | refused href => exact absurd hok href.1
    | any hobj hid =>
      exact ⟨m.ram.transfer.lastActivityMs,
        status_again (m := { m with tape := tape }) hacc hobj hid now'⟩
    | session hobj hid hact hmatch =>
      exact ⟨now',
        session_again (m := { touched m now with tape := tape }) hacc hobj hid hact hmatch now'⟩
  | read hacc hend =>
    cases hend with
    | refused href => exact absurd hok href.1
    | read hrec hfields hread =>
      exact ⟨m.ram.transfer.lastActivityMs,
        read_again (m := { m with tape := tape }) hacc hrec hfields hread now'⟩

end Left

/-! ## The session that was closed last -/

/-- How the last session was closed, as a host that keeps account knows. -/
inductive Closed
  /-- None has been, since the device or the session layer was reset. -/
  | none
  /-- It was aborted, it failed, or it ran out of time. -/
  | dropped
  /-- A COMMIT of it was answered OK. -/
  | committed (transferId : ℕ) (crc : UInt32)
  deriving DecidableEq

/-- The response to a BEGIN whose session could not be kept open. -/
def beginFailed : Option Response → Bool
  | some r => decide (r.opcode = 0x01) &&
      (decide (r.status = .storageError) || decide (r.status = .wearBudgetExhausted))
  | none => false

/-- The response to a COMMIT that is OK. -/
def commitDone : Option Response → Bool
  | some r => decide (r.opcode = 0x03) && decide (r.status = .ok)
  | none => false

/-- The account after an event that took the RAM from `before` to `after`. -/
def closedBy (before after : Ram) (response : Option Response) (last : Closed) : Closed :=
  if before.transfer.active = true ∧ after.transfer.active = false then
    if commitDone response = true then
      .committed before.transfer.transferId before.transfer.payloadCrc32
    else .dropped
  else if beginFailed response = true then .dropped
  else last

/-- The reachable states, with the account of the last session. -/
inductive History : Machine Ram → Closed → Prop
  | boot (flash : Mem) (log : List (Entry Ram)) (tape : ℕ → Option Outcome) :
      History ⟨flash, boot flash, log, tape⟩ .none
  | step {m m' : Machine Ram} {last : Closed} {ev : Event} {r : Option Response}
      (tape : ℕ → Option Outcome) : History m last → ev ≠ .resetSession →
      serve ev { m with tape := tape } = .ok r m' → History m' (closedBy m.ram m'.ram r last)
  | resetSession {m m' : Machine Ram} {last : Closed} {r : Option Response}
      (tape : ℕ → Option Outcome) : History m last →
      serve .resetSession { m with tape := tape } = .ok r m' → History m' .none
  | arm {m : Machine Ram} {last : Closed} (control : UInt32) : History m last →
      History { m with ram := { m.ram with faultControl := control } } last

/-- A history goes on through an event that ends. -/
theorem History.done {m : Machine Ram} {last last' : Closed} (h : History m last) (ev : Event)
    (hne : ev ≠ .resetSession) (hends : (ev.done m).1.isSome = true)
    (hlast : closedBy m.ram (ev.done m).2.ram ((ev.done m).1.get hends) last = last') :
    History (ev.done m).2 last' :=
  hlast ▸ .step goodTape h hne (run_of_outcome (Option.eq_some_of_isSome hends))

/-- Every state with a history is reachable. -/
theorem History.reachable {m : Machine Ram} {last : Closed} (h : History m last) :
    Reachable m := by
  induction h with
  | boot flash log tape => exact .boot flash log tape
  | step tape _ _ hserve ih => exact .step tape ih hserve
  | resetSession tape _ hserve ih => exact .step tape ih hserve
  | arm control _ ih => exact .arm control ih

/-- Every reachable state has an account. -/
theorem Reachable.history {m : Machine Ram} (h : Reachable m) : ∃ last, History m last := by
  induction h with
  | boot flash log tape => exact ⟨_, .boot flash log tape⟩
  | arm control _ ih =>
    obtain ⟨last, h⟩ := ih
    exact ⟨last, .arm control h⟩
  | @step m m' ev r tape _ hserve ih =>
    obtain ⟨last, h⟩ := ih
    cases ev with
    | resetSession => exact ⟨_, .resetSession tape h hserve⟩
    | frame frame now => exact ⟨_, .step tape h (by simp) hserve⟩
    | poll now => exact ⟨_, .step tape h (by simp) hserve⟩

/-- What the session keeps of the one that was closed. -/
def Keeps (t : TransferState) : Closed → Prop
  | .committed transferId crc => t.transferId = transferId ∧ t.payloadCrc32 = crc ∧ transferId ≠ 0
  | _ => t.transferId = 0

/-- With no session open, the fields of the last one are its account. -/
def Remembers (r : Ram) (last : Closed) : Prop := r.transfer.active = false → Keeps r.transfer last

section Remembers

variable {m m' : Machine Ram} {frame : FrameView} {p : List UInt8} {now : UInt32} {last : Closed}
  {before after : Ram} {response : Option Response}

/-- Nothing was closed. -/
theorem Remembers.kept (h : Remembers before last)
    (hsame : after.transfer = before.transfer) (hbegin : beginFailed response = false) :
    Remembers after (closedBy before after response last) := by
  have hclose : ¬ (before.transfer.active = true ∧ after.transfer.active = false) := by
    rintro ⟨hact, hidle⟩
    rw [hsame, hact] at hidle
    exact absurd hidle (by simp)
  rw [closedBy, if_neg hclose, if_neg (by simp [hbegin]), Remembers, hsame]
  exact h

/-- A session is open. -/
theorem remembers_open (h : after.transfer.active = true) (last : Closed) :
    Remembers after last := fun hidle => absurd (h.symm.trans hidle) (by simp)

/-- The session was dropped. -/
theorem remembers_dropped (hact : before.transfer.active = true ∨ beginFailed response = true)
    (hafter : after.transfer.active = false ∧ after.transfer.transferId = 0)
    (hcommit : commitDone response = false) :
    Remembers after (closedBy before after response last) := by
  have hdropped : closedBy before after response last = .dropped := by
    unfold closedBy
    split
    · rw [if_neg (by simp [hcommit])]
    next hopen =>
      rcases hact with hact | hbegin
      · exact absurd ⟨hact, hafter.1⟩ hopen
      · rw [if_pos hbegin]
  rw [hdropped]
  exact fun _ => hafter.2

theorem beginFailed_of_refusal {r : Response} (h : Refusal r.status) :
    beginFailed (some r) = false := by
  simp [beginFailed, h.2.2.1, h.2.2.2]

/-- What a BEGIN can fail with. -/
theorem beginStep_result {crc : UInt32} {result : Result} (h : BeginStep crc m (some result) m')
    (hidle : m.ram.candidate.active = false) :
    result = .ok ∨ result = .storageError ∨ result = .wearBudgetExhausted := by
  cases h with
  | refused hact => exact absurd (hidle.symm.trans hact) (by simp)
  | comparing => exact Or.inl rfl
  | starting _ _ hstart =>
    cases hstart with
    | wornOut => exact Or.inr (Or.inr rfl)
    | started => exact Or.inl rfl
    | failed => exact Or.inr (Or.inl rfl)

/-- **A frame keeps the account** of the session that was closed last. -/
theorem remembers_frame {response : Response} (h : Inv m) (hlast : Remembers m.ram last)
    (hend : FrameEnd frame now m response m') :
    Remembers m'.ram (closedBy m.ram m'.ram (some response) last) := by
  cases hend with
  | refused href => exact hlast.kept rfl (beginFailed_of_refusal href)
  | @begin _ status _ _ hend =>
    cases hend with
    | refused href => exact hlast.kept rfl (beginFailed_of_refusal href)
    | again _ hsame => exact remembers_open hsame.1 _
    | opened _ _ hstep =>
      refine remembers_open ?_ _
      rw [transfer_of_beginStep hstep]
      rfl
    | closed _ hidle hne _ hstep =>
      have hcand : m.ram.candidate.active = false := h.active ▸ hidle
      refine remembers_dropped (Or.inr ?_) ⟨rfl, rfl⟩ rfl
      rcases beginStep_result hstep hcand with hr | rfl | rfl
      · exact absurd hr hne
      · rfl
      · rfl
  | write _ hend =>
    cases hend with
    | refused href => exact hlast.kept rfl rfl
    | again hdup => exact remembers_open hdup.active _
    | stored hnext hput =>
      refine remembers_open ?_ _
      exact (congrArg TransferState.active (transfer_of_putStep hput)).trans hnext.active
    | wornOut hnext hput =>
      cases hput with
      | wornOut => exact remembers_open hnext.active _
      | stored _ _ _ hwrite => exact nomatch hwrite
    | closed hnext => exact remembers_dropped (Or.inl hnext.active) ⟨rfl, rfl⟩ rfl
  | @commit p _ _ _ hend =>
    cases hend with
    | refused => exact hlast.kept rfl rfl
    | again => exact hlast.kept rfl rfl
    | @committed _ m₁ _ hact _ _ hres hstep =>
      have htransfer := transfer_of_commitStep hres hstep
      have hclosed : closedBy m.ram (finished m₁).ram
          (some (commitResponse frame p (finished m₁).ram .ok)) last =
          .committed m.ram.transfer.transferId m.ram.transfer.payloadCrc32 := by
        rw [closedBy, if_pos ⟨hact, rfl⟩]
        rfl
      rw [hclosed]
      intro _
      refine ⟨?_, ?_, h.identified hact⟩
      · change m₁.ram.transfer.transferId = _
        rw [htransfer]
      · change m₁.ram.transfer.payloadCrc32 = _
        rw [htransfer]
    | closed hact hne hne' =>
      refine remembers_dropped (Or.inl hact) ⟨rfl, rfl⟩ ?_
      have hstatus := mt mapPersistenceResult_eq_ok.mp (not_or.mpr ⟨hne, hne'⟩)
      simp [commitDone, commitResponse, respond, hstatus]
  | abort _ hend =>
    cases hend with
    | refused => exact hlast.kept rfl rfl
    | idle => exact hlast.kept rfl rfl
    | closed _ hact => exact remembers_dropped (Or.inl hact) ⟨rfl, rfl⟩ rfl
  | status _ hend =>
    cases hend with
    | refused href => exact hlast.kept rfl (beginFailed_of_refusal href)
    | any => exact hlast.kept rfl rfl
    | session _ _ hact => exact remembers_open hact _
  | read _ hend =>
    cases hend with
    | refused href => exact hlast.kept rfl (beginFailed_of_refusal href)
    | read => exact hlast.kept rfl rfl

/-- **The fields of the session are the account,** in every run, until the
session layer is reset. -/
theorem History.remembers (h : History m last) : Remembers m.ram last := by
  induction h with
  | boot flash log tape => exact fun _ => rfl
  | arm control _ ih => exact ih
  | @resetSession m m' _ r tape _ hserve =>
    have hwp : wp (serve .resetSession) (fun _ m' => m'.ram.transfer.transferId = 0)
        (fun _ => True) { m with tape := tape } := by
      simp only [serve, wp_bind]
      exact wp_clearSession rfl
    exact fun _ => wp_ok hwp hserve
  | @step m m' last ev r tape hprev hne hserve ih =>
    have hinv : Inv { m with tape := tape } :=
      hprev.reachable.inv.congr rfl rfl rfl ⟨rfl, rfl, rfl, rfl⟩
    suffices hwp : wp (serve ev) (fun r m' => Remembers m'.ram (closedBy m.ram m'.ram r last))
        (fun _ => True) { m with tape := tape } from wp_ok hwp hserve
    cases ev with
    | frame frame now =>
      simp only [serve, wp_bind]
      exact wp_mono (handleFrame_wp hinv frame now)
        (fun _ _ hend => remembers_frame (m := { m with tape := tape }) hinv ih hend)
        fun _ _ => trivial
    | poll now =>
      simp only [serve, wp_bind]
      exact wp_poll now (ih.kept rfl rfl) fun hact =>
        remembers_dropped (Or.inl hact) ⟨rfl, rfl⟩ rfl
    | resetSession => exact absurd rfl hne

end Remembers

/-! ## The statement -/

/-- **A request answered OK, delivered again,** is answered the same. No
flash operation is issued, and only the time of the last activity moves. -/
def Idempotent (m : Machine Ram) : Prop :=
  ∀ frame now tape response m',
    handleFrame frame now { m with tape := tape } = .ok response m' → response.status = .ok →
    ∀ now' tape', ∃ last, handleFrame frame now' { m' with tape := tape' } =
      .ok response (touched { m' with tape := tape' } last)

/-- **A COMMIT that finds no session** is answered OK exactly where the last
session was committed under its id, and its record is active. -/
def CommitAnswered (m : Machine Ram) (last : Closed) : Prop :=
  m.ram.transfer.active = false → ∀ frame p now tape, Accepted frame p 0x03 →
    ∃ response m', handleFrame frame now { m with tape := tape } = .ok response m' ∧
      (response.status = .ok ↔ read16 p 2 = 1 ∧
        ∃ crc, last = .committed (read16 p 4) crc ∧
          m.ram.activeRecord.map Record.payloadCrc32 = some crc)

/-- The session's fields match a COMMIT exactly where the account does. -/
theorem lastCommitMatches_iff {r : Ram} {last : Closed} (h : Remembers r last)
    (hidle : r.transfer.active = false) (transferId : ℕ) :
    LastCommitMatches r transferId ↔
      ∃ crc, last = .committed transferId crc ∧
        r.activeRecord.map Record.payloadCrc32 = some crc := by
  have hkeeps := h hidle
  cases last with
  | none =>
    have hzero : r.transfer.transferId = 0 := hkeeps
    exact iff_of_false (fun hmatch => hmatch.2.1 hzero) fun ⟨_, hlast, _⟩ => nomatch hlast
  | dropped =>
    have hzero : r.transfer.transferId = 0 := hkeeps
    exact iff_of_false (fun hmatch => hmatch.2.1 hzero) fun ⟨_, hlast, _⟩ => nomatch hlast
  | committed id crc =>
    obtain ⟨hid, hcrc, hne⟩ := hkeeps
    constructor
    · rintro ⟨hmatch, -, hrec⟩
      refine ⟨crc, ?_, hcrc ▸ hrec⟩
      rw [← hid, hmatch]
    · rintro ⟨crc', hlast, hrec⟩
      obtain ⟨rfl, rfl⟩ := Closed.committed.inj hlast
      exact ⟨hid, by rw [hid]; exact hne, by rw [hrec, hcrc]⟩

theorem commitAnswered {m : Machine Ram} {last : Closed} (h : Inv m)
    (hlast : Remembers m.ram last) : CommitAnswered m last := by
  intro hidle frame p now tape hacc
  have hinv : Inv { m with tape := tape } := h.congr rfl rfl rfl ⟨rfl, rfl, rfl, rfl⟩
  have hmatches := lastCommitMatches_iff hlast hidle (read16 p 4)
  rw [← hmatches]
  have hwp : wp (handleFrame frame now) (fun response _ => response.status = .ok ↔
      read16 p 2 = 1 ∧ LastCommitMatches m.ram (read16 p 4)) (fun _ => False)
      { m with tape := tape } := by
    rw [handleFrame_accepted hacc]
    change wp (handleCommit frame p) _ _ _
    simp only [handleCommit, wp_bind]
    refine wp_mono (commitStatus_wp hinv p) (fun status m' hend => ?_) fun _ hact => ?_
    · change status = .ok ↔ _
      cases hend with
      | refused hne _ hwhy =>
        exact iff_of_false hne fun hboth => hwhy hboth.1 hidle hboth.2
      | again hobj _ hmatch => exact iff_of_true rfl ⟨hobj, hmatch⟩
      | committed _ hact => exact absurd (hact.symm.trans hidle) (by simp)
      | closed hact => exact absurd (hact.symm.trans hidle) (by simp)
    · exact absurd (hact.symm.trans hidle) (by simp)
  exact wp_returned hwp fun _ => id

/-- **Retransmission is idempotent,** in every run: a request that was
answered OK is answered the same again, without a flash operation and without
a trace but the time; and a COMMIT that finds no session is answered OK
exactly where it is the last one's that was committed since the session layer
was reset, and its record is still active. -/
theorem retransmission {m : Machine Ram} {last : Closed} (h : History m last) :
    Idempotent m ∧ CommitAnswered m last := by
  have hinv := h.reachable.inv
  refine ⟨?_, commitAnswered hinv h.remembers⟩
  intro frame now tape response m' hrun hok now' tape'
  have hinv' : Inv { m with tape := tape } := hinv.congr rfl rfl rfl ⟨rfl, rfl, rfl, rfl⟩
  have hend := wp_ok (handleFrame_wp hinv' frame now) hrun
  exact answered_again hinv' hend hok now' tape'

/-- The COMMIT of the session that `writtenSession` has open. -/
def commitEvent : Event := .frame (request [1, 3, 1, 0, 5, 0]) 0

/-- The session, committed. -/
def committedSession : Machine Ram := (commitEvent.done writtenSession).2

set_option maxRecDepth 20000 in
/-- There the COMMIT of transfer 5, delivered again, is answered OK. -/
theorem retransmission_committed :
    committedSession.ram.transfer.active = false ∧
      committedSession.ram.activeRecord = some ⟨slotA, 1, 0x235C4EF5⟩ ∧
      Idempotent committedSession ∧ CommitAnswered committedSession (.committed 5 0x235C4EF5) := by
  have hbegun : History (beginEvent.done erasedDevice).2 .none :=
    (History.boot _ _ _).done beginEvent (by simp [beginEvent]) (by decide +kernel)
      (by decide +kernel)
  have hwritten : History writtenSession .none :=
    hbegun.done writeEvent (by simp [writeEvent]) (by decide +kernel) (by decide +kernel)
  have hcommitted : History committedSession (.committed 5 0x235C4EF5) :=
    hwritten.done commitEvent (by simp [commitEvent]) (by decide +kernel) (by decide +kernel)
  exact ⟨by decide +kernel, by decide +kernel, retransmission hcommitted⟩

/-! ## What a reset of the session forgets -/

/-- The header and the payload of a record, as they are stored. -/
def recordBytes : List UInt8 :=
  [0x44, 0x45, 0x55, 0x53, 1, 1, 1, 0, 0x40, 0, 8, 0, 1, 0, 0, 0, 0xF5, 0x4E, 0x5C, 0x23, 0, 0, 0, 0] ++
    List.replicate 32 0xFF ++ [0x0B, 0x9F, 0x12, 0x1B, 0xFF, 0xFF, 0x5A, 0xA5] ++
    [1, 2, 10, 120, 22, 0, 0, 0]

/-- A device with that record in its first slot. -/
def recordedDevice : Machine Ram :=
  let flash : Mem := fun a => if slotA ≤ a then recordBytes.getD (a - slotA) 0xFF else 0xFF
  ⟨flash, boot flash, [], fun _ => some Outcome.good⟩

/-- The events one after the other. -/
def serveAll : List Event → Prog Ram (List (Option Response))
  | [] => pure []
  | ev :: evs => do
    let response ← serve ev
    let responses ← serveAll evs
    pure (response :: responses)

/-- A session that sends the record that is active already, its COMMIT, a
reset of the session layer, and the COMMIT again. -/
def forgottenCommit : List Event :=
  [beginEvent, writeEvent, commitEvent, .resetSession, commitEvent]

/-- **A reset of the session layer forgets the last commit:** with no
session open, the COMMIT that was answered OK is now refused, although no
session was closed since and the record is the active one. -/
theorem commit_forgotten_by_reset :
    Reachable recordedDevice ∧ ∃ responses m',
      serveAll forgottenCommit recordedDevice = .ok responses m' ∧
      responses.map (Option.map Response.status) =
        [some .ok, some .ok, some .ok, none, some .badTransferId] ∧
      (responses.getD 2 none).map Response.session = some .none ∧
      m'.ram.activeRecord.map Record.payloadCrc32 = some 0x235C4EF5 := by
  refine ⟨.boot _ _ _, ?_⟩
  have hrun : (match serveAll forgottenCommit recordedDevice with
      | .ok responses m' => decide (responses.map (Option.map Response.status) =
          [some .ok, some .ok, some .ok, none, some .badTransferId] ∧
        (responses.getD 2 none).map Response.session = some .none ∧
        m'.ram.activeRecord.map Record.payloadCrc32 = some 0x235C4EF5)
      | .error _ _ => false) = true := by decide +kernel
  split at hrun
  next responses m' heq => exact ⟨responses, m', heq, of_decide_eq_true hrun⟩
  · exact absurd hrun (by simp)

end DeusOs.Asset
