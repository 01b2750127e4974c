import DeusOs.Asset.Session

/-!
# One frame, and the runs

What a frame does, by its opcode, and with it `session_in_step`: in every
reachable state the session and the candidate are in step, so that no call
the session makes is refused for its state.
-/

namespace DeusOs.Asset

open Nor
open LittleEndian (read16 read32)

/-! ## Responses -/

/-- The response that `asset_send_response` builds in this RAM. -/
def respond (frame : FrameView) (r : Ram) (opcode : UInt8) (status : Status)
    (objectType transferId totalLength nextOffset : ℕ) (data : List UInt8) : Response :=
  { requestId := frame.requestId, opcode := opcode, status := status,
    session := sessionState r.transfer, objectType := objectType, transferId := transferId,
    committedGeneration := (r.activeRecord.map Record.generation).getD 0,
    totalLength := totalLength, nextOffset := nextOffset, data := data }

section Responses

variable {frame : FrameView} {m : Machine Ram} {C : Machine Ram → Prop}
  {Q : Response → Machine Ram → Prop}

@[simp] theorem wp_sendResponse {opcode : UInt8} {status : Status}
    {objectType transferId totalLength nextOffset : ℕ} {data : List UInt8} :
    wp (sendResponse frame opcode status objectType transferId totalLength nextOffset data) Q C m ↔
      Q (respond frame m.ram opcode status objectType transferId totalLength nextOffset data) m :=
  Iff.rfl

@[simp] theorem wp_sendSimple {opcode : UInt8} {status : Status}
    {transferId totalLength nextOffset : ℕ} :
    wp (sendSimple frame opcode status transferId totalLength nextOffset) Q C m ↔
      Q (respond frame m.ram opcode status 1 transferId totalLength nextOffset []) m :=
  Iff.rfl

end Responses

/-! ## Frames -/

/-- The frame is a request of this opcode, with the flags and the length
that it asks for. -/
structure Accepted (frame : FrameView) (p : List UInt8) (opcode : UInt8) : Prop where
  payload : frame.payload = some p
  header : ¬ (frame.version ≠ frameProtocolVersion ∨ frame.reserved ≠ 0 ∨ frame.requestId = 0 ∨
    frame.frameType ≠ assetTransferRequest ∨ p.length < 2 ∨ p.getD 0 0 ≠ 1)
  opcode_eq : p.getD 1 0 = opcode
  request : requestStatus frame.flags opcode p = .ok

/-- The handler of an opcode. -/
def handler (frame : FrameView) (p : List UInt8) (now : UInt32) (opcode : UInt8) :
    Prog Ram Response :=
  if opcode = 0x01 then handleBegin frame p now
  else if opcode = 0x02 then handleWrite frame p now
  else if opcode = 0x03 then handleCommit frame p
  else if opcode = 0x04 then handleAbort frame p
  else if opcode = 0x05 then handleStatus frame p now
  else if opcode = 0x06 then handleRead frame p
  else sendSimple frame opcode .badOpcode 0 0 0

/-- An accepted request goes to its handler. -/
theorem handleFrame_accepted {frame : FrameView} {p : List UInt8} {opcode : UInt8}
    (h : Accepted frame p opcode) (now : UInt32) :
    handleFrame frame now = handler frame p now opcode := by
  unfold handleFrame
  rw [h.payload]
  simp only
  rw [if_neg h.header, h.opcode_eq, if_neg fun hbad => hbad.2 h.request]
  rfl

theorem requestStatus_refusal {flags opcode : UInt8} {p : List UInt8}
    (h : requestStatus flags opcode p ≠ .ok) : Refusal (requestStatus flags opcode p) := by
  revert h
  unfold requestStatus
  split_ifs <;> simp [Refusal]

/-- A frame that reaches no handler is answered, and changes nothing. -/
theorem handleFrame_cases (frame : FrameView) (now : UInt32) :
    (∃ opcode status, Refusal status ∧
      handleFrame frame now = sendSimple frame opcode status 0 0 0) ∨
      ∃ p opcode, (1 ≤ opcode ∧ opcode ≤ 6) ∧ Accepted frame p opcode := by
  unfold handleFrame
  split
  · exact Or.inl ⟨0, .malformed, by decide, rfl⟩
  next p hp =>
  split
  · exact Or.inl ⟨_, .malformed, by decide, rfl⟩
  next hheader =>
  by_cases hknown : 1 ≤ p.getD 1 0 ∧ p.getD 1 0 ≤ 6
  · by_cases hok : requestStatus frame.flags (p.getD 1 0) p = .ok
    · exact Or.inr ⟨p, _, hknown, hp, hheader, rfl, hok⟩
    · refine Or.inl ⟨p.getD 1 0, _, requestStatus_refusal hok, ?_⟩
      simp only
      rw [if_pos ⟨hknown, hok⟩]
  · refine Or.inl ⟨p.getD 1 0, .badOpcode, by decide, ?_⟩
    obtain ⟨opcode, hop⟩ : ∃ opcode, opcode = p.getD 1 0 := ⟨_, rfl⟩
    simp only [← hop] at hknown ⊢
    have hne : ∀ k : UInt8, 1 ≤ k → k ≤ 6 → opcode ≠ k := fun k h1 h6 heq =>
      hknown (heq ▸ ⟨h1, h6⟩)
    rw [if_neg fun hbad => hknown hbad.1, if_neg (hne 1 (by decide) (by decide)),
      if_neg (hne 2 (by decide) (by decide)), if_neg (hne 3 (by decide) (by decide)),
      if_neg (hne 4 (by decide) (by decide)), if_neg (hne 5 (by decide) (by decide)),
      if_neg (hne 6 (by decide) (by decide))]

/-! ## The handlers -/

/-- The response to a BEGIN that came to `status`. -/
def beginResponse (frame : FrameView) (p : List UInt8) (r : Ram) (status : Status) : Response :=
  respond frame r 0x01 status 1 (read16 p 4) (if status = .ok then configBytes else 0)
    (if status = .ok then r.transfer.nextOffset else 0) []

/-- The response to a chunk. -/
def writeResponse (frame : FrameView) (p : List UInt8) (r : Ram) (status : Status) : Response :=
  respond frame r 0x02 status 1 (read16 p 4) (if r.transfer.active = true then configBytes else 0)
    (if r.transfer.active = true then r.transfer.nextOffset else 0) []

/-- The response to a COMMIT. -/
def commitResponse (frame : FrameView) (p : List UInt8) (r : Ram) (status : Status) : Response :=
  respond frame r 0x03 status 1 (read16 p 4) (if status = .ok then configBytes else 0)
    (if status = .ok then configBytes else 0) []

/-- The response to an ABORT. -/
def abortResponse (frame : FrameView) (p : List UInt8) (r : Ram) (status : Status) : Response :=
  respond frame r 0x04 status 1 (read16 p 4) 0 0 []

/-- How `asset_handle_abort` comes to its status. -/
inductive AbortEnd (p : List UInt8) (m : Machine Ram) : Status → Machine Ram → Prop
  | refused {status : Status} : Refusal status →
      ¬ (read16 p 2 = 1 ∧ m.ram.transfer.active = false) → AbortEnd p m status m
  | idle : read16 p 2 = 1 → m.ram.transfer.active = false → AbortEnd p m .ok m
  | closed : read16 p 2 = 1 → m.ram.transfer.active = true → AbortEnd p m .ok (cleared m)

/-- **The status of an ABORT.** The candidate is given up and the session
cleared, where the transfer is the one that is named. -/
theorem abortStatus_wp (p : List UInt8) (m : Machine Ram) (C : Machine Ram → Prop) :
    wp (abortStatus p) (AbortEnd p m) C m := by
  simp only [abortStatus, wp_bind, wp_ram, wp_ite, wp_pure]
  split
  next hobj => exact .refused (by decide) fun h => hobj h.1
  next hobj =>
  have hobj := not_not.mp hobj
  split
  next hother =>
    exact .refused (by decide) fun h => absurd (hother.1.symm.trans h.2) (by simp)
  · split
    next hact => exact wp_clearSession (.closed hobj hact)
    next hact => exact .idle hobj (by simpa using hact)

/-- How `asset_handle_status` ends. -/
inductive StatusEnd (frame : FrameView) (p : List UInt8) (now : UInt32) (m : Machine Ram) :
    Response → Machine Ram → Prop
  | refused {response : Response} : Refusal response.status →
      ¬ (read16 p 2 = 1 ∧ (read16 p 4 = 0 ∨
        m.ram.transfer.active = true ∧ m.ram.transfer.transferId = read16 p 4)) →
      StatusEnd frame p now m response m
  | any : read16 p 2 = 1 → read16 p 4 = 0 →
      StatusEnd frame p now m
        (respond frame m.ram 0x05 .ok (read16 p 2) (read16 p 4)
          (if m.ram.transfer.active = true then configBytes else 0)
          (if m.ram.transfer.active = true then m.ram.transfer.nextOffset else 0)
          (committedData m.ram.activeRecord)) m
  | session : read16 p 2 = 1 → read16 p 4 ≠ 0 → m.ram.transfer.active = true →
      m.ram.transfer.transferId = read16 p 4 →
      StatusEnd frame p now m
        (respond frame m.ram 0x05 .ok (read16 p 2) (read16 p 4) configBytes
          m.ram.transfer.nextOffset (committedData m.ram.activeRecord))
        { m with ram := { m.ram with
          transfer := { m.ram.transfer with lastActivityMs := now } } }

/-- **A STATUS request** reads the session, and touches nothing but the time of
the last activity. -/
theorem handleStatus_wp (frame : FrameView) (p : List UInt8) (now : UInt32) (m : Machine Ram)
    (C : Machine Ram → Prop) :
    wp (handleStatus frame p now) (StatusEnd frame p now m) C m := by
  simp only [handleStatus, wp_bind, wp_ram, wp_ite, wp_sendResponse, touch, modifyTransfer,
    wp_modifyRam]
  split
  next hobj => exact .refused (by simp [Refusal, respond]) fun h => hobj h.1
  next hobj =>
  have hobj := not_not.mp hobj
  split
  next hid => exact .any hobj hid
  next hid =>
  split
  next hsession =>
    refine .refused (by simp [Refusal, respond]) fun h => ?_
    rcases h.2 with h | ⟨hact, hmatch⟩
    · exact hid h
    · rcases hsession with hidle | hne
      · exact absurd (hact.symm.trans hidle) (by simp)
      · exact hne hmatch
  next hsession =>
    obtain ⟨hact, hmatch⟩ := not_or.mp hsession
    exact .session hobj hid (by simpa using hact) (not_not.mp hmatch)

/-- What a READ_CHUNK that is answered asks for. -/
structure ReadFields (p : List UInt8) (record : Record) : Prop where
  reserved : p.getD 11 0 = 0
  objectType : read16 p 2 = 1
  generation : record.generation = read32 p 4
  length : ¬ ((p.getD 10 0).toNat = 0 ∨ configBytes < read16 p 8 + (p.getD 10 0).toNat)

/-- How `asset_handle_read` ends. -/
inductive ReadEnd (frame : FrameView) (p : List UInt8) (m : Machine Ram) :
    Response → Machine Ram → Prop
  | refused {response : Response} : Refusal response.status →
      (∀ record data, m.ram.activeRecord = some record → ReadFields p record →
        readActive m.flash (some record) (read16 p 8) (p.getD 10 0).toNat ≠ some data) →
      ReadEnd frame p m response m
  | read {record : Record} {data : List UInt8} : m.ram.activeRecord = some record →
      ReadFields p record →
      readActive m.flash (some record) (read16 p 8) (p.getD 10 0).toNat = some data →
      ReadEnd frame p m
        (respond frame m.ram 0x06 .ok (read16 p 2) 0 configBytes
          (read16 p 8 + (p.getD 10 0).toNat) data) m

/-- **A READ_CHUNK request** reads the payload of the active record, and touches
nothing. -/
theorem handleRead_wp (frame : FrameView) (p : List UInt8) (m : Machine Ram)
    (C : Machine Ram → Prop) : wp (handleRead frame p) (ReadEnd frame p m) C m := by
  simp only [handleRead, wp_bind, wp_ram, wp_flash, wp_ite, wp_sendResponse]
  split
  next hres =>
    exact .refused (by simp [Refusal, respond]) fun _ _ _ hf => absurd hf.reserved hres
  next hres =>
  split
  next hobj =>
    exact .refused (by simp [Refusal, respond]) fun _ _ _ hf => absurd hf.objectType hobj
  next hobj =>
  cases hrec : m.ram.activeRecord with
  | none =>
    refine .refused (by simp [Refusal]) fun record _ hr => ?_
    exact absurd (hrec.symm.trans hr) (by simp)
  | some record =>
  have hsame : ∀ {record' : Record}, m.ram.activeRecord = some record' → record' = record :=
    fun hr => (Option.some.inj (hrec.symm.trans hr)).symm
  simp only [wp_ite, wp_sendResponse]
  split
  next hgen =>
    refine .refused (by simp [Refusal, respond]) fun record' _ hr hf => ?_
    rw [hsame hr] at hf
    exact absurd hf.generation hgen
  next hgen =>
  split
  next hlen =>
    exact .refused (by simp [Refusal, respond]) fun _ _ _ hf => absurd hlen hf.length
  next hlen =>
  cases hread : readActive m.flash (some record) (read16 p 8) (p.getD 10 0).toNat with
  | none =>
    refine .refused (by simp [Refusal]) fun record' _ hr _ => ?_
    rw [hsame hr, hread]
    simp
  | some data =>
    exact .read hrec ⟨not_not.mp hres, not_not.mp hobj, not_not.mp hgen, hlen⟩ hread

/-- How a frame ends. -/
inductive FrameEnd (frame : FrameView) (now : UInt32) (m : Machine Ram) :
    Response → Machine Ram → Prop
  | refused {response : Response} : Refusal response.status →
      FrameEnd frame now m response m
  | begin {p : List UInt8} {status : Status} {m' : Machine Ram} : Accepted frame p 0x01 →
      BeginEnd p now m status m' →
      FrameEnd frame now m (beginResponse frame p m'.ram status) m'
  | write {p : List UInt8} {status : Status} {m' : Machine Ram} : Accepted frame p 0x02 →
      WriteEnd p now m status m' →
      FrameEnd frame now m (writeResponse frame p m'.ram status) m'
  | commit {p : List UInt8} {status : Status} {m' : Machine Ram} : Accepted frame p 0x03 →
      CommitEnd p m status m' →
      FrameEnd frame now m (commitResponse frame p m'.ram status) m'
  | abort {p : List UInt8} {status : Status} {m' : Machine Ram} : Accepted frame p 0x04 →
      AbortEnd p m status m' →
      FrameEnd frame now m (abortResponse frame p m'.ram status) m'
  | status {p : List UInt8} {response : Response} {m' : Machine Ram} : Accepted frame p 0x05 →
      StatusEnd frame p now m response m' → FrameEnd frame now m response m'
  | read {p : List UInt8} {response : Response} {m' : Machine Ram} : Accepted frame p 0x06 →
      ReadEnd frame p m response m' → FrameEnd frame now m response m'

/-- The frame is one that may work on the flash. -/
def Mutates (frame : FrameView) (r : Ram) : Prop :=
  (∃ p, Accepted frame p 0x01 ∧ r.transfer.active = false) ∨
    (∃ p, Accepted frame p 0x02 ∧ Next r p) ∨
    ∃ p, Accepted frame p 0x03 ∧ r.transfer.active = true

/-- **`asset_transfer_handle_frame`.** A reset can only cut what works on
the flash. -/
theorem handleFrame_wp {m : Machine Ram} (h : Inv m) (frame : FrameView) (now : UInt32) :
    wp (handleFrame frame now) (FrameEnd frame now m) (fun _ => Mutates frame m.ram) m := by
  rcases handleFrame_cases frame now with ⟨opcode, status, href, heq⟩ |
    ⟨p, opcode, hknown, hacc⟩
  · rw [heq, wp_sendSimple]
    exact .refused href
  rw [handleFrame_accepted hacc]
  have hcases : opcode = 1 ∨ opcode = 2 ∨ opcode = 3 ∨ opcode = 4 ∨ opcode = 5 ∨ opcode = 6 := by
    obtain ⟨h1, h6⟩ := hknown
    simp only [UInt8.le_iff_toNat_le, ← UInt8.toNat_inj] at h1 h6 ⊢
    simp at h1 h6 ⊢
    omega
  rcases hcases with rfl | rfl | rfl | rfl | rfl | rfl
  · change wp (handleBegin frame p now) _ _ m
    simp only [handleBegin, wp_bind]
    exact wp_mono (beginStatus_wp p now m) (fun _ _ hend => .begin hacc hend)
      fun _ hc => Or.inl ⟨p, hacc, hc⟩
  · change wp (handleWrite frame p now) _ _ m
    simp only [handleWrite, wp_bind]
    exact wp_mono (writeStatus_wp h p now) (fun _ _ hend => .write hacc hend)
      fun _ hc => Or.inr (Or.inl ⟨p, hacc, hc⟩)
  · change wp (handleCommit frame p) _ _ m
    simp only [handleCommit, wp_bind]
    exact wp_mono (commitStatus_wp h p) (fun _ _ hend => .commit hacc hend)
      fun _ hc => Or.inr (Or.inr ⟨p, hacc, hc⟩)
  · change wp (handleAbort frame p) _ _ m
    simp only [handleAbort, wp_bind]
    exact wp_mono (abortStatus_wp p m _) (fun _ _ hend => .abort hacc hend) fun _ hc => hc
  · change wp (handleStatus frame p now) _ _ m
    exact wp_mono (handleStatus_wp frame p now m _) (fun _ _ hend => .status hacc hend)
      fun _ hc => hc
  · change wp (handleRead frame p) _ _ m
    exact wp_mono (handleRead_wp frame p m _) (fun _ _ hend => .read hacc hend) fun _ hc => hc

/-- **Every frame keeps the invariant** of the session, by what each opcode may
end with. -/
theorem inv_frameEnd {m m' : Machine Ram} {frame : FrameView} {now : UInt32} {response : Response}
    (h : Inv m) (hend : FrameEnd frame now m response m') : Inv m' := by
  cases hend with
  | refused => exact h
  | begin _ hend => exact inv_beginEnd h hend
  | write _ hend => exact inv_writeEnd h hend
  | commit _ hend => exact inv_commitEnd h hend
  | abort _ hend =>
    cases hend with
    | refused => exact h
    | idle => exact h
    | closed => exact inv_cleared h.record
  | status _ hend =>
    cases hend with
    | refused => exact h
    | any => exact h
    | session => exact inv_touch h now
  | read _ hend =>
    cases hend with
    | refused => exact h
    | read => exact h

/-! ## The runs -/

/-- A poll clears the session, or does nothing. -/
theorem wp_poll {m : Machine Ram} {Q : Unit → Machine Ram → Prop} {C : Machine Ram → Prop}
    (now : UInt32) (hkeep : Q () m) (hclear : m.ram.transfer.active = true → Q () (cleared m)) :
    wp (poll now) Q C m := by
  simp only [poll, wp_bind, wp_ram, wp_ite, wp_pure]
  split
  next h => exact wp_clearSession (hclear h.1)
  next h => exact hkeep

/-- **The invariant holds in every reachable state,** by induction over frames,
polls and resets. -/
theorem Reachable.inv {m : Machine Ram} (h : Reachable m) : Inv m := by
  induction h with
  | boot flash log tape => exact inv_boot flash log tape
  | arm control _ ih => exact ih.congr rfl rfl rfl ⟨rfl, rfl, rfl, rfl⟩
  | @step m m' ev r tape _ hserve ih =>
    have hinv : Inv { m with tape := tape } := ih.congr rfl rfl rfl ⟨rfl, rfl, rfl, rfl⟩
    suffices hwp : wp (serve ev) (fun _ m' => Inv m') (fun _ => True) { m with tape := tape } from
      wp_ok hwp hserve
    cases ev with
    | frame frame now =>
      simp only [serve, wp_bind]
      exact wp_mono (handleFrame_wp hinv frame now) (fun _ _ hend => inv_frameEnd hinv hend)
        fun _ _ => trivial
    | poll now =>
      simp only [serve, wp_bind]
      exact wp_poll now hinv fun _ => inv_cleared hinv.record
    | resetSession =>
      simp only [serve, wp_bind]
      exact wp_clearSession (inv_cleared hinv.record)

/-- No call that the session makes to the candidate is refused for its
state. -/
structure CallsAccepted (m : Machine Ram) : Prop where
  /-- BEGIN opens a session only where none is, and then starts a candidate. -/
  begins : m.ram.transfer.active = false → ∀ p now m',
    beginCandidate (UInt32.ofNat (read32 p 10)) { m with ram := opened m.ram p now } ≠
      .ok .badState m'
  /-- A chunk that follows the last one and fits. -/
  writes : m.ram.transfer.active = true → ∀ data,
    m.ram.transfer.nextOffset + data.length ≤ configBytes → ∀ m',
    writeCandidate data m ≠ .ok .badState m'
  /-- A commit of all the bytes. -/
  commits : m.ram.transfer.active = true → m.ram.transfer.nextOffset = configBytes → ∀ m',
    commitCandidate m ≠ .ok .badState m'
  /-- In answers, BAD_STATE is only said to a COMMIT that comes too early. -/
  answers : ∀ frame now response m', handleFrame frame now m = .ok response m' →
    response.status = .badState →
    response.opcode = 0x03 ∧ m.ram.transfer.active = true ∧
      m.ram.transfer.nextOffset ≠ configBytes

theorem Inv.callsAccepted {m : Machine Ram} (h : Inv m) : CallsAccepted m where
  begins := by
    intro hidle p now m' hrun
    have hstep := wp_ok (beginCandidate_wp _ _) hrun
    have hcand : m.ram.candidate.active = false := h.active ▸ hidle
    cases hstep with
    | refused hact => exact absurd (hcand.symm.trans hact) (by simp)
    | starting _ _ hstart => exact nomatch hstart
  writes := by
    intro hact data hfits m' hrun
    have hput := wp_ok (h.writeCandidate_wp hact data) hrun
    have hcand : m.ram.candidate.active = true := h.active ▸ hact
    rcases putStep_result hput with hr | hr | hr | ⟨_, hbad | hbad⟩
    · exact nomatch hr
    · exact nomatch hr
    · exact nomatch hr
    · exact absurd (hcand.symm.trans hbad) (by simp)
    · rw [← h.offset hact] at hbad
      omega
  commits := by
    intro hact hall m' hrun
    have hstep := wp_ok (commitCandidate_wp m) hrun
    exact h.commit_ne_badState hact hall hstep
  answers := by
    intro frame now response m' hrun hbad
    have hend := wp_ok (handleFrame_wp h frame now) hrun
    cases hend with
    | refused href => exact absurd hbad href.2.1
    | begin _ hend =>
      have hstatus : _ = Status.badState := hbad
      cases hend with
      | refused href _ => exact absurd hstatus href.2.1
      | again => exact nomatch hstatus
      | opened => exact nomatch hstatus
      | @closed result _ _ hidle hne hne' hstep =>
        have hcand : m.ram.candidate.active = false := h.active ▸ hidle
        cases hstep with
        | refused hact => exact absurd (hcand.symm.trans hact) (by simp)
        | comparing => exact absurd rfl hne
        | starting _ _ hstart =>
          cases hstart with
          | wornOut => exact nomatch hstatus
          | started => exact absurd rfl hne
          | failed => exact nomatch hstatus
    | write _ hend =>
      have hstatus : _ = Status.badState := hbad
      cases hend with
      | refused href _ => exact absurd hstatus href.2.1
      | again => exact nomatch hstatus
      | stored => exact nomatch hstatus
      | wornOut => exact nomatch hstatus
      | closed => exact nomatch hstatus
    | commit _ hend =>
      have hstatus : _ = Status.badState := hbad
      cases hend with
      | refused _ hwhy _ => exact ⟨rfl, hwhy hstatus⟩
      | again => exact nomatch hstatus
      | committed => exact nomatch hstatus
      | @closed result _ _ _ _ hne _ =>
        cases result <;> first | exact absurd rfl hne | exact nomatch hstatus
    | abort _ hend =>
      have hstatus : _ = Status.badState := hbad
      cases hend with
      | refused href _ => exact absurd hstatus href.2.1
      | idle => exact nomatch hstatus
      | closed => exact nomatch hstatus
    | status _ hend =>
      cases hend with
      | refused href _ => exact absurd hbad href.2.1
      | any => exact nomatch hbad
      | session => exact nomatch hbad
    | read _ hend =>
      cases hend with
      | refused href _ => exact absurd hbad href.2.1
      | read => exact nomatch hbad

/-- **The session and the candidate are in step**, in every state that
frames, polls, resets of the session and of the device, and failing flash
operations lead to: one is active when the other is, both are at the same
byte and of the same CRC. So no call between the layers is refused. -/
theorem session_in_step {m : Machine Ram} (h : Reachable m) : InStep m.ram ∧ CallsAccepted m :=
  ⟨h.inv.toInStep, h.inv.callsAccepted⟩

/-- The BEGIN of transfer 5. -/
def beginEvent : Event :=
  .frame (request [1, 1, 1, 0, 5, 0, 8, 0, 1, 0, 0xF5, 0x4E, 0x5C, 0x23, 0, 0]) 0

/-- The WRITE of all its bytes. -/
def writeEvent : Event :=
  .frame (request [1, 2, 1, 0, 5, 0, 0, 0, 8, 0, 1, 2, 10, 120, 22, 0, 0, 0]) 0

/-- A session begun on a device with erased slots, and all its bytes written. -/
def writtenSession : Machine Ram := (writeEvent.done (beginEvent.done erasedDevice).2).2

set_option maxRecDepth 20000 in
/-- It is open then, at its end. -/
theorem session_in_step_written : writtenSession.ram.transfer.active = true ∧
    writtenSession.ram.transfer.nextOffset = 8 ∧
    InStep writtenSession.ram ∧ CallsAccepted writtenSession := by
  have hbegun : Reachable (beginEvent.done erasedDevice).2 :=
    (Reachable.boot _ _ _).done beginEvent (by decide +kernel)
  have hwritten : Reachable writtenSession := hbegun.done writeEvent (by decide +kernel)
  exact ⟨by decide +kernel, by decide +kernel, session_in_step hwritten⟩

end DeusOs.Asset
