import DeusOs.Update.Delivery
import DeusOs.Update.Signed

/-!
# The update link — a device that serves the update

The four requests against a device whose flash works: each is answered
`ST_OK` by a device in the state before it, and late copies of DATA requests
leave the session as it is. `Serving` is the state between two DATA
requests.
-/

namespace DeusOs

namespace Update

open Bootloader Host
open LittleEndian (read16 write16)
open Nor (Machine Outcome)

variable {board : Board} {d : Sys} {rx tx : List UInt8} {tape : ℕ → Option Outcome} {st : Status}
  {m m' : Machine BootRam} {late : List UInt8 → Prop} {header tag c : List UInt8}
  {cs : List (List UInt8)} {id : ℕ} {opcode : UInt8} {args : List UInt8}

/-! ## The endpoint of a configured device -/

/-- The device is configured, and a response its endpoint is busy with is
there. -/
structure Configured (d : Sys) : Prop where
  configuration : d.machine.ram.usbConfiguration = 1
  response : d.machine.ram.usbTxActive = true → d.machine.ram.ep1Tx ≠ []

/-- A configured device with nothing armed is idle. -/
theorem Configured.idle (h : Configured d) (hnone : armed d = none) : ¬ Busy d := by
  intro hb
  rw [armed, if_pos hb, List.getLast?_eq_none_iff] at hnone
  exact h.response hb.2 hnone

theorem length_buildResponse (r : BootRam) (id : ℕ) (opcode : UInt8) (st : Status) :
    (buildResponse r id opcode st).length = 28 := by
  simp [buildResponse_eq, wire, frameHeader, responseBody]

/-- **The response is armed**, where the endpoint was idle. -/
theorem respond_idle (rx : List UInt8) (st : Status) (hc : m.ram.usbConfiguration = 1)
    (hidle : m.ram.usbTxActive = false) (ses : Session) :
    Configured ⟨.update, respond rx st m, ses⟩ ∧
      armed ⟨.update, respond rx st m, ses⟩ =
        some (buildResponse m.ram (wireId rx) (packetOpcode rx) st) := by
  have hlen : (buildResponse m.ram (wireId rx) (packetOpcode rx) st).length ≤ 64 := by
    rw [length_buildResponse]
    omega
  have hsend : respond rx st m = { m with ram := { m.ram with
      ep1Tx := m.ram.ep1Tx ++ [buildResponse m.ram (wireId rx) (packetOpcode rx) st]
      usbTxActive := true } } := by
    unfold respond sendRam
    rw [if_neg]
    · rfl
    · rintro (h | h | h)
      · exact h hc
      · rw [hidle] at h
        cases h
      · exact absurd h (Nat.not_lt.2 hlen)
  rw [hsend]
  refine ⟨⟨hc, fun _ => ?_⟩, ?_⟩
  · exact List.append_ne_nil_of_right_ne_nil _ (List.cons_ne_nil _ _)
  · unfold armed
    rw [if_pos ⟨rfl, rfl⟩]
    exact List.getLast?_concat

theorem idle_of_not_busy (hp : d.phase = .update) (hb : ¬ Busy d) :
    d.machine.ram.usbTxActive = false := by
  rw [← Bool.not_eq_true]
  exact fun hact => hb ⟨hp, hact⟩

/-- A packet that is answered leaves a configured device, with the answer
armed. -/
theorem step_answered (hp : d.phase = .update) (hc : Configured d) (hb : ¬ Busy d)
    (hrun : processBulkPacket board rx { d.machine with tape } = .ok (some st) (respond rx st m'))
    (hsame : SameEndpoint d.machine m') :
    Configured (d.step board (.packet rx tape)) ∧
      armed (d.step board (.packet rx tape)) =
        some (buildResponse m'.ram (wireId rx) (packetOpcode rx) st) := by
  rw [step_packet hp hrun, hp]
  exact respond_idle rx st (hsame.configuration.trans hc.configuration)
    (hsame.txActive.trans (idle_of_not_busy hp hb)) _

/-- What an answer of `ST_OK` says of the device after it. -/
structure Accepted (a : FirmwareUpdateResponse) (d : Sys) : Prop where
  status : a.status = FirmwareUpdate.statusOk
  state : a.state = d.machine.ram.updateState.code
  offset : d.machine.ram.updateState = .receiving → d.machine.ram.expectedOffset < 65536 →
    a.expectedOffset = d.machine.ram.expectedOffset

/-- **A request that is served** has its answer on its way, accepted and under
its id. -/
theorem Served.armed (h : Served board d (request 1 id (opcode :: args)) tape) (hid : IsId id)
    (hlen : args.length ≤ 51) (hp : d.phase = .update) (hc : Configured d) (hb : ¬ Busy d) :
    Configured (d.step board (.packet (request 1 id (opcode :: args)) tape)) ∧
      ∃ tx a, Update.armed (d.step board (.packet (request 1 id (opcode :: args)) tape)) = some tx ∧
        Carries id opcode tx a ∧
        Accepted a (d.step board (.packet (request 1 id (opcode :: args)) tape)) := by
  obtain ⟨m', hrun, hsame⟩ := h
  obtain ⟨hconf, harmed⟩ := step_answered hp hc hb hrun hsame
  have hr : IsRequest opcode (request 1 id (opcode :: args)) := isRequest_request hid hlen
  rw [hr.opcode, wireId_request 1 hid.2] at harmed
  refine ⟨hconf, _, _, harmed, ⟨m'.ram, .ok, rfl, rfl⟩, rfl, ?_, fun hrec hlt => ?_⟩
  · rw [step_packet hp hrun, respond_updateState]
    rfl
  · rw [step_packet hp hrun] at hrec hlt ⊢
    rw [respond_updateState] at hrec
    rw [respond_expectedOffset] at hlt ⊢
    simp only [responseOf, hrec, or_true, if_true]
    exact LittleEndian.read16_write16 hlt [] []

/-! ## What such a device keeps -/

/-- A predicate that late packets and the collecting of responses keep. -/
theorem kept_of_calm {P : Sys → Prop} (hinv : ∀ d, P d → d.Inv board)
    (hcollect : ∀ d, P d → P (d.step board .inComplete))
    (hlate : ∀ d rx tape, P d → late rx → Sound tape → ¬ Busy d →
      P (d.step board (.packet rx tape))) : Kept board Calm late P where
  step d e h hok hpacket := by
    cases e with
    | packet rx tape =>
      obtain ⟨hl, hb⟩ := hpacket rx tape rfl
      exact hlate d rx tape h hl hok hb
    | inComplete => exact hcollect d h
    | configure c => exact hok.elim
    | reset d1 d2 => exact hok.elim
  answer d rx tape tx h hl := (kept_inv board Calm late).answer d rx tape tx (hinv d h) hl

/-- A device stays configured when its answer has gone, unless it is to reset.
-/
theorem Configured.inComplete (h : Configured d) (hp : d.phase = .update)
    (hcalm : d.machine.ram.resetAfterTx = false) : Configured (d.step board .inComplete) := by
  rw [step_inComplete hp hcalm]
  exact ⟨h.configuration, fun hact => by cases hact⟩

/-- A device goes on waiting when its answer has gone. -/
theorem Waiting.inComplete (h : Waiting board d) : Waiting board (d.step board .inComplete) := by
  have hinv := inv_step h.inv .inComplete
  rw [step_inComplete h.phase h.calm] at hinv ⊢
  exact ⟨hinv, h.phase, h.calm, h.state⟩

/-! ## BEGIN -/

/-- A device that accepts the update of the header: it waits for BEGIN, and
the version may follow what it has committed. -/
structure Accepting (board : Board) (header : List UInt8) (d : Sys) : Prop where
  waiting : Waiting board d
  configured : Configured d
  version : versionRejected (scanFlash board d.machine.flash) (imageVersion header) = false

/-- And one that has staged it. -/
structure Prepared (board : Board) (header : List UInt8) (d : Sys) : Prop where
  staged : Staged board header d
  configured : Configured d
  version : versionRejected (scanFlash board d.machine.flash) (imageVersion header) = false

theorem kept_accepting (board : Board) (header : List UInt8) :
    Kept board Calm (fun _ => False) (Accepting board header) := by
  refine kept_of_calm (fun _ h => h.waiting.inv) (fun d h => ?_) fun _ _ _ _ hl => hl.elim
  refine ⟨h.waiting.inComplete, h.configured.inComplete h.waiting.phase h.waiting.calm, ?_⟩
  rw [flash_of_inComplete]
  exact h.version

/-- What was prepared stays so when the answer has gone. -/
theorem Prepared.inComplete (h : Prepared board header d) :
    Prepared board header (d.step board .inComplete) := by
  refine ⟨h.staged.inComplete, h.configured.inComplete h.staged.phase h.staged.calm, ?_⟩
  rw [flash_of_inComplete]
  exact h.version

/-- What the answer to BEGIN says. -/
def Begun (board : Board) (header : List UInt8) (a : FirmwareUpdateResponse) (d : Sys) : Prop :=
  a.status = FirmwareUpdate.statusOk ∧ a.state = FirmwareUpdate.stateHeaderStaged ∧
    Prepared board header d

section begin

variable (hlen : header.length = 48) (hv : headerStructuralValid header = true)
include hlen hv

/-- **BEGIN is served.** -/
theorem Accepting.begin (h : Accepting board header d) (hid : IsId id) (tape : ℕ → Option Outcome)
    (hb : ¬ Busy d) :
    ∃ tx a, armed (d.step board (.packet (request 1 id (opBegin :: header)) tape)) = some tx ∧
      Carries id opBegin tx a ∧
      Begun board header a (d.step board (.packet (request 1 id (opBegin :: header)) tape)) := by
  obtain ⟨hst, hflash, hserved⟩ := step_begin id tape h.waiting hid hlen hv
  obtain ⟨hconf, tx, a, harmed, hcarries, ha⟩ :=
    Served.armed hserved hid (by omega) h.waiting.phase h.configured hb
  refine ⟨tx, a, harmed, hcarries, ha.status, ?_, hst, hconf, ?_⟩
  · rw [ha.state]
    exact congrArg UpdateState.code hst.state
  · exact hflash ▸ h.version

/-- **The service of BEGIN,** where no operation goes wrong. -/
theorem service_begin_calm (board : Board) :
    Service board Calm (fun _ => False) opBegin header (Accepting board header)
      (fun d => d.Inv board) (Begun board header) where
  length := by omega
  weaken _ h := h.waiting.inv
  before := kept_accepting board header
  after := kept_inv board Calm _
  answered a := kept_of_calm (fun _ h => h.2.2.staged.inv)
    (fun _ h => ⟨h.1, h.2.1, h.2.2.inComplete⟩) fun _ _ _ _ hl => hl.elim
  serve d id tape hid hd _ hb := by
    refine ⟨inv_step hd.waiting.inv _, fun tx htx => ?_⟩
    obtain ⟨tx', a, harmed, hcarries, ha⟩ := hd.begin hlen hv hid tape hb
    obtain rfl : tx' = tx := Option.some.inj (harmed.symm.trans htx)
    exact ⟨a, hcarries, ha⟩

/-- A BEGIN is answered wherever it is accepted. -/
theorem answers_begin (board : Board) : Answers board opBegin header (Accepting board header) where
  idle _ h := h.configured.idle
  arms d id tape hid h _ hb := by
    obtain ⟨tx, a, harmed, -⟩ := h.begin hlen hv hid tape hb
    rw [harmed]
    exact Option.some_ne_none tx

end begin

/-! ## AUTHORIZE -/

/-- A device with an open session of the header, the tag and the chunks. -/
structure Serving (board : Board) (header tag : List UInt8) (cs : List (List UInt8)) (d : Sys) :
    Prop where
  receiving : Receiving board d.session d
  configured : Configured d
  header : d.session.header = header
  tag : d.session.tag = tag
  chunks : d.session.chunks = cs
  state : cs ≠ [] → d.machine.ram.updateState = .receiving

/-- A session that serves is open. -/
theorem Serving.open (h : Serving board header tag cs d) : Open board d.machine d.session :=
  h.receiving.open

/-- What a session received are its chunks. -/
theorem Serving.received (h : Serving board header tag cs d) : d.session.received = cs.flatten := by
  rw [Session.received, h.chunks]

/-- A session goes on serving when its answer has gone. -/
theorem Serving.inComplete (h : Serving board header tag cs d) :
    Serving board header tag cs (d.step board .inComplete) := by
  have hinv := inv_step h.receiving.inv .inComplete
  have hconf : Configured (d.step board .inComplete) :=
    h.configured.inComplete h.receiving.phase h.receiving.calm
  rw [step_inComplete h.receiving.phase h.receiving.calm] at hinv hconf ⊢
  exact ⟨⟨hinv, h.receiving.phase, h.receiving.calm, h.receiving.live, rfl⟩, hconf, h.header, h.tag,
    h.chunks, h.state⟩

/-- The handler's step behind a packet that was answered. -/
theorem dispatch_of_run (hinv : d.Inv board) (hp : d.phase = .update)
    (hrun : processBulkPacket board rx { d.machine with tape } = .ok (some st) m') :
    ∃ m₁, m' = respond rx st m₁ ∧ DispatchStep board { d.machine with tape } rx (some st) m₁ := by
  have hstep := Nor.wp_ok (packetStep_of_inv hinv hp rx tape) hrun
  cases hstep with
  | @served _ m₁ _ hd => exact ⟨m₁, rfl, hd⟩

/-- The state an accepting answer to AUTHORIZE leaves. -/
theorem state_of_authorize (hd : DispatchStep board m rx (some .ok) m')
    (hop : packetOpcode rx = opAuthorize) : m'.ram.updateState = .authorized := by
  cases DispatchStep.handled (hd.of_authorize hop) with
  | refused _ hbad => simp at hbad
  | unauthenticated _ _ hbad => simp at hbad
  | authorized => rfl

/-- The state an accepting answer to a DATA request in place leaves. -/
theorem state_of_data {ses : Session} (ho : Open board m ses)
    (hd : DispatchStep board m rx (some .ok) m') (hop : packetOpcode rx = opData)
    (hnext : dataOffset (packetPayload rx) = m.ram.expectedOffset) :
    m'.ram.updateState = .receiving := by
  cases DispatchStep.handled (hd.of_data hop) with
  | refused _ hbad => simp at hbad
  | repeated _ hrep => exact absurd hnext (ho.repeats_ne hrep)
  | accepted => rfl

/-- What the answer to AUTHORIZE says. -/
def Opened (board : Board) (header tag : List UInt8) (a : FirmwareUpdateResponse) (d : Sys) : Prop :=
  a.status = FirmwareUpdate.statusOk ∧ a.state = FirmwareUpdate.stateAuthorized ∧
    Serving board header tag [] d

section authorize

variable (htag : tag = (hmacHeader board.deusUpdateKey header).toList)
  (htarget : headerTargetValid board header = true)
include htag htarget

/-- **AUTHORIZE is served.** -/
theorem Prepared.authorize (h : Prepared board header d) (hid : IsId id) (htape : Sound tape)
    (hb : ¬ Busy d) :
    ∃ tx a, armed (d.step board (.packet (request 1 id (opAuthorize :: tag)) tape)) = some tx ∧
      Carries id opAuthorize tx a ∧
      Opened board header tag a
        (d.step board (.packet (request 1 id (opAuthorize :: tag)) tape)) := by
  have hlen : tag.length = 32 := by rw [htag, Vector.length_toList]
  obtain ⟨mark, hrec, -, hserved⟩ :=
    step_authorize id tape h.staged hid htag htarget h.version htape
  obtain ⟨hconf, tx, a, harmed, hcarries, ha⟩ :=
    Served.armed hserved hid (by omega) h.staged.phase h.configured hb
  obtain ⟨m', hrun, -⟩ := hserved
  obtain ⟨m₁, heq, hd⟩ := dispatch_of_run h.staged.inv h.staged.phase hrun
  have hr : IsRequest opAuthorize (request 1 id (opAuthorize :: tag)) :=
    isRequest_request hid (by omega)
  have hstate : (d.step board (.packet (authorizeRequest id tag) tape)).machine.ram.updateState =
      .authorized := by
    rw [step_packet h.staged.phase hrun]
    show (respond _ _ m').ram.updateState = _
    rw [heq, respond_updateState]
    exact state_of_authorize hd hr.opcode
  refine ⟨tx, a, harmed, hcarries, ha.status, ?_, ⟨?_, hconf, ?_, ?_, ?_, fun hne => absurd rfl hne⟩⟩
  · exact ha.state.trans (congrArg UpdateState.code hstate)
  · have hses := hrec.session
    exact hses.symm ▸ hrec
  · exact congrArg Session.header hrec.session
  · exact congrArg Session.tag hrec.session
  · exact congrArg Session.chunks hrec.session

/-- **The service of AUTHORIZE,** where no operation goes wrong. -/
theorem service_authorize_calm :
    Service board Calm (fun _ => False) opAuthorize tag (Prepared board header)
      (fun d => d.Inv board) (Opened board header tag) where
  length := by rw [htag, Vector.length_toList]; omega
  weaken _ h := h.staged.inv
  before := kept_of_calm (fun _ h => h.staged.inv) (fun _ h => h.inComplete)
    fun _ _ _ _ hl => hl.elim
  after := kept_inv board Calm _
  answered a := kept_of_calm (fun _ h => h.2.2.receiving.inv)
    (fun _ h => ⟨h.1, h.2.1, h.2.2.inComplete⟩) fun _ _ _ _ hl => hl.elim
  serve d id tape hid hd htape hb := by
    refine ⟨inv_step hd.staged.inv _, fun tx htx => ?_⟩
    obtain ⟨tx', a, harmed, hcarries, ha⟩ := hd.authorize htag htarget hid htape hb
    obtain rfl : tx' = tx := Option.some.inj (harmed.symm.trans htx)
    exact ⟨a, hcarries, ha⟩

/-- An AUTHORIZE is answered wherever a BEGIN was. -/
theorem answers_authorize : Answers board opAuthorize tag (Prepared board header) where
  idle _ h := h.configured.idle
  arms d id tape hid h htape hb := by
    obtain ⟨tx, a, harmed, -⟩ := h.authorize htag htarget hid htape hb
    rw [harmed]
    exact Option.some_ne_none tx

end authorize

/-! ## DATA -/

/-- A DATA request that may not be accepted moves nothing. -/
theorem run_refused (hp : d.phase = .update) (hr : IsRequest opData rx)
    (ho : Open board d.machine d.session)
    (hnext : dataOffset (packetPayload rx) ≠ d.machine.ram.expectedOffset)
    (tape : ℕ → Option Outcome) :
    ∃ st, d.step board (.packet rx tape) =
        { d with machine := respond rx st { d.machine with tape } } ∧
      processBulkPacket board rx { d.machine with tape } =
        .ok (some st) (respond rx st { d.machine with tape }) := by
  have himage : BootRam.Live { d.machine with tape }.ram →
      imageLength { d.machine with tape }.ram.stagedHeader.toList ≤ appMaxBytes := fun _ => by
    show imageLength d.machine.ram.stagedHeader.toList ≤ appMaxBytes
    rw [ho.header]
    exact (imageLength_bounds ho.structural).2
  have hwp := handleData_wp { d.machine with tape } (packetPayload rx) himage
  have hnot : ¬ Accepts { d.machine with tape }.ram (packetPayload rx) := fun ha => hnext ha.next
  have hnote : ∀ st m', d.session.note rx d.machine m' (some st) = d.session := by
    intro st m'
    simp only [Session.note, hr.opcode]
    rw [if_neg (by simp [opData, opAuthorize]), if_neg fun hc => hnext hc.2.2]
  cases hrun : handleData (packetPayload rx) { d.machine with tape } with
  | error u m' =>
    have hstep := Nor.wp_cut hwp hrun
    cases hstep with
    | cut ha => exact absurd ha hnot
  | ok st m' =>
    have hstep := Nor.wp_ok hwp hrun
    have hsame : m' = { d.machine with tape } := by
      cases hstep with
      | refused => rfl
      | repeated => rfl
      | accepted ha => exact absurd ha hnot
      | failed ha => exact absurd ha hnot
    rw [hsame] at hrun
    have hserved : processBulkPacket board rx { d.machine with tape } =
        .ok (some st) (respond rx st { d.machine with tape }) := by
      refine processBulkPacket_of_dispatch hr.accepted ?_
      rw [hr.isData.dispatch]
      exact hrun
    refine ⟨st, ?_, hserved⟩
    rw [step_packet hp hserved, note_respond, hnote]

/-- It leaves the session open. -/
theorem Serving.refused (h : Serving board header tag cs d) (hr : IsRequest opData rx)
    (hnext : dataOffset (packetPayload rx) ≠ d.machine.ram.expectedOffset)
    (tape : ℕ → Option Outcome) (hb : ¬ Busy d) :
    Serving board header tag cs (d.step board (.packet rx tape)) := by
  have hinv := inv_step h.receiving.inv (.packet rx tape)
  obtain ⟨st, hstep, hrun⟩ :=
    run_refused h.receiving.phase hr h.open hnext tape
  obtain ⟨hconf, -⟩ := step_answered h.receiving.phase h.configured hb hrun ⟨rfl, rfl, rfl⟩
  have hstate := respond_updateState rx st { d.machine with tape }
  rw [hstep] at hinv hconf ⊢
  refine ⟨⟨hinv, h.receiving.phase, ?_, ?_, rfl⟩, hconf, h.header, h.tag, h.chunks, fun hne => ?_⟩
  · rw [respond_resetAfterTx]
    exact h.receiving.calm
  · have hlive := h.receiving.live
    unfold BootRam.Live at hlive ⊢
    rw [hstate]
    exact hlive
  · rw [hstate]
    exact h.state hne

/-- The fields of a DATA request. -/
theorem dataRequest_fields {off : ℕ} (hid : IsId id) (hoff : off < 65536) (hle : c.length ≤ 48) :
    IsRequest opData (dataRequest id off c) ∧
      dataOffset (packetPayload (dataRequest id off c)) = off ∧
      dataBytes (packetPayload (dataRequest id off c)) = c := by
  have hpay : packetPayload (dataRequest id off c) = opData :: (write16 off ++ c) :=
    payload_request (by simp; omega)
  refine ⟨isRequest_request hid (by simp; omega), ?_, ?_⟩
  · rw [hpay]
    exact dataOffset_data hoff c
  · rw [hpay]
    rfl

/-- **A late copy leaves the session open.** It is refused for its offset, or
answered as before, and the session is not extended. -/
theorem Serving.lateData (h : Serving board header tag cs d) (hlate : LateData cs rx)
    (tape : ℕ → Option Outcome) (hb : ¬ Busy d) :
    Serving board header tag cs (d.step board (.packet rx tape)) := by
  obtain ⟨id, pre, c, post, hid, hne, hle, hpre, hcs, rfl⟩ := hlate
  obtain ⟨hr, hoff, -⟩ := dataRequest_fields hid hpre hle
  refine h.refused hr ?_ tape hb
  have hpos : 0 < c.length := List.length_pos_iff.2 hne
  rw [hoff, h.open.offset, h.received, hcs]
  simp only [List.flatten_append, List.flatten_cons, List.length_append]
  omega

/-- What the answer to the DATA request of a chunk says. -/
def Extended (board : Board) (header tag : List UInt8) (cs : List (List UInt8)) (c : List UInt8)
    (a : FirmwareUpdateResponse) (d : Sys) : Prop :=
  a.status = FirmwareUpdate.statusOk ∧ a.state = FirmwareUpdate.stateReceiving ∧
    a.expectedOffset = cs.flatten.length + c.length ∧ Serving board header tag (cs ++ [c]) d

/-- Its chunk has been accepted, or not yet. -/
def Underway (board : Board) (header tag : List UInt8) (cs : List (List UInt8)) (c : List UInt8)
    (d : Sys) : Prop :=
  Serving board header tag cs d ∨ Serving board header tag (cs ++ [c]) d

/-- The chunk is the next of an image. -/
structure NextChunk (header : List UInt8) (cs : List (List UInt8)) (c : List UInt8) : Prop where
  fits : ChunkFits cs.flatten.length c
  image : cs.flatten.length + c.length ≤ imageLength header

/-- The next chunk is not empty, fits into a packet, and its offset into a
halfword. -/
theorem NextChunk.bounds (h : NextChunk header cs c) :
    c ≠ [] ∧ c.length ≤ 48 ∧ cs.flatten.length + c.length < 65536 := by
  have hpos := h.fits.len_pos
  have happ := h.fits.app
  refine ⟨fun hnil => ?_, h.fits.len_le, ?_⟩
  · rw [hnil] at hpos
    exact absurd hpos (by decide)
  · simp only [appMaxBytes] at happ
    omega

/-- What a device says that has accepted the chunk. -/
theorem Serving.extended {a : FirmwareUpdateResponse} (hn : NextChunk header cs c)
    (h : Serving board header tag (cs ++ [c]) d) (ha : Update.Accepted a d) :
    Extended board header tag cs c a d := by
  obtain ⟨-, -, hlt⟩ := hn.bounds
  have hstate := h.state (List.append_ne_nil_of_right_ne_nil _ (List.cons_ne_nil _ _))
  have hoffset : d.machine.ram.expectedOffset = cs.flatten.length + c.length := by
    rw [h.open.offset, h.received]
    simp
  refine ⟨ha.status, ?_, ?_, h⟩
  · rw [ha.state, hstate]
    rfl
  · rw [ha.offset hstate (by rw [hoffset]; exact hlt), hoffset]

/-- **The chunk is accepted.** -/
theorem Serving.data (hn : NextChunk header cs c) (h : Serving board header tag cs d) (hid : IsId id)
    (htape : Sound tape) (hb : ¬ Busy d) :
    Serving board header tag (cs ++ [c])
        (d.step board (.packet (dataRequest id cs.flatten.length c) tape)) ∧
      Served board d (dataRequest id cs.flatten.length c) tape := by
  obtain ⟨-, hle, hlt⟩ := hn.bounds
  have hlen : d.session.received.length = cs.flatten.length := congrArg List.length h.received
  have hdata := step_data id c tape h.receiving hid (by rw [hlen]; exact hn.fits)
    (by rw [hlen, h.header]; exact hn.image) htape
  rw [hlen] at hdata
  obtain ⟨hrec, -, hserved⟩ := hdata
  refine ⟨?_, hserved⟩
  obtain ⟨hr, hoff, -⟩ := dataRequest_fields (c := c) hid (by omega : cs.flatten.length < 65536) hle
  obtain ⟨m', hrun, hsame⟩ := hserved
  obtain ⟨hconf, -⟩ := step_answered h.receiving.phase h.configured hb hrun hsame
  obtain ⟨m₁, heq, hd⟩ := dispatch_of_run h.receiving.inv h.receiving.phase hrun
  have hnext : dataOffset (packetPayload (dataRequest id cs.flatten.length c)) =
      d.machine.ram.expectedOffset := by
    rw [hoff, h.open.offset, hlen]
  refine ⟨?_, hconf, ?_, ?_, ?_, fun _ => ?_⟩
  · have hses := hrec.session
    exact hses.symm ▸ hrec
  · exact (congrArg Session.header hrec.session).trans h.header
  · exact (congrArg Session.tag hrec.session).trans h.tag
  · refine (congrArg Session.chunks hrec.session).trans ?_
    rw [h.chunks]
  · rw [step_packet h.receiving.phase hrun]
    show (respond _ _ m').ram.updateState = _
    rw [heq, respond_updateState]
    exact state_of_data (h.open.aside d.machine.ram tape) hd hr.opcode hnext

/-- **The chunk again is answered as before.** The device remembers the last
chunk, so a request whose answer was lost may be repeated. -/
theorem Serving.again (hn : NextChunk header cs c) (h : Serving board header tag (cs ++ [c]) d)
    (hid : IsId id) (tape : ℕ → Option Outcome) (hb : ¬ Busy d) :
    Serving board header tag (cs ++ [c])
        (d.step board (.packet (dataRequest id cs.flatten.length c) tape)) ∧
      Served board d (dataRequest id cs.flatten.length c) tape := by
  obtain ⟨hne, hle, hlt⟩ := hn.bounds
  have hlate : LateData (cs ++ [c]) (dataRequest id cs.flatten.length c) :=
    ⟨id, cs, c, [], hid, hne, hle, by omega, rfl, rfl⟩
  refine ⟨h.lateData hlate tape hb, { d.machine with tape }, ?_, ⟨rfl, rfl, rfl⟩⟩
  obtain ⟨hr, hoff, hbytes⟩ :=
    dataRequest_fields (c := c) hid (by omega : cs.flatten.length < 65536) hle
  have ho : Open board { d.machine with tape } d.session := h.open.aside d.machine.ram tape
  have hrep : dataRepeats { d.machine with tape }.ram
      (packetPayload (dataRequest id cs.flatten.length c)) = true :=
    ho.repeats_iff.2 ⟨cs, c, h.chunks, hoff, hbytes⟩
  have hform : WellFormed { d.machine with tape }.ram
      (packetPayload (dataRequest id cs.flatten.length c)) := by
    refine not_malformed_of_fits ?_ ?_
    · rw [hoff, hbytes]
      exact hn.fits
    · rw [hoff, hbytes]
      show _ ≤ imageLength d.machine.ram.stagedHeader.toList
      rw [h.open.header, h.header]
      exact hn.image
  refine processBulkPacket_of_dispatch hr.accepted ?_
  rw [hr.isData.dispatch]
  exact handleData_repeats h.receiving.live hform hrep

section data

variable (hn : NextChunk header cs c)
include hn

/-- **The DATA request is served**, the first time and the second. -/
theorem Underway.data (h : Underway board header tag cs c d) (hid : IsId id) (htape : Sound tape)
    (hb : ¬ Busy d) :
    ∃ tx a, armed (d.step board (.packet (dataRequest id cs.flatten.length c) tape)) = some tx ∧
      Carries id opData tx a ∧
      Extended board header tag cs c a
        (d.step board (.packet (dataRequest id cs.flatten.length c) tape)) := by
  obtain ⟨-, hle, -⟩ := hn.bounds
  have hargs : (write16 cs.flatten.length ++ c).length ≤ 51 := by
    simp
    omega
  have hboth : (d.phase = .update ∧ Configured d) ∧ Serving board header tag (cs ++ [c])
      (d.step board (.packet (dataRequest id cs.flatten.length c) tape)) ∧
      Served board d (dataRequest id cs.flatten.length c) tape := by
    rcases h with h | h
    · exact ⟨⟨h.receiving.phase, h.configured⟩, h.data hn hid htape hb⟩
    · exact ⟨⟨h.receiving.phase, h.configured⟩, h.again hn hid tape hb⟩
  obtain ⟨⟨hp, hc⟩, hserving, hserved⟩ := hboth
  obtain ⟨-, tx, a, harmed, hcarries, ha⟩ := Served.armed hserved hid hargs hp hc hb
  exact ⟨tx, a, harmed, hcarries, hserving.extended hn ha⟩

/-- A late copy of the chunk may be the one that is accepted. -/
theorem Underway.lateCopy (h : Underway board header tag cs c d) (hlate : LateCopy cs c rx)
    (htape : Sound tape) (hb : ¬ Busy d) :
    Underway board header tag cs c (d.step board (.packet rx tape)) := by
  obtain ⟨hne, hle, hlt⟩ := hn.bounds
  rcases h with h | h
  · rcases hlate with hlate | ⟨id, hid, rfl⟩
    · exact Or.inl (h.lateData hlate tape hb)
    · exact Or.inr (h.data hn hid htape hb).1
  · exact Or.inr (h.lateData (lateCopy_le hne hle (by omega) hlate) tape hb)

/-- **The service of DATA,** where no operation goes wrong. -/
theorem service_data_calm (board : Board) (tag : List UInt8) :
    Service board Calm (LateCopy cs c) opData (write16 cs.flatten.length ++ c)
      (Underway board header tag cs c) (Underway board header tag cs c)
      (Extended board header tag cs c) := by
  obtain ⟨hne, hle, hlt⟩ := hn.bounds
  have hkept : Kept board Calm (LateCopy cs c) (Underway board header tag cs c) :=
    kept_of_calm (fun _ h => h.elim (·.receiving.inv) (·.receiving.inv))
      (fun _ h => h.imp Serving.inComplete Serving.inComplete)
      fun _ _ _ h hl hs hb => h.lateCopy hn hl hs hb
  refine ⟨by simp; omega, fun _ h => h, hkept, hkept, fun a => ?_, fun d id tape hid hd htape hb => ?_⟩
  · refine kept_of_calm (fun _ h => h.2.2.2.receiving.inv)
      (fun _ h => ⟨h.1, h.2.1, h.2.2.1, h.2.2.2.inComplete⟩) fun _ _ tape h hl _ hb => ?_
    exact ⟨h.1, h.2.1, h.2.2.1, h.2.2.2.lateData (lateCopy_le hne hle (by omega) hl) tape hb⟩
  · rw [request_data]
    refine ⟨hd.lateCopy hn (Or.inr ⟨id, hid, rfl⟩) htape hb, fun tx htx => ?_⟩
    obtain ⟨tx', a, harmed, hcarries, ha⟩ := hd.data hn hid htape hb
    obtain rfl : tx' = tx := Option.some.inj (harmed.symm.trans htx)
    exact ⟨a, hcarries, ha⟩

/-- A DATA is answered wherever its chunk is under way. -/
theorem answers_data (board : Board) (tag : List UInt8) :
    Answers board opData (write16 cs.flatten.length ++ c) (Underway board header tag cs c) where
  idle _ h := h.elim (·.configured.idle) (·.configured.idle)
  arms d id tape hid h htape hb := by
    obtain ⟨tx, a, harmed, -⟩ := h.data hn hid htape hb
    rw [request_data, harmed]
    exact Option.some_ne_none tx

end data

/-! ## END -/

/-- The chunks make up an image of the header, with vectors that check. -/
structure Whole (header : List UInt8) (cs : List (List UInt8)) : Prop where
  count : cs.flatten.length = imageLength header
  digest : (sha256Memory cs.flatten).toList = imageDigest header
  vectors : vectorsOk cs.flatten = true

/-- A session that has received the whole image has its vectors in the flash. -/
theorem Serving.vectors (h : Serving board header tag cs d) (hw : Whole header cs) :
    vectorsValid d.machine.flash (imageLength header) = true := by
  have happ := h.open.app
  rw [h.received] at happ
  have hbounds := imageLength_bounds h.open.structural
  rw [h.header] at hbounds
  rw [← hw.count, vectorsValid_of_bytes cs.flatten happ (by rw [hw.count]; exact hbounds.1)]
  exact hw.vectors

/-- What the answer to END says. -/
def Closed (board : Board) (header tag : List UInt8) (cs : List (List UInt8))
    (a : FirmwareUpdateResponse) (d : Sys) : Prop :=
  a.status = FirmwareUpdate.statusOk ∧ a.state = FirmwareUpdate.stateCommitted ∧
    Done board header tag cs d

theorem Serving.holding (h : Serving board header tag cs d) : Holding board header tag cs d :=
  ⟨h.receiving.inv, fun _ _ => ⟨h.header, h.tag, h.chunks⟩⟩

section «end»

variable (hw : Whole header cs)
include hw

/-- **END is served.** -/
theorem Serving.end (h : Serving board header tag cs d) (hid : IsId id) (htape : Sound tape)
    (hb : ¬ Busy d) :
    ∃ tx a, armed (d.step board (.packet (endRequest id) tape)) = some tx ∧
      Carries id opEnd tx a ∧
      Closed board header tag cs a (d.step board (.packet (endRequest id) tape)) := by
  obtain ⟨-, -, -, -, hserved⟩ := step_end id tape h.receiving hid
    (by rw [h.received, h.header]; exact hw.count) (by rw [h.received, h.header]; exact hw.digest)
    (by rw [h.header]; exact h.vectors hw) htape
  obtain ⟨-, tx, a, harmed, hcarries, ha⟩ :=
    Served.armed hserved hid (by simp) h.receiving.phase h.configured hb
  obtain ⟨m', hrun, -⟩ := hserved
  obtain ⟨st, m₁, hans⟩ := answered_of_armed h.receiving.inv hb harmed
  obtain rfl : st = .ok := by
    have hrun' := hans.run
    rw [show request 1 id [opEnd] = endRequest id from rfl, hrun] at hrun'
    injection hrun' with hanswer
    exact (Option.some.inj hanswer).symm
  obtain ⟨hdone, hstate⟩ := hans.done hid h.holding
  exact ⟨tx, a, harmed, hcarries, ha.status, ha.state.trans (congrArg UpdateState.code hstate), hdone⟩

/-- **The service of END,** where no operation goes wrong. -/
theorem service_end_calm (board : Board) (tag : List UInt8) :
    Service board Calm (LateData cs) opEnd [] (Serving board header tag cs) (fun d => d.Inv board)
      (Closed board header tag cs) where
  length := by simp
  weaken _ h := h.receiving.inv
  before := kept_of_calm (fun _ h => h.receiving.inv) (fun _ h => h.inComplete)
    fun _ _ tape h hl _ hb => h.lateData hl tape hb
  after := kept_inv board Calm _
  answered a := kept_of_calm (fun _ h => h.2.2.inv)
    (fun _ h => ⟨h.1, h.2.1, h.2.2.event fun _ _ heq => by cases heq⟩)
    fun _ _ tape h hl _ _ => ⟨h.1, h.2.1, h.2.2.lateData hl tape⟩
  serve d id tape hid hd htape hb := by
    refine ⟨inv_step hd.receiving.inv _, fun tx htx => ?_⟩
    obtain ⟨tx', a, harmed, hcarries, ha⟩ := hd.end hw hid htape hb
    obtain rfl : tx' = tx := Option.some.inj (harmed.symm.trans htx)
    exact ⟨a, hcarries, ha⟩

/-- An END is answered wherever a session serves. -/
theorem answers_end (board : Board) (tag : List UInt8) :
    Answers board opEnd [] (Serving board header tag cs) where
  idle _ h := h.configured.idle
  arms d id tape hid h htape hb := by
    obtain ⟨tx, a, harmed, -⟩ := h.end hw hid htape hb
    rw [show request 1 id [opEnd] = endRequest id from rfl, harmed]
    exact Option.some_ne_none tx

end «end»

end Update

end DeusOs
