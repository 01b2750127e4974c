import DeusOs.Update.Install
import DeusOs.Update.Exchange

/-!
# The update link — the device under requests

What each of the four requests needs of the device and what its answer
says of it, over any fates of its flash operations: `service_begin`,
`service_authorize`, `service_data`, `service_end`. `Holding` is the state
between two DATA requests: a live session is that of the header, the tag
and the chunks the host has seen accepted.
-/

namespace DeusOs

namespace Update

open Bootloader Host
open LittleEndian (read16 write16)
open Nor (Machine Outcome)

variable {board : Board} {d : Sys} {e : Event} {rx tx : List UInt8} {tape : ℕ → Option Outcome}
  {st : Status} {m m' : Machine BootRam} {late late' : List UInt8 → Prop} {ok : Event → Prop}

/-! ## The answer to a packet -/

/-- What is armed after a response has been handed to an idle endpoint. -/
theorem armed_respond (hidle : m'.ram.usbTxActive = false) {ses : Session}
    (h : armed ⟨.update, respond rx st m', ses⟩ = some tx) :
    tx = buildResponse m'.ram (wireId rx) (packetOpcode rx) st := by
  unfold armed Busy respond sendRam at h
  dsimp only at h
  split at h
  · split at h
    · rename_i hb
      rw [hidle] at hb
      exact absurd hb.2 (by decide)
    · cases h
  · split at h
    · simpa [wireId] using h.symm
    · cases h

/-- A packet that was answered. -/
structure Answered (board : Board) (d : Sys) (rx : List UInt8) (tape : ℕ → Option Outcome)
    (tx : List UInt8) (st : Status) (m' : Machine BootRam) : Prop where
  phase : d.phase = .update
  run : processBulkPacket board rx { d.machine with tape } = .ok (some st) (respond rx st m')
  dispatch : DispatchStep board { d.machine with tape } rx (some st) m'
  answer : tx = buildResponse m'.ram (wireId rx) (packetOpcode rx) st

/-- An answered packet is the device's step, with the answer to be sent. -/
theorem Answered.step (h : Answered board d rx tape tx st m') :
    d.step board (.packet rx tape) =
      { d with
        machine := respond rx st m'
        session := d.session.note rx d.machine m' (some st) } := by
  rw [step_packet h.phase h.run, note_respond]

/-- **Whatever is armed after a packet answers it.** Before it nothing was on
its way, so there is no older answer. -/
theorem answered_of_armed (h : d.Inv board) (hb : ¬ Busy d)
    (htx : armed (d.step board (.packet rx tape)) = some tx) :
    ∃ st m', Answered board d rx tape tx st m' := by
  by_cases hp : d.phase = .update
  · have hidle : d.machine.ram.usbTxActive = false := by
      rw [← Bool.not_eq_true]
      exact fun hact => hb ⟨hp, hact⟩
    have hwp := packetStep_of_inv h hp rx tape
    cases hrun : processBulkPacket board rx { d.machine with tape } with
    | error u m' =>
      simp only [Sys.step] at htx
      rw [if_neg (not_not_intro hp), hrun] at htx
      simp [armed, Busy] at htx
    | ok a m' =>
      have hstep := Nor.wp_ok hwp hrun
      rw [step_packet hp hrun] at htx
      cases hstep with
      | ignored =>
        rw [armed_eq_none] at htx
        · cases htx
        · exact fun hbusy => hb ⟨hp, hbusy.2⟩
      | @served st m' _ hd =>
        refine ⟨st, m', hp, hrun, hd, ?_⟩
        have hidle' : m'.ram.usbTxActive = false := (sameEndpoint_of_dispatch hd).txActive.trans hidle
        rw [hp] at htx
        exact armed_respond hidle' htx
  · have hstep : d.step board (.packet rx tape) = d := by
      simp only [Sys.step]
      rw [if_pos hp]
    rw [hstep, armed_eq_none hb] at htx
    cases htx

theorem Answered.isAnswerTo (h : Answered board d rx tape tx st m') : IsAnswerTo rx tx :=
  ⟨_, _, h.answer⟩

/-- The status byte says the status. -/
theorem status_of_code (h : st.code = FirmwareUpdate.statusOk) : st = .ok := by
  cases st <;> first | rfl | exact absurd h (by decide)

theorem code_headerStaged {s : UpdateState} (h : s.code = FirmwareUpdate.stateHeaderStaged) :
    s = .headerStaged := by
  cases s <;> first | rfl | exact absurd h (by decide)

theorem code_receiving {s : UpdateState} (h : s.code = FirmwareUpdate.stateReceiving) :
    s = .receiving := by
  cases s <;> first | rfl | exact absurd h (by decide)

/-! ## Events that are not packets -/

/-- What such an event does: nothing, the endpoint moves, or the device
boots. -/
theorem cases_of_event (h : d.Inv board) (hne : ∀ rx tape, e ≠ .packet rx tape) :
    d.step board e = d ∨
      (∃ r, d.step board e = { d with machine := aside d.machine r d.machine.tape }) ∨
      ∃ ph r, r.updateState = .recoveryIdle ∧
        d.step board e = { d with phase := ph, machine := { d.machine with ram := r } } := by
  have hm := moves h e
  generalize d.step board e = d' at hm ⊢
  cases hm with
  | idle => exact Or.inl rfl
  | endpoint r => exact Or.inr (Or.inl ⟨r, rfl⟩)
  | boot hr => exact Or.inr (Or.inr ⟨_, _, hr, rfl⟩)
  | served => exact absurd rfl (hne _ _)
  | cut => exact absurd rfl (hne _ _)

/-- A predicate kept by such events is kept where no request is late. -/
theorem kept_of_quiet {P : Sys → Prop}
    (h : ∀ d e, P d → (∀ rx tape, e ≠ .packet rx tape) → P (d.step board e)) :
    Kept board ok (fun _ => False) P where
  step d e hP _ hpacket := h d e hP fun rx tape heq => (hpacket rx tape heq).1
  answer _ _ _ _ _ hlate := absurd hlate id

theorem Kept.mono {P : Sys → Prop} (h : Kept board ok late P) (hle : ∀ rx, late' rx → late rx) :
    Kept board ok late' P where
  step d e hP he hpacket := h.step d e hP he fun rx tape heq =>
    (hpacket rx tape heq).imp_left (hle rx)
  answer d rx tape tx hP hlate := h.answer d rx tape tx hP (hle rx hlate)

theorem Service.mono {opcode : UInt8} {args : List UInt8} {D W : Sys → Prop}
    {A : FirmwareUpdateResponse → Sys → Prop} (h : Service board ok late opcode args D W A)
    (hle : ∀ rx, late' rx → late rx) : Service board ok late' opcode args D W A :=
  ⟨h.length, h.weaken, h.before.mono hle, h.after.mono hle, fun a => (h.answered a).mono hle,
    h.serve⟩

theorem Settled.mono {s : Conn Link} (h : Settled late s) (hle : ∀ rx, late rx → late' rx) :
    Settled late' s :=
  ⟨h.clean, fun rx hrx => hle rx (h.requests rx hrx), h.answers, h.nodup, h.abandoned⟩

/-! ## BEGIN -/

/-- No session is live, and a header that is staged is `header`. -/
structure StagedFor (board : Board) (header : List UInt8) (d : Sys) : Prop where
  inv : d.Inv board
  dead : d.phase = .update → ¬ d.machine.ram.Live
  staged : d.phase = .update → d.machine.ram.updateState = .headerStaged →
    d.machine.ram.stagedHeader.toList = header

theorem StagedFor.event {header : List UInt8} (h : StagedFor board header d)
    (hne : ∀ rx tape, e ≠ .packet rx tape) : StagedFor board header (d.step board e) := by
  have hinv := inv_step h.inv e
  rcases cases_of_event h.inv hne with heq | ⟨r, heq⟩ | ⟨ph, r, hr, heq⟩
  · rw [heq]
    exact h
  · rw [heq] at hinv ⊢
    exact ⟨hinv, h.dead, h.staged⟩
  · rw [heq] at hinv ⊢
    refine ⟨hinv, fun _ hl => ?_, fun _ hs => ?_⟩
    · rcases hl with hl | hl <;> rw [hr] at hl <;> cases hl
    · rw [hr] at hs
      cases hs

/-- What an accepting answer to BEGIN says. -/
def AfterBegin (board : Board) (header : List UInt8) (a : FirmwareUpdateResponse) (d : Sys) : Prop :=
  a.status = FirmwareUpdate.statusOk → a.state = FirmwareUpdate.stateHeaderStaged →
    StagedFor board header d

/-- **BEGIN**, on a device in any state. -/
theorem service_begin (board : Board) (ok : Event → Prop) {header : List UInt8}
    (hlen : header.length = 48) :
    Service board ok (fun _ => False) opBegin header (fun _ => True) (fun _ => True)
      (AfterBegin board header) where
  length := by omega
  weaken _ _ := trivial
  before := kept_of_quiet fun _ _ _ _ => trivial
  after := kept_of_quiet fun _ _ _ _ => trivial
  answered a := kept_of_quiet fun d e h hne hst hs => (h hst hs).event hne
  serve d id tape hid _ _ hb := by
    refine ⟨trivial, fun tx htx => ?_⟩
    have hr : IsRequest opBegin (beginRequest id header) := isRequest_request hid (by omega)
    have hpay : packetPayload (beginRequest id header) = opBegin :: header :=
      payload_request (by omega)
    by_cases hp : d.phase = .update
    · have hidle : d.machine.ram.usbTxActive = false := by
        rw [← Bool.not_eq_true]
        exact fun hact => hb ⟨hp, hact⟩
      have hwp := handleBegin_wp { d.machine with tape } (opBegin :: header) (fun _ => False)
      cases hrun : handleBegin (opBegin :: header) { d.machine with tape } with
      | error u m' => exact (Nor.wp_cut hwp hrun).elim
      | ok st m' =>
        have hstep := Nor.wp_ok hwp hrun
        have hserve : processBulkPacket board (beginRequest id header) { d.machine with tape } =
            .ok (some st) (respond (beginRequest id header) st m') := by
          refine processBulkPacket_of_dispatch hr.accepted ?_
          rw [hr.dispatch_begin, hpay]
          exact hrun
        have heq := step_packet hp hserve
        rw [note_of_opcode (by rw [hr.opcode]; decide) (by rw [hr.opcode]; decide)] at heq
        have hidle' : m'.ram.usbTxActive = false := by
          rw [← hidle]
          cases hstep <;> simp only [beginRam]
        have htx' := htx
        rw [show request 1 id (opBegin :: header) = beginRequest id header from rfl, heq, hp] at htx'
        have hans := armed_respond hidle' htx'
        rw [hr.opcode, show wireId (beginRequest id header) = id from wireId_request 1 hid.2 _] at hans
        refine ⟨_, ⟨m'.ram, st, hans, rfl⟩, fun hst hs => ?_⟩
        have hst' : st = .ok := status_of_code hst
        have hs' : m'.ram.updateState = .headerStaged := code_headerStaged hs
        rw [show request 1 id (opBegin :: header) = beginRequest id header from rfl, heq]
        have hstate := respond_updateState (beginRequest id header) st m'
        have hheader := respond_stagedHeader (beginRequest id header) st m'
        cases hstep with
        | refused _ hbad => rcases hbad with rfl | rfl <;> cases hst'
        | malformed => cases hst'
        | staged hbegins hvalid =>
          have hcopy : (bytesCopy d.machine.ram.stagedHeader header 48).toList = header :=
            toList_bytesCopy _ hlen
          refine ⟨fun _ => ⟨fun _ => ?_, fun hl => ?_⟩, fun _ hl => ?_, fun _ _ => ?_⟩
          · rw [hheader]
            simp only [beginRam, List.drop_succ_cons, List.drop_zero, hcopy]
            exact hvalid
          · exact absurd (hstate.trans hs') (fun he => not_live_of_staged he hl)
          · exact not_live_of_staged (hstate.trans hs') hl
          · rw [hheader]
            simp only [beginRam, List.drop_succ_cons, List.drop_zero, hcopy]
    · have hstep : d.step board (.packet (request 1 id (opBegin :: header)) tape) = d := by
        simp only [Sys.step]
        rw [if_pos hp]
      rw [hstep, armed_eq_none hb] at htx
      cases htx

/-! ## AUTHORIZE -/

/-- A live session is that of the header, the tag and the chunks. -/
structure Holding (board : Board) (header tag : List UInt8) (cs : List (List UInt8)) (d : Sys) :
    Prop where
  inv : d.Inv board
  session : d.phase = .update → d.machine.ram.Live →
    d.session.header = header ∧ d.session.tag = tag ∧ d.session.chunks = cs

variable {header tag : List UInt8} {cs : List (List UInt8)} {c : List UInt8}

/-- A device without a live session holds whatever is asked of one. -/
theorem Holding.of_dead (h : d.Inv board) (hdead : d.phase = .update → ¬ d.machine.ram.Live) :
    Holding board header tag cs d := ⟨h, fun hp hl => absurd hl (hdead hp)⟩

theorem not_live_of_idle {r : BootRam} (h : r.updateState = .recoveryIdle) : ¬ r.Live := by
  rintro (hl | hl) <;> rw [h] at hl <;> cases hl

theorem Holding.event (h : Holding board header tag cs d) (hne : ∀ rx tape, e ≠ .packet rx tape) :
    Holding board header tag cs (d.step board e) := by
  have hinv := inv_step h.inv e
  rcases cases_of_event h.inv hne with heq | ⟨r, heq⟩ | ⟨ph, r, hr, heq⟩
  · rw [heq]
    exact h
  · rw [heq] at hinv ⊢
    exact ⟨hinv, h.session⟩
  · rw [heq] at hinv ⊢
    exact .of_dead hinv fun _ => not_live_of_idle hr

/-- What an accepting answer to AUTHORIZE says. -/
def AfterAuthorize (board : Board) (header tag : List UInt8) (a : FirmwareUpdateResponse) (d : Sys) :
    Prop :=
  a.status = FirmwareUpdate.statusOk → a.state = FirmwareUpdate.stateAuthorized →
    Holding board header tag [] d

/-- **AUTHORIZE**, on a device that has nothing but `header` staged. -/
theorem service_authorize (board : Board) (ok : Event → Prop) (header : List UInt8)
    (hlen : tag.length = 32) :
    Service board ok (fun _ => False) opAuthorize tag (StagedFor board header) (fun _ => True)
      (AfterAuthorize board header tag) where
  length := by omega
  weaken _ _ := trivial
  before := kept_of_quiet fun _ _ h hne => h.event hne
  after := kept_of_quiet fun _ _ _ _ => trivial
  answered a := kept_of_quiet fun d e h hne hst hs => (h hst hs).event hne
  serve d id tape hid hd _ hb := by
    refine ⟨trivial, fun tx htx => ?_⟩
    have hr : IsRequest opAuthorize (authorizeRequest id tag) := isRequest_request hid (by omega)
    have hpay : packetPayload (authorizeRequest id tag) = opAuthorize :: tag :=
      payload_request (by omega)
    have hwire : wireId (authorizeRequest id tag) = id := wireId_request 1 hid.2 _
    have hinv := inv_step hd.inv (.packet (authorizeRequest id tag) tape)
    obtain ⟨st, m', ha⟩ := answered_of_armed hd.inv hb htx
    have hans := ha.answer
    rw [show request 1 id (opAuthorize :: tag) = authorizeRequest id tag from rfl] at ha hans ⊢
    rw [hr.opcode, hwire] at hans
    refine ⟨_, ⟨m'.ram, st, hans, rfl⟩, fun hst hs => ⟨hinv, fun _ _ => ?_⟩⟩
    obtain rfl : st = .ok := status_of_code hst
    have hp := ha.phase
    rw [ha.step, note_authorize hr.opcode]
    have hauth := DispatchStep.handled (ha.dispatch.of_authorize hr.opcode)
    cases hauth with
    | refused _ hbad => simp at hbad
    | unauthenticated _ _ hbad => simp at hbad
    | authorized hau hdoes =>
      have hcopy := toList_bytesCopy d.machine.ram.stagedTag hlen
      refine ⟨hd.staged hp hau.staged, ?_, rfl⟩
      simp only [authorizedRam, authorizeRam, scanRam, hpay, List.drop_succ_cons, List.drop_zero,
        hcopy]

/-! ## DATA -/

/-- The requests that are late once `cs` has been accepted: copies of its
chunks. -/
def LateData (cs : List (List UInt8)) (rx : List UInt8) : Prop :=
  ∃ id pre c post, IsId id ∧ c ≠ [] ∧ c.length ≤ 48 ∧ pre.flatten.length < 65536 ∧
    cs = pre ++ c :: post ∧ rx = dataRequest id pre.flatten.length c

theorem LateData.mono (h : LateData cs rx) (more : List (List UInt8)) :
    LateData (cs ++ more) rx := by
  obtain ⟨id, pre, c, post, hid, hne, hle, hpre, rfl, rfl⟩ := h
  exact ⟨id, pre, c, post ++ more, hid, hne, hle, hpre, by simp, rfl⟩

/-- **A DATA request extends the session by its chunk, or leaves it.** Only a
chunk in its place, all of it written, extends it. -/
theorem Holding.data (h : Holding board header tag cs d) {id off : ℕ} (hid : IsId id)
    (hoff : off < 65536) (hle : c.length ≤ 48) (tape : ℕ → Option Outcome) :
    Holding board header tag cs (d.step board (.packet (dataRequest id off c) tape)) ∨
      (off = cs.flatten.length ∧
        Holding board header tag (cs ++ [c]) (d.step board (.packet (dataRequest id off c) tape))) := by
  have hr : IsRequest opData (dataRequest id off c) := isRequest_request hid (by simp; omega)
  have hpay : packetPayload (dataRequest id off c) = opData :: (write16 off ++ c) :=
    payload_request (by simp; omega)
  have hdo : dataOffset (packetPayload (dataRequest id off c)) = off := by
    rw [hpay]
    exact dataOffset_data hoff c
  have hdb : dataBytes (packetPayload (dataRequest id off c)) = c := by
    rw [hpay]
    rfl
  have hinv := inv_step h.inv (.packet (dataRequest id off c) tape)
  have hm := moves h.inv (.packet (dataRequest id off c) tape)
  have hses := h.session
  generalize hd' : d.step board (.packet (dataRequest id off c) tape) = d' at hm hinv ⊢
  cases hm with
  | idle => exact Or.inl h
  | endpoint r => exact Or.inl ⟨hinv, hses⟩
  | boot hr' => exact Or.inl (.of_dead hinv fun _ => not_live_of_idle hr')
  | cut => exact Or.inl (.of_dead hinv fun hp => by cases hp)
  | served hp hrun hstep =>
    cases hstep with
    | ignored hacc =>
      rw [hr.accepted] at hacc
      cases hacc
    | @served st m' _ hdis =>
      rw [note_respond] at hinv ⊢
      have hstate := respond_updateState (dataRequest id off c) st m'
      have hlive : (respond (dataRequest id off c) st m').ram.Live → m'.ram.Live := fun hl => by
        unfold BootRam.Live at *
        rwa [hstate] at hl
      rcases hdis.of_data hr.opcode with ⟨hbad, rfl⟩ | hdata
      · rw [note_of_ne_ok (by rcases hbad with h | h | h <;> cases h <;> decide)] at hinv ⊢
        exact Or.inl ⟨hinv, fun hp hl => hses hp (hlive hl)⟩
      cases hdata with
      | refused _ hbad =>
        rw [note_of_ne_ok (by rcases hbad with rfl | rfl | rfl <;> decide)] at hinv ⊢
        exact Or.inl ⟨hinv, fun hp hl => hses hp (hlive hl)⟩
      | repeated hl hrep =>
        -- a repeat is not at the expected offset: no chunk is counted
        have ho := ((h.inv hp).live hl).aside d.machine.ram tape
        have hne := ho.repeats_ne hrep
        have hnote : d.session.note (dataRequest id off c) d.machine { d.machine with tape }
            (some .ok) = d.session := by
          simp only [Session.note, hr.opcode]
          rw [if_neg (by decide), if_neg fun hc => hne hc.2.2]
        rw [hnote] at hinv ⊢
        exact Or.inl ⟨hinv, fun hp hl => hses hp (hlive hl)⟩
      | accepted ha hdoes =>
        have ho := (h.inv hp).live ha.live
        obtain ⟨h1, h2, h3⟩ := hses hp ha.live
        have hat : dataOffset (packetPayload (dataRequest id off c)) =
            d.machine.ram.expectedOffset := ha.next
        have hnext : off = cs.flatten.length := by
          rw [← hdo, hat, ← h3]
          exact ho.offset
        rw [note_data hr.opcode hat, hdb] at hinv ⊢
        refine Or.inr ⟨hnext, hinv, fun _ _ => ⟨h1, h2, ?_⟩⟩
        simp only [h3]
      | failed => exact Or.inl (.of_dead hinv fun _ hl => not_live_of_idle rfl (hlive hl))

/-- A late copy leaves it. -/
theorem Holding.lateData (h : Holding board header tag cs d) (hlate : LateData cs rx)
    (tape : ℕ → Option Outcome) : Holding board header tag cs (d.step board (.packet rx tape)) := by
  obtain ⟨id, pre, c, post, hid, hne, hle, hpre, rfl, rfl⟩ := hlate
  rcases h.data hid hpre hle tape with hsame | ⟨hoff, -⟩
  · exact hsame
  · have hpos : 0 < c.length := List.length_pos_iff.2 hne
    simp only [List.flatten_append, List.flatten_cons, List.length_append] at hoff
    omega

/-- The bootloader's invariant is kept by every event. -/
theorem kept_inv (board : Board) (ok : Event → Prop) (late : List UInt8 → Prop) :
    Kept board ok late (fun d => d.Inv board) where
  step d e h _ _ := inv_step h e
  answer d rx tape tx h _ hb htx := by
    obtain ⟨st, m', ha⟩ := answered_of_armed h hb htx
    exact ha.isAnswerTo

/-- A predicate of devices that keep the session invariant is kept, where
late packets and other events keep it. -/
theorem kept_of_inv {P : Sys → Prop} (hinv : ∀ d, P d → d.Inv board)
    (hevent : ∀ d e, P d → (∀ rx tape, e ≠ .packet rx tape) → P (d.step board e))
    (hlate : ∀ d rx tape, P d → late rx → P (d.step board (.packet rx tape))) :
    Kept board ok late P where
  step d e h _ hpacket := by
    cases e with
    | packet rx tape => exact hlate d rx tape h (hpacket rx tape rfl).1
    | _ => exact hevent d _ h (by simp)
  answer d rx tape tx h hl := (kept_inv board ok late).answer d rx tape tx (hinv d h) hl

theorem kept_holding (board : Board) (ok : Event → Prop) (header tag : List UInt8)
    (cs : List (List UInt8)) : Kept board ok (LateData cs) (Holding board header tag cs) :=
  kept_of_inv (fun _ h => h.inv) (fun _ _ h hne => h.event hne) fun _ _ tape h hl => h.lateData hl tape

/-- During the DATA request of a chunk: it has been accepted, or not. -/
def Between (board : Board) (header tag : List UInt8) (cs : List (List UInt8)) (c : List UInt8)
    (d : Sys) : Prop :=
  Holding board header tag cs d ∨ Holding board header tag (cs ++ [c]) d

/-- The invariant holds while a chunk is under way. -/
theorem Between.inv (h : Between board header tag cs c d) : d.Inv board := h.elim (·.inv) (·.inv)

/-- What an answer to the DATA request of a chunk says: where it names the
offset after the chunk, the chunk has been accepted. -/
def AfterData (board : Board) (header tag : List UInt8) (cs : List (List UInt8)) (c : List UInt8)
    (a : FirmwareUpdateResponse) (d : Sys) : Prop :=
  Between board header tag cs c d ∧
    (a.state = FirmwareUpdate.stateReceiving → a.expectedOffset = cs.flatten.length + c.length →
      Holding board header tag (cs ++ [c]) d)

/-- The late requests while the DATA request of a chunk is tried again. -/
def LateCopy (cs : List (List UInt8)) (c : List UInt8) : List UInt8 → Prop :=
  Later (LateData cs) opData (write16 cs.flatten.length ++ c)

/-- The request of a chunk is a DATA request. -/
theorem request_data (id off : ℕ) (c : List UInt8) :
    request 1 id (opData :: (write16 off ++ c)) = dataRequest id off c := rfl

section data

variable (hne : c ≠ []) (hle : c.length ≤ 48) (hoff : cs.flatten.length + c.length < 65536)
include hne hle hoff

/-- Once the chunk has been accepted, its copies change nothing. -/
theorem Holding.lateCopy (h : Holding board header tag (cs ++ [c]) d) (hlate : LateCopy cs c rx)
    (tape : ℕ → Option Outcome) :
    Holding board header tag (cs ++ [c]) (d.step board (.packet rx tape)) := by
  refine h.lateData ?_ tape
  rcases hlate with hlate | ⟨id, hid, rfl⟩
  · exact hlate.mono [c]
  · exact ⟨id, cs, c, [], hid, hne, hle, by omega, rfl, rfl⟩

/-- Before, a copy may be the one that is accepted. -/
theorem Between.lateCopy (h : Between board header tag cs c d) (hlate : LateCopy cs c rx)
    (tape : ℕ → Option Outcome) :
    Between board header tag cs c (d.step board (.packet rx tape)) := by
  rcases h with h | h
  · rcases hlate with hlate | ⟨id, hid, rfl⟩
    · exact Or.inl (h.lateData hlate tape)
    · rw [request_data]
      exact (h.data hid (by omega) hle tape).imp_right And.right
  · exact Or.inr (h.lateCopy hne hle hoff hlate tape)

theorem kept_between (board : Board) (ok : Event → Prop) (header tag : List UInt8) :
    Kept board ok (LateCopy cs c) (Between board header tag cs c) :=
  kept_of_inv (fun _ h => h.inv) (fun _ _ h hev => h.imp (·.event hev) (·.event hev))
    fun _ _ tape h hlate => h.lateCopy hne hle hoff hlate tape

/-- **DATA.** -/
theorem service_data (board : Board) (ok : Event → Prop) (header tag : List UInt8) :
    Service board ok (LateCopy cs c) opData (write16 cs.flatten.length ++ c)
      (Between board header tag cs c) (Between board header tag cs c)
      (AfterData board header tag cs c) where
  length := by simp; omega
  weaken _ h := h
  before := kept_between hne hle hoff board ok header tag
  after := kept_between hne hle hoff board ok header tag
  answered a := kept_of_inv (fun _ h => h.1.inv)
    (fun _ _ h hev => ⟨h.1.imp (·.event hev) (·.event hev), fun hs ho => (h.2 hs ho).event hev⟩)
    fun _ _ tape h hlate => ⟨h.1.lateCopy hne hle hoff hlate tape,
      fun hs ho => (h.2 hs ho).lateCopy hne hle hoff hlate tape⟩
  serve d id tape hid hd _ hb := by
    rw [request_data]
    have hpos : 0 < c.length := List.length_pos_iff.2 hne
    have hafter : Between board header tag cs c
        (d.step board (.packet (dataRequest id cs.flatten.length c) tape)) :=
      hd.lateCopy hne hle hoff (Or.inr ⟨id, hid, rfl⟩) tape
    refine ⟨hafter, fun tx htx => ?_⟩
    have hr : IsRequest opData (dataRequest id cs.flatten.length c) :=
      isRequest_request hid (by simp; omega)
    have hwire : wireId (dataRequest id cs.flatten.length c) = id := wireId_request 1 hid.2 _
    obtain ⟨st, m', ha⟩ := answered_of_armed hd.inv hb htx
    have hans := ha.answer
    rw [hr.opcode, hwire] at hans
    refine ⟨_, ⟨m'.ram, st, hans, rfl⟩, hafter, fun hs ho => ?_⟩
    have hs' : m'.ram.updateState = .receiving := code_receiving hs
    refine hafter.resolve_left fun hsame => ?_
    -- a live session of `cs` would have named the offset before the chunk
    have hp := ha.phase
    have hlive : (respond (dataRequest id cs.flatten.length c) st m').ram.Live :=
      Or.inr ((respond_updateState _ _ _).trans hs')
    have hses := hsame.session
    have hopen := hsame.inv
    rw [ha.step] at hses hopen
    obtain ⟨-, -, hchunks⟩ := hses hp hlive
    have hoffset := ((hopen hp).live hlive).offset
    rw [respond_expectedOffset, Session.received, hchunks] at hoffset
    have htells : (responseOf m'.ram opData st).expectedOffset = m'.ram.expectedOffset := by
      simp only [responseOf, hs', or_true, if_true]
      exact LittleEndian.read16_write16 (by omega) [] []
    rw [htells] at ho
    omega

end data

/-! ## END -/

/-- The image is committed, under the header and the tag, and no session is
live. -/
structure Done (board : Board) (header tag : List UInt8) (cs : List (List UInt8)) (d : Sys) :
    Prop where
  inv : d.Inv board
  dead : d.phase = .update → ¬ d.machine.ram.Live
  header : d.session.header = header
  tag : d.session.tag = tag
  chunks : d.session.chunks = cs
  slot : IsSlot d.session.slot
  committed : Committed board d.machine.flash d.session

/-- Whatever leaves flash, session and the end of the session alone. -/
theorem Done.congr {d' : Sys} (h : Done board header tag cs d) (hinv : d'.Inv board)
    (hdead : d'.phase = .update → ¬ d'.machine.ram.Live) (hses : d'.session = d.session)
    (hflash : d'.machine.flash = d.machine.flash) : Done board header tag cs d' :=
  ⟨hinv, hdead, hses ▸ h.header, hses ▸ h.tag, hses ▸ h.chunks, hses ▸ h.slot, by
    rw [hflash, hses]
    exact h.committed⟩

theorem Done.event (h : Done board header tag cs d) (hne : ∀ rx tape, e ≠ .packet rx tape) :
    Done board header tag cs (d.step board e) := by
  have hinv := inv_step h.inv e
  rcases cases_of_event h.inv hne with heq | ⟨r, heq⟩ | ⟨ph, r, hr, heq⟩
  · rw [heq]
    exact h
  · rw [heq] at hinv ⊢
    exact h.congr hinv h.dead rfl rfl
  · rw [heq] at hinv ⊢
    exact h.congr hinv (fun _ => not_live_of_idle hr) rfl rfl

/-- A late DATA request finds no session. -/
theorem Done.lateData (h : Done board header tag cs d) (hlate : LateData cs rx)
    (tape : ℕ → Option Outcome) : Done board header tag cs (d.step board (.packet rx tape)) := by
  obtain ⟨id, pre, c, post, hid, -, hle, -, -, rfl⟩ := hlate
  have hr : IsRequest opData (dataRequest id pre.flatten.length c) :=
    isRequest_request hid (by simp; omega)
  have hinv := inv_step h.inv (.packet (dataRequest id pre.flatten.length c) tape)
  have hm := moves h.inv (.packet (dataRequest id pre.flatten.length c) tape)
  generalize d.step board (.packet (dataRequest id pre.flatten.length c) tape) = d' at hm hinv ⊢
  cases hm with
  | idle => exact h
  | endpoint r => exact h.congr hinv h.dead rfl rfl
  | boot hr' => exact h.congr hinv (fun _ => not_live_of_idle hr') rfl rfl
  | cut hp _ hstep =>
    cases hstep with
    | cut _ hdis =>
      rcases hdis.of_data hr.opcode with hu | hdata
      · exact absurd hu.status (by simp)
      cases hdata with
      | cut ha => exact absurd ha.live (h.dead hp)
  | served hp hrun hstep =>
    cases hstep with
    | ignored => exact h.congr hinv h.dead (by simp [Session.note]) rfl
    | @served st m' _ hdis =>
      have hsame : m' = { d.machine with tape } ∧ st ≠ .ok := by
        rcases hdis.of_data hr.opcode with hu | hdata
        · exact ⟨hu.same, fun hst => hu.ne_ok (congrArg some hst)⟩
        cases hdata with
        | refused _ hbad => exact ⟨rfl, by rcases hbad with rfl | rfl | rfl <;> decide⟩
        | repeated hl => exact absurd hl (h.dead hp)
        | accepted ha => exact absurd ha.live (h.dead hp)
        | failed ha => exact absurd ha.live (h.dead hp)
      obtain ⟨rfl, hst⟩ := hsame
      refine h.congr hinv (fun _ hl => h.dead hp ?_) (note_of_ne_ok hst) rfl
      unfold BootRam.Live at *
      rwa [respond_updateState] at hl

/-- What an accepting answer to END says. -/
def AfterEnd (board : Board) (header tag : List UInt8) (cs : List (List UInt8))
    (a : FirmwareUpdateResponse) (d : Sys) : Prop :=
  d.Inv board ∧ (a.status = FirmwareUpdate.statusOk → Done board header tag cs d)

/-- The state an accepting answer to END leaves. -/
theorem state_of_end (hd : DispatchStep board m rx (some .ok) m')
    (hop : packetOpcode rx = opEnd) : m'.ram.updateState = .committed := by
  cases DispatchStep.handled (hd.of_end hop) with
  | refused _ hbad => simp at hbad
  | unverified _ _ hbad => simp at hbad
  | committed => rfl

/-- **An END that is answered `ST_OK` has committed the session.** No other way
through `handle_end` has that answer. -/
theorem Answered.done {id : ℕ} (ha : Answered board d (endRequest id) tape tx .ok m')
    (hid : IsId id) (hd : Holding board header tag cs d) :
    Done board header tag cs (d.step board (.packet (endRequest id) tape)) ∧
      (d.step board (.packet (endRequest id) tape)).machine.ram.updateState = .committed := by
  have hr : IsRequest opEnd (endRequest id) := isRequest_request hid (by simp)
  have hinv := inv_step hd.inv (.packet (endRequest id) tape)
  have hp := ha.phase
  obtain ⟨hc, hflash⟩ := commits_of_ok hd.inv hp hr.opcode ha.run
  have ho := (hd.inv hp).live hc.live
  obtain ⟨h1, h2, h3⟩ := hd.session hp hc.live
  have hcommitted := ho.committed hc
  rw [← hflash] at hcommitted
  have hstate : (respond (endRequest id) .ok m').ram.updateState = .committed := by
    rw [respond_updateState]
    exact state_of_end ha.dispatch hr.opcode
  rw [ha.step, note_of_opcode (by rw [hr.opcode]; decide) (by rw [hr.opcode]; decide)] at hinv ⊢
  refine ⟨⟨hinv, fun _ hl => ?_, h1, h2, h3, ho.isSlot, hcommitted⟩, hstate⟩
  rcases hl with hl | hl <;> rw [hstate] at hl <;> cases hl

/-- **END.** -/
theorem service_end (board : Board) (ok : Event → Prop) (header tag : List UInt8)
    (cs : List (List UInt8)) :
    Service board ok (LateData cs) opEnd [] (Holding board header tag cs) (fun d => d.Inv board)
      (AfterEnd board header tag cs) where
  length := by simp
  weaken _ h := h.inv
  before := kept_holding board ok header tag cs
  after := kept_inv board ok _
  answered a := kept_of_inv (fun _ h => h.1)
    (fun _ e h hev => ⟨inv_step h.1 e, fun hs => (h.2 hs).event hev⟩)
    fun _ rx tape h hlate => ⟨inv_step h.1 _, fun hs => (h.2 hs).lateData hlate tape⟩
  serve d id tape hid hd _ hb := by
    rw [show request 1 id [opEnd] = endRequest id from rfl]
    have hr : IsRequest opEnd (endRequest id) := isRequest_request hid (by simp)
    have hwire : wireId (endRequest id) = id := wireId_request 1 hid.2 _
    have hinv := inv_step hd.inv (.packet (endRequest id) tape)
    refine ⟨hinv, fun tx htx => ?_⟩
    obtain ⟨st, m', ha⟩ := answered_of_armed hd.inv hb htx
    have hans := ha.answer
    rw [hr.opcode, hwire] at hans
    refine ⟨_, ⟨m'.ram, st, hans, rfl⟩, hinv, fun hst => ?_⟩
    obtain rfl : st = .ok := status_of_code hst
    exact (ha.done hid hd).1

end Update

end DeusOs
