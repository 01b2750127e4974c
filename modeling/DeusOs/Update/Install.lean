import DeusOs.Update.Packets
import DeusOs.Bootloader.Serve

/-!
# The update link — a session, request by request

The four requests of the host's updater against a device whose flash
works, as steps of the system: what state each one needs and what state
it leaves. `Receiving` is the state between two DATA requests.
-/

namespace DeusOs

namespace Update

open Bootloader Host
open LittleEndian (write16)
open Nor (Mem Machine Does Outcome Sound applyAll)

/-! ## The requests -/

/-- The BEGIN request for a header. -/
def beginRequest (requestId : ℕ) (header : List UInt8) : List UInt8 :=
  request 1 requestId (opBegin :: header)

/-- The AUTHORIZE request for a tag. -/
def authorizeRequest (requestId : ℕ) (tag : List UInt8) : List UInt8 :=
  request 1 requestId (opAuthorize :: tag)

/-- The DATA request for a chunk. -/
def dataRequest (requestId off : ℕ) (data : List UInt8) : List UInt8 :=
  request 1 requestId (opData :: (write16 off ++ data))

/-- The END request. -/
def endRequest (requestId : ℕ) : List UInt8 := request 1 requestId [opEnd]

variable {requestId : ℕ} {op : UInt8} {args : List UInt8}

/-- What the host sends is a request to the bootloader. -/
theorem isRequest_request (hid : IsId requestId) (hlen : args.length ≤ 51) :
    IsRequest op (request 1 requestId (op :: args)) where
  accepted := packetAccepted_request _ _ _ hid.2 (by have := hid.1; omega) (by simp)
    (by simp only [List.length_cons]; omega)
  flags := flags_request _ _ _
  opcode := by rw [packetOpcode_request _ _ _ (by simp)]; rfl

/-- The bootloader reads the opcode and its arguments. -/
theorem payload_request (hlen : args.length ≤ 51) :
    packetPayload (request 1 requestId (op :: args)) = op :: args :=
  packetPayload_request _ _ _ (by simp only [List.length_cons]; omega)

/-- The bootloader reads the offset that was sent. -/
theorem dataOffset_data {off : ℕ} (hoff : off < 65536) (data : List UInt8) :
    dataOffset (opData :: (write16 off ++ data)) = off := by
  have h := LittleEndian.read16_write16 hoff [opData] data
  rw [dataOffset, loadLe16_eq]
  exact h

/-! ## The steps -/

variable {board : Board} {s : Sys} {header tag data : List UInt8} {tape : ℕ → Option Outcome}

/-- A served packet, as a step. -/
theorem step_packet {rx : List UInt8} {answer : Option Status} {m' : Machine BootRam}
    (hp : s.phase = .update) (hrun : processBulkPacket board rx { s.machine with tape } = .ok answer m') :
    s.step board (.packet rx tape) =
      { s with machine := m', session := s.session.note rx s.machine m' answer } := by
  simp only [Sys.step]
  rw [if_neg (not_not_intro hp), hrun]

/-- A device that serves updates, with no session open. -/
structure Waiting (board : Board) (s : Sys) : Prop where
  inv : s.Inv board
  phase : s.phase = .update
  calm : s.machine.ram.resetAfterTx = false
  state : s.machine.ram.updateState = .recoveryIdle ∨ s.machine.ram.updateState = .headerStaged

/-- A device that has staged `header`. -/
structure Staged (board : Board) (header : List UInt8) (s : Sys) : Prop where
  inv : s.Inv board
  phase : s.phase = .update
  calm : s.machine.ram.resetAfterTx = false
  state : s.machine.ram.updateState = .headerStaged
  header : s.machine.ram.stagedHeader.toList = header

/-- A device that has an open session for `ses`. -/
structure Receiving (board : Board) (ses : Session) (s : Sys) : Prop where
  inv : s.Inv board
  phase : s.phase = .update
  calm : s.machine.ram.resetAfterTx = false
  live : s.machine.ram.Live
  session : s.session = ses

/-- A session that receives is open. -/
theorem Receiving.open (h : Receiving board s.session s) : Open board s.machine s.session :=
  (h.inv h.phase).live h.live

/-- Sending an answer leaves the update's state. -/
theorem respond_updateState (rx : List UInt8) (st : Status) (m : Machine BootRam) :
    (respond rx st m).ram.updateState = m.ram.updateState := by
  obtain ⟨r, hr⟩ := respond_eq_aside rx st m
  rw [hr]
  rfl

/-- Sending an answer asks for no reset. -/
theorem respond_resetAfterTx (rx : List UInt8) (st : Status) (m : Machine BootRam) :
    (respond rx st m).ram.resetAfterTx = m.ram.resetAfterTx := by
  obtain ⟨r, hr⟩ := respond_eq_aside rx st m
  rw [hr]
  rfl

/-- Sending an answer leaves the expected offset. -/
theorem respond_expectedOffset (rx : List UInt8) (st : Status) (m : Machine BootRam) :
    (respond rx st m).ram.expectedOffset = m.ram.expectedOffset := by
  obtain ⟨r, hr⟩ := respond_eq_aside rx st m
  rw [hr]
  rfl

/-- Sending an answer leaves the staged header. -/
theorem respond_stagedHeader (rx : List UInt8) (st : Status) (m : Machine BootRam) :
    (respond rx st m).ram.stagedHeader = m.ram.stagedHeader := by
  obtain ⟨r, hr⟩ := respond_eq_aside rx st m
  rw [hr]
  rfl

/-- The handlers leave the endpoint alone. -/
structure SameEndpoint (m m' : Machine BootRam) : Prop where
  configuration : m'.ram.usbConfiguration = m.ram.usbConfiguration
  txActive : m'.ram.usbTxActive = m.ram.usbTxActive
  ep1Tx : m'.ram.ep1Tx = m.ram.ep1Tx

/-- No handler touches the endpoint. -/
theorem sameEndpoint_of_dispatch {m m' : Machine BootRam} {rx : List UInt8} {st : Status}
    (h : DispatchStep board m rx (some st) m') : SameEndpoint m m' := by
  cases h with
  | refused => exact ⟨rfl, rfl, rfl⟩
  | info => constructor <;> simp only [scanRam]
  | begin _ h => cases h <;> constructor <;> simp only [beginRam]
  | authorize _ h =>
    cases h <;> constructor <;> simp only [authorizedRam, authorizeRam, scanRam]
  | data _ h => cases h <;> constructor <;> simp only [dataRam]
  | «end» _ h => cases h <;> constructor <;> simp only [committedRam, endRam]

/-- The request is answered `ST_OK`. -/
def Served (board : Board) (s : Sys) (rx : List UInt8) (tape : ℕ → Option Outcome) : Prop :=
  ∃ m', processBulkPacket board rx { s.machine with tape } = .ok (some .ok) (respond rx .ok m') ∧
    SameEndpoint s.machine m'

/-- The response leaves a device that has nothing to reset for. -/
theorem step_inComplete (hp : s.phase = .update) (hc : s.machine.ram.resetAfterTx = false) :
    s.step board .inComplete =
      { s with machine := aside s.machine { s.machine.ram with usbTxActive := false } s.machine.tape } := by
  simp only [Sys.step]
  rw [if_neg (not_not_intro hp), if_neg (by simp [hc])]
  rfl

/-- What was staged stays staged when the answer has gone. -/
theorem Staged.inComplete (h : Staged board header s) :
    Staged board header (s.step board .inComplete) := by
  have hinv := inv_step h.inv .inComplete
  rw [step_inComplete h.phase h.calm] at hinv ⊢
  exact ⟨hinv, h.phase, h.calm, h.state, h.header⟩

/-- A session goes on receiving when the answer has gone. -/
theorem Receiving.inComplete {ses : Session} (h : Receiving board ses s) :
    Receiving board ses (s.step board .inComplete) := by
  have hinv := inv_step h.inv .inComplete
  rw [step_inComplete h.phase h.calm] at hinv ⊢
  exact ⟨hinv, h.phase, h.calm, h.live, h.session⟩

/-- A configuration leaves the bootloader waiting. -/
theorem Waiting.configure (h : Waiting board s) (c : ℕ) :
    Waiting board (s.step board (.configure c)) := by
  have hinv := inv_step h.inv (.configure c)
  simp only [Sys.step] at hinv ⊢
  rw [if_neg (not_not_intro h.phase)] at hinv ⊢
  exact ⟨hinv, h.phase, h.calm, h.state⟩

/-- A reset that finds the token leaves a device that waits for BEGIN. -/
theorem waiting_of_token (h : s.Inv board) : Waiting board (s.step board (.reset 0xD35A 0x2CA5)) := by
  have hinv := inv_step h (.reset 0xD35A 0x2CA5)
  have hboot : bootMain board s.machine.flash 0xD35A 0x2CA5 =
      .updateLoop { bootRam board s.machine.flash with
        updateState := .recoveryIdle, expectedOffset := 0, previousValid := false
        resetAfterTx := false } := by
    rw [bootMain, if_neg fun hc => hc.1 (by decide)]
  simp only [Sys.step, Sys.boot, hboot] at hinv ⊢
  exact ⟨hinv, rfl, rfl, Or.inl rfl⟩

/-- A reset leaves the flash. -/
theorem flash_of_reset (s : Sys) (d1 d2 : ℕ) :
    (s.step board (.reset d1 d2)).machine.flash = s.machine.flash := by
  obtain ⟨ph, r, -, heq⟩ := boot_eq board s d1 d2
  simp only [Sys.step, heq]

/-- A completed answer leaves the flash. -/
theorem flash_of_inComplete (s : Sys) : (s.step board .inComplete).machine.flash = s.machine.flash := by
  simp only [Sys.step]
  split
  · rfl
  split
  · obtain ⟨ph, r, -, heq⟩ := boot_eq board s 0 0
    rw [heq]
  · rfl

/-- A configuration leaves the flash. -/
theorem flash_of_configure (s : Sys) (c : ℕ) :
    (s.step board (.configure c)).machine.flash = s.machine.flash := by
  simp only [Sys.step]
  split <;> rfl

/-- **BEGIN.** -/
theorem step_begin (requestId : ℕ) (tape : ℕ → Option Outcome) (h : Waiting board s)
    (hid : IsId requestId) (hlen : header.length = 48)
    (hv : headerStructuralValid header = true) :
    Staged board header (s.step board (.packet (beginRequest requestId header) tape)) ∧
      (s.step board (.packet (beginRequest requestId header) tape)).machine.flash =
        s.machine.flash ∧
      Served board s (beginRequest requestId header) tape := by
  have hr : IsRequest opBegin (beginRequest requestId header) := isRequest_request hid (by omega)
  have hpay : packetPayload (beginRequest requestId header) = opBegin :: header :=
    payload_request (by omega)
  have hb : Begins { s.machine with tape }.ram (packetPayload (beginRequest requestId header)) :=
    ⟨by simp [hpay, hlen], h.state⟩
  have hrun : processBulkPacket board _ _ = _ := serve_begin hr hb (by rw [hpay]; exact hv)
  have hstep := step_packet h.phase hrun
  have hinv := inv_step h.inv (.packet (beginRequest requestId header) tape)
  rw [hstep] at hinv ⊢
  refine ⟨⟨hinv, h.phase, ?_, ?_, ?_⟩, rfl, _, hrun, ?_⟩
  · rw [respond_resetAfterTx]
    simp only [beginRam]
    exact h.calm
  · rw [respond_updateState]
    rfl
  · rw [respond_stagedHeader]
    simp only [beginRam, hpay, List.drop_succ_cons, List.drop_zero]
    exact toList_bytesCopy _ hlen
  · constructor <;> simp only [beginRam]

/-- A staged header with its tag passes the checks, where its version does. -/
theorem Staged.authorizes (h : Staged board header s)
    (htag : tag = (hmacHeader board.deusUpdateKey header).toList)
    (htarget : headerTargetValid board header = true)
    (hver : versionRejected (scanFlash board s.machine.flash) (imageVersion header) = false) :
    Authorizes board s.machine (packetPayload (authorizeRequest requestId tag)) := by
  have hlen : tag.length = 32 := by rw [htag, Vector.length_toList]
  have hpay : packetPayload (authorizeRequest requestId tag) = opAuthorize :: tag :=
    payload_request (by omega)
  have hheader := h.header
  exact
    { length := by simp [hpay, hlen]
      staged := h.state
      tag := by rw [hpay, hheader]; exact htag
      target := by rw [hheader]; exact htarget
      version := by rw [hheader]; exact hver }

/-- **AUTHORIZE** erases the target slot, where its checks are met, and opens a
session that has received nothing. -/
theorem step_authorize (requestId : ℕ) (tape : ℕ → Option Outcome) (h : Staged board header s)
    (hid : IsId requestId)
    (htag : tag = (hmacHeader board.deusUpdateKey header).toList)
    (htarget : headerTargetValid board header = true)
    (hver : versionRejected (scanFlash board s.machine.flash) (imageVersion header) = false)
    (hs : ∀ i, tape i = some Outcome.good) :
    ∃ mark, Receiving board ⟨header, tag, targetSlot board s.machine.flash, mark, []⟩
        (s.step board (.packet (authorizeRequest requestId tag) tape)) ∧
      (s.step board (.packet (authorizeRequest requestId tag) tape)).machine.flash =
        (Nor.Op.erase (targetSlot board s.machine.flash) 1024).apply s.machine.flash ∧
      Served board s (authorizeRequest requestId tag) tape := by
  have hlen : tag.length = 32 := by rw [htag, Vector.length_toList]
  have hr : IsRequest opAuthorize (authorizeRequest requestId tag) :=
    isRequest_request hid (by omega)
  have hpay : packetPayload (authorizeRequest requestId tag) = opAuthorize :: tag :=
    payload_request (by omega)
  have hdrop : (packetPayload (authorizeRequest requestId tag)).drop 1 = tag := by rw [hpay]; rfl
  have ha : Authorizes board { s.machine with tape }
      (packetPayload (authorizeRequest requestId tag)) :=
    authorizes_tape.2 (h.authorizes htag htarget hver)
  obtain ⟨m', hrun, hd⟩ := serve_authorize hr ha hs
  have hstep := step_packet h.phase hrun
  have hinv := inv_step h.inv (.packet (authorizeRequest requestId tag) tape)
  rw [hstep] at hinv ⊢
  refine ⟨m'.log.length, ⟨hinv, h.phase, ?_, Or.inl ?_, ?_⟩, hd.flash, _, hrun, ?_⟩
  · rw [respond_resetAfterTx]
    simp only [authorizedRam, authorizeRam, scanRam]
    exact h.calm
  · rw [respond_updateState]
    rfl
  · have hcopy := toList_bytesCopy s.machine.ram.stagedTag hlen
    have hheader := h.header
    rw [note_respond, note_authorize hr.opcode]
    simp only [authorizedRam, authorizeRam, scanRam, hdrop, hcopy, hheader]
  · constructor <;> simp only [authorizedRam, authorizeRam, scanRam]

/-- **DATA.** -/
theorem step_data {ses : Session} (requestId : ℕ) (data : List UInt8)
    (tape : ℕ → Option Outcome) (h : Receiving board ses s) (hid : IsId requestId)
    (hfits : ChunkFits ses.received.length data)
    (himage : ses.received.length + data.length ≤ imageLength ses.header)
    (hs : ∀ i, tape i = some Outcome.good) :
    Receiving board { ses with chunks := ses.chunks ++ [data] }
        (s.step board (.packet (dataRequest requestId ses.received.length data) tape)) ∧
      (s.step board (.packet (dataRequest requestId ses.received.length data) tape)).machine.flash =
        applyAll (chunkOps ses.received.length data) s.machine.flash ∧
      Served board s (dataRequest requestId ses.received.length data) tape := by
  obtain ⟨hinv₀, hp, hcalm, hl, rfl⟩ := h
  have ho : Open board s.machine s.session := (hinv₀ hp).live hl
  have happ := hfits.app
  have hle := hfits.len_le
  have hpos := hfits.len_pos
  have hr : IsRequest opData (dataRequest requestId s.session.received.length data) :=
    isRequest_request hid (by simp; omega)
  have hpay : packetPayload (dataRequest requestId s.session.received.length data) =
      opData :: (write16 s.session.received.length ++ data) :=
    payload_request (by simp; omega)
  have hoff : dataOffset (packetPayload (dataRequest requestId s.session.received.length data)) =
      s.session.received.length := by
    rw [hpay]
    exact dataOffset_data (by simp only [appMaxBytes] at happ; omega) data
  have hbytes : dataBytes (packetPayload (dataRequest requestId s.session.received.length data)) =
      data := by
    rw [hpay]
    rfl
  have hfresh : dataRepeats s.machine.ram
      (packetPayload (dataRequest requestId s.session.received.length data)) = false := by
    by_contra hrep
    exact ho.repeats_ne (by simpa using hrep) (hoff.trans ho.offset.symm)
  have ha : Accepts { s.machine with tape }.ram
      (packetPayload (dataRequest requestId s.session.received.length data)) :=
    { live := hl
      fits := by rw [hoff, hbytes]; exact hfits
      image := by
        rw [hoff, hbytes]
        show _ ≤ imageLength s.machine.ram.stagedHeader.toList
        rw [ho.header]
        exact himage
      fresh := hfresh
      next := hoff.trans ho.offset.symm }
  obtain ⟨m', hrun, hd⟩ := serve_data (ho.aside s.machine.ram tape) hr ha hs
  have hstep := step_packet hp hrun
  have hinv := inv_step hinv₀ (.packet (dataRequest requestId s.session.received.length data) tape)
  rw [hstep] at hinv ⊢
  refine ⟨⟨hinv, hp, ?_, Or.inr ?_, ?_⟩, ?_, _, hrun, ?_⟩
  · rw [respond_resetAfterTx]
    simp only [dataRam]
    exact hcalm
  · rw [respond_updateState]
    rfl
  · simp only [note_respond]
    rw [note_data hr.opcode (hoff.trans ho.offset.symm), hbytes]
  · rw [hoff, hbytes] at hd
    exact hd.flash
  · constructor <;> simp only [dataRam, aside]

/-- **END**: the session is committed, and the other slot is as it was. -/
theorem step_end {ses : Session} (requestId : ℕ) (tape : ℕ → Option Outcome)
    (h : Receiving board ses s) (hid : IsId requestId)
    (hcount : ses.received.length = imageLength ses.header)
    (hdigest : (sha256Memory ses.received).toList = imageDigest ses.header)
    (hvec : vectorsValid s.machine.flash (imageLength ses.header) = true)
    (hs : ∀ i, tape i = some Outcome.good) :
    (s.step board (.packet (endRequest requestId) tape)).Inv board ∧
      Installed board (s.step board (.packet (endRequest requestId) tape)).machine.flash ses ∧
      Committed board (s.step board (.packet (endRequest requestId) tape)).machine.flash ses ∧
      (∀ x, x < ses.slot ∨ ses.slot + 82 ≤ x →
        (s.step board (.packet (endRequest requestId) tape)).machine.flash x = s.machine.flash x) ∧
      Served board s (endRequest requestId) tape := by
  obtain ⟨hinv₀, hp, -, hl, rfl⟩ := h
  have ho : Open board { s.machine with tape } s.session :=
    ((hinv₀ hp).live hl).aside s.machine.ram tape
  have hr : IsRequest opEnd (endRequest requestId) := isRequest_request hid (by simp)
  have hpay : packetPayload (endRequest requestId) = [opEnd] := payload_request (by simp)
  have hc : Commits { s.machine with tape } := ho.commits hl hcount hdigest hvec
  obtain ⟨m', hrun, hd⟩ := serve_end ho hr (by rw [hpay]; rfl) hc hs
  have hstep := step_packet hp hrun
  have hinv := inv_step hinv₀ (.packet (endRequest requestId) tape)
  have hflash : (s.step board (.packet (endRequest requestId) tape)).machine.flash =
      applyAll (endOps { s.machine with tape }.ram) { s.machine with tape }.flash := by
    rw [hstep]
    exact hd.flash
  rw [hflash]
  refine ⟨hinv, ho.installed hc, ho.committed hc, fun x hx => ?_, _, hrun, ?_⟩
  · exact ho.applyAll_endOps_of_outside (fun o h => h) hx _
  · constructor <;> simp only [committedRam, endRam]

end Update

end DeusOs
