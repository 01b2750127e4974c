import DeusOs.Bootloader.Model.Handlers

/-!
# The bootloader — packets, boot, and runs

`process_bulk_packet` over the handlers, `boot_main`, and the system they
make: a device that is off, runs the application, or serves update
packets. A step is a packet with the fate of each flash operation it
issues, the completion of the response, a bus configuration, or a reset.
Where a packet's operations run out of power the device is off, and the
flash is what it was at that operation.

`Session` is a history variable. It records what the accepted requests of
the current session were, as a host would; no handler reads it.
-/

namespace DeusOs

namespace Bootloader

open Nor (Mem Prog Machine Outcome Entry)

variable (board : Board)

/-- `build_response`. -/
def buildResponse (r : BootRam) (requestId : ℕ) (opcode : UInt8) (status : Status) : List UInt8 :=
  let eo := if r.updateState = .authorized ∨ r.updateState = .receiving then r.expectedOffset else 0
  let body : List UInt8 :=
    [1, 0x86, 0, 0] ++ storeLe16 requestId ++ storeLe16 16 ++
      [opcode, status.code, r.updateState.code, 0] ++ storeLe16 eo ++ [0, 0] ++
      storeLe32 r.versionFloor ++ storeLe32 r.committedVersion
  [0xA5, 0x5A] ++ body ++ storeLe16 (crc16Ccitt body).toNat

/-- `bulk_send`. -/
def bulkSend (d : List UInt8) : Prog BootRam Bool := do
  let r ← Prog.ram
  if r.usbConfiguration ≠ 1 ∨ r.usbTxActive ∨ 64 < d.length then pure false
  else
    Prog.modifyRam fun r => { r with ep1Tx := r.ep1Tx ++ [d], usbTxActive := true }
    pure true

/-- The checks of `process_bulk_packet` before any opcode is looked at:
length, magic, version, type, reserved byte, request id, payload length
and checksum. -/
def packetAccepted (rx : List UInt8) : Bool :=
  let n := rx.length
  let payload := loadLe16 rx 8
  decide (12 ≤ n) && decide (n ≤ 64) &&
    rx.getD 0 0 == 0xA5 && rx.getD 1 0 == 0x5A && rx.getD 2 0 == 1 && rx.getD 3 0 == 0x04 &&
    rx.getD 5 0 == 0 && loadLe16 rx 6 != 0 && decide (payload ≤ 52) && n == 12 + payload &&
    payload != 0 &&
    (crc16Ccitt ((rx.drop 2).take (8 + payload))).toNat == loadLe16 rx (10 + payload)

/-- The payload of a packet, opcode byte first. -/
def packetPayload (rx : List UInt8) : List UInt8 := (rx.drop 10).take (loadLe16 rx 8)

/-- The opcode of a packet. -/
def packetOpcode (rx : List UInt8) : UInt8 := rx.getD 10 0

/-- `OP_INFO` … `OP_END`. -/
def opInfo : UInt8 := 0x02
/-- `OP_BEGIN`. -/
def opBegin : UInt8 := 0x03
/-- `OP_AUTHORIZE`. -/
def opAuthorize : UInt8 := 0x04
/-- `OP_DATA`. -/
def opData : UInt8 := 0x05
/-- `OP_END`. -/
def opEnd : UInt8 := 0x06

/-- The opcode switch of `process_bulk_packet`. -/
def dispatch (rx : List UInt8) : Prog BootRam Status :=
  let flags := rx.getD 4 0
  let opcode := packetOpcode rx
  let p := packetPayload rx
  if opcode = opInfo then
    if flags ≠ 0 then pure .badFlags
    else if p.length ≠ 1 then pure .badLength
    else do
      scanMetadata board
      pure .ok
  else if flags ≠ 1 then pure .badFlags
  else if opcode = opBegin then handleBegin p
  else if opcode = opAuthorize then handleAuthorize board p
  else if opcode = opData then handleData p
  else if opcode = opEnd then handleEnd p.length
  else pure .invalidState

/-- `process_bulk_packet`. `none` is its `0`; otherwise the status of the
response it built. -/
def processBulkPacket (rx : List UInt8) : Prog BootRam (Option Status) :=
  if ¬ packetAccepted rx then pure none
  else do
    let status ← dispatch board rx
    let r ← Prog.ram
    let _ ← bulkSend (buildResponse r (loadLe16 rx 6) (packetOpcode rx) status)
    pure (some status)

/-- `consume_update_token`: the two backup registers hold the token. -/
def consumeUpdateToken (bkpDr1 bkpDr2 : ℕ) : Bool := bkpDr1 == 0xD35A && bkpDr2 == 0x2CA5

/-- Where `boot_main` goes: to the application, with the stack pointer and
the entry it reads from the vector table, or into the update loop. -/
inductive Boot
  | handoffApp (msp reset : ℕ) (ram : BootRam)
  | updateLoop (ram : BootRam)

/-- The static variables after `scan_metadata` on freshly zeroed RAM. -/
def bootRam (f : Mem) : BootRam :=
  let s := scanFlash board f
  { BootRam.zero with
    versionFloor := s.versionFloor
    highestFloorSlot := s.highestFloorSlot
    committedVersion := s.committedVersion }

/-- `boot_main`, up to the hand-off or the poll loop. The clock is taken
to start: where it does not, no packet is ever served. -/
def bootMain (f : Mem) (bkpDr1 bkpDr2 : ℕ) : Boot :=
  let r := bootRam board f
  if ¬ consumeUpdateToken bkpDr1 bkpDr2 ∧ r.committedVersion ≠ 0 then
    .handoffApp (word f appBase) (word f (appBase + 4)) r
  else
    .updateLoop { r with
      updateState := .recoveryIdle
      expectedOffset := 0
      previousValid := false
      resetAfterTx := false }

/-! ## The system -/

/-- What the device is doing. -/
inductive Phase
  | off | application | update
  deriving DecidableEq, Repr

/-- What the requests accepted since the last accepted AUTHORIZE were: the
header and tag it was for, the slot it erased, where the log stood when
it answered, and the DATA chunks accepted in sequence since. -/
structure Session where
  header : List UInt8
  tag : List UInt8
  slot : ℕ
  mark : ℕ
  chunks : List (List UInt8)

/-- The device, with the session as a history variable. -/
structure Sys where
  phase : Phase
  machine : Machine BootRam
  session : Session

/-- A device that has never been powered, over a given flash. -/
def Sys.unpowered (f : Mem) : Sys :=
  ⟨.off, ⟨f, BootRam.zero, [], fun _ => none⟩, ⟨[], [], 0, 0, []⟩⟩

/-- What happens to the device: a packet arrives on the bulk endpoint and
its operations meet the fates on the tape; the response has been read
(`handle_ep1_tx`); the host selects a configuration; a reset, with the
backup registers it finds. -/
inductive Event
  | packet (rx : List UInt8) (tape : ℕ → Option Outcome)
  | inComplete
  | configure (c : ℕ)
  | reset (bkpDr1 bkpDr2 : ℕ)

/-- The history of a served request: an accepted AUTHORIZE opens a session,
a DATA accepted at the expected offset adds its chunk. -/
def Session.note (s : Session) (rx : List UInt8) (before after : Machine BootRam)
    (answer : Option Status) : Session :=
  if answer = some .ok ∧ packetOpcode rx = opAuthorize then
    { header := after.ram.stagedHeader.toList, tag := after.ram.stagedTag.toList
      slot := after.ram.targetMetadataSlot, mark := after.log.length, chunks := [] }
  else if answer = some .ok ∧ packetOpcode rx = opData ∧
      dataOffset (packetPayload rx) = before.ram.expectedOffset then
    { s with chunks := s.chunks ++ [dataBytes (packetPayload rx)] }
  else s

/-- A reset: the boot decision, from the flash and the backup registers. -/
def Sys.boot (s : Sys) (bkpDr1 bkpDr2 : ℕ) : Sys :=
  match bootMain board s.machine.flash bkpDr1 bkpDr2 with
  | .handoffApp _ _ r => { s with phase := .application, machine := { s.machine with ram := r } }
  | .updateLoop r => { s with phase := .update, machine := { s.machine with ram := r } }

/-- One step. Packets and endpoint events reach the bootloader only while
it is serving updates. -/
def Sys.step (s : Sys) : Event → Sys
  | .packet rx tape =>
    if s.phase ≠ .update then s
    else match processBulkPacket board rx { s.machine with tape } with
      | .ok answer m => { s with machine := m, session := s.session.note rx s.machine m answer }
      | .error _ m => { s with phase := .off, machine := m }
  | .inComplete =>
    if s.phase ≠ .update then s
    -- `handle_ep1_tx`: a committed update resets here, its token consumed at boot
    else if s.machine.ram.resetAfterTx then s.boot board 0 0
    else { s with machine := { s.machine with ram := { s.machine.ram with usbTxActive := false } } }
  | .configure c =>
    if s.phase ≠ .update then s
    else { s with machine := { s.machine with ram :=
      { s.machine.ram with
        usbConfiguration := c
        usbTxActive := if c = 1 then s.machine.ram.usbTxActive else false } } }
  | .reset bkpDr1 bkpDr2 => s.boot board bkpDr1 bkpDr2

/-- A run. -/
def Sys.run (s : Sys) (evs : List Event) : Sys := evs.foldl (Sys.step board) s

end Bootloader

end DeusOs
