import DeusOs.Common.Crc16
import DeusOs.Common.LittleEndian

/-!
# The kernel — the management channel and the way into the bootloader

`usb_management.c` where it answers `ENTER_BOOTLOADER` and resets, and the
transmit half of the management endpoint in `usb_device.c`. The ring is the
list of its bytes from the tail to the head. Interrupts may come between the
steps a thread makes, so handling a request is cut where the source reads or
writes what they share.
-/

namespace DeusOs

namespace Kernel

open LittleEndian (write16)

/-- `USB_MANAGEMENT_MAX_PACKET`. -/
abbrev maxPacket : ℕ := 64
/-- `USB_MANAGEMENT_TX_RING_CAPACITY`. -/
abbrev txRingCapacity : ℕ := 1024
/-- `FIRMWARE_UPDATE_RESET_FALLBACK_MS`. -/
abbrev resetFallbackMs : ℕ := 250
/-- `FIRMWARE_UPDATE_RESPONSE_WIRE_BYTES`. -/
abbrev responseWireBytes : ℕ := 28

/-! ## The transmit ring -/

/-- The transmit half of the management endpoint, and what the host has
received of it. -/
structure Usb where
  /-- `usb_management_is_configured`. -/
  configured : Bool
  /-- The ring, from `usb_management_tx_tail` to `usb_management_tx_head`. -/
  queue : List UInt8 := []
  inflight : ℕ := 0
  active : Bool := false
  packetCount : UInt32 := 0
  /-- The bytes of the IN packets that have completed. -/
  delivered : List UInt8 := []
  deriving DecidableEq, Repr

/-- `usb_management_tx_kick`. -/
def Usb.txKick (u : Usb) : Usb :=
  if u.configured = false ∨ u.active = true then u
  else if u.queue.length = 0 then u
  else
    let length := if maxPacket < u.queue.length then maxPacket else u.queue.length
    { u with inflight := length, active := true }

/-- `usb_management_handle_in`. -/
def Usb.handleIn (u : Usb) : Usb :=
  let u :=
    if u.active = true then
      { u with
          queue := u.queue.drop u.inflight
          packetCount := u.packetCount + 1
          delivered := u.delivered ++ u.queue.take u.inflight
          inflight := 0
          active := false }
    else u
  u.txKick

/-- `usb_management_write_span_atomic`, and whether it took the bytes. -/
def Usb.writeSpanAtomic (u : Usb) (data : List UInt8) : Usb × Bool :=
  if data.length = 0 then (u, true)
  else if u.configured = false ∨ txRingCapacity < data.length ∨ txRingCapacity < u.queue.length ∨
      txRingCapacity - u.queue.length < data.length then (u, false)
  else (Usb.txKick { u with queue := u.queue ++ data }, true)

/-! ## The answer -/

/-- `binary_frame_view_t` of a firmware update request. -/
structure FrameView where
  version : UInt8
  flags : UInt8
  reserved : UInt8
  requestId : UInt16
  payload : List UInt8
  deriving DecidableEq, Repr

namespace UpdateStatus

/-- `FIRMWARE_UPDATE_STATUS_OK`. -/
abbrev ok : UInt8 := 0x00
/-- `FIRMWARE_UPDATE_STATUS_INVALID_STATE`. -/
abbrev invalidState : UInt8 := 0x01
/-- `FIRMWARE_UPDATE_STATUS_BAD_LENGTH`. -/
abbrev badLength : UInt8 := 0x02
/-- `FIRMWARE_UPDATE_STATUS_BAD_FLAGS`. -/
abbrev badFlags : UInt8 := 0x03
/-- `FIRMWARE_UPDATE_STATUS_BAD_HEADER`. -/
abbrev badHeader : UInt8 := 0x04

end UpdateStatus

/-- `FIRMWARE_UPDATE_OPCODE_ENTER_BOOTLOADER`. -/
abbrev opcodeEnterBootloader : UInt8 := 0x01
/-- `FIRMWARE_UPDATE_STATE_RESETTING`. -/
abbrev stateResetting : UInt8 := 0x80

/-- The frame `firmware_update_send_response` finalises in its wire buffer, of
whose payload only the first four bytes are ever written. -/
def responseWire (requestId : UInt16) (status state : UInt8) : List UInt8 :=
  let body : List UInt8 :=
    [1, 0x86, 0, 0] ++ write16 requestId.toNat ++ write16 16 ++
      [opcodeEnterBootloader, status, state, 0] ++ List.replicate 12 0
  [0xA5, 0x5A] ++ body ++ write16 (Crc16.ccittFalse body).toNat

/-- The status `firmware_update_handle_runtime_frame` gives a request by its
header and payload. -/
def requestStatus (frame : FrameView) : UInt8 :=
  if frame.version ≠ 1 ∨ frame.requestId = 0 then UpdateStatus.badHeader
  else if frame.flags ≠ 1 ∨ frame.reserved ≠ 0 then UpdateStatus.badFlags
  else if frame.payload.length ≠ 1 then UpdateStatus.badLength
  else if frame.payload.getD 0 0 ≠ opcodeEnterBootloader then UpdateStatus.invalidState
  else UpdateStatus.ok

/-! ## The runtime -/

/-- An `ENTER_BOOTLOADER` that was accepted: its answer, the place of the
answer in the stream of transmitted bytes, and the time the reset was set
for. -/
structure Accepted where
  response : List UInt8
  offset : ℕ
  time : ℕ
  deriving DecidableEq, Repr

/-- Where the thread is in `usb_management_runtime_service`. -/
inductive Thread
  /-- Between two frames, or outside. -/
  | idle
  /-- In `firmware_update_handle_runtime_frame`, the baseline read. -/
  | accepting (frame : FrameView)
  /-- There, the answer sent, from this place of the stream on. -/
  | answered (frame : FrameView) (offset : ℕ)
  /-- Behind it, before `firmware_update_reset_service`. -/
  | checking
  deriving DecidableEq, Repr

/-- The runtime; `now` is the time without the wrap of `kernel_ticks`. -/
structure Runtime where
  usb : Usb
  now : ℕ := 0
  thread : Thread := .idle
  resetPending : Bool := false
  baseline : UInt32 := 0
  deadline : UInt32 := 0
  accepted : Option Accepted := none
  /-- The time of `firmware_update_system_reset`, after which nothing happens. -/
  resetAt : Option ℕ := none
  deriving DecidableEq, Repr

/-- `kernel_time_now`. -/
def Runtime.timeNow (r : Runtime) : UInt32 := UInt32.ofNat r.now

/-- `kernel_time_reached`. -/
def timeReached (now deadline : UInt32) : Bool := (now - deadline).toNat < 0x80000000

/-- `firmware_update_reset_service`. -/
def Runtime.resetService (r : Runtime) : Runtime :=
  if r.resetPending = false then r
  else if r.usb.packetCount ≠ r.baseline then { r with resetAt := some r.now }
  else if timeReached r.timeNow r.deadline then { r with resetAt := some r.now }
  else r

/-- What `firmware_update_send_response` sends, and whether it was taken. -/
def Runtime.sendResponse (r : Runtime) (requestId : UInt16) (status state : UInt8) :
    Runtime × Bool :=
  let w := r.usb.writeSpanAtomic (responseWire requestId status state)
  ({ r with usb := w.1 }, w.2)

/-- `firmware_update_handle_runtime_frame`, to where it reads the baseline. -/
def Runtime.updateRequest (r : Runtime) (frame : FrameView) : Runtime :=
  if requestStatus frame ≠ UpdateStatus.ok then
    { (r.sendResponse frame.requestId (requestStatus frame) 0).1 with thread := .checking }
  else if r.resetPending = true then
    { (r.sendResponse frame.requestId UpdateStatus.invalidState stateResetting).1 with
      thread := .checking }
  else { r with baseline := r.usb.packetCount, thread := .accepting frame }

/-- The next step of the request in hand. -/
def Runtime.proceed (r : Runtime) : Runtime :=
  match r.thread with
  | .idle => r
  | .accepting frame =>
    let s := r.sendResponse frame.requestId UpdateStatus.ok stateResetting
    { s.1 with
      thread :=
        if s.2 = false then .checking
        else .answered frame (r.usb.delivered.length + r.usb.queue.length) }
  | .answered frame offset =>
    { r with
      deadline := r.timeNow + UInt32.ofNat resetFallbackMs
      resetPending := true
      thread := .checking
      accepted := some
        { response := responseWire frame.requestId UpdateStatus.ok stateResetting
          offset, time := r.now } }
  | .checking => { r.resetService with thread := .idle }

/-- What can happen: the clock advances, an IN packet completes, the service
is called, a frame is taken from the receive ring, and the thread goes on with
the request in hand. A frame of another kind sends what it sends. -/
inductive UsbEvent
  | tick (ms : ℕ)
  | inComplete
  | service
  | updateRequest (frame : FrameView)
  | otherFrame (spans : List (List UInt8))
  | proceed
  deriving DecidableEq, Repr

/-- One event. The thread takes a frame or starts the service only when it
has none in hand. -/
def Runtime.step (r : Runtime) (e : UsbEvent) : Runtime :=
  if r.resetAt.isSome then r
  else
    match e with
    | .tick ms => { r with now := r.now + ms }
    | .inComplete => { r with usb := r.usb.handleIn }
    | .service => if r.thread = .idle then r.resetService else r
    | .updateRequest frame => if r.thread = .idle then r.updateRequest frame else r
    | .otherFrame spans =>
      if r.thread = .idle then
        { r with usb := spans.foldl (fun u s => (u.writeSpanAtomic s).1) r.usb }
      else r
    | .proceed => r.proceed

/-- The runtime after `usb_management_runtime_init`, at any time. -/
def Runtime.init (configured : Bool) (now : ℕ) : Runtime := { usb := { configured }, now }

/-- A run. -/
def Runtime.run (r : Runtime) (events : List UsbEvent) : Runtime := events.foldl Runtime.step r

end Kernel

end DeusOs
