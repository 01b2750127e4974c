import DeusOs.Bootloader.Model.System
import DeusOs.Common.Mailbox
import DeusOs.Host.Model.FirmwareUpdate

/-!
# The update link — the host's transport over a device

The device of `Bootloader.Sys` behind the two bulk pipes. A request the
host has written is in flight until it is delivered to the device or
lost; a response is armed on the endpoint until the host controller
collects it, and in flight until it is handed to a read or lost. Each
packet is delivered at most once; when, and in which order, is up to the
events. The device refuses packets while a response is armed: its
endpoint answers NAK from the request until the response is collected.
-/

namespace DeusOs

namespace Update

open Bootloader Host
open Mailbox (pick discard)
open Nor (Outcome)

/-- The device and the packets in flight. -/
structure Link where
  device : Sys
  requests : List (List UInt8)
  responses : List (List UInt8)

/-- The request id a packet carries. -/
def wireId (packet : List UInt8) : ℕ := loadLe16 packet 6

/-- The endpoint is busy with a response. -/
def Busy (s : Sys) : Prop := s.phase = .update ∧ s.machine.ram.usbTxActive = true

instance (s : Sys) : Decidable (Busy s) :=
  inferInstanceAs (Decidable (s.phase = .update ∧ s.machine.ram.usbTxActive = true))

/-- The response armed on the IN endpoint. -/
def armed (s : Sys) : Option (List UInt8) :=
  if Busy s then s.machine.ram.ep1Tx.getLast? else none

/-- What happens on the link: the request with an id is delivered, or lost;
the armed response is collected; the response with an id is lost, or
handed to the host; the host's timeout runs out, its caller cancels, or
the port closes; the host controller configures the device, or it is
reset. -/
inductive LinkEvent
  | deliver (id : ℕ) (tape : ℕ → Option Outcome)
  | dropRequest (id : ℕ)
  | collect
  | dropResponse (id : ℕ)
  | read (id : ℕ)
  | timeout
  | cancel
  | close
  | configure (c : ℕ)
  | reset (bkpDr1 bkpDr2 : ℕ)

variable (board : Board)

/-- A request reaches the device. -/
def Link.deliver (l : Link) (id : ℕ) (tape : ℕ → Option Outcome) : Link :=
  if Busy l.device then l
  else match pick wireId id l.requests with
    | none => l
    | some rx => { l with
        requests := discard wireId id l.requests
        device := l.device.step board (.packet rx tape) }

/-- The armed response leaves the endpoint. -/
def Link.collect (l : Link) : Link :=
  match armed l.device with
  | none => l
  | some tx => { l with
      device := l.device.step board .inComplete
      responses := l.responses ++ [tx] }

/-- The link as the host's transport. -/
def link : Transport Link LinkEvent where
  write data l := { l with requests := l.requests ++ [data] }
  event ev l := match ev with
    | .deliver id tape => (l.deliver board id tape, none)
    | .dropRequest id => ({ l with requests := discard wireId id l.requests }, none)
    | .collect => (l.collect board, none)
    | .dropResponse id => ({ l with responses := discard wireId id l.responses }, none)
    | .read id => match pick wireId id l.responses with
      | none => (l, none)
      | some tx => ({ l with responses := discard wireId id l.responses }, some (.bytes tx))
    | .timeout => (l, some .timedOut)
    | .cancel => (l, some .cancelled)
    | .close => (l, some (.bytes []))
    | .configure c => ({ l with device := l.device.step board (.configure c) }, none)
    | .reset d1 d2 => ({ l with device := l.device.step board (.reset d1 d2) }, none)

end Update

end DeusOs
