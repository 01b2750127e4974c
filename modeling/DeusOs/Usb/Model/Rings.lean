import Mathlib.Data.Nat.Notation
import Mathlib.Logic.Function.Basic

/-!
# USB — the rings of the management endpoint

`usb_device.c`, the bulk endpoint: `usb_management_tx_kick`,
`usb_management_handle_out`, `usb_management_handle_in`,
`usb_management_try_getc` and `usb_management_write_span_atomic`. Heads and
tails run freely in 32 bits; a byte's cell is its counter under the mask of
the ring. The packet memory takes halfwords; an odd packet leaves the upper
half of its last word zero.
-/

namespace DeusOs

namespace Usb

/-- `USB_MANAGEMENT_MAX_PACKET`. -/
abbrev maxPacket : ℕ := 64
/-- `USB_MANAGEMENT_RX_RING_CAPACITY`. -/
abbrev rxRingCapacity : ℕ := 512
/-- `USB_MANAGEMENT_RX_RING_MASK`. -/
abbrev rxRingMask : UInt32 := 511
/-- `USB_MANAGEMENT_TX_RING_CAPACITY`. -/
abbrev txRingCapacity : ℕ := 1024
/-- `USB_MANAGEMENT_TX_RING_MASK`. -/
abbrev txRingMask : UInt32 := 1023
/-- `USB_EP4_RX_LOCAL`. -/
abbrev ep4RxLocal : ℕ := 0x180
/-- `USB_EP4_TX_LOCAL`. -/
abbrev ep4TxLocal : ℕ := 0x1C0
/-- `USB_COUNT_MASK`. -/
abbrev countMask : UInt16 := 0x03FF

/-- The packet memory: the halfword at each even local offset. -/
abbrev Pma := ℕ → UInt16

/-- The byte of the packet memory at an offset: the lower half of a word
comes first. -/
def Pma.byte (pma : Pma) (local_ index : ℕ) : UInt8 :=
  if index % 2 = 0 then (pma (local_ + index)).toUInt8
  else (pma (local_ + (index - 1)) >>> 8).toUInt8

/-- The `count` bytes of the packet memory from an offset on. -/
def Pma.packet (pma : Pma) (local_ count : ℕ) : List UInt8 :=
  (List.range count).map (pma.byte local_)

/-- The fields of `usb_device_diagnostics` the rings keep. -/
structure RingDiagnostics where
  managementRxPacketCount : UInt32 := 0
  managementRxByteCount : UInt32 := 0
  managementRxHighWater : UInt32 := 0
  managementRxDropCount : UInt32 := 0
  managementTxPacketCount : UInt32 := 0
  managementTxByteCount : UInt32 := 0
  managementTxHighWater : UInt32 := 0
  managementTxDropCount : UInt32 := 0
  deriving DecidableEq, Repr

/-- The management endpoint. -/
structure Rings where
  /-- `usb_management_is_configured`. -/
  configured : Bool
  rxRing : ℕ → UInt8 := fun _ => 0
  rxHead : UInt32 := 0
  rxTail : UInt32 := 0
  txRing : ℕ → UInt8 := fun _ => 0
  txHead : UInt32 := 0
  txTail : UInt32 := 0
  txInflight : UInt16 := 0
  txActive : Bool := false
  /-- The packet memory the IN packets are sent from. -/
  pma : Pma := fun _ => 0
  /-- `USB_BTABLE_EP_TX_COUNT`. -/
  txCount : UInt16 := 0
  /-- The packets in the packet memory when `USB_EP_STAT_TX_VALID` was set. -/
  handed : List (List UInt8) := []
  /-- The calls of `usb_management_rx_notify`. -/
  notified : ℕ := 0
  diagnostics : RingDiagnostics := {}

/-- The halfword `usb_management_tx_kick` packs at an even index. -/
def txWord (ring : ℕ → UInt8) (tail : UInt32) (length index : ℕ) : UInt16 :=
  let word := (ring ((tail + UInt32.ofNat index) &&& txRingMask).toNat).toUInt16
  if index + 1 < length then
    word ||| (ring ((tail + UInt32.ofNat index + 1) &&& txRingMask).toNat).toUInt16 <<< 8
  else word

/-- The loop of `usb_management_tx_kick`: `(length + 1) / 2` halfwords. -/
def txLoad (ring : ℕ → UInt8) (tail : UInt32) (length : ℕ) (pma : Pma) : Pma :=
  (List.range ((length + 1) / 2)).foldl
    (fun pma k => Function.update pma (ep4TxLocal + 2 * k) (txWord ring tail length (2 * k))) pma

/-- `usb_management_tx_kick`. -/
def Rings.txKick (r : Rings) : Rings :=
  if r.configured = false ∨ r.txActive = true then r
  else
    let available := r.txHead - r.txTail
    if available = 0 then r
    else
      let length := if maxPacket < available.toNat then maxPacket else available.toNat
      let pma := txLoad r.txRing r.txTail length r.pma
      { r with
          pma := pma
          txCount := UInt16.ofNat length
          txInflight := UInt16.ofNat length
          txActive := true
          handed := r.handed ++ [pma.packet ep4TxLocal (UInt16.ofNat length).toNat] }

/-- `usb_management_handle_in`. -/
def Rings.handleIn (r : Rings) : Rings :=
  let r :=
    if r.txActive = true then
      { r with
          txTail := r.txTail + r.txInflight.toUInt32
          diagnostics :=
            { r.diagnostics with
                managementTxPacketCount := r.diagnostics.managementTxPacketCount + 1
                managementTxByteCount :=
                  r.diagnostics.managementTxByteCount + r.txInflight.toUInt32 }
          txInflight := 0
          txActive := false }
    else r
  r.txKick

/-- The loop of `usb_management_handle_out`. -/
structure OutLoop where
  rings : Rings
  word : UInt16 := 0
  accepted : UInt32 := 0

/-- Its body, of the byte it takes: kept where the ring has room. -/
def Rings.takeByte (r : Rings) (byte : UInt8) : Rings :=
  let depth := r.rxHead - r.rxTail
  if depth.toNat < rxRingCapacity then
    { r with
        rxRing := Function.update r.rxRing (r.rxHead &&& rxRingMask).toNat byte
        rxHead := r.rxHead + 1
        diagnostics :=
          { r.diagnostics with
              managementRxHighWater :=
                if r.diagnostics.managementRxHighWater < depth + 1 then depth + 1
                else r.diagnostics.managementRxHighWater } }
  else
    { r with
        diagnostics :=
          { r.diagnostics with
              managementRxDropCount := r.diagnostics.managementRxDropCount + 1 } }

/-- Its body, which reads a halfword at every even index. -/
def outStep (pma : Pma) (s : OutLoop) (index : ℕ) : OutLoop :=
  let word := if index % 2 = 0 then pma (ep4RxLocal + index) else s.word
  let byte := if index % 2 = 0 then (word &&& 0xFF).toUInt8 else (word >>> 8).toUInt8
  { rings := s.rings.takeByte byte
    word := word
    accepted :=
      if (s.rings.rxHead - s.rings.rxTail).toNat < rxRingCapacity then s.accepted + 1
      else s.accepted }

/-- `usb_management_handle_out`, by the received packet in the packet memory
and `USB_BTABLE_EP_RX_COUNT`. -/
def Rings.handleOut (r : Rings) (pma : Pma) (rxCount : UInt16) : Rings :=
  let count := rxCount &&& countMask
  let r :=
    { r with
        diagnostics :=
          { r.diagnostics with
              managementRxPacketCount := r.diagnostics.managementRxPacketCount + 1
              managementRxByteCount := r.diagnostics.managementRxByteCount + count.toUInt32 } }
  let s := (List.range count.toNat).foldl (outStep pma) { rings := r }
  if s.accepted ≠ 0 then { s.rings with notified := s.rings.notified + 1 } else s.rings

/-- `usb_management_try_getc`, into a buffer that is there, and the byte it
read. -/
def Rings.tryGetc (r : Rings) : Rings × Option UInt8 :=
  if r.rxTail = r.rxHead then (r, none)
  else ({ r with rxTail := r.rxTail + 1 }, some (r.rxRing (r.rxTail &&& rxRingMask).toNat))

/-- The loop of `usb_management_write_span_atomic`. -/
def storeSpan (ring : ℕ → UInt8) (head : UInt32) (data : List UInt8) : ℕ → UInt8 :=
  (List.range data.length).foldl
    (fun ring index =>
      Function.update ring ((head + UInt32.ofNat index) &&& txRingMask).toNat (data.getD index 0))
    ring

/-- `usb_management_write_span_atomic`, of a span that is there, and what it
answers. -/
def Rings.writeSpanAtomic (r : Rings) (data : List UInt8) : Rings × Bool :=
  let depth := r.txHead - r.txTail
  if data.length = 0 then (r, true)
  else if r.configured = false ∨ txRingCapacity < data.length ∨ txRingCapacity < depth.toNat ∨
      txRingCapacity - depth.toNat < data.length then
    ({ r with
        diagnostics :=
          { r.diagnostics with
              managementTxDropCount :=
                r.diagnostics.managementTxDropCount + UInt32.ofNat data.length } }, false)
  else
    let nextDepth := depth + UInt32.ofNat data.length
    (Rings.txKick
      { r with
          txRing := storeSpan r.txRing r.txHead data
          txHead := r.txHead + UInt32.ofNat data.length
          diagnostics :=
            { r.diagnostics with
                managementTxHighWater :=
                  if r.diagnostics.managementTxHighWater < nextDepth then nextDepth
                  else r.diagnostics.managementTxHighWater } }, true)

/-! ## Runs -/

/-- What may come at the endpoint while it is configured, in any order. -/
inductive RingEvent
  /-- A call of `usb_management_write_span_atomic`. -/
  | writeSpan (data : List UInt8)
  /-- An IN completion. -/
  | inCompletion
  /-- An OUT packet, as it lies in the packet memory. -/
  | outPacket (pma : Pma) (rxCount : UInt16)
  /-- A call of `usb_management_try_getc`. -/
  | tryGetc

/-- The rings and the record of a run: the spans that were answered 1, the
packets the endpoint sent, the OUT bytes that arrived while fewer than 512
were unread, and the bytes that were read. -/
structure RingRun where
  rings : Rings := { configured := true }
  accepted : List (List UInt8) := []
  completed : ℕ := 0
  kept : List UInt8 := []
  read : List UInt8 := []

/-- A byte that arrives counts as kept where fewer than 512 are unread. -/
def keep (read : ℕ) (kept : List UInt8) (byte : UInt8) : List UInt8 :=
  if kept.length - read < rxRingCapacity then kept ++ [byte] else kept

/-- One event. -/
def RingRun.step (s : RingRun) : RingEvent → RingRun
  | .writeSpan data =>
    let answer := s.rings.writeSpanAtomic data
    { s with
        rings := answer.1
        accepted := if answer.2 = true then s.accepted ++ [data] else s.accepted }
  | .inCompletion =>
    { s with
        rings := s.rings.handleIn
        completed := if s.completed < s.rings.handed.length then s.completed + 1 else s.completed }
  | .outPacket pma rxCount =>
    { s with
        rings := s.rings.handleOut pma rxCount
        kept := (pma.packet ep4RxLocal (rxCount &&& countMask).toNat).foldl (keep s.read.length)
          s.kept }
  | .tryGetc =>
    let answer := s.rings.tryGetc
    { s with rings := answer.1, read := s.read ++ answer.2.toList }

/-- The run of a list of events from the reset of the rings on. -/
def ringRun (events : List RingEvent) : RingRun := events.foldl RingRun.step {}

end Usb

end DeusOs
