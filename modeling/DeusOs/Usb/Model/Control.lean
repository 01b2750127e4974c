import Mathlib.Data.Nat.Notation

/-!
# USB — control transfers

`usb_device.c`, endpoint 0: the SETUP requests it serves, the stages of a
transfer, and the handler of the endpoint's two flags, received and
IN-complete. A flag stays latched until the handler runs, and the host may set
both before it does. The packet in the transmit buffer carries the number of
the SETUP it was armed after, which the driver does not see.
-/

namespace DeusOs

namespace Usb

/-! ## Descriptors -/

/-- `usb_device_descriptor`. -/
def deviceDescriptor : List UInt8 :=
  [0x12, 0x01, 0x10, 0x02, 0x00, 0x00, 0x00, 0x40, 0x09, 0x12, 0x0E, 0x00, 0x02, 0x01, 0x00, 0x01,
    0x00, 0x01]

/-- `usb_configuration_descriptor`. -/
def configurationDescriptor : List UInt8 :=
  [0x09, 0x02, 0x20, 0x00, 0x01, 0x01, 0x00, 0x80, 0x32, 0x09, 0x04, 0x00, 0x00, 0x02, 0xFF, 0x00,
    0x00, 0x00, 0x07, 0x05, 0x04, 0x02, 0x40, 0x00, 0x00, 0x07, 0x05, 0x84, 0x02, 0x40, 0x00,
    0x00]

/-- `usb_bos_descriptor`. -/
def bosDescriptor : List UInt8 :=
  [0x05, 0x0F, 0x21, 0x00, 0x01, 0x1C, 0x10, 0x05, 0x00, 0xDF, 0x60, 0xDD, 0xD8, 0x89, 0x45, 0xC7,
    0x4C, 0x9C, 0xD2, 0x65, 0x9D, 0x9E, 0x64, 0x8A, 0x9F, 0x00, 0x00, 0x00, 0x0A, 0xB2, 0x00,
    0x20, 0x00]

/-- `usb_ms_os_20_descriptor_set`. -/
def msOs20DescriptorSet : List UInt8 :=
  [0x0A, 0x00, 0x00, 0x00, 0x00, 0x00, 0x00, 0x0A, 0xB2, 0x00, 0x08, 0x00, 0x01, 0x00, 0x00, 0x00,
    0xA8, 0x00, 0x08, 0x00, 0x02, 0x00, 0x00, 0x00, 0xA0, 0x00, 0x14, 0x00, 0x03, 0x00, 0x57,
    0x49, 0x4E, 0x55, 0x53, 0x42, 0x00, 0x00, 0x00, 0x00, 0x00, 0x00, 0x00, 0x00, 0x00, 0x00,
    0x84, 0x00, 0x04, 0x00, 0x07, 0x00, 0x2A, 0x00, 0x44, 0x00, 0x65, 0x00, 0x76, 0x00, 0x69,
    0x00, 0x63, 0x00, 0x65, 0x00, 0x49, 0x00, 0x6E, 0x00, 0x74, 0x00, 0x65, 0x00, 0x72, 0x00,
    0x66, 0x00, 0x61, 0x00, 0x63, 0x00, 0x65, 0x00, 0x47, 0x00, 0x55, 0x00, 0x49, 0x00, 0x44,
    0x00, 0x73, 0x00, 0x00, 0x00, 0x50, 0x00, 0x7B, 0x00, 0x43, 0x00, 0x38, 0x00, 0x42, 0x00,
    0x30, 0x00, 0x35, 0x00, 0x45, 0x00, 0x44, 0x00, 0x45, 0x00, 0x2D, 0x00, 0x31, 0x00, 0x36,
    0x00, 0x38, 0x00, 0x33, 0x00, 0x2D, 0x00, 0x35, 0x00, 0x30, 0x00, 0x30, 0x00, 0x32, 0x00,
    0x2D, 0x00, 0x38, 0x00, 0x31, 0x00, 0x46, 0x00, 0x30, 0x00, 0x2D, 0x00, 0x39, 0x00, 0x35,
    0x00, 0x36, 0x00, 0x33, 0x00, 0x36, 0x00, 0x42, 0x00, 0x38, 0x00, 0x39, 0x00, 0x43, 0x00,
    0x45, 0x00, 0x43, 0x00, 0x36, 0x00, 0x7D, 0x00, 0x00, 0x00, 0x00, 0x00]

/-- `usb_string_language`. -/
def stringLanguage : List UInt8 :=
  [0x04, 0x03, 0x09, 0x04]

/-- `usb_string_product`. -/
def stringProduct : List UInt8 :=
  [0x1E, 0x03, 0x44, 0x00, 0x65, 0x00, 0x75, 0x00, 0x73, 0x00, 0x20, 0x00, 0x4F, 0x00, 0x53, 0x00,
    0x20, 0x00, 0x44, 0x00, 0x65, 0x00, 0x76, 0x00, 0x69, 0x00, 0x63, 0x00, 0x65, 0x00]

/-! ## The endpoint -/

/-- `USB_EP0_MAX_PACKET`. -/
abbrev ep0MaxPacket : ℕ := 64
/-- `USB_DADDR_EF`. -/
abbrev daddrEf : UInt16 := 0x80
/-- `USB_DADDR_ADD_MASK`. -/
abbrev daddrAddMask : UInt16 := 0x7F
/-- `USB_CONFIGURATION_NONE`. -/
abbrev configurationNone : UInt16 := 0
/-- `USB_CONFIGURATION_ONE`. -/
abbrev configurationOne : UInt16 := 1
/-- `USB_MANAGEMENT_INTERFACE_NUMBER`. -/
abbrev managementInterfaceNumber : UInt16 := 0
/-- `USB_MANAGEMENT_OUT_ENDPOINT`. -/
abbrev managementOutEndpoint : UInt16 := 0x04
/-- `USB_MANAGEMENT_IN_ENDPOINT`. -/
abbrev managementInEndpoint : UInt16 := 0x84

/-- `usb_setup_packet_t`. -/
structure SetupPacket where
  bmRequestType : UInt8
  bRequest : UInt8
  wValue : UInt16
  wIndex : UInt16
  wLength : UInt16
  deriving DecidableEq, Repr

/-- The SETUP packet of eight bytes. -/
def SetupPacket.ofBytes (raw : List UInt8) : SetupPacket where
  bmRequestType := raw.getD 0 0
  bRequest := raw.getD 1 0
  wValue := (raw.getD 2 0).toUInt16 ||| (raw.getD 3 0).toUInt16 <<< 8
  wIndex := (raw.getD 4 0).toUInt16 ||| (raw.getD 5 0).toUInt16 <<< 8
  wLength := (raw.getD 6 0).toUInt16 ||| (raw.getD 7 0).toUInt16 <<< 8

/-- `usb_ep0_state_t`. -/
inductive Ep0State
  | idle
  | dataIn
  | statusOut
  | statusIn
  deriving DecidableEq, Repr

/-- `USB_EP_STAT_TX_…` and `USB_EP_STAT_RX_…`. -/
inductive Stat
  | disabled
  | stall
  | nak
  | valid
  deriving DecidableEq, Repr

/-- A packet in the transmit buffer, and the number of SETUPs served when it
was armed. -/
structure TxPacket where
  transfer : ℕ
  data : List UInt8
  deriving DecidableEq, Repr

/-- A packet in the receive buffer; `setup` is `USB_EP_SETUP`. -/
structure Received where
  setup : Bool
  data : List UInt8
  deriving DecidableEq, Repr

/-- The fields of `usb_device_diagnostics` that control transfers keep. -/
structure Ep0Diagnostics where
  busResetCount : UInt32 := 0
  setupCount : UInt32 := 0
  transferCount : UInt32 := 0
  stallCount : UInt32 := 0
  address : UInt8 := 0
  lastBmRequestType : UInt8 := 0
  lastBRequest : UInt8 := 0
  managementMsOs20RequestCount : UInt32 := 0
  deriving DecidableEq, Repr

/-- Endpoint 0: the driver's variables, the registers and the latched flags. -/
structure Ep0 where
  state : Ep0State := .idle
  /-- The `usb_ep0_in_remaining` bytes at `usb_ep0_in_data`. -/
  inData : List UInt8 := []
  needZlp : Bool := false
  pendingAddress : UInt16 := 0
  pendingAddressValid : Bool := false
  pendingConfiguration : UInt16 := 0
  pendingConfigurationValid : Bool := false
  configuration : UInt16 := 0
  managementConfigured : Bool := false
  diagnostics : Ep0Diagnostics := {}
  /-- `USB_DADDR`. -/
  daddr : UInt16 := 0
  statTx : Stat := .disabled
  statRx : Stat := .disabled
  /-- `USB_EP_CTR_RX`, with what was received. -/
  received : Option Received := none
  /-- `USB_EP_CTR_TX`, with the packet whose IN transaction completed. -/
  inComplete : Option TxPacket := none
  /-- `USB_ISTR_RESET`. -/
  resetPending : Bool := false
  txPacket : TxPacket := ⟨0, []⟩
  /-- The SETUPs of eight bytes that were served. -/
  setups : List SetupPacket := []
  deriving DecidableEq, Repr

/-- `usb_ep0_reset_transfer_state`. -/
def Ep0.resetTransferState (s : Ep0) : Ep0 :=
  { s with
      state := .idle
      inData := []
      needZlp := false
      pendingAddress := 0
      pendingAddressValid := false
      pendingConfiguration := 0
      pendingConfigurationValid := false }

/-- `usb_ep0_stall`. -/
def Ep0.stall (s : Ep0) : Ep0 :=
  { s.resetTransferState with
      statTx := .stall
      statRx := .stall
      diagnostics := { s.diagnostics with stallCount := s.diagnostics.stallCount + 1 } }

/-- `usb_ep0_arm_rx`. -/
def Ep0.armRx (s : Ep0) : Ep0 := { s with statRx := .valid }

/-- `usb_ep0_send_packet`. -/
def Ep0.sendPacket (s : Ep0) (data : List UInt8) : Ep0 :=
  { s with txPacket := ⟨s.setups.length, data⟩, statTx := .valid }

/-- `usb_ep0_send_next_in_packet`. -/
def Ep0.sendNextInPacket (s : Ep0) : Ep0 :=
  let length := if ep0MaxPacket < s.inData.length then ep0MaxPacket else s.inData.length
  let data := s.inData.take length
  { s.sendPacket data with inData := s.inData.drop length }

/-- `usb_ep0_start_in`. -/
def Ep0.startIn (s : Ep0) (data : List UInt8) (requestedLength : ℕ) : Ep0 :=
  let sendLength := if requestedLength < data.length then requestedLength else data.length
  let s :=
    { s with
        inData := data.take sendLength
        needZlp := decide (sendLength ≠ 0) && decide (sendLength < requestedLength) &&
          decide (sendLength % ep0MaxPacket = 0)
        state := .dataIn }
  if sendLength = 0 then s.sendPacket [] else s.sendNextInPacket

/-- `usb_ep0_start_status_in`. -/
def Ep0.startStatusIn (s : Ep0) : Ep0 := { s with state := .statusIn }.sendPacket []

/-- `usb_management_endpoints_disable`, of what control transfers read. -/
def Ep0.managementEndpointsDisable (s : Ep0) : Ep0 := { s with managementConfigured := false }

/-- `usb_management_endpoints_enable`, likewise. -/
def Ep0.managementEndpointsEnable (s : Ep0) : Ep0 := { s with managementConfigured := true }

/-! ## Requests -/

/-- `usb_get_descriptor`. -/
def getDescriptor (setup : SetupPacket) : Option (List UInt8) :=
  let descriptorType := setup.wValue >>> 8
  let descriptorIndex := setup.wValue &&& 0xFF
  if setup.bmRequestType ≠ 0x80 then none
  else if descriptorType = 1 ∧ descriptorIndex = 0 then some deviceDescriptor
  else if descriptorType = 2 ∧ descriptorIndex = 0 then some configurationDescriptor
  else if descriptorType = 15 ∧ descriptorIndex = 0 then some bosDescriptor
  else if descriptorType = 3 ∧ descriptorIndex = 0 then some stringLanguage
  else if descriptorType = 3 ∧ descriptorIndex = 1 ∧
      (setup.wIndex = 0x0409 ∨ setup.wIndex = 0) then some stringProduct
  else none

/-- The data `usb_ep0_standard_in` starts an IN transfer with, where it
handles the request. -/
def standardIn (configuration : UInt16) (setup : SetupPacket) : Option (List UInt8) :=
  let recipient := setup.bmRequestType &&& 0x1F
  if setup.bmRequestType &&& 0x60 ≠ 0 then none
  else if setup.bRequest = 6 then getDescriptor setup
  else if setup.bRequest = 0 ∧ setup.wValue = 0 ∧ setup.wLength = 2 then
    if recipient = 0 ∧ setup.wIndex = 0 then some [0, 0]
    else if recipient = 1 ∧ configuration = configurationOne ∧
        setup.wIndex = managementInterfaceNumber then some [0, 0]
    else if recipient = 2 ∧ (setup.wIndex = 0x0000 ∨ setup.wIndex = 0x0080 ∨
        configuration = configurationOne ∧
          (setup.wIndex = managementOutEndpoint ∨ setup.wIndex = managementInEndpoint)) then
      some [0, 0]
    else none
  else if setup.bRequest = 8 ∧ setup.bmRequestType = 0x80 ∧ setup.wValue = 0 ∧
      setup.wIndex = 0 ∧ setup.wLength = 1 then some [configuration.toUInt8]
  else if setup.bRequest = 10 ∧ setup.bmRequestType = 0x81 ∧ setup.wValue = 0 ∧
      setup.wIndex = managementInterfaceNumber ∧ setup.wLength = 1 ∧
      configuration = configurationOne then some [0]
  else none

/-- The request is a `SET_ADDRESS` that `usb_ep0_standard_out` handles. -/
def SetupPacket.isSetAddress (setup : SetupPacket) : Bool :=
  setup.bRequest = 5 ∧ setup.bmRequestType = 0x00 ∧ setup.wValue &&& 0xFF80 = 0 ∧
    setup.wIndex = 0 ∧ setup.wLength = 0

/-- The request is a `SET_CONFIGURATION` that it handles. -/
def SetupPacket.isSetConfiguration (setup : SetupPacket) : Bool :=
  setup.bRequest = 9 ∧ setup.bmRequestType = 0x00 ∧
    (setup.wValue = configurationNone ∨ setup.wValue = configurationOne) ∧
    setup.wIndex = 0 ∧ setup.wLength = 0

/-- The request is a `SET_INTERFACE` that it handles. -/
def SetupPacket.isSetInterface (setup : SetupPacket) (configuration : UInt16) : Bool :=
  setup.bRequest = 11 ∧ setup.bmRequestType = 0x01 ∧ setup.wValue = 0 ∧
    setup.wIndex = managementInterfaceNumber ∧ setup.wLength = 0 ∧
    configuration = configurationOne

/-- `usb_ep0_standard_in`. -/
def Ep0.standardIn (s : Ep0) (setup : SetupPacket) : Ep0 × Bool :=
  match Usb.standardIn s.configuration setup with
  | none => (s, false)
  | some data => (s.startIn data setup.wLength.toNat, true)

/-- `usb_ep0_standard_out`. -/
def Ep0.standardOut (s : Ep0) (setup : SetupPacket) : Ep0 × Bool :=
  if setup.bmRequestType &&& 0x60 ≠ 0 then (s, false)
  else if setup.isSetAddress then
    (Ep0.startStatusIn
      { s with
          pendingAddress := setup.wValue &&& daddrAddMask
          pendingAddressValid := true }, true)
  else if setup.isSetConfiguration then
    (Ep0.startStatusIn
      { s with
          pendingConfiguration := setup.wValue
          pendingConfigurationValid := true }, true)
  else if setup.isSetInterface s.configuration then (s.startStatusIn, true)
  else (s, false)

/-- `usb_ep0_vendor_in`. -/
def Ep0.vendorIn (s : Ep0) (setup : SetupPacket) : Ep0 × Bool :=
  if setup.bmRequestType ≠ 0xC0 ∨ setup.bRequest ≠ 0x20 ∨ setup.wValue ≠ 0 ∨
      setup.wIndex ≠ 0x0007 then (s, false)
  else
    (Ep0.startIn
      { s with
          diagnostics :=
            { s.diagnostics with
                managementMsOs20RequestCount := s.diagnostics.managementMsOs20RequestCount + 1 } }
      msOs20DescriptorSet setup.wLength.toNat, true)

/-- The dispatch of `usb_ep0_handle_setup`. -/
def Ep0.dispatch (s : Ep0) (setup : SetupPacket) : Ep0 × Bool :=
  if setup.bmRequestType &&& 0x80 ≠ 0 then
    if setup.bmRequestType &&& 0x60 = 0x00 then s.standardIn setup
    else if setup.bmRequestType &&& 0x60 = 0x40 then s.vendorIn setup
    else (s, false)
  else if setup.bmRequestType &&& 0x60 = 0x00 then s.standardOut setup
  else (s, false)

/-! ## The handlers -/

/-- `usb_ep0_handle_setup`, of the eight bytes received. -/
def Ep0.handleSetup (s : Ep0) (raw : List UInt8) : Ep0 :=
  let setup := SetupPacket.ofBytes raw
  let s :=
    { s with
        setups := s.setups ++ [setup]
        diagnostics :=
          { s.diagnostics with
              setupCount := s.diagnostics.setupCount + 1
              lastBmRequestType := setup.bmRequestType
              lastBRequest := setup.bRequest } }
  let s := { s.resetTransferState with statTx := .nak }.armRx
  let r := s.dispatch setup
  if r.2 = false then r.1.stall else r.1

/-- `usb_ep0_handle_rx`. -/
def Ep0.handleRx (s : Ep0) (packet : Received) : Ep0 :=
  let count := packet.data.length
  let s :=
    { s with
        received := none
        diagnostics :=
          { s.diagnostics with transferCount := s.diagnostics.transferCount + 1 } }
  if packet.setup = true then
    if count = 8 then s.handleSetup packet.data else s.stall
  else if s.state = .statusOut ∧ count = 0 then
    { s with state := .idle, statTx := .nak }.armRx
  else s.stall

/-- `usb_ep0_apply_pending_status_action`. -/
def Ep0.applyPendingStatusAction (s : Ep0) : Ep0 :=
  let s :=
    if s.pendingAddressValid = true then
      let t :=
        { s with
            daddr := daddrEf ||| s.pendingAddress
            diagnostics := { s.diagnostics with address := s.pendingAddress.toUInt8 }
            pendingAddressValid := false }
      if t.pendingAddress = 0 then
        { t.managementEndpointsDisable with configuration := configurationNone }
      else t
    else s
  if s.pendingConfigurationValid = true then
    let t :=
      if s.pendingConfiguration = configurationOne then
        { s with configuration := configurationOne }.managementEndpointsEnable
      else { s.managementEndpointsDisable with configuration := configurationNone }
    { t with pendingConfigurationValid := false }
  else s

/-- `usb_ep0_handle_tx`. -/
def Ep0.handleTx (s : Ep0) : Ep0 :=
  let s :=
    { s with
        inComplete := none
        diagnostics :=
          { s.diagnostics with transferCount := s.diagnostics.transferCount + 1 } }
  match s.state with
  | .dataIn =>
    if s.inData.length ≠ 0 then s.sendNextInPacket
    else if s.needZlp = true then { s with needZlp := false }.sendPacket []
    else { s with state := .statusOut, statTx := .nak }.armRx
  | .statusIn =>
    { s.applyPendingStatusAction with state := .idle, statTx := .nak }.armRx
  | _ => { s with statTx := .nak }

/-- The receive half of `usb_ep0_handle_ctr`. -/
def Ep0.serveRx (s : Ep0) : Ep0 :=
  match s.received with
  | some packet => s.handleRx packet
  | none => s

/-- `usb_ep0_handle_ctr`, which reads the register again behind the receive
half. -/
def Ep0.handleCtr (s : Ep0) : Ep0 :=
  let s := s.serveRx
  if s.inComplete.isSome then s.handleTx else s

/-- `usb_bus_reset`. -/
def Ep0.busReset (s : Ep0) : Ep0 :=
  let s := { s with received := none, inComplete := none }
  let s := s.resetTransferState.managementEndpointsDisable
  Ep0.armRx
    { s with
        configuration := configurationNone
        daddr := daddrEf
        statTx := .nak
        diagnostics :=
          { s.diagnostics with
              address := 0
              busResetCount := s.diagnostics.busResetCount + 1 } }

/-- `USB_LP_CAN1_RX0_IRQHandler`, of what endpoint 0 needs. -/
def Ep0.interrupt (s : Ep0) : Ep0 :=
  let s := if s.resetPending = true then { s with resetPending := false }.busReset else s
  s.handleCtr

/-! ## The host -/

/-- What the host and the interrupt do, in any order. -/
inductive Ep0Event
  /-- A reset of the bus: the peripheral disables the endpoint and clears its
  address. -/
  | busReset
  /-- A SETUP, taken whatever the receive status is but disabled. -/
  | setup (data : List UInt8)
  /-- An OUT packet, taken where the receive status is valid. -/
  | out (data : List UInt8)
  /-- An IN token, answered where the transmit status is valid. -/
  | inToken
  /-- The interrupt is served. -/
  | interrupt
  deriving DecidableEq, Repr

/-- One event. The peripheral falls back to NAK in every direction a
transaction completed in. -/
def Ep0.step (s : Ep0) : Ep0Event → Ep0
  | .busReset => { s with resetPending := true, statTx := .disabled, statRx := .disabled, daddr := 0 }
  | .setup data =>
    if s.statRx = .disabled then s
    else { s with received := some ⟨true, data⟩, statRx := .nak, statTx := .nak }
  | .out data =>
    if s.statRx = .valid then { s with received := some ⟨false, data⟩, statRx := .nak } else s
  | .inToken =>
    if s.statTx = .valid then { s with inComplete := some s.txPacket, statTx := .nak } else s
  | .interrupt => s.interrupt

/-- The run of a list of events from `usb_device_init` on. -/
def ep0Run (events : List Ep0Event) : Ep0 := events.foldl Ep0.step {}

end Usb

end DeusOs
