import DeusOs.Host.Model.Reports

/-!
# The host — negotiation

`HelloParser` and `NegotiateAsync` of `DeusDeviceClient`. The client is ready
where the method returns, and faulted where it throws. Of an exception that is
thrown by a task, the kind is kept.
-/

namespace DeusOs

namespace Host

open Async (Prog)
open LittleEndian (read16 read32)

namespace FrameType

/-- `HelloRequest`. -/
def helloRequest : UInt8 := 0x01
/-- `HelloResponse`. -/
def helloResponse : UInt8 := 0x81

end FrameType

/-- `HelloInfo`. -/
structure HelloInfo where
  protocolVersion : UInt8
  serviceVersion : UInt8
  maxArgs : UInt8
  lineCapacity : ℕ
  requestPayloadMax : ℕ
  dataChunkMax : ℕ
  registryCount : ℕ
  capabilityFlags : UInt32
  deriving DecidableEq

/-- The name of a frame type, or its number if it has none. -/
def frameTypeName (type : UInt8) : Text :=
  match type.toNat with
  | 0x01 => text "HelloRequest"
  | 0x02 => text "RpcRequest"
  | 0x03 => text "AssetTransferRequest"
  | 0x04 => text "FirmwareUpdateRequest"
  | 0x81 => text "HelloResponse"
  | 0x82 => text "RpcData"
  | 0x83 => text "RpcEnd"
  | 0x84 => text "ProtocolError"
  | 0x85 => text "AssetTransferResponse"
  | 0x86 => text "FirmwareUpdateResponse"
  | number => decimal number

/-- `HelloParser.Parse`. -/
def parseHello (frame : BinaryFrame) : Except DeusHostException HelloInfo :=
  if frame.type ≠ FrameType.helloResponse then
    .error ⟨.protocol, text "expected HELLO response, got " ++ frameTypeName frame.type⟩
  else if frame.version ≠ protocolVersion ∨ frame.flags ≠ 0 ∨ frame.reserved ≠ 0 ∨
      frame.payload.length ≠ 16 then
    .error ⟨.protocol, text "malformed HELLO response"⟩
  else if frame.payload.getD 3 0 ≠ 0 then
    .error ⟨.protocol, text "HELLO reserved byte is nonzero"⟩
  else .ok
    { protocolVersion := frame.payload.getD 0 0
      serviceVersion := frame.payload.getD 1 0
      maxArgs := frame.payload.getD 2 0
      lineCapacity := read16 frame.payload 4
      requestPayloadMax := read16 frame.payload 6
      dataChunkMax := read16 frame.payload 8
      registryCount := read16 frame.payload 10
      capabilityFlags := UInt32.ofNat (read32 frame.payload 12) }

/-- `ExpectedServiceVersion`. -/
def expectedServiceVersion : UInt8 := 3
/-- `ExpectedRegistryCount`. -/
def expectedRegistryCount : ℕ := 36
/-- `HelloCapabilityAssetConfigurationTransfer`. -/
def helloCapabilityAssetConfigurationTransfer : UInt32 := 0x40

namespace SystemCapability

/-- The five that `ValidateSystemInfo` expects. -/
def expected : UInt32 := 0x1F
/-- `AssetConfigurationTransfer`. -/
def assetConfigurationTransfer : UInt32 := 0x20
/-- `NetworkServices`. -/
def networkServices : UInt32 := 0x80

end SystemCapability

namespace DeviceClient

/-- `ValidateHello`. -/
def validateHello (hello : HelloInfo) : Except DeusHostException Unit :=
  let requiredBaseCapabilities : UInt32 := 0x0000003F
  let knownCapabilities := requiredBaseCapabilities ||| helloCapabilityAssetConfigurationTransfer
  if hello.protocolVersion ≠ protocolVersion then
    .error ⟨.incompatibleProtocol, text "protocol " ++ decimal hello.protocolVersion.toNat ++
      text " != " ++ decimal protocolVersion.toNat⟩
  else if hello.serviceVersion ≠ expectedServiceVersion ∨
      hello.registryCount ≠ expectedRegistryCount then
    .error ⟨.incompatibleService, text "service/registry " ++ decimal hello.serviceVersion.toNat ++
      text "/" ++ decimal hello.registryCount ++ text " != " ++
      decimal expectedServiceVersion.toNat ++ text "/" ++ decimal expectedRegistryCount⟩
  else if hello.maxArgs.toNat ≠ maxArgs ∨ hello.requestPayloadMax ≠ maxPayloadBytes ∨
      hello.dataChunkMax ≠ rpcDataChunkMax then
    .error ⟨.incompatibleProtocol, text "HELLO protocol bounds do not match the host v1 contract"⟩
  else if hello.capabilityFlags &&& requiredBaseCapabilities ≠ requiredBaseCapabilities ∨
      hello.capabilityFlags &&& ~~~knownCapabilities ≠ 0 then
    .error ⟨.incompatibleProtocol, text "unexpected HELLO capability mask 0x" ++
      formatHex 8 hello.capabilityFlags.toNat⟩
  else .ok ()

/-- `ValidateSystemInfo`. -/
def validateSystemInfo (hello : HelloInfo) (info : SystemInfo) : Except DeusHostException Unit :=
  if info.abiVersion ≠ 1 ∨ info.osId ≠ text "DEUS_OS" ∨ info.platformId ≠ text "STM32F103C8" ∨
      info.archId ≠ text "ARMV7M" ∨ info.protocolVersion ≠ hello.protocolVersion ∨
      info.serviceVersion ≠ hello.serviceVersion ∨ info.applicationRuntimeAbi ≠ 1 ∨
      info.unitIdKind ≠ 0 then
    .error ⟨.invalidSystemInfo,
      text "sysinfo identity/ABI values do not match the v1 host contract"⟩
  else if info.capabilities &&& SystemCapability.expected ≠ SystemCapability.expected ∨
      info.capabilities &&& SystemCapability.networkServices ≠ 0 then
    .error ⟨.invalidSystemInfo, text "unexpected capability mask 0x" ++
      formatHex 8 info.capabilities.toNat⟩
  else if info.capabilities &&& SystemCapability.assetConfigurationTransfer ≠ 0 ∧
      hello.capabilityFlags &&& helloCapabilityAssetConfigurationTransfer = 0 then
    .error ⟨.invalidSystemInfo,
      text "system Asset capability is set without management HELLO Asset protocol capability"⟩
  else .ok ()

variable {σ ε α : Type} (T : Transport σ ε)

/-- What a task throws of an exception. -/
def throwing (r : Except DeusHostException α) : Task σ ε α :=
  Prog.lift (r.mapError fun e => .deus e.kind)

/-- The `try` block of `NegotiateAsync`. -/
def tryNegotiate (fuel : ℕ) : Task σ ε (HelloInfo × SystemInfo) := do
  onChannel fun c => (c.resetProtocolState, .ok ())
  let requestId ← onChannel Channel.nextRequestId
  let helloRequest ← Prog.lift (encode FrameType.helloRequest 0 requestId [])
  writeAsync T helloRequest
  let helloFrame ← readMatchingFrameAsync T requestId FrameType.helloResponse
  let hello ← throwing (parseHello helloFrame)
  throwing (validateHello hello)
  let sysinfoResult ← rpcCoreAsync T fuel rpcSysInfo [] 0
  throwing (ensureRpcSuccess sysinfoResult "sysinfo")
  let systemInfo ← throwing (SystemInfoParser.parse sysinfoResult.outputText)
  throwing (validateSystemInfo hello systemInfo)
  return (hello, systemInfo)

/-- `NegotiateAsync`, with its `catch` clauses. -/
def negotiateAsync (fuel : ℕ) : Task σ ε (HelloInfo × SystemInfo) :=
  Prog.handle (tryNegotiate T fuel) fun e =>
    match e with
    | .operationCanceled false => Prog.raise (.deus .timeout)
    | .operationCanceled true => Prog.raise (.deus .cancelled)
    | e => Prog.raise e

end DeviceClient

end Host

end DeusOs
