import DeusOs.Common.Sha256
import DeusOs.Host.Model.Channel

/-!
# The host — the firmware updater

`FirmwareUpdateClient` of `DeusOs.Control.Core`: what a package must be,
what a response must be, one request with its timeout, the DATA request
with its one retry, and `UpdateAsync`. The channel's operation gate and
the disposal checks are not modelled.
-/

namespace DeusOs

namespace Host

open Async (Prog)
open LittleEndian (read16 read32 write16)

/-! ## Constants -/

namespace FirmwareUpdate

/-- `ProductId`. -/
def productId : ℕ := 0x534F4544
/-- `TargetDeviceId`. -/
def targetDeviceId : ℕ := 0x0410
/-- `HeaderBytes`. -/
def headerBytes : ℕ := 48
/-- `HeaderAuthTagBytes`. -/
def headerAuthTagBytes : ℕ := 32
/-- `MaxImageBytes`. -/
def maxImageBytes : ℕ := 53248
/-- `MaxDataBytes`. -/
def maxDataBytes : ℕ := 48
/-- `ApplicationPageBytes`. -/
def applicationPageBytes : ℕ := 1024
/-- `DestructiveFlag`. -/
def destructiveFlag : UInt8 := 0x01
/-- `OpcodeBegin`. -/
def opcodeBegin : UInt8 := 0x03
/-- `OpcodeAuthorizeHeader`. -/
def opcodeAuthorizeHeader : UInt8 := 0x04
/-- `OpcodeData`. -/
def opcodeData : UInt8 := 0x05
/-- `OpcodeEnd`. -/
def opcodeEnd : UInt8 := 0x06
/-- `ResponseBytes`. -/
def responseBytes : ℕ := 16

/-- `FirmwareUpdateState`, as far as the updater compares with it. A byte
is cast without a check, so a state is any byte. -/
def stateHeaderStaged : UInt8 := 0x01
/-- `Authorized`. -/
def stateAuthorized : UInt8 := 0x02
/-- `Receiving`. -/
def stateReceiving : UInt8 := 0x03
/-- `Committed`. -/
def stateCommitted : UInt8 := 0x05

/-- `FirmwareUpdateStatus.Ok`. -/
def statusOk : UInt8 := 0x00

end FirmwareUpdate

open FirmwareUpdate

/-- `FirmwareUpdateResponse`. -/
structure FirmwareUpdateResponse where
  opcode : UInt8
  status : UInt8
  state : UInt8
  expectedOffset : ℕ
  versionFloor : ℕ
  committedVersion : ℕ
  deriving DecidableEq, Repr

/-- `FirmwareUpdatePackage`. -/
structure FirmwareUpdatePackage where
  header : List UInt8
  headerAuthTag : List UInt8
  image : List UInt8
  firmwareVersion : ℕ
  deriving DecidableEq, Repr

/-! ## Packages and responses -/

/-- `ParsePackage`. -/
def parsePackage (package : List UInt8) : Except HostError FirmwareUpdatePackage :=
  if package.length < headerBytes + headerAuthTagBytes + 8 then .error .argument
  else
    let header := package.take headerBytes
    let imageLength := read32 header 8
    -- the checked cast to `int`
    if 2147483648 ≤ imageLength then .error .overflow
    else
      let firmwareVersion := read32 header 12
      if read32 header 0 ≠ productId ∨ header.getD 4 0 ≠ 1 ∨ header.getD 5 0 ≠ 0 ∨
          read16 header 6 ≠ targetDeviceId then .error .argument
      else if imageLength < 8 ∨ maxImageBytes < imageLength ∨ imageLength &&& 3 ≠ 0 ∨
          firmwareVersion = 0 ∨
          package.length ≠ headerBytes + headerAuthTagBytes + imageLength then .error .argument
      else
        let image := (package.drop (headerBytes + headerAuthTagBytes)).take imageLength
        if (Sha256.hash image).toList ≠ (header.drop 16).take 32 then .error .argument
        else .ok
          { header
            headerAuthTag := (package.drop headerBytes).take headerAuthTagBytes
            image
            firmwareVersion }

/-- `ParseResponse`. -/
def parseResponse (frame : BinaryFrame) (expectedOpcode : UInt8) :
    Except HostError FirmwareUpdateResponse :=
  let payload := frame.payload
  if payload.length ≠ responseBytes then .error (.deus .protocol)
  else if payload.getD 0 0 ≠ expectedOpcode ∨ payload.getD 3 0 ≠ 0 ∨ payload.getD 6 0 ≠ 0 ∨
      payload.getD 7 0 ≠ 0 then .error (.deus .protocol)
  else .ok
    { opcode := payload.getD 0 0
      status := payload.getD 1 0
      state := payload.getD 2 0
      expectedOffset := read16 payload 4
      versionFloor := read32 payload 8
      committedVersion := read32 payload 12 }

/-- `EnsureOk`. -/
def ensureOk (response : FirmwareUpdateResponse) (expectedState : UInt8) : Except HostError Unit :=
  if response.status ≠ statusOk then .error (.deus .protocol)
  else if response.state ≠ expectedState then .error (.deus .protocol)
  else .ok ()

/-! ## Requests -/

variable {σ ε : Type} (T : Transport σ ε)

/-- `AbandonSingleResponse` of the client. -/
def abandonSingleResponse (requestId : ℕ) : Task σ ε Unit :=
  if requestId ≠ 0 then onChannel fun c => c.abandonSingleResponse requestId
  else pure ()

/-- The `try` block of `SendRequestCoreAsync`, once it has its id. -/
def tryRequest (opcode flags : UInt8) (requestId : ℕ) (payload : List UInt8) :
    Task σ ε FirmwareUpdateResponse := do
  let wire ← Prog.lift (encode FrameType.firmwareUpdateRequest flags requestId payload)
  writeAsync T wire
  let responseFrame ← readMatchingFrameAsync T requestId FrameType.firmwareUpdateResponse
  Prog.lift (parseResponse responseFrame opcode)

/-- Its `catch` clauses. -/
def catchRequest (requestId : ℕ) : HostError → Task σ ε FirmwareUpdateResponse
  | .deus .timeout => do
    abandonSingleResponse requestId
    Prog.raise (.deus .timeout)
  | .operationCanceled false => do
    abandonSingleResponse requestId
    Prog.raise (.deus .timeout)
  | .operationCanceled true => do
    abandonSingleResponse requestId
    Prog.raise (.deus .cancelled)
  | e => Prog.raise e

/-- `SendRequestCoreAsync`. What `NextRequestId` throws, no clause
catches. -/
def sendRequestCoreAsync (opcode flags : UInt8) (payload : List UInt8) :
    Task σ ε FirmwareUpdateResponse := do
  let requestId ← onChannel Channel.nextRequestId
  Prog.handle (tryRequest T opcode flags requestId payload) (catchRequest requestId)

/-- `SendDataWithSingleTimeoutRetryAsync`. -/
def sendDataWithSingleTimeoutRetryAsync (payload : List UInt8) : Task σ ε FirmwareUpdateResponse :=
  Prog.handle (sendRequestCoreAsync T opcodeData destructiveFlag payload) fun e =>
    match e with
    | .deus .timeout => sendRequestCoreAsync T opcodeData destructiveFlag payload
    | e => Prog.raise e

/-- `checked((ushort)value)`. -/
def checkedUshort (value : ℕ) : Except HostError ℕ :=
  if 65535 < value then .error .overflow else .ok value

/-- The length of the chunk at `offset`. -/
def chunkCount (imageLength offset : ℕ) : ℕ :=
  min maxDataBytes (min (imageLength - offset)
    (applicationPageBytes - offset % applicationPageBytes))

/-- The chunk at `offset`. -/
def chunkAt (image : List UInt8) (offset : ℕ) : List UInt8 :=
  (image.drop offset).take (chunkCount image.length offset)

/-- The body of the DATA loop, at an offset. -/
def sendChunk (image : List UInt8) (offset : ℕ) : Task σ ε Unit := do
  let count := chunkCount image.length offset
  let at' ← Prog.lift (checkedUshort offset)
  let data ← sendDataWithSingleTimeoutRetryAsync T
    (opcodeData :: (write16 at' ++ chunkAt image offset))
  Prog.lift (ensureOk data stateReceiving)
  let expectedOffset ← Prog.lift (checkedUshort (offset + count))
  if data.expectedOffset ≠ expectedOffset then Prog.raise (.deus .protocol) else pure ()

/-- The DATA loop of `UpdateAsync`, from an offset. -/
def sendImage (image : List UInt8) (offset : ℕ) : Task σ ε Unit :=
  if offset < image.length then
    let count := chunkCount image.length offset
    if count % 2 ≠ 0 ∨ count < 2 then Prog.raise (.deus .protocol)
    else do
      sendChunk T image offset
      sendImage image (offset + count)
  else pure ()
termination_by image.length - offset
decreasing_by omega

/-- `UpdateAsync`. -/
def updateAsync (packageBytes : List UInt8) : Task σ ε FirmwareUpdateResponse := do
  let package ← Prog.lift (parsePackage packageBytes)
  let begin' ← sendRequestCoreAsync T opcodeBegin destructiveFlag (opcodeBegin :: package.header)
  Prog.lift (ensureOk begin' stateHeaderStaged)
  let authorize ← sendRequestCoreAsync T opcodeAuthorizeHeader destructiveFlag
    (opcodeAuthorizeHeader :: package.headerAuthTag)
  Prog.lift (ensureOk authorize stateAuthorized)
  sendImage T package.image 0
  let end' ← sendRequestCoreAsync T opcodeEnd destructiveFlag [opcodeEnd]
  Prog.lift (ensureOk end' stateCommitted)
  pure end'

end Host

end DeusOs
