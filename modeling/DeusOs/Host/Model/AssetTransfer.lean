import DeusOs.Host.Model.Frame

/-!
# The host — the asset transfer protocol

`AssetTransferProtocol` of `DeusOs.Control.Core`: the requests as bytes,
the response as it is parsed, and the layout configuration that is sent.
-/

namespace DeusOs

namespace Host

open LittleEndian (read16 read32 write16 write32)

/-! ## `AssetTransferProtocol` -/

/-- `AssetTransferOpcode`. -/
inductive AssetTransferOpcode
  | begin | writeChunk | commit | abort | status | readChunk
  deriving DecidableEq, Repr

/-- The byte of an opcode. -/
def AssetTransferOpcode.code : AssetTransferOpcode → UInt8
  | .begin => 0x01
  | .writeChunk => 0x02
  | .commit => 0x03
  | .abort => 0x04
  | .status => 0x05
  | .readChunk => 0x06

/-- `AssetTransferStatus`, as the byte that `Enum.IsDefined` admitted. -/
abbrev AssetTransferStatus := UInt8

namespace AssetTransfer

/-- `Version`. -/
def version : UInt8 := 1
/-- `AllowDestructive`. -/
def allowDestructive : UInt8 := 0x01
/-- `ChunkMax`. -/
def chunkMax : ℕ := 32
/-- `ObjectMax`. -/
def objectMax : ℕ := 960
/-- `CommonResponseBytes`. -/
def commonResponseBytes : ℕ := 18
/-- `OledUiLayoutObjectType`. -/
def oledUiLayoutObjectType : ℕ := 0x0001
/-- `AssetTransferStatus.Ok`. -/
def statusOk : AssetTransferStatus := 0
/-- The last value of `AssetTransferStatus`. -/
def statusLast : UInt8 := 18
/-- The last value of `AssetTransferSessionState`. -/
def sessionStateLast : UInt8 := 2

end AssetTransfer

open AssetTransfer

/-- `EncodeBegin`. -/
def encodeBegin (objectType transferId totalLength : ℕ) (schemaVersion : UInt8)
    (payloadCrc32 : UInt32) : Except HostError (List UInt8) :=
  if transferId = 0 then .error .argument
  else if totalLength = 0 ∨ objectMax < totalLength then .error .argument
  else .ok ([version, AssetTransferOpcode.begin.code] ++ write16 objectType ++ write16 transferId ++
    write16 totalLength ++ [schemaVersion, 0] ++ write32 payloadCrc32.toNat ++ [0, 0])

/-- `EncodeWriteChunk`. -/
def encodeWriteChunk (objectType transferId offset : ℕ) (data : List UInt8) :
    Except HostError (List UInt8) :=
  if transferId = 0 then .error .argument
  else if data.length < 1 ∨ chunkMax < data.length then .error .argument
  else .ok ([version, AssetTransferOpcode.writeChunk.code] ++ write16 objectType ++
    write16 transferId ++ write16 offset ++ [UInt8.ofNat data.length, 0] ++ data)

/-- `EncodeShort`. -/
def encodeShort (opcode : AssetTransferOpcode) (objectType transferId : ℕ) :
    Except HostError (List UInt8) :=
  if opcode ≠ .status ∧ transferId = 0 then .error .argument
  else .ok ([version, opcode.code] ++ write16 objectType ++ write16 transferId)

/-- `EncodeCommit`. -/
def encodeCommit (objectType transferId : ℕ) : Except HostError (List UInt8) :=
  encodeShort .commit objectType transferId

/-- `EncodeAbort`. -/
def encodeAbort (objectType transferId : ℕ) : Except HostError (List UInt8) :=
  encodeShort .abort objectType transferId

/-- `EncodeStatus`, of no transfer. -/
def encodeStatus (objectType : ℕ) : Except HostError (List UInt8) := encodeShort .status objectType 0

/-- `EncodeReadChunk`. -/
def encodeReadChunk (objectType expectedGeneration offset requestedLength : ℕ) :
    Except HostError (List UInt8) :=
  if requestedLength = 0 ∨ chunkMax < requestedLength then .error .argument
  else .ok ([version, AssetTransferOpcode.readChunk.code] ++ write16 objectType ++
    write32 expectedGeneration ++ write16 offset ++ [UInt8.ofNat requestedLength, 0])

/-- `AssetTransferResponse`. -/
structure AssetTransferResponse where
  opcode : AssetTransferOpcode
  status : AssetTransferStatus
  sessionState : UInt8
  objectType : ℕ
  transferId : ℕ
  committedGeneration : ℕ
  totalLength : ℕ
  nextOffset : ℕ
  data : List UInt8
  deriving DecidableEq

/-- `ParseResponse`. -/
def parseAssetResponse (frame : BinaryFrame) (expectedOpcode : AssetTransferOpcode) :
    Except HostError AssetTransferResponse :=
  let payload := frame.payload
  let dataLength := (payload.getD 16 0).toNat
  if frame.type ≠ FrameType.assetTransferResponse then .error (.deus .protocol)
  else if payload.length < commonResponseBytes then .error (.deus .protocol)
  else if payload.getD 0 0 ≠ version then .error (.deus .incompatibleProtocol)
  else if payload.getD 1 0 ≠ expectedOpcode.code then .error (.deus .protocol)
  else if statusLast < payload.getD 2 0 ∨ sessionStateLast < payload.getD 3 0 then
    .error (.deus .protocol)
  else if payload.getD 17 0 ≠ 0 ∨ chunkMax < dataLength ∨
      payload.length ≠ commonResponseBytes + dataLength then .error (.deus .protocol)
  else if expectedOpcode = .status ∧ dataLength ≠ 8 then .error (.deus .protocol)
  else if (expectedOpcode = .begin ∨ expectedOpcode = .writeChunk ∨ expectedOpcode = .commit ∨
      expectedOpcode = .abort) ∧ dataLength ≠ 0 then .error (.deus .protocol)
  else .ok
    { opcode := expectedOpcode
      status := payload.getD 2 0
      sessionState := payload.getD 3 0
      objectType := read16 payload 4
      transferId := read16 payload 6
      committedGeneration := read32 payload 8
      totalLength := read16 payload 12
      nextOffset := read16 payload 14
      data := (payload.drop commonResponseBytes).take dataLength }

/-- `AssetStatusSnapshot`, with the fields of `AssetCommittedMetadata`. -/
structure AssetStatusSnapshot where
  status : AssetTransferStatus
  sessionState : UInt8
  objectType : ℕ
  transferId : ℕ
  committedGeneration : ℕ
  transferTotalLength : ℕ
  nextOffset : ℕ
  committedPayloadLength : ℕ
  committedPayloadCrc32 : UInt32

/-- `ToStatusSnapshot`. -/
def toStatusSnapshot (response : AssetTransferResponse) : Except HostError AssetStatusSnapshot :=
  if response.opcode = .status ∧ response.data.length = 8 then .ok
    { status := response.status
      sessionState := response.sessionState
      objectType := response.objectType
      transferId := response.transferId
      committedGeneration := response.committedGeneration
      transferTotalLength := response.totalLength
      nextOffset := response.nextOffset
      committedPayloadLength := read16 response.data 0
      committedPayloadCrc32 := UInt32.ofNat (read32 response.data 4) }
  else .error (.deus .protocol)

/-- `EnsureAssetSuccess`. -/
def ensureAssetSuccess (response : AssetTransferResponse) : Except HostError Unit :=
  if response.status ≠ statusOk then .error (.deus .protocol) else .ok ()

/-! ## The configuration -/

/-- `OledUiLayoutConfigV1`. -/
structure OledUiLayoutConfigV1 where
  consoleX : UInt8
  consoleY : UInt8
  consoleWidth : UInt8
  consoleHeight : UInt8
  deriving DecidableEq, Repr

/-- `SchemaVersion`. -/
def schemaVersion : UInt8 := 1

/-- What `Validate` lets pass. -/
def OledUiLayoutConfigV1.Valid (c : OledUiLayoutConfigV1) : Prop :=
  ¬ (c.consoleY < 10 ∨ c.consoleWidth < 5 ∨ c.consoleHeight < 6 ∨
    128 < c.consoleX.toNat + c.consoleWidth.toNat ∨ 32 < c.consoleY.toNat + c.consoleHeight.toNat)

instance (c : OledUiLayoutConfigV1) : Decidable c.Valid := inferInstanceAs (Decidable (¬ _))

/-- `Serialize`. -/
def OledUiLayoutConfigV1.serialize (c : OledUiLayoutConfigV1) : Except HostError (List UInt8) :=
  if c.Valid then
    .ok [schemaVersion, c.consoleX, c.consoleY, c.consoleWidth, c.consoleHeight, 0, 0, 0]
  else .error .argument

/-- `Deserialize`: an `ArgumentException`, whichever check fails. -/
def OledUiLayoutConfigV1.deserialize (payload : List UInt8) :
    Except HostError OledUiLayoutConfigV1 :=
  if payload.length ≠ 8 ∨ payload.getD 0 0 ≠ schemaVersion ∨ payload.getD 5 0 ≠ 0 ∨
      payload.getD 6 0 ≠ 0 ∨ payload.getD 7 0 ≠ 0 then .error .argument
  else
    let result : OledUiLayoutConfigV1 :=
      ⟨payload.getD 1 0, payload.getD 2 0, payload.getD 3 0, payload.getD 4 0⟩
    if result.Valid then .ok result else .error .argument

/-! ## `Crc32IsoHdlc` -/

/-- One round of `Compute` over a byte. -/
def crc32Round (crc : UInt32) : UInt32 :=
  if crc &&& 1 ≠ 0 then (crc >>> 1) ^^^ 0xEDB88320 else crc >>> 1

/-- `Compute`. -/
def crc32Compute (data : List UInt8) : UInt32 :=
  data.foldl (fun crc value =>
    (List.range 8).foldl (fun c _ => crc32Round c) (crc ^^^ value.toUInt32)) 0xFFFFFFFF ^^^ 0xFFFFFFFF

end Host

end DeusOs
