import DeusOs.Common.LittleEndian

/-!
# The host — binary frames

`BinaryFrameCodec` and `BinaryFrameDecoder` of `DeusOs.Control.Core`. A
span is the list of bytes it covers. The decoder's two buffers are the
bytes written to them since the frame began: what lies beyond the write
index is never read.
-/

namespace DeusOs

namespace Host

open LittleEndian (read16 write16)

/-! ## `ProtocolConstants` -/

/-- `Magic0`. -/
def magic0 : UInt8 := 0xA5
/-- `Magic1`. -/
def magic1 : UInt8 := 0x5A
/-- `ProtocolVersion`. -/
def protocolVersion : UInt8 := 1
/-- `HeaderBytesAfterMagic`. -/
def headerBytesAfterMagic : ℕ := 8
/-- `MaxPayloadBytes`. -/
def maxPayloadBytes : ℕ := 132

namespace FrameType

/-- `RpcRequest`. A frame's type is the raw byte: the decoder casts
whatever it received. -/
def rpcRequest : UInt8 := 0x02
/-- `AssetTransferRequest`. -/
def assetTransferRequest : UInt8 := 0x03
/-- `FirmwareUpdateRequest`. -/
def firmwareUpdateRequest : UInt8 := 0x04
/-- `RpcData`. -/
def rpcData : UInt8 := 0x82
/-- `ProtocolError`. -/
def protocolError : UInt8 := 0x84
/-- `AssetTransferResponse`. -/
def assetTransferResponse : UInt8 := 0x85
/-- `FirmwareUpdateResponse`. -/
def firmwareUpdateResponse : UInt8 := 0x86
/-- `RpcEnd`. -/
def rpcEnd : UInt8 := 0x83

end FrameType

/-- `HostErrorKind`. -/
inductive HostErrorKind
  | discovery | open | transportDisconnected | timeout | protocol | crc | requestCorrelation
  | rpcStatus | incompatibleProtocol | incompatibleService | invalidSystemInfo | cancelled
  deriving DecidableEq, Repr

/-- What the client throws: an argument, overflow or invalid-operation
exception of the platform, a cancellation, with whether the caller asked
for it, or a `DeusHostException` with its kind. -/
inductive HostError
  | argument
  | overflow
  | invalidOperation
  | operationCanceled (requested : Bool)
  | deus (kind : HostErrorKind)
  deriving DecidableEq, Repr

/-! ## The codec -/

/-- One bit of `Crc16CcittFalse.Compute`. -/
def crcBit (crc : UInt16) : UInt16 :=
  if crc &&& 0x8000 ≠ 0 then (crc <<< 1) ^^^ 0x1021 else crc <<< 1

/-- One byte of it. -/
def crcByte (crc : UInt16) (value : UInt8) : UInt16 :=
  (List.range 8).foldl (fun c _ => crcBit c) (crc ^^^ (value.toUInt16 <<< (8 : UInt16)))

/-- `Crc16CcittFalse.Compute`. -/
def crc16Compute (data : List UInt8) : UInt16 := data.foldl crcByte 0xFFFF

/-- The eight header bytes after the magic. -/
def frameHeader (type flags : UInt8) (requestId payloadLength : ℕ) : List UInt8 :=
  [protocolVersion, type, flags, 0] ++ write16 requestId ++ write16 payloadLength

/-- `BinaryFrameCodec.Encode`. -/
def encode (type flags : UInt8) (requestId : ℕ) (payload : List UInt8) :
    Except HostError (List UInt8) :=
  if maxPayloadBytes < payload.length then .error .argument
  else
    let body := frameHeader type flags requestId payload.length ++ payload
    .ok ([magic0, magic1] ++ body ++ write16 (crc16Compute body).toNat)

/-! ## The decoder -/

/-- `BinaryFrame`. -/
structure BinaryFrame where
  version : UInt8
  type : UInt8
  flags : UInt8
  reserved : UInt8
  requestId : ℕ
  payload : List UInt8
  deriving DecidableEq, Repr

/-- `FrameDecodeErrorKind`. -/
inductive FrameDecodeErrorKind
  | sync | crc | length
  deriving DecidableEq, Repr

/-- `DecoderState`. -/
inductive DecoderState
  | idle | magic1 | header | payload | crcLow | crcHigh | resync | resyncMagic1
  deriving DecidableEq, Repr

/-- `BinaryFrameDecoder`. -/
structure BinaryFrameDecoder where
  state : DecoderState
  header : List UInt8
  payload : List UInt8
  payloadLength : ℕ
  receivedCrcLow : UInt8
  deriving DecidableEq, Repr

/-- `Reset`. -/
def BinaryFrameDecoder.reset : BinaryFrameDecoder := ⟨.idle, [], [], 0, 0⟩

/-- What one byte produces. -/
inductive DecodeEvent
  | frame (f : BinaryFrame)
  | error (k : FrameDecodeErrorKind)
  deriving DecidableEq, Repr

/-- `CompleteFrame`: the frame, or the checksum error. -/
def completeFrame (d : BinaryFrameDecoder) (crcHigh : UInt8) : DecodeEvent :=
  let expected := crc16Compute (d.header ++ d.payload)
  let received := d.receivedCrcLow.toUInt16 ||| (crcHigh.toUInt16 <<< (8 : UInt16))
  if received ≠ expected then .error .crc
  else .frame
    { version := d.header.getD 0 0, type := d.header.getD 1 0, flags := d.header.getD 2 0
      reserved := d.header.getD 3 0, requestId := read16 d.header 4, payload := d.payload }

/-- The header state with one more byte. -/
def feedHeader (d : BinaryFrameDecoder) (value : UInt8) : BinaryFrameDecoder × Option DecodeEvent :=
  let header := d.header ++ [value]
  if header.length ≠ headerBytesAfterMagic then ({ d with header }, none)
  else
    let payloadLength := read16 header 6
    if maxPayloadBytes < payloadLength then
      ({ d with header, payloadLength, state := .resync }, some (.error .length))
    else if payloadLength = 0 then ({ d with header, payloadLength, state := .crcLow }, none)
    else ({ d with header, payloadLength, payload := [], state := .payload }, none)

/-- `FeedByte`. -/
def feedByte (d : BinaryFrameDecoder) (value : UInt8) : BinaryFrameDecoder × Option DecodeEvent :=
  match d.state with
  | .idle => (if value = magic0 then { d with state := .magic1 } else d, none)
  | .magic1 =>
    if value = magic1 then
      ({ d with state := .header, header := [], payload := [], payloadLength := 0 }, none)
    else
      ({ d with state := if value = magic0 then .magic1 else .idle }, some (.error .sync))
  | .header => feedHeader d value
  | .payload =>
    let payload := d.payload ++ [value]
    ({ d with payload, state := if payload.length = d.payloadLength then .crcLow else .payload },
      none)
  | .crcLow => ({ d with receivedCrcLow := value, state := .crcHigh }, none)
  | .crcHigh => (.reset, some (completeFrame d value))
  | .resync => (if value = magic0 then { d with state := .resyncMagic1 } else d, none)
  | .resyncMagic1 =>
    if value = magic1 then
      ({ d with state := .header, header := [], payload := [], payloadLength := 0 }, none)
    else if value ≠ magic0 then ({ d with state := .resync }, none)
    else (d, none)

/-- `Feed`: the decoder after the bytes, and what they produced, in order. -/
def feed (d : BinaryFrameDecoder) : List UInt8 → BinaryFrameDecoder × List DecodeEvent
  | [] => (d, [])
  | value :: bytes =>
    let (d', ev) := feedByte d value
    let (d'', evs) := feed d' bytes
    (d'', ev.toList ++ evs)

end Host

end DeusOs
