import DeusOs.Common.Buffer
import DeusOs.Common.LittleEndian

/-!
# The device — binary frames

`binary_frame.c`: the parser that the device feeds with what it receives,
and the encoder of what it sends. An array is a memory, read and written at
its index; what was in it before is whatever it was. The checks for null
pointers are not modelled.
-/

namespace DeusOs

namespace Rpc

open Nor (Mem)
open LittleEndian (write16)

/-! ## Constants -/

/-- `BINARY_FRAME_MAGIC0`. -/
def frameMagic0 : UInt8 := 0xA5
/-- `BINARY_FRAME_MAGIC1`. -/
def frameMagic1 : UInt8 := 0x5A
/-- `BINARY_FRAME_PROTOCOL_VERSION`. -/
def frameProtocolVersion : UInt8 := 1
/-- `BINARY_FRAME_FIXED_PREFIX_BYTES`. -/
def frameFixedPrefixBytes : ℕ := 10
/-- `BINARY_FRAME_CRC_BYTES`. -/
def frameCrcBytes : ℕ := 2
/-- `BINARY_FRAME_MAX_PAYLOAD`. -/
def frameMaxPayload : ℕ := 132
/-- `sizeof(parser->header)`. -/
def frameHeaderBytes : ℕ := 8

/-! ## The checksum -/

/-- One bit of `binary_frame_crc16_update`. -/
def crc16Bit (crc : UInt16) : UInt16 :=
  if crc &&& 0x8000 ≠ 0 then (crc <<< 1) ^^^ 0x1021 else crc <<< 1

/-- `binary_frame_crc16_update`. -/
def crc16Update (crc : UInt16) (byte : UInt8) : UInt16 :=
  (List.range 8).foldl (fun c _ => crc16Bit c) (crc ^^^ (byte.toUInt16 <<< (8 : UInt16)))

/-- `binary_frame_crc16_ccitt_false`. -/
def crc16CcittFalse (data : List UInt8) : UInt16 := data.foldl crc16Update 0xFFFF

/-! ## The parser -/

/-- `binary_frame_view_t`: the payload pointer, `none` where it is null,
and the length are apart. -/
structure BinaryFrameView where
  version : UInt8
  frameType : UInt8
  flags : UInt8
  reserved : UInt8
  requestId : ℕ
  payloadLength : ℕ
  payload : Option Mem

/-- The bytes of the payload. -/
def BinaryFrameView.bytes (frame : BinaryFrameView) : List UInt8 :=
  match frame.payload with
  | none => []
  | some payload => payload.bytes 0 frame.payloadLength

/-- The values of `parser->state`. -/
inductive ParserState
  | idle | magic1 | header | payload | crc0 | crc1 | resync | resyncMagic1
  deriving DecidableEq, Repr

/-- `binary_frame_parser_t`. -/
structure BinaryFrameParser where
  state : ParserState
  header : Mem
  payload : Mem
  headerIndex : ℕ
  payloadIndex : ℕ
  payloadLength : ℕ
  crc : UInt16
  receivedCrcLow : UInt8
  framesReceived : UInt32
  syncErrors : UInt32
  crcErrors : UInt32
  lengthErrors : UInt32

/-- `binary_frame_feed_result_t`, with the view that is filled in. -/
inductive FeedResult
  | text
  | consumed
  | frameReady (frame : BinaryFrameView)
  | syncErrorText
  | syncErrorConsumed
  | crcError
  | lengthError

/-- `binary_frame_parser_reset`. -/
def parserReset (p : BinaryFrameParser) : BinaryFrameParser :=
  { p with
    state := .idle, headerIndex := 0, payloadIndex := 0, payloadLength := 0, crc := 0xFFFF
    receivedCrcLow := 0 }

/-- `binary_frame_parser_init`. -/
def parserInit (p : BinaryFrameParser) : BinaryFrameParser :=
  parserReset { p with framesReceived := 0, syncErrors := 0, crcErrors := 0, lengthErrors := 0 }

/-- The frame begins: the assignments of `BINARY_FRAME_PARSER_MAGIC1` and of
`BINARY_FRAME_PARSER_RESYNC_MAGIC1`. -/
def parserBegin (p : BinaryFrameParser) : BinaryFrameParser :=
  { p with state := .header, headerIndex := 0, payloadIndex := 0, payloadLength := 0, crc := 0xFFFF }

/-- The case `BINARY_FRAME_PARSER_HEADER`. -/
def feedHeader (p : BinaryFrameParser) (byte : UInt8) : BinaryFrameParser × FeedResult :=
  let p := { p with
    header := p.header.store p.headerIndex [byte]
    crc := crc16Update p.crc byte
    headerIndex := p.headerIndex + 1 }
  if p.headerIndex = frameHeaderBytes then
    let p := { p with payloadLength := (p.header 6).toNat ||| ((p.header 7).toNat <<< 8) }
    if frameMaxPayload < p.payloadLength then
      ({ p with lengthErrors := p.lengthErrors + 1, state := .resync }, .lengthError)
    else if p.payloadLength = 0 then ({ p with state := .crc0 }, .consumed)
    else ({ p with payloadIndex := 0, state := .payload }, .consumed)
  else (p, .consumed)

/-- The case `BINARY_FRAME_PARSER_PAYLOAD`. -/
def feedPayload (p : BinaryFrameParser) (byte : UInt8) : BinaryFrameParser × FeedResult :=
  let p := { p with
    payload := p.payload.store p.payloadIndex [byte]
    crc := crc16Update p.crc byte
    payloadIndex := p.payloadIndex + 1 }
  if p.payloadIndex = p.payloadLength then ({ p with state := .crc0 }, .consumed)
  else (p, .consumed)

/-- The case `BINARY_FRAME_PARSER_CRC1`. -/
def feedCrc1 (p : BinaryFrameParser) (byte : UInt8) : BinaryFrameParser × FeedResult :=
  if p.receivedCrcLow.toUInt16 ||| (byte.toUInt16 <<< (8 : UInt16)) ≠ p.crc then
    (parserReset { p with crcErrors := p.crcErrors + 1 }, .crcError)
  else
    (parserReset { p with framesReceived := p.framesReceived + 1 }, .frameReady
      { version := p.header 0, frameType := p.header 1, flags := p.header 2, reserved := p.header 3
        requestId := (p.header 4).toNat ||| ((p.header 5).toNat <<< 8)
        payloadLength := p.payloadLength, payload := some p.payload })

/-- `binary_frame_parser_feed`. -/
def parserFeed (p : BinaryFrameParser) (byte : UInt8) : BinaryFrameParser × FeedResult :=
  match p.state with
  | .idle => if byte = frameMagic0 then ({ p with state := .magic1 }, .consumed) else (p, .text)
  | .magic1 =>
    if byte = frameMagic1 then (parserBegin p, .consumed)
    else
      let p := { p with syncErrors := p.syncErrors + 1 }
      if byte = frameMagic0 then ({ p with state := .magic1 }, .syncErrorConsumed)
      else (parserReset p, .syncErrorText)
  | .header => feedHeader p byte
  | .payload => feedPayload p byte
  | .crc0 => ({ p with receivedCrcLow := byte, state := .crc1 }, .consumed)
  | .crc1 => feedCrc1 p byte
  | .resync => (if byte = frameMagic0 then { p with state := .resyncMagic1 } else p, .consumed)
  | .resyncMagic1 =>
    (if byte = frameMagic1 then parserBegin p
      else if byte ≠ frameMagic0 then { p with state := .resync }
      else p, .consumed)

/-- The parser, fed byte after byte. -/
def parserRun (p : BinaryFrameParser) (bytes : List UInt8) : BinaryFrameParser :=
  bytes.foldl (fun p byte => (parserFeed p byte).1) p

/-- What `binary_frame_parser_feed` returns, byte after byte. -/
def parserResults (p : BinaryFrameParser) : List UInt8 → List FeedResult
  | [] => []
  | byte :: bytes => (parserFeed p byte).2 :: parserResults (parserFeed p byte).1 bytes

/-! ## The encoder -/

/-- `binary_frame_finalize_in_place`: the wire buffer, and the length. -/
def finalizeInPlace (frameType flags : UInt8) (requestId payloadLength : ℕ) (wire : Mem) :
    Mem × ℕ :=
  let wire := wire.store 0
    ([frameMagic0, frameMagic1, frameProtocolVersion, frameType, flags, 0] ++ write16 requestId ++
      write16 payloadLength)
  let crc := crc16CcittFalse (wire.bytes 2 (8 + payloadLength))
  (wire.store (frameFixedPrefixBytes + payloadLength) (write16 crc.toNat),
    frameFixedPrefixBytes + payloadLength + frameCrcBytes)

/-- `binary_frame_encode`: the wire buffer, and the length, zero where the
frame is refused. -/
def frameEncode (frameType flags : UInt8) (requestId : ℕ) (payload : List UInt8) (wire : Mem)
    (wireCapacity : ℕ) : Mem × ℕ :=
  if frameMaxPayload < payload.length then (wire, 0)
  else if wireCapacity < frameFixedPrefixBytes + payload.length + frameCrcBytes then (wire, 0)
  else finalizeInPlace frameType flags requestId payload.length
    (wire.store frameFixedPrefixBytes payload)

end Rpc

end DeusOs
