import DeusOs.Common.Crc16
import DeusOs.Common.LittleEndian

/-!
# The node link — frames

The codec of `deus_node_link.c`. A frame's payload is the list of its
`payload_length` bytes; the rest of the source's array is zero, which is
what a read past the list sees. A buffer is the list of its bytes, so the
null-pointer checks have no counterpart.
-/

namespace DeusOs

namespace NodeLink

open LittleEndian (read16 read32 write16 write32)

/-- `DNL_VERSION`. -/
abbrev version : UInt8 := 1
/-- `DNL_NODE_ID`. -/
abbrev nodeId : UInt8 := 1
/-- `DNL_MAX_PAYLOAD`. -/
abbrev maxPayload : ℕ := 24
/-- `DNL_MAX_FRAME`. -/
abbrev maxFrame : ℕ := 40
/-- `DNL_FRAME_OVERHEAD`. -/
abbrev frameOverhead : ℕ := 16
/-- `DNL_MAX_JOB_BYTES`. -/
abbrev maxJobBytes : ℕ := 16
/-- `DNL_PARTIAL_TIMEOUT_MS`. -/
abbrev partialTimeoutMs : UInt32 := 50

/-! ## The message types -/

namespace Message

/-- `DNL_HELLO`. -/
abbrev hello : UInt8 := 0x01
/-- `DNL_PING`. -/
abbrev ping : UInt8 := 0x02
/-- `DNL_JOB_CRC32`. -/
abbrev jobCrc32 : UInt8 := 0x03
/-- `DNL_GET_STATUS`. -/
abbrev getStatus : UInt8 := 0x04
/-- `DNL_HELLO_ACK`. -/
abbrev helloAck : UInt8 := 0x81
/-- `DNL_PONG`. -/
abbrev pong : UInt8 := 0x82
/-- `DNL_JOB_RESULT`. -/
abbrev jobResult : UInt8 := 0x83
/-- `DNL_STATUS`. -/
abbrev status : UInt8 := 0x84
/-- `DNL_ERROR`. -/
abbrev error : UInt8 := 0xFF

end Message

namespace ErrorCode

/-- `DNL_ERR_UNSUPPORTED`. -/
abbrev unsupported : UInt8 := 1
/-- `DNL_ERR_BAD_PAYLOAD`. -/
abbrev badPayload : UInt8 := 2
/-- `DNL_ERR_BAD_SEQUENCE`. -/
abbrev badSequence : UInt8 := 4

end ErrorCode

/-- What the functions of the link return besides `DNL_OK`. -/
inductive Status
  | drop | badArgument | badFrame | badMessage | outputTooSmall | wrongDirection | unsolicited
  | staleSession | wrongSequence | wrongReplyType | badResultLength | badHelloEcho | remoteError
  | rehandshakeRequired | notReadyOrBusy
  deriving DecidableEq, Repr

/-! ## Checksums -/

/-- `dnl_crc16_ccitt_false`. -/
def crc16CcittFalse (bytes : List UInt8) : UInt16 := Crc16.ccittFalse bytes

/-- One bit of `dnl_crc32_ieee`. -/
def crc32Bit (crc : UInt32) : UInt32 :=
  if crc &&& 1 ≠ 0 then (crc >>> 1) ^^^ 0xEDB88320 else crc >>> 1

/-- One byte of it. -/
def crc32Byte (crc : UInt32) (b : UInt8) : UInt32 :=
  (List.range 8).foldl (fun c _ => crc32Bit c) (crc ^^^ b.toUInt32)

/-- `dnl_crc32_ieee`. -/
def crc32Ieee (bytes : List UInt8) : UInt32 := bytes.foldl crc32Byte 0xFFFFFFFF ^^^ 0xFFFFFFFF

example : crc32Ieee "123456789".toUTF8.toList = 0xCBF43926 := by decide +kernel

/-! ## Frames -/

/-- `dnl_frame_t`. -/
structure Frame where
  type : UInt8
  sequence : UInt16
  sessionId : UInt32
  payload : List UInt8
  deriving DecidableEq, Repr

/-- The bytes of a frame that its checksum covers. -/
def Frame.body (f : Frame) : List UInt8 :=
  [version, f.type, nodeId, 0] ++ write16 f.sequence.toNat ++
    [UInt8.ofNat f.payload.length, 0] ++ write32 f.sessionId.toNat ++ f.payload

/-- The bytes of a frame. -/
def Frame.wire (f : Frame) : List UInt8 :=
  [0xD5, 0x4E] ++ f.body ++ write16 (crc16CcittFalse f.body).toNat

/-- `dnl_encode`, into a buffer of `cap` bytes. -/
def encode (f : Frame) (cap : ℕ) : Except Status (List UInt8) :=
  if f.sequence = 0 ∨ maxPayload < f.payload.length then .error .badMessage
  else if cap < frameOverhead + f.payload.length then .error .outputTooSmall
  else .ok f.wire

/-- `dnl_decode`; `none` is `DNL_BAD_FRAME`. -/
def decode (buf : List UInt8) : Option Frame :=
  if buf.length < 16 ∨ 40 < buf.length then none
  else if buf.getD 0 0 ≠ 0xD5 ∨ buf.getD 1 0 ≠ 0x4E ∨ buf.getD 2 0 ≠ version ∨
      buf.getD 4 0 ≠ nodeId ∨ buf.getD 5 0 ≠ 0 ∨ buf.getD 9 0 ≠ 0 then none
  else
    let length := (buf.getD 8 0).toNat
    if maxPayload < length ∨ buf.length ≠ length + 16 ∨ read16 buf 6 = 0 then none
    else if read16 buf (14 + length) ≠
        (crc16CcittFalse ((buf.drop 2).take (buf.length - 4))).toNat then none
    else some
      { type := buf.getD 3 0
        sequence := UInt16.ofNat (read16 buf 6)
        sessionId := UInt32.ofNat (read32 buf 10)
        payload := (buf.drop 14).take length }

/-- `dnl_validate_payload`; `false` is `DNL_BAD_MESSAGE`. -/
def validatePayload (f : Frame) : Bool :=
  if f.type = Message.hello then
    f.payload.length = 4 ∧ read32 f.payload 0 ≠ 0
  else if f.type = Message.helloAck then
    f.payload.length = 8 ∧ read32 f.payload 0 ≠ 0 ∧ f.payload.getD 4 0 = 1 ∧
      f.payload.getD 5 0 = 3 ∧ f.payload.getD 6 0 = 16 ∧ f.payload.getD 7 0 = 2
  else if f.type = Message.ping ∨ f.type = Message.pong ∨ f.type = Message.getStatus then
    f.payload.length = 0
  else if f.type = Message.jobCrc32 then
    1 ≤ f.payload.length ∧ (f.payload.getD 0 0).toNat ≤ maxJobBytes ∧
      f.payload.length = 1 + (f.payload.getD 0 0).toNat
  else if f.type = Message.jobResult then
    f.payload.length = 5 ∧ (f.payload.getD 0 0).toNat ≤ maxJobBytes
  else if f.type = Message.status then
    f.payload.length = 4 ∧ 1 ≤ f.payload.getD 0 0 ∧ f.payload.getD 0 0 ≤ 4 ∧
      f.payload.getD 1 0 ≤ 5
  else if f.type = Message.error then
    f.payload.length = 2 ∧ 1 ≤ f.payload.getD 0 0 ∧ f.payload.getD 0 0 ≤ 5
  else true

/-- `dnl_is_reply`. -/
def isReply (type : UInt8) : Bool :=
  type = Message.helloAck ∨ type = Message.pong ∨ type = Message.jobResult ∨
    type = Message.status ∨ type = Message.error

end NodeLink

end DeusOs
