import DeusOs.Rpc.Model.BinaryFrame

/-!
# The device — remote procedure calls

`binary_rpc.c`, with the parts of `command_service.c` it rests on: the
request is decoded from a frame, the command of the registry is looked up,
its handler is run, and what the handler writes is sent in frames. What a
handler does is a tree: it writes bytes, sees whether each was taken, and
returns. The diagnostic counters, which nothing here reads, and the checks
for null pointers to the state and the binding are not modelled.
-/

namespace DeusOs

namespace Rpc

open Nor (Mem)
open LittleEndian (write16 write32)

/-! ## Constants -/

/-- `BINARY_FRAME_TYPE_HELLO_REQUEST`. -/
def typeHelloRequest : UInt8 := 0x01
/-- `BINARY_FRAME_TYPE_RPC_REQUEST`. -/
def typeRpcRequest : UInt8 := 0x02
/-- `BINARY_FRAME_TYPE_HELLO_RESPONSE`. -/
def typeHelloResponse : UInt8 := 0x81
/-- `BINARY_FRAME_TYPE_RPC_DATA`. -/
def typeRpcData : UInt8 := 0x82
/-- `BINARY_FRAME_TYPE_RPC_END`. -/
def typeRpcEnd : UInt8 := 0x83
/-- `BINARY_FRAME_TYPE_PROTOCOL_ERROR`. -/
def typeProtocolError : UInt8 := 0x84
/-- `BINARY_RPC_FLAG_ALLOW_DESTRUCTIVE`. -/
def flagAllowDestructive : UInt8 := 0x01
/-- `BINARY_RPC_MAX_ARG_BYTES`. -/
def rpcMaxArgBytes : ℕ := 31
/-- `BINARY_RPC_REQUEST_PAYLOAD_MAX`. -/
def rpcRequestPayloadMax : ℕ := 132
/-- `BINARY_RPC_DATA_CHUNK_MAX`. -/
def rpcDataChunkMax : ℕ := 48
/-- `BINARY_RPC_DATA_PAYLOAD_MAX`. -/
def rpcDataPayloadMax : ℕ := 52
/-- `BINARY_RPC_STATUS_DOMAIN_COMMAND_SERVICE`. -/
def statusDomainCommandService : UInt8 := 0
/-- `BINARY_RPC_STATUS_DOMAIN_PROTOCOL`. -/
def statusDomainProtocol : UInt8 := 1
/-- `BINARY_RPC_PROTOCOL_MALFORMED_REQUEST`. -/
def protocolMalformedRequest : UInt8 := 1
/-- `BINARY_RPC_PROTOCOL_BAD_FLAGS`. -/
def protocolBadFlags : UInt8 := 2
/-- `BINARY_RPC_PROTOCOL_DESTRUCTIVE_CONFIRM_REQUIRED`. -/
def protocolDestructiveConfirmRequired : UInt8 := 3
/-- `BINARY_RPC_PROTOCOL_REQUEST_ID_RESERVED`. -/
def protocolRequestIdReserved : UInt8 := 4
/-- `COMMAND_SERVICE_FOUNDATION_VERSION`. -/
def commandServiceFoundationVersion : UInt8 := 3
/-- `COMMAND_SERVICE_LINE_CAPACITY`. -/
def commandServiceLineCapacity : ℕ := 32
/-- `COMMAND_SERVICE_MAX_ARGS`. -/
def commandServiceMaxArgs : ℕ := 4

/-! ## The registry -/

/-- `command_service_status_t`. -/
inductive CommandServiceStatus
  | ok | notFound | badArgs | busy | internalError
  deriving DecidableEq, Repr

/-- The cast to `uint8_t`. -/
def CommandServiceStatus.code : CommandServiceStatus → UInt8
  | .ok => 0
  | .notFound => 1
  | .badArgs => 2
  | .busy => 3
  | .internalError => 4

/-- `command_service_class_t`. -/
inductive CommandServiceClass
  | safe | diagnostic | destructive
  deriving DecidableEq, Repr

/-- `command_service_descriptor_t`, without the method id. -/
structure CommandServiceDescriptor where
  name : String
  rpcId : ℕ
  commandClass : CommandServiceClass
  minArgs : ℕ
  maxArgs : ℕ
  deriving DecidableEq, Repr

/-- `command_registry`. -/
def commandRegistry : List CommandServiceDescriptor :=
  [⟨"ping", 0x0001, .safe, 0, 0⟩,
    ⟨"uptime", 0x0002, .safe, 0, 0⟩,
    ⟨"health", 0x0003, .safe, 0, 0⟩,
    ⟨"rxstat", 0x0004, .safe, 0, 0⟩,
    ⟨"cdcstat", 0x0005, .safe, 0, 0⟩,
    ⟨"mspstat", 0x0006, .safe, 0, 0⟩,
    ⟨"schedprod", 0x0007, .safe, 0, 0⟩,
    ⟨"schedtimed", 0x0008, .safe, 0, 0⟩,
    ⟨"schedprio", 0x0009, .safe, 0, 0⟩,
    ⟨"fault", 0x000A, .safe, 0, 0⟩,
    ⟨"i2cscan", 0x000B, .safe, 0, 0⟩,
    ⟨"oledping", 0x000C, .safe, 0, 0⟩,
    ⟨"oledtest", 0x000D, .safe, 0, 0⟩,
    ⟨"oledtext", 0x000E, .safe, 0, 0⟩,
    ⟨"oledrender", 0x000F, .safe, 0, 0⟩,
    ⟨"oledconsole", 0x0010, .safe, 0, 0⟩,
    ⟨"oledscroll", 0x0011, .safe, 0, 0⟩,
    ⟨"oleddirty", 0x0012, .safe, 0, 0⟩,
    ⟨"oleduiupdate", 0x0013, .safe, 0, 0⟩,
    ⟨"uiruntime", 0x0014, .safe, 0, 0⟩,
    ⟨"oledstatus", 0x0015, .safe, 0, 0⟩,
    ⟨"schedtest", 0x0016, .diagnostic, 0, 0⟩,
    ⟨"schedcoop", 0x0017, .diagnostic, 0, 0⟩,
    ⟨"schedpreempt", 0x0018, .diagnostic, 0, 0⟩,
    ⟨"schedstack", 0x0019, .diagnostic, 0, 0⟩,
    ⟨"schedworkload", 0x001A, .diagnostic, 0, 0⟩,
    ⟨"schedconsoleprobe", 0x001B, .diagnostic, 0, 0⟩,
    ⟨"schedwaitwake", 0x001C, .diagnostic, 0, 0⟩,
    ⟨"schedisolate", 0x001D, .diagnostic, 0, 0⟩,
    ⟨"wdogtrip", 0x001E, .destructive, 0, 0⟩,
    ⟨"help", 0x001F, .safe, 0, 1⟩,
    ⟨"rpcinfo", 0x0020, .safe, 0, 0⟩,
    ⟨"applist", 0x0021, .safe, 0, 0⟩,
    ⟨"appstart", 0x0022, .safe, 1, 1⟩,
    ⟨"appstop", 0x0023, .safe, 0, 0⟩,
    ⟨"sysinfo", 0x0024, .safe, 0, 0⟩]

/-- `command_service_find_rpc_id`. -/
def findRpcId (rpcId : ℕ) : Option CommandServiceDescriptor :=
  if rpcId = 0 then none else commandRegistry.find? fun descriptor => descriptor.rpcId = rpcId

/-! ## Decoding a request -/

/-- `binary_rpc_decode_result_t`. -/
inductive DecodeResult
  | ok | malformed | badArgs
  deriving DecidableEq, Repr

/-- The request as far as it is decoded. An argument points to a row of the
argument storage. Beside it stands which bytes of the payload were read, and
which bytes of the storage were written. -/
structure Decoding where
  badArgs : Bool
  offset : ℕ
  argv : ℕ → Option ℕ
  storage : ℕ → Mem
  reads : List ℕ
  writes : List (ℕ × ℕ)

/-- Row `row` of the storage, with `bs` stored from `0` on. -/
def storeRow (storage : ℕ → Mem) (row : ℕ) (bs : List UInt8) : ℕ → Mem := fun i =>
  if i = row then (storage row).store 0 bs else storage i

/-- The body of the loop over the declared arguments; `false` where the
request is malformed. -/
def decodeArgument (payload : Mem) (payloadLength argIndex : ℕ) (d : Decoding) : Decoding × Bool :=
  if payloadLength ≤ d.offset then (d, false)
  else
    let argumentLength := (payload d.offset).toNat
    let offset := d.offset + 1
    let d := { d with offset, reads := d.reads ++ [d.offset] }
    if payloadLength < offset + argumentLength then (d, false)
    else
      let argument := payload.bytes offset argumentLength
      let span := (List.range argumentLength).map fun byteIndex => offset + byteIndex
      let d := { d with
        badArgs := d.badArgs || decide (rpcMaxArgBytes < argumentLength) ||
          decide ((0 : UInt8) ∈ argument)
        reads := d.reads ++ span }
      let d :=
        if argIndex < commandServiceMaxArgs ∧ argumentLength ≤ rpcMaxArgBytes then
          { d with
            storage := storeRow d.storage argIndex (argument ++ [0])
            argv := fun i => if i = argIndex then some argIndex else d.argv i
            reads := d.reads ++ span
            writes := d.writes ++
              (List.range (argumentLength + 1)).map fun byteIndex => (argIndex, byteIndex) }
        else d
      ({ d with offset := offset + argumentLength }, true)

/-- The loop, with the arguments that are left. -/
def decodeArguments (payload : Mem) (payloadLength : ℕ) : ℕ → ℕ → Decoding → Decoding × Bool
  | 0, _, d => (d, true)
  | left + 1, argIndex, d =>
    match decodeArgument payload payloadLength argIndex d with
    | (d, false) => (d, false)
    | (d, true) => decodeArguments payload payloadLength left (argIndex + 1) d

/-- What `binary_rpc_decode_request` returns, and leaves behind its
pointers. -/
structure Decoded where
  result : DecodeResult
  rpcId : ℕ
  argc : ℕ
  decoding : Decoding

/-- The arguments are cleared. -/
def clearArguments (storage : ℕ → Mem) : ℕ → Mem := fun i =>
  if i < commandServiceMaxArgs then (storage i).store 0 [0] else storage i

/-- `binary_rpc_decode_request`, where the id and the count were zero
before. -/
def decodeRequest (storage : ℕ → Mem) (frame : BinaryFrameView) : Decoded :=
  match frame.payload with
  | none => ⟨.malformed, 0, 0, ⟨false, 0, fun _ => none, storage, [], []⟩⟩
  | some payload =>
    if frame.payloadLength < 4 then
      ⟨.malformed, 0, 0, ⟨false, 0, fun _ => none, storage, [], []⟩⟩
    else
      let rpcId := Nor.le16 (payload 0) (payload 1)
      let declaredArgc := (payload 2).toNat
      if payload 3 ≠ 0 then
        ⟨.malformed, rpcId, declaredArgc, ⟨false, 0, fun _ => none, storage, [0, 1, 2, 3], []⟩⟩
      else
        let start : Decoding :=
          { badArgs := decide (commandServiceMaxArgs < declaredArgc)
            offset := 4
            argv := fun _ => none
            storage := clearArguments storage
            reads := [0, 1, 2, 3]
            writes := (List.range commandServiceMaxArgs).map fun argIndex => (argIndex, 0) }
        match decodeArguments payload frame.payloadLength declaredArgc 0 start with
        | (d, false) => ⟨.malformed, rpcId, declaredArgc, d⟩
        | (d, true) =>
          if d.offset ≠ frame.payloadLength then ⟨.malformed, rpcId, declaredArgc, d⟩
          else ⟨if d.badArgs then .badArgs else .ok, rpcId, declaredArgc, d⟩

/-! ## The state -/

/-- `command_service_request_t`, with the rows that the arguments point to. -/
structure CommandServiceRequest where
  descriptor : CommandServiceDescriptor
  argc : ℕ
  argv : ℕ → Option Mem

/-- What a handler does: it returns, or it writes a byte and goes on as it
was taken or not. -/
inductive Handler
  | ret (status : CommandServiceStatus)
  | write (byte : UInt8) (next : Bool → Handler)

/-- `binary_rpc_binding_t`. -/
structure RpcBinding (ω : Type) where
  sendWire : ω → List UInt8 → ω × Bool
  commandHandler : CommandServiceRequest → Handler
  capabilityFlags : ℕ

/-- What the outside sees. -/
inductive RpcEvent
  /-- Bytes were handed to `send_wire`, which took them or not. -/
  | handed (wire : List UInt8) (taken : Bool)
  /-- The handler was called. -/
  | invoked (request : CommandServiceRequest)

/-- `binary_rpc_state_t` with its workspace, the context of `send_wire`, and
what the outside has seen, which nothing reads. -/
structure RpcState (ω : Type) where
  argumentStorage : ℕ → Mem
  wire : Mem
  link : ω
  activeRpcId : ℕ
  activeRequestId : ℕ
  sequence : ℕ
  totalOutputBytes : ℕ
  dataChunkLength : ℕ
  txFailed : Bool
  seen : List RpcEvent

variable {ω : Type} (binding : RpcBinding ω)

/-! ## Sending -/

/-- `binary_rpc_send_workspace_frame`. -/
def sendWorkspaceFrame (s : RpcState ω) (frameType : UInt8) (requestId payloadLength : ℕ) :
    RpcState ω × Bool :=
  if rpcDataPayloadMax < payloadLength then (s, false)
  else
    let (wire, wireLength) := finalizeInPlace frameType 0 requestId payloadLength s.wire
    let (link, taken) := binding.sendWire s.link (wire.bytes 0 wireLength)
    let s := { s with wire, link, seen := s.seen ++ [.handed (wire.bytes 0 wireLength) taken] }
    if taken then (s, true) else ({ s with txFailed := true }, false)

/-- Bytes are put into the payload in the workspace. -/
def putPayload (s : RpcState ω) (offset : ℕ) (bs : List UInt8) : RpcState ω :=
  { s with wire := s.wire.store (frameFixedPrefixBytes + offset) bs }

/-- `binary_rpc_send_protocol_error`. -/
def sendProtocolError (s : RpcState ω) (requestId : ℕ) (code observed : UInt8) :
    RpcState ω × Bool :=
  sendWorkspaceFrame binding (putPayload s 0 [code, observed]) typeProtocolError requestId 2

/-- `binary_rpc_flush_data`. -/
def flushData (s : RpcState ω) : RpcState ω × Bool :=
  if s.dataChunkLength = 0 then (s, true)
  else
    let s := putPayload s 0 (write16 s.activeRpcId ++ write16 s.sequence)
    match sendWorkspaceFrame binding s typeRpcData s.activeRequestId (4 + s.dataChunkLength) with
    | (s, false) => (s, false)
    | (s, true) =>
      ({ s with
          totalOutputBytes := (s.totalOutputBytes + s.dataChunkLength) % 4294967296
          dataChunkLength := 0
          sequence := (s.sequence + 1) % 65536 }, true)

/-- `binary_rpc_output_write_byte`. -/
def outputWriteByte (s : RpcState ω) (byte : UInt8) : RpcState ω × Bool :=
  if s.txFailed then (s, false)
  else
    match (if rpcDataChunkMax ≤ s.dataChunkLength then flushData binding s else (s, true)) with
    | (s, false) => (s, false)
    | (s, true) =>
      let s := putPayload s (4 + s.dataChunkLength) [byte]
      let s := { s with dataChunkLength := s.dataChunkLength + 1 }
      if s.dataChunkLength = rpcDataChunkMax ∨ byte = 0x0A then flushData binding s else (s, true)

/-- `binary_rpc_send_end`. -/
def sendEnd (s : RpcState ω) (rpcId requestId chunkCount totalOutputBytes : ℕ)
    (statusDomain statusCode : UInt8) : RpcState ω × Bool :=
  sendWorkspaceFrame binding
    (putPayload s 0 (write16 rpcId ++ write16 chunkCount ++ write32 totalOutputBytes ++
      [statusDomain, statusCode])) typeRpcEnd requestId 10

/-- `binary_rpc_send_simple_end`. -/
def sendSimpleEnd (s : RpcState ω) (rpcId requestId : ℕ) (statusDomain statusCode : UInt8) :
    RpcState ω × Bool :=
  sendEnd binding s rpcId requestId 0 0 statusDomain statusCode

/-- `binary_rpc_send_hello`. -/
def sendHello (s : RpcState ω) (requestId : ℕ) : RpcState ω × Bool :=
  sendWorkspaceFrame binding
    (putPayload s 0 ([frameProtocolVersion, commandServiceFoundationVersion,
        UInt8.ofNat commandServiceMaxArgs, 0] ++ write16 commandServiceLineCapacity ++
      write16 rpcRequestPayloadMax ++ write16 rpcDataChunkMax ++ write16 commandRegistry.length ++
      write32 binding.capabilityFlags)) typeHelloResponse requestId 16

/-! ## Handling -/

/-- The handler runs, with `write_failed` of its context. -/
def runHandler : Handler → RpcState ω → Bool → RpcState ω × Bool × CommandServiceStatus
  | .ret status, s, writeFailed => (s, writeFailed, status)
  | .write byte next, s, writeFailed =>
    match outputWriteByte binding s byte with
    | (s, true) => runHandler (next true) s writeFailed
    | (s, false) => runHandler (next false) s true

/-- `command_service_execute`. -/
def commandServiceExecute (request : CommandServiceRequest) (s : RpcState ω) :
    RpcState ω × Bool × CommandServiceStatus :=
  let s := { s with seen := s.seen ++ [.invoked request] }
  match runHandler binding (binding.commandHandler request) s false with
  | (s, writeFailed, status) => (s, writeFailed, if writeFailed then .internalError else status)

/-- The end of `binary_rpc_handle_rpc_request`: the command is executed, what
is left is flushed, and the end is sent. -/
def answerRequest (s : RpcState ω) (requestId rpcId : ℕ) (request : CommandServiceRequest) :
    RpcState ω × Bool :=
  let s := { s with
    activeRpcId := rpcId
    activeRequestId := requestId
    sequence := 0
    totalOutputBytes := 0
    dataChunkLength := 0
    txFailed := false }
  match commandServiceExecute binding request s with
  | (s, writeFailed, status) =>
    let (s, status) :=
      if s.txFailed then (s, status)
      else match flushData binding s with
        | (s, true) => (s, status)
        | (s, false) => (s, .internalError)
    let status := if writeFailed || s.txFailed then .internalError else status
    sendEnd binding s rpcId requestId s.sequence s.totalOutputBytes statusDomainCommandService
      status.code

/-- `binary_rpc_handle_rpc_request`. -/
def handleRpcRequest (s : RpcState ω) (frame : BinaryFrameView) : RpcState ω × Bool :=
  if frame.flags &&& ~~~flagAllowDestructive ≠ 0 then
    match frame.payload with
    | some payload =>
      if 2 ≤ frame.payloadLength then
        sendSimpleEnd binding s (Nor.le16 (payload 0) (payload 1)) frame.requestId
          statusDomainProtocol protocolBadFlags
      else sendProtocolError binding s frame.requestId protocolBadFlags frame.flags
    | none => sendProtocolError binding s frame.requestId protocolBadFlags frame.flags
  else
    let decoded := decodeRequest s.argumentStorage frame
    let s := { s with argumentStorage := decoded.decoding.storage }
    if decoded.result = .malformed then
      if 2 ≤ frame.payloadLength then
        sendSimpleEnd binding s decoded.rpcId frame.requestId statusDomainProtocol
          protocolMalformedRequest
      else sendProtocolError binding s frame.requestId protocolMalformedRequest 0
    else match findRpcId decoded.rpcId with
      | none =>
        sendSimpleEnd binding s decoded.rpcId frame.requestId statusDomainCommandService
          CommandServiceStatus.notFound.code
      | some descriptor =>
        if decoded.result = .badArgs ∨ decoded.argc < descriptor.minArgs ∨
            descriptor.maxArgs < decoded.argc then
          sendSimpleEnd binding s decoded.rpcId frame.requestId statusDomainCommandService
            CommandServiceStatus.badArgs.code
        else if descriptor.commandClass = .destructive ∧
            frame.flags &&& flagAllowDestructive = 0 then
          sendSimpleEnd binding s decoded.rpcId frame.requestId statusDomainProtocol
            protocolDestructiveConfirmRequired
        else
          answerRequest binding s frame.requestId decoded.rpcId
            { descriptor
              argc := decoded.argc
              argv := fun i => (decoded.decoding.argv i).map decoded.decoding.storage }

/-- `binary_rpc_handle_frame`. -/
def rpcHandleFrame (s : RpcState ω) (frame : BinaryFrameView) : RpcState ω × Bool :=
  let s := { s with txFailed := false }
  if frame.version ≠ frameProtocolVersion then
    sendProtocolError binding s frame.requestId protocolMalformedRequest frame.version
  else if frame.reserved ≠ 0 then
    sendProtocolError binding s frame.requestId protocolMalformedRequest frame.reserved
  else if frame.requestId = 0 then sendProtocolError binding s 0 protocolRequestIdReserved 0
  else if frame.frameType = typeHelloRequest then
    if frame.flags ≠ 0 then
      sendProtocolError binding s frame.requestId protocolBadFlags frame.flags
    else if frame.payloadLength ≠ 0 then
      sendProtocolError binding s frame.requestId protocolMalformedRequest 0
    else sendHello binding s frame.requestId
  else if frame.frameType = typeRpcRequest then handleRpcRequest binding s frame
  else sendProtocolError binding s frame.requestId protocolMalformedRequest frame.frameType

end Rpc

end DeusOs
