import DeusOs.Common.Digits
import DeusOs.Common.Fields
import DeusOs.Host.Model.RpcClient

/-!
# The host — reports

`KeyValueTokens`, `ApplicationListParser`, `SystemInfoParser` and
`ManagementStateParser` of `DeusOs.Control.Core`, with `OutputText` of an
`RpcResult`. A string is the list of its UTF-16 code units, a dictionary the
list of its pairs. What cannot be `null` here is not checked for it.
-/

namespace DeusOs

namespace Host

/-- A string. -/
abbrev Text := List UInt16

/-- A literal, which is ASCII. -/
def text (s : String) : Text := s.toList.map fun c => UInt16.ofNat c.toNat

/-- `DeusHostException`, without what caused it. -/
structure DeusHostException where
  kind : HostErrorKind
  message : Text
  deriving DecidableEq

/-! ## Characters -/

/-- What a UTF-8 sequence that has begun still needs: so many bytes, the next
of them between bounds. -/
structure Utf8Pending where
  needed : ℕ
  lower : UInt8
  upper : UInt8
  codePoint : ℕ

/-- The code units of a code point. -/
def utf16OfCodePoint (codePoint : ℕ) : Text :=
  if codePoint < 0x10000 then [UInt16.ofNat codePoint]
  else [UInt16.ofNat (0xD800 + (codePoint - 0x10000) / 0x400),
    UInt16.ofNat (0xDC00 + (codePoint - 0x10000) % 0x400)]

/-- A byte with which a sequence begins, or that is no part of one. -/
def utf8Begin (byte : UInt8) : Text × Option Utf8Pending :=
  let b := byte.toNat
  if b < 0x80 then ([UInt16.ofNat b], none)
  else if 0xC2 ≤ b ∧ b ≤ 0xDF then ([], some ⟨1, 0x80, 0xBF, b - 0xC0⟩)
  else if 0xE0 ≤ b ∧ b ≤ 0xEF then
    ([], some ⟨2, if b = 0xE0 then 0xA0 else 0x80, if b = 0xED then 0x9F else 0xBF, b - 0xE0⟩)
  else if 0xF0 ≤ b ∧ b ≤ 0xF4 then
    ([], some ⟨3, if b = 0xF0 then 0x90 else 0x80, if b = 0xF4 then 0x8F else 0xBF, b - 0xF0⟩)
  else ([0xFFFD], none)

/-- The rest of a string. A sequence that is broken off is replaced by one
`U+FFFD`. -/
def utf8Decode : Option Utf8Pending → List UInt8 → Text
  | none, [] => []
  | some _, [] => [0xFFFD]
  | none, byte :: bytes => (utf8Begin byte).1 ++ utf8Decode (utf8Begin byte).2 bytes
  | some pending, byte :: bytes =>
    if pending.lower ≤ byte ∧ byte ≤ pending.upper then
      let codePoint := pending.codePoint * 0x40 + (byte.toNat - 0x80)
      if pending.needed = 1 then utf16OfCodePoint codePoint ++ utf8Decode none bytes
      else utf8Decode (some ⟨pending.needed - 1, 0x80, 0xBF, codePoint⟩) bytes
    else [0xFFFD] ++ (utf8Begin byte).1 ++ utf8Decode (utf8Begin byte).2 bytes

/-- `Encoding.UTF8.GetString`. -/
def utf8GetString (bytes : List UInt8) : Text := utf8Decode none bytes

/-- `char.IsWhiteSpace`. -/
def isWhiteSpace (c : UInt16) : Bool :=
  (0x09 ≤ c && c ≤ 0x0D) || c = 0x20 || c = 0x85 || c = 0xA0 || c = 0x1680 ||
    (0x2000 ≤ c && c ≤ 0x200A) || c = 0x2028 || c = 0x2029 || c = 0x202F || c = 0x205F || c = 0x3000

/-- The value of a hexadecimal digit. -/
def hexValue (c : UInt16) : Option ℕ :=
  if 0x30 ≤ c ∧ c ≤ 0x39 then some (c.toNat - 0x30)
  else if 0x41 ≤ c ∧ c ≤ 0x46 then some (c.toNat - 0x37)
  else if 0x61 ≤ c ∧ c ≤ 0x66 then some (c.toNat - 0x57)
  else none

/-- `uint.TryParse` with `AllowHexSpecifier`: digits, and behind them nothing
but NULs. -/
def tryParseHex (s : Text) : Option UInt32 :=
  let digits := s.takeWhile fun c => (hexValue c).isSome
  let value := Digits.read 16 (digits.filterMap hexValue) 0
  if digits = [] ∨ (∃ c ∈ s.drop digits.length, c ≠ 0) ∨ 4294967296 ≤ value then none
  else some (UInt32.ofNat value)

/-- A digit of the format `X`. -/
def hexDigit (digit : ℕ) : UInt16 :=
  if digit < 10 then UInt16.ofNat (0x30 + digit) else UInt16.ofNat (0x37 + digit)

/-- The format `X4` or `X8` of a value that has no more digits. -/
def formatHex (width value : ℕ) : Text := (Digits.write 16 width value).map hexDigit

/-- A number as it is interpolated. -/
def decimal (value : ℕ) : Text := text (toString value)

/-! ## `KeyValueTokens` -/

/-- A dictionary. -/
abbrev Dictionary := List (Text × Text)

namespace KeyValueTokens

/-- `ParseLine`. -/
def parseLine (line : Text) (errorKind : HostErrorKind) : Except DeusHostException Dictionary :=
  match Fields.readFields 0x20 0x3D isWhiteSpace line with
  | .ok values => .ok values
  | .error (.malformed token) =>
    .error ⟨errorKind, text "malformed key/value token '" ++ token ++ text "'"⟩
  | .error (.duplicate key) => .error ⟨errorKind, text "duplicate key '" ++ key ++ text "'"⟩

/-- `Require`. -/
def require (values : Dictionary) (key : String) (errorKind : HostErrorKind) :
    Except DeusHostException Text :=
  match values.lookup (text key) with
  | none => .error ⟨errorKind, text "missing key '" ++ text key ++ text "'"⟩
  | some value => .ok value

/-- `RequireHex32`. -/
def requireHex32 (values : Dictionary) (key : String) (errorKind : HostErrorKind) :
    Except DeusHostException UInt32 := do
  let found ← require values key errorKind
  let refused : DeusHostException :=
    ⟨errorKind, text "invalid 32-bit hex value for '" ++ text key ++ text "': '" ++ found ++ text "'"⟩
  if found.length ≠ 10 ∨ found.take 2 ≠ text "0x" then .error refused
  else match tryParseHex (found.drop 2) with
    | none => .error refused
    | some value => .ok value

end KeyValueTokens

open KeyValueTokens (parseLine require requireHex32)

/-- `text.Split(new[] { "\r\n", "\n" }, RemoveEmptyEntries)`. -/
def splitLines (s : Text) : List Text := Fields.lines 0x0D 0x0A s

/-! ## `ApplicationListParser` -/

/-- `ApplicationInfo`. -/
structure ApplicationInfo where
  id : UInt16
  name : Text
  abiVersion : UInt32
  flags : UInt32
  state : Text
  stateId : UInt32
  active : Bool
  deriving DecidableEq

/-- `ApplicationSnapshot`. -/
structure ApplicationSnapshot where
  runtimeAbi : UInt32
  registryCount : UInt32
  activeId : UInt16
  faultCount : UInt32
  applications : List ApplicationInfo
  deriving DecidableEq

namespace ApplicationListParser

/-- The body of the loop over the rows. -/
def parseRow (line : Text) : Except DeusHostException ApplicationInfo := do
  let values ← parseLine line .protocol
  let idRaw ← requireHex32 values "APP_ID" .protocol
  if idRaw = 0 ∨ 0xFFFF < idRaw then
    .error ⟨.protocol, text "invalid APP_ID 0x" ++ formatHex 8 idRaw.toNat⟩
  else
    let activeRaw ← requireHex32 values "ACTIVE" .protocol
    if 1 < activeRaw then
      .error ⟨.protocol, text "invalid ACTIVE value " ++ decimal activeRaw.toNat⟩
    else
      let name ← require values "NAME" .protocol
      let abiVersion ← requireHex32 values "ABI" .protocol
      let flags ← requireHex32 values "FLAGS" .protocol
      let state ← require values "STATE" .protocol
      let stateId ← requireHex32 values "STATE_ID" .protocol
      return ⟨idRaw.toUInt16, name, abiVersion, flags, state, stateId, activeRaw = 1⟩

/-- `Parse`. -/
def parse (s : Text) : Except DeusHostException ApplicationSnapshot :=
  match splitLines s with
  | [] => .error ⟨.protocol, text "applist output is empty"⟩
  | first :: rows => do
    let summary ← parseLine first .protocol
    let runtimeAbi ← requireHex32 summary "APP_RUNTIME_ABI" .protocol
    let registryCount ← requireHex32 summary "APP_REGISTRY_COUNT" .protocol
    let activeIdRaw ← requireHex32 summary "APP_ACTIVE_ID" .protocol
    let faultCount ← requireHex32 summary "APP_FAULT_COUNT" .protocol
    if 0xFFFF < activeIdRaw then
      .error ⟨.protocol, text "APP_ACTIVE_ID exceeds 16-bit range"⟩
    else
      let applications ← rows.mapM parseRow
      if applications.length ≠ registryCount.toNat then
        .error ⟨.protocol, text "APP_REGISTRY_COUNT=" ++ decimal registryCount.toNat ++ text " but " ++
          decimal applications.length ++ text " rows were returned"⟩
      else return ⟨runtimeAbi, registryCount, activeIdRaw.toUInt16, faultCount, applications⟩

end ApplicationListParser

/-! ## `SystemInfoParser` -/

/-- `SystemInfo`. -/
structure SystemInfo where
  abiVersion : UInt32
  osId : Text
  platformId : Text
  archId : Text
  sourceTree : Text
  protocolVersion : UInt8
  serviceVersion : UInt8
  applicationRuntimeAbi : UInt32
  capabilities : UInt32
  unitIdKind : UInt32
  deriving DecidableEq

namespace SystemInfoParser

/-- `IsLowerHexTree`. -/
def isLowerHexTree (value : Text) : Bool :=
  decide (value.length = 40) &&
    value.all fun c => (0x30 ≤ c && c ≤ 0x39) || (0x61 ≤ c && c ≤ 0x66)

/-- The inner loop: the fields of a line are added. -/
def addAll : Dictionary → Dictionary → Except DeusHostException Dictionary
  | all, [] => .ok all
  | all, (key, value) :: lineValues =>
    if key ∈ all.map Prod.fst then
      .error ⟨.invalidSystemInfo, text "duplicate sysinfo key '" ++ key ++ text "'"⟩
    else addAll (all ++ [(key, value)]) lineValues

/-- The loop over the lines. -/
def readLines : Dictionary → List Text → Except DeusHostException Dictionary
  | all, [] => .ok all
  | all, line :: lines => do
    let lineValues ← parseLine line .invalidSystemInfo
    let all ← addAll all lineValues
    readLines all lines

/-- `Parse`. -/
def parse (s : Text) : Except DeusHostException SystemInfo :=
  let lines := splitLines s
  if lines.length ≠ 4 then
    .error ⟨.invalidSystemInfo,
      text "sysinfo requires exactly four non-empty lines, got " ++ decimal lines.length⟩
  else do
    let all ← readLines [] lines
    let sourceTree ← require all "SOURCE_TREE" .invalidSystemInfo
    if sourceTree ≠ text "UNBOUND" ∧ isLowerHexTree sourceTree = false then
      .error ⟨.invalidSystemInfo, text "invalid SOURCE_TREE '" ++ sourceTree ++ text "'"⟩
    else
      let protocol ← requireHex32 all "PROTOCOL_VERSION" .invalidSystemInfo
      let service ← requireHex32 all "SERVICE_VERSION" .invalidSystemInfo
      if 0xFF < protocol ∨ 0xFF < service then
        .error ⟨.invalidSystemInfo, text "protocol/service version exceeds byte range"⟩
      else
        let abiVersion ← requireHex32 all "SYSINFO_ABI" .invalidSystemInfo
        let osId ← require all "OS_ID" .invalidSystemInfo
        let platformId ← require all "PLATFORM_ID" .invalidSystemInfo
        let archId ← require all "ARCH_ID" .invalidSystemInfo
        let applicationRuntimeAbi ← requireHex32 all "APP_RUNTIME_ABI" .invalidSystemInfo
        let capabilities ← requireHex32 all "CAPABILITIES" .invalidSystemInfo
        let unitIdKind ← requireHex32 all "UNIT_ID_KIND" .invalidSystemInfo
        return ⟨abiVersion, osId, platformId, archId, sourceTree, protocol.toUInt8, service.toUInt8,
          applicationRuntimeAbi, capabilities, unitIdKind⟩

end SystemInfoParser

/-! ## `ManagementStateParser` -/

/-- `OutputText`. -/
def RpcResult.outputText (result : RpcResult) : Text := utf8GetString result.output

/-- `IsSuccess`. -/
def RpcResult.isSuccess (result : RpcResult) : Bool :=
  result.statusDomain = 0 && result.statusCode = 0

/-- `HealthSnapshot`. -/
structure HealthSnapshot where
  tick : UInt32
  pc13High : Bool
  watchdogActive : Bool
  watchdogReloadCount : UInt32
  resetFlags : UInt32
  iwdgReset : Bool
  deriving DecidableEq

/-- `ApplicationStartResult`. -/
structure ApplicationStartResult where
  requestId : ℕ
  applicationId : UInt16
  activeId : UInt16
  deriving DecidableEq

/-- `ApplicationStopResult`. -/
structure ApplicationStopResult where
  requestId : ℕ
  activeId : UInt16
  deriving DecidableEq

/-- `RpcHealth`. -/
def rpcHealth : ℕ := 0x0003
/-- `RpcAppList`. -/
def rpcAppList : ℕ := 0x0021
/-- `RpcAppStart`. -/
def rpcAppStart : ℕ := 0x0022
/-- `RpcAppStop`. -/
def rpcAppStop : ℕ := 0x0023
/-- `RpcSysInfo`. -/
def rpcSysInfo : ℕ := 0x0024

/-- The message of a status that is no success. -/
def statusError (result : RpcResult) (operation : String) : DeusHostException :=
  ⟨.rpcStatus, text operation ++ text " failed with status " ++ decimal result.statusDomain.toNat ++
    text "/" ++ decimal result.statusCode.toNat⟩

namespace ManagementStateParser

/-- `HealthOutputMax`. -/
def healthOutputMax : ℕ := 512
/-- `ApplicationControlOutputMax`. -/
def applicationControlOutputMax : ℕ := 128

/-- `ValidateRpcResult`. -/
def validateRpcResult (result : RpcResult) (expectedRpcId : ℕ) (operation : String) :
    Except DeusHostException Unit :=
  if result.rpcId ≠ expectedRpcId then
    .error ⟨.protocol, text operation ++ text " result RPC ID 0x" ++ formatHex 4 result.rpcId ++
      text " != 0x" ++ formatHex 4 expectedRpcId⟩
  else if result.requestId = 0 then
    .error ⟨.protocol, text operation ++ text " result has zero request ID"⟩
  else if result.isSuccess = false then .error (statusError result operation)
  else .ok ()

/-- `RequireSingleLine`. -/
def requireSingleLine (s : Text) (maxLength : ℕ) (operation : String) :
    Except DeusHostException Text :=
  if maxLength < s.length then
    .error ⟨.protocol, text operation ++ text " output length " ++ decimal s.length ++
      text " exceeds " ++ decimal maxLength⟩
  else match splitLines s with
    | [line] => .ok line
    | _ => .error ⟨.protocol, text operation ++ text " requires exactly one non-empty output line"⟩

/-- `ParsePrefixedValues`. -/
def parsePrefixedValues (line : Text) (start operation : String) :
    Except DeusHostException Dictionary :=
  let start := text start
  if line.take (start.length + 1) ≠ start ++ [0x20] then
    .error ⟨.protocol, text operation ++ text " output does not begin with '" ++ start ++ text "'"⟩
  else
    let remainder := line.drop (start.length + 1)
    if remainder = [] then
      .error ⟨.protocol, text operation ++ text " output has no key/value fields"⟩
    else parseLine remainder .protocol

/-- `RequireBooleanHex32`. -/
def requireBooleanHex32 (values : Dictionary) (key operation : String) :
    Except DeusHostException Bool := do
  let value ← requireHex32 values key .protocol
  if 1 < value then
    .error ⟨.protocol, text operation ++ text " field '" ++ text key ++
      text "' must be 0 or 1, got 0x" ++ formatHex 8 value.toNat⟩
  else return value = 1

/-- `RequireApplicationId`. -/
def requireApplicationId (values : Dictionary) (key : String) (allowZero : Bool) :
    Except DeusHostException UInt16 := do
  let value ← requireHex32 values key .protocol
  if 0xFFFF < value ∨ (allowZero = false ∧ value = 0) then
    .error ⟨.protocol, text "application field '" ++ text key ++
      text "' is outside the accepted 16-bit range: 0x" ++ formatHex 8 value.toNat⟩
  else return value.toUInt16

/-- `ParseHealth`. -/
def parseHealth (result : RpcResult) : Except DeusHostException HealthSnapshot := do
  validateRpcResult result rpcHealth "health"
  let line ← requireSingleLine result.outputText healthOutputMax "health"
  let values ← parsePrefixedValues line "HEALTH" "health"
  let tick ← requireHex32 values "TICK" .protocol
  let pc13High ← requireBooleanHex32 values "PC13" "health"
  let watchdogActive ← requireBooleanHex32 values "WDOG_ACTIVE" "health"
  let watchdogReloadCount ← requireHex32 values "WDOG_RELOAD_COUNT" .protocol
  let resetFlags ← requireHex32 values "RESET_FLAGS" .protocol
  let iwdgReset ← requireBooleanHex32 values "IWDG_RESET" "health"
  return ⟨tick, pc13High, watchdogActive, watchdogReloadCount, resetFlags, iwdgReset⟩

/-- `ParseApplicationStart`. -/
def parseApplicationStart (result : RpcResult) : Except DeusHostException ApplicationStartResult := do
  validateRpcResult result rpcAppStart "appstart"
  let line ← requireSingleLine result.outputText applicationControlOutputMax "appstart"
  let values ← parsePrefixedValues line "APP_START_OK" "appstart"
  let applicationId ← requireApplicationId values "ID" false
  let activeId ← requireApplicationId values "ACTIVE_ID" true
  return ⟨result.requestId, applicationId, activeId⟩

/-- `ParseApplicationStop`. -/
def parseApplicationStop (result : RpcResult) : Except DeusHostException ApplicationStopResult := do
  validateRpcResult result rpcAppStop "appstop"
  let line ← requireSingleLine result.outputText applicationControlOutputMax "appstop"
  let values ← parsePrefixedValues line "APP_STOP_OK" "appstop"
  let activeId ← requireApplicationId values "ACTIVE_ID" true
  return ⟨result.requestId, activeId⟩

end ManagementStateParser

/-! ## `DeusDeviceClient`, of the results of its calls -/

namespace DeviceClient

/-- `EnsureRpcSuccess`. -/
def ensureRpcSuccess (result : RpcResult) (operation : String) : Except DeusHostException Unit :=
  if result.isSuccess = false then .error (statusError result operation) else .ok ()

/-- `ApplicationsAsync`, behind its call. -/
def applications (result : RpcResult) : Except DeusHostException ApplicationSnapshot := do
  ensureRpcSuccess result "applist"
  ApplicationListParser.parse result.outputText

/-- The argument of the call of `StartApplicationAsync`, which throws for id 0
before it sends. -/
def startArgument (applicationId : UInt16) : Text := text "0x" ++ formatHex 4 applicationId.toNat

/-- `StartApplicationControlAsync`, behind its call. -/
def startApplicationControl (applicationId : UInt16) (result : RpcResult) :
    Except DeusHostException ApplicationStartResult := do
  ensureRpcSuccess result "appstart"
  let parsed ← ManagementStateParser.parseApplicationStart result
  if parsed.applicationId ≠ applicationId then
    .error ⟨.protocol, text "appstart acknowledged application 0x" ++
      formatHex 4 parsed.applicationId.toNat ++ text " instead of 0x" ++
      formatHex 4 applicationId.toNat⟩
  else return parsed

/-- `StopApplicationControlAsync`, behind its call. -/
def stopApplicationControl (result : RpcResult) : Except DeusHostException ApplicationStopResult := do
  ensureRpcSuccess result "appstop"
  ManagementStateParser.parseApplicationStop result

end DeviceClient

end Host

end DeusOs
