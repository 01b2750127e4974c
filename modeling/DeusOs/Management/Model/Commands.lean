import DeusOs.App.Model.Runtime
import DeusOs.Rpc.Request

/-!
# Management — the commands

What the commands of the management service write: `command_service.c` where
it writes, `application_commands.c`, `system_identity.c`, and of
`console_execute_request` the commands whose answer the host reads. A string
is the list of its characters, without the NUL. What reads a counter reads it
once, where its line is written: `KernelState` holds what it then finds.
-/

namespace DeusOs

namespace Management

open App (Index LifecycleState Runtime ServiceSnapshot)
open Rpc (CommandServiceRequest CommandServiceStatus Handler commandRegistry)

/-- A literal of the source. -/
def chars (s : String) : List UInt8 := s.toList.map fun c => UInt8.ofNat c.toNat

/-! ## `command_service.c` -/

/-- `command_service_write`, and what is done with its status. -/
def commandServiceWrite : List UInt8 → (CommandServiceStatus → Handler) → Handler
  | [], next => next .ok
  | byte :: text, next => .write byte fun taken =>
      if taken = true then commandServiceWrite text next else next .internalError

/-- `command_service_write_line`. -/
def commandServiceWriteLine (text : List UInt8) (next : CommandServiceStatus → Handler) : Handler :=
  commandServiceWrite text fun status =>
    if status ≠ .ok then next .internalError else commandServiceWrite (chars "\r\n") next

/-- A character of `"0123456789ABCDEF"`. -/
def hexChar (digit : ℕ) : UInt8 :=
  if digit < 10 then UInt8.ofNat (0x30 + digit) else UInt8.ofNat (0x37 + digit)

/-- The loop of `command_service_write_hex32`, with the digits that are
left. -/
def writeHexDigits (value : UInt32) (next : CommandServiceStatus → Handler) : ℕ → Handler
  | 0 => next .ok
  | left + 1 =>
    .write (hexChar (value.toNat >>> (4 * left) &&& 0xF)) fun taken =>
      if taken = true then writeHexDigits value next left else next .internalError

/-- `command_service_write_hex32`. -/
def commandServiceWriteHex32 (value : UInt32) (next : CommandServiceStatus → Handler) : Handler :=
  commandServiceWrite (chars "0x") fun status =>
    if status ≠ .ok then next .internalError else writeHexDigits value next 8

/-- `console_write` and `application_commands_write`, which ignore the
status. -/
def write (s : String) (next : Handler) : Handler := commandServiceWrite (chars s) fun _ => next

/-- `console_write_line` and `application_commands_write_line`. -/
def writeLine (s : String) (next : Handler) : Handler :=
  commandServiceWriteLine (chars s) fun _ => next

/-- `console_write_hex32` and `application_commands_write_hex32`. -/
def writeHex32 (value : UInt32) (next : Handler) : Handler :=
  commandServiceWriteHex32 value fun _ => next

/-! ## `application_commands.c` -/

/-- `APPLICATION_RUNTIME_ABI_VERSION`. -/
def applicationRuntimeAbiVersion : UInt32 := 1
/-- `APPLICATION_FLAG_SYSTEM`. -/
def applicationFlagSystem : UInt32 := 1
/-- `APPLICATION_RUNTIME_REGISTRY_COUNT`. -/
def applicationRuntimeRegistryCount : UInt32 := 2

/-- The place of `system.home` in `application_registry`. -/
def homeIndex : Index := ⟨0, Nat.zero_lt_two⟩

/-- The place of `device.info`. -/
def infoIndex : Index := ⟨1, Nat.one_lt_two⟩

/-- The name in `application_registry`. -/
def registryName (i : Index) : String := if i = homeIndex then "system.home" else "device.info"

/-- `application_runtime_state_name`. -/
def stateName : LifecycleState → String
  | .registered => "REGISTERED"
  | .stopped => "STOPPED"
  | .starting => "STARTING"
  | .running => "RUNNING"
  | .blocked => "BLOCKED"
  | .stopping => "STOPPING"
  | .failed => "FAILED"

/-- The cast of a state to `uint32_t`. -/
def stateId : LifecycleState → UInt32
  | .registered => 0
  | .stopped => 1
  | .starting => 2
  | .running => 3
  | .blocked => 4
  | .stopping => 5
  | .failed => 6

/-- The digit of a character, in `application_commands_parse_id`. -/
def parseIdDigit (base : ℕ) (c : UInt8) : Option ℕ :=
  if 0x30 ≤ c ∧ c ≤ 0x39 then some (c.toNat - 0x30)
  else if base = 16 ∧ 0x61 ≤ c ∧ c ≤ 0x66 then some (10 + (c.toNat - 0x61))
  else if base = 16 ∧ 0x41 ≤ c ∧ c ≤ 0x46 then some (10 + (c.toNat - 0x41))
  else none

/-- Its loop. -/
def parseIdLoop (base : ℕ) : List UInt8 → ℕ → ℕ → Option UInt16
  | [], value, digits => if digits = 0 ∨ value = 0 then none else some (UInt16.ofNat value)
  | c :: text, value, digits =>
    match parseIdDigit base c with
    | none => none
    | some digit =>
      if base ≤ digit then none
      else if 0xFFFF < value * base + digit then none
      else parseIdLoop base text (value * base + digit) (digits + 1)

/-- `application_commands_parse_id`. -/
def parseId (text : List UInt8) : Option UInt16 :=
  match text with
  | zero :: x :: rest =>
    if zero = 0x30 ∧ (x = 0x78 ∨ x = 0x58) then parseIdLoop 16 rest 0 0 else parseIdLoop 10 text 0 0
  | _ => parseIdLoop 10 text 0 0

/-- `application_commands_write_runtime_status`. -/
def writeRuntimeStatus (r : Runtime) (next : Handler) : Handler :=
  write " APP_ACTIVE_ID=" <| writeHex32 r.activeId.toUInt32 <|
  write " APP_FAULT_COUNT=" <| writeHex32 r.faultCount <|
  write " APP_EVENT_COUNT=" <| writeHex32 r.eventCount <|
  write " APP_VIEW_REVISION=" <| writeHex32 r.viewRevision <|
  write " APP_LAST_EVENT_TYPE=" <| writeHex32 r.lastEventType.toUInt32 <|
  write " APP_LAST_EVENT_SOURCE=" <| writeHex32 r.lastEventSource.toUInt32 <|
  write "\r\n" next

/-- A turn of the loop of `application_commands_applist`. -/
def writeRow (r : Runtime) (index : Index) (next : Handler) : Handler :=
  write "APP_ID=" <| writeHex32 (App.registryId index).toUInt32 <|
  write " NAME=" <| write (registryName index) <|
  write " ABI=" <| writeHex32 applicationRuntimeAbiVersion <|
  write " FLAGS=" <| writeHex32 applicationFlagSystem <|
  write " STATE=" <| write (stateName (r.states index)) <|
  write " STATE_ID=" <| writeHex32 (stateId (r.states index)) <|
  write " ACTIVE=" <| writeHex32 (if App.registryId index = r.activeId then 1 else 0) <|
  write "\r\n" next

/-- `application_commands_applist`. -/
def applist (r : Runtime) : Handler :=
  write "APP_RUNTIME_ABI=" <| writeHex32 applicationRuntimeAbiVersion <|
  write " APP_REGISTRY_COUNT=" <| writeHex32 applicationRuntimeRegistryCount <|
  writeRuntimeStatus r <| writeRow r homeIndex <| writeRow r infoIndex <| .ret .ok

/-- `application_commands_rpcinfo`. -/
def rpcinfo (r : Runtime) : Handler :=
  write "RPC_FOUNDATION_VERSION=" <| writeHex32 Rpc.commandServiceFoundationVersion.toUInt32 <|
  write " REGISTRY_COUNT=" <| writeHex32 (UInt32.ofNat commandRegistry.length) <|
  write " LINE_CAPACITY=" <| writeHex32 (UInt32.ofNat Rpc.commandServiceLineCapacity) <|
  write " MAX_ARGS=" <| writeHex32 (UInt32.ofNat Rpc.commandServiceMaxArgs) <|
  write " APP_RUNTIME_ABI=" <| writeHex32 applicationRuntimeAbiVersion <|
  write " APP_REGISTRY_COUNT=" <| writeHex32 applicationRuntimeRegistryCount <|
  writeRuntimeStatus r <| .ret .ok

variable {ω : Type} (app : Index → App.Callbacks ω)

/-- The registered application that a request names. -/
def requestedId (request : CommandServiceRequest) : Option UInt16 :=
  let id := if request.argc ≠ 1 then none else ((request.argv 0).map Rpc.cString).bind parseId
  id.bind fun id => (App.indexFromId id).map fun _ => id

/-- `application_commands_appstart`, of the application that is named: what it
leaves, and what it writes then. -/
def appstartNamed (m : App.Machine ω) (id : Option UInt16) (services : Option ServiceSnapshot) :
    App.Machine ω × Handler :=
  match id with
  | none => (m, .ret .badArgs)
  | some id =>
    match services with
    | none => (m, writeLine "APP_RUNTIME_BUSY" <| .ret .busy)
    | some services =>
      match App.runtimeStart app m id (some services) with
      | (m, false) => (m, .ret .internalError)
      | (m, true) =>
        (m, write "APP_START_OK ID=" <| writeHex32 id.toUInt32 <|
          write " ACTIVE_ID=" <| writeHex32 m.runtime.activeId.toUInt32 <|
          write "\r\n" <| .ret .ok)

/-- `application_commands_appstart`. -/
def appstart (m : App.Machine ω) (request : CommandServiceRequest)
    (services : Option ServiceSnapshot) : App.Machine ω × Handler :=
  appstartNamed app m (requestedId request) services

/-- `application_commands_appstop`. -/
def appstop (m : App.Machine ω) (services : Option ServiceSnapshot) : App.Machine ω × Handler :=
  match services with
  | none => (m, writeLine "APP_RUNTIME_BUSY" <| .ret .busy)
  | some services =>
    match App.runtimeStop app m (some services) with
    | (m, false) => (m, .ret .internalError)
    | (m, true) =>
      (m, write "APP_STOP_OK ACTIVE_ID=" <| writeHex32 m.runtime.activeId.toUInt32 <|
        write "\r\n" <| .ret .ok)

/-! ## `system_identity.c` -/

/-- `SYSTEM_IDENTITY_ABI_VERSION`. -/
def systemIdentityAbiVersion : UInt32 := 1
/-- `SYSTEM_IDENTITY_CAPABILITIES`. -/
def systemIdentityCapabilities : UInt32 := 0x7F
/-- `SYSTEM_IDENTITY_UNIT_ID_NONE`. -/
def systemIdentityUnitIdNone : UInt32 := 0

/-- `DEUS_FIRMWARE_SOURCE_TREE_HEX`: the git tree that the build binds to the
firmware, or that there is none. -/
structure SourceTree where
  name : List UInt8
  bound : name = chars "UNBOUND" ∨
    name.length = 40 ∧ ∀ c ∈ name, (0x30 ≤ c ∧ c ≤ 0x39) ∨ (0x61 ≤ c ∧ c ≤ 0x66)

/-- A write whose failure ends the handler. -/
def orError (writing : (CommandServiceStatus → Handler) → Handler) (next : Handler) : Handler :=
  writing fun status => if status ≠ .ok then .ret .internalError else next

/-- `system_identity_write_text`, or the handler ends. -/
def identityText (text : List UInt8) (next : Handler) : Handler :=
  orError (commandServiceWrite text) next

/-- `system_identity_write_hex`, or the handler ends. -/
def identityHex (value : UInt32) (next : Handler) : Handler :=
  orError (commandServiceWriteHex32 value) next

/-- `system_identity_write`. -/
def systemIdentityWrite (sourceTree : SourceTree) : Handler :=
  identityText (chars "SYSINFO_ABI=") <| identityHex systemIdentityAbiVersion <|
  identityText (chars " OS_ID=DEUS_OS PLATFORM_ID=STM32F103C8 ARCH_ID=ARMV7M\r\n") <|
  identityText (chars "SOURCE_TREE=") <| identityText sourceTree.name <|
  identityText (chars "\r\nPROTOCOL_VERSION=") <|
  identityHex Rpc.frameProtocolVersion.toUInt32 <|
  identityText (chars " SERVICE_VERSION=") <|
  identityHex Rpc.commandServiceFoundationVersion.toUInt32 <|
  identityText (chars " APP_RUNTIME_ABI=") <| identityHex applicationRuntimeAbiVersion <|
  identityText (chars "\r\nCAPABILITIES=") <| identityHex systemIdentityCapabilities <|
  identityText (chars " UNIT_ID_KIND=") <| identityHex systemIdentityUnitIdNone <|
  commandServiceWrite (chars "\r\n") Handler.ret

/-! ## `console_execute_request` -/

/-- What the commands find in the kernel. -/
structure KernelState (ω : Type) where
  /-- `kernel_time_now`. -/
  now : UInt32
  /-- The level of the pin, which `status_led_raw_level` gives as 0 or 1. -/
  pc13 : Bool
  /-- `production_watchdog_active`, which is set to 0 or 1. -/
  watchdogActive : Bool
  watchdogReloadCount : UInt32
  resetFlags : UInt32
  /-- `production_iwdg_reset`, which is set to 0 or 1. -/
  iwdgReset : Bool
  machine : App.Machine ω
  /-- What `boot_desktop_ui_application_snapshot_current` gives, if the
  desktop is up. -/
  services : Option ServiceSnapshot
  sourceTree : SourceTree

/-- A truth value as 0 or 1. -/
def bit (b : Bool) : UInt32 := if b = true then 1 else 0

variable (k : KernelState ω)

/-- The case `PING` of `console_execute_safe_method`. -/
def ping : Handler := writeLine "PONG" <| .ret .ok

/-- The case `UPTIME`. -/
def uptime : Handler := write "UPTIME_MS=" <| writeHex32 k.now <| write "\r\n" <| .ret .ok

/-- The case `HEALTH`. -/
def health : Handler :=
  write "HEALTH TICK=" <| writeHex32 k.now <|
  write " PC13=" <| writeHex32 (bit k.pc13) <|
  write " WDOG_ACTIVE=" <| writeHex32 (bit k.watchdogActive) <|
  write " WDOG_RELOAD_COUNT=" <| writeHex32 k.watchdogReloadCount <|
  write " RESET_FLAGS=" <| writeHex32 k.resetFlags <|
  write " IWDG_RESET=" <| writeHex32 (bit k.iwdgReset) <|
  write "\r\n" <| .ret .ok

/-- `console_execute_request`, of a method by its RPC id: the machine it
leaves, and what it writes. The methods that are not listed are `other`. -/
def consoleExecuteRequest (other : CommandServiceRequest → Handler)
    (request : CommandServiceRequest) : App.Machine ω × Handler :=
  match request.descriptor.rpcId with
  | 0x0001 => (k.machine, ping)
  | 0x0002 => (k.machine, uptime k)
  | 0x0003 => (k.machine, health k)
  | 0x0020 => (k.machine, rpcinfo k.machine.runtime)
  | 0x0021 => (k.machine, applist k.machine.runtime)
  | 0x0022 => appstart app k.machine request k.services
  | 0x0023 => appstop app k.machine k.services
  | 0x0024 => (k.machine, systemIdentityWrite k.sourceTree)
  | _ => (k.machine, other request)

/-- `usb_management_binary_rpc_binding`: a request is answered with what its
method writes. -/
def managementBinding {ρ : Type} (sendWire : ρ → List UInt8 → ρ × Bool)
    (other : CommandServiceRequest → Handler) : Rpc.RpcBinding ρ where
  sendWire := sendWire
  commandHandler := fun request => (consoleExecuteRequest app k other request).2
  capabilityFlags := 0x7F

end Management

end DeusOs
