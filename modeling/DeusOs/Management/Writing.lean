import DeusOs.Host.Model.Reports
import DeusOs.Management.Model.Commands

/-!
# Management — what the commands write

A handler whose writes are all taken writes one text (`whole`). For each
command that text is made of lines of fields: what the host reads is known
field by field.
-/

namespace DeusOs

namespace Management

open App (Index LifecycleState Runtime)
open Host (Dictionary Text text formatHex)
open Rpc (CommandServiceRequest CommandServiceStatus Handler)

variable {bytes more : List UInt8} {next : Handler} {status : CommandServiceStatus}

/-! ## Handlers -/

/-- What a handler writes where all of it is taken, and what it returns. -/
def whole : Handler → List UInt8 × CommandServiceStatus
  | .ret status => ([], status)
  | .write byte next => (byte :: (whole (next true)).1, (whole (next true)).2)

theorem whole_write (byte : UInt8) (next : Bool → Handler) :
    whole (.write byte next) = (byte :: (whole (next true)).1, (whole (next true)).2) := rfl

@[simp] theorem whole_ret (status : CommandServiceStatus) : whole (.ret status) = ([], status) := rfl

@[simp] theorem whole_commandServiceWrite (text : List UInt8)
    (next : CommandServiceStatus → Handler) :
    whole (commandServiceWrite text next) =
      (text ++ (whole (next .ok)).1, (whole (next .ok)).2) := by
  induction text with
  | nil => rfl
  | cons byte text ih => rw [commandServiceWrite, whole_write, if_pos rfl, ih]; rfl

/-- The characters of a value in hexadecimal. -/
def hexChars (value : UInt32) : List UInt8 :=
  chars "0x" ++ (Digits.write 16 8 value.toNat).map hexChar

theorem whole_writeHexDigits (value : UInt32) (next : CommandServiceStatus → Handler) (left : ℕ) :
    whole (writeHexDigits value next left) =
      ((Digits.write 16 left value.toNat).map hexChar ++ (whole (next .ok)).1,
        (whole (next .ok)).2) := by
  induction left with
  | zero => rfl
  | succ left ih =>
    have hdigit : value.toNat >>> (4 * left) &&& 0xF = value.toNat / 16 ^ left % 16 := by
      rw [Nat.shiftRight_eq_div_pow, Nat.pow_mul]
      exact Nat.and_two_pow_sub_one_eq_mod _ 4
    rw [writeHexDigits, whole_write, if_pos rfl, ih, hdigit, Digits.write_succ]
    rfl

@[simp] theorem whole_commandServiceWriteHex32 (value : UInt32)
    (next : CommandServiceStatus → Handler) :
    whole (commandServiceWriteHex32 value next) =
      (hexChars value ++ (whole (next .ok)).1, (whole (next .ok)).2) := by
  rw [commandServiceWriteHex32, whole_commandServiceWrite, if_neg (not_not.2 rfl),
    whole_writeHexDigits, hexChars, List.append_assoc]

@[simp] theorem whole_writeText (s : String) (next : Handler) :
    whole (write s next) = (chars s ++ (whole next).1, (whole next).2) :=
  whole_commandServiceWrite _ _

@[simp] theorem whole_writeLine (s : String) (next : Handler) :
    whole (writeLine s next) = (chars s ++ (chars "\r\n" ++ (whole next).1), (whole next).2) := by
  rw [writeLine, commandServiceWriteLine, whole_commandServiceWrite, if_neg (not_not.2 rfl),
    whole_commandServiceWrite]

@[simp] theorem whole_writeHex32 (value : UInt32) (next : Handler) :
    whole (writeHex32 value next) = (hexChars value ++ (whole next).1, (whole next).2) :=
  whole_commandServiceWriteHex32 _ _

@[simp] theorem whole_identityText (bytes : List UInt8) (next : Handler) :
    whole (identityText bytes next) = (bytes ++ (whole next).1, (whole next).2) := by
  rw [identityText, orError, whole_commandServiceWrite, if_neg (not_not.2 rfl)]

@[simp] theorem whole_identityHex (value : UInt32) (next : Handler) :
    whole (identityHex value next) = (hexChars value ++ (whole next).1, (whole next).2) := by
  rw [identityHex, orError, whole_commandServiceWriteHex32, if_neg (not_not.2 rfl)]

/-! ## Characters -/

/-- The characters as the code units of a string. -/
def toText (bytes : List UInt8) : Text := bytes.map fun byte => UInt16.ofNat byte.toNat

theorem toText_append (bytes more : List UInt8) :
    toText (bytes ++ more) = toText bytes ++ toText more :=
  List.map_append

/-- A value in hexadecimal, as the host finds it. -/
def hex32 (value : UInt32) : Text := text "0x" ++ formatHex 8 value.toNat

theorem toText_hexChars (value : UInt32) : toText (hexChars value) = hex32 value := by
  have hdigit : ∀ digit < 16, UInt16.ofNat (hexChar digit).toNat = Host.hexDigit digit := by decide
  rw [hexChars, toText_append, hex32, formatHex]
  refine congrArg (text "0x" ++ ·) ?_
  rw [toText, List.map_map]
  exact List.map_congr_left fun digit hin =>
    hdigit digit (Digits.lt_of_mem_write (by decide) 8 value.toNat digit hin)

/-- A line of fields. -/
def line (fields : Dictionary) : Text := Fields.writeLine 0x20 0x3D fields

/-- Lines, each of which is ended. -/
def report (lines : List Text) : Text := Fields.writeLines 0x0D 0x0A lines

/-- A line is its first field, a blank and the others. -/
theorem line_cons (p q : Text × Text) (fields : Dictionary) :
    line (p :: q :: fields) = p.1 ++ (0x3D :: (p.2 ++ (0x20 :: line (q :: fields)))) := by
  rw [line, Fields.writeLine, List.map_cons, List.map_cons, List.intercalate_cons_cons,
    Fields.writeField, List.append_assoc, List.append_assoc]
  rfl

/-- A line of one field is that field. -/
theorem line_singleton (p : Text × Text) : line [p] = p.1 ++ (0x3D :: p.2) :=
  List.append_nil _

theorem report_cons (first : Text) (lines : List Text) :
    report (first :: lines) = first ++ (text "\r\n" ++ report lines) := by
  rw [report, Fields.writeLines, List.flatMap_cons, List.append_assoc]
  rfl

/-! ## The application list -/

/-- The fields of the first line. -/
def summaryFields (r : Runtime) : Dictionary :=
  [(text "APP_RUNTIME_ABI", hex32 applicationRuntimeAbiVersion),
    (text "APP_REGISTRY_COUNT", hex32 applicationRuntimeRegistryCount),
    (text "APP_ACTIVE_ID", hex32 r.activeId.toUInt32),
    (text "APP_FAULT_COUNT", hex32 r.faultCount),
    (text "APP_EVENT_COUNT", hex32 r.eventCount),
    (text "APP_VIEW_REVISION", hex32 r.viewRevision),
    (text "APP_LAST_EVENT_TYPE", hex32 r.lastEventType.toUInt32),
    (text "APP_LAST_EVENT_SOURCE", hex32 r.lastEventSource.toUInt32)]

/-- The fields of a row. -/
def rowFields (r : Runtime) (i : Index) : Dictionary :=
  [(text "APP_ID", hex32 (App.registryId i).toUInt32),
    (text "NAME", toText (chars (registryName i))),
    (text "ABI", hex32 applicationRuntimeAbiVersion),
    (text "FLAGS", hex32 applicationFlagSystem),
    (text "STATE", toText (chars (stateName (r.states i)))),
    (text "STATE_ID", hex32 (stateId (r.states i))),
    (text "ACTIVE", hex32 (if App.registryId i = r.activeId then 1 else 0))]

theorem whole_writeRow (r : Runtime) (i : Index) (next : Handler) :
    toText (whole (writeRow r i next)).1 =
        (line (rowFields r i) ++ text "\r\n") ++ toText (whole next).1 ∧
      (whole (writeRow r i next)).2 = (whole next).2 := by
  simp only [writeRow, whole_writeText, whole_writeHex32, toText_append, toText_hexChars, rowFields,
    line_cons, line_singleton, List.append_assoc, List.cons_append]
  exact ⟨rfl, trivial⟩

/-- **The application list,** line by line. -/
theorem whole_applist (r : Runtime) :
    toText (whole (applist r)).1 =
        report [line (summaryFields r), line (rowFields r homeIndex), line (rowFields r infoIndex)] ∧
      (whole (applist r)).2 = .ok := by
  obtain ⟨htext, hstatus⟩ := whole_writeRow r homeIndex (writeRow r infoIndex (.ret .ok))
  obtain ⟨htext', hstatus'⟩ := whole_writeRow r infoIndex (.ret .ok)
  simp only [applist, writeRuntimeStatus, whole_writeText, whole_writeHex32, toText_append,
    toText_hexChars, htext, htext', hstatus, hstatus', summaryFields, report_cons, line_cons,
    line_singleton, List.append_assoc, List.cons_append]
  exact ⟨rfl, rfl⟩

/-! ## The other reports -/

/-- A line that begins with a name. -/
def named (name : String) (fields : Dictionary) : Text := text name ++ (0x20 :: line fields)

/-- The fields of the health line. -/
def healthFields {ω : Type} (k : KernelState ω) : Dictionary :=
  [(text "TICK", hex32 k.now),
    (text "PC13", hex32 (bit k.pc13)),
    (text "WDOG_ACTIVE", hex32 (bit k.watchdogActive)),
    (text "WDOG_RELOAD_COUNT", hex32 k.watchdogReloadCount),
    (text "RESET_FLAGS", hex32 k.resetFlags),
    (text "IWDG_RESET", hex32 (bit k.iwdgReset))]

/-- What `health` writes is one line of its fields. -/
theorem whole_health {ω : Type} (k : KernelState ω) :
    toText (whole (health k)).1 = report [named "HEALTH" (healthFields k)] ∧
      (whole (health k)).2 = .ok := by
  simp only [health, whole_writeText, whole_writeHex32, toText_append, toText_hexChars, named,
    healthFields, report_cons, line_cons, line_singleton, List.append_assoc, List.cons_append]
  exact ⟨rfl, rfl⟩

/-- The fields behind `APP_START_OK`. -/
def startFields (id activeId : UInt16) : Dictionary :=
  [(text "ID", hex32 id.toUInt32), (text "ACTIVE_ID", hex32 activeId.toUInt32)]

/-- What a start writes is one line of the two ids. -/
theorem whole_started (id activeId : UInt16) :
    toText (whole (write "APP_START_OK ID=" <| writeHex32 id.toUInt32 <|
        write " ACTIVE_ID=" <| writeHex32 activeId.toUInt32 <| write "\r\n" <| .ret .ok)).1 =
      report [named "APP_START_OK" (startFields id activeId)] := by
  simp only [whole_writeText, whole_writeHex32, toText_append, toText_hexChars, named, startFields,
    report_cons, line_cons, line_singleton, List.append_assoc, List.cons_append]
  rfl

/-- The field behind `APP_STOP_OK`. -/
def stopFields (activeId : UInt16) : Dictionary := [(text "ACTIVE_ID", hex32 activeId.toUInt32)]

/-- What a stop writes is one line of the active id. -/
theorem whole_stopped (activeId : UInt16) :
    toText (whole (write "APP_STOP_OK ACTIVE_ID=" <| writeHex32 activeId.toUInt32 <|
        write "\r\n" <| .ret .ok)).1 = report [named "APP_STOP_OK" (stopFields activeId)] := by
  simp only [whole_writeText, whole_writeHex32, toText_append, toText_hexChars, named, stopFields,
    report_cons, line_singleton, List.append_assoc, List.cons_append]
  rfl

/-- The fields of the four lines of `system_identity_write`. -/
def identityFields (sourceTree : SourceTree) : List Dictionary :=
  [[(text "SYSINFO_ABI", hex32 systemIdentityAbiVersion), (text "OS_ID", text "DEUS_OS"),
      (text "PLATFORM_ID", text "STM32F103C8"), (text "ARCH_ID", text "ARMV7M")],
    [(text "SOURCE_TREE", toText sourceTree.name)],
    [(text "PROTOCOL_VERSION", hex32 Rpc.frameProtocolVersion.toUInt32),
      (text "SERVICE_VERSION", hex32 Rpc.commandServiceFoundationVersion.toUInt32),
      (text "APP_RUNTIME_ABI", hex32 applicationRuntimeAbiVersion)],
    [(text "CAPABILITIES", hex32 systemIdentityCapabilities),
      (text "UNIT_ID_KIND", hex32 systemIdentityUnitIdNone)]]

/-- What the identity writes is one line for each of its fields. -/
theorem whole_systemIdentityWrite (sourceTree : SourceTree) :
    toText (whole (systemIdentityWrite sourceTree)).1 =
        report ((identityFields sourceTree).map line) ∧
      (whole (systemIdentityWrite sourceTree)).2 = .ok := by
  simp only [systemIdentityWrite, whole_identityText, whole_identityHex, whole_commandServiceWrite,
    whole_ret, toText_append, toText_hexChars, identityFields, List.map_cons, List.map_nil,
    report_cons, line_cons, line_singleton, List.append_assoc, List.cons_append]
  exact ⟨rfl, trivial⟩

end Management

end DeusOs
