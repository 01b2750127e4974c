import DeusOs.App.Ownership
import DeusOs.Management.Exchange
import DeusOs.Management.Reading

/-!
# Management — the reports

What the host's parsers make of the answers: the application list is the
runtime, row by row (`applications_reported`), and the health snapshot is what
the kernel found (`health_reported`).
-/

namespace DeusOs

namespace Management

open App (Index LifecycleState Runtime)
open Host (ApplicationListParser.parse ApplicationListParser.parseRow Channel Dictionary RpcResult
  Splits Text encodePayload reads splitLines text utf8GetString)
open Host.KeyValueTokens (parseLine require requireHex32)
open Rpc (CommandServiceRequest Handler RpcEvent RpcState answerRequest takenBytes AllTaken)

variable {ω ρ : Type} {r : Runtime} {lines : List Text}

/-- A 16-bit id stays one in 32 bits. -/
theorem not_lt_toUInt32 (id : UInt16) : ¬(0xFFFF : UInt32) < id.toUInt32 := by
  rw [UInt32.lt_iff_toNat_lt, UInt16.toNat_toUInt32]
  exact Nat.not_lt.2 (Nat.le_of_lt_succ id.toNat_lt)

theorem toUInt32_ne_zero {id : UInt16} (h : id ≠ 0) : id.toUInt32 ≠ 0 := by
  intro hzero
  have hback : id.toUInt32.toUInt16 = (0 : UInt32).toUInt16 := congrArg _ hzero
  rw [UInt16.toUInt16_toUInt32] at hback
  exact h hback

/-! ## The application list -/

/-- What the host shows of an application. -/
def applicationInfo (r : Runtime) (i : Index) : Host.ApplicationInfo where
  id := App.registryId i
  name := text (registryName i)
  abiVersion := applicationRuntimeAbiVersion
  flags := applicationFlagSystem
  state := text (stateName (r.states i))
  stateId := stateId (r.states i)
  active := App.registryId i = r.activeId

/-- What the host shows of the runtime. -/
def applicationSnapshot (r : Runtime) : Host.ApplicationSnapshot where
  runtimeAbi := applicationRuntimeAbiVersion
  registryCount := applicationRuntimeRegistryCount
  activeId := r.activeId
  faultCount := r.faultCount
  applications := [applicationInfo r homeIndex, applicationInfo r infoIndex]

theorem toText_registryName : ∀ i : Index, toText (chars (registryName i)) = text (registryName i) := by
  decide

theorem toText_stateName (st : LifecycleState) : toText (chars (stateName st)) = text (stateName st) := by
  cases st <;> rfl

theorem printed_registryName : ∀ i : Index, Printed (text (registryName i)) := by decide

theorem printed_stateName (st : LifecycleState) : Printed (text (stateName st)) := by
  cases st <;> decide

theorem length_registryName : ∀ i : Index, (text (registryName i)).length ≤ 11 := by decide

theorem length_stateName (st : LifecycleState) : (text (stateName st)).length ≤ 11 := by
  cases st <;> decide

theorem telling_summary (r : Runtime) : Telling (summaryFields r) where
  ne_nil := List.cons_ne_nil _ _
  keys := (by decide : ∀ key ∈ (summaryFields {}).map Prod.fst, Printed key ∧ 0x3D ∉ key)
  values := by
    simp only [summaryFields, List.map_cons, List.map_nil, List.forall_mem_cons]
    exact ⟨printed_hex32 _, printed_hex32 _, printed_hex32 _, printed_hex32 _, printed_hex32 _,
      printed_hex32 _, printed_hex32 _, printed_hex32 _, fun _ h => absurd h List.not_mem_nil⟩
  nodup := (by decide : ((summaryFields {}).map Prod.fst).Nodup)

theorem telling_row (r : Runtime) (i : Index) : Telling (rowFields r i) where
  ne_nil := List.cons_ne_nil _ _
  keys := (by decide : ∀ key ∈ (rowFields {} homeIndex).map Prod.fst, Printed key ∧ 0x3D ∉ key)
  values := by
    simp only [rowFields, List.map_cons, List.map_nil, List.forall_mem_cons, toText_registryName,
      toText_stateName]
    exact ⟨printed_hex32 _, printed_registryName i, printed_hex32 _, printed_hex32 _,
      printed_stateName _, printed_hex32 _, printed_hex32 _, fun _ h => absurd h List.not_mem_nil⟩
  nodup := (by decide : ((rowFields {} homeIndex).map Prod.fst).Nodup)

/-- **A row is parsed** as the application it is about. -/
theorem parseRow_line (r : Runtime) (i : Index) :
    ApplicationListParser.parseRow (line (rowFields r i)) = .ok (applicationInfo r i) := by
  have hid : requireHex32 (rowFields r i) "APP_ID" .protocol = .ok (App.registryId i).toUInt32 :=
    requireHex32_hex32 rfl
  have hactive : requireHex32 (rowFields r i) "ACTIVE" .protocol =
      .ok (if App.registryId i = r.activeId then 1 else 0) := requireHex32_hex32 rfl
  have hname : require (rowFields r i) "NAME" .protocol = .ok (text (registryName i)) := by
    rw [← toText_registryName]
    exact require_of_lookup rfl
  have habi : requireHex32 (rowFields r i) "ABI" .protocol = .ok applicationRuntimeAbiVersion :=
    requireHex32_hex32 rfl
  have hflags : requireHex32 (rowFields r i) "FLAGS" .protocol = .ok applicationFlagSystem :=
    requireHex32_hex32 rfl
  have hstate : require (rowFields r i) "STATE" .protocol = .ok (text (stateName (r.states i))) := by
    rw [← toText_stateName]
    exact require_of_lookup rfl
  have hstateId : requireHex32 (rowFields r i) "STATE_ID" .protocol = .ok (stateId (r.states i)) :=
    requireHex32_hex32 rfl
  have hgood : ¬((App.registryId i).toUInt32 = 0 ∨ 0xFFFF < (App.registryId i).toUInt32) := by
    rintro (h | h)
    · exact toUInt32_ne_zero (App.registryId_ne_zero i) h
    · exact not_lt_toUInt32 _ h
  have hbit : ¬1 < (if App.registryId i = r.activeId then 1 else 0 : UInt32) := by
    split <;> decide
  rw [ApplicationListParser.parseRow, parseLine_line (telling_row r i)]
  simp only [bind, Except.bind, pure, Except.pure, hid, hactive, hname, habi, hflags, hstate, hstateId,
    if_neg hgood, if_neg hbit, UInt16.toUInt16_toUInt32]
  have hflag : decide ((if App.registryId i = r.activeId then 1 else 0 : UInt32) = 1) =
      decide (App.registryId i = r.activeId) := by
    split <;> simp_all
  rw [hflag]
  rfl

theorem sendable_applist (r : Runtime) :
    ∀ l ∈ [line (summaryFields r), line (rowFields r homeIndex), line (rowFields r infoIndex)],
      Sendable l := by
  simp only [List.forall_mem_cons]
  exact ⟨(telling_summary r).sendable, (telling_row r homeIndex).sendable,
    (telling_row r infoIndex).sendable, fun _ h => absurd h List.not_mem_nil⟩

theorem length_toText (bytes : List UInt8) : (toText bytes).length = bytes.length :=
  List.length_map _

/-- The list fits into what the host collects. -/
theorem length_applist (r : Runtime) : (whole (applist r)).1.length ≤ 65536 := by
  have hsummary : (line (summaryFields r)).length ≤
      (((summaryFields {}).map Prod.fst).map List.length).sum + (10 + 2) * 8 := by
    refine length_line_le ?_
    simp only [summaryFields, List.map_cons, List.map_nil, List.forall_mem_cons, length_hex32]
    exact ⟨Nat.le_refl _, Nat.le_refl _, Nat.le_refl _, Nat.le_refl _, Nat.le_refl _, Nat.le_refl _,
      Nat.le_refl _, Nat.le_refl _, fun _ h => absurd h List.not_mem_nil⟩
  have hrow : ∀ i, (line (rowFields r i)).length ≤
      (((rowFields {} homeIndex).map Prod.fst).map List.length).sum + (11 + 2) * 7 := by
    intro i
    refine length_line_le ?_
    simp only [rowFields, List.map_cons, List.map_nil, List.forall_mem_cons, length_hex32,
      toText_registryName, toText_stateName]
    exact ⟨Nat.le_succ _, length_registryName i, Nat.le_succ _, Nat.le_succ _, length_stateName _,
      Nat.le_succ _, Nat.le_succ _, fun _ h => absurd h List.not_mem_nil⟩
  have hkeys : (((summaryFields {}).map Prod.fst).map List.length).sum ≤ 1000 ∧
      (((rowFields {} homeIndex).map Prod.fst).map List.length).sum ≤ 1000 := by decide
  have hlines := length_report
    [line (summaryFields r), line (rowFields r homeIndex), line (rowFields r infoIndex)]
  have h0 := hrow homeIndex
  have h1 := hrow infoIndex
  rw [← (whole_applist r).1, length_toText] at hlines
  rw [hlines]
  simp only [List.map_cons, List.map_nil, List.sum_cons, List.sum_nil]
  omega

/-- **The application list is parsed** as the runtime. -/
theorem parse_applist (r : Runtime) : ApplicationListParser.parse
    (report [line (summaryFields r), line (rowFields r homeIndex), line (rowFields r infoIndex)]) =
      .ok (applicationSnapshot r) := by
  have habi : requireHex32 (summaryFields r) "APP_RUNTIME_ABI" .protocol =
      .ok applicationRuntimeAbiVersion := requireHex32_hex32 rfl
  have hcount : requireHex32 (summaryFields r) "APP_REGISTRY_COUNT" .protocol =
      .ok applicationRuntimeRegistryCount := requireHex32_hex32 rfl
  have hactive : requireHex32 (summaryFields r) "APP_ACTIVE_ID" .protocol =
      .ok r.activeId.toUInt32 := requireHex32_hex32 rfl
  have hfaults : requireHex32 (summaryFields r) "APP_FAULT_COUNT" .protocol = .ok r.faultCount :=
    requireHex32_hex32 rfl
  have hrows : [line (rowFields r homeIndex), line (rowFields r infoIndex)].mapM ApplicationListParser.parseRow =
      .ok [applicationInfo r homeIndex, applicationInfo r infoIndex] := by
    simp only [List.mapM_cons, List.mapM_nil, parseRow_line, bind, Except.bind, pure, Except.pure]
  rw [ApplicationListParser.parse, splitLines_report (sendable_applist r)]
  simp only [parseLine_line (telling_summary r), bind, Except.bind, pure, Except.pure, habi, hcount,
    hactive, hfaults, hrows, if_neg (not_lt_toUInt32 r.activeId), UInt16.toUInt16_toUInt32]
  rfl

/-! ## The health report -/

open Host.ManagementStateParser (parseHealth parsePrefixedValues requireBooleanHex32
  requireSingleLine validateRpcResult)

variable {result : RpcResult} {fields : Dictionary} {key operation : String}

/-- A line that begins with its name is read behind it. -/
theorem parsePrefixedValues_named (h : Telling fields) (name operation : String) :
    parsePrefixedValues (named name fields) name operation = .ok fields := by
  have htake : (named name fields).take ((text name).length + 1) = text name ++ [0x20] := by
    rw [named, List.take_length_add_append]
    rfl
  have hdrop : (named name fields).drop ((text name).length + 1) = line fields := by
    rw [named, List.drop_length_add_append]
    rfl
  rw [parsePrefixedValues]
  dsimp only
  rw [htake, hdrop, if_neg (not_not.2 rfl), if_neg h.sendable.ne_nil, parseLine_line h]

/-- A single line that is not too long is given. -/
theorem requireSingleLine_report {l : Text} {most : ℕ} (h : Sendable l) (hlen : l.length + 2 ≤ most)
    (operation : String) : requireSingleLine (report [l]) most operation = .ok l := by
  have hlength : (report [l]).length = l.length + 2 := by
    rw [length_report]
    rfl
  have hone : ∀ l' ∈ [l], Sendable l' := by
    intro l' hl'
    rw [List.mem_singleton.1 hl']
    exact h
  rw [requireSingleLine, hlength, if_neg (Nat.not_lt.2 hlen), splitLines_report hone]

/-- A truth value is read as it was written. -/
theorem requireBooleanHex32_bit {b : Bool} (h : fields.lookup (text key) = some (hex32 (bit b))) :
    requireBooleanHex32 fields key operation = .ok b := by
  rw [requireBooleanHex32, requireHex32_hex32 h]
  cases b <;> rfl

/-- A successful result of the call that was made is accepted. -/
theorem validateRpcResult_ok {rpcId : ℕ} (hrpc : result.rpcId = rpcId) (hid : result.requestId ≠ 0)
    (hok : result.isSuccess = true) : validateRpcResult result rpcId operation = .ok () := by
  have hgood : ¬result.isSuccess = false := by
    rw [hok]
    exact Bool.noConfusion
  rw [validateRpcResult, if_neg (not_not.2 hrpc), if_neg hid, if_neg hgood]

/-- A result that reports success throws nothing. -/
theorem ensureRpcSuccess_ok (hok : result.isSuccess = true) :
    Host.DeviceClient.ensureRpcSuccess result operation = .ok () := by
  have hgood : ¬result.isSuccess = false := by
    rw [hok]
    exact Bool.noConfusion
  exact if_neg hgood

/-- What the host shows of the kernel. -/
def healthSnapshot (k : KernelState ω) : Host.HealthSnapshot where
  tick := k.now
  pc13High := k.pc13
  watchdogActive := k.watchdogActive
  watchdogReloadCount := k.watchdogReloadCount
  resetFlags := k.resetFlags
  iwdgReset := k.iwdgReset

theorem telling_health (k : KernelState ω) : Telling (healthFields k) where
  ne_nil := List.cons_ne_nil _ _
  keys := (by decide : ∀ key ∈ [text "TICK", text "PC13", text "WDOG_ACTIVE",
    text "WDOG_RELOAD_COUNT", text "RESET_FLAGS", text "IWDG_RESET"], Printed key ∧ 0x3D ∉ key)
  values := by
    simp only [healthFields, List.map_cons, List.map_nil, List.forall_mem_cons]
    exact ⟨printed_hex32 _, printed_hex32 _, printed_hex32 _, printed_hex32 _, printed_hex32 _,
      printed_hex32 _, fun _ h => absurd h List.not_mem_nil⟩
  nodup := (by decide : [text "TICK", text "PC13", text "WDOG_ACTIVE", text "WDOG_RELOAD_COUNT",
    text "RESET_FLAGS", text "IWDG_RESET"].Nodup)

theorem sendable_health (k : KernelState ω) : Sendable (named "HEALTH" (healthFields k)) :=
  .named (telling_health k) (by decide)

theorem length_health (k : KernelState ω) : (named "HEALTH" (healthFields k)).length + 2 ≤ 512 := by
  have hline : (line (healthFields k)).length ≤ 57 + (10 + 2) * 6 := by
    refine length_line_le ?_
    simp only [healthFields, List.map_cons, List.map_nil, List.forall_mem_cons, length_hex32]
    exact ⟨Nat.le_refl _, Nat.le_refl _, Nat.le_refl _, Nat.le_refl _, Nat.le_refl _, Nat.le_refl _,
      fun _ h => absurd h List.not_mem_nil⟩
  have hname : (text "HEALTH").length = 6 := rfl
  rw [named, List.length_append, List.length_cons, hname]
  omega

/-- **The health line is parsed** as what the kernel found. -/
theorem parseHealth_report (k : KernelState ω) (hrpc : result.rpcId = Host.rpcHealth)
    (hid : result.requestId ≠ 0) (hok : result.isSuccess = true)
    (houtput : result.outputText = report [named "HEALTH" (healthFields k)]) :
    parseHealth result = .ok (healthSnapshot k) := by
  have hline := requireSingleLine_report (sendable_health k) (length_health k) "health"
  have htick : requireHex32 (healthFields k) "TICK" .protocol = .ok k.now := requireHex32_hex32 rfl
  have hpc13 : requireBooleanHex32 (healthFields k) "PC13" "health" = .ok k.pc13 :=
    requireBooleanHex32_bit rfl
  have hactive : requireBooleanHex32 (healthFields k) "WDOG_ACTIVE" "health" = .ok k.watchdogActive :=
    requireBooleanHex32_bit rfl
  have hcount : requireHex32 (healthFields k) "WDOG_RELOAD_COUNT" .protocol =
      .ok k.watchdogReloadCount := requireHex32_hex32 rfl
  have hflags : requireHex32 (healthFields k) "RESET_FLAGS" .protocol = .ok k.resetFlags :=
    requireHex32_hex32 rfl
  have hreset : requireBooleanHex32 (healthFields k) "IWDG_RESET" "health" = .ok k.iwdgReset :=
    requireBooleanHex32_bit rfl
  rw [parseHealth, houtput]
  simp only [validateRpcResult_ok hrpc hid hok, Host.ManagementStateParser.healthOutputMax, hline,
    parsePrefixedValues_named (telling_health k), htick, hpc13, hactive, hcount, hflags, hreset, bind,
    Except.bind, pure, Except.pure]
  rfl

/-! ## Delivered -/

/-- A result is a success exactly where its status codes are zero. -/
theorem isSuccess_iff {result : RpcResult} (hdomain : result.statusDomain = 0) :
    result.isSuccess = true ↔ result.statusCode = 0 := by
  rw [RpcResult.isSuccess, hdomain, Bool.and_eq_true, decide_eq_true_eq, decide_eq_true_eq]
  exact and_iff_right rfl

variable {binding : Rpc.RpcBinding ρ} {rpcId : ℕ}

/-- **A whole report is delivered,** or the host is told of an error: a success
is never told over a part of it. -/
theorem delivers_report {d : Rpc.CommandServiceDescriptor} {bytes : List UInt8}
    (hfound : Rpc.findRpcId rpcId = some d) (hsafe : d.commandClass = .safe)
    (hargs : d.minArgs = 0 ∧ d.maxArgs ≤ 4) (hrpc : rpcId < 65536)
    (hwhole : ∀ request : CommandServiceRequest, request.descriptor = d →
      whole (binding.commandHandler request) = (bytes, .ok))
    (hbytes : toText bytes = report lines) (hlines : ∀ l ∈ lines, Sendable l)
    (hbound : bytes.length ≤ 65536) :
    Delivers binding rpcId [] fun events result =>
      (AllTaken events → result.isSuccess = true) ∧
        (result.isSuccess = true → result.rpcId = rpcId ∧ result.requestId ≠ 0 ∧
          result.outputText = report lines) := by
  have hnone : d.minArgs ≤ ([] : List Text).length ∧ ([] : List Text).length ≤ d.maxArgs :=
    ⟨Nat.le_of_eq hargs.1, Nat.zero_le _⟩
  refine (delivers hrpc hfound hsafe hargs.2 hnone (fun string h => absurd h List.not_mem_nil)
    (fun request h => hwhole request h.descriptor) hbound).mono ?_
  rintro events result ⟨hsame, hid, hdomain, ⟨hcode, houtput⟩ | ⟨hcode, hlost⟩⟩
  · have hok : result.isSuccess = true := (isSuccess_iff hdomain).2 hcode
    refine ⟨fun _ => hok, fun _ => ⟨hsame, hid, ?_⟩⟩
    rw [RpcResult.outputText, houtput]
    exact utf8GetString_report hlines hbytes
  · refine ⟨fun hall => absurd hall hlost, fun hok => ?_⟩
    rw [isSuccess_iff hdomain, hcode] at hok
    cases hok

/-- **The application list is the runtime.** Whatever the runtime went
through, and whatever reads the answer comes in, the host that asks for the
applications, where the frame that ends the answer was taken, is given the
runtime's own ids, names and states, in one piece, or an error. -/
theorem applications_reported (sendWire : ρ → List UInt8 → ρ × Bool) (app : Index → App.Callbacks ω)
    (k : KernelState ω) (other : CommandServiceRequest → Handler) :
    Delivers (managementBinding app k sendWire other) Host.rpcAppList [] fun events result =>
      (AllTaken events → result.isSuccess = true) ∧
        (result.isSuccess = true →
          Host.DeviceClient.applications result = .ok (applicationSnapshot k.machine.runtime)) := by
  obtain ⟨hbytes, hstatus⟩ := whole_applist k.machine.runtime
  refine (delivers_report (d := ⟨"applist", 0x0021, .safe, 0, 0⟩) (by decide) rfl ⟨rfl, by decide⟩
    (by decide) (fun request hrequest => ?_) hbytes (sendable_applist _) (length_applist _)).mono ?_
  · have hhandler : (managementBinding app k sendWire other).commandHandler request =
        applist k.machine.runtime := by
      unfold managementBinding consoleExecuteRequest
      dsimp only
      rw [hrequest]
      rfl
    rw [hhandler]
    exact Prod.ext rfl hstatus
  · rintro events result ⟨hall, hok⟩
    refine ⟨hall, fun hsuccess => ?_⟩
    rw [Host.DeviceClient.applications, ensureRpcSuccess_ok hsuccess, (hok hsuccess).2.2]
    exact parse_applist k.machine.runtime

/-- A link that takes every frame. -/
def openLink (link : Unit) (_ : List UInt8) : Unit × Bool := (link, true)

/-- Applications that never fail. -/
def calmApp (_ : Index) : App.Callbacks Unit where
  init world := (true, world)
  start _ world := (true, world)
  event _ _ world := (0, world)
  render view _ world := (true, view, world)
  stop _ world := (true, world)

/-- A kernel that has just been started. -/
def bootKernel : KernelState Unit where
  now := 0
  pc13 := false
  watchdogActive := false
  watchdogReloadCount := 0
  resetFlags := 0
  iwdgReset := false
  machine := { world := () }
  services := none
  sourceTree := ⟨chars "UNBOUND", Or.inl rfl⟩

/-- The other methods, which are not asked for. -/
def otherMethods (_ : CommandServiceRequest) : Handler := .ret .ok

/-- The applications of a board that has booted, over a link that takes every
frame. -/
theorem applications_reported_boot : ∃ result : RpcResult, result.isSuccess = true ∧
    Host.DeviceClient.applications result =
      .ok (applicationSnapshot bootKernel.machine.runtime) := by
  obtain ⟨events, result, hall, hok, hlist⟩ :=
    (applications_reported openLink calmApp bootKernel otherMethods).over (fun _ _ => rfl)
      (by decide) (d := ⟨"applist", 0x0021, .safe, 0, 0⟩) (by decide) rfl (by decide)
      ⟨Nat.le_refl 0, Nat.le_refl 0⟩ (fun string h => absurd h List.not_mem_nil) Rpc.idle
  exact ⟨result, hok hall, hlist (hok hall)⟩

/-- **The health snapshot is what the kernel found,** every field of it: where
the frame that ends the answer was taken, the host's call returns, with the
kernel's own fields or an error. -/
theorem health_reported (sendWire : ρ → List UInt8 → ρ × Bool) (app : Index → App.Callbacks ω)
    (k : KernelState ω) (other : CommandServiceRequest → Handler) :
    Delivers (managementBinding app k sendWire other) Host.rpcHealth [] fun events result =>
      (AllTaken events → result.isSuccess = true) ∧
        (result.isSuccess = true → parseHealth result = .ok (healthSnapshot k)) := by
  obtain ⟨hbytes, hstatus⟩ := whole_health k
  have hlines : ∀ l ∈ [named "HEALTH" (healthFields k)], Sendable l := by
    intro l hl
    rw [List.mem_singleton.1 hl]
    exact sendable_health k
  have hbound : (whole (health k)).1.length ≤ 65536 := by
    have hlength := length_report [named "HEALTH" (healthFields k)]
    have hline := length_health k
    rw [← hbytes, length_toText] at hlength
    rw [hlength]
    simp only [List.map_cons, List.map_nil, List.sum_cons, List.sum_nil]
    omega
  refine (delivers_report (d := ⟨"health", 0x0003, .safe, 0, 0⟩) (by decide) rfl ⟨rfl, by decide⟩
    (by decide) (fun request hrequest => ?_) hbytes hlines hbound).mono ?_
  · have hhandler : (managementBinding app k sendWire other).commandHandler request = health k := by
      unfold managementBinding consoleExecuteRequest
      dsimp only
      rw [hrequest]
      rfl
    rw [hhandler]
    exact Prod.ext rfl hstatus
  · rintro events result ⟨hall, hok⟩
    refine ⟨hall, fun hsuccess => ?_⟩
    obtain ⟨hrpc, hid, houtput⟩ := hok hsuccess
    exact parseHealth_report k hrpc hid hsuccess houtput

/-- The health of a board that has booted, over a link that takes every frame.
-/
theorem health_reported_boot : ∃ result : RpcResult, result.isSuccess = true ∧
    parseHealth result = .ok (healthSnapshot bootKernel) := by
  obtain ⟨events, result, hall, hok, hsnapshot⟩ :=
    (health_reported openLink calmApp bootKernel otherMethods).over (fun _ _ => rfl)
      (by decide) (d := ⟨"health", 0x0003, .safe, 0, 0⟩) (by decide) rfl (by decide)
      ⟨Nat.le_refl 0, Nat.le_refl 0⟩ (fun string h => absurd h List.not_mem_nil) Rpc.idle
  exact ⟨result, hok hall, hsnapshot (hok hall)⟩

end Management

end DeusOs
