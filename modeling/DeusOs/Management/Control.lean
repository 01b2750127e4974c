import DeusOs.Management.Reports

/-!
# Management — starting and stopping applications

The id that the host formats is the id that the device parses
(`parseId_startArgument`). So a start that the host asks for is the start of
that application in the runtime, and it is told so exactly where the runtime
did it (`application_started`); and likewise for a stop.
-/

namespace DeusOs

namespace Management

open App (Index ServiceSnapshot indexFromId renderActive_states runtimeStart runtimeStop)
open Host (Dictionary RpcResult Text formatHex text utf8GetBytes)
open Host.DeviceClient (startApplicationControl startArgument stopApplicationControl)
open Host.KeyValueTokens (requireHex32)
open Host.ManagementStateParser (requireApplicationId)
open Rpc (AllTaken CommandServiceRequest CommandServiceStatus Handler cString)

variable {ω ρ : Type} {app : Index → App.Callbacks ω} {m : App.Machine ω} {bytes : List UInt8}
  {id : UInt16} {services : Option ServiceSnapshot} {request : CommandServiceRequest}

/-! ## The argument -/

/-- ASCII is encoded as it is. -/
theorem utf8GetBytes_toText (h : ∀ byte ∈ bytes, byte < 0x80) : utf8GetBytes (toText bytes) = bytes := by
  induction bytes with
  | nil => rfl
  | cons byte bytes ih =>
    rw [List.forall_mem_cons] at h
    have hbyte : byte.toNat < 0x80 := UInt8.lt_iff_toNat_lt.1 h.1
    have hunit : (UInt16.ofNat byte.toNat).toNat = byte.toNat :=
      UInt16.toNat_ofNat_of_lt' (Nat.lt_trans hbyte (by decide))
    have hplane : ¬(Host.IsHigh (UInt16.ofNat byte.toNat) ∨ Host.IsLow (UInt16.ofNat byte.toNat)) := by
      unfold Host.IsHigh Host.IsLow
      omega
    have hencode : Host.utf8OfUnit (UInt16.ofNat byte.toNat) = [byte] := by
      rw [Host.utf8OfUnit, hunit, if_pos hbyte, UInt8.ofNat_toNat]
    have hrest := ih h.2
    cases bytes with
    | nil =>
      change utf8GetBytes [UInt16.ofNat byte.toNat] = [byte]
      rw [utf8GetBytes, if_neg hplane, hencode]
    | cons next bytes =>
      change utf8GetBytes (UInt16.ofNat byte.toNat :: UInt16.ofNat next.toNat :: toText bytes) = _
      rw [utf8GetBytes, if_neg fun hpair => hplane (Or.inl hpair.1), if_neg hplane, hencode]
      exact congrArg (byte :: ·) hrest

/-- The characters of the argument. -/
def argumentChars (id : UInt16) : List UInt8 :=
  0x30 :: 0x78 :: (Digits.write 16 4 id.toNat).map hexChar

theorem hexChar_lt : ∀ digit < 16, hexChar digit < 0x80 ∧ hexChar digit ≠ 0 := by decide

theorem mem_argumentChars {byte : UInt8} (h : byte ∈ argumentChars id) : byte < 0x80 ∧ byte ≠ 0 := by
  rcases List.mem_cons.1 h with rfl | h
  · decide
  · rcases List.mem_cons.1 h with rfl | h
    · decide
    · obtain ⟨digit, hdigit, rfl⟩ := List.mem_map.1 h
      exact hexChar_lt digit (Digits.lt_of_mem_write (by decide) 4 id.toNat digit hdigit)

/-- **The argument goes over the wire** as these characters, each of them one
byte. -/
theorem utf8GetBytes_startArgument (id : UInt16) :
    utf8GetBytes (startArgument id) = argumentChars id := by
  have hdigit : ∀ digit < 16, UInt16.ofNat (hexChar digit).toNat = Host.hexDigit digit := by decide
  have hsame : startArgument id = toText (argumentChars id) := by
    rw [startArgument, formatHex, argumentChars, toText, List.map_cons, List.map_cons, List.map_map]
    refine congrArg (text "0x" ++ ·) ?_
    exact (List.map_congr_left fun digit hin =>
      hdigit digit (Digits.lt_of_mem_write (by decide) 4 id.toNat digit hin)).symm
  rw [hsame]
  exact utf8GetBytes_toText fun byte hbyte => (mem_argumentChars hbyte).1

theorem plain_argumentChars (id : UInt16) : Rpc.Plain (argumentChars id) := by
  refine ⟨?_, fun hzero => (mem_argumentChars hzero).2 rfl⟩
  rw [argumentChars, List.length_cons, List.length_cons, List.length_map, Digits.length_write]
  decide

/-- What is read only grows. -/
theorem le_read (digits : List ℕ) (value : ℕ) : value ≤ Digits.read 16 digits value := by
  induction digits generalizing value with
  | nil => exact Nat.le_refl _
  | cons digit digits ih =>
    have hnext := ih (value * 16 + digit)
    exact Nat.le_trans (by omega) hnext

/-- **The loop reads digits** whose number fits. -/
theorem parseIdLoop_digits {digits : List ℕ} (hdigits : ∀ digit ∈ digits, digit < 16) (value count : ℕ)
    (hfits : Digits.read 16 digits value ≤ 0xFFFF) :
    parseIdLoop 16 (digits.map hexChar) value count =
      if count + digits.length = 0 ∨ Digits.read 16 digits value = 0 then none
      else some (UInt16.ofNat (Digits.read 16 digits value)) := by
  induction digits generalizing value count with
  | nil => rfl
  | cons digit digits ih =>
    rw [List.forall_mem_cons] at hdigits
    have hparse : ∀ digit < 16, parseIdDigit 16 (hexChar digit) = some digit := by decide
    have hle := le_read digits (value * 16 + digit)
    have hread : Digits.read 16 (digit :: digits) value = Digits.read 16 digits (value * 16 + digit) :=
      rfl
    rw [hread] at hfits ⊢
    rw [List.map_cons, parseIdLoop, hparse digit hdigits.1]
    dsimp only
    rw [if_neg (Nat.not_le.2 hdigits.1), if_neg (by omega : ¬0xFFFF < value * 16 + digit),
      ih hdigits.2 _ _ hfits, List.length_cons, Nat.add_assoc, Nat.add_comm 1]

/-- **The id that the host formats is the id that the device parses.** Zero
names no application, and the device refuses it. -/
theorem parseId_startArgument (id : UInt16) :
    parseId (utf8GetBytes (startArgument id)) = if id = 0 then none else some id := by
  have hread : Digits.read 16 (Digits.write 16 4 id.toNat) 0 = id.toNat := by
    rw [Digits.read_write, Nat.zero_mul, Nat.zero_add]
    exact Nat.mod_eq_of_lt id.toNat_lt
  have hloop := parseIdLoop_digits (Digits.lt_of_mem_write (by decide) 4 id.toNat) 0 0
    (by rw [hread]; exact Nat.le_of_lt_succ id.toNat_lt)
  rw [hread, Digits.length_write, UInt16.ofNat_toNat] at hloop
  rw [utf8GetBytes_startArgument, argumentChars, parseId, if_pos ⟨rfl, Or.inl rfl⟩, hloop]
  by_cases hid : id = 0
  · subst hid
    rfl
  · have hne : ¬(0 + 4 = 0 ∨ id.toNat = 0) := by
      rintro (h | h)
      · cases h
      · exact hid (UInt16.toNat_inj.1 h)
    rw [if_neg hne, if_neg hid]

/-! ## The runtime -/

/-- An application that is started is active. -/
theorem startTarget_activeId (app : Index → App.Callbacks ω) (m : App.Machine ω) (id : UInt16)
    (i : Index) (s : ServiceSnapshot) :
    (App.startTarget app m id i s).2 = true →
      (App.startTarget app m id i s).1.runtime.activeId = id := by
  rcases hstart : (app i).start s m.world with ⟨- | -, world⟩
  · simp only [App.startTarget, hstart, if_true]
    split <;> exact fun h => absurd h Bool.false_ne_true
  · simp only [App.startTarget, hstart, Bool.true_eq_false, if_false]
    exact fun _ => (renderActive_states _ s).2.1

/-- **A start that succeeds leaves the application active.** A fallback to home
is not a success. -/
theorem runtimeStart_activeId (app : Index → App.Callbacks ω) (m : App.Machine ω) (id : UInt16)
    (services : Option ServiceSnapshot) :
    (runtimeStart app m id services).2 = true →
      (runtimeStart app m id services).1.runtime.activeId = id := by
  have hno : ∀ x : App.Machine ω, (x, false).2 = true → (x, false).1.runtime.activeId = id :=
    fun x h => absurd h Bool.false_ne_true
  cases services with
  | none => exact hno m
  | some s =>
    cases hindex : indexFromId id with
    | none =>
      simp only [runtimeStart, hindex]
      exact hno m
    | some i =>
      simp only [runtimeStart, hindex]
      split
      · exact hno m
      split
      · rename_i hactive
        exact fun _ => hactive.1
      split
      · exact hno m
      split
      · split
        · exact hno m
        · split
          · exact hno m
          · split
            · exact hno _
            · exact startTarget_activeId app _ id i s
      · exact startTarget_activeId app _ id i s

/-! ## Starting -/

/-- `appstart`, of one argument. -/
def appstartMethod : Rpc.CommandServiceDescriptor := ⟨"appstart", 0x0022, .safe, 1, 1⟩

theorem length_of_report {l : Text} (h : toText bytes = report [l]) : bytes.length = l.length + 2 := by
  rw [← length_toText, h, length_report]
  rfl

theorem telling_start (id activeId : UInt16) : Telling (startFields id activeId) where
  ne_nil := List.cons_ne_nil _ _
  keys := (by decide : ∀ key ∈ [text "ID", text "ACTIVE_ID"], Printed key ∧ 0x3D ∉ key)
  values := by
    simp only [startFields, List.map_cons, List.map_nil, List.forall_mem_cons]
    exact ⟨printed_hex32 _, printed_hex32 _, fun _ h => absurd h List.not_mem_nil⟩
  nodup := (by decide : [text "ID", text "ACTIVE_ID"].Nodup)

theorem length_start (id activeId : UInt16) :
    (named "APP_START_OK" (startFields id activeId)).length + 2 ≤ 128 := by
  have hline : (line (startFields id activeId)).length ≤ 11 + (10 + 2) * 2 := by
    refine length_line_le ?_
    simp only [startFields, List.map_cons, List.map_nil, List.forall_mem_cons, length_hex32]
    exact ⟨Nat.le_refl _, Nat.le_refl _, fun _ h => absurd h List.not_mem_nil⟩
  have hname : (text "APP_START_OK").length = 12 := rfl
  rw [named, List.length_append, List.length_cons, hname]
  omega

/-- What a start answers. -/
def startStatus (app : Index → App.Callbacks ω) (m : App.Machine ω) (id : UInt16)
    (services : Option ServiceSnapshot) : CommandServiceStatus :=
  if indexFromId id = none then .badArgs
  else if services = none then .busy
  else if (runtimeStart app m id services).2 = false then .internalError
  else .ok

/-- The device finds the application that the host names. -/
theorem requestedId_startArgument
    (h : Requests appstartMethod [utf8GetBytes (startArgument id)] request) :
    requestedId request = (indexFromId id).map fun _ => id := by
  have hargv : (request.argv 0).map cString = some (utf8GetBytes (startArgument id)) :=
    h.argv 0 Nat.one_pos
  rw [requestedId, h.argc, hargv]
  dsimp only [List.length_cons, List.length_nil]
  rw [if_neg (not_not.2 rfl), Option.bind_some, parseId_startArgument]
  by_cases hid : id = 0
  · subst hid
    rfl
  · rw [if_neg hid, Option.bind_some]

/-- **What a start leaves and answers.** -/
theorem appstartNamed_spec (app : Index → App.Callbacks ω) (m : App.Machine ω) (id : UInt16)
    (services : Option ServiceSnapshot) :
    (appstartNamed app m ((indexFromId id).map fun _ => id) services).1 =
        (runtimeStart app m id services).1 ∧
      (whole (appstartNamed app m ((indexFromId id).map fun _ => id) services).2).2 =
        startStatus app m id services ∧
      (startStatus app m id services = .ok → (runtimeStart app m id services).2 = true ∧
        toText (whole (appstartNamed app m ((indexFromId id).map fun _ => id) services).2).1 =
          report [named "APP_START_OK" (startFields id id)]) ∧
      (whole (appstartNamed app m ((indexFromId id).map fun _ => id) services).2).1.length ≤ 65536 := by
  unfold startStatus
  cases hindex : indexFromId id with
  | none =>
    have hstay : (runtimeStart app m id services).1 = m := by
      unfold runtimeStart
      rw [hindex]
      cases services <;> rfl
    rw [hstay, if_pos rfl]
    exact ⟨rfl, rfl, (fun h => by cases h), Nat.zero_le _⟩
  | some i =>
    rw [if_neg (Option.some_ne_none i), Option.map_some]
    cases services with
    | none =>
      rw [if_pos rfl]
      exact ⟨rfl, rfl, (fun h => by cases h),
        (by decide : (whole (writeLine "APP_RUNTIME_BUSY" <| .ret .busy)).1.length ≤ 65536)⟩
    | some s =>
      have hactive := runtimeStart_activeId app m id (some s)
      rw [if_neg (Option.some_ne_none s), appstartNamed]
      rcases hstart : runtimeStart app m id (some s) with ⟨m', - | -⟩
      · rw [if_pos rfl]
        exact ⟨rfl, rfl, (fun h => by cases h), Nat.zero_le _⟩
      · rw [hstart] at hactive
        have hsame : m'.runtime.activeId = id := hactive rfl
        have htext := whole_started id m'.runtime.activeId
        rw [if_neg Bool.noConfusion]
        refine ⟨rfl, rfl, fun _ => ⟨rfl, ?_⟩, ?_⟩
        · refine htext.trans ?_
          rw [hsame]
        · rw [length_of_report htext]
          exact Nat.le_trans (length_start id m'.runtime.activeId) (by decide)

theorem status_ok_of_code {status : CommandServiceStatus} (h : status.code = 0) : status = .ok := by
  cases status <;> first | rfl | cases h

/-- An id is read as it was written. -/
theorem requireApplicationId_hex32 {fields : Dictionary} {key : String} {allowZero : Bool}
    (h : fields.lookup (text key) = some (hex32 id.toUInt32)) (hzero : allowZero = false → id ≠ 0) :
    requireApplicationId fields key allowZero = .ok id := by
  have hgood : ¬(0xFFFF < id.toUInt32 ∨ (allowZero = false ∧ id.toUInt32 = 0)) := by
    rintro (h | ⟨hno, h⟩)
    · exact not_lt_toUInt32 id h
    · exact toUInt32_ne_zero (hzero hno) h
  rw [requireApplicationId, requireHex32_hex32 h]
  dsimp only [bind, Except.bind]
  rw [if_neg hgood, UInt16.toUInt16_toUInt32]
  rfl

/-- **The host reads a start** as the start of the application it named. -/
theorem startApplicationControl_report {result : RpcResult} (hid : id ≠ 0)
    (hrpc : result.rpcId = Host.rpcAppStart) (hrequest : result.requestId ≠ 0)
    (hok : result.isSuccess = true)
    (houtput : result.outputText = report [named "APP_START_OK" (startFields id id)]) :
    startApplicationControl id result = .ok ⟨result.requestId, id, id⟩ := by
  have hline := requireSingleLine_report
    (.named (telling_start id id) (by decide) : Sendable (named "APP_START_OK" (startFields id id)))
    (length_start id id) "appstart"
  have hnamed : requireApplicationId (startFields id id) "ID" false = .ok id :=
    requireApplicationId_hex32 rfl fun _ => hid
  have hactive : requireApplicationId (startFields id id) "ACTIVE_ID" true = .ok id :=
    requireApplicationId_hex32 rfl fun h => by cases h
  have hparse : Host.ManagementStateParser.parseApplicationStart result =
      .ok ⟨result.requestId, id, id⟩ := by
    rw [Host.ManagementStateParser.parseApplicationStart, houtput]
    simp only [validateRpcResult_ok hrpc hrequest hok,
      Host.ManagementStateParser.applicationControlOutputMax, hline,
      parsePrefixedValues_named (telling_start id id), hnamed, hactive, bind, Except.bind, pure,
      Except.pure]
  rw [startApplicationControl, ensureRpcSuccess_ok hok, hparse]
  dsimp only [bind, Except.bind, pure, Except.pure]
  rw [if_neg (not_not.2 rfl)]

/-- **A start goes over the wire.** Of every id, the device does what
`application_runtime_start` does with it in the state it is in; where the frame
that ends the answer was taken, the host is told of success only where that
succeeded, and reads the id it named as the active one. -/
theorem application_started (sendWire : ρ → List UInt8 → ρ × Bool) (app : Index → App.Callbacks ω)
    (k : KernelState ω) (other : CommandServiceRequest → Handler) (id : UInt16) :
    (∀ request, Requests appstartMethod [utf8GetBytes (startArgument id)] request →
      (consoleExecuteRequest app k other request).1 = (runtimeStart app k.machine id k.services).1) ∧
    Delivers (managementBinding app k sendWire other) Host.rpcAppStart [startArgument id]
      fun events result =>
        result.statusDomain = 0 ∧
          (AllTaken events → result.statusCode = (startStatus app k.machine id k.services).code) ∧
          (result.isSuccess = true →
            (runtimeStart app k.machine id k.services).2 = true ∧
              (runtimeStart app k.machine id k.services).1.runtime.activeId = id ∧
              startApplicationControl id result = .ok ⟨result.requestId, id, id⟩) := by
  obtain ⟨hmachine, hstatus, hsucceeds, hbound⟩ := appstartNamed_spec app k.machine id k.services
  have hexecute : ∀ request, Requests appstartMethod [utf8GetBytes (startArgument id)] request →
      consoleExecuteRequest app k other request =
        appstartNamed app k.machine ((indexFromId id).map fun _ => id) k.services := by
    intro request hrequest
    rw [← requestedId_startArgument hrequest]
    unfold consoleExecuteRequest
    rw [hrequest.descriptor]
    rfl
  refine ⟨fun request hrequest => by rw [hexecute request hrequest, hmachine], ?_⟩
  have hargs : appstartMethod.minArgs ≤ [startArgument id].length ∧
      [startArgument id].length ≤ appstartMethod.maxArgs := ⟨Nat.le_refl 1, Nat.le_refl 1⟩
  have hwhole : ∀ request, Requests appstartMethod [utf8GetBytes (startArgument id)] request →
      whole ((managementBinding app k sendWire other).commandHandler request) =
        ((whole (appstartNamed app k.machine ((indexFromId id).map fun _ => id) k.services).2).1,
          startStatus app k.machine id k.services) := by
    intro request hrequest
    change whole (consoleExecuteRequest app k other request).2 = _
    rw [hexecute request hrequest, ← hstatus]
  refine (delivers (by decide) (by decide) rfl (by decide) hargs ?_ hwhole hbound).mono ?_
  · intro string hstring
    rw [List.mem_singleton.1 hstring, utf8GetBytes_startArgument]
    exact plain_argumentChars id
  · rintro events result ⟨hrpc, hrequest, hdomain, houtput⟩
    refine ⟨hdomain, fun hall => ?_, fun hok => ?_⟩
    · rcases houtput with ⟨hcode, -⟩ | ⟨-, hlost⟩
      · exact hcode
      · exact absurd hall hlost
    · have hzero := (isSuccess_iff hdomain).1 hok
      rcases houtput with ⟨hcode, hbytes⟩ | ⟨hcode, -⟩
      · have hstarted : startStatus app k.machine id k.services = .ok :=
          status_ok_of_code (hcode.symm.trans hzero)
        obtain ⟨hran, htext⟩ := hsucceeds hstarted
        have hid : id ≠ 0 := by
          rintro rfl
          rw [startStatus, if_pos App.indexFromId_zero] at hstarted
          cases hstarted
        refine ⟨hran, runtimeStart_activeId app k.machine id k.services hran,
          startApplicationControl_report hid hrpc hrequest hok ?_⟩
        rw [RpcResult.outputText, hbytes]
        refine utf8GetString_report (fun l hl => ?_) htext
        rw [List.mem_singleton.1 hl]
        exact .named (telling_start id id) (by decide)
      · rw [hcode] at hzero
        cases hzero

/-- A kernel whose desktop is up. -/
def desktopKernel : KernelState Unit :=
  { bootKernel with
    machine := (App.runtimeInitialize calmApp { world := () }).1
    services := some ⟨0, 0, 1, 0, 0⟩ }

/-- The device information is started over a link that takes every frame. -/
theorem application_started_info : ∃ result : RpcResult, result.isSuccess = true ∧
    startApplicationControl App.idDeviceInfo result =
      .ok ⟨result.requestId, App.idDeviceInfo, App.idDeviceInfo⟩ := by
  have hplain : ∀ string ∈ [startArgument App.idDeviceInfo], Rpc.Plain (utf8GetBytes string) := by
    intro string hstring
    rw [List.mem_singleton.1 hstring, utf8GetBytes_startArgument]
    exact plain_argumentChars _
  have hstart : startStatus calmApp desktopKernel.machine App.idDeviceInfo desktopKernel.services =
      .ok := by decide
  obtain ⟨events, result, hall, hdomain, hstatus, hok⟩ :=
    (application_started openLink calmApp desktopKernel otherMethods App.idDeviceInfo).2.over
      (fun _ _ => rfl) (by decide) (d := appstartMethod) (by decide) rfl (by decide)
      ⟨Nat.le_refl 1, Nat.le_refl 1⟩ hplain Rpc.idle
  have hcode := hstatus hall
  rw [hstart] at hcode
  have hsuccess : result.isSuccess = true := (isSuccess_iff hdomain).2 hcode
  exact ⟨result, hsuccess, (hok hsuccess).2.2⟩

/-! ## Stopping -/

/-- `appstop`. -/
def appstopMethod : Rpc.CommandServiceDescriptor := ⟨"appstop", 0x0023, .safe, 0, 0⟩

/-- What a stop answers. -/
def stopStatus (app : Index → App.Callbacks ω) (m : App.Machine ω)
    (services : Option ServiceSnapshot) : CommandServiceStatus :=
  if services = none then .busy
  else if (runtimeStop app m services).2 = false then .internalError
  else .ok

/-- **A stop that succeeds leaves home active.** -/
theorem runtimeStop_activeId (app : Index → App.Callbacks ω) (m : App.Machine ω)
    (services : Option ServiceSnapshot) :
    (runtimeStop app m services).2 = true →
      (runtimeStop app m services).1.runtime.activeId = App.idSystemHome := by
  unfold runtimeStop
  split
  · exact fun h => absurd h Bool.false_ne_true
  split
  · rename_i hhome
    exact fun _ => hhome
  · exact runtimeStart_activeId app m App.idSystemHome services

theorem telling_stop (activeId : UInt16) : Telling (stopFields activeId) where
  ne_nil := List.cons_ne_nil _ _
  keys := (by decide : ∀ key ∈ [text "ACTIVE_ID"], Printed key ∧ 0x3D ∉ key)
  values := by
    simp only [stopFields, List.map_cons, List.map_nil, List.forall_mem_cons]
    exact ⟨printed_hex32 _, fun _ h => absurd h List.not_mem_nil⟩
  nodup := List.nodup_singleton _

theorem length_stop (activeId : UInt16) :
    (named "APP_STOP_OK" (stopFields activeId)).length + 2 ≤ 128 := by
  have hline : (line (stopFields activeId)).length ≤ 9 + (10 + 2) * 1 := by
    refine length_line_le ?_
    simp only [stopFields, List.map_cons, List.map_nil, List.forall_mem_cons, length_hex32]
    exact ⟨Nat.le_refl _, fun _ h => absurd h List.not_mem_nil⟩
  have hname : (text "APP_STOP_OK").length = 11 := rfl
  rw [named, List.length_append, List.length_cons, hname]
  omega

/-- **What a stop leaves and answers.** -/
theorem appstop_spec (app : Index → App.Callbacks ω) (m : App.Machine ω)
    (services : Option ServiceSnapshot) :
    (appstop app m services).1 = (runtimeStop app m services).1 ∧
      (whole (appstop app m services).2).2 = stopStatus app m services ∧
      (stopStatus app m services = .ok → (runtimeStop app m services).2 = true ∧
        toText (whole (appstop app m services).2).1 =
          report [named "APP_STOP_OK" (stopFields App.idSystemHome)]) ∧
      (whole (appstop app m services).2).1.length ≤ 65536 := by
  unfold stopStatus
  cases services with
  | none =>
    rw [if_pos rfl]
    exact ⟨rfl, rfl, (fun h => by cases h),
      (by decide : (whole (writeLine "APP_RUNTIME_BUSY" <| .ret .busy)).1.length ≤ 65536)⟩
  | some s =>
    have hactive := runtimeStop_activeId app m (some s)
    rw [if_neg (Option.some_ne_none s), appstop]
    rcases hstop : runtimeStop app m (some s) with ⟨m', - | -⟩
    · rw [if_pos rfl]
      exact ⟨rfl, rfl, (fun h => by cases h), Nat.zero_le _⟩
    · rw [hstop] at hactive
      have hsame : m'.runtime.activeId = App.idSystemHome := hactive rfl
      have htext := whole_stopped m'.runtime.activeId
      rw [if_neg Bool.noConfusion]
      refine ⟨rfl, rfl, fun _ => ⟨rfl, ?_⟩, ?_⟩
      · refine htext.trans ?_
        rw [hsame]
      · rw [length_of_report htext]
        exact Nat.le_trans (length_stop m'.runtime.activeId) (by decide)

/-- **The host reads a stop** as home being active. -/
theorem stopApplicationControl_report {result : RpcResult} (hrpc : result.rpcId = Host.rpcAppStop)
    (hrequest : result.requestId ≠ 0) (hok : result.isSuccess = true)
    (houtput : result.outputText = report [named "APP_STOP_OK" (stopFields id)]) :
    stopApplicationControl result = .ok ⟨result.requestId, id⟩ := by
  have hline := requireSingleLine_report
    (.named (telling_stop id) (by decide) : Sendable (named "APP_STOP_OK" (stopFields id)))
    (length_stop id) "appstop"
  have hactive : requireApplicationId (stopFields id) "ACTIVE_ID" true = .ok id :=
    requireApplicationId_hex32 rfl fun h => by cases h
  rw [stopApplicationControl, ensureRpcSuccess_ok hok,
    Host.ManagementStateParser.parseApplicationStop, houtput]
  simp only [validateRpcResult_ok hrpc hrequest hok,
    Host.ManagementStateParser.applicationControlOutputMax, hline,
    parsePrefixedValues_named (telling_stop id), hactive, bind, Except.bind, pure, Except.pure]

/-- **A stop goes over the wire.** The device does what
`application_runtime_stop` does in the state it is in; where the frame that
ends the answer was taken, the host is told of success only where that
succeeded, and reads home as the active application. -/
theorem application_stopped (sendWire : ρ → List UInt8 → ρ × Bool) (app : Index → App.Callbacks ω)
    (k : KernelState ω) (other : CommandServiceRequest → Handler) :
    (∀ request, request.descriptor = appstopMethod →
      (consoleExecuteRequest app k other request).1 = (runtimeStop app k.machine k.services).1) ∧
    Delivers (managementBinding app k sendWire other) Host.rpcAppStop [] fun events result =>
      result.statusDomain = 0 ∧
        (AllTaken events → result.statusCode = (stopStatus app k.machine k.services).code) ∧
        (result.isSuccess = true →
          (runtimeStop app k.machine k.services).2 = true ∧
            stopApplicationControl result = .ok ⟨result.requestId, App.idSystemHome⟩) := by
  obtain ⟨hmachine, hstatus, hsucceeds, hbound⟩ := appstop_spec app k.machine k.services
  have hexecute : ∀ request, request.descriptor = appstopMethod →
      consoleExecuteRequest app k other request = appstop app k.machine k.services := by
    intro request hrequest
    unfold consoleExecuteRequest
    rw [hrequest]
    rfl
  refine ⟨fun request hrequest => by rw [hexecute request hrequest, hmachine], ?_⟩
  have hargs : appstopMethod.minArgs ≤ ([] : List Text).length ∧
      ([] : List Text).length ≤ appstopMethod.maxArgs := ⟨Nat.le_refl 0, Nat.le_refl 0⟩
  have hwhole : ∀ request, Requests appstopMethod (([] : List Text).map utf8GetBytes) request →
      whole ((managementBinding app k sendWire other).commandHandler request) =
        ((whole (appstop app k.machine k.services).2).1, stopStatus app k.machine k.services) := by
    intro request hrequest
    change whole (consoleExecuteRequest app k other request).2 = _
    rw [hexecute request hrequest.descriptor, ← hstatus]
  refine (delivers (by decide) (by decide) rfl (by decide) hargs
    (fun string hstring => absurd hstring List.not_mem_nil) hwhole hbound).mono ?_
  rintro events result ⟨hrpc, hrequest, hdomain, houtput⟩
  refine ⟨hdomain, fun hall => ?_, fun hok => ?_⟩
  · rcases houtput with ⟨hcode, -⟩ | ⟨-, hlost⟩
    · exact hcode
    · exact absurd hall hlost
  · have hzero := (isSuccess_iff hdomain).1 hok
    rcases houtput with ⟨hcode, hbytes⟩ | ⟨hcode, -⟩
    · have hstopped : stopStatus app k.machine k.services = .ok :=
        status_ok_of_code (hcode.symm.trans hzero)
      obtain ⟨hran, htext⟩ := hsucceeds hstopped
      refine ⟨hran, stopApplicationControl_report hrpc hrequest hok ?_⟩
      rw [RpcResult.outputText, hbytes]
      refine utf8GetString_report (fun l hl => ?_) htext
      rw [List.mem_singleton.1 hl]
      exact .named (telling_stop App.idSystemHome) (by decide)
    · rw [hcode] at hzero
      cases hzero

/-- At home, a stop leaves home active. -/
theorem application_stopped_home : ∃ result : RpcResult, result.isSuccess = true ∧
    stopApplicationControl result = .ok ⟨result.requestId, App.idSystemHome⟩ := by
  have hstop : stopStatus calmApp desktopKernel.machine desktopKernel.services = .ok := by decide
  obtain ⟨events, result, hall, hdomain, hstatus, hok⟩ :=
    (application_stopped openLink calmApp desktopKernel otherMethods).2.over (fun _ _ => rfl)
      (by decide) (d := appstopMethod) (by decide) rfl (by decide)
      ⟨Nat.le_refl 0, Nat.le_refl 0⟩ (fun string h => absurd h List.not_mem_nil) Rpc.idle
  have hcode := hstatus hall
  rw [hstop] at hcode
  have hsuccess : result.isSuccess = true := (isSuccess_iff hdomain).2 hcode
  exact ⟨result, hsuccess, (hok hsuccess).2⟩

end Management

end DeusOs
