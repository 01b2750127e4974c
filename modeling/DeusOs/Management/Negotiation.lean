import DeusOs.Host.Negotiation
import DeusOs.Management.Reports

/-!
# Management — negotiation

The host says hello and asks for the identity of the system. Whatever reads
the two answers come in, the client is ready with what the device is, or it is
told that the second answer was cut short (`negotiated`).
-/

namespace DeusOs

namespace Management

open App (Index)
open Async (Prog bind_returned)
open Host (BinaryFrame Channel Conn Dictionary HelloInfo Holds HostError RpcResult Splits SystemInfo
  SystemInfoParser.addAll SystemInfoParser.parse SystemInfoParser.readLines Text Transport decimal
  encodePayload parseHello reads splitLines text)
open Host.DeviceClient (ensureRpcSuccess negotiateAsync throwing tryNegotiate validateHello
  validateSystemInfo)
open Host.KeyValueTokens (parseLine require requireHex32)
open LittleEndian (write16 write32)
open Rpc (AllTaken BinaryFrameView CommandServiceRequest Handler RpcBinding RpcEvent RpcState
  frameProtocolVersion rpcHandleFrame takenBytes takenBytes_append typeHelloRequest typeHelloResponse)

variable {ω ρ σ ε : Type} {sourceTree : SourceTree}

/-! ## The identity -/

/-- **The fields of a line are added,** where no key is there twice. -/
theorem addAll_append {all fields : Dictionary} (h : ((all ++ fields).map Prod.fst).Nodup) :
    SystemInfoParser.addAll all fields = .ok (all ++ fields) := by
  induction fields generalizing all with
  | nil => rw [SystemInfoParser.addAll, List.append_nil]
  | cons p fields ih =>
    obtain ⟨key, value⟩ := p
    have hnew : key ∉ all.map Prod.fst := by
      rw [List.map_append, List.nodup_append] at h
      exact fun hin => h.2.2 key hin key List.mem_cons_self rfl
    have hsplit : all ++ (key, value) :: fields = all ++ [(key, value)] ++ fields := by
      rw [List.append_assoc, List.singleton_append]
    rw [hsplit] at h
    rw [SystemInfoParser.addAll, if_neg hnew, ih h, hsplit]

/-- **The lines are read** into one dictionary, where no two of them tell of the
same key. -/
theorem readLines_lines {all : Dictionary} {lines : List Dictionary}
    (h : ∀ fields ∈ lines, Telling fields) (hnodup : ((all ++ lines.flatten).map Prod.fst).Nodup) :
    SystemInfoParser.readLines all (lines.map line) = .ok (all ++ lines.flatten) := by
  induction lines generalizing all with
  | nil => rw [List.map_nil, SystemInfoParser.readLines, List.flatten_nil, List.append_nil]
  | cons fields lines ih =>
    rw [List.forall_mem_cons] at h
    rw [List.flatten_cons, ← List.append_assoc] at hnodup ⊢
    have hfields : ((all ++ fields).map Prod.fst).Nodup := by
      rw [List.map_append] at hnodup
      exact hnodup.of_append_left
    rw [List.map_cons, SystemInfoParser.readLines, parseLine_line h.1]
    simp only [bind, Except.bind, addAll_append hfields, ih h.2 hnodup]

/-- A character of a byte. -/
theorem toNat_toText (byte : UInt8) : (UInt16.ofNat byte.toNat).toNat = byte.toNat :=
  UInt16.toNat_ofNat_of_lt' (Nat.lt_trans byte.toNat_lt (by decide))

/-- A hexadecimal digit in lower case. -/
theorem hexDigit_of_bound {byte : UInt8}
    (h : (0x30 ≤ byte ∧ byte ≤ 0x39) ∨ (0x61 ≤ byte ∧ byte ≤ 0x66)) :
    (0x30 ≤ UInt16.ofNat byte.toNat ∧ UInt16.ofNat byte.toNat ≤ 0x39) ∨
      (0x61 ≤ UInt16.ofNat byte.toNat ∧ UInt16.ofNat byte.toNat ≤ 0x66) := by
  simp only [UInt8.le_iff_toNat_le, UInt16.le_iff_toNat_le, toNat_toText] at h ⊢
  exact h

theorem printed_sourceTree (sourceTree : SourceTree) : Printed (toText sourceTree.name) := by
  rcases sourceTree.bound with hname | ⟨hlen, hdigits⟩
  · rw [hname]
    decide
  · refine ⟨List.ne_nil_of_length_pos ?_, fun c hc => ?_⟩
    · rw [length_toText, hlen]
      decide
    · obtain ⟨byte, hbyte, rfl⟩ := List.mem_map.1 hc
      have h := hexDigit_of_bound (hdigits byte hbyte)
      simp only [printed, Bool.and_eq_true, decide_eq_true_eq, UInt16.le_iff_toNat_le] at h ⊢
      simp only [UInt16.reduceToNat] at h ⊢
      omega

/-- The host takes a source tree that the build can bind. -/
theorem sourceTree_valid (sourceTree : SourceTree) :
    ¬(toText sourceTree.name ≠ text "UNBOUND" ∧
      Host.SystemInfoParser.isLowerHexTree (toText sourceTree.name) = false) := by
  rintro ⟨hne, htree⟩
  rcases sourceTree.bound with hname | ⟨hlen, hdigits⟩
  · exact hne (by rw [hname]; rfl)
  · have hall : Host.SystemInfoParser.isLowerHexTree (toText sourceTree.name) = true := by
      rw [Host.SystemInfoParser.isLowerHexTree, Bool.and_eq_true, decide_eq_true_eq, length_toText,
        List.all_eq_true]
      refine ⟨hlen, fun c hc => ?_⟩
      obtain ⟨byte, hbyte, rfl⟩ := List.mem_map.1 hc
      simpa using hexDigit_of_bound (hdigits byte hbyte)
    rw [hall] at htree
    cases htree

theorem telling_identity (sourceTree : SourceTree) :
    ∀ fields ∈ identityFields sourceTree, Telling fields := by
  have hnone : ∀ value ∈ ([] : List Text), Printed value := fun _ h => absurd h List.not_mem_nil
  simp only [identityFields, List.forall_mem_cons]
  refine ⟨⟨List.cons_ne_nil _ _, ?_, ?_, ?_⟩, ⟨List.cons_ne_nil _ _, ?_, ?_, ?_⟩,
    ⟨List.cons_ne_nil _ _, ?_, ?_, ?_⟩, ⟨List.cons_ne_nil _ _, ?_, ?_, ?_⟩,
    fun _ h => absurd h List.not_mem_nil⟩
  · exact (by decide : ∀ key ∈ [text "SYSINFO_ABI", text "OS_ID", text "PLATFORM_ID", text "ARCH_ID"],
      Printed key ∧ 0x3D ∉ key)
  · simp only [List.map_cons, List.map_nil, List.forall_mem_cons]
    exact ⟨printed_hex32 _, by decide, by decide, by decide, hnone⟩
  · exact (by decide : [text "SYSINFO_ABI", text "OS_ID", text "PLATFORM_ID", text "ARCH_ID"].Nodup)
  · exact (by decide : ∀ key ∈ [text "SOURCE_TREE"], Printed key ∧ 0x3D ∉ key)
  · simp only [List.map_cons, List.map_nil, List.forall_mem_cons]
    exact ⟨printed_sourceTree sourceTree, hnone⟩
  · exact (by decide : [text "SOURCE_TREE"].Nodup)
  · exact (by decide : ∀ key ∈ [text "PROTOCOL_VERSION", text "SERVICE_VERSION",
      text "APP_RUNTIME_ABI"], Printed key ∧ 0x3D ∉ key)
  · simp only [List.map_cons, List.map_nil, List.forall_mem_cons]
    exact ⟨printed_hex32 _, printed_hex32 _, printed_hex32 _, hnone⟩
  · exact (by decide : [text "PROTOCOL_VERSION", text "SERVICE_VERSION",
      text "APP_RUNTIME_ABI"].Nodup)
  · exact (by decide : ∀ key ∈ [text "CAPABILITIES", text "UNIT_ID_KIND"], Printed key ∧ 0x3D ∉ key)
  · simp only [List.map_cons, List.map_nil, List.forall_mem_cons]
    exact ⟨printed_hex32 _, printed_hex32 _, hnone⟩
  · exact (by decide : [text "CAPABILITIES", text "UNIT_ID_KIND"].Nodup)

theorem sendable_identity (sourceTree : SourceTree) :
    ∀ l ∈ (identityFields sourceTree).map line, Sendable l := by
  intro l hl
  obtain ⟨fields, hfields, rfl⟩ := List.mem_map.1 hl
  exact (telling_identity sourceTree fields hfields).sendable

/-- What the host shows of the system. -/
def systemInfo (sourceTree : SourceTree) : SystemInfo where
  abiVersion := systemIdentityAbiVersion
  osId := text "DEUS_OS"
  platformId := text "STM32F103C8"
  archId := text "ARMV7M"
  sourceTree := toText sourceTree.name
  protocolVersion := Rpc.frameProtocolVersion
  serviceVersion := Rpc.commandServiceFoundationVersion
  applicationRuntimeAbi := applicationRuntimeAbiVersion
  capabilities := systemIdentityCapabilities
  unitIdKind := systemIdentityUnitIdNone

/-- **The identity is parsed** as it was written, for every source tree. -/
theorem parse_identity (sourceTree : SourceTree) :
    SystemInfoParser.parse (report ((identityFields sourceTree).map line)) =
      .ok (systemInfo sourceTree) := by
  have hread : SystemInfoParser.readLines [] ((identityFields sourceTree).map line) =
      .ok (identityFields sourceTree).flatten := by
    refine readLines_lines (telling_identity sourceTree) ?_
    exact (by decide : [text "SYSINFO_ABI", text "OS_ID", text "PLATFORM_ID", text "ARCH_ID",
      text "SOURCE_TREE", text "PROTOCOL_VERSION", text "SERVICE_VERSION", text "APP_RUNTIME_ABI",
      text "CAPABILITIES", text "UNIT_ID_KIND"].Nodup)
  obtain ⟨all, hall⟩ : ∃ all, all = (identityFields sourceTree).flatten := ⟨_, rfl⟩
  have hhex : ∀ (key : String) (value : UInt32), all.lookup (text key) = some (hex32 value) →
      requireHex32 all key .invalidSystemInfo = .ok value := fun _ _ h => requireHex32_hex32 h
  have htext : ∀ (key : String) (value : Text), all.lookup (text key) = some value →
      require all key .invalidSystemInfo = .ok value := fun _ _ h => require_of_lookup h
  rw [SystemInfoParser.parse, splitLines_report (sendable_identity sourceTree)]
  rw [if_neg (not_not.2 (by rfl : ((identityFields sourceTree).map line).length = 4)), hread, ← hall]
  dsimp only [bind, Except.bind, pure, Except.pure]
  rw [htext "SOURCE_TREE" (toText sourceTree.name) (by rw [hall]; rfl)]
  dsimp only
  rw [if_neg (sourceTree_valid sourceTree),
    hhex "PROTOCOL_VERSION" Rpc.frameProtocolVersion.toUInt32 (by rw [hall]; rfl)]
  dsimp only
  rw [hhex "SERVICE_VERSION" Rpc.commandServiceFoundationVersion.toUInt32 (by rw [hall]; rfl)]
  dsimp only
  rw [if_neg (by decide), hhex "SYSINFO_ABI" systemIdentityAbiVersion (by rw [hall]; rfl)]
  dsimp only
  rw [htext "OS_ID" (text "DEUS_OS") (by rw [hall]; rfl)]
  dsimp only
  rw [htext "PLATFORM_ID" (text "STM32F103C8") (by rw [hall]; rfl)]
  dsimp only
  rw [htext "ARCH_ID" (text "ARMV7M") (by rw [hall]; rfl)]
  dsimp only
  rw [hhex "APP_RUNTIME_ABI" applicationRuntimeAbiVersion (by rw [hall]; rfl)]
  dsimp only
  rw [hhex "CAPABILITIES" systemIdentityCapabilities (by rw [hall]; rfl)]
  dsimp only
  rw [hhex "UNIT_ID_KIND" systemIdentityUnitIdNone (by rw [hall]; rfl)]
  rfl

/-- The identity fits into what the host collects. -/
theorem length_identity (sourceTree : SourceTree) :
    (whole (systemIdentityWrite sourceTree)).1.length ≤ 65536 := by
  have hname : (toText sourceTree.name).length ≤ 40 := by
    rw [length_toText]
    rcases sourceTree.bound with hname | ⟨hlen, -⟩
    · rw [hname]
      decide
    · exact Nat.le_of_eq hlen
  have hhex : ∀ value, (hex32 value).length ≤ 40 := by
    intro value
    rw [length_hex32]
    decide
  have hline : ∀ fields ∈ identityFields sourceTree, (line fields).length ≤ 1000 := by
    have hvalues : ∀ fields ∈ identityFields sourceTree, ∀ value ∈ fields.map Prod.snd,
        value.length ≤ 40 := by
      have hnone : ∀ value ∈ ([] : List Text), value.length ≤ 40 := fun _ h =>
        absurd h List.not_mem_nil
      simp only [identityFields, List.forall_mem_cons, List.map_cons, List.map_nil]
      exact ⟨⟨hhex _, by decide, by decide, by decide, hnone⟩, ⟨hname, hnone⟩,
        ⟨hhex _, hhex _, hhex _, hnone⟩, ⟨hhex _, hhex _, hnone⟩, fun _ h => absurd h List.not_mem_nil⟩
    have hkeys : ∀ fields ∈ identityFields sourceTree,
        ((fields.map Prod.fst).map List.length).sum + (40 + 2) * fields.length ≤ 1000 := by
      simp only [identityFields, List.forall_mem_cons]
      exact ⟨Nat.le_of_ble_eq_true rfl, Nat.le_of_ble_eq_true rfl, Nat.le_of_ble_eq_true rfl,
        Nat.le_of_ble_eq_true rfl, fun _ h => absurd h List.not_mem_nil⟩
    exact fun fields h => Nat.le_trans (length_line_le (hvalues fields h)) (hkeys fields h)
  have hlines := length_report ((identityFields sourceTree).map line)
  rw [← (whole_systemIdentityWrite sourceTree).1, length_toText] at hlines
  rw [hlines]
  simp only [identityFields, List.forall_mem_cons] at hline
  simp only [identityFields, List.map_cons, List.map_nil, List.sum_cons, List.sum_nil]
  omega

/-! ## The hello -/

/-- The payload of `binary_rpc_send_hello`. -/
def helloPayload (capabilityFlags : ℕ) : List UInt8 :=
  [frameProtocolVersion, Rpc.commandServiceFoundationVersion, UInt8.ofNat Rpc.commandServiceMaxArgs,
    0] ++ write16 Rpc.commandServiceLineCapacity ++ write16 Rpc.rpcRequestPayloadMax ++
      write16 Rpc.rpcDataChunkMax ++ write16 Rpc.commandRegistry.length ++ write32 capabilityFlags

/-- What the client keeps of a hello. -/
def helloInfo (capabilityFlags : UInt32) : HelloInfo where
  protocolVersion := frameProtocolVersion
  serviceVersion := Rpc.commandServiceFoundationVersion
  maxArgs := UInt8.ofNat Rpc.commandServiceMaxArgs
  lineCapacity := Rpc.commandServiceLineCapacity
  requestPayloadMax := Rpc.rpcRequestPayloadMax
  dataChunkMax := Rpc.rpcDataChunkMax
  registryCount := Rpc.commandRegistry.length
  capabilityFlags

/-- A hello that the device received as the host encoded it. -/
structure ReceivedHello (frame : BinaryFrameView) (requestId : ℕ) : Prop where
  version : frame.version = 1
  reserved : frame.reserved = 0
  frameType : frame.frameType = typeHelloRequest
  flags : frame.flags = 0
  requestId : frame.requestId = requestId
  payloadLength : frame.payloadLength = 0

theorem rpcHandleFrame_sendHello {frame : BinaryFrameView} {requestId : ℕ} (binding : RpcBinding ρ)
    (s : RpcState ρ) (h : ReceivedHello frame requestId) (hid : requestId ≠ 0) :
    rpcHandleFrame binding s frame = Rpc.sendHello binding { s with txFailed := false } requestId := by
  obtain ⟨x, hx⟩ : ∃ x : RpcState ρ, x = { s with txFailed := false } := ⟨_, rfl⟩
  have hnonzero : ¬frame.requestId = 0 := by
    rw [h.requestId]
    exact hid
  have hversion : frame.version = frameProtocolVersion := h.version
  rw [rpcHandleFrame, ← hx, if_neg (not_not.2 hversion), if_neg (not_not.2 h.reserved),
    if_neg hnonzero, if_pos h.frameType, if_neg (not_not.2 h.flags),
    if_neg (not_not.2 h.payloadLength), h.requestId]

/-- **A hello is answered** with one frame, which the link takes or refuses. -/
theorem rpcHandleFrame_hello {frame : BinaryFrameView} {requestId : ℕ} (binding : RpcBinding ρ)
    (s : RpcState ρ) (h : ReceivedHello frame requestId) (hid : requestId ≠ 0) :
    (rpcHandleFrame binding s frame).1.seen = s.seen ++
      [.handed (Host.wire typeHelloResponse 0 requestId (helloPayload binding.capabilityFlags))
        (rpcHandleFrame binding s frame).2] := by
  obtain ⟨x, hx⟩ : ∃ x : RpcState ρ, x = { s with txFailed := false } := ⟨_, rfl⟩
  have hsent : Rpc.HandedOver x (Rpc.sendHello binding x requestId).1
      (Rpc.sendHello binding x requestId).2
      (Host.wire typeHelloResponse 0 requestId (helloPayload binding.capabilityFlags)) :=
    Rpc.send_spec (helloPayload binding.capabilityFlags) (Nat.le_of_ble_eq_true rfl) x
      typeHelloResponse requestId
  have hseen : x.seen = s.seen := by rw [hx]
  rw [rpcHandleFrame_sendHello binding s h hid, ← hx, ← hseen]
  exact hsent.seen

/-- Over a link that takes every frame, the hello is taken. -/
theorem rpcHandleFrame_hello_open {binding : RpcBinding ρ}
    (htake : ∀ link wire, (binding.sendWire link wire).2 = true) {frame : BinaryFrameView}
    {requestId : ℕ} (s : RpcState ρ) (h : ReceivedHello frame requestId) (hid : requestId ≠ 0) :
    (rpcHandleFrame binding s frame).2 = true := by
  have hsaid := rpcHandleFrame_hello binding s h hid
  by_contra hlost
  rw [Bool.not_eq_true] at hlost
  obtain ⟨events, hseen, hall⟩ : Rpc.Taken s (rpcHandleFrame binding s frame).1 := by
    rw [rpcHandleFrame_sendHello binding s h hid]
    exact Rpc.Taken.trans (.of_seen rfl) (Rpc.taken_send htake _ _ _ _)
  rw [hlost] at hsaid
  refine hall (Host.wire typeHelloResponse 0 requestId (helloPayload binding.capabilityFlags)) ?_
  rw [List.append_cancel_left (hseen.symm.trans hsaid)]
  exact List.mem_cons_self

/-- **The client takes the hello** of the management binding. -/
theorem hello_accepted :
    parseHello (Host.frameOf Host.FrameType.helloResponse 0 1 (helloPayload 0x7F)) =
        .ok (helloInfo 0x7F) ∧
      validateHello (helloInfo 0x7F) = .ok () := by
  have hpayload : (Host.frameOf Host.FrameType.helloResponse 0 1 (helloPayload 0x7F)).payload =
      [1, 3, 4, 0, 32, 0, 132, 0, 48, 0, 36, 0, 0x7F, 0, 0, 0] := by decide
  constructor
  · rw [parseHello, hpayload, if_neg (by decide), if_neg (by decide), if_neg (by decide)]
    decide
  · decide

theorem identity_accepted (sourceTree : SourceTree) :
    validateSystemInfo (helloInfo 0x7F) (systemInfo sourceTree) = .ok () := by
  have hunbound : validateSystemInfo (helloInfo 0x7F) (systemInfo ⟨chars "UNBOUND", Or.inl rfl⟩) =
      .ok () := by decide
  exact hunbound

/-! ## The negotiation -/

/-- **Both answers are on the way,** the hello first. -/
theorem holds_answers {c : Channel} {parts chunks : List (List UInt8)} {hello : List UInt8}
    {rpcId count total : ℕ} {final : Rpc.CommandServiceStatus} (hdecoder : c.decoder = .reset)
    (hqueue : c.queuedFrames = []) (hlen : hello.length ≤ Host.maxPayloadBytes)
    (hchunks : ∀ chunk ∈ chunks, Rpc.IsChunk chunk)
    (hparts : Splits (Host.wire Host.FrameType.helloResponse 0 1 hello ++
      (takenBytes (Rpc.dataEvents rpcId 2 0 chunks) ++ Rpc.endWire rpcId 2 count total final)) parts) :
    Holds c parts (Host.frameOf Host.FrameType.helloResponse 0 1 hello ::
      (Host.dataFrames rpcId 2 0 chunks ++ [Host.frameOf Host.FrameType.rpcEnd 0 2
        (Host.endPayload rpcId count total Rpc.statusDomainCommandService final.code)])) := by
  have hstart : Host.Flowing c.decoder [] := by
    rw [hdecoder]
    exact ⟨Rpc.decoderOrdered_reset, rfl, rfl, fun hne => absurd rfl hne⟩
  have hnone : Host.onLink c [] = [] := rfl
  obtain ⟨hflowing, hframes⟩ := hstart.send Host.FrameType.helloResponse 0 (by decide : 1 < 65536)
    hlen
  obtain ⟨hflowing', hframes'⟩ := Rpc.onLink_dataEvents rpcId 0 hflowing
    (by decide : 2 < 65536) hchunks
  obtain ⟨hflowing'', hframes''⟩ := hflowing'.send Host.FrameType.rpcEnd 0 (by decide : 2 < 65536)
    (Nat.le_of_ble_eq_true rfl : (Host.endPayload rpcId count total Rpc.statusDomainCommandService
      final.code).length ≤ Host.maxPayloadBytes)
  have hbytes : parts.flatten = [] ++ Host.wire Host.FrameType.helloResponse 0 1 hello ++
      takenBytes (Rpc.dataEvents rpcId 2 0 chunks) ++ Rpc.endWire rpcId 2 count total final := by
    rw [hparts.flatten, List.nil_append, List.append_assoc]
  refine ⟨hparts.nonempty, ?_, ?_⟩
  · rw [hbytes]
    exact hflowing''
  · rw [hqueue, List.nil_append, hbytes]
    refine hframes''.trans ?_
    rw [hframes', hframes, hnone]
    rfl

/-- The host says hello and asks for the identity, the device handles both
frames, and the hello and the frame that ends the identity are taken: whatever
reads the answers come in, the host's negotiation ends like this. -/
def Negotiates (binding : RpcBinding ρ)
    (P : List RpcEvent → Async.Completion (Conn Unit) (List UInt8) HostError
      (HelloInfo × SystemInfo) → Prop) : Prop :=
  ∀ (s s' : RpcState ρ) (hello sysinfo : BinaryFrameView) (c : Channel) (payload : List UInt8)
    (events : List RpcEvent) (parts : List (List UInt8)) (fuel : ℕ),
    c.abandonedRequests = [] → c.freshSessionRequired = false → ReceivedHello hello 1 →
    rpcHandleFrame binding s hello = (s', true) → encodePayload Host.rpcSysInfo [] = .ok payload →
    Received sysinfo 2 payload → (rpcHandleFrame binding s' sysinfo).1.seen = s.seen ++ events →
    (rpcHandleFrame binding s' sysinfo).2 = true → Splits (takenBytes events) parts → 65536 < fuel →
    P events (negotiateAsync reads fuel ⟨c, ()⟩ parts)

/-- **Every device is accepted by its host.** Whatever source tree the build
bound and whatever reads the answers come in, where the hello and the frame
that ends the identity were taken the negotiation returns the device's own
hello and identity; and where it does not, another frame was lost and the host
is told of an error. -/
theorem negotiated (sendWire : ρ → List UInt8 → ρ × Bool) (app : Index → App.Callbacks ω)
    (k : KernelState ω) (other : CommandServiceRequest → Handler) :
    Negotiates (managementBinding app k sendWire other) fun events end_ =>
      (∃ s rest, end_ = .returned (helloInfo 0x7F, systemInfo k.sourceTree) s rest) ∨
        ((∃ s rest, end_ = .threw (.deus .rpcStatus) s rest) ∧ ¬AllTaken events) := by
  intro s s' hello sysinfo c payload events parts fuel habandoned hfresh hhello hfirst hpayload
    hreceived hseen hend hparts hfuel
  obtain ⟨binding, hbinding⟩ : ∃ binding, binding = managementBinding app k sendWire other := ⟨_, rfl⟩
  have hflags : binding.capabilityFlags = 0x7F := by rw [hbinding]; rfl
  have hhandler : ∀ request, Requests ⟨"sysinfo", 0x0024, .safe, 0, 0⟩ [] request →
      whole (binding.commandHandler request) =
        ((whole (systemIdentityWrite k.sourceTree)).1, .ok) := by
    intro request hrequest
    have hsame : binding.commandHandler request = systemIdentityWrite k.sourceTree := by
      rw [hbinding]
      unfold managementBinding consoleExecuteRequest
      dsimp only
      rw [hrequest.descriptor]
      rfl
    rw [hsame]
    exact Prod.ext rfl (whole_systemIdentityWrite k.sourceTree).2
  rw [← hbinding] at hfirst hseen hend
  -- the device
  have hpayload' : payload = Host.writePayload Host.rpcSysInfo [] :=
    (Except.ok.inj (hpayload.symm.trans (Rpc.encodePayload_ok Host.rpcSysInfo (Nat.zero_le 4)
      fun string h => absurd h List.not_mem_nil)))
  obtain ⟨x, request, hx, hrequest, hframe⟩ := rpcHandleFrame_received binding s'
    (by rw [← hpayload']; exact hreceived) (by decide) (by decide)
    (fun argument h => absurd h List.not_mem_nil) rfl rfl (by decide)
    ⟨Nat.le_refl 0, Nat.le_refl 0⟩
  have hsaid := rpcHandleFrame_hello binding s hhello (by decide)
  rw [hfirst, hflags] at hsaid
  rw [hframe] at hseen hend
  obtain ⟨later, hlater⟩ := seen_answerRequest binding x 2 Host.rpcSysInfo request
  obtain rfl : events = .handed (Host.wire typeHelloResponse 0 1 (helloPayload 0x7F)) true :: later := by
    rw [← hlater, hx, hsaid, List.append_assoc] at hseen
    exact (List.append_cancel_left hseen).symm
  obtain ⟨chunks, final, hchunks, hbytes, hanswered⟩ := answered_bytes hlater.symm hend
  rw [hhandler request hrequest] at hanswered
  -- the host
  have hprefix : chunks.flatten <+: (whole (systemIdentityWrite k.sourceTree)).1 := by
    rcases hanswered with ⟨-, hwritten⟩ | ⟨-, hpre, -⟩
    · rw [hwritten]
    · exact hpre
  have hlength : chunks.flatten.length ≤ 65536 :=
    Nat.le_trans hprefix.length_le (length_identity k.sourceTree)
  have hmod : chunks.flatten.length % 4294967296 = chunks.flatten.length := by omega
  have hall : takenBytes (.handed (Host.wire typeHelloResponse 0 1 (helloPayload 0x7F)) true :: later) =
      Host.wire Host.FrameType.helloResponse 0 1 (helloPayload 0x7F) ++ takenBytes later := rfl
  rw [hall, hbytes, hmod] at hparts
  have hholds : Holds c.resetProtocolState parts _ :=
    holds_answers rfl rfl (Nat.le_of_ble_eq_true rfl) hchunks hparts
  obtain ⟨left, rest, hrun⟩ := Host.tryNegotiate_spec habandoned hfresh rfl hello_accepted.1
    hello_accepted.2 hholds (fun chunk hin => (hchunks chunk hin).2) rfl rfl hlength
    (Nat.lt_of_le_of_lt (Nat.le_trans (length_le_flatten hchunks) hlength) hfuel)
  obtain ⟨result, hresult⟩ : ∃ result : RpcResult, result = ⟨Host.rpcSysInfo, 2,
    chunks.length % 65536, chunks.flatten.length, Rpc.statusDomainCommandService, final.code,
    chunks.flatten⟩ := ⟨_, rfl⟩
  rw [← hresult] at hrun
  have hdomain : result.statusDomain = 0 := by rw [hresult]; rfl
  rcases hanswered with ⟨hfinal, hwritten⟩ | ⟨hfinal, -, hlost⟩
  · left
    have hok : result.isSuccess = true := by
      rw [isSuccess_iff hdomain, hresult, hfinal]
      rfl
    have houtput : result.outputText = report ((identityFields k.sourceTree).map line) := by
      rw [RpcResult.outputText, hresult, hwritten]
      exact utf8GetString_report (sendable_identity k.sourceTree)
        (whole_systemIdentityWrite k.sourceTree).1
    have hgood : Host.DeviceClient.throwing (σ := Unit) (ε := List UInt8)
        (ensureRpcSuccess result "sysinfo") = Prog.lift (.ok ()) := by
      rw [ensureRpcSuccess_ok hok]
      rfl
    have hparsed : Host.DeviceClient.throwing (σ := Unit) (ε := List UInt8)
        (SystemInfoParser.parse result.outputText) = Prog.lift (.ok (systemInfo k.sourceTree)) := by
      rw [houtput, parse_identity]
      rfl
    have hvalid : Host.DeviceClient.throwing (σ := Unit) (ε := List UInt8)
        (validateSystemInfo (helloInfo 0x7F) (systemInfo k.sourceTree)) = Prog.lift (.ok ()) := by
      rw [identity_accepted]
      rfl
    rw [hgood, Async.lift_bind, hparsed, Async.lift_bind, hvalid, Async.lift_bind] at hrun
    exact ⟨left, rest, Async.handle_returned hrun⟩
  · right
    have hbad : Host.DeviceClient.throwing (σ := Unit) (ε := List UInt8)
        (ensureRpcSuccess result "sysinfo") = Prog.lift (.error (.deus .rpcStatus)) := by
      have hno : result.isSuccess = false := by
        rw [RpcResult.isSuccess, hresult, hfinal]
        rfl
      rw [ensureRpcSuccess, if_pos hno]
      rfl
    rw [hbad] at hrun
    refine ⟨⟨left, rest, (Async.handle_threw hrun).trans rfl⟩, fun hall => hlost fun wire hin => ?_⟩
    exact hall wire (List.mem_cons_of_mem _ hin)

/-- A board that has booted is accepted over a link that takes every frame. -/
theorem negotiated_boot : ∃ s rest fuel parts, negotiateAsync reads fuel ⟨Channel.new, ()⟩ parts =
    .returned (helloInfo 0x7F, systemInfo bootKernel.sourceTree) s rest := by
  obtain ⟨binding, hbinding⟩ : ∃ binding : RpcBinding Unit,
      binding = managementBinding calmApp bootKernel openLink otherMethods := ⟨_, rfl⟩
  have htake : ∀ link wire, (binding.sendWire link wire).2 = true := by
    rw [hbinding]
    exact fun _ _ => rfl
  have hhello : ReceivedHello ⟨1, typeHelloRequest, 0, 0, 1, 0, none⟩ 1 :=
    ⟨rfl, rfl, rfl, rfl, rfl, rfl⟩
  have hsaid := rpcHandleFrame_hello binding Rpc.idle hhello Nat.one_ne_zero
  have hfirst := rpcHandleFrame_hello_open htake Rpc.idle hhello Nat.one_ne_zero
  have hpayload : encodePayload Host.rpcSysInfo [] = .ok (Host.writePayload Host.rpcSysInfo []) :=
    Rpc.encodePayload_ok Host.rpcSysInfo (Nat.zero_le 4) fun string h => absurd h List.not_mem_nil
  have hreceived := received_requestFrame 2 (Host.writePayload Host.rpcSysInfo [])
  obtain ⟨s', hs'⟩ : ∃ s', s' = (rpcHandleFrame binding Rpc.idle
    ⟨1, typeHelloRequest, 0, 0, 1, 0, none⟩).1 := ⟨_, rfl⟩
  obtain ⟨x, request, hx, -, hframe⟩ := rpcHandleFrame_received binding s' hreceived (by decide)
    (by decide) (fun argument h => absurd h List.not_mem_nil) rfl rfl (by decide)
    ⟨Nat.le_refl 0, Nat.le_refl 0⟩
  obtain ⟨later, hseen, hall, hend⟩ := answerRequest_open htake x 2 Host.rpcSysInfo request
  rw [← hframe] at hseen hend
  rw [hfirst] at hsaid
  rw [hx, hs', hsaid, List.append_assoc] at hseen
  obtain ⟨events, hevents⟩ : ∃ events : List RpcEvent, events = [.handed (Host.wire
    typeHelloResponse 0 1 (helloPayload binding.capabilityFlags)) true] ++ later := ⟨_, rfl⟩
  have hboth : AllTaken events := by
    rw [hevents]
    intro wire hin
    rcases List.mem_append.1 hin with hin | hin
    · cases List.mem_singleton.1 hin
    · exact hall wire hin
  rw [← hevents] at hseen
  have hsent : rpcHandleFrame binding Rpc.idle ⟨1, typeHelloRequest, 0, 0, 1, 0, none⟩ = (s', true) := by
    rw [hs', ← hfirst]
  rw [← hs'] at hseen
  rw [hbinding] at hsent hseen hend
  have hrun := negotiated openLink calmApp bootKernel otherMethods Rpc.idle s'
    ⟨1, typeHelloRequest, 0, 0, 1, 0, none⟩ _ Channel.new _ events _ 65537 rfl rfl hhello hsent
    hpayload hreceived hseen hend (Host.splits_bytes (takenBytes events)) (by decide)
  rcases hrun with ⟨s, rest, hreturn⟩ | ⟨-, hlost⟩
  · exact ⟨s, rest, 65537, _, hreturn⟩
  · exact absurd hboth hlost

end Management

end DeusOs
