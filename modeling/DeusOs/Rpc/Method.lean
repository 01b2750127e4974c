import DeusOs.Rpc.Answer

/-!
# The method an RPC_END names

A request of at least two payload bytes names its method in the first two,
and it is always ended by one RPC_END. Which method that frame names depends
on how far the request was decoded (`answeredMethod`): the decoder wants four
bytes before it reads any, so that a shorter one is ended under method zero
(`end_names_method_iff`).
-/

namespace DeusOs

namespace Rpc

open LittleEndian (read16 write16 write32)
open Nor (Mem)

variable {ω : Type} {binding : RpcBinding ω} {s x : RpcState ω} {rpcId requestId : ℕ}
  {frame : BinaryFrameView} {payload : Mem}

/-- The method that an RPC_END names, as the host reads it from the payload. -/
def endMethodOf (wire : List UInt8) : ℕ := read16 (wire.drop 10) 0

/-- Every RPC_END handed over from `s` to `s'` names the method. -/
def EndsName (rpcId : ℕ) (s s' : RpcState ω) : Prop :=
  ∀ wire taken, RpcEvent.handed wire taken ∈ s'.seen.drop s.seen.length →
    frameTypeOf wire = typeRpcEnd → endMethodOf wire = rpcId

/-- The method under which the frame is ended. -/
def answeredMethod (frame : BinaryFrameView) (payload : Mem) : ℕ :=
  if frame.flags &&& ~~~flagAllowDestructive ≠ 0 ∨ 4 ≤ frame.payloadLength then
    Nor.le16 (payload 0) (payload 1)
  else 0

theorem endMethodOf_wire (frameType flags : UInt8) (requestId : ℕ) {rpcId : ℕ}
    (hrpc : rpcId < 65536) (rest : List UInt8) :
    endMethodOf (Host.wire frameType flags requestId (write16 rpcId ++ rest)) = rpcId := by
  have hdrop : (Host.wire frameType flags requestId (write16 rpcId ++ rest)).drop 10 =
      write16 rpcId ++ (rest ++ write16 (Host.crc16Compute (Host.frameHeader frameType flags requestId
        (write16 rpcId ++ rest).length ++ (write16 rpcId ++ rest))).toNat) := by
    rw [← List.append_assoc]
    rfl
  rw [endMethodOf, hdrop]
  exact LittleEndian.read16_write16 hrpc [] _

/-- What is seen from `s` to `r` is frames of other types, and then one
RPC_END under this method. -/
def EndedUnder (rpcId requestId : ℕ) (s : RpcState ω) (r : RpcState ω × Bool) : Prop :=
  ∃ before rest, r.1.seen = s.seen ++ (before ++
      [.handed (Host.wire typeRpcEnd 0 requestId (write16 rpcId ++ rest)) r.2]) ∧
    ∀ wire taken, RpcEvent.handed wire taken ∈ before → frameTypeOf wire ≠ typeRpcEnd

/-- A request that is ended under a method names that one. -/
theorem endsName_iff {r : RpcState ω × Bool} (h : EndedUnder rpcId requestId s r)
    (hrpc : rpcId < 65536) {method : ℕ} : EndsName method s r.1 ↔ rpcId = method := by
  obtain ⟨before, rest, hseen, hbefore⟩ := h
  have hdrop : r.1.seen.drop s.seen.length = before ++
      [.handed (Host.wire typeRpcEnd 0 requestId (write16 rpcId ++ rest)) r.2] := by
    rw [hseen, List.drop_left]
  unfold EndsName
  rw [hdrop]
  constructor
  · intro hall
    have hend := hall _ _ (List.mem_append_right _ (List.mem_singleton.2 rfl))
      (frameTypeOf_wire _ _ _ _)
    rwa [endMethodOf_wire _ _ _ hrpc] at hend
  · rintro rfl wire taken hin htype
    rcases List.mem_append.1 hin with hin | hin
    · exact absurd htype (hbefore wire taken hin)
    · cases List.mem_singleton.1 hin
      exact endMethodOf_wire _ _ _ hrpc _

/-- A request that is rejected is ended under the method it is given. -/
theorem endedUnder_simpleEnd (hseen : x.seen = s.seen) (rpcId requestId : ℕ)
    (domain code : UInt8) :
    EndedUnder rpcId requestId s (sendSimpleEnd binding x rpcId requestId domain code) := by
  have hsend := @send_spec _ binding
    (write16 rpcId ++ write16 0 ++ write32 0 ++ [domain, code]) (Nat.le_of_ble_eq_true rfl) x
    typeRpcEnd requestId
  refine ⟨[], write16 0 ++ write32 0 ++ [domain, code], ?_,
    fun _ _ h => absurd h List.not_mem_nil⟩
  rw [List.nil_append, ← hseen]
  exact hsend.seen

/-- So is one whose handler ran. -/
theorem endedUnder_answerRequest (hseen : x.seen = s.seen) (requestId rpcId : ℕ)
    (request : CommandServiceRequest) :
    EndedUnder rpcId requestId s (answerRequest binding x requestId rpcId request) := by
  obtain ⟨chunks, lost, final, hspec⟩ := answerRequest_spec binding x requestId rpcId request
  refine ⟨[.invoked request] ++ dataEvents rpcId requestId 0 chunks ++ lost,
    write16 (chunks.length % 65536) ++ write32 (chunks.flatten.length % 4294967296) ++
      [statusDomainCommandService, final.code], ?_, ?_⟩
  · rw [hspec.seen, hseen, endWire]
    simp only [List.append_assoc]
  · intro wire taken hin
    have hdata : frameTypeOf wire = typeRpcData := by
      rw [List.mem_append, List.mem_append, List.mem_singleton] at hin
      rcases hin with (hin | hin) | hin
      · cases hin
      · exact type_of_mem_dataEvents hin
      · cases hspec.answered with
        | whole => exact absurd hin List.not_mem_nil
        | cut =>
          cases List.mem_singleton.1 hin
          rfl
    rw [hdata]
    decide

/-- What the decoder says of the method, for a request without foreign flags. -/
theorem rpcId_decodeRequest (storage : ℕ → Mem) (hpayload : frame.payload = some payload)
    (hflags : ¬ frame.flags &&& ~~~flagAllowDestructive ≠ 0) :
    (decodeRequest storage frame).rpcId = answeredMethod frame payload := by
  have hcond : (frame.flags &&& ~~~flagAllowDestructive ≠ 0 ∨ 4 ≤ frame.payloadLength) ↔
      ¬ frame.payloadLength < 4 := by
    rw [or_iff_right hflags, Nat.not_lt]
  unfold decodeRequest answeredMethod
  rw [hpayload]
  dsimp only
  by_cases hshort : frame.payloadLength < 4
  · rw [if_pos hshort, if_neg (fun h => hcond.1 h hshort)]
  · rw [if_neg hshort, if_pos (hcond.2 hshort)]
    split
    · rfl
    · split
      · rfl
      · split <;> rfl

/-- **A request of two bytes or more is ended under `answeredMethod`.** -/
theorem endedUnder_handleRpcRequest (s : RpcState ω) (hpayload : frame.payload = some payload)
    (hlen : 2 ≤ frame.payloadLength) :
    EndedUnder (answeredMethod frame payload) frame.requestId s
      (handleRpcRequest binding s frame) := by
  unfold handleRpcRequest
  by_cases hflags : frame.flags &&& ~~~flagAllowDestructive ≠ 0
  · rw [if_pos hflags, hpayload]
    dsimp only
    rw [if_pos hlen, answeredMethod, if_pos (Or.inl hflags)]
    exact endedUnder_simpleEnd rfl _ _ _ _
  rw [if_neg hflags]
  dsimp only
  rw [rpcId_decodeRequest s.argumentStorage hpayload hflags]
  rw [if_pos hlen]
  split
  · exact endedUnder_simpleEnd rfl _ _ _ _
  split
  · exact endedUnder_simpleEnd rfl _ _ _ _
  split
  · exact endedUnder_simpleEnd rfl _ _ _ _
  split
  · exact endedUnder_simpleEnd rfl _ _ _ _
  · exact endedUnder_answerRequest rfl _ _ _

theorem endedUnder_rpcHandleFrame (s : RpcState ω) (hversion : frame.version = 1)
    (hreserved : frame.reserved = 0) (hid : frame.requestId ≠ 0)
    (htype : frame.frameType = typeRpcRequest) (hpayload : frame.payload = some payload)
    (hlen : 2 ≤ frame.payloadLength) :
    EndedUnder (answeredMethod frame payload) frame.requestId s (rpcHandleFrame binding s frame) := by
  unfold rpcHandleFrame
  dsimp only
  have hv : ¬ frame.version ≠ frameProtocolVersion := not_not_intro hversion
  have hhello : ¬ frame.frameType = typeHelloRequest := by
    rw [htype]
    decide
  rw [if_neg hv, if_neg (not_not_intro hreserved), if_neg hid, if_neg hhello, if_pos htype]
  exact endedUnder_handleRpcRequest { s with txFailed := false } hpayload hlen

theorem answeredMethod_lt (frame : BinaryFrameView) (payload : Mem) :
    answeredMethod frame payload < 65536 := by
  unfold answeredMethod
  split
  · exact Nor.le16_lt _ _
  · exact Nat.succ_pos 65535

/-- **An RPC_END names the method of its request** exactly where the request
is rejected for its flags, has the four bytes that the decoder wants, or
names method zero. -/
theorem end_names_method_iff (binding : RpcBinding ω) (s : RpcState ω)
    (hversion : frame.version = 1) (hreserved : frame.reserved = 0) (hid : frame.requestId ≠ 0)
    (htype : frame.frameType = typeRpcRequest) (hpayload : frame.payload = some payload)
    (hlen : 2 ≤ frame.payloadLength) :
    EndsName (Nor.le16 (payload 0) (payload 1)) s (rpcHandleFrame binding s frame).1 ↔
      frame.flags &&& ~~~flagAllowDestructive ≠ 0 ∨ 4 ≤ frame.payloadLength ∨
        Nor.le16 (payload 0) (payload 1) = 0 := by
  rw [endsName_iff (endedUnder_rpcHandleFrame s hversion hreserved hid htype hpayload hlen)
    (answeredMethod_lt frame payload), answeredMethod, ← or_assoc]
  split
  · rename_i hread
    exact ⟨fun _ => Or.inl hread, fun _ => rfl⟩
  · rename_i hshort
    rw [or_iff_right hshort]
    exact eq_comm

/-! ## A request of two bytes -/

/-- A link that takes everything, and a handler that does nothing. -/
def silentBinding : RpcBinding Unit where
  sendWire _ _ := ((), true)
  commandHandler _ := .ret .ok
  capabilityFlags := 0

/-- The service before its first frame. -/
def idleRpc : RpcState Unit where
  argumentStorage _ _ := 0
  wire _ := 0
  link := ()
  activeRpcId := 0
  activeRequestId := 0
  sequence := 0
  totalOutputBytes := 0
  dataChunkLength := 0
  txFailed := false
  seen := []

/-- A request for method 1, with so many bytes of payload. -/
def pingOf (payloadLength : ℕ) : BinaryFrameView where
  version := 1
  frameType := typeRpcRequest
  flags := 0
  reserved := 0
  requestId := 1
  payloadLength
  payload := some fun i => if i = 0 then 1 else 0

/-- A whole request for method 1 is ended under it. -/
theorem ping_ends_named : EndsName 1 idleRpc (rpcHandleFrame silentBinding idleRpc (pingOf 4)).1 :=
  have hpayload : (pingOf 4).payload = some fun i => if i = 0 then 1 else 0 := rfl
  have hlen : 2 ≤ (pingOf 4).payloadLength := Nat.le_add_left 2 2
  (end_names_method_iff silentBinding idleRpc rfl rfl (Nat.succ_ne_zero 0) rfl hpayload hlen).2
    (Or.inr (Or.inl (Nat.le_refl 4)))

/-- One that stops after the method id is ended under method zero. -/
theorem short_request_ends_unnamed : ¬ ∀ (s : RpcState Unit) (frame : BinaryFrameView)
    (payload : Mem), frame.version = 1 → frame.reserved = 0 → frame.requestId ≠ 0 →
    frame.frameType = typeRpcRequest → frame.payload = some payload → 2 ≤ frame.payloadLength →
    EndsName (Nor.le16 (payload 0) (payload 1)) s (rpcHandleFrame silentBinding s frame).1 := by
  intro hall
  have hnamed := hall idleRpc (pingOf 2) (fun i => if i = 0 then 1 else 0) rfl rfl
    (Nat.succ_ne_zero 0) rfl rfl (Nat.le_refl 2)
  have hended : EndedUnder 0 1 idleRpc (rpcHandleFrame silentBinding idleRpc (pingOf 2)) :=
    endedUnder_rpcHandleFrame idleRpc rfl rfl (Nat.succ_ne_zero 0) rfl rfl (Nat.le_refl 2)
  exact Nat.zero_ne_one ((endsName_iff hended (Nat.succ_pos 65535)).1 hnamed)

end Rpc

end DeusOs
