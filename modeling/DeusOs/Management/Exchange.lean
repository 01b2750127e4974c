import DeusOs.Management.Writing
import DeusOs.Rpc.Console
import DeusOs.Rpc.Reassembly

/-!
# Management — an exchange

A request is answered with a prefix of the text its handler writes where all
is taken, and with success only where that prefix is the whole text
(`answerRequest_whole`). The host that made the request gets this from the
link, whatever reads it comes in (`delivers`): no report that was cut short is
ever taken for a whole one.
-/

namespace DeusOs

namespace Management

open Host (Channel RpcResult Splits Text encodePayload reads utf8GetBytes)
open Rpc

variable {ω : Type} {binding : RpcBinding ω} {s : RpcState ω} {rpcId requestId : ℕ}
  {written : List UInt8} {chunks : List (List UInt8)} {base : List RpcEvent} {handler : Handler}
  {request : CommandServiceRequest}

/-! ## The device -/

/-- Once a frame was not taken, nothing is written any more. -/
theorem runHandler_txFailed (handler : Handler) (h : s.txFailed = true) (writeFailed : Bool) :
    (runHandler binding handler s writeFailed).1 = s := by
  induction handler generalizing writeFailed with
  | ret status => rfl
  | write byte next ih =>
    have hrefuse : outputWriteByte binding s byte = (s, false) := by
      rw [outputWriteByte, h]
      rfl
    rw [runHandler, hrefuse]
    exact ih false true

/-- What was streamed is a prefix of a longer text too, once it is cut. -/
theorem streaming_txFailed (h : Streaming base rpcId requestId written chunks s)
    (hfail : s.txFailed = true) (more : List UInt8) :
    Streaming base rpcId requestId (written ++ more) chunks s := by
  refine ⟨h.activeRpc, h.activeRequest, h.sequence, h.total, h.isChunk, ?_⟩
  cases h.progress with
  | flows hok =>
    rw [hok] at hfail
    cases hfail
  | failed chunk hfail hchunk hseen hpre =>
    exact .failed chunk hfail hchunk hseen (hpre.trans (List.prefix_append _ _))

/-- **A handler runs:** its whole text is streamed, as far as it is taken, and
its status is the answer's if all of it is. -/
theorem runHandler_whole (binding : RpcBinding ω) (handler : Handler)
    (h : Streaming base rpcId requestId written chunks s) (hok : s.txFailed = false) :
    ∃ chunks', Streaming base rpcId requestId (written ++ (whole handler).1) chunks'
        (runHandler binding handler s false).1 ∧
      ((runHandler binding handler s false).2.1 = true →
        (runHandler binding handler s false).1.txFailed = true) ∧
      ((runHandler binding handler s false).1.txFailed = false →
        (runHandler binding handler s false).2.2 = (whole handler).2) := by
  induction handler generalizing s written chunks with
  | ret status =>
    refine ⟨chunks, ?_, fun h => absurd h Bool.false_ne_true, fun _ => rfl⟩
    rw [whole_ret, List.append_nil]
    exact h
  | write byte next ih =>
    obtain ⟨chunks₁, hstream, htaken⟩ := outputWriteByte_spec binding h byte
    have hsplit : written ++ (whole (.write byte next)).1 =
        written ++ [byte] ++ (whole (next true)).1 := by
      rw [List.append_assoc]
      rfl
    rw [runHandler, hsplit]
    rcases hr : outputWriteByte binding s byte with ⟨x, - | -⟩
    · rw [hr] at hstream htaken
      have hx : x.txFailed = true := by simpa using htaken.symm
      dsimp only at hstream ⊢
      rw [runHandler_txFailed (next false) hx true]
      refine ⟨chunks₁, streaming_txFailed hstream hx _, fun _ => hx, fun hfail => ?_⟩
      rw [hx] at hfail
      cases hfail
    · rw [hr] at hstream htaken
      have hx : x.txFailed = false := by simpa using htaken.symm
      exact ih true hstream hx

/-- **A request is answered** with the whole text of its handler, or with a
prefix of it and an internal error. -/
theorem answerRequest_whole (binding : RpcBinding ω) (s : RpcState ω) (requestId rpcId : ℕ)
    (request : CommandServiceRequest) :
    ∃ chunks lost final, Answers s.seen (answerRequest binding s requestId rpcId request).1.seen
      request rpcId requestId (whole (binding.commandHandler request)).1
      (whole (binding.commandHandler request)).2 chunks lost final
      (answerRequest binding s requestId rpcId request).2 := by
  obtain ⟨chunks, hstream, hfailed, hstatus⟩ := runHandler_whole binding
    (binding.commandHandler request) (streaming_start s requestId rpcId request) rfl
  rw [List.nil_append] at hstream
  exact answers_of_run hstream hfailed hstatus

/-- What was seen stays. -/
theorem seen_answerRequest (binding : RpcBinding ω) (s : RpcState ω) (requestId rpcId : ℕ)
    (request : CommandServiceRequest) :
    s.seen <+: (answerRequest binding s requestId rpcId request).1.seen := by
  obtain ⟨chunks, lost, final, h⟩ := answerRequest_whole binding s requestId rpcId request
  rw [h.seen]
  simp only [List.append_assoc]
  exact List.prefix_append _ _

/-! ## The host -/

/-- **What the link takes of an answer** whose end is taken: chunks of the text
and the frame that ends them. -/
theorem answered_bytes {events : List RpcEvent}
    (hseen : (answerRequest binding s requestId rpcId request).1.seen = s.seen ++ events)
    (hend : (answerRequest binding s requestId rpcId request).2 = true) :
    ∃ chunks final, (∀ chunk ∈ chunks, IsChunk chunk) ∧
      takenBytes events = takenBytes (dataEvents rpcId requestId 0 chunks) ++
        endWire rpcId requestId (chunks.length % 65536) (chunks.flatten.length % 4294967296) final ∧
      ((final = (whole (binding.commandHandler request)).2 ∧
          chunks.flatten = (whole (binding.commandHandler request)).1) ∨
        (final = .internalError ∧ chunks.flatten <+: (whole (binding.commandHandler request)).1 ∧
          ¬AllTaken events)) := by
  obtain ⟨chunks, lost, final, h⟩ := answerRequest_whole binding s requestId rpcId request
  have hevents : events = [.invoked request] ++ dataEvents rpcId requestId 0 chunks ++ lost ++
      [.handed (endWire rpcId requestId (chunks.length % 65536)
        (chunks.flatten.length % 4294967296) final) true] := by
    have hsame := hseen.symm.trans h.seen
    rw [hend] at hsame
    simp only [List.append_assoc] at hsame ⊢
    exact List.append_cancel_left hsame
  have hlost : takenBytes lost = [] := by
    cases h.answered with
    | whole hwritten => rfl
    | cut hchunk hpre => rfl
  refine ⟨chunks, final, h.isChunk, ?_, ?_⟩
  · rw [hevents, takenBytes_append, takenBytes_append, takenBytes_append, hlost, List.append_nil]
    exact congrArg _ (List.append_nil _)
  · cases h.answered with
    | whole hwritten => exact Or.inl ⟨rfl, hwritten⟩
    | @cut chunk hchunk hpre =>
      refine Or.inr ⟨rfl, (List.prefix_append _ _).trans hpre, fun hall =>
        hall (dataWire rpcId requestId (chunks.length % 65536) chunk) ?_⟩
      rw [hevents]
      exact List.mem_append_left _ (List.mem_append_right _ List.mem_cons_self)

/-- There are no more chunks than bytes. -/
theorem length_le_flatten (h : ∀ chunk ∈ chunks, IsChunk chunk) :
    chunks.length ≤ chunks.flatten.length := by
  have hsum := List.length_le_sum_of_one_le (chunks.map List.length) fun n hn => by
    obtain ⟨chunk, hchunk, rfl⟩ := List.mem_map.1 hn
    exact (h chunk hchunk).1
  rwa [List.length_map, ← List.length_flatten] at hsum

/-- **The host collects** what the device answered, once the frame that ends
the answer was taken: with success the whole text, and else a part of it. -/
theorem collected {c c' : Channel} {arguments : List (List UInt16)} (flags : UInt8)
    {payload : List UInt8} {events : List RpcEvent} {parts : List (List UInt8)} {fuel : ℕ}
    (hseen : (answerRequest binding s requestId rpcId request).1.seen = s.seen ++ events)
    (hend : (answerRequest binding s requestId rpcId request).2 = true)
    (hbound : (whole (binding.commandHandler request)).1.length ≤ 65536)
    (hrpc : rpcId < 65536) (hnext : Host.IsId c.requestIds.next)
    (hid : c.nextRequestId = (c', .ok requestId)) (hdecoder : c.decoder = .reset)
    (hqueue : c.queuedFrames = []) (hpayload : encodePayload rpcId arguments = .ok payload)
    (hparts : Splits (takenBytes events) parts) (hfuel : 65536 < fuel) :
    ∃ result left rest, Host.rpcCoreAsync reads fuel rpcId arguments flags ⟨c, ()⟩ parts =
        .returned result left rest ∧
      result.rpcId = rpcId ∧ result.requestId = requestId ∧ result.statusDomain = 0 ∧
      ((result.statusCode = (whole (binding.commandHandler request)).2.code ∧
          result.output = (whole (binding.commandHandler request)).1) ∨
        (result.statusCode = CommandServiceStatus.internalError.code ∧
          result.output <+: (whole (binding.commandHandler request)).1 ∧ ¬AllTaken events)) := by
  obtain ⟨chunks, final, hchunks, hbytes, hanswered⟩ := answered_bytes hseen hend
  have hprefix : chunks.flatten <+: (whole (binding.commandHandler request)).1 := by
    rcases hanswered with ⟨-, hwritten⟩ | ⟨-, hpre, -⟩
    · rw [hwritten]
    · exact hpre
  have hlength : chunks.flatten.length ≤ 65536 := Nat.le_trans hprefix.length_le hbound
  have hmod : chunks.flatten.length % 4294967296 = chunks.flatten.length := by omega
  rw [hbytes, hmod] at hparts
  have hcollect : ∃ left rest, Host.rpcCoreAsync reads fuel rpcId arguments flags ⟨c, ()⟩ parts =
      .returned ⟨rpcId, requestId, chunks.length % 65536, chunks.flatten.length,
        statusDomainCommandService, final.code, chunks.flatten⟩ left rest :=
    rpcCoreAsync_answer hrpc hnext hid hdecoder hqueue hpayload hchunks hlength hparts
      (Nat.lt_of_le_of_lt (Nat.le_trans (length_le_flatten hchunks) hlength) hfuel)
  obtain ⟨left, rest, hreturn⟩ := hcollect
  refine ⟨_, left, rest, hreturn, rfl, rfl, rfl, ?_⟩
  rcases hanswered with ⟨hfinal, hwritten⟩ | ⟨hfinal, hpre, hlost⟩
  · exact Or.inl ⟨by rw [hfinal], hwritten⟩
  · exact Or.inr ⟨by rw [hfinal], hpre, hlost⟩

/-! ## The whole exchange -/

/-- A request that the device received as the host encoded it. -/
structure Received (frame : BinaryFrameView) (requestId : ℕ) (payload : List UInt8) : Prop where
  version : frame.version = 1
  reserved : frame.reserved = 0
  frameType : frame.frameType = typeRpcRequest
  flags : frame.flags = 0
  requestId : frame.requestId = requestId
  bytes : frame.bytes = payload

/-- The host calls a method, the device handles the frame, and the frame that
ends its answer is taken: whatever reads the answer comes in, the host's call
returns, with a result like this. -/
def Delivers (binding : RpcBinding ω) (rpcId : ℕ) (strings : List Text)
    (P : List RpcEvent → RpcResult → Prop) : Prop :=
  ∀ (s : RpcState ω) (frame : BinaryFrameView) (c c' : Channel) (requestId : ℕ)
    (payload : List UInt8) (events : List RpcEvent) (parts : List (List UInt8)) (fuel : ℕ),
    Host.IsId c.requestIds.next → c.nextRequestId = (c', .ok requestId) → c.decoder = .reset →
    c.queuedFrames = [] → encodePayload rpcId strings = .ok payload →
    Received frame requestId payload →
    (rpcHandleFrame binding s frame).1.seen = s.seen ++ events →
    (rpcHandleFrame binding s frame).2 = true → Splits (takenBytes events) parts → 65536 < fuel →
    ∃ result left rest,
      Host.rpcCoreAsync reads fuel rpcId strings 0 ⟨c, ()⟩ parts = .returned result left rest ∧
        P events result

theorem Delivers.mono {strings : List Text} {P Q : List RpcEvent → RpcResult → Prop}
    (h : Delivers binding rpcId strings P) (hPQ : ∀ events result, P events result → Q events result) :
    Delivers binding rpcId strings Q := by
  intro s frame c c' requestId payload events parts fuel hnext hid hdecoder hqueue hpayload hreceived
    hseen hend hparts hfuel
  obtain ⟨result, left, rest, hreturn, hP⟩ := h s frame c c' requestId payload events parts fuel
    hnext hid hdecoder hqueue hpayload hreceived hseen hend hparts hfuel
  exact ⟨result, left, rest, hreturn, hPQ events result hP⟩

/-- A request for a method, with its arguments as strings. -/
structure Requests (d : CommandServiceDescriptor) (arguments : List (List UInt8))
    (request : CommandServiceRequest) : Prop where
  descriptor : request.descriptor = d
  argc : request.argc = arguments.length
  argv : ∀ i, (hi : i < arguments.length) → (request.argv i).map cString = some arguments[i]

/-- **A frame is answered** by the handler of the method it asks for, with the
arguments that the host sent. -/
theorem rpcHandleFrame_received {d : CommandServiceDescriptor} {arguments : List (List UInt8)}
    {frame : BinaryFrameView} (binding : RpcBinding ω) (s : RpcState ω)
    (hreceived : Received frame requestId (Host.writePayload rpcId arguments))
    (hid : requestId ≠ 0) (hrpc : rpcId < 65536) (hplain : ∀ argument ∈ arguments, Plain argument)
    (hfound : findRpcId rpcId = some d) (hsafe : d.commandClass = .safe) (hmax : d.maxArgs ≤ 4)
    (hargs : d.minArgs ≤ arguments.length ∧ arguments.length ≤ d.maxArgs) :
    ∃ (x : RpcState ω) (request : CommandServiceRequest), x.seen = s.seen ∧
      Requests d arguments request ∧
      rpcHandleFrame binding s frame = answerRequest binding x requestId rpcId request := by
  obtain ⟨x, hx⟩ : ∃ x : RpcState ω, x = { s with txFailed := false } := ⟨_, rfl⟩
  have h := understood_of_bytes hrpc (Nat.le_trans hargs.2 hmax) hplain hreceived.bytes
    x.argumentStorage
  have hadmitted : Admitted x.argumentStorage frame d := by
    refine ⟨h.result, by rw [h.rpcId]; exact hfound, by rw [h.argc]; exact hargs, fun hclass => ?_⟩
    rw [hsafe] at hclass
    cases hclass
  have hflags : frame.flags &&& ~~~flagAllowDestructive = 0 := by
    rw [hreceived.flags]
    decide
  have hframe : rpcHandleFrame binding s frame = handleRpcRequest binding x frame := by
    have hnonzero : ¬frame.requestId = 0 := by
      rw [hreceived.requestId]
      exact hid
    have hhello : ¬frame.frameType = typeHelloRequest := by
      rw [hreceived.frameType]
      decide
    have hversion : frame.version = frameProtocolVersion := hreceived.version
    rw [rpcHandleFrame, ← hx, if_neg (not_not.2 hversion), if_neg (not_not.2 hreceived.reserved), if_neg hnonzero,
      if_neg hhello, if_pos hreceived.frameType]
  refine ⟨{ x with argumentStorage := (decodeRequest x.argumentStorage frame).decoding.storage },
    decodedRequest d (decodeRequest x.argumentStorage frame), ?_, ?_,
    hframe.trans ((handleRpcRequest_of_admitted hflags hadmitted).trans ?_)⟩
  · rw [hx]
  · refine ⟨rfl, h.argc, fun i hi => ?_⟩
    rw [decodedRequest, Option.map_map]
    exact h.argv i hi
  · rw [hreceived.requestId, h.rpcId]

/-- **A report is delivered:** the host's call returns the whole text with
its status, or a part of it and an internal error. -/
theorem delivers {d : CommandServiceDescriptor} {strings : List Text} {status : CommandServiceStatus}
    (hrpc : rpcId < 65536) (hfound : findRpcId rpcId = some d) (hsafe : d.commandClass = .safe)
    (hmax : d.maxArgs ≤ 4) (hargs : d.minArgs ≤ strings.length ∧ strings.length ≤ d.maxArgs)
    (hplain : ∀ string ∈ strings, Plain (utf8GetBytes string))
    (hwhole : ∀ request, Requests d (strings.map utf8GetBytes) request →
      whole (binding.commandHandler request) = (written, status))
    (hbound : written.length ≤ 65536) :
    Delivers binding rpcId strings fun events result =>
      result.rpcId = rpcId ∧ result.requestId ≠ 0 ∧ result.statusDomain = 0 ∧
        ((result.statusCode = status.code ∧ result.output = written) ∨
          (result.statusCode = CommandServiceStatus.internalError.code ∧ ¬AllTaken events)) := by
  intro s frame c c' requestId payload events parts fuel hnext hid hdecoder hqueue hpayload hreceived
    hseen hend hparts hfuel
  have hout := (Host.nextRequestId_spec hnext).2
  rw [hid] at hout
  have hnonzero : requestId ≠ 0 := Nat.ne_of_gt hout.1.1
  have hplain' : ∀ argument ∈ strings.map utf8GetBytes, Plain argument := by
    intro argument hargument
    obtain ⟨string, hstring, rfl⟩ := List.mem_map.1 hargument
    exact hplain string hstring
  have hlength : (strings.map utf8GetBytes).length = strings.length := List.length_map _
  have hpayload' := encodePayload_ok rpcId (Nat.le_trans hargs.2 hmax) hplain
  rw [hpayload, Except.ok.injEq] at hpayload'
  obtain ⟨x, request, hx, hrequest, hframe⟩ := rpcHandleFrame_received binding s
    (by rw [← hpayload']; exact hreceived) hnonzero hrpc hplain' hfound hsafe hmax
    (by rw [hlength]; exact hargs)
  rw [hframe] at hseen hend
  rw [← hx] at hseen
  obtain ⟨result, left, rest, hreturn, hresult, hsame, hdomain, houtput⟩ := collected
    0 hseen hend (by rw [hwhole request hrequest]; exact hbound) hrpc hnext hid hdecoder
    hqueue hpayload hparts hfuel
  rw [hwhole request hrequest] at houtput
  refine ⟨result, left, rest, hreturn, hresult, by rw [hsame]; exact hnonzero, hdomain, ?_⟩
  rcases houtput with houtput | ⟨hcode, -, hlost⟩
  · exact Or.inl houtput
  · exact Or.inr ⟨hcode, hlost⟩

/-- **Over a link that takes every frame,** the frame that ends the answer is taken. -/
theorem answerRequest_open (htake : ∀ link wire, (binding.sendWire link wire).2 = true)
    (s : RpcState ω) (requestId rpcId : ℕ) (request : CommandServiceRequest) :
    ∃ events, (answerRequest binding s requestId rpcId request).1.seen = s.seen ++ events ∧
      AllTaken events ∧ (answerRequest binding s requestId rpcId request).2 = true := by
  obtain ⟨events, hseen, hall⟩ := taken_answerRequest htake s requestId rpcId request
  refine ⟨events, hseen, hall, ?_⟩
  obtain ⟨chunks, lost, final, hanswer⟩ := answerRequest_whole binding s requestId rpcId request
  by_contra hlast
  rw [Bool.not_eq_true] at hlast
  have hsame := hseen.symm.trans hanswer.seen
  rw [hlast] at hsame
  simp only [List.append_assoc] at hsame
  refine hall (endWire rpcId requestId (chunks.length % 65536)
    (chunks.flatten.length % 4294967296) final) ?_
  rw [List.append_cancel_left hsame]
  simp

/-- A frame that carries these bytes as a request. -/
def requestFrame (requestId : ℕ) (payload : List UInt8) : BinaryFrameView :=
  ⟨1, typeRpcRequest, 0, 0, requestId, payload.length, some fun i => payload.getD i 0⟩

/-- The frame of a request is one that the device may receive. -/
theorem received_requestFrame (requestId : ℕ) (payload : List UInt8) :
    Received (requestFrame requestId payload) requestId payload := by
  refine ⟨rfl, rfl, rfl, rfl, rfl, ?_⟩
  obtain ⟨f, hf⟩ : ∃ f : Nor.Mem, f = fun i => payload.getD i 0 := ⟨_, rfl⟩
  change Nor.Mem.bytes (fun i => payload.getD i 0) 0 payload.length = payload
  rw [← hf]
  refine List.ext_getElem (Nor.Mem.length_bytes _ _ _) fun i hi hi' => ?_
  rw [Nor.Mem.getElem_bytes, Nat.zero_add, hf]
  exact List.getD_eq_getElem _ _ hi'

/-- **Over a link that takes every frame,** the call does return, whatever the
binding does. -/
theorem Delivers.over {d : CommandServiceDescriptor} {strings : List Text}
    {P : List RpcEvent → RpcResult → Prop} (h : Delivers binding rpcId strings P)
    (htake : ∀ link wire, (binding.sendWire link wire).2 = true) (hrpc : rpcId < 65536)
    (hfound : findRpcId rpcId = some d) (hsafe : d.commandClass = .safe) (hmax : d.maxArgs ≤ 4)
    (hargs : d.minArgs ≤ strings.length ∧ strings.length ≤ d.maxArgs)
    (hplain : ∀ string ∈ strings, Plain (utf8GetBytes string)) (s : RpcState ω) :
    ∃ events result, AllTaken events ∧ P events result := by
  have hpayload := encodePayload_ok rpcId (Nat.le_trans hargs.2 hmax) hplain
  have hreceived := received_requestFrame 1 (Host.writePayload rpcId (strings.map utf8GetBytes))
  have hplain' : ∀ argument ∈ strings.map utf8GetBytes, Plain argument := by
    intro argument hargument
    obtain ⟨string, hstring, rfl⟩ := List.mem_map.1 hargument
    exact hplain string hstring
  obtain ⟨x, request, hx, -, hframe⟩ := rpcHandleFrame_received binding s hreceived
    Nat.one_ne_zero hrpc hplain' hfound hsafe hmax (by rw [List.length_map]; exact hargs)
  obtain ⟨events, hseen, hall, hend⟩ := answerRequest_open htake x 1 rpcId request
  rw [← hframe] at hseen hend
  rw [hx] at hseen
  obtain ⟨c', hid⟩ : ∃ c', Channel.new.nextRequestId = (c', .ok 1) := ⟨_, rfl⟩
  obtain ⟨result, -, -, -, hP⟩ := h s _ Channel.new c' 1 _ events _ 65537 ⟨by decide, by decide⟩ hid rfl rfl
    hpayload hreceived hseen hend (Host.splits_bytes (takenBytes events)) (by decide)
  exact ⟨events, result, hall, hP⟩

end Management

end DeusOs
