import Mathlib.Algebra.BigOperators.Group.List.Basic
import DeusOs.Host.RpcClient
import DeusOs.Rpc.Answer
import DeusOs.Rpc.Request

/-!
# The answer, put together again

What the device hands to its link while it answers a request, and what the
host makes of it: the host's result is what the handler wrote, and its
status (`response_stream`). The device counts bytes in 32 bits, so the
frame that ends an answer of 4 GiB says that it is empty (`end_wraps`).
-/

namespace DeusOs

namespace Rpc

open Host (BinaryFrame Channel Holds Splits reads encodePayload dataFrames dataPayload endPayload)
open LittleEndian (write16 write32)

variable {ω : Type} {binding : RpcBinding ω} {s s' s'' : RpcState ω} {rpcId requestId : ℕ}
  {link : List UInt8} {final : CommandServiceStatus} {chunks : List (List UInt8)} {c : Channel}

/-- The bytes that a link has taken. -/
def takenBytes : List RpcEvent → List UInt8
  | [] => []
  | .handed wire true :: events => wire ++ takenBytes events
  | _ :: events => takenBytes events

/-- The bytes that were taken of two parts stand one behind the other. -/
theorem takenBytes_append (xs ys : List RpcEvent) :
    takenBytes (xs ++ ys) = takenBytes xs ++ takenBytes ys := by
  induction xs with
  | nil => rfl
  | cons event xs ih =>
    rw [List.cons_append]
    rcases event with ⟨wire, - | -⟩ | ⟨request⟩
    · exact ih
    · rw [takenBytes, takenBytes, ih, List.append_assoc]
    · exact ih

/-- Of these events, the link took every frame. -/
def AllTaken (events : List RpcEvent) : Prop := ∀ wire, RpcEvent.handed wire false ∉ events

/-! ## A link that takes every frame -/

/-- What was handed over since was taken. -/
def Taken (s s' : RpcState ω) : Prop := ∃ events, s'.seen = s.seen ++ events ∧ AllTaken events

/-- Nothing is taken where nothing is seen. -/
theorem Taken.of_seen (h : s'.seen = s.seen) : Taken s s' :=
  ⟨[], by rw [h, List.append_nil], fun _ hin => absurd hin List.not_mem_nil⟩

theorem Taken.trans (h : Taken s s') (h' : Taken s' s'') : Taken s s'' := by
  obtain ⟨events, hseen, hall⟩ := h
  obtain ⟨events', hseen', hall'⟩ := h'
  refine ⟨events ++ events', by rw [hseen', hseen, List.append_assoc], fun wire hin => ?_⟩
  rcases List.mem_append.1 hin with hin | hin
  · exact hall wire hin
  · exact hall' wire hin

section

variable (htake : ∀ link wire, (binding.sendWire link wire).2 = true)

include htake

/-- A frame that is sent is taken whole, or lost whole. -/
theorem taken_send (s : RpcState ω) (frameType : UInt8) (requestId n : ℕ) :
    Taken s (sendWorkspaceFrame binding s frameType requestId n).1 := by
  unfold sendWorkspaceFrame
  split
  · exact .of_seen rfl
  · dsimp only
    rw [htake, if_pos rfl]
    refine ⟨_, rfl, fun wire hin => ?_⟩
    cases List.mem_singleton.1 hin

theorem taken_flushData (s : RpcState ω) : Taken s (flushData binding s).1 := by
  unfold flushData
  split
  · exact .of_seen rfl
  · obtain ⟨x, hx⟩ : ∃ x, x = putPayload s 0 (write16 s.activeRpcId ++ write16 s.sequence) :=
      ⟨_, rfl⟩
    have hstart : Taken s x := .of_seen (by rw [hx]; rfl)
    have hsent := hstart.trans
      (taken_send htake x typeRpcData x.activeRequestId (4 + x.dataChunkLength))
    dsimp only
    rw [← hx]
    rcases hr : sendWorkspaceFrame binding x typeRpcData x.activeRequestId
      (4 + x.dataChunkLength) with ⟨y, - | -⟩
    · rw [hr] at hsent
      exact hsent
    · rw [hr] at hsent
      exact hsent.trans (.of_seen rfl)

theorem taken_outputWriteByte (s : RpcState ω) (byte : UInt8) :
    Taken s (outputWriteByte binding s byte).1 := by
  unfold outputWriteByte
  split
  · exact .of_seen rfl
  · have hroom : Taken s (if rpcDataChunkMax ≤ s.dataChunkLength then flushData binding s
        else (s, true)).1 := by
      split
      · exact taken_flushData htake s
      · exact .of_seen rfl
    rcases hr : (if rpcDataChunkMax ≤ s.dataChunkLength then flushData binding s
      else (s, true)) with ⟨x, - | -⟩
    · rw [hr] at hroom
      exact hroom
    · rw [hr] at hroom
      dsimp only at hroom ⊢
      split
      · exact hroom.trans (Taken.trans (.of_seen rfl) (taken_flushData htake _))
      · exact hroom.trans (.of_seen rfl)

theorem taken_runHandler (handler : Handler) (s : RpcState ω) (writeFailed : Bool) :
    Taken s (runHandler binding handler s writeFailed).1 := by
  induction handler generalizing s writeFailed with
  | ret status => exact .of_seen rfl
  | write byte next ih =>
    have hone := taken_outputWriteByte htake s byte
    rw [runHandler]
    rcases hr : outputWriteByte binding s byte with ⟨x, - | -⟩
    · rw [hr] at hone
      exact hone.trans (ih false x true)
    · rw [hr] at hone
      exact hone.trans (ih true x writeFailed)

/-- **Over a link that takes every frame,** nothing of an answer is lost. -/
theorem taken_answerRequest (s : RpcState ω) (requestId rpcId : ℕ)
    (request : CommandServiceRequest) : Taken s (answerRequest binding s requestId rpcId request).1 := by
  have hinvoked : Taken s (handlerStart s requestId rpcId request) := by
    refine ⟨[.invoked request], rfl, fun wire hin => ?_⟩
    cases List.mem_singleton.1 hin
  have hran := hinvoked.trans (taken_runHandler htake (binding.commandHandler request)
    (handlerStart s requestId rpcId request) false)
  have hend : ∀ (x : RpcState ω) (status : CommandServiceStatus), Taken x (sendEnd binding x rpcId
      requestId x.sequence x.totalOutputBytes statusDomainCommandService status.code).1 :=
    fun x status => Taken.trans (.of_seen rfl) (taken_send htake _ _ _ _)
  rw [answerRequest_eq]
  rcases hr : runHandler binding (binding.commandHandler request)
    (handlerStart s requestId rpcId request) false with ⟨x, writeFailed, status⟩
  rw [hr] at hran
  dsimp only at hran ⊢
  split
  · exact hran.trans (hend x _)
  · have hflush := taken_flushData htake x
    rcases hy : flushData binding x with ⟨y, - | -⟩
    · rw [hy] at hflush
      exact (hran.trans hflush).trans (hend y _)
    · rw [hy] at hflush
      exact (hran.trans hflush).trans (hend y _)

end

/-! ## The answer on the link -/

/-- **The frames of the chunks** come after what is on the link. -/
theorem onLink_dataEvents (rpcId first : ℕ) (hlink : Host.Flowing c.decoder link)
    (hid : requestId < 65536) (hchunks : ∀ chunk ∈ chunks, IsChunk chunk) :
    Host.Flowing c.decoder (link ++ takenBytes (dataEvents rpcId requestId first chunks)) ∧
      Host.onLink c (link ++ takenBytes (dataEvents rpcId requestId first chunks)) =
        Host.onLink c link ++ dataFrames rpcId requestId first chunks := by
  induction chunks generalizing link first with
  | nil =>
    rw [dataEvents, takenBytes, List.append_nil, dataFrames, List.append_nil]
    exact ⟨hlink, rfl⟩
  | cons chunk chunks ih =>
    rw [List.forall_mem_cons] at hchunks
    have hmax := hchunks.1.2
    have hlen : (dataPayload rpcId (first % 65536) chunk).length ≤ Host.maxPayloadBytes := by
      have hlength : (dataPayload rpcId (first % 65536) chunk).length = 4 + chunk.length := by
        simp only [dataPayload, List.length_append, LittleEndian.length_write16]
      rw [hlength]
      exact Nat.le_trans (by omega : 4 + chunk.length ≤ 52) (by decide)
    obtain ⟨hflowing, hframes⟩ := hlink.send Host.FrameType.rpcData 0 hid hlen
    obtain ⟨hflowing', hframes'⟩ := ih (first + 1) hflowing hchunks.2
    have hbytes : link ++ takenBytes (dataEvents rpcId requestId first (chunk :: chunks)) =
        link ++ Host.wire Host.FrameType.rpcData 0 requestId
          (dataPayload rpcId (first % 65536) chunk) ++
            takenBytes (dataEvents rpcId requestId (first + 1) chunks) := by
      rw [List.append_assoc]
      rfl
    rw [hbytes]
    refine ⟨hflowing', ?_⟩
    rw [hframes', hframes, List.append_assoc]
    rfl

/-- The frames of a whole answer. -/
theorem onLink_answer (hid : requestId < 65536) (hdecoder : c.decoder = .reset)
    (hchunks : ∀ chunk ∈ chunks, IsChunk chunk) (rpcId count total : ℕ)
    (final : CommandServiceStatus) :
    Host.Flowing c.decoder (takenBytes (dataEvents rpcId requestId 0 chunks) ++
        endWire rpcId requestId count total final) ∧
      Host.onLink c (takenBytes (dataEvents rpcId requestId 0 chunks) ++
          endWire rpcId requestId count total final) =
        dataFrames rpcId requestId 0 chunks ++ [Host.frameOf Host.FrameType.rpcEnd 0 requestId
          (endPayload rpcId count total statusDomainCommandService final.code)] := by
  have hstart : Host.Flowing c.decoder [] := by
    rw [hdecoder]
    exact ⟨decoderOrdered_reset, rfl, rfl, fun hne => absurd rfl hne⟩
  obtain ⟨hflowing, hframes⟩ := onLink_dataEvents rpcId 0 hstart hid hchunks
  rw [List.nil_append] at hflowing hframes
  have hlen : (endPayload rpcId count total statusDomainCommandService final.code).length ≤
      Host.maxPayloadBytes := Nat.le_of_ble_eq_true rfl
  obtain ⟨hflowing', hframes'⟩ := hflowing.send Host.FrameType.rpcEnd 0 hid hlen
  refine ⟨hflowing', hframes'.trans ?_⟩
  rw [hframes]
  rfl

/-- **The host puts a whole answer together again,** in whatever pieces it reads
it. The answer may be as long as the host's bound allows. -/
theorem rpcCoreAsync_answer {c' : Channel} {arguments : List (List UInt16)} {flags : UInt8}
    {payload : List UInt8} {parts : List (List UInt8)} {fuel : ℕ} (hrpc : rpcId < 65536)
    (hnext : Host.IsId c.requestIds.next) (hid : c.nextRequestId = (c', .ok requestId))
    (hdecoder : c.decoder = .reset) (hqueue : c.queuedFrames = [])
    (hpayload : encodePayload rpcId arguments = .ok payload)
    (hchunks : ∀ chunk ∈ chunks, IsChunk chunk) (hbound : chunks.flatten.length ≤ 65536)
    (hparts : Splits (takenBytes (dataEvents rpcId requestId 0 chunks) ++
      endWire rpcId requestId (chunks.length % 65536) chunks.flatten.length final) parts)
    (hfuel : chunks.length < fuel) :
    ∃ s rest, Host.rpcCoreAsync reads fuel rpcId arguments flags ⟨c, ()⟩ parts =
      .returned ⟨rpcId, requestId, chunks.length % 65536, chunks.flatten.length,
        statusDomainCommandService, final.code, chunks.flatten⟩ s rest := by
  obtain ⟨hsame, hout⟩ := Host.nextRequestId_spec hnext
  rw [hid] at hsame hout
  have hdecoder' : c'.decoder = .reset := hsame.decoder.trans hdecoder
  have hqueue' : c'.queuedFrames = [] := hsame.queue.trans hqueue
  obtain ⟨hflowing, hframes⟩ := onLink_answer hout.1.2 hdecoder' hchunks rpcId
    (chunks.length % 65536) chunks.flatten.length final
  have hholds : Holds c' parts (dataFrames rpcId requestId 0 chunks ++
      [Host.frameOf Host.FrameType.rpcEnd 0 requestId (endPayload rpcId (chunks.length % 65536)
        chunks.flatten.length statusDomainCommandService final.code)]) := by
    refine ⟨hparts.nonempty, ?_, ?_⟩
    · rw [hparts.flatten]
      exact hflowing
    · rw [hqueue', List.nil_append, hparts.flatten]
      exact hframes
  have hlen : payload.length ≤ Host.maxPayloadBytes := length_encodePayload hpayload
  exact Host.rpcCoreAsync_spec hrpc hid hout.2.1 hpayload hlen hholds
    (fun chunk hin => (hchunks chunk hin).2) rfl rfl hbound hfuel

/-- **The answer to a request.** Its output goes out in numbered frames of 1
to 48 bytes, up to the first that is not taken, and one frame ends it with
the count of both. Where all are taken and the output is at most 64 KiB, the
host that made the request puts it together again. -/
theorem response_stream (binding : RpcBinding ω) (s : RpcState ω) (requestId rpcId : ℕ)
    (request : CommandServiceRequest) :
    (∃ chunks lost final taken, Answers s.seen (answerRequest binding s requestId rpcId request).1.seen
      request rpcId requestId (writtenBy binding s requestId rpcId request)
      (statusOf binding s requestId rpcId request) chunks lost final taken) ∧
    ∀ (events : List RpcEvent) (c c' : Channel) (arguments : List (List UInt16)) (flags : UInt8)
      (payload : List UInt8) (parts : List (List UInt8)) (fuel : ℕ),
      (answerRequest binding s requestId rpcId request).1.seen = s.seen ++ events →
      AllTaken events → (writtenBy binding s requestId rpcId request).length ≤ 65536 →
      rpcId < 65536 → Host.IsId c.requestIds.next → c.nextRequestId = (c', .ok requestId) →
      c.decoder = .reset → c.queuedFrames = [] → encodePayload rpcId arguments = .ok payload →
      Splits (takenBytes events) parts → 65536 < fuel →
      ∃ count left rest, Host.rpcCoreAsync reads fuel rpcId arguments flags ⟨c, ()⟩ parts =
        .returned ⟨rpcId, requestId, count, (writtenBy binding s requestId rpcId request).length,
          statusDomainCommandService, (statusOf binding s requestId rpcId request).code,
          writtenBy binding s requestId rpcId request⟩ left rest := by
  obtain ⟨chunks, lost, final, h⟩ := answerRequest_spec binding s requestId rpcId request
  refine ⟨⟨chunks, lost, final, _, h⟩, ?_⟩
  intro events c c' arguments flags payload parts fuel hseen htaken hbound hrpc hnext hid hdecoder
    hqueue hpayload hparts hfuel
  have hevents : events = [.invoked request] ++ dataEvents rpcId requestId 0 chunks ++ lost ++
      [.handed (endWire rpcId requestId (chunks.length % 65536)
        (chunks.flatten.length % 4294967296) final)
        (answerRequest binding s requestId rpcId request).2] := by
    have hsame := hseen.symm.trans h.seen
    simp only [List.append_assoc] at hsame ⊢
    exact List.append_cancel_left hsame
  obtain ⟨hlost, hfinal, hwritten⟩ : lost = [] ∧
      final = statusOf binding s requestId rpcId request ∧
      chunks.flatten = writtenBy binding s requestId rpcId request := by
    cases h.answered with
    | whole hwritten => exact ⟨rfl, rfl, hwritten⟩
    | @cut chunk =>
      refine absurd ?_ (htaken (dataWire rpcId requestId (chunks.length % 65536) chunk))
      rw [hevents]
      exact List.mem_append_left _ (List.mem_append_right _ List.mem_cons_self)
  rw [← hwritten] at hbound ⊢
  rw [← hfinal]
  have hend : (answerRequest binding s requestId rpcId request).2 = true := by
    by_contra hlast
    rw [Bool.not_eq_true] at hlast
    refine htaken (endWire rpcId requestId (chunks.length % 65536)
      (chunks.flatten.length % 4294967296) final) ?_
    rw [hevents, hlast]
    exact List.mem_append_right _ List.mem_cons_self
  have hmod : chunks.flatten.length % 4294967296 = chunks.flatten.length := by omega
  have hbytes : takenBytes events = takenBytes (dataEvents rpcId requestId 0 chunks) ++
      endWire rpcId requestId (chunks.length % 65536) chunks.flatten.length final := by
    rw [hevents, hlost, hend, hmod, List.append_nil, takenBytes_append, takenBytes_append]
    exact congrArg _ (List.append_nil _)
  rw [hbytes] at hparts
  have hcount : chunks.length ≤ chunks.flatten.length := by
    have hsum := List.length_le_sum_of_one_le (chunks.map List.length) fun n hn => by
      obtain ⟨chunk, hchunk, rfl⟩ := List.mem_map.1 hn
      exact (h.isChunk chunk hchunk).1
    rwa [List.length_map, ← List.length_flatten] at hsum
  obtain ⟨left, rest, hreturn⟩ := rpcCoreAsync_answer hrpc hnext hid hdecoder hqueue hpayload
    h.isChunk hbound hparts (Nat.lt_of_le_of_lt (Nat.le_trans hcount hbound) hfuel)
  exact ⟨_, left, rest, hreturn⟩

/-! ## An answer of 4 GiB -/

/-- A handler that writes zeros. -/
def writeZeros : ℕ → Handler
  | 0 => .ret .ok
  | n + 1 => .write 0 fun _ => writeZeros n

theorem length_output_writeZeros (binding : RpcBinding ω) (n : ℕ) (s : RpcState ω) :
    ((writeZeros n).output binding s).length = n := by
  induction n generalizing s with
  | zero => rfl
  | succ n ih => rw [writeZeros, Handler.output, List.length_cons, ih]

/-- A device whose commands write zeros, over a link that takes every frame. -/
def zeros (n : ℕ) : RpcBinding Unit where
  sendWire link _ := (link, true)
  commandHandler _ := writeZeros n
  capabilityFlags := 0

/-- A device that has not answered anything yet. -/
def idle : RpcState Unit := ⟨fun _ _ => 0, fun _ => 0, (), 0, 0, 0, 0, 0, false, []⟩

/-- `ping`, without arguments. -/
def ping : CommandServiceRequest := ⟨⟨"ping", 0x0001, .safe, 0, 0⟩, 0, fun _ => none⟩

theorem status_writeZeros (binding : RpcBinding ω) (n : ℕ) (s : RpcState ω) (writeFailed : Bool) :
    (runHandler binding (writeZeros n) s writeFailed).2.2 = .ok := by
  induction n generalizing s writeFailed with
  | zero => rfl
  | succ n ih =>
    rw [writeZeros, runHandler]
    rcases outputWriteByte binding s 0 with ⟨x, - | -⟩
    · exact ih x true
    · exact ih x writeFailed

theorem writtenBy_zeros (n : ℕ) :
    writtenBy (zeros n) idle 1 0x0001 ping = List.replicate n 0 := by
  have houtput : ∀ (k : ℕ) (s : RpcState Unit),
      (writeZeros k).output (zeros n) s = List.replicate k 0 := fun k => by
    induction k with
    | zero => exact fun _ => rfl
    | succ k ih =>
      intro s
      rw [writeZeros, Handler.output, ih, List.replicate_succ]
  exact houtput n _

set_option maxRecDepth 20000 in
/-- A hundred zeros, which take three data frames, reach the host. -/
theorem response_stream_zeros : ∃ count left rest,
    Host.rpcCoreAsync reads 65537 0x0001 [] 0 ⟨.new, ()⟩
      [takenBytes (answerRequest (zeros 100) idle 1 0x0001 ping).1.seen] =
    .returned ⟨0x0001, 1, count, 100, statusDomainCommandService, CommandServiceStatus.ok.code,
      List.replicate 100 0⟩ left rest := by
  obtain ⟨events, hevents, htaken⟩ := taken_answerRequest (fun _ _ => rfl : ∀ link wire,
    ((zeros 100).sendWire link wire).2 = true) idle 1 0x0001 ping
  have hall : (answerRequest (zeros 100) idle 1 0x0001 ping).1.seen = events := hevents
  have hwritten := writtenBy_zeros 100
  have hstatus : statusOf (zeros 100) idle 1 0x0001 ping = .ok := status_writeZeros _ 100 _ _
  have hsplits : Splits (takenBytes events) [takenBytes events] := by
    refine ⟨List.append_nil _, fun part hpart => ?_, fun part hpart => ?_⟩
    · rw [List.mem_singleton.1 hpart, ← hall]
      decide +kernel
    · rw [List.mem_singleton.1 hpart, ← hall]
      decide +kernel
  obtain ⟨count, left, rest, h⟩ := (response_stream (zeros 100) idle 1 0x0001 ping).2 events .new
    Channel.new.nextRequestId.1 [] 0 _ [takenBytes events] 65537 hevents htaken
    (by rw [hwritten, List.length_replicate]; decide) (by decide) ⟨by decide, by decide⟩ rfl rfl rfl rfl
    hsplits (by decide)
  rw [hwritten, hstatus, List.length_replicate] at h
  rw [hall]
  exact ⟨count, left, rest, h⟩

/-- All zeros are sent, and their number is told modulo 2^32. -/
theorem zeros_answer (n : ℕ) : ∃ chunks, (answerRequest (zeros n) idle 1 0x0001 ping).1.seen =
    [.invoked ping] ++ dataEvents 0x0001 1 0 chunks ++
      [.handed (endWire 0x0001 1 (chunks.length % 65536) (n % 4294967296) .ok) true] ∧
    chunks.flatten.length = n := by
  obtain ⟨chunks, lost, final, h⟩ := answerRequest_spec (zeros n) idle 1 0x0001 ping
  obtain ⟨events, hevents, htaken⟩ := taken_answerRequest (fun _ _ => rfl : ∀ link wire,
    ((zeros n).sendWire link wire).2 = true) idle 1 0x0001 ping
  have hall : events = (answerRequest (zeros n) idle 1 0x0001 ping).1.seen := hevents.symm
  have hseen := h.seen
  have hlast : (answerRequest (zeros n) idle 1 0x0001 ping).2 = true := by
    by_contra hlast
    rw [Bool.not_eq_true] at hlast
    refine htaken (endWire 0x0001 1 (chunks.length % 65536) (chunks.flatten.length % 4294967296)
      final) ?_
    rw [hall, hseen, hlast]
    exact List.mem_append_right _ List.mem_cons_self
  cases h.answered with
  | whole hwritten =>
    have hlength : chunks.flatten.length = n := by
      rw [hwritten]
      exact length_output_writeZeros (zeros n) n _
    have hstatus : statusOf (zeros n) idle 1 0x0001 ping = .ok := status_writeZeros _ n _ _
    rw [hlength, List.append_nil, hlast, hstatus] at hseen
    exact ⟨chunks, hseen, hlength⟩
  | @cut chunk =>
    refine absurd ?_ (htaken (dataWire 0x0001 1 (chunks.length % 65536) chunk))
    rw [hall, hseen]
    exact List.mem_append_left _ (List.mem_append_right _ List.mem_cons_self)

/-- **The frame that ends an answer of 4 GiB** tells zero bytes. -/
theorem end_wraps : ∃ chunks, (answerRequest (zeros 4294967296) idle 1 0x0001 ping).1.seen =
    [.invoked ping] ++ dataEvents 0x0001 1 0 chunks ++
      [.handed (endWire 0x0001 1 (chunks.length % 65536) 0 .ok) true] ∧
    chunks.flatten.length = 4294967296 := by
  have h := zeros_answer 4294967296
  rwa [Nat.mod_self] at h

end Rpc

end DeusOs
