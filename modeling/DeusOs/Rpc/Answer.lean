import DeusOs.Rpc.Codec
import DeusOs.Rpc.Model.BinaryRpc

/-!
# What the device answers

Whatever a handler writes goes out in numbered frames, in order, until one
is not taken (`Streaming`); and the one frame that ends the answer says how
much was taken (`answerRequest_spec`). A handler runs only behind every gate
of the request, and every frame is answered by exactly one terminal frame,
the last (`gated_and_answered`).
-/

namespace DeusOs

namespace Rpc

open LittleEndian (write16 write32)
open Nor (Mem)

variable {ω : Type} {binding : RpcBinding ω} {s s' : RpcState ω} {frameType : UInt8}
  {requestId rpcId n : ℕ} {bs written : List UInt8} {base : List RpcEvent}
  {chunks : List (List UInt8)} {frame : BinaryFrameView}

/-! ## One frame -/

/-- A frame was handed over, and nothing else happened. -/
structure HandedOver (s s' : RpcState ω) (taken : Bool) (wire : List UInt8) : Prop where
  seen : s'.seen = s.seen ++ [.handed wire taken]
  txFailed : s'.txFailed = (s.txFailed || !taken)
  rpcId : s'.activeRpcId = s.activeRpcId
  requestId : s'.activeRequestId = s.activeRequestId
  sequence : s'.sequence = s.sequence
  total : s'.totalOutputBytes = s.totalOutputBytes
  chunk : s'.dataChunkLength = s.dataChunkLength

/-- **A frame is sent** with the payload in the workspace. Whether the link
takes it is what the caller is told. -/
theorem sendWorkspaceFrame_spec (binding : RpcBinding ω) (hn : n ≤ 52) (s : RpcState ω)
    (frameType : UInt8) (requestId : ℕ) :
    HandedOver s (sendWorkspaceFrame binding s frameType requestId n).1
      (sendWorkspaceFrame binding s frameType requestId n).2
      (Host.wire frameType 0 requestId (s.wire.bytes 10 n)) := by
  have hlen : (finalizeInPlace frameType 0 requestId n s.wire).2 = 12 + n := by
    change 10 + n + 2 = _
    omega
  have hwire := bytes_finalizeInPlace frameType 0 requestId n s.wire
  have hfits : ¬ rpcDataPayloadMax < n := Nat.not_lt.2 hn
  unfold sendWorkspaceFrame
  rw [if_neg hfits]
  dsimp only
  rw [hlen, hwire]
  cases (binding.sendWire s.link (Host.wire frameType 0 requestId (s.wire.bytes 10 n))).2 with
  | true => exact ⟨rfl, (Bool.or_false _).symm, rfl, rfl, rfl, rfl, rfl⟩
  | false => exact ⟨rfl, (Bool.or_true _).symm, rfl, rfl, rfl, rfl, rfl⟩

theorem bytes_putPayload (s : RpcState ω) (bs : List UInt8) :
    (putPayload s 0 bs).wire.bytes 10 bs.length = bs := Mem.bytes_store _ _ _

/-- A frame is sent with this payload. -/
theorem send_spec (bs : List UInt8) (hbs : bs.length ≤ 52) (s : RpcState ω) (frameType : UInt8)
    (requestId : ℕ) :
    HandedOver s (sendWorkspaceFrame binding (putPayload s 0 bs) frameType requestId bs.length).1
      (sendWorkspaceFrame binding (putPayload s 0 bs) frameType requestId bs.length).2
      (Host.wire frameType 0 requestId bs) := by
  have h := sendWorkspaceFrame_spec binding hbs (putPayload s 0 bs) frameType requestId
  rw [bytes_putPayload] at h
  exact ⟨h.seen, h.txFailed, h.rpcId, h.requestId, h.sequence, h.total, h.chunk⟩

/-! ## The stream of data -/

/-- The frame of one chunk. -/
def dataWire (rpcId requestId sequence : ℕ) (chunk : List UInt8) : List UInt8 :=
  Host.wire typeRpcData 0 requestId (write16 rpcId ++ write16 sequence ++ chunk)

/-- The frame that ends the answer. -/
def endWire (rpcId requestId count total : ℕ) (status : CommandServiceStatus) : List UInt8 :=
  Host.wire typeRpcEnd 0 requestId
    (write16 rpcId ++ write16 count ++ write32 total ++ [statusDomainCommandService, status.code])

/-- The frames of the chunks, numbered from `first` on, all taken. -/
def dataEvents (rpcId requestId : ℕ) : ℕ → List (List UInt8) → List RpcEvent
  | _, [] => []
  | first, chunk :: chunks =>
    .handed (dataWire rpcId requestId (first % 65536) chunk) true ::
      dataEvents rpcId requestId (first + 1) chunks

theorem dataEvents_concat (rpcId requestId first : ℕ) (chunks : List (List UInt8))
    (chunk : List UInt8) :
    dataEvents rpcId requestId first (chunks ++ [chunk]) = dataEvents rpcId requestId first chunks ++
      [.handed (dataWire rpcId requestId ((first + chunks.length) % 65536) chunk) true] := by
  induction chunks generalizing first with
  | nil => rfl
  | cons c chunks ih =>
    rw [List.cons_append, dataEvents, ih, dataEvents, List.length_cons, List.cons_append,
      Nat.add_assoc, Nat.add_comm 1]

/-- A chunk of a frame. -/
def IsChunk (chunk : List UInt8) : Prop := 1 ≤ chunk.length ∧ chunk.length ≤ 48

/-- How far the stream has come: all that was written is in frames that were
taken, or still in the workspace; or a frame was not taken, and it was the
last. -/
inductive Progress (base : List RpcEvent) (rpcId requestId : ℕ) (written : List UInt8)
    (chunks : List (List UInt8)) (s : RpcState ω) : Prop
  | flows : s.txFailed = false → s.seen = base ++ dataEvents rpcId requestId 0 chunks →
      s.dataChunkLength < 48 → written = chunks.flatten ++ s.wire.bytes 14 s.dataChunkLength →
      Progress base rpcId requestId written chunks s
  | failed (chunk : List UInt8) : s.txFailed = true → IsChunk chunk →
      s.seen = base ++ dataEvents rpcId requestId 0 chunks ++
        [.handed (dataWire rpcId requestId (chunks.length % 65536) chunk) false] →
      (chunks.flatten ++ chunk) <+: written →
      Progress base rpcId requestId written chunks s

/-- **What holds while a handler writes.** -/
structure Streaming (base : List RpcEvent) (rpcId requestId : ℕ) (written : List UInt8)
    (chunks : List (List UInt8)) (s : RpcState ω) : Prop where
  activeRpc : s.activeRpcId = rpcId
  activeRequest : s.activeRequestId = requestId
  sequence : s.sequence = chunks.length % 65536
  total : s.totalOutputBytes = chunks.flatten.length % 4294967296
  isChunk : ∀ chunk ∈ chunks, IsChunk chunk
  progress : Progress base rpcId requestId written chunks s

/-- **Flushing** what is in the workspace. -/
theorem flushData_spec (binding : RpcBinding ω) {chunk : List UInt8} (hrpc : s.activeRpcId = rpcId)
    (hreq : s.activeRequestId = requestId) (hseq : s.sequence = chunks.length % 65536)
    (htotal : s.totalOutputBytes = chunks.flatten.length % 4294967296)
    (hchunks : ∀ chunk ∈ chunks, IsChunk chunk) (hok : s.txFailed = false)
    (hseen : s.seen = base ++ dataEvents rpcId requestId 0 chunks) (hchunk : IsChunk chunk)
    (hlen : s.dataChunkLength = chunk.length)
    (hbytes : s.wire.bytes 14 s.dataChunkLength = chunk)
    (hwritten : written = chunks.flatten ++ chunk) :
    ∃ chunks', Streaming base rpcId requestId written chunks' (flushData binding s).1 ∧
      (flushData binding s).2 = !(flushData binding s).1.txFailed ∧
      ((flushData binding s).2 = true → (flushData binding s).1.dataChunkLength = 0) := by
  have hpos : s.dataChunkLength ≠ 0 := by
    have := hchunk.1
    omega
  have hmax := hchunk.2
  -- the payload of the frame
  obtain ⟨x, hx⟩ : ∃ x, x = putPayload s 0 (write16 s.activeRpcId ++ write16 s.sequence) := ⟨_, rfl⟩
  have hpayload : x.wire.bytes 10 (4 + s.dataChunkLength) =
      write16 rpcId ++ write16 (chunks.length % 65536) ++ chunk := by
    have hhead := bytes_putPayload s (write16 s.activeRpcId ++ write16 s.sequence)
    have hfour : (write16 s.activeRpcId ++ write16 s.sequence).length = 4 := rfl
    rw [hfour] at hhead
    have htail : x.wire.bytes 14 s.dataChunkLength = s.wire.bytes 14 s.dataChunkLength := by
      rw [hx]
      exact Mem.bytes_store_of_disjoint (Or.inr (by rw [hfour]; exact Nat.le_refl 14))
    rw [Mem.bytes_add, htail, hbytes, hx, hhead, hrpc, hseq]
  have hfits : 4 + s.dataChunkLength ≤ 52 := by omega
  have hsend := sendWorkspaceFrame_spec binding hfits x typeRpcData requestId
  rw [hpayload] at hsend
  have hxok : x.txFailed = false := by rw [hx]; exact hok
  have hxseen : x.seen = s.seen := by rw [hx]; rfl
  have hxseq : x.sequence = s.sequence := by rw [hx]; rfl
  have hxtotal : x.totalOutputBytes = s.totalOutputBytes := by rw [hx]; rfl
  have hxrpc : x.activeRpcId = s.activeRpcId := by rw [hx]; rfl
  have hxreq : x.activeRequestId = s.activeRequestId := by rw [hx]; rfl
  have hxchunk : x.dataChunkLength = s.dataChunkLength := by rw [hx]; rfl
  rw [flushData, if_neg hpos]
  dsimp only
  rw [← hx, hxreq, hreq, hxchunk]
  rcases hr : sendWorkspaceFrame binding x typeRpcData requestId (4 + s.dataChunkLength) with
    ⟨y, - | -⟩
  · -- it is not taken
    rw [hr] at hsend
    refine ⟨chunks, ⟨?_, ?_, ?_, ?_, hchunks, .failed chunk ?_ hchunk ?_ ?_⟩, ?_, fun h => by cases h⟩
    · rw [hsend.rpcId, hxrpc, hrpc]
    · rw [hsend.requestId, hxreq, hreq]
    · rw [hsend.sequence, hxseq, hseq]
    · rw [hsend.total, hxtotal, htotal]
    · rw [hsend.txFailed]
      exact Bool.or_true _
    · rw [hsend.seen, hxseen, hseen, dataWire]
    · exact ⟨[], by rw [List.append_nil, hwritten]⟩
    · rw [hsend.txFailed]
      exact (congrArg Bool.not (Bool.or_true _)).symm
  · rw [hr] at hsend
    have hyok : y.txFailed = false := by
      rw [hsend.txFailed, hxok]
      rfl
    have hflat : (chunks ++ [chunk]).flatten = chunks.flatten ++ chunk := by
      rw [List.flatten_append, List.flatten_singleton]
    refine ⟨chunks ++ [chunk], ⟨?_, ?_, ?_, ?_, ?_, .flows hyok ?_ (Nat.succ_pos 47) ?_⟩, ?_,
      fun _ => rfl⟩
    · dsimp only
      rw [hsend.rpcId, hxrpc, hrpc]
    · dsimp only
      rw [hsend.requestId, hxreq, hreq]
    · dsimp only
      rw [hsend.sequence, hxseq, hseq, List.length_append, List.length_singleton]
      omega
    · dsimp only
      rw [hsend.total, hsend.chunk, hxtotal, hxchunk, htotal, hlen, hflat, List.length_append]
      omega
    · intro c hc
      rw [List.mem_append, List.mem_singleton] at hc
      rcases hc with hc | rfl
      · exact hchunks c hc
      · exact hchunk
    · dsimp only
      rw [hsend.seen, hxseen, hseen, dataEvents_concat, Nat.zero_add, List.append_assoc]
      rfl
    · dsimp only
      rw [Mem.bytes_zero, List.append_nil, hflat, hwritten]
    · dsimp only
      rw [hyok]
      rfl

/-- The workspace with one byte more in its chunk. -/
def appendByte (s : RpcState ω) (byte : UInt8) : RpcState ω :=
  { putPayload s (4 + s.dataChunkLength) [byte] with dataChunkLength := s.dataChunkLength + 1 }

/-- While frames are taken, a byte goes to the workspace, and a chunk that is
full or ends a line is flushed. -/
theorem outputWriteByte_eq (hok : s.txFailed = false) (hlen : s.dataChunkLength < 48) (byte : UInt8) :
    outputWriteByte binding s byte =
      if s.dataChunkLength + 1 = rpcDataChunkMax ∨ byte = 0x0A then
        flushData binding (appendByte s byte)
      else (appendByte s byte, true) := by
  have hroom : ¬ rpcDataChunkMax ≤ s.dataChunkLength := Nat.not_le.2 hlen
  unfold outputWriteByte
  rw [hok, if_neg Bool.false_ne_true, if_neg hroom]
  rfl

/-- **One byte more is written.** A chunk is sent once it is full, or with the
end of a line; after a refusal nothing more is. -/
theorem outputWriteByte_spec (binding : RpcBinding ω)
    (h : Streaming base rpcId requestId written chunks s) (byte : UInt8) :
    ∃ chunks', Streaming base rpcId requestId (written ++ [byte]) chunks'
        (outputWriteByte binding s byte).1 ∧
      (outputWriteByte binding s byte).2 = !(outputWriteByte binding s byte).1.txFailed := by
  cases h.progress with
  | failed chunk hfail hchunk hseen hpre =>
    -- nothing is taken any more
    have hrefuse : outputWriteByte binding s byte = (s, false) := by
      rw [outputWriteByte, hfail]
      rfl
    rw [hrefuse]
    refine ⟨chunks, ⟨h.activeRpc, h.activeRequest, h.sequence, h.total, h.isChunk,
      .failed chunk hfail hchunk hseen (hpre.trans (List.prefix_append _ _))⟩, ?_⟩
    rw [hfail]
    rfl
  | flows hok hseen hlen hwritten =>
    rw [outputWriteByte_eq hok hlen]
    obtain ⟨x, hx⟩ : ∃ x, x = appendByte s byte := ⟨_, rfl⟩
    have hbytes : x.wire.bytes 14 (s.dataChunkLength + 1) =
        s.wire.bytes 14 s.dataChunkLength ++ [byte] := by
      have hnew := Mem.bytes_store s.wire (14 + s.dataChunkLength) [byte]
      have hat : frameFixedPrefixBytes + (4 + s.dataChunkLength) = 14 + s.dataChunkLength := by
        unfold frameFixedPrefixBytes
        omega
      rw [hx]
      dsimp only [appendByte, putPayload]
      rw [hat, Mem.bytes_add, Mem.bytes_store_of_disjoint (Or.inl (Nat.le_refl _))]
      exact congrArg (s.wire.bytes 14 s.dataChunkLength ++ ·) hnew
    have hxlen : x.dataChunkLength = s.dataChunkLength + 1 := by rw [hx]; rfl
    have hxrpc : x.activeRpcId = rpcId := by rw [hx]; exact h.activeRpc
    have hxreq : x.activeRequestId = requestId := by rw [hx]; exact h.activeRequest
    have hxseq : x.sequence = chunks.length % 65536 := by rw [hx]; exact h.sequence
    have hxtotal : x.totalOutputBytes = chunks.flatten.length % 4294967296 := by
      rw [hx]
      exact h.total
    have hxok : x.txFailed = false := by rw [hx]; exact hok
    have hxseen : x.seen = base ++ dataEvents rpcId requestId 0 chunks := by rw [hx]; exact hseen
    have hall : written ++ [byte] = chunks.flatten ++ (s.wire.bytes 14 s.dataChunkLength ++ [byte]) := by
      rw [hwritten, List.append_assoc]
    rw [← hx]
    by_cases hflush : s.dataChunkLength + 1 = rpcDataChunkMax ∨ byte = 0x0A
    · rw [if_pos hflush]
      have hchunk : IsChunk (s.wire.bytes 14 s.dataChunkLength ++ [byte]) := by
        rw [IsChunk, List.length_append, Mem.length_bytes, List.length_singleton]
        omega
      obtain ⟨chunks', hstream, htaken, -⟩ := flushData_spec binding hxrpc hxreq hxseq hxtotal
        h.isChunk hxok hxseen hchunk
        (by rw [hxlen, List.length_append, Mem.length_bytes, List.length_singleton])
        (by rw [hxlen, hbytes]) hall
      exact ⟨chunks', hstream, htaken⟩
    · rw [if_neg hflush]
      unfold rpcDataChunkMax at hflush
      refine ⟨chunks, ⟨hxrpc, hxreq, hxseq, hxtotal, h.isChunk, .flows hxok hxseen ?_ ?_⟩, ?_⟩
      · dsimp only
        omega
      · dsimp only
        rw [hxlen, hbytes, hall]
      · dsimp only
        rw [hxok]
        rfl

/-- The bytes that a handler writes, as its writes are taken or not. -/
def Handler.output (binding : RpcBinding ω) : Handler → RpcState ω → List UInt8
  | .ret _, _ => []
  | .write byte next, s =>
    byte :: (next (outputWriteByte binding s byte).2).output binding
      (outputWriteByte binding s byte).1

/-- **A handler runs:** all that it writes is streamed, in chunks of at most 48
bytes. -/
theorem runHandler_spec (binding : RpcBinding ω) (handler : Handler)
    (h : Streaming base rpcId requestId written chunks s)
    (writeFailed : Bool) (hfailed : writeFailed = true → s.txFailed = true) :
    ∃ chunks', Streaming base rpcId requestId (written ++ handler.output binding s) chunks'
        (runHandler binding handler s writeFailed).1 ∧
      ((runHandler binding handler s writeFailed).2.1 = true →
        (runHandler binding handler s writeFailed).1.txFailed = true) := by
  induction handler generalizing s written chunks writeFailed with
  | ret status =>
    refine ⟨chunks, ?_, hfailed⟩
    rw [Handler.output, List.append_nil]
    exact h
  | write byte next ih =>
    obtain ⟨chunks₁, hstream, htaken⟩ := outputWriteByte_spec binding h byte
    rw [runHandler, Handler.output]
    have hwritten : ∀ rest, written ++ byte :: rest = (written ++ [byte]) ++ rest := by
      intro rest
      rw [List.append_assoc, List.singleton_append]
    rw [hwritten]
    have hfailed' : writeFailed = true → (outputWriteByte binding s byte).1.txFailed = true := by
      intro hw
      have hs := hfailed hw
      unfold outputWriteByte
      rw [hs]
      exact hs
    rcases hr : outputWriteByte binding s byte with ⟨x, - | -⟩
    · rw [hr] at hstream htaken hfailed'
      exact ih false hstream true fun _ => by simpa using htaken.symm
    · rw [hr] at hstream hfailed'
      exact ih true hstream writeFailed hfailed'

/-! ## The answer to a request -/

/-- What is left in the workspace is flushed, unless a frame was not taken. -/
theorem finalFlush_spec (binding : RpcBinding ω) (h : Streaming base rpcId requestId written chunks s)
    (hok : s.txFailed = false) :
    ∃ chunks', Streaming base rpcId requestId written chunks' (flushData binding s).1 ∧
      (flushData binding s).2 = !(flushData binding s).1.txFailed ∧
      ((flushData binding s).2 = true → (flushData binding s).1.dataChunkLength = 0) := by
  cases h.progress with
  | failed chunk hfail =>
    rw [hok] at hfail
    cases hfail
  | flows _ hseen hlen hwritten =>
    by_cases hzero : s.dataChunkLength = 0
    · rw [flushData, if_pos hzero]
      refine ⟨chunks, h, ?_, fun _ => hzero⟩
      dsimp only
      rw [hok]
      rfl
    · refine flushData_spec binding h.activeRpc h.activeRequest h.sequence h.total h.isChunk hok hseen
        ?_ (Mem.length_bytes _ _ _).symm rfl hwritten
      rw [IsChunk, Mem.length_bytes]
      omega

/-- How an answer ends: everything was taken, or one frame was not. -/
inductive Answered (rpcId requestId : ℕ) (written : List UInt8) (status : CommandServiceStatus)
    (chunks : List (List UInt8)) : List RpcEvent → CommandServiceStatus → Prop
  | whole : chunks.flatten = written → Answered rpcId requestId written status chunks [] status
  | cut {chunk : List UInt8} : IsChunk chunk → (chunks.flatten ++ chunk) <+: written →
      Answered rpcId requestId written status chunks
        [.handed (dataWire rpcId requestId (chunks.length % 65536) chunk) false] .internalError

/-- What the outside sees of an answer: the handler is called, its output is
sent in numbered frames, and one frame ends the answer. -/
structure Answers (seen seen' : List RpcEvent) (request : CommandServiceRequest)
    (rpcId requestId : ℕ) (written : List UInt8) (status : CommandServiceStatus)
    (chunks : List (List UInt8)) (lost : List RpcEvent) (final : CommandServiceStatus)
    (taken : Bool) : Prop where
  seen : seen' = seen ++ [.invoked request] ++ dataEvents rpcId requestId 0 chunks ++ lost ++
    [.handed (endWire rpcId requestId (chunks.length % 65536)
      (chunks.flatten.length % 4294967296) final) taken]
  isChunk : ∀ chunk ∈ chunks, IsChunk chunk
  answered : Answered rpcId requestId written status chunks lost final

/-- The state in which the handler of a request starts. -/
def handlerStart (s : RpcState ω) (requestId rpcId : ℕ) (request : CommandServiceRequest) :
    RpcState ω :=
  { s with
    activeRpcId := rpcId
    activeRequestId := requestId
    sequence := 0
    totalOutputBytes := 0
    dataChunkLength := 0
    txFailed := false
    seen := s.seen ++ [.invoked request] }

/-- What the handler of a request writes. -/
def writtenBy (binding : RpcBinding ω) (s : RpcState ω) (requestId rpcId : ℕ)
    (request : CommandServiceRequest) : List UInt8 :=
  (binding.commandHandler request).output binding (handlerStart s requestId rpcId request)

/-- The status that the handler of a request returns. -/
def statusOf (binding : RpcBinding ω) (s : RpcState ω) (requestId rpcId : ℕ)
    (request : CommandServiceRequest) : CommandServiceStatus :=
  (runHandler binding (binding.commandHandler request)
    (handlerStart s requestId rpcId request) false).2.2

/-- A handler begins with nothing written. -/
theorem streaming_start (s : RpcState ω) (requestId rpcId : ℕ) (request : CommandServiceRequest) :
    Streaming (s.seen ++ [.invoked request]) rpcId requestId [] []
      (handlerStart s requestId rpcId request) where
  activeRpc := rfl
  activeRequest := rfl
  sequence := rfl
  total := rfl
  isChunk := fun _ h => absurd h List.not_mem_nil
  progress := .flows rfl (List.append_nil _).symm (Nat.succ_pos 47) rfl

/-- The end of the answer. -/
theorem sendEnd_spec (binding : RpcBinding ω) (s : RpcState ω) (rpcId requestId count total : ℕ)
    (status : CommandServiceStatus) :
    HandedOver s
      (sendEnd binding s rpcId requestId count total statusDomainCommandService status.code).1
      (sendEnd binding s rpcId requestId count total statusDomainCommandService status.code).2
      (endWire rpcId requestId count total status) :=
  send_spec (write16 rpcId ++ write16 count ++ write32 total ++
    [statusDomainCommandService, status.code]) (Nat.le_of_ble_eq_true rfl) s typeRpcEnd requestId

/-- An answer that lost a frame ends in `INTERNAL_ERROR`. -/
theorem Streaming.cut (h : Streaming base rpcId requestId written chunks s)
    (hfail : s.txFailed = true) (status : CommandServiceStatus) :
    ∃ lost, s.seen = base ++ dataEvents rpcId requestId 0 chunks ++ lost ∧
      Answered rpcId requestId written status chunks lost .internalError := by
  cases h.progress with
  | flows hok =>
    rw [hok] at hfail
    cases hfail
  | failed chunk _ hchunk hseen hpre => exact ⟨_, hseen, .cut hchunk hpre⟩

/-- An answer that lost none is whole, and ends in the handler's status. -/
theorem Streaming.whole (h : Streaming base rpcId requestId written chunks s)
    (hok : s.txFailed = false) (hempty : s.dataChunkLength = 0) (status : CommandServiceStatus) :
    s.seen = base ++ dataEvents rpcId requestId 0 chunks ++ [] ∧
      Answered rpcId requestId written status chunks [] status := by
  cases h.progress with
  | failed _ hfail =>
    rw [hok] at hfail
    cases hfail
  | flows _ hseen _ hwritten =>
    rw [hempty, Mem.bytes_zero, List.append_nil] at hwritten
    exact ⟨by rw [hseen, List.append_nil], .whole hwritten.symm⟩

/-- A request is answered by its handler, the last chunk, and the end. -/
theorem answerRequest_eq (binding : RpcBinding ω) (s : RpcState ω) (requestId rpcId : ℕ)
    (request : CommandServiceRequest) : answerRequest binding s requestId rpcId request =
      match runHandler binding (binding.commandHandler request)
        (handlerStart s requestId rpcId request) false with
      | (x, writeFailed, status) =>
        let (x, status) :=
          if x.txFailed then (x, if writeFailed then .internalError else status)
          else match flushData binding x with
            | (x, true) => (x, if writeFailed then .internalError else status)
            | (x, false) => (x, .internalError)
        let status := if writeFailed || x.txFailed then .internalError else status
        sendEnd binding x rpcId requestId x.sequence x.totalOutputBytes statusDomainCommandService
          status.code := rfl

/-- **A request is answered** with all that was streamed while its handler ran,
or with an internal error from the first frame on that was not taken. -/
theorem answers_of_run {request : CommandServiceRequest} {status : CommandServiceStatus}
    (hstream : Streaming (s.seen ++ [.invoked request]) rpcId requestId written chunks
      (runHandler binding (binding.commandHandler request)
        (handlerStart s requestId rpcId request) false).1)
    (hfailed : (runHandler binding (binding.commandHandler request)
        (handlerStart s requestId rpcId request) false).2.1 = true →
      (runHandler binding (binding.commandHandler request)
        (handlerStart s requestId rpcId request) false).1.txFailed = true)
    (hstatus : (runHandler binding (binding.commandHandler request)
        (handlerStart s requestId rpcId request) false).1.txFailed = false →
      (runHandler binding (binding.commandHandler request)
        (handlerStart s requestId rpcId request) false).2.2 = status) :
    ∃ chunks lost final, Answers s.seen (answerRequest binding s requestId rpcId request).1.seen
      request rpcId requestId written status chunks lost final
      (answerRequest binding s requestId rpcId request).2 := by
  rw [answerRequest_eq]
  rcases hr : runHandler binding (binding.commandHandler request)
    (handlerStart s requestId rpcId request) false with ⟨x, writeFailed, returned⟩
  rw [hr] at hstream hfailed hstatus
  dsimp only at hstream hfailed hstatus ⊢
  cases hx : x.txFailed with
  | true =>
    -- a frame was not taken while the handler was writing
    obtain ⟨lost, hseen, hanswered⟩ := hstream.cut hx status
    rw [if_pos rfl]
    dsimp only
    rw [hx, Bool.or_true, if_pos rfl, hstream.sequence, hstream.total]
    have hend := sendEnd_spec binding x rpcId requestId (chunks.length % 65536)
      (chunks.flatten.length % 4294967296) .internalError
    exact ⟨chunks, lost, .internalError, by rw [hend.seen, hseen], hstream.isChunk, hanswered⟩
  | false =>
    have hwrite : writeFailed = false := by
      by_contra hw
      rw [hfailed (by simpa using hw)] at hx
      cases hx
    obtain ⟨chunks₂, hstream₂, htaken, hempty⟩ := finalFlush_spec binding hstream hx
    rw [if_neg Bool.false_ne_true, hwrite, if_neg Bool.false_ne_true, hstatus hx]
    rcases hflush : flushData binding x with ⟨y, - | -⟩
    · -- the last frame of data is not taken
      rw [hflush] at hstream₂ htaken
      have hy : y.txFailed = true := by simpa using htaken.symm
      obtain ⟨lost, hseen, hanswered⟩ := hstream₂.cut hy status
      dsimp only at hseen ⊢
      rw [hy, Bool.false_or, if_pos rfl, hstream₂.sequence, hstream₂.total]
      have hend := sendEnd_spec binding y rpcId requestId (chunks₂.length % 65536)
        (chunks₂.flatten.length % 4294967296) .internalError
      exact ⟨chunks₂, lost, .internalError, by rw [hend.seen, hseen], hstream₂.isChunk, hanswered⟩
    · rw [hflush] at hstream₂ htaken hempty
      have hy : y.txFailed = false := by simpa using htaken.symm
      obtain ⟨hseen, hanswered⟩ := hstream₂.whole hy (hempty rfl) status
      dsimp only at hseen ⊢
      rw [hy, Bool.false_or, if_neg Bool.false_ne_true, hstream₂.sequence, hstream₂.total]
      have hend := sendEnd_spec binding y rpcId requestId (chunks₂.length % 65536)
        (chunks₂.flatten.length % 4294967296) status
      exact ⟨chunks₂, [], status, by rw [hend.seen, hseen], hstream₂.isChunk, hanswered⟩

/-- **A request is answered** with all that its handler writes, or with an
internal error from the first frame on that was not taken. -/
theorem answerRequest_spec (binding : RpcBinding ω) (s : RpcState ω) (requestId rpcId : ℕ)
    (request : CommandServiceRequest) :
    ∃ chunks lost final, Answers s.seen (answerRequest binding s requestId rpcId request).1.seen
      request rpcId requestId (writtenBy binding s requestId rpcId request)
      (statusOf binding s requestId rpcId request) chunks lost final
      (answerRequest binding s requestId rpcId request).2 := by
  obtain ⟨chunks, hstream, hfailed⟩ := runHandler_spec binding
    (binding.commandHandler request) (streaming_start s requestId rpcId request) false
    (fun h => by cases h)
  rw [List.nil_append] at hstream
  exact answers_of_run hstream hfailed fun _ => rfl

/-! ## Every frame -/

/-- The type of a frame on the wire. -/
def frameTypeOf (wire : List UInt8) : UInt8 := wire.getD 3 0

/-- A frame that ends an answer. -/
def IsTerminal (wire : List UInt8) : Prop :=
  frameTypeOf wire = typeHelloResponse ∨ frameTypeOf wire = typeRpcEnd ∨
    frameTypeOf wire = typeProtocolError

/-- The type of a frame is read from its bytes. -/
theorem frameTypeOf_wire (frameType flags : UInt8) (requestId : ℕ) (payload : List UInt8) :
    frameTypeOf (Host.wire frameType flags requestId payload) = frameType := rfl

/-- What a request must be for its handler to be called. -/
structure Gate (storage : ℕ → Mem) (frame : BinaryFrameView) (request : CommandServiceRequest) :
    Prop where
  version : frame.version = 1
  reserved : frame.reserved = 0
  requestId : frame.requestId ≠ 0
  frameType : frame.frameType = typeRpcRequest
  flags : frame.flags &&& ~~~flagAllowDestructive = 0
  decodes : (decodeRequest storage frame).result = .ok
  registered : findRpcId (decodeRequest storage frame).rpcId = some request.descriptor
  argc : request.argc = (decodeRequest storage frame).argc
  minArgs : request.descriptor.minArgs ≤ request.argc
  maxArgs : request.argc ≤ request.descriptor.maxArgs
  destructive : request.descriptor.commandClass = .destructive →
    frame.flags &&& flagAllowDestructive ≠ 0

/-- A frame is answered by one terminal frame, and that is all. -/
def Rejected (requestId : ℕ) (s : RpcState ω) (r : RpcState ω × Bool) : Prop :=
  ∃ frameType payload, r.1.seen = s.seen ++ [.handed (Host.wire frameType 0 requestId payload) r.2] ∧
    IsTerminal (Host.wire frameType 0 requestId payload)

theorem rejected_of_handedOver {x : RpcState ω} {r : RpcState ω × Bool} {payload : List UInt8}
    (h : HandedOver x r.1 r.2 (Host.wire frameType 0 requestId payload)) (hseen : x.seen = s.seen)
    (hterminal : frameType = typeHelloResponse ∨ frameType = typeRpcEnd ∨
      frameType = typeProtocolError) : Rejected requestId s r :=
  ⟨frameType, payload, by rw [h.seen, hseen], hterminal⟩

/-- A protocol error rejects a request without a call. -/
theorem rejected_protocolError (x : RpcState ω) (hseen : x.seen = s.seen) (requestId : ℕ)
    (code observed : UInt8) :
    Rejected requestId s (sendProtocolError binding x requestId code observed) :=
  rejected_of_handedOver (send_spec [code, observed] (by decide : 2 ≤ 52) x
    typeProtocolError requestId) hseen (Or.inr (Or.inr rfl))

/-- A simple end rejects a request without a call. -/
theorem rejected_simpleEnd (x : RpcState ω) (hseen : x.seen = s.seen) (rpcId requestId : ℕ)
    (domain code : UInt8) :
    Rejected requestId s (sendSimpleEnd binding x rpcId requestId domain code) :=
  rejected_of_handedOver (send_spec (write16 rpcId ++ write16 0 ++ write32 0 ++ [domain, code])
    (Nat.le_of_ble_eq_true rfl) x typeRpcEnd requestId) hseen (Or.inr (Or.inl rfl))

theorem rejected_hello (x : RpcState ω) (hseen : x.seen = s.seen) (requestId : ℕ) :
    Rejected requestId s (sendHello binding x requestId) :=
  rejected_of_handedOver (send_spec ([frameProtocolVersion, commandServiceFoundationVersion,
      UInt8.ofNat commandServiceMaxArgs, 0] ++ write16 commandServiceLineCapacity ++
      write16 rpcRequestPayloadMax ++ write16 rpcDataChunkMax ++ write16 commandRegistry.length ++
      write32 binding.capabilityFlags) (Nat.le_of_ble_eq_true rfl) x typeHelloResponse requestId)
    hseen (Or.inl rfl)

/-- **A request is rejected,** or it passed every gate and is answered. -/
theorem handleRpcRequest_cases (hversion : frame.version = 1) (hreserved : frame.reserved = 0)
    (hid : frame.requestId ≠ 0) (htype : frame.frameType = typeRpcRequest) (s : RpcState ω) :
    Rejected frame.requestId s (handleRpcRequest binding s frame) ∨
      ∃ x rpcId request, x.seen = s.seen ∧ Gate s.argumentStorage frame request ∧
        handleRpcRequest binding s frame = answerRequest binding x frame.requestId rpcId request := by
  unfold handleRpcRequest
  by_cases hflags : frame.flags &&& ~~~flagAllowDestructive ≠ 0
  · rw [if_pos hflags]
    left
    split
    · split
      · exact rejected_simpleEnd s rfl _ _ _ _
      · exact rejected_protocolError s rfl _ _ _
    · exact rejected_protocolError s rfl _ _ _
  rw [if_neg hflags]
  dsimp only
  by_cases hmalformed : (decodeRequest s.argumentStorage frame).result = .malformed
  · rw [if_pos hmalformed]
    left
    split
    · exact rejected_simpleEnd _ rfl _ _ _ _
    · exact rejected_protocolError _ rfl _ _ _
  rw [if_neg hmalformed]
  split
  · exact Or.inl (rejected_simpleEnd _ rfl _ _ _ _)
  rename_i descriptor hregistered
  by_cases hargs : (decodeRequest s.argumentStorage frame).result = .badArgs ∨
      (decodeRequest s.argumentStorage frame).argc < descriptor.minArgs ∨
      descriptor.maxArgs < (decodeRequest s.argumentStorage frame).argc
  · rw [if_pos hargs]
    exact Or.inl (rejected_simpleEnd _ rfl _ _ _ _)
  rw [if_neg hargs]
  by_cases hconfirm : descriptor.commandClass = .destructive ∧
      frame.flags &&& flagAllowDestructive = 0
  · rw [if_pos hconfirm]
    exact Or.inl (rejected_simpleEnd _ rfl _ _ _ _)
  rw [if_neg hconfirm]
  right
  obtain ⟨hbad, hmin, hmax⟩ := not_or.1 hargs |>.imp_right not_or.1
  have hok : (decodeRequest s.argumentStorage frame).result = .ok := by
    cases hresult : (decodeRequest s.argumentStorage frame).result with
    | ok => rfl
    | malformed => exact absurd hresult hmalformed
    | badArgs => exact absurd hresult hbad
  have hgate : Gate s.argumentStorage frame
      { descriptor := descriptor, argc := (decodeRequest s.argumentStorage frame).argc
        argv := fun i => ((decodeRequest s.argumentStorage frame).decoding.argv i).map
          (decodeRequest s.argumentStorage frame).decoding.storage } :=
    ⟨hversion, hreserved, hid, htype, not_not.1 hflags, hok, hregistered, rfl,
      Nat.le_of_not_lt hmin, Nat.le_of_not_lt hmax, fun hclass hzero => hconfirm ⟨hclass, hzero⟩⟩
  exact ⟨{ s with argumentStorage := (decodeRequest s.argumentStorage frame).decoding.storage },
    _, _, rfl, hgate, rfl⟩

/-- **A frame is rejected,** or it is a request that passed every gate. A
handler runs in the second case only. -/
theorem rpcHandleFrame_cases (binding : RpcBinding ω) (s : RpcState ω) (frame : BinaryFrameView) :
    Rejected frame.requestId s (rpcHandleFrame binding s frame) ∨
      ∃ x rpcId request, x.seen = s.seen ∧ Gate s.argumentStorage frame request ∧
        rpcHandleFrame binding s frame = answerRequest binding x frame.requestId rpcId request := by
  unfold rpcHandleFrame
  dsimp only
  by_cases hversion : frame.version ≠ frameProtocolVersion
  · rw [if_pos hversion]
    exact Or.inl (rejected_protocolError _ rfl _ _ _)
  rw [if_neg hversion]
  by_cases hreserved : frame.reserved ≠ 0
  · rw [if_pos hreserved]
    exact Or.inl (rejected_protocolError _ rfl _ _ _)
  rw [if_neg hreserved]
  by_cases hid : frame.requestId = 0
  · rw [if_pos hid, hid]
    exact Or.inl (rejected_protocolError _ rfl _ _ _)
  rw [if_neg hid]
  by_cases hhello : frame.frameType = typeHelloRequest
  · rw [if_pos hhello]
    left
    split
    · exact rejected_protocolError _ rfl _ _ _
    · split
      · exact rejected_protocolError _ rfl _ _ _
      · exact rejected_hello _ rfl _
  rw [if_neg hhello]
  by_cases htype : frame.frameType = typeRpcRequest
  · rw [if_pos htype]
    exact handleRpcRequest_cases (not_not.1 hversion) (not_not.1 hreserved) hid htype _
  · rw [if_neg htype]
    exact Or.inl (rejected_protocolError _ rfl _ _ _)

/-- The frames of the data are `RPC_DATA`. -/
theorem type_of_mem_dataEvents {wire : List UInt8} {taken : Bool} {first : ℕ}
    (h : RpcEvent.handed wire taken ∈ dataEvents rpcId requestId first chunks) :
    frameTypeOf wire = typeRpcData := by
  induction chunks generalizing first with
  | nil => exact absurd h List.not_mem_nil
  | cons chunk chunks ih =>
    rw [dataEvents, List.mem_cons] at h
    rcases h with h | h
    · cases h
      rfl
    · exact ih h

theorem not_invoked_of_dataEvents {request : CommandServiceRequest} {first : ℕ} :
    RpcEvent.invoked request ∉ dataEvents rpcId requestId first chunks := by
  induction chunks generalizing first with
  | nil => exact List.not_mem_nil
  | cons chunk chunks ih =>
    rw [dataEvents, List.mem_cons]
    rintro (h | h)
    · cases h
    · exact ih h

/-- **Every frame is answered by exactly one terminal frame,** which comes
last and carries the frame's request id; and the handler is called only for
a request that passed every gate. -/
theorem gated_and_answered (binding : RpcBinding ω) (s : RpcState ω) (frame : BinaryFrameView) :
    ∃ before frameType payload taken,
      (rpcHandleFrame binding s frame).1.seen =
        s.seen ++ before ++ [.handed (Host.wire frameType 0 frame.requestId payload) taken] ∧
      IsTerminal (Host.wire frameType 0 frame.requestId payload) ∧
      (∀ wire taken, RpcEvent.handed wire taken ∈ before → ¬ IsTerminal wire) ∧
      ∀ request, RpcEvent.invoked request ∈ before → Gate s.argumentStorage frame request := by
  rcases rpcHandleFrame_cases binding s frame with
    ⟨frameType, payload, hseen, hterminal⟩ | ⟨x, rpcId, request, hx, hgate, hanswer⟩
  · refine ⟨[], frameType, payload, (rpcHandleFrame binding s frame).2, ?_, hterminal,
      fun _ _ h => absurd h List.not_mem_nil, fun _ h => absurd h List.not_mem_nil⟩
    rw [List.append_nil]
    exact hseen
  · obtain ⟨chunks, lost, final, hspec⟩ := answerRequest_spec binding x
      frame.requestId rpcId request
    -- what is not taken is data, too
    have hlost : ∀ event ∈ lost, ∃ wire, event = .handed wire false ∧
        frameTypeOf wire = typeRpcData := by
      intro event hevent
      cases hspec.answered with
      | whole => exact absurd hevent List.not_mem_nil
      | cut => exact ⟨_, List.mem_singleton.1 hevent, rfl⟩
    have hdata : ∀ wire : List UInt8, frameTypeOf wire = typeRpcData → ¬ IsTerminal wire := by
      intro wire hwire hterminal
      rw [IsTerminal, hwire] at hterminal
      exact absurd hterminal (by decide)
    refine ⟨[.invoked request] ++ dataEvents rpcId frame.requestId 0 chunks ++ lost, typeRpcEnd,
      write16 rpcId ++ write16 (chunks.length % 65536) ++
        write32 (chunks.flatten.length % 4294967296) ++
        [statusDomainCommandService, final.code],
      (answerRequest binding x frame.requestId rpcId request).2, ?_, Or.inr (Or.inl rfl), ?_, ?_⟩
    · rw [hanswer, hspec.seen, hx, endWire]
      simp only [List.append_assoc]
    · intro wire taken hin
      rw [List.mem_append, List.mem_append, List.mem_singleton] at hin
      rcases hin with (hin | hin) | hin
      · cases hin
      · exact hdata wire (type_of_mem_dataEvents hin)
      · obtain ⟨w, hw, hwtype⟩ := hlost _ hin
        cases hw
        exact hdata wire hwtype
    · intro request' hin
      rw [List.mem_append, List.mem_append, List.mem_singleton] at hin
      rcases hin with (hin | hin) | hin
      · cases hin
        exact hgate
      · exact absurd hin not_invoked_of_dataEvents
      · obtain ⟨w, hw, -⟩ := hlost _ hin
        cases hw

end Rpc

end DeusOs
