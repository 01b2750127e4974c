import DeusOs.Host.Correlation
import DeusOs.Host.Model.RpcClient

/-!
# The host collects an answer

Frames that are on the way are returned one by one, whatever reads they
come in (`Holds.next`). So `RpcCoreAsync` puts together again an answer that
was sent in numbered frames (`rpcCoreAsync_spec`).
-/

namespace DeusOs

namespace Host

open Async (Prog bind_returned handle_returned)
open LittleEndian (read16 read32 write16 write32)

variable {c : Channel} {parts chunks : List (List UInt8)} {frame : BinaryFrame}
  {rest frames : List BinaryFrame} {rpcId requestId first fuel : ℕ} {output chunk : List UInt8}

/-! ## Frames on the way -/

/-- The frames that are queued, or will be when the reads have completed. -/
structure Holds (c : Channel) (parts : List (List UInt8)) (frames : List BinaryFrame) : Prop where
  nonempty : ∀ part ∈ parts, part ≠ []
  flowing : Flowing c.decoder parts.flatten
  frames : c.queuedFrames ++ onLink c parts.flatten = frames

/-- **The next frame is returned,** and the rest is left. -/
theorem Holds.next (h : Holds c parts (frame :: rest)) (hfree : ¬ c.Abandoned frame.requestId) :
    ∃ c' parts', Host.next c parts = .returned frame ⟨c', ()⟩ parts' ∧ Holds c' parts' rest ∧
      c'.abandonedRequests = c.abandonedRequests := by
  induction parts generalizing c with
  | nil =>
    have hframes := h.frames
    have hlink : onLink c [].flatten = [] := rfl
    rw [hlink, List.append_nil] at hframes
    have hkeep : c.discardIfAbandoned frame = (c, false) := by
      rw [Channel.discardIfAbandoned, not_not.1 (mt abandoned_iff_lookup.2 hfree)]
    have hnext := next_queued hframes []
    rw [hkeep] at hnext
    refine ⟨_, [], hnext, ⟨h.nonempty, h.flowing, ?_⟩, rfl⟩
    change rest ++ [] = rest
    rw [List.append_nil]
  | cons part parts ih =>
    rcases hqueue : c.queuedFrames with - | ⟨queued, queue⟩
    · -- a read is completed
      have hflowing : Flowing c.decoder (part ++ parts.flatten) := h.flowing
      obtain ⟨hclean, hrest, hlink⟩ := hflowing.read
      have hframes := h.frames
      rw [hqueue, List.nil_append, List.flatten_cons, hlink] at hframes
      rw [next_frames hqueue (h.nonempty part List.mem_cons_self) hclean]
      exact ih ⟨fun p hp => h.nonempty p (List.mem_cons_of_mem part hp), hrest, hframes⟩ hfree
    · have hframes := h.frames
      rw [hqueue, List.cons_append, List.cons.injEq] at hframes
      obtain ⟨rfl, hframes⟩ := hframes
      have hkeep : c.discardIfAbandoned queued = (c, false) := by
        rw [Channel.discardIfAbandoned, not_not.1 (mt abandoned_iff_lookup.2 hfree)]
      have hnext := next_queued hqueue (part :: parts)
      rw [hkeep] at hnext
      exact ⟨_, part :: parts, hnext, ⟨h.nonempty, h.flowing, hframes⟩, rfl⟩

/-! ## The frames of an answer -/

/-- The payload of a frame of data. -/
def dataPayload (rpcId sequence : ℕ) (chunk : List UInt8) : List UInt8 :=
  write16 rpcId ++ write16 sequence ++ chunk

/-- The payload of the frame that ends an answer. -/
def endPayload (rpcId count total : ℕ) (domain code : UInt8) : List UInt8 :=
  write16 rpcId ++ write16 count ++ write32 total ++ [domain, code]

/-- The frames of the chunks, numbered from `first` on. -/
def dataFrames (rpcId requestId : ℕ) : ℕ → List (List UInt8) → List BinaryFrame
  | _, [] => []
  | first, chunk :: chunks =>
    frameOf FrameType.rpcData 0 requestId (dataPayload rpcId (first % 65536) chunk) ::
      dataFrames rpcId requestId (first + 1) chunks

theorem takeFrame_of_data {got got' : Collected}
    (hcommon : validateCommonResponseFrame frame = .ok ()) (hid : frame.requestId = requestId)
    (htype : frame.type = FrameType.rpcData) (htake : takeData rpcId got frame.payload = .ok got') :
    takeFrame rpcId requestId got frame = .ok (.inl got') := by
  have hother : ¬ frame.type = FrameType.protocolError := by
    rw [htype]
    decide
  rw [takeFrame, hcommon]
  dsimp only [bind, Except.bind]
  rw [if_neg (not_not.2 hid), if_neg hother, if_pos htype, htake]
  rfl

theorem takeFrame_of_end {got : Collected} {result : RpcResult}
    (hcommon : validateCommonResponseFrame frame = .ok ()) (hid : frame.requestId = requestId)
    (htype : frame.type = FrameType.rpcEnd)
    (htake : takeEnd rpcId requestId got frame.payload = .ok result) :
    takeFrame rpcId requestId got frame = .ok (.inr result) := by
  have hother : ¬ frame.type = FrameType.protocolError := by
    rw [htype]
    decide
  have hdata : ¬ frame.type = FrameType.rpcData := by
    rw [htype]
    decide
  rw [takeFrame, hcommon]
  dsimp only [bind, Except.bind]
  rw [if_neg (not_not.2 hid), if_neg hother, if_neg hdata, if_neg (not_not.2 htype), htake]
  rfl

/-- **A chunk is taken** where its number is the expected one, and comes behind
what was taken before. -/
theorem takeFrame_data (hrpc : rpcId < 65536) (hchunk : chunk.length ≤ 48)
    (hbound : output.length + chunk.length ≤ 65536) (requestId first : ℕ) :
    takeFrame rpcId requestId ⟨output, first % 65536, first % 65536⟩
        (frameOf FrameType.rpcData 0 requestId (dataPayload rpcId (first % 65536) chunk)) =
      .ok (.inl ⟨output ++ chunk, (first + 1) % 65536, (first + 1) % 65536⟩) := by
  have hlength : (dataPayload rpcId (first % 65536) chunk).length = 4 + chunk.length := by
    simp only [dataPayload, List.length_append, LittleEndian.length_write16]
  have hid : read16 (dataPayload rpcId (first % 65536) chunk) 0 = rpcId := by
    have hread := LittleEndian.read16_write16 hrpc [] (write16 (first % 65536) ++ chunk)
    rwa [List.nil_append, ← List.append_assoc] at hread
  have hseq : read16 (dataPayload rpcId (first % 65536) chunk) 2 = first % 65536 := by
    have hread := LittleEndian.read16_write16 (Nat.mod_lt first (by decide : 0 < 65536))
      (write16 rpcId) chunk
    rwa [← List.append_assoc] at hread
  have hdrop : (dataPayload rpcId (first % 65536) chunk).drop 4 = chunk := rfl
  have htake : takeData rpcId ⟨output, first % 65536, first % 65536⟩
      (dataPayload rpcId (first % 65536) chunk) =
        .ok ⟨output ++ chunk, (first + 1) % 65536, (first + 1) % 65536⟩ := by
    have hshort : ¬ (dataPayload rpcId (first % 65536) chunk).length < 4 := by omega
    have hmax : ¬ rpcDataChunkMax < chunk.length := Nat.not_lt.2 hchunk
    have hall : ¬ maxAggregatedOutputBytes < output.length + chunk.length := Nat.not_lt.2 hbound
    have hmod : (first % 65536 + 1) % 65536 = (first + 1) % 65536 := by omega
    rw [takeData, if_neg hshort]
    dsimp only
    rw [hdrop, hid, hseq, if_neg (not_not.2 rfl), if_neg (not_not.2 rfl), if_neg hmax, if_neg hall,
      hmod]
  exact takeFrame_of_data rfl rfl rfl htake

/-- **The end is taken,** where it tells what was taken: the number of chunks,
and the number of bytes. -/
theorem takeFrame_end {count total : ℕ} (hrpc : rpcId < 65536) (hcount : count < 65536)
    (htotal : total < 4294967296) (hlength : output.length = total) (requestId sequence : ℕ)
    (domain code : UInt8) :
    takeFrame rpcId requestId ⟨output, sequence, count⟩
        (frameOf FrameType.rpcEnd 0 requestId (endPayload rpcId count total domain code)) =
      .ok (.inr ⟨rpcId, requestId, count, total, domain, code, output⟩) := by
  have hid : read16 (endPayload rpcId count total domain code) 0 = rpcId := by
    have hread := LittleEndian.read16_write16 hrpc []
      (write16 count ++ (write32 total ++ [domain, code]))
    rwa [List.nil_append, ← List.append_assoc, ← List.append_assoc] at hread
  have hchunks : read16 (endPayload rpcId count total domain code) 2 = count := by
    have hread := LittleEndian.read16_write16 hcount (write16 rpcId)
      (write32 total ++ [domain, code])
    rwa [← List.append_assoc, ← List.append_assoc] at hread
  have hbytes : read32 (endPayload rpcId count total domain code) 4 = total := by
    have hread := LittleEndian.read32_write32 htotal (write16 rpcId ++ write16 count) [domain, code]
    rwa [← List.append_assoc] at hread
  have htake : takeEnd rpcId requestId ⟨output, sequence, count⟩
      (endPayload rpcId count total domain code) =
        .ok ⟨rpcId, requestId, count, total, domain, code, output⟩ := by
    have hten : ¬ (endPayload rpcId count total domain code).length ≠ 10 := not_not.2 rfl
    rw [takeEnd, if_neg hten, hid, hchunks, hbytes, if_neg (not_not.2 rfl), if_neg (not_not.2 rfl),
      if_neg (not_not.2 hlength.symm)]
    rfl
  exact takeFrame_of_end rfl rfl rfl htake

/-! ## The loop -/

/-- **The loop collects** the chunks that are left, and returns at the end. Each
turn takes one of the frames that are held. -/
theorem collect_spec {count total : ℕ} {domain code : UInt8} (hrpc : rpcId < 65536)
    (h : Holds c parts (dataFrames rpcId requestId first chunks ++
      [frameOf FrameType.rpcEnd 0 requestId (endPayload rpcId count total domain code)]))
    (hfree : ¬ c.Abandoned requestId) (hchunks : ∀ chunk ∈ chunks, chunk.length ≤ 48)
    (hcount : count = (first + chunks.length) % 65536)
    (htotal : total = output.length + chunks.flatten.length) (hbound : total ≤ 65536)
    (hfuel : chunks.length < fuel) :
    ∃ s rest, collect reads rpcId requestId fuel ⟨output, first % 65536, first % 65536⟩ ⟨c, ()⟩
        parts =
      .returned ⟨rpcId, requestId, count, total, domain, code, output ++ chunks.flatten⟩ s rest := by
  induction chunks generalizing c parts first output fuel with
  | nil =>
    obtain ⟨fuel, rfl⟩ := Nat.exists_eq_add_one_of_ne_zero (Nat.ne_of_gt hfuel)
    obtain ⟨c', parts', hnext, -, -⟩ := h.next hfree
    rw [List.length_nil, Nat.add_zero] at hcount
    rw [List.flatten_nil, List.length_nil, Nat.add_zero] at htotal
    have hlt : count < 65536 := by omega
    have htake := takeFrame_end hrpc hlt (by omega : total < 4294967296) htotal.symm
      requestId count domain code
    refine ⟨⟨c', ()⟩, parts', ?_⟩
    rw [collect, bind_returned hnext, ← hcount, htake, List.flatten_nil, List.append_nil]
    rfl
  | cons chunk chunks ih =>
    obtain ⟨fuel, rfl⟩ := Nat.exists_eq_add_one_of_ne_zero (Nat.ne_of_gt (Nat.zero_lt_of_lt hfuel))
    obtain ⟨c', parts', hnext, hrest, habandoned⟩ := h.next hfree
    rw [List.length_cons] at hcount hfuel
    rw [List.flatten_cons, List.length_append] at htotal
    rw [List.forall_mem_cons] at hchunks
    have htake := takeFrame_data hrpc hchunks.1 (by omega : output.length + chunk.length ≤ 65536)
      requestId first
    have hfree' : ¬ c'.Abandoned requestId := by
      rw [Channel.Abandoned, habandoned]
      exact hfree
    have hcount' : count = (first + 1 + chunks.length) % 65536 := by
      rw [hcount]
      congr 1
      omega
    have htotal' : total = (output ++ chunk).length + chunks.flatten.length := by
      rw [List.length_append]
      omega
    obtain ⟨s, left, hloop⟩ := ih hrest hfree' hchunks.2 hcount' htotal'
      (by omega : chunks.length < fuel)
    refine ⟨s, left, ?_⟩
    rw [collect, bind_returned hnext, htake, List.flatten_cons, ← List.append_assoc]
    exact hloop

/-- **`RpcCoreAsync` puts an answer together again,** in whatever pieces the
transport reads it. -/
theorem rpcCoreAsync_spec {c' : Channel} {count total : ℕ} {domain code flags : UInt8}
    {arguments : List (List UInt16)} {payload : List UInt8} (hrpc : rpcId < 65536)
    (hid : c.nextRequestId = (c', .ok requestId)) (hfree : ¬ c'.Abandoned requestId)
    (hpayload : encodePayload rpcId arguments = .ok payload)
    (hlen : payload.length ≤ maxPayloadBytes) (h : Holds c' parts (dataFrames rpcId requestId 0 chunks ++
      [frameOf FrameType.rpcEnd 0 requestId (endPayload rpcId count total domain code)]))
    (hchunks : ∀ chunk ∈ chunks, chunk.length ≤ 48) (hcount : count = chunks.length % 65536)
    (htotal : total = chunks.flatten.length) (hbound : total ≤ 65536)
    (hfuel : chunks.length < fuel) :
    ∃ s rest, rpcCoreAsync reads fuel rpcId arguments flags ⟨c, ()⟩ parts =
      .returned ⟨rpcId, requestId, count, total, domain, code, chunks.flatten⟩ s rest := by
  have hcount' : count = (0 + chunks.length) % 65536 := by rw [Nat.zero_add, hcount]
  have htotal' : total = ([] : List UInt8).length + chunks.flatten.length := by
    rw [List.length_nil, Nat.zero_add, htotal]
  obtain ⟨s, rest, hloop⟩ := collect_spec hrpc h hfree hchunks hcount' htotal' hbound hfuel
  have htake : onChannel Channel.nextRequestId (⟨c, ()⟩ : Conn Unit) parts =
      .returned requestId ⟨c', ()⟩ parts := by
    simp only [onChannel, Prog.act, hid]
  have htry : tryRpc reads fuel rpcId arguments flags requestId ⟨c', ()⟩ parts =
      .returned ⟨rpcId, requestId, count, total, domain, code, chunks.flatten⟩ s rest := by
    rw [tryRpc, hpayload, Async.lift_bind, encode_eq hlen, Async.lift_bind]
    have hwrite : writeAsync reads (wire FrameType.rpcRequest flags requestId payload)
        (⟨c', ()⟩ : Conn Unit) parts = .returned () ⟨c', ()⟩ parts := rfl
    rw [bind_returned hwrite]
    exact hloop
  refine ⟨s, rest, ?_⟩
  rw [rpcCoreAsync, bind_returned htake]
  exact handle_returned htry

end Host

end DeusOs
