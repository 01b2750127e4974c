import DeusOs.Host.Frame
import DeusOs.Rpc.Decoder

/-!
# What a frame is on the wire

The device's encoder and the host's write the same bytes
(`encode_agrees`). Fed to the parser between frames they are read as the
frame they were made of (`results_wire`), and what the parser returns as a
frame was on the wire byte for byte (`frameReady_wire`).
-/

namespace DeusOs

namespace Rpc

open Framing (Format State Event step run trace)
open Host (BinaryFrame)
open LittleEndian (read16 write16)
open Nor (Mem)

variable {frameType flags : UInt8} {requestId n : ℕ} {payload : List UInt8} {p : BinaryFrameParser}

/-! ## The encoder -/

/-- **The frame is finalised around the payload in the buffer,** which stays
where it is. -/
theorem bytes_finalizeInPlace (frameType flags : UInt8) (requestId n : ℕ) (wire : Mem) :
    (finalizeInPlace frameType flags requestId n wire).1.bytes 0 (12 + n) =
      Host.wire frameType flags requestId (wire.bytes 10 n) := by
  obtain ⟨start, hstart⟩ : ∃ start, start = [frameMagic0, frameMagic1, frameProtocolVersion,
    frameType, flags, 0] ++ write16 requestId ++ write16 n := ⟨_, rfl⟩
  have hlen : start.length = 10 := by rw [hstart]; rfl
  have hhead : (wire.store 0 start).bytes 0 10 = start := by
    have := Mem.bytes_store wire 0 start
    rwa [hlen] at this
  have htail : (wire.store 0 start).bytes 10 n = wire.bytes 10 n :=
    Mem.bytes_store_of_disjoint (Or.inr (by omega))
  have hbody : (wire.store 0 start).bytes 2 (8 + n) =
      Host.frameHeader frameType flags requestId n ++ wire.bytes 10 n := by
    have hdrop : (wire.store 0 start).bytes 2 8 = start.drop 2 := by
      have hsplit : (wire.store 0 start).bytes 0 (2 + 8) =
          (wire.store 0 start).bytes 0 2 ++ (wire.store 0 start).bytes 2 8 := Mem.bytes_add _ _ _ _
      have hdrop := congrArg (List.drop 2) (hhead.symm.trans hsplit)
      rw [hdrop, List.drop_left' (Mem.length_bytes _ _ _)]
    rw [Mem.bytes_add, hdrop, htail, hstart]
    rfl
  have hall : (wire.store 0 start).bytes 0 (10 + n) = start ++ wire.bytes 10 n := by
    rw [Mem.bytes_add, hhead, Nat.zero_add, htail]
  have hcrc := Mem.bytes_store (wire.store 0 start) (10 + n)
    (write16 (crc16CcittFalse ((wire.store 0 start).bytes 2 (8 + n))).toNat)
  rw [LittleEndian.length_write16] at hcrc
  have hsum : 12 + n = 10 + n + 2 := by omega
  unfold finalizeInPlace
  dsimp only
  rw [← hstart, hsum, Mem.bytes_add]
  unfold frameFixedPrefixBytes
  rw [Mem.bytes_store_of_disjoint (by omega), hall, Nat.zero_add, hcrc, hbody, Host.wire,
    Mem.length_bytes, hstart]
  simp only [List.append_assoc]
  rfl

/-- **Device and host encode alike.** The same payload gives the same bytes, and
the device needs no more room than these. -/
theorem encode_agrees (hlen : payload.length ≤ 132) {capacity : ℕ}
    (hcap : 12 + payload.length ≤ capacity) (frameType flags : UInt8) (requestId : ℕ) (wire : Mem) :
    (frameEncode frameType flags requestId payload wire capacity).2 = 12 + payload.length ∧
      Host.encode frameType flags requestId payload =
        .ok ((frameEncode frameType flags requestId payload wire capacity).1.bytes 0
          (frameEncode frameType flags requestId payload wire capacity).2) := by
  have henc : frameEncode frameType flags requestId payload wire capacity =
      finalizeInPlace frameType flags requestId payload.length
        (wire.store frameFixedPrefixBytes payload) := by
    unfold frameEncode frameMaxPayload frameFixedPrefixBytes frameCrcBytes
    rw [if_neg (by omega), if_neg (by omega)]
  have hsnd : (frameEncode frameType flags requestId payload wire capacity).2 =
      12 + payload.length := by
    rw [henc]
    change 10 + payload.length + 2 = _
    omega
  refine ⟨hsnd, ?_⟩
  rw [hsnd, henc, bytes_finalizeInPlace, Host.encode_eq hlen]
  exact congrArg (fun body => Except.ok (Host.wire frameType flags requestId body))
    (Mem.bytes_store wire 10 payload).symm

/-! ## Valid frames -/

/-- A header and a payload with their checksum. -/
def summed (header payload : List UInt8) : List UInt8 :=
  header ++ payload ++ write16 (Crc16.ccittFalse (header ++ payload)).toNat

/-- A header, and a payload of the length that it announces. -/
structure Valid (header payload : List UInt8) : Prop where
  eight : header.length = 8
  length : payload.length = read16 header 6
  max : payload.length ≤ 132

variable {header : List UInt8}

theorem Valid.length_summed (h : Valid header payload) :
    (summed header payload).length = 10 + payload.length := by
  have h8 := h.eight
  simp only [summed, List.length_append, LittleEndian.length_write16]
  omega

/-- **A valid frame is whole.** -/
theorem Valid.whole (h : Valid header payload) : frameFormat.Whole (summed header payload) := by
  have hmax := h.max
  have hlen := h.length
  have hsplit : summed header payload =
      header ++ (payload ++ write16 (Crc16.ccittFalse (header ++ payload)).toNat) := by
    rw [summed, List.append_assoc]
  refine ⟨?_, ?_, ?_⟩
  · rw [h.length_summed, hsplit, whole_of_header h.eight, hlen]
  · rw [hsplit, size_of_header h.eight, ← hlen]
    exact hmax
  · refine (checksOf_append (header ++ payload) _ _).mpr ?_
    have := (Crc16.ccittFalse (header ++ payload)).toNat_lt
    rw [Nor.le16, UInt8.toNat_ofNat', UInt8.toNat_ofNat']
    omega

/-- The frame that a header and a payload make. -/
def frameOfParts (header payload : List UInt8) : BinaryFrame where
  version := header.getD 0 0
  type := header.getD 1 0
  flags := header.getD 2 0
  reserved := header.getD 3 0
  requestId := read16 header 4
  payload := payload

/-- A valid frame that is held is its header and payload. -/
theorem Valid.frameOfHeld (h : Valid header payload) :
    frameOfHeld (summed header payload) = frameOfParts header payload :=
  frameOfHeld_append h.eight _ _

/-- The header that the encoders write. -/
theorem valid_frameHeader (frameType flags : UInt8) (requestId : ℕ) (hlen : payload.length ≤ 132) :
    Valid (Host.frameHeader frameType flags requestId payload.length) payload := by
  refine ⟨rfl, ?_, hlen⟩
  have hread := LittleEndian.read16_write16 (v := payload.length) (by omega)
    ([Host.protocolVersion, frameType, flags, 0] ++ write16 requestId) []
  exact hread.symm

/-- The parts of a frame that the host encodes make the frame. -/
theorem frameOfParts_frameHeader (hid : requestId < 65536) :
    frameOfParts (Host.frameHeader frameType flags requestId payload.length) payload =
      Host.frameOf frameType flags requestId payload := by
  have hread : read16 (Host.frameHeader frameType flags requestId payload.length) 4 = requestId :=
    LittleEndian.read16_write16 hid [Host.protocolVersion, frameType, flags, 0]
      (write16 payload.length)
  rw [frameOfParts, hread]
  rfl

/-! ## What the parser returns -/

/-- A view that the parser filled in. -/
theorem fits_of_results (h : Ordered p) {bytes : List UInt8} {v : BinaryFrameView}
    (hv : FeedResult.frameReady v ∈ parserResults p bytes) : v.Fits := by
  induction bytes generalizing p with
  | nil => exact absurd hv (by simp [parserResults])
  | cons byte bytes ih =>
    rw [parserResults, List.mem_cons] at hv
    rcases hv with hv | hv
    · exact fits_of_feed h hv.symm
    · exact ih (feed_refines h byte).1 hv

/-- Quiet is consumed, and a frame is ready. -/
theorem results_of_events {results : List FeedResult} {k : ℕ} {held : List UInt8}
    (h : results.map FeedResult.event = List.replicate k .quiet ++ [.frame held]) :
    ∃ v : BinaryFrameView, results = List.replicate k .consumed ++ [.frameReady v] ∧
      v.held = held := by
  induction k generalizing results with
  | zero =>
    obtain ⟨r, rfl⟩ : ∃ r, results = [r] := by
      have hlen := congrArg List.length h
      rw [List.length_map] at hlen
      exact List.length_eq_one_iff.mp hlen
    have hr : r.event = .frame held := by simpa using h
    cases r with
    | frameReady v => exact ⟨v, rfl, Event.frame.inj hr⟩
    | _ => cases hr
  | succ k ih =>
    rcases results with - | ⟨r, results⟩
    · exact absurd h (by simp [List.replicate_succ])
    · rw [List.replicate_succ, List.map_cons, List.cons_append, List.cons.injEq] at h
      obtain ⟨v, rfl, hv⟩ := ih h.2
      have hr := h.1
      cases r with
      | consumed => exact ⟨v, rfl, hv⟩
      | _ => cases hr

/-- **A valid frame is delivered** to a parser between frames, with its last
byte. -/
theorem results_valid (hs : p.state = .idle ∨ p.state = .resync) (h : Valid header payload) :
    ∃ v : BinaryFrameView,
      parserResults p ([frameMagic0, frameMagic1] ++ summed header payload) =
        List.replicate (11 + payload.length) .consumed ++ [.frameReady v] ∧
      v.frame = frameOfParts header payload ∧ v.payloadLength = payload.length := by
  -- the magic leaves nothing of what the parser held before
  obtain ⟨q, hq, hpos, hresults⟩ : ∃ q, Ordered q ∧ q.position = .inside [] ∧
      ∀ bytes, parserResults p (frameMagic0 :: frameMagic1 :: bytes) =
        .consumed :: .consumed :: parserResults q bytes := by
    rcases hs with hs | hs
    · refine ⟨parserBegin { p with state := .magic1 }, ordered_begin _, rfl, fun bytes => ?_⟩
      simp only [parserResults, parserFeed, hs, if_true]
    · refine ⟨parserBegin { p with state := .resyncMagic1 }, ordered_begin _, rfl, fun bytes => ?_⟩
      simp only [parserResults, parserFeed, hs, if_true]
  obtain ⟨-, -, hevents⟩ := run_refines hq (summed header payload)
  have htrace := (Framing.trace_wire (s := .outside) trivial h.whole).2
  have hmarks : trace frameFormat .outside (frameFormat.wire (summed header payload)) =
      .quiet :: .quiet :: trace frameFormat (.inside []) (summed header payload) := rfl
  have hlen : (summed header payload).length + 1 = 9 + payload.length + 1 + 1 := by
    rw [h.length_summed]
    omega
  rw [hmarks, hlen, List.replicate_succ, List.replicate_succ, List.cons_append, List.cons_append,
    List.cons.injEq, List.cons.injEq, ← hpos] at htrace
  obtain ⟨v, hv, hheld⟩ := results_of_events (hevents.trans htrace.2.2)
  have hmem : FeedResult.frameReady v ∈ parserResults q (summed header payload) := by
    rw [hv]
    simp
  have hfits : v.Fits := fits_of_results hq hmem
  have hframe : v.frame = frameOfParts header payload := by
    rw [← frameOfHeld_held hfits, hheld, h.frameOfHeld]
  refine ⟨v, ?_, hframe, ?_⟩
  · have hcount : 11 + payload.length = 9 + payload.length + 1 + 1 := by omega
    rw [hcount, List.replicate_succ, List.replicate_succ]
    exact (hresults _).trans (congrArg (fun rs => .consumed :: .consumed :: rs) hv)
  · rw [← hfits.payload]
    exact congrArg (fun f : BinaryFrame => f.payload.length) hframe

/-- **A frame that is ready was on the wire,** byte for byte. -/
theorem frameReady_wire {bytes : List UInt8} {byte : UInt8} {v : BinaryFrameView}
    (h : (parserFeed (parserRun (parserInit p) bytes) byte).2 = .frameReady v) :
    v.Fits ∧ ∃ before, bytes ++ [byte] =
      before ++ ([frameMagic0, frameMagic1] ++ v.body ++ write16 (crc16CcittFalse v.body).toNat) := by
  obtain ⟨hordered, hpos, -⟩ := run_refines (ordered_init p) bytes
  have hstep := (feed_refines hordered byte).2
  rw [hpos] at hstep
  have hevent : (step frameFormat byte (run frameFormat .outside bytes)).2 = .frame v.held := by
    have := congrArg Prod.snd hstep
    rw [h] at this
    exact this
  obtain ⟨-, before, hbefore⟩ := Framing.run_frame hevent
  exact ⟨fits_of_feed hordered h, before, hbefore⟩

/-- **The codec is exact.** Device and host write a frame alike; between
frames the parser takes it in and returns it with its last byte; and a
frame that the parser returns is the end of what it was fed. -/
theorem codec_exact :
    (∀ (frameType flags : UInt8) (requestId : ℕ) (payload : List UInt8) (wire : Mem) (capacity : ℕ)
      (p : BinaryFrameParser), requestId < 65536 → payload.length ≤ 132 →
      12 + payload.length ≤ capacity → p.state = .idle ∨ p.state = .resync →
      let encoded := frameEncode frameType flags requestId payload wire capacity
      encoded.2 = 12 + payload.length ∧
        Host.encode frameType flags requestId payload = .ok (encoded.1.bytes 0 encoded.2) ∧
        ∃ v : BinaryFrameView,
          parserResults p (encoded.1.bytes 0 encoded.2) =
            List.replicate (encoded.2 - 1) .consumed ++ [.frameReady v] ∧
          v.frame = Host.frameOf frameType flags requestId payload ∧
          v.payloadLength = payload.length) ∧
    ∀ (p : BinaryFrameParser) (bytes : List UInt8) (byte : UInt8) (v : BinaryFrameView),
      (parserFeed (parserRun (parserInit p) bytes) byte).2 = .frameReady v →
      v.bytes.length = v.payloadLength ∧ ∃ before, bytes ++ [byte] = before ++ ([0xA5, 0x5A] ++
        ([v.version, v.frameType, v.flags, v.reserved] ++ write16 v.requestId ++
          write16 v.payloadLength ++ v.bytes) ++ write16 (crc16CcittFalse v.body).toNat) := by
  refine ⟨?_, ?_⟩
  · intro frameType flags requestId payload wire capacity p hid hlen hcap hs
    obtain ⟨hcount, hencode⟩ := encode_agrees hlen hcap frameType flags requestId wire
    obtain ⟨v, hresults, hframe, hlength⟩ := results_valid hs
      (valid_frameHeader frameType flags requestId hlen)
    have hbytes : (frameEncode frameType flags requestId payload wire capacity).1.bytes 0
        (frameEncode frameType flags requestId payload wire capacity).2 =
          [frameMagic0, frameMagic1] ++
            summed (Host.frameHeader frameType flags requestId payload.length) payload := by
      have := (Host.encode_eq hlen).symm.trans hencode
      exact (Except.ok.inj this).symm
    refine ⟨hcount, hencode, v, ?_, ?_, hlength⟩
    · have hless : 12 + payload.length - 1 = 11 + payload.length := by omega
      rw [hbytes, hresults, hcount, hless]
    · rw [hframe, frameOfParts_frameHeader hid]
  · intro p bytes byte v h
    obtain ⟨hfits, before, hbefore⟩ := frameReady_wire h
    exact ⟨hfits.payload, before, hbefore⟩

/-- One byte of payload is encoded, and parsed behind nothing. -/
theorem codec_exact_ping :
    ∃ v : BinaryFrameView,
      parserResults (parserInit ⟨.idle, fun _ => 0, fun _ => 0, 0, 0, 0, 0, 0, 0, 0, 0, 0⟩)
        ((frameEncode 1 0 7 [0xA5] (fun _ => 0) 144).1.bytes 0
          (frameEncode 1 0 7 [0xA5] (fun _ => 0) 144).2) =
        List.replicate 12 .consumed ++ [.frameReady v] ∧
      v.frame = Host.frameOf 1 0 7 [0xA5] := by
  obtain ⟨-, -, v, hresults, hframe, -⟩ := codec_exact.1 1 0 7 [0xA5] (fun _ => 0) 144
    (parserInit ⟨.idle, fun _ => 0, fun _ => 0, 0, 0, 0, 0, 0, 0, 0, 0, 0⟩) (by decide) (by decide)
    (by decide) (Or.inl rfl)
  exact ⟨v, hresults, hframe⟩

end Rpc

end DeusOs
