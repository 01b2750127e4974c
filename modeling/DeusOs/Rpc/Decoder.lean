import DeusOs.Host.Model.Frame
import DeusOs.Rpc.Frame

/-!
# The host's decoder and the device's parser

The host's decoder is the same reader of frames as the device's parser
(`feedByte_refines`), with buffers in place of indices and a checksum that
it computes at the end. So the two make the same of every stream.
-/

namespace DeusOs

namespace Rpc

open Framing (Format State Event step run trace)
open Host (BinaryFrame BinaryFrameDecoder DecodeEvent DecoderState FrameDecodeErrorKind)
open LittleEndian (read16 write16)
open Nor (Mem)

/-! ## What the decoder holds -/

/-- What the decoder holds of a frame. -/
def decoderHeld (d : BinaryFrameDecoder) : List UInt8 :=
  match d.state with
  | .header => d.header
  | .payload | .crcLow => d.header ++ d.payload
  | .crcHigh => d.header ++ d.payload ++ [d.receivedCrcLow]
  | _ => []

/-- Where the decoder is. -/
def decoderPosition (d : BinaryFrameDecoder) : State UInt8 :=
  match d.state with
  | .idle => .outside
  | .magic1 => .marked
  | .resync => .lost
  | .resyncMagic1 => .lostMarked
  | _ => .inside (decoderHeld d)

/-- The whole header is there, and announces a payload that fits. -/
structure HeaderRead (d : BinaryFrameDecoder) : Prop where
  header : d.header.length = 8
  length : d.payloadLength = read16 d.header 6
  max : d.payloadLength ≤ 132

/-- The state of the decoder, by where it is. -/
def DecoderHolds (d : BinaryFrameDecoder) : DecoderState → Prop
  | .header => d.header.length < 8 ∧ d.payload = []
  | .payload => HeaderRead d ∧ d.payload.length < d.payloadLength
  | .crcLow | .crcHigh => HeaderRead d ∧ d.payload.length = d.payloadLength
  | _ => True

/-- The decoder is in order. -/
def DecoderOrdered (d : BinaryFrameDecoder) : Prop := DecoderHolds d d.state

/-- The frame that is held whole. -/
def frameOfHeld (held : List UInt8) : BinaryFrame where
  version := held.getD 0 0
  type := held.getD 1 0
  flags := held.getD 2 0
  reserved := held.getD 3 0
  requestId := read16 held 4
  payload := (held.drop 8).take (held.length - 10)

/-- What the host reports of what the reader produces. -/
def decodeEvent : Event UInt8 → Option DecodeEvent
  | .quiet | .text => none
  | .unmarked _ => some (.error .sync)
  | .tooLong => some (.error .length)
  | .bad => some (.error .crc)
  | .frame held => some (.frame (frameOfHeld held))

/-! ## The decoder refines the reader -/

variable {d : BinaryFrameDecoder}

/-- A decoder that was reset is in order. -/
theorem decoderOrdered_reset : DecoderOrdered .reset := trivial

/-- What a byte did. -/
def DecoderRefines (d : BinaryFrameDecoder) (byte : UInt8)
    (r : BinaryFrameDecoder × Option DecodeEvent) : Prop :=
  DecoderOrdered r.1 ∧ (step frameFormat byte (decoderPosition d)).1 = decoderPosition r.1 ∧
    decodeEvent (step frameFormat byte (decoderPosition d)).2 = r.2

/-- The fields are in the header. -/
theorem frameOfHeld_append {header payload : List UInt8} (h : header.length = 8) (lo hi : UInt8) :
    frameOfHeld (header ++ payload ++ [lo, hi]) =
      { version := header.getD 0 0, type := header.getD 1 0, flags := header.getD 2 0
        reserved := header.getD 3 0, requestId := read16 header 4, payload } := by
  have hget : ∀ i < 8, (header ++ payload ++ [lo, hi]).getD i 0 = header.getD i 0 := by
    intro i hi'
    rw [List.append_assoc, List.getD_append _ _ _ _ (by omega)]
  have hid : read16 (header ++ payload ++ [lo, hi]) 4 = read16 header 4 := by
    rw [read16, read16, hget 4 (by decide), hget 5 (by decide)]
  have hpayload : ((header ++ payload ++ [lo, hi]).drop 8).take
      ((header ++ payload ++ [lo, hi]).length - 10) = payload := by
    have hlen : (header ++ payload ++ [lo, hi]).length - 10 = payload.length := by
      simp only [List.length_append, List.length_cons, List.length_nil, h]
      omega
    rw [hlen, List.append_assoc, List.drop_left' h, List.take_left' rfl]
  rw [frameOfHeld, hget 0 (by decide), hget 1 (by decide), hget 2 (by decide), hget 3 (by decide),
    hid, hpayload]

theorem refines_feedHeader (h : DecoderOrdered d) (hs : d.state = .header) (byte : UInt8) :
    DecoderRefines d byte (Host.feedHeader d byte) := by
  obtain ⟨hlen, hpayload⟩ : d.header.length < 8 ∧ d.payload = [] := by
    rwa [DecoderOrdered, hs] at h
  have hstep : step frameFormat byte (decoderPosition d) =
      Framing.claim frameFormat (d.header ++ [byte]) := by
    rw [decoderPosition, hs, decoderHeld, hs]
    rfl
  have hlength : (d.header ++ [byte]).length = d.header.length + 1 := List.length_append
  rw [DecoderRefines, hstep]
  unfold Host.feedHeader
  dsimp only
  generalize d.header ++ [byte] = header at hlength ⊢
  by_cases hmore : header.length ≠ Host.headerBytesAfterMagic
  · rw [if_pos hmore]
    have h8 : header.length < 8 := by
      unfold Host.headerBytesAfterMagic at hmore
      omega
    rw [Framing.claim_part (Or.inl h8)]
    refine ⟨?_, ?_, rfl⟩
    · rw [DecoderOrdered, hs]
      exact ⟨h8, hpayload⟩
    · simp only [decoderPosition, decoderHeld, hs]
  · rw [if_neg hmore]
    have h8 : header.length = 8 := not_not.mp hmore
    by_cases hmax : Host.maxPayloadBytes < read16 header 6
    · rw [if_pos hmax, claim_tooLong h8 hmax]
      exact ⟨trivial, rfl, rfl⟩
    · rw [if_neg hmax]
      have hmax := Nat.le_of_not_lt hmax
      rw [Framing.claim_part (part_header h8 hmax)]
      by_cases hzero : read16 header 6 = 0
      · -- no payload: the checksum follows
        rw [if_pos hzero]
        refine ⟨⟨⟨h8, rfl, hmax⟩, by dsimp only; rw [hpayload, hzero]; rfl⟩, ?_, rfl⟩
        simp only [decoderPosition, decoderHeld, hpayload, List.append_nil]
      · rw [if_neg hzero]
        refine ⟨⟨⟨h8, rfl, hmax⟩, Nat.pos_of_ne_zero hzero⟩, ?_, rfl⟩
        simp only [decoderPosition, decoderHeld, List.append_nil]

theorem refines_feedPayload (h : DecoderOrdered d) (hs : d.state = .payload) (byte : UInt8) :
    DecoderRefines d byte
      ({ d with
          payload := d.payload ++ [byte]
          state := if (d.payload ++ [byte]).length = d.payloadLength then .crcLow else .payload },
        none) := by
  obtain ⟨hread, hlen⟩ : HeaderRead d ∧ d.payload.length < d.payloadLength := by
    rwa [DecoderOrdered, hs] at h
  have hlength : (d.payload ++ [byte]).length = d.payload.length + 1 := List.length_append
  have hstep : step frameFormat byte (decoderPosition d) =
      Framing.claim frameFormat (d.header ++ (d.payload ++ [byte])) := by
    rw [← List.append_assoc, decoderPosition, hs, decoderHeld, hs]
    rfl
  have hpart : frameFormat.Part (d.header ++ (d.payload ++ [byte])) := by
    have hmax := hread.max
    have hann := hread.length
    exact part_of_header hread.header (by omega) (by omega)
  rw [DecoderRefines, hstep, Framing.claim_part hpart]
  by_cases hlast : (d.payload ++ [byte]).length = d.payloadLength
  · simp only [if_pos hlast]
    exact ⟨⟨⟨hread.header, hread.length, hread.max⟩, hlast⟩, rfl, rfl⟩
  · simp only [if_neg hlast]
    exact ⟨⟨⟨hread.header, hread.length, hread.max⟩, by dsimp only; omega⟩, rfl, rfl⟩

theorem refines_crcLow (h : DecoderOrdered d) (hs : d.state = .crcLow) (byte : UInt8) :
    DecoderRefines d byte ({ d with receivedCrcLow := byte, state := .crcHigh }, none) := by
  obtain ⟨hread, hlen⟩ : HeaderRead d ∧ d.payload.length = d.payloadLength := by
    rwa [DecoderOrdered, hs] at h
  have hlength : (d.payload ++ [byte]).length = d.payload.length + 1 := List.length_append
  have hpart : frameFormat.Part (d.header ++ (d.payload ++ [byte])) := by
    have hmax := hread.max
    have hann := hread.length
    exact part_of_header hread.header (by omega) (by omega)
  have hstep : step frameFormat byte (decoderPosition d) =
      (.inside (d.header ++ d.payload ++ [byte]), .quiet) := by
    rw [← List.append_assoc] at hpart
    rw [decoderPosition, hs, decoderHeld, hs]
    exact Framing.claim_part hpart
  rw [DecoderRefines, hstep]
  exact ⟨⟨⟨hread.header, hread.length, hread.max⟩, hlen⟩, rfl, rfl⟩

theorem refines_crcHigh (h : DecoderOrdered d) (hs : d.state = .crcHigh) (byte : UInt8) :
    DecoderRefines d byte (.reset, some (Host.completeFrame d byte)) := by
  obtain ⟨hread, hlen⟩ : HeaderRead d ∧ d.payload.length = d.payloadLength := by
    rwa [DecoderOrdered, hs] at h
  obtain ⟨body, hbody⟩ : ∃ body, body = d.header ++ d.payload := ⟨_, rfl⟩
  have hstep : step frameFormat byte (decoderPosition d) =
      Framing.claim frameFormat (body ++ [d.receivedCrcLow, byte]) := by
    have hheld : decoderHeld d ++ [byte] = body ++ [d.receivedCrcLow, byte] := by
      rw [decoderHeld, hs, hbody, List.append_assoc]
      rfl
    rw [← hheld, decoderPosition, hs]
    rfl
  have hclaim : Framing.claim frameFormat (body ++ [d.receivedCrcLow, byte]) =
      if checksOf (body ++ [d.receivedCrcLow, byte]) = true then
        (.outside, .frame (body ++ [d.receivedCrcLow, byte]))
      else (.outside, .bad) := by
    rw [hbody]
    exact claim_whole hread.header (by rw [hlen]; exact hread.max) (by rw [hlen, hread.length])
      d.receivedCrcLow byte
  have hagree : d.receivedCrcLow.toUInt16 ||| (byte.toUInt16 <<< (8 : UInt16)) =
      Host.crc16Compute body ↔ checksOf (body ++ [d.receivedCrcLow, byte]) = true := by
    rw [checksOf_append, ← UInt16.toNat_inj, toNat_or_shiftLeft]
    rfl
  rw [DecoderRefines, hstep, hclaim]
  unfold Host.completeFrame
  dsimp only
  rw [← hbody]
  by_cases hok : d.receivedCrcLow.toUInt16 ||| (byte.toUInt16 <<< (8 : UInt16)) =
      Host.crc16Compute body
  · rw [if_neg (not_not.mpr hok), if_pos (hagree.mp hok)]
    refine ⟨trivial, rfl, ?_⟩
    rw [decodeEvent, hbody, frameOfHeld_append hread.header]
  · rw [if_pos hok, if_neg (mt hagree.mpr hok)]
    exact ⟨trivial, rfl, rfl⟩

theorem decoderRefines_begin (d : BinaryFrameDecoder) :
    DecoderOrdered { d with state := .header, header := [], payload := [], payloadLength := 0 } :=
  ⟨Nat.succ_pos 7, rfl⟩

/-- **`FeedByte` reads frames.** Each byte is a step of the same reader as the
device's. -/
theorem feedByte_refines (h : DecoderOrdered d) (byte : UInt8) :
    DecoderRefines d byte (Host.feedByte d byte) := by
  cases hs : d.state with
  | idle =>
    have hpos : decoderPosition d = .outside := by simp only [decoderPosition, hs]
    simp only [Host.feedByte, hs]
    rw [DecoderRefines, hpos]
    by_cases h0 : byte = Host.magic0
    · have hstep : step frameFormat byte .outside = (.marked, .quiet) := if_pos h0
      rw [if_pos h0, hstep]
      exact ⟨trivial, rfl, rfl⟩
    · have hstep : step frameFormat byte .outside = (.outside, .text) := if_neg h0
      rw [if_neg h0, hstep]
      exact ⟨h, hpos.symm, rfl⟩
  | magic1 =>
    have hpos : decoderPosition d = .marked := by simp only [decoderPosition, hs]
    simp only [Host.feedByte, hs]
    rw [DecoderRefines, hpos]
    by_cases h1 : byte = Host.magic1
    · have hstep : step frameFormat byte .marked = (.inside [], .quiet) := if_pos h1
      rw [if_pos h1, hstep]
      exact ⟨decoderRefines_begin d, rfl, rfl⟩
    · rw [if_neg h1]
      by_cases h0 : byte = Host.magic0
      · have hstep : step frameFormat byte .marked = (.marked, .unmarked true) :=
          (if_neg h1).trans (if_pos h0)
        rw [if_pos h0, hstep]
        exact ⟨trivial, rfl, rfl⟩
      · have hstep : step frameFormat byte .marked = (.outside, .unmarked false) :=
          (if_neg h1).trans (if_neg h0)
        rw [if_neg h0, hstep]
        exact ⟨trivial, rfl, rfl⟩
  | header =>
    simp only [Host.feedByte, hs]
    exact refines_feedHeader h hs byte
  | payload =>
    simp only [Host.feedByte, hs]
    exact refines_feedPayload h hs byte
  | crcLow =>
    simp only [Host.feedByte, hs]
    exact refines_crcLow h hs byte
  | crcHigh =>
    simp only [Host.feedByte, hs]
    exact refines_crcHigh h hs byte
  | resync =>
    have hpos : decoderPosition d = .lost := by simp only [decoderPosition, hs]
    simp only [Host.feedByte, hs]
    rw [DecoderRefines, hpos]
    by_cases h0 : byte = Host.magic0
    · have hstep : step frameFormat byte .lost = (.lostMarked, .quiet) := if_pos h0
      rw [if_pos h0, hstep]
      exact ⟨trivial, rfl, rfl⟩
    · have hstep : step frameFormat byte .lost = (.lost, .quiet) := if_neg h0
      rw [if_neg h0, hstep]
      exact ⟨h, hpos.symm, rfl⟩
  | resyncMagic1 =>
    have hpos : decoderPosition d = .lostMarked := by simp only [decoderPosition, hs]
    simp only [Host.feedByte, hs]
    rw [DecoderRefines, hpos]
    by_cases h1 : byte = Host.magic1
    · have hstep : step frameFormat byte .lostMarked = (.inside [], .quiet) := if_pos h1
      rw [if_pos h1, hstep]
      exact ⟨decoderRefines_begin d, rfl, rfl⟩
    · rw [if_neg h1]
      by_cases h0 : byte = Host.magic0
      · have hstep : step frameFormat byte .lostMarked = (.lostMarked, .quiet) :=
          (if_neg h1).trans (if_pos h0)
        rw [if_neg (not_not.mpr h0), hstep]
        exact ⟨h, hpos.symm, rfl⟩
      · have hstep : step frameFormat byte .lostMarked = (.lost, .quiet) :=
          (if_neg h1).trans (if_neg h0)
        rw [if_pos h0, hstep]
        exact ⟨trivial, rfl, rfl⟩

/-- What the decoder produces, byte after byte. -/
def decoderResults (d : BinaryFrameDecoder) : List UInt8 → List (Option DecodeEvent)
  | [] => []
  | byte :: bytes => (Host.feedByte d byte).2 :: decoderResults (Host.feedByte d byte).1 bytes

/-- **The host's decoder runs the format:** in order, from position to position,
with the events of the trace as its results. -/
theorem feed_refines_decoder (h : DecoderOrdered d) (bytes : List UInt8) :
    DecoderOrdered (Host.feed d bytes).1 ∧
      decoderPosition (Host.feed d bytes).1 = run frameFormat (decoderPosition d) bytes ∧
      decoderResults d bytes = (trace frameFormat (decoderPosition d) bytes).map decodeEvent := by
  induction bytes generalizing d with
  | nil => exact ⟨h, rfl, rfl⟩
  | cons byte bytes ih =>
    obtain ⟨hordered, hpos, hevent⟩ := feedByte_refines h byte
    obtain ⟨horder, hpos', hres⟩ := ih hordered
    refine ⟨horder, ?_, ?_⟩
    · rw [Framing.run_cons, hpos]
      exact hpos'
    · rw [decoderResults, hres, trace, List.map_cons, hpos, hevent]

/-! ## The two agree -/

/-- The state of the decoder that corresponds to one of the parser. -/
def ParserState.decoderState : ParserState → DecoderState
  | .idle => .idle
  | .magic1 => .magic1
  | .header => .header
  | .payload => .payload
  | .crc0 => .crcLow
  | .crc1 => .crcHigh
  | .resync => .resync
  | .resyncMagic1 => .resyncMagic1

/-- Parser and decoder are in the same state, and hold the same bytes of a
frame. -/
structure Corresponds (p : BinaryFrameParser) (d : BinaryFrameDecoder) : Prop where
  state : d.state = p.state.decoderState
  held : decoderHeld d = p.held

/-- The frame of a view. -/
def BinaryFrameView.frame (v : BinaryFrameView) : BinaryFrame where
  version := v.version
  type := v.frameType
  flags := v.flags
  reserved := v.reserved
  requestId := v.requestId
  payload := v.bytes

/-- What the host reports where the parser returns this. -/
def FeedResult.decoded : FeedResult → Option DecodeEvent
  | .text | .consumed => none
  | .frameReady v => some (.frame v.frame)
  | .syncErrorText | .syncErrorConsumed => some (.error .sync)
  | .crcError => some (.error .crc)
  | .lengthError => some (.error .length)

/-- The fields of a view that the parser filled in. -/
structure BinaryFrameView.Fits (v : BinaryFrameView) : Prop where
  requestId : v.requestId < 65536
  payloadLength : v.payloadLength ≤ 132
  payload : v.bytes.length = v.payloadLength

/-- A frame that a parser in order hands out fits. -/
theorem fits_of_feed {p : BinaryFrameParser} (h : Ordered p) {byte : UInt8} {v : BinaryFrameView}
    (hv : (parserFeed p byte).2 = .frameReady v) : v.Fits := by
  cases hs : p.state with
  | crc1 =>
    have hann : Announced p := by
      have := h.holds
      rw [hs] at this
      exact this.1
    simp only [parserFeed, hs, feedCrc1] at hv
    split at hv
    · cases hv
    · cases hv
      refine ⟨?_, hann.max, Mem.length_bytes _ _ _⟩
      dsimp only
      rw [or_shiftLeft]
      exact Nor.le16_lt _ _
  | idle => simp only [parserFeed, hs] at hv; split at hv <;> cases hv
  | magic1 =>
    simp only [parserFeed, hs] at hv
    split at hv
    · cases hv
    · split at hv <;> cases hv
  | header =>
    simp only [parserFeed, hs, feedHeader] at hv
    split at hv
    · split at hv
      · cases hv
      · split at hv <;> cases hv
    · cases hv
  | payload => simp only [parserFeed, hs, feedPayload] at hv; split at hv <;> cases hv
  | crc0 => simp only [parserFeed, hs] at hv; cases hv
  | resync => simp only [parserFeed, hs] at hv; cases hv
  | resyncMagic1 => simp only [parserFeed, hs] at hv; cases hv

/-- The frame that the view's bytes hold is the view's. -/
theorem frameOfHeld_held {v : BinaryFrameView} (h : v.Fits) : frameOfHeld v.held = v.frame := by
  have hheader : ([v.version, v.frameType, v.flags, v.reserved] ++ write16 v.requestId ++
      write16 v.payloadLength).length = 8 := rfl
  have hid : read16 ([v.version, v.frameType, v.flags, v.reserved] ++ write16 v.requestId ++
      write16 v.payloadLength) 4 = v.requestId :=
    LittleEndian.read16_write16 h.requestId [v.version, v.frameType, v.flags, v.reserved]
      (write16 v.payloadLength)
  have hsum : write16 (crc16CcittFalse v.body).toNat =
      [UInt8.ofNat (crc16CcittFalse v.body).toNat,
        UInt8.ofNat ((crc16CcittFalse v.body).toNat / 256)] := rfl
  rw [BinaryFrameView.held, hsum]
  unfold BinaryFrameView.body
  rw [frameOfHeld_append hheader, hid]
  rfl

theorem decodeEvent_event {p : BinaryFrameParser} (h : Ordered p) (byte : UInt8) :
    decodeEvent (parserFeed p byte).2.event = (parserFeed p byte).2.decoded := by
  cases hr : (parserFeed p byte).2 with
  | frameReady v =>
    simp only [FeedResult.event, decodeEvent, FeedResult.decoded,
      frameOfHeld_held (fits_of_feed h hr)]
  | _ => rfl

theorem map_decoded {p : BinaryFrameParser} (h : Ordered p) (bytes : List UInt8) :
    (parserResults p bytes).map FeedResult.decoded =
      ((parserResults p bytes).map FeedResult.event).map decodeEvent := by
  induction bytes generalizing p with
  | nil => rfl
  | cons byte bytes ih =>
    simp only [parserResults, List.map_cons, decodeEvent_event h, ih (feed_refines h byte).1]

/-- Which part of a frame comes next, behind what is held of it. -/
def nextPart (held : List UInt8) : ParserState :=
  if held.length < 8 then .header
  else if held.length < 8 + read16 held 6 then .payload
  else if held.length = 8 + read16 held 6 then .crc0
  else .crc1

theorem nextPart_append {header bs : List UInt8} (h : header.length = 8) :
    nextPart (header ++ bs) =
      if bs.length < read16 header 6 then .payload
      else if bs.length = read16 header 6 then .crc0 else .crc1 := by
  have hread : read16 (header ++ bs) 6 = read16 header 6 := by
    rw [read16, read16, List.getD_append _ _ _ _ (by omega), List.getD_append _ _ _ _ (by omega)]
  rw [nextPart, hread, List.length_append, h, if_neg (by omega)]
  simp only [Nat.add_lt_add_iff_left, Nat.add_left_cancel_iff]

/-- Inside a frame, what is held says where. -/
theorem state_of_position {p : BinaryFrameParser} (h : Ordered p) {held : List UInt8}
    (hpos : p.position = .inside held) : p.state = nextPart held ∧ p.held = held := by
  have hholds := h.holds
  have h8 : (p.header.bytes 0 8).length = 8 := Mem.length_bytes _ _ _
  cases hs : p.state with
  | header =>
    rw [hs] at hholds
    simp only [BinaryFrameParser.position, hs, State.inside.injEq] at hpos
    refine ⟨?_, hpos⟩
    rw [← hpos, BinaryFrameParser.held, hs, nextPart]
    simp only [Mem.length_bytes, if_pos hholds.1]
  | payload =>
    rw [hs] at hholds
    simp only [BinaryFrameParser.position, hs, State.inside.injEq] at hpos
    refine ⟨?_, hpos⟩
    rw [← hpos, BinaryFrameParser.held, hs]
    dsimp only
    rw [nextPart_append h8, Mem.length_bytes, if_pos (hholds.1.length ▸ hholds.2.1)]
  | crc0 =>
    rw [hs] at hholds
    simp only [BinaryFrameParser.position, hs, State.inside.injEq] at hpos
    refine ⟨?_, hpos⟩
    rw [← hpos, BinaryFrameParser.held, hs]
    dsimp only
    have hlen := hholds.1.length
    rw [nextPart_append h8, Mem.length_bytes, if_neg (by omega), if_pos hlen]
  | crc1 =>
    rw [hs] at hholds
    simp only [BinaryFrameParser.position, hs, State.inside.injEq] at hpos
    refine ⟨?_, hpos⟩
    rw [← hpos, BinaryFrameParser.held, hs]
    dsimp only
    have hlen := hholds.1.length
    rw [List.append_assoc, nextPart_append h8, List.length_append, Mem.length_bytes,
      List.length_singleton, if_neg (by omega), if_neg (by omega)]
  | idle => simp [BinaryFrameParser.position, hs] at hpos
  | magic1 => simp [BinaryFrameParser.position, hs] at hpos
  | resync => simp [BinaryFrameParser.position, hs] at hpos
  | resyncMagic1 => simp [BinaryFrameParser.position, hs] at hpos

theorem decoderState_of_position (h : DecoderOrdered d) {held : List UInt8}
    (hpos : decoderPosition d = .inside held) :
    d.state = (nextPart held).decoderState ∧ decoderHeld d = held := by
  cases hs : d.state with
  | header =>
    rw [DecoderOrdered, hs] at h
    simp only [decoderPosition, hs, State.inside.injEq] at hpos
    refine ⟨?_, hpos⟩
    rw [← hpos, decoderHeld, hs, nextPart]
    simp only [if_pos h.1, ParserState.decoderState]
  | payload =>
    rw [DecoderOrdered, hs] at h
    simp only [decoderPosition, hs, State.inside.injEq] at hpos
    refine ⟨?_, hpos⟩
    rw [← hpos, decoderHeld, hs]
    dsimp only
    rw [nextPart_append h.1.header, if_pos (h.1.length ▸ h.2)]
    rfl
  | crcLow =>
    rw [DecoderOrdered, hs] at h
    simp only [decoderPosition, hs, State.inside.injEq] at hpos
    refine ⟨?_, hpos⟩
    have hlen := h.1.length
    have hall := h.2
    rw [← hpos, decoderHeld, hs]
    dsimp only
    rw [nextPart_append h.1.header, if_neg (by omega), if_pos (by omega)]
    rfl
  | crcHigh =>
    rw [DecoderOrdered, hs] at h
    simp only [decoderPosition, hs, State.inside.injEq] at hpos
    refine ⟨?_, hpos⟩
    have hlen := h.1.length
    have hall := h.2
    rw [← hpos, decoderHeld, hs]
    dsimp only
    rw [List.append_assoc, nextPart_append h.1.header, List.length_append, List.length_singleton,
      if_neg (by omega), if_neg (by omega)]
    rfl
  | idle => simp [decoderPosition, hs] at hpos
  | magic1 => simp [decoderPosition, hs] at hpos
  | resync => simp [decoderPosition, hs] at hpos
  | resyncMagic1 => simp [decoderPosition, hs] at hpos

/-- In one place of a stream, the two correspond. -/
theorem corresponds_of_position {p : BinaryFrameParser} (hp : Ordered p) (hd : DecoderOrdered d)
    (hpos : p.position = decoderPosition d) : Corresponds p d := by
  cases hs : p.position with
  | inside held =>
    obtain ⟨hpstate, hpheld⟩ := state_of_position hp hs
    obtain ⟨hdstate, hdheld⟩ := decoderState_of_position hd (hpos.symm.trans hs)
    exact ⟨by rw [hdstate, hpstate], by rw [hdheld, hpheld]⟩
  | outside =>
    rw [hs] at hpos
    cases hp : p.state <;> cases hd : d.state <;>
      simp_all [BinaryFrameParser.position, decoderPosition]
    exact ⟨by rw [hp, hd]; rfl, by simp only [decoderHeld, hd, BinaryFrameParser.held, hp]⟩
  | marked =>
    rw [hs] at hpos
    cases hp : p.state <;> cases hd : d.state <;>
      simp_all [BinaryFrameParser.position, decoderPosition]
    exact ⟨by rw [hp, hd]; rfl, by simp only [decoderHeld, hd, BinaryFrameParser.held, hp]⟩
  | lost =>
    rw [hs] at hpos
    cases hp : p.state <;> cases hd : d.state <;>
      simp_all [BinaryFrameParser.position, decoderPosition]
    exact ⟨by rw [hp, hd]; rfl, by simp only [decoderHeld, hd, BinaryFrameParser.held, hp]⟩
  | lostMarked =>
    rw [hs] at hpos
    cases hp : p.state <;> cases hd : d.state <;>
      simp_all [BinaryFrameParser.position, decoderPosition]
    exact ⟨by rw [hp, hd]; rfl, by simp only [decoderHeld, hd, BinaryFrameParser.held, hp]⟩

/-- **Device and host read every stream alike:** the same event at every
byte, and corresponding states behind it. -/
theorem parsers_agree (p : BinaryFrameParser) (bytes : List UInt8) :
    (parserResults (parserInit p) bytes).map FeedResult.decoded = decoderResults .reset bytes ∧
      Corresponds (parserRun (parserInit p) bytes) (Host.feed .reset bytes).1 := by
  have hinit := ordered_init p
  obtain ⟨hordered, hpos, hres⟩ := run_refines hinit bytes
  obtain ⟨hordered', hpos', hres'⟩ := feed_refines_decoder decoderOrdered_reset bytes
  refine ⟨?_, corresponds_of_position hordered hordered' ?_⟩
  · rw [map_decoded hinit, hres, hres']
    rfl
  · rw [hpos, hpos']
    rfl

end Rpc

end DeusOs
