import DeusOs.Common.Crc16
import DeusOs.Common.Framing
import DeusOs.Rpc.Model.BinaryFrame

/-!
# The device — what its parser reads

The device's parser is the reader of a stream of frames (`feed_refines`):
what it holds of a frame is in its two arrays and its checksum, and its
indices stay inside.
-/

namespace DeusOs

namespace Rpc

open Framing (Format State Event step run trace)
open LittleEndian (read16 write16)
open Nor (Mem)

/-! ## The format -/

/-- The checksum of what is held, behind it. -/
def checksOf (held : List UInt8) : Bool :=
  decide (read16 held (held.length - 2) = (Crc16.ccittFalse (held.take (held.length - 2))).toNat)

/-- The frames of the wire. -/
def frameFormat : Format UInt8 where
  mark₀ := 0xA5
  mark₁ := 0x5A
  header := 8
  size held := read16 held 6
  max := 132
  trailer := 2
  checks := checksOf
  marks := by decide
  header_pos := Nat.succ_pos 7
  trailer_pos := by decide

theorem crc16CcittFalse_eq (data : List UInt8) : crc16CcittFalse data = Crc16.ccittFalse data := rfl

theorem ccittFalse_append (data : List UInt8) (byte : UInt8) :
    Crc16.ccittFalse (data ++ [byte]) = Crc16.byte (Crc16.ccittFalse data) byte := by
  rw [Crc16.ccittFalse, List.foldl_append]
  rfl

/-- Two bytes, put together with shift and or. -/
theorem or_shiftLeft (lo hi : UInt8) : lo.toNat ||| (hi.toNat <<< 8) = Nor.le16 lo hi := by
  rw [Nat.or_comm, ← Nat.shiftLeft_add_eq_or_of_lt lo.toNat_lt, Nat.shiftLeft_eq, Nor.le16]
  omega

/-- Two bytes are put together as a halfword. -/
theorem toNat_or_shiftLeft (lo hi : UInt8) :
    (lo.toUInt16 ||| (hi.toUInt16 <<< (8 : UInt16))).toNat = Nor.le16 lo hi := by
  have hlo := lo.toNat_lt
  have hhi := hi.toNat_lt
  rw [UInt16.toNat_or, UInt16.toNat_shiftLeft]
  simp only [UInt8.toNat_toUInt16, UInt16.toNat_ofNat, Nat.reducePow, Nat.reduceMod]
  have hsh : hi.toNat <<< 8 % 65536 = hi.toNat <<< 8 :=
    Nat.mod_eq_of_lt (by rw [Nat.shiftLeft_eq]; omega)
  rw [hsh, or_shiftLeft]

/-- The bytes of a word that was put together. -/
theorem write16_le16 (lo hi : UInt8) : write16 (Nor.le16 lo hi) = [lo, hi] := by
  rw [write16, Nor.ofNat_le16, Nor.ofNat_le16_div]

theorem read16_append (bs : List UInt8) (lo hi : UInt8) :
    read16 (bs ++ [lo, hi]) bs.length = Nor.le16 lo hi := by
  simp [read16, Nor.le16]

/-- Two bytes behind a stretch are its checksum. -/
theorem checksOf_append (bs : List UInt8) (lo hi : UInt8) :
    checksOf (bs ++ [lo, hi]) = true ↔ Nor.le16 lo hi = (Crc16.ccittFalse bs).toNat := by
  have hlen : (bs ++ [lo, hi]).length - 2 = bs.length := by simp
  rw [checksOf, hlen, read16_append, List.take_left' rfl, decide_eq_true_iff]

/-! ## What the parser holds -/

/-- What the parser holds of a frame. -/
def BinaryFrameParser.held (p : BinaryFrameParser) : List UInt8 :=
  match p.state with
  | .header => p.header.bytes 0 p.headerIndex
  | .payload => p.header.bytes 0 8 ++ p.payload.bytes 0 p.payloadIndex
  | .crc0 => p.header.bytes 0 8 ++ p.payload.bytes 0 p.payloadLength
  | .crc1 => p.header.bytes 0 8 ++ p.payload.bytes 0 p.payloadLength ++ [p.receivedCrcLow]
  | _ => []

/-- Where the parser is. -/
def BinaryFrameParser.position (p : BinaryFrameParser) : State UInt8 :=
  match p.state with
  | .idle => .outside
  | .magic1 => .marked
  | .resync => .lost
  | .resyncMagic1 => .lostMarked
  | _ => .inside p.held

/-- The whole header is there, and announces a payload that fits. -/
structure Announced (p : BinaryFrameParser) : Prop where
  length : p.payloadLength = read16 (p.header.bytes 0 8) 6
  max : p.payloadLength ≤ 132

/-- The state of the parser, by where it is. -/
def ParserState.Holds (p : BinaryFrameParser) : ParserState → Prop
  | .header => p.headerIndex < 8 ∧ p.crc = Crc16.ccittFalse (p.header.bytes 0 p.headerIndex)
  | .payload => Announced p ∧ p.payloadIndex < p.payloadLength ∧
      p.crc = Crc16.ccittFalse (p.header.bytes 0 8 ++ p.payload.bytes 0 p.payloadIndex)
  | .crc0 | .crc1 => Announced p ∧
      p.crc = Crc16.ccittFalse (p.header.bytes 0 8 ++ p.payload.bytes 0 p.payloadLength)
  | _ => True

/-- **The parser is in order:** its indices are inside its arrays, and its
checksum is that of what it holds. -/
structure Ordered (p : BinaryFrameParser) : Prop where
  headerIndex : p.headerIndex ≤ 8
  holds : p.state.Holds p

/-- The bytes of a frame behind its magic, up to its checksum. -/
def BinaryFrameView.body (frame : BinaryFrameView) : List UInt8 :=
  [frame.version, frame.frameType, frame.flags, frame.reserved] ++ write16 frame.requestId ++
    write16 frame.payloadLength ++ frame.bytes

/-- The bytes of a frame behind its magic. -/
def BinaryFrameView.held (frame : BinaryFrameView) : List UInt8 :=
  frame.body ++ write16 (crc16CcittFalse frame.body).toNat

/-- What the parser returns, for the reader of frames. -/
def FeedResult.event : FeedResult → Event UInt8
  | .text => .text
  | .consumed => .quiet
  | .frameReady frame => .frame frame.held
  | .syncErrorText => .unmarked false
  | .syncErrorConsumed => .unmarked true
  | .crcError => .bad
  | .lengthError => .tooLong

/-! ## The parser refines the reader -/

variable {p : BinaryFrameParser}

theorem ordered_reset (p : BinaryFrameParser) : Ordered (parserReset p) :=
  ⟨Nat.zero_le 8, trivial⟩

/-- A parser that was initialised is in order. -/
theorem ordered_init (p : BinaryFrameParser) : Ordered (parserInit p) := ordered_reset _

/-- A parser that begins a frame is in order. -/
theorem ordered_begin (p : BinaryFrameParser) : Ordered (parserBegin p) :=
  ⟨Nat.zero_le 8, Nat.succ_pos 7, rfl⟩

/-- What a byte did. -/
def Refines (p : BinaryFrameParser) (byte : UInt8) (r : BinaryFrameParser × FeedResult) : Prop :=
  Ordered r.1 ∧ step frameFormat byte p.position = (r.1.position, r.2.event)

/-- The size of a payload is read from the header. -/
theorem size_of_header {header bs : List UInt8} (h : header.length = 8) :
    frameFormat.size ((header ++ bs).take frameFormat.header) = read16 header 6 := by
  have htake : (header ++ bs).take frameFormat.header = header := List.take_left' h
  rw [htake]
  rfl

/-- A frame takes ten bytes beside its payload. -/
theorem whole_of_header {header bs : List UInt8} (h : header.length = 8) :
    frameFormat.whole (header ++ bs) = 10 + read16 header 6 := by
  rw [Format.whole, size_of_header h]
  change 8 + _ + 2 = _
  omega

/-- Part of a frame, with its header whole. -/
theorem part_of_header {header bs : List UInt8} (h : header.length = 8)
    (hmax : read16 header 6 ≤ 132) (hlen : bs.length < read16 header 6 + 2) :
    frameFormat.Part (header ++ bs) := by
  right
  rw [size_of_header h, whole_of_header h, List.length_append, h]
  exact ⟨hmax, by omega⟩

/-- A header whose size is allowed is a part of a frame. -/
theorem part_header {header : List UInt8} (h : header.length = 8) (hmax : read16 header 6 ≤ 132) :
    frameFormat.Part header := by
  have hpart : frameFormat.Part (header ++ []) := part_of_header h hmax (Nat.succ_pos _)
  rwa [List.append_nil] at hpart

/-- A header that announces too much. -/
theorem claim_tooLong {header : List UInt8} (h : header.length = 8)
    (hmax : 132 < read16 header 6) : Framing.claim frameFormat header = (.lost, .tooLong) := by
  have hsize : frameFormat.size ((header ++ []).take frameFormat.header) = read16 header 6 :=
    size_of_header h
  rw [List.append_nil] at hsize
  rw [Framing.claim, h, if_neg (by decide), hsize]
  exact if_pos hmax

/-- Of a whole frame, only the checksum decides. -/
theorem claim_whole {header payload : List UInt8} (h : header.length = 8)
    (hmax : payload.length ≤ 132) (hlen : payload.length = read16 header 6) (lo hi : UInt8) :
    Framing.claim frameFormat (header ++ payload ++ [lo, hi]) =
      if checksOf (header ++ payload ++ [lo, hi]) = true then
        (.outside, .frame (header ++ payload ++ [lo, hi]))
      else (.outside, .bad) := by
  have hsize : frameFormat.size ((header ++ payload ++ [lo, hi]).take frameFormat.header) =
      payload.length := by
    rw [List.append_assoc, size_of_header h, hlen]
  have hlength : (header ++ payload ++ [lo, hi]).length = 10 + payload.length := by
    simp only [List.length_append, List.length_cons, List.length_nil, h]
    omega
  rw [Framing.claim, Format.whole, hsize, hlength, if_neg (by change ¬ _ < 8; omega),
    if_neg (by change ¬ 132 < _; omega), if_neg (by change ¬ _ < 8 + _ + 2; omega)]
  rfl

theorem read_header (h : Mem) : read16 (h.bytes 0 8) 6 = Nor.le16 (h 6) (h 7) := rfl

theorem refines_header (h : Ordered p) (hs : p.state = .header) (byte : UInt8) :
    Refines p byte (feedHeader p byte) := by
  obtain ⟨hindex, hcrc⟩ : p.headerIndex < 8 ∧
      p.crc = Crc16.ccittFalse (p.header.bytes 0 p.headerIndex) := by
    have := h.holds
    rwa [hs] at this
  have hbytes := Mem.bytes_store_one p.header p.headerIndex byte
  have hcrc' : crc16Update p.crc byte =
      Crc16.ccittFalse ((p.header.store p.headerIndex [byte]).bytes 0 (p.headerIndex + 1)) := by
    rw [hbytes, ccittFalse_append, ← hcrc]
    rfl
  have hstep : step frameFormat byte p.position =
      Framing.claim frameFormat
        ((p.header.store p.headerIndex [byte]).bytes 0 (p.headerIndex + 1)) := by
    rw [hbytes, BinaryFrameParser.position, hs, BinaryFrameParser.held, hs]
    rfl
  rw [Refines, hstep]
  unfold feedHeader
  dsimp only
  by_cases hlast : p.headerIndex + 1 = frameHeaderBytes
  · rw [if_pos hlast]
    have h8 : p.headerIndex + 1 = 8 := hlast
    rw [h8] at hcrc' ⊢
    generalize p.header.store p.headerIndex [byte] = header at hcrc' ⊢
    rw [or_shiftLeft, ← read_header]
    by_cases hmax : frameMaxPayload < read16 (header.bytes 0 8) 6
    · rw [if_pos hmax, claim_tooLong (Mem.length_bytes header 0 8) hmax]
      exact ⟨⟨Nat.le_refl 8, trivial⟩, rfl⟩
    · rw [if_neg hmax]
      have hmax := Nat.le_of_not_lt hmax
      rw [Framing.claim_part (part_header (Mem.length_bytes header 0 8) hmax)]
      by_cases hzero : read16 (header.bytes 0 8) 6 = 0
      · -- no payload: the checksum follows
        rw [if_pos hzero]
        refine ⟨⟨Nat.le_refl 8, ⟨rfl, hmax⟩, ?_⟩, ?_⟩
        · simp only [hzero, Mem.bytes_zero, List.append_nil]
          exact hcrc'
        · simp only [BinaryFrameParser.position, BinaryFrameParser.held, hzero, Mem.bytes_zero,
            List.append_nil]
          rfl
      · rw [if_neg hzero]
        refine ⟨⟨Nat.le_refl 8, ⟨rfl, hmax⟩, Nat.pos_of_ne_zero hzero, ?_⟩, ?_⟩
        · simp only [Mem.bytes_zero, List.append_nil]
          exact hcrc'
        · simp only [BinaryFrameParser.position, BinaryFrameParser.held, Mem.bytes_zero,
            List.append_nil]
          rfl
  · rw [if_neg hlast]
    have h8 : p.headerIndex + 1 < 8 := by
      unfold frameHeaderBytes at hlast
      omega
    have hpart : frameFormat.Part
        ((p.header.store p.headerIndex [byte]).bytes 0 (p.headerIndex + 1)) := by
      left
      rw [Mem.length_bytes]
      exact h8
    rw [Framing.claim_part hpart]
    refine ⟨⟨by dsimp only; omega, ?_⟩, ?_⟩
    · simp only [hs]
      exact ⟨h8, hcrc'⟩
    · simp only [BinaryFrameParser.position, BinaryFrameParser.held, hs]
      rfl

theorem refines_payload (h : Ordered p) (hs : p.state = .payload) (byte : UInt8) :
    Refines p byte (feedPayload p byte) := by
  obtain ⟨hann, hindex, hcrc⟩ : Announced p ∧ p.payloadIndex < p.payloadLength ∧
      p.crc = Crc16.ccittFalse (p.header.bytes 0 8 ++ p.payload.bytes 0 p.payloadIndex) := by
    have := h.holds
    rwa [hs] at this
  have hbytes := Mem.bytes_store_one p.payload p.payloadIndex byte
  have hcrc' : crc16Update p.crc byte = Crc16.ccittFalse (p.header.bytes 0 8 ++
      (p.payload.store p.payloadIndex [byte]).bytes 0 (p.payloadIndex + 1)) := by
    rw [hbytes, ← List.append_assoc, ccittFalse_append, ← hcrc]
    rfl
  have hstep : step frameFormat byte p.position =
      Framing.claim frameFormat (p.header.bytes 0 8 ++
        (p.payload.store p.payloadIndex [byte]).bytes 0 (p.payloadIndex + 1)) := by
    rw [hbytes, BinaryFrameParser.position, hs, BinaryFrameParser.held, hs, ← List.append_assoc]
    rfl
  have hpart : frameFormat.Part (p.header.bytes 0 8 ++
      (p.payload.store p.payloadIndex [byte]).bytes 0 (p.payloadIndex + 1)) := by
    have hmax := hann.max
    have hlen := hann.length
    refine part_of_header (Mem.length_bytes p.header 0 8) (by omega) ?_
    rw [Mem.length_bytes]
    omega
  rw [Refines, hstep, Framing.claim_part hpart]
  unfold feedPayload
  dsimp only
  by_cases hlast : p.payloadIndex + 1 = p.payloadLength
  · rw [if_pos hlast]
    rw [hlast] at hcrc' ⊢
    exact ⟨⟨h.headerIndex, ⟨hann.length, hann.max⟩, hcrc'⟩, rfl⟩
  · rw [if_neg hlast]
    refine ⟨⟨h.headerIndex, ?_⟩, ?_⟩
    · simp only [hs]
      exact ⟨⟨hann.length, hann.max⟩, by dsimp only; omega, hcrc'⟩
    · simp only [BinaryFrameParser.position, BinaryFrameParser.held, hs]
      rfl

theorem refines_crc0 (h : Ordered p) (hs : p.state = .crc0) (byte : UInt8) :
    Refines p byte ({ p with receivedCrcLow := byte, state := .crc1 }, .consumed) := by
  obtain ⟨hann, hcrc⟩ : Announced p ∧
      p.crc = Crc16.ccittFalse (p.header.bytes 0 8 ++ p.payload.bytes 0 p.payloadLength) := by
    have := h.holds
    rwa [hs] at this
  have hpart : frameFormat.Part
      (p.header.bytes 0 8 ++ (p.payload.bytes 0 p.payloadLength ++ [byte])) := by
    have hmax := hann.max
    have hlen := hann.length
    refine part_of_header (Mem.length_bytes p.header 0 8) (by omega) ?_
    rw [List.length_append, Mem.length_bytes, List.length_singleton]
    omega
  refine ⟨⟨h.headerIndex, ⟨hann.length, hann.max⟩, hcrc⟩, ?_⟩
  rw [← List.append_assoc] at hpart
  simp only [BinaryFrameParser.position, BinaryFrameParser.held, hs]
  exact Framing.claim_part hpart

theorem refines_crc1 (h : Ordered p) (hs : p.state = .crc1) (byte : UInt8) :
    Refines p byte (feedCrc1 p byte) := by
  obtain ⟨hann, hcrc⟩ : Announced p ∧
      p.crc = Crc16.ccittFalse (p.header.bytes 0 8 ++ p.payload.bytes 0 p.payloadLength) := by
    have := h.holds
    rwa [hs] at this
  obtain ⟨body, hbody⟩ : ∃ body, body =
    p.header.bytes 0 8 ++ p.payload.bytes 0 p.payloadLength := ⟨_, rfl⟩
  rw [← hbody] at hcrc
  have hheld : p.held ++ [byte] = body ++ [p.receivedCrcLow, byte] := by
    rw [BinaryFrameParser.held, hs, hbody, List.append_assoc]
    rfl
  have hstep : step frameFormat byte p.position =
      Framing.claim frameFormat (body ++ [p.receivedCrcLow, byte]) := by
    rw [← hheld, BinaryFrameParser.position, hs]
    rfl
  have hclaim : Framing.claim frameFormat (body ++ [p.receivedCrcLow, byte]) =
      if checksOf (body ++ [p.receivedCrcLow, byte]) = true then
        (.outside, .frame (body ++ [p.receivedCrcLow, byte]))
      else (.outside, .bad) := by
    have hpayload := Mem.length_bytes p.payload 0 p.payloadLength
    rw [hbody]
    exact claim_whole (Mem.length_bytes p.header 0 8) (by rw [hpayload]; exact hann.max)
      (by rw [hpayload, hann.length]) p.receivedCrcLow byte
  have hagree : p.receivedCrcLow.toUInt16 ||| (byte.toUInt16 <<< (8 : UInt16)) = p.crc ↔
      checksOf (body ++ [p.receivedCrcLow, byte]) = true := by
    rw [checksOf_append, ← hcrc, ← UInt16.toNat_inj, toNat_or_shiftLeft]
  rw [Refines, hstep, hclaim]
  unfold feedCrc1
  by_cases hok : p.receivedCrcLow.toUInt16 ||| (byte.toUInt16 <<< (8 : UInt16)) = p.crc
  · rw [if_neg (not_not.mpr hok), if_pos (hagree.mp hok)]
    refine ⟨ordered_reset _, ?_⟩
    have hsum : write16 (Crc16.ccittFalse body).toNat = [p.receivedCrcLow, byte] := by
      rw [← hcrc, ← hok, toNat_or_shiftLeft, write16_le16]
    have hview : ∀ view : BinaryFrameView, view.body = body →
        view.held = body ++ [p.receivedCrcLow, byte] := by
      intro view hview
      rw [BinaryFrameView.held, hview, crc16CcittFalse_eq, hsum]
    refine Prod.ext rfl (congrArg Event.frame (hview _ ?_).symm)
    -- the header's fields are its bytes
    rw [hbody, BinaryFrameView.body]
    dsimp only
    rw [or_shiftLeft, write16_le16, hann.length, read_header, write16_le16, ← read_header,
      ← hann.length]
    rfl
  · rw [if_pos hok, if_neg (mt hagree.mpr hok)]
    exact ⟨ordered_reset _, rfl⟩

/-- **`binary_frame_parser_feed` reads frames.** Each byte is a step of the
reader of the format. -/
theorem feed_refines (h : Ordered p) (byte : UInt8) : Refines p byte (parserFeed p byte) := by
  cases hs : p.state with
  | idle =>
    simp only [parserFeed, hs]
    by_cases h0 : byte = frameMagic0
    · rw [if_pos h0]
      refine ⟨⟨h.headerIndex, trivial⟩, ?_⟩
      simp only [BinaryFrameParser.position, hs]
      exact if_pos h0
    · rw [if_neg h0]
      refine ⟨h, ?_⟩
      simp only [BinaryFrameParser.position, hs]
      exact if_neg h0
  | magic1 =>
    simp only [parserFeed, hs]
    have hpos : p.position = .marked := by simp only [BinaryFrameParser.position, hs]
    rw [Refines, hpos]
    by_cases h1 : byte = frameMagic1
    · rw [if_pos h1]
      exact ⟨ordered_begin p, if_pos h1⟩
    · rw [if_neg h1]
      by_cases h0 : byte = frameMagic0
      · rw [if_pos h0]
        exact ⟨⟨h.headerIndex, trivial⟩, (if_neg h1).trans (if_pos h0)⟩
      · rw [if_neg h0]
        exact ⟨ordered_reset _, (if_neg h1).trans (if_neg h0)⟩
  | header =>
    simp only [parserFeed, hs]
    exact refines_header h hs byte
  | payload =>
    simp only [parserFeed, hs]
    exact refines_payload h hs byte
  | crc0 =>
    simp only [parserFeed, hs]
    exact refines_crc0 h hs byte
  | crc1 =>
    simp only [parserFeed, hs]
    exact refines_crc1 h hs byte
  | resync =>
    simp only [parserFeed, hs]
    have hpos : p.position = .lost := by simp only [BinaryFrameParser.position, hs]
    rw [Refines, hpos]
    by_cases h0 : byte = frameMagic0
    · rw [if_pos h0]
      exact ⟨⟨h.headerIndex, trivial⟩, if_pos h0⟩
    · rw [if_neg h0]
      exact ⟨h, (if_neg h0).trans (by rw [hpos]; rfl)⟩
  | resyncMagic1 =>
    simp only [parserFeed, hs]
    have hpos : p.position = .lostMarked := by simp only [BinaryFrameParser.position, hs]
    rw [Refines, hpos]
    by_cases h1 : byte = frameMagic1
    · rw [if_pos h1]
      exact ⟨ordered_begin p, if_pos h1⟩
    · rw [if_neg h1]
      by_cases h0 : byte = frameMagic0
      · rw [if_neg (not_not.mpr h0)]
        exact ⟨h, ((if_neg h1).trans (if_pos h0)).trans (by rw [hpos]; rfl)⟩
      · rw [if_pos h0]
        exact ⟨⟨h.headerIndex, trivial⟩, (if_neg h1).trans (if_neg h0)⟩

/-- **And so it does over a whole stream,** by induction over its bytes. -/
theorem run_refines (h : Ordered p) (bytes : List UInt8) :
    Ordered (parserRun p bytes) ∧
      (parserRun p bytes).position = run frameFormat p.position bytes ∧
      (parserResults p bytes).map FeedResult.event = trace frameFormat p.position bytes := by
  induction bytes generalizing p with
  | nil => exact ⟨h, rfl, rfl⟩
  | cons byte bytes ih =>
    obtain ⟨hordered, hstep⟩ := feed_refines h byte
    obtain ⟨horder, hpos, hres⟩ := ih hordered
    refine ⟨horder, ?_, ?_⟩
    · rw [Framing.run_cons, hstep]
      exact hpos
    · rw [parserResults, List.map_cons, hres, trace, hstep]

end Rpc

end DeusOs
