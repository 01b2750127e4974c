import DeusOs.Host.Model.Frame

/-!
# The host — what the decoder makes of an encoded frame

The codec and the decoder of the host are inverse: the bytes of an encoded
frame, fed to a decoder between frames, produce that frame and nothing
else, and leave the decoder between frames (`feed_wire`).
-/

namespace DeusOs

namespace Host

open LittleEndian (read16 write16)

variable {d : BinaryFrameDecoder} {type flags : UInt8} {requestId : ℕ} {payload : List UInt8}

/-- The bytes of a frame. -/
def wire (type flags : UInt8) (requestId : ℕ) (payload : List UInt8) : List UInt8 :=
  let body := frameHeader type flags requestId payload.length ++ payload
  [magic0, magic1] ++ body ++ write16 (crc16Compute body).toNat

/-- A frame is encoded as its bytes on the wire. -/
theorem encode_eq (h : payload.length ≤ maxPayloadBytes) :
    encode type flags requestId payload = .ok (wire type flags requestId payload) :=
  if_neg (Nat.not_lt.2 h)

/-- Two reads decode as one. -/
theorem feed_append (d : BinaryFrameDecoder) (a b : List UInt8) :
    feed d (a ++ b) = ((feed (feed d a).1 b).1, (feed d a).2 ++ (feed (feed d a).1 b).2) := by
  induction a generalizing d with
  | nil => rfl
  | cons x a ih =>
    simp only [List.cons_append, feed, ih, List.append_assoc]

/-- The two checksum bytes make the checksum again. -/
theorem or_shiftLeft_bytes (c : UInt16) :
    (UInt8.ofNat c.toNat).toUInt16 ||| ((UInt8.ofNat (c.toNat / 256)).toUInt16 <<< (8 : UInt16)) = c := by
  have hc := c.toNat_lt
  rw [← UInt16.toNat_inj, UInt16.toNat_or, UInt16.toNat_shiftLeft]
  simp only [UInt8.toNat_toUInt16, UInt8.toNat_ofNat', UInt16.toNat_ofNat, Nat.reducePow,
    Nat.reduceMod]
  have hhi : c.toNat / 256 % 256 = c.toNat / 256 := Nat.mod_eq_of_lt (by omega)
  have hsh : (c.toNat / 256) <<< 8 % 65536 = (c.toNat / 256) <<< 8 :=
    Nat.mod_eq_of_lt (by rw [Nat.shiftLeft_eq]; omega)
  rw [hhi, hsh, Nat.or_comm, ← Nat.shiftLeft_add_eq_or_of_lt (by omega), Nat.shiftLeft_eq]
  omega

/-- Header bytes are kept until the eighth. -/
theorem feed_header (bs : List UInt8) (hs : d.state = .header)
    (hlen : d.header.length + bs.length < headerBytesAfterMagic) :
    feed d bs = ({ d with header := d.header ++ bs }, []) := by
  induction bs generalizing d with
  | nil => simp [feed]
  | cons x bs ih =>
    simp only [List.length_cons] at hlen
    have hmore : (d.header ++ [x]).length ≠ headerBytesAfterMagic := by simp; omega
    have hstep : feedByte d x = ({ d with header := d.header ++ [x] }, none) := by
      simp only [feedByte, hs, feedHeader, if_pos hmore]
    simp only [feed, hstep, Option.toList, List.nil_append]
    rw [ih (d := { d with header := d.header ++ [x] }) hs
      (by simp only [List.length_append, List.length_cons, List.length_nil]; omega)]
    simp

/-- The payload bytes go to the buffer, up to the announced length. -/
theorem feed_payload (rest : List UInt8) (hs : d.state = .payload) (hne : rest ≠ [])
    (hlen : d.payload.length + rest.length = d.payloadLength) :
    feed d rest = ({ d with payload := d.payload ++ rest, state := .crcLow }, []) := by
  induction rest generalizing d with
  | nil => exact absurd rfl hne
  | cons x rest ih =>
    simp only [List.length_cons] at hlen
    rcases rest with - | ⟨y, rest⟩
    · have hlast : (d.payload ++ [x]).length = d.payloadLength := by simpa using hlen
      simp only [feed, feedByte, hs, if_pos hlast, Option.toList, List.append_nil]
    · have hmore : (d.payload ++ [x]).length ≠ d.payloadLength := by
        simp only [List.length_cons] at hlen
        simp; omega
      have hstep : feedByte d x =
          ({ d with payload := d.payload ++ [x], state := .payload }, none) := by
        simp only [feedByte, hs, if_neg hmore]
      simp only [feed, hstep, Option.toList, List.nil_append]
      have := ih (d := { d with payload := d.payload ++ [x], state := .payload }) rfl (by simp)
        (by simp only [List.length_append, List.length_cons, List.length_nil] at hlen ⊢; omega)
      simp only [feed, List.append_assoc, List.singleton_append] at this ⊢
      exact this

/-- The frame the decoder reports for it. -/
def frameOf (type flags : UInt8) (requestId : ℕ) (payload : List UInt8) : BinaryFrame :=
  { version := protocolVersion, type, flags, reserved := 0, requestId, payload }

/-- **What was encoded is decoded,** by a decoder between frames, which is
between frames again behind it. -/
theorem feed_wire (hid : requestId < 65536) (hpos : payload ≠ [])
    (hlen : payload.length ≤ maxPayloadBytes) :
    feed .reset (wire type flags requestId payload) =
      (.reset, [.frame (frameOf type flags requestId payload)]) := by
  set header := frameHeader type flags requestId payload.length with hheader
  have hlen' : payload.length < 65536 := by simp only [maxPayloadBytes] at hlen; omega
  have hread : read16 header 6 = payload.length :=
    LittleEndian.read16_write16 hlen' ([protocolVersion, type, flags, 0] ++ write16 requestId) []
  have hreadId : read16 header 4 = requestId :=
    LittleEndian.read16_write16 hid [protocolVersion, type, flags, 0] (write16 payload.length)
  -- the magic and the header leave the decoder ready for the payload
  have hstart : feed .reset ([magic0, magic1] ++ header) =
      (⟨.payload, header, [], payload.length, 0⟩, []) := by
    have hne : payload.length ≠ 0 := by simpa using hpos
    obtain ⟨lo, hi, hlohi⟩ : ∃ lo hi, write16 payload.length = [lo, hi] := ⟨_, _, rfl⟩
    obtain ⟨init, hinit⟩ : ∃ init, header = init ++ [hi] ∧ init.length = 7 :=
      ⟨[protocolVersion, type, flags, 0] ++ write16 requestId ++ [lo],
        by simp [hheader, frameHeader, hlohi], rfl⟩
    have hmagic : feed .reset [magic0, magic1] = (⟨.header, [], [], 0, 0⟩, []) := rfl
    have hfirst := feed_header (d := ⟨.header, [], [], 0, 0⟩) init rfl
      (by simp [hinit.2, headerBytesAfterMagic])
    have h8 : header.length = headerBytesAfterMagic := by rw [hinit.1]; simp [hinit.2]; rfl
    rw [feed_append, hmagic, hinit.1, feed_append, hfirst, ← hinit.1]
    simp only [feed, feedByte, feedHeader, List.nil_append, ← hinit.1, h8, ne_eq, not_true_eq_false,
      if_false, hread, if_neg (Nat.not_lt.2 hlen), if_neg hne, Option.toList, List.append_nil]
  have hpay := feed_payload (d := ⟨.payload, header, [], payload.length, 0⟩) payload rfl hpos
    (by simp)
  have hbody : wire type flags requestId payload =
      ([magic0, magic1] ++ header) ++ (payload ++ write16 (crc16Compute (header ++ payload)).toNat) := by
    simp only [wire, ← hheader, List.append_assoc]
  rw [hbody, feed_append, hstart, feed_append, hpay]
  simp only [write16, feed, feedByte, completeFrame, List.nil_append, or_shiftLeft_bytes, ne_eq,
    not_true_eq_false, if_false, Option.toList, List.append_nil, hreadId]
  rfl

end Host

end DeusOs
