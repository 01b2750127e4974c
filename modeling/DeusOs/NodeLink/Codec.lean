import DeusOs.NodeLink.Model.Endpoint

/-!
# The node link — frames on the wire

The codec is a bijection between the frames it encodes and the buffers it
accepts: what is encoded decodes to itself (`decode_wire`), and an accepted
buffer holds a frame with a sequence number and a payload that fits
(`fits_of_decode`).
-/

namespace DeusOs

namespace NodeLink

open LittleEndian (read16 read32 write16 write32 read16_write16)

variable {f : Frame} {raw : List UInt8} {cap : ℕ}

/-- A frame the codec sends: it has a sequence number and its payload fits. -/
structure Frame.Fits (f : Frame) : Prop where
  sequence : f.sequence ≠ 0
  payload : f.payload.length ≤ maxPayload

theorem Frame.length_body (f : Frame) : f.body.length = f.payload.length + 12 := by
  simp only [Frame.body, List.length_append, List.length_cons, List.length_nil,
    LittleEndian.length_write16, LittleEndian.length_write32]
  omega

theorem Frame.length_wire (f : Frame) : f.wire.length = f.payload.length + 16 := by
  simp only [Frame.wire, List.length_append, List.length_cons, List.length_nil,
    LittleEndian.length_write16, f.length_body]
  omega

/-- A frame that fits is encoded when the buffer has room for it. -/
theorem encode_eq (h : f.Fits) (hcap : frameOverhead + f.payload.length ≤ cap) :
    encode f cap = .ok f.wire := by
  have hbad : ¬(f.sequence = 0 ∨ maxPayload < f.payload.length) := by
    rintro (h0 | h0)
    · exact h.sequence h0
    · have := h.payload
      omega
  rw [encode, if_neg hbad, if_neg (by omega)]

theorem encode_of_le (h : f.Fits) (hcap : maxFrame ≤ cap) : encode f cap = .ok f.wire := by
  have := h.payload
  exact encode_eq h (by simp only [maxPayload, maxFrame, frameOverhead] at *; omega)

/-! ## Decoding -/

/-- The first fourteen bytes of a frame. -/
theorem Frame.wire_eq_cons (f : Frame) :
    f.wire = 0xD5 :: 0x4E :: version :: f.type :: nodeId :: 0 ::
      UInt8.ofNat f.sequence.toNat :: UInt8.ofNat (f.sequence.toNat / 256) ::
      UInt8.ofNat f.payload.length :: 0 ::
      UInt8.ofNat f.sessionId.toNat :: UInt8.ofNat (f.sessionId.toNat / 256) ::
      UInt8.ofNat (f.sessionId.toNat / 65536) :: UInt8.ofNat (f.sessionId.toNat / 16777216) ::
      (f.payload ++ write16 (crc16CcittFalse f.body).toNat) := by
  simp [Frame.wire, Frame.body, write16, write32]

theorem Frame.drop_wire (f : Frame) :
    f.wire.drop 14 = f.payload ++ write16 (crc16CcittFalse f.body).toNat := by
  rw [f.wire_eq_cons]
  rfl

/-- The checksum stands behind the payload. -/
theorem Frame.read_checksum (f : Frame) :
    read16 f.wire (14 + f.payload.length) = (crc16CcittFalse f.body).toNat := by
  have hp : ([0xD5, 0x4E] ++ f.body).length = 14 + f.payload.length := by
    rw [List.length_append, f.length_body]
    simp only [List.length_cons, List.length_nil]
    omega
  have h := read16_write16 (crc16CcittFalse f.body).toNat_lt ([0xD5, 0x4E] ++ f.body) []
  rw [hp, List.append_nil] at h
  exact h

/-- The checksum covers the frame's body. -/
theorem Frame.covered (f : Frame) :
    (f.wire.drop 2).take (f.wire.length - 4) = f.body := by
  have hlen : f.wire.length - 4 = f.body.length := by
    rw [f.length_wire, f.length_body]
    omega
  rw [hlen]
  change List.take _ (f.body ++ _) = _
  exact List.take_left

theorem read16_sequence (f : Frame) : read16 f.wire 6 = f.sequence.toNat := by
  have h : read16 f.wire 6 =
      (UInt8.ofNat f.sequence.toNat).toNat + 256 * (UInt8.ofNat (f.sequence.toNat / 256)).toNat := by
    rw [f.wire_eq_cons]
    rfl
  have hlt := f.sequence.toNat_lt
  rw [h, UInt8.toNat_ofNat', UInt8.toNat_ofNat']
  omega

theorem read32_session (f : Frame) : read32 f.wire 10 = f.sessionId.toNat := by
  have h : read32 f.wire 10 =
      (UInt8.ofNat f.sessionId.toNat).toNat + 256 * (UInt8.ofNat (f.sessionId.toNat / 256)).toNat +
        65536 * (UInt8.ofNat (f.sessionId.toNat / 65536)).toNat +
        16777216 * (UInt8.ofNat (f.sessionId.toNat / 16777216)).toNat := by
    rw [f.wire_eq_cons]
    rfl
  have hlt := f.sessionId.toNat_lt
  rw [h]
  simp only [UInt8.toNat_ofNat']
  omega

/-- **A frame that was encoded decodes to itself.** It must fit: its payload is
within the bound of the format. -/
theorem decode_wire (h : f.Fits) : decode f.wire = some f := by
  have hpay := h.payload
  have hlen := f.length_wire
  have hlength : (f.wire.getD 8 0).toNat = f.payload.length := by
    have h8 : f.wire.getD 8 0 = UInt8.ofNat f.payload.length := by
      rw [f.wire_eq_cons]
      rfl
    rw [h8, UInt8.toNat_ofNat']
    simp only [maxPayload] at hpay
    omega
  have hmagic : ¬(f.wire.getD 0 0 ≠ 0xD5 ∨ f.wire.getD 1 0 ≠ 0x4E ∨ f.wire.getD 2 0 ≠ version ∨
      f.wire.getD 4 0 ≠ nodeId ∨ f.wire.getD 5 0 ≠ 0 ∨ f.wire.getD 9 0 ≠ 0) := by
    rw [f.wire_eq_cons]
    simp
  have hseq : read16 f.wire 6 ≠ 0 := by
    rw [read16_sequence]
    intro h0
    exact h.sequence (UInt16.toNat_inj.1 h0)
  have hsum : read16 f.wire (14 + f.payload.length) =
      (crc16CcittFalse ((f.wire.drop 2).take (f.wire.length - 4))).toNat := by
    rw [f.covered, f.read_checksum]
  have htype : f.wire.getD 3 0 = f.type := by
    rw [f.wire_eq_cons]
    rfl
  have hpayload : (f.wire.drop 14).take f.payload.length = f.payload := by
    rw [f.drop_wire]
    exact List.take_left
  simp only [maxPayload] at hpay
  rw [decode, if_neg (by omega), if_neg hmagic]
  simp only [hlength, htype, hpayload, read16_sequence, read32_session]
  rw [if_neg (by
    rintro (h1 | h1 | h1)
    · simp only [maxPayload] at h1
      omega
    · omega
    · exact hseq (by rw [read16_sequence, h1])), if_neg (by
    rw [hsum]
    exact fun h1 => h1 rfl)]
  simp only [UInt16.ofNat_toNat, UInt32.ofNat_toNat]

/-- An accepted buffer holds a frame that fits and fills it. -/
theorem fits_of_decode (h : decode raw = some f) :
    f.Fits ∧ raw.length = f.payload.length + 16 := by
  unfold decode at h
  split at h
  · cases h
  · split at h
    · cases h
    · simp only at h
      split at h
      · cases h
      · rename_i hlen
        split at h
        · cases h
        · cases h
          have h1 : (raw.getD 8 0).toNat ≤ maxPayload := by
            by_contra hgt
            exact hlen (Or.inl (by omega))
          have h2 : raw.length = (raw.getD 8 0).toNat + 16 := by
            by_contra hne
            exact hlen (Or.inr (Or.inl hne))
          have h3 : read16 raw 6 ≠ 0 := fun h0 => hlen (Or.inr (Or.inr h0))
          have hp : ((raw.drop 14).take (raw.getD 8 0).toNat).length = (raw.getD 8 0).toNat := by
            rw [List.length_take, List.length_drop]
            omega
          refine ⟨⟨?_, ?_⟩, ?_⟩
          · intro h0
            have hlt : read16 raw 6 < 65536 := by
              have ha := (raw.getD 6 0).toNat_lt
              have hb := (raw.getD (6 + 1) 0).toNat_lt
              simp only [read16]
              omega
            have := congrArg UInt16.toNat h0
            rw [UInt16.toNat_ofNat', Nat.mod_eq_of_lt hlt] at this
            exact h3 this
          · simp only [hp]
            exact h1
          · simp only [hp]
            exact h2

/-- **What was accepted is encoded as it came.** Every byte of a frame is kept
in its fields, checked against a constant, or the checksum of the others. -/
theorem wire_of_decode (h : decode raw = some f) : f.wire = raw := by
  obtain ⟨-, hraw⟩ := fits_of_decode h
  unfold decode at h
  split at h
  · cases h
  split at h
  · cases h
  rename_i hmagic
  simp only [not_or, not_not] at hmagic
  obtain ⟨h0, h1, h2, h4, h5, h9⟩ := hmagic
  simp only at h
  split at h
  · cases h
  split at h
  · cases h
  rename_i hsum
  rw [not_not] at hsum
  obtain ⟨hlen, hf⟩ : (raw.getD 8 0).toNat = f.payload.length ∧
      f = { type := raw.getD 3 0
            sequence := UInt16.ofNat (read16 raw 6)
            sessionId := UInt32.ofNat (read32 raw 10)
            payload := (raw.drop 14).take (raw.getD 8 0).toNat } := by
    have hf := (Option.some.inj h).symm
    refine ⟨?_, hf⟩
    rw [hf, List.length_take, List.length_drop]
    rw [hf, List.length_take, List.length_drop] at hraw
    omega
  have hseq : f.sequence.toNat = read16 raw 6 := by
    rw [hf, UInt16.toNat_ofNat', Nat.mod_eq_of_lt (LittleEndian.read16_lt raw 6)]
  have hsess : f.sessionId.toNat = read32 raw 10 := by
    rw [hf, UInt32.toNat_ofNat', Nat.mod_eq_of_lt (LittleEndian.read32_lt raw 10)]
  have hpay : (raw.drop 14).take f.payload.length = f.payload := by
    rw [← hlen, hf]
  have htype : f.type = raw.getD 3 0 := by rw [hf]
  have hhead : raw.take 14 = [0xD5, 0x4E, version, f.type, nodeId, 0] ++
      write16 f.sequence.toNat ++ [UInt8.ofNat f.payload.length, 0] ++
        write32 f.sessionId.toNat := by
    have h8 : UInt8.ofNat f.payload.length = raw.getD 8 0 := by
      rw [← hlen, UInt8.ofNat_toNat]
    rw [LittleEndian.take_eq_getD (by omega), hseq, hsess, LittleEndian.write16_read16,
      LittleEndian.write32_read32, h8, htype]
    -- the fixed bytes of the header are the ones that were checked
    simp only [List.range_succ, List.range_zero, List.nil_append, List.map_append, List.map_cons,
      List.map_nil, h0, h1, h2, h4, h5, h9]
    rfl
  have hbody : [0xD5, 0x4E] ++ f.body = raw.take (14 + f.payload.length) := by
    rw [List.take_add, hhead, hpay]
    simp only [Frame.body, List.append_assoc, List.cons_append, List.nil_append]
  have hcovered : (raw.drop 2).take (raw.length - 4) = f.body := by
    have htwo : raw.length - 4 = 14 + f.payload.length - 2 := by omega
    rw [htwo, ← List.drop_take, ← hbody]
    rfl
  have hcheck : write16 (crc16CcittFalse f.body).toNat = raw.drop (14 + f.payload.length) := by
    rw [hcovered, hlen] at hsum
    rw [← hsum, LittleEndian.write16_read16]
    refine List.ext_getElem ?_ fun i hi hi' => ?_
    · rw [List.length_drop]
      simp only [List.length_cons, List.length_nil]
      omega
    · rw [List.getElem_drop]
      simp only [List.length_cons, List.length_nil] at hi
      obtain rfl | rfl : i = 0 ∨ i = 1 := by omega
      · exact List.getD_eq_getElem raw 0 (by omega)
      · exact List.getD_eq_getElem raw 0 (by omega)
  rw [Frame.wire, hbody, hcheck, List.take_append_drop]

end NodeLink

end DeusOs
