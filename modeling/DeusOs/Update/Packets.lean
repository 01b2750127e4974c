import DeusOs.Host.Channel
import DeusOs.Bootloader.Data

/-!
# The update link — packets on the wire

The two ends agree on bytes: a frame the host encodes is one the
bootloader accepts, with the payload the host put in it, and a response
the bootloader builds is one the host's decoder reports.
-/

namespace DeusOs

namespace Update

open Bootloader Host
open LittleEndian (read16 write16 read32 write32)

variable (flags : UInt8) (requestId : ℕ) (payload : List UInt8)

/-- The request frame that carries `payload`. -/
def request (flags : UInt8) (requestId : ℕ) (payload : List UInt8) : List UInt8 :=
  wire FrameType.firmwareUpdateRequest flags requestId payload

theorem crc16_eq (data : List UInt8) : crc16Compute data = crc16Ccitt data := rfl

/-- The bootloader reads halfwords as the host does. -/
theorem loadLe16_eq : loadLe16 = read16 := rfl

/-- The bootloader reads words as the host does. -/
theorem loadLe32_eq : loadLe32 = read32 := rfl

theorem request_eq : request flags requestId payload =
    [0xA5, 0x5A, 1, 0x04, flags, 0] ++ write16 requestId ++ write16 payload.length ++ payload ++
      write16 (crc16Compute (frameHeader 0x04 flags requestId payload.length ++ payload)).toNat := by
  simp [request, wire, frameHeader, magic0, magic1, protocolVersion,
    FrameType.firmwareUpdateRequest]

/-- Cut at the payload. -/
theorem request_split : request flags requestId payload =
    ([0xA5, 0x5A] ++ frameHeader 0x04 flags requestId payload.length) ++
      (payload ++
        write16 (crc16Compute (frameHeader 0x04 flags requestId payload.length ++ payload)).toNat) := by
  simp [request, wire, magic0, magic1, FrameType.firmwareUpdateRequest]

theorem length_request : (request flags requestId payload).length = 12 + payload.length := by
  simp [request_eq]
  omega

/-- The bootloader reads the id that was sent. -/
theorem loadLe16_request_id (hid : requestId < 65536) :
    loadLe16 (request flags requestId payload) 6 = requestId := by
  rw [request_eq, loadLe16_eq]
  simpa using LittleEndian.read16_write16 hid [0xA5, 0x5A, 1, 0x04, flags, 0]
    (write16 payload.length ++ (payload ++ write16 (crc16Compute
      (frameHeader 0x04 flags requestId payload.length ++ payload)).toNat))

theorem loadLe16_request_length (hlen : payload.length < 65536) :
    loadLe16 (request flags requestId payload) 8 = payload.length := by
  rw [request_eq, loadLe16_eq]
  simpa using LittleEndian.read16_write16 hlen
    ([0xA5, 0x5A, 1, 0x04, flags, 0] ++ write16 requestId)
    (payload ++ write16 (crc16Compute
      (frameHeader 0x04 flags requestId payload.length ++ payload)).toNat)

theorem loadLe16_request_crc :
    loadLe16 (request flags requestId payload) (10 + payload.length) =
      (crc16Compute (frameHeader 0x04 flags requestId payload.length ++ payload)).toNat := by
  have h := LittleEndian.read16_write16 (v := (crc16Compute
      (frameHeader 0x04 flags requestId payload.length ++ payload)).toNat)
    (UInt16.toNat_lt _) ([0xA5, 0x5A] ++ frameHeader 0x04 flags requestId payload.length ++ payload)
    []
  rw [request_split]
  have hlen : ([0xA5, 0x5A] ++ frameHeader 0x04 flags requestId payload.length ++ payload).length =
      10 + payload.length := by
    simp [frameHeader]
    omega
  rw [hlen, List.append_nil, List.append_assoc] at h
  exact h

theorem body_request : ((request flags requestId payload).drop 2).take (8 + payload.length) =
    frameHeader 0x04 flags requestId payload.length ++ payload := by
  have hlen : (frameHeader 0x04 flags requestId payload.length ++ payload).length =
      8 + payload.length := by
    simp [frameHeader]
    omega
  rw [request_split, List.append_assoc, List.cons_append, List.cons_append, List.nil_append]
  simp only [List.drop_succ_cons, List.drop_zero, ← List.append_assoc]
  rw [← hlen, List.take_left]

/-- **What the host sends, the bootloader accepts.** A request id is never zero,
and the payload is as long as a packet allows at most. -/
theorem packetAccepted_request (hid : requestId < 65536) (hid0 : requestId ≠ 0)
    (hpos : payload ≠ []) (hlen : payload.length ≤ 52) :
    packetAccepted (request flags requestId payload) = true := by
  have hpos' : payload.length ≠ 0 := by simpa using hpos
  have h1 := length_request flags requestId payload
  have h2 := loadLe16_request_length flags requestId payload (by omega)
  have h3 := loadLe16_request_crc flags requestId payload
  have h4 := body_request flags requestId payload
  have h5 := loadLe16_request_id flags requestId payload hid
  have hbytes : (request flags requestId payload).getD 0 0 = 0xA5 ∧
      (request flags requestId payload).getD 1 0 = 0x5A ∧
      (request flags requestId payload).getD 2 0 = 1 ∧
      (request flags requestId payload).getD 3 0 = 0x04 ∧
      (request flags requestId payload).getD 5 0 = 0 := by
    rw [request_eq]
    simp
  simp only [packetAccepted, h1, h2, h3, h4, h5, ← crc16_eq, hbytes, beq_self_eq_true,
    Bool.and_true, Bool.and_eq_true, decide_eq_true_eq, bne_iff_ne, ne_eq]
  omega

/-- The bootloader reads the payload that was sent. -/
theorem packetPayload_request (hlen : payload.length ≤ 52) :
    packetPayload (request flags requestId payload) = payload := by
  have hten : ([0xA5, 0x5A] ++ frameHeader 0x04 flags requestId payload.length).length = 10 := rfl
  rw [packetPayload, loadLe16_request_length _ _ _ (by omega), request_split, ← hten, List.drop_left,
    List.take_left]

/-- The bootloader reads the opcode that was sent. -/
theorem packetOpcode_request (hpos : payload ≠ []) :
    packetOpcode (request flags requestId payload) = payload.getD 0 0 := by
  obtain ⟨x, xs, rfl⟩ := List.exists_cons_of_ne_nil hpos
  rw [packetOpcode, request_eq]
  simp [write16]

/-- The bootloader reads the flags that were sent. -/
theorem flags_request : (request flags requestId payload).getD 4 0 = flags := by
  rw [request_eq]
  simp

/-! ## Responses -/

/-- The sixteen payload bytes of a response. -/
def responseBody (r : BootRam) (opcode : UInt8) (st : Status) : List UInt8 :=
  [opcode, st.code, r.updateState.code, 0] ++
    write16 (if r.updateState = .authorized ∨ r.updateState = .receiving then r.expectedOffset
      else 0) ++ [0, 0] ++ write32 r.versionFloor ++ write32 r.committedVersion

/-- **What the bootloader answers is a frame of the host's codec.** -/
theorem buildResponse_eq (r : BootRam) (opcode : UInt8) (st : Status) :
    buildResponse r requestId opcode st =
      wire FrameType.firmwareUpdateResponse 0 requestId (responseBody r opcode st) := by
  simp only [buildResponse, wire, frameHeader, responseBody, storeLe16, storeLe32, write16, write32,
    FrameType.firmwareUpdateResponse, magic0, magic1, protocolVersion, crc16_eq]
  rfl

/-- So the host's decoder reports it whole. -/
theorem feed_buildResponse (r : BootRam) (hid : requestId < 65536) (opcode : UInt8)
    (st : Status) :
    feed .reset (buildResponse r requestId opcode st) =
      (.reset, [.frame (frameOf FrameType.firmwareUpdateResponse 0 requestId
        (responseBody r opcode st))]) := by
  rw [buildResponse_eq]
  exact feed_wire hid (by simp [responseBody]) (by simp [responseBody, maxPayloadBytes])

end Update

end DeusOs
