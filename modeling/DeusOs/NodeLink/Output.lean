import DeusOs.NodeLink.Model.Output
import DeusOs.NodeLink.Agreement

/-!
# The node link — all or nothing

A call with its output buffer does what the call without it does, and puts
the reply in the buffer or, when there is none, a length of zero
(`processInto_eq` and its kind). So a call that fails has changed nothing,
and made again it does what it would have done at first
(`calls_all_or_nothing`).
-/

namespace DeusOs

namespace NodeLink

variable {w : Worker} {c : Controller} {f : Frame} {o : Output} {raw : List UInt8}

/-! ## What a call leaves in its buffer -/

/-- The reply in the buffer, or a length of zero. -/
def Output.report (o : Output) : Except Status (List UInt8) → Output × Option Status
  | .error e => ({ o with len := 0 }, some e)
  | .ok bytes => (o.copy bytes, none)

theorem take_copy (o : Output) (bytes : List UInt8) :
    (o.copy bytes).buf.take (o.copy bytes).len = bytes := List.take_left

theorem copy_reset (o : Output) (bytes : List UInt8) :
    Output.copy { o with len := 0 } bytes = o.copy bytes := rfl

/-- A call that reports a status has put nothing in the buffer. -/
theorem report_eq {res : Except Status (List UInt8)} {e : Status} (h : (o.report res).2 = some e) :
    res = .error e ∧ o.report res = ({ o with len := 0 }, some e) := by
  cases res with
  | error e' =>
    cases h
    exact ⟨rfl, rfl⟩
  | ok bytes => cases h

/-- Encoding, in the buffer. -/
theorem encodeInto_eq (f : Frame) (o : Output) :
    encodeInto f o = o.report (encode f o.buf.length) := by
  unfold encodeInto encode
  simp only
  split
  · rfl
  split
  · rfl
  · have hlen : frameOverhead + f.payload.length = f.wire.length := by
      rw [f.length_wire, Nat.add_comm]
    rw [hlen]
    rfl

/-! ## The worker -/

theorem processHelloInto_eq (w : Worker) (req : Frame) (hzero : o.len = 0) :
    w.processHelloInto req o =
      ((w.processHello req o.buf.length).1, o.report (w.processHello req o.buf.length).2) := by
  have hreset : { o with len := 0 } = o := by
    rw [← hzero]
  unfold Worker.processHelloInto Worker.processHello
  by_cases hbad : req.sessionId ≠ 0 ∨ req.sequence ≠ 1 ∨ validatePayload req = false
  · rw [if_pos hbad, if_pos hbad]
    simp only [Output.report, hreset]
  rw [if_neg hbad, if_neg hbad]
  simp only
  split_ifs with hsame hcap
  · simp only [Output.report, hreset]
  · rfl
  · rw [encodeInto_eq]
    cases he : encode (helloAckFrame (UInt32.ofNat (LittleEndian.read32 req.payload 0)))
        o.buf.length with
    | error e => simp only [Output.report, hreset]
    | ok out => simp only [Output.report, copy_reset, take_copy]

/-- **`dnl_worker_process` in its buffer.** -/
theorem processInto_eq (w : Worker) (raw : List UInt8) (o : Output) :
    w.processInto raw o =
      ((w.process raw o.buf.length).1, o.report (w.process raw o.buf.length).2) := by
  unfold Worker.processInto Worker.process
  cases hd : decode raw with
  | none => rfl
  | some req =>
    simp only
    split
    · rfl
    split
    · rw [processHelloInto_eq w req rfl]
      cases (w.processHello req o.buf.length).2 <;> rfl
    split
    · rfl
    split
    · split
      · split
        · rfl
        · rfl
      · rw [workerErrorInto, encodeInto_eq, workerError]
        cases encode (errorFrame ErrorCode.badSequence req.type req.sequence w.sessionId)
          o.buf.length <;> rfl
    split
    · rfl
    split
    · rw [workerErrorInto, encodeInto_eq, workerError]
      cases encode (errorFrame ErrorCode.badSequence req.type req.sequence w.sessionId)
        o.buf.length <;> rfl
    · rw [encodeInto_eq]
      cases he : encode (w.answer req) o.buf.length with
      | error e => rfl
      | ok out =>
        simp only [Output.report, copy_reset, take_copy]
        split <;> rfl

/-- A worker that does not answer stays as it is. -/
theorem process_error {cap : ℕ} {e : Status} (h : (w.process raw cap).2 = .error e) :
    (w.process raw cap).1 = w := by
  have hcall := process_handled w raw cap
  rw [h] at hcall
  generalize (w.process raw cap).1 = w' at hcall ⊢
  cases hcall
  rfl

theorem processInto_fails {e : Status} (h : (w.processInto raw o).2.2 = some e) :
    w.processInto raw o = (w, { o with len := 0 }, some e) := by
  rw [processInto_eq] at h ⊢
  obtain ⟨hres, hreport⟩ := report_eq h
  rw [hreport, process_error hres]

/-! ## The controller -/

/-- What `controller_emit` leaves in the buffer. -/
theorem emitInto_eq (c : Controller) (f : Frame) (o : Output) :
    c.emitInto f o =
      match c.emit f o.buf.length with
      | .error e => (c, { o with len := 0 }, some e)
      | .ok (c', out) => (c', o.copy out, none) := by
  unfold Controller.emitInto Controller.emit
  rw [encodeInto_eq]
  cases he : encode f o.buf.length with
  | error e => rfl
  | ok out =>
    simp only [Output.report, take_copy]
    rfl

/-- **`dnl_controller_hello` in its buffer.** -/
theorem helloInto_eq (c : Controller) (challenge : UInt32) (o : Output) :
    c.helloInto challenge o =
      ((c.hello challenge o.buf.length).1, o.report (c.hello challenge o.buf.length).2) := by
  unfold Controller.helloInto Controller.hello
  simp only
  split
  · rfl
  · rw [emitInto_eq]
    cases he : c.emit (helloFrame challenge) o.buf.length with
    | error e => rfl
    | ok r => rfl

/-- **`dnl_controller_request` in its buffer**, unless there is no payload
where there should be one. -/
theorem requestInto_eq (c : Controller) (type : UInt8) {payload : List UInt8} {length : UInt8}
    (hlen : length.toNat ≤ payload.length) (o : Output) :
    c.requestInto type (some payload) length o =
      ((c.request type (payload.take length.toNat) o.buf.length).1,
        o.report (c.request type (payload.take length.toNat) o.buf.length).2) := by
  have htake : (payload.take length.toNat).length = length.toNat := by
    rw [List.length_take, Nat.min_eq_left hlen]
  unfold Controller.requestInto Controller.request
  simp only [htake, Option.getD_some, reduceCtorEq, and_false, or_false]
  split
  · rfl
  split
  · rfl
  split
  · rfl
  split
  · rfl
  split
  · rfl
  · rw [emitInto_eq]
    cases he : c.emit (c.requestFrame type (payload.take length.toNat)) o.buf.length with
    | error e => rfl
    | ok r => rfl

/-- **`dnl_controller_timeout` in its buffer.** -/
theorem timeoutInto_eq (c : Controller) (o : Output) :
    c.timeoutInto o = ((c.timeout o.buf.length).1, o.report (c.timeout o.buf.length).2) := by
  unfold Controller.timeoutInto Controller.timeout
  simp only
  split_ifs <;> rfl

/-- A controller that sends nothing stays as it is. -/
theorem hello_error {challenge : UInt32} {cap : ℕ} {e : Status}
    (h : (c.hello challenge cap).2 = .error e) : (c.hello challenge cap).1 = c := by
  unfold Controller.hello at h ⊢
  split
  · rfl
  · rename_i hok
    rw [if_neg hok] at h
    cases he : c.emit (helloFrame challenge) cap with
    | error e' => rfl
    | ok r =>
      rw [he] at h
      cases h

theorem helloInto_fails {challenge : UInt32} {e : Status}
    (h : (c.helloInto challenge o).2.2 = some e) :
    c.helloInto challenge o = (c, { o with len := 0 }, some e) := by
  rw [helloInto_eq] at h ⊢
  obtain ⟨hres, hreport⟩ := report_eq h
  rw [hreport, hello_error hres]

theorem requestInto_fails {type : UInt8} {payload : Option (List UInt8)} {length : UInt8}
    {e : Status} (h : (c.requestInto type payload length o).2.2 = some e) :
    c.requestInto type payload length o = (c, { o with len := 0 }, some e) := by
  unfold Controller.requestInto at h ⊢
  simp only at h ⊢
  by_cases hready : c.ready = false ∨ c.pending = true
  · rw [if_pos hready] at h ⊢
    cases h
    rfl
  rw [if_neg hready] at h ⊢
  by_cases htype : type ≠ Message.ping ∧ type ≠ Message.jobCrc32 ∧ type ≠ Message.getStatus
  · rw [if_pos htype] at h ⊢
    cases h
    rfl
  rw [if_neg htype] at h ⊢
  by_cases hlength : maxPayload < length.toNat ∨ (length ≠ 0 ∧ payload = none)
  · rw [if_pos hlength] at h ⊢
    cases h
    rfl
  rw [if_neg hlength] at h ⊢
  by_cases hlast : c.lastSequence = 0xFFFF
  · rw [if_pos hlast] at h ⊢
    cases h
    rfl
  rw [if_neg hlast] at h ⊢
  generalize c.requestFrame type ((payload.getD []).take length.toNat) = f at h ⊢
  by_cases hvalid : validatePayload f = false
  · rw [if_pos hvalid] at h ⊢
    cases h
    rfl
  rw [if_neg hvalid, emitInto_eq] at h ⊢
  cases he : c.emit f o.buf.length with
  | error e' =>
    rw [he] at h
    cases h
    rfl
  | ok r =>
    rw [he] at h
    cases h

/-- A reply that is not the one that is waited for changes nothing. -/
theorem receive_fails {e : Status} (h : (c.receive raw).2 = some e) (hremote : e ≠ .remoteError) :
    (c.receive raw).1 = c := by
  rcases receive_cases c raw with ⟨e', heq, -⟩ | ⟨g, -, -, -, -, ⟨-, heq⟩ | ⟨-, -, heq⟩⟩
  · rw [heq]
  · rw [heq] at h
    exact absurd (Option.some.inj h).symm hremote
  · rw [heq] at h
    cases h

theorem timeoutInto_fails (h : (c.timeoutInto o).2.2 = some .outputTooSmall) :
    c.timeoutInto o = (c, { o with len := 0 }, some .outputTooSmall) := by
  unfold Controller.timeoutInto at h ⊢
  simp only at h ⊢
  split_ifs at h ⊢ with h1 h2 h3
  · cases h
  · rfl
  · cases h

/-- **All or nothing.** A call of the worker, and one of the controller that
sends a request, either returns `DNL_OK` or leaves the structure and the
buffer as they were and reports a length of zero; a reply other than the one
that is waited for, and a retry that has no room, leave the controller as it was. The same
call with another buffer then does what it would have done at first. -/
theorem calls_all_or_nothing :
    (∀ (w : Worker) (raw : List UInt8) (o : Output) (e : Status),
      (w.processInto raw o).2.2 = some e →
        w.processInto raw o = (w, { o with len := 0 }, some e) ∧
        ∀ o', (w.processInto raw o).1.processInto raw o' = w.processInto raw o') ∧
    (∀ (c : Controller) (challenge : UInt32) (o : Output) (e : Status),
      (c.helloInto challenge o).2.2 = some e →
        c.helloInto challenge o = (c, { o with len := 0 }, some e) ∧
        ∀ o', (c.helloInto challenge o).1.helloInto challenge o' = c.helloInto challenge o') ∧
    (∀ (c : Controller) (type : UInt8) (payload : Option (List UInt8)) (length : UInt8)
      (o : Output) (e : Status), (c.requestInto type payload length o).2.2 = some e →
        c.requestInto type payload length o = (c, { o with len := 0 }, some e) ∧
        ∀ o', (c.requestInto type payload length o).1.requestInto type payload length o' =
          c.requestInto type payload length o') ∧
    (∀ (c : Controller) (raw : List UInt8) (e : Status), (c.receive raw).2 = some e →
      e ≠ .remoteError → (c.receive raw).1 = c ∧
        ∀ raw', (c.receive raw).1.receive raw' = c.receive raw') ∧
    ∀ (c : Controller) (o : Output), (c.timeoutInto o).2.2 = some .outputTooSmall →
      c.timeoutInto o = (c, { o with len := 0 }, some .outputTooSmall) ∧
        ∀ o', (c.timeoutInto o).1.timeoutInto o' = c.timeoutInto o' := by
  refine ⟨fun w raw o e h => ?_, fun c challenge o e h => ?_,
    fun c type payload length o e h => ?_, fun c raw e h hremote => ?_, fun c o h => ?_⟩
  · have hfail := processInto_fails h
    exact ⟨hfail, fun o' => by rw [hfail]⟩
  · have hfail := helloInto_fails h
    exact ⟨hfail, fun o' => by rw [hfail]⟩
  · have hfail := requestInto_fails h
    exact ⟨hfail, fun o' => by rw [hfail]⟩
  · have hfail := receive_fails h hremote
    exact ⟨hfail, fun raw' => by rw [hfail]⟩
  · have hfail := timeoutInto_fails h
    exact ⟨hfail, fun o' => by rw [hfail]⟩

/-- The theorem at a `HELLO` that has four bytes for its answer. -/
theorem calls_all_or_nothing_of_hello :
    Worker.processInto {} (helloFrame 0x04030201).wire ⟨[7, 7, 7, 7], 9⟩ =
      ({}, ⟨[7, 7, 7, 7], 0⟩, some .outputTooSmall) :=
  (calls_all_or_nothing.1 {} (helloFrame 0x04030201).wire ⟨[7, 7, 7, 7], 9⟩ .outputTooSmall
    (by decide +kernel)).1

end NodeLink

end DeusOs
