import DeusOs.NodeLink.Codec
import Mathlib.Data.List.Range
import Mathlib.Data.List.Nodup

/-!
# The node link — the worker's replay discipline

Between two handshakes the worker counts: its `highestSequence` is one
more than the number of requests it has executed, each executed request
carries the next number, and what it keeps of the last one is enough to
repeat its reply byte for byte (`executes_each_sequence_once`).
-/

namespace DeusOs

namespace NodeLink

open LittleEndian (read16 read32 write16 write32)

variable {w w' : Worker} {raw : List UInt8} {cap : ℕ} {f req : Frame} {out : List UInt8}

/-! ## What a call does -/

/-- The replies the worker composes fit. -/
theorem fits_answer (w : Worker) (h : req.Fits) : (w.answer req).Fits := by
  refine ⟨?_, ?_⟩
  · have hs : (w.answer req).sequence = req.sequence := by
      simp only [Worker.answer]
      split_ifs <;> rfl
    rw [hs]
    exact h.sequence
  · simp only [Worker.answer]
    split_ifs <;> simp [errorFrame, maxPayload]

/-- The acknowledgement of a hello fits. -/
theorem fits_helloAckFrame (challenge : UInt32) : (helloAckFrame challenge).Fits :=
  ⟨by simp [helloAckFrame], by simp [helloAckFrame, maxPayload]⟩

theorem fits_errorFrame (code type : UInt8) (session : UInt32) (h : req.Fits) :
    (errorFrame code type req.sequence session).Fits :=
  ⟨h.sequence, by simp [errorFrame, maxPayload]⟩

/-- The state after a request was executed: the request and its reply are kept. -/
def Worker.after (w : Worker) (raw : List UInt8) (req : Frame) : Worker :=
  { w with
    lastRequest := raw
    lastReply := (w.answer req).wire
    hasLast := true
    highestSequence := req.sequence
    completedJobs :=
      if req.type = Message.jobCrc32 ∧ (w.answer req).type = Message.jobResult ∧
          w.completedJobs < 0xFFFF then w.completedJobs + 1
      else w.completedJobs }

/-- The state after a new session was opened. -/
def opened (challenge : UInt32) : Worker :=
  { sessionId := challenge, highestSequence := 1, helloReply := (helloAckFrame challenge).wire }

/-- The buffer holds the request that the worker executes next: it is of the
current session, carries the next sequence number and its reply has room. -/
structure Worker.Executes (w : Worker) (raw : List UInt8) (cap : ℕ) (req : Frame) : Prop where
  decoded : decode raw = some req
  request : ¬0x80 ≤ req.type
  other : req.type ≠ Message.hello
  live : w.sessionId ≠ 0
  session : req.sessionId = w.sessionId
  next : req.sequence.toNat = w.highestSequence.toNat + 1
  room : frameOverhead + (w.answer req).payload.length ≤ cap

/-- The buffer holds a `HELLO` the worker accepts for a session that is not
the one it is in. -/
structure Worker.Opens (w : Worker) (raw : List UInt8) (cap : ℕ) (challenge : UInt32) : Prop where
  decoded : ∃ req, decode raw = some req ∧ req.type = Message.hello ∧ req.sessionId = 0 ∧
    req.sequence = 1 ∧ validatePayload req = true ∧
    challenge = UInt32.ofNat (read32 req.payload 0)
  fresh : ¬(challenge = w.sessionId ∧ w.helloReply.length ≠ 0)
  room : frameOverhead + (helloAckFrame challenge).payload.length ≤ cap

/-- What `dnl_worker_process` can do with a buffer. -/
inductive Worker.Handled (w : Worker) (raw : List UInt8) (cap : ℕ) :
    Worker → Except Status (List UInt8) → Prop
  /-- No reply, or no room for it. -/
  | ignored (e : Status) : Handled w raw cap w (.error e)
  /-- The last request again. -/
  | replayed (live : w.hasLast = true) (same : raw = w.lastRequest) :
      Handled w raw cap w (.ok w.lastReply)
  /-- The `HELLO` of the current session again. -/
  | acknowledged (live : w.helloReply.length ≠ 0) : Handled w raw cap w (.ok w.helloReply)
  /-- Another request under the last number, or a gap. -/
  | refused (req : Frame) (decoded : decode raw = some req) (request : ¬0x80 ≤ req.type)
      (other : req.type ≠ Message.hello) (session : req.sessionId = w.sessionId)
      (wrong : (req.sequence = w.highestSequence ∧ w.hasLast = true ∧ raw ≠ w.lastRequest) ∨
        w.highestSequence.toNat + 1 ≠ req.sequence.toNat ∧ ¬req.sequence < w.highestSequence ∧
          ¬(req.sequence = w.highestSequence ∧ w.hasLast = true)) :
      Handled w raw cap w
        (.ok (errorFrame ErrorCode.badSequence req.type req.sequence w.sessionId).wire)
  /-- A new session. -/
  | opened (challenge : UInt32) (h : w.Opens raw cap challenge) :
      Handled w raw cap (NodeLink.opened challenge) (.ok (helloAckFrame challenge).wire)
  /-- The next request. -/
  | executed (req : Frame) (h : w.Executes raw cap req) :
      Handled w raw cap (w.after raw req) (.ok (w.answer req).wire)

theorem encode_ok_or (h : f.Fits) (cap : ℕ) :
    (encode f cap = .error .outputTooSmall ∧ cap < frameOverhead + f.payload.length) ∨
      (encode f cap = .ok f.wire ∧ frameOverhead + f.payload.length ≤ cap) := by
  by_cases hc : cap < frameOverhead + f.payload.length
  · have hbad : ¬(f.sequence = 0 ∨ maxPayload < f.payload.length) := by
      rintro (h0 | h0)
      · exact h.sequence h0
      · have := h.payload
        omega
    exact Or.inl ⟨by rw [encode, if_neg hbad, if_pos hc], hc⟩
  · exact Or.inr ⟨encode_eq h (by omega), by omega⟩

theorem processHello_handled (hd : decode raw = some req) (ht : req.type = Message.hello) :
    w.Handled raw cap (w.processHello req cap).1 (w.processHello req cap).2 := by
  unfold Worker.processHello
  by_cases hbad : req.sessionId ≠ 0 ∨ req.sequence ≠ 1 ∨ validatePayload req = false
  · rw [if_pos hbad]
    exact .ignored _
  · rw [if_neg hbad]
    simp only [not_or, not_not, Bool.not_eq_false] at hbad
    obtain ⟨h0, h1, hv⟩ := hbad
    simp only
    split_ifs with hsame hcap
    · exact .ignored _
    · exact .acknowledged hsame.2
    · rcases encode_ok_or (fits_helloAckFrame (UInt32.ofNat (read32 req.payload 0))) cap
        with ⟨he, -⟩ | ⟨he, hroom⟩
      · rw [he]
        exact .ignored _
      · rw [he]
        exact .opened _ ⟨⟨req, hd, ht, h0, h1, hv, rfl⟩, hsame, hroom⟩

/-- **Every call does one of these.** -/
theorem process_handled (w : Worker) (raw : List UInt8) (cap : ℕ) :
    w.Handled raw cap (w.process raw cap).1 (w.process raw cap).2 := by
  unfold Worker.process
  cases hd : decode raw with
  | none => exact .ignored _
  | some req =>
    have hfits := (fits_of_decode hd).1
    simp only
    by_cases hreply : 0x80 ≤ req.type
    · rw [if_pos hreply]
      exact .ignored _
    rw [if_neg hreply]
    by_cases hhello : req.type = Message.hello
    · rw [if_pos hhello]
      exact processHello_handled hd hhello
    rw [if_neg hhello]
    by_cases hsession : w.sessionId = 0 ∨ req.sessionId ≠ w.sessionId
    · rw [if_pos hsession]
      exact .ignored _
    rw [if_neg hsession]
    simp only [not_or, not_not] at hsession
    have hrefuse :=
      encode_ok_or (fits_errorFrame ErrorCode.badSequence req.type w.sessionId hfits) cap
    by_cases hlast : req.sequence = w.highestSequence ∧ w.hasLast = true
    · rw [if_pos hlast]
      by_cases hsame : raw = w.lastRequest
      · rw [if_pos hsame]
        by_cases hcap : cap < w.lastReply.length
        · rw [if_pos hcap]
          exact .ignored _
        · rw [if_neg hcap]
          exact .replayed hlast.2 hsame
      · rw [if_neg hsame, workerError]
        rcases hrefuse with ⟨he, -⟩ | ⟨he, -⟩
        · rw [he]
          exact .ignored _
        · rw [he]
          exact .refused req hd hreply hhello hsession.2 (Or.inl ⟨hlast.1, hlast.2, hsame⟩)
    rw [if_neg hlast]
    by_cases hold : req.sequence < w.highestSequence
    · rw [if_pos hold]
      exact .ignored _
    rw [if_neg hold]
    by_cases hgap : req.sequence.toNat ≠ w.highestSequence.toNat + 1
    · rw [if_pos hgap, workerError]
      rcases hrefuse with ⟨he, -⟩ | ⟨he, -⟩
      · rw [he]
        exact .ignored _
      · rw [he]
        exact .refused req hd hreply hhello hsession.2 (Or.inr ⟨fun h => hgap h.symm, hold, hlast⟩)
    rw [if_neg hgap]
    rcases encode_ok_or (fits_answer w hfits) cap with ⟨he, -⟩ | ⟨he, hroom⟩
    · rw [he]
      exact .ignored _
    · rw [he]
      exact .executed req ⟨hd, hreply, hhello, hsession.1, hsession.2, by_contra hgap, hroom⟩

/-- A request that is next is executed. -/
theorem process_of_executes (h : w.Executes raw cap req) :
    w.process raw cap = (w.after raw req, .ok (w.answer req).wire) := by
  have hfits := (fits_of_decode h.decoded).1
  have hnext := h.next
  have hne : ¬(req.sequence = w.highestSequence ∧ w.hasLast = true) := by
    rintro ⟨he, -⟩
    rw [he] at hnext
    omega
  have hlt : ¬req.sequence < w.highestSequence := by
    rw [UInt16.lt_iff_toNat_lt]
    omega
  simp only [Worker.process, h.decoded]
  rw [if_neg h.request, if_neg h.other, if_neg (by
    rintro (h0 | h0)
    · exact h.live h0
    · exact h0 h.session), if_neg hne, if_neg hlt, if_neg (fun hn => hn hnext),
    encode_eq (fits_answer w hfits) h.room]
  rfl

/-- The last request again is answered with the reply that was kept. -/
theorem process_of_replay (hd : decode w.lastRequest = some req) (hr : ¬0x80 ≤ req.type)
    (ho : req.type ≠ Message.hello) (hlive : w.sessionId ≠ 0) (hs : req.sessionId = w.sessionId)
    (hseq : req.sequence = w.highestSequence) (hlast : w.hasLast = true)
    (hcap : w.lastReply.length ≤ cap) :
    w.process w.lastRequest cap = (w, .ok w.lastReply) := by
  simp only [Worker.process, hd]
  rw [if_neg hr, if_neg ho, if_neg (by
    rintro (h0 | h0)
    · exact hlive h0
    · exact h0 hs), if_pos ⟨hseq, hlast⟩]
  simp only [if_true]
  rw [if_neg (by omega)]

/-- The `HELLO` of the current session again is answered with the reply that was kept. -/
theorem process_of_rehello (hd : decode raw = some req) (ht : req.type = Message.hello)
    (h0 : req.sessionId = 0) (h1 : req.sequence = 1) (hv : validatePayload req = true)
    (hc : UInt32.ofNat (read32 req.payload 0) = w.sessionId) (hl : w.helloReply.length ≠ 0)
    (hcap : w.helloReply.length ≤ cap) :
    w.process raw cap = (w, .ok w.helloReply) := by
  simp only [Worker.process, hd]
  rw [if_neg (by rw [ht]; decide), if_pos ht, Worker.processHello, if_neg (by
    rintro (h | h | h)
    · exact h h0
    · exact h h1
    · rw [hv] at h
      cases h), if_pos ⟨hc, hl⟩, if_neg (by omega)]

/-- A `HELLO` of another session opens it. -/
theorem process_of_opens {challenge : UInt32} (h : w.Opens raw cap challenge) :
    w.process raw cap = (opened challenge, .ok (helloAckFrame challenge).wire) := by
  obtain ⟨⟨req, hd, ht, h0, h1, hv, rfl⟩, hfresh, hroom⟩ := h
  simp only [Worker.process, hd]
  rw [if_neg (by rw [ht]; decide), if_pos ht, Worker.processHello, if_neg (by
    rintro (h | h | h)
    · exact h h0
    · exact h h1
    · rw [hv] at h
      cases h)]
  simp only
  rw [if_neg hfresh, encode_eq (fits_helloAckFrame _) hroom]
  rfl

/-! ## Runs of one session -/

/-- The request a call executes, if any. -/
def Worker.nextRequest (w : Worker) (raw : List UInt8) (cap : ℕ) : Option Frame :=
  (decode raw).filter fun req =>
    ¬0x80 ≤ req.type ∧ req.type ≠ Message.hello ∧ w.sessionId ≠ 0 ∧
      req.sessionId = w.sessionId ∧ req.sequence.toNat = w.highestSequence.toNat + 1 ∧
      frameOverhead + (w.answer req).payload.length ≤ cap

/-- The next request is the one that the worker executes. -/
theorem nextRequest_eq_some : w.nextRequest raw cap = some req ↔ w.Executes raw cap req := by
  simp only [Worker.nextRequest, Option.filter_eq_some_iff, decide_eq_true_eq]
  constructor
  · rintro ⟨hd, hr, ho, hl, hs, hn, hc⟩
    exact ⟨hd, hr, ho, hl, hs, hn, hc⟩
  · rintro ⟨hd, hr, ho, hl, hs, hn, hc⟩
    exact ⟨hd, hr, ho, hl, hs, hn, hc⟩

/-- A request that was executed: its bytes, and the reply they were given. -/
structure Execution where
  request : Frame
  raw : List UInt8
  reply : List UInt8
  deriving DecidableEq, Repr

/-- What one call executes. -/
def Worker.execution (w : Worker) (raw : List UInt8) (cap : ℕ) : Option Execution :=
  match w.nextRequest raw cap, (w.process raw cap).2 with
  | some request, .ok reply => some { request, raw, reply }
  | _, _ => none

theorem execution_eq_none (h : ∀ req, ¬w.Executes raw cap req) : w.execution raw cap = none := by
  have hnone : w.nextRequest raw cap = none := by
    rcases hn : w.nextRequest raw cap with _ | req
    · rfl
    · exact absurd (nextRequest_eq_some.1 hn) (h req)
  simp only [Worker.execution, hnone]

theorem execution_eq_some (h : w.Executes raw cap req) :
    w.execution raw cap = some { request := req, raw, reply := (w.answer req).wire } := by
  simp only [Worker.execution, nextRequest_eq_some.2 h, process_of_executes h]

/-- The worker after a sequence of buffers, each with the room for its reply. -/
def Worker.run (w : Worker) (inputs : List (List UInt8 × ℕ)) : Worker :=
  inputs.foldl (fun w x => (w.process x.1 x.2).1) w

/-- What a sequence of buffers executes. -/
def Worker.executions (w : Worker) : List (List UInt8 × ℕ) → List Execution
  | [] => []
  | x :: xs => (w.execution x.1 x.2).toList ++ (w.process x.1 x.2).1.executions xs

/-- No buffer of the sequence opens another session. -/
def Worker.Stays (w : Worker) : List (List UInt8 × ℕ) → Prop
  | [] => True
  | x :: xs => (∀ challenge, ¬w.Opens x.1 x.2 challenge) ∧ (w.process x.1 x.2).1.Stays xs

/-- The execution was of a valid `JOB_CRC32`. -/
def Execution.isJob (e : Execution) : Bool :=
  e.request.type = Message.jobCrc32 ∧ validatePayload e.request = true

/-- Where a worker stands in the session of `challenge`, `log` executed. -/
structure Progress (challenge : UInt32) (log : List Execution) (w : Worker) : Prop where
  live : challenge ≠ 0
  session : w.sessionId = challenge
  hello : w.helloReply = (helloAckFrame challenge).wire
  highest : w.highestSequence.toNat = 1 + log.length
  sequences : log.map (fun e => e.request.sequence.toNat) = List.range' 2 log.length
  /-- Until the first request there is nothing to repeat. -/
  first : log = [] → w.hasLast = false
  /-- Afterwards, the last request and its reply. -/
  last : ∀ e, log.getLast? = some e → w.hasLast = true ∧ w.lastRequest = e.raw ∧
    w.lastReply = e.reply ∧ decode e.raw = some e.request ∧ ¬0x80 ≤ e.request.type ∧
    e.request.type ≠ Message.hello ∧ e.request.sessionId = challenge
  jobs : w.completedJobs = min 65535 (log.countP Execution.isJob)

variable {challenge : UInt32} {log : List Execution}

/-- A job result is the answer to a valid job, and to nothing else. -/
theorem answer_type_jobResult (w : Worker) (req : Frame) (ht : req.type = Message.jobCrc32) :
    (w.answer req).type = Message.jobResult ↔ validatePayload req = true := by
  cases hv : validatePayload req with
  | false =>
    rw [Worker.answer, if_pos hv]
    exact ⟨fun h => absurd h (show ¬Message.error = Message.jobResult by decide), fun h => by cases h⟩
  | true =>
    have hok : ¬validatePayload req = false := by
      rw [hv]
      decide
    rw [Worker.answer, if_neg hok, if_neg (by rw [ht]; decide), if_pos ht]
    exact ⟨fun _ => rfl, fun _ => rfl⟩

/-- What the worker keeps of a session is read off its log: the last request
of the log again gets its reply again. -/
theorem Progress.replay (h : Progress challenge log w) {e : Execution}
    (he : log.getLast? = some e) (hcap : e.reply.length ≤ cap) :
    w.process e.raw cap = (w, .ok e.reply) := by
  obtain ⟨hlast, hraw, hreply, hd, hr, ho, hs⟩ := h.last e he
  have hseq : e.request.sequence = w.highestSequence := by
    obtain ⟨front, rfl⟩ := List.getLast?_eq_some_iff.1 he
    have hmap := h.sequences
    rw [List.map_append, List.length_append, List.length_singleton, List.range'_1_concat] at hmap
    have htail := (List.append_inj' hmap rfl).2
    have hhigh := h.highest
    rw [List.length_append, List.length_singleton] at hhigh
    rw [← UInt16.toNat_inj, hhigh]
    have h2 : e.request.sequence.toNat = 2 + front.length := by simpa using htail
    omega
  have hp : w.process w.lastRequest cap = (w, .ok w.lastReply) :=
    process_of_replay (by rw [hraw]; exact hd) hr ho (by rw [h.session]; exact h.live)
      (by rw [h.session]; exact hs) hseq hlast (by rw [hreply]; exact hcap)
  rw [hraw, hreply] at hp
  exact hp

/-- A buffer the worker does not execute, in a session it does not leave, changes nothing. -/
theorem process_of_quiet (hexec : ∀ req, ¬w.Executes raw cap req)
    (hopen : ∀ challenge, ¬w.Opens raw cap challenge) : (w.process raw cap).1 = w := by
  generalize hr : w.process raw cap = r
  have h := process_handled w raw cap
  rw [hr] at h
  obtain ⟨w', reply⟩ := r
  simp only at h ⊢
  cases h with
  | ignored => rfl
  | replayed => rfl
  | acknowledged => rfl
  | refused => rfl
  | opened challenge h => exact absurd h (hopen challenge)
  | executed req h => exact absurd h (hexec req)

/-- **One buffer**: the log grows by what it executes, and the worker with it. A
buffer that executes nothing leaves both. -/
theorem Progress.step (h : Progress challenge log w) (raw : List UInt8) (cap : ℕ)
    (hopen : ∀ challenge, ¬w.Opens raw cap challenge) :
    Progress challenge (log ++ (w.execution raw cap).toList) (w.process raw cap).1 := by
  by_cases hexec : ∃ req, w.Executes raw cap req
  · obtain ⟨req, hx⟩ := hexec
    rw [execution_eq_some hx, process_of_executes hx]
    have hnext : req.sequence.toNat = 2 + log.length := by
      rw [hx.next, h.highest]
      omega
    refine ⟨h.live, h.session, h.hello, ?_, ?_, ?_, ?_, ?_⟩
    · simp only [Worker.after, Option.toList, List.length_append, List.length_singleton]
      omega
    · simp only [Option.toList, List.map_append, List.map_cons, List.map_nil, List.length_append,
        List.length_singleton, List.range'_1_concat, h.sequences, hnext]
    · intro hnil
      simp at hnil
    · intro e he
      simp only [Option.toList, List.getLast?_append, List.getLast?_singleton, Option.some_or,
        Option.some.injEq] at he
      subst he
      exact ⟨rfl, rfl, rfl, hx.decoded, hx.request, hx.other, hx.session.trans h.session⟩
    · -- the counter stops at the top, as the minimum does
      have hjobs := h.jobs
      simp only [Worker.after, Option.toList, List.countP_append, List.countP_singleton]
      by_cases hjob : req.type = Message.jobCrc32
      · by_cases hv : validatePayload req = true
        · have hres := (answer_type_jobResult w req hjob).2 hv
          simp only [Execution.isJob, hjob, hv, hres, true_and, and_self, decide_true, if_true]
          split_ifs <;> omega
        · have hres : ¬(w.answer req).type = Message.jobResult := fun h1 =>
            hv ((answer_type_jobResult w req hjob).1 h1)
          simp only [Execution.isJob, hjob, hv, hres, and_false, false_and, decide_false,
            if_false, Bool.false_eq_true]
          omega
      · simp only [Execution.isJob, hjob, false_and, decide_false, if_false, Bool.false_eq_true]
        omega
  · have hnone : ∀ req, ¬w.Executes raw cap req := fun req hx => hexec ⟨req, hx⟩
    rw [execution_eq_none hnone, process_of_quiet hnone hopen]
    simpa using h

/-- **A whole run** of one session, buffer by buffer, as long as none of them
opens another session. -/
theorem Progress.run (h : Progress challenge log w) (inputs : List (List UInt8 × ℕ))
    (hstay : w.Stays inputs) :
    Progress challenge (log ++ w.executions inputs) (w.run inputs) := by
  induction inputs generalizing w log with
  | nil => simpa [Worker.executions, Worker.run] using h
  | cons x xs ih =>
    obtain ⟨hopen, hrest⟩ := hstay
    have hstep := ih (h.step x.1 x.2 hopen) hrest
    simpa [Worker.executions, Worker.run, List.append_assoc] using hstep

/-- A session that was just opened has executed nothing. -/
theorem progress_opened (h : w.Opens raw cap challenge) : Progress challenge [] (opened challenge) := by
  obtain ⟨req, -, ht, -, -, hv, rfl⟩ := h.decoded
  have hlive : UInt32.ofNat (read32 req.payload 0) ≠ 0 := by
    intro h0
    have hlt : read32 req.payload 0 < 4294967296 := by
      have ha := (req.payload.getD 0 0).toNat_lt
      have hb := (req.payload.getD (0 + 1) 0).toNat_lt
      have hc := (req.payload.getD (0 + 2) 0).toNat_lt
      have hd := (req.payload.getD (0 + 3) 0).toNat_lt
      simp only [read32]
      omega
    have hz := congrArg UInt32.toNat h0
    rw [UInt32.toNat_ofNat', Nat.mod_eq_of_lt hlt] at hz
    simp [validatePayload, ht] at hv
    exact hv.2 hz
  exact ⟨hlive, rfl, rfl, rfl, rfl, fun _ => rfl, fun e he => by simp at he, rfl⟩

/-- **The worker executes each sequence number at most once.** After a `HELLO`
that opened a session, and any buffers of which none opens another: the
highest sequence is one more than the number of requests executed, which
carry the numbers from two up, each once; the last request again is given
its reply again, and the `HELLO` of the session its acknowledgement, both
without a change; and the jobs counted are the valid jobs executed, up to
the counter's end. -/
theorem executes_each_sequence_once {w₀ w₁ : Worker} {hello ack : List UInt8} {cap₀ : ℕ}
    {challenge : UInt32} (hopen : w₀.Opens hello cap₀ challenge)
    (hstep : w₀.process hello cap₀ = (w₁, .ok ack)) (inputs : List (List UInt8 × ℕ))
    (hstay : w₁.Stays inputs) :
    (w₁.run inputs).highestSequence.toNat = 1 + (w₁.executions inputs).length ∧
      (w₁.executions inputs).map (fun e => e.request.sequence.toNat) =
        List.range' 2 (w₁.executions inputs).length ∧
      ((w₁.executions inputs).map fun e => e.request.sequence).Nodup ∧
      (∀ e cap, (w₁.executions inputs).getLast? = some e → e.reply.length ≤ cap →
        (w₁.run inputs).process e.raw cap = (w₁.run inputs, .ok e.reply)) ∧
      (∀ raw req cap, decode raw = some req → req.type = Message.hello → req.sessionId = 0 →
        req.sequence = 1 → validatePayload req = true →
        UInt32.ofNat (read32 req.payload 0) = challenge → ack.length ≤ cap →
        (w₁.run inputs).process raw cap = (w₁.run inputs, .ok ack)) ∧
      (w₁.run inputs).completedJobs =
        min 65535 ((w₁.executions inputs).countP Execution.isJob) := by
  have hpair := process_of_opens hopen
  rw [hstep] at hpair
  obtain ⟨rfl, hack⟩ := Prod.mk.inj hpair
  obtain rfl := Except.ok.inj hack
  have hp := (progress_opened hopen).run inputs hstay
  rw [List.nil_append] at hp
  refine ⟨hp.highest, hp.sequences, ?_, fun e cap he hcap => hp.replay he hcap, ?_, hp.jobs⟩
  · -- the numbers are distinct already as naturals
    have hnat : (((opened challenge).executions inputs).map
        fun e => e.request.sequence.toNat).Nodup := by
      rw [hp.sequences]
      exact List.nodup_range'
    have hmap : ((opened challenge).executions inputs).map (fun e => e.request.sequence.toNat) =
        (((opened challenge).executions inputs).map fun e => e.request.sequence).map
          UInt16.toNat := by
      rw [List.map_map]
      rfl
    rw [hmap] at hnat
    exact List.Nodup.of_map _ hnat
  · intro raw req cap hd ht h0 h1 hv hc hcap
    have hlen : ((opened challenge).run inputs).helloReply.length ≠ 0 := by
      rw [hp.hello, Frame.length_wire]
      omega
    have hsame : ((opened challenge).run inputs).process raw cap =
        ((opened challenge).run inputs, .ok ((opened challenge).run inputs).helloReply) :=
      process_of_rehello hd ht h0 h1 hv (hc.trans hp.session.symm) hlen
        (by rw [hp.hello]; exact hcap)
    rw [hsame, hp.hello]

/-- The theorem at a handshake and a ping that is sent twice. -/
theorem executes_each_sequence_once_of_ping :
    ((opened 0x04030201).run [(Frame.wire ⟨2, 2, 0x04030201, []⟩, 40),
      (Frame.wire ⟨2, 2, 0x04030201, []⟩, 40)]).highestSequence.toNat = 2 := by
  have hfits : (helloFrame 0x04030201).Fits := ⟨by decide, by decide⟩
  have hping : Frame.Fits ⟨2, 2, 0x04030201, []⟩ := ⟨by decide, by decide⟩
  have hopen : Worker.Opens {} (helloFrame 0x04030201).wire 40 0x04030201 :=
    ⟨⟨_, decode_wire hfits, rfl, rfl, rfl, by decide, by decide⟩, by decide, by decide⟩
  have hquiet : ∀ (w : Worker) challenge,
      ¬w.Opens (Frame.wire ⟨2, 2, 0x04030201, []⟩) 40 challenge := by
    rintro w challenge ⟨⟨req, hd, ht, -⟩, -⟩
    rw [decode_wire hping] at hd
    cases hd
    exact absurd ht (by decide)
  have h := (executes_each_sequence_once hopen (process_of_opens hopen)
    [(Frame.wire ⟨2, 2, 0x04030201, []⟩, 40), (Frame.wire ⟨2, 2, 0x04030201, []⟩, 40)]
    ⟨hquiet _, hquiet _, trivial⟩).1
  rw [h]
  decide +kernel

end NodeLink

end DeusOs
