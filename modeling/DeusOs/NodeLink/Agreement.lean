import DeusOs.NodeLink.Model.Link
import Mathlib.Data.List.InsertIdx

/-!
# The node link — the two ends agree

Sessions are ordered by when their challenge was used. The messages to the
worker stand in that order, none older than the worker's session, and a
request is issued only in the session the worker is in; so a handshake that
is delivered late can only move the worker forward, and a request the worker
has not executed is the next one (`Link.Inv`). From this the two ends agree
(`Link.agreement`).
-/

namespace DeusOs

namespace NodeLink

open LittleEndian (read32 write32 read32_write32)

variable {f g : Frame} {used : List UInt32} {x y challenge : UInt32}

/-! ## The order of the sessions -/

/-- When a challenge was used; zero, which no session has, comes first. -/
def place (used : List UInt32) (x : UInt32) : ℕ := (0 :: used).idxOf x

@[simp] theorem place_zero : place used 0 = 0 := by simp [place]

theorem place_inj (hx : x ∈ 0 :: used) (h : place used x = place used y) : x = y :=
  (List.idxOf_inj hx).1 h

theorem place_append (hx : x ∈ 0 :: used) : place (used ++ [challenge]) x = place used x := by
  rw [place, ← List.cons_append]
  exact List.idxOf_append_of_mem hx

/-- A new challenge comes after those used before. -/
theorem place_lt_new (hx : x ∈ 0 :: used) (hnew : challenge ∉ 0 :: used) :
    place (used ++ [challenge]) x < place (used ++ [challenge]) challenge := by
  have h1 := List.idxOf_lt_length_of_mem hx
  rw [place_append hx, place, place, ← List.cons_append, List.idxOf_append_of_notMem hnew]
  omega

/-- The session a frame from the controller belongs to. -/
def Frame.tag (f : Frame) : UInt32 :=
  if f.type = Message.hello then UInt32.ofNat (read32 f.payload 0) else f.sessionId

@[simp] theorem read32_helloFrame (challenge : UInt32) :
    read32 (helloFrame challenge).payload 0 = challenge.toNat := by
  have h := read32_write32 challenge.toNat_lt [] []
  simpa [helloFrame] using h

theorem type_helloFrame (challenge : UInt32) : (helloFrame challenge).type = Message.hello := rfl

@[simp] theorem tag_helloFrame (challenge : UInt32) : (helloFrame challenge).tag = challenge := by
  rw [Frame.tag, if_pos (type_helloFrame challenge), read32_helloFrame, UInt32.ofNat_toNat]

theorem fits_helloFrame (challenge : UInt32) : (helloFrame challenge).Fits :=
  ⟨by simp [helloFrame], by simp [helloFrame, maxPayload]⟩

theorem valid_helloFrame (h : challenge ≠ 0) : validatePayload (helloFrame challenge) = true := by
  have h0 : challenge.toNat ≠ 0 := fun h0 => h (UInt32.toNat_inj.1 h0)
  rw [validatePayload, if_pos (type_helloFrame challenge), read32_helloFrame]
  simpa [helloFrame] using h0

/-- A frame the controller issues, the challenges in `used`. -/
inductive Issued (used : List UInt32) : Frame → Prop
  | hello (challenge : UInt32) (mem : challenge ∈ used) (live : challenge ≠ 0) :
      Issued used (helloFrame challenge)
  | request (f : Frame)
      (type : f.type = Message.ping ∨ f.type = Message.jobCrc32 ∨ f.type = Message.getStatus)
      (valid : validatePayload f = true) (fits : f.payload.length ≤ maxPayload)
      (later : 2 ≤ f.sequence.toNat) (mem : f.sessionId ∈ used) (live : f.sessionId ≠ 0) :
      Issued used f

namespace Issued

/-- A frame that was issued fits. -/
theorem fits (h : Issued used f) : f.Fits := by
  cases h with
  | hello challenge => exact fits_helloFrame challenge
  | request _ _ _ hp hl =>
    refine ⟨fun h0 => ?_, hp⟩
    rw [h0] at hl
    exact absurd hl (by decide)

theorem tag_mem (h : Issued used f) : f.tag ∈ used ∧ f.tag ≠ 0 := by
  cases h with
  | hello challenge hm hl => exact ⟨by rwa [tag_helloFrame], by rwa [tag_helloFrame]⟩
  | request _ ht _ _ _ hm hl =>
    have hne : f.type ≠ Message.hello := by
      rcases ht with h | h | h <;> rw [h] <;> decide
    rw [Frame.tag, if_neg hne]
    exact ⟨hm, hl⟩

theorem tag_mem' (h : Issued used f) : f.tag ∈ 0 :: used := List.mem_cons_of_mem _ h.tag_mem.1

theorem mono (h : Issued used f) : Issued (used ++ [challenge]) f := by
  cases h with
  | hello challenge hm hl => exact .hello _ (List.mem_append_left _ hm) hl
  | request _ ht hv hp hl hm h0 => exact .request _ ht hv hp hl (List.mem_append_left _ hm) h0

end Issued

/-- `g` is the worker's reply to `f`. -/
structure Answers (f g : Frame) : Prop where
  fits : g.Fits
  session : g.sessionId = f.tag
  sequence : g.sequence = f.sequence
  type : g.type = f.type ||| 0x80
  result : f.type = Message.jobCrc32 →
    g.payload = f.payload.getD 0 0 :: write32 (crc32Ieee (jobBytes f.payload)).toNat

theorem answers_hello (challenge : UInt32) :
    Answers (helloFrame challenge) (helloAckFrame challenge) :=
  ⟨fits_helloAckFrame challenge, by simp [helloAckFrame], rfl,
    (by decide : Message.helloAck = Message.hello ||| 0x80),
    fun h => absurd h (show ¬Message.hello = Message.jobCrc32 by decide)⟩

/-- The worker's reply to a request of its session answers it. -/
theorem answers_answer {w : Worker} (hi : Issued used f) (hne : f.type ≠ Message.hello)
    (hs : f.sessionId = w.sessionId) : Answers f (w.answer f) := by
  have htag : f.tag = w.sessionId := by rw [Frame.tag, if_neg hne, hs]
  cases hi with
  | hello => exact absurd rfl hne
  | request _ ht hv hp hl =>
    have hok : ¬validatePayload f = false := by
      rw [hv]
      decide
    have hfits := fits_answer w (Issued.fits (.request f ht hv hp hl ‹_› ‹_›))
    rcases ht with h | h | h
    · have ha : w.answer f = ⟨Message.pong, f.sequence, w.sessionId, []⟩ := by
        rw [Worker.answer, if_neg hok, if_pos h]
      exact ⟨hfits, by rw [ha, htag], by rw [ha], by rw [ha, h]; rfl,
        fun hj => absurd (h.symm.trans hj) (by decide)⟩
    · have ha : w.answer f = ⟨Message.jobResult, f.sequence, w.sessionId,
          f.payload.getD 0 0 :: write32 (crc32Ieee (jobBytes f.payload)).toNat⟩ := by
        rw [Worker.answer, if_neg hok, if_neg (by rw [h]; decide), if_pos h]
      exact ⟨hfits, by rw [ha, htag], by rw [ha], by rw [ha, h]; rfl, fun _ => by rw [ha]⟩
    · have ha : (w.answer f).type = Message.status ∧ (w.answer f).sessionId = w.sessionId ∧
          (w.answer f).sequence = f.sequence := by
        rw [Worker.answer, if_neg hok, if_neg (by rw [h]; decide), if_neg (by rw [h]; decide),
          if_pos h]
        exact ⟨rfl, rfl, rfl⟩
      exact ⟨hfits, by rw [ha.2.1, htag], ha.2.2, by rw [ha.1, h]; rfl,
        fun hj => absurd (h.symm.trans hj) (by decide)⟩

/-! ## The invariant -/

/-- What a worker keeps, in a session. -/
structure Kept (w : Worker) (used : List UInt32) (executed : List Frame) : Prop where
  member : w.sessionId ∈ used
  hello : helloFrame w.sessionId ∈ executed
  reply : w.helloReply = (helloAckFrame w.sessionId).wire
  first : w.hasLast = false → w.highestSequence = 1
  last : w.hasLast = true → ∃ f g, f ∈ executed ∧ f.type ≠ Message.hello ∧
    f.sessionId = w.sessionId ∧ f.sequence = w.highestSequence ∧
    w.lastRequest = f.wire ∧ w.lastReply = g.wire ∧ Answers f g

/-- What a controller is waiting for the reply to: the frame it issued last. -/
structure Awaited (c : Controller) (issued : List Frame) (f : Frame) : Prop where
  last : issued.getLast? = some f
  session : f.tag = c.sessionId
  sequence : f.sequence = c.lastSequence
  bytes : c.requestBytes = f.wire
  type : f.type = c.pendingType

/-- The invariant of a link. -/
structure Link.Inv (l : Link) : Prop where
  /-- The messages to the worker are issued frames, in the order of their
  sessions, none older than the worker's. -/
  queue : ∃ q : List Frame, l.toWorker = q.map Frame.wire ∧
    (∀ f ∈ q, f ∈ l.issued ∧ place l.challenges l.worker.sessionId ≤ place l.challenges f.tag) ∧
    q.Pairwise fun f g => place l.challenges f.tag ≤ place l.challenges g.tag
  /-- The messages to the controller answer executed frames. -/
  replies : ∀ raw ∈ l.toController, ∃ f g, f ∈ l.executed ∧ Answers f g ∧ raw = g.wire
  issued : ∀ f ∈ l.issued, Issued l.challenges f
  newest : ∀ f ∈ l.issued,
    place l.challenges f.tag ≤ place l.challenges l.controller.sessionId ∧
      (f.tag = l.controller.sessionId → f.sequence.toNat ≤ l.controller.lastSequence.toNat)
  distinct : ∀ f ∈ l.issued, ∀ g ∈ l.issued, f.tag = g.tag → f.sequence = g.sequence → f = g
  once : l.issued.Nodup
  current : l.controller.sessionId ∈ 0 :: l.challenges
  awaited : l.controller.pending = true → ∃ f, Awaited l.controller l.issued f
  ready : l.controller.ready = true →
    l.worker.sessionId = l.controller.sessionId ∧ l.controller.sessionId ≠ 0 ∧
      l.controller.lastSequence.toNat ≤ l.worker.highestSequence.toNat + 1 ∧
      (l.controller.pending = false →
        l.worker.highestSequence = l.controller.lastSequence)
  fresh : l.worker.sessionId = 0 → l.worker = {}
  kept : l.worker.sessionId ≠ 0 → Kept l.worker l.challenges l.executed
  /-- A request is issued only in a session the worker has entered, and
  only as its next one. -/
  next : ∀ f ∈ l.issued, f.type ≠ Message.hello →
    place l.challenges f.tag ≤ place l.challenges l.worker.sessionId ∧
      (f.tag = l.worker.sessionId →
        f.sequence.toNat ≤ l.worker.highestSequence.toNat + 1)
  executed : ∀ f ∈ l.executed, f ∈ l.issued ∧
    place l.challenges f.tag ≤ place l.challenges l.worker.sessionId ∧
      (f.tag = l.worker.sessionId → f.sequence.toNat ≤ l.worker.highestSequence.toNat)
  executedOnce : l.executed.Nodup

namespace Link.Inv

variable {l : Link} {cap : ℕ}

/-- The invariant holds at the start. -/
theorem init : Link.Inv {} where
  queue := ⟨[], rfl, fun f hf => absurd hf List.not_mem_nil, List.Pairwise.nil⟩
  replies := fun raw hr => absurd hr List.not_mem_nil
  issued := fun f hf => absurd hf List.not_mem_nil
  newest := fun f hf => absurd hf List.not_mem_nil
  distinct := fun f hf => absurd hf List.not_mem_nil
  once := List.nodup_nil
  current := List.mem_cons_self
  awaited := fun h => by cases h
  ready := fun h => by cases h
  fresh := fun _ => rfl
  kept := fun h => absurd rfl h
  next := fun f hf => absurd hf List.not_mem_nil
  executed := fun f hf => absurd hf List.not_mem_nil
  executedOnce := List.nodup_nil

/-- The worker's session is one that was used, or none. -/
theorem worker_mem (h : l.Inv) : l.worker.sessionId ∈ 0 :: l.challenges := by
  by_cases h0 : l.worker.sessionId = 0
  · rw [h0]
    exact List.mem_cons_self
  · exact List.mem_cons_of_mem _ (h.kept h0).member

/-- The worker is never ahead of the controller. -/
theorem worker_le (h : l.Inv) :
    place l.challenges l.worker.sessionId ≤ place l.challenges l.controller.sessionId := by
  by_cases h0 : l.worker.sessionId = 0
  · rw [h0, place_zero]
    exact Nat.zero_le _
  · have hk := (h.executed _ (h.kept h0).hello).1
    have := (h.newest _ hk).1
    rwa [tag_helloFrame] at this

/-- The frame the worker executed last, in a session. -/
theorem exists_highest (h : l.Inv) (h0 : l.worker.sessionId ≠ 0) :
    ∃ f ∈ l.issued, f.tag = l.worker.sessionId ∧ f.sequence = l.worker.highestSequence := by
  have hk := h.kept h0
  cases hlast : l.worker.hasLast with
  | false =>
    exact ⟨_, (h.executed _ hk.hello).1, tag_helloFrame _, (hk.first hlast).symm⟩
  | true =>
    obtain ⟨f, -, hf, hne, hs, hq, -⟩ := hk.last hlast
    exact ⟨f, (h.executed f hf).1, by rw [Frame.tag, if_neg hne, hs], hq⟩

/-- **A reply to the last frame is there only when the worker is up to date.**
This is what lets the controller take the reply for that of its last request. -/
theorem up_to_date (h : l.Inv) (hf : f ∈ l.executed) (hs : f.tag = l.controller.sessionId)
    (hq : f.sequence = l.controller.lastSequence) :
    l.worker.sessionId = l.controller.sessionId ∧ l.controller.sessionId ≠ 0 ∧
      l.worker.highestSequence = l.controller.lastSequence := by
  obtain ⟨hi, hle, hhigh⟩ := h.executed f hf
  have htag := (h.issued f hi).tag_mem
  rw [hs] at hle
  have hsame : l.worker.sessionId = l.controller.sessionId :=
    place_inj h.worker_mem (le_antisymm h.worker_le hle)
  refine ⟨hsame, by rw [← hs]; exact htag.2, ?_⟩
  have h1 := hhigh (hs.trans hsame.symm)
  obtain ⟨f', hf', hs', hq'⟩ := h.exists_highest (by rw [hsame, ← hs]; exact htag.2)
  have h2 := (h.newest f' hf').2 (hs'.trans hsame)
  rw [hq] at h1
  rw [hq'] at h2
  exact UInt16.toNat_inj.1 (le_antisymm h2 h1)

/-! ## What the controller accepts -/

end Link.Inv

/-- What `dnl_controller_receive` does with a buffer: nothing, or it takes it
as the reply to what it is waiting for. -/
theorem receive_cases (c : Controller) (raw : List UInt8) :
    (∃ e, c.receive raw = (c, some e) ∧ e ≠ .remoteError) ∨
      ∃ g, decode raw = some g ∧ c.pending = true ∧ g.sessionId = c.sessionId ∧
        g.sequence = c.lastSequence ∧
        ((g.type = Message.error ∧
            c.receive raw = ({ c with pending := false }, some .remoteError)) ∨
          (g.type = c.pendingType ||| 0x80 ∧ g.type ≠ Message.error ∧
            c.receive raw =
              ({ c with
                  pending := false
                  ready := if c.pendingType = Message.hello then true else c.ready }, none))) := by
  unfold Controller.receive
  cases hd : decode raw with
  | none => exact Or.inl ⟨_, rfl, by decide⟩
  | some g =>
    simp only
    by_cases h1 : isReply g.type = false
    · rw [if_pos h1]
      exact Or.inl ⟨_, rfl, by decide⟩
    rw [if_neg h1]
    by_cases h2 : c.pending = false
    · rw [if_pos h2]
      exact Or.inl ⟨_, rfl, by decide⟩
    rw [if_neg h2]
    by_cases h3 : g.sessionId ≠ c.sessionId
    · rw [if_pos h3]
      exact Or.inl ⟨_, rfl, by decide⟩
    rw [if_neg h3]
    by_cases h4 : g.sequence ≠ c.lastSequence
    · rw [if_pos h4]
      exact Or.inl ⟨_, rfl, by decide⟩
    rw [if_neg h4]
    by_cases h5 : g.type ≠ c.pendingType ||| 0x80 ∧ g.type ≠ Message.error
    · rw [if_pos h5]
      exact Or.inl ⟨_, rfl, by decide⟩
    rw [if_neg h5]
    by_cases h6 : validatePayload g = false
    · rw [if_pos h6]
      exact Or.inl ⟨_, rfl, by decide⟩
    rw [if_neg h6]
    have hp : c.pending = true := by simpa using h2
    by_cases h7 : g.type = Message.error
    · rw [if_pos h7]
      by_cases h8 : g.payload.getD 1 0 ≠ c.pendingType
      · rw [if_pos h8]
        exact Or.inl ⟨_, rfl, by decide⟩
      · rw [if_neg h8]
        exact Or.inr ⟨g, rfl, hp, not_not.1 h3, not_not.1 h4, Or.inl ⟨h7, rfl⟩⟩
    rw [if_neg h7]
    have ht : g.type = c.pendingType ||| 0x80 := by_contra fun ht => h5 ⟨ht, h7⟩
    by_cases h8 : c.pendingType = Message.hello ∧
        (read32 g.payload 0 ≠ c.sessionId.toNat ∨ g.sessionId.toNat ≠ read32 g.payload 0)
    · rw [if_pos h8]
      exact Or.inl ⟨_, rfl, by decide⟩
    rw [if_neg h8]
    by_cases h9 : c.pendingType = Message.jobCrc32 ∧ g.payload.getD 0 0 ≠ c.requestedJobLength
    · rw [if_pos h9]
      exact Or.inl ⟨_, rfl, by decide⟩
    rw [if_neg h9]
    exact Or.inr ⟨g, rfl, hp, not_not.1 h3, not_not.1 h4, Or.inr ⟨ht, h7, rfl⟩⟩

/-- No reply is an error: what the controller issues is valid. -/
theorem Answers.type_ne_error (h : Answers f g) (hi : Issued used f) : g.type ≠ Message.error := by
  rw [h.type]
  cases hi with
  | hello challenge => exact (by decide : Message.hello ||| 0x80 ≠ Message.error)
  | request _ ht =>
    rcases ht with ht | ht | ht <;> rw [ht] <;> decide

namespace Link.Inv

variable {l : Link} {cap : ℕ}

/-- What the controller accepts of a message that is on its way is the
reply to the frame it issued last, and no error. -/
theorem receive_cases (h : l.Inv) {raw : List UInt8} (hraw : raw ∈ l.toController) :
    (∃ e, l.controller.receive raw = (l.controller, some e) ∧ e ≠ .remoteError) ∨
      ∃ f g, f ∈ l.executed ∧ Awaited l.controller l.issued f ∧ Answers f g ∧ raw = g.wire ∧
        l.controller.receive raw =
          ({ l.controller with
              pending := false
              ready := if l.controller.pendingType = Message.hello then true
                else l.controller.ready }, none) := by
  obtain ⟨f, g, hf, hans, rfl⟩ := h.replies raw hraw
  have hi := (h.executed f hf).1
  rcases NodeLink.receive_cases l.controller g.wire with hno | ⟨g', hd, hp, hs, hq, htail⟩
  · exact Or.inl hno
  · rw [decode_wire hans.fits] at hd
    obtain rfl := Option.some.inj hd
    obtain ⟨f', ha⟩ := h.awaited hp
    have hf' : f' ∈ l.issued := List.mem_of_getLast? ha.last
    have hsame : f = f' := h.distinct f hi f' hf'
      (by rw [← hans.session, hs, ha.session]) (by rw [← hans.sequence, hq, ha.sequence])
    subst hsame
    rcases htail with ⟨hterr, -⟩ | ⟨-, -, hr⟩
    · exact absurd hterr (hans.type_ne_error (h.issued f hi))
    · exact Or.inr ⟨f, g, hf, ha, hans, rfl, hr⟩

/-! ## Events -/

/-- A reply is delivered. -/
theorem deliverReply (h : l.Inv) : l.deliverReply.Inv := by
  unfold Link.deliverReply
  cases hq : l.toController with
  | nil => exact h
  | cons raw rest =>
    have hrest : ∀ raw' ∈ rest, ∃ f g, f ∈ l.executed ∧ Answers f g ∧ raw' = g.wire :=
      fun raw' hm => h.replies raw' (by rw [hq]; exact List.mem_cons_of_mem _ hm)
    rcases h.receive_cases (by rw [hq]; exact List.mem_cons_self : raw ∈ l.toController)
      with ⟨e, hr, -⟩ | ⟨f, g, hf, ha, -, -, hr⟩
    · simp only [hr]
      exact ⟨h.queue, hrest, h.issued, h.newest, h.distinct, h.once, h.current, h.awaited, h.ready,
        h.fresh, h.kept, h.next, h.executed, h.executedOnce⟩
    · -- the worker is up to date, so the controller may go on
      obtain ⟨hsame, hlive, hhigh⟩ := h.up_to_date hf ha.session ha.sequence
      simp only [hr]
      exact ⟨h.queue, hrest, h.issued, h.newest, h.distinct, h.once, h.current,
        fun hp => (by cases hp), fun _ => ⟨hsame, hlive, by simp only [hhigh]; omega, fun _ => hhigh⟩,
        h.fresh, h.kept, h.next, h.executed, h.executedOnce⟩

/-- A reply may be lost. -/
theorem loseReply (h : l.Inv) (i : ℕ) : Link.Inv { l with toController := l.toController.eraseIdx i } :=
  ⟨h.queue, fun raw hm => h.replies raw ((List.eraseIdx_sublist _ _).subset hm), h.issued, h.newest,
    h.distinct, h.once, h.current, h.awaited, h.ready, h.fresh, h.kept, h.next, h.executed,
    h.executedOnce⟩

/-- A request may be lost. -/
theorem loseRequest (h : l.Inv) (i : ℕ) : Link.Inv { l with toWorker := l.toWorker.eraseIdx i } := by
  obtain ⟨q, hq, hmem, hord⟩ := h.queue
  have hsub : (q.eraseIdx i).Sublist q := List.eraseIdx_sublist _ _
  refine ⟨⟨q.eraseIdx i, ?_, fun f hf => hmem f (hsub.subset hf), hord.sublist hsub⟩, h.replies,
    h.issued, h.newest, h.distinct, h.once, h.current, h.awaited, h.ready, h.fresh, h.kept, h.next,
    h.executed, h.executedOnce⟩
  simp only [hq, List.eraseIdx_map]

/-- A frame of the controller's session joins the messages to the worker. -/
theorem push (h : l.Inv) {q : List Frame} (hi : f ∈ l.issued)
    (hs : f.tag = l.controller.sessionId)
    (hmem : ∀ f ∈ q, f ∈ l.issued ∧
      place l.challenges l.worker.sessionId ≤ place l.challenges f.tag)
    (hord : q.Pairwise fun f g => place l.challenges f.tag ≤ place l.challenges g.tag) :
    (∀ g ∈ q ++ [f], g ∈ l.issued ∧
        place l.challenges l.worker.sessionId ≤ place l.challenges g.tag) ∧
      (q ++ [f]).Pairwise fun f g => place l.challenges f.tag ≤ place l.challenges g.tag := by
  refine ⟨fun g hg => ?_, ?_⟩
  · rcases List.mem_append.1 hg with hg | hg
    · exact hmem g hg
    · rw [List.mem_singleton.1 hg, hs]
      exact ⟨hi, h.worker_le⟩
  · refine List.pairwise_append.2 ⟨hord, List.pairwise_singleton _ _, fun a ha b hb => ?_⟩
    rw [List.mem_singleton.1 hb, hs]
    exact (h.newest a (hmem a ha).1).1

/-- The controller repeats its frame, or gives up. -/
theorem timeout (h : l.Inv) (cap : ℕ) : (l.timeout cap).Inv := by
  unfold Link.timeout Controller.timeout
  by_cases hp : l.controller.pending = false
  · rw [if_pos hp]
    simp only [Link.sent, List.append_nil]
    exact h
  rw [if_neg hp]
  by_cases hretry : (l.controller.pendingType = Message.hello ∨
      l.controller.pendingType = Message.ping ∨ l.controller.pendingType = Message.getStatus) ∧
        l.controller.retryCount = 0
  · rw [if_pos hretry]
    by_cases hcap : cap < l.controller.requestBytes.length
    · rw [if_pos hcap]
      simp only [Link.sent, List.append_nil]
      exact h
    · rw [if_neg hcap]
      obtain ⟨f, ha⟩ := h.awaited (by simpa using hp)
      obtain ⟨q, hq, hmem, hord⟩ := h.queue
      have hi : f ∈ l.issued := List.mem_of_getLast? ha.last
      obtain ⟨hmem', hord'⟩ := h.push hi ha.session hmem hord
      refine ⟨⟨q ++ [f], ?_, hmem', hord'⟩, h.replies, h.issued, h.newest, h.distinct, h.once,
        h.current, fun _ => ⟨f, ha.last, ha.session, ha.sequence, ha.bytes, ha.type⟩, h.ready,
        h.fresh, h.kept, h.next, h.executed, h.executedOnce⟩
      simp only [Link.sent, hq, ha.bytes, List.map_append, List.map_cons, List.map_nil]
  · rw [if_neg hretry]
    simp only [Link.sent, List.append_nil]
    exact ⟨h.queue, h.replies, h.issued, h.newest, h.distinct, h.once, h.current,
      fun hx => (by cases hx), fun hx => (by cases hx), h.fresh, h.kept, h.next, h.executed,
      h.executedOnce⟩

/-- Another challenge is used up. -/
theorem grow (h : l.Inv) (challenge : UInt32) :
    Link.Inv { l with challenges := l.challenges ++ [challenge] } := by
  have hp : ∀ x ∈ 0 :: l.challenges,
      place (l.challenges ++ [challenge]) x = place l.challenges x := fun x hx => place_append hx
  have htag : ∀ f ∈ l.issued, place (l.challenges ++ [challenge]) f.tag =
      place l.challenges f.tag := fun f hf => hp _ (h.issued f hf).tag_mem'
  obtain ⟨q, hq, hmem, hord⟩ := h.queue
  refine ⟨⟨q, hq, fun f hf => ⟨(hmem f hf).1, ?_⟩, ?_⟩, h.replies, fun f hf => (h.issued f hf).mono,
    fun f hf => ⟨?_, (h.newest f hf).2⟩, h.distinct, h.once, ?_, h.awaited, h.ready, h.fresh,
    fun h0 => ?_, fun f hf hne => ⟨?_, (h.next f hf hne).2⟩,
    fun f hf => ⟨(h.executed f hf).1, ?_, (h.executed f hf).2.2⟩, h.executedOnce⟩
  · simp only [hp _ h.worker_mem, htag f (hmem f hf).1]
    exact (hmem f hf).2
  · refine hord.imp_of_mem fun {a b} ha hb hab => ?_
    rw [htag a (hmem a ha).1, htag b (hmem b hb).1]
    exact hab
  · simp only [hp _ h.current, htag f hf]
    exact (h.newest f hf).1
  · exact List.mem_append_left [challenge] h.current
  · have hk := h.kept h0
    exact ⟨List.mem_append_left _ hk.member, hk.hello, hk.reply, hk.first, hk.last⟩
  · simp only [hp _ h.worker_mem, htag f hf]
    exact (h.next f hf hne).1
  · simp only [hp _ h.worker_mem, htag f (h.executed f hf).1]
    exact (h.executed f hf).2.1

end Link.Inv

theorem emit_eq {c : Controller} {cap : ℕ} (h : f.Fits) (hcap : maxFrame ≤ cap) :
    c.emit f cap = .ok ({ c with requestBytes := f.wire, pending := true, pendingType := f.type,
                                 retryCount := 0 }, f.wire) := by
  simp only [Controller.emit, encode_of_le h hcap, bind, Except.bind]

namespace Link.Inv

variable {l : Link} {cap : ℕ}

/-- A new session is asked for. -/
theorem hello (h : l.Inv) (hnew : challenge ∉ l.challenges) (hcap : maxFrame ≤ cap) :
    (l.hello challenge cap).Inv := by
  have hg := h.grow challenge
  unfold Link.hello Controller.hello
  by_cases hbad : challenge = 0 ∨ challenge = l.controller.sessionId
  · rw [if_pos hbad]
    simp only [Link.sent, List.append_nil, List.map_nil]
    exact hg
  rw [if_neg hbad, emit_eq (fits_helloFrame challenge) hcap]
  simp only [not_or] at hbad
  -- the new session comes after every session of the link
  have hnew' : challenge ∉ 0 :: l.challenges := by
    rintro (_ | ⟨_, hm⟩)
    · exact hbad.1 rfl
    · exact hnew hm
  have hlt : ∀ x ∈ 0 :: l.challenges, place (l.challenges ++ [challenge]) x <
      place (l.challenges ++ [challenge]) challenge := fun x hx => place_lt_new hx hnew'
  have htag : ∀ f ∈ l.issued, place (l.challenges ++ [challenge]) f.tag <
      place (l.challenges ++ [challenge]) challenge :=
    fun f hf => hlt _ (h.issued f hf).tag_mem'
  have hne : ∀ f ∈ l.issued, f.tag ≠ challenge := fun f hf he => by
    have := htag f hf
    rw [he] at this
    exact lt_irrefl _ this
  obtain ⟨q, hq, hmem, hord⟩ := hg.queue
  simp only [Link.sent, List.map_cons, List.map_nil]
  refine ⟨⟨q ++ [helloFrame challenge], ?_, fun f hf => ?_, ?_⟩, hg.replies, fun f hf => ?_,
    fun f hf => ?_, fun f hf g hg' hs hseq => ?_, ?_, ?_, fun _ => ⟨helloFrame challenge, ?_⟩,
    fun hr => (by cases hr), hg.fresh, hg.kept, fun f hf hne' => ?_,
    fun f hf => ⟨List.mem_append_left _ (hg.executed f hf).1, (hg.executed f hf).2⟩,
    hg.executedOnce⟩
  · have hq' : l.toWorker = q.map Frame.wire := hq
    simp only [hq', List.map_append, List.map_cons, List.map_nil]
  · rcases List.mem_append.1 hf with hf | hf
    · exact ⟨List.mem_append_left _ (hmem f hf).1, (hmem f hf).2⟩
    · rw [List.mem_singleton.1 hf, tag_helloFrame]
      exact ⟨List.mem_append_right _ List.mem_cons_self, (hlt _ h.worker_mem).le⟩
  · refine List.pairwise_append.2 ⟨hord, List.pairwise_singleton _ _, fun a ha b hb => ?_⟩
    rw [List.mem_singleton.1 hb, tag_helloFrame]
    exact (htag a (hmem a ha).1).le
  · rcases List.mem_append.1 hf with hf | hf
    · exact hg.issued f hf
    · rw [List.mem_singleton.1 hf]
      exact .hello challenge (List.mem_append_right _ List.mem_cons_self) hbad.1
  · rcases List.mem_append.1 hf with hf | hf
    · exact ⟨(htag f hf).le, fun he => absurd he (hne f hf)⟩
    · rw [List.mem_singleton.1 hf, tag_helloFrame]
      exact ⟨le_rfl, fun _ => le_rfl⟩
  · rcases List.mem_append.1 hf with hf | hf <;> rcases List.mem_append.1 hg' with hg' | hg'
    · exact h.distinct f hf g hg' hs hseq
    · rw [List.mem_singleton.1 hg', tag_helloFrame] at hs
      exact absurd hs (hne f hf)
    · rw [List.mem_singleton.1 hf, tag_helloFrame] at hs
      exact absurd hs.symm (hne g hg')
    · rw [List.mem_singleton.1 hf, List.mem_singleton.1 hg']
  · refine List.nodup_append.2 ⟨h.once, List.nodup_singleton _, fun a ha b hb he => ?_⟩
    rw [List.mem_singleton.1 hb] at he
    exact hne a ha (by rw [he, tag_helloFrame])
  · exact List.mem_cons_of_mem _ (List.mem_append_right _ List.mem_cons_self)
  · exact ⟨by simp, tag_helloFrame challenge, rfl, rfl, rfl⟩
  · rcases List.mem_append.1 hf with hf | hf
    · exact hg.next f hf hne'
    · rw [List.mem_singleton.1 hf] at hne'
      exact absurd (type_helloFrame challenge) hne'

/-- A request is issued. -/
theorem request (h : l.Inv) (type : UInt8) (payload : List UInt8) (hcap : maxFrame ≤ cap) :
    (l.request type payload cap).Inv := by
  -- a call that is refused changes nothing
  have hno : ∀ e, l.controller.request type payload cap = (l.controller, .error e) →
      (l.request type payload cap).Inv := by
    intro e he
    simp only [Link.request, he, Link.sent, List.append_nil, List.map_nil]
    exact h
  by_cases h1 : l.controller.ready = false ∨ l.controller.pending = true
  · exact hno .notReadyOrBusy (by rw [Controller.request, if_pos h1])
  by_cases h2 : type ≠ Message.ping ∧ type ≠ Message.jobCrc32 ∧ type ≠ Message.getStatus
  · exact hno .badMessage (by rw [Controller.request, if_neg h1, if_pos h2])
  by_cases h3 : maxPayload < payload.length
  · exact hno .badArgument (by rw [Controller.request, if_neg h1, if_neg h2, if_pos h3])
  by_cases h4 : l.controller.lastSequence = 0xFFFF
  · exact hno .rehandshakeRequired
      (by rw [Controller.request, if_neg h1, if_neg h2, if_neg h3, if_pos h4])
  by_cases h5 : validatePayload (l.controller.requestFrame type payload) = false
  · exact hno .badMessage
      (by simp only [Controller.request, if_neg h1, if_neg h2, if_neg h3, if_neg h4, if_pos h5])
  obtain ⟨f, hfeq⟩ : ∃ f, f = l.controller.requestFrame type payload := ⟨_, rfl⟩
  simp only [not_or, Bool.not_eq_false, Bool.not_eq_true] at h1
  obtain ⟨hready, hidle⟩ := h1
  obtain ⟨hsame, hlive, -, hhigh⟩ := h.ready hready
  specialize hhigh hidle
  have hpos : 1 ≤ l.controller.lastSequence.toNat := by
    obtain ⟨f', hf', -, hq'⟩ := h.exists_highest (by rw [hsame]; exact hlive)
    have hne := (h.issued f' hf').fits.sequence
    rw [hq', hhigh] at hne
    rcases Nat.eq_zero_or_pos l.controller.lastSequence.toNat with h0 | h0
    · exact absurd (UInt16.toNat_inj.1 h0) hne
    · exact h0
  have hseq : f.sequence.toNat = l.controller.lastSequence.toNat + 1 := by
    have hlt := l.controller.lastSequence.toNat_lt
    have hne : l.controller.lastSequence.toNat ≠ 0xFFFF := fun h0 => h4 (UInt16.toNat_inj.1 h0)
    rw [hfeq, Controller.requestFrame, UInt16.toNat_add]
    exact Nat.mod_eq_of_lt (by simp only [UInt16.reduceToNat]; omega)
  have htype : f.type = Message.ping ∨ f.type = Message.jobCrc32 ∨ f.type = Message.getStatus := by
    rw [hfeq]
    by_contra hc
    simp only [not_or] at hc
    exact h2 hc
  have hhello : f.type ≠ Message.hello := by
    rcases htype with ht | ht | ht <;> rw [ht] <;> decide
  have htag : f.tag = l.controller.sessionId := by
    rw [Frame.tag, if_neg hhello, hfeq]
    rfl
  have hmemc : l.controller.sessionId ∈ l.challenges := by
    rcases List.mem_cons.1 h.current with h0 | hm
    · exact absurd h0 hlive
    · exact hm
  have hi : Issued l.challenges f := by
    have hsid : f.sessionId = l.controller.sessionId := by rw [hfeq, Controller.requestFrame]
    refine .request f htype (by rw [hfeq]; simpa using h5) (by rw [hfeq]; exact Nat.not_lt.1 h3)
      (by omega) (by rw [hsid]; exact hmemc) (by rw [hsid]; exact hlive)
  -- every frame of the session came before it
  have hold : ∀ g ∈ l.issued, g.tag = f.tag → g.sequence.toNat < f.sequence.toNat := by
    intro g hg hs
    have := (h.newest g hg).2 (hs.trans htag)
    omega
  have heq : l.controller.request type payload cap =
      ({ l.controller with
          requestBytes := f.wire, pending := true, pendingType := f.type, retryCount := 0
          lastSequence := f.sequence
          requestedJobLength := if type = Message.jobCrc32 then payload.getD 0 0 else 0 },
        .ok f.wire) := by
    simp only [Controller.request]
    rw [if_neg (by simp [hready, hidle]), if_neg h2, if_neg h3, if_neg h4, if_neg h5, ← hfeq,
      emit_eq hi.fits hcap]
  obtain ⟨q, hq, hmem, hord⟩ := h.queue
  simp only [Link.request, heq, Link.sent, List.map_cons, List.map_nil, ← hfeq]
  refine ⟨⟨q ++ [f], ?_, fun g hg => ?_, ?_⟩, h.replies, fun g hg => ?_, fun g hg => ?_,
    fun a ha b hb hs hq' => ?_, ?_, h.current, fun _ => ⟨f, by simp, htag, rfl, rfl, rfl⟩,
    fun _ => ⟨hsame, hlive, by rw [hhigh]; exact hseq.le, fun hx => (by cases hx)⟩, h.fresh, h.kept,
    fun g hg hne => ?_,
    fun g hg => ⟨List.mem_append_left _ (h.executed g hg).1, (h.executed g hg).2⟩,
    h.executedOnce⟩
  · simp only [hq, List.map_append, List.map_cons, List.map_nil]
  · rcases List.mem_append.1 hg with hg | hg
    · exact ⟨List.mem_append_left _ (hmem g hg).1, (hmem g hg).2⟩
    · rw [List.mem_singleton.1 hg, htag]
      exact ⟨List.mem_append_right _ List.mem_cons_self, h.worker_le⟩
  · refine List.pairwise_append.2 ⟨hord, List.pairwise_singleton _ _, fun a ha b hb => ?_⟩
    rw [List.mem_singleton.1 hb, htag]
    exact (h.newest a (hmem a ha).1).1
  · rcases List.mem_append.1 hg with hg | hg
    · exact h.issued g hg
    · rw [List.mem_singleton.1 hg]
      exact hi
  · rcases List.mem_append.1 hg with hg | hg
    · refine ⟨(h.newest g hg).1, fun hs => ?_⟩
      exact (hold g hg (hs.trans htag.symm)).le
    · rw [List.mem_singleton.1 hg]
      exact ⟨by rw [htag], fun _ => le_rfl⟩
  · rcases List.mem_append.1 ha with ha | ha <;> rcases List.mem_append.1 hb with hb | hb
    · exact h.distinct a ha b hb hs hq'
    · rw [List.mem_singleton.1 hb] at hs hq'
      have := hold a ha hs
      rw [hq'] at this
      exact absurd this (lt_irrefl _)
    · rw [List.mem_singleton.1 ha] at hs hq'
      have := hold b hb hs.symm
      rw [hq'] at this
      exact absurd this (lt_irrefl _)
    · rw [List.mem_singleton.1 ha, List.mem_singleton.1 hb]
  · refine List.nodup_append.2 ⟨h.once, List.nodup_singleton _, fun a ha b hb he => ?_⟩
    rw [List.mem_singleton.1 hb] at he
    have := hold a ha (by rw [he])
    rw [he] at this
    exact lt_irrefl _ this
  · rcases List.mem_append.1 hg with hg | hg
    · exact h.next g hg hne
    · rw [List.mem_singleton.1 hg, htag, hsame]
      exact ⟨le_rfl, fun _ => by rw [hhigh]; omega⟩

end Link.Inv

/-! ## The worker's turn -/

theorem opening_eq_none {w : Worker} {raw : List UInt8} {cap : ℕ}
    (h : ∀ req, decode raw = some req → req.type = Message.hello →
      UInt32.ofNat (read32 req.payload 0) = w.sessionId ∧ w.helloReply.length ≠ 0) :
    w.opening raw cap = none := by
  simp only [Worker.opening, Option.filter_eq_none_iff, decide_eq_true_eq]
  rintro req hd ⟨ht, -, -, -, hfresh, -⟩
  exact hfresh (h req hd ht)

theorem nextRequest_eq_none {w : Worker} {raw : List UInt8} {cap : ℕ}
    (h : ∀ req, ¬w.Executes raw cap req) : w.nextRequest raw cap = none := by
  rcases hn : w.nextRequest raw cap with _ | req
  · rfl
  · exact absurd (nextRequest_eq_some.1 hn) (h req)

/-- The worker's turn at a frame `f`: what it answers and what it executes. -/
structure Turn (w : Worker) (f : Frame) (cap : ℕ) (w' : Worker) (reply : Except Status (List UInt8))
    (executed : List Frame) : Prop where
  process : w.process f.wire cap = (w', reply)
  executed : (w.nextRequest f.wire cap).toList ++ (w.opening f.wire cap).toList = executed

/-- A request other than the next is not executed. -/
theorem turn_of_request {w w' : Worker} {cap : ℕ} {reply : Except Status (List UInt8)}
    (hfits : f.Fits) (hne : f.type ≠ Message.hello)
    (hseq : f.sequence.toNat ≠ w.highestSequence.toNat + 1)
    (hp : w.process f.wire cap = (w', reply)) : Turn w f cap w' reply [] := by
  refine ⟨hp, ?_⟩
  rw [nextRequest_eq_none fun req hx => ?_, opening_eq_none fun req hd ht => ?_]
  · rfl
  · rw [decode_wire hfits] at hd
    obtain rfl := Option.some.inj hd
    exact absurd ht hne
  · have hd := hx.decoded
    rw [decode_wire hfits] at hd
    obtain rfl := Option.some.inj hd
    exact hseq hx.next

/-- An older request gets no answer. -/
theorem process_of_old {w : Worker} {cap : ℕ} (hfits : f.Fits) (hr : ¬0x80 ≤ f.type)
    (hne : f.type ≠ Message.hello) (hold : f.sequence.toNat < w.highestSequence.toNat) :
    w.process f.wire cap = (w, .error .drop) := by
  have hnot : ¬(f.sequence = w.highestSequence ∧ w.hasLast = true) := by
    rintro ⟨he, -⟩
    rw [he] at hold
    exact lt_irrefl _ hold
  simp only [Worker.process, decode_wire hfits]
  rw [if_neg hr, if_neg hne]
  by_cases hs : w.sessionId = 0 ∨ f.sessionId ≠ w.sessionId
  · rw [if_pos hs]
  · rw [if_neg hs, if_neg hnot, if_pos (UInt16.lt_iff_toNat_lt.2 hold)]

namespace Link.Inv

variable {l : Link} {cap : ℕ}

/-- The worker's state does not change, and what it replies answers a frame it executed. -/
theorem turn_quiet (h : l.Inv) {q : List Frame}
    {reply : Except Status (List UInt8)} (hq : l.toWorker = (f :: q).map Frame.wire)
    (hmem : ∀ f ∈ q, f ∈ l.issued ∧
      place l.challenges l.worker.sessionId ≤ place l.challenges f.tag)
    (hord : q.Pairwise fun f g => place l.challenges f.tag ≤ place l.challenges g.tag)
    (ht : Turn l.worker f cap l.worker reply [])
    (hreply : ∀ raw ∈ sent reply, ∃ f g, f ∈ l.executed ∧ Answers f g ∧ raw = g.wire) :
    (l.deliverRequest cap).Inv := by
  unfold Link.deliverRequest
  rw [hq]
  simp only [List.map_cons, ht.process, ht.executed, List.append_nil]
  exact ⟨⟨q, rfl, hmem, hord⟩, fun raw hm => (List.mem_append.1 hm).elim (h.replies raw) (hreply raw),
    h.issued, h.newest, h.distinct, h.once, h.current, h.awaited, h.ready, h.fresh, h.kept, h.next,
    h.executed, h.executedOnce⟩

/-- A `HELLO` is delivered: it is the current session's, or it opens a newer one. -/
theorem deliver_hello (h : l.Inv) {q : List Frame}
    (hq : l.toWorker = (helloFrame challenge :: q).map Frame.wire)
    (hi : helloFrame challenge ∈ l.issued) (hlive : challenge ≠ 0)
    (hle : place l.challenges l.worker.sessionId ≤ place l.challenges challenge)
    (hlater : ∀ f ∈ q, place l.challenges challenge ≤ place l.challenges f.tag)
    (hmem : ∀ f ∈ q, f ∈ l.issued ∧
      place l.challenges l.worker.sessionId ≤ place l.challenges f.tag)
    (hord : q.Pairwise fun f g => place l.challenges f.tag ≤ place l.challenges g.tag)
    (hcap : maxFrame ≤ cap) : (l.deliverRequest cap).Inv := by
  have hfits := fits_helloFrame challenge
  have hd := decode_wire hfits
  have hread : UInt32.ofNat (read32 (helloFrame challenge).payload 0) = challenge := by
    rw [read32_helloFrame, UInt32.ofNat_toNat]
  have hnext : l.worker.nextRequest (helloFrame challenge).wire cap = none := by
    refine nextRequest_eq_none fun req hx => ?_
    have hd' := hx.decoded
    rw [hd] at hd'
    obtain rfl := Option.some.inj hd'
    exact hx.other rfl
  by_cases hsame : challenge = l.worker.sessionId
  · -- the handshake of the session again
    have hk := h.kept (by rw [← hsame]; exact hlive)
    have hlen : l.worker.helloReply.length ≠ 0 := by
      rw [hk.reply, Frame.length_wire]
      omega
    have hroom : l.worker.helloReply.length ≤ cap := by
      have hp := (fits_helloAckFrame l.worker.sessionId).payload
      rw [hk.reply, Frame.length_wire]
      simp only [maxFrame, maxPayload] at *
      omega
    have hp := process_of_rehello hd rfl rfl rfl (valid_helloFrame hlive) (hread.trans hsame) hlen
      hroom
    refine h.turn_quiet hq hmem hord ⟨hp, ?_⟩ fun raw hr => ?_
    · rw [hnext, opening_eq_none fun req hd' _ => ?_]
      · rfl
      · rw [hd] at hd'
        obtain rfl := Option.some.inj hd'
        exact ⟨hread.trans hsame, hlen⟩
    · rw [sent, List.mem_singleton] at hr
      exact ⟨_, _, hk.hello, answers_hello _, hr.trans hk.reply⟩
  · -- a newer session
    have hlt : place l.challenges l.worker.sessionId < place l.challenges challenge := by
      refine lt_of_le_of_ne hle fun he => hsame ?_
      exact (place_inj h.worker_mem he).symm
    have hroom : frameOverhead + (helloAckFrame challenge).payload.length ≤ cap := by
      have hp := (fits_helloAckFrame challenge).payload
      simp only [maxFrame, maxPayload, frameOverhead] at *
      omega
    have hopens : l.worker.Opens (helloFrame challenge).wire cap challenge :=
      ⟨⟨_, hd, rfl, rfl, rfl, valid_helloFrame hlive, hread.symm⟩, fun hs => hsame hs.1, hroom⟩
    have hopening : l.worker.opening (helloFrame challenge).wire cap =
        some (helloFrame challenge) := by
      simp only [Worker.opening, Option.filter_eq_some_iff, decide_eq_true_eq]
      exact ⟨hd, rfl, rfl, rfl, valid_helloFrame hlive, by rw [hread]; exact fun hs => hsame hs.1,
        by rw [hread]; exact hroom⟩
    have hnew : ∀ f ∈ l.executed, f.tag ≠ challenge := by
      intro f hf he
      have := (h.executed f hf).2.1
      rw [he] at this
      omega
    have hfresh : helloFrame challenge ∉ l.executed := fun hx =>
      hnew _ hx (tag_helloFrame challenge)
    have hreq : ∀ f ∈ l.issued, f.type ≠ Message.hello →
        place l.challenges f.tag ≤ place l.challenges l.worker.sessionId :=
      fun f hf hne => (h.next f hf hne).1
    unfold Link.deliverRequest
    rw [hq]
    simp only [List.map_cons, process_of_opens hopens, hnext, hopening, Option.toList,
      List.nil_append]
    refine ⟨⟨q, rfl, fun f hf => ⟨(hmem f hf).1, hlater f hf⟩, hord⟩, fun raw hm => ?_, h.issued,
      h.newest, h.distinct, h.once, h.current, h.awaited, fun hr => ?_, fun h0 => absurd h0 hlive,
      fun _ => ?_, fun f hf hne => ?_, fun f hf => ?_, ?_⟩
    · rcases List.mem_append.1 hm with hm | hm
      · obtain ⟨f, g, hf, ha⟩ := h.replies raw hm
        exact ⟨f, g, List.mem_append_left _ hf, ha⟩
      · rw [sent, List.mem_singleton] at hm
        exact ⟨_, _, List.mem_append_right _ List.mem_cons_self, answers_hello _, hm⟩
    · -- a controller that is ready has no newer session on its way
      have hcs := (h.ready hr).1
      have hc := (h.newest _ hi).1
      rw [tag_helloFrame, ← hcs] at hc
      omega
    · have hm : challenge ∈ l.challenges := by
        have := (h.issued _ hi).tag_mem.1
        rwa [tag_helloFrame] at this
      exact ⟨hm, List.mem_append_right _ List.mem_cons_self, rfl, fun _ => rfl,
        fun hl => (by cases hl)⟩
    · have hp := hreq f hf hne
      refine ⟨(hp.trans hlt.le), fun he => ?_⟩
      rw [he] at hp
      exact absurd hp (Nat.not_le.2 hlt)
    · rcases List.mem_append.1 hf with hf | hf
      · refine ⟨(h.executed f hf).1, (h.executed f hf).2.1.trans hlt.le, fun he => ?_⟩
        exact absurd he (hnew f hf)
      · rw [List.mem_singleton.1 hf]
        exact ⟨hi, by rw [tag_helloFrame]; exact le_rfl, fun _ => le_rfl⟩
    · refine List.nodup_append.2 ⟨h.executedOnce, List.nodup_singleton _, fun a ha b hb he => ?_⟩
      rw [List.mem_singleton.1 hb] at he
      exact hfresh (he ▸ ha)

/-- A request is delivered: it is the last one again, an older one, or the next. -/
theorem deliver_request (h : l.Inv) {q : List Frame}
    (hq : l.toWorker = (f :: q).map Frame.wire) (hi : f ∈ l.issued)
    (hne : f.type ≠ Message.hello) (hr : ¬0x80 ≤ f.type) (h2 : 2 ≤ f.sequence.toNat)
    (hle : place l.challenges l.worker.sessionId ≤ place l.challenges f.tag)
    (hmem : ∀ f ∈ q, f ∈ l.issued ∧
      place l.challenges l.worker.sessionId ≤ place l.challenges f.tag)
    (hord : q.Pairwise fun f g => place l.challenges f.tag ≤ place l.challenges g.tag)
    (hcap : maxFrame ≤ cap) : (l.deliverRequest cap).Inv := by
  have hiss := h.issued f hi
  have hfits := hiss.fits
  have hd := decode_wire hfits
  obtain ⟨hplace, hbound⟩ := h.next f hi hne
  have htag : f.tag = l.worker.sessionId := place_inj hiss.tag_mem' (le_antisymm hplace hle)
  have hsid : f.sessionId = l.worker.sessionId := by
    rw [← htag, Frame.tag, if_neg hne]
  have hlive : l.worker.sessionId ≠ 0 := by
    rw [← htag]
    exact hiss.tag_mem.2
  have hk := h.kept hlive
  specialize hbound htag
  by_cases hold : f.sequence.toNat < l.worker.highestSequence.toNat
  · refine h.turn_quiet hq hmem hord
      (turn_of_request hfits hne (by omega) (process_of_old hfits hr hne hold)) ?_
    exact fun raw hraw => absurd hraw List.not_mem_nil
  by_cases hnow : f.sequence = l.worker.highestSequence
  · -- the last request again: two frames of one session and number are one frame
    cases hlast : l.worker.hasLast with
    | false =>
      rw [hk.first hlast] at hnow
      rw [hnow] at h2
      exact absurd h2 (by decide)
    | true =>
      obtain ⟨f', g, hf', hne', hs', hq', hreq, hrep, hans⟩ := hk.last hlast
      have hsame : f = f' := by
        refine h.distinct f hi f' (h.executed f' hf').1 ?_ (hnow.trans hq'.symm)
        rw [htag, Frame.tag, if_neg hne', hs']
      subst hsame
      have hroom : l.worker.lastReply.length ≤ cap := by
        have hp := hans.fits.payload
        rw [hrep, Frame.length_wire]
        simp only [maxFrame, maxPayload] at *
        omega
      have hp : l.worker.process f.wire cap = (l.worker, .ok l.worker.lastReply) := by
        have := process_of_replay (w := l.worker) (by rw [hreq]; exact hd) hr hne hlive hsid hnow
          hlast hroom
        rwa [hreq] at this
      refine h.turn_quiet hq hmem hord (turn_of_request hfits hne (by rw [hnow]; omega) hp)
        fun raw hraw => ?_
      rw [sent, List.mem_singleton] at hraw
      exact ⟨f, g, hf', hans, hraw.trans hrep⟩
  · -- the next request
    have hseq : f.sequence.toNat = l.worker.highestSequence.toNat + 1 := by
      have : f.sequence.toNat ≠ l.worker.highestSequence.toNat := fun he =>
        hnow (UInt16.toNat_inj.1 he)
      omega
    have hroom : frameOverhead + (l.worker.answer f).payload.length ≤ cap := by
      have hp := (fits_answer l.worker hfits).payload
      simp only [maxFrame, maxPayload, frameOverhead] at *
      omega
    have hx : l.worker.Executes f.wire cap f := ⟨hd, hr, hne, hlive, hsid, hseq, hroom⟩
    have hopening : l.worker.opening f.wire cap = none := by
      refine opening_eq_none fun req hd' ht => ?_
      rw [hd] at hd'
      obtain rfl := Option.some.inj hd'
      exact absurd ht hne
    have hans := answers_answer hiss hne hsid
    have hnew : f ∉ l.executed := by
      intro hf
      have := (h.executed f hf).2.2 htag
      omega
    unfold Link.deliverRequest
    rw [hq]
    simp only [List.map_cons, process_of_executes hx, nextRequest_eq_some.2 hx, hopening,
      Option.toList, List.append_nil]
    refine ⟨⟨q, rfl, hmem, hord⟩, fun raw hm => ?_, h.issued, h.newest, h.distinct, h.once,
      h.current, h.awaited, fun hready => ?_, fun h0 => absurd h0 hlive, fun _ => ?_,
      fun g hg hne' => ⟨(h.next g hg hne').1, fun hs => ?_⟩, fun g hg => ?_, ?_⟩
    · rcases List.mem_append.1 hm with hm | hm
      · obtain ⟨f', g, hf', ha⟩ := h.replies raw hm
        exact ⟨f', g, List.mem_append_left _ hf', ha⟩
      · rw [sent, List.mem_singleton] at hm
        exact ⟨f, _, List.mem_append_right _ List.mem_cons_self, hans, hm⟩
    · obtain ⟨hsame, hc0, hl, hidle⟩ := h.ready hready
      refine ⟨hsame, hc0, ?_, fun hp => ?_⟩
      · simp only [Worker.after, hseq]
        omega
      · -- an idle controller has no request on its way that is still to be executed
        have hlast := (h.newest f hi).2 (htag.trans hsame)
        rw [← hidle hp] at hlast
        omega
    · exact ⟨hk.member, List.mem_append_left _ hk.hello, hk.reply, fun hl => (by cases hl),
        fun _ => ⟨f, _, List.mem_append_right _ List.mem_cons_self, hne, hsid, rfl, rfl, rfl, hans⟩⟩
    · have := (h.next g hg hne').2 hs
      simp only [Worker.after, hseq]
      omega
    · rcases List.mem_append.1 hg with hg | hg
      · refine ⟨(h.executed g hg).1, (h.executed g hg).2.1, fun hs => ?_⟩
        have := (h.executed g hg).2.2 hs
        simp only [Worker.after, hseq]
        omega
      · rw [List.mem_singleton.1 hg]
        exact ⟨hi, hplace, fun _ => le_rfl⟩
    · refine List.nodup_append.2 ⟨h.executedOnce, List.nodup_singleton _, fun a ha b hb he => ?_⟩
      rw [List.mem_singleton.1 hb] at he
      exact hnew (he ▸ ha)

/-- A message to the worker is delivered. -/
theorem deliverRequest (h : l.Inv) (hcap : maxFrame ≤ cap) : (l.deliverRequest cap).Inv := by
  obtain ⟨q, hq, hmem, hord⟩ := h.queue
  cases q with
  | nil =>
    unfold Link.deliverRequest
    rw [hq]
    exact h
  | cons f q =>
    obtain ⟨hi, hle⟩ := hmem f List.mem_cons_self
    have hmem' := fun g hg => hmem g (List.mem_cons_of_mem f hg)
    obtain ⟨hlater, hord'⟩ := List.pairwise_cons.1 hord
    cases h.issued f hi with
    | hello challenge _ hlive =>
      simp only [tag_helloFrame] at hle hlater
      exact h.deliver_hello hq hi hlive hle hlater hmem' hord' hcap
    | request _ ht _ _ h2 =>
      have hne : f.type ≠ Message.hello := by
        rcases ht with h1 | h1 | h1 <;> rw [h1] <;> decide
      have hr : ¬0x80 ≤ f.type := by
        rcases ht with h1 | h1 | h1 <;> rw [h1] <;> decide
      exact h.deliver_request hq hi hne hr h2 hle hmem' hord' hcap

/-- **One event** keeps the invariant. -/
theorem step (h : l.Inv) {e : Link.Event} (he : l.Allows e) : (l.step e).Inv := by
  cases e with
  | hello challenge cap => exact h.hello he.1 he.2
  | request type payload cap => exact h.request type payload he
  | timeout cap => exact h.timeout cap
  | deliverRequest cap => exact h.deliverRequest he
  | deliverReply => exact h.deliverReply
  | loseRequest i => exact h.loseRequest i
  | loseReply i => exact h.loseReply i

/-- **A whole run** keeps it. -/
theorem run (h : l.Inv) {events : List Link.Event} (he : l.Admits events) :
    (events.foldl Link.step l).Inv := by
  induction events generalizing l with
  | nil => exact h
  | cons e es ih => exact ih (h.step he.1) he.2

end Link.Inv

/-! ## Agreement -/

/-- **The two ends of a link agree.** At every moment of every run: a reply
the controller accepts to a `JOB_CRC32` carries the checksum of the bytes of
the request it issued last; the frames the worker executed are distinct, as
the issued ones are, and were issued; a controller that is ready and waits
for nothing is in the worker's session, at the worker's sequence number; and
no reply on its way is accepted as a `BAD_SEQUENCE` error. -/
theorem Link.agreement (r : Link.Run) :
    (∀ raw ∈ r.link.toController, (r.link.controller.receive raw).2 = none →
      r.link.controller.pendingType = Message.jobCrc32 →
      ∃ request reply, r.link.issued.getLast? = some request ∧
        request.type = Message.jobCrc32 ∧ decode raw = some reply ∧
        read32 reply.payload 1 = (crc32Ieee (jobBytes request.payload)).toNat) ∧
      (r.link.issued.Nodup ∧ r.link.executed.Nodup ∧ ∀ f ∈ r.link.executed, f ∈ r.link.issued) ∧
      (r.link.controller.ready = true → r.link.controller.pending = false →
        r.link.worker.sessionId = r.link.controller.sessionId ∧
          r.link.worker.highestSequence = r.link.controller.lastSequence) ∧
      ∀ raw ∈ r.link.toController, ∀ g, decode raw = some g →
        (r.link.controller.receive raw).2 = some .remoteError →
          g.payload.getD 0 0 ≠ ErrorCode.badSequence := by
  have h : r.link.Inv := Link.Inv.init.run r.admitted
  refine ⟨fun raw hraw hok hjob => ?_,
    ⟨h.once, h.executedOnce, fun f hf => (h.executed f hf).1⟩,
    fun hr hp => ⟨(h.ready hr).1, (h.ready hr).2.2.2 hp⟩, fun raw hraw g _ he => ?_⟩
  · rcases h.receive_cases hraw with ⟨e, hr, -⟩ | ⟨f, g, -, ha, hans, rfl, -⟩
    · rw [hr] at hok
      cases hok
    · have hf : f.type = Message.jobCrc32 := ha.type.trans hjob
      refine ⟨f, g, ha.last, hf, decode_wire hans.fits, ?_⟩
      rw [hans.result hf]
      exact read32_write32 (crc32Ieee (jobBytes f.payload)).toNat_lt [f.payload.getD 0 0] []
  · rcases h.receive_cases hraw with ⟨e, hr, hne⟩ | ⟨f, g, -, -, -, -, hr⟩
    · rw [hr] at he
      exact absurd (Option.some.inj he) hne
    · rw [hr] at he
      cases he

/-- A handshake, and a `JOB_CRC32` that the worker has executed. -/
def jobRun : Link.Run where
  events := [.hello 7 maxFrame, .deliverRequest maxFrame, .deliverReply,
    .request Message.jobCrc32 [3, 1, 2, 3] maxFrame, .deliverRequest maxFrame]
  admitted := by decide +kernel

/-- Its reply, which the controller accepts, carries the checksum. -/
theorem Link.agreement_job : ∃ raw ∈ jobRun.link.toController,
    (jobRun.link.controller.receive raw).2 = none ∧ ∃ request reply,
      jobRun.link.issued.getLast? = some request ∧ request.type = Message.jobCrc32 ∧
      decode raw = some reply ∧
      read32 reply.payload 1 = (crc32Ieee (jobBytes request.payload)).toNat := by
  obtain ⟨raw, hraw⟩ : ∃ raw, raw ∈ jobRun.link.toController ∧
      (jobRun.link.controller.receive raw).2 = none := by
    refine ⟨jobRun.link.toController.headD [], ?_⟩
    decide +kernel
  exact ⟨raw, hraw.1, hraw.2, (Link.agreement jobRun).1 raw hraw.1 hraw.2 (by decide +kernel)⟩

end NodeLink

end DeusOs
