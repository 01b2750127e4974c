import DeusOs.Update.Link

/-!
# The update link — one request

`SendRequestCoreAsync` over the link, from `Settled` to `Settled`. Over
any events, where it returns, the device is where the answer says, and
where it times out the request has joined the late ones
(`triple_sendRequest`).
-/

namespace DeusOs

namespace Update

open Async (Prog Triple)
open Bootloader Host
open Mailbox (pick discard)

variable {board : Board} {ok : Event → Prop} {late : List UInt8 → Prop} {opcode : UInt8}
  {args : List UInt8} {D W : Sys → Prop} {A : FirmwareUpdateResponse → Sys → Prop}
  {id : ℕ} {s : Conn Link} {c : Channel}

/-! ## Into and out of a request -/

/-- The late requests, once a request has been given up. -/
def Later (late : List UInt8 → Prop) (opcode : UInt8) (args : List UInt8) (rx : List UInt8) : Prop :=
  late rx ∨ ∃ id, IsId id ∧ rx = request 1 id (opcode :: args)

/-- **Writing the request** puts it behind the requests that are on their way.
The answer to come is the one with its id. -/
theorem Settled.write (h : Settled late s) (hd : D s.link.device) (hi : s.channel.Issued c id) :
    Pending late opcode args D W A id
      ⟨c, { s.link with requests := s.link.requests ++ [request 1 id (opcode :: args)] }⟩ := by
  have habandoned : ∀ i, i ∈ s.link.ids → c.Abandoned i := fun i hi' => by
    have := h.abandoned i hi'
    unfold Channel.Abandoned at *
    rwa [hi.abandoned]
  have hfree : id ∉ s.link.ids := fun hin => hi.notAbandoned (habandoned id hin)
  have hids : (Link.ids { s.link with
      requests := s.link.requests ++ [request 1 id (opcode :: args)] }).Perm (id :: s.link.ids) := by
    simp only [Link.ids, List.map_append, List.map_cons, List.map_nil,
      wireId_request 1 hi.isId.2, List.append_assoc]
    exact List.perm_middle
  refine ⟨hi.clean, hi.isId, hi.notAbandoned, fun rx hrx => ?_, h.answers,
    hids.nodup_iff.2 (List.nodup_cons.2 ⟨hfree, h.nodup⟩), fun i hin => ?_,
    Or.inl ⟨hd, fun hin => hfree (List.mem_append_right _ hin)⟩⟩
  · rcases List.mem_append.1 hrx with hrx | hrx
    · exact Or.inr ⟨h.requests rx hrx, fun he => hfree (he ▸ mem_ids_of_request hrx)⟩
    · exact Or.inl (List.mem_singleton.1 hrx)
  · rcases List.mem_cons.1 (hids.subset hin) with rfl | hin
    · exact Or.inl rfl
    · exact Or.inr (habandoned i hin)

/-- **Giving the request up.** -/
theorem Pending.abandon (hs : Service board ok late opcode args D W A)
    (h : Pending late opcode args D W A id s) :
    s.channel.abandonSingleResponse id = (s.channel.abandon id, .ok ()) ∧
      Settled (Later late opcode args) { s with channel := s.channel.abandon id } ∧
      W s.link.device := by
  have hid : id ≠ 0 := Nat.ne_of_gt h.isId.1
  refine ⟨abandonSingleResponse_of_free hid h.current, ⟨⟨h.clean.decoder, h.clean.queue,
    h.clean.nextId⟩, fun rx hrx => ?_, h.answers, h.nodup, fun i hin => ?_⟩, ?_⟩
  · rcases h.requests rx hrx with rfl | ⟨hlate, -⟩
    · exact Or.inr ⟨id, h.isId, rfl⟩
    · exact Or.inl hlate
  · rcases h.abandoned i hin with rfl | hab
    · exact List.mem_cons_self
    · exact List.mem_cons_of_mem _ hab
  · rcases h.stage with ⟨hd, -⟩ | ⟨hw, -⟩
    · exact hs.weaken _ hd
    · exact hw

/-! ## Partial correctness -/

theorem nextRequestIdLoop_error {attempts : ℕ} {e : HostError} {c' : Channel}
    (h : c.nextRequestIdLoop attempts = (c', .error e)) : e = .deus .requestCorrelation := by
  induction attempts generalizing c with
  | zero =>
    cases h
    rfl
  | succ attempts ih =>
    rw [Channel.nextRequestIdLoop] at h
    dsimp only at h
    split at h
    · cases h
      rfl
    split at h
    · cases h
    · exact ih h

/-- What `NextRequestId` throws is not a timeout. -/
theorem nextRequestId_error {e : HostError} {c' : Channel}
    (h : c.nextRequestId = (c', .error e)) : e = .deus .requestCorrelation := by
  unfold Channel.nextRequestId at h
  split at h
  · cases h
    rfl
  · exact nextRequestIdLoop_error h

/-- The state in which the request `id` is written. -/
structure Ready (late : List UInt8 → Prop) (D : Sys → Prop) (id : ℕ) (s : Conn Link) : Prop where
  settled : Settled late s
  device : D s.link.device
  isId : IsId id
  free : ¬ s.channel.Abandoned id

/-- A connection that is ready has issued its id. -/
theorem Ready.issued (h : Ready late D id s) : s.channel.Issued s.channel id :=
  ⟨h.isId, h.free, h.settled.clean, rfl⟩

/-- The host encodes a request as its bytes. -/
theorem encode_request (flags : UInt8) (hlen : args.length ≤ 51) :
    encode FrameType.firmwareUpdateRequest flags id (opcode :: args) =
      .ok (request flags id (opcode :: args)) :=
  encode_eq (by simp only [List.length_cons, maxPayloadBytes]; omega)

/-- What the reader is given is the answer. -/
theorem matchFrame_isFrameOf {a : FirmwareUpdateResponse} {frame : BinaryFrame}
    (h : IsFrameOf id opcode a frame) :
    matchFrame id FrameType.firmwareUpdateResponse frame = .ok frame ∧
      parseResponse frame opcode = .ok a := by
  obtain ⟨r, st, rfl, rfl⟩ := h
  exact ⟨matchFrame_frameOf _ _ (by decide), parseResponse_responseBody r opcode st⟩

/-- Where the request was given up. -/
def Broken (late : List UInt8 → Prop) (opcode : UInt8) (args : List UInt8) (D W : Sys → Prop)
    (A : FirmwareUpdateResponse → Sys → Prop) (id : ℕ) (e : HostError) (s : Conn Link) : Prop :=
  (∀ requested, e = .operationCanceled requested → Pending late opcode args D W A id s) ∧
    e ≠ .deus .timeout

theorem Broken.of_breaks {e : HostError} {ev : LinkEvent}
    (h : Pending late opcode args D W A id s) (hb : Breaks ev e) :
    Broken late opcode args D W A id e s := by
  refine ⟨fun _ _ => h, ?_⟩
  rintro rfl
  cases ev <;> cases hb

theorem triple_readNextFrame (hs : Service board (fun _ => True) late opcode args D W A) :
    Triple (Pending late opcode args D W A id) (readNextFrameAsync (link board))
      (fun frame s => Settled late s ∧ ∃ a, IsFrameOf id opcode a frame ∧ A a s.link.device)
      (Broken late opcode args D W A id) := by
  have hstep : ∀ ev s, Pending late opcode args D W A id s →
      Reads late opcode args D W A id ev (readEvent (link board) ev s) := fun ev s h =>
    h.step hs ev (by cases ev <;> simp [Allowed])
  refine Triple.bind (Q := fun o s => o = none ∧ Pending late opcode args D W A id s) ?_ ?_
  · refine Triple.act (fun s s' o h hg => ?_) fun s s' e h hg => by cases hg
    have hdeq := dequeue_of_empty h.clean.queue
    simp only [hdeq] at hg
    cases hg
    exact ⟨rfl, h⟩
  · rintro o s evs ⟨rfl, h⟩
    refine Triple.await (P := Pending late opcode args D W A id) (fun ev s s' h hg => ?_)
      (fun ev s s' frame h hg => ?_) (fun ev s s' e h hg => ?_) s evs h
    · have := hstep ev s h
      rwa [hg] at this
    · have := hstep ev s h
      rwa [hg] at this
    · have := hstep ev s h
      rw [hg] at this
      exact .of_breaks this.1 this.2

theorem triple_tryRequest (hs : Service board (fun _ => True) late opcode args D W A) :
    Triple (Ready late D id) (tryRequest (link board) opcode 1 id (opcode :: args))
      (fun a s => Settled late s ∧ A a s.link.device) (Broken late opcode args D W A id) := by
  have hwire : encode FrameType.firmwareUpdateRequest 1 id (opcode :: args) =
      .ok (request 1 id (opcode :: args)) := encode_request 1 hs.length
  refine Triple.bind (Q := fun wire s => wire = request 1 id (opcode :: args) ∧ Ready late D id s)
    (Triple.lift (fun s wire h hw => ?_) fun s e h he => ?_) fun wire => ?_
  · rw [hwire] at hw
    cases hw
    exact ⟨rfl, h⟩
  · rw [hwire] at he
    cases he
  refine Triple.bind (Q := fun _ s => Pending late opcode args D W A id s)
    (Triple.act (fun s s' u h hg => ?_) fun s s' e h hg => by cases hg) fun _ => ?_
  · obtain ⟨rfl, hr⟩ := h
    cases hg
    exact hr.settled.write hr.device hr.issued
  refine Triple.bind (Q := fun frame s => Settled late s ∧ ∃ a, IsFrameOf id opcode a frame ∧
    A a s.link.device) ?_ fun frame => Triple.lift (fun s a h ha => ?_) fun s e h he => ?_
  · refine Triple.bind (triple_readNextFrame hs) fun frame =>
      Triple.lift (fun s frame' h hf => ?_) fun s e h he => ?_
    · obtain ⟨hset, a, hframe, ha⟩ := h
      rw [(matchFrame_isFrameOf hframe).1] at hf
      cases hf
      exact ⟨hset, a, hframe, ha⟩
    · obtain ⟨-, a, hframe, -⟩ := h
      rw [(matchFrame_isFrameOf hframe).1] at he
      cases he
  · obtain ⟨hset, a', hframe, ha'⟩ := h
    rw [(matchFrame_isFrameOf hframe).2] at ha
    cases ha
    exact ⟨hset, ha'⟩
  · obtain ⟨-, a', hframe, -⟩ := h
    rw [(matchFrame_isFrameOf hframe).2] at he
    cases he

/-- What a timeout leaves. -/
def TimedOut (late : List UInt8 → Prop) (opcode : UInt8) (args : List UInt8) (W : Sys → Prop)
    (e : HostError) (s : Conn Link) : Prop :=
  e = .deus .timeout → Settled (Later late opcode args) s ∧ W s.link.device

theorem triple_catchRequest (hs : Service board ok late opcode args D W A) (e : HostError) :
    Triple (Broken late opcode args D W A id e) (catchRequest (ε := LinkEvent) id e)
      (fun a s => Settled late s ∧ A a s.link.device) (TimedOut late opcode args W) := by
  have habandon : ∀ e', Triple (Pending late opcode args D W A id)
      (do abandonSingleResponse id; Prog.raise e' : Task Link LinkEvent FirmwareUpdateResponse)
      (fun a s => Settled late s ∧ A a s.link.device) (TimedOut late opcode args W) := fun e' => by
    refine Triple.bind (Q := fun _ s => Settled (Later late opcode args) s ∧ W s.link.device) ?_
      fun _ => Triple.raise fun s h _ => h
    intro s evs h
    obtain ⟨hab, hset⟩ := h.abandon hs
    rw [abandonSingleResponse, if_pos (Nat.ne_of_gt h.isId.1)]
    refine Triple.act (P := fun s' => s' = s) (fun s₁ s' u h₁ hg => ?_)
      (fun s₁ s' e h₁ hg => ?_) s evs rfl
    all_goals
      subst h₁
      simp only [hab] at hg
      cases hg
    exact hset
  intro s evs h
  cases e with
  | operationCanceled requested =>
    cases requested with
    | false => exact habandon _ s evs (h.1 false rfl)
    | true => exact habandon _ s evs (h.1 true rfl)
  | argument => exact Triple.raise (fun s _ he => by cases he) s evs h
  | overflow => exact Triple.raise (fun s _ he => by cases he) s evs h
  | invalidOperation => exact Triple.raise (fun s _ he => by cases he) s evs h
  | deus kind =>
    cases kind with
    | timeout => exact absurd rfl h.2
    | _ => exact Triple.raise (fun s _ he => by cases he) s evs h

/-- **One request**: where it returns, the answer says where the device is;
where it times out, the request is a late one. -/
theorem triple_sendRequest (hs : Service board (fun _ => True) late opcode args D W A) :
    Triple (fun s => Settled late s ∧ D s.link.device)
      (sendRequestCoreAsync (link board) opcode FirmwareUpdate.destructiveFlag (opcode :: args))
      (fun a s => Settled late s ∧ A a s.link.device) (TimedOut late opcode args W) := by
  refine Triple.bind (Q := fun id s => Ready late D id s)
    (Triple.act (fun s s' id h hg => ?_) fun s s' e h hg he => ?_)
    fun id => Triple.handle (triple_tryRequest hs) (triple_catchRequest hs)
  · obtain ⟨hset, hd⟩ := h
    cases hnext : s.channel.nextRequestId with
    | mk c r =>
      simp only [hnext, Prod.mk.injEq] at hg
      obtain ⟨rfl, rfl⟩ := hg
      have hi := nextRequestId_ok hset.clean hnext
      refine ⟨⟨hi.clean, hset.requests, hset.answers, hset.nodup, fun i hin => ?_⟩, hd, hi.isId,
        hi.notAbandoned⟩
      have := hset.abandoned i hin
      unfold Channel.Abandoned at *
      rwa [hi.abandoned]
  · cases hnext : s.channel.nextRequestId with
    | mk c r =>
      simp only [hnext, Prod.mk.injEq] at hg
      rw [hg.2] at hnext
      rw [nextRequestId_error hnext] at he
      cases he

end Update

end DeusOs
