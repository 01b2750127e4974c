import DeusOs.Update.Client
import DeusOs.Update.Model.Schedule

/-!
# The update link — requests that go through

`SendRequestCoreAsync` over a known schedule. A prompt exchange returns
(`send_prompt`), a missed one times out (`send_missed`), and both leave
the next id free.
-/

namespace DeusOs

namespace Update

open Async (Prog Completion)
open Bootloader Host
open Mailbox (pick discard)
open Nor (Outcome)

variable {board : Board} {ok : Event → Prop} {late : List UInt8 → Prop} {opcode : UInt8}
  {args : List UInt8} {D W : Sys → Prop} {A : FirmwareUpdateResponse → Sys → Prop}
  {id n : ℕ} {s : Conn Link} {c c' : Channel} {evs rest : List LinkEvent} {ev : LinkEvent} {l : Link}

/-! ## Ids -/

/-- The next id is `n`, and no id from there on is abandoned. -/
structure Numbered (n : ℕ) (c : Channel) : Prop where
  next : c.requestIds.next = n
  fresh : c.freshSessionRequired = false
  epoch : n = 1 → c.requestIdEpochStarted = false
  below : ∀ id, c.Abandoned id → id < n

/-- A channel stays numbered over what follows. -/
theorem Numbered.follows (h : Numbered n c) (hf : c.Follows c') : Numbered n c' where
  next := hf.ids ▸ h.next
  fresh := hf.fresh ▸ h.fresh
  epoch := hf.epoch ▸ h.epoch
  below id hid := h.below id (hf.abandoned id hid)

/-- The id `n` is issued. -/
theorem Numbered.issue (h : Numbered n c) (hc : c.Clean) (hlt : n < 65535) :
    ∃ c', c.nextRequestId = (c', .ok n) ∧ c.Issued c' n ∧ Numbered (n + 1) c' := by
  have hn := h.next
  have hfree : ¬ c.Abandoned c.requestIds.next := fun hab => by
    have := h.below _ hab
    omega
  have hnext := nextRequestId_of_free h.fresh (by omega) (fun h1 => h.epoch (hn ▸ h1)) hfree
  rw [hn] at hnext
  have hpos := hc.nextId.1
  refine ⟨_, hnext, nextRequestId_ok hc hnext, rfl, rfl, fun h1 => by omega, fun id hid => ?_⟩
  have := h.below id hid
  omega

/-- Giving up the request that was issued last. -/
theorem Numbered.abandon (h : Numbered (n + 1) c) : Numbered (n + 1) (c.abandon n) where
  next := h.next
  fresh := h.fresh
  epoch := h.epoch
  below id hid := by
    rcases List.mem_cons.1 hid with rfl | hid
    · exact Nat.lt_succ_self _
    · exact h.below id hid

/-! ## Where a message is -/

/-- What an event does to the link. -/
theorem mem_requests_event (h : id ∈ l.requests.map wireId) (he : Elsewhere id ev) :
    id ∈ ((link board).event ev l).1.requests.map wireId := by
  cases ev with
  | deliver id' tape =>
    show id ∈ (l.deliver board id' tape).requests.map wireId
    unfold Link.deliver
    split
    · exact h
    split
    · exact h
    · exact Mailbox.mem_map_discard_of_ne h fun heq => he.1 heq.symm
  | dropRequest id' => exact Mailbox.mem_map_discard_of_ne h fun heq => he heq.symm
  | collect =>
    show id ∈ (l.collect board).requests.map wireId
    unfold Link.collect
    split <;> exact h
  | dropResponse id' => exact h
  | read id' =>
    simp only [link]
    split <;> exact h
  | _ => exact he.elim

theorem mem_responses_event (h : id ∈ l.responses.map wireId) (he : Elsewhere id ev) :
    id ∈ ((link board).event ev l).1.responses.map wireId := by
  cases ev with
  | deliver id' tape =>
    show id ∈ (l.deliver board id' tape).responses.map wireId
    unfold Link.deliver
    split
    · exact h
    split <;> exact h
  | dropRequest id' => exact h
  | collect =>
    show id ∈ (l.collect board).responses.map wireId
    unfold Link.collect
    split
    · exact h
    · rw [List.map_append]
      exact List.mem_append_left _ h
  | dropResponse id' => exact Mailbox.mem_map_discard_of_ne h fun heq => he heq.symm
  | read id' =>
    simp only [link]
    split
    · exact h
    · exact Mailbox.mem_map_discard_of_ne h fun heq => he heq.symm
  | _ => exact he.elim

theorem mem_flying_event (h : id ∈ l.flying.map wireId) (he : Elsewhere id ev) :
    id ∈ ((link board).event ev l).1.flying.map wireId := by
  cases ev with
  | deliver id' tape =>
    show id ∈ (l.deliver board id' tape).flying.map wireId
    unfold Link.deliver
    split
    · exact h
    rename_i hb
    split
    · exact h
    · simp only [Link.flying, armed_eq_none hb, Option.toList_none, List.append_nil] at h
      simp only [Link.flying, List.map_append]
      exact List.mem_append_left _ h
  | dropRequest id' => exact h
  | collect =>
    show id ∈ (l.collect board).flying.map wireId
    rwa [flying_collect]
  | dropResponse id' =>
    simp only [Link.flying, List.map_append, List.mem_append] at h ⊢
    exact h.imp_left fun h => Mailbox.mem_map_discard_of_ne h fun heq => he heq.symm
  | read id' =>
    simp only [link]
    split
    · exact h
    · simp only [Link.flying, List.map_append, List.mem_append] at h ⊢
      exact h.imp_left fun h => Mailbox.mem_map_discard_of_ne h fun heq => he heq.symm
  | _ => exact he.elim

/-- Collecting lands what is flying. -/
theorem mem_responses_collect (h : id ∈ l.flying.map wireId) :
    id ∈ (l.collect board).responses.map wireId := by
  simp only [Link.flying, List.map_append, List.mem_append] at h
  unfold Link.collect
  cases ha : armed l.device with
  | none => simpa [ha] using h
  | some tx =>
    simp only [ha, Option.toList_some] at h
    rw [List.map_append]
    exact List.mem_append.2 h

/-! ## The wait -/

theorem allowed_of_withheld (h : Withheld id ev) : Allowed Calm ev := by
  cases ev with
  | deliver id' tape => exact fun _ => h
  | collect => trivial
  | configure c => exact h.elim
  | reset d1 d2 => exact h.elim
  | _ => trivial

theorem withheld_of_elsewhere (h : Elsewhere id ev) : Withheld id ev := by
  cases ev with
  | deliver id' tape => exact h.2
  | read id' => exact h
  | collect => trivial
  | dropRequest id' => trivial
  | dropResponse id' => trivial
  | _ => exact h.elim

/-- While the answer is withheld, the reader waits. -/
theorem Pending.withheld (hs : Service board Calm late opcode args D W A)
    (h : Pending late opcode args D W A id s) (he : Withheld id ev) :
    ∃ s', readEvent (link board) ev s = (s', none) ∧ Pending late opcode args D W A id s' := by
  have hstep := h.step hs ev (allowed_of_withheld he)
  cases hr : readEvent (link board) ev s with
  | mk s' r =>
    rw [hr] at hstep
    have hnone : r = none := by
      have hsnd : r = (readEvent (link board) ev s).2 := by rw [hr]
      rw [hsnd]
      cases ev with
      | read id' =>
        simp only [readEvent, link]
        cases hp : pick wireId id' s.link.responses with
        | none => rfl
        | some tx =>
          obtain ⟨c, hrec, -⟩ := (h.read hp).2 he
          simp only [hrec]
      | deliver id' tape => rfl
      | collect => rfl
      | dropRequest id' => rfl
      | dropResponse id' => rfl
      | _ => exact he.elim
    subst hnone
    exact ⟨s', rfl, hstep⟩

/-- **The wait runs on**, keeping what the events keep of the link. -/
theorem await_withheld (hs : Service board Calm late opcode args D W A) {F : Link → Prop}
    {quiet : LinkEvent → Prop} (hquiet : ∀ ev, quiet ev → Withheld id ev)
    (hF : ∀ ev l, F l → quiet ev → F ((link board).event ev l).1)
    (h : Pending late opcode args D W A id s) (hl : F s.link) (hn : Numbered n s.channel)
    (hevs : ∀ e ∈ evs, quiet e) (rest : List LinkEvent) :
    ∃ s', (Pending late opcode args D W A id s' ∧ F s'.link ∧ Numbered n s'.channel) ∧
      Prog.await (readEvent (link board)) s (evs ++ rest) =
        Prog.await (readEvent (link board)) s' rest := by
  refine Async.await_quiet (P := fun s => Pending late opcode args D W A id s ∧ F s.link ∧
    Numbered n s.channel) (fun ev s hP he => ?_) ⟨h, hl, hn⟩ hevs rest
  obtain ⟨hpend, hl, hn⟩ := hP
  obtain ⟨s', hr, hpend'⟩ := hpend.withheld hs (hquiet ev he)
  have hfollows : s.channel.Follows (readEvent (link board) ev s).1.channel := hpend.follows ev
  have hlink : (readEvent (link board) ev s).1.link = ((link board).event ev s.link).1 :=
    link_readEvent ev s
  rw [hr] at hfollows hlink
  refine ⟨s', hr, hpend', ?_, hn.follows hfollows⟩
  rw [hlink]
  exact hF ev s.link hl he

/-- What a device that answers does. -/
structure Answers (board : Board) (opcode : UInt8) (args : List UInt8) (D : Sys → Prop) : Prop where
  idle : ∀ d, D d → armed d = none → ¬ Busy d
  arms : ∀ d id tape, IsId id → D d → Sound tape → ¬ Busy d →
    armed (d.step board (.packet (request 1 id (opcode :: args)) tape)) ≠ none

/-- One event of the wait. -/
theorem await_one (hs : Service board Calm late opcode args D W A)
    (h : Pending late opcode args D W A id s) (hn : Numbered n s.channel) (he : Withheld id ev)
    (rest : List LinkEvent) :
    ∃ s', Pending late opcode args D W A id s' ∧ Numbered n s'.channel ∧
      s'.link = ((link board).event ev s.link).1 ∧
      Prog.await (readEvent (link board)) s (ev :: rest) =
        Prog.await (readEvent (link board)) s' rest := by
  obtain ⟨s', hr, hpend⟩ := h.withheld hs he
  have hfollows : s.channel.Follows (readEvent (link board) ev s).1.channel := h.follows ev
  have hlink : (readEvent (link board) ev s).1.link = ((link board).event ev s.link).1 :=
    link_readEvent ev s
  rw [hr] at hfollows hlink
  exact ⟨s', hpend, hn.follows hfollows, hlink, Async.await_none hr⟩

/-- The endpoint is idle once its response has been collected. -/
theorem not_busy_collect (hidle : armed l.device = none → ¬ Busy l.device) :
    ¬ Busy (l.collect board).device := by
  unfold Link.collect
  cases ha : armed l.device with
  | none => exact hidle ha
  | some tx => exact not_busy_inComplete (busy_of_armed ha)

/-- The request that is waited for is not late. -/
theorem Pending.of_pick (h : Pending late opcode args D W A id s) {rx : List UInt8}
    (hp : pick wireId id s.link.requests = some rx) :
    rx = request 1 id (opcode :: args) ∧ D s.link.device := by
  have hmem := Mailbox.mem_of_pick hp
  have hkey := Mailbox.key_of_pick hp
  refine ⟨(h.requests rx hmem).resolve_right fun hlate => hlate.2 hkey, ?_⟩
  rcases h.stage with ⟨hd, -⟩ | ⟨-, hgone, -⟩
  · exact hd
  · exact absurd (hkey ▸ List.mem_map_of_mem hmem) hgone

/-- **A delivered request is answered.** -/
theorem Pending.flies (hs : Service board Calm late opcode args D W A)
    (ha : Answers board opcode args D) (h : Pending late opcode args D W A id s)
    (hmem : id ∈ s.link.requests.map wireId) (hb : ¬ Busy s.link.device)
    {tape : ℕ → Option Outcome} (htape : Sound tape) :
    id ∈ (s.link.deliver board id tape).flying.map wireId := by
  obtain ⟨rx, hp⟩ := Mailbox.exists_pick hmem
  obtain ⟨rfl, hd⟩ := h.of_pick hp
  have harms := ha.arms s.link.device id tape h.isId hd htape hb
  obtain ⟨tx, htx⟩ := Option.ne_none_iff_exists'.1 harms
  obtain ⟨a, ⟨r, st, rfl, -⟩, -⟩ := (hs.serve _ id tape h.isId hd htape hb).2 tx htx
  unfold Link.deliver
  rw [if_neg hb, hp]
  simp only [Link.flying, htx, Option.toList_some, List.map_append, List.map_cons, List.map_nil,
    wireId_buildResponse r h.isId.2]
  exact List.mem_append_right _ (List.mem_singleton_self _)

/-- **A prompt answer ends the wait.** -/
theorem await_prompt (hs : Service board Calm late opcode args D W A)
    (ha : Answers board opcode args D) (h : Pending late opcode args D W A id s)
    (hmem : id ∈ s.link.requests.map wireId) (hn : Numbered n s.channel) (he : Prompt id evs)
    (rest : List LinkEvent) :
    ∃ frame a s', Prog.await (readEvent (link board)) s (evs ++ rest) = .returned frame s' rest ∧
      IsFrameOf id opcode a frame ∧ A a s'.link.device ∧ Settled late s' ∧
      Numbered n s'.channel := by
  obtain ⟨h₁, h₂, h₃, htape⟩ := he
  rename_i b₁ b₂ b₃ tape
  simp only [List.append_assoc, List.cons_append, List.nil_append]
  -- the request stays where it is until the endpoint is idle
  obtain ⟨s₁, ⟨hp₁, hm₁, hn₁⟩, hrun₁⟩ := await_withheld hs
    (F := fun l => id ∈ l.requests.map wireId) (fun _ => withheld_of_elsewhere)
    (fun ev l hl he => mem_requests_event hl he) h hmem hn h₁
    (.collect :: .deliver id tape :: (b₂ ++ (.collect :: (b₃ ++ .read id :: rest))))
  obtain ⟨s₂, hp₂, hn₂, hl₂, hrun₂⟩ := await_one hs hp₁ hn₁ (show Withheld id .collect from trivial)
    (.deliver id tape :: (b₂ ++ (.collect :: (b₃ ++ .read id :: rest))))
  have hm₂ : id ∈ s₂.link.requests.map wireId := by
    rw [hl₂]
    exact mem_requests_event hm₁ (show Elsewhere id .collect from trivial)
  have hb₂ : ¬ Busy s₂.link.device := by
    rw [hl₂]
    obtain ⟨rx, hpick⟩ := Mailbox.exists_pick hm₁
    exact not_busy_collect (ha.idle _ (hp₁.of_pick hpick).2)
  -- it is delivered, and its answer collected
  have hf₃ := hp₂.flies hs ha hm₂ hb₂ htape
  obtain ⟨s₃, hp₃, hn₃, hl₃, hrun₃⟩ := await_one hs hp₂ hn₂ (show Withheld id (.deliver id tape) from htape)
    (b₂ ++ (.collect :: (b₃ ++ .read id :: rest)))
  obtain ⟨s₄, ⟨hp₄, hf₄, hn₄⟩, hrun₄⟩ := await_withheld hs
    (F := fun l => id ∈ l.flying.map wireId) (fun _ => withheld_of_elsewhere)
    (fun ev l hl he => mem_flying_event hl he) hp₃ (hl₃ ▸ hf₃) hn₃ h₂
    (.collect :: (b₃ ++ .read id :: rest))
  obtain ⟨s₅, hp₅, hn₅, hl₅, hrun₅⟩ := await_one hs hp₄ hn₄ (show Withheld id .collect from trivial)
    (b₃ ++ .read id :: rest)
  obtain ⟨s₆, ⟨hp₆, hm₆, hn₆⟩, hrun₆⟩ := await_withheld hs
    (F := fun l => id ∈ l.responses.map wireId) (fun _ => withheld_of_elsewhere)
    (fun ev l hl he => mem_responses_event hl he) hp₅ (hl₅ ▸ mem_responses_collect hf₄) hn₅ h₃
    (.read id :: rest)
  -- and read
  obtain ⟨tx, hpick⟩ := Mailbox.exists_pick hm₆
  obtain ⟨frame, a, hrec, hframe, hA, hset⟩ := (hp₆.read hpick).1 rfl
  have hread : readEvent (link board) (.read id) s₆ = (⟨s₆.channel, { s₆.link with
      responses := discard wireId id s₆.link.responses }⟩, some (.ok frame)) := by
    simp only [readEvent, link, hpick, hrec]
  refine ⟨frame, a, ⟨s₆.channel, { s₆.link with responses := discard wireId id s₆.link.responses }⟩,
    ?_, hframe, hA, hset, hn₆⟩
  rw [hrun₁, hrun₂, hrun₃, hrun₄, hrun₅, hrun₆]
  exact Async.await_ok hread

/-- **A missed answer runs into the timeout.** -/
theorem await_missed (hs : Service board Calm late opcode args D W A)
    (h : Pending late opcode args D W A id s) (hn : Numbered n s.channel) (he : Missed id evs)
    (rest : List LinkEvent) :
    ∃ s', Prog.await (readEvent (link board)) s (evs ++ rest) =
        .threw (.operationCanceled false) s' rest ∧
      Pending late opcode args D W A id s' ∧ Numbered n s'.channel := by
  obtain ⟨hb⟩ := he
  rename_i b
  rw [List.append_assoc]
  obtain ⟨s₁, ⟨hp₁, -, hn₁⟩, hrun₁⟩ := await_withheld hs (F := fun _ => True) (fun _ he => he)
    (fun _ _ _ _ => trivial) h trivial hn hb ([.timeout] ++ rest)
  refine ⟨s₁, ?_, hp₁, hn₁⟩
  rw [hrun₁]
  exact Async.await_error rfl

/-! ## The request -/

/-- The start of a request: the id is issued and the request written. -/
theorem Settled.send (h : Settled late s) (hd : D s.link.device) (hn : Numbered n s.channel)
    (hlt : n < 65535) (board : Board) (evs : List LinkEvent) :
    ∃ s₁ s₂, onChannel (ε := LinkEvent) Channel.nextRequestId s evs = .returned n s₁ evs ∧
      writeAsync (link board) (request 1 n (opcode :: args)) s₁ evs = .returned () s₂ evs ∧
      Pending late opcode args D W A n s₂ ∧ n ∈ s₂.link.requests.map wireId ∧
      Numbered (n + 1) s₂.channel := by
  obtain ⟨c', hnext, hissued, hn'⟩ := hn.issue h.clean hlt
  have hrun : onChannel (ε := LinkEvent) Channel.nextRequestId s evs =
      .returned n { s with channel := c' } evs := by
    simp only [onChannel, Prog.act, hnext]
  refine ⟨_, _, hrun, rfl, h.write hd hissued, ?_, hn'⟩
  have hmem : wireId (request 1 n (opcode :: args)) ∈
      (s.link.requests ++ [request 1 n (opcode :: args)]).map wireId :=
    List.mem_map_of_mem (List.mem_append_right _ (List.mem_singleton_self _))
  rwa [wireId_request 1 hissued.isId.2] at hmem

/-- With nothing queued, the next frame is waited for. -/
theorem readNextFrame_of_clean (h : s.channel.Clean) :
    readNextFrameAsync (link board) s evs = Prog.await (readEvent (link board)) s evs := by
  have hdeq : onChannel (ε := LinkEvent) (fun c => ((c.dequeue).1, .ok (c.dequeue).2)) s evs =
      .returned none s evs := by
    simp only [onChannel, Prog.act, dequeue_of_empty h.queue]
  unfold readNextFrameAsync
  rw [Async.bind_returned hdeq]

/-- **A request that goes through.** -/
theorem send_prompt (hs : Service board Calm late opcode args D W A)
    (ha : Answers board opcode args D) (h : Settled late s) (hd : D s.link.device)
    (hn : Numbered n s.channel) (hlt : n < 65535) (he : Prompt n evs) (rest : List LinkEvent) :
    ∃ a s', sendRequestCoreAsync (link board) opcode FirmwareUpdate.destructiveFlag (opcode :: args)
        s (evs ++ rest) = .returned a s' rest ∧
      Settled late s' ∧ A a s'.link.device ∧ Numbered (n + 1) s'.channel := by
  obtain ⟨s₁, s₂, hissue, hwrite, hpend, hmem, hn'⟩ :=
    h.send hd hn hlt board (evs ++ rest)
  obtain ⟨frame, a, s', hawait, hframe, hA, hset, hn''⟩ := await_prompt hs ha hpend hmem hn' he rest
  obtain ⟨hmatch, hparse⟩ := matchFrame_isFrameOf hframe
  have hread : readMatchingFrameAsync (link board) n FrameType.firmwareUpdateResponse s₂
      (evs ++ rest) = .returned frame s' rest := by
    rw [readMatchingFrameAsync, Async.bind_returned (by rw [readNextFrame_of_clean hpend.clean]; exact hawait),
      hmatch]
    rfl
  have htry : tryRequest (link board) opcode FirmwareUpdate.destructiveFlag n (opcode :: args) s₁
      (evs ++ rest) = .returned a s' rest := by
    have hencode : encode FrameType.firmwareUpdateRequest FirmwareUpdate.destructiveFlag n
        (opcode :: args) = .ok (request 1 n (opcode :: args)) := encode_request 1 hs.length
    rw [tryRequest, hencode, Async.lift_bind, Async.bind_returned hwrite,
      Async.bind_returned hread, hparse]
    rfl
  refine ⟨a, s', ?_, hset, hA, hn''⟩
  rw [sendRequestCoreAsync, Async.bind_returned hissue]
  exact Async.handle_returned htry

/-- **A request that times out.** -/
theorem send_missed (hs : Service board Calm late opcode args D W A)
    (h : Settled late s) (hd : D s.link.device) (hn : Numbered n s.channel) (hlt : n < 65535)
    (he : Missed n evs) (rest : List LinkEvent) :
    ∃ s', sendRequestCoreAsync (link board) opcode FirmwareUpdate.destructiveFlag (opcode :: args)
        s (evs ++ rest) = .threw (.deus .timeout) s' rest ∧
      Settled (Later late opcode args) s' ∧ W s'.link.device ∧ Numbered (n + 1) s'.channel := by
  obtain ⟨s₁, s₂, hissue, hwrite, hpend, -, hn'⟩ :=
    h.send hd hn hlt board (evs ++ rest)
  obtain ⟨s₃, hawait, hpend₃, hn₃⟩ := await_missed hs hpend hn' he rest
  obtain ⟨hab, hset, hw⟩ := hpend₃.abandon hs
  have hread : readMatchingFrameAsync (link board) n FrameType.firmwareUpdateResponse s₂
      (evs ++ rest) = .threw (.operationCanceled false) s₃ rest := by
    rw [readMatchingFrameAsync]
    refine Async.bind_threw ?_
    rw [readNextFrame_of_clean hpend.clean]
    exact hawait
  have htry : tryRequest (link board) opcode FirmwareUpdate.destructiveFlag n (opcode :: args) s₁
      (evs ++ rest) = .threw (.operationCanceled false) s₃ rest := by
    have hencode : encode FrameType.firmwareUpdateRequest FirmwareUpdate.destructiveFlag n
        (opcode :: args) = .ok (request 1 n (opcode :: args)) := encode_request 1 hs.length
    rw [tryRequest, hencode, Async.lift_bind, Async.bind_returned hwrite]
    exact Async.bind_threw hread
  have hcatch : catchRequest (ε := LinkEvent) n (.operationCanceled false) s₃ rest =
      .threw (.deus .timeout) { s₃ with channel := s₃.channel.abandon n } rest := by
    have habandon : abandonSingleResponse (ε := LinkEvent) n s₃ rest =
        .returned () { s₃ with channel := s₃.channel.abandon n } rest := by
      rw [abandonSingleResponse, if_pos (Nat.ne_of_gt hpend.isId.1)]
      simp only [onChannel, Prog.act, hab]
    rw [catchRequest, Async.bind_returned habandon]
    rfl
  refine ⟨_, ?_, hset, hw, hn₃.abandon⟩
  rw [sendRequestCoreAsync, Async.bind_returned hissue, Async.handle_threw htry]
  exact hcatch

end Update

end DeusOs
