import DeusOs.Host.Model.Conversation
import DeusOs.Host.Segmentation
import DeusOs.Rpc.Codec

/-!
# The host — every answer is for its request

Each frame that the device sent and the host has not taken yet answers the
current request or one that is still abandoned, and no two of these share an
id (`Owned`). So what the channel does not drop answers the current request,
also after the ids have wrapped (`never_misdelivers`).
-/

namespace DeusOs

namespace Host

open Rpc (decoderPosition DecoderOrdered)

variable {c c' : Channel} {o r : Request} {frame : BinaryFrame} {current : Option Request}
  {abandoned : List (ℕ × AbandonedResponseShape)} {unanswered : List Request}
  {pending rest : List (Request × BinaryFrame)} {s s' : Conversation} {l : Label}

/-! ## Ids -/

/-- What `NextRequestId` leaves as it was. -/
structure Channel.Renumbered (c c' : Channel) : Prop where
  decoder : c'.decoder = c.decoder
  queue : c'.queuedFrames = c.queuedFrames
  abandoned : c'.abandonedRequests = c.abandonedRequests
  nextId : IsId c'.requestIds.next

/-- A free id, or the end of the session. -/
def Channel.Outcome (c : Channel) : Except HostError ℕ → Prop
  | .ok id => IsId id ∧ ¬ c.Abandoned id ∧ c.freshSessionRequired = false
  | .error e => e = .deus .requestCorrelation ∧ c.freshSessionRequired = true

theorem nextRequestIdLoop_spec (attempts : ℕ) (h : IsId c.requestIds.next)
    (hopen : c.freshSessionRequired = false) :
    c.Renumbered (c.nextRequestIdLoop attempts).1 ∧
      (c.nextRequestIdLoop attempts).1.Outcome (c.nextRequestIdLoop attempts).2 := by
  induction attempts generalizing c with
  | zero => exact ⟨⟨rfl, rfl, rfl, h⟩, rfl, rfl⟩
  | succ attempts ih =>
    have hnext := isId_take h
    rw [Channel.nextRequestIdLoop]
    dsimp only
    split
    · exact ⟨⟨rfl, rfl, rfl, hnext⟩, rfl, rfl⟩
    split
    · rename_i hfree
      exact ⟨⟨rfl, rfl, rfl, hnext⟩, h, hfree, hopen⟩
    · obtain ⟨hsame, hout⟩ := ih
        (c := { c with requestIds := c.requestIds.take.2, requestIdEpochStarted := true }) hnext hopen
      exact ⟨⟨hsame.decoder, hsame.queue, hsame.abandoned, hsame.nextId⟩, hout⟩

/-- **What `NextRequestId` does:** it gives an id that is not abandoned, or
requires a fresh session. -/
theorem nextRequestId_spec (h : IsId c.requestIds.next) :
    c.Renumbered c.nextRequestId.1 ∧ c.nextRequestId.1.Outcome c.nextRequestId.2 := by
  unfold Channel.nextRequestId
  split
  · rename_i hfresh
    exact ⟨⟨rfl, rfl, rfl, h⟩, rfl, hfresh⟩
  · rename_i hopen
    exact nextRequestIdLoop_spec 65535 h (Bool.eq_false_iff.2 hopen)

/-! ## Who owns a frame -/

/-- A request that may still be answered to the host. -/
def Outstanding (unanswered : List Request) (pending : List (Request × BinaryFrame))
    (o : Request) : Prop :=
  o ∈ unanswered ∨ o ∈ pending.map Prod.fst

/-- **Every pending frame is owned:** by the current request, or by one that
is abandoned under its id. -/
structure Owned (abandoned : List (ℕ × AbandonedResponseShape)) (current : Option Request)
    (unanswered : List Request) (pending : List (Request × BinaryFrame)) : Prop where
  owner : ∀ o, Outstanding unanswered pending o →
    current = some o ∨ abandoned.lookup o.id = some o.shape
  unique : ∀ o o', Outstanding unanswered pending o → Outstanding unanswered pending o' →
    o.id = o'.id → o = o'
  ids : ∀ o, Outstanding unanswered pending o → IsId o.id
  carries : ∀ entry ∈ pending, entry.2.requestId = entry.1.id
  closed : ∀ entry ∈ pending, entry.1.Closes entry.2.type → entry.1 ∉ unanswered
  last : pending.Pairwise fun entry later => entry.1.Closes entry.2.type → later.1 ≠ entry.1
  free : ∀ r, current = some r → abandoned.lookup r.id = none ∧ IsId r.id

theorem lookup_filter_ne {id k : ℕ} (h : id ≠ k) :
    (abandoned.filter fun entry => entry.1 ≠ k).lookup id = abandoned.lookup id := by
  induction abandoned with
  | nil => rfl
  | cons entry rest ih =>
    by_cases hk : entry.1 = k
    · have hne : (id == entry.1) = false := by
        rw [hk]
        exact beq_false_of_ne h
      rw [List.filter_cons_of_neg (by simpa using hk), ih, List.lookup_cons, hne]
    · rw [List.filter_cons_of_pos (by simpa using hk), List.lookup_cons, List.lookup_cons, ih]

theorem lookup_filter_eq_none {id : ℕ} (k : ℕ) (h : abandoned.lookup id = none) :
    (abandoned.filter fun entry => entry.1 ≠ k).lookup id = none := by
  rw [List.lookup_eq_none_iff] at h ⊢
  exact fun entry hentry => h entry (List.mem_filter.1 hentry).1

/-- The request that a pending frame answers is outstanding. -/
theorem outstanding_head (o : Request) (frame : BinaryFrame) :
    Outstanding unanswered ((o, frame) :: rest) o :=
  Or.inr (by simp)

/-- What is outstanding stays so when one request more is issued. -/
theorem Outstanding.cons (h : Outstanding unanswered rest o) (entry : Request × BinaryFrame) :
    Outstanding unanswered (entry :: rest) o :=
  h.imp id fun h => by
    rw [List.map_cons]
    exact List.mem_cons_of_mem _ h

/-- Behind the last frame of a request, the request is no longer outstanding. -/
theorem Owned.not_outstanding (h : Owned abandoned current unanswered ((o, frame) :: rest))
    (hcloses : o.Closes frame.type) : ¬ Outstanding unanswered rest o := by
  rintro (hin | hin)
  · exact h.closed (o, frame) List.mem_cons_self hcloses hin
  · obtain ⟨later, hlater, heq⟩ := List.mem_map.1 hin
    exact (List.pairwise_cons.1 h.last).1 later hlater hcloses heq

/-- One frame less, of a request that stays where it is. -/
theorem Owned.tail (h : Owned abandoned current unanswered ((o, frame) :: rest)) :
    Owned abandoned current unanswered rest where
  owner x hx := h.owner x (hx.cons _)
  unique x y hx hy := h.unique x y (hx.cons _) (hy.cons _)
  ids x hx := h.ids x (hx.cons _)
  carries entry hentry := h.carries entry (List.mem_cons_of_mem _ hentry)
  closed entry hentry := h.closed entry (List.mem_cons_of_mem _ hentry)
  last := (List.pairwise_cons.1 h.last).2
  free := h.free

/-- **A frame of an abandoned request is dropped,** and with its last frame
the request is forgotten. -/
theorem Owned.discard {abandoned' : List (ℕ × AbandonedResponseShape)}
    {shape : AbandonedResponseShape}
    (h : Owned abandoned current unanswered ((o, frame) :: rest))
    (hlookup : abandoned.lookup frame.requestId = some shape)
    (hrest : abandoned' =
      if shape = .singleResponse ∨ frame.type = FrameType.rpcEnd ∨
          frame.type = FrameType.protocolError then
        abandoned.filter fun entry => entry.1 ≠ frame.requestId
      else abandoned) :
    Owned abandoned' current unanswered rest := by
  have hid : frame.requestId = o.id := h.carries (o, frame) List.mem_cons_self
  rw [hid] at hlookup hrest
  obtain rfl : shape = o.shape := by
    rcases h.owner o (outstanding_head o frame) with hcurrent | hshape
    · rw [(h.free o hcurrent).1] at hlookup
      cases hlookup
    · exact Option.some.inj (hlookup.symm.trans hshape)
  by_cases hcloses : o.Closes frame.type
  · have hrest := hrest.trans (if_pos hcloses)
    have hgone := h.not_outstanding hcloses
    -- no other outstanding request has this id
    have hother : ∀ x, Outstanding unanswered rest x → x.id ≠ o.id := by
      intro x hx heq
      have := h.unique x o (hx.cons _) (outstanding_head o frame) heq
      exact hgone (this ▸ hx)
    refine { h.tail with owner := ?_, free := ?_ }
    · intro x hx
      refine (h.tail.owner x hx).imp_right fun hx' => ?_
      rw [hrest, lookup_filter_ne (hother x hx), hx']
    · intro r hr
      exact ⟨hrest ▸ lookup_filter_eq_none o.id (h.free r hr).1, (h.free r hr).2⟩
  · exact hrest.trans (if_neg hcloses) ▸ h.tail

/-- **A frame of no abandoned request answers the current one.** The answers on
their way belong to requests that were sent, and each has an id of its own. -/
theorem Owned.deliver (h : Owned abandoned current unanswered ((o, frame) :: rest))
    (hlookup : abandoned.lookup frame.requestId = none) :
    current = some o ∧ Owned abandoned (o.after frame) unanswered rest := by
  have hid : frame.requestId = o.id := h.carries (o, frame) List.mem_cons_self
  rw [hid] at hlookup
  obtain hcurrent : current = some o := by
    rcases h.owner o (outstanding_head o frame) with hcurrent | hshape
    · exact hcurrent
    · rw [hlookup] at hshape
      cases hshape
  refine ⟨hcurrent, ?_⟩
  unfold Request.after
  by_cases hcloses : o.Closes frame.type
  · rw [if_pos hcloses]
    have hgone := h.not_outstanding hcloses
    refine { h.tail with owner := ?_, free := fun r hr => by cases hr }
    intro x hx
    rcases h.tail.owner x hx with hx' | hx'
    · -- it would be the request that is over
      rw [hcurrent] at hx'
      exact absurd (Option.some.inj hx' ▸ hx) hgone
    · exact Or.inr hx'
  · rw [if_neg hcloses]
    exact hcurrent ▸ h.tail

/-! ## Dequeuing -/

/-- The channel after it dropped and handed out some of its queue. -/
def Channel.Dequeued (c c' : Channel) : Prop :=
  c' = { c with queuedFrames := c'.queuedFrames, abandonedRequests := c'.abandonedRequests }

/-- What dequeuing does: it drops frames, and then the queue is empty or its
next frame answers the current request. -/
def DequeueEnd (current : Option Request) (unanswered : List Request)
    (pending : List (Request × BinaryFrame)) (later : List BinaryFrame)
    (c : Channel) : Channel × Option BinaryFrame → Prop
  | (c', none) => c.Dequeued c' ∧ ∃ old rest, pending = old ++ rest ∧
      rest.map Prod.snd = c'.queuedFrames ++ later ∧
      Owned c'.abandonedRequests current unanswered rest
  | (c', some frame) => c.Dequeued c' ∧ ∃ o old rest, pending = old ++ (o, frame) :: rest ∧
      current = some o ∧ rest.map Prod.snd = c'.queuedFrames ++ later ∧
      Owned c'.abandonedRequests (o.after frame) unanswered rest

theorem dequeueLoop_end (queue later : List BinaryFrame) (c : Channel)
    (hpending : pending.map Prod.snd = queue ++ later)
    (h : Owned c.abandonedRequests current unanswered pending) :
    DequeueEnd current unanswered pending later c (c.dequeueLoop queue) := by
  induction queue generalizing c pending with
  | nil => exact ⟨rfl, [], pending, rfl, hpending, h⟩
  | cons frame queue ih =>
    obtain ⟨⟨o, f⟩, rest, rfl, hf, hrest⟩ : ∃ entry rest, pending = entry :: rest ∧
        entry.2 = frame ∧ rest.map Prod.snd = queue ++ later := by
      rw [List.cons_append, List.map_eq_cons_iff] at hpending
      obtain ⟨entry, rest, rfl, hentry, hrest⟩ := hpending
      exact ⟨entry, rest, rfl, hentry, hrest⟩
    obtain rfl : f = frame := hf
    rw [Channel.dequeueLoop]
    cases hlookup : c.abandonedRequests.lookup f.requestId with
    | none =>
      have hdrop : c.discardIfAbandoned f = (c, false) := by
        rw [Channel.discardIfAbandoned, hlookup]
      obtain ⟨hcurrent, howned⟩ := h.deliver hlookup
      rw [hdrop]
      exact ⟨rfl, o, [], rest, rfl, hcurrent, hrest, howned⟩
    | some shape =>
      obtain ⟨x, hx, howned, hsame⟩ : ∃ x : Channel, c.discardIfAbandoned f = (x, true) ∧
          Owned x.abandonedRequests current unanswered rest ∧
          x = { c with abandonedRequests := x.abandonedRequests } := by
        have hfields := discardIfAbandoned_fields c f
        have hafter : (c.discardIfAbandoned f).1.abandonedRequests =
            if shape = .singleResponse ∨ f.type = FrameType.rpcEnd ∨
                f.type = FrameType.protocolError then
              c.abandonedRequests.filter fun entry => entry.1 ≠ f.requestId
            else c.abandonedRequests := by
          rw [Channel.discardIfAbandoned, hlookup]
          dsimp only
          split <;> rfl
        have howned := h.discard hlookup hafter
        refine ⟨(c.discardIfAbandoned f).1, ?_, howned, hfields⟩
        refine Prod.ext rfl ?_
        rw [Channel.discardIfAbandoned, hlookup]
        dsimp only
        split <;> rfl
      rw [hx]
      dsimp only
      have hend := ih x hrest howned
      rcases hloop : x.dequeueLoop queue with ⟨c', - | frame'⟩
      · rw [hloop] at hend
        obtain ⟨hdeq, old, rest', hold, hrest', howned'⟩ := hend
        refine ⟨?_, (o, f) :: old, rest', by rw [hold]; rfl, hrest', howned'⟩
        rw [Channel.Dequeued, hdeq, hsame]
      · rw [hloop] at hend
        obtain ⟨hdeq, o', old, rest', hold, hcurrent, hrest', howned'⟩ := hend
        refine ⟨?_, o', (o, f) :: old, rest', by rw [hold]; rfl, hcurrent, hrest', howned'⟩
        rw [Channel.Dequeued, hdeq, hsame]

/-! ## The bytes on the way -/

/-- What the link still holds makes frames, and ends with one. -/
structure Flowing (d : BinaryFrameDecoder) (link : List UInt8) : Prop where
  ordered : DecoderOrdered d
  outside : decoderPosition (feed d link).1 = .outside
  clean : batchErrors (feed d link).2 = []
  ends : link ≠ [] → ∃ frame, (Rpc.decoderResults d link).getLast? = some (some (.frame frame))

/-- The frames that the link still holds. -/
def onLink (c : Channel) (link : List UInt8) : List BinaryFrame :=
  batchFrames (feed c.decoder link).2

theorem batchErrors_append (xs ys : List DecodeEvent) :
    batchErrors (xs ++ ys) = batchErrors xs ++ batchErrors ys := List.filterMap_append

theorem batchFrames_append (xs ys : List DecodeEvent) :
    batchFrames (xs ++ ys) = batchFrames xs ++ batchFrames ys := List.filterMap_append

/-- **A frame that is sent is read,** behind what is read before it. -/
theorem decoderResults_wire {d : BinaryFrameDecoder} (type flags : UInt8) {requestId : ℕ}
    {payload : List UInt8} (hordered : DecoderOrdered d) (houtside : decoderPosition d = .outside)
    (hid : requestId < 65536) (hlen : payload.length ≤ maxPayloadBytes) :
    Rpc.decoderResults d (wire type flags requestId payload) =
      List.replicate (11 + payload.length) none ++
        [some (.frame (frameOf type flags requestId payload))] ∧
      DecoderOrdered (feed d (wire type flags requestId payload)).1 ∧
      decoderPosition (feed d (wire type flags requestId payload)).1 = .outside := by
  have hvalid : Rpc.Valid (frameHeader type flags requestId payload.length) payload :=
    Rpc.valid_frameHeader type flags requestId hlen
  obtain ⟨hrun, htrace⟩ := Framing.trace_wire (s := .outside) trivial hvalid.whole
  obtain ⟨hordered', hpos, hresults⟩ :=
    Rpc.feed_refines_decoder hordered (wire type flags requestId payload)
  have hwire : wire type flags requestId payload =
      Rpc.frameFormat.wire (Rpc.summed (frameHeader type flags requestId payload.length) payload) :=
    rfl
  rw [houtside, hwire] at hpos hresults
  refine ⟨?_, hordered', ?_⟩
  · have hcount : (Rpc.summed (frameHeader type flags requestId payload.length) payload).length + 1 =
        11 + payload.length := by
      rw [hvalid.length_summed]
      omega
    have hframe : Rpc.decodeEvent
        (.frame (Rpc.summed (frameHeader type flags requestId payload.length) payload)) =
          some (.frame (frameOf type flags requestId payload)) := by
      rw [Rpc.decodeEvent, hvalid.frameOfHeld, Rpc.frameOfParts_frameHeader hid]
    rw [hwire, hresults, htrace, List.map_append, List.map_replicate, hcount, List.map_singleton,
      hframe]
    rfl
  · rw [hwire, hpos, hrun]

theorem feed_quiet_frame {d : BinaryFrameDecoder} {bytes : List UInt8} {k : ℕ}
    (h : Rpc.decoderResults d bytes = List.replicate k none ++ [some (.frame frame)]) :
    (feed d bytes).2 = [.frame frame] := by
  rw [feed_events, h, List.filterMap_append]
  have hnone : (List.replicate k (none : Option DecodeEvent)).filterMap id = [] := by
    rw [List.filterMap_eq_nil_iff]
    exact fun x hx => List.eq_of_mem_replicate hx
  rw [hnone]
  rfl

/-- One frame more is sent. -/
theorem Flowing.send {link : List UInt8} (type flags : UInt8) {requestId : ℕ}
    {payload : List UInt8} (h : Flowing c.decoder link) (hid : requestId < 65536)
    (hlen : payload.length ≤ maxPayloadBytes) :
    Flowing c.decoder (link ++ wire type flags requestId payload) ∧
      onLink c (link ++ wire type flags requestId payload) =
        onLink c link ++ [frameOf type flags requestId payload] := by
  have hordered := (Rpc.feed_refines_decoder h.ordered link).1
  obtain ⟨hresults, -, hpos⟩ := decoderResults_wire type flags hordered
    h.outside hid hlen
  have hevents := feed_quiet_frame hresults
  refine ⟨⟨h.ordered, ?_, ?_, fun _ => ⟨frameOf type flags requestId payload, ?_⟩⟩, ?_⟩
  · rw [feed_append]
    exact hpos
  · rw [feed_append, batchErrors_append, h.clean, hevents]
    rfl
  · rw [decoderResults_append, hresults, ← List.append_assoc, List.getLast?_concat]
  · rw [onLink, feed_append, batchFrames_append, hevents]
    rfl

/-- Part of what is on the way is read. -/
theorem Flowing.read {data link : List UInt8} (h : Flowing c.decoder (data ++ link)) :
    batchErrors (feed c.decoder data).2 = [] ∧ Flowing (feed c.decoder data).1 link ∧
      onLink c (data ++ link) =
        batchFrames (feed c.decoder data).2 ++ batchFrames (feed (feed c.decoder data).1 link).2 := by
  have hclean := h.clean
  have houtside := h.outside
  rw [feed_append] at hclean houtside
  rw [batchErrors_append, List.append_eq_nil_iff] at hclean
  refine ⟨hclean.1, ⟨(Rpc.feed_refines_decoder h.ordered data).1, houtside, hclean.2, ?_⟩, ?_⟩
  · intro hne
    obtain ⟨frame, hframe⟩ := h.ends (List.append_ne_nil_of_right_ne_nil data hne)
    have hlink : Rpc.decoderResults (feed c.decoder data).1 link ≠ [] := by
      refine List.ne_nil_of_length_pos ?_
      rw [length_decoderResults]
      exact List.length_pos_iff.2 hne
    rw [decoderResults_append, List.getLast?_append] at hframe
    cases hlast : (Rpc.decoderResults (feed c.decoder data).1 link).getLast? with
    | none => exact absurd (List.getLast?_eq_none_iff.1 hlast) hlink
    | some result =>
      rw [hlast, Option.some_or] at hframe
      exact ⟨frame, hframe⟩
  · rw [onLink, feed_append, batchFrames_append]

/-- Where no frame is on the way, nothing is. -/
theorem Flowing.eq_nil {link : List UInt8} (h : Flowing c.decoder link) (hempty : onLink c link = []) :
    link = [] := by
  by_contra hne
  obtain ⟨frame, hframe⟩ := h.ends hne
  have hmem : DecodeEvent.frame frame ∈ (feed c.decoder link).2 := by
    rw [feed_events, List.mem_filterMap]
    exact ⟨some (.frame frame), List.mem_of_getLast? hframe, rfl⟩
  have hin : frame ∈ onLink c link := by
    rw [onLink, batchFrames, List.mem_filterMap]
    exact ⟨.frame frame, hmem, rfl⟩
  rw [hempty] at hin
  exact absurd hin List.not_mem_nil

/-! ## Steps -/

/-- **What every run keeps,** of the frames that are not taken yet. -/
structure Tracks (s : Conversation) (pending : List (Request × BinaryFrame)) : Prop where
  sent : ∃ old, s.sent = old ++ pending
  frames : pending.map Prod.snd = s.channel.queuedFrames ++ onLink s.channel s.link
  flowing : Flowing s.channel.decoder s.link
  owned : Owned s.channel.abandonedRequests s.current s.unanswered pending
  nextId : IsId s.channel.requestIds.next
  goesOn : s.channel.freshSessionRequired = false

/-- The session goes on, or a fresh one is required. -/
def Tracked (s : Conversation) : Prop :=
  (s.channel.freshSessionRequired = true ∧ s.current = none) ∨ ∃ pending, Tracks s pending

/-- What a step may show: a frame that was sent for the request it is
returned to, with all frames behind it still to come, or that a fresh
session is required. -/
def Shows (s s' : Conversation) : Label → Prop
  | .quiet => True
  | .returned r frame => ∃ old rest, s.sent = old ++ (r, frame) :: rest ∧
      rest.map Prod.snd = s'.channel.queuedFrames ++ onLink s'.channel s'.link
  | .threw _ => False
  | .refused e => e = .deus .requestCorrelation ∧ s'.channel.freshSessionRequired = true

theorem tracks_new : Tracks .new [] where
  sent := ⟨[], rfl⟩
  frames := rfl
  flowing := ⟨Rpc.decoderOrdered_reset, rfl, rfl, fun h => absurd rfl h⟩
  owned :=
    { owner := by rintro o (h | h) <;> exact absurd h List.not_mem_nil
      unique := by rintro o _ (h | h) <;> exact absurd h List.not_mem_nil
      ids := by rintro o (h | h) <;> exact absurd h List.not_mem_nil
      carries := fun _ h => absurd h List.not_mem_nil
      closed := fun _ h => absurd h List.not_mem_nil
      last := List.Pairwise.nil
      free := fun _ h => by cases h }
  nextId := ⟨Nat.one_pos, by decide⟩
  goesOn := rfl

/-- With no current request, every outstanding one is abandoned. -/
theorem Owned.all_abandoned (h : Owned abandoned none unanswered pending)
    (ho : Outstanding unanswered pending o) : abandoned.lookup o.id = some o.shape :=
  (h.owner o ho).resolve_left fun h => by cases h

/-- **A new request:** its id is that of no outstanding one. -/
theorem Owned.request (h : Owned abandoned none unanswered pending) {id : ℕ}
    (hid : IsId id) (hfree : abandoned.lookup id = none) (serial : ℕ)
    (shape : AbandonedResponseShape) :
    Owned abandoned (some ⟨serial, id, shape⟩) (unanswered ++ [⟨serial, id, shape⟩]) pending := by
  have hother : ∀ o, Outstanding unanswered pending o → o.id ≠ id := by
    intro o ho heq
    have := h.all_abandoned ho
    rw [heq, hfree] at this
    cases this
  have hsplit : ∀ o, Outstanding (unanswered ++ [⟨serial, id, shape⟩]) pending o →
      Outstanding unanswered pending o ∨ o = ⟨serial, id, shape⟩ := by
    rintro o (ho | ho)
    · rw [List.mem_append, List.mem_singleton] at ho
      exact ho.imp Or.inl (fun ho => ho)
    · exact Or.inl (Or.inr ho)
  refine ⟨?_, ?_, ?_, h.carries, ?_, h.last, ?_⟩
  · intro o ho
    rcases hsplit o ho with ho | rfl
    · exact Or.inr (h.all_abandoned ho)
    · exact Or.inl rfl
  · intro o o' ho ho' heq
    rcases hsplit o ho with ho | rfl
    · rcases hsplit o' ho' with ho' | rfl
      · exact h.unique o o' ho ho' heq
      · exact absurd heq (hother o ho)
    · rcases hsplit o' ho' with ho' | rfl
      · exact absurd heq.symm (hother o' ho')
      · rfl
  · intro o ho
    rcases hsplit o ho with ho | rfl
    · exact h.ids o ho
    · exact hid
  · intro entry hentry hcloses hin
    rw [List.mem_append, List.mem_singleton] at hin
    rcases hin with hin | hin
    · exact h.closed entry hentry hcloses hin
    · have hout : Outstanding unanswered pending entry.1 := Or.inr (List.mem_map_of_mem hentry)
      exact hother entry.1 hout (by rw [hin])
  · intro r hr
    cases hr
    exact ⟨hfree, hid⟩

/-- **The device answers:** a request whose last frame is sent is no longer
to be answered. -/
theorem Owned.answer (h : Owned abandoned current unanswered pending) (ho : o ∈ unanswered)
    (hid : frame.requestId = o.id) :
    Owned abandoned current
      (if o.Closes frame.type then unanswered.filter (· ≠ o) else unanswered)
      (pending ++ [(o, frame)]) := by
  have hin : ∀ x, x ∈ (if o.Closes frame.type then unanswered.filter (· ≠ o) else unanswered) →
      x ∈ unanswered := by
    intro x hx
    split at hx
    · exact (List.mem_filter.1 hx).1
    · exact hx
  have hout : ∀ x, Outstanding
      (if o.Closes frame.type then unanswered.filter (· ≠ o) else unanswered)
      (pending ++ [(o, frame)]) x → Outstanding unanswered pending x := by
    rintro x (hx | hx)
    · exact Or.inl (hin x hx)
    · rw [List.map_append, List.mem_append] at hx
      rcases hx with hx | hx
      · exact Or.inr hx
      · obtain rfl : x = o := by simpa using hx
        exact Or.inl ho
  refine ⟨fun x hx => h.owner x (hout x hx),
    fun x y hx hy => h.unique x y (hout x hx) (hout y hy), fun x hx => h.ids x (hout x hx),
    ?_, ?_, ?_, h.free⟩
  · intro entry hentry
    rw [List.mem_append, List.mem_singleton] at hentry
    rcases hentry with hentry | rfl
    · exact h.carries entry hentry
    · exact hid
  · intro entry hentry hcloses hunanswered
    rw [List.mem_append, List.mem_singleton] at hentry
    rcases hentry with hentry | rfl
    · exact h.closed entry hentry hcloses (hin _ hunanswered)
    · rw [if_pos hcloses, List.mem_filter] at hunanswered
      simp at hunanswered
  · rw [List.pairwise_append]
    refine ⟨h.last, List.pairwise_singleton _ _, ?_⟩
    intro entry hentry later hlater hcloses heq
    rw [List.mem_singleton] at hlater
    rw [hlater] at heq
    exact h.closed entry hentry hcloses (heq ▸ ho)

/-- **The current request is abandoned** under its id, with the shape of the
answer that may still come. -/
theorem Owned.abandon (h : Owned abandoned (some r) unanswered pending) :
    Owned ((r.id, r.shape) :: abandoned) none unanswered pending := by
  refine { h with owner := ?_, free := fun x hx => by cases hx }
  intro x hx
  right
  rcases h.owner x hx with hcurrent | hshape
  · obtain rfl : r = x := Option.some.inj hcurrent
    rw [List.lookup_cons_self]
  · have hne : (x.id == r.id) = false := by
      refine beq_false_of_ne fun heq => ?_
      rw [heq, (h.free r rfl).1] at hshape
      cases hshape
    rw [List.lookup_cons, hne]
    exact hshape

theorem lookup_of_not_abandoned (h : ¬ c.Abandoned o.id) : c.abandonedRequests.lookup o.id = none :=
  not_not.1 (mt abandoned_iff_lookup.2 h)

/-- Abandoning a request whose id is not abandoned. -/
theorem abandonRequest_of_free (hid : o.id ≠ 0) (hfree : c.abandonedRequests.lookup o.id = none) :
    (c.abandonRequest o).1 =
      { c with abandonedRequests := (o.id, o.shape) :: c.abandonedRequests } := by
  unfold Channel.abandonRequest Channel.abandonSingleResponse Channel.abandonRpcStream
    Channel.registerAbandonedRequest
  cases hshape : o.shape <;> simp only [if_neg hid, hfree]

/-- What a dequeuing leaves behind. -/
theorem Tracks.dequeue {channel : Channel} {link : List UInt8} {result : Channel × Option BinaryFrame}
    (h : Tracks s pending) (hids : channel.requestIds = s.channel.requestIds)
    (hfresh : channel.freshSessionRequired = s.channel.freshSessionRequired)
    (hflowing : Flowing channel.decoder link)
    (hend : DequeueEnd s.current s.unanswered pending (onLink channel link) channel result) :
    (result.2 = none → ∃ rest, Tracks { s with channel := result.1, link } rest) ∧
      ∀ r f, s.current = some r → result.2 = some f →
        Shows s { s with channel := result.1, link, current := r.after f } (.returned r f) ∧
        ∃ rest, Tracks { s with channel := result.1, link, current := r.after f } rest := by
  obtain ⟨before, hbefore⟩ := h.sent
  have hnext : IsId channel.requestIds.next := hids ▸ h.nextId
  have hgoes : channel.freshSessionRequired = false := hfresh.trans h.goesOn
  rcases result with ⟨c', - | f⟩
  · obtain ⟨hdeq, old, rest, hold, hrest, howned⟩ := hend
    have hlink : onLink c' link = onLink channel link := by rw [onLink, hdeq]; rfl
    refine ⟨fun _ => ⟨rest, ⟨before ++ old, ?_⟩, ?_, ?_, howned, ?_, ?_⟩, fun r f _ hf => by cases hf⟩
    · rw [hbefore, hold, List.append_assoc]
    · rw [hrest, ← hlink]
    · rw [hdeq]
      exact hflowing
    · rw [hdeq]
      exact hnext
    · rw [hdeq]
      exact hgoes
  · obtain ⟨hdeq, o, old, rest, hold, hcurrent, hrest, howned⟩ := hend
    have hlink : onLink c' link = onLink channel link := by rw [onLink, hdeq]; rfl
    refine ⟨fun hf => (by cases hf), fun r f' hr hf => ?_⟩
    obtain rfl : r = o := Option.some.inj (hr.symm.trans hcurrent)
    obtain rfl : f = f' := Option.some.inj hf
    have hsent : s.sent = (before ++ old) ++ (r, f) :: rest := by
      rw [hbefore, hold, List.append_assoc]
    refine ⟨⟨before ++ old, rest, hsent, by rw [hrest, ← hlink]⟩, rest,
      ⟨before ++ old ++ [(r, f)], ?_⟩, ?_, ?_, howned, ?_, ?_⟩
    · rw [hsent]
      simp
    · rw [hrest, ← hlink]
    · rw [hdeq]
      exact hflowing
    · rw [hdeq]
      exact hnext
    · rw [hdeq]
      exact hgoes

/-- The bytes of a read are decoded before the queue is dequeued. -/
theorem Tracks.receive {data link : List UInt8} (h : Tracks s pending)
    (hlink : s.link = data ++ link) (hne : data ≠ []) :
    ∃ x : Channel, x.requestIds = s.channel.requestIds ∧
      x.freshSessionRequired = s.channel.freshSessionRequired ∧ Flowing x.decoder link ∧
      DequeueEnd s.current s.unanswered pending (onLink x link) x x.dequeue ∧
      s.channel.receive data = (x.dequeue.1, x.dequeue.2.map .ok) := by
  have hflowing := h.flowing
  have hframes := h.frames
  rw [hlink] at hflowing hframes
  obtain ⟨hclean, hrest, hsplit⟩ := hflowing.read
  rw [hsplit, ← List.append_assoc] at hframes
  have hreceive := receive_of_frames hne hclean rfl
  -- the channel with the batch in its queue
  obtain ⟨x, hx⟩ : ∃ x : Channel, x = { s.channel with
    decoder := (feed s.channel.decoder data).1
    queuedFrames := s.channel.queuedFrames ++ batchFrames (feed s.channel.decoder data).2 } :=
    ⟨_, rfl⟩
  rw [← hx] at hreceive
  have hend : DequeueEnd s.current s.unanswered pending (onLink x link) x x.dequeue := by
    rw [hx]
    exact dequeueLoop_end _ _ _ hframes h.owned
  refine ⟨x, by rw [hx], by rw [hx], ?_, hend, hreceive⟩
  rw [hx]
  exact hrest

/-- A request that is given an id is tracked. -/
theorem Tracks.request {channel : Channel} {id : ℕ} (h : Tracks s pending)
    (hcurrent : s.current = none) (hid : s.channel.nextRequestId = (channel, .ok id))
    (shape : AbandonedResponseShape) :
    Tracks { s with
      channel
      current := some ⟨s.issued, id, shape⟩
      issued := s.issued + 1
      unanswered := s.unanswered ++ [⟨s.issued, id, shape⟩] } pending := by
  obtain ⟨hsame, hout⟩ := nextRequestId_spec h.nextId
  rw [hid] at hsame hout
  have howned := h.owned
  rw [hcurrent] at howned
  have hdecoder : channel.decoder = s.channel.decoder := hsame.decoder
  have habandoned : channel.abandonedRequests = s.channel.abandonedRequests := hsame.abandoned
  refine ⟨h.sent, ?_, ?_, ?_, hsame.nextId, hout.2.2⟩
  · have hqueue : channel.queuedFrames = s.channel.queuedFrames := hsame.queue
    rw [h.frames, onLink, onLink, hdecoder, hqueue]
  · rw [hdecoder]
    exact h.flowing
  · rw [habandoned]
    refine howned.request hout.1 ?_ s.issued shape
    rw [← habandoned]
    exact lookup_of_not_abandoned (o := ⟨0, id, shape⟩) hout.2.1

/-- A request is refused an id only where a fresh session is required. -/
theorem Tracks.refuse {channel : Channel} {e : HostError} (h : Tracks s pending)
    (he : s.channel.nextRequestId = (channel, .error e)) :
    e = .deus .requestCorrelation ∧ channel.freshSessionRequired = true := by
  have hout := (nextRequestId_spec h.nextId).2
  rw [he] at hout
  exact hout

/-- An answer of the device is tracked, and closes its request where it is the
last. -/
theorem Tracks.answer {type flags : UInt8} {payload bytes : List UInt8} (h : Tracks s pending)
    (ho : o ∈ s.unanswered) (hbytes : encode type flags o.id payload = .ok bytes) :
    Tracks { s with
      unanswered := if o.Closes type then s.unanswered.filter (· ≠ o) else s.unanswered
      link := s.link ++ bytes
      sent := s.sent ++ [(o, ⟨protocolVersion, type, flags, 0, o.id, payload⟩)] }
      (pending ++ [(o, ⟨protocolVersion, type, flags, 0, o.id, payload⟩)]) := by
  have hlen : payload.length ≤ maxPayloadBytes := by
    by_contra hlong
    rw [encode, if_pos (Nat.lt_of_not_le hlong)] at hbytes
    cases hbytes
  obtain rfl : wire type flags o.id payload = bytes :=
    Except.ok.inj ((encode_eq hlen).symm.trans hbytes)
  have hid : IsId o.id := h.owned.ids o (Or.inl ho)
  obtain ⟨hflowing, hlink⟩ := h.flowing.send type flags hid.2 hlen
  obtain ⟨old, hold⟩ := h.sent
  refine ⟨⟨old, by rw [hold, List.append_assoc]⟩, ?_, hflowing, ?_, h.nextId, h.goesOn⟩
  · rw [hlink, List.map_append, h.frames, List.append_assoc]
    rfl
  · have hanswer : (frameOf type flags o.id payload).requestId = o.id := rfl
    exact h.owned.answer ho hanswer

/-- A request that is abandoned is tracked as such. -/
theorem Tracks.abandon (h : Tracks s pending) (hcurrent : s.current = some o) :
    Tracks { s with channel := (s.channel.abandonRequest o).1, current := none } pending := by
  have howned := h.owned
  rw [hcurrent] at howned
  obtain ⟨hfree, hid⟩ := howned.free o rfl
  rw [abandonRequest_of_free (Nat.ne_of_gt hid.1) hfree]
  exact ⟨h.sent, h.frames, h.flowing, howned.abandon, h.nextId, h.goesOn⟩

/-- Between requests the state is reset: where answers are still outstanding,
a fresh session is required. -/
theorem Tracks.reset (h : Tracks s pending) (hcurrent : s.current = none) :
    Tracked { s with channel := s.channel.resetProtocolState } := by
  by_cases habandoned : s.channel.abandonedRequests = []
  · right
    have howned := h.owned
    rw [hcurrent, habandoned] at howned
    -- nothing is outstanding
    have hnone : ∀ x, ¬ Outstanding s.unanswered pending x := by
      intro x hx
      have := howned.all_abandoned hx
      cases this
    obtain rfl : pending = [] := by
      refine List.eq_nil_iff_forall_not_mem.2 fun entry hentry => hnone entry.1 ?_
      exact Or.inr (List.mem_map_of_mem hentry)
    have hframes := h.frames
    rw [List.map_nil] at hframes
    have hlink : s.link = [] :=
      h.flowing.eq_nil (List.append_eq_nil_iff.1 hframes.symm).2
    refine ⟨[], h.sent, ?_, ?_, ?_, tracks_new.nextId, ?_⟩
    · dsimp only
      rw [hlink]
      rfl
    · dsimp only
      rw [hlink]
      exact tracks_new.flowing
    · dsimp only [Channel.resetProtocolState]
      rw [hcurrent, habandoned]
      exact howned
    · dsimp only [Channel.resetProtocolState]
      rw [h.goesOn, habandoned]
      rfl
  · left
    refine ⟨?_, hcurrent⟩
    have hlen : s.channel.abandonedRequests.length ≠ 0 := by simpa using habandoned
    dsimp only [Channel.resetProtocolState]
    rw [decide_eq_true hlen, Bool.or_true]

/-- **Every step keeps track,** and shows what it may. -/
theorem Tracks.step (h : Tracks s pending) (hstep : Step s l s') : Tracked s' ∧ Shows s s' l := by
  cases hstep with
  | request shape hcurrent hid => exact ⟨Or.inr ⟨pending, h.request hcurrent hid shape⟩, trivial⟩
  | refuse hcurrent he =>
    obtain ⟨hkind, hfresh⟩ := h.refuse he
    exact ⟨Or.inl ⟨hfresh, hcurrent⟩, hkind, hfresh⟩
  | answer ho hbytes _ => exact ⟨Or.inr ⟨_, h.answer ho hbytes⟩, trivial⟩
  | dequeue hcurrent hdequeue =>
    have hend := dequeueLoop_end s.channel.queuedFrames (onLink s.channel s.link) s.channel
      h.frames h.owned
    obtain ⟨hnone, -⟩ := h.dequeue rfl rfl h.flowing hend
    rw [← Channel.dequeue, hdequeue] at hnone
    exact ⟨Or.inr (hnone rfl), trivial⟩
  | dequeued hcurrent hdequeue =>
    have hend := dequeueLoop_end s.channel.queuedFrames (onLink s.channel s.link) s.channel
      h.frames h.owned
    obtain ⟨-, hsome⟩ := h.dequeue rfl rfl h.flowing hend
    rw [← Channel.dequeue, hdequeue] at hsome
    obtain ⟨hshows, htracks⟩ := hsome _ _ hcurrent rfl
    exact ⟨Or.inr htracks, hshows⟩
  | receive hcurrent hlink hne _ hreceive =>
    obtain ⟨x, hids, hfresh, hflowing, hend, hx⟩ := h.receive hlink hne
    obtain ⟨hnone, -⟩ := h.dequeue hids hfresh hflowing hend
    rw [hx] at hreceive
    rcases hdequeue : x.dequeue with ⟨c', - | f⟩
    · rw [hdequeue] at hreceive hnone
      cases hreceive
      exact ⟨Or.inr (hnone rfl), trivial⟩
    · rw [hdequeue] at hreceive
      cases hreceive
  | received hcurrent hlink hne _ hreceive =>
    obtain ⟨x, hids, hfresh, hflowing, hend, hx⟩ := h.receive hlink hne
    obtain ⟨-, hsome⟩ := h.dequeue hids hfresh hflowing hend
    rw [hx] at hreceive
    rcases hdequeue : x.dequeue with ⟨c', - | f⟩
    · rw [hdequeue] at hreceive
      cases hreceive
    · rw [hdequeue] at hreceive hsome
      cases hreceive
      obtain ⟨hshows, htracks⟩ := hsome _ _ hcurrent rfl
      exact ⟨Or.inr htracks, hshows⟩
  | threw hcurrent hlink hne _ hreceive =>
    obtain ⟨x, -, -, -, -, hx⟩ := h.receive hlink hne
    rw [hx] at hreceive
    rcases hdequeue : x.dequeue with ⟨c', - | f⟩
    · rw [hdequeue] at hreceive
      cases hreceive
    · rw [hdequeue] at hreceive
      cases hreceive
  | abandon hcurrent => exact ⟨Or.inr ⟨pending, h.abandon hcurrent⟩, trivial⟩
  | reset hcurrent => exact ⟨h.reset hcurrent, trivial⟩

/-- Where a fresh session is required, no id is given. -/
theorem nextRequestId_of_fresh (h : c.freshSessionRequired = true) :
    c.nextRequestId = (c, .error (.deus .requestCorrelation)) := by
  rw [Channel.nextRequestId, if_pos h]

/-- Once a fresh session is required, it stays so, and nothing is read. -/
theorem ended_step (hfresh : s.channel.freshSessionRequired = true) (hcurrent : s.current = none)
    (hstep : Step s l s') :
    s'.channel.freshSessionRequired = true ∧ s'.current = none ∧ Shows s s' l := by
  cases hstep with
  | request shape _ hid =>
    rw [nextRequestId_of_fresh hfresh] at hid
    cases hid
  | refuse _ he =>
    rw [nextRequestId_of_fresh hfresh] at he
    cases he
    exact ⟨hfresh, hcurrent, rfl, hfresh⟩
  | answer => exact ⟨hfresh, hcurrent, trivial⟩
  | reset =>
    refine ⟨?_, hcurrent, trivial⟩
    dsimp only [Channel.resetProtocolState]
    rw [hfresh, Bool.true_or]
  | dequeue h => rw [hcurrent] at h; cases h
  | dequeued h => rw [hcurrent] at h; cases h
  | receive h => rw [hcurrent] at h; cases h
  | received h => rw [hcurrent] at h; cases h
  | threw h => rw [hcurrent] at h; cases h
  | abandon h => rw [hcurrent] at h; cases h

/-- **Every step is tracked,** and shows what it should: whichever frame is
returned, it answers the request that is current. -/
theorem Tracked.step (h : Tracked s) (hstep : Step s l s') : Tracked s' ∧ Shows s s' l := by
  rcases h with ⟨hfresh, hcurrent⟩ | ⟨pending, htracks⟩
  · obtain ⟨hfresh', hcurrent', hshows⟩ := ended_step hfresh hcurrent hstep
    exact ⟨Or.inl ⟨hfresh', hcurrent'⟩, hshows⟩
  · exact htracks.step hstep

theorem tracked_of_reachable (h : Reachable s) : Tracked s := by
  induction h with
  | new => exact Or.inr ⟨[], tracks_new⟩
  | step _ hstep ih => exact (ih.step hstep).1

/-- A new id is that of no frame still to come, and of no request still to
be answered. -/
theorem Tracks.fresh_id {channel : Channel} {id : ℕ} (h : Tracks s pending)
    (hcurrent : s.current = none) (hid : s.channel.nextRequestId = (channel, .ok id)) :
    (∀ o ∈ s.unanswered, o.id ≠ id) ∧
      ∀ frame ∈ s.channel.queuedFrames ++ onLink s.channel s.link, frame.requestId ≠ id := by
  obtain ⟨hsame, hout⟩ := nextRequestId_spec h.nextId
  rw [hid] at hsame hout
  have howned := h.owned
  rw [hcurrent] at howned
  have habandoned : channel.abandonedRequests = s.channel.abandonedRequests := hsame.abandoned
  have hfree := lookup_of_not_abandoned (o := ⟨0, id, .singleResponse⟩) hout.2.1
  have hother : ∀ o, Outstanding s.unanswered pending o → o.id ≠ id := by
    intro o ho heq
    have := howned.all_abandoned ho
    rw [heq, ← habandoned, hfree] at this
    cases this
  refine ⟨fun o ho => hother o (Or.inl ho), ?_⟩
  intro frame hframe
  rw [← h.frames] at hframe
  obtain ⟨entry, hentry, rfl⟩ := List.mem_map.1 hframe
  rw [howned.carries entry hentry]
  exact hother entry.1 (Or.inr (List.mem_map_of_mem hentry))

/-- **Every frame that is returned was sent in answer to the request that it
is returned to:** in the order in which the device sent its frames, it is
the one before those that are still to come. A new id belongs to nothing
that is still to come; where none can be given, a fresh session is required,
from then on. -/
theorem never_misdelivers (hreach : Reachable s) :
    (∀ r frame s', Step s (.returned r frame) s' →
      s.current = some r ∧ ∃ old rest, s.sent = old ++ (r, frame) :: rest ∧
        rest.map Prod.snd = s'.channel.queuedFrames ++ onLink s'.channel s'.link) ∧
    (∀ channel id, s.current = none → s.channel.nextRequestId = (channel, .ok id) →
      (∀ o ∈ s.unanswered, o.id ≠ id) ∧
        ∀ frame ∈ s.channel.queuedFrames ++ onLink s.channel s.link, frame.requestId ≠ id) ∧
    (∀ e s', Step s (.refused e) s' →
      e = .deus .requestCorrelation ∧ s'.channel.freshSessionRequired = true) ∧
    (s.channel.freshSessionRequired = true →
      s.channel.nextRequestId = (s.channel, .error (.deus .requestCorrelation)) ∧
        ∀ l s', Step s l s' → s'.channel.freshSessionRequired = true) := by
  have htracked := tracked_of_reachable hreach
  refine ⟨?_, ?_, ?_, ?_⟩
  · intro r frame s' hstep
    refine ⟨?_, (htracked.step hstep).2⟩
    cases hstep with
    | dequeued hcurrent => exact hcurrent
    | received hcurrent => exact hcurrent
  · intro channel id hcurrent hid
    rcases htracked with ⟨hfresh, -⟩ | ⟨pending, htracks⟩
    · rw [nextRequestId_of_fresh hfresh] at hid
      cases hid
    · exact htracks.fresh_id hcurrent hid
  · exact fun e s' hstep => (htracked.step hstep).2
  · intro hfresh
    refine ⟨nextRequestId_of_fresh hfresh, ?_⟩
    intro l s' hstep
    rcases htracked with ⟨-, hcurrent⟩ | ⟨pending, htracks⟩
    · exact (ended_step hfresh hcurrent hstep).1
    · rw [htracks.goesOn] at hfresh
      cases hfresh

/-- A first request and a second. -/
def firstRequest : Request := ⟨0, 1, .singleResponse⟩

def secondRequest : Request := ⟨1, 2, .singleResponse⟩

/-- The frame that answers a request. -/
def answerTo (r : Request) : BinaryFrame :=
  frameOf FrameType.assetTransferResponse 0 r.id [1, 0, 0, 0]

/-- The first request was abandoned, and both were answered after that. -/
def answeredLate : Conversation where
  channel := (((Channel.new.nextRequestId).1.abandonRequest firstRequest).1.nextRequestId).1
  current := some secondRequest
  issued := 2
  unanswered := []
  link := wire FrameType.assetTransferResponse 0 1 [1, 0, 0, 0] ++
    wire FrameType.assetTransferResponse 0 2 [1, 0, 0, 0]
  sent := [(firstRequest, answerTo firstRequest), (secondRequest, answerTo secondRequest)]

theorem reachable_answeredLate : Reachable answeredLate := by
  have hfirst := Reachable.step .new (@Step.request .new _ 1 .singleResponse rfl rfl)
  have habandoned := hfirst.step (@Step.abandon _ firstRequest rfl)
  have hsecond := habandoned.step (@Step.request _ _ 2 .singleResponse rfl (by rfl))
  have hlate := hsecond.step (@Step.answer _ firstRequest FrameType.assetTransferResponse 0
    [1, 0, 0, 0] _ (by decide) (encode_eq (by decide)) nofun)
  have hanswered := hlate.step (@Step.answer _ secondRequest FrameType.assetTransferResponse 0
    [1, 0, 0, 0] _ (by decide) (encode_eq (by decide)) nofun)
  exact hanswered

/-- The second request is returned the second answer there, and the first is dropped. -/
theorem never_misdelivers_late : ∃ s',
    Step answeredLate (.returned secondRequest (answerTo secondRequest)) s' ∧
    answeredLate.current = some secondRequest ∧
    ∃ old rest, answeredLate.sent = old ++ (secondRequest, answerTo secondRequest) :: rest ∧
      rest.map Prod.snd = s'.channel.queuedFrames ++ onLink s'.channel s'.link := by
  have hframe : (answeredLate.channel.receive answeredLate.link).2 =
      some (.ok (answerTo secondRequest)) := by decide +kernel
  have hreceive : answeredLate.channel.receive answeredLate.link =
      ((answeredLate.channel.receive answeredLate.link).1, some (.ok (answerTo secondRequest))) := by
    rw [← hframe]
  have hlink : answeredLate.link = answeredLate.link ++ [] := (List.append_nil _).symm
  have hstep := Step.received rfl hlink (by decide +kernel) (by decide +kernel) hreceive
  exact ⟨_, hstep, (never_misdelivers reachable_answeredLate).1 _ _ _ hstep⟩

end Host

end DeusOs
