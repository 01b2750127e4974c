import DeusOs.Host.Frame
import DeusOs.Host.Model.FirmwareUpdate

/-!
# The host — request ids and answers

A new request id is not that of an abandoned request (`nextRequestId_ok`),
and a single frame, read between frames, is dropped where its request was
abandoned and handed to the reader otherwise (`receive_frame`).
-/

namespace DeusOs

namespace Host

variable {c c' : Channel} {requestId : ℕ} {frame : BinaryFrame} {data : List UInt8}

/-- An id the host may use. -/
def IsId (requestId : ℕ) : Prop := 0 < requestId ∧ requestId < 65536

/-- The channel is between frames, with nothing queued. -/
structure Channel.Clean (c : Channel) : Prop where
  decoder : c.decoder = .reset
  queue : c.queuedFrames = []
  nextId : IsId c.requestIds.next

/-- The channel `c'` is `c` after some reading: it may have forgotten
abandoned requests. -/
structure Channel.Follows (c c' : Channel) : Prop where
  ids : c'.requestIds = c.requestIds
  epoch : c'.requestIdEpochStarted = c.requestIdEpochStarted
  fresh : c'.freshSessionRequired = c.freshSessionRequired
  abandoned : ∀ id, c'.Abandoned id → c.Abandoned id

theorem Channel.Follows.refl (c : Channel) : c.Follows c := ⟨rfl, rfl, rfl, fun _ h => h⟩

/-! ## Ids -/

/-- The id after one that is taken is an id. -/
theorem isId_take {a : RequestIdAllocator} (h : IsId a.next) : IsId a.take.2.next := by
  unfold RequestIdAllocator.take IsId at *
  dsimp only
  split <;> omega

/-- What a new id leaves of the channel. -/
structure Channel.Issued (c c' : Channel) (requestId : ℕ) : Prop where
  isId : IsId requestId
  notAbandoned : ¬ c'.Abandoned requestId
  clean : c'.Clean
  abandoned : c'.abandonedRequests = c.abandonedRequests

theorem nextRequestIdLoop_ok {attempts : ℕ} (hc : c.Clean)
    (h : c.nextRequestIdLoop attempts = (c', .ok requestId)) : c.Issued c' requestId := by
  induction attempts generalizing c with
  | zero => cases h
  | succ attempts ih =>
    have hnext := isId_take hc.nextId
    rw [Channel.nextRequestIdLoop] at h
    dsimp only at h
    split at h
    · cases h
    split at h
    · rename_i hfree
      cases h
      exact ⟨hc.nextId, hfree, ⟨hc.decoder, hc.queue, hnext⟩, rfl⟩
    · have hi := ih (c := { c with requestIds := c.requestIds.take.2, requestIdEpochStarted := true })
        ⟨hc.decoder, hc.queue, hnext⟩ h
      exact ⟨hi.isId, hi.notAbandoned, hi.clean, hi.abandoned⟩

/-- **A new id is free.** -/
theorem nextRequestId_ok (hc : c.Clean) (h : c.nextRequestId = (c', .ok requestId)) :
    c.Issued c' requestId := by
  unfold Channel.nextRequestId at h
  split at h
  · cases h
  · exact nextRequestIdLoop_ok hc h

/-- Ids are issued one after the other, while none is abandoned ahead and
the last has not been reached. -/
theorem nextRequestId_of_free (hfresh : c.freshSessionRequired = false)
    (hlt : c.requestIds.next < 65535) (hepoch : c.requestIds.next = 1 → c.requestIdEpochStarted = false)
    (hfree : ¬ c.Abandoned c.requestIds.next) :
    c.nextRequestId = (⟨c.decoder, ⟨c.requestIds.next + 1⟩, c.queuedFrames, c.abandonedRequests,
      true, false⟩, .ok c.requestIds.next) := by
  have htake : c.requestIds.take = (c.requestIds.next, ⟨c.requestIds.next + 1⟩) := by
    simp only [RequestIdAllocator.take, if_neg (Nat.ne_of_lt hlt)]
  have hepoch' : ¬ (c.requestIdEpochStarted = true ∧ c.requestIds.next = 1 ∧
      c.abandonedRequests.length ≠ 0) := fun h => by
    rw [hepoch h.2.1] at h
    exact absurd h.1 (by decide)
  simp only [Channel.nextRequestId, hfresh, Bool.false_eq_true, if_false]
  rw [Channel.nextRequestIdLoop, htake]
  dsimp only
  rw [if_neg hepoch', hfresh]
  exact if_pos hfree

/-! ## Abandoned requests -/

/-- A request is abandoned exactly if it is found among the abandoned ones. -/
theorem abandoned_iff_lookup : c.Abandoned requestId ↔ c.abandonedRequests.lookup requestId ≠ none := by
  unfold Channel.Abandoned
  induction c.abandonedRequests with
  | nil => simp
  | cons entry rest ih =>
    by_cases h : requestId = entry.1
    · simp [h]
    · simp [h, ih]

/-- The channel with one more abandoned request. -/
def Channel.abandon (c : Channel) (requestId : ℕ) : Channel :=
  { c with abandonedRequests := (requestId, .singleResponse) :: c.abandonedRequests }

/-- **Abandoning a request** that was not abandoned. -/
theorem abandonSingleResponse_of_free (hid : requestId ≠ 0) (hfree : ¬ c.Abandoned requestId) :
    c.abandonSingleResponse requestId = (c.abandon requestId, .ok ()) := by
  have hnone : c.abandonedRequests.lookup requestId = none :=
    not_not.1 (mt abandoned_iff_lookup.2 hfree)
  simp only [Channel.abandonSingleResponse, Channel.registerAbandonedRequest, if_neg hid, hnone,
    Channel.abandon]

/-- At most one abandoned request is forgotten. -/
structure Forgets (requestId : ℕ) (old new : List (ℕ × AbandonedResponseShape)) : Prop where
  keeps : ∀ id, id ≠ requestId → id ∈ old.map Prod.fst → id ∈ new.map Prod.fst
  subset : ∀ id, id ∈ new.map Prod.fst → id ∈ old.map Prod.fst

/-- Dropping a frame of one request forgets no other. -/
theorem discardIfAbandoned_of_abandoned (h : c.Abandoned frame.requestId) :
    ∃ abandonedRequests, c.discardIfAbandoned frame = ({ c with abandonedRequests }, true) ∧
      Forgets frame.requestId c.abandonedRequests abandonedRequests := by
  obtain ⟨shape, hshape⟩ := Option.ne_none_iff_exists'.1 (abandoned_iff_lookup.1 h)
  simp only [Channel.discardIfAbandoned, hshape]
  split
  · refine ⟨_, rfl, fun id hne hid => ?_, fun id hid => ?_⟩
    · obtain ⟨entry, hentry, rfl⟩ := List.mem_map.1 hid
      exact List.mem_map_of_mem (List.mem_filter.2 ⟨hentry, by simpa using hne⟩)
    · exact (List.filter_sublist.map Prod.fst).subset hid
  · exact ⟨c.abandonedRequests, rfl, fun id _ hid => hid, fun id hid => hid⟩

theorem discardIfAbandoned_of_free (h : ¬ c.Abandoned frame.requestId) :
    c.discardIfAbandoned frame = (c, false) := by
  have hnone : c.abandonedRequests.lookup frame.requestId = none :=
    not_not.1 (mt abandoned_iff_lookup.2 h)
  simp only [Channel.discardIfAbandoned, hnone]

/-! ## Reading -/

/-- With nothing queued, the reader waits. -/
theorem dequeue_of_empty (h : c.queuedFrames = []) : c.dequeue = (c, none) := by
  obtain ⟨decoder, ids, queue, abandoned, epoch, fresh⟩ := c
  subst h
  rfl

/-- **One frame, read between frames.** If its request was abandoned the frame
is dropped and the request forgotten, else it is handed over. -/
theorem receive_frame (hc : c.Clean) (hne : data ≠ [])
    (hfeed : feed .reset data = (.reset, [.frame frame])) :
    (c.Abandoned frame.requestId → ∃ abandonedRequests,
      c.receive data = ({ c with abandonedRequests }, none) ∧
        Forgets frame.requestId c.abandonedRequests abandonedRequests) ∧
      (¬ c.Abandoned frame.requestId → c.receive data = (c, some (.ok frame))) := by
  obtain ⟨decoder, ids, queue, abandoned, epoch, fresh⟩ := c
  obtain ⟨hdec, hq, -⟩ := hc
  simp only at hdec hq
  subst hdec hq
  have hlen : data.length ≠ 0 := by simpa using hne
  simp only [Channel.receive, if_neg hlen, hfeed, batchErrors, batchFrames, List.filterMap_cons,
    List.filterMap_nil, List.nil_append, Channel.dequeue, Channel.dequeueLoop]
  refine ⟨fun h => ?_, fun h => ?_⟩
  · obtain ⟨rest, hdiscard, hkeep⟩ := discardIfAbandoned_of_abandoned
      (c := ⟨.reset, ids, [frame], abandoned, epoch, fresh⟩) h
    rw [hdiscard]
    exact ⟨rest, rfl, hkeep⟩
  · rw [discardIfAbandoned_of_free (c := ⟨.reset, ids, [frame], abandoned, epoch, fresh⟩) h]

/-- A frame of the codec for the awaited request is the answer. -/
theorem matchFrame_frameOf (type : UInt8) (payload : List UInt8) (h : type ≠ FrameType.protocolError) :
    matchFrame requestId type (frameOf type 0 requestId payload) =
      .ok (frameOf type 0 requestId payload) := by
  have hvalid : validateCommonResponseFrame (frameOf type 0 requestId payload) = .ok () := by
    simp [validateCommonResponseFrame, frameOf]
  have htype : (frameOf type 0 requestId payload).type = type := rfl
  have hid : (frameOf type 0 requestId payload).requestId = requestId := rfl
  simp only [matchFrame, hvalid, htype, hid, ne_eq, not_true_eq_false, if_false, h]
  rfl

end Host

end DeusOs
