import DeusOs.Host.Channel
import DeusOs.Rpc.Decoder

/-!
# How the transport groups the bytes

One read hands the decoder a batch of bytes, and a decode error in it drops
the rest of the batch (`calls_kept`). So the grouping of a stream into reads
shows where an error is within a read's length of a frame or of another
error, and nowhere else (`invisible_iff_spaced`).
-/

namespace DeusOs

namespace Host

open Async (Prog)
open Rpc (decodeEvent frameFormat)

/-! ## Calls -/

/-- A transport whose events are the reads it completes. -/
def reads : Transport Unit (List UInt8) where
  write _ link := link
  event data link := (link, some (.bytes data))

/-- `ReadNextFrameAsync` is called again and again, whatever it returns or
throws, until it waits for more. -/
inductive Calls : Conn Unit → List (List UInt8) → List (Except HostError BinaryFrame) → Prop
  | pending {s s' : Conn Unit} {evs : List (List UInt8)} :
      readNextFrameAsync reads s evs = .pending s' → Calls s evs []
  | returned {s s' : Conn Unit} {evs evs' : List (List UInt8)} {frame : BinaryFrame}
      {rs : List (Except HostError BinaryFrame)} :
      readNextFrameAsync reads s evs = .returned frame s' evs' → Calls s' evs' rs →
      Calls s evs (.ok frame :: rs)
  | threw {s s' : Conn Unit} {evs evs' : List (List UInt8)} {e : HostError}
      {rs : List (Except HostError BinaryFrame)} :
      readNextFrameAsync reads s evs = .threw e s' evs' → Calls s' evs' rs →
      Calls s evs (.error e :: rs)

/-- The stream, split into reads of at most 512 bytes. -/
structure Splits (bytes : List UInt8) (parts : List (List UInt8)) : Prop where
  flatten : parts.flatten = bytes
  nonempty : ∀ part ∈ parts, part ≠ []
  length : ∀ part ∈ parts, part.length ≤ 512

/-- However the stream is split, the calls yield the same. -/
def Invisible (c : Channel) (bytes : List UInt8) : Prop :=
  ∀ parts parts' rs rs', Splits bytes parts → Splits bytes parts' →
    Calls ⟨c, ()⟩ parts rs → Calls ⟨c, ()⟩ parts' rs' → rs = rs'

/-- What happens at each byte of a stream: a frame ends, or an error shows. -/
def happenings (bytes : List UInt8) : List (Option DecodeEvent) :=
  (Framing.trace frameFormat .outside bytes).map decodeEvent

/-- A frame, no error. -/
def DecodeEvent.IsFrame : DecodeEvent → Prop
  | .frame _ => True
  | .error _ => False

/-- No error is within 512 bytes of a frame or of another error. -/
def Spaced (bytes : List UInt8) : Prop :=
  ∀ i j e e', i < j → j < i + 512 → (happenings bytes)[i]? = some (some e) →
    (happenings bytes)[j]? = some (some e') → e.IsFrame ∧ e'.IsFrame

/-! ## What the calls yield -/

/-- What a decode error is thrown as. -/
def thrown : FrameDecodeErrorKind → HostError
  | .crc => .deus .crc
  | _ => .deus .protocol

/-- What the calls yield for these events, one by one. -/
def yielded (c : Channel) : List DecodeEvent → List (Except HostError BinaryFrame)
  | [] => []
  | .error kind :: evs => .error (thrown kind) :: yielded c evs
  | .frame frame :: evs =>
    if (c.discardIfAbandoned frame).2 then yielded (c.discardIfAbandoned frame).1 evs
    else .ok frame :: yielded (c.discardIfAbandoned frame).1 evs

/-- What is kept of a batch: its first error, or its frames. -/
def kept (evs : List DecodeEvent) : List DecodeEvent :=
  match batchErrors evs with
  | kind :: _ => [.error kind]
  | [] => evs

/-- What is kept of a stream, read after read. -/
def keptAll (d : BinaryFrameDecoder) : List (List UInt8) → List DecodeEvent
  | [] => []
  | part :: parts => kept (feed d part).2 ++ keptAll (feed d part).1 parts

variable {c c' : Channel} {d : BinaryFrameDecoder} {frame : BinaryFrame} {evs : List DecodeEvent}
  {part : List UInt8} {parts : List (List UInt8)} {rs rs' : List (Except HostError BinaryFrame)}

/-- Only what was abandoned decides whether a frame is dropped. -/
theorem discardIfAbandoned_congr (h : c.abandonedRequests = c'.abandonedRequests)
    (frame : BinaryFrame) :
    (c.discardIfAbandoned frame).2 = (c'.discardIfAbandoned frame).2 ∧
      (c.discardIfAbandoned frame).1.abandonedRequests =
        (c'.discardIfAbandoned frame).1.abandonedRequests := by
  unfold Channel.discardIfAbandoned
  rw [h]
  split
  · exact ⟨rfl, h⟩
  · split
    · exact ⟨rfl, rfl⟩
    · exact ⟨rfl, h⟩

theorem yielded_congr (h : c.abandonedRequests = c'.abandonedRequests) (evs : List DecodeEvent) :
    yielded c evs = yielded c' evs := by
  induction evs generalizing c c' with
  | nil => rfl
  | cons e evs ih =>
    cases e with
    | error kind => rw [yielded, yielded, ih h]
    | frame frame =>
      obtain ⟨hdrop, hrest⟩ := discardIfAbandoned_congr h frame
      rw [yielded, yielded, hdrop, ih hrest]

/-- Dropping a frame touches what was abandoned alone. -/
theorem discardIfAbandoned_fields (c : Channel) (frame : BinaryFrame) :
    (c.discardIfAbandoned frame).1 =
      { c with abandonedRequests := (c.discardIfAbandoned frame).1.abandonedRequests } := by
  unfold Channel.discardIfAbandoned
  split
  · rfl
  · split <;> rfl

/-! ## One call -/

/-- `ReadNextFrameAsync` over these reads. -/
def next (c : Channel) (parts : List (List UInt8)) :
    Async.Completion (Conn Unit) (List UInt8) HostError BinaryFrame :=
  readNextFrameAsync reads ⟨c, ()⟩ parts

theorem next_eq (c : Channel) (parts : List (List UInt8)) :
    next c parts = match c.dequeue with
      | (c, some frame) => .returned frame ⟨c, ()⟩ parts
      | (c, none) => Prog.await (readEvent reads) ⟨c, ()⟩ parts := by
  unfold next readNextFrameAsync
  change Prog.andThen _ _ _ _ = _
  unfold Prog.andThen onChannel Prog.act
  rcases hd : c.dequeue with ⟨c', - | frame⟩
  · dsimp only
    rw [hd]
  · dsimp only
    rw [hd]
    rfl

theorem next_empty (h : c.queuedFrames = []) (parts : List (List UInt8)) :
    next c parts = Prog.await (readEvent reads) ⟨c, ()⟩ parts := by
  rw [next_eq, dequeue_of_empty h]

/-- Nothing is queued, and nothing more is read. -/
theorem next_nil (h : c.queuedFrames = []) : next c [] = .pending ⟨c, ()⟩ := next_empty h []

/-- A frame at the head of the queue. -/
theorem next_queued {rest : List BinaryFrame} (h : c.queuedFrames = frame :: rest)
    (parts : List (List UInt8)) :
    next c parts =
      if (c.discardIfAbandoned frame).2 then
        next { (c.discardIfAbandoned frame).1 with queuedFrames := rest } parts
      else Async.Completion.returned frame
        ⟨{ (c.discardIfAbandoned frame).1 with queuedFrames := rest }, ()⟩ parts := by
  have hloop : ∀ (queue : List BinaryFrame) (c : Channel) (other : List BinaryFrame),
      ({ c with queuedFrames := other } : Channel).dequeueLoop queue = c.dequeueLoop queue := by
    intro queue
    induction queue with
    | nil => exact fun _ _ => rfl
    | cons queued queue ih =>
      intro c other
      have hsame := discardIfAbandoned_fields c queued
      have hother := discardIfAbandoned_fields { c with queuedFrames := other } queued
      have hsameRequests :
        ({ c with queuedFrames := other } : Channel).abandonedRequests = c.abandonedRequests := rfl
      obtain ⟨hdrop, hrest⟩ := discardIfAbandoned_congr hsameRequests queued
      rw [Channel.dequeueLoop, Channel.dequeueLoop]
      rcases hx : c.discardIfAbandoned queued with ⟨x, dropped⟩
      rcases hy : ({ c with queuedFrames := other } : Channel).discardIfAbandoned queued with
        ⟨y, dropped'⟩
      rw [hx] at hsame hdrop hrest
      rw [hy] at hother hdrop hrest
      dsimp only at hsame hother hdrop hrest
      rw [hdrop]
      have hxy : y = { x with queuedFrames := other } := by rw [hother, hsame, hrest]
      cases dropped with
      | true => rw [hxy]; exact ih x other
      | false => rw [hxy]
  rw [next_eq, next_eq, Channel.dequeue, h, Channel.dequeueLoop]
  rcases c.discardIfAbandoned frame with ⟨x, dropped⟩
  cases dropped with
  | true =>
    have hrest := hloop rest x rest
    dsimp only [Channel.dequeue]
    rw [if_pos rfl, hrest]
  | false => rfl

/-- A read whose bytes hold an error. -/
theorem next_error (h : c.queuedFrames = []) (hne : part ≠ []) {kind : FrameDecodeErrorKind}
    {kinds : List FrameDecodeErrorKind} (herr : batchErrors (feed c.decoder part).2 = kind :: kinds)
    (parts : List (List UInt8)) :
    next c (part :: parts) =
      .threw (thrown kind) ⟨{ c with decoder := (feed c.decoder part).1 }, ()⟩ parts := by
  have hlen : part.length ≠ 0 := by simpa using hne
  have hreceive : c.receive part =
      ({ c with decoder := (feed c.decoder part).1 }, some (.error (thrown kind))) := by
    rw [Channel.receive, if_neg hlen]
    dsimp only
    rw [herr]
    cases kind <;> rfl
  rw [next_empty h, Prog.await]
  unfold readEvent reads
  dsimp only
  rw [hreceive]

/-- A batch without an error is queued. -/
theorem receive_of_frames {queued : Channel} (hne : part ≠ [])
    (herr : batchErrors (feed c.decoder part).2 = [])
    (hqueued : queued = { c with
      decoder := (feed c.decoder part).1
      queuedFrames := c.queuedFrames ++ batchFrames (feed c.decoder part).2 }) :
    c.receive part = (queued.dequeue.1, queued.dequeue.2.map .ok) := by
  have hlen : part.length ≠ 0 := by simpa using hne
  rw [Channel.receive, if_neg hlen]
  dsimp only
  rw [herr, ← hqueued]
  rcases queued.dequeue with ⟨c', - | frame⟩
  · rfl
  · rfl

/-- A read whose bytes hold frames at most. -/
theorem next_frames (h : c.queuedFrames = []) (hne : part ≠ [])
    (herr : batchErrors (feed c.decoder part).2 = []) (parts : List (List UInt8)) :
    next c (part :: parts) =
      next { c with decoder := (feed c.decoder part).1
                    queuedFrames := batchFrames (feed c.decoder part).2 } parts := by
  obtain ⟨queued, hqueued⟩ : ∃ queued : Channel, queued = { c with
    decoder := (feed c.decoder part).1
    queuedFrames := batchFrames (feed c.decoder part).2 } := ⟨_, rfl⟩
  have hreceive : c.receive part = (queued.dequeue.1, queued.dequeue.2.map .ok) :=
    receive_of_frames hne herr (by rw [hqueued, h, List.nil_append])
  rw [← hqueued, next_empty h, next_eq, Prog.await]
  unfold readEvent reads
  dsimp only
  rw [hreceive]
  rcases queued.dequeue with ⟨c', - | frame⟩
  · rfl
  · rfl

/-! ## All calls -/

/-- Where a call goes on like another, so do all that follow it. -/
theorem Calls.of_next {parts' : List (List UInt8)} (h : next c parts = next c' parts')
    (hcalls : Calls ⟨c', ()⟩ parts' rs) : Calls ⟨c, ()⟩ parts rs := by
  cases hcalls with
  | pending hrun => exact .pending (h.trans hrun)
  | returned hrun hrest => exact .returned (h.trans hrun) hrest
  | threw hrun hrest => exact .threw (h.trans hrun) hrest

/-- What the calls yield is decided. -/
theorem Calls.unique {s : Conn Unit} (h : Calls s parts rs) (h' : Calls s parts rs') : rs = rs' := by
  induction h generalizing rs' with
  | pending hrun =>
    cases h' with
    | pending => rfl
    | returned hrun' => cases hrun.symm.trans hrun'
    | threw hrun' => cases hrun.symm.trans hrun'
  | returned hrun hrest ih =>
    cases h' with
    | pending hrun' => cases hrun.symm.trans hrun'
    | returned hrun' hrest' =>
      cases hrun.symm.trans hrun'
      rw [ih hrest']
    | threw hrun' => cases hrun.symm.trans hrun'
  | threw hrun hrest ih =>
    cases h' with
    | pending hrun' => cases hrun.symm.trans hrun'
    | returned hrun' => cases hrun.symm.trans hrun'
    | threw hrun' hrest' =>
      cases hrun.symm.trans hrun'
      rw [ih hrest']

/-- What is queued comes first. -/
theorem calls_queued
    (hempty : ∀ c : Channel, c.queuedFrames = [] → c.decoder = d →
      Calls ⟨c, ()⟩ parts (yielded c evs))
    (queue : List BinaryFrame) :
    ∀ c : Channel, c.queuedFrames = queue → c.decoder = d →
      Calls ⟨c, ()⟩ parts (yielded c (queue.map .frame ++ evs)) := by
  induction queue with
  | nil => exact hempty
  | cons frame rest ih =>
    intro c hqueue hdecoder
    have hnext := next_queued hqueue parts
    have hfields := discardIfAbandoned_fields c frame
    -- the channel behind the frame
    obtain ⟨x, hx⟩ : ∃ x : Channel, x =
      { (c.discardIfAbandoned frame).1 with queuedFrames := rest } := ⟨_, rfl⟩
    have hxdecoder : x.decoder = d := by
      rw [hx, hfields]
      exact hdecoder
    have hrest : Calls ⟨x, ()⟩ parts
        (yielded (c.discardIfAbandoned frame).1 (rest.map .frame ++ evs)) := by
      have hsame : x.abandonedRequests = (c.discardIfAbandoned frame).1.abandonedRequests := by
        rw [hx]
      rw [← yielded_congr hsame]
      exact ih x (by rw [hx]) hxdecoder
    rw [← hx] at hnext
    rw [List.map_cons, List.cons_append, yielded]
    by_cases hdrop : (c.discardIfAbandoned frame).2 = true
    · rw [if_pos hdrop] at hnext ⊢
      exact .of_next hnext hrest
    · rw [if_neg hdrop] at hnext ⊢
      exact .returned hnext hrest

theorem yielded_frames (h : batchErrors evs = []) : (batchFrames evs).map .frame = evs := by
  induction evs with
  | nil => rfl
  | cons e evs ih =>
    cases e with
    | error kind => exact absurd h (by simp [batchErrors])
    | frame frame => exact congrArg (DecodeEvent.frame frame :: ·) (ih h)

/-- **What the calls yield:** of each read, what is kept of it. A read with an
error in it yields the error, and its frames are lost. -/
theorem calls_kept (hne : ∀ part ∈ parts, part ≠ []) (c : Channel) :
    Calls ⟨c, ()⟩ parts
      (yielded c (c.queuedFrames.map .frame ++ keptAll c.decoder parts)) := by
  induction parts generalizing c with
  | nil =>
    refine calls_queued ?_ c.queuedFrames c rfl rfl
    intro c hqueue _
    exact .pending (next_nil hqueue)
  | cons part parts ih =>
    have hpart := hne part List.mem_cons_self
    have hparts : ∀ part ∈ parts, part ≠ [] := fun p hp => hne p (List.mem_cons_of_mem part hp)
    refine calls_queued ?_ c.queuedFrames c rfl rfl
    intro c' hqueue hdecoder
    rw [keptAll, kept, ← hdecoder]
    cases herr : batchErrors (feed c'.decoder part).2 with
    | nil =>
      have hnext := next_frames hqueue hpart herr parts
      obtain ⟨x, hx⟩ : ∃ x : Channel, x = { c' with
        decoder := (feed c'.decoder part).1
        queuedFrames := batchFrames (feed c'.decoder part).2 } := ⟨_, rfl⟩
      have hsame : x.abandonedRequests = c'.abandonedRequests := by rw [hx]
      have hqueued : x.queuedFrames.map .frame = (feed c'.decoder part).2 := by
        rw [hx]
        exact yielded_frames herr
      have hdec : x.decoder = (feed c'.decoder part).1 := by rw [hx]
      have hrest := ih hparts x
      rw [yielded_congr hsame, hqueued, hdec] at hrest
      rw [← hx] at hnext
      exact .of_next hnext hrest
    | cons kind kinds =>
      have hnext := next_error hqueue hpart herr parts
      obtain ⟨x, hx⟩ : ∃ x : Channel, x = { c' with decoder := (feed c'.decoder part).1 } :=
        ⟨_, rfl⟩
      have hsame : x.abandonedRequests = c'.abandonedRequests := by rw [hx]
      have hqueued : x.queuedFrames = [] := by rw [hx, hqueue]
      have hdec : x.decoder = (feed c'.decoder part).1 := by rw [hx]
      have hrest := ih hparts x
      rw [yielded_congr hsame, hqueued, hdec] at hrest
      rw [← hx] at hnext
      exact .threw hnext hrest

/-! ## Happenings -/

/-- Two reads give their results one after the other. -/
theorem decoderResults_append (d : BinaryFrameDecoder) (xs ys : List UInt8) :
    Rpc.decoderResults d (xs ++ ys) =
      Rpc.decoderResults d xs ++ Rpc.decoderResults (feed d xs).1 ys := by
  induction xs generalizing d with
  | nil => rfl
  | cons x xs ih => rw [List.cons_append, Rpc.decoderResults, ih, Rpc.decoderResults]; rfl

/-- What a batch is, of what happens at each byte. -/
theorem feed_events (d : BinaryFrameDecoder) (bytes : List UInt8) :
    (feed d bytes).2 = (Rpc.decoderResults d bytes).filterMap id := by
  induction bytes generalizing d with
  | nil => rfl
  | cons byte bytes ih =>
    rw [feed, Rpc.decoderResults]
    dsimp only
    rw [ih]
    cases (feedByte d byte).2 <;> rfl

theorem happenings_eq (bytes : List UInt8) :
    happenings bytes = Rpc.decoderResults .reset bytes :=
  (Rpc.feed_refines_decoder Rpc.decoderOrdered_reset bytes).2.2.symm

theorem length_happenings (bytes : List UInt8) : (happenings bytes).length = bytes.length := by
  rw [happenings, List.length_map, Framing.length_trace]

/-- What happens inside a stretch of a stream. -/
theorem happenings_append (xs ys zs : List UInt8) :
    happenings (xs ++ (ys ++ zs)) = happenings xs ++
      (Rpc.decoderResults (feed .reset xs).1 ys ++
        Rpc.decoderResults (feed (feed .reset xs).1 ys).1 zs) := by
  rw [happenings_eq, happenings_eq, decoderResults_append, decoderResults_append]

theorem length_decoderResults (d : BinaryFrameDecoder) (bytes : List UInt8) :
    (Rpc.decoderResults d bytes).length = bytes.length := by
  induction bytes generalizing d with
  | nil => rfl
  | cons byte bytes ih => rw [Rpc.decoderResults, List.length_cons, ih, List.length_cons]

/-! ## Where the errors are spaced -/

theorem batchErrors_of_frames (h : ∀ e ∈ evs, e.IsFrame) : batchErrors evs = [] := by
  rw [batchErrors, List.filterMap_eq_nil_iff]
  intro e he
  cases e with
  | error kind => exact absurd (h _ he) id
  | frame frame => rfl

/-- A batch with an error and nothing else is kept, and so is one without. -/
theorem kept_of_pairwise (h : evs.Pairwise fun e e' => e.IsFrame ∧ e'.IsFrame) : kept evs = evs := by
  rcases evs with - | ⟨e, - | ⟨e', evs⟩⟩
  · rfl
  · cases e <;> rfl
  · have hframes : ∀ x ∈ e :: e' :: evs, x.IsFrame := by
      intro x hx
      rw [List.pairwise_cons] at h
      rcases List.mem_cons.1 hx with rfl | hx
      · exact (h.1 e' List.mem_cons_self).1
      · exact (h.1 x hx).2
    rw [kept, batchErrors_of_frames hframes]

/-- One read of a stream whose errors are spaced. -/
theorem kept_of_spaced {before after : List UInt8} (h : Spaced (before ++ (part ++ after)))
    (hlen : part.length ≤ 512) :
    kept (feed (feed .reset before).1 part).2 = (feed (feed .reset before).1 part).2 := by
  refine kept_of_pairwise ?_
  rw [feed_events, List.pairwise_filterMap, List.pairwise_iff_getElem]
  intro i j hi hj hij e he e' he'
  rw [length_decoderResults] at hi hj
  have hat : ∀ k (hk : k < (Rpc.decoderResults (feed .reset before).1 part).length),
      (happenings (before ++ (part ++ after)))[before.length + k]? =
        some ((Rpc.decoderResults (feed .reset before).1 part)[k]) := by
    intro k hk
    rw [happenings_append, List.getElem?_append_right (by rw [length_happenings]; omega),
      length_happenings, Nat.add_sub_cancel_left, List.getElem?_append_left hk,
      List.getElem?_eq_getElem hk]
  refine h (before.length + i) (before.length + j) e e' (by omega) (by omega) ?_ ?_
  · rw [hat i (by rw [length_decoderResults]; exact hi)]
    exact congrArg some he
  · rw [hat j (by rw [length_decoderResults]; exact hj)]
    exact congrArg some he'

/-- Everything is kept. -/
theorem keptAll_of_spaced (before : List UInt8) (parts : List (List UInt8)) (h : Spaced (before ++ parts.flatten))
    (hlen : ∀ part ∈ parts, part.length ≤ 512) :
    keptAll (feed .reset before).1 parts = (feed (feed .reset before).1 parts.flatten).2 := by
  induction parts generalizing before with
  | nil => rfl
  | cons part parts ih =>
    rw [List.flatten_cons] at h ⊢
    have hhead := kept_of_spaced h (hlen part List.mem_cons_self)
    have hfeed : (feed .reset (before ++ part)).1 = (feed (feed .reset before).1 part).1 := by
      rw [feed_append]
    have htail := ih (before ++ part) (by rwa [List.append_assoc])
      fun p hp => hlen p (List.mem_cons_of_mem part hp)
    rw [hfeed] at htail
    rw [keptAll, hhead, htail, feed_append]

/-! ## Where they are not -/

theorem keptAll_append (d : BinaryFrameDecoder) (xs ys : List (List UInt8)) :
    keptAll d (xs ++ ys) = keptAll d xs ++ keptAll (feed d xs.flatten).1 ys := by
  induction xs generalizing d with
  | nil => rfl
  | cons x xs ih =>
    rw [List.cons_append, keptAll, keptAll, ih, List.flatten_cons, feed_append, List.append_assoc]

/-- A byte a read loses nothing. -/
theorem keptAll_bytes (d : BinaryFrameDecoder) (bytes : List UInt8) :
    keptAll d (bytes.map fun byte => [byte]) = (feed d bytes).2 := by
  induction bytes generalizing d with
  | nil => rfl
  | cons byte bytes ih =>
    have hone : ∀ ev : Option DecodeEvent, kept (ev.toList ++ []) = ev.toList := by
      intro ev
      rcases ev with - | (frame | kind) <;> rfl
    have hfeed : ∀ rest, feed d (byte :: rest) = ((feed (feedByte d byte).1 rest).1,
        (feedByte d byte).2.toList ++ (feed (feedByte d byte).1 rest).2) := fun _ => rfl
    have hnil : feed (feedByte d byte).1 [] = ((feedByte d byte).1, []) := rfl
    rw [List.map_cons, keptAll, ih, hfeed, hfeed, hnil, hone]

theorem flatten_bytes (bytes : List UInt8) : (bytes.map fun byte => [byte]).flatten = bytes := by
  induction bytes with
  | nil => rfl
  | cons byte bytes ih => rw [List.map_cons, List.flatten_cons, ih, List.singleton_append]

/-- Bytes may come one by one. -/
theorem splits_bytes (bytes : List UInt8) : Splits bytes (bytes.map fun byte => [byte]) := by
  refine ⟨flatten_bytes bytes, ?_, ?_⟩
  · intro part hpart
    obtain ⟨byte, -, rfl⟩ := List.mem_map.1 hpart
    exact List.cons_ne_nil byte []
  · intro part hpart
    obtain ⟨byte, -, rfl⟩ := List.mem_map.1 hpart
    exact Nat.le_add_left 1 511

/-- With nothing abandoned, every event is yielded. -/
theorem length_yielded (h : c.abandonedRequests = []) (evs : List DecodeEvent) :
    (yielded c evs).length = evs.length := by
  induction evs with
  | nil => rfl
  | cons e evs ih =>
    cases e with
    | error kind => rw [yielded, List.length_cons, ih, List.length_cons]
    | frame frame =>
      have hkeep : c.discardIfAbandoned frame = (c, false) := by
        rw [Channel.discardIfAbandoned, h]
        rfl
      rw [yielded, hkeep]
      simp only [Bool.false_eq_true, if_false, List.length_cons, ih]

/-- Of a batch with an error, one event is kept. -/
theorem length_kept {e : DecodeEvent} (he : e ∈ evs) (herr : ¬ e.IsFrame) :
    (kept evs).length = 1 := by
  rw [kept]
  cases herrors : batchErrors evs with
  | cons kind kinds => rfl
  | nil =>
    rw [batchErrors, List.filterMap_eq_nil_iff] at herrors
    have := herrors e he
    cases e with
    | error kind => cases this
    | frame frame => exact absurd trivial herr

/-- One read in the middle of the stream. -/
theorem splits_middle (xs : List UInt8) {ys : List UInt8} (zs : List UInt8) (hne : ys ≠ []) (hlen : ys.length ≤ 512) :
    Splits (xs ++ (ys ++ zs))
      ((xs.map fun byte => [byte]) ++ ([ys] ++ zs.map fun byte => [byte])) := by
  have hxs := splits_bytes xs
  have hzs := splits_bytes zs
  refine ⟨?_, ?_, ?_⟩
  · rw [List.flatten_append, List.flatten_append, hxs.flatten, hzs.flatten, List.flatten_singleton]
  · intro part hpart
    simp only [List.mem_append, List.mem_singleton] at hpart
    rcases hpart with hpart | rfl | hpart
    · exact hxs.nonempty part hpart
    · exact hne
    · exact hzs.nonempty part hpart
  · intro part hpart
    simp only [List.mem_append, List.mem_singleton] at hpart
    rcases hpart with hpart | rfl | hpart
    · exact hxs.length part hpart
    · exact hlen
    · exact hzs.length part hpart

/-- **One read loses something,** where it holds an error and something else. -/
theorem kept_of_invisible (xs ys zs : List UInt8) (h : Invisible .new (xs ++ (ys ++ zs)))
    (hne : ys ≠ []) (hlen : ys.length ≤ 512) :
    (kept (feed (feed .reset xs).1 ys).2).length = (feed (feed .reset xs).1 ys).2.length := by
  have hparts := splits_middle xs zs hne hlen
  have hbytes := splits_bytes (xs ++ (ys ++ zs))
  have hsame := h _ _ _ _ hparts hbytes (calls_kept hparts.nonempty .new)
    (calls_kept hbytes.nonempty .new)
  have hcount := congrArg List.length hsame
  have hqueue : Channel.new.queuedFrames.map DecodeEvent.frame = [] := rfl
  have hdecoder : Channel.new.decoder = .reset := rfl
  rw [length_yielded rfl, length_yielded rfl, hqueue, List.nil_append, List.nil_append, hdecoder,
    keptAll_bytes, keptAll_append, keptAll_append, flatten_bytes, keptAll_bytes, keptAll_bytes,
    keptAll, keptAll, List.append_nil, List.flatten_singleton, feed_append, feed_append] at hcount
  simp only [List.length_append] at hcount
  omega

/-- **Segmentation is invisible exactly where the errors are spaced:** no
decode error within the reach of one read of a frame or of another error. -/
theorem invisible_iff_spaced (bytes : List UInt8) :
    (∀ c : Channel, Invisible { c with decoder := .reset } bytes) ↔ Spaced bytes := by
  constructor
  · intro h i j e e' hij hj hi hj'
    have hinvisible : Invisible .new bytes := h .new
    by_contra hbad
    have hjlen : j < bytes.length := by
      have := (List.getElem?_eq_some_iff.1 hj').1
      rwa [length_happenings] at this
    -- the stretch from one to the other
    obtain ⟨xs, ys, zs, rfl, hxs, hys⟩ : ∃ xs ys zs, bytes = xs ++ (ys ++ zs) ∧ xs.length = i ∧
        ys.length = j - i + 1 := by
      refine ⟨bytes.take i, (bytes.drop i).take (j - i + 1), (bytes.drop i).drop (j - i + 1),
        ?_, ?_, ?_⟩
      · rw [List.take_append_drop, List.take_append_drop]
      · rw [List.length_take]
        omega
      · rw [List.length_take, List.length_drop]
        omega
    have hwindow : ∀ k ≤ j - i, (happenings (xs ++ (ys ++ zs)))[i + k]? =
        (Rpc.decoderResults (feed .reset xs).1 ys)[k]? := by
      intro k hk
      rw [happenings_append, List.getElem?_append_right (by rw [length_happenings]; omega),
        length_happenings, hxs, Nat.add_sub_cancel_left,
        List.getElem?_append_left (by rw [length_decoderResults]; omega)]
    have hfirst := (hwindow 0 (Nat.zero_le _)).symm.trans hi
    have hlast := (hwindow (j - i) (Nat.le_refl _)).symm.trans
      ((congrArg (fun n => (happenings (xs ++ (ys ++ zs)))[n]?) (by omega : i + (j - i) = j)).trans
        hj')
    -- so both are in one batch
    have hevents : [e, e'].Sublist (feed (feed .reset xs).1 ys).2 := by
      rw [feed_events]
      cases hresults : Rpc.decoderResults (feed .reset xs).1 ys with
      | nil => rw [hresults] at hfirst; cases hfirst
      | cons r rs =>
        rw [hresults] at hfirst hlast
        obtain rfl : r = some e := Option.some.inj hfirst
        obtain ⟨k, hk⟩ : ∃ k, j - i = k + 1 := ⟨j - i - 1, by omega⟩
        rw [hk, List.getElem?_cons_succ] at hlast
        have hmem : some e' ∈ rs := List.mem_of_getElem? hlast
        have hsub : [some e, some e'].Sublist (some e :: rs) :=
          (List.singleton_sublist.2 hmem).cons_cons (some e)
        exact hsub.filterMap id
    have hcount := kept_of_invisible xs ys zs hinvisible
      (List.ne_nil_of_length_pos (by omega)) (by omega)
    have htwo := hevents.length_le
    have hone : (kept (feed (feed .reset xs).1 ys).2).length = 1 := by
      by_cases he : e.IsFrame
      · exact length_kept (hevents.subset (by simp : e' ∈ [e, e'])) fun he' => hbad ⟨he, he'⟩
      · exact length_kept (hevents.subset (by simp : e ∈ [e, e'])) he
    rw [List.length_cons, List.length_singleton] at htwo
    omega
  · intro h c parts parts' rs rs' hparts hparts' hcalls hcalls'
    have hall : ∀ parts, Splits bytes parts → keptAll .reset parts = (feed .reset bytes).2 := by
      intro parts hsplits
      have hspaced : Spaced ([] ++ parts.flatten) := by
        rw [hsplits.flatten]
        exact h
      have hall := keptAll_of_spaced [] parts hspaced hsplits.length
      rw [hsplits.flatten] at hall
      exact hall
    have hleft := hcalls.unique (calls_kept hparts.nonempty _)
    have hright := hcalls'.unique (calls_kept hparts'.nonempty _)
    rw [hleft, hright]
    dsimp only
    rw [hall parts hparts, hall parts' hparts']

/-- A frame behind a header that announces too much, and two bytes more: in
one read it is lost. -/
theorem not_invisible_oversize :
    ¬ Invisible .new ([0xA5, 0x5A, 0x01, 0x82, 0x00, 0x00, 0x01, 0x00, 0x85, 0x00] ++
      [0x10, 0x20] ++ wire FrameType.rpcEnd 0 0x3002 [0x44]) := by
  intro h
  have hcount := kept_of_invisible [] ([0xA5, 0x5A, 0x01, 0x82, 0x00, 0x00, 0x01, 0x00, 0x85, 0x00] ++
      [0x10, 0x20] ++ wire FrameType.rpcEnd 0 0x3002 [0x44]) []
    (by rwa [List.append_nil, List.nil_append]) (by decide) (by decide)
  exact absurd hcount (by decide)

end Host

end DeusOs
