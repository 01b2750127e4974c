import DeusOs.NodeLink.Model.Stream
import DeusOs.NodeLink.Codec
import DeusOs.Common.Scanner

/-!
# The node link — what the byte stream scanner finds

The buffer's front is judged as the loop of `dnl_stream_feed` judges it, so
the loop is a scanner (`resync_eq`). Fed at one time from the start, it finds the
frames of the reference scan exactly when the stream is clear
(`frames_eq_referenceScan_iff`): the loop forgets the whole buffer when it
finds a frame, and a candidate in front of that frame may have made it read on.
-/

namespace DeusOs

namespace NodeLink

open Scanner (Verdict Judge settle located refer Clear)
open LittleEndian (read16)

variable {xs ys : List UInt8} {x : UInt8} {n : ℕ} {f : Frame} {started : Bool} {at₀ : UInt32}

/-! ## The judgement of a front -/

/-- What the loop makes of the front of the buffer. -/
def judge (xs : List UInt8) : Verdict Frame :=
  if xs.length = 0 then .wait
  else if xs.getD 0 0 ≠ 0xD5 then .reject 1
  else if xs.length < 2 then .wait
  else if xs.getD 1 0 ≠ 0x4E then .reject 2
  else if xs.length < 14 then .wait
  else if BadHeader xs then .reject 14
  else if xs.length < expected xs then .wait
  else
    match decode (xs.take (expected xs)) with
    | none => .reject (expected xs)
    | some f => .accept (expected xs) f

/-- Two buffers with the same first `k` bytes. -/
def Agree (k : ℕ) (xs ys : List UInt8) : Prop := ∀ i, i < k → xs.getD i 0 = ys.getD i 0

theorem agree_append (xs ys : List UInt8) : Agree xs.length (xs ++ ys) xs :=
  fun i hi => List.getD_append xs ys 0 i hi

/-- A bad header is told from its ten bytes. -/
theorem Agree.badHeader {k : ℕ} (h : Agree k xs ys) (hk : 10 ≤ k) : BadHeader xs ↔ BadHeader ys := by
  simp only [BadHeader, h 2 (by omega), h 4 (by omega), h 5 (by omega), h 9 (by omega),
    h 6 (by omega), h 7 (by omega), h 8 (by omega)]

/-- The length of a frame is told from its header. -/
theorem Agree.expected {k : ℕ} (h : Agree k xs ys) (hk : 10 ≤ k) : expected xs = expected ys := by
  simp only [NodeLink.expected, h 8 (by omega)]

theorem expected_ge (xs : List UInt8) : 16 ≤ expected xs := Nat.le_add_left _ _

theorem judge_size_le (xs : List UInt8) (h : judge xs ≠ .wait) : (judge xs).size ≤ xs.length := by
  unfold judge at h ⊢
  by_cases h0 : xs.length = 0
  · rw [if_pos h0] at h
    exact absurd rfl h
  rw [if_neg h0] at h ⊢
  by_cases h1 : xs.getD 0 0 ≠ 0xD5
  · rw [if_pos h1]
    simp only [Verdict.size]
    omega
  rw [if_neg h1] at h ⊢
  by_cases h2 : xs.length < 2
  · rw [if_pos h2] at h
    exact absurd rfl h
  rw [if_neg h2] at h ⊢
  by_cases h3 : xs.getD 1 0 ≠ 0x4E
  · rw [if_pos h3]
    simp only [Verdict.size]
    omega
  rw [if_neg h3] at h ⊢
  by_cases h4 : xs.length < 14
  · rw [if_pos h4] at h
    exact absurd rfl h
  rw [if_neg h4] at h ⊢
  by_cases h5 : BadHeader xs
  · rw [if_pos h5]
    simp only [Verdict.size]
    omega
  rw [if_neg h5] at h ⊢
  by_cases h6 : xs.length < expected xs
  · rw [if_pos h6] at h
    exact absurd rfl h
  rw [if_neg h6]
  cases decode (xs.take (expected xs)) with
  | none => exact Nat.not_lt.1 h6
  | some f => exact Nat.not_lt.1 h6

/-- A judgement is read off the bytes it says: another buffer with these
bytes is judged the same. -/
theorem judge_congr (h : judge xs ≠ .wait) (hlen : (judge xs).size ≤ ys.length)
    (hagree : Agree (judge xs).size xs ys)
    (htake : xs.take (judge xs).size = ys.take (judge xs).size) : judge ys = judge xs := by
  have hxs := judge_size_le xs h
  unfold judge at h hlen hagree htake hxs ⊢
  by_cases h0 : xs.length = 0
  · rw [if_pos h0] at h
    exact absurd rfl h
  rw [if_neg h0] at h hlen hagree htake hxs ⊢
  by_cases h1 : xs.getD 0 0 ≠ 0xD5
  · rw [if_pos h1] at hlen hagree ⊢
    simp only [Verdict.size] at hlen hagree
    have hy : ys.getD 0 0 ≠ 0xD5 := by rwa [hagree 0 (by omega)] at h1
    rw [if_neg (by omega), if_pos hy]
  rw [if_neg h1] at h hlen hagree htake hxs ⊢
  by_cases h2 : xs.length < 2
  · rw [if_pos h2] at h
    exact absurd rfl h
  rw [if_neg h2] at h hlen hagree htake hxs ⊢
  by_cases h3 : xs.getD 1 0 ≠ 0x4E
  · rw [if_pos h3] at hlen hagree ⊢
    simp only [Verdict.size] at hlen hagree
    have hy0 : ¬ys.getD 0 0 ≠ 0xD5 := by rwa [hagree 0 (by omega)] at h1
    have hy1 : ys.getD 1 0 ≠ 0x4E := by rwa [hagree 1 (by omega)] at h3
    rw [if_neg (by omega), if_neg hy0, if_neg (by omega), if_pos hy1]
  rw [if_neg h3] at h hlen hagree htake hxs ⊢
  by_cases h4 : xs.length < 14
  · rw [if_pos h4] at h
    exact absurd rfl h
  rw [if_neg h4] at h hlen hagree htake hxs ⊢
  by_cases h5 : BadHeader xs
  · rw [if_pos h5] at hlen hagree ⊢
    simp only [Verdict.size] at hlen hagree
    have hy0 : ¬ys.getD 0 0 ≠ 0xD5 := by rwa [hagree 0 (by omega)] at h1
    have hy1 : ¬ys.getD 1 0 ≠ 0x4E := by rwa [hagree 1 (by omega)] at h3
    have hy5 : BadHeader ys := (hagree.badHeader (by omega)).1 h5
    rw [if_neg (by omega), if_neg hy0, if_neg (by omega), if_neg hy1, if_neg (by omega), if_pos hy5]
  rw [if_neg h5] at h hlen hagree htake hxs ⊢
  by_cases h6 : xs.length < expected xs
  · rw [if_pos h6] at h
    exact absurd rfl h
  rw [if_neg h6] at h hlen hagree htake hxs ⊢
  have hge := expected_ge xs
  have hsize : (match decode (xs.take (expected xs)) with
      | none => (.reject (expected xs) : Verdict Frame)
      | some f => .accept (expected xs) f).size = expected xs := by
    cases decode (xs.take (expected xs)) <;> rfl
  rw [hsize] at hlen hagree htake
  have hy0 : ¬ys.getD 0 0 ≠ 0xD5 := by rwa [hagree 0 (by omega)] at h1
  have hy1 : ¬ys.getD 1 0 ≠ 0x4E := by rwa [hagree 1 (by omega)] at h3
  have hy5 : ¬BadHeader ys := fun hb => h5 ((hagree.badHeader (by omega)).2 hb)
  have hye : expected xs = expected ys := hagree.expected (by omega)
  rw [if_neg (by omega), if_neg hy0, if_neg (by omega), if_neg hy1, if_neg (by omega), if_neg hy5,
    ← hye, if_neg (by omega), htake]

/-- What was judged stays judged when more is read. -/
theorem judge_append (xs ys : List UInt8) (h : judge xs ≠ .wait) :
    judge (xs ++ ys) = judge xs := by
  have hle := judge_size_le xs h
  refine judge_congr h (by rw [List.length_append]; omega) (fun i hi => ?_) ?_
  · exact (agree_append xs ys i (by omega)).symm
  · rw [List.take_append_of_le_length hle]

theorem judge_decided (xs : List UInt8) (m : ℕ) (h : judge xs ≠ .wait) (hm : (judge xs).size ≤ m) :
    judge (xs.take m) ≠ .wait := by
  have hle := judge_size_le xs h
  have heq : judge (xs.take m) = judge xs := by
    refine judge_congr h (by rw [List.length_take]; omega) (fun i hi => ?_) ?_
    · simp only [List.getD_eq_getElem?_getD, List.getElem?_take]
      rw [if_pos (by omega)]
    · rw [List.take_take, Nat.min_eq_left hm]
  rw [heq]
  exact h

/-- The loop's judgement, for the scanner. -/
def linkJudge : Judge UInt8 Frame where
  judge := judge
  nil := rfl
  size_le := judge_size_le
  append := judge_append
  decided := judge_decided

/-- An undecided buffer is shorter than a frame can be. -/
theorem length_of_judge_wait (h : judge xs = .wait) : xs.length < maxFrame := by
  unfold judge at h
  split_ifs at h with h0 h1 h2 h3 h4 h5 h6
  · simp only [maxFrame]
    omega
  · simp only [maxFrame]
    omega
  · simp only [maxFrame]
    omega
  · have h8 : ¬maxPayload < (xs.getD 8 0).toNat := fun hlt =>
      h5 (Or.inr (Or.inr (Or.inr (Or.inr (Or.inr hlt)))))
    simp only [expected, maxPayload, maxFrame, frameOverhead] at *
    omega
  · cases hd : decode (xs.take (expected xs)) with
    | none =>
      rw [hd] at h
      cases h
    | some f =>
      rw [hd] at h
      cases h

/-! ## The loop is a scanner -/

/-- The loop goes by the judgement of the buffer's front. -/
theorem resync_cons (started : Bool) (at₀ : UInt32) (x : UInt8) (xs : List UInt8) :
    resync started at₀ (x :: xs) =
      match judge (x :: xs) with
      | .wait => ({ bytes := x :: xs, hasStarted := started, startedAtMs := at₀ }, none)
      | .reject _ => resync (if xs.length = 0 then false else started) at₀ xs
      | .accept _ f => ({}, some f) := by
  have hx : (x :: xs).getD 0 0 = x := rfl
  have hl : (x :: xs).length = xs.length + 1 := rfl
  rw [resync, judge, if_neg (show ¬(x :: xs).length = 0 by rw [hl]; omega), hx]
  simp only
  by_cases h1 : x ≠ 0xD5
  · rw [if_pos h1, if_pos h1]
  rw [if_neg h1, if_neg h1]
  by_cases h2 : xs.length = 0
  · rw [if_pos h2, if_pos (show (x :: xs).length < 2 by rw [hl]; omega)]
  rw [if_neg h2, if_neg (show ¬(x :: xs).length < 2 by rw [hl]; omega)]
  by_cases h3 : (x :: xs).getD 1 0 ≠ 0x4E
  · rw [if_pos h3, if_pos h3]
  rw [if_neg h3, if_neg h3]
  by_cases h4 : (x :: xs).length < 14
  · rw [if_pos h4, if_pos h4]
  rw [if_neg h4, if_neg h4]
  by_cases h5 : BadHeader (x :: xs)
  · rw [if_pos h5, if_pos h5]
  rw [if_neg h5, if_neg h5]
  by_cases h6 : (x :: xs).length < expected (x :: xs)
  · rw [if_pos h6, if_pos h6]
  rw [if_neg h6, if_neg h6]
  cases decode ((x :: xs).take (expected (x :: xs))) with
  | none => rfl
  | some f => rfl

/-- The state and the frame after the loop, as the scanner has them. -/
def settled (started : Bool) (at₀ : UInt32) (r : ℕ × List UInt8 × Option (ℕ × Frame)) :
    Stream × Option Frame :=
  match r.2.2 with
  | some (_, f) => ({}, some f)
  | none =>
    ({ bytes := r.2.1, hasStarted := if r.2.1.length = 0 then false else started,
       startedAtMs := at₀ }, none)

/-- **The loop of `dnl_stream_feed` is a scanner.** Each turn drops the first
byte held, until the rest waits, or is a frame, or nothing is left. -/
theorem resync_eq (started : Bool) (at₀ : UInt32) (p : ℕ) (x : UInt8) (xs : List UInt8) :
    resync started at₀ (x :: xs) = settled started at₀ (settle linkJudge p (x :: xs)) := by
  induction xs generalizing started p x with
  | nil =>
    rw [settle, resync_cons]
    cases h : judge [x] with
    | wait =>
      have hj : linkJudge.judge [x] = .wait := h
      rw [hj]
      rfl
    | reject n =>
      have hj : linkJudge.judge [x] = .reject n := h
      rw [hj]
      rfl
    | accept n f =>
      have hj : linkJudge.judge [x] = .accept n f := h
      rw [hj]
      rfl
  | cons y xs ih =>
    rw [settle, resync_cons]
    cases h : judge (x :: y :: xs) with
    | wait =>
      have hj : linkJudge.judge (x :: y :: xs) = .wait := h
      rw [hj]
      rfl
    | reject n =>
      have hj : linkJudge.judge (x :: y :: xs) = .reject n := h
      rw [hj]
      exact ih started (p + 1) y
    | accept n f =>
      have hj : linkJudge.judge (x :: y :: xs) = .accept n f := h
      rw [hj]
      rfl

/-- What a stream still holds when a byte arrives at the time `t`. -/
def Stream.heldAt (s : Stream) (t : UInt32) : List UInt8 :=
  if s.hasStarted = true ∧ partialTimeoutMs < t - s.startedAtMs then [] else s.bytes

/-- The time from which it measures then. -/
def Stream.originAt (s : Stream) (t : UInt32) : UInt32 :=
  if s.hasStarted = true ∧ ¬partialTimeoutMs < t - s.startedAtMs then s.startedAtMs else t

theorem judge_heldAt {s : Stream} (h : judge s.bytes = .wait) (t : UInt32) :
    judge (s.heldAt t) = .wait := by
  rw [Stream.heldAt]
  split
  · rfl
  · exact h

/-- **One byte**: what is held with it, settled. What has expired by then is not
held any more. -/
theorem feed_eq {s : Stream} (h : judge s.bytes = .wait) (p : ℕ) (x : UInt8) (t : UInt32) :
    s.feed x t = settled true (s.originAt t) (settle linkJudge p (s.heldAt t ++ [x])) := by
  have hlen := length_of_judge_wait (judge_heldAt h t)
  have hstart : (if (if s.hasStarted = true ∧ partialTimeoutMs < t - s.startedAtMs then ({} : Stream)
        else s).hasStarted = false then
        { (if s.hasStarted = true ∧ partialTimeoutMs < t - s.startedAtMs then ({} : Stream) else s)
          with startedAtMs := t, hasStarted := true }
      else if s.hasStarted = true ∧ partialTimeoutMs < t - s.startedAtMs then {} else s) =
      { bytes := s.heldAt t, hasStarted := true, startedAtMs := s.originAt t } := by
    obtain ⟨bytes, hasStarted, startedAtMs⟩ := s
    cases hasStarted with
    | false => rfl
    | true =>
      simp only [Stream.heldAt, Stream.originAt, true_and]
      by_cases hlt : partialTimeoutMs < t - startedAtMs
      · simp only [if_pos hlt, if_neg (not_not.2 hlt), if_true]
      · simp only [if_neg hlt, if_pos hlt, Bool.true_eq_false, if_false]
  have hfull : ¬maxFrame ≤ (s.heldAt t).length := by omega
  obtain ⟨y, ys, hys⟩ : ∃ y ys, s.heldAt t ++ [x] = y :: ys :=
    List.exists_cons_of_ne_nil (by simp)
  unfold Stream.feed
  simp only [hstart, if_neg hfull, hys]
  exact resync_eq true _ p y ys

/-- A scanner state between two bytes that come at the time `t`. -/
structure Steady (t : UInt32) (s : Stream) : Prop where
  started : s.hasStarted = true → s.startedAtMs = t
  undecided : judge s.bytes = .wait

theorem steady_init (t : UInt32) : Steady t {} := ⟨fun h => (by cases h), rfl⟩

/-- A stream that is fed in time settles what it holds. -/
theorem Steady.feed {t : UInt32} {s : Stream} (h : Steady t s) (p : ℕ) (x : UInt8) :
    s.feed x t = settled true t (settle linkJudge p (s.bytes ++ [x])) := by
  have hexp : ¬(s.hasStarted = true ∧ partialTimeoutMs < t - s.startedAtMs) := by
    rintro ⟨hs, hlt⟩
    rw [h.started hs, UInt32.sub_self] at hlt
    exact absurd hlt (by decide)
  have horigin : s.originAt t = t := by
    rw [Stream.originAt]
    split
    · rename_i hs
      exact h.started hs.1
    · rfl
  rw [feed_eq h.undecided p x t, Stream.heldAt, if_neg hexp, horigin]

/-- It leaves such a state. -/
theorem Steady.settled {t : UInt32} (p : ℕ) (xs : List UInt8) :
    Steady t (settled true t (settle linkJudge p xs)).1 := by
  have hj := Scanner.judge_settle (J := linkJudge) p xs
  rw [NodeLink.settled]
  split
  · exact steady_init t
  · exact ⟨fun _ => rfl, hj⟩

/-- A settled stream holds what is left, and reports what was found. -/
theorem bytes_settled {t : UInt32} {p : ℕ} {xs : List UInt8} :
    (settled true t (settle linkJudge p xs)).1.bytes = (settle linkJudge p xs).2.1 ∧
      (settled true t (settle linkJudge p xs)).2 = (settle linkJudge p xs).2.2.map Prod.snd := by
  induction xs generalizing p with
  | nil => exact ⟨rfl, rfl⟩
  | cons x xs ih =>
    rw [settle]
    cases h : linkJudge.judge (x :: xs) with
    | wait => exact ⟨rfl, rfl⟩
    | reject n => exact ih
    | accept n f => exact ⟨rfl, rfl⟩

/-- **Fed at one time, the stream returns what the scanner takes.** -/
theorem Steady.frames {t : UInt32} {s : Stream} (h : Steady t s) (p : ℕ) (bytes : List UInt8) :
    s.frames (bytes.map fun b => (b, t)) =
      (located linkJudge p s.bytes bytes).map Prod.snd := by
  induction bytes generalizing s p with
  | nil => rfl
  | cons x xs ih =>
    have hb := @bytes_settled t p (s.bytes ++ [x])
    have ih' := ih (Steady.settled (t := t) p (s.bytes ++ [x]))
      (settle linkJudge p (s.bytes ++ [x])).1
    simp only [List.map_cons, Stream.frames, h.feed p x, located]
    rw [ih', hb.1, hb.2, List.map_append]
    congr 1
    cases (settle linkJudge p (s.bytes ++ [x])).2.2 <;> rfl

/-! ## The reference scan -/

/-- The complete frame that starts a sequence of bytes, with its length, if
`dnl_decode` accepts one. -/
def frameAt (xs : List UInt8) : Option (ℕ × Frame) :=
  if expected xs ≤ xs.length then (decode (xs.take (expected xs))).map fun f => (expected xs, f)
  else none

/-- The reference scan of a sequence of bytes, the first `skip` of which are
not looked at: it takes the earliest place at which a complete frame starts
and goes on right behind it. Each frame comes with its place, counted from `p`. -/
def referenceScan (p skip : ℕ) : List UInt8 → List (ℕ × Frame)
  | [] => []
  | x :: xs =>
    if 0 < skip then referenceScan (p + 1) (skip - 1) xs
    else
      match frameAt (x :: xs) with
      | some (n, f) => (p, f) :: referenceScan (p + 1) (n - 1) xs
      | none => referenceScan (p + 1) 0 xs

/-- What the decoder checks of the bytes it accepts. -/
theorem checks_of_decode (h : decode xs = some f) :
    xs.getD 0 0 = 0xD5 ∧ xs.getD 1 0 = 0x4E ∧ ¬BadHeader xs ∧ xs.length = expected xs := by
  unfold decode at h
  split at h
  · cases h
  · split at h
    · cases h
    · rename_i hmagic
      simp only at h
      split at h
      · cases h
      · rename_i hlen
        simp only [not_or, not_not, Nat.not_lt] at hmagic hlen
        obtain ⟨h0, h1, h2, h4, h5, h9⟩ := hmagic
        obtain ⟨h8, hl, hs⟩ := hlen
        refine ⟨h0, h1, ?_, hl⟩
        rintro (hb | hb | hb | hb | ⟨hb6, hb7⟩ | hb)
        · exact hb h2
        · exact hb h4
        · exact hb h5
        · exact hb h9
        · refine hs ?_
          rw [read16, hb6, hb7]
          rfl
        · omega

/-- A prefix agrees with the whole as far as it goes. -/
theorem agree_take {k : ℕ} (xs : List UInt8) : Agree k (xs.take k) xs := by
  intro i hi
  simp only [List.getD_eq_getElem?_getD, List.getElem?_take]
  rw [if_pos hi]

/-- `frameAt` finds every complete frame that the decoder accepts. -/
theorem frameAt_eq_some : frameAt xs = some (n, f) ↔ n ≤ xs.length ∧ decode (xs.take n) = some f := by
  constructor
  · intro h
    unfold frameAt at h
    split at h
    · rename_i hle
      obtain ⟨g, hg, he⟩ := Option.map_eq_some_iff.1 h
      cases he
      exact ⟨hle, hg⟩
    · cases h
  · rintro ⟨hle, hd⟩
    have hlen : (xs.take n).length = n := by
      rw [List.length_take]
      omega
    have hn : n = expected xs := by
      have h16 := (fits_of_decode hd).2
      rw [hlen] at h16
      have hx := (checks_of_decode hd).2.2.2
      rwa [hlen, Agree.expected (agree_take xs) (by omega)] at hx
    subst hn
    rw [frameAt, if_pos hle, hd]
    rfl

/-- The scanner accepts where a complete frame starts. -/
theorem judge_eq_accept_iff : judge xs = .accept n f ↔ frameAt xs = some (n, f) := by
  constructor
  · intro h
    unfold judge at h
    split_ifs at h with h0 h1 h2 h3 h4 h5 h6
    rw [frameAt, if_pos (Nat.not_lt.1 h6)]
    cases hd : decode (xs.take (expected xs)) with
    | none =>
      rw [hd] at h
      cases h
    | some g =>
      rw [hd] at h
      cases h
      rfl
  · intro h
    obtain ⟨hle, hd⟩ := frameAt_eq_some.1 h
    have hlen : (xs.take n).length = n := by
      rw [List.length_take]
      omega
    have h16 := (fits_of_decode hd).2
    rw [hlen] at h16
    obtain ⟨h0, h1, hb, hx⟩ := checks_of_decode hd
    have ha : Agree n (xs.take n) xs := agree_take xs
    rw [hlen, ha.expected (by omega)] at hx
    rw [ha 0 (by omega)] at h0
    rw [ha 1 (by omega)] at h1
    rw [ha.badHeader (by omega)] at hb
    rw [judge, if_neg (by omega), if_neg (fun hc => hc h0), if_neg (by omega),
      if_neg (fun hc => hc h1), if_neg (by omega), if_neg hb, if_neg (by omega), ← hx, hd]

/-- The reference scan is the scanner's. -/
theorem referenceScan_eq (p k : ℕ) (xs : List UInt8) : referenceScan p k xs = refer linkJudge p k xs := by
  induction xs generalizing p k with
  | nil => rfl
  | cons x xs ih =>
    rw [referenceScan, refer]
    by_cases hk : 0 < k
    · rw [if_pos hk, if_pos hk, ih]
    rw [if_neg hk, if_neg hk]
    cases hf : frameAt (x :: xs) with
    | none =>
      cases hj : linkJudge.judge (x :: xs) with
      | wait => exact ih _ _
      | reject n => exact ih _ _
      | accept n f =>
        have hj' : judge (x :: xs) = .accept n f := hj
        rw [judge_eq_accept_iff.1 hj'] at hf
        cases hf
    | some nf =>
      obtain ⟨n, f⟩ := nf
      have hj : linkJudge.judge (x :: xs) = .accept n f := judge_eq_accept_iff.2 hf
      simp only [hj, ih]

/-- **What the stream loses, exactly.** Fed at one time from the start, the
stream returns the frames of the reference scan, each at its place, if and
only if the sequence is clear: no frame lies in an unfinished candidate at its
end, and no frame starts in what was read beyond a frame to finish a candidate in front of it. -/
theorem frames_eq_referenceScan_iff (t : UInt32) (bytes : List UInt8) :
    Stream.frames {} (bytes.map fun b => (b, t)) =
        (located linkJudge 0 [] bytes).map Prod.snd ∧
      (located linkJudge 0 [] bytes = referenceScan 0 0 bytes ↔ Clear linkJudge 0 bytes) ∧
      (Clear linkJudge 0 bytes → Stream.frames {} (bytes.map fun b => (b, t)) =
        (referenceScan 0 0 bytes).map Prod.snd) := by
  have hf := (steady_init t).frames 0 bytes
  have hiff : located linkJudge 0 [] bytes = referenceScan 0 0 bytes ↔ Clear linkJudge 0 bytes := by
    rw [referenceScan_eq]
    exact Scanner.located_eq_refer_iff
  refine ⟨hf, hiff, fun h => ?_⟩
  rw [hf]
  exact congrArg (List.map Prod.snd) (hiff.2 h)

/-- A candidate of forty bytes that is not a frame, with one ping inside it
and the front of another behind: the second ping is lost. -/
def overrun : List UInt8 :=
  [0xD5, 0x4E, 1, 2, 1, 0, 2, 0, 24, 0] ++ Frame.wire ⟨Message.ping, 2, 0x04030201, []⟩ ++
    Frame.wire ⟨Message.ping, 3, 0x04030201, []⟩

/-- The reference finds both pings. The stream finds the first one, and has then
thrown the beginning of the second away with the candidate in front. -/
theorem overrun_loses_a_frame :
    Stream.frames {} (overrun.map fun b => (b, 0)) = [⟨Message.ping, 2, 0x04030201, []⟩] ∧
      (referenceScan 0 0 overrun).map Prod.snd =
        [⟨Message.ping, 2, 0x04030201, []⟩, ⟨Message.ping, 3, 0x04030201, []⟩] ∧
      Stream.frames {} (overrun.map fun b => (b, 0)) ≠ (referenceScan 0 0 overrun).map Prod.snd := by
  decide +kernel

end NodeLink

end DeusOs
