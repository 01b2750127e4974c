import DeusOs.NodeLink.Stream

/-!
# The node link — the partial-frame timeout

The timeout is measured from the time of the oldest byte the buffer held
when the frame began, not from the frame's own first byte. So a frame whose
bytes come in time is returned exactly when the buffer was empty, or expired, or old by no
more than the frame's last byte can bear (`returned_iff`).
-/

namespace DeusOs

namespace NodeLink

open Scanner (Verdict settle)

variable {w r u z : List UInt8} {f : Frame} {n : ℕ} {t t₀ o : UInt32} {s : Stream}

/-! ## Noise in front of a frame -/

/-- A header that the loop takes for that of a frame. -/
def WellFormed (xs : List UInt8) : Prop :=
  xs.getD 0 0 = 0xD5 ∧ xs.getD 1 0 = 0x4E ∧ ¬BadHeader xs

/-- No well-formed header starts in the noise `r` in front of the bytes `w`. -/
def Noise (r w : List UInt8) : Prop := ∀ k, k < r.length → ¬WellFormed (r.drop k ++ w)

/-- Less noise is noise. -/
theorem Noise.tail {b : UInt8} (h : Noise (b :: r) w) : Noise r w :=
  fun k hk => h (k + 1) (Nat.succ_lt_succ hk)

theorem wellFormed_of_accept {xs : List UInt8} (h : judge xs = .accept n f) : WellFormed xs := by
  obtain ⟨hle, hd⟩ := frameAt_eq_some.1 (judge_eq_accept_iff.1 h)
  have h16 := (fits_of_decode hd).2
  have hlen : (xs.take n).length = n := by
    rw [List.length_take]
    omega
  obtain ⟨h0, h1, hb, -⟩ := checks_of_decode hd
  have ha : Agree n (xs.take n) xs := agree_take xs
  exact ⟨by rw [← ha 0 (by omega)]; exact h0, by rw [← ha 1 (by omega)]; exact h1,
    fun hbad => hb ((ha.badHeader (by omega)).2 hbad)⟩

/-- Fourteen bytes that are no well-formed header are dropped. -/
theorem judge_of_not_wellFormed {xs : List UInt8} (hlen : 14 ≤ xs.length) (h : ¬WellFormed xs) :
    ∃ n, judge xs = .reject n := by
  rw [judge, if_neg (by omega)]
  by_cases h0 : xs.getD 0 0 ≠ 0xD5
  · exact ⟨1, by rw [if_pos h0]⟩
  rw [if_neg h0, if_neg (by omega)]
  by_cases h1 : xs.getD 1 0 ≠ 0x4E
  · exact ⟨2, by rw [if_pos h1]⟩
  rw [if_neg h1, if_neg (by omega)]
  by_cases h2 : BadHeader xs
  · exact ⟨14, by rw [if_pos h2]⟩
  · exact absurd ⟨not_not.1 h0, not_not.1 h1, h2⟩ h

/-- In front of an unfinished frame, the loop drops noise only. -/
theorem settle_noise (hr : Noise r (z ++ u)) (hz : z ≠ []) (hj : judge z = .wait) (p : ℕ) :
    ∃ r', (settle linkJudge p (r ++ z)).2 = (r' ++ z, none) ∧ Noise r' (z ++ u) := by
  induction r generalizing p with
  | nil =>
    obtain ⟨b, z, rfl⟩ := List.exists_cons_of_ne_nil hz
    have hj' : linkJudge.judge (b :: z) = .wait := hj
    refine ⟨[], ?_, hr⟩
    simp only [List.nil_append, settle, hj']
  | cons b r ih =>
    rw [List.cons_append, settle]
    cases hjb : linkJudge.judge (b :: (r ++ z)) with
    | wait => exact ⟨b :: r, rfl, hr⟩
    | reject n => exact ih hr.tail (p + 1)
    | accept n g =>
      -- a frame that is taken has a well-formed header, also with the bytes that follow
      have hacc : judge (b :: (r ++ z)) = .accept n g := hjb
      have hjb' : judge (b :: r ++ z ++ u) = .accept n g := by
        have h1 := judge_append (b :: (r ++ z)) u (by rw [hacc]; exact fun hc => by cases hc)
        exact h1.trans hacc
      rw [List.append_assoc] at hjb'
      exact absurd (wellFormed_of_accept hjb') (hr 0 (Nat.succ_pos _))

/-- In front of a whole frame, it drops the noise and takes the frame. -/
theorem settle_frame (hr : Noise r w) (hj : judge w = .accept n f) (p : ℕ) :
    (settle linkJudge p (r ++ w)).2.2.map Prod.snd = some f := by
  have hlen : 16 ≤ w.length := by
    obtain ⟨hle, hd⟩ := frameAt_eq_some.1 (judge_eq_accept_iff.1 hj)
    have := (fits_of_decode hd).2
    rw [List.length_take] at this
    omega
  induction r generalizing p with
  | nil =>
    cases w with
    | nil => simp at hlen
    | cons b w =>
      have hj' : linkJudge.judge (b :: w) = .accept n f := hj
      simp only [List.nil_append, settle, hj', Option.map_some]
  | cons b r ih =>
    obtain ⟨m, hm⟩ : ∃ m, judge (b :: r ++ w) = .reject m := judge_of_not_wellFormed
      (by rw [List.length_append]; omega) (hr 0 (Nat.succ_pos _))
    have hm' : linkJudge.judge (b :: (r ++ w)) = .reject m := hm
    rw [List.cons_append, settle, hm']
    exact ih hr.tail (p + 1)

/-! ## Feeding a frame -/

theorem judge_feed (h : judge s.bytes = .wait) (x : UInt8) (t : UInt32) :
    judge (s.feed x t).1.bytes = .wait := by
  rw [feed_eq h 0 x t, bytes_settled.1]
  exact Scanner.judge_settle (J := linkJudge) 0 _

theorem judge_run (h : judge s.bytes = .wait) (inputs : List (UInt8 × UInt32)) :
    judge (s.run inputs).bytes = .wait := by
  induction inputs generalizing s with
  | nil => exact h
  | cons x xs ih => exact ih (judge_feed h x.1 x.2)

theorem length_heldAt_le (s : Stream) (t : UInt32) : (s.heldAt t).length ≤ s.bytes.length := by
  rw [Stream.heldAt]
  split
  · exact Nat.zero_le _
  · exact Nat.le_refl _

/-- A byte makes the buffer longer by one at most. -/
theorem length_feed_le (h : judge s.bytes = .wait) (x : UInt8) (t : UInt32) :
    (s.feed x t).1.bytes.length ≤ (s.heldAt t).length + 1 := by
  rw [feed_eq h 0 x t, bytes_settled.1]
  have := Scanner.length_settle_le (J := linkJudge) 0 (s.heldAt t ++ [x])
  rwa [List.length_append] at this

theorem length_run_le (h : judge s.bytes = .wait) (inputs : List (UInt8 × UInt32)) :
    (s.run inputs).bytes.length ≤ s.bytes.length + inputs.length := by
  induction inputs generalizing s with
  | nil => exact Nat.le_refl _
  | cons x xs ih =>
    have h1 := ih (judge_feed h x.1 x.2)
    have h2 := length_feed_le h x.1 x.2
    have h3 := length_heldAt_le s x.2
    simp only [Stream.run, List.foldl_cons, List.length_cons] at h1 ⊢
    omega

/-- A frame that is returned was held. -/
theorem length_of_feed (h : judge s.bytes = .wait) {x : UInt8}
    (hf : (s.feed x t).2 = some f) : f.payload.length + 16 ≤ (s.heldAt t).length + 1 := by
  rw [feed_eq h 0 x t, bytes_settled.2] at hf
  obtain ⟨⟨q, g⟩, hq, hg⟩ := Option.map_eq_some_iff.1 hf
  obtain rfl : g = f := hg
  obtain ⟨k, m, hj⟩ := Scanner.exists_accept_of_settle hq
  obtain ⟨hle, hd⟩ := frameAt_eq_some.1 (judge_eq_accept_iff.1 hj)
  have h16 := (fits_of_decode hd).2
  simp only [List.length_take, List.length_drop, List.length_append, List.length_singleton] at h16 hle
  omega

/-- The stream while a frame arrives: behind some noise it holds the bytes
`u` of the frame, and measures from `o`. -/
structure Arriving (o : UInt32) (u v : List UInt8) (s : Stream) : Prop where
  started : s.hasStarted = true
  origin : s.startedAtMs = o
  begun : u ≠ []
  held : ∃ r, s.bytes = r ++ u ∧ Noise r (u ++ v)
  undecided : judge s.bytes = .wait

/-- A byte in the middle of a frame, in time. -/
theorem arriving_of_held {x : UInt8} {v : List UInt8} (h : judge s.bytes = .wait)
    (hr : ∃ r, s.heldAt t = r ++ u ∧ Noise r (u ++ x :: v)) (hj : judge (u ++ [x]) = .wait) :
    Arriving (s.originAt t) (u ++ [x]) v (s.feed x t).1 ∧ (s.feed x t).2 = none := by
  obtain ⟨r, hheld, hnoise⟩ := hr
  have hsplit : u ++ x :: v = (u ++ [x]) ++ v := by simp
  rw [hsplit] at hnoise
  obtain ⟨r', hs, hnoise'⟩ := settle_noise hnoise (by simp) hj 0
  have hb := judge_feed h x t
  have hfeed := feed_eq h 0 x t
  rw [hheld, List.append_assoc] at hfeed
  have hlen : (r' ++ (u ++ [x])).length ≠ 0 := by simp
  have hres : s.feed x t =
      ({ bytes := r' ++ (u ++ [x]), hasStarted := true, startedAtMs := s.originAt t }, none) := by
    rw [hfeed, settled, hs]
    simp only [if_neg hlen]
  rw [hres] at hb ⊢
  exact ⟨⟨rfl, rfl, by simp, ⟨r', rfl, hnoise'⟩, hb⟩, rfl⟩

/-- One byte more arrives in time. -/
theorem Arriving.feed {x : UInt8} {v : List UInt8} (h : Arriving o u (x :: v) s)
    (ht : ¬partialTimeoutMs < t - o) (hj : judge (u ++ [x]) = .wait) :
    Arriving o (u ++ [x]) v (s.feed x t).1 := by
  have hexp : ¬(s.hasStarted = true ∧ partialTimeoutMs < t - s.startedAtMs) := by
    rintro ⟨-, hlt⟩
    rw [h.origin] at hlt
    exact ht hlt
  have hheld : s.heldAt t = s.bytes := by rw [Stream.heldAt, if_neg hexp]
  have horigin : s.originAt t = o := by
    rw [Stream.originAt, if_pos ⟨h.started, by rw [h.origin]; exact ht⟩, h.origin]
  have := (arriving_of_held h.undecided (by rw [hheld]; exact h.held) hj).1
  rwa [horigin] at this

/-- The front of a frame is undecided. -/
theorem judge_front {v : List UInt8} (hj : judge (u ++ v) = .accept n f) (hd : decode (u ++ v) = some f)
    (hv : v ≠ []) : judge u = .wait := by
  by_contra hne
  have heq := judge_append u v hne
  have hle := judge_size_le u hne
  rw [← heq, hj] at hle
  have hn : n = (u ++ v).length := by
    obtain ⟨hle', hd'⟩ := frameAt_eq_some.1 (judge_eq_accept_iff.1 hj)
    have h1 := (fits_of_decode hd).2
    have h2 := (fits_of_decode hd').2
    rw [List.length_take] at h2
    omega
  have hlen := List.length_pos_of_ne_nil hv
  rw [List.length_append] at hn
  simp only [Verdict.size] at hle
  omega

/-- **In time to the end**, the frame is returned with its last byte. The time
is that of the oldest byte held, which may be noise before the frame. -/
theorem Arriving.returned {front : List (UInt8 × UInt32)} {b : UInt8} (hw : judge w = .accept n f)
    (hd : decode w = some f) (h : Arriving o u (front.map Prod.fst ++ [b]) s)
    (hu : u ++ (front.map Prod.fst ++ [b]) = w)
    (hfront : ∀ x ∈ front, ¬partialTimeoutMs < x.2 - o) (hlast : ¬partialTimeoutMs < t - o) :
    ((s.run front).feed b t).2 = some f := by
  induction front generalizing s u with
  | nil =>
    obtain ⟨r, hb, hnoise⟩ := h.held
    have hexp : ¬(s.hasStarted = true ∧ partialTimeoutMs < t - s.startedAtMs) := by
      rintro ⟨-, hlt⟩
      rw [h.origin] at hlt
      exact hlast hlt
    simp only [List.map_nil, List.nil_append] at hu hnoise
    simp only [Stream.run, List.foldl_nil]
    rw [feed_eq h.undecided 0 b t, bytes_settled.2, Stream.heldAt, if_neg hexp, hb,
      List.append_assoc, hu]
    rw [hu] at hnoise
    exact settle_frame hnoise hw 0
  | cons x front ih =>
    simp only [List.map_cons, List.cons_append] at h hu
    have hsplit : (u ++ [x.1]) ++ (front.map Prod.fst ++ [b]) = w := by
      rw [← hu, List.append_assoc, List.singleton_append]
    have hj : judge (u ++ [x.1]) = .wait :=
      judge_front (n := n) (f := f) (by rw [hsplit]; exact hw) (by rw [hsplit]; exact hd) (by simp)
    exact ih (h.feed (hfront x List.mem_cons_self) hj) hsplit
      fun y hy => hfront y (List.mem_cons_of_mem x hy)

/-- **Expired in the middle**, it is not: too few of its bytes are left. -/
theorem Arriving.not_returned {front : List (UInt8 × UInt32)} {b : UInt8}
    (hw : judge w = .accept n f) (hd : decode w = some f)
    (h : Arriving o u (front.map Prod.fst ++ [b]) s)
    (hu : u ++ (front.map Prod.fst ++ [b]) = w)
    (hexp : (∃ x ∈ front, partialTimeoutMs < x.2 - o) ∨ partialTimeoutMs < t - o) :
    ((s.run front).feed b t).2 ≠ some f := by
  have hlen := (fits_of_decode hd).2
  induction front generalizing s u with
  | nil =>
    intro hf
    have ht : partialTimeoutMs < t - o := by
      rcases hexp with ⟨x, hx, -⟩ | ht
      · exact absurd hx List.not_mem_nil
      · exact ht
    have hle := length_of_feed h.undecided hf
    rw [Stream.heldAt, if_pos ⟨h.started, by rw [h.origin]; exact ht⟩] at hle
    simp only [List.length_nil] at hle
    omega
  | cons x front ih =>
    simp only [List.map_cons, List.cons_append] at h hu
    by_cases hx : partialTimeoutMs < x.2 - o
    · -- the buffer is cleared, and fewer bytes follow than the frame has
      intro hf
      have hfeed := length_feed_le h.undecided x.1 x.2
      rw [Stream.heldAt, if_pos ⟨h.started, by rw [h.origin]; exact hx⟩] at hfeed
      have hj := judge_feed h.undecided x.1 x.2
      have hle := length_of_feed (judge_run hj front) hf
      have hrun := length_run_le hj front
      have hheld := length_heldAt_le ((s.feed x.1 x.2).1.run front) t
      have hpos := List.length_pos_of_ne_nil h.begun
      rw [← hu] at hlen
      simp only [List.length_append, List.length_cons, List.length_map, List.length_nil] at hlen hfeed
      omega
    · have hsplit : (u ++ [x.1]) ++ (front.map Prod.fst ++ [b]) = w := by
        rw [← hu, List.append_assoc, List.singleton_append]
      have hj : judge (u ++ [x.1]) = .wait :=
        judge_front (n := n) (f := f) (by rw [hsplit]; exact hw) (by rw [hsplit]; exact hd) (by simp)
      refine ih (h.feed hx hj) hsplit ?_
      rcases hexp with ⟨y, hy, hlt⟩ | ht
      · rcases List.mem_cons.1 hy with rfl | hy
        · exact absurd hlt hx
        · exact Or.inl ⟨y, hy, hlt⟩
      · exact Or.inr ht

/-! ## The timeout -/

/-- Times that lie close together add up without a wrap. -/
theorem sub_add_sub {a b c : UInt32} (h1 : (a - b).toNat ≤ 50) (h2 : (b - c).toNat ≤ 50) :
    (a - c).toNat = (a - b).toNat + (b - c).toNat := by
  have ha := a.toNat_lt
  have hb := b.toNat_lt
  have hc := c.toNat_lt
  rw [UInt32.toNat_sub] at h1 h2 ⊢
  rw [UInt32.toNat_sub, UInt32.toNat_sub]
  omega

/-- A frame's bytes come in time: their times do not decrease, and none is
further than the timeout from the first, as the clock wraps. -/
structure InTime (t₀ : UInt32) (frame : List (UInt8 × UInt32)) : Prop where
  first : ∀ x ∈ frame.head?, x.2 = t₀
  monotone : frame.Pairwise fun x y => (x.2 - t₀).toNat ≤ (y.2 - t₀).toNat
  within : ∀ x ∈ frame, (x.2 - t₀).toNat ≤ partialTimeoutMs.toNat

/-- **When the stream returns a frame that comes in time.** Whatever was fed
before, a valid frame whose bytes come in time and which is part of no
well-formed candidate that is still held is returned with its last byte if
and only if nothing was held when it began, or what was held expired by then, or the last
byte is in time for what was held too. -/
theorem returned_iff (prior front : List (UInt8 × UInt32)) (b : UInt8) (t t₀ : UInt32)
    (raw : List UInt8) (f : Frame) (hd : decode raw = some f)
    (hraw : (front ++ [(b, t)]).map Prod.fst = raw) (htime : InTime t₀ (front ++ [(b, t)]))
    (hnoise : Noise ((Stream.run {} prior).heldAt t₀) raw) :
    ((Stream.run {} (prior ++ front)).feed b t).2 = some f ↔
      (Stream.run {} prior).hasStarted = false ∨
        partialTimeoutMs < t₀ - (Stream.run {} prior).startedAtMs ∨
        t - (Stream.run {} prior).startedAtMs ≤ partialTimeoutMs := by
  have hlen := (fits_of_decode hd).2
  have hw : judge raw = .accept raw.length f := judge_eq_accept_iff.2 (frameAt_eq_some.2
    ⟨Nat.le_refl _, by rw [List.take_length]; exact hd⟩)
  obtain ⟨s, hs⟩ : ∃ s, s = Stream.run {} prior := ⟨_, rfl⟩
  have hund : judge s.bytes = .wait := by
    rw [hs]
    exact judge_run rfl prior
  have hrun : Stream.run {} (prior ++ front) = s.run front := by
    rw [hs, Stream.run, List.foldl_append]
    rfl
  rw [hrun, ← hs]
  rw [← hs] at hnoise
  cases front with
  | nil =>
    -- a frame has more than one byte
    rw [← hraw] at hlen
    simp at hlen
  | cons x front =>
    obtain ⟨x, tx⟩ := x
    have htx : tx = t₀ := htime.first (x, tx) rfl
    subst htx
    have hsplit : x :: (front.map Prod.fst ++ [b]) = raw := by
      rw [← hraw]
      simp
    have hj : judge ([] ++ [x]) = .wait :=
      judge_front (u := [x]) (v := front.map Prod.fst ++ [b]) (n := raw.length) (f := f)
        (by rw [List.singleton_append, hsplit]; exact hw)
        (by rw [List.singleton_append, hsplit]; exact hd) (by simp)
    have harr : Arriving (s.originAt tx) [x] (front.map Prod.fst ++ [b]) (s.feed x tx).1 :=
      (arriving_of_held (u := []) hund
        ⟨s.heldAt tx, (List.append_nil _).symm, by rw [List.nil_append, hsplit]; exact hnoise⟩ hj).1
    have hstep : s.run ((x, tx) :: front) = (s.feed x tx).1.run front := rfl
    have hu : [x] ++ (front.map Prod.fst ++ [b]) = raw := hsplit
    have hmono : ∀ y ∈ front, (y.2 - tx).toNat ≤ (t - tx).toNat := by
      intro y hy
      have hp := htime.monotone
      rw [List.pairwise_append] at hp
      exact hp.2.2 y (List.mem_cons_of_mem _ hy) (b, t) List.mem_cons_self
    have hlast : (t - tx).toNat ≤ 50 :=
      htime.within (b, t) (List.mem_append_right _ List.mem_cons_self)
    rw [hstep]
    by_cases hlive : s.hasStarted = true ∧ ¬partialTimeoutMs < tx - s.startedAtMs
    · -- the buffer was live: the time runs from its oldest byte
      obtain ⟨hstart, hage⟩ := hlive
      have ho : s.originAt tx = s.startedAtMs := by
        rw [Stream.originAt, if_pos ⟨hstart, hage⟩]
      rw [ho] at harr
      have hage' : (tx - s.startedAtMs).toNat ≤ 50 := by
        rw [UInt32.lt_iff_toNat_lt] at hage
        exact Nat.not_lt.1 hage
      have hcond : (s.hasStarted = false ∨ partialTimeoutMs < tx - s.startedAtMs ∨
          t - s.startedAtMs ≤ partialTimeoutMs) ↔ ¬partialTimeoutMs < t - s.startedAtMs := by
        rw [UInt32.not_lt]
        constructor
        · rintro (h | h | h)
          · rw [hstart] at h
            cases h
          · exact absurd h hage
          · exact h
        · exact fun h => Or.inr (Or.inr h)
      rw [hcond]
      constructor
      · intro hf hlt
        exact harr.not_returned hw hd hu (Or.inr hlt) hf
      · intro hlt
        refine harr.returned hw hd hu (fun y hy => ?_) hlt
        have hy50 : (y.2 - tx).toNat ≤ 50 := Nat.le_trans (hmono y hy) hlast
        have h1 := sub_add_sub hy50 hage'
        have h2 := sub_add_sub hlast hage'
        have h3 := hmono y hy
        rw [UInt32.lt_iff_toNat_lt] at hlt ⊢
        omega
    · -- nothing was held, or it expired: the time runs from the frame's first byte
      have ho : s.originAt tx = tx := by rw [Stream.originAt, if_neg hlive]
      rw [ho] at harr
      have hcond : s.hasStarted = false ∨ partialTimeoutMs < tx - s.startedAtMs ∨
          t - s.startedAtMs ≤ partialTimeoutMs := by
        by_cases hstart : s.hasStarted = true
        · exact Or.inr (Or.inl (not_not.1 fun h => hlive ⟨hstart, h⟩))
        · exact Or.inl (by simpa using hstart)
      have hin : ∀ y, (y - tx).toNat ≤ 50 → ¬partialTimeoutMs < y - tx := by
        intro y hy
        rw [UInt32.lt_iff_toNat_lt]
        exact Nat.not_lt.2 hy
      refine iff_of_true ?_ hcond
      exact harr.returned hw hd hu (fun y hy => hin y.2 (Nat.le_trans (hmono y hy) hlast)) (hin t hlast)

/-- A ping. -/
def lonePing : Frame := ⟨Message.ping, 2, 0x04030201, []⟩

/-- A ping's bytes but the last, at the times 40 and, from the second byte on, 60. -/
def pingFront : List (UInt8 × UInt32) :=
  (lonePing.wire.dropLast.zip (40 :: List.replicate 14 60))

/-- The ping comes in time. -/
theorem inTime_ping : InTime 40 (pingFront ++ [(0xCA, 60)]) where
  first x hx := by
    have hhead : (pingFront ++ [(0xCA, 60)]).head? = some (0xD5, 40) := by decide +kernel
    rw [hhead] at hx
    cases hx
    rfl
  monotone := by decide +kernel
  within x hx := by
    have hall : (pingFront ++ [(0xCA, 60)]).all
        (fun x => decide ((x.2 - 40).toNat ≤ partialTimeoutMs.toNat)) = true := by decide +kernel
    exact of_decide_eq_true (List.all_eq_true.mp hall x hx)

/-- The theorem at a ping with nothing in front of it. -/
theorem returned_iff_of_ping : ((Stream.run {} ([] ++ pingFront)).feed 0xCA 60).2 = some lonePing :=
  (returned_iff [] pingFront 0xCA 60 40 lonePing.wire lonePing (by decide +kernel)
    (by decide +kernel) inTime_ping
    (fun k hk => absurd hk (Nat.not_lt_zero k))).2 (Or.inl rfl)

/-- A single byte of noise, forty milliseconds before the ping, makes the same ping expire. -/
theorem noise_expires_ping :
    decode lonePing.wire = some lonePing ∧
      (pingFront ++ [(0xCA, 60)]).map Prod.fst = lonePing.wire ∧
      InTime 40 (pingFront ++ [(0xCA, 60)]) ∧
      (∀ k, k < 1 → ¬WellFormed (List.drop k [0xD5] ++ lonePing.wire)) ∧
      (Stream.run {} [(0xD5, 0)]).heldAt 40 = [0xD5] ∧
      ((Stream.run {} ([(0xD5, 0)] ++ pingFront)).feed 0xCA 60).2 ≠ some lonePing := by
  refine ⟨by decide +kernel, by decide +kernel, inTime_ping, fun k hk h => ?_,
    by decide +kernel, by decide +kernel⟩
  obtain rfl : k = 0 := by omega
  exact absurd h.2.1 (by decide +kernel)

end NodeLink

end DeusOs
