import DeusOs.Usb.Model.Control
import Mathlib.Data.List.Basic
import Mathlib.Logic.Function.Iterate
import Mathlib.Tactic.Common

/-!
# The data stage of an IN transfer

`usb_ep0_start_in` arms the first packet and leaves the rest to the
completions. The packets that are armed are those of `following`, computed
from what the driver still holds; a completion arms the next of them, and the
one behind the last enters the status stage.
-/

namespace DeusOs

namespace Usb

/-- The host takes the packet that is armed, and the handler serves the
completion. -/
def Ep0.inCompletion (s : Ep0) : Ep0 :=
  if s.statTx = .valid then (s.step .inToken).handleTx else s

/-- The endpoint after some completions. -/
def Ep0.afterIn (s : Ep0) (k : ℕ) : Ep0 := Ep0.inCompletion^[k] s

/-- The packets that follow the one that is armed. -/
def following (data : List UInt8) (needZlp : Bool) : List (List UInt8) :=
  if data = [] then if needZlp = true then [[]] else []
  else data.take ep0MaxPacket :: following (data.drop ep0MaxPacket) needZlp
termination_by data.length
decreasing_by
  rename_i hne
  rw [List.length_drop]
  exact Nat.sub_lt (List.length_pos_iff.2 hne) (by decide)

variable {s : Ep0} {data p : List UInt8} {needZlp : Bool}

/-- An IN token and the interrupt are a completion, where nothing else is
latched. -/
theorem step_inToken_interrupt (hreset : s.resetPending = false) (hreceived : s.received = none)
    (hvalid : s.statTx = .valid) : (s.step .inToken).step .interrupt = s.inCompletion := by
  have htoken : s.step .inToken = { s with inComplete := some s.txPacket, statTx := .nak } :=
    if_pos hvalid
  rw [Ep0.inCompletion, if_pos hvalid, htoken]
  simp only [Ep0.step, Ep0.interrupt, Ep0.handleCtr, Ep0.serveRx, hreset, hreceived,
    Bool.false_eq_true, if_false, Option.isSome_some, if_true]

/-! ## What is armed -/

/-- The endpoint is in the data stage: a packet is armed, and `data` and the
flag are still held. -/
structure Sending (s : Ep0) (p data : List UInt8) (needZlp : Bool) : Prop where
  state : s.state = .dataIn
  valid : s.statTx = .valid
  packet : s.txPacket.data = p
  inData : s.inData = data
  needZlp : s.needZlp = needZlp

/-- The data stage is over, and nothing is armed. -/
structure StageOver (s : Ep0) : Prop where
  state : s.state = .statusOut
  idle : s.statTx = .nak

theorem length_take_max (data : List UInt8) :
    (if ep0MaxPacket < data.length then ep0MaxPacket else data.length) =
      min ep0MaxPacket data.length := by
  split
  · omega
  · omega

theorem take_min_length (n : ℕ) (data : List UInt8) :
    data.take (min n data.length) = data.take n := by
  rw [← List.take_take, List.take_length]

/-- **The next packet** is as much as fits of what is held; what does not fit is
left for the packets after it. -/
theorem sending_sendNextInPacket (hstate : s.state = .dataIn) :
    Sending s.sendNextInPacket (s.inData.take ep0MaxPacket) (s.inData.drop ep0MaxPacket)
      s.needZlp := by
  refine ⟨hstate, rfl, ?_, ?_, rfl⟩
  · show s.inData.take _ = _
    rw [length_take_max, take_min_length]
  · show s.inData.drop _ = _
    rw [length_take_max]
    rcases Nat.le_total ep0MaxPacket s.inData.length with hle | hle
    · rw [Nat.min_eq_left hle]
    · rw [Nat.min_eq_right hle, List.drop_length, List.drop_of_length_le hle]

/-- **A completion** arms the next packet, or ends the stage. The empty packet
behind a full one is a packet like any other. -/
theorem Sending.inCompletion (h : Sending s p data needZlp) :
    match following data needZlp with
    | [] => StageOver s.inCompletion
    | q :: _ => ∃ data' needZlp', Sending s.inCompletion q data' needZlp' ∧
        following data needZlp = q :: following data' needZlp' := by
  have htoken : s.step .inToken = { s with inComplete := some s.txPacket, statTx := .nak } :=
    if_pos h.valid
  rw [Ep0.inCompletion, if_pos h.valid, htoken]
  unfold Ep0.handleTx
  simp only [h.state]
  by_cases hnil : data = []
  · have hlen : ¬ s.inData.length ≠ 0 := by
      rw [h.inData, hnil]
      exact not_not.2 rfl
    rw [if_neg hlen, h.needZlp]
    cases needZlp with
    | true =>
      -- the packet of no bytes
      have hfollow : following data true = [[]] := by
        rw [following, if_pos hnil, if_pos rfl]
      have hnone : following [] false = [] := by
        rw [following, if_pos rfl, if_neg Bool.false_ne_true]
      rw [hfollow, if_pos rfl]
      refine ⟨[], false, ⟨rfl, rfl, rfl, ?_, rfl⟩, by rw [hnone]⟩
      exact h.inData.trans hnil
    | false =>
      have hfollow : following data false = [] := by
        rw [following, if_pos hnil, if_neg Bool.false_ne_true]
      rw [hfollow, if_neg Bool.false_ne_true]
      exact ⟨rfl, rfl⟩
  · have hlen : s.inData.length ≠ 0 := by
      rw [h.inData]
      exact fun h0 => hnil (List.length_eq_zero_iff.1 h0)
    have hfollow : following data needZlp =
        data.take ep0MaxPacket :: following (data.drop ep0MaxPacket) needZlp := by
      rw [following, if_neg hnil]
    rw [hfollow, if_pos hlen]
    refine ⟨data.drop ep0MaxPacket, needZlp, ?_, rfl⟩
    rw [← h.inData, ← h.needZlp]
    exact sending_sendNextInPacket rfl

/-- Behind the stage nothing completes. -/
theorem StageOver.afterIn (h : StageOver s) (k : ℕ) : StageOver (s.afterIn k) := by
  have hstay : s.inCompletion = s := by
    rw [Ep0.inCompletion, if_neg (by rw [h.idle]; nofun)]
  rw [Ep0.afterIn, Function.iterate_fixed hstay]
  exact h

/-- **The packets are armed one after the other**, and the completion of the
last ends the stage. -/
theorem Sending.afterIn (packets : List (List UInt8)) (h : Sending s p data needZlp)
    (hpackets : following data needZlp = packets) :
    (∀ k (hk : k < (p :: packets).length), (s.afterIn k).state = .dataIn ∧
        (s.afterIn k).statTx = .valid ∧ (s.afterIn k).txPacket.data = (p :: packets)[k]) ∧
      ∀ k, (p :: packets).length ≤ k → StageOver (s.afterIn k) := by
  have hfirst : (s.afterIn 0).state = .dataIn ∧ (s.afterIn 0).statTx = .valid ∧
      (s.afterIn 0).txPacket.data = p := ⟨h.state, h.valid, h.packet⟩
  have hshift : ∀ k, s.afterIn (k + 1) = s.inCompletion.afterIn k := fun k =>
    Function.iterate_succ_apply _ _ _
  have hnext := h.inCompletion
  rw [hpackets] at hnext
  induction packets generalizing s p data needZlp with
  | nil =>
    refine ⟨fun k hk => ?_, fun k hk => ?_⟩
    · obtain rfl : k = 0 := Nat.lt_one_iff.1 hk
      exact hfirst
    · obtain ⟨k, rfl⟩ : ∃ k', k = k' + 1 := ⟨k - 1, by simp only [List.length_singleton] at hk; omega⟩
      rw [hshift]
      exact StageOver.afterIn hnext k
  | cons q packets ih =>
    obtain ⟨data', needZlp', hsending, htail⟩ := hnext
    have hrest : following data' needZlp' = packets := (List.cons.inj htail).2.symm
    have hagain := hsending.inCompletion
    rw [hrest] at hagain
    obtain ⟨harmed, hend⟩ := ih hsending hrest ⟨hsending.state, hsending.valid, hsending.packet⟩
      (fun k => Function.iterate_succ_apply _ _ _) hagain
    refine ⟨fun k hk => ?_, fun k hk => ?_⟩
    · cases k with
      | zero => exact hfirst
      | succ k =>
        rw [hshift, List.getElem_cons_succ]
        exact harmed k (Nat.lt_of_succ_lt_succ hk)
    · obtain ⟨k, rfl⟩ : ∃ k', k = k' + 1 := ⟨k - 1, by simp only [List.length_cons] at hk; omega⟩
      rw [hshift]
      exact hend k (Nat.le_of_succ_le_succ hk)

/-! ## What the packets are -/

theorem following_nil_false : following [] false = [] := by
  rw [following, if_pos rfl, if_neg Bool.false_ne_true]

theorem following_nil_true : following [] true = [[]] := by
  rw [following, if_pos rfl, if_pos rfl]

theorem following_of_ne (h : data ≠ []) : following data needZlp =
    data.take ep0MaxPacket :: following (data.drop ep0MaxPacket) needZlp := by
  rw [following, if_neg h]

/-- Induction by what is left behind a packet. -/
theorem packet_induction {motive : List UInt8 → Prop} (nil : motive [])
    (packet : ∀ data, data ≠ [] → motive (data.drop ep0MaxPacket) → motive data)
    (data : List UInt8) : motive data := by
  induction hn : data.length using Nat.strongRecOn generalizing data with
  | ind n ih =>
    by_cases hnil : data = []
    · rw [hnil]
      exact nil
    · refine packet data hnil (ih _ ?_ _ rfl)
      rw [List.length_drop, ← hn]
      exact Nat.sub_lt (List.length_pos_iff.2 hnil) (by decide)

/-- **Nothing is lost or sent twice.** The packets, put together again, are the
data; an empty one at the end adds nothing. -/
theorem flatten_following (data : List UInt8) (needZlp : Bool) :
    (following data needZlp).flatten = data := by
  induction data using packet_induction with
  | nil =>
    cases needZlp with
    | false => rw [following_nil_false]; rfl
    | true => rw [following_nil_true]; rfl
  | packet data hne ih => rw [following_of_ne hne, List.flatten_cons, ih, List.take_append_drop]

/-- A packet is no longer than the endpoint takes. -/
theorem length_following (data : List UInt8) (needZlp : Bool) :
    ∀ q ∈ following data needZlp, q.length ≤ ep0MaxPacket := by
  induction data using packet_induction with
  | nil =>
    cases needZlp with
    | false => rw [following_nil_false]; nofun
    | true =>
      rw [following_nil_true]
      intro q hq
      rw [List.mem_singleton.1 hq]
      exact Nat.zero_le _
  | packet data hne ih =>
    rw [following_of_ne hne]
    intro q hq
    rcases List.mem_cons.1 hq with rfl | hq
    · rw [List.length_take]
      exact Nat.min_le_left _ _
    · exact ih q hq

/-- **All but the last are full**, where an empty packet follows full ones
only. -/
theorem full_following (data : List UInt8)
    (hzlp : needZlp = true → data.length % ep0MaxPacket = 0) :
    ∀ q ∈ (following data needZlp).dropLast, q.length = ep0MaxPacket := by
  induction data using packet_induction with
  | nil =>
    cases needZlp with
    | false => rw [following_nil_false]; nofun
    | true => rw [following_nil_true]; nofun
  | packet data hne ih =>
    have hpos := List.length_pos_iff.2 hne
    rw [following_of_ne hne]
    by_cases hlast : following (data.drop ep0MaxPacket) needZlp = []
    · rw [hlast]
      nofun
    · rw [List.dropLast_cons_of_ne_nil hlast]
      -- something follows: more data, or the empty packet behind a multiple
      have hfull : ep0MaxPacket ≤ data.length := by
        by_contra hshort
        have hnil : data.drop ep0MaxPacket = [] := List.drop_of_length_le (by omega)
        rw [hnil] at hlast
        cases needZlp with
        | false => exact hlast following_nil_false
        | true =>
          have hmod := hzlp rfl
          rw [Nat.mod_eq_of_lt (by omega)] at hmod
          omega
      intro q hq
      rcases List.mem_cons.1 hq with rfl | hq
      · rw [List.length_take]
        exact Nat.min_eq_left hfull
      · refine ih (fun hz => ?_) q hq
        rw [List.length_drop, ← hzlp hz]
        exact (Nat.mod_eq_sub_mod hfull).symm

/-- **The last packet is short**, if a packet of no bytes is due or the data
do not end at the end of a packet. -/
theorem short_following (data : List UInt8) (hshort : needZlp = true ∨ data.length % ep0MaxPacket ≠ 0) :
    ∃ q, (following data needZlp).getLast? = some q ∧ q.length < ep0MaxPacket := by
  induction data using packet_induction with
  | nil =>
    have hz : needZlp = true := hshort.resolve_right fun hne => hne rfl
    rw [hz, following_nil_true]
    exact ⟨[], rfl, by decide⟩
  | packet data hne ih =>
    rw [following_of_ne hne]
    by_cases hlast : following (data.drop ep0MaxPacket) needZlp = []
    · refine ⟨data.take ep0MaxPacket, by rw [hlast]; rfl, ?_⟩
      by_contra hfull
      rw [List.length_take] at hfull
      have hnil : data.drop ep0MaxPacket = [] := by
        rw [← flatten_following (data.drop ep0MaxPacket) needZlp, hlast]
        rfl
      have hlen := congrArg List.length hnil
      rw [List.length_drop, List.length_nil] at hlen
      have hexact : data.length = ep0MaxPacket := by omega
      rcases hshort with hz | hmod
      · rw [hnil, hz, following_nil_true] at hlast
        cases hlast
      · rw [hexact] at hmod
        exact hmod (Nat.mod_self _)
    · have hle : ep0MaxPacket ≤ data.length ∨ needZlp = true := by
        by_contra hno
        rw [not_or] at hno
        have hnil : data.drop ep0MaxPacket = [] := List.drop_of_length_le (by omega)
        rw [hnil, Bool.eq_false_iff.2 hno.2] at hlast
        exact hlast following_nil_false
      obtain ⟨q, hq, hlt⟩ := ih (by
        rcases hshort with hz | hmod
        · exact Or.inl hz
        · rcases hle with hle | hz
          · right
            rw [List.length_drop, ← Nat.mod_eq_sub_mod hle]
            exact hmod
          · exact Or.inl hz)
      refine ⟨q, ?_, hlt⟩
      rw [List.getLast?_cons, hq]
      rfl

/-- Without the flag no packet is empty. -/
theorem ne_nil_following (data : List UInt8) : ∀ q ∈ following data false, q ≠ [] := by
  induction data using packet_induction with
  | nil => rw [following_nil_false]; nofun
  | packet data hne ih =>
    rw [following_of_ne hne]
    intro q hq
    rcases List.mem_cons.1 hq with rfl | hq
    · rw [Ne, List.take_eq_nil_iff, not_or]
      exact ⟨by decide, hne⟩
    · exact ih q hq

/-! ## The stage -/

/-- The data that are sent. -/
def sentData (data : List UInt8) (requested : ℕ) : List UInt8 :=
  data.take (min data.length requested)

/-- The flag that `usb_ep0_start_in` leaves. -/
def zlpDue (data : List UInt8) (requested : ℕ) : Bool :=
  decide ((sentData data requested).length ≠ 0) &&
    decide ((sentData data requested).length < requested) &&
      decide ((sentData data requested).length % ep0MaxPacket = 0)

theorem startIn_eq (s : Ep0) (data : List UInt8) (requested : ℕ) :
    s.startIn data requested =
      if sentData data requested = [] then
        { s with inData := [], needZlp := false, state := .dataIn }.sendPacket []
      else
        { s with
            inData := sentData data requested
            needZlp := zlpDue data requested
            state := .dataIn }.sendNextInPacket := by
  have hmin : (if requested < data.length then requested else data.length) =
      min data.length requested := by
    split
    · omega
    · omega
  have hlen : (sentData data requested).length = min data.length requested := by
    rw [sentData, List.length_take]
    omega
  unfold Ep0.startIn
  dsimp only
  rw [hmin]
  by_cases hzero : min data.length requested = 0
  · have hnil : sentData data requested = [] := by
      rw [sentData, hzero, List.take_zero]
    rw [if_pos hzero, if_pos hnil, hzero]
    rfl
  · have hne : ¬ sentData data requested = [] := fun hnil => by
      rw [hnil] at hlen
      exact hzero hlen.symm
    rw [if_neg hzero, if_neg hne, zlpDue, hlen]
    rfl

/-- **The data stage sends what was asked for.** Behind `usb_ep0_start_in` the
packets are armed one after the other, each on the completion of the one
before, and the completion of the last enters the status stage. They hold the
first bytes of the data, as many as were requested or there are; all but the
last are full; the last is short where fewer bytes than requested are sent;
and where exactly the requested bytes are, none is empty. -/
theorem data_stage_exact (s : Ep0) (data : List UInt8) (requested : ℕ) :
    ∃ packets : List (List UInt8),
      (∀ k (hk : k < packets.length),
        ((s.startIn data requested).afterIn k).state = .dataIn ∧
        ((s.startIn data requested).afterIn k).statTx = .valid ∧
        ((s.startIn data requested).afterIn k).txPacket.data = packets[k]) ∧
      (∀ k, packets.length ≤ k →
        ((s.startIn data requested).afterIn k).state = .statusOut ∧
        ((s.startIn data requested).afterIn k).statTx = .nak) ∧
      packets.flatten = data.take (min data.length requested) ∧
      (∀ p ∈ packets, p.length ≤ 64) ∧
      (∀ p ∈ packets.dropLast, p.length = 64) ∧
      (min data.length requested < requested →
        ∃ p, packets.getLast? = some p ∧ p.length < 64) ∧
      (min data.length requested = requested → requested ≠ 0 → ∀ p ∈ packets, p ≠ []) := by
  have hlen : (sentData data requested).length = min data.length requested := by
    rw [sentData, List.length_take]
    omega
  by_cases hnil : sentData data requested = []
  · -- nothing to send: one packet of no bytes
    have hsending : Sending (s.startIn data requested) [] [] false := by
      rw [startIn_eq, if_pos hnil]
      exact ⟨rfl, rfl, rfl, rfl, rfl⟩
    obtain ⟨harmed, hend⟩ := hsending.afterIn [] following_nil_false
    rw [hnil, List.length_nil] at hlen
    refine ⟨[[]], harmed, fun k hk => ⟨(hend k hk).state, (hend k hk).idle⟩, ?_, ?_, nofun, ?_, ?_⟩
    · rw [← hlen]
      rfl
    · intro p hp
      rw [List.mem_singleton.1 hp]
      exact Nat.zero_le _
    · exact fun _ => ⟨[], rfl, by decide⟩
    · intro heq hne
      rw [← hlen] at heq
      exact absurd heq.symm hne
  · have hsending : Sending (s.startIn data requested)
        ((sentData data requested).take ep0MaxPacket) ((sentData data requested).drop ep0MaxPacket)
        (zlpDue data requested) := by
      rw [startIn_eq, if_neg hnil]
      exact sending_sendNextInPacket rfl
    have hall : following (sentData data requested) (zlpDue data requested) = _ :=
      following_of_ne hnil
    obtain ⟨harmed, hend⟩ := hsending.afterIn _ rfl
    rw [← hall] at hend
    simp only [← hall] at harmed
    have hmod : zlpDue data requested = true → (sentData data requested).length % ep0MaxPacket = 0 :=
      fun hz => by
        rw [zlpDue, Bool.and_eq_true] at hz
        exact of_decide_eq_true hz.2
    refine ⟨following (sentData data requested) (zlpDue data requested), harmed,
      fun k hk => ⟨(hend k hk).state, (hend k hk).idle⟩, flatten_following _ _,
      length_following _ _, full_following _ hmod, fun hless => short_following _ ?_, ?_⟩
    · by_cases hfull : (sentData data requested).length % ep0MaxPacket = 0
      · left
        have hpos : (sentData data requested).length ≠ 0 := fun h0 =>
          hnil (List.length_eq_zero_iff.1 h0)
        rw [← hlen] at hless
        rw [zlpDue, decide_eq_true hpos, decide_eq_true hless, decide_eq_true hfull]
        rfl
      · exact Or.inr hfull
    · intro heq _
      have hno : zlpDue data requested = false := by
        have hge : ¬ (sentData data requested).length < requested := by omega
        rw [zlpDue, decide_eq_false hge, Bool.and_false]
        rfl
      rw [hno]
      exact ne_nil_following _

end Usb

end DeusOs
