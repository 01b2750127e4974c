import DeusOs.Asset.Discipline

/-!
# The bytes a candidate has accepted

What a write leaves, whatever becomes of its flash operations: the bytes
accepted so far are on flash in the candidate's slot, but for an odd last
one (`Stores`). A write that fails has accepted as many of its bytes as
were stored before the failure.
-/

namespace DeusOs.Asset

open Nor

variable {m m' : Machine Ram} {f f' : Mem} {slot : ℕ} {c : Candidate} {bytes data : List UInt8}

/-- The pairs of `bytes` are the payload of the slot so far. -/
def StoredAt (f : Mem) (slot : ℕ) (bytes : List UInt8) : Prop :=
  f.bytes (slot + offsetPayload) (2 * (bytes.length / 2)) = bytes.take (2 * (bytes.length / 2))

/-- What is stored depends on the payload's own bytes only. -/
theorem StoredAt.congr (h : StoredAt f slot bytes)
    (hsame : ∀ i < 2 * (bytes.length / 2), f' (slot + offsetPayload + i) =
      f (slot + offsetPayload + i)) : StoredAt f' slot bytes :=
  (Mem.bytes_congr hsame).trans h

/-- A candidate that is `Tracks` and `StoredAt`: it has accepted the bytes. -/
structure Stores (m : Machine Ram) (bytes : List UInt8) : Prop where
  tracks : Tracks m.ram.candidate bytes
  stored : StoredAt m.flash m.ram.candidate.slotAddress bytes

/-- Of `data`, a candidate with `bytes` has accepted a part; all of it where
the answer is OK. -/
def Accepts (bytes data : List UInt8) (r : Result) (m' : Machine Ram) : Prop :=
  ∃ k ≤ data.length, (r = .ok → k = data.length) ∧ Stores m' (bytes ++ data.take k)

/-- A call that accepted nothing leaves what is stored. -/
theorem Accepts.none (r : Result) (h : Stores m' bytes) (hr : r = .ok → data = []) :
    Accepts bytes data r m' := by
  refine ⟨0, Nat.zero_le _, fun hok => ?_, ?_⟩
  · rw [hr hok]
    rfl
  · rwa [List.take_zero, List.append_nil]

/-- What was accepted of the rest. -/
theorem Accepts.of_append {front : List UInt8} {r : Result}
    (h : Accepts (bytes ++ front) data r m') : Accepts bytes (front ++ data) r m' := by
  obtain ⟨k, hk, hr, hs⟩ := h
  refine ⟨front.length + k, by simp only [List.length_append]; omega, fun hok => ?_, ?_⟩
  · rw [hr hok, List.length_append]
  · rwa [List.take_length_add_append, ← List.append_assoc]

/-- A halfword past what is stored leaves it. -/
theorem StoredAt.of_broke {a v : ℕ} (h : StoredAt m.flash slot bytes)
    (ha : slot + offsetPayload + 2 * (bytes.length / 2) ≤ a) (hbroke : Broke (halfOps a v) m m') :
    StoredAt m'.flash slot bytes := by
  refine h.congr fun i hi => hbroke.flash_of_not_covers fun o ho hx => ?_
  obtain ⟨rfl, -⟩ := mem_halfOps.mp ho
  simp only [Op.Covers] at hx
  omega

/-- **A pair is stored** as one halfword, on flash that is blank there. The
bytes before it are even in number, so it begins where they end. -/
theorem StoredAt.pair {lo hi : UInt8} (h : StoredAt m.flash slot bytes) (heven : bytes.length % 2 = 0)
    (hblank : m.flash.half (slot + offsetPayload + bytes.length) = 0xFFFF)
    (hran : Ran (halfOps (slot + offsetPayload + bytes.length) (le16 lo hi)) m m') :
    StoredAt m'.flash slot (bytes ++ [lo, hi]) := by
  have hlen : 2 * (bytes.length / 2) = bytes.length := by omega
  have hlen' : 2 * ((bytes ++ [lo, hi]).length / 2) = bytes.length + 2 := by
    rw [List.length_append]
    simp only [List.length_cons, List.length_nil]
    omega
  have hfront : m'.flash.bytes (slot + offsetPayload) bytes.length = bytes := by
    have hold := h.of_broke (by omega) hran.toBroke
    unfold StoredAt at hold
    rw [hlen, List.take_length] at hold
    exact hold
  have hpair : m'.flash.bytes (slot + offsetPayload + bytes.length) 2 = [lo, hi] := by
    have hplan : programOps (slot + offsetPayload + bytes.length) [lo, hi] =
        halfOps (slot + offsetPayload + bytes.length) (le16 lo hi) := by simp [programOps]
    have hb := @bytes_applyAll_programOps (slot + offsetPayload + bytes.length) [lo, hi] m.flash
      (by simp)
      (Mem.half_eq_ffff.mp hblank)
    rw [hplan, ← hran.flash] at hb
    exact hb
  unfold StoredAt
  rw [hlen', Mem.bytes_add, hfront, hpair]
  have htake : (bytes ++ [lo, hi]).length = bytes.length + 2 := by simp
  rw [← htake, List.take_length]

/-- An odd byte waits. -/
theorem StoredAt.odd (h : StoredAt f slot bytes) (heven : bytes.length % 2 = 0) (b : UInt8) :
    StoredAt f slot (bytes ++ [b]) := by
  have hlen : 2 * ((bytes ++ [b]).length / 2) = bytes.length := by
    rw [List.length_append, List.length_singleton]
    omega
  have hold : 2 * (bytes.length / 2) = bytes.length := by omega
  unfold StoredAt at h ⊢
  rw [hold, List.take_length] at h
  rw [hlen, List.take_left]
  exact h

/-- Two bytes more are tracked where none was pending. -/
theorem Tracks.pair {lo hi : UInt8} (h : Tracks c bytes) (hpend : c.pendingValid = false) :
    Tracks { c with acceptedBytes := c.acceptedBytes + 2 } (bytes ++ [lo, hi]) := by
  have haccept := h.accept [lo, hi]
  have heq : Asset.accept c [lo, hi] = { c with acceptedBytes := c.acceptedBytes + 2 } := by
    simp [Asset.accept, hpend, advance]
  rwa [heq] at haccept

/-- The pairs of `data`, from an even place. -/
theorem writePairs_accepts (data : List UInt8) (m : Machine Ram)
    (hpend : m.ram.candidate.pendingValid = false) (h : Stores m bytes) :
    wp (writePairs data) (fun r m' => Accepts bytes data r m') (fun _ => True) m := by
  induction data using writePairs.induct generalizing m bytes with
  | case1 lo hi data ih =>
    have heven : bytes.length % 2 = 0 := by
      have := h.tracks.odd
      rw [hpend] at this
      simp only [Bool.false_eq_true, false_iff] at this
      omega
    have haddr : payloadAddress m.ram.candidate m.ram.candidate.acceptedBytes =
        m.ram.candidate.slotAddress + offsetPayload + bytes.length := by
      rw [payloadAddress, h.tracks.accepted]
    simp only [writePairs, wp_bind, wp_ram]
    refine wp_programPayloadHalfword (le16_lt lo hi) (fun m₁ h₁ hram hblank => ?_)
      (fun m₁ h₁ hram _ => ?_) fun m₁ h₁ _ => trivial
    · simp only [if_true, wp_bind, wp_modifyRam, modifyCandidate]
      rw [haddr] at h₁ hblank
      have hpair := h.stored.pair heven hblank h₁
      obtain ⟨c₁, hc₁⟩ : ∃ c₁ : Candidate, c₁ =
        { m.ram.candidate with acceptedBytes := m.ram.candidate.acceptedBytes + 2 } := ⟨_, rfl⟩
      have hrest := @ih (bytes ++ [lo, hi]) { m₁ with ram := { m₁.ram with candidate := c₁ } }
        (by rw [hc₁]; exact hpend) ⟨by rw [hc₁]; exact h.tracks.pair hpend, by rw [hc₁]; exact hpair⟩
      rw [hram, ← hc₁]
      rw [hram] at hrest
      exact wp_mono hrest (fun r m' hm => hm.of_append) fun _ h => h
    · simp only [Bool.false_eq_true, if_false, wp_pure]
      refine Accepts.none _ ⟨?_, ?_⟩ fun hr => by cases hr
      · rw [hram]
        exact h.tracks
      · rw [hram]
        rw [haddr] at h₁
        exact h.stored.of_broke (by omega) h₁
  | case2 b =>
    have heven : bytes.length % 2 = 0 := by
      have := h.tracks.odd
      rw [hpend] at this
      simp only [Bool.false_eq_true, false_iff] at this
      omega
    simp only [writePairs, wp_bind, wp_modifyRam, wp_pure, modifyCandidate]
    refine ⟨1, Nat.le_refl _, fun _ => rfl, ?_, ?_⟩
    · have haccept := h.tracks.accept [b]
      have heq : Asset.accept m.ram.candidate [b] = { m.ram.candidate with
          pendingByte := b, pendingValid := true,
          acceptedBytes := m.ram.candidate.acceptedBytes + 1 } := by
        simp [Asset.accept, hpend, advance]
      rw [heq] at haccept
      exact haccept
    · exact h.stored.odd heven b
  | case3 =>
    simp only [writePairs, wp_pure]
    exact Accepts.none _ h fun _ => rfl

/-- **`asset_write_payload_bytes`** accepts what it counts: the bytes it stored,
and one that may be pending, even where an operation failed that took effect. -/
theorem writePayloadBytes_accepts (data : List UInt8) (m : Machine Ram) (h : Stores m bytes) :
    wp (writePayloadBytes data) (fun r m' => Accepts bytes data r m') (fun _ => True) m := by
  simp only [writePayloadBytes, wp_bind, wp_ram]
  rcases hp : m.ram.candidate.pendingValid with _ | _
  · exact writePairs_accepts data m hp h
  rcases data with - | ⟨b, data⟩
  · simp only [writePairs, wp_pure]
    exact Accepts.none _ h fun _ => rfl
  -- the held byte is the last of those accepted
  have hodd : bytes.length % 2 = 1 := h.tracks.odd.mp hp
  have hheld : [m.ram.candidate.pendingByte] = oddTail bytes := by
    rw [← h.tracks.held, held, if_pos hp]
  obtain ⟨front, hfront⟩ : ∃ front, front = bytes.take (2 * (bytes.length / 2)) := ⟨_, rfl⟩
  have hbytes : bytes = front ++ [m.ram.candidate.pendingByte] := by
    rw [hfront, hheld, oddTail, List.take_append_drop]
  have hlen : front.length = bytes.length - 1 := by
    rw [hfront, List.length_take]
    omega
  have hstored : StoredAt m.flash m.ram.candidate.slotAddress front := by
    have hhalf : 2 * (front.length / 2) = 2 * (bytes.length / 2) := by omega
    have hold := h.stored
    unfold StoredAt at hold ⊢
    rw [hhalf, hold, hfront, List.take_take, Nat.min_self]
  have haddr : payloadAddress m.ram.candidate (m.ram.candidate.acceptedBytes - 1) =
      m.ram.candidate.slotAddress + offsetPayload + front.length := by
    rw [payloadAddress, h.tracks.accepted, hlen]
  simp only [wp_bind]
  refine wp_programPayloadHalfword (le16_lt _ _) (fun m₁ h₁ hram hblank => ?_)
    (fun m₁ h₁ hram _ => ?_) fun m₁ h₁ _ => trivial
  · simp only [if_true, wp_bind, wp_modifyRam, modifyCandidate]
    rw [haddr] at h₁ hblank
    have hpair := hstored.pair (by omega) hblank h₁
    have hsplit : front ++ [m.ram.candidate.pendingByte, b] = bytes ++ [b] := by
      rw [hbytes, List.append_assoc]
      rfl
    rw [hsplit] at hpair
    have htracks : Tracks { m.ram.candidate with
        pendingValid := false, acceptedBytes := m.ram.candidate.acceptedBytes + 1 }
        (bytes ++ [b]) := by
      have haccept := h.tracks.accept [b]
      have heq : Asset.accept m.ram.candidate [b] = { m.ram.candidate with
          pendingValid := false, acceptedBytes := m.ram.candidate.acceptedBytes + 1 } := by
        simp [Asset.accept, hp, advance]
      rwa [heq] at haccept
    refine wp_mono (@writePairs_accepts (bytes ++ [b]) data _ ?_ ?_) (fun r m' hm => ?_)
      fun _ h => h
    · rfl
    · rw [hram]
      exact ⟨htracks, hpair⟩
    · exact hm.of_append
  · simp only [Bool.false_eq_true, if_false, wp_pure]
    refine Accepts.none _ ⟨?_, ?_⟩ fun hr => by cases hr
    · rw [hram]
      exact h.tracks
    · rw [hram]
      rw [haddr] at h₁
      exact h.stored.of_broke (by omega) h₁

/-- Bytes that are stored where the flash reads erased. -/
theorem storedAt_programOps (hran : Ran (programOps (slot + offsetPayload) bytes) m m')
    (hblank : m.flash.Blank (slot + offsetPayload) bytes.length) :
    StoredAt m'.flash slot bytes := by
  obtain ⟨front, hfront⟩ : ∃ front, front = bytes.take (2 * (bytes.length / 2)) := ⟨_, rfl⟩
  have hlen : front.length = 2 * (bytes.length / 2) := by
    rw [hfront, List.length_take]
    omega
  have hhalf : 2 * (front.length / 2) = front.length := by omega
  have hplan : programOps (slot + offsetPayload) bytes =
      programOps (slot + offsetPayload) front := by
    have hsplit : bytes = front ++ oddTail bytes := by
      rw [hfront, oddTail, List.take_append_drop]
    have htail : oddTail front ++ oddTail bytes = oddTail bytes := by
      rw [oddTail_of_even (by omega), List.nil_append]
    have hnone : ∀ a, programOps a (oddTail bytes) = [] := by
      intro a
      have hlast := length_oddTail bytes
      rcases hodd : oddTail bytes with - | ⟨b, - | ⟨b', rest⟩⟩
      · rfl
      · rfl
      · rw [hodd, List.length_cons, List.length_cons] at hlast
        omega
    conv_lhs => rw [hsplit]
    rw [programOps_append, htail, hnone, List.append_nil]
  have hbytes := @bytes_applyAll_programOps (slot + offsetPayload) front m.flash (by omega)
    (hblank.sub (Nat.le_refl _) (by omega))
  unfold StoredAt
  rw [hran.flash, hplan, ← hfront, ← hlen]
  exact hbytes

/-! ## A write -/

/-- What a write has accepted is what the count says. -/
theorem Accepts.counted {r : Result} (h : Accepts bytes data r m') :
    Stores m' (bytes ++ data.take (m'.ram.candidate.acceptedBytes - bytes.length)) := by
  obtain ⟨k, hk, -, hs⟩ := h
  have hcount : m'.ram.candidate.acceptedBytes - bytes.length = k := by
    rw [hs.tracks.accepted, List.length_append, List.length_take]
    omega
  rw [hcount]
  exact hs

/-- **A write to a slot that is started** stores what it accepts behind what was
accepted before. -/
theorem writeCandidate_accepts (data : List UInt8) (m : Machine Ram)
    (hcmp : m.ram.candidate.compareActive = false) (h : Stores m bytes) :
    wp (writeCandidate data)
      (fun _ m' => Stores m' (bytes ++ data.take (m'.ram.candidate.acceptedBytes - bytes.length)))
      (fun _ => True) m := by
  unfold writeCandidate
  rw [wp_bind, wp_ram, wp_ite]
  split
  · have hnone : m.ram.candidate.acceptedBytes - bytes.length = 0 := by
      rw [h.tracks.accepted]
      omega
    rw [wp_pure, hnone, List.take_zero, List.append_nil]
    exact h
  rw [wp_ite, if_neg (by simp [hcmp])]
  exact wp_mono (writePayloadBytes_accepts data m h) (fun _ _ hm => hm.counted) fun _ h => h

/-- **A write in compare mode:** where it starts the slot and the candidate
goes on, what had matched is stored before the rest. -/
theorem writeCandidate_starts (data : List UInt8) (m : Machine Ram) {record : Record}
    (hcmp : m.ram.candidate.compareActive = true) (hrec : m.ram.activeRecord = some record)
    (hslot : record.slotAddress = slotA ∨ record.slotAddress = slotB)
    (hbytes : m.flash.bytes (record.slotAddress + offsetPayload) m.ram.candidate.acceptedBytes =
      bytes) :
    wp (writeCandidate data)
      (fun _ m' => m'.ram.candidate.active = true → m'.ram.candidate.compareActive = false →
        Stores m' (bytes ++ data.take (m'.ram.candidate.acceptedBytes - bytes.length)))
      (fun _ => True) m := by
  have hlen : m.ram.candidate.acceptedBytes = bytes.length := by
    rw [← hbytes, Mem.length_bytes]
  unfold writeCandidate
  rw [wp_bind, wp_ram, wp_ite]
  split
  · exact fun _ hc => absurd (hc.symm.trans hcmp) (by simp)
  next href =>
  obtain ⟨-, hfits⟩ := not_or.mp href
  have hfits := Nat.le_of_not_lt hfits
  have hget : (m.ram.activeRecord.map Record.slotAddress).getD 0 = record.slotAddress := by
    rw [hrec]
    rfl
  obtain ⟨index, hindex⟩ : ∃ index, index = matching m.flash
    (record.slotAddress + offsetPayload + m.ram.candidate.acceptedBytes) data := ⟨_, rfl⟩
  obtain ⟨hle, hmatched, -⟩ := matching_spec m.flash
    (record.slotAddress + offsetPayload + m.ram.candidate.acceptedBytes) data
  rw [← hindex] at hle hmatched
  simp only [wp_bind, wp_flash, hget, ← hindex]
  split
  case isFalse =>
    simp only [wp_bind, wp_modifyRam, wp_pure, modifyCandidate]
    exact fun _ hc => absurd (hc.symm.trans hcmp) (by simp)
  rw [wp_bind]
  refine wp_mono (startChanged_wp m) (fun r m₁ h₁ => ?_) fun _ _ => trivial
  cases h₁ with
  | wornOut => exact fun _ hc => absurd (hc.symm.trans hcmp) (by simp)
  | failed _ _ _ hram =>
    intro hidle
    rw [hram] at hidle
    cases hidle
  | started _ hran hram =>
    obtain ⟨c₁, hc₁⟩ : ∃ c₁, c₁ = startedCandidate m.ram.activeRecord m.ram.candidate := ⟨_, rfl⟩
    rw [← hc₁] at hram
    have hcand : m₁.ram.candidate = c₁ := by rw [hram]
    have hslot₁ : c₁.slotAddress = otherSlot m.ram.activeRecord := by rw [hc₁]; rfl
    have hacc₁ : c₁.acceptedBytes = 0 := by rw [hc₁]; rfl
    have hpend₁ : c₁.pendingValid = false := by rw [hc₁]; rfl
    have hother := otherSlot_cases m.ram.activeRecord
    have hne : record.slotAddress ≠ otherSlot m.ram.activeRecord := by
      rw [hrec]
      exact otherSlot_ne hslot
    -- the start has left the active record alone
    obtain ⟨pre, hpre⟩ : ∃ pre, pre = bytes ++ data.take index := ⟨_, rfl⟩
    have hprelen : pre.length = m.ram.candidate.acceptedBytes + index := by
      rw [hpre, List.length_append, List.length_take, hlen]
      omega
    have hsame : m₁.flash.bytes (record.slotAddress + offsetPayload)
        (m.ram.candidate.acceptedBytes + index) = pre := by
      have hold : m.flash.bytes (record.slotAddress + offsetPayload)
          (m.ram.candidate.acceptedBytes + index) = pre := by
        rw [Mem.bytes_add, hbytes, hmatched, hpre]
      refine (Mem.bytes_congr fun i hi => ?_).trans hold
      have honly := (keepsTo_startPlan (otherSlot m.ram.activeRecord)
        (nextGeneration m.ram.activeRecord) m.ram.candidate.payloadCrc32).onlyIn m.flash
      rw [hran.flash]
      refine honly _ ?_
      unfold configBytes at hfits
      unfold slotA slotB offsetPayload pageSize at *
      omega
    have hcopy := copyPrefix_wp hslot (m.ram.candidate.acceptedBytes + index) 0 m₁
      (by rw [hcand, hslot₁]; exact hother) (by rw [hcand, hslot₁]; exact hne)
      (by omega) (by rw [hcand, hacc₁])
    rw [hcand] at hcopy
    have hbase : payloadAddress c₁ 0 = otherSlot m.ram.activeRecord + offsetPayload := by
      rw [payloadAddress, hslot₁, Nat.add_zero]
    simp only [Nat.add_zero, hsame, hbase] at hcopy
    simp only [wp_bind]
    refine wp_mono hcopy (fun r m₂ h₂ => ?_) fun _ _ => trivial
    cases h₂ with
    | failed =>
      simp only [giveUp, candidateReset, modifyCandidate, wp_bind, wp_modifyRam, wp_pure]
      intro hidle
      cases hidle
    | written hran₂ hram₂ =>
      have hblank : m₁.flash.Blank (otherSlot m.ram.activeRecord + offsetPayload) pre.length := by
        rw [hran.flash]
        exact (blank_after_start _ _ _ _).sub (by unfold offsetPayload; omega)
          (by unfold offsetPayload configBytes pageSize at *; omega)
      have hstores : Stores m₂ pre := by
        refine ⟨?_, ?_⟩
        · rw [hram₂]
          exact tracks_advance hacc₁ hpend₁
        · have hslot₂ : m₂.ram.candidate.slotAddress = otherSlot m.ram.activeRecord := by
            rw [hram₂]
            exact (sameCandidate_advance c₁ pre).slotAddress.trans hslot₁
          rw [hslot₂]
          exact storedAt_programOps hran₂ hblank
      refine wp_mono (writePayloadBytes_accepts (data.drop index) m₂ hstores)
        (fun r m₃ h₃ _ _ => ?_) fun _ h => h
      -- all that was accepted, from the first byte of this write
      obtain ⟨k, hk, -, hs⟩ := h₃
      have hall : pre ++ (data.drop index).take k = bytes ++ data.take (index + k) := by
        rw [hpre, List.append_assoc, ← List.take_add]
      rw [hall] at hs
      have hcount : m₃.ram.candidate.acceptedBytes - bytes.length = index + k := by
        rw [List.length_drop] at hk
        rw [hs.tracks.accepted, List.length_append, List.length_take]
        omega
      rw [hcount]
      exact hs

end DeusOs.Asset
