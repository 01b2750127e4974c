import DeusOs.Asset.Session

/-!
# The two slots

What a reset finds. A slot is valid when the boot would take its record
(`Holds`). The calls on the candidate work on the slot that is not the
active record's, so that the active record stays valid, and the other slot
holds nothing, the record before it, or the one that a commit has marked.
-/

namespace DeusOs.Asset

open Nor

/-! ## What a slot holds -/

/-- The boot finds the record `r` in the slot. -/
def Holds (f : Mem) (slot : ℕ) (r : Record) : Prop := validateRecord f slot commitMarker = .ok r

instance (f : Mem) (slot : ℕ) (r : Record) : Decidable (Holds f slot r) :=
  inferInstanceAs (Decidable (_ = _))

/-- A record is in the slot that holds it. -/
theorem Holds.slotAddress {f : Mem} {slot : ℕ} {r : Record} (h : Holds f slot r) :
    r.slotAddress = slot := slotAddress_of_validate h

/-- A slot holds one record at most. -/
theorem Holds.unique {f : Mem} {slot : ℕ} {r r' : Record} (h : Holds f slot r)
    (h' : Holds f slot r') : r = r' := by
  unfold Holds at h h'
  rw [h] at h'
  exact Except.ok.inj h'

/-- What a boot selects is in its slot. -/
theorem holds_bootRecord {f : Mem} {r : Record} (h : (bootRecord f).1 = some r) :
    Holds f r.slotAddress r := by
  rcases validate_bootRecord h with hr | hr
  · rw [slotAddress_of_validate hr]
    exact hr
  · rw [slotAddress_of_validate hr]
    exact hr

/-- The first slot's record is selected where it is the newer. -/
theorem bootRecord_of_left {f : Mem} {a : Record} (ha : Holds f slotA a)
    (hnewer : ∀ b, Holds f slotB b → b.generation < a.generation) :
    (bootRecord f).1 = some a := by
  unfold Holds at ha hnewer
  rw [bootRecord, ha]
  cases hb : validateRecord f slotB commitMarker with
  | error e => rfl
  | ok b => exact congrArg Prod.fst (if_pos (hnewer b hb))

/-- So is the second slot's. -/
theorem bootRecord_of_right {f : Mem} {b : Record} (hb : Holds f slotB b)
    (hnewer : ∀ a, Holds f slotA a → a.generation < b.generation) :
    (bootRecord f).1 = some b := by
  unfold Holds at hb hnewer
  rw [bootRecord, hb]
  cases ha : validateRecord f slotA commitMarker with
  | error e => rfl
  | ok a =>
    have hlt := hnewer a ha
    dsimp only
    rw [if_neg (by omega), if_pos hlt]

/-- What the boot checks of a slot, where it takes its record. -/
theorem validateRecord_ok {f : Mem} {slot marker : ℕ} {r : Record}
    (h : validateRecord f slot marker = .ok r) :
    word f (slot + 0x3C) = 0xFFFF + 65536 * marker ∧ r.generation = word f (slot + 0x0C) ∧
      r.generation ≤ generationMax ∧
      (crc32 (f.bytes slot 24)).toNat = word f (slot + offsetHeaderCrc) := by
  have hvalid := validated_of_ok h
  have hgen : r.generation = word f (slot + 0x0C) := by rw [hvalid.record]
  exact ⟨hvalid.marker, hgen, hvalid.bounded, hvalid.header⟩

/-- The marker of a record that validates with it. -/
theorem marker_of_validate {f : Mem} {slot marker : ℕ} {r : Record}
    (h : validateRecord f slot marker = .ok r) : f.half (slot + offsetMarker) = marker := by
  have hword := (validateRecord_ok h).1
  have hlow : f.half (slot + 0x3C) < 65536 := le16_lt _ _
  have hhigh : f.half (slot + 0x3C + 2) = f.half (slot + offsetMarker) := rfl
  rw [word, hhigh] at hword
  omega

/-- A slot whose marker is erased holds nothing. -/
theorem not_holds_of_unmarked {f : Mem} {slot : ℕ} (h : f.half (slot + offsetMarker) = 0xFFFF)
    (r : Record) : ¬ Holds f slot r := by
  intro hholds
  rw [marker_of_validate hholds] at h
  exact absurd h (by decide)

/-- What a slot holds is in its first 72 bytes. -/
theorem validateRecord_congr {f g : Mem} {slot marker : ℕ}
    (h : ∀ i < 72, f (slot + i) = g (slot + i)) :
    validateRecord f slot marker = validateRecord g slot marker := by
  have hword : ∀ k, k + 4 ≤ 72 → word f (slot + k) = word g (slot + k) := by
    intro k hk
    have h0 := h k (by omega)
    have h1 := h (k + 1) (by omega)
    have h2 := h (k + 2) (by omega)
    have h3 := h (k + 2 + 1) (by omega)
    simp only [word, Mem.half, Nat.add_assoc] at h0 h1 h2 h3 ⊢
    rw [h0, h1, h2, h3]
  have hheader : f.bytes slot 24 = g.bytes slot 24 :=
    Mem.bytes_congr fun i hi => h i (by omega)
  have hpayload : payload f slot = payload g slot := by
    refine Mem.bytes_congr fun i hi => ?_
    have := h (offsetPayload + i) (by unfold offsetPayload configBytes at *; omega)
    rwa [← Nat.add_assoc] at this
  have hspare : (∃ i < 8, word f (slot + 0x18 + 4 * i) ≠ 0xFFFFFFFF) ↔
      ∃ i < 8, word g (slot + 0x18 + 4 * i) ≠ 0xFFFFFFFF := by
    constructor
    · rintro ⟨i, hi, hne⟩
      have := hword (0x18 + 4 * i) (by omega)
      rw [← Nat.add_assoc] at this
      exact ⟨i, hi, this ▸ hne⟩
    · rintro ⟨i, hi, hne⟩
      have := hword (0x18 + 4 * i) (by omega)
      rw [← Nat.add_assoc] at this
      exact ⟨i, hi, this.symm ▸ hne⟩
  have h00 := hword 0 (by decide)
  rw [Nat.add_zero] at h00
  unfold validateRecord offsetHeaderCrc
  rw [h00, hword 0x04 (by decide), hword 0x08 (by decide), hword 0x14 (by decide),
    hword 0x3C (by decide), hword 0x0C (by decide), hword 0x38 (by decide),
    hword 0x10 (by decide), hheader, hpayload]
  simp only [hspare]

/-! ## The other slot -/

/-- The flash differs in the slot `slot` at most. -/
def OnlyIn (slot : ℕ) (f f' : Mem) : Prop :=
  ∀ x, (x < slot ∨ slot + pageSize ≤ x) → f' x = f x

theorem OnlyIn.refl (slot : ℕ) (f : Mem) : OnlyIn slot f f := fun _ _ => rfl

theorem OnlyIn.trans {slot : ℕ} {f f' f'' : Mem} (h : OnlyIn slot f f') (h' : OnlyIn slot f' f'') :
    OnlyIn slot f f'' := fun x hx => (h' x hx).trans (h x hx)

/-- A plan that keeps to the slot. -/
def KeepsTo (slot : ℕ) (plan : List Op) : Prop :=
  ∀ o ∈ plan, ∀ x, o.Covers x → slot ≤ x ∧ x < slot + pageSize

/-- Two plans that keep to a slot do so one after the other. -/
theorem KeepsTo.append {slot : ℕ} {plan plan' : List Op} (h : KeepsTo slot plan)
    (h' : KeepsTo slot plan') : KeepsTo slot (plan ++ plan') := by
  intro o ho
  rcases List.mem_append.mp ho with ho | ho
  · exact h o ho
  · exact h' o ho

/-- A plan that keeps to a slot does so wherever it stops. -/
theorem KeepsTo.take {slot : ℕ} {plan : List Op} (h : KeepsTo slot plan) (j : ℕ) :
    KeepsTo slot (plan.take j) := fun o ho => h o (List.mem_of_mem_take ho)

/-- A plan that keeps to a slot changes that slot only. -/
theorem KeepsTo.onlyIn {slot : ℕ} {plan : List Op} (h : KeepsTo slot plan) (f : Mem) :
    OnlyIn slot f (applyAll plan f) := by
  intro x hx
  refine applyAll_of_not_covers (fun o ho hcov => ?_) f
  have := h o ho x hcov
  omega

/-- The other slot's record stays. -/
theorem OnlyIn.holds {slot slot' : ℕ} {f f' : Mem} (h : OnlyIn slot f f')
    (hslot : slot = slotA ∨ slot = slotB) (hslot' : slot' = slotA ∨ slot' = slotB)
    (hne : slot' ≠ slot) {r : Record} : Holds f' slot' r ↔ Holds f slot' r := by
  have hcongr : validateRecord f' slot' commitMarker = validateRecord f slot' commitMarker := by
    refine validateRecord_congr fun i hi => h _ ?_
    unfold slotA slotB pageSize at *
    omega
  rw [Holds, Holds, hcongr]

/-- Programming bytes inside of a slot keeps to it. -/
theorem keepsTo_programOps {slot base : ℕ} {bytes : List UInt8} (hbase : slot ≤ base)
    (hend : base + bytes.length ≤ slot + pageSize) : KeepsTo slot (programOps base bytes) := by
  intro o ho x hx
  have := covers_programOps ho hx
  omega

/-- Starting a slot keeps to it. -/
theorem keepsTo_startPlan (slot generation : ℕ) (crc : UInt32) :
    KeepsTo slot (startPlan slot generation crc) := by
  intro o ho
  rcases List.mem_cons.mp ho with rfl | ho
  · intro x hx
    exact hx
  · refine keepsTo_programOps (Nat.le_refl _) ?_ o ho
    rw [length_metadataBytes]
    unfold pageSize
    omega

theorem keepsTo_halfOps {slot a v : ℕ} (ha : slot ≤ a) (hend : a + 2 ≤ slot + pageSize) :
    KeepsTo slot (halfOps a v) := by
  intro o ho x hx
  obtain ⟨rfl, -⟩ := mem_halfOps.mp ho
  simp only [Op.Covers] at hx
  omega

/-- Programming a header's CRC keeps to the slot. -/
theorem keepsTo_crcPlan (slot : ℕ) (f : Mem) : KeepsTo slot (crcPlan slot f) :=
  (keepsTo_halfOps (by omega) (by unfold offsetHeaderCrc pageSize; omega)).append
    (keepsTo_halfOps (by omega) (by unfold offsetHeaderCrc pageSize; omega))

/-- Programming a marker keeps to the slot. -/
theorem keepsTo_markerPlan (slot : ℕ) : KeepsTo slot (markerPlan slot) :=
  keepsTo_halfOps (by omega) (by unfold offsetMarker pageSize; omega)

/-- **A record that is complete but for its marker is valid with it,** because
the check reads nothing else of the marker. -/
theorem holds_of_marked {f f' : Mem} {slot : ℕ} {r : Record}
    (h : validateRecord f slot 0xFFFF = .ok r) (hf : f' = applyAll (markerPlan slot) f) :
    Holds f' slot r := by
  have hsame : ∀ x, x ≠ slot + 0x3E → x ≠ slot + 0x3F → f' x = f x := by
    intro x h1 h2
    rw [hf, applyAll_of_not_covers]
    intro o ho hx
    obtain ⟨rfl, -⟩ := mem_halfOps.mp ho
    simp only [Op.Covers, offsetMarker] at hx
    omega
  have hmark : f'.half (slot + 0x3E) = commitMarker := by
    rw [hf, markerPlan, halfOps, if_neg (by decide), applyAll_cons, applyAll_nil]
    exact Op.half_apply_program _ _ (by decide)
  have hword : ∀ k, k + 4 ≤ 0x3E ∨ 0x40 ≤ k → word f' (slot + k) = word f (slot + k) := by
    intro k hk
    have h0 := hsame (slot + k) (by omega) (by omega)
    have h1 := hsame (slot + k + 1) (by omega) (by omega)
    have h2 := hsame (slot + k + 2) (by omega) (by omega)
    have h3 := hsame (slot + k + 2 + 1) (by omega) (by omega)
    simp only [word, Mem.half, h0, h1, h2, h3]
  have hheader : f'.bytes slot 24 = f.bytes slot 24 :=
    Mem.bytes_congr fun i hi => hsame _ (by omega) (by omega)
  have hpayload : payload f' slot = payload f slot :=
    Mem.bytes_congr fun i hi => hsame _ (by unfold offsetPayload; omega)
      (by unfold offsetPayload; omega)
  have hlast : word f' (slot + 0x3C) = 0xFFFF + 65536 * commitMarker := by
    have hold := (validateRecord_ok h).1
    have hlow : f.half (slot + 0x3C) < 65536 := le16_lt _ _
    have hhigh : f.half (slot + 0x3C + 2) < 65536 := le16_lt _ _
    have hkept : f'.half (slot + 0x3C) = f.half (slot + 0x3C) := by
      have h0 := hsame (slot + 0x3C) (by omega) (by omega)
      have h1 := hsame (slot + 0x3C + 1) (by omega) (by omega)
      simp only [Mem.half, h0, h1]
    have hmark' : f'.half (slot + 0x3C + 2) = commitMarker := hmark
    simp only [word] at hold ⊢
    rw [hkept, hmark']
    omega
  have hspare : ∀ i, i < 8 → word f' (slot + 0x18 + 4 * i) = word f (slot + 0x18 + 4 * i) := by
    intro i hi
    have := hword (0x18 + 4 * i) (by omega)
    rwa [← Nat.add_assoc] at this
  have h00 := hword 0 (by omega)
  rw [Nat.add_zero] at h00
  have hold := (validateRecord_ok h).1
  unfold Holds validateRecord offsetHeaderCrc at *
  rw [h00, hword 0x04 (by omega), hword 0x08 (by omega), hword 0x14 (by omega), hlast,
    hword 0x0C (by omega), hword 0x38 (by omega), hword 0x10 (by omega), hheader, hpayload]
  have hspare' : (∃ i < 8, word f' (slot + 0x18 + 4 * i) ≠ 0xFFFFFFFF) ↔
      ∃ i < 8, word f (slot + 0x18 + 4 * i) ≠ 0xFFFFFFFF :=
    exists_congr fun i => and_congr_right fun hi => by rw [hspare i hi]
  simp only [hspare', hold] at h ⊢
  simpa using h

end DeusOs.Asset
