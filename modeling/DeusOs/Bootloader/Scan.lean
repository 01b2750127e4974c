import DeusOs.Bootloader.Steps

/-!
# The bootloader — what the flash says is committed

`scan_metadata` in closed form. A slot counts for its authenticated
version, `0` for none; the floor is the larger of the two, and the
bootable version the larger of those whose image the application matches
(`scan_versionFloor`, `scan_committedVersion`). Each of these reads a
bounded stretch of flash, which is all a step has to leave alone for the
decision to stand.
-/

namespace DeusOs

namespace Bootloader

open Nor (Mem)

variable (board : Board)

/-- One of the two metadata pages. -/
def IsSlot (slot : ℕ) : Prop := slot = metaA ∨ slot = metaB

/-- The other metadata page. -/
def otherSlot (slot : ℕ) : ℕ := if slot = metaA then metaB else metaA

/-- The version a slot counts for. -/
def slotVersion (f : Mem) (slot : ℕ) : ℕ := (metadataAuthenticated board f slot).getD 0

/-- **The anti-rollback floor**: the highest authenticated version. -/
def floor (f : Mem) : ℕ := max (slotVersion board f metaA) (slotVersion board f metaB)

/-- The version a slot can boot: its own, where the application matches
its header. -/
def bootVersion (f : Mem) (slot : ℕ) : ℕ :=
  if appMatchesHeader f (slotHeader f slot) then slotVersion board f slot else 0

variable {board} {f g : Mem} {slot : ℕ}

/-- The other slot is a slot. -/
theorem isSlot_otherSlot (slot : ℕ) : IsSlot (otherSlot slot) := by
  unfold otherSlot
  split
  · exact Or.inr rfl
  · exact Or.inl rfl

/-- The other page begins no closer than a page away. -/
theorem IsSlot.apart (h : IsSlot slot) :
    slot + 1024 ≤ otherSlot slot ∨ otherSlot slot + 1024 ≤ slot := by
  rcases h with rfl | rfl <;> decide

/-- A slot lies behind the application and before the pages of the assets. -/
theorem IsSlot.bounds (h : IsSlot slot) : appEnd ≤ slot ∧ slot + 1024 ≤ persistA := by
  rcases h with rfl | rfl <;> decide

/-- Two pages: a slot is a given one or the other. -/
theorem IsSlot.eq_or (h : IsSlot slot) {slot' : ℕ} (h' : IsSlot slot') :
    slot' = slot ∨ slot' = otherSlot slot := by
  rcases h with rfl | rfl <;> rcases h' with rfl | rfl <;> decide

/-- An update goes to a slot. -/
theorem isSlot_targetSlot (board : Board) (f : Mem) : IsSlot (targetSlot board f) :=
  authorizeTarget_eq _

/-! ## One slot -/

/-- What an authenticated slot holds: the marker, a valid header for this
device, and its tag. -/
structure Authentic (board : Board) (f : Mem) (slot : ℕ) : Prop where
  marker : f.half (slot + metaMarkerOffset) = metaMarkerCommitted
  structural : headerStructuralValid (slotHeader f slot) = true
  tag : slotTag f slot = (hmacHeader board.deusUpdateKey (slotHeader f slot)).toList
  target : headerTargetValid board (slotHeader f slot) = true

/-- A slot is authenticated with the version that its header names. -/
theorem metadataAuthenticated_eq_some {v : ℕ} :
    metadataAuthenticated board f slot = some v ↔
      Authentic board f slot ∧ imageVersion (slotHeader f slot) = v := by
  have htageq := bytesEqual_iff_eq (n := 32)
    (a := (hmacHeader board.deusUpdateKey (slotHeader f slot)).toList) (b := slotTag f slot)
    (by simp) (by simp [slotTag])
  simp only [metadataAuthenticated, htageq]
  constructor
  · intro h
    split at h
    · cases h
    rename_i hmark
    split at h
    · cases h
    rename_i hstr
    split at h
    · cases h
    rename_i htag
    split at h
    · cases h
    rename_i htar
    exact ⟨⟨not_not.1 hmark, not_not.1 hstr, (not_not.1 htag).symm, not_not.1 htar⟩,
      Option.some.inj h⟩
  · rintro ⟨⟨hmark, hstr, htag, htar⟩, rfl⟩
    simp [hmark, hstr, htag, htar]

theorem imageVersion_ne_zero {h : List UInt8} (hs : headerStructuralValid h = true) :
    imageVersion h ≠ 0 := by
  simp only [headerStructuralValid, Bool.and_eq_true, bne_iff_ne, ne_eq] at hs
  exact hs.2

/-- A header that is well formed names a length that the application's flash can
hold. -/
theorem imageLength_bounds {h : List UInt8} (hs : headerStructuralValid h = true) :
    8 ≤ imageLength h ∧ imageLength h ≤ appMaxBytes := by
  simp only [headerStructuralValid, Bool.and_eq_true, decide_eq_true_eq] at hs
  exact ⟨hs.1.1.1.2, hs.1.1.2⟩

/-- An authenticated slot counts with the version of its header. -/
theorem Authentic.slotVersion (h : Authentic board f slot) :
    slotVersion board f slot = imageVersion (slotHeader f slot) := by
  rw [Bootloader.slotVersion, metadataAuthenticated_eq_some.2 ⟨h, rfl⟩]
  rfl

/-- A slot counts for something exactly where it is authenticated. -/
theorem slotVersion_ne_zero : slotVersion board f slot ≠ 0 ↔ Authentic board f slot := by
  constructor
  · intro h
    cases hv : metadataAuthenticated board f slot with
    | none => simp [slotVersion, hv] at h
    | some v => exact (metadataAuthenticated_eq_some.1 hv).1
  · intro h
    rw [h.slotVersion]
    exact imageVersion_ne_zero h.structural

/-- Only a slot that is not authenticated counts with 0. -/
theorem slotVersion_eq_zero : slotVersion board f slot = 0 ↔ metadataAuthenticated board f slot = none := by
  constructor
  · intro h
    cases hv : metadataAuthenticated board f slot with
    | none => rfl
    | some v => exact absurd h (slotVersion_ne_zero.2 (metadataAuthenticated_eq_some.1 hv).1)
  · intro h
    rw [slotVersion, h]
    rfl

/-- Without its marker a slot counts for nothing. -/
theorem slotVersion_of_marker (h : f.half (slot + metaMarkerOffset) ≠ metaMarkerCommitted) :
    slotVersion board f slot = 0 := by
  by_contra hne
  exact h (slotVersion_ne_zero.1 hne).marker

/-- An erased slot counts with 0. -/
theorem slotVersion_of_blank (h : f.Blank slot 82) : slotVersion board f slot = 0 := by
  refine slotVersion_of_marker ?_
  rw [Nor.Mem.half_eq_ffff.2 (h.sub (by omega) (by simp [metaMarkerOffset]))]
  decide

theorem slotHeader_congr (h : ∀ i < 82, f (slot + i) = g (slot + i)) :
    slotHeader f slot = slotHeader g slot :=
  Nor.Mem.bytes_congr fun i hi => h i (by omega)

/-- **A slot is read from its first 82 bytes:** the header, the tag and the
marker. -/
theorem slotVersion_congr (h : ∀ i < 82, f (slot + i) = g (slot + i)) :
    slotVersion board f slot = slotVersion board g slot := by
  have hhead := slotHeader_congr h
  have htag : slotTag f slot = slotTag g slot := Nor.Mem.bytes_congr fun i hi => by
    rw [Nat.add_assoc]
    exact h (48 + i) (by omega)
  have hmark : f.half (slot + metaMarkerOffset) = g.half (slot + metaMarkerOffset) := by
    have h0 := h metaMarkerOffset (by simp [metaMarkerOffset])
    have h1 := h (metaMarkerOffset + 1) (by simp [metaMarkerOffset])
    rw [← Nat.add_assoc] at h1
    rw [Nor.Mem.half, Nor.Mem.half, h0, h1]
  simp only [slotVersion, metadataAuthenticated, hhead, htag, hmark]

/-! ## The application -/

theorem word_congr {a : ℕ} (h : ∀ i < 4, f (a + i) = g (a + i)) : word f a = word g a := by
  rw [word, word, Nor.Mem.bytes_congr h]

/-- The application check reads the image's own bytes. -/
theorem appMatchesHeader_congr {h : List UInt8} (h8 : 8 ≤ imageLength h)
    (hfg : ∀ i < imageLength h, f (appBase + i) = g (appBase + i)) :
    appMatchesHeader f h = appMatchesHeader g h := by
  have hdig : appDigest f (imageLength h) = appDigest g (imageLength h) := by
    rw [appDigest, appDigest, Nor.Mem.bytes_congr hfg]
  have hmsp : word f appBase = word g appBase := word_congr fun i hi => hfg i (by omega)
  have hreset : word f (appBase + 4) = word g (appBase + 4) := word_congr fun i hi => by
    rw [Nat.add_assoc]
    exact hfg (4 + i) (by omega)
  rw [appMatchesHeader, appMatchesHeader, hdig, vectorsValid, vectorsValid, hmsp, hreset]

theorem bootVersion_le (board : Board) (f : Mem) (slot : ℕ) :
    bootVersion board f slot ≤ slotVersion board f slot := by
  unfold bootVersion
  split <;> omega

/-- **A slot boots from its own bytes and the application's,** and from nothing
else. -/
theorem bootVersion_congr (h : ∀ i < 82, f (slot + i) = g (slot + i))
    (happ : ∀ i < appMaxBytes, f (appBase + i) = g (appBase + i)) :
    bootVersion board f slot = bootVersion board g slot := by
  have hver : slotVersion board f slot = slotVersion board g slot := slotVersion_congr h
  have hhead := slotHeader_congr h
  by_cases hz : slotVersion board f slot = 0
  · have h1 := bootVersion_le board f slot
    have h2 := bootVersion_le board g slot
    omega
  · have hlen := imageLength_bounds (slotVersion_ne_zero.1 hz).structural
    rw [bootVersion, bootVersion, hver, ← hhead,
      appMatchesHeader_congr hlen.1 fun i hi => happ i (by omega)]

/-! ## The scan -/

/-- **The floor the scan writes is the highest authenticated version,** whether
or not the application matches it. -/
theorem scan_versionFloor (f : Mem) : (scanFlash board f).versionFloor = floor board f := by
  unfold scanFlash floor slotVersion
  rcases metadataAuthenticated board f metaA with - | va <;>
    rcases metadataAuthenticated board f metaB with - | vb <;> simp only [Option.getD]
  · rfl
  · simp only [Nat.zero_le, if_true]
    split <;> simp
  · split <;> simp
  · by_cases hle : va ≤ vb
    · simp only [if_pos hle]
      split <;> split <;> simp [hle]
    · simp only [if_neg hle]
      split <;> split <;> simp <;> omega

/-- **The version it finds bootable is the highest one that boots,** which may
be below the floor. -/
theorem scan_committedVersion (f : Mem) :
    (scanFlash board f).committedVersion =
      max (bootVersion board f metaA) (bootVersion board f metaB) := by
  unfold scanFlash bootVersion slotVersion
  rcases metadataAuthenticated board f metaA with - | va <;>
    rcases metadataAuthenticated board f metaB with - | vb <;> simp only [Option.getD]
  · simp
  · split <;> split <;> simp_all
  · split <;> simp
  · cases appMatchesHeader f (slotHeader f metaA) <;>
      cases appMatchesHeader f (slotHeader f metaB) <;> simp <;> split <;> simp <;> omega

/-- The slot AUTHORIZE spares is the one that holds the floor, ties going
to the second page. -/
theorem targetSlot_eq (f : Mem) :
    targetSlot board f =
      if slotVersion board f metaB < slotVersion board f metaA then metaB else metaA := by
  unfold targetSlot scanFlash authorizeTarget
  have hA := @slotVersion_eq_zero board f metaA
  have hB := @slotVersion_eq_zero board f metaB
  unfold slotVersion at hA hB ⊢
  rcases hva : metadataAuthenticated board f metaA with - | va <;>
    rcases hvb : metadataAuthenticated board f metaB with - | vb <;>
    simp only [hva, hvb, Option.getD] at hA hB ⊢
  · rfl
  · simp only [Nat.zero_le, Nat.not_lt_zero, if_true, if_false]
    split <;> rfl
  · simp at hA
    split <;> simp <;> omega
  · by_cases hle : va ≤ vb
    · simp only [if_pos hle, if_neg (Nat.not_lt.2 hle)]
      split <;> split <;> simp [metaA, metaB]
    · simp only [if_neg hle, if_pos (Nat.lt_of_not_le hle)]
      split <;> split <;> simp

/-- **The slot AUTHORIZE spares counts for the whole floor.** The target is the
slot that does not hold the highest version, or slot A where both do. -/
theorem floor_eq_spared (f : Mem) :
    floor board f = slotVersion board f (otherSlot (targetSlot board f)) := by
  rw [targetSlot_eq, floor]
  split
  · rw [show otherSlot metaB = metaA from rfl]
    omega
  · rw [show otherSlot metaA = metaB from rfl]
    omega

/-- No slot is above the rollback floor. -/
theorem slotVersion_le_floor (h : IsSlot slot) : slotVersion board f slot ≤ floor board f := by
  rcases h with rfl | rfl <;> unfold floor <;> omega

/-- The floor over a given slot and the other one. -/
theorem floor_eq_max (h : IsSlot slot) (f : Mem) :
    floor board f = max (slotVersion board f slot) (slotVersion board f (otherSlot slot)) := by
  rcases h with rfl | rfl
  · rfl
  · exact Nat.max_comm _ _

/-- The scan finds the greater of the versions that boot. -/
theorem committedVersion_eq_max (h : IsSlot slot) (f : Mem) :
    (scanFlash board f).committedVersion =
      max (bootVersion board f slot) (bootVersion board f (otherSlot slot)) := by
  rw [scan_committedVersion]
  rcases h with rfl | rfl
  · rfl
  · exact Nat.max_comm _ _

/-- What the scan finds bootable, some slot boots. -/
theorem exists_boots (f : Mem) (h : (scanFlash board f).committedVersion ≠ 0) :
    ∃ slot, IsSlot slot ∧ Authentic board f slot ∧
      appMatchesHeader f (slotHeader f slot) = true ∧
      imageVersion (slotHeader f slot) = (scanFlash board f).committedVersion := by
  have hboots : ∀ slot, bootVersion board f slot ≠ 0 → Authentic board f slot ∧
      appMatchesHeader f (slotHeader f slot) = true ∧
      imageVersion (slotHeader f slot) = bootVersion board f slot := by
    intro slot hb
    unfold bootVersion at hb ⊢
    split at hb
    · rename_i hmatch
      have ha := slotVersion_ne_zero.1 hb
      exact ⟨ha, hmatch, by rw [if_pos hmatch, ha.slotVersion]⟩
    · exact absurd rfl hb
  rw [scan_committedVersion] at h ⊢
  rcases Nat.le_total (bootVersion board f metaA) (bootVersion board f metaB) with hle | hle
  · rw [Nat.max_eq_right hle] at h ⊢
    exact ⟨metaB, Or.inr rfl, hboots _ h⟩
  · rw [Nat.max_eq_left hle] at h ⊢
    exact ⟨metaA, Or.inl rfl, hboots _ h⟩

end Bootloader

end DeusOs
