import DeusOs.Bootloader.Runs

/-!
# The bootloader — the commit, halfword by halfword

END programs the header, the tag and then the marker into the slot
AUTHORIZE erased. Up to the marker the slot counts for nothing, wherever
the plan stops; with the marker it is authentic, its version is the floor
and the application matches it.
-/

namespace DeusOs

namespace Bootloader

open Nor (Mem Op Machine Entry applyAll programOps replay)

variable {board : Board} {f : Mem} {slot : ℕ} {header tag : List UInt8}

/-- The programs of the commit that come before the marker. -/
def recordOps (slot : ℕ) (header tag : List UInt8) : List Op :=
  programOps slot header ++ programOps (slot + 48) tag

theorem metadataOps_eq (slot : ℕ) (header tag : List UInt8) :
    metadataOps slot header tag =
      recordOps slot header tag ++ [.program (slot + metaMarkerOffset) metaMarkerCommitted] := by
  simp [metadataOps, recordOps]

theorem covers_recordOps (hh : header.length = 48) (ht : tag.length = 32) {o : Op}
    (ho : o ∈ recordOps slot header tag) {x : ℕ} (hx : o.Covers x) : slot ≤ x ∧ x < slot + 80 := by
  rcases List.mem_append.1 ho with ho | ho
  · have := Nor.covers_programOps ho hx
    omega
  · have := Nor.covers_programOps ho hx
    omega

/-- **Before the marker the slot counts for nothing,** however much of the
record is programmed: the scan asks for the marker first. -/
theorem slotVersion_of_recordOps (hh : header.length = 48) (ht : tag.length = 32)
    (hf : f.Blank slot 82) {ops : List Op} (hops : ∀ o ∈ ops, o ∈ recordOps slot header tag) :
    slotVersion board (applyAll ops f) slot = 0 := by
  have hout : ∀ k, 80 ≤ k → k < 82 → applyAll ops f (slot + k) = 0xFF := fun k hk hk' => by
    rw [Nor.applyAll_of_not_covers fun o ho hx => ?_]
    · exact hf k hk'
    · have := covers_recordOps hh ht (hops o ho) hx
      omega
  refine slotVersion_of_marker ?_
  have h0 := hout 80 (by omega) (by omega)
  have h1 := hout 81 (by omega) (by omega)
  have hff : (applyAll ops f).half (slot + metaMarkerOffset) = 0xFFFF :=
    Nor.le16_eq_ffff.2 ⟨h0, h1⟩
  rw [hff]
  decide

/-- What an erased slot holds once the whole plan is done. -/
theorem applyAll_metadataOps (hh : header.length = 48) (ht : tag.length = 32)
    (hf : f.Blank slot 82) :
    slotHeader (applyAll (metadataOps slot header tag) f) slot = header ∧
      slotTag (applyAll (metadataOps slot header tag) f) slot = tag ∧
      (applyAll (metadataOps slot header tag) f).half (slot + metaMarkerOffset) =
        metaMarkerCommitted := by
  simp only [metadataOps, Nor.applyAll_append, Nor.applyAll_cons, Nor.applyAll_nil]
  set f₁ := applyAll (programOps slot header) f with hf₁
  set f₂ := applyAll (programOps (slot + 48) tag) f₁ with hf₂
  have hblank : f₁.Blank (slot + 48) tag.length := fun i hi => by
    rw [hf₁, Nor.applyAll_programOps_of_outside (Or.inr (by omega))]
    exact hf.sub (b := slot + 48) (k := tag.length) (by omega) (by omega) i hi
  have hheader : f₁.bytes slot 48 = header := by
    have := Nor.bytes_applyAll_programOps (by omega)
      (hf.sub (k := header.length) (Nat.le_refl slot) (by omega))
    rwa [← hf₁, hh] at this
  have htag : f₂.bytes (slot + 48) 32 = tag := by
    have := Nor.bytes_applyAll_programOps (by omega) hblank
    rwa [← hf₂, ht] at this
  -- the marker is beyond both, the tag beyond the header
  have hmark : ∀ x, x < slot + 80 →
      (Op.program (slot + metaMarkerOffset) metaMarkerCommitted).apply f₂ x = f₂ x := fun x hx =>
    Op.apply_of_not_covers (by simp only [Op.Covers, metaMarkerOffset]; omega) f₂
  refine ⟨?_, ?_, Op.half_apply_program _ _ (by decide)⟩
  · refine (Nor.Mem.bytes_congr fun i hi => ?_).trans hheader
    rw [hmark _ (by omega), hf₂, Nor.applyAll_programOps_of_outside (Or.inl (by omega))]
  · exact (Nor.Mem.bytes_congr fun i hi => hmark _ (by omega)).trans htag

variable {m : Machine BootRam} {s : Session}

/-- What END issues in a session is the record of its header and tag. -/
theorem Open.endOps_eq (h : Open board m s) : endOps m.ram = metadataOps s.slot s.header s.tag := by
  rw [endOps, h.header, h.tag, h.slot]

theorem Open.length_header (h : Open board m s) : s.header.length = 48 := by
  rw [← h.header, Vector.length_toList]

theorem Open.length_tag (h : Open board m s) : s.tag.length = 32 := by
  rw [← h.tag, Vector.length_toList]

/-- The slot of a session is erased until its END. -/
theorem Open.blank (h : Open board m s) : m.flash.Blank s.slot 82 :=
  h.erased.sub (Nat.le_refl _) (by omega)

/-- While a session is open its slot counts for nothing. -/
theorem Open.slotVersion (h : Open board m s) : slotVersion board m.flash s.slot = 0 :=
  slotVersion_of_blank h.blank

/-- And the other one holds the floor. -/
theorem Open.floor_eq (h : Open board m s) :
    floor board m.flash = Bootloader.slotVersion board m.flash (otherSlot s.slot) := by
  rw [floor_eq_max h.isSlot, h.slotVersion]
  exact Nat.zero_max _

/-- The commit stays inside its slot. -/
theorem Open.covers_endOps (h : Open board m s) {o : Op} (ho : o ∈ endOps m.ram) {x : ℕ}
    (hx : o.Covers x) : s.slot ≤ x ∧ x < s.slot + 82 := by
  rw [h.endOps_eq] at ho
  exact covers_metadataOps h.length_header h.length_tag ho hx

/-- What END issues leaves everything outside of the slot's record. -/
theorem Open.applyAll_endOps_of_outside (h : Open board m s) {ops : List Op}
    (hops : ∀ o ∈ ops, o ∈ endOps m.ram) {x : ℕ} (hx : x < s.slot ∨ s.slot + 82 ≤ x) (f : Mem) :
    applyAll ops f x = f x :=
  Nor.applyAll_of_not_covers (fun o ho hc => by
    have := h.covers_endOps (hops o ho) hc
    omega) f

/-- What the flash says once END has written the whole record: the slot is
authentic and holds the staged header and tag, the application matches
it, and its version is both the floor and what boots. -/
structure Installed (board : Board) (f : Mem) (s : Session) : Prop where
  header : slotHeader f s.slot = s.header
  tag : slotTag f s.slot = s.tag
  authentic : Authentic board f s.slot
  app : appMatchesHeader f s.header = true
  floor : floor board f = imageVersion s.header
  committed : (scanFlash board f).committedVersion = imageVersion s.header

/-- **The whole commit installs the session:** the record is authenticated, and
the application in the flash is the one it describes. -/
theorem Open.installed (h : Open board m s) (hc : Commits m) :
    Installed board (applyAll (endOps m.ram) m.flash) s := by
  obtain ⟨hheader, htag, hmark⟩ := applyAll_metadataOps h.length_header h.length_tag h.blank
  rw [← h.endOps_eq] at hheader htag hmark
  set f' := applyAll (endOps m.ram) m.flash
  have hout : ∀ x, x < s.slot ∨ s.slot + 82 ≤ x → f' x = m.flash x := fun x hx =>
    h.applyAll_endOps_of_outside (fun o ho => ho) hx m.flash
  have hbounds := h.isSlot.bounds
  have hap := h.isSlot.apart
  have hlen := imageLength_bounds h.structural
  have hauth : Authentic board f' s.slot :=
    ⟨hmark, by rw [hheader]; exact h.structural, by rw [htag, hheader]; exact h.authentic,
      by rw [hheader]; exact h.target⟩
  have happ : appMatchesHeader f' s.header = true := by
    rw [← h.header, ← hc.readBack, h.header]
    refine appMatchesHeader_congr hlen.1 fun i hi => hout _ (Or.inl ?_)
    simp only [appBase, appEnd, appMaxBytes] at *
    omega
  have hver : Bootloader.slotVersion board f' s.slot = imageVersion s.header := by
    rw [hauth.slotVersion, hheader]
  have hboot : bootVersion board f' s.slot = imageVersion s.header := by
    rw [bootVersion, hheader, if_pos happ, hver]
  have hother : Bootloader.slotVersion board f' (otherSlot s.slot) ≤ imageVersion s.header := by
    rw [slotVersion_congr fun i _ => hout (otherSlot s.slot + i) (by omega), ← h.floor_eq]
    exact h.version
  have hle := bootVersion_le board f' (otherSlot s.slot)
  exact
    { header := hheader
      tag := htag
      authentic := hauth
      app := happ
      floor := by rw [floor_eq_max h.isSlot, hver]; exact Nat.max_eq_left hother
      committed := by
        rw [committedVersion_eq_max h.isSlot, hboot]
        exact Nat.max_eq_left (Nat.le_trans hle hother) }

/-- **A commit that stops early leaves the slot uncounted.** The marker is the
last operation: it is all done, or the marker is missing. -/
theorem Open.take_endOps (h : Open board m s) (j : ℕ) :
    applyAll ((endOps m.ram).take j) m.flash = applyAll (endOps m.ram) m.flash ∨
      Bootloader.slotVersion board (applyAll ((endOps m.ram).take j) m.flash) s.slot = 0 := by
  rw [h.endOps_eq, metadataOps_eq]
  by_cases hj : j ≤ (recordOps s.slot s.header s.tag).length
  · refine Or.inr (slotVersion_of_recordOps h.length_header h.length_tag h.blank fun o ho => ?_)
    rw [List.take_append_of_le_length hj] at ho
    exact List.mem_of_mem_take ho
  · left
    rw [List.take_of_length_le (by simp; omega)]

/-- **Every operation of the commit is issued before the marker is
programmed**: in the flash it meets, the slot counts for nothing. -/
theorem Open.issued_uncounted (h : Open board m s) {es : List (Entry BootRam)}
    (hes : es.map Entry.op <+: endOps m.ram) {i : ℕ} (hi : i < es.length) :
    Bootloader.slotVersion board (replay (es.take i) m.flash) s.slot = 0 := by
  rw [h.endOps_eq, metadataOps_eq] at hes
  have hlen := hes.length_le
  have htake : (es.take i).map Entry.op = (recordOps s.slot s.header s.tag).take i := by
    rw [List.map_take, List.prefix_iff_eq_take.1 hes, List.take_take, Nat.min_eq_left (by simp; omega),
      List.take_append_of_le_length (by simp at hlen; omega)]
  refine slotVersion_of_marker ?_
  have hout : ∀ k, 80 ≤ k → k < 82 → replay (es.take i) m.flash (s.slot + k) = 0xFF :=
    fun k hk hk' => by
      rw [Nor.replay_of_not_covers fun e he _ hx => ?_]
      · exact h.blank k hk'
      · have hmem : e.op ∈ (es.take i).map Entry.op := List.mem_map_of_mem he
        rw [htake] at hmem
        have := covers_recordOps h.length_header h.length_tag (List.mem_of_mem_take hmem) hx
        omega
  have hff : (replay (es.take i) m.flash).half (s.slot + metaMarkerOffset) = 0xFFFF :=
    Nor.le16_eq_ffff.2 ⟨hout 80 (by omega) (by omega), hout 81 (by omega) (by omega)⟩
  rw [hff]
  decide

end Bootloader

end DeusOs
