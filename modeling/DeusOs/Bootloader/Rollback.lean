import DeusOs.Bootloader.Confinement

/-!
# The bootloader — no rollback

Two consequences of AUTHORIZE sparing the slot that holds the floor. The
floor never goes down, operation by operation, and no image below it is
authorized. And where the run began with no authenticated slot, what the
scan finds bootable is the newest version or nothing: two authenticated
slots stand side by side only after a commit, whose image the application
then holds.
-/

namespace DeusOs

namespace Bootloader

open Nor (Mem Op Machine Entry applyAll replay)

variable {board : Board} {s : Sys} {e : Event} {f : Mem}

/-! ## The floor -/

/-- **An operation never lowers the floor.** The slot that counts for it is not
the one that may be written, and image pages are in no slot. -/
theorem Placed.floor_le {en : Entry BootRam} (h : Placed board en)
    (hlen : imageLength en.ram.stagedHeader.toList ≤ appMaxBytes) :
    floor board en.flash ≤ floor board (en.op.apply en.flash) := by
  rcases h with happ | ⟨hslot, hne, hin⟩
  · refine Nat.le_of_eq (floor_congr fun x hx => (Op.apply_of_not_covers (fun hc => ?_) _).symm)
    have := (happ x hc).bounds hlen
    omega
  · refine floor_le_of_spared hslot (floor_eq_of_ne_highest hslot hne) fun x hx =>
      (Op.apply_of_not_covers (fun hc => ?_) _).symm
    have := hin x hc
    omega

theorem imageLength_le_of_issued (h : s.Inv board) {en : Entry BootRam}
    (hen : en ∈ s.issued board e) : imageLength en.ram.stagedHeader.toList ≤ appMaxBytes := by
  obtain ⟨hheader, -, hwhen⟩ := issued_ram h hen
  rw [hheader]
  rcases hwhen with ⟨⟨-, -, -, -, -, hstr, -⟩, -⟩ | ⟨hp, hl, -⟩
  · exact (imageLength_bounds hstr).2
  · have ho := (h hp).live hl
    rw [ho.header]
    exact (imageLength_bounds ho.structural).2

/-- Replaying entries none of which lowers the floor does not lower it. -/
theorem floor_le_replay {es : List (Entry BootRam)}
    (hflash : ∀ (i : ℕ) (h : i < es.length), es[i].flash = replay (es.take i) f)
    (hstep : ∀ en ∈ es, floor board en.flash ≤ floor board (en.op.apply en.flash)) :
    floor board f ≤ floor board (replay es f) := by
  induction es using List.reverseRecOn with
  | nil => exact Nat.le_refl _
  | append_singleton es en ih =>
    have hes : floor board f ≤ floor board (replay es f) := by
      refine ih (fun i hi => ?_) fun en' hen' => hstep en' (List.mem_append_left _ hen')
      have := hflash i (by simp; omega)
      rwa [List.getElem_append_left hi, List.take_append_of_le_length (Nat.le_of_lt hi)] at this
    have hlast : en.flash = replay es f := by
      have := hflash es.length (by simp)
      rwa [List.getElem_concat_length rfl, List.take_left] at this
    have hen := hstep en (List.mem_append_right _ (List.mem_singleton_self en))
    rw [hlast] at hen
    rw [Nor.replay_append, Nor.replay_cons, Nor.replay_nil]
    refine Nat.le_trans hes ?_
    unfold Entry.effect
    split
    · exact hen
    · exact Nat.le_refl _

/-- **A step never lowers the floor,** since none of its operations does. -/
theorem floor_step (h : s.Inv board) (e : Event) :
    floor board s.machine.flash ≤ floor board (s.step board e).machine.flash := by
  obtain ⟨r, plan, -, hran⟩ := step_work h e
  obtain ⟨es, hlog, hreplay, -, hflash, -⟩ := hran.log
  have hissued := issued_of_ran hlog
  rw [hreplay]
  refine floor_le_replay hflash fun en hen => ?_
  rw [← hissued] at hen
  exact (placed_of_issued h hen).floor_le (imageLength_le_of_issued h hen)

theorem floor_run (h : s.Inv board) (evs : List Event) :
    floor board s.machine.flash ≤ floor board (s.run board evs).machine.flash := by
  induction evs generalizing s with
  | nil => exact Nat.le_refl _
  | cons e evs ih => exact Nat.le_trans (floor_step h e) (ih (inv_step h e))

/-- An AUTHORIZE answered `ST_OK` passed every check of its own. -/
theorem authorizes_of_ok (h : s.Inv board) (hp : s.phase = .update) {rx : List UInt8}
    {tape : ℕ → Option Nor.Outcome} {m' : Machine BootRam} (hop : packetOpcode rx = opAuthorize)
    (hrun : processBulkPacket board rx { s.machine with tape } = .ok (some .ok) m') :
    Authorizes board s.machine (packetPayload rx) := by
  have hstep := Nor.wp_ok (packetStep_of_inv h hp rx tape) hrun
  generalize hm' : m' = m₂ at hstep
  cases hstep with
  | served _ hd =>
    have hauth := DispatchStep.handled (hd.of_authorize hop)
    cases hauth with
    | refused _ hst => simp at hst
    | unauthenticated _ _ hst => simp at hst
    | authorized ha _ => exact (authorizes_tape.1 ha)

/-- **The anti-rollback floor is monotone**, over every run and, inside a
step, over every operation that is issued; and the header of an accepted
AUTHORIZE is at or above the floor it met. -/
theorem floor_monotone_and_enforced (board : Board) (f : Mem) (evs : List Event) :
    let s := (Sys.unpowered f).run board evs
    (∀ evs', floor board s.machine.flash ≤ floor board (s.run board evs').machine.flash) ∧
    (∀ e, ∀ en ∈ s.issued board e,
      floor board s.machine.flash ≤ floor board en.flash ∧
      floor board en.flash ≤ floor board (en.op.apply en.flash)) ∧
    ∀ rx tape m', s.phase = .update → packetOpcode rx = opAuthorize →
      processBulkPacket board rx { s.machine with tape } = .ok (some .ok) m' →
      floor board s.machine.flash ≤ imageVersion s.machine.ram.stagedHeader.toList := by
  have hinv := inv_run board f evs
  refine ⟨fun evs' => floor_run hinv evs', fun e en hen => ?_, fun rx tape m' hp hop hrun =>
    versionRejected_floor (authorizes_of_ok hinv hp hop hrun).version⟩
  have hstep : ∀ en' ∈ ((Sys.unpowered f).run board evs).issued board e,
      floor board en'.flash ≤ floor board (en'.op.apply en'.flash) := fun en' hen' =>
    (placed_of_issued hinv hen').floor_le (imageLength_le_of_issued hinv hen')
  refine ⟨?_, hstep en hen⟩
  obtain ⟨r, plan, -, hran⟩ := step_work hinv e
  obtain ⟨es, hlog, -, -, hflash, -⟩ := hran.log
  rw [issued_of_ran hlog] at hen hstep
  obtain ⟨i, hi, rfl⟩ := List.mem_iff_getElem.1 hen
  rw [hflash i hi]
  refine floor_le_replay (fun k hk => ?_) fun en' hen' => hstep en' (List.mem_of_mem_take hen')
  have hk' : k < es.length := by simp at hk; omega
  have := hflash k hk'
  rw [List.take_take, List.getElem_take, this, Nat.min_eq_left (by simp at hk; omega)]

/-! ## What boots is the newest -/

variable (board) in
/-- Where both slots are authenticated, the newest version boots. -/
def NewestBoots (f : Mem) : Prop :=
  slotVersion board f metaA ≠ 0 → slotVersion board f metaB ≠ 0 →
    (scanFlash board f).committedVersion = floor board f

/-- Where a slot does not count, there is nothing to compare. -/
theorem NewestBoots.of_uncounted {slot : ℕ} (hslot : IsSlot slot)
    (h : slotVersion board f slot = 0) : NewestBoots board f := by
  intro hA hB
  rcases hslot with rfl | rfl
  · exact absurd h hA
  · exact absurd h hB

/-- Where at most one slot counts, what boots is that version or nothing. -/
theorem NewestBoots.committed (h : NewestBoots board f) :
    (scanFlash board f).committedVersion = 0 ∨
      (scanFlash board f).committedVersion = (scanFlash board f).versionFloor := by
  rw [scan_versionFloor]
  by_cases hboth : slotVersion board f metaA ≠ 0 ∧ slotVersion board f metaB ≠ 0
  · exact Or.inr (h hboth.1 hboth.2)
  · have hleA := bootVersion_le board f metaA
    have hleB := bootVersion_le board f metaB
    rw [scan_committedVersion, floor]
    have hcases : ∀ slot, bootVersion board f slot = 0 ∨
        bootVersion board f slot = slotVersion board f slot := fun slot => by
      unfold bootVersion
      split <;> simp
    rcases hcases metaA with hA | hA <;> rcases hcases metaB with hB | hB <;> omega

/-- **One step keeps it.** A slot is only ever marked for an image that is in
place and at or above the floor. -/
theorem newestBoots_step (h : s.Inv board) (hn : NewestBoots board s.machine.flash) (e : Event) :
    NewestBoots board (s.step board e).machine.flash := by
  obtain ⟨r, plan, hw, hran⟩ := step_work h e
  obtain ⟨j, hj⟩ := hran.flash
  cases hw with
  | none =>
    rw [List.take_nil, Nor.applyAll_nil] at hj
    rwa [hj]
  | authorize hp _ ha =>
    rcases j with - | j
    · rw [List.take_zero, Nor.applyAll_nil] at hj
      rwa [hj]
    · -- the erase took effect: the target counts for nothing
      refine .of_uncounted (isSlot_targetSlot board s.machine.flash) (slotVersion_of_blank ?_)
      rw [List.take_succ_cons, List.take_nil, Nor.applyAll_cons, Nor.applyAll_nil] at hj
      rw [hj]
      exact (Op.blank_apply_erase _ _ 1024).sub (Nat.le_refl _) (by omega)
  | data hp _ ha =>
    have ho := (h hp).live ha.live
    refine .of_uncounted ho.isSlot ?_
    have hb := ho.isSlot.bounds
    rw [slotVersion_congr fun i _ => hran.flash_of_not_covers fun o hop hc => ?_, ho.slotVersion]
    have := covers_chunkOps ha.fits hop hc
    have := ha.fits.app
    have := ha.fits.len_pos
    simp only [appBase, appEnd, appMaxBytes] at *
    omega
  | commit hp _ hc =>
    have ho := (h hp).live hc.live
    rw [hj]
    rcases ho.take_endOps j with hall | hpart
    · have hin := ho.installed hc
      rw [hall]
      exact fun _ _ => hin.committed.trans hin.floor.symm
    · exact .of_uncounted ho.isSlot hpart

/-- Over every run, the newest version boots. -/
theorem newestBoots_run (h : s.Inv board) (hn : NewestBoots board s.machine.flash)
    (evs : List Event) : NewestBoots board (s.run board evs).machine.flash := by
  induction evs generalizing s with
  | nil => exact hn
  | cons e evs ih => exact ih (inv_step h e) (newestBoots_step h hn e)

variable (board) in
/-- A scan of this flash ends with nothing bootable or with the floor, and
a hand-off from it is to an application that matches a slot of the highest
authenticated version. -/
structure BootsNewest (f : Mem) : Prop where
  scan : ∀ m, m.flash = f → Nor.wp (scanMetadata board)
    (fun _ m' => m'.ram.committedVersion = 0 ∨ m'.ram.committedVersion = m'.ram.versionFloor)
    (fun _ => False) m
  handoff : ∀ bkpDr1 bkpDr2 msp reset r, bootMain board f bkpDr1 bkpDr2 = .handoffApp msp reset r →
    ∃ slot, IsSlot slot ∧ metadataAuthenticated board f slot = some (floor board f) ∧
      appMatchesHeader f (slotHeader f slot) = true

theorem committed_ne_zero_of_handoff {d1 d2 msp reset : ℕ} {r : BootRam}
    (h : bootMain board f d1 d2 = .handoffApp msp reset r) :
    (scanFlash board f).committedVersion ≠ 0 := by
  simp only [bootMain] at h
  split at h
  · rename_i hc
    exact hc.2
  · cases h

theorem NewestBoots.bootsNewest (h : NewestBoots board f) : BootsNewest board f where
  scan m hm := by
    simp only [scanMetadata, Nor.wp_bind, Nor.wp_flash, Nor.wp_modifyRam, hm]
    exact h.committed
  handoff d1 d2 msp reset r hboot := by
    have hne := committed_ne_zero_of_handoff hboot
    obtain ⟨slot, hslot, hauth, happ, hver⟩ := exists_boots f hne
    refine ⟨slot, hslot, metadataAuthenticated_eq_some.2 ⟨hauth, ?_⟩, happ⟩
    rw [hver, ← scan_versionFloor]
    exact h.committed.resolve_left hne

/-- **What boots is never older than the newest committed image**, over every
run that begins with no authenticated slot: the scan finds nothing to boot or
the newest version, and an application that is handed over to matches an
authenticated slot of that version. -/
theorem boots_newest_or_nothing (board : Board) (f : Mem)
    (hf : ∀ slot, IsSlot slot → metadataAuthenticated board f slot = none) (evs : List Event) :
    BootsNewest board ((Sys.unpowered f).run board evs).machine.flash :=
  (newestBoots_run (inv_unpowered f)
    (.of_uncounted (Or.inl rfl) (slotVersion_eq_zero.2 (hf metaA (Or.inl rfl)))) evs).bootsNewest

/-- An erased flash has no authenticated slot. -/
theorem metadataAuthenticated_of_erased (board : Board) (slot : ℕ) :
    metadataAuthenticated board (fun _ => 0xFF) slot = none :=
  slotVersion_eq_zero.1 (slotVersion_of_blank fun _ _ => rfl)

end Bootloader

end DeusOs
