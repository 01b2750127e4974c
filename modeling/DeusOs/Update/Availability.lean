import DeusOs.Bootloader.Spared
import DeusOs.Update.Signed

/-!
# The update link — when AUTHORIZE bricks a device

The one case in which an AUTHORIZE leaves a bootable device with nothing
to boot, and a history that reaches it: two different images signed with
one version, the second installed by recovery over the first. Before that,
two installs that go well, and what the theorems say of them.
-/

namespace DeusOs

namespace Update

open Bootloader Host
open LittleEndian (write32)
open Nor (Mem Outcome applyAll)

/-- **AUTHORIZE keeps a bootable device bootable, but for one case**: over
every run that begins with no authenticated slot, the erase of an
AUTHORIZE leaves nothing to boot exactly where both slots hold one version
and only the erased one boots. -/
theorem authorize_keeps_booting_iff (board : Board) (f : Mem)
    (hf : ∀ slot, IsSlot slot → metadataAuthenticated board f slot = none) (evs : List Event)
    (rx : List UInt8) (tape : ℕ → Option Outcome) (hop : packetOpcode rx = opAuthorize) :
    KeepsBooting board ((Sys.unpowered f).run board evs) (.packet rx tape) ↔
      ¬ (Erases board ((Sys.unpowered f).run board evs) rx tape ∧
        Endangered board ((Sys.unpowered f).run board evs).machine.flash) := by
  have hn₀ : NewestBoots board (Sys.unpowered f).machine.flash :=
    .of_uncounted (Or.inl rfl) (slotVersion_eq_zero.2 (hf metaA (Or.inl rfl)))
  exact keepsBooting_iff (inv_run board f evs) (newestBoots_run (inv_unpowered f) hn₀ evs) hop

/-! ## A history that reaches it -/

/-- A board with the zero key. -/
def zeroBoard : Board := ⟨Vector.replicate 32 0, targetDeviceId⟩

/-- An erased flash. -/
def erased : Mem := fun _ => 0xFF

/-- A reset that finds the token, and the host's configuration. -/
def enter : List Event := [.reset 0xD35A 0x2CA5, .configure 1]

variable {board : Board} {s : Sys} {f : Mem} {v : ℕ} {image : List UInt8}

/-- A reset with the token and a configuration bring the bootloader to wait,
with the flash as it was. -/
theorem run_enter (h : s.Inv board) :
    Waiting board (s.run board enter) ∧ (s.run board enter).machine.flash = s.machine.flash := by
  have hf := (@flash_of_configure board (s.step board (.reset 0xD35A 0x2CA5)) 1).trans
    (flash_of_reset s 0xD35A 0x2CA5)
  exact ⟨(waiting_of_token h).configure 1, hf⟩

theorem slotVersion_erased (board : Board) (slot : ℕ) : slotVersion board erased slot = 0 :=
  slotVersion_eq_zero.2 (metadataAuthenticated_of_erased board slot)

theorem floor_erased (board : Board) : floor board erased = 0 := by
  rw [floor, slotVersion_erased, slotVersion_erased]
  rfl

theorem versionRejected_of_floor_lt (h : floor board f < v) :
    versionRejected (scanFlash board f) v = false := by
  unfold versionRejected
  rw [scan_versionFloor]
  split <;> simp only [decide_eq_false_iff_not] <;> omega

theorem versionRejected_of_recovery (hc : (scanFlash board f).committedVersion = 0)
    (h : floor board f ≤ v) : versionRejected (scanFlash board f) v = false := by
  unfold versionRejected
  rw [scan_versionFloor, hc]
  simp only [ne_eq, not_true_eq_false, if_false, decide_eq_false_iff_not]
  omega

theorem not_appMatches {h : List UInt8} (hv : vectorsValid f (imageLength h) = false) :
    appMatchesHeader f h = false := by
  rw [appMatchesHeader, hv, Bool.and_false]

/-- The reset vector at the start of the image. -/
def imageLow : List UInt8 := write32 ramEnd ++ write32 (appBase + 1)

/-- The reset vector beyond the first eight bytes. -/
def imageHigh : List UInt8 := write32 ramEnd ++ write32 (appBase + 9) ++ List.replicate 8 0

/-- Bytes with no stack pointer. -/
def imageZero : List UInt8 := List.replicate 8 0

/-- Two installs. -/
def upgradeEvents : List Event :=
  enter ++ installEvents zeroBoard 1 imageLow ++ (enter ++ installEvents zeroBoard 2 imageLow)

/-- Two installs, an update broken off after its first chunk, and a
recovery that installs another image with the version of the second. -/
def history : List Event :=
  upgradeEvents ++
  (enter ++ startEvents zeroBoard (imageHeader 3 imageLow) imageZero) ++
  (enter ++ installEvents zeroBoard 2 imageHigh)

theorem oneChunk_imageLow : OneChunk imageLow :=
  ⟨by decide, by decide, by decide, by decide, by decide⟩

theorem oneChunk_imageHigh : OneChunk imageHigh :=
  ⟨by decide, by decide, by decide, by decide, by decide⟩

/-- An install from any state between two sessions. -/
theorem run_enter_install (v : ℕ) (image : List UInt8) (h : s.Inv zeroBoard)
    (hv : v < 4294967296) (hv0 : v ≠ 0)
    (hi : OneChunk image)
    (hver : versionRejected (scanFlash zeroBoard s.machine.flash) v = false) :
    (s.run zeroBoard (enter ++ installEvents zeroBoard v image)).Inv zeroBoard ∧
      Holds zeroBoard v image (targetSlot zeroBoard s.machine.flash)
        (s.run zeroBoard (enter ++ installEvents zeroBoard v image)).machine.flash ∧
      ∀ i < 82, (s.run zeroBoard (enter ++ installEvents zeroBoard v image)).machine.flash
          (otherSlot (targetSlot zeroBoard s.machine.flash) + i) =
        s.machine.flash (otherSlot (targetSlot zeroBoard s.machine.flash) + i) := by
  obtain ⟨hw, hf⟩ := run_enter h
  have hinst := run_installEvents v image hw (by decide) hv hv0 hi
    (by rw [hf]; exact hver)
  rw [hf, ← run_append] at hinst
  exact hinst

/-- A first install, up to its END. -/
def startedLow : Sys :=
  (Sys.unpowered erased).run zeroBoard
    (enter ++ startEvents zeroBoard (imageHeader 1 imageLow) imageLow)

/-- Its END is answered `ST_OK`, and the image is committed. -/
theorem end_commits_exactly_imageLow : ∃ m',
    processBulkPacket zeroBoard (endRequest 4) { startedLow.machine with tape := good } =
        .ok (some .ok) m' ∧
      Authentic zeroBoard m'.flash startedLow.session.slot ∧
      Committed zeroBoard m'.flash startedLow.session ∧
      startedLow.session.received = imageLow := by
  have hinv : (Sys.unpowered erased).Inv zeroBoard := inv_unpowered erased
  obtain ⟨hw, hf⟩ := run_enter hinv
  obtain ⟨mark, hr, hflash⟩ := run_startEvents imageLow hw (length_imageHeader 1 imageLow)
    (headerStructuralValid_imageHeader _ _ (by decide) (by decide) (by decide) (by decide) (by decide))
    (headerTargetValid_imageHeader _ _ rfl)
    (by
      rw [imageVersion_imageHeader _ _ (by decide), hf]
      exact versionRejected_of_floor_lt (f := erased) (by rw [floor_erased]; decide))
    oneChunk_imageLow.fits (Nat.le_of_eq (imageLength_imageHeader _ _ (by decide)).symm)
  rw [← run_append] at hr hflash
  change Receiving zeroBoard _ startedLow at hr
  have happ : startedLow.machine.flash.bytes appBase imageLow.length = imageLow := by
    rw [startedLow, hflash, Nor.applyAll_cons]
    exact bytes_applyAll_chunkOps oneChunk_imageLow.fits fun hne => absurd rfl hne
  have hlen := imageLength_imageHeader 1 imageLow (by decide)
  obtain ⟨-, -, -, -, m', hrun, -⟩ := step_end 4 good hr (by simp [IsId])
    (by rw [hlen]; simp [Session.received])
    (by rw [imageDigest_imageHeader]; simp [Session.received])
    (by rw [hlen, vectorsValid_of_bytes imageLow happ (by decide)]; exact oneChunk_imageLow.vectors)
    fun _ => rfl
  have hreq : IsRequest opEnd (endRequest 4) := isRequest_request (by simp [IsId]) (by simp)
  have hexact : CommitsExactly zeroBoard startedLow := end_commits_exactly zeroBoard erased _
  obtain ⟨hauth, hcom⟩ := hexact.ok _ _ _ hr.phase hreq.opcode hrun
  exact ⟨_, hrun, hauth, hcom, by rw [hr.session]; simp [Session.received]⟩

/-- What the slots hold after two installs. -/
structure Upgraded (s : Sys) : Prop where
  inv : s.Inv zeroBoard
  first : slotVersion zeroBoard s.machine.flash metaA = 1
  second : slotVersion zeroBoard s.machine.flash metaB = 2
  record : slotHeader s.machine.flash metaB = imageHeader 2 imageLow
  boots : appMatchesHeader s.machine.flash (imageHeader 2 imageLow) = true

theorem upgraded : Upgraded ((Sys.unpowered erased).run zeroBoard upgradeEvents) := by
  have hA := slotVersion_erased zeroBoard metaA
  have hB := slotVersion_erased zeroBoard metaB
  -- the first install goes to the first slot
  have ht : targetSlot zeroBoard erased = metaA := by
    rw [targetSlot_eq, if_neg (by omega)]
  obtain ⟨hinv, hholds, hout⟩ := run_enter_install 1 imageLow
    (inv_unpowered erased) (by decide) (by decide) oneChunk_imageLow
    (versionRejected_of_floor_lt (f := erased) (by rw [floor_erased]; decide))
  rw [upgradeEvents, run_append]
  set s₁ := (Sys.unpowered erased).run zeroBoard (enter ++ installEvents zeroBoard 1 imageLow)
  have hf : (Sys.unpowered erased).machine.flash = erased := rfl
  rw [hf, ht] at hholds hout
  have hA₁ := hholds.counts
  have hB₁ : slotVersion zeroBoard s₁.machine.flash metaB = 0 := (slotVersion_congr hout).trans hB
  -- and the second to the second
  have ht₁ : targetSlot zeroBoard s₁.machine.flash = metaB := by
    rw [targetSlot_eq, if_pos (by omega)]
  obtain ⟨hinv₂, hholds₂, hout₂⟩ := run_enter_install 2 imageLow
    hinv (by decide) (by decide) oneChunk_imageLow
    (versionRejected_of_floor_lt (by rw [floor]; omega))
  rw [ht₁] at hholds₂ hout₂
  exact ⟨hinv₂, (slotVersion_congr hout₂).trans hA₁, hholds₂.counts, hholds₂.record, hholds₂.boots⟩

/-- After the upgrade, the rollback floor is 2. -/
theorem Upgraded.floor (h : Upgraded s) : floor zeroBoard s.machine.flash = 2 := by
  rw [Bootloader.floor, h.first, h.second]
  rfl

/-- The second image boots. -/
theorem Upgraded.bootable (h : Upgraded s) :
    (scanFlash zeroBoard s.machine.flash).committedVersion ≠ 0 := by
  have hB : bootVersion zeroBoard s.machine.flash metaB = 2 := by
    rw [bootVersion, h.record, if_pos h.boots, h.second]
  rw [scan_committedVersion, hB]
  omega

/-- After two installs the device boots the second. -/
theorem boots_newest_or_nothing_upgraded :
    slotVersion zeroBoard ((Sys.unpowered erased).run zeroBoard upgradeEvents).machine.flash metaB = 2 ∧
      (scanFlash zeroBoard
        ((Sys.unpowered erased).run zeroBoard upgradeEvents).machine.flash).committedVersion ≠ 0 ∧
      BootsNewest zeroBoard ((Sys.unpowered erased).run zeroBoard upgradeEvents).machine.flash :=
  ⟨upgraded.second, upgraded.bootable, boots_newest_or_nothing zeroBoard erased
    (fun slot _ => metadataAuthenticated_of_erased zeroBoard slot) upgradeEvents⟩

/-- A device begins an update from any state between two sessions. -/
theorem run_enter_begin {header : List UInt8} (h : s.Inv board) (hlen : header.length = 48)
    (hv : headerStructuralValid header = true) :
    Staged board header (s.run board (enter ++ exchange (beginRequest 1 header))) ∧
      (s.run board (enter ++ exchange (beginRequest 1 header))).machine.flash = s.machine.flash := by
  obtain ⟨hw, hf⟩ := run_enter h
  obtain ⟨hs, hf', -⟩ := step_begin 1 good hw (by simp [IsId]) hlen hv
  rw [run_append, run_exchange, flash_of_inComplete, hf', hf]
  exact ⟨hs.inComplete, rfl⟩

theorem length_structural_imageHeader_three : (imageHeader 3 imageLow).length = 48 ∧
    headerStructuralValid (imageHeader 3 imageLow) = true :=
  ⟨length_imageHeader 3 imageLow, headerStructuralValid_imageHeader _ _ (by decide) (by decide)
    (by decide) (by decide) (by decide)⟩

/-- The third version passes every check of AUTHORIZE above the second. -/
theorem erases_imageHeader_three (h : Staged zeroBoard (imageHeader 3 imageLow) s)
    (hfloor : floor zeroBoard s.machine.flash = 2) : Erases zeroBoard s
      (authorizeRequest 2 (headerTag zeroBoard (imageHeader 3 imageLow))) good := by
  have hauth : Authorizes zeroBoard s.machine
      (packetPayload (authorizeRequest 2 (headerTag zeroBoard (imageHeader 3 imageLow)))) :=
    h.authorizes rfl (headerTargetValid_imageHeader _ _ rfl) (versionRejected_of_floor_lt (by
      rw [hfloor, imageVersion_imageHeader _ _ (by decide)]
      decide))
  exact ⟨h.phase, isRequest_request (by simp [IsId]) (by simp [headerTag]), hauth, _, rfl, rfl⟩

/-- The third version's header staged, on a device with two installs. -/
def nextEvents : List Event :=
  upgradeEvents ++ (enter ++ exchange (beginRequest 1 (imageHeader 3 imageLow)))

/-- There the AUTHORIZE erases a slot, and the device boots on. -/
theorem authorize_keeps_booting_iff_upgraded :
    (scanFlash zeroBoard
        ((Sys.unpowered erased).run zeroBoard nextEvents).machine.flash).committedVersion ≠ 0 ∧
      Erases zeroBoard ((Sys.unpowered erased).run zeroBoard nextEvents)
        (authorizeRequest 2 (headerTag zeroBoard (imageHeader 3 imageLow))) good ∧
      KeepsBooting zeroBoard ((Sys.unpowered erased).run zeroBoard nextEvents)
        (.packet (authorizeRequest 2 (headerTag zeroBoard (imageHeader 3 imageLow))) good) := by
  obtain ⟨hlen, hv⟩ := length_structural_imageHeader_three
  obtain ⟨hs, hflash⟩ := run_enter_begin upgraded.inv hlen hv
  rw [← run_append] at hs hflash
  refine ⟨by rw [nextEvents, hflash]; exact upgraded.bootable,
    erases_imageHeader_three hs (by rw [nextEvents, hflash]; exact upgraded.floor),
    (authorize_keeps_booting_iff zeroBoard erased
      (fun slot _ => metadataAuthenticated_of_erased zeroBoard slot) nextEvents _ _
      (packetOpcode_request _ _ _ (by simp))).2 fun hboth => ?_⟩
  -- the two slots hold two versions
  have hsame := hboth.2.2.1
  rw [nextEvents, hflash, upgraded.first, upgraded.second] at hsame
  exact absurd hsame (by decide)

/-- What they hold once the next update has been broken off. -/
structure BrokenOff (s : Sys) : Prop where
  inv : s.Inv zeroBoard
  first : slotVersion zeroBoard s.machine.flash metaA = 0
  second : slotVersion zeroBoard s.machine.flash metaB = 2
  record : slotHeader s.machine.flash metaB = imageHeader 2 imageLow
  app : s.machine.flash.bytes appBase imageZero.length = imageZero

theorem fits_imageZero : ChunkFits 0 imageZero :=
  ⟨by decide, by decide, by decide, by decide, by decide, by decide⟩

theorem Upgraded.brokenOff (h : Upgraded s) : BrokenOff (s.run zeroBoard
    (enter ++ startEvents zeroBoard (imageHeader 3 imageLow) imageZero)) := by
  obtain ⟨hw, hf⟩ := run_enter h.inv
  have ht : targetSlot zeroBoard s.machine.flash = metaA := by
    rw [targetSlot_eq, h.first, h.second]
    rfl
  obtain ⟨mark, hr, hflash⟩ := run_startEvents imageZero hw
    (length_imageHeader 3 imageLow)
    length_structural_imageHeader_three.2
    (headerTargetValid_imageHeader _ _ rfl)
    (by
      rw [imageVersion_imageHeader _ _ (by decide), hf]
      exact versionRejected_of_floor_lt (by rw [h.floor]; decide))
    fits_imageZero (by rw [imageLength_imageHeader _ _ (by decide)]; decide)
  rw [hf, ht] at hflash
  rw [run_append]
  set s₁ := (s.run zeroBoard enter).run zeroBoard
    (startEvents zeroBoard (imageHeader 3 imageLow) imageZero)
  -- the chunk stays in the application, the erase in the first slot
  have hchunk : ∀ x, appEnd ≤ x → s₁.machine.flash x =
      (Nor.Op.erase metaA 1024).apply s.machine.flash x := fun x hx => by
    rw [hflash, Nor.applyAll_cons]
    refine Nor.applyAll_of_not_covers (fun o ho hc => ?_) _
    have := covers_chunkOps fits_imageZero ho hc
    simp only [appBase, appEnd] at *
    omega
  have hsecond : ∀ i < 82, s₁.machine.flash (metaB + i) = s.machine.flash (metaB + i) :=
    fun i hi => by
      rw [hchunk _ (by simp only [appEnd, metaB]; omega)]
      exact Nor.Op.apply_of_not_covers (by simp only [Nor.Op.Covers, metaA, metaB]; omega) _
  exact
    { inv := hr.inv
      first := slotVersion_of_blank fun i hi => by
        rw [hchunk _ (by simp only [appEnd, metaA]; omega)]
        exact Nor.Op.blank_apply_erase _ metaA 1024 i (by omega)
      second := (slotVersion_congr hsecond).trans h.second
      record := (slotHeader_congr hsecond).trans h.record
      app := by
        rw [hflash, Nor.applyAll_cons]
        exact bytes_applyAll_chunkOps fits_imageZero fun hne => absurd rfl hne }

/-- **The recovery leaves the flash endangered.** -/
theorem BrokenOff.endangered (h : BrokenOff s) :
    (s.run zeroBoard (enter ++ installEvents zeroBoard 2 imageHigh)).Inv zeroBoard ∧
      Endangered zeroBoard
        (s.run zeroBoard (enter ++ installEvents zeroBoard 2 imageHigh)).machine.flash ∧
      floor zeroBoard
        (s.run zeroBoard (enter ++ installEvents zeroBoard 2 imageHigh)).machine.flash = 2 := by
  have hlow : imageLength (imageHeader 2 imageLow) = 8 := imageLength_imageHeader _ _ (by decide)
  have hvec : vectorsValid s.machine.flash 8 = false :=
    (vectorsValid_of_bytes imageZero h.app (by decide)).trans (by decide)
  have hc : (scanFlash zeroBoard s.machine.flash).committedVersion = 0 := by
    have hA := bootVersion_le zeroBoard s.machine.flash metaA
    have hB : bootVersion zeroBoard s.machine.flash metaB = 0 := by
      rw [bootVersion, h.record, if_neg]
      rw [not_appMatches (by rw [hlow]; exact hvec)]
      decide
    rw [h.first] at hA
    rw [scan_committedVersion, hB, Nat.le_zero.1 hA]
    rfl
  have ht : targetSlot zeroBoard s.machine.flash = metaA := by
    rw [targetSlot_eq, h.first, h.second]
    rfl
  obtain ⟨hinv, hholds, hout⟩ := run_enter_install 2 imageHigh h.inv (by decide)
    (by decide) oneChunk_imageHigh
    (versionRejected_of_recovery hc (by rw [floor, h.first, h.second]; decide))
  rw [ht] at hholds
  rw [ht, show otherSlot metaA = metaB from rfl] at hout
  set s₁ := s.run zeroBoard (enter ++ installEvents zeroBoard 2 imageHigh)
  have hsecond := (slotVersion_congr hout).trans h.second
  refine ⟨hinv, ⟨?_, ?_, ?_, ?_⟩, by rw [floor, hholds.counts, hsecond]; rfl⟩
  · rw [hholds.counts]
    decide
  · rw [hholds.counts, hsecond]
  · rw [hholds.record]
    exact hholds.boots
  · rw [(slotHeader_congr hout).trans h.record]
    refine not_appMatches ?_
    -- the first eight bytes point the reset vector beyond themselves
    have happ : s₁.machine.flash.bytes appBase 8 = imageHigh.take 8 := by
      have := congrArg (List.take 8) hholds.app
      rw [← this]
      rfl
    rw [hlow]
    exact (vectorsValid_of_bytes (imageHigh.take 8) happ (by decide)).trans (by decide)

/-- The state before the last AUTHORIZE: the next update's header is
staged. -/
def lastEvents : List Event := history ++ enter ++ exchange (beginRequest 1 (imageHeader 3 imageLow))

theorem run_history :
    ((Sys.unpowered erased).run zeroBoard history).Inv zeroBoard ∧
      Endangered zeroBoard ((Sys.unpowered erased).run zeroBoard history).machine.flash ∧
      floor zeroBoard ((Sys.unpowered erased).run zeroBoard history).machine.flash = 2 := by
  have h := upgraded.brokenOff.endangered
  simp only [← run_append] at h
  rw [history]
  exact h

theorem run_lastEvents :
    Staged zeroBoard (imageHeader 3 imageLow) ((Sys.unpowered erased).run zeroBoard lastEvents) ∧
      ((Sys.unpowered erased).run zeroBoard lastEvents).machine.flash =
        ((Sys.unpowered erased).run zeroBoard history).machine.flash := by
  obtain ⟨hlen, hv⟩ := length_structural_imageHeader_three
  rw [lastEvents, List.append_assoc, run_append]
  exact run_enter_begin run_history.1 hlen hv

/-- **An AUTHORIZE that bricks a bootable device**: from an erased flash,
after `lastEvents`, the device is bootable, and the AUTHORIZE of the next
version leaves it with nothing to boot and every application byte in
place. -/
theorem authorize_bricks :
    (∀ slot, IsSlot slot → metadataAuthenticated zeroBoard erased slot = none) ∧
      ¬ KeepsBooting zeroBoard ((Sys.unpowered erased).run zeroBoard lastEvents)
        (.packet (authorizeRequest 2 (headerTag zeroBoard (imageHeader 3 imageLow))) good) := by
  have hnone : ∀ slot, IsSlot slot → metadataAuthenticated zeroBoard erased slot = none :=
    fun slot _ => metadataAuthenticated_of_erased zeroBoard slot
  refine ⟨hnone, fun hkeeps => ?_⟩
  obtain ⟨-, hend, hfloor⟩ := run_history
  obtain ⟨hs, hflash⟩ := run_lastEvents
  rw [← hflash] at hend hfloor
  have hn : NewestBoots zeroBoard ((Sys.unpowered erased).run zeroBoard lastEvents).machine.flash :=
    newestBoots_run (inv_unpowered erased)
      (.of_uncounted (Or.inl rfl) (slotVersion_eq_zero.2 (hnone metaA (Or.inl rfl)))) lastEvents
  exact (keepsBooting_iff (inv_run zeroBoard erased lastEvents) hn
    (packetOpcode_request _ _ _ (by simp))).1 hkeeps ⟨erases_imageHeader_three hs hfloor, hend⟩

end Update

end DeusOs
