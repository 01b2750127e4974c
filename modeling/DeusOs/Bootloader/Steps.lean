import DeusOs.Bootloader.Model.System
import DeusOs.Bootloader.Bytes
import DeusOs.Bootloader.Flash

/-!
# The bootloader — what one request can do

One relation for each handler: the status it answers, or `none` where a
reset strikes inside it, and the machine it leaves. A handler either
touches the RAM alone or runs one flash plan, which it completes or stops
in. Everything proved later about a step is derived from these cases;
`processBulkPacket_wp` is the only place the handlers are run.
-/

namespace DeusOs

namespace Bootloader

open Nor (Mem Op Prog Machine Does Stops Faulty Cut wp)

variable (board : Board)

/-- The session is open: DATA and END are served. -/
def BootRam.Live (r : BootRam) : Prop := r.updateState = .authorized ∨ r.updateState = .receiving

/-- The RAM after `scan_metadata` on the flash `f`. -/
def scanRam (f : Mem) (r : BootRam) : BootRam :=
  { r with
    versionFloor := (scanFlash board f).versionFloor
    highestFloorSlot := (scanFlash board f).highestFloorSlot
    committedVersion := (scanFlash board f).committedVersion }

/-! ## BEGIN -/

/-- The RAM after BEGIN has copied the header. -/
def beginRam (r : BootRam) (p : List UInt8) (s : UpdateState) : BootRam :=
  { r with
    stagedHeader := bytesCopy r.stagedHeader (p.drop 1) 48
    previousValid := false
    expectedOffset := 0
    targetMetadataSlot := 0
    updateState := s }

/-- BEGIN copies the header: the length is right and no session is live. -/
structure Begins (r : BootRam) (p : List UInt8) : Prop where
  length : p.length = 49
  state : r.updateState = .recoveryIdle ∨ r.updateState = .headerStaged

/-- What BEGIN can do. -/
inductive BeginStep (m : Machine BootRam) (p : List UInt8) : Status → Machine BootRam → Prop
  /-- Refused before anything is copied. -/
  | refused {st : Status} : ¬ Begins m.ram p → st = .badLength ∨ st = .invalidState →
      BeginStep m p st m
  /-- The header is copied and found malformed. -/
  | malformed : Begins m.ram p → headerStructuralValid (p.drop 1) = false →
      BeginStep m p .badHeader { m with ram := beginRam m.ram p .recoveryIdle }
  /-- The header is staged. -/
  | staged : Begins m.ram p → headerStructuralValid (p.drop 1) = true →
      BeginStep m p .ok { m with ram := beginRam m.ram p .headerStaged }

/-- **`handle_begin`** stages the header, or refuses the packet and changes
nothing else. -/
theorem handleBegin_wp (m : Machine BootRam) (p : List UInt8) (C : Machine BootRam → Prop) :
    wp (handleBegin p) (BeginStep m p) C m := by
  simp only [handleBegin, leave, Nor.wp_bind, Nor.wp_ram, Nor.wp_ite, Nor.wp_pure,
    Nor.wp_modifyRam]
  split
  · rename_i hlen
    exact .refused (fun h => hlen h.length) (Or.inl rfl)
  rename_i hlen
  split
  · rename_i hstate
    exact .refused (fun h => h.state.elim hstate.1 hstate.2) (Or.inr rfl)
  rename_i hstate
  have hb : Begins m.ram p :=
    ⟨not_not.1 hlen, (Decidable.not_and_iff_not_or_not.1 hstate).imp not_not.1 not_not.1⟩
  rw [toList_bytesCopy _ (by simp [hb.length])]
  split
  · rename_i hvalid
    exact .malformed hb (Bool.not_eq_true _ ▸ hvalid)
  · rename_i hvalid
    exact .staged hb (not_not.1 hvalid)

/-! ## AUTHORIZE -/

/-- The checks of AUTHORIZE pass: the tag is the staged header's, the
header is for this device, and its version passes the floor policy. -/
structure Authorizes (m : Machine BootRam) (p : List UInt8) : Prop where
  length : p.length = 33
  staged : m.ram.updateState = .headerStaged
  tag : p.drop 1 = (hmacHeader board.deusUpdateKey m.ram.stagedHeader.toList).toList
  target : headerTargetValid board m.ram.stagedHeader.toList = true
  version : versionRejected (scanFlash board m.flash) (imageVersion m.ram.stagedHeader.toList) = false

/-- The checks do not look at the fates to come. -/
theorem authorizes_tape {board : Board} {m : Machine BootRam} {tape : ℕ → Option Nor.Outcome}
    {p : List UInt8} : Authorizes board { m with tape } p ↔ Authorizes board m p :=
  ⟨fun h => ⟨h.1, h.2, h.3, h.4, h.5⟩, fun h => ⟨h.1, h.2, h.3, h.4, h.5⟩⟩

/-- The slot AUTHORIZE erases, from the flash it scans. -/
def targetSlot (f : Mem) : ℕ := authorizeTarget (scanFlash board f).highestFloorSlot

/-- The RAM in which AUTHORIZE issues its erase. -/
def authorizeRam (f : Mem) (r : BootRam) (p : List UInt8) : BootRam :=
  { scanRam board f r with
    stagedTag := bytesCopy r.stagedTag (p.drop 1) 32
    targetMetadataSlot := targetSlot board f }

/-- The RAM after an accepted AUTHORIZE. -/
def authorizedRam (f : Mem) (r : BootRam) (p : List UInt8) : BootRam :=
  { authorizeRam board f r p with
    streamSha := sha256Init (authorizeRam board f r p).streamSha
    expectedOffset := 0
    previousValid := false
    updateState := .authorized }

/-- What AUTHORIZE can do. -/
inductive AuthorizeStep (m : Machine BootRam) (p : List UInt8) :
    Option Status → Machine BootRam → Prop
  /-- Refused before the tag is copied. -/
  | refused {st : Status} : ¬ Authorizes board m p → st = .badLength ∨ st = .invalidState →
      AuthorizeStep m p (some st) m
  /-- The tag or the target does not check. -/
  | unauthenticated {st : Status} : ¬ Authorizes board m p → m.ram.updateState = .headerStaged →
      st = .authFailed ∨ st = .targetMismatch →
      AuthorizeStep m p (some st)
        { m with ram := { m.ram with stagedTag := bytesCopy m.ram.stagedTag (p.drop 1) 32 } }
  /-- The version is below what the floor policy asks. -/
  | rejected : ¬ Authorizes board m p → m.ram.updateState = .headerStaged →
      AuthorizeStep m p (some .versionRejected)
        { m with ram := { scanRam board m.flash m.ram with
            stagedTag := bytesCopy m.ram.stagedTag (p.drop 1) 32 } }
  /-- The target slot is erased and the session opens. -/
  | authorized {m' : Machine BootRam} : Authorizes board m p →
      Does [.erase (targetSlot board m.flash) 1024]
        { m with ram := authorizeRam board m.flash m.ram p } m' →
      AuthorizeStep m p (some .ok) { m' with ram := authorizedRam board m.flash m.ram p }
  /-- The erase failed. -/
  | failed {m' : Machine BootRam} : Authorizes board m p →
      Stops [.erase (targetSlot board m.flash) 1024]
        { m with ram := authorizeRam board m.flash m.ram p } m' →
      Faulty { m with ram := authorizeRam board m.flash m.ram p } m' →
      AuthorizeStep m p (some .flashFailed)
        { m' with ram := { authorizeRam board m.flash m.ram p with updateState := .recoveryIdle } }
  /-- A reset struck the erase. -/
  | cut {m' : Machine BootRam} : Authorizes board m p →
      Stops [.erase (targetSlot board m.flash) 1024]
        { m with ram := authorizeRam board m.flash m.ram p } m' → Cut m' →
      AuthorizeStep m p none m'

/-- AUTHORIZE erases one of the two slots. -/
theorem authorizeTarget_eq (s : ℕ) : authorizeTarget s = metaA ∨ authorizeTarget s = metaB := by
  unfold authorizeTarget
  split
  · exact Or.inr rfl
  · exact Or.inl rfl

theorem ownedPage_targetSlot (f : Mem) : OwnedPage (targetSlot board f) := by
  rcases authorizeTarget_eq (scanFlash board f).highestFloorSlot with h | h <;>
    simp [OwnedPage, targetSlot, h, metaA, metaB]

/-- **`handle_authorize`.** All checks come before the erase of the target slot;
an erase that fails leaves no session. -/
theorem handleAuthorize_wp (m : Machine BootRam) (p : List UInt8) :
    wp (handleAuthorize board p) (fun st => AuthorizeStep board m p (some st))
      (AuthorizeStep board m p none) m := by
  simp only [handleAuthorize, scanMetadata, leave, Nor.wp_bind, Nor.wp_ram, Nor.wp_ite,
    Nor.wp_pure, Nor.wp_modifyRam, Nor.wp_flash]
  split
  · rename_i hlen
    exact .refused (fun h => hlen h.length) (Or.inl rfl)
  rename_i hlen
  split
  · rename_i hstate
    exact .refused (fun h => hstate h.staged) (Or.inr rfl)
  rename_i hstate
  have hlen' : p.length = 33 := not_not.1 hlen
  have hstate' : m.ram.updateState = .headerStaged := not_not.1 hstate
  have hcopy : (bytesCopy m.ram.stagedTag (p.drop 1) 32).toList = p.drop 1 :=
    toList_bytesCopy _ (by simp [hlen'])
  have htageq := bytesEqual_iff_eq (n := 32)
    (a := (hmacHeader board.deusUpdateKey m.ram.stagedHeader.toList).toList) (b := p.drop 1)
    (by simp) (by simp [hlen'])
  split
  · rename_i htag
    rw [hcopy, htageq] at htag
    exact .unauthenticated (fun h => htag h.tag.symm) hstate' (Or.inl rfl)
  rename_i htag
  rw [not_not, hcopy, htageq] at htag
  split
  · rename_i htarget
    exact .unauthenticated (fun h => htarget h.target) hstate' (Or.inr rfl)
  rename_i htarget
  split
  · rename_i hversion
    exact .rejected (fun h => Bool.false_ne_true (h.version.symm.trans hversion)) hstate'
  rename_i hversion
  have hauth : Authorizes board m p :=
    ⟨hlen', hstate', htag.symm, not_not.1 htarget, by simpa using hversion⟩
  refine (drives_flashErasePage (ownedPage_targetSlot board m.flash)).wp
    (fun m' hd _ => ?_) (fun m' hs hf => ?_) fun m' hs hc => .cut hauth hs hc
  · have h := AuthorizeStep.authorized hauth hd
    have hr : m'.ram = authorizeRam board m.flash m.ram p := hd.ram
    simp only [if_true, Nor.wp_bind, Nor.wp_modifyRam, Nor.wp_pure]
    rw [hr]
    exact h
  · have h := AuthorizeStep.failed hauth hs (hf trivial)
    have hr : m'.ram = authorizeRam board m.flash m.ram p := hs.ram
    simp only [Bool.false_eq_true, if_false, Nor.wp_bind, Nor.wp_modifyRam, Nor.wp_pure]
    rw [hr]
    exact h

/-! ## DATA -/

/-- A DATA request the session takes: well formed for the staged header,
and at the expected offset. -/
structure Accepts (r : BootRam) (p : List UInt8) : Prop where
  live : r.Live
  fits : ChunkFits (dataOffset p) (dataBytes p)
  image : dataOffset p + (dataBytes p).length ≤ imageLength r.stagedHeader.toList
  fresh : dataRepeats r p = false
  next : dataOffset p = r.expectedOffset

/-- The RAM after an accepted DATA. -/
def dataRam (r : BootRam) (p : List UInt8) : BootRam :=
  { r with
    streamSha := sha256Update r.streamSha (dataBytes p)
    previousData := bytesCopy r.previousData (dataBytes p) (dataBytes p).length
    previousOffset := dataOffset p
    previousLength := (dataBytes p).length
    previousValid := true
    expectedOffset := (r.expectedOffset + (dataBytes p).length) % 65536
    updateState := .receiving }

/-- What DATA can do. -/
inductive DataStep (m : Machine BootRam) (p : List UInt8) : Option Status → Machine BootRam → Prop
  /-- Refused: nothing moves. -/
  | refused {st : Status} : ¬ Accepts m.ram p →
      st = .badLength ∨ st = .invalidState ∨ st = .outOfSequence → DataStep m p (some st) m
  /-- The exact repeat of the last accepted chunk: nothing moves. -/
  | repeated : m.ram.Live → dataRepeats m.ram p = true → DataStep m p (some .ok) m
  /-- The chunk is written and counted. -/
  | accepted {m' : Machine BootRam} : Accepts m.ram p →
      Does (chunkOps (dataOffset p) (dataBytes p)) m m' →
      DataStep m p (some .ok) { m' with ram := dataRam m.ram p }
  /-- The flash work failed. -/
  | failed {m' : Machine BootRam} : Accepts m.ram p →
      Stops (chunkOps (dataOffset p) (dataBytes p)) m m' →
      (ChunkReady (dataOffset p) (dataBytes p) m.flash → Faulty m m') →
      DataStep m p (some .flashFailed)
        { m' with ram := { m.ram with updateState := .recoveryIdle } }
  /-- A reset struck the flash work. -/
  | cut {m' : Machine BootRam} : Accepts m.ram p →
      Stops (chunkOps (dataOffset p) (dataBytes p)) m m' → Cut m' → DataStep m p none m'

/-- A session is live from AUTHORIZE on. -/
theorem live_iff {r : BootRam} :
    r.Live ↔ ¬ (r.updateState ≠ .authorized ∧ r.updateState ≠ .receiving) := by
  unfold BootRam.Live
  tauto

/-- The checks of `handle_data`, on a staged header whose length is an
image length. -/
theorem chunkFits_of_not_malformed {imageLen : ℕ} {p : List UInt8} (h5 : 5 ≤ p.length)
    (h51 : p.length ≤ 51) (himage : imageLen ≤ appMaxBytes)
    (h : dataMalformed imageLen p = false) :
    ChunkFits (dataOffset p) (dataBytes p) ∧ dataOffset p + (dataBytes p).length ≤ imageLen := by
  have hlen : (dataBytes p).length = p.length - 3 := by simp [dataBytes]
  simp only [dataMalformed, Bool.or_eq_false_iff, beq_eq_false_iff_ne, decide_eq_false_iff_not,
    ← hlen] at h
  exact ⟨⟨by omega, by omega, by omega, by omega, by omega, by omega⟩, by omega⟩

/-- A chunk that fits passes them. -/
theorem not_malformed_of_fits {imageLen : ℕ} {p : List UInt8}
    (hfits : ChunkFits (dataOffset p) (dataBytes p))
    (himage : dataOffset p + (dataBytes p).length ≤ imageLen) :
    5 ≤ p.length ∧ p.length ≤ 51 ∧ dataMalformed imageLen p = false := by
  have hlen : (dataBytes p).length = p.length - 3 := by simp [dataBytes]
  have h1 := hfits.len_pos
  have h2 := hfits.len_le
  have h3 := hfits.off_even
  have h4 := hfits.len_even
  have h5 := hfits.page
  refine ⟨by omega, by omega, ?_⟩
  simp only [dataMalformed, ← hlen, Bool.or_eq_false_iff, beq_eq_false_iff_ne,
    decide_eq_false_iff_not]
  omega

/-- **`handle_data`,** for images that the application's flash can hold, as
every staged one is. -/
theorem handleData_wp (m : Machine BootRam) (p : List UInt8)
    (himage : m.ram.Live → imageLength m.ram.stagedHeader.toList ≤ appMaxBytes) :
    wp (handleData p) (fun st => DataStep m p (some st)) (DataStep m p none) m := by
  simp only [handleData, leave, Nor.wp_bind, Nor.wp_ram, Nor.wp_ite, Nor.wp_pure]
  split
  · rename_i hlen
    refine .refused (fun h => ?_) (Or.inl rfl)
    have := not_malformed_of_fits h.fits h.image
    omega
  rename_i hlen
  split
  · rename_i hstate
    exact .refused (fun h => live_iff.1 h.live hstate) (Or.inr (Or.inl rfl))
  rename_i hstate
  have hlive : m.ram.Live := live_iff.2 hstate
  split
  · rename_i hform
    refine .refused (fun h => ?_) (Or.inl rfl)
    exact Bool.false_ne_true ((not_malformed_of_fits h.fits h.image).2.2.symm.trans hform)
  rename_i hform
  obtain ⟨hfits, hin⟩ := chunkFits_of_not_malformed (by omega) (by omega) (himage hlive)
    (Bool.not_eq_true _ ▸ hform)
  split
  · rename_i hrep
    exact .repeated hlive hrep
  rename_i hrep
  split
  · rename_i hoff
    exact .refused (fun h => hoff h.next) (Or.inr (Or.inr rfl))
  rename_i hoff
  have hacc : Accepts m.ram p := ⟨hlive, hfits, hin, by simpa using hrep, not_not.1 hoff⟩
  refine (drives_writeChunk hfits).wp (fun m' hd _ => ?_) (fun m' hs hf => ?_)
    fun m' hs hc => .cut hacc hs hc
  · have h := DataStep.accepted hacc hd
    simp only [if_true, Nor.wp_bind, Nor.wp_modifyRam, Nor.wp_pure]
    rw [hd.ram]
    exact h
  · have h := DataStep.failed hacc hs hf
    simp only [Bool.false_eq_true, if_false, Nor.wp_bind, Nor.wp_modifyRam, Nor.wp_pure]
    rw [hs.ram]
    exact h

/-! ## END -/

/-- END commits: the byte count, both digests, the vectors and the target
slot check. -/
structure Commits (m : Machine BootRam) : Prop where
  live : m.ram.Live
  complete : m.ram.expectedOffset = imageLength m.ram.stagedHeader.toList
  streamed : (sha256Final m.ram.streamSha).toList = imageDigest m.ram.stagedHeader.toList
  readBack : appMatchesHeader m.flash m.ram.stagedHeader.toList = true
  slot : m.ram.targetMetadataSlot = metaA ∨ m.ram.targetMetadataSlot = metaB

/-- The RAM in which END issues its programs. -/
def endRam (r : BootRam) : BootRam :=
  { r with updateState := .verifying, streamSha := sha256Finish r.streamSha }

/-- The RAM after END has committed. -/
def committedRam (r : BootRam) : BootRam :=
  { endRam r with
    versionFloor := if r.versionFloor < imageVersion r.stagedHeader.toList then
      imageVersion r.stagedHeader.toList else r.versionFloor
    committedVersion := imageVersion r.stagedHeader.toList
    resetAfterTx := true
    updateState := .committed }

/-- The plan END runs. -/
def endOps (r : BootRam) : List Op :=
  metadataOps r.targetMetadataSlot r.stagedHeader.toList r.stagedTag.toList

/-- What END can do. -/
inductive EndStep (m : Machine BootRam) (n : ℕ) : Option Status → Machine BootRam → Prop
  /-- Refused: nothing moves. -/
  | refused {st : Status} : ¬ (n = 1 ∧ Commits m) →
      st = .badLength ∨ st = .invalidState ∨ st = .outOfSequence → EndStep m n (some st) m
  /-- A digest, the vectors or the slot does not check: the session ends. -/
  | unverified {st : Status} : ¬ Commits m → m.ram.Live →
      st = .digestFailed ∨ st = .vectorInvalid ∨ st = .internalError →
      EndStep m n (some st) { m with ram := { endRam m.ram with updateState := .recoveryIdle } }
  /-- The metadata slot is written, marker last. -/
  | committed {m' : Machine BootRam} : n = 1 → Commits m →
      Does (endOps m.ram) { m with ram := endRam m.ram } m' →
      EndStep m n (some .ok) { m' with ram := committedRam m.ram }
  /-- The flash work failed. -/
  | failed {m' : Machine BootRam} : Commits m →
      Stops (endOps m.ram) { m with ram := endRam m.ram } m' →
      (m.flash.Blank m.ram.targetMetadataSlot 82 → Faulty { m with ram := endRam m.ram } m') →
      EndStep m n (some .flashFailed)
        { m' with ram := { endRam m.ram with updateState := .recoveryIdle } }
  /-- A reset struck the flash work. -/
  | cut {m' : Machine BootRam} : Commits m →
      Stops (endOps m.ram) { m with ram := endRam m.ram } m' → Cut m' → EndStep m n none m'

@[simp] theorem length_imageDigest (h : Vector UInt8 48) : (imageDigest h.toList).length = 32 := by
  simp [imageDigest]

/-- The application matches a header by its digest and by its vectors. -/
theorem appMatchesHeader_eq_true (f : Mem) (h : List UInt8) :
    appMatchesHeader f h = true ↔
      bytesEqual (appDigest f (imageLength h)).toList (imageDigest h) 32 = true ∧
        vectorsValid f (imageLength h) = true := by
  rw [appMatchesHeader, Bool.and_eq_true]

/-- **`handle_end`** checks that all is received and that the flash holds the
image, and programs the record. -/
theorem handleEnd_wp (m : Machine BootRam) (n : ℕ) :
    wp (handleEnd n) (fun st => EndStep m n (some st)) (EndStep m n none) m := by
  simp only [handleEnd, leave, Nor.wp_bind, Nor.wp_ram, Nor.wp_ite, Nor.wp_pure,
    Nor.wp_modifyRam, Nor.wp_flash]
  have hstreameq := bytesEqual_iff_eq (n := 32) (a := (sha256Final m.ram.streamSha).toList)
    (b := imageDigest m.ram.stagedHeader.toList) (by simp) (by simp)
  split
  · rename_i hn
    exact .refused (fun h => hn h.1) (Or.inl rfl)
  rename_i hn
  split
  · rename_i hstate
    exact .refused (fun h => live_iff.1 h.2.live hstate) (Or.inr (Or.inl rfl))
  rename_i hstate
  have hlive : m.ram.Live := live_iff.2 hstate
  split
  · rename_i hcount
    exact .refused (fun h => hcount h.2.complete) (Or.inr (Or.inr rfl))
  rename_i hcount
  split
  · rename_i hstream
    rw [hstreameq] at hstream
    exact .unverified (fun h => hstream h.streamed) hlive (Or.inl rfl)
  rename_i hstream
  rw [not_not, hstreameq] at hstream
  -- the read-back digest and the vectors are the two halves of `appMatchesHeader`
  have hmatch := appMatchesHeader_eq_true m.flash m.ram.stagedHeader.toList
  split
  · rename_i hread
    exact .unverified (fun h => hread (hmatch.1 h.readBack).1) hlive (Or.inl rfl)
  rename_i hread
  split
  · rename_i hvec
    exact .unverified (fun h => hvec (hmatch.1 h.readBack).2) hlive (Or.inr (Or.inl rfl))
  rename_i hvec
  split
  · rename_i hslot
    exact .unverified (fun h => h.slot.elim hslot.1 hslot.2) hlive (Or.inr (Or.inr rfl))
  rename_i hslot
  have hslot' : m.ram.targetMetadataSlot = metaA ∨ m.ram.targetMetadataSlot = metaB :=
    (Decidable.not_and_iff_not_or_not.1 hslot).imp not_not.1 not_not.1
  have hcom : Commits m :=
    ⟨hlive, not_not.1 hcount, hstream, hmatch.2 ⟨not_not.1 hread, not_not.1 hvec⟩, hslot'⟩
  refine (drives_writeMetadata hslot' (by simp) (by simp)).wp (fun m' hd _ => ?_)
    (fun m' hs hf => ?_) fun m' hs hc => .cut hcom hs hc
  · have h := EndStep.committed (n := n) (not_not.1 hn) hcom hd
    have hr : m'.ram = endRam m.ram := hd.ram
    simp only [if_true, Nor.wp_bind, Nor.wp_modifyRam, Nor.wp_pure]
    rw [hr]
    exact h
  · have h := EndStep.failed (n := n) hcom hs hf
    have hr : m'.ram = endRam m.ram := hs.ram
    simp only [Bool.false_eq_true, if_false, Nor.wp_bind, Nor.wp_modifyRam, Nor.wp_pure]
    rw [hr]
    exact h

/-! ## A packet -/

/-- What the opcode switch can do. -/
inductive DispatchStep (m : Machine BootRam) (rx : List UInt8) :
    Option Status → Machine BootRam → Prop
  /-- Refused before a handler is called. -/
  | refused {st : Status} : st = .badFlags ∨ st = .badLength ∨ st = .invalidState →
      DispatchStep m rx (some st) m
  | info : packetOpcode rx = opInfo →
      DispatchStep m rx (some .ok) { m with ram := scanRam board m.flash m.ram }
  | begin {st : Status} {m' : Machine BootRam} : packetOpcode rx = opBegin →
      BeginStep m (packetPayload rx) st m' → DispatchStep m rx (some st) m'
  | authorize {st : Option Status} {m' : Machine BootRam} : packetOpcode rx = opAuthorize →
      AuthorizeStep board m (packetPayload rx) st m' → DispatchStep m rx st m'
  | data {st : Option Status} {m' : Machine BootRam} : packetOpcode rx = opData →
      DataStep m (packetPayload rx) st m' → DispatchStep m rx st m'
  | end {st : Option Status} {m' : Machine BootRam} : packetOpcode rx = opEnd →
      EndStep m (packetPayload rx).length st m' → DispatchStep m rx st m'

section inversion

variable {board} {m m' : Machine BootRam} {rx : List UInt8} {st : Option Status}

/-- No handler was called. -/
structure Unserved (m : Machine BootRam) (st : Option Status) (m' : Machine BootRam) : Prop where
  status : st = some .badFlags ∨ st = some .badLength ∨ st = some .invalidState
  same : m' = m

/-- What is not served is not answered `ST_OK`. -/
theorem Unserved.ne_ok (h : Unserved m st m') : st ≠ some .ok := by
  rcases h.status with rfl | rfl | rfl <;> decide

/-- What a dispatched AUTHORIZE comes to. -/
theorem DispatchStep.of_authorize (h : DispatchStep board m rx st m')
    (hop : packetOpcode rx = opAuthorize) :
    Unserved m st m' ∨ AuthorizeStep board m (packetPayload rx) st m' := by
  cases h with
  | refused hst => exact Or.inl ⟨by simpa using hst, rfl⟩
  | info hop' => rw [hop] at hop'; cases hop'
  | begin hop' => rw [hop] at hop'; cases hop'
  | authorize _ h => exact Or.inr h
  | data hop' => rw [hop] at hop'; cases hop'
  | «end» hop' => rw [hop] at hop'; cases hop'

/-- A dispatched DATA request. -/
theorem DispatchStep.of_data (h : DispatchStep board m rx st m') (hop : packetOpcode rx = opData) :
    Unserved m st m' ∨ DataStep m (packetPayload rx) st m' := by
  cases h with
  | refused hst => exact Or.inl ⟨by simpa using hst, rfl⟩
  | info hop' => rw [hop] at hop'; cases hop'
  | begin hop' => rw [hop] at hop'; cases hop'
  | authorize hop' => rw [hop] at hop'; cases hop'
  | data _ h => exact Or.inr h
  | «end» hop' => rw [hop] at hop'; cases hop'

/-- A dispatched END. -/
theorem DispatchStep.of_end (h : DispatchStep board m rx st m') (hop : packetOpcode rx = opEnd) :
    Unserved m st m' ∨ EndStep m (packetPayload rx).length st m' := by
  cases h with
  | refused hst => exact Or.inl ⟨by simpa using hst, rfl⟩
  | info hop' => rw [hop] at hop'; cases hop'
  | begin hop' => rw [hop] at hop'; cases hop'
  | authorize hop' => rw [hop] at hop'; cases hop'
  | data hop' => rw [hop] at hop'; cases hop'
  | «end» _ h => exact Or.inr h

/-- One that is answered `ST_OK` was handled. -/
theorem DispatchStep.handled {P : Prop} (h : Unserved m (some .ok) m' ∨ P) : P :=
  h.resolve_left fun hu => hu.ne_ok rfl

end inversion

theorem dispatch_wp (m : Machine BootRam) (rx : List UInt8)
    (himage : m.ram.Live → imageLength m.ram.stagedHeader.toList ≤ appMaxBytes) :
    wp (dispatch board rx) (fun st => DispatchStep board m rx (some st))
      (DispatchStep board m rx none) m := by
  simp only [dispatch, scanMetadata, Nor.wp_ite, Nor.wp_pure, Nor.wp_bind, Nor.wp_flash,
    Nor.wp_modifyRam]
  split
  · rename_i hop
    split
    · exact .refused (Or.inl rfl)
    split
    · exact .refused (Or.inr (Or.inl rfl))
    · exact .info hop
  split
  · exact .refused (Or.inl rfl)
  split
  · rename_i hop
    exact Nor.wp_mono (handleBegin_wp m _ (DispatchStep board m rx none))
      (fun st m' h => .begin hop h) fun m' h => h
  split
  · rename_i hop
    exact Nor.wp_mono (handleAuthorize_wp board m _) (fun st m' h => .authorize hop h)
      fun m' h => .authorize hop h
  split
  · rename_i hop
    exact Nor.wp_mono (handleData_wp m _ himage) (fun st m' h => .data hop h)
      fun m' h => .data hop h
  split
  · rename_i hop
    exact Nor.wp_mono (handleEnd_wp m _) (fun st m' h => .end hop h) fun m' h => .end hop h
  · exact .refused (Or.inr (Or.inr rfl))

/-- The RAM after `bulk_send` has been asked to send `d`. -/
def sendRam (r : BootRam) (d : List UInt8) : BootRam :=
  if r.usbConfiguration ≠ 1 ∨ r.usbTxActive ∨ 64 < d.length then r
  else { r with ep1Tx := r.ep1Tx ++ [d], usbTxActive := true }

/-- `m` once the response to `rx` has been handed to the endpoint. -/
def respond (rx : List UInt8) (st : Status) (m : Machine BootRam) : Machine BootRam :=
  { m with ram := sendRam m.ram (buildResponse m.ram (loadLe16 rx 6) (packetOpcode rx) st) }

/-- What a packet can do: ignored, served with a response built from the
state it leaves, or cut. -/
inductive PacketStep (m : Machine BootRam) (rx : List UInt8) :
    Option (Option Status) → Machine BootRam → Prop
  | ignored : packetAccepted rx = false → PacketStep m rx (some none) m
  | served {st : Status} {m' : Machine BootRam} : packetAccepted rx = true →
      DispatchStep board m rx (some st) m' →
      PacketStep m rx (some (some st)) (respond rx st m')
  | cut {m' : Machine BootRam} : packetAccepted rx = true → DispatchStep board m rx none m' →
      PacketStep m rx none m'

/-- **`process_bulk_packet`:** the handler of the opcode, and its answer. -/
theorem processBulkPacket_wp (m : Machine BootRam) (rx : List UInt8)
    (himage : m.ram.Live → imageLength m.ram.stagedHeader.toList ≤ appMaxBytes) :
    wp (processBulkPacket board rx) (fun st => PacketStep board m rx (some st))
      (PacketStep board m rx none) m := by
  simp only [processBulkPacket, Nor.wp_ite, Nor.wp_pure, Nor.wp_bind]
  split
  · rename_i hacc
    exact .ignored (by simpa using hacc)
  rename_i hacc
  have hacc' : packetAccepted rx = true := not_not.1 hacc
  refine Nor.wp_mono (dispatch_wp board m rx himage) (fun st m' h => ?_) fun m' h => .cut hacc' h
  have hs := PacketStep.served hacc' h
  simp only [bulkSend, Nor.wp_bind, Nor.wp_ram, Nor.wp_ite, Nor.wp_pure, Nor.wp_modifyRam]
  rw [respond, sendRam] at hs
  split at hs
  · rename_i hc
    rw [if_pos hc]
    exact hs
  · rename_i hc
    rw [if_neg hc]
    exact hs

end Bootloader

end DeusOs
