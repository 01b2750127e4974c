import DeusOs.Update.Device

/-!
# The update link — an update that returns

`UpdateAsync` over the link, whatever is lost, late or reset: where it
returns, the device holds the image (`update_returned`). The DATA loop
carries the chunks accepted so far; each round, with its retry, adds one.
-/

namespace DeusOs

namespace Update

open Async (Prog Triple)
open Bootloader Host
open FirmwareUpdate (maxDataBytes applicationPageBytes)
open LittleEndian (write16)

variable {board : Board} {header tag : List UInt8} {cs : List (List UInt8)} {c : List UInt8}
  {image package : List UInt8} {offset : ℕ} {s : Conn Link}

/-! ## Chunks -/

theorem length_chunkAt (image : List UInt8) (offset : ℕ) :
    (chunkAt image offset).length = chunkCount image.length offset := by
  simp only [chunkAt, List.length_take, List.length_drop, chunkCount]
  omega

theorem chunkCount_le (imageLength offset : ℕ) :
    chunkCount imageLength offset ≤ 48 ∧ chunkCount imageLength offset ≤ imageLength - offset ∧
      offset % 1024 + chunkCount imageLength offset ≤ 1024 := by
  simp only [chunkCount, maxDataBytes, applicationPageBytes]
  omega

/-- The chunks before an offset, and the chunk there. -/
theorem flatten_append_chunkAt (h : cs.flatten = image.take offset) :
    (cs ++ [chunkAt image offset]).flatten =
      image.take (offset + chunkCount image.length offset) := by
  simp only [List.flatten_append, List.flatten_cons, List.flatten_nil, List.append_nil, h, chunkAt]
  exact List.take_add.symm

/-! ## One chunk -/

/-- The state between two DATA requests. -/
def Streaming (board : Board) (header tag : List UInt8) (cs : List (List UInt8)) (s : Conn Link) :
    Prop :=
  Settled (LateData cs) s ∧ Holding board header tag cs s.link.device

theorem ensureOk_ok {a : FirmwareUpdateResponse} {state : UInt8} (h : ensureOk a state = .ok ()) :
    a.status = FirmwareUpdate.statusOk ∧ a.state = state := by
  unfold ensureOk at h
  split at h
  · cases h
  rename_i hst
  split at h
  · cases h
  rename_i hs
  exact ⟨not_not.1 hst, not_not.1 hs⟩

theorem checkedUshort_ok {v w : ℕ} (h : checkedUshort v = .ok w) : w = v ∧ v < 65536 := by
  unfold checkedUshort at h
  split at h
  · cases h
  · cases h
    exact ⟨rfl, by omega⟩

theorem lateCopy_le {rx : List UInt8} (hne : c ≠ []) (hle : c.length ≤ 48)
    (hoff : cs.flatten.length < 65536) (h : LateCopy cs c rx) : LateData (cs ++ [c]) rx := by
  rcases h with h | ⟨id, hid, rfl⟩
  · exact h.mono [c]
  · exact ⟨id, cs, c, [], hid, hne, hle, hoff, rfl, rfl⟩

/-- **The DATA request with its retry.** -/
theorem triple_sendData (board : Board) (header tag : List UInt8) (hne : c ≠ [])
    (hle : c.length ≤ 48) (hoff : cs.flatten.length + c.length < 65536) :
    Triple (Streaming board header tag cs)
      (sendDataWithSingleTimeoutRetryAsync (link board) (opData :: (write16 cs.flatten.length ++ c)))
      (fun a s => Settled (LateCopy cs c) s ∧ AfterData board header tag cs c a s.link.device)
      (fun _ _ => True) := by
  have hs := service_data hne hle hoff board (fun _ => True) header tag
  have hfirst := triple_sendRequest (hs.mono fun _ (h : LateData cs _) => Or.inl h)
  have hagain := triple_sendRequest hs
  refine Triple.handle (R := TimedOut (LateData cs) opData (write16 cs.flatten.length ++ c)
      (Between board header tag cs c))
    (hfirst.conseq (fun s h => ⟨h.1, Or.inl h.2⟩)
      (fun a s h => ⟨h.1.mono fun _ hl => Or.inl hl, h.2⟩) fun _ _ h => h) fun e => ?_
  split
  · exact hagain.conseq (fun s h => h rfl) (fun _ _ h => h) fun _ _ _ => trivial
  · exact Triple.raise fun _ _ => trivial

/-- Where the DATA loop stands at an offset. -/
structure AtOffset (image : List UInt8) (offset : ℕ) (cs : List (List UInt8)) : Prop where
  flatten : cs.flatten = image.take offset
  le : offset ≤ image.length
  max : image.length ≤ 53248

theorem AtOffset.length (h : AtOffset image offset cs) : cs.flatten.length = offset := by
  rw [h.flatten, List.length_take, Nat.min_eq_left h.le]

/-- One chunk more comes to the next offset. -/
theorem AtOffset.next (h : AtOffset image offset cs) :
    AtOffset image (offset + chunkCount image.length offset) (cs ++ [chunkAt image offset]) where
  flatten := flatten_append_chunkAt h.flatten
  le := by
    have := (chunkCount_le image.length offset).2.1
    have := h.le
    omega
  max := h.max

/-- **One round of the DATA loop.** -/
theorem triple_sendChunk (board : Board) (header tag : List UInt8) (h : AtOffset image offset cs)
    (hne : chunkAt image offset ≠ []) :
    Triple (Streaming board header tag cs) (sendChunk (link board) image offset)
      (fun _ s => Streaming board header tag (cs ++ [chunkAt image offset]) s)
      (fun _ _ => True) := by
  have hlen := length_chunkAt image offset
  have hcount := chunkCount_le image.length offset
  have hoff := h.length
  have hle := h.le
  have hmax := h.max
  have hdata := triple_sendData board header tag hne (by omega)
    (show cs.flatten.length + (chunkAt image offset).length < 65536 by omega)
  rw [hoff] at hdata
  refine Triple.bind (Q := fun v s => v = offset ∧ Streaming board header tag cs s)
    (Triple.lift (fun s v hs hv => ⟨(checkedUshort_ok hv).1, hs⟩) fun _ _ _ _ => trivial)
    fun v => ?_
  rintro s evs ⟨rfl, hs⟩
  refine Triple.bind hdata (fun a => ?_) s evs hs
  refine Triple.bind (Q := fun _ s => (Settled (LateCopy cs (chunkAt image v)) s ∧
      AfterData board header tag cs (chunkAt image v) a s.link.device) ∧
      a.state = FirmwareUpdate.stateReceiving)
    (Triple.lift (fun s _ hs hok => ⟨hs, (ensureOk_ok hok).2⟩) fun _ _ _ _ => trivial) fun _ => ?_
  refine Triple.bind (Q := fun w s => w = v + chunkCount image.length v ∧
      (Settled (LateCopy cs (chunkAt image v)) s ∧
      AfterData board header tag cs (chunkAt image v) a s.link.device) ∧
      a.state = FirmwareUpdate.stateReceiving)
    (Triple.lift (fun s w hs hw => ⟨(checkedUshort_ok hw).1, hs⟩) fun _ _ _ _ => trivial)
    fun w => ?_
  rintro s evs ⟨rfl, ⟨hset, -, hafter⟩, hstate⟩
  split
  · exact Triple.raise (P := fun _ => True) (fun _ _ => trivial) s evs trivial
  · rename_i hexp
    refine Triple.ret (P := fun s' => s' = s) (fun s' hs' => ?_) s evs rfl
    subst hs'
    exact ⟨hset.mono fun rx hrx => lateCopy_le hne (by omega) (by omega) hrx,
      hafter hstate (by rw [hoff, hlen]; exact not_not.1 hexp)⟩

/-- **The DATA loop**: it returns with the whole image accepted. -/
theorem triple_sendImage (board : Board) (header tag : List UInt8) (h : AtOffset image offset cs) :
    Triple (Streaming board header tag cs) (sendImage (link board) image offset)
      (fun _ s => ∃ cs', cs'.flatten = image ∧ Streaming board header tag cs' s)
      (fun _ _ => True) := by
  induction hn : image.length - offset using Nat.strongRecOn generalizing offset cs with
  | ind n ih =>
    rw [sendImage]
    split
    · rename_i hlt
      dsimp only
      split
      · exact Triple.raise fun _ _ => trivial
      · rename_i hcount
        have hne : chunkAt image offset ≠ [] := by
          rw [← List.length_pos_iff, length_chunkAt]
          omega
        have hle := (chunkCount_le image.length offset).2.1
        exact Triple.bind (triple_sendChunk board header tag h hne) fun _ =>
          ih (image.length - (offset + chunkCount image.length offset)) (by omega) h.next rfl
    · rename_i hge
      refine Triple.ret fun s hs => ⟨cs, ?_, hs⟩
      rw [h.flatten, List.take_of_length_le (by omega)]

/-! ## The whole update -/

/-- What the checks of `ParsePackage` say of a package. -/
structure WellFormedPackage (p : FirmwareUpdatePackage) : Prop where
  header : p.header.length = 48
  tag : p.headerAuthTag.length = 32
  length : imageLength p.header = p.image.length
  max : p.image.length ≤ 53248
  structural : headerStructuralValid p.header = true
  digest : (Sha256.hash p.image).toList = imageDigest p.header

/-- A package that the host parses is well formed. -/
theorem wellFormed_of_parsePackage {p : FirmwareUpdatePackage}
    (h : parsePackage package = .ok p) : WellFormedPackage p := by
  unfold parsePackage at h
  dsimp only at h
  split at h
  · cases h
  split at h
  · cases h
  split at h
  · cases h
  rename_i htuple
  split at h
  · cases h
  rename_i hcontract
  split at h
  · cases h
  rename_i hdigest
  cases h
  simp only [not_or, not_not, FirmwareUpdate.headerBytes, FirmwareUpdate.headerAuthTagBytes,
    FirmwareUpdate.maxImageBytes] at htuple hcontract hdigest
  obtain ⟨-, h4, h5, -⟩ := htuple
  obtain ⟨h8, hmax, halign, hversion, htotal⟩ := hcontract
  have hlen : LittleEndian.read32 (package.take 48) 8 ≤ (package.drop (48 + 32)).length := by
    rw [List.length_drop]
    omega
  refine ⟨?_, ?_, ?_, ?_, ?_, ?_⟩
  · simp only [FirmwareUpdate.headerBytes, List.length_take]
    omega
  · simp only [FirmwareUpdate.headerBytes, FirmwareUpdate.headerAuthTagBytes, List.length_take,
      List.length_drop]
    omega
  · rw [List.length_take]
    exact (Nat.min_eq_left hlen).symm
  · rw [List.length_take]
    refine Nat.le_trans (Nat.min_le_left _ _) ?_
    show LittleEndian.read32 (package.take 48) 8 ≤ 53248
    omega
  · have hfmt : (package.take 48).getD 4 0 = imageFormatVersion := h4
    have h8' : 8 ≤ imageLength (package.take 48) := by
      show 8 ≤ LittleEndian.read32 (package.take 48) 8
      omega
    have hmax' : imageLength (package.take 48) ≤ appMaxBytes := by
      show LittleEndian.read32 (package.take 48) 8 ≤ 53248
      omega
    have halign' : imageLength (package.take 48) &&& 3 = 0 := halign
    have hversion' : imageVersion (package.take 48) ≠ 0 := hversion
    show headerStructuralValid (package.take 48) = true
    simp only [headerStructuralValid, hfmt, h5, h8', hmax', halign', decide_true, beq_self_eq_true,
      Bool.and_true, Bool.true_and, bne_iff_ne]
    exact hversion'
  · refine hdigest.trans ?_
    show ((package.take 48).drop 16).take 32 = (package.take 48).drop 16
    rw [List.take_of_length_le (by simp only [List.length_drop, List.length_take]; omega)]

/-- The start of an update: nothing of an earlier session is in flight to
the device, and every response in flight is one the host has abandoned. -/
def Opening (s : Conn Link) : Prop := Settled (fun _ => False) s

/-- What an update that returned leaves: the image in the application
pages, committed under the package's header and tag in the slot of the
session. -/
structure Installs (board : Board) (p : FirmwareUpdatePackage) (d : Sys) : Prop where
  app : d.machine.flash.bytes appBase p.image.length = p.image
  header : d.session.header = p.header
  tag : d.session.tag = p.headerAuthTag
  received : d.session.received = p.image
  slot : IsSlot d.session.slot
  committed : Committed board d.machine.flash d.session

/-- A session that is done over all of an image has installed it. -/
theorem installs_of_done {p : FirmwareUpdatePackage} (hp : WellFormedPackage p) {d : Sys}
    (hcs : cs.flatten = p.image) (h : Done board p.header p.headerAuthTag cs d) :
    Installs board p d where
  app := by
    have himage := h.committed.image
    rwa [h.header, hp.length, Session.received, h.chunks, hcs] at himage
  header := h.header
  tag := h.tag
  received := by rw [Session.received, h.chunks, hcs]
  slot := h.slot
  committed := h.committed

/-- **An update that returns has installed its image**, from any state of
the device. -/
theorem triple_update (board : Board) {p : FirmwareUpdatePackage}
    (hpackage : parsePackage package = .ok p) :
    Triple Opening (updateAsync (link board) package)
      (fun _ s => Installs board p s.link.device) (fun _ _ => True) := by
  have hp := wellFormed_of_parsePackage hpackage
  refine Triple.bind (Q := fun q s => q = p ∧ Opening s)
    (Triple.lift (fun s q hs hq => ?_) fun _ _ _ _ => trivial) fun q => ?_
  · rw [hpackage] at hq
    cases hq
    exact ⟨rfl, hs⟩
  rintro s evs ⟨rfl, hs⟩
  -- BEGIN, from any device
  refine Triple.bind ((triple_sendRequest (service_begin board _ hp.header)).conseq
    (fun s hs => ⟨hs, trivial⟩) (fun _ _ h => h) fun _ _ _ => trivial) (fun a => ?_) s evs hs
  refine Triple.bind (Q := fun _ s => Settled (fun _ => False) s ∧
      StagedFor board q.header s.link.device)
    (Triple.lift (fun s _ hs hok => ⟨hs.1, hs.2 (ensureOk_ok hok).1 (ensureOk_ok hok).2⟩)
      fun _ _ _ _ => trivial) fun _ => ?_
  -- AUTHORIZE
  refine Triple.bind ((triple_sendRequest (service_authorize board _ q.header hp.tag)).conseq
    (fun s hs => hs) (fun _ _ h => h) fun _ _ _ => trivial) fun a => ?_
  refine Triple.bind (Q := fun _ s => Streaming board q.header q.headerAuthTag [] s)
    (Triple.lift (fun s _ hs hok => ⟨hs.1.mono fun _ h => h.elim,
      hs.2 (ensureOk_ok hok).1 (ensureOk_ok hok).2⟩) fun _ _ _ _ => trivial) fun _ => ?_
  -- the image
  have hstart : AtOffset q.image 0 [] := ⟨rfl, Nat.zero_le _, hp.max⟩
  refine Triple.bind (triple_sendImage board q.header q.headerAuthTag hstart) fun _ => ?_
  -- END
  rintro s evs ⟨cs, hcs, hs⟩
  refine Triple.bind ((triple_sendRequest
    (service_end board _ q.header q.headerAuthTag cs)).conseq
    (fun s hs => hs) (fun _ _ h => h) fun _ _ _ => trivial) (fun a => ?_) s evs hs
  refine Triple.bind (Q := fun _ s => Installs board q s.link.device)
    (Triple.lift (fun s _ hs hok => installs_of_done hp hcs (hs.2.2 (ensureOk_ok hok).1))
      fun _ _ _ _ => trivial) fun _ => Triple.ret fun s hs => hs

end Update

end DeusOs
