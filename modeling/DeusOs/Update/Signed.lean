import DeusOs.Update.Install

/-!
# The update link — a signed image, installed

A header for an image and the tag that authenticates it, as the release
side writes them, and the shortest session that installs one: BEGIN,
AUTHORIZE, one DATA request and END, each response read before the next
request.
-/

namespace DeusOs

namespace Update

open Bootloader Host
open LittleEndian (read16 write16 read32 write32)
open Nor (Mem Outcome applyAll)

/-- The header of an image. -/
def imageHeader (version : ℕ) (image : List UInt8) : List UInt8 :=
  write32 productId ++ [imageFormatVersion, 0] ++ write16 targetDeviceId ++ write32 image.length ++
    write32 version ++ (sha256Memory image).toList

/-- The tag of a header. -/
def headerTag (board : Board) (header : List UInt8) : List UInt8 :=
  (hmacHeader board.deusUpdateKey header).toList

section header

variable (version : ℕ) (image : List UInt8)

theorem length_imageHeader : (imageHeader version image).length = 48 := by
  simp [imageHeader]

/-- The header names the image's length. -/
theorem imageLength_imageHeader (h : image.length ≤ appMaxBytes) :
    imageLength (imageHeader version image) = image.length := by
  have hread := LittleEndian.read32_write32 (v := image.length)
    (by simp only [appMaxBytes] at h; omega)
    (write32 productId ++ [imageFormatVersion, 0] ++ write16 targetDeviceId)
    (write32 version ++ (sha256Memory image).toList)
  rw [imageLength, loadLe32_eq, imageHeader]
  simpa using hread

/-- The header names the image's version. -/
theorem imageVersion_imageHeader (h : version < 4294967296) :
    imageVersion (imageHeader version image) = version := by
  have hread := LittleEndian.read32_write32 h
    (write32 productId ++ [imageFormatVersion, 0] ++ write16 targetDeviceId ++ write32 image.length)
    (sha256Memory image).toList
  rw [imageVersion, loadLe32_eq, imageHeader]
  simpa using hread

/-- The header names the image's digest. -/
theorem imageDigest_imageHeader :
    imageDigest (imageHeader version image) = (sha256Memory image).toList := by
  have hlen : (write32 productId ++ [imageFormatVersion, 0] ++ write16 targetDeviceId ++
      write32 image.length ++ write32 version).length = 16 := rfl
  rw [imageDigest, imageHeader, ← hlen, List.drop_left]

/-- The header names the board that the image is for. -/
theorem headerTargetValid_imageHeader {board : Board} (hboard : board.deviceId = targetDeviceId) :
    headerTargetValid board (imageHeader version image) = true := by
  have hid := LittleEndian.read32_write32 (v := productId) (by decide) []
    ([imageFormatVersion, 0] ++ write16 targetDeviceId ++ write32 image.length ++
      write32 version ++ (sha256Memory image).toList)
  have htarget := LittleEndian.read16_write16 (v := targetDeviceId) (by decide)
    (write32 productId ++ [imageFormatVersion, 0])
    (write32 image.length ++ write32 version ++ (sha256Memory image).toList)
  simp only [headerTargetValid, loadLe32_eq, loadLe16_eq, hboard, Bool.and_eq_true, beq_iff_eq,
    and_true]
  constructor
  · simpa [imageHeader] using hid
  · simpa [imageHeader] using htarget

/-- **A header the release side writes is well formed,** for every version above
zero and every image that fits. -/
theorem headerStructuralValid_imageHeader (hv : version < 4294967296) (hv0 : version ≠ 0)
    (h8 : 8 ≤ image.length) (hmax : image.length ≤ appMaxBytes) (h4 : image.length &&& 3 = 0) :
    headerStructuralValid (imageHeader version image) = true := by
  have hformat : (imageHeader version image).getD 4 0 = imageFormatVersion ∧
      (imageHeader version image).getD 5 0 = 0 := by
    simp [imageHeader, write32]
  simp only [headerStructuralValid, hformat, imageLength_imageHeader version image hmax,
    imageVersion_imageHeader version image hv, h4, beq_self_eq_true, Bool.and_eq_true,
    decide_eq_true_eq, bne_iff_ne, ne_eq]
  exact ⟨⟨⟨⟨⟨trivial, trivial⟩, h8⟩, hmax⟩, trivial⟩, hv0⟩

end header

/-! ## The shortest session -/

/-- Every operation works. -/
def good : ℕ → Option Outcome := fun _ => some Outcome.good

/-- A request, and its response read. -/
def exchange (rx : List UInt8) : List Event := [.packet rx good, .inComplete]

/-- Up to the erased slot. -/
def authorizeEvents (board : Board) (header : List UInt8) : List Event :=
  exchange (beginRequest 1 header) ++ exchange (authorizeRequest 2 (headerTag board header))

/-- Up to the first chunk. -/
def startEvents (board : Board) (header data : List UInt8) : List Event :=
  authorizeEvents board header ++ exchange (dataRequest 3 0 data)

/-- The whole of it, for an image of one chunk. -/
def installEvents (board : Board) (version : ℕ) (image : List UInt8) : List Event :=
  startEvents board (imageHeader version image) image ++ exchange (endRequest 4)

variable {board : Board} {s : Sys} {header data : List UInt8} {version : ℕ} {image : List UInt8}

/-- An exchange is a packet and the completion of its answer. -/
theorem run_exchange (rx : List UInt8) :
    s.run board (exchange rx) = (s.step board (.packet rx good)).step board .inComplete := rfl

/-- **AUTHORIZE's share.** -/
theorem run_authorizeEvents (h : Waiting board s) (hlen : header.length = 48)
    (hv : headerStructuralValid header = true) (htarget : headerTargetValid board header = true)
    (hver : versionRejected (scanFlash board s.machine.flash) (imageVersion header) = false) :
    ∃ mark, Receiving board
        ⟨header, headerTag board header, targetSlot board s.machine.flash, mark, []⟩
        (s.run board (authorizeEvents board header)) ∧
      (s.run board (authorizeEvents board header)).machine.flash =
        (Nor.Op.erase (targetSlot board s.machine.flash) 1024).apply s.machine.flash := by
  rw [authorizeEvents, run_append, run_exchange, run_exchange]
  obtain ⟨hs, hf, -⟩ := step_begin 1 good h (by simp [IsId]) hlen hv
  have hs' := hs.inComplete
  have hf' : ((s.step board (.packet (beginRequest 1 header) good)).step board
      .inComplete).machine.flash = s.machine.flash := (flash_of_inComplete _).trans hf
  obtain ⟨mark, hr, hflash, -⟩ := step_authorize 2 good hs' (by simp [IsId])
    rfl htarget (by rw [hf']; exact hver) fun _ => rfl
  rw [hf'] at hr hflash
  exact ⟨mark, hr.inComplete, (flash_of_inComplete _).trans hflash⟩

/-- **And the first chunk's**, for any chunk at the start of the image that is
short enough. -/
theorem run_startEvents (data : List UInt8) (h : Waiting board s) (hlen : header.length = 48)
    (hv : headerStructuralValid header = true) (htarget : headerTargetValid board header = true)
    (hver : versionRejected (scanFlash board s.machine.flash) (imageVersion header) = false)
    (hfits : ChunkFits 0 data) (himage : data.length ≤ imageLength header) :
    ∃ mark, Receiving board
        ⟨header, headerTag board header, targetSlot board s.machine.flash, mark, [data]⟩
        (s.run board (startEvents board header data)) ∧
      (s.run board (startEvents board header data)).machine.flash =
        applyAll (.erase (targetSlot board s.machine.flash) 1024 :: chunkOps 0 data)
          s.machine.flash := by
  obtain ⟨mark, hr, hflash⟩ := run_authorizeEvents h hlen hv htarget hver
  obtain ⟨hr', hflash', -⟩ := step_data 3 data good hr
    (by simp [IsId]) hfits (by simpa [Session.received] using himage) fun _ => rfl
  simp only [Session.received, List.flatten_nil, List.length_nil, List.nil_append] at hr' hflash'
  rw [startEvents, run_append, run_exchange]
  refine ⟨mark, hr'.inComplete, (flash_of_inComplete _).trans ?_⟩
  rw [Nor.applyAll_cons, ← hflash]
  exact hflash'

/-- The slot holds the record of the image, and the application pages the
image itself. -/
structure Holds (board : Board) (version : ℕ) (image : List UInt8) (slot : ℕ) (f : Mem) : Prop where
  record : slotHeader f slot = imageHeader version image
  counts : slotVersion board f slot = version
  app : f.bytes appBase image.length = image
  boots : appMatchesHeader f (imageHeader version image) = true

/-- The vectors at the start of an image check, for its length. -/
def vectorsOk (image : List UInt8) : Bool :=
  vectorValuesValid (loadLe32 image 0) (loadLe32 image 4) image.length

/-- The vectors of an image that is in the flash are the image's own. -/
theorem vectorsValid_of_bytes {f : Mem} (image : List UInt8)
    (h : f.bytes appBase image.length = image)
    (h8 : 8 ≤ image.length) : vectorsValid f image.length = vectorsOk image := by
  have hget : ∀ i < image.length, image.getD i 0 = f (appBase + i) := fun i hi => by
    conv_lhs => rw [← h]
    exact Nor.Mem.getD_bytes hi
  have hmsp : word f appBase = loadLe32 image 0 := by
    simp only [word, loadLe32, Nat.zero_add]
    rw [Nor.Mem.getD_bytes (by omega), Nor.Mem.getD_bytes (by omega), Nor.Mem.getD_bytes (by omega),
      Nor.Mem.getD_bytes (by omega), hget 0 (by omega), hget 1 (by omega), hget 2 (by omega),
      hget 3 (by omega)]
  have hreset : word f (appBase + 4) = loadLe32 image 4 := by
    simp only [word, loadLe32, Nat.zero_add]
    rw [Nor.Mem.getD_bytes (by omega), Nor.Mem.getD_bytes (by omega), Nor.Mem.getD_bytes (by omega),
      Nor.Mem.getD_bytes (by omega), hget 4 (by omega), hget 5 (by omega), hget 6 (by omega),
      hget 7 (by omega)]
  rw [vectorsValid, hmsp, hreset, vectorsOk]

/-- An image that one DATA request carries, with vectors that check. -/
structure OneChunk (image : List UInt8) : Prop where
  le : 8 ≤ image.length
  ge : image.length ≤ 48
  aligned : image.length &&& 3 = 0
  even : image.length % 2 = 0
  vectors : vectorsOk image = true

/-- An image of one chunk fits into one. -/
theorem OneChunk.fits (h : OneChunk image) : ChunkFits 0 image :=
  ⟨rfl, h.even, by have := h.le; omega, h.ge, by have := h.ge; simp only [appMaxBytes]; omega,
    by have := h.ge; omega⟩

/-- **A waiting device installs a signed image of one chunk** above its
floor, and leaves the other slot alone. -/
theorem run_installEvents (version : ℕ) (image : List UInt8) (h : Waiting board s)
    (hboard : board.deviceId = targetDeviceId)
    (hv : version < 4294967296) (hv0 : version ≠ 0) (hi : OneChunk image)
    (hver : versionRejected (scanFlash board s.machine.flash) version = false) :
    (s.run board (installEvents board version image)).Inv board ∧
      Holds board version image (targetSlot board s.machine.flash)
        (s.run board (installEvents board version image)).machine.flash ∧
      ∀ i < 82, (s.run board (installEvents board version image)).machine.flash
          (otherSlot (targetSlot board s.machine.flash) + i) =
        s.machine.flash (otherSlot (targetSlot board s.machine.flash) + i) := by
  have hfits := hi.fits
  have hmax : image.length ≤ appMaxBytes := by have := hi.ge; simp only [appMaxBytes]; omega
  have hlen := imageLength_imageHeader version image hmax
  obtain ⟨mark, hr, hf⟩ := run_startEvents image h (length_imageHeader version image)
    (headerStructuralValid_imageHeader version image hv hv0 hi.le hmax hi.aligned)
    (headerTargetValid_imageHeader version image hboard)
    (by rw [imageVersion_imageHeader version image hv]; exact hver) hfits (Nat.le_of_eq hlen.symm)
  set s₁ := s.run board (startEvents board (imageHeader version image) image) with hs₁
  set slot := targetSlot board s.machine.flash with hslot
  have his : IsSlot slot := isSlot_targetSlot board s.machine.flash
  have hb := his.bounds
  have happ : s₁.machine.flash.bytes appBase image.length = image := by
    rw [hf, Nor.applyAll_cons]
    exact bytes_applyAll_chunkOps hfits fun hne => absurd rfl hne
  obtain ⟨hinv, hinst, hcom, hout, -⟩ := step_end 4 good hr (by simp [IsId])
    (by rw [hlen]; simp [Session.received])
    (by rw [imageDigest_imageHeader]; simp [Session.received])
    (by rw [hlen, vectorsValid_of_bytes image happ hi.le]; exact hi.vectors) fun _ => rfl
  rw [installEvents, run_append, ← hs₁, run_exchange, flash_of_inComplete]
  refine ⟨inv_step hinv .inComplete, ?_, fun i hi' => ?_⟩
  · exact
      { record := hinst.header
        counts := by
          rw [slotVersion, hcom.authenticated, Option.getD_some]
          exact imageVersion_imageHeader version image hv
        app := by
          have himage := hcom.image
          simp only [hlen, Session.received, List.flatten_cons, List.flatten_nil,
            List.append_nil] at himage
          exact himage
        boots := hinst.app }
  · have hap := his.apart
    have hb' := (isSlot_otherSlot slot).bounds
    rw [hout _ (by simp only; omega), hf, Nor.applyAll_cons,
      Nor.applyAll_of_not_covers fun o ho hc => ?_]
    · exact Nor.Op.apply_of_not_covers (by simp only [Nor.Op.Covers]; omega) _
    · have := covers_chunkOps hfits ho hc
      simp only [appBase, appEnd] at *
      omega

end Update

end DeusOs
