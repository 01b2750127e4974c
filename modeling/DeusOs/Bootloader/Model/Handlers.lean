import DeusOs.Bootloader.Model.Image
import DeusOs.Common.Nor.Verified

/-!
# The bootloader — the four update handlers

The static variables of `bootloader.c` (`BootRam`), the flash driver, and
`handle_begin`, `handle_authorize`, `handle_data` and `handle_end` as
programs over the flash machine. A request is the payload the packet
carries, its opcode byte included, as the handlers receive it.
-/

namespace DeusOs

namespace Bootloader

open Nor (Mem Prog)

/-- The `ST_*` codes. -/
inductive Status
  | ok | invalidState | badLength | badFlags | badHeader | authFailed | targetMismatch
  | versionRejected | outOfSequence | flashFailed | digestFailed | vectorInvalid | internalError
  deriving DecidableEq, Repr

/-- The byte a response carries. -/
def Status.code : Status → UInt8
  | ok => 0x00
  | invalidState => 0x01
  | badLength => 0x02
  | badFlags => 0x03
  | badHeader => 0x04
  | authFailed => 0x05
  | targetMismatch => 0x06
  | versionRejected => 0x07
  | outOfSequence => 0x08
  | flashFailed => 0x09
  | digestFailed => 0x0A
  | vectorInvalid => 0x0B
  | internalError => 0x0C

/-- The `STATE_*` codes. -/
inductive UpdateState
  | recoveryIdle | headerStaged | authorized | receiving | verifying | committed
  deriving DecidableEq, Repr

/-- The byte a response carries. -/
def UpdateState.code : UpdateState → UInt8
  | recoveryIdle => 0x00
  | headerStaged => 0x01
  | authorized => 0x02
  | receiving => 0x03
  | verifying => 0x04
  | committed => 0x05

/-- The static variables. `ep1Tx` stands for the IN endpoint: the packets
`bulk_send` has armed on it. -/
structure BootRam where
  stagedHeader : Vector UInt8 48
  stagedTag : Vector UInt8 32
  previousData : Vector UInt8 48
  streamSha : Sha256Ctx
  expectedOffset : ℕ
  previousOffset : ℕ
  previousLength : ℕ
  previousValid : Bool
  updateState : UpdateState
  usbConfiguration : ℕ
  usbTxActive : Bool
  resetAfterTx : Bool
  versionFloor : ℕ
  committedVersion : ℕ
  highestFloorSlot : ℕ
  targetMetadataSlot : ℕ
  ep1Tx : List (List UInt8)

/-- The zeroed `.bss`. -/
def BootRam.zero : BootRam where
  stagedHeader := Vector.replicate 48 0
  stagedTag := Vector.replicate 32 0
  previousData := Vector.replicate 48 0
  streamSha := Sha256Ctx.zero
  expectedOffset := 0
  previousOffset := 0
  previousLength := 0
  previousValid := false
  updateState := .recoveryIdle
  usbConfiguration := 0
  usbTxActive := false
  resetAfterTx := false
  versionFloor := 0
  committedVersion := 0
  highestFloorSlot := 0
  targetMetadataSlot := 0
  ep1Tx := []

/-! ## The flash driver -/

/-- `flash_owned_address`. -/
def flashOwnedAddress (a : ℕ) : Bool :=
  ((appBase ≤ a && a < appEnd) || (metaA ≤ a && a < metaB + metaPageBytes)) && a % 2 == 0

/-- `flash_erase_page`. The unlock, the clock check and the wait belong to
the operation's fate. -/
def flashErasePage (page : ℕ) : Prog BootRam Bool :=
  if page % 1024 ≠ 0 then pure false
  else if ¬ ((appBase ≤ page ∧ page < appEnd) ∨ page = metaA ∨ page = metaB) then pure false
  else Nor.eraseVerified page 1024

/-- `flash_program_halfword`. -/
def flashProgramHalfword (a v : ℕ) : Prog BootRam Bool :=
  if ¬ flashOwnedAddress a then pure false
  else Nor.programVerified a v

/-- `flash_program_even_bytes`. -/
def flashProgramEvenBytes (a : ℕ) (p : List UInt8) : Prog BootRam Bool :=
  if p.length % 2 ≠ 0 then pure false
  else Nor.programEach flashProgramHalfword a p

/-! ## The handlers -/

variable (board : Board)

/-- `scan_metadata`. -/
def scanMetadata : Prog BootRam Unit := do
  let f ← Prog.flash
  let s := scanFlash board f
  Prog.modifyRam fun r => { r with
    versionFloor := s.versionFloor
    highestFloorSlot := s.highestFloorSlot
    committedVersion := s.committedVersion }

/-- `update_state = s; return st;`. -/
def leave (s : UpdateState) (st : Status) : Prog BootRam Status := do
  Prog.modifyRam fun r => { r with updateState := s }
  pure st

/-- `handle_begin`. -/
def handleBegin (p : List UInt8) : Prog BootRam Status := do
  let r ← Prog.ram
  if p.length ≠ 49 then pure .badLength
  else if r.updateState ≠ .recoveryIdle ∧ r.updateState ≠ .headerStaged then pure .invalidState
  else
    let header := bytesCopy r.stagedHeader (p.drop 1) 48
    Prog.modifyRam fun r => { r with
      stagedHeader := header
      previousValid := false
      expectedOffset := 0
      targetMetadataSlot := 0 }
    if ¬ headerStructuralValid header.toList then leave .recoveryIdle .badHeader
    else leave .headerStaged .ok

/-- The version check of `handle_authorize`: with a committed application
the candidate must be above the floor, without one not below it. -/
def versionRejected (s : Scan) (cand : ℕ) : Bool :=
  if s.committedVersion ≠ 0 then decide (cand ≤ s.versionFloor) else decide (cand < s.versionFloor)

/-- The slot `handle_authorize` erases. -/
def authorizeTarget (highestFloorSlot : ℕ) : ℕ := if highestFloorSlot = metaA then metaB else metaA

/-- `handle_authorize`. -/
def handleAuthorize (p : List UInt8) : Prog BootRam Status := do
  let r ← Prog.ram
  if p.length ≠ 33 then pure .badLength
  else if r.updateState ≠ .headerStaged then pure .invalidState
  else
    let tag := bytesCopy r.stagedTag (p.drop 1) 32
    let header := r.stagedHeader.toList
    Prog.modifyRam fun r => { r with stagedTag := tag }
    if ¬ bytesEqual (hmacHeader board.deusUpdateKey header).toList tag.toList 32 then
      pure .authFailed
    else if ¬ headerTargetValid board header then pure .targetMismatch
    else
      scanMetadata board
      let f ← Prog.flash
      if versionRejected (scanFlash board f) (imageVersion header) then pure .versionRejected
      else
        let target := authorizeTarget (scanFlash board f).highestFloorSlot
        Prog.modifyRam fun r => { r with targetMetadataSlot := target }
        if ← flashErasePage target then
          Prog.modifyRam fun r => { r with
            streamSha := sha256Init r.streamSha
            expectedOffset := 0
            previousValid := false }
          leave .authorized .ok
        else leave .recoveryIdle .flashFailed

/-- The offset a DATA request names. -/
def dataOffset (p : List UInt8) : ℕ := loadLe16 p 1

/-- The bytes a DATA request carries. -/
def dataBytes (p : List UInt8) : List UInt8 := p.drop 3

/-- The length, parity, image and page checks of `handle_data`. -/
def dataMalformed (imageLen : ℕ) (p : List UInt8) : Bool :=
  let off := dataOffset p
  let len := (p.length - 3) % 256
  off % 2 == 1 || len % 2 == 1 || len < 2 || 48 < len || imageLen < off + len ||
    1024 < off % 1024 + len

/-- The retry check of `handle_data`. -/
def dataRepeats (r : BootRam) (p : List UInt8) : Bool :=
  r.previousValid && dataOffset p == r.previousOffset && (dataBytes p).length == r.previousLength &&
    bytesEqual (dataBytes p) r.previousData.toList (dataBytes p).length

/-- The flash work of `handle_data`: erase at a page start, program, read
back. -/
def writeChunk (off : ℕ) (data : List UInt8) : Prog BootRam Bool :=
  let addr := appBase + off
  Prog.andThen (if off % 1024 = 0 then flashErasePage addr else pure true)
    (Prog.andThen (flashProgramEvenBytes addr data)
      (do let f ← Prog.flash; pure (f.bytes addr data.length == data)))

/-- `handle_data`. -/
def handleData (p : List UInt8) : Prog BootRam Status := do
  let r ← Prog.ram
  if p.length < 5 ∨ 51 < p.length then pure .badLength
  else if r.updateState ≠ .authorized ∧ r.updateState ≠ .receiving then pure .invalidState
  else if dataMalformed (imageLength r.stagedHeader.toList) p then pure .badLength
  else if dataRepeats r p then pure .ok
  else if dataOffset p ≠ r.expectedOffset then pure .outOfSequence
  else if ← writeChunk (dataOffset p) (dataBytes p) then
    let data := dataBytes p
    Prog.modifyRam fun r => { r with
      streamSha := sha256Update r.streamSha data
      previousData := bytesCopy r.previousData data data.length
      previousOffset := dataOffset p
      previousLength := data.length
      previousValid := true
      expectedOffset := (r.expectedOffset + data.length) % 65536 }
    leave .receiving .ok
  else leave .recoveryIdle .flashFailed

/-- The commit of `handle_end`: header, tag, and the marker last. -/
def writeMetadata (slot : ℕ) (header tag : List UInt8) : Prog BootRam Bool :=
  (flashProgramEvenBytes slot header).andThen
    ((flashProgramEvenBytes (slot + 48) tag).andThen
      (flashProgramHalfword (slot + metaMarkerOffset) metaMarkerCommitted))

/-- `handle_end`. -/
def handleEnd (n : ℕ) : Prog BootRam Status := do
  let r ← Prog.ram
  let header := r.stagedHeader.toList
  let imageLen := imageLength header
  if n ≠ 1 then pure .badLength
  else if r.updateState ≠ .authorized ∧ r.updateState ≠ .receiving then pure .invalidState
  else if r.expectedOffset ≠ imageLen then pure .outOfSequence
  else
    Prog.modifyRam fun r => { r with
      updateState := .verifying
      streamSha := sha256Finish r.streamSha }
    let f ← Prog.flash
    if ¬ bytesEqual (sha256Final r.streamSha).toList (imageDigest header) 32 then
      leave .recoveryIdle .digestFailed
    else if ¬ bytesEqual (appDigest f imageLen).toList (imageDigest header) 32 then
      leave .recoveryIdle .digestFailed
    else if ¬ vectorsValid f imageLen then leave .recoveryIdle .vectorInvalid
    else if r.targetMetadataSlot ≠ metaA ∧ r.targetMetadataSlot ≠ metaB then
      leave .recoveryIdle .internalError
    else if ← writeMetadata r.targetMetadataSlot header r.stagedTag.toList then
      let cand := imageVersion header
      Prog.modifyRam fun r => { r with
        versionFloor := if r.versionFloor < cand then cand else r.versionFloor
        committedVersion := cand
        resetAfterTx := true }
      leave .committed .ok
    else leave .recoveryIdle .flashFailed

end Bootloader

end DeusOs
