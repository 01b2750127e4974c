import DeusOs.Bootloader.Model.Sha256
import Mathlib.Algebra.GroupWithZero.Nat

/-!
# The bootloader — image headers and what the flash says is committed

The memory map, the checks on a 48-byte image header, and the decision
`scan_metadata` takes from the flash alone: which metadata slots are
authenticated, which version is the floor, and whether the application
bytes match a slot. `Board` holds the two inputs that are not in the
source: the update key and the device id register.
-/

namespace DeusOs

namespace Bootloader

open Nor (Mem)

/-- `APP_BASE`. -/
def appBase : ℕ := 0x08002000
/-- `APP_END`. -/
def appEnd : ℕ := 0x0800F000
/-- `APP_MAX_BYTES`. -/
def appMaxBytes : ℕ := 53248
/-- `META_A`. -/
def metaA : ℕ := 0x0800F000
/-- `META_B`. -/
def metaB : ℕ := 0x0800F400
/-- `META_PAGE_BYTES`. -/
def metaPageBytes : ℕ := 1024
/-- `PERSIST_A`. -/
def persistA : ℕ := 0x0800F800
/-- `RAM_BASE`. -/
def ramBase : ℕ := 0x20000000
/-- `RAM_END`. -/
def ramEnd : ℕ := 0x20005000
/-- `PRODUCT_ID`. -/
def productId : ℕ := 0x534F4544
/-- `TARGET_DEVICE_ID`. -/
def targetDeviceId : ℕ := 0x0410
/-- `IMAGE_FORMAT_VERSION`. -/
def imageFormatVersion : UInt8 := 1
/-- `META_MARKER_OFFSET`. -/
def metaMarkerOffset : ℕ := 0x50
/-- `META_MARKER_COMMITTED`. -/
def metaMarkerCommitted : ℕ := 0xA55A

/-- What the build and the chip supply: `deus_update_key` and
`DBGMCU_IDCODE`. -/
structure Board where
  deusUpdateKey : Vector UInt8 32
  dbgmcuIdcode : ℕ

variable (board : Board)

/-- `device_id`. -/
def Board.deviceId : ℕ := board.dbgmcuIdcode &&& 0x0FFF

/-- The image length field of a header. -/
def imageLength (h : List UInt8) : ℕ := loadLe32 h 8

/-- The version field of a header. -/
def imageVersion (h : List UInt8) : ℕ := loadLe32 h 12

/-- The digest field of a header. -/
def imageDigest (h : List UInt8) : List UInt8 := h.drop 16

/-- `header_structural_valid`. -/
def headerStructuralValid (h : List UInt8) : Bool :=
  h.getD 4 0 == imageFormatVersion && h.getD 5 0 == 0 &&
    decide (8 ≤ imageLength h) && decide (imageLength h ≤ appMaxBytes) &&
    imageLength h &&& 3 == 0 && imageVersion h != 0

/-- `header_target_valid`. -/
def headerTargetValid (h : List UInt8) : Bool :=
  loadLe32 h 0 == productId && loadLe16 h 6 == targetDeviceId &&
    board.deviceId == targetDeviceId

/-- `vector_values_valid`: the stack pointer is aligned and in RAM, the
reset handler is a Thumb address inside the image. -/
def vectorValuesValid (msp reset imageLen : ℕ) : Bool :=
  let handler := reset - reset % 2
  let imageEnd := (appBase + imageLen) % 2 ^ 32
  if imageLen < 8 ∨ appMaxBytes < imageLen then false
  else if imageEnd < appBase ∨ appEnd < imageEnd then false
  else if msp % 8 ≠ 0 ∨ msp < ramBase ∨ ramEnd < msp then false
  else if reset % 2 = 0 ∨ handler < appBase ∨ imageEnd ≤ handler then false
  else true

/-- `REG32`, as a read of flash. -/
def word (f : Mem) (a : ℕ) : ℕ := loadLe32 (f.bytes a 4) 0

/-- `vectors_valid`. -/
def vectorsValid (f : Mem) (imageLen : ℕ) : Bool :=
  vectorValuesValid (word f appBase) (word f (appBase + 4)) imageLen

/-- `sha256_memory(APP_BASE, n)`. -/
def appDigest (f : Mem) (n : ℕ) : Vector UInt8 32 := sha256Memory (f.bytes appBase n)

/-- `app_matches_header`. -/
def appMatchesHeader (f : Mem) (h : List UInt8) : Bool :=
  bytesEqual (appDigest f (imageLength h)).toList (imageDigest h) 32 && vectorsValid f (imageLength h)

/-- The 48 header bytes of a metadata slot. -/
def slotHeader (f : Mem) (slot : ℕ) : List UInt8 := f.bytes slot 48

/-- The 32 tag bytes of a metadata slot. -/
def slotTag (f : Mem) (slot : ℕ) : List UInt8 := f.bytes (slot + 48) 32

/-- `metadata_authenticated`: the version, where it returns true. -/
def metadataAuthenticated (f : Mem) (slot : ℕ) : Option ℕ :=
  let header := slotHeader f slot
  if f.half (slot + metaMarkerOffset) ≠ metaMarkerCommitted then none
  else if ¬ headerStructuralValid header then none
  else if ¬ bytesEqual (hmacHeader board.deusUpdateKey header).toList (slotTag f slot) 32 then none
  else if ¬ headerTargetValid board header then none
  else some (imageVersion header)

/-- What `scan_metadata` writes: the version floor, the slot it was read
from (`0` for none) and the version that is bootable (`0` for none). -/
structure Scan where
  versionFloor : ℕ
  highestFloorSlot : ℕ
  committedVersion : ℕ
  deriving DecidableEq, Repr

/-- `scan_metadata`, as a function of the flash. -/
def scanFlash (f : Mem) : Scan :=
  let aa := metadataAuthenticated board f metaA
  let ab := metadataAuthenticated board f metaB
  let s : Scan := ⟨0, 0, 0⟩
  let s := match aa with
    | some va => { s with versionFloor := va, highestFloorSlot := metaA }
    | none => s
  let s := match ab with
    | some vb =>
      if s.versionFloor ≤ vb then { s with versionFloor := vb, highestFloorSlot := metaB } else s
    | none => s
  -- `best_boot` and `committed_version` are always written together
  let s := match aa with
    | some va =>
      if appMatchesHeader f (slotHeader f metaA) then { s with committedVersion := va } else s
    | none => s
  match ab with
  | some vb =>
    if appMatchesHeader f (slotHeader f metaB) ∧ s.committedVersion ≤ vb then
      { s with committedVersion := vb } else s
  | none => s

end Bootloader

end DeusOs
