import DeusOs.Bootloader.Model.Handlers

/-!
# The bootloader — what its flash work plans

Each flash routine of the handlers drives a plan of operations, inside
the pages the bootloader owns. `chunkOps` is the plan of one DATA chunk,
`metadataOps` that of the commit.
-/

namespace DeusOs

namespace Bootloader

open Nor (Mem Op Prog Machine Drives Does Stops programOps halfOps applyAll)

/-- An application page or a metadata page, by its first address. -/
def OwnedPage (page : ℕ) : Prop :=
  page % 1024 = 0 ∧ ((appBase ≤ page ∧ page < appEnd) ∨ page = metaA ∨ page = metaB)

/-- `flash_erase_page` erases a page that may be erased. -/
theorem drives_flashErasePage {page : ℕ} (h : OwnedPage page) :
    Drives (flashErasePage page) [.erase page 1024] (fun _ => True) := by
  rw [flashErasePage, if_neg (by simp [h.1]), if_neg (not_not_intro h.2)]
  exact Nor.drives_eraseVerified page 1024

theorem drives_flashProgramHalfword {a v : ℕ} (ha : flashOwnedAddress a = true) (hv : v < 65536) :
    Drives (flashProgramHalfword a v) (halfOps a v) (fun f => f.half a = 0xFFFF) := by
  rw [flashProgramHalfword, if_neg (not_not_intro ha)]
  exact Nor.drives_programVerified a hv

/-- A range of bytes the driver may program: aligned, inside the
application or the metadata pages. -/
def OwnedRange (a n : ℕ) : Prop :=
  a % 2 = 0 ∧ ((appBase ≤ a ∧ a + n ≤ appEnd) ∨ (metaA ≤ a ∧ a + n ≤ metaB + metaPageBytes))

theorem flashOwnedAddress_of_ownedRange {a n x : ℕ} (h : OwnedRange a n) (hax : a ≤ x)
    (hx : x + 2 ≤ a + n) (hpar : (x - a) % 2 = 0) : flashOwnedAddress x = true := by
  obtain ⟨h2, h⟩ := h
  have heven : x % 2 = 0 := by omega
  simp only [flashOwnedAddress, Bool.and_eq_true, Bool.or_eq_true, decide_eq_true_eq, beq_iff_eq]
  exact ⟨h.imp (fun h => ⟨by omega, by omega⟩) fun h => ⟨by omega, by omega⟩, heven⟩

theorem drives_flashProgramEvenBytes {a : ℕ} {p : List UInt8} (h : OwnedRange a p.length)
    (heven : p.length % 2 = 0) :
    Drives (flashProgramEvenBytes a p) (programOps a p) (fun f => f.Blank a p.length) := by
  rw [flashProgramEvenBytes, if_neg (not_not_intro heven)]
  exact Nor.drives_programEach
    (fun x v h1 h2 h3 hv =>
      drives_flashProgramHalfword (flashOwnedAddress_of_ownedRange h h1 h2 h3) hv) heven

/-! ## One DATA chunk -/

/-- A chunk that passed the checks of `handle_data`: even offset and
length, at most 48 bytes, inside the application pages and inside one of
them. -/
structure ChunkFits (off : ℕ) (data : List UInt8) : Prop where
  off_even : off % 2 = 0
  len_even : data.length % 2 = 0
  len_pos : 2 ≤ data.length
  len_le : data.length ≤ 48
  app : off + data.length ≤ appMaxBytes
  page : off % 1024 + data.length ≤ 1024

/-- The plan of a chunk: erase at a page start, then program. -/
def chunkOps (off : ℕ) (data : List UInt8) : List Op :=
  (if off % 1024 = 0 then [.erase (appBase + off) 1024] else []) ++ programOps (appBase + off) data

/-- Where the chunk does not start its page, the flash must read erased. -/
def ChunkReady (off : ℕ) (data : List UInt8) (f : Mem) : Prop :=
  off % 1024 ≠ 0 → f.Blank (appBase + off) data.length

variable {off : ℕ} {data : List UInt8}

/-- Erasing at a page start makes the flash ready for the chunk. -/
theorem blank_of_chunkReady (h : ChunkFits off data) {f : Mem} (hf : ChunkReady off data f) :
    (applyAll (if off % 1024 = 0 then [.erase (appBase + off) 1024] else []) f).Blank
      (appBase + off) data.length := by
  split
  · have := h.len_le
    exact (Op.blank_apply_erase f _ 1024).sub (Nat.le_refl _) (by omega)
  · rename_i hoff
    exact hf hoff

/-- A ready flash holds the chunk once its plan is done. -/
theorem bytes_applyAll_chunkOps (h : ChunkFits off data) {f : Mem} (hf : ChunkReady off data f) :
    (applyAll (chunkOps off data) f).bytes (appBase + off) data.length = data := by
  rw [chunkOps, Nor.applyAll_append]
  exact Nor.bytes_applyAll_programOps h.len_even (blank_of_chunkReady h hf)

/-- Reading back issues nothing, and succeeds exactly where the bytes are there.
-/
theorem drives_readBack (a : ℕ) (data : List UInt8) :
    Drives (ρ := BootRam) (do let f ← Prog.flash; pure (f.bytes a data.length == data)) []
      (fun f => f.bytes a data.length = data) := by
  intro m
  simp only [Nor.wp_bind, Nor.wp_flash, Nor.wp_pure, beq_iff_eq, beq_eq_false_iff_ne]
  exact ⟨fun h => ⟨Does.refl m, h⟩, fun h => ⟨Stops.refl _ m, fun h' => absurd h' h⟩⟩

theorem ownedPage_app (hoff : off < appMaxBytes) (hpage : off % 1024 = 0) :
    OwnedPage (appBase + off) := by
  unfold OwnedPage
  simp only [appBase, appEnd, appMaxBytes] at *
  omega

theorem ChunkFits.ownedRange (h : ChunkFits off data) :
    OwnedRange (appBase + off) data.length := by
  have h1 := h.off_even
  have h2 := h.app
  unfold OwnedRange
  simp only [appBase, appEnd, appMaxBytes] at *
  omega

/-- **The flash work of an accepted DATA is its plan:** an erase where a page
begins, and a halfword for each pair. -/
theorem drives_writeChunk (h : ChunkFits off data) :
    Drives (writeChunk off data) (chunkOps off data) (ChunkReady off data) := by
  have herase : Drives (if off % 1024 = 0 then flashErasePage (appBase + off) else pure true)
      (if off % 1024 = 0 then [.erase (appBase + off) 1024] else []) (fun _ => True) := by
    split
    · rename_i hpage
      have h1 := h.app
      have h2 := h.len_pos
      exact drives_flashErasePage (ownedPage_app (by omega) hpage)
    · exact Nor.drives_pure_true
  have hprog := drives_flashProgramEvenBytes h.ownedRange h.len_even
  have hall := herase.andThen (hprog.andThen (drives_readBack (appBase + off) data))
  rw [List.append_nil] at hall
  refine hall.congr fun f => ?_
  constructor
  · rintro ⟨-, hblank, -⟩ hoff
    rwa [if_neg hoff] at hblank
  · intro hf
    exact ⟨trivial, blank_of_chunkReady h hf,
      Nor.bytes_applyAll_programOps h.len_even (blank_of_chunkReady h hf)⟩

/-- Every operation of a chunk is an erase of the chunk's page at its
start, or a program inside the chunk. -/
theorem mem_chunkOps {o : Op} (ho : o ∈ chunkOps off data) :
    (o = .erase (appBase + off) 1024 ∧ off % 1024 = 0) ∨
      ∃ x v, o = .program x v ∧ appBase + off ≤ x ∧ x + 2 ≤ appBase + off + data.length := by
  rcases List.mem_append.1 ho with ho | ho
  · split at ho
    · rename_i hpage
      exact Or.inl ⟨List.mem_singleton.1 ho, hpage⟩
    · simp at ho
  · obtain ⟨x, v, rfl, h1, h2, -⟩ := Nor.mem_programOps ho
    exact Or.inr ⟨x, v, rfl, h1, h2⟩

/-- A chunk stays inside the application pages, and inside its own page
from its offset on. -/
theorem covers_chunkOps (h : ChunkFits off data) {o : Op} (ho : o ∈ chunkOps off data) {x : ℕ}
    (hx : o.Covers x) : appBase + off ≤ x ∧ x < appBase + off / 1024 * 1024 + 1024 := by
  have h1 := h.page
  rcases mem_chunkOps ho with ⟨rfl, hpage⟩ | ⟨y, v, rfl, h2, h3⟩
  · simp only [Op.Covers] at hx
    omega
  · simp only [Op.Covers] at hx
    omega

/-! ## The commit -/

/-- The plan of the commit: header, tag, marker. -/
def metadataOps (slot : ℕ) (header tag : List UInt8) : List Op :=
  programOps slot header ++
    (programOps (slot + 48) tag ++ [.program (slot + metaMarkerOffset) metaMarkerCommitted])

theorem ownedRange_slot {slot k n : ℕ} (h : slot = metaA ∨ slot = metaB) (hk : k % 2 = 0)
    (hn : k + n ≤ 1024) : OwnedRange (slot + k) n := by
  unfold OwnedRange
  simp only [metaA, metaB, metaPageBytes] at *
  omega

variable {slot : ℕ} {header tag : List UInt8}

/-- **The flash work of the commit is its plan**, on an erased slot: the header,
the tag, and the marker last. -/
theorem drives_writeMetadata (h : slot = metaA ∨ slot = metaB) (hh : header.length = 48)
    (ht : tag.length = 32) :
    Drives (writeMetadata slot header tag) (metadataOps slot header tag)
      (fun f => f.Blank slot 82) := by
  have h1 := drives_flashProgramEvenBytes (a := slot) (p := header)
    (by simpa using ownedRange_slot h (k := 0) (n := header.length) rfl (by omega)) (by omega)
  have h2 := drives_flashProgramEvenBytes (a := slot + 48) (p := tag)
    (ownedRange_slot h rfl (by omega)) (by omega)
  have h3 := drives_flashProgramHalfword (a := slot + metaMarkerOffset) (v := metaMarkerCommitted)
    (flashOwnedAddress_of_ownedRange (ownedRange_slot h (k := metaMarkerOffset) (n := 2) rfl
      (by simp [metaMarkerOffset])) (Nat.le_refl _) (Nat.le_refl _) (by simp))
    (by simp [metaMarkerCommitted])
  rw [halfOps, if_neg (by simp [metaMarkerCommitted])] at h3
  refine (h1.andThen (h2.andThen h3)).congr fun f => ?_
  have hout1 : ∀ x, slot + 48 ≤ x → applyAll (programOps slot header) f x = f x := fun x hx =>
    Nor.applyAll_programOps_of_outside (Or.inr (by omega)) f
  have hout2 : ∀ x, slot + 80 ≤ x →
      applyAll (programOps (slot + 48) tag) (applyAll (programOps slot header) f) x = f x :=
    fun x hx => by
      rw [Nor.applyAll_programOps_of_outside (Or.inr (by omega)), hout1 x (by omega)]
  simp only [Nor.Mem.half_eq_ffff, hh, ht, metaMarkerOffset]
  constructor
  · rintro ⟨ha, hb, hc⟩
    refine (ha.append (k := 34) ?_)
    refine Nor.Mem.Blank.append (n := 32) (k := 2) (fun i hi => ?_) fun i hi => ?_
    · rw [← hout1 _ (by omega)]
      exact hb i hi
    · rw [show slot + 48 + 32 + i = slot + 80 + i by omega, ← hout2 _ (by omega)]
      exact hc i hi
  · intro hf
    refine ⟨hf.sub (Nat.le_refl _) (by omega), fun i hi => ?_, fun i hi => ?_⟩
    · rw [hout1 _ (by omega)]
      exact hf.sub (b := slot + 48) (k := 32) (by omega) (by omega) i hi
    · rw [hout2 _ (by omega)]
      exact hf.sub (b := slot + 80) (k := 2) (by omega) (by omega) i hi

/-- Every operation of the commit but the last is a program below the
marker. -/
theorem mem_metadataOps (hh : header.length = 48) (ht : tag.length = 32) {o : Op}
    (ho : o ∈ metadataOps slot header tag) :
    (∃ x v, o = .program x v ∧ slot ≤ x ∧ x + 2 ≤ slot + metaMarkerOffset) ∨
      o = .program (slot + metaMarkerOffset) metaMarkerCommitted := by
  rcases List.mem_append.1 ho with ho | ho
  · obtain ⟨x, v, rfl, h1, h2, -⟩ := Nor.mem_programOps ho
    exact Or.inl ⟨x, v, rfl, h1, by simp only [metaMarkerOffset]; omega⟩
  rcases List.mem_append.1 ho with ho | ho
  · obtain ⟨x, v, rfl, h1, h2, -⟩ := Nor.mem_programOps ho
    exact Or.inl ⟨x, v, rfl, by omega, by simp only [metaMarkerOffset]; omega⟩
  · exact Or.inr (List.mem_singleton.1 ho)

/-- Writing a record stays inside of its eighty-two bytes. -/
theorem covers_metadataOps (hh : header.length = 48) (ht : tag.length = 32) {o : Op}
    (ho : o ∈ metadataOps slot header tag) {x : ℕ} (hx : o.Covers x) :
    slot ≤ x ∧ x < slot + 82 := by
  rcases mem_metadataOps hh ht ho with ⟨y, v, rfl, h1, h2⟩ | rfl
  all_goals
    simp only [Op.Covers, metaMarkerOffset] at *
    omega

end Bootloader

end DeusOs
