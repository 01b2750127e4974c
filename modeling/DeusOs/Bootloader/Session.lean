import DeusOs.Bootloader.Scan
import DeusOs.Bootloader.Stream

/-!
# The bootloader — the open session

The invariant every later result stands on. While DATA and END are served
the session is open (`Open`): the staged header and tag are the ones
AUTHORIZE checked, the metadata slot it chose is still erased, and the
application pages, the running hash and the operations issued are those
of the chunks accepted so far. `inv_run` holds it over every run, from any
flash, through failed operations and resets.
-/

namespace DeusOs

namespace Bootloader

open Nor (Mem Op Machine Does Stops Outcome Entry applyAll)

variable (board : Board)

/-- The bytes accepted in the session. -/
def Session.received (s : Session) : List UInt8 := s.chunks.flatten

/-- An open session: what RAM, flash and log hold of it. -/
structure Open (m : Machine BootRam) (s : Session) : Prop where
  header : m.ram.stagedHeader.toList = s.header
  tag : m.ram.stagedTag.toList = s.tag
  slot : m.ram.targetMetadataSlot = s.slot
  isSlot : IsSlot s.slot
  structural : headerStructuralValid s.header = true
  target : headerTargetValid board s.header = true
  authentic : s.tag = (hmacHeader board.deusUpdateKey s.header).toList
  version : floor board m.flash ≤ imageVersion s.header
  erased : m.flash.Blank s.slot 1024
  chunks : Chunks (imageLength s.header) 0 s.chunks
  offset : m.ram.expectedOffset = s.received.length
  app : m.flash.bytes appBase s.received.length = s.received
  rest : s.received.length % 1024 ≠ 0 →
    m.flash.Blank (appBase + s.received.length) (1024 - s.received.length % 1024)
  stream : ∃ c, m.ram.streamSha = sha256Update (sha256Init c) s.received
  mark : s.mark ≤ m.log.length
  ops : (m.log.drop s.mark).map Entry.op = streamOps 0 s.chunks
  fresh : m.ram.previousValid = true ↔ s.chunks ≠ []
  last : ∀ cs c, s.chunks = cs ++ [c] → m.ram.previousOffset = cs.flatten.length ∧
    m.ram.previousLength = c.length ∧ m.ram.previousData.toList.take c.length = c

/-- What holds of the machine between two packets: a staged header is well
formed, and a live session is open. -/
structure Inv (m : Machine BootRam) (s : Session) : Prop where
  staged : m.ram.updateState = .headerStaged →
    headerStructuralValid m.ram.stagedHeader.toList = true
  live : m.ram.Live → Open board m s

variable {board} {m m' : Machine BootRam} {s : Session} {rx : List UInt8}

/-- A staged header is not yet a live session. -/
theorem not_live_of_staged {r : BootRam} (h : r.updateState = .headerStaged) : ¬ r.Live := by
  rintro (hl | hl) <;> rw [h] at hl <;> cases hl

/-- A machine that waits for BEGIN, or has committed, has nothing to keep. -/
theorem Inv.of_dead (h : m.ram.updateState = .recoveryIdle ∨ m.ram.updateState = .committed) :
    Inv board m s where
  staged hs := by rcases h with h | h <;> rw [h] at hs <;> cases hs
  live hl := by rcases h with h | h <;> rcases hl with hl | hl <;> rw [h] at hl <;> cases hl

/-! ## Variables no session depends on -/

/-- `m` with the endpoint variables and the scan results of `r`. -/
def aside (m : Machine BootRam) (r : BootRam) (tape : ℕ → Option Outcome) : Machine BootRam :=
  { m with
    tape
    ram := { m.ram with
      usbConfiguration := r.usbConfiguration
      usbTxActive := r.usbTxActive
      ep1Tx := r.ep1Tx
      versionFloor := r.versionFloor
      committedVersion := r.committedVersion
      highestFloorSlot := r.highestFloorSlot } }

theorem Open.aside (h : Open board m s) (r : BootRam) (tape : ℕ → Option Outcome) :
    Open board (aside m r tape) s :=
  ⟨h.header, h.tag, h.slot, h.isSlot, h.structural, h.target, h.authentic, h.version, h.erased,
    h.chunks, h.offset, h.app, h.rest, h.stream, h.mark, h.ops, h.fresh, h.last⟩

theorem Inv.aside (h : Inv board m s) (r : BootRam) (tape : ℕ → Option Outcome) :
    Inv board (aside m r tape) s :=
  ⟨h.staged, fun hl => (h.live hl).aside r tape⟩

/-- Handing the response to the endpoint touches only such variables. -/
theorem respond_eq_aside (rx : List UInt8) (st : Status) (m : Machine BootRam) :
    ∃ r, respond rx st m = aside m r m.tape := by
  refine ⟨sendRam m.ram (buildResponse m.ram (loadLe16 rx 6) (packetOpcode rx) st), ?_⟩
  unfold respond sendRam
  split <;> rfl

/-! ## The history -/

/-- Only an `ST_OK` is noted. -/
theorem note_of_ne_ok {st : Status} (h : st ≠ .ok) : s.note rx m m' (some st) = s := by
  simp [Session.note, h]

/-- Only AUTHORIZE and DATA are noted. -/
theorem note_of_opcode {a : Option Status} (ha : packetOpcode rx ≠ opAuthorize)
    (hd : packetOpcode rx ≠ opData) : s.note rx m m' a = s := by
  simp [Session.note, ha, hd]

/-- An accepted AUTHORIZE is noted with what it staged, and no chunk. -/
theorem note_authorize (h : packetOpcode rx = opAuthorize) :
    s.note rx m m' (some .ok) =
      { header := m'.ram.stagedHeader.toList, tag := m'.ram.stagedTag.toList
        slot := m'.ram.targetMetadataSlot, mark := m'.log.length, chunks := [] } := by
  simp [Session.note, h]

/-- An accepted DATA at the expected offset is noted as one chunk more. -/
theorem note_data (h : packetOpcode rx = opData)
    (hoff : dataOffset (packetPayload rx) = m.ram.expectedOffset) :
    s.note rx m m' (some .ok) = { s with chunks := s.chunks ++ [dataBytes (packetPayload rx)] } := by
  simp [Session.note, h, hoff, opAuthorize, opData]

/-- The answer that is sent is not noted. -/
theorem note_respond (a : Option Status) (st : Status) :
    s.note rx m (respond rx st m') a = s.note rx m m' a := by
  obtain ⟨r, hr⟩ := respond_eq_aside rx st m'
  rw [hr]
  rfl

/-! ## The step that opens, and the step that extends -/

theorem floor_congr {f g : Mem} (h : ∀ x, appEnd ≤ x → f x = g x) :
    floor board f = floor board g := by
  have hA := IsSlot.bounds (Or.inl rfl : IsSlot metaA)
  have hB := IsSlot.bounds (Or.inr rfl : IsSlot metaB)
  rw [floor, floor, slotVersion_congr fun i _ => h _ (by omega),
    slotVersion_congr fun i _ => h _ (by omega)]

/-- Only the erased slot changes, and it counted for nothing of the floor. -/
theorem floor_le_of_spared {f g : Mem} {slot : ℕ} (hslot : IsSlot slot)
    (hf : floor board f = slotVersion board f (otherSlot slot))
    (h : ∀ x, x < slot ∨ slot + 1024 ≤ x → f x = g x) : floor board f ≤ floor board g := by
  have hap := hslot.apart
  rw [hf, slotVersion_congr fun i _ => h (otherSlot slot + i) (by omega)]
  exact slotVersion_le_floor (isSlot_otherSlot slot)

/-- A version that is not rejected is not below the floor. -/
theorem versionRejected_floor {f : Mem} {cand : ℕ}
    (h : versionRejected (scanFlash board f) cand = false) : floor board f ≤ cand := by
  unfold versionRejected at h
  rw [scan_versionFloor] at h
  split at h <;> simp only [decide_eq_false_iff_not] at h <;> omega

/-- **AUTHORIZE opens a session:** the slot is erased, the header and the tag
are staged, and nothing is received. -/
theorem Open.authorize {p : List UInt8} (hinv : Inv board m s) (ha : Authorizes board m p)
    (hd : Does [.erase (targetSlot board m.flash) 1024]
      { m with ram := authorizeRam board m.flash m.ram p } m')
    {s' : Session} (hs' : s' =
      { header := m.ram.stagedHeader.toList, tag := p.drop 1
        slot := targetSlot board m.flash, mark := m'.log.length, chunks := [] }) :
    Open board { m' with ram := authorizedRam board m.flash m.ram p } s' := by
  subst hs'
  have hslot := isSlot_targetSlot board m.flash
  have herased : m'.flash.Blank (targetSlot board m.flash) 1024 := by
    rw [hd.flash]
    exact Op.blank_apply_erase _ _ _
  have hspared : ∀ x, x < targetSlot board m.flash ∨ targetSlot board m.flash + 1024 ≤ x →
      m'.flash x = m.flash x := fun x hx => by
    rw [hd.flash]
    refine Nor.applyAll_of_not_covers (fun o ho => ?_) _
    rw [List.mem_singleton.1 ho]
    simp only [Op.Covers]
    omega
  exact
    { header := rfl
      tag := toList_bytesCopy _ (by simp [ha.length])
      slot := rfl
      isSlot := hslot
      structural := hinv.staged ha.staged
      target := ha.target
      authentic := ha.tag
      version := by
        have hle := versionRejected_floor ha.version
        have hap := hslot.apart
        have hzero : slotVersion board m'.flash (targetSlot board m.flash) = 0 :=
          slotVersion_of_blank (herased.sub (Nat.le_refl _) (by omega))
        have hother : slotVersion board m'.flash (otherSlot (targetSlot board m.flash)) =
            slotVersion board m.flash (otherSlot (targetSlot board m.flash)) :=
          slotVersion_congr fun i _ => hspared _ (by omega)
        rw [floor_eq_max hslot, hzero, hother, ← floor_eq_spared]
        simpa using hle
      erased := herased
      chunks := trivial
      offset := rfl
      app := rfl
      rest := fun h => absurd rfl h
      stream := ⟨_, rfl⟩
      mark := Nat.le_refl _
      ops := by simp [streamOps]
      fresh := by simp [authorizedRam]
      last := fun cs c h => by simp at h }

/-- The rest of the current page is ready for the next chunk. -/
theorem Open.chunkReady (h : Open board m s) {data : List UInt8}
    (hfits : ChunkFits s.received.length data) :
    ChunkReady s.received.length data m.flash := fun hmid =>
  (h.rest hmid).sub (Nat.le_refl _) (by have := hfits.page; omega)

/-- **An accepted DATA extends it** by its bytes, which are on the flash behind
those before. -/
theorem Open.data {p : List UInt8} (h : Open board m s) (ha : Accepts m.ram p)
    (hd : Does (chunkOps (dataOffset p) (dataBytes p)) m m') :
    Open board { m' with ram := dataRam m.ram p }
      { s with chunks := s.chunks ++ [dataBytes p] } := by
  have hoff : dataOffset p = s.received.length := ha.next.trans h.offset
  have hfits := ha.fits
  rw [hoff] at hd hfits
  have himage : s.received.length + (dataBytes p).length ≤ imageLength s.header := by
    have := ha.image
    rwa [hoff, h.header] at this
  have hlen := imageLength_bounds h.structural
  have hready := h.chunkReady hfits
  have hreceived : ({ s with chunks := s.chunks ++ [dataBytes p] } : Session).received =
      s.received ++ dataBytes p := by
    simp [Session.received]
  -- below the chunk, and beyond the application pages, nothing moves
  have hbelow : ∀ x, x < appBase + s.received.length → m'.flash x = m.flash x := fun x hx => by
    rw [hd.flash]
    refine Nor.applyAll_of_not_covers (fun o ho hc => ?_) _
    have := covers_chunkOps hfits ho hc
    omega
  have habove : ∀ x, appEnd ≤ x → m'.flash x = m.flash x := fun x hx => by
    rw [hd.flash]
    refine Nor.applyAll_of_not_covers (fun o ho hc => ?_) _
    have := covers_chunkOps hfits ho hc
    have := hfits.app
    have := hfits.len_pos
    simp only [appBase, appEnd, appMaxBytes] at *
    omega
  have hbounds := h.isSlot.bounds
  exact
    { header := by simp only [dataRam]; exact h.header
      tag := by simp only [dataRam]; exact h.tag
      slot := by simp only [dataRam]; exact h.slot
      isSlot := h.isSlot
      structural := h.structural
      target := h.target
      authentic := h.authentic
      version := by
        have := h.version
        rwa [← floor_congr habove] at this
      erased := fun i hi => (habove (s.slot + i) (by omega)).trans (h.erased i hi)
      chunks := chunks_append_singleton.2 ⟨h.chunks, by simpa [Session.received] using hfits,
        by simpa [Session.received] using himage⟩
      offset := by
        have h1 := h.offset
        rw [hreceived, List.length_append]
        simp only [dataRam, h1]
        exact Nat.mod_eq_of_lt (by simp only [appMaxBytes] at hlen; omega)
      app := by
        have hold : m'.flash.bytes appBase s.received.length = s.received :=
          (Nor.Mem.bytes_congr fun i hi => hbelow _ (by omega)).trans h.app
        have hnew : m'.flash.bytes (appBase + s.received.length) (dataBytes p).length =
            dataBytes p := by
          rw [hd.flash]
          exact bytes_applyAll_chunkOps hfits hready
        rw [hreceived, List.length_append, Nor.Mem.bytes_add, hold, hnew]
      rest := by
        rw [hreceived, List.length_append]
        intro hmid
        have hblank := blank_applyAll_chunkOps hfits h.rest
        rw [← hd.flash] at hblank
        have hpage := hfits.page
        exact hblank.sub (Nat.le_refl _) (by omega)
      stream := by
        obtain ⟨c, hc⟩ := h.stream
        refine ⟨c, ?_⟩
        rw [hreceived]
        simp only [dataRam, hc, sha256Update, List.foldl_append]
      mark := by
        obtain ⟨es, hes, -⟩ := hd.issued
        have := h.mark
        simp only [hes.log, List.length_append]
        omega
      ops := by
        obtain ⟨es, hes, hops⟩ := hd.issued
        rw [streamOps_append_singleton, ← h.ops, hes.log, List.drop_append_of_le_length h.mark,
          List.map_append, hops]
        simp [Session.received]
      fresh := by simp [dataRam]
      last := by
        intro cs c hcs
        obtain ⟨rfl, hc⟩ := List.append_inj' hcs rfl
        obtain rfl : dataBytes p = c := by simpa using hc
        exact ⟨hoff, rfl, take_bytesCopy _ rfl (by have := hfits.len_le; omega)⟩ }

/-- A repeated DATA is not at the expected offset. -/
theorem Open.repeats_ne {p : List UInt8} (h : Open board m s) (hr : dataRepeats m.ram p = true) :
    dataOffset p ≠ m.ram.expectedOffset := by
  simp only [dataRepeats, Bool.and_eq_true, beq_iff_eq] at hr
  obtain ⟨⟨⟨hv, ho⟩, -⟩, -⟩ := hr
  obtain ⟨cs, c, hcs⟩ : ∃ cs c, s.chunks = cs ++ [c] :=
    ⟨_, _, (List.dropLast_concat_getLast (h.fresh.1 hv)).symm⟩
  have hlast := h.last cs c hcs
  have hfit := (chunks_append_singleton.1 (hcs ▸ h.chunks)).2.1
  have hpos := hfit.len_pos
  have hrec : s.received.length = cs.flatten.length + c.length := by simp [Session.received, hcs]
  rw [h.offset, ho, hlast.1, hrec]
  omega

/-! ## Every packet keeps the invariant -/

/-- AUTHORIZE refused after the tag was copied leaves the header staged. -/
theorem Inv.restaged (h : Inv board m s) (hs : m.ram.updateState = .headerStaged)
    (hr : m'.ram.updateState = .headerStaged) (hh : m'.ram.stagedHeader = m.ram.stagedHeader)
    {s' : Session} : Inv board m' s' where
  staged _ := by simpa only [hh] using h.staged hs
  live hl := by rcases hl with hl | hl <;> simp [hr] at hl

/-- **Every handler keeps the session's invariant,** with what is noted of it.
-/
theorem Inv.dispatch {st : Status} (h : Inv board m s)
    (hd : DispatchStep board m rx (some st) m') : Inv board m' (s.note rx m m' (some st)) := by
  cases hd with
  | refused hst =>
    rw [note_of_ne_ok (by rcases hst with rfl | rfl | rfl <;> decide)]
    exact h
  | info hop =>
    rw [note_of_opcode (by rw [hop]; decide) (by rw [hop]; decide)]
    exact h.aside (scanRam board m.flash m.ram) m.tape
  | begin hop hb =>
    rw [note_of_opcode (by rw [hop]; decide) (by rw [hop]; decide)]
    cases hb with
    | refused => exact h
    | malformed => exact .of_dead (Or.inl rfl)
    | staged hb hvalid =>
      refine ⟨fun _ => ?_, fun hl => by rcases hl with hl | hl <;> cases hl⟩
      show headerStructuralValid (bytesCopy m.ram.stagedHeader _ 48).toList = true
      rwa [toList_bytesCopy _ (by simp [hb.length])]
  | authorize hop ha =>
    cases ha with
    | refused _ hst =>
      rw [note_of_ne_ok (by rcases hst with rfl | rfl <;> decide)]
      exact h
    | unauthenticated _ hs _ =>
      refine h.restaged hs ?_ ?_
      · exact hs
      · rfl
    | rejected _ hs =>
      refine h.restaged hs ?_ ?_ <;> simp only [scanRam]
      exact hs
    | authorized ha hdoes =>
      refine ⟨fun hs => (by cases hs), fun _ => Open.authorize h ha hdoes ?_⟩
      have hcopy := toList_bytesCopy m.ram.stagedTag (s := (packetPayload rx).drop 1)
        (by simp [ha.length])
      simp only [note_authorize hop, authorizedRam, authorizeRam, scanRam, hcopy]
    | failed => exact .of_dead (Or.inl rfl)
  | data hop hstep =>
    cases hstep with
    | refused _ hst =>
      rw [note_of_ne_ok (by rcases hst with rfl | rfl | rfl <;> decide)]
      exact h
    | repeated hl hrep =>
      have hne := (h.live hl).repeats_ne hrep
      have hnote : s.note rx m m (some .ok) = s := by
        simp [Session.note, hop, hne, opAuthorize, opData]
      rwa [hnote]
    | accepted ha hdoes =>
      refine ⟨fun hs => (by cases hs), fun _ => ?_⟩
      rw [note_data hop ha.next]
      exact (h.live ha.live).data ha hdoes
    | failed => exact .of_dead (Or.inl rfl)
  | «end» hop he =>
    rw [note_of_opcode (by rw [hop]; decide) (by rw [hop]; decide)]
    cases he with
    | refused => exact h
    | unverified => exact .of_dead (Or.inl rfl)
    | committed => exact .of_dead (Or.inr rfl)
    | failed => exact .of_dead (Or.inl rfl)

/-- **Every packet keeps the session's invariant,** accepted or not. -/
theorem Inv.packet {a : Option Status} (h : Inv board m s)
    (hp : PacketStep board m rx (some a) m') : Inv board m' (s.note rx m m' a) := by
  cases hp with
  | ignored => simpa [Session.note] using h
  | @served st m₁ _ hd =>
    rw [note_respond]
    obtain ⟨r, hr⟩ := respond_eq_aside rx st m₁
    rw [hr]
    exact (h.dispatch hd).aside r _

end Bootloader

end DeusOs
