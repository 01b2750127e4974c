import DeusOs.Bootloader.End
import DeusOs.Bootloader.Sha

/-!
# The bootloader — requests that are served

The other half of what a request can do: a request that meets its checks,
on a flash that works, is answered `ST_OK`, and what it leaves is its plan
done. `serve_begin`, `serve_authorize`, `serve_data` and `serve_end` are
the four; a session is their composition.
-/

namespace DeusOs

namespace Bootloader

open Nor (Mem Op Machine Does Outcome Sound applyAll)

variable {board : Board} {m : Machine BootRam} {s : Session} {rx : List UInt8}

/-- A destructive request for the handler of `op`. -/
structure IsRequest (op : UInt8) (rx : List UInt8) : Prop where
  accepted : packetAccepted rx = true
  flags : rx.getD 4 0 = 1
  opcode : packetOpcode rx = op

/-- A BEGIN goes to its handler. -/
theorem IsRequest.dispatch_begin (h : IsRequest opBegin rx) :
    dispatch board rx = handleBegin (packetPayload rx) := by
  simp only [dispatch, h.flags, h.opcode]
  rfl

/-- An AUTHORIZE goes to its handler. -/
theorem IsRequest.dispatch_authorize (h : IsRequest opAuthorize rx) :
    dispatch board rx = handleAuthorize board (packetPayload rx) := by
  simp only [dispatch, h.flags, h.opcode]
  rfl

theorem IsRequest.dispatch_end (h : IsRequest opEnd rx) :
    dispatch board rx = handleEnd (packetPayload rx).length := by
  simp only [dispatch, h.flags, h.opcode]
  rfl

/-- A DATA request is a DATA packet. -/
theorem IsRequest.isData (h : IsRequest opData rx) : IsData rx := ⟨h.accepted, h.flags, h.opcode⟩

/-- A run of a handler, read off its relation. -/
theorem served_of_wp {p : Nor.Prog BootRam Status} {R : Option Status → Machine BootRam → Prop}
    (hwp : Nor.wp p (fun st => R (some st)) (R none) m) {P : Machine BootRam → Prop}
    (hok : ∀ st m', R (some st) m' → st = .ok ∧ P m') (hcut : ∀ m', ¬ R none m') :
    ∃ m', p m = .ok .ok m' ∧ P m' := by
  cases hrun : p m with
  | ok st m' =>
    have hstep := Nor.wp_ok hwp hrun
    obtain ⟨rfl, hP⟩ := hok st m' hstep
    exact ⟨m', rfl, hP⟩
  | error u m' =>
    have hstep := Nor.wp_cut hwp hrun
    exact absurd hstep (hcut m')

/-- **BEGIN stages a well-formed header,** and touches no flash. -/
theorem serve_begin (hr : IsRequest opBegin rx) (hb : Begins m.ram (packetPayload rx))
    (hv : headerStructuralValid ((packetPayload rx).drop 1) = true) :
    processBulkPacket board rx m = .ok (some .ok)
      (respond rx .ok { m with ram := beginRam m.ram (packetPayload rx) .headerStaged }) := by
  refine processBulkPacket_of_dispatch hr.accepted ?_
  rw [hr.dispatch_begin]
  have hwp := handleBegin_wp m (packetPayload rx) (fun _ => False)
  cases hrun : handleBegin (packetPayload rx) m with
  | error u m' => exact absurd (Nor.wp_cut hwp hrun) id
  | ok st m' =>
    have hstep := Nor.wp_ok hwp hrun
    cases hstep with
    | refused hne => exact absurd hb hne
    | malformed _ hbad => rw [hv] at hbad; cases hbad
    | staged => rfl

/-- **AUTHORIZE, its checks met, erases the slot and opens the session,** where
no flash operation goes wrong. -/
theorem serve_authorize (hr : IsRequest opAuthorize rx)
    (ha : Authorizes board m (packetPayload rx)) (hs : Sound m) :
    ∃ m', processBulkPacket board rx m = .ok (some .ok)
        (respond rx .ok { m' with ram := authorizedRam board m.flash m.ram (packetPayload rx) }) ∧
      Does [.erase (targetSlot board m.flash) 1024]
        { m with ram := authorizeRam board m.flash m.ram (packetPayload rx) } m' := by
  have hs' : Sound { m with ram := authorizeRam board m.flash m.ram (packetPayload rx) } :=
    fun i => hs i
  obtain ⟨m', hrun, m₁, rfl, hd⟩ := served_of_wp (handleAuthorize_wp board m (packetPayload rx))
    (R := AuthorizeStep board m (packetPayload rx)) (P := fun m' => ∃ m₁ : Machine BootRam,
      m' = { m₁ with ram := authorizedRam board m.flash m.ram (packetPayload rx) } ∧
      Does [.erase (targetSlot board m.flash) 1024]
        { m with ram := authorizeRam board m.flash m.ram (packetPayload rx) } m₁)
    (fun st m' hstep => by
      cases hstep with
      | refused hne => exact absurd ha hne
      | unauthenticated hne => exact absurd ha hne
      | rejected hne => exact absurd ha hne
      | @authorized m₁ _ hd => exact ⟨rfl, m₁, rfl, hd⟩
      | failed _ hst hf => exact absurd hf (hst.not_faulty hs'))
    (fun m' hstep => by
      cases hstep with
      | cut _ hst hc => exact hst.not_cut hs' hc)
  refine ⟨m₁, processBulkPacket_of_dispatch hr.accepted ?_, hd⟩
  rw [hr.dispatch_authorize]
  exact hrun

/-- **DATA in place is written,** and the expected offset moves behind it. -/
theorem serve_data (ho : Open board m s) (hr : IsRequest opData rx)
    (ha : Accepts m.ram (packetPayload rx)) (hs : Sound m) :
    ∃ m', processBulkPacket board rx m = .ok (some .ok)
        (respond rx .ok { m' with ram := dataRam m.ram (packetPayload rx) }) ∧
      Does (chunkOps (dataOffset (packetPayload rx)) (dataBytes (packetPayload rx))) m m' := by
  have hready : ChunkReady (dataOffset (packetPayload rx)) (dataBytes (packetPayload rx)) m.flash := by
    have hfits := ha.fits
    rw [ha.next, ho.offset] at hfits ⊢
    exact ho.chunkReady hfits
  have himage : m.ram.Live → imageLength m.ram.stagedHeader.toList ≤ appMaxBytes := fun _ => by
    rw [ho.header]
    exact (imageLength_bounds ho.structural).2
  obtain ⟨m', hrun, m₁, rfl, hd⟩ := served_of_wp (handleData_wp m (packetPayload rx) himage)
    (R := DataStep m (packetPayload rx)) (P := fun m' => ∃ m₁ : Machine BootRam, m' = { m₁ with ram := dataRam m.ram (packetPayload rx) } ∧
      Does (chunkOps (dataOffset (packetPayload rx)) (dataBytes (packetPayload rx))) m m₁)
    (fun st m' hstep => by
      cases hstep with
      | refused hne => exact absurd ha hne
      | repeated _ hrep => rw [ha.fresh] at hrep; cases hrep
      | @accepted m₁ _ hd => exact ⟨rfl, m₁, rfl, hd⟩
      | failed _ hst hf => exact absurd (hf hready) (hst.not_faulty hs))
    (fun m' hstep => by
      cases hstep with
      | cut _ hst hc => exact hst.not_cut hs hc)
  refine ⟨m₁, processBulkPacket_of_dispatch hr.accepted ?_, hd⟩
  rw [hr.isData.dispatch]
  exact hrun

/-- **END commits a complete session,** where no flash operation goes wrong. -/
theorem serve_end (ho : Open board m s) (hr : IsRequest opEnd rx)
    (hn : (packetPayload rx).length = 1) (hc : Commits m) (hs : Sound m) :
    ∃ m', processBulkPacket board rx m = .ok (some .ok)
        (respond rx .ok { m' with ram := committedRam m.ram }) ∧
      Does (endOps m.ram) { m with ram := endRam m.ram } m' := by
  have hs' : Sound { m with ram := endRam m.ram } := fun i => hs i
  obtain ⟨m', hrun, m₁, rfl, hd⟩ := served_of_wp (handleEnd_wp m (packetPayload rx).length)
    (R := EndStep m (packetPayload rx).length) (P := fun m' => ∃ m₁ : Machine BootRam, m' = { m₁ with ram := committedRam m.ram } ∧
      Does (endOps m.ram) { m with ram := endRam m.ram } m₁)
    (fun st m' hstep => by
      cases hstep with
      | refused hne => exact absurd ⟨hn, hc⟩ hne
      | unverified hne => exact absurd hc hne
      | @committed m₁ _ _ hd => exact ⟨rfl, m₁, rfl, hd⟩
      | failed _ hst hf =>
        refine absurd (hf ?_) (hst.not_faulty hs')
        rw [ho.slot]
        exact ho.blank)
    (fun m' hstep => by
      cases hstep with
      | cut _ hst hcut => exact hst.not_cut hs' hcut)
  refine ⟨m₁, processBulkPacket_of_dispatch hr.accepted ?_, hd⟩
  rw [hr.dispatch_end]
  exact hrun

/-- A complete session whose bytes are the image of its header commits. -/
theorem Open.commits (h : Open board m s) (hl : m.ram.Live)
    (hcount : s.received.length = imageLength s.header)
    (hdigest : (sha256Memory s.received).toList = imageDigest s.header)
    (hvec : vectorsValid m.flash (imageLength s.header) = true) : Commits m where
  live := hl
  complete := by rw [h.offset, h.header, hcount]
  streamed := by
    obtain ⟨c, hc⟩ := h.stream
    rw [hc, sha256Final_update_init, h.header, hdigest]
  readBack := by
    have happ := h.app
    rw [hcount] at happ
    rw [appMatchesHeader_eq_true, h.header, appDigest, happ, hdigest]
    exact ⟨(bytesEqual_iff_eq (by simp [imageDigest, h.length_header])
      (by simp [imageDigest, h.length_header])).2 rfl, hvec⟩
  slot := by rw [h.slot]; exact h.isSlot

end Bootloader

end DeusOs
