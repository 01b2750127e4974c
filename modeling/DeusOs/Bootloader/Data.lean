import DeusOs.Bootloader.Rollback

/-!
# The bootloader — DATA

What a DATA packet does to an open session, read off the session
invariant: the exact repeat of the last chunk is answered without work,
any other chunk out of place is refused, and a chunk in place fails only
where an operation of its own did.
-/

namespace DeusOs

namespace Bootloader

open Nor (Mem Op Machine Outcome Entry Faulty)

variable {board : Board} {m m' : Machine BootRam} {s : Session} {rx p : List UInt8}

/-! ## From the packet to its handler -/

theorem bulkSend_run (d : List UInt8) (m : Machine BootRam) :
    ∃ b, bulkSend d m = .ok b { m with ram := sendRam m.ram d } := by
  simp only [bulkSend, sendRam, bind, EStateM.bind, Nor.Prog.ram]
  split
  · exact ⟨false, rfl⟩
  · exact ⟨true, rfl⟩

/-- An accepted packet is answered with the status of its handler. -/
theorem processBulkPacket_of_dispatch (ha : packetAccepted rx = true) {st : Status}
    (hd : dispatch board rx m = .ok st m') :
    processBulkPacket board rx m = .ok (some st) (respond rx st m') := by
  obtain ⟨b, hb⟩ := bulkSend_run (buildResponse m'.ram (loadLe16 rx 6) (packetOpcode rx) st) m'
  simp only [processBulkPacket, if_neg (not_not_intro ha), bind, EStateM.bind, hd, Nor.Prog.ram, hb]
  rfl

/-- A packet whose payload goes to `handle_data`. -/
structure IsData (rx : List UInt8) : Prop where
  accepted : packetAccepted rx = true
  flags : rx.getD 4 0 = 1
  opcode : packetOpcode rx = opData

/-- A DATA packet goes to its handler. -/
theorem IsData.dispatch (h : IsData rx) : dispatch board rx = handleData (packetPayload rx) := by
  simp only [Bootloader.dispatch, h.flags, h.opcode]
  rfl

/-- The length, parity, image and page checks of `handle_data` pass. -/
def WellFormed (r : BootRam) (p : List UInt8) : Prop :=
  5 ≤ p.length ∧ p.length ≤ 51 ∧ dataMalformed (imageLength r.stagedHeader.toList) p = false

/-- A DATA that repeats the last one is answered `ST_OK`, and nothing changes.
-/
theorem handleData_repeats (hl : m.ram.Live) (hw : WellFormed m.ram p)
    (hr : dataRepeats m.ram p = true) : handleData p m = .ok .ok m := by
  have h1 : ¬ (p.length < 5 ∨ 51 < p.length) := by have := hw.1; have := hw.2.1; omega
  simp only [handleData, bind, EStateM.bind, Nor.Prog.ram, if_neg h1, if_neg (live_iff.1 hl),
    hw.2.2, hr, Bool.false_eq_true, if_false, if_true]
  rfl

theorem handleData_outOfSequence (hl : m.ram.Live) (hw : WellFormed m.ram p)
    (hr : dataRepeats m.ram p = false) (ho : dataOffset p ≠ m.ram.expectedOffset) :
    handleData p m = .ok .outOfSequence m := by
  have h1 : ¬ (p.length < 5 ∨ 51 < p.length) := by have := hw.1; have := hw.2.1; omega
  simp only [handleData, bind, EStateM.bind, Nor.Prog.ram, if_neg h1, if_neg (live_iff.1 hl),
    hw.2.2, hr, Bool.false_eq_true, if_false, if_pos ho]
  rfl

/-! ## The retry cache -/

/-- The request is the last accepted chunk again: offset, length and bytes. -/
def Session.LastChunk (s : Session) (p : List UInt8) : Prop :=
  ∃ cs c, s.chunks = cs ++ [c] ∧ dataOffset p = cs.flatten.length ∧ dataBytes p = c

/-- **The retry check recognises the last accepted chunk and nothing
else.** -/
theorem Open.repeats_iff (h : Open board m s) :
    dataRepeats m.ram p = true ↔ s.LastChunk p := by
  simp only [dataRepeats, Bool.and_eq_true, beq_iff_eq]
  constructor
  · rintro ⟨⟨⟨hv, hoff⟩, hlen⟩, heq⟩
    obtain ⟨cs, c, hcs⟩ : ∃ cs c, s.chunks = cs ++ [c] :=
      ⟨_, _, (List.dropLast_concat_getLast (h.fresh.1 hv)).symm⟩
    obtain ⟨ho, hn, hc⟩ := h.last cs c hcs
    have hfit := (chunks_append_singleton.1 (hcs ▸ h.chunks)).2.1
    have hle : (dataBytes p).length ≤ 48 := by have := hfit.len_le; omega
    refine ⟨cs, c, hcs, hoff.trans ho, ?_⟩
    rw [(bytesEqual_toList_iff hle).1 heq, hlen, hn, hc]
  · rintro ⟨cs, c, hcs, hoff, rfl⟩
    obtain ⟨ho, hn, hc⟩ := h.last cs _ hcs
    have hfit := (chunks_append_singleton.1 (hcs ▸ h.chunks)).2.1
    exact ⟨⟨⟨h.fresh.2 (by simp [hcs]), hoff.trans ho.symm⟩, hn.symm⟩,
      (bytesEqual_toList_iff hfit.len_le).2 hc.symm⟩

/-- An accepted chunk passes the checks again. -/
theorem Open.wellFormed_of_lastChunk (h : Open board m s) (hlast : s.LastChunk p) :
    WellFormed m.ram p := by
  obtain ⟨cs, c, hcs, hoff, rfl⟩ := hlast
  obtain ⟨-, hfits, himage⟩ := chunks_append_singleton.1 (hcs ▸ h.chunks)
  rw [Nat.zero_add, ← hoff] at hfits himage
  refine not_malformed_of_fits hfits ?_
  rw [h.header]
  exact himage

/-! ## The streaming invariant -/

variable (board) in
/-- What the flash, the hash and the operations of a live session are. -/
structure Streamed (m : Machine BootRam) (s : Session) : Prop where
  app : m.flash.bytes appBase m.ram.expectedOffset = s.received
  stream : ∃ c, m.ram.streamSha = sha256Update (sha256Init c) s.received
  erasedOnce : ∀ page, page * 1024 < m.ram.expectedOffset → ∃ pre mid post,
    (m.log.drop s.mark).map Entry.op =
      pre ++ .erase (appBase + page * 1024) 1024 :: (mid ++ post) ∧
    (∀ o ∈ pre, o.addr < appBase + page * 1024) ∧
    (∀ o ∈ mid, ∃ x v, o = .program x v ∧ appBase + page * 1024 ≤ x ∧
      x + 2 ≤ appBase + page * 1024 + 1024) ∧
    ∀ o ∈ post, appBase + page * 1024 + 1024 ≤ o.addr
  inPages : ∀ en ∈ m.log.drop s.mark,
    appBase ≤ en.op.addr ∧ en.op.addr < appBase + m.ram.expectedOffset
  rest : m.ram.expectedOffset % 1024 ≠ 0 →
    m.flash.Blank (appBase + m.ram.expectedOffset) (1024 - m.ram.expectedOffset % 1024)

/-- In a session the flash holds what was received so far. -/
theorem Open.streamed (h : Open board m s) : Streamed m s where
  app := by rw [h.offset]; exact h.app
  stream := h.stream
  erasedOnce page hpage := by
    rw [h.ops]
    refine streamOps_page h.chunks (Nat.zero_le _) ?_
    rw [h.offset] at hpage
    simpa [Session.received] using hpage
  inPages en hen := by
    have hop : en.op ∈ streamOps 0 s.chunks := h.ops ▸ List.mem_map_of_mem hen
    have := mem_streamOps h.chunks hop
    rw [h.offset]
    simpa [Session.received] using this
  rest := by rw [h.offset]; exact h.rest

variable (board) in
/-- **DATA streams.** In a live state the application pages, the hash and
the operations are those of the accepted chunks; the exact repeat of the
last chunk is answered `ST_OK` with nothing but the response changed; any
other well-formed DATA out of place is answered `ST_OUT_OF_SEQUENCE`
likewise; and one in place is answered `ST_FLASH_FAILED` only after one of
its own operations failed. -/
structure Streams (s : Sys) : Prop where
  streamed : s.phase = .update → s.machine.ram.Live → Streamed s.machine s.session
  repeated : s.phase = .update → s.machine.ram.Live → ∀ rx tape, IsData rx →
    s.session.LastChunk (packetPayload rx) →
    processBulkPacket board rx { s.machine with tape } =
      .ok (some .ok) (respond rx .ok { s.machine with tape })
  outOfSequence : s.phase = .update → s.machine.ram.Live → ∀ rx tape, IsData rx →
    ¬ s.session.LastChunk (packetPayload rx) →
    WellFormed s.machine.ram (packetPayload rx) →
    dataOffset (packetPayload rx) ≠ s.machine.ram.expectedOffset →
    processBulkPacket board rx { s.machine with tape } =
      .ok (some .outOfSequence) (respond rx .outOfSequence { s.machine with tape })
  failsByFault : s.phase = .update → s.machine.ram.Live → ∀ rx tape, IsData rx →
    WellFormed s.machine.ram (packetPayload rx) →
    dataOffset (packetPayload rx) = s.machine.ram.expectedOffset →
    ∀ m', processBulkPacket board rx { s.machine with tape } = .ok (some .flashFailed) m' →
      Faulty s.machine m'

/-- **DATA is streamed, repeated and refused as it should be,** in every run
from every flash: in a live session the flash holds what was accepted; the last
DATA again is answered `ST_OK` and changes nothing; a DATA that is not in
sequence is refused and changes nothing; and one that is in sequence is answered
`FLASH_FAILED` only where a flash operation went wrong. -/
theorem data_streaming (board : Board) (f : Mem) (evs : List Event) :
    Streams board ((Sys.unpowered f).run board evs) where
  streamed hp hl := ((inv_run board f evs hp).live hl).streamed
  repeated hp hl rx tape hd hlast := by
    have ho := (inv_run board f evs hp).live hl
    refine processBulkPacket_of_dispatch hd.accepted ?_
    rw [hd.dispatch]
    exact handleData_repeats hl (ho.wellFormed_of_lastChunk hlast) (ho.repeats_iff.2 hlast)
  outOfSequence hp hl rx tape hd hne hw hoff := by
    have ho := (inv_run board f evs hp).live hl
    have hrep : dataRepeats ((Sys.unpowered f).run board evs).machine.ram (packetPayload rx) =
        false := by
      rw [← Bool.not_eq_true, ho.repeats_iff]
      exact hne
    refine processBulkPacket_of_dispatch hd.accepted ?_
    rw [hd.dispatch]
    exact handleData_outOfSequence hl hw hrep hoff
  failsByFault hp hl rx tape hd hw hoff m' hrun := by
    have hinv := inv_run board f evs
    have ho := (hinv hp).live hl
    have hstep := Nor.wp_ok (packetStep_of_inv hinv hp rx tape) hrun
    cases hstep with
    | served _ hdis =>
      rcases hdis.of_data hd.opcode with hu | hdata
      · exact absurd hu.status (by simp)
      cases hdata with
      | refused _ hst => simp at hst
      | failed ha hs hfault =>
        have hfits := ha.fits
        have hready : ChunkReady (dataOffset (packetPayload rx)) (dataBytes (packetPayload rx))
            ((Sys.unpowered f).run board evs).machine.flash := by
          rw [hoff, ho.offset] at hfits ⊢
          exact ho.chunkReady hfits
        exact hfault hready

end Bootloader

end DeusOs
