import DeusOs.Asset.Successor
import DeusOs.AssetLink.Model.Line
import DeusOs.Host.Correlation

/-!
# An asset write — one request

A request and its answer, as the two sides see them: what the host parses is
what the device responded (`parsed_of_ok`), and a request either was
answered, or was given up on, before or after the device had it
(`triple_request`).
-/

namespace DeusOs

namespace AssetLink

open Async (Prog Triple)
open Host Host.AssetTransfer
open LittleEndian (read16 read32 write16 write32 read16_write16 read32_write32)
open Nor (Machine Outcome)

/-! ## What is parsed -/

/-- The two computations of the CRC round by round. -/
theorem crc32Round_eq (crc : UInt32) : crc32Round crc = Asset.crc32Bit crc := by
  have hbit : crc &&& 1 = 0 ∨ crc &&& 1 = 1 := by
    have hlt : (crc &&& 1).toNat < 2 := by
      rw [UInt32.toNat_and]
      exact Nat.lt_succ_of_le Nat.and_le_right
    have hcases : (crc &&& 1).toNat = 0 ∨ (crc &&& 1).toNat = 1 := by omega
    rcases hcases with h | h
    · exact Or.inl (UInt32.toNat_inj.mp h)
    · exact Or.inr (UInt32.toNat_inj.mp h)
  rcases hbit with h | h
  · rw [crc32Round, Asset.crc32Bit, h, if_neg (not_not.mpr rfl)]
    have hmask : (0xEDB88320 : UInt32) &&& (0 - 0) = 0 := by decide
    rw [hmask, UInt32.xor_zero]
  · have hne : (1 : UInt32) ≠ 0 := by decide
    have hmask : (0xEDB88320 : UInt32) &&& (0 - 1) = 0xEDB88320 := by decide
    rw [crc32Round, Asset.crc32Bit, h, if_pos hne, hmask]

/-- **Host and device compute one CRC,** though each writes the round for a bit
in its own way. -/
theorem crc32Compute_eq (data : List UInt8) : crc32Compute data = Asset.crc32 data := by
  have hround : crc32Round = Asset.crc32Bit := funext crc32Round_eq
  rw [crc32Compute, Asset.crc32, hround]
  rfl

/-- What the host has parsed is what the device responded. -/
structure Parsed (opcode : AssetTransferOpcode) (r : Asset.Response) (a : AssetTransferResponse) :
    Prop where
  opcode : a.opcode = opcode
  status : a.status = statusByte r.status
  objectType : r.objectType < 65536 → a.objectType = r.objectType
  transferId : r.transferId < 65536 → a.transferId = r.transferId
  generation : r.committedGeneration < 4294967296 → a.committedGeneration = r.committedGeneration
  totalLength : r.totalLength < 65536 → a.totalLength = r.totalLength
  nextOffset : r.nextOffset < 65536 → a.nextOffset = r.nextOffset
  data : a.data = r.data

theorem parsed_of_ok {opcode : AssetTransferOpcode} {r : Asset.Response}
    {a : AssetTransferResponse} {type flags : UInt8} {id : ℕ}
    (h : parseAssetResponse (frameOf type flags id (responsePayload r)) opcode = .ok a) :
    Parsed opcode r a := by
  unfold parseAssetResponse at h
  have hpayload : (frameOf type flags id (responsePayload r)).payload = responsePayload r := rfl
  dsimp only at h
  rw [hpayload] at h
  split_ifs at h with h1 h2 h3 h4 h5 h6 h7 h8
  obtain rfl := Except.ok.inj h
  obtain ⟨-, h6⟩ := not_or.mp h6
  obtain ⟨-, hlength⟩ := not_or.mp h6
  have hcount : ((responsePayload r).getD 16 0).toNat = r.data.length := by
    have hlen : (responsePayload r).length = 18 + r.data.length := by
      simp only [responsePayload, List.length_append, List.length_cons, List.length_nil,
        LittleEndian.length_write16, LittleEndian.length_write32]
    rw [hlen] at hlength
    unfold commonResponseBytes at hlength
    omega
  refine ⟨rfl, rfl, fun hlt => ?_, fun hlt => ?_, fun hlt => ?_, fun hlt => ?_, fun hlt => ?_, ?_⟩
  · exact read16_write16 hlt [1, r.opcode, statusByte r.status, sessionByte r.session]
      (write16 r.transferId ++ (write32 r.committedGeneration ++ (write16 r.totalLength ++
        (write16 r.nextOffset ++ ([UInt8.ofNat r.data.length, 0] ++ r.data)))))
  · exact read16_write16 hlt ([1, r.opcode, statusByte r.status, sessionByte r.session] ++
      write16 r.objectType) (write32 r.committedGeneration ++ (write16 r.totalLength ++
        (write16 r.nextOffset ++ ([UInt8.ofNat r.data.length, 0] ++ r.data))))
  · exact read32_write32 hlt ([1, r.opcode, statusByte r.status, sessionByte r.session] ++
      write16 r.objectType ++ write16 r.transferId) (write16 r.totalLength ++
        (write16 r.nextOffset ++ ([UInt8.ofNat r.data.length, 0] ++ r.data)))
  · exact read16_write16 hlt ([1, r.opcode, statusByte r.status, sessionByte r.session] ++
      write16 r.objectType ++ write16 r.transferId ++ write32 r.committedGeneration)
        (write16 r.nextOffset ++ ([UInt8.ofNat r.data.length, 0] ++ r.data))
  · exact read16_write16 hlt ([1, r.opcode, statusByte r.status, sessionByte r.session] ++
      write16 r.objectType ++ write16 r.transferId ++ write32 r.committedGeneration ++
        write16 r.totalLength) ([UInt8.ofNat r.data.length, 0] ++ r.data)
  · have hdrop : (responsePayload r).drop commonResponseBytes = r.data := rfl
    change ((responsePayload r).drop commonResponseBytes).take
      ((responsePayload r).getD 16 0).toNat = r.data
    rw [hdrop, hcount, List.take_length]

/-- Only the status `OK` is the byte of `OK`. -/
theorem statusByte_ok {status : Asset.Status} (h : statusByte status = statusOk) :
    status = .ok := by
  cases status
  case ok => rfl
  all_goals exact absurd h (by decide)

/-! ## A request -/

/-- What holds of the device, and of the opcodes that were written to it. -/
abbrev World := Machine Asset.Ram → List AssetTransferOpcode → Prop

/-- The host may issue ids, and the device is in a state that it can be
in. -/
structure Sound (s : Line) : Prop where
  ids : IsId s.channel.requestIds.next
  device : Asset.Reachable s.device

/-- What a `catch` clause of the client is for. -/
def Caught (e : HostError) : Prop := (∃ kind, e = .deus kind) ∨ ∃ requested, e = .operationCanceled requested

/-- What the device does with a request: from `P` it comes to `R`, and to
`Q` where the request succeeds. Until the request comes, `P` stays. -/
structure Serves (opcode : AssetTransferOpcode) (flags : UInt8) (payload : List UInt8) (P : World)
    (Q : AssetTransferResponse → World) (R : World) : Prop where
  poll : ∀ {m m' : Machine Asset.Ram} {w : List AssetTransferOpcode} {now : UInt32},
    Asset.Reachable m → P m w → Asset.poll now m = .ok () m' → P m' w
  serve : ∀ {m m' : Machine Asset.Ram} {w : List AssetTransferOpcode} {id : ℕ} {now : UInt32}
    {tape : ℕ → Option Outcome} {response : Asset.Response}, IsId id → Asset.Reachable m → P m w →
    Asset.handleFrame (viewOf flags id payload) now { m with tape := tape } = .ok response m' →
    R m' (w ++ [opcode]) ∧ ∀ a, Parsed opcode response a → a.status = statusOk →
      Q a m' (w ++ [opcode])

/-- How a request fails: the device did not get it, since no id is left or
the token was cancelled first, or it did. -/
def Failed (P R : World) (token : Token) (e : HostError) (s : Line) : Prop :=
  Caught e ∧ Sound s ∧ (P s.device s.written ∧
    (s.channel.freshSessionRequired = true ∨ token = .linked) ∨ R s.device s.written)

section Devices

variable {m m' : Machine Asset.Ram} {now : UInt32}

/-- A poll keeps the device reachable. -/
theorem reachable_poll (h : Asset.Reachable m) (hrun : Asset.poll now m = .ok () m') :
    Asset.Reachable m' := by
  have hserve : Asset.serve (.poll now) { m with tape := m.tape } = .ok none m' := by
    simp only [Asset.serve, bind, EStateM.bind, hrun]
    rfl
  exact .step m.tape h hserve

/-- A frame that is handled keeps the device reachable. -/
theorem reachable_handleFrame {frame : Asset.FrameView} {tape : ℕ → Option Outcome}
    {response : Asset.Response} (h : Asset.Reachable m)
    (hrun : Asset.handleFrame frame now { m with tape := tape } = .ok response m') :
    Asset.Reachable m' := by
  have hserve : Asset.serve (.frame frame now) { m with tape := tape } = .ok (some response) m' := by
    simp only [Asset.serve, bind, EStateM.bind, hrun]
    rfl
  exact .step tape h hserve

end Devices

section Lines

variable {s s' : Line} {id : ℕ} {e : HostError} {frame frame' : BinaryFrame} {type : UInt8}

/-- A late answer changes nothing but what is abandoned. -/
theorem discard_spec (s : Line) (frame : BinaryFrame) :
    ∃ c, s.discard frame = { s with channel := c } ∧ s.channel.Follows c := by
  unfold Line.discard
  split
  next hab =>
    obtain ⟨rest, hdiscard, hforgets⟩ := discardIfAbandoned_of_abandoned hab
    rw [hdiscard]
    exact ⟨_, rfl, rfl, rfl, rfl, hforgets.subset⟩
  next => exact ⟨s.channel, rfl, Channel.Follows.refl _⟩

theorem matchFrame_ok (h : matchFrame id type frame = .ok frame') : frame' = frame := by
  unfold matchFrame at h
  rcases hcommon : validateCommonResponseFrame frame with e | u
  · rw [hcommon] at h
    exact nomatch h
  · rw [hcommon] at h
    dsimp only [bind, Except.bind] at h
    split_ifs at h
    exact (Except.ok.inj h).symm

theorem caught_of_validate (h : validateCommonResponseFrame frame = .error e) : Caught e := by
  unfold validateCommonResponseFrame at h
  split_ifs at h
  all_goals exact Or.inl ⟨_, (Except.error.inj h).symm⟩

theorem caught_of_matchFrame (h : matchFrame id type frame = .error e) : Caught e := by
  unfold matchFrame at h
  rcases hcommon : validateCommonResponseFrame frame with e' | u
  · rw [hcommon] at h
    obtain rfl := Except.error.inj h
    exact caught_of_validate hcommon
  · rw [hcommon] at h
    dsimp only [bind, Except.bind] at h
    split_ifs at h
    · exact Or.inl ⟨_, (Except.error.inj h).symm⟩
    · exact Or.inl ⟨_, (Except.error.inj h).symm⟩
    · exact Or.inl ⟨_, (Except.error.inj h).symm⟩
    · exact nomatch h

theorem caught_of_parse {opcode : AssetTransferOpcode}
    (h : parseAssetResponse frame opcode = .error e) : Caught e := by
  unfold parseAssetResponse at h
  left
  dsimp only at h
  split_ifs at h
  all_goals exact ⟨_, (Except.error.inj h).symm⟩

end Lines

section Requests

variable {opcode : AssetTransferOpcode} {flags : UInt8} {payload : List UInt8} {P R : World}
  {Q : AssetTransferResponse → World} {id : ℕ} {token : Token} {s : Line}

/-- The host has an id for the request, and has not written it. -/
structure Unwritten (P : World) (id : ℕ) (s : Line) : Prop where
  sound : Sound s
  free : ¬ s.channel.Abandoned id
  world : P s.device s.written

/-- The request is on its way. -/
structure OnItsWay (opcode : AssetTransferOpcode) (request : Asset.FrameView) (P : World) (id : ℕ)
    (s : Line) : Prop where
  sound : Sound s
  free : ¬ s.channel.Abandoned id
  pending : s.pending = some request
  world : ∃ w, P s.device w ∧ s.written = w ++ [opcode]

/-- The idle time is looked at. -/
theorem poll_spec (s : Line) (now : UInt32) :
    s.poll now = s ∨ ∃ m, Asset.poll now s.device = .ok () m ∧
      s.poll now = { s with device := m } := by
  unfold Line.poll
  rcases hrun : Asset.poll now s.device with ⟨u, m⟩ | ⟨u, m⟩
  · exact Or.inr ⟨m, rfl, rfl⟩
  · exact Or.inl rfl

/-- Looking at the idle time, the device may close a session. -/
theorem Unwritten.poll (h : Unwritten P id s) (hserves : Serves opcode flags payload P Q R)
    (now : UInt32) : Unwritten P id (s.poll now) := by
  rcases poll_spec s now with heq | ⟨m, hrun, heq⟩
  · rw [heq]
    exact h
  · rw [heq]
    exact ⟨⟨h.sound.ids, reachable_poll h.sound.device hrun⟩, h.free,
      hserves.poll h.sound.device h.world hrun⟩

/-- A frame that the host discards is no request of its own. -/
theorem Unwritten.discard (h : Unwritten P id s) (frame : BinaryFrame) :
    Unwritten P id (s.discard frame) := by
  obtain ⟨c, heq, hfollows⟩ := discard_spec s frame
  rw [heq]
  refine ⟨⟨?_, h.sound.device⟩, fun hab => h.free (hfollows.abandoned id hab), h.world⟩
  rw [hfollows.ids]
  exact h.sound.ids

/-- **The request is written,** unless its token was cancelled. -/
theorem triple_write {request : Asset.FrameView} (hserves : Serves opcode flags payload P Q R) :
    Triple (Unwritten P id) (Prog.await (writeEvent opcode request token))
      (fun _ => OnItsWay opcode request P id)
      (fun e s => Caught e ∧ Unwritten P id s ∧ token = .linked) := by
  refine Triple.await_of fun ev s h => ?_
  rcases ev with now | - | ⟨now, tape⟩ | frame | ⟨requested, now, tape⟩
  · exact h.poll hserves now
  · exact ⟨⟨h.sound.ids, h.sound.device⟩, h.free, rfl, s.written, h.world, rfl⟩
  · exact h
  · exact h.discard frame
  · by_cases htoken : token = .linked
    · rw [writeEvent, if_pos htoken]
      exact ⟨Or.inr ⟨requested, rfl⟩, h, htoken⟩
    · rw [writeEvent, if_neg htoken]
      exact h

/-- The device has had the request, and what it responded, if it
succeeded. -/
structure Answered (opcode : AssetTransferOpcode) (Q : AssetTransferResponse → World) (R : World)
    (id : ℕ) (frame : BinaryFrame) (s : Line) : Prop where
  sound : Sound s
  free : ¬ s.channel.Abandoned id
  world : R s.device s.written
  success : ∀ a, parseAssetResponse frame opcode = .ok a → a.status = statusOk →
    Q a s.device s.written

/-- The device handles the request on its way. -/
theorem serve_spec (hid : IsId id) (hserves : Serves opcode flags payload P Q R)
    (h : OnItsWay opcode (viewOf flags id payload) P id s) (now : UInt32)
    (tape : ℕ → Option Outcome) :
    s.serve now tape = (s, none) ∨
      ∃ s' frame, s.serve now tape = (s', some frame) ∧ Answered opcode Q R id frame s' := by
  obtain ⟨hsound, hfree, hpending, w, hworld, hwritten⟩ := h
  unfold Line.serve
  rw [hpending]
  dsimp only
  rcases hrun : Asset.handleFrame (viewOf flags id payload) now { s.device with tape := tape } with
    ⟨response, m⟩ | ⟨u, m⟩
  · right
    obtain ⟨hafter, hsuccess⟩ := hserves.serve hid hsound.device hworld hrun
    rw [← hwritten] at hafter hsuccess
    exact ⟨_, _, rfl, ⟨hsound.ids, reachable_handleFrame hsound.device hrun⟩, hfree, hafter,
      fun a ha hok => hsuccess a (parsed_of_ok ha) hok⟩
  · exact Or.inl rfl

/-- A poll of the device leaves a request on its way. -/
theorem OnItsWay.poll {request : Asset.FrameView} (h : OnItsWay opcode request P id s)
    (hserves : Serves opcode flags payload P Q R) (now : UInt32) :
    OnItsWay opcode request P id (s.poll now) := by
  obtain ⟨w, hworld, hwritten⟩ := h.world
  rcases poll_spec s now with heq | ⟨m, hrun, heq⟩
  · rw [heq]
    exact h
  · rw [heq]
    exact ⟨⟨h.sound.ids, reachable_poll h.sound.device hrun⟩, h.free, h.pending, w,
      hserves.poll h.sound.device hworld hrun, hwritten⟩

/-- A frame that the host discards leaves a request on its way. -/
theorem OnItsWay.discard {request : Asset.FrameView} (h : OnItsWay opcode request P id s)
    (frame : BinaryFrame) : OnItsWay opcode request P id (s.discard frame) := by
  obtain ⟨c, heq, hfollows⟩ := discard_spec s frame
  rw [heq]
  refine ⟨⟨?_, h.sound.device⟩, fun hab => h.free (hfollows.abandoned id hab), h.pending, h.world⟩
  rw [hfollows.ids]
  exact h.sound.ids

/-- **The request is answered,** or given up on once the device has had
it. -/
theorem triple_answer (hid : IsId id) (hserves : Serves opcode flags payload P Q R) :
    Triple (OnItsWay opcode (viewOf flags id payload) P id) (Prog.await (answerEvent id))
      (fun frame => Answered opcode Q R id frame)
      (fun e s => Caught e ∧ Sound s ∧ ¬ s.channel.Abandoned id ∧ R s.device s.written) := by
  refine Triple.await_of fun ev s h => ?_
  rcases ev with now | - | ⟨now, tape⟩ | frame | ⟨requested, now, tape⟩
  · exact h.poll hserves now
  · exact h
  · rcases serve_spec hid hserves h now tape with heq | ⟨s', frame, heq, hanswered⟩
    · rw [answerEvent, heq]
      exact h
    · rw [answerEvent, heq]
      rcases hmatch : matchFrame id FrameType.assetTransferResponse frame with e | frame'
      · simp only [Option.map_some, hmatch]
        exact ⟨caught_of_matchFrame hmatch, hanswered.sound, hanswered.free, hanswered.world⟩
      · obtain rfl := matchFrame_ok hmatch
        simp only [Option.map_some, hmatch]
        exact hanswered
  · exact h.discard frame
  · rcases serve_spec hid hserves h now tape with heq | ⟨s', frame, heq, hanswered⟩
    · rw [answerEvent, heq]
      exact h
    · rw [answerEvent, heq]
      exact ⟨Or.inr ⟨requested, rfl⟩, hanswered.sound, hanswered.free, hanswered.world⟩

/-- What the `try` block of a request may throw. -/
def Thrown (P R : World) (token : Token) (id : ℕ) (e : HostError) (s : Line) : Prop :=
  ¬ s.channel.Abandoned id ∧ Failed P R token e s

theorem triple_tryAssetRequest (hid : IsId id) (hlen : payload.length ≤ maxPayloadBytes)
    (hserves : Serves opcode flags payload P Q R) :
    Triple (Unwritten P id) (tryAssetRequest opcode flags payload token id)
      (fun a s => Sound s ∧ R s.device s.written ∧ (a.status = statusOk →
        Q a s.device s.written))
      (Thrown P R token id) := by
  unfold tryAssetRequest
  rw [encode_eq hlen, Async.lift_bind]
  refine Triple.bind (Q := fun _ => OnItsWay opcode (viewOf flags id payload) P id) ?_ fun _ => ?_
  · refine (triple_write hserves).conseq (fun _ h => h) (fun _ _ h => h) ?_
    intro e s ⟨hcaught, h, htoken⟩
    exact ⟨h.free, hcaught, h.sound, Or.inl ⟨h.world, Or.inr htoken⟩⟩
  refine Triple.bind (Q := fun frame => Answered opcode Q R id frame) ?_ fun frame => ?_
  · refine (triple_answer hid hserves).conseq (fun _ h => h) (fun _ _ h => h) ?_
    intro e s ⟨hcaught, hsound, hfree, hworld⟩
    exact ⟨hfree, hcaught, hsound, Or.inr hworld⟩
  · refine Triple.lift ?_ ?_
    · intro s a h hparse
      exact ⟨h.sound, h.world, h.success a hparse⟩
    · intro s e h hparse
      exact ⟨h.free, caught_of_parse hparse, h.sound, Or.inr h.world⟩

/-- Abandoning the request throws nothing, and changes nothing else. -/
theorem triple_abandon {e : HostError} (hid : IsId id) :
    Triple (Thrown P R token id e) (onLine fun c => c.abandonSingleResponse id)
      (fun _ s => Failed P R token e s) (fun e' s => Failed P R token e' s) := by
  have hpos : id ≠ 0 := Nat.ne_of_gt hid.1
  refine Triple.act ?_ ?_
  · rintro s s' u ⟨hfree, hcaught, hsound, hworld⟩ hact
    dsimp only at hact
    rw [abandonSingleResponse_of_free hpos hfree] at hact
    obtain rfl := (Prod.mk.inj hact).1
    exact ⟨hcaught, ⟨hsound.ids, hsound.device⟩, hworld⟩
  · rintro s s' e' ⟨hfree, -⟩ hact
    dsimp only at hact
    rw [abandonSingleResponse_of_free hpos hfree] at hact
    exact nomatch (Prod.mk.inj hact).2

theorem triple_catchAssetRequest {A : AssetTransferResponse → Line → Prop} (hid : IsId id)
    (e : HostError) :
    Triple (Thrown P R token id e) (catchAssetRequest id e) A (Failed P R token) := by
  unfold catchAssetRequest
  split
  · exact Triple.bind (triple_abandon hid) fun _ => Triple.raise fun _ h => h
  · exact Triple.bind (triple_abandon hid) fun _ => Triple.raise fun _ h => h
  · exact Triple.raise fun _ h => h.2

/-- **A request:** it succeeds, or fails before or after the device had
it. -/
theorem triple_request (hlen : payload.length ≤ maxPayloadBytes)
    (hserves : Serves opcode flags payload P Q R) :
    Triple (fun s => Sound s ∧ P s.device s.written) (request opcode flags (.ok payload) token)
      (fun a s => Sound s ∧ a.status = statusOk ∧ Q a s.device s.written)
      (Failed P R token) := by
  unfold request assetRequestCoreAsync
  rw [Async.lift_bind]
  refine Triple.bind (Q := fun a s => Sound s ∧ R s.device s.written ∧
    (a.status = statusOk → Q a s.device s.written)) ?_ fun a => ?_
  · refine Triple.bind (Q := fun id s => IsId id ∧ Unwritten P id s) ?_ fun id => ?_
    · -- the id
      refine Triple.act ?_ ?_
      · rintro s s' id ⟨hsound, hworld⟩ hact
        obtain ⟨rfl, hid⟩ := Prod.mk.inj hact
        obtain ⟨hsame, hout⟩ := nextRequestId_spec hsound.ids
        rw [hid] at hout
        exact ⟨hout.1, ⟨hsame.nextId, hsound.device⟩, hout.2.1, hworld⟩
      · rintro s s' e ⟨hsound, hworld⟩ hact
        obtain ⟨rfl, hid⟩ := Prod.mk.inj hact
        obtain ⟨hsame, hout⟩ := nextRequestId_spec hsound.ids
        rw [hid] at hout
        exact ⟨Or.inl ⟨_, hout.1⟩, ⟨hsame.nextId, hsound.device⟩, Or.inl ⟨hworld, Or.inl hout.2⟩⟩
    · intro s evs ⟨hid, hs⟩
      exact Triple.handle (triple_tryAssetRequest hid hlen hserves)
        (triple_catchAssetRequest hid) s evs hs
  · refine Triple.bind (Q := fun _ s => Sound s ∧ a.status = statusOk ∧ Q a s.device s.written)
      ?_ fun _ => Triple.ret fun _ h => h
    refine Triple.lift ?_ ?_
    · rintro s u ⟨hsound, -, hsuccess⟩ hensure
      unfold ensureAssetSuccess at hensure
      split_ifs at hensure with hok
      exact ⟨hsound, not_not.mp hok, hsuccess (not_not.mp hok)⟩
    · rintro s e ⟨hsound, hworld, -⟩ hensure
      unfold ensureAssetSuccess at hensure
      split_ifs at hensure
      exact ⟨Or.inl ⟨_, (Except.error.inj hensure).symm⟩, hsound, Or.inr hworld⟩

end Requests

end AssetLink

end DeusOs
