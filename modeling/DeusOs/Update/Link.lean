import DeusOs.Update.Model.Link
import DeusOs.Update.Packets

/-!
# The update link — packets in flight

What is in flight between two requests (`Settled`) and during one
(`Pending`): every packet has an id of its own, which is that of an
abandoned request or of the current one. `Service` is what a request
needs of the device: a predicate before it, one after it, and what its
answer says. `Pending.step` takes the invariant over every event of the
link, and `Pending.read` is the event that ends the wait.
-/

namespace DeusOs

namespace Update

open Bootloader Host
open LittleEndian (read16 read32 write16 write32)
open Mailbox (pick discard)
open Nor (Outcome)

variable {board : Board} {d : Sys} {l : Link} {id : ℕ} {rx tx : List UInt8}

/-! ## Answers -/

/-- What the host reads in a response. -/
def responseOf (r : BootRam) (opcode : UInt8) (st : Status) : FirmwareUpdateResponse where
  opcode := opcode
  status := st.code
  state := r.updateState.code
  expectedOffset := read16 (write16 (if r.updateState = .authorized ∨ r.updateState = .receiving
    then r.expectedOffset else 0)) 0
  versionFloor := read32 (write32 r.versionFloor) 0
  committedVersion := read32 (write32 r.committedVersion) 0

/-- The response carries an answer to the request `id`. -/
def Carries (id : ℕ) (opcode : UInt8) (tx : List UInt8) (a : FirmwareUpdateResponse) : Prop :=
  ∃ r st, tx = buildResponse r id opcode st ∧ a = responseOf r opcode st

/-- The response is one the bootloader builds for `rx`. -/
def IsAnswerTo (rx tx : List UInt8) : Prop :=
  ∃ r st, tx = buildResponse r (wireId rx) (packetOpcode rx) st

/-- The response is one the bootloader builds. -/
def IsAnswer (tx : List UInt8) : Prop := ∃ rx, IsAnswerTo rx tx

theorem wireId_lt (packet : List UInt8) : wireId packet < 65536 := loadLe16_lt _ _

/-- A response carries the id of its request. -/
theorem wireId_buildResponse (r : BootRam) (hid : id < 65536) (opcode : UInt8) (st : Status) :
    wireId (buildResponse r id opcode st) = id := by
  rw [buildResponse_eq, wireId, loadLe16_eq]
  simpa [wire, frameHeader] using LittleEndian.read16_write16 hid
    [magic0, magic1, protocolVersion, FrameType.firmwareUpdateResponse, 0, 0]
    (write16 (responseBody r opcode st).length ++ (responseBody r opcode st ++
      write16 (crc16Compute (frameHeader FrameType.firmwareUpdateResponse 0 id
        (responseBody r opcode st).length ++ responseBody r opcode st)).toNat))

theorem IsAnswerTo.wireId_eq (h : IsAnswerTo rx tx) : wireId tx = wireId rx := by
  obtain ⟨r, st, rfl⟩ := h
  exact wireId_buildResponse r (wireId_lt rx) _ st

/-- A request carries its id. -/
theorem wireId_request (flags : UInt8) (hid : id < 65536) (payload : List UInt8) :
    wireId (request flags id payload) = id := loadLe16_request_id _ _ _ hid

theorem parseResponse_ok {frame : BinaryFrame} {opcode : UInt8}
    (hlen : frame.payload.length = FirmwareUpdate.responseBytes)
    (h0 : frame.payload.getD 0 0 = opcode) (h3 : frame.payload.getD 3 0 = 0)
    (h6 : frame.payload.getD 6 0 = 0) (h7 : frame.payload.getD 7 0 = 0) :
    parseResponse frame opcode = .ok
      { opcode := frame.payload.getD 0 0
        status := frame.payload.getD 1 0
        state := frame.payload.getD 2 0
        expectedOffset := read16 frame.payload 4
        versionFloor := read32 frame.payload 8
        committedVersion := read32 frame.payload 12 } := by
  simp only [parseResponse, hlen, h0, h3, h6, h7, ne_eq, not_true_eq_false, or_self, if_false]

/-- **The host parses the bootloader's answer.** -/
theorem parseResponse_responseBody (r : BootRam) (opcode : UInt8) (st : Status) :
    parseResponse (frameOf FrameType.firmwareUpdateResponse 0 id (responseBody r opcode st)) opcode =
      .ok (responseOf r opcode st) :=
  parseResponse_ok (by simp [frameOf, responseBody, FirmwareUpdate.responseBytes]) rfl rfl rfl rfl

/-- A frame that carries an answer: what a read for the current id returns. -/
def IsFrameOf (id : ℕ) (opcode : UInt8) (a : FirmwareUpdateResponse) (frame : BinaryFrame) : Prop :=
  ∃ r st, frame = frameOf FrameType.firmwareUpdateResponse 0 id (responseBody r opcode st) ∧
    a = responseOf r opcode st

/-! ## The endpoint -/

/-- An endpoint that is not busy has nothing armed. -/
theorem armed_eq_none (h : ¬ Busy d) : armed d = none := if_neg h

/-- An endpoint with an armed answer is busy. -/
theorem busy_of_armed (h : armed d = some tx) : Busy d := by
  by_contra hb
  rw [armed_eq_none hb] at h
  cases h

theorem not_busy_boot (d : Sys) (d1 d2 : ℕ) : ¬ Busy (d.boot board d1 d2) := by
  unfold Sys.boot bootMain Busy
  by_cases h : ¬ consumeUpdateToken d1 d2 ∧ (bootRam board d.machine.flash).committedVersion ≠ 0
  · rw [if_pos h]
    simp
  · rw [if_neg h]
    simp [bootRam, BootRam.zero]

/-- An endpoint whose answer has gone is not busy. -/
theorem not_busy_inComplete (hb : Busy d) : ¬ Busy (d.step board .inComplete) := by
  simp only [Sys.step]
  rw [if_neg (not_not_intro hb.1)]
  split
  · exact not_busy_boot d 0 0
  · exact fun h => by simp [Busy] at h

theorem armed_configure (d : Sys) (c : ℕ) :
    armed (d.step board (.configure c)) = armed d ∨ armed (d.step board (.configure c)) = none := by
  simp only [Sys.step]
  split
  · exact Or.inl rfl
  · rename_i hp
    by_cases hc : c = 1
    · subst hc
      exact Or.inl rfl
    · right
      simp [armed, Busy, hc]

theorem armed_reset (d : Sys) (d1 d2 : ℕ) : armed (d.step board (.reset d1 d2)) = none :=
  armed_eq_none (not_busy_boot d d1 d2)

/-! ## In flight -/

/-- The packets on their way to the host. -/
def Link.flying (l : Link) : List (List UInt8) := l.responses ++ (armed l.device).toList

/-- The ids of the packets in flight. -/
def Link.ids (l : Link) : List ℕ := l.requests.map wireId ++ l.flying.map wireId

/-- The id of a request in flight is in flight. -/
theorem mem_ids_of_request (h : rx ∈ l.requests) : wireId rx ∈ l.ids :=
  List.mem_append_left _ (List.mem_map_of_mem h)

/-- Between two requests: the requests in flight are late ones, and every
packet in flight is that of an abandoned request. -/
structure Settled (late : List UInt8 → Prop) (s : Conn Link) : Prop where
  clean : s.channel.Clean
  requests : ∀ rx ∈ s.link.requests, late rx
  answers : ∀ tx ∈ s.link.flying, IsAnswer tx
  nodup : s.link.ids.Nodup
  abandoned : ∀ id ∈ s.link.ids, s.channel.Abandoned id

/-- The device is in `P` whatever happens to it: the events it meets, where
`ok`, keep it there, and what it answers a late request is an answer. -/
structure Kept (board : Board) (ok : Event → Prop) (late : List UInt8 → Prop) (P : Sys → Prop) :
    Prop where
  step : ∀ d e, P d → ok e → (∀ rx tape, e = .packet rx tape → late rx ∧ ¬ Busy d) →
    P (d.step board e)
  answer : ∀ d rx tape tx, P d → late rx → ¬ Busy d →
    armed (d.step board (.packet rx tape)) = some tx → IsAnswerTo rx tx

/-- What a request needs of the device, and what its answer says: in `D` it
is served, and the device is in `W` then; where it answers `a`, in `A a`. -/
structure Service (board : Board) (ok : Event → Prop) (late : List UInt8 → Prop) (opcode : UInt8)
    (args : List UInt8) (D W : Sys → Prop) (A : FirmwareUpdateResponse → Sys → Prop) : Prop where
  length : args.length ≤ 51
  weaken : ∀ d, D d → W d
  before : Kept board ok late D
  after : Kept board ok late W
  answered : ∀ a, Kept board ok late (A a)
  serve : ∀ d id tape, IsId id → D d → ok (.packet (request 1 id (opcode :: args)) tape) → ¬ Busy d →
    W (d.step board (.packet (request 1 id (opcode :: args)) tape)) ∧
      ∀ tx, armed (d.step board (.packet (request 1 id (opcode :: args)) tape)) = some tx →
        ∃ a, Carries id opcode tx a ∧
          A a (d.step board (.packet (request 1 id (opcode :: args)) tape))

variable {ok : Event → Prop} {late : List UInt8 → Prop} {opcode : UInt8} {args : List UInt8}
  {D W : Sys → Prop} {A : FirmwareUpdateResponse → Sys → Prop} {s : Conn Link}

/-- Where the request `id` stands: not yet delivered, or lost; or served,
and then what answers it in flight says what the device is in. -/
def Stage (id : ℕ) (opcode : UInt8) (D W : Sys → Prop) (A : FirmwareUpdateResponse → Sys → Prop)
    (l : Link) : Prop :=
  (D l.device ∧ id ∉ l.flying.map wireId) ∨
    (W l.device ∧ id ∉ l.requests.map wireId ∧
      ∀ tx ∈ l.flying, wireId tx = id → ∃ a, Carries id opcode tx a ∧ A a l.device)

/-- During the request `id`. -/
structure Pending (late : List UInt8 → Prop) (opcode : UInt8) (args : List UInt8) (D W : Sys → Prop)
    (A : FirmwareUpdateResponse → Sys → Prop) (id : ℕ) (s : Conn Link) : Prop where
  clean : s.channel.Clean
  isId : IsId id
  current : ¬ s.channel.Abandoned id
  requests : ∀ rx ∈ s.link.requests, rx = request 1 id (opcode :: args) ∨ (late rx ∧ wireId rx ≠ id)
  answers : ∀ tx ∈ s.link.flying, IsAnswer tx
  nodup : s.link.ids.Nodup
  abandoned : ∀ id' ∈ s.link.ids, id' = id ∨ s.channel.Abandoned id'
  stage : Stage id opcode D W A s.link

/-! ## One event -/

/-- The events a link may have, where the device may meet the events `ok`. -/
def Allowed (ok : Event → Prop) : LinkEvent → Prop
  | .deliver _ tape => ∀ rx, ok (.packet rx tape)
  | .collect => ok .inComplete
  | .configure c => ok (.configure c)
  | .reset d1 d2 => ok (.reset d1 d2)
  | _ => True

/-- The events that end a wait without an answer, and what they throw. -/
def Breaks : LinkEvent → HostError → Prop
  | .timeout, e => e = .operationCanceled false
  | .cancel, e => e = .operationCanceled true
  | .close, e => e = .deus .transportDisconnected
  | _, _ => False

/-- Collecting an answer leaves what flies to the device. -/
theorem flying_collect (l : Link) : (l.collect board).flying = l.flying := by
  unfold Link.collect
  cases h : armed l.device with
  | none => rfl
  | some tx =>
    have hnone : armed (l.device.step board .inComplete) = none :=
      armed_eq_none (not_busy_inComplete (busy_of_armed h))
    simp only [Link.flying, h, hnone, Option.toList_some, Option.toList_none, List.append_nil]

/-- **Packets may be lost, and the device may meet an event of its own.** -/
theorem Pending.shrink {l' : Link} (h : Pending late opcode args D W A id s)
    (hreq : l'.requests.Sublist s.link.requests) (hfly : l'.flying.Sublist s.link.flying)
    (hD : D s.link.device → D l'.device) (hW : W s.link.device → W l'.device)
    (hA : ∀ a, A a s.link.device → A a l'.device) :
    Pending late opcode args D W A id { s with link := l' } := by
  have hids : l'.ids.Sublist s.link.ids := (hreq.map wireId).append (hfly.map wireId)
  refine ⟨h.clean, h.isId, h.current, fun rx hrx => h.requests rx (hreq.subset hrx),
    fun tx htx => h.answers tx (hfly.subset htx), h.nodup.sublist hids,
    fun id' hid' => h.abandoned id' (hids.subset hid'), ?_⟩
  rcases h.stage with ⟨hd, hnot⟩ | ⟨hw, hnot, hall⟩
  · exact Or.inl ⟨hD hd, fun hid => hnot ((hfly.map wireId).subset hid)⟩
  · refine Or.inr ⟨hW hw, fun hid => hnot ((hreq.map wireId).subset hid), fun tx htx hid => ?_⟩
    obtain ⟨a, hc, ha⟩ := hall tx (hfly.subset htx) hid
    exact ⟨a, hc, hA a ha⟩

/-- What a delivery makes of the packets in flight: the request is gone, and
at most its answer is there. -/
theorem ids_deliver {device' : Sys} (hb : ¬ Busy l.device) (hp : pick wireId id l.requests = some rx)
    (hans : ∀ tx, armed device' = some tx → wireId tx = wireId rx) :
    ∃ rest, l.ids.Perm rest ∧
      (Link.ids ⟨device', discard wireId id l.requests, l.responses⟩).Sublist rest := by
  have hperm := (Mailbox.perm_of_pick hp).map wireId
  refine ⟨(discard wireId id l.requests).map wireId ++ (l.responses.map wireId ++ [wireId rx]), ?_, ?_⟩
  · simp only [Link.ids, Link.flying, armed_eq_none hb, Option.toList_none, List.append_nil]
    refine (hperm.append_right _).trans ?_
    rw [List.map_cons, List.cons_append, ← List.append_assoc]
    exact (List.perm_append_singleton _ _).symm
  · simp only [Link.ids, Link.flying, List.map_append]
    refine (List.Sublist.refl _).append ((List.Sublist.refl _).append ?_)
    cases ha : armed device' with
    | none => exact List.nil_sublist _
    | some tx =>
      simp only [Option.toList_some, List.map_cons, List.map_nil, hans tx ha]
      exact List.Sublist.refl _

/-- The packets a delivery leaves on their way to the host. -/
theorem mem_flying_deliver {device' : Sys} {requests' : List (List UInt8)}
    (htx : tx ∈ Link.flying ⟨device', requests', l.responses⟩) :
    tx ∈ l.flying ∨ armed device' = some tx := by
  simp only [Link.flying, List.mem_append, Option.mem_toList] at htx ⊢
  rcases htx with htx | htx
  · exact Or.inl (Or.inl htx)
  · exact Or.inr htx

/-- **A request is delivered.** -/
theorem Pending.deliver (hs : Service board ok late opcode args D W A)
    (h : Pending late opcode args D W A id s) (id' : ℕ) (tape : ℕ → Option Outcome)
    (hok : ∀ rx, ok (.packet rx tape)) :
    Pending late opcode args D W A id { s with link := s.link.deliver board id' tape } := by
  unfold Link.deliver
  by_cases hb : Busy s.link.device
  · rw [if_pos hb]
    exact h
  rw [if_neg hb]
  cases hp : pick wireId id' s.link.requests with
  | none => exact h
  | some rx =>
    have hmem := Mailbox.mem_of_pick hp
    have hkey := Mailbox.key_of_pick hp
    have hnone := armed_eq_none hb
    have hsub : (discard wireId id' s.link.requests).Sublist s.link.requests :=
      Mailbox.discard_sublist
    have hnot : id' ∉ (discard wireId id' s.link.requests).map wireId :=
      Mailbox.not_mem_map_discard (List.nodup_append.1 h.nodup).1
    dsimp only
    rcases h.requests rx hmem with heq | ⟨hlate, hne⟩
    · -- the current request is served
      have hid' : id' = id := by
        rw [← hkey, heq]
        exact wireId_request 1 h.isId.2 _
      subst hid'
      have hstage : D s.link.device := by
        rcases h.stage with ⟨hd, -⟩ | ⟨-, hgone, -⟩
        · exact hd
        · exact absurd (hkey ▸ List.mem_map_of_mem hmem) hgone
      rw [heq]
      obtain ⟨hw, hserve⟩ := hs.serve s.link.device id' tape h.isId hstage (hok _) hb
      have hans : ∀ tx, armed (s.link.device.step board
          (.packet (request 1 id' (opcode :: args)) tape)) = some tx → IsAnswerTo rx tx ∧
          wireId tx = wireId rx := fun tx htx => by
        obtain ⟨a, ⟨r, st, htx', -⟩, -⟩ := hserve tx htx
        have hop : packetOpcode rx = opcode := by
          rw [heq, packetOpcode_request _ _ _ (by simp)]
          rfl
        have hanswer : IsAnswerTo rx tx := ⟨r, st, by rw [htx', hkey, hop]⟩
        exact ⟨hanswer, hanswer.wireId_eq⟩
      obtain ⟨rest, hperm, hids⟩ := ids_deliver hb hp fun tx htx => (hans tx htx).2
      refine ⟨h.clean, h.isId, h.current, fun q hq => h.requests q (hsub.subset hq),
        fun tx htx => ?_, (hperm.nodup_iff.1 h.nodup).sublist hids,
        fun i hi => h.abandoned i (hperm.symm.subset (hids.subset hi)), Or.inr ⟨hw, hnot, ?_⟩⟩
      · rcases mem_flying_deliver htx with htx | htx
        · exact h.answers tx htx
        · exact ⟨rx, (hans tx htx).1⟩
      · intro tx htx hid
        rcases mem_flying_deliver htx with htx | htx
        · -- nothing that was in flight had this id
          have hnodup := h.nodup
          rw [Link.ids, List.nodup_append] at hnodup
          have hreq : id' ∈ s.link.requests.map wireId := hkey ▸ List.mem_map_of_mem hmem
          exact absurd rfl (hnodup.2.2 id' hreq id' (hid ▸ List.mem_map_of_mem htx))
        · exact hserve tx htx
    · -- a late one changes nothing
      have hne' : id' ≠ id := fun he => hne (hkey.trans he)
      have hstep : ∀ {P : Sys → Prop}, Kept board ok late P → P s.link.device →
          P (s.link.device.step board (.packet rx tape)) := fun hk hP =>
        hk.step _ _ hP (hok rx) fun rx' tape' he => by
          cases he
          exact ⟨hlate, hb⟩
      have hans : ∀ tx, armed (s.link.device.step board (.packet rx tape)) = some tx →
          IsAnswerTo rx tx := fun tx htx => by
        rcases h.stage with ⟨hd, -⟩ | ⟨hw, -⟩
        · exact hs.before.answer _ rx tape tx hd hlate hb htx
        · exact hs.after.answer _ rx tape tx hw hlate hb htx
      obtain ⟨rest, hperm, hids⟩ := ids_deliver hb hp fun tx htx => (hans tx htx).wireId_eq
      refine ⟨h.clean, h.isId, h.current, fun q hq => h.requests q (hsub.subset hq),
        fun tx htx => ?_, (hperm.nodup_iff.1 h.nodup).sublist hids,
        fun i hi => h.abandoned i (hperm.symm.subset (hids.subset hi)), ?_⟩
      · rcases mem_flying_deliver htx with htx | htx
        · exact h.answers tx htx
        · exact ⟨rx, hans tx htx⟩
      · have hother : ∀ tx, armed (s.link.device.step board (.packet rx tape)) = some tx →
            wireId tx ≠ id := fun tx htx => by
          rw [(hans tx htx).wireId_eq, hkey]
          exact hne'
        rcases h.stage with ⟨hd, hfree⟩ | ⟨hw, hgone, hall⟩
        · refine Or.inl ⟨hstep hs.before hd, fun hid => ?_⟩
          obtain ⟨tx, htx, hid⟩ := List.mem_map.1 hid
          rcases mem_flying_deliver htx with htx | htx
          · exact hfree (hid ▸ List.mem_map_of_mem htx)
          · exact hother tx htx hid
        · refine Or.inr ⟨hstep hs.after hw, fun hid => hgone ((hsub.map wireId).subset hid),
            fun tx htx hid => ?_⟩
          rcases mem_flying_deliver htx with htx | htx
          · obtain ⟨a, hc, ha⟩ := hall tx htx hid
            exact ⟨a, hc, hstep (hs.answered a) ha⟩
          · exact absurd hid (hother tx htx)

theorem ids_read {id' : ℕ} (hp : pick wireId id' l.responses = some tx) :
    l.flying.Perm (tx :: Link.flying { l with responses := discard wireId id' l.responses }) ∧
      l.ids.Perm (id' :: Link.ids { l with responses := discard wireId id' l.responses }) := by
  have hfly : l.flying.Perm (tx :: Link.flying
      { l with responses := discard wireId id' l.responses }) :=
    (Mailbox.perm_of_pick hp).append_right _
  refine ⟨hfly, ?_⟩
  have hmap := hfly.map wireId
  rw [List.map_cons, Mailbox.key_of_pick hp] at hmap
  exact (hmap.append_left _).trans List.perm_middle

/-- **A response is handed to the host**: it answers the current request, or
is dropped. -/
theorem Pending.read {id' : ℕ} (h : Pending late opcode args D W A id s)
    (hp : pick wireId id' s.link.responses = some tx) :
    (id' = id → ∃ frame a, s.channel.receive tx = (s.channel, some (.ok frame)) ∧
        IsFrameOf id opcode a frame ∧ A a s.link.device ∧
        Settled late ⟨s.channel, { s.link with responses := discard wireId id' s.link.responses }⟩) ∧
      (id' ≠ id → ∃ c, s.channel.receive tx = (c, none) ∧ s.channel.Follows c ∧
        Pending late opcode args D W A id
          ⟨c, { s.link with responses := discard wireId id' s.link.responses }⟩) := by
  have hkey := Mailbox.key_of_pick hp
  obtain ⟨hfly, hids⟩ := ids_read hp
  have hmem : tx ∈ s.link.flying := hfly.symm.subset List.mem_cons_self
  have hsub : ∀ q ∈ Link.flying { s.link with responses := discard wireId id' s.link.responses },
      q ∈ s.link.flying := fun q hq => hfly.symm.subset (List.mem_cons_of_mem _ hq)
  have hnodup := List.nodup_cons.1 (hids.nodup_iff.1 h.nodup)
  have hsubids : ∀ i ∈ Link.ids { s.link with responses := discard wireId id' s.link.responses },
      i ∈ s.link.ids := fun i hi => hids.symm.subset (List.mem_cons_of_mem _ hi)
  have hne : tx ≠ [] := by
    obtain ⟨rx, r, st, htx⟩ := h.answers tx hmem
    rw [htx]
    simp [buildResponse]
  constructor
  · rintro rfl
    obtain ⟨a, ⟨r, st, rfl, rfl⟩, ha⟩ : ∃ a, Carries id' opcode tx a ∧ A a s.link.device := by
      rcases h.stage with ⟨-, hfree⟩ | ⟨-, -, hall⟩
      · exact absurd (hkey ▸ List.mem_map_of_mem hmem) hfree
      · exact hall tx hmem hkey
    have hgone : id' ∉ s.link.requests.map wireId := by
      rcases h.stage with ⟨-, hfree⟩ | ⟨-, hgone, -⟩
      · exact absurd (hkey ▸ List.mem_map_of_mem hmem) hfree
      · exact hgone
    refine ⟨_, _, (receive_frame h.clean hne (feed_buildResponse id' r h.isId.2 opcode st)).2
      h.current, ⟨r, st, rfl, rfl⟩, ha, ?_⟩
    refine ⟨h.clean, fun rx hrx => ?_, fun q hq => h.answers q (hsub q hq), hnodup.2, fun i hi => ?_⟩
    · rcases h.requests rx hrx with rfl | ⟨hlate, -⟩
      · have hmem' := List.mem_map_of_mem (f := wireId) hrx
        rw [wireId_request 1 h.isId.2] at hmem'
        exact absurd hmem' hgone
      · exact hlate
    · rcases h.abandoned i (hsubids i hi) with rfl | hab
      · exact absurd hi hnodup.1
      · exact hab
  · intro hid
    have hab : s.channel.Abandoned id' :=
      (h.abandoned id' (hids.symm.subset List.mem_cons_self)).resolve_left hid
    obtain ⟨rx, r, st, rfl⟩ := h.answers tx hmem
    have hrx : wireId rx = id' := by
      rw [← hkey]
      exact (wireId_buildResponse r (wireId_lt rx) _ st).symm
    obtain ⟨abandoned, hrec, hforget⟩ := (receive_frame h.clean hne
      (feed_buildResponse (wireId rx) r (wireId_lt rx) (packetOpcode rx) st)).1 (hrx ▸ hab)
    refine ⟨_, hrec, ⟨rfl, rfl, rfl, hforget.subset⟩,
      ⟨h.clean.decoder, h.clean.queue, h.clean.nextId⟩, h.isId,
      fun hc => h.current (hforget.subset id hc), h.requests, fun q hq => h.answers q (hsub q hq),
      hnodup.2, fun i hi => ?_, ?_⟩
    · refine (h.abandoned i (hsubids i hi)).imp_right fun hc => hforget.keeps i ?_ hc
      intro he
      have he' : i = id' := he.trans hrx
      exact hnodup.1 (he' ▸ hi)
    · rcases h.stage with ⟨hd, hfree⟩ | ⟨hw, hgone, hall⟩
      · refine Or.inl ⟨hd, fun hc => hfree ?_⟩
        obtain ⟨q, hq, rfl⟩ := List.mem_map.1 hc
        exact List.mem_map_of_mem (hsub q hq)
      · exact Or.inr ⟨hw, hgone, fun q hq => hall q (hsub q hq)⟩

/-- How an event of the link ends, for a reader that waits. -/
def Reads (late : List UInt8 → Prop) (opcode : UInt8) (args : List UInt8) (D W : Sys → Prop)
    (A : FirmwareUpdateResponse → Sys → Prop) (id : ℕ) (ev : LinkEvent) :
    Conn Link × Option (Except HostError BinaryFrame) → Prop
  | (s', none) => Pending late opcode args D W A id s'
  | (s', some (.ok frame)) => Settled late s' ∧ ∃ a, IsFrameOf id opcode a frame ∧ A a s'.link.device
  | (s', some (.error e)) => Pending late opcode args D W A id s' ∧ Breaks ev e

/-- **The invariant over one event.** The answer is returned and the client
settled, or the request goes on waiting, also where the read breaks off. -/
theorem Pending.step (hs : Service board ok late opcode args D W A)
    (h : Pending late opcode args D W A id s) (ev : LinkEvent) (hok : Allowed ok ev) :
    Reads late opcode args D W A id ev (readEvent (link board) ev s) := by
  have hkept : ∀ (e : Event) (P : Sys → Prop), (∀ rx tape, e ≠ .packet rx tape) → ok e →
      Kept board ok late P → P s.link.device → P (s.link.device.step board e) :=
    fun e P hne he hk hP => hk.step _ e hP he fun rx tape heq => absurd heq (hne rx tape)
  cases ev with
  | deliver id' tape => exact h.deliver hs id' tape hok
  | dropRequest id' =>
    exact h.shrink Mailbox.discard_sublist (List.Sublist.refl _) (fun hd => hd) (fun hw => hw)
      fun _ ha => ha
  | collect =>
    show Pending late opcode args D W A id { s with link := s.link.collect board }
    refine h.shrink ?_ ((flying_collect s.link : (s.link.collect board).flying = _) ▸ List.Sublist.refl _) ?_ ?_ ?_
    · unfold Link.collect
      split <;> exact List.Sublist.refl _
    all_goals
      unfold Link.collect
      split
    · exact fun hd => hd
    · exact hkept .inComplete D (by simp) hok hs.before
    · exact fun hw => hw
    · exact hkept .inComplete W (by simp) hok hs.after
    · exact fun _ ha => ha
    · exact fun a => hkept .inComplete (A a) (by simp) hok (hs.answered a)
  | dropResponse id' =>
    exact h.shrink (List.Sublist.refl _) (Mailbox.discard_sublist.append_right _) (fun hd => hd)
      (fun hw => hw) fun _ ha => ha
  | read id' =>
    simp only [readEvent, link]
    cases hp : pick wireId id' s.link.responses with
    | none => exact h
    | some tx =>
      obtain ⟨hcur, hother⟩ := h.read hp
      by_cases hid : id' = id
      · obtain ⟨frame, a, hrec, hframe, ha, hset⟩ := hcur hid
        simp only [hrec]
        exact ⟨hset, a, hframe, ha⟩
      · obtain ⟨c, hrec, -, hpend⟩ := hother hid
        simp only [hrec]
        exact hpend
  | timeout => exact ⟨h, rfl⟩
  | cancel => exact ⟨h, rfl⟩
  | close => exact ⟨h, rfl⟩
  | configure c =>
    refine h.shrink (List.Sublist.refl _) ?_ (hkept (.configure c) D (by simp) hok hs.before)
      (hkept (.configure c) W (by simp) hok hs.after)
      fun a => hkept (.configure c) (A a) (by simp) hok (hs.answered a)
    refine (List.Sublist.refl _).append ?_
    have harmed : armed (s.link.device.step board (.configure c)) = _ ∨ _ :=
      armed_configure s.link.device c
    rcases harmed with heq | heq <;> simp [heq]
  | reset d1 d2 =>
    refine h.shrink (List.Sublist.refl _) ?_ (hkept (.reset d1 d2) D (by simp) hok hs.before)
      (hkept (.reset d1 d2) W (by simp) hok hs.after)
      fun a => hkept (.reset d1 d2) (A a) (by simp) hok (hs.answered a)
    refine (List.Sublist.refl _).append ?_
    simp [armed_reset]

/-- Reading only makes the channel forget. -/
theorem Pending.follows (h : Pending late opcode args D W A id s) (ev : LinkEvent) :
    s.channel.Follows (readEvent (link board) ev s).1.channel := by
  cases ev with
  | read id' =>
    simp only [readEvent, link]
    cases hp : pick wireId id' s.link.responses with
    | none => exact .refl _
    | some tx =>
      obtain ⟨hcur, hother⟩ := h.read hp
      by_cases hid : id' = id
      · obtain ⟨frame, a, hrec, -⟩ := hcur hid
        simp only [hrec]
        exact .refl _
      · obtain ⟨c, hrec, hfollows, -⟩ := hother hid
        simp only [hrec]
        exact hfollows
  | _ => exact .refl _

/-- The link moves by its own events. -/
theorem link_readEvent (ev : LinkEvent) (s : Conn Link) :
    (readEvent (link board) ev s).1.link = ((link board).event ev s.link).1 := by
  unfold readEvent
  rcases (link board).event ev s.link with ⟨l, - | (data | - | -)⟩ <;> rfl

end Update

end DeusOs
