import DeusOs.Kernel.Model.UsbManagement
import Mathlib.Tactic.Common
import Mathlib.Order.Basic

/-!
# The kernel — the answer before the reset

The reset waits for the next IN packet to complete, whichever it is. When the
ring is empty as an `ENTER_BOOTLOADER` is accepted, that packet is the answer;
otherwise it is an older one, and the reset can overtake the answer
(`answer_before_reset`).
-/

namespace DeusOs

namespace Kernel

variable {r : Runtime} {u : Usb} {e : UsbEvent} {data : List UInt8}

/-! ## The ring -/

/-- A packet on its way holds bytes from the ring's tail; without one, and
configured, the ring is empty. -/
structure Usb.Sound (u : Usb) : Prop where
  inflight : u.active = true → 0 < u.inflight ∧ u.inflight ≤ u.queue.length
  waiting : u.configured = true → u.active = false → u.queue = []

/-- Starting a packet leaves the queue sound. -/
theorem Usb.Sound.txKick (hin : u.active = true → 0 < u.inflight ∧ u.inflight ≤ u.queue.length) :
    u.txKick.Sound := by
  unfold Usb.txKick
  by_cases h : u.configured = false ∨ u.active = true
  · rw [if_pos h]
    refine ⟨hin, fun hc ha => ?_⟩
    rcases h with h | h
    · rw [hc] at h
      cases h
    · rw [ha] at h
      cases h
  rw [if_neg h]
  by_cases h0 : u.queue.length = 0
  · rw [if_pos h0]
    exact ⟨hin, fun _ _ => List.eq_nil_of_length_eq_zero h0⟩
  · rw [if_neg h0]
    refine ⟨fun _ => ?_, fun _ ha => by cases ha⟩
    simp only
    split <;> simp only [maxPacket] at * <;> omega

@[simp] theorem txKick_queue (u : Usb) : u.txKick.queue = u.queue := by
  unfold Usb.txKick
  split_ifs <;> rfl

@[simp] theorem txKick_delivered (u : Usb) : u.txKick.delivered = u.delivered := by
  unfold Usb.txKick
  split_ifs <;> rfl

@[simp] theorem txKick_packetCount (u : Usb) : u.txKick.packetCount = u.packetCount := by
  unfold Usb.txKick
  split_ifs <;> rfl

@[simp] theorem txKick_configured (u : Usb) : u.txKick.configured = u.configured := by
  unfold Usb.txKick
  split_ifs <;> rfl

/-- A packet on its way is left alone. -/
theorem txKick_of_active (h : u.active = true) : u.txKick = u := by
  rw [Usb.txKick, if_pos (Or.inr h)]

/-- A completed packet leaves the queue sound. -/
theorem Usb.Sound.handleIn (h : u.Sound) : u.handleIn.Sound := by
  unfold Usb.handleIn
  by_cases ha : u.active = true
  · rw [if_pos ha]
    exact .txKick fun hx => by cases hx
  · rw [if_neg ha]
    exact .txKick h.inflight

/-- Writing a span leaves the queue sound. -/
theorem Usb.Sound.writeSpanAtomic (h : u.Sound) (data : List UInt8) :
    (u.writeSpanAtomic data).1.Sound := by
  unfold Usb.writeSpanAtomic
  split_ifs
  · exact h
  · exact h
  · refine .txKick fun ha => ?_
    obtain ⟨h1, h2⟩ := h.inflight ha
    refine ⟨h1, ?_⟩
    simp only [List.length_append]
    omega

/-- What a write leaves of the ring: the packet on its way stays, and more may follow it. -/
theorem writeSpanAtomic_of_active (h : u.active = true) (data : List UInt8) :
    ∃ more, (u.writeSpanAtomic data).1 = { u with queue := u.queue ++ more } := by
  unfold Usb.writeSpanAtomic
  split_ifs
  · exact ⟨[], by rw [List.append_nil]⟩
  · exact ⟨[], by rw [List.append_nil]⟩
  · exact ⟨data, txKick_of_active h⟩

theorem writeSpanAtomic_delivered (u : Usb) (data : List UInt8) :
    (u.writeSpanAtomic data).1.delivered = u.delivered := by
  unfold Usb.writeSpanAtomic
  split_ifs <;> simp

/-- The host never loses what it has received. -/
theorem handleIn_delivered (u : Usb) : ∃ more, u.handleIn.delivered = u.delivered ++ more := by
  unfold Usb.handleIn
  by_cases ha : u.active = true
  · rw [if_pos ha]
    exact ⟨u.queue.take u.inflight, by rw [txKick_delivered]⟩
  · rw [if_neg ha]
    exact ⟨[], by rw [txKick_delivered, List.append_nil]⟩

theorem length_responseWire (requestId : UInt16) (status state : UInt8) :
    (responseWire requestId status state).length = responseWireBytes := by
  simp [responseWire, responseWireBytes]

/-! ## The answer on its way -/

/-- All bytes of an answer at the place `offset` have been received. -/
def Received (u : Usb) (response : List UInt8) (offset : ℕ) : Prop :=
  (u.delivered.drop offset).take responseWireBytes = response

/-- The answer is the packet on its way, and no packet has completed since the baseline. -/
structure Leaving (u : Usb) (baseline : UInt32) (response : List UInt8) (offset : ℕ) : Prop where
  count : u.packetCount = baseline
  active : u.active = true
  inflight : u.inflight = responseWireBytes
  front : u.queue.take responseWireBytes = response
  place : u.delivered.length = offset

/-- An answer that was sent on an empty ring: it is the packet on its way, or it was received. -/
def OnItsWay (u : Usb) (baseline : UInt32) (response : List UInt8) (offset : ℕ) : Prop :=
  Leaving u baseline response offset ∨
    (Received u response offset ∧ offset + responseWireBytes ≤ u.delivered.length)

/-- What was received stays received. -/
theorem Received.append {response more : List UInt8} {offset : ℕ} (h : Received u response offset)
    (hlen : offset + responseWireBytes ≤ u.delivered.length) :
    ((u.delivered ++ more).drop offset).take responseWireBytes = response := by
  rw [List.drop_append_of_le_length (by omega), List.take_append_of_le_length, ]
  · exact h
  · rw [List.length_drop]
    omega

/-- A completed packet leaves the response on its way, or gone. -/
theorem OnItsWay.handleIn {baseline : UInt32} {response : List UInt8} {offset : ℕ}
    (hlen : response.length = responseWireBytes) (h : OnItsWay u baseline response offset) :
    OnItsWay u.handleIn baseline response offset := by
  rcases h with h | ⟨h, hle⟩
  · -- the packet that completes is the answer
    right
    have hd : u.handleIn.delivered = u.delivered ++ response := by
      unfold Usb.handleIn
      rw [if_pos h.active, txKick_delivered]
      simp only [h.inflight, h.front]
    refine ⟨?_, ?_⟩
    · rw [Received, hd, ← h.place, List.drop_left, ← hlen, List.take_length]
    · have hplace := h.place
      rw [hd, List.length_append]
      omega
  · right
    obtain ⟨more, hd⟩ := handleIn_delivered u
    refine ⟨?_, ?_⟩
    · rw [Received, hd]
      exact h.append hle
    · rw [hd, List.length_append]
      omega

/-- Another span leaves the response on its way. -/
theorem OnItsWay.writeSpanAtomic {baseline : UInt32} {response : List UInt8} {offset : ℕ}
    (hlen : response.length = responseWireBytes) (h : OnItsWay u baseline response offset)
    (data : List UInt8) : OnItsWay (u.writeSpanAtomic data).1 baseline response offset := by
  rcases h with h | ⟨h, hle⟩
  · left
    obtain ⟨more, hm⟩ := writeSpanAtomic_of_active h.active data
    rw [hm]
    refine ⟨h.count, h.active, h.inflight, ?_, h.place⟩
    have hq : responseWireBytes ≤ u.queue.length := by
      have := congrArg List.length h.front
      rw [List.length_take, hlen] at this
      omega
    simp only
    rw [List.take_append_of_le_length hq]
    exact h.front
  · right
    rw [Received, writeSpanAtomic_delivered]
    exact ⟨h, hle⟩

/-! ## Runs -/

/-- The step accepts a request only on an empty ring. -/
def Runtime.Quiet (r : Runtime) (e : UsbEvent) : Prop :=
  ∀ frame, e = .updateRequest frame → r.resetAt = none → r.thread = .idle →
    requestStatus frame = UpdateStatus.ok → r.resetPending = false → r.usb.queue = []

/-- Every step of a run does. -/
def Runtime.Quietly (r : Runtime) : List UsbEvent → Prop
  | [] => True
  | e :: es => r.Quiet e ∧ (r.step e).Quietly es

/-- The answer has left, or the fallback time has passed since it was accepted. -/
def Accepted.InOrder (a : Accepted) (u : Usb) (time : ℕ) : Prop :=
  Received u a.response a.offset ∨ a.time + resetFallbackMs ≤ time

/-- What holds in a run that accepts requests on an empty ring. -/
structure Runtime.Inv (r : Runtime) : Prop where
  sound : r.usb.Sound
  accepting : ∀ frame, r.thread = .accepting frame →
    r.resetPending = false ∧ r.usb.queue = [] ∧ r.baseline = r.usb.packetCount
  answered : ∀ frame offset, r.thread = .answered frame offset →
    r.resetPending = false ∧
      OnItsWay r.usb r.baseline (responseWire frame.requestId UpdateStatus.ok stateResetting) offset
  pending : r.resetPending = true → ∃ a, r.accepted = some a ∧
    a.response.length = responseWireBytes ∧ OnItsWay r.usb r.baseline a.response a.offset ∧
    r.deadline = UInt32.ofNat a.time + UInt32.ofNat resetFallbackMs ∧ a.time ≤ r.now
  reset : ∀ time, r.resetAt = some time → ∃ a, r.accepted = some a ∧ a.InOrder r.usb time

/-- The invariant holds at the start. -/
theorem Runtime.Inv.init (configured : Bool) (now : ℕ) : (Runtime.init configured now).Inv where
  sound := ⟨fun h => (by cases h), fun _ _ => rfl⟩
  accepting := fun _ h => (by cases h)
  answered := fun _ _ h => (by cases h)
  pending := fun h => by cases h
  reset := fun _ h => by cases h

/-- The deadline is reached only when the fallback time has passed. -/
theorem le_of_timeReached {t now : ℕ} (hle : t ≤ now)
    (h : timeReached (UInt32.ofNat now) (UInt32.ofNat t + UInt32.ofNat resetFallbackMs) = true) :
    t + resetFallbackMs ≤ now := by
  by_contra hlt
  simp only [timeReached, decide_eq_true_eq, UInt32.toNat_sub, UInt32.toNat_add,
    UInt32.toNat_ofNat', resetFallbackMs] at h hlt
  omega

/-- The check: the reset comes after the answer, or after the fallback time. -/
theorem Runtime.Inv.resetService (h : r.Inv) : r.resetService.Inv := by
  unfold Runtime.resetService
  by_cases hp : r.resetPending = false
  · rw [if_pos hp]
    exact h
  rw [if_neg hp]
  have hpend : r.resetPending = true := by simpa using hp
  obtain ⟨a, ha, hlen, hway, hdead, hle⟩ := h.pending hpend
  have hreset : a.InOrder r.usb r.now →
      Runtime.Inv { r with resetAt := some r.now } := fun ho =>
    ⟨h.sound, h.accepting, h.answered, h.pending, fun time ht => by
      cases ht
      exact ⟨a, ha, ho⟩⟩
  by_cases hc : r.usb.packetCount ≠ r.baseline
  · rw [if_pos hc]
    refine hreset (Or.inl ?_)
    rcases hway with hway | hway
    · exact absurd hway.count hc
    · exact hway.1
  rw [if_neg hc]
  by_cases ht : timeReached r.timeNow r.deadline = true
  · rw [if_pos ht]
    rw [Runtime.timeNow, hdead] at ht
    exact hreset (Or.inr (le_of_timeReached hle ht))
  · rw [if_neg ht]
    exact h

/-- Bytes of other frames join the ring. -/
theorem Runtime.Inv.write (h : r.Inv) (hr : r.resetAt = none) (hidle : r.thread = .idle)
    (data : List UInt8) : Runtime.Inv { r with usb := (r.usb.writeSpanAtomic data).1 } where
  sound := h.sound.writeSpanAtomic data
  accepting := fun frame ht => by
    rw [hidle] at ht
    cases ht
  answered := fun frame offset ht => by
    rw [hidle] at ht
    cases ht
  pending := fun hp => by
    obtain ⟨a, ha, hlen, hway, hrest⟩ := h.pending hp
    exact ⟨a, ha, hlen, hway.writeSpanAtomic hlen data, hrest⟩
  reset := fun time ht => by
    rw [hr] at ht
    cases ht

/-- The thread may move on when it holds no request. -/
theorem Runtime.Inv.thread (h : r.Inv) {t : Thread} (hidle : t = .idle ∨ t = .checking) :
    Runtime.Inv { r with thread := t } where
  sound := h.sound
  accepting := fun frame ht => by rcases hidle with rfl | rfl <;> cases ht
  answered := fun frame offset ht => by rcases hidle with rfl | rfl <;> cases ht
  pending := h.pending
  reset := h.reset

/-- The answers to other frames keep the invariant. -/
theorem Runtime.Inv.otherFrame (h : r.Inv) (hr : r.resetAt = none) (hidle : r.thread = .idle)
    (spans : List (List UInt8)) :
    Runtime.Inv { r with usb := spans.foldl (fun u s => (u.writeSpanAtomic s).1) r.usb } := by
  induction spans generalizing r with
  | nil => exact h
  | cons s spans ih =>
    have hs := ih (r := { r with usb := (r.usb.writeSpanAtomic s).1 }) (h.write hr hidle s) hr hidle
    exact hs

/-- A request is refused, or accepted on an empty ring. -/
theorem Runtime.Inv.updateRequest (h : r.Inv) (hr : r.resetAt = none) (hidle : r.thread = .idle)
    {frame : FrameView} (hquiet : requestStatus frame = UpdateStatus.ok → r.resetPending = false →
      r.usb.queue = []) : (r.updateRequest frame).Inv := by
  unfold Runtime.updateRequest
  by_cases hok : requestStatus frame ≠ UpdateStatus.ok
  · rw [if_pos hok]
    exact (h.write hr hidle _).thread (Or.inr rfl)
  rw [if_neg hok]
  by_cases hp : r.resetPending = true
  · rw [if_pos hp]
    exact (h.write hr hidle _).thread (Or.inr rfl)
  rw [if_neg hp]
  have hp' : r.resetPending = false := by simpa using hp
  refine ⟨h.sound, fun f ht => ⟨hp', hquiet (not_not.1 hok) hp', rfl⟩, fun f o ht => (by cases ht),
    fun hx => absurd hx hp, fun time ht => ?_⟩
  rw [hr] at ht
  cases ht

/-- The answer is sent on the empty ring: it is the packet on its way. -/
theorem leaving_of_send {frame : FrameView} {w : Usb × Bool} (hs : u.Sound) (hq : u.queue = [])
    (hw : u.writeSpanAtomic (responseWire frame.requestId UpdateStatus.ok stateResetting) = w)
    (hsent : w.2 ≠ false) :
    Leaving w.1 u.packetCount (responseWire frame.requestId UpdateStatus.ok stateResetting)
      (u.delivered.length + u.queue.length) := by
  have hlen := length_responseWire frame.requestId UpdateStatus.ok stateResetting
  have hidle : ¬u.active = true := by
    intro ha
    have := hs.inflight ha
    rw [hq] at this
    simp only [List.length_nil] at this
    omega
  unfold Usb.writeSpanAtomic at hw
  rw [if_neg (by rw [hlen]; decide)] at hw
  by_cases hno : u.configured = false ∨
      txRingCapacity < (responseWire frame.requestId UpdateStatus.ok stateResetting).length ∨
      txRingCapacity < u.queue.length ∨ txRingCapacity - u.queue.length <
        (responseWire frame.requestId UpdateStatus.ok stateResetting).length
  · rw [if_pos hno] at hw
    subst hw
    exact absurd rfl hsent
  rw [if_neg hno] at hw
  subst hw
  have hc : ¬(u.configured = false ∨ u.active = true) := by
    rintro (hx | hx)
    · exact hno (Or.inl hx)
    · exact hidle hx
  rw [hq, List.nil_append]
  simp only [Usb.txKick, if_neg hc, hlen]
  refine ⟨rfl, rfl, rfl, ?_, rfl⟩
  change List.take responseWireBytes (responseWire _ _ _) = _
  rw [← hlen, List.take_length]

/-- The thread goes on with the request in hand. -/
theorem Runtime.Inv.proceed (h : r.Inv) (hr : r.resetAt = none) : r.proceed.Inv := by
  have hnone : ∀ time, r.resetAt = some time → ∃ a, r.accepted = some a ∧ a.InOrder r.usb time := by
    intro time ht
    rw [hr] at ht
    cases ht
  unfold Runtime.proceed
  cases ht : r.thread with
  | idle => exact h
  | accepting frame =>
    obtain ⟨hp, hq, hb⟩ := h.accepting frame ht
    obtain ⟨w, hw⟩ : ∃ w, r.usb.writeSpanAtomic
        (responseWire frame.requestId UpdateStatus.ok stateResetting) = w := ⟨_, rfl⟩
    simp only [Runtime.sendResponse, hw]
    have hsound : w.1.Sound := by
      rw [← hw]
      exact h.sound.writeSpanAtomic _
    by_cases hsent : w.2 = false
    · simp only [if_pos hsent]
      exact ⟨hsound, fun f hf => (by cases hf), fun f o hf => (by cases hf),
        fun hx => (by rw [hp] at hx; cases hx), fun time hx => (by rw [hr] at hx; cases hx)⟩
    · simp only [if_neg hsent]
      have hl := leaving_of_send h.sound hq hw hsent
      rw [← hb] at hl
      refine ⟨hsound, fun f hf => (by cases hf), fun f o hf => ?_,
        fun hx => (by rw [hp] at hx; cases hx), fun time hx => (by rw [hr] at hx; cases hx)⟩
      cases hf
      exact ⟨hp, Or.inl hl⟩
  | answered frame offset =>
    obtain ⟨hp, hway⟩ := h.answered frame offset ht
    exact ⟨h.sound, fun f hf => (by cases hf), fun f o hf => (by cases hf),
      fun _ => ⟨_, rfl, length_responseWire _ _ _, hway, rfl, Nat.le_refl _⟩,
      fun time hx => (by rw [hr] at hx; cases hx)⟩
  | checking => exact h.resetService.thread (Or.inl rfl)

/-- **One event** of a run that accepts on an empty ring. The answer is then the
first thing on its way, and the first packet that completes is its own. -/
theorem Runtime.Inv.step (h : r.Inv) (hquiet : r.Quiet e) : (r.step e).Inv := by
  unfold Runtime.step
  by_cases hr : r.resetAt.isSome = true
  · rw [if_pos hr]
    exact h
  rw [if_neg hr]
  have hnone : r.resetAt = none := by simpa using hr
  have hreset : ∀ time, r.resetAt ≠ some time := fun time ht => by
    rw [hnone] at ht
    cases ht
  cases e with
  | tick ms =>
    refine ⟨h.sound, h.accepting, h.answered, fun hp => ?_, fun time ht => absurd ht (hreset time)⟩
    obtain ⟨a, ha, hlen, hway, hdead, hle⟩ := h.pending hp
    exact ⟨a, ha, hlen, hway, hdead, Nat.le_add_right_of_le hle⟩
  | inComplete =>
    refine ⟨h.sound.handleIn, fun frame ht => ?_, fun frame offset ht => ?_, fun hp => ?_,
      fun time ht => absurd ht (hreset time)⟩
    · -- on an empty ring no packet is on its way
      obtain ⟨hp, hq, hb⟩ := h.accepting frame ht
      have hidle : ¬r.usb.active = true := by
        intro ha
        have := h.sound.inflight ha
        rw [hq] at this
        simp only [List.length_nil] at this
        omega
      have hin : r.usb.handleIn = r.usb.txKick := by rw [Usb.handleIn, if_neg hidle]
      simp only [hin, txKick_queue, txKick_packetCount]
      exact ⟨hp, hq, hb⟩
    · obtain ⟨hp, hway⟩ := h.answered frame offset ht
      exact ⟨hp, hway.handleIn (length_responseWire _ _ _)⟩
    · obtain ⟨a, ha, hlen, hway, hrest⟩ := h.pending hp
      exact ⟨a, ha, hlen, hway.handleIn hlen, hrest⟩
  | service =>
    by_cases hidle : r.thread = .idle
    · simp only [if_pos hidle]
      exact h.resetService
    · simp only [if_neg hidle]
      exact h
  | updateRequest frame =>
    by_cases hidle : r.thread = .idle
    · simp only [if_pos hidle]
      exact h.updateRequest hnone hidle fun hok hp => hquiet frame rfl hnone hidle hok hp
    · simp only [if_neg hidle]
      exact h
  | otherFrame spans =>
    by_cases hidle : r.thread = .idle
    · simp only [if_pos hidle]
      exact h.otherFrame hnone hidle spans
    · simp only [if_neg hidle]
      exact h
  | proceed => exact h.proceed hnone

/-- **A whole run** keeps the invariant, event by event. -/
theorem Runtime.Inv.run (h : r.Inv) {events : List UsbEvent} (hquiet : r.Quietly events) :
    (r.run events).Inv := by
  induction events generalizing r with
  | nil => exact h
  | cons e es ih => exact ih (h.step hquiet.1) hquiet.2

/-- **The answer leaves before the reset**, in every run in which each accepted
`ENTER_BOOTLOADER` finds the transmit ring empty: at a reset there is an
accepted request, and all bytes of its answer have been received, or the
fallback time has passed since. -/
theorem answer_before_reset (configured : Bool) (now : ℕ) (events : List UsbEvent)
    (hquiet : (Runtime.init configured now).Quietly events) (time : ℕ)
    (hreset : ((Runtime.init configured now).run events).resetAt = some time) :
    ∃ a, ((Runtime.init configured now).run events).accepted = some a ∧
      a.InOrder ((Runtime.init configured now).run events).usb time :=
  ((Runtime.Inv.init configured now).run hquiet).reset time hreset

/-- A good request. -/
def enterBootloader : FrameView := ⟨1, 1, 0, 7, [opcodeEnterBootloader]⟩

/-- The theorem at a request on an empty ring, its answer received, and the service called again. -/
theorem answer_before_reset_of_empty :
    ∃ a, ((Runtime.init true 0).run [.updateRequest enterBootloader, .proceed, .proceed, .proceed,
      .inComplete, .service]).accepted = some a ∧
      a.InOrder ((Runtime.init true 0).run [.updateRequest enterBootloader, .proceed, .proceed,
        .proceed, .inComplete, .service]).usb 0 := by
  refine answer_before_reset true 0 _ ?_ 0 (by decide +kernel)
  refine ⟨fun _ _ _ _ _ _ => rfl, ?_, ?_, ?_, ?_, ?_, trivial⟩ <;>
    exact fun frame h => by cases h

/-- One byte of an older answer is on its way when the request is accepted: its packet completes,
and the reset comes at once, before any byte of the answer was received. -/
theorem reset_overtakes_answer :
    ∃ events time a, ((Runtime.init true 0).run events).resetAt = some time ∧
      ((Runtime.init true 0).run events).accepted = some a ∧ a.time = 0 ∧ time = 0 ∧
      ((Runtime.init true 0).run events).usb.delivered = [0xA5] ∧
      ¬a.InOrder ((Runtime.init true 0).run events).usb time := by
  refine ⟨[.otherFrame [[0xA5]], .updateRequest enterBootloader, .proceed, .proceed, .inComplete,
    .proceed], 0, ⟨responseWire 7 UpdateStatus.ok stateResetting, 1, 0⟩, by decide +kernel,
    by decide +kernel, rfl, rfl, by decide +kernel, ?_⟩
  rintro (h | h)
  · unfold Received at h
    exact absurd h (by decide +kernel)
  · exact absurd h (by decide)

end Kernel

end DeusOs
