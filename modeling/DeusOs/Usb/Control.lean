import DeusOs.Usb.Model.Control
import Mathlib.Data.List.Induction
import Mathlib.Tactic.Common

/-!
# Control transfers under late completions

The handler serves the receive flag first, then whatever completion flag it
finds. Where a SETUP that the device serves was latched beside a completion,
the completion is that of an earlier transfer, and the handler takes it for
one of the stage it has just armed. Where none is, an address or a
configuration is applied only on the status packet of its own request.
-/

namespace DeusOs

namespace Usb

/-! ## What is demanded -/

/-- The stage of a transfer: what the driver keeps of it, the packet armed for
it and whether the packet may go. -/
def Ep0.stage (s : Ep0) : Ep0State × List UInt8 × Bool × (UInt16 × Bool) × (UInt16 × Bool) ×
    Stat × TxPacket :=
  (s.state, s.inData, s.needZlp, (s.pendingAddress, s.pendingAddressValid),
    (s.pendingConfiguration, s.pendingConfigurationValid), s.statTx, s.txPacket)

/-- An address or a configuration changes only on the completion of an empty
packet, armed for the request that asks for it. -/
def Earned (s s' : Ep0) : Prop :=
  (s'.daddr ≠ s.daddr → ∃ p setup, s.inComplete = some p ∧ p.data = [] ∧ 0 < p.transfer ∧
    s'.setups[p.transfer - 1]? = some setup ∧ setup.isSetAddress = true ∧
    s'.daddr = daddrEf ||| (setup.wValue &&& daddrAddMask)) ∧
  (s'.configuration ≠ s.configuration → ∃ p setup, s.inComplete = some p ∧ p.data = [] ∧
    0 < p.transfer ∧ s'.setups[p.transfer - 1]? = some setup ∧
    (setup.isSetConfiguration = true ∧ s'.configuration = setup.wValue ∨
      setup.isSetAddress = true ∧ setup.wValue &&& daddrAddMask = 0 ∧
        s'.configuration = configurationNone))

/-- A completion of an earlier transfer leaves a stage as the receive half of
the handler left it. -/
def Ep0.Undisturbed (s : Ep0) : Prop :=
  ∀ p, s.serveRx.inComplete = some p → p.transfer ≠ s.serveRx.setups.length →
    s.serveRx.state ≠ .idle → s.handleCtr.stage = s.serveRx.stage

/-- The interrupt serves a reset first. -/
def Ep0.resetServed (s : Ep0) : Ep0 :=
  if s.resetPending = true then { s with resetPending := false }.busReset else s

theorem interrupt_eq (s : Ep0) : s.interrupt = s.resetServed.handleCtr := rfl

/-- What is demanded of an event; a reset of the bus takes address and
configuration away. -/
def Ep0.Sound (s : Ep0) (e : Ep0Event) : Prop :=
  (e ≠ .busReset → s.resetPending = false → Earned s (s.step e)) ∧
    (e = .interrupt → s.resetServed.Undisturbed)

/-- The device serves the SETUP. -/
def accepted (configuration : UInt16) (setup : SetupPacket) : Bool :=
  if setup.bmRequestType &&& 0x80 ≠ 0 then
    if setup.bmRequestType &&& 0x60 = 0x00 then (standardIn configuration setup).isSome
    else if setup.bmRequestType &&& 0x60 = 0x40 then
      decide (setup.bmRequestType = 0xC0 ∧ setup.bRequest = 0x20 ∧ setup.wValue = 0 ∧
        setup.wIndex = 0x0007)
    else false
  else if setup.bmRequestType &&& 0x60 = 0x00 then
    setup.isSetAddress || setup.isSetConfiguration || setup.isSetInterface configuration
  else false

/-- A SETUP that the device serves is latched beside a completion. -/
def Ep0.Coalesced (s : Ep0) : Prop :=
  s.resetPending = false ∧ s.inComplete ≠ none ∧
    ∃ data, s.received = some ⟨true, data⟩ ∧ data.length = 8 ∧
      accepted s.configuration (SetupPacket.ofBytes data) = true

/-! ## Requests -/

variable {s r : Ep0} {setup : SetupPacket}

/-- What a SETUP is answered with. -/
inductive Answered (s : Ep0) (setup : SetupPacket) (r : Ep0) : Prop
  | data (d : Ep0Diagnostics) (bytes : List UInt8) (n : ℕ)
      (eq : r = { s with diagnostics := d }.startIn bytes n)
  | address (set : setup.isSetAddress = true)
      (eq : r = Ep0.startStatusIn
        { s with pendingAddress := setup.wValue &&& daddrAddMask, pendingAddressValid := true })
  | configuration (set : setup.isSetConfiguration = true)
      (eq : r = Ep0.startStatusIn
        { s with pendingConfiguration := setup.wValue, pendingConfigurationValid := true })
  | interface (eq : r = s.startStatusIn)

/-- **The device serves a SETUP by one of its stages**, or leaves it. Which of
the two is a matter of the request and of the configuration. -/
theorem dispatch_cases (s : Ep0) (setup : SetupPacket) :
    accepted s.configuration setup = true ∧ (s.dispatch setup).2 = true ∧
        Answered s setup (s.dispatch setup).1 ∨
      accepted s.configuration setup = false ∧ s.dispatch setup = (s, false) := by
  unfold accepted Ep0.dispatch
  by_cases hdir : setup.bmRequestType &&& 0x80 ≠ 0
  · simp only [if_pos hdir]
    by_cases hstd : setup.bmRequestType &&& 0x60 = 0x00
    · simp only [if_pos hstd, Ep0.standardIn]
      cases hdata : standardIn s.configuration setup with
      | none => exact Or.inr ⟨rfl, rfl⟩
      | some bytes => exact Or.inl ⟨rfl, rfl, .data s.diagnostics bytes _ rfl⟩
    · simp only [if_neg hstd]
      by_cases hvendor : setup.bmRequestType &&& 0x60 = 0x40
      · simp only [if_pos hvendor, Ep0.vendorIn]
        generalize msOs20DescriptorSet = descriptors
        split
        · rename_i hno
          refine Or.inr ⟨decide_eq_false fun hyes => ?_, rfl⟩
          obtain ⟨h1, h2, h3, h4⟩ := hyes
          simp [h1, h2, h3, h4] at hno
        · rename_i hyes
          refine Or.inl ⟨decide_eq_true ?_, rfl, .data _ _ _ rfl⟩
          simpa only [not_or, not_not] using hyes
      · simp only [if_neg hvendor]
        exact Or.inr ⟨trivial, trivial⟩
  · simp only [if_neg hdir]
    by_cases hstd : setup.bmRequestType &&& 0x60 = 0x00
    · have hstd' : ¬ setup.bmRequestType &&& 0x60 ≠ 0 := not_not.2 hstd
      simp only [if_pos hstd, Ep0.standardOut, if_neg hstd']
      by_cases haddr : setup.isSetAddress = true
      · simp only [haddr, if_true, Bool.true_or]
        exact Or.inl ⟨trivial, trivial, .address haddr rfl⟩
      by_cases hconf : setup.isSetConfiguration = true
      · simp only [haddr, hconf, if_true, Bool.false_eq_true, if_false, Bool.true_or, Bool.or_true]
        exact Or.inl ⟨trivial, trivial, .configuration hconf rfl⟩
      by_cases hintf : setup.isSetInterface s.configuration = true
      · simp only [haddr, hconf, hintf, if_true, Bool.false_eq_true, if_false, Bool.or_true]
        exact Or.inl ⟨trivial, trivial, .interface rfl⟩
      · simp only [haddr, hconf, hintf, Bool.false_eq_true, if_false, Bool.or_false]
        exact Or.inr ⟨trivial, trivial⟩
    · simp only [if_neg hstd]
      exact Or.inr ⟨trivial, trivial⟩

/-! ## What a handler leaves -/

/-- The flags, the record and what a transfer applies are left alone. -/
structure Frame (s r : Ep0) : Prop where
  daddr : r.daddr = s.daddr
  configuration : r.configuration = s.configuration
  resetPending : r.resetPending = s.resetPending
  inComplete : r.inComplete = s.inComplete
  received : r.received = s.received
  setups : r.setups = s.setups

/-- A transfer's stage belongs to the last SETUP. -/
structure Armed (s : Ep0) : Prop where
  valid : s.statTx = .valid → s.txPacket.transfer = s.setups.length
  status : s.state = .statusIn → s.txPacket = ⟨s.setups.length, []⟩
  address : s.pendingAddressValid = true → s.state = .statusIn ∧
    ∃ setup, s.setups.getLast? = some setup ∧ setup.isSetAddress = true ∧
      s.pendingAddress = setup.wValue &&& daddrAddMask
  configuration : s.pendingConfigurationValid = true → s.state = .statusIn ∧
    ∃ setup, s.setups.getLast? = some setup ∧ setup.isSetConfiguration = true ∧
      s.pendingConfiguration = setup.wValue

theorem Frame.refl (s : Ep0) : Frame s s := ⟨rfl, rfl, rfl, rfl, rfl, rfl⟩

theorem Frame.trans {t : Ep0} (h : Frame s r) (h' : Frame r t) : Frame s t :=
  ⟨h'.daddr.trans h.daddr, h'.configuration.trans h.configuration,
    h'.resetPending.trans h.resetPending, h'.inComplete.trans h.inComplete,
    h'.received.trans h.received, h'.setups.trans h.setups⟩

theorem armed_stall (s : Ep0) : Armed s.stall := ⟨nofun, nofun, nofun, nofun⟩

theorem frame_startIn (s : Ep0) (bytes : List UInt8) (n : ℕ) : Frame s (s.startIn bytes n) := by
  unfold Ep0.startIn
  dsimp only
  split <;> split <;> exact ⟨rfl, rfl, rfl, rfl, rfl, rfl⟩

theorem stage_startIn (s : Ep0) (bytes : List UInt8) (n : ℕ) :
    (s.startIn bytes n).state = .dataIn ∧
      (s.startIn bytes n).txPacket.transfer = (s.startIn bytes n).setups.length ∧
      (s.startIn bytes n).pendingAddressValid = s.pendingAddressValid ∧
      (s.startIn bytes n).pendingConfigurationValid = s.pendingConfigurationValid := by
  unfold Ep0.startIn
  dsimp only
  split <;> split <;> exact ⟨rfl, rfl, rfl, rfl⟩

/-- The state in which a SETUP is dispatched. -/
def Ep0.setupTaken (s : Ep0) (setup : SetupPacket) : Ep0 :=
  let s :=
    { s with
        setups := s.setups ++ [setup]
        diagnostics :=
          { s.diagnostics with
              setupCount := s.diagnostics.setupCount + 1
              lastBmRequestType := setup.bmRequestType
              lastBRequest := setup.bRequest } }
  { s.resetTransferState with statTx := .nak }.armRx

theorem handleSetup_eq (s : Ep0) (raw : List UInt8) :
    s.handleSetup raw =
      if ((s.setupTaken (SetupPacket.ofBytes raw)).dispatch (SetupPacket.ofBytes raw)).2 = false then
        ((s.setupTaken (SetupPacket.ofBytes raw)).dispatch (SetupPacket.ofBytes raw)).1.stall
      else ((s.setupTaken (SetupPacket.ofBytes raw)).dispatch (SetupPacket.ofBytes raw)).1 := rfl

/-- **A SETUP arms the stage of its own request**, or stalls. The address and
the configuration stay as they are until a stage of it completes. -/
theorem handleSetup_spec (s : Ep0) (raw : List UInt8) :
    Armed (s.handleSetup raw) ∧
      (s.handleSetup raw).setups = s.setups ++ [SetupPacket.ofBytes raw] ∧
      (s.handleSetup raw).daddr = s.daddr ∧ (s.handleSetup raw).configuration = s.configuration ∧
      (s.handleSetup raw).resetPending = s.resetPending ∧
      (s.handleSetup raw).inComplete = s.inComplete ∧
      (s.handleSetup raw).received = s.received ∧
      (accepted s.configuration (SetupPacket.ofBytes raw) = true →
        (s.handleSetup raw).state = .dataIn ∨ (s.handleSetup raw).state = .statusIn) ∧
      (accepted s.configuration (SetupPacket.ofBytes raw) = false →
        (s.handleSetup raw).state = .idle) := by
  generalize hsetup : SetupPacket.ofBytes raw = setup
  have hrun := handleSetup_eq s raw
  rw [hsetup] at hrun
  rcases dispatch_cases (s.setupTaken setup) setup with ⟨hyes, hdone, hans⟩ | ⟨hno, hdisp⟩
  · rw [hdone, if_neg (by simp)] at hrun
    have hacc : accepted s.configuration setup = true := hyes
    rw [hrun, hacc]
    cases hans with
    | data d bytes n eq =>
      rw [eq]
      obtain ⟨hstate, htx, haddr, hconf⟩ :=
        stage_startIn { s.setupTaken setup with diagnostics := d } bytes n
      obtain ⟨h1, h2, h3, h4, h5, h6⟩ :=
        frame_startIn { s.setupTaken setup with diagnostics := d } bytes n
      refine ⟨⟨fun _ => htx, fun h => ?_, fun h => ?_, fun h => ?_⟩, h6, h1, h2, h3, h4, h5,
        fun _ => Or.inl hstate, nofun⟩
      · rw [hstate] at h
        cases h
      · rw [haddr] at h
        cases h
      · rw [hconf] at h
        cases h
    | address set eq =>
      rw [eq]
      refine ⟨⟨fun _ => rfl, fun _ => rfl, fun _ => ⟨rfl, setup, List.getLast?_concat, set, rfl⟩,
        nofun⟩, rfl, rfl, rfl, rfl, rfl, rfl, fun _ => Or.inr rfl, nofun⟩
    | configuration set eq =>
      rw [eq]
      refine ⟨⟨fun _ => rfl, fun _ => rfl, nofun,
        fun _ => ⟨rfl, setup, List.getLast?_concat, set, rfl⟩⟩, rfl, rfl, rfl, rfl, rfl, rfl,
        fun _ => Or.inr rfl, nofun⟩
    | interface eq =>
      rw [eq]
      exact ⟨⟨fun _ => rfl, fun _ => rfl, nofun, nofun⟩, rfl, rfl, rfl,
        rfl, rfl, rfl, fun _ => Or.inr rfl, nofun⟩
  · rw [hdisp, if_pos rfl] at hrun
    have hacc : accepted s.configuration setup = false := hno
    rw [hrun, hacc]
    exact ⟨armed_stall _, rfl, rfl, rfl, rfl, rfl, rfl, nofun, fun _ => rfl⟩

/-! ## The invariant -/

/-- **What holds while no SETUP is served beside a completion.** A completion
is that of the packet last armed, for the last SETUP. -/
structure Inv (s : Ep0) : Prop where
  armed : Armed s
  flag : ∀ p, s.inComplete = some p →
    p = s.txPacket ∧ p.transfer = s.setups.length ∧ s.statTx ≠ .valid

/-- Nothing latched. -/
theorem Inv.of_none (harmed : Armed s) (hnone : s.inComplete = none) : Inv s where
  armed := harmed
  flag p hp := by rw [hnone] at hp; cases hp

/-- The state in which a received packet is looked at. -/
def Ep0.rxTaken (s : Ep0) : Ep0 :=
  { s with
      received := none
      diagnostics := { s.diagnostics with transferCount := s.diagnostics.transferCount + 1 } }

/-- The receive half: no packet, a SETUP of eight bytes, or one behind which
no stage is left. -/
inductive ServedRx (s r : Ep0) : Prop
  | none (no : s.received = .none) (eq : r = s)
  | setup (data : List UInt8) (packet : s.received = some ⟨true, data⟩)
      (eight : data.length = 8) (eq : r = s.rxTaken.handleSetup data)
  | ended (packet : ∀ data, s.received = some ⟨true, data⟩ → data.length ≠ 8)
      (idle : r.state = .idle) (armed : Armed r) (daddr : r.daddr = s.daddr)
      (configuration : r.configuration = s.configuration)
      (inComplete : r.inComplete = s.inComplete)

theorem serveRx_cases (h : Armed s) : ServedRx s s.serveRx := by
  unfold Ep0.serveRx
  cases hrx : s.received with
  | none => exact .none hrx rfl
  | some packet =>
    obtain ⟨setup, data⟩ := packet
    dsimp only
    cases setup with
    | true =>
      by_cases height : data.length = 8
      · refine .setup data hrx height ?_
        simp only [Ep0.handleRx, if_true, if_pos height]
        rfl
      · have hrun : s.handleRx ⟨true, data⟩ = s.rxTaken.stall := by
          simp only [Ep0.handleRx, if_true, if_neg height]
          rfl
        rw [hrun]
        refine .ended (fun d hd => ?_) rfl (armed_stall _) rfl rfl rfl
        rw [hrx] at hd
        cases hd
        exact height
    | false =>
      have hother : ∀ d, s.received = some ⟨true, d⟩ → d.length ≠ 8 := by
        intro d hd
        rw [hrx] at hd
        cases hd
      by_cases hstatus : s.state = .statusOut ∧ data.length = 0
      · have hrun : s.handleRx ⟨false, data⟩ =
            { s.rxTaken with state := .idle, statTx := .nak }.armRx := by
          simp only [Ep0.handleRx, Bool.false_eq_true, if_false, if_pos hstatus]
          rfl
        rw [hrun]
        refine .ended hother rfl ⟨nofun, nofun, fun ha => ?_, fun hc => ?_⟩ rfl rfl rfl
        · have hstate := (h.address ha).1
          rw [hstatus.1] at hstate
          cases hstate
        · have hstate := (h.configuration hc).1
          rw [hstatus.1] at hstate
          cases hstate
      · have hrun : s.handleRx ⟨false, data⟩ = s.rxTaken.stall := by
          simp only [Ep0.handleRx, Bool.false_eq_true, if_false, if_neg hstatus]
          rfl
        rw [hrun]
        exact .ended hother rfl (armed_stall _) rfl rfl rfl

/-! ## The transmit half -/

/-- The state in which a completion is looked at. -/
def Ep0.txTaken (s : Ep0) : Ep0 :=
  { s with
      inComplete := none
      diagnostics := { s.diagnostics with transferCount := s.diagnostics.transferCount + 1 } }

theorem handleTx_eq (s : Ep0) :
    s.handleTx =
      match s.state with
      | .dataIn =>
        if s.inData.length ≠ 0 then s.txTaken.sendNextInPacket
        else if s.needZlp = true then { s.txTaken with needZlp := false }.sendPacket []
        else { s.txTaken with state := .statusOut, statTx := .nak }.armRx
      | .statusIn =>
        { s.txTaken.applyPendingStatusAction with state := .idle, statTx := .nak }.armRx
      | _ => { s.txTaken with statTx := .nak } := rfl

theorem handleTx_dataIn (h : s.state = .dataIn) :
    s.handleTx =
      if s.inData.length ≠ 0 then s.txTaken.sendNextInPacket
      else if s.needZlp = true then { s.txTaken with needZlp := false }.sendPacket []
      else { s.txTaken with state := .statusOut, statTx := .nak }.armRx := by
  rw [handleTx_eq, h]

theorem handleTx_statusIn (h : s.state = .statusIn) :
    s.handleTx = { s.txTaken.applyPendingStatusAction with state := .idle, statTx := .nak }.armRx := by
  rw [handleTx_eq, h]

theorem handleTx_other (h : s.state ≠ .dataIn) (h' : s.state ≠ .statusIn) :
    s.handleTx = { s.txTaken with statTx := .nak } := by
  rw [handleTx_eq]
  cases hs : s.state with
  | dataIn => exact absurd hs h
  | statusIn => exact absurd hs h'
  | idle => rfl
  | statusOut => rfl

/-- The transmit half moves on any stage it is run on. -/
theorem stage_handleTx_ne (h : s.state = .dataIn ∨ s.state = .statusIn) :
    s.handleTx.stage ≠ s.stage := by
  intro heq
  rcases h with h | h
  · rw [handleTx_dataIn h] at heq
    split at heq
    · rename_i hsome
      have hdata : s.inData.drop (if ep0MaxPacket < s.inData.length then ep0MaxPacket
          else s.inData.length) = s.inData := congrArg (fun t => t.2.1) heq
      have hlen := congrArg List.length hdata
      have hmax : ep0MaxPacket = 64 := rfl
      rw [List.length_drop] at hlen
      split at hlen <;> omega
    · split at heq
      · rename_i hzlp
        have hneed : false = s.needZlp := congrArg (fun t => t.2.2.1) heq
        rw [hzlp] at hneed
        cases hneed
      · have hstate : Ep0State.statusOut = s.state := congrArg (fun t => t.1) heq
        rw [h] at hstate
        cases hstate
  · rw [handleTx_statusIn h] at heq
    have hstate : Ep0State.idle = s.state := congrArg (fun t => t.1) heq
    rw [h] at hstate
    cases hstate

/-- What the pending actions leave. -/
theorem applyPending_spec (s : Ep0) :
    s.applyPendingStatusAction.daddr =
        (if s.pendingAddressValid = true then daddrEf ||| s.pendingAddress else s.daddr) ∧
      s.applyPendingStatusAction.configuration =
        (if s.pendingConfigurationValid = true then
          if s.pendingConfiguration = configurationOne then configurationOne else configurationNone
        else if s.pendingAddressValid = true ∧ s.pendingAddress = 0 then configurationNone
        else s.configuration) ∧
      s.applyPendingStatusAction.pendingAddressValid = false ∧
      s.applyPendingStatusAction.pendingConfigurationValid = false ∧
      s.applyPendingStatusAction.setups = s.setups ∧
      s.applyPendingStatusAction.inComplete = s.inComplete := by
  unfold Ep0.applyPendingStatusAction
  by_cases ha : s.pendingAddressValid = true <;> by_cases hc : s.pendingConfigurationValid = true <;>
    by_cases h0 : s.pendingAddress = 0 <;> by_cases h1 : s.pendingConfiguration = configurationOne <;>
    simp [ha, hc, h0, h1, Ep0.managementEndpointsDisable, Ep0.managementEndpointsEnable]

/-- A change that is none is earned. -/
theorem Earned.of_eq {s' : Ep0} (hd : s'.daddr = s.daddr)
    (hc : s'.configuration = s.configuration) : Earned s s' :=
  ⟨fun h => absurd hd h, fun h => absurd hc h⟩

/-- The last SETUP, by its number. -/
theorem getElem_last {l : List SetupPacket} (h : l.getLast? = some setup) :
    0 < l.length ∧ l[l.length - 1]? = some setup := by
  rw [List.getLast?_eq_getElem?] at h
  refine ⟨?_, h⟩
  obtain ⟨hlt, -⟩ := List.getElem?_eq_some_iff.1 h
  omega

/-- **The completion of the packet last armed serves the transfer it was armed
for.** -/
theorem Inv.handleTx (h : Inv s) {p : TxPacket} (hp : s.inComplete = some p) :
    Inv s.handleTx ∧ Earned s s.handleTx := by
  obtain ⟨htx, hnum, -⟩ := h.flag p hp
  by_cases hdata : s.state = .dataIn
  · have hnoaddr : ¬ s.pendingAddressValid = true := fun ha => by
      have hstate := (h.armed.address ha).1
      rw [hdata] at hstate
      cases hstate
    have hnoconf : ¬ s.pendingConfigurationValid = true := fun hc => by
      have hstate := (h.armed.configuration hc).1
      rw [hdata] at hstate
      cases hstate
    have hnostatus : s.state = .statusIn → False := fun hs => by
      rw [hdata] at hs
      cases hs
    rw [handleTx_dataIn hdata]
    split
    · exact ⟨.of_none ⟨fun _ => rfl, fun hs => (hnostatus hs).elim, fun ha => absurd ha hnoaddr,
        fun hc => absurd hc hnoconf⟩ rfl, .of_eq rfl rfl⟩
    · split
      · exact ⟨.of_none ⟨fun _ => rfl, fun hs => (hnostatus hs).elim, fun ha => absurd ha hnoaddr,
          fun hc => absurd hc hnoconf⟩ rfl, .of_eq rfl rfl⟩
      · exact ⟨.of_none ⟨nofun, nofun, fun ha => absurd ha hnoaddr, fun hc => absurd hc hnoconf⟩ rfl,
          .of_eq rfl rfl⟩
  by_cases hstatus : s.state = .statusIn
  · obtain ⟨hdaddr, hconf, hnoaddr, hnoconf, hsetups, hnone⟩ := applyPending_spec s.txTaken
    rw [handleTx_statusIn hstatus]
    -- the status packet has gone: what the request asked for is applied
    have hempty : p.data = [] := by rw [htx, h.armed.status hstatus]
    refine ⟨.of_none ⟨nofun, nofun, fun ha => ?_, fun hc => ?_⟩ hnone, fun hchange => ?_,
      fun hchange => ?_⟩
    · exact absurd (hnoaddr.symm.trans ha) Bool.false_ne_true
    · exact absurd (hnoconf.symm.trans hc) Bool.false_ne_true
    · by_cases ha : s.pendingAddressValid = true
      · obtain ⟨-, setup, hlast, hset, hvalue⟩ := h.armed.address ha
        obtain ⟨hpos, hget⟩ := getElem_last hlast
        refine ⟨p, setup, hp, hempty, by rw [hnum]; exact hpos, ?_, hset, ?_⟩
        · rw [hnum]
          exact (congrArg (fun l => l[s.setups.length - 1]?) hsetups).trans hget
        · refine hdaddr.trans ((if_pos ha).trans ?_)
          rw [← hvalue]
          rfl
      · exact absurd (hdaddr.trans (if_neg ha)) hchange
    · by_cases hc : s.pendingConfigurationValid = true
      · obtain ⟨-, setup, hlast, hset, hvalue⟩ := h.armed.configuration hc
        obtain ⟨hpos, hget⟩ := getElem_last hlast
        refine ⟨p, setup, hp, hempty, by rw [hnum]; exact hpos, ?_, Or.inl ⟨hset, ?_⟩⟩
        · rw [hnum]
          exact (congrArg (fun l => l[s.setups.length - 1]?) hsetups).trans hget
        · refine hconf.trans ((if_pos hc).trans ?_)
          have hpend : s.txTaken.pendingConfiguration = setup.wValue := hvalue
          have hvals : setup.wValue = configurationNone ∨ setup.wValue = configurationOne := by
            simp only [SetupPacket.isSetConfiguration, decide_eq_true_eq] at hset
            exact hset.2.2.1
          rw [hpend]
          rcases hvals with hv | hv <;> rw [hv] <;> rfl
      -- the address zero takes the configuration away
      · by_cases ha : s.pendingAddressValid = true ∧ s.pendingAddress = 0
        · obtain ⟨-, setup, hlast, hset, hvalue⟩ := h.armed.address ha.1
          obtain ⟨hpos, hget⟩ := getElem_last hlast
          refine ⟨p, setup, hp, hempty, by rw [hnum]; exact hpos, ?_,
            Or.inr ⟨hset, by rw [← hvalue]; exact ha.2, ?_⟩⟩
          · rw [hnum]
            exact (congrArg (fun l => l[s.setups.length - 1]?) hsetups).trans hget
          · exact hconf.trans ((if_neg hc).trans (if_pos ha))
        · exact absurd (hconf.trans ((if_neg hc).trans (if_neg ha))) hchange
  · rw [handleTx_other hdata hstatus]
    exact ⟨.of_none ⟨nofun, fun hs => absurd hs hstatus,
      fun ha => absurd (h.armed.address ha).1 hstatus,
      fun hc => absurd (h.armed.configuration hc).1 hstatus⟩ rfl, .of_eq rfl rfl⟩

/-! ## Runs -/

theorem handleCtr_of_none (h : s.serveRx.inComplete = none) : s.handleCtr = s.serveRx := by
  rw [Ep0.handleCtr]
  simp only [h, Option.isSome_none, Bool.false_eq_true, if_false]

theorem handleCtr_of_some {p : TxPacket} (h : s.serveRx.inComplete = some p) :
    s.handleCtr = s.serveRx.handleTx := by
  rw [Ep0.handleCtr]
  simp only [h, Option.isSome_some, if_true]

/-- Behind a SETUP that is refused, and any other packet, a completion finds
no stage. -/
theorem handleCtr_idle (hidle : s.serveRx.state = .idle) (harmed : Armed s.serveRx) :
    Inv s.handleCtr ∧ s.handleCtr.daddr = s.serveRx.daddr ∧
      s.handleCtr.configuration = s.serveRx.configuration := by
  have hdata : s.serveRx.state ≠ .dataIn := by rw [hidle]; nofun
  have hstatus : s.serveRx.state ≠ .statusIn := by rw [hidle]; nofun
  cases hp : s.serveRx.inComplete with
  | none =>
    rw [handleCtr_of_none hp]
    exact ⟨.of_none harmed hp, rfl, rfl⟩
  | some p =>
    rw [handleCtr_of_some hp, handleTx_other hdata hstatus]
    exact ⟨.of_none ⟨nofun, fun hs => absurd hs hstatus,
      fun ha => absurd (harmed.address ha).1 hstatus,
      fun hc => absurd (harmed.configuration hc).1 hstatus⟩ rfl, rfl, rfl⟩

/-- **The handler, on flags of which none is stale**, or with a SETUP that is
not served. -/
theorem Inv.handleCtr (h : Inv s) (hreset : s.resetPending = false) (hno : ¬ s.Coalesced) :
    Inv s.handleCtr ∧ Earned s s.handleCtr ∧ s.Undisturbed := by
  cases serveRx_cases h.armed with
  | none no eq =>
    cases hp : s.inComplete with
    | none =>
      have hnone : s.serveRx.inComplete = none := by rw [eq]; exact hp
      rw [handleCtr_of_none hnone, eq]
      refine ⟨h, .of_eq rfl rfl, fun p hp' => ?_⟩
      rw [hnone] at hp'
      cases hp'
    | some p =>
      have hsome : s.serveRx.inComplete = some p := by rw [eq]; exact hp
      rw [handleCtr_of_some hsome, eq]
      obtain ⟨hinv, hearned⟩ := h.handleTx hp
      refine ⟨hinv, hearned, fun q hq hne => absurd ?_ hne⟩
      rw [eq] at hq ⊢
      exact (h.flag q hq).2.1
  | setup data packet eight eq =>
    obtain ⟨harmed, -, hd, hc, -, hcomplete, -, -, hrefused⟩ := handleSetup_spec s.rxTaken data
    rw [← eq] at harmed hd hc hcomplete hrefused
    -- served, with nothing latched beside it; or refused, and no stage is left
    by_cases hacc : accepted s.configuration (SetupPacket.ofBytes data) = true
    · have hnone : s.inComplete = none := by
        by_contra hsome
        exact hno ⟨hreset, hsome, data, packet, eight, hacc⟩
      have hnone' : s.serveRx.inComplete = none := hcomplete.trans hnone
      rw [handleCtr_of_none hnone']
      refine ⟨.of_none harmed hnone', .of_eq hd hc, fun p hp => ?_⟩
      rw [hnone'] at hp
      cases hp
    · have hidle := hrefused (Bool.eq_false_iff.2 hacc)
      obtain ⟨hinv, hd', hc'⟩ := handleCtr_idle hidle harmed
      exact ⟨hinv, .of_eq (hd'.trans hd) (hc'.trans hc), fun _ _ _ hne => absurd hidle hne⟩
  | ended packet idle armed daddr configuration inComplete =>
    obtain ⟨hinv, hd', hc'⟩ := handleCtr_idle idle armed
    exact ⟨hinv, .of_eq (hd'.trans daddr) (hc'.trans configuration),
      fun _ _ _ hne => absurd idle hne⟩

/-- **A SETUP served beside a completion is served a stale one.** The completion
is taken for one of the stage that the SETUP has just armed. -/
theorem Inv.not_undisturbed (h : Inv s) (hco : s.Coalesced) : ¬ s.Undisturbed := by
  obtain ⟨-, hsome, data, hpacket, height, hacc⟩ := hco
  obtain ⟨p, hp⟩ := Option.ne_none_iff_exists'.1 hsome
  have hrun : s.serveRx = s.rxTaken.handleSetup data := by
    cases serveRx_cases h.armed with
    | none no => rw [hpacket] at no; cases no
    | setup data' packet _ eq =>
      rw [hpacket] at packet
      cases packet
      exact eq
    | ended packet => exact absurd height (packet data hpacket)
  obtain ⟨-, hsetups, -, -, -, hcomplete, -, hstage, -⟩ := handleSetup_spec s.rxTaken data
  rw [← hrun] at hsetups hcomplete hstage
  have hp' : s.serveRx.inComplete = some p := hcomplete.trans hp
  have hstage := hstage hacc
  intro hundisturbed
  -- the completion is of the transfer before the SETUP, whose stage it now moves on
  have hearlier : p.transfer ≠ s.serveRx.setups.length := by
    have hnum := (h.flag p hp).2.1
    rw [hsetups, List.length_append, List.length_singleton, hnum]
    exact Nat.ne_of_lt (Nat.lt_succ_self _)
  have hactive : s.serveRx.state ≠ .idle := by
    rcases hstage with hs | hs <;> rw [hs] <;> nofun
  have heq := hundisturbed p hp' hearlier hactive
  rw [handleCtr_of_some hp'] at heq
  exact stage_handleTx_ne hstage heq

theorem resetServed_of_false (h : s.resetPending = false) : s.resetServed = s := by
  rw [Ep0.resetServed, if_neg (by rw [h]; nofun)]

/-- A reset leaves nothing latched and no stage. -/
theorem resetServed_of_true (h : s.resetPending = true) :
    s.resetServed.serveRx = s.resetServed ∧ s.resetServed.inComplete = none ∧ Inv s.resetServed := by
  rw [Ep0.resetServed, if_pos h]
  exact ⟨rfl, rfl, .of_none ⟨nofun, nofun, nofun, nofun⟩ rfl⟩

/-- What the host does keeps the invariant and changes nothing that is
applied. -/
theorem Inv.host (h : Inv s) (e : Ep0Event) (hne : e ≠ .interrupt) :
    Inv (s.step e) ∧ (e ≠ .busReset → Earned s (s.step e)) := by
  obtain ⟨harmed, hflag⟩ := h
  cases e with
  | interrupt => exact absurd rfl hne
  | busReset =>
    refine ⟨⟨⟨nofun, harmed.status, harmed.address, harmed.configuration⟩, fun p hp => ?_⟩,
      fun hno => absurd rfl hno⟩
    obtain ⟨h1, h2, -⟩ := hflag p hp
    exact ⟨h1, h2, nofun⟩
  | setup data =>
    simp only [Ep0.step]
    split
    · exact ⟨⟨harmed, hflag⟩, fun _ => .of_eq rfl rfl⟩
    · refine ⟨⟨⟨nofun, harmed.status, harmed.address, harmed.configuration⟩, fun p hp => ?_⟩,
        fun _ => .of_eq rfl rfl⟩
      obtain ⟨h1, h2, -⟩ := hflag p hp
      exact ⟨h1, h2, nofun⟩
  | out data =>
    simp only [Ep0.step]
    split
    · exact ⟨⟨⟨harmed.valid, harmed.status, harmed.address, harmed.configuration⟩, hflag⟩,
        fun _ => .of_eq rfl rfl⟩
    · exact ⟨⟨harmed, hflag⟩, fun _ => .of_eq rfl rfl⟩
  | inToken =>
    simp only [Ep0.step]
    split
    · rename_i hvalid
      refine ⟨⟨⟨nofun, harmed.status, harmed.address, harmed.configuration⟩, fun p hp => ?_⟩,
        fun _ => .of_eq rfl rfl⟩
      have hp : s.txPacket = p := Option.some.inj hp
      subst hp
      exact ⟨rfl, harmed.valid hvalid, nofun⟩
    · exact ⟨⟨harmed, hflag⟩, fun _ => .of_eq rfl rfl⟩

/-- **One event is sound unless it serves a SETUP beside a completion**, and
keeps the invariant where it is. -/
theorem Inv.step (h : Inv s) (e : Ep0Event) :
    (s.Sound e ↔ ¬ (e = .interrupt ∧ s.Coalesced)) ∧
      (¬ (e = .interrupt ∧ s.Coalesced) → Inv (s.step e)) := by
  by_cases hint : e = .interrupt
  · subst hint
    cases hreset : s.resetPending with
    | true =>
      obtain ⟨hserve, hnone, hinv⟩ := resetServed_of_true hreset
      have hno : ¬ s.Coalesced := fun hco => by
        have hfalse := hco.1
        rw [hreset] at hfalse
        cases hfalse
      have hserved : s.step .interrupt = s.resetServed := by
        have hctr := handleCtr_of_none (s := s.resetServed) (by rw [hserve]; exact hnone)
        exact (interrupt_eq s).trans (hctr.trans hserve)
      refine ⟨iff_of_true ⟨fun _ hfalse => ?_, fun _ p hp => ?_⟩ fun hco => hno hco.2, fun _ => ?_⟩
      · rw [hreset] at hfalse
        cases hfalse
      · rw [hserve, hnone] at hp
        cases hp
      · rw [hserved]
        exact hinv
    | false =>
      have hserved := resetServed_of_false hreset
      have hstep : s.step .interrupt = s.handleCtr := by
        rw [← hserved]
        exact (interrupt_eq s.resetServed).trans (by rw [hserved, hserved])
      by_cases hco : s.Coalesced
      · refine ⟨iff_of_false (fun hsound => ?_) fun hno => hno ⟨rfl, hco⟩,
          fun hno => absurd ⟨rfl, hco⟩ hno⟩
        have hundisturbed := hsound.2 rfl
        rw [hserved] at hundisturbed
        exact h.not_undisturbed hco hundisturbed
      · obtain ⟨hinv, hearned, hundisturbed⟩ := h.handleCtr hreset hco
        refine ⟨iff_of_true ⟨fun _ _ => ?_, fun _ => ?_⟩ fun hno => hco hno.2, fun _ => ?_⟩
        · rw [hstep]
          exact hearned
        · rw [hserved]
          exact hundisturbed
        · rw [hstep]
          exact hinv
  · obtain ⟨hinv, hearned⟩ := h.host e hint
    exact ⟨iff_of_true ⟨fun hne _ => hearned hne, fun heq => absurd heq hint⟩ fun hno => hint hno.1,
      fun _ => hinv⟩

theorem ep0Run_concat (events : List Ep0Event) (e : Ep0Event) :
    ep0Run (events ++ [e]) = (ep0Run events).step e := by
  simp only [ep0Run, List.foldl_append, List.foldl_cons, List.foldl_nil]

/-- **When control transfers tolerate a late completion.** In a run of host
transactions, resets and interrupts, in any order, every event is sound (an
address or a configuration is applied on the completion of the status packet
armed for its own request alone, and a completion of an earlier transfer
leaves the stage of a later one as it is) if and only if the interrupt is
never served with a completion latched beside a SETUP that the device
serves. -/
theorem sound_iff_never_coalesced (events : List Ep0Event) :
    (∀ pre e, pre ++ [e] <+: events → (ep0Run pre).Sound e) ↔
      ∀ pre, pre ++ [.interrupt] <+: events → ¬ (ep0Run pre).Coalesced := by
  have hall : ((∀ pre e, pre ++ [e] <+: events → (ep0Run pre).Sound e) ↔
      ∀ pre, pre ++ [.interrupt] <+: events → ¬ (ep0Run pre).Coalesced) ∧
      ((∀ pre, pre ++ [.interrupt] <+: events → ¬ (ep0Run pre).Coalesced) →
        Inv (ep0Run events)) := by
    induction events using List.reverseRecOn with
    | nil =>
      have hnil : ∀ (pre : List Ep0Event) (e : Ep0Event), ¬ pre ++ [e] <+: [] := by
        intro pre e hpre
        simpa using List.prefix_nil.1 hpre
      exact ⟨iff_of_true (fun pre e hpre => absurd hpre (hnil pre e))
        fun pre hpre => absurd hpre (hnil pre _), fun _ => ⟨⟨nofun, nofun, nofun, nofun⟩, nofun⟩⟩
    | append_singleton events e ih =>
      obtain ⟨hiff, hinv⟩ := ih
      have hlast : ∀ (pre : List Ep0Event) (e' : Ep0Event), pre ++ [e'] <+: events ++ [e] ↔
          pre = events ∧ e' = e ∨ pre ++ [e'] <+: events := by
        intro pre e'
        rw [List.prefix_concat_iff, List.append_singleton_inj]
      -- the earlier events first; the invariant then tells of the last one
      have hsound : (∀ pre e', pre ++ [e'] <+: events ++ [e] → (ep0Run pre).Sound e') ↔
          (∀ pre e', pre ++ [e'] <+: events → (ep0Run pre).Sound e') ∧
            (ep0Run events).Sound e := by
        constructor
        · intro h
          exact ⟨fun pre e' hpre => h pre e' ((hlast pre e').2 (Or.inr hpre)),
            h events e ((hlast events e).2 (Or.inl ⟨rfl, rfl⟩))⟩
        · rintro ⟨hearlier, hthis⟩ pre e' hpre
          rcases (hlast pre e').1 hpre with ⟨rfl, rfl⟩ | hpre
          · exact hthis
          · exact hearlier pre e' hpre
      have hclear : (∀ pre, pre ++ [.interrupt] <+: events ++ [e] → ¬ (ep0Run pre).Coalesced) ↔
          (∀ pre, pre ++ [.interrupt] <+: events → ¬ (ep0Run pre).Coalesced) ∧
            ¬ (e = .interrupt ∧ (ep0Run events).Coalesced) := by
        constructor
        · intro h
          refine ⟨fun pre hpre => h pre ((hlast pre _).2 (Or.inr hpre)), ?_⟩
          rintro ⟨rfl, hco⟩
          exact h events ((hlast events _).2 (Or.inl ⟨rfl, rfl⟩)) hco
        · rintro ⟨hearlier, hthis⟩ pre hpre
          rcases (hlast pre _).1 hpre with ⟨rfl, rfl⟩ | hpre
          · exact fun hco => hthis ⟨rfl, hco⟩
          · exact hearlier pre hpre
      rw [hsound, hclear, hiff, ep0Run_concat]
      exact ⟨and_congr_right fun hearlier => ((hinv hearlier).step e).1,
        fun h => ((hinv h.1).step e).2 h.2⟩
  exact hall.1

/-- A device is given its address. The status packet of a `SET_CONFIGURATION`
has gone, and the SETUP of a `GET_DESCRIPTOR` is latched behind it. -/
def lateCompletion : List Ep0Event :=
  [.busReset, .interrupt, .setup [0, 5, 5, 0, 0, 0, 0, 0], .interrupt, .inToken, .interrupt,
    .setup [0, 9, 1, 0, 0, 0, 0, 0], .interrupt, .inToken, .setup [0x80, 6, 0, 1, 0, 0, 18, 0]]

/-- The completion of that status packet is taken for one of the descriptor,
which was just armed: it is withdrawn, and the configuration is never applied. -/
theorem late_completion_unsound :
    ¬ ∀ events pre e, pre ++ [e] <+: events → (ep0Run pre).Sound e := by
  intro hall
  have h := hall (lateCompletion ++ [.interrupt]) lateCompletion .interrupt List.prefix_rfl
  have hcompleted : (ep0Run lateCompletion).resetServed.serveRx.inComplete = some ⟨2, []⟩ := by
    decide
  have hstage := h.2 rfl _ hcompleted (by decide) (by decide)
  -- the transfer is already in its status stage
  exact absurd (congrArg Prod.fst hstage) (by decide)

end Usb

end DeusOs
