import DeusOs.Bootloader.Serve

/-!
# The bootloader — what AUTHORIZE leaves bootable

AUTHORIZE erases the slot that does not hold the floor, not the one that
does not boot. Where what boots is the newest version, the two differ in
one case: both slots hold the same version and only the first boots
(`Endangered`). `keepsBooting_iff` says that this is the only case in
which an AUTHORIZE makes a bootable device unbootable before any
application byte is touched.
-/

namespace DeusOs

namespace Bootloader

open Nor (Mem Op Machine Outcome Entry applyAll replay)

variable {board : Board} {s : Sys} {e : Event} {f : Mem} {rx : List UInt8}
  {tape : ℕ → Option Outcome}

/-! ## The spared slot -/

variable (board) in
/-- Both slots hold one version, and only the first, which AUTHORIZE would
erase, boots. -/
def Endangered (f : Mem) : Prop :=
  slotVersion board f metaA ≠ 0 ∧ slotVersion board f metaA = slotVersion board f metaB ∧
    appMatchesHeader f (slotHeader f metaA) = true ∧
    appMatchesHeader f (slotHeader f metaB) = false

theorem bootVersion_cases (board : Board) (f : Mem) (slot : ℕ) :
    (appMatchesHeader f (slotHeader f slot) = true ∧
        bootVersion board f slot = slotVersion board f slot) ∨
      (appMatchesHeader f (slotHeader f slot) = false ∧ bootVersion board f slot = 0) := by
  unfold bootVersion
  split
  · rename_i h
    exact Or.inl ⟨h, rfl⟩
  · rename_i h
    exact Or.inr ⟨by simpa using h, rfl⟩

/-- **The slot AUTHORIZE spares boots, unless the flash is endangered:** both
slots hold one version, and only the one that is erased matches the application.
-/
theorem spared_boots_iff (hn : NewestBoots board f) (hc : (scanFlash board f).committedVersion ≠ 0) :
    bootVersion board f (otherSlot (targetSlot board f)) ≠ 0 ↔ ¬ Endangered board f := by
  have hmax : (scanFlash board f).committedVersion = _ :=
    committedVersion_eq_max (isSlot_targetSlot board f) f
  have hfloor : floor board f = _ := floor_eq_spared f
  have hle : slotVersion board f (targetSlot board f) ≤ floor board f :=
    slotVersion_le_floor (isSlot_targetSlot board f)
  have hboot := bootVersion_le board f (targetSlot board f)
  constructor
  · rintro hs ⟨-, heq, -, hB⟩
    have htarget : targetSlot board f = metaA := by
      rw [targetSlot_eq, if_neg (by omega)]
    rw [htarget, show otherSlot metaA = metaB from rfl] at hs
    rcases bootVersion_cases board f metaB with ⟨hb, -⟩ | ⟨-, hb⟩
    · rw [hb] at hB
      cases hB
    · exact hs hb
  · intro hne hs
    rw [hs, Nat.max_zero] at hmax
    -- the target boots, so its version is the committed one, and the spared slot counts too
    have hany : ∀ slot, IsSlot slot → slotVersion board f slot ≠ 0 := fun slot hslot => by
      rcases (isSlot_targetSlot board f).eq_or hslot with h | h <;> rw [h] <;> omega
    have hcommitted : (scanFlash board f).committedVersion = floor board f :=
      hn (hany metaA (Or.inl rfl)) (hany metaB (Or.inr rfl))
    have heq : slotVersion board f (targetSlot board f) =
        slotVersion board f (otherSlot (targetSlot board f)) := by omega
    have htarget : targetSlot board f = metaA := by
      rw [targetSlot_eq] at heq ⊢
      split
      · rename_i hlt
        rw [if_pos hlt, show otherSlot metaB = metaA from rfl] at heq
        omega
      · rfl
    rw [htarget, show otherSlot metaA = metaB from rfl] at heq hs hfloor
    rw [htarget] at hmax hboot
    refine hne ⟨by omega, heq, ?_, ?_⟩
    · rcases bootVersion_cases board f metaA with ⟨hb, -⟩ | ⟨-, hb⟩
      · exact hb
      · omega
    · rcases bootVersion_cases board f metaB with ⟨-, hb⟩ | ⟨hb, -⟩
      · omega
      · exact hb

/-! ## Steps without AUTHORIZE -/

/-- No AUTHORIZE packet is among the events. -/
def NoAuthorize (evs : List Event) : Prop :=
  ∀ rx tape, Event.packet rx tape ∈ evs → packetOpcode rx ≠ opAuthorize

/-- **Without AUTHORIZE, an authenticated slot is not touched,** since a session
writes the slot that its AUTHORIZE erased. -/
theorem slot_step (h : s.Inv board) (he : NoAuthorize [e]) {slot : ℕ} (hslot : IsSlot slot)
    (hv : slotVersion board s.machine.flash slot ≠ 0) {x : ℕ} (hx : slot ≤ x ∧ x < slot + 1024) :
    (s.step board e).machine.flash x = s.machine.flash x := by
  obtain ⟨r, plan, hw, hran⟩ := step_work h e
  refine hran.flash_of_not_covers fun o ho hc => ?_
  have hb := hslot.bounds
  cases hw with
  | none => simp at ho
  | authorize _ hop => exact he _ _ List.mem_cons_self hop
  | data _ _ ha =>
    have := covers_chunkOps ha.fits ho hc
    have := ha.fits.app
    have := ha.fits.len_pos
    simp only [appBase, appEnd, appMaxBytes] at *
    omega
  | commit hp _ hcom =>
    have hopen := (h hp).live hcom.live
    have hcov := hopen.covers_endOps ho hc
    have hap := hslot.apart
    rcases hslot.eq_or hopen.isSlot with heq | heq
    · exact hv (heq ▸ hopen.slotVersion)
    · omega

theorem slot_run (h : s.Inv board) {evs : List Event} (hno : NoAuthorize evs) {slot : ℕ}
    (hslot : IsSlot slot) (hv : slotVersion board s.machine.flash slot ≠ 0) :
    ∀ x, slot ≤ x → x < slot + 1024 → (s.run board evs).machine.flash x = s.machine.flash x := by
  induction evs generalizing s with
  | nil => exact fun x _ _ => rfl
  | cons e evs ih =>
    have hstep : ∀ x, slot ≤ x → x < slot + 1024 →
        (s.step board e).machine.flash x = s.machine.flash x := fun x h1 h2 =>
      slot_step h (fun rx tape hm => hno rx tape (List.mem_cons.2 (Or.inl (List.mem_singleton.1 hm))))
        hslot hv ⟨h1, h2⟩
    have hv' : slotVersion board (s.step board e).machine.flash slot ≠ 0 := by
      rwa [slotVersion_congr fun i hi => hstep (slot + i) (by omega) (by omega)]
    intro x h1 h2
    have := ih (inv_step h e) (fun rx tape hm => hno rx tape (List.mem_cons_of_mem _ hm)) hv' x h1 h2
    exact this.trans (hstep x h1 h2)

/-! ## The AUTHORIZE itself -/

/-- The first operation takes effect. -/
def TakesEffect (tape : ℕ → Option Outcome) : Prop := ∃ o, tape 0 = some o ∧ o.done = true

/-- What the erase of AUTHORIZE does, by its fate. -/
theorem flash_of_stops_erase {m m' : Machine BootRam} {page : ℕ}
    (hs : Nor.Stops [.erase page 1024] m m') (hend : Nor.Faulty m m' ∨ Nor.Cut m') :
    (TakesEffect m.tape → m'.flash = (Op.erase page 1024).apply m.flash) ∧
      (¬ TakesEffect m.tape → m'.flash = m.flash) := by
  obtain ⟨es, hes, hops⟩ := hs.issued
  rcases es with - | ⟨en, es⟩
  · -- nothing was issued: power went first
    have hcut : m.tape 0 = none := by
      rcases hend with hf | hc
      · obtain ⟨e, he, -⟩ := hes.faulty_iff.1 hf
        simp at he
      · have := hes.tape
        simpa [Nor.Cut, this] using hc
    refine ⟨?_, fun _ => hes.flash⟩
    rintro ⟨o, ho, -⟩
    rw [hcut] at ho
    cases ho
  · have hlen := hops.length_le
    simp only [List.map_cons, List.length_cons, List.length_map, List.length_nil] at hlen
    obtain rfl : es = [] := List.length_eq_zero_iff.1 (by omega)
    have hop : en.op = .erase page 1024 := by
      simpa using hops.subset (List.mem_map_of_mem List.mem_cons_self)
    have hout := hes.outcome 0 (by simp)
    have hflash := hes.flash
    simp only [Nor.replay_cons, Nor.replay_nil, Entry.effect, hop, List.getElem_cons_zero] at hflash hout
    constructor
    · rintro ⟨o, ho, hd⟩
      rw [ho] at hout
      rw [hflash, if_pos (Option.some.inj hout ▸ hd)]
    · intro hne
      rw [hflash, if_neg fun hd => hne ⟨_, hout, hd⟩]

/-- A completed erase took effect, or had nothing to do. -/
theorem flash_of_does_erase {m m' : Machine BootRam} {page : ℕ}
    (hd : Nor.Does [.erase page 1024] m m') :
    m'.flash = (Op.erase page 1024).apply m.flash ∧ (¬ TakesEffect m.tape → m'.flash = m.flash) := by
  refine ⟨hd.flash, fun hne => ?_⟩
  obtain ⟨es, hes, hops⟩ := hd.issued
  rw [hes.flash]
  obtain ⟨en, rfl, hop⟩ := List.map_eq_singleton_iff.1 hops
  have hout := hes.outcome 0 (by simp)
  simp only [Nor.replay_cons, Nor.replay_nil, Entry.effect, List.getElem_cons_zero] at hout ⊢
  rw [if_neg fun hdone => hne ⟨_, hout, hdone⟩]

variable (board) in
/-- The packet is a request that passes every check of AUTHORIZE, and its
erase takes effect. -/
def Erases (s : Sys) (rx : List UInt8) (tape : ℕ → Option Outcome) : Prop :=
  s.phase = .update ∧ IsRequest opAuthorize rx ∧ Authorizes board s.machine (packetPayload rx) ∧
    TakesEffect tape

/-- What the handler does to the flash. -/
theorem AuthorizeStep.flash {m m' : Machine BootRam} {p : List UInt8} {st : Option Status}
    (ha : AuthorizeStep board m p st m') :
    (Authorizes board m p ∧ TakesEffect m.tape →
        m'.flash = (Op.erase (targetSlot board m.flash) 1024).apply m.flash) ∧
      (¬ (Authorizes board m p ∧ TakesEffect m.tape) → m'.flash = m.flash) := by
  cases ha with
  | refused hne => exact ⟨fun hc => absurd hc.1 hne, fun _ => rfl⟩
  | unauthenticated hne => exact ⟨fun hc => absurd hc.1 hne, fun _ => rfl⟩
  | rejected hne => exact ⟨fun hc => absurd hc.1 hne, fun _ => rfl⟩
  | authorized ha hd =>
    have hf := flash_of_does_erase hd
    exact ⟨fun _ => hf.1, fun hc => hf.2 fun ht => hc ⟨ha, ht⟩⟩
  | failed ha hs hfault =>
    have hf := flash_of_stops_erase hs (Or.inl hfault)
    exact ⟨fun hc => hf.1 hc.2, fun hc => hf.2 fun ht => hc ⟨ha, ht⟩⟩
  | cut ha hs hcut =>
    have hf := flash_of_stops_erase hs (Or.inr hcut)
    exact ⟨fun hc => hf.1 hc.2, fun hc => hf.2 fun ht => hc ⟨ha, ht⟩⟩

theorem processBulkPacket_of_cut {m m' : Machine BootRam} (ha : packetAccepted rx = true)
    (hd : dispatch board rx m = .error () m') : processBulkPacket board rx m = .error () m' := by
  simp only [processBulkPacket, if_neg (not_not_intro ha), bind, EStateM.bind, hd]

/-- A packet with this opcode that is no request changes no flash. -/
theorem flash_of_not_request (hop : packetOpcode rx = opAuthorize)
    (hne : ¬ IsRequest opAuthorize rx) :
    (s.step board (.packet rx tape)).machine.flash = s.machine.flash := by
  simp only [Sys.step]
  split
  · rfl
  by_cases hacc : packetAccepted rx = true
  · have hflags : rx.getD 4 0 ≠ 1 := fun hf => hne ⟨hacc, hf, hop⟩
    have hd : dispatch board rx { s.machine with tape } =
        .ok .badFlags { s.machine with tape } := by
      simp only [dispatch, hop]
      rw [if_neg (by decide), if_pos hflags]
      rfl
    rw [processBulkPacket_of_dispatch hacc hd]
    rfl
  · rw [processBulkPacket, if_pos hacc]
    rfl

/-- A request's flash is its handler's. -/
theorem flash_of_request (board : Board) (tape : ℕ → Option Outcome) (hp : s.phase = .update) (hr : IsRequest opAuthorize rx) :
    ∃ st m', AuthorizeStep board { s.machine with tape } (packetPayload rx) st m' ∧
      (s.step board (.packet rx tape)).machine.flash = m'.flash := by
  have hwp := handleAuthorize_wp board { s.machine with tape } (packetPayload rx)
  simp only [Sys.step]
  rw [if_neg (not_not_intro hp)]
  cases hrun : handleAuthorize board (packetPayload rx) { s.machine with tape } with
  | ok st m' =>
    have hstep := Nor.wp_ok hwp hrun
    rw [← hr.dispatch_authorize] at hrun
    rw [processBulkPacket_of_dispatch hr.accepted hrun]
    exact ⟨some st, m', hstep, rfl⟩
  | error u m' =>
    have hstep := Nor.wp_cut hwp hrun
    rw [← hr.dispatch_authorize] at hrun
    rw [processBulkPacket_of_cut hr.accepted hrun]
    exact ⟨none, m', hstep, rfl⟩

/-- **What an AUTHORIZE packet does to the flash**: where it erases, the
target slot is erased; otherwise nothing changes. -/
theorem flash_of_authorize (board : Board) (s : Sys) (tape : ℕ → Option Outcome)
    (hop : packetOpcode rx = opAuthorize) :
    (Erases board s rx tape → (s.step board (.packet rx tape)).machine.flash =
        (Op.erase (targetSlot board s.machine.flash) 1024).apply s.machine.flash) ∧
      (¬ Erases board s rx tape →
        (s.step board (.packet rx tape)).machine.flash = s.machine.flash) := by
  by_cases hr : IsRequest opAuthorize rx
  · by_cases hp : s.phase = .update
    · obtain ⟨st, m', ha, hflash⟩ := flash_of_request board tape hp hr
      rw [hflash]
      refine ⟨fun h => ha.flash.1 ⟨authorizes_tape.2 h.2.2.1, h.2.2.2⟩, fun h => ha.flash.2 ?_⟩
      exact fun hc => h ⟨hp, hr, authorizes_tape.1 hc.1, hc.2⟩
    · have hstep : s.step board (.packet rx tape) = s := by
        simp only [Sys.step]
        exact if_pos hp
      rw [hstep]
      exact ⟨fun h => absurd h.1 hp, fun _ => rfl⟩
  · exact ⟨fun h => absurd h.2.1 hr, fun _ => flash_of_not_request hop hr⟩

/-! ## Keeping a device bootable -/

/-- No effective operation between the two touched the application. -/
def AppUntouched (s s' : Sys) : Prop :=
  ∀ en ∈ s'.machine.log.drop s.machine.log.length, en.outcome.done = true →
    ∀ x, appBase ≤ x → x < appEnd → ¬ en.op.Covers x

variable (board) in
/-- Where the device was bootable before `e`, it stays so after `e` and
whatever follows short of another AUTHORIZE, with the same application
bytes, for as long as no application byte is touched. -/
def KeepsBooting (s : Sys) (e : Event) : Prop :=
  (scanFlash board s.machine.flash).committedVersion ≠ 0 → ∀ evs, NoAuthorize evs →
    AppUntouched s (s.run board (e :: evs)) →
    (scanFlash board (s.run board (e :: evs)).machine.flash).committedVersion ≠ 0 ∧
      ∀ x, appBase ≤ x → x < appEnd →
        (s.run board (e :: evs)).machine.flash x = s.machine.flash x

theorem app_of_untouched (h : s.Inv board) (evs : List Event)
    (hun : AppUntouched s (s.run board evs)) {x : ℕ} (h1 : appBase ≤ x) (h2 : x < appEnd) :
    (s.run board evs).machine.flash x = s.machine.flash x := by
  obtain ⟨es, hlog, hflash, -⟩ := run_log h (P := fun _ => True) (fun _ _ _ _ _ => trivial) evs
  rw [hflash]
  refine Nor.replay_of_not_covers (fun en hen hd hc => ?_) _
  refine hun en ?_ hd x h1 h2 hc
  rw [hlog, List.drop_left]
  exact hen

theorem boots_of_slot {slot : ℕ} (hslot : IsSlot slot) (h : bootVersion board f slot ≠ 0) :
    (scanFlash board f).committedVersion ≠ 0 := by
  rw [committedVersion_eq_max hslot]
  omega

/-- **A slot that boots goes on booting**, without AUTHORIZE and with the
application's bytes as they are. -/
theorem boots_run (h : s.Inv board) {evs : List Event} (hno : NoAuthorize evs) {slot : ℕ}
    (hslot : IsSlot slot) (hb : bootVersion board s.machine.flash slot ≠ 0)
    (happ : ∀ x, appBase ≤ x → x < appEnd →
      (s.run board evs).machine.flash x = s.machine.flash x) :
    (scanFlash board (s.run board evs).machine.flash).committedVersion ≠ 0 := by
  have hv : slotVersion board s.machine.flash slot ≠ 0 := by
    have := bootVersion_le board s.machine.flash slot
    omega
  refine boots_of_slot hslot ?_
  rwa [bootVersion_congr (fun i hi => slot_run h hno hslot hv (slot + i) (by omega) (by omega))
    fun i hi => happ (appBase + i) (by omega) (by simp only [appBase, appEnd, appMaxBytes] at *; omega)]

/-- An AUTHORIZE issues nothing but the erase of its slot. -/
theorem untouched_of_authorize (tape : ℕ → Option Outcome) (h : s.Inv board)
    (hop : packetOpcode rx = opAuthorize) :
    AppUntouched s (s.step board (.packet rx tape)) := by
  obtain ⟨r, plan, hw, hran⟩ := step_work h (.packet rx tape)
  obtain ⟨es, hlog, -, hops, -⟩ := hran.log
  intro en hen _ x h1 h2 hc
  rw [hlog, List.drop_left] at hen
  have ho : en.op ∈ plan := hops.subset (List.mem_map_of_mem hen)
  cases hw with
  | none => simp at ho
  | authorize =>
    have hb := (isSlot_targetSlot board s.machine.flash).bounds
    rw [List.mem_singleton.1 ho] at hc
    simp only [Op.Covers] at hc
    omega
  | data _ hop' => rw [hop] at hop'; cases hop'
  | commit _ hop' => rw [hop] at hop'; cases hop'

theorem exists_boots_slot (h : (scanFlash board f).committedVersion ≠ 0) :
    ∃ slot, IsSlot slot ∧ bootVersion board f slot ≠ 0 := by
  rw [scan_committedVersion] at h
  by_cases hA : bootVersion board f metaA = 0
  · exact ⟨metaB, Or.inr rfl, by omega⟩
  · exact ⟨metaA, Or.inl rfl, hA⟩

/-- Erasing the target leaves what the spared slot boots. -/
theorem committedVersion_erased (f : Mem) :
    (scanFlash board ((Op.erase (targetSlot board f) 1024).apply f)).committedVersion =
      bootVersion board f (otherSlot (targetSlot board f)) := by
  have hslot := isSlot_targetSlot board f
  have hb := hslot.bounds
  have hap := hslot.apart
  have hout : ∀ x, x < targetSlot board f ∨ targetSlot board f + 1024 ≤ x →
      (Op.erase (targetSlot board f) 1024).apply f x = f x := fun x hx =>
    Op.apply_of_not_covers (by simp only [Op.Covers]; omega) f
  have hblank := Op.blank_apply_erase f (targetSlot board f) 1024
  have hzero := bootVersion_le board ((Op.erase (targetSlot board f) 1024).apply f)
    (targetSlot board f)
  rw [slotVersion_of_blank (hblank.sub (Nat.le_refl _) (by omega))] at hzero
  rw [committedVersion_eq_max hslot, Nat.le_zero.1 hzero, Nat.zero_max]
  refine bootVersion_congr (fun i _ => hout _ (by omega)) fun i hi => hout _ (Or.inl ?_)
  simp only [appBase, appEnd, appMaxBytes] at *
  omega

/-- **The one case in which an AUTHORIZE bricks a bootable device.** A packet
that does not erase changes nothing that boots. -/
theorem keepsBooting_iff (h : s.Inv board) (hn : NewestBoots board s.machine.flash)
    (hop : packetOpcode rx = opAuthorize) :
    KeepsBooting board s (.packet rx tape) ↔
      ¬ (Erases board s rx tape ∧ Endangered board s.machine.flash) := by
  obtain ⟨herase, hkeep⟩ := flash_of_authorize board s tape hop
  constructor
  · rintro hkb ⟨he, hend⟩
    have hc : (scanFlash board s.machine.flash).committedVersion ≠ 0 := by
      refine boots_of_slot (Or.inl rfl : IsSlot metaA) ?_
      rw [bootVersion, if_pos hend.2.2.1]
      exact hend.1
    have hafter := (hkb hc [] (by simp [NoAuthorize]) (untouched_of_authorize _ h hop)).1
    simp only [Sys.run, List.foldl_cons, List.foldl_nil] at hafter
    rw [herase he, committedVersion_erased] at hafter
    exact (spared_boots_iff hn hc).1 hafter hend
  · intro hcond hc evs hno hun
    have happ : ∀ x, appBase ≤ x → x < appEnd →
        (s.run board (.packet rx tape :: evs)).machine.flash x = s.machine.flash x :=
      fun x h1 h2 => app_of_untouched h _ hun h1 h2
    refine ⟨?_, happ⟩
    have hun₁ := untouched_of_authorize tape h hop
    have happ₁ : ∀ x, appBase ≤ x → x < appEnd →
        (s.step board (.packet rx tape)).machine.flash x = s.machine.flash x :=
      fun x h1 h2 => app_of_untouched h [.packet rx tape] hun₁ h1 h2
    -- some slot boots after the step: the spared one, or the one that did before
    have hboots : (scanFlash board (s.step board (.packet rx tape)).machine.flash).committedVersion
        ≠ 0 := by
      by_cases he : Erases board s rx tape
      · rw [herase he, committedVersion_erased]
        exact (spared_boots_iff hn hc).2 fun hend => hcond ⟨he, hend⟩
      · rwa [hkeep he]
    obtain ⟨slot, hslot, hb⟩ := exists_boots_slot hboots
    exact boots_run (inv_step h _) hno hslot hb fun x h1 h2 =>
      (happ x h1 h2).trans (happ₁ x h1 h2).symm

end Bootloader

end DeusOs
