import DeusOs.Bootloader.Session

/-!
# The bootloader — runs

From one packet to whole runs. `moves` says what one event does to the
system, `inv_run` carries the session invariant over every run, and
`step_work` sums a step up as flash work: which handler it came from, in
which RAM it was issued, and how far its plan got. The safety results are
read off the four cases of `Work`.
-/

namespace DeusOs

namespace Bootloader

open Nor (Mem Op Machine Stops Outcome Entry applyAll replay)

variable (board : Board)

/-- What one event does to the system. -/
inductive Moves (s : Sys) : Event → Sys → Prop
  /-- The event does not reach the bootloader. -/
  | idle {e : Event} : Moves s e s
  /-- The endpoint variables move. -/
  | endpoint {e : Event} (r : BootRam) :
      Moves s e { s with machine := aside s.machine r s.machine.tape }
  /-- The device boots. -/
  | boot {e : Event} {ph : Phase} {r : BootRam} : r.updateState = .recoveryIdle →
      Moves s e { s with phase := ph, machine := { s.machine with ram := r } }
  /-- A packet is served, or ignored. -/
  | served {rx : List UInt8} {tape : ℕ → Option Outcome} {answer : Option Status}
      {m' : Machine BootRam} : s.phase = .update →
      processBulkPacket board rx { s.machine with tape } = .ok answer m' →
      PacketStep board { s.machine with tape } rx (some answer) m' →
      Moves s (.packet rx tape)
        { s with machine := m', session := s.session.note rx s.machine m' answer }
  /-- A reset strikes inside a packet. -/
  | cut {rx : List UInt8} {tape : ℕ → Option Outcome} {m' : Machine BootRam} :
      s.phase = .update → processBulkPacket board rx { s.machine with tape } = .error () m' →
      PacketStep board { s.machine with tape } rx none m' →
      Moves s (.packet rx tape) { s with phase := .off, machine := m' }

/-- While the device serves updates, its machine and its session agree. -/
def Sys.Inv (s : Sys) : Prop := s.phase = .update → Bootloader.Inv board s.machine s.session

variable {board} {s : Sys} {e : Event}

/-- A boot sets the phase and clears the RAM; the flash and the log stay. -/
theorem boot_eq (board : Board) (s : Sys) (bkpDr1 bkpDr2 : ℕ) :
    ∃ ph r, r.updateState = .recoveryIdle ∧
      s.boot board bkpDr1 bkpDr2 = { s with phase := ph, machine := { s.machine with ram := r } } := by
  unfold Sys.boot bootMain
  by_cases h : ¬ consumeUpdateToken bkpDr1 bkpDr2 ∧
      (bootRam board s.machine.flash).committedVersion ≠ 0
  · rw [if_pos h]
    exact ⟨.application, bootRam board s.machine.flash, rfl, rfl⟩
  · rw [if_neg h]
    refine ⟨.update, _, ?_, rfl⟩
    rfl

/-- The packet relation, at the fates a step supplies. -/
theorem packetStep_of_inv (h : s.Inv board) (hp : s.phase = .update) (rx : List UInt8)
    (tape : ℕ → Option Outcome) :
    Nor.wp (processBulkPacket board rx)
      (fun st => PacketStep board { s.machine with tape } rx (some st))
      (PacketStep board { s.machine with tape } rx none) { s.machine with tape } := by
  refine processBulkPacket_wp board { s.machine with tape } rx fun hl => ?_
  have ho := (h hp).live hl
  have hlen := (imageLength_bounds ho.structural).2
  rwa [← ho.header] at hlen

/-- **What an event can do,** in every state that keeps the invariant. -/
theorem moves (h : s.Inv board) (e : Event) : Moves board s e (s.step board e) := by
  cases e with
  | packet rx tape =>
    by_cases hp : s.phase = .update
    · have hwp := packetStep_of_inv h hp rx tape
      simp only [Sys.step]
      rw [if_neg (not_not_intro hp)]
      cases hrun : processBulkPacket board rx { s.machine with tape } with
      | ok answer m' =>
        have hstep := Nor.wp_ok hwp hrun
        exact .served hp hrun hstep
      | error u m' =>
        have hstep := Nor.wp_cut hwp hrun
        exact .cut hp hrun hstep
    · simp only [Sys.step]
      rw [if_pos hp]
      exact .idle
  | inComplete =>
    simp only [Sys.step]
    split
    · exact .idle
    split
    · obtain ⟨ph, r, hr, heq⟩ := boot_eq board s 0 0
      rw [heq]
      exact .boot hr
    · exact .endpoint { s.machine.ram with usbTxActive := false }
  | configure c =>
    simp only [Sys.step]
    split
    · exact .idle
    · exact .endpoint { s.machine.ram with
        usbConfiguration := c, usbTxActive := if c = 1 then s.machine.ram.usbTxActive else false }
  | reset d1 d2 =>
    simp only [Sys.step]
    obtain ⟨ph, r, hr, heq⟩ := boot_eq board s d1 d2
    rw [heq]
    exact .boot hr

/-- **One step keeps the invariant:** a session is opened by AUTHORIZE, extended
by DATA, and ended by all that clears the RAM. -/
theorem inv_step (h : s.Inv board) (e : Event) : (s.step board e).Inv board := by
  have hm := moves h e
  generalize s.step board e = s' at hm
  intro hp'
  cases hm with
  | idle => exact h hp'
  | endpoint r => exact (h hp').aside r _
  | boot hr => exact .of_dead (Or.inl hr)
  | @served rx tape answer m' hp _ hstep =>
    have h' : Bootloader.Inv board { s.machine with tape } s.session :=
      (h hp).aside s.machine.ram tape
    exact h'.packet hstep
  | cut => cases hp'

/-- A board without power keeps the invariant. -/
theorem inv_unpowered (f : Mem) : (Sys.unpowered f).Inv board := fun h => by cases h

/-- A run, one event longer. -/
theorem run_append_singleton (s : Sys) (evs : List Event) (e : Event) :
    s.run board (evs ++ [e]) = (s.run board evs).step board e := by
  simp [Sys.run]

theorem run_append (s : Sys) (evs evs' : List Event) :
    s.run board (evs ++ evs') = (s.run board evs).run board evs' := List.foldl_append

/-- Every run keeps the invariant. -/
theorem inv_run_of (h : s.Inv board) (evs : List Event) : (s.run board evs).Inv board := by
  induction evs generalizing s with
  | nil => exact h
  | cons e evs ih => exact ih (inv_step h e)

/-- **The invariant holds over every run, from any flash,** since a board
without power has no session. -/
theorem inv_run (board : Board) (f : Mem) (evs : List Event) : ((Sys.unpowered f).run board evs).Inv board :=
  inv_run_of (inv_unpowered f) evs

/-! ## Steps as flash work -/

variable (board) in
/-- The flash work of a step: none, the erase of AUTHORIZE, the chunk of
DATA or the commit of END, with the RAM it is issued in and its plan. -/
inductive Work (s : Sys) : Event → BootRam → List Op → Prop
  | none {e : Event} {r : BootRam} : Work s e r []
  | authorize {rx : List UInt8} {tape : ℕ → Option Outcome} : s.phase = .update →
      packetOpcode rx = opAuthorize → Authorizes board s.machine (packetPayload rx) →
      Work s (.packet rx tape) (authorizeRam board s.machine.flash s.machine.ram (packetPayload rx))
        [.erase (targetSlot board s.machine.flash) 1024]
  | data {rx : List UInt8} {tape : ℕ → Option Outcome} : s.phase = .update →
      packetOpcode rx = opData → Accepts s.machine.ram (packetPayload rx) →
      Work s (.packet rx tape) s.machine.ram
        (chunkOps (dataOffset (packetPayload rx)) (dataBytes (packetPayload rx)))
  | commit {rx : List UInt8} {tape : ℕ → Option Outcome} : s.phase = .update →
      packetOpcode rx = opEnd → Commits s.machine →
      Work s (.packet rx tape) (endRam s.machine.ram) (endOps s.machine.ram)

/-- The plan ran up to some point, issued with `r` in RAM. -/
structure Ran (r : BootRam) (plan : List Op) (m m' : Machine BootRam) : Prop where
  flash : ∃ j, m'.flash = applyAll (plan.take j) m.flash
  log : ∃ es, m'.log = m.log ++ es ∧ m'.flash = replay es m.flash ∧ es.map Entry.op <+: plan ∧
    (∀ (i : ℕ) (h : i < es.length), es[i].flash = replay (es.take i) m.flash) ∧
    ∀ e ∈ es, e.ram = r

theorem Ran.refl {r : BootRam} {m m' : Machine BootRam} (hf : m'.flash = m.flash)
    (hl : m'.log = m.log) : Ran r [] m m' :=
  ⟨⟨0, hf⟩, [], by simp [hl], hf, List.nil_prefix, by simp, by simp⟩

/-- A plan that stopped somewhere ran up to there. -/
theorem Ran.of_stops {r : BootRam} {plan : List Op} {m₀ m₁ m m' : Machine BootRam}
    (h : Stops plan m₀ m₁) (hr : m₀.ram = r) (hf : m₀.flash = m.flash) (hl : m₀.log = m.log)
    (hf' : m'.flash = m₁.flash) (hl' : m'.log = m₁.log) : Ran r plan m m' := by
  refine ⟨?_, ?_⟩
  · obtain ⟨j, hj⟩ := h.flash
    exact ⟨j, by rw [hf', hj, hf]⟩
  · obtain ⟨es, hes, hops⟩ := h.issued
    exact ⟨es, by rw [hl', hes.log, hl], by rw [hf', hes.flash, hf], hops,
      fun i hi => by rw [hes.issuedIn i hi, hf], fun e he => (hes.snapshot e he).trans hr⟩

/-- A plan leaves what none of its operations covers. -/
theorem Ran.flash_of_not_covers {r : BootRam} {plan : List Op} {m m' : Machine BootRam} {x : ℕ}
    (h : Ran r plan m m') (hx : ∀ o ∈ plan, ¬ o.Covers x) : m'.flash x = m.flash x := by
  obtain ⟨j, hj⟩ := h.flash
  rw [hj]
  exact Nor.applyAll_of_not_covers (fun o ho => hx o (List.mem_of_mem_take ho)) _

/-- What a packet's handler issued is the work of that packet. -/
theorem DispatchStep.work {rx : List UInt8} {tape : ℕ → Option Outcome} {st : Option Status}
    {m' : Machine BootRam} (hp : s.phase = .update)
    (hd : DispatchStep board { s.machine with tape } rx st m') :
    ∃ r plan, Work board s (.packet rx tape) r plan ∧ Ran r plan s.machine m' := by
  cases hd with
  | refused => exact ⟨s.machine.ram, [], .none, .refl rfl rfl⟩
  | info => exact ⟨s.machine.ram, [], .none, .refl rfl rfl⟩
  | begin _ hb =>
    refine ⟨s.machine.ram, [], .none, ?_⟩
    cases hb <;> exact .refl rfl rfl
  | authorize hop ha =>
    cases ha with
    | refused => exact ⟨s.machine.ram, [], .none, .refl rfl rfl⟩
    | unauthenticated => exact ⟨s.machine.ram, [], .none, .refl rfl rfl⟩
    | rejected => exact ⟨s.machine.ram, [], .none, .refl rfl rfl⟩
    | authorized ha hd =>
      exact ⟨_, _, .authorize hp hop (authorizes_tape.1 ha),
        .of_stops hd.toStops rfl rfl rfl rfl rfl⟩
    | failed ha hs =>
      exact ⟨_, _, .authorize hp hop (authorizes_tape.1 ha),
        .of_stops hs rfl rfl rfl rfl rfl⟩
    | cut ha hs =>
      exact ⟨_, _, .authorize hp hop (authorizes_tape.1 ha),
        .of_stops hs rfl rfl rfl rfl rfl⟩
  | data hop hstep =>
    cases hstep with
    | refused => exact ⟨s.machine.ram, [], .none, .refl rfl rfl⟩
    | repeated => exact ⟨s.machine.ram, [], .none, .refl rfl rfl⟩
    | accepted ha hd =>
      exact ⟨_, _, .data hp hop ha, .of_stops hd.toStops rfl rfl rfl rfl rfl⟩
    | failed ha hs => exact ⟨_, _, .data hp hop ha, .of_stops hs rfl rfl rfl rfl rfl⟩
    | cut ha hs => exact ⟨_, _, .data hp hop ha, .of_stops hs rfl rfl rfl rfl rfl⟩
  | «end» hop he =>
    cases he with
    | refused => exact ⟨s.machine.ram, [], .none, .refl rfl rfl⟩
    | unverified => exact ⟨s.machine.ram, [], .none, .refl rfl rfl⟩
    | committed _ hc hd =>
      exact ⟨_, _, .commit hp hop ⟨hc.1, hc.2, hc.3, hc.4, hc.5⟩,
        .of_stops hd.toStops rfl rfl rfl rfl rfl⟩
    | failed hc hs =>
      exact ⟨_, _, .commit hp hop ⟨hc.1, hc.2, hc.3, hc.4, hc.5⟩,
        .of_stops hs rfl rfl rfl rfl rfl⟩
    | cut hc hs =>
      exact ⟨_, _, .commit hp hop ⟨hc.1, hc.2, hc.3, hc.4, hc.5⟩,
        .of_stops hs rfl rfl rfl rfl rfl⟩

/-- **Every step is flash work of one of the four kinds:** nothing, the erase of
AUTHORIZE, a chunk of DATA, or the record of END. -/
theorem step_work (h : s.Inv board) (e : Event) :
    ∃ r plan, Work board s e r plan ∧ Ran r plan s.machine (s.step board e).machine := by
  have hm := moves h e
  generalize s.step board e = s' at hm
  cases hm with
  | idle => exact ⟨s.machine.ram, [], .none, .refl rfl rfl⟩
  | endpoint => exact ⟨s.machine.ram, [], .none, .refl rfl rfl⟩
  | boot => exact ⟨s.machine.ram, [], .none, .refl rfl rfl⟩
  | served hp _ hstep =>
    cases hstep with
    | ignored => exact ⟨s.machine.ram, [], .none, .refl rfl rfl⟩
    | served _ hd =>
      obtain ⟨r, plan, hw, hran⟩ := hd.work hp
      exact ⟨r, plan, hw, hran.1, hran.2⟩
  | cut hp _ hstep =>
    cases hstep with
    | cut _ hd => exact hd.work hp

end Bootloader

end DeusOs
