import DeusOs.Common.Nor.Memory

/-!
# A machine over a flash that can fail, and that can lose power

Code that mutates flash runs here as a state monad whose only exception
is a reset. Every flash operation takes its fate from a tape: it takes
effect or not, it reports success or not, independently, and where the
tape is empty a reset strikes instead of the operation. What survives a
reset is the flash; `wp` therefore carries two postconditions, one for a
run that returns and one for a run that is cut.

The log is a history variable: each operation issued, with its outcome
and the flash and RAM it was issued in.
-/

namespace Nor

/-- The fate of one operation: whether it took effect, and whether the
controller reported success. -/
structure Outcome where
  done : Bool
  ok : Bool
  deriving DecidableEq, Repr

/-- The operation took effect and said so. -/
def Outcome.good : Outcome := ⟨true, true⟩

/-- An operation issued, its fate, and the state it was issued in. -/
structure Entry (ρ : Type) where
  op : Op
  outcome : Outcome
  flash : Mem
  ram : ρ

variable {ρ α β : Type}

/-- What the entry did to the memory. -/
def Entry.effect (e : Entry ρ) (f : Mem) : Mem := if e.outcome.done then e.op.apply f else f

/-- What a list of entries did to the memory. -/
def replay (es : List (Entry ρ)) (f : Mem) : Mem := es.foldl (fun f e => e.effect f) f

@[simp] theorem replay_nil (f : Mem) : replay ([] : List (Entry ρ)) f = f := rfl

@[simp] theorem replay_cons (e : Entry ρ) (es : List (Entry ρ)) (f : Mem) :
    replay (e :: es) f = replay es (e.effect f) := rfl

/-- A log is replayed part by part. -/
theorem replay_append (es es' : List (Entry ρ)) (f : Mem) :
    replay (es ++ es') f = replay es' (replay es f) := List.foldl_append

/-- A byte that no effective operation covers is not changed. -/
theorem replay_of_not_covers {es : List (Entry ρ)} {x : ℕ}
    (h : ∀ e ∈ es, e.outcome.done = true → ¬ e.op.Covers x) (f : Mem) : replay es f x = f x := by
  induction es generalizing f with
  | nil => rfl
  | cons e es ih =>
    have hes := ih (fun e' he' => h e' (List.mem_cons_of_mem _ he')) (e.effect f)
    refine hes.trans ?_
    unfold Entry.effect
    split
    · rename_i hdone
      exact Op.apply_of_not_covers (h e List.mem_cons_self hdone) f
    · rfl

/-- Flash, RAM, the operations issued so far, and the fate of the next. -/
structure Machine (ρ : Type) where
  flash : Mem
  ram : ρ
  log : List (Entry ρ)
  tape : ℕ → Option Outcome

/-- A program over the machine. Its one exception is a reset. -/
abbrev Prog (ρ α : Type) := EStateM Unit (Machine ρ) α

namespace Prog

/-- Read the flash. -/
def flash : Prog ρ Mem := fun m => .ok m.flash m

/-- Read the RAM. -/
def ram : Prog ρ ρ := fun m => .ok m.ram m

/-- Update the RAM. -/
def modifyRam (g : ρ → ρ) : Prog ρ Unit := fun m => .ok () { m with ram := g m.ram }

/-- A reset. -/
def reset : Prog ρ α := fun m => .error () m

/-- Issue one operation and return what the controller reports. Where the
tape has no outcome, power is lost before the operation. -/
def issue (o : Op) : Prog ρ Bool := fun m =>
  match m.tape 0 with
  | none => .error () m
  | some x => .ok x.ok
      { m with
        flash := if x.done then o.apply m.flash else m.flash
        log := m.log ++ [⟨o, x, m.flash, m.ram⟩]
        tape := fun i => m.tape (i + 1) }

/-- `q` where `p` answered true. -/
def andThen (p q : Prog ρ Bool) : Prog ρ Bool := do
  if ← p then q else pure false

end Prog

/-- What a program returns, `none` where a reset cuts it, and where it ends. -/
def outcome (p : Prog ρ α) (m : Machine ρ) : Option α × Machine ρ :=
  match p m with
  | .ok a m' => (some a, m')
  | .error _ m' => (none, m')

/-- A run that returns, from its outcome. -/
theorem run_of_outcome {p : Prog ρ α} {m : Machine ρ} {a : α} (h : (outcome p m).1 = some a) :
    p m = .ok a (outcome p m).2 := by
  unfold outcome at h ⊢
  cases hrun : p m with
  | ok a' m' =>
    rw [hrun] at h
    obtain rfl := Option.some.inj h
    rfl
  | error u m' =>
    rw [hrun] at h
    cases h

/-! ## Weakest preconditions -/

/-- The run of `p` from `m` returns into `Q` or is cut into `C`. -/
def wp (p : Prog ρ α) (Q : α → Machine ρ → Prop) (C : Machine ρ → Prop) (m : Machine ρ) : Prop :=
  match p m with
  | .ok a m' => Q a m'
  | .error _ m' => C m'

section wp

variable {Q : α → Machine ρ → Prop} {C : Machine ρ → Prop} {m : Machine ρ}

@[simp] theorem wp_pure (a : α) : wp (pure a : Prog ρ α) Q C m ↔ Q a m := Iff.rfl

@[simp] theorem wp_bind (p : Prog ρ β) (g : β → Prog ρ α) :
    wp (p >>= g) Q C m ↔ wp p (fun b => wp (g b) Q C) C m := by
  simp only [wp, bind, EStateM.bind]
  cases p m <;> exact Iff.rfl

@[simp] theorem wp_map (p : Prog ρ β) (g : β → α) :
    wp (g <$> p) Q C m ↔ wp p (fun b => Q (g b)) C m := by
  simp only [wp, Functor.map, EStateM.map]
  cases p m <;> exact Iff.rfl

@[simp] theorem wp_ite (c : Prop) [Decidable c] (p q : Prog ρ α) :
    wp (if c then p else q) Q C m ↔ if c then wp p Q C m else wp q Q C m := by
  split <;> exact Iff.rfl

@[simp] theorem wp_flash {Q : Mem → Machine ρ → Prop} : wp Prog.flash Q C m ↔ Q m.flash m := Iff.rfl

@[simp] theorem wp_ram {Q : ρ → Machine ρ → Prop} : wp Prog.ram Q C m ↔ Q m.ram m := Iff.rfl

@[simp] theorem wp_modifyRam {Q : Unit → Machine ρ → Prop} (g : ρ → ρ) :
    wp (Prog.modifyRam g) Q C m ↔ Q () { m with ram := g m.ram } := Iff.rfl

@[simp] theorem wp_reset : wp (Prog.reset : Prog ρ α) Q C m ↔ C m := Iff.rfl

/-- **Consequence,** for what a program returns with and for what a reset finds.
-/
theorem wp_mono {Q' : α → Machine ρ → Prop} {C' : Machine ρ → Prop} {p : Prog ρ α}
    (h : wp p Q C m) (hQ : ∀ a m', Q a m' → Q' a m') (hC : ∀ m', C m' → C' m') :
    wp p Q' C' m := by
  unfold wp at h ⊢
  split <;> simp_all

/-- A run that returned satisfies the first postcondition. -/
theorem wp_ok {p : Prog ρ α} {a : α} {m' : Machine ρ} (h : wp p Q C m) (hp : p m = .ok a m') :
    Q a m' := by
  simpa [wp, hp] using h

/-- And a run that was cut the second. -/
theorem wp_cut {p : Prog ρ α} {m' : Machine ρ} (h : wp p Q C m) (hp : p m = .error () m') :
    C m' := by
  simpa [wp, hp] using h

/-- Two rules of one program. -/
theorem wp_and {Q' : α → Machine ρ → Prop} {C' : Machine ρ → Prop} {p : Prog ρ α}
    (h : wp p Q C m) (h' : wp p Q' C' m) :
    wp p (fun a m' => Q a m' ∧ Q' a m') (fun m' => C m' ∧ C' m') m := by
  unfold wp at *
  cases hp : p m with
  | ok a m' =>
    rw [hp] at h h'
    exact ⟨h, h'⟩
  | error _ m' =>
    rw [hp] at h h'
    exact ⟨h, h'⟩

/-- A run that is not cut returns. -/
theorem wp_returned {p : Prog ρ α} (h : wp p Q C m) (hcut : ∀ m', ¬ C m') :
    ∃ a m', p m = .ok a m' ∧ Q a m' := by
  unfold wp at h
  cases hp : p m with
  | ok a m' =>
    rw [hp] at h
    exact ⟨a, m', rfl, h⟩
  | error _ m' =>
    rw [hp] at h
    exact absurd h (hcut m')

end wp

/-! ## What a stretch of operations did -/

/-- The entries `es` lead from `m` to `m'`: the log gained them, the flash
is their replay, their outcomes came off the tape, each was issued in the
flash its predecessors left, and they and `m'` have the RAM of `m`. -/
structure Issued (m : Machine ρ) (es : List (Entry ρ)) (m' : Machine ρ) : Prop where
  ram : m'.ram = m.ram
  log : m'.log = m.log ++ es
  flash : m'.flash = replay es m.flash
  tape : m'.tape = fun i => m.tape (es.length + i)
  outcome : ∀ (i : ℕ) (h : i < es.length), m.tape i = some es[i].outcome
  issuedIn : ∀ (i : ℕ) (h : i < es.length), es[i].flash = replay (es.take i) m.flash
  snapshot : ∀ e ∈ es, e.ram = m.ram

namespace Issued

variable {m m' m'' : Machine ρ} {es es' : List (Entry ρ)}

theorem refl (m : Machine ρ) : Issued m [] m :=
  ⟨rfl, by simp, rfl, by simp, by simp, by simp, by simp⟩

theorem trans (h : Issued m es m') (h' : Issued m' es' m'') : Issued m (es ++ es') m'' where
  ram := h'.ram.trans h.ram
  log := by rw [h'.log, h.log, List.append_assoc]
  flash := by rw [h'.flash, h.flash, replay_append]
  tape := by
    rw [h'.tape, h.tape]
    funext i
    rw [List.length_append, Nat.add_assoc]
  outcome i hi := by
    by_cases hlt : i < es.length
    · rw [h.outcome i hlt, List.getElem_append_left hlt]
    · have hi' : i - es.length < es'.length := by
        rw [List.length_append] at hi; omega
      rw [List.getElem_append_right (by omega), ← h'.outcome _ hi', h.tape]
      congr 1; omega
  issuedIn i hi := by
    by_cases hlt : i < es.length
    · rw [List.getElem_append_left hlt, h.issuedIn i hlt, List.take_append_of_le_length (Nat.le_of_lt hlt)]
    · have hi' : i - es.length < es'.length := by
        rw [List.length_append] at hi; omega
      rw [List.getElem_append_right (by omega), h'.issuedIn _ hi', h.flash, ← replay_append]
      conv_rhs => rw [show i = es.length + (i - es.length) by omega, List.take_length_add_append]
  snapshot e he := by
    rcases List.mem_append.1 he with he | he
    · exact h.snapshot e he
    · exact (h'.snapshot e he).trans h.ram

/-- One operation. -/
theorem single {x : Outcome} (o : Op) (hx : m.tape 0 = some x) :
    Issued m [⟨o, x, m.flash, m.ram⟩]
      { m with
        flash := if x.done then o.apply m.flash else m.flash
        log := m.log ++ [⟨o, x, m.flash, m.ram⟩]
        tape := fun i => m.tape (i + 1) } where
  ram := rfl
  log := rfl
  flash := rfl
  tape := by funext i; simp [Nat.add_comm]
  outcome i hi := by
    obtain rfl : i = 0 := by simpa using hi
    exact hx
  issuedIn i hi := by
    obtain rfl : i = 0 := by simpa using hi
    rfl
  snapshot e he := by rw [List.mem_singleton.1 he]

end Issued

/-- The rule of one operation. -/
theorem wp_issue {o : Op} {Q : Bool → Machine ρ → Prop} {C : Machine ρ → Prop} {m : Machine ρ}
    (hC : m.tape 0 = none → C m)
    (hQ : ∀ x m', Issued m [⟨o, x, m.flash, m.ram⟩] m' →
      m'.flash = (if x.done then o.apply m.flash else m.flash) → Q x.ok m') :
    wp (Prog.issue o) Q C m := by
  unfold wp Prog.issue
  cases hx : m.tape 0 with
  | none => exact hC hx
  | some x => exact hQ x _ (Issued.single o hx) rfl

/-- Some operation between `m` and `m'` did not take effect, or was not
reported to. -/
def Faulty (m m' : Machine ρ) : Prop :=
  ∃ e ∈ m'.log.drop m.log.length, e.outcome ≠ Outcome.good

/-- Power is lost before the next operation. -/
def Cut (m : Machine ρ) : Prop := m.tape 0 = none

/-- Every operation from here on takes effect and says so. -/
def Sound (m : Machine ρ) : Prop := ∀ i, m.tape i = some Outcome.good

/-- Every operation from here on says whether it took effect. -/
def Honest (m : Machine ρ) : Prop := ∀ i x, m.tape i = some x → x.ok = x.done

/-- An honest machine stays honest. -/
theorem Issued.honest {m m' : Machine ρ} {es : List (Entry ρ)} (h : Issued m es m')
    (hm : Honest m) : Honest m' := by
  intro i x hx
  rw [h.tape] at hx
  exact hm _ x hx

/-- The machine was faulty in between exactly if an operation that was issued
went wrong. -/
theorem Issued.faulty_iff {m m' : Machine ρ} {es : List (Entry ρ)} (h : Issued m es m') :
    Faulty m m' ↔ ∃ e ∈ es, e.outcome ≠ Outcome.good := by
  unfold Faulty
  rw [h.log, List.drop_left]

/-- A machine that works keeps working. -/
theorem Issued.sound {m m' : Machine ρ} {es : List (Entry ρ)} (h : Issued m es m')
    (hm : Sound m) : Sound m' := by
  intro i
  rw [h.tape]
  exact hm _

/-- No operation goes wrong on a machine that works. -/
theorem Issued.not_faulty {m m' : Machine ρ} {es : List (Entry ρ)} (h : Issued m es m')
    (hm : Sound m) : ¬ Faulty m m' := by
  rw [h.faulty_iff]
  rintro ⟨e, he, hne⟩
  obtain ⟨i, hi, rfl⟩ := List.mem_iff_getElem.1 he
  have hout := h.outcome i hi
  rw [hm i] at hout
  exact hne (Option.some.inj hout).symm

/-! ## Plans -/

/-- The whole plan was issued, in order, and the flash is what it makes. -/
structure Does (plan : List Op) (m m' : Machine ρ) : Prop where
  issued : ∃ es, Issued m es m' ∧ es.map Entry.op = plan
  flash : m'.flash = applyAll plan m.flash

/-- A prefix of the plan was issued, and the flash is what a prefix of
the plan makes. -/
structure Stops (plan : List Op) (m m' : Machine ρ) : Prop where
  issued : ∃ es, Issued m es m' ∧ es.map Entry.op <+: plan
  flash : ∃ j, m'.flash = applyAll (plan.take j) m.flash

section plans

variable {m m' m'' : Machine ρ} {plan plan' : List Op}

theorem Does.refl (m : Machine ρ) : Does [] m m := ⟨⟨[], Issued.refl m, rfl⟩, rfl⟩

theorem Stops.refl (plan : List Op) (m : Machine ρ) : Stops plan m m :=
  ⟨⟨[], Issued.refl m, List.nil_prefix⟩, 0, rfl⟩

theorem Does.ram (h : Does plan m m') : m'.ram = m.ram := by
  obtain ⟨es, hes, -⟩ := h.issued; exact hes.ram

theorem Stops.ram (h : Stops plan m m') : m'.ram = m.ram := by
  obtain ⟨es, hes, -⟩ := h.issued; exact hes.ram

/-- An honest machine stays honest over a plan. -/
theorem Does.honest (h : Does plan m m') (hm : Honest m) : Honest m' := by
  obtain ⟨es, hes, -⟩ := h.issued
  exact hes.honest hm

/-- A machine that works keeps working over a plan. -/
theorem Does.sound (h : Does plan m m') (hm : Sound m) : Sound m' := by
  obtain ⟨es, hes, -⟩ := h.issued; exact hes.sound hm

/-- No plan stops over a fault on a machine that works. -/
theorem Stops.not_faulty (h : Stops plan m m') (hm : Sound m) : ¬ Faulty m m' := by
  obtain ⟨es, hes, -⟩ := h.issued; exact hes.not_faulty hm

/-- No plan is cut short on a machine that works. -/
theorem Stops.not_cut (h : Stops plan m m') (hm : Sound m) : ¬ Cut m' := by
  obtain ⟨es, hes, -⟩ := h.issued
  simp [Cut, hes.sound hm 0]

theorem Does.trans (h : Does plan m m') (h' : Does plan' m' m'') :
    Does (plan ++ plan') m m'' := by
  obtain ⟨es, hes, hops⟩ := h.issued
  obtain ⟨es', hes', hops'⟩ := h'.issued
  refine ⟨⟨es ++ es', hes.trans hes', by rw [List.map_append, hops, hops']⟩, ?_⟩
  rw [h'.flash, h.flash, applyAll_append]

/-- A stretch that stops inside the first plan stops inside both. -/
theorem Stops.append (h : Stops plan m m') (plan' : List Op) : Stops (plan ++ plan') m m' := by
  obtain ⟨es, hes, hops⟩ := h.issued
  obtain ⟨j, hj⟩ := h.flash
  refine ⟨⟨es, hes, hops.trans (List.prefix_append _ _)⟩, min j plan.length, ?_⟩
  rw [List.take_append_of_le_length (Nat.min_le_right _ _), ← List.take_eq_take_min, hj]

/-- A stretch that does the first plan and stops inside the second stops
inside both. -/
theorem Does.stops (h : Does plan m m') (h' : Stops plan' m' m'') :
    Stops (plan ++ plan') m m'' := by
  obtain ⟨es, hes, hops⟩ := h.issued
  obtain ⟨es', hes', hops'⟩ := h'.issued
  obtain ⟨j, hj⟩ := h'.flash
  refine ⟨⟨es ++ es', hes.trans hes', ?_⟩, plan.length + j, ?_⟩
  · rw [List.map_append, hops]
    exact (List.prefix_append_right_inj plan).2 hops'
  · rw [hj, h.flash, List.take_length_add_append, applyAll_append]

/-- Doing the whole plan is one way of stopping in it. -/
theorem Does.toStops (h : Does plan m m') : Stops plan m m' := by
  obtain ⟨es, hes, hops⟩ := h.issued
  exact ⟨⟨es, hes, hops ▸ List.prefix_rfl⟩, plan.length, by rw [List.take_length, h.flash]⟩

/-- Faults of a later stretch are faults of the whole. -/
theorem Does.faulty (h : Does plan m m') (h' : Stops plan' m' m'') (hf : Faulty m' m'') :
    Faulty m m'' := by
  obtain ⟨es, hes, -⟩ := h.issued
  obtain ⟨es', hes', -⟩ := h'.issued
  obtain ⟨e, he, hne⟩ := hes'.faulty_iff.1 hf
  exact (hes.trans hes').faulty_iff.2 ⟨e, List.mem_append_right _ he, hne⟩

/-- What a stretch leaves alone, in terms of its plan. -/
theorem Stops.flash_of_not_covers {x : ℕ} (h : Stops plan m m') (hx : ∀ o ∈ plan, ¬ o.Covers x) :
    m'.flash x = m.flash x := by
  obtain ⟨j, hj⟩ := h.flash
  rw [hj]
  exact applyAll_of_not_covers (fun o ho => hx o (List.mem_of_mem_take ho)) _

end plans

/-! ## Programs that drive a plan -/

/-- `p` drives `plan` from any memory satisfying `Ready`: a true answer
means the whole plan was done and the memory was ready for it; a false
one, or a reset, means it stopped inside, and a false one from a ready
memory means some operation failed. -/
def Drives (p : Prog ρ Bool) (plan : List Op) (Ready : Mem → Prop) : Prop :=
  ∀ m, wp p
    (fun r m' => (r = true → Does plan m m' ∧ Ready m.flash) ∧
      (r = false → Stops plan m m' ∧ (Ready m.flash → Faulty m m')))
    (fun m' => Stops plan m m' ∧ Cut m') m

/-- **The rule of a driver:** the plan is done and `true` answered, or it
stopped over a fault and `false` is answered, or a reset cut it short. -/
theorem Drives.wp {p : Prog ρ Bool} {plan : List Op} {Ready : Mem → Prop} (h : Drives p plan Ready)
    {Q : Bool → Machine ρ → Prop} {C : Machine ρ → Prop} {m : Machine ρ}
    (hdone : ∀ m', Does plan m m' → Ready m.flash → Q true m')
    (hfail : ∀ m', Stops plan m m' → (Ready m.flash → Faulty m m') → Q false m')
    (hcut : ∀ m', Stops plan m m' → Cut m' → C m') : wp p Q C m := by
  refine wp_mono (h m) (fun r m' hr => ?_) fun m' hm => hcut m' hm.1 hm.2
  cases r with
  | true => exact hdone m' (hr.1 rfl).1 (hr.1 rfl).2
  | false => exact hfail m' (hr.2 rfl).1 (hr.2 rfl).2

/-- **Plans compose.** The second plan is begun where the first was done, so
what it needs of the flash is asked of the flash after the first. -/
theorem Drives.andThen {p q : Prog ρ Bool} {plan plan' : List Op} {R S : Mem → Prop}
    (hp : Drives p plan R) (hq : Drives q plan' S) :
    Drives (p.andThen q) (plan ++ plan') (fun f => R f ∧ S (applyAll plan f)) := by
  intro m
  simp only [Prog.andThen, wp_bind]
  refine hp.wp (fun m' hd hR => ?_) (fun m' hs hf => ?_) fun m' hs hc => ⟨hs.append _, hc⟩
  · simp only [if_true]
    refine hq.wp (fun m'' hd' hS => ?_) (fun m'' hs' hf' => ?_) fun m'' hs' hc' =>
      ⟨hd.stops hs', hc'⟩
    · rw [hd.flash] at hS
      exact ⟨fun _ => ⟨hd.trans hd', hR, hS⟩, by simp⟩
    · refine ⟨by simp, fun _ => ⟨hd.stops hs', fun hRS => hd.faulty hs' (hf' ?_)⟩⟩
      rw [hd.flash]
      exact hRS.2
  · simp only [Bool.false_eq_true, if_false, wp_pure]
    exact ⟨by simp, fun _ => ⟨hs.append _, fun hRS => hf hRS.1⟩⟩

/-- The flash that a plan needs may be described differently. -/
theorem Drives.congr {p : Prog ρ Bool} {plan : List Op} {R S : Mem → Prop} (h : Drives p plan R)
    (hRS : ∀ f, R f ↔ S f) : Drives p plan S := by
  have : R = S := funext fun f => propext (hRS f)
  exact this ▸ h

end Nor
