import DeusOs.Common.Nor.Machine

/-!
# Verified operations

The pattern a NOR driver follows: erase a page and read it back as
erased, program a halfword only where the flash reads erased and read it
back, store a run of bytes a halfword at a time and stop at the first
failure. Each drives its plan (`Drives`): what the driver reports as done
is what the flash holds, whatever the controller reported.
-/

namespace Nor

variable {ρ : Type}

/-- Erase, then check that the whole page reads erased. -/
def eraseVerified (page size : ℕ) : Prog ρ Bool := do
  if ← Prog.issue (.erase page size) then
    let f ← Prog.flash
    pure (decide (f.Blank page size))
  else pure false

/-- Program one halfword. The erased value needs no operation; any other
needs an erased destination, and is read back. -/
def programVerified (a v : ℕ) : Prog ρ Bool := do
  let f ← Prog.flash
  if v = 0xFFFF then pure (decide (f.half a = 0xFFFF))
  else if f.half a ≠ 0xFFFF then pure false
  else if ← Prog.issue (.program a v) then
    let f' ← Prog.flash
    pure (decide (f'.half a = v))
  else pure false

/-- Store pairs of bytes through the halfword writer `w`, up to the first
one it refuses. -/
def programEach (w : ℕ → ℕ → Prog ρ Bool) : ℕ → List UInt8 → Prog ρ Bool
  | a, lo :: hi :: bs => (w a (le16 lo hi)).andThen (programEach w (a + 2) bs)
  | _, _ => pure true

/-- Doing nothing drives the empty plan. -/
theorem drives_pure_true : Drives (ρ := ρ) (pure true) [] (fun _ => True) := by
  intro m
  rw [wp_pure]
  exact ⟨fun _ => ⟨Does.refl m, trivial⟩, by simp⟩

variable {m m' : Machine ρ}

/-- One operation issued and reported as failed is a stop inside its plan. -/
theorem stops_single {o : Op} {x : Outcome} (h : Issued m [⟨o, x, m.flash, m.ram⟩] m')
    (hf : m'.flash = if x.done then o.apply m.flash else m.flash) : Stops [o] m m' := by
  refine ⟨⟨_, h, by simp⟩, if x.done then 1 else 0, ?_⟩
  rw [hf]
  cases x.done <;> simp

theorem faulty_single {o : Op} {x : Outcome} (h : Issued m [⟨o, x, m.flash, m.ram⟩] m')
    (hx : x ≠ Outcome.good) : Faulty m m' :=
  h.faulty_iff.2 ⟨_, List.mem_singleton_self _, hx⟩

/-- **A verified erase does its plan from any memory.** Where the page
reads erased, the memory is what the erase makes it, took effect or not. -/
theorem drives_eraseVerified (page size : ℕ) :
    Drives (ρ := ρ) (eraseVerified page size) [.erase page size] (fun _ => True) := by
  intro m
  simp only [eraseVerified, wp_bind]
  refine wp_issue (fun hcut => ⟨Stops.refl _ m, hcut⟩) fun x m' his hf => ?_
  have hstop := stops_single his hf
  have hblank : x.done = true → m'.flash.Blank page size := fun hd => by
    rw [hf, if_pos hd]
    exact Op.blank_apply_erase _ _ _
  cases hok : x.ok with
  | false =>
    simp only [Bool.false_eq_true, if_false, wp_pure]
    exact ⟨by simp, fun _ => ⟨hstop, fun _ => faulty_single his (by rintro rfl; cases hok)⟩⟩
  | true =>
    simp only [if_true, wp_bind, wp_flash, wp_pure, decide_eq_true_eq, decide_eq_false_iff_not]
    constructor
    · intro hb
      refine ⟨⟨⟨_, his, rfl⟩, ?_⟩, trivial⟩
      rw [applyAll_cons, applyAll_nil, hf]
      split
      · rfl
      · rename_i hd
        rw [hf, if_neg hd] at hb
        exact (Op.apply_erase_of_blank hb).symm
    · intro hb
      refine ⟨hstop, fun _ => faulty_single his ?_⟩
      rintro rfl
      exact hb (hblank rfl)

/-- **A verified halfword does its plan where the flash reads erased.**
Programming and reading back make one operation, which succeeds where the two
agree. -/
theorem drives_programVerified (a : ℕ) {v : ℕ} (hv : v < 65536) :
    Drives (ρ := ρ) (programVerified a v) (halfOps a v) (fun f => f.half a = 0xFFFF) := by
  intro m
  simp only [programVerified, wp_bind, wp_flash, wp_ite, wp_pure, decide_eq_true_eq,
    decide_eq_false_iff_not]
  by_cases hff : v = 0xFFFF
  · rw [if_pos hff, halfOps, if_pos hff]
    exact ⟨fun h => ⟨Does.refl m, h⟩, fun h => ⟨Stops.refl _ m, fun h' => absurd h' h⟩⟩
  rw [if_neg hff, halfOps, if_neg hff]
  by_cases hblank : m.flash.half a = 0xFFFF
  · rw [if_neg (not_not_intro hblank)]
    refine wp_issue (fun hcut => ⟨Stops.refl _ m, hcut⟩) fun x m' his hf => ?_
    have hstop := stops_single his hf
    cases hok : x.ok with
    | false =>
      simp only [Bool.false_eq_true, if_false]
      exact ⟨by simp, fun _ => ⟨hstop, fun _ => faulty_single his (by rintro rfl; cases hok)⟩⟩
    | true =>
      simp only [if_true, wp_bind, wp_flash, wp_pure, decide_eq_true_eq, decide_eq_false_iff_not]
      constructor
      · intro hread
        refine ⟨⟨⟨_, his, rfl⟩, ?_⟩, hblank⟩
        rw [applyAll_cons, applyAll_nil, hf]
        split
        · rfl
        · -- not done, yet the read-back passed: the destination would hold the erased value
          rename_i hd
          rw [hf, if_neg hd, hblank] at hread
          exact absurd hread.symm hff
      · intro hread
        refine ⟨hstop, fun _ => faulty_single his ?_⟩
        rintro rfl
        refine hread ?_
        rw [hf]
        exact Op.half_apply_program _ _ hv
  · rw [if_pos hblank]
    exact ⟨by simp, fun _ => ⟨Stops.refl _ m, fun h => absurd h hblank⟩⟩

/-- **A verified halfword that fails changed nothing,** where the operations
say whether they took effect. -/
theorem wp_programVerified_honest (a : ℕ) {v : ℕ} (hv : v < 65536) (m : Machine ρ) :
    wp (programVerified a v) (fun done m' => Honest m → done = false → m'.flash = m.flash)
      (fun _ => True) m := by
  simp only [programVerified, wp_bind, wp_flash, wp_ite, wp_pure]
  split
  · exact fun _ _ => trivial
  split
  · exact fun _ _ => trivial
  · refine wp_issue (fun _ => trivial) fun x m' his hf => ?_
    have htells : Honest m → x.ok = x.done := fun hm => by
      have hout := his.outcome 0 (by simp)
      exact hm 0 x hout
    cases hok : x.ok with
    | false =>
      simp only [Bool.false_eq_true, if_false, wp_pure]
      intro hm _
      have hdone : x.done = false := (htells hm).symm.trans hok
      rw [hf, hdone]
      rfl
    | true =>
      simp only [if_true, wp_bind, wp_flash, wp_pure]
      intro hm hread
      have hdone : x.done = true := (htells hm).symm.trans hok
      rw [hf, hdone] at hread
      exact absurd (Op.half_apply_program m.flash a hv) (by simpa using hread)

/-- **A run of bytes does its plan where its range reads erased**, through
any writer that does so for each halfword of the range. -/
theorem drives_programEach {w : ℕ → ℕ → Prog ρ Bool} {a : ℕ} {bs : List UInt8}
    (hw : ∀ x v, a ≤ x → x + 2 ≤ a + bs.length → (x - a) % 2 = 0 → v < 65536 →
      Drives (w x v) (halfOps x v) (fun f => f.half x = 0xFFFF))
    (heven : bs.length % 2 = 0) :
    Drives (programEach w a bs) (programOps a bs) (fun f => f.Blank a bs.length) := by
  induction a, bs using programOps.induct with
  | case2 bs a hbs =>
    rcases bs with - | ⟨b, - | ⟨hi, bs⟩⟩
    · exact drives_pure_true.congr fun f => by simp [Mem.Blank]
    · simp at heven
    · exact absurd rfl (hbs b hi bs)
  | case1 a lo hi bs ih =>
    simp only [List.length_cons] at hw heven
    have hhead := hw a (le16 lo hi) (Nat.le_refl a) (by omega) (by omega) (le16_lt lo hi)
    have htail := ih (fun x v h1 h2 h3 hv => hw x v (by omega) (by omega) (by omega) hv) (by omega)
    rw [programEach, programOps]
    refine (hhead.andThen htail).congr fun f => ?_
    rw [List.length_cons, List.length_cons, Mem.half_eq_ffff]
    constructor
    · rintro ⟨h0, h1⟩
      rw [show bs.length + 1 + 1 = 2 + bs.length by omega]
      refine h0.append fun i hi' => ?_
      have := h1 i hi'
      rwa [applyAll_of_not_covers] at this
      intro o ho hx
      obtain ⟨rfl, -⟩ := mem_halfOps.1 ho
      simp only [Op.Covers] at hx
      omega
    · intro h
      exact ⟨h.sub (Nat.le_refl a) (by omega), blank_applyAll_halfOps h⟩

/-! ## Programs of which only the flash operations matter -/

/-- Whatever the memory and whatever the fates, `p` issues operations and
does nothing else; it is cut only where the tape ends. -/
def Works (p : Prog ρ Bool) : Prop :=
  ∀ m, wp p (fun _ m' => ∃ es, Issued m es m') (fun m' => (∃ es, Issued m es m') ∧ Cut m') m

/-- A stretch is cut at a place of the tape it began with. -/
theorem Issued.tape_of_cut {es : List (Entry ρ)} (h : Issued m es m') (hc : Cut m') :
    m.tape es.length = none := by
  rw [Cut, h.tape] at hc
  exact hc

/-- Where a reset cut a plan short, the tape says so. -/
theorem Stops.tape_of_cut {plan : List Op} (h : Stops plan m m') (hc : Cut m') :
    ∃ n, m.tape n = none := by
  obtain ⟨es, hes, -⟩ := h.issued
  exact ⟨_, hes.tape_of_cut hc⟩

/-- What drives a plan issues operations only. -/
theorem Drives.works {p : Prog ρ Bool} {plan : List Op} {R : Mem → Prop} (h : Drives p plan R) :
    Works p := by
  intro m
  refine h.wp (fun m' hd _ => ?_) (fun m' hs _ => ?_) fun m' hs hc => ⟨?_, hc⟩
  · obtain ⟨es, hes, -⟩ := hd.issued
    exact ⟨es, hes⟩
  · obtain ⟨es, hes, -⟩ := hs.issued
    exact ⟨es, hes⟩
  · obtain ⟨es, hes, -⟩ := hs.issued
    exact ⟨es, hes⟩

theorem works_pure (b : Bool) : Works (ρ := ρ) (pure b) := fun m => ⟨[], Issued.refl m⟩

theorem works_ite {c : Prop} [Decidable c] {p q : Prog ρ Bool} (hp : Works p) (hq : Works q) :
    Works (if c then p else q) := by
  split
  · exact hp
  · exact hq

/-- Two programs, the second only where the first succeeded, issue operations
only. -/
theorem Works.andThen {p q : Prog ρ Bool} (hp : Works p) (hq : Works q) : Works (p.andThen q) := by
  intro m
  simp only [Prog.andThen, wp_bind]
  refine wp_mono (hp m) (fun b m' hm => ?_) fun m' hm => hm
  obtain ⟨es, hes⟩ := hm
  cases b with
  | false => exact ⟨es, hes⟩
  | true =>
    refine wp_mono (hq m') (fun _ m'' hm' => ?_) fun m'' hm' => ⟨?_, hm'.2⟩
    · obtain ⟨es', hes'⟩ := hm'
      exact ⟨_, hes.trans hes'⟩
    · obtain ⟨es', hes'⟩ := hm'.1
      exact ⟨_, hes.trans hes'⟩

theorem works_programEach {w : ℕ → ℕ → Prog ρ Bool} (hw : ∀ x v, v < 65536 → Works (w x v))
    (a : ℕ) (bs : List UInt8) : Works (programEach w a bs) := by
  induction a, bs using programEach.induct with
  | case1 a lo hi bs ih => exact (hw a _ (le16_lt lo hi)).andThen ih
  | case2 bs a hbs =>
    rcases bs with - | ⟨b, - | ⟨hi, bs⟩⟩
    · exact works_pure true
    · exact works_pure true
    · exact absurd rfl (hbs b hi bs)

end Nor
