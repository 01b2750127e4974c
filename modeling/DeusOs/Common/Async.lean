import Mathlib.Tactic.Common

/-!
# Programs that wait

A program over a state that may wait for its environment. The environment
is a list of events: a program takes from it where it waits, and what it
leaves is there for whoever waits next. A run returns, throws, or is still
waiting when the events are used up.

`Triple` is partial correctness over every list of events; `await_quiet`
and `await_signal` run a wait over a list that is known.
-/

namespace Async

variable {σ ε E α β : Type}

/-- How a run ends, with the state it leaves and the events it left. -/
inductive Completion (σ ε E α : Type)
  | returned (a : α) (s : σ) (evs : List ε)
  | threw (e : E) (s : σ) (evs : List ε)
  | pending (s : σ)

/-- A program. -/
def Prog (σ ε E α : Type) := σ → List ε → Completion σ ε E α

namespace Prog

/-- Return. -/
def ret (a : α) : Prog σ ε E α := fun s evs => .returned a s evs

/-- One after the other. -/
def andThen (p : Prog σ ε E α) (g : α → Prog σ ε E β) : Prog σ ε E β := fun s evs =>
  match p s evs with
  | .returned a s evs => g a s evs
  | .threw e s evs => .threw e s evs
  | .pending s => .pending s

instance : Monad (Prog σ ε E) where
  pure := ret
  bind := andThen

/-- Throw. -/
def raise (e : E) : Prog σ ε E α := fun s evs => .threw e s evs

/-- Catch. -/
def handle (p : Prog σ ε E α) (g : E → Prog σ ε E α) : Prog σ ε E α := fun s evs =>
  match p s evs with
  | .returned a s evs => .returned a s evs
  | .threw e s evs => g e s evs
  | .pending s => .pending s

/-- Change the state, and return or throw. -/
def act (g : σ → σ × Except E α) : Prog σ ε E α := fun s evs =>
  match g s with
  | (s, .ok a) => .returned a s evs
  | (s, .error e) => .threw e s evs

/-- A computation that may fail. -/
def lift : Except E α → Prog σ ε E α
  | .ok a => ret a
  | .error e => raise e

/-- Wait: each event changes the state, until one gives a result. -/
def await (g : ε → σ → σ × Option (Except E α)) : Prog σ ε E α
  | s, [] => .pending s
  | s, e :: evs =>
    match g e s with
    | (s, none) => await g s evs
    | (s, some (.ok a)) => .returned a s evs
    | (s, some (.error x)) => .threw x s evs

end Prog

open Prog

/-! ## Partial correctness -/

/-- From a state in `P`, a run that returns is in `Q`, and one that throws
in `R`. -/
def Triple (P : σ → Prop) (p : Prog σ ε E α) (Q : α → σ → Prop) (R : E → σ → Prop) : Prop :=
  ∀ s evs, P s →
    (∀ a s' evs', p s evs = .returned a s' evs' → Q a s') ∧
      ∀ e s' evs', p s evs = .threw e s' evs' → R e s'

section rules

variable {P P' : σ → Prop} {Q Q' : α → σ → Prop} {R R' : E → σ → Prop} {p : Prog σ ε E α}

/-- **Consequence.** Less may be assumed of the start, and more of each of the
two ends. -/
theorem Triple.conseq (h : Triple P p Q R) (hP : ∀ s, P' s → P s) (hQ : ∀ a s, Q a s → Q' a s)
    (hR : ∀ e s, R e s → R' e s) : Triple P' p Q' R' := fun s evs hs =>
  ⟨fun a s' evs' hrun => hQ a s' ((h s evs (hP s hs)).1 a s' evs' hrun),
    fun e s' evs' hrun => hR e s' ((h s evs (hP s hs)).2 e s' evs' hrun)⟩

/-- A program that returns keeps what its value satisfies. -/
theorem Triple.ret {a : α} (h : ∀ s, P s → Q a s) : Triple P (pure a : Prog σ ε E α) Q R :=
  fun s evs hs => by
    refine ⟨fun a' s' evs' hrun => ?_, fun e s' evs' hrun => ?_⟩
    · cases hrun
      exact h s hs
    · cases hrun

/-- A program that throws ends in the post-condition of errors. -/
theorem Triple.raise {e : E} (h : ∀ s, P s → R e s) : Triple P (raise e : Prog σ ε E α) Q R :=
  fun s evs hs => by
    refine ⟨fun a' s' evs' hrun => ?_, fun e s' evs' hrun => ?_⟩
    · cases hrun
    · cases hrun
      exact h s hs

/-- **Sequence.** What the first program ends with is what the second begins
with; its errors are the errors of both. -/
theorem Triple.bind {g : α → Prog σ ε E β} {Q₂ : β → σ → Prop} (h : Triple P p Q R)
    (hg : ∀ a, Triple (Q a) (g a) Q₂ R) : Triple P (p >>= g) Q₂ R := by
  intro s evs hs
  obtain ⟨hret, hthrow⟩ := h s evs hs
  show (∀ a s' evs', andThen p g s evs = .returned a s' evs' → Q₂ a s') ∧
    ∀ e s' evs', andThen p g s evs = .threw e s' evs' → R e s'
  unfold andThen
  cases hrun : p s evs with
  | returned a s₁ evs₁ => exact hg a s₁ evs₁ (hret a s₁ evs₁ hrun)
  | threw e s₁ evs₁ =>
    refine ⟨fun a s' evs' h' => ?_, fun e' s' evs' h' => ?_⟩
    · cases h'
    · cases h'
      exact hthrow _ _ _ hrun
  | pending s₁ =>
    refine ⟨fun a s' evs' h' => ?_, fun e' s' evs' h' => ?_⟩ <;> cases h'

/-- **Catching.** The handler begins where the program threw, and its errors are
what is left of them. -/
theorem Triple.handle {g : E → Prog σ ε E α} {R₂ : E → σ → Prop} (h : Triple P p Q R)
    (hg : ∀ e, Triple (R e) (g e) Q R₂) : Triple P (handle p g) Q R₂ := by
  intro s evs hs
  obtain ⟨hret, hthrow⟩ := h s evs hs
  unfold Prog.handle
  cases hrun : p s evs with
  | returned a s₁ evs₁ =>
    refine ⟨fun a' s' evs' h' => ?_, fun e' s' evs' h' => ?_⟩
    · cases h'
      exact hret _ _ _ hrun
    · cases h'
  | threw e s₁ evs₁ => exact hg e s₁ evs₁ (hthrow e s₁ evs₁ hrun)
  | pending s₁ =>
    refine ⟨fun a s' evs' h' => ?_, fun e' s' evs' h' => ?_⟩ <;> cases h'

/-- An action on the state, by what it does where it succeeds and where it
fails. It waits for nothing. -/
theorem Triple.act {g : σ → σ × Except E α}
    (hok : ∀ s s' a, P s → g s = (s', .ok a) → Q a s')
    (herr : ∀ s s' e, P s → g s = (s', .error e) → R e s') : Triple P (act g : Prog σ ε E α) Q R := by
  intro s evs hs
  unfold Prog.act
  rcases hg : g s with ⟨s₁, e | a⟩
  · refine ⟨fun a' s' evs' h' => ?_, fun e' s' evs' h' => ?_⟩ <;> cases h'
    exact herr s _ _ hs hg
  · refine ⟨fun a' s' evs' h' => ?_, fun e' s' evs' h' => ?_⟩ <;> cases h'
    exact hok s _ _ hs hg

/-- A computation that can fail and leaves the state alone. -/
theorem Triple.lift {x : Except E α} (hok : ∀ s a, P s → x = .ok a → Q a s)
    (herr : ∀ s e, P s → x = .error e → R e s) : Triple P (lift x : Prog σ ε E α) Q R := by
  rcases x with e | a
  · exact Triple.raise fun s hs => herr s e hs rfl
  · exact Triple.ret fun s hs => hok s a hs rfl

/-- **Waiting keeps an invariant**: every event keeps it, gives a result in
`Q`, or throws into `R`. -/
theorem Triple.await {g : ε → σ → σ × Option (Except E α)}
    (hnone : ∀ e s s', P s → g e s = (s', none) → P s')
    (hok : ∀ e s s' a, P s → g e s = (s', some (.ok a)) → Q a s')
    (herr : ∀ e s s' x, P s → g e s = (s', some (.error x)) → R x s') :
    Triple P (await g) Q R := by
  intro s evs
  induction evs generalizing s with
  | nil =>
    intro _
    refine ⟨fun a s' evs' h' => ?_, fun e' s' evs' h' => ?_⟩ <;> cases h'
  | cons e evs ih =>
    intro hs
    unfold Prog.await
    rcases hg : g e s with ⟨s₁, - | (x | a)⟩
    · exact ih s₁ (hnone e s s₁ hs hg)
    · refine ⟨fun a' s' evs' h' => ?_, fun e' s' evs' h' => ?_⟩ <;> cases h'
      exact herr e s _ _ hs hg
    · refine ⟨fun a' s' evs' h' => ?_, fun e' s' evs' h' => ?_⟩ <;> cases h'
      exact hok e s _ _ hs hg

/-- What a wait may come to with one event: it goes on in `P`, gives a result
in `Q`, or throws into `R`. -/
def Waits (P : σ → Prop) (Q : α → σ → Prop) (R : E → σ → Prop) :
    σ × Option (Except E α) → Prop
  | (s, none) => P s
  | (s, some (.ok a)) => Q a s
  | (s, some (.error x)) => R x s

/-- **Waiting, event by event.** Whatever the event, the waiting goes on with
the precondition kept, or ends as it may. -/
theorem Triple.await_of {g : ε → σ → σ × Option (Except E α)}
    (h : ∀ e s, P s → Waits P Q R (g e s)) : Triple P (Prog.await g) Q R := by
  refine Triple.await ?_ ?_ ?_
  · intro e s s' hs hg
    have hw := h e s hs
    rw [hg] at hw
    exact hw
  · intro e s s' a hs hg
    have hw := h e s hs
    rw [hg] at hw
    exact hw
  · intro e s s' x hs hg
    have hw := h e s hs
    rw [hg] at hw
    exact hw

end rules

/-! ## Runs -/

section runs

variable {p : Prog σ ε E α} {s s' : σ} {evs evs' : List ε}

/-- The continuation goes on from where the first program returned, with the
events that it left. -/
theorem bind_returned {g : α → Prog σ ε E β} {a : α} (h : p s evs = .returned a s' evs') :
    (p >>= g) s evs = g a s' evs' := by
  show andThen p g s evs = _
  rw [andThen, h]

/-- An error skips the continuation. -/
theorem bind_threw {g : α → Prog σ ε E β} {e : E} (h : p s evs = .threw e s' evs') :
    (p >>= g) s evs = .threw e s' evs' := by
  show andThen p g s evs = _
  rw [andThen, h]

/-- A computation that succeeded is its value. -/
theorem lift_bind (a : α) (g : α → Prog σ ε E β) : (lift (.ok a) >>= g) = g a := rfl

/-- A handler has nothing to do where its program returned. -/
theorem handle_returned {g : E → Prog σ ε E α} {a : α} (h : p s evs = .returned a s' evs') :
    handle p g s evs = .returned a s' evs' := by
  rw [Prog.handle, h]

/-- A handler goes on from where its program threw, with the events that it
left. -/
theorem handle_threw {g : E → Prog σ ε E α} {e : E} (h : p s evs = .threw e s' evs') :
    handle p g s evs = g e s' evs' := by
  rw [Prog.handle, h]

/-- **A wait runs through events that give nothing**, keeping an invariant
that says so. -/
theorem await_quiet {g : ε → σ → σ × Option (Except E α)} {P : σ → Prop} {quiet : ε → Prop}
    (hstep : ∀ e s, P s → quiet e → ∃ s', g e s = (s', none) ∧ P s')
    (hs : P s) (hevs : ∀ e ∈ evs, quiet e) (evs' : List ε) :
    ∃ s', P s' ∧ await g s (evs ++ evs') = await g s' evs' := by
  induction evs generalizing s with
  | nil => exact ⟨s, hs, rfl⟩
  | cons e evs ih =>
    obtain ⟨s₁, hg, hs₁⟩ := hstep e s hs (hevs e List.mem_cons_self)
    obtain ⟨s₂, hs₂, hrun⟩ := ih hs₁ fun e' he' => hevs e' (List.mem_cons_of_mem e he')
    refine ⟨s₂, hs₂, ?_⟩
    rw [List.cons_append, Prog.await, hg]
    exact hrun

/-- An event that settles nothing is taken, and the waiting goes on. -/
theorem await_none {g : ε → σ → σ × Option (Except E α)} {e : ε} (h : g e s = (s', none)) :
    await g s (e :: evs) = await g s' evs := by
  rw [Prog.await, h]

/-- An event that brings a value ends the waiting, and the rest is left. -/
theorem await_ok {g : ε → σ → σ × Option (Except E α)} {e : ε} {a : α}
    (h : g e s = (s', some (.ok a))) : await g s (e :: evs) = .returned a s' evs := by
  rw [Prog.await, h]

/-- An event that brings an error ends the waiting with it. -/
theorem await_error {g : ε → σ → σ × Option (Except E α)} {e : ε} {x : E}
    (h : g e s = (s', some (.error x))) : await g s (e :: evs) = .threw x s' evs := by
  rw [Prog.await, h]

end runs

/-! ## Events that are taken -/

/-- A run that returns or throws has taken so many events at least. -/
def Takes (k : ℕ) (p : Prog σ ε E α) : Prop :=
  ∀ s evs, (∀ a s' evs', p s evs = .returned a s' evs' → evs'.length + k ≤ evs.length) ∧
    ∀ e s' evs', p s evs = .threw e s' evs' → evs'.length + k ≤ evs.length

section takes

variable {p : Prog σ ε E α} {k : ℕ}

theorem takes_act (g : σ → σ × Except E α) : Takes 0 (Prog.act g : Prog σ ε E α) := by
  intro s evs
  unfold Prog.act
  rcases g s with ⟨s₁, e | a⟩
  · refine ⟨fun a' s' evs' h' => ?_, fun e' s' evs' h' => ?_⟩ <;> cases h'
    exact Nat.le_refl _
  · refine ⟨fun a' s' evs' h' => ?_, fun e' s' evs' h' => ?_⟩ <;> cases h'
    exact Nat.le_refl _

theorem takes_ret (a : α) : Takes 0 (pure a : Prog σ ε E α) := by
  refine fun s evs => ⟨fun a' s' evs' h' => ?_, fun e' s' evs' h' => ?_⟩ <;> cases h'
  exact Nat.le_refl _

theorem takes_raise (e : E) : Takes 0 (raise e : Prog σ ε E α) := by
  refine fun s evs => ⟨fun a' s' evs' h' => ?_, fun e' s' evs' h' => ?_⟩ <;> cases h'
  exact Nat.le_refl _

/-- A wait takes the event that ends it. -/
theorem takes_await (g : ε → σ → σ × Option (Except E α)) :
    Takes 1 (Prog.await g : Prog σ ε E α) := by
  intro s evs
  induction evs generalizing s with
  | nil => refine ⟨fun a' s' evs' h' => ?_, fun e' s' evs' h' => ?_⟩ <;> cases h'
  | cons e evs ih =>
    unfold Prog.await
    rcases g e s with ⟨s₁, - | (x | a)⟩
    · obtain ⟨hret, hthrow⟩ := ih s₁
      exact ⟨fun a' s' evs' h' => Nat.le_succ_of_le (hret a' s' evs' h'),
        fun e' s' evs' h' => Nat.le_succ_of_le (hthrow e' s' evs' h')⟩
    · refine ⟨fun a' s' evs' h' => ?_, fun e' s' evs' h' => ?_⟩ <;> cases h'
      exact Nat.le_refl _
    · refine ⟨fun a' s' evs' h' => ?_, fun e' s' evs' h' => ?_⟩ <;> cases h'
      exact Nat.le_refl _

/-- What the first program takes, the whole does at least. -/
theorem Takes.bind {g : α → Prog σ ε E β} (h : Takes k p) (hg : ∀ a, Takes 0 (g a)) :
    Takes k (p >>= g) := by
  intro s evs
  obtain ⟨hret, hthrow⟩ := h s evs
  show (∀ a s' evs', andThen p g s evs = .returned a s' evs' → _) ∧
    ∀ e s' evs', andThen p g s evs = .threw e s' evs' → _
  unfold andThen
  cases hrun : p s evs with
  | returned a s₁ evs₁ =>
    have hle := hret a s₁ evs₁ hrun
    obtain ⟨hret', hthrow'⟩ := hg a s₁ evs₁
    exact ⟨fun a' s' evs' h' => Nat.le_trans (Nat.add_le_add_right (hret' a' s' evs' h') k) hle,
      fun e' s' evs' h' => Nat.le_trans (Nat.add_le_add_right (hthrow' e' s' evs' h') k) hle⟩
  | threw e s₁ evs₁ =>
    refine ⟨fun a s' evs' h' => ?_, fun e' s' evs' h' => ?_⟩ <;> cases h'
    exact hthrow _ _ _ hrun
  | pending s₁ => refine ⟨fun a s' evs' h' => ?_, fun e' s' evs' h' => ?_⟩ <;> cases h'

/-- A handled program gives no event back. -/
theorem Takes.handle {g : E → Prog σ ε E α} (h : Takes 0 p) (hg : ∀ e, Takes 0 (g e)) :
    Takes 0 (Prog.handle p g) := by
  intro s evs
  obtain ⟨hret, hthrow⟩ := h s evs
  unfold Prog.handle
  cases hrun : p s evs with
  | returned a s₁ evs₁ =>
    refine ⟨fun a' s' evs' h' => ?_, fun e' s' evs' h' => ?_⟩ <;> cases h'
    exact hret _ _ _ hrun
  | threw e s₁ evs₁ =>
    have hle := hthrow e s₁ evs₁ hrun
    obtain ⟨hret', hthrow'⟩ := hg e s₁ evs₁
    exact ⟨fun a' s' evs' h' => Nat.le_trans (hret' a' s' evs' h') hle,
      fun e' s' evs' h' => Nat.le_trans (hthrow' e' s' evs' h') hle⟩
  | pending s₁ => refine ⟨fun a s' evs' h' => ?_, fun e' s' evs' h' => ?_⟩ <;> cases h'

/-- Whatever a program takes, it gives no event back. -/
theorem Takes.zero (h : Takes k p) : Takes 0 p := by
  intro s evs
  obtain ⟨hret, hthrow⟩ := h s evs
  exact ⟨fun a s' evs' h' => Nat.le_trans (Nat.le_add_right _ k) (hret a s' evs' h'),
    fun e s' evs' h' => Nat.le_trans (Nat.le_add_right _ k) (hthrow e s' evs' h')⟩

/-- Programs that agree where the first has run agree. -/
theorem bind_congr_of_takes {g g' : α → Prog σ ε E β} (h : Takes k p) {s : σ} {evs : List ε}
    (hg : ∀ a s' evs', evs'.length + k ≤ evs.length → g a s' evs' = g' a s' evs') :
    (p >>= g) s evs = (p >>= g') s evs := by
  show andThen p g s evs = andThen p g' s evs
  unfold andThen
  cases hrun : p s evs with
  | returned a s₁ evs₁ => exact hg a s₁ evs₁ ((h s evs).1 a s₁ evs₁ hrun)
  | threw e s₁ evs₁ => rfl
  | pending s₁ => rfl

end takes

end Async
