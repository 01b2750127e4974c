import Mathlib.Tactic.Common

/-!
# Runs and ledgers

A system that takes one event after another, some of which may occur in a
state and some not. A ledger counts the steps of a run at which something
happens. When each step keeps an invariant, every state of a run has it;
when each step balances what it adds against what it takes, the whole run
balances.
-/

namespace Ledger

variable {σ ε : Type} (step : ε → σ → σ) (may : ε → σ → Prop)

/-- The state after the events. -/
def run (evs : List ε) (s : σ) : σ := evs.foldl (fun s ev => step ev s) s

/-- Each event may occur in the state it meets. -/
def Legal : List ε → σ → Prop
  | [], _ => True
  | ev :: evs, s => may ev s ∧ Legal evs (step ev s)

/-- How many steps of the run are of the kind `q`. -/
def tally (q : ε → σ → Prop) [∀ ev s, Decidable (q ev s)] : List ε → σ → ℕ
  | [], _ => 0
  | ev :: evs, s => (if q ev s then 1 else 0) + tally q evs (step ev s)

@[simp] theorem run_nil (s : σ) : run step [] s = s := rfl

@[simp] theorem run_cons (ev : ε) (evs : List ε) (s : σ) :
    run step (ev :: evs) s = run step evs (step ev s) := rfl

theorem run_append (evs evs' : List ε) (s : σ) :
    run step (evs ++ evs') s = run step evs' (run step evs s) := by
  simp [run]

variable {step may}

/-- An invariant of the steps is an invariant of the runs. -/
theorem invariant_run {I : σ → Prop} (hstep : ∀ ev s, I s → may ev s → I (step ev s))
    {evs : List ε} {s : σ} (hs : I s) (h : Legal step may evs s) : I (run step evs s) := by
  induction evs generalizing s with
  | nil => exact hs
  | cons ev evs ih => exact ih (hstep ev s hs h.1) h.2

/-- **What goes in comes out, or is still there.** Each step changes the measure
by what it lets in and out, and the steps add up. -/
theorem balance {I : σ → Prop} {q r : ε → σ → Prop} [∀ ev s, Decidable (q ev s)]
    [∀ ev s, Decidable (r ev s)] (m : σ → ℕ)
    (hstep : ∀ ev s, I s → may ev s → I (step ev s))
    (hbal : ∀ ev s, I s → may ev s →
      (if q ev s then 1 else 0) + m s = (if r ev s then 1 else 0) + m (step ev s))
    {evs : List ε} {s : σ} (hs : I s) (h : Legal step may evs s) :
    tally step q evs s + m s = tally step r evs s + m (run step evs s) := by
  induction evs generalizing s with
  | nil => simp [tally]
  | cons ev evs ih =>
    have hone := hbal ev s hs h.1
    have hrest := ih (hstep ev s hs h.1) h.2
    simp only [tally, run_cons]
    omega

end Ledger
