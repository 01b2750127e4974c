import Mathlib.Data.List.Basic
import Mathlib.Data.List.Perm.Basic
import Mathlib.Tactic.Common

/-!
# Keyed messages in flight

A list of messages, each with a key. `pick` finds the first message with a
key, `discard` removes it. Where no two messages share a key, `pick` and
`discard` split the list in the message and the rest.
-/

namespace Mailbox

variable {α κ : Type} [DecidableEq κ] (key : α → κ)

/-- The first message with the key. -/
def pick (k : κ) (l : List α) : Option α := l.find? fun a => decide (key a = k)

/-- The list without it. -/
def discard (k : κ) (l : List α) : List α := l.eraseP fun a => decide (key a = k)

variable {key} {k k' : κ} {l : List α} {a : α}

/-- Discarding removes, and reorders nothing. -/
theorem discard_sublist : (discard key k l).Sublist l := List.eraseP_sublist

/-- What is picked has the key that was asked for. -/
theorem key_of_pick (h : pick key k l = some a) : key a = k := by
  simpa using List.find?_some h

/-- What is picked was there. -/
theorem mem_of_pick (h : pick key k l = some a) : a ∈ l := List.mem_of_find?_eq_some h

theorem pick_eq_none : pick key k l = none ↔ k ∉ l.map key := by
  simp [pick, List.find?_eq_none]

/-- A key in the list is found. -/
theorem exists_pick (h : k ∈ l.map key) : ∃ a, pick key k l = some a := by
  cases hp : pick key k l with
  | none => exact absurd h (pick_eq_none.1 hp)
  | some a => exact ⟨a, rfl⟩

/-- **The message and the rest** are what was there: picking one takes it and no
other. -/
theorem perm_of_pick (h : pick key k l = some a) : l.Perm (a :: discard key k l) := by
  have hmem := mem_of_pick h
  induction l with
  | nil => cases hmem
  | cons b l ih =>
    by_cases hb : key b = k
    · have hab : b = a := by
        simpa [pick, hb] using h
      subst hab
      simp [discard, hb]
    · have h' : pick key k l = some a := by
        simpa [pick, hb] using h
      have hne : discard key k (b :: l) = b :: discard key k l := by
        simp [discard, hb]
      rw [hne]
      exact ((ih h' (mem_of_pick h')).cons b).trans (List.Perm.swap a b _)

/-- Messages with another key stay. -/
theorem mem_discard_of_ne (h : a ∈ l) (hne : key a ≠ k) : a ∈ discard key k l :=
  (List.mem_eraseP_of_neg (by simpa using hne)).2 h

/-- Discarding one key leaves every other one. -/
theorem mem_map_discard_of_ne (h : k' ∈ l.map key) (hne : k' ≠ k) :
    k' ∈ (discard key k l).map key := by
  obtain ⟨a, ha, rfl⟩ := List.mem_map.1 h
  exact List.mem_map_of_mem (mem_discard_of_ne ha hne)

/-- Where keys are unique, the key is gone. -/
theorem not_mem_map_discard (h : (l.map key).Nodup) : k ∉ (discard key k l).map key := by
  cases hp : pick key k l with
  | none => exact fun hk => pick_eq_none.1 hp ((discard_sublist.map key).subset hk)
  | some a =>
    have hperm := (perm_of_pick hp).map key
    rw [List.map_cons, key_of_pick hp] at hperm
    exact (List.nodup_cons.1 (hperm.nodup_iff.1 h)).1

end Mailbox
