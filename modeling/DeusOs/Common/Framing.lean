import Mathlib.Data.List.Induction
import Mathlib.Tactic.Common

/-!
# Frames in a stream

A frame is two marks, a header of fixed length, a body whose length the
header announces, and a trailer of fixed length. `step` reads a stream one
symbol at a time and claims what follows two marks, up to the length that
its header announces; past a header that announces too much it looks for
the next two marks.

A frame that is read to its end was sent as such (`run_frame`), a frame sent
between frames is read (`trace_wire`), and enough symbols that are no first
mark bring the reader between frames from anywhere (`settled_of_filler`).
-/

namespace Framing

variable {α : Type}

/-- How frames are marked off. -/
structure Format (α : Type) where
  mark₀ : α
  mark₁ : α
  /-- The length of the header. -/
  header : ℕ
  /-- The length of the body that a header announces. -/
  size : List α → ℕ
  /-- The longest body. -/
  max : ℕ
  /-- The length of the trailer. -/
  trailer : ℕ
  /-- Header, body and trailer belong together. -/
  checks : List α → Bool
  marks : mark₀ ≠ mark₁
  header_pos : 0 < header
  trailer_pos : 0 < trailer

/-- Where the reader is. -/
inductive State (α : Type)
  /-- Between frames. -/
  | outside
  /-- Behind a first mark. -/
  | marked
  /-- Behind two marks and what is held. -/
  | inside (held : List α)
  /-- Behind a header that announced too much. -/
  | lost
  /-- The same, behind a first mark. -/
  | lostMarked
  deriving DecidableEq

/-- What a symbol produces. -/
inductive Event (α : Type)
  | quiet
  /-- The symbol belongs to no frame. -/
  | text
  /-- The symbol before was a first mark, and this is no second one; it may
  be a first mark itself. -/
  | unmarked (again : Bool)
  | tooLong
  | bad
  | frame (held : List α)
  deriving DecidableEq

variable (F : Format α)

/-- How long a frame is behind its marks. -/
def Format.whole (held : List α) : ℕ := F.header + F.size (held.take F.header) + F.trailer

/-- Behind two marks, with one symbol more. -/
def claim (held : List α) : State α × Event α :=
  if held.length < F.header then (.inside held, .quiet)
  else if F.max < F.size (held.take F.header) then (.lost, .tooLong)
  else if held.length < F.whole held then (.inside held, .quiet)
  else if F.checks held then (.outside, .frame held)
  else (.outside, .bad)

section reader

variable [DecidableEq α]

/-- One symbol. -/
def step (x : α) : State α → State α × Event α
  | .outside => if x = F.mark₀ then (.marked, .quiet) else (.outside, .text)
  | .marked =>
    if x = F.mark₁ then (.inside [], .quiet)
    else if x = F.mark₀ then (.marked, .unmarked true)
    else (.outside, .unmarked false)
  | .inside held => claim F (held ++ [x])
  | .lost => if x = F.mark₀ then (.lostMarked, .quiet) else (.lost, .quiet)
  | .lostMarked =>
    if x = F.mark₁ then (.inside [], .quiet)
    else if x = F.mark₀ then (.lostMarked, .quiet)
    else (.lost, .quiet)

/-- Where a stream leaves the reader. -/
def run (s : State α) (xs : List α) : State α := xs.foldl (fun s x => (step F x s).1) s

/-- What a stream produces, symbol by symbol. -/
def trace (s : State α) : List α → List (Event α)
  | [] => []
  | x :: xs => (step F x s).2 :: trace (step F x s).1 xs

end reader

/-- The frame on the wire. -/
def Format.wire (held : List α) : List α := F.mark₀ :: F.mark₁ :: held

/-- A whole frame. -/
structure Format.Whole (held : List α) : Prop where
  length : held.length = F.whole held
  max : F.size (held.take F.header) ≤ F.max
  checks : F.checks held = true

/-- Part of a frame. -/
def Format.Part (held : List α) : Prop :=
  held.length < F.header ∨
    F.size (held.take F.header) ≤ F.max ∧ held.length < F.whole held

variable {F} {s : State α} {x : α} {xs ys held : List α}

/-! ## What is held -/

/-- What a symbol more does with what is held. -/
theorem claim_cases (held : List α) :
    (F.Part held ∧ claim F held = (.inside held, .quiet)) ∨
      (F.header ≤ held.length ∧ F.max < F.size (held.take F.header) ∧
        claim F held = (.lost, .tooLong)) ∨
      (F.size (held.take F.header) ≤ F.max ∧ F.whole held ≤ held.length ∧
        claim F held = (.outside, if F.checks held then .frame held else .bad)) := by
  unfold claim Format.Part
  by_cases h1 : held.length < F.header
  · exact Or.inl ⟨Or.inl h1, if_pos h1⟩
  · by_cases h2 : F.max < F.size (held.take F.header)
    · exact Or.inr (Or.inl ⟨by omega, h2, by rw [if_neg h1, if_pos h2]⟩)
    · by_cases h3 : held.length < F.whole held
      · exact Or.inl ⟨Or.inr ⟨by omega, h3⟩, by rw [if_neg h1, if_neg h2, if_pos h3]⟩
      · refine Or.inr (Or.inr ⟨by omega, by omega, ?_⟩)
        rw [if_neg h1, if_neg h2, if_neg h3]
        split <;> rfl

/-- A part of a frame is held on to. -/
theorem claim_part (h : F.Part held) : claim F held = (.inside held, .quiet) := by
  unfold Format.Part at h
  unfold claim
  by_cases h1 : held.length < F.header
  · exact if_pos h1
  · rcases h with h | ⟨h2, h3⟩
    · exact absurd h h1
    · rw [if_neg h1, if_neg (by omega), if_pos h3]

/-- A whole frame is handed out, and nothing is held. -/
theorem claim_whole (h : F.Whole held) : claim F held = (.outside, .frame held) := by
  have hlen := h.length
  have hmax := h.max
  have hpos := F.header_pos
  unfold claim
  rw [if_neg (by unfold Format.whole at hlen; omega), if_neg (by omega), if_neg (by omega),
    if_pos h.checks]

theorem part_nil : F.Part ([] : List α) := Or.inl F.header_pos

/-- The header decides how long the frame is. -/
theorem whole_take {n : ℕ} (h : F.header ≤ n) (held : List α) :
    F.whole (held.take n) = F.whole held := by
  unfold Format.whole
  rw [List.take_take, Nat.min_eq_left h]

/-- A frame that is not whole yet is a part. -/
theorem Format.Whole.part {n : ℕ} (h : F.Whole held) (hn : n < held.length) :
    F.Part (held.take n) := by
  have hlen := h.length
  have hmax := h.max
  have htake : (held.take n).length = n := by
    rw [List.length_take]
    omega
  by_cases hhead : n < F.header
  · exact Or.inl (by omega)
  · refine Or.inr ⟨?_, ?_⟩
    · rw [List.take_take, Nat.min_eq_left (by omega)]
      exact hmax
    · rw [whole_take (by omega), htake]
      omega

/-- Where the reader can be. -/
def Sound (F : Format α) : State α → Prop
  | .inside held => F.Part held
  | _ => True

/-- Between frames. -/
def State.Settled : State α → Prop
  | .outside | .lost => True
  | _ => False

/-- Inside a frame, or past one that announced too much. -/
def State.Claims : State α → Prop
  | .outside | .marked => False
  | _ => True

/-- How many symbols that are no first mark the reader may claim. -/
def claimable (F : Format α) : State α → ℕ
  | .outside | .lost => 0
  | .marked | .lostMarked => 1 + (F.header + F.max + F.trailer)
  | .inside held => F.header + F.max + F.trailer - held.length

theorem claimable_le (s : State α) : claimable F s ≤ 1 + (F.header + F.max + F.trailer) := by
  cases s <;> simp only [claimable] <;> omega

/-- With nothing to claim, the reader is between frames. -/
theorem settled_of_claimable (hs : Sound F s) (h : claimable F s = 0) : s.Settled := by
  cases s with
  | outside => trivial
  | lost => trivial
  | marked => simp [claimable] at h
  | lostMarked => simp [claimable] at h
  | inside held =>
    simp only [claimable] at h
    have hpos := F.trailer_pos
    rcases hs with hshort | ⟨hmax, hshort⟩
    · omega
    · unfold Format.whole at hshort
      omega

variable [DecidableEq α]

theorem run_nil (s : State α) : run F s [] = s := rfl

theorem run_cons (s : State α) (x : α) (xs : List α) :
    run F s (x :: xs) = run F (step F x s).1 xs := rfl

theorem run_append (s : State α) (xs ys : List α) :
    run F s (xs ++ ys) = run F (run F s xs) ys := List.foldl_append

theorem run_concat (s : State α) (xs : List α) (x : α) :
    run F s (xs ++ [x]) = (step F x (run F s xs)).1 := by
  rw [run_append, run_cons, run_nil]

theorem trace_append (s : State α) (xs ys : List α) :
    trace F s (xs ++ ys) = trace F s xs ++ trace F (run F s xs) ys := by
  induction xs generalizing s with
  | nil => rfl
  | cons x xs ih => rw [List.cons_append, trace, trace, ih, run_cons, List.cons_append]

theorem length_trace (s : State α) (xs : List α) : (trace F s xs).length = xs.length := by
  induction xs generalizing s with
  | nil => rfl
  | cons x xs ih => rw [trace, List.length_cons, ih, List.length_cons]

/-! ## Moves -/

/-- What a symbol can do. -/
inductive Move (F : Format α) : State α → α → State α → Event α → Prop
  | text {x : α} : x ≠ F.mark₀ → Move F .outside x .outside .text
  | mark : Move F .outside F.mark₀ .marked .quiet
  | begins : Move F .marked F.mark₁ (.inside []) .quiet
  | again : Move F .marked F.mark₀ .marked (.unmarked true)
  | unmarked {x : α} : x ≠ F.mark₀ → x ≠ F.mark₁ → Move F .marked x .outside (.unmarked false)
  | lose {x : α} : x ≠ F.mark₀ → Move F .lost x .lost .quiet
  | lostMark : Move F .lost F.mark₀ .lostMarked .quiet
  | resumes : Move F .lostMarked F.mark₁ (.inside []) .quiet
  | lostAgain : Move F .lostMarked F.mark₀ .lostMarked .quiet
  | loseAgain {x : α} : x ≠ F.mark₀ → x ≠ F.mark₁ → Move F .lostMarked x .lost .quiet
  | part {held : List α} {x : α} : F.Part (held ++ [x]) →
      Move F (.inside held) x (.inside (held ++ [x])) .quiet
  | tooLong {held : List α} {x : α} : Move F (.inside held) x .lost .tooLong
  | bad {held : List α} {x : α} : Move F (.inside held) x .outside .bad
  | frame {held : List α} {x : α} : F.size ((held ++ [x]).take F.header) ≤ F.max →
      F.whole (held ++ [x]) ≤ (held ++ [x]).length → F.checks (held ++ [x]) = true →
      Move F (.inside held) x .outside (.frame (held ++ [x]))

/-- **What a step does:** one of the moves, by where the reader is and what the
symbol is. Everything else about a step is derived from this. -/
theorem move_step (F : Format α) (s : State α) (x : α) : Move F s x (step F x s).1 (step F x s).2 := by
  have hne := F.marks
  cases s with
  | outside =>
    by_cases h0 : x = F.mark₀
    · subst h0
      simpa only [step, if_true] using Move.mark
    · simpa only [step, if_neg h0] using Move.text h0
  | lost =>
    by_cases h0 : x = F.mark₀
    · subst h0
      simpa only [step, if_true] using Move.lostMark
    · simpa only [step, if_neg h0] using Move.lose h0
  | marked =>
    by_cases h1 : x = F.mark₁
    · subst h1
      simpa only [step, if_true] using Move.begins
    · by_cases h0 : x = F.mark₀
      · subst h0
        simpa only [step, if_true, if_neg h1] using Move.again
      · simpa only [step, if_neg h0, if_neg h1] using Move.unmarked h0 h1
  | lostMarked =>
    by_cases h1 : x = F.mark₁
    · subst h1
      simpa only [step, if_true] using Move.resumes
    · by_cases h0 : x = F.mark₀
      · subst h0
        simpa only [step, if_true, if_neg h1] using Move.lostAgain
      · simpa only [step, if_neg h0, if_neg h1] using Move.loseAgain h0 h1
  | inside held =>
    rw [step]
    rcases claim_cases (F := F) (held ++ [x]) with ⟨hpart, h⟩ | ⟨-, -, h⟩ | ⟨hmax, hlong, h⟩
    · rw [h]
      exact .part hpart
    · rw [h]
      exact .tooLong
    · rw [h]
      by_cases hchecks : F.checks (held ++ [x]) = true
      · rw [if_pos hchecks]
        exact .frame hmax hlong hchecks
      · rw [if_neg hchecks]
        exact .bad

omit [DecidableEq α] in
/-- **The reader holds part of a frame at most,** since what is no part any more
is thrown away at once. -/
theorem Move.sound {s' : State α} {e : Event α} (h : Move F s x s' e) : Sound F s' := by
  cases h with
  | part h => exact h
  | begins => exact part_nil
  | resumes => exact part_nil
  | _ => trivial

/-- What is held stays a part of a frame, over every run. -/
theorem sound_run (hs : Sound F s) (xs : List α) : Sound F (run F s xs) := by
  induction xs generalizing s with
  | nil => exact hs
  | cons x xs ih => exact ih (move_step F s x).sound

omit [DecidableEq α] in
/-- What belongs to no frame is not claimed by one. -/
theorem Move.not_claims {s' : State α} {e : Event α} (h : Move F s x s' e)
    (he : e = .text ∨ e = .unmarked false) : ¬ s.Claims := by
  cases h with
  | text => exact id
  | unmarked => exact id
  | _ => exact absurd he (by simp)

/-! ## What was read -/

/-- The stream ends with what the reader holds. -/
def Read (F : Format α) (xs : List α) : State α → Prop
  | .inside held => ∃ ys, xs = ys ++ F.wire held
  | .marked | .lostMarked => ∃ ys, xs = ys ++ [F.mark₀]
  | _ => True

omit [DecidableEq α] in
/-- A move reads one symbol more. -/
theorem Move.read {s' : State α} {e : Event α} (hmove : Move F s x s' e) (h : Read F xs s) :
    Read F (xs ++ [x]) s' := by
  -- behind a first mark, a second one begins a frame
  have hbegin : (∃ ys, xs = ys ++ [F.mark₀]) → Read F (xs ++ [F.mark₁]) (.inside []) := by
    rintro ⟨ys, rfl⟩
    exact ⟨ys, by simp [Format.wire]⟩
  cases hmove with
  | mark => exact ⟨xs, rfl⟩
  | again => exact ⟨xs, rfl⟩
  | lostMark => exact ⟨xs, rfl⟩
  | lostAgain => exact ⟨xs, rfl⟩
  | begins => exact hbegin h
  | resumes => exact hbegin h
  | part =>
    obtain ⟨ys, rfl⟩ := h
    exact ⟨ys, by simp [Format.wire]⟩
  | _ => trivial

theorem read_run (xs : List α) : Read F xs (run F .outside xs) := by
  induction xs using List.reverseRecOn with
  | nil => trivial
  | append_singleton xs x ih =>
    rw [run_concat]
    exact (move_step F _ x).read ih

omit [DecidableEq α] in
/-- A frame that a move hands out is whole, and its wire is the end of what was
read. -/
theorem Move.whole {s' : State α} (hmove : Move F s x s' (.frame held)) (hsound : Sound F s)
    (hread : Read F xs s) : F.Whole held ∧ ∃ ys, xs ++ [x] = ys ++ F.wire held := by
  cases hmove with
  | @frame part _ hmax hlong hchecks =>
    obtain ⟨ys, rfl⟩ := hread
    refine ⟨⟨Nat.le_antisymm ?_ hlong, hmax, hchecks⟩, ys, by simp [Format.wire]⟩
    -- one symbol less was part of the frame
    rw [List.length_append, List.length_singleton]
    have htrailer := F.trailer_pos
    rcases hsound with hshort | ⟨-, hshort⟩
    · unfold Format.whole
      omega
    · by_cases hhead : part.length < F.header
      · unfold Format.whole
        omega
      · have := whole_take (F := F) (Nat.le_of_not_lt hhead) (part ++ [x])
        rw [List.take_left' rfl] at this
        omega

/-- **A frame that is read was sent:** it is the end of the stream. Nothing is
made up, and nothing between its symbols is left out. -/
theorem run_frame (h : (step F x (run F .outside xs)).2 = .frame held) :
    F.Whole held ∧ ∃ ys, xs ++ [x] = ys ++ F.wire held := by
  have hmove := move_step F (run F .outside xs) x
  rw [h] at hmove
  exact hmove.whole (sound_run (s := .outside) trivial xs) (read_run xs)

/-! ## What is sent -/

/-- The parts of a frame are held in silence. -/
theorem inside_part (hpart : ∀ n ≤ ys.length, F.Part (held ++ ys.take n)) :
    run F (.inside held) ys = .inside (held ++ ys) ∧
      trace F (.inside held) ys = List.replicate ys.length .quiet := by
  induction ys generalizing held with
  | nil => exact ⟨by rw [run_nil, List.append_nil], rfl⟩
  | cons y ys ih =>
    have hstep : step F y (.inside held) = (.inside (held ++ [y]), .quiet) :=
      claim_part (hpart 1 (by simp))
    have hrest : ∀ n ≤ ys.length, F.Part ((held ++ [y]) ++ ys.take n) := by
      intro n hn
      have := hpart (n + 1) (by simpa using hn)
      simpa using this
    obtain ⟨hrun, htrace⟩ := ih hrest
    refine ⟨?_, ?_⟩
    · rw [run_cons, hstep, hrun, List.append_assoc, List.singleton_append]
    · rw [trace, hstep, htrace, List.length_cons, List.replicate_succ]

/-- **A frame sent between frames is read,** with its last symbol, and the
reader is between frames again. -/
theorem trace_wire (hs : s.Settled) (h : F.Whole held) :
    run F s (F.wire held) = .outside ∧
      trace F s (F.wire held) = List.replicate (held.length + 1) .quiet ++ [.frame held] := by
  have hpos : 0 < held.length := by
    have hlen := h.length
    have := F.header_pos
    unfold Format.whole at hlen
    omega
  obtain ⟨init, last, rfl⟩ : ∃ init last, held = init ++ [last] :=
    ⟨held.dropLast, held.getLast (List.ne_nil_of_length_pos hpos),
      (List.dropLast_concat_getLast _).symm⟩
  -- the two marks
  have hmarks : run F s [F.mark₀, F.mark₁] = .inside [] ∧
      trace F s [F.mark₀, F.mark₁] = [.quiet, .quiet] := by
    cases s with
    | outside => simp [run, trace, step]
    | lost => simp [run, trace, step]
    | marked => exact absurd hs id
    | inside held => exact absurd hs id
    | lostMarked => exact absurd hs id
  have hparts : ∀ n ≤ init.length, F.Part ([] ++ init.take n) := by
    intro n hn
    have := h.part (n := n) (by simp; omega)
    rwa [List.take_append_of_le_length hn] at this
  obtain ⟨hrun, htrace⟩ := inside_part hparts
  have hlast : step F last (.inside init) = (.outside, .frame (init ++ [last])) := claim_whole h
  have hsplit : F.wire (init ++ [last]) = [F.mark₀, F.mark₁] ++ (init ++ [last]) := rfl
  refine ⟨?_, ?_⟩
  · rw [hsplit, run_append, hmarks.1, run_append, hrun, List.nil_append, run_cons, hlast, run_nil]
  · rw [hsplit, trace_append, hmarks.1, hmarks.2, trace_append, hrun, htrace, List.nil_append,
      trace, hlast, trace, List.length_append, List.length_singleton, List.replicate_succ,
      List.replicate_succ]
    rfl

/-! ## What is no first mark -/

omit [DecidableEq α] in
/-- Each symbol that is no first mark is claimed, or leaves the reader
between frames. -/
theorem Move.claimable_le {s' : State α} {e : Event α} (hmove : Move F s x s' e)
    (hx : x ≠ F.mark₀) : claimable F s' ≤ claimable F s - 1 := by
  cases hmove with
  | mark => exact absurd rfl hx
  | again => exact absurd rfl hx
  | lostMark => exact absurd rfl hx
  | lostAgain => exact absurd rfl hx
  | begins => simp [claimable]
  | resumes => simp [claimable]
  | part =>
    simp only [claimable, List.length_append, List.length_singleton]
    omega
  | _ => exact Nat.zero_le _

/-- **Enough symbols that are no first mark** bring the reader between
frames, from anywhere. -/
theorem settled_of_filler (hs : Sound F s) (hfiller : ∀ x ∈ xs, x ≠ F.mark₀)
    (hlen : 1 + (F.header + F.max + F.trailer) ≤ xs.length) : (run F s xs).Settled := by
  have hle : claimable F s ≤ xs.length := Nat.le_trans (claimable_le s) hlen
  clear hlen
  induction xs generalizing s with
  | nil => exact settled_of_claimable hs (Nat.le_zero.mp hle)
  | cons x xs ih =>
    have hmove := move_step F s x
    have hless := hmove.claimable_le (hfiller x List.mem_cons_self)
    rw [run_cons]
    refine ih hmove.sound (fun y hy => hfiller y (List.mem_cons_of_mem x hy)) ?_
    rw [List.length_cons] at hle
    omega

end Framing
