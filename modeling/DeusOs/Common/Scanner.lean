import Mathlib.Data.List.Basic
import Mathlib.Order.Basic
import Mathlib.Tactic.Common

/-!
# Scanning a stream for frames

A scanner looks at the front of what it holds and judges it: it needs more,
it drops the first element, or it takes a frame. `Scanner.located` feeds a
stream one element at a time to a scanner that forgets everything it holds
when it takes a frame; `Scanner.refer` reads the whole stream at once and
goes on right behind each frame. Both give each frame with its place. They
agree exactly on the streams in which the forgetting costs nothing
(`located_eq_refer_iff`).
-/

namespace Scanner

variable {α φ : Type}

/-- The judgement of a front: more is needed, or the first `n` elements
decide that its first element starts no frame, or that they are a frame. -/
inductive Verdict (φ : Type)
  | wait
  | reject (n : ℕ)
  | accept (n : ℕ) (frame : φ)

/-- How many elements the judgement took. -/
def Verdict.size : Verdict φ → ℕ
  | .wait => 0
  | .reject n => n
  | .accept n _ => n

/-- A judgement that is read off the elements it says, and stands when more come. -/
structure Judge (α φ : Type) where
  judge : List α → Verdict φ
  nil : judge [] = .wait
  size_le : ∀ xs, judge xs ≠ .wait → (judge xs).size ≤ xs.length
  append : ∀ xs ys, judge xs ≠ .wait → judge (xs ++ ys) = judge xs
  decided : ∀ xs m, judge xs ≠ .wait → (judge xs).size ≤ m → judge (xs.take m) ≠ .wait

namespace Judge

variable (J : Judge α φ) {xs : List α} {m : ℕ}

theorem size_pos (xs : List α) (h : J.judge xs ≠ .wait) : 0 < (J.judge xs).size := by
  rcases Nat.eq_zero_or_pos (J.judge xs).size with h0 | h0
  · exact absurd J.nil (J.decided xs 0 h (by omega))
  · exact h0

/-- A front that is decided decides the whole. -/
theorem judge_eq_of_take (h : J.judge (xs.take m) ≠ .wait) : J.judge xs = J.judge (xs.take m) := by
  have := J.append (xs.take m) (xs.drop m) h
  rwa [List.take_append_drop] at this

/-- Before its last element there is no judgement. -/
theorem early (xs : List α) (m : ℕ) (hm : m < (J.judge xs).size) : J.judge (xs.take m) = .wait := by
  by_contra h
  have hle := J.size_le _ h
  rw [← J.judge_eq_of_take h, List.length_take] at hle
  omega

/-- After it there is. -/
theorem late (xs : List α) (m : ℕ) (h : J.judge xs ≠ .wait) (hm : (J.judge xs).size ≤ m) :
    J.judge (xs.take m) = J.judge xs :=
  (J.judge_eq_of_take (J.decided xs m h hm)).symm

end Judge

variable (J : Judge α φ)

/-- What a scanner makes of what it holds, the first element at place `p`:
what it still holds and where that starts, and the frame it took. -/
def settle (p : ℕ) : List α → ℕ × List α × Option (ℕ × φ)
  | [] => (p, [], none)
  | x :: xs =>
    match J.judge (x :: xs) with
    | .wait => (p, x :: xs, none)
    | .reject _ => settle (p + 1) xs
    | .accept _ f => (p + (xs.length + 1), [], some (p, f))

/-- The frames a scanner takes from a stream, which holds `held` from place `p` on. -/
def located (p : ℕ) (held : List α) : List α → List (ℕ × φ)
  | [] => []
  | x :: xs =>
    let r := settle J p (held ++ [x])
    r.2.2.toList ++ located r.1 r.2.1 xs

/-- The frames of a whole stream from place `p` on, the first `skip`
elements not looked at. -/
def refer (p skip : ℕ) : List α → List (ℕ × φ)
  | [] => []
  | x :: xs =>
    if 0 < skip then refer (p + 1) (skip - 1) xs
    else
      match J.judge (x :: xs) with
      | .accept n f => (p, f) :: refer (p + 1) (n - 1) xs
      | _ => refer (p + 1) 0 xs

/-- A stream of which the scanner forgets no frame, its first `k` elements
already read: an unfinished candidate at the end hides no frame, and what is
read beyond a frame, to finish a candidate in front of it, starts none. -/
inductive Clear : ℕ → List α → Prop
  | wait (k : ℕ) (ys : List α) (hw : J.judge ys = .wait) (none : refer J 0 0 ys.tail = []) :
      Clear k ys
  | reject (k n : ℕ) (x : α) (xs : List α) (hr : J.judge (x :: xs) = .reject n)
      (rest : Clear (max k n - 1) xs) : Clear k (x :: xs)
  | accept (k n : ℕ) (f : φ) (ys : List α) (ha : J.judge ys = .accept n f)
      (none : ∀ e ∈ refer J 0 0 (ys.drop n), max k n - n ≤ e.1)
      (rest : Clear 0 (ys.drop (max k n))) : Clear k ys

variable {J} {p k n : ℕ} {x : α} {xs ys held : List α} {f : φ}

/-- What a scanner still holds is undecided. -/
theorem judge_settle (p : ℕ) (xs : List α) : J.judge (settle J p xs).2.1 = .wait := by
  induction xs generalizing p with
  | nil => exact J.nil
  | cons x xs ih =>
    rw [settle]
    cases h : J.judge (x :: xs) with
    | wait => exact h
    | reject n => exact ih (p + 1)
    | accept n f => exact J.nil

theorem length_settle_le (p : ℕ) (xs : List α) : (settle J p xs).2.1.length ≤ xs.length := by
  induction xs generalizing p with
  | nil => exact Nat.le_refl 0
  | cons x xs ih =>
    rw [settle]
    cases J.judge (x :: xs) with
    | wait => exact Nat.le_refl _
    | reject n => exact Nat.le_succ_of_le (ih (p + 1))
    | accept n f => exact Nat.zero_le _

/-- A frame that is taken lies in what was held. -/
theorem exists_accept_of_settle {p q : ℕ} {xs : List α} (h : (settle J p xs).2.2 = some (q, f)) :
    ∃ k n, J.judge (xs.drop k) = .accept n f := by
  induction xs generalizing p with
  | nil => cases h
  | cons x xs ih =>
    rw [settle] at h
    cases hj : J.judge (x :: xs) with
    | wait =>
      rw [hj] at h
      cases h
    | reject n =>
      rw [hj] at h
      obtain ⟨k, m, hk⟩ := ih h
      exact ⟨k + 1, m, hk⟩
    | accept n g =>
      rw [hj] at h
      cases h
      exact ⟨0, n, hj⟩

/-! ## The reference scan -/

theorem refer_skip (p k : ℕ) (ys : List α) :
    refer J p k ys = refer J (p + k) 0 (ys.drop k) := by
  induction k generalizing p ys with
  | zero => rfl
  | succ k ih =>
    cases ys with
    | nil => rfl
    | cons y ys =>
      rw [refer, if_pos (Nat.succ_pos k), Nat.add_sub_cancel, ih, List.drop_succ_cons]
      congr 1
      omega

theorem refer_accept (h : J.judge ys = .accept n f) :
    refer J p 0 ys = (p, f) :: refer J (p + n) 0 (ys.drop n) := by
  have hne : J.judge ys ≠ .wait := by
    rw [h]
    exact fun hc => by cases hc
  have hpos : 0 < n := by
    have := J.size_pos ys hne
    rwa [h] at this
  cases ys with
  | nil =>
    rw [J.nil] at h
    cases h
  | cons y ys =>
    rw [refer, if_neg (Nat.lt_irrefl 0)]
    simp only [h]
    rw [refer_skip (p + 1)]
    obtain ⟨m, rfl⟩ : ∃ m, n = m + 1 := ⟨n - 1, by omega⟩
    rw [List.drop_succ_cons, Nat.add_sub_cancel]
    have hp : p + 1 + m = p + (m + 1) := by omega
    rw [hp]

theorem refer_tail (h : ∀ n f, J.judge (x :: xs) ≠ .accept n f) :
    refer J p 0 (x :: xs) = refer J (p + 1) 0 xs := by
  rw [refer, if_neg (Nat.lt_irrefl 0)]
  cases hj : J.judge (x :: xs) with
  | wait => rfl
  | reject n => rfl
  | accept n f => exact absurd hj (h n f)

/-- The places of a scan that starts later are later by as much. -/
theorem refer_shift (p d : ℕ) (k : ℕ) (ys : List α) :
    refer J (p + d) k ys = (refer J p k ys).map fun e => (e.1 + d, e.2) := by
  induction ys generalizing p k with
  | nil => rfl
  | cons y ys ih =>
    have hp : p + d + 1 = p + 1 + d := by omega
    simp only [refer, hp]
    by_cases hk : 0 < k
    · simp only [if_pos hk, ih]
    · simp only [if_neg hk]
      cases J.judge (y :: ys) with
      | wait => exact ih _ _
      | reject n => exact ih _ _
      | accept n f => simp only [ih, List.map_cons]

theorem refer_eq_nil_iff : refer J p k ys = [] ↔ refer J 0 k ys = [] := by
  have h := refer_shift (J := J) 0 p k ys
  rw [Nat.zero_add] at h
  rw [h, List.map_eq_nil_iff]

/-- Elements in which no frame starts may be left out. -/
theorem refer_drop {d : ℕ} (hd : d ≤ ys.length) (h : ∀ e ∈ refer J p 0 ys, p + d ≤ e.1) :
    refer J p 0 ys = refer J (p + d) 0 (ys.drop d) := by
  induction d generalizing p ys with
  | zero => rfl
  | succ d ih =>
    cases ys with
    | nil => simp at hd
    | cons y ys =>
      have hno : ∀ n f, J.judge (y :: ys) ≠ .accept n f := by
        intro n f ha
        have := h (p, f) (by rw [refer_accept ha]; exact List.mem_cons_self)
        simp only at this
        omega
      rw [refer_tail hno] at h ⊢
      have hlen : d ≤ ys.length := by simpa using hd
      rw [ih hlen fun e he => by have := h e he; omega, List.drop_succ_cons]
      congr 1
      omega

/-! ## The scanner -/

/-- What a scanner takes that reads `now` at once and then the rest element by element. -/
def run (p : ℕ) (now later : List α) : List (ℕ × φ) :=
  let r := settle J p now
  r.2.2.toList ++ located J r.1 r.2.1 later

theorem located_cons : located J p held (x :: xs) = run (J := J) p (held ++ [x]) xs := rfl

theorem run_nil (p : ℕ) (later : List α) : run (J := J) p [] later = located J p [] later := rfl

theorem run_wait (h : J.judge (x :: xs) = .wait) (later : List α) :
    run (J := J) p (x :: xs) later = located J p (x :: xs) later := by
  simp only [run, settle, h, Option.toList, List.nil_append]

theorem run_reject (h : J.judge (x :: xs) = .reject n) (later : List α) :
    run (J := J) p (x :: xs) later = run (J := J) (p + 1) xs later := by
  simp only [run, settle, h]

theorem run_accept (h : J.judge (x :: xs) = .accept n f) (later : List α) :
    run (J := J) p (x :: xs) later = (p, f) :: located J (p + (xs.length + 1)) [] later := by
  simp only [run, settle, h, Option.toList, List.singleton_append]

/-- The scanner on a whole stream, of which it reads the first `k` elements at once. -/
def onStream (p k : ℕ) (ys : List α) : List (ℕ × φ) := run (J := J) p (ys.take k) (ys.drop k)

theorem onStream_zero (p : ℕ) (ys : List α) : onStream (J := J) p 0 ys = located J p [] ys := rfl

/-- While the front is undecided, one element more makes no difference. -/
theorem onStream_succ (hk : k < ys.length) (h : J.judge (ys.take k) = .wait) :
    onStream (J := J) p k ys = onStream (J := J) p (k + 1) ys := by
  have hdrop : ys.drop k = ys[k] :: ys.drop (k + 1) := List.drop_eq_getElem_cons hk
  have htake : ys.take (k + 1) = ys.take k ++ [ys[k]] := List.take_succ_eq_append_getElem hk
  have hloc : run (J := J) p (ys.take k) (ys.drop k) = located J p (ys.take k) (ys.drop k) := by
    cases hys : ys.take k with
    | nil => rfl
    | cons y front =>
      rw [hys] at h
      exact run_wait h _
  rw [onStream, hloc, hdrop, located_cons, onStream, htake]

/-- The front is read at least to where it is decided. -/
theorem onStream_decide {k : ℕ} (h : J.judge ys ≠ .wait) (hk : k ≤ ys.length) :
    onStream (J := J) p k ys = onStream (J := J) p (max k (J.judge ys).size) ys := by
  have hle := J.size_le ys h
  by_cases hlt : k < (J.judge ys).size
  · rw [onStream_succ (by omega) (J.early ys k hlt), onStream_decide h (by omega)]
    congr 1
    omega
  · rw [Nat.max_eq_left (by omega)]
termination_by ys.length - k

/-- An undecided stream gives nothing. -/
theorem onStream_wait {k : ℕ} (h : J.judge ys = .wait) (hk : k ≤ ys.length) :
    onStream (J := J) p k ys = [] := by
  have hfront : J.judge (ys.take k) = .wait := by
    by_contra hne
    have := J.append (ys.take k) (ys.drop k) hne
    rw [List.take_append_drop] at this
    exact hne (this.symm.trans h)
  by_cases hlt : k < ys.length
  · rw [onStream_succ hlt hfront]
    exact onStream_wait h hlt
  · have hall : ys.take k = ys := List.take_of_length_le (by omega)
    have hnone : ys.drop k = [] := List.drop_of_length_le (by omega)
    rw [onStream, hall, hnone]
    cases ys with
    | nil => rfl
    | cons y ys => rw [run_wait h]; rfl
termination_by ys.length - k

theorem onStream_reject (h : J.judge (x :: xs) = .reject n) (hk : k ≤ xs.length + 1) :
    onStream (J := J) p k (x :: xs) = onStream (J := J) (p + 1) (max k n - 1) xs := by
  have hne : J.judge (x :: xs) ≠ .wait := by
    rw [h]
    exact fun hc => by cases hc
  have hpos := J.size_pos _ hne
  have hlate := J.late (x :: xs) (max k n) hne
  have hd := onStream_decide (p := p) hne (by simpa using hk)
  rw [h] at hd hpos hlate
  specialize hlate (Nat.le_max_right k n)
  simp only [Verdict.size] at hd hpos hlate
  obtain ⟨m, hm⟩ : ∃ m, max k n = m + 1 := ⟨max k n - 1, by omega⟩
  rw [hm] at hd hlate ⊢
  rw [hd, onStream, List.take_succ_cons, List.drop_succ_cons]
  rw [List.take_succ_cons] at hlate
  rw [run_reject hlate, Nat.add_sub_cancel, onStream]

theorem onStream_accept (h : J.judge ys = .accept n f) (hk : k ≤ ys.length) :
    onStream (J := J) p k ys =
      (p, f) :: onStream (J := J) (p + max k n) 0 (ys.drop (max k n)) := by
  have hne : J.judge ys ≠ .wait := by
    rw [h]
    exact fun hc => by cases hc
  have hpos := J.size_pos _ hne
  have hle := J.size_le _ hne
  have hlate := J.late ys (max k n) hne
  have hd := onStream_decide (p := p) hne hk
  rw [h] at hd hpos hle hlate
  specialize hlate (Nat.le_max_right k n)
  simp only [Verdict.size] at hd hpos hle hlate
  have hm : max k n ≤ ys.length := by omega
  rw [hd, onStream]
  have hlen : (ys.take (max k n)).length = max k n := by
    rw [List.length_take]
    omega
  cases hfront : ys.take (max k n) with
  | nil =>
    rw [hfront] at hlen
    simp only [List.length_nil] at hlen
    omega
  | cons y front =>
    rw [hfront] at hlate hlen
    rw [run_accept hlate, onStream_zero]
    simp only [List.length_cons] at hlen
    rw [hlen]

/-- The scanner takes no frame from before where it looks. -/
theorem le_of_mem_onStream {p k : ℕ} {ys : List α} (hk : k ≤ ys.length) {e : ℕ × φ}
    (he : e ∈ onStream (J := J) p k ys) : p ≤ e.1 := by
  induction hlen : ys.length using Nat.strongRecOn generalizing p k ys with
  | ind len ih =>
    cases hj : J.judge ys with
    | wait =>
      rw [onStream_wait hj hk] at he
      exact absurd he List.not_mem_nil
    | reject n =>
      cases ys with
      | nil =>
        rw [J.nil] at hj
        cases hj
      | cons y xs =>
        have hle := J.size_le (y :: xs) (by rw [hj]; exact fun hc => by cases hc)
        rw [hj] at hle
        simp only [Verdict.size, List.length_cons] at hle hk
        rw [onStream_reject hj hk] at he
        have := ih xs.length (by simp only [List.length_cons] at hlen; omega) (by omega) he rfl
        omega
    | accept n f =>
      have hne : J.judge ys ≠ .wait := by rw [hj]; exact fun hc => by cases hc
      have hpos := J.size_pos ys hne
      rw [hj] at hpos
      simp only [Verdict.size] at hpos
      rw [onStream_accept hj hk] at he
      rcases List.mem_cons.1 he with rfl | he
      · exact Nat.le_refl p
      · have hys : 0 < ys.length := by
          have := J.size_le ys hne
          rw [hj] at this
          simp only [Verdict.size] at this
          omega
        have hdec : (ys.drop (max k n)).length < ys.length := by
          rw [List.length_drop]
          omega
        have := ih _ (hlen ▸ hdec) (Nat.zero_le _) he rfl
        omega

/-- **The scanner takes the frames of the reference scan exactly when the stream
is clear.** The reference may look back at what it has passed; the scanner has
thrown that away. -/
theorem onStream_eq_refer_iff {p k : ℕ} {ys : List α} (hk : k ≤ ys.length) :
    onStream (J := J) p k ys = refer J p 0 ys ↔ Clear J k ys := by
  induction hlen : ys.length using Nat.strongRecOn generalizing p k ys with
  | ind len ih =>
    cases hj : J.judge ys with
    | wait =>
      rw [onStream_wait hj hk]
      have htail : refer J p 0 ys = [] ↔ refer J 0 0 ys.tail = [] := by
        cases ys with
        | nil => exact Iff.rfl
        | cons y ys =>
          rw [refer_tail (by rw [hj]; exact fun _ _ hc => by cases hc), refer_eq_nil_iff]
          rfl
      constructor
      · intro h
        exact .wait k ys hj (htail.1 h.symm)
      · intro h
        cases h with
        | wait _ _ _ hn => exact (htail.2 hn).symm
        | reject _ _ _ _ hr => rw [hj] at hr; cases hr
        | accept _ _ _ _ ha => rw [hj] at ha; cases ha
    | reject n =>
      cases ys with
      | nil =>
        rw [J.nil] at hj
        cases hj
      | cons y ys =>
        have hle := J.size_le (y :: ys) (by rw [hj]; exact fun hc => by cases hc)
        rw [hj] at hle
        simp only [Verdict.size, List.length_cons] at hle hk
        have ih' : onStream (J := J) (p + 1) (max k n - 1) ys = refer J (p + 1) 0 ys ↔
            Clear J (max k n - 1) ys :=
          ih ys.length (by simp only [List.length_cons] at hlen; omega) (by omega) rfl
        rw [onStream_reject hj hk, refer_tail (by rw [hj]; exact fun _ _ hc => by cases hc), ih']
        constructor
        · intro h
          exact .reject k n y ys hj h
        · intro h
          cases h with
          | wait _ _ hw => rw [hj] at hw; cases hw
          | reject _ _ _ _ hr hrest =>
            rw [hj] at hr
            cases hr
            exact hrest
          | accept _ _ _ _ ha => rw [hj] at ha; cases ha
    | accept n f =>
      have hne : J.judge ys ≠ .wait := by rw [hj]; exact fun hc => by cases hc
      have hpos := J.size_pos ys hne
      have hle := J.size_le ys hne
      rw [hj] at hpos hle
      simp only [Verdict.size] at hpos hle
      have hdec : (ys.drop (max k n)).length < ys.length := by
        rw [List.length_drop]
        omega
      have ih' : onStream (J := J) (p + max k n) 0 (ys.drop (max k n)) =
          refer J (p + max k n) 0 (ys.drop (max k n)) ↔ Clear J 0 (ys.drop (max k n)) :=
        ih _ (hlen ▸ hdec) (Nat.zero_le _) rfl
      have hsplit : p + n + (max k n - n) = p + max k n := by omega
      have hdrop : (ys.drop n).drop (max k n - n) = ys.drop (max k n) := by
        rw [List.drop_drop]
        congr 1
        omega
      -- leaving out what was forgotten changes nothing, if no frame starts there
      have hgap : (∀ e ∈ refer J 0 0 (ys.drop n), max k n - n ≤ e.1) →
          refer J (p + n) 0 (ys.drop n) = refer J (p + max k n) 0 (ys.drop (max k n)) := by
        intro h
        rw [refer_drop (d := max k n - n) (by rw [List.length_drop]; omega) fun e he => ?_, hsplit,
          hdrop]
        have hs := refer_shift (J := J) 0 (p + n) 0 (ys.drop n)
        rw [Nat.zero_add] at hs
        rw [hs] at he
        obtain ⟨e', he', rfl⟩ := List.mem_map.1 he
        have := h e' he'
        simp only
        omega
      rw [onStream_accept hj hk, refer_accept hj]
      constructor
      · intro h
        have htl := (List.cons.inj h).2
        have hno : ∀ e ∈ refer J 0 0 (ys.drop n), max k n - n ≤ e.1 := by
          intro e he
          have hs := refer_shift (J := J) 0 (p + n) 0 (ys.drop n)
          rw [Nat.zero_add] at hs
          have hm : (e.1 + (p + n), e.2) ∈ refer J (p + n) 0 (ys.drop n) := by
            rw [hs]
            exact List.mem_map.2 ⟨e, he, rfl⟩
          rw [← htl] at hm
          have := le_of_mem_onStream (Nat.zero_le _) hm
          simp only at this
          omega
        refine .accept k n f ys hj hno (ih'.1 ?_)
        rw [htl, hgap hno]
      · intro h
        cases h with
        | wait _ _ hw => rw [hj] at hw; cases hw
        | reject _ _ _ _ hr => rw [hj] at hr; cases hr
        | accept _ _ _ _ ha hno hrest =>
          rw [hj] at ha
          cases ha
          rw [hgap hno, ih'.2 hrest]

/-- From the start, the scanner locates what the reference does exactly where
the stream is clear. -/
theorem located_eq_refer_iff : located J 0 [] ys = refer J 0 0 ys ↔ Clear J 0 ys :=
  onStream_eq_refer_iff (Nat.zero_le _)

end Scanner
