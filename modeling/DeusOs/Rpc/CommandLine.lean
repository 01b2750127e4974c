import DeusOs.Common.Tokens
import DeusOs.Rpc.Model.CommandLine
import DeusOs.Rpc.Request

/-!
# Command lines — what is cut out of a line

The line from the cursor to its NUL is a text (`Ends`), and the loops of
`command_service_parse_line` cut it into its tokens, each a string of its own
(`parseArguments_spec`). Nothing behind the NUL is touched.
-/

namespace DeusOs

namespace Rpc

open Nor (Mem)
open Tokens (tokens)

variable {mem mem' : Mem} {s s' : LineCursor} {a b c e fuel : ℕ} {l word : List UInt8}

/-! ## Text in memory -/

/-- From `c` to the NUL at `e` stands a text. -/
def Ends (mem : Mem) (e : ℕ) : ℕ → List UInt8 → Prop
  | c, [] => c = e ∧ mem c = 0
  | c, x :: l => mem c = x ∧ x ≠ 0 ∧ Ends mem e (c + 1) l

theorem Ends.length (h : Ends mem e c l) : c + l.length = e := by
  induction l generalizing c with
  | nil => exact h.1
  | cons x l ih =>
    have := ih h.2.2
    rw [List.length_cons]
    omega

theorem Ends.le (h : Ends mem e c l) : c ≤ e := by
  have := h.length
  omega

/-- Only the bytes of the text count. -/
theorem Ends.congr (h : Ends mem e c l) (hmem : ∀ i, c ≤ i → i ≤ e → mem' i = mem i) :
    Ends mem' e c l := by
  have hle := h.le
  induction l generalizing c with
  | nil => exact ⟨h.1, by rw [hmem c (Nat.le_refl c) hle]; exact h.2⟩
  | cons x l ih =>
    refine ⟨by rw [hmem c (Nat.le_refl c) hle]; exact h.1, h.2.1, ?_⟩
    exact ih h.2.2 (fun i hi => hmem i (by omega)) h.2.2.le

/-- A line that has a NUL is a text up to the first one. -/
theorem ends_bytes {n : ℕ} (hnul : mem (c + n) = 0) (h : ∀ i < n, mem (c + i) ≠ 0) :
    Ends mem (c + n) c (mem.bytes c n) := by
  induction n generalizing c with
  | zero => exact ⟨rfl, hnul⟩
  | succ n ih =>
    have hbytes : mem.bytes c (n + 1) = mem c :: mem.bytes (c + 1) n := by
      rw [Nat.add_comm, Mem.bytes_add]
      rfl
    have hrest : Ends mem (c + 1 + n) (c + 1) (mem.bytes (c + 1) n) := by
      refine ih ?_ fun i hi => ?_
      · rwa [Nat.add_assoc, Nat.add_comm 1]
      · have := h (i + 1) (by omega)
        rwa [Nat.add_assoc, Nat.add_comm 1]
    rw [hbytes]
    refine ⟨rfl, h 0 (by omega), ?_⟩
    rwa [show c + (n + 1) = c + 1 + n by omega]

/-- At `a` stands a string. -/
def StringAt (mem : Mem) (a : ℕ) (word : List UInt8) : Prop := Ends mem (a + word.length) a word

/-! ## Names -/

/-- `command_text_equals` compares, and reads nothing behind the NUL. -/
theorem commandTextEquals_spec (h : Ends mem e a word) (name : List UInt8)
    (hname : (0 : UInt8) ∉ name) :
    ((commandTextEquals mem a name).2 = true ↔ name = word) ∧
      ∀ i ∈ (commandTextEquals mem a name).1, a ≤ i ∧ i ≤ e := by
  have hle := h.le
  induction name generalizing a word with
  | nil =>
    refine ⟨?_, fun i hi => by rw [List.mem_singleton.1 hi]; exact ⟨Nat.le_refl a, hle⟩⟩
    cases word with
    | nil => exact ⟨fun _ => rfl, fun _ => decide_eq_true h.2⟩
    | cons x word =>
      refine ⟨fun hz => absurd (of_decide_eq_true hz) ?_, fun hn => by cases hn⟩
      rw [h.1]
      exact h.2.1
  | cons y name ih =>
    rw [List.mem_cons, not_or] at hname
    rw [commandTextEquals]
    cases word with
    | nil =>
      rw [if_pos h.2]
      refine ⟨⟨fun hf => (by cases hf), fun hn => by cases hn⟩, fun i hi => ?_⟩
      rw [List.mem_singleton.1 hi]
      exact ⟨Nat.le_refl a, hle⟩
    | cons x word =>
      obtain ⟨hx, hne, hrest⟩ := h
      rw [if_neg (by rw [hx]; exact hne), hx]
      by_cases hxy : x ≠ y
      · rw [if_pos hxy]
        refine ⟨⟨fun hf => (by cases hf), fun hn => absurd (List.cons.inj hn).1.symm hxy⟩,
          fun i hi => ?_⟩
        rw [List.mem_singleton.1 hi]
        exact ⟨Nat.le_refl a, hle⟩
      · rw [if_neg hxy]
        obtain rfl := not_not.1 hxy
        obtain ⟨heq, hreads⟩ := ih hrest hname.2 hrest.le
        refine ⟨heq.trans ⟨fun hn => by rw [hn], fun hn => (List.cons.inj hn).2⟩, fun i hi => ?_⟩
        rcases List.mem_cons.1 hi with rfl | hi
        · exact ⟨Nat.le_refl i, hle⟩
        · have := hreads i hi
          exact ⟨by omega, this.2⟩

/-- **`command_service_find` looks the string up**, and reads nothing behind it. -/
theorem commandServiceFind_spec (h : Ends mem e a word)
    {registry : List CommandServiceDescriptor} (hnames : ∀ d ∈ registry, (0 : UInt8) ∉ d.nameBytes) :
    (commandServiceFind mem a registry).2 = registry.find? (fun d => d.nameBytes = word) ∧
      ∀ i ∈ (commandServiceFind mem a registry).1, a ≤ i ∧ i ≤ e := by
  induction registry with
  | nil => exact ⟨rfl, fun i hi => absurd hi List.not_mem_nil⟩
  | cons d registry ih =>
    obtain ⟨heq, hreads⟩ := commandTextEquals_spec h d.nameBytes (hnames d List.mem_cons_self)
    obtain ⟨hfound, hmore⟩ := ih fun d' hd' => hnames d' (List.mem_cons_of_mem d hd')
    rw [commandServiceFind]
    cases hc : commandTextEquals mem a d.nameBytes with
    | mk reads equal =>
      rw [hc] at heq hreads
      cases equal with
      | true =>
        rw [List.find?_cons_of_pos (by exact decide_eq_true (heq.1 rfl))]
        exact ⟨rfl, hreads⟩
      | false =>
        have hne : ¬d.nameBytes = word := fun hn => by cases heq.2 hn
        rw [List.find?_cons_of_neg (by simpa using hne)]
        refine ⟨hfound, fun i hi => ?_⟩
        rcases List.mem_append.1 hi with hi | hi
        · exact hreads i hi
        · exact hmore i hi

/-! ## The cursor -/

/-- What was touched lies between the start of the line and its NUL. -/
def Within (b e : ℕ) (s : LineCursor) : Prop := b ≤ s.cursor ∧ ∀ i ∈ s.touched, b ≤ i ∧ i ≤ e

/-- Touching a character of the line keeps within it. -/
theorem Within.touch (h : Within b e s) (hle : s.cursor ≤ e) : Within b e s.touch := by
  refine ⟨h.1, fun i hi => ?_⟩
  rcases List.mem_append.1 hi with hi | hi
  · exact h.2 i hi
  · rw [List.mem_singleton.1 hi]
    exact ⟨h.1, hle⟩

/-- Going on behind a character of the line keeps within it. -/
theorem Within.next (h : Within b e s) : Within b e s.next := ⟨Nat.le_succ_of_le h.1, h.2⟩

/-- **Separators are skipped.** -/
theorem skipSeparators_spec (h : Ends s.mem e s.cursor l) (hfuel : l.length < fuel)
    (hw : Within b e s) :
    ∃ s', skipSeparators fuel s = some s' ∧ s'.mem = s.mem ∧ s.cursor ≤ s'.cursor ∧
      Ends s'.mem e s'.cursor (l.dropWhile commandIsSeparator) ∧ Within b e s' := by
  induction l generalizing fuel s with
  | nil =>
    obtain ⟨fuel, rfl⟩ : ∃ k, fuel = k + 1 := ⟨fuel - 1, by omega⟩
    have hsep : ¬commandIsSeparator (s.mem s.cursor) = true := by
      rw [h.2]
      decide
    exact ⟨s.touch, if_neg hsep, rfl, Nat.le_refl _, h, hw.touch h.le⟩
  | cons x l ih =>
    rw [List.length_cons] at hfuel
    obtain ⟨fuel, rfl⟩ : ∃ k, fuel = k + 1 := ⟨fuel - 1, by omega⟩
    by_cases hsep : commandIsSeparator x = true
    · have hnext : Ends s.touch.next.mem e s.touch.next.cursor l := h.2.2
      obtain ⟨s', hs', hmem, hle, hends, hw'⟩ :=
        ih hnext (Nat.lt_of_succ_lt_succ hfuel) (hw.touch h.le).next
      refine ⟨s', ?_, hmem, Nat.le_of_succ_le hle, ?_, hw'⟩
      · rw [skipSeparators, if_pos (by rw [h.1]; exact hsep), hs']
      · rw [List.dropWhile_cons_of_pos hsep]
        exact hends
    · refine ⟨s.touch, if_neg (by rw [h.1]; exact hsep), rfl, Nat.le_refl _, ?_, hw.touch h.le⟩
      rw [List.dropWhile_cons_of_neg hsep]
      exact h

/-- **A word is skipped.** -/
theorem skipWord_spec (h : Ends s.mem e s.cursor l) (hfuel : l.length < fuel) (hw : Within b e s) :
    ∃ s', skipWord fuel s = some s' ∧ s'.mem = s.mem ∧
      s'.cursor = s.cursor + (l.takeWhile fun y => !commandIsSeparator y).length ∧
      Ends s'.mem e s'.cursor (l.dropWhile fun y => !commandIsSeparator y) ∧ Within b e s' := by
  induction l generalizing fuel s with
  | nil =>
    obtain ⟨fuel, rfl⟩ : ∃ k, fuel = k + 1 := ⟨fuel - 1, by omega⟩
    exact ⟨s.touch, if_neg fun hne => hne.1 h.2, rfl, rfl, h, hw.touch h.le⟩
  | cons x l ih =>
    rw [List.length_cons] at hfuel
    obtain ⟨fuel, rfl⟩ : ∃ k, fuel = k + 1 := ⟨fuel - 1, by omega⟩
    by_cases hsep : commandIsSeparator x = false
    · have hnot : (!commandIsSeparator x) = true := by rw [hsep]; rfl
      have hnext : Ends s.touch.next.mem e s.touch.next.cursor l := h.2.2
      obtain ⟨s', hs', hmem, hcursor, hends, hw'⟩ :=
        ih hnext (Nat.lt_of_succ_lt_succ hfuel) (hw.touch h.le).next
      refine ⟨s', ?_, hmem, ?_, ?_, hw'⟩
      · rw [skipWord, if_pos (by rw [h.1]; exact ⟨h.2.1, hsep⟩), hs']
      · rw [List.takeWhile_cons_of_pos (p := fun y => !commandIsSeparator y) hnot, hcursor,
          List.length_cons]
        show s.cursor + 1 + _ = _
        omega
      · rw [List.dropWhile_cons_of_pos (p := fun y => !commandIsSeparator y) hnot]
        exact hends
    · have hnot : ¬(!commandIsSeparator x) = true := by
        rw [Bool.not_eq_false] at hsep
        rw [hsep]
        exact Bool.noConfusion
      refine ⟨s.touch, if_neg (by rw [h.1]; exact fun hne => hsep hne.2), rfl, ?_, ?_, hw.touch h.le⟩
      · rw [List.takeWhile_cons_of_neg (p := fun y => !commandIsSeparator y) hnot]
        rfl
      · rw [List.dropWhile_cons_of_neg (p := fun y => !commandIsSeparator y) hnot]
        exact h

/-- Memories that are alike below the cursor and from the NUL on. -/
def Beside (c e : ℕ) (mem mem' : Mem) : Prop := ∀ i, i < c ∨ e ≤ i → mem' i = mem i

/-- **The word is ended**, and the rest of the text is as it was. -/
theorem endWord_spec (h : Ends s.mem e s.cursor l)
    (hl : ∀ y ∈ l.head?, commandIsSeparator y = true) (hw : Within b e s) :
    Ends s.endWord.mem e s.endWord.cursor l.tail ∧ s.endWord.mem s.cursor = 0 ∧
      (s.cursor < s.endWord.cursor ∨ s.endWord.cursor = e) ∧ Beside s.cursor e s.mem s.endWord.mem ∧ Within b e s.endWord ∧
      tokens commandIsSeparator l.tail = tokens commandIsSeparator l := by
  unfold LineCursor.endWord
  cases l with
  | nil =>
    rw [if_neg (not_not.2 h.2)]
    exact ⟨h, h.2, Or.inr h.1, fun i _ => rfl, hw.touch h.le, rfl⟩
  | cons y l =>
    obtain ⟨hy, hne, hrest⟩ := h
    have hle := hrest.le
    rw [if_pos (by rw [hy]; exact hne)]
    refine ⟨?_, Function.update_self .., Or.inl (Nat.lt_succ_self _), fun i hi => ?_, ?_, ?_⟩
    · exact hrest.congr fun i hi _ => Function.update_of_ne (by omega) _ _
    · exact Function.update_of_ne (by omega) _ _
    · exact ⟨Nat.le_succ_of_le hw.1, (hw.touch (by omega)).2⟩
    · exact (Tokens.tokens_sep (hl y rfl) l).symm

/-! ## The arguments -/

theorem Beside.trans {c c' : ℕ} {mem'' : Mem} (h : Beside c e mem mem') (h' : Beside c' e mem' mem'')
    (hle : c ≤ c') : Beside c e mem mem'' := by
  intro i hi
  rw [h' i (by omega), h i hi]

/-- A string stays where nothing is written below the cursor. -/
theorem StringAt.beside (h : StringAt mem a word) (hc : a + word.length < c ∨ c = e) (hmem : Beside c e mem mem') :
    StringAt mem' a word := by
  refine Ends.congr h fun i hlo hhi => hmem i ?_
  omega

/-- One word: where it starts, and what is behind it. -/
structure WordCut (b e : ℕ) (s : LineCursor) (word rest : List UInt8) (s' : LineCursor) : Prop where
  string : StringAt s'.mem s.cursor word
  bounded : s.cursor + word.length < s'.cursor ∨ s'.cursor = e
  inside : s.cursor + word.length ≤ e
  rest : Ends s'.mem e s'.cursor rest
  advances : s.cursor < s'.cursor
  beside : Beside s.cursor e s.mem s'.mem
  within : Within b e s'

/-- A prefix of a text that a NUL is put behind is a string. -/
theorem stringAt_of_ends (h : Ends mem e c l) {p : UInt8 → Bool}
    (hmem : ∀ i, c ≤ i → i < c + (l.takeWhile p).length → mem' i = mem i)
    (hnul : mem' (c + (l.takeWhile p).length) = 0) : StringAt mem' c (l.takeWhile p) := by
  unfold StringAt
  induction l generalizing c with
  | nil => exact ⟨rfl, hnul⟩
  | cons x l ih =>
    by_cases hp : p x = true
    · rw [List.takeWhile_cons_of_pos hp, List.length_cons] at hmem hnul ⊢
      have hrest := ih h.2.2 (fun i hi hlt => hmem i (by omega) (by omega))
        (by rw [show c + 1 + (l.takeWhile p).length = c + ((l.takeWhile p).length + 1) by omega]
            exact hnul)
      refine ⟨by rw [hmem c (Nat.le_refl c) (by omega)]; exact h.1, h.2.1, ?_⟩
      rwa [show c + ((l.takeWhile p).length + 1) = c + 1 + (l.takeWhile p).length by omega]
    · rw [List.takeWhile_cons_of_neg hp] at hnul ⊢
      exact ⟨rfl, hnul⟩

/-- **A word is cut out of the line,** in place: its end becomes a zero byte,
and what comes behind is as it was. -/
theorem cutWord_spec (h : Ends s.mem e s.cursor l) (hne : l ≠ [])
    (hhead : ∀ y ∈ l.head?, commandIsSeparator y = false) (hfuel : l.length < fuel)
    (hw : Within b e s) :
    ∃ s' word rest, skipWord fuel s = some s' ∧
      WordCut b e s word rest s'.endWord ∧ rest.length < l.length ∧
      tokens commandIsSeparator l = word :: tokens commandIsSeparator rest := by
  obtain ⟨s', hs', hmem, hcursor, hends, hw'⟩ := skipWord_spec h hfuel hw
  have hstop : ∀ y ∈ (l.dropWhile fun y => !commandIsSeparator y).head?,
      commandIsSeparator y = true := Tokens.sep_head_dropWhile_not l
  obtain ⟨hrest, hnul, hcle, hbeside, hwithin, htokens⟩ := endWord_spec hends hstop hw'
  have hsplit := congrArg List.length
    (List.takeWhile_append_dropWhile (p := fun y => !commandIsSeparator y) (l := l))
  have hword : 0 < (l.takeWhile fun y => !commandIsSeparator y).length := by
    cases l with
    | nil => exact absurd rfl hne
    | cons x l =>
      have hx : (!commandIsSeparator x) = true := by rw [hhead x rfl]; rfl
      rw [List.takeWhile_cons_of_pos (p := fun y => !commandIsSeparator y) hx]
      exact Nat.succ_pos _
  have htotal := hends.length
  rw [List.length_append] at hsplit
  refine ⟨s', l.takeWhile fun y => !commandIsSeparator y, _, hs',
    ⟨?_, by omega, by omega, hrest, by omega, ?_, hwithin⟩, ?_, ?_⟩
  · refine stringAt_of_ends h (fun i hlo hhi => ?_) ?_
    · rw [hbeside i (by omega), hmem]
    · rw [← hcursor]
      exact hnul
  · intro i hi
    rw [hbeside i (by omega), hmem]
  · rw [List.length_tail]
    omega
  · rw [Tokens.tokens_of_ne_nil hne hhead, htokens]

variable {argc argc' : ℕ} {argv argv' : ℕ → Option ℕ} {words : List (List UInt8)}

/-- The words are the arguments from `argc` on, each a string in the line. -/
structure ArgumentsCut (argc : ℕ) (argv : ℕ → Option ℕ) (words : List (List UInt8)) (mem' : Mem)
    (argc' : ℕ) (argv' : ℕ → Option ℕ) : Prop where
  count : argc' = argc + words.length
  strings : ∀ i, (hi : i < words.length) →
    ∃ a, argv' (argc + i) = some a ∧ StringAt mem' a words[i]
  others : ∀ i, i < argc ∨ argc' ≤ i → argv' i = argv i

/-- **The loop cuts the line into its words**, if there are not too many, and
touches nothing outside of the line. -/
theorem parseArguments_spec (h : Ends s.mem e s.cursor l) (hfuel : l.length < fuel)
    (hargc : argc ≤ 4) (hw : Within b e s) :
    ∃ s' argc' argv' fits, parseArguments fuel s argc argv = some (s', argc', argv', fits) ∧
      (fits = true ↔ argc + (tokens commandIsSeparator l).length ≤ 4) ∧
      Beside s.cursor e s.mem s'.mem ∧ Within b e s' ∧
      (fits = true →
        ArgumentsCut argc argv (tokens commandIsSeparator l) s'.mem argc' argv') := by
  induction fuel generalizing s l argc argv with
  | zero => exact absurd hfuel (Nat.not_lt_zero _)
  | succ fuel ih =>
    obtain ⟨s₁, hs₁, hmem, hle, hends, hw₁⟩ := skipSeparators_spec h hfuel hw
    have htokens : tokens commandIsSeparator (l.dropWhile commandIsSeparator) =
        tokens commandIsSeparator l := Tokens.tokens_dropWhile l
    have hshort := List.length_dropWhile_le commandIsSeparator l
    have hhead : ∀ y ∈ (l.dropWhile commandIsSeparator).head?, commandIsSeparator y = false :=
      Tokens.sep_head_dropWhile l
    have hbeside₁ : Beside s.cursor e s.mem s₁.mem := fun i _ => by rw [hmem]
    rw [← htokens, parseArguments, hs₁]
    dsimp only
    generalize l.dropWhile commandIsSeparator = l₁ at hends htokens hshort hhead ⊢
    cases l₁ with
    | nil =>
      rw [if_pos hends.2]
      refine ⟨s₁, argc, argv, true, rfl, ?_, hbeside₁, hw₁, fun _ => ⟨?_, ?_, fun i _ => rfl⟩⟩
      · rw [Tokens.tokens_nil]
        exact ⟨fun _ => hargc, fun _ => rfl⟩
      · rw [Tokens.tokens_nil]
        rfl
      · intro i hi
        rw [Tokens.tokens_nil] at hi
        exact absurd hi (Nat.not_lt_zero i)
    | cons x l₁ =>
      rw [if_neg (by rw [hends.1]; exact hends.2.1)]
      obtain ⟨s₂, word, rest, hs₂, hcut, hrest, hwords⟩ :=
        cutWord_spec hends (List.cons_ne_nil x l₁) hhead (Nat.lt_of_le_of_lt hshort hfuel) hw₁
      rw [hwords]
      by_cases hmany : commandServiceMaxArgs ≤ argc
      · rw [if_pos hmany]
        refine ⟨s₁, argc, argv, false, rfl, ⟨fun hf => (by cases hf), fun hfit => ?_⟩, hbeside₁, hw₁,
          fun hf => (by cases hf)⟩
        have hfour : commandServiceMaxArgs = 4 := rfl
        rw [List.length_cons] at hfit
        omega
      · have hfour : commandServiceMaxArgs = 4 := rfl
        rw [if_neg hmany, hs₂]
        dsimp only
        have hnext : argc + 1 ≤ 4 := by omega
        obtain ⟨s', argc', argv', fits, hrun, hfits, hbeside, hwithin, hall⟩ :=
          ih hcut.rest (by omega) hnext hcut.within
        refine ⟨s', argc', argv', fits, hrun, ?_, ?_, hwithin, fun hfit => ?_⟩
        · rw [hfits, List.length_cons]
          omega
        · exact (hbeside₁.trans hcut.beside hle).trans hbeside (by have := hcut.advances; omega)
        · obtain ⟨hcount, hstrings, hothers⟩ := hall hfit
          refine ⟨by rw [hcount, List.length_cons]; omega, ?_, fun i hi => ?_⟩
          · intro i hi
            cases i with
            | zero =>
              refine ⟨s₁.cursor, ?_, hcut.string.beside hcut.bounded hbeside⟩
              rw [hothers (argc + 0) (Or.inl (by omega))]
              exact if_pos rfl
            | succ i =>
              obtain ⟨a, ha, hstring⟩ := hstrings i (by rw [List.length_cons] at hi; omega)
              refine ⟨a, ?_, hstring⟩
              rw [← ha]
              congr 1
              omega
          · rw [hothers i (by omega)]
            exact if_neg (by omega)

/-! ## The line -/

/-- The request that a line of some words makes. -/
inductive Parsed (words : List (List UInt8)) : ParsedLine → Prop
  /-- No command, too many arguments, or not as many as the command takes. -/
  | badArgs {p : ParsedLine} (status : p.status = .badArgs) (null : p.descriptor = none)
      (why : words = [] ∨ ∃ method args, words = method :: args ∧ (4 < args.length ∨
        ∃ d, commandRegistry.find? (fun d => d.nameBytes = method) = some d ∧
          (args.length < d.minArgs ∨ d.maxArgs < args.length))) : Parsed words p
  /-- No command of this name. -/
  | notFound {p : ParsedLine} (status : p.status = .notFound) (null : p.descriptor = none)
      (why : ∃ method args, words = method :: args ∧ args.length ≤ 4 ∧
        commandRegistry.find? (fun d => d.nameBytes = method) = none) : Parsed words p
  /-- A command with its arguments. -/
  | ok {p : ParsedLine} (method : List UInt8) (args : List (List UInt8))
      (d : CommandServiceDescriptor) (hwords : words = method :: args) (few : args.length ≤ 4)
      (found : commandRegistry.find? (fun d => d.nameBytes = method) = some d)
      (count : d.minArgs ≤ args.length ∧ args.length ≤ d.maxArgs)
      (status : p.status = .ok) (descriptor : p.descriptor = some d) (argc : p.argc = args.length)
      (strings : ∀ i, (hi : i < args.length) → ∃ a, p.argv i = some a ∧ StringAt p.mem a args[i])
      (others : ∀ i, args.length ≤ i → p.argv i = none) : Parsed words p

/-- The name of every command is a word without a NUL. -/
theorem nameBytes_registry :
    ∀ d ∈ commandRegistry, d.nameBytes ≠ [] ∧ ∀ y ∈ d.nameBytes, y ≠ 0 ∧ commandIsSeparator y = false := by
  decide +kernel

/-- **The end of the parser**, behind a name and no more than four arguments. -/
theorem lookUp_spec {start : ℕ} {method : List UInt8} {args : List (List UInt8)}
    (hw : Within b e s) (hstart : b ≤ start) (hinside : start + method.length ≤ e)
    (hmethod : StringAt s.mem start method)
    (hcut : ArgumentsCut 0 (fun _ => none) args s.mem argc argv) (hfew : args.length ≤ 4) :
    Parsed (method :: args) (lookUp s start argc argv) ∧
      (lookUp s start argc argv).mem = s.mem ∧
      ∀ i ∈ (lookUp s start argc argv).touched, b ≤ i ∧ i ≤ e := by
  obtain ⟨hcount, hstrings, hothers⟩ := hcut
  rw [Nat.zero_add] at hcount
  have hnames : ∀ d ∈ commandRegistry, (0 : UInt8) ∉ d.nameBytes := fun d hd hz =>
    ((nameBytes_registry d hd).2 0 hz).1 rfl
  obtain ⟨hfound, hreads⟩ := commandServiceFind_spec hmethod hnames
  rw [lookUp]
  cases hc : commandServiceFind s.mem start commandRegistry with
  | mk reads found =>
    rw [hc] at hfound hreads
    have htouched : ∀ i ∈ s.touched ++ reads, b ≤ i ∧ i ≤ e := by
      intro i hi
      rcases List.mem_append.1 hi with hi | hi
      · exact hw.2 i hi
      · obtain ⟨hlo, hhi⟩ := hreads i hi
        omega
    cases found with
    | none => exact ⟨.notFound rfl rfl ⟨_, _, rfl, hfew, hfound.symm⟩, rfl, htouched⟩
    | some d =>
      dsimp only
      by_cases hbad : argc < d.minArgs ∨ d.maxArgs < argc
      · rw [if_pos hbad]
        rw [hcount] at hbad
        exact ⟨.badArgs rfl rfl (Or.inr ⟨_, _, rfl, Or.inr ⟨d, hfound.symm, hbad⟩⟩), rfl, htouched⟩
      · rw [if_neg hbad]
        rw [hcount, not_or, Nat.not_lt, Nat.not_lt] at hbad
        refine ⟨.ok method _ d rfl hfew hfound.symm hbad rfl rfl hcount (fun i hi => ?_)
          fun i hi => ?_, rfl, htouched⟩
        · have hat := hstrings i hi
          rwa [Nat.zero_add] at hat
        · exact hothers i (Or.inr (by rw [hcount]; exact hi))

/-- **What a line is parsed to**: what its words say. Nothing behind the NUL is
touched, and nothing outside of the line is changed. -/
theorem parseLine_spec {line : ℕ} (h : Ends mem e line l) (hfuel : l.length < fuel) :
    ∃ p, parseLine fuel mem line = some p ∧ Parsed (tokens commandIsSeparator l) p ∧
      (∀ i ∈ p.touched, line ≤ i ∧ i ≤ e) ∧ Beside line e mem p.mem := by
  have hw : Within line e ⟨mem, line, []⟩ :=
    ⟨Nat.le_refl line, fun i hi => absurd hi List.not_mem_nil⟩
  obtain ⟨s₁, hs₁, hmem, hle, hends, hw₁⟩ := skipSeparators_spec (s := ⟨mem, line, []⟩) h hfuel hw
  have htokens : tokens commandIsSeparator (l.dropWhile commandIsSeparator) =
      tokens commandIsSeparator l := Tokens.tokens_dropWhile l
  have hshort := List.length_dropWhile_le commandIsSeparator l
  have hhead : ∀ y ∈ (l.dropWhile commandIsSeparator).head?, commandIsSeparator y = false :=
    Tokens.sep_head_dropWhile l
  have hbeside₁ : Beside line e mem s₁.mem := fun i _ => by rw [hmem]
  rw [← htokens, parseLine, hs₁]
  dsimp only
  generalize l.dropWhile commandIsSeparator = l₁ at hends htokens hshort hhead ⊢
  cases l₁ with
  | nil =>
    rw [if_pos hends.2]
    exact ⟨_, rfl, .badArgs rfl rfl (Or.inl Tokens.tokens_nil), hw₁.2, hbeside₁⟩
  | cons x l₁ =>
    rw [if_neg (by rw [hends.1]; exact hends.2.1)]
    obtain ⟨s₂, method, rest, hs₂, hcut, hrest, hwords⟩ :=
      cutWord_spec hends (List.cons_ne_nil x l₁) hhead (Nat.lt_of_le_of_lt hshort hfuel) hw₁
    obtain ⟨s', argc', argv', fits, hrun, hfits, hbeside, hwithin, hall⟩ :=
      parseArguments_spec hcut.rest (by omega : rest.length < fuel) (Nat.zero_le 4) hcut.within
    have hbesides : Beside line e mem s'.mem := by
      have hle' : line ≤ s₁.cursor := hle
      have hadv := hcut.advances
      exact (hbeside₁.trans hcut.beside hle').trans hbeside (by omega)
    rw [hwords, hs₂]
    dsimp only
    rw [hrun]
    rw [Nat.zero_add] at hfits
    cases fits with
    | false =>
      have hmany : 4 < (tokens commandIsSeparator rest).length := by
        by_contra hfew
        cases hfits.2 (Nat.le_of_not_lt hfew)
      exact ⟨_, rfl, .badArgs rfl rfl (Or.inr ⟨_, _, rfl, Or.inl hmany⟩), hwithin.2, hbesides⟩
    | true =>
      have hstart : line ≤ s₁.cursor := hle
      have hstring : StringAt s'.mem s₁.cursor method := hcut.string.beside hcut.bounded hbeside
      obtain ⟨hparsed, hsame, htouched⟩ :=
        lookUp_spec hwithin hstart hcut.inside hstring (hall rfl) (hfits.1 rfl)
      exact ⟨_, rfl, hparsed, htouched, by rw [hsame]; exact hbesides⟩

/-! ## More fuel -/

theorem skipSeparators_more (h : skipSeparators fuel s = some s') :
    skipSeparators (fuel + 1) s = some s' := by
  induction fuel generalizing s with
  | zero => cases h
  | succ fuel ih =>
    rw [skipSeparators] at h ⊢
    split
    · rename_i hsep
      rw [if_pos hsep] at h
      exact ih h
    · rename_i hsep
      rwa [if_neg hsep] at h

theorem skipWord_more (h : skipWord fuel s = some s') : skipWord (fuel + 1) s = some s' := by
  induction fuel generalizing s with
  | zero => cases h
  | succ fuel ih =>
    rw [skipWord] at h ⊢
    split
    · rename_i hword
      rw [if_pos hword] at h
      exact ih h
    · rename_i hword
      rwa [if_neg hword] at h

theorem parseArguments_more {r : LineCursor × ℕ × (ℕ → Option ℕ) × Bool}
    (h : parseArguments fuel s argc argv = some r) :
    parseArguments (fuel + 1) s argc argv = some r := by
  induction fuel generalizing s argc argv with
  | zero => cases h
  | succ fuel ih =>
    rw [parseArguments] at h ⊢
    cases hs : skipSeparators (fuel + 1) s with
    | none =>
      rw [hs] at h
      cases h
    | some s₁ =>
      rw [hs] at h
      rw [skipSeparators_more hs]
      dsimp only at h ⊢
      split
      · rename_i hnul
        rwa [if_pos hnul] at h
      · rename_i hnul
        rw [if_neg hnul] at h
        split
        · rename_i hmany
          rwa [if_pos hmany] at h
        · rename_i hmany
          rw [if_neg hmany] at h
          cases hw : skipWord (fuel + 1) s₁ with
          | none =>
            rw [hw] at h
            cases h
          | some s₂ =>
            rw [hw] at h
            rw [skipWord_more hw]
            exact ih h

theorem parseLine_more {line : ℕ} {p : ParsedLine} (h : parseLine fuel mem line = some p) :
    parseLine (fuel + 1) mem line = some p := by
  rw [parseLine] at h ⊢
  cases hs : skipSeparators fuel ⟨mem, line, []⟩ with
  | none =>
    rw [hs] at h
    cases h
  | some s₁ =>
    rw [hs] at h
    rw [skipSeparators_more hs]
    dsimp only at h ⊢
    split
    · rename_i hnul
      rwa [if_pos hnul] at h
    · rename_i hnul
      rw [if_neg hnul] at h
      cases hw : skipWord fuel s₁ with
      | none =>
        rw [hw] at h
        cases h
      | some s₂ =>
        rw [hw] at h
        rw [skipWord_more hw]
        dsimp only at h ⊢
        cases ha : parseArguments fuel s₂.endWord 0 fun _ => none with
        | none =>
          rw [ha] at h
          cases h
        | some r =>
          rw [ha] at h
          rw [parseArguments_more ha]
          exact h

/-- **The parser ends on every line that has a NUL**: with as much fuel as the
line has characters, and with more the same. -/
theorem parseLine_ends {line : ℕ} (h : Ends mem e line l) :
    ∃ p, (∀ fuel, l.length < fuel → parseLine fuel mem line = some p) ∧
      Parsed (tokens commandIsSeparator l) p ∧
      (∀ i ∈ p.touched, line ≤ i ∧ i ≤ e) ∧ Beside line e mem p.mem := by
  obtain ⟨p, hp, hparsed, htouched, hbeside⟩ := parseLine_spec h (Nat.lt_succ_self l.length)
  refine ⟨p, fun fuel hfuel => ?_, hparsed, htouched, hbeside⟩
  obtain ⟨more, rfl⟩ : ∃ k, fuel = l.length + 1 + k := ⟨fuel - (l.length + 1), by omega⟩
  clear hfuel
  induction more with
  | zero => exact hp
  | succ more ih => exact parseLine_more ih

end Rpc

end DeusOs
