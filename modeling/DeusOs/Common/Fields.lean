import Mathlib.Data.List.DropRight
import Mathlib.Data.List.Nodup
import Mathlib.Tactic.Common

/-!
# Fields

A text of lines, and a line of fields: a key, a mark and a value each, with
separators between them. Reading accepts a line exactly when its entries are
fields with keys of their own (`readFields_ok_iff`), so a line that was
written from such fields is read as these (`readFields_writeLine`), and a text
that was written from lines is cut into these (`lines_writeLines`).
-/

namespace Fields

variable {α : Type*} [DecidableEq α] {sep mark cr lf : α} {blank : α → Bool}
  {l line key value token : List α} {words ls : List (List α)}
  {values values' more : List (List α × List α)}

/-! ## Lines -/

/-- The pieces of a text between line ends, which are `lf` or `cr lf`. -/
def pieces (cr lf : α) : List α → List (List α)
  | [] => [[]]
  | [c] => if c = lf then [[], []] else [[c]]
  | c :: d :: l =>
    if c = cr ∧ d = lf then [] :: pieces cr lf l
    else if c = lf then [] :: pieces cr lf (d :: l)
    else (pieces cr lf (d :: l)).modifyHead (c :: ·)

/-- The lines of a text, without those that are empty. -/
def lines (cr lf : α) (l : List α) : List (List α) := (pieces cr lf l).filter (· ≠ [])

/-- A text of lines, each of which is ended. -/
def writeLines (cr lf : α) (ls : List (List α)) : List α := ls.flatMap (· ++ [cr, lf])

/-- The first line ends where its end is. -/
theorem pieces_line (hne : cr ≠ lf) (hline : lf ∉ line) (l : List α) :
    pieces cr lf (line ++ cr :: lf :: l) = line :: pieces cr lf l := by
  induction line with
  | nil => rw [List.nil_append, pieces, if_pos ⟨rfl, rfl⟩]
  | cons c line ih =>
    rw [List.mem_cons, not_or] at hline
    obtain ⟨d, rest, hrest, hd⟩ : ∃ d rest, line ++ cr :: lf :: l = d :: rest ∧ d ≠ lf := by
      cases line with
      | nil => exact ⟨cr, lf :: l, rfl, hne⟩
      | cons d line =>
        exact ⟨d, line ++ cr :: lf :: l, rfl, fun h => hline.2 (by rw [h]; exact List.mem_cons_self)⟩
    have hstep := ih hline.2
    rw [hrest] at hstep
    rw [List.cons_append, hrest, pieces, if_neg fun h => hd h.2, if_neg (Ne.symm hline.1), hstep]
    rfl

/-- **What was written in lines is cut into these,** because no line is empty
and none holds the character that ends one. -/
theorem lines_writeLines (hne : cr ≠ lf) (h : ∀ line ∈ ls, line ≠ [] ∧ lf ∉ line) :
    lines cr lf (writeLines cr lf ls) = ls := by
  induction ls with
  | nil => rfl
  | cons line ls ih =>
    rw [List.forall_mem_cons] at h
    have hcut : pieces cr lf (writeLines cr lf (line :: ls)) =
        line :: pieces cr lf (writeLines cr lf ls) := by
      have hpieces := pieces_line hne h.1.2 (writeLines cr lf ls)
      rw [← hpieces, writeLines, List.flatMap_cons, List.append_assoc]
      rfl
    rw [lines, hcut, List.filter_cons_of_pos (by simpa using h.1.1)]
    exact congrArg (line :: ·) (ih h.2)

/-! ## Entries -/

/-- Blanks are taken off at both ends. -/
def trim (blank : α → Bool) (l : List α) : List α := (l.dropWhile blank).rdropWhile blank

/-- The entries between separators, trimmed, without those that are empty. -/
def entries (sep : α) (blank : α → Bool) (l : List α) : List (List α) :=
  ((l.splitOn sep).map (trim blank)).filter (· ≠ [])

/-- A word: no entry of several, and nothing of it is trimmed. -/
structure Word (sep : α) (blank : α → Bool) (word : List α) : Prop where
  ne_nil : word ≠ []
  sep : sep ∉ word
  blank : ∀ c ∈ word, blank c = false

omit [DecidableEq α] in
theorem trim_eq_self (h : ∀ c ∈ l, blank c = false) : trim blank l = l := by
  have hdrop : l.dropWhile blank = l := by
    cases l with
    | nil => rfl
    | cons c l =>
      have hc : ¬blank c = true := by rw [h c List.mem_cons_self]; exact Bool.false_ne_true
      exact List.dropWhile_cons_of_neg hc
  rw [trim, hdrop, List.rdropWhile_eq_self_iff]
  intro hl
  rw [h _ (List.getLast_mem hl)]
  exact Bool.false_ne_true

/-- **The entries of joined words are these,** because no word holds a
separator, and trimming changes none. -/
theorem entries_intercalate (h : ∀ word ∈ words, Word sep blank word) :
    entries sep blank ([sep].intercalate words) = words := by
  by_cases hnil : words = []
  · subst hnil
    rfl
  · have htrim : words.map (trim blank) = words := by
      conv_rhs => rw [← List.map_id words]
      exact List.map_congr_left fun word hword => trim_eq_self (h word hword).blank
    rw [entries, List.splitOn_intercalate _ (fun word hword => (h word hword).sep) hnil, htrim,
      List.filter_eq_self]
    intro word hword
    simpa using (h word hword).ne_nil

/-! ## Fields -/

/-- What a line of fields is refused for. -/
inductive Fault (α : Type*)
  /-- An entry is no key, mark and value. -/
  | malformed (token : List α)
  /-- A key is there twice. -/
  | duplicate (key : List α)

/-- The key and the value around the first mark. -/
def cut (mark : α) (token : List α) : Option (List α × List α) :=
  let separator := token.idxOf mark
  if mark ∉ token ∨ separator = 0 ∨ separator + 1 = token.length then none
  else some (token.take separator, token.drop (separator + 1))

/-- A field, as it is written. -/
def writeField (mark : α) (p : List α × List α) : List α := p.1 ++ mark :: p.2

/-- A line of fields, as it is written. -/
def writeLine (sep mark : α) (values : List (List α × List α)) : List α :=
  [sep].intercalate (values.map (writeField mark))

/-- A field that can be read back. -/
structure Field (mark : α) (p : List α × List α) : Prop where
  key : p.1 ≠ []
  mark : mark ∉ p.1
  value : p.2 ≠ []

/-- One more field is put into the dictionary, under a key of its own. -/
def addField (mark : α) (values : List (List α × List α)) (token : List α) :
    Except (Fault α) (List (List α × List α)) :=
  match cut mark token with
  | none => .error (.malformed token)
  | some (key, value) =>
    if key ∈ values.map Prod.fst then .error (.duplicate key) else .ok (values ++ [(key, value)])

/-- The fields of a line. -/
def readFields (sep mark : α) (blank : α → Bool) (l : List α) :
    Except (Fault α) (List (List α × List α)) :=
  (entries sep blank l).foldlM (addField mark) []

/-- A field is cut at its first mark. -/
theorem cut_eq_some_iff {p : List α × List α} :
    cut mark token = some p ↔ token = writeField mark p ∧ Field mark p := by
  constructor
  · intro h
    unfold cut at h
    dsimp only at h
    split at h
    · cases h
    · rename_i hgood
      rw [not_or, not_or, not_not] at hgood
      obtain ⟨hmem, hzero, hlast⟩ := hgood
      have hlt := List.idxOf_lt_length_of_mem hmem
      have hget : token[token.idxOf mark] = mark := List.getElem_idxOf hlt
      cases h
      refine ⟨?_, ?_, ?_, ?_⟩
      · rw [writeField]
        conv_lhs => rw [← List.take_append_drop (token.idxOf mark) token, List.drop_eq_getElem_cons hlt,
          hget]
      · rw [ne_eq, List.take_eq_nil_iff, not_or]
        exact ⟨hzero, List.ne_nil_of_mem hmem⟩
      · intro hin
        exact absurd ((List.mem_take_iff_idxOf_lt hmem).1 hin) (Nat.lt_irrefl _)
      · rw [ne_eq, List.drop_eq_nil_iff]
        omega
  · rintro ⟨rfl, h⟩
    have hidx : (writeField mark p).idxOf mark = p.1.length := by
      rw [writeField, List.idxOf_append_of_notMem h.mark, List.idxOf_cons_self, Nat.add_zero]
    have hlen : (writeField mark p).length = p.1.length + (p.2.length + 1) := by
      rw [writeField, List.length_append, List.length_cons]
    have hkey := List.length_pos_iff.2 h.key
    have hvalue := List.length_pos_iff.2 h.value
    have hmem : mark ∈ writeField mark p := List.mem_append_right _ List.mem_cons_self
    rw [cut, hidx, hlen, if_neg (by rintro (h | h | h) <;> first | exact h hmem | omega)]
    have hdrop : (writeField mark p).drop (p.1.length + 1) = p.2 := by
      rw [writeField, ← List.drop_drop, List.drop_left]
      rfl
    rw [hdrop, writeField, List.take_left]

/-- What is put into the dictionary. -/
theorem addField_eq_ok_iff : addField mark values token = .ok values' ↔
    ∃ p, token = writeField mark p ∧ Field mark p ∧ p.1 ∉ values.map Prod.fst ∧
      values' = values ++ [p] := by
  unfold addField
  rcases hcut : cut mark token with - | ⟨key, value⟩
  · constructor
    · intro h
      cases h
    · rintro ⟨p, hp, hfield, -⟩
      rw [cut_eq_some_iff.2 ⟨hp, hfield⟩] at hcut
      cases hcut
  · have hfield := cut_eq_some_iff.1 hcut
    dsimp only
    constructor
    · intro h
      split at h
      · cases h
      · rename_i hnew
        cases h
        exact ⟨(key, value), hfield.1, hfield.2, hnew, rfl⟩
    · rintro ⟨p, hp, hp', hnew, rfl⟩
      rw [cut_eq_some_iff.2 ⟨hp, hp'⟩] at hcut
      cases hcut
      exact if_neg hnew

theorem foldlM_addField (values : List (List α × List α)) :
    words.foldlM (addField mark) values = .ok values' ↔
      ∃ more, words = more.map (writeField mark) ∧ (∀ p ∈ more, Field mark p) ∧
        (more.map Prod.fst).Nodup ∧ (∀ p ∈ more, p.1 ∉ values.map Prod.fst) ∧
        values' = values ++ more := by
  induction words generalizing values with
  | nil =>
    rw [List.foldlM_nil]
    constructor
    · intro h
      cases h
      exact ⟨[], rfl, fun p hp => absurd hp List.not_mem_nil, List.nodup_nil,
        fun p hp => absurd hp List.not_mem_nil, (List.append_nil _).symm⟩
    · rintro ⟨more, hmore, -, -, -, rfl⟩
      rw [List.map_eq_nil_iff.1 hmore.symm, List.append_nil]
      rfl
  | cons token words ih =>
    rw [List.foldlM_cons]
    constructor
    · intro h
      rcases hadd : addField mark values token with fault | found
      · rw [hadd] at h
        cases h
      · rw [hadd] at h
        obtain ⟨p, rfl, hfield, hnew, rfl⟩ := addField_eq_ok_iff.1 hadd
        obtain ⟨more, rfl, hfields, hnodup, hapart, rfl⟩ := (ih _).1 h
        have hkeys : p.1 ∉ more.map Prod.fst := by
          rintro hin
          obtain ⟨q, hq, hkey⟩ := List.mem_map.1 hin
          refine hapart q hq ?_
          rw [List.map_append, hkey]
          exact List.mem_append_right _ List.mem_cons_self
        refine ⟨p :: more, rfl, ?_, List.nodup_cons.2 ⟨hkeys, hnodup⟩, ?_, ?_⟩
        · rw [List.forall_mem_cons]
          exact ⟨hfield, hfields⟩
        · rw [List.forall_mem_cons]
          refine ⟨hnew, fun q hq hin => hapart q hq ?_⟩
          rw [List.map_append]
          exact List.mem_append_left _ hin
        · rw [List.append_assoc]
          rfl
    · rintro ⟨more, hmore, hfields, hnodup, hapart, rfl⟩
      cases more with
      | nil => cases hmore
      | cons p more =>
        rw [List.map_cons, List.cons.injEq] at hmore
        rw [List.map_cons, List.nodup_cons] at hnodup
        rw [List.forall_mem_cons] at hfields hapart
        have hadd := addField_eq_ok_iff.2 ⟨p, hmore.1, hfields.1, hapart.1, rfl⟩
        rw [hadd]
        refine (ih _).2 ⟨more, hmore.2, hfields.2, hnodup.2, fun q hq hin => ?_, ?_⟩
        · rw [List.map_append, List.mem_append] at hin
          rcases hin with hin | hin
          · exact hapart.2 q hq hin
          · rw [List.map_singleton, List.mem_singleton] at hin
            refine hnodup.1 ?_
            rw [← hin]
            exact List.mem_map_of_mem hq
        · rw [List.append_assoc]
          rfl

/-- **A line is accepted** exactly when its entries are fields with keys of
their own. -/
theorem readFields_ok_iff : readFields sep mark blank l = .ok values ↔
    entries sep blank l = values.map (writeField mark) ∧ (∀ p ∈ values, Field mark p) ∧
      (values.map Prod.fst).Nodup := by
  rw [readFields, foldlM_addField]
  constructor
  · rintro ⟨more, hmore, hfields, hnodup, -, rfl⟩
    exact ⟨hmore, hfields, hnodup⟩
  · rintro ⟨hwords, hfields, hnodup⟩
    exact ⟨values, hwords, hfields, hnodup, fun p _ => List.not_mem_nil, rfl⟩

/-- A field that is one word on its line. -/
structure Writable (sep mark : α) (blank : α → Bool) (p : List α × List α) : Prop where
  field : Field mark p
  word : Word sep blank (writeField mark p)

/-- **A line that was written is read back,** with its fields in order. No name
may stand in it twice: the reader refuses such a line. -/
theorem readFields_writeLine (hfields : ∀ p ∈ values, Writable sep mark blank p)
    (hnodup : (values.map Prod.fst).Nodup) :
    readFields sep mark blank (writeLine sep mark values) = .ok values := by
  refine readFields_ok_iff.2 ⟨entries_intercalate fun word hword => ?_,
    fun p hp => (hfields p hp).field, hnodup⟩
  obtain ⟨p, hp, rfl⟩ := List.mem_map.1 hword
  exact (hfields p hp).word

omit [DecidableEq α] in
/-- A value of words makes a field that can be written. -/
theorem writable_of (hkey : Word sep blank key) (hvalue : Word sep blank value)
    (hmark : mark ∉ key) (hsep : mark ≠ sep) (hblank : blank mark = false) :
    Writable sep mark blank (key, value) where
  field := ⟨hkey.ne_nil, hmark, hvalue.ne_nil⟩
  word := by
    refine ⟨List.append_ne_nil_of_left_ne_nil hkey.ne_nil _, ?_, ?_⟩
    · rw [writeField, List.mem_append, List.mem_cons]
      rintro (h | h | h)
      · exact hkey.sep h
      · exact hsep h.symm
      · exact hvalue.sep h
    · rw [writeField]
      intro c hc
      rcases List.mem_append.1 hc with h | h
      · exact hkey.blank c h
      · rcases List.mem_cons.1 h with rfl | h
        · exact hblank
        · exact hvalue.blank c h

end Fields
