import DeusOs.Common.LineEditor
import DeusOs.Common.Ring
import DeusOs.Console.Model.Production
import DeusOs.Rpc.CommandLine

/-!
# The console — what is received

The receive ring is a queue of at most 128 bytes, over every wrap of its
counters (`receive_spec`), and the command line is a line editor of 31
characters, whose lines are parsed inside of their buffer (`feed_spec`). So in
every run the console takes what the interrupt kept, byte by byte and in order,
and executes the lines of it (`Received.step`).
-/

namespace DeusOs

namespace Console

open LineEditor (Keys Reply key run)
open Nor (Mem)
open Rpc (CommandServiceStatus Parsed ParsedLine commandIsSeparator commandServiceLineCapacity
  parseLine)
open Tokens (tokens)

/-! ## The ring -/

/-- A counter's cell is its remainder by the ring's capacity. -/
theorem cell_rxRingMask (c : UInt32) : (c &&& rxRingMask).toNat = c.toNat % rxRingCapacity := by
  rw [UInt32.toNat_and]
  exact Nat.and_two_pow_sub_one_eq_mod c.toNat 7

/-- The counters wrap where the ring does. -/
theorem rxRingCapacity_dvd : rxRingCapacity ∣ 2 ^ 32 := by decide

variable {u : Usart} {l : List UInt8}

/-- What the ring holds. -/
def Usart.Holds (u : Usart) (l : List UInt8) : Prop :=
  Ring.Holds u.rxRing rxRingCapacity u.rxHead u.rxTail l

/-- The number of bytes that wait is told. -/
theorem Usart.Holds.depth (h : u.Holds l) : u.depth.toNat = l.length :=
  (Ring.Holds.depth h (by decide)).2

/-- **A byte is kept** exactly where fewer than 128 wait; one that is not kept
is dropped, and the ring stays as it is. -/
theorem receive_spec (h : u.Holds l) (byte : UInt8) :
    (u.receive byte).2 = decide (l.length < rxRingCapacity) ∧
      (u.receive byte).1.Holds (if l.length < rxRingCapacity then l ++ [byte] else l) ∧
      (u.receive byte).1.rxTail = u.rxTail := by
  have hdepth := (Ring.Holds.depth h (by decide)).2
  by_cases hroom : l.length < rxRingCapacity
  · rw [Usart.receive]
    simp only [hdepth, if_pos hroom, cell_rxRingMask]
    exact ⟨(decide_eq_true hroom).symm, Ring.Holds.push h rxRingCapacity_dvd (d := [byte]) hroom, trivial⟩
  · rw [Usart.receive]
    simp only [hdepth, if_neg hroom]
    exact ⟨(decide_eq_false hroom).symm, h, trivial⟩

theorem irqService_spec (h : u.Holds l) (status dr : UInt32) :
    (u.irqService status dr).2 =
        (decide (status &&& statusRxne ≠ 0) && decide (l.length < rxRingCapacity)) ∧
      (u.irqService status dr).1.Holds
        (if (u.irqService status dr).2 = true then l ++ [dr.toUInt8] else l) ∧
      (u.irqService status dr).1.rxTail = u.rxTail := by
  obtain ⟨v, hv⟩ : ∃ v : Usart, v = { u with
      rxIrqCount := u.rxIrqCount + 1
      rxErrorCount := if status &&& statusErrors ≠ 0 then u.rxErrorCount + 1 else u.rxErrorCount } :=
    ⟨_, rfl⟩
  have hholds : v.Holds l := by
    rw [hv]
    exact h
  have htail : v.rxTail = u.rxTail := by rw [hv]
  have hservice : u.irqService status dr =
      if status &&& statusRxne ≠ 0 then v.receive dr.toUInt8 else (v, false) := by
    rw [Usart.irqService, hv]
  rw [hservice]
  by_cases hrxne : status &&& statusRxne ≠ 0
  · obtain ⟨hpublished, hkept, htail'⟩ := receive_spec hholds dr.toUInt8
    rw [if_pos hrxne, decide_eq_true hrxne, Bool.true_and, hpublished]
    refine ⟨rfl, ?_, htail'.trans htail⟩
    simpa only [decide_eq_true_eq] using hkept
  · rw [if_neg hrxne, decide_eq_false hrxne]
    exact ⟨rfl, hholds, htail⟩

/-- The tail is loaded where a byte waits. -/
theorem loadTail_spec (h : u.Holds l) :
    u.loadTail = if l = [] then none else some u.rxTail := by
  have hdepth := h.depth
  by_cases hempty : u.rxTail = u.rxHead
  · have hnil : l = [] := by
      rw [Usart.depth, hempty, UInt32.sub_self] at hdepth
      exact List.length_eq_zero_iff.1 hdepth.symm
    rw [Usart.loadTail, if_pos hempty, if_pos hnil]
  · have hne : l ≠ [] := by
      rintro rfl
      exact hempty (by simpa using h.head_eq.symm)
    rw [Usart.loadTail, if_neg hempty, if_neg hne]

/-- **The byte at the tail** is the first that waits, since it was stored when
the head was there. -/
theorem loadByte_spec {byte : UInt8} {rest : List UInt8} (h : u.Holds (byte :: rest)) :
    u.loadByte u.rxTail = byte := by
  have hcontents := h.contents_eq
  rw [List.length_cons, Nat.add_comm, Ring.contents_add, Ring.contents_one] at hcontents
  rw [Usart.loadByte, cell_rxRingMask]
  exact (List.cons.inj hcontents).1

theorem storeTail_spec {byte : UInt8} {rest : List UInt8} (h : u.Holds (byte :: rest)) :
    (u.storeTail u.rxTail).Holds rest :=
  Ring.Holds.advance h rxRingCapacity_dvd (m := 1) (Nat.succ_le_of_lt (Nat.zero_lt_succ _))

/-! ## The command line -/

/-- What the characters are for. -/
def consoleKeys : Keys UInt8 where
  ends c := c = 0x0D || c = 0x0A
  erases c := c = 0x08 || c = 0x7F

/-- The longest line. -/
abbrev lineMost : ℕ := commandServiceLineCapacity - 1

/-- The string that a line is, read up to its first NUL. -/
def lineText (line : List UInt8) : List UInt8 := line.takeWhile (· ≠ 0)

/-- Behind the string is a NUL. -/
theorem getElem_lineText {line : List UInt8} (h : (lineText line).length < line.length) :
    (line)[(lineText line).length] = 0 := by
  have hsplit : lineText line ++ line.dropWhile (· ≠ 0) = line := List.takeWhile_append_dropWhile
  have hhead := List.head?_dropWhile_not (fun x : UInt8 => decide (x ≠ 0)) line
  cases hrest : line.dropWhile (· ≠ 0) with
  | nil =>
    rw [hrest, List.append_nil] at hsplit
    rw [hsplit] at h
    exact absurd h (Nat.lt_irrefl _)
  | cons y rest =>
    rw [hrest] at hsplit hhead
    rw [List.getElem_of_append hsplit.symm rfl]
    simpa using hhead

/-- The console does what the editor says, and a line is parsed to what its
words say, inside of its buffer. -/
inductive Reacts : Reply UInt8 → Reaction → Prop
  | refused : Reacts .refused .refused
  | executed {line : List UInt8} {p : ParsedLine} (parsed : Parsed (tokens commandIsSeparator (lineText line)) p)
      (inside : ∀ i ∈ p.touched, i < commandServiceLineCapacity) :
      Reacts (.line line) (.executed line (some p))

/-- The buffer holds the line. -/
structure Edits (state : CommandState) (line : List UInt8) : Prop where
  length : state.length = line.length
  fits : line.length ≤ lineMost
  bytes : state.data.bytes 0 line.length = line

variable {state : CommandState} {line : List UInt8} {c : UInt8}

/-- The buffer holds the characters of the line. -/
theorem Edits.getElem (h : Edits state line) {i : ℕ} (hi : i < line.length) :
    state.data i = (line)[i] := by
  have hlt : i < (state.data.bytes 0 line.length).length := by
    rw [Mem.length_bytes]
    exact hi
  have hbytes := List.getElem_of_eq h.bytes hlt
  rw [Mem.getElem_bytes, Nat.zero_add] at hbytes
  exact hbytes

/-- **A line is executed** as its words say, and the buffer is empty again for
the next one. -/
theorem executeState_spec (h : Edits state line) :
    Edits (consoleExecuteState state).1 [] ∧ Reacts (.line line) (consoleExecuteState state).2 := by
  obtain ⟨data, hdata⟩ : ∃ data : Mem, data = Function.update state.data state.length 0 := ⟨_, rfl⟩
  have hle : (lineText line).length ≤ line.length := (List.takeWhile_prefix _).length_le
  have hat : ∀ i, (hi : i < (lineText line).length) → data i = (lineText line)[i] := by
    intro i hi
    have hlt : i < line.length := Nat.lt_of_lt_of_le hi hle
    rw [hdata, Function.update_of_ne (by rw [h.length]; omega), h.getElem hlt]
    exact ((List.takeWhile_prefix _).getElem hi).symm
  have hnul : data (0 + (lineText line).length) = 0 := by
    rw [Nat.zero_add, hdata]
    rcases Nat.lt_or_eq_of_le hle with hlt | heq
    · rw [Function.update_of_ne (by rw [h.length]; omega), h.getElem hlt]
      exact getElem_lineText hlt
    · rw [heq, ← h.length, Function.update_self]
  have hends : Rpc.Ends data (0 + (lineText line).length) 0 (data.bytes 0 (lineText line).length) := by
    refine Rpc.ends_bytes hnul fun i hi => ?_
    rw [Nat.zero_add, hat i hi]
    have hmem := List.mem_takeWhile_imp (List.getElem_mem hi)
    simpa using hmem
  have htext : data.bytes 0 (lineText line).length = lineText line := by
    refine List.ext_getElem (Mem.length_bytes _ _ _) fun i hi hi' => ?_
    rw [Mem.getElem_bytes, Nat.zero_add, hat i hi']
  rw [htext] at hends
  obtain ⟨p, hparse, hparsed, htouched, -⟩ := Rpc.parseLine_ends hends
  have hfits := h.fits
  have hfuel : parseLine commandServiceLineCapacity data 0 = some p :=
    hparse _ (Nat.lt_of_le_of_lt (Nat.le_trans hle hfits) (by decide))
  have hline : state.data.bytes 0 state.length = line := by
    rw [h.length]
    exact h.bytes
  rw [consoleExecuteState]
  simp only [← hdata, hfuel, hline]
  refine ⟨⟨rfl, Nat.zero_le _, rfl⟩, .executed hparsed fun i hi => ?_⟩
  have hin := (htouched i hi).2
  have hmost : lineMost < commandServiceLineCapacity := by decide
  omega

/-- **The buffer is the editor's line,** key by key; and what the console does
at a key is what the editor replies. -/
theorem feed_spec (h : Edits state line) (c : UInt8) :
    Edits (consoleFeedChar state c).1 (key consoleKeys lineMost line c).1 ∧
      List.Forall₂ Reacts (key consoleKeys lineMost line c).2.toList
        (consoleFeedChar state c).2.toList := by
  have hends : consoleKeys.ends c = true ↔ c = 0x0D ∨ c = 0x0A := by simp [consoleKeys]
  have herases : consoleKeys.erases c = true ↔ c = 0x08 ∨ c = 0x7F := by simp [consoleKeys]
  have hempty : line.length ≠ 0 ↔ line ≠ [] := not_congr List.length_eq_zero_iff
  rw [consoleFeedChar, key]
  simp only [hends, herases, h.length, hempty]
  by_cases hend : c = 0x0D ∨ c = 0x0A
  · rw [if_pos hend, if_pos hend]
    by_cases hline : line = []
    · rw [if_pos hline, if_neg (not_not.2 hline)]
      rw [hline] at h
      exact ⟨h, .nil⟩
    · rw [if_neg hline, if_pos hline]
      obtain ⟨hnew, hreacts⟩ := executeState_spec h
      exact ⟨hnew, .cons hreacts .nil⟩
  rw [if_neg hend, if_neg hend]
  by_cases herase : c = 0x08 ∨ c = 0x7F
  · rw [if_pos herase, if_pos herase]
    refine ⟨?_, ?_⟩
    · by_cases hline : line = []
      · rw [if_neg (not_not.2 hline), hline]
        rw [hline] at h
        exact h
      · rw [if_pos hline]
        refine ⟨List.length_dropLast.symm, ?_, ?_⟩
        · rw [List.length_dropLast]
          exact Nat.le_trans (Nat.sub_le _ 1) h.fits
        · obtain ⟨front, last, rfl⟩ : ∃ front last, line = front ++ [last] :=
            ⟨line.dropLast, line.getLast hline, (List.dropLast_append_getLast hline).symm⟩
          have hbytes := h.bytes
          rw [List.length_append, Mem.bytes_add] at hbytes
          rw [List.dropLast_concat]
          exact (List.append_inj hbytes (Mem.length_bytes _ _ _)).1
    · split <;> exact .nil
  rw [if_neg herase, if_neg herase]
  by_cases hroom : line.length < lineMost
  · rw [if_pos hroom, if_pos hroom]
    refine ⟨⟨?_, ?_, ?_⟩, .nil⟩
    · rw [List.length_append, List.length_singleton]
    · rw [List.length_append, List.length_singleton]
      exact hroom
    · rw [List.length_append, Mem.bytes_add, Mem.bytes_congr (g := state.data) fun i hi => ?_, h.bytes]
      · rw [List.length_singleton]
        simp [Mem.bytes]
      · rw [Nat.zero_add]
        exact Function.update_of_ne (Nat.ne_of_lt hi) _ _
  · rw [if_neg hroom, if_neg hroom]
    exact ⟨⟨rfl, Nat.zero_le _, rfl⟩, .cons .refused .nil⟩

/-! ## The receiver -/

/-- The bytes that were kept and not yet taken. -/
def Production.unread (s : Production) : List UInt8 := s.kept.drop s.taken.length

/-- What the task has in hand while it takes a byte. -/
def InHand (rxTail : UInt32) (unread : List UInt8) : ConsolePoint → Prop
  | .loading tail => tail = rxTail ∧ unread ≠ []
  | .storing tail byte => tail = rxTail ∧ unread.head? = some byte
  | _ => True

/-- The receiver, between two steps: the ring holds what was kept and not yet
taken, a byte was kept where there was room, and the line and what came of it
are the editor's, over what was taken. -/
structure Received (s : Production) : Prop where
  taken : s.taken <+: s.kept
  ring : s.usart.Holds s.unread
  offered : s.kept = (s.offered.filter Prod.snd).map Prod.fst
  inHand : InHand s.usart.rxTail s.unread s.console
  line : Edits s.line (run consoleKeys lineMost ([], []) s.taken).1
  reactions : List.Forall₂ Reacts (run consoleKeys lineMost ([], []) s.taken).2 s.reactions

variable {s : Production} {b : Boot}

theorem Received.length_unread (s : Production) : s.unread.length = s.kept.length - s.taken.length :=
  List.length_drop

/-- What was kept is what was taken and what is unread, in this order. -/
theorem Received.kept_eq (h : Received s) : s.kept = s.taken ++ s.unread := by
  obtain ⟨rest, hrest⟩ := h.taken
  rw [Production.unread, ← hrest, List.drop_left]

/-- A byte that is kept comes behind those that wait. -/
theorem Received.usartIrq (h : Received s) (status dr : UInt32) :
    Received (s.usartIrq status dr) ∧
      (s.usartIrq status dr).unread =
        if (s.usart.irqService status dr).2 = true then s.unread ++ [dr.toUInt8] else s.unread := by
  obtain ⟨hpublished, hholds, htail⟩ := irqService_spec h.ring status dr
  have hunread : (s.usartIrq status dr).unread =
      if (s.usart.irqService status dr).2 = true then s.unread ++ [dr.toUInt8] else s.unread := by
    rw [Production.unread, Production.usartIrq]
    dsimp only
    split
    · rw [List.drop_append_of_le_length h.taken.length_le]
      rfl
    · rfl
  refine ⟨⟨?_, ?_, ?_, ?_, h.line, h.reactions⟩, hunread⟩
  · rw [Production.usartIrq]
    dsimp only
    split
    · exact h.taken.trans (List.prefix_append _ _)
    · exact h.taken
  · rw [hunread]
    exact hholds
  · rw [Production.usartIrq]
    dsimp only
    rw [hpublished, Received.length_unread]
    by_cases hrxne : status &&& statusRxne ≠ 0
    · rw [if_pos hrxne, decide_eq_true hrxne, Bool.true_and, List.filter_append, List.map_append,
        ← h.offered]
      by_cases hroom : s.kept.length - s.taken.length < rxRingCapacity
      · rw [decide_eq_true hroom, if_pos rfl]
        rfl
      · rw [decide_eq_false hroom, if_neg Bool.false_ne_true]
        exact (List.append_nil _).symm
    · rw [if_neg hrxne, decide_eq_false hrxne, Bool.false_and, if_neg Bool.false_ne_true]
      exact h.offered
  · rw [hunread]
    change InHand (s.usart.irqService status dr).1.rxTail _ s.console
    rw [htail]
    have hhand := h.inHand
    cases hconsole : s.console with
    | loading tail =>
      rw [hconsole] at hhand
      refine ⟨hhand.1, ?_⟩
      split
      · exact List.append_ne_nil_of_left_ne_nil hhand.2 _
      · exact hhand.2
    | storing tail byte =>
      rw [hconsole] at hhand
      refine ⟨hhand.1, ?_⟩
      split
      · rw [List.head?_append, hhand.2]
        rfl
      · exact hhand.2
    | starting => trivial
    | polling => trivial
    | feeding => trivial
    | serving => trivial
    | waiting => trivial
    | returned => trivial

/-- Whatever is no access of the ring. -/
theorem Received.moved (h : Received s) {scheduler : Kernel.Scheduler} {console : ConsolePoint}
    {heartbeat : HeartbeatPoint} {signalling : Bool}
    (hhand : InHand s.usart.rxTail s.unread console) :
    Received { s with scheduler, console, heartbeat, signalling } :=
  ⟨h.taken, h.ring, h.offered, hhand, h.line, h.reactions⟩

/-- **The console takes the first byte that waits,** and feeds it to its line.
The tail is published after the byte was loaded, so nothing is overwritten in
between. -/
theorem Received.consoleStep (h : Received s) (b : Boot) : Received (s.consoleStep b) := by
  have hhand := h.inHand
  unfold Production.consoleStep
  cases hconsole : s.console with
  | starting =>
    dsimp only
    split
    · exact h.moved trivial
    · exact h.moved trivial
  | polling =>
    dsimp only
    rw [loadTail_spec h.ring]
    by_cases hnil : s.unread = []
    · rw [if_pos hnil]
      exact h.moved trivial
    · rw [if_neg hnil]
      exact h.moved ⟨rfl, hnil⟩
  | loading tail =>
    rw [hconsole] at hhand
    obtain ⟨rfl, hne⟩ := hhand
    obtain ⟨byte, rest, hunread⟩ := List.exists_cons_of_ne_nil hne
    have hring := h.ring
    rw [hunread] at hring
    dsimp only
    rw [loadByte_spec hring]
    refine h.moved ⟨rfl, ?_⟩
    rw [hunread]
    rfl
  | storing tail byte =>
    rw [hconsole] at hhand
    obtain ⟨rfl, hhead⟩ := hhand
    obtain ⟨rest, hunread⟩ : ∃ rest, s.unread = byte :: rest := by
      cases hcases : s.unread with
      | nil =>
        rw [hcases] at hhead
        cases hhead
      | cons first rest =>
        rw [hcases, List.head?_cons, Option.some.injEq] at hhead
        rw [hhead]
        exact ⟨rest, rfl⟩
    have hring := h.ring
    rw [hunread] at hring
    have hkept : s.kept = s.taken ++ [byte] ++ rest := by
      rw [h.kept_eq, hunread, List.append_assoc, List.singleton_append]
    obtain ⟨hline, hreacts⟩ := feed_spec h.line byte
    have hdrop : s.kept.drop (s.taken ++ [byte]).length = rest := by rw [hkept, List.drop_left]
    dsimp only
    refine ⟨⟨rest, hkept.symm⟩, ?_, h.offered, trivial, ?_, ?_⟩
    · change (s.usart.storeTail s.usart.rxTail).Holds (s.kept.drop (s.taken ++ [byte]).length)
      rw [hdrop]
      exact storeTail_spec hring
    · rw [LineEditor.run_concat]
      exact hline
    · rw [LineEditor.run_concat]
      exact List.rel_append h.reactions hreacts
  | feeding => exact h.moved trivial
  | serving => exact h.moved trivial
  | waiting =>
    dsimp only
    split
    · exact h.moved trivial
    · exact h.moved trivial
  | returned =>
    dsimp only
    exact h.moved trivial

/-- **Every step keeps the receiver.** The interrupt moves the head and the
console the tail, each its own counter only. -/
theorem Received.step (h : Received s) (b : Boot) (ev : Production.Step) :
    Received (s.step b ev) := by
  cases ev with
  | usart status dr => exact (h.usartIrq status dr).1
  | console => exact h.consoleStep b
  | heartbeat =>
    rw [Production.step, Production.heartbeatStep]
    split
    · split
      · exact h.moved h.inHand
      · exact h.moved h.inHand
    · exact h.moved h.inHand
    · split
      · exact h.moved h.inHand
      · exact h.moved h.inHand
    · exact h.moved h.inHand
  | usartSignal => exact h.moved h.inHand
  | usbNotify => exact h.moved h.inHand
  | sysTick now => exact h.moved h.inHand
  | host => exact h.moved h.inHand
  | command call => exact h.moved h.inHand

end Console

end DeusOs
