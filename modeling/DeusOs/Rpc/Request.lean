import DeusOs.Host.Model.RpcRequest
import DeusOs.Rpc.Model.BinaryRpc

/-!
# What the device decodes of a request

The device takes exactly the requests that the host's encoder writes
(`request_codec`): the arguments stand one behind the other, each behind its
length, up to the end of the payload. What it reads is inside the payload,
and what it writes is inside the argument storage, whatever the payload is.
-/

namespace DeusOs

namespace Rpc

open Host (writePayload utf8GetBytes encodePayload)
open LittleEndian (write16)
open Nor (Mem)

variable {payload : Mem} {payloadLength left argIndex offset : ℕ} {d d' : Decoding}
  {argument : List UInt8} {arguments : List (List UInt8)}

/-! ## One argument -/

/-- An argument that fits a row and ends where its NUL is. -/
def Plain (argument : List UInt8) : Prop := argument.length ≤ 31 ∧ (0 : UInt8) ∉ argument

instance (argument : List UInt8) : Decidable (Plain argument) :=
  inferInstanceAs (Decidable (_ ∧ _))

/-- The arguments as they stand in a payload. -/
def layOut (arguments : List (List UInt8)) : List UInt8 :=
  arguments.flatMap fun argument => UInt8.ofNat argument.length :: argument

/-- The arguments stand in the payload from an offset on. -/
def Laid (payload : Mem) (payloadLength : ℕ) : ℕ → List (List UInt8) → Prop
  | _, [] => True
  | offset, argument :: arguments => offset < payloadLength ∧
      (payload offset).toNat = argument.length ∧
      payload.bytes (offset + 1) argument.length = argument ∧
      offset + 1 + argument.length ≤ payloadLength ∧
      Laid payload payloadLength (offset + 1 + argument.length) arguments

/-- The decoding with one argument more. -/
def Decoding.take (d : Decoding) (argIndex : ℕ) (argument : List UInt8) : Decoding :=
  let span := (List.range argument.length).map fun byteIndex => d.offset + 1 + byteIndex
  let d := { d with
    offset := d.offset + 1
    reads := d.reads ++ [d.offset] }
  let d := { d with
    badArgs := d.badArgs || decide (rpcMaxArgBytes < argument.length) ||
      decide ((0 : UInt8) ∈ argument)
    reads := d.reads ++ span }
  let d :=
    if argIndex < commandServiceMaxArgs ∧ argument.length ≤ rpcMaxArgBytes then
      { d with
        storage := storeRow d.storage argIndex (argument ++ [0])
        argv := fun i => if i = argIndex then some argIndex else d.argv i
        reads := d.reads ++ span
        writes := d.writes ++
          (List.range (argument.length + 1)).map fun byteIndex => (argIndex, byteIndex) }
    else d
  { d with offset := d.offset + argument.length }

/-- The decoding with all of them. -/
def Decoding.takeAll (d : Decoding) (argIndex : ℕ) : List (List UInt8) → Decoding
  | [] => d
  | argument :: arguments => (d.take argIndex argument).takeAll (argIndex + 1) arguments

theorem take_offset (d : Decoding) (argIndex : ℕ) (argument : List UInt8) :
    (d.take argIndex argument).offset = d.offset + 1 + argument.length := by
  unfold Decoding.take
  dsimp only
  split <;> rfl

/-- One argument is taken where it stands in the payload. -/
theorem decodeArgument_eq (h : d.offset < payloadLength)
    (hfits : d.offset + 1 + (payload d.offset).toNat ≤ payloadLength) :
    decodeArgument payload payloadLength argIndex d =
      (d.take argIndex (payload.bytes (d.offset + 1) (payload d.offset).toNat), true) := by
  rw [decodeArgument, if_neg (Nat.not_le.2 h)]
  dsimp only
  rw [if_neg (Nat.not_lt.2 hfits), Decoding.take]
  dsimp only
  rw [Mem.length_bytes]
  split <;> rfl

/-- Elsewhere the request is malformed. -/
theorem decodeArgument_false
    (h : payloadLength ≤ d.offset ∨ payloadLength < d.offset + 1 + (payload d.offset).toNat) :
    (decodeArgument payload payloadLength argIndex d).2 = false := by
  rw [decodeArgument]
  split
  · rfl
  · dsimp only
    rw [if_pos (by omega)]

/-- **What the loop takes,** it takes as it stands in the payload. -/
theorem decodeArguments_true :
    decodeArguments payload payloadLength left argIndex d = (d', true) ↔
      ∃ arguments, arguments.length = left ∧ Laid payload payloadLength d.offset arguments ∧
        d' = d.takeAll argIndex arguments := by
  induction left generalizing argIndex d with
  | zero =>
    constructor
    · intro h
      cases h
      exact ⟨[], rfl, trivial, rfl⟩
    · rintro ⟨arguments, hlen, -, rfl⟩
      rw [List.length_eq_zero_iff.1 hlen]
      rfl
  | succ left ih =>
    rw [decodeArguments]
    by_cases hfits : d.offset < payloadLength ∧
        d.offset + 1 + (payload d.offset).toNat ≤ payloadLength
    · rw [decodeArgument_eq hfits.1 hfits.2]
      dsimp only
      rw [ih, take_offset, Mem.length_bytes]
      constructor
      · rintro ⟨arguments, hlen, hlaid, htake⟩
        refine ⟨payload.bytes (d.offset + 1) (payload d.offset).toNat :: arguments,
          by rw [List.length_cons, hlen], ?_, htake⟩
        rw [Laid, Mem.length_bytes]
        exact ⟨hfits.1, rfl, rfl, hfits.2, hlaid⟩
      · rintro ⟨arguments, hlen, hlaid, htake⟩
        rcases arguments with - | ⟨argument, arguments⟩
        · cases hlen
        · obtain ⟨-, hcount, hbytes, -, hlaid⟩ := hlaid
          rw [← hcount] at hbytes hlaid
          rw [hbytes]
          exact ⟨arguments, Nat.succ.inj hlen, hlaid, htake⟩
    · have hfalse : (decodeArgument payload payloadLength argIndex d).2 = false :=
        decodeArgument_false (by omega)
      constructor
      · intro h
        rcases hd : decodeArgument payload payloadLength argIndex d with ⟨x, b⟩
        rw [hd] at h hfalse
        obtain rfl : b = false := hfalse
        cases h
      · rintro ⟨arguments, hlen, hlaid, -⟩
        rcases arguments with - | ⟨argument, arguments⟩
        · cases hlen
        · obtain ⟨hlt, hcount, -, hle, -⟩ := hlaid
          exact absurd ⟨hlt, by omega⟩ hfits

/-! ## All arguments -/

theorem takeAll_offset (d : Decoding) (argIndex : ℕ) (arguments : List (List UInt8)) :
    (d.takeAll argIndex arguments).offset = d.offset + (layOut arguments).length := by
  induction arguments generalizing d argIndex with
  | nil => rfl
  | cons argument arguments ih =>
    rw [Decoding.takeAll, ih, take_offset, layOut, layOut, List.flatMap_cons, List.length_append,
      List.length_cons]
    omega

theorem take_badArgs (d : Decoding) (argIndex : ℕ) (argument : List UInt8) :
    (d.take argIndex argument).badArgs = false ↔ d.badArgs = false ∧ Plain argument := by
  have hbad : (d.take argIndex argument).badArgs =
      (d.badArgs || decide (rpcMaxArgBytes < argument.length) ||
        decide ((0 : UInt8) ∈ argument)) := by
    unfold Decoding.take
    dsimp only
    split <;> rfl
  rw [hbad, Bool.or_eq_false_iff, Bool.or_eq_false_iff, decide_eq_false_iff_not,
    decide_eq_false_iff_not, Plain, and_assoc, Nat.not_lt]
  rfl

theorem takeAll_badArgs (d : Decoding) (argIndex : ℕ) (arguments : List (List UInt8)) :
    (d.takeAll argIndex arguments).badArgs = false ↔
      d.badArgs = false ∧ ∀ argument ∈ arguments, Plain argument := by
  induction arguments generalizing d argIndex with
  | nil => simp [Decoding.takeAll]
  | cons argument arguments ih =>
    rw [Decoding.takeAll, ih, take_badArgs, List.forall_mem_cons, and_assoc]

/-- The C string in a row. -/
def cString (row : Mem) : List UInt8 := (row.bytes 0 32).takeWhile fun byte => decide (byte ≠ 0)

theorem cString_store (row : Mem) (h : Plain argument) :
    cString (row.store 0 (argument ++ [0])) = argument := by
  obtain ⟨hlen, hnul⟩ := h
  have hsplit : 32 = (argument ++ [0]).length + (31 - argument.length) := by
    rw [List.length_append, List.length_singleton]
    omega
  have hplain : ∀ byte ∈ argument, decide (byte ≠ 0) = true := by
    intro byte hbyte
    rw [decide_eq_true_iff]
    rintro rfl
    exact hnul hbyte
  rw [cString, hsplit, Mem.bytes_add, Mem.bytes_store, List.append_assoc,
    List.takeWhile_append_of_pos hplain, List.singleton_append, List.takeWhile_cons_of_neg (by simp),
    List.append_nil]

/-- A plain argument is stored in its row. -/
theorem take_plain (hindex : argIndex < 4) (h : Plain argument) :
    (d.take argIndex argument).argv = (fun i => if i = argIndex then some argIndex else d.argv i) ∧
      (d.take argIndex argument).storage = storeRow d.storage argIndex (argument ++ [0]) := by
  unfold Decoding.take
  dsimp only
  rw [if_pos ⟨hindex, h.1⟩]
  exact ⟨rfl, rfl⟩

/-- The argument that the handler sees at an index. -/
def Decoding.stringAt (d : Decoding) (i : ℕ) : Option (List UInt8) :=
  (d.argv i).map fun row => cString (d.storage row)

/-- Every pointer points to its own row. -/
def OwnRows (d : Decoding) : Prop := ∀ i, d.argv i = none ∨ d.argv i = some i

theorem take_argument (d : Decoding) (hindex : argIndex < 4) (h : Plain argument) (hrows : OwnRows d) :
    OwnRows (d.take argIndex argument) ∧ (d.take argIndex argument).stringAt argIndex = some argument ∧
      ∀ i, i ≠ argIndex → (d.take argIndex argument).stringAt i = d.stringAt i := by
  obtain ⟨hargv, hstorage⟩ := take_plain (d := d) hindex h
  have hargv : ∀ i, (d.take argIndex argument).argv i =
      if i = argIndex then some argIndex else d.argv i := fun i => congrFun hargv i
  refine ⟨?_, ?_, ?_⟩
  · intro i
    rw [hargv]
    by_cases hi : i = argIndex
    · exact Or.inr (by rw [if_pos hi, hi])
    · rw [if_neg hi]
      exact hrows i
  · rw [Decoding.stringAt, hargv, hstorage, if_pos rfl, Option.map_some, storeRow, if_pos rfl,
      cString_store _ h]
  · intro i hi
    rw [Decoding.stringAt, Decoding.stringAt, hargv, hstorage, if_neg hi]
    rcases hrows i with hnone | hsome
    · rw [hnone]
      rfl
    · rw [hsome, Option.map_some, Option.map_some, storeRow, if_neg hi]

/-- **The handler sees the arguments** that were taken. -/
theorem takeAll_argument (hindex : argIndex + arguments.length ≤ 4)
    (h : ∀ argument ∈ arguments, Plain argument) (hrows : OwnRows d) :
    OwnRows (d.takeAll argIndex arguments) ∧
      (∀ i, (hi : i < arguments.length) →
        (d.takeAll argIndex arguments).stringAt (argIndex + i) = some arguments[i]) ∧
      ∀ i, i < argIndex ∨ argIndex + arguments.length ≤ i →
        (d.takeAll argIndex arguments).stringAt i = d.stringAt i := by
  induction arguments generalizing d argIndex with
  | nil => exact ⟨hrows, fun i hi => absurd hi (Nat.not_lt_zero i), fun i _ => rfl⟩
  | cons argument arguments ih =>
    rw [List.length_cons] at hindex
    rw [List.forall_mem_cons] at h
    have hlt : argIndex < 4 := by omega
    obtain ⟨hown, hthis, hother⟩ := take_argument d hlt h.1 hrows
    have hrest : argIndex + 1 + arguments.length ≤ 4 := by omega
    obtain ⟨hown', hnew, hkeep⟩ := ih hrest h.2 hown
    refine ⟨hown', ?_, ?_⟩
    · intro i hi
      rw [Decoding.takeAll]
      cases i with
      | zero =>
        have hsum : argIndex + 0 = argIndex := rfl
        rw [hsum, hkeep argIndex (Or.inl (Nat.lt_succ_self _)), hthis]
        rfl
      | succ i =>
        rw [List.length_cons] at hi
        have := hnew i (by omega)
        rw [Nat.add_right_comm] at this
        exact this
    · intro i hi
      rw [List.length_cons] at hi
      rw [Decoding.takeAll, hkeep i (by omega), hother i (by omega)]

/-! ## Whole requests -/

theorem laid_of_bytes (hshort : ∀ argument ∈ arguments, argument.length < 256)
    (hfits : offset + (layOut arguments).length ≤ payloadLength)
    (hbytes : payload.bytes offset (layOut arguments).length = layOut arguments) :
    Laid payload payloadLength offset arguments := by
  induction arguments generalizing offset with
  | nil => trivial
  | cons argument arguments ih =>
    rw [List.forall_mem_cons] at hshort
    have hlen : (layOut (argument :: arguments)).length =
        1 + (argument.length + (layOut arguments).length) := by
      rw [layOut, List.flatMap_cons, List.length_append, List.length_cons, layOut]
      omega
    have hcons : layOut (argument :: arguments) =
        [UInt8.ofNat argument.length] ++ (argument ++ layOut arguments) := rfl
    rw [hlen] at hfits
    rw [hlen, Mem.bytes_add, Mem.bytes_add, hcons] at hbytes
    obtain ⟨hcount, hbytes⟩ := List.append_inj hbytes (Mem.length_bytes _ _ _)
    obtain ⟨hargument, hrest⟩ := List.append_inj hbytes (Mem.length_bytes _ _ _)
    have hat : payload offset = UInt8.ofNat argument.length := by
      have := List.head_eq_of_cons_eq hcount
      exact this
    refine ⟨by omega, ?_, hargument, by omega, ih hshort.2 (by omega) hrest⟩
    rw [hat, UInt8.toNat_ofNat', Nat.mod_eq_of_lt hshort.1]

theorem bytes_of_laid (h : Laid payload payloadLength offset arguments) :
    payload.bytes offset (layOut arguments).length = layOut arguments := by
  induction arguments generalizing offset with
  | nil => rfl
  | cons argument arguments ih =>
    obtain ⟨-, hcount, hargument, -, hlaid⟩ := h
    have hlen : (layOut (argument :: arguments)).length =
        1 + (argument.length + (layOut arguments).length) := by
      rw [layOut, List.flatMap_cons, List.length_append, List.length_cons, layOut]
      omega
    have hone : payload.bytes offset 1 = [UInt8.ofNat argument.length] := by
      rw [← hcount, UInt8.ofNat_toNat]
      rfl
    rw [hlen, Mem.bytes_add, Mem.bytes_add, hone, hargument, ih hlaid]
    rfl

theorem writePayload_eq (rpcId : ℕ) (arguments : List (List UInt8)) :
    writePayload rpcId arguments =
      [UInt8.ofNat rpcId, UInt8.ofNat (rpcId / 256), UInt8.ofNat arguments.length, 0] ++
        layOut arguments := rfl

theorem length_writePayload (rpcId : ℕ) (arguments : List (List UInt8)) :
    (writePayload rpcId arguments).length = 4 + (layOut arguments).length := by
  rw [writePayload_eq, List.length_append]
  rfl

/-- What the device makes of a request. -/
structure Understood (rpcId : ℕ) (arguments : List (List UInt8)) (decoded : Decoded) : Prop where
  result : decoded.result = .ok
  rpcId : decoded.rpcId = rpcId
  argc : decoded.argc = arguments.length
  argv : ∀ i, (hi : i < arguments.length) → decoded.decoding.stringAt i = some arguments[i]
  rest : ∀ i, arguments.length ≤ i → decoded.decoding.stringAt i = none

/-- **What the host encodes, the device understands.** -/
theorem understood_of_bytes {rpcId : ℕ} {frame : BinaryFrameView} (hid : rpcId < 65536)
    (hcount : arguments.length ≤ 4) (hplain : ∀ argument ∈ arguments, Plain argument)
    (hbytes : frame.bytes = writePayload rpcId arguments) (storage : ℕ → Mem) :
    Understood rpcId arguments (decodeRequest storage frame) := by
  cases hp : frame.payload with
  | none =>
    rw [BinaryFrameView.bytes, hp] at hbytes
    cases hbytes
  | some payload =>
    have hall : payload.bytes 0 frame.payloadLength = writePayload rpcId arguments := by
      rw [← hbytes, BinaryFrameView.bytes, hp]
    have hlen : frame.payloadLength = 4 + (layOut arguments).length := by
      rw [← length_writePayload rpcId, ← hall, Mem.length_bytes]
    rw [hlen, Mem.bytes_add, writePayload_eq] at hall
    obtain ⟨hhead, hrest⟩ := List.append_inj hall (Mem.length_bytes _ _ _)
    have hbytes4 : payload.bytes 0 4 = [payload 0, payload 1, payload 2, payload 3] := rfl
    rw [hbytes4, List.cons.injEq, List.cons.injEq, List.cons.injEq, List.cons.injEq] at hhead
    obtain ⟨h0, h1, h2, h3, -⟩ := hhead
    have hargc : (payload 2).toNat = arguments.length := by
      rw [h2, UInt8.toNat_ofNat', Nat.mod_eq_of_lt (by omega)]
    have hread : Nor.le16 (payload 0) (payload 1) = rpcId := by
      rw [Nor.le16, h0, h1, UInt8.toNat_ofNat', UInt8.toNat_ofNat']
      omega
    have hlaid : Laid payload frame.payloadLength 4 arguments := by
      refine laid_of_bytes ?_ (Nat.le_of_eq hlen.symm) hrest
      intro argument hargument
      exact Nat.lt_of_le_of_lt (hplain argument hargument).1 (by decide)
    unfold decodeRequest
    rw [hp]
    dsimp only
    rw [if_neg (by omega), if_neg (not_not.2 h3), hargc, hread]
    obtain ⟨start, hstart⟩ : ∃ start : Decoding, start =
        { badArgs := decide (commandServiceMaxArgs < arguments.length)
          offset := 4
          argv := fun _ => none
          storage := clearArguments storage
          reads := [0, 1, 2, 3]
          writes := (List.range commandServiceMaxArgs).map fun argIndex => (argIndex, 0) } :=
      ⟨_, rfl⟩
    have hoffset : start.offset = 4 := by rw [hstart]
    have hgood : start.badArgs = false := by
      rw [hstart]
      exact decide_eq_false (Nat.not_lt.2 hcount)
    have hrows : OwnRows start := fun i => Or.inl (by rw [hstart])
    have hloop : decodeArguments payload frame.payloadLength arguments.length 0 start =
        (start.takeAll 0 arguments, true) :=
      decodeArguments_true.2 ⟨arguments, rfl, by rw [hoffset]; exact hlaid, rfl⟩
    have hroom : 0 + arguments.length ≤ 4 := by
      rw [Nat.zero_add]
      exact hcount
    obtain ⟨-, hseen, hnone⟩ := takeAll_argument hroom hplain hrows
    have hbad : (start.takeAll 0 arguments).badArgs = false :=
      (takeAll_badArgs start 0 arguments).2 ⟨hgood, hplain⟩
    rw [← hstart, hloop]
    dsimp only
    rw [if_neg (by rw [takeAll_offset, hoffset, hlen]; exact not_not.2 rfl), hbad]
    refine ⟨rfl, rfl, rfl, ?_, ?_⟩
    · intro i hi
      have := hseen i hi
      rwa [Nat.zero_add] at this
    · intro i hi
      rw [hnone i (Or.inr (by omega)), hstart]
      rfl

/-- **What the device accepts, an encoder wrote.** -/
theorem bytes_of_ok {frame : BinaryFrameView} {storage : ℕ → Mem}
    (h : (decodeRequest storage frame).result = .ok) :
    ∃ rpcId arguments, rpcId < 65536 ∧ arguments.length ≤ 4 ∧
      (∀ argument ∈ arguments, Plain argument) ∧ frame.bytes = writePayload rpcId arguments := by
  unfold decodeRequest at h
  cases hp : frame.payload with
  | none => rw [hp] at h; cases h
  | some payload =>
    rw [hp] at h
    dsimp only at h
    split at h
    · cases h
    rename_i hlen
    split at h
    · cases h
    rename_i hzero
    split at h
    · cases h
    rename_i d hloop
    split at h
    · cases h
    rename_i hend
    have hbad : d.badArgs = false := by
      by_contra hbad
      rw [Bool.not_eq_false] at hbad
      dsimp only at h
      rw [hbad] at h
      cases h
    obtain ⟨arguments, hcount, hlaid, rfl⟩ := decodeArguments_true.1 hloop
    rw [takeAll_badArgs] at hbad
    rw [takeAll_offset, not_not] at hend
    dsimp only at hend hlaid hbad
    refine ⟨Nor.le16 (payload 0) (payload 1), arguments, Nor.le16_lt _ _, ?_, hbad.2, ?_⟩
    · have := of_decide_eq_false hbad.1
      unfold commandServiceMaxArgs at this
      omega
    · have hbytes4 : payload.bytes 0 4 = [payload 0, payload 1, payload 2, payload 3] := rfl
      rw [BinaryFrameView.bytes, hp]
      dsimp only
      rw [← hend, Mem.bytes_add, hbytes4, Nat.zero_add, bytes_of_laid hlaid, writePayload_eq, hcount,
        UInt8.ofNat_toNat, Nor.ofNat_le16, Nor.ofNat_le16_div, not_not.1 hzero]

/-! ## Inside the payload and the storage -/

/-- What was read and written is in bounds. -/
structure InBounds (payloadLength : ℕ) (d : Decoding) : Prop where
  reads : ∀ i ∈ d.reads, i < payloadLength
  writes : ∀ entry ∈ d.writes, entry.1 < 4 ∧ entry.2 < 32

theorem inBounds_take (h : InBounds payloadLength d)
    (hfits : d.offset + 1 + argument.length ≤ payloadLength) :
    InBounds payloadLength (d.take argIndex argument) := by
  have hspan : ∀ i ∈ (List.range argument.length).map (fun byteIndex => d.offset + 1 + byteIndex),
      i < payloadLength := by
    intro i hi
    obtain ⟨byteIndex, hbyte, rfl⟩ := List.mem_map.1 hi
    rw [List.mem_range] at hbyte
    omega
  have hreads : ∀ i ∈ d.reads ++ [d.offset] ++
      (List.range argument.length).map (fun byteIndex => d.offset + 1 + byteIndex),
      i < payloadLength := by
    intro i hi
    rw [List.mem_append, List.mem_append, List.mem_singleton] at hi
    rcases hi with (hi | rfl) | hi
    · exact h.reads i hi
    · omega
    · exact hspan i hi
  unfold Decoding.take
  dsimp only
  split
  · rename_i hrow
    unfold commandServiceMaxArgs rpcMaxArgBytes at hrow
    refine ⟨?_, ?_⟩
    · intro i hi
      rw [List.mem_append] at hi
      rcases hi with hi | hi
      · exact hreads i hi
      · exact hspan i hi
    · intro entry hentry
      rw [List.mem_append] at hentry
      rcases hentry with hentry | hentry
      · exact h.writes entry hentry
      · obtain ⟨byteIndex, hbyte, rfl⟩ := List.mem_map.1 hentry
        rw [List.mem_range] at hbyte
        exact ⟨hrow.1, by dsimp only; omega⟩
  · exact ⟨hreads, h.writes⟩

theorem inBounds_decodeArgument (payload : Mem) (argIndex : ℕ) (h : InBounds payloadLength d) :
    InBounds payloadLength (decodeArgument payload payloadLength argIndex d).1 := by
  by_cases hfits : d.offset < payloadLength ∧
      d.offset + 1 + (payload d.offset).toNat ≤ payloadLength
  · rw [decodeArgument_eq hfits.1 hfits.2]
    exact inBounds_take h (by rw [Mem.length_bytes]; exact hfits.2)
  · rw [decodeArgument]
    split
    · exact h
    · dsimp only
      rw [if_pos (by omega)]
      refine ⟨?_, h.writes⟩
      intro i hi
      rw [List.mem_append, List.mem_singleton] at hi
      rcases hi with hi | rfl
      · exact h.reads i hi
      · omega

theorem inBounds_decodeArguments (payload : Mem) (left argIndex : ℕ) (h : InBounds payloadLength d) :
    InBounds payloadLength (decodeArguments payload payloadLength left argIndex d).1 := by
  induction left generalizing argIndex d with
  | zero => exact h
  | succ left ih =>
    have hone := inBounds_decodeArgument payload argIndex h
    rw [decodeArguments]
    rcases hd : decodeArgument payload payloadLength argIndex d with ⟨x, - | -⟩
    · rw [hd] at hone
      exact hone
    · rw [hd] at hone
      exact ih (argIndex + 1) hone

/-- **Whatever the payload is,** nothing is read behind its end, and nothing
is written outside of the storage. -/
theorem decodeRequest_inBounds (storage : ℕ → Mem) (frame : BinaryFrameView) :
    InBounds frame.payloadLength (decodeRequest storage frame).decoding := by
  have hnone : ∀ storage : ℕ → Mem,
      InBounds frame.payloadLength ⟨false, 0, fun _ => none, storage, [], []⟩ := fun storage =>
    ⟨fun i hi => absurd hi List.not_mem_nil, fun entry hentry => absurd hentry List.not_mem_nil⟩
  unfold decodeRequest
  split
  · exact hnone storage
  · rename_i payload _
    split
    · exact hnone storage
    · rename_i hlen
      have hfour : ∀ i ∈ [0, 1, 2, 3], i < frame.payloadLength := by
        intro i hi
        simp only [List.mem_cons, List.not_mem_nil, or_false] at hi
        omega
      dsimp only
      split
      · exact ⟨hfour, fun entry hentry => absurd hentry List.not_mem_nil⟩
      · have hstart : InBounds frame.payloadLength
            { badArgs := decide (commandServiceMaxArgs < (payload 2).toNat)
              offset := 4
              argv := fun _ => none
              storage := clearArguments storage
              reads := [0, 1, 2, 3]
              writes := (List.range commandServiceMaxArgs).map fun argIndex => (argIndex, 0) } := by
          refine ⟨hfour, ?_⟩
          intro entry hentry
          obtain ⟨i, hi, rfl⟩ := List.mem_map.1 hentry
          exact ⟨List.mem_range.1 hi, Nat.succ_pos 31⟩
        have hall := inBounds_decodeArguments payload (payload 2).toNat 0 hstart
        split
        · rename_i hd
          rw [hd] at hall
          exact hall
        · rename_i hd
          rw [hd] at hall
          split <;> exact hall

/-! ## The host's strings -/

theorem encodeArguments_ok {strings : List (List UInt16)}
    (h : ∀ string ∈ strings, Plain (utf8GetBytes string)) :
    Host.encodeArguments strings = .ok (strings.map utf8GetBytes) := by
  induction strings with
  | nil => rfl
  | cons string strings ih =>
    rw [List.forall_mem_cons] at h
    have hlen : ¬ Host.maxArgBytes < (utf8GetBytes string).length := Nat.not_lt.2 h.1.1
    rw [Host.encodeArguments, if_neg hlen, if_neg h.1.2, ih h.2]
    rfl

theorem sum_le_of_plain (h : ∀ argument ∈ arguments, Plain argument) :
    (arguments.map fun bytes => 1 + bytes.length).sum ≤ 32 * arguments.length := by
  induction arguments with
  | nil => exact Nat.le_refl 0
  | cons argument arguments ih =>
    rw [List.forall_mem_cons] at h
    have hrest := ih h.2
    have hlen := h.1.1
    rw [List.map_cons, List.sum_cons, List.length_cons]
    omega

/-- A request with few enough plain arguments is encoded. -/
theorem encodePayload_ok {strings : List (List UInt16)} (rpcId : ℕ) (hcount : strings.length ≤ 4)
    (h : ∀ string ∈ strings, Plain (utf8GetBytes string)) :
    encodePayload rpcId strings = .ok (writePayload rpcId (strings.map utf8GetBytes)) := by
  have hplain : ∀ argument ∈ strings.map utf8GetBytes, Plain argument := by
    intro argument hargument
    obtain ⟨string, hstring, rfl⟩ := List.mem_map.1 hargument
    exact h string hstring
  have hsum := sum_le_of_plain hplain
  rw [List.length_map] at hsum
  have hmax : ¬ Host.maxPayloadBytes <
      4 + ((strings.map utf8GetBytes).map fun bytes => 1 + bytes.length).sum := by
    unfold Host.maxPayloadBytes
    omega
  have hfew : ¬ Host.maxArgs < strings.length := Nat.not_lt.2 hcount
  rw [encodePayload, if_neg hfew, encodeArguments_ok h]
  dsimp only
  rw [if_neg hmax]

/-- What is encoded fits into a frame. -/
theorem length_encodePayload {rpcId : ℕ} {strings : List (List UInt16)} {payload : List UInt8}
    (h : encodePayload rpcId strings = .ok payload) : payload.length ≤ Host.maxPayloadBytes := by
  have hlayOut : ∀ encoded : List (List UInt8),
      (layOut encoded).length = (encoded.map fun bytes => 1 + bytes.length).sum := by
    intro encoded
    induction encoded with
    | nil => rfl
    | cons bytes encoded ih =>
      rw [layOut, List.flatMap_cons, List.length_append, ← layOut, ih, List.map_cons, List.sum_cons,
        List.length_cons, Nat.add_comm bytes.length]
  unfold encodePayload at h
  split at h
  · cases h
  split at h
  · cases h
  · rename_i encoded _
    split at h
    · cases h
    · rename_i hmax
      cases h
      rw [length_writePayload, hlayOut]
      exact Nat.le_of_not_lt hmax

/-- **The codec of requests.** The device understands what the host encodes,
and accepts nothing else; and whatever the payload is, nothing is read
behind its end or written outside of the argument storage. -/
theorem request_codec :
    (∀ (storage : ℕ → Mem) (rpcId : ℕ) (strings : List (List UInt16)) (frame : BinaryFrameView),
      rpcId < 65536 → strings.length ≤ 4 →
      (∀ string ∈ strings, (utf8GetBytes string).length ≤ 31 ∧ (0 : UInt8) ∉ utf8GetBytes string) →
      ∃ payload, encodePayload rpcId strings = .ok payload ∧ (frame.bytes = payload →
        (decodeRequest storage frame).result = .ok ∧
        (decodeRequest storage frame).rpcId = rpcId ∧
        (decodeRequest storage frame).argc = strings.length ∧
        ∀ i, (decodeRequest storage frame).decoding.stringAt i =
          (strings.map utf8GetBytes)[i]?)) ∧
    ∀ (storage : ℕ → Mem) (frame : BinaryFrameView),
      ((decodeRequest storage frame).result = .ok ↔ ∃ rpcId arguments, rpcId < 65536 ∧
        arguments.length ≤ 4 ∧
        (∀ argument ∈ arguments, argument.length ≤ 31 ∧ (0 : UInt8) ∉ argument) ∧
        frame.bytes = writePayload rpcId arguments) ∧
      (∀ i ∈ (decodeRequest storage frame).decoding.reads, i < frame.payloadLength) ∧
      ∀ entry ∈ (decodeRequest storage frame).decoding.writes, entry.1 < 4 ∧ entry.2 < 32 := by
  refine ⟨?_, ?_⟩
  · intro storage rpcId strings frame hid hcount hplain
    refine ⟨_, encodePayload_ok rpcId hcount hplain, fun hbytes => ?_⟩
    have hplain' : ∀ argument ∈ strings.map utf8GetBytes, Plain argument := by
      intro argument hargument
      obtain ⟨string, hstring, rfl⟩ := List.mem_map.1 hargument
      exact hplain string hstring
    have h := understood_of_bytes hid (by rw [List.length_map]; exact hcount) hplain' hbytes storage
    refine ⟨h.result, h.rpcId, by rw [h.argc, List.length_map], ?_⟩
    intro i
    by_cases hi : i < (strings.map utf8GetBytes).length
    · rw [h.argv i hi, List.getElem?_eq_getElem hi]
    · rw [h.rest i (Nat.le_of_not_lt hi), List.getElem?_eq_none (Nat.le_of_not_lt hi)]
  · intro storage frame
    have hbounds := decodeRequest_inBounds storage frame
    refine ⟨⟨bytes_of_ok, ?_⟩, hbounds.reads, hbounds.writes⟩
    rintro ⟨rpcId, arguments, hid, hcount, hplain, hbytes⟩
    exact (understood_of_bytes hid hcount hplain hbytes storage).result

/-- The help of `ping` is encoded by the host and understood by the device. -/
theorem request_codec_help :
    (decodeRequest (fun _ _ => 0) ⟨1, 2, 0, 0, 1, 9,
      some fun i => (writePayload 0x001F [[0x70, 0x69, 0x6E, 0x67]]).getD i 0⟩).result = .ok := by
  obtain ⟨payload, hpayload, h⟩ := request_codec.1 (fun _ _ => 0) 0x001F [[0x70, 0x69, 0x6E, 0x67]]
    ⟨1, 2, 0, 0, 1, 9, some fun i => (writePayload 0x001F [[0x70, 0x69, 0x6E, 0x67]]).getD i 0⟩
    (by decide) (by decide) (by decide)
  have heq : writePayload 0x001F [[0x70, 0x69, 0x6E, 0x67]] = payload :=
    Except.ok.inj ((by decide : encodePayload 0x001F [[0x70, 0x69, 0x6E, 0x67]] =
      .ok (writePayload 0x001F [[0x70, 0x69, 0x6E, 0x67]])).symm.trans hpayload)
  exact (h (heq ▸ by decide)).1

end Rpc

end DeusOs
