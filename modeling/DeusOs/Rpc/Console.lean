import DeusOs.Rpc.CommandLine
import DeusOs.Rpc.Method

/-!
# The text console and the RPC

A command line and a request frame are two ways to the same handlers. A
command with its arguments is accepted as a line if and only if it is accepted as a
request, and either way the handler gets the same command, count and
strings (`console_and_rpc_agree`).
-/

namespace DeusOs

namespace Rpc

open Nor (Mem)
open Host (writePayload)
open Tokens (tokens join Gap Word)

variable {ω : Type} {binding : RpcBinding ω} {s : RpcState ω} {frame : BinaryFrameView} {mem : Mem}
  {d : CommandServiceDescriptor} {args : List (List UInt8)} {line : ℕ} {text : List UInt8}

/-! ## Strings -/

/-- The C string at an address. -/
def textAt (mem : Mem) (a : ℕ) : List UInt8 := cString fun i => mem (a + i)

theorem takeWhile_of_ends {e c n : ℕ} {l : List UInt8} (h : Ends mem e c l) (hn : l.length < n) :
    (mem.bytes c n).takeWhile (fun byte => decide (byte ≠ 0)) = l := by
  induction l generalizing c n with
  | nil =>
    obtain ⟨n, rfl⟩ : ∃ k, n = 1 + k := ⟨n - 1, by omega⟩
    rw [Mem.bytes_add]
    show (mem c :: _).takeWhile _ = []
    rw [List.takeWhile_cons_of_neg (by rw [h.2]; decide)]
  | cons x l ih =>
    rw [List.length_cons] at hn
    obtain ⟨n, rfl⟩ : ∃ k, n = 1 + k := ⟨n - 1, by omega⟩
    obtain ⟨hx, hne, hrest⟩ := h
    rw [Mem.bytes_add]
    show (mem c :: mem.bytes (c + 1) n).takeWhile _ = x :: l
    rw [List.takeWhile_cons_of_pos (by rw [hx]; exact decide_eq_true hne), ih hrest (by omega), hx]

theorem textAt_of_stringAt {a : ℕ} {word : List UInt8} (h : StringAt mem a word)
    (hlen : word.length ≤ 31) : textAt mem a = word := by
  have hshift : Mem.bytes (fun i => mem (a + i)) 0 32 = mem.bytes a 32 := by
    simp only [Mem.bytes, Nat.zero_add]
  rw [textAt, cString, hshift]
  exact takeWhile_of_ends h (by omega)

/-! ## The request -/

/-- A request passes the argument checks of `binary_rpc_handle_rpc_request`. -/
def PassesChecks (storage : ℕ → Mem) (frame : BinaryFrameView) : Prop :=
  (decodeRequest storage frame).result = .ok ∧
    ∃ d, findRpcId (decodeRequest storage frame).rpcId = some d ∧
      d.minArgs ≤ (decodeRequest storage frame).argc ∧ (decodeRequest storage frame).argc ≤ d.maxArgs

/-- `binary_rpc_handle_rpc_request` calls the handler. -/
def Calls (binding : RpcBinding ω) (s : RpcState ω) (frame : BinaryFrameView)
    (request : CommandServiceRequest) : Prop :=
  ∃ rest, (handleRpcRequest binding s frame).1.seen = s.seen ++ .invoked request :: rest

/-- The request that a frame was decoded to. -/
def decodedRequest (d : CommandServiceDescriptor) (decoded : Decoded) : CommandServiceRequest where
  descriptor := d
  argc := decoded.argc
  argv := fun i => (decoded.decoding.argv i).map decoded.decoding.storage

theorem not_calls_of_rejected {request : CommandServiceRequest}
    (h : Rejected frame.requestId s (handleRpcRequest binding s frame)) :
    ¬Calls binding s frame request := by
  obtain ⟨frameType, payload, hseen, -⟩ := h
  rintro ⟨rest, hcalls⟩
  rw [hseen] at hcalls
  have htail := List.append_cancel_left hcalls
  cases (List.cons.inj htail).1

/-- A request for `d` that every check lets through, the confirmation of a
destructive command included. -/
structure Admitted (storage : ℕ → Mem) (frame : BinaryFrameView)
    (d : CommandServiceDescriptor) : Prop where
  result : (decodeRequest storage frame).result = .ok
  found : findRpcId (decodeRequest storage frame).rpcId = some d
  fits : d.minArgs ≤ (decodeRequest storage frame).argc ∧
    (decodeRequest storage frame).argc ≤ d.maxArgs
  confirmed : d.commandClass = .destructive → frame.flags &&& flagAllowDestructive ≠ 0

/-- What passes every check is answered. -/
theorem handleRpcRequest_of_admitted (hflags : frame.flags &&& ~~~flagAllowDestructive = 0)
    (h : Admitted s.argumentStorage frame d) :
    handleRpcRequest binding s frame = answerRequest binding
      { s with argumentStorage := (decodeRequest s.argumentStorage frame).decoding.storage }
      frame.requestId (decodeRequest s.argumentStorage frame).rpcId
      (decodedRequest d (decodeRequest s.argumentStorage frame)) := by
  have hmalformed : ¬(decodeRequest s.argumentStorage frame).result = .malformed := by
    rw [h.result]
    exact DecodeResult.noConfusion
  have hcount : ¬((decodeRequest s.argumentStorage frame).result = .badArgs ∨
      (decodeRequest s.argumentStorage frame).argc < d.minArgs ∨
      d.maxArgs < (decodeRequest s.argumentStorage frame).argc) := by
    obtain ⟨hmin, hmax⟩ := h.fits
    rw [h.result]
    rintro (hbad | hless | hmore)
    · cases hbad
    · omega
    · omega
  have hdestructive : ¬(d.commandClass = .destructive ∧ frame.flags &&& flagAllowDestructive = 0) :=
    fun hopen => h.confirmed hopen.1 hopen.2
  unfold handleRpcRequest
  rw [if_neg (not_not.2 hflags)]
  dsimp only
  rw [if_neg hmalformed, h.found]
  dsimp only
  rw [if_neg hcount, if_neg hdestructive]
  rfl

/-- What fails a check is rejected. -/
theorem rejected_of_not_admitted (hflags : frame.flags &&& ~~~flagAllowDestructive = 0)
    (hnot : ∀ d, ¬Admitted s.argumentStorage frame d) :
    Rejected frame.requestId s (handleRpcRequest binding s frame) := by
  unfold handleRpcRequest
  rw [if_neg (not_not.2 hflags)]
  dsimp only
  by_cases hmalformed : (decodeRequest s.argumentStorage frame).result = .malformed
  · rw [if_pos hmalformed]
    split
    · exact rejected_simpleEnd _ rfl _ _ _ _
    · exact rejected_protocolError _ rfl _ _ _
  rw [if_neg hmalformed]
  cases hfound : findRpcId (decodeRequest s.argumentStorage frame).rpcId with
  | none => exact rejected_simpleEnd _ rfl _ _ _ _
  | some d =>
    dsimp only
    by_cases hargs : (decodeRequest s.argumentStorage frame).result = .badArgs ∨
        (decodeRequest s.argumentStorage frame).argc < d.minArgs ∨
        d.maxArgs < (decodeRequest s.argumentStorage frame).argc
    · rw [if_pos hargs]
      exact rejected_simpleEnd _ rfl _ _ _ _
    rw [if_neg hargs]
    by_cases hconfirm : d.commandClass = .destructive ∧ frame.flags &&& flagAllowDestructive = 0
    · rw [if_pos hconfirm]
      exact rejected_simpleEnd _ rfl _ _ _ _
    -- nothing is left to fail
    have hok : (decodeRequest s.argumentStorage frame).result = .ok := by
      cases hresult : (decodeRequest s.argumentStorage frame).result with
      | ok => rfl
      | malformed => exact absurd hresult hmalformed
      | badArgs => exact absurd (Or.inl hresult) hargs
    rw [not_or, not_or, Nat.not_lt, Nat.not_lt] at hargs
    exact absurd ⟨hok, hfound, hargs.2, fun hclass hzero => hconfirm ⟨hclass, hzero⟩⟩ (hnot d)

/-- The handler of an admitted request is called, with what was decoded. -/
theorem calls_of_admitted (hflags : frame.flags &&& ~~~flagAllowDestructive = 0)
    (h : Admitted s.argumentStorage frame d) (request : CommandServiceRequest) :
    Calls binding s frame request ↔
      request = decodedRequest d (decodeRequest s.argumentStorage frame) := by
  obtain ⟨chunks, lost, final, hspec⟩ := answerRequest_spec binding
    { s with argumentStorage := (decodeRequest s.argumentStorage frame).decoding.storage }
    frame.requestId (decodeRequest s.argumentStorage frame).rpcId
    (decodedRequest d (decodeRequest s.argumentStorage frame))
  have hseen := hspec.seen
  rw [List.append_assoc, List.append_assoc, List.append_assoc, List.singleton_append] at hseen
  unfold Calls
  rw [handleRpcRequest_of_admitted hflags h, hseen]
  constructor
  · rintro ⟨rest, hrest⟩
    have htail := List.append_cancel_left hrest
    exact (RpcEvent.invoked.inj (List.cons.inj htail).1).symm
  · rintro rfl
    exact ⟨_, rfl⟩

/-- **The handler is called** exactly for a request that passes the argument
checks, and that is confirmed where it has to be; with what was decoded. -/
theorem calls_iff (hflags : frame.flags &&& ~~~flagAllowDestructive = 0)
    (request : CommandServiceRequest) :
    Calls binding s frame request ↔
      PassesChecks s.argumentStorage frame ∧
        findRpcId (decodeRequest s.argumentStorage frame).rpcId = some request.descriptor ∧
        (request.descriptor.commandClass = .destructive →
          frame.flags &&& flagAllowDestructive ≠ 0) ∧
        request = decodedRequest request.descriptor (decodeRequest s.argumentStorage frame) := by
  constructor
  · intro hcalls
    obtain ⟨d, hd⟩ : ∃ d, Admitted s.argumentStorage frame d := by
      by_contra hnone
      exact not_calls_of_rejected (rejected_of_not_admitted hflags (not_exists.1 hnone)) hcalls
    rw [(calls_of_admitted hflags hd request).1 hcalls]
    exact ⟨⟨hd.result, d, hd.found, hd.fits⟩, hd.found, hd.confirmed, rfl⟩
  · rintro ⟨⟨hok, d, hfound, hargs⟩, hregistered, hconfirm, hrequest⟩
    rw [hfound] at hregistered
    cases hregistered
    exact (calls_of_admitted hflags ⟨hok, hfound, hargs, hconfirm⟩ request).2 hrequest

/-! ## A command as a line -/

/-- A run of spaces and tabs. -/
def Spaces (gap : List UInt8) : Prop := ∀ y ∈ gap, y = 0x20 ∨ y = 0x09

instance : DecidablePred Spaces :=
  fun gap => inferInstanceAs (Decidable (∀ y ∈ gap, y = 0x20 ∨ y = 0x09))

/-- An argument that both sides can carry. -/
def Argument (arg : List UInt8) : Prop :=
  arg ≠ [] ∧ arg.length ≤ 31 ∧ ∀ y ∈ arg, y ≠ 0 ∧ y ≠ 0x20 ∧ y ≠ 0x09

instance : DecidablePred Argument :=
  fun arg => inferInstanceAs
    (Decidable (arg ≠ [] ∧ arg.length ≤ 31 ∧ ∀ y ∈ arg, y ≠ 0 ∧ y ≠ 0x20 ∧ y ≠ 0x09))

/-- A command's name and its arguments, each behind a gap. -/
def commandText (lead : List UInt8) (d : CommandServiceDescriptor)
    (pieces : List (List UInt8 × List UInt8)) (trail : List UInt8) : List UInt8 :=
  lead ++ (d.nameBytes ++ (join pieces ++ trail))

variable {lead trail : List UInt8} {pieces : List (List UInt8 × List UInt8)}

theorem commandIsSeparator_iff (y : UInt8) : commandIsSeparator y = true ↔ y = 0x20 ∨ y = 0x09 := by
  rw [commandIsSeparator, Bool.or_eq_true, decide_eq_true_iff, decide_eq_true_iff]

/-- A gap is made of separators. -/
theorem Spaces.sep {gap : List UInt8} (h : Spaces gap) : ∀ y ∈ gap, commandIsSeparator y = true :=
  fun y hy => (commandIsSeparator_iff y).2 (h y hy)

/-- An argument is a word. -/
theorem Argument.word {arg : List UInt8} (h : Argument arg) : Word commandIsSeparator arg := by
  refine ⟨h.1, fun y hy => ?_⟩
  obtain ⟨-, hspace, htab⟩ := h.2.2 y hy
  rw [Bool.eq_false_iff, Ne, commandIsSeparator_iff]
  rintro (rfl | rfl)
  · exact hspace rfl
  · exact htab rfl

/-- The words of the line are the name and the arguments. -/
theorem tokens_commandText (hd : d ∈ commandRegistry)
    (hpieces : ∀ p ∈ pieces, (Spaces p.1 ∧ p.1 ≠ []) ∧ Argument p.2) (hlead : Spaces lead)
    (htrail : Spaces trail) :
    tokens commandIsSeparator (commandText lead d pieces trail) =
      d.nameBytes :: pieces.map Prod.snd := by
  obtain ⟨hne, hname⟩ := nameBytes_registry d hd
  have hcut : ∀ p ∈ pieces, Gap commandIsSeparator p.1 ∧ Word commandIsSeparator p.2 :=
    fun p hp => ⟨⟨(hpieces p hp).1.2, (hpieces p hp).1.1.sep⟩, (hpieces p hp).2.word⟩
  obtain ⟨hjoin, hhead⟩ := Tokens.tokens_join hcut htrail.sep
  rw [commandText, Tokens.tokens_gap hlead.sep,
    Tokens.tokens_word ⟨hne, fun y hy => (hname y hy).2⟩ hhead, hjoin]

theorem Spaces.ne_zero {gap : List UInt8} (h : Spaces gap) : ∀ y ∈ gap, y ≠ 0 := by
  intro y hy
  rcases h y hy with rfl | rfl <;> decide

/-- No NUL is in it. -/
theorem ne_zero_of_mem_commandText (hd : d ∈ commandRegistry)
    (hpieces : ∀ p ∈ pieces, (Spaces p.1 ∧ p.1 ≠ []) ∧ Argument p.2) (hlead : Spaces lead)
    (htrail : Spaces trail) : ∀ y ∈ commandText lead d pieces trail, y ≠ 0 := by
  intro y hy
  rw [commandText, List.mem_append, List.mem_append, List.mem_append] at hy
  rcases hy with hy | hy | hy | hy
  · exact hlead.ne_zero y hy
  · exact ((nameBytes_registry d hd).2 y hy).1
  · obtain ⟨p, hp, hy⟩ := List.mem_flatMap.1 hy
    rcases List.mem_append.1 hy with hy | hy
    · exact (hpieces p hp).1.1.ne_zero y hy
    · exact ((hpieces p hp).2.2.2 y hy).1
  · exact htrail.ne_zero y hy

theorem ends_of_bytes (hbytes : mem.bytes line (text.length + 1) = text ++ [0])
    (hzero : ∀ y ∈ text, y ≠ 0) : Ends mem (line + text.length) line text := by
  rw [Mem.bytes_add] at hbytes
  obtain ⟨htext, hnul⟩ := List.append_inj hbytes (Mem.length_bytes _ _ _)
  have hlast : mem (line + text.length) = 0 := (List.cons.inj hnul).1
  have hends := ends_bytes hlast fun i hi => ?_
  · rwa [htext] at hends
  · have hat : mem (line + i) ∈ mem.bytes line text.length :=
      List.mem_map.2 ⟨i, List.mem_range.2 hi, rfl⟩
    rw [htext] at hat
    exact hzero _ hat

theorem find_registry : ∀ d ∈ commandRegistry,
    commandRegistry.find? (fun e => e.nameBytes = d.nameBytes) = some d ∧ d.rpcId < 65536 ∧
      findRpcId d.rpcId = some d := by
  decide +kernel

/-- What a registered command's line is parsed to. -/
theorem parsed_commandText {p : ParsedLine} (hd : d ∈ commandRegistry) (hcount : args.length ≤ 4)
    (hlen : ∀ arg ∈ args, arg.length ≤ 31) (h : Parsed (d.nameBytes :: args) p) :
    (p.status = .ok ↔ d.minArgs ≤ args.length ∧ args.length ≤ d.maxArgs) ∧
      (p.status = .ok → p.descriptor = some d ∧ p.argc = args.length ∧
        ∀ i, (p.argv i).map (textAt p.mem) = args[i]?) := by
  have hfind := (find_registry d hd).1
  cases h with
  | badArgs hstatus hnull why =>
    have hnot : ¬p.status = .ok := by
      rw [hstatus]
      exact CommandServiceStatus.noConfusion
    refine ⟨⟨fun hok => absurd hok hnot, fun hfit => ?_⟩, fun hok => absurd hok hnot⟩
    rcases why with hwords | ⟨method, args', hwords, hbad⟩
    · cases hwords
    · obtain ⟨rfl, rfl⟩ := List.cons.inj hwords
      rcases hbad with hmany | ⟨d', hfound, hbad⟩
      · omega
      · rw [hfind] at hfound
        cases hfound
        omega
  | notFound hstatus hnull why =>
    obtain ⟨method, args', hwords, -, hfound⟩ := why
    obtain ⟨rfl, rfl⟩ := List.cons.inj hwords
    rw [hfind] at hfound
    cases hfound
  | ok method args' d' hwords few hfound hfit hstatus hdescriptor hargc hstrings hothers =>
    obtain ⟨rfl, rfl⟩ := List.cons.inj hwords
    rw [hfind] at hfound
    cases hfound
    refine ⟨⟨fun _ => hfit, fun _ => hstatus⟩, fun _ => ⟨hdescriptor, hargc, fun i => ?_⟩⟩
    by_cases hi : i < args.length
    · obtain ⟨a, ha, hstring⟩ := hstrings i hi
      rw [ha, Option.map_some, textAt_of_stringAt hstring (hlen _ (List.getElem_mem hi)),
        List.getElem?_eq_getElem hi]
    · rw [hothers i (Nat.le_of_not_lt hi), List.getElem?_eq_none (Nat.le_of_not_lt hi)]
      rfl

/-- What a registered command's request is decoded to. -/
theorem passes_iff (hd : d ∈ commandRegistry) (hcount : args.length ≤ 4)
    (hplain : ∀ arg ∈ args, Plain arg) (hframe : frame.bytes = writePayload d.rpcId args)
    (storage : ℕ → Mem) :
    (PassesChecks storage frame ↔ d.minArgs ≤ args.length ∧ args.length ≤ d.maxArgs) ∧
      findRpcId (decodeRequest storage frame).rpcId = some d ∧
      (decodeRequest storage frame).argc = args.length ∧
      ∀ i, ((decodedRequest d (decodeRequest storage frame)).argv i).map cString = args[i]? := by
  obtain ⟨-, hid, hregistered⟩ := find_registry d hd
  have h := understood_of_bytes hid hcount hplain hframe storage
  have hfound : findRpcId (decodeRequest storage frame).rpcId = some d := by
    rw [h.rpcId, hregistered]
  refine ⟨⟨?_, fun hfit => ⟨h.result, d, hfound, by rw [h.argc]; exact hfit⟩⟩, hfound, h.argc,
    fun i => ?_⟩
  · rintro ⟨-, d', hfound', hfit⟩
    rw [hfound] at hfound'
    cases hfound'
    rwa [h.argc] at hfit
  · have hstring : ((decodedRequest d (decodeRequest storage frame)).argv i).map cString =
        (decodeRequest storage frame).decoding.stringAt i := by
      rw [decodedRequest, Decoding.stringAt, Option.map_map]
      rfl
    rw [hstring]
    by_cases hi : i < args.length
    · rw [h.argv i hi, List.getElem?_eq_getElem hi]
    · rw [h.rest i (Nat.le_of_not_lt hi), List.getElem?_eq_none (Nat.le_of_not_lt hi)]

/-- **The text console and the RPC accept the same commands.** A registered
command with up to four arguments is parsed as a line, however it is spaced,
if and only if its request passes the argument checks; its handler is then
called unless the command has to be confirmed and is not; and the
command, the count and the strings are the same. And whatever the line is, up
to its NUL, the parser ends, touches nothing behind the NUL, and returns no
command with an error. -/
theorem console_and_rpc_agree :
    (∀ (ω : Type) (binding : RpcBinding ω) (s : RpcState ω) (frame : BinaryFrameView)
      (d : CommandServiceDescriptor) (lead trail : List UInt8)
      (pieces : List (List UInt8 × List UInt8)) (mem : Mem) (line : ℕ), d ∈ commandRegistry →
      pieces.length ≤ 4 → (∀ p ∈ pieces, (Spaces p.1 ∧ p.1 ≠ []) ∧ Argument p.2) →
      Spaces lead → Spaces trail →
      mem.bytes line ((commandText lead d pieces trail).length + 1) =
        commandText lead d pieces trail ++ [0] →
      frame.bytes = writePayload d.rpcId (pieces.map Prod.snd) →
      frame.flags &&& ~~~flagAllowDestructive = 0 →
      ∃ parsed, (∀ fuel, (commandText lead d pieces trail).length < fuel →
          parseLine fuel mem line = some parsed) ∧
        (parsed.status = .ok ↔ PassesChecks s.argumentStorage frame) ∧
        (PassesChecks s.argumentStorage frame ∧
            (d.commandClass = .destructive → frame.flags &&& flagAllowDestructive ≠ 0) ↔
          ∃ request, Calls binding s frame request) ∧
        (∀ request, Calls binding s frame request →
          parsed.descriptor = some request.descriptor ∧ parsed.argc = request.argc ∧
            ∀ i, (parsed.argv i).map (textAt parsed.mem) = (request.argv i).map cString) ∧
        (parsed.status = .ok → parsed.descriptor = some d ∧ parsed.argc = pieces.length ∧
          ∀ i, (parsed.argv i).map (textAt parsed.mem) = (pieces.map Prod.snd)[i]?)) ∧
    ∀ (mem : Mem) (line n : ℕ), mem (line + n) = 0 → (∀ i < n, mem (line + i) ≠ 0) →
      ∃ parsed, (∀ fuel, n < fuel → parseLine fuel mem line = some parsed) ∧
        (∀ i ∈ parsed.touched, line ≤ i ∧ i ≤ line + n) ∧
        (∀ i, i < line ∨ line + n ≤ i → parsed.mem i = mem i) ∧
        (parsed.status ≠ .ok →
          (parsed.status = .badArgs ∨ parsed.status = .notFound) ∧ parsed.descriptor = none) := by
  constructor
  · intro ω binding s frame d lead trail pieces mem line hd hfew hpieces hlead htrail hbytes hframe
      hflags
    have hends := ends_of_bytes hbytes (ne_zero_of_mem_commandText hd hpieces hlead htrail)
    obtain ⟨parsed, hrun, hparsed, -, -⟩ := parseLine_ends hends
    rw [tokens_commandText hd hpieces hlead htrail] at hparsed
    have hargs : ∀ arg ∈ pieces.map Prod.snd, Argument arg := by
      intro arg harg
      obtain ⟨p, hp, rfl⟩ := List.mem_map.1 harg
      exact (hpieces p hp).2
    have hfew' : (pieces.map Prod.snd).length ≤ 4 := by rwa [List.length_map]
    obtain ⟨hstatus, hok⟩ := parsed_commandText hd hfew' (fun arg harg => (hargs arg harg).2.1) hparsed
    obtain ⟨hpasses, hfound, hargc, hstrings⟩ := passes_iff hd hfew'
      (fun arg harg => ⟨(hargs arg harg).2.1, fun hz => ((hargs arg harg).2.2 0 hz).1 rfl⟩) hframe
      s.argumentStorage
    have hcounted : (pieces.map Prod.snd).length = pieces.length := List.length_map _
    refine ⟨parsed, hrun, hstatus.trans hpasses.symm, ⟨?_, ?_⟩, fun request hcalls => ?_,
      fun h => by rw [← hcounted]; exact hok h⟩
    · rintro ⟨hpass, hconfirm⟩
      exact ⟨_, (calls_iff hflags (decodedRequest d (decodeRequest s.argumentStorage frame))).2
        ⟨hpass, hfound, hconfirm, rfl⟩⟩
    · rintro ⟨request, hcalls⟩
      obtain ⟨hpass, hregistered, hconfirm, -⟩ := (calls_iff hflags request).1 hcalls
      rw [hfound] at hregistered
      cases hregistered
      exact ⟨hpass, hconfirm⟩
    · obtain ⟨hpass, hregistered, -, hrequest⟩ := (calls_iff hflags request).1 hcalls
      rw [hfound] at hregistered
      have hsame : d = request.descriptor := Option.some.inj hregistered
      obtain ⟨hdescriptor, hcount, htext⟩ := hok (hstatus.2 (hpasses.1 hpass))
      rw [← hsame] at hrequest
      rw [hrequest]
      exact ⟨hdescriptor, hcount.trans hargc.symm, fun i => (htext i).trans (hstrings i).symm⟩
  · intro mem line n hnul hline
    have hends := ends_bytes hnul hline
    obtain ⟨parsed, hrun, hparsed, htouched, hbeside⟩ := parseLine_ends hends
    rw [Mem.length_bytes] at hrun
    refine ⟨parsed, hrun, htouched, hbeside, fun hbad => ?_⟩
    cases hparsed with
    | badArgs hstatus hnull why => exact ⟨Or.inl hstatus, hnull⟩
    | notFound hstatus hnull why => exact ⟨Or.inr hstatus, hnull⟩
    | ok method args d hwords few found count hstatus => exact absurd hstatus hbad

/-- The line that starts the app `x`. -/
def appstartLine : Mem := fun i =>
  ([0x20, 0x61, 0x70, 0x70, 0x73, 0x74, 0x61, 0x72, 0x74, 0x09, 0x78, 0x20] : List UInt8).getD i 0

/-- The request that starts the app `x`. -/
def appstartRequest : BinaryFrameView where
  version := 1
  frameType := typeRpcRequest
  flags := 0
  reserved := 0
  requestId := 1
  payloadLength := 6
  payload := some fun i => ([0x22, 0x00, 0x01, 0x00, 0x01, 0x78] : List UInt8).getD i 0

/-- Both start the same app. -/
theorem console_and_rpc_agree_of_appstart : ∃ parsed request,
    parseLine 13 appstartLine 0 = some parsed ∧ parsed.status = .ok ∧
      Calls silentBinding idleRpc appstartRequest request ∧
      parsed.descriptor = some request.descriptor ∧ parsed.argc = request.argc ∧
      (parsed.argv 0).map (textAt parsed.mem) = some [0x78] := by
  have hd : (⟨"appstart", 0x0022, .safe, 1, 1⟩ : CommandServiceDescriptor) ∈ commandRegistry := by
    decide
  have hframe : appstartRequest.bytes = writePayload 0x0022 [[0x78]] := by decide +kernel
  obtain ⟨parsed, hrun, hstatus, hcalls, hsame, hok⟩ := console_and_rpc_agree.1 Unit silentBinding
    idleRpc appstartRequest _ [0x20] [0x20] [([0x09], [0x78])] appstartLine 0 hd (by decide)
    (by decide +kernel) (by decide +kernel) (by decide +kernel) (by decide +kernel) hframe
    (by decide)
  have hpasses : PassesChecks idleRpc.argumentStorage appstartRequest :=
    (passes_iff hd (by decide) (by decide +kernel) hframe _).1.2 ⟨Nat.le_refl 1, Nat.le_refl 1⟩
  obtain ⟨request, hcalled⟩ := hcalls.1 ⟨hpasses, fun h => by cases h⟩
  obtain ⟨hdescriptor, hargc, -⟩ := hsame request hcalled
  exact ⟨parsed, request, hrun 13 (by decide +kernel), hstatus.2 hpasses, hcalled, hdescriptor,
    hargc, (hok (hstatus.2 hpasses)).2.2 0⟩

end Rpc

end DeusOs
