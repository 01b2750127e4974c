import DeusOs.Rpc.Model.BinaryRpc

/-!
# The device — command lines

`command_service_parse_line` of `command_service.c`: the line is cut into
strings where it stands, by a cursor that overwrites separators with NULs.
The loops run on the memory as it is, for as long as their fuel lasts, and
every address that is read or written is recorded.
-/

namespace DeusOs

namespace Rpc

open Nor (Mem)

/-- `command_is_separator`. -/
def commandIsSeparator (c : UInt8) : Bool := c = 0x20 || c = 0x09

/-- The characters of a command's name, without the NUL. -/
def CommandServiceDescriptor.nameBytes (descriptor : CommandServiceDescriptor) : List UInt8 :=
  descriptor.name.toList.map fun c => UInt8.ofNat c.toNat

/-! ## Finding a command -/

/-- `command_text_equals`, of the string at `a` and a name; with the addresses
of the first that were read. -/
def commandTextEquals (mem : Mem) (a : ℕ) : List UInt8 → List ℕ × Bool
  | [] => ([a], mem a = 0)
  | b :: name =>
    if mem a = 0 then ([a], false)
    else if mem a ≠ b then ([a], false)
    else
      let (reads, equal) := commandTextEquals mem (a + 1) name
      (a :: reads, equal)

/-- `command_service_find`, from an entry of the registry on. -/
def commandServiceFind (mem : Mem) (name : ℕ) :
    List CommandServiceDescriptor → List ℕ × Option CommandServiceDescriptor
  | [] => ([], none)
  | descriptor :: registry =>
    match commandTextEquals mem name descriptor.nameBytes with
    | (reads, true) => (reads, some descriptor)
    | (reads, false) =>
      let (more, found) := commandServiceFind mem name registry
      (reads ++ more, found)

/-! ## The cursor -/

/-- The memory, the cursor, and the addresses that were read or written. -/
structure LineCursor where
  mem : Mem
  cursor : ℕ
  touched : List ℕ

/-- `*cursor` is read. -/
def LineCursor.touch (s : LineCursor) : LineCursor := { s with touched := s.touched ++ [s.cursor] }

/-- `++cursor`. -/
def LineCursor.next (s : LineCursor) : LineCursor := { s with cursor := s.cursor + 1 }

/-- `while (command_is_separator(*cursor) != 0)`. -/
def skipSeparators : ℕ → LineCursor → Option LineCursor
  | 0, _ => none
  | fuel + 1, s =>
    if commandIsSeparator (s.mem s.cursor) = true then skipSeparators fuel s.touch.next
    else some s.touch

/-- `while ((*cursor != '\0') && (command_is_separator(*cursor) == 0))`. -/
def skipWord : ℕ → LineCursor → Option LineCursor
  | 0, _ => none
  | fuel + 1, s =>
    if s.mem s.cursor ≠ 0 ∧ commandIsSeparator (s.mem s.cursor) = false then
      skipWord fuel s.touch.next
    else some s.touch

/-- A NUL is put behind a word that the line goes on behind. -/
def LineCursor.endWord (s : LineCursor) : LineCursor :=
  if s.mem s.cursor ≠ 0 then
    { s.touch with mem := Function.update s.mem s.cursor 0, cursor := s.cursor + 1 }
  else s.touch

/-- The loop over the arguments, with the count and the pointers it leaves;
`false` where there is an argument too many. -/
def parseArguments :
    ℕ → LineCursor → ℕ → (ℕ → Option ℕ) → Option (LineCursor × ℕ × (ℕ → Option ℕ) × Bool)
  | 0, _, _, _ => none
  | fuel + 1, s, argc, argv =>
    match skipSeparators (fuel + 1) s with
    | none => none
    | some s =>
      if s.mem s.cursor = 0 then some (s, argc, argv, true)
      else if commandServiceMaxArgs ≤ argc then some (s, argc, argv, false)
      else
        let argv := fun i => if i = argc then some s.cursor else argv i
        match skipWord (fuel + 1) s with
        | none => none
        | some s => parseArguments fuel s.endWord (argc + 1) argv

/-- What `command_service_parse_line` returns, and leaves in the request and
the line. -/
structure ParsedLine where
  status : CommandServiceStatus
  descriptor : Option CommandServiceDescriptor
  argc : ℕ
  argv : ℕ → Option ℕ
  mem : Mem
  touched : List ℕ

/-- The end of `command_service_parse_line`, when the line is cut. -/
def lookUp (s : LineCursor) (method argc : ℕ) (argv : ℕ → Option ℕ) : ParsedLine :=
  match commandServiceFind s.mem method commandRegistry with
  | (reads, none) => ⟨.notFound, none, 0, argv, s.mem, s.touched ++ reads⟩
  | (reads, some descriptor) =>
    if argc < descriptor.minArgs ∨ descriptor.maxArgs < argc then
      ⟨.badArgs, none, 0, argv, s.mem, s.touched ++ reads⟩
    else ⟨.ok, some descriptor, argc, argv, s.mem, s.touched ++ reads⟩

/-- `command_service_parse_line`, of the line at `line`. -/
def parseLine (fuel : ℕ) (mem : Mem) (line : ℕ) : Option ParsedLine :=
  match skipSeparators fuel ⟨mem, line, []⟩ with
  | none => none
  | some s =>
    if s.mem s.cursor = 0 then some ⟨.badArgs, none, 0, fun _ => none, s.mem, s.touched⟩
    else
      let method := s.cursor
      match skipWord fuel s with
      | none => none
      | some s =>
        match parseArguments fuel s.endWord 0 fun _ => none with
        | none => none
        | some (s, _, argv, false) => some ⟨.badArgs, none, 0, argv, s.mem, s.touched⟩
        | some (s, argc, argv, true) => some (lookUp s method argc argv)

end Rpc

end DeusOs
