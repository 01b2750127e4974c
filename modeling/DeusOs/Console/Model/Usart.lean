import DeusOs.Rpc.Model.CommandLine

/-!
# The console — received bytes and command lines

The receiving half of `usart1.c`, and the command line of `kernel.c`:
`console_feed_char` and `console_execute_state`. The interrupt may come between
any two accesses of `usart1_try_read`, so these are functions of their own.
-/

namespace DeusOs

namespace Console

open Nor (Mem)
open Rpc (CommandServiceStatus ParsedLine commandServiceLineCapacity parseLine)

/-! ## `usart1.c` -/

/-- `USART1_RX_RING_CAPACITY`. -/
abbrev rxRingCapacity : ℕ := 128
/-- `USART1_RX_RING_MASK`. -/
abbrev rxRingMask : UInt32 := 127
/-- `USART_SR_PE | USART_SR_FE | USART_SR_NE | USART_SR_ORE`. -/
def statusErrors : UInt32 := 0x0F
/-- `USART_SR_RXNE`. -/
def statusRxne : UInt32 := 0x20

/-- The statics of `usart1.c`. -/
structure Usart where
  rxRing : ℕ → UInt8 := fun _ => 0
  rxHead : UInt32 := 0
  rxTail : UInt32 := 0
  rxIrqCount : UInt32 := 0
  rxByteCount : UInt32 := 0
  rxDropCount : UInt32 := 0
  rxErrorCount : UInt32 := 0
  rxHighWater : UInt32 := 0

namespace Usart

/-- The branch of `usart1_irq_service` for a byte in the data register. -/
def receive (u : Usart) (byte : UInt8) : Usart × Bool :=
  let head := u.rxHead
  let depth := head - u.rxTail
  let u := { u with rxByteCount := u.rxByteCount + 1 }
  if depth.toNat < rxRingCapacity then
    let nextDepth := depth + 1
    ({ u with
        rxRing := Function.update u.rxRing (head &&& rxRingMask).toNat byte
        rxHead := head + 1
        rxHighWater := if u.rxHighWater < nextDepth then nextDepth else u.rxHighWater }, true)
  else ({ u with rxDropCount := u.rxDropCount + 1 }, false)

/-- `usart1_irq_service`, of what it reads in the status register and the data
register; whether it published a byte. -/
def irqService (u : Usart) (status dr : UInt32) : Usart × Bool :=
  let u :=
    { u with
      rxIrqCount := u.rxIrqCount + 1
      rxErrorCount := if status &&& statusErrors ≠ 0 then u.rxErrorCount + 1 else u.rxErrorCount }
  if status &&& statusRxne ≠ 0 then u.receive dr.toUInt8 else (u, false)

/-- The tail, unless it is the head: the first accesses of `usart1_try_read`. -/
def loadTail (u : Usart) : Option UInt32 := if u.rxTail = u.rxHead then none else some u.rxTail

/-- The byte at the tail. -/
def loadByte (u : Usart) (tail : UInt32) : UInt8 := u.rxRing (tail &&& rxRingMask).toNat

/-- The tail is moved: the last access. -/
def storeTail (u : Usart) (tail : UInt32) : Usart := { u with rxTail := tail + 1 }

/-- The `depth` of `usart1_diagnostics_get`. -/
def depth (u : Usart) : UInt32 := u.rxHead - u.rxTail

end Usart

/-! ## The command line -/

/-- `console_command_state_t`, without its context. -/
structure CommandState where
  data : Mem
  length : ℕ

/-- What comes of a character. -/
inductive Reaction
  /-- `command_service_parse_line` was given the line, which it parsed to this. -/
  | executed (line : List UInt8) (parsed : Option ParsedLine)
  /-- `ERR` is written for a line that is too long. -/
  | refused

/-- `console_execute_state`, of a line that is not empty. -/
def consoleExecuteState (state : CommandState) : CommandState × Reaction :=
  let data := Function.update state.data state.length 0
  match parseLine commandServiceLineCapacity data 0 with
  | none => (⟨data, 0⟩, .executed (state.data.bytes 0 state.length) none)
  | some parsed => (⟨parsed.mem, 0⟩, .executed (state.data.bytes 0 state.length) (some parsed))

/-- `console_feed_char`. -/
def consoleFeedChar (state : CommandState) (c : UInt8) : CommandState × Option Reaction :=
  if c = 0x0D ∨ c = 0x0A then
    if state.length ≠ 0 then
      let (state, reaction) := consoleExecuteState state
      (state, some reaction)
    else (state, none)
  else if c = 0x08 ∨ c = 0x7F then
    if state.length ≠ 0 then ({ state with length := state.length - 1 }, none) else (state, none)
  else if state.length < commandServiceLineCapacity - 1 then
    (⟨Function.update state.data state.length c, state.length + 1⟩, none)
  else ({ state with length := 0 }, some .refused)

end Console

end DeusOs
