import TapeMachine.Code
import TapeMachine.Tape
import TapeMachine.ByteStream

namespace TapeMachine

inductive StepError where
  | mismatchedBrackets
  | endOfInput
  | unreadable (cause : String)
  | cellRange (value : Int)
  | foreign (label cause : String)
  deriving DecidableEq, Repr

namespace StepError

/-- The failure of a read, as the machine sees it. -/
def ofFault : Fault → StepError
  | .unreadable cause => .unreadable cause
  | .foreign label cause => .foreign label cause

/-- Whether a failure is one of a program's own: a bracket without partner or a failed read. The
other failures say that the machine was not set up for its program. -/
def isProgramFailure : StepError → Bool
  | mismatchedBrackets | endOfInput | unreadable _ => true
  | cellRange _ | foreign _ _ => false

def message : StepError → String
  | mismatchedBrackets => "mismatched brackets"
  | endOfInput => "failed to read character from stdin: unexpected end of file"
  | unreadable cause => "failed to read character from stdin: " ++ cause
  | cellRange value => Cell.rangeMessage value
  | foreign _ cause => cause

end StepError

/-- A read takes the first byte of `input`; when there is none, `fallback`; when there is none
either, a byte of the stream. -/
structure Machine where
  code : Code
  position : Nat
  tape : Tape
  input : List UInt8
  fallback : Option Int
  output : Array UInt8

/-- What became of a step: the code had ended, one instruction was executed, it failed, or it
waits for a byte. -/
inductive Outcome where
  | ended
  | ran (op : Instruction)
  | failed (error : StepError)
  | waiting
  deriving DecidableEq, Repr

/-- The outcome of a step with the machine and the stream after it. -/
structure StepResult where
  outcome : Outcome
  machine : Machine
  stream : ByteStream

namespace Machine

/-- A machine at the start of its code, with a blank tape. -/
def load (code : Code) (input : List UInt8) (fallback : Option Int) : Machine where
  code := code
  position := 0
  tape := .blank
  input := input
  fallback := fallback
  output := #[]

/-- The next instruction; `none` at the end of the code. -/
def peek (machine : Machine) : Option Instruction := machine.code.instructions[machine.position]?

def finished (machine : Machine) : Bool := machine.code.size ≤ machine.position

/-- Whether the next instruction is a read that finds no byte in the queue. -/
def awaitsInput (machine : Machine) : Bool :=
  machine.peek = some .input && machine.input.isEmpty

/-- Reads a byte for a machine whose next instruction is a read. -/
def read : Machine → ByteStream → StepResult
  | ⟨code, position, tape, byte :: input, fallback, output⟩, stream =>
    ⟨.ran .input, ⟨code, position + 1, tape.write byte, input, fallback, output⟩, stream⟩
  | ⟨code, position, tape, [], some value, output⟩, stream =>
    match Cell.ofInt? value with
    | some byte =>
      ⟨.ran .input, ⟨code, position + 1, tape.write byte, [], some value, output⟩, stream⟩
    | none => ⟨.failed (.cellRange value), ⟨code, position, tape, [], some value, output⟩, stream⟩
  | ⟨code, position, tape, [], none, output⟩, stream =>
    match stream.read with
    | .byte byte rest =>
      ⟨.ran .input, ⟨code, position + 1, tape.write byte, [], none, output⟩, rest⟩
    | .fault fault rest => ⟨.failed (.ofFault fault), ⟨code, position, tape, [], none, output⟩, rest⟩
    | .endOfStream => ⟨.failed .endOfInput, ⟨code, position, tape, [], none, output⟩, stream⟩
    | .waiting => ⟨.waiting, ⟨code, position, tape, [], none, output⟩, stream⟩

/-- Executes the bracket `op`, which jumps behind its partner if `jumps`. Without a partner it
fails, also where it would not jump. -/
def bracket (op : Instruction) (jumps : Cell → Bool) : Machine → ByteStream → StepResult
  | ⟨code, position, tape, input, fallback, output⟩, stream =>
    match code.partner? position with
    | none =>
      ⟨.failed .mismatchedBrackets, ⟨code, position, tape, input, fallback, output⟩, stream⟩
    | some partner =>
      let next := if jumps tape.current then partner + 1 else position + 1
      ⟨.ran op, ⟨code, next, tape, input, fallback, output⟩, stream⟩

/-- Executes the instruction `op`, which changes nothing but the tape. -/
def onTape (op : Instruction) (change : Tape → Tape) : Machine → ByteStream → StepResult
  | ⟨code, position, tape, input, fallback, output⟩, stream =>
    ⟨.ran op, ⟨code, position + 1, change tape, input, fallback, output⟩, stream⟩

def print : Machine → ByteStream → StepResult
  | ⟨code, position, tape, input, fallback, output⟩, stream =>
    let cell := tape.current
    ⟨.ran .output, ⟨code, position + 1, tape, input, fallback, output.push cell⟩, stream⟩

/-- Executes one instruction. A step that fails leaves the machine as it was. -/
def step (machine : Machine) (stream : ByteStream) : StepResult :=
  match machine.peek with
  | none => ⟨.ended, machine, stream⟩
  | some .increment => machine.onTape .increment (·.update Cell.increment) stream
  | some .decrement => machine.onTape .decrement (·.update Cell.decrement) stream
  | some .left => machine.onTape .left Tape.moveLeft stream
  | some .right => machine.onTape .right Tape.moveRight stream
  | some .loopStart => machine.bracket .loopStart (· = 0) stream
  | some .loopEnd => machine.bracket .loopEnd (· ≠ 0) stream
  | some .output => machine.print stream
  | some .input => machine.read stream

end Machine

end TapeMachine
