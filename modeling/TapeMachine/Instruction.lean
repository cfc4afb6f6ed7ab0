namespace TapeMachine

/-- A bracket opens or closes a loop. -/
inductive Bracket where
  | opening
  | closing
  deriving DecidableEq, Repr

inductive Instruction where
  | increment
  | decrement
  | left
  | right
  | loopStart
  | loopEnd
  | output
  | input
  deriving DecidableEq, Repr, Inhabited

namespace Instruction

def char : Instruction → Char
  | increment => '+'
  | decrement => '-'
  | left => '<'
  | right => '>'
  | loopStart => '['
  | loopEnd => ']'
  | output => '.'
  | input => ','

def byte (op : Instruction) : UInt8 := op.char.toUInt8

/-- The instruction that a source byte stands for; `none` for a comment. -/
def ofByte? (byte : UInt8) : Option Instruction :=
  match byte with
  | 0x2B => some increment
  | 0x2D => some decrement
  | 0x3C => some left
  | 0x3E => some right
  | 0x5B => some loopStart
  | 0x5D => some loopEnd
  | 0x2E => some output
  | 0x2C => some input
  | _ => none

def ofBytes (source : List UInt8) : List Instruction := source.filterMap ofByte?

def bracket? : Instruction → Option Bracket
  | loopStart => some .opening
  | loopEnd => some .closing
  | _ => none

def text (ops : List Instruction) : String := String.ofList (ops.map char)

theorem ofByte?_byte (op : Instruction) : ofByte? op.byte = some op := by
  cases op <;> rfl

theorem ofBytes_byte (ops : List Instruction) : ofBytes (ops.map byte) = ops := by
  induction ops with
  | nil => rfl
  | cons op ops ih =>
    rw [List.map_cons, ofBytes, List.filterMap_cons, ofByte?_byte]
    exact congrArg (op :: ·) ih

end Instruction

/-- The bracket that a source byte stands for. -/
def Bracket.ofByte? (byte : UInt8) : Option Bracket :=
  (Instruction.ofByte? byte).bind Instruction.bracket?

end TapeMachine
