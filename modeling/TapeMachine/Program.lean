import TapeMachine.Source
import TapeMachine.Machine

namespace TapeMachine

/-- A program that can be run: code, bytes that wait to be read, and the byte that is read when
they are used up. -/
structure Program where
  code : List UInt8
  input : List UInt8
  fallback : Option UInt8
  deriving DecidableEq, Repr

/-- What a caller asks to be run. -/
structure Request where
  code : Source
  input : Source
  fallback : Option Int
  deriving DecidableEq, Repr

inductive RequestError where
  | fallbackRange (value : Int)
  | byteRange
  deriving DecidableEq, Repr

def RequestError.message : RequestError → String
  | fallbackRange value => s!"auto_input out of range: {value}"
  | byteRange => Source.rangeMessage

namespace Request

/-- The fallback byte is checked first, then the code, then the input. -/
def program (request : Request) : Except RequestError Program := do
  let fallback ←
    match request.fallback with
    | none => pure none
    | some value =>
      match Cell.ofInt? value with
      | some byte => pure (some byte)
      | none => throw (.fallbackRange value)
  let some code := request.code.bytes? | throw .byteRange
  let some input := request.input.bytes? | throw .byteRange
  return ⟨code, input, fallback⟩

end Request

def Program.machine (program : Program) : Machine :=
  .load (.ofBytes program.code) program.input (program.fallback.map fun byte => (byte.toNat : Int))

end TapeMachine
