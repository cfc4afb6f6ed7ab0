import TapeMachine.Number.Numeral
import TapeMachine.Text.Quoted
import TapeMachine.Cell

namespace TapeMachine

namespace ByteLiteral

/-- Why a text stands for no byte. A number can be so large that it cannot even be named. -/
inductive Error where
  | notByte (text : String)
  | outOfRange (value : Int)
  | tooLarge
  deriving DecidableEq, Repr

def Error.message : Error → String
  | notByte text => "not a byte: " ++ Quoted.text text
  | outOfRange value => s!"byte out of range: {value}"
  | tooLarge => Numeral.limitMessage

/-- A single character that is no digit stands for its code point, and everything else is a
numeral. -/
def value? (text : String) : Option Int :=
  match text.toList with
  | [c] => if isDigit c then Numeral.read? text else some c.toNat
  | _ => Numeral.read? text

def read (text : String) : Except Error UInt8 :=
  match value? text with
  | none => .error (.notByte text)
  | some value =>
    match Cell.ofInt? value with
    | some byte => .ok byte
    | none => .error (if Numeral.isWritable value then .outOfRange value else .tooLarge)

end ByteLiteral

end TapeMachine
