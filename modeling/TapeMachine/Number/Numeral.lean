import TapeMachine.Text.Blank
import TapeMachine.Text.Digit

namespace TapeMachine

namespace Numeral

/-- Decimal numerals have at most this many digits, leading zeros included; numbers with more
digits cannot be written. -/
def digitLimit : Nat := 4300

/-- The text that refuses to write a number with more digits. -/
def limitMessage : String :=
  "Exceeds the limit (4300 digits) for integer string conversion; " ++
    "use sys.set_int_max_str_digits() to increase the limit"

/-- Whether a number has few enough digits to be written. -/
def isWritable (value : Int) : Bool := value.natAbs < Nat.pow 10 digitLimit

/-- Stands for a character that no numeral holds. -/
def stranger : Char := '?'

/-- A character as numerals see it: outside ASCII a blank is a space, a decimal digit is the
digit of its value, and nothing else has a meaning. -/
def plain (c : Char) : Char :=
  if c.toNat < 0x80 then c
  else if isBlank c then ' '
  else
    match Digit.value? c with
    | some value => Nat.digitChar value
    | none => stranger

/-- The blanks of ASCII that may stand around a numeral. -/
def isSpacing (c : Char) : Bool := c = ' ' || (0x09 ≤ c.toNat && c.toNat ≤ 0x0D)

/-- A text as numerals see it, without the blanks around it. -/
def core (text : String) : List Char := trim isSpacing (text.toList.map plain)

/-- The value of a digit in a base of at most sixteen. -/
def digit? (base : Nat) (c : Char) : Option Nat :=
  let value :=
    if '0' ≤ c && c ≤ '9' then c.toNat - 0x30
    else if 'a' ≤ c && c ≤ 'f' then c.toNat - 0x57
    else if 'A' ≤ c && c ≤ 'F' then c.toNat - 0x37
    else base
  if value < base then some value else none

/-- The digits of a run of digits in which single underscores may stand between two digits. -/
def digits? (base : Nat) : List Char → Option (List Nat)
  | [] => none
  | [c] => (digit? base c).map ([·])
  | c :: '_' :: rest => do
    let digit ← digit? base c
    let digits ← digits? base rest
    return digit :: digits
  | c :: rest => do
    let digit ← digit? base c
    let digits ← digits? base rest
    return digit :: digits

/-- The number that digits stand for, the most significant first. -/
def ofDigits (base : Nat) (digits : List Nat) : Nat :=
  digits.foldl (fun value digit => value * base + digit) 0

/-- A run of decimal digits; leading zeros are allowed. -/
def decimal? (text : List Char) : Option Nat := do
  let digits ← digits? 10 text
  if digits.length ≤ digitLimit then some (ofDigits 10 digits) else none

/-- The digits behind a prefix, before which one underscore may stand. -/
def afterPrefix? (base : Nat) : List Char → Option Nat
  | '_' :: rest => (digits? base rest).map (ofDigits base)
  | rest => (digits? base rest).map (ofDigits base)

/-- A number without sign whose prefix tells the base. Without a prefix it is decimal, and then
begins with a zero only if it is zero. Between two digits there may be an underscore. -/
def literal? : List Char → Option Nat
  | '0' :: 'x' :: rest | '0' :: 'X' :: rest => afterPrefix? 16 rest
  | '0' :: 'o' :: rest | '0' :: 'O' :: rest => afterPrefix? 8 rest
  | '0' :: 'b' :: rest | '0' :: 'B' :: rest => afterPrefix? 2 rest
  | '0' :: rest =>
    match decimal? ('0' :: rest) with
    | some 0 => some 0
    | _ => none
  | text => decimal? text

def signed? (number : List Char → Option Nat) : List Char → Option Int
  | '+' :: rest => (number rest).map Int.ofNat
  | '-' :: rest => (number rest).map fun value => -Int.ofNat value
  | text => (number text).map Int.ofNat

def readDecimal? (text : String) : Option Int := signed? decimal? (core text)

/-- The number of a numeral whose prefix tells the base. -/
def read? (text : String) : Option Int := signed? literal? (core text)

end Numeral

end TapeMachine
