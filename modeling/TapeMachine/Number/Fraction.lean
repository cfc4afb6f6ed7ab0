import TapeMachine.Number.Numeral

namespace TapeMachine

namespace Fraction

/-- A decimal number: digits, the most significant first, and the power of ten they are
multiplied by. -/
structure Decimal where
  digits : List Nat
  exponent : Int
  deriving DecidableEq, Repr

/-- Far above the exponents at which a number of one digit becomes infinite or zero. -/
def exponentBound : Int := 5000

namespace Decimal

/-- The nearest floating-point number. Where the leading digit stands decides about numbers that
are much too large or much too small. -/
def toFloat (decimal : Decimal) : Float :=
  let digits := decimal.digits.dropWhile (· = 0)
  let magnitude := decimal.exponent + digits.length
  if digits.isEmpty || magnitude < -exponentBound then 0
  else if exponentBound < magnitude then 1.0 / 0.0
  else
    let mantissa := Numeral.ofDigits 10 digits
    match decimal.exponent with
    | .ofNat n => Float.ofScientific mantissa false n
    | .negSucc n => Float.ofScientific mantissa true (n + 1)

end Decimal

def isAsciiDigit (c : Char) : Bool := '0' ≤ c && c ≤ '9'

/-- Without the underscores, if each of them stands between two digits. -/
def dropUnderscores (before : Char) : List Char → Option (List Char)
  | [] => if before = '_' then none else some []
  | c :: rest =>
    if c = '_' then
      if isAsciiDigit before then dropUnderscores c rest else none
    else if before = '_' && !isAsciiDigit c then none
    else (dropUnderscores c rest).map (c :: ·)

def digitValues (text : List Char) : List Nat := text.map fun c => c.toNat - 0x30

/-- An exponent; `none` if it is not well formed. -/
def exponent? : List Char → Option Int
  | [] => some 0
  | mark :: rest =>
    if mark = 'e' || mark = 'E' then
      let (negative, digits) :=
        match rest with
        | '-' :: digits => (true, digits)
        | '+' :: digits => (false, digits)
        | digits => (false, digits)
      if digits.isEmpty || !digits.all isAsciiDigit then none
      else
        let value := Numeral.ofDigits 10 (digitValues digits)
        some (if negative then -(value : Int) else value)
    else none

/-- A number without sign: digits, of which some may stand behind a point, and an exponent. -/
def decimal? (text : List Char) : Option Decimal := do
  let whole := text.takeWhile isAsciiDigit
  let rest := text.dropWhile isAsciiDigit
  let (part, rest) :=
    match rest with
    | '.' :: rest => (rest.takeWhile isAsciiDigit, rest.dropWhile isAsciiDigit)
    | _ => ([], rest)
  if whole.isEmpty && part.isEmpty then none
  else
    let exponent ← exponent? rest
    return ⟨digitValues (whole ++ part), exponent - part.length⟩

/-- A number without sign, or one of the names of what is no number. -/
def unsigned? (text : List Char) : Option Float :=
  match String.ofList (text.map Char.toLower) with
  | "inf" | "infinity" => some (1.0 / 0.0)
  | "nan" => some (0.0 / 0.0)
  | _ => (decimal? text).map Decimal.toFloat

def read? (text : String) : Option Float := do
  match ← dropUnderscores ' ' (Numeral.core text) with
  | '-' :: rest => (unsigned? rest).map Float.neg
  | '+' :: rest => unsigned? rest
  | rest => unsigned? rest

end Fraction

end TapeMachine
