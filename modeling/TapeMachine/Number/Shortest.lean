namespace TapeMachine

namespace Shortest

def twoTo (exponent : Nat) : Nat := Nat.pow 2 exponent

def tenTo (exponent : Nat) : Nat := Nat.pow 10 exponent

/-- A finite number that is not negative, as `mantissa * 2 ^ exponent`. -/
structure Binary where
  mantissa : Nat
  exponent : Int
  deriving DecidableEq, Repr

/-- Takes the bits of a finite number apart; the sign is left out. -/
def Binary.ofBits (bits : UInt64) : Binary :=
  let biased : Nat := (bits.toNat / twoTo 52) % twoTo 11
  let fraction : Nat := bits.toNat % twoTo 52
  if biased = 0 then ⟨fraction, -1074⟩ else ⟨twoTo 52 + fraction, (biased : Int) - 1075⟩

/-- The numbers that are rounded to a given one lie between `low` and `high`; the ends belong to
them if `closed`. All three are counted in units of `1 / scale`. -/
structure Interval where
  low : Nat
  value : Nat
  high : Nat
  scale : Nat
  closed : Bool
  deriving DecidableEq, Repr

/-- Half-way to both neighbours. Below a power of two the neighbour is nearer. -/
def Binary.interval (number : Binary) : Interval :=
  let m := number.mantissa
  let below := if m = twoTo 52 && number.exponent ≠ -1074 then 1 else 2
  let (up, down) := if 0 ≤ number.exponent then (twoTo number.exponent.toNat, 1)
    else (1, twoTo (-number.exponent).toNat)
  ⟨(4 * m - below) * up, 4 * m * up, (4 * m + 2) * up, 4 * down, m % 2 = 0⟩

namespace Interval

/-- Whether `n * 10 ^ exponent` is rounded to the value. -/
def holds (interval : Interval) (exponent : Int) (n : Nat) : Bool :=
  let point := if 0 ≤ exponent then n * tenTo exponent.toNat * interval.scale else n * interval.scale
  let unit := if 0 ≤ exponent then 1 else tenTo (-exponent).toNat
  if interval.closed then interval.low * unit ≤ point && point ≤ interval.high * unit
  else interval.low * unit < point && point < interval.high * unit

/-- The largest `n` for which `n * 10 ^ exponent` is not above the value, and twice the remainder
beside the step from `n` to `n + 1`. -/
def floor (interval : Interval) (exponent : Int) : Nat × Nat × Nat :=
  let step :=
    if 0 ≤ exponent then tenTo exponent.toNat * interval.scale else interval.scale
  let value := if 0 ≤ exponent then interval.value else interval.value * tenTo (-exponent).toNat
  (value / step, 2 * (value % step), step)

/-- The best multiple of `10 ^ exponent` that is rounded to the value. Of two that are equally
near the even one is taken. -/
def best? (interval : Interval) (exponent : Int) : Option Nat :=
  let (n, twice, step) := interval.floor exponent
  match interval.holds exponent n, interval.holds exponent (n + 1) with
  | false, false => none
  | true, false => some n
  | false, true => some (n + 1)
  | true, true => some (if twice < step || (twice = step && n % 2 = 0) then n else n + 1)

end Interval

/-- The power of ten above a number that is not zero: the first, counted down from `start`, to
which the next lower power of ten does not reach down. -/
def magnitude (interval : Interval) : Nat → Int → Int
  | 0, start => start
  | fuel + 1, start =>
    let (n, _, _) := interval.floor (start - 1)
    if n = 0 then magnitude interval fuel (start - 1) else start

/-- Tries more and more digits of a number below `10 ^ above`. -/
def search (interval : Interval) (above : Int) : Nat → Nat → Nat × Int
  | 0, digits => ((interval.floor (above - digits)).1, above - digits)
  | fuel + 1, digits =>
    match interval.best? (above - digits) with
    | some n => (n, above - digits)
    | none => search interval above fuel (digits + 1)

/-- Decimal digits and the power of ten they are multiplied by, without zeros at the end. -/
def withoutZeros : Nat → Nat → Int → Nat × Int
  | 0, n, exponent => (n, exponent)
  | fuel + 1, n, exponent =>
    if n ≠ 0 && n % 10 = 0 then withoutZeros fuel (n / 10) (exponent + 1) else (n, exponent)

/-- The shortest decimal of a finite number that is not zero: the fewest digits that still single it
out among all floating-point numbers, and of those the nearest. -/
def decimal (number : Binary) : Nat × Int :=
  let interval := number.interval
  let (n, exponent) := search interval (magnitude interval 700 310) 17 1
  withoutZeros 20 n exponent

/-- How numbers are laid out: positionally from `10 ^ smallest` up to below `10 ^ largest`, and
otherwise with an exponent of at least two digits. -/
def layout (smallest largest : Int) (n : Nat) (exponent : Int) : String :=
  let digits := toString n
  let point := exponent + digits.length
  let zeros (count : Int) := String.ofList (List.replicate count.toNat '0')
  if smallest < point && point ≤ largest then
    if point ≤ 0 then "0." ++ zeros (-point) ++ digits
    else if 0 ≤ exponent then digits ++ zeros exponent ++ ".0"
    else
      let chars := digits.toList
      String.ofList (chars.take point.toNat ++ '.' :: chars.drop point.toNat)
  else
    let chars := digits.toList
    let mantissa := if chars.length ≤ 1 then digits
      else String.ofList (chars.take 1 ++ '.' :: chars.drop 1)
    let power := point - 1
    let sign := if power < 0 then "-" else "+"
    let written := toString power.natAbs
    mantissa ++ "e" ++ sign ++ (if written.length < 2 then "0" ++ written else written)

def text (value : Float) : String :=
  if value.isNaN then "nan"
  else
    let bits := value.toBits
    let sign := if bits.toNat < twoTo 63 then "" else "-"
    if value.isInf then sign ++ "inf"
    else
      let number := Binary.ofBits bits
      if number.mantissa = 0 then sign ++ "0.0"
      else
        let (n, exponent) := decimal number
        sign ++ layout (-4) 16 n exponent

end Shortest

end TapeMachine
