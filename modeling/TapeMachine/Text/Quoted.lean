import TapeMachine.Text.Printable
import TapeMachine.Text.Utf8

namespace TapeMachine

namespace Quoted

def apostrophe : Char := Char.ofNat 0x27

def quotationMark : Char := Char.ofNat 0x22

def backslash : Char := Char.ofNat 0x5C

/-- Apostrophes stand around a text, unless it holds some itself and no quotation mark. -/
def delimiter (text : List Char) : Char :=
  if text.contains apostrophe && !text.contains quotationMark then quotationMark else apostrophe

/-- A number in hexadecimal digits, with leading zeros up to a width. -/
def hex (width n : Nat) : List Char :=
  let digits := Nat.toDigits 16 n
  List.replicate (width - digits.length) '0' ++ digits

/-- The escape of a code point: two, four or eight digits, whichever is enough. -/
def escape (n : Nat) : List Char :=
  if n < 0x100 then backslash :: 'x' :: hex 2 n
  else if n < 0x10000 then backslash :: 'u' :: hex 4 n
  else backslash :: 'U' :: hex 8 n

def char (delimiter : Char) (showable : Char → Bool) (c : Char) : List Char :=
  if c = delimiter || c = backslash then [backslash, c]
  else if c = '\n' then [backslash, 'n']
  else if c = '\r' then [backslash, 'r']
  else if c = '\t' then [backslash, 't']
  else if showable c then [c]
  else escape c.toNat

def enclose (showable : Char → Bool) (text : List Char) : List Char :=
  let mark := delimiter text
  mark :: text.flatMap (char mark showable) ++ [mark]

def text (text : String) : String := String.ofList (enclose isPrintable text.toList)

/-- The quoted form of bytes: those of ASCII as characters, the others escaped. -/
def bytes (bytes : List UInt8) : String :=
  let chars := bytes.map fun byte => Char.ofNat byte.toNat
  String.ofList ('b' :: enclose (fun c => isPrintable c && c.toNat < 0x80) chars)

end Quoted

end TapeMachine
