import TapeMachine.Cell

namespace TapeMachine

namespace Utf8

def encode (text : String) : List UInt8 := text.toList.flatMap String.utf8EncodeChar

/-- The character that stands for bytes that are no text. -/
def replacement : Char := '\uFFFD'

/-- The decoder between two bytes. In an unfinished character, `missing` bytes are still to come,
`value` is what the bytes so far are worth, and the next byte lies between `low` and `high`. After
the byte ED either a character or a surrogate follows. Surrogates are no characters, but whether
two bytes are one is left open until there is a third. -/
inductive Decoder where
  | ready
  | unfinished (missing value : Nat) (low high : UInt8)
  | afterED
  | surrogate
  deriving DecidableEq, Repr

namespace Decoder

/-- The first byte of a character. The bounds of the second byte keep out the forms that are
longer than they have to be and what lies above U+10FFFF. -/
def first (byte : UInt8) : List Char × Decoder :=
  let n := byte.toNat
  if n < 0x80 then ([Char.ofNat n], ready)
  else if n < 0xC2 then ([replacement], ready)
  else if n < 0xE0 then ([], unfinished 1 (n - 0xC0) 0x80 0xBF)
  else if n = 0xE0 then ([], unfinished 2 0 0xA0 0xBF)
  else if n = 0xED then ([], afterED)
  else if n < 0xF0 then ([], unfinished 2 (n - 0xE0) 0x80 0xBF)
  else if n = 0xF0 then ([], unfinished 3 0 0x90 0xBF)
  else if n < 0xF4 then ([], unfinished 3 (n - 0xF0) 0x80 0xBF)
  else if n = 0xF4 then ([], unfinished 3 4 0x80 0x8F)
  else ([replacement], ready)

/-- The byte begins anew, after some characters that had to be given up. -/
def restart (lost : Nat) (byte : UInt8) : List Char × Decoder :=
  let (chars, decoder) := first byte
  (List.replicate lost replacement ++ chars, decoder)

/-- Takes one byte: the characters that are complete with it, and the decoder after it. -/
def feed (decoder : Decoder) (byte : UInt8) : List Char × Decoder :=
  match decoder with
  | ready => first byte
  | unfinished missing value low high =>
    if low ≤ byte ∧ byte ≤ high then
      let value := value * 64 + (byte.toNat - 0x80)
      if missing ≤ 1 then ([Char.ofNat value], ready)
      else ([], unfinished (missing - 1) value 0x80 0xBF)
    else restart 1 byte
  | afterED =>
    if 0x80 ≤ byte ∧ byte ≤ 0x9F then ([], unfinished 1 (0xD * 64 + (byte.toNat - 0x80)) 0x80 0xBF)
    else if 0xA0 ≤ byte ∧ byte ≤ 0xBF then ([], surrogate)
    else restart 1 byte
  | surrogate => restart 2 byte

/-- The characters that stand for what is left at the end of a text. -/
def finish : Decoder → List Char
  | ready => []
  | unfinished _ _ _ _ | afterED => [replacement]
  | surrogate => [replacement, replacement]

/-- Takes a piece: the text that it completes, and the decoder after it. Each longest run of bytes
that begins a character but cannot be continued becomes one replacement character. -/
def decode (decoder : Decoder) (piece : List UInt8) : String × Decoder :=
  piece.foldl
    (fun (text, decoder) byte =>
      let (chars, decoder) := feed decoder byte
      (chars.foldl String.push text, decoder))
    ("", decoder)

end Decoder

/-- Reads bytes as a whole text; what is unfinished at the end is replaced too. -/
def decode (bytes : List UInt8) : String :=
  let (text, decoder) := Decoder.decode .ready bytes
  decoder.finish.foldl String.push text

end Utf8

end TapeMachine
