import TapeMachine.Text.Ranges

namespace TapeMachine

namespace Blank

/-- The characters that Unicode calls white space, and the four separators U+001C to U+001F. -/
def ranges : CharRanges :=
  [(0x09, 0x0D), (0x1C, 0x20), (0x85, 0x85), (0xA0, 0xA0), (0x1680, 0x1680), (0x2000, 0x200A),
    (0x2028, 0x2029), (0x202F, 0x202F), (0x205F, 0x205F), (0x3000, 0x3000)]

end Blank

def isBlank (c : Char) : Bool := Blank.ranges.contains c

def trimStart (drop : Char → Bool) (text : List Char) : List Char := text.dropWhile drop

def trimEnd (drop : Char → Bool) (text : List Char) : List Char :=
  (text.reverse.dropWhile drop).reverse

def trim (drop : Char → Bool) (text : List Char) : List Char := trimEnd drop (trimStart drop text)

/-- The part before the first space, and the part after it if there is one. -/
def cutAtSpace (text : List Char) : List Char × List Char :=
  (text.takeWhile (· ≠ ' '), (text.dropWhile (· ≠ ' ')).drop 1)

end TapeMachine
