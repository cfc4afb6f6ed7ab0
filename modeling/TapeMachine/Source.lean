import TapeMachine.Text.Utf8

namespace TapeMachine

/-- Something that stands for bytes: a text, which stands for its UTF-8 bytes, or numbers. -/
inductive Source where
  | nothing
  | text (content : String)
  | numbers (values : List Int)
  | bytes (octets : List UInt8)
  deriving DecidableEq, Repr

namespace Source

/-- The bytes that a source stands for; `none` if one of its numbers is no byte. -/
def bytes? : Source → Option (List UInt8)
  | .nothing => some []
  | .text content => some (Utf8.encode content)
  | .numbers values => values.mapM Cell.ofInt?
  | .bytes octets => some octets

/-- The text that refuses numbers that are no bytes. -/
def rangeMessage : String := "bytes must be in range(0, 256)"

end Source

end TapeMachine
