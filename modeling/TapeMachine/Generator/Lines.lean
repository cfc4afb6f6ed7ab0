namespace TapeMachine

namespace Lines

def lineFeed : UInt8 := 0x0A

def carriageReturn : UInt8 := 0x0D

/-- The segments between line feeds; one more than there are line feeds. -/
def segments : List UInt8 → List (List UInt8)
  | [] => [[]]
  | byte :: rest =>
    if byte = lineFeed then [] :: segments rest
    else
      match segments rest with
      | [] => [[byte]]
      | segment :: more => (byte :: segment) :: more

def dropFinalEmpty (segments : List (List UInt8)) : List (List UInt8) :=
  if segments.getLast? = some [] then segments.dropLast else segments

def stripReturn (segment : List UInt8) : List UInt8 :=
  if segment.getLast? = some carriageReturn then segment.dropLast else segment

/-- The lines of a text. A line feed ends a line, and a carriage return before it belongs to the end
of the line. There is no empty line behind the last line feed. -/
def ofBytes (data : List UInt8) : List (List UInt8) :=
  (dropFinalEmpty (segments data)).map stripReturn

/-- Whether the last line is ended. -/
def isEnded (data : List UInt8) : Bool := data.getLast? = some lineFeed

/-- Whether some line ends with a carriage return and a line feed. -/
def hasReturns : List UInt8 → Bool
  | first :: second :: rest =>
    (first = carriageReturn && second = lineFeed) || hasReturns (second :: rest)
  | _ => false

end Lines

end TapeMachine
