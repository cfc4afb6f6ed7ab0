import TapeMachine.Generator.Loop
import TapeMachine.Generator.Lines
import TapeMachine.Source
import TapeMachine.Text.Quoted

namespace TapeMachine

namespace Generator

/-- How a program prints its text: all of it from one stretch of cells, line by line with ends of
one kind, or from one cell for each distinct byte. -/
inductive Layout where
  | charwise
  | linewise
  | uniqueChars
  deriving DecidableEq, Repr

namespace Layout

def all : List Layout := [charwise, linewise, uniqueChars]

def name : Layout → String
  | charwise => "charwise"
  | linewise => "linewise"
  | uniqueChars => "unique-chars"

def ofName? (name : String) : Option Layout := all.find? fun layout => layout.name = name

def unknownMessage (given : String) : String :=
  let names := ", ".intercalate (all.map name)
  "invalid mode: " ++ Quoted.text given ++ " (expected one of " ++ names ++ ")"

end Layout

def values (bytes : List UInt8) : List Int := bytes.map fun byte => (byte.toNat : Int)

def charwise (data : List UInt8) : List Instruction := loop (values data) true

/-- Prints a line feed from a fresh cell and goes on to the next. -/
def lineFeed : List Instruction := times 10 .increment ++ [.output, .right]

/-- Prints a carriage return and a line feed from a fresh cell and goes on to the next. -/
def returnLineFeed : List Instruction :=
  times 13 .increment ++ [.output] ++ times 3 .decrement ++ [.output, .right]

/-- Prints line after line. All lines end in the same way: with a carriage return as soon as one
of them has it. -/
def linewise (data : List UInt8) : List Instruction :=
  let ending := if Lines.hasReturns data then returnLineFeed else lineFeed
  let lines := (Lines.ofBytes data).map fun line => loop (values line) true
  (lines.intersperse ending).flatten ++ (if Lines.isEnded data then ending else [])

/-- The distinct bytes of a text, in ascending order. -/
def distinct (data : List UInt8) : List UInt8 :=
  ((List.range 256).map UInt8.ofNat).filter data.contains

/-- Moves the cursor by a signed number of cells. -/
def move (amount : Int) : List Instruction :=
  times amount.natAbs (if amount < 0 then .left else .right)

/-- Prints bytes by going to the cell of each; cell `i + 1` holds the byte at place `i`. -/
def tour (cells : List UInt8) (cursor : Nat) : List UInt8 → List Instruction
  | [] => []
  | byte :: rest =>
    let cell := cells.idxOf byte + 1
    move ((cell : Int) - cursor) ++ .output :: tour cells cell rest

/-- Loads each distinct byte once and goes from cell to cell. -/
def uniqueChars (data : List UInt8) : List Instruction :=
  let cells := distinct data
  loop (values cells) false ++ .right :: tour cells 1 data

def instructions : Layout → List UInt8 → List Instruction
  | .charwise => charwise
  | .linewise => linewise
  | .uniqueChars => uniqueChars

/-- The text with a line feed at its end, if one is asked for and not there. -/
def withLineFeed (newline : Bool) (data : List UInt8) : List UInt8 :=
  if newline && !Lines.isEnded data then data ++ [Lines.lineFeed] else data

/-- The program that prints a text, as one line of source. -/
def program (layout : Layout) (newline : Bool) (data : List UInt8) : String :=
  (Instruction.text (instructions layout (withLineFeed newline data))).push '\n'

/-- Why no program is generated: no layout has the given name, or what was handed in stands for no
bytes. -/
inductive Error where
  | layout (name : String)
  | byteRange
  deriving DecidableEq, Repr

def Error.message : Error → String
  | layout name => Layout.unknownMessage name
  | byteRange => Source.rangeMessage

/-- The program that prints what a caller hands in. The name of the layout is looked at first. -/
def generate (name : String) (newline : Bool) (data : Source) : Except Error String := do
  let some layout := Layout.ofName? name | throw (.layout name)
  let some bytes := data.bytes? | throw .byteRange
  return program layout newline bytes

end Generator

end TapeMachine
