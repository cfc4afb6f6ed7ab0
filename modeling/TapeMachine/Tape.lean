import TapeMachine.Cell

namespace TapeMachine

/-- Cells that are there, and a cursor on one of them. The tape grows at its right end only, as soon
as the cursor passes the last cell, and never shrinks; at the left end the cursor stays. -/
structure Tape where
  cells : Array Cell
  cursor : Nat
  cursor_lt : cursor < cells.size
  deriving DecidableEq

namespace Tape

/-- One cell, holding zero. -/
def blank : Tape where
  cells := #[0]
  cursor := 0
  cursor_lt := by decide

instance : Inhabited Tape := ⟨blank⟩

def size (tape : Tape) : Nat := tape.cells.size

def current : Tape → Cell
  | ⟨cells, cursor, _⟩ => cells[cursor]

def write : Tape → Cell → Tape
  | ⟨cells, cursor, inside⟩, cell =>
    ⟨cells.set cursor cell, cursor, by simpa using inside⟩

def update (tape : Tape) (change : Cell → Cell) : Tape := tape.write (change tape.current)

/-- One cell to the right; a zero cell is added where none was. -/
def moveRight : Tape → Tape
  | ⟨cells, cursor, inside⟩ =>
    if more : cursor + 1 < cells.size then ⟨cells, cursor + 1, more⟩
    else ⟨cells.push 0, cursor + 1, by simp; omega⟩

/-- One cell to the left; the first cell has no left neighbour and keeps the cursor. -/
def moveLeft : Tape → Tape
  | ⟨cells, cursor, inside⟩ => ⟨cells, cursor - 1, by omega⟩

/-- What is said where an offset or a count is negative. -/
def windowMessage : String := "window: offset and count must be >= 0"

/-- At most `count` cells from `offset` on, cut at the end of the tape. -/
def window (tape : Tape) (offset count : Int) : Except String (Array Cell) :=
  if offset < 0 ∨ count < 0 then .error windowMessage
  else .ok (tape.cells.extract offset.toNat (offset.toNat + count.toNat))

def window? (tape : Tape) (offset count : Int) : Option (Array Cell) :=
  (tape.window offset count).toOption

def values (tape : Tape) : List Nat := tape.cells.toList.map UInt8.toNat

def describe (tape : Tape) : String :=
  let listed := ", ".intercalate (tape.values.map fun value => toString value)
  s!"Tape(cursor={tape.cursor}, values=[{listed}])"

end Tape

end TapeMachine
