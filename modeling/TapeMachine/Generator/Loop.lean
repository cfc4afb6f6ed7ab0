import TapeMachine.Instruction

namespace TapeMachine

namespace Generator

/-- The nearest multiple of ten; five is rounded up. -/
def roundToTen (value : Int) : Int := 10 * ((value + 5) / 10)

/-- An instruction several times; not at all for a negative count. -/
def times (count : Int) (op : Instruction) : List Instruction := List.replicate count.toNat op

def adjust (amount : Int) : List Instruction :=
  times amount.natAbs (if amount < 0 then .decrement else .increment)

/-- In each round of the counter, every cell grows by one for each ten of its value. -/
def growth (value : Int) : List Instruction := .right :: times (roundToTen value / 10) .increment

/-- What is left after all rounds. -/
def correction (value : Int) : List Instruction := .right :: adjust (value - roundToTen value)

/-- Back to the counter. -/
def rewind (values : List Int) : List Instruction := times values.length .left

/-- Prints the cells behind the counter and goes on to the cell after them. -/
def printing (values : List Int) : List (List Instruction) :=
  [(values.map fun _ => [.right, .output]).flatten, [.right]]

/-- Fills the cells behind the cursor with values, piece by piece. The cell under the cursor is a
counter that goes from ten down to zero and adds to each cell its value in tens; what rounding to
tens has left is then corrected cell by cell. The counter ends as zero with the cursor on it, unless
the cells are printed too. -/
def loopPieces (values : List Int) (print : Bool) : List (List Instruction) :=
  [times 10 .increment ++ [.loopStart]]
    ++ values.map growth
    ++ [rewind values, [.decrement, .loopEnd]]
    ++ values.map correction
    ++ [rewind values]
    ++ (if print then printing values else [])

def loop (values : List Int) (print : Bool) : List Instruction := (loopPieces values print).flatten

end Generator

end TapeMachine
