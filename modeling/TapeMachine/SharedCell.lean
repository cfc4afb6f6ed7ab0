namespace TapeMachine

/-- A value that several parties share under a lock. If a party fails while it holds the lock, the
value cannot be trusted any more: the cell is poisoned, for ever, and refuses every access. -/
structure SharedCell (α : Type) where
  value : α
  poisoned : Bool
  deriving DecidableEq, Repr

/-- Why an access under the lock fails: the cell refuses it, or the party itself raised. -/
inductive LockError (ε : Type) where
  | poisoned
  | raised (error : ε)
  deriving DecidableEq, Repr

def poisonedMessage : String := "an interpreter thread mutex was poisoned"

namespace SharedCell

variable {α β ε : Type}

def new (value : α) : SharedCell α := ⟨value, false⟩

/-- Runs a block under the lock. The block sees the value and leaves one; if it raises, the value
that it left stays in the cell, which is poisoned. A poisoned cell does not run the block. -/
def locked (cell : SharedCell α) (block : α → α × Except ε β) :
    Except (LockError ε) β × SharedCell α :=
  if cell.poisoned then (.error .poisoned, cell)
  else
    match block cell.value with
    | (value, .ok result) => (.ok result, ⟨value, false⟩)
    | (value, .error error) => (.error (.raised error), ⟨value, true⟩)

/-- Poisons the cell from outside; its value is left alone. -/
def poison (cell : SharedCell α) : SharedCell α := { cell with poisoned := true }

/-- The value; `none` if the cell is poisoned. -/
def load? (cell : SharedCell α) : Option α :=
  if cell.poisoned then none else some cell.value

/-- Replaces the value; `none` if the cell is poisoned. -/
def store? (cell : SharedCell α) (value : α) : Option (SharedCell α) :=
  if cell.poisoned then none else some ⟨value, false⟩

end SharedCell

end TapeMachine
