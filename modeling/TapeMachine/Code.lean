import TapeMachine.Pairing

namespace TapeMachine

/-- Code that a machine can run: instructions with the table of their brackets. Positions count
instructions, never source bytes. -/
structure Code where
  instructions : Array Instruction
  partners : Array (Option Nat)
  partners_eq : partners = Pairing.table (instructions.toList.map Instruction.bracket?)

namespace Code

def ofInstructions (ops : List Instruction) : Code where
  instructions := ops.toArray
  partners := Pairing.table (ops.map Instruction.bracket?)
  partners_eq := rfl

/-- The code of a source; its comments leave no trace. -/
def ofBytes (source : List UInt8) : Code := ofInstructions (Instruction.ofBytes source)

def size (code : Code) : Nat := code.instructions.size

def partner? (code : Code) (position : Nat) : Option Nat :=
  Pairing.partner? code.partners position

end Code

end TapeMachine
