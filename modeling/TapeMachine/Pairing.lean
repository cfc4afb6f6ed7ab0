import TapeMachine.Instruction

namespace TapeMachine

namespace Pairing

/-- The pass over a sequence, so far: the next position, the open brackets with the latest
first, and the pairs that were found, as opening and closing position. -/
structure Scan where
  position : Nat
  pending : List Nat
  pairs : List (Nat × Nat)

def Scan.start : Scan := ⟨0, [], []⟩

/-- Takes one place of the sequence into account; `none` is a place without a bracket. A closing
bracket takes the latest of the open ones, and one that finds none stays alone. -/
def Scan.next : Scan → Option Bracket → Scan
  | ⟨position, pending, pairs⟩, none => ⟨position + 1, pending, pairs⟩
  | ⟨position, pending, pairs⟩, some .opening => ⟨position + 1, position :: pending, pairs⟩
  | ⟨position, [], pairs⟩, some .closing => ⟨position + 1, [], pairs⟩
  | ⟨position, start :: pending, pairs⟩, some .closing =>
    ⟨position + 1, pending, (start, position) :: pairs⟩

/-- The bracket pairs of a sequence, as opening and closing position. -/
def pairs (places : List (Option Bracket)) : List (Nat × Nat) :=
  (places.foldl Scan.next Scan.start).pairs

def enter (table : Array (Option Nat)) (pair : Nat × Nat) : Array (Option Nat) :=
  (table.setIfInBounds pair.1 (some pair.2)).setIfInBounds pair.2 (some pair.1)

/-- For every place the position of its partner; `none` where there is no bracket and where a
bracket stays alone. -/
def table (places : List (Option Bracket)) : Array (Option Nat) :=
  (pairs places).foldl enter (Array.replicate places.length none)

def partner? (table : Array (Option Nat)) (position : Nat) : Option Nat :=
  (table[position]?).join

def entries (table : Array (Option Nat)) : List (Nat × Nat) :=
  table.toList.zipIdx.filterMap fun (partner, position) => partner.map (position, ·)

end Pairing

end TapeMachine
