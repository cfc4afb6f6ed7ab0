namespace TapeMachine

/-- A cell holds a byte, so 255 and 0 are neighbours. -/
abbrev Cell := UInt8

namespace Cell

def increment (cell : Cell) : Cell := cell + 1

def decrement (cell : Cell) : Cell := cell - 1

/-- The cell that holds a number; `none` for a number that is no byte. -/
def ofInt? (value : Int) : Option Cell :=
  if 0 ≤ value ∧ value ≤ 255 then some (UInt8.ofNat value.toNat) else none

theorem ofInt?_toNat (byte : UInt8) : ofInt? (byte.toNat : Int) = some byte := by
  have bound := byte.toNat_lt
  rw [ofInt?, if_pos (by omega), Int.toNat_natCast, UInt8.ofNat_toNat]

theorem ofInt?_eq_some {value : Int} {byte : UInt8} : ofInt? value = some byte ↔ value = byte.toNat := by
  constructor
  · intro known
    obtain ⟨within, same⟩ := Option.ite_none_right_eq_some.mp known
    rw [← Option.some.inj same, UInt8.toNat_ofNat']
    omega
  · rintro rfl
    exact ofInt?_toNat byte

/-- The character whose code point the cell holds. -/
def char (cell : Cell) : Char := Char.ofNat cell.toNat

def describe (cell : Cell) : String := s!"Cell({cell.toNat})"

/-- The text that refuses a number that is no byte. -/
def rangeMessage (value : Int) : String := s!"cell value out of range: {value}"

end Cell

end TapeMachine
