import TapeMachine.Proofs.Generator.Filling
import TapeMachine.Proofs.StructuredCode
import Mathlib.Data.List.GetD

namespace TapeMachine

namespace Tape

/-- What the cell at a place holds. A cell that is not there yet counts as zero. -/
def held (tape : Tape) (place : Nat) : Cell := tape.cells.toList.getD place 0

theorem held_cursor (tape : Tape) : tape.held tape.cursor = tape.current := by
  obtain ⟨⟨cells⟩, cursor, inside⟩ := tape
  exact List.getD_eq_getElem _ _ inside

theorem eq_around (tape : Tape) :
    ∃ before after, tape = .around before tape.current after ∧ before.length = tape.cursor := by
  obtain ⟨⟨cells⟩, cursor, inside⟩ := tape
  have inList : cursor < cells.length := inside
  refine ⟨cells.take cursor, cells.drop (cursor + 1), eq_of ?_ ?_, List.length_take_of_le (Nat.le_of_lt inList)⟩
  · simp only [around, current, List.getElem_toArray, ← List.drop_eq_getElem_cons inList,
      List.take_append_drop]
  · exact (List.length_take_of_le (Nat.le_of_lt inList)).symm

theorem held_around (before after : List Cell) (cell : Cell) (place : Nat) :
    (around before cell after).held place = (before ++ cell :: after).getD place 0 := rfl

/-- To the right of the cursor. -/
theorem held_around_behind (before after : List Cell) (cell : Cell) (place : Nat) :
    (around before cell after).held (before.length + 1 + place) = after.getD place 0 := by
  rw [held_around, List.getD_append_right _ _ _ _ (by omega),
    show before.length + 1 + place - before.length = place + 1 by omega, List.getD_cons_succ]

/-- One more zero at the end makes no difference. -/
theorem held_around_concat (before after : List Cell) (cell : Cell) (place : Nat) :
    (around before cell (after ++ [0])).held place = (around before cell after).held place := by
  have cut : before ++ cell :: (after ++ [0]) = (before ++ cell :: after) ++ [0] := by simp
  rw [held_around, held_around, cut]
  rcases Nat.lt_or_ge place (before ++ cell :: after).length with inside | beyond
  · exact List.getD_append _ _ _ _ inside
  · rw [List.getD_append_right _ _ _ _ beyond, List.getD_eq_default _ _ beyond,
      List.getD_eq_getElem?_getD, List.getElem?_getD_singleton_default_eq]

/-- Up to the cursor. -/
theorem held_around_upto {before after after' : List Cell} {cell : Cell} {place : Nat}
    (upto : place ≤ before.length) :
    (around before cell after).held place = (around before cell after').held place := by
  have cut : ∀ cells : List Cell, before ++ cell :: cells = (before ++ [cell]) ++ cells := by simp
  have inside : place < (before ++ [cell]).length := by simp; omega
  rw [held_around, held_around, cut, cut after', List.getD_append _ _ _ _ inside,
    List.getD_append _ _ _ _ inside]

theorem size_around (before after : List Cell) (cell : Cell) :
    (around before cell after).size = before.length + 1 + after.length := by
  simp [size, around]
  omega

end Tape

theorem Code.holds_between (before after : List UInt8) (ops : List Instruction) :
    (Code.ofBytes (before ++ ops.map Instruction.byte ++ after)).Holds
      (Instruction.ofBytes before).length ops := by
  refine ⟨Instruction.ofBytes before, Instruction.ofBytes after, ?_, rfl⟩
  have same := Instruction.ofBytes_byte ops
  simp only [Instruction.ofBytes] at same
  simp only [Code.ofBytes, Code.ofInstructions, Instruction.ofBytes, List.filterMap_append, same,
    List.append_assoc]

/-- A machine before the code of a block that turns its tape goes to the end of that code. It executes
all the steps of its way, reads nothing and prints what the block prints. -/
theorem Block.Turns.run_between {block : Block} {tape : Tape} {printed before after : List UInt8}
    {machine : Machine} (turns : block.Turns machine.tape tape printed)
    (code : machine.code = .ofBytes (before ++ block.source ++ after))
    (start : machine.position = (Instruction.ofBytes before).length) (stream : ByteStream) :
    ∃ count, machine.run count stream =
      ⟨{ machine with
          position := machine.position + block.flatten.length
          tape := tape
          output := machine.output ++ printed.toArray }, stream, count, .exhausted⟩ := by
  have holds : machine.code.Holds machine.position block.flatten := by
    rw [code, start]
    exact Code.holds_between before after block.flatten
  have evaluates := turns machine.input machine.fallback machine.output stream
  obtain ⟨trail, path⟩ := (evaluates.agrees holds).finished
  exact ⟨trail.length, path.run_exhausted⟩

namespace Generator

theorem toNat_ofInt (value : Int) : (UInt8.ofInt value).toNat = (value % 256).toNat := by
  have small : (value % 256).toNat < 256 := by omega
  simp [UInt8.ofInt, UInt8.toNat_ofNat', Nat.mod_eq_of_lt small]

/-- Where there are no more amounts, cells stay as they are. -/
theorem getD_raised (amounts : List Int) (cells : List Cell) (place : Nat) :
    (raised amounts cells).getD place 0 = cells.getD place 0 + UInt8.ofInt (amounts.getD place 0) := by
  induction amounts generalizing cells place with
  | nil => simp [raised, Block.ofInt_zero]
  | cons amount amounts ih =>
    cases place with
    | zero => cases cells <;> rfl
    | succ place =>
      rw [raised, List.getD_cons_succ, List.getD_cons_succ, ih]
      cases cells <;> rfl

theorem length_raised (amounts : List Int) (cells : List Cell) :
    (raised amounts cells).length = max amounts.length cells.length := by
  induction amounts generalizing cells with
  | nil => simp [raised]
  | cons amount amounts ih =>
    rw [raised, List.length_cons, List.length_cons, ih, List.length_tail]
    omega

/-- Cells that held zero hold what they have been raised by. -/
theorem take_raised {amounts : List Int} {cells : List Cell}
    (free : ∀ place < amounts.length, cells.getD place 0 = 0) :
    (raised amounts cells).take amounts.length = amounts.map UInt8.ofInt := by
  induction amounts generalizing cells with
  | nil => rfl
  | cons amount amounts ih =>
    have first : cells.headD 0 = 0 := by
      have here := free 0 (Nat.zero_lt_succ _)
      cases cells <;> exact here
    have others : ∀ place < amounts.length, cells.tail.getD place 0 = 0 := by
      intro place bound
      have next := free (place + 1) (Nat.succ_lt_succ bound)
      cases cells <;> exact next
    rw [raised, List.length_cons, List.take_succ_cons, ih others, first, UInt8.zero_add, List.map_cons]

/-- The loop, and behind it the walk that prints its cells if they are printed. -/
def loopBlock (values : List Int) (print : Bool) : Block :=
  (filling values).append (if print then printed values.length else .done)

theorem flatten_loopBlock {values : List Int} (bound : ∀ value ∈ values, -5 ≤ value) (print : Bool) :
    (loopBlock values print).flatten = loop values print := by
  rw [loopBlock, Block.flatten_append, flatten_filling bound]
  cases print with
  | false => simp [Block.flatten]
  | true => simp [flatten_printed, loop, loopPieces]

/-- Where the loop begins with zeros, it leaves the values. Going over them to print them changes none.
The walk that prints them ends on the cell behind them, which it may have to add to the tape. -/
theorem turns_loopBlock {values : List Int} {after : List Cell}
    (free : ∀ place < values.length, after.getD place 0 = 0) (print : Bool) (before : List Cell) :
    ∃ tape, (loopBlock values print).Turns (.around before 0 after) tape
        (if print then values.map UInt8.ofInt else []) ∧
      (∀ place, tape.held place = (Tape.around before 0 (raised values after)).held place) ∧
      tape.cursor = before.length + (if print then values.length + 1 else 0) ∧
      tape.size = max (Tape.around before 0 after).size
        (before.length + 1 + if print then values.length + 1 else values.length) := by
  have fill := turns_filling values before after
  cases print with
  | false =>
    refine ⟨_, fill.append (Block.turns_done _), fun _ => rfl, rfl, ?_⟩
    rw [Tape.size_around, Tape.size_around, length_raised, if_neg Bool.false_ne_true]
    omega
  | true =>
    have split := List.take_append_drop values.length (raised values after)
    have behind : ((raised values after).drop values.length).length = after.length - values.length := by
      rw [List.length_drop, length_raised]
      omega
    generalize (raised values after).drop values.length = rest at split behind
    rw [take_raised free] at split
    have print := turns_printed (values.map UInt8.ofInt) rest before 0
    rw [split, List.length_map] at print
    refine ⟨_, fill.append print, fun place => ?_, by simp [Tape.around], ?_⟩
    · have walked : (Tape.around (before ++ 0 :: values.map UInt8.ofInt) (rest.headD 0) rest.tail).held
          place = (Tape.around before 0 (values.map UInt8.ofInt ++ rest.headD 0 :: rest.tail)).held
          place := by simp [Tape.held_around]
      rw [walked, ← split]
      cases rest with
      | nil => rw [List.append_nil]; exact Tape.held_around_concat _ _ _ _
      | cons next rest => rfl
    · rw [Tape.size_around, Tape.size_around, List.length_append, List.length_cons, List.length_map,
        List.length_tail, if_pos rfl]
      omega

/-- What the loop has made of a machine on whose counter it began. -/
structure Loaded (values : List Int) (print : Bool) (machine last : Machine) : Prop where
  code : last.code = machine.code
  position : last.position = machine.position + (loop values print).length
  input : last.input = machine.input
  fallback : last.fallback = machine.fallback
  counter : last.tape.held machine.tape.cursor = 0
  filled : ∀ place value, values[place]? = some value →
    (last.tape.held (machine.tape.cursor + 1 + place)).toNat = (value % 256).toNat
  others : ∀ place, place < machine.tape.cursor ∨ machine.tape.cursor + values.length < place →
    last.tape.held place = machine.tape.held place
  size : last.tape.size =
    max machine.tape.size (machine.tape.cursor + 1 + if print then values.length + 1 else values.length)
  cursor : last.tape.cursor = machine.tape.cursor + if print then values.length + 1 else 0
  output : last.output.toList.map UInt8.toNat = machine.output.toList.map UInt8.toNat ++
    if print then values.map fun value => (value % 256).toNat else []

/-- The loop of a generated program keeps its contract wherever it stands and whatever its tape holds
elsewhere: if the counter and the cells to be filled hold zero or are not there yet, then after so many
executed steps, none of which takes a byte from anywhere, the machine is at the end of the loop. -/
theorem exists_run_loaded {before after : List UInt8} {values : List Int} {print : Bool} {machine : Machine}
    (code : machine.code = .ofBytes (before ++ (loop values print).map Instruction.byte ++ after))
    (start : machine.position = (Instruction.ofBytes before).length)
    (bound : ∀ value ∈ values, -5 ≤ value)
    (free : ∀ place ≤ values.length, machine.tape.held (machine.tape.cursor + place) = 0)
    (stream : ByteStream) :
    ∃ count last, machine.run count stream = ⟨last, stream, count, .exhausted⟩ ∧
      Loaded values print machine last := by
  obtain ⟨left, right, tape, cursor⟩ := machine.tape.eq_around
  have zero : machine.tape.current = 0 :=
    machine.tape.held_cursor.symm.trans (free 0 (Nat.zero_le _))
  rw [zero] at tape
  rw [← cursor, tape] at free
  have empty : ∀ place < values.length, right.getD place 0 = 0 := by
    intro place inside
    rw [← Tape.held_around_behind left right 0 place, Nat.add_right_comm]
    exact free (place + 1) inside
  obtain ⟨final, turns, held, reach, size⟩ := turns_loopBlock empty print left
  rw [← tape] at turns size
  rw [← flatten_loopBlock bound] at code
  obtain ⟨count, run⟩ := turns.run_between code start stream
  refine ⟨count, _, run, ?_⟩
  constructor
  case code | input | fallback => rfl
  case position => rw [flatten_loopBlock bound]
  case counter =>
    rw [← cursor, held]
    exact (Tape.held_around_upto (Nat.le_refl _)).trans (free 0 (Nat.zero_le _))
  case filled =>
    intro place value here
    have inside : place < values.length := (List.getElem?_eq_some_iff.mp here).1
    rw [← cursor, held, Tape.held_around_behind, getD_raised, empty place inside, UInt8.zero_add,
      List.getD_eq_getElem?_getD, here, Option.getD_some, toNat_ofInt]
  case others =>
    intro place outside
    rw [← cursor] at outside
    rw [held, tape]
    rcases outside with upto | beyond
    · exact Tape.held_around_upto (Nat.le_of_lt upto)
    · obtain ⟨offset, rfl⟩ : ∃ offset, place = left.length + 1 + offset :=
        ⟨place - (left.length + 1), by omega⟩
      rw [Tape.held_around_behind, Tape.held_around_behind, getD_raised,
        List.getD_eq_default values _ (by omega), Block.ofInt_zero, UInt8.add_zero]
  case size => rw [← cursor, size]
  case cursor => rw [← cursor, reach]
  case output => cases print <;> simp [toNat_ofInt]

/-- Between two brackets without partners, to the right of a cell that holds 5, with -5 and 300. -/
theorem exists_run_loaded_between_strays :
    let source := [0x5D] ++ (loop [-5, 300] true).map Instruction.byte ++ [0x5B]
    ∃ count last, (Machine.mk (.ofBytes source) 1 ⟨#[5, 0], 1, by decide⟩ [7] none #[1]).run count
        .empty = ⟨last, .empty, count, .exhausted⟩ ∧
      last.position + 1 = last.code.size ∧ last.tape.size = 5 ∧
      ((List.range 4).map fun place => (last.tape.held place).toNat) = [5, 0, 251, 44] ∧
      last.output.toList.map UInt8.toNat = [1, 251, 44] := by
  obtain ⟨count, last, run, loaded⟩ := @exists_run_loaded [0x5D] [0x5B] [-5, 300] true
    ⟨.ofBytes ([0x5D] ++ (loop [-5, 300] true).map Instruction.byte ++ [0x5B]), 1,
      ⟨#[5, 0], 1, by decide⟩, [7], none, #[1]⟩ rfl rfl (by decide) (by decide) .empty
  have left : last.tape.held 0 = 5 := loaded.others 0 (.inl (by decide))
  have counter : last.tape.held 1 = 0 := loaded.counter
  have first : (last.tape.held 2).toNat = 251 := loaded.filled 0 (-5) rfl
  have second : (last.tape.held 3).toNat = 44 := loaded.filled 1 300 rfl
  refine ⟨count, last, run, ?_, loaded.size, ?_, loaded.output⟩
  · rw [loaded.position, loaded.code]
    decide
  · simp [List.range_succ, left, counter, first, second]

end Generator

end TapeMachine
