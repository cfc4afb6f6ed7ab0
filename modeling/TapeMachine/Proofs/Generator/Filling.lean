import TapeMachine.Generator.Layout
import TapeMachine.Proofs.TapeView

namespace TapeMachine

namespace Generator

/-- Cells raised by amounts, one after the other. A cell that was not there yet held zero. -/
def raised : List Int → List Cell → List Cell
  | [], cells => cells
  | amount :: amounts, cells =>
    (cells.headD 0 + UInt8.ofInt amount) :: raised amounts cells.tail

theorem raised_raised {α : Type} (first second : α → Int) (items : List α) (cells : List Cell) :
    raised (items.map second) (raised (items.map first) cells) =
      raised (items.map fun item => first item + second item) cells := by
  induction items generalizing cells with
  | nil => rfl
  | cons item items ih =>
    simp only [List.map_cons, raised, List.headD_cons, List.tail_cons, ih, UInt8.ofInt_add,
      UInt8.add_assoc]

theorem raised_iterate {α : Type} (first second : α → Int) (items : List α) (count : Nat)
    (cells : List Cell) :
    raised (items.map second) ((raised (items.map first))^[count] cells) =
      raised (items.map fun item => count * first item + second item) cells := by
  induction count generalizing second with
  | zero => simp
  | succ count ih =>
    rw [Function.iterate_succ_apply', raised_raised, ih]
    congr 2
    funext item
    rw [Int.natCast_succ, Int.add_mul]
    omega

theorem raised_values (data : List UInt8) : raised (values data) [] = data := by
  induction data with
  | nil => rfl
  | cons byte data ih =>
    have same : UInt8.ofInt byte.toNat = byte := by
      have bound := byte.toNat_lt
      have small : ((byte.toNat : Int) % 256).toNat = byte.toNat := by omega
      simp [UInt8.ofInt, small]
    rw [values, List.map_cons, raised, List.tail_nil, ← values, ih, List.headD_nil, same,
      UInt8.zero_add]

/-- Raises the cells behind the cursor and comes back. -/
def visit : List Int → Block
  | [] => .done
  | amount :: amounts =>
    .simple .right ((Block.adjust amount).append ((visit amounts).append (.simple .left .done)))

theorem turns_visit (amounts : List Int) (before after : List Cell) (cell : Cell) :
    (visit amounts).Turns (.around before cell after)
      (.around before cell (raised amounts after)) [] := by
  induction amounts generalizing before after cell with
  | nil => exact Block.turns_done _
  | cons amount amounts ih =>
    have there := Block.turns_right (.around before cell after)
    rw [Tape.moveRight_around] at there
    have raise := Block.turns_adjust amount (before ++ [cell]) after.tail (after.headD 0)
    have others := ih (before ++ [cell]) after.tail (after.headD 0 + UInt8.ofInt amount)
    have back := Block.turns_left (.around (before ++ [cell]) (after.headD 0 + UInt8.ofInt amount)
      (raised amounts after.tail))
    rw [Tape.moveLeft_around] at back
    exact there.append (raise.append (others.append back))

theorem flatten_adjust (amount : Int) : (Block.adjust amount).flatten = adjust amount := by
  rw [Block.adjust, Block.flatten_repeated, adjust, times, Int.toNat_natCast]
  split_ifs <;> rfl

theorem flatten_visit (amounts : List Int) :
    (visit amounts).flatten = (amounts.map fun amount => .right :: adjust amount).flatten ++
      List.replicate amounts.length .left := by
  induction amounts with
  | nil => rfl
  | cons amount amounts ih =>
    simp only [visit, Block.flatten, Block.flatten_append, flatten_adjust, ih, List.map_cons,
      List.flatten_cons, List.length_cons, List.replicate_succ', Simple.instruction,
      List.append_assoc, List.cons_append]

/-- How much a cell grows in each round. -/
def tens (value : Int) : Int := roundToTen value / 10

def remainder (value : Int) : Int := value - roundToTen value

theorem tens_remainder (value : Int) : (10 : Nat) * tens value + remainder value = value := by
  simp only [tens, remainder, roundToTen]
  omega

/-- A loop of ten rounds, and the correction after it. -/
def filling (items : List Int) : Block :=
  (Block.repeated .increment 10).append
    ((Block.loop ((visit (items.map tens)).append (.simple .decrement .done)) .done).append
      (visit (items.map remainder)))

theorem turns_filling (items : List Int) (before after : List Cell) :
    (filling items).Turns (.around before 0 after) (.around before 0 (raised items after)) [] := by
  have count := Block.turns_repeated .increment (·.update Cell.increment) (fun _ => rfl) 10
    (.around before 0 after)
  rw [Block.iterate_update_around] at count
  have round : ∀ (counter : Cell) (cells : List Cell),
      ((visit (items.map tens)).append (.simple .decrement .done)).Turns
        (.around before counter cells)
        (.around before (counter - 1) (raised (items.map tens) cells)) [] := by
    intro counter cells
    have down := Block.turns_decrement (.around before counter (raised (items.map tens) cells))
    rw [Tape.update_around] at down
    exact (turns_visit _ before cells counter).append down
  have rounds := Block.turns_loop round (by decide : 10 < 256) after
  have rest := turns_visit (items.map remainder) before
    ((raised (items.map tens))^[10] after) 0
  rw [raised_iterate] at rest
  simp only [tens_remainder, List.map_id'] at rest
  exact count.append (rounds.append rest)

/-- The values for which no cell is left out of the rounds. -/
theorem flatten_growth {items : List Int} (bound : ∀ item ∈ items, -5 ≤ item) :
    (items.map growth).flatten ++ rewind items = (visit (items.map tens)).flatten := by
  have same : items.map growth = (items.map tens).map fun amount => .right :: adjust amount := by
    rw [List.map_map]
    apply List.map_congr_left
    intro item member
    have nonneg : 0 ≤ tens item := by
      have := bound item member
      simp only [tens, roundToTen]
      omega
    have size : (tens item).natAbs = (tens item).toNat := by omega
    simp only [Function.comp_apply, growth, adjust, times, if_neg (Int.not_lt.mpr nonneg), size,
      Int.toNat_natCast]
    rfl
  rw [flatten_visit, same, rewind, times, Int.toNat_natCast, List.length_map]

theorem flatten_correction (items : List Int) :
    (items.map correction).flatten ++ rewind items = (visit (items.map remainder)).flatten := by
  rw [flatten_visit, rewind, times, Int.toNat_natCast, List.length_map, List.map_map]
  rfl

theorem flatten_filling {items : List Int} (bound : ∀ item ∈ items, -5 ≤ item) :
    (filling items).flatten = loop items false := by
  simp only [filling, Block.flatten_append, Block.flatten_repeated, Block.flatten,
    ← flatten_growth bound, ← flatten_correction, loop, loopPieces, times, List.flatten_append,
    List.flatten_cons, List.flatten_nil, Simple.instruction]
  simp

/-- Goes over some cells behind the cursor, prints each, and goes on to the next cell. -/
def printed : Nat → Block
  | 0 => .simple .right .done
  | count + 1 => .simple .right (.simple .output (printed count))

theorem turns_printed (cells rest before : List Cell) (cell : Cell) :
    (printed cells.length).Turns (.around before cell (cells ++ rest))
      (.around (before ++ cell :: cells) (rest.headD 0) rest.tail) cells := by
  induction cells generalizing before cell with
  | nil => simpa [printed] using Block.turns_right (.around before cell rest)
  | cons next cells ih =>
    have there := Block.turns_right (.around before cell (next :: (cells ++ rest)))
    have print := Block.turns_output (.around (before ++ [cell]) next (cells ++ rest))
    have onward := ih (before ++ [cell]) next
    simp only [Tape.moveRight_around, List.headD_cons, List.tail_cons] at there
    simp only [Tape.current_around] at print
    simp only [List.append_assoc, List.singleton_append] at onward
    exact there.append (print.append onward)

theorem flatten_printed (items : List Int) :
    (printed items.length).flatten = (printing items).flatten := by
  induction items with
  | nil => rfl
  | cons item items ih =>
    simp only [List.length_cons, printed, Block.flatten, ih, Simple.instruction, printing,
      List.map_cons, List.flatten_cons, List.flatten_nil, List.cons_append, List.nil_append]

end Generator

end TapeMachine
