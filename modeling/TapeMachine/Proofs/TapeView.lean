import TapeMachine.Proofs.Block
import Mathlib.Logic.Function.Iterate

namespace TapeMachine

namespace Tape

theorem eq_of {tape tape' : Tape} (cells : tape.cells = tape'.cells)
    (cursor : tape.cursor = tape'.cursor) : tape = tape' := by
  obtain ⟨_, _, _⟩ := tape
  obtain ⟨_, _, _⟩ := tape'
  subst cells cursor
  rfl

/-- The tape with the cursor on `cell`, which has `before` to its left and `after` to its right. -/
def around (before : List Cell) (cell : Cell) (after : List Cell) : Tape where
  cells := (before ++ cell :: after).toArray
  cursor := before.length
  cursor_lt := by simp

@[simp] theorem current_around (before after : List Cell) (cell : Cell) :
    (around before cell after).current = cell := by
  simp [around, current]

@[simp] theorem write_around (before after : List Cell) (cell new : Cell) :
    (around before cell after).write new = around before new after := by
  apply eq_of
  · simp [around, write]
  · rfl

@[simp] theorem update_around (before after : List Cell) (cell : Cell) (change : Cell → Cell) :
    (around before cell after).update change = around before (change cell) after := by
  simp [update]

/-- To the right there is always a cell; where none was yet, it holds zero. -/
@[simp] theorem moveRight_around (before after : List Cell) (cell : Cell) :
    (around before cell after).moveRight = around (before ++ [cell]) (after.headD 0) after.tail := by
  cases after with
  | nil =>
    apply eq_of <;> simp [around, moveRight]
  | cons next after =>
    apply eq_of <;> simp [around, moveRight]

@[simp] theorem moveLeft_around (before after : List Cell) (cell here : Cell) :
    (around (before ++ [cell]) here after).moveLeft = around before cell (here :: after) := by
  apply eq_of <;> simp [around, moveLeft]

end Tape

namespace Block

/-- Evaluated on the first tape, the block comes to its end with the second one. It prints some
bytes and reads none, whatever else there is in the configuration. -/
def Turns (block : Block) (tape tape' : Tape) (printed : List UInt8) : Prop :=
  ∀ input fallback output stream, Evaluates block ⟨tape, input, fallback, output, stream⟩ .finished
    ⟨tape', input, fallback, output ++ printed.toArray, stream⟩

theorem turns_done (tape : Tape) : done.Turns tape tape [] := by
  intro input fallback output stream
  simpa using Evaluates.done ⟨tape, input, fallback, output, stream⟩

theorem Turns.append {first second : Block} {tape tape' tape'' : Tape} {printed more : List UInt8}
    (head : first.Turns tape tape' printed) (tail : second.Turns tape' tape'' more) :
    (first.append second).Turns tape tape'' (printed ++ more) := by
  intro input fallback output stream
  have onward := tail input fallback (output ++ printed.toArray) stream
  have joined : output ++ printed.toArray ++ more.toArray = output ++ (printed ++ more).toArray := by
    simp
  rw [joined] at onward
  exact (head input fallback output stream).append onward

def repeated (op : Simple) : Nat → Block
  | 0 => done
  | count + 1 => simple op (repeated op count)

theorem flatten_repeated (op : Simple) (count : Nat) :
    (repeated op count).flatten = List.replicate count op.instruction := by
  induction count with
  | zero => rfl
  | succ count ih => rw [repeated, flatten, ih, List.replicate_succ]

theorem turns_right (tape : Tape) : (simple .right done).Turns tape tape.moveRight [] := by
  intro input fallback output stream
  exact .simple rfl (turns_done tape.moveRight input fallback output stream)

theorem turns_left (tape : Tape) : (simple .left done).Turns tape tape.moveLeft [] := by
  intro input fallback output stream
  exact .simple rfl (turns_done tape.moveLeft input fallback output stream)

theorem turns_decrement (tape : Tape) :
    (simple .decrement done).Turns tape (tape.update Cell.decrement) [] := by
  intro input fallback output stream
  exact .simple rfl (turns_done (tape.update Cell.decrement) input fallback output stream)

theorem turns_output (tape : Tape) : (simple .output done).Turns tape tape [tape.current] := by
  intro input fallback output stream
  refine .simple rfl ?_
  simpa using Evaluates.done ⟨tape, input, fallback, output.push tape.current, stream⟩

/-- An instruction that only changes the tape, several times in a row. -/
theorem turns_repeated (op : Simple) (change : Tape → Tape)
    (once : ∀ config : Config, op.run config = (.finished, { config with tape := change config.tape }))
    (count : Nat) (tape : Tape) : (repeated op count).Turns tape (change^[count] tape) [] := by
  induction count generalizing tape with
  | zero => exact turns_done tape
  | succ count ih =>
    intro input fallback output stream
    exact .simple (once _) (ih (change tape) input fallback output stream)

theorem iterate_update_around (change : Cell → Cell) (count : Nat) (before after : List Cell)
    (cell : Cell) : (fun tape : Tape => tape.update change)^[count] (.around before cell after) =
      .around before (change^[count] cell) after := by
  induction count generalizing cell with
  | zero => rfl
  | succ count ih => simp only [Function.iterate_succ_apply, Tape.update_around, ih]

theorem ofInt_zero : UInt8.ofInt 0 = 0 := rfl

theorem iterate_increment (count : Nat) (cell : Cell) :
    Cell.increment^[count] cell = cell + UInt8.ofInt count := by
  induction count generalizing cell with
  | zero => simp [ofInt_zero]
  | succ count ih =>
    have more : ((count + 1 : Nat) : Int) = count + 1 := by omega
    rw [Function.iterate_succ_apply, ih, Cell.increment, more, UInt8.ofInt_add, UInt8.ofInt_one,
      UInt8.add_assoc, UInt8.add_comm 1]

theorem iterate_decrement (count : Nat) (cell : Cell) :
    Cell.decrement^[count] cell = cell + UInt8.ofInt (-count) := by
  induction count generalizing cell with
  | zero => simp [ofInt_zero]
  | succ count ih =>
    have less : (-((count + 1 : Nat) : Int)) = -(count : Int) + -1 := by omega
    rw [Function.iterate_succ_apply, ih, Cell.decrement, less, UInt8.ofInt_add, UInt8.ofInt_neg_one,
      UInt8.sub_eq_add_neg, UInt8.add_assoc, UInt8.add_comm (-1)]

/-- Moves the cell under the cursor by a signed amount. -/
def adjust (amount : Int) : Block :=
  repeated (if amount < 0 then .decrement else .increment) amount.natAbs

theorem turns_adjust (amount : Int) (before after : List Cell) (cell : Cell) :
    (adjust amount).Turns (.around before cell after)
      (.around before (cell + UInt8.ofInt amount) after) [] := by
  by_cases negative : amount < 0
  · have turns := turns_repeated .decrement (·.update Cell.decrement) (fun _ => rfl)
      amount.natAbs (.around before cell after)
    rw [iterate_update_around, iterate_decrement] at turns
    rw [adjust, if_pos negative]
    have same : -(amount.natAbs : Int) = amount := by omega
    rwa [same] at turns
  · have turns := turns_repeated .increment (·.update Cell.increment) (fun _ => rfl)
      amount.natAbs (.around before cell after)
    rw [iterate_update_around, iterate_increment] at turns
    rw [adjust, if_neg negative]
    have same : (amount.natAbs : Int) = amount := by omega
    rwa [same] at turns

/-- A counter that every round takes down by one, until it is zero. -/
theorem turns_loop {body : Block} {before : List Cell} {round : List Cell → List Cell}
    (once : ∀ (counter : Cell) (after : List Cell), body.Turns (.around before counter after)
      (.around before (counter - 1) (round after)) [])
    {count : Nat} (small : count < 256) (after : List Cell) :
    (loop body done).Turns (.around before (UInt8.ofNat count) after)
      (.around before 0 (round^[count] after)) [] := by
  induction count generalizing after with
  | zero =>
    intro input fallback output stream
    exact .leave (by simp) (turns_done _ input fallback output stream)
  | succ count ih =>
    intro input fallback output stream
    have body := once (UInt8.ofNat (count + 1)) after input fallback output stream
    have less : UInt8.ofNat (count + 1) - 1 = UInt8.ofNat count := by
      rw [UInt8.ofNat_add, UInt8.ofNat_one]
      exact UInt8.add_sub_cancel _ _
    rw [less, Array.append_empty] at body
    refine .again ?_ body (ih (by omega) (round after) input fallback output stream)
    intro zero
    have value := congrArg UInt8.toNat zero
    simp only [Tape.current_around, UInt8.toNat_ofNat', UInt8.toNat_zero] at value
    omega

end Block

end TapeMachine
