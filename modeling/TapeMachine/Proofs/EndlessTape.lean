import TapeMachine.Program
import TapeMachine.Proofs.Concatenation

namespace TapeMachine

/-- A tape without end. -/
structure EndlessTape where
  cells : Nat → Nat
  cursor : Nat

namespace EndlessTape

def blank : EndlessTape := ⟨fun _ => 0, 0⟩

def current (tape : EndlessTape) : Nat := tape.cells tape.cursor

def write (tape : EndlessTape) (value : Nat) : EndlessTape :=
  { tape with cells := fun index => if index = tape.cursor then value else tape.cells index }

def increment (tape : EndlessTape) : EndlessTape := tape.write ((tape.current + 1) % 256)

/-- One less, counted modulo 256. -/
def decrement (tape : EndlessTape) : EndlessTape := tape.write ((tape.current + 255) % 256)

def moveRight (tape : EndlessTape) : EndlessTape := { tape with cursor := tape.cursor + 1 }

def moveLeft (tape : EndlessTape) : EndlessTape := { tape with cursor := tape.cursor - 1 }

end EndlessTape

/-- A machine on an endless tape. Its output is a list of numbers, the first one printed first. -/
structure EndlessMachine where
  code : Code
  position : Nat
  tape : EndlessTape
  input : List UInt8
  fallback : Option UInt8
  output : List Nat

namespace EndlessMachine

def load (program : Program) : EndlessMachine where
  code := .ofBytes program.code
  position := 0
  tape := .blank
  input := program.input
  fallback := program.fallback
  output := []

/-- The machine behind its instruction, with another tape. -/
def pass (machine : EndlessMachine) (tape : EndlessTape) : EndlessMachine :=
  { machine with position := machine.position + 1, tape := tape }

/-- The machine behind its read of a byte. -/
def take (machine : EndlessMachine) (byte : UInt8) : EndlessMachine :=
  machine.pass (machine.tape.write byte.toNat)

def read (machine : EndlessMachine) (stream : ByteStream) :
    Outcome × EndlessMachine × ByteStream :=
  match machine.input, machine.fallback with
  | byte :: input, _ => (.ran .input, { machine.take byte with input := input }, stream)
  | [], some byte => (.ran .input, machine.take byte, stream)
  | [], none =>
    match stream.read with
    | .byte byte rest => (.ran .input, machine.take byte, rest)
    | .fault fault rest => (.failed (.ofFault fault), machine, rest)
    | .endOfStream => (.failed .endOfInput, machine, stream)
    | .waiting => (.waiting, machine, stream)

/-- Executes the bracket `op`, which goes behind its partner if `jumps`. -/
def bracket (machine : EndlessMachine) (op : Instruction) (jumps : Bool) (stream : ByteStream) :
    Outcome × EndlessMachine × ByteStream :=
  match machine.code.partner? machine.position with
  | none => (.failed .mismatchedBrackets, machine, stream)
  | some partner =>
    (.ran op, { machine with position := if jumps then partner + 1 else machine.position + 1 },
      stream)

def step (machine : EndlessMachine) (stream : ByteStream) :
    Outcome × EndlessMachine × ByteStream :=
  match machine.code.instructions[machine.position]? with
  | none => (.ended, machine, stream)
  | some .increment => (.ran .increment, machine.pass machine.tape.increment, stream)
  | some .decrement => (.ran .decrement, machine.pass machine.tape.decrement, stream)
  | some .left => (.ran .left, machine.pass machine.tape.moveLeft, stream)
  | some .right => (.ran .right, machine.pass machine.tape.moveRight, stream)
  | some .loopStart => machine.bracket .loopStart (machine.tape.current = 0) stream
  | some .loopEnd => machine.bracket .loopEnd (machine.tape.current ≠ 0) stream
  | some .output =>
    (.ran .output,
      { machine.pass machine.tape with output := machine.output ++ [machine.tape.current] }, stream)
  | some .input => machine.read stream

/-- The machine and its stream after so many steps, failed ones among them. -/
def after (machine : EndlessMachine) (stream : ByteStream) : Nat → EndlessMachine × ByteStream
  | 0 => (machine, stream)
  | steps + 1 =>
    let (machine, stream) := machine.after stream steps
    (machine.step stream).2

end EndlessMachine

/-- The machine and its stream after so many steps, failed ones among them. -/
def Machine.after (machine : Machine) (stream : ByteStream) : Nat → Machine × ByteStream
  | 0 => (machine, stream)
  | steps + 1 =>
    let (machine, stream) := machine.after stream steps
    let result := machine.step stream
    (result.machine, result.stream)

/-- The two tapes hold the same; cells that are not there count as zero. -/
structure Tape.Mirrors (tape : Tape) (endless : EndlessTape) : Prop where
  cursor : endless.cursor = tape.cursor
  cells : ∀ index, endless.cells index = (tape.cells[index]?.getD 0).toNat

namespace Tape.Mirrors

variable {tape : Tape} {endless : EndlessTape}

theorem blank : Tape.blank.Mirrors .blank where
  cursor := rfl
  cells := by
    rintro (_ | index) <;> rfl

theorem current (mirrors : tape.Mirrors endless) : endless.current = tape.current.toNat := by
  obtain ⟨cells, cursor, inside⟩ := tape
  have here := mirrors.cells endless.cursor
  rw [mirrors.cursor, Array.getElem?_eq_getElem inside, Option.getD_some] at here
  rw [EndlessTape.current, mirrors.cursor, here]
  rfl

theorem write (mirrors : tape.Mirrors endless) (cell : Cell) :
    (tape.write cell).Mirrors (endless.write cell.toNat) := by
  obtain ⟨cells, cursor, inside⟩ := tape
  refine ⟨mirrors.cursor, fun index => ?_⟩
  simp only [EndlessTape.write, Tape.write, Array.getElem?_set, mirrors.cursor]
  by_cases here : index = cursor
  · simp [here]
  · rw [if_neg here, if_neg (Ne.symm here), mirrors.cells index]

theorem increment (mirrors : tape.Mirrors endless) :
    (tape.update Cell.increment).Mirrors endless.increment := by
  have value : (endless.current + 1) % 256 = (Cell.increment tape.current).toNat := by
    rw [mirrors.current, Cell.increment, UInt8.toNat_add]
    rfl
  rw [EndlessTape.increment, value]
  exact mirrors.write _

theorem decrement (mirrors : tape.Mirrors endless) :
    (tape.update Cell.decrement).Mirrors endless.decrement := by
  have value : (endless.current + 255) % 256 = (Cell.decrement tape.current).toNat := by
    rw [mirrors.current, Cell.decrement, UInt8.toNat_sub, Nat.add_comm]
    rfl
  rw [EndlessTape.decrement, value]
  exact mirrors.write _

/-- The new cell at the end of the tape is the zero that the endless tape has had there all along. -/
theorem moveRight (mirrors : tape.Mirrors endless) :
    tape.moveRight.Mirrors endless.moveRight := by
  obtain ⟨cells, cursor, inside⟩ := tape
  have next : endless.moveRight.cursor = cursor + 1 := congrArg (· + 1) mirrors.cursor
  rw [Tape.moveRight]
  split
  · exact ⟨next, mirrors.cells⟩
  · refine ⟨next, fun index => (mirrors.cells index).trans ?_⟩
    rw [Array.getElem?_push]
    by_cases atEnd : index = cells.size
    · simp [atEnd]
    · rw [if_neg atEnd]

theorem moveLeft (mirrors : tape.Mirrors endless) : tape.moveLeft.Mirrors endless.moveLeft := by
  obtain ⟨cells, cursor, inside⟩ := tape
  exact ⟨congrArg (· - 1) mirrors.cursor, mirrors.cells⟩

end Tape.Mirrors

/-- The two machines are at the same place of the same code, with the same on their tapes and the
same input and output. -/
structure Machine.Mirrors (machine : Machine) (endless : EndlessMachine) : Prop where
  code : endless.code = machine.code
  position : endless.position = machine.position
  tape : machine.tape.Mirrors endless.tape
  input : endless.input = machine.input
  fallback : machine.fallback = endless.fallback.map fun byte => (byte.toNat : Int)
  output : endless.output = machine.output.toList.map UInt8.toNat

/-- Two steps have the same outcome, and leave the same behind. -/
structure StepResult.Mirrors (result : StepResult)
    (endless : Outcome × EndlessMachine × ByteStream) : Prop where
  outcome : endless.1 = result.outcome
  machine : result.machine.Mirrors endless.2.1
  stream : endless.2.2 = result.stream

namespace Machine.Mirrors

variable {machine : Machine} {endless : EndlessMachine}

theorem load (program : Program) : program.machine.Mirrors (.load program) where
  code := rfl
  position := rfl
  tape := .blank
  input := rfl
  fallback := rfl
  output := rfl

theorem pass (mirrors : machine.Mirrors endless) {tape : Tape} {endlessTape : EndlessTape}
    (tapes : tape.Mirrors endlessTape) :
    { machine with position := machine.position + 1, tape := tape }.Mirrors
      (endless.pass endlessTape) :=
  { mirrors with position := congrArg (· + 1) mirrors.position, tape := tapes }

theorem bracket (mirrors : machine.Mirrors endless) (op : Instruction) (jumps : Cell → Bool)
    (stream : ByteStream) :
    (machine.bracket op jumps stream).Mirrors
      (endless.bracket op (jumps machine.tape.current) stream) := by
  obtain ⟨_, _, tape, _, _, _⟩ := machine
  obtain ⟨code, position, _, input, fallback, _⟩ := endless
  obtain ⟨rfl, rfl, tapes, rfl, rfl, printed⟩ := mirrors
  rw [EndlessMachine.bracket, Machine.bracket]
  rcases code.partner? position with _ | partner
  all_goals exact ⟨rfl, ⟨rfl, rfl, tapes, rfl, rfl, printed⟩, rfl⟩

theorem read (mirrors : machine.Mirrors endless) (stream : ByteStream) :
    (machine.read stream).Mirrors (endless.read stream) := by
  obtain ⟨_, _, tape, _, _, _⟩ := machine
  obtain ⟨code, position, _, input, fallback, _⟩ := endless
  obtain ⟨rfl, rfl, tapes, rfl, rfl, printed⟩ := mirrors
  have took (byte : UInt8) := tapes.write byte
  rcases input with _ | ⟨byte, input⟩
  · rcases fallback with _ | byte
    · simp only [EndlessMachine.read, Machine.read, Option.map_none]
      rcases stream.read with ⟨byte, rest⟩ | ⟨fault, rest⟩ | _ | _
      · exact ⟨rfl, ⟨rfl, rfl, took byte, rfl, rfl, printed⟩, rfl⟩
      all_goals exact ⟨rfl, ⟨rfl, rfl, tapes, rfl, rfl, printed⟩, rfl⟩
    · simp only [EndlessMachine.read, Machine.read, Option.map_some, Cell.ofInt?_toNat]
      exact ⟨rfl, ⟨rfl, rfl, took byte, rfl, rfl, printed⟩, rfl⟩
  · exact ⟨rfl, ⟨rfl, rfl, took byte, rfl, rfl, printed⟩, rfl⟩

theorem step (mirrors : machine.Mirrors endless) (stream : ByteStream) :
    (machine.step stream).Mirrors (endless.step stream) := by
  have zero : endless.tape.current = 0 ↔ machine.tape.current = 0 := by
    rw [mirrors.tape.current, ← UInt8.toNat_inj]
    rfl
  rw [EndlessMachine.step, mirrors.code, mirrors.position]
  rw [Machine.step, peek]
  rcases machine.code.instructions[machine.position]? with _ | op
  · exact ⟨rfl, mirrors, rfl⟩
  cases op with
  | increment => exact ⟨rfl, mirrors.pass mirrors.tape.increment, rfl⟩
  | decrement => exact ⟨rfl, mirrors.pass mirrors.tape.decrement, rfl⟩
  | left => exact ⟨rfl, mirrors.pass mirrors.tape.moveLeft, rfl⟩
  | right => exact ⟨rfl, mirrors.pass mirrors.tape.moveRight, rfl⟩
  | loopStart =>
    simp only [zero]
    exact mirrors.bracket .loopStart (· = 0) stream
  | loopEnd =>
    simp only [ne_eq, zero]
    exact mirrors.bracket .loopEnd (· ≠ 0) stream
  | output =>
    refine ⟨rfl, { mirrors.pass mirrors.tape with output := ?_ }, rfl⟩
    simp [Machine.print, mirrors.output, mirrors.tape.current]
  | input => exact mirrors.read stream

theorem after (mirrors : machine.Mirrors endless) (stream : ByteStream) (steps : Nat) :
    (machine.after stream steps).1.Mirrors (endless.after stream steps).1 ∧
      (endless.after stream steps).2 = (machine.after stream steps).2 := by
  induction steps with
  | zero => exact ⟨mirrors, rfl⟩
  | succ steps ih =>
    obtain ⟨same, left⟩ := ih
    have next := same.step (machine.after stream steps).2
    rw [← left] at next
    simp only [EndlessMachine.after, Machine.after, ← left]
    exact ⟨next.machine, next.stream⟩

end Machine.Mirrors

/-- The second tape has the cells of the first one and those that its own cursor needs. -/
def Tape.GrowsTo (tape grown : Tape) : Prop := grown.size = max tape.size (grown.cursor + 1)

namespace Tape.GrowsTo

theorem refl (tape : Tape) : tape.GrowsTo tape :=
  (Nat.max_eq_left tape.cursor_lt).symm

theorem write (tape : Tape) (cell : Cell) : tape.GrowsTo (tape.write cell) := by
  obtain ⟨cells, cursor, inside⟩ := tape
  simp only [GrowsTo, Tape.write, Tape.size, Array.size_set]
  omega

theorem moveRight (tape : Tape) : tape.GrowsTo tape.moveRight := by
  obtain ⟨cells, cursor, inside⟩ := tape
  simp only [GrowsTo, Tape.moveRight]
  split <;> simp only [Tape.size, Array.size_push] <;> omega

theorem moveLeft (tape : Tape) : tape.GrowsTo tape.moveLeft := by
  obtain ⟨cells, cursor, inside⟩ := tape
  simp only [GrowsTo, Tape.moveLeft, Tape.size]
  omega

end Tape.GrowsTo

theorem Config.grows_read (config : Config) : config.tape.GrowsTo config.read.2.tape := by
  rw [Config.read]
  split
  · exact .write ..
  · split
    · exact .write ..
    · exact .refl _
  · split
    · exact .write ..
    all_goals exact .refl _

theorem Simple.grows_run (op : Simple) (config : Config) :
    config.tape.GrowsTo (op.run config).2.tape := by
  cases op with
  | increment | decrement => exact .write ..
  | left => exact .moveLeft _
  | right => exact .moveRight _
  | output => exact .refl _
  | input => exact config.grows_read

namespace Machine

theorem grows_step (machine : Machine) (stream : ByteStream) :
    machine.tape.GrowsTo (machine.step stream).machine.tape := by
  rcases next : machine.peek with _ | op
  · rw [step_end next]
    exact .refl _
  rcases op.bracket_or_simple with isBracket | ⟨plain, rfl⟩
  · rw [step_bracket next isBracket]
    cases machine.code.partner? machine.position <;> exact .refl _
  · rw [step_simple next]
    exact plain.grows_run (machine.config stream)

theorem grows_after (machine : Machine) (stream : ByteStream) (steps : Nat) :
    (machine.after stream steps).1.tape.GrowsTo (machine.after stream (steps + 1)).1.tape :=
  grows_step _ _

theorem size_after_le (machine : Machine) (stream : ByteStream) {fewer steps : Nat}
    (bound : fewer ≤ steps) :
    (machine.after stream fewer).1.tape.size ≤ (machine.after stream steps).1.tape.size := by
  induction bound with
  | refl => exact Nat.le_refl _
  | @step steps _ ih =>
    have grown := machine.grows_after stream steps
    exact Nat.le_trans ih (grown ▸ Nat.le_max_left _ _)

/-- The tape ends with the highest cell that the cursor has been on. -/
theorem size_after {machine : Machine} (blank : machine.tape = .blank) (stream : ByteStream)
    (steps : Nat) :
    ∃ peak ≤ steps,
      (machine.after stream steps).1.tape.size = 1 + (machine.after stream peak).1.tape.cursor ∧
      ∀ earlier ≤ steps, (machine.after stream earlier).1.tape.cursor ≤
        (machine.after stream peak).1.tape.cursor := by
  induction steps with
  | zero =>
    refine ⟨0, Nat.le_refl 0, ?_, ?_⟩
    · rw [after, blank]
      rfl
    · intro earlier bound
      obtain rfl := Nat.le_zero.mp bound
      exact Nat.le_refl _
  | succ steps ih =>
    obtain ⟨peak, bound, size, highest⟩ := ih
    have grown : (machine.after stream (steps + 1)).1.tape.size =
        max (machine.after stream steps).1.tape.size
          ((machine.after stream (steps + 1)).1.tape.cursor + 1) := machine.grows_after stream steps
    rcases Nat.le_total (machine.after stream (steps + 1)).1.tape.cursor
      (machine.after stream peak).1.tape.cursor with below | above
    · refine ⟨peak, by omega, by omega, ?_⟩
      intro earlier within
      rcases Nat.le_succ_iff.mp within with old | rfl
      · exact highest earlier old
      · exact below
    · refine ⟨steps + 1, Nat.le_refl _, by omega, ?_⟩
      intro earlier within
      rcases Nat.le_succ_iff.mp within with old | rfl
      · exact Nat.le_trans (highest earlier old) above
      · exact Nat.le_refl _

end Machine

/-- A step that executes nothing leaves the position where it is. -/
theorem Machine.position_after_le {machine : Machine} (bound : machine.position ≤ machine.code.size)
    (stream : ByteStream) (steps : Nat) :
    (machine.after stream steps).1.code = machine.code ∧
      (machine.after stream steps).1.position ≤ machine.code.size := by
  induction steps with
  | zero => exact ⟨rfl, bound⟩
  | succ steps ih =>
    obtain ⟨sameCode, within⟩ := ih
    simp only [after]
    rcases result : (machine.after stream steps).1.step (machine.after stream steps).2 with
      ⟨outcome, later, left⟩
    cases outcome with
    | ran op =>
      have path := Path.single result
      have inside := path.position_le (sameCode ▸ within)
      exact ⟨path.code.trans sameCode, sameCode ▸ inside⟩
    | ended | waiting | failed error =>
      obtain rfl := eq_of_rests result rfl
      exact ⟨sameCode, within⟩

/-- The growing tape is an endless tape of zeros. After any number of steps of any program the two
machines are the same in every cell and in everything else, and their next steps have the same outcome.
The tape has exactly the cells up to the highest one that the cursor has been on, and never fewer than
before. -/
theorem mirrors_endless_machine (program : Program) (stream : ByteStream) (steps : Nat) :
    let (machine, left) := program.machine.after stream steps
    let (endless, endlessLeft) := (EndlessMachine.load program).after stream steps
    machine.Mirrors endless ∧ endlessLeft = left ∧
      (endless.step endlessLeft).1 = (machine.step left).outcome ∧
      (∃ peak ≤ steps,
        machine.tape.size = 1 + (program.machine.after stream peak).1.tape.cursor ∧
        ∀ earlier ≤ steps, (program.machine.after stream earlier).1.tape.cursor ≤
          (program.machine.after stream peak).1.tape.cursor) ∧
      machine.tape.cursor < machine.tape.size ∧
      (∀ value ∈ machine.tape.values, value ≤ 255) ∧
      machine.position ≤ (Code.ofBytes program.code).size ∧
      ∀ earlier ≤ steps,
        (program.machine.after stream earlier).1.tape.size ≤ machine.tape.size := by
  obtain ⟨mirrors, left⟩ := (Machine.Mirrors.load program).after stream steps
  refine ⟨mirrors, left, ?_, Machine.size_after rfl stream steps, Tape.cursor_lt _, ?_, ?_, ?_⟩
  · rw [left]
    exact (mirrors.step _).outcome
  · intro value member
    obtain ⟨cell, -, rfl⟩ := List.mem_map.mp member
    exact Nat.le_of_lt_succ cell.toNat_lt
  · exact (Machine.position_after_le (Nat.zero_le _) stream steps).2
  · intro earlier bound
    exact program.machine.size_after_le stream bound

end TapeMachine
