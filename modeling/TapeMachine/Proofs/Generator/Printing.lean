import TapeMachine.Proofs.Generator.Filling
import TapeMachine.Proofs.StructuredCode

namespace TapeMachine

/-- A block that turns a blank tape into another one is a program that ends with it. -/
theorem Block.Turns.run {block : Block} {tape : Tape} {printed : List UInt8}
    (turns : block.Turns .blank tape printed) (input : List UInt8) (fallback : Option Int)
    (stream : ByteStream) :
    ∃ budget, ((Machine.load (.ofBytes block.source) input fallback).run budget stream).finish =
        .ended ∧
      ((Machine.load (.ofBytes block.source) input fallback).run budget stream).config =
        ⟨tape, input, fallback, printed.toArray, stream⟩ := by
  have evaluates := turns input fallback #[] stream
  rw [Array.empty_append] at evaluates
  exact (block.run_iff (.fresh input fallback stream) _ .finished).mpr evaluates

namespace Generator

theorem encode_char (op : Instruction) : String.utf8EncodeChar op.char = [op.byte] := by
  cases op <;> rfl

theorem encode_instructions (ops : List Instruction) :
    (ops.map Instruction.char).flatMap String.utf8EncodeChar = ops.map Instruction.byte := by
  simp only [List.flatMap_map, encode_char]
  exact List.map_eq_flatMap.symm

/-- The source of a generated program holds its instructions, with one comment behind them. -/
theorem ofBytes_program (layout : Layout) (newline : Bool) (data : List UInt8) :
    Instruction.ofBytes (Utf8.encode (program layout newline data)) =
      instructions layout (withLineFeed newline data) := by
  have comment : Instruction.ofBytes (String.utf8EncodeChar '\n') = [] := rfl
  rw [program, Utf8.encode, String.toList_push, Instruction.text, String.toList_ofList,
    List.flatMap_append, encode_instructions, List.flatMap_singleton, Instruction.ofBytes,
    List.filterMap_append, ← Instruction.ofBytes, ← Instruction.ofBytes, comment,
    Instruction.ofBytes_byte, List.append_nil]

theorem code_program {layout : Layout} {newline : Bool} {data : List UInt8} {block : Block}
    (same : block.flatten = instructions layout (withLineFeed newline data)) :
    Code.ofBytes (Utf8.encode (program layout newline data)) = .ofBytes block.source := by
  rw [Code.ofBytes, Code.ofBytes, ofBytes_program, Block.source, Instruction.ofBytes_byte, same]

theorem values_bound (data : List UInt8) : ∀ value ∈ values data, -5 ≤ value := by
  intro value member
  obtain ⟨byte, -, rfl⟩ := List.mem_map.mp member
  omega

def charwiseBlock (data : List UInt8) : Block := (filling (values data)).append (printed data.length)

theorem flatten_charwiseBlock (data : List UInt8) : (charwiseBlock data).flatten = charwise data := by
  have length : data.length = (values data).length := by simp [values]
  rw [charwiseBlock, Block.flatten_append, flatten_filling (values_bound data), length,
    flatten_printed, charwise]
  simp [loop, loopPieces]

/-- From a fresh cell on, wherever that is. -/
theorem turns_charwiseBlock_around (data : List UInt8) (before : List Cell) :
    (charwiseBlock data).Turns (.around before 0 []) (.around (before ++ 0 :: data) 0 []) data := by
  have fill := turns_filling (values data) before []
  have print := turns_printed data [] before 0
  rw [raised_values] at fill
  rw [List.append_nil, List.headD_nil, List.tail_nil] at print
  exact fill.append print

theorem turns_charwiseBlock (data : List UInt8) :
    (charwiseBlock data).Turns .blank (.around (0 :: data) 0 []) data :=
  turns_charwiseBlock_around data []

theorem mem_distinct {data : List UInt8} {byte : UInt8} : byte ∈ distinct data ↔ byte ∈ data := by
  have bound := byte.toNat_lt
  simp only [distinct, List.mem_filter, List.mem_map, List.mem_range, List.contains_iff_mem,
    and_iff_right_iff_imp]
  exact fun _ => ⟨byte.toNat, by omega, by simp⟩

theorem distinct_sorted (data : List UInt8) : (distinct data).Pairwise (· < ·) := by
  apply List.Pairwise.filter
  rw [List.pairwise_map]
  apply List.pairwise_lt_range.imp_of_mem
  intro first second firstMember secondMember less
  rw [List.mem_range] at firstMember secondMember
  rw [UInt8.lt_iff_toNat_lt, UInt8.toNat_ofNat', UInt8.toNat_ofNat']
  omega

theorem distinct_eq_nil_iff {data : List UInt8} : distinct data = [] ↔ data = [] := by
  simp only [List.eq_nil_iff_forall_not_mem, mem_distinct]

/-- Moves the cursor by a signed number of cells. -/
def moveBlock (amount : Int) : Block :=
  Block.repeated (if amount < 0 then .left else .right) amount.natAbs

theorem flatten_moveBlock (amount : Int) : (moveBlock amount).flatten = move amount := by
  rw [moveBlock, Block.flatten_repeated, move, times, Int.toNat_natCast]
  split_ifs <;> rfl

theorem iterate_moveRight {cells : Array Cell} {cursor : Nat} (count : Nat)
    (within : cursor + count < cells.size) :
    Tape.moveRight^[count] ⟨cells, cursor, by omega⟩ = ⟨cells, cursor + count, within⟩ := by
  induction count with
  | zero => rfl
  | succ count ih =>
    rw [Function.iterate_succ_apply', ih (by omega)]
    apply Tape.eq_of <;> simp [Tape.moveRight, Nat.add_assoc, within]

theorem iterate_moveLeft {cells : Array Cell} {cursor : Nat} (count : Nat)
    (within : cursor < cells.size) :
    Tape.moveLeft^[count] ⟨cells, cursor, within⟩ = ⟨cells, cursor - count, by omega⟩ := by
  induction count with
  | zero => rfl
  | succ count ih =>
    rw [Function.iterate_succ_apply', ih]
    apply Tape.eq_of <;> simp [Tape.moveLeft, Nat.sub_sub]

theorem turns_moveBlock {cells : Array Cell} {start target : Nat} (begins : start < cells.size)
    (ends : target < cells.size) :
    (moveBlock (target - start)).Turns ⟨cells, start, begins⟩ ⟨cells, target, ends⟩ [] := by
  by_cases leftward : (target : Int) - start < 0
  · have turns := Block.turns_repeated .left Tape.moveLeft (fun _ => rfl)
      ((target : Int) - start).natAbs ⟨cells, start, begins⟩
    have place : start - ((target : Int) - start).natAbs = target := by omega
    rw [iterate_moveLeft] at turns
    simpa only [moveBlock, if_pos leftward, place] using turns
  · have place : start + ((target : Int) - start).natAbs = target := by omega
    have turns := Block.turns_repeated .right Tape.moveRight (fun _ => rfl)
      ((target : Int) - start).natAbs ⟨cells, start, begins⟩
    rw [iterate_moveRight _ (by omega)] at turns
    simpa only [moveBlock, if_neg leftward, place] using turns

/-- Goes from cell to cell and prints each; cell `i + 1` holds the byte at place `i`. -/
def tourBlock (cells : List UInt8) (cursor : Nat) : List UInt8 → Block
  | [] => .done
  | byte :: rest =>
    (moveBlock (((cells.idxOf byte + 1 : Nat) : Int) - cursor)).append
      (.simple .output (tourBlock cells (cells.idxOf byte + 1) rest))

theorem flatten_tourBlock (cells : List UInt8) (cursor : Nat) (data : List UInt8) :
    (tourBlock cells cursor data).flatten = tour cells cursor data := by
  induction data generalizing cursor with
  | nil => rfl
  | cons byte rest ih =>
    simp only [tourBlock, Block.flatten_append, flatten_moveBlock, Block.flatten, ih, tour,
      Simple.instruction]

/-- The place of the last cell that a tour visits. -/
def tourEnd (cells : List UInt8) (cursor : Nat) (data : List UInt8) : Nat :=
  match data.getLast? with
  | none => cursor
  | some byte => cells.idxOf byte + 1

theorem tourEnd_lt {cells : List UInt8} {cursor size : Nat} {data : List UInt8}
    (begins : cursor < size) (enough : cells.length < size) (loaded : ∀ byte ∈ data, byte ∈ cells) :
    tourEnd cells cursor data < size := by
  unfold tourEnd
  split
  · exact begins
  · rename_i byte last
    have place := List.idxOf_lt_length_iff.mpr (loaded byte (List.mem_of_getLast? last))
    omega

theorem tourEnd_cons (cells : List UInt8) (cursor : Nat) (byte : UInt8) (rest : List UInt8) :
    tourEnd cells (cells.idxOf byte + 1) rest = tourEnd cells cursor (byte :: rest) := by
  rcases rest with _ | ⟨next, rest⟩
  · rfl
  · simp only [tourEnd, List.getLast?_cons_cons]
    cases last : (next :: rest).getLast? with
    | none => simp at last
    | some byte => rfl

theorem turns_tourBlock {cells : List UInt8} {loaded : Array Cell}
    (filled : ∀ place < cells.length, loaded[place + 1]? = cells[place]?)
    (enough : cells.length < loaded.size) {data : List UInt8} (known : ∀ byte ∈ data, byte ∈ cells)
    {cursor : Nat} (begins : cursor < loaded.size) :
    (tourBlock cells cursor data).Turns ⟨loaded, cursor, begins⟩
      ⟨loaded, tourEnd cells cursor data, tourEnd_lt begins enough known⟩ data := by
  induction data generalizing cursor with
  | nil => exact Block.turns_done _
  | cons byte rest ih =>
    have place := List.idxOf_lt_length_iff.mpr (known byte List.mem_cons_self)
    have inside : cells.idxOf byte + 1 < loaded.size := by omega
    have there := turns_moveBlock begins inside
    have print := Block.turns_output ⟨loaded, cells.idxOf byte + 1, inside⟩
    have holds : loaded[cells.idxOf byte + 1]? = some byte := by
      rw [filled _ place, List.getElem?_eq_getElem place, List.getElem_idxOf]
    have shown : Tape.current ⟨loaded, cells.idxOf byte + 1, inside⟩ = byte :=
      (Array.getElem?_eq_some_iff.mp holds).2
    have onward := ih (fun other member => known other (List.mem_cons_of_mem _ member)) inside
    rw [shown] at print
    simp only [tourEnd_cons cells cursor] at onward
    exact there.append (print.append onward)

/-- Loads each distinct byte once and goes from cell to cell. -/
def uniqueBlock (data : List UInt8) : Block :=
  (filling (values (distinct data))).append (.simple .right (tourBlock (distinct data) 1 data))

theorem flatten_uniqueBlock (data : List UInt8) : (uniqueBlock data).flatten = uniqueChars data := by
  rw [uniqueBlock, Block.flatten_append, flatten_filling (values_bound _), Block.flatten,
    flatten_tourBlock]
  rfl

/-- What the loop leaves behind its counter, with the cell that the cursor goes to next. -/
def loadedCells (data : List UInt8) : List Cell :=
  if data = [] then [0, 0] else 0 :: distinct data

theorem moveRight_distinct (data : List UInt8) :
    (Tape.around [] 0 (distinct data)).moveRight.cells = (loadedCells data).toArray ∧
      (Tape.around [] 0 (distinct data)).moveRight.cursor = 1 := by
  rw [Tape.moveRight_around, loadedCells]
  refine ⟨?_, rfl⟩
  split_ifs with empty
  · rw [distinct_eq_nil_iff.mpr empty]
    rfl
  · rcases shape : distinct data with _ | ⟨first, rest⟩
    · exact absurd (distinct_eq_nil_iff.mp shape) empty
    · rfl

theorem turns_uniqueBlock (data : List UInt8) :
    ∃ tape : Tape, (uniqueBlock data).Turns .blank tape data ∧
      tape.cells.toList = loadedCells data ∧ tape.cursor = tourEnd (distinct data) 1 data := by
  have fill := turns_filling (values (distinct data)) [] []
  have there := Block.turns_right (.around [] 0 (distinct data))
  obtain ⟨sameCells, sameCursor⟩ := moveRight_distinct data
  rw [raised_values] at fill
  generalize (Tape.around [] 0 (distinct data)).moveRight = moved at there sameCells sameCursor
  obtain ⟨loaded, cursor, begins⟩ := moved
  dsimp only at sameCells sameCursor
  subst sameCells sameCursor
  have filled : ∀ place < (distinct data).length,
      (loadedCells data).toArray[place + 1]? = (distinct data)[place]? := by
    intro place bound
    rw [loadedCells]
    split_ifs with empty
    · rw [distinct_eq_nil_iff.mpr empty] at bound
      simp at bound
    · simp
  have enough : (distinct data).length < (loadedCells data).toArray.size := by
    rw [loadedCells]
    split_ifs with empty
    · simp [distinct_eq_nil_iff.mpr empty]
    · simp
  have tour := turns_tourBlock filled enough (fun byte => mem_distinct.mpr) begins
  exact ⟨_, fill.append (there.append tour), rfl, rfl⟩

/-- Whatever it is given, the source comes to its end without reading anything: the text is
printed, and the tape is left. -/
def Prints (source text : List UInt8) (tape : Tape) : Prop :=
  ∀ (input : List UInt8) (fallback : Option Int) (stream : ByteStream), ∃ budget,
    let result := (Machine.load (.ofBytes source) input fallback).run budget stream
    result.finish = .ended ∧ result.machine.output.toList = text ∧ result.machine.tape = tape ∧
      result.machine.input = input ∧ result.stream = stream

theorem Prints.of_turns {layout : Layout} {newline : Bool} {data text : List UInt8} {block : Block}
    {tape : Tape} (same : block.flatten = instructions layout (withLineFeed newline data))
    (turns : block.Turns .blank tape text) :
    Prints (Utf8.encode (program layout newline data)) text tape := by
  intro input fallback stream
  rw [code_program same]
  obtain ⟨budget, ended, config⟩ := turns.run input fallback stream
  obtain ⟨atTape, atInput, -, atOutput, atStream⟩ := Config.mk.inj config
  exact ⟨budget, ended, by rw [atOutput], atTape, atInput, atStream⟩

/-- A generated program prints its text, with a line feed at its end if that is asked for. A
charwise program leaves the text between two zeros, with the cursor on the second one. A program
with a cell for each distinct byte leaves these bytes in order behind a zero, with the cursor on
the byte that was printed last. -/
theorem program_prints (newline : Bool) (data : List UInt8) :
    let text := if newline = true ∧ data.getLast? ≠ some 0x0A then data ++ [0x0A] else data
    (∃ tape : Tape, Prints (Utf8.encode (program .charwise newline data)) text tape ∧
      tape.cells.toList = 0 :: text ++ [0] ∧ tape.cursor = text.length + 1) ∧
    ∃ (tape : Tape) (cells : List UInt8),
      Prints (Utf8.encode (program .uniqueChars newline data)) text tape ∧
      cells.Pairwise (· < ·) ∧ (∀ byte, byte ∈ cells ↔ byte ∈ text) ∧
      tape.cells.toList = (if text = [] then [0, 0] else 0 :: cells) ∧
      tape.cursor = match text.getLast? with
        | none => 1
        | some byte => cells.idxOf byte + 1 := by
  have same : withLineFeed newline data =
      if newline = true ∧ data.getLast? ≠ some 0x0A then data ++ [0x0A] else data := by
    by_cases ended : data.getLast? = some 0x0A <;>
      simp [withLineFeed, Lines.isEnded, Lines.lineFeed, ended]
  rw [← same]
  generalize text : withLineFeed newline data = shown
  constructor
  · refine ⟨.around (0 :: shown) 0 [], .of_turns ?_ (turns_charwiseBlock shown), by rfl, by rfl⟩
    rw [flatten_charwiseBlock, text]
    rfl
  · obtain ⟨tape, turns, cells, cursor⟩ := turns_uniqueBlock shown
    refine ⟨tape, distinct shown, .of_turns ?_ turns, distinct_sorted shown,
      fun byte => mem_distinct, cells, cursor⟩
    rw [flatten_uniqueBlock, text]
    rfl

end Generator

end TapeMachine
