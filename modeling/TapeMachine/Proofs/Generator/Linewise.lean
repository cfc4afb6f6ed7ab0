import TapeMachine.Proofs.Generator.Printing
import TapeMachine.Proofs.Lines

namespace TapeMachine

namespace Generator

/-- The block prints a text from a fresh cell on, and comes to a fresh cell behind it. -/
def PrintsAnywhere (block : Block) (text : List UInt8) : Prop :=
  ∀ before : List Cell, ∃ before' : List Cell,
    block.Turns (.around before 0 []) (.around before' 0 []) text

theorem PrintsAnywhere.append {first second : Block} {text more : List UInt8}
    (head : PrintsAnywhere first text) (tail : PrintsAnywhere second more) :
    PrintsAnywhere (first.append second) (text ++ more) := by
  intro before
  obtain ⟨between, turns⟩ := head before
  obtain ⟨after, onward⟩ := tail between
  exact ⟨after, turns.append onward⟩

theorem printsAnywhere_done : PrintsAnywhere .done [] := fun before => ⟨before, Block.turns_done _⟩

theorem printsAnywhere_charwiseBlock (data : List UInt8) : PrintsAnywhere (charwiseBlock data) data :=
  fun before => ⟨before ++ 0 :: data, turns_charwiseBlock_around data before⟩

def lineFeedBlock : Block := (Block.adjust 10).append (.simple .output (.simple .right .done))

theorem printsAnywhere_lineFeedBlock : PrintsAnywhere lineFeedBlock [Lines.lineFeed] := by
  intro before
  have fill := Block.turns_adjust 10 before [] 0
  have print := Block.turns_output (.around before Lines.lineFeed [])
  have onward := Block.turns_right (.around before Lines.lineFeed [])
  rw [Tape.moveRight_around] at onward
  rw [Tape.current_around] at print
  exact ⟨before ++ [Lines.lineFeed], fill.append (print.append onward)⟩

def returnLineFeedBlock : Block :=
  (Block.adjust 13).append (.simple .output
    ((Block.adjust (-3)).append (.simple .output (.simple .right .done))))

theorem printsAnywhere_returnLineFeedBlock :
    PrintsAnywhere returnLineFeedBlock [Lines.carriageReturn, Lines.lineFeed] := by
  intro before
  have fill := Block.turns_adjust 13 before [] 0
  have printReturn := Block.turns_output (.around before Lines.carriageReturn [])
  have change := Block.turns_adjust (-3) before [] Lines.carriageReturn
  have printFeed := Block.turns_output (.around before Lines.lineFeed [])
  have onward := Block.turns_right (.around before Lines.lineFeed [])
  rw [Tape.moveRight_around] at onward
  rw [Tape.current_around] at printReturn printFeed
  exact ⟨before ++ [Lines.lineFeed],
    fill.append (printReturn.append (change.append (printFeed.append onward)))⟩

/-- Lines with an end behind each, and something else behind them. -/
def linesBlock (ending final : Block) : List (List UInt8) → Block
  | [] => final
  | line :: lines => (charwiseBlock line).append (ending.append (linesBlock ending final lines))

theorem flatten_linesBlock (ending final : Block) (lines : List (List UInt8)) :
    (linesBlock ending final lines).flatten =
      ending.flatten.intercalate (lines.map charwise ++ [final.flatten]) := by
  induction lines with
  | nil => simp [linesBlock]
  | cons line lines ih =>
    rw [linesBlock, Block.flatten_append, Block.flatten_append, flatten_charwiseBlock, ih,
      List.map_cons, List.cons_append, List.intercalate_cons_of_ne_nil (by simp), List.append_assoc]

theorem printsAnywhere_linesBlock {ending final : Block} {eol text : List UInt8}
    (ends : PrintsAnywhere ending eol) (finishes : PrintsAnywhere final text)
    (lines : List (List UInt8)) :
    PrintsAnywhere (linesBlock ending final lines) (eol.intercalate (lines ++ [text])) := by
  induction lines with
  | nil => simpa [linesBlock] using finishes
  | cons line lines ih =>
    rw [List.cons_append, List.intercalate_cons_of_ne_nil (by simp), List.append_assoc]
    exact (printsAnywhere_charwiseBlock line).append (ends.append ih)

/-- A linewise program is a block of lines with an end behind each, and perhaps one line more. -/
theorem exists_linewiseBlock (data : List UInt8) :
    ∃ block : Block, block.flatten = linewise data ∧ PrintsAnywhere block (Lines.unified data) := by
  obtain ⟨ended, last, parts⟩ := Lines.exists_parts data
  obtain ⟨ending, code, ends⟩ : ∃ ending : Block,
      ending.flatten = (if Lines.hasReturns data then returnLineFeed else lineFeed) ∧
      PrintsAnywhere ending (Lines.ending data) := by
    have occurs := Lines.hasReturns_iff data
    by_cases returns : Lines.hasReturns data
    · rw [if_pos returns, Lines.ending, if_pos (occurs.mp returns)]
      exact ⟨returnLineFeedBlock, rfl, printsAnywhere_returnLineFeedBlock⟩
    · rw [if_neg returns, Lines.ending, if_neg (fun found => returns (occurs.mpr found))]
      exact ⟨lineFeedBlock, rfl, printsAnywhere_lineFeedBlock⟩
  obtain ⟨final, finalCode, finishes⟩ : ∃ final : Block,
      final.flatten = (if last = [] then [] else charwise (Lines.stripReturn last)) ∧
      PrintsAnywhere final (if last = [] then [] else Lines.stripReturn last) := by
    by_cases empty : last = []
    · rw [if_pos empty, if_pos empty]
      exact ⟨.done, rfl, printsAnywhere_done⟩
    · rw [if_neg empty, if_neg empty]
      exact ⟨_, flatten_charwiseBlock _, printsAnywhere_charwiseBlock _⟩
  refine ⟨linesBlock ending final (ended.map Lines.stripReturn), ?_, ?_⟩
  · have whole := parts.intercalate_lines ending.flatten (fun line => charwise (Lines.stripReturn line))
    rw [flatten_linesBlock, finalCode, List.map_map]
    refine Eq.trans whole.symm ?_
    simp only [linewise, Lines.ofBytes, Lines.isEnded, Lines.segments_eq_splitOn, parts.splitOn,
      List.map_map, decide_eq_true_eq, ← code]
    rfl
  · rw [parts.unified]
    exact printsAnywhere_linesBlock ends finishes _

/-- A linewise program comes to its end without reading anything and prints its text with the line
ends made the same. That is the text itself exactly if its line feeds all come behind carriage
returns or none does, and what stands behind the last one does not end with a carriage return. -/
theorem linewise_prints (data : List UInt8) :
    (∃ tape : Tape, Prints (Utf8.encode (program .linewise false data)) (Lines.unified data) tape) ∧
    (Lines.unified data = data ↔
      ((∀ before after, data = before ++ Lines.lineFeed :: after →
          before.getLast? = some Lines.carriageReturn) ∨
        (∀ before after, data = before ++ Lines.lineFeed :: after →
          before.getLast? ≠ some Lines.carriageReturn)) ∧
      (data.rtakeWhile (· ≠ Lines.lineFeed)).getLast? ≠ some Lines.carriageReturn) := by
  refine ⟨?_, Lines.unified_eq_iff data⟩
  obtain ⟨block, same, everywhere⟩ := exists_linewiseBlock data
  obtain ⟨cells, turns⟩ := everywhere []
  exact ⟨_, .of_turns same turns⟩

end Generator

end TapeMachine
