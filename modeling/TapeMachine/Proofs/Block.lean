import TapeMachine.Machine
import TapeMachine.Proofs.BracketTable

namespace TapeMachine

inductive Simple where
  | increment
  | decrement
  | left
  | right
  | output
  | input
  deriving DecidableEq, Repr

def Simple.instruction : Simple → Instruction
  | increment => .increment
  | decrement => .decrement
  | left => .left
  | right => .right
  | output => .output
  | input => .input

/-- Structured code, without positions or jumps: a syntax tree, read from its first statement on. -/
inductive Block where
  | done
  | simple (op : Simple) (rest : Block)
  | loop (body rest : Block)
  deriving DecidableEq, Repr

namespace Block

/-- The instructions of a block, each loop between two brackets. -/
def flatten : Block → List Instruction
  | done => []
  | simple op rest => op.instruction :: rest.flatten
  | loop body rest => .loopStart :: (body.flatten ++ .loopEnd :: rest.flatten)

def append : Block → Block → Block
  | done, second => second
  | simple op rest, second => simple op (rest.append second)
  | loop body rest, second => loop body (rest.append second)

@[simp] theorem flatten_append (first second : Block) :
    (first.append second).flatten = first.flatten ++ second.flatten := by
  induction first with
  | done => rfl
  | simple op rest ih => simp [append, flatten, ih]
  | loop body rest _ ih => simp [append, flatten, ih]

/-- The brackets of a sequence of instructions, place by place. -/
def brackets (ops : List Instruction) : List (Option Bracket) := ops.map Instruction.bracket?

theorem bracket?_simple (op : Simple) : op.instruction.bracket? = none := by cases op <;> rfl

theorem balanced_flatten (block : Block) : Pairing.Balanced (brackets block.flatten) := by
  induction block with
  | done => exact .nil
  | simple op rest ih =>
    rw [flatten, brackets, List.map_cons, bracket?_simple]
    exact .plain ih
  | loop body rest ihBody ihRest =>
    rw [flatten, brackets, List.map_cons, List.map_append, List.map_cons]
    exact .nest ihBody ihRest

theorem exists_simple {op : Instruction} (plain : op.bracket? = none) :
    ∃ statement : Simple, statement.instruction = op := by
  cases op with
  | increment => exact ⟨.increment, rfl⟩
  | decrement => exact ⟨.decrement, rfl⟩
  | left => exact ⟨.left, rfl⟩
  | right => exact ⟨.right, rfl⟩
  | output => exact ⟨.output, rfl⟩
  | input => exact ⟨.input, rfl⟩
  | loopStart | loopEnd => simp [Instruction.bracket?] at plain

theorem eq_loopStart {op : Instruction} (opens : op.bracket? = some .opening) :
    op = .loopStart := by cases op <;> simp_all [Instruction.bracket?]

theorem eq_loopEnd {op : Instruction} (closes : op.bracket? = some .closing) :
    op = .loopEnd := by cases op <;> simp_all [Instruction.bracket?]

/-- Every balanced sequence of instructions is a block written out. -/
theorem exists_flatten {places : List (Option Bracket)} (balanced : Pairing.Balanced places)
    {ops : List Instruction} (same : brackets ops = places) : ∃ block : Block, block.flatten = ops := by
  induction balanced generalizing ops with
  | nil => exact ⟨done, (List.map_eq_nil_iff.mp same).symm⟩
  | plain _ ih =>
    obtain ⟨op, rest, rfl, plain, sameRest⟩ := List.map_eq_cons_iff.mp same
    obtain ⟨statement, rfl⟩ := exists_simple plain
    obtain ⟨block, rfl⟩ := ih sameRest
    exact ⟨simple statement block, rfl⟩
  | nest _ _ ihInner ihRest =>
    obtain ⟨first, tail, rfl, opens, sameTail⟩ := List.map_eq_cons_iff.mp same
    obtain ⟨inner, tail, rfl, sameInner, sameTail⟩ := List.map_eq_append_iff.mp sameTail
    obtain ⟨last, rest, rfl, closes, sameRest⟩ := List.map_eq_cons_iff.mp sameTail
    obtain ⟨body, rfl⟩ := ihInner sameInner
    obtain ⟨block, rfl⟩ := ihRest sameRest
    exact ⟨loop body block, by rw [flatten, eq_loopStart opens, eq_loopEnd closes]⟩

/-- A block can be read back from its instructions. -/
theorem flatten_injective {block block' : Block} (same : block.flatten = block'.flatten) :
    block = block' := by
  induction block generalizing block' with
  | done => cases block' <;> simp [flatten] at same ⊢
  | simple op rest ih =>
    cases block' with
    | done => simp [flatten] at same
    | simple op' rest' =>
      obtain ⟨sameOp, sameRest⟩ := List.cons_eq_cons.mp same
      rw [ih sameRest]
      cases op <;> cases op' <;> simp_all [Simple.instruction]
    | loop => cases op <;> simp [flatten, Simple.instruction] at same
  | loop body rest ihBody ihRest =>
    cases block' with
    | done => simp [flatten] at same
    | simple op' => cases op' <;> simp [flatten, Simple.instruction] at same
    | loop body' rest' =>
      have tails := (List.cons_eq_cons.mp same).2
      have marked := congrArg brackets tails
      simp only [brackets, List.map_append, List.map_cons] at marked
      have sameBrackets := body.balanced_flatten.closing_unique body'.balanced_flatten marked
      have sameLength : body.flatten.length = body'.flatten.length := by
        simpa [brackets] using congrArg List.length sameBrackets
      obtain ⟨sameBody, sameRest⟩ := List.append_inj tails sameLength
      rw [ihBody sameBody, ihRest (List.cons_eq_cons.mp sameRest).2]

end Block

/-- What evaluation works on: everything in a machine but its code and its position. -/
structure Config where
  tape : Tape
  input : List UInt8
  fallback : Option Int
  output : Array UInt8
  stream : ByteStream

/-- How evaluation comes to rest: at the end, or at a read that fails or finds nothing yet. -/
inductive Verdict where
  | finished
  | failed (error : StepError)
  | waiting
  deriving DecidableEq, Repr

namespace Config

/-- A blank tape and no output. -/
def fresh (input : List UInt8) (fallback : Option Int) (stream : ByteStream) : Config :=
  ⟨.blank, input, fallback, #[], stream⟩

/-- Reads a byte into the cell under the cursor: from the queue, else the fallback byte, else from
the stream. -/
def read (config : Config) : Verdict × Config :=
  match config.input, config.fallback with
  | byte :: input, _ => (.finished, { config with tape := config.tape.write byte, input := input })
  | [], some value =>
    match Cell.ofInt? value with
    | some byte => (.finished, { config with tape := config.tape.write byte })
    | none => (.failed (.cellRange value), config)
  | [], none =>
    match config.stream.read with
    | .byte byte rest => (.finished, { config with tape := config.tape.write byte, stream := rest })
    | .fault fault rest => (.failed (.ofFault fault), { config with stream := rest })
    | .endOfStream => (.failed .endOfInput, config)
    | .waiting => (.waiting, config)

end Config

/-- What a simple instruction does. -/
def Simple.run (config : Config) : Simple → Verdict × Config
  | increment => (.finished, { config with tape := config.tape.update Cell.increment })
  | decrement => (.finished, { config with tape := config.tape.update Cell.decrement })
  | left => (.finished, { config with tape := config.tape.moveLeft })
  | right => (.finished, { config with tape := config.tape.moveRight })
  | output => (.finished, { config with output := config.output.push config.tape.current })
  | input => config.read

/-- Evaluation of a block. A loop evaluates its body as long as the cell under the cursor is not
zero; a block that does not come to rest evaluates to nothing. -/
inductive Evaluates : Block → Config → Verdict → Config → Prop
  | done (config : Config) : Evaluates .done config .finished config
  | simple {op : Simple} {rest : Block} {config now final : Config} {verdict : Verdict} :
      op.run config = (.finished, now) → Evaluates rest now verdict final →
      Evaluates (.simple op rest) config verdict final
  | stuck {op : Simple} {rest : Block} {config final : Config} {verdict : Verdict} :
      op.run config = (verdict, final) → verdict ≠ .finished →
      Evaluates (.simple op rest) config verdict final
  | leave {body rest : Block} {config final : Config} {verdict : Verdict} :
      config.tape.current = 0 → Evaluates rest config verdict final →
      Evaluates (.loop body rest) config verdict final
  | again {body rest : Block} {config now final : Config} {verdict : Verdict} :
      config.tape.current ≠ 0 → Evaluates body config .finished now →
      Evaluates (.loop body rest) now verdict final →
      Evaluates (.loop body rest) config verdict final
  | inside {body rest : Block} {config final : Config} {verdict : Verdict} :
      config.tape.current ≠ 0 → Evaluates body config verdict final → verdict ≠ .finished →
      Evaluates (.loop body rest) config verdict final

/-- Only reads come to rest before the end, so no block ends at a bracket. -/
theorem Evaluates.not_mismatched {block : Block} {config final : Config} {verdict : Verdict}
    (evaluates : Evaluates block config verdict final) :
    verdict ≠ .failed .mismatchedBrackets := by
  induction evaluates with
  | done => simp
  | simple _ _ ih | leave _ _ ih | again _ _ _ _ ih | inside _ _ _ ih => exact ih
  | @stuck op _ config final verdict run unfinished =>
    rintro rfl
    cases op <;> simp only [Simple.run, Prod.mk.injEq, reduceCtorEq, false_and] at run
    unfold Config.read at run
    split at run
    · simp at run
    · split at run <;> simp at run
    · split at run <;> simp at run
      rename_i fault _ _
      cases fault <;> simp [StepError.ofFault] at run

theorem Evaluates.append {first second : Block} {config now final : Config} {verdict : Verdict}
    (head : Evaluates first config .finished now) (tail : Evaluates second now verdict final) :
    Evaluates (first.append second) config verdict final := by
  generalize ends : Verdict.finished = outcome at head
  induction head with
  | done => exact tail
  | simple run _ ih => exact .simple run (ih tail ends)
  | stuck _ unfinished | inside _ _ unfinished => exact absurd ends.symm unfinished
  | leave zero _ ih => exact .leave zero (ih tail ends)
  | again nonzero body _ _ ih => exact .again nonzero body (ih tail ends)

end TapeMachine
