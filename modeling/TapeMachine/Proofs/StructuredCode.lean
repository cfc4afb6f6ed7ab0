import TapeMachine.Proofs.BlockRun

namespace TapeMachine

/-- The part of a machine that evaluation works on. -/
def Machine.config (machine : Machine) (stream : ByteStream) : Config :=
  ⟨machine.tape, machine.input, machine.fallback, machine.output, stream⟩

/-- The configuration in which a run came to rest. -/
def RunResult.config (result : RunResult) : Config := result.machine.config result.stream

def Verdict.runEnd : Verdict → RunEnd
  | finished => .ended
  | failed error => .failed error
  | waiting => .waiting

theorem Verdict.runEnd_injective {verdict verdict' : Verdict}
    (same : verdict.runEnd = verdict'.runEnd) : verdict = verdict' := by
  cases verdict <;> cases verdict' <;> simp_all [runEnd]

theorem Verdict.runEnd_ne_exhausted (verdict : Verdict) : verdict.runEnd ≠ .exhausted := by
  cases verdict <;> simp [runEnd]

def Block.source (block : Block) : List UInt8 := block.flatten.map Instruction.byte

theorem Block.instructions_source (block : Block) :
    (Code.ofBytes block.source).instructions.toList = block.flatten := by
  rw [Code.ofBytes, Block.source, Instruction.ofBytes_byte]
  rfl

/-- The code of a block, with nothing before or after it. -/
theorem Block.holds_source (block : Block) : (Code.ofBytes block.source).Holds 0 block.flatten :=
  ⟨[], [], by rw [instructions_source, List.append_nil, List.nil_append], rfl⟩

theorem Config.step_end {code : Code} (config : Config) :
    (config.machine code code.size).step config.stream =
      ⟨.ended, config.machine code code.size, config.stream⟩ := by
  have next : (config.machine code code.size).peek = none := by
    simp [Machine.peek, Config.machine, Code.size]
  simp only [Machine.step, next]

/-- The machine that runs the code of a block comes to rest as the evaluation says. -/
theorem Evaluates.rests {block : Block} {config final : Config} {verdict : Verdict}
    (evaluates : Evaluates block config verdict final) :
    ∃ trail last rest outcome later left,
      Path (config.machine (.ofBytes block.source) 0) config.stream trail last rest ∧
      last.step rest = ⟨outcome, later, left⟩ ∧ outcome.rest? = some verdict.runEnd ∧
      later.config left = final := by
  have size : (Code.ofBytes block.source).size = 0 + block.flatten.length := by
    rw [Code.size, ← Array.length_toList, block.instructions_source, Nat.zero_add]
  obtain ⟨trail, now, place, path, ends⟩ := evaluates.agrees block.holds_source
  rw [← size] at ends
  cases verdict with
  | finished =>
    obtain ⟨rfl, rfl⟩ := ends
    exact ⟨trail, _, _, _, _, _, path, now.step_end, rfl, rfl⟩
  | failed error | waiting => exact ⟨trail, _, _, _, _, _, path, ends, rfl, rfl⟩

theorem Block.run_iff (block : Block) (config final : Config) (verdict : Verdict) :
    (∃ budget, ((config.machine (.ofBytes block.source) 0).run budget config.stream).finish =
        verdict.runEnd ∧
      ((config.machine (.ofBytes block.source) 0).run budget config.stream).config = final) ↔
      Evaluates block config verdict final := by
  constructor
  · rintro ⟨budget, finish, rfl⟩
    rcases result : (config.machine (.ofBytes block.source) 0).run budget config.stream with
      ⟨later, left, steps, ends⟩
    rw [result] at finish
    dsimp only at finish
    subst finish
    obtain ⟨trail, last, rest, outcome, path, step, atRest⟩ :=
      (Machine.run_finish_iff verdict.runEnd_ne_exhausted).mp ⟨budget, steps, result⟩
    obtain ⟨verdict', final', evaluates, -⟩ := block.exists_evaluates block.holds_source
      ⟨trail, last, rest, path, rfl, by simp [step, atRest]⟩
    obtain ⟨trail', last', rest', outcome', later', left', path', step', atRest', rfl⟩ :=
      evaluates.rests
    obtain ⟨-, rfl, rfl⟩ := path.rest_unique step atRest path' step' atRest'
    obtain ⟨rfl, rfl, rfl⟩ := StepResult.mk.inj (step.symm.trans step')
    rw [atRest] at atRest'
    obtain rfl := Verdict.runEnd_injective (Option.some.inj atRest')
    exact evaluates
  · intro evaluates
    obtain ⟨trail, last, rest, outcome, later, left, path, step, atRest, rfl⟩ := evaluates.rests
    refine ⟨trail.length + 1, ?_⟩
    rw [path.run_rest step atRest (Nat.lt_succ_self _)]
    exact ⟨rfl, rfl⟩

/-- A block evaluates to nothing exactly if its run uses up every budget. -/
theorem Block.runs_forever_iff (block : Block) (config : Config) :
    (∀ budget, ((config.machine (.ofBytes block.source) 0).run budget config.stream).finish =
      .exhausted) ↔ ¬ ∃ verdict final, Evaluates block config verdict final := by
  constructor
  · rintro forever ⟨verdict, final, evaluates⟩
    obtain ⟨budget, finish, -⟩ := (block.run_iff config final verdict).mpr evaluates
    exact verdict.runEnd_ne_exhausted (finish.symm.trans (forever budget))
  · intro nothing budget
    rcases ends : ((config.machine (.ofBytes block.source) 0).run budget config.stream).finish with
      _ | error | _ | _
    · exact absurd ⟨.finished, _, (block.run_iff config _ .finished).mp ⟨budget, ends, rfl⟩⟩ nothing
    · exact absurd ⟨.failed error, _, (block.run_iff config _ (.failed error)).mp ⟨budget, ends, rfl⟩⟩
        nothing
    · exact absurd ⟨.waiting, _, (block.run_iff config _ .waiting).mp ⟨budget, ends, rfl⟩⟩ nothing
    · rfl

def Code.Matched (code : Code) : Prop :=
  ∀ position op, code.instructions[position]? = some op → op.bracket?.isSome →
    (code.partner? position).isSome

theorem Code.matched_iff_balanced (code : Code) :
    code.Matched ↔ Pairing.Balanced (Block.brackets code.instructions.toList) := by
  have place : ∀ position : Nat, (Block.brackets code.instructions.toList)[position]? =
      code.instructions[position]?.map Instruction.bracket? := by simp [Block.brackets]
  constructor
  · intro matched
    apply Pairing.Complete.balanced
    intro position bracket here
    rw [place] at here
    obtain ⟨op, atOp, isBracket⟩ := Option.map_eq_some_iff.mp here
    obtain ⟨partner, found⟩ := Option.isSome_iff_exists.mp
      (matched position op atOp (by simp [isBracket]))
    exact ⟨partner, Code.partner?_eq_some_iff.mp found⟩
  · intro balanced position op atOp isBracket
    obtain ⟨bracket, same⟩ := Option.isSome_iff_exists.mp isBracket
    obtain ⟨partner, pair⟩ := balanced.complete position bracket (by rw [place, atOp, Option.map_some, same])
    exact Option.isSome_iff_exists.mpr ⟨partner, Code.partner?_eq_some_iff.mpr pair⟩

/-- The brackets of a source all have partners exactly if it spells a block, and it spells one
block only. -/
theorem Code.matched_iff_existsUnique (source : List UInt8) :
    (Code.ofBytes source).Matched ↔
      ∃! block : Block, block.flatten = Instruction.ofBytes source := by
  rw [Code.matched_iff_balanced]
  constructor
  · intro balanced
    obtain ⟨block, same⟩ := Block.exists_flatten balanced rfl
    exact ⟨block, same, fun other same' => Block.flatten_injective (same'.trans same.symm)⟩
  · rintro ⟨block, same, -⟩
    have balanced := block.balanced_flatten
    rwa [same] at balanced

/-- Running the code of a block by steps is evaluating the block. Both come to rest in the same way
and in the same configuration, or both never do; a bracket is never where they come to rest. And
every code whose brackets all have partners is the code of exactly one block. -/
theorem run_iff_evaluates :
    (∀ (block : Block) (input : List UInt8) (fallback : Option Int) (stream : ByteStream),
      let result := fun budget =>
        (Machine.load (.ofBytes block.source) input fallback).run budget stream
      let start := Config.fresh input fallback stream
      (∀ verdict final,
        (∃ budget, (result budget).finish = verdict.runEnd ∧ (result budget).config = final) ↔
          Evaluates block start verdict final) ∧
      ((∀ budget, (result budget).finish = .exhausted) ↔
        ¬ ∃ verdict final, Evaluates block start verdict final) ∧
      ∀ budget, (result budget).finish ≠ .failed .mismatchedBrackets) ∧
    ∀ source : List UInt8, (Code.ofBytes source).Matched ↔
      ∃! block : Block, block.flatten = Instruction.ofBytes source := by
  refine ⟨fun block input fallback stream => ?_, Code.matched_iff_existsUnique⟩
  refine ⟨fun verdict final => block.run_iff (.fresh input fallback stream) final verdict,
    block.runs_forever_iff (.fresh input fallback stream), fun budget mismatched => ?_⟩
  have evaluates := (block.run_iff (.fresh input fallback stream) _
    (.failed .mismatchedBrackets)).mp ⟨budget, mismatched, rfl⟩
  exact evaluates.not_mismatched rfl

end TapeMachine
