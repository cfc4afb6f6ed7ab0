import TapeMachine.Proofs.Block
import TapeMachine.Proofs.Path

namespace TapeMachine

namespace Code

/-- The instructions stand in the code from a position on. -/
def Holds (code : Code) (position : Nat) (ops : List Instruction) : Prop :=
  ∃ before after, code.instructions.toList = before ++ (ops ++ after) ∧ before.length = position

theorem Holds.head {code : Code} {position : Nat} {op : Instruction} {ops : List Instruction}
    (holds : code.Holds position (op :: ops)) : code.instructions[position]? = some op := by
  obtain ⟨before, after, split, rfl⟩ := holds
  rw [← Array.getElem?_toList, split]
  simp

theorem Holds.left {code : Code} {position : Nat} {first second : List Instruction}
    (holds : code.Holds position (first ++ second)) : code.Holds position first := by
  obtain ⟨before, after, split, length⟩ := holds
  exact ⟨before, second ++ after, by rw [split, List.append_assoc], length⟩

theorem Holds.right {code : Code} {position : Nat} {first second : List Instruction}
    (holds : code.Holds position (first ++ second)) :
    code.Holds (position + first.length) second := by
  obtain ⟨before, after, split, length⟩ := holds
  exact ⟨before ++ first, after, by simp [split], by simp [length]⟩

theorem Holds.tail {code : Code} {position : Nat} {op : Instruction} {ops : List Instruction}
    (holds : code.Holds position (op :: ops)) : code.Holds (position + 1) ops := by
  have split : code.Holds position ([op] ++ ops) := holds
  exact split.right

/-- The table of a code pairs up the brackets that belong together. -/
theorem partner?_eq_some_iff {code : Code} {position partner : Nat} :
    code.partner? position = some partner ↔
      Pairing.Partners (Block.brackets code.instructions.toList) position partner := by
  rw [partner?, code.partners_eq]
  exact Pairing.partner?_table

theorem Holds.partners {code : Code} {position : Nat} {inner rest : List Instruction}
    (holds : code.Holds position (.loopStart :: (inner ++ .loopEnd :: rest)))
    (balanced : Pairing.Balanced (Block.brackets inner)) :
    code.partner? position = some (position + inner.length + 1) ∧
      code.partner? (position + inner.length + 1) = some position := by
  obtain ⟨before, after, split, length⟩ := holds
  have pair : Pairing.Match (Block.brackets code.instructions.toList) position
      (position + inner.length + 1) := by
    refine ⟨Block.brackets before, Block.brackets inner, Block.brackets (rest ++ after), ?_,
      balanced, by simp [Block.brackets, length], by simp [Block.brackets]⟩
    simp [Block.brackets, split, Instruction.bracket?]
  exact ⟨partner?_eq_some_iff.mpr (.inl pair), partner?_eq_some_iff.mpr (.inr pair)⟩

end Code

namespace Config

/-- The machine at a position of a code, apart from its stream. -/
def machine (config : Config) (code : Code) (position : Nat) : Machine :=
  ⟨code, position, config.tape, config.input, config.fallback, config.output⟩

end Config

def Verdict.outcome (op : Instruction) : Verdict → Outcome
  | finished => .ran op
  | failed error => .failed error
  | waiting => .waiting

/-- Where a simple instruction leaves the position: behind it only if it was executed. -/
def Verdict.advance (position : Nat) : Verdict → Nat
  | finished => position + 1
  | failed _ | waiting => position

theorem Config.machine_read (config : Config) (code : Code) (position : Nat) :
    (config.machine code position).read config.stream =
      ⟨config.read.1.outcome .input, config.read.2.machine code (config.read.1.advance position),
        config.read.2.stream⟩ := by
  obtain ⟨tape, input, fallback, output, stream⟩ := config
  rcases input with _ | ⟨byte, input⟩
  · rcases fallback with _ | value <;> simp only [Config.read, Config.machine, Machine.read]
    · cases stream.read <;> rfl
    · cases Cell.ofInt? value <;> rfl
  · rfl

theorem Config.step_simple {code : Code} {position : Nat} {op : Simple} (config : Config)
    (here : code.instructions[position]? = some op.instruction) :
    (config.machine code position).step config.stream =
      ⟨(op.run config).1.outcome op.instruction,
        (op.run config).2.machine code ((op.run config).1.advance position),
        (op.run config).2.stream⟩ := by
  have next : (config.machine code position).peek = some op.instruction := here
  cases op with
  | increment | decrement | left | right | output =>
    simp only [Simple.instruction] at next
    simp only [Machine.step, next]
    rfl
  | input =>
    simp only [Simple.instruction] at next
    simp only [Machine.step, next]
    exact config.machine_read code position

theorem Config.step_loopStart {code : Code} {position partner : Nat} (config : Config)
    (here : code.instructions[position]? = some .loopStart)
    (paired : code.partner? position = some partner) :
    (config.machine code position).step config.stream =
      ⟨.ran .loopStart,
        config.machine code (if config.tape.current = 0 then partner + 1 else position + 1),
        config.stream⟩ := by
  have next : (config.machine code position).peek = some .loopStart := here
  simp only [Machine.step, next]
  simp only [Config.machine, Machine.bracket, paired]
  by_cases zero : config.tape.current = 0 <;> simp [zero]

theorem Config.step_loopEnd {code : Code} {position partner : Nat} (config : Config)
    (here : code.instructions[position]? = some .loopEnd)
    (paired : code.partner? position = some partner) :
    (config.machine code position).step config.stream =
      ⟨.ran .loopEnd,
        config.machine code (if config.tape.current ≠ 0 then partner + 1 else position + 1),
        config.stream⟩ := by
  have next : (config.machine code position).peek = some .loopEnd := here
  simp only [Machine.step, next]
  simp only [Config.machine, Machine.bracket, paired]
  by_cases zero : config.tape.current = 0 <;> simp [zero]

/-- What a machine does from a position on agrees with an evaluation: it comes to the end position
in the final configuration, or to a place where it fails or waits in it. -/
def Agrees (code : Code) (position finish : Nat) (config : Config) (verdict : Verdict)
    (final : Config) : Prop :=
  ∃ trail now place, Path (config.machine code position) config.stream trail
      (Config.machine now code place) now.stream ∧
    match verdict with
    | .finished => now = final ∧ place = finish
    | .failed error => (now.machine code place).step now.stream =
        ⟨.failed error, final.machine code place, final.stream⟩
    | .waiting => (now.machine code place).step now.stream =
        ⟨.waiting, final.machine code place, final.stream⟩

theorem Agrees.of_path {code : Code} {position middle finish : Nat} {config now final : Config}
    {verdict : Verdict} {trail : List Advance}
    (path : Path (config.machine code position) config.stream trail (now.machine code middle) now.stream)
    (onward : Agrees code middle finish now verdict final) :
    Agrees code position finish config verdict final := by
  obtain ⟨more, last, place, second, rest⟩ := onward
  exact ⟨trail ++ more, last, place, path.trans second, rest⟩

theorem Agrees.finished {code : Code} {position finish : Nat} {config final : Config}
    (agrees : Agrees code position finish config .finished final) :
    ∃ trail, Path (config.machine code position) config.stream trail (final.machine code finish)
      final.stream := by
  obtain ⟨trail, now, place, path, rfl, rfl⟩ := agrees
  exact ⟨trail, path⟩

theorem Agrees.unfinished {code : Code} {position finish finish' : Nat} {config final : Config}
    {verdict : Verdict} (agrees : Agrees code position finish config verdict final)
    (unfinished : verdict ≠ .finished) : Agrees code position finish' config verdict final := by
  obtain ⟨trail, now, place, path, rest⟩ := agrees
  refine ⟨trail, now, place, path, ?_⟩
  cases verdict with
  | finished => exact absurd rfl unfinished
  | failed error | waiting => exact rest

/-- At both ends of a loop the machine makes the same choice: into the body, or behind the loop. -/
theorem Config.step_loop {code : Code} {position : Nat} {inner rest : List Instruction}
    (holds : code.Holds position (.loopStart :: (inner ++ .loopEnd :: rest)))
    (balanced : Pairing.Balanced (Block.brackets inner)) (config : Config) :
    let chosen := if config.tape.current = 0 then position + inner.length + 2 else position + 1
    (config.machine code position).step config.stream =
        ⟨.ran .loopStart, config.machine code chosen, config.stream⟩ ∧
      (config.machine code (position + inner.length + 1)).step config.stream =
        ⟨.ran .loopEnd, config.machine code chosen, config.stream⟩ := by
  obtain ⟨atStart, atEnd⟩ := holds.partners balanced
  have closing := holds.tail.right.head
  rw [Nat.add_right_comm] at closing
  constructor
  · exact config.step_loopStart holds.head atStart
  · rw [config.step_loopEnd closing atEnd]
    by_cases zero : config.tape.current = 0 <;> simp [zero]

/-- From the end of the body of a loop, a machine goes on as from the beginning of the loop. -/
theorem Agrees.loop_again {code : Code} {position finish : Nat} {inner rest : List Instruction}
    {config final : Config} {verdict : Verdict}
    (holds : code.Holds position (.loopStart :: (inner ++ .loopEnd :: rest)))
    (balanced : Pairing.Balanced (Block.brackets inner))
    (agrees : Agrees code position finish config verdict final) (behind : position < finish) :
    Agrees code (position + inner.length + 1) finish config verdict final := by
  obtain ⟨atStart, atEnd⟩ := config.step_loop holds balanced
  obtain ⟨trail, now, place, path, ends⟩ := agrees
  rcases trail with _ | ⟨advance, trail⟩
  · obtain ⟨same, sameStream⟩ := path.of_nil
    rw [← same, ← sameStream] at ends
    cases verdict with
    | finished =>
      have samePlace : position = place := congrArg Machine.position same
      omega
    | failed error | waiting => simp [atStart] at ends
  · obtain ⟨later, left, begins, -, onward⟩ := path.uncons
    rw [atStart] at begins
    obtain ⟨-, rfl, rfl⟩ := StepResult.mk.inj begins
    exact ⟨_, now, place, (Path.single atEnd).trans onward, ends⟩

theorem Code.Holds.behind_loop {code : Code} {position : Nat} {inner rest : List Instruction}
    (holds : code.Holds position (.loopStart :: (inner ++ .loopEnd :: rest))) :
    code.Holds (position + inner.length + 2) rest := by
  have behind := holds.tail.right.tail
  rwa [Nat.add_right_comm position 1] at behind

/-- A machine follows the evaluation of a block wherever its instructions stand. -/
theorem Evaluates.agrees {block : Block} {config final : Config} {verdict : Verdict}
    (evaluates : Evaluates block config verdict final) {code : Code} {position : Nat}
    (holds : code.Holds position block.flatten) :
    Agrees code position (position + block.flatten.length) config verdict final := by
  induction evaluates generalizing position with
  | done config => exact ⟨[], config, position, .start, rfl, rfl⟩
  | @simple op rest config now final verdict run _ ih =>
    have step := config.step_simple holds.head
    rw [run] at step
    have onward := ih holds.tail
    rw [Block.flatten, List.length_cons, Nat.add_comm _ 1, ← Nat.add_assoc]
    exact onward.of_path (.single step)
  | @stuck op rest config final verdict run unfinished =>
    have step := config.step_simple holds.head
    rw [run] at step
    refine ⟨[], config, position, .start, ?_⟩
    cases verdict with
    | finished => exact absurd rfl unfinished
    | failed error | waiting => exact step
  | @leave body rest config final verdict zero _ ih =>
    have step := (config.step_loop holds body.balanced_flatten).1
    rw [if_pos zero] at step
    have onward := ih holds.behind_loop
    simp only [Block.flatten, List.length_cons, List.length_append]
    rw [show position + (body.flatten.length + (rest.flatten.length + 1) + 1) =
      position + body.flatten.length + 2 + rest.flatten.length by omega]
    exact onward.of_path (.single step)
  | @again body rest config now final verdict nonzero _ _ ihBody ihLoop =>
    have step := (config.step_loop holds body.balanced_flatten).1
    rw [if_neg nonzero] at step
    obtain ⟨trail, path⟩ := (ihBody holds.tail.left).finished
    rw [Nat.add_right_comm position 1] at path
    have onward := (ihLoop holds).loop_again holds body.balanced_flatten (by simp [Block.flatten])
    exact (onward.of_path path).of_path (.single step)
  | @inside body rest config final verdict nonzero _ unfinished ih =>
    have step := (config.step_loop holds body.balanced_flatten).1
    rw [if_neg nonzero] at step
    exact ((ih holds.tail.left).of_path (.single step)).unfinished unfinished

/-- A machine comes to rest after some number of instructions. -/
def Machine.RestsAfter (machine : Machine) (stream : ByteStream) (count : Nat) : Prop :=
  ∃ trail last rest, Path machine stream trail last rest ∧ trail.length = count ∧
    (last.step rest).outcome.rest?.isSome

theorem Machine.RestsAfter.uncons {machine later : Machine} {stream left : ByteStream}
    {op : Instruction} {count : Nat} (rests : machine.RestsAfter stream count)
    (step : machine.step stream = ⟨.ran op, later, left⟩) :
    ∃ fewer, count = fewer + 1 ∧ later.RestsAfter left fewer := by
  obtain ⟨trail, last, rest, path, rfl, ends⟩ := rests
  rcases trail with _ | ⟨advance, trail⟩
  · obtain ⟨rfl, rfl⟩ := path.of_nil
    simp [step, Outcome.rest?] at ends
  · obtain ⟨second, remaining, begins, -, onward⟩ := path.uncons
    rw [step] at begins
    obtain ⟨-, rfl, rfl⟩ := StepResult.mk.inj begins
    exact ⟨trail.length, rfl, trail, last, rest, onward, rfl, ends⟩

theorem Machine.RestsAfter.cons {machine later : Machine} {stream left : ByteStream}
    {op : Instruction} {count : Nat} (rests : later.RestsAfter left count)
    (step : machine.step stream = ⟨.ran op, later, left⟩) :
    machine.RestsAfter stream (count + 1) := by
  obtain ⟨trail, last, rest, path, rfl, ends⟩ := rests
  exact ⟨_, last, rest, (Path.single step).trans path, by simp, ends⟩

/-- A machine that comes to rest has evaluated the block that it stood before. If it came to the end of
the block, it did not need more instructions for what followed. Each round of a loop leaves fewer
instructions to be executed. -/
theorem Block.exists_evaluates (block : Block) {code : Code} {position : Nat}
    (holds : code.Holds position block.flatten) {config : Config} {count : Nat}
    (rests : (config.machine code position).RestsAfter config.stream count) :
    ∃ verdict final, Evaluates block config verdict final ∧
      (verdict = .finished → ∃ fewer ≤ count,
        (final.machine code (position + block.flatten.length)).RestsAfter final.stream fewer) := by
  induction block generalizing config position count with
  | done => exact ⟨.finished, config, .done config, fun _ => ⟨count, Nat.le_refl _, rests⟩⟩
  | simple op rest ih =>
    have step := config.step_simple holds.head
    rcases run : op.run config with ⟨verdict, now⟩
    rw [run] at step
    cases verdict with
    | finished =>
      obtain ⟨fewer, rfl, onward⟩ := rests.uncons step
      obtain ⟨verdict, final, evaluates, ends⟩ := ih holds.tail onward
      refine ⟨verdict, final, .simple run evaluates, fun finished => ?_⟩
      obtain ⟨still, bound, after⟩ := ends finished
      refine ⟨still, by omega, ?_⟩
      rwa [Block.flatten, List.length_cons, Nat.add_comm _ 1, ← Nat.add_assoc]
    | failed error | waiting => exact ⟨_, now, .stuck run (by simp), by simp⟩
  | loop body rest ihBody ihRest =>
    induction count using Nat.strongRecOn generalizing config with
    | ind count ihLoop =>
      obtain ⟨atStart, atEnd⟩ := config.step_loop holds body.balanced_flatten
      obtain ⟨fewer, rfl, onward⟩ := rests.uncons atStart
      by_cases zero : config.tape.current = 0
      · rw [if_pos zero] at onward
        obtain ⟨verdict, final, evaluates, ends⟩ := ihRest holds.behind_loop onward
        refine ⟨verdict, final, .leave zero evaluates, fun finished => ?_⟩
        obtain ⟨still, bound, after⟩ := ends finished
        refine ⟨still, by omega, ?_⟩
        have place : position + (Block.loop body rest).flatten.length =
            position + body.flatten.length + 2 + rest.flatten.length := by
          simp only [Block.flatten, List.length_cons, List.length_append]
          omega
        rwa [place]
      · rw [if_neg zero] at onward
        obtain ⟨verdict, now, evaluates, ends⟩ := ihBody holds.tail.left onward
        by_cases finished : verdict = .finished
        · subst finished
          obtain ⟨still, bound, atClosing⟩ := ends rfl
          obtain ⟨reStart, reEnd⟩ := now.step_loop holds body.balanced_flatten
          rw [Nat.add_right_comm position 1] at atClosing
          obtain ⟨left, rfl, chosen⟩ := atClosing.uncons reEnd
          obtain ⟨verdict, final, evaluates', ends'⟩ :=
            ihLoop (left + 1) (by omega) (chosen.cons reStart)
          refine ⟨verdict, final, .again zero evaluates evaluates', fun finished => ?_⟩
          obtain ⟨last, bound', after⟩ := ends' finished
          exact ⟨last, by omega, after⟩
        · exact ⟨verdict, now, .inside zero evaluates finished, fun ended => absurd ended finished⟩

end TapeMachine
