import TapeMachine.Proofs.StructuredCode

namespace TapeMachine

/-- Whether a bracket jumps behind its partner when the cursor is on a cell. -/
def Instruction.jumps : Instruction → Cell → Bool
  | loopStart, cell => cell = 0
  | loopEnd, cell => cell ≠ 0
  | _, _ => false

theorem Instruction.bracket_or_simple (op : Instruction) :
    op.bracket?.isSome ∨ ∃ plain : Simple, plain.instruction = op := by
  rcases kind : op.bracket? with _ | bracket
  · exact .inr (Block.exists_simple kind)
  · exact .inl rfl

theorem Simple.run_not_mismatched (op : Simple) (config : Config) :
    (op.run config).1 ≠ .failed .mismatchedBrackets := by
  intro mismatched
  have stuck : Evaluates (.simple op .done) config (op.run config).1 (op.run config).2 :=
    .stuck rfl (by simp [mismatched])
  exact stuck.not_mismatched mismatched

namespace Machine

variable {machine later : Machine} {stream left : ByteStream} {op : Instruction}

theorem step_end (next : machine.peek = none) (stream : ByteStream) :
    machine.step stream = ⟨.ended, machine, stream⟩ := by
  simp only [step, next]

theorem step_simple {plain : Simple} (next : machine.peek = some plain.instruction)
    (stream : ByteStream) :
    machine.step stream =
      ⟨(plain.run (machine.config stream)).1.outcome plain.instruction,
        (plain.run (machine.config stream)).2.machine machine.code
          ((plain.run (machine.config stream)).1.advance machine.position),
        (plain.run (machine.config stream)).2.stream⟩ :=
  (machine.config stream).step_simple next

theorem step_bracket (next : machine.peek = some op) (isBracket : op.bracket?.isSome)
    (stream : ByteStream) :
    machine.step stream =
      match machine.code.partner? machine.position with
      | none => ⟨.failed .mismatchedBrackets, machine, stream⟩
      | some partner => ⟨.ran op, { machine with
          position := if op.jumps machine.tape.current then partner + 1 else machine.position + 1 },
          stream⟩ := by
  cases op with
  | loopStart | loopEnd =>
    simp only [step, next]
    obtain ⟨code, position, tape, input, fallback, output⟩ := machine
    rcases paired : code.partner? position with _ | partner <;> simp [bracket, paired, Instruction.jumps]
  | increment | decrement | left | right | output | input => cases isBracket

theorem step_ended_iff : (machine.step stream).outcome = .ended ↔ machine.peek = none := by
  rcases next : machine.peek with _ | op
  · simp [step_end next]
  rcases op.bracket_or_simple with isBracket | ⟨plain, rfl⟩
  · rw [step_bracket next isBracket]
    cases machine.code.partner? machine.position <;> simp
  · rw [step_simple next]
    cases (plain.run (machine.config stream)).1 <;> simp [Verdict.outcome]

/-- Where an executed instruction leads: to the next position, or behind the partner of a bracket.
A bracket is executed only if it has a partner. -/
theorem step_ran (step : machine.step stream = ⟨.ran op, later, left⟩) :
    later.code = machine.code ∧ machine.peek = some op ∧
      (op.bracket?.isSome → (machine.code.partner? machine.position).isSome) ∧
      (later.position = machine.position + 1 ∨
        ∃ partner, machine.code.partner? machine.position = some partner ∧
          later.position = partner + 1) := by
  rcases next : machine.peek with _ | here
  · rw [step_end next] at step
    cases step
  rcases here.bracket_or_simple with isBracket | ⟨plain, rfl⟩
  · rw [step_bracket next isBracket] at step
    rcases paired : machine.code.partner? machine.position with _ | partner
    · rw [paired] at step
      cases step
    · rw [paired] at step
      obtain ⟨same, rfl, rfl⟩ := StepResult.mk.inj step
      obtain rfl := Outcome.ran.inj same
      refine ⟨rfl, rfl, fun _ => rfl, ?_⟩
      by_cases jumps : here.jumps machine.tape.current <;> simp [jumps]
  · rw [step_simple next] at step
    obtain ⟨outcome, rfl, rfl⟩ := StepResult.mk.inj step
    rcases verdict : (plain.run (machine.config stream)).1 with _ | error | _ <;>
      simp only [verdict, Verdict.outcome, reduceCtorEq, Outcome.ran.injEq] at outcome
    subst outcome
    refine ⟨rfl, rfl, ?_, .inl rfl⟩
    simp [Block.bracket?_simple]

end Machine

theorem Path.code {initial last : Machine} {stream rest : ByteStream} {trail : List Advance}
    (path : Path initial stream trail last rest) : last.code = initial.code := by
  induction path with
  | start => rfl
  | next _ step ih => exact (Machine.step_ran step).1.trans ih

end TapeMachine
