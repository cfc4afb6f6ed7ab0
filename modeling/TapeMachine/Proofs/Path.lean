import TapeMachine.Machine.Run

namespace TapeMachine

/-- One executed instruction. -/
structure Advance where
  before : Machine
  op : Instruction
  after : Machine

/-- The machine executes some instructions, one after the other. -/
inductive Path (initial : Machine) (stream : ByteStream) :
    List Advance → Machine → ByteStream → Prop
  | start : Path initial stream [] initial stream
  | next {trail : List Advance} {machine later : Machine} {rest left : ByteStream}
      {op : Instruction} : Path initial stream trail machine rest →
      machine.step rest = ⟨.ran op, later, left⟩ →
      Path initial stream (trail ++ [⟨machine, op, later⟩]) later left

/-- How a run comes to rest with an outcome; an executed instruction is no rest. -/
def Outcome.rest? : Outcome → Option RunEnd
  | .ran _ => none
  | .ended => some .ended
  | .failed error => some (.failed error)
  | .waiting => some .waiting

namespace Path

variable {initial machine later final : Machine} {stream rest left : ByteStream}
  {trail more : List Advance}

theorem single {op : Instruction} (step : initial.step stream = ⟨.ran op, later, left⟩) :
    Path initial stream [⟨initial, op, later⟩] later left := .next .start step

theorem trans (first : Path initial stream trail machine rest)
    (second : Path machine rest more final left) :
    Path initial stream (trail ++ more) final left := by
  induction second with
  | start => rwa [List.append_nil]
  | next _ step ih =>
    rw [← List.append_assoc]
    exact .next ih step

theorem of_nil (path : Path initial stream [] final left) : initial = final ∧ stream = left := by
  generalize whole : [] = steps at path
  cases path with
  | start => exact ⟨rfl, rfl⟩
  | next => simp at whole

theorem uncons {advance : Advance} (path : Path initial stream (advance :: trail) final left) :
    ∃ later rest, initial.step stream = ⟨.ran advance.op, later, rest⟩ ∧
      advance = ⟨initial, advance.op, later⟩ ∧ Path later rest trail final left := by
  generalize whole : advance :: trail = steps at path
  induction path generalizing trail with
  | start => simp at whole
  | @next earlier machine later rest left op path step ih =>
    rcases earlier with _ | ⟨head, earlier⟩
    · obtain ⟨rfl, rfl⟩ := path.of_nil
      obtain ⟨rfl, rfl⟩ := List.cons_eq_cons.mp whole
      exact ⟨_, _, step, rfl, .start⟩
    · obtain ⟨rfl, rfl⟩ := List.cons_eq_cons.mp whole
      obtain ⟨second, remaining, begins, shape, tail⟩ := ih rfl
      exact ⟨second, remaining, begins, shape, .next tail step⟩

/-- Of two paths from one place, the longer one goes on where the shorter one ends. -/
theorem continues (path : Path initial stream trail machine rest)
    (longer : Path initial stream more final left) (bound : trail.length ≤ more.length) :
    ∃ extra, more = trail ++ extra ∧ Path machine rest extra final left := by
  induction trail generalizing initial stream more with
  | nil =>
    obtain ⟨rfl, rfl⟩ := path.of_nil
    exact ⟨more, rfl, longer⟩
  | cons advance trail ih =>
    rcases more with _ | ⟨advance', more⟩
    · simp at bound
    · obtain ⟨second, remaining, begins, shape, tail⟩ := path.uncons
      obtain ⟨second', remaining', begins', shape', tail'⟩ := longer.uncons
      simp only [begins, StepResult.mk.injEq, Outcome.ran.injEq] at begins'
      obtain ⟨sameOp, rfl, rfl⟩ := begins'
      obtain ⟨extra, rfl, onward⟩ := ih tail tail' (by simpa using bound)
      refine ⟨extra, ?_, onward⟩
      rw [shape, shape', sameOp, List.cons_append]

/-- A path cannot go on from a place of rest. -/
theorem extra_nil {outcome : Outcome} {finish : RunEnd}
    (step : machine.step rest = ⟨outcome, later, left⟩) (rests : outcome.rest? = some finish)
    {left' : ByteStream} (path : Path machine rest trail final left') : trail = [] := by
  rcases trail with _ | ⟨advance, trail⟩
  · rfl
  · obtain ⟨second, remaining, begins, -, -⟩ := path.uncons
    rw [step] at begins
    obtain ⟨rfl, -⟩ := StepResult.mk.inj begins
    simp [Outcome.rest?] at rests

/-- There is only one place of rest. -/
theorem rest_unique {outcome outcome' : Outcome} {finish finish' : RunEnd}
    {machine' later' : Machine} {rest' left' : ByteStream}
    (path : Path initial stream trail machine rest)
    (step : machine.step rest = ⟨outcome, later, left⟩) (rests : outcome.rest? = some finish)
    (path' : Path initial stream more machine' rest')
    (step' : machine'.step rest' = ⟨outcome', later', left'⟩)
    (rests' : outcome'.rest? = some finish') : trail = more ∧ machine = machine' ∧ rest = rest' := by
  rcases Nat.le_total trail.length more.length with bound | bound
  · obtain ⟨extra, rfl, onward⟩ := path.continues path' bound
    obtain rfl := extra_nil step rests onward
    exact ⟨(List.append_nil _).symm, onward.of_nil⟩
  · obtain ⟨extra, rfl, onward⟩ := path'.continues path bound
    obtain rfl := extra_nil step' rests' onward
    obtain ⟨rfl, rfl⟩ := onward.of_nil
    exact ⟨List.append_nil _, rfl, rfl⟩

/-- A run within a budget first goes along any path that it has the budget for. -/
theorem runFrom_eq (path : Path initial stream trail machine rest) (budget done : Nat) :
    initial.runFrom (trail.length + budget) done stream =
      machine.runFrom budget (done + trail.length) rest := by
  induction path generalizing budget done with
  | start => simp
  | @next trail machine later rest left op _ step ih =>
    have unfold : machine.runFrom (budget + 1) (done + trail.length) rest =
        later.runFrom budget (done + trail.length + 1) left := by
      rw [Machine.runFrom, step]
    rw [List.length_append, List.length_singleton, Nat.add_assoc, Nat.add_comm 1, ih, unfold,
      Nat.add_assoc]

theorem runFrom_zero (machine : Machine) (done : Nat) (stream : ByteStream) :
    machine.runFrom 0 done stream = ⟨machine, stream, done, .exhausted⟩ := rfl

theorem runFrom_rest {outcome : Outcome} {finish : RunEnd}
    (step : machine.step rest = ⟨outcome, later, left⟩) (rests : outcome.rest? = some finish)
    (budget done : Nat) :
    machine.runFrom (budget + 1) done rest = ⟨later, left, done, finish⟩ := by
  cases outcome with
  | ran op => simp [Outcome.rest?] at rests
  | ended | waiting | failed error =>
    obtain rfl := Option.some.inj rests
    rw [Machine.runFrom, step]

/-- Every path that comes to rest is the run of every larger budget. -/
theorem run_rest {outcome : Outcome} {finish : RunEnd}
    (path : Path initial stream trail machine rest)
    (step : machine.step rest = ⟨outcome, later, left⟩) (rests : outcome.rest? = some finish)
    {budget : Nat} (enough : trail.length < budget) :
    initial.run budget stream = ⟨later, left, trail.length, finish⟩ := by
  obtain ⟨extra, rfl⟩ : ∃ extra, budget = trail.length + (extra + 1) :=
    ⟨budget - trail.length - 1, by omega⟩
  rw [Machine.run, path.runFrom_eq, runFrom_rest step rests, Nat.zero_add]

theorem run_exhausted (path : Path initial stream trail machine rest) :
    initial.run trail.length stream = ⟨machine, rest, trail.length, .exhausted⟩ := by
  have run := path.runFrom_eq 0 0
  rwa [Nat.add_zero, Nat.zero_add, runFrom_zero] at run

end Path

/-- The next instruction takes a byte from the stream. -/
def Machine.ReadsStream (machine : Machine) : Prop :=
  machine.peek = some .input ∧ machine.input = [] ∧ machine.fallback = none

namespace Machine

variable {machine later : Machine} {stream left : ByteStream} {outcome : Outcome}

/-- Any other instruction does the same on every stream and leaves the stream alone. -/
theorem step_apart (apart : ¬ machine.ReadsStream) :
    ∃ outcome later, outcome ≠ .waiting ∧ (outcome.rest? ≠ none → later = machine) ∧
      ∀ stream, machine.step stream = ⟨outcome, later, stream⟩ := by
  obtain ⟨code, position, tape, input, fallback, output⟩ := machine
  rcases next : peek ⟨code, position, tape, input, fallback, output⟩ with _ | op
  · refine ⟨.ended, _, by simp, fun _ => rfl, fun stream => ?_⟩
    simp only [step, next]
  have bracketed (op : Instruction) (jumps : Cell → Bool) : ∃ outcome later, outcome ≠ .waiting ∧
      (outcome.rest? ≠ none → later = ⟨code, position, tape, input, fallback, output⟩) ∧
      ∀ stream, bracket op jumps ⟨code, position, tape, input, fallback, output⟩ stream =
        ⟨outcome, later, stream⟩ := by
    simp only [bracket]
    cases code.partner? position with
    | none => exact ⟨_, _, by simp, fun _ => rfl, fun _ => rfl⟩
    | some partner => exact ⟨.ran op, _, by simp, by simp [Outcome.rest?], fun _ => rfl⟩
  simp only [step, next]
  cases op with
  | increment | decrement | left | right | output =>
    exact ⟨.ran _, _, by simp, by simp [Outcome.rest?], fun _ => rfl⟩
  | loopStart | loopEnd => exact bracketed _ _
  | input =>
    rcases input with _ | ⟨byte, input⟩
    · rcases fallback with _ | value
      · exact absurd ⟨next, rfl, rfl⟩ apart
      · simp only [read]
        cases Cell.ofInt? value with
        | none => exact ⟨_, _, by simp, fun _ => rfl, fun _ => rfl⟩
        | some byte => exact ⟨.ran .input, _, by simp, by simp [Outcome.rest?], fun _ => rfl⟩
    · exact ⟨.ran .input, _, by simp, by simp [Outcome.rest?], fun _ => rfl⟩

theorem step_reading (reads : machine.ReadsStream) (stream : ByteStream) :
    machine.step stream =
      match stream.read with
      | .byte byte rest => ⟨.ran .input,
          { machine with position := machine.position + 1, tape := machine.tape.write byte }, rest⟩
      | .fault fault rest => ⟨.failed (.ofFault fault), machine, rest⟩
      | .endOfStream => ⟨.failed .endOfInput, machine, stream⟩
      | .waiting => ⟨.waiting, machine, stream⟩ := by
  obtain ⟨next, drained, dry⟩ := reads
  obtain ⟨code, position, tape, input, fallback, output⟩ := machine
  obtain rfl : input = [] := drained
  obtain rfl : fallback = none := dry
  rw [step, next]
  rfl

/-- A machine that comes to rest is left as it was. -/
theorem eq_of_rests {finish : RunEnd} (step : machine.step stream = ⟨outcome, later, left⟩)
    (rests : outcome.rest? = some finish) : later = machine := by
  by_cases reads : machine.ReadsStream
  · rw [step_reading reads] at step
    split at step
    all_goals obtain ⟨rfl, rfl, -⟩ := StepResult.mk.inj step
    · simp [Outcome.rest?] at rests
    all_goals rfl
  · obtain ⟨_, _, -, kept, same⟩ := step_apart reads
    rw [same] at step
    obtain ⟨rfl, rfl, -⟩ := StepResult.mk.inj step
    exact kept (by simp [rests])

/-- A step never changes what a read finds behind the last item, and waits only if there is
nothing there yet. -/
theorem step_ending (step : machine.step stream = ⟨outcome, later, left⟩) :
    left.ending = stream.ending ∧ (outcome = .waiting → stream.ending = .waiting) := by
  by_cases reads : machine.ReadsStream
  · rw [step_reading reads] at step
    obtain ⟨items, ending⟩ := stream
    rcases items with _ | ⟨item, items⟩
    · cases ending with
      | endOfStream | waiting | broken fault =>
        obtain ⟨rfl, -, rfl⟩ := StepResult.mk.inj step
        simp
    · cases item with
      | byte value | fault fault | endOfStream =>
        obtain ⟨rfl, -, rfl⟩ := StepResult.mk.inj step
        simp
  · obtain ⟨_, _, busy, -, same⟩ := step_apart reads
    rw [same] at step
    obtain ⟨rfl, -, rfl⟩ := StepResult.mk.inj step
    exact ⟨rfl, fun waits => absurd waits busy⟩

end Machine

theorem Path.ending {initial final : Machine} {stream left : ByteStream} {trail : List Advance}
    (path : Path initial stream trail final left) : left.ending = stream.ending := by
  induction path with
  | start => rfl
  | next _ step ih => exact (Machine.step_ending step).1.trans ih

/-- An executed instruction does not depend on what comes behind the items that are there. -/
theorem Machine.step_feed {machine later : Machine} {stream left : ByteStream} {op : Instruction}
    (step : machine.step stream = ⟨.ran op, later, left⟩) (items : List StreamItem) :
    machine.step (stream.feed items) = ⟨.ran op, later, left.feed items⟩ := by
  by_cases reads : machine.ReadsStream
  · rw [step_reading reads] at step ⊢
    obtain ⟨there, ending⟩ := stream
    rcases there with _ | ⟨item, there⟩
    · cases ending with
      | endOfStream | waiting | broken fault => cases (StepResult.mk.inj step).1
    · cases item with
      | byte value =>
        obtain ⟨same, rfl, rfl⟩ := StepResult.mk.inj step
        rw [← same]
        rfl
      | fault fault | endOfStream => cases (StepResult.mk.inj step).1
  · obtain ⟨_, _, -, -, same⟩ := step_apart reads
    rw [same] at step ⊢
    obtain ⟨rfl, rfl, rfl⟩ := StepResult.mk.inj step
    rfl

theorem Path.feed {initial final : Machine} {stream left : ByteStream} {trail : List Advance}
    (path : Path initial stream trail final left) (items : List StreamItem) :
    Path initial (stream.feed items) trail final (left.feed items) := by
  induction path with
  | start => exact .start
  | next _ step ih => exact ih.next (Machine.step_feed step items)

/-- Whatever its budget, a run either comes to rest within it or uses it up. -/
theorem Machine.run_cases (machine : Machine) (stream : ByteStream) (budget : Nat) :
    (∃ trail last rest, Path machine stream trail last rest ∧ trail.length = budget) ∨
      ∃ trail last rest outcome finish later left, Path machine stream trail last rest ∧
        trail.length < budget ∧ last.step rest = ⟨outcome, later, left⟩ ∧
        outcome.rest? = some finish := by
  induction budget with
  | zero => exact .inl ⟨[], machine, stream, .start, rfl⟩
  | succ budget ih =>
    rcases ih with ⟨trail, last, rest, path, length⟩ |
      ⟨trail, last, rest, outcome, finish, later, left, path, within, step, rests⟩
    · rcases result : last.step rest with ⟨outcome, later, left⟩
      cases outcome with
      | ran op => exact .inl ⟨_, later, left, .next path result, by simp [length]⟩
      | ended | waiting | failed error =>
        exact .inr ⟨trail, last, rest, _, _, later, left, path, by omega, result, rfl⟩
    · exact .inr ⟨trail, last, rest, outcome, finish, later, left, path, by omega, step, rests⟩

/-- A run comes to rest exactly where a path does. -/
theorem Machine.run_finish_iff {machine later : Machine} {stream left : ByteStream}
    {finish : RunEnd} (unspent : finish ≠ .exhausted) :
    (∃ budget steps, machine.run budget stream = ⟨later, left, steps, finish⟩) ↔
      ∃ trail last rest outcome, Path machine stream trail last rest ∧
        last.step rest = ⟨outcome, later, left⟩ ∧ outcome.rest? = some finish := by
  constructor
  · rintro ⟨budget, steps, run⟩
    rcases machine.run_cases stream budget with ⟨trail, last, rest, path, rfl⟩ |
      ⟨trail, last, rest, outcome, finish', later', left', path, within, step, rests⟩
    · rw [path.run_exhausted] at run
      exact absurd (congrArg RunResult.finish run).symm unspent
    · rw [path.run_rest step rests within] at run
      obtain ⟨rfl, rfl, -, rfl⟩ := RunResult.mk.inj run
      exact ⟨trail, last, rest, outcome, path, step, rests⟩
  · rintro ⟨trail, last, rest, outcome, path, step, rests⟩
    exact ⟨trail.length + 1, trail.length, path.run_rest step rests (Nat.lt_succ_self _)⟩

end TapeMachine
