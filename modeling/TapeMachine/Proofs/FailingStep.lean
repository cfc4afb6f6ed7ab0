import TapeMachine.Machine.Session
import TapeMachine.Proofs.InputSupply
import TapeMachine.Proofs.StrayBracket

namespace TapeMachine

/-- The bytes that are still to come from a stream. -/
def ByteStream.bytes (stream : ByteStream) : List UInt8 :=
  stream.items.filterMap fun
    | .byte value => some value
    | _ => none

theorem ByteStream.bytes_of_fault {stream rest : ByteStream} {fault : Fault}
    (faulty : stream.read = .fault fault rest) : rest.bytes = stream.bytes := by
  obtain ⟨items, ending⟩ := stream
  rcases items with _ | ⟨item, items⟩
  · cases ending with
    | endOfStream | waiting => cases faulty
    | broken =>
      obtain ⟨-, rfl⟩ := Reading.fault.inj faulty
      rfl
  · cases item with
    | byte | endOfStream => cases faulty
    | fault =>
      obtain ⟨-, rfl⟩ := Reading.fault.inj faulty
      rfl

namespace Machine

/-- Why a step fails, with the stream that it leaves. Of the stream at most the fault is gone. -/
inductive Fails (machine : Machine) (stream : ByteStream) : StepError → ByteStream → Prop
  | stray : machine.code.Stray machine.position → Fails machine stream .mismatchedBrackets stream
  | range {value : Int} : machine.peek = some .input → machine.input = [] →
      machine.fallback = some value → ¬ (0 ≤ value ∧ value ≤ 255) →
      Fails machine stream (.cellRange value) stream
  | ended : machine.ReadsStream → stream.read = .endOfStream → Fails machine stream .endOfInput stream
  | fault {fault : Fault} {rest : ByteStream} : machine.ReadsStream →
      stream.read = .fault fault rest → Fails machine stream (.ofFault fault) rest

variable {machine later : Machine} {stream left : ByteStream} {error : StepError} {op : Instruction}

theorem Fails.bytes (fails : machine.Fails stream error left) : left.bytes = stream.bytes := by
  cases fails with
  | stray | range | ended => rfl
  | fault _ faulty => exact ByteStream.bytes_of_fault faulty

theorem step_next_input (next : machine.peek = some .input) (stream : ByteStream) :
    machine.step stream = machine.read stream := by
  simp only [step, next]

/-- A read that does not take its byte from the stream has one in the queue or falls back. -/
theorem step_queue (next : machine.peek = some .input) {byte : UInt8} {input : List UInt8}
    (queue : machine.input = byte :: input) (stream : ByteStream) :
    machine.step stream = ⟨.ran .input, (machine.taking byte).queued input, stream⟩ := by
  rw [step_next_input next]
  obtain ⟨code, position, tape, _, fallback, output⟩ := machine
  obtain rfl := queue
  rfl

theorem step_fallback (next : machine.peek = some .input) (drained : machine.input = [])
    {value : Int} (fallback : machine.fallback = some value) (stream : ByteStream) :
    machine.step stream =
      match Cell.ofInt? value with
      | some byte => ⟨.ran .input, machine.taking byte, stream⟩
      | none => ⟨.failed (.cellRange value), machine, stream⟩ := by
  rw [step_next_input next]
  obtain ⟨code, position, tape, _, _, output⟩ := machine
  obtain rfl := drained
  obtain rfl := fallback
  rfl

/-- A step fails exactly for one of these reasons, and leaves the machine as it was. What does not read
fails at brackets only. -/
theorem step_failed_iff :
    machine.step stream = ⟨.failed error, later, left⟩ ↔ later = machine ∧ machine.Fails stream error left := by
  constructor
  · intro failed
    obtain rfl := eq_of_rests failed rfl
    refine ⟨rfl, ?_⟩
    by_cases next : later.peek = some .input
    · rcases queue : later.input with _ | ⟨byte, input⟩
      · rcases fallback : later.fallback with _ | value
        · have reads : later.ReadsStream := ⟨next, queue, fallback⟩
          rw [step_reading reads] at failed
          split at failed <;> rename_i reading <;> cases failed
          · exact .fault reads reading
          · exact .ended reads reading
        · rw [step_fallback next queue fallback] at failed
          split at failed <;> cases failed
          rename_i outside
          exact .range next queue fallback (by simpa [Cell.ofInt?] using outside)
      · rw [step_queue next queue] at failed
        cases failed
    · obtain ⟨outcome, same, blind⟩ := step_without_read next
      obtain ⟨rfl, -, rfl⟩ := blind.same failed
      obtain rfl := blind.stray _ rfl
      exact .stray (step_mismatched_iff.mp (congrArg StepResult.outcome failed))
  · rintro ⟨rfl, fails⟩
    cases fails with
    | stray stray =>
      obtain ⟨op, next, isBracket, alone⟩ := stray
      rw [step_bracket next isBracket, alone]
    | range next drained fallback outside =>
      rw [step_fallback next drained fallback, Cell.ofInt?, if_neg outside]
    | ended reads ending => rw [step_reading reads, ending]
    | fault reads faulty => rw [step_reading reads, faulty]

end Machine

/-- What an executed instruction has taken from the queue. It is in the cell under the cursor then. -/
def Advance.taken (advance : Advance) : List UInt8 :=
  if advance.op = .input ∧ advance.before.input ≠ [] then [advance.after.tape.current] else []

/-- An executed instruction takes a byte from the queue only to store it. -/
theorem Machine.input_of_ran {machine later : Machine} {stream left : ByteStream} {op : Instruction}
    (step : machine.step stream = ⟨.ran op, later, left⟩) :
    machine.input = Advance.taken ⟨machine, op, later⟩ ++ later.input := by
  by_cases next : machine.peek = some .input
  · rcases queue : machine.input with _ | ⟨byte, input⟩
    · have kept : later.input = [] := by
        rcases fallback : machine.fallback with _ | value
        · rw [step_reading ⟨next, queue, fallback⟩] at step
          split at step <;> cases step
          exact queue
        · rw [step_fallback next queue fallback] at step
          split at step <;> cases step
          exact queue
      simp [Advance.taken, queue, kept]
    · rw [step_queue next queue] at step
      obtain ⟨read, rfl, -⟩ := StepResult.mk.inj step
      obtain rfl := Outcome.ran.inj read
      simp [Advance.taken, queue, taking, queued, Tape.current_write]
  · obtain ⟨outcome, same, blind⟩ := step_without_read next
    obtain ⟨ran, found, -⟩ := blind.same step
    have other : op ≠ .input := fun read => blind.notRead (by rw [← ran, read])
    simp [Advance.taken, other, found, queued]

namespace Order

/-- Whether the machine is told to execute instructions. Every other order changes it from outside. -/
def executes : Order → Bool
  | step _ | next | remaining | run => true
  | _ => false

/-- What an order puts into the queue. -/
def pushed : Order → List UInt8
  | push bytes => bytes
  | _ => []

end Order

/-- What can become of a machine that is driven by hand, with the bytes that were put into its queue and
the instructions that it has executed. Nothing is assumed about the stream: every step may find another
one. -/
inductive Driven (initial : Machine) : List UInt8 → List Advance → Machine → Prop
  | start : Driven initial [] [] initial
  | execute {given : List UInt8} {trail : List Advance} {machine later : Machine}
      {left : ByteStream} {op : Instruction} (stream : ByteStream) :
      Driven initial given trail machine → machine.step stream = ⟨.ran op, later, left⟩ →
      Driven initial given (trail ++ [⟨machine, op, later⟩]) later
  | rest {given : List UInt8} {trail : List Advance} {machine later : Machine}
      {left : ByteStream} {outcome : Outcome} {finish : RunEnd} (stream : ByteStream) :
      Driven initial given trail machine → machine.step stream = ⟨outcome, later, left⟩ →
      outcome.rest? = some finish → Driven initial given trail later
  | change {given : List UInt8} {trail : List Advance} {machine later : Machine} {left : ByteStream}
      {reply : Reply} (budget : Nat) (stream : ByteStream) (order : Order) :
      Driven initial given trail machine → order.executes = false →
      machine.obey budget stream order = (reply, later, left) →
      Driven initial (given ++ order.pushed) trail later

/-- A change from outside leaves code and position alone, and in the queue it only adds. -/
theorem Machine.obey_change {machine later : Machine} {budget : Nat} {stream left : ByteStream}
    {reply : Reply} {order : Order} (outside : order.executes = false)
    (obeyed : machine.obey budget stream order = (reply, later, left)) :
    later.code = machine.code ∧ later.position = machine.position ∧
      later.input = machine.input ++ order.pushed := by
  cases order with
  | step | next | remaining | run => cases outside
  | writeCell value =>
    rw [obey] at obeyed
    split at obeyed <;> cases obeyed <;> simp [Order.pushed]
  | push | setFallback | moveRight | moveLeft | clearOutput | newTape =>
    cases obeyed
    simp [Order.pushed]

namespace Driven

variable {initial machine : Machine} {given : List UInt8} {trail : List Advance}

/-- The bytes that were given are those that were read, and behind them those that are in the queue. -/
theorem conserves (driven : Driven initial given trail machine) :
    initial.input ++ given = trail.flatMap Advance.taken ++ machine.input := by
  induction driven with
  | start => simp
  | execute _ _ step ih =>
    rw [ih, Machine.input_of_ran step, List.flatMap_append, List.flatMap_singleton, List.append_assoc]
  | rest _ _ step rests ih =>
    obtain rfl := Machine.eq_of_rests step rests
    exact ih
  | change _ _ _ _ outside obeyed ih =>
    rw [← List.append_assoc, ih, (Machine.obey_change outside obeyed).2.2, List.append_assoc]

/-- From a bracket without partner there is no way on. -/
theorem stuck (driven : Driven initial given trail machine)
    (stray : initial.code.Stray initial.position) :
    trail = [] ∧ machine.position = initial.position ∧ machine.code.Stray machine.position := by
  induction driven with
  | start => exact ⟨rfl, rfl, stray⟩
  | execute _ _ step ih =>
    obtain ⟨-, -, stands⟩ := ih
    cases step.symm.trans (Machine.step_failed_iff.mpr ⟨rfl, .stray stands⟩)
  | rest _ _ step rests ih =>
    obtain rfl := Machine.eq_of_rests step rests
    exact ih
  | change _ _ _ _ outside obeyed ih =>
    obtain ⟨code, position, -⟩ := Machine.obey_change outside obeyed
    rw [code, position]
    exact ih

end Driven

/-- Whatever has been done to a machine, and whatever its stream does: a step that fails leaves the machine
as it was. It fails for one of a few reasons. All bytes that are on the stream stay there, and of those that
were given to the machine only the ones that executed reads have stored are gone from the queue. A bracket
without partner is final: no change from outside makes a step execute it, or anything else. -/
theorem failing_step_changes_nothing {code : Code} {input given : List UInt8} {fallback : Option Int}
    {trail : List Advance} {machine later : Machine} {stream left : ByteStream} {error : StepError}
    (driven : Driven (.load code input fallback) given trail machine)
    (fails : machine.step stream = ⟨.failed error, later, left⟩) :
    later = machine ∧ machine.Fails stream error left ∧ left.bytes = stream.bytes ∧
    input ++ given = trail.flatMap Advance.taken ++ later.input ∧
    (error = .mismatchedBrackets → ∀ more onward final, Driven later more onward final →
      onward = [] ∧ final.position = machine.position ∧
        ∀ other, final.step other = ⟨.failed .mismatchedBrackets, final, other⟩) := by
  obtain ⟨rfl, reason⟩ := Machine.step_failed_iff.mp fails
  refine ⟨rfl, reason, reason.bytes, driven.conserves, ?_⟩
  rintro rfl more onward final further
  have stray := Machine.step_mismatched_iff.mp (congrArg StepResult.outcome fails)
  obtain ⟨nothing, position, still⟩ := further.stuck stray
  exact ⟨nothing, position, fun _ => Machine.step_failed_iff.mpr ⟨rfl, .stray still⟩⟩

/-- The code is `,]`. Of two bytes that it is given it has read one when it fails at the bracket, the other
one is in the queue, and it fails again with another fallback byte on another cell. -/
theorem failing_step_changes_nothing_behind_read :
    ∃ trail machine, Driven (.load (.ofBytes [0x2C, 0x5D]) [7] none) [8] trail machine ∧
      machine.step .empty = ⟨.failed .mismatchedBrackets, machine, .empty⟩ ∧
      [7, 8] = trail.flatMap Advance.taken ++ machine.input ∧ machine.input = [8] ∧
      ∀ other, ({ machine with fallback := some 300, tape := machine.tape.moveRight }).step other =
        ⟨.failed .mismatchedBrackets,
          { machine with fallback := some 300, tape := machine.tape.moveRight }, other⟩ := by
  have given : Driven (.load (.ofBytes [0x2C, 0x5D]) [7] none) [8] [] _ :=
    .change 0 .empty (.push [8]) .start rfl rfl
  have read := given.execute .empty rfl
  have touched (machine : Machine) : Driven machine [] []
      { machine with fallback := some 300, tape := machine.tape.moveRight } :=
    .change 0 .empty .moveRight (.change 0 .empty (.setFallback (some 300)) .start rfl rfl) rfl rfl
  obtain ⟨-, -, -, kept, final⟩ := failing_step_changes_nothing read
    (show Machine.step _ .empty = ⟨.failed .mismatchedBrackets, _, _⟩ from rfl)
  exact ⟨_, _, read, rfl, kept, rfl, (final rfl _ _ _ (touched _)).2.2⟩

end TapeMachine
