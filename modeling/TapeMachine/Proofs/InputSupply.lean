import TapeMachine.Proofs.Concatenation

namespace TapeMachine

theorem Tape.current_write (tape : Tape) (cell : Cell) : (tape.write cell).current = cell := by
  obtain ⟨cells, cursor, inside⟩ := tape
  simp [Tape.write, Tape.current]

/-- The values that reads have stored, the first one first. -/
def readValues (entries : List TraceEntry) : List Nat :=
  (entries.filter (·.op = .input)).map (·.value)

/-- Bytes to be read: those in the queue, and behind them those of a stream that ends. -/
structure Supply where
  queue : List UInt8
  streamed : List UInt8

namespace Supply

def bytes (supply : Supply) : List UInt8 := supply.queue ++ supply.streamed

def stream (supply : Supply) : ByteStream := .ofBytes supply.streamed

/-- What is left when so many bytes have been read. -/
def drop (supply : Supply) (count : Nat) : Supply where
  queue := supply.queue.drop count
  streamed := supply.streamed.drop (count - supply.queue.length)

theorem bytes_drop (supply : Supply) (count : Nat) :
    (supply.drop count).bytes = supply.bytes.drop count := List.drop_append.symm

theorem head?_drop (supply : Supply) (count : Nat) :
    (supply.drop count).bytes.head? = supply.bytes[count]? := by
  rw [bytes_drop, List.head?_drop]

theorem bytes_drop_eq_nil {supply : Supply} {count : Nat} (none : supply.bytes[count]? = none) :
    (supply.drop count).bytes = [] := by
  rw [← List.head?_eq_none_iff, head?_drop, none]

@[simp] theorem drop_zero (supply : Supply) : supply.drop 0 = supply := by
  simp [drop]

theorem drop_drop (supply : Supply) (first second : Nat) :
    (supply.drop first).drop second = supply.drop (first + second) := by
  have behind : first - supply.queue.length + (second - (supply.queue.length - first)) =
      first + second - supply.queue.length := by omega
  simp [drop, behind]

end Supply

/-- The machine with another queue. -/
def Machine.queued (machine : Machine) (input : List UInt8) : Machine :=
  { machine with input := input }

/-- The machine behind a read that has found the byte. -/
def Machine.taking (machine : Machine) (byte : UInt8) : Machine :=
  { machine with position := machine.position + 1, tape := machine.tape.write byte }

/-- The result with another supply left over. -/
def RunResult.supplied (result : RunResult) (left : Supply) : RunResult :=
  { result with machine := result.machine.queued left.queue, stream := left.stream }

theorem Simple.run_without_read {op : Simple} (other : op ≠ .input) (tape : Tape)
    (fallback : Option Int) (output : Array UInt8) :
    ∃ tape' output', ∀ input stream, op.run ⟨tape, input, fallback, output, stream⟩ =
      (.finished, ⟨tape', input, fallback, output', stream⟩) := by
  cases op with
  | input => exact absurd rfl other
  | increment => exact ⟨tape.update Cell.increment, output, fun _ _ => rfl⟩
  | decrement => exact ⟨tape.update Cell.decrement, output, fun _ _ => rfl⟩
  | left => exact ⟨tape.moveLeft, output, fun _ _ => rfl⟩
  | right => exact ⟨tape.moveRight, output, fun _ _ => rfl⟩
  | output => exact ⟨tape, output.push tape.current, fun _ _ => rfl⟩

/-- A step that reads nothing, and so does the same whatever there is to read. -/
structure Machine.StepsBlindly (machine : Machine) (outcome : Outcome) (later : Machine) : Prop where
  step : ∀ input stream, (machine.queued input).step stream = ⟨outcome, later.queued input, stream⟩
  fallback : later.fallback = machine.fallback
  input : later.input = machine.input
  notRead : outcome ≠ .ran .input
  busy : outcome ≠ .waiting
  stray : ∀ error, outcome = .failed error → error = .mismatchedBrackets

namespace Machine

variable {machine : Machine}

theorem StepsBlindly.same {outcome other : Outcome} {later found : Machine} {stream left : ByteStream}
    (blind : machine.StepsBlindly outcome later) (step : machine.step stream = ⟨other, found, left⟩) :
    other = outcome ∧ found = later.queued machine.input ∧ left = stream :=
  StepResult.mk.inj (step.symm.trans (blind.step machine.input stream))

/-- Only reads look at the queue and the stream. -/
theorem step_without_read (other : machine.peek ≠ some .input) :
    ∃ outcome later, machine.StepsBlindly outcome later := by
  rcases next : machine.peek with _ | op
  · have here (input : List UInt8) : (machine.queued input).peek = none := next
    exact ⟨.ended, machine, fun _ _ => step_end (here _) _, rfl, rfl, by simp, by simp, by simp⟩
  have here (input : List UInt8) : (machine.queued input).peek = some op := next
  have executes : op ≠ .input := fun read => other (read ▸ next)
  obtain ⟨code, position, tape, input, fallback, output⟩ := machine
  rcases op.bracket_or_simple with isBracket | ⟨plain, rfl⟩
  · rcases paired : code.partner? position with _ | partner
    · refine ⟨.failed .mismatchedBrackets, ⟨code, position, tape, input, fallback, output⟩,
        fun input stream => ?_, rfl, rfl, by simp, by simp, by simp⟩
      rw [step_bracket (here input) isBracket]
      simp only [queued, paired]
    · refine ⟨.ran op, ⟨code, if op.jumps tape.current then partner + 1 else position + 1, tape, input,
        fallback, output⟩, fun input stream => ?_, rfl, rfl, by simpa using executes, by simp, by simp⟩
      rw [step_bracket (here input) isBracket]
      simp only [queued, paired]
      rfl
  · have notRead : plain ≠ .input := fun read => executes (read ▸ rfl)
    obtain ⟨tape', output', run⟩ := Simple.run_without_read notRead tape fallback output
    refine ⟨.ran plain.instruction, ⟨code, position + 1, tape', input, fallback, output'⟩,
      fun input stream => ?_, rfl, rfl, by simpa using executes, by simp, by simp⟩
    rw [step_simple (here input), config, queued, run]
    rfl

/-- Without a fallback byte, a read takes the first byte of the supply, wherever that waits. -/
theorem step_taking (next : machine.peek = some .input) (dry : machine.fallback = none)
    {supply : Supply} {byte : UInt8} (there : supply.bytes.head? = some byte) :
    (machine.queued supply.queue).step supply.stream =
      ⟨.ran .input, (machine.taking byte).queued (supply.drop 1).queue, (supply.drop 1).stream⟩ := by
  obtain ⟨code, position, tape, input, fallback, output⟩ := machine
  obtain rfl : fallback = none := dry
  obtain ⟨queue, streamed⟩ := supply
  have here : (queued ⟨code, position, tape, input, none, output⟩ queue).peek = some .input := next
  rw [step, here]
  rcases queue with _ | ⟨first, queue⟩
  · obtain ⟨more, rfl⟩ : ∃ more, streamed = byte :: more := List.head?_eq_some_iff.mp there
    rfl
  · obtain rfl : first = byte := Option.some.inj there
    have kept : 1 - (queue.length + 1) = 0 := by omega
    simp only [Supply.drop, List.length_cons, kept]
    rfl

theorem step_spent (next : machine.peek = some .input) (dry : machine.fallback = none)
    {supply : Supply} (spent : supply.bytes = []) :
    (machine.queued supply.queue).step supply.stream =
      ⟨.failed .endOfInput, machine.queued supply.queue, supply.stream⟩ := by
  obtain ⟨code, position, tape, input, fallback, output⟩ := machine
  obtain rfl : fallback = none := dry
  obtain ⟨queue, streamed⟩ := supply
  obtain ⟨rfl, rfl⟩ := List.append_eq_nil_iff.mp spent
  have here : (queued ⟨code, position, tape, input, none, output⟩ []).peek = some .input := next
  rw [step, here]
  rfl

/-- With a fallback byte, a read never fails and never looks at the stream. -/
theorem step_falling_back (next : machine.peek = some .input) {byte : UInt8}
    (fallback : machine.fallback = some (byte.toNat : Int)) (stream : ByteStream) :
    machine.step stream =
      ⟨.ran .input, (machine.taking (machine.input.head?.getD byte)).queued (machine.input.drop 1),
        stream⟩ := by
  obtain ⟨code, position, tape, input, _, output⟩ := machine
  obtain rfl := fallback
  rw [step, next]
  rcases input with _ | ⟨first, input⟩
  · simp only [read, Cell.ofInt?_toNat]
    rfl
  · rfl

end Machine

/-- How many bytes have been read. -/
def readCount (trail : List Advance) : Nat := (readValues (trail.map Advance.entry)).length

section Count

variable {trail : List Advance} {advance : Advance}

theorem readValues_concat_read (read : advance.op = .input) :
    readValues ((trail ++ [advance]).map Advance.entry) =
      readValues (trail.map Advance.entry) ++ [advance.after.tape.current.toNat] := by
  simp [readValues, Advance.entry, read]

theorem readValues_concat_other (other : advance.op ≠ .input) :
    readValues ((trail ++ [advance]).map Advance.entry) = readValues (trail.map Advance.entry) := by
  simp [readValues, Advance.entry, other]

theorem readCount_concat_read (read : advance.op = .input) :
    readCount (trail ++ [advance]) = readCount trail + 1 := by
  rw [readCount, readValues_concat_read read, List.length_append]
  rfl

theorem readCount_concat_other (other : advance.op ≠ .input) :
    readCount (trail ++ [advance]) = readCount trail := by
  rw [readCount, readValues_concat_other other]
  rfl

end Count

/-- Where a path without a fallback byte has come to: the bytes it has read are the first ones of the
supply, in their order, and the others are still there. -/
structure Supply.Spent (supply : Supply) (trail : List Advance) (last : Machine) (rest : ByteStream) :
    Prop where
  dry : last.fallback = none
  input : last.input = (supply.drop (readCount trail)).queue
  stream : rest = (supply.drop (readCount trail)).stream
  values : readValues (trail.map Advance.entry) =
    (supply.bytes.take (readCount trail)).map UInt8.toNat

namespace Supply.Spent

variable {supply : Supply} {trail : List Advance} {machine later : Machine} {rest left : ByteStream}
  {op : Instruction}

/-- A read finds the next byte of the supply. -/
theorem step_read (spent : supply.Spent trail machine rest) (next : machine.peek = some .input)
    {byte : UInt8} (there : supply.bytes[readCount trail]? = some byte) :
    machine.step rest =
      ⟨.ran .input, (machine.taking byte).queued (supply.drop (readCount trail + 1)).queue,
        (supply.drop (readCount trail + 1)).stream⟩ := by
  have took := Machine.step_taking next spent.dry ((supply.head?_drop _).trans there)
  rw [← spent.input, ← spent.stream, supply.drop_drop] at took
  exact took

/-- Behind the last byte of the supply a read fails. -/
theorem step_failing (spent : supply.Spent trail machine rest) (next : machine.peek = some .input)
    (none : supply.bytes[readCount trail]? = none) :
    machine.step rest = ⟨.failed .endOfInput, machine, rest⟩ := by
  have stuck := Machine.step_spent next spent.dry (bytes_drop_eq_nil none)
  rw [← spent.input, ← spent.stream] at stuck
  exact stuck

/-- What an executed instruction was: one that does the same with any supply, or a read of the next
byte. -/
theorem ran (spent : supply.Spent trail machine rest)
    (step : machine.step rest = ⟨.ran op, later, left⟩) :
    (op ≠ .input ∧ later.fallback = machine.fallback ∧ later.input = machine.input ∧ left = rest ∧
      ∀ input stream, (machine.queued input).step stream = ⟨.ran op, later.queued input, stream⟩) ∨
    (op = .input ∧ machine.peek = some .input ∧ ∃ byte, supply.bytes[readCount trail]? = some byte ∧
      later = (machine.taking byte).queued (supply.drop (readCount trail + 1)).queue ∧
      left = (supply.drop (readCount trail + 1)).stream) := by
  by_cases next : machine.peek = some .input
  · right
    rcases there : supply.bytes[readCount trail]? with _ | byte
    · cases step.symm.trans (spent.step_failing next there)
    · obtain ⟨read, rfl, rfl⟩ := StepResult.mk.inj (step.symm.trans (spent.step_read next there))
      exact ⟨Outcome.ran.inj read, next, byte, rfl, rfl, rfl⟩
  · left
    obtain ⟨outcome, same, blind⟩ := Machine.step_without_read next
    obtain ⟨rfl, rfl, rfl⟩ := blind.same step
    exact ⟨fun read => blind.notRead (read ▸ rfl), blind.fallback, rfl, rfl, blind.step⟩

theorem next (spent : supply.Spent trail machine rest)
    (step : machine.step rest = ⟨.ran op, later, left⟩) :
    supply.Spent (trail ++ [⟨machine, op, later⟩]) later left := by
  rcases spent.ran step with ⟨other, fallback, input, rfl, -⟩ | ⟨rfl, -, byte, there, rfl, rfl⟩
  · refine ⟨fallback.trans spent.dry, ?_, ?_, ?_⟩
    · rw [readCount_concat_other other, input, spent.input]
    · rw [readCount_concat_other other, spent.stream]
    · rw [readCount_concat_other other, readValues_concat_other other, spent.values]
  · refine ⟨spent.dry, ?_, ?_, ?_⟩
    · rw [readCount_concat_read rfl]
      rfl
    · rw [readCount_concat_read rfl]
    · rw [readCount_concat_read rfl, readValues_concat_read rfl, spent.values, List.take_add_one, there,
        List.map_append]
      exact congrArg (_ ++ [UInt8.toNat ·]) (machine.tape.current_write byte)

/-- A run fails for the lack of a byte only when it has read them all. -/
theorem length_le (spent : supply.Spent trail machine rest)
    (step : machine.step rest = ⟨.failed .endOfInput, later, left⟩) :
    supply.bytes.length ≤ readCount trail := by
  by_cases next : machine.peek = some .input
  · by_contra more
    have there := List.getElem?_eq_getElem (Nat.lt_of_not_le more)
    cases step.symm.trans (spent.step_read next there)
  · obtain ⟨outcome, same, blind⟩ := Machine.step_without_read next
    obtain ⟨rfl, -⟩ := blind.same step
    cases blind.stray _ rfl

/-- A run that comes to rest does so with any other supply, unless it is for the lack of a byte that
the other supply still has. -/
theorem rests {outcome : Outcome} {finish : RunEnd} (spent : supply.Spent trail machine rest)
    (step : machine.step rest = ⟨outcome, later, left⟩) (rests : outcome.rest? = some finish)
    {other : Supply} (alike : finish = .failed .endOfInput → other.bytes = supply.bytes) :
    (machine.queued (other.drop (readCount trail)).queue).step (other.drop (readCount trail)).stream =
      ⟨outcome, later.queued (other.drop (readCount trail)).queue,
        (other.drop (readCount trail)).stream⟩ := by
  by_cases next : machine.peek = some .input
  · rcases there : supply.bytes[readCount trail]? with _ | byte
    · obtain ⟨rfl, rfl, -⟩ := StepResult.mk.inj (step.symm.trans (spent.step_failing next there))
      rw [← alike (Option.some.inj rests).symm] at there
      exact Machine.step_spent next spent.dry (bytes_drop_eq_nil there)
    · obtain ⟨rfl, -⟩ := StepResult.mk.inj (step.symm.trans (spent.step_read next there))
      cases rests
  · obtain ⟨outcome, same, blind⟩ := Machine.step_without_read next
    obtain ⟨rfl, rfl, rfl⟩ := blind.same step
    exact blind.step _ _

end Supply.Spent

namespace Path

variable {code : Code} {supply : Supply} {trail : List Advance} {last : Machine} {rest : ByteStream}

theorem spent (path : Path (Machine.load code supply.queue none) supply.stream trail last rest) :
    supply.Spent trail last rest := by
  generalize start : Machine.load code supply.queue none = initial at path
  generalize begins : supply.stream = stream at path
  induction path with
  | start =>
    subst start begins
    exact ⟨rfl, by simp [readCount, readValues, Machine.load], by simp [readCount, readValues],
      by simp [readCount, readValues]⟩
  | next _ step ih => exact ih.next step

/-- A path is the same with any other supply that begins with the bytes it has read. -/
theorem resupply (path : Path (Machine.load code supply.queue none) supply.stream trail last rest)
    {other : Supply}
    (same : other.bytes.take (readCount trail) = supply.bytes.take (readCount trail)) :
    ∃ trail', trail'.map Advance.entry = trail.map Advance.entry ∧
      Path (Machine.load code other.queue none) other.stream trail'
        (last.queued (other.drop (readCount trail)).queue) (other.drop (readCount trail)).stream := by
  generalize start : Machine.load code supply.queue none = initial at path
  generalize begins : supply.stream = stream at path
  induction path with
  | start =>
    subst start begins
    refine ⟨[], rfl, ?_⟩
    have none : readCount [] = 0 := rfl
    rw [none, other.drop_zero]
    exact .start
  | @next trail machine later rest left op path step ih =>
    subst start begins
    rcases path.spent.ran step with ⟨notRead, -, -, -, steps⟩ | ⟨rfl, next, byte, there, rfl, -⟩
    · rw [readCount_concat_other notRead] at same ⊢
      obtain ⟨trail', entries, path'⟩ := ih same
      exact ⟨_, by simp [entries, Advance.entry, Machine.queued], path'.next (steps _ _)⟩
    · rw [readCount_concat_read rfl] at same ⊢
      have before : other.bytes.take (readCount trail) = supply.bytes.take (readCount trail) := by
        simpa [List.take_take] using congrArg (List.take (readCount trail)) same
      have taken : other.bytes[readCount trail]? = some byte := by
        have bound := Nat.lt_succ_self (readCount trail)
        rw [← List.getElem?_take_of_lt bound, same, List.getElem?_take_of_lt bound, there]
      obtain ⟨trail', entries, path'⟩ := ih before
      have took := Machine.step_taking next path.spent.dry ((other.head?_drop _).trans taken)
      rw [other.drop_drop] at took
      exact ⟨_, by simp [entries, Advance.entry, Machine.queued], path'.next took⟩

end Path

/-- A run without a fallback byte is the same with any other supply that begins with the bytes it
reads, and that ends with them if the run lacks a further byte. -/
theorem trace_resupply (code : Code) (supply other : Supply) (budget : Nat) :
    let run := (Machine.load code supply.queue none).trace budget supply.stream
    let count := (readValues run.1).length
    readValues run.1 = (supply.bytes.take count).map UInt8.toNat ∧
      (run.2.finish = .failed .endOfInput → supply.bytes.length ≤ count) ∧
      (other.bytes.take count = supply.bytes.take count →
        (run.2.finish = .failed .endOfInput → other.bytes = supply.bytes) →
        (Machine.load code other.queue none).trace budget other.stream =
          (run.1, run.2.supplied (other.drop count))) := by
  intro run
  rcases (Machine.load code supply.queue none).run_cases supply.stream budget with
    ⟨trail, last, rest, path, rfl⟩ |
    ⟨trail, last, rest, outcome, finish, later, left, path, within, step, rests⟩
  · have traced : run = _ := path.trace_exhausted
    clear_value run
    subst traced
    refine ⟨path.spent.values, fun failed => (by cases failed), fun same _ => ?_⟩
    obtain ⟨trail', entries, path'⟩ := path.resupply same
    have length : trail'.length = trail.length := by simpa using congrArg List.length entries
    rw [← length, path'.trace_exhausted, entries]
    rfl
  · have traced : run = _ := path.trace_rest step rests within
    clear_value run
    subst traced
    refine ⟨path.spent.values, fun failed => ?_, fun same alike => ?_⟩
    · obtain rfl : finish = .failed .endOfInput := failed
      obtain rfl : outcome = .failed .endOfInput := by cases outcome <;> simp_all [Outcome.rest?]
      exact path.spent.length_le step
    obtain ⟨trail', entries, path'⟩ := path.resupply same
    have length : trail'.length = trail.length := by simpa using congrArg List.length entries
    rw [path'.trace_rest (path.spent.rests step rests alike) rests (by omega), entries, length]
    rfl

/-- What a run with a fallback byte has read by then: the bytes of the queue while there were any,
and the fallback byte from then on. -/
structure FellBack (queue : List UInt8) (byte : UInt8) (trail : List Advance) (last : Machine) :
    Prop where
  fallback : last.fallback = some (byte.toNat : Int)
  input : last.input = queue.drop (readCount trail)
  values : readValues (trail.map Advance.entry) =
    (List.range (readCount trail)).map fun read => (queue[read]?.getD byte).toNat

namespace Path

variable {code : Code} {queue : List UInt8} {byte : UInt8} {stream rest : ByteStream}
  {trail : List Advance} {last : Machine}

theorem fellBack
    (path : Path (Machine.load code queue (some (byte.toNat : Int))) stream trail last rest) :
    rest = stream ∧ FellBack queue byte trail last := by
  generalize start : Machine.load code queue (some (byte.toNat : Int)) = initial at path
  induction path with
  | start =>
    subst start
    exact ⟨rfl, rfl, rfl, rfl⟩
  | @next trail machine later rest left op path step ih =>
    obtain ⟨rfl, fallback, input, values⟩ := ih
    by_cases next : machine.peek = some .input
    · have took := Machine.step_falling_back next fallback rest
      obtain ⟨read, rfl, rfl⟩ := StepResult.mk.inj (step.symm.trans took)
      obtain rfl := Outcome.ran.inj read
      refine ⟨rfl, fallback, ?_, ?_⟩
      · rw [readCount_concat_read rfl, ← List.drop_drop, ← input]
        rfl
      · rw [readCount_concat_read rfl, readValues_concat_read rfl, values, List.range_succ,
          List.map_append, List.map_singleton, ← List.head?_drop, ← input]
        exact congrArg (_ ++ [UInt8.toNat ·]) (machine.tape.current_write _)
    · obtain ⟨outcome, same, blind⟩ := Machine.step_without_read next
      obtain ⟨rfl, rfl, rfl⟩ := blind.same step
      have notRead : op ≠ .input := fun read => blind.notRead (read ▸ rfl)
      refine ⟨rfl, blind.fallback.trans fallback, ?_, ?_⟩
      · rw [readCount_concat_other notRead]
        exact input
      · rw [readCount_concat_other notRead, readValues_concat_other notRead, values]

end Path

/-- With a fallback byte a run comes to rest at the end of its code or at a stray bracket only. -/
theorem FellBack.rests {queue : List UInt8} {byte : UInt8} {trail : List Advance}
    {last later : Machine} {stream left : ByteStream} {outcome : Outcome} {finish : RunEnd}
    (fell : FellBack queue byte trail last) (step : last.step stream = ⟨outcome, later, left⟩)
    (rests : outcome.rest? = some finish) :
    left = stream ∧ (finish = .ended ∨ finish = .failed .mismatchedBrackets) := by
  by_cases next : last.peek = some .input
  · have took := Machine.step_falling_back next fell.fallback stream
    obtain ⟨rfl, -⟩ := StepResult.mk.inj (step.symm.trans took)
    cases rests
  · obtain ⟨outcome, same, blind⟩ := Machine.step_without_read next
    obtain ⟨rfl, rfl, rfl⟩ := blind.same step
    cases outcome with
    | ran op => cases rests
    | waiting => exact absurd rfl blind.busy
    | ended => exact ⟨rfl, .inl (Option.some.inj rests).symm⟩
    | failed error =>
      obtain rfl := blind.stray error rfl
      exact ⟨rfl, .inr (Option.some.inj rests).symm⟩

theorem trace_fallback (code : Code) (queue : List UInt8) (byte : UInt8) (stream : ByteStream)
    (budget : Nat) :
    let run := (Machine.load code queue (some (byte.toNat : Int))).trace budget stream
    let count := (readValues run.1).length
    readValues run.1 = ((List.range count).map fun read => (queue[read]?.getD byte).toNat) ∧
      run.2.machine.input = queue.drop count ∧ run.2.stream = stream ∧
      (run.2.finish = .exhausted ∨ run.2.finish = .ended ∨
        run.2.finish = .failed .mismatchedBrackets) := by
  intro run
  rcases (Machine.load code queue (some (byte.toNat : Int))).run_cases stream budget with
    ⟨trail, last, rest, path, rfl⟩ |
    ⟨trail, last, rest, outcome, finish, later, left, path, within, step, rests⟩
  · have traced : run = _ := path.trace_exhausted
    clear_value run
    obtain ⟨rfl, fell⟩ := path.fellBack
    subst traced
    exact ⟨fell.values, fell.input, rfl, .inl rfl⟩
  · have traced : run = _ := path.trace_rest step rests within
    clear_value run
    obtain ⟨rfl, fell⟩ := path.fellBack
    obtain ⟨rfl, finishes⟩ := fell.rests step rests
    obtain rfl := Machine.eq_of_rests step rests
    subst traced
    exact ⟨fell.values, fell.input, rfl, .inr finishes⟩

/-- Two runs have come to the same, apart from what there is left to read. -/
structure RunResult.Alike (result other : RunResult) : Prop where
  position : result.machine.position = other.machine.position
  tape : result.machine.tape = other.machine.tape
  output : result.machine.output = other.machine.output
  steps : result.steps = other.steps
  finish : result.finish = other.finish

theorem RunResult.alike_supplied (result : RunResult) (left : Supply) :
    (result.supplied left).Alike result := ⟨rfl, rfl, rfl, rfl, rfl⟩

/-- It does not matter where bytes wait to be read. Moving some of them from the beginning of the stream
to the end of the queue changes neither the executed instructions nor what they lead to; the bytes are
read in their order, those that have not been read are still there, and none of these matters: they may be
any others. With a fallback byte the reads take the bytes of the queue and then that byte for ever, from no
stream, and no read fails. -/
theorem input_place_immaterial (code : Code) (first second third : List UInt8) (budget : Nat) :
    let bytes := first ++ second ++ third
    let streamed := (Machine.load code first none).trace budget (.ofBytes (second ++ third))
    let queued := (Machine.load code (first ++ second) none).trace budget (.ofBytes third)
    let count := (readValues streamed.1).length
    (queued.1 = streamed.1 ∧ queued.2.Alike streamed.2) ∧
    readValues streamed.1 = (bytes.take count).map UInt8.toNat ∧
    (∀ result ∈ [streamed.2, queued.2], ∃ left, result.stream = .ofBytes left ∧
      result.machine.input ++ left = bytes.drop count) ∧
    (streamed.2.finish = .failed .endOfInput → bytes.drop count = []) ∧
    (streamed.2.finish ≠ .failed .endOfInput → ∀ queue left,
      (queue ++ left).take count = bytes.take count →
      let other := (Machine.load code queue none).trace budget (.ofBytes left)
      other.1 = streamed.1 ∧ other.2.Alike streamed.2) ∧
    ∀ (fallback : UInt8) (stream : ByteStream),
      let run := (Machine.load code first (some (fallback.toNat : Int))).trace budget stream
      let reads := (readValues run.1).length
      (∀ read < reads, (readValues run.1)[read]? = some (first[read]?.getD fallback).toNat) ∧
      run.2.machine.input = first.drop reads ∧ run.2.stream = stream ∧
      (run.2.finish = .exhausted ∨ run.2.finish = .ended ∨
        run.2.finish = .failed .mismatchedBrackets) := by
  intro bytes streamed queued count
  have assoc : first ++ (second ++ third) = bytes := (List.append_assoc ..).symm
  obtain ⟨values, spent, -⟩ :=
    trace_resupply code ⟨first, second ++ third⟩ ⟨first, second ++ third⟩ budget
  simp only [Supply.bytes, assoc] at values spent
  have resupplied (queue left : List UInt8) (same : (queue ++ left).take count = bytes.take count)
      (alike : streamed.2.finish = .failed .endOfInput → queue ++ left = bytes) :
      (Machine.load code queue none).trace budget (.ofBytes left) =
        (streamed.1, streamed.2.supplied (Supply.drop ⟨queue, left⟩ count)) := by
    have resumes := (trace_resupply code ⟨first, second ++ third⟩ ⟨queue, left⟩ budget).2.2
    simp only [Supply.bytes, assoc] at resumes
    exact resumes same alike
  have own : streamed = _ := resupplied first (second ++ third) (congrArg _ assoc) fun _ => assoc
  have moved : queued = _ := resupplied (first ++ second) third rfl fun _ => rfl
  have left {result : RunResult} (other : Supply) (same : other.bytes = bytes)
      (supplied : result = streamed.2.supplied (other.drop count)) :
      ∃ left, result.stream = .ofBytes left ∧ result.machine.input ++ left = bytes.drop count := by
    subst supplied
    exact ⟨_, rfl, (other.bytes_drop count).trans (congrArg _ same)⟩
  refine ⟨?_, values, ?_, fun failed => List.drop_of_length_le (spent failed), ?_, ?_⟩
  · rw [moved]
    exact ⟨rfl, streamed.2.alike_supplied _⟩
  · intro result member
    rcases List.mem_pair.mp member with rfl | rfl
    · exact left ⟨first, second ++ third⟩ assoc (congrArg Prod.snd own)
    · exact left ⟨first ++ second, third⟩ rfl (congrArg Prod.snd moved)
  · intro unspent queue more same other
    have resumed : other = _ := resupplied queue more same fun failed => absurd failed unspent
    rw [resumed]
    exact ⟨rfl, streamed.2.alike_supplied _⟩
  · intro fallback stream run reads
    obtain ⟨values, fell⟩ := trace_fallback code first fallback stream budget
    refine ⟨fun read bound => ?_, fell⟩
    rw [values, List.getElem?_map, List.getElem?_range bound, Option.map_some]

end TapeMachine
