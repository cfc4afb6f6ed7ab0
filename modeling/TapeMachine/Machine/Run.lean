import TapeMachine.Machine

namespace TapeMachine

/-- Why a run came to rest. -/
inductive RunEnd where
  | ended
  | failed (error : StepError)
  | waiting
  | exhausted
  deriving DecidableEq, Repr

/-- Where a run came to rest, and how many instructions it executed. -/
structure RunResult where
  machine : Machine
  stream : ByteStream
  steps : Nat
  finish : RunEnd

/-- One executed instruction: where it stood, where the machine went, and the cell under the
cursor afterwards. -/
structure TraceEntry where
  op : Instruction
  before : Nat
  after : Nat
  cursor : Nat
  value : Nat
  deriving DecidableEq, Repr

namespace Machine

/-- Goes on after `done` steps, for at most `budget` more, so that every run is a finite
computation. -/
def runFrom (budget done : Nat) (machine : Machine) (stream : ByteStream) : RunResult :=
  match budget with
  | 0 => ⟨machine, stream, done, .exhausted⟩
  | budget + 1 =>
    match machine.step stream with
    | ⟨.ran _, machine, stream⟩ => runFrom budget (done + 1) machine stream
    | ⟨.ended, machine, stream⟩ => ⟨machine, stream, done, .ended⟩
    | ⟨.failed error, machine, stream⟩ => ⟨machine, stream, done, .failed error⟩
    | ⟨.waiting, machine, stream⟩ => ⟨machine, stream, done, .waiting⟩

/-- Runs until the code ends or fails, for at most `budget` steps. -/
def run (budget : Nat) (machine : Machine) (stream : ByteStream) : RunResult :=
  runFrom budget 0 machine stream

/-- A run that keeps a record of each step, the latest first. -/
def traceFrom (budget : Nat) (seen : List TraceEntry) (machine : Machine) (stream : ByteStream) :
    List TraceEntry × RunResult :=
  match budget with
  | 0 => (seen, ⟨machine, stream, seen.length, .exhausted⟩)
  | budget + 1 =>
    let before := machine.position
    match machine.step stream with
    | ⟨.ran op, machine, stream⟩ =>
      let tape := machine.tape
      let entry := ⟨op, before, machine.position, tape.cursor, tape.current.toNat⟩
      traceFrom budget (entry :: seen) machine stream
    | ⟨.ended, machine, stream⟩ => (seen, ⟨machine, stream, seen.length, .ended⟩)
    | ⟨.failed error, machine, stream⟩ => (seen, ⟨machine, stream, seen.length, .failed error⟩)
    | ⟨.waiting, machine, stream⟩ => (seen, ⟨machine, stream, seen.length, .waiting⟩)

/-- A run of at most `budget` steps with the record of its steps. -/
def trace (budget : Nat) (machine : Machine) (stream : ByteStream) :
    List TraceEntry × RunResult :=
  let (seen, result) := traceFrom budget [] machine stream
  (seen.reverse, result)

end Machine

end TapeMachine
