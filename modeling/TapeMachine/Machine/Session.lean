import TapeMachine.Machine.Run

namespace TapeMachine

/-- What a machine that is driven by hand is told to do. -/
inductive Order where
  | step (times : Nat)
  | next
  | remaining
  | run
  | push (bytes : List UInt8)
  | setFallback (value : Option Int)
  | writeCell (value : Int)
  | moveRight
  | moveLeft
  | clearOutput
  | newTape
  deriving DecidableEq, Repr

inductive Reply where
  | nothing
  | executed (ops : List (Option Instruction))
  | single (op : Instruction)
  | joined (ops : List Instruction)
  | output (bytes : Array UInt8)
  | exhausted
  | failed (error : StepError)
  | waiting
  deriving DecidableEq, Repr

namespace Machine

/-- Makes a number of steps. The answer has one place for each, empty from the end of the code
on; a failure takes the place of the answer and keeps what was done before it. -/
def stepTimes (times : Nat) (done : List (Option Instruction)) (machine : Machine)
    (stream : ByteStream) : Reply × Machine × ByteStream :=
  match times with
  | 0 => (.executed done.reverse, machine, stream)
  | times + 1 =>
    match machine.step stream with
    | ⟨.ended, machine, stream⟩ => stepTimes times (none :: done) machine stream
    | ⟨.ran op, machine, stream⟩ => stepTimes times (some op :: done) machine stream
    | ⟨.failed error, machine, stream⟩ => (.failed error, machine, stream)
    | ⟨.waiting, machine, stream⟩ => (.waiting, machine, stream)

/-- What a run answers, if `whole` says what to answer at the end of the code. -/
def conclude (result : RunResult) (whole : Reply) : Reply × Machine × ByteStream :=
  match result.finish with
  | .failed error => (.failed error, result.machine, result.stream)
  | .waiting => (.waiting, result.machine, result.stream)
  | _ => (whole, result.machine, result.stream)

/-- Carries out an order; runs are cut off after `budget` steps. -/
def obey (budget : Nat) (machine : Machine) (stream : ByteStream) :
    Order → Reply × Machine × ByteStream
  | .step times => machine.stepTimes times [] stream
  | .next =>
    match machine.step stream with
    | ⟨.ended, machine, stream⟩ => (.exhausted, machine, stream)
    | ⟨.ran op, machine, stream⟩ => (.single op, machine, stream)
    | ⟨.failed error, machine, stream⟩ => (.failed error, machine, stream)
    | ⟨.waiting, machine, stream⟩ => (.waiting, machine, stream)
  | .remaining =>
    let (entries, result) := machine.trace budget stream
    conclude result (.joined (entries.map TraceEntry.op))
  | .run =>
    let result := machine.run budget stream
    conclude result (.output result.machine.output)
  | .push bytes => (.nothing, { machine with input := machine.input ++ bytes }, stream)
  | .setFallback value => (.nothing, { machine with fallback := value }, stream)
  | .writeCell value =>
    match Cell.ofInt? value with
    | some cell => (.nothing, { machine with tape := machine.tape.write cell }, stream)
    | none => (.failed (.cellRange value), machine, stream)
  | .moveRight => (.nothing, { machine with tape := machine.tape.moveRight }, stream)
  | .moveLeft => (.nothing, { machine with tape := machine.tape.moveLeft }, stream)
  | .clearOutput => (.nothing, { machine with output := #[] }, stream)
  | .newTape => (.nothing, { machine with tape := .blank }, stream)

/-- Carries out orders one after the other, with the answer and the machine after each. -/
def obeyAll (budget : Nat) (machine : Machine) (stream : ByteStream) :
    List Order → List (Reply × Machine)
  | [] => []
  | order :: orders =>
    let (reply, machine, stream) := machine.obey budget stream order
    (reply, machine) :: obeyAll budget machine stream orders

end Machine

end TapeMachine
