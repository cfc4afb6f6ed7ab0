import TapeMachine.Program
import TapeMachine.Status
import TapeMachine.SharedCell
import TapeMachine.Log

namespace TapeMachine.Live

/-- A program under the number of the call that handed it in. The program that is there from the
start has ticket 0, the program of call `i` has ticket `i + 1`. -/
structure Job where
  ticket : Nat
  program : Program
  deriving DecidableEq, Repr

/-- A job that the worker executes, and how far it is. -/
structure Run where
  job : Job
  machine : Machine

def Run.ofJob (job : Job) : Run := ⟨job, job.program.machine⟩

def Run.snapshot (run : Run) (status : Status) : Snapshot :=
  ⟨status, run.machine.tape, run.machine.output⟩

/-- Who can stand at the barrier. -/
inductive Party where
  | worker
  | call (id : Nat)
  deriving DecidableEq, Repr

/-- A meeting point for two. Whoever comes first waits; the second one completes the meeting. A
broken barrier turns everybody away. -/
structure Barrier where
  waiting : Option Party
  broken : Bool
  deriving DecidableEq, Repr

/-- Where the worker has got to. The names say what it does next. -/
inductive Worker where
  | starting
  | opening
  | loading
  | checkingStop (run : Run)
  | checkingClosed (run : Run)
  | announcing (run : Run)
  | stepping (run : Run)
  | reporting (run : Run)
  | concluding (run : Run) (status : Status)
  | crashing
  | arriving
  | waiting
  | returning
  | leaving
  | gone

def Worker.run? : Worker → Option Run
  | checkingStop run | checkingClosed run | announcing run | stepping run | reporting run
  | concluding run _ => some run
  | _ => none

inductive RestartError where
  | invalid (error : RequestError)
  | shutDown
  | poisoned
  deriving DecidableEq, Repr

def RestartError.message : RestartError → String
  | invalid error => error.message
  | shutDown => "restart() on a shut down AsyncInterpreter"
  | poisoned => poisonedMessage

inductive RestartStage where
  | locking (program : Program)
  | checking (program : Program)
  | stopping (program : Program)
  | storing (program : Program)
  | arriving
  | waiting
  | returning
  | clearing
  | unlocking (result : Except RestartError Unit)
  | finished (result : Except RestartError Unit)

inductive ShutdownStage where
  | closing
  | stopping
  | breaking
  | joining
  | finished
  deriving DecidableEq, Repr

/-- A call in progress, or one that has returned. -/
inductive Call where
  | restart (stage : RestartStage)
  | shutdown (stage : ShutdownStage)

def Call.result? : Call → Option (Except RestartError Unit)
  | restart (.finished result) => some result
  | _ => none

/-- Everything the parties share, and where each of them is. One worker runs one program at a time
and publishes a snapshot after every step; callers replace the program while it runs. Worker and
caller meet at a barrier, so that the old run is over and its last snapshot gone when the new run
begins. Calls are numbered in the order in which they were made. `lock` is the restart that has the
right to change the program. -/
structure System where
  name : String
  stop : Bool
  closed : Bool
  barrier : Barrier
  lock : Option Nat
  program : SharedCell (Option Job)
  state : SharedCell Snapshot
  stream : ByteStream
  worker : Worker
  calls : List Call

/-- A published snapshot, with the position of the machine and whether the state cell took it. -/
structure Publication where
  position : Nat
  snapshot : Snapshot
  accepted : Bool
  deriving DecidableEq

inductive Event where
  | logged (entry : LogEntry)
  | began (ticket : Nat)
  | executed (ticket : Nat) (op : Instruction)
  | published (ticket : Nat) (publication : Publication)
  | met (first second : Party)

namespace System

/-- The worker is about to start. Nothing has been published, which shows as a finished run on a
blank tape. -/
def start (name : String) (program : Option Program) (stream : ByteStream) : System where
  name := name
  stop := false
  closed := false
  barrier := ⟨none, false⟩
  lock := none
  program := .new (program.map fun program => ⟨0, program⟩)
  state := .new (.fresh .done)
  stream := stream
  worker := .starting
  calls := []

/-- The latest snapshot, as observers see it at any moment. -/
def look (system : System) : Snapshot :=
  match system.state.load? with
  | some snapshot => snapshot
  | none => .fresh (.fatal poisonedMessage)

def setCall (system : System) (id : Nat) (call : Call) : System :=
  { system with calls := system.calls.set id call }

def moveWorker (system : System) (worker : Worker) : System := { system with worker := worker }

def moveRestart (system : System) (id : Nat) (stage : RestartStage) : System :=
  system.setCall id (.restart stage)

/-- The worker's thread has not ended. -/
def alive (system : System) : Bool :=
  match system.worker with
  | .gone => false
  | _ => true

end System

end TapeMachine.Live
