import TapeMachine.Tape
import TapeMachine.Text.Utf8

namespace TapeMachine

inductive Status where
  | running
  | waitingForInput
  | done
  | error (message : String)
  | fatal (message : String)
  deriving DecidableEq, Repr

namespace Status

def kind : Status → String
  | running => "running"
  | waitingForInput => "waiting_for_input"
  | done => "done"
  | error _ => "error"
  | fatal _ => "fatal_error"

def label : Status → String
  | running => "Running…"
  | waitingForInput => "Waiting for Input…"
  | done => "Done"
  | error _ | fatal _ => "ERROR"

/-- The message of a failure; empty for every other status. -/
def message : Status → String
  | error message | fatal message => message
  | _ => ""

def isError : Status → Bool
  | error _ | fatal _ => true
  | _ => false

def isFatal : Status → Bool
  | fatal _ => true
  | _ => false

/-- Nothing is published about a run after a terminal status. -/
def isTerminal : Status → Bool
  | done | error _ | fatal _ => true
  | _ => false

end Status

/-- A status with the tape and the output that go with it. -/
structure Snapshot where
  status : Status
  tape : Tape
  output : Array UInt8
  deriving DecidableEq

namespace Snapshot

/-- A blank tape and no output. -/
def fresh (status : Status) : Snapshot := ⟨status, .blank, #[]⟩

def text (snapshot : Snapshot) : String := Utf8.decode snapshot.output.toList

end Snapshot

end TapeMachine
