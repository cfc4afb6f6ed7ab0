import TapeMachine.Live.System

namespace TapeMachine.Live

/-- Freezes the worker inside its run, just after some number of accepted publications. `upcoming`
is the limit for the runs that begin later, `limit` the one of the present run. `count` counts the
accepted publications of the present run. -/
structure Gate where
  upcoming : Option Nat
  limit : Option Nat
  count : Nat
  held : Bool
  deriving DecidableEq, Repr

namespace Gate

def start (limit : Option Nat) : Gate := ⟨limit, none, 0, false⟩

/-- Whether a count has reached the limit; a run without limit is never frozen. -/
def reached (limit : Option Nat) (count : Nat) : Bool :=
  match limit with
  | some limit => limit ≤ count
  | none => false

/-- What the gate makes of an event. Every accepted publication counts, and one that is not the
last of its run may freeze the worker. -/
def note (gate : Gate) : Event → Gate
  | .began _ => { gate with limit := gate.upcoming, count := 0, held := false }
  | .published _ ⟨_, snapshot, true⟩ =>
    let count := gate.count + 1
    { gate with
      count := count
      held := !snapshot.status.isTerminal && reached gate.limit count }
  | _ => gate

/-- No more freezing in this run. -/
def release (gate : Gate) : Gate := { gate with limit := none, held := false }

/-- Moves the limit to `more` publications after those made so far, if the run has a limit. -/
def advance (gate : Gate) (more : Nat) : Gate :=
  match gate.limit with
  | none => gate
  | some _ =>
    let limit := some (gate.count + more)
    { gate with limit := limit, held := gate.held && reached limit gate.count }

end Gate

end TapeMachine.Live
