import TapeMachine.Live.Transition
import TapeMachine.Live.Gate

namespace TapeMachine.Live

/-- Where the worker is at rest. -/
inductive Rest where
  | parked
  | reading
  | held
  | dead
  | busy
  deriving DecidableEq, Repr

def Rest.name : Rest → String
  | parked => "parked"
  | reading => "reading"
  | held => "held"
  | dead => "dead"
  | busy => "busy"

/-- A system with its gate, what was seen since the last look (latest first), and the latest
restart that was started without waiting for it. -/
structure Session where
  system : System
  gate : Gate
  seen : List Event
  background : Option Nat

inductive CellName where
  | state
  | program
  deriving DecidableEq, Repr

/-- What can be done with a session. -/
inductive Command where
  | restart (request : Request) (hold : Option Nat)
  | restartAside (request : Request) (hold : Option Nat)
  | feed (items : List StreamItem)
  | advance (more : Nat)
  | release
  | shutdown
  | enter
  | poison (cell : CellName)
  | raiseInside (cell : CellName) (message : String)
  | renew
  deriving DecidableEq, Repr

inductive CommandError where
  | restart (error : RestartError)
  | poisoned
  | raised (message : String)
  deriving DecidableEq, Repr

def CommandError.message : CommandError → String
  | restart error => error.message
  | poisoned => poisonedMessage
  | raised message => message

/-- What a command answers; `unfinished` if its call still waits. -/
inductive Answer where
  | nothing
  | entered
  | unfinished
  | failed (error : CommandError)
  deriving DecidableEq, Repr

namespace Session

def adopt (session : Session) (step : System × List Event) : Session :=
  { session with
    system := step.1
    gate := step.2.foldl Gate.note session.gate
    seen := step.2.reverse ++ session.seen }

/-- A step of the first call that can go on, among the calls from number `id` on. -/
def proceed? (session : Session) : Nat → List Call → Option Session
  | _, [] => none
  | id, .shutdown .joining :: calls => session.proceed? (id + 1) calls
  | id, _ :: calls =>
    match session.system.callStep? id with
    | some step => some (session.adopt step)
    | none => session.proceed? (id + 1) calls

/-- A step of the worker. A frozen worker goes on only if it is told to stop, and is then not
frozen again in this run. -/
def work? (session : Session) : Option Session :=
  if session.gate.held then
    if session.system.stop then some { session with gate := session.gate.release } else none
  else session.system.workerStep?.map session.adopt

/-- Lets calls go as far as they can, then the worker until it is at rest, and so on until nothing
can move, for at most `budget` steps. -/
def settle (budget : Nat) (session : Session) : Session :=
  match budget with
  | 0 => session
  | budget + 1 =>
    match session.proceed? 0 session.system.calls with
    | some session => settle budget session
    | none =>
      match session.work? with
      | some session => settle budget session
      | none => session

/-- A session that has come to rest for the first time. -/
def start (budget : Nat) (name : String) (program : Option Program) (stream : ByteStream)
    (hold : Option Nat) : Session :=
  settle budget ⟨.start name program stream, .start hold, [], none⟩

def rest (session : Session) : Rest :=
  match session.system.worker with
  | .waiting => .parked
  | .gone => .dead
  | .stepping _ => if session.gate.held then .held else .reading
  | _ => if session.gate.held then .held else .busy

/-- The answer of a call that was made as number `id`. -/
def answerOf (session : Session) (id : Nat) : Answer :=
  match session.system.calls[id]? with
  | some (.restart (.finished (.ok ()))) => .nothing
  | some (.restart (.finished (.error error))) => .failed (.restart error)
  | some (.shutdown _) => .nothing
  | _ => .unfinished

/-- Makes a call and lets everything come to rest. -/
def call (budget : Nat) (session : Session) (call : Call) : Session :=
  settle budget { session with system := session.system.addCall call }

/-- The limit for runs that begin from now on. -/
def holdLater (session : Session) (hold : Option Nat) : Session :=
  { session with gate := { session.gate with upcoming := hold } }

/-- Replaces the program and waits until that is done. -/
def restart (budget : Nat) (session : Session) (request : Request) : Answer × Session :=
  let id := session.system.calls.length
  let session := session.call budget (.ofRequest request)
  (session.answerOf id, session)

def shutdown (budget : Nat) (session : Session) : Session :=
  let session := session.call budget (.shutdown .closing)
  let id := session.system.calls.length - 1
  match session.system.callStep? id with
  | some step => session.adopt step
  | none => session

def poison (session : Session) : CellName → Session
  | .state => { session with system.state := session.system.state.poison }
  | .program => { session with system.program := session.system.program.poison }

def isPoisoned (session : Session) : CellName → Bool
  | .state => session.system.state.poisoned
  | .program => session.system.program.poisoned

/-- Carries out a command and lets everything come to rest. -/
def obey (budget : Nat) (session : Session) : Command → Answer × Session
  | .restart request hold => (session.holdLater hold).restart budget request
  | .restartAside request hold =>
    let id := session.system.calls.length
    let session := { session.holdLater hold with background := some id }
    (.nothing, session.call budget (.ofRequest request))
  | .feed items =>
    let system := { session.system with stream := session.system.stream.feed items }
    (.nothing, settle budget { session with system := system })
  | .advance more =>
    match session.system.worker.run? with
    | none => (.nothing, session)
    | some _ => (.nothing, settle budget { session with gate := session.gate.advance more })
  | .release => (.nothing, settle budget { session with gate := session.gate.release })
  | .shutdown => (.nothing, session.shutdown budget)
  | .enter => (.entered, session)
  | .poison cell => (.nothing, settle budget (session.poison cell))
  | .raiseInside cell message =>
    if session.isPoisoned cell then (.failed .poisoned, session)
    else (.failed (.raised message), settle budget (session.poison cell))
  | .renew => (.nothing, settle budget (session.adopt session.system.renew))

/-- The result of the restart in the background; an empty answer while it waits. -/
def backgroundResult (session : Session) : Option Answer := session.background.map session.answerOf

/-- Everything that was seen since the last look, in order. -/
def events (session : Session) : List Event := session.seen.reverse

def forget (session : Session) : Session := { session with seen := [] }

end Session

def logEntries (events : List Event) : List LogEntry :=
  events.filterMap fun
    | .logged entry => some entry
    | _ => none

def publications (events : List Event) : List Publication :=
  events.filterMap fun
    | .published _ publication => some publication
    | _ => none

end TapeMachine.Live
