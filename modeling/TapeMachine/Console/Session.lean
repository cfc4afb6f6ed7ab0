import TapeMachine.Console.Command
import TapeMachine.Live.Session

namespace TapeMachine.Console

/-- A console together with the live execution that it shows. `entries` are its log entries, the
latest first. -/
structure Session where
  console : Console
  live : Live.Session
  entries : List LogEntry

inductive LineError where
  | restart (error : Live.RestartError)
  | unwritable
  deriving DecidableEq, Repr

def LineError.message : LineError → String
  | restart error => error.message
  | unwritable => Numeral.limitMessage

inductive LineResult where
  | handled
  | left (code : Nat)
  | failed (error : LineError)
  deriving DecidableEq, Repr

namespace Session

def start (budget : Nat) (input : List UInt8) (fallback : Option Int) (stream : ByteStream) :
    Session :=
  ⟨.start input fallback, .start budget "bflive-worker" none stream none, []⟩

/-- Looks at the present snapshot, and says what is printed. -/
def poll (session : Session) : Session × String :=
  let (console, text) := session.console.poll session.live.system.look
  ({ session with console := console }, text)

/-- Loads a program with the input and the fallback byte of the console. -/
def load (budget : Nat) (session : Session) (code : List UInt8) :
    LineResult × Session × String :=
  let request : Request := ⟨.bytes code, .bytes session.console.input, session.console.fallback⟩
  let (answer, live) := session.live.restart budget request
  let session := { session with live := live }
  match answer with
  | .failed (.restart .poisoned) =>
    let (console, text) := session.console.refused
    (.handled, { session with console := console }, text)
  | .failed (.restart error) => (.failed (.restart error), session, "")
  | _ =>
    let entry := ⟨.console, .info, s!"restarted with {code.length} bytes of code"⟩
    let session := { session with console := session.console.loaded code }
    (.handled, { session with entries := entry :: session.entries }, "")

/-- Handles a line, and says what is printed. `hold` is for the runs that begin from now on. -/
def enter (budget : Nat) (session : Session) (line : String) (hold : Option Nat) :
    LineResult × Session × String :=
  let session := { session with live := session.live.holdLater hold }
  match session.console.interpret session.live.system.look line with
  | .go console text => (.handled, { session with console := console }, text)
  | .load code => session.load budget code
  | .leave code => (.left code, session, "")
  | .unwritable => (.failed .unwritable, session, "")

/-- Does something with the execution that is not the console's business. -/
def outside (budget : Nat) (session : Session) (command : Live.Command) : Session :=
  { session with live := (session.live.obey budget command).2 }

def prompt (session : Session) : String := Console.prompt session.live.system.look.status

end Session

end TapeMachine.Console
