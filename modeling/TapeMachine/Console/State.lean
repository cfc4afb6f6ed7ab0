import TapeMachine.Status
import TapeMachine.SharedCell
import TapeMachine.Log

namespace TapeMachine

/-- `input` and `fallback` are for the next runs. `code` is the program that was loaded last,
`printed` the number of its output bytes that have gone to the decoder, and `lastStatus` the
status that was seen last. A console with a `fatal` message loads no more programs. -/
structure Console where
  input : List UInt8
  fallback : Option Int
  code : List UInt8
  fatal : Option String
  lastStatus : Option Status
  printed : Nat
  decoder : Utf8.Decoder
  deriving DecidableEq, Repr

namespace Console

def start (input : List UInt8) (fallback : Option Int) : Console :=
  ⟨input, fallback, [], none, none, 0, .ready⟩

/-- The notice of a state from which there is no return. -/
def fatalNotice (message : String) : String :=
  "[FATAL] " ++ message ++ "; the interpreter must be restarted (exit).\n"

/-- What is said when a status is seen for the first time. -/
def notice (status : Status) : String :=
  match status with
  | .fatal message => "\n" ++ fatalNotice message
  | .error message => "\n[" ++ status.label ++ "] " ++ message ++ "\n"
  | .done | .waitingForInput => "\n[" ++ status.label ++ "]\n"
  | .running => ""

/-- Prints the output that has been added since the last look. -/
def showOutput (console : Console) (output : Array UInt8) : Console × String :=
  if console.printed < output.size then
    let (text, decoder) := Utf8.Decoder.decode console.decoder (output.toList.drop console.printed)
    ({ console with printed := output.size, decoder := decoder }, text)
  else (console, "")

def showStatus (console : Console) (status : Status) : Console × String :=
  if some status = console.lastStatus then (console, "")
  else
    let fatal :=
      match status with
      | .fatal message => some message
      | _ => console.fatal
    ({ console with lastStatus := some status, fatal := fatal }, notice status)

/-- Looks at a snapshot: first its output is printed, then its status. -/
def poll (console : Console) (snapshot : Snapshot) : Console × String :=
  let (console, output) := console.showOutput snapshot.output
  let (console, notice) := console.showStatus snapshot.status
  (console, output ++ notice)

/-- A program has been loaded: nothing of it has been printed, and no byte of the program before
it is left in the decoder. -/
def loaded (console : Console) (code : List UInt8) : Console :=
  { console with code := code, printed := 0, lastStatus := none, decoder := .ready }

/-- A program could not be loaded because the program cell is poisoned. -/
def refused (console : Console) : Console × String :=
  ({ console with fatal := some poisonedMessage }, fatalNotice poisonedMessage)

/-- The prompt shows the status of the present snapshot. -/
def prompt (status : Status) : String := "[" ++ status.label ++ "] bflive> "

end Console

end TapeMachine
