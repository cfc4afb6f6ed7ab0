import TapeMachine.Console.Session

namespace TapeMachine.Console

/-- What is entered at a prompt. A line can come with cells that are poisoned before it is
handled, and with a limit for the runs that begin from then on. -/
inductive Entry where
  | line (text : String) (poisoned : List Live.CellName) (hold : Option Nat)
  | interrupt
  | endOfInput
  deriving DecidableEq, Repr

/-- One prompt, with what was printed since the prompt before. -/
structure Prompt where
  printed : String
  text : String
  deriving DecidableEq, Repr

/-- What a loop leaves behind: its prompts, what was printed after the last one, and the exit
code, or why there is none. -/
structure Transcript where
  prompts : List Prompt
  tail : String
  result : Except LineError Nat
  session : Session

namespace Loop

def banner : String :=
  "bflive live REPL\n" ++
  "Type a program to run it; a new line restarts with the new program. (:help for help)\n"

def farewell : String := "\nEOF -> quitting.\n"

def interrupted : String := "\nKeyboardInterrupt (Ctrl-C). Use :quit to exit.\n"

def handle (budget : Nat) (session : Session) (text : String)
    (poisoned : List Live.CellName) (hold : Option Nat) : LineResult × Session × String :=
  let session := poisoned.foldl (fun session cell => session.outside budget (.poison cell)) session
  let session := { session with live := session.live.holdLater hold }
  if text.toList.all isBlank then (.handled, session, "") else session.enter budget text hold

/-- What an entry leads to: the next prompt, or the end of the loop. -/
inductive Turn where
  | next (session : Session) (printed : String)
  | done (session : Session) (printed : String) (result : Except LineError Nat)

def turn (budget : Nat) (session : Session) : Entry → Turn
  | .endOfInput => .done session farewell (.ok 0)
  | .interrupt => .next session interrupted
  | .line text poisoned hold =>
    match handle budget session text poisoned hold with
    | (.handled, session, text) => .next session text
    | (.left code, session, text) => .done session text (.ok code)
    | (.failed error, session, text) => .done session text (.error error)

/-- Goes on after `printed` was printed: prompt, line, prompt, line, with one look at the execution
before each line. A console without a way on is left before the next prompt. When nothing more is
entered, the input has ended. -/
def goOn (budget : Nat) (prompts : List Prompt) (printed : String) (session : Session)
    (entries : List Entry) : Transcript :=
  if session.console.fatal.isSome then ⟨prompts.reverse, printed, .ok 1, session⟩
  else
    let (session, text) := session.poll
    let prompts := ⟨printed ++ text, session.prompt⟩ :: prompts
    match entries with
    | [] => ⟨prompts.reverse, farewell, .ok 0, session⟩
    | entry :: entries =>
      match turn budget session entry with
      | .next session printed => goOn budget prompts printed session entries
      | .done session printed result => ⟨prompts.reverse, printed, result, session⟩

/-- A whole loop. However it is left, the execution is shut down. -/
def run (budget : Nat) (session : Session) (entries : List Entry) : Transcript :=
  let transcript := goOn budget [] banner session entries
  { transcript with session := transcript.session.outside budget .shutdown }

end Loop

end TapeMachine.Console
