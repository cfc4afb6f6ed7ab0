import TapeMachine.CommandLine.Options
import TapeMachine.Console.Loop
import TapeMachine.Machine.Run

namespace TapeMachine.CommandLine

structure Report where
  code : Nat
  output : List UInt8
  complaint : String
  entries : List LogEntry
  deriving DecidableEq, Repr

/-- Why a command can fail without a report: the machine was stopped by something that is not the
program's own failure, or an option has an empty value where one is needed. -/
inductive CommandError where
  | step (error : StepError)
  | blankText
  | blankByte
  deriving DecidableEq, Repr

/-- The report on a program that came to rest; `none` if it did not. Whatever it printed before a
failure is kept. -/
def reportOn (result : RunResult) (entries : List LogEntry) :
    Option (Except StepError Report) :=
  let output := result.machine.output.toList
  match result.finish with
  | .ended => some (.ok ⟨0, output, "", entries⟩)
  | .failed error =>
    if error.isProgramFailure then
      some (.ok ⟨1, output, "error: " ++ error.message ++ "\n", entries⟩)
    else some (.error error)
  | .waiting | .exhausted => none

def runEntry (machine : Machine) : LogEntry :=
  ⟨.console, .info, s!"running {machine.code.size} instructions"⟩

/-- Runs a program to its end, within a budget of steps. -/
def runProgram (budget : Nat) (program : Program) (stream : ByteStream) :
    Option (Except StepError Report) :=
  let machine := program.machine
  reportOn (machine.run budget stream) [runEntry machine]

/-- The bytes of a text that may be left out. -/
def textBytes (default : List UInt8) : Given String → Except CommandError (List UInt8)
  | .absent => .ok default
  | .blank => .error .blankText
  | .value text => .ok (Utf8.encode text)

def fallbackByte (default : Option UInt8) : Given UInt8 → Except CommandError (Option UInt8)
  | .absent => .ok default
  | .blank => .error .blankByte
  | .value byte => .ok (some byte)

namespace RunOptions

/-- The program of a run and what is left on the standard input for it. If the code comes from the
standard input, nothing is left. -/
def program (options : RunOptions) (standardInput : List UInt8) :
    Except CommandError (Program × List UInt8) := do
  let input ← textBytes [] options.input
  let code ← textBytes standardInput options.code
  let fallback ← fallbackByte none options.fallback
  let left :=
    match options.code with
    | .absent => []
    | _ => standardInput
  return (⟨code, input, fallback⟩, left)

end RunOptions

namespace GenerateOptions

def report (options : GenerateOptions) (standardInput : List UInt8) : Report :=
  let size := standardInput.length
  let entry :=
    ⟨.console, .info, s!"generating {options.layout.name} script for {size} bytes"⟩
  let program := Generator.program options.layout options.newline standardInput
  ⟨0, Utf8.encode program, "", [entry]⟩

end GenerateOptions

namespace LiveOptions

/-- A live run lets a read of an empty queue find a zero. -/
def defaultFallback : Option UInt8 := some 0

/-- Seconds between two looks at the execution. -/
def defaultTick : Float := 0.05

def session (options : LiveOptions) (budget : Nat) (stream : ByteStream) :
    Except CommandError Console.Session := do
  let input ← textBytes [] options.input
  let fallback ← fallbackByte defaultFallback options.fallback
  return .start budget input (fallback.map fun byte => (byte.toNat : Int)) stream

end LiveOptions

namespace Command

def verbosity : Command → Nat
  | run options => options.verbosity
  | live options => options.verbosity
  | generate options => options.verbosity

end Command

/-- What is printed where there is no way to show prompts. -/
def noPromptMessage : String := "prompt_toolkit is not installed: pip install prompt_toolkit\n"

/-- All log entries of a console, each source in order: first those of the execution. -/
def consoleEntries (session : Console.Session) : List LogEntry :=
  Live.logEntries session.live.events ++ session.entries.reverse

/-- A live run without prompts ends before it has begun. -/
def withoutPrompts (budget : Nat) (session : Console.Session) : Report :=
  let session := session.outside budget .shutdown
  ⟨1, Utf8.encode noPromptMessage, "", consoleEntries session⟩

/-- Carries out a command that needs no prompts; `none` if it does not come to an end within the
budget. -/
def perform (budget : Nat) (standardInput : List UInt8) :
    Option Command → Option (Except CommandError Report)
  | none => some (.ok ⟨2, Utf8.encode Topic.whole.help, "", []⟩)
  | some (.generate options) => some (.ok (options.report standardInput))
  | some (.run options) =>
    match options.program standardInput with
    | .error error => some (.error error)
    | .ok (program, left) =>
      (runProgram budget program (.ofBytes left)).map (·.mapError CommandError.step)
  | some (.live options) =>
    some ((options.session budget (.ofBytes standardInput)).map (withoutPrompts budget))

end TapeMachine.CommandLine
