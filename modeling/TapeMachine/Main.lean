import TapeMachine.CommandLine.Report
import TapeMachine.SelfCheck

namespace TapeMachine.CommandLine

/-- How many steps are made before the outside world is looked at again. -/
def slice : Nat := 100000

/-- Writes log entries to the standard error, one on a line. -/
def writeEntries (threshold : Nat) (entries : List LogEntry) : IO Unit := do
  for entry in LogEntry.kept threshold entries do
    IO.eprintln s!"[{entry.level.name}] {entry.source.name}: {entry.message}"

def writeBytes (bytes : List UInt8) : IO Unit := do
  let output ← IO.getStdout
  output.write (ByteArray.mk bytes.toArray)
  output.flush

/-- Everything that is still on the standard input. -/
partial def readAll (found : ByteArray) : IO (List UInt8) := do
  let piece ← (← IO.getStdin).read 65536
  if piece.isEmpty then return found.toList
  readAll (found ++ piece)

/-- Runs a machine until it is at rest, reading the standard input only where the machine does. -/
partial def runToRest (machine : Machine) (stream : ByteStream) : IO RunResult := do
  let result := machine.run slice stream
  match result.finish with
  | .exhausted => runToRest result.machine result.stream
  | .waiting =>
    let piece ← (← IO.getStdin).read 1
    let items := piece.toList.map StreamItem.byte
    let items := if items.isEmpty then [.endOfStream] else items
    runToRest result.machine (result.stream.feed items)
  | _ => return result

def complainEmpty : IO UInt32 := do
  IO.eprintln "error: an option has an empty value"
  return 1

def finish (threshold : Nat) (report : Report) : IO UInt32 := do
  writeEntries threshold report.entries
  writeBytes report.output
  IO.eprint report.complaint
  return report.code.toUInt32

def runCommand (options : RunOptions) (threshold : Nat) : IO UInt32 := do
  let input ←
    match options.code with
    | .absent => readAll .empty
    | _ => pure []
  match options.program input with
  | .error _ => complainEmpty
  | .ok (program, _) =>
    let machine := program.machine
    writeEntries threshold [runEntry machine]
    match reportOn (← runToRest machine (.script [])) [] with
    | some (.ok report) => finish threshold report
    | some (.error error) =>
      IO.eprintln error.message
      return 1
    | none => return 1

/-- Writes what was noted since the last look and forgets it. -/
def writeNotes (threshold : Nat) (session : Console.Session) : IO Console.Session := do
  writeEntries threshold (consoleEntries session)
  return { session with live := session.live.forget, entries := [] }

/-- Prompts for a line, handles it, and so on. -/
partial def prompts (threshold : Nat) (session : Console.Session) : IO UInt32 := do
  if session.console.fatal.isSome then return 1
  let live := session.live.settle slice
  let (session, text) := { session with live := live }.poll
  IO.print (text ++ session.prompt)
  (← IO.getStdout).flush
  let line ← (← IO.getStdin).getLine
  let entry :=
    if line.isEmpty then Console.Entry.endOfInput
    else .line (if line.endsWith "\n" then (line.dropEnd 1).toString else line) [] none
  match Console.Loop.turn slice session entry with
  | .next session printed =>
    IO.print printed
    prompts threshold (← writeNotes threshold session)
  | .done session printed result =>
    IO.print printed
    let _ ← writeNotes threshold (session.outside slice .shutdown)
    match result with
    | .ok code => return code.toUInt32
    | .error error =>
      IO.eprintln error.message
      return 1

def liveCommand (options : LiveOptions) (threshold : Nat) : IO UInt32 := do
  match options.session slice .empty with
  | .error _ => complainEmpty
  | .ok session =>
    IO.print Console.Loop.banner
    prompts threshold (← writeNotes threshold session)

/-- Makes all checks and says which of them hold. -/
def selfCheck : IO UInt32 := do
  for (name, holds) in SelfCheck.checks do
    let verdict := if holds then "ok" else "FAILED"
    IO.eprintln s!"{name} ... {verdict}"
  return if SelfCheck.checks.all Prod.snd then 0 else 1

end TapeMachine.CommandLine

open TapeMachine TapeMachine.CommandLine in
def main (arguments : List String) : IO UInt32 := do
  match TapeMachine.CommandLine.read arguments with
  | .error refusal =>
    IO.print refusal.output
    IO.eprint refusal.complaint
    return refusal.exitCode.toUInt32
  | .ok invocation =>
    if invocation.test then selfCheck
    else
      let verbosity := (invocation.command.map Command.verbosity).getD 0
      let threshold := LogLevel.threshold verbosity (← IO.getEnv "BFLIVE_LOG_LEVEL")
      match invocation.command with
      | none =>
        IO.print Topic.whole.help
        return 2
      | some (.generate options) => finish threshold (options.report (← readAll .empty))
      | some (.run options) => runCommand options threshold
      | some (.live options) => liveCommand options threshold
