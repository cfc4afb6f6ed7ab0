import TapeMachine.CommandLine.Scan
import TapeMachine.ByteLiteral
import TapeMachine.Number.Fraction
import TapeMachine.Generator.Layout

namespace TapeMachine.CommandLine

inductive Key where
  | help
  | test
  | code
  | input
  | fallback
  | tick
  | newline
  | verbose
  deriving DecidableEq, Repr

/-- An option that takes a value may be left out, be given an empty value by `--`, or have a
value. -/
inductive Given (α : Type) where
  | absent
  | blank
  | value (value : α)
  deriving DecidableEq, Repr

/-- What a run is asked for; without code, the code is read from the standard input. -/
structure RunOptions where
  code : Given String
  input : Given String
  fallback : Given UInt8
  verbosity : Nat

structure LiveOptions where
  tick : Given Float
  input : Given String
  fallback : Given UInt8
  verbosity : Nat

structure GenerateOptions where
  layout : Generator.Layout
  newline : Bool
  verbosity : Nat

inductive Command where
  | run (options : RunOptions)
  | live (options : LiveOptions)
  | generate (options : GenerateOptions)

structure Invocation where
  test : Bool
  command : Option Command

/-- Where a text about the command line belongs: to the whole of it or to one command. -/
inductive Topic where
  | whole
  | run
  | live
  | generate
  deriving DecidableEq, Repr

namespace Topic

def name : Topic → String
  | whole => "bflive"
  | run => "bflive run"
  | live => "bflive live"
  | generate => "bflive generate"

def usage (topic : Topic) : String :=
  "usage: " ++ topic.name ++ " [-h] " ++
    match topic with
    | whole => "[--test] \x7brun,live,generate\x7d ...\n"
    | run => "[-e CODE] [-i INPUT] [-a AUTO_INPUT] [-v]\n"
    | live => "[--tick TICK] [-i INPUT] [-a AUTO_INPUT] [-v]\n"
    | generate => "[-n] [-v] \x7bcharwise,linewise,unique-chars\x7d\n"

/-- The lines about the options that a run and a live run share. -/
def sharedHelp : String :=
  "  -i INPUT, --input INPUT\n" ++
  "                        input queue for the ',' instruction\n" ++
  "  -a AUTO_INPUT, --auto-input AUTO_INPUT\n" ++
  "                        byte used by ',' when the input queue is empty\n"

def helpHelp : String := "  -h, --help            show this help message and exit\n"

def verboseHelp : String := "  -v, --verbose         -v: info, -vv: debug\n"

def details : Topic → String
  | whole =>
    "\nRun tape-machine programs.\n" ++
    "\npositional arguments:\n" ++
    "  \x7brun,live,generate\x7d\n" ++
    "    run                execute a program and print its output\n" ++
    "    live               interactive REPL with live restart\n" ++
    "    generate           read text on stdin, print a program that outputs it\n" ++
    "\noptions:\n" ++
    "  -h, --help           show this help message and exit\n" ++
    "  --test               run the bundled unit tests\n"
  | run =>
    "\noptions:\n" ++ helpHelp ++
    "  -e CODE, --code CODE  program text (read from stdin when omitted)\n" ++
    sharedHelp ++ verboseHelp
  | live =>
    "\noptions:\n" ++ helpHelp ++
    "  --tick TICK           seconds between state polls\n" ++
    sharedHelp ++ verboseHelp
  | generate =>
    "\npositional arguments:\n" ++
    "  \x7bcharwise,linewise,unique-chars\x7d\n" ++
    "\noptions:\n" ++ helpHelp ++
    "  -n, --newline         append a final newline to the text if it is missing\n" ++
    verboseHelp

def help (topic : Topic) : String := topic.usage ++ topic.details

def specs : Topic → List (Spec Key)
  | whole => [⟨.help, ["-h", "--help"], false⟩, ⟨.test, ["--test"], false⟩]
  | run =>
    [⟨.help, ["-h", "--help"], false⟩, ⟨.code, ["-e", "--code"], true⟩,
      ⟨.input, ["-i", "--input"], true⟩, ⟨.fallback, ["-a", "--auto-input"], true⟩,
      ⟨.verbose, ["-v", "--verbose"], false⟩]
  | live =>
    [⟨.help, ["-h", "--help"], false⟩, ⟨.tick, ["--tick"], true⟩,
      ⟨.input, ["-i", "--input"], true⟩, ⟨.fallback, ["-a", "--auto-input"], true⟩,
      ⟨.verbose, ["-v", "--verbose"], false⟩]
  | generate =>
    [⟨.help, ["-h", "--help"], false⟩, ⟨.newline, ["-n", "--newline"], false⟩,
      ⟨.verbose, ["-v", "--verbose"], false⟩]

end Topic

/-- Why a command line does not lead to a command: help was asked for, or it is refused. -/
inductive Refusal where
  | help (topic : Topic)
  | usage (topic : Topic) (error : UsageError)
  deriving DecidableEq, Repr

namespace Refusal

def exitCode : Refusal → Nat
  | help _ => 0
  | usage _ _ => 2

def output : Refusal → String
  | help topic => topic.help
  | usage _ _ => ""

def complaint : Refusal → String
  | help _ => ""
  | usage topic error => topic.usage ++ topic.name ++ ": error: " ++ error.message ++ "\n"

end Refusal

/-- The options of a command, as far as they have been read. -/
structure Settings where
  code : Given String
  input : Given String
  fallback : Given UInt8
  tick : Given Float
  layout : Option Generator.Layout
  newline : Bool
  verbosity : Nat

def Settings.start : Settings := ⟨.absent, .absent, .absent, .absent, none, false, 0⟩

/-- Reads the value of an option; a text that cannot be read is refused with a reason. -/
def readValue {α : Type} (topic : Topic) (spec : Spec Key) (read : String → Except String α) :
    Option String → Except Refusal (Given α)
  | none => .ok .blank
  | some text =>
    match read text with
    | .ok value => .ok (.value value)
    | .error reason => .error (.usage topic (.badValue spec.title reason))

def readByte (text : String) : Except String UInt8 :=
  match ByteLiteral.read text with
  | .ok byte => .ok byte
  | .error .tooLarge => .error ("invalid parse_byte value: " ++ Quoted.text text)
  | .error error => .error error.message

def readTick (text : String) : Except String Float :=
  match Fraction.read? text with
  | some tick => .ok tick
  | none => .error ("invalid float value: " ++ Quoted.text text)

def Settings.apply (topic : Topic) (settings : Settings) :
    Item Key → Except Refusal Settings
  | .flag spec =>
    match spec.key with
    | .help => .error (.help topic)
    | .newline => .ok { settings with newline := true }
    | .verbose => .ok { settings with verbosity := settings.verbosity + 1 }
    | _ => .ok settings
  | .value spec text =>
    match spec.key with
    | .code => do return { settings with code := ← readValue topic spec .ok text }
    | .input => do return { settings with input := ← readValue topic spec .ok text }
    | .fallback => do return { settings with fallback := ← readValue topic spec readByte text }
    | .tick => do return { settings with tick := ← readValue topic spec readTick text }
    | _ => .ok settings
  | .positional texts =>
    let given := texts.headD ""
    match Generator.Layout.ofName? given with
    | some layout => .ok { settings with layout := some layout }
    | none =>
      .error (.usage topic (.badChoice "mode" given (Generator.Layout.all.map (·.name))))

/-- The options of a command, and the arguments that are none of its business. -/
def readSettings (topic : Topic) (wanted : Positional) (arguments : List String) :
    Except Refusal (Settings × List String) := do
  let scan := scan topic.specs wanted arguments
  let settings ← scan.items.foldlM (Settings.apply topic) .start
  match scan.finish with
  | .ok extras => return (settings, extras)
  | .error error => throw (.usage topic error)

/-- Reads a command with its options; what it does not know is left to the caller. -/
def readCommand : List String → Except Refusal (Command × List String)
  | [] => .error (.usage .whole (.badChoice "command" "" ["run", "live", "generate"]))
  | name :: arguments =>
    match name with
    | "run" => do
      let (s, extras) ← readSettings .run .absent arguments
      return (.run ⟨s.code, s.input, s.fallback, s.verbosity⟩, extras)
    | "live" => do
      let (s, extras) ← readSettings .live .absent arguments
      return (.live ⟨s.tick, s.input, s.fallback, s.verbosity⟩, extras)
    | "generate" => do
      let (s, extras) ← readSettings .generate .single arguments
      match s.layout with
      | some layout => return (.generate ⟨layout, s.newline, s.verbosity⟩, extras)
      | none => throw (.usage .generate (.missingArgument "mode"))
    | _ => .error (.usage .whole (.badChoice "command" name ["run", "live", "generate"]))

/-- Does what one item before the command asks for. -/
def Invocation.apply (state : Invocation × List String) :
    Item Key → Except Refusal (Invocation × List String)
  | .flag spec =>
    match spec.key with
    | .help => .error (.help .whole)
    | .test => .ok ({ state.1 with test := true }, state.2)
    | _ => .ok state
  | .value _ _ => .ok state
  | .positional texts => do
    let (command, extras) ← readCommand texts
    return ({ state.1 with command := some command }, state.2 ++ extras)

def read (arguments : List String) : Except Refusal Invocation := do
  let scan := scan Topic.whole.specs .command arguments
  let (invocation, later) ← scan.items.foldlM Invocation.apply (⟨false, none⟩, [])
  match scan.finish with
  | .error error => throw (.usage .whole error)
  | .ok [] =>
    if later.isEmpty then return invocation
    else throw (.usage .whole (.unrecognized later))
  | .ok extras => throw (.usage .whole (.unrecognized (extras ++ later)))

end TapeMachine.CommandLine
