namespace TapeMachine

inductive LogSource where
  | runtime
  | console
  deriving DecidableEq, Repr

def LogSource.name : LogSource → String
  | runtime => "bflive_runtime"
  | console => "bflive_repl"

inductive LogLevel where
  | debug
  | info
  | warning
  | error
  | critical
  deriving DecidableEq, Repr

namespace LogLevel

def rank : LogLevel → Nat
  | debug => 10
  | info => 20
  | warning => 30
  | error => 40
  | critical => 50

def name : LogLevel → String
  | debug => "DEBUG"
  | info => "INFO"
  | warning => "WARNING"
  | error => "ERROR"
  | critical => "CRITICAL"

/-- Letters in upper case, as far as level names need them: two letters outside ASCII have an
ASCII letter as their upper case. -/
def upper (c : Char) : Char :=
  if c = 'ı' then 'I' else if c = 'ſ' then 'S' else c.toUpper

/-- The rank that a name stands for, in any case. -/
def rankOfName? (name : String) : Option Nat :=
  match name.map upper with
  | "NOTSET" => some 0
  | "DEBUG" => some debug.rank
  | "INFO" => some info.rank
  | "WARNING" | "WARN" => some warning.rank
  | "ERROR" => some error.rank
  | "CRITICAL" | "FATAL" => some critical.rank
  | _ => none

/-- The rank from which entries are kept. Asking for more detail wins over the environment. -/
def threshold (verbosity : Int) (environment : Option String) : Nat :=
  if 2 ≤ verbosity then debug.rank
  else if verbosity = 1 then info.rank
  else (environment.bind rankOfName?).getD warning.rank

end LogLevel

/-- What is noted while a program runs, by whom, and how urgent it is. -/
structure LogEntry where
  source : LogSource
  level : LogLevel
  message : String
  deriving DecidableEq, Repr

namespace LogEntry

def debug (message : String) : LogEntry := ⟨.runtime, .debug, message⟩

def error (message : String) : LogEntry := ⟨.runtime, .error, message⟩

def text (entry : LogEntry) : String := entry.level.name ++ " " ++ entry.message

def kept (threshold : Nat) (entries : List LogEntry) : List LogEntry :=
  entries.filter fun entry => threshold ≤ entry.level.rank

def layout : String := "%(asctime)s [%(levelname)s] %(name)s: %(message)s"

end LogEntry

end TapeMachine
