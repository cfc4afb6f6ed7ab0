import TapeMachine.Console.State
import TapeMachine.Text.Words
import TapeMachine.ByteLiteral

namespace TapeMachine

namespace Console

/-- What follows from a line: the console goes on after printing something, a program is to be
loaded, the console is left with an exit code, or the line is about a number that is too large to
be written. -/
inductive Directive where
  | go (console : Console) (text : String)
  | load (code : List UInt8)
  | leave (code : Nat)
  | unwritable
  deriving DecidableEq, Repr

def help : String :=
  "Type a program to (re)start it. Commands:\n" ++
  "  :input TEXT          - input queue for the next runs\n" ++
  "  :auto BYTE|off       - fallback byte for ',' when the queue is empty\n" ++
  "  :state               - show the last published state\n" ++
  "  :tape [OFF [COUNT]]  - show tape cells around the cursor\n" ++
  "  :quit                - exit\n"

def isQuit (word : String) : Bool := word = ":quit" || word = ":exit"

/-- How many cells a page of the tape has. -/
def pageSize : Int := 16

/-- The fallback byte as it is shown; `None` if there is none. -/
def fallbackText : Option Int → String
  | some value => toString value
  | none => "None"

def setInput (console : Console) (text : List Char) : Directive :=
  let input := Utf8.encode (String.ofList text)
  .go { console with input := input } ("input = " ++ Quoted.bytes input ++ " (used by the next run)\n")

def setFallback (console : Console) : List String → Directive
  | [] => .go console ("auto-input = " ++ fallbackText console.fallback ++ "\n")
  | word :: _ =>
    if word = "off" then
      .go { console with fallback := none } "auto-input off: ',' may block the worker on stdin\n"
    else
      match ByteLiteral.read word with
      | .ok byte =>
        .go { console with fallback := some byte.toNat } s!"auto-input = {byte.toNat}\n"
      | .error .tooLarge => .unwritable
      | .error error => .go console ("usage: :auto BYTE|off (" ++ error.message ++ ")\n")

def stateLine (snapshot : Snapshot) : String :=
  let message := snapshot.status.message
  "status=" ++ snapshot.status.label ++ (if message.isEmpty then "" else " (" ++ message ++ ")")
    ++ " output=" ++ Quoted.bytes snapshot.output.toList
    ++ s!" cursor={snapshot.tape.cursor} len={snapshot.tape.size}\n"

/-- Cells of a page, the one under the cursor in brackets. `offset` is the position of the first
cell of the page. -/
def pageItems (cursor : Nat) (offset : Int) (cells : List Cell) : List String :=
  cells.zipIdx.map fun (cell, i) =>
    if offset + i = cursor then s!"[{cell.toNat}]" else toString cell.toNat

/-- The first cell of a page that is asked for, and how many cells it may have. Without a first
cell, the page begins half a page before the cursor. -/
def page? (tape : Tape) : List String → Option (Int × Int)
  | [] => some (max 0 ((tape.cursor : Int) - pageSize / 2), pageSize)
  | [offset] => (Numeral.readDecimal? offset).map (·, pageSize)
  | offset :: count :: _ => do
    let offset ← Numeral.readDecimal? offset
    let count ← Numeral.readDecimal? count
    return (offset, count)

/-- A page of the tape on one line; `none` if there is no such page. -/
def tapeLine? (tape : Tape) (words : List String) : Option String := do
  let (offset, count) ← page? tape words
  let cells ← tape.window? offset count
  let items := " ".intercalate (pageItems tape.cursor offset cells.toList)
  return s!"cursor={tape.cursor} len={tape.size} @{offset}: " ++ items ++ "\n"

def tapeUsage : String := "usage: :tape [OFFSET [COUNT]]\n"

def interpretWords (console : Console) (seen : Snapshot) (command : String)
    (words : List String) : Directive :=
  if command = ":auto" then console.setFallback words
  else if command = ":state" then .go console (stateLine seen)
  else if command = ":tape" then .go console ((tapeLine? seen.tape words).getD tapeUsage)
  else if isQuit command then .leave 0
  else if command = ":help" || command = ":?" then .go console help
  else .go console ("unknown command: " ++ Quoted.text command ++ "\n" ++ help)

def isLineEnd (c : Char) : Bool := c = '\r' || c = '\n'

/-- A command line: the command word goes up to the first space. What is behind it is taken as it
is by `:input` and split into words by the others. -/
def interpretCommand (console : Console) (seen : Snapshot) (line : List Char) : Directive :=
  let (command, rest) := cutAtSpace (trimStart isBlank (trim isLineEnd line))
  if command = ":input".toList then console.setInput rest
  else
    match Words.split rest with
    | .error error => .go console ("parse error: " ++ error.message ++ "\n")
    | .ok words => console.interpretWords seen (String.ofList command) words

/-- A line that is entered when there is no way on. -/
def interpretFatal (console : Console) (message : String) (line : List Char) : Directive :=
  if isQuit (String.ofList (cutAtSpace (trim isBlank line)).1) then .leave 1
  else .go console ("interpreter is unusable (" ++ message ++ "); exit with :quit\n")

/-- What a line means, given the snapshot that is to be seen. A line whose first character that is
not blank is a colon is a command, every other line is a program. -/
def interpret (console : Console) (seen : Snapshot) (line : String) : Directive :=
  match console.fatal with
  | some message => console.interpretFatal message line.toList
  | none =>
    if (trim isBlank line.toList).head? = some ':' then console.interpretCommand seen line.toList
    else .load (Utf8.encode line)

end Console

end TapeMachine
