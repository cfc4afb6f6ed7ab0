import TapeMachine.Text.Digit
import TapeMachine.Text.Quoted

namespace TapeMachine.CommandLine

variable {κ : Type}

/-- An option under its names. A flag stands alone, the other options take a value. -/
structure Spec (κ : Type) where
  key : κ
  names : List String
  takesValue : Bool

/-- The names of an option, as error texts show them. -/
def Spec.title (spec : Spec κ) : String := "/".intercalate spec.names

/-- What else a command line may hold besides options: nothing, one argument, or a word with
everything that comes after it. -/
inductive Positional where
  | absent
  | single
  | command
  deriving DecidableEq, Repr

inductive UsageError where
  | ambiguous (text : String) (candidates : List String)
  | ignoredValue (title value : String)
  | missingValue (title : String)
  | badValue (title reason : String)
  | badChoice (title given : String) (choices : List String)
  | missingArgument (title : String)
  | unrecognized (texts : List String)
  deriving DecidableEq, Repr

def UsageError.message : UsageError → String
  | ambiguous text candidates =>
    "ambiguous option: " ++ text ++ " could match " ++ ", ".intercalate candidates
  | ignoredValue title value =>
    "argument " ++ title ++ ": ignored explicit argument " ++ Quoted.text value
  | missingValue title => "argument " ++ title ++ ": expected one argument"
  | badValue title reason => "argument " ++ title ++ ": " ++ reason
  | badChoice title given choices =>
    "argument " ++ title ++ ": invalid choice: " ++ Quoted.text given ++ " (choose from "
      ++ ", ".intercalate (choices.map Quoted.text) ++ ")"
  | missingArgument title => "the following arguments are required: " ++ title
  | unrecognized texts => "unrecognized arguments: " ++ " ".intercalate texts

/-- An argument that names an option, with the value that is glued to it. -/
structure Match (κ : Type) where
  spec : Spec κ
  name : String
  glued : Option String

inductive Token (κ : Type) where
  | argument (text : String)
  | option (found : Match κ) (text : String)
  | unknown (text : String)
  | separator

def Token.text : Token κ → String
  | argument text | option _ text | unknown text => text
  | separator => "--"

def allNames (specs : List (Spec κ)) : List (String × Spec κ) :=
  specs.flatMap fun spec => spec.names.map (·, spec)

def findSpec? (specs : List (Spec κ)) (name : String) : Option (Spec κ) :=
  specs.find? fun spec => spec.names.contains name

/-- The part before the first equals sign, and the part after it if there is one. -/
def cutAtEquals (text : String) : String × Option String :=
  let chars := text.toList
  match chars.dropWhile (· ≠ '=') with
  | [] => (text, none)
  | _ :: rest => (String.ofList (chars.takeWhile (· ≠ '=')), some (String.ofList rest))

/-- The options that an argument may mean that is no name of one: a long option by the beginning
of its name, or a short one with something glued to it. -/
def candidates (specs : List (Spec κ)) (text : String) : List (Match κ) :=
  if text.startsWith "--" then
    let (start, glued) := cutAtEquals text
    (allNames specs).filterMap fun (name, spec) =>
      if name.startsWith start then some ⟨spec, name, glued⟩ else none
  else
    let short := String.ofList (text.toList.take 2)
    (allNames specs).filterMap fun (name, spec) =>
      if name = short then some ⟨spec, name, some (String.ofList (text.toList.drop 2))⟩
      else if name.startsWith text then some ⟨spec, name, none⟩
      else none

/-- A negative number, with or without a fraction; a line feed may follow. -/
def isNegativeNumber (text : String) : Bool :=
  match text.toList with
  | '-' :: rest =>
    let rest := if rest.getLast? = some '\n' then rest.dropLast else rest
    let whole := rest.takeWhile isDecimalDigit
    match rest.dropWhile isDecimalDigit with
    | [] => !whole.isEmpty
    | '.' :: fraction => !fraction.isEmpty && fraction.all isDecimalDigit
    | _ => false
  | _ => false

/-- What an argument is. Numbers and texts with a space are no options, unless an option is meant
for sure. -/
def classify (specs : List (Spec κ)) (text : String) : Except UsageError (Token κ) :=
  if !text.startsWith "-" || text = "-" then .ok (.argument text)
  else
    match findSpec? specs text with
    | some spec => .ok (.option ⟨spec, text, none⟩ text)
    | none =>
      let (head, glued) := cutAtEquals text
      match glued.bind fun value => (findSpec? specs head).map (⟨·, head, some value⟩) with
      | some found => .ok (.option found text)
      | none =>
        match candidates specs text with
        | [found] => .ok (.option found text)
        | [] =>
          if isNegativeNumber text || text.toList.contains ' ' then .ok (.argument text)
          else .ok (.unknown text)
        | several => .error (.ambiguous text (several.map Match.name))

/-- What all arguments are, up to the first `--` and behind it. -/
def tokens (specs : List (Spec κ)) : List String → Except UsageError (List (Token κ))
  | [] => .ok []
  | text :: rest =>
    if text = "--" then .ok (.separator :: rest.map .argument)
    else do
      let token ← classify specs text
      let more ← tokens specs rest
      return token :: more

/-- One thing that a command line asks for. An option whose value is written `--` has a value
that is left empty. -/
inductive Item (κ : Type) where
  | flag (spec : Spec κ)
  | value (spec : Spec κ) (text : Option String)
  | positional (texts : List String)

/-- Everything a command line asks for, in order, and how it ends: with an error, or with the
arguments that nothing asks for. -/
structure Scan (κ : Type) where
  items : List (Item κ)
  finish : Except UsageError (List String)

def Scan.failed (error : UsageError) : Scan κ := ⟨[], .error error⟩

def Scan.cons (items : List (Item κ)) (scan : Scan κ) : Scan κ :=
  { scan with items := items ++ scan.items }

def Scan.skip (text : String) (scan : Scan κ) : Scan κ :=
  { scan with finish := scan.finish.map (text :: ·) }

/-- The value that a text gives to an option. -/
def valueText (text : String) : Option String := if text = "--" then none else some text

/-- What an argument with an option asks for; the last option may still need a value. -/
inductive Glued (κ : Type) where
  | complete (items : List (Item κ))
  | needsValue (items : List (Item κ)) (spec : Spec κ)

/-- Takes the flags that share one argument apart. `value` is what is glued to the option. -/
def unglue (specs : List (Spec κ)) (done : List (Item κ)) (spec : Spec κ) (short : Bool) :
    List Char → Except UsageError (Glued κ)
  | [] => .error (.ignoredValue spec.title "")
  | c :: rest =>
    if spec.takesValue then
      .ok (.complete (done ++ [.value spec (valueText (String.ofList (c :: rest)))]))
    else
      let refused := .error (.ignoredValue spec.title (String.ofList (c :: rest)))
      if short then
        match findSpec? specs (String.ofList ['-', c]) with
        | none => refused
        | some next =>
          let done := done ++ [.flag spec]
          match rest with
          | [] =>
            if next.takesValue then .ok (.needsValue done next)
            else .ok (.complete (done ++ [.flag next]))
          | _ :: _ => unglue specs done next true rest
      else refused

/-- What an argument asks for that names an option. -/
def Match.items (specs : List (Spec κ)) (found : Match κ) : Except UsageError (Glued κ) :=
  match found.glued with
  | none =>
    if found.spec.takesValue then .ok (.needsValue [] found.spec)
    else .ok (.complete [.flag found.spec])
  | some "" =>
    if found.spec.takesValue then .ok (.complete [.value found.spec (some "")])
    else .error (.ignoredValue found.spec.title "")
  | some value => unglue specs [] found.spec (!found.name.startsWith "--") value.toList

/-- Goes through the arguments. `wanted` is what is still to come besides options. -/
def scanTokens (specs : List (Spec κ)) (wanted : Positional) : List (Token κ) → Scan κ
  | [] => ⟨[], .ok []⟩
  | .unknown text :: rest => (scanTokens specs wanted rest).skip text
  | .option found _ :: rest =>
    match found.items specs with
    | .error error => .failed error
    | .ok (.complete items) => (scanTokens specs wanted rest).cons items
    | .ok (.needsValue items spec) =>
      match rest with
      | .argument text :: rest =>
        (scanTokens specs wanted rest).cons (items ++ [.value spec (some text)])
      | _ => .failed (.missingValue spec.title)
  | .argument text :: rest =>
    match wanted with
    | .absent => (scanTokens specs wanted rest).skip text
    | .command => ⟨[.positional (text :: rest.map Token.text)], .ok []⟩
    | .single =>
      match rest with
      | .separator :: rest => (scanTokens specs .absent rest).cons [.positional [text]]
      | rest => (scanTokens specs .absent rest).cons [.positional [text]]
  | .separator :: rest =>
    match wanted, rest with
    | .command, .argument text :: rest =>
      ⟨[.positional ("--" :: text :: rest.map Token.text)], .ok []⟩
    | .single, .argument text :: rest =>
      (scanTokens specs .absent rest).cons [.positional [text]]
    | _, rest => (scanTokens specs wanted rest).skip "--"

/-- Takes the arguments of a command line apart. An option may be shortened as long as it stays
clear which one is meant, a value may be glued to it, and short flags may share one argument. Behind
`--` nothing is an option. -/
def scan (specs : List (Spec κ)) (wanted : Positional) (arguments : List String) : Scan κ :=
  match tokens specs arguments with
  | .error error => .failed error
  | .ok tokens => scanTokens specs wanted tokens

end TapeMachine.CommandLine
