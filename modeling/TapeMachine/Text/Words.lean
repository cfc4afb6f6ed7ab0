import TapeMachine.Text.Quoted

namespace TapeMachine

namespace Words

inductive Error where
  | openQuotation
  | openEscape
  deriving DecidableEq, Repr

def Error.message : Error → String
  | openQuotation => "No closing quotation"
  | openEscape => "No escaped character"

def isSeparator (c : Char) : Bool := c = ' ' || c = '\t' || c = '\r' || c = '\n'

def isQuote (c : Char) : Bool := c = Quoted.apostrophe || c = Quoted.quotationMark

/-- Where in a word the next character stands. After a backslash, `quote` is the quotation that
goes on behind the escaped character. -/
inductive Place where
  | between
  | inside
  | quoted (quote : Char)
  | escaped (quote : Option Char)

/-- What an escaped character adds to a word, latest character first. -/
def escapedChars (quote : Option Char) (c : Char) : List Char :=
  match quote with
  | some mark => if c = Quoted.backslash || c = mark then [c] else [c, Quoted.backslash]
  | none => [c]

/-- Goes through a line. `word` is the word so far and `found` the words before it, both with the
latest first. -/
def scan (place : Place) (word : List Char) (found : List String) :
    List Char → Except Error (List String)
  | [] =>
    match place with
    | .between => .ok found.reverse
    | .inside => .ok (String.ofList word.reverse :: found).reverse
    | .quoted _ => .error .openQuotation
    | .escaped _ => .error .openEscape
  | c :: rest =>
    match place with
    | .between =>
      if isSeparator c then scan .between [] found rest
      else if c = Quoted.backslash then scan (.escaped none) [] found rest
      else if isQuote c then scan (.quoted c) [] found rest
      else scan .inside [c] found rest
    | .inside =>
      if isSeparator c then scan .between [] (String.ofList word.reverse :: found) rest
      else if c = Quoted.backslash then scan (.escaped none) word found rest
      else if isQuote c then scan (.quoted c) word found rest
      else scan .inside (c :: word) found rest
    | .quoted mark =>
      if c = mark then scan .inside word found rest
      else if c = Quoted.backslash && mark = Quoted.quotationMark then
        scan (.escaped (some mark)) word found rest
      else scan (.quoted mark) (c :: word) found rest
    | .escaped quote =>
      let after :=
        match quote with
        | some mark => .quoted mark
        | none => .inside
      scan after (escapedChars quote c ++ word) found rest

/-- Splits a line into words. Blanks separate words, quotes keep blanks inside a word, and a
backslash takes the next character as it is. Between quotation marks a backslash only does so before
a quotation mark or a backslash; between apostrophes it is an ordinary character. -/
def split (line : List Char) : Except Error (List String) := scan .between [] [] line

end Words

end TapeMachine
