import TapeMachine.Machine.Run
import TapeMachine.Generator.Layout
import TapeMachine.ByteLiteral

namespace TapeMachine

namespace SelfCheck

/-- The output of a program that ends within some steps; `none` if it does not end. -/
def outputOf? (code : String) (input : List UInt8) : Option (List UInt8) :=
  let machine := Machine.load (.ofBytes (Utf8.encode code)) input none
  let result := machine.run 1000000 .empty
  match result.finish with
  | .ended => some result.machine.output.toList
  | _ => none

def samples : List String :=
  ["", "A", "Hello, World!\n", "multi\nline\ntext", "two  spaces\n\nand a blank line\n",
    "first\r\nsecond\r\n", "héllo ünïcode\n"]

def reproduces (layout : Generator.Layout) (text : String) : Bool :=
  let data := Utf8.encode text
  outputOf? (Generator.program layout false data) [] = some data

/-- Checks that a build can make of itself: known programs with known results. -/
def checks : List (String × Bool) :=
  [("a loop multiplies", outputOf? "++++++++[>++++++++<-]>+." [] == some [65]),
    ("cells wrap around", outputOf? "-." [] == some [255]),
    ("the first cell has no left neighbour", outputOf? "<<<+." [] == some [1]),
    ("input is read in order", outputOf? ",.,." [120, 121] == some [120, 121]),
    ("a read past the end fails", outputOf? "," [] == none),
    ("a bracket without partner fails", outputOf? "+.]" [] == none),
    ("a byte is a number or a character",
      ["65", "0x41", "A"].all fun text => (ByteLiteral.read text).toOption == some 65)]
    ++ Generator.Layout.all.map fun layout =>
      ("texts are reproduced " ++ layout.name, samples.all (reproduces layout))

end SelfCheck

end TapeMachine
