import TapeMachine.Console.Command
import TapeMachine.Proofs.Text.Trimming

namespace TapeMachine

/-- Every byte can be written. -/
theorem Numeral.isWritable_byte {value : Int} (least : 0 ≤ value) (most : value ≤ 255) :
    isWritable value = true := by
  have within (limit : Nat) (three : 3 ≤ limit) : value.natAbs < Nat.pow 10 limit := by
    have small : value.natAbs < 10 ^ 3 := by omega
    exact Nat.lt_of_lt_of_le small (Nat.pow_le_pow_right (by decide) three)
  exact decide_eq_true (within digitLimit (by decide))

theorem ByteLiteral.read_eq_tooLarge {text : String} :
    read text = .error .tooLarge ↔
      ∃ value, value? text = some value ∧ Numeral.isWritable value = false := by
  rcases known : value? text with _ | value
  · simp [read, known]
  by_cases range : 0 ≤ value ∧ value ≤ 255
  · simp [read, known, Cell.ofInt?, range, Numeral.isWritable_byte range.1 range.2]
  · cases writable : Numeral.isWritable value <;> simp [read, known, Cell.ofInt?, range, writable]

namespace Console

/-- The word that a line gives for the fallback byte. -/
def fallbackWord? (line : List Char) : Option String :=
  let (command, rest) := cutAtSpace (trimStart isBlank (trim isLineEnd line))
  if command = ":auto".toList then (Words.split rest).toOption.bind List.head? else none

theorem fallbackWord?_eq_some {line : List Char} {word : String} :
    fallbackWord? line = some word ↔ ∃ rest others,
      cutAtSpace (trimStart isBlank (trim isLineEnd line)) = (":auto".toList, rest) ∧
        Words.split rest = .ok (word :: others) := by
  rcases cut : cutAtSpace (trimStart isBlank (trim isLineEnd line)) with ⟨command, rest⟩
  by_cases auto : command = ":auto".toList
  · rcases parts : Words.split rest with error | _ | ⟨first, others⟩ <;>
      simp [fallbackWord?, cut, auto, parts, Except.toOption]
  · simp only [fallbackWord?, cut, Prod.mk.injEq, auto, if_false, false_and, exists_false, reduceCtorEq]

/-- The line is about a fallback byte of which not even the value can be written. -/
def Oversized (line : String) : Prop :=
  ∃ word value, fallbackWord? line.toList = some word ∧ ByteLiteral.value? word = some value ∧
    Numeral.isWritable value = false

theorem isBlank_of_isLineEnd {c : Char} (ends : isLineEnd c = true) : isBlank c = true := by
  simp only [isLineEnd, Bool.or_eq_true, decide_eq_true_eq] at ends
  rcases ends with rfl | rfl <;> decide

/-- A command is what the line begins with. -/
theorem head?_of_command {line : List Char} {first : Char}
    (starts : (trimStart isBlank (trim isLineEnd line)).head? = some first) :
    (trim isBlank line).head? = some first := by
  rw [trimStart, ← List.find?_not_eq_head?_dropWhile] at starts
  have found := (trimEnd_begins isLineEnd _).find?_eq_some starts
  have ends : (line.takeWhile isLineEnd).find? (fun c => !isBlank c) = none := by
    rw [List.find?_eq_none]
    intro c dropped
    simp [isBlank_of_isLineEnd (List.mem_takeWhile_imp dropped)]
  rw [head?_trim, ← List.takeWhile_append_dropWhile (p := isLineEnd) (l := line), List.find?_append,
    ends]
  exact found

/-- All that a line can mean. -/
inductive Means (console : Console) (line : String) : Directive → Prop
  | say {text : String} : Means console line (.go console text)
  | input {bytes : List UInt8} {text : String} : console.fatal = none →
      Means console line (.go { console with input := bytes } text)
  | unset {text : String} : console.fatal = none →
      Means console line (.go { console with fallback := none } text)
  | set {byte : UInt8} {text : String} : console.fatal = none →
      Means console line (.go { console with fallback := some byte.toNat } text)
  | load : console.fatal = none → Means console line (.load (Utf8.encode line))
  | leave : console.fatal = none → Means console line (.leave 0)
  | leave_fatal {message : String} : console.fatal = some message → Means console line (.leave 1)
  | unwritable : console.fatal = none → Oversized line → Means console line .unwritable

variable {console : Console} {seen : Snapshot} {line : String}

theorem setFallback_means (going : console.fatal = none) {words : List String}
    (fits : ∀ word ∈ words.head?, ByteLiteral.read word = .error .tooLarge → Oversized line) :
    Means console line (console.setFallback words) := by
  unfold setFallback
  split
  · exact .say
  · split
    · exact .unset going
    · split
      · exact .set going
      · rename_i large
        exact .unwritable going (fits _ rfl large)
      · exact .say

theorem interpretWords_means (going : console.fatal = none) {command : String} {words : List String}
    (fits : command = ":auto" → ∀ word ∈ words.head?, ByteLiteral.read word = .error .tooLarge →
      Oversized line) : Means console line (console.interpretWords seen command words) := by
  unfold interpretWords
  split
  · rename_i auto
    exact setFallback_means going (fits auto)
  · repeat' split
    all_goals first | exact .say | exact .leave going

theorem interpretCommand_means (going : console.fatal = none) :
    Means console line (console.interpretCommand seen line.toList) := by
  unfold interpretCommand
  simp only
  split
  · exact .input going
  · split
    · exact .say
    · rename_i words split
      refine interpretWords_means going ?_
      intro auto word first large
      obtain ⟨value, known, unwritable⟩ := ByteLiteral.read_eq_tooLarge.mp large
      obtain ⟨others, rfl⟩ := List.head?_eq_some_iff.mp first
      have command : (cutAtSpace (trimStart isBlank (trim isLineEnd line.toList))).1 =
          ":auto".toList := by
        rw [← auto, String.toList_ofList]
      refine ⟨word, value, ?_, known, unwritable⟩
      exact fallbackWord?_eq_some.mpr ⟨_, others, Prod.ext command rfl, split⟩

/-- Whatever a console sees, a line means one of these things. -/
theorem interpret_means (console : Console) (seen : Snapshot) (line : String) :
    Means console line (console.interpret seen line) := by
  unfold interpret
  split
  · rename_i fatal
    unfold interpretFatal
    split
    · exact .leave_fatal fatal
    · exact .say
  · rename_i going
    split
    · exact interpretCommand_means going
    · exact .load going

/-- A line whose number cannot be named is the only one that cannot be handled. -/
theorem interpret_eq_unwritable :
    console.interpret seen line = .unwritable ↔ console.fatal = none ∧ Oversized line := by
  constructor
  · intro fails
    have means := interpret_means console seen line
    rw [fails] at means
    cases means with
    | unwritable going oversized => exact ⟨going, oversized⟩
  · rintro ⟨going, word, value, given, known, unwritable⟩
    obtain ⟨rest, others, command, parts⟩ := fallbackWord?_eq_some.mp given
    have starts : (trimStart isBlank (trim isLineEnd line.toList)).head? = some ':' := by
      have begins : (cutAtSpace (trimStart isBlank (trim isLineEnd line.toList))).1 <+:
          trimStart isBlank (trim isLineEnd line.toList) := List.takeWhile_prefix _
      rw [command] at begins
      obtain ⟨_, whole⟩ := begins
      rw [← whole]
      rfl
    have large := ByteLiteral.read_eq_tooLarge.mpr ⟨value, known, unwritable⟩
    have no_switch : word ≠ "off" := by
      rintro rfl
      have nothing : ByteLiteral.value? "off" = none := by decide
      cases nothing.symm.trans known
    have no_input : ":auto".toList ≠ ":input".toList := by decide
    have name : String.ofList ":auto".toList = ":auto" := rfl
    simp only [interpret, going, head?_of_command starts, if_true, interpretCommand, command, no_input,
      if_false, parts, interpretWords, name, setFallback, no_switch, large]

/-- The program that was loaded last, and what the next runs are given, are the same. -/
def SameSettings (console later : Console) : Prop :=
  later.code = console.code ∧ later.input = console.input ∧ later.fallback = console.fallback

theorem SameSettings.trans {console middle later : Console} (first : console.SameSettings middle)
    (second : middle.SameSettings later) : console.SameSettings later :=
  ⟨second.1.trans first.1, second.2.1.trans first.2.1, second.2.2.trans first.2.2⟩

theorem showOutput_sameSettings (console : Console) (output : Array UInt8) :
    console.SameSettings (console.showOutput output).1 := by
  unfold showOutput
  split <;> exact ⟨rfl, rfl, rfl⟩

theorem showStatus_sameSettings (console : Console) (status : Status) :
    console.SameSettings (console.showStatus status).1 := by
  unfold showStatus
  split <;> exact ⟨rfl, rfl, rfl⟩

/-- A look sets nothing. -/
theorem poll_sameSettings (console : Console) (snapshot : Snapshot) :
    console.SameSettings (console.poll snapshot).1 :=
  (showOutput_sameSettings console _).trans (showStatus_sameSettings _ _)

end Console

end TapeMachine
