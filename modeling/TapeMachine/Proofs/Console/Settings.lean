import TapeMachine.Proofs.Console.Meaning

namespace TapeMachine

namespace Console

/-- A line that is no command: its first character that is not blank, if there is one, is no colon. -/
def isProgram (line : String) : Bool := line.toList.find? (fun c => !isBlank c) ≠ some ':'

/-- The input that a line gives. -/
def inputGiven? (line : String) : Option (List UInt8) :=
  let (command, rest) := cutAtSpace (trimStart isBlank (trim isLineEnd line.toList))
  if command = ":input".toList then some (Utf8.encode (String.ofList rest)) else none

/-- What a line says about the fallback byte: that there is none from now on, or which one. -/
def fallbackGiven? (line : String) : Option (Option Int) :=
  (fallbackWord? line.toList).bind fun word =>
    if word = "off" then some none
    else (ByteLiteral.read word).toOption.map fun byte => some (byte.toNat : Int)

/-- The line has a command word, before which there may be blanks. The rest goes from the space behind the
word to the line ends. -/
inductive Commands (line word : List Char) : List Char → Prop
  | bare {front ends : List Char} : front.all isBlank = true → ends.all isLineEnd = true →
      line = front ++ word ++ ends → Commands line word []
  | more {front rest ends : List Char} : front.all isBlank = true → ends.all isLineEnd = true →
      (∀ c ∈ rest.getLast?, isLineEnd c = false) →
      line = front ++ word ++ ' ' :: rest ++ ends → Commands line word rest

/-- What stands for a command: it begins with a colon, has no space in it, and does not end the line. -/
structure IsWord (word : List Char) : Prop where
  colon : word.head? = some ':'
  whole : ∀ c ∈ word, c ≠ ' '
  last : ∀ c ∈ word.getLast?, isLineEnd c = false

/-- A word without spaces becomes part of what is before the first space. -/
theorem cutAtSpace_behind {word : List Char} (whole : ∀ c ∈ word, c ≠ ' ') (tail : List Char) :
    cutAtSpace (word ++ tail) = (word ++ (cutAtSpace tail).1, (cutAtSpace tail).2) := by
  have apart : ∀ c ∈ word, (decide (c ≠ ' ')) = true := by simpa using whole
  rw [cutAtSpace, List.takeWhile_append_of_pos apart, List.dropWhile_append_of_pos apart, cutAtSpace]

theorem cutAtSpace_append {word tail : List Char} (whole : ∀ c ∈ word, c ≠ ' ')
    (space : ∀ c ∈ tail.head?, c = ' ') : cutAtSpace (word ++ tail) = (word, tail.drop 1) := by
  rw [cutAtSpace_behind whole]
  cases tail with
  | nil => simp [cutAtSpace]
  | cons c tail => simp [cutAtSpace, space c rfl]

/-- The blanks that are dropped before the word may be line ends or not. Of the front, the line ends it
begins with are dropped first, and the rest of it at the end. -/
theorem trim_command {front body ends : List Char} (blank : front.all isBlank = true)
    (closing : ends.all isLineEnd = true) (colon : body.head? = some ':')
    (last : ∀ c ∈ body.getLast?, isLineEnd c = false) :
    trimStart isBlank (trim isLineEnd (front ++ body ++ ends)) = body := by
  obtain ⟨body, rfl⟩ := List.head?_eq_some_iff.mp colon
  obtain ⟨outer, split, dropped⟩ := trimStart_eq_append isLineEnd front
  have inner_blank : (trimStart isLineEnd front).all isBlank = true := by
    rw [split, List.all_append, Bool.and_eq_true] at blank
    exact blank.2
  have kept := List.head?_dropWhile_not isLineEnd front
  rw [← trimStart] at kept
  generalize trimStart isLineEnd front = inner at split inner_blank kept
  have start : trimStart isLineEnd (front ++ ':' :: body ++ ends) = inner ++ ':' :: body ++ ends := by
    rw [split, List.append_assoc, List.append_assoc, trimStart_append dropped]
    · rw [List.append_assoc]
    · intro c first
      cases inner with
      | nil =>
        obtain rfl := Option.some.inj first
        rfl
      | cons d inner =>
        obtain rfl := Option.some.inj first
        simpa using kept
  rw [trim, start, trimEnd_append closing (by simpa [List.getLast?_append] using last),
    trimStart_append inner_blank]
  intro c first
  obtain rfl := Option.some.inj first
  decide

theorem last_behind_space {front rest : List Char} :
    (∀ c ∈ (front ++ ' ' :: rest).getLast?, isLineEnd c = false) ↔
      ∀ c ∈ rest.getLast?, isLineEnd c = false := by
  cases rest <;> simp [List.getLast?_append, isLineEnd]

/-- What is cut is the line without blanks before it and line ends behind it. -/
theorem line_split (line : List Char) :
    ∃ front ends, line = front ++ trimStart isBlank (trim isLineEnd line) ++ ends ∧
      front.all isBlank = true ∧ ends.all isLineEnd = true ∧
      ∀ c ∈ (trimStart isBlank (trim isLineEnd line)).getLast?, isLineEnd c = false := by
  obtain ⟨outer, split, dropped⟩ := trimStart_eq_append isLineEnd line
  obtain ⟨ends, split', closing, last⟩ := trimEnd_eq_append isLineEnd (trimStart isLineEnd line)
  obtain ⟨inner, split'', blank⟩ := trimStart_eq_append isBlank (trim isLineEnd line)
  rw [← trim, split''] at split' last
  generalize trimStart isBlank (trim isLineEnd line) = body at split' last
  have front : (outer ++ inner).all isBlank = true := by
    rw [List.all_append, blank, Bool.and_true, List.all_eq_true]
    exact fun c member => isBlank_of_isLineEnd (List.all_eq_true.mp dropped c member)
  refine ⟨outer ++ inner, ends, by rw [split, split']; simp, front, closing, ?_⟩
  intro c member
  refine last c ?_
  rw [List.getLast?_append, Option.mem_def.mp member]
  rfl

/-- Cutting a line finds its command word. -/
theorem cut_iff {line word rest : List Char} (isWord : IsWord word) :
    cutAtSpace (trimStart isBlank (trim isLineEnd line)) = (word, rest) ↔ Commands line word rest := by
  constructor
  · intro cut
    obtain ⟨front, ends, split, blank, closing, last⟩ := line_split line
    generalize trimStart isBlank (trim isLineEnd line) = body at cut split last
    have whole := List.takeWhile_append_dropWhile (p := (· ≠ ' ')) (l := body)
    have space := List.head?_dropWhile_not (· ≠ ' ') body
    obtain ⟨found, behind⟩ := Prod.mk.inj cut
    rw [found] at whole
    generalize body.dropWhile (· ≠ ' ') = tail at whole space behind
    subst whole behind
    cases tail with
    | nil => exact .bare blank closing (by rw [split, List.append_nil])
    | cons c rest =>
      obtain rfl : c = ' ' := by simpa using space
      exact .more blank closing (last_behind_space.mp last) (by rw [split, List.append_assoc front word]; rfl)
  · intro commands
    cases commands with
    | bare blank closing split =>
      have trimmed := trim_command blank closing isWord.colon isWord.last
      have cut := @cutAtSpace_append word [] isWord.whole (by simp)
      rw [List.append_nil] at cut
      rw [split, trimmed, cut]
      rfl
    | @more front _ ends blank closing last split =>
      have colon : (word ++ ' ' :: rest).head? = some ':' := by
        rw [List.head?_append, isWord.colon]
        rfl
      have trimmed := @trim_command front _ ends blank closing colon (last_behind_space.mpr last)
      have cut := @cutAtSpace_append word (' ' :: rest) isWord.whole (by simp)
      rw [split, List.append_assoc front word, trimmed, cut]
      rfl

theorem kept_of_clear {text : List Char} (clear : text.all (fun c => !isBlank c) = true) :
    ∀ c ∈ text, isBlank c = false := by
  simpa using clear

/-- Without blanks, what begins with a colon stands for a command. -/
theorem IsWord.of_clear {word : List Char} (colon : word.head? = some ':')
    (clear : word.all (fun c => !isBlank c) = true) : IsWord word := by
  have kept := kept_of_clear clear
  refine ⟨colon, ?_, ?_⟩
  · rintro c member rfl
    cases (kept ' ' member).symm.trans (by decide : isBlank ' ' = true)
  · intro c last
    rw [← Bool.not_eq_true]
    intro ends
    cases (kept c (List.mem_of_getLast? last)).symm.trans (isBlank_of_isLineEnd ends)

theorem isWord_input : IsWord ":input".toList := .of_clear (by decide) (by decide)

theorem isWord_auto : IsWord ":auto".toList := .of_clear (by decide) (by decide)

/-- A line with a command word is a command. -/
theorem Commands.not_program {line : String} {word rest : List Char} (isWord : IsWord word)
    (commands : Commands line.toList word rest) : isProgram line = false := by
  obtain ⟨word, rfl⟩ := List.head?_eq_some_iff.mp isWord.colon
  have colon : isBlank ':' = false := by decide
  have past {front : List Char} (blank : front.all isBlank = true) :
      front.find? (fun c => !isBlank c) = none := by simpa using blank
  cases commands with
  | bare blank _ split | more blank _ _ split => simp [isProgram, split, List.find?_append, past blank, colon]

/-- The input is given by the lines that have the command word for it, and it is the rest as it stands. -/
theorem inputGiven?_eq_some {line : String} {bytes : List UInt8} :
    inputGiven? line = some bytes ↔ ∃ rest, Commands line.toList ":input".toList rest ∧
      bytes = Utf8.encode (String.ofList rest) := by
  simp only [← cut_iff isWord_input, inputGiven?]
  rcases cutAtSpace (trimStart isBlank (trim isLineEnd line.toList)) with ⟨command, rest⟩
  by_cases input : command = ":input".toList
  · simp only [input, if_true, Option.some.injEq, Prod.mk.injEq, true_and]
    exact ⟨fun same => ⟨rest, rfl, same.symm⟩, fun ⟨_, same, given⟩ => by rw [given, same]⟩
  · simp only [input, if_false, Prod.mk.injEq, false_and, exists_false, reduceCtorEq]

/-- The fallback byte is given by the first word of the rest, unless that is no byte. -/
theorem fallbackGiven?_eq_some {line : String} {fallback : Option Int} :
    fallbackGiven? line = some fallback ↔ ∃ rest word others,
      Commands line.toList ":auto".toList rest ∧ Words.split rest = .ok (word :: others) ∧
        (word = "off" ∧ fallback = none ∨
          word ≠ "off" ∧ ∃ byte, ByteLiteral.read word = .ok byte ∧ fallback = some (byte.toNat : Int)) := by
  constructor
  · intro given
    obtain ⟨word, first, value⟩ := Option.bind_eq_some_iff.mp given
    obtain ⟨rest, others, cut, parts⟩ := fallbackWord?_eq_some.mp first
    refine ⟨rest, word, others, (cut_iff isWord_auto).mp cut, parts, ?_⟩
    split at value
    · rename_i off
      exact .inl ⟨off, (Option.some.inj value).symm⟩
    · rename_i other
      rcases read : ByteLiteral.read word with error | byte <;> rw [read] at value
      · cases value
      · exact .inr ⟨other, byte, rfl, (Option.some.inj value).symm⟩
  · rintro ⟨rest, word, others, commands, parts, given⟩
    have first := fallbackWord?_eq_some.mpr ⟨rest, others, (cut_iff isWord_auto).mpr commands, parts⟩
    rw [fallbackGiven?, first, Option.bind_some]
    rcases given with ⟨rfl, rfl⟩ | ⟨other, byte, read, rfl⟩
    · rfl
    · rw [if_neg other, read]
      rfl

/-- What a line sets, and what follows from it. Whoever leaves does not come back to his settings. -/
inductive Sets (console : Console) (line : String) : Directive → Prop
  | go {later : Console} {text : String} : isProgram line = false → later.code = console.code →
      later.input = (inputGiven? line).getD console.input →
      later.fallback = (fallbackGiven? line).getD console.fallback →
      Sets console line (.go later text)
  | load : isProgram line = true → Sets console line (.load (Utf8.encode line))
  | leave {code : Nat} : isProgram line = false → Sets console line (.leave code)
  | unwritable : isProgram line = false → inputGiven? line = none → fallbackGiven? line = none →
      Sets console line .unwritable

theorem given_of_program {line : String} (program : isProgram line = true) :
    inputGiven? line = none ∧ fallbackGiven? line = none := by
  constructor
  · rw [Option.eq_none_iff_forall_ne_some]
    intro bytes given
    obtain ⟨rest, commands, -⟩ := inputGiven?_eq_some.mp given
    cases program.symm.trans (commands.not_program isWord_input)
  · rw [Option.eq_none_iff_forall_ne_some]
    intro fallback given
    obtain ⟨rest, word, others, commands, -⟩ := fallbackGiven?_eq_some.mp given
    cases program.symm.trans (commands.not_program isWord_auto)

theorem isProgram_eq_false {line : String} :
    isProgram line = false ↔ (trim isBlank line.toList).head? = some ':' := by
  simp [isProgram, head?_trim]

variable {console : Console} {seen : Snapshot} {line : String}

/-- A command that gives nothing sets nothing. -/
theorem Sets.say {text : String} (command : isProgram line = false) (input : inputGiven? line = none)
    (fallback : fallbackGiven? line = none) : Sets console line (.go console text) :=
  .go command rfl (by rw [input]; rfl) (by rw [fallback]; rfl)

theorem setFallback_sets (command : isProgram line = false) (input : inputGiven? line = none)
    {words : List String} (first : fallbackWord? line.toList = words.head?) :
    Sets console line (console.setFallback words) := by
  cases words with
  | nil => exact .say command input (by rw [fallbackGiven?, first]; rfl)
  | cons word others =>
    have given : fallbackGiven? line = if word = "off" then some none
        else (ByteLiteral.read word).toOption.map fun byte => some (byte.toNat : Int) := by
      rw [fallbackGiven?, first]
      rfl
    simp only [setFallback]
    split
    · rename_i off
      exact .go command rfl (by rw [input]; rfl) (by rw [given, if_pos off]; rfl)
    · rename_i other
      rw [if_neg other] at given
      rcases read : ByteLiteral.read word with error | byte <;> rw [read] at given
      · cases error with
        | tooLarge => exact .unwritable command input given
        | notByte | outOfRange => exact .say command input given
      · exact .go command rfl (by rw [input]; rfl) (by rw [given]; rfl)

/-- A command that is about neither of the two sets nothing. -/
theorem interpretWords_sets (command : isProgram line = false) (input : inputGiven? line = none)
    {name : String} {words : List String}
    (first : fallbackWord? line.toList = if name = ":auto" then words.head? else none) :
    Sets console line (console.interpretWords seen name words) := by
  unfold interpretWords
  split
  · rename_i auto
    rw [if_pos auto] at first
    exact setFallback_sets command input first
  · rename_i other
    have fallback : fallbackGiven? line = none := by
      rw [fallbackGiven?, first, if_neg other]
      rfl
    repeat' split
    all_goals first | exact .say command input fallback | exact .leave command

theorem interpretCommand_sets (command : isProgram line = false) :
    Sets console line (console.interpretCommand seen line.toList) := by
  rcases cut : cutAtSpace (trimStart isBlank (trim isLineEnd line.toList)) with ⟨word, rest⟩
  have input : inputGiven? line = if word = ":input".toList then
      some (Utf8.encode (String.ofList rest)) else none := by simp only [inputGiven?, cut]
  have first : fallbackWord? line.toList = if word = ":auto".toList then
      (Words.split rest).toOption.bind List.head? else none := by simp only [fallbackWord?, cut]
  simp only [interpretCommand, cut]
  split
  · rename_i same
    have other : word ≠ ":auto".toList := by rw [same]; decide
    rw [if_pos same] at input
    rw [if_neg other] at first
    exact .go command rfl (by rw [input]; rfl) (by rw [fallbackGiven?, first]; rfl)
  · rename_i other
    rw [if_neg other] at input
    rcases parts : Words.split rest with error | words <;> rw [parts] at first
    · refine .say command input ?_
      rw [fallbackGiven?, first]
      split <;> rfl
    · refine interpretWords_sets command input ?_
      have same : (String.ofList word = ":auto") = (word = ":auto".toList) := by
        rw [← String.toList_inj, String.toList_ofList]
      simp only [first, same]
      rfl

/-- A console with a way on sets what a line gives, and nothing else. -/
theorem interpret_sets (going : console.fatal = none) (seen : Snapshot) (line : String) :
    Sets console line (console.interpret seen line) := by
  simp only [interpret, going]
  split
  · rename_i colon
    exact interpretCommand_sets (isProgram_eq_false.mpr colon)
  · rename_i other
    exact .load (by rwa [← Bool.not_eq_false, isProgram_eq_false])

end Console

end TapeMachine
