import TapeMachine.Console.Session
import TapeMachine.Proofs.Console.Settings
import TapeMachine.Proofs.Text.Splitting

namespace TapeMachine

namespace Console

/-- The line begins with a word that asks to leave, before which there may be blanks, and goes on with
`tail`. -/
structure AsksToQuit (line word tail : List Char) : Prop where
  quits : isQuit (String.ofList word) = true
  begins : ∃ front, front.all isBlank = true ∧ line = front ++ word ++ tail

/-- What does not become part of the word before it: it is dropped altogether, or begins with a space. -/
def Apart (drop : Char → Bool) (tail : List Char) : Prop := tail.all drop = true ∨ tail.head? = some ' '

instance (drop : Char → Bool) (tail : List Char) : Decidable (Apart drop tail) :=
  inferInstanceAs (Decidable (_ ∨ _))

/-- The line leaves a console that has a way on. What follows the word has to be words, whichever they are. -/
def Quits (line : List Char) : Prop :=
  ∃ word tail words, AsksToQuit line word tail ∧ Apart isLineEnd tail ∧
    Words.split ((trimEnd isLineEnd tail).drop 1) = .ok words

/-- The line leaves a console that has no way on, whatever follows the word. -/
def QuitsFatal (line : List Char) : Prop := ∃ word tail, AsksToQuit line word tail ∧ Apart isBlank tail

theorem Apart.blank {tail : List Char} (apart : Apart isLineEnd tail) : Apart isBlank tail := by
  refine apart.imp_left fun ends => List.all_eq_true.mpr ?_
  exact fun c there => isBlank_of_isLineEnd (List.all_eq_true.mp ends c there)

/-- What is left behind a word begins with a space or not at all, if what was there does not become part of
the word. -/
theorem apart_iff_cut {drop : Char → Bool} {tail : List Char} :
    Apart drop tail ↔ (cutAtSpace (trimEnd drop tail)).1 = [] := by
  rcases trimmed : trimEnd drop tail with _ | ⟨c, more⟩
  · obtain ⟨ends, split, dropped, -⟩ := trimEnd_eq_append drop tail
    rw [trimmed, List.nil_append] at split
    exact iff_of_true (.inl (by rwa [split])) rfl
  · have begins : c :: more <+: tail := trimmed ▸ trimEnd_begins drop tail
    obtain ⟨ends, rfl⟩ := begins
    have stays : ¬ (c :: more ++ ends).all drop = true := by
      intro dropped
      cases trimmed.symm.trans (@trimEnd_append drop [] _ dropped (by simp))
    rw [Apart, or_iff_right stays]
    simp [cutAtSpace]

theorem Apart.cut {drop : Char → Bool} {tail : List Char} (apart : Apart drop tail) :
    cutAtSpace (trimEnd drop tail) = ([], (trimEnd drop tail).drop 1) := by
  have nothing := apart_iff_cut.mp apart
  generalize trimEnd drop tail = left at nothing
  cases left with
  | nil => rfl
  | cons c more =>
    obtain rfl : c = ' ' := by simpa [cutAtSpace] using nothing
    rfl

/-- What is said about a word that is no command. -/
def unknownText (command : List Char) : String :=
  "unknown command: " ++ Quoted.text (String.ofList command) ++ "\n" ++ help

/-- There are two words that ask to leave. -/
theorem chars_of_isQuit {word : List Char} (quits : isQuit (String.ofList word) = true) :
    word = [':', 'q', 'u', 'i', 't'] ∨ word = [':', 'e', 'x', 'i', 't'] := by
  simp only [isQuit, Bool.or_eq_true, decide_eq_true_eq] at quits
  exact quits.imp String.ofList_injective String.ofList_injective

theorem kept_of_isQuit {word : List Char} (quits : isQuit (String.ofList word) = true) :
    ∀ c ∈ word, isBlank c = false := by
  rcases chars_of_isQuit quits with rfl | rfl <;> exact kept_of_clear (by decide)

theorem isWord_of_isQuit {word : List Char} (quits : isQuit (String.ofList word) = true) : IsWord word := by
  rcases chars_of_isQuit quits with rfl | rfl <;> exact .of_clear rfl (by decide)

/-- Neither of the two words begins with the other one. -/
theorem isQuit_append {word more : List Char} (quits : isQuit (String.ofList word) = true) :
    isQuit (String.ofList (word ++ more)) = true ↔ more = [] := by
  constructor
  · intro longer
    have length {text : List Char} (quits : isQuit (String.ofList text) = true) : text.length = 5 := by
      rcases chars_of_isQuit quits with rfl | rfl <;> rfl
    have same := length longer
    rw [List.length_append, length quits] at same
    exact List.eq_nil_of_length_eq_zero (by omega)
  · rintro rfl
    rwa [List.append_nil]

/-- A word with a blank in it is no command. -/
theorem interpretWords_unknown {console : Console} {seen : Snapshot} {command : List Char} {c : Char}
    (there : c ∈ command) (blank : isBlank c = true) (words : List String) :
    console.interpretWords seen (String.ofList command) words = .go console (unknownText command) := by
  have other (name : String) (clear : name.toList.all (fun d => !isBlank d) = true) :
      String.ofList command ≠ name := by
    rintro rfl
    rw [String.toList_ofList] at clear
    cases (kept_of_clear clear c there).symm.trans blank
  unfold interpretWords unknownText
  simp only [isQuit, other ":auto" (by decide), other ":state" (by decide), other ":tape" (by decide),
    other ":quit" (by decide), other ":exit" (by decide), other ":help" (by decide), other ":?" (by decide),
    decide_false, Bool.or_self, Bool.false_eq_true, if_false]

theorem setFallback_ne_leave {console : Console} {words : List String} {code : Nat} :
    console.setFallback words ≠ .leave code := by
  unfold setFallback
  repeat' split
  all_goals exact Directive.noConfusion

theorem interpretWords_eq_leave {console : Console} {seen : Snapshot} {command : String}
    {words : List String} {code : Nat} :
    console.interpretWords seen command words = .leave code ↔ code = 0 ∧ isQuit command = true := by
  cases quits : isQuit command with
  | true =>
    have leaves : console.interpretWords seen command words = .leave 0 := by
      simp only [isQuit, Bool.or_eq_true, decide_eq_true_eq] at quits
      rcases quits with rfl | rfl <;> rfl
    rw [leaves, Directive.leave.injEq, eq_comm]
    simp
  | false =>
    simp only [interpretWords, quits, Bool.false_eq_true, and_false, iff_false, if_false]
    repeat' split
    all_goals first | exact setFallback_ne_leave | exact Directive.noConfusion

variable {line word tail : List Char}

/-- With a way on, the line ends are dropped behind the word. The word itself does not end the line, so
only what is behind it gets shorter. -/
theorem AsksToQuit.cut (asks : AsksToQuit line word tail) :
    cutAtSpace (trimStart isBlank (trim isLineEnd line)) =
      (word ++ (cutAtSpace (trimEnd isLineEnd tail)).1, (cutAtSpace (trimEnd isLineEnd tail)).2) := by
  obtain ⟨quits, front, blank, rfl⟩ := asks
  have isWord := isWord_of_isQuit quits
  obtain ⟨ends, split, closing, last⟩ := trimEnd_eq_append isLineEnd (word ++ tail)
  rw [trimEnd_behind isWord.last] at split last
  have colon : (word ++ trimEnd isLineEnd tail).head? = some ':' := by
    rw [List.head?_append, isWord.colon]
    rfl
  rw [List.append_assoc, split, ← List.append_assoc, trim_command blank closing colon last,
    cutAtSpace_behind isWord.whole]

/-- Without a way on, all blanks are dropped behind the word. -/
theorem AsksToQuit.trimmed (asks : AsksToQuit line word tail) :
    trim isBlank line = word ++ trimEnd isBlank tail := by
  obtain ⟨quits, front, blank, rfl⟩ := asks
  have first : ∀ c ∈ (word ++ tail).head?, isBlank c = false := by
    intro c begins
    rw [List.head?_append, (isWord_of_isQuit quits).colon] at begins
    obtain rfl := Option.some.inj begins
    decide
  have last : ∀ c ∈ word.getLast?, isBlank c = false :=
    fun c ends => kept_of_isQuit quits c (List.mem_of_getLast? ends)
  rw [trim, List.append_assoc, trimStart_append blank first, trimEnd_behind last]

theorem AsksToQuit.colon (asks : AsksToQuit line word tail) : (trim isBlank line).head? = some ':' := by
  rw [asks.trimmed, List.head?_append, (isWord_of_isQuit asks.quits).colon]
  rfl

theorem AsksToQuit.cut_fatal (asks : AsksToQuit line word tail) :
    (cutAtSpace (trim isBlank line)).1 = word ++ (cutAtSpace (trimEnd isBlank tail)).1 := by
  rw [asks.trimmed, cutAtSpace_behind (isWord_of_isQuit asks.quits).whole]

/-- A word that is found asks to leave by itself. -/
theorem asksToQuit_of_cut {front body ends : List Char} (blank : front.all isBlank = true)
    (split : line = front ++ body ++ ends) (quits : isQuit (String.ofList (cutAtSpace body).1) = true) :
    AsksToQuit line (cutAtSpace body).1 (body.dropWhile (· ≠ ' ') ++ ends) := by
  refine ⟨quits, front, blank, ?_⟩
  rw [split, List.append_assoc, List.append_assoc, ← List.append_assoc (cutAtSpace body).1, cutAtSpace,
    List.takeWhile_append_dropWhile]

theorem quits_iff_cut :
    Quits line ↔ isQuit (String.ofList (cutAtSpace (trimStart isBlank (trim isLineEnd line))).1) = true ∧
      ∃ words, Words.split (cutAtSpace (trimStart isBlank (trim isLineEnd line))).2 = .ok words := by
  constructor
  · rintro ⟨word, tail, words, asks, apart, parts⟩
    rw [asks.cut, apart.cut, List.append_nil]
    exact ⟨asks.quits, words, parts⟩
  · rintro ⟨quits, words, parts⟩
    obtain ⟨front, ends, split, blank, -⟩ := line_split line
    have asks := asksToQuit_of_cut blank split quits
    have cut := asks.cut
    have apart : Apart isLineEnd _ := apart_iff_cut.mpr (List.self_eq_append_right.mp (congrArg Prod.fst cut))
    refine ⟨_, _, words, asks, apart, ?_⟩
    rw [← parts, cut, apart.cut]

theorem quitsFatal_iff_cut :
    QuitsFatal line ↔ isQuit (String.ofList (cutAtSpace (trim isBlank line)).1) = true := by
  constructor
  · rintro ⟨word, tail, asks, apart⟩
    rw [asks.cut_fatal, apart.cut, List.append_nil]
    exact asks.quits
  · intro quits
    obtain ⟨front, ends, split, blank, -⟩ := trim_eq_append isBlank line
    have asks := asksToQuit_of_cut blank split quits
    exact ⟨_, _, asks, apart_iff_cut.mpr (List.self_eq_append_right.mp asks.cut_fatal)⟩

/-- What leaves a console that has a way on also leaves one that has none. -/
theorem Quits.fatal (quits : Quits line) : QuitsFatal line := by
  obtain ⟨word, tail, words, asks, apart, -⟩ := quits
  exact ⟨word, tail, asks, apart.blank⟩

/-- Blanks can always be split. -/
theorem split_blank {text : List Char} (blank : ∀ c ∈ text, isBlank c = true) :
    ∃ words, Words.split text = .ok words := by
  refine Words.split_unquoted fun c there => ?_
  have other (d : Char) (kept : isBlank d = false) : c ≠ d := by
    rintro rfl
    cases (blank c there).symm.trans kept
  simp [Words.isQuote, other _ (by decide : isBlank Quoted.backslash = false),
    other _ (by decide : isBlank Quoted.apostrophe = false),
    other _ (by decide : isBlank Quoted.quotationMark = false)]

/-- Cut blanks are blanks. -/
theorem blank_cut (blank : tail.all isBlank = true) :
    (∀ c ∈ (cutAtSpace (trimEnd isLineEnd tail)).1, isBlank c = true) ∧
      ∀ c ∈ (cutAtSpace (trimEnd isLineEnd tail)).2, isBlank c = true := by
  have left (c : Char) (there : c ∈ trimEnd isLineEnd tail) : isBlank c = true :=
    List.all_eq_true.mp blank c ((trimEnd_begins isLineEnd tail).subset there)
  constructor
  · intro c there
    exact left c ((List.takeWhile_sublist _).subset there)
  · intro c there
    exact left c ((List.dropWhile_sublist _).subset (List.mem_of_mem_drop there))

/-- With nothing but blanks behind the word, it depends on them alone whether the line leaves. -/
theorem AsksToQuit.quits_iff (asks : AsksToQuit line word tail) (blank : tail.all isBlank = true) :
    Quits line ↔ Apart isLineEnd tail := by
  rw [quits_iff_cut, asks.cut, isQuit_append asks.quits, ← apart_iff_cut, and_iff_left_iff_imp]
  rintro -
  exact split_blank (blank_cut blank).2

variable {console : Console} {seen : Snapshot} {code : Nat}

theorem interpretCommand_eq_leave :
    console.interpretCommand seen line = .leave code ↔ code = 0 ∧ Quits line := by
  rw [quits_iff_cut]
  rcases cut : cutAtSpace (trimStart isBlank (trim isLineEnd line)) with ⟨command, rest⟩
  simp only [interpretCommand, cut]
  split
  · rename_i input
    have other : isQuit (String.ofList command) = false := by rw [input]; decide
    simp [setInput, other]
  · cases parts : Words.split rest with
    | error => simp
    | ok words => simp [interpretWords_eq_leave]

theorem interpret_eq_leave {line : String} (going : console.fatal = none) :
    console.interpret seen line = .leave code ↔ code = 0 ∧ Quits line.toList := by
  simp only [interpret, going]
  split
  · exact interpretCommand_eq_leave
  · rename_i program
    refine iff_of_false Directive.noConfusion ?_
    rintro ⟨-, word, tail, words, asks, -⟩
    exact program asks.colon

theorem interpret_eq_leave_fatal {line : String} {message : String} (fatal : console.fatal = some message) :
    console.interpret seen line = .leave code ↔ code = 1 ∧ QuitsFatal line.toList := by
  rw [quitsFatal_iff_cut]
  simp only [interpret, fatal, interpretFatal]
  cases isQuit (String.ofList (cutAtSpace (trim isBlank line.toList)).1) <;> simp [eq_comm]

/-- Another blank right behind the word makes it unknown. -/
theorem AsksToQuit.interpretCommand_unknown (asks : AsksToQuit line word tail) (blank : tail.all isBlank = true)
    (joined : ¬ Apart isLineEnd tail) :
    console.interpretCommand seen line =
      .go console (unknownText (word ++ (cutAtSpace (trimEnd isLineEnd tail)).1)) := by
  obtain ⟨c, joins⟩ := List.exists_mem_of_ne_nil _ (mt apart_iff_cut.mpr joined)
  have joins_blank := (blank_cut blank).1 c joins
  have there : c ∈ word ++ (cutAtSpace (trimEnd isLineEnd tail)).1 := List.mem_append_right _ joins
  have other : word ++ (cutAtSpace (trimEnd isLineEnd tail)).1 ≠ ":input".toList := by
    intro same
    rw [same] at there
    cases (kept_of_clear (by decide) c there).symm.trans joins_blank
  obtain ⟨words, parts⟩ := split_blank (blank_cut blank).2
  simp only [interpretCommand, asks.cut, if_neg other, parts]
  exact interpretWords_unknown there joins_blank words

theorem AsksToQuit.interpret_unknown {line : String} (asks : AsksToQuit line.toList word tail)
    (blank : tail.all isBlank = true) (joined : ¬ Apart isLineEnd tail) (going : console.fatal = none) :
    console.interpret seen line =
      .go console (unknownText (word ++ (cutAtSpace (trimEnd isLineEnd tail)).1)) := by
  simp only [interpret, going, if_pos asks.colon]
  exact asks.interpretCommand_unknown blank joined

namespace Session

theorem load_ne_left (budget : Nat) (session : Session) (bytes : List UInt8) (code : Nat) :
    (session.load budget bytes).1 ≠ .left code := by
  unfold load
  simp only
  split <;> exact LineResult.noConfusion

/-- The same session; `hold` is for the runs that begin from now on. -/
def holdLater (session : Session) (hold : Option Nat) : Session :=
  { session with live := session.live.holdLater hold }

theorem enter_of_leave {session : Session} {line : String} {code : Nat}
    (leaves : session.console.interpret session.live.system.look line = .leave code) (budget : Nat)
    (hold : Option Nat) : session.enter budget line hold = (.left code, session.holdLater hold, "") := by
  simp only [enter, holdLater, Live.Session.holdLater, leaves]

theorem enter_eq_left {budget : Nat} {session : Session} {line : String} {hold : Option Nat} {code : Nat} :
    (session.enter budget line hold).1 = .left code ↔
      session.console.interpret session.live.system.look line = .leave code := by
  simp only [enter, Live.Session.holdLater]
  cases session.console.interpret session.live.system.look line with
  | load bytes => exact iff_of_false (load_ne_left _ _ _ _) Directive.noConfusion
  | go | leave | unwritable => simp

end Session

/-- A line leaves a console with 0 if it does so by the rules for a console that has a way on, and with 1 if it
does so by those for a console that has none. What passes the first rules passes the second.
If there is nothing but blanks around the word, the line leaves every console that has no way on. It leaves one
that has a way on if only line ends follow the word or the first blank behind it is a space. Otherwise the
word is unknown, together with the blanks before the first space; the line is not taken for a program, and
nothing changes. -/
theorem quit_recognised (line : String) :
    (∀ (session : Session) (budget : Nat) (hold : Option Nat) (code : Nat),
      (session.enter budget line hold).1 = .left code ↔
        session.console.fatal = none ∧ code = 0 ∧ Quits line.toList ∨
          session.console.fatal ≠ none ∧ code = 1 ∧ QuitsFatal line.toList) ∧
    (Quits line.toList → QuitsFatal line.toList) ∧
    ∀ word blanks, AsksToQuit line.toList word blanks → blanks.all isBlank = true →
      QuitsFatal line.toList ∧ (Quits line.toList ↔ Apart isLineEnd blanks) ∧
      ∀ (session : Session) (budget : Nat) (hold : Option Nat),
        (session.console.fatal ≠ none →
          session.enter budget line hold = (.left 1, session.holdLater hold, "")) ∧
        (session.console.fatal = none → Apart isLineEnd blanks →
          session.enter budget line hold = (.left 0, session.holdLater hold, "")) ∧
        (session.console.fatal = none → ¬ Apart isLineEnd blanks →
          session.enter budget line hold = (.handled, session.holdLater hold,
            unknownText (word ++ (cutAtSpace (trimEnd isLineEnd blanks)).1))) := by
  refine ⟨?_, Quits.fatal, ?_⟩
  · intro session budget hold code
    rw [Session.enter_eq_left]
    rcases fatal : session.console.fatal with _ | message
    · simp [interpret_eq_leave fatal]
    · simp [interpret_eq_leave_fatal fatal]
  · intro word blanks asks blank
    have lost : QuitsFatal line.toList := ⟨word, blanks, asks, .inl blank⟩
    have apart := asks.quits_iff blank
    refine ⟨lost, apart, ?_⟩
    intro session budget hold
    refine ⟨?_, ?_, ?_⟩
    · intro fatal
      obtain ⟨message, fatal⟩ := Option.ne_none_iff_exists'.mp fatal
      exact Session.enter_of_leave ((interpret_eq_leave_fatal fatal).mpr ⟨rfl, lost⟩) budget hold
    · intro going outside
      exact Session.enter_of_leave ((interpret_eq_leave going).mpr ⟨rfl, apart.mpr outside⟩) budget hold
    · intro going joined
      simp only [Session.enter, asks.interpret_unknown blank joined going]
      rfl

/-- A line with blanks of several kinds around the word. -/
def lineAmongBlanks : String := "\t\u3000:exit \u00a0\n\t"

/-- Behind a space, the other blanks do no harm. -/
theorem quit_recognised_among_blanks :
    AsksToQuit lineAmongBlanks.toList ":exit".toList " \u00a0\n\t".toList ∧
      (" \u00a0\n\t".toList.all isBlank = true) ∧ Apart isLineEnd " \u00a0\n\t".toList ∧
      Quits lineAmongBlanks.toList ∧ QuitsFatal lineAmongBlanks.toList ∧
      ∀ (session : Session) (budget : Nat) (hold : Option Nat), session.console.fatal = none →
        session.enter budget lineAmongBlanks hold = (.left 0, session.holdLater hold, "") := by
  have asks : AsksToQuit lineAmongBlanks.toList ":exit".toList " \u00a0\n\t".toList :=
    ⟨rfl, "\t\u3000".toList, by decide, by decide⟩
  have blank : " \u00a0\n\t".toList.all isBlank = true := by decide
  have apart : Apart isLineEnd " \u00a0\n\t".toList := by decide
  obtain ⟨-, follows, among⟩ := quit_recognised lineAmongBlanks
  obtain ⟨-, leaves, entered⟩ := among _ _ asks blank
  exact ⟨asks, blank, apart, leaves.mpr apart, follows (leaves.mpr apart),
    fun session budget hold going => (entered session budget hold).2.1 going apart⟩

/-- A console that has found out that its execution is poisoned. -/
def Session.lost : Session := ((Session.start 100 [] (some 0) .empty).outside 100 (.poison .state)).poll.1

/-- Before a tab, the word leaves a console that has no way on, and is unknown to one that has. -/
theorem quit_unknown_before_tab :
    (Session.lost.enter 100 ":quit\t" none).1 = .left 1 ∧
      ((Session.start 100 [] (some 0) .empty).enter 100 ":quit\t" none).1 = .handled ∧
      ((Session.start 100 [] (some 0) .empty).enter 100 ":quit\t" none).2.2 =
        "unknown command: ':quit\\t'\n" ++ help := by
  decide +kernel

end Console

end TapeMachine
