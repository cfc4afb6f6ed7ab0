import TapeMachine.Console.Session
import TapeMachine.Proofs.Console.Settings
import TapeMachine.Proofs.Number.Literals
import TapeMachine.Proofs.Text.Splitting

namespace TapeMachine

namespace Tape

/-- A cell as it is shown. -/
def shown (tape : Tape) (place value : Nat) : String :=
  if place = tape.cursor then s!"[{value}]" else toString value

/-- All cells as they are shown. -/
def listing (tape : Tape) : List String :=
  tape.values.zipIdx.map fun (value, place) => tape.shown place value

/-- What is in brackets. -/
def isMarked (item : String) : Bool := item.toList.head? = some '['

/-- The items of a page: those of its cells that are there, in order, and only the one of the cell under the
cursor in brackets. -/
structure IsPage (tape : Tape) (offset count : Nat) (items : List String) : Prop where
  length : items.length = min (offset + count) tape.size - offset
  item : ∀ i, i < items.length → ∃ value, tape.values[offset + i]? = some value ∧
    items[i]? = some (tape.shown (offset + i) value)
  marked : ∀ i item, items[i]? = some item → (isMarked item = true ↔ offset + i = tape.cursor)
  one : items.countP isMarked = if offset ≤ tape.cursor ∧ tape.cursor < offset + count then 1 else 0

variable {tape : Tape} {offset count : Nat} {items : List String}

theorem length_values (tape : Tape) : tape.values.length = tape.size := by
  simp [values, size]

theorem length_listing (tape : Tape) : tape.listing.length = tape.size := by
  simp [listing, length_values]

theorem getElem?_listing (tape : Tape) (place : Nat) :
    tape.listing[place]? = tape.values[place]?.map (tape.shown place) := by
  rw [listing, List.getElem?_map, List.getElem?_zipIdx, Option.map_map, Nat.zero_add]
  rfl

theorem isMarked_shown (place value : Nat) : isMarked (tape.shown place value) = true ↔ place = tape.cursor := by
  rw [shown]
  split
  · rename_i under
    have opens : s!"[{value}]".toList = '[' :: ((toString value).toList ++ [']']) := by
      rw [String.toList_append, String.toList_append]
      rfl
    refine iff_of_true ?_ under
    rw [isMarked, opens]
    rfl
  · rename_i beside
    refine iff_of_false ?_ beside
    intro marked
    obtain ⟨rest, begins⟩ := List.head?_eq_some_iff.mp (of_decide_eq_true marked)
    have member : '[' ∈ (toString value).toList := begins ▸ List.mem_cons_self
    cases Numeral.isDigit_of_mem_toString member

/-- The cells of a page, as they are listed. -/
theorem pageItems_eq (tape : Tape) (offset count : Nat) :
    Console.pageItems tape.cursor offset (tape.cells.extract offset (offset + count)).toList =
      (tape.listing.drop offset).take count := by
  refine List.ext_getElem? fun i => ?_
  rw [Console.pageItems, List.getElem?_map, List.getElem?_zipIdx, List.getElem?_take, List.getElem?_drop,
    getElem?_listing, values, List.getElem?_map, Array.getElem?_toList, Array.getElem?_toList,
    Array.getElem?_extract]
  by_cases there : offset + i < tape.cells.size
  · have place : (offset : Int) + i = tape.cursor ↔ offset + i = tape.cursor := by omega
    by_cases asked : i < count
    · rw [if_pos (by omega), if_pos asked, Array.getElem?_eq_getElem there]
      simp only [Option.map_some, Nat.zero_add, place, shown]
    · rw [if_neg (by omega), if_neg asked]
      rfl
  · rw [if_neg (by omega), Array.getElem?_eq_none (by omega)]
    simp only [Option.map_none, ite_self]

theorem getElem?_page (tape : Tape) (offset count i : Nat) :
    ((tape.listing.drop offset).take count)[i]? =
      if i < count then tape.values[offset + i]?.map (tape.shown (offset + i)) else none := by
  rw [List.getElem?_take, List.getElem?_drop, getElem?_listing]

/-- Where one place at most is marked, at most one item is. -/
theorem countP_isMarked {cursor : Nat}
    (marked : ∀ i item, items[i]? = some item → (isMarked item = true ↔ offset + i = cursor)) :
    items.countP isMarked = if offset ≤ cursor ∧ cursor < offset + items.length then 1 else 0 := by
  induction items generalizing offset with
  | nil => rw [List.countP_nil, List.length_nil, if_neg (by omega)]
  | cons item items ih =>
    have behind : ∀ i item, items[i]? = some item → (isMarked item = true ↔ offset + 1 + i = cursor) := by
      intro i other known
      rw [Nat.add_assoc, Nat.add_comm 1]
      exact marked (i + 1) other known
    have first := marked 0 item rfl
    rw [List.countP_cons, ih behind, List.length_cons]
    by_cases here : offset = cursor
    · rw [if_neg (by omega), if_pos (first.mpr here), if_pos (by omega)]
    · rw [if_neg (fun mark => here (first.mp mark)), Nat.add_zero]
      exact if_congr (by omega) rfl rfl

theorem marked_listing (tape : Tape) (offset count : Nat) :
    ∀ i item, ((tape.listing.drop offset).take count)[i]? = some item →
      (isMarked item = true ↔ offset + i = tape.cursor) := by
  intro i item known
  rw [getElem?_page, Option.ite_none_right_eq_some] at known
  obtain ⟨value, -, rfl⟩ := Option.map_eq_some_iff.mp known.2
  exact isMarked_shown _ _

theorem isPage_listing (tape : Tape) (offset count : Nat) :
    tape.IsPage offset count ((tape.listing.drop offset).take count) where
  length := by
    rw [List.length_take, List.length_drop, length_listing]
    omega
  item := by
    intro i inside
    rw [List.length_take, List.length_drop, length_listing] at inside
    have there : offset + i < tape.values.length := by
      rw [length_values]
      omega
    refine ⟨tape.values[offset + i], List.getElem?_eq_getElem there, ?_⟩
    rw [getElem?_page, if_pos (by omega), List.getElem?_eq_getElem there, Option.map_some]
  marked := marked_listing tape offset count
  one := by
    have within := tape.cursor_lt
    rw [countP_isMarked (marked_listing tape offset count), List.length_take, List.length_drop, length_listing]
    refine if_congr ?_ rfl rfl
    rw [size]
    omega

theorem IsPage.unique (page : tape.IsPage offset count items) :
    items = (tape.listing.drop offset).take count := by
  refine List.ext_getElem? fun i => ?_
  by_cases inside : i < items.length
  · obtain ⟨value, known, shown⟩ := page.item i inside
    rw [page.length] at inside
    rw [getElem?_page, if_pos (by omega), known, shown, Option.map_some]
  · rw [List.getElem?_eq_none (by omega), List.getElem?_eq_none]
    rw [List.length_take, List.length_drop, length_listing]
    rw [page.length] at inside
    omega

theorem isPage_iff : tape.IsPage offset count items ↔ items = (tape.listing.drop offset).take count :=
  ⟨IsPage.unique, fun same => same ▸ isPage_listing tape offset count⟩

theorem IsPage.append {more : List String} {a b : Nat} (page : tape.IsPage offset a items)
    (next : tape.IsPage (offset + a) b more) : tape.IsPage offset (a + b) (items ++ more) := by
  rw [isPage_iff] at page next ⊢
  rw [page, next, List.take_add, List.drop_drop]

theorem window?_natCast (tape : Tape) (offset count : Nat) :
    tape.window? offset count = some (tape.cells.extract offset (offset + count)) := by
  rw [window?, window, if_neg (by omega)]
  rfl

theorem window?_negative (tape : Tape) {offset count : Int} (negative : offset < 0 ∨ count < 0) :
    tape.window? offset count = none := by
  rw [window?, window, if_pos negative]
  rfl

theorem window?_append (tape : Tape) (offset a b : Nat) :
    ∃ first next, tape.window? offset a = some first ∧ tape.window? (offset + a : Nat) b = some next ∧
      tape.window? offset (a + b : Nat) = some (first ++ next) := by
  refine ⟨_, _, window?_natCast tape offset a, window?_natCast tape (offset + a) b, ?_⟩
  rw [window?_natCast, Array.extract_append_extract, Nat.add_assoc, Nat.min_eq_left (by omega),
    Nat.max_eq_right (by omega)]

/-- Pages that follow one another are one page. -/
theorem IsPage.flatMap {size : Nat} {items : Nat → List String}
    (each : ∀ place, tape.IsPage (place * size) size (items place)) (pages : Nat) :
    tape.IsPage 0 (pages * size) ((List.range pages).flatMap items) := by
  induction pages with
  | zero => exact isPage_iff.mpr (by simp)
  | succ pages ih =>
    rw [List.range_succ, List.flatMap_append, List.flatMap_singleton, Nat.succ_mul]
    refine ih.append ?_
    rw [Nat.zero_add]
    exact each pages

theorem pages_listing {size pages : Nat} (enough : tape.size ≤ pages * size) {items : Nat → List String}
    (each : ∀ place, tape.IsPage (place * size) size (items place)) :
    (List.range pages).flatMap items = tape.listing := by
  rw [(IsPage.flatMap each pages).unique, List.drop_zero, List.take_of_length_le]
  rwa [length_listing]

/-- A page around the cursor shows its cell in brackets. -/
theorem cursor_shown (tape : Tape) :
    ((tape.listing.drop (tape.cursor - 8)).take 16)[tape.cursor - (tape.cursor - 8)]? =
      some s!"[{tape.current.toNat}]" := by
  have place : tape.cursor - 8 + (tape.cursor - (tape.cursor - 8)) = tape.cursor := by omega
  have value : tape.values[tape.cursor]? = some tape.current.toNat := by
    rw [values, List.getElem?_map, Array.getElem?_toList, Array.getElem?_eq_getElem tape.cursor_lt]
    rfl
  rw [getElem?_page, if_pos (by omega), place, value, Option.map_some, shown, if_pos rfl]

end Tape

namespace Console

/-- The page that the words behind the command ask for. Without words it begins half a page before the
cursor, or where the tape begins. -/
inductive Asks (tape : Tape) : List String → Int → Int → Prop
  | around : Asks tape [] (tape.cursor - 8 : Nat) 16
  | here {word : String} {offset : Int} : Numeral.Signed Numeral.Decimal word.toList offset →
      Asks tape [word] offset 16
  | counted {word word' : String} {others : List String} {offset count : Int} :
      Numeral.Signed Numeral.Decimal word.toList offset → Numeral.Signed Numeral.Decimal word'.toList count →
      Asks tape (word :: word' :: others) offset count

/-- The line that shows the items of a page. -/
def pageLine (tape : Tape) (offset : Nat) (items : List String) : String :=
  s!"cursor={tape.cursor} len={tape.size} @{offset}: " ++ " ".intercalate items ++ "\n"

/-- Entering a line prints a text, and that is all it does. -/
def Session.Prints (session : Session) (budget : Nat) (line : String) (hold : Option Nat) (text : String) :
    Prop :=
  session.enter budget line hold =
    (.handled, { session with live := session.live.holdLater hold }, text)

theorem page?_eq_some {tape : Tape} {words : List String} {offset count : Int} :
    page? tape words = some (offset, count) ↔ Asks tape words offset count := by
  have around : max 0 ((tape.cursor : Int) - pageSize / 2) = (tape.cursor - 8 : Nat) := by
    rw [pageSize]
    omega
  constructor
  · intro known
    match words with
    | [] =>
      obtain ⟨rfl, rfl⟩ := Prod.mk.inj (Option.some.inj known)
      rw [around]
      exact .around
    | [word] =>
      obtain ⟨start, read, same⟩ := Option.map_eq_some_iff.mp known
      obtain ⟨rfl, rfl⟩ := Prod.mk.inj same
      exact .here (Numeral.readDecimal?_eq_some.mp read)
    | word :: word' :: others =>
      obtain ⟨start, read, known⟩ := Option.bind_eq_some_iff.mp known
      obtain ⟨length, read', same⟩ := Option.bind_eq_some_iff.mp known
      obtain ⟨rfl, rfl⟩ := Prod.mk.inj (Option.some.inj same)
      exact .counted (Numeral.readDecimal?_eq_some.mp read) (Numeral.readDecimal?_eq_some.mp read')
  · intro asks
    cases asks with
    | around =>
      rw [page?, around]
      rfl
    | here offset =>
      rw [page?, Numeral.readDecimal?_eq_some.mpr offset]
      rfl
    | counted offset count =>
      rw [page?, Numeral.readDecimal?_eq_some.mpr offset, Numeral.readDecimal?_eq_some.mpr count]
      rfl

section

variable {tape : Tape} {words : List String}

theorem tapeLine?_page {offset count : Nat} (asks : Asks tape words offset count) :
    tapeLine? tape words = some (pageLine tape offset ((tape.listing.drop offset).take count)) := by
  unfold tapeLine? pageLine
  rw [← Tape.pageItems_eq, page?_eq_some.mpr asks]
  simp only [Option.bind_eq_bind, Option.bind_some, Tape.window?_natCast]
  rfl

theorem tapeLine?_negative {offset count : Int} (asks : Asks tape words offset count)
    (negative : offset < 0 ∨ count < 0) : tapeLine? tape words = none := by
  unfold tapeLine?
  rw [page?_eq_some.mpr asks]
  simp only [Option.bind_eq_bind, Option.bind_some, Tape.window?_negative tape negative,
    Option.bind_none]

theorem tapeLine?_unasked (unasked : ∀ offset count, ¬ Asks tape words offset count) :
    tapeLine? tape words = none := by
  unfold tapeLine?
  rcases known : page? tape words with _ | ⟨offset, count⟩
  · rfl
  · exact absurd (page?_eq_some.mp known) (unasked offset count)

end

theorem isWord_tape : IsWord ":tape".toList := .of_clear (by decide) (by decide)

/-- The command for pages only prints. -/
theorem enter_tape {session : Session} (going : session.console.fatal = none) {line : String} {rest : List Char}
    {words : List String} (commands : Commands line.toList ":tape".toList rest)
    (parts : Words.split rest = .ok words) (budget : Nat) (hold : Option Nat) :
    session.Prints budget line hold ((tapeLine? session.live.system.look.tape words).getD tapeUsage) := by
  have colon := isProgram_eq_false.mp (commands.not_program isWord_tape)
  have cut := (cut_iff isWord_tape).mpr commands
  have meant : session.console.interpret session.live.system.look line =
      .go session.console ((tapeLine? session.live.system.look.tape words).getD tapeUsage) := by
    rw [interpret]
    simp only [going, colon, if_true, interpretCommand, cut, parts, String.ofList_toList, interpretWords]
    rfl
  rw [Session.Prints, Session.enter]
  simp only [meant, Live.Session.holdLater]

theorem isLineEnd_of_isDigit {c : Char} (digit : c.isDigit = true) : isLineEnd c = false := by
  have other (d : Char) (mark : d.isDigit = false) : c ≠ d := by
    rintro rfl
    cases digit.symm.trans mark
  rw [isLineEnd, Bool.or_eq_false_iff, decide_eq_false_iff_not, decide_eq_false_iff_not]
  exact ⟨other _ (by decide), other _ (by decide)⟩

/-- Two numbers behind the command. -/
theorem commands_numbers (offset count : Nat) :
    ∃ rest, Commands s!":tape {offset} {count}".toList ":tape".toList rest ∧
      Words.split rest = .ok [toString offset, toString count] := by
  refine ⟨(toString offset).toList ++ ' ' :: (toString count).toList, ?_, ?_⟩
  · refine @Commands.more _ _ [] _ [] rfl rfl ?_ ?_
    · intro c last
      have member := List.mem_of_mem_getLast? last
      rw [List.mem_append, List.mem_cons] at member
      rcases member with member | rfl | member
      · exact isLineEnd_of_isDigit (Numeral.isDigit_of_mem_toString member)
      · decide
      · exact isLineEnd_of_isDigit (Numeral.isDigit_of_mem_toString member)
    · have name : (toString ":tape ").toList = ":tape".toList ++ [' '] := by decide
      have space : (toString " ").toList = [' '] := by decide
      simp only [String.toList_append, List.append_nil, List.nil_append, List.append_assoc, name, space]
      rfl
  · rw [Words.split_pair (Numeral.toString_ne_nil offset) (Numeral.toString_ne_nil count),
      String.ofList_toList, String.ofList_toList]
    intro c member
    rw [List.mem_append] at member
    exact Words.isPlain_of_isDigit
      (member.elim Numeral.isDigit_of_mem_toString Numeral.isDigit_of_mem_toString)

/-- What the pages of a tape show. Beginning at a place of the tape, a page that is asked for lists as many
cells as are asked for and are there; a page around the cursor always shows it. Where a number is negative or
no number, the usage is shown. Every two numbers of not too many digits may be asked for, and pages that follow
one another show each cell of the tape once. -/
theorem tape_pages {session : Session} (going : session.console.fatal = none) (budget : Nat)
    (hold : Option Nat) {tape : Tape} (seen : session.live.system.look.tape = tape) :
    (∀ line rest words, Commands line.toList ":tape".toList rest → Words.split rest = .ok words →
      (∀ offset count : Nat, Asks tape words offset count →
        ∃ items, tape.IsPage offset count items ∧
          session.Prints budget line hold (pageLine tape offset items)) ∧
      (words = [] → ∃ items, tape.IsPage (tape.cursor - 8) 16 items ∧
        items[tape.cursor - (tape.cursor - 8)]? = some s!"[{tape.current.toNat}]" ∧
          session.Prints budget line hold (pageLine tape (tape.cursor - 8) items)) ∧
      (∀ offset count : Int, Asks tape words offset count → offset < 0 ∨ count < 0 →
        session.Prints budget line hold tapeUsage) ∧
      ((∀ offset count, ¬ Asks tape words offset count) → session.Prints budget line hold tapeUsage)) ∧
    (∀ offset count : Nat, offset < 10 ^ Numeral.digitLimit → count < 10 ^ Numeral.digitLimit →
      ∃ items, tape.IsPage offset count items ∧
        session.Prints budget s!":tape {offset} {count}" hold (pageLine tape offset items)) ∧
    (∀ offset a b : Nat, ∃ first next, tape.window? offset a = some first ∧
      tape.window? (offset + a : Nat) b = some next ∧
      tape.window? offset (a + b : Nat) = some (first ++ next)) ∧
    ∀ size pages items, tape.size ≤ pages * size →
      (∀ place, tape.IsPage (place * size) size (items place)) →
      (List.range pages).flatMap items = tape.listing := by
  subst seen
  have prints {line : String} {rest : List Char} {words : List String}
      (commands : Commands line.toList ":tape".toList rest) (parts : Words.split rest = .ok words) :=
    enter_tape going commands parts budget hold
  have page {line : String} {rest : List Char} {words : List String}
      (commands : Commands line.toList ":tape".toList rest) (parts : Words.split rest = .ok words)
      {offset count : Nat} (asks : Asks session.live.system.look.tape words offset count) :
      session.Prints budget line hold (pageLine session.live.system.look.tape offset
        ((session.live.system.look.tape.listing.drop offset).take count)) := by
    have printed := prints commands parts
    rwa [tapeLine?_page asks] at printed
  refine ⟨fun line rest words commands parts => ⟨?_, ?_, ?_, ?_⟩, ?_, Tape.window?_append _, ?_⟩
  · intro offset count asks
    exact ⟨_, Tape.isPage_listing _ offset count, page commands parts asks⟩
  · rintro rfl
    refine ⟨_, Tape.isPage_listing _ _ 16, ?_, page commands parts .around⟩
    exact Tape.cursor_shown _
  · intro offset count asks negative
    have printed := prints commands parts
    rwa [tapeLine?_negative asks negative] at printed
  · intro unasked
    have printed := prints commands parts
    rwa [tapeLine?_unasked unasked] at printed
  · intro offset count short short'
    obtain ⟨rest, commands, parts⟩ := commands_numbers offset count
    refine ⟨_, Tape.isPage_listing _ offset count, page commands parts ?_⟩
    exact .counted (Numeral.signed_toString short) (Numeral.signed_toString short')
  · intro size pages items enough each
    exact Tape.pages_listing enough each

/-- A console whose program has come to its end on the third cell. -/
def behindRun : Session := ((Session.start 40 [] none .empty).enter 40 "+>++>" none).2.1

theorem tape_pages_behind_run :
    (∃ items, behindRun.live.system.look.tape.IsPage 1 5 items ∧
      behindRun.Prints 40 ":tape 1 5" none (pageLine behindRun.live.system.look.tape 1 items)) ∧
    behindRun.Prints 40 " :tape 0x1 3\n" none tapeUsage ∧
    behindRun.Prints 40 ":tape 2 -1" none tapeUsage := by
  have going : behindRun.console.fatal = none := by decide +kernel
  have pages := tape_pages going 40 none rfl
  have command (line : String) (front rest ends : List Char) (blank : front.all isBlank = true)
      (closing : ends.all isLineEnd = true) (last : ∀ c ∈ rest.getLast?, isLineEnd c = false)
      (split : line.toList = front ++ ":tape".toList ++ ' ' :: rest ++ ends) :
      Commands line.toList ":tape".toList rest := .more blank closing last split
  refine ⟨pages.2.1 1 5 (by decide +kernel) (by decide +kernel), ?_, ?_⟩
  · have line := command " :tape 0x1 3\n" [' '] "0x1 3".toList ['\n'] rfl rfl (by simp [isLineEnd]) (by decide)
    refine (pages.1 _ _ ["0x1", "3"] line (by decide +kernel)).2.2.2 fun offset count asks => ?_
    have unread : page? behindRun.live.system.look.tape ["0x1", "3"] = none := by decide +kernel
    cases unread.symm.trans (page?_eq_some.mpr asks)
  · have line := command ":tape 2 -1" [] "2 -1".toList [] rfl rfl (by simp [isLineEnd]) (by decide)
    refine (pages.1 _ _ ["2", "-1"] line (by decide +kernel)).2.2.1 2 (-1) (page?_eq_some.mp ?_) (.inr (by decide))
    decide +kernel

example : (behindRun.enter 40 ":tape 0 5" none).2.2 = "cursor=2 len=3 @0: 1 2 [0]\n" := by decide +kernel

end Console

end TapeMachine
