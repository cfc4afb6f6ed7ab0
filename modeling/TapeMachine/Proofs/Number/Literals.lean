import Mathlib.Data.List.Induction
import Mathlib.Data.Nat.Digits.Defs
import TapeMachine.Number.Numeral
import TapeMachine.Proofs.Text.Trimming

namespace TapeMachine

namespace Numeral

/-- A blank that may stand around a numeral. The four separators of ASCII may not. -/
def isGap (c : Char) : Bool := isBlank c && !(0x1C ≤ c.toNat && c.toNat ≤ 0x1F)

/-- A digit of a base, and its value: a decimal digit of some script, or a letter from `a` to `f`. -/
inductive IsDigit (base : Nat) (c : Char) : Nat → Prop
  | decimal {value : Nat} : Digit.value? c = some value → value < base → IsDigit base c value
  | small {place : Nat} : c.toNat = 0x61 + place → 10 + place < base → IsDigit base c (10 + place)
  | capital {place : Nat} : c.toNat = 0x41 + place → 10 + place < base → IsDigit base c (10 + place)

/-- A run of digits. Between two of them there may be an underscore. -/
inductive Digits (base : Nat) : List Char → List Nat → Prop
  | last {c : Char} {value : Nat} : IsDigit base c value → Digits base [c] [value]
  | next {c : Char} {value : Nat} {text : List Char} {values : List Nat} :
      IsDigit base c value → Digits base text values → Digits base (c :: text) (value :: values)
  | apart {c : Char} {value : Nat} {text : List Char} {values : List Nat} :
      IsDigit base c value → Digits base text values →
      Digits base (c :: '_' :: text) (value :: values)

/-- What digits are worth, the most significant first. -/
def worth (base : Nat) (values : List Nat) : Nat := Nat.ofDigits base values.reverse

/-- A decimal numeral of not too many digits. -/
inductive Decimal (text : List Char) : Nat → Prop
  | of {values : List Nat} : Digits 10 text values → values.length ≤ digitLimit →
      Decimal text (worth 10 values)

/-- The letter that tells the base of the digits behind it. -/
inductive Tells : Char → Nat → Prop
  | x : Tells 'x' 16
  | X : Tells 'X' 16
  | o : Tells 'o' 8
  | O : Tells 'O' 8
  | b : Tells 'b' 2
  | B : Tells 'B' 2

/-- A number without sign: decimal digits that do not begin with a zero or are all zeros, or a zero and
the letter of a base before the digits, between which there may be an underscore. -/
inductive Literal : List Char → Nat → Prop
  | decimal {text : List Char} {values : List Nat} : Digits 10 text values →
      values.length ≤ digitLimit → (values.head? = some 0 → ∀ value ∈ values, value = 0) →
      Literal text (worth 10 values)
  | based {zero letter : Char} {base : Nat} {text : List Char} {values : List Nat} :
      IsDigit 10 zero 0 → Tells letter base → Digits base text values →
      Literal (zero :: letter :: text) (worth base values)
  | apart {zero letter : Char} {base : Nat} {text : List Char} {values : List Nat} :
      IsDigit 10 zero 0 → Tells letter base → Digits base text values →
      Literal (zero :: letter :: '_' :: text) (worth base values)

/-- A number with or without a sign, and with blanks around it. -/
inductive Signed (Number : List Char → Nat → Prop) (text : List Char) : Int → Prop
  | bare {front body ends : List Char} {value : Nat} : front.all isGap = true → ends.all isGap = true →
      Number body value → text = front ++ body ++ ends → Signed Number text value
  | plus {front body ends : List Char} {value : Nat} : front.all isGap = true → ends.all isGap = true →
      Number body value → text = front ++ '+' :: body ++ ends → Signed Number text value
  | minus {front body ends : List Char} {value : Nat} : front.all isGap = true → ends.all isGap = true →
      Number body value → text = front ++ '-' :: body ++ ends → Signed Number text (-value)

theorem digit?_eq_some {base value : Nat} {c : Char} : digit? base c = some value ↔ value < base ∧
    (0x30 ≤ c.toNat ∧ c.toNat ≤ 0x39 ∧ value = c.toNat - 0x30 ∨
      0x61 ≤ c.toNat ∧ c.toNat ≤ 0x66 ∧ value = c.toNat - 0x57 ∨
      0x41 ≤ c.toNat ∧ c.toNat ≤ 0x46 ∧ value = c.toNat - 0x37) := by
  have least (d : Char) : d ≤ c ↔ d.toNat ≤ c.toNat := Iff.rfl
  have most (d : Char) : c ≤ d ↔ c.toNat ≤ d.toNat := Iff.rfl
  simp only [digit?, Bool.and_eq_true, decide_eq_true_eq, least, most, Char.reduceToNat,
    Option.ite_none_right_eq_some, Option.some.injEq]
  split_ifs <;> omega

/-- In ASCII there are ten decimal digits. -/
theorem value?_ascii {c : Char} (ascii : c.toNat < 0x80) :
    Digit.value? c = if 0x30 ≤ c.toNat ∧ c.toNat ≤ 0x39 then some (c.toNat - 0x30) else none := by
  have others : Digit.decimal.tail.find? (fun range => range.1 ≤ c.toNat && c.toNat ≤ range.2) = none := by
    have beyond : ∀ range ∈ Digit.decimal.tail, 0x80 ≤ range.1 := by decide
    rw [List.find?_eq_none]
    intro range member
    have := beyond range member
    simp only [Bool.and_eq_true, decide_eq_true_eq]
    omega
  have table : Digit.decimal = (0x30, 0x39) :: Digit.decimal.tail := rfl
  rw [Digit.value?, table, List.find?_cons]
  by_cases own : 0x30 ≤ c.toNat ∧ c.toNat ≤ 0x39
  · simp only [own, decide_true, Bool.and_self, Option.map_some, and_self, if_true, Option.some.injEq]
    omega
  · have apart : (decide (0x30 ≤ c.toNat) && decide (c.toNat ≤ 0x39)) = false := by simpa using own
    simp only [apart, others, own, if_false, Option.map_none]

theorem value?_lt {c : Char} {value : Nat} (digit : Digit.value? c = some value) : value < 10 := by
  obtain ⟨range, -, rfl⟩ := Option.map_eq_some_iff.mp digit
  exact Nat.mod_lt _ (by decide)

/-- No blank is a digit. -/
theorem value?_of_isBlank {c : Char} (blank : isBlank c = true) : Digit.value? c = none := by
  have apart : ∀ range ∈ Blank.ranges, ∀ digits ∈ Digit.decimal,
      range.2 < digits.1 ∨ digits.2 < range.1 := by decide
  obtain ⟨range, member, within⟩ := List.any_eq_true.mp blank
  rw [Digit.value?, Option.map_eq_none_iff, List.find?_eq_none]
  intro digits member'
  have := apart range member digits member'
  simp only [Bool.and_eq_true, decide_eq_true_eq] at within ⊢
  omega

/-- How numerals see a character. -/
theorem plain_cases (c : Char) :
    c.toNat < 0x80 ∧ plain c = c ∨
    0x80 ≤ c.toNat ∧ (isBlank c = true ∧ Digit.value? c = none ∧ plain c = ' ' ∨
      isBlank c = false ∧ (∃ value, Digit.value? c = some value ∧ plain c = Nat.digitChar value) ∨
      isBlank c = false ∧ Digit.value? c = none ∧ plain c = '?') := by
  by_cases ascii : c.toNat < 0x80
  · exact .inl ⟨ascii, if_pos ascii⟩
  · refine .inr ⟨Nat.le_of_not_lt ascii, ?_⟩
    cases blank : isBlank c with
    | true => exact .inl ⟨rfl, value?_of_isBlank blank, by simp [plain, ascii, blank]⟩
    | false =>
      rcases digit : Digit.value? c with _ | value
      · exact .inr (.inr ⟨rfl, rfl, by simp [plain, ascii, blank, digit, stranger]⟩)
      · exact .inr (.inl ⟨rfl, value, rfl, by simp [plain, ascii, blank, digit]⟩)

theorem digitChar_code {value : Nat} (small : value < 10) : (Nat.digitChar value).toNat = 0x30 + value :=
  Nat.toNat_digitChar_of_lt_ten small

/-- A digit is seen as what it is worth. -/
theorem digit?_plain {base value : Nat} (fits : base ≤ 16) {c : Char} :
    digit? base (plain c) = some value ↔ IsDigit base c value := by
  rw [digit?_eq_some]
  have cases_of : IsDigit base c value ↔ value < base ∧ (Digit.value? c = some value ∨
      c.toNat + 10 = 0x61 + value ∧ 10 ≤ value ∨ c.toNat + 10 = 0x41 + value ∧ 10 ≤ value) := by
    constructor
    · rintro (⟨digit, bound⟩ | ⟨code, bound⟩ | ⟨code, bound⟩)
      · exact ⟨bound, .inl digit⟩
      · exact ⟨bound, .inr (.inl (by omega))⟩
      · exact ⟨bound, .inr (.inr (by omega))⟩
    · rintro ⟨bound, digit | ⟨code, least⟩ | ⟨code, least⟩⟩
      · exact .decimal digit bound
      all_goals
        obtain ⟨place, rfl⟩ := Nat.exists_eq_add_of_le least
      · exact .small (by omega) bound
      · exact .capital (by omega) bound
  rw [cases_of]
  refine and_congr_right fun bound => ?_
  obtain ⟨ascii, same⟩ | ⟨beyond, ⟨-, digit, same⟩ | ⟨-, worth, digit, same⟩ | ⟨-, digit, same⟩⟩ :=
    plain_cases c
  · simp only [same, value?_ascii ascii, Option.ite_none_right_eq_some, Option.some.injEq]
    omega
  · simp only [same, digit, Char.reduceToNat, reduceCtorEq, false_or]
    omega
  · have small := value?_lt digit
    simp only [same, digit, digitChar_code small, Option.some.injEq]
    omega
  · simp only [same, digit, Char.reduceToNat, reduceCtorEq, false_or]
    omega

theorem isSpacing_iff (c : Char) :
    isSpacing c = true ↔ c.toNat = 0x20 ∨ 0x09 ≤ c.toNat ∧ c.toNat ≤ 0x0D := by
  simp [isSpacing, ← Char.toNat_inj]

theorem isSpacing_plain (c : Char) : isSpacing (plain c) = isGap c := by
  rw [Bool.eq_iff_iff, isSpacing_iff]
  obtain ⟨ascii, same⟩ | ⟨beyond, ⟨blank, -, same⟩ | ⟨blank, worth, digit, same⟩ | ⟨blank, -, same⟩⟩ :=
    plain_cases c
  · rw [same]
    simp only [isGap, isBlank, CharRanges.contains, Blank.ranges, List.any_cons, List.any_nil,
      Bool.and_eq_true, Bool.or_eq_true, decide_eq_true_eq, Bool.not_eq_true', Bool.and_eq_false_iff,
      decide_eq_false_iff_not, Bool.false_eq_true, or_false]
    omega
  · simp only [same, isGap, blank, Char.reduceToNat, Bool.and_eq_true, Bool.not_eq_true',
      Bool.and_eq_false_iff, decide_eq_false_iff_not, true_or, true_and, true_iff]
    omega
  · have small := value?_lt digit
    simp only [same, isGap, blank, digitChar_code small, Bool.false_and, Bool.false_eq_true, iff_false]
    omega
  · simp [same, isGap, blank]

/-- A character of ASCII that is neither a blank nor a digit is only seen where it stands. -/
theorem plain_eq_iff {c d : Char} (ascii : d.toNat < 0x80)
    (other : d ≠ ' ' ∧ d ≠ '?' ∧ d.isDigit = false) : plain c = d ↔ c = d := by
  obtain ⟨-, same⟩ | ⟨beyond, away⟩ := plain_cases c
  · rw [same]
  · refine iff_of_false ?_ ?_
    · rintro rfl
      obtain ⟨-, -, same⟩ | ⟨-, worth, digit, same⟩ | ⟨-, -, same⟩ := away
      · exact other.1 same
      · have digits : ∀ value < 10, (Nat.digitChar value).isDigit = true := by decide
        rw [same, digits worth (value?_lt digit)] at other
        cases other.2.2
      · exact other.2.1 same
    · rintro rfl
      omega

theorem plain_zero_iff {c : Char} : plain c = '0' ↔ IsDigit 10 c 0 := by
  rw [← digit?_plain (by decide), digit?_eq_some, ← Char.toNat_inj]
  simp only [Char.reduceToNat]
  omega

section Runs

variable {base n : Nat} {text : List Char} {values : List Nat} {c : Char}

theorem IsDigit.mono {value : Nat} (digit : IsDigit base c value) (fits : base ≤ 16) :
    IsDigit 16 c value := by
  cases digit with
  | decimal digit bound => exact .decimal digit (by omega)
  | small code bound => exact .small code (by omega)
  | capital code bound => exact .capital code (by omega)

/-- A character of ASCII that is no digit and no letter up to `f`. -/
theorem not_isDigit {value : Nat} (ascii : c.toNat < 0x80) (other : digit? 16 c = none) :
    ¬ IsDigit 16 c value := by
  rw [← digit?_plain (by decide), plain, if_pos ascii, other]
  nofun

theorem Digits.first (digits : Digits base text values) :
    ∃ c rest value more, text = c :: rest ∧ values = value :: more ∧ IsDigit base c value := by
  cases digits with
  | last digit | next digit | apart digit => exact ⟨_, _, _, _, rfl, rfl, digit⟩

theorem Digits.ends (digits : Digits base text values) :
    ∃ front c value, text = front ++ [c] ∧ IsDigit base c value := by
  induction digits with
  | last digit => exact ⟨[], _, _, rfl, digit⟩
  | @next c _ _ _ _ _ ih =>
    obtain ⟨front, d, value, rfl, digit⟩ := ih
    exact ⟨c :: front, d, value, rfl, digit⟩
  | @apart c _ _ _ _ _ ih =>
    obtain ⟨front, d, value, rfl, digit⟩ := ih
    exact ⟨c :: '_' :: front, d, value, rfl, digit⟩

theorem Digits.of_digits? (fits : base ≤ 16) (read : digits? base (text.map plain) = some values) :
    Digits base text values := by
  generalize seen : text.map plain = plains at read
  fun_induction digits? base plains generalizing text values with
  | case1 => cases read
  | case2 d =>
    obtain ⟨c, rfl, rfl⟩ := List.map_eq_singleton_iff.mp seen
    obtain ⟨value, digit, rfl⟩ := Option.map_eq_some_iff.mp read
    exact .last ((digit?_plain fits).mp digit)
  | case3 d rest ih =>
    obtain ⟨c, tail, rfl, rfl, seen'⟩ := List.map_eq_cons_iff.mp seen
    obtain ⟨mark, rest, rfl, underscore, rfl⟩ := List.map_eq_cons_iff.mp seen'
    obtain rfl := (plain_eq_iff (by decide) (by decide)).mp underscore
    obtain ⟨value, digit, read⟩ := Option.bind_eq_some_iff.mp read
    obtain ⟨more, behind, same⟩ := Option.bind_eq_some_iff.mp read
    obtain rfl := Option.some.inj same
    exact .apart ((digit?_plain fits).mp digit) (ih rfl behind)
  | case4 d rest _ _ ih =>
    obtain ⟨c, text, rfl, rfl, rfl⟩ := List.map_eq_cons_iff.mp seen
    obtain ⟨value, digit, read⟩ := Option.bind_eq_some_iff.mp read
    obtain ⟨more, behind, same⟩ := Option.bind_eq_some_iff.mp read
    obtain rfl := Option.some.inj same
    exact .next ((digit?_plain fits).mp digit) (ih rfl behind)

theorem Digits.digits? (fits : base ≤ 16) (digits : Digits base text values) :
    Numeral.digits? base (text.map plain) = some values := by
  induction digits with
  | last digit => simp only [List.map_cons, List.map_nil, Numeral.digits?, (digit?_plain fits).mpr digit, Option.map_some]
  | next digit more ih =>
    obtain ⟨d, rest, value, others, rfl, rfl, first⟩ := more.first
    have joined : plain d ≠ '_' := by
      rw [Ne, plain_eq_iff (by decide) (by decide)]
      rintro rfl
      exact not_isDigit (by decide) (by decide) (first.mono fits)
    rw [List.map_cons] at ih
    rw [List.map_cons, List.map_cons, Numeral.digits?, (digit?_plain fits).mpr digit, ih]
    · rfl
    · exact List.cons_ne_nil _ _
    · intro behind same
      exact joined (List.cons.inj same).1
  | apart digit _ ih =>
    have underscore : plain '_' = '_' := by decide
    rw [List.map_cons, List.map_cons, underscore, Numeral.digits?, (digit?_plain fits).mpr digit, ih]
    rfl

theorem digits?_plain (fits : base ≤ 16) :
    digits? base (text.map plain) = some values ↔ Digits base text values :=
  ⟨Digits.of_digits? fits, Digits.digits? fits⟩

theorem ofDigits_eq_worth (base : Nat) (values : List Nat) : ofDigits base values = worth base values := by
  induction values using List.reverseRecOn with
  | nil => rfl
  | append_singleton values value ih =>
    have last : ofDigits base (values ++ [value]) = ofDigits base values * base + value := by
      rw [ofDigits, List.foldl_append]
      rfl
    rw [last, ih, worth, worth, List.reverse_append, List.reverse_singleton, List.singleton_append,
      Nat.ofDigits_cons, Nat.mul_comm, Nat.add_comm]

/-- Zeros are worth nothing, and nothing else is. -/
theorem worth_eq_zero (positive : 0 < base) : worth base values = 0 ↔ ∀ value ∈ values, value = 0 := by
  have zeros (digits : List Nat) : Nat.ofDigits base digits = 0 ↔ ∀ digit ∈ digits, digit = 0 := by
    induction digits with
    | nil => simp [Nat.ofDigits]
    | cons digit digits ih =>
      rw [Nat.ofDigits_cons, Nat.add_eq_zero_iff, Nat.mul_eq_zero, ih, List.forall_mem_cons]
      have := positive.ne'
      tauto
  rw [worth, zeros]
  simp only [List.mem_reverse]

theorem decimal?_plain : decimal? (text.map plain) = some n ↔ Decimal text n := by
  simp only [decimal?, Option.bind_eq_bind, Option.bind_eq_some_iff, digits?_plain (by decide : 10 ≤ 16),
    Option.ite_none_right_eq_some, Option.some.injEq, ofDigits_eq_worth]
  constructor
  · rintro ⟨values, digits, bound, rfl⟩
    exact .of digits bound
  · rintro ⟨digits, bound⟩
    exact ⟨_, digits, bound, rfl⟩

theorem afterPrefix?_plain (fits : base ≤ 16) : afterPrefix? base (text.map plain) = some n ↔
    ∃ values, (Digits base text values ∨ ∃ more, text = '_' :: more ∧ Digits base more values) ∧
      n = worth base values := by
  have read (text : List Char) : (digits? base (text.map plain)).map (ofDigits base) = some n ↔
      ∃ values, Digits base text values ∧ n = worth base values := by
    simp only [Option.map_eq_some_iff, digits?_plain fits, ofDigits_eq_worth, eq_comm (a := n)]
  by_cases joint : ∃ more, text = '_' :: more
  · obtain ⟨more, rfl⟩ := joint
    have alone (values : List Nat) : ¬ Digits base ('_' :: more) values := by
      intro digits
      obtain ⟨c, rest, value, others, same, -, digit⟩ := digits.first
      obtain ⟨rfl, rfl⟩ := List.cons.inj same
      exact not_isDigit (by decide) (by decide) (digit.mono fits)
    have underscore : plain '_' = '_' := by decide
    rw [List.map_cons, underscore, afterPrefix?, read]
    simp [alone]
  · have other : ∀ rest, text.map plain = '_' :: rest → False := by
      intro rest same
      obtain ⟨c, more, rfl, underscore, -⟩ := List.map_eq_cons_iff.mp same
      exact joint ⟨more, by rw [(plain_eq_iff (by decide) (by decide)).mp underscore]⟩
    rw [afterPrefix?, read]
    · have : ∀ more values, ¬ (text = '_' :: more ∧ Digits base more values) :=
        fun more values same => joint ⟨more, same.1⟩
      simp [this]
    · exact other

namespace Tells

variable {letter : Char}

theorem fits (tells : Tells letter base) : base ≤ 16 := by
  cases tells <;> decide

theorem plain_iff (tells : Tells letter base) : plain c = letter ↔ c = letter := by
  cases tells <;> exact plain_eq_iff (by decide) (by decide)

/-- No letter of a base continues a decimal numeral. -/
theorem not_digits (tells : Tells letter base) : ¬ Digits 10 (c :: letter :: text) values := by
  intro digits
  cases digits with
  | next _ digits =>
    obtain ⟨d, rest, value, more, same, -, digit⟩ := digits.first
    obtain ⟨rfl, rfl⟩ := List.cons.inj same
    rw [← digit?_plain (by decide), tells.plain_iff.mpr rfl] at digit
    cases tells <;> cases digit
  | apart _ _ => cases tells

theorem literal? (tells : Tells letter base) (rest : List Char) :
    Numeral.literal? ('0' :: letter :: rest) = afterPrefix? base rest := by
  cases tells <;> rfl

end Tells

/-- A numeral that begins with a zero and tells no base is a zero. -/
theorem literal?_zero {text : List Char}
    (untold : ∀ letter base rest, Tells letter base → text ≠ letter :: rest) :
    literal? ('0' :: text) = some n ↔ decimal? ('0' :: text) = some n ∧ n = 0 := by
  rw [literal?]
  · rcases decimal? ('0' :: text) with _ | _ | value
    · simp
    · simp +contextual [eq_comm]
    · simp +contextual [eq_comm]
  · exact fun rest => untold _ _ rest .x
  · exact fun rest => untold _ _ rest .X
  · exact fun rest => untold _ _ rest .o
  · exact fun rest => untold _ _ rest .O
  · exact fun rest => untold _ _ rest .b
  · exact fun rest => untold _ _ rest .B

theorem literal?_decimal (other : ∀ rest, text ≠ '0' :: rest) : literal? text = decimal? text := by
  rw [literal?]
  all_goals
    rintro rest same
    exact other _ same

theorem IsDigit.unique {one two : Nat} (first : IsDigit 10 c one) (second : IsDigit 10 c two) : one = two := by
  rw [← digit?_plain (by decide)] at first second
  exact Option.some.inj (first.symm.trans second)

/-- Without the letter of a base a number is decimal, and zero if it begins with a zero. -/
theorem literal_iff_decimal
    (untold : ∀ zero letter base rest, IsDigit 10 zero 0 → Tells letter base → text ≠ zero :: letter :: rest) :
    Literal text n ↔ Decimal text n ∧ ((∃ zero rest, text = zero :: rest ∧ IsDigit 10 zero 0) → n = 0) := by
  constructor
  · rintro (⟨digits, bound, zeros⟩ | ⟨zero, tells, -⟩ | ⟨zero, tells, -⟩)
    · refine ⟨.of digits bound, fun ⟨zero, rest, same, digit⟩ => (worth_eq_zero (by decide)).mpr (zeros ?_)⟩
      obtain ⟨c, more, value, others, same', rfl, first⟩ := digits.first
      obtain ⟨rfl, -⟩ := List.cons.inj (same.symm.trans same')
      rw [List.head?_cons, first.unique digit]
    · exact absurd rfl (untold _ _ _ _ zero tells)
    · exact absurd rfl (untold _ _ _ _ zero tells)
  · rintro ⟨⟨digits, bound⟩, zero⟩
    refine .decimal digits bound fun head => (worth_eq_zero (by decide)).mp (zero ?_)
    obtain ⟨c, more, value, others, rfl, rfl, first⟩ := digits.first
    obtain rfl := Option.some.inj head
    exact ⟨c, more, rfl, first⟩

/-- With the letter of a base a number is what the digits behind the letter are worth. -/
theorem literal_iff_based {zero letter : Char} (begins : IsDigit 10 zero 0) (tells : Tells letter base) :
    Literal (zero :: letter :: text) n ↔
      ∃ values, (Digits base text values ∨ ∃ more, text = '_' :: more ∧ Digits base more values) ∧
        n = worth base values := by
  have unique {other : Nat} (tells' : Tells letter other) : other = base := by
    cases tells <;> cases tells' <;> rfl
  constructor
  · intro literal
    cases literal with
    | decimal digits => exact absurd digits tells.not_digits
    | based _ tells' digits =>
      obtain rfl := unique tells'
      exact ⟨_, .inl digits, rfl⟩
    | apart _ tells' digits =>
      obtain rfl := unique tells'
      exact ⟨_, .inr ⟨_, rfl, digits⟩, rfl⟩
  · rintro ⟨values, digits | ⟨more, rfl, digits⟩, rfl⟩
    · exact .based begins tells digits
    · exact .apart begins tells digits

theorem literal?_plain : literal? (text.map plain) = some n ↔ Literal text n := by
  by_cases told : ∃ zero letter base rest, IsDigit 10 zero 0 ∧ Tells letter base ∧ text = zero :: letter :: rest
  · obtain ⟨zero, letter, base, rest, begins, tells, rfl⟩ := told
    rw [List.map_cons, List.map_cons, plain_zero_iff.mpr begins, tells.plain_iff.mpr rfl, tells.literal?,
      afterPrefix?_plain tells.fits, literal_iff_based begins tells]
  have untold : ∀ zero letter base rest, IsDigit 10 zero 0 → Tells letter base → text ≠ zero :: letter :: rest :=
    fun zero letter base rest begins tells same => told ⟨zero, letter, base, rest, begins, tells, same⟩
  rw [literal_iff_decimal untold]
  by_cases zero : ∃ zero rest, text = zero :: rest ∧ IsDigit 10 zero 0
  · obtain ⟨c, rest, rfl, begins⟩ := zero
    have seen : (c :: rest).map plain = '0' :: rest.map plain := by
      rw [List.map_cons, plain_zero_iff.mpr begins]
    rw [seen, literal?_zero, ← seen, decimal?_plain]
    · exact and_congr_right fun _ => ⟨fun same _ => same, fun same => same ⟨c, rest, rfl, begins⟩⟩
    · intro letter base more tells same
      obtain ⟨d, behind, rfl, letter', -⟩ := List.map_eq_cons_iff.mp same
      exact untold c d base behind begins (tells.plain_iff.mp letter' ▸ tells) rfl
  · rw [literal?_decimal, decimal?_plain]
    · exact ⟨fun decimal => ⟨decimal, fun begins => absurd begins zero⟩, And.left⟩
    · intro rest same
      obtain ⟨c, behind, rfl, digit, -⟩ := List.map_eq_cons_iff.mp same
      exact zero ⟨c, behind, rfl, plain_zero_iff.mp digit⟩

end Runs

/-- A reader that reads the numbers of a kind, whose ends are digits. -/
structure Reads (number : List Char → Option Nat) (Number : List Char → Nat → Prop) : Prop where
  same : ∀ {text n}, number (text.map plain) = some n ↔ Number text n
  first : ∀ {text n}, Number text n → ∃ c rest value, text = c :: rest ∧ IsDigit 16 c value
  last : ∀ {text n}, Number text n → ∃ front c value, text = front ++ [c] ∧ IsDigit 16 c value

theorem Digits.reads {base : Nat} {text : List Char} {values : List Nat} (fits : base ≤ 16)
    (digits : Digits base text values) :
    (∃ c rest value, text = c :: rest ∧ IsDigit 16 c value) ∧
      ∃ front c value, text = front ++ [c] ∧ IsDigit 16 c value := by
  obtain ⟨c, rest, value, -, same, -, first⟩ := digits.first
  obtain ⟨front, d, value', same', last⟩ := digits.ends
  exact ⟨⟨c, rest, value, same, first.mono fits⟩, front, d, value', same', last.mono fits⟩

theorem reads_decimal : Reads decimal? Decimal where
  same := decimal?_plain
  first := fun ⟨digits, _⟩ => (digits.reads (by decide)).1
  last := fun ⟨digits, _⟩ => (digits.reads (by decide)).2

theorem reads_literal : Reads literal? Literal where
  same := literal?_plain
  first := by
    rintro text n (⟨digits, -, -⟩ | ⟨zero, -, -⟩ | ⟨zero, -, -⟩)
    · exact (digits.reads (by decide)).1
    · exact ⟨_, _, _, rfl, zero.mono (by decide)⟩
    · exact ⟨_, _, _, rfl, zero.mono (by decide)⟩
  last := by
    rintro text n (⟨digits, -, -⟩ | ⟨-, tells, digits⟩ | ⟨-, tells, digits⟩)
    · exact (digits.reads (by decide)).2
    · obtain ⟨front, c, value, rfl, digit⟩ := (digits.reads tells.fits).2
      exact ⟨_ :: _ :: front, c, value, rfl, digit⟩
    · obtain ⟨front, c, value, rfl, digit⟩ := (digits.reads tells.fits).2
      exact ⟨_ :: _ :: _ :: front, c, value, rfl, digit⟩

theorem core_eq (text : String) : core text = (trim isGap text.toList).map plain := by
  rw [core, trim_map, (funext isSpacing_plain : isSpacing ∘ plain = isGap)]

theorem IsDigit.not_isGap {c : Char} {value : Nat} (digit : IsDigit 16 c value) : isGap c = false := by
  rw [← digit?_plain (by decide), digit?_eq_some] at digit
  rw [← isSpacing_plain, ← Bool.not_eq_true, isSpacing_iff]
  omega

section

variable {number : List Char → Option Nat} {Number : List Char → Nat → Prop}

/-- Of a number, with the sign before it, only the blanks around it are trimmed. -/
theorem Reads.trimmed (reads : Reads number Number) {front body ends : List Char} {n : Nat}
    (sign : List Char) (of_number : Number body n) (dropped : front.all isGap = true) (closing : ends.all isGap = true)
    (stays : ∀ c ∈ sign, isGap c = false) :
    trim isGap (front ++ (sign ++ body) ++ ends) = sign ++ body := by
  obtain ⟨c, rest, value, rfl, first⟩ := reads.first of_number
  obtain ⟨more, d, value', same, last⟩ := reads.last of_number
  refine trim_append (by simp) dropped closing ?_ ?_
  · intro e begins
    rcases sign with _ | ⟨mark, sign⟩
    · obtain rfl := Option.some.inj begins
      exact first.not_isGap
    · obtain rfl := Option.some.inj begins
      exact stays _ (by simp)
  · intro e final
    rw [same, ← List.append_assoc, List.getLast?_concat] at final
    obtain rfl := Option.some.inj final
    exact last.not_isGap

/-- No digit is a sign. -/
theorem IsDigit.plain_ne {c sign : Char} {value : Nat} (digit : IsDigit 16 c value)
    (other : digit? 16 sign = none) : plain c ≠ sign := by
  rintro rfl
  rw [(digit?_plain (by decide)).mpr digit] at other
  cases other

/-- A number is read with the sign before it and the blanks around it. -/
theorem Reads.signed?_core (reads : Reads number Number) {text : String} {v : Int} :
    signed? number (core text) = some v ↔ Signed Number text.toList v := by
  rw [core_eq]
  constructor
  · intro read
    obtain ⟨front, ends, split, dropped, closing⟩ := trim_eq_append isGap text.toList
    generalize trim isGap text.toList = body at split read
    generalize seen : body.map plain = plains at read
    unfold signed? at read
    split at read
    all_goals obtain ⟨n, of_number, rfl⟩ := Option.map_eq_some_iff.mp read
    · obtain ⟨sign, body, rfl, plus, rfl⟩ := List.map_eq_cons_iff.mp seen
      obtain rfl := (plain_eq_iff (by decide) (by decide)).mp plus
      exact .plus dropped closing (reads.same.mp of_number) split
    · obtain ⟨sign, body, rfl, minus, rfl⟩ := List.map_eq_cons_iff.mp seen
      obtain rfl := (plain_eq_iff (by decide) (by decide)).mp minus
      exact .minus dropped closing (reads.same.mp of_number) split
    · rw [← seen] at of_number
      exact .bare dropped closing (reads.same.mp of_number) split
  · rintro (⟨dropped, closing, of_number, split⟩ | ⟨dropped, closing, of_number, split⟩ |
      ⟨dropped, closing, of_number, split⟩)
    · have trimmed := reads.trimmed [] of_number dropped closing (by simp)
      rw [List.nil_append] at trimmed
      obtain ⟨c, rest, value, rfl, first⟩ := reads.first of_number
      rw [split, trimmed, signed?, reads.same.mpr of_number]
      · rfl
      · exact fun more same => first.plain_ne (by decide) (List.cons.inj same).1
      · exact fun more same => first.plain_ne (by decide) (List.cons.inj same).1
    · have trimmed := reads.trimmed ['+'] of_number dropped closing (List.forall_mem_singleton.mpr rfl)
      have plus : plain '+' = '+' := by decide
      rw [split, ← List.singleton_append, trimmed, List.singleton_append, List.map_cons, plus, signed?,
        reads.same.mpr of_number]
      rfl
    · have trimmed := reads.trimmed ['-'] of_number dropped closing (List.forall_mem_singleton.mpr rfl)
      have minus : plain '-' = '-' := by decide
      rw [split, ← List.singleton_append, trimmed, List.singleton_append, List.map_cons, minus, signed?,
        reads.same.mpr of_number]
      rfl

end

theorem read?_eq_some {text : String} {v : Int} : read? text = some v ↔ Signed Literal text.toList v :=
  reads_literal.signed?_core

theorem readDecimal?_eq_some {text : String} {v : Int} :
    readDecimal? text = some v ↔ Signed Decimal text.toList v :=
  reads_decimal.signed?_core

/-- The ten digits of ASCII, as they are written. -/
theorem Digits.of_isDigit {text : List Char} (some_text : text ≠ []) (digits : ∀ c ∈ text, c.isDigit = true) :
    Digits 10 text (text.map fun c => c.toNat - 0x30) := by
  have digit {c : Char} (plain : c.isDigit = true) : IsDigit 10 c (c.toNat - 0x30) := by
    have range : 0x30 ≤ c.toNat ∧ c.toNat ≤ 0x39 := by
      simpa [Char.isDigit, UInt32.le_iff_toNat_le] using plain
    exact .decimal ((value?_ascii (by omega)).trans (if_pos range)) (by omega)
  induction text with
  | nil => exact absurd rfl some_text
  | cons c rest ih =>
    rw [List.forall_mem_cons] at digits
    cases rest with
    | nil => exact .last (digit digits.1)
    | cons d rest => exact .next (digit digits.1) (ih (List.cons_ne_nil d rest) digits.2)

theorem toList_toString (n : Nat) : (toString n).toList = Nat.toDigits 10 n :=
  Nat.toList_repr

theorem toString_ne_nil (n : Nat) : (toString n).toList ≠ [] := by
  rw [toList_toString]
  exact Nat.toDigits_ne_nil

theorem isDigit_of_mem_toString {n : Nat} {c : Char} (member : c ∈ (toString n).toList) :
    c.isDigit = true := by
  rw [toList_toString] at member
  exact Nat.isDigit_of_mem_toDigits (by decide) (by decide) member

/-- A number is written as the numeral that stands for it. -/
theorem decimal_toString {n : Nat} (short : n < 10 ^ digitLimit) : Decimal (toString n).toList n := by
  have digits := Digits.of_isDigit (toString_ne_nil n) fun c member => isDigit_of_mem_toString member
  rw [toList_toString] at digits ⊢
  have value : worth 10 ((Nat.toDigits 10 n).map fun c => c.toNat - 0x30) = n := by
    rw [← ofDigits_eq_worth, ofDigits, List.foldl_map]
    have read := @Nat.ofDigitChars_ten_toDigits n
    rw [Nat.ofDigitChars_eq_foldl] at read
    simpa only [Nat.mul_comm, Char.reduceToNat] using read
  have bound : ((Nat.toDigits 10 n).map fun c => c.toNat - 0x30).length ≤ digitLimit := by
    rw [List.length_map, Nat.length_toDigits_le_iff (by decide) (by decide)]
    exact short
  have decimal := Decimal.of digits bound
  rwa [value] at decimal

theorem signed_toString {n : Nat} (short : n < 10 ^ digitLimit) : Signed Decimal (toString n).toList n :=
  .bare rfl rfl (decimal_toString short) (by rw [List.nil_append, List.append_nil])

end Numeral

end TapeMachine
