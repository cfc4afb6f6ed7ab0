import TapeMachine.Proofs.Console.Meaning
import TapeMachine.Proofs.Text.Splitting
import Mathlib.Algebra.Group.Nat.Defs

namespace TapeMachine

namespace Numeral

/-- The same digit again and again. -/
theorem digits?_replicate {base value : Nat} {c : Char} (digit : digit? base c = some value)
    (apart : c ≠ '_') (count : Nat) :
    digits? base (List.replicate (count + 1) c) = some (List.replicate (count + 1) value) := by
  induction count with
  | zero => simp [digits?, digit]
  | succ count ih =>
    rw [List.replicate_succ] at ih
    rw [List.replicate_succ, List.replicate_succ, digits?, digit, ih]
    · rfl
    · exact List.cons_ne_nil _ _
    · intro rest same
      exact apart (List.cons.inj same).1

/-- The largest number of so many digits. -/
theorem ofDigits_replicate (base count : Nat) :
    ofDigits (base + 1) (List.replicate count base) + 1 = (base + 1) ^ count := by
  induction count with
  | zero => rfl
  | succ count ih =>
    have last : ofDigits (base + 1) (List.replicate (count + 1) base) =
        ofDigits (base + 1) (List.replicate count base) * (base + 1) + base := by
      rw [List.replicate_succ', ofDigits, List.foldl_append]
      rfl
    rw [last, Nat.pow_succ, ← ih, Nat.add_one_mul]
    omega

theorem isWritable_eq_false {value : Nat} (large : Nat.pow 10 digitLimit ≤ value) :
    isWritable (Int.ofNat value) = false := by
  unfold isWritable
  rw [decide_eq_false_iff_not, Nat.not_lt]
  exact large

theorem plain_ascii {c : Char} (ascii : c.toNat < 0x80) : plain c = c := if_pos ascii

/-- A text of ASCII characters without blanks is taken as it is. -/
theorem core_ascii {text : List Char} (ascii : ∀ c ∈ text, c.toNat < 0x80 ∧ isSpacing c = false) :
    core (String.ofList text) = text := by
  have same : text.map plain = text := by
    refine (List.map_congr_left ?_).trans (List.map_id text)
    intro c member
    exact plain_ascii (ascii c member).1
  rw [core, String.toList_ofList, same, trim_of_kept]
  intro c member
  exact (ascii c member).2

/-- The characters of a hexadecimal numeral of digits `f`. -/
def largest (count : Nat) : List Char := '0' :: 'x' :: List.replicate count 'f'

theorem forall_largest (holds : Char → Prop) (count : Nat) (zero : holds '0') (mark : holds 'x')
    (digit : holds 'f') : ∀ c ∈ largest count, holds c := by
  intro c member
  simp only [largest, List.mem_cons, List.mem_replicate] at member
  rcases member with rfl | rfl | ⟨-, rfl⟩
  exacts [zero, mark, digit]

theorem read?_largest (count : Nat) :
    read? (String.ofList (largest (count + 1))) = some (Int.ofNat (16 ^ (count + 1) - 1)) := by
  have text : core (String.ofList (largest (count + 1))) = largest (count + 1) :=
    core_ascii (forall_largest _ _ (by decide) (by decide) (by decide))
  have digits : digits? 16 (List.replicate (count + 1) 'f') =
      some (List.replicate (count + 1) 15) := digits?_replicate (by decide) (by decide) count
  have number : ofDigits 16 (List.replicate (count + 1) 15) = 16 ^ (count + 1) - 1 :=
    Nat.eq_sub_of_add_eq (ofDigits_replicate 15 (count + 1))
  have behind : afterPrefix? 16 (List.replicate (count + 1) 'f') = some (16 ^ (count + 1) - 1) := by
    rw [← number, List.replicate_succ, afterPrefix?, ← List.replicate_succ, digits]
    · rfl
    · intro rest same
      cases (List.cons.inj same).1
  have literal : literal? (largest (count + 1)) = some (16 ^ (count + 1) - 1) := by
    rw [largest, literal?, behind]
  rw [read?, text, largest, signed?, ← largest, literal]
  · rfl
  · intro rest same
    cases (List.cons.inj same).1
  · intro rest same
    cases (List.cons.inj same).1

end Numeral

namespace Console

/-- The line that gives a hexadecimal numeral of digits `f` for the fallback byte. -/
def largestLine (count : Nat) : String := ":auto " ++ String.ofList (Numeral.largest count)

theorem toList_largestLine (count : Nat) :
    (largestLine count).toList = ":auto ".toList ++ Numeral.largest count := by
  rw [largestLine, String.toList_append, @String.toList_ofList (Numeral.largest count)]

theorem fallbackWord?_largestLine (count : Nat) :
    fallbackWord? (largestLine count).toList = some (String.ofList (Numeral.largest count)) := by
  have front : ":auto ".toList = [':', 'a', 'u', 't', 'o', ' '] := by simp
  have kept : trim isLineEnd (":auto ".toList ++ Numeral.largest count) =
      ":auto ".toList ++ Numeral.largest count := by
    refine trim_of_kept ?_
    rw [front, List.forall_mem_append]
    exact ⟨by simp [isLineEnd], Numeral.forall_largest (isLineEnd · = false) count rfl rfl rfl⟩
  have start : trimStart isBlank (":auto ".toList ++ Numeral.largest count) =
      ":auto ".toList ++ Numeral.largest count := by
    rw [front]
    rfl
  have cut : cutAtSpace (":auto ".toList ++ Numeral.largest count) =
      (":auto".toList, Numeral.largest count) := by
    rw [front]
    simp [cutAtSpace]
  have plain := Numeral.forall_largest (Words.isPlain · = true) count rfl rfl rfl
  refine fallbackWord?_eq_some.mpr ⟨_, [], ?_, Words.split_plain (List.cons_ne_nil _ _) plain⟩
  rw [toList_largestLine, kept, start, cut]

/-- With enough digits the number is too large. -/
theorem oversized_largestLine {count : Nat}
    (large : Nat.pow 10 Numeral.digitLimit ≤ 16 ^ (count + 1) - 1) :
    Oversized (largestLine (count + 1)) := by
  have read : ByteLiteral.value? (String.ofList (Numeral.largest (count + 1))) =
      Numeral.read? (String.ofList (Numeral.largest (count + 1))) := by
    unfold ByteLiteral.value?
    rw [String.toList_ofList]
    rfl
  exact ⟨_, _, fallbackWord?_largestLine _, read.trans (Numeral.read?_largest count),
    Numeral.isWritable_eq_false large⟩

end Console

end TapeMachine
