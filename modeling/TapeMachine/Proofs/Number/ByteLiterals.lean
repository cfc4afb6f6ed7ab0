import TapeMachine.ByteLiteral
import TapeMachine.Proofs.Number.Literals

namespace TapeMachine

namespace ByteLiteral

/-- What a text stands for: a single character that is no digit for its code point, and every other text
for the number it is. -/
inductive Stands (text : String) : Int → Prop
  | character {c : Char} : text.toList = [c] → isDigit c = false → Stands text c.toNat
  | numeral {value : Int} : (∀ c, text.toList = [c] → isDigit c = true) →
      Numeral.Signed Numeral.Literal text.toList value → Stands text value

theorem value?_eq_some {text : String} {value : Int} : value? text = some value ↔ Stands text value := by
  unfold value?
  split
  next c single =>
    have only {d : Char} (same : text.toList = [d]) : d = c := by
      rw [single] at same
      exact (List.singleton_inj.mp same).symm
    cases digit : isDigit c with
    | false =>
      rw [if_neg Bool.false_ne_true, Option.some.injEq]
      constructor
      · rintro rfl
        exact .character single digit
      · rintro (⟨same, -⟩ | ⟨digits, -⟩)
        · rw [only same]
        · cases digit.symm.trans (digits c single)
    | true =>
      rw [if_pos rfl, Numeral.read?_eq_some]
      constructor
      · exact .numeral fun d same => only same ▸ digit
      · rintro (⟨same, other⟩ | ⟨-, signed⟩)
        · rw [only same, digit] at other
          cases other
        · exact signed
  next several =>
    rw [Numeral.read?_eq_some]
    constructor
    · exact .numeral fun c same => absurd same (several c)
    · rintro (⟨same, -⟩ | ⟨-, signed⟩)
      · exact absurd same (several _)
      · exact signed

theorem Stands.unique {text : String} {one two : Int} (first : Stands text one) (second : Stands text two) :
    one = two :=
  Option.some.inj ((value?_eq_some.mpr first).symm.trans (value?_eq_some.mpr second))

theorem read_eq_ok {text : String} {byte : UInt8} : read text = .ok byte ↔ Stands text byte.toNat := by
  rw [← value?_eq_some, read]
  rcases value? text with _ | value
  · simp
  · rw [Option.some.injEq, ← Cell.ofInt?_eq_some]
    rcases cell : Cell.ofInt? value with _ | byte <;> simp [cell]

/-- Only what stands for nothing is refused as no byte. -/
theorem read_eq_notByte {text : String} :
    read text = .error (.notByte text) ↔ ∀ value, ¬ Stands text value := by
  simp only [← value?_eq_some]
  rw [read]
  rcases value? text with _ | value
  · simp
  · rcases cell : Cell.ofInt? value with _ | byte
    · simp only [cell]
      split <;> simp
    · simp [cell]

/-- Reading a byte takes exactly the texts that stand for a number from 0 to 255, and returns that number;
every other text is refused. No text stands for two numbers. -/
theorem byte_literals (text : String) :
    (∀ value : Int, (∃ byte, read text = .ok byte ∧ (byte.toNat : Int) = value) ↔
      Stands text value ∧ 0 ≤ value ∧ value ≤ 255) ∧
    ((∃ error, read text = .error error) ↔ ∀ value, 0 ≤ value → value ≤ 255 → ¬ Stands text value) ∧
    (read text = .error (.notByte text) ↔ ∀ value, ¬ Stands text value) ∧
    ∀ one two, Stands text one → Stands text two → one = two := by
  have accepted (value : Int) : (∃ byte, read text = .ok byte ∧ (byte.toNat : Int) = value) ↔
      Stands text value ∧ 0 ≤ value ∧ value ≤ 255 := by
    constructor
    · rintro ⟨byte, returned, rfl⟩
      have bound := byte.toNat_lt
      exact ⟨read_eq_ok.mp returned, by omega, by omega⟩
    · rintro ⟨stands, least, most⟩
      obtain ⟨byte, rfl⟩ : ∃ byte : UInt8, (byte.toNat : Int) = value :=
        ⟨UInt8.ofNat value.toNat, by rw [UInt8.toNat_ofNat']; omega⟩
      exact ⟨byte, read_eq_ok.mpr stands, rfl⟩
  refine ⟨accepted, ?_, read_eq_notByte, fun _ _ => Stands.unique⟩
  constructor
  · rintro ⟨error, refused⟩ value least most stands
    obtain ⟨byte, returned, -⟩ := (accepted value).mpr ⟨stands, least, most⟩
    cases refused.symm.trans returned
  · intro none_fits
    rcases returned : read text with error | byte
    · exact ⟨error, rfl⟩
    · obtain ⟨stands, least, most⟩ := (accepted byte.toNat).mp ⟨byte, returned, rfl⟩
      exact absurd stands (none_fits _ least most)

example : read " 0X_4١ " = .ok 65 := by decide +kernel

example : read "²" = .error (.notByte "²") := by decide +kernel

end ByteLiteral

end TapeMachine
