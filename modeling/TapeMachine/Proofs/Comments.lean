import TapeMachine.Program
import TapeMachine.Proofs.Text.Encoding

namespace TapeMachine

/-- A character outside ASCII has no byte of ASCII. -/
theorem Utf8.bytesOf_beyond {c : Char} (beyond : 0x80 ≤ c.toNat) :
    ∀ byte ∈ Utf8.bytesOf c, 0x80 ≤ byte.toNat := by
  intro byte member
  obtain ⟨small, -⟩ | ⟨-, -, a, b, bytes, first, second⟩ | ⟨-, -, a, b, d, bytes, first, second, third⟩ |
    ⟨-, a, b, d, e, bytes, first, second, third, fourth⟩ := Utf8.bytesOf_cases c
  · omega
  all_goals
    simp only [bytes, List.mem_cons, List.not_mem_nil, or_false] at member
  · rcases member with rfl | rfl <;> omega
  · rcases member with rfl | rfl | rfl <;> omega
  · rcases member with rfl | rfl | rfl | rfl <;> omega

namespace Instruction

/-- A character that is an instruction. -/
def isMark (c : Char) : Bool := c ∈ ['+', '-', '<', '>', '[', ']', '.', ',']

/-- The bytes of a source that are instructions. -/
def kept (source : List UInt8) : List UInt8 := (ofBytes source).map byte

theorem char_injective {one two : Instruction} (same : one.char = two.char) : one = two := by
  cases one <;> cases two <;> first | rfl | cases same

/-- A byte is an instruction if the character with its code point is one. -/
theorem map_byte_ofByte? (octet : UInt8) :
    (ofByte? octet).map byte = if isMark (Char.ofNat octet.toNat) then some octet else none := by
  have all : ∀ n < 256, (ofByte? (UInt8.ofNat n)).map byte =
      if isMark (Char.ofNat n) then some (UInt8.ofNat n) else none := by decide +kernel
  have known := all octet.toNat octet.toNat_lt
  rwa [UInt8.ofNat_toNat] at known

/-- What is kept is the part of a source that consists of instructions. -/
theorem kept_eq_filter (source : List UInt8) :
    kept source = source.filter fun octet => isMark (Char.ofNat octet.toNat) := by
  rw [kept, ofBytes, List.map_filterMap, funext map_byte_ofByte?, ← List.filterMap_eq_filter]
  rfl

theorem map_char_ofBytes (source : List UInt8) :
    (ofBytes source).map char = (source.map fun octet => Char.ofNat octet.toNat).filter isMark := by
  have code (op : Instruction) : op.char = Char.ofNat op.byte.toNat := by cases op <;> rfl
  have chars : (ofBytes source).map char = (kept source).map fun octet => Char.ofNat octet.toNat := by
    rw [kept, List.map_map, funext code]
    rfl
  rw [chars, kept_eq_filter, List.filter_map]
  rfl

theorem ofBytes_append (one two : List UInt8) : ofBytes (one ++ two) = ofBytes one ++ ofBytes two :=
  List.filterMap_append

theorem isMark_eq_false {c : Char} (beyond : 0x80 ≤ c.toNat) : isMark c = false := by
  have small : ∀ d ∈ ['+', '-', '<', '>', '[', ']', '.', ','], d.toNat < 0x80 := by simp
  refine decide_eq_false fun member => ?_
  have := small c member
  omega

/-- No byte of a character that takes several is an instruction. -/
theorem ofBytes_bytesOf (c : Char) : (ofBytes (Utf8.bytesOf c)).map char = [c].filter isMark := by
  rw [map_char_ofBytes]
  by_cases ascii : c.toNat < 0x80
  · obtain ⟨-, a, bytes, code⟩ | ⟨beyond, -⟩ | ⟨beyond, -⟩ | ⟨beyond, -⟩ := Utf8.bytesOf_cases c
    · rw [bytes, List.map_singleton, code, Char.ofNat_toNat]
    all_goals omega
  · have beyond := Nat.le_of_not_lt ascii
    rw [List.filter_cons_of_neg (by rw [isMark_eq_false beyond]; decide), List.filter_eq_nil_iff.mpr]
    · rfl
    intro d member
    obtain ⟨octet, inside, rfl⟩ := List.mem_map.mp member
    have high := Utf8.bytesOf_beyond beyond octet inside
    have code := Utf8.char_toNat (.inl (by have := octet.toNat_lt; omega) : octet.toNat.isValidChar)
    rw [isMark_eq_false (by omega)]
    decide

/-- The instructions of a text are its characters that are instructions. -/
theorem ofBytes_encode (text : String) :
    (ofBytes (Utf8.encode text)).map char = text.toList.filter isMark := by
  rw [Utf8.encode]
  induction text.toList with
  | nil => rfl
  | cons c rest ih =>
    rw [List.flatMap_cons, ofBytes_append, List.map_append, ih, ofBytes_bytesOf, ← List.filter_append]
    rfl

theorem ofBytes_kept (source : List UInt8) : ofBytes (kept source) = ofBytes source := by
  rw [kept, ofBytes_byte]

end Instruction

namespace Source

/-- The characters of a source that are instructions. -/
def marks : Source → List Char
  | .nothing => []
  | .text content => content.toList.filter Instruction.isMark
  | .numbers values => (values.map fun value => Char.ofNat value.toNat).filter Instruction.isMark
  | .bytes octets => (octets.map fun byte => Char.ofNat byte.toNat).filter Instruction.isMark

theorem numbers_eq {values : List Int} {octets : List UInt8} (stand : values.mapM Cell.ofInt? = some octets) :
    values = octets.map fun byte => (byte.toNat : Int) := by
  induction values generalizing octets with
  | nil =>
    cases stand
    rfl
  | cons value values ih =>
    rw [List.mapM_cons] at stand
    obtain ⟨byte, first, stand⟩ := Option.bind_eq_some_iff.mp stand
    obtain ⟨others, rest, same⟩ := Option.bind_eq_some_iff.mp stand
    obtain rfl := Option.some.inj same
    rw [Cell.ofInt?_eq_some.mp first, ih rest, List.map_cons]

/-- What is left of a source is what is left of its bytes. -/
theorem marks_eq {source : Source} {octets : List UInt8} (stands : source.bytes? = some octets) :
    (Instruction.ofBytes octets).map Instruction.char = source.marks := by
  cases source with
  | nothing =>
    cases stands
    rfl
  | text content =>
    cases stands
    exact Instruction.ofBytes_encode content
  | bytes =>
    cases stands
    exact Instruction.map_char_ofBytes octets
  | numbers values =>
    rw [Instruction.map_char_ofBytes, marks, numbers_eq stands, List.map_map]
    rfl

/-- Both stand for bytes, and the same instructions are left of both. -/
structure Alike (one two : Source) : Prop where
  stands : ∃ octets, one.bytes? = some octets
  also_stands : ∃ octets, two.bytes? = some octets
  marks : one.marks = two.marks

theorem kept_eq {one two : Source} {octets others : List UInt8} (same : one.marks = two.marks)
    (stands : one.bytes? = some octets) (also_stands : two.bytes? = some others) :
    Instruction.kept octets = Instruction.kept others := by
  rw [← marks_eq stands, ← marks_eq also_stands] at same
  rw [List.map_inj_right fun _ _ => Instruction.char_injective] at same
  rw [Instruction.kept, same, Instruction.kept]

end Source

namespace Program

/-- The program without its comments. -/
def bare (program : Program) : Program := { program with code := Instruction.kept program.code }

/-- A program and its bare form load the same machine, with the same table of brackets. -/
theorem machine_bare (program : Program) : program.bare.machine = program.machine := by
  rw [machine, machine, bare, Code.ofBytes, Instruction.ofBytes_kept]
  rfl

theorem machine_eq {one two : Program} (same : one.bare = two.bare) : one.machine = two.machine := by
  rw [← machine_bare, same, machine_bare]

end Program

namespace Request

/-- Two requests that differ in the comments of their code at most. -/
structure Alike (one two : Request) : Prop where
  code : one.code.Alike two.code
  input : one.input = two.input
  fallback : one.fallback = two.fallback

/-- They are refused for the same reason, or make programs with the same instructions. -/
theorem Alike.program {one two : Request} (alike : one.Alike two) :
    one.program.map Program.bare = two.program.map Program.bare := by
  obtain ⟨code, input, fallback⟩ := one
  obtain ⟨code', input', fallback'⟩ := two
  obtain ⟨⟨⟨octets, stands⟩, ⟨others, also_stands⟩, same⟩, rfl, rfl⟩ := alike
  have kept := Source.kept_eq same stands also_stands
  have made (input : List UInt8) (fallback : Option UInt8) :
      (⟨octets, input, fallback⟩ : Program).bare = (⟨others, input, fallback⟩ : Program).bare := by
    rw [Program.bare, kept, Program.bare]
  simp only [Request.program, stands, also_stands]
  rcases fallback with _ | value
  · rcases input.bytes? with _ | input
    · rfl
    · exact congrArg Except.ok (made input none)
  · dsimp only
    rcases Cell.ofInt? value with _ | byte
    · rfl
    · rcases input.bytes? with _ | input
      · rfl
      · exact congrArg Except.ok (made input (some byte))

theorem Alike.outcomes {one two : Request} (alike : one.Alike two) :
    (∃ error, one.program = .error error ∧ two.program = .error error) ∨
      ∃ program other, one.program = .ok program ∧ two.program = .ok other ∧
        program.bare = other.bare := by
  have same := alike.program
  rcases made : one.program with error | program <;> rcases made' : two.program with error' | other <;>
    rw [made, made'] at same
  · cases same
    exact .inl ⟨error, rfl, rfl⟩
  · cases same
  · cases same
  · exact .inr ⟨program, other, rfl, rfl, Except.ok.inj same⟩

end Request

end TapeMachine
