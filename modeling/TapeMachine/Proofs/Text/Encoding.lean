import Mathlib.Algebra.Group.Nat.Defs
import TapeMachine.Text.Utf8

namespace TapeMachine.Utf8

/-- The bytes of a character. -/
abbrev bytesOf (c : Char) : List UInt8 := String.utf8EncodeChar c

theorem byte_toNat {n : Nat} (small : n < 256) : (UInt8.ofNat n).toNat = n := by
  simp only [UInt8.toNat_ofNat', Nat.reducePow]
  omega

theorem char_toNat {code : Nat} (valid : code.isValidChar) : (Char.ofNat code).toNat = code := by
  rw [Char.ofNat, dif_pos valid]
  rfl

/-- The four forms of an encoded character. -/
theorem bytesOf_cases (c : Char) :
    (c.toNat < 0x80 ∧ ∃ a, bytesOf c = [a] ∧ a.toNat = c.toNat) ∨
    (0x80 ≤ c.toNat ∧ c.toNat < 0x800 ∧ ∃ a b, bytesOf c = [a, b] ∧
      a.toNat = 0xC0 + c.toNat / 64 ∧ b.toNat = 0x80 + c.toNat % 64) ∨
    (0x800 ≤ c.toNat ∧ c.toNat < 0x10000 ∧ ∃ a b d, bytesOf c = [a, b, d] ∧
      a.toNat = 0xE0 + c.toNat / 4096 ∧ b.toNat = 0x80 + c.toNat / 64 % 64 ∧
        d.toNat = 0x80 + c.toNat % 64) ∨
    (0x10000 ≤ c.toNat ∧ ∃ a b d e, bytesOf c = [a, b, d, e] ∧
      a.toNat = 0xF0 + c.toNat / 262144 ∧ b.toNat = 0x80 + c.toNat / 4096 % 64 ∧
        d.toNat = 0x80 + c.toNat / 64 % 64 ∧ e.toNat = 0x80 + c.toNat % 64) := by
  have valid : c.toNat < 0xD800 ∨ 0xDFFF < c.toNat ∧ c.toNat < 0x110000 := c.valid
  have code : c.val.toNat = c.toNat := rfl
  unfold bytesOf String.utf8EncodeChar
  simp only [code]
  generalize c.toNat = n at valid
  split
  · exact .inl ⟨by omega, _, rfl, byte_toNat (by omega)⟩
  split
  · refine .inr (.inl ⟨by omega, by omega, _, _, rfl, ?_, ?_⟩) <;>
      rw [byte_toNat (by omega)] <;> omega
  split
  · refine .inr (.inr (.inl ⟨by omega, by omega, _, _, _, rfl, ?_, ?_, ?_⟩)) <;>
      rw [byte_toNat (by omega)] <;> omega
  · refine .inr (.inr (.inr ⟨by omega, _, _, _, _, rfl, ?_, ?_, ?_, ?_⟩)) <;>
      rw [byte_toNat (by omega)] <;> omega

/-- Bytes begin with at most one character. -/
theorem bytesOf_unique {c other : Char} {bytes : List UInt8} (starts : bytesOf c <+: bytes)
    (also_starts : bytesOf other <+: bytes) : c = other := by
  obtain ⟨rest, rfl⟩ := starts
  obtain ⟨left, same⟩ := also_starts
  have decoded := ByteArray.utf8DecodeChar?_utf8EncodeChar_append (b := rest.toByteArray) (c := c)
  have also_decoded :=
    ByteArray.utf8DecodeChar?_utf8EncodeChar_append (b := left.toByteArray) (c := other)
  rw [← List.toByteArray_append, ← same, List.toByteArray_append, also_decoded] at decoded
  exact (Option.some.inj decoded).symm

theorem bytesOf_ne_nil (c : Char) : bytesOf c ≠ [] := by
  obtain ⟨-, a, bytes, -⟩ | ⟨-, -, a, b, bytes, -⟩ | ⟨-, -, a, b, d, bytes, -⟩ |
    ⟨-, a, b, d, e, bytes, -⟩ := bytesOf_cases c <;> simp [bytes]

/-- `lead` is the first byte of a code point that takes `more` bytes after it. -/
def Leads (lead code more : Nat) : Prop :=
  (more = 0 ∧ code < 0x80 ∧ lead = code) ∨
  (more = 1 ∧ 0x80 ≤ code ∧ code < 0x800 ∧ lead = 0xC0 + code / 64) ∨
  (more = 2 ∧ 0x800 ≤ code ∧ code < 0x10000 ∧ lead = 0xE0 + code / 4096) ∨
  (more = 3 ∧ 0x10000 ≤ code ∧ lead = 0xF0 + code / 262144)

theorem bytesOf_leads (c : Char) :
    ∃ lead more, bytesOf c = lead :: more ∧ Leads lead.toNat c.toNat more.length := by
  obtain ⟨small, a, bytes, first⟩ | ⟨least, small, a, b, bytes, first, -⟩ |
    ⟨least, small, a, b, d, bytes, first, -⟩ | ⟨least, a, b, d, e, bytes, first, -⟩ :=
    bytesOf_cases c
  · exact ⟨a, _, bytes, .inl ⟨rfl, small, first⟩⟩
  · exact ⟨a, _, bytes, .inr (.inl ⟨rfl, least, small, first⟩)⟩
  · exact ⟨a, _, bytes, .inr (.inr (.inl ⟨rfl, least, small, first⟩))⟩
  · exact ⟨a, _, bytes, .inr (.inr (.inr ⟨rfl, least, first⟩))⟩

/-- The bytes after the first one carry six bits each. -/
theorem bytesOf_continuation {c : Char} {before after : List UInt8} {byte : UInt8}
    (bytes : bytesOf c = before ++ byte :: after) (later : before ≠ []) :
    byte.toNat = 0x80 + c.toNat / 64 ^ after.length % 64 := by
  obtain ⟨lead, before, rfl⟩ := List.exists_cons_of_ne_nil later
  obtain ⟨-, a, form, -⟩ | ⟨-, -, a, b, form, -, second⟩ |
    ⟨-, -, a, b, d, form, -, second, third⟩ | ⟨-, a, b, d, e, form, -, second, third, fourth⟩ :=
    bytesOf_cases c
  all_goals
    rw [form, List.cons_append, List.cons.injEq] at bytes
    have tail := bytes.2
  · simp at tail
  · rcases before with _ | ⟨_, _ | _⟩ <;> simp at tail
    obtain ⟨rfl, rfl⟩ := tail
    simpa using second
  · rcases before with _ | ⟨_, _ | ⟨_, _ | _⟩⟩ <;> simp at tail
    · obtain ⟨rfl, rfl⟩ := tail
      simpa using second
    · obtain ⟨-, rfl, rfl⟩ := tail
      simpa using third
  · rcases before with _ | ⟨_, _ | ⟨_, _ | ⟨_, _ | _⟩⟩⟩ <;> simp at tail
    · obtain ⟨rfl, rfl⟩ := tail
      simpa using second
    · obtain ⟨-, rfl, rfl⟩ := tail
      simpa using third
    · obtain ⟨-, -, rfl, rfl⟩ := tail
      simpa using fourth

theorem bytesOf_of_lead {c : Char} {lead : UInt8} (starts : [lead] <+: bytesOf c) :
    ∃ more, bytesOf c = lead :: more ∧ Leads lead.toNat c.toNat more.length := by
  obtain ⟨first, more, bytes, leads⟩ := bytesOf_leads c
  rw [bytes, List.cons_prefix_cons] at starts
  obtain ⟨rfl, -⟩ := starts
  exact ⟨more, bytes, leads⟩

/-- A byte below 80 is a character. -/
theorem bytesOf_ascii {byte : UInt8} (small : byte.toNat < 0x80) :
    bytesOf (Char.ofNat byte.toNat) = [byte] := by
  have code : (Char.ofNat byte.toNat).toNat = byte.toNat := char_toNat (.inl (by omega))
  obtain ⟨lead, more, bytes, leads⟩ := bytesOf_leads (Char.ofNat byte.toNat)
  rw [code] at leads
  unfold Leads at leads
  have alone : more = [] := List.length_eq_zero_iff.mp (by omega)
  have same : lead = byte := UInt8.toNat_inj.mp (by omega)
  rw [bytes, alone, same]

/-- With some bytes, no character begins. -/
theorem not_lead {byte : UInt8}
    (outside : 0x80 ≤ byte.toNat ∧ byte.toNat < 0xC2 ∨ 0xF4 < byte.toNat) (c : Char) :
    ¬[byte] <+: bytesOf c := by
  intro starts
  obtain ⟨more, -, leads⟩ := bytesOf_of_lead starts
  have valid : c.toNat < 0xD800 ∨ 0xDFFF < c.toNat ∧ c.toNat < 0x110000 := c.valid
  unfold Leads at leads
  omega

/-- The code points with the leading part `value` and the next six bits within the bounds. -/
def Allows (missing value : Nat) (low high : UInt8) (code : Nat) : Prop :=
  code / 64 ^ missing = value ∧ low.toNat ≤ 0x80 + code / 64 ^ (missing - 1) % 64 ∧
    0x80 + code / 64 ^ (missing - 1) % 64 ≤ high.toNat

/-- The bytes are the beginning of the characters that have `missing` more bytes and whose code points
begin with `value`, the next byte being within the bounds. -/
structure Opens (missing value : Nat) (low high : UInt8) (pending : List UInt8) : Prop where
  begun : pending ≠ []
  open_ended : 1 ≤ missing
  bounds : 0x80 ≤ low.toNat ∧ low.toNat ≤ high.toNat ∧ high.toNat ≤ 0xBF
  codes : ∀ c, pending <+: bytesOf c ↔ Allows missing value low high c.toNat
  length : ∀ c, pending <+: bytesOf c → (bytesOf c).length = pending.length + missing
  valid : ∀ code, Allows missing value low high code → code.isValidChar

/-- The first bytes of characters that take more than one, each with the number of missing bytes, the
leading part of the code point and the bounds of the second byte. -/
inductive Row (lead : Nat) : Nat → Nat → UInt8 → UInt8 → Prop
  | two : 0xC2 ≤ lead → lead < 0xE0 → Row lead 1 (lead - 0xC0) 0x80 0xBF
  | three_least : lead = 0xE0 → Row lead 2 0 0xA0 0xBF
  | three : 0xE0 < lead → lead < 0xF0 → lead ≠ 0xED → Row lead 2 (lead - 0xE0) 0x80 0xBF
  | before_surrogates : lead = 0xED → Row lead 2 0xD 0x80 0x9F
  | four_least : lead = 0xF0 → Row lead 3 0 0x90 0xBF
  | four : 0xF0 < lead → lead < 0xF4 → Row lead 3 (lead - 0xF0) 0x80 0xBF
  | four_most : lead = 0xF4 → Row lead 3 4 0x80 0x8F

namespace Opens

variable {missing value : Nat} {low high byte lead : UInt8} {pending : List UInt8} {c : Char}

theorem of_lead (open_ended : 1 ≤ missing)
    (bounds : 0x80 ≤ low.toNat ∧ low.toNat ≤ high.toNat ∧ high.toNat ≤ 0xBF)
    (codes : ∀ code, Allows missing value low high code ↔
      Leads lead.toNat code missing ∧ code.isValidChar)
    (long : ∀ code more, Leads lead.toNat code more → code.isValidChar → more = missing) :
    Opens missing value low high [lead] := by
  have length (c : Char) (starts : [lead] <+: bytesOf c) :
      ∃ more, bytesOf c = lead :: more ∧ more.length = missing ∧
        Leads lead.toNat c.toNat missing := by
    obtain ⟨more, bytes, leads⟩ := bytesOf_of_lead starts
    obtain rfl := long _ _ leads c.valid
    exact ⟨more, bytes, rfl, leads⟩
  refine ⟨List.cons_ne_nil _ _, open_ended, bounds, ?_, ?_, fun code allowed =>
    ((codes code).mp allowed).2⟩
  · intro c
    rw [codes]
    constructor
    · intro starts
      obtain ⟨more, -, -, leads⟩ := length c starts
      exact ⟨leads, c.valid⟩
    · rintro ⟨leads, -⟩
      obtain ⟨first, more, bytes, first_leads⟩ := bytesOf_leads c
      have same : first = lead := by
        apply UInt8.toNat_inj.mp
        unfold Leads at leads first_leads
        omega
      rw [bytes, same]
      exact ⟨more, rfl⟩
  · intro c starts
    obtain ⟨more, bytes, count, -⟩ := length c starts
    rw [bytes, List.length_cons, List.length_singleton]
    omega

/-- Each bound of a second byte is the code point at which a form or the surrogates begin or end. -/
theorem of_row (row : Row lead.toNat missing value low high) :
    Opens missing value low high [lead] := by
  cases row <;>
    refine of_lead (by decide) (by decide) (fun code => ?_) (fun code more => ?_) <;>
    simp only [Allows, Leads, Nat.isValidChar, UInt8.reduceToNat, Nat.reduceSub, Nat.reducePow,
      Nat.div_one, true_and] <;>
    omega

/-- Which byte comes next in a character. -/
theorem next_iff (opens : Opens missing value low high pending)
    (starts : pending <+: bytesOf c) :
    pending ++ [byte] <+: bytesOf c ↔ byte.toNat = 0x80 + c.toNat / 64 ^ (missing - 1) % 64 := by
  have length := opens.length c starts
  have open_ended := opens.open_ended
  obtain ⟨more, bytes⟩ := starts
  rw [← bytes, List.length_append] at length
  obtain ⟨next, after, rfl⟩ : ∃ next after, more = next :: after :=
    List.exists_cons_of_length_pos (by omega)
  rw [List.length_cons] at length
  have bits := bytesOf_continuation bytes.symm opens.begun
  rw [show after.length = missing - 1 by omega] at bits
  rw [← bytes, List.prefix_append_right_inj, List.cons_prefix_cons, ← bits, UInt8.toNat_inj]
  exact and_iff_left List.nil_prefix

/-- A byte outside the bounds does not go on with a character. -/
theorem ends (opens : Opens missing value low high pending)
    (outside : ¬(low ≤ byte ∧ byte ≤ high)) (c : Char) : ¬pending ++ [byte] <+: bytesOf c := by
  intro goes_on
  have starts : pending <+: bytesOf c := (List.prefix_append pending [byte]).trans goes_on
  obtain ⟨-, least, most⟩ := (opens.codes c).mp starts
  have next := (opens.next_iff starts).mp goes_on
  rw [UInt8.le_iff_toNat_le, UInt8.le_iff_toNat_le] at outside
  omega

theorem next_allowed (opens : Opens missing value low high pending) (least : low ≤ byte)
    (most : byte ≤ high) (code : Nat) :
    Allows missing value low high code ∧ byte.toNat = 0x80 + code / 64 ^ (missing - 1) % 64 ↔
      code / 64 ^ (missing - 1) = value * 64 + (byte.toNat - 0x80) := by
  have bounds := opens.bounds
  have open_ended := opens.open_ended
  rw [UInt8.le_iff_toNat_le] at least most
  have power : 64 ^ missing = 64 ^ (missing - 1) * 64 := by
    rw [← Nat.pow_succ]
    congr 1
    omega
  unfold Allows
  rw [power, ← Nat.div_div_eq_div_mul]
  omega

/-- A byte within the bounds goes on with the characters that it allows. -/
theorem next (opens : Opens missing value low high pending) (least : low ≤ byte)
    (most : byte ≤ high) (more : ¬missing ≤ 1) :
    Opens (missing - 1) (value * 64 + (byte.toNat - 0x80)) 0x80 0xBF (pending ++ [byte]) := by
  have allowed (code : Nat) :
      Allows (missing - 1) (value * 64 + (byte.toNat - 0x80)) 0x80 0xBF code ↔
        Allows missing value low high code ∧
          byte.toNat = 0x80 + code / 64 ^ (missing - 1) % 64 := by
    rw [opens.next_allowed least most]
    unfold Allows
    simp only [UInt8.reduceToNat]
    omega
  have open_ended : 1 ≤ missing - 1 := by omega
  refine ⟨by simp, open_ended, by decide, ?_, ?_, fun code allows =>
    opens.valid code ((allowed code).mp allows).1⟩
  · intro c
    rw [allowed, ← opens.codes]
    constructor
    · intro goes_on
      have starts := (List.prefix_append pending [byte]).trans goes_on
      exact ⟨starts, (opens.next_iff starts).mp goes_on⟩
    · rintro ⟨starts, bits⟩
      exact (opens.next_iff starts).mpr bits
  · intro c goes_on
    have starts := (List.prefix_append pending [byte]).trans goes_on
    rw [opens.length c starts, List.length_append, List.length_singleton]
    omega

/-- The last byte of a character. -/
theorem last (opens : Opens missing value low high pending) (least : low ≤ byte)
    (most : byte ≤ high) (final : missing ≤ 1) :
    bytesOf (Char.ofNat (value * 64 + (byte.toNat - 0x80))) = pending ++ [byte] := by
  have open_ended := opens.open_ended
  obtain rfl : missing = 1 := by omega
  obtain ⟨allowed, bits⟩ := (opens.next_allowed least most (value * 64 + (byte.toNat - 0x80))).mpr
    (Nat.div_one _)
  have code := char_toNat (opens.valid _ allowed)
  rw [← code] at allowed bits
  have starts := (opens.codes _).mpr allowed
  have goes_on := (opens.next_iff starts).mpr bits
  refine (goes_on.eq_of_length ?_).symm
  rw [opens.length _ starts, List.length_append, List.length_singleton]

/-- Some character begins like this. -/
theorem some_char (opens : Opens missing value low high pending) :
    ∃ c, pending <+: bytesOf c := by
  have within : low ≤ high := UInt8.le_iff_toNat_le.mpr opens.bounds.2.1
  have least : Allows missing value low high
      ((value * 64 + (low.toNat - 0x80)) * 64 ^ (missing - 1)) :=
    ((opens.next_allowed UInt8.le_rfl within _).mpr
      (Nat.mul_div_cancel _ (Nat.pow_pos (by decide)))).1
  rw [← char_toNat (opens.valid _ least)] at least
  exact ⟨_, (opens.codes _).mpr least⟩

end Opens

end TapeMachine.Utf8
