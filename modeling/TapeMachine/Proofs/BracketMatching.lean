import TapeMachine.Proofs.StrayBracket

namespace TapeMachine

namespace Pairing

/-- What stands strictly between two positions. -/
def between (places : List (Option Bracket)) (start finish : Nat) : List (Option Bracket) :=
  (places.drop (start + 1)).take (finish - (start + 1))

variable {places : List (Option Bracket)} {start finish : Nat}

theorem Match.between_balanced (pair : Match places start finish) :
    Balanced (between places start finish) := by
  obtain ⟨before, inner, after, split, balanced, atStart, atFinish⟩ := pair
  have behind : places.drop (start + 1) = inner ++ some .closing :: after := by
    have regroup : places = (before ++ [some .opening]) ++ (inner ++ some .closing :: after) := by
      simp [split]
    have length : (before ++ [some Bracket.opening]).length = start + 1 := by simp [atStart]
    rw [regroup, ← length, List.drop_left]
  have width : finish - (start + 1) = inner.length := by omega
  rw [between, behind, width, List.take_left]
  exact balanced

/-- A list is what stands before a position, what stands there, and what stands behind it. -/
theorem split_at {place : Option Bracket} {position : Nat} (here : places[position]? = some place) :
    places = places.take position ++ place :: places.drop (position + 1) := by
  obtain ⟨within, rfl⟩ := List.getElem?_eq_some_iff.mp here
  rw [List.getElem_cons_drop, List.take_append_drop]

/-- Brackets belong together if what stands between them is balanced. -/
theorem match_iff : Match places start finish ↔ start < finish ∧
    places[start]? = some (some .opening) ∧ places[finish]? = some (some .closing) ∧
      Balanced (between places start finish) := by
  constructor
  · intro pair
    exact ⟨pair.lt, pair.opening, pair.closing, pair.between_balanced⟩
  · rintro ⟨before, opening, closing, balanced⟩
    have within : start < places.length := (List.getElem?_eq_some_iff.mp opening).1
    have finish_within : finish < places.length := (List.getElem?_eq_some_iff.mp closing).1
    have there : (places.drop (start + 1))[finish - (start + 1)]? = some (some .closing) := by
      rw [List.getElem?_drop, Nat.add_sub_cancel' before]
      exact closing
    have behind := split_at there
    refine ⟨places.take start, between places start finish,
      (places.drop (start + 1)).drop (finish - (start + 1) + 1), ?_, balanced, ?_, ?_⟩
    · rw [between, ← behind]
      exact split_at opening
    · rw [List.length_take]
      omega
    · rw [between, List.length_take, List.length_drop]
      omega

theorem mem_entries_iff {table : Array (Option Nat)} {position partner : Nat} :
    (position, partner) ∈ entries table ↔ partner? table position = some partner := by
  simp only [entries, partner?, List.mem_filterMap, Prod.exists, List.mem_zipIdx_iff_getElem?,
    Option.map_eq_some_iff, Prod.mk.injEq, Array.getElem?_toList, Option.join_eq_some_iff]
  constructor
  · rintro ⟨found, place, there, other, rfl, rfl, rfl⟩
    exact there
  · intro there
    exact ⟨some partner, position, there, partner, rfl, rfl, rfl⟩

/-- Of two pairs of brackets the second one, which opens inside of the first, closes inside of it. -/
theorem Match.nested {start' finish' : Nat} (pair : Match places start finish)
    (pair' : Match places start' finish') (after : start < start') (before : start' < finish) :
    finish' < finish := by
  obtain ⟨partner, inside, -, bound⟩ := pair.complete_between after before pair'.opening
  obtain rfl := inside.unique (.inl pair')
  exact bound

end Pairing

open Pairing

theorem Bracket.ofByte?_opening {byte : UInt8} : ofByte? byte = some .opening ↔ byte = 0x5B := by
  constructor
  · intro opens
    unfold ofByte? Instruction.ofByte? at opens
    split at opens <;> first | rfl | cases opens
  · rintro rfl
    rfl

theorem Bracket.ofByte?_closing {byte : UInt8} : ofByte? byte = some .closing ↔ byte = 0x5D := by
  constructor
  · intro closes
    unfold ofByte? Instruction.ofByte? at closes
    split at closes <;> first | rfl | cases closes
  · rintro rfl
    rfl

theorem place_of_byte {source : List UInt8} {position : Nat} {bracket : Bracket} {byte : UInt8}
    (stands : ∀ other, Bracket.ofByte? other = some bracket ↔ other = byte) :
    (source.map Bracket.ofByte?)[position]? = some (some bracket) ↔ source[position]? = some byte := by
  rw [List.getElem?_map, Option.map_eq_some_iff]
  constructor
  · rintro ⟨other, there, is⟩
    rw [there, (stands other).mp is]
  · intro there
    exact ⟨byte, there, (stands byte).mpr rfl⟩

/-- The table of a source, whatever comments and stray brackets it has, is exactly the matching of its
brackets: of two positions the table leads from the first to the second if and only if it leads back, and
if and only if there are `[` and `]` with balanced brackets between them. Therefore it leads from a
position to one other position only, and from there back; pairs never cross; and a bracket is left out
exactly if no balanced stretch leads from it to a partner. The table of a code is the one of its
instructions. -/
theorem table_is_matching (source : List UInt8) :
    let places := source.map Bracket.ofByte?
    let Leads := fun position partner => (position, partner) ∈ entries (table places)
    (∀ start finish, start < finish → (Leads start finish ↔ Leads finish start) ∧
      (Leads start finish ↔ source[start]? = some 0x5B ∧ source[finish]? = some 0x5D ∧
        Balanced (between places start finish))) ∧
    (∀ position partner, Leads position partner → Leads partner position ∧ position ≠ partner ∧
      ∀ other, Leads position other → other = partner) ∧
    (∀ start finish start' finish', Leads start finish → Leads start' finish' →
      start < start' → start' < finish → start' < finish' → finish' < finish) ∧
    (∀ position, (∀ partner, ¬Leads position partner) ↔
      (source[position]? = some 0x5B → ∀ finish, position < finish →
        source[finish]? = some 0x5D → ¬Balanced (between places position finish)) ∧
      (source[position]? = some 0x5D → ∀ start, start < position →
        source[start]? = some 0x5B → ¬Balanced (between places start position))) ∧
    (Code.ofBytes source).partners =
      table (((Instruction.ofBytes source).map Instruction.byte).map Bracket.ofByte?) := by
  intro places Leads
  have leads {position partner : Nat} : Leads position partner ↔ Partners places position partner :=
    mem_entries_iff.trans partner?_table
  have pairs {start finish : Nat} : Match places start finish ↔ start < finish ∧
      source[start]? = some 0x5B ∧ source[finish]? = some 0x5D ∧
        Balanced (between places start finish) := by
    rw [match_iff, place_of_byte fun _ => Bracket.ofByte?_opening,
      place_of_byte fun _ => Bracket.ofByte?_closing]
  have forward {start finish : Nat} (before : start < finish)
      (pair : Partners places start finish) : Match places start finish := by
    rcases pair with pair | pair
    · exact pair
    · have backward := pair.lt
      omega
  refine ⟨?_, ?_, ?_, ?_, ?_⟩
  · intro start finish before
    refine ⟨?_, ?_⟩
    · rw [leads, leads]
      exact Or.comm
    · rw [leads]
      constructor
      · intro pair
        exact (pairs.mp (forward before pair)).2
      · intro matched
        exact .inl (pairs.mpr ⟨before, matched⟩)
  · intro position partner there
    have pair := leads.mp there
    refine ⟨leads.mpr pair.symm, ?_, ?_⟩
    · rcases pair with pair | pair
      · exact Nat.ne_of_lt pair.lt
      · exact (Nat.ne_of_lt pair.lt).symm
    · intro other also_there
      exact (leads.mp also_there).unique pair
  · intro start finish start' finish' there there' after inside before'
    have pair := forward (Nat.lt_trans after inside) (leads.mp there)
    exact pair.nested (forward before' (leads.mp there')) after inside
  · intro position
    constructor
    · intro alone
      refine ⟨?_, ?_⟩
      · intro opening finish before closing balanced
        exact alone finish (leads.mpr (.inl (pairs.mpr ⟨before, opening, closing, balanced⟩)))
      · intro closing start before opening balanced
        exact alone start (leads.mpr (.inr (pairs.mpr ⟨before, opening, closing, balanced⟩)))
    · rintro ⟨unclosed, unopened⟩ partner there
      rcases leads.mp there with pair | pair
      · obtain ⟨before, opening, closing, balanced⟩ := pairs.mp pair
        exact unclosed opening partner before closing balanced
      · obtain ⟨before, opening, closing, balanced⟩ := pairs.mp pair
        exact unopened closing partner before opening balanced
  · have brackets (op : Instruction) : Bracket.ofByte? op.byte = op.bracket? := by
      rw [Bracket.ofByte?, Instruction.ofByte?_byte, Option.bind_some]
    simp only [Code.ofBytes, Code.ofInstructions, List.map_map, Function.comp_def, brackets]

end TapeMachine
