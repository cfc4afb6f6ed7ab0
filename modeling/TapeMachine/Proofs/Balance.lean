import TapeMachine.Pairing
import Mathlib.Data.List.Basic

namespace TapeMachine

namespace Pairing

/-- Every bracket has its partner inside the sequence. -/
inductive Balanced : List (Option Bracket) → Prop
  | nil : Balanced []
  | plain {rest : List (Option Bracket)} : Balanced rest → Balanced (none :: rest)
  | nest {inner rest : List (Option Bracket)} : Balanced inner → Balanced rest →
      Balanced (some .opening :: (inner ++ some .closing :: rest))

theorem Balanced.append {first second : List (Option Bracket)} (left : Balanced first)
    (right : Balanced second) : Balanced (first ++ second) := by
  induction left with
  | nil => exact right
  | plain _ ih => exact .plain ih
  | nest inner _ _ ih =>
    rw [List.cons_append, List.append_assoc, List.cons_append]
    exact .nest inner ih

/-- How many more brackets are opened than closed. -/
def surplus : List (Option Bracket) → Int
  | [] => 0
  | none :: rest => surplus rest
  | some .opening :: rest => surplus rest + 1
  | some .closing :: rest => surplus rest - 1

theorem surplus_append (first second : List (Option Bracket)) :
    surplus (first ++ second) = surplus first + surplus second := by
  induction first with
  | nil => simp [surplus]
  | cons place rest ih =>
    rcases place with _ | _ | _ <;> simp only [List.cons_append, surplus, ih] <;> omega

theorem Balanced.surplus_eq_zero {places : List (Option Bracket)} (balanced : Balanced places) :
    surplus places = 0 := by
  induction balanced with
  | nil => rfl
  | plain _ ih => exact ih
  | nest _ _ inner rest =>
    simp only [surplus, surplus_append, inner, rest]
    omega

/-- Read from the left, a balanced sequence never closes more than it has opened. -/
theorem Balanced.surplus_prefix {places first second : List (Option Bracket)}
    (balanced : Balanced places) (split : places = first ++ second) : 0 ≤ surplus first := by
  induction balanced generalizing first second with
  | nil =>
    rw [(List.append_eq_nil_iff.mp split.symm).1]
    exact Int.le_refl _
  | @plain rest _ ih =>
    rcases first with _ | ⟨place, first⟩
    · exact Int.le_refl _
    · obtain ⟨rfl, same⟩ : none = place ∧ rest = first ++ second := List.cons_eq_cons.mp split
      simpa only [surplus] using ih same
  | @nest inner rest balancedInner _ ihInner ihRest =>
    rcases first with _ | ⟨place, first⟩
    · exact Int.le_refl _
    · obtain ⟨rfl, same⟩ := List.cons_eq_cons.mp split
      have zero := balancedInner.surplus_eq_zero
      rcases List.append_eq_append_iff.mp same with ⟨extra, longer, tail⟩ | ⟨extra, shorter, _⟩
      · rcases extra with _ | ⟨place, extra⟩
        · simp only [longer, List.append_nil, surplus, zero]
          omega
        · obtain ⟨rfl, within⟩ := List.cons_eq_cons.mp tail
          have later := ihRest within
          simp only [longer, surplus, surplus_append, zero]
          omega
      · have earlier := ihInner shorter
        simp only [surplus]
        omega

theorem Balanced.no_early_closing {first second : List (Option Bracket)}
    (balanced : Balanced first) : ¬ Balanced (first ++ some .closing :: second) := by
  intro longer
  have split : first ++ some .closing :: second = (first ++ [some .closing]) ++ second := by simp
  have bound := longer.surplus_prefix split
  rw [surplus_append, balanced.surplus_eq_zero] at bound
  simp [surplus] at bound

theorem Balanced.no_late_opening {first second : List (Option Bracket)}
    (balanced : Balanced second) : ¬ Balanced (first ++ some .opening :: second) := by
  intro longer
  have bound := longer.surplus_prefix rfl
  have total := longer.surplus_eq_zero
  rw [surplus_append, surplus, balanced.surplus_eq_zero] at total
  omega

/-- Where the bracket that closes a balanced interior stands is settled by the interior. -/
theorem Balanced.closing_unique {inner inner' after after' : List (Option Bracket)}
    (balanced : Balanced inner) (balanced' : Balanced inner')
    (same : inner ++ some .closing :: after = inner' ++ some .closing :: after') :
    inner = inner' := by
  rcases List.append_eq_append_iff.mp same with ⟨extra, longer, tail⟩ | ⟨extra, longer, tail⟩
  · rcases extra with _ | ⟨place, extra⟩
    · simpa using longer.symm
    · obtain ⟨rfl, -⟩ := List.cons_eq_cons.mp tail
      exact absurd (longer ▸ balanced') balanced.no_early_closing
  · rcases extra with _ | ⟨place, extra⟩
    · simpa using longer
    · obtain ⟨rfl, -⟩ := List.cons_eq_cons.mp tail
      exact absurd (longer ▸ balanced) balanced'.no_early_closing

theorem Balanced.opening_unique {before before' inner inner' : List (Option Bracket)}
    (balanced : Balanced inner) (balanced' : Balanced inner')
    (same : before ++ some .opening :: inner = before' ++ some .opening :: inner') :
    before = before' := by
  rcases List.append_eq_append_iff.mp same with ⟨extra, longer, tail⟩ | ⟨extra, longer, tail⟩
  · rcases extra with _ | ⟨place, extra⟩
    · simpa using longer.symm
    · obtain ⟨rfl, within⟩ : some .opening = place ∧ inner = extra ++ some .opening :: inner' :=
        List.cons_eq_cons.mp tail
      exact absurd (within ▸ balanced) balanced'.no_late_opening
  · rcases extra with _ | ⟨place, extra⟩
    · simpa using longer
    · obtain ⟨rfl, within⟩ : some .opening = place ∧ inner' = extra ++ some .opening :: inner :=
        List.cons_eq_cons.mp tail
      exact absurd (within ▸ balanced') balanced.no_late_opening

/-- The brackets at two positions belong together: the first one opens, the second one closes,
and what stands between them is balanced. -/
def Match (places : List (Option Bracket)) (start finish : Nat) : Prop :=
  ∃ before inner after, places = before ++ some .opening :: (inner ++ some .closing :: after) ∧
    Balanced inner ∧ before.length = start ∧ start + inner.length + 1 = finish

theorem Match.append {places : List (Option Bracket)} {start finish : Nat}
    (pair : Match places start finish) (more : List (Option Bracket)) :
    Match (places ++ more) start finish := by
  obtain ⟨before, inner, after, split, balanced, atStart, atFinish⟩ := pair
  exact ⟨before, inner, after ++ more, by simp [split], balanced, atStart, atFinish⟩

theorem Match.prepend {places : List (Option Bracket)} {start finish : Nat}
    (pair : Match places start finish) (more : List (Option Bracket)) :
    Match (more ++ places) (more.length + start) (more.length + finish) := by
  obtain ⟨before, inner, after, split, balanced, atStart, atFinish⟩ := pair
  exact ⟨more ++ before, inner, after, by simp [split], balanced, by simp [atStart], by omega⟩

theorem Match.lt {places : List (Option Bracket)} {start finish : Nat}
    (pair : Match places start finish) : start < finish := by
  obtain ⟨_, _, _, _, _, _, atFinish⟩ := pair
  omega

theorem Match.lt_length {places : List (Option Bracket)} {start finish : Nat}
    (pair : Match places start finish) : finish < places.length := by
  obtain ⟨before, inner, after, split, _, atStart, atFinish⟩ := pair
  simp only [split, List.length_append, List.length_cons]
  omega

theorem Match.opening {places : List (Option Bracket)} {start finish : Nat}
    (pair : Match places start finish) : places[start]? = some (some .opening) := by
  obtain ⟨before, inner, after, split, _, rfl, _⟩ := pair
  simp [split]

theorem Match.closing {places : List (Option Bracket)} {start finish : Nat}
    (pair : Match places start finish) : places[finish]? = some (some .closing) := by
  obtain ⟨before, inner, after, split, _, rfl, rfl⟩ := pair
  rw [split, List.getElem?_append_right (by omega)]
  have offset : before.length + inner.length + 1 - before.length = inner.length + 1 := by omega
  rw [offset]
  simp

theorem Match.finish_unique {places : List (Option Bracket)} {start finish finish' : Nat}
    (pair : Match places start finish) (pair' : Match places start finish') :
    finish = finish' := by
  obtain ⟨before, inner, after, split, balanced, atStart, atFinish⟩ := pair
  obtain ⟨before', inner', after', split', balanced', atStart', atFinish'⟩ := pair'
  have tails := (List.append_inj (split.symm.trans split') (by omega)).2
  have same := balanced.closing_unique balanced' (List.cons_eq_cons.mp tails).2
  rw [← atFinish, ← atFinish', same]

theorem Match.start_unique {places : List (Option Bracket)} {start start' finish : Nat}
    (pair : Match places start finish) (pair' : Match places start' finish) :
    start = start' := by
  obtain ⟨before, inner, after, split, balanced, atStart, atFinish⟩ := pair
  obtain ⟨before', inner', after', split', balanced', atStart', atFinish'⟩ := pair'
  have whole : (before ++ some .opening :: inner) ++ some .closing :: after =
      (before' ++ some .opening :: inner') ++ some .closing :: after' := by
    simpa using split.symm.trans split'
  have heads := (List.append_inj whole (by simp only [List.length_append, List.length_cons]; omega)).1
  have same := balanced.opening_unique balanced' heads
  rw [← atStart, ← atStart', same]

/-- Two positions hold brackets that belong together, in either order. -/
def Partners (places : List (Option Bracket)) (position partner : Nat) : Prop :=
  Match places position partner ∨ Match places partner position

theorem Partners.append {places : List (Option Bracket)} {position partner : Nat}
    (pair : Partners places position partner) (more : List (Option Bracket)) :
    Partners (places ++ more) position partner := pair.imp (·.append more) (·.append more)

theorem Partners.prepend {places : List (Option Bracket)} {position partner : Nat}
    (pair : Partners places position partner) (more : List (Option Bracket)) :
    Partners (more ++ places) (more.length + position) (more.length + partner) :=
  pair.imp (·.prepend more) (·.prepend more)

theorem Partners.lt_length {places : List (Option Bracket)} {position partner : Nat}
    (pair : Partners places position partner) : partner < places.length := by
  rcases pair with forward | backward
  · exact forward.lt_length
  · exact Nat.lt_trans backward.lt backward.lt_length

theorem Partners.unique {places : List (Option Bracket)} {position partner partner' : Nat}
    (pair : Partners places position partner) (pair' : Partners places position partner') :
    partner = partner' := by
  rcases pair with first | second <;> rcases pair' with first' | second'
  · exact first.finish_unique first'
  · have clash := first.opening.symm.trans second'.closing
    simp at clash
  · have clash := second.closing.symm.trans first'.opening
    simp at clash
  · exact second.start_unique second'

end Pairing

end TapeMachine
