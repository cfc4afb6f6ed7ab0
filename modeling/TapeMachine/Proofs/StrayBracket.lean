import TapeMachine.Proofs.Step

namespace TapeMachine

/-- Between two brackets that belong together every bracket has its partner, which stands there too. -/
theorem Pairing.Match.complete_between {places : List (Option Bracket)} {start finish position : Nat}
    {bracket : Bracket} (pair : Match places start finish) (after : start < position)
    (before : position < finish) (here : places[position]? = some (some bracket)) :
    ∃ partner, Partners places position partner ∧ start < partner ∧ partner < finish := by
  obtain ⟨front, inner, back, split, balanced, atStart, atFinish⟩ := pair
  obtain ⟨place, rfl⟩ : ∃ place, position = start + 1 + place := ⟨position - (start + 1), by omega⟩
  have regroup : places = (front ++ [some .opening]) ++ (inner ++ some .closing :: back) := by
    simp [split]
  have length : (front ++ [some Bracket.opening]).length = start + 1 := by simp [atStart]
  rw [regroup, ← length, List.getElem?_append_right (Nat.le_add_right _ _), Nat.add_sub_cancel_left,
    List.getElem?_append_left (by omega)] at here
  obtain ⟨partner, inside⟩ := balanced.complete place bracket here
  have bound := inside.lt_length
  rw [regroup, ← length]
  exact ⟨_, (inside.append (some .closing :: back)).prepend _, by omega, by omega⟩

namespace Code

/-- At the position there is a bracket without partner. -/
def Stray (code : Code) (position : Nat) : Prop :=
  ∃ op, code.instructions[position]? = some op ∧ op.bracket?.isSome ∧ code.partner? position = none

theorem matched_iff_no_stray (code : Code) : code.Matched ↔ ∀ position, ¬ code.Stray position := by
  constructor
  · rintro matched position ⟨op, here, isBracket, alone⟩
    have paired := matched position op here isBracket
    rw [alone] at paired
    cases paired
  · intro none_stray position op here isBracket
    rcases alone : code.partner? position with _ | partner
    · exact absurd ⟨op, here, isBracket, alone⟩ (none_stray position)
    · rfl

/-- The first bracket of `[[]` has no partner; the second one is closed by the third. -/
example : (Code.ofBytes [0x5B, 0x5B, 0x5D]).Stray 0 := ⟨.loopStart, rfl, rfl, rfl⟩

theorem Stray.lt_size {code : Code} {position : Nat} (stray : code.Stray position) :
    position < code.size := by
  obtain ⟨op, here, -⟩ := stray
  exact (Array.getElem?_eq_some_iff.mp here).1

/-- A jump from before a stray bracket does not go behind it. It would stand inside of a pair otherwise,
and have its partner there. -/
theorem Stray.partner_lt {code : Code} {position stray partner : Nat} (alone : code.Stray stray)
    (before : position < stray) (paired : code.partner? position = some partner) :
    partner < stray := by
  obtain ⟨op, here, isBracket, unpaired⟩ := alone
  have pair := partner?_eq_some_iff.mp paired
  rcases Nat.lt_trichotomy partner stray with less | same | beyond
  · exact less
  · subst same
    have back := partner?_eq_some_iff.mpr pair.symm
    rw [unpaired] at back
    cases back
  · obtain ⟨bracket, is⟩ := Option.isSome_iff_exists.mp isBracket
    have place : (Block.brackets code.instructions.toList)[stray]? = some (some bracket) := by
      simp [Block.brackets, here, is]
    have opens : Pairing.Match (Block.brackets code.instructions.toList) position partner := by
      rcases pair with forward | backward
      · exact forward
      · have := backward.lt
        omega
    obtain ⟨other, found, -⟩ := opens.complete_between before beyond place
    have clash := partner?_eq_some_iff.mpr found
    rw [unpaired] at clash
    cases clash

end Code

namespace Machine

variable {machine later : Machine} {stream left : ByteStream} {op : Instruction}

/-- A step fails for want of a partner exactly at a stray bracket. -/
theorem step_mismatched_iff :
    (machine.step stream).outcome = .failed .mismatchedBrackets ↔
      machine.code.Stray machine.position := by
  rcases next : machine.peek with _ | op
  · rw [step_end next]
    refine ⟨fun failed => (by cases failed), ?_⟩
    rintro ⟨op, here, -⟩
    rw [peek, here] at next
    cases next
  have only : machine.code.Stray machine.position ↔
      op.bracket?.isSome ∧ machine.code.partner? machine.position = none := by
    have here : machine.code.instructions[machine.position]? = some op := next
    simp [Code.Stray, here]
  rw [only]
  rcases op.bracket_or_simple with isBracket | ⟨plain, rfl⟩
  · rw [step_bracket next isBracket]
    cases machine.code.partner? machine.position <;> simp [isBracket]
  · rw [step_simple next, Block.bracket?_simple]
    have sound := plain.run_not_mismatched (machine.config stream)
    rcases verdict : (plain.run (machine.config stream)).1 with _ | error | _ <;>
      simp_all [Verdict.outcome]

/-- A machine before a stray bracket, or at it, is not behind it after a step. -/
theorem step_before_stray {stray : Nat} (step : machine.step stream = ⟨.ran op, later, left⟩)
    (alone : machine.code.Stray stray) (before : machine.position ≤ stray) :
    later.position ≤ stray := by
  obtain ⟨-, next, paired, leads⟩ := step_ran step
  have strictly : machine.position < stray := by
    apply Nat.lt_of_le_of_ne before
    rintro rfl
    obtain ⟨op', here, isBracket, unpaired⟩ := alone
    obtain rfl : op = op' := Option.some.inj (next.symm.trans here)
    rw [unpaired] at paired
    cases paired isBracket
  rcases leads with behind | ⟨partner, found, behind⟩
  · omega
  · have := alone.partner_lt strictly found
    omega

/-- The machine has not got past any stray bracket of its code. -/
def Confined (machine : Machine) : Prop :=
  ∀ stray, machine.code.Stray stray → machine.position ≤ stray

theorem confined_load (code : Code) (input : List UInt8) (fallback : Option Int) :
    (Machine.load code input fallback).Confined := fun _ _ => Nat.zero_le _

theorem Confined.step (confined : machine.Confined)
    (step : machine.step stream = ⟨.ran op, later, left⟩) : later.Confined := by
  intro stray alone
  rw [(step_ran step).1] at alone
  exact step_before_stray step alone (confined stray alone)

/-- A machine that has got to the end of its code has met no stray bracket. -/
theorem Confined.matched (confined : machine.Confined)
    (ended : (machine.step stream).outcome = .ended) : machine.code.Matched := by
  rw [Code.matched_iff_no_stray]
  intro stray alone
  have within := alone.lt_size
  have bound := confined stray alone
  have beyond : machine.code.size ≤ machine.position :=
    Array.getElem?_eq_none_iff.mp (step_ended_iff.mp ended)
  omega

end Machine

theorem Path.confined {initial last : Machine} {stream rest : ByteStream} {trail : List Advance}
    (path : Path initial stream trail last rest) (confined : initial.Confined) : last.Confined := by
  induction path with
  | start => exact confined
  | next _ step ih => exact ih.step step

end TapeMachine
