import TapeMachine.SharedCell

namespace TapeMachine.SharedCell

variable {α ε : Type}

/-- What a party does while it has the lock: it looks at the value and assigns other ones, as often as it
likes, and finishes or raises. When it finishes, it may hand back a value. -/
inductive Body (α ε : Type) where
  | look (next : α → Body α ε)
  | assign (value : α) (rest : Body α ε)
  | finish (result : Option α)
  | raise (error : ε)

namespace Body

/-- The value that is left, and how the body has ended. -/
def run : Body α ε → α → α × Except ε (Option α)
  | look next, value => (next value).run value
  | assign new rest, _ => rest.run new
  | finish result, value => (value, .ok result)
  | raise error, value => (value, .error error)

/-- The value that was assigned last; `none` if none was. -/
def assigned? : Body α ε → α → Option α
  | look next, value => (next value).assigned? value
  | assign new rest, _ => some ((rest.assigned? new).getD new)
  | finish _, _ | raise _, _ => none

theorem run_fst (body : Body α ε) (value : α) :
    (body.run value).1 = (body.assigned? value).getD value := by
  induction body generalizing value with
  | look next ih => exact ih value value
  | assign new rest ih => exact ih new
  | finish | raise => rfl

end Body

inductive Access (α ε : Type) where
  | load
  | store (value : α)
  | update (change : α → Except ε α)
  | within (body : Body α ε)
  | poison

/-- What an access comes back with. -/
inductive Answer (α ε : Type) where
  | returned (value : Option α)
  | refused
  | raised (error : ε)
  deriving DecidableEq

def Answer.ofResult : Except (LockError ε) (Option α) → Answer α ε
  | .ok value => returned value
  | .error .poisoned => refused
  | .error (.raised error) => raised error

/-- What a body comes back with that could run. -/
def Answer.ofEnd : Except ε (Option α) → Answer α ε
  | .ok value => returned value
  | .error error => raised error

/-- An access as a whole. -/
def perform (cell : SharedCell α) : Access α ε → Answer α ε × SharedCell α
  | .load =>
    match cell.load? with
    | some value => (.returned (some value), cell)
    | none => (.refused, cell)
  | .store value =>
    match cell.store? value with
    | some later => (.returned none, later)
    | none => (.refused, cell)
  | .update change =>
    let (result, later) := cell.locked fun value =>
      match change value with
      | .ok new => (new, .ok (some new))
      | .error error => (value, .error error)
    (.ofResult result, later)
  | .within body =>
    let (result, later) := cell.locked body.run
    (.ofResult result, later)
  | .poison => (.returned none, cell.poison)

namespace Access

/-- What an access does under the lock; `none` for a poisoning, which does not look at the value. -/
def body? : Access α ε → Option (Body α ε)
  | load => some (.look fun value => .finish (some value))
  | store value => some (.assign value (.finish none))
  | update change => some (.look fun value =>
      match change value with
      | .ok new => .assign new (.look fun value => .finish (some value))
      | .error error => .raise error)
  | within body => some body
  | poison => none

/-- What an access writes to a register. -/
def written? (value : α) : Access α ε → Option α
  | load | poison => none
  | store new => some new
  | update change => (change value).toOption
  | within body => body.assigned? value

/-- What an access gets from a register. -/
def answerAt (value : α) : Access α ε → Answer α ε
  | load => .returned (some value)
  | store _ | poison => .returned none
  | update change =>
    match change value with
    | .ok new => .returned (some new)
    | .error error => .raised error
  | within body => .ofEnd (body.run value).2

/-- What an access gets from a cell that is poisoned. -/
def answerRefused : Access α ε → Answer α ε
  | poison => .returned none
  | _ => .refused

end Access

/-- The value of a register that held `value` before some accesses. -/
def register (value : α) (accesses : List (Access α ε)) : α :=
  accesses.foldl (fun value access => (access.written? value).getD value) value

/-- An access that a party has made. -/
structure Entry (α ε : Type) where
  party : Nat
  access : Access α ε
  answer : Answer α ε

/-- The access was a poisoning, or an exception has escaped from it. -/
def Entry.breaks (entry : Entry α ε) : Bool :=
  match entry.access, entry.answer with
  | .poison, _ | _, .raised _ => true
  | _, _ => false

/-- Accesses in order, each performed as a whole. -/
inductive History (initial : SharedCell α) : List (Entry α ε) → SharedCell α → Prop
  | start : History initial [] initial
  | next {entries : List (Entry α ε)} {cell later : SharedCell α} {access : Access α ε}
      {answer : Answer α ε} (party : Nat) : History initial entries cell →
      cell.perform access = (answer, later) →
      History initial (entries ++ [⟨party, access, answer⟩]) later

/-- All that performing an access can be. -/
inductive Performs (cell : SharedCell α) : Access α ε → Answer α ε → SharedCell α → Prop
  | poison : Performs cell .poison (.returned none) cell.poison
  | refused {access : Access α ε} {body : Body α ε} : access.body? = some body →
      cell.poisoned = true → Performs cell access .refused cell
  | returned {access : Access α ε} {body : Body α ε} {value : α} {result : Option α} :
      access.body? = some body → cell.poisoned = false → body.run cell.value = (value, .ok result) →
      Performs cell access (.returned result) ⟨value, false⟩
  | raised {access : Access α ε} {body : Body α ε} {value : α} {error : ε} :
      access.body? = some body → cell.poisoned = false → body.run cell.value = (value, .error error) →
      Performs cell access (.raised error) ⟨value, true⟩

variable {cell later : SharedCell α} {access : Access α ε} {answer : Answer α ε} {body : Body α ε}
  {entries : List (Entry α ε)}

theorem perform_body (known : access.body? = some body) : cell.perform access =
    (.ofResult (cell.locked body.run).1, (cell.locked body.run).2) := by
  obtain ⟨value, poisoned⟩ := cell
  cases access with
  | poison => cases known
  | within =>
    obtain rfl := Option.some.inj known
    rfl
  | load | store =>
    obtain rfl := Option.some.inj known
    cases poisoned <;> rfl
  | update change =>
    obtain rfl := Option.some.inj known
    cases poisoned with
    | true => rfl
    | false =>
      rcases made : change value with error | new <;> simp [perform, locked, Body.run, made]

theorem Performs.perform (performs : Performs cell access answer later) :
    cell.perform access = (answer, later) := by
  cases performs with
  | poison => rfl
  | refused known poisoned =>
    rw [perform_body known, locked, if_pos poisoned]
    rfl
  | returned known sound ran | raised known sound ran =>
    simp only [perform_body known, locked, sound, Bool.false_eq_true, if_false, ran]
    rfl

theorem performs (done : cell.perform access = (answer, later)) : Performs cell access answer later := by
  rcases known : access.body? with _ | body
  · cases access with
    | poison =>
      obtain ⟨rfl, rfl⟩ := Prod.mk.inj done
      exact .poison
    | _ => cases known
  · rw [perform_body known] at done
    obtain ⟨rfl, rfl⟩ := Prod.mk.inj done
    unfold locked
    split
    · rename_i poisoned
      exact .refused known poisoned
    · rename_i sound
      have fine : cell.poisoned = false := by simpa using sound
      split
      · rename_i ran
        exact .returned known fine ran
      · rename_i ran
        exact .raised known fine ran

/-- What an access gets and leaves under the lock is what it gets from a register and leaves there. -/
theorem answerAt_of_run {value left : α} {result : Except ε (Option α)}
    (known : access.body? = some body) (ran : body.run value = (left, result)) :
    left = (access.written? value).getD value ∧ access.answerAt value = .ofEnd result := by
  cases access with
  | poison => cases known
  | load | store =>
    obtain rfl := Option.some.inj known
    obtain ⟨rfl, rfl⟩ := Prod.mk.inj ran
    exact ⟨rfl, rfl⟩
  | update change =>
    obtain rfl := Option.some.inj known
    simp only [Body.run] at ran
    rcases made : change value with error | new <;> rw [made] at ran <;>
      obtain ⟨rfl, rfl⟩ := Prod.mk.inj ran <;>
      simp [Access.written?, Access.answerAt, Answer.ofEnd, made, Except.toOption]
  | within body =>
    obtain rfl := Option.some.inj known
    have left_eq := body.run_fst value
    rw [ran] at left_eq
    exact ⟨left_eq, congrArg (fun run : α × Except ε (Option α) => Answer.ofEnd run.2) ran⟩

theorem breaks_of_returned {party : Nat} {result : Option α} (known : access.body? = some body) :
    Entry.breaks ⟨party, access, .returned result⟩ = false := by
  cases access with
  | poison => cases known
  | _ => rfl

theorem register_concat (value : α) (accesses : List (Access α ε)) (access : Access α ε) :
    register value (accesses ++ [access]) =
      (access.written? (register value accesses)).getD (register value accesses) :=
  List.foldl_append ..

namespace History

variable {value : α}

/-- What has become of a cell. It is a register until an access breaks it, and poisoned from then on. -/
theorem law (history : History (.new value) entries cell) :
    (cell.poisoned = false → (∀ entry ∈ entries, entry.breaks = false) ∧
      cell.value = register value (entries.map Entry.access)) ∧
    (cell.poisoned = true → ∃ entry ∈ entries, entry.breaks = true) := by
  induction history with
  | start => exact ⟨fun _ => ⟨nofun, rfl⟩, nofun⟩
  | @next entries cell later access answer party _ done ih =>
    have last {entry : Entry α ε} (broken : entry.breaks = true) :
        ∃ other ∈ entries ++ [entry], other.breaks = true :=
      ⟨entry, List.mem_append_right _ (List.mem_singleton_self entry), broken⟩
    cases performs done with
    | poison => exact ⟨nofun, fun _ => last rfl⟩
    | refused _ poisoned =>
      refine ⟨fun sound => (by rw [poisoned] at sound; cases sound), fun _ => ?_⟩
      obtain ⟨entry, member, broken⟩ := ih.2 poisoned
      exact ⟨entry, List.mem_append_left _ member, broken⟩
    | returned known sound ran =>
      obtain ⟨calm, same⟩ := ih.1 sound
      refine ⟨fun _ => ⟨?_, ?_⟩, nofun⟩
      · intro entry member
        rcases List.mem_append.mp member with old | new
        · exact calm entry old
        · obtain rfl := List.mem_singleton.mp new
          exact breaks_of_returned known
      · rw [List.map_append, List.map_singleton, register_concat, ← same]
        exact (answerAt_of_run known ran).1
    | raised =>
      refine ⟨nofun, fun _ => last ?_⟩
      cases access <;> rfl

/-- An access is performed on what the accesses before it have left. -/
theorem split {initial : SharedCell α} {before after : List (Entry α ε)} {entry : Entry α ε}
    (history : History initial (before ++ entry :: after) cell) :
    ∃ middle later, History initial before middle ∧
      middle.perform entry.access = (entry.answer, later) := by
  generalize whole : before ++ entry :: after = entries at history
  induction history generalizing after with
  | start => simp at whole
  | next party history done ih =>
    rcases List.eq_nil_or_concat after with rfl | ⟨after, last, rfl⟩
    · obtain ⟨rfl, same⟩ := List.append_inj' whole rfl
      obtain rfl := (List.cons.inj same).1
      exact ⟨_, _, history, done⟩
    · rw [List.concat_eq_append, ← List.cons_append, ← List.append_assoc] at whole
      exact ih (List.append_inj' whole rfl).1

/-- What an access gets: what a register gives, or a refusal once the cell has been broken. -/
theorem answers {before after : List (Entry α ε)} {entry : Entry α ε}
    (history : History (.new value) (before ++ entry :: after) cell) :
    ((∀ earlier ∈ before, earlier.breaks = false) →
      entry.answer = entry.access.answerAt (register value (before.map Entry.access))) ∧
    ((∃ earlier ∈ before, earlier.breaks = true) → entry.answer = entry.access.answerRefused) := by
  obtain ⟨middle, later, earlier, done⟩ := history.split
  obtain ⟨party, access, answer⟩ := entry
  obtain ⟨sound, broken⟩ := earlier.law
  cases poisoned : middle.poisoned with
  | false =>
    obtain ⟨calm, same⟩ := sound poisoned
    refine ⟨fun _ => ?_, fun ⟨other, member, breaks⟩ => ?_⟩
    · rw [← same]
      cases performs done with
      | poison => rfl
      | refused _ refuses => cases poisoned.symm.trans refuses
      | returned known _ ran | raised known _ ran => exact (answerAt_of_run known ran).2.symm
    · cases (calm other member).symm.trans breaks
  | true =>
    obtain ⟨other, member, breaks⟩ := broken poisoned
    refine ⟨fun calm => ?_, fun _ => ?_⟩
    · cases (calm other member).symm.trans breaks
    · cases performs done with
      | poison => rfl
      | refused known =>
        cases access with
        | poison => cases known
        | _ => rfl
      | returned _ fine | raised _ fine => cases poisoned.symm.trans fine

end History

end TapeMachine.SharedCell
