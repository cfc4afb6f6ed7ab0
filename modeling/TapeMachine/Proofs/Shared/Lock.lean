import TapeMachine.Proofs.Shared.Access

namespace TapeMachine.SharedCell

variable {α ε : Type}

/-- Where the party is that has the lock. -/
inductive Stage (α ε : Type) where
  | checking (body : Body α ε)
  | inside (rest : Body α ε)
  | failing (error : ε)
  | poisoning
  | leaving (answer : Answer α ε)

namespace Stage

def start (access : Access α ε) : Stage α ε :=
  match access.body? with
  | some body => checking body
  | none => poisoning

/-- Whether the party does something of its own. -/
def acts : Stage α ε → Bool
  | inside _ | failing _ => true
  | _ => false

end Stage

structure Holder (α ε : Type) where
  party : Nat
  access : Access α ε
  stage : Stage α ε

/-- A cell with its lock. A party that gets the lock looks first whether the cell is poisoned, and
then takes the steps of its access one by one; it lets go of the lock at the end in any case, also
when an exception escapes. -/
structure Locked (α ε : Type) where
  cell : SharedCell α
  holder : Option (Holder α ε)

/-- What can happen: a party gets the lock for an access, or the party that has it takes a step. -/
inductive Move (α ε : Type) where
  | enter (party : Nat) (access : Access α ε)
  | proceed

namespace Locked

def new (value : α) : Locked α ε := ⟨.new value, none⟩

/-- The party keeps the lock. -/
def kept (holder : Holder α ε) (cell : SharedCell α) (stage : Stage α ε) :
    Locked α ε × List (Entry α ε) :=
  (⟨cell, some { holder with stage := stage }⟩, [])

/-- A step of the party that has the lock, with what is completed by it. -/
def step (cell : SharedCell α) (holder : Holder α ε) : Locked α ε × List (Entry α ε) :=
  match holder.stage with
  | .checking body => kept holder cell (if cell.poisoned then .leaving .refused else .inside body)
  | .inside (.look next) => kept holder cell (.inside (next cell.value))
  | .inside (.assign value rest) => kept holder { cell with value := value } (.inside rest)
  | .inside (.finish result) => kept holder cell (.leaving (.returned result))
  | .inside (.raise error) => kept holder cell (.failing error)
  | .failing error => kept holder cell.poison (.leaving (.raised error))
  | .poisoning => kept holder cell.poison (.leaving (.returned none))
  | .leaving answer => (⟨cell, none⟩, [⟨holder.party, holder.access, answer⟩])

/-- What becomes of the cell and its lock, and what is completed; `none` if the move is not possible. -/
def move? (locked : Locked α ε) (move : Move α ε) : Option (Locked α ε × List (Entry α ε)) :=
  match locked.holder, move with
  | none, .enter party access => some (⟨locked.cell, some ⟨party, access, .start access⟩⟩, [])
  | some holder, .proceed => some (step locked.cell holder)
  | none, .proceed | some _, .enter _ _ => none

/-- Makes some moves, one after the other; `none` if one of them is not possible. -/
def follow (locked : Locked α ε) : List (Move α ε) → Option (Locked α ε × List (Entry α ε))
  | [] => some (locked, [])
  | move :: moves =>
    match locked.move? move with
    | none => none
    | some (next, done) => (next.follow moves).map fun result => (result.1, done ++ result.2)

end Locked

/-- What can become of a cell and its lock, with the accesses that were completed, in the order in which the
parties have let go of the lock. -/
inductive Runs (initial : Locked α ε) : List (Entry α ε) → Locked α ε → Prop
  | start : Runs initial [] initial
  | next {entries done : List (Entry α ε)} {locked later : Locked α ε} (move : Move α ε) :
      Runs initial entries locked → locked.move? move = some (later, done) →
      Runs initial (entries ++ done) later

/-- The accesses that were completed have left the cell as `settled`. Whoever has the lock has come from
there to where he is. -/
inductive Since (settled : SharedCell α) : Locked α ε → Prop
  | free : Since settled ⟨settled, none⟩
  | checking {party : Nat} {access : Access α ε} {body : Body α ε} : access.body? = some body →
      Since settled ⟨settled, some ⟨party, access, .checking body⟩⟩
  | inside {party : Nat} {access : Access α ε} {body rest : Body α ε} {value : α} :
      access.body? = some body → settled.poisoned = false →
      body.run settled.value = rest.run value →
      Since settled ⟨⟨value, false⟩, some ⟨party, access, .inside rest⟩⟩
  | failing {party : Nat} {access : Access α ε} {body : Body α ε} {value : α} {error : ε} :
      access.body? = some body → settled.poisoned = false →
      body.run settled.value = (value, .error error) →
      Since settled ⟨⟨value, false⟩, some ⟨party, access, .failing error⟩⟩
  | poisoning {party : Nat} : Since settled ⟨settled, some ⟨party, .poison, .poisoning⟩⟩
  | leaving {party : Nat} {access : Access α ε} {answer : Answer α ε} {later : SharedCell α} :
      settled.perform access = (answer, later) →
      Since settled ⟨later, some ⟨party, access, .leaving answer⟩⟩

variable {cell settled : SharedCell α} {initial locked later middle : Locked α ε}
  {entries done more : List (Entry α ε)} {move : Move α ε}

/-- One step of whoever has the lock. When he lets go of it, his access has been performed as a whole. -/
theorem Since.step {holder : Holder α ε} (since : Since settled ⟨cell, some holder⟩)
    (goes : Locked.step cell holder = (later, done)) :
    done = [] ∧ Since settled later ∨ ∃ answer, done = [⟨holder.party, holder.access, answer⟩] ∧
      later = ⟨cell, none⟩ ∧ settled.perform holder.access = (answer, cell) := by
  cases since with
  | checking known =>
    obtain ⟨rfl, rfl⟩ := Prod.mk.inj goes
    obtain ⟨value, poisoned⟩ := cell
    cases poisoned with
    | true => exact .inl ⟨rfl, .leaving (Performs.refused known rfl).perform⟩
    | false => exact .inl ⟨rfl, .inside known rfl rfl⟩
  | @inside _ _ body rest value known sound same =>
    cases rest with
    | look | assign =>
      obtain ⟨rfl, rfl⟩ := Prod.mk.inj goes
      exact .inl ⟨rfl, .inside known sound same⟩
    | finish =>
      obtain ⟨rfl, rfl⟩ := Prod.mk.inj goes
      exact .inl ⟨rfl, .leaving (Performs.returned known sound same).perform⟩
    | raise =>
      obtain ⟨rfl, rfl⟩ := Prod.mk.inj goes
      exact .inl ⟨rfl, .failing known sound same⟩
  | failing known sound ran =>
    obtain ⟨rfl, rfl⟩ := Prod.mk.inj goes
    exact .inl ⟨rfl, .leaving (Performs.raised known sound ran).perform⟩
  | poisoning =>
    obtain ⟨rfl, rfl⟩ := Prod.mk.inj goes
    exact .inl ⟨rfl, .leaving rfl⟩
  | leaving performed =>
    obtain ⟨rfl, rfl⟩ := Prod.mk.inj goes
    exact .inr ⟨_, rfl, rfl, performed⟩

theorem Since.enter (party : Nat) (access : Access α ε) :
    Since settled ⟨settled, some ⟨party, access, .start access⟩⟩ := by
  rcases known : access.body? with _ | body
  · cases access with
    | poison => exact .poisoning
    | _ => cases known
  · have start : Stage.start access = .checking body := by rw [Stage.start, known]
    rw [start]
    exact .checking known

/-- What a move is: a party gets the lock that nobody has, or the one that has it takes a step. -/
inductive Moves (locked : Locked α ε) : Move α ε → Locked α ε → List (Entry α ε) → Prop
  | enter {party : Nat} {access : Access α ε} : locked.holder = none →
      Moves locked (.enter party access) ⟨locked.cell, some ⟨party, access, .start access⟩⟩ []
  | proceed {holder : Holder α ε} {later : Locked α ε} {done : List (Entry α ε)} :
      locked.holder = some holder → Locked.step locked.cell holder = (later, done) →
      Moves locked .proceed later done

theorem Locked.moves (step : locked.move? move = some (later, done)) : Moves locked move later done := by
  rcases taken : locked.holder with _ | holder <;> cases move <;>
    simp only [move?, taken, Option.some.injEq, Prod.mk.injEq, reduceCtorEq] at step
  · obtain ⟨rfl, rfl⟩ := step
    exact .enter taken
  · exact .proceed taken step

/-- However the steps follow each other, it is as if each access were performed as a whole. -/
theorem Runs.history (runs : Runs ⟨cell, none⟩ entries locked) :
    ∃ settled, History cell entries settled ∧ Since settled locked := by
  induction runs with
  | start => exact ⟨cell, .start, .free⟩
  | @next _ _ locked _ move _ step ih =>
    obtain ⟨settled, history, since⟩ := ih
    obtain ⟨found, holder⟩ := locked
    cases Locked.moves step with
    | enter free =>
      obtain rfl : holder = none := free
      cases since
      rw [List.append_nil]
      exact ⟨_, history, .enter _ _⟩
    | proceed taken goes =>
      obtain rfl : holder = some _ := taken
      rcases since.step goes with ⟨rfl, onward⟩ | ⟨answer, rfl, rfl, performed⟩
      · rw [List.append_nil]
        exact ⟨settled, history, onward⟩
      · exact ⟨_, history.next _ performed, .free⟩

/-- The cell is poisoned, and whoever has the lock does nothing of his own. -/
structure Locked.Dead (locked : Locked α ε) : Prop where
  poisoned : locked.cell.poisoned = true
  idle : ∀ holder, locked.holder = some holder → holder.stage.acts = false

theorem Since.dead (since : Since settled locked) (poisoned : locked.cell.poisoned = true) :
    locked.Dead := by
  refine ⟨poisoned, ?_⟩
  intro holder taken
  cases since with
  | free => cases taken
  | inside | failing => cases poisoned
  | checking | poisoning | leaving =>
    obtain rfl := Option.some.inj taken
    rfl

theorem acts_start (access : Access α ε) : (Stage.start access).acts = false := by
  cases access <;> rfl

/-- A poisoned cell stays as it is, and nothing is done to its value any more. -/
theorem Locked.Dead.next (dead : locked.Dead) (moves : Moves locked move later done) :
    later.cell = locked.cell ∧ later.Dead := by
  obtain ⟨cell, holder⟩ := locked
  have poisoned : cell.poisoned = true := dead.poisoned
  have same : cell.poison = cell := by rw [SharedCell.poison, ← poisoned]
  cases moves with
  | @enter _ access =>
    refine ⟨rfl, poisoned, ?_⟩
    intro holder taken
    obtain rfl := Option.some.inj taken
    exact acts_start access
  | @proceed holder _ _ taken goes =>
    obtain ⟨party, access, stage⟩ := holder
    have still := dead.idle _ taken
    cases stage with
    | inside | failing => cases still
    | checking | poisoning =>
      simp only [Locked.step, poisoned, same, if_true] at goes
      obtain ⟨rfl, -⟩ := Prod.mk.inj goes
      exact ⟨rfl, poisoned, fun _ taken => Option.some.inj taken ▸ rfl⟩
    | leaving =>
      obtain ⟨rfl, -⟩ := Prod.mk.inj goes
      exact ⟨rfl, poisoned, nofun⟩

theorem Runs.dead (runs : Runs initial entries locked) (dead : initial.Dead) :
    locked.cell = initial.cell ∧ locked.Dead := by
  induction runs with
  | start => exact ⟨rfl, dead⟩
  | next _ _ step ih =>
    obtain ⟨same, still⟩ := ih
    obtain ⟨cell, further⟩ := still.next (Locked.moves step)
    exact ⟨cell.trans same, further⟩

/-- By its own steps, a party that has the lock comes to let go of it. -/
def Releases (cell : SharedCell α) (holder : Holder α ε) : Prop :=
  ∃ count final answer, Locked.follow ⟨cell, some holder⟩ (List.replicate count .proceed) =
    some (⟨final, none⟩, [⟨holder.party, holder.access, answer⟩])

theorem Releases.of_step {holder : Holder α ε} {next : SharedCell α} {stage : Stage α ε}
    (onward : Releases next { holder with stage := stage })
    (step : Locked.step cell holder = Locked.kept holder next stage) : Releases cell holder := by
  obtain ⟨count, final, answer, followed⟩ := onward
  refine ⟨count + 1, final, answer, ?_⟩
  simp only [List.replicate_succ, Locked.follow, Locked.move?, step, Locked.kept, followed,
    Option.map_some, List.nil_append]

theorem releases_leaving (cell : SharedCell α) (party : Nat) (access : Access α ε)
    (answer : Answer α ε) : Releases cell ⟨party, access, .leaving answer⟩ :=
  ⟨1, cell, answer, rfl⟩

theorem releases_inside (cell : SharedCell α) (party : Nat) (access : Access α ε) (rest : Body α ε) :
    Releases cell ⟨party, access, .inside rest⟩ := by
  induction rest generalizing cell with
  | look next ih => exact .of_step (ih _ cell) rfl
  | assign value rest ih => exact .of_step (ih { cell with value := value }) rfl
  | finish result => exact .of_step (releases_leaving cell party access _) rfl
  | raise error =>
    have failing : Releases cell ⟨party, access, .failing error⟩ :=
      .of_step (releases_leaving cell.poison party access _) rfl
    exact failing.of_step rfl

theorem releases (cell : SharedCell α) (holder : Holder α ε) : Releases cell holder := by
  obtain ⟨party, access, stage⟩ := holder
  cases stage with
  | leaving => exact releases_leaving ..
  | inside => exact releases_inside ..
  | failing | poisoning => exact .of_step (releases_leaving cell.poison party access _) rfl
  | checking body =>
    cases poisoned : cell.poisoned with
    | true =>
      refine .of_step (releases_leaving cell party access .refused) ?_
      simp only [Locked.step, poisoned, if_true]
    | false =>
      refine .of_step (releases_inside cell party access body) ?_
      simp only [Locked.step, poisoned, Bool.false_eq_true, if_false]

theorem Runs.trans (first : Runs initial entries middle) (second : Runs middle more locked) :
    Runs initial (entries ++ more) locked := by
  induction second with
  | start => rwa [List.append_nil]
  | next move _ step ih =>
    rw [← List.append_assoc]
    exact ih.next move step

theorem Runs.of_follow {moves : List (Move α ε)}
    (followed : initial.follow moves = some (locked, entries)) : Runs initial entries locked := by
  induction moves generalizing initial entries with
  | nil =>
    obtain ⟨rfl, rfl⟩ := Prod.mk.inj (Option.some.inj followed)
    exact .start
  | cons move moves ih =>
    rw [Locked.follow] at followed
    rcases step : initial.move? move with _ | ⟨next, done⟩
    · rw [step] at followed
      cases followed
    · rw [step] at followed
      obtain ⟨⟨last, more⟩, rest, same⟩ := Option.map_eq_some_iff.mp followed
      obtain ⟨rfl, rfl⟩ := Prod.mk.inj same
      exact (Runs.start.next move step).trans (ih rest)

/-- Parties make accesses to a cell that begins with a value, and their steps follow each other in any
order, as the lock allows.
It is as if each access were performed as a whole, in the order in which the parties let go of the lock.
Until an exception escapes from an access or the cell is poisoned, every access gets what a register gives,
which holds what was written last; an exception comes back to whom it belongs. From then on every access but
a poisoning is refused. So the value that a failing access has left comes back to nobody.
The cell is poisoned by these accesses only, and for ever; nothing is done to its value any more.
While a party has the lock nobody else gets it, and by its own steps it comes to let go of it. -/
theorem poison_law {value : α} (runs : Runs (Locked.new value) entries locked) :
    (∃ settled, History (.new value) entries settled ∧
      (locked.holder = none → locked.cell = settled)) ∧
    (∀ before entry after, entries = before ++ entry :: after →
      ((∀ earlier ∈ before, earlier.breaks = false) →
        entry.answer = entry.access.answerAt (register value (before.map Entry.access))) ∧
      ((∃ earlier ∈ before, earlier.breaks = true) → entry.answer = entry.access.answerRefused)) ∧
    (locked.holder = none →
      (locked.cell.poisoned = true ↔ ∃ entry ∈ entries, entry.breaks = true)) ∧
    (locked.cell.poisoned = true → ∀ more later, Runs locked more later →
      later.cell = locked.cell ∧ ∀ holder, later.holder = some holder → holder.stage.acts = false) ∧
    ∀ holder, locked.holder = some holder →
      (∀ party access, locked.move? (.enter party access) = none) ∧
      ∃ count final answer, locked.follow (List.replicate count .proceed) =
        some (⟨final, none⟩, [⟨holder.party, holder.access, answer⟩]) := by
  obtain ⟨settled, history, since⟩ := runs.history
  obtain ⟨sound, broken⟩ := history.law
  have free (nobody : locked.holder = none) : locked.cell = settled := by
    cases since with
    | free => rfl
    | _ => cases nobody
  refine ⟨⟨settled, history, free⟩, ?_, ?_, ?_, ?_⟩
  · rintro before entry after rfl
    exact history.answers
  · intro nobody
    rw [free nobody]
    refine ⟨broken, ?_⟩
    rintro ⟨entry, member, breaks⟩
    cases fine : settled.poisoned with
    | true => rfl
    | false => cases ((sound fine).1 entry member).symm.trans breaks
  · intro poisoned more later onward
    obtain ⟨same, dead⟩ := onward.dead (since.dead poisoned)
    exact ⟨same, dead.idle⟩
  · intro holder taken
    obtain ⟨cell, _⟩ := locked
    obtain rfl := taken
    exact ⟨fun _ _ => rfl, releases cell holder⟩

/-- A party adds one, another one assigns twice and then raises, and a third one comes too late to load. -/
def movesAroundFailure : List (Move Nat String) :=
  [[.enter 0 (.update fun value => .ok (value + 1))], List.replicate 6 .proceed,
    [.enter 1 (.within (.look fun value => .assign (value * 5) (.assign 7 (.raise "lost"))))],
    List.replicate 7 .proceed, [.enter 2 .load], List.replicate 2 .proceed].flatten

/-- The last value that was assigned is in the cell, and nobody gets it. -/
theorem poison_law_around_failure :
    ∃ entries locked, Runs (Locked.new 1) entries locked ∧ locked.cell = ⟨7, true⟩ ∧
      entries.map Entry.answer = [.returned (some 2), .raised "lost", .refused] ∧
      register 1 ((entries.take 1).map Entry.access) = 2 ∧
      ∀ more later, Runs locked more later → later.cell = ⟨7, true⟩ := by
  have run : ((Locked.new 1).follow movesAroundFailure).map (fun last =>
      (last.1.cell, last.2.map Entry.answer, register 1 ((last.2.take 1).map Entry.access))) =
      some (⟨7, true⟩, [.returned (some 2), .raised "lost", .refused], 2) := by decide +kernel
  obtain ⟨⟨locked, entries⟩, followed, seen⟩ := Option.map_eq_some_iff.mp run
  simp only [Prod.mk.injEq] at seen
  obtain ⟨cell, answers, held⟩ := seen
  have runs := Runs.of_follow followed
  obtain ⟨-, -, -, forever, -⟩ := poison_law runs
  refine ⟨entries, locked, runs, cell, answers, held, ?_⟩
  intro more later onward
  rw [(forever (by rw [cell]) more later onward).1, cell]

end TapeMachine.SharedCell
