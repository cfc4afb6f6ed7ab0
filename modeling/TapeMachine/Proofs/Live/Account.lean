import TapeMachine.Proofs.Live.Traces
import TapeMachine.Proofs.Step

namespace TapeMachine

/-- A status is true of a run that has executed a number of instructions. `machine` is what the run had
come to after `count` of them, and `input` what there was to read then. -/
def Status.TrueOf (machine : Machine) (input : ByteStream) (count executed : Nat) : Status → Prop
  | .running => 1 ≤ count
  | .waitingForInput => machine.peek = some .input ∧ machine.input = []
  | .done => machine.peek = none ∧ executed = count
  | .error message => executed = count ∧ ∃ error left,
      machine.step input = ⟨.failed error, machine, left⟩ ∧ error.isProgramFailure = true ∧
        message = error.message
  | .fatal _ => False

theorem Machine.awaitsInput_iff {machine : Machine} :
    machine.awaitsInput = true ↔ machine.peek = some .input ∧ machine.input = [] := by
  simp [awaitsInput]

theorem Machine.ReadsStream.awaitsInput {machine : Machine} (reads : machine.ReadsStream) :
    machine.awaitsInput = true :=
  awaitsInput_iff.mpr ⟨reads.1, reads.2.1⟩

instance (machine : Machine) : Decidable machine.ReadsStream :=
  inferInstanceAs (Decidable (_ ∧ _ ∧ _))

namespace Live

/-- A snapshot that is true of a run of a program, `late` instructions after the moment that it shows.
The run has executed the instructions of `trail`, and had been fed some of the items by that moment. -/
def Truthful (program : Program) (base : ByteStream) (fed : List StreamItem) (trail : List Advance)
    (late : Nat) (snapshot : Snapshot) : Prop :=
  ∃ count items machine rest, trail.length = count + late ∧ items <+: fed ∧
    Path program.machine (base.feed items) (trail.take count) machine rest ∧
    snapshot.tape = machine.tape ∧ snapshot.output = machine.output ∧
    snapshot.status.TrueOf machine rest count trail.length

section

variable {program : Program} {base rest : ByteStream} {fed : List StreamItem} {trail : List Advance}
  {last : Machine} {late : Nat} {snapshot : Snapshot}

theorem Truthful.now {status : Status} (path : Path program.machine (base.feed fed) trail last rest)
    (holds : status.TrueOf last rest trail.length trail.length) :
    Truthful program base fed trail 0 ⟨status, last.tape, last.output⟩ := by
  refine ⟨trail.length, fed, last, rest, rfl, List.prefix_refl fed, ?_, rfl, rfl, holds⟩
  rw [List.take_length]
  exact path

theorem Truthful.feed (truthful : Truthful program base fed trail late snapshot)
    (more : List StreamItem) : Truthful program base (fed ++ more) trail late snapshot := by
  obtain ⟨count, items, machine, rest, length, earlier, facts⟩ := truthful
  exact ⟨count, items, machine, rest, length, earlier.trans (List.prefix_append fed more), facts⟩

/-- One more instruction makes the snapshot late, unless it was the last one. -/
theorem Truthful.advance (truthful : Truthful program base fed trail 0 snapshot)
    (unfinished : snapshot.status.isTerminal = false) (advance : Advance) :
    Truthful program base fed (trail ++ [advance]) 1 snapshot := by
  obtain ⟨count, items, machine, rest, length, earlier, path, tape, output, holds⟩ := truthful
  obtain rfl : count = trail.length := by omega
  refine ⟨trail.length, items, machine, rest, by simp, earlier, ?_, tape, output, ?_⟩
  · rw [List.take_left]
    rwa [List.take_length] at path
  · rcases status : snapshot.status with _ | _ | _ | message | message <;> rw [status] at holds unfinished
    · exact holds
    · exact holds
    all_goals cases unfinished

end

/-- How many of the instructions of the run are not seen yet, while the worker is somewhere. -/
def Worker.late : Worker → Nat
  | reporting _ => 1
  | _ => 0

/-- The worker is in a run that still reads. -/
def Worker.reads : Worker → Bool
  | checkingStop _ | checkingClosed _ | announcing _ | stepping _ | reporting _ => true
  | _ => false

namespace System

variable {system later : System} {action : Action} {events new : List Event} {met : List Nat}
  {ticket : Nat} {program : Program} {base rest : ByteStream} {fed : List StreamItem}
  {trail : List Advance} {last : Machine}

/-- The run in charge has executed `trail`, has come to `last`, and finds `rest` to read. What is seen
of it is true, and the end is seen only when the worker is done with it. -/
structure Account (ticket : Nat) (program : Program) (base : ByteStream) (fed : List StreamItem)
    (events : List Event) (trail : List Advance) (last : Machine) (rest : ByteStream)
    (system : System) : Prop where
  path : Path program.machine (base.feed fed) trail last rest
  executed : trail.map Advance.op = instructionsOf ticket events
  unloaded : system.worker.unloaded = true → Untraced ticket events ∧ rest = system.stream
  loaded : ∀ run, system.worker.run? = some run →
    run.job.ticket = ticket ∧ run.machine = last ∧
        (system.worker.reads = true → rest = system.stream) ∧
        (system.worker = .reporting run → trail ≠ []) ∨
      run.job.ticket ≠ ticket ∧ Untraced ticket events
  concluding : ∀ run status, system.worker = .concluding run status → run.job.ticket = ticket →
    Truthful program base fed trail 0 (run.snapshot status)
  seen : system.state.poisoned = false → Told ticket events →
    Truthful program base fed trail system.worker.late system.state.value ∧
      (system.state.value.status.isTerminal = true → system.worker.spent = true)

theorem Account.begin (unloaded : system.worker.unloaded = true) (untraced : Untraced ticket events) :
    system.Account ticket program system.stream [] events [] program.machine system.stream := by
  refine ⟨?_, ?_, fun _ => ⟨untraced, rfl⟩, ?_, ?_, fun _ told => absurd told untraced.not_told⟩
  · have unfed : system.stream.feed [] = system.stream := by simp [ByteStream.feed]
    rw [unfed]
    exact .start
  · rw [untraced.instructionsOf_eq_nil, List.map_nil]
  · intro run there
    generalize system.worker = worker at unloaded there
    cases worker with
    | starting | opening | loading | returning => cases there
    | _ => cases unloaded
  · intro run status there
    rw [there] at unloaded
    cases unloaded

/-- Before the program is loaded it has executed nothing. -/
theorem Account.untouched
    (account : system.Account ticket program base fed events trail last rest)
    (untraced : Untraced ticket events) : trail = [] ∧ last = program.machine := by
  have nothing : trail.map Advance.op = [] :=
    account.executed.trans untraced.instructionsOf_eq_nil
  obtain rfl := List.map_eq_nil_iff.mp nothing
  exact ⟨rfl, account.path.of_nil.1.symm⟩

/-- Events that are no traces of the program change nothing about the account. -/
theorem Account.events_append
    (account : system.Account ticket program base fed events trail last rest)
    (untraced : Untraced ticket new) :
    system.Account ticket program base fed (events ++ new) trail last rest := by
  refine ⟨account.path, ?_, ?_, ?_, account.concluding, ?_⟩
  · rw [instructionsOf_append, untraced.instructionsOf_eq_nil, List.append_nil]
    exact account.executed
  · intro unloaded
    obtain ⟨before, same⟩ := account.unloaded unloaded
    exact ⟨before.append untraced, same⟩
  · intro run there
    exact (account.loaded run there).imp_right fun other => ⟨other.1, other.2.append untraced⟩
  · intro sound told
    exact account.seen sound (told.before untraced.not_told)

theorem Account.turn (account : system.Account ticket program base fed events trail last rest)
    {next : Worker} (turns : system.worker.Turns system next) :
    (system.moveWorker next).Account ticket program base fed events trail last rest := by
  refine ⟨account.path, account.executed, ?_, ?_, ?_, ?_⟩
  · intro unloaded
    apply account.unloaded
    generalize system.worker = worker at turns
    cases turns <;> first | rfl | cases unloaded
  · intro run there
    obtain ⟨before, -⟩ := turns.same_run there
    refine (account.loaded run before).imp_left ?_
    rintro ⟨own, same, reads, -⟩
    refine ⟨own, same, ?_, ?_⟩
    · intro _
      apply reads
      generalize system.worker = worker at turns
      cases turns with
      | unstopped | unclosed | ready => rfl
      | _ => cases there
    · rintro rfl
      generalize system.worker = worker at turns
      cases turns
  · rintro run status rfl
    generalize system.worker = worker at turns
    cases turns
  · intro sound told
    obtain ⟨truthful, ending⟩ := account.seen sound told
    generalize system.worker = worker at turns truthful ending
    refine ⟨?_, fun terminal => turns.spent (ending terminal)⟩
    cases turns with
    | turned_away _ there | leave _ there => rcases there with rfl | rfl <;> exact truthful
    | start | enter | idle | unstopped | stopped | unclosed | shut | ready | go_on | exit =>
      exact truthful

theorem Account.load (account : system.Account ticket program base fed events trail last rest)
    {job : Job} (loading : system.worker = .loading)
    (ours : job.ticket = ticket → job.program = program) :
    (system.moveWorker (.checkingStop (.ofJob job))).Account ticket program base fed events trail last
      rest := by
  obtain ⟨untraced, same⟩ := account.unloaded (by rw [loading]; rfl)
  obtain ⟨-, fresh⟩ := account.untouched untraced
  refine ⟨account.path, account.executed, (fun loaded => by cases loaded), ?_,
    (fun run status there => by cases there), fun _ told => absurd told untraced.not_told⟩
  intro run there
  obtain rfl := Option.some.inj there
  by_cases own : job.ticket = ticket
  · exact .inl ⟨own, by rw [fresh, ← ours own]; rfl, fun _ => same, fun reports => by cases reports⟩
  · exact .inr ⟨own, untraced⟩

/-- What the account says of the run in charge. -/
theorem Account.own (account : system.Account ticket program base fed events trail last rest)
    {run : Run} (there : system.worker.run? = some run) (charge : run.job.ticket = ticket) :
    run.machine = last ∧ (system.worker.reads = true → rest = system.stream) ∧
      (system.worker = .reporting run → trail ≠ []) := by
  rcases account.loaded run there with own | other
  · exact own.2
  · exact absurd charge other.1

/-- What the worker publishes is true. -/
theorem Account.published_truthful
    (account : system.Account ticket program base fed events trail last rest) {run : Run}
    {status : Status} {next : Worker} (publishes : system.worker.Publishes run status next)
    (charge : run.job.ticket = ticket) :
    Truthful program base fed trail 0 (run.snapshot status) := by
  obtain ⟨there, -, -⟩ := publishes.same_run
  obtain ⟨rfl, -, moved⟩ := account.own there charge
  have path := account.path
  generalize place : system.worker = worker at publishes moved
  cases publishes with
  | announce awaits => exact .now path (Machine.awaitsInput_iff.mp awaits)
  | report => exact .now path (List.length_pos_iff.mpr (moved rfl))
  | conclude => exact account.concluding run status place charge

/-- After a publication the latest state of the run is seen. -/
theorem Account.publish (account : system.Account ticket program base fed events trail last rest)
    {run : Run} {status : Status} {next : Worker} (publishes : system.worker.Publishes run status next)
    (charge : run.job.ticket = ticket)
    (untraced : instructionsOf ticket new = []) :
    { system with state := ⟨run.snapshot status, false⟩, worker := next }.Account ticket program base fed
      (events ++ new) trail last rest := by
  obtain ⟨there, -, after⟩ := publishes.same_run
  have truthful := account.published_truthful publishes charge
  obtain ⟨same, reads, -⟩ := account.own there charge
  refine ⟨account.path, ?_, ?_, ?_, ?_, ?_⟩
  · rw [instructionsOf_append, untraced, List.append_nil]
    exact account.executed
  · intro unloaded
    generalize system.worker = worker at publishes
    cases publishes <;> cases unloaded
  · intro other going
    obtain rfl := after other going
    refine .inl ⟨charge, same, ?_, ?_⟩
    · intro _
      apply reads
      generalize system.worker = worker at publishes
      cases publishes with
      | announce | report => rfl
      | conclude => cases going
    · rintro rfl
      generalize system.worker = worker at publishes
      cases publishes
  · rintro other found rfl
    generalize system.worker = worker at publishes
    cases publishes
  · intro _ _
    generalize system.worker = worker at publishes
    cases publishes with
    | announce | report => exact ⟨truthful, fun terminal => by cases terminal⟩
    | conclude => exact ⟨truthful, fun _ => rfl⟩

/-- An executed instruction is not seen before it is published. The worker is still in the run, so that
what is seen is not its end. -/
theorem Account.execute (account : system.Account ticket program base fed events trail last rest)
    {run : Run} {op : Instruction} {machine : Machine} {left : ByteStream}
    (stepping : system.worker = .stepping run)
    (ran : run.machine.step system.stream = ⟨.ran op, machine, left⟩)
    (charge : run.job.ticket = ticket) :
    { system with stream := left, worker := .reporting ⟨run.job, machine⟩ }.Account ticket program base
      fed (events ++ [Event.executed run.job.ticket op]) (trail ++ [Advance.mk last op machine]) machine
      left := by
  obtain ⟨same, reads, -⟩ := account.own (by rw [stepping, Worker.run?]) charge
  rw [same, ← reads (by rw [stepping, Worker.reads])] at ran
  refine ⟨account.path.next ran, ?_, (fun loaded => by cases loaded), ?_,
    (fun run status there => by cases there), ?_⟩
  · rw [List.map_append, account.executed, instructionsOf_append]
    simp [instructionsOf, Event.instruction?, charge]
  · intro other there
    obtain rfl := Option.some.inj there
    exact .inl ⟨charge, rfl, fun _ => rfl, by simp⟩
  · intro sound told
    obtain ⟨truthful, ending⟩ := account.seen sound (told.before (by simp [Told]))
    rw [stepping] at truthful ending
    have unfinished : system.state.value.status.isTerminal = false := by
      by_contra terminal
      cases ending (by simpa using terminal)
    refine ⟨truthful.advance unfinished _, ?_⟩
    intro terminal
    cases unfinished.symm.trans terminal

/-- The way in which a run comes to rest is what is published about it. -/
theorem Account.conclude (account : system.Account ticket program base fed events trail last rest)
    {run : Run} {outcome : Outcome} {left : ByteStream} {status : Status}
    (stepping : system.worker = .stepping run)
    (step : run.machine.step system.stream = ⟨outcome, run.machine, left⟩)
    (concludes : Concludes outcome status) (charge : run.job.ticket = ticket) :
    { system with stream := left, worker := .concluding run status }.Account ticket program base fed events
      trail last rest := by
  obtain ⟨same, reads, -⟩ := account.own (by rw [stepping, Worker.run?]) charge
  refine ⟨account.path, account.executed, (fun loaded => by cases loaded), ?_, ?_, ?_⟩
  · intro other there
    obtain rfl := Option.some.inj there
    exact .inl ⟨charge, same, (fun reading => by cases reading), by simp⟩
  · intro other found there _
    obtain ⟨rfl, rfl⟩ := Worker.concluding.inj there
    subst same
    refine .now account.path ?_
    rw [← reads (by rw [stepping, Worker.reads])] at step
    cases outcome with
    | ended =>
      obtain rfl : status = .done := concludes
      exact ⟨Machine.step_ended_iff.mp (congrArg StepResult.outcome step), rfl⟩
    | failed error =>
      obtain ⟨own, rfl⟩ := concludes
      exact ⟨rfl, error, left, step, own, rfl⟩
    | ran | waiting => cases concludes
  · intro sound told
    obtain ⟨truthful, ending⟩ := account.seen sound told
    rw [stepping] at truthful ending
    exact ⟨truthful, ending⟩

/-- The worker leaves the run, and what is seen stays, or nothing is seen any more. -/
theorem Account.leave (account : system.Account ticket program base fed events trail last rest)
    (without : later.worker.run? = none) (away : later.worker.spent = true)
    (idle : instructionsOf ticket new = [])
    (shows : later.state = system.state ∧ system.worker.late = 0 ∧ ¬ Told ticket new ∨
      later.state.poisoned = true) :
    later.Account ticket program base fed (events ++ new) trail last rest := by
  have settled : later.worker.late = 0 ∧ later.worker.unloaded = false := by
    generalize later.worker = worker at away
    cases worker <;> first | exact ⟨rfl, rfl⟩ | cases away
  refine ⟨account.path, ?_, ?_, ?_, ?_, ?_⟩
  · rw [instructionsOf_append, idle, List.append_nil]
    exact account.executed
  · intro unloaded
    cases settled.2.symm.trans unloaded
  · intro run there
    cases without.symm.trans there
  · intro run status there
    rw [there] at without
    cases without
  · intro sound told
    rcases shows with ⟨same, late, untold⟩ | gone
    · rw [same] at sound ⊢
      rw [settled.1, ← late]
      exact ⟨(account.seen sound (told.before untold)).1, fun _ => away⟩
    · cases gone.symm.trans sound

/-- Others do not disturb the account, except that they can poison the state cell. -/
theorem Account.beside (account : system.Account ticket program base fed events trail last rest)
    (worker : later.worker = system.worker) (stream : later.stream = system.stream)
    (shows : later.state = system.state ∨ later.state.poisoned = true) :
    later.Account ticket program base fed events trail last rest := by
  obtain ⟨path, executed, unloaded, loaded, concluding, seen⟩ := account
  rw [← worker, ← stream] at unloaded loaded
  rw [← worker] at concluding seen
  refine ⟨path, executed, unloaded, loaded, concluding, ?_⟩
  intro sound told
  rcases shows with same | gone
  · rw [same] at sound ⊢
    exact seen sound told
  · cases gone.symm.trans sound

theorem Account.feed (account : system.Account ticket program base fed events trail last rest)
    (items : List StreamItem) :
    { system with stream := system.stream.feed items }.Account ticket program base (fed ++ items) events
      trail last (rest.feed items) := by
  refine ⟨?_, account.executed, ?_, ?_, ?_, ?_⟩
  · rw [← feed_feed]
    exact account.path.feed items
  · intro unloaded
    obtain ⟨untraced, same⟩ := account.unloaded unloaded
    exact ⟨untraced, by rw [same]⟩
  · intro run there
    refine (account.loaded run there).imp_left fun own => ⟨own.1, own.2.1, ?_, own.2.2.2⟩
    intro reads
    rw [own.2.2.1 reads]
  · intro run status there charge
    exact (account.concluding run status there charge).feed items
  · intro sound told
    obtain ⟨truthful, ending⟩ := account.seen sound told
    exact ⟨truthful.feed items, ending⟩

/-- Between two rendezvous the account is kept. -/
theorem Account.step (account : system.Account (inCharge met) program base fed events trail last rest)
    (isolated : system.Isolated met)
    (ours : ∀ job, system.program.value = some job → job.ticket = inCharge met →
      job.program = program)
    (step : system.perform? action = some (later, new)) (apart : rendezvous new = []) :
    ∃ trail last rest, later.Account (inCharge met) program base (fed ++ action.items) (events ++ new)
      trail last rest := by
  have moves := isolated.orderly.moves step
  have own {run : Run} (there : system.worker.run? = some run)
      (unchecked : system.worker ≠ .checkingStop run) : run.job.ticket = inCharge met :=
    (isolated.loaded run there).resolve_right fun checks => unchecked checks.1
  have unfed (nothing : action.items = []) {trail : List Advance} {last : Machine} {rest : ByteStream}
      (still : later.Account (inCharge met) program base fed (events ++ new) trail last rest) :
      ∃ trail last rest, later.Account (inCharge met) program base (fed ++ action.items)
        (events ++ new) trail last rest := by
    rw [nothing, List.append_nil]
    exact ⟨_, _, _, still⟩
  have nothing_new (still : later.Account (inCharge met) program base fed events trail last rest) :
      later.Account (inCharge met) program base fed (events ++ []) trail last rest := by
    rw [List.append_nil]
    exact still
  cases moves with
  | feed =>
    rw [List.append_nil]
    exact ⟨_, _, _, account.feed _⟩
  | meet _ _ _ _ _ one =>
    rw [apart] at one
    cases one
  | turn turns silent => exact unfed rfl ((account.turn turns).events_append (silent.untraced _))
  | load loading stored silent =>
    exact unfed rfl ((account.load loading (ours _ stored)).events_append (silent.untraced _))
  | @publish run status next _ publishes =>
    obtain ⟨there, unchecked, -⟩ := publishes.same_run
    obtain ⟨notes, silent, rfl⟩ := events_of_publishes publishes step
    refine unfed rfl (account.publish publishes (own there (unchecked run)) ?_)
    exact (silent.untraced _).instructionsOf_eq_nil
  | give_up publishes poisoned =>
    obtain ⟨notes, silent, rfl⟩ := events_of_publishes publishes step
    exact unfed rfl (account.leave rfl rfl (silent.untraced _).instructionsOf_eq_nil (.inr poisoned))
  | @execute run op machine left _ stepping ran =>
    obtain rfl := events_of_execution stepping ran step
    have there : system.worker.run? = some run := by rw [stepping, Worker.run?]
    exact unfed rfl (account.execute stepping ran (own there (by simp [stepping])))
  | @conclude run _ _ _ _ stepping rests concludes silent =>
    have there : system.worker.run? = some run := by rw [stepping, Worker.run?]
    have concluded := account.conclude stepping rests concludes (own there (by simp [stepping]))
    exact unfed rfl (concluded.events_append (silent.untraced _))
  | fail stepping silent =>
    have untraced := silent.untraced (inCharge met)
    refine unfed rfl
      (account.leave rfl rfl untraced.instructionsOf_eq_nil (.inl ⟨rfl, ?_, untraced.not_told⟩))
    rw [stepping]
    rfl
  | crash => exact unfed rfl (account.leave rfl rfl rfl (.inr rfl))
  | park_worker arrives =>
    refine unfed rfl (account.leave rfl rfl rfl (.inl ⟨rfl, ?_, by simp [Told]⟩))
    rw [arrives]
    rfl
  | request made => exact unfed (items_of_call made) (nothing_new (account.beside rfl rfl (.inl rfl)))
  | stop _ silent =>
    exact unfed rfl ((account.events_append (silent.untraced _)).beside rfl rfl (.inl rfl))
  | poison_state => exact unfed rfl (nothing_new (account.beside rfl rfl (.inr rfl)))
  | park_call | call | lock | store | clear | unlock | close | halt | break_barrier | join
  | poison_program => exact unfed rfl (nothing_new (account.beside rfl rfl (.inl rfl)))

end System

end Live

end TapeMachine
