import TapeMachine.Live.Session
import TapeMachine.Proofs.Path

namespace TapeMachine.Live

namespace System

/-- The worker takes some steps while nobody else does anything. It stays where it is as soon as it
has to wait. -/
def solo : Nat → System → System × List Event
  | 0, system => (system, [])
  | count + 1, system =>
    match system.workerStep? with
    | none => (system, [])
    | some (later, events) => ((later.solo count).1, events ++ (later.solo count).2)

theorem solo_succ {system later : System} {events : List Event}
    (step : system.workerStep? = some (later, events)) (count : Nat) :
    system.solo (count + 1) = ((later.solo count).1, events ++ (later.solo count).2) := by
  rw [solo, step]

theorem solo_parked {system : System} (parked : system.workerStep? = none) (count : Nat) :
    system.solo count = (system, []) := by
  cases count with
  | zero => rfl
  | succ count => rw [solo, parked]

theorem solo_add (first second : Nat) (system : System) :
    system.solo (first + second) =
      (((system.solo first).1.solo second).1,
        (system.solo first).2 ++ ((system.solo first).1.solo second).2) := by
  induction first generalizing system with
  | zero => simp [solo]
  | succ first ih =>
    rw [Nat.succ_add]
    rcases move : system.workerStep? with _ | ⟨later, events⟩
    · simp only [solo_parked move, List.nil_append]
    · simp only [solo_succ move, ih, List.append_assoc]

theorem solo_prefix {fewer more : Nat} (bound : fewer ≤ more) (system : System) :
    (system.solo fewer).2 <+: (system.solo more).2 := by
  obtain ⟨extra, rfl⟩ := Nat.exists_eq_add_of_le bound
  rw [solo_add]
  exact List.prefix_append _ _

theorem solo_settled {system : System} {settled count : Nat}
    (parked : (system.solo settled).1.workerStep? = none) (enough : settled ≤ count) :
    system.solo count = system.solo settled := by
  obtain ⟨extra, rfl⟩ := Nat.exists_eq_add_of_le enough
  rw [solo_add, solo_parked parked, List.append_nil]

theorem solo_trans {system middle final : System} {events more : List Event} {first second : Nat}
    (begins : system.solo first = (middle, events)) (goesOn : middle.solo second = (final, more)) :
    system.solo (first + second) = (final, events ++ more) := by
  rw [solo_add, begins, goesOn]

theorem solo_one {system later : System} {events : List Event}
    (step : system.workerStep? = some (later, events)) : system.solo 1 = (later, events) := by
  rw [solo_succ step]
  simp [solo]

/-- A worker that comes to the barrier alone waits for a restart. -/
theorem solo_arriving (system : System) (free : system.barrier = ⟨none, false⟩)
    (arrives : system.worker = .arriving) :
    ∃ later, system.solo 1 = (later, []) ∧ later.workerStep? = none ∧ later.worker = .waiting ∧
      later.state = system.state := by
  have arrived : system.workerStep? =
      some ({ system.park .worker with barrier := ⟨some .worker, false⟩ }, []) := by
    simp [workerStep?, arrives, arrive, free]
  exact ⟨_, solo_one arrived, rfl, rfl, rfl⟩

end System

theorem publications_append (first second : List Event) :
    publications (first ++ second) = publications first ++ publications second :=
  List.filterMap_append

/-- An accepted publication of a machine under a status. -/
def Publication.of (machine : Machine) (status : Status) : Publication :=
  ⟨machine.position, ⟨status, machine.tape, machine.output⟩, true⟩

/-- What is published before the next instruction: that input is awaited, if a read finds the
queue empty. -/
def announcement (machine : Machine) : List Publication :=
  if machine.awaitsInput then [.of machine .waitingForInput] else []

/-- What is published about an executed instruction. -/
def instructionPublications (advance : Advance) : List Publication :=
  announcement advance.before ++ [.of advance.after .running]

/-- What is published about the end of a run. -/
def closingPublications (machine : Machine) : RunEnd → List Publication
  | .ended => [.of machine .done]
  | .failed error =>
    announcement machine ++
      if error.isProgramFailure then [.of machine (.error error.message)] else []
  | .waiting | .exhausted => []

/-- Whether a run ends with a failure that is not the program's own. -/
def isBreakdown : RunEnd → Bool
  | .failed error => !error.isProgramFailure
  | _ => false

/-- At the end of the code nothing is awaited. -/
theorem announcement_of_ended {machine later : Machine} {stream rest : ByteStream}
    (step : machine.step stream = ⟨.ended, later, rest⟩) : announcement machine = [] := by
  rw [announcement, if_neg]
  intro awaits
  have next : machine.peek = some .input := by
    simp only [Machine.awaitsInput, Bool.and_eq_true, decide_eq_true_eq] at awaits
    exact awaits.1
  obtain ⟨code, position, tape, input, fallback, output⟩ := machine
  simp only [Machine.step, next, Machine.read] at step
  grind

/-- Nobody but the worker has done anything. -/
structure System.Undisturbed (system : System) : Prop where
  stop : system.stop = false
  closed : system.closed = false
  barrier : system.barrier = ⟨none, false⟩
  state : system.state.poisoned = false

namespace System.Undisturbed

variable {system : System} {run : Run}

/-- Neither what the worker reads nor where it is matters. -/
theorem move (undisturbed : system.Undisturbed) (stream : ByteStream) (worker : Worker) :
    { system with stream := stream, worker := worker }.Undisturbed :=
  ⟨undisturbed.stop, undisturbed.closed, undisturbed.barrier, undisturbed.state⟩

theorem publish (undisturbed : system.Undisturbed) (run : Run) (status : Status) (next : Worker) :
    ∃ later events, system.publish run status next = (later, events) ∧ later.Undisturbed ∧
      later.worker = next ∧ later.stream = system.stream ∧
      publications events = [.of run.machine status] := by
  have stored : system.publish run status next =
      ({ system with state := ⟨run.snapshot status, false⟩, worker := next },
        [.published run.job.ticket (.of run.machine status)]) := by
    simp only [System.publish, SharedCell.store?, undisturbed.state]
    rfl
  refine ⟨_, _, stored, ⟨?_, ?_, ?_, rfl⟩, rfl, rfl, rfl⟩
  · exact undisturbed.stop
  · exact undisturbed.closed
  · exact undisturbed.barrier

/-- The worker publishes that input is awaited, if that is so. -/
theorem announce (undisturbed : system.Undisturbed) (announcing : system.worker = .announcing run) :
    ∃ later events, system.solo 1 = (later, events) ∧ later.Undisturbed ∧
      later.worker = .stepping run ∧ later.stream = system.stream ∧
      publications events = announcement run.machine := by
  by_cases awaits : run.machine.awaitsInput
  · obtain ⟨later, events, published, kept, next, stream, seen⟩ :=
      undisturbed.publish run .waitingForInput (.stepping run)
    have announced : system.workerStep? = some (later, events) := by
      simp only [workerStep?, announcing, awaits, if_true]
      exact congrArg some published
    refine ⟨later, events, solo_one announced, kept, next, stream, ?_⟩
    rw [seen, announcement, if_pos awaits]
  · have passed : system.workerStep? = some (system.moveWorker (.stepping run), []) := by
      simp [workerStep?, announcing, awaits]
    refine ⟨_, _, solo_one passed, undisturbed.move _ _, rfl, rfl, ?_⟩
    rw [announcement, if_neg awaits]
    rfl

/-- The worker looks at both flags, and publishes that input is awaited if that is so. -/
theorem reach_stepping (undisturbed : system.Undisturbed)
    (at_head : system.worker = .checkingStop run) :
    ∃ later events, system.solo 3 = (later, events) ∧ later.Undisturbed ∧
      later.worker = .stepping run ∧ later.stream = system.stream ∧
      publications events = announcement run.machine := by
  have stop : system.workerStep? = some (system.moveWorker (.checkingClosed run), []) := by
    rw [workerStep?, at_head]
    simp [undisturbed.stop]
  have closed : (system.moveWorker (.checkingClosed run)).workerStep? =
      some (system.moveWorker (.announcing run), []) := by
    simp [workerStep?, moveWorker, undisturbed.closed]
  have looked : system.solo 2 = (system.moveWorker (.announcing run), []) :=
    solo_trans (solo_one stop) (solo_one closed)
  have there : (system.moveWorker (.announcing run)).Undisturbed := undisturbed.move _ _
  obtain ⟨later, events, announced, kept, stepping, stream, seen⟩ := there.announce rfl
  exact ⟨later, _, solo_trans looked announced, kept, stepping, stream, seen⟩

/-- An instruction is executed and published. -/
theorem execute {op : Instruction} {after : Machine} {rest : ByteStream}
    (undisturbed : system.Undisturbed) (stepping : system.worker = .stepping run)
    (step : run.machine.step system.stream = ⟨.ran op, after, rest⟩) :
    ∃ later events, system.solo 2 = (later, events) ∧ later.Undisturbed ∧
      later.worker = .checkingStop ⟨run.job, after⟩ ∧ later.stream = rest ∧
      publications events = [.of after .running] := by
  have executed : system.workerStep? =
      some ({ system with stream := rest, worker := .reporting ⟨run.job, after⟩ },
        [.executed run.job.ticket op]) := by
    rw [workerStep?, stepping]
    simp only [execute?, step]
  obtain ⟨later, events, published, kept, at_head, stream, seen⟩ :=
    (undisturbed.move rest (.reporting ⟨run.job, after⟩)).publish ⟨run.job, after⟩ .running
      (.checkingStop ⟨run.job, after⟩)
  refine ⟨later, _, solo_trans (solo_one executed) (solo_one (congrArg some published)), kept, at_head,
    stream, ?_⟩
  rw [publications_append, seen]
  simp [publications]

/-- One round of the loop executes one instruction. -/
theorem advance {op : Instruction} {after : Machine} {rest : ByteStream}
    (undisturbed : system.Undisturbed) (at_head : system.worker = .checkingStop run)
    (step : run.machine.step system.stream = ⟨.ran op, after, rest⟩) :
    ∃ later events, system.solo 5 = (later, events) ∧ later.Undisturbed ∧
      later.worker = .checkingStop ⟨run.job, after⟩ ∧ later.stream = rest ∧
      publications events = instructionPublications ⟨run.machine, op, after⟩ := by
  obtain ⟨ready, announced, reached, kept, stepping, stream, seen⟩ :=
    undisturbed.reach_stepping at_head
  rw [← stream] at step
  obtain ⟨later, events, executed, kept, at_head, stream, seen_after⟩ := kept.execute stepping step
  refine ⟨later, _, solo_trans reached executed, kept, at_head, stream, ?_⟩
  rw [publications_append, seen, seen_after]
  rfl

/-- A run that concludes publishes its status, and the worker goes to the barrier. -/
theorem conclude {status : Status} (undisturbed : system.Undisturbed)
    (concludes : system.worker = .concluding run status) :
    ∃ later events, system.solo 2 = (later, events) ∧ later.workerStep? = none ∧
      later.worker = .waiting ∧ later.state.poisoned = false ∧
      publications events = [.of run.machine status] := by
  obtain ⟨left, events, published, kept, arrives, -, seen⟩ :=
    undisturbed.publish run status .arriving
  have step : system.workerStep? = some (left, events) := by
    rw [workerStep?, concludes]
    exact congrArg some published
  obtain ⟨later, parked, still, waits, state⟩ := solo_arriving _ kept.barrier arrives
  refine ⟨later, events ++ [], solo_trans (solo_one step) parked, still, waits, ?_, ?_⟩
  · rw [state, kept.state]
  · rw [List.append_nil, seen]

/-- A run that breaks down poisons the state cell and publishes nothing. -/
theorem crash (undisturbed : system.Undisturbed) (crashes : system.worker = .crashing) :
    ∃ later, system.solo 2 = (later, []) ∧ later.workerStep? = none ∧ later.worker = .waiting ∧
      later.state.poisoned = true := by
  have step : system.workerStep? =
      some ({ system with state := system.state.poison, worker := .arriving }, []) := by
    rw [workerStep?, crashes]
  obtain ⟨later, parked, still, waits, state⟩ := solo_arriving
    { system with state := system.state.poison, worker := .arriving } undisturbed.barrier rfl
  refine ⟨later, solo_trans (solo_one step) parked, still, waits, ?_⟩
  rw [state, SharedCell.poison]

/-- The machine comes to rest, and the worker goes to the barrier. -/
theorem rest {outcome : Outcome} {finish : RunEnd} {after : Machine} {left : ByteStream}
    (undisturbed : system.Undisturbed) (stepping : system.worker = .stepping run)
    (step : run.machine.step system.stream = ⟨outcome, after, left⟩)
    (rests : outcome.rest? = some finish) (ready : finish ≠ .waiting) :
    ∃ later events, system.solo 3 = (later, events) ∧ later.workerStep? = none ∧
      later.worker = .waiting ∧ later.state.poisoned = isBreakdown finish ∧
      announcement run.machine ++ publications events = closingPublications run.machine finish := by
  obtain rfl := Machine.eq_of_rests step rests
  have concluded {status : Status} {entry : LogEntry} (executed : system.workerStep? =
        some ({ system with stream := left, worker := .concluding run status }, [.logged entry]))
      (sound : isBreakdown finish = false)
      (told : closingPublications run.machine finish =
        announcement run.machine ++ [.of run.machine status]) :
      ∃ later events, system.solo 3 = (later, events) ∧ later.workerStep? = none ∧
        later.worker = .waiting ∧ later.state.poisoned = isBreakdown finish ∧
        announcement run.machine ++ publications events =
          closingPublications run.machine finish := by
    obtain ⟨later, events, ended, still, waits, state, closing⟩ :=
      (undisturbed.move left (.concluding run status)).conclude rfl
    refine ⟨later, _, solo_trans (solo_one executed) ended, still, waits, state.trans sound.symm, ?_⟩
    rw [publications_append, closing, told]
    simp [publications]
  cases outcome with
  | ran op => simp [Outcome.rest?] at rests
  | waiting => exact absurd (Option.some.inj rests).symm ready
  | ended =>
    obtain rfl := Option.some.inj rests
    refine @concluded .done (.debug s!"run done ({run.machine.output.size} output bytes)") ?_ rfl ?_
    · rw [workerStep?, stepping]
      simp only [execute?, step]
      rfl
    · rw [announcement_of_ended step]
      rfl
  | failed error =>
    obtain rfl := Option.some.inj rests
    by_cases own : error.isProgramFailure
    · refine @concluded (.error error.message) (.debug s!"run failed: {error.message}") ?_ ?_ ?_
      · rw [workerStep?, stepping]
        simp only [execute?, step, own, if_true]
        rfl
      · rw [isBreakdown, own, Bool.not_true]
      · rw [closingPublications, if_pos own]
    · have executed : system.workerStep? = some ({ system with
          stream := left, worker := .crashing },
          [.logged (.error "worker crashed, state cell poisoned")]) := by
        rw [workerStep?, stepping]
        simp only [execute?, step, own, Bool.false_eq_true, if_false]
        rfl
      obtain ⟨later, crashed, still, waits, state⟩ := (undisturbed.move left .crashing).crash rfl
      refine ⟨later, _, solo_trans (solo_one executed) crashed, still, waits, ?_, ?_⟩
      · simp [state, isBreakdown, own]
      · rw [closingPublications, if_neg own]
        simp [publications]

/-- The last round. -/
theorem come_to_rest {outcome : Outcome} {finish : RunEnd} {after : Machine} {left : ByteStream}
    (undisturbed : system.Undisturbed) (at_head : system.worker = .checkingStop run)
    (step : run.machine.step system.stream = ⟨outcome, after, left⟩)
    (rests : outcome.rest? = some finish) (ready : finish ≠ .waiting) :
    ∃ later events, system.solo 6 = (later, events) ∧ later.workerStep? = none ∧
      later.worker = .waiting ∧ later.state.poisoned = isBreakdown finish ∧
      publications events = closingPublications run.machine finish := by
  obtain ⟨middle, announced, reached, kept, stepping, stream, seen⟩ :=
    undisturbed.reach_stepping at_head
  rw [← stream] at step
  obtain ⟨later, events, ended, still, waits, state, closing⟩ := kept.rest stepping step rests ready
  refine ⟨later, _, solo_trans reached ended, still, waits, state, ?_⟩
  rw [publications_append, seen, closing]

/-- The rounds of the loop follow the machine. -/
theorem follow {trail : List Advance} {last : Machine} {rest : ByteStream}
    (undisturbed : system.Undisturbed) (at_head : system.worker = .checkingStop run)
    (path : Path run.machine system.stream trail last rest) :
    ∃ later events, system.solo (5 * trail.length) = (later, events) ∧ later.Undisturbed ∧
      later.worker = .checkingStop ⟨run.job, last⟩ ∧ later.stream = rest ∧
      publications events = trail.flatMap instructionPublications := by
  induction path with
  | start => exact ⟨system, [], rfl, undisturbed, at_head, rfl, rfl⟩
  | @next trail machine after rest left op _ step ih =>
    obtain ⟨middle, events, followed, kept, at_head, stream, seen⟩ := ih
    rw [← stream] at step
    obtain ⟨later, more, advanced, kept, at_head, stream, seen_after⟩ := kept.advance at_head step
    refine ⟨later, events ++ more, ?_, kept, at_head, stream, ?_⟩
    · rw [List.length_append, List.length_singleton, Nat.mul_add_one]
      exact solo_trans followed advanced
    · rw [publications_append, seen, seen_after, List.flatMap_append, List.flatMap_singleton]

end System.Undisturbed

/-- The worker begins the program that is there from the start. -/
theorem System.solo_start (name : String) (program : Program) (stream : ByteStream) :
    ∃ later events, (System.start name (some program) stream).solo 3 = (later, events) ∧
      later.Undisturbed ∧ later.worker = .checkingStop (.ofJob ⟨0, program⟩) ∧
      later.stream = stream ∧ publications events = [] :=
  ⟨((System.start name (some program) stream).solo 3).1, _, rfl, ⟨rfl, rfl, rfl, rfl⟩, rfl, rfl, rfl⟩

end TapeMachine.Live
