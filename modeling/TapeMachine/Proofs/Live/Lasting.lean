import TapeMachine.Proofs.Live.Restart

namespace TapeMachine.Live

/-- A property that the machine of a program has at first and that no executed instruction takes
from it. -/
structure Lasting (property : Program → Machine → Prop) : Prop where
  fresh : ∀ program : Program, property program program.machine
  kept : ∀ {program : Program} {machine later : Machine} {stream left : ByteStream}
    {op : Instruction}, property program machine →
    machine.step stream = ⟨.ran op, later, left⟩ → property program later

namespace System

variable {system later : System} {action : Action} {events : List Event}
  {property : Program → Machine → Prop}

/-- The run of the worker has a property, and its end is published only if it has come. -/
structure Keeps (property : Program → Machine → Prop) (system : System) : Prop where
  running : ∀ run, system.worker.run? = some run → property run.job.program run.machine
  concluding : ∀ run status, system.worker = .concluding run status →
    ∃ stream outcome left, run.machine.step stream = ⟨outcome, run.machine, left⟩ ∧
      Concludes outcome status

theorem Keeps.start (name : String) (first : Option Program) (stream : ByteStream) :
    (System.start name first stream).Keeps property := by
  constructor
  · intro run there
    cases there
  · intro run status there
    cases there

/-- A worker that is in no run has nothing to keep. -/
theorem Keeps.without (outside : system.worker.run? = none) : system.Keeps property := by
  constructor
  · intro run there
    rw [outside] at there
    cases there
  · intro run status there
    rw [there] at outside
    cases outside

theorem Keeps.beside (keeps : system.Keeps property) (worker : later.worker = system.worker) :
    later.Keeps property := by
  obtain ⟨running, concluding⟩ := keeps
  rw [← worker] at running concluding
  exact ⟨running, concluding⟩

theorem Keeps.turn (keeps : system.Keeps property) {next : Worker}
    (turns : system.worker.Turns system next) : (system.moveWorker next).Keeps property := by
  constructor
  · intro run there
    exact keeps.running run (turns.same_run there).1
  · rintro run status rfl
    generalize system.worker = worker at turns
    cases turns

theorem Keeps.step (keeps : system.Keeps property) (lasting : Lasting property)
    (moves : Moves system action later events) : later.Keeps property := by
  cases moves with
  | turn turns => exact keeps.turn turns
  | @load job =>
    constructor
    · intro run there
      obtain rfl := Option.some.inj there
      exact lasting.fresh job.program
    · intro run status there
      cases there
  | publish publishes =>
    obtain ⟨there, -, after⟩ := publishes.same_run
    constructor
    · intro run going
      obtain rfl := after run going
      exact keeps.running run there
    · rintro run status rfl
      generalize system.worker = worker at publishes
      cases publishes
  | @execute old op machine rest _ stepping step =>
    have before : system.worker.run? = some old := by rw [stepping, Worker.run?]
    constructor
    · intro run there
      obtain rfl := Option.some.inj there
      exact lasting.kept (keeps.running old before) step
    · intro run status there
      cases there
  | @conclude old outcome rest status _ stepping step concludes =>
    have before : system.worker.run? = some old := by rw [stepping, Worker.run?]
    constructor
    · intro run there
      obtain rfl := Option.some.inj there
      exact keeps.running old before
    · intro run found there
      obtain ⟨rfl, rfl⟩ := Worker.concluding.inj there
      exact ⟨_, outcome, rest, step, concludes⟩
  | give_up | fail | crash | park_worker | meet => exact .without rfl
  | _ => exact keeps.beside rfl

/-- The worker publishes where it is about to publish. -/
theorem step_of_publishes {run : Run} {status : Status} {next : Worker}
    (publishes : system.worker.Publishes run status next) :
    system.workerStep? = some (system.publish run status next) := by
  generalize place : system.worker = worker at publishes
  cases publishes with
  | announce awaits => simp only [workerStep?, place, awaits, if_true]
  | report | conclude => simp only [workerStep?, place]

/-- A publication is a snapshot of the run of the worker, at the place where the worker publishes
it. -/
theorem Orderly.publication (orderly : system.Orderly)
    (step : system.perform? action = some (later, events)) {ticket : Nat}
    {publication : Publication} (member : Event.published ticket publication ∈ events) :
    ∃ run status next, system.worker.Publishes run status next ∧ ticket = run.job.ticket ∧
      publication = ⟨run.machine.position, run.snapshot status, !system.state.poisoned⟩ := by
  have untold (nothing : ∀ event ∈ events, event.ticket? = none) : False := by
    have trace := nothing _ member
    cases trace
  have told {run : Run} {status : Status} {next : Worker}
      (publishes : system.worker.Publishes run status next)
      (work : system.workerStep? = some (later, events)) :
      ∃ run status next, system.worker.Publishes run status next ∧ ticket = run.job.ticket ∧
        publication = ⟨run.machine.position, run.snapshot status, !system.state.poisoned⟩ := by
    rw [step_of_publishes publishes] at work
    have seen : (system.publish run status next).2 = events := congrArg Prod.snd (Option.some.inj work)
    rw [← seen] at member
    refine ⟨run, status, next, publishes, ?_⟩
    rcases poisoned : system.state.poisoned <;>
      simpa [publish, SharedCell.store?, poisoned] using member
  cases orderly.moves step with
  | publish publishes | give_up publishes => exact told publishes step
  | @execute run op machine rest _ stepping ran =>
    simp only [perform?, workerStep?, stepping, execute?, ran, Option.some.injEq, Prod.mk.injEq] at step
    rw [← step.2] at member
    simp at member
  | turn _ silent | load _ _ silent | conclude _ _ _ silent | fail _ silent | stop _ silent =>
    exact (untold fun event there => (silent event there).1).elim
  | meet _ _ _ _ _ _ quiet => exact (untold quiet).elim
  | _ => cases member

end System

/-- Every run of the worker keeps a lasting property. -/
theorem Schedule.keeps {initial system : System} {actions : List Action} {events : List Event}
    {property : Program → Machine → Prop} (schedule : Schedule initial actions system events)
    (orderly : initial.Orderly) (lasting : Lasting property) (keeps : initial.Keeps property) :
    system.Keeps property := by
  induction schedule with
  | start => exact keeps
  | next action earlier step ih => exact ih.step lasting ((earlier.orderly orderly).moves step)

/-- Every publication of an execution was made about the run of the worker at some moment of it. -/
theorem Schedule.publication {initial system : System} {actions : List Action}
    {events : List Event} (schedule : Schedule initial actions system events)
    (orderly : initial.Orderly) {ticket : Nat} {publication : Publication}
    (member : Event.published ticket publication ∈ events) :
    ∃ before earlier moment run status next, before <+: actions ∧
      Schedule initial before moment earlier ∧ moment.worker.Publishes run status next ∧
      ticket = run.job.ticket ∧
      publication = ⟨run.machine.position, run.snapshot status, !moment.state.poisoned⟩ := by
  induction schedule with
  | start => cases member
  | next action earlier step ih =>
    rcases List.mem_append.mp member with old | new
    · obtain ⟨before, seen, moment, run, status, next, within, rest⟩ := ih old
      exact ⟨before, seen, moment, run, status, next, within.trans (List.prefix_append _ _), rest⟩
    · obtain ⟨run, status, next, rest⟩ := (earlier.orderly orderly).publication step new
      exact ⟨_, _, _, run, status, next, List.prefix_append _ _, earlier, rest⟩

end TapeMachine.Live
