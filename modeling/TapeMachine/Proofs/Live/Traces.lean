import TapeMachine.Proofs.Live.Tenure

namespace TapeMachine.Live

/-- The instruction of the program with a ticket whose execution an event is. -/
def Event.instruction? (ticket : Nat) : Event → Option Instruction
  | .executed own op => if own = ticket then some op else none
  | _ => none

/-- The instructions of the program with a ticket that were executed, in order. -/
def instructionsOf (ticket : Nat) (events : List Event) : List Instruction :=
  events.filterMap (Event.instruction? ticket)

/-- Something has been published about the program with a ticket. -/
def Told (ticket : Nat) (events : List Event) : Prop :=
  ∃ publication, .published ticket publication ∈ events

/-- An event is a publication about the program with a ticket. -/
def Event.tells (ticket : Nat) : Event → Bool
  | .published own _ => own = ticket
  | _ => false

theorem told_iff {ticket : Nat} {events : List Event} :
    Told ticket events ↔ events.any (Event.tells ticket) = true := by
  rw [List.any_eq_true]
  constructor
  · rintro ⟨publication, member⟩
    exact ⟨_, member, decide_eq_true rfl⟩
  · rintro ⟨event, member, tells⟩
    cases event with
    | published own publication =>
      obtain rfl : own = ticket := of_decide_eq_true tells
      exact ⟨publication, member⟩
    | logged | began | executed | met => cases tells

instance (ticket : Nat) (events : List Event) : Decidable (Told ticket events) :=
  decidable_of_iff _ told_iff.symm

/-- The program with a ticket has left no trace. -/
def Untraced (ticket : Nat) (events : List Event) : Prop :=
  ∀ event ∈ events, event.ticket? ≠ some ticket

def Event.isExecution : Event → Bool
  | .executed .. => true
  | _ => false

def Event.isPublication : Event → Bool
  | .published .. => true
  | _ => false

/-- How many instructions were executed. -/
def executions (events : List Event) : Nat := events.countP Event.isExecution

/-- How many snapshots of runs were published, those included that the state cell did not take. -/
def publishings (events : List Event) : Nat := events.countP Event.isPublication

theorem executions_append (events more : List Event) :
    executions (events ++ more) = executions events + executions more :=
  List.countP_append

theorem publishings_append (events more : List Event) :
    publishings (events ++ more) = publishings events + publishings more :=
  List.countP_append

/-- Without a trace nothing was executed or published. -/
theorem counts_of_untold {events : List Event} (untold : ∀ event ∈ events, event.ticket? = none) :
    executions events = 0 ∧ publishings events = 0 := by
  have silent (event : Event) (member : event ∈ events) :
      event.isExecution = false ∧ event.isPublication = false := by
    cases event with
    | executed | published => cases untold _ member
    | logged | began | met => exact ⟨rfl, rfl⟩
  constructor <;>
  · refine List.countP_eq_zero.mpr ?_
    intro event member
    simp [silent event member]

theorem instructionsOf_append (ticket : Nat) (events more : List Event) :
    instructionsOf ticket (events ++ more) = instructionsOf ticket events ++ instructionsOf ticket more :=
  List.filterMap_append

theorem Untraced.instructionsOf_eq_nil {ticket : Nat} {events : List Event}
    (untraced : Untraced ticket events) : instructionsOf ticket events = [] := by
  rw [instructionsOf, List.filterMap_eq_nil_iff]
  intro event member
  cases event with
  | executed own op =>
    refine if_neg ?_
    rintro rfl
    exact untraced _ member rfl
  | logged | began | published | met => rfl

theorem Untraced.append {ticket : Nat} {events more : List Event} (before : Untraced ticket events)
    (after : Untraced ticket more) : Untraced ticket (events ++ more) := by
  intro event member
  exact (List.mem_append.mp member).elim (before event) (after event)

theorem Untraced.not_told {ticket : Nat} {events : List Event} (untraced : Untraced ticket events) :
    ¬ Told ticket events := by
  rintro ⟨publication, member⟩
  exact untraced _ member rfl

/-- Something has been told before if nothing is told now. -/
theorem Told.before {ticket : Nat} {events more : List Event} (told : Told ticket (events ++ more))
    (untold : ¬ Told ticket more) : Told ticket events := by
  obtain ⟨publication, member⟩ := told
  rcases List.mem_append.mp member with old | new
  · exact ⟨publication, old⟩
  · exact absurd ⟨publication, new⟩ untold

theorem untraced_of_untold {ticket : Nat} {events : List Event}
    (untold : ∀ event ∈ events, event.ticket? = none) : Untraced ticket events := by
  intro event member trace
  rw [untold event member] at trace
  cases trace

theorem counts_of_publication {ticket : Nat} {publication : Publication} {notes : List Event}
    (silent : Silent notes) :
    executions (.published ticket publication :: notes) = 0 ∧
      publishings (.published ticket publication :: notes) = 1 := by
  obtain ⟨nothing_executed, nothing_published⟩ :=
    counts_of_untold fun event member => (silent event member).1
  rw [executions, publishings] at *
  constructor
  · rw [List.countP_cons_of_neg (by simp [Event.isExecution]), nothing_executed]
  · rw [List.countP_cons_of_pos rfl, nothing_published]

theorem Silent.untraced {events : List Event} (silent : Silent events) (ticket : Nat) :
    Untraced ticket events :=
  untraced_of_untold fun event member => (silent event member).1

namespace Worker

/-- The worker is done with the program in charge and loads none before the next rendezvous. -/
def spent : Worker → Bool
  | crashing | arriving | waiting | leaving | gone => true
  | _ => false

theorem Turns.spent {system : System} {worker next : Worker} (turns : worker.Turns system next)
    (spent : worker.spent = true) : next.spent = true := by
  cases turns with
  | turned_away | exit | leave => rfl
  | start | enter | idle | unstopped | stopped | unclosed | shut | ready | go_on => cases spent

end Worker

namespace System

variable {system later : System} {action : Action} {events : List Event} {met : List Nat} {run : Run}

/-- Where the worker publishes, the publication is the first that is seen of the step. -/
theorem events_of_publishes {status : Status} {next : Worker}
    (publishes : system.worker.Publishes run status next)
    (step : system.perform? .work = some (later, events)) :
    ∃ notes, Silent notes ∧ events = .published run.job.ticket
      ⟨run.machine.position, run.snapshot status, !system.state.poisoned⟩ :: notes := by
  have seen : (system.publish run status next).2 = events :=
    congrArg Prod.snd (Option.some.inj ((step_of_publishes publishes).symm.trans step))
  rw [← seen]
  rcases poisoned : system.state.poisoned with _ | _
  · refine ⟨[], by simp [Silent], ?_⟩
    simp [publish, SharedCell.store?, poisoned]
  · refine ⟨[.logged (.error s!"state cell poisoned, abandoning run at ip={run.machine.position}")],
      silent_logged _, ?_⟩
    simp [publish, SharedCell.store?, poisoned]

theorem events_of_execution {op : Instruction} {machine : Machine} {rest : ByteStream}
    (stepping : system.worker = .stepping run)
    (ran : run.machine.step system.stream = ⟨.ran op, machine, rest⟩)
    (step : system.perform? .work = some (later, events)) :
    events = [.executed run.job.ticket op] := by
  simp only [perform?, workerStep?, stepping, execute?, ran, Option.some.injEq, Prod.mk.injEq] at step
  exact step.2.symm

/-- Every other step leaves no trace. -/
theorem untold_of_moves (moves : Moves system action later events)
    (quiet : ∀ run status next, ¬ system.worker.Publishes run status next)
    (still : ∀ run, system.worker ≠ .stepping run) : ∀ event ∈ events, event.ticket? = none := by
  cases moves with
  | publish publishes | give_up publishes => exact absurd publishes (quiet _ _ _)
  | execute stepping => exact absurd stepping (still _)
  | turn _ silent | load _ _ silent | conclude _ _ _ silent | fail _ silent | stop _ silent =>
    exact fun event member => (silent event member).1
  | meet _ _ _ _ _ _ untold => exact untold
  | _ => simp

theorem untold_of_spent (moves : Moves system action later events)
    (spent : system.worker.spent = true) : ∀ event ∈ events, event.ticket? = none := by
  refine untold_of_moves moves ?_ ?_
  · intro run status next publishes
    generalize system.worker = worker at publishes spent
    cases publishes <;> cases spent
  · intro run stepping
    rw [stepping] at spent
    cases spent

/-- The worker stays away from programs until the next rendezvous. -/
theorem spent_kept (moves : Moves system action later events) (spent : system.worker.spent = true)
    (apart : rendezvous events = []) : later.worker.spent = true := by
  have elsewhere {worker : Worker} (there : system.worker = worker) (busy : worker.spent = false) :
      later.worker.spent = true := by
    rw [there, busy] at spent
    cases spent
  cases moves with
  | turn turns => exact turns.spent spent
  | load loading => exact elsewhere loading rfl
  | publish publishes =>
    generalize system.worker = worker at publishes spent
    cases publishes <;> cases spent
  | execute stepping | conclude stepping | fail stepping => exact elsewhere stepping rfl
  | meet _ _ _ _ _ one =>
    rw [apart] at one
    cases one
  | give_up | crash | park_worker => rfl
  | _ => exact spent

end System

variable {initial system now : System} {actions more : List Action} {events later : List Event}
  {met : List Nat}

/-- The program of a restart has left no trace before the rendezvous of the restart. -/
theorem Schedule.untraced_before (history : Schedule initial actions system events)
    (isolated : initial.Isolated []) {id : Nat} (apart : id ∉ rendezvous events) :
    Untraced (id + 1) events := by
  intro event member trace
  obtain ⟨before, after, rfl⟩ := List.append_of_mem member
  have charge : id + 1 = inCharge (rendezvous before) := by
    simpa using history.traces isolated rfl trace
  refine apart ?_
  rw [rendezvous_append]
  exact List.mem_append_left _ (inCharge_mem charge.symm)

/-- A restart that meets the worker has not met it before, so that its program has left no trace yet. -/
theorem Schedule.untraced_of_meeting (history : Schedule initial actions system events)
    (isolated : initial.Isolated []) {action : Action} {moment : List Event}
    (step : system.perform? action = some (now, moment)) {id : Nat} (one : rendezvous moment = [id])
    (untold : ∀ event ∈ moment, event.ticket? = none) : Untraced (id + 1) (events ++ moment) := by
  have present : system.Isolated (rendezvous events) := history.isolated isolated
  have unmet : id ∉ rendezvous events := by
    intro before
    refine (Schedule.single step).once present before ?_
    rw [one]
    exact List.mem_singleton_self id
  exact (history.untraced_before isolated unmet).append (untraced_of_untold untold)

/-- Once the worker is done with the program in charge, that program leaves no trace any more,
whatever happens. -/
theorem Schedule.untraced_after (onward : Schedule system more now later)
    (isolated : system.Isolated met) (spent : system.worker.spent = true) :
    Untraced (inCharge met) later ∧ (rendezvous later = [] → now.worker.spent = true) := by
  induction onward with
  | start => exact ⟨by simp [Untraced], fun _ => spent⟩
  | @next more current now seen new action earlier step ih =>
    obtain ⟨untraced, away⟩ := ih
    have present := earlier.isolated isolated
    have moves := present.orderly.moves step
    constructor
    · refine untraced.append ?_
      intro event member trace
      have charge : inCharge met = inCharge (met ++ rendezvous seen) :=
        present.traces moves event member _ trace
      rcases again : rendezvous seen with _ | ⟨id, others⟩
      · rw [System.untold_of_spent moves (away again) event member] at trace
        cases trace
      · rw [inCharge_append met (by simp [again])] at charge
        rcases ticket : inCharge met with _ | old
        · exact inCharge_ne_zero (by simp [again]) (charge.symm.trans ticket)
        · have twice : old ∈ rendezvous seen := inCharge_mem (charge.symm.trans ticket)
          exact earlier.once isolated (inCharge_mem ticket) twice
    · intro apart
      rw [rendezvous_append] at apart
      obtain ⟨apart_before, apart_now⟩ := List.append_eq_nil_iff.mp apart
      exact System.spent_kept moves (away apart_before) apart_now

end TapeMachine.Live
