import TapeMachine.Proofs.Live.Answers

namespace TapeMachine.Live

variable {system later : System} {action : Action} {events : List Event} {met : List Nat}

namespace System

/-- The restart that has had its rendezvous and still holds the lock has put its program in charge. -/
def Latest (met : List Nat) (system : System) : Prop :=
  ∀ (id : Nat) (stage : RestartStage), system.calls[id]? = some (.restart stage) →
    stage.served = true → stage.locked = true → inCharge met = id + 1

/-- Nobody else has the lock while a restart comes to its rendezvous. -/
theorem Latest.step (latest : system.Latest met) (orderly : system.Orderly)
    (moves : Moves system action later events) : later.Latest (met ++ rendezvous events) := by
  by_cases apart : rendezvous events = []
  · rw [apart, List.append_nil]
    have move {id : Nat} {stage next : RestartStage} (call : system.calls[id]? = some (.restart stage))
        (before : next.served = true → next.locked = true →
          stage.served = true ∧ stage.locked = true) : (system.moveRestart id next).Latest met := by
      refine every_restart_moved latest ?_
      intro served locked
      obtain ⟨served', locked'⟩ := before served locked
      exact latest id stage call served' locked'
    cases moves with
    | turn | load | publish | give_up | execute | conclude | fail | crash | park_worker | poison_state
    | poison_program | feed => exact latest
    | park_call call | lock call | stop call | store call => exact move call fun served => by cases served
    | clear call => exact move call fun _ _ => ⟨rfl, rfl⟩
    | call call turns => exact move call fun served _ => ⟨turns.served ▸ served, turns.locked⟩
    | unlock call => exact move call fun _ locked => by cases locked
    | meet _ _ _ _ _ one => cases apart.symm.trans one
    | close | halt | break_barrier | join => exact every_restart_beside latest
    | request made =>
      refine every_restart_added latest made ?_
      intro id stage unlocked _ locked
      cases unlocked.symm.trans locked
  · obtain ⟨id, stage, state, call, pending, -, -, one, -, rfl⟩ := meets_of_rendezvous moves apart
    rw [one]
    intro other found there _ locked
    rcases restart_after there with ⟨rfl, rfl⟩ | ⟨different, old⟩
    · exact inCharge_concat met other
    · have holder := orderly.same_holder call (RestartStage.locked_of_pending pending) old locked
      exact absurd holder different

/-- With its last step a restart gives the lock back, and nothing else happens. -/
theorem unlocking_of_finished {id : Nat} {result : Except RestartError Unit}
    (moves : Moves system (.proceed id) later events)
    (answered : later.calls[id]? = some (.restart (.finished result))) :
    system.calls[id]? = some (.restart (.unlocking result)) ∧ rendezvous events = [] := by
  have moved {stage next : RestartStage} (call : system.calls[id]? = some (.restart stage))
      (there : (system.moveRestart id next).calls[id]? = some (.restart (.finished result))) :
      next = .finished result :=
    Call.restart.inj (Option.some.inj ((setCall_self call).symm.trans there))
  have stopped {old next : ShutdownStage} (call : system.calls[id]? = some (.shutdown old))
      (there : (system.setCall id (.shutdown next)).calls[id]? =
        some (.restart (.finished result))) : False := by
    cases (setCall_self call).symm.trans there
  cases moves with
  | park_call call | lock call | stop call | store call | clear call => cases moved call answered
  | meet way _ call =>
    obtain rfl : id = _ := by
      rcases way with same | same
      · cases same
      · exact Action.proceed.inj same
    cases moved call answered
  | call call turns =>
    obtain rfl := moved call answered
    cases turns
  | unlock call =>
    obtain rfl := RestartStage.finished.inj (moved call answered)
    exact ⟨call, rfl⟩
  | close call | halt call | break_barrier call | join call => exact (stopped call answered).elim
  | request made => cases made

end System

variable {name : String} {first : Option Program} {stream : ByteStream} {ticket : Nat}
  {program : Program} {actions : List Action}

theorem Schedule.latest (history : Schedule (.start name first stream) actions system events) :
    system.Latest (rendezvous events) := by
  induction history with
  | start =>
    intro id stage there
    cases there
  | next action earlier step ih =>
    have orderly := earlier.orderly (.start name first stream)
    rw [rendezvous_append]
    exact ih.step orderly (orderly.moves step)

/-- The program with a ticket is in force: it was there when the execution was set up, or the restart
that handed it in has returned; and no restart has had its rendezvous since. -/
inductive InForce (name : String) (first : Option Program) (stream : ByteStream) :
    Nat → Program → List Action → System → List Event → Prop
  | constructed {program : Program} {actions : List Action} {system : System} {events : List Event} :
      first = some program → Schedule (.start name first stream) actions system events →
      rendezvous events = [] → InForce name first stream 0 program actions system events
  | restarted {id : Nat} {program : Program} {actions since : List Action} {system begun now : System}
      {events moment later : List Event} :
      Schedule (.start name first stream) actions system events →
      handedIn actions id = some program → system.perform? (.proceed id) = some (begun, moment) →
      begun.calls[id]? = some (.restart (.finished (.ok ()))) → Schedule begun since now later →
      rendezvous later = [] →
      InForce name first stream (id + 1) program (actions ++ [.proceed id] ++ since) now
        (events ++ moment ++ later)

namespace InForce

theorem schedule (force : InForce name first stream ticket program actions system events) :
    Schedule (.start name first stream) actions system events := by
  cases force with
  | constructed _ history => exact history
  | restarted history _ step _ onward => exact (history.next _ step).trans onward

theorem program_eq (force : InForce name first stream ticket program actions system events) :
    programOf first actions ticket = some program := by
  cases force with
  | constructed given => exact given
  | restarted _ handed =>
    rw [List.append_assoc]
    exact handedIn_append handed _

/-- The program in force is the one in charge. -/
theorem charge (force : InForce name first stream ticket program actions system events) :
    inCharge (rendezvous events) = ticket := by
  cases force with
  | constructed _ _ apart =>
    rw [apart]
    rfl
  | restarted history _ step answered _ apart =>
    have orderly := history.orderly (.start name first stream)
    obtain ⟨call, quiet⟩ := System.unlocking_of_finished (orderly.moves step) answered
    rw [rendezvous_append, rendezvous_append, quiet, apart, List.append_nil, List.append_nil]
    exact history.latest _ _ call rfl rfl

/-- Only the program that was there from the start is in force without a rendezvous. -/
theorem rendezvous_eq_nil_iff
    (force : InForce name first stream ticket program actions system events) :
    rendezvous events = [] ↔ ticket = 0 := by
  constructor
  · intro apart
    rw [← force.charge, apart]
    rfl
  · rintro rfl
    by_contra some_met
    exact inCharge_ne_zero some_met force.charge

end InForce

end TapeMachine.Live
