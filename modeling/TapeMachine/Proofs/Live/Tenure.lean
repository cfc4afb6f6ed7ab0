import TapeMachine.Proofs.Live.Lasting

namespace TapeMachine.Live

/-- An execution with the system as it was right after the latest rendezvous, or at the start if
there was none, and the actions since then. -/
inductive Tenure (initial : System) :
    List Action → System → List Event → System → List Action → Prop
  | start : Tenure initial [] initial [] initial []
  | quiet {actions since : List Action} {current later begun : System} {seen events : List Event}
      (action : Action) : Tenure initial actions current seen begun since →
      current.perform? action = some (later, events) → rendezvous events = [] →
      Tenure initial (actions ++ [action]) later (seen ++ events) begun (since ++ [action])
  | meet {actions since : List Action} {current later begun : System} {seen events : List Event}
      (action : Action) : Tenure initial actions current seen begun since →
      current.perform? action = some (later, events) → rendezvous events ≠ [] →
      Tenure initial (actions ++ [action]) later (seen ++ events) later []

variable {initial system later begun : System} {action : Action} {actions since : List Action}
  {events : List Event} {met : List Nat} {first : Option Program}

theorem Tenure.schedule (tenure : Tenure initial actions system events begun since) :
    Schedule initial actions system events := by
  induction tenure with
  | start => exact .start
  | quiet action _ step _ ih | meet action _ step _ ih => exact ih.next action step

theorem Schedule.tenure (schedule : Schedule initial actions system events) :
    ∃ begun since, Tenure initial actions system events begun since := by
  induction schedule with
  | start => exact ⟨initial, [], .start⟩
  | @next _ _ _ _ events action _ step ih =>
    obtain ⟨begun, since, tenure⟩ := ih
    by_cases apart : rendezvous events = []
    · exact ⟨begun, _, tenure.quiet action step apart⟩
    · exact ⟨_, [], tenure.meet action step apart⟩

namespace System

/-- Nothing is shut down, no cell is poisoned, and the worker is not about to poison one. -/
structure Sound (system : System) : Prop where
  unclosed : system.closed = false
  state : system.state.poisoned = false
  program : system.program.poisoned = false
  uncrashed : system.worker ≠ .crashing

/-- What is shut down or poisoned stays so. -/
theorem Sound.before (sound : later.Sound) (moves : Moves system action later events) :
    system.Sound := by
  obtain ⟨unclosed, state, program, uncrashed⟩ := sound
  have elsewhere {worker : Worker} (there : system.worker = worker) (other : worker ≠ .crashing) :
      system.worker ≠ .crashing := by
    rw [there]
    exact other
  cases moves with
  | turn turns =>
    refine ⟨unclosed, state, program, ?_⟩
    intro crashes
    rw [crashes] at turns
    rcases turns with _ | _ | _ | _ | _ | _ | _ | _ | ⟨-, there | there⟩ | _ | ⟨-, there | there⟩ <;>
      cases there
  | load loading => exact ⟨unclosed, state, program, elsewhere loading (by simp)⟩
  | publish publishes healthy =>
    refine ⟨unclosed, healthy, program, ?_⟩
    generalize system.worker = worker at publishes
    cases publishes <;> simp
  | give_up _ poisoned => cases poisoned.symm.trans state
  | execute stepping | conclude stepping =>
    exact ⟨unclosed, state, program, elsewhere stepping (by simp)⟩
  | fail => exact absurd rfl uncrashed
  | crash => cases state
  | park_worker arrives => exact ⟨unclosed, state, program, elsewhere arrives (by simp)⟩
  | meet _ waits _ _ renewed =>
    have healthy : system.state.poisoned = false := by
      rcases renewed with ⟨healthy, -⟩ | ⟨-, same⟩
      · exact healthy
      · rw [← same]
        exact state
    refine ⟨unclosed, healthy, program, ?_⟩
    rcases waits with there | there <;> exact elsewhere there (by simp)
  | store _ healthy => exact ⟨unclosed, state, healthy, uncrashed⟩
  | close => cases unclosed
  | poison_state => cases state
  | poison_program => cases program
  | _ => exact ⟨unclosed, state, program, uncrashed⟩

/-- While nothing is shut down, the barrier is whole. -/
theorem Sound.whole (sound : system.Sound) (orderly : system.Orderly) :
    system.barrier.broken = false := by
  by_contra broken
  have closed := orderly.broken_closed (by simpa using broken)
  rw [sound.unclosed] at closed
  cases closed

end System

namespace RestartStage

/-- What one step of a sound system does to a restart: nothing, or it takes the restart one stage
further on its way to the rendezvous and back. -/
inductive Goes (system : System) (id : Nat) (met : List Nat) : RestartStage → RestartStage → Prop
  | stay {stage : RestartStage} : Goes system id met stage stage
  | lock {program : Program} : Goes system id met (.locking program) (.checking program)
  | check {program : Program} : Goes system id met (.checking program) (.stopping program)
  | stop {program : Program} : Goes system id met (.stopping program) (.storing program)
  | store {program : Program} : Goes system id met (.storing program) .arriving
  | park : Goes system id met .arriving .waiting
  | meet {stage : RestartStage} : stage.pending = true → met = [id] →
      Goes system id met stage .returning
  | clear : Goes system id met .returning .clearing
  | release : Goes system id met .clearing (.unlocking (.ok ()))
  | unlock {result : Except RestartError Unit} :
      Goes system id met (.unlocking result) (.finished result)

theorem Turns.goes {stage next : RestartStage} (turns : stage.Turns system next)
    (sound : system.Sound) (orderly : system.Orderly) (id : Nat) (met : List Nat) :
    Goes system id met stage next := by
  cases turns with
  | refused closed | late closed => cases closed.symm.trans sound.unclosed
  | unstored poisoned => cases poisoned.symm.trans sound.program
  | turned_away _ broken => cases broken.symm.trans (sound.whole orderly)
  | allowed => exact .check
  | returned => exact .clear

end RestartStage

namespace System

/-- A restart goes its way. -/
theorem restart_goes (sound : system.Sound) (orderly : system.Orderly) {id : Nat}
    {stage : RestartStage} (call : system.calls[id]? = some (.restart stage))
    (moves : Moves system action later events) :
    ∃ next : RestartStage, later.calls[id]? = some (.restart next) ∧
      stage.Goes system id (rendezvous events) next := by
  have move {other : Nat} {moving next : RestartStage}
      (there : system.calls[other]? = some (.restart moving))
      (goes : moving.Goes system other (rendezvous events) next) :
      ∃ next' : RestartStage, (system.moveRestart other next).calls[id]? = some (.restart next') ∧
        stage.Goes system id (rendezvous events) next' := by
    by_cases same : other = id
    · subst same
      obtain rfl := Call.restart.inj (Option.some.inj (there.symm.trans call))
      exact ⟨next, setCall_self there, goes⟩
    · refine ⟨stage, ?_, .stay⟩
      rw [← call]
      exact List.getElem?_set_ne same
  cases moves with
  | park_call there => exact move there .park
  | meet _ _ there pending _ one => exact move there (.meet pending one)
  | call there turns => exact move there (turns.goes sound orderly _ _)
  | lock there => exact move there .lock
  | stop there => exact move there .stop
  | store there => exact move there .store
  | clear there => exact move there .release
  | unlock there => exact move there .unlock
  | close there | halt there | break_barrier there | join there =>
    exact ⟨stage, call_kept call there (by simp), .stay⟩
  | request => exact ⟨stage, call_added call _, .stay⟩
  | _ => exact ⟨stage, call, .stay⟩

/-- A restart has raised the stop flag, and its rendezvous is still to come. -/
def Raised (system : System) : Prop :=
  ∃ (id : Nat) (stage : RestartStage), system.calls[id]? = some (.restart stage) ∧
    stage.raised = true

theorem Raised.step (raised : system.Raised) (sound : system.Sound) (orderly : system.Orderly)
    (moves : Moves system action later events) (apart : rendezvous events = []) : later.Raised := by
  obtain ⟨id, stage, call, up⟩ := raised
  obtain ⟨next, there, goes⟩ := restart_goes sound orderly call moves
  refine ⟨id, next, there, ?_⟩
  cases goes with
  | stay => exact up
  | store | park => rfl
  | meet _ one =>
    rw [apart] at one
    cases one
  | lock | check | stop | clear | release | unlock => cases up

end System

end TapeMachine.Live
