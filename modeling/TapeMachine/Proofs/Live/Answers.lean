import TapeMachine.Proofs.Live.Restart

namespace TapeMachine.Live

theorem Call.restart_of_result? {call : Call} {result : Except RestartError Unit}
    (answered : call.result? = some result) : call = .restart (.finished result) := by
  unfold result? at answered
  split at answered
  · obtain rfl := Option.some.inj answered
    rfl
  · cases answered

/-- The restart has had its rendezvous, and answers without an error. -/
def RestartStage.served : RestartStage → Bool
  | returning | clearing | unlocking (.ok _) | finished (.ok _) => true
  | _ => false

theorem RestartStage.not_served_of_pending {stage : RestartStage} (pending : stage.pending = true) :
    stage.served = false := by
  cases stage <;> first | rfl | cases pending

theorem RestartStage.Turns.served {system : System} {stage next : RestartStage}
    (turns : stage.Turns system next) : next.served = stage.served := by
  cases turns with
  | turned_away pending => exact (RestartStage.not_served_of_pending pending).symm
  | refused | allowed | unstored | returned | late => rfl

/-- A restart that has just been made has not been served. -/
theorem not_served_of_made {action : Action} {call : Call} (made : action.call? = some call)
    {stage : RestartStage} (restart : call = .restart stage) : stage.served = false := by
  rcases System.restart_of_made made restart with ⟨program, rfl⟩ | ⟨error, rfl⟩ <;> rfl

namespace System

variable {system later : System} {action : Action} {events : List Event} {met : List Nat}

/-- The restarts that have had their rendezvous are those that succeed. -/
def Answers (met : List Nat) (system : System) : Prop :=
  ∀ (id : Nat) (stage : RestartStage), system.calls[id]? = some (.restart stage) →
    (stage.served = true ↔ id ∈ met)

/-- A call that has just been made has not met anybody. -/
theorem Answers.step (answers : system.Answers met) (isolated : system.Isolated met)
    (moves : Moves system action later events) : later.Answers (met ++ rendezvous events) := by
  by_cases apart : rendezvous events = []
  · rw [apart, List.append_nil]
    have move {id : Nat} {stage next : RestartStage} (call : system.calls[id]? = some (.restart stage))
        (same : next.served = stage.served) : (system.moveRestart id next).Answers met :=
      every_restart_moved answers (same ▸ answers id stage call)
    cases moves with
    | turn | load | publish | give_up | execute | conclude | fail | crash | park_worker | poison_state
    | poison_program | feed => exact answers
    | park_call call | lock call | stop call | store call | clear call => exact move call rfl
    | call call turns => exact move call turns.served
    | @unlock id result call =>
      refine move call ?_
      cases result <;> rfl
    | meet _ _ _ _ _ one => cases apart.symm.trans one
    | close | halt | break_barrier | join => exact every_restart_beside answers
    | request made =>
      intro id stage there
      rcases addCall_cases there with old | ⟨rfl, new⟩
      · exact answers id stage old
      · rw [not_served_of_made made new.symm]
        refine iff_of_false (by simp) ?_
        intro member
        obtain ⟨_, known, -⟩ := isolated.past _ member
        exact Nat.lt_irrefl _ (List.getElem?_eq_some_iff.mp known).1
  · obtain ⟨id, stage, state, call, -, -, -, one, -, rfl⟩ := meets_of_rendezvous moves apart
    rw [one]
    intro other found there
    rcases restart_after there with ⟨rfl, rfl⟩ | ⟨different, old⟩
    · simp [RestartStage.served]
    · rw [answers other found old, List.mem_append, List.mem_singleton, or_iff_left different]

end System

theorem Schedule.answers {initial system : System} {actions : List Action} {events : List Event}
    {met : List Nat} (schedule : Schedule initial actions system events)
    (isolated : initial.Isolated met) (answers : initial.Answers met) :
    system.Answers (met ++ rendezvous events) := by
  induction schedule with
  | start =>
    rw [rendezvous, List.filterMap_nil, List.append_nil]
    exact answers
  | next action earlier step ih =>
    have present := earlier.isolated isolated
    rw [rendezvous_append, ← List.append_assoc]
    exact ih.step present (present.orderly.moves step)

section

variable {name : String} {first : Option Program} {stream : ByteStream} {system : System}
  {actions : List Action} {events : List Event} {id : Nat}

theorem Schedule.answers_met (history : Schedule (.start name first stream) actions system events) :
    system.Answers (rendezvous events) := by
  have none_yet : (System.start name first stream).Answers [] := by
    intro id stage there
    cases there
  exact history.answers (.start name first stream) none_yet

/-- A restart that has failed has not had a rendezvous. -/
theorem Schedule.unmet_of_failed {error : RestartError}
    (history : Schedule (.start name first stream) actions system events)
    (failed : system.calls[id]? = some (.restart (.finished (.error error)))) :
    id ∉ rendezvous events := by
  intro member
  cases (history.answers_met id _ failed).mpr member

/-- A restart that has succeeded has had its rendezvous. -/
theorem Schedule.met_of_succeeded
    (history : Schedule (.start name first stream) actions system events)
    (succeeded : system.calls[id]? = some (.restart (.finished (.ok ())))) :
    id ∈ rendezvous events :=
  (history.answers_met id _ succeeded).mp rfl

end

end TapeMachine.Live
