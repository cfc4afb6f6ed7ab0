import TapeMachine.Proofs.Live.Statuses

namespace TapeMachine.Live

variable {initial system later : System} {action : Action} {actions : List Action}
  {events : List Event}

theorem Concludes.isFatal {outcome : Outcome} {status : Status} (concludes : Concludes outcome status) :
    status.isFatal = false := by
  cases outcome with
  | ended =>
    obtain rfl : status = .done := concludes
    rfl
  | failed error =>
    obtain rfl : status = .error error.message := concludes.2
    rfl
  | ran | waiting => exact concludes.elim

namespace System

/-- The worker is at an instruction whose failure is none of the program's own. -/
def Breaks (system : System) : Prop :=
  ∃ run error left, system.worker = .stepping run ∧
    run.machine.step system.stream = ⟨.failed error, run.machine, left⟩ ∧
    error.isProgramFailure = false

theorem breaks_of_crashing {run : Run} (stepping : system.worker = .stepping run)
    (step : system.perform? .work = some (later, events)) (crashes : later.worker = .crashing) :
    system.Breaks := by
  rcases result : run.machine.step system.stream with ⟨outcome, machine, left⟩
  simp only [perform?, workerStep?, stepping, execute?, result] at step
  cases outcome with
  | waiting => cases step
  | ran | ended =>
    obtain ⟨rfl, -⟩ := Prod.mk.inj (Option.some.inj step)
    cases crashes
  | failed error =>
    obtain rfl := Machine.eq_of_rests result rfl
    refine ⟨run, error, left, stepping, result, ?_⟩
    rcases own : error.isProgramFailure
    · rfl
    · simp only [own, if_true] at step
      obtain ⟨rfl, -⟩ := Prod.mk.inj (Option.some.inj step)
      cases crashes

/-- The state cell shows how the run goes, and nobody is about to poison it. -/
structure Hale (system : System) : Prop where
  sound : system.state.poisoned = false
  uncrashed : system.worker ≠ .crashing
  shown : system.state.value.status.isFatal = false
  concluded : ∀ run status, system.worker = .concluding run status → status.isFatal = false

theorem Hale.start (name : String) (first : Option Program) (stream : ByteStream) :
    (System.start name first stream).Hale := by
  constructor <;> simp [System.start, SharedCell.new, Snapshot.fresh, Status.isFatal]

theorem Hale.look (hale : system.Hale) : system.look.status.isFatal = false := by
  rw [look_of_sound hale.sound]
  exact hale.shown

theorem Hale.publishes (hale : system.Hale) {run : Run} {status : Status} {next : Worker}
    (publishes : system.worker.Publishes run status next) : status.isFatal = false := by
  have concluded := hale.concluded
  generalize system.worker = worker at publishes concluded
  cases publishes with
  | announce | report => rfl
  | conclude => exact concluded _ _ rfl

/-- Only somebody who poisons the state cell, or a failing read that crashes the worker, makes the
state fatal. -/
theorem Hale.step (hale : system.Hale) (orderly : system.Orderly)
    (step : system.perform? action = some (later, events)) :
    later.Hale ∨ action = .poisonState ∨ action = .work ∧ system.Breaks := by
  have ⟨sound, uncrashed, shown, concluded⟩ := hale
  cases orderly.moves step with
  | turn turns =>
    refine .inl ⟨sound, ?_, shown, ?_⟩
    all_goals
      generalize system.worker = worker at turns
      cases turns <;> simp [moveWorker]
  | load | park_worker => exact .inl ⟨sound, by simp [moveWorker], shown, by simp [moveWorker]⟩
  | publish publishes =>
    refine .inl ⟨rfl, ?_, hale.publishes publishes, ?_⟩
    all_goals
      generalize system.worker = worker at publishes
      cases publishes <;> simp
  | give_up _ poisoned => cases poisoned.symm.trans sound
  | execute => exact .inl ⟨sound, by simp, shown, by simp⟩
  | conclude _ _ concludes =>
    refine .inl ⟨sound, by simp, shown, ?_⟩
    rintro run status ⟨⟩
    exact concludes.isFatal
  | fail stepping => exact .inr (.inr ⟨rfl, breaks_of_crashing stepping step rfl⟩)
  | crash crashing => exact absurd crashing uncrashed
  | meet _ _ _ _ renewed =>
    rcases renewed with ⟨-, rfl⟩ | ⟨poisoned, -⟩
    · exact .inl ⟨rfl, by simp, rfl, by simp⟩
    · cases poisoned.symm.trans sound
  | poison_state => exact .inr (.inl rfl)
  | _ => exact .inl ⟨sound, uncrashed, shown, concluded⟩

end System

/-- What makes the state fatal in the course of a history: somebody poisons the state cell, or the
worker is at an instruction that crashes it. -/
theorem Schedule.hale (history : Schedule initial actions system events) (orderly : initial.Orderly)
    (hale : initial.Hale) :
    system.Hale ∨ ∃ done action rest earlier seen, actions = done ++ action :: rest ∧
      Schedule initial done earlier seen ∧
      (action = .poisonState ∨ action = .work ∧ earlier.Breaks) := by
  induction history with
  | start => exact .inl hale
  | @next actions current later seen events action earlier step ih =>
    rcases ih with still | ⟨done, cause, rest, moment, before, rfl, reached, struck⟩
    · rcases still.step (earlier.orderly orderly) step with kept | struck
      · exact .inl kept
      · exact .inr ⟨actions, action, [], current, seen, rfl, earlier, struck⟩
    · exact .inr ⟨done, cause, rest ++ [action], moment, before, by simp, reached, struck⟩

end TapeMachine.Live
