import TapeMachine.Proofs.Live.Order

namespace TapeMachine.Live

namespace RestartStage

/-- All that a restart can do next. -/
inductive Next (system : System) : RestartStage → RestartStage → Prop
  | turn {stage next : RestartStage} : stage.Turns system next → Next system stage next
  | lock {program : Program} : Next system (.locking program) (.checking program)
  | raise {program : Program} : Next system (.stopping program) (.storing program)
  | store {program : Program} : system.program.poisoned = false → Next system (.storing program) .arriving
  | park : system.barrier.broken = false → Next system .arriving .waiting
  | meet {stage : RestartStage} : stage.pending = true → Next system stage .returning
  | clear : Next system .clearing (.unlocking (.ok ()))
  | unlock {result : Except RestartError Unit} : Next system (.unlocking result) (.finished result)

/-- A restart that has returned does not go on. -/
theorem not_next_of_finished {system : System} {result : Except RestartError Unit}
    {next : RestartStage} : ¬ (finished result).Next system next := by
  intro goes
  cases goes with
  | turn turns => cases turns.locked
  | meet pending => cases pending

end RestartStage

namespace System

variable {system later : System} {action : Action} {events : List Event} {id : Nat}
  {stage : RestartStage}

/-- A call that does not move stays where it is. -/
theorem call_kept {id other : Nat} {call moving next : Call}
    (there : system.calls[id]? = some call) (moves : system.calls[other]? = some moving)
    (different : call ≠ moving) : (system.setCall other next).calls[id]? = some call := by
  have apart : other ≠ id := by
    intro same
    subst same
    exact different (Option.some.inj (there.symm.trans moves))
  rw [← there]
  exact List.getElem?_set_ne apart

theorem call_added {id : Nat} {call : Call} (there : system.calls[id]? = some call) (new : Call) :
    (system.addCall new).calls[id]? = some call := by
  have within : id < system.calls.length := (List.getElem?_eq_some_iff.mp there).1
  rw [← there]
  exact List.getElem?_append_left within

/-- All that a step can do to the calls. -/
inductive CallsAfter (system : System) (action : Action) : List Call → Prop
  | same : CallsAfter system action system.calls
  | restart {id : Nat} {stage next : RestartStage} : system.calls[id]? = some (.restart stage) →
      stage.Next system next → CallsAfter system action (system.moveRestart id next).calls
  | shutdown {id : Nat} {stage next : ShutdownStage} : system.calls[id]? = some (.shutdown stage) →
      CallsAfter system action (system.setCall id (.shutdown next)).calls
  | made {call : Call} : action.call? = some call → CallsAfter system action (system.addCall call).calls

theorem calls_after (moves : Moves system action later events) :
    CallsAfter system action later.calls := by
  cases moves with
  | turn | load | publish | give_up | execute | conclude | fail | crash | park_worker | poison_state
  | poison_program | feed => exact .same
  | park_call call whole => exact .restart call (.park whole)
  | meet _ _ call pending => exact .restart call (.meet pending)
  | call call turns => exact .restart call (.turn turns)
  | lock call => exact .restart call .lock
  | stop call => exact .restart call .raise
  | store call sound => exact .restart call (.store sound)
  | clear call => exact .restart call .clear
  | unlock call => exact .restart call .unlock
  | close call | halt call | break_barrier call | join call => exact .shutdown call
  | request made => exact .made made

/-- A restart stays where it is, or it goes on. -/
theorem restart_next (call : system.calls[id]? = some (.restart stage))
    (moves : Moves system action later events) :
    ∃ stage' : RestartStage, later.calls[id]? = some (.restart stage') ∧
      (stage' = stage ∨ stage.Next system stage') := by
  have after := calls_after moves
  generalize later.calls = calls at after
  cases after with
  | same => exact ⟨stage, call, .inl rfl⟩
  | @restart other found next moving goes =>
    by_cases same : other = id
    · subst same
      obtain rfl := Call.restart.inj (Option.some.inj (moving.symm.trans call))
      exact ⟨next, setCall_self moving, .inr goes⟩
    · refine ⟨stage, ?_, .inl rfl⟩
      rw [← call]
      exact List.getElem?_set_ne same
  | shutdown moving => exact ⟨stage, call_kept call moving (by simp), .inl rfl⟩
  | made => exact ⟨stage, call_added call _, .inl rfl⟩

/-- A shutdown stays one. -/
theorem shutdown_next {stage : ShutdownStage} (call : system.calls[id]? = some (.shutdown stage))
    (moves : Moves system action later events) :
    ∃ stage' : ShutdownStage, later.calls[id]? = some (.shutdown stage') := by
  have after := calls_after moves
  generalize later.calls = calls at after
  cases after with
  | same => exact ⟨stage, call⟩
  | restart moving => exact ⟨stage, call_kept call moving (by simp)⟩
  | @shutdown other found next moving =>
    by_cases same : other = id
    · subst same
      exact ⟨next, setCall_self moving⟩
    · refine ⟨stage, ?_⟩
      rw [← call]
      exact List.getElem?_set_ne same
  | made => exact ⟨stage, call_added call _⟩

/-- Where a restart is, it has been before, or it has gone on to, or it has just been made. -/
theorem restart_before (moves : Moves system action later events)
    (there : later.calls[id]? = some (.restart stage)) :
    (∃ before : RestartStage, system.calls[id]? = some (.restart before) ∧
      (stage = before ∨ before.Next system stage)) ∨
    action.call? = some (.restart stage) := by
  have after := calls_after moves
  generalize later.calls = calls at after there
  cases after with
  | same => exact .inl ⟨stage, there, .inl rfl⟩
  | restart moving goes =>
    rcases restart_after there with ⟨rfl, rfl⟩ | ⟨-, old⟩
    · exact .inl ⟨_, moving, .inr goes⟩
    · exact .inl ⟨stage, old, .inl rfl⟩
  | shutdown =>
    rcases setCall_cases there with ⟨-, moved⟩ | ⟨-, old⟩
    · cases moved
    · exact .inl ⟨stage, old, .inl rfl⟩
  | made made =>
    rcases addCall_cases there with old | ⟨-, rfl⟩
    · exact .inl ⟨stage, old, .inl rfl⟩
    · exact .inr made

end System

/-- What a restart keeps when it goes on, it keeps for ever. -/
theorem Schedule.restart_keeps {system now : System} {actions : List Action} {events : List Event}
    {id : Nat} {stage : RestartStage} (holds : RestartStage → Prop)
    (onward : Schedule system actions now events) (orderly : system.Orderly)
    (call : system.calls[id]? = some (.restart stage)) (has : holds stage)
    (keeps : ∀ (moment : System) (stage next : RestartStage), holds stage →
      stage.Next moment next → holds next) :
    ∃ stage' : RestartStage, now.calls[id]? = some (.restart stage') ∧ holds stage' := by
  induction onward with
  | start => exact ⟨stage, call, has⟩
  | next action earlier step ih =>
    obtain ⟨found, there, still⟩ := ih
    obtain ⟨next, after, same | goes⟩ :=
      System.restart_next there ((earlier.orderly orderly).moves step)
    · exact ⟨next, after, same ▸ still⟩
    · exact ⟨next, after, keeps _ _ _ still goes⟩

end TapeMachine.Live
