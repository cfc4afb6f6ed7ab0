import TapeMachine.Proofs.Live.Answers
import TapeMachine.Proofs.Live.Halting
import TapeMachine.Proofs.Live.NoDeadlock

namespace TapeMachine.Live

variable {system later now : System} {action : Action} {actions : List Action} {events : List Event}
  {met : List Nat}

/-- Something that a restart can fail for is the case. -/
def RestartError.Holds (system : System) : RestartError → Prop
  | invalid _ => True
  | shutDown => system.closed = true
  | poisoned => system.program.poisoned = true

/-- The error that a restart is about to return, or has returned. -/
def RestartStage.error? : RestartStage → Option RestartError
  | unlocking (.error error) | finished (.error error) => some error
  | _ => none

theorem RestartError.Holds.kept {error : RestartError} (holds : error.Holds system)
    (moves : Moves system action later events) : error.Holds later := by
  cases error with
  | invalid => trivial
  | shutDown => exact System.closed_kept moves holds
  | poisoned =>
    cases moves with
    | store _ sound => cases sound.symm.trans holds
    | poison_program => rfl
    | _ => exact holds

theorem RestartStage.Turns.holds {stage next : RestartStage} {error : RestartError}
    (turns : stage.Turns system next) (orderly : system.Orderly) (fails : next.error? = some error) :
    error.Holds system := by
  cases turns with
  | refused closed =>
    obtain rfl := Option.some.inj fails
    exact closed
  | unstored poisoned =>
    obtain rfl := Option.some.inj fails
    exact poisoned
  | turned_away _ broken =>
    obtain rfl := Option.some.inj fails
    exact orderly.broken_closed broken
  | allowed | returned | late => cases fails

namespace System

/-- Restarts fail for good reasons, and a poisoned state cell is none of them. -/
def Justified (system : System) : Prop :=
  ∀ (id : Nat) (stage : RestartStage), system.calls[id]? = some (.restart stage) →
    ∀ error, stage.error? = some error → error.Holds system

theorem Justified.start (name : String) (first : Option Program) (stream : ByteStream) :
    (System.start name first stream).Justified := by
  intro id stage there
  cases there

theorem Justified.step (justified : system.Justified) (orderly : system.Orderly)
    (moves : Moves system action later events) : later.Justified := by
  have still (id : Nat) (stage : RestartStage) (call : system.calls[id]? = some (.restart stage))
      (error : RestartError) (fails : stage.error? = some error) : error.Holds later :=
    (justified id stage call error fails).kept moves
  have move {id : Nat} {next : RestartStage} (calls : later.calls = (system.moveRestart id next).calls)
      (fails : ∀ error, next.error? = some error → error.Holds later) : later.Justified := by
    rw [Justified, calls]
    exact every_restart_moved still fails
  cases moves with
  | park_call | lock | stop | store | clear | meet =>
    refine move rfl ?_
    intro error fails
    cases fails
  | call _ turns => exact move rfl fun error fails => turns.holds orderly fails
  | @unlock id result call =>
    refine move rfl fun error fails => still id _ call error ?_
    cases result <;> exact fails
  | close | halt | break_barrier | join => exact every_restart_beside still
  | request made =>
    intro id stage there error fails
    rcases addCall_cases there with old | ⟨-, new⟩
    · exact still id stage old error fails
    · rcases restart_of_made made new.symm with ⟨program, rfl⟩ | ⟨cause, rfl⟩
      · cases fails
      · obtain rfl := Option.some.inj fails
        trivial
  | _ => exact still

/-- By so many steps of its own a restart ends without an error. -/
def Succeeds (id count : Nat) (system : System) : Prop :=
  ∃ final, system.follow (List.replicate count (.proceed id)) = some (final, []) ∧
    final.calls[id]? = some (.restart (.finished (.ok ())))

section Ending

variable {id : Nat}

theorem Succeeds.of_step {count : Nat} (step : system.perform? (.proceed id) = some (later, []))
    (succeeds : later.Succeeds id count) : system.Succeeds id (count + 1) := by
  obtain ⟨final, followed, answered⟩ := succeeds
  refine ⟨final, ?_, answered⟩
  simp [List.replicate_succ, follow, step, followed]

theorem succeeds_of_unlocking (call : system.calls[id]? = some (.restart (.unlocking (.ok ())))) :
    system.Succeeds id 1 := by
  have step : system.perform? (.proceed id) =
      some ({ system.moveRestart id (.finished (.ok ())) with lock := none }, []) := by
    simp [perform?, callStep?, call, restartStep?]
  exact .of_step step ⟨_, rfl, setCall_self call⟩

theorem succeeds_of_clearing (call : system.calls[id]? = some (.restart .clearing)) :
    system.Succeeds id 2 := by
  have step : system.perform? (.proceed id) =
      some ({ system.moveRestart id (.unlocking (.ok ())) with stop := false }, []) := by
    simp [perform?, callStep?, call, restartStep?]
  exact .of_step step (succeeds_of_unlocking (setCall_self call))

/-- A restart that has had its rendezvous ends without an error, also when a shutdown has begun. -/
theorem succeeds_of_returning (call : system.calls[id]? = some (.restart .returning)) :
    ∃ count ≤ 3, system.Succeeds id count := by
  by_cases closed : system.closed = true
  · have step : system.perform? (.proceed id) =
        some (system.moveRestart id (.unlocking (.ok ())), []) := by
      simp [perform?, callStep?, call, restartStep?, closed]
    exact ⟨2, by omega, .of_step step (succeeds_of_unlocking (setCall_self call))⟩
  · have step : system.perform? (.proceed id) = some (system.moveRestart id .clearing, []) := by
      simp [perform?, callStep?, call, restartStep?, closed]
    exact ⟨3, by omega, .of_step step (succeeds_of_clearing (setCall_self call))⟩

/-- By so many steps of its own a restart ends with an error. It leaves both cells as they are, and the
lock is free. -/
def Fails (id count : Nat) (error : RestartError) (system : System) : Prop :=
  ∃ final events, system.follow (List.replicate count (.proceed id)) = some (final, events) ∧
    final.calls[id]? = some (.restart (.finished (.error error))) ∧
    final.program = system.program ∧ final.state = system.state ∧ final.lock = none

theorem Fails.of_step {count : Nat} {error : RestartError}
    (step : system.perform? (.proceed id) = some (later, events))
    (program : later.program = system.program) (state : later.state = system.state)
    (fails : later.Fails id count error) : system.Fails id (count + 1) error := by
  obtain ⟨final, more, followed, answered, same_program, same_state, free⟩ := fails
  refine ⟨final, events ++ more, ?_, answered, same_program.trans program, same_state.trans state, free⟩
  simp [List.replicate_succ, follow, step, followed]

theorem fails_of_unlocking {error : RestartError}
    (call : system.calls[id]? = some (.restart (.unlocking (.error error)))) :
    system.Fails id 1 error := by
  have step : system.perform? (.proceed id) =
      some ({ system.moveRestart id (.finished (.error error)) with lock := none }, []) := by
    simp [perform?, callStep?, call, restartStep?]
  exact .of_step step rfl rfl ⟨_, [], rfl, setCall_self call, rfl, rfl, rfl⟩

/-- A restart that looks for a shutdown after one has begun fails for it. -/
theorem fails_of_closed {program : Program}
    (call : system.calls[id]? = some (.restart (.checking program))) (closed : system.closed = true) :
    system.Fails id 2 .shutDown := by
  have step : system.perform? (.proceed id) =
      some (system.moveRestart id (.unlocking (.error .shutDown)), []) := by
    simp [perform?, callStep?, call, restartStep?, closed]
  exact .of_step step rfl rfl (fails_of_unlocking (setCall_self call))

/-- A restart that finds the barrier broken fails for the shutdown. -/
theorem fails_of_pending {stage : RestartStage} (call : system.calls[id]? = some (.restart stage))
    (pending : stage.pending = true) (broken : system.barrier.broken = true) :
    system.Fails id 2 .shutDown := by
  have step : system.perform? (.proceed id) = some (system.turnAway (.call id), []) := by
    cases stage with
    | arriving | waiting => simp [perform?, callStep?, call, restartStep?, arrive, broken]
    | locking | checking | stopping | storing | returning | clearing | unlocking | finished =>
      cases pending
  exact .of_step step rfl rfl (fails_of_unlocking (setCall_self call))

section

variable {program : Program} (poisoned : system.program.poisoned = true)

include poisoned

theorem fails_of_storing (call : system.calls[id]? = some (.restart (.storing program))) :
    system.Fails id 2 .poisoned := by
  have step : system.perform? (.proceed id) =
      some (system.moveRestart id (.unlocking (.error .poisoned)), []) := by
    simp [perform?, callStep?, call, restartStep?, SharedCell.store?, poisoned]
  exact .of_step step rfl rfl (fails_of_unlocking (setCall_self call))

theorem fails_of_stopping (call : system.calls[id]? = some (.restart (.stopping program))) :
    system.Fails id 3 .poisoned := by
  have step : ∃ events, system.perform? (.proceed id) =
      some ({ system.moveRestart id (.storing program) with stop := true }, events) := by
    simp [perform?, callStep?, call, restartStep?]
  obtain ⟨events, step⟩ := step
  exact .of_step step rfl rfl (fails_of_storing poisoned (setCall_self call))

theorem fails_of_checking (call : system.calls[id]? = some (.restart (.checking program))) :
    system.Fails id 4 .poisoned ∨ system.Fails id 2 .shutDown := by
  rcases closed : system.closed with _ | _
  · have step : system.perform? (.proceed id) = some (system.moveRestart id (.stopping program), []) := by
      simp [perform?, callStep?, call, restartStep?, closed]
    exact .inl (.of_step step rfl rfl (fails_of_stopping poisoned (setCall_self call)))
  · exact .inr (fails_of_closed call closed)

/-- In front of a poisoned program cell a restart fails as soon as it gets the lock. -/
theorem fails_of_locking (call : system.calls[id]? = some (.restart (.locking program)))
    (free : system.lock = none) : system.Fails id 5 .poisoned ∨ system.Fails id 3 .shutDown := by
  obtain ⟨middle, step, there, same_program, same_state⟩ :
      ∃ middle, system.perform? (.proceed id) = some (middle, []) ∧
        middle.calls[id]? = some (.restart (.checking program)) ∧
        middle.program = system.program ∧ middle.state = system.state := by
    refine ⟨{ system.moveRestart id (.checking program) with lock := some id }, ?_, setCall_self call,
      rfl, rfl⟩
    simp [perform?, callStep?, call, restartStep?, free]
  rw [← same_program] at poisoned
  exact (fails_of_checking poisoned there).imp (.of_step step same_program same_state)
    (.of_step step same_program same_state)

end

/-- A restart that has the lock is held up at the barrier only. -/
theorem proceeds_of_locked {stage : RestartStage} (call : system.calls[id]? = some (.restart stage))
    (locked : stage.locked = true) (away : stage ≠ .waiting) : (system.callStep? id).isSome := by
  rw [callStep?, call]
  cases stage with
  | locking | finished => cases locked
  | waiting => exact absurd rfl away
  | storing program =>
    cases poisoned : system.program.poisoned <;> simp [restartStep?, SharedCell.store?, poisoned]
  | checking | stopping | arriving | returning | clearing | unlocking => simp [restartStep?]

/-- A restart that waits at the barrier is met, unless the worker is inside a read. -/
theorem comes_of_waiting (isolated : system.Isolated met) (attended : system.Attended)
    (call : system.calls[id]? = some (.restart .waiting)) (unclosed : system.closed = false) :
    system.Comes id 2 := by
  have whole : system.barrier.broken = false := by
    by_contra broken
    cases (isolated.orderly.broken_closed (by simpa using broken)).symm.trans unclosed
  have noted := attended.call_noted id whole call
  have barrier : system.barrier = ⟨some (.call id), false⟩ := by rw [← noted, ← whole]
  have awaited : system.Awaited id := ⟨isolated.flag id .waiting call rfl, unclosed, barrier⟩
  refine awaited.comes ⟨?_, ?_⟩ ?_
  · intro leaves
    cases (attended.left (.inl leaves)).symm.trans unclosed
  · intro gone
    cases (attended.left (.inr gone)).symm.trans unclosed
  · intro waits
    cases (attended.worker_noted whole waits).symm.trans noted

end Ending

end System

theorem Schedule.justified (onward : Schedule system actions now events) (orderly : system.Orderly)
    (justified : system.Justified) : now.Justified := by
  induction onward with
  | start => exact justified
  | next action earlier step ih =>
    exact ih.step (earlier.orderly orderly) ((earlier.orderly orderly).moves step)

end TapeMachine.Live
