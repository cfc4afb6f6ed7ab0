import TapeMachine.Proofs.Live.Inversion

namespace TapeMachine.Live

namespace System

variable {system later : System} {events : List Event}

theorem setCall_self {id : Nat} {old call : Call} (there : system.calls[id]? = some old) :
    (system.setCall id call).calls[id]? = some call := by
  have within : id < system.calls.length := (List.getElem?_eq_some_iff.mp there).1
  exact List.getElem?_set_self within

theorem setCall_cases {id other : Nat} {call found : Call}
    (there : (system.setCall id call).calls[other]? = some found) :
    other = id ∧ found = call ∨ other ≠ id ∧ system.calls[other]? = some found := by
  by_cases same : other = id
  · subst same
    have within : other < (system.calls.set other call).length :=
      (List.getElem?_eq_some_iff.mp there).1
    rw [List.length_set] at within
    have now : (system.setCall other call).calls[other]? = some call := List.getElem?_set_self within
    rw [now] at there
    exact .inl ⟨rfl, (Option.some.inj there).symm⟩
  · refine .inr ⟨same, ?_⟩
    rw [← there]
    exact (List.getElem?_set_ne (Ne.symm same)).symm

theorem addCall_cases {call found : Call} {id : Nat}
    (there : (system.addCall call).calls[id]? = some found) :
    system.calls[id]? = some found ∨ id = system.calls.length ∧ found = call := by
  rcases Nat.lt_trichotomy id system.calls.length with before | same | beyond
  · left
    rw [← there]
    exact (List.getElem?_append_left before).symm
  · subst same
    simp only [addCall, List.getElem?_concat_length, Option.some.injEq] at there
    exact .inr ⟨rfl, there.symm⟩
  · have within := (List.getElem?_eq_some_iff.mp there).1
    simp only [addCall, List.length_append, List.length_singleton] at within
    omega

/-- A restart begins with the program, or is refused at once. -/
theorem restart_of_made {action : Action} {call : Call} (made : action.call? = some call)
    {stage : RestartStage} (restart : call = .restart stage) :
    (∃ program, stage = .locking program) ∨
      ∃ error, stage = .finished (.error (.invalid error)) := by
  cases action with
  | requestRestart request =>
    obtain rfl := Option.some.inj made
    rcases outcome : request.program with error | program <;>
      rw [Call.ofRequest, outcome] at restart
    · exact .inr ⟨error, (Call.restart.inj restart).symm⟩
    · exact .inl ⟨program, (Call.restart.inj restart).symm⟩
  | requestShutdown =>
    obtain rfl := Option.some.inj made
    cases restart
  | work | proceed | poisonState | poisonProgram | feed => cases made

/-- A call that has just been made holds no lock and has closed nothing. -/
theorem made_unlocked {action : Action} {call : Call} (made : action.call? = some call) :
    (∀ stage, call = .restart stage → stage.locked = false ∧ stage.pending = false ∧
      ∀ program, stage.program? = some program → call = .restart (.locking program)) ∧
    ∀ stage, call = .shutdown stage → stage = .closing := by
  cases action with
  | requestShutdown =>
    obtain rfl := Option.some.inj made
    simp
  | requestRestart request =>
    obtain rfl := Option.some.inj made
    rcases outcome : request.program with error | program <;>
      simp [Call.ofRequest, outcome, RestartStage.locked, RestartStage.pending, RestartStage.program?]
  | work | proceed | poisonState | poisonProgram | feed => cases made

/-- A restart moves on, and no other call does. -/
theorem restart_after {id other : Nat} {next found : RestartStage}
    (there : (system.moveRestart id next).calls[other]? = some (.restart found)) :
    other = id ∧ found = next ∨ other ≠ id ∧ system.calls[other]? = some (.restart found) := by
  rcases setCall_cases there with ⟨same, moved⟩ | untouched
  · exact .inl ⟨same, Call.restart.inj moved⟩
  · exact .inr untouched

/-- A property of all restarts is kept when one restart moves on to a stage that has it. -/
theorem every_restart_moved {holds : Nat → RestartStage → Prop}
    (every : ∀ (id : Nat) (stage : RestartStage), system.calls[id]? = some (.restart stage) →
      holds id stage) {id : Nat} {next : RestartStage} (moved : holds id next) :
    ∀ (other : Nat) (found : RestartStage),
      (system.moveRestart id next).calls[other]? = some (.restart found) → holds other found := by
  intro other found there
  rcases restart_after there with ⟨rfl, rfl⟩ | ⟨-, old⟩
  · exact moved
  · exact every other found old

theorem every_restart_beside {holds : Nat → RestartStage → Prop}
    (every : ∀ (id : Nat) (stage : RestartStage), system.calls[id]? = some (.restart stage) →
      holds id stage) {id : Nat} {next : ShutdownStage} :
    ∀ (other : Nat) (found : RestartStage),
      (system.setCall id (.shutdown next)).calls[other]? = some (.restart found) →
        holds other found := by
  intro other found there
  rcases setCall_cases there with ⟨-, moved⟩ | ⟨-, untouched⟩
  · cases moved
  · exact every other found untouched

/-- A restart that has just been made holds no lock. -/
theorem every_restart_added {holds : Nat → RestartStage → Prop}
    (every : ∀ (id : Nat) (stage : RestartStage), system.calls[id]? = some (.restart stage) →
      holds id stage) {action : Action} {call : Call} (made : action.call? = some call)
    (idle : ∀ (id : Nat) (stage : RestartStage), stage.locked = false → holds id stage) :
    ∀ (other : Nat) (found : RestartStage),
      (system.addCall call).calls[other]? = some (.restart found) → holds other found := by
  intro other found there
  rcases addCall_cases there with old | ⟨-, new⟩
  · exact every other found old
  · exact idle other found ((made_unlocked made).1 found new.symm).1

/-- Order is a matter of five things only. -/
theorem Orderly.of_same (orderly : system.Orderly) (closed : later.closed = system.closed)
    (barrier : later.barrier = system.barrier) (lock : later.lock = system.lock)
    (worker : later.worker = system.worker) (calls : later.calls = system.calls) :
    later.Orderly := by
  obtain ⟨holder, worker_waits, call_waits, broken_closed, past_closing⟩ := orderly
  rw [← closed, ← barrier, ← lock, ← worker, ← calls] at *
  exact ⟨holder, worker_waits, call_waits, broken_closed, past_closing⟩

/-- A worker that does not wait at the barrier can go anywhere. -/
theorem Orderly.move_worker (orderly : system.Orderly)
    (stays : system.worker = .waiting → system.barrier.broken = true)
    (closed : later.closed = system.closed) (barrier : later.barrier = system.barrier)
    (lock : later.lock = system.lock) (calls : later.calls = system.calls) : later.Orderly := by
  refine ⟨?_, ?_, ?_, ?_, ?_⟩
  · rw [calls, lock]
    exact orderly.holder
  · rw [barrier]
    intro whole waiting
    have broken := stays (orderly.worker_waits whole waiting)
    rw [whole] at broken
    cases broken
  · rw [barrier, calls]
    exact orderly.call_waits
  · rw [barrier, closed]
    exact orderly.broken_closed
  · rw [calls, closed]
    exact orderly.past_closing

theorem Orderly.move_restart (orderly : system.Orderly) {id : Nat} {stage next : RestartStage}
    (call : system.calls[id]? = some (.restart stage))
    (holds : next.locked = true → stage.locked = true)
    (stays : stage = .waiting → system.barrier.broken = true)
    (closed : later.closed = system.closed) (barrier : later.barrier = system.barrier)
    (lock : later.lock = system.lock) (worker : later.worker = system.worker)
    (calls : later.calls = (system.moveRestart id next).calls) : later.Orderly := by
  refine @Orderly.of_same (system.moveRestart id next) later ?_ closed barrier lock worker calls
  refine ⟨?_, orderly.worker_waits, ?_, orderly.broken_closed, ?_⟩
  · exact every_restart_moved orderly.holder fun locked => orderly.holder id stage call (holds locked)
  · intro other whole waiting
    have there := orderly.call_waits other whole waiting
    by_cases same : id = other
    · subst same
      rw [call] at there
      have broken := stays (Call.restart.inj (Option.some.inj there))
      rw [show system.barrier.broken = false from whole] at broken
      cases broken
    · rw [← there]
      exact List.getElem?_set_ne same
  · intro other found there open_yet
    rcases setCall_cases there with ⟨rfl, same⟩ | ⟨-, old⟩
    · cases same
    · exact orderly.past_closing other found old open_yet

/-- A shutdown closes, and breaks the barrier only after that. -/
theorem Orderly.move_shutdown (orderly : system.Orderly) {id : Nat} {stage next : ShutdownStage}
    (call : system.calls[id]? = some (.shutdown stage)) (closed : later.closed = true)
    (waiting : later.barrier.waiting = system.barrier.waiting)
    (broken : later.barrier.broken = false → system.barrier.broken = false)
    (lock : later.lock = system.lock) (worker : later.worker = system.worker)
    (calls : later.calls = (system.setCall id (.shutdown next)).calls) : later.Orderly := by
  refine ⟨?_, ?_, ?_, fun _ => closed, fun _ _ _ _ => closed⟩
  · rw [calls, lock]
    exact every_restart_beside orderly.holder
  · intro whole noted
    rw [waiting] at noted
    rw [worker]
    exact orderly.worker_waits (broken whole) noted
  · intro other whole noted
    rw [waiting] at noted
    have there := orderly.call_waits other (broken whole) noted
    rw [calls]
    by_cases same : id = other
    · subst same
      rw [call] at there
      cases there
    · rw [← there]
      exact List.getElem?_set_ne same

theorem Orderly.add_call (orderly : system.Orderly) {action : Action} {call : Call}
    (made : action.call? = some call) : (system.addCall call).Orderly := by
  have unclosed := (made_unlocked made).2
  refine ⟨?_, orderly.worker_waits, ?_, orderly.broken_closed, ?_⟩
  · refine every_restart_added orderly.holder made ?_
    intro _ _ free locked
    rw [locked] at free
    cases free
  · intro id whole waiting
    have there := orderly.call_waits id whole waiting
    have within := (List.getElem?_eq_some_iff.mp there).1
    rw [← there]
    exact List.getElem?_append_left within
  · intro id stage there open_yet
    rcases addCall_cases there with old | ⟨-, new⟩
    · exact orderly.past_closing id stage old open_yet
    · exact absurd (unclosed stage new.symm) open_yet

theorem Orderly.add_restart (orderly : system.Orderly) (request : Request) :
    (system.addCall (.ofRequest request)).Orderly := by
  have made : (Action.requestRestart request).call? = some (.ofRequest request) := rfl
  exact orderly.add_call made

theorem Orderly.meet (orderly : system.Orderly) {id : Nat} {stage : RestartStage}
    (call : system.calls[id]? = some (.restart stage)) (pending : stage.pending = true)
    (state : SharedCell Snapshot) :
    { system.moveRestart id .returning with
      stop := false, barrier := ⟨none, false⟩, state := state, worker := .returning }.Orderly := by
  refine ⟨?_, ?_, ?_, ?_, ?_⟩
  · have holds := orderly.holder id stage call (RestartStage.locked_of_pending pending)
    exact every_restart_moved orderly.holder fun _ => holds
  · intro _ waiting
    cases waiting
  · intro _ _ waiting
    cases waiting
  · intro broken
    cases broken
  · intro other found there open_yet
    rcases setCall_cases there with ⟨-, same⟩ | ⟨-, old⟩
    · cases same
    · exact orderly.past_closing other found old open_yet

theorem Orderly.step (orderly : system.Orderly) {action : Action}
    (moves : Moves system action later events) : later.Orderly := by
  have elsewhere {worker : Worker} (there : system.worker = worker) (other : worker ≠ .waiting) :
      system.worker = .waiting → system.barrier.broken = true := by
    intro waits
    exact absurd (there.symm.trans waits) other
  cases moves with
  | turn turns => exact orderly.move_worker turns.not_waiting rfl rfl rfl rfl
  | load loading => exact orderly.move_worker (elsewhere loading (by simp)) rfl rfl rfl rfl
  | publish publishes | give_up publishes =>
    exact orderly.move_worker (elsewhere rfl publishes.not_waiting) rfl rfl rfl rfl
  | execute stepping | conclude stepping | fail stepping | crash stepping =>
    exact orderly.move_worker (elsewhere stepping (by simp)) rfl rfl rfl rfl
  | park_worker arrives whole =>
    refine ⟨orderly.holder, fun _ _ => rfl, ?_, ?_, orderly.past_closing⟩
    · intro id _ waiting
      cases waiting
    · intro broken
      cases broken
  | @park_call id call whole =>
    have moved : (system.moveRestart id .waiting).Orderly :=
      orderly.move_restart call (fun _ => rfl) (by simp) rfl rfl rfl rfl rfl
    refine ⟨moved.holder, ?_, ?_, ?_, moved.past_closing⟩
    · intro _ waiting
      cases waiting
    · intro other _ waiting
      obtain rfl : id = other := Party.call.inj (Option.some.inj waiting)
      exact setCall_self call
    · intro broken
      cases broken
  | meet _ _ call pending => exact orderly.meet call pending _
  | call call turns =>
    exact orderly.move_restart call (fun _ => turns.locked) turns.not_waiting rfl rfl rfl rfl rfl
  | @lock id program call free =>
    have nobody : ∀ (other : Nat) (stage : RestartStage),
        system.calls[other]? = some (.restart stage) → stage.locked = true → False := by
      intro other stage there locked
      have holds := orderly.holder other stage there locked
      rw [free] at holds
      cases holds
    refine ⟨?_, orderly.worker_waits, ?_, orderly.broken_closed, ?_⟩
    · intro other stage there locked
      rcases setCall_cases there with ⟨rfl, -⟩ | ⟨-, old⟩
      · rfl
      · exact absurd locked (nobody other stage old)
    · intro other whole waiting
      have there := orderly.call_waits other whole waiting
      exact absurd rfl (nobody other .waiting there)
    · intro other stage there open_yet
      rcases setCall_cases there with ⟨-, same⟩ | ⟨-, old⟩
      · cases same
      · exact orderly.past_closing other stage old open_yet
  | stop call | store call | clear call =>
    exact orderly.move_restart call (fun _ => rfl) (by simp) rfl rfl rfl rfl rfl
  | @unlock id result call =>
    have moved : (system.moveRestart id (.finished result)).Orderly :=
      orderly.move_restart call (fun _ => rfl) (by simp) rfl rfl rfl rfl rfl
    refine ⟨?_, moved.worker_waits, moved.call_waits, moved.broken_closed, moved.past_closing⟩
    intro other stage there locked
    rcases setCall_cases there with ⟨-, same⟩ | ⟨different, old⟩
    · obtain rfl := Call.restart.inj same
      cases locked
    · exact absurd (orderly.same_holder call rfl old locked) different
  | close call => exact orderly.move_shutdown call rfl rfl id rfl rfl rfl
  | halt call | join call =>
    have closed := orderly.past_closing _ _ call (by simp)
    exact orderly.move_shutdown call closed rfl id rfl rfl rfl
  | break_barrier call =>
    have closed := orderly.past_closing _ _ call (by simp)
    exact orderly.move_shutdown call closed rfl (fun whole => by cases whole) rfl rfl rfl
  | request made => exact orderly.add_call made
  | poison_state | poison_program | feed => exact orderly.of_same rfl rfl rfl rfl rfl

theorem Orderly.start (name : String) (first : Option Program) (stream : ByteStream) :
    (System.start name first stream).Orderly := by
  constructor <;> simp [System.start]

end System

theorem Schedule.orderly {initial system : System} {actions : List Action} {events : List Event}
    (schedule : Schedule initial actions system events) (orderly : initial.Orderly) :
    system.Orderly := by
  induction schedule with
  | start => exact orderly
  | next action _ step ih => exact ih.step (ih.moves step)

end TapeMachine.Live
