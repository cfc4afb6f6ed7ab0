import TapeMachine.Proofs.Live.Stages

namespace TapeMachine.Live

namespace System

variable {system later : System} {action : Action} {events : List Event}

/-- The lock is with a restart in its critical part, and whoever is noted at the barrier has been
called. -/
structure Held (system : System) : Prop where
  holder : ∀ id : Nat, system.lock = some id →
    ∃ stage : RestartStage, system.calls[id]? = some (.restart stage) ∧ stage.locked = true
  noted : ∀ id : Nat, system.barrier.waiting = some (.call id) → id < system.calls.length

theorem Held.start (name : String) (first : Option Program) (stream : ByteStream) :
    (System.start name first stream).Held := by
  constructor <;> simp [System.start]

/-- A restart that moves on within its critical part keeps the lock. -/
theorem Held.move_restart (held : system.Held) {id : Nat} {stage next : RestartStage}
    (call : system.calls[id]? = some (.restart stage)) (keeps : next.locked = true)
    (lock : later.lock = system.lock) (calls : later.calls = (system.moveRestart id next).calls)
    (noted : later.barrier.waiting = system.barrier.waiting ∨ later.barrier.waiting = none ∨
      later.barrier.waiting = some (.call id)) : later.Held := by
  have length : later.calls.length = system.calls.length := by
    rw [calls, moveRestart, setCall, List.length_set]
  have within : id < system.calls.length := (List.getElem?_eq_some_iff.mp call).1
  constructor
  · intro other holds
    obtain ⟨found, there, locked⟩ := held.holder other (lock ▸ holds)
    rw [calls]
    by_cases same : id = other
    · subst same
      exact ⟨next, setCall_self call, keeps⟩
    · refine ⟨found, ?_, locked⟩
      rw [← there]
      exact List.getElem?_set_ne same
  · intro other waits
    rw [length]
    rcases noted with same | none_noted | this
    · exact held.noted other (same ▸ waits)
    · cases none_noted.symm.trans waits
    · obtain rfl := Party.call.inj (Option.some.inj (this.symm.trans waits))
      exact within

/-- A shutdown that moves on leaves the lock where it is. -/
theorem Held.move_shutdown (held : system.Held) {id : Nat} {stage next : ShutdownStage}
    (call : system.calls[id]? = some (.shutdown stage)) (lock : later.lock = system.lock)
    (calls : later.calls = (system.setCall id (.shutdown next)).calls)
    (waiting : later.barrier.waiting = system.barrier.waiting) : later.Held := by
  constructor
  · intro other holds
    obtain ⟨found, there, locked⟩ := held.holder other (lock ▸ holds)
    rw [calls]
    exact ⟨found, call_kept there call (by simp), locked⟩
  · intro other waits
    rw [calls, setCall, List.length_set]
    exact held.noted other (waiting ▸ waits)

theorem Held.step (held : system.Held) (moves : Moves system action later events) : later.Held := by
  cases moves with
  | turn | load | publish | give_up | execute | conclude | fail | crash | poison_state | poison_program
  | feed => exact ⟨held.holder, held.noted⟩
  | park_worker =>
    refine ⟨held.holder, ?_⟩
    intro id waits
    cases waits
  | park_call call => exact held.move_restart call rfl rfl rfl (.inr (.inr rfl))
  | meet _ _ call => exact held.move_restart call rfl rfl rfl (.inr (.inl rfl))
  | call call turns =>
    refine held.move_restart call ?_ rfl rfl (.inl rfl)
    cases turns <;> rfl
  | stop call | store call | clear call => exact held.move_restart call rfl rfl rfl (.inl rfl)
  | @lock id program call =>
    constructor
    · intro other holds
      obtain rfl := Option.some.inj holds
      exact ⟨_, setCall_self call, rfl⟩
    · intro other waits
      exact Nat.lt_of_lt_of_eq (held.noted other waits) (List.length_set ..).symm
  | unlock =>
    constructor
    · intro other holds
      cases holds
    · intro other waits
      exact Nat.lt_of_lt_of_eq (held.noted other waits) (List.length_set ..).symm
  | close call | halt call | break_barrier call | join call =>
    exact held.move_shutdown call rfl rfl rfl
  | request made =>
    constructor
    · intro other holds
      obtain ⟨stage, there, locked⟩ := held.holder other holds
      exact ⟨stage, call_added there _, locked⟩
    · intro other waits
      have within := held.noted other waits
      simp only [addCall, List.length_append]
      omega

end System

theorem Schedule.held {system now : System} {actions : List Action} {events : List Event}
    (onward : Schedule system actions now events) (orderly : system.Orderly) (held : system.Held) :
    now.Held := by
  induction onward with
  | start => exact held
  | next action earlier step ih =>
    exact ih.step ((earlier.orderly orderly).moves step)

end TapeMachine.Live
