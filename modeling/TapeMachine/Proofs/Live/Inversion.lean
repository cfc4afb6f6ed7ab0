import TapeMachine.Proofs.Live.Moves
import TapeMachine.Proofs.Path

namespace TapeMachine.Live

/-- The parties are in order: a restart in its critical part holds the lock, who is noted at the
barrier stands there, and the barrier is broken only after the shutdown has been noted. -/
structure System.Orderly (system : System) : Prop where
  holder : ∀ (id : Nat) (stage : RestartStage), system.calls[id]? = some (.restart stage) → stage.locked = true →
    system.lock = some id
  worker_waits : system.barrier.broken = false → system.barrier.waiting = some .worker →
    system.worker = .waiting
  call_waits : ∀ id : Nat, system.barrier.broken = false → system.barrier.waiting = some (.call id) →
    system.calls[id]? = some (.restart .waiting)
  broken_closed : system.barrier.broken = true → system.closed = true
  past_closing : ∀ (id : Nat) (stage : ShutdownStage), system.calls[id]? = some (.shutdown stage) → stage ≠ .closing →
    system.closed = true

namespace System

variable {system later : System} {events : List Event}

/-- Only one restart is in its critical part. -/
theorem Orderly.same_holder (orderly : system.Orderly) {id other : Nat} {stage stage' : RestartStage}
    (call : system.calls[id]? = some (.restart stage)) (holds : stage.locked = true)
    (call' : system.calls[other]? = some (.restart stage')) (holds' : stage'.locked = true) :
    other = id := by
  have first := orderly.holder id stage call holds
  have second := orderly.holder other stage' call' holds'
  exact Option.some.inj (second.symm.trans first)

theorem renew_eq (system : System) : ∃ state notes,
    system.renew = ({ system with stop := false, state := state }, notes) ∧
      Renewed system.state state ∧ Silent notes := by
  by_cases poisoned : system.state.poisoned = true
  · refine ⟨system.state, [.logged (.error "state cell poisoned, cannot reset state at restart")],
      ?_, .inr ⟨poisoned, rfl⟩, ?_⟩
    · simp [renew, SharedCell.store?, poisoned]
    · simp [Silent, Event.ticket?, Event.rendezvous?]
  · have sound : system.state.poisoned = false := by simpa using poisoned
    refine ⟨⟨.fresh .running, false⟩, [], ?_, .inl ⟨sound, rfl⟩, by simp [Silent]⟩
    simp [renew, SharedCell.store?, sound]

theorem silent_rendezvous {notes : List Event} (silent : Silent notes) : rendezvous notes = [] := by
  rw [rendezvous, List.filterMap_eq_nil_iff]
  intro event member
  exact (silent event member).2

theorem traces_rendezvous {ticket : Nat} {notes : List Event} (traces : TracesOf ticket notes) :
    rendezvous notes = [] := by
  rw [rendezvous, List.filterMap_eq_nil_iff]
  intro event member
  exact (traces event member).1

theorem meeting_events {event : Event} {notes : List Event} {id : Nat} (silent : Silent notes)
    (met : event.rendezvous? = some id) (untold : event.ticket? = none) :
    rendezvous (event :: notes) = [id] ∧ ∀ other ∈ event :: notes, other.ticket? = none := by
  constructor
  · rw [rendezvous, List.filterMap_cons_some met]
    exact congrArg (id :: ·) (silent_rendezvous silent)
  · intro other member
    rcases List.mem_cons.mp member with rfl | note
    · exact untold
    · exact (silent other note).1

theorem Orderly.arrive_worker (orderly : system.Orderly) (arrives : system.worker = .arriving)
    (step : system.arrive .worker = (later, events)) : Moves system .work later events := by
  by_cases broken : system.barrier.broken = true
  · rw [arrive, if_pos broken] at step
    obtain ⟨rfl, rfl⟩ := Prod.mk.inj step
    exact .turn (.turned_away broken (.inl arrives)) (by simp [Silent])
  have whole : system.barrier.broken = false := by simpa using broken
  rw [arrive, if_neg broken] at step
  rcases waiting : system.barrier.waiting with _ | first
  · rw [waiting] at step
    obtain ⟨rfl, rfl⟩ := Prod.mk.inj step
    exact .park_worker arrives whole
  cases first with
  | worker =>
    have both := orderly.worker_waits whole waiting
    rw [arrives] at both
    cases both
  | call id =>
    have waits := orderly.call_waits id whole waiting
    obtain ⟨state, notes, renewed, cell, silent⟩ := system.renew_eq
    rw [waiting, renewed] at step
    obtain ⟨rfl, rfl⟩ := Prod.mk.inj step
    obtain ⟨met, untold⟩ := @meeting_events (.met (.call id) .worker) _ id silent rfl rfl
    exact .meet (.inl rfl) (.inl arrives) waits rfl cell met untold

theorem Orderly.arrive_call (orderly : system.Orderly) {id : Nat}
    (arrives : system.calls[id]? = some (.restart .arriving))
    (step : system.arrive (.call id) = (later, events)) : Moves system (.proceed id) later events := by
  by_cases broken : system.barrier.broken = true
  · rw [arrive, if_pos broken] at step
    obtain ⟨rfl, rfl⟩ := Prod.mk.inj step
    exact .call arrives (.turned_away rfl broken)
  have whole : system.barrier.broken = false := by simpa using broken
  rw [arrive, if_neg broken] at step
  rcases waiting : system.barrier.waiting with _ | first
  · rw [waiting] at step
    obtain ⟨rfl, rfl⟩ := Prod.mk.inj step
    exact .park_call arrives whole
  cases first with
  | worker =>
    have waits := orderly.worker_waits whole waiting
    obtain ⟨state, notes, renewed, cell, silent⟩ := system.renew_eq
    rw [waiting, renewed] at step
    obtain ⟨rfl, rfl⟩ := Prod.mk.inj step
    obtain ⟨met, untold⟩ := @meeting_events (.met .worker (.call id)) _ id silent rfl rfl
    exact .meet (.inr rfl) (.inr waits) arrives rfl cell met untold
  | call other =>
    have waits := orderly.call_waits other whole waiting
    obtain rfl := orderly.same_holder arrives rfl waits rfl
    rw [arrives] at waits
    cases waits

theorem silent_logged (entry : LogEntry) : Silent [.logged entry] := by
  simp [Silent, Event.ticket?, Event.rendezvous?]

theorem publish_moves {run : Run} {status : Status} {next : Worker}
    (publishes : system.worker.Publishes run status next)
    (step : system.publish run status next = (later, events)) : Moves system .work later events := by
  by_cases poisoned : system.state.poisoned = true
  · simp only [publish, SharedCell.store?, poisoned, if_true] at step
    obtain ⟨rfl, rfl⟩ := Prod.mk.inj step
    refine .give_up publishes poisoned ?_
    simp [TracesOf, Event.ticket?, Event.rendezvous?]
  · have sound : system.state.poisoned = false := by simpa using poisoned
    simp only [publish, SharedCell.store?, sound, Bool.false_eq_true, if_false] at step
    obtain ⟨rfl, rfl⟩ := Prod.mk.inj step
    refine .publish publishes sound ?_
    simp [TracesOf, Event.ticket?, Event.rendezvous?]

theorem execute_moves {run : Run} (stepping : system.worker = .stepping run)
    (step : system.execute? run = some (later, events)) : Moves system .work later events := by
  rcases result : run.machine.step system.stream with ⟨outcome, machine, rest⟩
  cases outcome with
  | waiting =>
    rw [execute?, result] at step
    cases step
  | ran op =>
    rw [execute?, result] at step
    obtain ⟨rfl, rfl⟩ := Prod.mk.inj (Option.some.inj step)
    refine .execute stepping result ?_
    simp [TracesOf, Event.ticket?, Event.rendezvous?]
  | ended =>
    obtain rfl := Machine.eq_of_rests result rfl
    rw [execute?, result] at step
    obtain ⟨rfl, rfl⟩ := Prod.mk.inj (Option.some.inj step)
    exact .conclude stepping result rfl (silent_logged _)
  | failed error =>
    obtain rfl := Machine.eq_of_rests result rfl
    simp only [execute?, result] at step
    by_cases own : error.isProgramFailure = true
    · rw [if_pos own] at step
      obtain ⟨rfl, rfl⟩ := Prod.mk.inj (Option.some.inj step)
      exact .conclude stepping result ⟨own, rfl⟩ (silent_logged _)
    · rw [if_neg own] at step
      obtain ⟨rfl, rfl⟩ := Prod.mk.inj (Option.some.inj step)
      exact .fail stepping (silent_logged _)

theorem load_moves (loading : system.worker = .loading)
    (step : system.workerStep? = some (later, events)) : Moves system .work later events := by
  have without (nothing : system.program.poisoned = true ∨ system.program.value = none) :
      system.worker.Turns system .arriving := by
    rw [loading]
    exact .idle nothing
  simp only [workerStep?, loading, SharedCell.load?] at step
  by_cases poisoned : system.program.poisoned = true
  · simp only [poisoned, if_true] at step
    obtain ⟨rfl, rfl⟩ := Prod.mk.inj (Option.some.inj step)
    exact .turn (without (.inl poisoned)) (silent_logged _)
  simp only [poisoned, Bool.false_eq_true, if_false] at step
  rcases stored : system.program.value with _ | job
  · simp only [stored] at step
    obtain ⟨rfl, rfl⟩ := Prod.mk.inj (Option.some.inj step)
    exact .turn (without (.inr stored)) (by simp [Silent])
  · simp only [stored] at step
    obtain ⟨rfl, rfl⟩ := Prod.mk.inj (Option.some.inj step)
    exact .load loading stored (by simp [Silent, Event.ticket?, Event.rendezvous?])

theorem Orderly.worker_moves (orderly : system.Orderly)
    (step : system.workerStep? = some (later, events)) : Moves system .work later events := by
  have turn {next : Worker} {notes : List Event} (turns : system.worker.Turns system next)
      (silent : Silent notes) (same : (system.moveWorker next, notes) = (later, events)) :
      Moves system .work later events := by
    obtain ⟨rfl, rfl⟩ := Prod.mk.inj same
    exact .turn turns silent
  have none_seen : Silent [] := by simp [Silent]
  rcases stage : system.worker with _ | _ | _ | run | run | run | run | run | ⟨run, status⟩ | _ | _ |
    _ | _ | _ | _
  case loading => exact load_moves stage step
  all_goals
    rw [workerStep?, stage] at step
    simp only [Option.some.injEq] at step
  case starting => exact turn (by rw [stage]; exact .start) (silent_logged _) step
  case opening =>
    by_cases closed : system.closed = true
    · rw [if_pos closed] at step
      exact turn (by rw [stage]; exact .leave closed (.inl rfl)) none_seen step
    · rw [if_neg closed] at step
      exact turn (by rw [stage]; exact .enter) none_seen step
  case checkingStop =>
    by_cases stop : system.stop = true
    · rw [if_pos stop] at step
      exact turn (by rw [stage]; exact .stopped stop) (silent_logged _) (Option.some.inj step)
    · rw [if_neg stop] at step
      have going : system.stop = false := by simpa using stop
      exact turn (by rw [stage]; exact .unstopped going) none_seen (Option.some.inj step)
  case checkingClosed =>
    by_cases closed : system.closed = true
    · rw [if_pos closed] at step
      exact turn (by rw [stage]; exact .shut closed) (silent_logged _) (Option.some.inj step)
    · rw [if_neg closed] at step
      have going : system.closed = false := by simpa using closed
      exact turn (by rw [stage]; exact .unclosed going) none_seen (Option.some.inj step)
  case announcing =>
    by_cases awaits : run.machine.awaitsInput = true
    · rw [if_pos awaits] at step
      exact publish_moves (by rw [stage]; exact .announce awaits) (Option.some.inj step)
    · rw [if_neg awaits] at step
      exact turn (by rw [stage]; exact .ready) none_seen (Option.some.inj step)
  case stepping => exact execute_moves stage step
  case reporting => exact publish_moves (by rw [stage]; exact .report) step
  case concluding => exact publish_moves (by rw [stage]; exact .conclude) step
  case crashing =>
    obtain ⟨rfl, rfl⟩ := Prod.mk.inj step
    exact .crash stage
  case arriving => exact orderly.arrive_worker stage step
  case waiting =>
    by_cases broken : system.barrier.broken = true
    · rw [if_pos broken] at step
      exact turn (by rw [stage]; exact .turned_away broken (.inr rfl)) none_seen (Option.some.inj step)
    · rw [if_neg broken] at step
      cases step
  case returning =>
    by_cases closed : system.closed = true
    · rw [if_pos closed] at step
      exact turn (by rw [stage]; exact .leave closed (.inr rfl)) none_seen step
    · rw [if_neg closed] at step
      exact turn (by rw [stage]; exact .go_on) none_seen step
  case leaving => exact turn (by rw [stage]; exact .exit) (silent_logged _) step
  case gone => cases step

theorem Orderly.restart_moves (orderly : system.Orderly) {id : Nat} {stage : RestartStage}
    (call : system.calls[id]? = some (.restart stage))
    (step : system.restartStep? id stage = some (later, events)) :
    Moves system (.proceed id) later events := by
  have turn {next : RestartStage} (turns : stage.Turns system next)
      (same : (system.moveRestart id next, []) = (later, events)) :
      Moves system (.proceed id) later events := by
    obtain ⟨rfl, rfl⟩ := Prod.mk.inj same
    exact .call call turns
  cases stage with
  | locking program =>
    simp only [restartStep?] at step
    rcases free : system.lock with _ | holder
    · rw [free] at step
      obtain ⟨rfl, rfl⟩ := Prod.mk.inj (Option.some.inj step)
      exact .lock call free
    · rw [free] at step
      cases step
  | checking program =>
    simp only [restartStep?, Option.some.injEq] at step
    by_cases closed : system.closed = true
    · rw [if_pos closed] at step
      exact turn (.refused closed) step
    · rw [if_neg closed] at step
      exact turn (.allowed (by simpa using closed)) step
  | stopping program =>
    obtain ⟨rfl, rfl⟩ := Prod.mk.inj (Option.some.inj step)
    exact .stop call (silent_logged _)
  | storing program =>
    by_cases poisoned : system.program.poisoned = true
    · simp only [restartStep?, SharedCell.store?, poisoned, if_true, Option.some.injEq] at step
      exact turn (.unstored poisoned) step
    · simp only [restartStep?, SharedCell.store?, poisoned, Bool.false_eq_true, if_false] at step
      obtain ⟨rfl, rfl⟩ := Prod.mk.inj (Option.some.inj step)
      exact .store call (by simpa using poisoned)
  | arriving => exact orderly.arrive_call call (Option.some.inj step)
  | waiting =>
    simp only [restartStep?] at step
    by_cases broken : system.barrier.broken = true
    · rw [if_pos broken] at step
      exact turn (.turned_away rfl broken) (Option.some.inj step)
    · rw [if_neg broken] at step
      cases step
  | returning =>
    simp only [restartStep?, Option.some.injEq] at step
    by_cases closed : system.closed = true
    · rw [if_pos closed] at step
      exact turn (.late closed) step
    · rw [if_neg closed] at step
      exact turn (.returned (by simpa using closed)) step
  | clearing =>
    obtain ⟨rfl, rfl⟩ := Prod.mk.inj (Option.some.inj step)
    exact .clear call
  | unlocking result =>
    obtain ⟨rfl, rfl⟩ := Prod.mk.inj (Option.some.inj step)
    exact .unlock call
  | finished result => cases step

theorem shutdown_moves {id : Nat} {stage : ShutdownStage}
    (call : system.calls[id]? = some (.shutdown stage))
    (step : system.shutdownStep? id stage = some (later, events)) :
    Moves system (.proceed id) later events := by
  cases stage with
  | finished => cases step
  | closing | stopping | breaking | joining =>
    obtain ⟨rfl, rfl⟩ := Prod.mk.inj (Option.some.inj step)
    first | exact .close call | exact .halt call | exact .break_barrier call | exact .join call

/-- Every step is one of the moves. -/
theorem Orderly.moves (orderly : system.Orderly) {action : Action}
    (step : system.perform? action = some (later, events)) : Moves system action later events := by
  cases action with
  | work => exact orderly.worker_moves step
  | proceed id =>
    simp only [perform?, callStep?] at step
    rcases call : system.calls[id]? with _ | stage | stage
    · rw [call] at step
      cases step
    · rw [call] at step
      exact orderly.restart_moves call step
    · rw [call] at step
      exact shutdown_moves call step
  | requestRestart request =>
    obtain ⟨rfl, rfl⟩ := Prod.mk.inj (Option.some.inj step)
    exact .request rfl
  | requestShutdown =>
    obtain ⟨rfl, rfl⟩ := Prod.mk.inj (Option.some.inj step)
    exact .request rfl
  | poisonState =>
    obtain ⟨rfl, rfl⟩ := Prod.mk.inj (Option.some.inj step)
    exact .poison_state
  | poisonProgram =>
    obtain ⟨rfl, rfl⟩ := Prod.mk.inj (Option.some.inj step)
    exact .poison_program
  | feed items =>
    obtain ⟨rfl, rfl⟩ := Prod.mk.inj (Option.some.inj step)
    exact .feed

end System

end TapeMachine.Live
