import TapeMachine.Proofs.Live.Isolation

namespace TapeMachine.Live

namespace System

variable {system later : System} {action : Action} {events : List Event}

theorem arrive_meets {first : Party} (whole : system.barrier.broken = false)
    (noted : system.barrier.waiting = some first) (party : Party) :
    (system.arrive party).2 = .met first party :: system.renew.2 := by
  simp [arrive, whole, noted]

theorem not_met_of_renew {first second : Party} : .met first second ∉ system.renew.2 := by
  rcases poisoned : system.state.poisoned <;> simp [renew, SharedCell.store?, poisoned]

theorem met_of_arrive {party first second : Party} (arrival : system.arrive party = (later, events))
    (met : .met first second ∈ events) :
    system.barrier.broken = false ∧ system.barrier.waiting = some first ∧ second = party := by
  have seen : (system.arrive party).2 = events := congrArg Prod.snd arrival
  rw [← seen] at met
  rcases broken : system.barrier.broken
  · rcases noted : system.barrier.waiting with _ | other
    · simp [arrive, broken, noted] at met
    · rw [arrive_meets broken noted] at met
      rcases List.mem_cons.mp met with now | note
      · obtain ⟨rfl, rfl⟩ := Event.met.inj now
        exact ⟨rfl, rfl, rfl⟩
      · exact absurd note not_met_of_renew
  · simp [arrive, broken] at met

/-- Who arrives and meets nobody finds nobody. -/
theorem unnoted_of_arrive {party : Party} (whole : system.barrier.broken = false)
    (arrival : system.arrive party = (later, [])) : system.barrier.waiting = none := by
  rcases noted : system.barrier.waiting with _ | first
  · rfl
  · have seen := arrive_meets whole noted party
    rw [arrival] at seen
    cases seen

theorem not_met_of_publish {first second : Party} {run : Run} {status : Status} {next : Worker} :
    .met first second ∉ (system.publish run status next).2 := by
  rcases poisoned : system.state.poisoned <;> simp [publish, SharedCell.store?, poisoned]

/-- The worker meets somebody only by its arrival. -/
theorem met_of_work {first second : Party} (step : system.workerStep? = some (later, events))
    (met : .met first second ∈ events) :
    system.worker = .arriving ∧ system.arrive .worker = (later, events) := by
  have apart {result : System × List Event} (same : result = (later, events))
      (unmet : .met first second ∉ result.2) : False := by
    rw [same] at unmet
    exact unmet met
  rcases place : system.worker with _ | _ | _ | run | run | run | run | run | ⟨run, status⟩ | _ | _ |
    _ | _ | _ | _
  case arriving =>
    rw [workerStep?, place] at step
    exact ⟨rfl, Option.some.inj step⟩
  case announcing =>
    by_cases awaits : run.machine.awaitsInput = true
    · simp only [workerStep?, place, awaits, if_true] at step
      exact (apart (Option.some.inj step) not_met_of_publish).elim
    · simp only [workerStep?, place, awaits] at step
      exact (apart (Option.some.inj step) (by simp)).elim
  case reporting | concluding =>
    rw [workerStep?, place] at step
    exact (apart (Option.some.inj step) not_met_of_publish).elim
  all_goals
    simp only [workerStep?, place, execute?, abandon] at step
    grind

/-- A call meets somebody only by the arrival of a restart. -/
theorem met_of_call {id : Nat} {first second : Party}
    (step : system.callStep? id = some (later, events)) (met : .met first second ∈ events) :
    system.calls[id]? = some (.restart .arriving) ∧
      system.arrive (.call id) = (later, events) := by
  rcases call : system.calls[id]? with _ | stage | stage
  · rw [callStep?, call] at step
    cases step
  · rw [callStep?, call] at step
    cases stage with
    | arriving => exact ⟨rfl, Option.some.inj step⟩
    | locking | checking | stopping | storing | waiting | returning | clearing | unlocking | finished =>
      simp only [restartStep?] at step
      grind
  · rw [callStep?, call] at step
    cases stage <;> simp only [shutdownStep?] at step <;> grind

/-- Two parties meet when one of them arrives and the other one is noted at the barrier. -/
theorem met_of_step {first second : Party} (step : system.perform? action = some (later, events))
    (met : .met first second ∈ events) :
    system.barrier.broken = false ∧ system.barrier.waiting = some first ∧
      (second = .worker ∧ system.worker = .arriving ∨
        ∃ id, second = .call id ∧ system.calls[id]? = some (.restart .arriving)) := by
  cases action with
  | work =>
    obtain ⟨arrives, arrival⟩ := met_of_work step met
    obtain ⟨whole, noted, rfl⟩ := met_of_arrive arrival met
    exact ⟨whole, noted, .inl ⟨rfl, arrives⟩⟩
  | proceed id =>
    obtain ⟨arrives, arrival⟩ := met_of_call step met
    obtain ⟨whole, noted, rfl⟩ := met_of_arrive arrival met
    exact ⟨whole, noted, .inr ⟨id, rfl, arrives⟩⟩
  | requestRestart | requestShutdown | poisonState | poisonProgram | feed =>
    obtain ⟨rfl, rfl⟩ := Prod.mk.inj (Option.some.inj step)
    cases met

/-- Neither the worker nor a restart meets itself, and only one restart is at the barrier. -/
theorem Orderly.pairs (orderly : system.Orderly)
    (step : system.perform? action = some (later, events)) {first second : Party}
    (met : .met first second ∈ events) :
    (first = .worker ∧ ∃ id, second = .call id) ∨ (∃ id, first = .call id) ∧ second = .worker := by
  obtain ⟨whole, noted, ⟨rfl, arrives⟩ | ⟨id, rfl, arrives⟩⟩ := met_of_step step met
  · cases first with
    | worker => cases arrives.symm.trans (orderly.worker_waits whole noted)
    | call id => exact .inr ⟨⟨id, rfl⟩, rfl⟩
  · cases first with
    | worker => exact .inl ⟨rfl, id, rfl⟩
    | call other =>
      have waits := orderly.call_waits other whole noted
      obtain rfl := orderly.same_holder arrives rfl waits rfl
      cases arrives.symm.trans waits

/-- A broken barrier lets nobody meet. -/
theorem whole_of_rendezvous (step : system.perform? action = some (later, events))
    (some_met : rendezvous events ≠ []) : system.barrier.broken = false := by
  obtain ⟨id, member⟩ := List.exists_mem_of_ne_nil _ some_met
  obtain ⟨event, within, met⟩ := List.mem_filterMap.mp member
  cases event with
  | met first second => exact (met_of_step step within).1
  | logged | began | executed | published => cases met

/-- Whoever waits at the barrier is noted there, and the worker leaves only when a shutdown has begun,
which breaks the barrier before it waits for the worker. -/
structure Attended (system : System) : Prop where
  worker_noted : system.barrier.broken = false → system.worker = .waiting →
    system.barrier.waiting = some .worker
  call_noted : ∀ id : Nat, system.barrier.broken = false →
    system.calls[id]? = some (.restart .waiting) → system.barrier.waiting = some (.call id)
  closer : system.closed = true → ∃ (id : Nat) (stage : ShutdownStage),
    system.calls[id]? = some (.shutdown stage) ∧ stage ≠ .closing
  breaker : ∀ (id : Nat) (stage : ShutdownStage), system.calls[id]? = some (.shutdown stage) →
    stage = .joining ∨ stage = .finished → system.barrier.broken = true
  left : system.worker = .leaving ∨ system.worker = .gone → system.closed = true

theorem Attended.start (name : String) (first : Option Program) (stream : ByteStream) :
    (System.start name first stream).Attended := by
  constructor <;> simp [System.start]

/-- Attendance is a matter of four things only. -/
theorem Attended.of_same (attended : system.Attended) (closed : later.closed = system.closed)
    (barrier : later.barrier = system.barrier) (worker : later.worker = system.worker)
    (calls : later.calls = system.calls) : later.Attended := by
  obtain ⟨worker_noted, call_noted, closer, breaker, left⟩ := attended
  rw [← closed, ← barrier, ← worker, ← calls] at *
  exact ⟨worker_noted, call_noted, closer, breaker, left⟩

/-- The worker can go anywhere but to the barrier, and away only after a shutdown. -/
theorem Attended.move_worker (attended : system.Attended) (away : later.worker ≠ .waiting)
    (leaves : later.worker = .leaving ∨ later.worker = .gone → system.closed = true)
    (closed : later.closed = system.closed) (barrier : later.barrier = system.barrier)
    (calls : later.calls = system.calls) : later.Attended := by
  obtain ⟨-, call_noted, closer, breaker, -⟩ := attended
  rw [← closed] at closer leaves
  rw [← barrier, ← calls] at *
  exact ⟨fun _ waits => absurd waits away, call_noted, closer, breaker, leaves⟩

theorem Attended.turn (attended : system.Attended) (orderly : system.Orderly) {next : Worker}
    (turns : system.worker.Turns system next) : (system.moveWorker next).Attended := by
  have left := attended.left
  refine attended.move_worker ?_ ?_ rfl rfl rfl
  · rintro rfl
    generalize system.worker = worker at turns
    cases turns
  · rintro (rfl | rfl)
    · generalize system.worker = worker at turns
      cases turns with
      | turned_away broken => exact orderly.broken_closed broken
      | leave closed => exact closed
    · generalize system.worker = worker at turns left
      cases turns with
      | exit => exact left (.inl rfl)

theorem Attended.move_restart (attended : system.Attended) {id : Nat} {stage next : RestartStage}
    (call : system.calls[id]? = some (.restart stage)) (away : next ≠ .waiting)
    (closed : later.closed = system.closed) (barrier : later.barrier = system.barrier)
    (worker : later.worker = system.worker)
    (calls : later.calls = (system.moveRestart id next).calls) : later.Attended := by
  refine @Attended.of_same (system.moveRestart id next) later ?_ closed barrier worker calls
  obtain ⟨worker_noted, call_noted, closer, breaker, left⟩ := attended
  refine ⟨worker_noted, ?_, ?_, ?_, left⟩
  · intro other whole waits
    rcases restart_after waits with ⟨-, rfl⟩ | ⟨-, old⟩
    · exact absurd rfl away
    · exact call_noted other whole old
  · intro shut
    obtain ⟨closes, past, there, passed⟩ := closer shut
    exact ⟨closes, past, call_kept there call (by simp), passed⟩
  · intro other past there joins
    rcases setCall_cases there with ⟨-, same⟩ | ⟨-, old⟩
    · cases same
    · exact breaker other past old joins

/-- A shutdown moves on. -/
theorem Attended.move_shutdown (attended : system.Attended) {id : Nat} {stage next : ShutdownStage}
    (call : system.calls[id]? = some (.shutdown stage)) (moved : next ≠ .closing)
    (noted : later.barrier.waiting = system.barrier.waiting)
    (broken : system.barrier.broken = true → later.barrier.broken = true)
    (breaks : next = .joining ∨ next = .finished → later.barrier.broken = true)
    (closed : later.closed = true) (worker : later.worker = system.worker)
    (calls : later.calls = (system.setCall id (.shutdown next)).calls) : later.Attended := by
  have before (whole : later.barrier.broken = false) : system.barrier.broken = false := by
    rcases was : system.barrier.broken
    · rfl
    · cases whole.symm.trans (broken was)
  refine ⟨?_, ?_, ?_, ?_, fun _ => closed⟩
  · rw [noted, worker]
    exact fun whole => attended.worker_noted (before whole)
  · rw [noted, calls]
    intro other whole there
    rcases setCall_cases there with ⟨-, same⟩ | ⟨-, old⟩
    · cases same
    · exact attended.call_noted other (before whole) old
  · intro _
    refine ⟨id, next, ?_, moved⟩
    rw [calls]
    exact setCall_self call
  · rw [calls]
    intro other past there joins
    rcases setCall_cases there with ⟨-, same⟩ | ⟨-, old⟩
    · obtain rfl := Call.shutdown.inj same
      exact breaks joins
    · exact broken (attended.breaker other past old joins)

theorem Attended.add_call (attended : system.Attended) {call : Call}
    (made : action.call? = some call) : (system.addCall call).Attended := by
  obtain ⟨worker_noted, call_noted, closer, breaker, left⟩ := attended
  refine ⟨worker_noted, ?_, ?_, ?_, left⟩
  · intro id whole there
    rcases addCall_cases there with old | ⟨-, new⟩
    · exact call_noted id whole old
    · cases ((made_unlocked made).1 .waiting new.symm).1
  · intro shut
    obtain ⟨id, past, there, passed⟩ := closer shut
    exact ⟨id, past, call_added there call, passed⟩
  · intro id past there joins
    rcases addCall_cases there with old | ⟨-, new⟩
    · exact breaker id past old joins
    · obtain rfl := (made_unlocked made).2 past new.symm
      rcases joins with joins | joins <;> cases joins

/-- After a rendezvous nobody waits. -/
theorem Attended.meet (attended : system.Attended) (orderly : system.Orderly)
    (whole : system.barrier.broken = false) {id : Nat} {stage : RestartStage}
    (call : system.calls[id]? = some (.restart stage)) (pending : stage.pending = true)
    (state : SharedCell Snapshot) :
    { system.moveRestart id .returning with
      stop := false, barrier := ⟨none, false⟩, state := state, worker := .returning }.Attended := by
  refine ⟨?_, ?_, ?_, ?_, ?_⟩
  · intro _ waits
    cases waits
  · intro other _ waits
    rcases restart_after waits with ⟨-, moved⟩ | ⟨different, old⟩
    · cases moved
    · have locked := RestartStage.locked_of_pending pending
      exact absurd (orderly.same_holder call locked old rfl) different
  · intro shut
    obtain ⟨closes, past, there, passed⟩ := attended.closer shut
    exact ⟨closes, past, call_kept there call (by simp), passed⟩
  · intro other past there joins
    rcases setCall_cases there with ⟨-, same⟩ | ⟨-, old⟩
    · cases same
    · cases whole.symm.trans (attended.breaker other past old joins)
  · rintro (left | left) <;> cases left

theorem Attended.park_worker (attended : system.Attended) (whole : system.barrier.broken = false)
    (alone : system.barrier.waiting = none) :
    { system.moveWorker .waiting with barrier := ⟨some .worker, false⟩ }.Attended := by
  refine ⟨fun _ _ => rfl, ?_, attended.closer, ?_, ?_⟩
  · intro id _ there
    cases alone.symm.trans (attended.call_noted id whole there)
  · intro id past there joins
    cases whole.symm.trans (attended.breaker id past there joins)
  · rintro (left | left) <;> cases left

theorem Attended.park_call (attended : system.Attended) (orderly : system.Orderly) {id : Nat}
    (arrives : system.calls[id]? = some (.restart .arriving))
    (whole : system.barrier.broken = false) (alone : system.barrier.waiting = none) :
    { system.moveRestart id .waiting with barrier := ⟨some (.call id), false⟩ }.Attended := by
  refine ⟨?_, ?_, ?_, ?_, attended.left⟩
  · intro _ waits
    cases alone.symm.trans (attended.worker_noted whole waits)
  · intro other _ there
    rcases restart_after there with ⟨rfl, -⟩ | ⟨different, old⟩
    · rfl
    · exact absurd (orderly.same_holder arrives rfl old rfl) different
  · intro shut
    obtain ⟨closes, past, there, passed⟩ := attended.closer shut
    exact ⟨closes, past, call_kept there arrives (by simp), passed⟩
  · intro other past there joins
    rcases setCall_cases there with ⟨-, same⟩ | ⟨-, old⟩
    · cases same
    · cases whole.symm.trans (attended.breaker other past old joins)

theorem Attended.step (attended : system.Attended) (orderly : system.Orderly)
    (step : system.perform? action = some (later, events)) : later.Attended := by
  cases orderly.moves step with
  | turn turns => exact attended.turn orderly turns
  | load => exact attended.move_worker (by simp [moveWorker]) (by simp [moveWorker]) rfl rfl rfl
  | publish publishes =>
    generalize system.worker = worker at publishes
    cases publishes <;> exact attended.move_worker (by simp) (by simp) rfl rfl rfl
  | give_up | execute | conclude | fail | crash =>
    exact attended.move_worker (by simp [moveWorker]) (by simp [moveWorker]) rfl rfl rfl
  | park_worker arrives whole =>
    have arrival : system.workerStep? = some (system.arrive .worker) := by rw [workerStep?, arrives]
    exact attended.park_worker whole
      (unnoted_of_arrive whole (Option.some.inj (arrival.symm.trans step)))
  | @park_call id arrives whole =>
    have arrival : system.callStep? id = some (system.arrive (.call id)) := by
      rw [callStep?, arrives]
      rfl
    exact attended.park_call orderly arrives whole
      (unnoted_of_arrive whole (Option.some.inj (arrival.symm.trans step)))
  | meet _ _ call pending _ one =>
    exact attended.meet orderly (whole_of_rendezvous step (by simp [one])) call pending _
  | call call turns =>
    refine attended.move_restart call ?_ rfl rfl rfl rfl
    rintro rfl
    cases turns
  | stop call | store call | clear call | unlock call | lock call =>
    exact attended.move_restart call (by simp) rfl rfl rfl rfl
  | close call =>
    exact attended.move_shutdown call (by simp) rfl id (by simp) rfl rfl rfl
  | halt call =>
    have closed := orderly.past_closing _ _ call (by simp)
    exact attended.move_shutdown call (by simp) rfl id (by simp) closed rfl rfl
  | break_barrier call =>
    have closed := orderly.past_closing _ _ call (by simp)
    exact attended.move_shutdown call (by simp) rfl (fun _ => rfl) (fun _ => rfl) closed rfl rfl
  | join call =>
    have closed := orderly.past_closing _ _ call (by simp)
    have broken := attended.breaker _ _ call (.inl rfl)
    exact attended.move_shutdown call (by simp) rfl id (fun _ => broken) closed rfl rfl
  | request made => exact attended.add_call made
  | poison_state | poison_program | feed => exact attended.of_same rfl rfl rfl rfl

end System

theorem Schedule.attended {initial system : System} {actions : List Action} {events : List Event}
    (schedule : Schedule initial actions system events) (orderly : initial.Orderly)
    (attended : initial.Attended) : system.Attended := by
  induction schedule with
  | start => exact attended
  | next action earlier step ih => exact ih.step (earlier.orderly orderly) step

/-- A rendezvous is one of the worker and one restart. -/
theorem Schedule.pairs {initial system : System} {actions : List Action} {events : List Event}
    (schedule : Schedule initial actions system events) (orderly : initial.Orderly)
    {first second : Party} (met : .met first second ∈ events) :
    (first = .worker ∧ ∃ id, second = .call id) ∨ (∃ id, first = .call id) ∧ second = .worker := by
  induction schedule with
  | start => cases met
  | next action earlier step ih =>
    rcases List.mem_append.mp met with old | new
    · exact ih old
    · exact (earlier.orderly orderly).pairs step new

end TapeMachine.Live
