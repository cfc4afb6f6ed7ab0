import TapeMachine.Proofs.Live.Traces

namespace TapeMachine.Live

/-- The restart holds the lock, and its program will not come to the barrier any more once the program
cell is poisoned. -/
def RestartStage.futile : RestartStage → Bool
  | checking _ | stopping _ | storing _ | unlocking _ => true
  | _ => false

theorem RestartStage.not_futile_of_pending {stage : RestartStage} (pending : stage.pending = true) :
    stage.futile = false := by
  cases stage <;> first | rfl | cases pending

namespace Worker

/-- How many instructions a worker that has been told to stop can still execute. -/
def instructionsLeft (closed : Bool) : Worker → Nat
  | checkingClosed _ => if closed then 0 else 1
  | announcing _ | stepping _ => 1
  | _ => 0

/-- How often a worker that has been told to stop can still publish. -/
def publicationsLeft (closed : Bool) : Worker → Nat
  | checkingClosed _ => if closed then 0 else 2
  | announcing _ => 2
  | stepping _ | reporting _ | concluding _ _ => 1
  | _ => 0

theorem instructionsLeft_le (closed : Bool) (worker : Worker) : worker.instructionsLeft closed ≤ 1 := by
  cases worker <;> cases closed <;> simp [instructionsLeft]

theorem publicationsLeft_le (closed : Bool) (worker : Worker) : worker.publicationsLeft closed ≤ 2 := by
  cases worker <;> cases closed <;> simp [publicationsLeft]

/-- A shutdown leaves less to do. -/
theorem left_of_closed (closed : Bool) (worker : Worker) :
    worker.instructionsLeft true ≤ worker.instructionsLeft closed ∧
      worker.publicationsLeft true ≤ worker.publicationsLeft closed := by
  cases worker <;> cases closed <;> simp [instructionsLeft, publicationsLeft]

/-- A publication is taken from what is left. -/
theorem Publishes.spends {worker next : Worker} {run : Run} {status : Status}
    (publishes : worker.Publishes run status next) (closed : Bool) :
    next.instructionsLeft closed ≤ worker.instructionsLeft closed ∧
      1 + next.publicationsLeft closed ≤ worker.publicationsLeft closed := by
  cases publishes <;> simp [instructionsLeft, publicationsLeft]

end Worker

namespace System

variable {system later : System} {action : Action} {events : List Event} {met : List Nat} {id : Nat}

/-- The worker has been told to stop: by a shutdown, by a restart that is on its way to its rendezvous,
or by one that could not store its program. -/
def Halted (id : Nat) (system : System) : Prop :=
  system.closed = true ∨
  system.stop = true ∧
    ((∃ stage : RestartStage, system.calls[id]? = some (.restart stage) ∧ stage.raised = true) ∨
      system.program.poisoned = true ∧ ∀ (other : Nat) (stage : RestartStage),
        system.calls[other]? = some (.restart stage) → stage.locked = true → stage.futile = true)

/-- A shutdown is never taken back. -/
theorem closed_kept (moves : Moves system action later events) (closed : system.closed = true) :
    later.closed = true := by
  cases moves with
  | close => rfl
  | _ => exact closed

/-- A restart that has raised the flag keeps it up until its rendezvous, unless it is turned away or
cannot store its program. -/
theorem halted_raised {stage : RestartStage} (stop : system.stop = true)
    (call : system.calls[id]? = some (.restart stage)) (raised : stage.raised = true)
    (orderly : system.Orderly) (moves : Moves system action later events)
    (apart : id ∉ rendezvous events) : later.Halted id := by
  have locked := RestartStage.locked_of_raised raised
  have different {stage' : RestartStage} (lowered : stage'.raised = false) :
      Call.restart stage ≠ .restart stage' := by
    rintro ⟨⟩
    rw [raised] at lowered
    cases lowered
  cases moves with
  | turn | load | publish | give_up | execute | conclude | fail | crash | park_worker | poison_state
  | poison_program | feed => exact .inr ⟨stop, .inl ⟨stage, call, raised⟩⟩
  | park_call moving =>
    obtain rfl := orderly.same_holder call locked moving rfl
    exact .inr ⟨stop, .inl ⟨.waiting, setCall_self moving, rfl⟩⟩
  | store moving =>
    obtain rfl := orderly.same_holder call locked moving rfl
    exact .inr ⟨stop, .inl ⟨.arriving, setCall_self moving, rfl⟩⟩
  | meet _ _ moving pending _ one =>
    obtain rfl := orderly.same_holder call locked moving (RestartStage.locked_of_pending pending)
    rw [one] at apart
    exact absurd (List.mem_singleton_self _) apart
  | @call other stage' next moving turns =>
    by_cases same : other = id
    · subst same
      obtain rfl := Call.restart.inj (Option.some.inj (moving.symm.trans call))
      cases turns with
      | turned_away _ broken => exact .inl (orderly.broken_closed broken)
      | unstored poisoned =>
        refine .inr ⟨stop, .inr ⟨poisoned, ?_⟩⟩
        intro third found there holds
        rcases restart_after there with ⟨rfl, rfl⟩ | ⟨beside, old⟩
        · rfl
        · exact absurd (orderly.same_holder call locked old holds) beside
      | refused | allowed | returned | late => cases raised
    · refine .inr ⟨stop, .inl ⟨stage, ?_, raised⟩⟩
      rw [← call]
      exact List.getElem?_set_ne same
  | lock moving | unlock moving =>
    exact .inr ⟨stop, .inl ⟨stage, call_kept call moving (different rfl), raised⟩⟩
  | stop moving =>
    exact .inr ⟨rfl, .inl ⟨stage, call_kept call moving (different rfl), raised⟩⟩
  | clear moving =>
    obtain rfl := orderly.same_holder call locked moving rfl
    rw [call] at moving
    cases moving
    cases raised
  | close => exact .inl rfl
  | break_barrier moving | join moving =>
    exact .inr ⟨stop, .inl ⟨stage, call_kept call moving (by simp), raised⟩⟩
  | halt moving =>
    exact .inr ⟨rfl, .inl ⟨stage, call_kept call moving (by simp), raised⟩⟩
  | request => exact .inr ⟨stop, .inl ⟨stage, call_added call _, raised⟩⟩

/-- The program cell is poisoned while the flag is up, and no restart is on its way to the barrier. -/
structure Stuck (system : System) : Prop where
  stop : system.stop = true
  poisoned : system.program.poisoned = true
  futile : ∀ (id : Nat) (stage : RestartStage), system.calls[id]? = some (.restart stage) →
    stage.locked = true → stage.futile = true

/-- Once the program cell is poisoned, nobody gets to the barrier, and nobody takes the flag back. -/
theorem Stuck.step (stuck : system.Stuck) (moves : Moves system action later events) :
    later.Stuck := by
  obtain ⟨stop, poisoned, futile⟩ := stuck
  cases moves with
  | turn | load | publish | give_up | execute | conclude | fail | crash | park_worker | poison_state
  | feed => exact ⟨stop, poisoned, futile⟩
  | poison_program => exact ⟨stop, rfl, futile⟩
  | park_call call | clear call => cases futile _ _ call rfl
  | meet _ _ call pending =>
    have waits := futile _ _ call (RestartStage.locked_of_pending pending)
    cases (RestartStage.not_futile_of_pending pending).symm.trans waits
  | store _ healthy => cases poisoned.symm.trans healthy
  | @call other stage next call turns =>
    refine ⟨stop, poisoned, every_restart_moved futile ?_⟩
    intro _
    cases turns with
    | refused | allowed | unstored | turned_away | late => rfl
    | returned => cases futile _ _ call rfl
  | lock => exact ⟨stop, poisoned, every_restart_moved futile fun _ => rfl⟩
  | unlock => exact ⟨stop, poisoned, every_restart_moved futile fun holds => by cases holds⟩
  | stop => exact ⟨rfl, poisoned, every_restart_moved futile fun _ => rfl⟩
  | halt => exact ⟨rfl, poisoned, every_restart_beside futile⟩
  | close | break_barrier | join => exact ⟨stop, poisoned, every_restart_beside futile⟩
  | request made =>
    refine ⟨stop, poisoned, every_restart_added futile made ?_⟩
    intro _ _ free holds
    rw [holds] at free
    cases free

/-- Nothing but the rendezvous of the restart lets the worker go on. -/
theorem Halted.step (halted : system.Halted id) (orderly : system.Orderly)
    (moves : Moves system action later events)
    (apart : system.closed = true ∨ id ∉ rendezvous events) : later.Halted id := by
  rcases halted with closed | ⟨stop, ⟨stage, call, raised⟩ | ⟨poisoned, futile⟩⟩
  · exact .inl (closed_kept moves closed)
  · rcases apart with closed | apart
    · exact .inl (closed_kept moves closed)
    · exact halted_raised stop call raised orderly moves apart
  · obtain ⟨stop, poisoned, futile⟩ := Stuck.step ⟨stop, poisoned, futile⟩ moves
    exact .inr ⟨stop, .inr ⟨poisoned, futile⟩⟩

/-- A worker that has been told to stop does not get past its look at the flag. -/
theorem Halted.closed_of_unstopped (halted : system.Halted id) (going : system.stop = false) :
    system.closed = true := by
  rcases halted with closed | ⟨stop, -⟩
  · exact closed
  · cases stop.symm.trans going

theorem Halted.spends_turn (halted : system.Halted id) {next : Worker}
    (turns : system.worker.Turns system next) :
    next.instructionsLeft system.closed ≤ system.worker.instructionsLeft system.closed ∧
      next.publicationsLeft system.closed ≤ system.worker.publicationsLeft system.closed := by
  generalize system.worker = worker at turns
  cases turns with
  | unstopped going =>
    simp [Worker.instructionsLeft, Worker.publicationsLeft, halted.closed_of_unstopped going]
  | unclosed unclosed => simp [Worker.instructionsLeft, Worker.publicationsLeft, unclosed]
  | start | enter | idle | stopped | shut | ready | turned_away | go_on | leave | exit =>
    simp [Worker.instructionsLeft, Worker.publicationsLeft]

/-- What a worker that has been told to stop does is taken from what it can still do. -/
theorem Halted.spends (halted : system.Halted id) (orderly : system.Orderly)
    (step : system.perform? action = some (later, events)) :
    executions events + later.worker.instructionsLeft later.closed ≤
        system.worker.instructionsLeft system.closed ∧
      publishings events + later.worker.publicationsLeft later.closed ≤
        system.worker.publicationsLeft system.closed := by
  have moves := orderly.moves step
  have unspent (untold : ∀ event ∈ events, event.ticket? = none)
      (less : later.worker.instructionsLeft later.closed ≤
          system.worker.instructionsLeft system.closed ∧
        later.worker.publicationsLeft later.closed ≤
          system.worker.publicationsLeft system.closed) :
      executions events + later.worker.instructionsLeft later.closed ≤
          system.worker.instructionsLeft system.closed ∧
        publishings events + later.worker.publicationsLeft later.closed ≤
          system.worker.publicationsLeft system.closed := by
    obtain ⟨nothing_executed, nothing_published⟩ := counts_of_untold untold
    rw [nothing_executed, nothing_published, Nat.zero_add, Nat.zero_add]
    exact less
  cases moves with
  | turn turns silent =>
    exact unspent (fun event member => (silent event member).1) (halted.spends_turn turns)
  | load _ _ silent =>
    exact unspent (fun event member => (silent event member).1) ⟨Nat.zero_le _, Nat.zero_le _⟩
  | publish publishes =>
    obtain ⟨notes, silent, rfl⟩ := events_of_publishes publishes step
    obtain ⟨nothing_executed, one_published⟩ := counts_of_publication silent
    rw [nothing_executed, one_published, Nat.zero_add]
    exact publishes.spends _
  | give_up publishes =>
    obtain ⟨notes, silent, rfl⟩ := events_of_publishes publishes step
    obtain ⟨nothing_executed, one_published⟩ := counts_of_publication silent
    rw [nothing_executed, one_published]
    exact ⟨Nat.zero_le _, Nat.le_of_add_right_le (publishes.spends _).2⟩
  | execute stepping ran =>
    obtain rfl := events_of_execution stepping ran step
    rw [stepping]
    exact ⟨Nat.le_refl _, Nat.le_refl _⟩
  | conclude stepping _ _ silent =>
    refine unspent (fun event member => (silent event member).1) ?_
    rw [stepping]
    exact ⟨Nat.zero_le _, Nat.le_refl _⟩
  | fail _ silent =>
    exact unspent (fun event member => (silent event member).1) ⟨Nat.zero_le _, Nat.zero_le _⟩
  | crash | park_worker => exact unspent (by simp) ⟨Nat.zero_le _, Nat.zero_le _⟩
  | meet _ _ _ _ _ _ untold => exact unspent untold ⟨Nat.zero_le _, Nat.zero_le _⟩
  | stop _ silent =>
    exact unspent (fun event member => (silent event member).1) ⟨Nat.le_refl _, Nat.le_refl _⟩
  | close =>
    exact unspent (by simp) (Worker.left_of_closed _ _)
  | _ => exact unspent (by simp) ⟨Nat.le_refl _, Nat.le_refl _⟩

/-- What can still be published is about the run that the worker was in before. -/
theorem same_job (moves : Moves system action later events) {run : Run}
    (there : later.worker.run? = some run)
    (left : 0 < later.worker.publicationsLeft later.closed) :
    ∃ old, system.worker.run? = some old ∧ old.job = run.job := by
  rcases run_cases moves there with same | ⟨old, before, job, -⟩ | ⟨-, begins⟩
  · rw [same] at there
    exact ⟨run, there, rfl⟩
  · exact ⟨old, before, job⟩
  · rw [begins] at left
    cases left

/-- Every trace is taken from what can still be published, and is about the run of the worker. -/
theorem run_of_trace (moves : Moves system action later events) {event : Event} (member : event ∈ events)
    {ticket : Nat} (trace : event.ticket? = some ticket) :
    0 < system.worker.publicationsLeft system.closed ∧
      ∃ run, system.worker.run? = some run ∧ run.job.ticket = ticket := by
  have untold (nothing : ∀ event ∈ events, event.ticket? = none) : False := by
    rw [nothing event member] at trace
    cases trace
  cases moves with
  | publish publishes _ traces | give_up publishes _ traces =>
    have left := (publishes.spends system.closed).2
    exact ⟨by omega, _, publishes.same_run.1, ((traces event member).2 ticket trace).symm⟩
  | execute stepping _ traces =>
    rw [stepping]
    exact ⟨Nat.zero_lt_one, _, rfl, ((traces event member).2 ticket trace).symm⟩
  | turn _ silent | load _ _ silent | conclude _ _ _ silent | fail _ silent | stop _ silent =>
    exact (untold fun event there => (silent event there).1).elim
  | meet _ _ _ _ _ _ quiet => exact (untold quiet).elim
  | _ => cases member

end System

/-- What is done from now on is at most the rest of one round of the loop: one instruction and two
publications, all of them of the run that the worker is in. -/
structure Halts (system : System) (later : List Event) : Prop where
  executed : executions later ≤ 1
  published : publishings later ≤ 2
  own : ∀ event ∈ later, ∀ ticket, event.ticket? = some ticket →
    ∃ run, system.worker.run? = some run ∧ run.job.ticket = ticket

variable {system now : System} {actions : List Action} {later : List Event} {id : Nat}

theorem Schedule.closed_kept (onward : Schedule system actions now later) (orderly : system.Orderly)
    (closed : system.closed = true) : now.closed = true := by
  induction onward with
  | start => exact closed
  | next action earlier step ih => exact System.closed_kept ((earlier.orderly orderly).moves step) ih

theorem Schedule.halted (onward : Schedule system actions now later) (orderly : system.Orderly)
    (halted : system.Halted id) (apart : system.closed = true ∨ id ∉ rendezvous later) :
    now.Halted id ∧
      executions later + now.worker.instructionsLeft now.closed ≤
        system.worker.instructionsLeft system.closed ∧
      publishings later + now.worker.publicationsLeft now.closed ≤
        system.worker.publicationsLeft system.closed := by
  induction onward with
  | start => exact ⟨halted, Nat.le_of_eq (Nat.zero_add _), Nat.le_of_eq (Nat.zero_add _)⟩
  | next action earlier step ih =>
    rw [rendezvous_append, List.mem_append, not_or] at apart
    obtain ⟨still, executed, published⟩ := ih (apart.imp_right And.left)
    have present := earlier.orderly orderly
    obtain ⟨executed_now, published_now⟩ := still.spends present step
    refine ⟨still.step present (present.moves step) ?_, ?_, ?_⟩
    · exact apart.imp (earlier.closed_kept orderly) And.right
    · rw [executions_append]
      omega
    · rw [publishings_append]
      omega

/-- Nothing but the run that the worker was in when it was told to stop leaves a trace. -/
theorem Schedule.halted_own (onward : Schedule system actions now later) (orderly : system.Orderly)
    (halted : system.Halted id) (apart : system.closed = true ∨ id ∉ rendezvous later) :
    (∀ run, now.worker.run? = some run → 0 < now.worker.publicationsLeft now.closed →
      ∃ old, system.worker.run? = some old ∧ old.job = run.job) ∧
    ∀ event ∈ later, ∀ ticket, event.ticket? = some ticket →
      ∃ run, system.worker.run? = some run ∧ run.job.ticket = ticket := by
  induction onward with
  | start => exact ⟨fun run there _ => ⟨run, there, rfl⟩, by simp⟩
  | next action earlier step ih =>
    rw [rendezvous_append, List.mem_append, not_or] at apart
    have apart_before := apart.imp_right And.left
    obtain ⟨own, traces⟩ := ih apart_before
    obtain ⟨still, -, -⟩ := earlier.halted orderly halted apart_before
    have present := earlier.orderly orderly
    have moves := present.moves step
    have spends := (still.spends present step).2
    constructor
    · intro run there left
      obtain ⟨middle, before, job⟩ := System.same_job moves there left
      obtain ⟨old, first, same⟩ := own middle before (by omega)
      exact ⟨old, first, same.trans job⟩
    · intro event member ticket trace
      rcases List.mem_append.mp member with old | new
      · exact traces event old ticket trace
      · obtain ⟨left, middle, before, ticketed⟩ := System.run_of_trace moves new trace
        obtain ⟨old, first, same⟩ := own middle before left
        exact ⟨old, first, by rw [same, ticketed]⟩

/-- A worker that has been told to stop halts. -/
theorem Schedule.halts (onward : Schedule system actions now later) (orderly : system.Orderly)
    (halted : system.Halted id) (apart : system.closed = true ∨ id ∉ rendezvous later) :
    Halts system later := by
  obtain ⟨-, executed, published⟩ := onward.halted orderly halted apart
  have instructions := Worker.instructionsLeft_le system.closed system.worker
  have publications := Worker.publicationsLeft_le system.closed system.worker
  exact ⟨by omega, by omega, (onward.halted_own orderly halted apart).2⟩

end TapeMachine.Live
