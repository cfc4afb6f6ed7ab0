import TapeMachine.Proofs.Live.Calm
import TapeMachine.Proofs.Live.Failing

namespace TapeMachine.Live

namespace RestartStage

/-- The restart may still find that its program cannot be stored, or it has found that. -/
def unstored : RestartStage → Bool
  | locking _ | checking _ | stopping _ | storing _ | unlocking (.error .poisoned)
  | finished (.error .poisoned) => true
  | _ => false

theorem unstored_of_error {stage : RestartStage} (fails : stage.error? = some .poisoned) :
    stage.unstored = true := by
  unfold error? at fails
  split at fails
  · obtain rfl := Option.some.inj fails
    rfl
  · obtain rfl := Option.some.inj fails
    rfl
  · cases fails

/-- A restart that has stored its program does not fail for the program cell. -/
theorem Next.stored {system : System} {stage next : RestartStage} (goes : stage.Next system next)
    (stored : stage.unstored = false) : next.unstored = false := by
  cases goes with
  | turn turns =>
    cases turns with
    | turned_away | returned | late => rfl
    | refused | allowed | unstored => cases stored
  | lock | raise | store => cases stored
  | park | meet | clear => rfl
  | @unlock result => rcases result with (error | _ | _) | _ <;> first | rfl | cases stored

/-- Where a restart can be that has raised the flag. -/
def hasRaised : RestartStage → Bool
  | locking _ | checking _ | stopping _ | unlocking (.error (.invalid _))
  | finished (.error (.invalid _)) => false
  | _ => true

theorem hasRaised_of_raised {stage : RestartStage} (raised : stage.raised = true) :
    stage.hasRaised = true := by
  cases stage <;> first | rfl | cases raised

theorem Next.hasRaised {system : System} {stage next : RestartStage} (goes : stage.Next system next)
    (raised : stage.hasRaised = true) : next.hasRaised = true := by
  cases goes with
  | turn turns =>
    cases turns with
    | unstored | turned_away | returned | late => rfl
    | refused | allowed => cases raised
  | lock | raise => cases raised
  | store | park | meet | clear => rfl
  | @unlock result => rcases result with (error | _ | _) | _ <;> first | rfl | cases raised

end RestartStage

namespace Worker

/-- How many steps the worker takes at most until it has left a run that is told to stop. -/
def toGo : Worker → Nat
  | checkingClosed _ => 5
  | announcing _ => 4
  | stepping _ => 3
  | reporting _ => 2
  | checkingStop _ | concluding _ _ => 1
  | _ => 0

theorem toGo_le (worker : Worker) : worker.toGo ≤ 5 := by
  cases worker <;> simp [toGo]

theorem toGo_eq_zero_iff {worker : Worker} : worker.toGo = 0 ↔ worker.run? = none := by
  cases worker <;> simp [toGo, run?]

/-- The worker is past its looks at the flags in a round of the loop that may be the last one of its
run. -/
def closing (closed : Bool) : Worker → Bool
  | checkingClosed _ => !closed
  | announcing _ | stepping _ | concluding _ _ => true
  | _ => false

/-- A shutdown leaves fewer rounds to go. -/
theorem closing_of_closed {worker : Worker} (closed : Bool) (closes : worker.closing true = true) :
    worker.closing closed = true := by
  cases worker <;> first | rfl | cases closes

end Worker

def Action.isWork : Action → Bool
  | .work => true
  | _ => false

/-- How many steps the worker has taken. -/
def works (actions : List Action) : Nat := actions.countP Action.isWork

theorem works_append (actions more : List Action) : works (actions ++ more) = works actions + works more :=
  List.countP_append

namespace System

variable {system later : System} {action : Action} {events : List Event} {met : List Nat} {id : Nat}
  {stage : RestartStage}

/-- From the moment on at which a restart finds its program cell poisoned, no restart is on its way to the
barrier. -/
theorem Isolated.stuck (isolated : system.Isolated met) {program : Program}
    (call : system.calls[id]? = some (.restart (.storing program)))
    (poisoned : system.program.poisoned = true) : system.Stuck := by
  refine ⟨isolated.flag id _ call rfl, poisoned, ?_⟩
  intro other found there locked
  obtain rfl := isolated.orderly.same_holder call rfl there locked
  obtain rfl := Call.restart.inj (Option.some.inj (call.symm.trans there))
  rfl

/-- Whoever has failed for the program cell has left the flag up. -/
def Sealed (system : System) : Prop :=
  ∀ (id : Nat) (stage : RestartStage), system.calls[id]? = some (.restart stage) →
    stage.error? = some .poisoned → system.Stuck

theorem Sealed.step (shut : system.Sealed) (isolated : system.Isolated met)
    (moves : Moves system action later events) : later.Sealed := by
  intro id stage there fails
  rcases restart_before moves there with ⟨before, call, rfl | goes⟩ | made
  · exact (shut id stage call fails).step moves
  · cases goes with
    | turn turns =>
      cases turns with
      | unstored poisoned => exact (isolated.stuck call poisoned).step moves
      | refused | allowed | turned_away | returned | late => cases fails
    | @unlock result =>
      refine (shut id _ call ?_).step moves
      cases result <;> exact fails
    | lock | raise | store | park | meet | clear => cases fails
  · rcases restart_of_made made rfl with ⟨program, rfl⟩ | ⟨error, rfl⟩ <;> cases fails

/-- No run begins while the program cell is poisoned. -/
theorem idle_of_loading (poisoned : system.program.poisoned = true) (loading : system.worker = .loading)
    (step : system.perform? .work = some (later, events)) : later.worker = .arriving := by
  simp only [perform?, workerStep?, loading, SharedCell.load?, poisoned, if_true, Option.some.injEq,
    Prod.mk.injEq] at step
  rw [← step.1]
  rfl

/-- The worker leaves the run in progress by the steps that it has to go, and there is no other one. -/
theorem Stuck.spends (stuck : system.Stuck) (orderly : system.Orderly)
    (step : system.perform? action = some (later, events)) :
    later.worker.toGo = 0 ∨ works [action] + later.worker.toGo ≤ system.worker.toGo := by
  cases orderly.moves step with
  | turn turns =>
    change Worker.toGo _ = 0 ∨ 1 + Worker.toGo _ ≤ _
    generalize system.worker = worker at turns
    cases turns with
    | unstopped going => cases stuck.stop.symm.trans going
    | unclosed | ready => exact .inr (by simp [moveWorker, Worker.toGo])
    | start | enter | idle | stopped | shut | turned_away | go_on | leave | exit => exact .inl rfl
  | load loading =>
    left
    rw [idle_of_loading stuck.poisoned loading step]
    rfl
  | publish publishes =>
    change Worker.toGo _ = 0 ∨ 1 + Worker.toGo _ ≤ _
    generalize system.worker = worker at publishes
    cases publishes with
    | announce | report => exact .inr (by simp [Worker.toGo])
    | conclude => exact .inl rfl
  | execute stepping | conclude stepping =>
    right
    rw [stepping]
    simp [works, Action.isWork, Worker.toGo]
  | give_up | fail | crash | park_worker => exact .inl rfl
  | meet _ _ call pending =>
    have waits := stuck.futile _ _ call (RestartStage.locked_of_pending pending)
    cases (RestartStage.not_futile_of_pending pending).symm.trans waits
  | request made =>
    right
    cases action with
    | requestRestart | requestShutdown => exact Nat.le_of_eq (Nat.zero_add _)
    | work | proceed | poisonState | poisonProgram | feed => cases made
  | _ => exact .inr (Nat.le_of_eq (Nat.zero_add _))

/-- In front of a poisoned program cell nobody meets anybody. -/
theorem Stuck.apart (stuck : system.Stuck) (moves : Moves system action later events) :
    rendezvous events = [] := by
  by_contra some_met
  obtain ⟨id, stage, -, call, pending, -⟩ := meets_of_rendezvous moves some_met
  have waits := stuck.futile id stage call (RestartStage.locked_of_pending pending)
  cases (RestartStage.not_futile_of_pending pending).symm.trans waits

/-- A worker that has been told to stop does not get into another round of the loop. -/
theorem Halted.closing_before (halted : system.Halted id) (moves : Moves system action later events)
    (closes : later.worker.closing later.closed = true) :
    system.worker.closing system.closed = true := by
  cases moves with
  | turn turns =>
    change Worker.closing system.closed _ = true at closes
    generalize system.worker = worker at turns
    cases turns with
    | unstopped going => simp [moveWorker, Worker.closing, halted.closed_of_unstopped going] at closes
    | unclosed unclosed => simp [Worker.closing, unclosed]
    | ready => rfl
    | start | enter | idle | stopped | shut | turned_away | go_on | leave | exit => cases closes
  | publish publishes =>
    change Worker.closing system.closed _ = true at closes
    generalize system.worker = worker at publishes
    cases publishes with
    | announce => rfl
    | report | conclude => cases closes
  | conclude stepping =>
    rw [stepping]
    rfl
  | load | give_up | execute | fail | crash | park_worker | meet => cases closes
  | close => exact Worker.closing_of_closed system.closed closes
  | _ => exact closes

/-- A terminal status is published at the end of a round of the loop. -/
theorem Orderly.closing_of_terminal (orderly : system.Orderly)
    (step : system.perform? action = some (later, events)) {ticket : Nat} {publication : Publication}
    (published : .published ticket publication ∈ events)
    (terminal : publication.snapshot.status.isTerminal = true) :
    system.worker.closing system.closed = true := by
  have own {run : Run} {status : Status} {next : Worker}
      (publishes : system.worker.Publishes run status next)
      (step : system.perform? .work = some (later, events)) :
      system.worker.closing system.closed = true := by
    obtain ⟨notes, silent, rfl⟩ := events_of_publishes publishes step
    rcases List.mem_cons.mp published with same | note
    · obtain ⟨-, rfl⟩ := Event.published.inj same
      generalize system.worker = worker at publishes
      cases publishes with
      | announce | report => cases terminal
      | conclude => rfl
    · cases (silent _ note).1
  have untold (nothing : ∀ event ∈ events, event.ticket? = none) :
      system.worker.closing system.closed = true := by
    cases nothing _ published
  cases orderly.moves step with
  | publish publishes | give_up publishes => exact own publishes step
  | execute stepping ran =>
    obtain rfl := events_of_execution stepping ran step
    simp at published
  | turn _ silent | load _ _ silent | conclude _ _ _ silent | fail _ silent | stop _ silent =>
    exact untold fun event member => (silent event member).1
  | meet _ _ _ _ _ _ silent => exact untold silent
  | _ => cases published

/-- Nothing that the parties share has changed, but perhaps the stop flag and the lock, and the worker is
where it was. -/
structure Untouched (before after : System) : Prop where
  program : after.program = before.program
  state : after.state = before.state
  barrier : after.barrier = before.barrier
  closed : after.closed = before.closed
  stream : after.stream = before.stream
  worker : after.worker = before.worker

/-- A restart that neither stores its program nor comes to the barrier touches nothing. -/
theorem untouched_of_proceed (call : system.calls[id]? = some (.restart stage))
    (apart : stage.pending = false) (moves : Moves system (.proceed id) later events) :
    system.Untouched later ∧ (later.stop = system.stop ∧ events = [] ∨
      (∃ program, stage = .stopping program) ∨ stage = .clearing) ∨
    later.calls[id]? = some (.restart .arriving) := by
  have same {found : RestartStage} (there : system.calls[id]? = some (.restart found)) : stage = found :=
    Call.restart.inj (Option.some.inj (call.symm.trans there))
  cases moves with
  | park_call there =>
    obtain rfl := same there
    cases apart
  | meet way _ there pending =>
    obtain rfl := Action.proceed.inj (way.resolve_left (by simp))
    obtain rfl := same there
    cases pending.symm.trans apart
  | store there => exact .inr (setCall_self there)
  | stop there => exact .inl ⟨⟨rfl, rfl, rfl, rfl, rfl, rfl⟩, .inr (.inl ⟨_, same there⟩)⟩
  | clear there => exact .inl ⟨⟨rfl, rfl, rfl, rfl, rfl, rfl⟩, .inr (.inr (same there))⟩
  | call | lock | unlock => exact .inl ⟨⟨rfl, rfl, rfl, rfl, rfl, rfl⟩, .inl ⟨rfl, rfl⟩⟩
  | close there | halt there | break_barrier there | join there => cases there.symm.trans call
  | request made => cases made

theorem executes_of_ready {run : Run} (ready : (run.machine.step system.stream).outcome ≠ .waiting) :
    (system.execute? run).isSome := by
  rcases result : run.machine.step system.stream with ⟨outcome, machine, rest⟩
  rw [result] at ready
  cases outcome with
  | waiting => exact absurd rfl ready
  | ended | ran => simp [execute?, result]
  | failed error => cases own : error.isProgramFailure <;> simp [execute?, result, own]

/-- A read that finds nothing goes on as soon as there is anything to read. -/
theorem Starves.fed (starves : system.Starves) {items : List StreamItem} (some_fed : items ≠ []) :
    ({ system with stream := system.stream.feed items }.workerStep?).isSome := by
  obtain ⟨run, place, -, blocked⟩ := starves
  have waits : (run.machine.step system.stream).outcome = .waiting := by
    by_contra ready
    have executes := executes_of_ready ready
    simp only [workerStep?, place] at blocked
    rw [blocked] at executes
    cases executes
  simp only [workerStep?, place]
  exact executes_of_ready ((Machine.reads_of_waiting waits).2 items some_fed)

/-- In a run the worker is held up by reads only. -/
theorem works_of_run {run : Run} (there : system.worker.run? = some run) :
    (system.workerStep?).isSome ∨ system.Starves := by
  rcases place : system.worker with _ | _ | _ | run | run | run | run | run | ⟨run, status⟩ | _ | _ |
    _ | _ | _ | _
  case stepping =>
    by_cases waits : (run.machine.step system.stream).outcome = .waiting
    · exact .inr (starves_of_waiting place waits)
    · left
      rw [workerStep?, place]
      exact executes_of_ready waits
  case checkingStop | checkingClosed | announcing =>
    left
    simp only [workerStep?, place]
    split <;> rfl
  case reporting | concluding =>
    left
    simp [workerStep?, place]
  all_goals
    rw [place] at there
    cases there

end System

section

variable {system middle now : System} {actions since more : List Action} {events before later : List Event}
  {id : Nat}

theorem Schedule.stuck (onward : Schedule system actions now later) (orderly : system.Orderly)
    (stuck : system.Stuck) : now.Stuck ∧ rendezvous later = [] := by
  induction onward with
  | start => exact ⟨stuck, rfl⟩
  | next action earlier step ih =>
    have moves := (earlier.orderly orderly).moves step
    obtain ⟨still, apart⟩ := ih
    refine ⟨still.step moves, ?_⟩
    rw [rendezvous_append, apart, still.apart moves, List.nil_append]

/-- After so many steps of the worker as it has to go there is no run, and there is none ever after. -/
theorem Schedule.spends_of_stuck (onward : Schedule system actions now later) (orderly : system.Orderly)
    (stuck : system.Stuck) :
    now.worker.toGo = 0 ∨ works actions + now.worker.toGo ≤ system.worker.toGo := by
  induction onward with
  | start => exact .inr (Nat.le_of_eq (Nat.zero_add _))
  | next action earlier step ih =>
    have spends := (earlier.stuck orderly stuck).1.spends (earlier.orderly orderly) step
    rw [works_append]
    omega

/-- A worker that has been told to stop executes nothing in a run that begins after that. -/
theorem Schedule.idle_of_began (onward : Schedule system actions now later) (orderly : system.Orderly)
    (halted : system.Halted id) (apart : system.closed = true ∨ id ∉ rendezvous later) {ticket : Nat}
    (began : .began ticket ∈ later) : now.worker.instructionsLeft now.closed = 0 := by
  induction onward with
  | start => cases began
  | next action earlier step ih =>
    rw [rendezvous_append, List.mem_append, not_or] at apart
    have apart_before := apart.imp_right And.left
    obtain ⟨still, -, -⟩ := earlier.halted orderly halted apart_before
    rcases List.mem_append.mp began with old | new
    · have nothing := ih apart_before old
      have spends := (still.spends (earlier.orderly orderly) step).1
      omega
    · obtain ⟨run, checks⟩ := System.checking_of_began step new
      rw [checks]
      rfl

/-- A worker that has been told to stop publishes a terminal status only if it was in its last round. -/
theorem Schedule.closing_of_terminal (onward : Schedule system actions now later)
    (orderly : system.Orderly) (halted : system.Halted id)
    (apart : system.closed = true ∨ id ∉ rendezvous later) :
    (now.worker.closing now.closed = true → system.worker.closing system.closed = true) ∧
    ∀ ticket publication, .published ticket publication ∈ later →
      publication.snapshot.status.isTerminal = true → system.worker.closing system.closed = true := by
  induction onward with
  | start => exact ⟨fun closes => closes, by simp⟩
  | next action earlier step ih =>
    rw [rendezvous_append, List.mem_append, not_or] at apart
    have apart_before := apart.imp_right And.left
    obtain ⟨still, -, -⟩ := earlier.halted orderly halted apart_before
    have present := earlier.orderly orderly
    obtain ⟨closes, published⟩ := ih apart_before
    refine ⟨fun now_closes => closes (still.closing_before (present.moves step) now_closes), ?_⟩
    intro ticket publication member terminal
    rcases List.mem_append.mp member with old | new
    · exact published ticket publication old terminal
    · exact closes (present.closing_of_terminal step new terminal)

/-- A restart that fails for the program cell in the end has not stored its program before. -/
theorem Schedule.unstored_before {stage final : RestartStage} (onward : Schedule system actions now later)
    (orderly : system.Orderly) (call : system.calls[id]? = some (.restart stage))
    (ended : now.calls[id]? = some (.restart final)) (fails : final.error? = some .poisoned) :
    stage.unstored = true := by
  by_contra stored
  obtain ⟨found, there, kept⟩ := onward.restart_keeps (fun stage => stage.unstored = false) orderly call
    (by simpa using stored) fun _ _ _ still goes => goes.stored still
  obtain rfl := Call.restart.inj (Option.some.inj (there.symm.trans ended))
  cases (RestartStage.unstored_of_error fails).symm.trans kept

end

section

variable {name : String} {first : Option Program} {stream : ByteStream} {system middle now : System}
  {actions since more : List Action} {events before later : List Event} {id : Nat}

theorem Schedule.shut (history : Schedule (.start name first stream) actions system events) :
    system.Sealed := by
  induction history with
  | start =>
    intro id stage there
    cases there
  | next action earlier step ih =>
    have isolated := earlier.isolated (.start name first stream)
    exact ih.step isolated (isolated.orderly.moves step)

/-- From the moment on at which the restart raises the flag the flag is up, if the restart fails for the
program cell in the end. -/
theorem Schedule.stop_held {stage final : RestartStage}
    (history : Schedule (.start name first stream) actions system events)
    (call : system.calls[id]? = some (.restart stage)) (raised : stage.raised = true)
    (onward : Schedule system since middle before) (further : Schedule middle more now later)
    (ended : now.calls[id]? = some (.restart final)) (fails : final.error? = some .poisoned) :
    middle.stop = true := by
  have isolated : middle.Isolated _ := (history.trans onward).isolated (.start name first stream)
  have orderly := (history.isolated (.start name first stream)).orderly
  obtain ⟨found, there, place⟩ := onward.restart_keeps (fun stage => stage.hasRaised = true) orderly
    call (RestartStage.hasRaised_of_raised raised) fun _ _ _ still goes => goes.hasRaised still
  have unstored := further.unstored_before isolated.orderly there ended fails
  cases found with
  | storing program => exact isolated.flag id _ there rfl
  | unlocking result | finished result =>
    rcases result with (error | _ | _) | _
    case error.poisoned => exact ((history.trans onward).shut id _ there rfl).stop
    all_goals cases unstored
  | locking | checking | stopping => cases place
  | arriving | waiting | returning | clearing => cases unstored

end

end TapeMachine.Live
