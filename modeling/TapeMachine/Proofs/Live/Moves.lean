import TapeMachine.Proofs.Live.Schedule

namespace TapeMachine.Live

namespace RestartStage

def locked : RestartStage → Bool
  | locking _ | finished _ => false
  | _ => true

/-- The program of the restart is stored, and its rendezvous is still to come. -/
def pending : RestartStage → Bool
  | arriving | waiting => true
  | _ => false

/-- The restart will not come to the barrier any more. -/
def past : RestartStage → Bool
  | returning | clearing | unlocking _ | finished _ => true
  | _ => false

/-- The program that the restart has not stored yet. -/
def program? : RestartStage → Option Program
  | locking program | checking program | stopping program | storing program => some program
  | _ => none

theorem locked_of_pending {stage : RestartStage} (pending : stage.pending = true) :
    stage.locked = true := by
  cases stage <;> first | rfl | cases pending

/-- Moves of a restart that read something shared and change nothing shared. -/
inductive Turns (system : System) : RestartStage → RestartStage → Prop
  | refused {program : Program} : system.closed = true →
      Turns system (.checking program) (.unlocking (.error .shutDown))
  | allowed {program : Program} : system.closed = false →
      Turns system (.checking program) (.stopping program)
  | unstored {program : Program} : system.program.poisoned = true →
      Turns system (.storing program) (.unlocking (.error .poisoned))
  | turned_away {stage : RestartStage} : stage.pending = true → system.barrier.broken = true →
      Turns system stage (.unlocking (.error .shutDown))
  | returned : system.closed = false → Turns system .returning .clearing
  | late : system.closed = true → Turns system .returning (.unlocking (.ok ()))

end RestartStage

namespace Worker

/-- Moves of the worker that read something shared and change nothing shared. -/
inductive Turns (system : System) : Worker → Worker → Prop
  | start : Turns system .starting .opening
  | enter : Turns system .opening .loading
  | idle : system.program.poisoned = true ∨ system.program.value = none →
      Turns system .loading .arriving
  | unstopped {run : Run} : system.stop = false →
      Turns system (.checkingStop run) (.checkingClosed run)
  | stopped {run : Run} : system.stop = true → Turns system (.checkingStop run) .arriving
  | unclosed {run : Run} : system.closed = false →
      Turns system (.checkingClosed run) (.announcing run)
  | shut {run : Run} : system.closed = true → Turns system (.checkingClosed run) .arriving
  | ready {run : Run} : Turns system (.announcing run) (.stepping run)
  | turned_away {worker : Worker} : system.barrier.broken = true →
      worker = .arriving ∨ worker = .waiting → Turns system worker .leaving
  | go_on : Turns system .returning .opening
  | leave {worker : Worker} : system.closed = true → worker = .opening ∨ worker = .returning →
      Turns system worker .leaving
  | exit : Turns system .leaving .gone

/-- The worker is about to publish a run under a status, and goes on to the last argument if the
state cell takes the snapshot. -/
inductive Publishes : Worker → Run → Status → Worker → Prop
  | announce {run : Run} : run.machine.awaitsInput = true →
      Publishes (.announcing run) run .waitingForInput (.stepping run)
  | report {run : Run} : Publishes (.reporting run) run .running (.checkingStop run)
  | conclude {run : Run} {status : Status} : Publishes (.concluding run status) run status .arriving

end Worker

theorem Worker.Turns.not_waiting {system : System} {worker next : Worker}
    (turns : worker.Turns system next) (waits : worker = .waiting) :
    system.barrier.broken = true := by
  subst waits
  cases turns with
  | turned_away broken => exact broken
  | leave _ there => rcases there with there | there <;> cases there

/-- A run that goes on is the same run, and is not told to stop. -/
theorem Worker.Turns.same_run {system : System} {worker next : Worker}
    (turns : worker.Turns system next) {run : Run} (there : next.run? = some run) :
    worker.run? = some run ∧ (worker = .checkingStop run → system.stop = false) := by
  cases turns with
  | unstopped going =>
    obtain rfl := Option.some.inj there
    exact ⟨rfl, fun _ => going⟩
  | unclosed | ready =>
    obtain rfl := Option.some.inj there
    exact ⟨rfl, fun same => by cases same⟩
  | start | enter | idle | stopped | shut | turned_away | go_on | leave | exit => cases there

/-- A run is published by the worker that is in it, and not before it has looked at the flag. -/
theorem Worker.Publishes.same_run {worker next : Worker} {run : Run} {status : Status}
    (publishes : worker.Publishes run status next) :
    worker.run? = some run ∧ (∀ other, worker ≠ .checkingStop other) ∧
      ∀ other, next.run? = some other → other = run := by
  cases publishes with
  | announce | report =>
    refine ⟨rfl, by simp, ?_⟩
    intro other there
    exact (Option.some.inj there).symm
  | conclude =>
    refine ⟨rfl, by simp, ?_⟩
    intro other there
    cases there

theorem Worker.Publishes.not_waiting {worker next : Worker} {run : Run} {status : Status}
    (publishes : worker.Publishes run status next) : worker ≠ .waiting := by
  cases publishes <;> simp

theorem RestartStage.Turns.locked {system : System} {stage next : RestartStage}
    (turns : stage.Turns system next) : stage.locked = true := by
  cases turns with
  | turned_away pending => exact RestartStage.locked_of_pending pending
  | _ => rfl

theorem RestartStage.Turns.not_waiting {system : System} {stage next : RestartStage}
    (turns : stage.Turns system next) (waits : stage = .waiting) :
    system.barrier.broken = true := by
  subst waits
  cases turns with
  | turned_away _ broken => exact broken

/-- How a run comes to rest under a status that is published. -/
def Concludes : Outcome → Status → Prop
  | .ended, status => status = .done
  | .failed error, status => error.isProgramFailure = true ∧ status = .error error.message
  | _, _ => False

/-- Events that are no trace of a program and no rendezvous. -/
def Silent (events : List Event) : Prop :=
  ∀ event ∈ events, event.ticket? = none ∧ event.rendezvous? = none

/-- Events that are traces of one program, and no rendezvous. -/
def TracesOf (ticket : Nat) (events : List Event) : Prop :=
  ∀ event ∈ events, event.rendezvous? = none ∧ ∀ other, event.ticket? = some other → other = ticket

/-- The state cell after a rendezvous. -/
def Renewed (before after : SharedCell Snapshot) : Prop :=
  before.poisoned = false ∧ after = ⟨.fresh .running, false⟩ ∨
    before.poisoned = true ∧ after = before

/-- All that a step can do. -/
inductive Moves (system : System) : Action → System → List Event → Prop
  | turn {next : Worker} {events : List Event} : system.worker.Turns system next → Silent events →
      Moves system .work (system.moveWorker next) events
  | load {job : Job} {events : List Event} : system.worker = .loading →
      system.program.value = some job → Silent events →
      Moves system .work (system.moveWorker (.checkingStop (.ofJob job))) events
  | publish {run : Run} {status : Status} {next : Worker} {events : List Event} :
      system.worker.Publishes run status next → system.state.poisoned = false →
      TracesOf run.job.ticket events →
      Moves system .work { system with state := ⟨run.snapshot status, false⟩, worker := next } events
  | give_up {run : Run} {status : Status} {next : Worker} {events : List Event} :
      system.worker.Publishes run status next → system.state.poisoned = true →
      TracesOf run.job.ticket events → Moves system .work (system.moveWorker .arriving) events
  | execute {run : Run} {op : Instruction} {machine : Machine} {rest : ByteStream}
      {events : List Event} : system.worker = .stepping run →
      run.machine.step system.stream = ⟨.ran op, machine, rest⟩ → TracesOf run.job.ticket events →
      Moves system .work { system with stream := rest, worker := .reporting ⟨run.job, machine⟩ } events
  | conclude {run : Run} {outcome : Outcome} {rest : ByteStream} {status : Status}
      {events : List Event} : system.worker = .stepping run →
      run.machine.step system.stream = ⟨outcome, run.machine, rest⟩ → Concludes outcome status →
      Silent events →
      Moves system .work { system with stream := rest, worker := .concluding run status } events
  | fail {run : Run} {rest : ByteStream} {events : List Event} : system.worker = .stepping run →
      Silent events → Moves system .work { system with stream := rest, worker := .crashing } events
  | crash : system.worker = .crashing →
      Moves system .work { system with state := system.state.poison, worker := .arriving } []
  | park_worker : system.worker = .arriving → system.barrier.broken = false →
      Moves system .work
        { system.moveWorker .waiting with barrier := ⟨some .worker, false⟩ } []
  | park_call {id : Nat} : system.calls[id]? = some (.restart .arriving) →
      system.barrier.broken = false →
      Moves system (.proceed id)
        { system.moveRestart id .waiting with barrier := ⟨some (.call id), false⟩ } []
  | meet {action : Action} {id : Nat} {stage : RestartStage} {state : SharedCell Snapshot}
      {events : List Event} : action = .work ∨ action = .proceed id →
      system.worker = .arriving ∨ system.worker = .waiting →
      system.calls[id]? = some (.restart stage) → stage.pending = true →
      Renewed system.state state → rendezvous events = [id] →
      (∀ event ∈ events, event.ticket? = none) →
      Moves system action { system.moveRestart id .returning with
        stop := false, barrier := ⟨none, false⟩, state := state, worker := .returning } events
  | call {id : Nat} {stage next : RestartStage} : system.calls[id]? = some (.restart stage) →
      stage.Turns system next → Moves system (.proceed id) (system.moveRestart id next) []
  | lock {id : Nat} {program : Program} :
      system.calls[id]? = some (.restart (.locking program)) → system.lock = none →
      Moves system (.proceed id) { system.moveRestart id (.checking program) with lock := some id } []
  | stop {id : Nat} {program : Program} {events : List Event} :
      system.calls[id]? = some (.restart (.stopping program)) → Silent events →
      Moves system (.proceed id) { system.moveRestart id (.storing program) with stop := true } events
  | store {id : Nat} {program : Program} :
      system.calls[id]? = some (.restart (.storing program)) → system.program.poisoned = false →
      Moves system (.proceed id)
        { system.moveRestart id .arriving with program := ⟨some ⟨id + 1, program⟩, false⟩ } []
  | clear {id : Nat} : system.calls[id]? = some (.restart .clearing) →
      Moves system (.proceed id) { system.moveRestart id (.unlocking (.ok ())) with stop := false } []
  | unlock {id : Nat} {result : Except RestartError Unit} :
      system.calls[id]? = some (.restart (.unlocking result)) →
      Moves system (.proceed id) { system.moveRestart id (.finished result) with lock := none } []
  | close {id : Nat} : system.calls[id]? = some (.shutdown .closing) →
      Moves system (.proceed id) { system.setCall id (.shutdown .stopping) with closed := true } []
  | halt {id : Nat} : system.calls[id]? = some (.shutdown .stopping) →
      Moves system (.proceed id) { system.setCall id (.shutdown .breaking) with stop := true } []
  | break_barrier {id : Nat} : system.calls[id]? = some (.shutdown .breaking) →
      Moves system (.proceed id) { system.setCall id (.shutdown .joining) with
        barrier := { system.barrier with broken := true } } []
  | join {id : Nat} : system.calls[id]? = some (.shutdown .joining) →
      Moves system (.proceed id) (system.setCall id (.shutdown .finished)) []
  | request {action : Action} {call : Call} : action.call? = some call →
      Moves system action (system.addCall call) []
  | poison_state : Moves system .poisonState { system with state := system.state.poison } []
  | poison_program :
      Moves system .poisonProgram { system with program := system.program.poison } []
  | feed {items : List StreamItem} :
      Moves system (.feed items) { system with stream := system.stream.feed items } []

end TapeMachine.Live
