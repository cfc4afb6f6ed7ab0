import TapeMachine.Proofs.Live.Attendance
import TapeMachine.Proofs.Live.Traces
import TapeMachine.Proofs.Live.Solo

namespace TapeMachine

/-- A read that finds nothing finds something as soon as anything has been added. -/
theorem Machine.reads_of_waiting {machine : Machine} {stream : ByteStream}
    (waits : (machine.step stream).outcome = .waiting) :
    machine.ReadsStream ∧ ∀ items, items ≠ [] →
      (machine.step (stream.feed items)).outcome ≠ .waiting := by
  have reads : machine.ReadsStream := by
    by_contra apart
    obtain ⟨outcome, later, ready, -, same⟩ := step_apart apart
    rw [same] at waits
    exact ready waits
  refine ⟨reads, ?_⟩
  intro items some_fed
  rw [step_reading reads]
  rcases items with _ | ⟨item, items⟩
  · exact absurd rfl some_fed
  rw [step_reading reads] at waits
  obtain ⟨before, ending⟩ := stream
  rcases before with _ | ⟨first, before⟩
  · cases item <;> simp [ByteStream.feed, ByteStream.read]
  · cases first <;> simp [ByteStream.read] at waits

namespace Live

namespace System

variable {system later : System} {run : Run} {events : List Event} {id : Nat}

/-- By its own steps the worker comes to the barrier and meets a restart. `steps` bounds the steps that
it takes, and `instructions` those of them that execute an instruction. -/
def Joins (id steps instructions : Nat) (system : System) : Prop :=
  ∃ count, count ≤ steps ∧ rendezvous (system.solo count).2 = [id] ∧
    executions (system.solo count).2 ≤ instructions

theorem Joins.of_step {steps instructions : Nat} (step : system.workerStep? = some (later, events))
    (apart : rendezvous events = []) (joins : later.Joins id steps instructions) :
    system.Joins id (steps + 1) (instructions + executions events) := by
  obtain ⟨count, bound, met, few⟩ := joins
  refine ⟨count + 1, by omega, ?_, ?_⟩
  · rw [solo_succ step, rendezvous_append, apart, met, List.nil_append]
  · rw [solo_succ step, executions_append]
    omega

theorem Joins.mono {steps instructions more further : Nat} (joins : system.Joins id steps instructions)
    (longer : steps ≤ more) (larger : instructions ≤ further) : system.Joins id more further := by
  obtain ⟨count, bound, met, few⟩ := joins
  exact ⟨count, by omega, met, by omega⟩

/-- A restart waits at the barrier, and nothing is shut down. -/
structure Awaited (id : Nat) (system : System) : Prop where
  stop : system.stop = true
  unclosed : system.closed = false
  barrier : system.barrier = ⟨some (.call id), false⟩

namespace Awaited

theorem move (awaited : system.Awaited id) (state : SharedCell Snapshot) (stream : ByteStream)
    (worker : Worker) :
    { system with state := state, stream := stream, worker := worker }.Awaited id :=
  ⟨awaited.stop, awaited.unclosed, awaited.barrier⟩

theorem joins_of_arriving (awaited : system.Awaited id) (arrives : system.worker = .arriving) :
    system.Joins id 1 0 := by
  obtain ⟨state, notes, renewed, -, silent⟩ := system.renew_eq
  have step : ∃ later, system.workerStep? = some (later, .met (.call id) .worker :: notes) := by
    simp [workerStep?, arrives, arrive, awaited.barrier, renewed]
  obtain ⟨later, step⟩ := step
  refine ⟨1, Nat.le_refl 1, ?_, ?_⟩
  · rw [solo_one step]
    exact (meeting_events silent rfl rfl).1
  · rw [solo_one step]
    have untold := (@meeting_events (.met (.call id) .worker) _ id silent rfl rfl).2
    exact Nat.le_of_eq (counts_of_untold untold).1

theorem joins_of_checkingStop (awaited : system.Awaited id)
    (place : system.worker = .checkingStop run) : system.Joins id 2 0 := by
  have step : system.workerStep? = some (system.abandon run) := by
    rw [workerStep?, place]
    simp [awaited.stop]
  exact .of_step step rfl (joins_of_arriving (awaited.move _ _ _) rfl)

/-- The worker loads a program, or finds none, and does not run it. -/
theorem joins_of_loading (awaited : system.Awaited id) (place : system.worker = .loading) :
    system.Joins id 3 0 := by
  have idle : (system.moveWorker .arriving).Joins id 2 0 :=
    (joins_of_arriving (awaited.move _ _ _) rfl).mono (by omega) (by omega)
  rcases loaded : system.program.load? with _ | _ | job
  · have step : ∃ entry, system.workerStep? = some (system.moveWorker .arriving, [.logged entry]) := by
      simp [workerStep?, place, loaded]
    obtain ⟨entry, step⟩ := step
    exact .of_step step rfl idle
  · have step : system.workerStep? = some (system.moveWorker .arriving, []) := by
      simp [workerStep?, place, loaded]
    exact .of_step step rfl idle
  · have step : ∃ entry, system.workerStep? = some (system.moveWorker (.checkingStop (.ofJob job)),
        [.began job.ticket, .logged entry]) := by
      simp [workerStep?, place, loaded]
    obtain ⟨entry, step⟩ := step
    exact .of_step step rfl (joins_of_checkingStop (awaited.move _ _ _) rfl)

theorem joins_of_opening (awaited : system.Awaited id) (place : system.worker = .opening) :
    system.Joins id 4 0 := by
  have step : system.workerStep? = some (system.moveWorker .loading, []) := by
    rw [workerStep?, place]
    simp [awaited.unclosed]
  exact .of_step step rfl (joins_of_loading (awaited.move _ _ _) rfl)

theorem joins_of_starting (awaited : system.Awaited id) (place : system.worker = .starting) :
    system.Joins id 5 0 := by
  have step : ∃ entry, system.workerStep? = some (system.moveWorker .opening, [.logged entry]) := by
    simp [workerStep?, place]
  obtain ⟨entry, step⟩ := step
  exact .of_step step rfl (joins_of_opening (awaited.move _ _ _) rfl)

theorem joins_of_returning (awaited : system.Awaited id) (place : system.worker = .returning) :
    system.Joins id 5 0 := by
  have step : system.workerStep? = some (system.moveWorker .opening, []) := by
    rw [workerStep?, place]
    simp [awaited.unclosed]
  exact .of_step step rfl (joins_of_opening (awaited.move _ _ _) rfl)

theorem joins_of_crashing (awaited : system.Awaited id) (place : system.worker = .crashing) :
    system.Joins id 2 0 := by
  refine .of_step (by rw [workerStep?, place]) rfl ?_
  exact joins_of_arriving (awaited.move _ _ _) rfl

/-- A publication is taken, or the run is given up. -/
theorem joins_of_publishes {status : Status} {next : Worker} {steps instructions : Nat}
    (awaited : system.Awaited id) (publishes : system.worker.Publishes run status next)
    (some_steps : 1 ≤ steps)
    (onward : ∀ state : SharedCell Snapshot,
      { system with state := state, worker := next }.Joins id steps instructions) :
    system.Joins id (steps + 1) instructions := by
  have step := step_of_publishes publishes
  rcases poisoned : system.state.poisoned
  · simp only [publish, SharedCell.store?, poisoned] at step
    exact .of_step step rfl (onward _)
  · simp only [publish, SharedCell.store?, poisoned] at step
    have idle : (system.moveWorker .arriving).Joins id steps instructions :=
      (joins_of_arriving (awaited.move _ _ _) rfl).mono some_steps (by omega)
    exact .of_step step rfl idle

theorem joins_of_concluding {status : Status} (awaited : system.Awaited id)
    (place : system.worker = .concluding run status) : system.Joins id 2 0 := by
  refine awaited.joins_of_publishes (by rw [place]; exact .conclude) (Nat.le_refl 1) ?_
  intro state
  exact joins_of_arriving (awaited.move _ _ _) rfl

theorem joins_of_reporting (awaited : system.Awaited id) (place : system.worker = .reporting run) :
    system.Joins id 3 0 := by
  refine awaited.joins_of_publishes (by rw [place]; exact .report) (by omega) ?_
  intro state
  exact joins_of_checkingStop (awaited.move _ _ _) rfl

/-- The instruction at hand is the last one. A run that ends or fails executes nothing. -/
theorem joins_of_stepping (awaited : system.Awaited id) (place : system.worker = .stepping run)
    (ready : (run.machine.step system.stream).outcome ≠ .waiting) : system.Joins id 4 1 := by
  rcases result : run.machine.step system.stream with ⟨outcome, machine, rest⟩
  rw [result] at ready
  have rests {worker : Worker} (step : ∃ entry, system.workerStep? =
        some ({ system with stream := rest, worker := worker }, [.logged entry]))
      (onward : { system with stream := rest, worker := worker }.Joins id 2 0) :
      system.Joins id 4 1 := by
    obtain ⟨entry, step⟩ := step
    have joins := Joins.of_step step rfl onward
    exact joins.mono (by omega) (by simp [executions, Event.isExecution])
  cases outcome with
  | waiting => exact absurd rfl ready
  | ran op =>
    have step : system.workerStep? =
        some ({ system with stream := rest, worker := .reporting ⟨run.job, machine⟩ },
          [.executed run.job.ticket op]) := by
      simp [workerStep?, place, execute?, result]
    exact .of_step step rfl (joins_of_reporting (awaited.move _ _ _) rfl)
  | ended =>
    refine @rests (.concluding ⟨run.job, machine⟩ .done) ?_ ?_
    · simp [workerStep?, place, execute?, result, moveWorker]
    · exact joins_of_concluding (awaited.move _ _ _) rfl
  | failed error =>
    by_cases own : error.isProgramFailure = true
    · refine @rests (.concluding ⟨run.job, machine⟩ (.error error.message)) ?_ ?_
      · simp [workerStep?, place, execute?, result, own, moveWorker]
      · exact joins_of_concluding (awaited.move _ _ _) rfl
    · refine @rests .crashing ?_ ?_
      · simp [workerStep?, place, execute?, result, own, moveWorker]
      · exact joins_of_crashing (awaited.move _ _ _) rfl

end Awaited

/-- The worker is inside a read that finds nothing. -/
def Starves (system : System) : Prop :=
  ∃ run, system.worker = .stepping run ∧ run.machine.ReadsStream ∧ system.workerStep? = none

theorem starves_of_waiting (place : system.worker = .stepping run)
    (waits : (run.machine.step system.stream).outcome = .waiting) : system.Starves := by
  refine ⟨run, place, (Machine.reads_of_waiting waits).1, ?_⟩
  rcases result : run.machine.step system.stream with ⟨outcome, machine, rest⟩
  rw [result] at waits
  obtain rfl : outcome = .waiting := waits
  simp [workerStep?, place, execute?, result]

/-- By its own steps, without executing anything, the worker comes to a read that finds nothing, and
meets a restart as soon as there is anything to read. -/
def JoinsFed (id steps : Nat) (system : System) : Prop :=
  ∃ count, count ≤ steps ∧ rendezvous (system.solo count).2 = [] ∧
    executions (system.solo count).2 = 0 ∧ (system.solo count).1.Starves ∧
    ∀ items, items ≠ [] →
      { (system.solo count).1 with stream := (system.solo count).1.stream.feed items }.Joins id 4 1

/-- Whatever there is to read, the worker meets a restart. -/
def Comes (id steps : Nat) (system : System) : Prop :=
  system.Joins id (steps + 4) 1 ∨ system.JoinsFed id steps

theorem Joins.comes {steps instructions more : Nat} (joins : system.Joins id steps instructions)
    (longer : steps ≤ more + 4) (one : instructions ≤ 1) : system.Comes id more :=
  .inl (joins.mono longer one)

theorem Comes.of_step {steps : Nat} (step : system.workerStep? = some (later, events))
    (apart : rendezvous events = []) (idle : executions events = 0) (comes : later.Comes id steps) :
    system.Comes id (steps + 1) := by
  rcases comes with joins | ⟨count, bound, quiet, none_executed, fed⟩
  · have joined := joins.of_step step apart
    exact .inl (joined.mono (by omega) (by omega))
  · refine .inr ⟨count + 1, by omega, ?_⟩
    rw [solo_succ step, rendezvous_append, executions_append, apart, quiet, idle, none_executed]
    exact ⟨rfl, rfl, fed⟩

theorem Comes.mono {steps more : Nat} (comes : system.Comes id steps) (longer : steps ≤ more) :
    system.Comes id more := by
  rcases comes with joins | ⟨count, bound, rest⟩
  · exact .inl (joins.mono (by omega) (Nat.le_refl 1))
  · exact .inr ⟨count, by omega, rest⟩

namespace Awaited

theorem comes_of_stepping (awaited : system.Awaited id) (place : system.worker = .stepping run) :
    system.Comes id 0 := by
  by_cases waits : (run.machine.step system.stream).outcome = .waiting
  · refine .inr ⟨0, Nat.le_refl 0, rfl, rfl, starves_of_waiting place waits, ?_⟩
    intro items some_fed
    have fed := (Machine.reads_of_waiting waits).2 items some_fed
    exact (awaited.move _ _ _).joins_of_stepping place fed
  · exact .inl (awaited.joins_of_stepping place waits)

theorem comes_of_announcing (awaited : system.Awaited id) (place : system.worker = .announcing run) :
    system.Comes id 1 := by
  by_cases awaits : run.machine.awaitsInput = true
  · have step : system.workerStep? = some (system.publish run .waitingForInput (.stepping run)) := by
      rw [workerStep?, place]
      simp [awaits]
    rcases poisoned : system.state.poisoned
    · simp only [publish, SharedCell.store?, poisoned] at step
      exact .of_step step rfl rfl ((awaited.move _ _ _).comes_of_stepping rfl)
    · simp only [publish, SharedCell.store?, poisoned] at step
      have idle := joins_of_arriving (awaited.move system.state system.stream .arriving) rfl
      exact .of_step step rfl rfl (idle.comes (by omega) (by omega))
  · have step : system.workerStep? = some (system.moveWorker (.stepping run), []) := by
      rw [workerStep?, place]
      simp [awaits]
    exact .of_step step rfl rfl ((awaited.move _ _ _).comes_of_stepping rfl)

theorem comes_of_checkingClosed (awaited : system.Awaited id)
    (place : system.worker = .checkingClosed run) : system.Comes id 2 := by
  have step : system.workerStep? = some (system.moveWorker (.announcing run), []) := by
    rw [workerStep?, place]
    simp [awaited.unclosed]
  exact .of_step step rfl rfl ((awaited.move _ _ _).comes_of_announcing rfl)

/-- Wherever the worker is, it comes. -/
theorem comes (awaited : system.Awaited id) (present : system.worker ≠ .leaving ∧ system.worker ≠ .gone)
    (elsewhere : system.worker ≠ .waiting) : system.Comes id 2 := by
  rcases place : system.worker with _ | _ | _ | run | run | run | run | run | ⟨run, status⟩ | _ | _ |
    _ | _ | _ | _
  case starting => exact (awaited.joins_of_starting place).comes (by omega) (by omega)
  case opening => exact (awaited.joins_of_opening place).comes (by omega) (by omega)
  case loading => exact (awaited.joins_of_loading place).comes (by omega) (by omega)
  case checkingStop => exact (awaited.joins_of_checkingStop place).comes (by omega) (by omega)
  case checkingClosed => exact awaited.comes_of_checkingClosed place
  case announcing => exact (awaited.comes_of_announcing place).mono (by omega)
  case stepping => exact (awaited.comes_of_stepping place).mono (by omega)
  case reporting => exact (awaited.joins_of_reporting place).comes (by omega) (by omega)
  case concluding => exact (awaited.joins_of_concluding place).comes (by omega) (by omega)
  case crashing => exact (awaited.joins_of_crashing place).comes (by omega) (by omega)
  case arriving => exact (awaited.joins_of_arriving place).comes (by omega) (by omega)
  case waiting => exact absurd place elsewhere
  case returning => exact (awaited.joins_of_returning place).comes (by omega) (by omega)
  case leaving => exact absurd place present.1
  case gone => exact absurd place present.2

end Awaited

end System

/-- Whatever the order of steps, and whatever a read finds:
the worker leaves only after a shutdown has closed;
at most one restart is at the barrier;
a rendezvous is one of the worker and one restart;
a restart waits at a whole barrier without a worker only if a shutdown is about to break the barrier;
and while nothing is shut down, a restart that waits is met by the worker, which takes its own steps
and executes at most one more instruction, or which is inside a read by then and goes on as soon as
there is anything to read. -/
theorem restart_never_waits_in_vain {name : String} {first : Option Program} {stream : ByteStream}
    {actions : List Action} {system : System} {events : List Event}
    (history : Schedule (.start name first stream) actions system events) :
    (system.worker = .leaving ∨ system.worker = .gone → system.closed = true ∧
      ∃ (id : Nat) (stage : ShutdownStage), system.calls[id]? = some (.shutdown stage) ∧
        stage ≠ .closing) ∧
    (∀ (id other : Nat) (stage stage' : RestartStage), system.calls[id]? = some (.restart stage) →
      system.calls[other]? = some (.restart stage') → stage.pending = true → stage'.pending = true →
      other = id) ∧
    (∀ one another, .met one another ∈ events →
      (one = .worker ∧ ∃ id, another = .call id) ∨ (∃ id, one = .call id) ∧ another = .worker) ∧
    (∀ id : Nat, system.calls[id]? = some (.restart .waiting) → system.barrier.broken = false →
      system.worker = .gone → ∃ (other : Nat) (stage : ShutdownStage),
        system.calls[other]? = some (.shutdown stage) ∧ (stage = .stopping ∨ stage = .breaking)) ∧
    (∀ id : Nat, system.calls[id]? = some (.restart .waiting) → system.closed = false →
      system.Joins id 6 1 ∨ system.JoinsFed id 2) := by
  have isolated : system.Isolated (rendezvous events) := history.isolated (.start name first stream)
  have orderly := isolated.orderly
  have attended : system.Attended :=
    history.attended (.start name first stream) (.start name first stream)
  refine ⟨?_, ?_, ?_, ?_, ?_⟩
  · intro left
    exact ⟨attended.left left, attended.closer (attended.left left)⟩
  · intro id other stage stage' call call' pending pending'
    exact orderly.same_holder call (RestartStage.locked_of_pending pending) call'
      (RestartStage.locked_of_pending pending')
  · intro one another met
    exact history.pairs (.start name first stream) met
  · intro id call whole gone
    obtain ⟨other, stage, there, past⟩ := attended.closer (attended.left (.inr gone))
    refine ⟨other, stage, there, ?_⟩
    have unbroken : ¬ (stage = .joining ∨ stage = .finished) := by
      intro joins
      cases whole.symm.trans (attended.breaker other stage there joins)
    cases stage with
    | closing => exact absurd rfl past
    | stopping => exact .inl rfl
    | breaking => exact .inr rfl
    | joining => exact absurd (.inl rfl) unbroken
    | finished => exact absurd (.inr rfl) unbroken
  · intro id call unclosed
    have whole : system.barrier.broken = false := by
      by_contra broken
      cases (orderly.broken_closed (by simpa using broken)).symm.trans unclosed
    have noted := attended.call_noted id whole call
    have barrier : system.barrier = ⟨some (.call id), false⟩ := by
      rw [← noted, ← whole]
    have awaited : system.Awaited id := ⟨isolated.flag id .waiting call rfl, unclosed, barrier⟩
    refine awaited.comes ?_ ?_
    · constructor
      · intro left
        cases (attended.left (.inl left)).symm.trans unclosed
      · intro gone
        cases (attended.left (.inr gone)).symm.trans unclosed
    · intro waits
      cases (attended.worker_noted whole waits).symm.trans noted

/-- A call waits at the barrier. -/
def Call.waits : Call → Bool
  | .restart .waiting => true
  | _ => false

/-- A restart comes to the barrier while the worker is past its looks at the flags, on its way into a
read that finds nothing. -/
def stepsIntoRead : List Action :=
  [List.replicate 4 .work, [.requestRestart ⟨.text "+", .nothing, none⟩],
    List.replicate 5 (.proceed 0)].flatten

/-- The worker gets into the read, and meets the restart as soon as the read is over. -/
theorem restart_never_waits_in_vain_behind_read :
    ∃ system events,
      Schedule (.start "worker" (some ⟨[44, 91, 93], [], none⟩) (.script [])) stepsIntoRead system
        events ∧
      system.calls[0]? = some (.restart .waiting) ∧ system.closed = false ∧ system.JoinsFed 0 2 := by
  have seen : ((System.start "worker" (some ⟨[44, 91, 93], [], none⟩) (.script [])).follow
      stepsIntoRead).any (fun last =>
        last.1.closed = false ∧ (∀ count < 7, rendezvous (last.1.solo count).2 ≠ [0]) ∧
          last.1.calls[0]?.any Call.waits = true) = true := by decide +kernel
  rcases followed : (System.start "worker" (some ⟨[44, 91, 93], [], none⟩) (.script [])).follow
      stepsIntoRead with _ | ⟨system, events⟩
  · rw [followed] at seen
    cases seen
  rw [followed] at seen
  obtain ⟨unclosed, alone, waits⟩ := of_decide_eq_true seen
  have call : system.calls[0]? = some (.restart .waiting) := by
    rcases found : system.calls[0]? with _ | stage | stage
    all_goals rw [found] at waits
    case some.restart => cases stage <;> first | rfl | cases waits
    all_goals cases waits
  obtain ⟨-, -, -, -, comes⟩ := restart_never_waits_in_vain (.of_follow followed)
  refine ⟨system, events, .of_follow followed, call, unclosed, (comes 0 call unclosed).resolve_left ?_⟩
  rintro ⟨count, bound, met, -⟩
  exact alone count (by omega) met

end Live

end TapeMachine
