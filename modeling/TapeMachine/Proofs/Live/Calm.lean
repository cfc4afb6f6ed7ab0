import TapeMachine.Proofs.InputSupply
import TapeMachine.Proofs.Live.NoDeadlock
import TapeMachine.Proofs.Live.Account

namespace TapeMachine

/-- Unless the machine stands at a read that finds the queue empty, its next step leaves the stream
alone and fails at a stray bracket only. -/
theorem Machine.step_unawaited {machine : Machine} (ready : machine.awaitsInput = false)
    (stream : ByteStream) :
    ∃ outcome later, machine.step stream = ⟨outcome, later, stream⟩ ∧
      ∀ error, outcome = .failed error → error = .mismatchedBrackets := by
  by_cases next : machine.peek = some .input
  · obtain ⟨code, position, tape, input, fallback, output⟩ := machine
    rcases input with _ | ⟨byte, input⟩
    · simp [awaitsInput, next] at ready
    · refine ⟨.ran .input, ⟨code, position + 1, tape.write byte, input, fallback, output⟩, ?_, by simp⟩
      rw [step, next]
      rfl
  · obtain ⟨outcome, later, blind⟩ := step_without_read next
    exact ⟨outcome, _, blind.step machine.input stream, blind.stray⟩

namespace Live

variable {system later now : System} {action : Action} {actions : List Action} {events : List Event}

namespace System

/-- Nothing mends the state cell. -/
theorem poisoned_kept (moves : Moves system action later events)
    (poisoned : system.state.poisoned = true) : later.state.poisoned = true := by
  cases moves with
  | publish _ sound => cases poisoned.symm.trans sound
  | crash | poison_state => rfl
  | meet _ _ _ _ renewed =>
    rcases renewed with ⟨sound, -⟩ | ⟨-, rfl⟩
    · cases poisoned.symm.trans sound
    · exact poisoned
  | _ => exact poisoned

end System

/-- How many instructions are left in the present run if the state cell takes no snapshot. -/
def Worker.allowance : Worker → Nat
  | checkingStop _ | checkingClosed _ | announcing _ | stepping _ => 1
  | _ => 0

theorem Worker.allowance_le (worker : Worker) : worker.allowance ≤ 1 := by
  cases worker <;> simp [allowance]

theorem Worker.Turns.allowance_le {worker next : Worker} (turns : worker.Turns system next) :
    next.allowance ≤ worker.allowance := by
  cases turns <;> simp [allowance]

namespace System

theorem began_of_load {run : Run} (loading : system.worker = .loading)
    (step : system.perform? .work = some (system.moveWorker (.checkingStop run), events)) :
    .began run.job.ticket ∈ events := by
  simp only [perform?, workerStep?, loading] at step
  rcases stored : system.program.load? with _ | _ | job
  all_goals
    rw [stored] at step
    obtain ⟨moved, rfl⟩ := Prod.mk.inj (Option.some.inj step)
    have place := congrArg System.worker moved
    cases place
  exact List.mem_cons_self

/-- While no run begins, what is executed is taken from what the present run has left. -/
theorem spends_of_poisoned (poisoned : system.state.poisoned = true) (orderly : system.Orderly)
    (step : system.perform? action = some (later, events))
    (going : ∀ ticket, .began ticket ∉ events) :
    executions events + later.worker.allowance ≤ system.worker.allowance := by
  have unspent (untold : ∀ event ∈ events, event.ticket? = none)
      (less : later.worker.allowance ≤ system.worker.allowance) :
      executions events + later.worker.allowance ≤ system.worker.allowance := by
    rw [(counts_of_untold untold).1, Nat.zero_add]
    exact less
  cases orderly.moves step with
  | turn turns silent => exact unspent (fun event member => (silent event member).1) turns.allowance_le
  | load loading => exact absurd (began_of_load loading step) (going _)
  | publish _ sound => cases poisoned.symm.trans sound
  | give_up publishes =>
    obtain ⟨notes, silent, rfl⟩ := events_of_publishes publishes step
    rw [(counts_of_publication silent).1]
    exact Nat.zero_le _
  | execute stepping ran =>
    obtain rfl := events_of_execution stepping ran step
    rw [stepping]
    exact Nat.le_refl _
  | conclude _ _ _ silent | fail _ silent =>
    exact unspent (fun event member => (silent event member).1) (Nat.zero_le _)
  | crash | park_worker => exact unspent (by simp) (Nat.zero_le _)
  | meet _ _ _ _ _ _ untold => exact unspent untold (Nat.zero_le _)
  | stop _ silent => exact unspent (fun event member => (silent event member).1) (Nat.le_refl _)
  | _ => exact unspent (by simp) (Nat.le_refl _)

/-- The poisoned state cell takes no snapshot. -/
theorem refused_of_poisoned (poisoned : system.state.poisoned = true) (orderly : system.Orderly)
    (step : system.perform? action = some (later, events)) {ticket : Nat} {publication : Publication}
    (published : .published ticket publication ∈ events) : publication.accepted = false := by
  have untold (silent : ∀ event ∈ events, event.ticket? = none) : publication.accepted = false := by
    cases silent _ published
  cases orderly.moves step with
  | publish _ sound => cases poisoned.symm.trans sound
  | give_up publishes =>
    obtain ⟨notes, silent, rfl⟩ := events_of_publishes publishes step
    rcases List.mem_cons.mp published with same | note
    · obtain ⟨-, rfl⟩ := Event.published.inj same
      rw [poisoned]
      rfl
    · cases (silent _ note).1
  | execute stepping ran =>
    obtain rfl := events_of_execution stepping ran step
    simp at published
  | turn _ silent | load _ _ silent | conclude _ _ _ silent | fail _ silent | stop _ silent =>
    exact untold fun event member => (silent event member).1
  | meet _ _ _ _ _ _ silent => exact untold silent
  | _ => cases published

theorem not_began_of_publish {ticket : Nat} {run : Run} {status : Status} {next : Worker} :
    .began ticket ∉ (system.publish run status next).2 := by
  rcases poisoned : system.state.poisoned <;> simp [publish, SharedCell.store?, poisoned]

theorem not_began_of_arrive {ticket : Nat} {party : Party} :
    .began ticket ∉ (system.arrive party).2 := by
  rcases broken : system.barrier.broken
  · rcases noted : system.barrier.waiting with _ | first
    · simp [arrive, broken, noted]
    · rw [arrive_meets broken noted]
      rcases poisoned : system.state.poisoned <;> simp [renew, SharedCell.store?, poisoned]
  · simp [arrive, broken]

/-- A run begins with a look at the stop flag. -/
theorem checking_of_began {ticket : Nat} (step : system.perform? action = some (later, events))
    (began : .began ticket ∈ events) : ∃ run, later.worker = .checkingStop run := by
  have apart {result : System × List Event} (same : result = (later, events))
      (other : .began ticket ∉ result.2) : ∃ run, later.worker = .checkingStop run := by
    rw [same] at other
    exact absurd began other
  cases action with
  | work =>
    simp only [perform?] at step
    rcases place : system.worker with _ | _ | _ | run | run | run | run | run | ⟨run, status⟩ | _ | _ |
      _ | _ | _ | _
    case arriving =>
      rw [workerStep?, place] at step
      exact apart (Option.some.inj step) not_began_of_arrive
    case announcing =>
      by_cases awaits : run.machine.awaitsInput = true
      · simp only [workerStep?, place, awaits, if_true] at step
        exact apart (Option.some.inj step) not_began_of_publish
      · simp only [workerStep?, place, awaits] at step
        exact apart (Option.some.inj step) (by simp)
    case reporting | concluding =>
      rw [workerStep?, place] at step
      exact apart (Option.some.inj step) not_began_of_publish
    case loading =>
      rcases stored : system.program.load? with _ | _ | job
      all_goals
        simp only [workerStep?, place, stored, Option.some.injEq] at step
        obtain ⟨rfl, rfl⟩ := Prod.mk.inj step
      · simp at began
      · cases began
      · exact ⟨_, rfl⟩
    all_goals
      simp only [workerStep?, place, execute?, abandon] at step
      grind
  | proceed id =>
    simp only [perform?, callStep?] at step
    rcases call : system.calls[id]? with _ | stage | stage
    · rw [call] at step
      cases step
    · rw [call] at step
      cases stage with
      | arriving => exact apart (Option.some.inj step) not_began_of_arrive
      | locking | checking | stopping | storing | waiting | returning | clearing | unlocking
      | finished =>
        simp only [restartStep?] at step
        grind
    · rw [call] at step
      cases stage <;> simp only [shutdownStep?] at step <;> grind
  | requestRestart | requestShutdown | poisonState | poisonProgram | feed =>
    obtain ⟨rfl, rfl⟩ := Prod.mk.inj (Option.some.inj step)
    cases began

/-- The worker is neither about to execute a read that finds the queue empty nor about to crash. -/
structure Calm (system : System) : Prop where
  uncrashed : system.worker ≠ .crashing
  ready : ∀ run, system.worker = .stepping run → run.machine.awaitsInput = false

theorem Calm.of_checking {run : Run} (checks : system.worker = .checkingStop run) : system.Calm := by
  constructor <;> simp [checks]

theorem Calm.not_starves (calm : system.Calm) : ¬ system.Starves := by
  rintro ⟨run, stepping, reads, -⟩
  cases (calm.ready run stepping).symm.trans reads.awaitsInput

/-- The instruction at hand reads nothing from the stream and does not crash the worker. -/
theorem Calm.execute (calm : system.Calm) {run : Run} (stepping : system.worker = .stepping run)
    (step : system.perform? .work = some (later, events)) :
    later.Calm ∧ later.stream = system.stream := by
  obtain ⟨outcome, machine, result, stray⟩ :=
    Machine.step_unawaited (calm.ready run stepping) system.stream
  simp only [perform?, workerStep?, stepping, execute?, result] at step
  cases outcome with
  | waiting => cases step
  | ran | ended =>
    obtain ⟨rfl, -⟩ := Prod.mk.inj (Option.some.inj step)
    exact ⟨⟨by simp [moveWorker], by simp [moveWorker]⟩, rfl⟩
  | failed error =>
    obtain rfl := stray error rfl
    obtain ⟨rfl, -⟩ := Prod.mk.inj (Option.some.inj step)
    exact ⟨⟨by simp [moveWorker], by simp [moveWorker]⟩, rfl⟩

/-- In front of a poisoned state cell a calm worker stays calm: it comes to no read with an empty queue,
since the status that announces the read is refused. -/
theorem Calm.step (calm : system.Calm) (poisoned : system.state.poisoned = true)
    (orderly : system.Orderly) (step : system.perform? action = some (later, events)) :
    later.Calm ∧ later.stream = system.stream.feed action.items := by
  have unfed (nothing : action.items = []) (still : later.Calm ∧ later.stream = system.stream) :
      later.Calm ∧ later.stream = system.stream.feed action.items := by
    refine ⟨still.1, ?_⟩
    rw [nothing, still.2]
    simp [ByteStream.feed]
  cases orderly.moves step with
  | @turn next events turns silent =>
    refine unfed rfl ⟨?_, rfl⟩
    generalize place : system.worker = worker at turns
    cases turns with
    | @ready run =>
      refine ⟨by simp [moveWorker], ?_⟩
      rintro run ⟨rfl⟩
      by_contra awaits
      have publishes : system.worker.Publishes run .waitingForInput (.stepping run) := by
        rw [place]
        exact .announce (by simpa using awaits)
      obtain ⟨notes, -, rfl⟩ := events_of_publishes publishes step
      cases (silent _ List.mem_cons_self).1
    | start | enter | idle | unstopped | stopped | unclosed | shut | turned_away | go_on | leave
    | exit => constructor <;> simp [moveWorker]
  | publish _ sound => cases poisoned.symm.trans sound
  | execute stepping | conclude stepping | fail stepping => exact unfed rfl (calm.execute stepping step)
  | load | give_up | crash | park_worker =>
    exact unfed rfl ⟨⟨by simp [moveWorker], by simp [moveWorker]⟩, rfl⟩
  | meet party =>
    refine unfed ?_ ⟨⟨by simp, by simp⟩, rfl⟩
    rcases party with rfl | rfl <;> rfl
  | request made => exact unfed (items_of_call made) ⟨⟨calm.uncrashed, calm.ready⟩, rfl⟩
  | feed => exact ⟨⟨calm.uncrashed, calm.ready⟩, rfl⟩
  | _ => exact unfed rfl ⟨⟨calm.uncrashed, calm.ready⟩, rfl⟩

end System

section

variable (onward : Schedule system actions now events) (orderly : system.Orderly)
  (poisoned : system.state.poisoned = true)

include onward orderly poisoned

theorem Schedule.poisoned_kept : now.state.poisoned = true := by
  induction onward with
  | start => exact poisoned
  | next action earlier step ih =>
    exact System.poisoned_kept ((earlier.orderly orderly).moves step) ih

theorem Schedule.spends_of_poisoned (going : ∀ ticket, .began ticket ∉ events) :
    executions events + now.worker.allowance ≤ system.worker.allowance := by
  induction onward with
  | start => simp [executions]
  | @next actions current now before events action earlier step ih =>
    have spent := ih fun ticket began => going ticket (List.mem_append_left _ began)
    have spends := System.spends_of_poisoned (earlier.poisoned_kept orderly poisoned)
      (earlier.orderly orderly) step fun ticket began => going ticket (List.mem_append_right _ began)
    rw [executions_append]
    omega

theorem Schedule.refused_of_poisoned {ticket : Nat} {publication : Publication}
    (published : .published ticket publication ∈ events) : publication.accepted = false := by
  induction onward with
  | start => cases published
  | next action earlier step ih =>
    rcases List.mem_append.mp published with before | now
    · exact ih before
    · exact System.refused_of_poisoned (earlier.poisoned_kept orderly poisoned)
        (earlier.orderly orderly) step now

theorem Schedule.calm (calm : system.Calm) :
    now.Calm ∧ now.stream = system.stream.feed (itemsFed actions) := by
  induction onward with
  | start => exact ⟨calm, by simp [itemsFed, ByteStream.feed]⟩
  | next action earlier step ih =>
    obtain ⟨still, left⟩ := ih
    obtain ⟨later, fed⟩ :=
      still.step (earlier.poisoned_kept orderly poisoned) (earlier.orderly orderly) step
    refine ⟨later, ?_⟩
    rw [fed, left, feed_feed, itemsFed_append]
    simp [itemsFed]

theorem Schedule.calm_of_began {ticket : Nat} (began : .began ticket ∈ events) : now.Calm := by
  induction onward with
  | start => cases began
  | next action earlier step ih =>
    rcases List.mem_append.mp began with before | now
    · exact ((ih before).step (earlier.poisoned_kept orderly poisoned) (earlier.orderly orderly)
        step).1
    · obtain ⟨run, checks⟩ := System.checking_of_began step now
      exact .of_checking checks

end

end Live

end TapeMachine
