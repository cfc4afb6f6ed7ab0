import TapeMachine.Proofs.Live.NoStopLost
import TapeMachine.Proofs.Live.LockHolder
import Mathlib.Data.List.InsertIdx

namespace TapeMachine.Live

section Numbers

variable (gap : Nat)

/-- The number that a call has when one more call has the number `gap`. -/
def skip (number : Nat) : Nat := if number < gap then number else number + 1

def skipTicket : Nat → Nat
  | 0 => 0
  | number + 1 => skip gap number + 1

def Job.skip (job : Job) : Job := ⟨skipTicket gap job.ticket, job.program⟩

def Run.skip (run : Run) : Run := ⟨run.job.skip gap, run.machine⟩

def Party.skip : Party → Party
  | .worker => .worker
  | .call id => .call (Live.skip gap id)

def Worker.skip : Worker → Worker
  | .checkingStop run => .checkingStop (run.skip gap)
  | .checkingClosed run => .checkingClosed (run.skip gap)
  | .announcing run => .announcing (run.skip gap)
  | .stepping run => .stepping (run.skip gap)
  | .reporting run => .reporting (run.skip gap)
  | .concluding run status => .concluding (run.skip gap) status
  | worker => worker

def Event.skip : Event → Event
  | .logged entry => .logged entry
  | .began ticket => .began (skipTicket gap ticket)
  | .executed ticket op => .executed (skipTicket gap ticket) op
  | .published ticket publication => .published (skipTicket gap ticket) publication
  | .met first second => .met (first.skip gap) (second.skip gap)

def Action.skip : Action → Action
  | .proceed id => .proceed (Live.skip gap id)
  | action => action

end Numbers

theorem skip_of_lt {gap number : Nat} (before : number < gap) : skip gap number = number := if_pos before

theorem skipTicket_of_le {gap ticket : Nat} (within : ticket ≤ gap) : skipTicket gap ticket = ticket := by
  cases ticket with
  | zero => rfl
  | succ number => rw [skipTicket, skip_of_lt within]

/-- Every number but the gap is the number of a call. -/
theorem exists_skip {gap number : Nat} (other : number ≠ gap) : ∃ before, number = skip gap before := by
  by_cases less : number < gap
  · exact ⟨number, (skip_of_lt less).symm⟩
  · refine ⟨number - 1, ?_⟩
    rw [skip, if_neg (by omega)]
    omega

theorem insertIdx_set_skip {α : Type} (items : List α) (gap number : Nat) (new item : α) :
    (items.insertIdx gap item).set (skip gap number) new = (items.set number new).insertIdx gap item := by
  apply List.ext_getElem?
  intro place
  simp only [skip, List.getElem?_set, List.getElem?_insertIdx, List.length_set, List.length_insertIdx]
  grind

theorem insertIdx_set_self {α : Type} (items : List α) (gap : Nat) (new item : α) :
    (items.insertIdx gap item).set gap new = items.insertIdx gap new := by
  apply List.ext_getElem?
  intro place
  simp only [List.getElem?_set, List.getElem?_insertIdx, List.length_insertIdx]
  grind

theorem insertIdx_concat {α : Type} {items : List α} {gap : Nat} (within : gap ≤ items.length)
    (item last : α) : (items ++ [last]).insertIdx gap item = items.insertIdx gap item ++ [last] := by
  apply List.ext_getElem?
  intro place
  simp only [List.getElem?_append, List.getElem?_insertIdx, List.length_append, List.length_insertIdx,
    List.length_singleton]
  grind

/-- The restart is about to take the lock or to give it back. -/
def RestartStage.usesLock : RestartStage → Bool
  | locking _ | unlocking _ => true
  | _ => false

namespace System

variable {system small big later : System} {action : Action} {events : List Event} {gap : Nat}
  {call : Call} {lock : Option Nat} {stage : RestartStage}

/-- The system with one call more, which has the number `gap`. -/
def beside (system : System) (gap : Nat) (call : Call) (lock : Option Nat) : System :=
  { system with
    barrier := ⟨system.barrier.waiting.map (Party.skip gap), system.barrier.broken⟩
    lock := lock
    program := ⟨system.program.value.map (Job.skip gap), system.program.poisoned⟩
    worker := system.worker.skip gap
    calls := system.calls.insertIdx gap call }

/-- The result of a step with one call more. -/
def resultBeside (gap : Nat) (call : Call) (lock : Option Nat) (result : System × List Event) :
    System × List Event :=
  (result.1.beside gap call lock, result.2.map (Event.skip gap))

theorem beside_call (within : gap ≤ system.calls.length) :
    (system.beside gap call lock).calls[gap]? = some call := by
  simp [beside, List.getElem?_insertIdx_self, within]

theorem beside_calls (id : Nat) :
    (system.beside gap call lock).calls[skip gap id]? = system.calls[id]? := by
  simp only [beside, skip, List.getElem?_insertIdx]
  grind

theorem beside_setCall (id : Nat) (new : Call) :
    (system.beside gap call lock).setCall (skip gap id) new =
      (system.setCall id new).beside gap call lock := by
  simp only [beside, setCall, insertIdx_set_skip]

theorem beside_moveRestart (id : Nat) (next : RestartStage) :
    (system.beside gap call lock).moveRestart (skip gap id) next =
      (system.moveRestart id next).beside gap call lock :=
  beside_setCall id _

theorem beside_renew (system : System) :
    (system.beside gap call lock).renew = resultBeside gap call lock system.renew := by
  rcases poisoned : system.state.poisoned <;>
    simp [renew, resultBeside, beside, SharedCell.store?, poisoned, Event.skip]

theorem beside_arrive (system : System) (party : Party) :
    (system.beside gap call lock).arrive (party.skip gap) =
      resultBeside gap call lock (system.arrive party) := by
  have turned (party : Party) : (system.beside gap call lock).turnAway (party.skip gap) =
      (system.turnAway party).beside gap call lock := by
    cases party with
    | worker => rfl
    | call id => exact beside_moveRestart id _
  have parked (party : Party) : (system.beside gap call lock).park (party.skip gap) =
      (system.park party).beside gap call lock := by
    cases party with
    | worker => rfl
    | call id => exact beside_moveRestart id _
  have passed (system : System) (party : Party) :
      (system.beside gap call lock).passOn (party.skip gap) =
        (system.passOn party).beside gap call lock := by
    cases party with
    | worker => rfl
    | call id => exact beside_moveRestart id _
  rcases broken : system.barrier.broken with _ | _
  · rcases waiting : system.barrier.waiting with _ | first
    · have free : (system.beside gap call lock).barrier = ⟨none, false⟩ := by
        simp [beside, waiting, broken]
      simp only [arrive, free, waiting, broken, parked]
      rfl
    · have noted : (system.beside gap call lock).barrier = ⟨some (first.skip gap), false⟩ := by
        simp [beside, waiting, broken]
      have meets (system : System) (party other : Party) :
          ({ system.beside gap call lock with barrier := ⟨none, false⟩ }.passOn
            (party.skip gap)).passOn (other.skip gap) =
            (({ system with barrier := ⟨none, false⟩ }.passOn party).passOn other).beside gap call
              lock := by
        have blank : { system.beside gap call lock with barrier := ⟨none, false⟩ } =
            { system with barrier := ⟨none, false⟩ }.beside gap call lock := rfl
        rw [blank, passed, passed]
      simp only [arrive, noted, waiting, broken, beside_renew, resultBeside, meets]
      rfl
  · have shut : (system.beside gap call lock).barrier.broken = true := broken
    simp only [arrive, shut, broken, if_true, turned]
    rfl

theorem beside_publish (run : Run) (status : Status) (next : Worker) :
    (system.beside gap call lock).publish (run.skip gap) status (next.skip gap) =
      resultBeside gap call lock (system.publish run status next) := by
  rcases poisoned : system.state.poisoned <;>
    simp [publish, resultBeside, beside, SharedCell.store?, poisoned, Event.skip, moveWorker, Run.skip,
      Job.skip, Run.snapshot, Worker.skip]

theorem beside_execute (run : Run) :
    (system.beside gap call lock).execute? (run.skip gap) =
      (system.execute? run).map (resultBeside gap call lock) := by
  have same : (run.skip gap).machine.step (system.beside gap call lock).stream =
      run.machine.step system.stream := rfl
  rcases result : run.machine.step system.stream with ⟨outcome, machine, rest⟩
  simp only [execute?, same, result]
  cases outcome with
  | failed error =>
    by_cases own : error.isProgramFailure = true
    · simp only [own, if_true]
      rfl
    · simp only [own]
      rfl
  | waiting | ended | ran => rfl

/-- The worker takes the same steps. -/
theorem beside_work (system : System) : (system.beside gap call lock).workerStep? =
    system.workerStep?.map (resultBeside gap call lock) := by
  have same : (system.beside gap call lock).worker = system.worker.skip gap := rfl
  rcases place : system.worker with _ | _ | _ | run | run | run | run | run | ⟨run, status⟩ | _ | _ |
    _ | _ | _ | _
  all_goals simp only [workerStep?, same, place, Worker.skip]
  case loading =>
    have cell : (system.beside gap call lock).program =
      ⟨system.program.value.map (Job.skip gap), system.program.poisoned⟩ := rfl
    simp only [cell, SharedCell.load?]
    rcases system.program.poisoned with _ | _
    · rcases system.program.value with _ | job <;> rfl
    · rfl
  case opening | returning =>
    cases closed : system.closed <;> simp [beside, closed, resultBeside, moveWorker, Worker.skip]
  case checkingStop =>
    cases stop : system.stop <;>
      simp [beside, stop, resultBeside, moveWorker, Worker.skip, abandon, Event.skip, Run.skip]
  case checkingClosed =>
    cases closed : system.closed <;>
      simp [beside, closed, resultBeside, moveWorker, Worker.skip, abandon, Event.skip, Run.skip]
  case announcing =>
    have awaits : (run.skip gap).machine.awaitsInput = run.machine.awaitsInput := rfl
    rw [awaits]
    cases run.machine.awaitsInput with
    | true => exact congrArg some (beside_publish run .waitingForInput (.stepping run))
    | false => rfl
  case stepping => exact beside_execute run
  case reporting => exact congrArg some (beside_publish run .running (.checkingStop run))
  case concluding => exact congrArg some (beside_publish run status .arriving)
  case arriving => exact congrArg some (beside_arrive system .worker)
  case waiting =>
    have broken : (system.beside gap call lock).barrier.broken = system.barrier.broken := rfl
    rw [broken]
    cases system.barrier.broken <;> rfl
  all_goals rfl

/-- Another restart takes the same steps, if it has nothing to do with the lock. -/
theorem beside_restart (id : Nat) (apart : stage.usesLock = false) :
    (system.beside gap call lock).restartStep? (skip gap id) stage =
      (system.restartStep? id stage).map (resultBeside gap call lock) := by
  have closed : (system.beside gap call lock).closed = system.closed := rfl
  have broken : (system.beside gap call lock).barrier.broken = system.barrier.broken := rfl
  cases stage with
  | locking | unlocking => cases apart
  | checking | returning => simp only [restartStep?, closed, beside_moveRestart]; rfl
  | stopping | clearing => simp only [restartStep?, beside_moveRestart]; rfl
  | storing program =>
    have cell : (system.beside gap call lock).program =
      ⟨system.program.value.map (Job.skip gap), system.program.poisoned⟩ := rfl
    simp only [restartStep?, cell, SharedCell.store?, beside_moveRestart]
    cases system.program.poisoned <;> rfl
  | arriving => exact congrArg some (beside_arrive system (.call id))
  | waiting =>
    have turned : (system.beside gap call lock).turnAway (.call (skip gap id)) =
        (system.turnAway (.call id)).beside gap call lock := beside_moveRestart id _
    simp only [restartStep?, broken, turned]
    cases system.barrier.broken <;> rfl
  | finished => rfl

theorem beside_shutdown (id : Nat) (stage : ShutdownStage) :
    (system.beside gap call lock).shutdownStep? (skip gap id) stage =
      (system.shutdownStep? id stage).map (resultBeside gap call lock) := by
  cases stage <;> simp only [shutdownStep?, beside_setCall] <;> rfl

/-- The action is the step of a restart that takes the lock or gives it back. -/
def UsesLock (system : System) (action : Action) : Prop :=
  ∃ (id : Nat) (stage : RestartStage), action = .proceed id ∧
    system.calls[id]? = some (.restart stage) ∧ stage.usesLock = true

theorem lock_kept (leaves : ¬ system.UsesLock action) (moves : Moves system action later events) :
    later.lock = system.lock := by
  cases moves with
  | lock call | unlock call => exact absurd ⟨_, _, rfl, call, rfl⟩ leaves
  | _ => rfl

/-- What has nothing to do with the lock happens in the same way beside one call more. -/
theorem beside_perform (leaves : ¬ system.UsesLock action) (within : gap ≤ system.calls.length) :
    (system.beside gap call lock).perform? (action.skip gap) =
      (system.perform? action).map (resultBeside gap call lock) := by
  have adds (new : Call) : (system.beside gap call lock).addCall new =
      (system.addCall new).beside gap call lock := by
    simp only [System.beside, addCall, insertIdx_concat within]
  cases action with
  | work => exact beside_work system
  | proceed id =>
    simp only [Action.skip, perform?, callStep?, beside_calls]
    rcases there : system.calls[id]? with _ | stage | stage
    · rfl
    · refine beside_restart id ?_
      by_contra uses
      exact leaves ⟨id, stage, rfl, there, by simpa using uses⟩
    · exact beside_shutdown id stage
  | requestRestart request => exact congrArg (fun system => some (system, [])) (adds _)
  | requestShutdown => exact congrArg (fun system => some (system, [])) (adds _)
  | poisonState | poisonProgram | feed => rfl

/-- The larger system is the smaller one with a restart more, which has not changed anything yet, except
that it may have taken the lock. -/
structure Beside (gap : Nat) (stage : RestartStage) (small big : System) : Prop where
  same : big = small.beside gap (.restart stage)
    (if stage.locked then some gap else small.lock.map (skip gap))
  within : gap ≤ small.calls.length
  free : stage.locked = true → small.lock = none
  idle : stage.turnedDown = true

theorem Beside.there (beside : Beside gap stage small big) :
    big.calls[gap]? = some (.restart stage) := by
  rw [beside.same]
  exact beside_call beside.within

/-- The refused restart takes its own steps, and nothing is seen of them. -/
theorem Beside.own (beside : Beside gap stage small big) {next : RestartStage}
    (step : big.perform? (.proceed gap) = some (later, events))
    (after : later.calls[gap]? = some (.restart next)) (down : next.turnedDown = true) :
    events = [] ∧ Beside gap next small later := by
  have call := beside.there
  obtain ⟨same, within, free, idle⟩ := beside
  have moved (next : RestartStage) (lock : Option Nat) :
      { big.moveRestart gap next with lock := lock } = small.beside gap (.restart next) lock := by
    rw [same]
    simp only [System.beside, moveRestart, setCall, insertIdx_set_self]
  have goes {found : RestartStage} {lock : Option Nat}
      (result : ({ big.moveRestart gap found with lock := lock }, []) = (later, events)) :
      events = [] ∧ found = next ∧ later = small.beside gap (.restart next) lock := by
    obtain ⟨rfl, rfl⟩ := Prod.mk.inj result
    have now : (big.moveRestart gap found).calls[gap]? = some (.restart found) := setCall_self call
    obtain rfl := Call.restart.inj (Option.some.inj (now.symm.trans after))
    exact ⟨rfl, rfl, moved _ _⟩
  simp only [perform?, callStep?, call] at step
  cases stage with
  | locking program =>
    have lock : big.lock = small.lock.map (skip gap) := by
      rw [same]
      rfl
    rcases holder : small.lock with _ | id
    · simp only [restartStep?, lock, holder, Option.map_none, Option.some.injEq] at step
      obtain ⟨rfl, rfl, rfl⟩ := goes step
      exact ⟨rfl, rfl, within, fun _ => holder, down⟩
    · simp only [restartStep?, lock, holder, Option.map_some] at step
      cases step
  | checking program =>
    have lock : big.lock = some gap := by
      rw [same]
      rfl
    have kept (found : RestartStage) :
        big.moveRestart gap found = { big.moveRestart gap found with lock := some gap } := by
      rw [← lock]
      rfl
    simp only [restartStep?, Option.some.injEq] at step
    rw [kept] at step
    obtain ⟨nothing, refused, rfl⟩ := goes step
    rcases closed : big.closed with _ | _
    · rw [closed] at refused
      obtain rfl : RestartStage.stopping program = next := refused
      cases down
    · rw [closed] at refused
      obtain rfl : RestartStage.unlocking (.error .shutDown) = next := refused
      exact ⟨nothing, rfl, within, fun _ => free rfl, down⟩
  | unlocking result =>
    simp only [restartStep?, Option.some.injEq] at step
    obtain ⟨nothing, rfl, rfl⟩ := goes step
    refine ⟨nothing, ?_, within, fun locked => (by cases locked), down⟩
    rw [free rfl]
    rfl
  | finished => cases step
  | stopping | storing | arriving | waiting | returning | clearing => cases idle

/-- Another restart takes the lock or gives it back in the same way without the refused one, which does
not have the lock then. -/
theorem Beside.other_lock (beside : Beside gap stage small big) (orderly : big.Orderly) {id : Nat}
    {other : RestartStage} (there : small.calls[id]? = some (.restart other))
    (uses : other.usesLock = true)
    (step : big.perform? (.proceed (Live.skip gap id)) = some (later, events)) :
    ∃ small', small.perform? (.proceed id) = some (small', []) ∧ events = [] ∧
      Beside gap stage small' later := by
  have present := beside.there
  obtain ⟨same, within, free, idle⟩ := beside
  have call : big.calls[Live.skip gap id]? = some (.restart other) := by
    rw [same, beside_calls]
    exact there
  have lock (unlocked : stage.locked = false) : big.lock = small.lock.map (Live.skip gap) := by
    rw [same, unlocked]
    rfl
  have goes {next : RestartStage} (holder : Option Nat) (unlocked : stage.locked = false)
      (step' : small.perform? (.proceed id) =
        some ({ small.moveRestart id next with lock := holder }, []))
      (result : ({ big.moveRestart (Live.skip gap id) next with
        lock := holder.map (Live.skip gap) }, []) = (later, events)) :
      ∃ small', small.perform? (.proceed id) = some (small', []) ∧ events = [] ∧
        Beside gap stage small' later := by
    obtain ⟨rfl, rfl⟩ := Prod.mk.inj result
    have length : (small.moveRestart id next).calls.length = small.calls.length := List.length_set ..
    refine ⟨_, step', rfl, ?_, length.symm ▸ within, ?_, idle⟩
    · rw [same, beside_moveRestart, unlocked]
      rfl
    · intro locked
      cases unlocked.symm.trans locked
  simp only [perform?, callStep?, call] at step
  cases other with
  | locking program =>
    rcases locked : stage.locked with _ | _
    · rcases holder : small.lock with _ | owner
      · simp only [restartStep?, lock locked, holder, Option.map_none, Option.some.injEq] at step
        refine goes (some id) locked ?_ step
        simp [perform?, callStep?, there, restartStep?, holder]
      · simp only [restartStep?, lock locked, holder, Option.map_some] at step
        cases step
    · have taken : big.lock = some gap := by
        rw [same, locked]
        rfl
      simp only [restartStep?, taken] at step
      cases step
  | unlocking result =>
    rcases locked : stage.locked with _ | _
    · simp only [restartStep?, Option.some.injEq] at step
      refine goes none locked ?_ step
      simp [perform?, callStep?, there, restartStep?]
    · have different : Live.skip gap id ≠ gap := by
        unfold Live.skip
        split <;> omega
      exact absurd (orderly.same_holder present locked call rfl) different
  | checking | stopping | storing | arriving | waiting | returning | clearing | finished => cases uses

/-- Whatever else happens happens in the same way without the refused restart. -/
theorem Beside.other (beside : Beside gap stage small big) (orderly : big.Orderly)
    (small_orderly : small.Orderly) (step : big.perform? (action.skip gap) = some (later, events)) :
    ∃ small' events', small.perform? action = some (small', events') ∧
      Beside gap stage small' later ∧ events = events'.map (Event.skip gap) := by
  by_cases uses : small.UsesLock action
  · obtain ⟨id, other, rfl, there, uses⟩ := uses
    obtain ⟨small', step', rfl, beside'⟩ := beside.other_lock orderly there uses step
    exact ⟨small', [], step', beside', rfl⟩
  · obtain ⟨same, within, free, idle⟩ := beside
    rw [same, beside_perform uses within] at step
    obtain ⟨⟨small', events'⟩, step', result⟩ := Option.map_eq_some_iff.mp step
    obtain ⟨rfl, rfl⟩ := Prod.mk.inj result
    have moves := small_orderly.moves step'
    have kept := lock_kept uses moves
    have length := calls_length moves
    rw [← kept] at free
    exact ⟨small', events', step', ⟨by rw [kept], by omega, free, idle⟩, rfl⟩

/-- A call that has just been made has the last number, so that nobody else has another number for it. -/
theorem Beside.made {first : Option Program} {actions : List Action} (held : system.Held)
    (genuine : system.Genuine first actions) (unlocked : stage.locked = false)
    (idle : stage.turnedDown = true) :
    Beside system.calls.length stage system (system.addCall (.restart stage)) := by
  have lock : system.lock.map (skip system.calls.length) = system.lock := by
    rcases holder : system.lock with _ | id
    · rfl
    · obtain ⟨_, there, -⟩ := held.holder id holder
      rw [Option.map_some, skip_of_lt (List.getElem?_eq_some_iff.mp there).1]
  have waiting : system.barrier.waiting.map (Party.skip system.calls.length) = system.barrier.waiting := by
    rcases noted : system.barrier.waiting with _ | _ | id
    · rfl
    · rfl
    · rw [Option.map_some, Party.skip, skip_of_lt (held.noted id noted)]
  have known {job : Job} (asked : programOf first actions job.ticket = some job.program) :
      job.skip system.calls.length = job := by
    rw [Job.skip, skipTicket_of_le (genuine.count ▸ ticket_le_of_programOf asked)]
  have program : system.program.value.map (Job.skip system.calls.length) = system.program.value := by
    rcases stored : system.program.value with _ | job
    · rfl
    · rw [Option.map_some, known (genuine.stored job stored)]
  have worker : system.worker.skip system.calls.length = system.worker := by
    have runs (run : Run) (there : system.worker.run? = some run) :
        run.skip system.calls.length = run := by
      rw [Run.skip, known (genuine.loaded run there)]
    rcases place : system.worker with _ | _ | _ | run | run | run | run | run | ⟨run, status⟩ | _ | _ |
      _ | _ | _ | _
    case checkingStop | checkingClosed | announcing | stepping | reporting | concluding =>
      rw [Worker.skip, runs run (by rw [place]; rfl)]
    all_goals rfl
  refine ⟨?_, Nat.le_refl _, fun locked => (by cases unlocked.symm.trans locked), idle⟩
  simp only [System.beside, unlocked, lock, waiting, program, worker, List.insertIdx_length_self]
  rfl

end System

/-- The action is a step of the call with a number. -/
def Action.isOf (id : Nat) : Action → Bool
  | .proceed call => call = id
  | _ => false

theorem Action.exists_skip {action : Action} {gap : Nat} (other : action.isOf gap = false) :
    ∃ before : Action, action = before.skip gap ∧ (before.skip gap).isOf gap = false := by
  cases action with
  | proceed id =>
    obtain ⟨before, rfl⟩ := Live.exists_skip (of_decide_eq_false other)
    exact ⟨.proceed before, rfl, other⟩
  | work => exact ⟨.work, rfl, rfl⟩
  | requestRestart request => exact ⟨.requestRestart request, rfl, rfl⟩
  | requestShutdown => exact ⟨.requestShutdown, rfl, rfl⟩
  | poisonState => exact ⟨.poisonState, rfl, rfl⟩
  | poisonProgram => exact ⟨.poisonProgram, rfl, rfl⟩
  | feed items => exact ⟨.feed items, rfl, rfl⟩

/-- What has been done, without the steps of one restart that has the number `gap`, can be done from the
same system without that restart, in the same order and with the same events. The restart stands at
`stage` in the end, and is all that has been added. -/
def Erased (gap : Nat) (stage : RestartStage) (base : System) (since : List Action) (now : System)
    (later : List Event) : Prop :=
  ∃ since' small later', Schedule base since' small later' ∧ System.Beside gap stage small now ∧
    later = later'.map (Event.skip gap) ∧
    since.filter (fun action => !action.isOf gap) = since'.map (Action.skip gap)

section

variable {base moment now next : System} {since more : List Action} {action : Action}
  {events before later : List Event} {gap : Nat} {stage stage' first : RestartStage}

theorem Erased.step (erased : Erased gap stage base since now later) (orderly : base.Orderly)
    (now_orderly : now.Orderly) (step : now.perform? action = some (next, events))
    (after : next.calls[gap]? = some (.restart stage')) (down : stage'.turnedDown = true) :
    Erased gap stage' base (since ++ [action]) next (later ++ events) := by
  obtain ⟨since', small, later', schedule, beside, rfl, same⟩ := erased
  rcases own : action.isOf gap with _ | _
  · obtain ⟨other, rfl, apart⟩ := Action.exists_skip own
    obtain ⟨small', events', step', beside', rfl⟩ :=
      beside.other now_orderly (schedule.orderly orderly) step
    obtain rfl := Call.restart.inj (Option.some.inj (beside'.there.symm.trans after))
    refine ⟨since' ++ [other], small', later' ++ events', schedule.next other step', beside', ?_, ?_⟩
    · rw [List.map_append]
    · rw [List.filter_append, same, List.map_append]
      simp [apart]
  · obtain rfl : action = .proceed gap := by
      cases action with
      | proceed id =>
        obtain rfl : id = gap := of_decide_eq_true own
        rfl
      | work | requestRestart | requestShutdown | poisonState | poisonProgram | feed => cases own
    obtain ⟨rfl, beside'⟩ := beside.own step after down
    refine ⟨since', small, later', schedule, beside', ?_, ?_⟩
    · rw [List.append_nil]
    · rw [List.filter_append, same]
      simp [own]

/-- A restart that has just been made has left nothing behind. -/
theorem Erased.start (beside : System.Beside gap stage base now) : Erased gap stage base [] now [] :=
  ⟨[], base, [], .start, beside, rfl, rfl⟩

/-- Until a restart has looked for a shutdown, it leaves nothing behind. -/
theorem Schedule.erased_of_unchecked (onward : Schedule moment since now later)
    (beside : System.Beside gap first base moment) (orderly : base.Orderly) (present : moment.Orderly)
    (call : now.calls[gap]? = some (.restart stage)) (unchecked : stage.unchecked = true) :
    Erased gap stage base since now later := by
  induction onward generalizing stage with
  | start =>
    obtain rfl := Call.restart.inj (Option.some.inj (beside.there.symm.trans call))
    exact .start beside
  | @next since current now seen events action earlier step ih =>
    have orderly_now := earlier.orderly present
    obtain ⟨found, there, -⟩ := earlier.restart_keeps (fun _ => True) present beside.there trivial
      fun _ _ _ _ _ => trivial
    obtain ⟨next, after, way⟩ := System.restart_next there (orderly_now.moves step)
    obtain rfl := Call.restart.inj (Option.some.inj (after.symm.trans call))
    have unchecked_before : found.unchecked = true := by
      rcases way with rfl | goes
      · exact unchecked
      · cases goes with
        | lock => rfl
        | turn turns => cases turns <;> cases unchecked
        | raise | store | park | meet | clear | unlock => cases unchecked
    exact (ih there unchecked_before).step orderly orderly_now step after
      (RestartStage.turnedDown_of_unchecked unchecked)

theorem RestartStage.Next.turnedDown {system : System} (goes : stage.Next system stage')
    (refused : system.closed = true ∨ ∃ result, stage = .finished result)
    (down : stage.turnedDown = true) : stage'.turnedDown = true := by
  rcases refused with closed | ⟨result, rfl⟩
  · cases goes with
    | turn turns => exact turns.turnedDown closed down
    | lock => rfl
    | meet pending => cases (RestartStage.not_turnedDown_of_pending pending).symm.trans down
    | @unlock result => rcases result with (error | _ | _) | _ <;> first | rfl | cases down
    | raise | store | park | clear => cases down
  · exact absurd goes not_next_of_finished

/-- Once a restart has been refused for its arguments, or has still to look for a shutdown when one has
begun, it leaves nothing behind. -/
theorem Erased.turned_down (erased : Erased gap stage base since moment before)
    (onward : Schedule moment more now later) (orderly : base.Orderly) (present : moment.Orderly)
    (refused : moment.closed = true ∨ ∃ result, stage = .finished result) :
    ∃ stage', Erased gap stage' base (since ++ more) now (before ++ later) ∧
      (now.closed = true ∨ ∃ result, stage' = .finished result) := by
  induction onward with
  | start => exact ⟨stage, by simpa using erased, refused⟩
  | @next more current now seen events action earlier step ih =>
    obtain ⟨found, still, refused_now⟩ := ih
    have orderly_now := earlier.orderly present
    have moves := orderly_now.moves step
    obtain ⟨_, _, _, _, beside, -, -⟩ := id still
    obtain ⟨next, after, way⟩ := System.restart_next beside.there moves
    have down : next.turnedDown = true := by
      rcases way with rfl | goes
      · exact beside.idle
      · exact goes.turnedDown refused_now beside.idle
    refine ⟨next, ?_, ?_⟩
    · rw [← List.append_assoc, ← List.append_assoc]
      exact still.step orderly orderly_now step after down
    · refine refused_now.imp (System.closed_kept moves) ?_
      rintro ⟨result, rfl⟩
      rcases way with rfl | goes
      · exact ⟨result, rfl⟩
      · exact absurd goes RestartStage.not_next_of_finished

end

end TapeMachine.Live
