import TapeMachine.Proofs.Live.Answers
import TapeMachine.Proofs.Live.Halting
import TapeMachine.Proofs.Live.Statuses

namespace TapeMachine.Live

namespace RestartStage

/-- The restart has not looked for a shutdown yet. -/
def unchecked : RestartStage → Bool
  | locking _ | checking _ => true
  | _ => false

/-- Where a restart can be that looks for a shutdown only after one has begun. -/
def turnedDown : RestartStage → Bool
  | locking _ | checking _ | unlocking (.error .shutDown) | finished (.error .shutDown)
  | finished (.error (.invalid _)) => true
  | _ => false

theorem turnedDown_of_unchecked {stage : RestartStage} (unchecked : stage.unchecked = true) :
    stage.turnedDown = true := by
  cases stage <;> first | rfl | cases unchecked

theorem not_turnedDown_of_pending {stage : RestartStage} (pending : stage.pending = true) :
    stage.turnedDown = false := by
  cases stage <;> first | rfl | cases pending

theorem Turns.turnedDown {system : System} {stage next : RestartStage} (turns : stage.Turns system next)
    (closed : system.closed = true) (before : stage.turnedDown = true) : next.turnedDown = true := by
  cases turns with
  | refused => rfl
  | allowed unclosed => cases closed.symm.trans unclosed
  | turned_away => rfl
  | unstored | returned | late => cases before

end RestartStage

theorem turnedDown_of_made {action : Action} {call : Call} (made : action.call? = some call)
    {stage : RestartStage} (restart : call = .restart stage) : stage.turnedDown = true := by
  rcases System.restart_of_made made restart with ⟨program, rfl⟩ | ⟨error, rfl⟩ <;> rfl

namespace System

variable {system later begun : System} {action : Action} {events : List Event}

/-- The restarts that had not looked for a shutdown when one began, and those that were made since
then, are turned down. -/
def TurnsDown (begun system : System) : Prop :=
  ∀ (id : Nat) (stage : RestartStage), system.calls[id]? = some (.restart stage) →
    (∀ before : RestartStage, begun.calls[id]? = some (.restart before) → before.unchecked = true) →
    stage.turnedDown = true

theorem TurnsDown.start (system : System) : TurnsDown system system := by
  intro id stage call late
  exact RestartStage.turnedDown_of_unchecked (late stage call)

theorem TurnsDown.step (down : TurnsDown begun system) (closed : system.closed = true)
    (moves : Moves system action later events) : TurnsDown begun later := by
  have move {id : Nat} {stage next : RestartStage} (call : system.calls[id]? = some (.restart stage))
      (kept : stage.turnedDown = true → next.turnedDown = true) :
      TurnsDown begun (system.moveRestart id next) :=
    every_restart_moved down fun late => kept (down id stage call late)
  cases moves with
  | turn | load | publish | give_up | execute | conclude | fail | crash | park_worker | poison_state
  | poison_program | feed => exact down
  | park_call call | stop call | store call | clear call => exact move call (fun before => by cases before)
  | meet _ _ call pending =>
    refine move call ?_
    intro before
    cases (RestartStage.not_turnedDown_of_pending pending).symm.trans before
  | call call turns => exact move call (turns.turnedDown closed)
  | lock call => exact move call (fun _ => rfl)
  | @unlock id result call =>
    refine move call ?_
    intro before
    rcases result with (error | _ | _) | _ <;> first | rfl | cases before
  | close | halt | break_barrier | join => exact every_restart_beside down
  | request made =>
    intro id stage there late
    rcases addCall_cases there with old | ⟨-, new⟩
    · exact down id stage old late
    · exact turnedDown_of_made made new.symm

/-- A restart that is turned down changes nothing that it would have to change. -/
theorem unchanged_of_turnedDown {id : Nat} {stage : RestartStage}
    (call : system.calls[id]? = some (.restart stage)) (down : stage.turnedDown = true)
    (step : system.perform? (.proceed id) = some (later, events)) :
    later.program = system.program ∧ later.state = system.state ∧ later.stop = system.stop := by
  rw [perform?, callStep?, call] at step
  cases stage with
  | locking program =>
    rcases free : system.lock with _ | holder
    · simp only [restartStep?, free, Option.some.injEq, Prod.mk.injEq] at step
      rw [← step.1]
      exact ⟨rfl, rfl, rfl⟩
    · simp [restartStep?, free] at step
  | checking | unlocking =>
    simp only [restartStep?, Option.some.injEq, Prod.mk.injEq] at step
    rw [← step.1]
    exact ⟨rfl, rfl, rfl⟩
  | finished => cases step
  | stopping | storing | arriving | waiting | returning | clearing => cases down

/-- A restart that looks for a shutdown after one has begun fails by its own two next steps. -/
theorem refused_of_checking {id : Nat} {program : Program}
    (call : system.calls[id]? = some (.restart (.checking program))) (closed : system.closed = true) :
    ∃ final, system.follow [.proceed id, .proceed id] = some (final, []) ∧
      final.calls[id]? = some (.restart (.finished (.error .shutDown))) ∧
      final.program = system.program ∧ final.state = system.state ∧ final.stop = system.stop := by
  have first : system.perform? (.proceed id) =
      some (system.moveRestart id (.unlocking (.error .shutDown)), []) := by
    simp [perform?, callStep?, call, restartStep?, closed]
  have there : (system.moveRestart id (.unlocking (.error .shutDown))).calls[id]? =
      some (.restart (.unlocking (.error .shutDown))) := setCall_self call
  generalize moved : system.moveRestart id (.unlocking (.error .shutDown)) = middle at first there
  have second : middle.perform? (.proceed id) =
      some ({ middle.moveRestart id (.finished (.error .shutDown)) with lock := none }, []) := by
    simp [perform?, callStep?, there, restartStep?]
  subst moved
  refine ⟨{ system.moveRestart id (.unlocking (.error .shutDown)) with
      lock := none
      calls := _ }, ?_, setCall_self there, rfl, rfl, rfl⟩
  rw [follow, first]
  simp only [follow, second]
  rfl

/-- After the worker has ended, the state cell changes only by being poisoned. -/
theorem still_of_gone (moves : Moves system action later events) (gone : system.worker = .gone) :
    later.worker = .gone ∧ (later.state = system.state ∨ later.state.poisoned = true) := by
  have elsewhere {worker : Worker} (there : system.worker = worker) (present : worker ≠ .gone) : False :=
    present (there.symm.trans gone)
  cases moves with
  | turn turns =>
    rw [gone] at turns
    rcases turns with _ | _ | _ | _ | _ | _ | _ | _ | ⟨-, there | there⟩ | _ | ⟨-, there | there⟩ <;>
      cases there
  | publish publishes | give_up publishes =>
    rw [gone] at publishes
    cases publishes
  | load there | execute there | conclude there | fail there | crash there | park_worker there =>
    exact (elsewhere there (by simp)).elim
  | meet _ waits =>
    rcases waits with there | there <;> exact (elsewhere there (by simp)).elim
  | poison_state => exact ⟨gone, .inr rfl⟩
  | _ => exact ⟨gone, .inl rfl⟩

end System

variable {name : String} {first : Option Program} {stream : ByteStream} {system now : System}
  {actions since : List Action} {events later : List Event}

theorem Schedule.turnsDown (onward : Schedule system since now later) (orderly : system.Orderly)
    (closed : system.closed = true) : System.TurnsDown system now := by
  induction onward with
  | start => exact .start system
  | next action earlier step ih =>
    exact ih.step (earlier.closed_kept orderly closed) ((earlier.orderly orderly).moves step)

theorem Schedule.still (onward : Schedule system since now later) (orderly : system.Orderly)
    (gone : system.worker = .gone) :
    now.worker = .gone ∧ (now.state = system.state ∨ now.state.poisoned = true) := by
  induction onward with
  | start => exact ⟨gone, .inl rfl⟩
  | next action earlier step ih =>
    obtain ⟨away, kept⟩ := ih
    have moves := (earlier.orderly orderly).moves step
    obtain ⟨away_later, shows⟩ := System.still_of_gone moves away
    refine ⟨away_later, ?_⟩
    rcases kept with same | poisoned
    · rwa [same] at shows
    · exact .inr (shows.elim (fun same => same ▸ poisoned) id)

/-- Whatever the order of steps:
from the moment at which a restart raises the stop flag until its own rendezvous, and for ever if the
restart fails, the worker executes at most one instruction and publishes at most twice, and both about the
run that it was in;
from the moment at which a shutdown closes the same holds for ever, and every restart that had not
looked for a shutdown by then, or that is made afterwards, changes neither the program cell nor the
state cell nor the stop flag, and fails as soon as it looks;
and after the worker has ended, what is seen changes only when the state cell is poisoned. -/
theorem no_stop_request_lost
    (history : Schedule (.start name first stream) actions system events) :
    (∀ (id : Nat) (program : Program) (begun : System) (moment : List Event) (since : List Action)
        (now : System) (later : List Event),
      system.calls[id]? = some (.restart (.stopping program)) →
      system.perform? (.proceed id) = some (begun, moment) → Schedule begun since now later →
      (id ∉ rendezvous later ∨
        ∃ error, now.calls[id]? = some (.restart (.finished (.error error)))) →
      Halts begun later) ∧
    (∀ (id : Nat) (begun : System) (moment : List Event) (since : List Action) (now : System)
        (later : List Event),
      system.calls[id]? = some (.shutdown .closing) →
      system.perform? (.proceed id) = some (begun, moment) → Schedule begun since now later →
      Halts begun later ∧
      ∀ (other : Nat) (stage : RestartStage), now.calls[other]? = some (.restart stage) →
        (∀ before : RestartStage, begun.calls[other]? = some (.restart before) →
          before.unchecked = true) →
        stage.turnedDown = true ∧
        (∀ after seen, now.perform? (.proceed other) = some (after, seen) →
          after.program = now.program ∧ after.state = now.state ∧ after.stop = now.stop) ∧
        (∀ program, stage = .checking program →
          ∃ final, now.follow [.proceed other, .proceed other] = some (final, []) ∧
            final.calls[other]? = some (.restart (.finished (.error .shutDown))) ∧
            final.program = now.program ∧ final.state = now.state ∧ final.stop = now.stop)) ∧
    (system.worker = .gone → ∀ (since : List Action) (now : System) (later : List Event),
      Schedule system since now later → now.look = system.look ∨
        now.state.poisoned = true ∧ now.look = .fresh (.fatal poisonedMessage)) := by
  have isolated : system.Isolated (rendezvous events) := history.isolated (.start name first stream)
  have orderly := isolated.orderly
  refine ⟨?_, ?_, ?_⟩
  · intro id program begun moment since now later call step onward unmet
    have begun_orderly := orderly.step (orderly.moves step)
    have apart : id ∉ rendezvous later := by
      rcases unmet with apart | ⟨error, failed⟩
      · exact apart
      · have whole := history.trans ((Schedule.single step).trans onward)
        have unmet := whole.unmet_of_failed failed
        rw [rendezvous_append, rendezvous_append] at unmet
        exact fun member => unmet (List.mem_append_right _ (List.mem_append_right _ member))
    rw [System.perform?, System.callStep?, call] at step
    obtain ⟨rfl, rfl⟩ := Prod.mk.inj (Option.some.inj step)
    have raised : System.Halted id { system.moveRestart id (.storing program) with stop := true } :=
      .inr ⟨rfl, .inl ⟨.storing program, System.setCall_self call, rfl⟩⟩
    exact onward.halts begun_orderly raised (.inr apart)
  · intro id begun moment since now later call step onward
    have begun_orderly := orderly.step (orderly.moves step)
    rw [System.perform?, System.callStep?, call] at step
    obtain ⟨rfl, rfl⟩ := Prod.mk.inj (Option.some.inj step)
    have shut : System.Halted id { system.setCall id (.shutdown .stopping) with closed := true } :=
      .inl rfl
    refine ⟨onward.halts begun_orderly shut (.inl rfl), ?_⟩
    intro other stage there late
    have down := onward.turnsDown begun_orderly rfl other stage there late
    refine ⟨down, ?_, ?_⟩
    · intro after seen own
      exact System.unchanged_of_turnedDown there down own
    · rintro program rfl
      exact System.refused_of_checking there (onward.closed_kept begun_orderly rfl)
  · intro gone since now later onward
    rcases (onward.still orderly gone).2 with same | poisoned
    · left
      rw [System.look, System.look, same]
    · exact .inr ⟨poisoned, System.look_of_poisoned poisoned⟩

def Call.closes : Call → Bool
  | .shutdown .closing => true
  | _ => false

/-- A restart raises the flag, is served, and has not returned yet when a shutdown is called for. The
worker has just looked at both flags. -/
def stepsToShutdown : List Action :=
  [List.replicate 8 .work, [.requestRestart ⟨.text "+[]", .nothing, none⟩],
    List.replicate 5 (.proceed 0), List.replicate 7 .work, [.proceed 0, .requestShutdown]].flatten

/-- The restart takes back the flag that the shutdown has raised, and the worker stops all the same. -/
theorem no_stop_request_lost_flag_erased :
    ∃ system events begun moment now later,
      Schedule (.start "worker" (some ⟨[43, 91, 93], [], none⟩) .empty) stepsToShutdown system events ∧
      system.calls[1]? = some (.shutdown .closing) ∧
      system.perform? (.proceed 1) = some (begun, moment) ∧
      Schedule begun (.proceed 1 :: .proceed 0 :: List.replicate 6 .work) now later ∧
      now.closed = true ∧ now.stop = false ∧ executions later = 1 ∧ Halts begun later := by
  have run : ((System.start "worker" (some ⟨[43, 91, 93], [], none⟩) .empty).follow
      stepsToShutdown).bind (fun first => (first.1.perform? (.proceed 1)).bind fun second =>
        (second.1.follow (.proceed 1 :: .proceed 0 :: List.replicate 6 .work)).map fun third =>
          (first.1.calls[1]?.any Call.closes, third.1.closed, third.1.stop, executions third.2)) =
      some (true, true, false, 1) := by decide +kernel
  obtain ⟨⟨system, events⟩, followed, run⟩ := Option.bind_eq_some_iff.mp run
  obtain ⟨⟨begun, moment⟩, closes, run⟩ := Option.bind_eq_some_iff.mp run
  obtain ⟨⟨now, later⟩, onward, seen⟩ := Option.map_eq_some_iff.mp run
  simp only [Prod.mk.injEq] at seen
  obtain ⟨called, closed, stop, executed⟩ := seen
  have call : system.calls[1]? = some (.shutdown .closing) := by
    rcases found : system.calls[1]? with _ | stage | stage
    all_goals rw [found] at called
    case some.shutdown => cases stage <;> first | rfl | cases called
    all_goals cases called
  obtain ⟨-, shut, -⟩ := no_stop_request_lost (.of_follow followed)
  have halts := (shut 1 begun moment _ now later call closes (.of_follow onward)).1
  exact ⟨system, events, begun, moment, now, later, .of_follow followed, call, closes,
    .of_follow onward, closed, stop, executed, halts⟩

end TapeMachine.Live
