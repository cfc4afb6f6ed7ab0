import TapeMachine.Proofs.Live.Erasure
import TapeMachine.Proofs.Live.Stuck

namespace TapeMachine.Live

namespace System

variable {system later : System} {action : Action} {events : List Event}

/-- A broken barrier stays broken, and nobody meets there. -/
theorem Orderly.broken_kept (orderly : system.Orderly)
    (step : system.perform? action = some (later, events)) (broken : system.barrier.broken = true) :
    later.barrier.broken = true ∧ rendezvous events = [] := by
  have apart : rendezvous events = [] := by
    by_contra some_met
    cases broken.symm.trans (whole_of_rendezvous step some_met)
  refine ⟨?_, apart⟩
  cases orderly.moves step with
  | park_worker _ whole | park_call _ whole => cases broken.symm.trans whole
  | meet _ _ _ _ _ one => cases apart.symm.trans one
  | break_barrier => rfl
  | _ => exact broken

/-- Without a meeting nobody takes the flag back but a restart behind its rendezvous, and the state cell
shows nothing new but what the worker publishes. -/
theorem Orderly.renewed_by_meetings (orderly : system.Orderly)
    (step : system.perform? action = some (later, events)) (apart : rendezvous events = []) :
    (later.stop = system.stop ∨ later.stop = true ∨
      ∃ id, action = .proceed id ∧ system.calls[id]? = some (.restart .clearing)) ∧
    (later.state = system.state ∨ later.state = system.state.poison ∨
      ∃ ticket publication, .published ticket publication ∈ events ∧
        later.state = ⟨publication.snapshot, false⟩) := by
  cases orderly.moves step with
  | publish publishes =>
    obtain ⟨notes, -, rfl⟩ := events_of_publishes publishes step
    exact ⟨.inl rfl, .inr (.inr ⟨_, _, List.mem_cons_self, rfl⟩)⟩
  | meet _ _ _ _ _ one => cases apart.symm.trans one
  | clear call => exact ⟨.inr (.inr ⟨_, rfl, call⟩), .inl rfl⟩
  | stop | halt => exact ⟨.inr (.inl rfl), .inl rfl⟩
  | crash | poison_state => exact ⟨.inl rfl, .inr (.inl rfl)⟩
  | _ => exact ⟨.inl rfl, .inl rfl⟩

/-- The steps of a restart that is refused touch nothing, and nothing is seen of them. -/
theorem untouched_of_turnedDown {id : Nat} {stage : RestartStage}
    (call : system.calls[id]? = some (.restart stage)) (down : stage.turnedDown = true)
    (moves : Moves system (.proceed id) later events) :
    system.Untouched later ∧ later.stop = system.stop ∧ events = [] := by
  have apart : stage.pending = false := by
    by_contra pending
    cases (RestartStage.not_turnedDown_of_pending (by simpa using pending)).symm.trans down
  obtain ⟨untouched, same | ⟨program, rfl⟩ | rfl⟩ | stored := untouched_of_proceed call apart moves
  · exact ⟨untouched, same⟩
  · cases down
  · cases down
  · obtain ⟨next, after, way⟩ := restart_next call moves
    obtain rfl := Call.restart.inj (Option.some.inj (after.symm.trans stored))
    rcases way with rfl | goes
    · cases down
    · cases goes with
      | turn turns => cases turns
      | store => cases down

/-- The steps of a restart that fails for the program cell touch nothing but the flag. -/
theorem untouched_of_unstored {id : Nat} {stage next : RestartStage}
    (call : system.calls[id]? = some (.restart stage)) (unstored : stage.unstored = true)
    (after : later.calls[id]? = some (.restart next)) (unstored_after : next.unstored = true)
    (moves : Moves system (.proceed id) later events) :
    system.Untouched later ∧ (later.stop = system.stop ∨ ∃ program, stage = .stopping program) := by
  have apart : stage.pending = false := by cases stage <;> first | rfl | cases unstored
  obtain ⟨untouched, ⟨same, -⟩ | stopping | rfl⟩ | stored := untouched_of_proceed call apart moves
  · exact ⟨untouched, .inl same⟩
  · exact ⟨untouched, .inr stopping⟩
  · cases unstored
  · obtain rfl := Call.restart.inj (Option.some.inj (stored.symm.trans after))
    cases unstored_after

end System

section

variable {name : String} {first : Option Program} {stream : ByteStream} {system moment middle now : System}
  {actions since more : List Action} {events before later : List Event} {id : Nat}

theorem Schedule.broken (onward : Schedule system actions now later) (orderly : system.Orderly)
    (broken : system.barrier.broken = true) : now.barrier.broken = true ∧ rendezvous later = [] := by
  induction onward with
  | start => exact ⟨broken, rfl⟩
  | next action earlier step ih =>
    obtain ⟨still, apart⟩ := ih
    obtain ⟨after, apart_now⟩ := (earlier.orderly orderly).broken_kept step still
    refine ⟨after, ?_⟩
    rw [rendezvous_append, apart, apart_now, List.nil_append]

/-- A restart that has had no rendezvous by the time at which the barrier is broken has none ever after. -/
theorem Schedule.turned_away {stage : RestartStage}
    (history : Schedule (.start name first stream) actions system events)
    (call : system.calls[id]? = some (.restart stage)) (unserved : stage.served = false)
    (broken : system.barrier.broken = true) (onward : Schedule system since now later) :
    id ∉ rendezvous (events ++ later) ∧ Untraced (id + 1) (events ++ later) ∧
    ∃ stage' : RestartStage, now.calls[id]? = some (.restart stage') ∧ stage'.served = false ∧
      (stage.pending = true → stage'.pending = true ∨ stage'.error? = some .shutDown) := by
  have orderly := history.orderly (.start name first stream)
  have whole := history.trans onward
  have unmet : id ∉ rendezvous (events ++ later) := by
    rw [rendezvous_append, (onward.broken orderly broken).2, List.append_nil]
    intro met
    cases unserved.symm.trans ((history.answers_met id stage call).mpr met)
  refine ⟨unmet, whole.untraced_before (.start name first stream) unmet, ?_⟩
  obtain ⟨stage', there, kept⟩ := onward.restart_keeps
    (fun found => stage.pending = true → found.hasRaised = true ∧ found.unstored = false) orderly call
    (by cases stage <;> simp [RestartStage.pending, RestartStage.hasRaised, RestartStage.unstored])
    fun _ _ _ still goes pending => ⟨goes.hasRaised (still pending).1, goes.stored (still pending).2⟩
  have unserved' : stage'.served = false := by
    by_contra served
    exact unmet ((whole.answers_met id stage' there).mp (by simpa using served))
  refine ⟨stage', there, unserved', ?_⟩
  intro pending
  obtain ⟨raised, stored⟩ := kept pending
  cases stage' with
  | arriving | waiting => exact .inl rfl
  | locking | checking | stopping => cases raised
  | storing => cases stored
  | returning | clearing => cases unserved'
  | unlocking result | finished result =>
    rcases result with (error | _ | _) | _
    · cases raised
    · exact .inr rfl
    · cases stored
    · cases unserved'

/-- A restart that is refused, for its arguments or because a shutdown has begun before it looks for one,
leaves nothing behind. -/
theorem Schedule.refused (history : Schedule (.start name first stream) actions system events)
    {request : Request} (onward : Schedule (system.addCall (.ofRequest request)) since moment before)
    (refused : (∃ error, request.program = .error error) ∨ moment.closed = true ∧
      ∃ program, moment.calls[system.calls.length]? = some (.restart (.checking program)))
    (further : Schedule moment more now later) :
    ∃ stage, Erased system.calls.length stage system (since ++ more) now (before ++ later) := by
  have orderly := history.orderly (.start name first stream)
  have asked : (Action.requestRestart request).call? = some (.ofRequest request) := rfl
  have made := orderly.add_call asked
  have held := history.held (.start name first stream) (.start name first stream)
  have genuine : system.Genuine first actions :=
    history.genuine (.start name first stream) (.start name first stream)
  have beside {stage : RestartStage} (call : Call.ofRequest request = .restart stage)
      (unlocked : stage.locked = false) (down : stage.turnedDown = true) :
      System.Beside system.calls.length stage system (system.addCall (.ofRequest request)) := by
    rw [call]
    exact .made held genuine unlocked down
  rcases outcome : request.program with error | program
  · have call : Call.ofRequest request = .restart (.finished (.error (.invalid error))) := by
      rw [Call.ofRequest, outcome]
    obtain ⟨stage, erased, -⟩ := (Erased.start (beside call rfl rfl)).turned_down
      (onward.trans further) orderly made (.inr ⟨_, rfl⟩)
    exact ⟨stage, erased⟩
  · have call : Call.ofRequest request = .restart (.locking program) := by
      rw [Call.ofRequest, outcome]
    obtain ⟨closed, asked, there⟩ := refused.resolve_left (by simp [outcome])
    have unchecked := onward.erased_of_unchecked (beside call rfl rfl) orderly made there rfl
    obtain ⟨stage, erased, -⟩ := unchecked.turned_down further orderly (onward.orderly made) (.inl closed)
    exact ⟨stage, erased⟩

/-- How the run in progress ends when a restart has raised the flag at `begun` and cannot store its
program. `before` has been seen by the time of `middle`, and `after` since then. -/
structure WindsUp (begun middle : System) (before after : List Event) : Prop where
  stop : middle.stop = true
  halts : Halts begun (before ++ after)
  terminal : ∀ ticket publication, .published ticket publication ∈ before ++ after →
    publication.snapshot.status.isTerminal = true → begun.worker.closing begun.closed = true
  idle : ∀ ticket, .began ticket ∈ before → executions after = 0

/-- What holds for ever after a restart has failed for the program cell. `met` are the restarts that have
had their rendezvous by then, and `since` has been done after that. -/
structure LaidUp (met : List Nat) (since : List Action) (now : System) (later : List Event) : Prop where
  stop : now.stop = true
  apart : rendezvous later = []
  ends : 5 ≤ works since → now.worker.run? = none
  going : ∀ run, now.worker.run? = some run → (now.workerStep?).isSome ∨ now.Starves
  served : ∀ (id : Nat) (stage : RestartStage), now.calls[id]? = some (.restart stage) →
    stage.served = true → id ∈ met
  fails : ∀ (id : Nat) (program : Program), now.calls[id]? = some (.restart (.locking program)) →
    now.lock = none → now.Fails id 5 .poisoned ∨ now.Fails id 3 .shutDown
  unlocks : ∀ (id : Nat) (stage : RestartStage), now.calls[id]? = some (.restart stage) →
    stage.locked = true → (now.callStep? id).isSome

theorem Schedule.windsUp {begun : System} {moment : List Event} {program : Program}
    {final : RestartStage} (history : Schedule (.start name first stream) actions system events)
    (call : system.calls[id]? = some (.restart (.stopping program)))
    (step : system.perform? (.proceed id) = some (begun, moment))
    (onward : Schedule begun since middle before) (further : Schedule middle more now later)
    (ended : now.calls[id]? = some (.restart final)) (fails : final.error? = some .poisoned) :
    WindsUp begun middle before later := by
  have begins := history.next (.proceed id) step
  have orderly := begins.orderly (.start name first stream)
  have whole := onward.trans further
  have unserved : final.served = false := by
    unfold RestartStage.error? at fails
    split at fails <;> first | rfl | cases fails
  have unmet : id ∉ rendezvous (before ++ later) := by
    intro met
    have served := ((begins.trans whole).answers_met id final ended).mpr
      (by rw [rendezvous_append]; exact List.mem_append_right _ met)
    cases served.symm.trans unserved
  rw [System.perform?, System.callStep?, call] at step
  obtain ⟨rfl, rfl⟩ := Prod.mk.inj (Option.some.inj step)
  have there : (system.moveRestart id (.storing program)).calls[id]? =
      some (.restart (.storing program)) := System.setCall_self call
  have halted : System.Halted id { system.moveRestart id (.storing program) with stop := true } :=
    .inr ⟨rfl, .inl ⟨_, there, rfl⟩⟩
  refine ⟨begins.stop_held there rfl onward further ended fails,
    whole.halts orderly halted (.inr unmet),
    (whole.closing_of_terminal orderly halted (.inr unmet)).2, ?_⟩
  intro ticket began
  rw [rendezvous_append, List.mem_append, not_or] at unmet
  have nothing := onward.idle_of_began orderly halted (.inr unmet.1) began
  obtain ⟨still, -⟩ := onward.halted orderly halted (.inr unmet.1)
  obtain ⟨-, spent, -⟩ := further.halted (onward.orderly orderly) still (.inr unmet.2)
  omega

theorem Schedule.laidUp {final : RestartStage}
    (history : Schedule (.start name first stream) actions system events)
    (ended : system.calls[id]? = some (.restart final)) (fails : final.error? = some .poisoned)
    (onward : Schedule system since now later) : LaidUp (rendezvous events) since now later := by
  have orderly := history.orderly (.start name first stream)
  obtain ⟨stuck, apart⟩ := onward.stuck orderly (history.shut id final ended fails)
  refine ⟨stuck.stop, apart, ?_, fun run => System.works_of_run, ?_, ?_, ?_⟩
  · intro enough
    have spends := onward.spends_of_stuck orderly (history.shut id final ended fails)
    have bound := system.worker.toGo_le
    exact Worker.toGo_eq_zero_iff.mp (by omega)
  · intro other stage there served
    have met := ((history.trans onward).answers_met other stage there).mp served
    rwa [rendezvous_append, apart, List.append_nil] at met
  · intro other program there free
    exact System.fails_of_locking stuck.poisoned there free
  · intro other stage there locked
    refine System.proceeds_of_locked there locked ?_
    rintro rfl
    cases stuck.futile other _ there locked

end

/-- A restart that fails disturbs only what it must, in every order of steps.
One that is refused, for its arguments or because a shutdown has begun before it looks for one, leaves
nothing behind: without it the same could have been done, with the same events and the same outcome, and
its own steps touch nothing.
One that fails for the program cell touches nothing by its own steps but the stop flag. From the moment on
at which it raises the flag, the flag is up, and the run in progress ends within the round of the loop that
it is in; it publishes a terminal status only if it was past its looks at the flags by then. Later runs
execute nothing. Once the restart has failed, the run in progress is over after five steps of the worker,
which is held up by a read only, and no restart is served any more: each of them fails as soon as it gets
the lock.
One that has had no rendezvous by the time at which the barrier is broken never has one, and its program is
never run; it fails for the shutdown by its own two next steps if it has come to the barrier.
A restart that has returned has given the lock back; while it has the lock, it is held up at the barrier
only.
What happens at a meeting happens nowhere else, and a meeting is one of the worker and one restart. -/
theorem failed_restart_disturbs_little {name : String} {first : Option Program} {stream : ByteStream}
    {actions : List Action} {system : System} {events : List Event}
    (history : Schedule (.start name first stream) actions system events) :
    (∀ (request : Request) (since : List Action) (moment : System) (before : List Event)
        (more : List Action) (now : System) (later : List Event),
      Schedule (system.addCall (.ofRequest request)) since moment before →
      Schedule moment more now later →
      ((∃ error, request.program = .error error) ∨ moment.closed = true ∧
        ∃ program, moment.calls[system.calls.length]? = some (.restart (.checking program))) →
      (∃ stage, Erased system.calls.length stage system (since ++ more) now (before ++ later)) ∧
      (∀ after seen, now.perform? (.proceed system.calls.length) = some (after, seen) →
        now.Untouched after ∧ after.stop = now.stop ∧ seen = []) ∧
      ((∀ error, request.program = .error error → now.calls[system.calls.length]? =
          some (.restart (.finished (.error (.invalid error))))) ∧
        ((∃ program, request.program = .ok program) →
          moment.Fails system.calls.length 2 .shutDown))) ∧
    (∀ (id : Nat) (stage : RestartStage) (begun : System) (moment : List Event) (since : List Action)
        (now : System) (later : List Event) (final : RestartStage),
      system.calls[id]? = some (.restart stage) →
      system.perform? (.proceed id) = some (begun, moment) → Schedule begun since now later →
      now.calls[id]? = some (.restart final) → final.error? = some .poisoned →
      system.Untouched begun ∧ (begun.stop = system.stop ∨ ∃ program, stage = .stopping program)) ∧
    (∀ (id : Nat) (program : Program) (begun : System) (moment : List Event) (since : List Action)
        (middle : System) (before : List Event) (more : List Action) (now : System) (later : List Event)
        (final : RestartStage),
      system.calls[id]? = some (.restart (.stopping program)) →
      system.perform? (.proceed id) = some (begun, moment) → Schedule begun since middle before →
      Schedule middle more now later → now.calls[id]? = some (.restart final) →
      final.error? = some .poisoned → WindsUp begun middle before later) ∧
    (∀ (id : Nat) (final : RestartStage) (since : List Action) (now : System) (later : List Event),
      system.calls[id]? = some (.restart final) → final.error? = some .poisoned →
      Schedule system since now later → LaidUp (rendezvous events) since now later) ∧
    (∀ (id : Nat) (stage : RestartStage) (since : List Action) (now : System) (later : List Event),
      system.calls[id]? = some (.restart stage) → stage.served = false →
      system.barrier.broken = true → Schedule system since now later →
      (stage.pending = true → system.Fails id 2 .shutDown) ∧
      id ∉ rendezvous (events ++ later) ∧ Untraced (id + 1) (events ++ later) ∧
      ∃ stage' : RestartStage, now.calls[id]? = some (.restart stage') ∧ stage'.served = false ∧
        (stage.pending = true → stage'.pending = true ∨ stage'.error? = some .shutDown)) ∧
    (∀ id : Nat, system.lock = some id → ∃ stage : RestartStage,
      system.calls[id]? = some (.restart stage) ∧ stage.locked = true ∧
      (∀ result, stage ≠ .finished result) ∧ (stage ≠ .waiting → (system.callStep? id).isSome)) ∧
    (∀ (action : Action) (later : System) (seen : List Event),
      system.perform? action = some (later, seen) →
      (∀ one another, .met one another ∈ seen →
        system.barrier.broken = false ∧ system.barrier.waiting = some one ∧
        ((one = .worker ∧ ∃ id, another = .call id) ∨
          (∃ id, one = .call id) ∧ another = .worker)) ∧
      (rendezvous seen = [] →
        (later.stop = system.stop ∨ later.stop = true ∨
          ∃ id, action = .proceed id ∧ system.calls[id]? = some (.restart .clearing)) ∧
        (later.state = system.state ∨ later.state = system.state.poison ∨
          ∃ ticket publication, .published ticket publication ∈ seen ∧
            later.state = ⟨publication.snapshot, false⟩))) := by
  have orderly := history.orderly (.start name first stream)
  refine ⟨?_, ?_, ?_, ?_, ?_, ?_, ?_⟩
  · intro request since moment before more now later onward further refused
    obtain ⟨stage, erased⟩ := history.refused onward refused further
    have asked : (Action.requestRestart request).call? = some (.ofRequest request) := rfl
    have made := orderly.add_call asked
    have present := (onward.trans further).orderly made
    obtain ⟨_, _, _, _, beside, -, -⟩ := id erased
    refine ⟨⟨stage, erased⟩, ?_, ?_, ?_⟩
    · intro after seen step
      exact System.untouched_of_turnedDown beside.there beside.idle (present.moves step)
    · intro error invalid
      have there : (system.addCall (.ofRequest request)).calls[system.calls.length]? =
          some (.restart (.finished (.error (.invalid error)))) := by
        simp [System.addCall, Call.ofRequest, invalid]
      obtain ⟨found, answered, same⟩ := (onward.trans further).restart_keeps
        (fun found => found = .finished (.error (.invalid error))) made there rfl
        fun _ _ _ still goes => absurd goes (still ▸ RestartStage.not_next_of_finished)
      rw [answered, same]
    · rintro ⟨program, valid⟩
      obtain ⟨closed, asked, checks⟩ := refused.resolve_left (by simp [valid])
      exact System.fails_of_closed checks closed
  · intro id stage begun moment since now later final call step onward ended fails
    have moves := orderly.moves step
    obtain ⟨next, after, -⟩ := System.restart_next call moves
    have unstored := ((Schedule.single step).trans onward).unstored_before orderly call ended fails
    have unstored_after := onward.unstored_before (orderly.step moves) after ended fails
    exact System.untouched_of_unstored call unstored after unstored_after moves
  · intro id program begun moment since middle before more now later final call step onward further
      ended fails
    exact history.windsUp call step onward further ended fails
  · intro id final since now later ended fails onward
    exact history.laidUp ended fails onward
  · intro id stage since now later call unserved broken onward
    exact ⟨fun pending => System.fails_of_pending call pending broken,
      history.turned_away call unserved broken onward⟩
  · intro id holds
    obtain ⟨stage, there, locked⟩ :=
      (history.held (.start name first stream) (.start name first stream)).holder id holds
    refine ⟨stage, there, locked, ?_, System.proceeds_of_locked there locked⟩
    rintro result rfl
    cases locked
  · intro action later seen step
    refine ⟨?_, orderly.renewed_by_meetings step⟩
    intro one another met
    obtain ⟨whole, noted, -⟩ := System.met_of_step step met
    exact ⟨whole, noted, orderly.pairs step met⟩

/-- The program of a restart that is about to raise the flag. -/
def Call.stopping? : Call → Option Program
  | .restart (.stopping program) => some program
  | _ => none

theorem Call.restart_of_stopping? {call : Call} {program : Program}
    (found : call.stopping? = some program) : call = .restart (.stopping program) := by
  unfold stopping? at found
  split at found
  · obtain rfl := Option.some.inj found
    rfl
  · cases found

/-- The program cell is poisoned while the worker is past its look at the flag, and a restart has looked
for a shutdown. -/
def stepsToPoisonedStore : List Action :=
  [List.replicate 9 .work, [.poisonProgram, .requestRestart ⟨.text ".", .nothing, none⟩],
    List.replicate 2 (.proceed 0)].flatten

/-- The restart fails, the worker ends its round, and another restart is tried. -/
def stepsToSecondFailure : List Action :=
  [List.replicate 2 (.proceed 0), List.replicate 6 .work,
    [.requestRestart ⟨.text "-", .nothing, none⟩], List.replicate 5 (.proceed 1)].flatten

/-- One instruction is executed after the flag has been raised, nothing terminal is published, and the
second restart fails as well. -/
theorem failed_restart_disturbs_little_unstored :
    ∃ system events begun moment now later,
      Schedule (.start "worker" (some ⟨[43, 91, 93], [], none⟩) .empty) stepsToPoisonedStore system
        events ∧
      system.calls[0]? = some (.restart (.stopping ⟨[46], [], none⟩)) ∧
      system.perform? (.proceed 0) = some (begun, moment) ∧
      Schedule begun stepsToSecondFailure now later ∧
      now.calls[0]? = some (.restart (.finished (.error .poisoned))) ∧
      now.calls[1]? = some (.restart (.finished (.error .poisoned))) ∧
      executions later = 1 ∧ WindsUp begun now later [] ∧ LaidUp [] [] now [] := by
  have run : ((System.start "worker" (some ⟨[43, 91, 93], [], none⟩) .empty).follow
      stepsToPoisonedStore).bind (fun first => (first.1.perform? (.proceed 0)).bind fun second =>
        (second.1.follow stepsToSecondFailure).map fun third =>
          (decide (first.1.calls[0]?.bind Call.stopping? = some ⟨[46], [], none⟩ ∧
              third.1.calls[0]?.bind Call.result? = some (.error .poisoned) ∧
              third.1.calls[1]?.bind Call.result? = some (.error .poisoned)),
            executions third.2, rendezvous (first.2 ++ second.2 ++ third.2))) =
      some (true, 1, []) := by decide +kernel
  obtain ⟨⟨system, events⟩, followed, run⟩ := Option.bind_eq_some_iff.mp run
  obtain ⟨⟨begun, moment⟩, step, run⟩ := Option.bind_eq_some_iff.mp run
  obtain ⟨⟨now, later⟩, onward, seen⟩ := Option.map_eq_some_iff.mp run
  simp only [Prod.mk.injEq, decide_eq_true_eq] at seen
  obtain ⟨⟨stopping, failed, failed_again⟩, executed, unmet⟩ := seen
  obtain ⟨call, there, stops⟩ := Option.bind_eq_some_iff.mp stopping
  obtain ⟨first, returned, answered⟩ := Option.bind_eq_some_iff.mp failed
  obtain ⟨second, returned_again, answered_again⟩ := Option.bind_eq_some_iff.mp failed_again
  obtain rfl := Call.restart_of_stopping? stops
  obtain rfl := Call.restart_of_result? answered
  obtain rfl := Call.restart_of_result? answered_again
  have history := Schedule.of_follow followed
  have whole := (history.next _ step).trans (.of_follow onward)
  obtain ⟨-, -, winds, -⟩ := failed_restart_disturbs_little history
  obtain ⟨-, -, -, laid, -⟩ := failed_restart_disturbs_little whole
  refine ⟨system, events, begun, moment, now, later, history, there, step, .of_follow onward, returned,
    returned_again, executed, ?_, ?_⟩
  · exact winds 0 _ begun moment _ now later [] now [] _ there step (.of_follow onward) .start returned rfl
  · rw [← unmet]
    exact laid 0 _ [] now [] returned rfl .start

end TapeMachine.Live
