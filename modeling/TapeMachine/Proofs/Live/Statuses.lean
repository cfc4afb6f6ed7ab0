import TapeMachine.Proofs.Live.Account
import TapeMachine.Proofs.Live.Resting

namespace TapeMachine.Live

variable {name : String} {first : Option Program} {stream : ByteStream}
  {system later begun : System} {action : Action} {actions since : List Action} {events : List Event}
  {program : Program}

/-- The program in charge has an account, which begins with the latest rendezvous or at the start. -/
theorem Tenure.accounted
    (tenure : Tenure (.start name first stream) actions system events begun since)
    (charge : programOf first actions (inCharge (rendezvous events)) = some program) :
    ∃ trail last rest, system.Account (inCharge (rendezvous events)) program begun.stream
      (itemsFed since) events trail last rest := by
  induction tenure with
  | start => exact ⟨_, _, _, .begin rfl (by simp [Untraced])⟩
  | @quiet actions since current later begun seen events action earlier step apart ih =>
    have schedule := earlier.schedule
    have isolated : current.Isolated (rendezvous seen) := schedule.isolated (.start name first stream)
    have genuine : current.Genuine first actions :=
      schedule.genuine (.start name first stream) (.start name first stream)
    have items : itemsFed (since ++ [action]) = itemsFed since ++ action.items := by
      simp [itemsFed]
    rw [rendezvous_append, apart, List.append_nil] at charge ⊢
    have charge' := schedule.charge_before charge
    obtain ⟨trail, last, rest, account⟩ := ih charge'
    rw [items]
    exact account.step isolated (genuine.stored_program charge') step apart
  | @meet actions since current later begun seen events action earlier step some_met =>
    have schedule := earlier.schedule
    have isolated : current.Isolated (rendezvous seen) := schedule.isolated (.start name first stream)
    obtain ⟨id, stage, state, -, -, -, -, one, untold, after⟩ :=
      System.meets_of_rendezvous (isolated.orderly.moves step) some_met
    have untraced := schedule.untraced_of_meeting (.start name first stream) step one untold
    rw [rendezvous_append, one, inCharge_concat, after]
    exact ⟨_, _, _, .begin rfl untraced⟩

namespace System

/-- Before a read that finds the queue empty, everybody sees that input is awaited. -/
def Announced (system : System) : Prop :=
  ∀ run, system.worker = .stepping run → run.machine.awaitsInput = true →
    system.state.poisoned = false → system.state.value = run.snapshot .waitingForInput

theorem Announced.step (announced : system.Announced) (orderly : system.Orderly)
    (step : system.perform? action = some (later, events)) : later.Announced := by
  cases orderly.moves step with
  | @turn next events turns silent =>
    rintro run rfl awaits
    generalize place : system.worker = worker at turns
    cases turns with
    | ready =>
      have publishes : system.worker.Publishes run .waitingForInput (.stepping run) := by
        rw [place]
        exact .announce awaits
      obtain ⟨notes, -, rfl⟩ := events_of_publishes publishes step
      cases (silent _ List.mem_cons_self).1
  | publish publishes =>
    rintro run rfl - -
    generalize system.worker = worker at publishes
    cases publishes with
    | announce => rfl
  | load | give_up | execute | conclude | fail | crash | park_worker | meet =>
    intro run there
    cases there
  | poison_state =>
    intro run there awaits sound
    cases sound
  | _ => exact announced

end System

theorem Schedule.announced
    (history : Schedule (.start name first stream) actions system events) : system.Announced := by
  induction history with
  | start =>
    intro run there
    cases there
  | next action earlier step ih => exact ih.step (earlier.orderly (.start name first stream)) step

/-- What is published about belongs to a program that was handed in. -/
theorem Schedule.program_of_told
    (history : Schedule (.start name first stream) actions system events) {ticket : Nat}
    (told : Told ticket events) : ∃ program, programOf first actions ticket = some program := by
  obtain ⟨publication, member⟩ := told
  obtain ⟨before, seen, moment, run, status, next, ⟨more, rfl⟩, earlier, publishes, rfl, -⟩ :=
    history.publication (.start name first stream) member
  have genuine : moment.Genuine first before :=
    earlier.genuine (.start name first stream) (.start name first stream)
  exact ⟨run.job.program, programOf_append (genuine.loaded run publishes.same_run.1) more⟩

theorem System.look_of_sound (sound : system.state.poisoned = false) :
    system.look = system.state.value := by
  simp [look, SharedCell.load?, sound]

theorem System.look_of_poisoned (poisoned : system.state.poisoned = true) :
    system.look = .fresh (.fatal poisonedMessage) := by
  simp [look, SharedCell.load?, poisoned]

/-- Whatever the order of steps:
while the worker reads from the stream, everybody sees that input is awaited, with the tape and the
output of the machine that reads, or that the state cell is poisoned;
and when the state cell is sound and something has been published about the program in charge since
the latest rendezvous, or since the start, the program has executed the instructions of `trail`, and
what is seen is true of it as it was at most one instruction ago. Once the end of the program is seen,
nothing of it is executed or published any more, whatever happens next. -/
theorem published_statuses_true
    (history : Schedule (.start name first stream) actions system events) :
    (∀ run, system.worker = .stepping run → run.machine.ReadsStream →
      system.look = if system.state.poisoned then .fresh (.fatal poisonedMessage)
        else run.snapshot .waitingForInput) ∧
    (system.state.poisoned = false → Told (inCharge (rendezvous events)) events →
      ∃ program begun since trail last rest late,
        Tenure (.start name first stream) actions system events begun since ∧
        programOf first actions (inCharge (rendezvous events)) = some program ∧
        Path program.machine (begun.stream.feed (itemsFed since)) trail last rest ∧
        trail.map Advance.op = instructionsOf (inCharge (rendezvous events)) events ∧
        (∀ run, system.worker.run? = some run →
          run.job.ticket = inCharge (rendezvous events) ∧ run.machine = last) ∧
        late ≤ 1 ∧ Truthful program begun.stream (itemsFed since) trail late system.look ∧
        (system.look.status.isTerminal = true → ∀ more now later, Schedule system more now later →
          Untraced (inCharge (rendezvous events)) later)) := by
  constructor
  · intro run stepping reads
    rcases poisoned : system.state.poisoned
    · rw [System.look_of_sound poisoned]
      exact history.announced run stepping reads.awaitsInput poisoned
    · exact System.look_of_poisoned poisoned
  · intro sound told
    have isolated : system.Isolated (rendezvous events) := history.isolated (.start name first stream)
    obtain ⟨begun, since, tenure⟩ := history.tenure
    obtain ⟨program, charge⟩ := history.program_of_told told
    obtain ⟨trail, last, rest, account⟩ := tenure.accounted charge
    obtain ⟨truthful, ending⟩ := account.seen sound told
    rw [System.look_of_sound sound]
    refine ⟨program, begun, since, trail, last, rest, system.worker.late, tenure, charge, account.path,
      account.executed, ?_, ?_, truthful, ?_⟩
    · intro run there
      rcases account.loaded run there with own | other
      · exact ⟨own.1, own.2.1⟩
      · exact absurd told other.2.not_told
    · cases system.worker <;> simp [Worker.late]
    · intro terminal more now later onward
      exact (onward.untraced_after isolated (ending terminal)).1

/-- An endless program is replaced by one that writes a byte and then reads one. -/
def stepsToRead : List Action :=
  [List.replicate 9 .work, [.requestRestart ⟨.text "+.,", .nothing, none⟩],
    List.replicate 5 (.proceed 0), List.replicate 22 .work].flatten

/-- The worker waits for a byte, and everybody sees so, together with the byte that was written. -/
theorem published_statuses_true_while_reading :
    ∃ system events run program last late, ∃ begun : System, ∃ since trail rest,
      Schedule (.start "worker" (some ⟨[43, 91, 93], [], none⟩) (.script [])) stepsToRead system
        events ∧
      system.worker = .stepping run ∧ run.machine.ReadsStream ∧ system.workerStep?.isNone = true ∧
      system.look = run.snapshot .waitingForInput ∧ system.look.output = #[1] ∧
      rendezvous events = [0] ∧ Told 1 events ∧ programOf none stepsToRead 1 = some program ∧
      Path program.machine (begun.stream.feed (itemsFed since)) trail last rest ∧
      trail.map Advance.op = [.increment, .output] ∧ run.machine = last ∧ late ≤ 1 ∧
      Truthful program begun.stream (itemsFed since) trail late system.look := by
  have seen : ((System.start "worker" (some ⟨[43, 91, 93], [], none⟩) (.script [])).follow
      stepsToRead).any (fun last =>
        (rendezvous last.2 = [0] ∧ Told 1 last.2 ∧
          instructionsOf 1 last.2 = [.increment, .output]) ∧
        (last.1.look.output = #[1] ∧ last.1.state.poisoned = false ∧
          last.1.workerStep?.isNone = true) ∧
        (match last.1.worker with
          | .stepping run => decide run.machine.ReadsStream
          | _ => false) = true) = true := by decide +kernel
  rcases followed : (System.start "worker" (some ⟨[43, 91, 93], [], none⟩) (.script [])).follow
      stepsToRead with _ | ⟨system, events⟩
  · rw [followed] at seen
    cases seen
  rw [followed] at seen
  obtain ⟨⟨once, told, executed⟩, ⟨output, sound, blocked⟩, place⟩ := of_decide_eq_true seen
  rcases stepping : system.worker with _ | _ | _ | _ | _ | _ | run | _ | _ | _ | _ | _ | _ | _ | _
  all_goals rw [stepping] at place
  case stepping =>
    have reads : run.machine.ReadsStream := of_decide_eq_true place
    obtain ⟨reading, account⟩ := published_statuses_true (.of_follow followed)
    have look := reading run stepping reads
    rw [sound] at look
    rw [once] at account
    obtain ⟨program, begun, since, trail, last, rest, late, -, charge, path, ops, own, near, truthful,
      -⟩ := account sound told
    have same := (own run (by rw [stepping, Worker.run?])).2
    exact ⟨system, events, run, program, last, late, begun, since, trail, rest, .of_follow followed,
      stepping, reads, blocked, look, output, once, told, charge, path, ops.trans executed, same, near,
      truthful⟩
  all_goals cases place

end TapeMachine.Live
