import TapeMachine.Proofs.Live.InForce
import TapeMachine.Proofs.Live.Looks
import TapeMachine.Proofs.Live.Statuses

namespace TapeMachine.Live

variable {name : String} {first : Option Program} {stream : ByteStream}
  {system later : System} {action : Action} {actions : List Action} {seen events : List Event}
  {ticket : Nat} {program : Program}

/-- How many instructions of a program may have been executed that no publication shows yet. -/
def Worker.withholds (ticket : Nat) : Worker → Nat
  | reporting run => if run.job.ticket = ticket then 1 else 0
  | _ => 0

theorem Worker.withholds_le (ticket : Nat) (worker : Worker) : worker.withholds ticket ≤ 1 := by
  cases worker with
  | reporting run =>
    rw [withholds]
    split <;> omega
  | _ => exact Nat.zero_le 1

namespace System

/-- Before the first publication about a program only the instruction that the worker is about to
report has been executed. -/
def Reports (ticket : Nat) (events : List Event) (system : System) : Prop :=
  ¬ Told ticket events → (instructionsOf ticket events).length ≤ system.worker.withholds ticket

theorem Reports.before (reports : system.Reports ticket seen) (untold : ¬ Told ticket (seen ++ events)) :
    (instructionsOf ticket seen).length ≤ system.worker.withholds ticket := by
  apply reports
  rintro ⟨publication, member⟩
  exact untold ⟨publication, List.mem_append_left _ member⟩

theorem Reports.beside (reports : system.Reports ticket seen) (untraced : Untraced ticket events)
    (kept : later.worker = system.worker ∨ system.worker.withholds ticket = 0) :
    later.Reports ticket (seen ++ events) := by
  intro untold
  have withheld := reports.before untold
  rw [instructionsOf_append, untraced.instructionsOf_eq_nil, List.append_nil]
  rcases kept with same | nothing
  · rwa [same]
  · omega

theorem Reports.publish (reports : system.Reports ticket seen) {run : Run} {status : Status}
    {next : Worker} (publishes : system.worker.Publishes run status next) {publication : Publication}
    {notes : List Event} (silent : Silent notes) :
    later.Reports ticket (seen ++ .published run.job.ticket publication :: notes) := by
  by_cases own : run.job.ticket = ticket
  · intro untold
    refine absurd ⟨publication, List.mem_append_right _ ?_⟩ untold
    rw [own]
    exact List.mem_cons_self
  · refine reports.beside ?_ (.inr ?_)
    · intro event member
      rcases List.mem_cons.mp member with rfl | noted
      · simpa [Event.ticket?] using own
      · exact silent.untraced ticket event noted
    · generalize system.worker = worker at publishes
      cases publishes with
      | announce | conclude => rfl
      | report => exact if_neg own

theorem Reports.step (reports : system.Reports ticket seen) (orderly : system.Orderly)
    (step : system.perform? action = some (later, events)) :
    later.Reports ticket (seen ++ events) := by
  cases orderly.moves step with
  | publish publishes | give_up publishes =>
    obtain ⟨notes, silent, rfl⟩ := events_of_publishes publishes step
    exact reports.publish publishes silent
  | @execute run _ _ _ _ stepping ran =>
    obtain rfl := events_of_execution stepping ran step
    intro untold
    have withheld := reports.before untold
    rw [stepping] at withheld
    rw [instructionsOf_append, List.length_append, Nat.eq_zero_of_le_zero withheld, Nat.zero_add]
    by_cases own : run.job.ticket = ticket <;>
      simp [instructionsOf, Event.instruction?, Worker.withholds, own]
  | turn turns silent =>
    refine reports.beside (silent.untraced ticket) (.inr ?_)
    generalize system.worker = worker at turns
    cases turns with
    | turned_away _ there | leave _ there => rcases there with rfl | rfl <;> rfl
    | _ => rfl
  | load loading _ silent => exact reports.beside (silent.untraced ticket) (.inr (by rw [loading]; rfl))
  | conclude stepping _ _ silent | fail stepping silent =>
    exact reports.beside (silent.untraced ticket) (.inr (by rw [stepping]; rfl))
  | crash stands | park_worker stands =>
    exact reports.beside (by simp [Untraced]) (.inr (by rw [stands]; rfl))
  | meet _ waits _ _ _ _ untold =>
    refine reports.beside (untraced_of_untold untold) (.inr ?_)
    rcases waits with there | there <;> rw [there] <;> rfl
  | stop _ silent => exact reports.beside (silent.untraced ticket) (.inl rfl)
  | _ => exact reports.beside (by simp [Untraced]) (.inl rfl)

end System

/-- At most one instruction of a program is executed before something is published about it. -/
theorem Schedule.executed_of_untold
    (history : Schedule (.start name first stream) actions system events)
    (untold : ¬ Told ticket events) : (instructionsOf ticket events).length ≤ 1 := by
  have reports : system.Reports ticket events := by
    clear untold
    induction history with
    | start => exact fun _ => Nat.le_refl 0
    | next action earlier step ih => exact ih.step (earlier.orderly (.start name first stream)) step
  exact Nat.le_trans (reports untold) (system.worker.withholds_le ticket)

/-- The worker has executed a program to its end, on what there was to read when the program was put
in charge and on some of what has been fed since. -/
def RanToEnd (initial : System) (ticket : Nat) (program : Program) (actions : List Action)
    (system : System) (events : List Event) (last : Machine) : Prop :=
  ∃ begun since items trail rest, Tenure initial actions system events begun since ∧
    items <+: itemsFed since ∧ Path program.machine (begun.stream.feed items) trail last rest ∧
    trail.map Advance.op = instructionsOf ticket events ∧ last.peek = none

theorem System.sound_of_done (done : system.look.status = .done) : system.state.poisoned = false := by
  by_contra poisoned
  rw [System.look_of_poisoned (by simpa using poisoned)] at done
  cases done

/-- If something has been published about the program in force and it is seen as done, it has been
executed to its end, and that end is what is seen. -/
theorem InForce.ranToEnd (force : InForce name first stream ticket program actions system events)
    (told : Told ticket events) (done : system.look.status = .done) :
    ∃ last, RanToEnd (.start name first stream) ticket program actions system events last ∧
      system.look = ⟨.done, last.tape, last.output⟩ ∧ system.worker.spent = true := by
  have history := force.schedule
  have given := force.program_eq
  have charge := force.charge
  have sound := System.sound_of_done done
  obtain ⟨begun, since, tenure⟩ := history.tenure
  obtain ⟨trail, _, _, account⟩ := tenure.accounted (by rwa [charge])
  rw [charge] at account
  rw [System.look_of_sound sound] at done ⊢
  obtain ⟨truthful, ending⟩ := account.seen sound told
  obtain ⟨count, items, last, rest, length, fed, path, tape, output, holds⟩ := truthful
  rw [done] at holds
  obtain ⟨ended, rfl⟩ := holds
  rw [List.take_length] at path
  refine ⟨last, ⟨begun, since, items, trail, rest, tenure, fed, path, account.executed, ended⟩, ?_,
    ending (by rw [done]; rfl)⟩
  rw [← done, ← tape, ← output]

/-- As long as nothing has been published about the program in force, it is seen as done if it was
there from the start, and not if a restart has put it there. -/
theorem InForce.look_of_untold
    (force : InForce name first stream ticket program actions system events)
    (untold : ¬ Told ticket events) (sound : system.state.poisoned = false) :
    system.look = .fresh (if ticket = 0 then .done else .running) := by
  rw [System.look_of_sound sound]
  have there : system.state.load? = some system.state.value := by simp [SharedCell.load?, sound]
  rcases force.schedule.sourced _ there with fresh | ⟨publication, member, -⟩
  · rw [fresh, firstLook]
    simp only [force.rendezvous_eq_nil_iff]
  · rw [force.charge] at member
    exact absurd ⟨publication, member⟩ untold

/-- Whatever the order of steps, let a program be in force. If a restart has put it there, or if
something has been published about it, it is seen as done only if the worker has executed it to its
end; what is seen then is that end, and nothing of the program is executed or published any more,
whatever happens next. If it was there from the start and nothing has been published about it, it is
seen as done although the worker has executed at most one of its instructions. -/
theorem seen_done_at_end
    (force : InForce name first stream ticket program actions system events) :
    (system.look.status = .done → ticket ≠ 0 ∨ Told ticket events →
      ∃ last, RanToEnd (.start name first stream) ticket program actions system events last ∧
        system.look = ⟨.done, last.tape, last.output⟩ ∧
        ∀ more now later, Schedule system more now later → Untraced ticket later) ∧
    (ticket = 0 → ¬ Told ticket events → system.state.poisoned = false →
      system.look = .fresh .done ∧ (instructionsOf ticket events).length ≤ 1) := by
  constructor
  · intro done begun
    have told : Told ticket events := by
      by_contra untold
      have restarted := begun.resolve_right untold
      rw [force.look_of_untold untold (System.sound_of_done done), if_neg restarted] at done
      cases done
    obtain ⟨last, ended, same, spent⟩ := force.ranToEnd told done
    refine ⟨last, ended, same, ?_⟩
    intro more now later onward
    have isolated := force.schedule.isolated (.start name first stream)
    have quiet := (onward.untraced_after isolated spent).1
    rwa [List.nil_append, force.charge] at quiet
  · rintro rfl untold sound
    refine ⟨?_, force.schedule.executed_of_untold untold⟩
    rw [force.look_of_untold untold sound, if_pos rfl]

/-- An endless program is replaced by one that writes a byte; the steps up to the last one of the
restart. -/
def stepsToReturn : List Action :=
  [List.replicate 9 .work, [.requestRestart ⟨.text "+.", .nothing, none⟩],
    List.replicate 5 (.proceed 0), List.replicate 6 .work, List.replicate 2 (.proceed 0)].flatten

/-- The new program is executed to its end, and seen as done. -/
theorem seen_done_at_end_replaced :
    ∃ system events last,
      InForce "worker" (some ⟨[43, 91, 93], [], none⟩) .empty 1 ⟨[43, 46], [], none⟩
        (stepsToReturn ++ [.proceed 0] ++ List.replicate 19 .work) system events ∧
      system.look.status = .done ∧ instructionsOf 1 events = [.increment, .output] ∧
      RanToEnd (.start "worker" (some ⟨[43, 91, 93], [], none⟩) .empty) 1 ⟨[43, 46], [], none⟩
        (stepsToReturn ++ [.proceed 0] ++ List.replicate 19 .work) system events last ∧
      system.look = ⟨.done, last.tape, last.output⟩ ∧ last.output = #[1] := by
  have run : ((System.start "worker" (some ⟨[43, 91, 93], [], none⟩) .empty).follow
      stepsToReturn).bind (fun first => (first.1.perform? (.proceed 0)).bind fun second =>
        (second.1.follow (List.replicate 19 .work)).map fun third =>
          (decide (second.1.calls[0]?.bind Call.result? = some (.ok ()) ∧ rendezvous third.2 = []),
            third.1.look.status, third.1.look.output,
            instructionsOf 1 (first.2 ++ second.2 ++ third.2))) =
      some (true, .done, #[1], [.increment, .output]) := by decide +kernel
  obtain ⟨⟨waiting, earlier⟩, followed, run⟩ := Option.bind_eq_some_iff.mp run
  obtain ⟨⟨begun, moment⟩, step, run⟩ := Option.bind_eq_some_iff.mp run
  obtain ⟨⟨system, later⟩, onward, seen⟩ := Option.map_eq_some_iff.mp run
  simp only [Prod.mk.injEq, decide_eq_true_eq] at seen
  obtain ⟨⟨returned, apart⟩, done, output, executed⟩ := seen
  obtain ⟨call, answered, ended⟩ := Option.bind_eq_some_iff.mp returned
  obtain rfl := Call.restart_of_result? ended
  have handed : handedIn stepsToReturn 0 = some ⟨[43, 46], [], none⟩ := by decide +kernel
  have force := InForce.restarted (.of_follow followed) handed step answered (.of_follow onward) apart
  obtain ⟨last, ranToEnd, same, -⟩ := (seen_done_at_end force).1 done (.inl (by decide))
  rw [same] at output
  exact ⟨system, _, last, force, done, executed, ranToEnd, same, output⟩

/-- The first program is endless, and it is seen as done while its first instruction has just been
executed. -/
theorem seen_done_of_endless :
    ∃ system events,
      InForce "worker" (some ⟨[43, 91, 93], [], none⟩) .empty 0 ⟨[43, 91, 93], [], none⟩
        (List.replicate 7 .work) system events ∧
      system.look.status = .done ∧ instructionsOf 0 events = [.increment] ∧
      ∀ last, ¬ RanToEnd (.start "worker" (some ⟨[43, 91, 93], [], none⟩) .empty) 0
        ⟨[43, 91, 93], [], none⟩ (List.replicate 7 .work) system events last := by
  have run : ((System.start "worker" (some ⟨[43, 91, 93], [], none⟩) .empty).follow
      (List.replicate 7 .work)).map (fun result =>
        (rendezvous result.2, result.1.look.status, instructionsOf 0 result.2)) =
      some ([], .done, [.increment]) := by decide +kernel
  obtain ⟨⟨system, events⟩, followed, seen⟩ := Option.map_eq_some_iff.mp run
  obtain ⟨apart, done, executed⟩ : rendezvous events = [] ∧ system.look.status = .done ∧
      instructionsOf 0 events = [.increment] := by simpa using seen
  refine ⟨system, events, .constructed rfl (.of_follow followed) apart, done, executed, ?_⟩
  rintro last ⟨_, _, _, trail, _, -, -, path, ops, ended⟩
  rw [executed] at ops
  obtain ⟨advance, rfl, op⟩ := List.map_eq_singleton_iff.mp ops
  obtain ⟨later, rest, step, -, onward⟩ := path.uncons
  obtain ⟨rfl, rfl⟩ := onward.of_nil
  have next : later.peek = some .loopStart := by
    have machine : _ = later := congrArg StepResult.machine step
    rw [← machine]
    rfl
  cases next.symm.trans ended

end TapeMachine.Live
