import TapeMachine.Proofs.Live.Progress

namespace TapeMachine.Live

variable {name : String} {first : Option Program} {stream : ByteStream}
  {initial system later begun : System} {actions since : List Action} {events : List Event}
  {program : Program}

/-- While no restart is in progress, the worker meets nobody and leaves the calls alone. -/
theorem System.Returned.work (returned : system.Returned) (moves : Moves system .work later events) :
    rendezvous events = [] ∧ later.calls = system.calls ∧ later.closed = system.closed ∧
      later.program = system.program := by
  cases moves with
  | turn _ silent | load _ _ silent | conclude _ _ _ silent | fail _ silent =>
    exact ⟨System.silent_rendezvous silent, rfl, rfl, rfl⟩
  | publish _ _ traces | give_up _ _ traces | execute _ _ traces =>
    exact ⟨System.traces_rendezvous traces, rfl, rfl, rfl⟩
  | crash | park_worker => exact ⟨rfl, rfl, rfl, rfl⟩
  | meet _ _ call pending =>
    obtain ⟨result, rfl⟩ := returned _ _ call
    cases pending
  | request made => cases made

theorem System.Returned.beside (returned : system.Returned) (calls : later.calls = system.calls) :
    later.Returned := by
  intro id stage call
  rw [calls] at call
  exact returned id stage call

/-- The worker's own steps belong to the tenure. No restart is in progress after one of them either, so
that none ends the tenure. -/
theorem Tenure.solo (tenure : Tenure initial actions system events begun since)
    (orderly : system.Orderly) (returned : system.Returned) (count : Nat) :
    ∃ extra seen, Tenure initial (actions ++ extra) (system.solo count).1 (events ++ seen) begun
        (since ++ extra) ∧ rendezvous seen = [] ∧ itemsFed extra = [] ∧
      (system.solo count).1.calls = system.calls ∧ (system.solo count).1.closed = system.closed ∧
      (system.solo count).1.program = system.program := by
  induction count generalizing system actions events since with
  | zero => exact ⟨[], [], by simpa [System.solo] using tenure, rfl, rfl, rfl, rfl, rfl⟩
  | succ count ih =>
    rcases step : system.workerStep? with _ | ⟨next, new⟩
    · rw [System.solo_parked step]
      exact ⟨[], [], by simpa using tenure, rfl, rfl, rfl, rfl, rfl⟩
    · have moves := orderly.worker_moves step
      obtain ⟨apart, calls, closed, program⟩ := returned.work moves
      obtain ⟨extra, seen, onward, quiet, unfed, calls', closed', program'⟩ :=
        ih (tenure.quiet .work step apart) (orderly.step moves) (returned.beside calls)
      rw [System.solo_succ step]
      refine ⟨.work :: extra, new ++ seen, ?_, ?_, ?_, calls'.trans calls, closed'.trans closed,
        program'.trans program⟩
      · simpa using onward
      · rw [rendezvous_append, apart, quiet, List.append_nil]
      · simpa [itemsFed, Action.items] using unfed

/-- A restart that has handed in a program and is over has been answered without an error, after its
rendezvous. -/
theorem System.Intact.answered {met : List Nat} (intact : system.Intact first actions met)
    (returned : system.Returned) {id : Nat} (known : handedIn actions id = some program) :
    system.calls[id]? = some (.restart (.finished (.ok ()))) ∧ id ∈ met := by
  obtain ⟨stage, call, answers⟩ := intact.asked id program known
  obtain ⟨result, rfl⟩ := returned id stage call
  obtain ⟨member, fine⟩ := answers rfl
  obtain rfl := fine result rfl
  exact ⟨call, member⟩

/-- A worker that waits at the barrier, while no restart is in progress, has published the final
result of the program in charge. -/
theorem Tenure.final (tenure : Tenure (.start name first stream) actions system events begun since)
    (sound : system.Sound) (returned : system.Returned)
    (charge : programOf first actions (inCharge (rendezvous events)) = some program)
    (given : system.program.value ≠ none) (waits : system.worker = .waiting) :
    Finished program begun.stream (itemsFed since) system.look := by
  have resting := (tenure.served charge).2 sound
  have seen : system.look = system.state.value := by
    simp [System.look, SharedCell.load?, sound.state]
  rw [seen]
  rcases resting (.inr waits) with ⟨id, stage, call, raised⟩ | empty | finished
  · obtain ⟨result, rfl⟩ := returned id stage call
    cases raised
  · exact absurd empty given
  · exact finished

/-- A worker that has something else to do gets to the barrier by its own steps, with the final result
published, if the program in charge comes to an end on what there is to read. -/
theorem Tenure.comes_to_rest
    (tenure : Tenure (.start name first stream) actions system events begun since)
    (sound : system.Sound) (returned : system.Returned)
    (charge : programOf first actions (inCharge (rendezvous events)) = some program)
    (given : system.program.value ≠ none) {snapshot : Snapshot}
    (finishes : Finishes program (begun.stream.feed (itemsFed since)) snapshot) :
    ∃ count, (system.solo count).1.worker = .waiting ∧
      Finished program begun.stream (itemsFed since) (system.solo count).1.look := by
  have history := tenure.schedule
  have isolated : system.Isolated (rendezvous events) := history.isolated (.start name first stream)
  have genuine : system.Genuine first actions :=
    history.genuine (.start name first stream) (.start name first stream)
  obtain ⟨blank, serving⟩ := (tenure.served charge).1
  obtain ⟨count, waits, healthy⟩ := returned.parks sound isolated (history.intact sound) serving
    (genuine.stored_program charge) given finishes.ends
  obtain ⟨extra, seen, onward, quiet, unfed, calls, closed, cell⟩ :=
    tenure.solo isolated.orderly returned count
  have sound_later : (system.solo count).1.Sound :=
    ⟨closed.trans sound.unclosed, healthy, by rw [cell, sound.program], by simp [waits]⟩
  have charge_later : programOf first (actions ++ extra) (inCharge (rendezvous (events ++ seen))) =
      some program := by
    rw [rendezvous_append, quiet, List.append_nil]
    exact programOf_append charge extra
  have final := onward.final sound_later (returned.beside calls) charge_later (by rwa [cell]) waits
  rw [itemsFed_append, unfed, List.append_nil] at final
  exact ⟨count, waits, final⟩

/-- When no restart is in progress and some program has been given, a program is in charge and the worker
finds one. The first program is in charge only as long as nobody has met the worker. -/
theorem Schedule.in_charge (history : Schedule (.start name first stream) actions system events)
    (sound : system.Sound) (returned : system.Returned)
    (given : first ≠ none ∨ ∃ id program, handedIn actions id = some program) :
    system.program.value ≠ none ∧
      ∃ program, programOf first actions (inCharge (rendezvous events)) = some program := by
  have intact := history.intact sound
  have someone : ¬ (first = none ∧ rendezvous events = []) := by
    rintro ⟨nobody, none_met⟩
    rcases given with there | ⟨id, program, known⟩
    · exact there nobody
    · have member := (intact.answered returned known).2
      rw [none_met] at member
      cases member
  refine ⟨fun empty => someone (intact.given empty), ?_⟩
  rcases ticket : inCharge (rendezvous events) with _ | id
  · have none_met : rendezvous events = [] := by
      by_contra some_met
      exact inCharge_ne_zero some_met ticket
    exact Option.ne_none_iff_exists'.mp fun nobody => someone ⟨nobody, none_met⟩
  · exact history.handedIn_of_met (inCharge_mem ticket)

/-- In every order of steps without a shutdown and without poisoning, when no restart is in progress
and some program has been given: the stop flag is down, and every restart that handed in a program has
returned without an error, after its rendezvous. Let the program in charge be the one of the latest
rendezvous, or the first one if there was none, and let it read what there was to read then and what
has been added since. If the worker waits at the barrier, everybody who looks sees the final result of
that program, as the plain machine comes to it. If it does not wait there, it gets there by its own
steps, with the final result published, as soon as the program comes to an end on what there is to
read. -/
theorem no_restart_lost (history : Schedule (.start name first stream) actions system events)
    (sound : system.Sound) (returned : system.Returned)
    (given : first ≠ none ∨ ∃ id program, handedIn actions id = some program) :
    system.stop = false ∧
    (∀ id program, handedIn actions id = some program →
      system.calls[id]? = some (.restart (.finished (.ok ()))) ∧ id ∈ rendezvous events) ∧
    ∃ program begun since, Tenure (.start name first stream) actions system events begun since ∧
      programOf first actions (inCharge (rendezvous events)) = some program ∧
      (system.worker = .waiting → Finished program begun.stream (itemsFed since) system.look) ∧
      ((∃ snapshot, Finishes program (begun.stream.feed (itemsFed since)) snapshot) →
        ∃ count, (system.solo count).1.worker = .waiting ∧
          Finished program begun.stream (itemsFed since) (system.solo count).1.look) := by
  have intact := history.intact sound
  obtain ⟨stored, program, charge⟩ := history.in_charge sound returned given
  obtain ⟨begun, since, tenure⟩ := history.tenure
  refine ⟨intact.unstopped returned, fun id program known => intact.answered returned known, program,
    begun, since, tenure, charge, tenure.final sound returned charge stored, ?_⟩
  rintro ⟨snapshot, finishes⟩
  exact tenure.comes_to_rest sound returned charge stored finishes

/-- An endless program is replaced while the worker is between its two looks at the flags, so that it
executes one more instruction before it comes to the barrier. -/
def stepsOfReplacement : List Action :=
  [List.replicate 9 .work, [.requestRestart ⟨.text "+.", .nothing, none⟩],
    List.replicate 5 (.proceed 0), List.replicate 6 .work, List.replicate 3 (.proceed 0),
    List.replicate 19 .work].flatten

/-- The new program runs to its end. -/
theorem no_restart_lost_endless_replaced :
    ∃ system events program begun since,
      Schedule (.start "worker" (some ⟨[43, 91, 93], [], none⟩) .empty) stepsOfReplacement system
        events ∧
      system.Sound ∧ system.Returned ∧ system.worker = .waiting ∧ system.stop = false ∧
      rendezvous events = [0] ∧ programOf none stepsOfReplacement 1 = some program ∧
      Tenure (.start "worker" (some ⟨[43, 91, 93], [], none⟩) .empty) stepsOfReplacement system events
        begun since ∧
      Finished program begun.stream (itemsFed since) system.look ∧
      system.look.status = .done ∧ system.look.output = #[1] := by
  have run : ((System.start "worker" (some ⟨[43, 91, 93], [], none⟩) .empty).follow
      stepsOfReplacement).any (fun last =>
        (rendezvous last.2 = [0] ∧ last.1.look.status = .done ∧ last.1.look.output = #[1] ∧
          last.1.calls.map (·.result?.isSome) = [true]) ∧
        (last.1.closed = false ∧ last.1.state.poisoned = false ∧ last.1.program.poisoned = false) ∧
        (match last.1.worker with
          | .waiting => true
          | _ => false) = true) = true := by decide +kernel
  rcases followed : (System.start "worker" (some ⟨[43, 91, 93], [], none⟩) .empty).follow
      stepsOfReplacement with _ | ⟨system, events⟩
  · rw [followed] at run
    cases run
  rw [followed] at run
  obtain ⟨⟨once, status, output, results⟩, ⟨unclosed, healthy, stored⟩, parked⟩ :=
    of_decide_eq_true run
  have waits : system.worker = .waiting := by
    generalize system.worker = worker at parked
    cases worker <;> first | rfl | cases parked
  have sound : system.Sound := ⟨unclosed, healthy, stored, by simp [waits]⟩
  have returned : system.Returned := by
    intro id stage call
    have known := congrArg (·[id]?) results
    simp only [List.getElem?_map, call, Option.map_some] at known
    rcases id with _ | id
    · cases stage with
      | finished result => exact ⟨result, rfl⟩
      | _ => cases known
    · cases known
  obtain ⟨stop, -, program, begun, since, tenure, charge, final, -⟩ :=
    no_restart_lost (.of_follow followed) sound returned (.inl (by simp))
  rw [once] at charge
  exact ⟨system, events, program, begun, since, .of_follow followed, sound, returned, waits, stop, once,
    charge, tenure, final waits, status, output⟩

end TapeMachine.Live
