import Mathlib.Tactic.ByContra
import TapeMachine.Proofs.Live.Serving

namespace TapeMachine.Live

variable {initial system : System} {actions : List Action} {events : List Event} {met : List Nat}
  {first : Option Program}

theorem Schedule.isolated (schedule : Schedule initial actions system events)
    (isolated : initial.Isolated met) : system.Isolated (met ++ rendezvous events) := by
  induction schedule with
  | start =>
    rw [rendezvous, List.filterMap_nil, List.append_nil]
    exact isolated
  | next action _ step ih =>
    rw [rendezvous_append, ← List.append_assoc]
    exact ih.step (ih.orderly.moves step)

theorem Schedule.genuine {before : List Action} (schedule : Schedule initial actions system events)
    (orderly : initial.Orderly) (genuine : initial.Genuine first before) :
    system.Genuine first (before ++ actions) := by
  induction schedule with
  | start =>
    rw [List.append_nil]
    exact genuine
  | next action earlier step ih =>
    rw [← List.append_assoc]
    exact ih.step ((earlier.orderly orderly).moves step)

/-- Every trace of a program comes while the program is in charge. A step that leaves a trace is no
rendezvous, so that who is in charge does not change within it. -/
theorem Schedule.traces (schedule : Schedule initial actions system events)
    (isolated : initial.Isolated met) {before after : List Event} {event : Event} {ticket : Nat}
    (place : events = before ++ event :: after) (trace : event.ticket? = some ticket) :
    ticket = inCharge (met ++ rendezvous before) := by
  induction schedule generalizing after with
  | start => simp at place
  | @next actions current later seen events action earlier step ih =>
    have now := earlier.isolated isolated
    have moves := now.orderly.moves step
    have recent {within rest : List Event} (here : events = within ++ event :: rest) :
        ticket = inCharge (met ++ rendezvous (seen ++ within)) := by
      have member : event ∈ events := by simp [here]
      have apart : rendezvous events = [] := by
        by_contra some_met
        obtain ⟨_, _, _, -, -, -, -, -, untold, -⟩ := System.meets_of_rendezvous moves some_met
        rw [untold event member] at trace
        cases trace
      rw [here, rendezvous_append] at apart
      rw [rendezvous_append, (List.append_eq_nil_iff.mp apart).1, List.append_nil]
      exact now.traces moves event member ticket trace
    rcases List.append_eq_append_iff.mp place with ⟨within, rfl, here⟩ | ⟨within, old, here⟩
    · exact recent here
    · rcases within with _ | ⟨head, within⟩
      · rw [List.append_nil] at old
        subst old
        have last := @recent [] after here.symm
        rwa [List.append_nil] at last
      · obtain ⟨rfl, rfl⟩ := List.cons_eq_cons.mp here
        exact ih old

/-- Between two rendezvous the program in charge is served. -/
theorem Schedule.serving {now : System} {since : List Action} {later : List Event}
    {blank : Snapshot} {program : Program} {base : ByteStream}
    (schedule : Schedule system since now later)
    (isolated : system.Isolated met) (genuine : system.Genuine first actions)
    (charge : programOf first actions (inCharge met) = some program)
    (serving : system.Serving blank (inCharge met) program base [])
    (apart : rendezvous later = []) :
    now.Serving blank (inCharge met) program base (itemsFed since) := by
  induction schedule with
  | start => exact serving
  | @next since current now seen events action earlier step ih =>
    rw [rendezvous_append] at apart
    obtain ⟨apart_before, apart_now⟩ := List.append_eq_nil_iff.mp apart
    have isolated_now : current.Isolated met := by
      have kept := earlier.isolated isolated
      rwa [apart_before, List.append_nil] at kept
    have ours := (earlier.genuine isolated.orderly genuine).stored_program
      (programOf_append charge since)
    rw [itemsFed_append]
    have one : itemsFed [action] = action.items := by simp [itemsFed]
    rw [one]
    exact (ih apart_before).step isolated_now ours (isolated_now.orderly.moves step) apart_now

/-- Each restart has its rendezvous once. -/
theorem Schedule.once (schedule : Schedule initial actions system events)
    (isolated : initial.Isolated met) {id : Nat} (before : id ∈ met) : id ∉ rendezvous events := by
  intro again
  have distinct := (schedule.isolated isolated).once
  rw [List.nodup_append] at distinct
  exact distinct.2.2 id before id again rfl

/-- Once there has been a rendezvous, the program in charge is none that was in charge before it. -/
theorem Schedule.traces_after {begun now : System} {since : List Action} {later : List Event}
    {id : Nat} (onward : Schedule begun since now later) (isolated : begun.Isolated (met ++ [id])) :
    ∀ event ∈ later, event.ticket? ≠ some 0 ∧
      ∀ other ∈ met, event.ticket? ≠ some (other + 1) := by
  intro event member
  obtain ⟨before, after, place⟩ := List.append_of_mem member
  have charge {ticket : Nat} (trace : event.ticket? = some ticket) :
      ticket = inCharge (id :: rendezvous before) := by
    have now := onward.traces isolated place trace
    rw [List.append_assoc, List.singleton_append, inCharge_append met (List.cons_ne_nil _ _)] at now
    exact now
  constructor
  · intro trace
    exact inCharge_ne_zero (List.cons_ne_nil _ _) (charge trace).symm
  · intro other earlier trace
    rcases List.mem_cons.mp (inCharge_mem (charge trace).symm) with rfl | again
    · have distinct := isolated.once
      rw [List.nodup_append] at distinct
      exact distinct.2.2 other earlier other (List.mem_singleton_self other) rfl
    · refine onward.once isolated (List.mem_append_left _ earlier) ?_
      rw [place, rendezvous_append]
      exact List.mem_append_left _ again

/-- Whatever the order of steps, once a restart has had its rendezvous:
no instruction of its program was executed before it, and no snapshot of its program was published;
no instruction of an earlier program is executed after it, and no snapshot of one is published;
a program leaves a trace only if its restart has had its rendezvous by then;
and until the next rendezvous everybody who looks sees the fresh running state, a snapshot that the
program of the restart goes through from the rendezvous on, or that the state cell is poisoned. -/
theorem restart_isolation {name : String} {first : Option Program} {stream : ByteStream}
    {actions since : List Action} {action : Action} {system begun now : System}
    {earlier moment later : List Event} {id : Nat}
    (history : Schedule (.start name first stream) actions system earlier)
    (meets : system.perform? action = some (begun, moment)) (restart : id ∈ rendezvous moment)
    (onward : Schedule begun since now later) :
    (∀ event ∈ earlier ++ moment, event.ticket? ≠ some (id + 1)) ∧
    (∀ event ∈ later, event.ticket? ≠ some 0 ∧
      ∀ other ∈ rendezvous earlier, event.ticket? ≠ some (other + 1)) ∧
    (∀ before event after other, earlier ++ moment ++ later = before ++ event :: after →
      event.ticket? = some (other + 1) → other ∈ rendezvous before) ∧
    ∃ program, handedIn actions id = some program ∧ (rendezvous later = [] →
      (∀ event ∈ later, ∀ ticket, event.ticket? = some ticket → ticket = id + 1) ∧
      (now.look = .fresh .running ∨ Shown program begun.stream (itemsFed since) now.look ∨
        now.state.poisoned = true ∧ now.look = .fresh (.fatal poisonedMessage))) := by
  have isolated : system.Isolated (rendezvous earlier) :=
    history.isolated (.start name first stream)
  have genuine : system.Genuine first actions :=
    history.genuine (.start name first stream) (.start name first stream)
  have moves := isolated.orderly.moves meets
  obtain ⟨other, stage, state, call, pending, -, renewed, one, untold, after⟩ :=
    System.meets_of_rendezvous moves (List.ne_nil_of_mem restart)
  obtain rfl : id = other := List.mem_singleton.mp (one ▸ restart)
  have begun_isolated : begun.Isolated (rendezvous earlier ++ [id]) :=
    isolated.meet call pending moves after
  have whole : Schedule (.start name first stream) (actions ++ [action] ++ since) now
      (earlier ++ moment ++ later) := (history.next action meets).trans onward
  refine ⟨?_, onward.traces_after begun_isolated, ?_, ?_⟩
  · intro event member trace
    rcases List.mem_append.mp member with old | new
    · obtain ⟨before, rest, place⟩ := List.append_of_mem old
      have met_before := inCharge_mem (history.traces (.start name first stream) place trace).symm
      have met_earlier : id ∈ rendezvous earlier := by
        rw [place, rendezvous_append]
        exact List.mem_append_left _ met_before
      have met_now := (Schedule.single meets).once isolated met_earlier
      exact met_now restart
    · rw [untold event new] at trace
      cases trace
  · intro before event rest other place trace
    exact inCharge_mem (whole.traces (.start name first stream) place trace).symm
  · obtain ⟨program, stored⟩ := isolated.pending id stage call pending
    have known : handedIn actions id = some program := genuine.stored _ stored
    refine ⟨program, known, ?_⟩
    intro apart
    have charge : inCharge (rendezvous earlier ++ [id]) = id + 1 := inCharge_concat _ id
    constructor
    · intro event member ticket trace
      obtain ⟨before, rest, place⟩ := List.append_of_mem member
      have now_charge := onward.traces begun_isolated place trace
      rw [place, rendezvous_append] at apart
      rw [(List.append_eq_nil_iff.mp apart).1, List.append_nil, charge] at now_charge
      exact now_charge
    · have begins : begun.Serving (.fresh .running) (inCharge (rendezvous earlier ++ [id])) program
          begun.stream [] := by
        rw [after]
        exact .begin renewed
      have ours : programOf first (actions ++ [action]) (inCharge (rendezvous earlier ++ [id])) =
          some program := by
        rw [charge]
        exact handedIn_append known [action]
      exact (onward.serving begun_isolated (genuine.step moves) ours begins apart).look

/-- The steps of `restart_isolation_early_load` up to the second rendezvous: the worker has left a
run that began before the first one, and has loaded the program of the second restart too early. -/
def stepsToRendezvous : List Action :=
  [List.replicate 8 .work, [.requestRestart ⟨.text "+", .nothing, none⟩],
    List.replicate 5 (.proceed 0), List.replicate 2 .work, List.replicate 3 (.proceed 0),
    [.requestRestart ⟨.text "-.", .nothing, none⟩], List.replicate 4 (.proceed 1),
    List.replicate 5 .work].flatten

/-- The worker drops the program that it has loaded too early, and executes it after the
rendezvous. -/
theorem restart_isolation_early_load :
    ∃ system earlier begun moment now later,
      Schedule (.start "worker" (some ⟨[43], [], none⟩) .empty) stepsToRendezvous system earlier ∧
      system.perform? (.proceed 1) = some (begun, moment) ∧ 1 ∈ rendezvous moment ∧
      Schedule begun (List.replicate 8 .work) now later ∧
      rendezvous earlier = [0] ∧ now.look.tape.values = [255] ∧
      (∀ event ∈ earlier ++ moment, event.ticket? ≠ some 2) ∧
      ∀ event ∈ later, event.ticket? ≠ some 0 ∧
        ∀ other ∈ rendezvous earlier, event.ticket? ≠ some (other + 1) := by
  have run : ((System.start "worker" (some ⟨[43], [], none⟩) .empty).follow stepsToRendezvous).bind
      (fun first => (first.1.perform? (.proceed 1)).bind fun second =>
        (second.1.follow (List.replicate 8 .work)).map fun third =>
          (rendezvous first.2, rendezvous second.2, third.1.look.tape.values)) =
      some ([0], [1], [255]) := by decide +kernel
  obtain ⟨⟨system, earlier⟩, followed, run⟩ := Option.bind_eq_some_iff.mp run
  obtain ⟨⟨begun, moment⟩, meets, run⟩ := Option.bind_eq_some_iff.mp run
  obtain ⟨⟨now, later⟩, onward, seen⟩ := Option.map_eq_some_iff.mp run
  obtain ⟨once, restart, shows⟩ : rendezvous earlier = [0] ∧ rendezvous moment = [1] ∧
      now.look.tape.values = [255] := by simpa using seen
  have member : 1 ∈ rendezvous moment := by
    rw [restart]
    exact List.mem_singleton_self 1
  have isolation := restart_isolation (.of_follow followed) meets member (.of_follow onward)
  exact ⟨system, earlier, begun, moment, now, later, .of_follow followed, meets, member,
    .of_follow onward, once, shows, isolation.1, isolation.2.1⟩

end TapeMachine.Live
