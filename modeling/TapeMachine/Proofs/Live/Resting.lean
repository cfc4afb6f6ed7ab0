import TapeMachine.Proofs.Live.Intact

namespace TapeMachine

/-- The status under which the end of a run is published. -/
def RunEnd.status? : RunEnd → Option Status
  | ended => some .done
  | failed error => if error.isProgramFailure then some (.error error.message) else none
  | waiting | exhausted => none

/-- The final result of a program that reads from a stream: how the run of the plain machine ends,
with its tape and its output. -/
def Finishes (program : Program) (stream : ByteStream) (snapshot : Snapshot) : Prop :=
  ∃ budget, let result := program.machine.run budget stream
    result.finish.status? = some snapshot.status ∧ result.machine.tape = snapshot.tape ∧
      result.machine.output = snapshot.output

theorem Finishes.of_path {program : Program} {stream rest left : ByteStream} {trail : List Advance}
    {last : Machine} {outcome : Outcome} {status : Status}
    (path : Path program.machine stream trail last rest)
    (step : last.step rest = ⟨outcome, last, left⟩)
    (ends : outcome.rest?.bind RunEnd.status? = some status) :
    Finishes program stream ⟨status, last.tape, last.output⟩ := by
  obtain ⟨finish, rests, told⟩ := Option.bind_eq_some_iff.mp ends
  refine ⟨trail.length + 1, ?_⟩
  rw [path.run_rest step rests (Nat.lt_succ_self _)]
  exact ⟨told, rfl, rfl⟩

theorem Finishes.path {program : Program} {stream : ByteStream} {snapshot : Snapshot}
    (finishes : Finishes program stream snapshot) :
    ∃ trail last rest outcome left finish, Path program.machine stream trail last rest ∧
      last.step rest = ⟨outcome, last, left⟩ ∧ outcome.rest? = some finish ∧
      finish.status? = some snapshot.status := by
  obtain ⟨budget, told, -, -⟩ := finishes
  rcases run : program.machine.run budget stream with ⟨last, left, steps, finish⟩
  rw [run] at told
  have unspent : finish ≠ .exhausted := by
    rintro rfl
    cases told
  obtain ⟨trail, before, rest, outcome, path, step, rests⟩ :=
    (Machine.run_finish_iff unspent).mp ⟨budget, steps, run⟩
  obtain rfl := Machine.eq_of_rests step rests
  exact ⟨trail, _, rest, outcome, left, finish, path, step, rests, told⟩

/-- What a program goes through last is its final result. -/
theorem PassesThrough.finishes {program : Program} {stream : ByteStream} {snapshot : Snapshot}
    (passes : PassesThrough program stream snapshot) (terminal : snapshot.status.isTerminal = true) :
    Finishes program stream snapshot := by
  cases passes with
  | awaiting | running => cases terminal
  | done path step => exact .of_path path step rfl
  | failed path step own => exact .of_path path step (by simp [Outcome.rest?, RunEnd.status?, own])

namespace Live

/-- The final result of a program that reads from a stream to which some of the fed items had been
added by the end of its run. -/
def Finished (program : Program) (base : ByteStream) (fed : List StreamItem) (snapshot : Snapshot) :
    Prop :=
  ∃ items, items <+: fed ∧ Finishes program (base.feed items) snapshot

theorem Shown.finished {program : Program} {base : ByteStream} {fed : List StreamItem}
    {snapshot : Snapshot} (shown : Shown program base fed snapshot)
    (terminal : snapshot.status.isTerminal = true) : Finished program base fed snapshot := by
  obtain ⟨items, earlier, passes⟩ := shown
  exact ⟨items, earlier, passes.finishes terminal⟩

theorem Finished.later {program : Program} {base : ByteStream} {fed : List StreamItem}
    {snapshot : Snapshot} (finished : Finished program base fed snapshot) (more : List StreamItem) :
    Finished program base (fed ++ more) snapshot := by
  obtain ⟨items, earlier, finishes⟩ := finished
  exact ⟨items, earlier.trans (List.prefix_append fed more), finishes⟩

theorem Concludes.isTerminal {outcome : Outcome} {status : Status}
    (concludes : Concludes outcome status) : status.isTerminal = true := by
  cases outcome with
  | ended =>
    obtain rfl : status = .done := concludes
    rfl
  | failed error =>
    obtain ⟨-, rfl⟩ := concludes
    rfl
  | ran | waiting => cases concludes

namespace System

variable {system later : System} {action : Action} {actions : List Action} {events : List Event}
  {met : List Nat} {first : Option Program} {blank : Snapshot} {ticket : Nat} {program : Program}
  {base : ByteStream} {fed : List StreamItem} {property : Program → Machine → Prop}

/-- A worker at the barrier has a reason to be there. -/
def Resting (program : Program) (base : ByteStream) (fed : List StreamItem) (system : System) :
    Prop :=
  system.worker = .arriving ∨ system.worker = .waiting →
    system.Raised ∨ system.program.value = none ∨ Finished program base fed system.state.value

/-- The worker that publishes the end of the run in charge may go to the barrier. -/
theorem Serving.finished (serving : system.Serving blank (inCharge met) program base fed)
    (isolated : system.Isolated met) (keeps : system.Keeps property) {run : Run} {status : Status}
    (place : system.worker = .concluding run status) :
    Finished program base fed (run.snapshot status) := by
  have there : system.worker.run? = some run := by rw [place, Worker.run?]
  have own : run.job.ticket = inCharge met := by
    rcases isolated.loaded run there with charge | ⟨checks, -⟩
    · exact charge
    · cases place.symm.trans checks
  obtain ⟨-, follows⟩ := serving.follows run there own
  rw [place] at follows
  obtain ⟨_, outcome, _, -, concludes⟩ := keeps.concluding run status place
  exact Shown.finished follows concludes.isTerminal

/-- Whatever reason the worker has, it keeps it until the rendezvous. -/
theorem Resting.step (resting : system.Resting program base fed)
    (serving : system.Serving blank (inCharge met) program base fed) (isolated : system.Isolated met)
    (keeps : system.Keeps property) (intact : system.Intact first actions met)
    (sound : system.Sound) (moves : Moves system action later events)
    (apart : rendezvous events = []) : later.Resting program base (fed ++ action.items) := by
  have kept (raised : system.Raised) : later.Raised := raised.step sound isolated.orderly moves apart
  have beside (worker : later.worker = system.worker)
      (cell : later.program.value = system.program.value)
      (state : later.state.value = system.state.value) :
      later.Resting program base (fed ++ action.items) := by
    intro rests
    rw [worker] at rests
    rw [cell, state]
    exact (resting rests).imp kept (.imp id fun finished => finished.later _)
  have away (worker : later.worker ≠ .arriving ∧ later.worker ≠ .waiting) :
      later.Resting program base (fed ++ action.items) := by
    rintro (arrives | waits)
    · exact absurd arrives worker.1
    · exact absurd waits worker.2
  cases moves with
  | meet _ _ _ _ _ one =>
    rw [apart] at one
    cases one
  | turn turns =>
    generalize place : system.worker = worker at turns
    cases turns with
    | idle nothing =>
      rcases nothing with poisoned | empty
      · cases poisoned.symm.trans sound.program
      · exact fun _ => .inr (.inl empty)
    | stopped up => exact fun _ => .inl (intact.flag up)
    | shut closed => cases closed.symm.trans sound.unclosed
    | start | enter | unstopped | unclosed | ready | turned_away | go_on | leave | exit =>
      exact away (by simp [moveWorker])
  | publish publishes =>
    generalize place : system.worker = worker at publishes
    cases publishes with
    | announce | report => exact away (by simp)
    | conclude => exact fun _ => .inr (.inr ((serving.finished isolated keeps place).later _))
  | give_up _ poisoned => cases poisoned.symm.trans sound.state
  | load | execute | conclude | fail => exact away (by simp [moveWorker])
  | crash crashes => exact absurd crashes sound.uncrashed
  | park_worker arrives =>
    intro _
    exact (resting (.inl arrives)).imp id (.imp id fun finished => finished.later _)
  | store call => exact fun _ => .inl ⟨_, _, setCall_self call, rfl⟩
  | _ => exact beside rfl rfl rfl

theorem Serving.start (name : String) (stream : ByteStream) :
    (System.start name first stream).Serving (.fresh .done) ticket program stream [] := by
  refine ⟨?_, ?_, ?_⟩
  · intro _
    exact congrArg (ByteStream.mk · stream.ending) (List.append_nil _).symm
  · intro run there
    cases there
  · intro snapshot there
    exact .inl (Option.some.inj there).symm

end System

variable {name : String} {first : Option Program} {stream : ByteStream} {actions since : List Action}
  {system begun : System} {events : List Event} {program : Program}

/-- Every restart that has had its rendezvous has handed in a program. -/
theorem Schedule.handedIn_of_met
    (schedule : Schedule (.start name first stream) actions system events) {id : Nat}
    (member : id ∈ rendezvous events) : ∃ program, handedIn actions id = some program := by
  induction schedule with
  | start => cases member
  | next action earlier step ih =>
    rw [rendezvous_append] at member
    rcases List.mem_append.mp member with old | new
    · obtain ⟨program, known⟩ := ih old
      exact ⟨program, handedIn_append known _⟩
    · have isolated := earlier.isolated (.start name first stream)
      have genuine := earlier.genuine (.start name first stream) (.start name first stream)
      have moves := isolated.orderly.moves step
      obtain ⟨other, stage, _, call, pending, -, -, one, -, -⟩ :=
        System.meets_of_rendezvous moves (List.ne_nil_of_mem new)
      obtain rfl : id = other := List.mem_singleton.mp (one ▸ new)
      obtain ⟨program, stored⟩ := isolated.pending id stage call pending
      exact ⟨program, handedIn_append (genuine.stored _ stored) _⟩

/-- The program in charge was there when it came into charge. -/
theorem Schedule.charge_before
    (schedule : Schedule (.start name first stream) actions system events) {more : List Action}
    (charge : programOf first (actions ++ more) (inCharge (rendezvous events)) = some program) :
    programOf first actions (inCharge (rendezvous events)) = some program := by
  rcases ticket : inCharge (rendezvous events) with _ | id
  · rw [ticket] at charge
    exact charge
  · obtain ⟨program', known⟩ := schedule.handedIn_of_met (inCharge_mem ticket)
    rw [ticket] at charge
    have later_known : programOf first (actions ++ more) (id + 1) = some program' :=
      handedIn_append known more
    rw [← later_known.symm.trans charge]
    exact known

/-- What is seen before anything is published about the program in charge. -/
def firstLook (met : List Nat) : Snapshot := .fresh (if met = [] then .done else .running)

/-- From the latest rendezvous on, or from the start, the program in charge is served. -/
theorem Tenure.serving
    (tenure : Tenure (.start name first stream) actions system events begun since)
    (charge : programOf first actions (inCharge (rendezvous events)) = some program) :
    system.Serving (firstLook (rendezvous events)) (inCharge (rendezvous events)) program begun.stream
      (itemsFed since) := by
  induction tenure with
  | start => exact .start name stream
  | @quiet actions since current later begun seen events action earlier step apart ih =>
    have schedule := earlier.schedule
    have isolated : current.Isolated (rendezvous seen) := schedule.isolated (.start name first stream)
    have genuine : current.Genuine first actions :=
      schedule.genuine (.start name first stream) (.start name first stream)
    have items : itemsFed (since ++ [action]) = itemsFed since ++ action.items := by
      simp [itemsFed]
    rw [rendezvous_append, apart, List.append_nil] at charge ⊢
    have charge' := schedule.charge_before charge
    rw [items]
    exact (ih charge').step isolated (genuine.stored_program charge')
      (isolated.orderly.moves step) apart
  | @meet actions since current later begun seen events action earlier step some_met =>
    have isolated := earlier.schedule.isolated (.start name first stream)
    obtain ⟨id, stage, state, -, -, -, renewed, -, -, after⟩ :=
      System.meets_of_rendezvous (isolated.orderly.moves step) some_met
    have met : rendezvous (seen ++ events) ≠ [] := by
      rw [rendezvous_append]
      exact List.append_ne_nil_of_right_ne_nil _ some_met
    rw [firstLook, if_neg met, after]
    exact .begin renewed

/-- The program in charge is served, and the worker comes to rest only if it has a reason to. -/
theorem Tenure.served
    (tenure : Tenure (.start name first stream) actions system events begun since)
    (charge : programOf first actions (inCharge (rendezvous events)) = some program) :
    (∃ blank, system.Serving blank (inCharge (rendezvous events)) program begun.stream
        (itemsFed since)) ∧
      (system.Sound → system.Resting program begun.stream (itemsFed since)) := by
  refine ⟨⟨_, tenure.serving charge⟩, ?_⟩
  induction tenure with
  | start =>
    rintro _ (arrives | waits)
    · cases arrives
    · cases waits
  | @quiet actions since current later begun seen events action earlier step apart ih =>
    have schedule := earlier.schedule
    have isolated : current.Isolated (rendezvous seen) := schedule.isolated (.start name first stream)
    have moves := isolated.orderly.moves step
    have items : itemsFed (since ++ [action]) = itemsFed since ++ action.items := by
      simp [itemsFed]
    rw [rendezvous_append, apart, List.append_nil] at charge
    have charge' := schedule.charge_before charge
    rw [items]
    intro sound
    have before := sound.before moves
    have keeps : current.Keeps (fun _ _ => True) := schedule.keeps (.start name first stream)
      ⟨fun _ => trivial, fun _ _ => trivial⟩ (.start name first stream)
    exact (ih charge' before).step (earlier.serving charge') isolated keeps (schedule.intact before)
      before moves apart
  | @meet actions since current later begun seen events action earlier step some_met =>
    have isolated := earlier.schedule.isolated (.start name first stream)
    obtain ⟨id, stage, state, -, -, -, -, -, -, after⟩ :=
      System.meets_of_rendezvous (isolated.orderly.moves step) some_met
    rw [after]
    rintro _ (arrives | waits)
    · cases arrives
    · cases waits

end Live

end TapeMachine
