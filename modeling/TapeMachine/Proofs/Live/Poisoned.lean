import TapeMachine.Proofs.Live.Calm
import TapeMachine.Proofs.Live.Failing
import TapeMachine.Proofs.Live.Fatal

namespace TapeMachine.Live

variable {system begun : System} {met : List Nat}

namespace System

/-- How the state cell comes to be poisoned: an observer raises while it holds the lock, whatever
snapshot it leaves there; somebody poisons the cell from outside; or the worker crashes. -/
inductive Poisons (system : System) : System → Prop
  | raised {ε β : Type} {block : Snapshot → Snapshot × Except ε β} {error : ε}
      {state : SharedCell Snapshot} :
      system.state.locked block = (.error (.raised error), state) →
      Poisons system { system with state := state }
  | outside : Poisons system { system with state := system.state.poison }
  | crash : system.worker = .crashing →
      Poisons system { system with state := system.state.poison, worker := .arriving }

theorem Poisons.poisoned (poisons : system.Poisons begun) : begun.state.poisoned = true := by
  cases poisons with
  | raised raises =>
    simp only [SharedCell.locked] at raises
    split at raises
    · cases raises
    · split at raises
      · cases raises
      · obtain ⟨-, rfl⟩ := Prod.mk.inj raises
        rfl
  | outside | crash => rfl

/-- Apart from the state cell nothing changes, but for the crash of the worker. -/
theorem Poisons.cases (poisons : system.Poisons begun) :
    (∃ state, begun = { system with state := state }) ∨ Moves system .work begun [] := by
  cases poisons with
  | raised | outside => exact .inl ⟨_, rfl⟩
  | crash crashing => exact .inr (.crash crashing)

theorem Isolated.show_state (isolated : system.Isolated met) (state : SharedCell Snapshot) :
    { system with state := state }.Isolated met :=
  ⟨isolated.orderly.of_same rfl rfl rfl rfl rfl, isolated.flag, isolated.past, isolated.once,
    isolated.stored, isolated.loaded, isolated.pending⟩

theorem Poisons.isolated (poisons : system.Poisons begun) (isolated : system.Isolated met) :
    begun.Isolated met := by
  rcases poisons.cases with ⟨state, rfl⟩ | crash
  · exact isolated.show_state state
  · simpa [rendezvous] using isolated.step crash

theorem Poisons.attended (poisons : system.Poisons begun) (attended : system.Attended) :
    begun.Attended := by
  cases poisons with
  | raised | outside => exact attended.of_same rfl rfl rfl rfl
  | crash => exact attended.move_worker (by simp) (by simp) rfl rfl rfl

theorem Poisons.calls (poisons : system.Poisons begun) : begun.calls = system.calls := by
  cases poisons <;> rfl

theorem Poisons.answers (poisons : system.Poisons begun) (answers : system.Answers met) :
    begun.Answers met := by
  intro id stage there
  rw [poisons.calls] at there
  exact answers id stage there

theorem Poisons.justified (poisons : system.Poisons begun) (justified : system.Justified) :
    begun.Justified := by
  intro id stage there error fails
  rw [poisons.calls] at there
  have holds := justified id stage there error fails
  cases poisons <;> cases error <;> exact holds

theorem solo_schedule (system : System) (count : Nat) :
    ∃ actions, Schedule system actions (system.solo count).1 (system.solo count).2 := by
  induction count generalizing system with
  | zero => exact ⟨[], .start⟩
  | succ count ih =>
    rcases step : system.workerStep? with _ | ⟨later, events⟩
    · rw [solo_parked step]
      exact ⟨[], .start⟩
    · obtain ⟨actions, onward⟩ := ih later
      rw [solo_succ step]
      have first : Schedule system [.work] later events := .single step
      exact ⟨_, first.trans onward⟩

end System

/-- A poisoned state cell is final and harmless. Whatever the order of steps, from the moment on at
which the state cell is poisoned:
whoever looks sees the failure, on a blank tape and without output;
between two beginnings of a run at most one instruction is executed, and no snapshot is accepted;
once a run has begun, nothing is read from the stream any more, and the worker does not crash;
a restart fails for a shutdown, a poisoned program cell or its arguments only, and not after its
rendezvous; once it has the lock, it is held up at the barrier only; while nothing is shut down, a
restart that waits there is met by the worker, if need be behind the read of the run that was in
progress; and behind its rendezvous it ends without an error.
Nothing else makes the state fatal, in particular no poisoned program cell. -/
theorem poisoned_state_final {name : String} {first : Option Program} {stream : ByteStream}
    {actions since thereafter : List Action} {system begun middle now : System}
    {events before later : List Event}
    (history : Schedule (.start name first stream) actions system events)
    (poisons : system.Poisons begun) (onward : Schedule begun since middle before)
    (further : Schedule middle thereafter now later) :
    now.look = .fresh (.fatal poisonedMessage) ∧
    ((∀ ticket, .began ticket ∉ later) → executions later ≤ 1) ∧
    (∀ ticket publication, .published ticket publication ∈ later → publication.accepted = false) ∧
    (∀ ticket, .began ticket ∈ before →
      now.stream = middle.stream.feed (itemsFed thereafter) ∧ now.worker ≠ .crashing ∧
      ∀ run, now.worker = .stepping run → ¬ run.machine.ReadsStream) ∧
    (∀ (id : Nat) (error : RestartError), now.calls[id]? = some (.restart (.finished (.error error))) →
      id ∉ rendezvous (events ++ (before ++ later)) ∧ error.Holds now) ∧
    (∀ (id : Nat) (stage : RestartStage), now.calls[id]? = some (.restart stage) →
      stage.locked = true → stage ≠ .waiting → (now.callStep? id).isSome) ∧
    (∀ id : Nat, now.calls[id]? = some (.restart .waiting) → now.closed = false →
      now.Joins id 6 1 ∨ now.JoinsFed id 2 ∧ ∀ ticket, .began ticket ∉ before ++ later) ∧
    (∀ id : Nat, now.calls[id]? = some (.restart .returning) → ∃ count ≤ 3, now.Succeeds id count) ∧
    (system.look.status.isFatal = true →
      ∃ done action rest earlier seen, actions = done ++ action :: rest ∧
        Schedule (.start name first stream) done earlier seen ∧
        (action = .poisonState ∨ action = .work ∧ earlier.Breaks)) := by
  have whole : Schedule begun (since ++ thereafter) now (before ++ later) := onward.trans further
  have isolated : begun.Isolated (rendezvous events) :=
    poisons.isolated (history.isolated (.start name first stream))
  have orderly := isolated.orderly
  have between : middle.Orderly := onward.orderly orderly
  have poisoned : middle.state.poisoned = true := onward.poisoned_kept orderly poisons.poisoned
  refine ⟨?_, ?_, ?_, ?_, ?_, ?_, ?_, ?_, ?_⟩
  · exact System.look_of_poisoned (further.poisoned_kept between poisoned)
  · intro going
    have spent := further.spends_of_poisoned between poisoned going
    have allowed := middle.worker.allowance_le
    omega
  · intro ticket publication published
    exact further.refused_of_poisoned between poisoned published
  · intro ticket began
    have calm := onward.calm_of_began orderly poisons.poisoned began
    obtain ⟨still, fed⟩ := further.calm between poisoned calm
    refine ⟨fed, still.uncrashed, ?_⟩
    intro run stepping reads
    cases (still.ready run stepping).symm.trans reads.awaitsInput
  · intro id error failed
    constructor
    · have answers := whole.answers isolated (poisons.answers history.answers_met)
      rw [rendezvous_append]
      intro served
      cases (answers id _ failed).mpr served
    · have fair := history.justified (.start name first stream) (by intro id stage there; cases there)
      exact whole.justified orderly (poisons.justified fair) id _ failed error rfl
  · intro id stage call
    exact System.proceeds_of_locked call
  · intro id waits unclosed
    have attended : now.Attended :=
      whole.attended orderly (poisons.attended (history.attended (.start name first stream)
        (.start name first stream)))
    refine (System.comes_of_waiting (whole.isolated isolated) attended waits unclosed).imp_right ?_
    intro fed
    refine ⟨fed, ?_⟩
    intro ticket began
    obtain ⟨count, -, -, -, starves, -⟩ := fed
    obtain ⟨alone, solo⟩ := now.solo_schedule count
    have calm := whole.calm_of_began orderly poisons.poisoned began
    exact (solo.calm (whole.orderly orderly) (whole.poisoned_kept orderly poisons.poisoned)
      calm).1.not_starves starves
  · intro id returning
    exact System.succeeds_of_returning returning
  · intro fatal
    rcases history.hale (.start name first stream) (.start name first stream) with hale | struck
    · cases fatal.symm.trans hale.look
    · exact struck

def Event.begins (ticket : Nat) : Event → Bool
  | .began other => other = ticket
  | _ => false

/-- The run in progress is given up, a restart hands in a program that reads, and its run begins. -/
def stepsToRunOfRead : List Action :=
  [List.replicate 3 .work, [.requestRestart ⟨.text ",", .nothing, none⟩],
    List.replicate 5 (.proceed 0), List.replicate 3 .work].flatten

/-- Worker and restart do what is left for them to do. -/
def stepsToRest : List Action := List.replicate 4 .work ++ List.replicate 3 (.proceed 0)

/-- An observer raises while the worker is about to execute an instruction. That one is still executed;
the run of the restart comes to its read and leaves the byte where it is, and the restart succeeds. -/
theorem poisoned_state_final_observer_raised :
    ∃ system begun middle now events before later,
      Schedule (.start "worker" (some ⟨[43, 43], [], none⟩) (.script [.byte 7]))
        (List.replicate 6 .work) system events ∧
      system.Poisons begun ∧ Schedule begun stepsToRunOfRead middle before ∧
      Schedule middle stepsToRest now later ∧ executions before = 1 ∧ .began 1 ∈ before ∧
      executions later = 0 ∧ publishings later = 1 ∧
      now.look = .fresh (.fatal poisonedMessage) ∧
      now.stream = middle.stream.feed (itemsFed stepsToRest) ∧
      now.calls[0]? = some (.restart (.finished (.ok ()))) := by
  have run : ((System.start "worker" (some ⟨[43, 43], [], none⟩) (.script [.byte 7])).follow
      (List.replicate 6 .work)).bind (fun first =>
        (System.follow { first.1 with state := ⟨.fresh .done, true⟩ } stepsToRunOfRead).bind
          fun second => (second.1.follow stepsToRest).map fun third =>
            (first.1.state.poisoned, executions second.2, second.2.any (Event.begins 1),
              executions third.2, publishings third.2,
              decide (third.1.calls[0]?.bind Call.result? = some (.ok ())))) =
      some (false, 1, true, 0, 1, true) := by decide +kernel
  obtain ⟨⟨system, events⟩, followed, run⟩ := Option.bind_eq_some_iff.mp run
  obtain ⟨⟨middle, before⟩, onward, run⟩ := Option.bind_eq_some_iff.mp run
  obtain ⟨⟨now, later⟩, further, seen⟩ := Option.map_eq_some_iff.mp run
  simp only [Prod.mk.injEq, decide_eq_true_eq] at seen
  obtain ⟨sound, executed, begins, rested, published, succeeded⟩ := seen
  obtain ⟨call, returned, answered⟩ := Option.bind_eq_some_iff.mp succeeded
  obtain rfl := Call.restart_of_result? answered
  have raises : system.state.locked (fun _ => (.fresh .done, (.error () : Except Unit Unit))) =
      (.error (.raised ()), ⟨.fresh .done, true⟩) := by simp [SharedCell.locked, sound]
  have poisons : system.Poisons { system with state := ⟨.fresh .done, true⟩ } := .raised raises
  have began : .began 1 ∈ before := by
    obtain ⟨event, member, first⟩ := List.any_eq_true.mp begins
    cases event with
    | began ticket =>
      obtain rfl : ticket = 1 := of_decide_eq_true first
      exact member
    | logged | executed | published | met => cases first
  obtain ⟨fatal, -, -, untouched, -⟩ :=
    poisoned_state_final (.of_follow followed) poisons (.of_follow onward) (.of_follow further)
  exact ⟨system, _, middle, now, events, before, later, .of_follow followed, poisons,
    .of_follow onward, .of_follow further, executed, began, rested, published, fatal,
    (untouched 1 began).1, returned⟩

end TapeMachine.Live
