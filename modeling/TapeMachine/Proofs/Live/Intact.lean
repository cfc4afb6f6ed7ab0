import TapeMachine.Proofs.Live.Tenure

namespace TapeMachine.Live

/-- What the restart answers, or has answered. -/
def RestartStage.result? : RestartStage → Option (Except RestartError Unit)
  | unlocking result | finished result => some result
  | _ => none

variable {system later : System} {action : Action} {actions : List Action} {events : List Event}
  {met : List Nat} {first : Option Program}

theorem handedIn_append_eq {id : Nat} (within : id < (callsMade actions).length)
    (more : List Action) : handedIn (actions ++ more) id = handedIn actions id := by
  rw [handedIn, callsMade_append, List.getElem?_append_left within]
  rfl

/-- A program that was not handed in before is handed in now. -/
theorem handedIn_new {id : Nat} {program : Program}
    (known : handedIn (actions ++ [action]) id = some program)
    (beyond : (callsMade actions).length ≤ id) :
    action.call? = some (.restart (.locking program)) ∧ id = (callsMade actions).length := by
  rw [handedIn, callsMade_append, List.getElem?_append_right beyond] at known
  have made : callsMade [action] = action.call?.toList := by
    rcases requested : action.call? with _ | call <;> simp [callsMade, requested]
  rcases requested : action.call? with _ | call
  · simp [made, requested] at known
  · rw [made, requested, Option.toList_some] at known
    have place : id - (callsMade actions).length = 0 := by
      by_contra later_place
      rw [List.getElem?_eq_none (by simp; omega)] at known
      cases known
    rw [place, List.getElem?_cons_zero] at known
    refine ⟨?_, by omega⟩
    rcases call with stage | stage
    · cases stage with
      | locking program' =>
        obtain rfl := Option.some.inj known
        rfl
      | _ => cases known
    · cases known

namespace System

/-- A call is made by the action that makes it. -/
theorem made_by (moves : Moves system action later events) {call : Call}
    (made : action.call? = some call) : later = system.addCall call := by
  cases moves with
  | request made' =>
    obtain rfl := Option.some.inj (made'.symm.trans made)
    rfl
  | meet inside =>
    rcases inside with rfl | rfl <;> cases made
  | _ => cases made

/-- No restart is lost: the flag is up for a restart that is on its way, a restart that has handed in
a program answers without an error and only after its rendezvous, and the program cell is empty only
as long as no program has been given. -/
structure Intact (first : Option Program) (actions : List Action) (met : List Nat)
    (system : System) : Prop where
  flag : system.stop = true → system.Raised
  asked : ∀ id program, handedIn actions id = some program →
    ∃ stage : RestartStage, system.calls[id]? = some (.restart stage) ∧
      (stage.past = true → id ∈ met ∧ ∀ result, stage.result? = some result → result = .ok ())
  given : system.program.value = none → first = none ∧ met = []
  at_work : system.worker ≠ .leaving ∧ system.worker ≠ .gone

theorem Intact.start (name : String) (first : Option Program) (stream : ByteStream) :
    (System.start name first stream).Intact first [] [] := by
  refine ⟨?_, ?_, ?_, ?_⟩
  · intro up
    cases up
  · intro id program known
    simp [handedIn, callsMade] at known
  · intro empty
    refine ⟨?_, rfl⟩
    cases first with
    | none => rfl
    | some program => cases empty
  · simp [System.start]

theorem Intact.flag_step (intact : system.Intact first actions met) (sound : system.Sound)
    (orderly : system.Orderly) (moves : Moves system action later events)
    (up : later.stop = true) : later.Raised := by
  by_cases apart : rendezvous events = []
  · have kept (before : system.stop = true) : later.Raised :=
      (intact.flag before).step sound orderly moves apart
    cases moves with
    | stop call => exact ⟨_, _, setCall_self call, rfl⟩
    | meet | clear => cases up
    | halt call =>
      have closed := orderly.past_closing _ _ call (by simp)
      cases closed.symm.trans sound.unclosed
    | _ => exact kept up
  · obtain ⟨_, _, _, -, -, -, -, -, -, rfl⟩ := meets_of_rendezvous moves apart
    cases up

theorem Intact.asked_step (intact : system.Intact first actions met) (sound : system.Sound)
    (orderly : system.Orderly) (count : system.calls.length = (callsMade actions).length)
    (moves : Moves system action later events) {id : Nat} {program : Program}
    (known : handedIn (actions ++ [action]) id = some program) :
    ∃ stage : RestartStage, later.calls[id]? = some (.restart stage) ∧
      (stage.past = true → id ∈ met ++ rendezvous events ∧
        ∀ result, stage.result? = some result → result = .ok ()) := by
  rcases Nat.lt_or_ge id (callsMade actions).length with within | beyond
  · rw [handedIn_append_eq within] at known
    obtain ⟨stage, call, answers⟩ := intact.asked id program known
    obtain ⟨next, there, goes⟩ := restart_goes sound orderly call moves
    refine ⟨next, there, ?_⟩
    cases goes with
    | stay =>
      intro past
      obtain ⟨member, fine⟩ := answers past
      exact ⟨List.mem_append_left _ member, fine⟩
    | lock | check | stop | store | park =>
      intro past
      cases past
    | meet _ one =>
      intro _
      refine ⟨List.mem_append_right _ (by simp [one]), ?_⟩
      intro result answered
      cases answered
    | clear =>
      intro _
      refine ⟨List.mem_append_left _ (answers rfl).1, ?_⟩
      intro result answered
      cases answered
    | release =>
      intro _
      refine ⟨List.mem_append_left _ (answers rfl).1, ?_⟩
      intro result answered
      exact (Option.some.inj answered).symm
    | unlock =>
      intro _
      obtain ⟨member, fine⟩ := answers rfl
      exact ⟨List.mem_append_left _ member, fine⟩
  · obtain ⟨made, place⟩ := handedIn_new known beyond
    obtain rfl := made_by moves made
    refine ⟨.locking program, ?_, ?_⟩
    · rw [place, ← count, addCall, List.getElem?_concat_length]
    · intro past
      cases past

theorem Intact.given_step (intact : system.Intact first actions met)
    (isolated : system.Isolated met) (moves : Moves system action later events)
    (empty : later.program.value = none) : first = none ∧ met ++ rendezvous events = [] := by
  rcases stored_cases moves with same | ⟨_, _, -, stored, -⟩
  · rw [same] at empty
    obtain ⟨nobody, none_met⟩ := intact.given empty
    refine ⟨nobody, ?_⟩
    by_contra some_met
    rw [none_met, List.nil_append] at some_met
    obtain ⟨id, stage, _, call, pending, -⟩ := meets_of_rendezvous moves some_met
    obtain ⟨program, stored⟩ := isolated.pending id stage call pending
    cases stored.symm.trans empty
  · cases stored.symm.trans empty

theorem Intact.at_work_step (intact : system.Intact first actions met) (sound : system.Sound)
    (orderly : system.Orderly) (moves : Moves system action later events) :
    later.worker ≠ .leaving ∧ later.worker ≠ .gone := by
  cases moves with
  | turn turns =>
    have stays := intact.at_work
    generalize system.worker = worker at turns stays
    cases turns with
    | turned_away broken => cases broken.symm.trans (sound.whole orderly)
    | leave closed => cases closed.symm.trans sound.unclosed
    | exit => exact absurd rfl stays.1
    | start | enter | idle | unstopped | stopped | unclosed | shut | ready | go_on =>
      simp [moveWorker]
  | publish publishes =>
    generalize system.worker = worker at publishes
    cases publishes <;> simp
  | load | give_up | execute | conclude | fail | crash | park_worker | meet => simp [moveWorker]
  | _ => exact intact.at_work

theorem Intact.step (intact : system.Intact first actions met) (sound : system.Sound)
    (isolated : system.Isolated met) (count : system.calls.length = (callsMade actions).length)
    (moves : Moves system action later events) :
    later.Intact first (actions ++ [action]) (met ++ rendezvous events) where
  flag := intact.flag_step sound isolated.orderly moves
  asked := fun _ _ known => intact.asked_step sound isolated.orderly count moves known
  given := intact.given_step isolated moves
  at_work := intact.at_work_step sound isolated.orderly moves

end System

/-- In every order of steps without a shutdown and without poisoning, no restart is lost. -/
theorem Schedule.intact {name : String} {stream : ByteStream}
    (schedule : Schedule (.start name first stream) actions system events) (sound : system.Sound) :
    system.Intact first actions (rendezvous events) := by
  induction schedule with
  | start => exact .start name first stream
  | next action earlier step ih =>
    have isolated := earlier.isolated (.start name first stream)
    have genuine := earlier.genuine (.start name first stream) (.start name first stream)
    have moves := isolated.orderly.moves step
    have before := sound.before moves
    rw [rendezvous_append]
    exact (ih before).step before isolated genuine.count moves

end TapeMachine.Live
