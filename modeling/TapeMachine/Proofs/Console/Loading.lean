import TapeMachine.Proofs.Console.Printing
import TapeMachine.Proofs.Live.Answers
import TapeMachine.Proofs.Live.Resting

namespace TapeMachine

namespace Live

def RestartStage.over : RestartStage → Bool
  | finished _ => true
  | _ => false

theorem RestartStage.not_over_of_locked {stage : RestartStage} (locked : stage.locked = true) :
    stage.over = false := by
  cases stage <;> first | rfl | cases locked

/-- The restarts under way are among those that were under way, unless one is made. -/
theorem System.under_way_before {system later : System} {action : Action} {events : List Event}
    (moves : Moves system action later events)
    (no_restart : ∀ request, action ≠ .requestRestart request) {holds : Nat → Prop}
    (every : ∀ (id : Nat) (stage : RestartStage), system.calls[id]? = some (.restart stage) →
      stage.over = false → holds id) :
    ∀ (id : Nat) (stage : RestartStage), later.calls[id]? = some (.restart stage) →
      stage.over = false → holds id := by
  have move {id : Nat} {stage next : RestartStage} (call : system.calls[id]? = some (.restart stage))
      (going : stage.over = false) :
      ∀ (other : Nat) (found : RestartStage),
        (system.moveRestart id next).calls[other]? = some (.restart found) →
        found.over = false → holds other :=
    every_restart_moved every fun _ => every id stage call going
  cases moves with
  | turn | load | publish | give_up | execute | conclude | fail | crash | park_worker | poison_state
  | poison_program | feed => exact every
  | park_call call | lock call | stop call | store call | clear call | unlock call =>
    exact move call rfl
  | meet _ _ call pending =>
    exact move call (RestartStage.not_over_of_locked (RestartStage.locked_of_pending pending))
  | call call turns => exact move call (RestartStage.not_over_of_locked turns.locked)
  | close | halt | break_barrier | join => exact every_restart_beside every
  | request made =>
    intro id stage there going
    rcases addCall_cases there with old | ⟨-, new⟩
    · exact every id stage old going
    · cases action with
      | requestRestart request => exact absurd rfl (no_restart request)
      | requestShutdown => cases (Option.some.inj made).trans new.symm
      | work | proceed | poisonState | poisonProgram | feed => cases made

/-- What was handed in is what was asked for. -/
theorem program_of_handedIn {actions : List Action} {id : Nat} {request : Request} {program : Program}
    (asked : (callsMade actions)[id]? = some (.ofRequest request))
    (known : handedIn actions id = some program) : request.program = .ok program := by
  rw [handedIn, asked, Call.ofRequest] at known
  rcases outcome : request.program with error | other
  · rw [outcome] at known
    cases known
  · rw [outcome] at known
    obtain rfl := Option.some.inj known
    rfl

end Live

namespace Console

open Live

/-- The restarts of the programs that were loaded, in the order of loading. -/
def loads (shown : List Showing) : List Nat := (shown.map fun showing => showing.load.id).reverse

theorem loads_cons (showing : Showing) (shown : List Showing) :
    loads (showing :: shown) = loads shown ++ [showing.load.id] := by
  simp [loads]

variable {watch : Watch} {shown : List Showing} {actions : List Action} {events moment : List Event}
  {action : Action} {later : System} {load : Load}

/-- The restarts are those of the console. -/
structure Watch.InStep (watch : Watch) (shown : List Showing) (actions : List Action)
    (events : List Event) : Prop where
  under_way : ∀ (id : Nat) (stage : RestartStage),
    watch.system.calls[id]? = some (.restart stage) → stage.over = false →
      ∃ load, watch.loading = some load ∧ load.id = id
  asked : ∀ load, watch.loading = some load →
    (callsMade actions)[load.id]? = some (.ofRequest load.request) ∧ load.id ∉ loads shown
  met : rendezvous events = loads shown ∨
    ∃ load, watch.loading = some load ∧ rendezvous events = loads shown ++ [load.id]

namespace Watch

theorem InStep.start (name : String) (input : List UInt8) (fallback : Option Int)
    (stream : ByteStream) : (Watch.start name input fallback stream).InStep [] [] [] := by
  refine ⟨?_, ?_, .inl rfl⟩
  · intro id stage there
    cases there
  · intro load busy
    cases busy

theorem InStep.beside (step : watch.InStep shown actions events) (console : Console) :
    { watch with console := console }.InStep shown actions events :=
  ⟨step.under_way, step.asked, step.met⟩

theorem InStep.poll (step : watch.InStep shown actions events) (console : Console) (poll : Poll) :
    { watch with console := console }.InStep (Showing.note shown (.polled poll)) actions events := by
  cases shown <;> exact ⟨step.under_way, step.asked, step.met⟩

/-- A restart that meets the worker is under way, and it has not met it before. -/
theorem InStep.live (step : watch.InStep shown actions events)
    (isolated : watch.system.Isolated (rendezvous events))
    (moves : Moves watch.system action later moment)
    (no_restart : ∀ request, action ≠ .requestRestart request) :
    { watch with system := later }.InStep shown (actions ++ [action]) (events ++ moment) := by
  refine ⟨System.under_way_before moves no_restart step.under_way, ?_, ?_⟩
  · intro load busy
    obtain ⟨asked, new⟩ := step.asked load busy
    refine ⟨?_, new⟩
    rw [callsMade_append, List.getElem?_append_left (List.getElem?_eq_some_iff.mp asked).1]
    exact asked
  · rw [rendezvous_append]
    by_cases apart : rendezvous moment = []
    · rw [apart, List.append_nil]
      exact step.met
    · obtain ⟨id, stage, state, call, pending, -, -, one, -, -⟩ :=
        System.meets_of_rendezvous moves apart
      have going := RestartStage.not_over_of_locked (RestartStage.locked_of_pending pending)
      obtain ⟨load, busy, rfl⟩ := step.under_way id stage call going
      rcases step.met with quiet | ⟨other, also_busy, again⟩
      · exact .inr ⟨load, busy, by rw [quiet, one]⟩
      · obtain rfl := Option.some.inj (busy.symm.trans also_busy)
        have member : load.id ∈ rendezvous events := by
          rw [again]
          exact List.mem_append_right _ (List.mem_singleton_self _)
        obtain ⟨stage', there, past⟩ := isolated.past _ member
        obtain rfl := Call.restart.inj (Option.some.inj (there.symm.trans call))
        rw [RestartStage.not_past_of_pending pending] at past
        cases past

theorem InStep.idle_met (step : watch.InStep shown actions events) (idle : watch.loading = none) :
    rendezvous events = loads shown := by
  rcases step.met with met | ⟨load, busy, -⟩
  · exact met
  · cases idle.symm.trans busy

theorem InStep.begin (step : watch.InStep shown actions events)
    (isolated : watch.system.Isolated (rendezvous events))
    (genuine : watch.system.Genuine none actions) (idle : watch.loading = none)
    (number : load.id = watch.system.calls.length) :
    { watch with
      system := watch.system.addCall (.ofRequest load.request), loading := some load }.InStep
        shown (actions ++ [Action.requestRestart load.request]) events := by
  have met := step.idle_met idle
  refine ⟨?_, ?_, .inl met⟩
  · intro id stage there going
    rcases System.addCall_cases there with old | ⟨rfl, -⟩
    · obtain ⟨other, busy, -⟩ := step.under_way id stage old going
      cases idle.symm.trans busy
    · exact ⟨load, rfl, number⟩
  · intro other busy
    obtain rfl := Option.some.inj busy
    refine ⟨?_, ?_⟩
    · rw [callsMade_append, number, genuine.count]
      exact List.getElem?_concat_length
    · rw [← met]
      intro member
      obtain ⟨stage, there, -⟩ := isolated.past _ member
      have within := (List.getElem?_eq_some_iff.mp there).1
      omega

theorem InStep.none_under_way (step : watch.InStep shown actions events)
    {result : Except RestartError Unit} (busy : watch.loading = some load)
    (call : watch.system.calls[load.id]? = some (.restart (.finished result))) :
    ∀ (id : Nat) (stage : RestartStage), watch.system.calls[id]? = some (.restart stage) →
      stage.over = false → False := by
  intro id stage there going
  obtain ⟨other, also_busy, rfl⟩ := step.under_way id stage there going
  obtain rfl := Option.some.inj (busy.symm.trans also_busy)
  obtain rfl := Call.restart.inj (Option.some.inj (call.symm.trans there))
  cases going

theorem InStep.accept (step : watch.InStep shown actions events) {console : Console}
    {polls : List Poll} (busy : watch.loading = some load)
    (call : watch.system.calls[load.id]? = some (.restart (.finished (.ok ()))))
    (met : load.id ∈ rendezvous events) :
    (⟨console, watch.system, none⟩ : Watch).InStep (⟨load, polls⟩ :: shown) actions events := by
  refine ⟨?_, ?_, .inl ?_⟩
  · intro id stage there going
    exact (step.none_under_way busy call id stage there going).elim
  · intro other nothing
    cases nothing
  · rw [loads_cons]
    rcases step.met with quiet | ⟨other, also_busy, one⟩
    · rw [quiet] at met
      exact absurd met (step.asked load busy).2
    · obtain rfl := Option.some.inj (busy.symm.trans also_busy)
      exact one

theorem InStep.refuse (step : watch.InStep shown actions events) {console : Console}
    {error : RestartError} (busy : watch.loading = some load)
    (call : watch.system.calls[load.id]? = some (.restart (.finished (.error error))))
    (unmet : load.id ∉ rendezvous events) :
    (⟨console, watch.system, none⟩ : Watch).InStep shown actions events := by
  refine ⟨?_, ?_, .inl ?_⟩
  · intro id stage there going
    exact (step.none_under_way busy call id stage there going).elim
  · intro other nothing
    cases nothing
  · rcases step.met with quiet | ⟨other, also_busy, one⟩
    · exact quiet
    · obtain rfl := Option.some.inj (busy.symm.trans also_busy)
      rw [one] at unmet
      exact absurd (List.mem_append_right _ (List.mem_singleton_self _)) unmet

end Watch

end Console

end TapeMachine
