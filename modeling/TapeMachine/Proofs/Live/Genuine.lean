import TapeMachine.Proofs.Live.Isolation

namespace TapeMachine.Live

namespace System

variable {system later : System} {action : Action} {actions : List Action} {events : List Event}
  {first : Option Program}

/-- Nothing is confused: whatever a restart, the program cell or the worker holds is the program
that was handed in. -/
structure Genuine (first : Option Program) (actions : List Action) (system : System) : Prop where
  count : system.calls.length = (callsMade actions).length
  asked : ∀ (id : Nat) (stage : RestartStage), system.calls[id]? = some (.restart stage) →
    ∀ program, stage.program? = some program → handedIn actions id = some program
  stored : ∀ job, system.program.value = some job →
    programOf first actions job.ticket = some job.program
  loaded : ∀ run, system.worker.run? = some run →
    programOf first actions run.job.ticket = some run.job.program

theorem Genuine.start (name : String) (first : Option Program) (stream : ByteStream) :
    (System.start name first stream).Genuine first [] := by
  refine ⟨rfl, ?_, ?_, ?_⟩
  · intro id stage there
    cases there
  · intro job there
    cases first with
    | none => cases there
    | some program =>
      obtain rfl := Option.some.inj there
      rfl
  · intro run there
    cases there

/-- The job in the program cell runs the program that was handed in under its ticket. -/
theorem Genuine.stored_program (genuine : system.Genuine first actions) {ticket : Nat}
    {program : Program} (known : programOf first actions ticket = some program) :
    ∀ job, system.program.value = some job → job.ticket = ticket → job.program = program := by
  rintro job there rfl
  have own := genuine.stored job there
  rw [known] at own
  exact (Option.some.inj own).symm

/-- The calls grow by the call that is made. -/
theorem calls_length (moves : Moves system action later events) :
    later.calls.length = system.calls.length + (callsMade [action]).length := by
  cases moves with
  | meet inside =>
    rcases inside with rfl | rfl <;> simp [callsMade, Action.call?, moveRestart, setCall]
  | request made => simp [callsMade, made, addCall]
  | _ => simp [callsMade, Action.call?, moveRestart, setCall, moveWorker]

theorem Genuine.asked_step (genuine : system.Genuine first actions)
    (moves : Moves system action later events) :
    ∀ (id : Nat) (stage : RestartStage), later.calls[id]? = some (.restart stage) →
      ∀ program, stage.program? = some program →
        handedIn (actions ++ [action]) id = some program := by
  have before : ∀ (id : Nat) (stage : RestartStage), system.calls[id]? = some (.restart stage) →
      ∀ program, stage.program? = some program →
        handedIn (actions ++ [action]) id = some program := by
    intro id stage there program held
    exact handedIn_append (genuine.asked id stage there program held) [action]
  have move {other : Nat} {stage next : RestartStage}
      (call : system.calls[other]? = some (.restart stage))
      (holds : ∀ program, next.program? = some program → stage.program? = some program) :
      ∀ (id : Nat) (found : RestartStage),
        (system.moveRestart other next).calls[id]? = some (.restart found) →
        ∀ program, found.program? = some program →
          handedIn (actions ++ [action]) id = some program :=
    every_restart_moved before fun program held => before other stage call program (holds program held)
  cases moves with
  | turn | load | publish | give_up | execute | conclude | fail | crash | park_worker | poison_state
  | poison_program | feed => exact before
  | lock call | stop call => exact move call (fun _ held => held)
  | park_call call | meet _ _ call | store call | clear call | unlock call =>
    exact move call (fun _ held => by cases held)
  | call call turns =>
    refine move call ?_
    intro program held
    cases turns <;> first | exact held | cases held
  | close | halt | break_barrier | join => exact every_restart_beside before
  | request made =>
    intro id found there program held
    rcases addCall_cases there with old | ⟨rfl, new⟩
    · exact before id found old program held
    · have asked := ((made_unlocked made).1 found new.symm).2.2 program held
      have recorded : callsMade [action] = [.restart (.locking program)] := by
        simp [callsMade, made, asked]
      rw [handedIn, callsMade_append, genuine.count, recorded, List.getElem?_concat_length]

theorem Genuine.step (genuine : system.Genuine first actions)
    (moves : Moves system action later events) : later.Genuine first (actions ++ [action]) := by
  have stored {job : Job} (there : system.program.value = some job) :
      programOf first (actions ++ [action]) job.ticket = some job.program :=
    programOf_append (genuine.stored job there) [action]
  refine ⟨?_, genuine.asked_step moves, ?_, ?_⟩
  · rw [calls_length moves, callsMade_append, List.length_append, genuine.count]
  · intro job there
    rcases stored_cases moves with same | ⟨id, program, call, now, -, -⟩
    · exact stored (same.symm.trans there)
    · obtain rfl := Option.some.inj (there.symm.trans now)
      exact handedIn_append (genuine.asked id _ call program rfl) [action]
  · intro run there
    rcases run_cases moves there with same | ⟨old, before, job, -⟩ | ⟨loaded, -⟩
    · rw [same] at there
      exact programOf_append (genuine.loaded run there) [action]
    · rw [← job]
      exact programOf_append (genuine.loaded old before) [action]
    · exact stored loaded

end System

end TapeMachine.Live
