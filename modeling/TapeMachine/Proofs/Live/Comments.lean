import Mathlib.Data.List.Forall2
import TapeMachine.Proofs.Comments
import TapeMachine.Proofs.Live.Schedule

namespace TapeMachine.Live

def Job.bare (job : Job) : Job := ⟨job.ticket, job.program.bare⟩

def Run.bare (run : Run) : Run := ⟨run.job.bare, run.machine⟩

def Worker.bare : Worker → Worker
  | .checkingStop run => .checkingStop run.bare
  | .checkingClosed run => .checkingClosed run.bare
  | .announcing run => .announcing run.bare
  | .stepping run => .stepping run.bare
  | .reporting run => .reporting run.bare
  | .concluding run status => .concluding run.bare status
  | worker => worker

def RestartStage.bare : RestartStage → RestartStage
  | .locking program => .locking program.bare
  | .checking program => .checking program.bare
  | .stopping program => .stopping program.bare
  | .storing program => .storing program.bare
  | stage => stage

def Call.bare : Call → Call
  | .restart stage => .restart stage.bare
  | .shutdown stage => .shutdown stage

/-- What is seen of an execution, apart from the log. -/
def Event.isVisible : Event → Bool
  | .logged _ => false
  | _ => true

def visible (events : List Event) : List Event := events.filter Event.isVisible

/-- The same action, or restarts whose code differs in its comments. -/
inductive Action.Alike : Action → Action → Prop
  | same (action : Action) : Alike action action
  | restart {one two : Request} : one.Alike two → Alike (.requestRestart one) (.requestRestart two)

theorem Run.bare_ofJob (job : Job) : Run.ofJob job.bare = (Run.ofJob job).bare := by
  rw [ofJob, Job.bare, Program.machine_bare]
  rfl

namespace System

/-- The system as it is without the comments of its programs. -/
def bare (system : System) : System :=
  { system with
    program := ⟨system.program.value.map Job.bare, system.program.poisoned⟩
    worker := system.worker.bare
    calls := system.calls.map Call.bare }

def bareResult (result : System × List Event) : System × List Event := (result.1.bare, result.2)

def visibleResult (result : System × List Event) : System × List Event := (result.1, visible result.2)

variable {system : System}

theorem bare_setCall (id : Nat) (call : Call) :
    system.bare.setCall id call.bare = (system.setCall id call).bare := by
  simp only [bare, setCall, List.map_set]

theorem bare_moveRestart (id : Nat) (stage : RestartStage) :
    system.bare.moveRestart id stage.bare = (system.moveRestart id stage).bare :=
  bare_setCall id (.restart stage)

theorem bare_renew (system : System) : system.bare.renew = bareResult system.renew := by
  rcases poisoned : system.state.poisoned <;>
    simp [renew, bareResult, bare, SharedCell.store?, poisoned]

theorem bare_arrive (system : System) (party : Party) :
    system.bare.arrive party = bareResult (system.arrive party) := by
  have turned (party : Party) : system.bare.turnAway party = (system.turnAway party).bare := by
    cases party with
    | worker => rfl
    | call id => exact bare_moveRestart id (.unlocking (.error .shutDown))
  have parked (party : Party) : system.bare.park party = (system.park party).bare := by
    cases party with
    | worker => rfl
    | call id => exact bare_moveRestart id .waiting
  have passed (system : System) (party : Party) : system.bare.passOn party = (system.passOn party).bare := by
    cases party with
    | worker => rfl
    | call id => exact bare_moveRestart id .returning
  have barrier : system.bare.barrier = system.barrier := rfl
  rcases broken : system.barrier.broken with _ | _
  · rcases waiting : system.barrier.waiting with _ | first
    · simp only [arrive, barrier, waiting, broken, parked]
      rfl
    · have meets (system : System) :
          ({ system.bare with barrier := ⟨none, false⟩ }.passOn first).passOn party =
            (({ system with barrier := ⟨none, false⟩ }.passOn first).passOn party).bare := by
        have blank : { system.bare with barrier := ⟨none, false⟩ } =
            { system with barrier := ⟨none, false⟩ }.bare := rfl
        rw [blank, passed, passed]
      simp only [arrive, barrier, waiting, broken, bare_renew, bareResult, meets]
      rfl
  · simp only [arrive, barrier, broken, if_true, turned]
    rfl

theorem bare_publish (run : Run) (status : Status) (next : Worker) :
    system.bare.publish run.bare status next.bare = bareResult (system.publish run status next) := by
  rcases poisoned : system.state.poisoned <;>
    simp [publish, bareResult, bare, SharedCell.store?, poisoned, moveWorker, Run.bare,
      Job.bare, Run.snapshot, Worker.bare]

theorem bare_execute (run : Run) :
    system.bare.execute? run.bare = (system.execute? run).map bareResult := by
  have same : run.bare.machine.step system.bare.stream = run.machine.step system.stream := rfl
  rcases result : run.machine.step system.stream with ⟨outcome, machine, rest⟩
  simp only [execute?, same, result]
  cases outcome with
  | failed error =>
    by_cases own : error.isProgramFailure = true
    · simp only [own, if_true]
      rfl
    · simp only [own]
      rfl
  | waiting | ended | ran => rfl

/-- The worker takes the same steps. -/
theorem bare_work (system : System) : system.bare.workerStep? = system.workerStep?.map bareResult := by
  have same : system.bare.worker = system.worker.bare := rfl
  rcases place : system.worker with _ | _ | _ | run | run | run | run | run | ⟨run, status⟩ | _ | _ |
    _ | _ | _ | _
  all_goals simp only [workerStep?, same, place, Worker.bare]
  case loading =>
    have cell : system.bare.program = ⟨system.program.value.map Job.bare, system.program.poisoned⟩ := rfl
    simp only [cell, SharedCell.load?]
    rcases system.program.poisoned with _ | _
    · rcases system.program.value with _ | job
      · rfl
      · simp only [Option.map_some, if_false, Bool.false_eq_true, Run.bare_ofJob]
        rfl
    · rfl
  case opening | returning =>
    cases closed : system.closed <;> simp [bare, closed, bareResult, moveWorker, Worker.bare]
  case checkingStop =>
    cases stop : system.stop <;>
      simp [bare, stop, bareResult, moveWorker, Worker.bare, abandon, Run.bare]
  case checkingClosed =>
    cases closed : system.closed <;>
      simp [bare, closed, bareResult, moveWorker, Worker.bare, abandon, Run.bare]
  case announcing =>
    have awaits : run.bare.machine.awaitsInput = run.machine.awaitsInput := rfl
    rw [awaits]
    cases run.machine.awaitsInput with
    | true => exact congrArg some (bare_publish run .waitingForInput (.stepping run))
    | false => rfl
  case stepping => exact bare_execute run
  case reporting => exact congrArg some (bare_publish run .running (.checkingStop run))
  case concluding => exact congrArg some (bare_publish run status .arriving)
  case arriving => exact congrArg some (bare_arrive system .worker)
  case waiting =>
    have broken : system.bare.barrier.broken = system.barrier.broken := rfl
    rw [broken]
    cases system.barrier.broken <;> rfl
  all_goals rfl

/-- A restart takes the same steps. One of them notes in the log how long the code is. -/
theorem bare_restart (id : Nat) (stage : RestartStage) :
    (system.bare.restartStep? id stage.bare).map visibleResult =
      ((system.restartStep? id stage).map bareResult).map visibleResult := by
  have closed : system.bare.closed = system.closed := rfl
  have lock : system.bare.lock = system.lock := rfl
  have broken : system.bare.barrier.broken = system.barrier.broken := rfl
  have moved (stage : RestartStage) : system.bare.moveRestart id stage.bare =
      (system.moveRestart id stage).bare := bare_moveRestart id stage
  cases stage with
  | locking program =>
    have next : system.bare.moveRestart id (.checking program.bare) = _ := moved (.checking program)
    simp only [RestartStage.bare, restartStep?, lock, next]
    cases system.lock <;> rfl
  | checking program =>
    have next : system.bare.moveRestart id (.stopping program.bare) = _ := moved (.stopping program)
    have turned : system.bare.moveRestart id (.unlocking (.error .shutDown)) = _ :=
      moved (.unlocking (.error .shutDown))
    simp only [RestartStage.bare, restartStep?, closed]
    cases system.closed with
    | true => simp only [if_true, turned]; rfl
    | false => simp only [Bool.false_eq_true, if_false, next]; rfl
  | stopping program =>
    have next : system.bare.moveRestart id (.storing program.bare) = _ := moved (.storing program)
    simp only [RestartStage.bare, restartStep?, next]
    rfl
  | storing program =>
    have next : system.bare.moveRestart id .arriving = _ := moved .arriving
    have turned : system.bare.moveRestart id (.unlocking (.error .poisoned)) = _ :=
      moved (.unlocking (.error .poisoned))
    have cell : system.bare.program = ⟨system.program.value.map Job.bare, system.program.poisoned⟩ := rfl
    simp only [RestartStage.bare, restartStep?, cell, SharedCell.store?, next, turned]
    cases system.program.poisoned <;> rfl
  | arriving => exact congrArg (fun result => some (visibleResult result)) (bare_arrive system (.call id))
  | waiting =>
    have turned : system.bare.turnAway (.call id) = (system.turnAway (.call id)).bare :=
      moved (.unlocking (.error .shutDown))
    simp only [RestartStage.bare, restartStep?, broken, turned]
    cases system.barrier.broken <;> rfl
  | returning =>
    have next : system.bare.moveRestart id .clearing = _ := moved .clearing
    have turned : system.bare.moveRestart id (.unlocking (.ok ())) = _ := moved (.unlocking (.ok ()))
    simp only [RestartStage.bare, restartStep?, closed]
    cases system.closed with
    | true => simp only [if_true, turned]; rfl
    | false => simp only [Bool.false_eq_true, if_false, next]; rfl
  | clearing =>
    have next : system.bare.moveRestart id (.unlocking (.ok ())) = _ := moved (.unlocking (.ok ()))
    simp only [RestartStage.bare, restartStep?, next]
    rfl
  | unlocking result =>
    have next : system.bare.moveRestart id (.finished result) = _ := moved (.finished result)
    simp only [RestartStage.bare, restartStep?, next]
    rfl
  | finished result => rfl

theorem bare_shutdown (id : Nat) (stage : ShutdownStage) :
    system.bare.shutdownStep? id stage = (system.shutdownStep? id stage).map bareResult := by
  have moved (stage : ShutdownStage) : system.bare.setCall id (.shutdown stage) =
      (system.setCall id (.shutdown stage)).bare := bare_setCall id (.shutdown stage)
  cases stage <;> simp only [shutdownStep?, moved] <;> rfl

theorem bare_addCall (call : Call) : system.bare.addCall call.bare = (system.addCall call).bare := by
  simp only [bare, addCall, List.map_append, List.map_singleton]

theorem bare_start (name : String) (stream : ByteStream) {first other : Option Program}
    (same : other.map Program.bare = first.map Program.bare) :
    (start name other stream).bare = (start name first stream).bare := by
  have jobs (program : Option Program) : (program.map fun program => (⟨0, program⟩ : Job)).map Job.bare =
      (program.map Program.bare).map fun program => ⟨0, program⟩ := by
    cases program <;> rfl
  simp only [bare, start, SharedCell.new, jobs, same]

/-- What is no request of a restart happens in the same way without comments. -/
theorem bare_perform (system : System) {action : Action} (other : ∀ request, action ≠ .requestRestart request) :
    (system.bare.perform? action).map visibleResult = ((system.perform? action).map bareResult).map visibleResult := by
  cases action with
  | work => exact congrArg (Option.map visibleResult) (bare_work system)
  | proceed id =>
    have there : system.bare.calls[id]? = system.calls[id]?.map Call.bare := List.getElem?_map ..
    simp only [perform?, callStep?, there]
    rcases system.calls[id]? with _ | stage | stage
    · rfl
    · exact bare_restart id stage
    · exact congrArg (Option.map visibleResult) (bare_shutdown id stage)
  | requestRestart request => exact absurd rfl (other request)
  | requestShutdown =>
    exact congrArg (fun system => some (visibleResult (system, []))) (bare_addCall (.shutdown .closing))
  | poisonState | poisonProgram | feed => rfl

end System

theorem Call.bare_ofRequest {one two : Request} (alike : one.Alike two) :
    (Call.ofRequest one).bare = (Call.ofRequest two).bare := by
  rw [ofRequest, ofRequest]
  rcases alike.outcomes with ⟨error, made, made'⟩ | ⟨program, other, made, made', same⟩
  · rw [made, made']
  · rw [made, made']
    exact congrArg (fun program => Call.restart (.locking program)) same

/-- Systems that differ in comments take steps together. -/
theorem Action.Alike.perform {one two : System} {action other : Action} (alike : action.Alike other)
    (same : one.bare = two.bare) :
    ((one.perform? action).map System.bareResult).map System.visibleResult =
      ((two.perform? other).map System.bareResult).map System.visibleResult := by
  have added {call call' : Call} (calls : call.bare = call'.bare) :
      (one.addCall call).bare = (two.addCall call').bare := by
    rw [← System.bare_addCall, ← System.bare_addCall, same, calls]
  cases alike with
  | same =>
    by_cases restart : ∃ request, action = .requestRestart request
    · obtain ⟨request, rfl⟩ := restart
      exact congrArg (fun system => some (system, [])) (added rfl)
    · have apart : ∀ request, action ≠ .requestRestart request := fun request own => restart ⟨request, own⟩
      rw [← System.bare_perform one apart, same, System.bare_perform two apart]
  | restart alike => exact congrArg (fun system => some (system, [])) (added (Call.bare_ofRequest alike))

/-- Executions of programs that differ in comments go on in step. -/
theorem Schedule.in_step {one two system : System} {actions others : List Action} {events : List Event}
    (schedule : Schedule one actions system events) (same : two.bare = one.bare)
    (alike : List.Forall₂ Action.Alike others actions) :
    ∃ later events', Schedule two others later events' ∧ later.bare = system.bare ∧
      visible events' = visible events := by
  induction schedule generalizing others with
  | start =>
    cases alike
    exact ⟨two, [], .start, same, rfl⟩
  | @next actions _ _ seen events action _ step ih =>
    obtain ⟨middle, seen', schedule', bare, shown⟩ := ih (List.forall₂_take_append _ _ _ alike)
    obtain ⟨other, rest, own, ends, split⟩ :=
      List.forall₂_cons_right_iff.mp (List.forall₂_drop_append _ _ _ alike)
    obtain rfl := List.forall₂_nil_right_iff.mp ends
    have together := own.perform bare
    rw [step] at together
    obtain ⟨result, bared, same_step⟩ := Option.map_eq_some_iff.mp together
    obtain ⟨⟨later, events'⟩, step', rfl⟩ := Option.map_eq_some_iff.mp bared
    obtain ⟨bare', shown'⟩ := Prod.mk.inj same_step
    have onward := schedule'.next other step'
    rw [← split, List.take_append_drop] at onward
    refine ⟨later, seen' ++ events', onward, bare', ?_⟩
    rw [visible, visible, List.filter_append, List.filter_append]
    exact congrArg₂ (· ++ ·) shown shown'

theorem System.look_eq {one two : System} (same : one.bare = two.bare) : one.look = two.look := by
  have kept (system : System) : system.bare.look = system.look := rfl
  rw [← kept, same, kept]

/-- The calls have returned alike. -/
theorem System.results_eq {one two : System} (same : one.bare = two.bare) :
    one.calls.map Call.result? = two.calls.map Call.result? := by
  have kept (system : System) : system.bare.calls.map Call.result? = system.calls.map Call.result? := by
    rw [bare, List.map_map]
    refine List.map_congr_left fun call _ => ?_
    rcases call with stage | stage
    · cases stage <;> rfl
    · rfl
  rw [← kept, same, kept]

/-- Comments leave no trace. The instructions of a text are its characters that are instructions, and those of
bytes are the bytes that are; so they may be dropped piece by piece, and once is enough. Sources of which the
same instructions are left make the same machine, with the same table of brackets, and are refused alike.
Handed in to executions, they leave the same snapshots, the same steps and the same answers behind. -/
theorem comments_leave_no_trace :
    (∀ text : String, (Instruction.ofBytes (Utf8.encode text)).map Instruction.char =
      text.toList.filter Instruction.isMark) ∧
    (∀ source, Instruction.kept source =
      source.filter fun octet => Instruction.isMark (Char.ofNat octet.toNat)) ∧
    (∀ one two, Instruction.kept (one ++ two) = Instruction.kept one ++ Instruction.kept two) ∧
    (∀ source, Instruction.kept (Instruction.kept source) = Instruction.kept source) ∧
    (∀ one two : Request, one.Alike two →
      (∃ error, one.program = .error error ∧ two.program = .error error) ∨
      ∃ program other, one.program = .ok program ∧ two.program = .ok other ∧
        program.bare = other.bare ∧ program.machine = other.machine) ∧
    ∀ (name : String) (stream : ByteStream) (first other : Option Program) (actions others : List Action)
      (system : System) (events : List Event), other.map Program.bare = first.map Program.bare →
      List.Forall₂ Action.Alike others actions → Schedule (.start name first stream) actions system events →
      ∃ system' events', Schedule (.start name other stream) others system' events' ∧
        system'.look = system.look ∧ visible events' = visible events ∧
        system'.calls.map Call.result? = system.calls.map Call.result? := by
  refine ⟨Instruction.ofBytes_encode, Instruction.kept_eq_filter, ?_, ?_, ?_, ?_⟩
  · intro one two
    rw [Instruction.kept, Instruction.ofBytes_append, List.map_append]
    rfl
  · intro source
    rw [Instruction.kept, Instruction.ofBytes_kept]
    rfl
  · intro one two alike
    refine alike.outcomes.imp_right ?_
    rintro ⟨program, other, made, made', bare⟩
    exact ⟨program, other, made, made', bare, Program.machine_eq bare⟩
  · intro name stream first other actions others system events firsts alike schedule
    obtain ⟨later, events', onward, bare, shown⟩ :=
      schedule.in_step (System.bare_start name stream firsts) alike
    exact ⟨later, events', onward, System.look_eq bare, shown, System.results_eq bare⟩

/-- An endless program is replaced by another one, which is executed. -/
def stepsAround (code : Source) : List Action :=
  List.replicate 9 .work ++ .requestRestart ⟨code, .nothing, none⟩ ::
    [List.replicate 5 (.proceed 0), List.replicate 6 .work, List.replicate 3 (.proceed 0),
      List.replicate 19 .work].flatten

theorem comments_leave_no_trace_of_arrow :
    ∃ system events system' events',
      Schedule (.start "worker" (some ⟨[43, 91, 93], [], none⟩) .empty) (stepsAround (.text "+→.")) system
        events ∧
      Schedule (.start "worker" (some ⟨[43, 91, 200, 93], [], none⟩) .empty)
        (stepsAround (.bytes [43, 46])) system' events' ∧
      system.look.output = #[1] ∧ system'.look = system.look ∧ visible events' = visible events := by
  have run : ((System.start "worker" (some ⟨[43, 91, 93], [], none⟩) .empty).follow
      (stepsAround (.text "+→."))).map (fun last => last.1.look.output) = some #[1] := by decide +kernel
  obtain ⟨⟨system, events⟩, followed, output⟩ := Option.map_eq_some_iff.mp run
  have alike : (⟨.bytes [43, 46], .nothing, none⟩ : Request).Alike ⟨.text "+→.", .nothing, none⟩ :=
    ⟨⟨⟨_, rfl⟩, ⟨_, rfl⟩, by decide +kernel⟩, rfl, rfl⟩
  have both : List.Forall₂ Action.Alike (stepsAround (.bytes [43, 46])) (stepsAround (.text "+→.")) := by
    have same (steps : List Action) : List.Forall₂ Action.Alike steps steps :=
      List.forall₂_same.mpr fun _ _ => .same _
    exact List.rel_append (same _) (.cons (.restart alike) (same _))
  obtain ⟨system', events', onward, look, shown, -⟩ := comments_leave_no_trace.2.2.2.2.2 "worker" .empty _
    (some ⟨[43, 91, 200, 93], [], none⟩) _ _ system events (by decide +kernel) both (.of_follow followed)
  exact ⟨system, events, system', events', .of_follow followed, onward, output, look, shown⟩

end TapeMachine.Live
