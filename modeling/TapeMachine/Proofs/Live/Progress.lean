import TapeMachine.Proofs.Live.Resting
import TapeMachine.Proofs.Live.Solo

namespace TapeMachine

/-- The machine comes to the end of its code, or to a failure of the program's own. -/
def Machine.Ends (machine : Machine) (stream : ByteStream) : Prop :=
  ∃ trail last rest outcome left finish status, Path machine stream trail last rest ∧
    last.step rest = ⟨outcome, last, left⟩ ∧ outcome.rest? = some finish ∧
    finish.status? = some status

theorem Finishes.ends {program : Program} {stream : ByteStream} {snapshot : Snapshot}
    (finishes : Finishes program stream snapshot) : program.machine.Ends stream := by
  obtain ⟨trail, last, rest, outcome, left, finish, path, step, rests, told⟩ := finishes.path
  exact ⟨trail, last, rest, outcome, left, finish, _, path, step, rests, told⟩

/-- Wherever a machine has got to, its end is still before it. -/
theorem Machine.Ends.along {machine now : Machine} {stream rest : ByteStream} {trail : List Advance}
    (ends : machine.Ends stream) (path : Path machine stream trail now rest) : now.Ends rest := by
  obtain ⟨whole, last, final, outcome, left, finish, status, longer, step, rests, told⟩ := ends
  rcases Nat.le_total trail.length whole.length with within | beyond
  · obtain ⟨extra, -, onward⟩ := path.continues longer within
    exact ⟨extra, last, final, outcome, left, finish, status, onward, step, rests, told⟩
  · obtain ⟨extra, -, onward⟩ := longer.continues path beyond
    obtain rfl := Path.extra_nil step rests onward
    obtain ⟨rfl, rfl⟩ := onward.of_nil
    exact ⟨[], last, final, outcome, left, finish, status, .start, step, rests, told⟩

namespace Live

theorem isBreakdown_of_status {finish : RunEnd} {status : Status}
    (told : finish.status? = some status) : finish ≠ .waiting ∧ isBreakdown finish = false := by
  cases finish with
  | ended => exact ⟨by simp, rfl⟩
  | failed error =>
    refine ⟨by simp, ?_⟩
    by_cases own : error.isProgramFailure = true
    · simp [isBreakdown, own]
    · simp [RunEnd.status?, own] at told
  | waiting | exhausted => cases told

namespace System

variable {system later : System} {run : Run} {events : List Event} {actions : List Action}
  {met : List Nat} {first : Option Program} {blank : Snapshot} {program : Program}
  {base : ByteStream} {fed : List StreamItem}

/-- By its own steps the worker comes to the barrier and waits there, and the state cell is sound. -/
def Parks (system : System) : Prop :=
  ∃ count, (system.solo count).1.worker = .waiting ∧ (system.solo count).1.state.poisoned = false

theorem Parks.of_solo {count : Nat} (begins : system.solo count = (later, events))
    (parks : later.Parks) : system.Parks := by
  obtain ⟨more, waits, healthy⟩ := parks
  refine ⟨count + more, ?_⟩
  rw [solo_add, begins]
  exact ⟨waits, healthy⟩

theorem Parks.of_step (step : system.workerStep? = some (later, events)) (parks : later.Parks) :
    system.Parks := .of_solo (solo_one step) parks

theorem Undisturbed.parks_of_arriving (undisturbed : system.Undisturbed)
    (arrives : system.worker = .arriving) : system.Parks := by
  obtain ⟨later, arrived, -, waits, state⟩ := solo_arriving system undisturbed.barrier arrives
  refine ⟨1, ?_⟩
  rw [arrived, state]
  exact ⟨waits, undisturbed.state⟩

theorem Undisturbed.parks_of_head (undisturbed : system.Undisturbed)
    (at_head : system.worker = .checkingStop run) (ends : run.machine.Ends system.stream) :
    system.Parks := by
  obtain ⟨trail, last, rest, outcome, left, finish, status, path, step, rests, told⟩ := ends
  obtain ⟨ready, sound⟩ := isBreakdown_of_status told
  obtain ⟨middle, seen, followed, kept, there, stream, -⟩ := undisturbed.follow at_head path
  rw [← stream] at step
  obtain ⟨later, events, ended, -, waits, state, -⟩ := kept.come_to_rest there step rests ready
  refine .of_solo followed ⟨6, ?_⟩
  rw [ended]
  exact ⟨waits, state.trans sound⟩

theorem Undisturbed.parks_of_stepping (undisturbed : system.Undisturbed)
    (stepping : system.worker = .stepping run) (ends : run.machine.Ends system.stream) :
    system.Parks := by
  obtain ⟨trail, last, rest, outcome, left, finish, status, path, step, rests, told⟩ := ends
  rcases trail with _ | ⟨advance, trail⟩
  · obtain ⟨rfl, rfl⟩ := path.of_nil
    obtain ⟨ready, sound⟩ := isBreakdown_of_status told
    obtain ⟨later, events, ended, -, waits, state, -⟩ := undisturbed.rest stepping step rests ready
    refine ⟨3, ?_⟩
    rw [ended]
    exact ⟨waits, state.trans sound⟩
  · obtain ⟨after, remaining, begins, -, onward⟩ := path.uncons
    obtain ⟨later, events, executed, kept, at_head, stream, -⟩ := undisturbed.execute stepping begins
    refine .of_solo executed (kept.parks_of_head at_head ?_)
    rw [stream]
    exact ⟨trail, last, rest, outcome, left, finish, status, onward, step, rests, told⟩

theorem Undisturbed.parks_of_announcing (undisturbed : system.Undisturbed)
    (announcing : system.worker = .announcing run) (ends : run.machine.Ends system.stream) :
    system.Parks := by
  obtain ⟨later, events, announced, kept, stepping, stream, -⟩ := undisturbed.announce announcing
  rw [← stream] at ends
  exact .of_solo announced (kept.parks_of_stepping stepping ends)

/-- No restart is in progress. -/
def Returned (system : System) : Prop :=
  ∀ (id : Nat) (stage : RestartStage), system.calls[id]? = some (.restart stage) →
    ∃ result, stage = .finished result

theorem Intact.unstopped (intact : system.Intact first actions met) (returned : system.Returned) :
    system.stop = false := by
  by_contra up
  obtain ⟨id, stage, call, raised⟩ := intact.flag (by simpa using up)
  obtain ⟨result, rfl⟩ := returned id stage call
  cases raised

/-- Nobody but the worker has anything to do. -/
theorem Returned.undisturbed (returned : system.Returned) (sound : system.Sound)
    (orderly : system.Orderly) (intact : system.Intact first actions met)
    (away : system.worker ≠ .waiting) : system.Undisturbed := by
  have whole := sound.whole orderly
  refine ⟨intact.unstopped returned, sound.unclosed, ?_, sound.state⟩
  rcases barrier : system.barrier with ⟨waiting, broken⟩
  rw [barrier] at whole
  obtain rfl : broken = false := whole
  rcases waiting with _ | party | id
  · rfl
  · exact absurd (orderly.worker_waits (by rw [barrier]) (by rw [barrier])) away
  · have call := orderly.call_waits id (by rw [barrier]) (by rw [barrier])
    obtain ⟨result, clash⟩ := returned id .waiting call
    cases clash

/-- A worker that is in a run of a program which comes to an end gets to the barrier. -/
theorem Undisturbed.parks_of_run (undisturbed : system.Undisturbed)
    (there : system.worker.run? = some run)
    (follows : system.worker.Follows program base fed system.stream)
    (ends : program.machine.Ends (base.feed fed)) : system.Parks := by
  rcases place : system.worker with _ | _ | _ | now | now | now | now | now | ⟨now, status⟩ | _ | _ |
    _ | _ | _ | _
  all_goals rw [place] at there follows
  case checkingStop =>
    obtain ⟨trail, path⟩ := follows
    exact undisturbed.parks_of_head place (ends.along path)
  case checkingClosed =>
    obtain ⟨trail, path⟩ := follows
    have step : system.workerStep? = some (system.moveWorker (.announcing now), []) := by
      rw [workerStep?, place]
      simp [undisturbed.closed]
    have moved := undisturbed.move system.stream (.announcing now)
    exact .of_step step (moved.parks_of_announcing rfl (ends.along path))
  case announcing =>
    obtain ⟨trail, path⟩ := follows
    exact undisturbed.parks_of_announcing place (ends.along path)
  case stepping =>
    obtain ⟨trail, path⟩ := follows
    exact undisturbed.parks_of_stepping place (ends.along path)
  case reporting =>
    obtain ⟨trail, -, path⟩ := follows
    obtain ⟨later, events, published, kept, at_head, stream, -⟩ :=
      undisturbed.publish now .running (.checkingStop now)
    have step : system.workerStep? = some (later, events) := by
      rw [workerStep?, place]
      exact congrArg some published
    refine .of_step step (kept.parks_of_head at_head ?_)
    rw [stream]
    exact ends.along path
  case concluding =>
    obtain ⟨later, events, concluded, -, waiting, healthy, -⟩ := undisturbed.conclude place
    refine ⟨2, ?_⟩
    rw [concluded]
    exact ⟨waiting, healthy⟩
  all_goals cases there

/-- A worker that has not loaded a program yet loads the one in charge, and gets to the barrier when
that comes to an end. -/
theorem Undisturbed.parks_of_unloaded (undisturbed : system.Undisturbed) (sound : system.Sound)
    {job : Job} (stored : system.program.value = some job) (unloaded : system.worker.unloaded = true)
    (ends : job.program.machine.Ends system.stream) : system.Parks := by
  have loading : (system.moveWorker .loading).Parks := by
    have moved := undisturbed.move system.stream (.checkingStop (.ofJob job))
    have loads : ∃ events, (system.moveWorker .loading).workerStep? =
        some (system.moveWorker (.checkingStop (.ofJob job)), events) := by
      simp [workerStep?, moveWorker, SharedCell.load?, sound.program, stored]
    obtain ⟨events, loads⟩ := loads
    exact .of_step loads (moved.parks_of_head rfl ends)
  have opening : (system.moveWorker .opening).Parks := by
    refine @Parks.of_step _ (system.moveWorker .loading) [] ?_ loading
    simp [workerStep?, moveWorker, sound.unclosed]
  have here {worker : Worker} (place : system.worker = worker) :
      system.moveWorker worker = system := by
    rw [← place]
    rfl
  rcases place : system.worker with _ | _ | _ | _ | _ | _ | _ | _ | _ | _ | _ | _ | _ | _ | _
  all_goals rw [place] at unloaded
  case starting =>
    have starts : system.workerStep? = some (system.moveWorker .opening,
        [.logged (.debug s!"worker {system.name} started")]) := by
      rw [workerStep?, place]
    exact .of_step starts opening
  case opening => exact here place ▸ opening
  case loading => exact here place ▸ loading
  case returning =>
    have returns : system.workerStep? = some (system.moveWorker .opening, []) := by
      rw [workerStep?, place]
      simp [sound.unclosed]
    exact .of_step returns opening
  all_goals cases unloaded

/-- Wherever the worker is, it gets to the barrier. -/
theorem Returned.parks (returned : system.Returned) (sound : system.Sound)
    (isolated : system.Isolated met) (intact : system.Intact first actions met)
    (serving : system.Serving blank (inCharge met) program base fed)
    (ours : ∀ job, system.program.value = some job → job.ticket = inCharge met →
      job.program = program)
    (given : system.program.value ≠ none) (ends : program.machine.Ends (base.feed fed)) :
    system.Parks := by
  by_cases waits : system.worker = .waiting
  · exact ⟨0, waits, sound.state⟩
  have undisturbed := returned.undisturbed sound isolated.orderly intact waits
  have allowed {ticket : Nat} (withheld : system.Withheld ticket) : False := by
    cases withheld.1.symm.trans undisturbed.stop
  by_cases unloaded : system.worker.unloaded = true
  · obtain ⟨job, stored⟩ := Option.ne_none_iff_exists'.mp given
    have charge : job.ticket = inCharge met :=
      (isolated.stored job stored).resolve_right allowed
    obtain rfl := ours job stored charge
    rw [← serving.untouched unloaded] at ends
    exact undisturbed.parks_of_unloaded sound stored unloaded ends
  rcases running : system.worker.run? with _ | run
  · rcases place : system.worker with _ | _ | _ | _ | _ | _ | _ | _ | _ | _ | _ | _ | _ | _ | _
    case arriving => exact undisturbed.parks_of_arriving place
    case waiting => exact absurd place waits
    case crashing => exact absurd place sound.uncrashed
    case leaving => exact absurd place intact.at_work.1
    case gone => exact absurd place intact.at_work.2
    all_goals rw [place] at unloaded running
    case starting | opening | loading | returning => exact absurd rfl unloaded
    all_goals cases running
  · have charge : run.job.ticket = inCharge met :=
      (isolated.loaded run running).resolve_right fun withheld => allowed withheld.2
    exact undisturbed.parks_of_run running (serving.follows run running charge).2 ends

end System

end Live

end TapeMachine
