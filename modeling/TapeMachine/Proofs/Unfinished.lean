import TapeMachine.Proofs.StrayBracket
import TapeMachine.Proofs.Live.Agreement
import TapeMachine.Proofs.Live.Lasting

namespace TapeMachine

/-- A machine of a program stays on the code of the program, before its first stray bracket. -/
def Program.OnCode (program : Program) (machine : Machine) : Prop :=
  machine.code = .ofBytes program.code ∧ machine.Confined

theorem Machine.run_ended_matched {machine : Machine} {stream : ByteStream} {budget : Nat}
    (confined : machine.Confined) (ended : (machine.run budget stream).finish = .ended) :
    machine.code.Matched := by
  rcases run : machine.run budget stream with ⟨later, left, steps, finish⟩
  rw [run] at ended
  subst ended
  obtain ⟨trail, last, rest, outcome, path, step, rests⟩ :=
    (run_finish_iff (by simp)).mp ⟨budget, steps, run⟩
  have atEnd : (last.step rest).outcome = .ended := by
    rw [step]
    cases outcome <;> simp_all [Outcome.rest?]
  rw [← path.code]
  exact (path.confined confined).matched atEnd

namespace Live

open CommandLine

theorem lasting_onCode : Lasting Program.OnCode := by
  constructor
  · intro program
    exact ⟨rfl, Machine.confined_load _ _ _⟩
  · rintro program machine later stream left op ⟨code, confined⟩ step
    exact ⟨(Machine.step_ran step).1.trans code, confined.step step⟩

/-- A program that is published as done has no stray bracket. -/
theorem Schedule.done_matched {name : String} {first : Option Program} {stream : ByteStream}
    {actions : List Action} {system : System} {events : List Event} {ticket : Nat}
    {publication : Publication}
    (schedule : Schedule (.start name first stream) actions system events)
    (member : Event.published ticket publication ∈ events)
    (done : publication.snapshot.status = .done) :
    ∃ program, programOf first actions ticket = some program ∧
      (Code.ofBytes program.code).Matched := by
  obtain ⟨before, earlier, moment, run, status, next, within, history, publishes, rfl, rfl⟩ :=
    schedule.publication (.start name first stream) member
  have keeps := history.keeps (.start name first stream) lasting_onCode (.start name first stream)
  have genuine := history.genuine (.start name first stream) (.start name first stream)
  obtain ⟨there, -⟩ := publishes.same_run
  obtain ⟨code, confined⟩ := keeps.running run there
  obtain ⟨rest, rfl⟩ := within
  refine ⟨run.job.program, programOf_append (genuine.loaded run there) rest, ?_⟩
  rw [← code]
  obtain rfl : status = .done := done
  generalize place : moment.worker = worker at publishes
  cases publishes with
  | conclude =>
    obtain ⟨input, outcome, left, step, concludes⟩ := keeps.concluding run .done place
    cases outcome with
    | ended => exact confined.matched (congrArg StepResult.outcome step)
    | ran | waiting => cases concludes
    | failed error => cases concludes.2

/-- The command line reports success only at the end of the code. -/
theorem runProgram_success {budget : Nat} {program : Program} {stream : ByteStream}
    {report : Report} (reported : runProgram budget program stream = some (.ok report))
    (success : report.code = 0) : (program.machine.run budget stream).finish = .ended := by
  rw [runProgram_eq] at reported
  rcases run : program.machine.run budget stream with ⟨last, left, steps, finish⟩
  rw [run] at reported
  cases finish with
  | ended => rfl
  | waiting | exhausted => cases reported
  | failed error =>
    simp only at reported
    split at reported
    · cases reported
    · obtain rfl := Except.ok.inj (Option.some.inj reported)
      cases success

/-- However many steps a machine has made, it is not behind any bracket without partner. If it is
at the end of its code, all brackets have partners, and if they have, no step fails for want of
one. So a run that ends, a success that the command line reports, and a program that the worker
publishes as done, whatever restarts, shutdowns and poisonings there are besides, all mean that
every bracket has a partner. -/
theorem stray_bracket_never_passed :
    (∀ (code : Code) (input : List UInt8) (fallback : Option Int) (stream : ByteStream)
        (trail : List Advance) (last : Machine) (rest : ByteStream),
      Path (.load code input fallback) stream trail last rest →
        (∀ stray, code.Stray stray → last.position ≤ stray) ∧
        ((last.step rest).outcome = .ended → code.Matched) ∧
        (code.Matched → (last.step rest).outcome ≠ .failed .mismatchedBrackets)) ∧
    (∀ (code : Code) (input : List UInt8) (fallback : Option Int) (stream : ByteStream)
        (budget : Nat),
      ((Machine.load code input fallback).run budget stream).finish = .ended → code.Matched) ∧
    (∀ (budget : Nat) (program : Program) (stream : ByteStream) (report : Report),
      runProgram budget program stream = some (.ok report) → report.code = 0 →
        (Code.ofBytes program.code).Matched) ∧
    ∀ (name : String) (first : Option Program) (stream : ByteStream) (actions : List Action)
        (system : System) (events : List Event) (ticket : Nat) (publication : Publication),
      Schedule (.start name first stream) actions system events →
      .published ticket publication ∈ events → publication.snapshot.status = .done →
        ∃ program, programOf first actions ticket = some program ∧
          (Code.ofBytes program.code).Matched := by
  refine ⟨?_, ?_, ?_, ?_⟩
  · intro code input fallback stream trail last rest path
    have same : last.code = code := path.code
    have confined := path.confined (Machine.confined_load code input fallback)
    refine ⟨?_, ?_, ?_⟩
    · intro stray alone
      rw [← same] at alone
      exact confined stray alone
    · intro ended
      rw [← same]
      exact confined.matched ended
    · intro matched mismatched
      rw [← same, Code.matched_iff_no_stray] at matched
      exact matched _ (Machine.step_mismatched_iff.mp mismatched)
  · intro code input fallback stream budget ended
    exact Machine.run_ended_matched (Machine.confined_load code input fallback) ended
  · intro budget program stream report reported success
    have ended := runProgram_success reported success
    exact Machine.run_ended_matched (Machine.confined_load _ _ _) ended
  · intro name first stream actions system events ticket publication schedule member done
    exact schedule.done_matched member done

end Live

end TapeMachine
