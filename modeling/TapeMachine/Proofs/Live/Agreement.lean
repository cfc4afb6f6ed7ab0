import TapeMachine.CommandLine.Report
import TapeMachine.Proofs.Live.Solo

namespace TapeMachine.Live

open CommandLine

/-- What the worker has published after some steps on its own. -/
def published (name : String) (program : Program) (stream : ByteStream) (count : Nat) :
    List Publication :=
  publications ((System.start name (some program) stream).solo count).2

def aloneAfter (name : String) (program : Program) (stream : ByteStream) (count : Nat) : System :=
  ((System.start name (some program) stream).solo count).1

variable {program : Program} {stream rest : ByteStream} {trail : List Advance} {last : Machine}

theorem published_prefix (name : String) (program : Program) (stream : ByteStream)
    {fewer more : Nat} (bound : fewer ≤ more) :
    published name program stream fewer <+: published name program stream more :=
  (System.solo_prefix bound _).filterMap _

theorem published_path (name : String) (path : Path program.machine stream trail last rest) :
    published name program stream (3 + 5 * trail.length) = trail.flatMap instructionPublications ∧
      (aloneAfter name program stream (3 + 5 * trail.length)).Undisturbed ∧
      (aloneAfter name program stream (3 + 5 * trail.length)).worker =
        .checkingStop ⟨⟨0, program⟩, last⟩ ∧
      (aloneAfter name program stream (3 + 5 * trail.length)).stream = rest := by
  obtain ⟨first, events, begun, kept, at_head, input, none_yet⟩ :=
    System.solo_start name program stream
  obtain ⟨later, more, followed, kept, at_head, left, seen⟩ :=
    kept.follow at_head (by rw [input]; exact path)
  have whole := System.solo_trans begun followed
  simp only [published, aloneAfter, whole, publications_append, none_yet, seen]
  exact ⟨List.nil_append _, kept, at_head, left⟩

/-- The worker publishes how the machine comes to rest, and is then at rest itself. -/
theorem published_rest (name : String) {outcome : Outcome} {finish : RunEnd} {after : Machine}
    {left : ByteStream} (path : Path program.machine stream trail last rest)
    (step : last.step rest = ⟨outcome, after, left⟩) (rests : outcome.rest? = some finish)
    (ready : finish ≠ .waiting) {count : Nat} (enough : 9 + 5 * trail.length ≤ count) :
    published name program stream count =
        trail.flatMap instructionPublications ++ closingPublications last finish ∧
      (aloneAfter name program stream count).worker = .waiting ∧
      (aloneAfter name program stream count).workerStep? = none ∧
      (aloneAfter name program stream count).state.poisoned = isBreakdown finish := by
  obtain ⟨seen, kept, at_head, left⟩ := published_path name path
  rw [← left] at step
  obtain ⟨later, events, ended, still, waits, state, closing⟩ :=
    kept.come_to_rest at_head step rests ready
  have whole : (System.start name (some program) stream).solo (3 + 5 * trail.length + 6) =
      (later, ((System.start name (some program) stream).solo (3 + 5 * trail.length)).2 ++ events) :=
    System.solo_trans rfl ended
  have settled : (System.start name (some program) stream).solo count =
      (System.start name (some program) stream).solo (3 + 5 * trail.length + 6) := by
    apply System.solo_settled
    · rw [whole]
      exact still
    · omega
  simp only [published] at seen
  simp only [published, aloneAfter, settled, whole, publications_append, seen,
    closing]
  exact ⟨trivial, waits, still, state⟩

/-- What the command line makes of a result. Output and failure are those of the machine. -/
theorem runProgram_eq (budget : Nat) (program : Program) (stream : ByteStream) :
    runProgram budget program stream =
      match program.machine.run budget stream with
      | ⟨last, _, _, .ended⟩ =>
        some (.ok ⟨0, last.output.toList, "", [runEntry program.machine]⟩)
      | ⟨last, _, _, .failed error⟩ =>
        if isBreakdown (.failed error) then some (.error error)
        else some (.ok ⟨1, last.output.toList, "error: " ++ error.message ++ "\n",
          [runEntry program.machine]⟩)
      | ⟨_, _, _, .waiting⟩ | ⟨_, _, _, .exhausted⟩ => none := by
  rcases result : program.machine.run budget stream with ⟨last, left, steps, finish⟩
  cases finish with
  | ended | waiting | exhausted => simp only [runProgram, reportOn, result]
  | failed error => cases own : error.isProgramFailure <;>
      simp [runProgram, reportOn, result, isBreakdown, own]

/-- The three drivers of a program whose input is a script with an end. Whatever its budget, the
machine executes some instructions and then ends, fails or has used the budget up, but never waits.
The worker publishes what these instructions and the end ask for and nothing else, is then at rest
for ever if the machine is, and has poisoned the state cell exactly if the machine broke down. The
command line reports success exactly if the machine ends, the message exactly if the program
failed, and passes any other failure on. -/
theorem drivers_agree (name : String) (program : Program) (items : List StreamItem) (budget : Nat) :
    ∃ trail last rest left finish,
      Path program.machine ⟨items, .endOfStream⟩ trail last rest ∧
      program.machine.run budget ⟨items, .endOfStream⟩ = ⟨last, left, trail.length, finish⟩ ∧
      (∃ count, published name program ⟨items, .endOfStream⟩ count =
        trail.flatMap instructionPublications ++ closingPublications last finish) ∧
      (∀ count ≤ budget, published name program ⟨items, .endOfStream⟩ count <+:
        trail.flatMap instructionPublications ++ closingPublications last finish) ∧
      (finish ≠ .exhausted → ∃ settled, ∀ count ≥ settled,
        published name program ⟨items, .endOfStream⟩ count =
          trail.flatMap instructionPublications ++ closingPublications last finish ∧
        (aloneAfter name program ⟨items, .endOfStream⟩ count).worker = .waiting ∧
        (aloneAfter name program ⟨items, .endOfStream⟩ count).workerStep? = none ∧
        (aloneAfter name program ⟨items, .endOfStream⟩ count).state.poisoned =
          isBreakdown finish) ∧
      match finish with
      | .ended => runProgram budget program ⟨items, .endOfStream⟩ =
          some (.ok ⟨0, last.output.toList, "", [runEntry program.machine]⟩)
      | .failed error => runProgram budget program ⟨items, .endOfStream⟩ =
          if isBreakdown finish then some (.error error)
          else some (.ok ⟨1, last.output.toList, "error: " ++ error.message ++ "\n",
            [runEntry program.machine]⟩)
      | .exhausted => runProgram budget program ⟨items, .endOfStream⟩ = none
      | .waiting => False := by
  have report := runProgram_eq budget program ⟨items, .endOfStream⟩
  rcases program.machine.run_cases ⟨items, .endOfStream⟩ budget with
    ⟨trail, last, rest, path, rfl⟩ |
    ⟨trail, last, rest, outcome, finish, later, left, path, within, step, rests⟩
  · rw [path.run_exhausted] at report
    obtain ⟨seen, -⟩ := published_path name path
    refine ⟨trail, last, rest, rest, .exhausted, path, path.run_exhausted, ?_, ?_, ?_, report⟩
    · exact ⟨_, by rw [seen, closingPublications, List.append_nil]⟩
    · intro count bound
      rw [closingPublications, List.append_nil, ← seen]
      exact published_prefix _ _ _ (by omega)
    · intro unspent
      exact absurd rfl unspent
  · have ready : finish ≠ .waiting := by
      intro waits
      have outcome_waits : outcome = .waiting := by
        subst waits
        cases outcome <;> simp_all [Outcome.rest?]
      have dry := (Machine.step_ending step).2 outcome_waits
      rw [path.ending] at dry
      cases dry
    obtain rfl := Machine.eq_of_rests step rests
    have settles {count : Nat} (enough : 9 + 5 * trail.length ≤ count) :=
      published_rest name path step rests ready enough
    have run := path.run_rest step rests within
    rw [run] at report
    refine ⟨trail, _, rest, left, finish, path, run, ?_, ?_, ?_, ?_⟩
    · exact ⟨_, (settles (Nat.le_refl _)).1⟩
    · intro count _
      rw [← (settles (Nat.le_max_left _ count)).1]
      exact published_prefix _ _ _ (Nat.le_max_right _ _)
    · intro _
      exact ⟨_, fun count enough => settles enough⟩
    · cases finish with
      | ended | failed error => exact report
      | waiting => exact absurd rfl ready
      | exhausted => cases outcome <;> simp [Outcome.rest?] at rests

end TapeMachine.Live
