import TapeMachine.Proofs.Live.Resting
import TapeMachine.Proofs.Live.Traces

namespace TapeMachine.Live

/-- A snapshot was published under a ticket. -/
def PublishedAs (ticket : Nat) (snapshot : Snapshot) (events : List Event) : Prop :=
  ∃ publication, Event.published ticket publication ∈ events ∧ publication.snapshot = snapshot

variable {system later : System} {action : Action} {actions : List Action}
  {events moment : List Event} {ticket : Nat} {snapshot : Snapshot}

theorem PublishedAs.before (published : PublishedAs ticket snapshot events) (more : List Event) :
    PublishedAs ticket snapshot (events ++ more) := by
  obtain ⟨publication, member, same⟩ := published
  exact ⟨publication, List.mem_append_left _ member, same⟩

/-- What the state cell holds is known. -/
def System.Sourced (events : List Event) (system : System) : Prop :=
  ∀ snapshot, system.state.load? = some snapshot →
    snapshot = firstLook (rendezvous events) ∨
      PublishedAs (inCharge (rendezvous events)) snapshot events

theorem System.Sourced.quiet (sourced : system.Sourced events)
    (isolated : system.Isolated (rendezvous events))
    (step : system.perform? action = some (later, moment)) (apart : rendezvous moment = []) :
    later.Sourced (events ++ moment) := by
  unfold Sourced
  rw [rendezvous_append, apart, List.append_nil]
  have kept (same : later.state = system.state ∨ later.state.load? = none) :
      ∀ snapshot, later.state.load? = some snapshot →
        snapshot = firstLook (rendezvous events) ∨
          PublishedAs (inCharge (rendezvous events)) snapshot (events ++ moment) := by
    intro snapshot there
    rcases same with same | gone
    · rw [same] at there
      exact (sourced snapshot there).imp_right fun published => published.before moment
    · cases gone.symm.trans there
  cases isolated.orderly.moves step with
  | @publish run status next _ publishes healthy =>
    obtain ⟨there, unchecked, -⟩ := publishes.same_run
    obtain ⟨notes, -, rfl⟩ := events_of_publishes publishes step
    intro snapshot shown
    obtain rfl := Option.some.inj shown
    rcases isolated.loaded run there with charge | ⟨checks, -⟩
    · rw [← charge]
      exact .inr ⟨⟨run.machine.position, run.snapshot status, !system.state.poisoned⟩,
        List.mem_append_right _ List.mem_cons_self, rfl⟩
    · exact absurd checks (unchecked run)
  | meet _ _ _ _ _ one => cases apart.symm.trans one
  | crash | poison_state => exact kept (.inr (load?_poison _))
  | _ => exact kept (.inl rfl)

theorem System.Sourced.meet
    (moves : Moves system action later moment) (some_met : rendezvous moment ≠ []) :
    later.Sourced (events ++ moment) := by
  obtain ⟨id, stage, state, -, -, -, renewed, -, -, rfl⟩ := meets_of_rendezvous moves some_met
  have met : rendezvous (events ++ moment) ≠ [] := by
    rw [rendezvous_append]
    exact List.append_ne_nil_of_right_ne_nil _ some_met
  intro snapshot there
  left
  rw [firstLook, if_neg met]
  rcases renewed with ⟨-, rfl⟩ | ⟨poisoned, rfl⟩
  · exact (Option.some.inj there).symm
  · simp only [SharedCell.load?, poisoned, if_true] at there
    cases there

theorem Schedule.sourced {name : String} {first : Option Program} {stream : ByteStream}
    (history : Schedule (.start name first stream) actions system events) :
    system.Sourced events := by
  induction history with
  | start =>
    intro snapshot there
    exact .inl (Option.some.inj there).symm
  | @next _ _ _ _ moment action earlier step ih =>
    have isolated := earlier.isolated (.start name first stream)
    by_cases apart : rendezvous moment = []
    · exact ih.quiet isolated step apart
    · exact .meet (isolated.orderly.moves step) apart

/-- What everybody sees. -/
theorem System.Sourced.look (sourced : system.Sourced events) :
    system.look = firstLook (rendezvous events) ∨
      PublishedAs (inCharge (rendezvous events)) system.look events ∨
        system.look = .fresh (.fatal poisonedMessage) := by
  rcases there : system.state.load? with _ | snapshot
  · refine .inr (.inr ?_)
    simp only [System.look, there]
  · have seen : system.look = snapshot := by simp only [System.look, there]
    rw [seen]
    exact (sourced snapshot there).imp_right .inl

end TapeMachine.Live
