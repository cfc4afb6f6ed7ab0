import TapeMachine.Proofs.Live.Looks
import TapeMachine.Proofs.Live.Statuses

namespace TapeMachine

/-- The run of a program is over, at its end or because of a failure of its own. -/
def Status.closes : Status → Bool
  | done | error _ => true
  | _ => false

namespace Live

/-- It has been published that the run of the program with a ticket is over. -/
def Concluded (ticket : Nat) (snapshot : Snapshot) (events : List Event) : Prop :=
  PublishedAs ticket snapshot events ∧ snapshot.status.closes = true

variable {name : String} {first : Option Program} {stream : ByteStream} {system later : System}
  {action : Action} {actions : List Action} {events moment more : List Event} {ticket : Nat}
  {snapshot : Snapshot}

theorem Concluded.mono (concluded : Concluded ticket snapshot events) (longer : events <+: more) :
    Concluded ticket snapshot more := by
  obtain ⟨new, rfl⟩ := longer
  exact ⟨concluded.1.before new, concluded.2⟩

/-- Only a worker that leaves the run publishes that the run is over. -/
theorem Worker.Publishes.leaves {worker next : Worker} {run : Run} {status : Status}
    (publishes : worker.Publishes run status next) (closes : status.closes = true) :
    next.spent = true := by
  cases publishes with
  | conclude => rfl
  | announce | report => cases closes

theorem Worker.Publishes.not_spent {worker next : Worker} {run : Run} {status : Status}
    (publishes : worker.Publishes run status next) : worker.spent = false := by
  cases publishes <;> rfl

namespace System

/-- Once the run in charge is over, the worker has left it, and what was published last is in the state
cell, unless that is poisoned. -/
def Settled (events : List Event) (system : System) : Prop :=
  ∀ snapshot, Concluded (inCharge (rendezvous events)) snapshot events →
    system.worker.spent = true ∧ (system.state.poisoned = false → system.state.value = snapshot)

/-- The worker that has left the run leaves the state cell alone. -/
theorem state_kept (moves : Moves system action later moment) (spent : system.worker.spent = true)
    (apart : rendezvous moment = []) (sound : later.state.poisoned = false) :
    later.state = system.state := by
  cases moves with
  | publish publishes => cases publishes.not_spent.symm.trans spent
  | crash | poison_state => cases sound
  | meet _ _ _ _ _ one => cases apart.symm.trans one
  | _ => rfl

/-- A publication puts the snapshot into the state cell, unless that is poisoned. -/
theorem settled_of_published (orderly : system.Orderly)
    (step : system.perform? action = some (later, moment)) (concluded : Concluded ticket snapshot moment) :
    later.worker.spent = true ∧ (later.state.poisoned = false → later.state.value = snapshot) := by
  obtain ⟨⟨publication, published, rfl⟩, closes⟩ := concluded
  have untold (silent : ∀ event ∈ moment, event.ticket? = none) :
      later.worker.spent = true ∧
        (later.state.poisoned = false → later.state.value = publication.snapshot) := by
    cases silent _ published
  cases orderly.moves step with
  | publish publishes =>
    obtain ⟨notes, silent, rfl⟩ := events_of_publishes publishes step
    rcases List.mem_cons.mp published with same | note
    · obtain ⟨-, rfl⟩ := Event.published.inj same
      exact ⟨publishes.leaves closes, fun _ => rfl⟩
    · cases (silent _ note).1
  | give_up _ poisoned => exact ⟨rfl, fun sound => by cases poisoned.symm.trans sound⟩
  | execute stepping ran =>
    obtain rfl := events_of_execution stepping ran step
    simp at published
  | turn _ silent | load _ _ silent | conclude _ _ _ silent | fail _ silent | stop _ silent =>
    exact untold fun event member => (silent event member).1
  | meet _ _ _ _ _ _ silent => exact untold silent
  | _ => cases published

theorem Settled.quiet (settled : system.Settled events) (orderly : system.Orderly)
    (step : system.perform? action = some (later, moment)) (apart : rendezvous moment = []) :
    later.Settled (events ++ moment) := by
  unfold Settled
  rw [rendezvous_append, apart, List.append_nil]
  rintro snapshot ⟨⟨publication, member, same⟩, closes⟩
  rcases List.mem_append.mp member with old | new
  · obtain ⟨spent, shown⟩ := settled snapshot ⟨⟨publication, old, same⟩, closes⟩
    have moves := orderly.moves step
    refine ⟨spent_kept moves spent apart, ?_⟩
    intro sound
    have kept := state_kept moves spent apart sound
    rw [kept] at sound ⊢
    exact shown sound
  · exact settled_of_published orderly step ⟨⟨publication, new, same⟩, closes⟩

end System

/-- Nothing has been published yet about the program of a restart that meets the worker. -/
theorem Schedule.settled
    (history : Schedule (.start name first stream) actions system events) : system.Settled events := by
  induction history with
  | start =>
    rintro snapshot ⟨⟨publication, member, -⟩, -⟩
    cases member
  | @next _ _ _ _ moment action earlier step ih =>
    have orderly := earlier.orderly (.start name first stream)
    by_cases apart : rendezvous moment = []
    · exact ih.quiet orderly step apart
    · obtain ⟨id, -, -, -, -, -, -, one, untold, -⟩ :=
        System.meets_of_rendezvous (orderly.moves step) apart
      have untraced := earlier.untraced_of_meeting (.start name first stream) step one untold
      rw [System.Settled, rendezvous_append, one, inCharge_concat]
      rintro snapshot ⟨⟨publication, member, -⟩, -⟩
      exact absurd rfl (untraced _ member)

section

variable (history : Schedule (.start name first stream) actions system events)
  (sound : system.state.poisoned = false)

include history sound

/-- Once the run in charge is over, everybody sees that. -/
theorem Schedule.look_of_concluded
    (concluded : Concluded (inCharge (rendezvous events)) snapshot events) : system.look = snapshot := by
  rw [System.look_of_sound sound]
  exact (history.settled snapshot concluded).2 sound

/-- In a sound state cell there is what has been published about the program in charge, or nothing yet. -/
theorem Schedule.look_of_sound :
    system.look = firstLook (rendezvous events) ∨
      PublishedAs (inCharge (rendezvous events)) system.look events := by
  have there : system.state.load? = some system.look := by
    rw [System.look_of_sound sound]
    simp [SharedCell.load?, sound]
  exact history.sourced system.look there

end

end Live

end TapeMachine
