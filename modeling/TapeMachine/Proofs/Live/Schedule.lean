import TapeMachine.Live.Transition

namespace TapeMachine.Live

/-- An execution with a record of its actions. -/
inductive Schedule (initial : System) : List Action → System → List Event → Prop
  | start : Schedule initial [] initial []
  | next {actions : List Action} {current later : System} {seen events : List Event}
      (action : Action) : Schedule initial actions current seen →
      current.perform? action = some (later, events) →
      Schedule initial (actions ++ [action]) later (seen ++ events)

theorem Schedule.trans {initial middle final : System} {actions more : List Action}
    {events later : List Event} (first : Schedule initial actions middle events)
    (second : Schedule middle more final later) :
    Schedule initial (actions ++ more) final (events ++ later) := by
  induction second with
  | start => simpa using first
  | next action _ step ih =>
    rw [← List.append_assoc, ← List.append_assoc]
    exact ih.next action step

theorem Schedule.single {initial later : System} {action : Action} {events : List Event}
    (step : initial.perform? action = some (later, events)) :
    Schedule initial [action] later events :=
  Schedule.start.next action step

/-- Carries out some actions, one after the other; `none` if one of them is not possible. -/
def System.follow (system : System) : List Action → Option (System × List Event)
  | [] => some (system, [])
  | action :: actions =>
    match system.perform? action with
    | none => none
    | some (next, events) =>
      (next.follow actions).map fun result => (result.1, events ++ result.2)

/-- Actions that can be carried out are a schedule. -/
theorem Schedule.of_follow {initial system : System} {actions : List Action} {events : List Event}
    (followed : initial.follow actions = some (system, events)) :
    Schedule initial actions system events := by
  induction actions generalizing initial events with
  | nil =>
    obtain ⟨rfl, rfl⟩ := Prod.mk.inj (Option.some.inj followed)
    exact .start
  | cons action actions ih =>
    rw [System.follow] at followed
    rcases step : initial.perform? action with _ | ⟨next, seen⟩
    · rw [step] at followed
      cases followed
    · rw [step] at followed
      obtain ⟨⟨last, more⟩, rest, same⟩ := Option.map_eq_some_iff.mp followed
      obtain ⟨rfl, rfl⟩ := Prod.mk.inj same
      exact (Schedule.single step).trans (ih rest)

def Action.call? : Action → Option Call
  | .requestRestart request => some (.ofRequest request)
  | .requestShutdown => some (.shutdown .closing)
  | _ => none

/-- All calls that were made, each as it was when it was made. -/
def callsMade (actions : List Action) : List Call := actions.filterMap Action.call?

/-- The program that a call handed in. -/
def handedIn (actions : List Action) (id : Nat) : Option Program :=
  match (callsMade actions)[id]? with
  | some (.restart (.locking program)) => some program
  | _ => none

/-- The program with a ticket. -/
def programOf (first : Option Program) (actions : List Action) : Nat → Option Program
  | 0 => first
  | id + 1 => handedIn actions id

def Action.items : Action → List StreamItem
  | .feed items => items
  | _ => []

def itemsFed (actions : List Action) : List StreamItem := actions.flatMap Action.items

/-- The ticket of the program that an event is a trace of: one of its instructions was executed or
a snapshot of it was published. -/
def Event.ticket? : Event → Option Nat
  | .executed ticket _ | .published ticket _ => some ticket
  | _ => none

/-- The restart whose rendezvous an event is. -/
def Event.rendezvous? : Event → Option Nat
  | .met (.call id) _ | .met _ (.call id) => some id
  | _ => none

def rendezvous (events : List Event) : List Nat := events.filterMap Event.rendezvous?

/-- The ticket of the program that is in charge after some rendezvous: the one of the latest of
them, and before the first one the program that was there from the start. -/
def inCharge (met : List Nat) : Nat :=
  match met.getLast? with
  | none => 0
  | some id => id + 1

theorem callsMade_append (actions more : List Action) :
    callsMade (actions ++ more) = callsMade actions ++ callsMade more :=
  List.filterMap_append

theorem itemsFed_append (actions more : List Action) :
    itemsFed (actions ++ more) = itemsFed actions ++ itemsFed more :=
  List.flatMap_append

theorem rendezvous_append (events more : List Event) :
    rendezvous (events ++ more) = rendezvous events ++ rendezvous more :=
  List.filterMap_append

theorem inCharge_concat (met : List Nat) (id : Nat) : inCharge (met ++ [id]) = id + 1 := by
  simp [inCharge]

theorem inCharge_append (met : List Nat) {later : List Nat} (newer : later ≠ []) :
    inCharge (met ++ later) = inCharge later := by
  unfold inCharge
  rw [List.getLast?_append, List.getLast?_eq_some_getLast newer, Option.or]

theorem inCharge_ne_zero {met : List Nat} (some_met : met ≠ []) : inCharge met ≠ 0 := by
  unfold inCharge
  rw [List.getLast?_eq_some_getLast some_met]
  exact Nat.succ_ne_zero _

theorem inCharge_mem {met : List Nat} {id : Nat} (charge : inCharge met = id + 1) : id ∈ met := by
  unfold inCharge at charge
  split at charge
  · omega
  · next latest last =>
    obtain rfl : latest = id := by omega
    exact List.mem_of_getLast? last

/-- A program is handed in by a call that has been made. -/
theorem lt_of_handedIn {actions : List Action} {id : Nat} {program : Program}
    (known : handedIn actions id = some program) : id < (callsMade actions).length := by
  apply Nat.lt_of_not_le
  intro beyond
  rw [handedIn, List.getElem?_eq_none beyond] at known
  cases known

/-- A call keeps its program when more is done. -/
theorem handedIn_append {actions : List Action} {id : Nat} {program : Program}
    (known : handedIn actions id = some program) (more : List Action) :
    handedIn (actions ++ more) id = some program := by
  rw [handedIn, callsMade_append, List.getElem?_append_left (lt_of_handedIn known)]
  exact known

theorem ticket_le_of_programOf {first : Option Program} {actions : List Action} {ticket : Nat}
    {program : Program} (known : programOf first actions ticket = some program) :
    ticket ≤ (callsMade actions).length := by
  cases ticket with
  | zero => exact Nat.zero_le _
  | succ id => exact lt_of_handedIn known

theorem programOf_append {first : Option Program} {actions : List Action} {ticket : Nat}
    {program : Program} (known : programOf first actions ticket = some program)
    (more : List Action) : programOf first (actions ++ more) ticket = some program := by
  cases ticket with
  | zero => exact known
  | succ id => exact handedIn_append known more

end TapeMachine.Live
