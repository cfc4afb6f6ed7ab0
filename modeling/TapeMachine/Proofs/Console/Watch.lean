import TapeMachine.Console.Session
import TapeMachine.Proofs.Console.Meaning
import TapeMachine.Proofs.Live.Schedule

namespace TapeMachine.Console

/-- A program that a console loads, with the input and the fallback byte that the console had then; `id`
is the number of the restart. -/
structure Load where
  id : Nat
  code : List UInt8
  input : List UInt8
  fallback : Option Int
  deriving DecidableEq

def Load.request (load : Load) : Request := ⟨.bytes load.code, .bytes load.input, load.fallback⟩

/-- A console beside a live execution that goes on by itself. While `loading` is being loaded, which
takes its time, the console does not look and loads nothing else. -/
structure Watch where
  console : Console
  system : Live.System
  loading : Option Load

/-- A look at the execution: what was seen, and the program output that was printed. -/
structure Poll where
  snapshot : Snapshot
  text : String
  deriving DecidableEq

/-- What is to be noted: an event of the execution, a look, or that a program has been loaded. -/
inductive Sight where
  | happened (event : Live.Event)
  | polled (poll : Poll)
  | accepted (load : Load)

def Sight.event? : Sight → Option Live.Event
  | happened event => some event
  | _ => none

inductive Deed where
  | live (action : Live.Action)
  | command (line : String)
  | poll
  | load (code : List UInt8)
  | finish

namespace Watch

def start (name : String) (input : List UInt8) (fallback : Option Int) (stream : ByteStream) : Watch :=
  ⟨.start input fallback, .start name none stream, none⟩

/-- The answer to the restart that loads a program; `none` while there is none. -/
def answer? (watch : Watch) (load : Load) : Option (Except Live.RestartError Unit) :=
  watch.system.calls[load.id]?.bind Live.Call.result?

/-- What the console does when a program has been loaded, or could not be loaded. -/
def finish (watch : Watch) (load : Load) : Except Live.RestartError Unit → Watch × List Sight
  | .ok () => (⟨watch.console.loaded load.code, watch.system, none⟩, [.accepted load])
  | .error error =>
    let console := if error = .poisoned then watch.console.refused.1 else watch.console
    (⟨console, watch.system, none⟩, [])

/-- Does something; `none` if it is not possible now. Nobody else restarts the execution. -/
def perform? (watch : Watch) : Deed → Option (Watch × List Sight)
  | .live (.requestRestart _) => none
  | .live action =>
    (watch.system.perform? action).map fun step =>
      ({ watch with system := step.1 }, step.2.map .happened)
  | .command line =>
    match watch.console.interpret watch.system.look line with
    | .go console _ => some ({ watch with console := console }, [])
    | _ => none
  | .poll =>
    match watch.loading with
    | some _ => none
    | none =>
      let snapshot := watch.system.look
      some ({ watch with console := (watch.console.poll snapshot).1 },
        [.polled ⟨snapshot, (watch.console.showOutput snapshot.output).2⟩])
  | .load code =>
    match watch.loading with
    | some _ => none
    | none =>
      let load : Load := ⟨watch.system.calls.length, code, watch.console.input, watch.console.fallback⟩
      some ({ watch with
        system := watch.system.addCall (.ofRequest load.request), loading := some load }, [])
  | .finish =>
    match watch.loading with
    | none => none
    | some load => (watch.answer? load).map (watch.finish load)

/-- Does some things, one after the other; `none` if one of them is not possible. -/
def follow (watch : Watch) : List Deed → Option (Watch × List Sight)
  | [] => some (watch, [])
  | deed :: deeds =>
    match watch.perform? deed with
    | none => none
    | some (next, sights) => (next.follow deeds).map fun result => (result.1, sights ++ result.2)

end Watch

/-- What can become of a watch, with everything that was noted. -/
inductive Watching (initial : Watch) : Watch → List Sight → Prop
  | start : Watching initial initial []
  | next {current later : Watch} {seen sights : List Sight} (deed : Deed) :
      Watching initial current seen → current.perform? deed = some (later, sights) →
      Watching initial later (seen ++ sights)

/-- A run as the console shows it: the program that was loaded, and the looks up to the next one. -/
structure Showing where
  load : Load
  polls : List Poll
  deriving DecidableEq

namespace Showing

/-- All that was printed of the output of the run. -/
def printed (showing : Showing) : String := String.join (showing.polls.map Poll.text)

/-- Notes one thing more; the latest run is the first one. -/
def note (shown : List Showing) : Sight → List Showing
  | .happened _ => shown
  | .accepted load => ⟨load, []⟩ :: shown
  | .polled poll =>
    match shown with
    | [] => []
    | latest :: earlier => ⟨latest.load, latest.polls ++ [poll]⟩ :: earlier

end Showing

/-- The runs of the programs that were loaded, the latest one first. -/
def showings (sights : List Sight) : List Showing := sights.foldl Showing.note []

/-- The events of the execution. -/
def happenings (sights : List Sight) : List Live.Event := sights.filterMap Sight.event?

variable {initial watch later middle : Watch} {sights more : List Sight}

theorem showings_append (sights more : List Sight) :
    showings (sights ++ more) = more.foldl Showing.note (showings sights) :=
  List.foldl_append

theorem happenings_append (sights more : List Sight) :
    happenings (sights ++ more) = happenings sights ++ happenings more :=
  List.filterMap_append

theorem happenings_of_quiet (sights : List Sight) {more : List Sight} (quiet : happenings more = []) :
    happenings (sights ++ more) = happenings sights := by
  rw [happenings_append, quiet, List.append_nil]

/-- The events of the execution are noted, and no look is. -/
theorem happened (sights : List Sight) (events : List Live.Event) :
    showings (sights ++ events.map .happened) = showings sights ∧
      happenings (sights ++ events.map .happened) = happenings sights ++ events := by
  rw [showings_append, happenings_append]
  constructor
  · induction events with
    | nil => rfl
    | cons event events ih => exact ih
  · congr 1
    induction events with
    | nil => rfl
    | cons event events ih => exact congrArg (event :: ·) ih

theorem Watching.trans (first : Watching initial middle sights)
    (second : Watching middle watch more) : Watching initial watch (sights ++ more) := by
  induction second with
  | start => rwa [List.append_nil]
  | next deed _ step ih =>
    rw [← List.append_assoc]
    exact ih.next deed step

theorem Watching.single (deed : Deed) (step : initial.perform? deed = some (watch, sights)) :
    Watching initial watch sights :=
  Watching.start.next deed step

theorem Watching.of_follow {deeds : List Deed}
    (followed : initial.follow deeds = some (watch, sights)) : Watching initial watch sights := by
  induction deeds generalizing initial sights with
  | nil =>
    obtain ⟨rfl, rfl⟩ := Prod.mk.inj (Option.some.inj followed)
    exact .start
  | cons deed deeds ih =>
    rw [Watch.follow] at followed
    rcases step : initial.perform? deed with _ | ⟨next, seen⟩
    · rw [step] at followed
      cases followed
    · rw [step] at followed
      obtain ⟨⟨last, more⟩, rest, same⟩ := Option.map_eq_some_iff.mp followed
      obtain ⟨rfl, rfl⟩ := Prod.mk.inj same
      exact (Watching.single deed step).trans (ih rest)

/-- Nothing about what has been printed is different. -/
def PrintsOn (console later : Console) : Prop :=
  later.printed = console.printed ∧ later.decoder = console.decoder

/-- No command has to do with what has been printed of the present run. -/
theorem Means.printsOn {console later : Console} {line text : String}
    (means : Means console line (.go later text)) : console.PrintsOn later := by
  cases means <;> exact ⟨rfl, rfl⟩

/-- A load that fails has not printed anything of a run. -/
theorem refused_printsOn (console : Console) (error : Live.RestartError) :
    console.PrintsOn (if error = .poisoned then console.refused.1 else console) := by
  split <;> exact ⟨rfl, rfl⟩

/-- All that a deed can be. -/
inductive Does (watch : Watch) : Watch → List Sight → Prop
  | live {action : Live.Action} {later : Live.System} {events : List Live.Event} :
      (∀ request, action ≠ .requestRestart request) →
      watch.system.perform? action = some (later, events) →
      Does watch { watch with system := later } (events.map .happened)
  | command {line text : String} {later : Console} : Means watch.console line (.go later text) →
      Does watch { watch with console := later } []
  | poll : watch.loading = none →
      Does watch { watch with console := (watch.console.poll watch.system.look).1 }
        [.polled ⟨watch.system.look, (watch.console.showOutput watch.system.look.output).2⟩]
  | load {load : Load} : watch.loading = none → load.id = watch.system.calls.length →
      load.fallback = watch.console.fallback → Does watch { watch with
        system := watch.system.addCall (.ofRequest load.request), loading := some load } []
  | accept {load : Load} : watch.loading = some load →
      watch.system.calls[load.id]? = some (.restart (.finished (.ok ()))) →
      Does watch ⟨watch.console.loaded load.code, watch.system, none⟩ [.accepted load]
  | refuse {load : Load} {error : Live.RestartError} : watch.loading = some load →
      watch.system.calls[load.id]? = some (.restart (.finished (.error error))) →
      Does watch ⟨if error = .poisoned then watch.console.refused.1 else watch.console,
        watch.system, none⟩ []

theorem Watch.call_of_answer {load : Load} {result : Except Live.RestartError Unit}
    (answered : watch.answer? load = some result) :
    watch.system.calls[load.id]? = some (.restart (.finished result)) := by
  obtain ⟨call, there, finished⟩ := Option.bind_eq_some_iff.mp answered
  rw [there]
  cases call with
  | shutdown => cases finished
  | restart stage =>
    cases stage with
    | finished outcome =>
      obtain rfl := Option.some.inj finished
      rfl
    | _ => cases finished

theorem Watch.answer_of_call {load : Load} {result : Except Live.RestartError Unit}
    (call : watch.system.calls[load.id]? = some (.restart (.finished result))) :
    watch.answer? load = some result := by
  rw [answer?, call]
  rfl

theorem Watch.perform?_live {action : Live.Action}
    (no_restart : ∀ request, action ≠ .requestRestart request) :
    watch.perform? (.live action) = (watch.system.perform? action).map fun step =>
      ({ watch with system := step.1 }, step.2.map .happened) := by
  cases action with
  | requestRestart request => exact absurd rfl (no_restart request)
  | work | proceed | requestShutdown | poisonState | poisonProgram | feed => rfl

theorem Watch.idle_of_poll (step : watch.perform? .poll = some (later, sights)) :
    watch.loading = none := by
  rcases idle : watch.loading with _ | load
  · rfl
  · simp only [perform?, idle] at step
    cases step

theorem Watch.perform?_poll (idle : watch.loading = none) :
    watch.perform? .poll = some ({ watch with console := (watch.console.poll watch.system.look).1 },
      [.polled ⟨watch.system.look, (watch.console.showOutput watch.system.look.output).2⟩]) := by
  simp only [perform?, idle]

/-- What the console of a watch would load. -/
def Watch.loadOf (watch : Watch) (code : List UInt8) : Load :=
  ⟨watch.system.calls.length, code, watch.console.input, watch.console.fallback⟩

theorem Watch.idle_of_load {code : List UInt8}
    (step : watch.perform? (.load code) = some (later, sights)) : watch.loading = none := by
  rcases idle : watch.loading with _ | load
  · rfl
  · simp only [perform?, idle] at step
    cases step

theorem Watch.perform?_load (idle : watch.loading = none) (code : List UInt8) :
    watch.perform? (.load code) = some ({ watch with
      system := watch.system.addCall (.ofRequest (watch.loadOf code).request),
      loading := some (watch.loadOf code) }, []) := by
  simp only [perform?, idle, loadOf]

theorem Watch.does {deed : Deed} (step : watch.perform? deed = some (later, sights)) :
    Does watch later sights := by
  cases deed with
  | live action =>
    have other : ∀ request, action ≠ .requestRestart request := by
      rintro request rfl
      cases step
    rw [Watch.perform?_live other] at step
    obtain ⟨⟨system, events⟩, goes, same⟩ := Option.map_eq_some_iff.mp step
    obtain ⟨rfl, rfl⟩ := Prod.mk.inj same
    exact .live other goes
  | command line =>
    simp only [Watch.perform?] at step
    split at step
    · rename_i goes
      obtain ⟨rfl, rfl⟩ := Prod.mk.inj (Option.some.inj step)
      exact .command (goes ▸ interpret_means watch.console watch.system.look line)
    · cases step
  | poll =>
    have idle := idle_of_poll step
    obtain ⟨rfl, rfl⟩ := Prod.mk.inj (Option.some.inj ((perform?_poll idle).symm.trans step))
    exact .poll idle
  | load code =>
    have idle := idle_of_load step
    obtain ⟨rfl, rfl⟩ := Prod.mk.inj (Option.some.inj ((perform?_load idle code).symm.trans step))
    exact .load idle rfl rfl
  | finish =>
    rcases busy : watch.loading with _ | load <;> simp only [Watch.perform?, busy] at step
    · cases step
    · obtain ⟨result, answered, same⟩ := Option.map_eq_some_iff.mp step
      have call := Watch.call_of_answer answered
      rcases result with error | ⟨⟩
      · obtain ⟨rfl, rfl⟩ := Prod.mk.inj same
        exact .refuse busy call
      · obtain ⟨rfl, rfl⟩ := Prod.mk.inj same
        exact .accept busy call

end TapeMachine.Console
