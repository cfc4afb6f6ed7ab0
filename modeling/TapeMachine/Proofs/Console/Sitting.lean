import TapeMachine.Console.Loop
import TapeMachine.Proofs.Console.Sessions

namespace TapeMachine.Console

/-- What comes back from a prompt. -/
inductive Reply where
  | line (text : String)
  | interrupt
  | endOfInput
  deriving DecidableEq

/-- Where a loop has got to. It leaves with the exit code that it is going to return, or with the reason why
there is none, and returns when it has asked for a shutdown. -/
inductive Place where
  | head
  | prompting
  | loading
  | leaving (result : Except LineError Nat)
  | returned (result : Except LineError Nat)

/-- Where a loop goes when a program has been loaded, or could not be loaded. -/
def Place.afterLoad : Except Live.RestartError Unit → Place
  | .ok () | .error .poisoned => head
  | .error error => leaving (.error (.restart error))

/-- A loop of prompts around a watch. While it waits at a prompt the console may look as often as it
likes, and at any time the execution goes on or a cell is poisoned; everything else is done by the
loop, one thing after the other. -/
structure Sitting where
  watch : Watch
  place : Place

inductive Act where
  | live (action : Live.Action)
  | poll
  | check
  | reply (reply : Reply)
  | finish
  | close

namespace Sitting

/-- What follows from a reply. -/
def take? (sitting : Sitting) : Reply → Option Sitting
  | .endOfInput => some ⟨sitting.watch, .leaving (.ok 0)⟩
  | .interrupt => some ⟨sitting.watch, .head⟩
  | .line text =>
    if text.toList.all isBlank then some ⟨sitting.watch, .head⟩
    else
      match sitting.watch.console.interpret sitting.watch.system.look text with
      | .go console _ => some ⟨{ sitting.watch with console := console }, .head⟩
      | .load code => (sitting.watch.perform? (.load code)).map fun step => ⟨step.1, .loading⟩
      | .leave code => some ⟨sitting.watch, .leaving (.ok code)⟩
      | .unwritable => some ⟨sitting.watch, .leaving (.error .unwritable)⟩

/-- Does something; `none` if it is not possible now. Nobody else restarts the execution or shuts it
down. -/
def perform? (sitting : Sitting) : Act → Option Sitting
  | .live .requestShutdown => none
  | .live action =>
    (sitting.watch.perform? (.live action)).map fun step => ⟨step.1, sitting.place⟩
  | .poll =>
    match sitting.place with
    | .prompting => (sitting.watch.perform? .poll).map fun step => ⟨step.1, .prompting⟩
    | _ => none
  | .check =>
    match sitting.place with
    | .head =>
      let way_out := sitting.watch.console.fatal.isSome
      some ⟨sitting.watch, if way_out then .leaving (.ok 1) else .prompting⟩
    | _ => none
  | .reply reply =>
    match sitting.place with
    | .prompting => sitting.take? reply
    | _ => none
  | .finish =>
    match sitting.place, sitting.watch.loading with
    | .loading, some load => (sitting.watch.answer? load).map fun result =>
      ⟨(sitting.watch.finish load result).1, .afterLoad result⟩
    | _, _ => none
  | .close =>
    match sitting.place with
    | .leaving result => (sitting.watch.perform? (.live .requestShutdown)).map fun step =>
      ⟨step.1, .returned result⟩
    | _ => none

end Sitting

/-- What can become of a loop, with a record of what was done. -/
inductive Sits (initial : Sitting) : List Act → Sitting → Prop
  | start : Sits initial [] initial
  | next {acts : List Act} {current later : Sitting} (act : Act) :
      Sits initial acts current → current.perform? act = some later →
      Sits initial (acts ++ [act]) later

variable {watch : Watch} {place : Place} {initial middle sitting later : Sitting}
  {acts more : List Act} {act : Act}

theorem Sits.trans (first : Sits initial acts middle) (second : Sits middle more sitting) :
    Sits initial (acts ++ more) sitting := by
  induction second with
  | start => rwa [List.append_nil]
  | next act _ step ih =>
    rw [← List.append_assoc]
    exact ih.next act step

theorem Sits.single (act : Act) (step : initial.perform? act = some sitting) :
    Sits initial [act] sitting :=
  Sits.start.next act step

/-- All that an act can be. -/
inductive Acts (watch : Watch) : Place → Act → Sitting → Prop
  | live {place : Place} {action : Live.Action} {system : Live.System} {events : List Live.Event} :
      action.call? = none → watch.system.perform? action = some (system, events) →
      Acts watch place (.live action) ⟨{ watch with system := system }, place⟩
  | poll : watch.loading = none → Acts watch .prompting .poll
      ⟨{ watch with console := (watch.console.poll watch.system.look).1 }, .prompting⟩
  | notice : watch.console.fatal.isSome = true →
      Acts watch .head .check ⟨watch, .leaving (.ok 1)⟩
  | prompt : watch.console.fatal = none → Acts watch .head .check ⟨watch, .prompting⟩
  | ended : Acts watch .prompting (.reply .endOfInput) ⟨watch, .leaving (.ok 0)⟩
  | interrupted : Acts watch .prompting (.reply .interrupt) ⟨watch, .head⟩
  | blank {line : String} : line.toList.all isBlank = true →
      Acts watch .prompting (.reply (.line line)) ⟨watch, .head⟩
  | command {line text : String} {console : Console} :
      watch.console.interpret watch.system.look line = .go console text →
      Acts watch .prompting (.reply (.line line)) ⟨{ watch with console := console }, .head⟩
  | load {line : String} {code : List UInt8} : watch.console.fatal = none → watch.loading = none →
      Acts watch .prompting (.reply (.line line)) ⟨{ watch with
        system := watch.system.addCall (.ofRequest (watch.loadOf code).request),
        loading := some (watch.loadOf code) }, .loading⟩
  | left {line : String} {code : Nat} : Means watch.console line (.leave code) →
      Acts watch .prompting (.reply (.line line)) ⟨watch, .leaving (.ok code)⟩
  | crash {line : String} : Means watch.console line .unwritable →
      Acts watch .prompting (.reply (.line line)) ⟨watch, .leaving (.error .unwritable)⟩
  | finish {load : Load} {result : Except Live.RestartError Unit} : watch.loading = some load →
      watch.system.calls[load.id]? = some (.restart (.finished result)) →
      Acts watch .loading .finish ⟨(watch.finish load result).1, .afterLoad result⟩
  | close {result : Except LineError Nat} : Acts watch (.leaving result) .close
      ⟨{ watch with system := watch.system.addCall (.shutdown .closing) }, .returned result⟩

theorem Sitting.take?_acts {reply : Reply} (place : sitting.place = .prompting)
    (step : sitting.take? reply = some later) :
    Acts sitting.watch sitting.place (.reply reply) later := by
  rw [place]
  cases reply with
  | endOfInput =>
    obtain rfl := Option.some.inj step
    exact .ended
  | interrupt =>
    obtain rfl := Option.some.inj step
    exact .interrupted
  | line text =>
    simp only [take?] at step
    split at step
    · rename_i blank
      obtain rfl := Option.some.inj step
      exact .blank blank
    · have means := interpret_means sitting.watch.console sitting.watch.system.look text
      split at step <;> rename_i meaning <;> rw [meaning] at means
      · obtain rfl := Option.some.inj step
        exact .command meaning
      · obtain ⟨⟨next, sights⟩, begins, rfl⟩ := Option.map_eq_some_iff.mp step
        have idle := Watch.idle_of_load begins
        rw [Watch.perform?_load idle] at begins
        obtain ⟨rfl, -⟩ := Prod.mk.inj (Option.some.inj begins)
        cases means with
        | load going => exact .load going idle
      · obtain rfl := Option.some.inj step
        exact .left means
      · obtain rfl := Option.some.inj step
        exact .crash means

theorem Sitting.acts_of_step (step : sitting.perform? act = some later) :
    Acts sitting.watch sitting.place act later := by
  cases act with
  | live action =>
    have no_call : action.call? = none := by
      cases action with
      | requestRestart request => cases step
      | requestShutdown => cases step
      | _ => rfl
    have performed : (sitting.watch.perform? (.live action)).map (fun step =>
        (⟨step.1, sitting.place⟩ : Sitting)) = some later := by
      cases action with
      | requestShutdown => cases no_call
      | _ => exact step
    obtain ⟨⟨next, sights⟩, goes, rfl⟩ := Option.map_eq_some_iff.mp performed
    rw [Watch.perform?_live (by rintro request rfl; cases no_call)] at goes
    obtain ⟨⟨system, events⟩, moves, same⟩ := Option.map_eq_some_iff.mp goes
    obtain ⟨rfl, rfl⟩ := Prod.mk.inj same
    exact .live no_call moves
  | poll =>
    simp only [perform?] at step
    split at step
    · rename_i place
      obtain ⟨⟨next, sights⟩, looks, rfl⟩ := Option.map_eq_some_iff.mp step
      rw [place]
      have idle := Watch.idle_of_poll looks
      rw [Watch.perform?_poll idle] at looks
      obtain ⟨rfl, -⟩ := Prod.mk.inj (Option.some.inj looks)
      exact .poll idle
    · cases step
  | check =>
    simp only [perform?] at step
    split at step
    · rename_i place
      obtain rfl := Option.some.inj step
      rw [place]
      split
      · rename_i fatal
        exact .notice fatal
      · rename_i going
        exact .prompt (Option.not_isSome_iff_eq_none.mp going)
    · cases step
  | reply reply =>
    simp only [perform?] at step
    split at step
    · rename_i place
      exact take?_acts place step
    · cases step
  | finish =>
    simp only [perform?] at step
    split at step
    · rename_i load place busy
      obtain ⟨result, answered, rfl⟩ := Option.map_eq_some_iff.mp step
      rw [place]
      exact .finish busy (Watch.call_of_answer answered)
    · cases step
  | close =>
    simp only [perform?] at step
    split at step
    · rename_i result place
      obtain ⟨⟨next, sights⟩, asked, rfl⟩ := Option.map_eq_some_iff.mp step
      obtain ⟨rfl, -⟩ := Prod.mk.inj (Option.some.inj asked)
      rw [place]
      exact .close
    · cases step

/-- Whatever is done in a loop is done to its watch. -/
theorem Acts.reaches (does : Acts watch place act later) :
    Reaches watch later.watch := by
  cases does with
  | live no_call step =>
    refine (Sees.step _ ?_ step).reaches
    rintro request rfl
    cases no_call
  | poll idle => exact ⟨_, .single .poll (Watch.perform?_poll idle)⟩
  | notice | prompt | ended | interrupted | blank | left | crash => exact .same
  | @command line _ _ meaning =>
    refine ⟨[], .single (.command line) ?_⟩
    simp only [Watch.perform?, meaning]
  | load going idle => exact ⟨_, .single (.load _) (Watch.perform?_load idle _)⟩
  | @finish load result busy call =>
    refine ⟨(watch.finish load result).2, .single .finish ?_⟩
    simp only [Watch.perform?, busy, Watch.answer_of_call call]
    rfl
  | close => exact ⟨[], .single (.live .requestShutdown) rfl⟩

theorem Sits.reaches (sits : Sits initial acts sitting) : Reaches initial.watch sitting.watch := by
  induction sits with
  | start => exact .same
  | next act _ step ih => exact ih.trans (Sitting.acts_of_step step).reaches

end TapeMachine.Console
