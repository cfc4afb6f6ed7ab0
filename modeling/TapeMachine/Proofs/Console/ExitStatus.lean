import TapeMachine.Proofs.Console.LoopSessions

namespace TapeMachine.Console

open Live

variable {name : String} {input : List UInt8} {fallback : Option Int} {stream : ByteStream}
  {first watch : Watch} {initial sitting later : Sitting} {place : Place} {sights : List Sight}
  {acts more : List Act} {act : Act}

theorem poll_fatal {console : Console} {snapshot : Snapshot} (fatal : console.fatal.isSome = true) :
    (console.poll snapshot).1.fatal.isSome = true := by
  have kept : (console.showOutput snapshot.output).1.fatal = console.fatal := by
    unfold showOutput
    split <;> rfl
  unfold poll showStatus
  simp only
  split
  · rwa [kept]
  · simp only
    split
    · rfl
    · rwa [kept]

/-- How a loop is left with a result. -/
inductive Exits (console : Console) (acts : List Act) : Except LineError Nat → Prop
  | ended : .reply .endOfInput ∈ acts → Exits console acts (.ok 0)
  | going : .reply .endOfInput ∉ acts → console.fatal = none → Exits console acts (.ok 0)
  | fatal : .reply .endOfInput ∉ acts → console.fatal.isSome = true → Exits console acts (.ok 1)
  | crash {line : String} : .reply .endOfInput ∉ acts → console.fatal = none →
      .reply (.line line) ∈ acts → Oversized line → Exits console acts (.error .unwritable)

theorem out_next (out : .reply .endOfInput ∉ acts) (further : act ≠ .reply .endOfInput) :
    .reply .endOfInput ∉ acts ++ [act] := by
  simpa [out] using further.symm

theorem Exits.next {console : Console} {result : Except LineError Nat}
    (exits : Exits console acts result) (further : act ≠ .reply .endOfInput) :
    Exits console (acts ++ [act]) result := by
  cases exits with
  | ended there => exact .ended (List.mem_append_left _ there)
  | going out calm => exact .going (out_next out further) calm
  | fatal out fatal => exact .fatal (out_next out further) fatal
  | crash out calm there oversized =>
    exact .crash (out_next out further) calm (List.mem_append_left _ there) oversized

/-- What is the case at a place of a loop. -/
def Place.Holds (watch : Watch) (acts : List Act) : Place → Prop
  | head | prompting => watch.loading = none ∧ watch.system.Unshut ∧ .reply .endOfInput ∉ acts
  | loading => watch.console.fatal = none ∧ watch.system.Unshut ∧ .reply .endOfInput ∉ acts
  | leaving result => watch.loading = none ∧ watch.system.Unshut ∧ Exits watch.console acts result
  | returned result => watch.loading = none ∧ Exits watch.console acts result ∧
    ∃ (id : Nat) (stage : ShutdownStage), watch.system.calls[id]? = some (.shutdown stage)

theorem Place.Holds.live {action : Action} {system : System} {events : List Event}
    (holds : place.Holds watch acts) (moves : Moves watch.system action system events)
    (no_call : action.call? = none) :
    place.Holds { watch with system := system } (acts ++ [.live action]) := by
  have further : Act.live action ≠ .reply .endOfInput := by simp
  cases place with
  | head | prompting | loading =>
    obtain ⟨idle, unshut, out⟩ := holds
    exact ⟨idle, unshut.step moves no_call, out_next out further⟩
  | leaving result =>
    obtain ⟨idle, unshut, exits⟩ := holds
    exact ⟨idle, unshut.step moves no_call, exits.next further⟩
  | returned result =>
    obtain ⟨idle, exits, id, stage, call⟩ := holds
    exact ⟨idle, exits.next further, id, System.shutdown_next call moves⟩

/-- One act more. -/
theorem Place.Holds.step (reached : Reaches (.start name input fallback stream) watch)
    (given : FitsByte fallback) (holds : place.Holds watch acts) (does : Acts watch place act later) :
    later.place.Holds later.watch (acts ++ [act]) := by
  obtain ⟨sights, watching⟩ := reached
  cases does with
  | live no_call step => exact holds.live (watching.orderly.moves step) no_call
  | poll | prompt | interrupted | blank | command =>
    obtain ⟨idle, unshut, out⟩ := holds
    exact ⟨idle, unshut, out_next out (by simp)⟩
  | notice fatal =>
    obtain ⟨idle, unshut, out⟩ := holds
    exact ⟨idle, unshut, .fatal (out_next out (by simp)) fatal⟩
  | ended =>
    obtain ⟨idle, unshut, -⟩ := holds
    exact ⟨idle, unshut, .ended (List.mem_append_right _ (List.mem_singleton_self _))⟩
  | load going =>
    obtain ⟨-, unshut, out⟩ := holds
    exact ⟨going, System.Unshut.add_restart unshut _, out_next out (by simp)⟩
  | @left line code means =>
    obtain ⟨idle, unshut, out⟩ := holds
    have still : .reply .endOfInput ∉ acts ++ [.reply (.line line)] := out_next out (by simp)
    cases means with
    | leave going => exact ⟨idle, unshut, .going still going⟩
    | leave_fatal fatal => exact ⟨idle, unshut, .fatal still (by simp [fatal])⟩
  | crash means =>
    obtain ⟨idle, unshut, out⟩ := holds
    cases means with
    | unwritable going oversized =>
      exact ⟨idle, unshut, .crash (out_next out (by simp)) going
        (List.mem_append_right _ (List.mem_singleton_self _)) oversized⟩
  | finish busy call =>
    obtain ⟨-, unshut, out⟩ := holds
    have still : .reply .endOfInput ∉ acts ++ [.finish] := out_next out (by simp)
    rcases watching.result_of_load given unshut busy call with rfl | rfl
    · exact ⟨rfl, unshut, still⟩
    · exact ⟨rfl, unshut, still⟩
  | close =>
    obtain ⟨idle, unshut, exits⟩ := holds
    exact ⟨idle, exits.next (by simp), _, _, List.getElem?_concat_length⟩

theorem Sits.holds (reached : Reaches (.start name input fallback stream) first)
    (given : FitsByte fallback) (idle : first.loading = none) (unshut : first.system.Unshut)
    (sits : Sits ⟨first, .head⟩ acts sitting) :
    Reaches (.start name input fallback stream) sitting.watch ∧
      sitting.place.Holds sitting.watch acts := by
  induction sits with
  | start => exact ⟨reached, idle, unshut, by simp⟩
  | next act _ step ih =>
    have does := Sitting.acts_of_step step
    exact ⟨ih.1.trans does.reaches, ih.2.step ih.1 given does⟩

/-- What a console without a way on keeps: it stays without one, nothing is set, nothing is being loaded,
and no restart is made. -/
structure Sitting.Keeps (sitting later : Sitting) : Prop where
  fatal : later.watch.console.fatal.isSome = true
  settings : sitting.watch.console.SameSettings later.watch.console
  idle : later.place ≠ .loading
  restarts : ∀ (id : Nat) (stage : RestartStage),
    later.watch.system.calls[id]? = some (.restart stage) →
      ∃ before : RestartStage, sitting.watch.system.calls[id]? = some (.restart before)

theorem Means.fatal_kept {console after : Console} {line text : String}
    (fatal : console.fatal.isSome = true) (means : Means console line (.go after text)) :
    after = console := by
  cases means with
  | say => rfl
  | input going | unset going | set going =>
    rw [going] at fatal
    cases fatal

theorem Sitting.Keeps.step (keeps : initial.Keeps sitting) (orderly : sitting.watch.system.Orderly)
    (does : Acts sitting.watch sitting.place act later) : initial.Keeps later := by
  obtain ⟨watch, place⟩ := sitting
  obtain ⟨fatal, settings, idle, restarts⟩ := keeps
  cases does with
  | @live _ action system events no_call step =>
    refine ⟨fatal, settings, idle, ?_⟩
    intro id stage there
    rcases System.restart_before (orderly.moves step) there with ⟨before, call, -⟩ | made
    · exact restarts id before call
    · cases no_call.symm.trans made
  | poll =>
    exact ⟨poll_fatal fatal, settings.trans (poll_sameSettings _ _), by simp, restarts⟩
  | notice | prompt | ended | interrupted | blank | left | crash =>
    exact ⟨fatal, settings, by simp, restarts⟩
  | @command line text console meaning =>
    have means := interpret_means watch.console watch.system.look line
    rw [meaning] at means
    obtain rfl := means.fatal_kept fatal
    exact ⟨fatal, settings, by simp, restarts⟩
  | load going =>
    rw [going] at fatal
    cases fatal
  | finish => exact absurd rfl idle
  | close =>
    refine ⟨fatal, settings, by simp, ?_⟩
    intro id stage there
    rcases System.addCall_cases there with old | ⟨-, new⟩
    · exact restarts id stage old
    · cases new

theorem Sits.keeps (reached : Reaches (.start name input fallback stream) sitting.watch)
    (fatal : sitting.watch.console.fatal.isSome = true) (idle : sitting.place ≠ .loading)
    (sits : Sits sitting acts later) :
    Reaches (.start name input fallback stream) later.watch ∧ sitting.Keeps later := by
  induction sits with
  | start => exact ⟨reached, fatal, ⟨rfl, rfl, rfl⟩, idle, fun id stage there => ⟨stage, there⟩⟩
  | next act _ step ih =>
    obtain ⟨⟨sights, watching⟩, keeps⟩ := ih
    have does := Sitting.acts_of_step step
    exact ⟨Reaches.trans ⟨sights, watching⟩ does.reaches, keeps.step watching.orderly does⟩

/-- A loop begins at a console that is not loading anything, in any order with what the execution does and
with looks while it waits at the prompt.
When it has returned, a shutdown has been asked for, and the exit code is 1 if there is no way on and 0 if
there is, except at the end of the input, where it is 0 in any case. Without an exit code it is left by a
line only that is about a number that cannot be named.
From the moment at which there is no way on, there is never one again, and no line loads a program or sets
anything.
The loop that runs is such a loop, as long as its restarts end before the next prompt. -/
theorem exit_status (before : Watching (.start name input fallback stream) watch sights)
    (given : FitsByte fallback) (idle : watch.loading = none) (unshut : watch.system.Unshut) :
    (∀ acts sitting, Sits ⟨watch, .head⟩ acts sitting →
      (∀ result, sitting.place = .returned result → Exits sitting.watch.console acts result ∧
        ∃ (id : Nat) (stage : ShutdownStage),
          sitting.watch.system.calls[id]? = some (.shutdown stage)) ∧
      (sitting.watch.console.fatal.isSome = true →
        ∀ more later, Sits sitting more later → sitting.Keeps later)) ∧
    ∀ budget session entries, session.watch = watch →
      Loop.unhurried budget session entries = true →
      ∃ acts, Sits ⟨watch, .head⟩ acts ⟨(Loop.run budget session entries).session.watch,
          .returned (Loop.run budget session entries).result⟩ ∧
        repliesIn acts <+: entries.map Entry.reply ++ [.endOfInput] := by
  have reached : Reaches (.start name input fallback stream) watch := ⟨sights, before⟩
  refine ⟨?_, ?_⟩
  · intro acts sitting sits
    obtain ⟨still_reached, holds⟩ := sits.holds reached given idle unshut
    refine ⟨?_, ?_⟩
    · intro result place
      rw [place] at holds
      exact holds.2
    · intro fatal more later onward
      have elsewhere : sitting.place ≠ .loading := by
        intro place
        rw [place] at holds
        rw [holds.1] at fatal
        cases fatal
      exact (onward.keeps still_reached fatal elsewhere).2
  · rintro budget session entries rfl calm
    obtain ⟨replies, told, acts, sits, rfl⟩ := Loop.run_proceeds budget entries session reached calm
    exact ⟨acts, sits, told⟩

theorem ok_of_toOption {result : Except LineError Nat} {code : Nat}
    (returned : result.toOption = some code) : result = .ok code := by
  cases result with
  | error => cases returned
  | ok other => exact congrArg _ (Option.some.inj returned)

/-- A console whose execution has not taken a step. -/
def Session.fresh : Session :=
  ⟨.start [] (some 0), ⟨.start "worker" none .empty, .start none, [], none⟩, []⟩

/-- The state cell is poisoned before a line without content, so that the look before the next prompt finds
out that there is no way on. -/
def entriesToQuit : List Entry := [.line "+" [] none, .line "" [.state] none, .line ":quit" [] none]

/-- Asked to quit, a console without a way on is left with 1. -/
theorem exit_status_of_quit :
    ∃ acts, Sits ⟨Session.fresh.watch, .head⟩ acts
        ⟨(Loop.run 100 Session.fresh entriesToQuit).session.watch, .returned (.ok 1)⟩ ∧
      (Loop.run 100 Session.fresh entriesToQuit).session.console.fatal.isSome = true ∧
      Exits (Loop.run 100 Session.fresh entriesToQuit).session.console acts (.ok 1) := by
  have run : ((Loop.run 100 Session.fresh entriesToQuit).result.toOption,
      (Loop.run 100 Session.fresh entriesToQuit).session.console.fatal.isSome,
      Loop.unhurried 100 Session.fresh entriesToQuit) = (some 1, true, true) := by decide +kernel
  simp only [Prod.mk.injEq] at run
  obtain ⟨code, fatal, calm⟩ := run
  have result := ok_of_toOption code
  have before : Watching (.start "worker" [] (some 0) .empty) Session.fresh.watch [] := .start
  have given : FitsByte (some 0) := by
    intro value there
    obtain rfl := Option.some.inj there
    decide
  have unshut : Session.fresh.watch.system.Unshut := by
    intro call member
    cases member
  obtain ⟨sittings, runs⟩ := exit_status before given rfl unshut
  obtain ⟨acts, sits, -⟩ := runs 100 Session.fresh entriesToQuit rfl calm
  rw [result] at sits
  exact ⟨acts, sits, fatal, ((sittings _ _ sits).1 _ rfl).1⟩

/-- The input ends at the prompt before which the console has found out that there is no way on. -/
def entriesToEnd : List Entry := [.line "" [.state] none, .endOfInput]

/-- At the end of the input, a console without a way on is left with 0. -/
theorem left_with_zero_without_way_on :
    (Loop.run 100 (.start 100 [] (some 0) .empty) entriesToEnd).result = .ok 0 ∧
      (Loop.run 100 (.start 100 [] (some 0) .empty) entriesToEnd).session.console.fatal =
        some poisonedMessage := by
  have run : (Loop.run 100 (.start 100 [] (some 0) .empty) entriesToEnd).result.toOption = some 0 ∧
      (Loop.run 100 (.start 100 [] (some 0) .empty) entriesToEnd).session.console.fatal =
        some poisonedMessage := by decide +kernel
  exact ⟨ok_of_toOption run.1, run.2⟩

end TapeMachine.Console
