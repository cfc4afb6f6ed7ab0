import TapeMachine.Proofs.Console.ExitStatus
import TapeMachine.Proofs.Console.Settings

namespace TapeMachine.Console

/-- What the latest line that gives something gives, and the initial value as long as there is none. -/
def latest {α : Type} (given? : String → Option α) (initial : α) (lines : List String) : α :=
  (lines.reverse.findSome? given?).getD initial

/-- What a line that is a program asks for, behind the lines that were handled before it. -/
def requestOf (initial : Console) (earlier : List String) (line : String) : Request :=
  ⟨.bytes (Utf8.encode line), .bytes (latest inputGiven? initial.input earlier),
    latest fallbackGiven? initial.fallback earlier⟩

/-- The restarts that some lines are to lead to: one for each program. -/
def requestsOf (initial : Console) (lines : List String) : List Request :=
  (lines.zipIdx.filter fun (line, _) => isProgram line).map fun (line, place) =>
    requestOf initial (lines.take place) line

/-- The restarts among some actions. -/
def restartsIn (actions : List Live.Action) : List Request :=
  actions.filterMap fun
    | .requestRestart request => some request
    | _ => none

/-- Handles a line, with what that does to the execution; `none` as long as the line before is being
handled, and when the console is left. -/
def Watch.handle? (watch : Watch) (line : String) : Option (Watch × List Live.Action) :=
  match watch.loading with
  | some _ => none
  | none =>
    match watch.console.interpret watch.system.look line with
    | .go console _ => some ({ watch with console := console }, [])
    | .load code => (watch.perform? (.load code)).map fun step =>
      (step.1, [.requestRestart (watch.loadOf code).request])
    | .unwritable => some (watch, [])
    | .leave _ => none

/-- What happens at a console to which lines are entered. -/
inductive Incident where
  | live (action : Live.Action)
  | poll
  | finish
  | line (text : String)

def Incident.line? : Incident → Option String
  | line text => some text
  | _ => none

def linesIn (incidents : List Incident) : List String := incidents.filterMap Incident.line?

/-- The watch after an incident, with what that does to the execution; `none` if it is not possible now. -/
def Watch.meet? (watch : Watch) : Incident → Option (Watch × List Live.Action)
  | .live action => (watch.perform? (.live action)).map fun step => (step.1, [action])
  | .poll => (watch.perform? .poll).map fun step => (step.1, [])
  | .finish => (watch.perform? .finish).map fun step => (step.1, [])
  | .line text => watch.handle? text

/-- What can become of a watch at which lines are handled, with what has happened and with the actions of
which the execution consists. -/
inductive Attending (initial : Watch) : Watch → List Incident → List Live.Action → Prop
  | start : Attending initial initial [] []
  | next {watch later : Watch} {incidents : List Incident} {actions made : List Live.Action}
      (incident : Incident) : Attending initial watch incidents actions →
      watch.meet? incident = some (later, made) →
      Attending initial later (incidents ++ [incident]) (actions ++ made)

/-- Goes through some incidents, one after the other; `none` if one of them is not possible. -/
def Watch.attend (watch : Watch) : List Incident → Option (Watch × List Live.Action)
  | [] => some (watch, [])
  | incident :: incidents =>
    match watch.meet? incident with
    | none => none
    | some (next, made) => (next.attend incidents).map fun result => (result.1, made ++ result.2)

section

variable {α : Type} (given? : String → Option α) (initial : α)

theorem latest_concat (lines : List String) (line : String) :
    latest given? initial (lines ++ [line]) = (given? line).getD (latest given? initial lines) := by
  rw [latest, List.reverse_append, List.reverse_singleton, List.singleton_append, List.findSome?_cons]
  cases given? line <;> rfl

end

theorem requestsOf_concat (initial : Console) (lines : List String) (line : String) :
    requestsOf initial (lines ++ [line]) = requestsOf initial lines ++
      if isProgram line then [requestOf initial lines line] else [] := by
  have before : ((lines.zipIdx.filter fun entry => isProgram entry.1).map fun entry =>
      requestOf initial ((lines ++ [line]).take entry.2) entry.1) = requestsOf initial lines := by
    refine List.map_congr_left ?_
    rintro ⟨text, place⟩ member
    have inside := List.mem_zipIdx (List.mem_filter.mp member).1
    rw [List.take_append_of_le_length (by omega)]
  rw [requestsOf, List.zipIdx_append, List.filter_append, List.map_append, before]
  cases program : isProgram line <;> simp [program]

theorem restartsIn_append (actions more : List Live.Action) :
    restartsIn (actions ++ more) = restartsIn actions ++ restartsIn more :=
  List.filterMap_append

theorem linesIn_append (incidents more : List Incident) :
    linesIn (incidents ++ more) = linesIn incidents ++ linesIn more :=
  List.filterMap_append

variable {initial watch middle later : Watch} {line : String} {incidents more : List Incident}
  {actions made : List Live.Action} {sights : List Sight}

theorem Attending.trans (first : Attending initial middle incidents actions)
    (second : Attending middle watch more made) :
    Attending initial watch (incidents ++ more) (actions ++ made) := by
  induction second with
  | start => simpa using first
  | next incident _ step ih =>
    rw [← List.append_assoc, ← List.append_assoc]
    exact ih.next incident step

theorem Attending.single (incident : Incident) (step : initial.meet? incident = some (watch, made)) :
    Attending initial watch [incident] made :=
  Attending.start.next incident step

theorem Attending.of_attend (attended : initial.attend incidents = some (watch, actions)) :
    Attending initial watch incidents actions := by
  induction incidents generalizing initial actions with
  | nil =>
    obtain ⟨rfl, rfl⟩ := Prod.mk.inj (Option.some.inj attended)
    exact .start
  | cons incident incidents ih =>
    rw [Watch.attend] at attended
    rcases step : initial.meet? incident with _ | ⟨next, made⟩
    · rw [step] at attended
      cases attended
    · rw [step] at attended
      obtain ⟨⟨last, more⟩, rest, same⟩ := Option.map_eq_some_iff.mp attended
      obtain ⟨rfl, rfl⟩ := Prod.mk.inj same
      exact (Attending.single incident step).trans (ih rest)

/-- What the handling of one line does. -/
structure Watch.Handles (watch : Watch) (line : String) (later : Watch) (made : List Live.Action) : Prop where
  restarts : restartsIn made = if isProgram line then
    [⟨.bytes (Utf8.encode line), .bytes watch.console.input, watch.console.fallback⟩] else []
  code : later.console.code = watch.console.code
  input : later.console.input = (inputGiven? line).getD watch.console.input
  fallback : later.console.fallback = (fallbackGiven? line).getD watch.console.fallback

theorem Watch.handles (going : watch.console.fatal = none)
    (handled : watch.handle? line = some (later, made)) : watch.Handles line later made := by
  have sets := interpret_sets going watch.system.look line
  rcases busy : watch.loading with _ | load
  · simp only [handle?, busy] at handled
    generalize watch.console.interpret watch.system.look line = directive at sets handled
    cases sets with
    | go command code input fallback =>
      obtain ⟨rfl, rfl⟩ := Prod.mk.inj (Option.some.inj handled)
      exact ⟨by simp [command, restartsIn], code, input, fallback⟩
    | load program =>
      obtain ⟨input, fallback⟩ := given_of_program program
      simp only [Watch.perform?_load busy, Option.map_some] at handled
      obtain ⟨rfl, rfl⟩ := Prod.mk.inj (Option.some.inj handled)
      exact ⟨by simp [program, restartsIn, Watch.loadOf, Load.request], rfl, by rw [input]; rfl,
        by rw [fallback]; rfl⟩
    | leave => cases handled
    | unwritable command input fallback =>
      obtain ⟨rfl, rfl⟩ := Prod.mk.inj (Option.some.inj handled)
      exact ⟨by simp [command, restartsIn], rfl, by rw [input]; rfl, by rw [fallback]; rfl⟩
  · simp only [handle?, busy] at handled
    cases handled

/-- What happens beside the lines gives nothing, and what has no way on does not get one again. -/
structure Watch.Aside (watch later : Watch) : Prop where
  input : later.console.input = watch.console.input
  fallback : later.console.fallback = watch.console.fallback
  going : later.console.fatal = none → watch.console.fatal = none

theorem Watch.aside_of_live {action : Live.Action}
    (step : watch.perform? (.live action) = some (later, sights)) : watch.Aside later ∧
      restartsIn [action] = [] ∧ ∃ events, watch.system.perform? action = some (later.system, events) := by
  have other : ∀ request, action ≠ .requestRestart request := by
    rintro request rfl
    cases step
  rw [perform?_live other] at step
  obtain ⟨⟨system, events⟩, goes, same⟩ := Option.map_eq_some_iff.mp step
  obtain ⟨rfl, -⟩ := Prod.mk.inj same
  refine ⟨⟨rfl, rfl, id⟩, ?_, events, goes⟩
  cases action with
  | requestRestart request => exact absurd rfl (other request)
  | _ => rfl

theorem Watch.aside_of_poll (step : watch.perform? .poll = some (later, sights)) :
    watch.Aside later ∧ later.system = watch.system := by
  rw [perform?_poll (idle_of_poll step)] at step
  obtain ⟨rfl, -⟩ := Prod.mk.inj (Option.some.inj step)
  obtain ⟨-, input, fallback⟩ := poll_sameSettings watch.console watch.system.look
  refine ⟨⟨input, fallback, ?_⟩, rfl⟩
  intro going
  by_contra stuck
  have fatal := @poll_fatal watch.console watch.system.look (Option.isSome_iff_ne_none.mpr stuck)
  rw [going] at fatal
  cases fatal

theorem Watch.aside_of_finish (step : watch.perform? .finish = some (later, sights)) :
    watch.Aside later ∧ later.system = watch.system := by
  rcases busy : watch.loading with _ | load <;> simp only [perform?, busy] at step
  · cases step
  · obtain ⟨result, -, same⟩ := Option.map_eq_some_iff.mp step
    rcases result with error | ⟨⟩ <;> obtain ⟨rfl, -⟩ := Prod.mk.inj same <;> refine ⟨?_, rfl⟩
    · by_cases poisoned : error = .poisoned
      · simp only [poisoned, if_true]
        refine ⟨rfl, rfl, ?_⟩
        intro going
        cases going
      · simp only [poisoned, if_false]
        exact ⟨rfl, rfl, id⟩
    · exact ⟨rfl, rfl, id⟩

theorem Watch.going_of_handle (handled : watch.handle? line = some (later, made))
    (going : later.console.fatal = none) : watch.console.fatal = none := by
  by_contra stuck
  have means := interpret_means watch.console watch.system.look line
  rcases busy : watch.loading with _ | load <;> simp only [handle?, busy] at handled
  · generalize watch.console.interpret watch.system.look line = directive at means handled
    cases directive with
    | go console text =>
      obtain ⟨rfl, -⟩ := Prod.mk.inj (Option.some.inj handled)
      obtain rfl := means.fatal_kept (Option.isSome_iff_ne_none.mpr stuck)
      exact stuck going
    | load =>
      cases means with
      | load going => exact stuck going
    | leave => cases handled
    | unwritable =>
      cases means with
      | unwritable going => exact stuck going
  · cases handled

theorem Watch.schedule_of_handle (handled : watch.handle? line = some (later, made)) :
    ∃ events, Live.Schedule watch.system made later.system events := by
  rcases busy : watch.loading with _ | load <;> simp only [handle?, busy] at handled
  · split at handled
    · obtain ⟨rfl, rfl⟩ := Prod.mk.inj (Option.some.inj handled)
      exact ⟨[], .start⟩
    · simp only [perform?_load busy, Option.map_some] at handled
      obtain ⟨rfl, rfl⟩ := Prod.mk.inj (Option.some.inj handled)
      exact ⟨[], .single rfl⟩
    · obtain ⟨rfl, rfl⟩ := Prod.mk.inj (Option.some.inj handled)
      exact ⟨[], .start⟩
    · cases handled
  · cases handled

/-- What an incident does. A line does what is said of it, and everything else gives nothing and restarts
nothing. -/
inductive Watch.Meets (watch : Watch) : Watch → Incident → List Live.Action → Prop
  | line {later : Watch} {line : String} {made : List Live.Action} :
      watch.handle? line = some (later, made) → Watch.Meets watch later (.line line) made
  | aside {later : Watch} {incident : Incident} {made : List Live.Action} : incident.line? = none →
      watch.Aside later → restartsIn made = [] →
      (∃ events, Live.Schedule watch.system made later.system events) →
      Watch.Meets watch later incident made

theorem Watch.meets {incident : Incident} (step : watch.meet? incident = some (later, made)) :
    watch.Meets later incident made := by
  cases incident with
  | line text => exact .line step
  | live action =>
    obtain ⟨⟨next, sights⟩, goes, same⟩ := Option.map_eq_some_iff.mp step
    obtain ⟨rfl, rfl⟩ := Prod.mk.inj same
    obtain ⟨aside, no_restart, events, moves⟩ := aside_of_live goes
    exact .aside rfl aside no_restart ⟨events, .single moves⟩
  | poll =>
    obtain ⟨⟨next, sights⟩, looks, same⟩ := Option.map_eq_some_iff.mp step
    obtain ⟨rfl, rfl⟩ := Prod.mk.inj same
    obtain ⟨aside, system⟩ := aside_of_poll looks
    exact .aside rfl aside rfl ⟨[], system ▸ .start⟩
  | finish =>
    obtain ⟨⟨next, sights⟩, ends, same⟩ := Option.map_eq_some_iff.mp step
    obtain ⟨rfl, rfl⟩ := Prod.mk.inj same
    obtain ⟨aside, system⟩ := aside_of_finish ends
    exact .aside rfl aside rfl ⟨[], system ▸ .start⟩

/-- The actions are those of the execution. -/
theorem Attending.schedule (attending : Attending initial watch incidents actions) :
    ∃ events, Live.Schedule initial.system actions watch.system events := by
  induction attending with
  | start => exact ⟨[], .start⟩
  | next incident _ step ih =>
    obtain ⟨events, schedule⟩ := ih
    obtain ⟨more, goes⟩ : ∃ more, Live.Schedule _ _ _ more := by
      cases Watch.meets step with
      | line handled => exact Watch.schedule_of_handle handled
      | aside _ _ _ goes => exact goes
    exact ⟨events ++ more, schedule.trans goes⟩

/-- As long as there is a way on, the restarts are those of the lines, and the console has what they
gave. Nobody gets a way on back, so that there was one at every line. -/
theorem Attending.settings (attending : Attending initial watch incidents actions)
    (going : watch.console.fatal = none) :
    restartsIn actions = requestsOf initial.console (linesIn incidents) ∧
      watch.console.input = latest inputGiven? initial.console.input (linesIn incidents) ∧
      watch.console.fallback = latest fallbackGiven? initial.console.fallback (linesIn incidents) := by
  induction attending with
  | start => exact ⟨rfl, rfl, rfl⟩
  | next incident _ step ih =>
    rw [linesIn_append, restartsIn_append]
    cases Watch.meets step with
    | line handled =>
      have before := Watch.going_of_handle handled going
      have handles := Watch.handles before handled
      obtain ⟨restarts, input, fallback⟩ := ih before
      refine ⟨?_, ?_, ?_⟩
      · rw [restarts, handles.restarts, input, fallback]
        exact (requestsOf_concat _ _ _).symm
      · rw [handles.input, input]
        exact (latest_concat _ _ _ _).symm
      · rw [handles.fallback, fallback]
        exact (latest_concat _ _ _ _).symm
    | aside no_line aside no_restart =>
      obtain ⟨restarts, input, fallback⟩ := ih (aside.going going)
      have same : linesIn [incident] = [] := by simp [linesIn, no_line]
      rw [same, no_restart, List.append_nil, List.append_nil]
      exact ⟨restarts, aside.input.trans input, aside.fallback.trans fallback⟩

/-- On its way to rest, the execution takes steps beside the lines. -/
theorem attending_kept (initial : Watch) (lines : List String) (console : Console)
    (loading : Option Load) : Kept fun system => ∃ incidents actions,
      Attending initial ⟨console, system, loading⟩ incidents actions ∧ linesIn incidents = lines := by
  rintro action system later events no_call step ⟨incidents, actions, attending, rfl⟩
  have other : ∀ request, action ≠ .requestRestart request := by
    rintro request rfl
    cases no_call
  have met : Watch.meet? ⟨console, system, loading⟩ (.live action) =
      some (⟨console, later, loading⟩, [action]) := by
    simp only [Watch.meet?, Watch.perform?_live other, step, Option.map_some]
  refine ⟨_, _, attending.next (.live action) met, ?_⟩
  rw [linesIn_append]
  exact List.append_nil _

theorem attending_line {made : List Live.Action} (handled : initial.handle? line = some (watch, made)) :
    ∃ incidents actions, Attending initial watch incidents actions ∧ linesIn incidents = [line] :=
  ⟨_, _, .single (.line line) handled, rfl⟩

/-- A session loads a program as a watch does, when the load comes to its end. Between the call and the
end of the load, the execution only takes steps of its own. -/
theorem Session.load_attending (budget : Nat) (session : Session) (line : String)
    (meaning : session.console.interpret session.live.system.look line = .load (Utf8.encode line))
    (ended : (session.nextAnswer? (session.load budget (Utf8.encode line)).2.1).isSome) :
    ∃ incidents actions, Attending session.watch (session.load budget (Utf8.encode line)).2.1.watch
      incidents actions ∧ linesIn incidents = [line] := by
  have handled : session.watch.handle? line = some ({ session.watch with
      system := session.watch.system.addCall (.ofRequest (session.watch.loadOf (Utf8.encode line)).request),
      loading := some (session.watch.loadOf (Utf8.encode line)) },
      [.requestRestart (session.watch.loadOf (Utf8.encode line)).request]) := by
    simp only [Watch.handle?, watch, meaning]
    rfl
  obtain ⟨incidents, actions, attending, lines⟩ :=
    settle_kept (attending_kept session.watch [line] _ _) budget { session.live with
      system := session.live.system.addCall (.ofRequest (session.watch.loadOf (Utf8.encode line)).request) }
      (attending_line handled)
  obtain ⟨result, answered⟩ := Option.isSome_iff_exists.mp ended
  have finishes := load_answered budget session (Utf8.encode line) answered
  refine ⟨_, _, attending.next .finish (congrArg (Option.map _) finishes), ?_⟩
  rw [linesIn_append, lines]
  rfl

/-- A session handles a line as a watch does, when every load comes to its end. -/
theorem Session.enter_attending (budget : Nat) (session : Session) (line : String) (hold : Option Nat)
    (stays : ∀ code, session.console.interpret session.live.system.look line ≠ .leave code)
    (ended : ∀ code, session.console.interpret session.live.system.look line = .load code →
      (session.nextAnswer? (session.enter budget line hold).2.1).isSome) :
    ∃ incidents actions, Attending session.watch (session.enter budget line hold).2.1.watch incidents
      actions ∧ linesIn incidents = [line] := by
  have means := interpret_means session.console session.live.system.look line
  rcases meaning : session.console.interpret session.live.system.look line with
    ⟨console, text⟩ | code | code | _
  all_goals simp only [enter, Live.Session.holdLater, meaning] at ended means ⊢
  · have handled : session.watch.handle? line = some ({ session.watch with console := console }, []) := by
      simp only [Watch.handle?, watch, meaning]
    exact attending_line handled
  · cases means with
    | load going => exact load_attending budget { session with live := session.live.holdLater hold } line meaning (ended _ rfl)
  · exact absurd meaning (stays code)
  · have handled : session.watch.handle? line = some (session.watch, []) := by
      simp only [Watch.handle?, watch, meaning]
    exact attending_line handled

/-- Lines are entered to a console that never loses its way on and is not left. The restarts that the
execution gets are those of the lines that are programs, in order. Each of them has the bytes of its line,
the input that the latest line gave that has the command word for it, and the fallback byte that the latest
line gave whose first word is one; nothing else has been given, by whatever lines. No line but a program
restarts anything, and no line sets the code.
A session that handles a line is such a console, as long as its restart ends. -/
theorem settings_reach_runs (attending : Attending initial watch incidents actions)
    (going : watch.console.fatal = none) :
    ((∃ events, Live.Schedule initial.system actions watch.system events) ∧
      restartsIn actions = requestsOf initial.console (linesIn incidents)) ∧
    (watch.console.input = latest inputGiven? initial.console.input (linesIn incidents) ∧
      watch.console.fallback = latest fallbackGiven? initial.console.fallback (linesIn incidents)) ∧
    (∀ line bytes, inputGiven? line = some bytes ↔ ∃ rest,
      Commands line.toList ":input".toList rest ∧ bytes = Utf8.encode (String.ofList rest)) ∧
    (∀ line fallback, fallbackGiven? line = some fallback ↔ ∃ rest word others,
      Commands line.toList ":auto".toList rest ∧ Words.split rest = .ok (word :: others) ∧
        (word = "off" ∧ fallback = none ∨
          word ≠ "off" ∧ ∃ byte, ByteLiteral.read word = .ok byte ∧ fallback = some (byte.toNat : Int))) ∧
    (∀ line later made, watch.handle? line = some (later, made) → watch.Handles line later made) ∧
    ∀ (budget : Nat) (session : Session) (line : String) (hold : Option Nat), session.watch = watch →
      (∀ code, session.console.interpret session.live.system.look line ≠ .leave code) →
      (∀ code, session.console.interpret session.live.system.look line = .load code →
        (session.nextAnswer? (session.enter budget line hold).2.1).isSome) →
      ∃ more made, Attending watch (session.enter budget line hold).2.1.watch more made ∧
        linesIn more = [line] := by
  obtain ⟨restarts, input, fallback⟩ := attending.settings going
  refine ⟨⟨attending.schedule, restarts⟩, ⟨input, fallback⟩, fun _ _ => inputGiven?_eq_some,
    fun _ _ => fallbackGiven?_eq_some, fun _ _ _ handled => Watch.handles going handled, ?_⟩
  rintro budget session line hold rfl stays ended
  exact session.enter_attending budget line hold stays ended

/-- Between two programs and before them lines come that give something, and some that do not. -/
def linesAroundPrograms : List Incident :=
  [List.replicate 4 (.live .work),
    [.line ":input  a b \r\n", .line ":auto 0x41", .line ",.\n"],
    List.replicate 8 (.live (.proceed 0)), [.finish],
    [.line ":auto 256", .line ":input\t", .line ":auto \"off", .line " :auto off ", .line "+"]].flatten

/-- The first of the programs gets the byte that is taken away before the second one. Both get a text with
the space at its beginning and the one at its end. -/
theorem settings_reach_runs_around_programs :
    ∃ watch actions, Attending (.start "worker" [1] (some 0) .empty) watch linesAroundPrograms actions ∧
      watch.console.fatal = none ∧ restartsIn actions =
        [⟨.bytes [0x2C, 0x2E, 0x0A], .bytes [0x20, 0x61, 0x20, 0x62, 0x20], some 65⟩,
          ⟨.bytes [0x2B], .bytes [0x20, 0x61, 0x20, 0x62, 0x20], none⟩] := by
  have run : ((Watch.start "worker" [1] (some 0) .empty).attend linesAroundPrograms).map (fun last =>
      last.1.console.fatal) = some none := by decide +kernel
  obtain ⟨⟨watch, actions⟩, attended, going⟩ := Option.map_eq_some_iff.mp run
  have attending := Attending.of_attend attended
  obtain ⟨⟨-, restarts⟩, -⟩ := settings_reach_runs attending going
  refine ⟨watch, actions, attending, going, restarts.trans ?_⟩
  decide +kernel

end TapeMachine.Console
