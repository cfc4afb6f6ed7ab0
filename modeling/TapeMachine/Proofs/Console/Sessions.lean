import TapeMachine.Proofs.Console.Watch

namespace TapeMachine.Console

/-- A watch can come to another one. -/
def Reaches (initial watch : Watch) : Prop := ∃ sights, Watching initial watch sights

theorem Reaches.trans {initial middle watch : Watch} (first : Reaches initial middle)
    (second : Reaches middle watch) : Reaches initial watch := by
  obtain ⟨sights, first⟩ := first
  obtain ⟨more, second⟩ := second
  exact ⟨sights ++ more, first.trans second⟩

theorem Reaches.same {watch : Watch} : Reaches watch watch := ⟨[], .start⟩

def Sight.poll? : Sight → Option Poll
  | polled poll => some poll
  | _ => none

/-- A watch can come to another one with these looks on the way. -/
def Sees (initial : Watch) (looks : List Poll) (watch : Watch) : Prop :=
  ∃ sights, Watching initial watch sights ∧ sights.filterMap Sight.poll? = looks

section

variable {initial middle watch : Watch} {looks more : List Poll}

theorem Sees.trans (first : Sees initial looks middle) (second : Sees middle more watch) :
    Sees initial (looks ++ more) watch := by
  obtain ⟨sights, first, rfl⟩ := first
  obtain ⟨further, second, rfl⟩ := second
  exact ⟨sights ++ further, first.trans second, List.filterMap_append⟩

theorem Sees.quiet (first : Sees initial looks middle) (second : Sees middle [] watch) :
    Sees initial looks watch := by
  rw [← List.append_nil looks]
  exact first.trans second

theorem Sees.reaches (sees : Sees initial looks watch) : Reaches initial watch := by
  obtain ⟨sights, watching, -⟩ := sees
  exact ⟨sights, watching⟩

theorem Sees.same : Sees watch [] watch := ⟨[], .start, rfl⟩

theorem Sees.single {sights : List Sight} (deed : Deed)
    (step : initial.perform? deed = some (watch, sights)) :
    Sees initial (sights.filterMap Sight.poll?) watch :=
  ⟨sights, .single deed step, rfl⟩

end

variable {console : Console} {loading : Option Load}

/-- A step of the execution that is no restart. -/
theorem Sees.step {system later : Live.System} {events : List Live.Event} (action : Live.Action)
    (no_restart : ∀ request, action ≠ .requestRestart request)
    (step : system.perform? action = some (later, events)) :
    Sees ⟨console, system, loading⟩ [] ⟨console, later, loading⟩ := by
  have unseen : (events.map Sight.happened).filterMap Sight.poll? = [] := by
    rw [List.filterMap_map]
    exact List.filterMap_eq_nil_iff.mpr fun _ _ => rfl
  refine ⟨events.map .happened, .single (.live action) ?_, unseen⟩
  rw [Watch.perform?_live no_restart, step]
  rfl

theorem proceed?_step {session next : Live.Session} {first : Nat} {calls : List Live.Call}
    (goes : session.proceed? first calls = some next) :
    ∃ id step, session.system.callStep? id = some step ∧ next = session.adopt step := by
  induction calls generalizing first with
  | nil => cases goes
  | cons call calls ih =>
    unfold Live.Session.proceed? at goes
    split at goes
    · cases goes
    · rename_i same
      obtain ⟨-, rfl⟩ := List.cons.inj same
      exact ih goes
    · rename_i same
      obtain ⟨-, rfl⟩ := List.cons.inj same
      split at goes
      · rename_i step there
        exact ⟨_, step, there, (Option.some.inj goes).symm⟩
      · exact ih goes

/-- Every step of the execution keeps it, calls that are made apart. -/
def Kept (holds : Live.System → Prop) : Prop :=
  ∀ (action : Live.Action) (system later : Live.System) (events : List Live.Event),
    action.call? = none → system.perform? action = some (later, events) → holds system → holds later

theorem sees_kept (initial : Watch) (looks : List Poll) (console : Console) (loading : Option Load) :
    Kept fun system => Sees initial looks ⟨console, system, loading⟩ := by
  intro action system later events no_call step seen
  refine seen.quiet (.step action ?_ step)
  rintro request rfl
  cases no_call

section

variable {holds : Live.System → Prop} (kept : Kept holds) (budget : Nat) (live : Live.Session)

include kept

theorem settle_kept (first : holds live.system) : holds (live.settle budget).system := by
  induction budget generalizing live with
  | zero => exact first
  | succ budget ih =>
    unfold Live.Session.settle
    split
    · rename_i next goes
      obtain ⟨id, step, there, rfl⟩ := proceed?_step goes
      exact ih (live.adopt step) (kept (.proceed id) _ _ _ rfl there first)
    · split
      · rename_i next goes
        unfold Live.Session.work? at goes
        split at goes
        · split at goes <;> cases goes
          exact ih { live with gate := live.gate.release } first
        · obtain ⟨step, there, rfl⟩ := Option.map_eq_some_iff.mp goes
          exact ih (live.adopt step) (kept .work _ _ _ rfl there first)
      · exact first

theorem poison_kept (cell : Live.CellName) (first : holds live.system) :
    holds ((live.poison cell).settle budget).system := by
  refine settle_kept kept budget (live.poison cell) ?_
  cases cell with
  | state => exact kept .poisonState _ _ [] rfl rfl first
  | program => exact kept .poisonProgram _ _ [] rfl rfl first

/-- A shutdown that has been made goes its way. -/
theorem shutdown_kept (first : holds (live.system.addCall (.shutdown .closing))) :
    holds (live.shutdown budget).system := by
  have settled : holds (live.call budget (.shutdown .closing)).system :=
    settle_kept kept budget { live with system := live.system.addCall (.shutdown .closing) } first
  unfold Live.Session.shutdown
  simp only
  split
  · rename_i step there
    exact kept (.proceed _) _ _ _ rfl there settled
  · exact settled

end

/-- On the way to rest the execution takes steps of its own. -/
theorem settle_sees (budget : Nat) (live : Live.Session) :
    Sees ⟨console, live.system, loading⟩ [] ⟨console, (live.settle budget).system, loading⟩ :=
  settle_kept (sees_kept _ [] console loading) budget live .same

namespace Session

def watch (session : Session) : Watch := ⟨session.console, session.live.system, none⟩

/-- The answer to the first restart that is made from now on. -/
def nextAnswer? (session later : Session) : Option (Except Live.RestartError Unit) :=
  later.live.system.calls[session.live.system.calls.length]?.bind Live.Call.result?

theorem load_live (budget : Nat) (session : Session) (code : List UInt8) :
    (session.load budget code).2.1.live =
      (session.live.restart budget (session.watch.loadOf code).request).2 := by
  simp only [load, Watch.loadOf, watch, Load.request]
  split <;> rfl

/-- How a session answers for a restart that has ended. -/
def answerFor : Except Live.RestartError Unit → Live.Answer
  | .ok () => .nothing
  | .error error => .failed (.restart error)

theorem answerOf_finished {live : Live.Session} {id : Nat} {result : Except Live.RestartError Unit}
    (call : live.system.calls[id]? = some (.restart (.finished result))) :
    live.answerOf id = answerFor result := by
  simp only [Live.Session.answerOf, call]
  rcases result with error | ⟨⟩ <;> rfl

/-- The watch of a session that is loading a program, when everything has come to rest. -/
def loadingWatch (budget : Nat) (session : Session) (code : List UInt8) : Watch :=
  ⟨session.console, (session.live.restart budget (session.watch.loadOf code).request).2.system,
    some (session.watch.loadOf code)⟩

/-- Once its restart has ended, a load ends as it does for a watch. -/
theorem load_finish (budget : Nat) (session : Session) (code : List UInt8)
    {result : Except Live.RestartError Unit}
    (answer : (session.live.restart budget (session.watch.loadOf code).request).1 = answerFor result) :
    (session.load budget code).2.1.watch =
      ((session.loadingWatch budget code).finish (session.watch.loadOf code) result).1 := by
  simp only [Watch.loadOf, watch, Load.request] at answer ⊢
  unfold load
  simp only [answer]
  rcases result with error | ⟨⟩
  · cases error <;> rfl
  · rfl

/-- A load whose restart has been answered can be finished. -/
theorem load_answered (budget : Nat) (session : Session) (code : List UInt8)
    {result : Except Live.RestartError Unit}
    (answered : session.nextAnswer? (session.load budget code).2.1 = some result) :
    (session.loadingWatch budget code).perform? .finish = some ((session.load budget code).2.1.watch,
      ((session.loadingWatch budget code).finish (session.watch.loadOf code) result).2) := by
  rw [nextAnswer?, load_live] at answered
  have call := @Watch.call_of_answer (session.loadingWatch budget code) (session.watch.loadOf code) _
    answered
  rw [load_finish budget session code (answerOf_finished call)]
  exact congrArg (Option.map _) answered

/-- A load begins, and the execution takes steps. -/
theorem loading_sees (budget : Nat) (session : Session) (code : List UInt8) :
    Sees session.watch [] (session.loadingWatch budget code) :=
  Sees.trans (.single _ (Watch.perform?_load rfl code)) (settle_sees budget { session.live with
    system := session.live.system.addCall (.ofRequest (session.watch.loadOf code).request) })

/-- A load that comes to its end is the beginning of a load, steps of the execution, and the end. -/
theorem load_sees (budget : Nat) (session : Session) (code : List UInt8)
    (ended : (session.nextAnswer? (session.load budget code).2.1).isSome) :
    Sees session.watch [] (session.load budget code).2.1.watch := by
  obtain ⟨result, answered⟩ := Option.isSome_iff_exists.mp ended
  have finishes := load_answered budget session code answered
  refine (loading_sees budget session code).quiet ⟨_, .single .finish finishes, ?_⟩
  rcases result with error | ⟨⟩ <;> rfl

/-- Handling a line, when the program that it may be has been answered for. -/
theorem enter_sees (budget : Nat) (session : Session) (line : String) (hold : Option Nat)
    (ended : ∀ code, session.console.interpret session.live.system.look line = .load code →
      (session.nextAnswer? (session.enter budget line hold).2.1).isSome) :
    Sees session.watch [] (session.enter budget line hold).2.1.watch := by
  rcases meaning : session.console.interpret session.live.system.look line with
    ⟨console, text⟩ | code | code | _
  all_goals simp only [enter, Live.Session.holdLater, meaning] at ended ⊢
  · have goes : session.watch.perform? (.command line) =
        some ({ session.watch with console := console }, []) := by
      simp only [Watch.perform?, watch, meaning]
    exact .single _ goes
  · exact load_sees budget { session with live := session.live.holdLater hold } code (ended code rfl)
  · exact .same
  · exact .same

/-- Commands that neither restart the execution nor do by hand what a rendezvous does. -/
def leavesRun : Live.Command → Bool
  | .restart .. | .restartAside .. | .renew => false
  | _ => true

section

variable {holds : Live.System → Prop} (kept : Kept holds) (budget : Nat) (session : Session)
  (first : holds session.live.system)

include kept first

/-- What every step of the execution keeps is kept by what is done to it from outside. -/
theorem outside_kept {command : Live.Command} (leaves : leavesRun command = true)
    (shut : command = .shutdown → holds (session.live.system.addCall (.shutdown .closing))) :
    holds (session.outside budget command).live.system := by
  cases command with
  | restart | restartAside | renew => cases leaves
  | enter => exact first
  | release => exact settle_kept kept budget { session.live with gate := session.live.gate.release } first
  | feed items =>
    exact settle_kept kept budget { session.live with
      system := { session.live.system with stream := session.live.system.stream.feed items } }
      (kept (.feed items) _ _ [] rfl rfl first)
  | advance more =>
    simp only [outside, Live.Session.obey]
    split
    · exact first
    · exact settle_kept kept budget { session.live with gate := session.live.gate.advance more } first
  | poison cell => exact poison_kept kept budget session.live cell first
  | raiseInside cell message =>
    simp only [outside, Live.Session.obey]
    split
    · exact first
    · exact poison_kept kept budget session.live cell first
  | shutdown => exact shutdown_kept kept budget session.live (shut rfl)

/-- It is kept by the handling of a line, if what a program makes of it is. -/
theorem enter_kept (line : String) (hold : Option Nat)
    (loads : ∀ code, session.console.interpret session.live.system.look line = .load code →
      holds (session.live.system.addCall (.ofRequest (session.watch.loadOf code).request))) :
    holds (session.enter budget line hold).2.1.live.system := by
  rcases meaning : session.console.interpret session.live.system.look line with
    ⟨console, text⟩ | code | code | _
  all_goals simp only [enter, Live.Session.holdLater, meaning]
  · exact first
  · rw [load_live]
    exact settle_kept kept budget { session.live.holdLater hold with
      system := session.live.system.addCall (.ofRequest (session.watch.loadOf code).request) }
      (loads code meaning)
  · exact first
  · exact first

end

/-- What is done to the execution from outside. -/
theorem outside_sees (budget : Nat) (session : Session) {command : Live.Command}
    (leaves : leavesRun command = true) :
    Sees session.watch [] (session.outside budget command).watch := by
  have shut : Sees session.watch []
      ⟨session.console, session.live.system.addCall (.shutdown .closing), none⟩ :=
    .step .requestShutdown nofun rfl
  exact outside_kept (sees_kept session.watch [] session.console none) budget session .same leaves
    fun _ => shut

/-- What a session is told to do. -/
inductive Order where
  | look
  | enter (line : String) (hold : Option Nat)
  | outside (command : Live.Command)

/-- Carries out an order, and says what was looked at. -/
def obey (budget : Nat) (session : Session) : Order → Session × List Poll
  | .look => (session.poll.1, [⟨session.live.system.look,
      (session.console.showOutput session.live.system.look.output).2⟩])
  | .enter line hold => ((session.enter budget line hold).2.1, [])
  | .outside command => (session.outside budget command, [])

/-- Carries out orders, one after the other. -/
def obeyAll (budget : Nat) (session : Session) : List Order → Session × List Poll
  | [] => (session, [])
  | order :: orders =>
    let (next, looks) := session.obey budget order
    let (last, more) := next.obeyAll budget orders
    (last, looks ++ more)

/-- The order makes no restart but that of a line, and such a restart has ended when it is over. -/
def inTime (budget : Nat) (session : Session) : Order → Bool
  | .look => true
  | .enter line hold =>
    match session.console.interpret session.live.system.look line with
    | .load _ => (session.nextAnswer? (session.enter budget line hold).2.1).isSome
    | _ => true
  | .outside command => leavesRun command

/-- Only lines restart the execution, and each restart has ended before the next order. -/
def unhurried (budget : Nat) : Session → List Order → Bool
  | _, [] => true
  | session, order :: orders =>
    session.inTime budget order && unhurried budget (session.obey budget order).1 orders

theorem obey_sees (budget : Nat) (session : Session) (order : Order)
    (ended : session.inTime budget order = true) :
    Sees session.watch (session.obey budget order).2 (session.obey budget order).1.watch := by
  cases order with
  | look =>
    have looks : session.watch.perform? .poll = some (session.poll.1.watch,
        [.polled ⟨session.live.system.look,
          (session.console.showOutput session.live.system.look.output).2⟩]) := rfl
    exact .single .poll looks
  | enter line hold =>
    refine enter_sees budget session line hold fun code meaning => ?_
    simpa only [inTime, meaning] using ended
  | outside command => exact outside_sees budget session ended

theorem obeyAll_sees (budget : Nat) (session : Session) (orders : List Order)
    (calm : session.unhurried budget orders = true) :
    Sees session.watch (session.obeyAll budget orders).2 (session.obeyAll budget orders).1.watch := by
  induction orders generalizing session with
  | nil => exact .same
  | cons order orders ih =>
    obtain ⟨ended, calm⟩ := Bool.and_eq_true_iff.mp calm
    exact (obey_sees budget session order ended).trans (ih (session.obey budget order).1 calm)

/-- A session is a watch under one fixed order of steps. Whatever it is told to do, it comes to where a
watch can come by looks, lines and loads and by steps of the execution between them; and the watch has
looked when the session has, and seen and printed the same output. -/
theorem start_obeyAll_sees (budget : Nat) (input : List UInt8) (fallback : Option Int)
    (stream : ByteStream) (orders : List Order)
    (calm : (start budget input fallback stream).unhurried budget orders = true) :
    Sees (.start "bflive-worker" input fallback stream)
      ((start budget input fallback stream).obeyAll budget orders).2
      ((start budget input fallback stream).obeyAll budget orders).1.watch := by
  have started : Sees (.start "bflive-worker" input fallback stream) []
      (start budget input fallback stream).watch :=
    settle_sees budget ⟨.start "bflive-worker" none stream, .start none, [], none⟩
  exact started.trans (obeyAll_sees budget _ orders calm)

example :
    (start 100 [65] (some 0) .empty).unhurried 100
        [.enter "+[]" none, .look, .enter ",." none, .look] = true ∧
      ((start 100 [65] (some 0) .empty).obeyAll 100
        [.enter "+[]" none, .look, .enter ",." none, .look]).2.map Poll.text = ["", "A"] := by
  decide +kernel

end Session

end TapeMachine.Console
