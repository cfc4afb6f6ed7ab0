import TapeMachine.Proofs.Console.OutputOnce
import TapeMachine.Proofs.Console.Oversized
import TapeMachine.Proofs.Console.Sessions
import TapeMachine.Proofs.Live.Failing
import TapeMachine.Proofs.Live.LockHolder

namespace TapeMachine

namespace Live

variable {system later : System} {action : Action} {events : List Event}

/-- The restart has not been refused for its arguments. -/
def RestartStage.Valid (stage : RestartStage) : Prop :=
  ∀ error, stage.error? ≠ some (.invalid error)

theorem RestartStage.Next.valid {stage next : RestartStage} (goes : stage.Next system next)
    (valid : stage.Valid) : next.Valid := by
  intro error refused
  cases goes with
  | turn turns => cases turns <;> cases refused
  | lock | raise | store | park | meet | clear => cases refused
  | @unlock result =>
    apply valid error
    cases result <;> exact refused

def Call.isShutdown : Call → Bool
  | shutdown _ => true
  | restart _ => false

namespace System

/-- Nobody has begun to shut the execution down. -/
def Unshut (system : System) : Prop := ∀ call ∈ system.calls, call.isShutdown = false

theorem unshut_iff : system.Unshut ↔
    ∀ (id : Nat) (stage : ShutdownStage), system.calls[id]? ≠ some (.shutdown stage) := by
  constructor
  · intro unshut id stage there
    cases unshut _ (List.mem_of_getElem? there)
  · intro apart call member
    obtain ⟨id, there⟩ := List.mem_iff_getElem?.mp member
    cases call with
    | restart => rfl
    | shutdown stage => exact absurd there (apart id stage)

theorem Unshut.unclosed (unshut : system.Unshut) (attended : system.Attended) :
    system.closed = false := by
  by_contra closed
  obtain ⟨id, stage, there, -⟩ := attended.closer (by simpa using closed)
  exact unshut_iff.mp unshut id stage there

/-- Only a new call is a shutdown that was not there before. -/
theorem Unshut.step (unshut : system.Unshut) (moves : Moves system action later events)
    (no_call : action.call? = none) : later.Unshut := by
  rw [unshut_iff] at unshut ⊢
  intro id stage there
  have after := calls_after moves
  generalize later.calls = calls at after there
  cases after with
  | same => exact unshut id stage there
  | restart =>
    rcases setCall_cases there with ⟨-, moved⟩ | ⟨-, old⟩
    · cases moved
    · exact unshut id stage old
  | shutdown moving => exact unshut _ _ moving
  | made made => cases no_call.symm.trans made

theorem Unshut.add_restart (unshut : system.Unshut) (request : Request) :
    (system.addCall (.ofRequest request)).Unshut := by
  intro call member
  rcases List.mem_append.mp member with old | new
  · exact unshut call old
  · obtain rfl := List.mem_singleton.mp new
    unfold Call.ofRequest
    split <;> rfl

/-- While nothing is shut down, a restart with valid arguments fails for a poisoned program cell only. -/
theorem result_of_valid (unshut : system.Unshut) (attended : system.Attended)
    (justified : system.Justified) {id : Nat} {result : Except RestartError Unit}
    (call : system.calls[id]? = some (.restart (.finished result)))
    (valid : (RestartStage.finished result).Valid) : result = .ok () ∨ result = .error .poisoned := by
  rcases result with error | ⟨⟩
  · cases error with
    | invalid error => exact absurd rfl (valid error)
    | shutDown =>
      have closed : system.closed = true := justified id _ call .shutDown rfl
      cases closed.symm.trans (unshut.unclosed attended)
    | poisoned => exact .inr rfl
  · exact .inl rfl

end System

end Live

namespace Console

open Live

/-- A fallback byte is a byte. -/
def FitsByte (fallback : Option Int) : Prop := ∀ value ∈ fallback, 0 ≤ value ∧ value ≤ 255

theorem Load.program_of_fits {load : Load} (fits : FitsByte load.fallback) :
    ∃ program, load.request.program = .ok program := by
  obtain ⟨id, code, input, fallback⟩ := load
  rcases fallback with _ | value
  · exact ⟨⟨code, input, none⟩, rfl⟩
  · have cell : Cell.ofInt? value = some (UInt8.ofNat value.toNat) := if_pos (fits value rfl)
    refine ⟨⟨code, input, some (UInt8.ofNat value.toNat)⟩, ?_⟩
    simp only [Request.program, Load.request, cell]
    rfl

theorem Means.fits {console later : Console} {line text : String}
    (means : Means console line (.go later text)) (fits : FitsByte console.fallback) :
    FitsByte later.fallback := by
  cases means with
  | say | input => exact fits
  | unset =>
    intro value there
    cases there
  | @set byte =>
    intro value there
    obtain rfl := Option.some.inj there
    have bound := byte.toNat_lt
    exact ⟨by omega, by omega⟩

variable {name : String} {input : List UInt8} {fallback : Option Int} {stream : ByteStream}
  {watch later : Watch} {sights : List Sight} {load : Load}

/-- What the next runs are given can be given, and what is being loaded was not refused. -/
structure Watch.Valid (watch : Watch) : Prop where
  fits : FitsByte watch.console.fallback
  loading : ∀ load, watch.loading = some load → FitsByte load.fallback ∧
    ∃ stage : RestartStage, watch.system.calls[load.id]? = some (.restart stage) ∧ stage.Valid

namespace Watch

theorem Valid.idle (fits : FitsByte watch.console.fallback) (idle : watch.loading = none) :
    watch.Valid := by
  refine ⟨fits, ?_⟩
  intro load busy
  cases idle.symm.trans busy

theorem Valid.live (valid : watch.Valid) {action : Action} {later : System} {events : List Event}
    (moves : Moves watch.system action later events) : { watch with system := later }.Valid := by
  refine ⟨valid.fits, ?_⟩
  intro load busy
  obtain ⟨fits, stage, call, unrefused⟩ := valid.loading load busy
  obtain ⟨next, after, same | goes⟩ := System.restart_next call moves
  · exact ⟨fits, next, after, same ▸ unrefused⟩
  · exact ⟨fits, next, after, goes.valid unrefused⟩

theorem Valid.begin (valid : watch.Valid) (number : load.id = watch.system.calls.length)
    (fallback : load.fallback = watch.console.fallback) :
    { watch with
      system := watch.system.addCall (.ofRequest load.request), loading := some load }.Valid := by
  refine ⟨valid.fits, ?_⟩
  intro other busy
  obtain rfl := Option.some.inj busy
  have fits : FitsByte load.fallback := fallback ▸ valid.fits
  obtain ⟨program, accepted⟩ := Load.program_of_fits fits
  refine ⟨fits, .locking program, ?_, ?_⟩
  · simp [System.addCall, number, Call.ofRequest, accepted]
  · intro error refused
    cases refused

theorem Valid.does (valid : watch.Valid) (orderly : watch.system.Orderly)
    (does : Does watch later sights) : later.Valid := by
  cases does with
  | live _ goes => exact valid.live (orderly.moves goes)
  | command means => exact ⟨means.fits valid.fits, valid.loading⟩
  | poll =>
    have same := poll_sameSettings watch.console watch.system.look
    exact ⟨same.2.2 ▸ valid.fits, valid.loading⟩
  | load idle number fallback => exact valid.begin number fallback
  | accept => exact .idle valid.fits rfl
  | refuse =>
    refine .idle ?_ rfl
    split <;> exact valid.fits

end Watch

theorem Watching.orderly (watching : Watching (.start name input fallback stream) watch sights) :
    watch.system.Orderly := by
  obtain ⟨actions, begun, since, tenure, -⟩ := watching.shows
  exact tenure.schedule.orderly (.start name none stream)

theorem Watching.valid (watching : Watching (.start name input fallback stream) watch sights)
    (given : FitsByte fallback) : watch.Valid := by
  induction watching with
  | start => exact .idle given rfl
  | next deed earlier step ih => exact ih.does earlier.orderly (Watch.does step)

/-- Loading fails for a poisoned program cell only. -/
theorem Watching.result_of_load
    (watching : Watching (.start name input fallback stream) watch sights) (given : FitsByte fallback)
    (unshut : watch.system.Unshut) (busy : watch.loading = some load)
    {result : Except RestartError Unit}
    (call : watch.system.calls[load.id]? = some (.restart (.finished result))) :
    result = .ok () ∨ result = .error .poisoned := by
  obtain ⟨actions, begun, since, tenure, -⟩ := watching.shows
  have attended := tenure.schedule.attended (.start name none stream) (.start name none stream)
  have justified := tenure.schedule.justified (.start name none stream) (.start name none stream)
  obtain ⟨-, stage, there, valid⟩ := (watching.valid given).loading load busy
  obtain rfl := Call.restart.inj (Option.some.inj (call.symm.trans there))
  exact System.result_of_valid unshut attended justified call valid

/-- What is being loaded gets an answer. Until then its restart can take a step, or it waits for the
worker, which comes by its own steps or is inside a read by then. Whoever had the lock would be the
restart of what is being loaded. -/
theorem Watching.load_goes_on (watching : Watching (.start name input fallback stream) watch sights)
    (given : FitsByte fallback) (unshut : watch.system.Unshut) (busy : watch.loading = some load) :
    (∃ result, watch.answer? load = some result) ∨ (watch.system.callStep? load.id).isSome ∨
      watch.system.calls[load.id]? = some (.restart .waiting) ∧
        (watch.system.Joins load.id 6 1 ∨ watch.system.JoinsFed load.id 2) := by
  obtain ⟨actions, begun, since, tenure, in_step, -⟩ := watching.shows
  have history := tenure.schedule
  have isolated := history.isolated (.start name none stream)
  have attended := history.attended (.start name none stream) (.start name none stream)
  have held := history.held (.start name none stream) (.start name none stream)
  obtain ⟨-, stage, call, -⟩ := (watching.valid given).loading load busy
  by_cases locked : stage.locked = true
  · by_cases waits : stage = .waiting
    · subst waits
      have comes := System.comes_of_waiting isolated attended call (unshut.unclosed attended)
      exact .inr (.inr ⟨call, comes⟩)
    · exact .inr (.inl (System.proceeds_of_locked call locked waits))
  · cases stage with
    | finished result => exact .inl ⟨result, Watch.answer_of_call call⟩
    | locking program =>
      have free : watch.system.lock = none := by
        by_contra taken
        obtain ⟨holder, holds⟩ := Option.ne_none_iff_exists'.mp taken
        obtain ⟨found, there, inside⟩ := held.holder holder holds
        obtain ⟨other, also_busy, rfl⟩ :=
          in_step.under_way holder found there (RestartStage.not_over_of_locked inside)
        obtain rfl := Option.some.inj (busy.symm.trans also_busy)
        obtain rfl := Call.restart.inj (Option.some.inj (call.symm.trans there))
        cases inside
      exact .inr (.inl (by simp [System.callStep?, call, System.restartStep?, free]))
    | checking | stopping | storing | arriving | waiting | returning | clearing | unlocking =>
      exact absurd rfl locked

/-- How the handling of a line can end. -/
inductive Ends (console : Console) (line : String) : LineResult → Prop
  | handled : Ends console line .handled
  | left : console.fatal = none → Ends console line (.left 0)
  | left_fatal {message : String} : console.fatal = some message → Ends console line (.left 1)
  | unwritable : console.fatal = none → Oversized line → Ends console line (.failed .unwritable)

namespace Session

theorem finished_of_answerOf {live : Live.Session} {id : Nat} {error : RestartError}
    (failed : live.answerOf id = .failed (.restart error)) :
    live.system.calls[id]? = some (.restart (.finished (.error error))) := by
  unfold Live.Session.answerOf at failed
  split at failed
  · cases failed
  · rename_i there
    cases failed
    exact there
  · cases failed
  · cases failed

theorem unshut_kept : Kept fun system => system.Orderly ∧ system.Unshut := by
  rintro action system later events no_call step ⟨orderly, unshut⟩
  have moves := orderly.moves step
  exact ⟨orderly.step moves, unshut.step moves no_call⟩

theorem unshut_of_restart (budget : Nat) (live : Live.Session) (request : Request)
    (orderly : live.system.Orderly) (unshut : live.system.Unshut) :
    (live.restart budget request).2.system.Unshut :=
  (settle_kept unshut_kept budget { live with system := live.system.addCall (.ofRequest request) }
    ⟨orderly.add_restart request, unshut.add_restart request⟩).2

/-- Loading a program never fails. -/
theorem load_handled (budget : Nat) (session : Session) (code : List UInt8)
    (watching : Watching (.start name input fallback stream) session.watch sights)
    (given : FitsByte fallback) (unshut : session.live.system.Unshut) :
    (session.load budget code).1 = .handled := by
  obtain ⟨more, begins, -⟩ := loading_sees budget session code
  have still := unshut_of_restart budget session.live (session.watch.loadOf code).request
    watching.orderly unshut
  unfold load
  simp only
  split
  · rfl
  · rename_i error unpoisoned failed
    have call := finished_of_answerOf failed
    rcases (watching.trans begins).result_of_load given still rfl call with fine | poisoned
    · cases fine
    · cases poisoned
      exact absurd rfl unpoisoned
  · rfl

/-- Handling a line ends in one of these ways. -/
theorem enter_ends (budget : Nat) (session : Session) (line : String) (hold : Option Nat)
    (watching : Watching (.start name input fallback stream) session.watch sights)
    (given : FitsByte fallback) (unshut : session.live.system.Unshut) :
    Ends session.console line (session.enter budget line hold).1 := by
  have means := interpret_means session.console session.live.system.look line
  have loads (code : List UInt8) :=
    load_handled budget { session with live := session.live.holdLater hold } code watching given unshut
  unfold enter
  simp only [Live.Session.holdLater] at loads ⊢
  generalize session.console.interpret session.live.system.look line = directive at means
  cases means with
  | say | input | unset | set => exact .handled
  | load =>
    rw [loads]
    exact .handled
  | leave going => exact .left going
  | leave_fatal fatal => exact .left_fatal fatal
  | unwritable going oversized => exact .unwritable going oversized

theorem unshut_of_obey (budget : Nat) (session : Session) {order : Order}
    (ended : session.inTime budget order = true) (no_shutdown : order ≠ .outside .shutdown)
    (orderly : session.live.system.Orderly) (unshut : session.live.system.Unshut) :
    (session.obey budget order).1.live.system.Orderly ∧
      (session.obey budget order).1.live.system.Unshut := by
  cases order with
  | look => exact ⟨orderly, unshut⟩
  | enter line hold =>
    exact enter_kept unshut_kept budget session ⟨orderly, unshut⟩ line hold fun code _ =>
      ⟨orderly.add_restart _, unshut.add_restart _⟩
  | outside command =>
    refine outside_kept unshut_kept budget session ⟨orderly, unshut⟩ ended ?_
    rintro rfl
    exact absurd rfl no_shutdown

theorem unshut_of_obeyAll (budget : Nat) (session : Session) (orders : List Order)
    (calm : session.unhurried budget orders = true)
    (no_shutdown : ∀ order ∈ orders, order ≠ .outside .shutdown)
    (orderly : session.live.system.Orderly) (unshut : session.live.system.Unshut) :
    (session.obeyAll budget orders).1.live.system.Unshut := by
  induction orders generalizing session with
  | nil => exact unshut
  | cons order orders ih =>
    obtain ⟨ended, calm⟩ := Bool.and_eq_true_iff.mp calm
    obtain ⟨orderly, unshut⟩ :=
      unshut_of_obey budget session ended (no_shutdown order List.mem_cons_self) orderly unshut
    have later_no_shutdown : ∀ later ∈ orders, later ≠ .outside .shutdown := by
      intro later member
      exact no_shutdown later (List.mem_cons_of_mem order member)
    exact ih (session.obey budget order).1 calm later_no_shutdown orderly unshut

/-- Whatever a session has been told to do that nobody shuts down, handling a line ends in one of these
ways. -/
theorem enter_ends_behind_orders (budget : Nat) (orders : List Order)
    (calm : (start budget input fallback stream).unhurried budget orders = true)
    (no_shutdown : ∀ order ∈ orders, order ≠ .outside .shutdown) (given : FitsByte fallback)
    (line : String) (hold : Option Nat) :
    Ends ((start budget input fallback stream).obeyAll budget orders).1.console line
      (((start budget input fallback stream).obeyAll budget orders).1.enter budget line hold).1 := by
  obtain ⟨sights, watching, -⟩ := start_obeyAll_sees budget input fallback stream orders calm
  have started : (start budget input fallback stream).live.system.Orderly ∧
      (start budget input fallback stream).live.system.Unshut :=
    settle_kept unshut_kept budget ⟨.start "bflive-worker" none stream, .start none, [], none⟩
      ⟨.start "bflive-worker" none stream, nofun⟩
  have unshut := unshut_of_obeyAll budget _ orders calm no_shutdown started.1 started.2
  exact enter_ends budget _ line hold watching given unshut

theorem enter_eq_unwritable {session : Session} {line : String} (going : session.console.fatal = none)
    (oversized : Oversized line) (budget : Nat) (hold : Option Nat) :
    (session.enter budget line hold).1 = .failed .unwritable := by
  have fails (seen : Snapshot) : session.console.interpret seen line = .unwritable :=
    interpret_eq_unwritable.mpr ⟨going, oversized⟩
  simp only [enter, fails]

end Session

/-- Whatever lines have been handled, with looks and steps of the execution in between, and as long as
nothing is shut down:
the fallback byte is a byte;
a line means one of a few things, and the lines that cannot be handled are those which are about a number
that cannot be named, as long as there is a way on;
a program that is being loaded has arguments that pass their checks, its restart fails for a poisoned
program cell only, and it is answered, can go on, or waits for the worker, which comes by its own steps or
as soon as there is something to read;
and the handling of a line ends, the console being left with 1 if there is no way on and with 0 if there
is. -/
theorem line_handled (watching : Watching (.start name input fallback stream) watch sights)
    (given : FitsByte fallback) (unshut : watch.system.Unshut) :
    FitsByte watch.console.fallback ∧
    (∀ line, Means watch.console line (watch.console.interpret watch.system.look line) ∧
      (watch.console.interpret watch.system.look line = .unwritable ↔
        watch.console.fatal = none ∧ Oversized line)) ∧
    (∀ load, watch.loading = some load →
      (∃ program, load.request.program = .ok program) ∧
      (∀ result, watch.answer? load = some result → result = .ok () ∨ result = .error .poisoned) ∧
      ((∃ result, watch.answer? load = some result) ∨ (watch.system.callStep? load.id).isSome ∨
        watch.system.calls[load.id]? = some (.restart .waiting) ∧
          (watch.system.Joins load.id 6 1 ∨ watch.system.JoinsFed load.id 2))) ∧
    ∀ session : Session, session.watch = watch → ∀ budget line hold,
      Ends watch.console line (session.enter budget line hold).1 ∧
        (watch.console.fatal = none → Oversized line →
          (session.enter budget line hold).1 = .failed .unwritable) := by
  have valid := watching.valid given
  refine ⟨valid.fits, ?_, ?_, ?_⟩
  · intro line
    exact ⟨interpret_means _ _ _, interpret_eq_unwritable⟩
  · intro load busy
    refine ⟨Load.program_of_fits (valid.loading load busy).1, ?_,
      watching.load_goes_on given unshut busy⟩
    intro result answered
    exact watching.result_of_load given unshut busy (Watch.call_of_answer answered)
  · rintro session rfl budget line hold
    exact ⟨session.enter_ends budget line hold watching given unshut,
      fun going oversized => Session.enter_eq_unwritable going oversized budget hold⟩

/-- Two lines set the fallback byte, and the program that is loaded after the first one of them waits at the
barrier. -/
def linesAroundLoad : List Deed :=
  [.command ":auto A", .load [44, 46], .command ":auto 0xFF"] ++ List.replicate 5 (.live (.proceed 0))

/-- What is being loaded has the fallback byte that was set before, and waits for the worker. -/
theorem line_handled_around_load :
    ∃ watch sights load, Watching (.start "worker" [] none .empty) watch sights ∧
      watch.loading = some load ∧ load.fallback = some 65 ∧ watch.console.fallback = some 255 ∧
      (∃ program, load.request.program = .ok program) ∧
      ((watch.system.callStep? load.id).isSome ∨
        watch.system.Joins load.id 6 1 ∨ watch.system.JoinsFed load.id 2) := by
  have run : ((Watch.start "worker" [] none .empty).follow linesAroundLoad).map (fun last =>
      (last.1.system.calls.all fun call => !call.isShutdown, last.1.console.fallback,
        last.1.loading.map Load.fallback, (last.1.loading.bind last.1.answer?).isNone)) =
      some (true, some 255, some (some 65), true) := by decide +kernel
  obtain ⟨⟨watch, sights⟩, followed, seen⟩ := Option.map_eq_some_iff.mp run
  simp only [Prod.mk.injEq] at seen
  obtain ⟨calls, fallback, loaded, unanswered⟩ := seen
  obtain ⟨load, busy, given⟩ := Option.map_eq_some_iff.mp loaded
  have unshut : watch.system.Unshut := by simpa [System.Unshut] using calls
  have watching := Watching.of_follow followed
  obtain ⟨-, -, loads, -⟩ := line_handled watching (by simp [FitsByte]) unshut
  obtain ⟨valid, -, goes_on⟩ := loads load busy
  refine ⟨watch, sights, load, watching, busy, given, fallback, valid, ?_⟩
  rw [busy, Option.bind_some, Option.isNone_iff_eq_none] at unanswered
  rcases goes_on with ⟨result, answered⟩ | goes | ⟨-, comes⟩
  · cases unanswered.symm.trans answered
  · exact .inl goes
  · exact .inr comes

/-- A hexadecimal number of 3600 digits has more decimal digits than can be written. -/
theorem largest_line_crashes :
    ((Session.start 100 [] (some 0) .empty).enter 100 (largestLine 3600) none).1 =
      .failed .unwritable := by
  have oversized : Oversized (largestLine 3600) := oversized_largestLine (by decide +kernel)
  exact Session.enter_eq_unwritable rfl oversized 100 none

end Console

end TapeMachine
