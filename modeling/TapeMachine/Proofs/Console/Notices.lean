import TapeMachine.Proofs.Console.OutputOnce
import TapeMachine.Proofs.Live.Calm
import TapeMachine.Proofs.Live.Conclusions

namespace TapeMachine.Console

open Live

/-- A text that says that a run is over. -/
def isClosing (text : String) : Bool :=
  text = notice .done || "\n[ERROR] ".toList.isPrefixOf text.toList

theorem isClosing_notice (status : Status) : isClosing (notice status) = status.closes := by
  cases status with
  | running | waitingForInput | done => decide
  | error message => simp [isClosing, notice, Status.label, Status.closes, String.toList_append]
  | fatal message =>
    have other : notice (.fatal message) ≠ notice .done := by
      intro same
      have characters := congrArg String.toList same
      simp [notice, fatalNotice, Status.label, String.toList_append] at characters
    rw [isClosing, decide_eq_false other, Bool.false_or]
    simp [notice, fatalNotice, Status.closes, String.toList_append, List.isPrefixOf]

/-- What a look at the execution would say about the status. -/
def Watch.notice (watch : Watch) : String :=
  ((watch.console.showOutput watch.system.look.output).1.showStatus watch.system.look.status).2

/-- A look at a run: what was seen, the console after it, all that was printed, the notice in it, and what
had happened to the execution before. -/
structure Glance where
  poll : Poll
  console : Console
  printed : String
  notice : String
  past : List Event

def Glance.status (glance : Glance) : Status := glance.poll.snapshot.status

/-- A run as the console tells about it: the program that was loaded, and the looks up to the next one. -/
structure Review where
  load : Load
  glances : List Glance

def Review.showing (review : Review) : Showing := ⟨review.load, review.glances.map Glance.poll⟩

/-- Notes one thing more that a watch has done, after some events; the latest run is the first one. -/
def Review.note (watch : Watch) (past : List Event) (reviews : List Review) : Sight → List Review
  | .happened _ => reviews
  | .accepted load => ⟨load, []⟩ :: reviews
  | .polled poll =>
    match reviews with
    | [] => []
    | latest :: earlier =>
      let (console, printed) := watch.console.poll watch.system.look
      ⟨latest.load, latest.glances ++ [⟨poll, console, printed, watch.notice, past⟩]⟩ :: earlier

/-- A watch with everything that was noted and the runs that were loaded. -/
inductive Reviewing (initial : Watch) : Watch → List Sight → List Review → Prop
  | start : Reviewing initial initial [] []
  | next {current later : Watch} {seen sights : List Sight} {reviews : List Review} (deed : Deed) :
      Reviewing initial current seen reviews → current.perform? deed = some (later, sights) →
      Reviewing initial later (seen ++ sights)
        (sights.foldl (Review.note current (happenings seen)) reviews)

variable {name : String} {input : List UInt8} {fallback : Option Int} {stream : ByteStream}
  {initial watch later : Watch} {seen sights : List Sight} {reviews : List Review}
  {events : List Event} {load : Load} {before glances : List Glance} {glance : Glance}

theorem Reviewing.watching (reviewing : Reviewing initial watch sights reviews) :
    Watching initial watch sights := by
  induction reviewing with
  | start => exact .start
  | next deed _ step ih => exact ih.next deed step

theorem Review.note_showing (watch : Watch) (past : List Event) (reviews : List Review) (sight : Sight) :
    Showing.note (reviews.map Review.showing) sight =
      (Review.note watch past reviews sight).map Review.showing := by
  cases sight with
  | happened | accepted => rfl
  | polled poll => cases reviews <;> simp [Showing.note, Review.note, Review.showing]

/-- The runs are those that are shown. -/
theorem Reviewing.showings_eq (reviewing : Reviewing initial watch sights reviews) :
    showings sights = reviews.map Review.showing := by
  induction reviewing with
  | start => rfl
  | @next current _ seen sights reviews _ _ _ ih =>
    rw [showings_append, ih]
    exact List.foldl_hom _ (Review.note_showing current (happenings seen))

/-- Does some things, one after the other, and notes the runs; `none` if one of them is not possible. -/
def Watch.review (watch : Watch) (seen : List Sight) (reviews : List Review) :
    List Deed → Option (Watch × List Sight × List Review)
  | [] => some (watch, seen, reviews)
  | deed :: deeds =>
    match watch.perform? deed with
    | none => none
    | some (next, sights) =>
      next.review (seen ++ sights) (sights.foldl (Review.note watch (happenings seen)) reviews) deeds

theorem Reviewing.review (reviewing : Reviewing initial watch seen reviews) {deeds : List Deed}
    {told : List Review} (reviewed : watch.review seen reviews deeds = some (later, sights, told)) :
    Reviewing initial later sights told := by
  induction deeds generalizing watch seen reviews with
  | nil =>
    obtain ⟨rfl, same⟩ := Prod.mk.inj (Option.some.inj reviewed)
    obtain ⟨rfl, rfl⟩ := Prod.mk.inj same
    exact reviewing
  | cons deed deeds ih =>
    rw [Watch.review] at reviewed
    rcases step : watch.perform? deed with _ | ⟨next, noted⟩
    · rw [step] at reviewed
      cases reviewed
    · rw [step] at reviewed
      exact ih (reviewing.next deed step) reviewed

/-- The status that was seen last. -/
def latestStatus (glances : List Glance) : Option Status := glances.getLast?.map Glance.status

/-- The look says that the run is over. -/
def Glance.tells (glance : Glance) : Bool := isClosing glance.notice

/-- One of the looks came when the end of the run had been published. -/
def Ended (load : Load) (glances : List Glance) : Prop :=
  ∃ glance ∈ glances, ∃ snapshot, Concluded (load.id + 1) snapshot glance.past

theorem ended_concat : Ended load (before ++ [glance]) ↔
    Ended load before ∨ ∃ snapshot, Concluded (load.id + 1) snapshot glance.past := by
  simp [Ended, or_and_right, exists_or]

/-- A look at the run of a program that was loaded, after some others: it shows the run, and its end as
soon as that has been published; a status that is the same as before is not told again; and the output
is printed first. -/
structure Glance.Fits (load : Load) (before : List Glance) (glance : Glance) : Prop where
  past : ∀ earlier ∈ before, earlier.past <+: glance.past
  own : glance.poll.snapshot = .fresh .running ∨
    PublishedAs (load.id + 1) glance.poll.snapshot glance.past
  ending : ∀ snapshot, Concluded (load.id + 1) snapshot glance.past → glance.poll.snapshot = snapshot
  printed : glance.printed = glance.poll.text ++ glance.notice
  notice : glance.notice =
    if some glance.status = latestStatus before then "" else Console.notice glance.status
  output : ∃ longest, glance.poll.snapshot.output.toList <+: longest ∧ glance.console.UpTo longest ∧
    (Review.showing ⟨load, before ++ [glance]⟩).printed.toList = (Utf8.Decoder.ready.run longest).1

namespace Glance.Fits

/-- A look shows the end of the run exactly when it has been published. -/
theorem closes_iff (fits : glance.Fits load before) :
    glance.status.closes = true ↔ ∃ snapshot, Concluded (load.id + 1) snapshot glance.past := by
  constructor
  · intro closes
    rcases fits.own with fresh | published
    · rw [Glance.status, fresh] at closes
      cases closes
    · exact ⟨_, published, closes⟩
  · rintro ⟨snapshot, concluded⟩
    rw [Glance.status, fits.ending snapshot concluded]
    exact concluded.2

theorem tells_iff (fits : glance.Fits load before) :
    glance.tells = true ↔ some glance.status ≠ latestStatus before ∧ glance.status.closes = true := by
  rw [Glance.tells, fits.notice]
  split
  next same => exact iff_of_false (by decide) fun new => new.1 same
  next new => rw [isClosing_notice, and_iff_right new]

end Glance.Fits

/-- Looks at the run of a program that was loaded, one after the other. -/
inductive Looks (load : Load) : List Glance → Prop
  | begin : Looks load []
  | look {before : List Glance} {glance : Glance} : Looks load before → glance.Fits load before →
      Looks load (before ++ [glance])

namespace Looks

theorem fits {after : List Glance} (looks : Looks load (before ++ glance :: after)) :
    glance.Fits load before := by
  generalize whole : before ++ glance :: after = glances at looks
  induction looks generalizing after with
  | begin => cases before <;> cases whole
  | @look earlier latest _ fits ih =>
    rcases List.eq_nil_or_concat after with rfl | ⟨between, last, rfl⟩
    · obtain ⟨rfl, same⟩ := List.append_inj' whole rfl
      obtain rfl := List.singleton_inj.mp same
      exact fits
    · rw [List.concat_eq_append, ← List.cons_append, ← List.append_assoc] at whole
      exact ih (List.append_inj' whole rfl).1

theorem fits_of_mem (looks : Looks load glances) (seen : glance ∈ glances) :
    ∃ before, glance.Fits load before := by
  obtain ⟨before, after, rfl⟩ := List.append_of_mem seen
  exact ⟨before, looks.fits⟩

/-- The end of a run that one look could see is what the last look has shown. -/
theorem latestStatus_of_concluded (looks : Looks load glances) (member : glance ∈ glances)
    {snapshot : Snapshot} (concluded : Concluded (load.id + 1) snapshot glance.past) :
    latestStatus glances = some snapshot.status := by
  cases looks with
  | begin => cases member
  | @look before last _ fits =>
    have shown : last.poll.snapshot = snapshot := by
      rcases List.mem_append.mp member with earlier | latest
      · exact fits.ending snapshot (concluded.mono (fits.past glance earlier))
      · obtain rfl := List.mem_singleton.mp latest
        exact fits.ending snapshot concluded
    simp [latestStatus, Glance.status, shown]

/-- What the last look has shown as the end of the run could be seen. -/
theorem ended_of_latestStatus (looks : Looks load glances) {status : Status}
    (latest : latestStatus glances = some status) (closes : status.closes = true) :
    Ended load glances := by
  cases looks with
  | begin => cases latest
  | @look before last _ fits =>
    obtain rfl : last.status = status := by simpa [latestStatus] using latest
    exact ⟨last, List.mem_append_right _ (List.mem_singleton_self last), fits.closes_iff.mp closes⟩

/-- A look tells the end of the run if it sees it and no look before could see it. -/
theorem tells_iff (looks : Looks load before) (fits : glance.Fits load before) :
    glance.tells = true ↔ ¬Ended load before ∧ glance.status.closes = true := by
  rw [fits.tells_iff]
  constructor
  · rintro ⟨new, closes⟩
    refine ⟨?_, closes⟩
    rintro ⟨earlier, member, snapshot, concluded⟩
    have shown := fits.ending snapshot (concluded.mono (fits.past earlier member))
    rw [looks.latestStatus_of_concluded member concluded, Glance.status, shown] at new
    exact new rfl
  · rintro ⟨unended, closes⟩
    exact ⟨fun same => unended (looks.ended_of_latestStatus same.symm closes), closes⟩

/-- The end of the run is told once if a look could see it, and else not at all. -/
theorem told_once (looks : Looks load glances) :
    (Ended load glances → glances.countP Glance.tells = 1) ∧
      (¬Ended load glances → glances.countP Glance.tells = 0) := by
  induction looks with
  | begin => exact ⟨fun ⟨_, member, _⟩ => (List.not_mem_nil member).elim, fun _ => rfl⟩
  | @look before glance looks fits ih =>
    rw [ended_concat, ← fits.closes_iff, List.countP_append, List.countP_singleton]
    by_cases ended : Ended load before
    · rw [ih.1 ended, if_neg fun tells => ((looks.tells_iff fits).mp tells).1 ended]
      exact ⟨fun _ => rfl, fun never => absurd (.inl ended) never⟩
    · rw [ih.2 ended, Nat.zero_add]
      exact ⟨fun either => if_pos ((looks.tells_iff fits).mpr ⟨ended, either.resolve_left ended⟩),
        fun never => if_neg fun tells => never (.inr ((looks.tells_iff fits).mp tells).2)⟩

end Looks

theorem Means.lastStatus {console later : Console} {line text : String}
    (means : Means console line (.go later text)) : later.lastStatus = console.lastStatus := by
  cases means <;> rfl

theorem refused_lastStatus (console : Console) (error : RestartError) :
    (if error = .poisoned then console.refused.1 else console).lastStatus = console.lastStatus := by
  split <;> rfl

theorem showOutput_lastStatus (console : Console) (output : Array UInt8) :
    (console.showOutput output).1.lastStatus = console.lastStatus := by
  unfold showOutput
  split <;> rfl

theorem poll_lastStatus (console : Console) (snapshot : Snapshot) :
    (console.poll snapshot).1.lastStatus = some snapshot.status := by
  simp only [poll, showStatus]
  split
  next same => exact same.symm
  next => rfl

theorem Watch.notice_eq (watch : Watch) : watch.notice =
    if some watch.system.look.status = watch.console.lastStatus then ""
      else Console.notice watch.system.look.status := by
  unfold Watch.notice showStatus
  rw [apply_ite Prod.snd, showOutput_lastStatus]

/-- The runs were looked at as they should be, and the console remembers its last look at the latest one. -/
structure Watch.Reports (watch : Watch) (reviews : List Review) (events : List Event) : Prop where
  looks : ∀ review ∈ reviews, Looks review.load review.glances
  past : ∀ review ∈ reviews, ∀ glance ∈ review.glances, glance.past <+: events
  latest : ∀ review ∈ reviews.head?, watch.console.lastStatus = latestStatus review.glances

namespace Watch.Reports

theorem start (watch : Watch) (events : List Event) : watch.Reports [] events := by
  refine ⟨List.forall_mem_nil _, List.forall_mem_nil _, ?_⟩
  intro review member
  cases member

theorem on (reports : watch.Reports reviews events)
    (same : later.console.lastStatus = watch.console.lastStatus) (more : List Event) :
    later.Reports reviews (events ++ more) := by
  refine ⟨reports.looks, ?_, fun review member => same.trans (reports.latest review member)⟩
  intro review member glance seen
  exact (reports.past review member glance seen).trans (List.prefix_append _ more)

theorem accept (reports : watch.Reports reviews events) (load : Load)
    (reset : later.console.lastStatus = none) : later.Reports (⟨load, []⟩ :: reviews) events := by
  refine ⟨List.forall_mem_cons.mpr ⟨.begin, reports.looks⟩,
    List.forall_mem_cons.mpr ⟨List.forall_mem_nil _, reports.past⟩, ?_⟩
  intro review member
  obtain rfl := Option.some.inj member
  exact reset

theorem poll {latest : Review} (reports : watch.Reports (latest :: reviews) events)
    (fits : glance.Fits latest.load latest.glances) (past : glance.past = events)
    (remembers : later.console.lastStatus = some glance.status) :
    later.Reports (⟨latest.load, latest.glances ++ [glance]⟩ :: reviews) events := by
  obtain ⟨looks, earlier⟩ := List.forall_mem_cons.mp reports.looks
  obtain ⟨before, earlier_past⟩ := List.forall_mem_cons.mp reports.past
  refine ⟨List.forall_mem_cons.mpr ⟨looks.look fits, earlier⟩,
    List.forall_mem_cons.mpr ⟨?_, earlier_past⟩, ?_⟩
  · intro other seen
    rcases List.mem_append.mp seen with old | now
    · exact before other old
    · obtain rfl := List.mem_singleton.mp now
      exact past ▸ List.prefix_refl _
  · intro review member
    obtain rfl := Option.some.inj member
    simp [remembers, latestStatus]

end Watch.Reports

theorem Review.note_happened (watch : Watch) (past events : List Event) (reviews : List Review) :
    (events.map Sight.happened).foldl (Review.note watch past) reviews = reviews := by
  induction events with
  | nil => rfl
  | cons event events ih => exact ih

/-- The next look at the latest run. -/
theorem Reviewing.fits {latest : Review}
    (reviewing : Reviewing (.start name input fallback stream) watch sights (latest :: reviews))
    (reports : watch.Reports (latest :: reviews) (happenings sights))
    (sound : watch.system.state.poisoned = false) (idle : watch.loading = none) :
    Glance.Fits latest.load latest.glances
      ⟨⟨watch.system.look, (watch.console.showOutput watch.system.look.output).2⟩,
        (watch.console.poll watch.system.look).1, (watch.console.poll watch.system.look).2,
        watch.notice, happenings sights⟩ := by
  obtain ⟨actions, begun, since, tenure, in_step, -⟩ := reviewing.watching.shows
  have history := tenure.schedule
  have met := in_step.idle_met idle
  rw [reviewing.showings_eq, List.map_cons, loads_cons] at met
  have charge : inCharge (rendezvous (happenings sights)) = latest.load.id + 1 := by
    rw [met]
    exact inCharge_concat _ _
  have look := history.look_of_sound sound
  rw [firstLook, if_neg (List.ne_nil_of_mem (inCharge_mem charge)), charge] at look
  have looked := reviewing.next .poll (Watch.perform?_poll idle)
  obtain ⟨_, _, _, -, -, shows⟩ := looked.watching.shows
  rw [looked.showings_eq] at shows
  obtain ⟨program, base, fed, longest, faithful, up, -⟩ := shows.latest _ rfl
  refine ⟨reports.past latest List.mem_cons_self, look, ?_, rfl, ?_, longest, ?_, up,
    faithful.prints.text⟩
  · rw [← charge]
    exact fun snapshot concluded => history.look_of_concluded sound concluded
  · rw [Watch.notice_eq, reports.latest latest rfl]
    rfl
  · refine faithful.prints.seen ⟨watch.system.look, _⟩ (List.mem_map.mpr ?_)
    exact ⟨_, List.mem_append_right _ (List.mem_singleton_self _), rfl⟩

/-- Nothing mends the state cell: if it is sound in the end, then it has been sound all the time. -/
theorem Reviewing.reports
    (reviewing : Reviewing (.start name input fallback stream) watch sights reviews)
    (sound : watch.system.state.poisoned = false) : watch.Reports reviews (happenings sights) := by
  induction reviewing with
  | start => exact .start _ _
  | @next current later seen sights reviews deed earlier step ih =>
    obtain ⟨actions, begun, since, tenure, -, -⟩ := earlier.watching.shows
    have orderly := tenure.schedule.orderly (.start name none stream)
    cases Watch.does step with
    | @live action system moment _ goes =>
      have before : current.system.state.poisoned = false := by
        rw [← Bool.not_eq_true]
        intro poisoned
        cases (System.poisoned_kept (orderly.moves goes) poisoned).symm.trans sound
      rw [Review.note_happened, (happened seen moment).2]
      refine (ih before).on ?_ moment
      rfl
    | command means =>
      rw [happenings_append]
      exact (ih sound).on means.lastStatus _
    | poll idle =>
      rw [happenings_of_quiet seen rfl]
      cases reviews with
      | nil => exact .start _ _
      | cons latest others =>
        exact (ih sound).poll (earlier.fits (ih sound) sound idle) rfl (poll_lastStatus _ _)
    | load =>
      rw [happenings_append]
      refine (ih sound).on ?_ _
      rfl
    | accept =>
      rw [happenings_of_quiet seen rfl]
      exact (ih sound).accept _ rfl
    | refuse =>
      rw [happenings_append]
      exact (ih sound).on (refused_lastStatus _ _) _

/-- Whatever the order of steps, commands, looks and loads, as long as nobody has poisoned the state cell:
a look at the run of a program that was loaded shows nothing but that run, and prints a notice about what
it shows or none. That the run is over is told once if a look could see it, and else not at all. It is told
as the run has published it, and when all output that was published with it has gone to the decoder. -/
theorem end_told_once
    (reviewing : Reviewing (.start name input fallback stream) watch sights reviews)
    (sound : watch.system.state.poisoned = false) :
    ∀ review ∈ reviews,
      (∀ glance ∈ review.glances, glance.past <+: happenings sights ∧
        (glance.poll.snapshot = .fresh .running ∨
          PublishedAs (review.load.id + 1) glance.poll.snapshot glance.past) ∧
        glance.printed = glance.poll.text ++ glance.notice ∧
        (glance.notice = "" ∨ glance.notice = notice glance.status)) ∧
      (Ended review.load review.glances → review.glances.countP Glance.tells = 1) ∧
      (¬Ended review.load review.glances → review.glances.countP Glance.tells = 0) ∧
      ∀ before glance after, review.glances = before ++ glance :: after → glance.tells = true →
        Concluded (review.load.id + 1) glance.poll.snapshot glance.past ∧
        glance.notice = notice glance.status ∧
        ∃ longest, glance.poll.snapshot.output.toList <+: longest ∧ glance.console.UpTo longest ∧
          (Review.showing ⟨review.load, before ++ [glance]⟩).printed.toList =
            (Utf8.Decoder.ready.run longest).1 := by
  intro review member
  have reports := reviewing.reports sound
  have looks := reports.looks review member
  refine ⟨?_, looks.told_once.1, looks.told_once.2, ?_⟩
  · intro glance seen
    obtain ⟨before, fits⟩ := looks.fits_of_mem seen
    refine ⟨reports.past review member glance seen, fits.own, fits.printed, ?_⟩
    rw [fits.notice]
    split
    next => exact .inl rfl
    next => exact .inr rfl
  · intro before glance after split tells
    rw [split] at looks
    have fits := looks.fits
    obtain ⟨new, closes⟩ := fits.tells_iff.mp tells
    obtain ⟨snapshot, concluded⟩ := fits.closes_iff.mp closes
    refine ⟨?_, fits.notice.trans (if_neg new), fits.output⟩
    rw [fits.ending snapshot concluded]
    exact concluded

/-- A program that fails behind a byte of output is loaded three times. The console looks three times at
the first run, twice of them at its end, at the second run only before its end, and at the third run only
at its end. -/
def looksAtFailures : List Deed :=
  [List.replicate 4 (.live .work), [.load [46, 93]], List.replicate 8 (.live (.proceed 0)), [.finish],
    List.replicate 8 (.live .work), [.poll], List.replicate 6 (.live .work), [.poll, .poll],
    [.load [46, 93]], List.replicate 8 (.live (.proceed 1)), [.finish],
    List.replicate 8 (.live .work), [.poll], List.replicate 6 (.live .work),
    [.load [46, 93]], List.replicate 8 (.live (.proceed 2)), [.finish],
    List.replicate 14 (.live .work), [.poll]].flatten

/-- All three runs end with the same status, and each of them that has been looked at then is told once. -/
theorem end_told_once_at_failures :
    ∃ watch sights reviews,
      Reviewing (.start "worker" [] none .empty) watch sights reviews ∧
      watch.system.state.poisoned = false ∧
      reviews.map (fun review => review.glances.map Glance.notice) =
        [["\n[ERROR] mismatched brackets\n"], [""], ["", "\n[ERROR] mismatched brackets\n", ""]] ∧
      ∀ review ∈ reviews,
        (Ended review.load review.glances → review.glances.countP Glance.tells = 1) ∧
        (¬Ended review.load review.glances → review.glances.countP Glance.tells = 0) := by
  have run : ((Watch.start "worker" [] none .empty).review [] [] looksAtFailures).map (fun last =>
      (last.1.system.state.poisoned,
        last.2.2.map fun review => review.glances.map Glance.notice)) =
      some (false, [["\n[ERROR] mismatched brackets\n"], [""],
        ["", "\n[ERROR] mismatched brackets\n", ""]]) := by decide +kernel
  obtain ⟨⟨watch, sights, reviews⟩, reviewed, seen⟩ := Option.map_eq_some_iff.mp run
  obtain ⟨sound, notices⟩ := Prod.mk.inj seen
  have reviewing := Reviewing.start.review reviewed
  refine ⟨watch, sights, reviews, reviewing, sound, notices, ?_⟩
  intro review member
  obtain ⟨-, once, never, -⟩ := end_told_once reviewing sound review member
  exact ⟨once, never⟩

end TapeMachine.Console
