import TapeMachine.Proofs.Console.Loading
import TapeMachine.Proofs.Live.Looks

namespace TapeMachine.Console

open Live

variable {name : String} {input : List UInt8} {fallback : Option Int} {stream base : ByteStream}
  {watch : Watch} {sights : List Sight} {shown : List Showing} {actions since : List Action}
  {events moment : List Event} {action : Action} {begun next : System} {load : Load}
  {program : Program} {fed : List StreamItem} {longest : List UInt8} {showing : Showing}
  {one two : Snapshot}

/-- What can be seen of the run of a program that was loaded: the fresh state, what the worker has
published about it, which the program goes through, or that the state cell is poisoned. -/
def Visible (load : Load) (program : Program) (base : ByteStream) (fed : List StreamItem)
    (events : List Event) (snapshot : Snapshot) : Prop :=
  snapshot = .fresh .running ∨
    (Shown program base fed snapshot ∧ PublishedAs (load.id + 1) snapshot events) ∨
      snapshot = .fresh (.fatal poisonedMessage)

theorem Visible.before (visible : Visible load program base fed events one)
    (items : List StreamItem) (more : List Event) :
    Visible load program base (fed ++ items) (events ++ more) one :=
  visible.imp_right (Or.imp_left fun ⟨shown, published⟩ =>
    ⟨shown.later items, published.before more⟩)

theorem Visible.comparable (visible : Visible load program base fed events one)
    (also_visible : Visible load program base fed events two) :
    one.output.toList <+: two.output.toList ∨ two.output.toList <+: one.output.toList := by
  rcases visible with rfl | ⟨shown, -⟩ | rfl
  · exact .inl List.nil_prefix
  · rcases also_visible with rfl | ⟨also_shown, -⟩ | rfl
    · exact .inr List.nil_prefix
    · exact shown.comparable also_shown
    · exact .inr List.nil_prefix
  · exact .inl List.nil_prefix

/-- What a look shows as long as the program that was loaded is in charge. -/
theorem Visible.look
    (tenure : Tenure (.start name none stream) actions watch.system events begun since)
    (charge : inCharge (rendezvous events) = load.id + 1)
    (known : handedIn actions load.id = some program) :
    Visible load program begun.stream (itemsFed since) events watch.system.look := by
  have some_met := List.ne_nil_of_mem (inCharge_mem charge)
  have in_charge : programOf none actions (inCharge (rendezvous events)) = some program := by
    rw [charge]
    exact known
  have serving := tenure.serving in_charge
  have source := tenure.schedule.sourced.look
  rw [firstLook, if_neg some_met] at serving source
  rw [charge] at source
  rcases source with fresh | published | fatal
  · exact .inl fresh
  · exact serving.look.imp_right (Or.imp (fun shown => ⟨shown, published⟩) And.right)
  · exact .inr (.inr fatal)

/-- Every look at the run has shown the program that was loaded, and what was printed is what the looks
have seen. -/
structure Showing.Faithful (program : Program) (base : ByteStream) (fed : List StreamItem)
    (events : List Event) (longest : List UInt8) (showing : Showing) : Prop where
  asked : showing.load.request.program = .ok program
  looks : ∀ poll ∈ showing.polls, Visible showing.load program base fed events poll.snapshot
  prints : showing.Prints longest

theorem Showing.Faithful.before (faithful : showing.Faithful program base fed events longest)
    (items : List StreamItem) (more : List Event) :
    showing.Faithful program base (fed ++ items) (events ++ more) longest :=
  ⟨faithful.asked, fun poll member => (faithful.looks poll member).before items more, faithful.prints⟩

theorem Showing.Faithful.comparable (faithful : showing.Faithful program base fed events longest)
    (visible : Visible showing.load program base fed events one) :
    one.output.toList <+: longest ∨ longest <+: one.output.toList := by
  rcases faithful.prints.reached with rfl | ⟨poll, member, rfl⟩
  · exact .inr List.nil_prefix
  · exact visible.comparable (faithful.looks poll member)

def Showing.Recorded (events : List Event) (showing : Showing) : Prop :=
  ∃ program base fed longest, showing.Faithful program base fed events longest

theorem Showing.Recorded.before (recorded : showing.Recorded events) (more : List Event) :
    showing.Recorded (events ++ more) := by
  obtain ⟨program, base, fed, longest, faithful⟩ := recorded
  exact ⟨program, base, fed ++ [], longest, faithful.before [] more⟩

/-- All runs were shown faithfully, and the latest one is shown up to now: as long as no other program
has had its rendezvous, what is seen is still that run. -/
structure Watch.Shows (watch : Watch) (shown : List Showing) (actions : List Action)
    (events : List Event) (begun : System) (since : List Action) : Prop where
  latest : ∀ showing ∈ shown.head?, ∃ program base fed longest,
    showing.Faithful program base fed events longest ∧ watch.console.UpTo longest ∧
      (rendezvous events = loads shown → handedIn actions showing.load.id = some program ∧
        base = begun.stream ∧ fed = itemsFed since)
  earlier : ∀ showing ∈ shown.tail, showing.Recorded events

namespace Watch.Shows

theorem start (watch : Watch) (actions since : List Action) (events : List Event) (begun : System) :
    watch.Shows [] actions events begun since := by
  refine ⟨?_, ?_⟩
  · intro showing member
    cases member
  · intro showing member
    cases member

theorem quiet (shows : watch.Shows shown actions events begun since) (apart : rendezvous moment = []) :
    { watch with system := next }.Shows shown (actions ++ [action]) (events ++ moment) begun
      (since ++ [action]) := by
  refine ⟨?_, fun showing member => (shows.earlier showing member).before moment⟩
  intro showing member
  obtain ⟨program, base, fed, longest, faithful, up, present⟩ := shows.latest showing member
  refine ⟨program, base, fed ++ itemsFed [action], longest, faithful.before _ moment, up, ?_⟩
  intro met
  rw [rendezvous_append, apart, List.append_nil] at met
  obtain ⟨known, rfl, rfl⟩ := present met
  exact ⟨handedIn_append known _, rfl, (itemsFed_append since [action]).symm⟩

/-- After the next rendezvous a run is not looked at any more. -/
theorem meet (shows : watch.Shows shown actions events begun since)
    (step : watch.InStep shown actions events) (some_met : rendezvous moment ≠ []) :
    { watch with system := next }.Shows shown (actions ++ [action]) (events ++ moment) next [] := by
  refine ⟨?_, fun showing member => (shows.earlier showing member).before moment⟩
  intro showing member
  obtain ⟨program, base, fed, longest, faithful, up, -⟩ := shows.latest showing member
  refine ⟨program, base, fed ++ [], longest, faithful.before [] moment, up, ?_⟩
  intro met
  have more := List.length_pos_iff.mpr some_met
  have length := congrArg List.length met
  rw [rendezvous_append, List.length_append] at length
  rcases step.met with before | ⟨load, -, before⟩ <;>
    simp only [before, List.length_append, List.length_singleton] at length <;>
    omega

theorem on (shows : watch.Shows shown actions events begun since) {console : Console}
    {loading : Option Load} (same : watch.console.PrintsOn console) :
    (⟨console, watch.system, loading⟩ : Watch).Shows shown actions events begun since := by
  refine ⟨?_, shows.earlier⟩
  intro showing member
  obtain ⟨program, base, fed, longest, faithful, up, present⟩ := shows.latest showing member
  exact ⟨program, base, fed, longest, faithful, up.on same, present⟩

theorem all (shows : watch.Shows shown actions events begun since) :
    ∀ showing ∈ shown, showing.Recorded events := by
  intro showing member
  cases shown with
  | nil => cases member
  | cons latest earlier =>
    rcases List.mem_cons.mp member with rfl | old
    · obtain ⟨program, base, fed, longest, faithful, -⟩ := shows.latest showing rfl
      exact ⟨program, base, fed, longest, faithful⟩
    · exact shows.earlier showing old

theorem accept (shows : watch.Shows shown actions events begun since)
    (step : watch.InStep shown actions events) (busy : watch.loading = some load)
    (known : handedIn actions load.id = some program) :
    (⟨watch.console.loaded load.code, watch.system, none⟩ : Watch).Shows (⟨load, []⟩ :: shown)
      actions events begun since := by
  refine ⟨?_, shows.all⟩
  intro showing member
  obtain rfl := Option.some.inj member
  have asked := program_of_handedIn (step.asked load busy).1 known
  refine ⟨program, begun.stream, itemsFed since, [], ⟨asked, ?_, .begin load⟩, .loaded _ _, ?_⟩
  · intro poll member
    cases member
  · intro _
    exact ⟨known, rfl, rfl⟩

/-- One look more. -/
theorem poll (shows : watch.Shows shown actions events begun since)
    (tenure : Tenure (.start name none stream) actions watch.system events begun since)
    (met : rendezvous events = loads shown) :
    { watch with console := (watch.console.poll watch.system.look).1 }.Shows
      (Showing.note shown (.polled
        ⟨watch.system.look, (watch.console.showOutput watch.system.look.output).2⟩))
      actions events begun since := by
  cases shown with
  | nil => exact .start _ _ _ _ _
  | cons latest earlier =>
    refine ⟨?_, shows.earlier⟩
    intro showing member
    obtain rfl := Option.some.inj member
    obtain ⟨program, base, fed, longest, faithful, up, present⟩ := shows.latest latest rfl
    obtain ⟨known, rfl, rfl⟩ := present met
    have charge : inCharge (rendezvous events) = latest.load.id + 1 := by
      rw [met, loads_cons, inCharge_concat]
    have visible := Visible.look tenure charge known
    obtain ⟨further, prints, shown_on⟩ := faithful.prints.poll up (faithful.comparable visible)
    refine ⟨program, begun.stream, itemsFed since, further, ⟨faithful.asked, ?_, prints⟩, shown_on, ?_⟩
    · intro poll member
      rcases List.mem_append.mp member with old | now
      · exact faithful.looks poll old
      · obtain rfl := List.mem_singleton.mp now
        exact visible
    · intro _
      exact ⟨known, rfl, rfl⟩

end Watch.Shows

/-- Whatever happens, the restarts are those of the console, and all runs are shown faithfully. -/
theorem Watching.shows (watching : Watching (.start name input fallback stream) watch sights) :
    ∃ actions begun since,
      Tenure (.start name none stream) actions watch.system (happenings sights) begun since ∧
        watch.InStep (showings sights) actions (happenings sights) ∧
        watch.Shows (showings sights) actions (happenings sights) begun since := by
  induction watching with
  | start => exact ⟨[], _, [], .start, .start .., .start ..⟩
  | @next current later seen sights deed _ step ih =>
    obtain ⟨actions, begun, since, tenure, in_step, shows⟩ := ih
    have history := tenure.schedule
    have isolated := history.isolated (.start name none stream)
    have genuine := history.genuine (.start name none stream) (.start name none stream)
    rw [List.nil_append] at isolated genuine
    cases Watch.does step with
    | @live action later moment no_restart goes =>
      have on := in_step.live isolated (isolated.orderly.moves goes) no_restart
      obtain ⟨shown_same, noted⟩ := happened seen moment
      rw [shown_same, noted]
      by_cases apart : rendezvous moment = []
      · exact ⟨_, _, _, tenure.quiet action goes apart, on, shows.quiet apart⟩
      · exact ⟨_, _, _, tenure.meet action goes apart, on, shows.meet in_step apart⟩
    | command means =>
      rw [List.append_nil]
      exact ⟨_, _, _, tenure, in_step.beside _, shows.on means.printsOn⟩
    | poll idle =>
      have met := in_step.idle_met idle
      rw [showings_append, happenings_of_quiet seen rfl]
      exact ⟨_, _, _, tenure, in_step.poll _ _, shows.poll tenure met⟩
    | @load load idle number =>
      have made : current.system.perform? (.requestRestart load.request) =
          some (current.system.addCall (.ofRequest load.request), []) := rfl
      rw [showings_append, happenings_append]
      refine ⟨_, _, _, tenure.quiet _ made rfl, ?_, (shows.quiet rfl).on ⟨rfl, rfl⟩⟩
      have begins := in_step.begin isolated genuine idle number
      rwa [← List.append_nil (happenings seen)] at begins
    | accept busy call =>
      have met := history.met_of_succeeded call
      obtain ⟨program, known⟩ := history.handedIn_of_met met
      rw [showings_append, happenings_of_quiet seen rfl]
      exact ⟨_, _, _, tenure, in_step.accept busy call met, shows.accept in_step busy known⟩
    | refuse busy call =>
      have unmet := history.unmet_of_failed call
      rw [List.append_nil]
      exact ⟨_, _, _, tenure, in_step.refuse busy call unmet, shows.on (refused_printsOn _ _)⟩

/-- Whatever the order of steps, commands, looks and loads, and however the loads end: the looks at the
run of a program that was loaded have shown nothing but that run. `longest` is the longest output that
they have seen, and what they have printed together is its lossy reading, in which one character
replaces each maximal subpart of what is no text, up to the unfinished end of the output. Without such
an end it is the text of the snapshot. -/
theorem output_printed_once
    (watching : Watching (.start name input fallback stream) watch sights) :
    ∀ showing ∈ showings sights, ∃ program base fed longest pending,
      showing.load.request.program = .ok program ∧
      (∀ poll ∈ showing.polls,
        Visible showing.load program base fed (happenings sights) poll.snapshot ∧
          poll.snapshot.output.toList <+: longest) ∧
      (longest = [] ∨ ∃ poll ∈ showing.polls, poll.snapshot.output.toList = longest) ∧
      Utf8.OpenEnd pending longest ∧ Utf8.Reads longest showing.printed.toList pending ∧
      (pending = [] → ∀ poll ∈ showing.polls, poll.snapshot.output.toList = longest →
        showing.printed = poll.snapshot.text) := by
  intro showing member
  obtain ⟨actions, begun, since, -, -, shows⟩ := watching.shows
  obtain ⟨program, base, fed, longest, faithful⟩ := shows.all showing member
  obtain ⟨pending, -, reads, ends⟩ := Utf8.Decoder.run_open_end longest
  rw [← faithful.prints.text] at reads
  refine ⟨program, base, fed, longest, pending, faithful.asked, ?_, faithful.prints.reached, ends,
    reads, ?_⟩
  · intro poll member
    exact ⟨faithful.looks poll member, faithful.prints.seen poll member⟩
  · rintro rfl poll - rfl
    exact String.toList_inj.mp (Utf8.reads_iff.mp reads)

/-- A character of three bytes is written twice: the first run is replaced when one byte of it has been
seen, the second one is seen after two bytes and at its end. -/
def looksWithinCharacter : List Deed :=
  [List.replicate 4 (.live .work), [.load [44, 46, 44, 46, 44, 46]],
    List.replicate 8 (.live (.proceed 0)), [.finish], List.replicate 13 (.live .work), [.poll],
    [.load [44, 46, 44, 46, 44, 46]], List.replicate 5 (.live (.proceed 1)),
    List.replicate 9 (.live .work), List.replicate 3 (.live (.proceed 1)), [.finish],
    List.replicate 16 (.live .work), [.poll], List.replicate 15 (.live .work), [.poll]].flatten

/-- The byte that the first run has left in the decoder is not printed, and the character that the looks
at the second run have cut is. -/
theorem output_printed_once_within_character :
    ∃ watch sights,
      Watching (.start "worker" [0xE2, 0x82, 0xAC] (some 0) .empty) watch sights ∧
      (showings sights).map (fun showing => showing.polls.map Poll.text) = [["", "€"], [""]] ∧
      (showings sights).map Showing.printed = ["€", ""] ∧
      ∀ showing ∈ showings sights, ∃ longest pending,
        (∀ poll ∈ showing.polls, poll.snapshot.output.toList <+: longest) ∧
        (longest = [] ∨ ∃ poll ∈ showing.polls, poll.snapshot.output.toList = longest) ∧
        Utf8.OpenEnd pending longest ∧ Utf8.Reads longest showing.printed.toList pending := by
  have run : ((Watch.start "worker" [0xE2, 0x82, 0xAC] (some 0) .empty).follow
      looksWithinCharacter).map (fun last =>
        ((showings last.2).map (fun showing => showing.polls.map Poll.text),
          (showings last.2).map Showing.printed)) = some ([["", "€"], [""]], ["€", ""]) := by
    decide +kernel
  obtain ⟨⟨watch, sights⟩, followed, seen⟩ := Option.map_eq_some_iff.mp run
  obtain ⟨texts, printed⟩ := Prod.mk.inj seen
  have watching := Watching.of_follow followed
  refine ⟨watch, sights, watching, texts, printed, ?_⟩
  intro showing member
  obtain ⟨program, base, fed, longest, pending, -, looks, reached, ends, reads, -⟩ :=
    output_printed_once watching showing member
  exact ⟨longest, pending, fun poll member => (looks poll member).2, reached, ends, reads⟩

/-- Two bytes that would begin a surrogate are written, and then the console looks. -/
def looksAfterSurrogate : List Deed :=
  [List.replicate 4 (.live .work), [.load [44, 46, 44, 46]],
    List.replicate 8 (.live (.proceed 0)), [.finish], List.replicate 28 (.live .work),
    [.poll]].flatten

/-- What the decoder withholds need not be the beginning of a character: the first two bytes of a
surrogate are no text, and are read as two replacements, but they have not been printed. -/
theorem surrogate_start_withheld :
    ∃ watch sights showing poll,
      Watching (.start "worker" [0xED, 0xA0] (some 0) .empty) watch sights ∧
      showings sights = [showing] ∧ showing.polls = [poll] ∧
      poll.snapshot.output.toList = [0xED, 0xA0] ∧
      (∀ tail, tail <:+ [0xED, 0xA0] → ¬Utf8.Incomplete tail) ∧
      showing.printed ≠ poll.snapshot.text ∧
      ¬∃ pending, (pending = [] ∨ Utf8.Incomplete pending) ∧
        Utf8.Reads [0xED, 0xA0] showing.printed.toList pending := by
  have run : ((Watch.start "worker" [0xED, 0xA0] (some 0) .empty).follow looksAfterSurrogate).map
      (fun last => (showings last.2).map fun showing => (showing.printed,
        showing.polls.map fun poll => (poll.snapshot.output.toList, poll.snapshot.text))) =
      some [("", [([0xED, 0xA0], "\uFFFD\uFFFD")])] := by decide +kernel
  obtain ⟨⟨watch, sights⟩, followed, seen⟩ := Option.map_eq_some_iff.mp run
  obtain ⟨showing, others, only, facts, no_others⟩ := List.map_eq_cons_iff.mp seen
  obtain ⟨printed, looks⟩ := Prod.mk.inj facts
  obtain ⟨poll, more, one, shown, no_more⟩ := List.map_eq_cons_iff.mp looks
  obtain ⟨output, text⟩ := Prod.mk.inj shown
  obtain rfl := List.map_eq_nil_iff.mp no_others
  obtain rfl := List.map_eq_nil_iff.mp no_more
  have surrogate : ¬Utf8.Incomplete [0xED, 0xA0] := by
    intro incomplete
    obtain ⟨c, starts⟩ := incomplete.prefix_of
    exact Utf8.opens_ED.ends (by decide) c starts
  refine ⟨watch, sights, showing, poll, .of_follow followed, only, one, output, ?_, ?_, ?_⟩
  · intro tail ends incomplete
    rcases List.suffix_cons_iff.mp ends with rfl | ends
    · exact surrogate incomplete
    · rcases List.suffix_cons_iff.mp ends with rfl | ends
      · obtain ⟨c, starts⟩ := incomplete.prefix_of
        exact Utf8.not_lead (.inl (by decide)) c starts
      · exact incomplete.1 (List.suffix_nil.mp ends)
  · rw [printed, text]
    decide
  · rintro ⟨pending, unfinished, reads⟩
    rw [printed] at reads
    generalize characters : "".toList = read at reads
    cases reads with
    | start => exact unfinished.elim nofun surrogate
    | next => cases characters

end TapeMachine.Console
