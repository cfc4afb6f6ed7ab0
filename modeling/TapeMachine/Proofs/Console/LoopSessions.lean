import TapeMachine.Proofs.Console.LineHandling
import TapeMachine.Proofs.Console.Sitting

namespace TapeMachine

/-- A restart that has not ended. -/
def Live.Call.underWay : Call → Bool
  | restart stage => !stage.over
  | shutdown _ => false

namespace Console

def Act.reply? : Act → Option Reply
  | .reply given => some given
  | _ => none

/-- What came back from the prompts. -/
def repliesIn (acts : List Act) : List Reply := acts.filterMap Act.reply?

/-- A loop comes to another place with these replies. -/
def Proceeds (initial : Sitting) (replies : List Reply) (sitting : Sitting) : Prop :=
  ∃ acts, Sits initial acts sitting ∧ repliesIn acts = replies

variable {console : Console} {loading : Option Load} {place : Place} {initial middle sitting : Sitting}
  {replies more : List Reply}

theorem Proceeds.trans (first : Proceeds initial replies middle)
    (second : Proceeds middle more sitting) : Proceeds initial (replies ++ more) sitting := by
  obtain ⟨acts, sits, rfl⟩ := first
  obtain ⟨further, onward, rfl⟩ := second
  exact ⟨acts ++ further, sits.trans onward, List.filterMap_append⟩

theorem Proceeds.quiet (first : Proceeds initial replies middle) (second : Proceeds middle [] sitting) :
    Proceeds initial replies sitting := by
  rw [← List.append_nil replies]
  exact first.trans second

theorem Proceeds.single (act : Act) (step : initial.perform? act = some sitting) :
    Proceeds initial (repliesIn [act]) sitting :=
  ⟨[act], .single act step, rfl⟩

theorem Proceeds.reaches (proceeds : Proceeds initial replies sitting) :
    Reaches initial.watch sitting.watch := by
  obtain ⟨acts, sits, -⟩ := proceeds
  exact sits.reaches

theorem Sitting.perform?_live {action : Live.Action} (no_call : action.call? = none)
    {system later : Live.System} {events : List Live.Event}
    (step : system.perform? action = some (later, events)) :
    Sitting.perform? ⟨⟨console, system, loading⟩, place⟩ (.live action) =
      some ⟨⟨console, later, loading⟩, place⟩ := by
  cases action with
  | requestRestart | requestShutdown => cases no_call
  | work | proceed | poisonState | poisonProgram | feed =>
    simp [perform?, Watch.perform?, step]

theorem proceeds_kept (initial : Sitting) (replies : List Reply) (console : Console)
    (loading : Option Load) (place : Place) :
    Kept fun system => Proceeds initial replies ⟨⟨console, system, loading⟩, place⟩ := by
  intro action system later events no_call step proceeded
  exact proceeded.quiet (.single (.live action) (Sitting.perform?_live no_call step))

/-- Where a loop goes when a line has been handled. -/
def Place.ofResult : LineResult → Place
  | .handled => head
  | .left code => leaving (.ok code)
  | .failed error => leaving (.error error)

namespace Session

/-- Every restart has ended. -/
def answered (session : Session) : Bool :=
  session.live.system.calls.all fun call => !call.underWay

theorem ofResult_load (budget : Nat) (session : Session) (code : List UInt8)
    {result : Except Live.RestartError Unit}
    (answer : (session.live.restart budget (session.watch.loadOf code).request).1 = answerFor result) :
    Place.ofResult (session.load budget code).1 = .afterLoad result := by
  simp only [Watch.loadOf, watch, Load.request] at answer
  unfold load
  simp only [answer]
  rcases result with error | ⟨⟩
  · cases error <;> rfl
  · rfl

/-- A restart that has been made has ended when all have. -/
theorem finished_of_answered (budget : Nat) (live : Live.Session) (request : Request)
    (orderly : live.system.Orderly)
    (answered : ((live.restart budget request).2.system.calls.all fun call => !call.underWay) = true) :
    ∃ result, (live.restart budget request).2.system.calls[live.system.calls.length]? =
      some (.restart (.finished result)) := by
  have kept : Kept fun system => system.Orderly ∧ ∃ stage : Live.RestartStage,
      system.calls[live.system.calls.length]? = some (.restart stage) := by
    rintro action system later events - step ⟨orderly, stage, call⟩
    have moves := orderly.moves step
    obtain ⟨next, after, -⟩ := Live.System.restart_next call moves
    exact ⟨orderly.step moves, next, after⟩
  have there : ∃ stage : Live.RestartStage,
      (live.system.addCall (.ofRequest request)).calls[live.system.calls.length]? =
        some (.restart stage) := by
    simp only [Live.System.addCall, List.getElem?_concat_length, Live.Call.ofRequest]
    split <;> exact ⟨_, rfl⟩
  obtain ⟨-, stage, call⟩ := settle_kept kept budget
    { live with system := live.system.addCall (.ofRequest request) } ⟨orderly.add_restart request, there⟩
  have ended := List.all_eq_true.mp answered _ (List.mem_of_getElem? call)
  cases stage with
  | finished result => exact ⟨result, call⟩
  | _ => cases ended

/-- Loading a program is a reply, steps of the execution, and the end of the load. -/
theorem load_proceeds (budget : Nat) (session : Session) {code : List UInt8} {text : String}
    (orderly : session.live.system.Orderly) (some_text : text.toList.all isBlank = false)
    (meaning : session.console.interpret session.live.system.look text = .load code)
    (answered : (session.load budget code).2.1.answered = true) :
    Proceeds ⟨session.watch, .prompting⟩ [.line text]
      ⟨(session.load budget code).2.1.watch, .ofResult (session.load budget code).1⟩ := by
  have made : Sitting.perform? ⟨session.watch, .prompting⟩ (.reply (.line text)) =
      some ⟨⟨session.console,
        session.live.system.addCall (.ofRequest (session.watch.loadOf code).request),
        some (session.watch.loadOf code)⟩, .loading⟩ := by
    simp [Sitting.perform?, Sitting.take?, some_text, watch, meaning, Watch.perform?, Watch.loadOf]
  have settled := settle_kept (proceeds_kept ⟨session.watch, .prompting⟩ [.line text] session.console
    (some (session.watch.loadOf code)) .loading) budget { session.live with
      system := session.live.system.addCall (.ofRequest (session.watch.loadOf code).request) }
    (.single (.reply (.line text)) made)
  rw [Session.answered, load_live] at answered
  obtain ⟨result, call⟩ := finished_of_answered budget session.live _ orderly answered
  have answer := answerOf_finished call
  rw [load_finish budget session code answer, ofResult_load budget session code answer]
  have ended := @Watch.answer_of_call (session.loadingWatch budget code) (session.watch.loadOf code) _
    call
  exact settled.quiet (.single .finish (congrArg (Option.map _) ended))

/-- Handling a line is a reply, and what it leads to. -/
theorem enter_proceeds (budget : Nat) (session : Session) (text : String) (hold : Option Nat)
    (orderly : session.live.system.Orderly) (some_text : text.toList.all isBlank = false)
    (answered : (session.enter budget text hold).2.1.answered = true) :
    Proceeds ⟨session.watch, .prompting⟩ [.line text]
      ⟨(session.enter budget text hold).2.1.watch, .ofResult (session.enter budget text hold).1⟩ := by
  have step (sitting : Sitting) (taken : Sitting.take? ⟨session.watch, .prompting⟩ (.line text) =
      some sitting) : Proceeds ⟨session.watch, .prompting⟩ [.line text] sitting :=
    .single (.reply (.line text)) taken
  rcases meaning : session.console.interpret session.live.system.look text with
    ⟨console, said⟩ | code | code | _
  all_goals simp only [enter, Live.Session.holdLater, meaning] at answered ⊢
  · refine step _ ?_
    simp [Sitting.take?, some_text, watch, meaning, Place.ofResult]
  · exact load_proceeds budget { session with live := session.live.holdLater hold } orderly some_text
      meaning answered
  · refine step _ ?_
    simp [Sitting.take?, some_text, watch, meaning, Place.ofResult]
  · refine step _ ?_
    simp [Sitting.take?, some_text, watch, meaning, Place.ofResult]

end Session

def Entry.reply : Entry → Reply
  | line text _ _ => .line text
  | interrupt => .interrupt
  | endOfInput => .endOfInput

namespace Loop

/-- Cells that are poisoned before a line is handled. -/
def poison (budget : Nat) (session : Session) (cells : List Live.CellName) : Session :=
  cells.foldl (fun session cell => session.outside budget (.poison cell)) session

theorem poisoned_kept {holds : Live.System → Prop} (kept : Kept holds) (budget : Nat)
    (cells : List Live.CellName) (session : Session) (first : holds session.live.system) :
    (poison budget session cells).console = session.console ∧
      holds (poison budget session cells).live.system := by
  induction cells generalizing session with
  | nil => exact ⟨rfl, first⟩
  | cons cell cells ih =>
    exact ih (session.outside budget (.poison cell)) (poison_kept kept budget session.live cell first)

theorem orderly_kept : Kept Live.System.Orderly := by
  rintro action system later events - step orderly
  exact orderly.step (orderly.moves step)

/-- What is entered at a prompt is a reply, and what it leads to. -/
theorem handle_proceeds (budget : Nat) (session : Session) (text : String)
    (cells : List Live.CellName) (hold : Option Nat) (orderly : session.live.system.Orderly)
    (answered : (handle budget session text cells hold).2.1.answered = true) :
    Proceeds ⟨session.watch, .prompting⟩ [.line text]
      ⟨(handle budget session text cells hold).2.1.watch,
        .ofResult (handle budget session text cells hold).1⟩ := by
  obtain ⟨console, proceeded⟩ := poisoned_kept (proceeds_kept ⟨session.watch, .prompting⟩ []
    session.console none .prompting) budget cells session ⟨[], .start, rfl⟩
  have poisoned : Proceeds ⟨session.watch, .prompting⟩ []
      ⟨(poison budget session cells).watch, .prompting⟩ := by
    rwa [← console] at proceeded
  unfold handle at answered ⊢
  simp only at answered ⊢
  split
  · rename_i blank
    refine poisoned.trans (.single (.reply (.line text)) ?_)
    simp only [Sitting.perform?, Sitting.take?, blank, if_true]
    rfl
  · rename_i some_text
    rw [if_neg some_text] at answered
    have still := (poisoned_kept orderly_kept budget cells session orderly).2
    exact poisoned.trans (Session.enter_proceeds budget _ text hold still (by simpa using some_text)
      answered)

/-- An entry is a reply, and what it leads to. -/
theorem turn_proceeds (budget : Nat) (session : Session) (entry : Entry)
    (orderly : session.live.system.Orderly) :
    match turn budget session entry with
    | .next later _ => later.answered = true →
      Proceeds ⟨session.watch, .prompting⟩ [entry.reply] ⟨later.watch, .head⟩
    | .done later _ result => later.answered = true →
      Proceeds ⟨session.watch, .prompting⟩ [entry.reply] ⟨later.watch, .leaving result⟩ := by
  cases entry with
  | endOfInput =>
    intro _
    exact .single (.reply .endOfInput) rfl
  | interrupt =>
    intro _
    exact .single (.reply .interrupt) rfl
  | line text cells hold =>
    have proceeds := handle_proceeds budget session text cells hold orderly
    rcases handled : handle budget session text cells hold with ⟨result, later, printed⟩
    rw [handled] at proceeds
    cases result <;> simp only [turn, handled] <;> exact proceeds

/-- Every restart that a loop makes has ended before the next prompt, and before the loop is left. -/
def unhurried (budget : Nat) : Session → List Entry → Bool
  | _, [] => true
  | session, entry :: entries =>
    match turn budget session.poll.1 entry with
    | .next later _ => later.answered && unhurried budget later entries
    | .done later _ _ => later.answered

variable {name : String} {input : List UInt8} {fallback : Option Int} {stream : ByteStream}

theorem left_at_head {session : Session} (fatal : session.console.fatal.isSome = true) :
    Proceeds ⟨session.watch, .head⟩ [] ⟨session.watch, .leaving (.ok 1)⟩ := by
  refine .single .check ?_
  simp [Sitting.perform?, Session.watch, fatal]

/-- From its head a loop comes to a prompt, where the console looks. -/
theorem prompts_at_head {session : Session} (going : ¬ session.console.fatal.isSome = true) :
    Proceeds ⟨session.watch, .head⟩ [] ⟨session.poll.1.watch, .prompting⟩ := by
  have checks : Sitting.perform? ⟨session.watch, .head⟩ .check = some ⟨session.watch, .prompting⟩ := by
    simp [Sitting.perform?, Session.watch, going]
  exact (Proceeds.single .check checks).trans (.single .poll rfl)

/-- From its head a loop comes to where it is left, and what it is told is the beginning of what is entered,
after which the input ends. -/
theorem goOn_proceeds (budget : Nat) (entries : List Entry) (session : Session) (prompts : List Prompt)
    (printed : String) (reached : Reaches (.start name input fallback stream) session.watch)
    (calm : unhurried budget session entries = true) :
    ∃ replies, replies <+: entries.map Entry.reply ++ [.endOfInput] ∧
      Proceeds ⟨session.watch, .head⟩ replies
        ⟨(goOn budget prompts printed session entries).session.watch,
          .leaving (goOn budget prompts printed session entries).result⟩ := by
  induction entries generalizing session prompts printed with
  | nil =>
    unfold goOn
    split
    · rename_i fatal
      exact ⟨[], List.nil_prefix, left_at_head fatal⟩
    · rename_i going
      refine ⟨[.endOfInput], List.prefix_refl _, ?_⟩
      exact (prompts_at_head going).trans (.single (.reply .endOfInput) rfl)
  | cons entry entries ih =>
    unfold goOn
    split
    · rename_i fatal
      exact ⟨[], List.nil_prefix, left_at_head fatal⟩
    · rename_i going
      obtain ⟨sights, watching⟩ := reached
      have turns := turn_proceeds budget session.poll.1 entry watching.orderly
      unfold unhurried at calm
      simp only
      split <;> rename_i turned <;> rw [turned] at turns calm
      · obtain ⟨answered, calm⟩ := Bool.and_eq_true_iff.mp calm
        have onward := (prompts_at_head going).trans (turns answered)
        obtain ⟨replies, told, rest⟩ :=
          ih _ _ _ (Reaches.trans ⟨sights, watching⟩ onward.reaches) calm
        exact ⟨entry.reply :: replies, List.cons_prefix_cons.mpr ⟨rfl, told⟩, onward.trans rest⟩
      · refine ⟨[entry.reply], List.cons_prefix_cons.mpr ⟨rfl, List.nil_prefix⟩, ?_⟩
        exact (prompts_at_head going).trans (turns calm)

/-- A whole loop, with the shutdown at its end. -/
theorem run_proceeds (budget : Nat) (entries : List Entry) (session : Session)
    (reached : Reaches (.start name input fallback stream) session.watch)
    (calm : unhurried budget session entries = true) :
    ∃ replies, replies <+: entries.map Entry.reply ++ [.endOfInput] ∧
      Proceeds ⟨session.watch, .head⟩ replies ⟨(run budget session entries).session.watch,
        .returned (run budget session entries).result⟩ := by
  obtain ⟨replies, told, left⟩ := goOn_proceeds budget entries session [] banner reached calm
  refine ⟨replies, told, ?_⟩
  have closed := left.quiet (.single .close rfl)
  exact shutdown_kept (proceeds_kept ⟨session.watch, .head⟩ replies _ none _) budget
    (goOn budget [] banner session entries).session.live closed

end Loop

end Console

end TapeMachine
