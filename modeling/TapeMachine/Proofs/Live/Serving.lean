import TapeMachine.Proofs.Live.Genuine

namespace TapeMachine

/-- A snapshot that a program goes through when it reads from a stream, under a status that tells
the truth about it. -/
inductive PassesThrough (program : Program) (stream : ByteStream) : Snapshot → Prop
  | awaiting {trail : List Advance} {last : Machine} {rest : ByteStream} :
      Path program.machine stream trail last rest → last.awaitsInput = true →
      PassesThrough program stream ⟨.waitingForInput, last.tape, last.output⟩
  | running {trail : List Advance} {last : Machine} {rest : ByteStream} :
      Path program.machine stream trail last rest → trail ≠ [] →
      PassesThrough program stream ⟨.running, last.tape, last.output⟩
  | done {trail : List Advance} {last : Machine} {rest left : ByteStream} :
      Path program.machine stream trail last rest → last.step rest = ⟨.ended, last, left⟩ →
      PassesThrough program stream ⟨.done, last.tape, last.output⟩
  | failed {trail : List Advance} {last : Machine} {rest left : ByteStream} {error : StepError} :
      Path program.machine stream trail last rest →
      last.step rest = ⟨.failed error, last, left⟩ → error.isProgramFailure = true →
      PassesThrough program stream ⟨.error error.message, last.tape, last.output⟩

namespace Live

/-- A snapshot that a program goes through when it reads from a stream to which some of the fed
items have been added by then. -/
def Shown (program : Program) (base : ByteStream) (fed : List StreamItem) (snapshot : Snapshot) :
    Prop :=
  ∃ items, items <+: fed ∧ PassesThrough program (base.feed items) snapshot

theorem Shown.now {program : Program} {base : ByteStream} {fed : List StreamItem}
    {snapshot : Snapshot} (passes : PassesThrough program (base.feed fed) snapshot) :
    Shown program base fed snapshot :=
  ⟨fed, List.prefix_refl fed, passes⟩

theorem Shown.later {program : Program} {base : ByteStream} {fed : List StreamItem}
    {snapshot : Snapshot} (shown : Shown program base fed snapshot) (more : List StreamItem) :
    Shown program base (fed ++ more) snapshot := by
  obtain ⟨items, earlier, passes⟩ := shown
  exact ⟨items, earlier.trans (List.prefix_append fed more), passes⟩

theorem feed_feed (stream : ByteStream) (items more : List StreamItem) :
    (stream.feed items).feed more = stream.feed (items ++ more) := by
  simp [ByteStream.feed]

/-- The worker has not loaded a program since the rendezvous. -/
def Worker.unloaded : Worker → Bool
  | starting | opening | loading | returning => true
  | _ => false

/-- The worker, which is in a run of a program, has followed the program up to here. -/
def Worker.Follows (program : Program) (base : ByteStream) (fed : List StreamItem)
    (stream : ByteStream) : Worker → Prop
  | checkingStop run | checkingClosed run | announcing run | stepping run =>
    ∃ trail, Path program.machine (base.feed fed) trail run.machine stream
  | reporting run =>
    ∃ trail, trail ≠ [] ∧ Path program.machine (base.feed fed) trail run.machine stream
  | concluding run status => Shown program base fed (run.snapshot status)
  | _ => True

theorem Worker.Follows.feed {program : Program} {base stream : ByteStream}
    {fed : List StreamItem} {worker : Worker} (follows : worker.Follows program base fed stream)
    (more : List StreamItem) :
    worker.Follows program base (fed ++ more) (stream.feed more) := by
  cases worker with
  | checkingStop | checkingClosed | announcing | stepping =>
    obtain ⟨trail, path⟩ := follows
    refine ⟨trail, ?_⟩
    rw [← feed_feed]
    exact path.feed more
  | reporting =>
    obtain ⟨trail, moved, path⟩ := follows
    refine ⟨trail, moved, ?_⟩
    rw [← feed_feed]
    exact path.feed more
  | concluding => exact Shown.later follows more
  | starting | opening | loading | crashing | arriving | waiting | returning | leaving | gone =>
    trivial

namespace System

variable {system later : System} {action : Action} {events : List Event} {met : List Nat}
  {blank : Snapshot} {ticket : Nat} {program : Program} {base : ByteStream} {fed : List StreamItem}

/-- The program in charge is served: `base` is the stream when it came into charge, `fed` was added to
it since then, and `blank` is what is seen before anything is published about it. -/
structure Serving (blank : Snapshot) (ticket : Nat) (program : Program) (base : ByteStream)
    (fed : List StreamItem) (system : System) : Prop where
  untouched : system.worker.unloaded = true → system.stream = base.feed fed
  follows : ∀ run, system.worker.run? = some run → run.job.ticket = ticket →
    run.job.program = program ∧ system.worker.Follows program base fed system.stream
  shown : ∀ snapshot, system.state.load? = some snapshot →
    snapshot = blank ∨ Shown program base fed snapshot

theorem load?_poison (cell : SharedCell Snapshot) : cell.poison.load? = none := by
  simp [SharedCell.poison, SharedCell.load?]

theorem Serving.begin {id : Nat} {state : SharedCell Snapshot}
    (renewed : Renewed system.state state) :
    { system.moveRestart id .returning with
      stop := false, barrier := ⟨none, false⟩, state := state, worker := .returning }.Serving
        (.fresh .running) ticket program system.stream [] := by
  refine ⟨?_, ?_, ?_⟩
  · intro _
    exact congrArg (ByteStream.mk · system.stream.ending) (List.append_nil _).symm
  · intro run there
    cases there
  · intro snapshot there
    left
    rcases renewed with ⟨-, rfl⟩ | ⟨poisoned, rfl⟩
    · exact (Option.some.inj there).symm
    · simp only [SharedCell.load?, poisoned, if_true] at there
      cases there

/-- The worker moves on, and what is published stays. -/
theorem Serving.turn (serving : system.Serving blank ticket program base fed) {next : Worker}
    (turns : system.worker.Turns system next) :
    (system.moveWorker next).Serving blank ticket program base fed := by
  refine ⟨?_, ?_, serving.shown⟩
  · intro unloaded
    apply serving.untouched
    generalize system.worker = worker at turns
    cases turns <;> first | rfl | cases unloaded
  · intro run there ours
    obtain ⟨before, -⟩ := turns.same_run there
    obtain ⟨same, followed⟩ := serving.follows run before ours
    refine ⟨same, ?_⟩
    generalize system.worker = worker at turns before followed
    cases turns with
    | unstopped | unclosed | ready => exact followed
    | start | enter | idle | stopped | shut | turned_away | go_on | leave | exit => cases there

/-- The worker loads the program in charge, or one that is none of our concern. -/
theorem Serving.load (serving : system.Serving blank ticket program base fed) {job : Job}
    (loading : system.worker = .loading) (ours : job.ticket = ticket → job.program = program) :
    (system.moveWorker (.checkingStop (.ofJob job))).Serving blank ticket program base fed := by
  refine ⟨?_, ?_, serving.shown⟩
  · intro unloaded
    cases unloaded
  intro run there own
  obtain rfl := Option.some.inj there
  have same : job.program = program := ours own
  refine ⟨same, [], ?_⟩
  have untouched : system.stream = base.feed fed := by
    apply serving.untouched
    rw [loading]
    rfl
  subst same
  rw [← untouched]
  exact .start

/-- What the worker publishes is what the program has come to. -/
theorem Serving.publish (serving : system.Serving blank ticket program base fed) {run : Run}
    {status : Status} {next : Worker} (publishes : system.worker.Publishes run status next)
    (own : run.job.ticket = ticket) :
    { system with state := ⟨run.snapshot status, false⟩, worker := next }.Serving
      blank ticket program base fed := by
  obtain ⟨there, -, after⟩ := publishes.same_run
  obtain ⟨same, followed⟩ := serving.follows run there own
  generalize worker : system.worker = before at publishes followed
  have shown : Shown program base fed (run.snapshot status) := by
    cases publishes with
    | announce awaits =>
      obtain ⟨trail, path⟩ := followed
      exact .now (.awaiting path awaits)
    | report =>
      obtain ⟨trail, moved, path⟩ := followed
      exact .now (.running path moved)
    | conclude => exact followed
  refine ⟨?_, ?_, ?_⟩
  · intro unloaded
    cases publishes <;> cases unloaded
  · intro other going ours
    obtain rfl := after other going
    refine ⟨same, ?_⟩
    cases publishes with
    | announce => exact followed
    | report =>
      obtain ⟨trail, -, path⟩ := followed
      exact ⟨trail, path⟩
    | conclude => cases going
  · intro snapshot visible
    obtain rfl := Option.some.inj visible
    exact .inr shown

theorem Serving.execute (serving : system.Serving blank ticket program base fed) {run : Run}
    {op : Instruction} {machine : Machine} {rest : ByteStream}
    (stepping : system.worker = .stepping run)
    (step : run.machine.step system.stream = ⟨.ran op, machine, rest⟩) :
    { system with stream := rest, worker := .reporting ⟨run.job, machine⟩ }.Serving
      blank ticket program base fed := by
  refine ⟨?_, ?_, serving.shown⟩
  · intro unloaded
    cases unloaded
  intro other there own
  obtain rfl := Option.some.inj there
  have before : system.worker.run? = some run := by rw [stepping, Worker.run?]
  obtain ⟨same, followed⟩ := serving.follows run before own
  rw [stepping] at followed
  obtain ⟨trail, path⟩ := followed
  exact ⟨same, _, by simp, path.next step⟩

theorem Serving.conclude (serving : system.Serving blank ticket program base fed) {run : Run}
    {outcome : Outcome} {rest : ByteStream} {status : Status}
    (stepping : system.worker = .stepping run)
    (step : run.machine.step system.stream = ⟨outcome, run.machine, rest⟩)
    (concludes : Concludes outcome status) :
    { system with stream := rest, worker := .concluding run status }.Serving
      blank ticket program base fed := by
  refine ⟨?_, ?_, serving.shown⟩
  · intro unloaded
    cases unloaded
  intro other there own
  obtain rfl := Option.some.inj there
  have before : system.worker.run? = some run := by rw [stepping, Worker.run?]
  obtain ⟨same, followed⟩ := serving.follows run before own
  rw [stepping] at followed
  obtain ⟨trail, path⟩ := followed
  refine ⟨same, .now ?_⟩
  cases outcome with
  | ended =>
    obtain rfl : status = .done := concludes
    exact .done path step
  | failed error =>
    obtain ⟨own_failure, rfl⟩ := concludes
    exact .failed path step own_failure
  | ran | waiting => cases concludes

theorem Serving.shown_kept (serving : system.Serving blank ticket program base fed)
    (shows : later.state = system.state ∨ later.state.load? = none) :
    ∀ snapshot, later.state.load? = some snapshot →
      snapshot = blank ∨ Shown program base fed snapshot := by
  intro snapshot there
  rcases shows with same | gone
  · rw [same] at there
    exact serving.shown snapshot there
  · rw [gone] at there
    cases there

theorem Serving.leave (serving : system.Serving blank ticket program base fed)
    (without : later.worker.run? = none) (loaded : later.worker.unloaded = false)
    (shows : later.state = system.state ∨ later.state.load? = none) :
    later.Serving blank ticket program base fed := by
  refine ⟨?_, ?_, serving.shown_kept shows⟩
  · intro unloaded
    rw [loaded] at unloaded
    cases unloaded
  · intro run there
    rw [without] at there
    cases there

/-- Others do not disturb the service, except that they can poison the state cell. -/
theorem Serving.beside (serving : system.Serving blank ticket program base fed)
    (worker : later.worker = system.worker) (stream : later.stream = system.stream)
    (shows : later.state = system.state ∨ later.state.load? = none) :
    later.Serving blank ticket program base fed := by
  refine ⟨?_, ?_, serving.shown_kept shows⟩
  · rw [worker, stream]
    exact serving.untouched
  · rw [worker, stream]
    exact serving.follows

theorem Serving.feed (serving : system.Serving blank ticket program base fed)
    (items : List StreamItem) :
    { system with stream := system.stream.feed items }.Serving blank ticket program base
      (fed ++ items) := by
  refine ⟨?_, ?_, ?_⟩
  · intro unloaded
    have untouched := serving.untouched unloaded
    rw [← feed_feed, ← untouched]
  · intro run there own
    obtain ⟨same, followed⟩ := serving.follows run there own
    exact ⟨same, followed.feed items⟩
  · intro snapshot there
    exact (serving.shown snapshot there).imp_right fun shown => shown.later items

theorem items_of_call {call : Call} (made : action.call? = some call) : action.items = [] := by
  cases action with
  | feed => cases made
  | work | proceed | requestRestart | requestShutdown | poisonState | poisonProgram => rfl

/-- Between two rendezvous the service goes on. -/
theorem Serving.step (serving : system.Serving blank (inCharge met) program base fed)
    (isolated : system.Isolated met)
    (ours : ∀ job, system.program.value = some job → job.ticket = inCharge met →
      job.program = program)
    (moves : Moves system action later events) (apart : rendezvous events = []) :
    later.Serving blank (inCharge met) program base (fed ++ action.items) := by
  have unfed (nothing : action.items = [])
      (still : later.Serving blank (inCharge met) program base fed) :
      later.Serving blank (inCharge met) program base (fed ++ action.items) := by
    rw [nothing, List.append_nil]
    exact still
  cases moves with
  | feed => exact serving.feed _
  | meet _ _ _ _ _ one =>
    rw [apart] at one
    cases one
  | turn turns => exact unfed rfl (serving.turn turns)
  | load loading stored => exact unfed rfl (serving.load loading (ours _ stored))
  | @publish run status next _ publishes =>
    obtain ⟨there, unchecked, -⟩ := publishes.same_run
    rcases isolated.loaded run there with charge | ⟨checks, -⟩
    · exact unfed rfl (serving.publish publishes charge)
    · exact absurd checks (unchecked run)
  | execute stepping step => exact unfed rfl (serving.execute stepping step)
  | conclude stepping step concludes => exact unfed rfl (serving.conclude stepping step concludes)
  | give_up | fail | park_worker => exact unfed rfl (serving.leave rfl rfl (.inl rfl))
  | crash => exact unfed rfl (serving.leave rfl rfl (.inr (load?_poison _)))
  | request made => exact unfed (items_of_call made) (serving.beside rfl rfl (.inl rfl))
  | poison_state => exact unfed rfl (serving.beside rfl rfl (.inr (load?_poison _)))
  | park_call | call | lock | stop | store | clear | unlock | close | halt | break_barrier | join
  | poison_program => exact unfed rfl (serving.beside rfl rfl (.inl rfl))

/-- What everybody who looks sees. -/
theorem Serving.look (serving : system.Serving (.fresh .running) ticket program base fed) :
    system.look = .fresh .running ∨ Shown program base fed system.look ∨
      system.state.poisoned = true ∧ system.look = .fresh (.fatal poisonedMessage) := by
  by_cases poisoned : system.state.poisoned = true
  · refine .inr (.inr ⟨poisoned, ?_⟩)
    simp [System.look, SharedCell.load?, poisoned]
  · have sound : system.state.load? = some system.state.value := by
      simp [SharedCell.load?, poisoned]
    have seen : system.look = system.state.value := by
      rw [System.look, sound]
    rw [seen]
    exact (serving.shown _ sound).imp_right .inl

end System

end Live

end TapeMachine
