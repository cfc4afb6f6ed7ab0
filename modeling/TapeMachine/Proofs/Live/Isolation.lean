import TapeMachine.Proofs.Live.Stages

namespace TapeMachine.Live

namespace RestartStage

/-- The restart has raised the stop flag, and its rendezvous is still to come. -/
def raised : RestartStage → Bool
  | storing _ | arriving | waiting => true
  | _ => false

/-- A restart that cannot come to the barrier any more once the shutdown has been noted. -/
def barred : RestartStage → Bool
  | checking _ | unlocking _ => true
  | _ => false

theorem locked_of_raised {stage : RestartStage} (raised : stage.raised = true) :
    stage.locked = true := by
  cases stage <;> first | rfl | cases raised

theorem unbarred_of_pending {stage : RestartStage} (pending : stage.pending = true) :
    stage.barred = false := by
  cases stage <;> first | rfl | cases pending

theorem not_past_of_pending {stage : RestartStage} (pending : stage.pending = true) :
    stage.past = false := by
  cases stage <;> first | rfl | cases pending

end RestartStage

namespace System

variable {system later : System} {action : Action} {events : List Event} {met : List Nat}

/-- The stop flag is up while a restart waits for its rendezvous. -/
def FlagUp (system : System) : Prop :=
  ∀ (id : Nat) (stage : RestartStage), system.calls[id]? = some (.restart stage) →
    stage.raised = true → system.stop = true

/-- The flag is taken back only by the holder of the lock, who then has not raised it any more. -/
theorem FlagUp.step (flag : system.FlagUp) (orderly : system.Orderly)
    (moves : Moves system action later events) : later.FlagUp := by
  have move {id : Nat} {stage next : RestartStage} (call : system.calls[id]? = some (.restart stage))
      (raises : next.raised = true → stage.raised = true) : (system.moveRestart id next).FlagUp := by
    exact every_restart_moved flag fun raised => flag id stage call (raises raised)
  have lower {id : Nat} {stage next : RestartStage}
      (call : system.calls[id]? = some (.restart stage)) (locked : stage.locked = true)
      (lowers : next.raised = false) : ∀ (other : Nat) (found : RestartStage),
        (system.moveRestart id next).calls[other]? = some (.restart found) →
        found.raised = true → False := by
    intro other found there raised
    rcases restart_after there with ⟨-, rfl⟩ | ⟨different, old⟩
    · rw [lowers] at raised
      cases raised
    · have holds := RestartStage.locked_of_raised raised
      exact different (orderly.same_holder call locked old holds)
  cases moves with
  | turn | load | publish | give_up | execute | conclude | fail | crash | park_worker | poison_state
  | poison_program | feed => exact flag
  | park_call call | store call => exact move call (fun _ => rfl)
  | meet _ _ call pending =>
    intro other found there raised
    have locked := RestartStage.locked_of_pending pending
    exact absurd raised (lower call locked rfl other found there)
  | call call turns =>
    refine move call ?_
    intro raised
    cases turns <;> cases raised
  | lock call | unlock call => exact move call (fun raised => by cases raised)
  | stop | halt => exact fun _ _ _ _ => rfl
  | clear call =>
    intro other found there raised
    exact absurd raised (lower call rfl rfl other found there)
  | close | break_barrier | join => exact every_restart_beside flag
  | request made =>
    refine every_restart_added flag made ?_
    intro _ _ free raised
    rw [RestartStage.locked_of_raised raised] at free
    cases free

/-- The program with a ticket is kept from running: the flag is up, and it stays up until the
rendezvous of the restart that stored the program, or for ever because of a shutdown. -/
def Withheld (system : System) (ticket : Nat) : Prop :=
  system.stop = true ∧
    ((∃ (id : Nat) (stage : RestartStage), system.calls[id]? = some (.restart stage) ∧
        stage.pending = true ∧ ticket = id + 1) ∨
      system.closed = true ∧ ∀ (id : Nat) (stage : RestartStage),
        system.calls[id]? = some (.restart stage) → stage.locked = true → stage.barred = true)

/-- A restart that waits for its rendezvous keeps the flag up until then, or is turned away. The barrier
is broken only after a shutdown was noted, which bars every later restart. -/
theorem withheld_pending {id : Nat} {stage : RestartStage} (stop : system.stop = true)
    (call : system.calls[id]? = some (.restart stage)) (pending : stage.pending = true)
    (orderly : system.Orderly) (moves : Moves system action later events) :
    later.Withheld (id + 1) ∨ ∃ met ∈ rendezvous events, id + 1 = met + 1 := by
  have locked := RestartStage.locked_of_pending pending
  have apart {stage' : RestartStage} (not_pending : stage'.pending = false) :
      Call.restart stage ≠ .restart stage' := by
    rintro ⟨⟩
    rw [pending] at not_pending
    cases not_pending
  cases moves with
  | turn | load | publish | give_up | execute | conclude | fail | crash | park_worker | poison_state
  | poison_program | feed => exact .inl ⟨stop, .inl ⟨id, stage, call, pending, rfl⟩⟩
  | park_call moving =>
    obtain rfl := orderly.same_holder call locked moving rfl
    exact .inl ⟨stop, .inl ⟨_, .waiting, setCall_self moving, rfl, rfl⟩⟩
  | meet _ _ moving moving_pending _ met =>
    obtain rfl := orderly.same_holder call locked moving (RestartStage.locked_of_pending moving_pending)
    refine .inr ⟨_, ?_, rfl⟩
    rw [met]
    exact List.mem_singleton_self _
  | @call other stage' next moving turns =>
    by_cases same : other = id
    · subst same
      obtain rfl := Call.restart.inj (Option.some.inj (moving.symm.trans call))
      cases turns with
      | turned_away _ broken =>
        refine .inl ⟨stop, .inr ⟨orderly.broken_closed broken, ?_⟩⟩
        intro third found there holds
        rcases restart_after there with ⟨rfl, rfl⟩ | ⟨different, old⟩
        · rfl
        · exact absurd (orderly.same_holder call locked old holds) different
      | refused | allowed | unstored | returned | late => cases pending
    · have kept : (system.moveRestart other next).calls[id]? = some (.restart stage) := by
        rw [← call]
        exact List.getElem?_set_ne same
      exact .inl ⟨stop, .inl ⟨id, stage, kept, pending, rfl⟩⟩
  | lock moving | store moving | unlock moving =>
    exact .inl ⟨stop, .inl ⟨id, stage, call_kept call moving (apart rfl), pending, rfl⟩⟩
  | stop moving =>
    exact .inl ⟨rfl, .inl ⟨id, stage, call_kept call moving (apart rfl), pending, rfl⟩⟩
  | clear moving =>
    obtain rfl := orderly.same_holder call locked moving rfl
    rw [call] at moving
    cases moving
    cases pending
  | close moving | break_barrier moving | join moving =>
    exact .inl ⟨stop, .inl ⟨id, stage, call_kept call moving (by simp), pending, rfl⟩⟩
  | halt moving =>
    exact .inl ⟨rfl, .inl ⟨id, stage, call_kept call moving (by simp), pending, rfl⟩⟩
  | request => exact .inl ⟨stop, .inl ⟨id, stage, call_added call _, pending, rfl⟩⟩

/-- After a shutdown nobody takes the flag back, unless somebody is past its rendezvous. -/
theorem withheld_closed {ticket : Nat} (stop : system.stop = true) (closed : system.closed = true)
    (barred : ∀ (id : Nat) (stage : RestartStage), system.calls[id]? = some (.restart stage) →
      stage.locked = true → stage.barred = true)
    (moves : Moves system action later events) : later.Withheld ticket := by
  cases moves with
  | turn | load | publish | give_up | execute | conclude | fail | crash | park_worker | poison_state
  | poison_program | feed => exact ⟨stop, .inr ⟨closed, barred⟩⟩
  | park_call call | stop call | store call | clear call => cases barred _ _ call rfl
  | @meet _ id stage _ _ _ _ call pending =>
    have refused := barred id stage call (RestartStage.locked_of_pending pending)
    rw [RestartStage.unbarred_of_pending pending] at refused
    cases refused
  | @call id stage next call turns =>
    refine ⟨stop, .inr ⟨closed, every_restart_moved barred ?_⟩⟩
    intro _
    cases turns with
    | refused | unstored | turned_away | late => rfl
    | allowed unclosed | returned unclosed =>
      rw [closed] at unclosed
      cases unclosed
  | lock => exact ⟨stop, .inr ⟨closed, every_restart_moved barred fun _ => rfl⟩⟩
  | unlock =>
    exact ⟨stop, .inr ⟨closed, every_restart_moved barred fun holds => by cases holds⟩⟩
  | close => exact ⟨stop, .inr ⟨rfl, every_restart_beside barred⟩⟩
  | halt => exact ⟨rfl, .inr ⟨closed, every_restart_beside barred⟩⟩
  | break_barrier | join => exact ⟨stop, .inr ⟨closed, every_restart_beside barred⟩⟩
  | request made =>
    refine ⟨stop, .inr ⟨closed, every_restart_added barred made ?_⟩⟩
    intro _ _ free holds
    rw [holds] at free
    cases free

theorem Withheld.step {ticket : Nat} (withheld : system.Withheld ticket) (orderly : system.Orderly)
    (moves : Moves system action later events) :
    later.Withheld ticket ∨ ∃ id ∈ rendezvous events, ticket = id + 1 := by
  obtain ⟨stop, ⟨id, stage, call, pending, rfl⟩ | ⟨closed, barred⟩⟩ := withheld
  · exact withheld_pending stop call pending orderly moves
  · exact .inl (withheld_closed stop closed barred moves)

/-- A restart that is past its rendezvous stays past it. -/
theorem past_kept {id : Nat} {stage : RestartStage}
    (call : system.calls[id]? = some (.restart stage)) (past : stage.past = true)
    (moves : Moves system action later events) :
    ∃ stage' : RestartStage, later.calls[id]? = some (.restart stage') ∧ stage'.past = true := by
  obtain ⟨next, after, same | goes⟩ := restart_next call moves
  · exact ⟨next, after, same ▸ past⟩
  · refine ⟨next, after, ?_⟩
    cases goes with
    | turn turns => cases turns <;> first | rfl | cases past
    | meet | clear | unlock => rfl
    | lock | raise | store | park => cases past

/-- The program cell keeps its value, or a restart stores its program. -/
theorem stored_cases (moves : Moves system action later events) :
    later.program.value = system.program.value ∨
      ∃ (id : Nat) (program : Program), system.calls[id]? = some (.restart (.storing program)) ∧
        later.program.value = some ⟨id + 1, program⟩ ∧
        later.calls[id]? = some (.restart .arriving) ∧ later.stop = system.stop := by
  cases moves with
  | store call => exact .inr ⟨_, _, call, rfl, setCall_self call, rfl⟩
  | _ => exact .inl rfl

/-- Where a run of the worker comes from. -/
theorem run_cases (moves : Moves system action later events) {run : Run}
    (there : later.worker.run? = some run) :
    later.worker = system.worker ∨
      (∃ old : Run, system.worker.run? = some old ∧ old.job = run.job ∧
        (system.worker = .checkingStop old → system.stop = false)) ∨
      system.program.value = some run.job ∧ later.worker = .checkingStop run := by
  cases moves with
  | turn turns =>
    obtain ⟨same, going⟩ := turns.same_run there
    exact .inr (.inl ⟨run, same, rfl, going⟩)
  | load _ stored =>
    obtain rfl := Option.some.inj there
    exact .inr (.inr ⟨stored, rfl⟩)
  | @publish old status next _ publishes =>
    obtain ⟨before, unchecked, after⟩ := publishes.same_run
    obtain rfl := after run there
    exact .inr (.inl ⟨run, before, rfl, fun same => absurd same (unchecked run)⟩)
  | @execute old op machine rest _ stepping | @conclude old outcome rest status _ stepping =>
    obtain rfl := Option.some.inj there
    have before : system.worker.run? = some old := by rw [stepping, Worker.run?]
    exact .inr (.inl ⟨old, before, rfl, by simp [stepping]⟩)
  | give_up | fail | crash | park_worker | meet => cases there
  | _ => exact .inl rfl

/-- Nothing of a program leaks out while another program is in charge: the program in the cell and
the run of the worker are those of the latest rendezvous, or withheld. -/
structure Isolated (met : List Nat) (system : System) : Prop where
  orderly : system.Orderly
  flag : system.FlagUp
  past : ∀ id ∈ met, ∃ stage : RestartStage,
    system.calls[id]? = some (.restart stage) ∧ stage.past = true
  once : met.Nodup
  stored : ∀ job, system.program.value = some job →
    job.ticket = inCharge met ∨ system.Withheld job.ticket
  loaded : ∀ run, system.worker.run? = some run →
    run.job.ticket = inCharge met ∨
      system.worker = .checkingStop run ∧ system.Withheld run.job.ticket
  pending : ∀ (id : Nat) (stage : RestartStage), system.calls[id]? = some (.restart stage) →
    stage.pending = true → ∃ program, system.program.value = some ⟨id + 1, program⟩

theorem Isolated.pending_kept (isolated : system.Isolated met)
    (moves : Moves system action later events) :
    ∀ (id : Nat) (stage : RestartStage), later.calls[id]? = some (.restart stage) →
      stage.pending = true → ∃ program, later.program.value = some ⟨id + 1, program⟩ := by
  have move {other : Nat} {stage next : RestartStage}
      (call : system.calls[other]? = some (.restart stage))
      (before : next.pending = true → stage.pending = true) :
      ∀ (id : Nat) (found : RestartStage),
        (system.moveRestart other next).calls[id]? = some (.restart found) →
        found.pending = true → ∃ program, system.program.value = some ⟨id + 1, program⟩ :=
    every_restart_moved isolated.pending fun pending =>
      isolated.pending other stage call (before pending)
  cases moves with
  | turn | load | publish | give_up | execute | conclude | fail | crash | park_worker | poison_state
  | poison_program | feed => exact isolated.pending
  | park_call call => exact move call (fun _ => rfl)
  | meet _ _ call pending => exact move call (fun _ => pending)
  | call call turns =>
    refine move call ?_
    intro pending
    cases turns <;> cases pending
  | lock call | stop call | clear call | unlock call => exact move call (fun pending => by cases pending)
  | store call =>
    intro id found there pending
    rcases restart_after there with ⟨rfl, -⟩ | ⟨different, old⟩
    · exact ⟨_, rfl⟩
    · have locked := RestartStage.locked_of_pending pending
      exact absurd (isolated.orderly.same_holder call rfl old locked) different
  | close | halt | break_barrier | join => exact every_restart_beside isolated.pending
  | request made =>
    refine every_restart_added isolated.pending made ?_
    intro _ _ free pending
    rw [RestartStage.locked_of_pending pending] at free
    cases free

/-- A step without rendezvous leaves the same program in charge. A withheld run cannot get past the look
at the flag, which is up. -/
theorem Isolated.quiet (isolated : system.Isolated met) (moves : Moves system action later events)
    (apart : rendezvous events = []) : later.Isolated met := by
  have withheld {ticket : Nat} (before : system.Withheld ticket) : later.Withheld ticket := by
    rcases before.step isolated.orderly moves with after | ⟨id, member, -⟩
    · exact after
    · rw [apart] at member
      cases member
  have stored : ∀ job, later.program.value = some job →
      job.ticket = inCharge met ∨ later.Withheld job.ticket := by
    intro job there
    rcases stored_cases moves with same | ⟨id, program, call, now, arrives, stop⟩
    · rw [same] at there
      exact (isolated.stored job there).imp_right withheld
    · rw [now] at there
      obtain rfl := Option.some.inj there
      have up := isolated.flag id _ call rfl
      exact .inr ⟨stop.trans up, .inl ⟨id, .arriving, arrives, rfl, rfl⟩⟩
  refine ⟨isolated.orderly.step moves, isolated.flag.step isolated.orderly moves, ?_, isolated.once,
    stored, ?_, isolated.pending_kept moves⟩
  · intro id member
    obtain ⟨stage, call, past⟩ := isolated.past id member
    exact past_kept call past moves
  · intro run there
    rcases run_cases moves there with same | ⟨old, before, job, going⟩ | ⟨loaded, begins⟩
    · rw [same] at there ⊢
      rcases isolated.loaded run there with charge | ⟨checks, kept⟩
      · exact .inl charge
      · exact .inr ⟨checks, withheld kept⟩
    · rw [← job]
      rcases isolated.loaded old before with charge | ⟨checks, up, -⟩
      · exact .inl charge
      · rw [going checks] at up
        cases up
    · exact (isolated.stored run.job loaded).imp_right fun kept => ⟨begins, withheld kept⟩

/-- A rendezvous puts the program of its restart in charge. -/
theorem Isolated.meet (isolated : system.Isolated met) {id : Nat} {stage : RestartStage}
    {state : SharedCell Snapshot} (call : system.calls[id]? = some (.restart stage))
    (pending : stage.pending = true) (moves : Moves system action later events)
    (after : later = { system.moveRestart id .returning with
      stop := false, barrier := ⟨none, false⟩, state := state, worker := .returning }) :
    later.Isolated (met ++ [id]) := by
  have pending_later := isolated.pending_kept moves
  have orderly := isolated.orderly.step moves
  have flag := isolated.flag.step isolated.orderly moves
  have past_later {other : Nat} {stage : RestartStage}
      (there : system.calls[other]? = some (.restart stage)) (past : stage.past = true) :=
    past_kept there past moves
  subst after
  refine ⟨orderly, flag, ?_, ?_, ?_, ?_, pending_later⟩
  · intro other member
    rcases List.mem_append.mp member with old | new
    · obtain ⟨stage, there, past⟩ := isolated.past other old
      exact past_later there past
    · obtain rfl := List.mem_singleton.mp new
      exact ⟨.returning, setCall_self call, rfl⟩
  · rw [List.nodup_append]
    refine ⟨isolated.once, by simp, ?_⟩
    intro other member same new
    obtain rfl := List.mem_singleton.mp new
    rintro rfl
    obtain ⟨stage', there, past⟩ := isolated.past _ member
    obtain rfl := Call.restart.inj (Option.some.inj (there.symm.trans call))
    rw [RestartStage.not_past_of_pending pending] at past
    cases past
  · intro job there
    obtain ⟨program, stored⟩ := isolated.pending id stage call pending
    obtain rfl := Option.some.inj (there.symm.trans stored)
    exact .inl (inCharge_concat met id).symm
  · intro run there
    cases there

/-- A step with a rendezvous is a meeting and nothing else. -/
theorem meets_of_rendezvous (moves : Moves system action later events)
    (some_met : rendezvous events ≠ []) :
    ∃ (id : Nat) (stage : RestartStage) (state : SharedCell Snapshot),
      system.calls[id]? = some (.restart stage) ∧ stage.pending = true ∧
      (system.worker = .arriving ∨ system.worker = .waiting) ∧
      Renewed system.state state ∧ rendezvous events = [id] ∧
      (∀ event ∈ events, event.ticket? = none) ∧
      later = { system.moveRestart id .returning with
        stop := false, barrier := ⟨none, false⟩, state := state, worker := .returning } := by
  cases moves with
  | meet _ waits call pending renewed met untold =>
    exact ⟨_, _, _, call, pending, waits, renewed, met, untold, rfl⟩
  | turn _ silent | load _ _ silent | conclude _ _ _ silent | fail _ silent | stop _ silent =>
    exact absurd (silent_rendezvous silent) some_met
  | publish _ _ traces | give_up _ _ traces | execute _ _ traces =>
    exact absurd (traces_rendezvous traces) some_met
  | _ => exact absurd rfl some_met

theorem Isolated.step (isolated : system.Isolated met) (moves : Moves system action later events) :
    later.Isolated (met ++ rendezvous events) := by
  by_cases apart : rendezvous events = []
  · rw [apart, List.append_nil]
    exact isolated.quiet moves apart
  · obtain ⟨id, stage, state, call, pending, -, -, one, -, after⟩ := meets_of_rendezvous moves apart
    rw [one]
    exact isolated.meet call pending moves after

theorem Isolated.start (name : String) (first : Option Program) (stream : ByteStream) :
    (System.start name first stream).Isolated [] := by
  refine ⟨.start name first stream, ?_, by simp, by simp, ?_, ?_, ?_⟩
  · intro id stage there
    cases there
  · intro job there
    left
    cases first with
    | none => cases there
    | some program =>
      obtain rfl := Option.some.inj there
      rfl
  · intro run there
    cases there
  · intro id stage there
    cases there

/-- What is executed or published belongs to the program in charge. -/
theorem Isolated.traces (isolated : system.Isolated met) (moves : Moves system action later events) :
    ∀ event ∈ events, ∀ ticket, event.ticket? = some ticket → ticket = inCharge met := by
  have quiet (silent : ∀ event ∈ events, event.ticket? = none) :
      ∀ event ∈ events, ∀ ticket, event.ticket? = some ticket → ticket = inCharge met := by
    intro event member ticket there
    rw [silent event member] at there
    cases there
  have own {run : Run} (there : system.worker.run? = some run)
      (unchecked : system.worker ≠ .checkingStop run) (traces : TracesOf run.job.ticket events) :
      ∀ event ∈ events, ∀ ticket, event.ticket? = some ticket → ticket = inCharge met := by
    intro event member ticket shown
    rw [(traces event member).2 ticket shown]
    rcases isolated.loaded run there with charge | ⟨checks, -⟩
    · exact charge
    · exact absurd checks unchecked
  cases moves with
  | publish publishes _ traces | give_up publishes _ traces =>
    obtain ⟨there, unchecked, -⟩ := publishes.same_run
    exact own there (unchecked _) traces
  | @execute run op machine rest _ stepping _ traces =>
    have there : system.worker.run? = some run := by rw [stepping, Worker.run?]
    exact own there (by simp [stepping]) traces
  | turn _ silent | load _ _ silent | conclude _ _ _ silent | fail _ silent | stop _ silent =>
    exact quiet fun event member => (silent event member).1
  | meet _ _ _ _ _ _ untold => exact quiet untold
  | _ => exact quiet (by simp)

end System

end TapeMachine.Live
