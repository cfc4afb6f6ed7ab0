import TapeMachine.Live.System

namespace TapeMachine.Live

namespace System

/-- What happens at a meeting, while both parties are held: the stop flag is taken back and a
fresh running state replaces whatever the old run left. -/
def renew (system : System) : System × List Event :=
  let system := { system with stop := false }
  match system.state.store? (.fresh .running) with
  | some state => ({ system with state := state }, [])
  | none => (system, [.logged (.error "state cell poisoned, cannot reset state at restart")])

def park (system : System) : Party → System
  | .worker => system.moveWorker .waiting
  | .call id => system.moveRestart id .waiting

/-- A party leaves the barrier after a meeting. -/
def passOn (system : System) : Party → System
  | .worker => system.moveWorker .returning
  | .call id => system.moveRestart id .returning

/-- A party finds the barrier broken. -/
def turnAway (system : System) : Party → System
  | .worker => system.moveWorker .leaving
  | .call id => system.moveRestart id (.unlocking (.error .shutDown))

def arrive (system : System) (party : Party) : System × List Event :=
  if system.barrier.broken then (system.turnAway party, [])
  else
    match system.barrier.waiting with
    | none => ({ system.park party with barrier := ⟨some party, false⟩ }, [])
    | some first =>
      let (system, events) := system.renew
      let system := { system with barrier := ⟨none, false⟩ }
      ((system.passOn first).passOn party, .met first party :: events)

/-- Offers a snapshot of a run to the state cell. The worker goes on to `next` if the cell takes
it, and gives the run up if not. -/
def publish (system : System) (run : Run) (status : Status) (next : Worker) :
    System × List Event :=
  let snapshot := run.snapshot status
  let position := run.machine.position
  match system.state.store? snapshot with
  | some state =>
    ({ system with state := state, worker := next },
      [.published run.job.ticket ⟨position, snapshot, true⟩])
  | none =>
    (system.moveWorker .arriving,
      [.published run.job.ticket ⟨position, snapshot, false⟩,
        .logged (.error s!"state cell poisoned, abandoning run at ip={position}")])

/-- The end of a run that was told to stop. -/
def abandon (system : System) (run : Run) : System × List Event :=
  (system.moveWorker .arriving,
    [.logged (.debug s!"run stopped at ip={run.machine.position}")])

/-- The worker executes one instruction; `none` while it waits for a byte. -/
def execute? (system : System) (run : Run) : Option (System × List Event) :=
  match run.machine.step system.stream with
  | ⟨.waiting, _, _⟩ => none
  | ⟨.ended, machine, stream⟩ =>
    let system := { system with stream := stream }
    some (system.moveWorker (.concluding ⟨run.job, machine⟩ .done),
      [.logged (.debug s!"run done ({machine.output.size} output bytes)")])
  | ⟨.ran op, machine, stream⟩ =>
    some ({ system with stream := stream, worker := .reporting ⟨run.job, machine⟩ },
      [.executed run.job.ticket op])
  | ⟨.failed error, machine, stream⟩ =>
    let system := { system with stream := stream }
    if error.isProgramFailure then
      some (system.moveWorker (.concluding ⟨run.job, machine⟩ (.error error.message)),
        [.logged (.debug s!"run failed: {error.message}")])
    else
      some (system.moveWorker .crashing,
        [.logged (.error "worker crashed, state cell poisoned")])

/-- The next step of the worker; `none` while it has to wait and after its end. -/
def workerStep? (system : System) : Option (System × List Event) :=
  match system.worker with
  | .starting =>
    some (system.moveWorker .opening, [.logged (.debug s!"worker {system.name} started")])
  | .opening => some (system.moveWorker (if system.closed then .leaving else .loading), [])
  | .loading =>
    match system.program.load? with
    | none =>
      some (system.moveWorker .arriving, [.logged (.error "program cell poisoned, worker idle")])
    | some none => some (system.moveWorker .arriving, [])
    | some (some job) =>
      let run := Run.ofJob job
      some (system.moveWorker (.checkingStop run),
        [.began job.ticket,
          .logged (.debug s!"run start ({run.machine.code.size} instructions)")])
  | .checkingStop run =>
    if system.stop then some (system.abandon run)
    else some (system.moveWorker (.checkingClosed run), [])
  | .checkingClosed run =>
    if system.closed then some (system.abandon run)
    else some (system.moveWorker (.announcing run), [])
  | .announcing run =>
    if run.machine.awaitsInput then some (system.publish run .waitingForInput (.stepping run))
    else some (system.moveWorker (.stepping run), [])
  | .stepping run => system.execute? run
  | .reporting run => some (system.publish run .running (.checkingStop run))
  | .concluding run status => some (system.publish run status .arriving)
  | .crashing =>
    some ({ system with state := system.state.poison, worker := .arriving }, [])
  | .arriving => some (system.arrive .worker)
  | .waiting => if system.barrier.broken then some (system.turnAway .worker, []) else none
  | .returning => some (system.moveWorker (if system.closed then .leaving else .opening), [])
  | .leaving =>
    some (system.moveWorker .gone, [.logged (.debug s!"worker {system.name} exiting")])
  | .gone => none

def restartStep? (system : System) (id : Nat) : RestartStage → Option (System × List Event)
  | .locking program =>
    match system.lock with
    | none => some ({ system.moveRestart id (.checking program) with lock := some id }, [])
    | some _ => none
  | .checking program =>
    let stage := if system.closed then .unlocking (.error .shutDown) else .stopping program
    some (system.moveRestart id stage, [])
  | .stopping program =>
    some ({ system.moveRestart id (.storing program) with stop := true },
      [.logged (.debug s!"restart requested ({program.code.length} bytes of code)")])
  | .storing program =>
    match system.program.store? (some ⟨id + 1, program⟩) with
    | some cell => some ({ system.moveRestart id .arriving with program := cell }, [])
    | none => some (system.moveRestart id (.unlocking (.error .poisoned)), [])
  | .arriving => some (system.arrive (.call id))
  | .waiting =>
    if system.barrier.broken then some (system.turnAway (.call id), []) else none
  | .returning =>
    let stage := if system.closed then .unlocking (.ok ()) else .clearing
    some (system.moveRestart id stage, [])
  | .clearing => some ({ system.moveRestart id (.unlocking (.ok ())) with stop := false }, [])
  | .unlocking result =>
    some ({ system.moveRestart id (.finished result) with lock := none }, [])
  | .finished _ => none

/-- The next step of a shutdown. The last one, which waits for the worker for a limited time only,
may come at any time. -/
def shutdownStep? (system : System) (id : Nat) : ShutdownStage → Option (System × List Event)
  | .closing => some ({ system.setCall id (.shutdown .stopping) with closed := true }, [])
  | .stopping => some ({ system.setCall id (.shutdown .breaking) with stop := true }, [])
  | .breaking =>
    let barrier := { system.barrier with broken := true }
    some ({ system.setCall id (.shutdown .joining) with barrier := barrier }, [])
  | .joining => some (system.setCall id (.shutdown .finished), [])
  | .finished => none

def callStep? (system : System) (id : Nat) : Option (System × List Event) :=
  match system.calls[id]? with
  | none => none
  | some (.restart stage) => system.restartStep? id stage
  | some (.shutdown stage) => system.shutdownStep? id stage

/-- A new call; a restart whose arguments are refused returns at once. -/
def addCall (system : System) (call : Call) : System :=
  { system with calls := system.calls ++ [call] }

end System

def Call.ofRequest (request : Request) : Call :=
  match request.program with
  | .ok program => .restart (.locking program)
  | .error error => .restart (.finished (.error (.invalid error)))

/-- Everything that can happen to a live execution. -/
inductive Action where
  | work
  | proceed (call : Nat)
  | requestRestart (request : Request)
  | requestShutdown
  | poisonState
  | poisonProgram
  | feed (items : List StreamItem)

namespace System

/-- Carries out an action; `none` if it is not possible now. A step reads or writes one shared
thing, or it is a whole meeting with its action, and any order of possible steps is a possible
execution. -/
def perform? (system : System) : Action → Option (System × List Event)
  | .work => system.workerStep?
  | .proceed id => system.callStep? id
  | .requestRestart request => some (system.addCall (.ofRequest request), [])
  | .requestShutdown => some (system.addCall (.shutdown .closing), [])
  | .poisonState => some ({ system with state := system.state.poison }, [])
  | .poisonProgram => some ({ system with program := system.program.poison }, [])
  | .feed items => some ({ system with stream := system.stream.feed items }, [])

end System

end TapeMachine.Live
