import Oxiroute.Master.History
import Oxiroute.Supervision.Replacement

/-!
# The state of the master

The data model of `oxiroute-supervisor-master/src/master.rs`, `config.rs` and
`master/observation.rs`: one record of the three worker slots, the replacement supervisor, the
stage and the requests in flight.

* `Supervisor` is a `ReplacementSupervisor` with the invariant of every supervisor that `new` and
  `apply` can produce, so its `phase` is total.
* `ActionExecutor` is the trait of that name; `Runtime` adds the operating system's answer to
  `WorkerProcess::request_kill`, which the source asks of the process itself.
* Instants and durations are nanoseconds; `checked_add` fails beyond `maxInstant`.

Left out: the descriptors behind `StableListeners` (its manifest is kept), the sources of nested
errors, and `worker_process_group_id`.
-/

namespace Oxiroute

open Lib Supervision Unix

namespace Master

/-! ## Time and configuration -/

/-- `Instant`, in nanoseconds of the monotonic clock. -/
abbrev Instant := ℕ

/-- `Duration`, in nanoseconds. -/
abbrev Duration := ℕ

/-- The last representable `Instant`: a signed 64-bit number of seconds and its nanoseconds. -/
def maxInstant : Instant := 2 ^ 63 * 1000000000 - 1

/-- `Instant::checked_add`. -/
def deadlineAfter (now : Instant) (timeout : Duration) : Option Instant :=
  if now + timeout ≤ maxInstant then some (now + timeout) else none

/-- `MAX_TIMEOUT`: one hour. -/
def maxTimeout : Duration := 3600 * 1000000000

/-- A timeout that `MasterConfig::new` accepts. -/
def validTimeout (timeout : Duration) : Bool := 0 < timeout && timeout ≤ maxTimeout

/-- `MasterConfig`: the timeouts of the five kinds of request, all validated. -/
structure MasterConfig where
  adoption : Duration
  quiesce : Duration
  activation : Duration
  drain : Duration
  shutdown : Duration
  valid : ∀ timeout ∈ [adoption, quiesce, activation, drain, shutdown], validTimeout timeout

/-! ## Roles, requests and observations -/

inductive WorkerRole where
  | active
  | candidate
  | retired
  deriving DecidableEq

/-- The roles in the order every loop of the master visits them. -/
def WorkerRole.all : List WorkerRole := [.active, .candidate, .retired]

inductive WorkerState where
  | running
  | terminating (forced : Bool)
  deriving DecidableEq

inductive MasterState where
  | starting
  | activatingInitial
  | running
  | adoptingCandidate
  | quiescing
  | activatingCandidate
  | rollingBack
  | drainingRetired
  | stoppingRetired
  | shuttingDown
  | failing
  | stopped
  | failed
  deriving DecidableEq

inductive FailurePhase where
  | listenerAdoption
  | activation
  | quiesce
  | reactivation
  | drain
  | shutdown
  | crash
  | disconnected
  | protocol
  deriving DecidableEq

inductive ActionKind where
  | duplicateListeners
  | send (phase : ControlPhase)
  deriving DecidableEq

inductive PreparationStep where
  | requestId
  | deadline
  | encoding
  | allocation
  deriving DecidableEq

inductive PreparationError where
  | injected
  | requestIdExhausted
  | deadlineOverflow
  | protocol (error : ControlProtocolError)
  | allocation
  deriving DecidableEq

/-- `ActionError`, without the nested sources. -/
inductive ActionError where
  | listeners
  | channel
  | injected
  deriving DecidableEq

/-- `io::Error`, by its raw operating-system code. -/
abbrev IoError := Int32

/-- `ExitStatus`, by its raw wait status. -/
abbrev ExitStatus := Int32

/-- `Pending`: a request whose acknowledgement is awaited. -/
structure Pending where
  requestId : UInt64
  phase : ControlPhase
  deadline : Instant
  deriving DecidableEq

structure PreparedRequest where
  pending : Pending
  payload : List UInt8

/-- `WorkerProcess`: its identity, and whether the master has requested its kill. -/
structure WorkerProcess where
  id : UInt32
  killRequested : Bool
  deriving DecidableEq

/-- `OwnedFd`, by number. -/
abbrev OwnedFd := UInt32

/-- `TransportError`, as far as `channel_disconnected` tells its variants apart. -/
inductive TransportError where
  | io (errno : Int32)
  | closed
  | malformed
  deriving DecidableEq

/-- `AuthenticatedChannelError`, as far as `observe` tells its variants apart. -/
inductive AuthenticatedChannelError where
  | io (error : IoError)
  | transport (error : TransportError)
  | workerGroupExited (status : ExitStatus)
  | channelClosed
  | unauthenticated
  deriving DecidableEq

/-- `Errno::CONNRESET`. -/
def connectionReset : Int32 := 104

def channelDisconnected : AuthenticatedChannelError → Bool
  | .channelClosed | .transport .closed => true
  | .transport (.io errno) => errno = connectionReset
  | _ => false

/-- What the operating system holds for one worker when it is observed: the answer of
`poll_event`, and the answer of `try_receive` should the channel be read. -/
structure Arrival where
  event : Except IoError (Option ExitStatus)
  received : Except AuthenticatedChannelError (Option AuthenticatedFrame)

inductive Observation where
  | ack (ack : ControlAck)
  | status (status : WorkerStatus)
  | exit (status : ExitStatus)
  | disconnected
  | protocolFailure
  deriving DecidableEq

structure Observed where
  instanceId : InstanceId
  observation : Observation
  deriving DecidableEq

/-- `WorkerIdentity`, without the runtime token. -/
structure WorkerIdentity where
  generation : GenerationId
  protocol : UInt16
  deriving DecidableEq

/-- `WorkerInput`; the command is the factory's. -/
structure WorkerInput where
  instanceId : InstanceId
  identity : WorkerIdentity

inductive ShutdownProgress where
  | pending (remaining : ℕ) (forced : Bool)
  | complete (forced : Bool)
  deriving DecidableEq

/-- `MasterError`, and `diverged` for the recursion bound of the model, which is never reached
(`applyReplacementEvent`). -/
inductive MasterError where
  | spawn (error : String)
  | invalidState (state : MasterState)
  | protocolVersion (expected actual : UInt16)
  | deadlineOverflow
  | missingWorker (role : WorkerRole)
  | missingSupervisor
  | unexpectedAcknowledgement
  | unexpectedReplacementActions
  | action (action : ActionKind) (source : ActionError)
  | preparation (step : PreparationStep) (source : PreparationError)
  | io (error : IoError)
  | replacement (error : ReplacementError)
  | diverged
  deriving DecidableEq

def MasterError.isIssueFailure : MasterError → Bool
  | .action _ _ | .preparation _ _ => true
  | _ => false

inductive MasterEvent where
  | initialActivated (instanceId : InstanceId)
  | spawnFailed (instanceId : InstanceId)
  | replacementStarted (instanceId : InstanceId)
  | replacementCommitted (active retired : InstanceId)
  | replacementCompleted (active : InstanceId)
  | rollbackStarted (candidate : InstanceId) (phase : FailurePhase)
  | rollbackCompleted (active : InstanceId)
  | actionFailed (role : WorkerRole) (action : ActionKind)
  | preparationFailed (role : WorkerRole) (phase : ControlPhase) (step : PreparationStep)
  | staleAcknowledgement (role : WorkerRole) (requestId : UInt64) (phase : ControlPhase)
  | workerDisconnected (role : WorkerRole) (instanceId : InstanceId)
  | workerExited (role : WorkerRole) (instanceId : InstanceId) (status : ExitStatus)
  | terminationRequested (role : WorkerRole) (forced : Bool)
  | retiredFailed (phase : FailurePhase)
  | shutdownStarted
  | shutdownForced
  | shutdownCompleted (forced : Bool)
  | failClosed (phase : FailurePhase)
  | failed (phase : FailurePhase)
  | workerStatusUpdated (role : WorkerRole) (instanceId : InstanceId) (sequence : UInt64)
  | staleStatus (role : WorkerRole) (sequence : UInt64)
  deriving DecidableEq

structure ManagedWorker where
  instanceId : InstanceId
  generation : GenerationId
  process : WorkerProcess
  pending : Option Pending
  terminationDeadline : Option Instant
  state : WorkerState
  channelOpen : Bool
  status : Option WorkerStatus
  lastEventCursor : UInt64

def ManagedWorker.new (instanceId : InstanceId) (generation : GenerationId)
    (processId : UInt32) : ManagedWorker where
  instanceId := instanceId
  generation := generation
  process := ⟨processId, false⟩
  pending := none
  terminationDeadline := none
  state := .running
  channelOpen := true
  status := none
  lastEventCursor := 0

inductive Stage where
  | bootAdopting
  | bootActivating
  | operational
  | shuttingDown (deadline : Instant) (forced : Bool)
  | failing (phase : FailurePhase)
  | stopped (forced : Bool)
  | failed
  deriving DecidableEq

/-! ## The supervisor the master owns -/

/-- A `ReplacementSupervisor` that `new` and `apply` can produce. The master builds and changes
its supervisor in no other way, so the invariant comes with it. -/
structure Supervisor extends ReplacementSupervisor where
  wellFormed : toReplacementSupervisor.WellFormed

namespace Supervisor

/-- `ReplacementSupervisor::new`. -/
def new (active : Instance) : Except ReplacementError Supervisor :=
  match h : ReplacementSupervisor.new active with
  | .ok s => .ok ⟨s, ReplacementSupervisor.wellFormed_new h⟩
  | .error e => .error e

/-- `ReplacementSupervisor::apply`. -/
def apply (s : Supervisor) (event : ReplacementEvent) :
    Except ReplacementError (List ReplacementAction) × Supervisor :=
  ((ReplacementSupervisor.apply event s.toReplacementSupervisor).1,
    ⟨(ReplacementSupervisor.apply event s.toReplacementSupervisor).2, s.wellFormed.apply⟩)

/-- `ReplacementSupervisor::phase`. -/
def phase (s : Supervisor) : ReplacementPhase := s.phase?.get s.wellFormed.phase?_isSome

end Supervisor

/-! ## What the master runs on -/

/-- `ActionExecutor`: preparing and sending a request, with the executor's own state. -/
class ActionExecutor (E : Type) where
  prepare : WorkerRole → ControlPhase → PreparationStep → Prog E PreparationError Unit
  duplicateListeners : WorkerRole → DescriptorManifest → Prog E ActionError (List OwnedFd)
  send : WorkerRole → WorkerProcess → ControlPhase → List UInt8 → List OwnedFd →
    Prog E ActionError Unit

/-- An executor together with the operating system's answers to `WorkerProcess::request_kill`. -/
class Runtime (E : Type) extends ActionExecutor E where
  requestKill : WorkerProcess → Prog E IoError Unit

end Master

open Master in
structure Master (E : Type) where
  config : MasterConfig
  listeners : DescriptorManifest
  executor : E
  supervisor : Option Supervisor
  active : Option ManagedWorker
  candidate : Option ManagedWorker
  retired : Option ManagedWorker
  deferredActiveExit : Option ExitStatus
  replacementFailure : Option FailurePhase
  stage : Stage
  nextRequestId : UInt64
  events : List MasterEvent
  snapshotHistory : SupervisorSnapshotHistory

namespace Master

variable {E : Type} (s : Master E)

def worker : WorkerRole → Option ManagedWorker
  | .active => s.active
  | .candidate => s.candidate
  | .retired => s.retired

variable (role : WorkerRole)

def setWorker (worker : Option ManagedWorker) : Master E :=
  match role with
  | .active => { s with active := worker }
  | .candidate => { s with candidate := worker }
  | .retired => { s with retired := worker }

/-- An event queued for the next `poll`. -/
def push (event : MasterEvent) : Master E := { s with events := s.events ++ [event] }

/-- The executor and the request counter after an attempt to prepare or send a request. -/
def touch (executor : E) (nextRequestId : UInt64) : Master E :=
  { s with executor, nextRequestId }

/-- `take_worker`, whose returned worker no caller reads: the slot is emptied and the worker's
last status joins the history. -/
def takeWorker : Master E :=
  { s.setWorker role none with
    snapshotHistory := s.snapshotHistory.reap ((s.worker role).bind (·.status)) }

def roleFor (instanceId : InstanceId) : Option WorkerRole :=
  WorkerRole.all.find? fun role => (s.worker role).any fun worker => worker.instanceId = instanceId

/-- The workers present, in role order. -/
def workers : List ManagedWorker := WorkerRole.all.filterMap s.worker

def workerCount : ℕ := s.workers.length

def replacementPhase : Option ReplacementPhase := s.supervisor.map (·.phase)

def workerState : Option WorkerState :=
  (s.worker role).map (·.state)

/-- `state`; `none` is its `expect`. -/
def state? : Option MasterState :=
  match s.stage with
  | .bootAdopting => some .starting
  | .bootActivating => some .activatingInitial
  | .operational => s.replacementPhase.map fun
    | .running => .running
    | .adoptingCandidate => .adoptingCandidate
    | .quiescing => .quiescing
    | .activatingCandidate => .activatingCandidate
    | .rollingBack => .rollingBack
    | .drainingRetired => .drainingRetired
    | .stoppingRetired => .stoppingRetired
  | .shuttingDown _ _ => some .shuttingDown
  | .failing _ => some .failing
  | .stopped _ => some .stopped
  | .failed => some .failed

/-- The earliest instant at which a worker misses a deadline. -/
def workerDeadline (worker : ManagedWorker) : Option Instant :=
  ((worker.pending.map (·.deadline)).toList ++ worker.terminationDeadline.toList).min?

def nextDeadline : Option Instant :=
  match s.stage with
  | .shuttingDown deadline _ => some deadline
  | _ => (s.workers.filterMap workerDeadline).min?

def shutdownProgress : ShutdownProgress :=
  match s.stage with
  | .stopped forced => .complete forced
  | .shuttingDown _ forced => .pending s.workerCount forced
  | _ => .pending s.workerCount false

def generationRole : WorkerRole → GenerationRole
  | .active => .active
  | .candidate => .candidate
  | .retired => .previous

/-- The live workers a snapshot reads: those that have reported a status. -/
def snapshotSources : List WorkerSnapshotSource :=
  WorkerRole.all.filterMap fun role =>
    (s.worker role).bind fun worker => worker.status.map fun status =>
      ⟨generationRole role, worker.instanceId, worker.generation, status⟩

def supervisorSnapshot {R T : Type} (s : Master E) (catalog : SupervisedGenerationCatalog R T) :
    Except SupervisorSnapshotError (SupervisorSnapshot R) :=
  s.snapshotHistory.snapshot catalog s.snapshotSources

def totals : WorkerMetrics × ListenerMap SupervisorListenerSnapshot :=
  s.snapshotHistory.totals s.snapshotSources

end Master

end Oxiroute
