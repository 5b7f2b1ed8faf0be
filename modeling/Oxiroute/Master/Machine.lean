import Oxiroute.Master.State

/-!
# The master state machine

Model of `impl Master` in `oxiroute-supervisor-master/src/master.rs`. A method is a `Prog` over
the master, so a failing call keeps what it had changed, as `&mut self` does.

The source's methods are mutually recursive: applying a replacement event executes actions, a
failed action is compensated by a rollback, and a rollback applies another event. The methods
inside that cycle take the recursive call as the parameter `apply`, and `applyReplacementEvent`
ties the knot `nesting` times. The action queue is bounded in the same way. `diverged` is what a
method would return beyond these bounds.

What the environment decides is an argument: the factory's answer to `spawn`, and for each worker
the `Arrival` that `observe` finds.
-/

namespace Oxiroute.Master

open Lib Prog Supervision

variable {E : Type} [Runtime E]

abbrev Method (E : Type) := Prog (Master E) MasterError

/-- The recursive call of the methods that apply replacement events. -/
abbrev ApplyEvent (E : Type) := ReplacementEvent → Instant → Method E Unit

/-! ## Small steps -/

/-- A call on the executor, its error wrapped. -/
def onExecutor {ε α : Type} (call : Prog E ε α) (wrap : ε → MasterError) : Method E α :=
  ⟨fun s => ((call s.executor).1.mapError wrap, { s with executor := (call s.executor).2 })⟩

def pushEvent (event : MasterEvent) : Method E Unit := modify (·.push event)

variable (role : WorkerRole)

/-- `worker(role).ok_or(MissingWorker(role))`. -/
def workerOr : Method E ManagedWorker := do
  okOr ((← get).worker role) (.missingWorker role)

/-- An assignment through `worker_mut(role)`. -/
def updateWorker (f : ManagedWorker → ManagedWorker) : Method E Unit := do
  let worker ← workerOr role
  modify (·.setWorker role (some (f worker)))

/-- `active_id`, `candidate_id` and `retired_id`. -/
def workerId : Method E InstanceId := do
  pure (← workerOr role).instanceId

/-- `supervisor_mut()?.apply(event)?`. -/
def applySupervisor (event : ReplacementEvent) : Method E (List ReplacementAction) := do
  let supervisor ← okOr (← get).supervisor .missingSupervisor
  modify ({ · with supervisor := some (supervisor.apply event).2 })
  ofExcept ((supervisor.apply event).1.mapError .replacement)

/-! ## Requests -/

variable (phase : ControlPhase)

def prepareStep (step : PreparationStep) : Method E Unit :=
  onExecutor (ActionExecutor.prepare role phase step) (.preparation step)

def takeRequestId : Method E UInt64 := do
  let requestId := (← get).nextRequestId
  let next ← okOr (checkedAdd requestId 1) (.preparation .requestId .requestIdExhausted)
  modify ({ · with nextRequestId := next })
  pure requestId

def requestPayload (adoption : Bool) (requestId : UInt64) (listeners : Unix.DescriptorManifest) :
    Except MasterError (List UInt8) :=
  if adoption then
    (encodeAdoptRequest requestId listeners).mapError fun source =>
      .preparation .encoding (.protocol source)
  else .ok (encodeRequest requestId)

def prepareRequestAtDeadline (deadline : Instant) (adoption : Bool) : Method E PreparedRequest := do
  prepareStep role phase .requestId
  let requestId ← takeRequestId
  prepareStep role phase .encoding
  prepareStep role phase .allocation
  let listeners := (← get).listeners
  let payload ← ofExcept (requestPayload adoption requestId listeners)
  pure ⟨⟨requestId, phase, deadline⟩, payload⟩

def prepareRequest (now : Instant)
    (timeout : Duration) (adoption : Bool) : Method E PreparedRequest := do
  prepareStep role phase .deadline
  let deadline ← okOr (deadlineAfter now timeout) (.preparation .deadline .deadlineOverflow)
  prepareRequestAtDeadline role phase deadline adoption

def dispatch (request : PreparedRequest) (descriptors : List OwnedFd) : Method E Unit := do
  let worker ← workerOr role
  onExecutor (ActionExecutor.send role worker.process request.pending.phase request.payload
    descriptors) (.action (.send request.pending.phase))
  updateWorker role ({ · with pending := some request.pending })

variable (now : Instant)

def issueAdoption : Method E Unit := do
  let s ← get
  let request ← prepareRequest role .adoptListeners now s.config.adoption true
  let duplicates ← onExecutor (ActionExecutor.duplicateListeners role s.listeners)
    (.action .duplicateListeners)
  dispatch role request duplicates

variable (phase : ControlPhase)

/-- `issue`: the deadline of the request. -/
def issue (now : Instant) (timeout : Duration) : Method E Instant := do
  let request ← prepareRequest role phase now timeout false
  dispatch role request []
  pure request.pending.deadline

def issueAtDeadline (deadline : Instant) : Method E Unit := do
  prepareStep role phase .deadline
  let request ← prepareRequestAtDeadline role phase deadline false
  dispatch role request []

def recordIssueFailure : MasterError → Method E Unit
  | .action action _ => pushEvent (.actionFailed role action)
  | .preparation step _ => pushEvent (.preparationFailed role phase step)
  | error => throw error

/-! ## Termination and failing closed -/

def markTerminating (forced : Bool) : Method E Unit := do
  updateWorker role ({ · with state := .terminating forced })
  pushEvent (.terminationRequested role forced)

def forceRole : Method E Unit := do
  if (← get).workerState role = some (.terminating true) then pure ()
  else
    let worker ← workerOr role
    onExecutor (Runtime.requestKill worker.process) .io
    updateWorker role ({ · with
      process := { worker.process with killRequested := true }
      pending := none
      state := .terminating true })
    pushEvent (.terminationRequested role true)

/-- The loop `for role in [..] { if worker(role).is_some() { force_role(role)? } }`. -/
def forceAll : Method E Unit :=
  forEach WorkerRole.all fun role => do
    if ((← get).worker role).isSome then forceRole role else pure ()

/-- `deferred_active_exit.take()` followed by `take_worker(Active)` when there was one. -/
def reapDeferredExit : Method E Unit := do
  if (← get).deferredActiveExit.isSome then
    modify fun s => { s with deferredActiveExit := none }.takeWorker .active
  else pure ()

/-- The first statement of `fail_master`'s body: the stage becomes `Failing`, once. -/
def enterFailing (phase : FailurePhase) : Method E Unit := do
  match (← get).stage with
  | .failing _ => pure ()
  | _ =>
    modify ({ · with stage := .failing phase })
    pushEvent (.failClosed phase)

def failMaster (phase : FailurePhase) : Method E Unit := do
  match (← get).stage with
  | .failed => pure ()
  | _ =>
    enterFailing phase
    reapDeferredExit
    forceAll

/-! ## Rollback and completion -/

def maybeFinishRollback : Method E Unit := do
  let s ← get
  if s.replacementPhase = some .running ∧ s.replacementFailure.isSome then
    modify ({ · with replacementFailure := none })
    pushEvent (.rollbackCompleted (← workerId .active))
  else pure ()

def beginRollback (apply : ApplyEvent E) (phase : FailurePhase) (now : Instant) :
    Method E Unit := do
  let s ← get
  if s.deferredActiveExit.isSome then failMaster .crash
  else
    let candidate ← okOr (s.supervisor.bind (·.candidate)) (.missingWorker .candidate)
    modify ({ · with replacementFailure := some phase })
    pushEvent (.rollbackStarted candidate.instanceId phase)
    apply (.candidateFailed candidate.instanceId) now
    maybeFinishRollback

def failRetired (apply : ApplyEvent E) (phase : FailurePhase) (now : Instant) : Method E Unit := do
  let retired ← workerId .retired
  modify ({ · with replacementFailure := some phase })
  apply (.retiredFailed retired) now

def completeReplacement : Method E Unit := do
  pushEvent (.replacementCompleted (← workerId .active))

def completeFailedRetired : Method E Unit := do
  let phase ← okOr (← get).replacementFailure .unexpectedReplacementActions
  modify ({ · with replacementFailure := none })
  pushEvent (.retiredFailed phase)
  completeReplacement

def handlePhaseFailure (apply : ApplyEvent E) (role : WorkerRole) (phase : FailurePhase)
    (now : Instant) : Method E Unit := do
  let s ← get
  match s.stage, s.replacementPhase, role with
  | .operational, some .adoptingCandidate, .candidate
  | .operational, some .quiescing, .candidate
  | .operational, some .activatingCandidate, .candidate
  | .operational, some .quiescing, .active => beginRollback apply phase now
  | .operational, some .drainingRetired, .retired
  | .operational, some .stoppingRetired, .retired => failRetired apply phase now
  | .shuttingDown _ _, _, _ => forceRole role
  | _, _, _ => failMaster phase

def compensateIssueError (apply : ApplyEvent E) (role : WorkerRole) (phase : ControlPhase)
    (failure : FailurePhase) (now : Instant) (error : MasterError) : Method E Unit := do
  recordIssueFailure role phase error
  handlePhaseFailure apply role failure now

/-- A request that is compensated when it cannot be issued. -/
def orCompensate {α : Type} (apply : ApplyEvent E) (request : Method E α) (role : WorkerRole)
    (phase : ControlPhase) (failure : FailurePhase) (now : Instant) : Method E Unit := do
  match ← request.attempt with
  | .ok _ => pure ()
  | .error error => compensateIssueError apply role phase failure now error

def issueOrCompensate (apply : ApplyEvent E) (role : WorkerRole) (phase : ControlPhase)
    (now : Instant) (timeout : Duration) (failure : FailurePhase) : Method E Unit :=
  orCompensate apply (issue role phase now timeout) role phase failure now

/-! ## Executing replacement actions -/

def commitCandidate (retiredId : InstanceId) : Method E Unit := do
  let supervisor ← okOr (← get).supervisor .missingSupervisor
  let candidate := supervisor.active.instanceId
  let old ← workerOr .active
  if old.instanceId ≠ retiredId then throw .unexpectedReplacementActions
  else
    let promoted ← workerOr .candidate
    if promoted.instanceId ≠ candidate then throw .unexpectedReplacementActions
    else
      modify ({ · with active := some promoted, candidate := none, retired := some old })
      pushEvent (.replacementCommitted candidate retiredId)

/-- `RetiredStopped` for a retired worker that has already exited: it leaves its slot first. -/
def releaseRetired (apply : ApplyEvent E) (retired : InstanceId) (now : Instant) :
    Method E Unit := do
  modify (·.takeWorker .retired)
  apply (.retiredStopped retired) now

/-- `CandidateStopped` for a candidate that has already exited. -/
def releaseCandidate (apply : ApplyEvent E) (candidate : InstanceId) (now : Instant) :
    Method E Unit := do
  modify (·.takeWorker .candidate)
  apply (.candidateStopped candidate) now

variable (instanceId : InstanceId)

/-- The role an action names, `UnexpectedReplacementActions` when its instance is not owned. -/
def actionRole : Method E WorkerRole := do
  okOr ((← get).roleFor instanceId) .unexpectedReplacementActions

/-- The spawn closure of `replace`; `None` everywhere else. -/
abbrev SpawnAction := Option (Instance → Except MasterError ManagedWorker)

/-- `ReplacementAction::Spawn`. -/
def spawnCandidate (spawn : SpawnAction) (candidate : Instance) : Method E Unit := do
  match (← okOr spawn .unexpectedReplacementActions) candidate with
  | .ok worker =>
    modify ({ · with candidate := some worker })
    pushEvent (.replacementStarted candidate.instanceId)
  | .error error =>
    pushEvent (.spawnFailed candidate.instanceId)
    throw error

/-- `ReplacementAction::Prepare`. -/
def prepareInstance (apply : ApplyEvent E) (now : Instant) (instanceId : InstanceId) :
    Method E Unit := do
  match (← get).roleFor instanceId with
  | none => throw (.missingWorker .candidate)
  | some .candidate =>
    orCompensate apply (issueAdoption .candidate now) .candidate .adoptListeners
      .listenerAdoption now
  | some _ => throw .unexpectedReplacementActions

/-- `ReplacementAction::Activate`. -/
def activateInstance (apply : ApplyEvent E) (now : Instant) (instanceId : InstanceId) :
    Method E Unit := do
  let timeout := (← get).config.activation
  match ← actionRole instanceId with
  | .active => issueOrCompensate apply .active .reactivate now timeout .reactivation
  | .candidate => issueOrCompensate apply .candidate .activate now timeout .activation
  | .retired => throw .unexpectedReplacementActions

/-- `ReplacementAction::Quiesce`. -/
def quiesceInstance (apply : ApplyEvent E) (now : Instant) (instanceId : InstanceId) :
    Method E Unit := do
  let s ← get
  if s.roleFor instanceId ≠ some .active then throw .unexpectedReplacementActions
  else issueOrCompensate apply .active .quiesce now s.config.quiesce .quiesce

/-- `ReplacementAction::Drain`: the candidate is committed; an old worker that has already exited
is not asked to drain. -/
def drainInstance (apply : ApplyEvent E) (now : Instant) (instanceId : InstanceId) :
    Method E Unit := do
  commitCandidate instanceId
  let s ← get
  if s.deferredActiveExit.isSome then
    modify ({ · with deferredActiveExit := none })
    failRetired apply .crash now
    releaseRetired apply (← workerId .retired) now
    completeFailedRetired
  else issueOrCompensate apply .retired .drain now s.config.drain .drain

/-- `ReplacementAction::Terminate` on a retired worker. -/
def terminateRetired (apply : ApplyEvent E) (now : Instant) (timeout : Duration) :
    Method E Unit := do
  match ← (issue .retired .shutdown now timeout).attempt with
  | .ok deadline =>
    markTerminating .retired false
    updateWorker .retired ({ · with terminationDeadline := some deadline })
  | .error error =>
    if error.isIssueFailure then
      recordIssueFailure .retired .shutdown error
      failRetired apply .shutdown now
    else throw error

/-- `ReplacementAction::Terminate`. -/
def terminateInstance (apply : ApplyEvent E) (now : Instant) (instanceId : InstanceId) :
    Method E Unit := do
  let timeout := (← get).config.shutdown
  match ← actionRole instanceId with
  | .candidate => forceRole .candidate
  | .retired => terminateRetired apply now timeout
  | .active => throw .unexpectedReplacementActions

/-- `ReplacementAction::Kill`. -/
def killInstance : Method E Unit := do
  forceRole (← actionRole instanceId)

/-- One round of the loop of `execute_replacement_actions`: the actions it appends to the queue,
which only `Snapshot` does. -/
def executeAction (apply : ApplyEvent E) (now : Instant) (spawn : SpawnAction) :
    ReplacementAction → Method E (List ReplacementAction)
  | .spawn candidate => do
    spawnCandidate spawn candidate
    pure []
  | .prepare instanceId => do
    prepareInstance apply now instanceId
    pure []
  | .activate instanceId => do
    activateInstance apply now instanceId
    pure []
  | .quiesce instanceId => do
    quiesceInstance apply now instanceId
    pure []
  | .drain instanceId => do
    drainInstance apply now instanceId
    pure []
  | .snapshot instanceId => applySupervisor (.retiredSnapshotCaptured instanceId)
  | .terminate instanceId => do
    terminateInstance apply now instanceId
    pure []
  | .kill instanceId => do
    killInstance instanceId
    pure []

/-- The number of rounds the action queue is given. -/
def actionRounds : ℕ := 3

/-- `execute_replacement_actions`: the queue, at most `rounds` actions of it. -/
def executeReplacementActions (apply : ApplyEvent E) (now : Instant) (spawn : SpawnAction) :
    ℕ → List ReplacementAction → Method E Unit
  | _, [] => pure ()
  | 0, _ :: _ => throw .diverged
  | rounds + 1, action :: queue => do
    let more ← executeAction apply now spawn action
    executeReplacementActions apply now spawn rounds (queue ++ more)

/-- `apply_replacement_event`, nested at most `depth` times. -/
def applyReplacementEvent : ℕ → ReplacementEvent → Instant → Method E Unit
  | 0, _, _ => throw .diverged
  | depth + 1, event, now => do
    let actions ← applySupervisor event
    executeReplacementActions (applyReplacementEvent depth) now none actionRounds actions

/-- A compensation applies at most one event inside another. -/
def nesting : ℕ := 2

/-- `apply_replacement_event`, as the methods outside the cycle call it. -/
abbrev applyEvent : ApplyEvent E := applyReplacementEvent nesting

/-! ## Handling observations -/

def phaseFailure : ControlPhase → FailurePhase
  | .adoptListeners => .listenerAdoption
  | .quiesce => .quiesce
  | .activate => .activation
  | .drain => .drain
  | .reactivate => .reactivation
  | .shutdown => .shutdown

/-- `BootActivating` with an accepted `Activate`: the master becomes operational. -/
def becomeOperational : Method E Unit := do
  let active ← workerOr .active
  let supervisor ← ofExcept
    ((Supervisor.new ⟨active.instanceId, active.generation, .active⟩).mapError .replacement)
  modify ({ · with supervisor := some supervisor, stage := .operational })
  pushEvent (.initialActivated active.instanceId)

def handlePhaseSuccess (now : Instant) : Method E Unit := do
  let s ← get
  match s.stage, s.replacementPhase, role, phase with
  | .bootAdopting, _, .active, .adoptListeners =>
    modify ({ · with stage := .bootActivating })
    issueOrCompensate applyEvent .active .activate now s.config.activation .activation
  | .bootActivating, _, .active, .activate => becomeOperational
  | .operational, some .adoptingCandidate, .candidate, .adoptListeners =>
    applyEvent (.candidatePrepared (← workerId .candidate)) now
  | .operational, some .quiescing, .active, .quiesce =>
    applyEvent (.activeQuiesced (← workerId .active)) now
  | .operational, some .activatingCandidate, .candidate, .activate =>
    applyEvent (.candidateActivated (← workerId .candidate)) now
  | .operational, some .rollingBack, .active, .reactivate =>
    applyEvent (.activeReactivated (← workerId .active)) now
    maybeFinishRollback
  | .operational, some .drainingRetired, .retired, .drain =>
    applyEvent (.retiredDrained (← workerId .retired)) now
  | .operational, some .stoppingRetired, .retired, .shutdown => pure ()
  | .shuttingDown _ _, _, _, .shutdown => pure ()
  | _, _, _, _ => throw .unexpectedAcknowledgement

def handleAck (ack : ControlAck) (now : Instant) : Method E Unit := do
  if ((← get).worker role).bind (·.pending) |>.all fun pending =>
      pending.requestId ≠ ack.requestId ∨ pending.phase ≠ ack.phase then
    pushEvent (.staleAcknowledgement role ack.requestId ack.phase)
  else
    updateWorker role ({ · with pending := none })
    match ack.outcome with
    | .rejected _ => handlePhaseFailure applyEvent role (phaseFailure ack.phase) now
    | .accepted => handlePhaseSuccess role ack.phase now

def handleStatus (status : WorkerStatus) : Method E Unit := do
  let worker ← workerOr role
  if status.sequence ≤ (worker.status.map (·.sequence)).getD 0 then
    pushEvent (.staleStatus role status.sequence)
  else
    let recorded := (← get).snapshotHistory.recordEvents (generationRole role)
      worker.instanceId worker.generation worker.lastEventCursor status
    modify ({ · with snapshotHistory := recorded.1 })
    let retained := worker.status.elim status fun previous => retainMonotonicStatus previous status
    updateWorker role ({ · with lastEventCursor := recorded.2, status := some retained })
    pushEvent (.workerStatusUpdated role worker.instanceId status.sequence)

def handleDisconnect : Method E Unit := do
  let worker ← workerOr role
  pushEvent (.workerDisconnected role worker.instanceId)
  match worker.state with
  | .terminating _ => pure ()
  | .running => handlePhaseFailure applyEvent role .disconnected now

/-- The `match` of `handle_exit`, once the exit has been reported. -/
def handleReportedExit (now : Instant) : Method E Unit := do
  let s ← get
  match s.stage, s.replacementPhase, role with
  | .failing _, _, _ | .shuttingDown _ _, _, _ => modify (·.takeWorker role)
  | .operational, some .rollingBack, .candidate =>
    releaseCandidate applyEvent instanceId now
    maybeFinishRollback
  | .operational, some .stoppingRetired, .retired =>
    releaseRetired applyEvent instanceId now
    if (← get).replacementFailure.isSome then completeFailedRetired else completeReplacement
  | .operational, some .adoptingCandidate, .candidate
  | .operational, some .quiescing, .candidate
  | .operational, some .activatingCandidate, .candidate =>
    beginRollback applyEvent .crash now
    releaseCandidate applyEvent instanceId now
    maybeFinishRollback
  | .operational, some .drainingRetired, .retired =>
    failRetired applyEvent .crash now
    releaseRetired applyEvent instanceId now
    completeFailedRetired
  | _, _, _ =>
    modify (·.takeWorker role)
    failMaster .crash

def handleExit (status : ExitStatus) (now : Instant) : Method E Unit := do
  let worker ← workerOr role
  let report := MasterEvent.workerExited role worker.instanceId status
  if (← get).replacementPhase = some .activatingCandidate ∧ role = .active then
    modify ({ · with deferredActiveExit := some status })
    pushEvent report
  else
    pushEvent report
    handleReportedExit role worker.instanceId now

def handleObservation (observation : Observation) (now : Instant) : Method E Unit :=
  match observation with
  | .ack ack => handleAck role ack now
  | .status status => handleStatus role status
  | .exit status => handleExit role status now
  | .disconnected => handleDisconnect role now
  | .protocolFailure => handlePhaseFailure applyEvent role .protocol now

/-! ## Observing workers -/

/-- The observation a received frame stands for. -/
def frameObservation (frame : AuthenticatedFrame) : Observation :=
  if frame.messageType = ackMessage then
    match decodeAck frame with
    | .ok ack => .ack ack
    | .error _ => .protocolFailure
  else if frame.messageType = statusMessage then
    match decodeStatus frame with
    | .ok status => .status status
    | .error _ => .protocolFailure
  else .protocolFailure

/-- The observation `try_receive`'s answer stands for. -/
def channelObservation :
    Except AuthenticatedChannelError (Option AuthenticatedFrame) → Option Observation
  | .ok (some frame) => some (frameObservation frame)
  | .ok none => none
  | .error (.workerGroupExited status) => some (.exit status)
  | .error error =>
    if channelDisconnected error then some .disconnected else some .protocolFailure

/-- A disconnected channel is not read again. -/
def closeChannel : Option Observation → Method E Unit
  | some .disconnected => updateWorker role ({ · with channelOpen := false })
  | _ => pure ()

def observe (arrival : Arrival) : Method E (Option Observed) := do
  let s ← get
  if role = .active ∧ s.deferredActiveExit.isSome ∧
      s.replacementPhase = some .activatingCandidate then pure none
  else
    match s.worker role with
    | none => pure none
    | some worker =>
      match ← ofExcept (arrival.event.mapError .io) with
      | some status => pure (some ⟨worker.instanceId, .exit status⟩)
      | none =>
        if worker.channelOpen then
          closeChannel role (channelObservation arrival.received)
          pure ((channelObservation arrival.received).map (⟨worker.instanceId, ·⟩))
        else pure none

/-- The loop of `poll` that collects the observations. -/
def observeAll (arrivals : WorkerRole → Arrival) : List WorkerRole → Method E (List Observed)
  | [] => pure []
  | role :: roles => do
    let first ← observe role (arrivals role)
    let rest ← observeAll arrivals roles
    pure (first.toList ++ rest)

/-- The sort key of `poll` during candidate activation. -/
def isCandidateActivation (candidate : Option InstanceId) (item : Observed) : Bool :=
  candidate = some item.instanceId && match item.observation with
    | .ack ⟨_, .activate, .accepted⟩ => true
    | _ => false

/-- The order in which `poll` handles observations: a stable sort on a boolean key. -/
def prioritized (candidate : Option InstanceId) (observed : List Observed) : List Observed :=
  let (first, rest) := observed.partition (isCandidateActivation candidate)
  first ++ rest

/-- One round of the handling loop of `poll`. -/
def handleObserved (item : Observed) : Method E Unit := do
  match (← get).roleFor item.instanceId with
  | none => pure ()
  | some role => handleObservation role item.observation now

/-! ## Deadlines -/

/-- `pending.deadline <= now` for the worker in `role`. -/
def missedDeadline (s : Master E) (now : Instant) (role : WorkerRole) : Option Pending :=
  ((s.worker role).bind (·.pending)).filter fun pending => pending.deadline ≤ now

/-- The part of `handle_timeout` past the retired worker's termination deadline: the first worker
whose request has expired. -/
def handleExpiredRequest : Method E Unit := do
  let s ← get
  match WorkerRole.all.findSome? fun role => (s.missedDeadline now role).map (role, ·) with
  | none => pure ()
  | some (role, pending) =>
    updateWorker role ({ · with pending := none })
    handlePhaseFailure applyEvent role (phaseFailure pending.phase) now

/-- `handle_timeout` outside an expired shutdown: the retired worker's termination deadline comes
before every request's. -/
def handleWorkerTimeout : Method E Unit := do
  let s ← get
  if s.replacementPhase = some .stoppingRetired ∧
      ((s.retired.bind (·.terminationDeadline)).any fun deadline => deadline ≤ now) then
    let retired ← workerId .retired
    modify ({ · with replacementFailure := some .shutdown })
    updateWorker .retired ({ · with terminationDeadline := none })
    applyEvent (.terminationTimedOut retired) now
  else handleExpiredRequest now

/-- `handle_timeout` of an expired shutdown. -/
def expireShutdown (deadline : Instant) (forced : Bool) : Method E Unit := do
  modify fun s =>
    { if forced then s else s.push .shutdownForced with stage := .shuttingDown deadline true }
  forceAll

def handleTimeout : Method E Unit := do
  let s ← get
  if s.nextDeadline.all fun next => now < next then pure ()
  else match s.stage with
    | .shuttingDown deadline forced =>
      if deadline ≤ now then expireShutdown deadline forced else handleWorkerTimeout now
    | _ => handleWorkerTimeout now

def finishTerminalStates : Method E Unit := do
  let s ← get
  if s.workerCount ≠ 0 then pure ()
  else match s.stage with
    | .shuttingDown _ forced =>
      modify ({ · with stage := .stopped forced })
      pushEvent (.shutdownCompleted forced)
    | .failing phase =>
      modify ({ · with stage := .failed })
      pushEvent (.failed phase)
    | _ => pure ()

/-! ## The public calls -/

/-- A failing master retries what `fail_master` could not finish. -/
def retryFailing : Method E Unit := do
  match (← get).stage with
  | .failing phase => failMaster phase
  | _ => pure ()

/-- The part of `poll` before its handling loop: the observations in the order they are handled. -/
def gather (arrivals : WorkerRole → Arrival) : Method E (List Observed) := do
  handleTimeout now
  retryFailing
  let s ← get
  let observed ← observeAll arrivals WorkerRole.all
  if s.replacementPhase = some .activatingCandidate then
    pure (prioritized (s.candidate.map (·.instanceId)) observed)
  else pure observed

/-- The part of `poll` after its handling loop. -/
def drainEvents : Method E (List MasterEvent) := do
  finishTerminalStates
  let events := (← get).events
  modify ({ · with events := [] })
  pure events

def poll (arrivals : WorkerRole → Arrival) : Method E (List MasterEvent) := do
  let observed ← gather now arrivals
  forEach observed (handleObserved now)
  drainEvents

def validateIdentity (identity : WorkerIdentity) : Except MasterError Unit :=
  if identity.protocol ≠ controlProtocolVersion then
    .error (.protocolVersion controlProtocolVersion identity.protocol)
  else .ok ()

/-- The part of `replace` that installs the candidate; a failed spawn restores the supervisor. -/
def installCandidate (factory : Except String UInt32) (candidate : WorkerInput)
    (now : Instant) : Method E Unit := do
  let original := (← get).supervisor
  let supervisor ← okOr original .missingSupervisor
  let actions ← ofExcept ((supervisor.apply (.begin
    ⟨candidate.instanceId, candidate.identity.generation, .spawned⟩)).1.mapError .replacement)
  modify ({ · with supervisor := some (supervisor.apply (.begin
    ⟨candidate.instanceId, candidate.identity.generation, .spawned⟩)).2 })
  let spawn : SpawnAction := some fun created => do
    let processId ← factory.mapError .spawn
    pure (.new created.instanceId candidate.identity.generation processId)
  match ← (executeReplacementActions applyEvent now spawn actionRounds actions).attempt with
  | .ok _ => pure ()
  | .error error =>
    modify ({ · with supervisor := original })
    throw error

def replace (factory : Except String UInt32) (candidate : WorkerInput) (now : Instant) :
    Method E Unit := do
  let s ← get
  if s.state? ≠ some .running then throw (.invalidState (s.state?.getD .running))
  else
    ofExcept (validateIdentity candidate.identity)
    installCandidate factory candidate now
    applyEvent (.candidateSpawned candidate.instanceId) now
    applyEvent (.candidateHandshakeComplete candidate.instanceId) now

/-- The body of `shutdown`'s loop. -/
def shutdownRole (deadline : Instant) (role : WorkerRole) : Method E Unit := do
  if ((← get).worker role).isSome then
    match ← (issueAtDeadline role .shutdown deadline).attempt with
    | .ok _ => markTerminating role false
    | .error error =>
      if error.isIssueFailure then
        recordIssueFailure role .shutdown error
        forceRole role
        modify fun s => match s.stage with
          | .shuttingDown deadline _ => { s with stage := .shuttingDown deadline true }
          | _ => s
      else throw error
  else pure ()

/-- The first call of `shutdown` asks every worker to stop. -/
def startShutdown : Method E Unit := do
  let deadline ← okOr (deadlineAfter now (← get).config.shutdown) .deadlineOverflow
  reapDeferredExit
  modify ({ · with
    stage := .shuttingDown deadline false
    supervisor := none
    replacementFailure := none })
  pushEvent .shutdownStarted
  forEach WorkerRole.all (shutdownRole deadline)

/-- A later call of `shutdown` asks nothing again. -/
def ensureShutdown : Method E Unit := do
  match (← get).stage with
  | .shuttingDown _ _ | .stopped _ => pure ()
  | _ => startShutdown now

def shutdown : Method E ShutdownProgress := do
  ensureShutdown now
  handleTimeout now
  pure (← get).shutdownProgress

/-- The master `launch` builds before it asks the first worker to adopt the listeners. -/
def booting (config : MasterConfig) (listeners : Unix.DescriptorManifest) (executor : E)
    (active : WorkerInput) (processId : UInt32) : Master E where
  config := config
  listeners := listeners
  executor := executor
  supervisor := none
  active := some (.new active.instanceId active.identity.generation processId)
  candidate := none
  retired := none
  deferredActiveExit := none
  replacementFailure := none
  stage := .bootAdopting
  nextRequestId := 1
  events := []
  snapshotHistory := .new

/-- `launch_with_executor`. -/
def launch (config : MasterConfig) (listeners : Unix.DescriptorManifest) (executor : E)
    (factory : Except String UInt32) (active : WorkerInput) (now : Instant) :
    Except MasterError (Master E) := do
  validateIdentity active.identity
  let processId ← factory.mapError .spawn
  match orCompensate applyEvent (issueAdoption .active now) .active .adoptListeners
      .listenerAdoption now (booting config listeners executor active processId) with
  | (.ok _, master) => .ok master
  | (.error error, _) => .error error

/-! ## Runs -/

/-- The calls that change a master. What the factory and the workers do is part of the call. -/
inductive Call (E : Type) where
  | replace (factory : Except String UInt32) (candidate : WorkerInput) (now : Instant)
  | poll (now : Instant) (arrivals : WorkerRole → Arrival)
  | shutdown (now : Instant)
  /-- `action_executor_mut`: the caller may change the executor as it likes. -/
  | adjustExecutor (executor : E)

def perform : Call E → Method E (List MasterEvent)
  | .replace factory candidate now => do
    replace factory candidate now
    pure []
  | .poll now arrivals => poll now arrivals
  | .shutdown now => do
    let _ ← shutdown now
    pure []
  | .adjustExecutor executor => do
    modify ({ · with executor := executor })
    pure []

/-- The master after a sequence of calls, whether they succeed or fail. -/
def afterCalls (s : Master E) (calls : List (Call E)) : Master E :=
  calls.foldl (fun s call => (perform call s).2) s

end Oxiroute.Master
