import Oxiroute.Master.Machine

/-!
# What the small methods of the master can do

Inversion lemmas for the methods below the replacement cycle: what a request, a kill and a
supervisor event change, and how they can fail. Everything later in the development argues from
these lemmas and never unfolds the methods again.

* `Issues`: a method that sends a request records it as pending, or fails as an issue failure and
  touches nothing but the executor and the request counter.
* `forceRole_cases`: a worker is killed at most once.
* `applySupervisor_cases`: an event is a step of the supervisor, or is rejected without effect.
-/

namespace Oxiroute.Master

open Lib Lib.Prog Supervision Supervisor Option

variable {E : Type}

/-! ## Slots -/

section slots

variable (s : Master E) (role : WorkerRole) {role' : WorkerRole} (w : Option ManagedWorker)

@[simp] theorem setWorker_worker :
    (s.setWorker role w).worker role' = if role' = role then w else s.worker role' := by
  cases role <;> cases role' <;> rfl

@[simp] theorem setWorker_supervisor : (s.setWorker role w).supervisor = s.supervisor := by
  cases role <;> rfl

@[simp] theorem setWorker_deferredActiveExit :
    (s.setWorker role w).deferredActiveExit = s.deferredActiveExit := by
  cases role <;> rfl

@[simp] theorem setWorker_replacementFailure :
    (s.setWorker role w).replacementFailure = s.replacementFailure := by
  cases role <;> rfl

@[simp] theorem setWorker_stage : (s.setWorker role w).stage = s.stage := by
  cases role <;> rfl

@[simp] theorem setWorker_events : (s.setWorker role w).events = s.events := by
  cases role <;> rfl

@[simp] theorem setWorker_snapshotHistory :
    (s.setWorker role w).snapshotHistory = s.snapshotHistory := by
  cases role <;> rfl

@[simp] theorem push_worker (event : MasterEvent) : (s.push event).worker role = s.worker role := by
  cases role <;> rfl

@[simp] theorem touch_worker (executor : E) (n : UInt64) :
    (s.touch executor n).worker role = s.worker role := by
  cases role <;> rfl

@[simp] theorem takeWorker_worker :
    (s.takeWorker role).worker role' = if role' = role then none else s.worker role' := by
  cases role <;> cases role' <;> rfl

@[simp] theorem takeWorker_supervisor : (s.takeWorker role).supervisor = s.supervisor := by
  cases role <;> rfl

@[simp] theorem takeWorker_stage : (s.takeWorker role).stage = s.stage := by
  cases role <;> rfl

@[simp] theorem takeWorker_events : (s.takeWorker role).events = s.events := by
  cases role <;> rfl

@[simp] theorem takeWorker_deferredActiveExit :
    (s.takeWorker role).deferredActiveExit = s.deferredActiveExit := by
  cases role <;> rfl

end slots

section run

variable {s : Master E} {role : WorkerRole} {w : ManagedWorker}

theorem workerOr_run (h : s.worker role = some w) : workerOr role s = (.ok w, s) := by
  simp [workerOr, bind_run, h]

theorem workerOr_none (h : s.worker role = none) :
    workerOr role s = (.error (.missingWorker role), s) := by
  simp [workerOr, bind_run, h]

theorem updateWorker_run (h : s.worker role = some w) {f : ManagedWorker → ManagedWorker} :
    updateWorker role f s = (.ok (), s.setWorker role (some (f w))) :=
  bind_ok (workerOr_run h)

theorem workerId_run (h : s.worker role = some w) : workerId role s = (.ok w.instanceId, s) :=
  bind_ok (workerOr_run h)

theorem pushEvent_run {event : MasterEvent} : pushEvent event s = (.ok (), s.push event) := rfl

end run

/-! ## Requests -/

section requests

/-- `x` changes only the executor and the request counter, and can only fail as an issue
failure; what it returns satisfies `good`. -/
def Touches {α : Type} (x : Method E α) (good : α → Prop) : Prop :=
  ∀ s, ∃ executor n, (∃ a, x s = (.ok a, s.touch executor n) ∧ good a) ∨
      ∃ error, x s = (.error error, s.touch executor n) ∧ error.isIssueFailure = true

namespace Touches

variable {α β ε : Type} {good : α → Prop} {fine : β → Prop}

theorem pure {a : α} (h : good a) : Touches (pure a : Method E α) good := fun s =>
  ⟨s.executor, s.nextRequestId, .inl ⟨a, rfl, h⟩⟩

theorem bind {x : Method E α} {f : α → Method E β} (hx : Touches x good)
    (hf : ∀ a, good a → Touches (f a) fine) : Touches (x >>= f) fine := by
  intro s
  obtain ⟨executor, n, ⟨a, ha, hgood⟩ | ⟨error, he, hissue⟩⟩ := hx s
  · rw [bind_ok ha]
    exact hf a hgood _
  · rw [bind_error he]
    exact ⟨executor, n, .inr ⟨error, rfl, hissue⟩⟩

theorem get_bind {f : Master E → Method E β} (hf : ∀ s, Touches (f s) fine) :
    Touches (get >>= f) fine := fun s => hf s s

theorem ofExcept {r : Except MasterError α}
    (hok : ∀ a, r = .ok a → good a) (herr : ∀ error, r = .error error → error.isIssueFailure) :
    Touches (ofExcept r : Method E α) good := by
  intro s
  refine ⟨s.executor, s.nextRequestId, ?_⟩
  cases r with
  | ok a => exact .inl ⟨a, rfl, hok a rfl⟩
  | error error => exact .inr ⟨error, rfl, herr error rfl⟩

theorem okOr {o : Option α} {error : MasterError} (h : error.isIssueFailure = true) :
    Touches (okOr o error : Method E α) fun _ => True := by
  intro s
  refine ⟨s.executor, s.nextRequestId, ?_⟩
  cases o with
  | some a => exact .inl ⟨a, rfl, trivial⟩
  | none => exact .inr ⟨error, rfl, h⟩

theorem onExecutor {call : Prog E ε α} {wrap : ε → MasterError}
    (h : ∀ e, (wrap e).isIssueFailure = true) :
    Touches (onExecutor call wrap : Method E α) fun _ => True := by
  intro s
  refine ⟨(call s.executor).2, s.nextRequestId, ?_⟩
  unfold Master.onExecutor
  simp only
  cases (call _).1 with
  | ok a => exact .inl ⟨a, rfl, trivial⟩
  | error e => exact .inr ⟨wrap e, rfl, h e⟩

end Touches

variable [Runtime E] {role : WorkerRole} {phase : ControlPhase} {adoption : Bool}
  {deadline now : Instant}

theorem touches_prepareStep {step : PreparationStep} :
    Touches (prepareStep role phase step : Method E Unit) fun _ => True :=
  Touches.onExecutor fun _ => rfl

omit [Runtime E] in
theorem touches_takeRequestId : Touches (takeRequestId : Method E UInt64) fun _ => True := by
  refine Touches.get_bind fun s => Touches.bind (Touches.okOr rfl) fun next _ => ?_
  exact fun s' => ⟨s'.executor, next, .inl ⟨s.nextRequestId, rfl, trivial⟩⟩

variable {error : MasterError}

theorem requestPayload_error {requestId : UInt64} {listeners : Unix.DescriptorManifest}
    (h : requestPayload adoption requestId listeners = .error error) : error.isIssueFailure := by
  unfold requestPayload at h
  cases adoption with
  | false => simp at h
  | true =>
    cases hp : encodeAdoptRequest requestId listeners with
    | ok payload =>
      rw [hp] at h
      exact absurd h (by simp [Except.mapError])
    | error source =>
      rw [hp] at h
      obtain rfl := Except.error.inj h
      rfl

theorem touches_prepareRequestAtDeadline :
    Touches (prepareRequestAtDeadline role phase deadline adoption : Method E PreparedRequest)
      fun request => request.pending.phase = phase ∧ request.pending.deadline = deadline := by
  refine touches_prepareStep.bind fun _ _ => ?_
  refine touches_takeRequestId.bind fun requestId _ => ?_
  refine touches_prepareStep.bind fun _ _ => ?_
  refine touches_prepareStep.bind fun _ _ => ?_
  refine Touches.get_bind fun s => ?_
  have hpayload : Touches (ofExcept (requestPayload adoption requestId s.listeners) :
      Method E (List UInt8)) fun _ => True :=
    Touches.ofExcept (fun _ _ => trivial) fun _ h => requestPayload_error h
  exact hpayload.bind fun payload _ => Touches.pure ⟨rfl, rfl⟩

theorem touches_prepareRequest {timeout : Duration} :
    Touches (prepareRequest role phase now timeout adoption : Method E PreparedRequest)
      fun request => request.pending.phase = phase := by
  refine touches_prepareStep.bind fun _ _ => ?_
  refine (Touches.okOr rfl).bind fun deadline _ => ?_
  intro s
  obtain ⟨executor, n, ⟨request, hr, hp, -⟩ | herr⟩ :=
    touches_prepareRequestAtDeadline s
  · exact ⟨executor, n, .inl ⟨request, hr, hp⟩⟩
  · exact ⟨executor, n, .inr herr⟩

/-- The worker with a request in flight. -/
def ManagedWorker.awaiting (w : ManagedWorker) (p : Pending) : ManagedWorker :=
  { w with pending := some p }

/-- `x` sends a `phase` request to the worker in `role`: it is recorded as pending, or the attempt
fails as an issue failure and leaves the worker alone. -/
def Issues {α : Type} (x : Method E α) (role : WorkerRole) (phase : ControlPhase) : Prop :=
  ∀ s w, s.worker role = some w → ∃ executor n,
    (∃ a p, x s = (.ok a, (s.touch executor n).setWorker role (some (w.awaiting p))) ∧
      p.phase = phase) ∨
    ∃ error, x s = (.error error, s.touch executor n) ∧ error.isIssueFailure = true

theorem issues_dispatch {request : PreparedRequest} {descriptors : List OwnedFd} :
    Issues (dispatch role request descriptors : Method E Unit) role request.pending.phase := by
  intro s w hw
  have hsend : Touches (onExecutor (ActionExecutor.send role w.process request.pending.phase
      request.payload descriptors) (.action (.send request.pending.phase)) : Method E Unit)
      fun _ => True :=
    Touches.onExecutor fun _ => rfl
  unfold dispatch
  rw [bind_ok (workerOr_run hw)]
  obtain ⟨executor, n, ⟨_, hok, -⟩ | ⟨error, herr, hissue⟩⟩ := hsend s
  · have hw' : (s.touch executor n).worker role = some w := by rw [touch_worker, hw]
    rw [bind_ok hok, updateWorker_run hw']
    exact ⟨executor, n, .inl ⟨(), request.pending, rfl, rfl⟩⟩
  · rw [bind_error herr]
    exact ⟨executor, n, .inr ⟨error, rfl, hissue⟩⟩

omit [Runtime E] in
/-- A preparation followed by a dispatch. -/
theorem Issues.after {α β : Type} {x : Method E α} {f : α → Method E β} {good : α → Prop}
    (hx : Touches x good) (hf : ∀ a, good a → Issues (f a) role phase) :
    Issues (x >>= f) role phase := by
  intro s w hw
  obtain ⟨executor, n, ⟨a, ha, hgood⟩ | ⟨error, he, hissue⟩⟩ := hx s
  · rw [bind_ok ha]
    exact hf a hgood _ w (by rw [touch_worker, hw])
  · rw [bind_error he]
    exact ⟨executor, n, .inr ⟨error, rfl, hissue⟩⟩

theorem issues_issueAdoption :
    Issues (issueAdoption role now : Method E Unit) role .adoptListeners := by
  intro s
  refine Issues.after touches_prepareRequest (fun request hphase => ?_) s
  refine Issues.after (Touches.onExecutor fun _ => rfl) fun duplicates _ => ?_
  exact hphase ▸ issues_dispatch

theorem issues_issue (role : WorkerRole) (phase : ControlPhase) (now : Instant)
    (timeout : Duration) : Issues (issue role phase now timeout : Method E Instant) role phase := by
  refine Issues.after touches_prepareRequest fun request hphase => ?_
  intro s w hw
  obtain ⟨executor, n, ⟨_, p, hok, hp⟩ | ⟨error, herr, hissue⟩⟩ :=
    issues_dispatch s w hw
  · rw [bind_ok hok]
    exact ⟨executor, n, .inl ⟨_, p, rfl, hp.trans hphase⟩⟩
  · rw [bind_error herr]
    exact ⟨executor, n, .inr ⟨error, rfl, hissue⟩⟩

theorem issues_issueAtDeadline :
    Issues (issueAtDeadline role phase deadline : Method E Unit) role phase := by
  refine Issues.after touches_prepareStep fun _ _ => ?_
  refine Issues.after touches_prepareRequestAtDeadline fun request hphase => ?_
  exact hphase.1 ▸ issues_dispatch

/-- The event reports that a request to the worker in `role` could not be issued. -/
def MasterEvent.issueFailed (role : WorkerRole) : MasterEvent → Bool
  | .actionFailed owner _ | .preparationFailed owner _ _ => owner = role
  | _ => false

omit [Runtime E] in
theorem recordIssueFailure_run (h : error.isIssueFailure = true) (role : WorkerRole)
    (phase : ControlPhase) : ∃ event, event.issueFailed role = true ∧
      ∀ s : Master E, recordIssueFailure role phase error s = (.ok (), s.push event) := by
  cases error with
  | action action _ => exact ⟨.actionFailed role action, by simp [MasterEvent.issueFailed],
      fun _ => rfl⟩
  | preparation step _ => exact ⟨.preparationFailed role phase step,
      by simp [MasterEvent.issueFailed], fun _ => rfl⟩
  | _ => exact absurd h Bool.false_ne_true

end requests

/-! ## Kills -/

section kills

variable [Runtime E] {s : Master E} {role : WorkerRole} {w : ManagedWorker}

def ManagedWorker.killed (w : ManagedWorker) : ManagedWorker :=
  { w with
    process := { w.process with killRequested := true }
    pending := none
    state := .terminating true }

/-- A worker that is being killed is left alone; any other is killed, unless the operating system
refuses. -/
theorem forceRole_cases (hw : s.worker role = some w) :
    (w.state = .terminating true ∧ forceRole role s = (.ok (), s)) ∨
    (w.state ≠ .terminating true ∧ ∃ executor, forceRole role s = (.ok (),
      ((s.touch executor s.nextRequestId).setWorker role (some w.killed)).push
        (.terminationRequested role true))) ∨
    ∃ executor error, forceRole role s = (.error (.io error), s.touch executor s.nextRequestId) ∧
      (Runtime.requestKill w.process s.executor).1 = .error error := by
  have hstate : s.workerState role = some w.state := by simp [workerState, hw]
  by_cases hforced : w.state = .terminating true
  · left
    unfold forceRole
    simp [bind_run, hstate, hforced]
  · right
    have hne : ¬ s.workerState role = some (.terminating true) := by
      rw [hstate]
      exact fun h => hforced (some.inj h)
    unfold forceRole
    simp only [bind_run, get_run, if_neg hne, workerOr_run hw, onExecutor]
    cases hk : (Runtime.requestKill w.process s.executor).1 with
    | error error => exact .inr ⟨_, error, rfl, rfl⟩
    | ok _ =>
      refine .inl ⟨hforced, (Runtime.requestKill w.process s.executor).2, ?_⟩
      have hw' : (s.touch (Runtime.requestKill w.process s.executor).2 s.nextRequestId).worker
          role = some w := by rw [touch_worker, hw]
      change (updateWorker role _ >>= _).run (s.touch _ s.nextRequestId) = _
      rw [bind_ok (updateWorker_run hw')]
      rfl

theorem forceRole_none (h : s.worker role = none) :
    forceRole role s = (.error (.missingWorker role), s) := by
  have hstate : s.workerState role = none := by simp [workerState, h]
  unfold forceRole
  simp [bind_run, hstate, workerOr_none h]

variable {phase : FailurePhase}

theorem failMaster_failed (h : s.stage = .failed) : failMaster phase s = (.ok (), s) := by
  unfold failMaster
  simp [bind_run, h]

/-- The master that `fail_master` goes on with: the stage is `Failing`, entered now or before. -/
def closed (s : Master E) (phase : FailurePhase) : Master E :=
  match s.stage with
  | .failing _ => s
  | _ => { s with stage := .failing phase }.push (.failClosed phase)

theorem failMaster_run (h : s.stage ≠ .failed) : failMaster phase s =
      (reapDeferredExit >>= fun _ => forceAll : Method E Unit) (s.closed phase) := by
  have henter : enterFailing phase s = (.ok (), s.closed phase) := by
    unfold enterFailing closed
    simp only [bind_run, get_run]
    cases s.stage <;> rfl
  have hunfold : failMaster phase s =
      (enterFailing phase >>= fun _ => reapDeferredExit >>= fun _ => forceAll : Method E Unit)
        s := by
    unfold failMaster
    simp [bind_run]
  rw [hunfold, bind_ok henter]

end kills

/-- What a kill leaves alone, refused or not. -/
structure SameSupervision (s s' : Master E) : Prop where
  stage : s'.stage = s.stage
  supervisor : s'.supervisor = s.supervisor
  deferred : s'.deferredActiveExit = s.deferredActiveExit
  failure : s'.replacementFailure = s.replacementFailure

namespace SameSupervision

variable {s s' s'' : Master E}

theorem refl : SameSupervision s s := ⟨rfl, rfl, rfl, rfl⟩

theorem trans (h : SameSupervision s s') (h' : SameSupervision s' s'') : SameSupervision s s'' :=
  ⟨h'.stage.trans h.stage, h'.supervisor.trans h.supervisor, h'.deferred.trans h.deferred,
    h'.failure.trans h.failure⟩

end SameSupervision

theorem forceRole_frame [Runtime E] {s : Master E} {role : WorkerRole} :
    SameSupervision s (forceRole role s).2 := by
  cases hw : s.worker role with
  | none =>
    rw [forceRole_none hw]
    exact .refl
  | some w =>
    rcases forceRole_cases hw with ⟨-, hr⟩ | ⟨-, executor, hr⟩ | ⟨executor, error, hr, -⟩
    · rw [hr]
      exact .refl
    · rw [hr]
      exact ⟨by simp [push, touch], by simp [push, touch], by simp [push, touch],
        by simp [push, touch]⟩
    · rw [hr]
      exact ⟨rfl, rfl, rfl, rfl⟩

theorem forceAll_frame [Runtime E] (s : Master E) : SameSupervision s (forceAll s).2 := by
  refine Keeps.forEach (fun role => ?_) _ s .refl
  refine keeps_get_bind fun s' h => ?_
  split
  · exact h.trans forceRole_frame
  · exact h

/-! ## The supervisor -/

section supervisor

variable {s : Master E} {sup : Supervisor} {event : ReplacementEvent}
  {acts : List ReplacementAction}

def candidatePhase : Lifecycle → ReplacementPhase
  | .ready => .quiescing
  | .activating => .activatingCandidate
  | .stopping => .rollingBack
  | _ => .adoptingCandidate

/-- The phase a retired instance's lifecycle stands for. -/
def retiredPhase : Lifecycle → ReplacementPhase
  | .stopping => .stoppingRetired
  | _ => .drainingRetired

theorem Supervisor.phase_eq {phase : ReplacementPhase} (h : sup.phase? = some phase) :
    sup.phase = phase := by
  unfold Supervisor.phase
  simp [h]

variable {c r : Instance} {role : WorkerRole}

theorem Supervisor.phase_candidate (hc : sup.candidate = some c) :
    sup.phase = candidatePhase c.lifecycle := by
  have hr := sup.wellFormed.retired_none hc
  have hl := sup.wellFormed.candidate_lifecycle c hc
  refine phase_eq ?_
  simp only [ReplacementSupervisor.phase?, hr, hc]
  cases hlc : c.lifecycle <;> rw [hlc] at hl <;> first | rfl | simp at hl

theorem Supervisor.phase_retired (hr : sup.retired = some r) :
    sup.phase = retiredPhase r.lifecycle := by
  have hl := sup.wellFormed.retired_lifecycle r hr
  refine phase_eq ?_
  simp only [ReplacementSupervisor.phase?, hr]
  cases hlc : r.lifecycle <;> rw [hlc] at hl <;> first | rfl | simp at hl

theorem Supervisor.phase_alone (hc : sup.candidate = none) (hr : sup.retired = none) :
    sup.phase = if sup.active.lifecycle = .reactivating then .rollingBack else .running := by
  refine phase_eq ?_
  simp only [ReplacementSupervisor.phase?, hr, hc]
  rcases sup.wellFormed.alone hc with ha | ha <;> simp [ha]

/-- What each phase says about the three roles. -/
inductive Supervisor.View (sup : Supervisor) : ReplacementPhase → Prop
  | running (hc : sup.candidate = none) (hr : sup.retired = none)
      (ha : sup.active.lifecycle = .active) : View sup .running
  | reactivating (hc : sup.candidate = none) (hr : sup.retired = none)
      (ha : sup.active.lifecycle = .reactivating) : View sup .rollingBack
  | adopting {c : Instance} (hc : sup.candidate = some c)
      (hl : c.lifecycle = .spawned ∨ c.lifecycle = .handshaking ∨ c.lifecycle = .preparing) :
      View sup .adoptingCandidate
  | quiescing {c : Instance} (hc : sup.candidate = some c) (hl : c.lifecycle = .ready) :
      View sup .quiescing
  | activating {c : Instance} (hc : sup.candidate = some c) (hl : c.lifecycle = .activating) :
      View sup .activatingCandidate
  | stoppingCandidate {c : Instance} (hc : sup.candidate = some c) (hl : c.lifecycle = .stopping) :
      View sup .rollingBack
  | draining {r : Instance} (hr : sup.retired = some r)
      (hl : r.lifecycle = .draining ∨ r.lifecycle = .snapshotting) : View sup .drainingRetired
  | stoppingRetired {r : Instance} (hr : sup.retired = some r) (hl : r.lifecycle = .stopping) :
      View sup .stoppingRetired

theorem Supervisor.view : sup.View sup.phase := by
  cases hc : sup.candidate with
  | some c =>
    rw [phase_candidate hc]
    have hl := sup.wellFormed.candidate_lifecycle c hc
    cases hlc : c.lifecycle <;> rw [hlc] at hl
    case spawned => exact .adopting hc (.inl hlc)
    case handshaking => exact .adopting hc (.inr (.inl hlc))
    case preparing => exact .adopting hc (.inr (.inr hlc))
    case ready => exact .quiescing hc hlc
    case activating => exact .activating hc hlc
    case stopping => exact .stoppingCandidate hc hlc
    all_goals simp at hl
  | none =>
    cases hr : sup.retired with
    | some r =>
      rw [phase_retired hr]
      have hl := sup.wellFormed.retired_lifecycle r hr
      cases hlr : r.lifecycle <;> rw [hlr] at hl
      case draining => exact .draining hr (.inl hlr)
      case snapshotting => exact .draining hr (.inr hlr)
      case stopping => exact .stoppingRetired hr hlr
      all_goals simp at hl
    | none =>
      rw [phase_alone hc hr]
      rcases sup.wellFormed.alone hc with ha | ha
      · rw [if_neg (by rw [ha]; decide)]
        exact .running hc hr ha
      · rw [if_pos ha]
        exact .reactivating hc hr ha

/-- A step of the supervisor, carrying the invariant along. -/
def Supervisor.Step (sup : Supervisor) (event : ReplacementEvent) (acts : List ReplacementAction)
    (sup' : Supervisor) : Prop :=
  ReplacementSupervisor.Step sup.toReplacementSupervisor event acts sup'.toReplacementSupervisor

variable {sup' : Supervisor}

theorem Supervisor.apply_of_step (h : sup.Step event acts sup') :
    sup.apply event = (.ok acts, sup') := by
  have := ReplacementSupervisor.apply_of_step h
  unfold apply
  simp only [this]

theorem Supervisor.apply_cases (sup : Supervisor) (event : ReplacementEvent) :
    (∃ acts sup', sup.Step event acts sup' ∧ sup.apply event = (.ok acts, sup')) ∨
      ∃ error, sup.apply event = (.error error, sup) := by
  rcases ReplacementSupervisor.apply_cases sup.wellFormed with
    ⟨acts, next, hstep⟩ | ⟨error, herr⟩
  · have hstep' : sup.Step event acts ⟨next, sup.wellFormed.step hstep⟩ := hstep
    exact .inl ⟨acts, _, hstep', apply_of_step hstep'⟩
  · right
    refine ⟨error, ?_⟩
    unfold apply
    simp only [herr]

theorem applySupervisor_step (hs : s.supervisor = some sup) (h : sup.Step event acts sup') :
    applySupervisor event s = (.ok acts, { s with supervisor := some sup' }) := by
  unfold applySupervisor
  simp [bind_run, hs, apply_of_step h, Except.mapError]

theorem applySupervisor_cases :
    (∃ sup acts sup', s.supervisor = some sup ∧ sup.Step event acts sup' ∧
      applySupervisor event s = (.ok acts, { s with supervisor := some sup' })) ∨
    ∃ error, applySupervisor event s = (.error error, s) := by
  cases hs : s.supervisor with
  | none =>
    unfold applySupervisor
    simp [bind_run, hs]
  | some sup =>
    rcases sup.apply_cases event with ⟨acts, sup', hstep, -⟩ | ⟨error, herr⟩
    · exact .inl ⟨sup, acts, sup', rfl, hstep, applySupervisor_step hs hstep⟩
    · right
      refine ⟨.replacement error, ?_⟩
      unfold applySupervisor
      simp only [bind_run, get_run, hs, okOr_some, pure_run, modify_run,
        herr, ofExcept_run, Except.mapError]
      rw [← hs]

def Supervisor.ids (sup : Supervisor) : WorkerRole → Option InstanceId
  | .active => some sup.active.instanceId
  | .candidate => sup.candidate.map (·.instanceId)
  | .retired => sup.retired.map (·.instanceId)

theorem Supervisor.ids_active : sup.ids .active = some sup.active.instanceId := rfl

theorem Supervisor.ids_candidate (hc : sup.candidate = some c) :
    sup.ids .candidate = some c.instanceId := by rw [ids, hc, map_some]

theorem Supervisor.ids_retired (hr : sup.retired = some r) :
    sup.ids .retired = some r.instanceId := by rw [ids, hr, map_some]

theorem Supervisor.candidate_of_ids {id : InstanceId} (h : sup.ids .candidate = some id) :
    ∃ c, sup.candidate = some c ∧ c.instanceId = id := map_eq_some_iff.mp h

theorem Supervisor.retired_of_ids {id : InstanceId} (h : sup.ids .retired = some id) :
    ∃ r, sup.retired = some r ∧ r.instanceId = id := map_eq_some_iff.mp h

theorem Supervisor.ids_ne_active {id : InstanceId} (h : sup.ids role = some id)
    (hr : role ≠ .active) : id ≠ sup.active.instanceId := by
  cases role with
  | active => exact absurd rfl hr
  | candidate =>
    obtain ⟨c, hc, rfl⟩ := candidate_of_ids h
    exact sup.wellFormed.candidate_id c hc
  | retired =>
    obtain ⟨r, hr, rfl⟩ := retired_of_ids h
    exact sup.wellFormed.retired_id r hr

theorem Supervisor.ids_inj {role' : WorkerRole} {id : InstanceId} (h : sup.ids role = some id)
    (h' : sup.ids role' = some id) : role = role' := by
  by_cases ha : role = .active
  · subst ha
    by_contra hne
    exact ids_ne_active h' (Ne.symm hne) (some.inj h).symm
  by_cases ha' : role' = .active
  · subst ha'
    exact absurd (some.inj h').symm (ids_ne_active h ha)
  -- a candidate and a retired instance do not coexist
  have hexclusive : ∀ {id'}, sup.ids .candidate = some id' → sup.ids .retired = none := by
    intro id' hid
    obtain ⟨c, hc, -⟩ := candidate_of_ids hid
    simp [ids, sup.wellFormed.retired_none hc]
  cases role <;> cases role' <;> simp_all

/-- The events that move an instance into or out of a role. -/
def movesRoles : ReplacementEvent → Bool
  | .begin _ | .candidateActivated _ | .candidateStopped _ | .retiredStopped _ => true
  | _ => false

theorem Supervisor.Step.ids_eq (h : sup.Step event acts sup') (he : movesRoles event = false) :
    sup'.ids = sup.ids := by
  unfold Supervisor.Step at h
  generalize hn : sup'.toReplacementSupervisor = next at h
  funext role
  unfold ids
  cases h with
  | begin _ _ _ _ _ _ => exact absurd he Bool.noConfusion
  | candidateActivated _ _ _ => exact absurd he Bool.noConfusion
  | candidateStopped _ _ | retiredStopped _ _ => exact absurd he Bool.noConfusion
  | _ => cases role <;> simp_all

/-- The actions that leave every worker in its slot. -/
def stationary : ReplacementAction → Bool
  | .spawn _ | .drain _ => false
  | _ => true

theorem Supervisor.Step.stationary (h : sup.Step event acts sup') (he : movesRoles event = false) :
    ∀ action ∈ acts, stationary action = true := by
  unfold Supervisor.Step at h
  generalize sup'.toReplacementSupervisor = next at h
  cases h with
  | begin _ _ _ _ _ _ | candidateActivated _ _ _ => exact absurd he Bool.noConfusion
  | _ => simp [Master.stationary]

end supervisor

/-! ## Roles -/

section roles

variable {s : Master E} {sup : Supervisor} {role : WorkerRole} {id : InstanceId}

theorem roleFor_some (h : s.roleFor id = some role) :
    ∃ w, s.worker role = some w ∧ w.instanceId = id := by
  have hany := List.find?_some h
  cases hw : s.worker role with
  | none => simp [hw] at hany
  | some w => exact ⟨w, rfl, by simpa [hw] using hany⟩

theorem roleFor_of_ids (hids : ∀ role, (s.worker role).map (·.instanceId) = sup.ids role)
    (h : sup.ids role = some id) : s.roleFor id = some role := by
  have hat : ∀ role', (s.worker role').any (fun worker => worker.instanceId = id) = true ↔
      role' = role := by
    intro role'
    have hworker := hids role'
    constructor
    · intro hany
      cases hw : s.worker role' with
      | none => simp [hw] at hany
      | some w =>
        have hid : w.instanceId = id := by simpa [hw] using hany
        rw [hw, map_some, hid] at hworker
        exact ids_inj hworker.symm h
    · rintro rfl
      rw [h] at hworker
      obtain ⟨w, hw, hid⟩ := map_eq_some_iff.mp hworker
      simp [hw, hid]
  unfold roleFor WorkerRole.all
  cases role <;> simp [hat]

end roles

/-! ## The replacement cycle -/

section cycle

variable {s : Master E} {sup : Supervisor} {role : WorkerRole} {w : ManagedWorker}
  {apply : ApplyEvent E} {now : Instant} {action : ReplacementAction} {x : Method E Unit}
  {spawn : SpawnAction}

theorem actionRole_run {id : InstanceId} (h : s.roleFor id = some role) :
    actionRole id s = (.ok role, s) := by
  unfold actionRole
  simp [bind_run, h]

theorem actionRole_none {id : InstanceId} (h : s.roleFor id = none) :
    actionRole id s = (.error .unexpectedReplacementActions, s) := by
  unfold actionRole
  simp [bind_run, h]

variable [Runtime E]

theorem failMaster_stage (s : Master E) (phase : FailurePhase) :
    (failMaster phase s).2.stage = .failed ∨
      ∃ phase', (failMaster phase s).2.stage = .failing phase' := by
  by_cases hfailed : s.stage = .failed
  · rw [failMaster_failed hfailed]
    exact .inl hfailed
  · right
    have hclosed : ∃ phase', (s.closed phase).stage = .failing phase' := by
      unfold closed
      split
      · exact ⟨_, ‹_›⟩
      · exact ⟨phase, rfl⟩
    have hreap : (reapDeferredExit (s.closed phase) : Except MasterError Unit × Master E).2.stage =
        (s.closed phase).stage := by
      unfold reapDeferredExit
      simp only [bind_run, get_run]
      split
      · exact takeWorker_stage _ _
      · rfl
    rw [failMaster_run hfailed, bind_run]
    rcases hr : (reapDeferredExit _ : Except _ Unit × Master E) with
      ⟨e | a, s'⟩ <;> rw [hr] at hreap
    · exact hreap ▸ hclosed
    · rw [← hreap] at hclosed
      exact (forceAll_frame s').stage ▸ hclosed

theorem orCompensate_cases {α : Type} {request : Method E α} {phase : ControlPhase}
    (hx : Issues request role phase) (hw : s.worker role = some w) (apply : ApplyEvent E)
    (failure : FailurePhase) (now : Instant) : ∃ executor n,
      (∃ p, orCompensate apply request role phase failure now s =
          (.ok (), (s.touch executor n).setWorker role (some (w.awaiting p))) ∧ p.phase = phase) ∨
      ∃ event, event.issueFailed role = true ∧ orCompensate apply request role phase failure now s =
          handlePhaseFailure apply role failure now ((s.touch executor n).push event) := by
  obtain ⟨executor, n, ⟨a, p, hok, hp⟩ | ⟨error, herr, hissue⟩⟩ := hx s w hw
  · refine ⟨executor, n, .inl ⟨p, ?_, hp⟩⟩
    unfold orCompensate attempt
    simp [bind_run, hok]
  · obtain ⟨event, hevent, hrecord⟩ := recordIssueFailure_run (E := E) hissue role phase
    refine ⟨executor, n, .inr ⟨event, hevent, ?_⟩⟩
    unfold orCompensate attempt compensateIssueError
    simp only [bind_run, herr, hrecord]

theorem launch_eq_ok {config : MasterConfig} {listeners : Unix.DescriptorManifest} {executor : E}
    {factory : Except String UInt32} {active : WorkerInput} {now : Instant}
    (h : launch config listeners executor factory active now = .ok s) : ∃ process a,
      orCompensate applyEvent (issueAdoption .active now) .active .adoptListeners .listenerAdoption
        now (booting config listeners executor active process) = (.ok a, s) := by
  obtain ⟨_, -, h⟩ := Lib.bind_eq_ok.mp h
  obtain ⟨process, -, h⟩ := Lib.bind_eq_ok.mp h
  split at h
  · next hr =>
    cases h
    exact ⟨process, _, hr⟩
  · cases h

theorem handlePhaseFailure_rollingBack (hst : s.stage = .operational)
    (hp : s.replacementPhase = some .rollingBack) {phase : FailurePhase} :
    handlePhaseFailure apply role phase now s = failMaster phase s := by
  unfold handlePhaseFailure
  simp [bind_run, hst, hp]

theorem applyReplacementEvent_step {event : ReplacementEvent} {acts : List ReplacementAction}
    {sup' : Supervisor} (hs : s.supervisor = some sup) (h : sup.Step event acts sup') {depth : ℕ} :
    applyReplacementEvent (depth + 1) event now s =
      executeReplacementActions (applyReplacementEvent depth) now none actionRounds acts
        { s with supervisor := some sup' } :=
  bind_ok (applySupervisor_step hs h)

variable {rounds : ℕ}

theorem executeReplacementActions_cons
    (hx : executeAction apply now spawn action = x >>= fun _ => pure [])
    {queue : List ReplacementAction} :
    executeReplacementActions apply now spawn (rounds + 1) (action :: queue) s =
      (x >>= fun _ => executeReplacementActions apply now spawn rounds queue) s := by
  change (executeAction apply now spawn action >>= fun more =>
    executeReplacementActions apply now spawn rounds (queue ++ more)) s = _
  rw [hx, bind_run, bind_run, bind_run]
  rcases x s with ⟨e | a, s'⟩
  · rfl
  · simp

theorem executeReplacementActions_nil :
    executeReplacementActions apply now spawn rounds [] s = (.ok (), s) := by
  cases rounds <;> rfl

theorem executeReplacementActions_singleton
    (hx : executeAction apply now spawn action = x >>= fun _ => pure []) :
    executeReplacementActions apply now spawn (rounds + 1) [action] s = x s := by
  rw [executeReplacementActions_cons hx, bind_run]
  rcases x s with ⟨e | a, s'⟩
  · rfl
  · exact executeReplacementActions_nil

end cycle

end Oxiroute.Master
