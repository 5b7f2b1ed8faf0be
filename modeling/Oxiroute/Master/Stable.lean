import Oxiroute.Master.Effects

/-!
# What the methods that move no worker leave alone

Most of the master's methods, the whole replacement cycle included, change a state only by a few
kinds of steps: queue an event, use the executor, touch up a worker in its slot, advance the
supervisor without moving a role, fail closed. `Stable I` says that the property `I` survives those
steps, and every such method `Keeps` every stable property (`Stable.keeps_applyReplacementEvent`).

The steps that do move a worker (a spawn, a commit, the release of a worker that has exited) are not
among them.
-/

namespace Oxiroute.Master

open Lib Lib.Prog Supervision

variable {E : Type}

/-! ## Reading -/

section reading

variable {I : Master E → Prop} {role : WorkerRole}

theorem keeps_workerOr : Keeps I (workerOr role : Method E ManagedWorker) :=
  keeps_get.bind fun _ => keeps_okOr

theorem keeps_workerId : Keeps I (workerId role : Method E InstanceId) :=
  keeps_workerOr.bind fun _ => keeps_pure _

theorem keeps_actionRole {id : InstanceId} : Keeps I (actionRole id : Method E WorkerRole) :=
  keeps_get.bind fun _ => keeps_okOr

theorem maybeFinishRollback_same (s : Master E) : (maybeFinishRollback s).2.stage = s.stage ∧
      (maybeFinishRollback s).2.supervisor = s.supervisor := by
  have hkeeps : Keeps (fun t => t.stage = s.stage ∧ t.supervisor = s.supervisor)
      (maybeFinishRollback : Method E Unit) := by
    refine keeps_get.bind fun _ => Keeps.ite ?_ (keeps_pure ())
    refine Keeps.bind (keeps_modify (by exact fun _ h => h)) fun _ => ?_
    exact keeps_workerId.bind fun _ => keeps_modify (by exact fun _ h => h)
  exact hkeeps s ⟨rfl, rfl⟩

end reading

/-! ## Stable properties -/

/-- The same process of the same instance, with the same last status. -/
structure SameWorker (w w' : ManagedWorker) : Prop where
  instanceId : w'.instanceId = w.instanceId
  process : w'.process.id = w.process.id
  status : w'.status = w.status

/-- A property that survives every step that moves no worker. -/
structure Stable (I : Master E → Prop) : Prop where
  push : ∀ {s} event, I s → I (s.push event)
  touch : ∀ {s} executor n, I s → I (s.touch executor n)
  setWorker : ∀ {s role w w'}, I s → s.worker role = some w → SameWorker w w' →
    I (s.setWorker role (some w'))
  supervisor : ∀ {s} {sup sup' : Supervisor}, I s → s.supervisor = some sup →
    sup'.ids = sup.ids → I { s with supervisor := some sup' }
  failure : ∀ {s} failure, I s → I { s with replacementFailure := failure }
  failing : ∀ {s} phase, I s → I { s with stage := .failing phase }
  reapDeferred : ∀ {s}, I s → (∃ phase, s.stage = .failing phase) →
    s.deferredActiveExit.isSome = true →
    I ({ s with deferredActiveExit := none }.takeWorker .active)

namespace Stable

variable {I : Master E → Prop} (hI : Stable I)

include hI

theorem keeps_pushEvent {event : MasterEvent} :
    Keeps I (pushEvent event : Method E Unit) := fun _ h => hI.push event h

variable (role : WorkerRole) (phase : ControlPhase)

/-- A worker that is updated stays the same worker. -/
theorem keeps_updateWorker {f : ManagedWorker → ManagedWorker}
    (hf : ∀ w, SameWorker w (f w)) : Keeps I (updateWorker role f : Method E Unit) := by
  intro s h
  cases hw : s.worker role with
  | none =>
    unfold updateWorker
    rw [bind_error (workerOr_none hw)]
    exact h
  | some w =>
    rw [updateWorker_run hw]
    exact hI.setWorker h hw (hf w)

/-- What reaches the executor and the counter only. -/
theorem keeps_touches {α : Type} {x : Method E α} {good : α → Prop} (hx : Touches x good) :
    Keeps I x := by
  intro s h
  obtain ⟨executor, n, ⟨_, hr, -⟩ | ⟨_, hr, -⟩⟩ := hx s
  · rw [hr]
    exact hI.touch executor n h
  · rw [hr]
    exact hI.touch executor n h

theorem keeps_recordIssueFailure {error : MasterError} :
    Keeps I (recordIssueFailure role phase error : Method E Unit) := by
  cases error with
  | action _ _ | preparation _ _ => exact hI.keeps_pushEvent
  | _ => exact keeps_throw

theorem keeps_markTerminating {forced : Bool} :
    Keeps I (markTerminating role forced : Method E Unit) :=
  Keeps.bind (hI.keeps_updateWorker role (by intro; exact ⟨rfl, rfl, rfl⟩)) fun _ =>
    hI.keeps_pushEvent

theorem keeps_modify_failure {failure : Option FailurePhase} : Keeps I
      (Prog.modify ({ · with replacementFailure := failure }) : Method E Unit) :=
  keeps_modify fun _ h => hI.failure failure h

theorem keeps_maybeFinishRollback : Keeps I (maybeFinishRollback : Method E Unit) := by
  refine keeps_get.bind fun s => Keeps.ite ?_ (keeps_pure ())
  exact hI.keeps_modify_failure.bind fun _ => keeps_workerId.bind fun _ => hI.keeps_pushEvent

theorem keeps_completeReplacement : Keeps I (completeReplacement : Method E Unit) :=
  keeps_workerId.bind fun _ => hI.keeps_pushEvent

theorem keeps_completeFailedRetired : Keeps I (completeFailedRetired : Method E Unit) :=
  keeps_get.bind fun _ => keeps_okOr.bind fun _ =>
    hI.keeps_modify_failure.bind fun _ => hI.keeps_pushEvent.bind fun _ =>
      hI.keeps_completeReplacement

theorem keeps_applySupervisor {event : ReplacementEvent} (he : movesRoles event = false) :
    Keeps I (applySupervisor event : Method E (List ReplacementAction)) := by
  intro s h
  rcases applySupervisor_cases with ⟨sup, acts, sup', hs, hstep, hr⟩ | ⟨error, hr⟩
  · rw [hr]
    exact hI.supervisor h hs (hstep.ids_eq he)
  · rw [hr]
    exact h

variable [Runtime E]

theorem keeps_dispatch {request : PreparedRequest} {descriptors : List OwnedFd} :
    Keeps I (dispatch role request descriptors : Method E Unit) :=
  keeps_workerOr.bind fun _ =>
    (hI.keeps_touches (Touches.onExecutor fun _ => rfl)).bind fun _ =>
      hI.keeps_updateWorker role fun _ => ⟨rfl, rfl, rfl⟩

theorem keeps_issueAdoption (now : Instant) : Keeps I (issueAdoption role now : Method E Unit) :=
  keeps_get.bind fun _ => (hI.keeps_touches touches_prepareRequest).bind fun _ =>
    (hI.keeps_touches (Touches.onExecutor fun _ => rfl)).bind fun _ => hI.keeps_dispatch _

theorem keeps_issue {now : Instant} {timeout : Duration} :
    Keeps I (issue role phase now timeout : Method E Instant) :=
  (hI.keeps_touches touches_prepareRequest).bind fun _ =>
    (hI.keeps_dispatch _).bind fun _ => keeps_pure _

theorem keeps_issueAtDeadline {deadline : Instant} :
    Keeps I (issueAtDeadline role phase deadline : Method E Unit) :=
  (hI.keeps_touches touches_prepareStep).bind fun _ =>
    (hI.keeps_touches touches_prepareRequestAtDeadline).bind fun _ => hI.keeps_dispatch _

theorem keeps_forceRole : Keeps I (forceRole role : Method E Unit) := by
  intro s h
  cases hw : s.worker role with
  | none =>
    rw [forceRole_none hw]
    exact h
  | some w =>
    rcases forceRole_cases hw with ⟨-, hr⟩ | ⟨-, executor, hr⟩ | ⟨executor, error, hr, -⟩
    · rw [hr]
      exact h
    · rw [hr]
      have hw' : (s.touch executor s.nextRequestId).worker role = some w := by rw [touch_worker, hw]
      have hsame : SameWorker w w.killed := ⟨rfl, rfl, rfl⟩
      exact hI.push _ (hI.setWorker (hI.touch _ _ h) hw' hsame)
    · rw [hr]
      exact hI.touch _ _ h

theorem keeps_forceAll : Keeps I (forceAll : Method E Unit) :=
  Keeps.forEach (fun role => keeps_get.bind fun _ =>
    (hI.keeps_forceRole role).ite (keeps_pure ())) _

/-! ## Failing closed -/

theorem forceClosed {s : Master E} (h : I s) (hst : ∃ phase, s.stage = .failing phase) :
    I ((reapDeferredExit >>= fun _ => forceAll : Method E Unit) s).2 := by
  unfold reapDeferredExit
  simp only [bind_run, get_run]
  by_cases hdef : s.deferredActiveExit.isSome = true
  · simp only [if_pos hdef, modify_run]
    exact hI.keeps_forceAll _ (hI.reapDeferred h hst hdef)
  · simp only [if_neg hdef, pure_run]
    exact hI.keeps_forceAll _ h

theorem keeps_failMaster {phase : FailurePhase} : Keeps I (failMaster phase : Method E Unit) := by
  intro s h
  by_cases hfailed : s.stage = .failed
  · rw [failMaster_failed hfailed]
    exact h
  · rw [failMaster_run hfailed]
    unfold closed
    split
    · exact hI.forceClosed h ⟨_, ‹_›⟩
    · exact hI.forceClosed (hI.push _ (hI.failing phase h)) ⟨phase, rfl⟩

end Stable

/-! ## The replacement cycle -/

/-- The recursive call keeps the stable property `I` on the two events that compensate a
failure. -/
structure Compensates (I : Master E → Prop) (apply : ApplyEvent E) : Prop where
  stable : Stable I
  candidateFailed : ∀ id now, Keeps I (apply (.candidateFailed id) now)
  retiredFailed : ∀ id now, Keeps I (apply (.retiredFailed id) now)

namespace Compensates

variable [Runtime E] {I : Master E → Prop} {apply : ApplyEvent E} (ha : Compensates I apply)

include ha

variable (role : WorkerRole) (phase : FailurePhase) (now : Instant)

theorem beginRollback : Keeps I (beginRollback apply phase now) := by
  refine keeps_get.bind fun s => ha.stable.keeps_failMaster.ite ?_
  refine keeps_okOr.bind fun candidate => ?_
  refine ha.stable.keeps_modify_failure.bind fun _ => ha.stable.keeps_pushEvent.bind fun _ => ?_
  exact (ha.candidateFailed _ now).bind fun _ => ha.stable.keeps_maybeFinishRollback

omit [Runtime E] in
theorem failRetired : Keeps I (failRetired apply phase now) :=
  keeps_workerId.bind fun _ => ha.stable.keeps_modify_failure.bind fun _ => ha.retiredFailed _ now

theorem handlePhaseFailure : Keeps I (handlePhaseFailure apply role phase now) := by
  refine keeps_get.bind fun s => ?_
  split
  · exact ha.beginRollback phase now
  · exact ha.beginRollback phase now
  · exact ha.beginRollback phase now
  · exact ha.beginRollback phase now
  · exact ha.failRetired phase now
  · exact ha.failRetired phase now
  · exact ha.stable.keeps_forceRole _
  · exact ha.stable.keeps_failMaster

theorem orCompensate {α : Type} {request : Method E α} (hrequest : Keeps I request)
    (role : WorkerRole) (phase : ControlPhase) (failure : FailurePhase) (now : Instant) :
    Keeps I (orCompensate apply request role phase failure now) := by
  refine hrequest.attempt.bind fun result => ?_
  cases result with
  | ok _ => exact keeps_pure ()
  | error error =>
    exact (ha.stable.keeps_recordIssueFailure role phase).bind fun _ =>
      ha.handlePhaseFailure role failure now

theorem issueOrCompensate (phase : ControlPhase) (now : Instant) (timeout : Duration)
    (failure : FailurePhase) : Keeps I (issueOrCompensate apply role phase now timeout failure) :=
  ha.orCompensate (ha.stable.keeps_issue role phase) role phase failure now

variable (id : InstanceId)

theorem prepareInstance : Keeps I (prepareInstance apply now id) := by
  refine keeps_get.bind fun s => ?_
  split
  · exact keeps_throw
  · exact ha.orCompensate (ha.stable.keeps_issueAdoption _ now) _ _ _ now
  · exact keeps_throw

theorem activateInstance : Keeps I (activateInstance apply now id) := by
  refine keeps_get.bind fun s => keeps_actionRole.bind fun role => ?_
  cases role with
  | active | candidate => exact ha.issueOrCompensate _ _ _ _ _
  | retired => exact keeps_throw

theorem quiesceInstance : Keeps I (quiesceInstance apply now id) :=
  keeps_get.bind fun _ => keeps_throw.ite (ha.issueOrCompensate _ _ _ _ _)

theorem terminateRetired (timeout : Duration) : Keeps I (terminateRetired apply now timeout) := by
  refine (ha.stable.keeps_issue _ _).attempt.bind fun result => ?_
  cases result with
  | ok deadline =>
    exact (ha.stable.keeps_markTerminating _).bind fun _ =>
      ha.stable.keeps_updateWorker .retired (by intro; exact ⟨rfl, rfl, rfl⟩)
  | error error =>
    refine Keeps.ite ?_ keeps_throw
    exact (ha.stable.keeps_recordIssueFailure _ _).bind fun _ => ha.failRetired .shutdown now

theorem terminateInstance : Keeps I (terminateInstance apply now id) := by
  refine keeps_get.bind fun s => keeps_actionRole.bind fun role => ?_
  cases role with
  | active => exact keeps_throw
  | candidate => exact ha.stable.keeps_forceRole _
  | retired => exact ha.terminateRetired now _

theorem executeAction (spawn : SpawnAction) {action : ReplacementAction}
    (hstay : stationary action = true) (now : Instant) (s : Master E) (h : I s) :
    I (executeAction apply now spawn action s).2 ∧
      ∀ more, (Master.executeAction apply now spawn action s).1 = .ok more →
        ∀ next ∈ more, stationary next = true := by
  have hunit : ∀ {x : Method E Unit}, Keeps I x →
      I ((x >>= fun _ => pure [] : Method E (List ReplacementAction)) s).2 ∧
        ∀ more, ((x >>= fun _ => pure [] : Method E (List ReplacementAction)) s).1 = .ok more →
          ∀ next ∈ more, stationary next = true := by
    intro x hx
    refine ⟨hx.bind (fun _ => keeps_pure []) s h, fun more hmore => ?_⟩
    obtain ⟨_, _, _, hpure⟩ := bind_eq_ok.mp (Prod.ext hmore rfl)
    obtain rfl := Except.ok.inj (Prod.mk.inj hpure).1
    simp
  cases action with
  | spawn _ | drain _ => exact absurd hstay Bool.noConfusion
  | prepare id => exact hunit (ha.prepareInstance now id)
  | activate id => exact hunit (ha.activateInstance now id)
  | quiesce id => exact hunit (ha.quiesceInstance now id)
  | terminate id => exact hunit (ha.terminateInstance now id)
  | kill id => exact hunit (keeps_actionRole.bind fun role => ha.stable.keeps_forceRole role)
  | snapshot id =>
    refine ⟨ha.stable.keeps_applySupervisor rfl s h, fun more hmore => ?_⟩
    rcases applySupervisor_cases with
      ⟨sup, acts, sup', hs, hstep, hr⟩ | ⟨error, hr⟩
    · obtain rfl : acts = more := Except.ok.inj ((congrArg Prod.fst hr).symm.trans hmore)
      exact hstep.stationary rfl
    · cases (congrArg Prod.fst hr).symm.trans hmore

theorem executeReplacementActions {spawn : SpawnAction} (rounds : ℕ) :
    ∀ {queue : List ReplacementAction}, (∀ action ∈ queue, stationary action = true) →
      Keeps I (executeReplacementActions apply now spawn rounds queue) := by
  induction rounds with
  | zero =>
    intro queue _
    cases queue with
    | nil => exact keeps_pure ()
    | cons _ _ => exact keeps_throw
  | succ rounds ih =>
    intro queue hqueue s h
    cases queue with
    | nil => exact h
    | cons action queue =>
      obtain ⟨htracks, hmore⟩ := ha.executeAction spawn (hqueue action List.mem_cons_self) now s h
      unfold Master.executeReplacementActions
      rw [bind_run]
      rcases hr : Master.executeAction apply now spawn action s with ⟨e | more, s'⟩ <;>
        rw [hr] at htracks hmore
      · exact htracks
      · refine ih (fun next hnext => ?_) s' htracks
        rcases List.mem_append.mp hnext with hnext | hnext
        · exact hqueue next (List.mem_cons_of_mem _ hnext)
        · exact hmore more rfl next hnext

end Compensates

variable {I : Master E → Prop}

/-- **Events that move no role** keep every stable property, at every depth. -/
theorem Stable.keeps_applyReplacementEvent [Runtime E] (hI : Stable I) {depth : ℕ} :
    ∀ {event : ReplacementEvent}, movesRoles event = false → ∀ now,
      Keeps I (applyReplacementEvent depth event now : Method E Unit) := by
  induction depth with
  | zero => exact fun _ _ => keeps_throw
  | succ depth ih =>
    intro event he now s h
    have hcompensates : Compensates I (applyReplacementEvent depth : ApplyEvent E) :=
      ⟨hI, fun _ now => ih rfl now, fun _ now => ih rfl now⟩
    rcases applySupervisor_cases with ⟨sup, acts, sup', hs, hstep, hr⟩ | ⟨error, hr⟩
    · rw [applyReplacementEvent_step hs hstep]
      exact hcompensates.executeReplacementActions now _ (hstep.stationary he) _
        (hI.supervisor h hs (hstep.ids_eq he))
    · unfold applyReplacementEvent
      rw [bind_error hr]
      exact h

theorem Stable.compensates [Runtime E] (hI : Stable I) (depth : ℕ) :
    Compensates I (applyReplacementEvent depth : ApplyEvent E) :=
  ⟨hI, fun _ now => hI.keeps_applyReplacementEvent rfl now,
    fun _ now => hI.keeps_applyReplacementEvent rfl now⟩

end Oxiroute.Master
