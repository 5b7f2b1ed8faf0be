import Oxiroute.Master.Custody
import Oxiroute.Master.Stable

/-!
# The master refines custody

`Master.custody` forgets requests, deadlines and worker states. Every method of the master, in a
state that satisfies `Custody.Inv`, is a run of the abstract machine, whatever the executor, the
operating system and the workers do: kills may be refused and requests may fail.

* `Tracks o s`: the abstract machine can go from `o` to the custody of `s`. It is an invariant of
  the program, so most methods need only `Keeps`.
* Where a method takes two steps that belong together (a worker leaves its slot, then the
  supervisor forgets it), the two are treated as one: `tracks_release`, `tracks_drain`.
* `tracks_call`: the public calls.
-/

namespace Oxiroute.Master

open Lib Lib.Prog Supervision Supervisor

variable {E : Type}

/-! ## The abstraction -/

/-- What custody keeps of a worker. -/
def ManagedWorker.badge (w : ManagedWorker) : Badge := ⟨w.instanceId, w.process.id, w.status⟩

def mode (s : Master E) : Mode :=
  match s.stage with
  | .bootAdopting | .bootActivating => .booting
  | .operational => .operating (s.supervisor.elim (fun _ => none) ids)
  | _ => .closing

/-- The abstract state of a master. -/
def custody (s : Master E) : Custody where
  mode := s.mode
  slots role := (s.worker role).map ManagedWorker.badge
  deferred := s.deferredActiveExit.isSome
  reported id := ∃ role status, MasterEvent.workerExited role id status ∈ s.events
  baseline := s.snapshotHistory

variable {s s' : Master E} {role : WorkerRole} {w : ManagedWorker} {sup : Supervisor}

theorem mode_operational (hst : s.stage = .operational) (hs : s.supervisor = some sup) :
    s.mode = .operating sup.ids := by
  simp [mode, hst, hs]

variable {w' : ManagedWorker}

theorem custody_setWorker (hw : s.worker role = some w) (hb : w'.badge = w.badge) :
    (s.setWorker role (some w')).custody = s.custody := by
  refine Custody.ext ?_ (funext fun role' => ?_) ?_ ?_ ?_
  · simp [custody, mode]
  · by_cases hr : role' = role
    · subst hr
      simp [custody, hw, hb]
    · simp [custody, hr]
  · simp [custody]
  · simp [custody]
  · simp [custody]

theorem custody_takeWorker : (s.takeWorker role).custody = s.custody.take role := by
  refine Custody.ext ?_ (funext fun role' => ?_) ?_ ?_ ?_
  · simp [custody, mode, Custody.take]
  · by_cases hr : role' = role
    · subst hr
      simp [custody, Custody.take]
    · simp [custody, Custody.take, hr]
  · simp [custody, Custody.take]
  · simp [custody, Custody.take]
  · simp only [custody, Custody.take, takeWorker]
    cases s.worker role <;> rfl

theorem custody_supervisor {sup' : Supervisor} (hs : s.supervisor = some sup)
    (hids : sup'.ids = sup.ids) : { s with supervisor := some sup' }.custody = s.custody := by
  have hmode : { s with supervisor := some sup' }.mode = s.mode := by
    simp [mode, hs, hids]
  exact Custody.ext hmode rfl rfl rfl rfl

theorem custody_ids : s.custody.ids role = (s.worker role).map (·.instanceId) := by
  simp [custody, Custody.ids, ManagedWorker.badge, Function.comp_def]

/-! ## Tracking -/

/-- Where a run starts and what it may rely on. -/
structure Origin where
  accepted : WorkerStatus → Prop
  known : InstanceId → Prop
  custody : Custody

/-- The abstract machine, started in `o`, can be where `s` is. -/
structure Tracks (o : Origin) (s : Master E) : Prop where
  start : Custody.Inv o.known o.custody
  steps : Custody.Steps o.accepted o.known o.custody s.custody

variable {o : Origin}

namespace Tracks

variable (h : Tracks o s)
include h

theorem inv : Custody.Inv o.known s.custody := h.start.steps h.steps

theorem congr (hc : s'.custody = s.custody) : Tracks o s' := ⟨h.start, hc ▸ h.steps⟩

theorem step (hs : Custody.Step o.accepted o.known s.custody s'.custody) : Tracks o s' :=
  ⟨h.start, h.steps.tail hs⟩

theorem push (event : MasterEvent) : Tracks o (s.push event) := by
  refine h.step (Custody.Step.report fun id hid => ?_)
  obtain ⟨role, status, hmem⟩ := hid
  exact ⟨role, status, List.mem_append_left _ hmem⟩

theorem touch {executor : E} {n : UInt64} : Tracks o (s.touch executor n) := h.congr rfl

theorem setWorker (hw : s.worker role = some w) (hb : w'.badge = w.badge) :
    Tracks o (s.setWorker role (some w')) := h.congr (custody_setWorker hw hb)

theorem supervisor {sup' : Supervisor} (hs : s.supervisor = some sup) (hids : sup'.ids = sup.ids) :
    Tracks o { s with supervisor := some sup' } :=
  h.congr (custody_supervisor hs hids)

/-- While operational, each slot holds the instance of its role. -/
theorem mirror (hst : s.stage = .operational) : ∃ sup, s.supervisor = some sup ∧
      ∀ role, (s.worker role).map (·.instanceId) = sup.ids role := by
  have hm : s.custody.mode = .operating (s.supervisor.elim (fun _ => none) ids) := by
    simp only [custody, mode, hst]
  obtain ⟨ha, hids⟩ := h.inv.ids_eq hm
  cases hs : s.supervisor with
  | none => simp [hs] at ha
  | some sup =>
    refine ⟨sup, rfl, fun role => ?_⟩
    rw [← custody_ids, hids, hs]
    rfl

theorem worker_id (hst : s.stage = .operational) (hs : s.supervisor = some sup)
    (hw : s.worker role = some w) : sup.ids role = some w.instanceId := by
  obtain ⟨sup', hs', hids⟩ := h.mirror hst
  cases hs.symm.trans hs'
  rw [← hids, hw, Option.map_some]

theorem worker_of_id (hst : s.stage = .operational) (hs : s.supervisor = some sup) {id : InstanceId}
    (hid : sup.ids role = some id) : ∃ w, s.worker role = some w ∧ w.instanceId = id := by
  obtain ⟨sup', hs', hids⟩ := h.mirror hst
  cases hs.symm.trans hs'
  rw [← hids] at hid
  exact Option.map_eq_some_iff.mp hid

end Tracks

/-! ## Methods that move no worker -/

theorem SameWorker.badge (h : SameWorker w w') : w'.badge = w.badge := by
  unfold ManagedWorker.badge
  rw [h.instanceId, h.process, h.status]

/-- On its way down, the master lets go of an active worker whose exit was deferred. -/
theorem Tracks.reapDeferred (h : Tracks o s) (hm : s.mode = .closing)
    (hdef : s.deferredActiveExit.isSome = true) :
    Tracks o ({ s with deferredActiveExit := none }.takeWorker .active) := by
  have hforget : Custody.Step o.accepted o.known s.custody (s.custody.take .active) :=
    .forget hm (h.inv.deferred hdef)
  refine ⟨h.start, (h.steps.tail hforget).tail ?_⟩
  have heq : ({ s with deferredActiveExit := none }.takeWorker .active).custody =
      { s.custody.take .active with deferred := false } := custody_takeWorker
  exact heq ▸ Custody.Step.undefer

/-- **Custody is stable**: every method that moves no worker is a run of the abstract machine. -/
theorem stable_tracks (o : Origin) : Stable (Tracks o : Master E → Prop) where
  push event h := h.push event
  touch executor n h := h.touch
  setWorker h hw hsame := h.setWorker hw hsame.badge
  supervisor h hs hids := h.supervisor hs hids
  failure _ h := h.congr rfl
  failing _ h := h.step .close
  reapDeferred h hst hdef := by
    obtain ⟨phase, hst⟩ := hst
    exact h.reapDeferred (by simp [mode, hst]) hdef

theorem stable_closing : Stable (fun s : Master E => s.mode = .closing) where
  push _ h := h
  touch _ _ h := h
  setWorker h _ _ := by simpa [mode] using h
  supervisor {s _ _} h _ _ := by
    unfold mode at h ⊢
    cases hst : s.stage <;> simp_all
  failure _ h := h
  failing _ _ := rfl
  reapDeferred h _ _ := by simpa [mode] using h

/-! ## Compensations leave an instance on its way out -/

section leaving

variable {depth : ℕ} {now : Instant}

/-- The supervisor's instance in a role. -/
def Supervisor.occupant (sup : Supervisor) : WorkerRole → Option Instance
  | .active => some sup.active
  | .candidate => sup.candidate
  | .retired => sup.retired

/-- The instance `id` in `role` is stopping, unless the master is on its way down. -/
def Leaving (s : Master E) (role : WorkerRole) (id : InstanceId) : Prop :=
  s.mode = .closing ∨ s.stage = .operational ∧ ∃ sup i, s.supervisor = some sup ∧
    sup.occupant role = some i ∧ i.instanceId = id ∧ i.lifecycle = .stopping

variable {id : InstanceId}

theorem Leaving.congr (h : Leaving s role id) (hst : s'.stage = s.stage)
    (hs : s'.supervisor = s.supervisor) : Leaving s' role id := by
  unfold Leaving mode at *
  rwa [hst, hs]

theorem Leaving.frame (h : Leaving s role id) (hf : SameSupervision s s') : Leaving s' role id :=
  h.congr hf.stage hf.supervisor

theorem Supervisor.ids_occupant {i : Instance} (h : sup.occupant role = some i) :
    sup.ids role = some i.instanceId := by
  cases role with
  | active | candidate | retired => exact congrArg (Option.map _) h

theorem Leaving.roleFor (hl : Leaving s role id) (h : Tracks o s) (hst : s.stage = .operational) :
    s.roleFor id = some role := by
  rcases hl with hm | ⟨-, sup, i, hs, hi, rfl, -⟩
  · exact absurd hm (by simp [mode, hst])
  · obtain ⟨sup', hs', hids⟩ := h.mirror hst
    cases hs.symm.trans hs'
    exact roleFor_of_ids hids (ids_occupant hi)

theorem mode_closing_of_failMaster [Runtime E] (s : Master E) (phase : FailurePhase) :
    (failMaster phase s).2.mode = .closing := by
  rcases failMaster_stage s phase with h | ⟨phase', h⟩ <;> simp [mode, h]

variable {phase : FailurePhase} [Runtime E]

theorem killInstance_frame (id : InstanceId) : SameSupervision s (killInstance id s).2 := by
  unfold killInstance
  cases hr : s.roleFor id with
  | none =>
    rw [bind_error (actionRole_none hr)]
    exact .refl
  | some role =>
    rw [bind_ok (actionRole_run hr)]
    exact forceRole_frame

/-- While a rollback is under way, an activation either goes out or fails the master. -/
theorem leaving_activateInstance (hst : s.stage = .operational)
    (hp : s.replacementPhase = some .rollingBack) (hl : Leaving s role id) (apply : ApplyEvent E)
    (now : Instant) (id' : InstanceId) : Leaving (activateInstance apply now id' s).2 role id := by
  have hissue : ∀ {role' phase timeout failure} {w : ManagedWorker}, s.worker role' = some w →
      Leaving (issueOrCompensate apply role' phase now timeout failure s).2 role id := by
    intro role' phase timeout failure w hw
    obtain ⟨executor, n, ⟨p, hrun, -⟩ | ⟨event, -, hrun⟩⟩ := orCompensate_cases
      (issues_issue role' phase now timeout) hw apply failure now
    · unfold issueOrCompensate
      rw [hrun]
      exact hl.frame ⟨by simp [touch], by simp [touch], by simp [touch], by simp [touch]⟩
    · unfold issueOrCompensate
      rw [hrun, handlePhaseFailure_rollingBack (by exact hst) (by exact hp)]
      exact .inl (mode_closing_of_failMaster _ _)
  unfold activateInstance
  rw [bind_run, get_run]
  cases hr : s.roleFor id' with
  | none =>
    simp only [bind_error (actionRole_none hr)]
    exact hl
  | some role' =>
    obtain ⟨w, hw, -⟩ := roleFor_some hr
    simp only [bind_ok (actionRole_run hr)]
    cases role' with
    | active | candidate => exact hissue hw
    | retired => exact hl

theorem leaving_terminateCandidate (h : Tracks o s) (hl : Leaving s .candidate id) (depth : ℕ)
    (now : Instant) :
    Leaving (terminateInstance (applyReplacementEvent depth) now id s).2 .candidate id := by
  rcases hl with hm | hl
  · exact .inl ((stable_closing.compensates depth).terminateInstance now id s hm)
  · have hrole := Leaving.roleFor (.inr hl) h hl.1
    unfold terminateInstance
    rw [bind_run, get_run]
    simp only [bind_ok (actionRole_run hrole)]
    exact Leaving.frame (.inr hl) forceRole_frame

theorem applyReplacementEvent_ok {event : ReplacementEvent}
    (hok : applyReplacementEvent (depth + 1) event now s = (.ok (), s')) :
    ∃ sup acts sup', s.supervisor = some sup ∧ sup.Step event acts sup' ∧
      executeReplacementActions (applyReplacementEvent depth) now none actionRounds acts
        { s with supervisor := some sup' } = (.ok (), s') := by
  rcases applySupervisor_cases with ⟨sup, acts, sup', hs, hstep, -⟩ | ⟨error, hr⟩
  · exact ⟨sup, acts, sup', hs, hstep, (applyReplacementEvent_step hs hstep).symm.trans hok⟩
  · rw [applyReplacementEvent, bind_error hr] at hok
    exact absurd (Prod.mk.inj hok).1 (by simp)

theorem leaving_candidateFailed (h : Tracks o s) (hst : s.stage = .operational)
    (hok : applyReplacementEvent (depth + 1) (.candidateFailed id) now s = (.ok (), s')) :
    Leaving s' .candidate id := by
  obtain ⟨sup, acts, sup', hs, hstep, hok⟩ := applyReplacementEvent_ok hok
  have htracks := h.supervisor hs (hstep.ids_eq rfl)
  -- past the supervisor's step the candidate is stopping and the phase is `RollingBack`
  have hafter : ∀ {c : Instance}, sup'.candidate = some (c.at .stopping) → c.instanceId = id →
      Leaving { s with supervisor := some sup' } .candidate id ∧
        { s with supervisor := some sup' }.replacementPhase = some .rollingBack := by
    intro c hc hid
    refine ⟨.inr ⟨hst, sup', _, rfl, hc, hid, rfl⟩, ?_⟩
    simp only [replacementPhase, Option.map_some, phase_candidate hc]
    rfl
  unfold Supervisor.Step at hstep
  generalize hn : sup'.toReplacementSupervisor = next at hstep
  cases hstep with
  | @candidateFailed c hc hl ha =>
    obtain ⟨hleaving, -⟩ := hafter (by rw [hn]) rfl
    rw [actionRounds, executeReplacementActions_singleton rfl] at hok
    have := leaving_terminateCandidate htracks hleaving depth now
    rwa [hok] at this
  | @candidateFailedReactivating c hc hl ha =>
    obtain ⟨hleaving, hphase⟩ := hafter (by rw [hn]) rfl
    rw [actionRounds, executeReplacementActions_cons rfl] at hok
    obtain ⟨_, s₁, hactivate, hrest⟩ := bind_eq_ok.mp hok
    rw [executeReplacementActions_singleton rfl] at hrest
    have hleaving₁ := leaving_activateInstance (by exact hst) hphase hleaving
      (applyReplacementEvent depth) now sup.active.instanceId
    have htracks₁ := ((stable_tracks o).compensates depth).activateInstance now
      sup.active.instanceId _ htracks
    rw [hactivate] at hleaving₁ htracks₁
    have := leaving_terminateCandidate htracks₁ hleaving₁ depth now
    rwa [hrest] at this

theorem leaving_retiredFailed (hst : s.stage = .operational)
    (hok : applyReplacementEvent (depth + 1) (.retiredFailed id) now s = (.ok (), s')) :
    Leaving s' .retired id := by
  obtain ⟨sup, acts, sup', hs, hstep, hok⟩ := applyReplacementEvent_ok hok
  unfold Supervisor.Step at hstep
  generalize hn : sup'.toReplacementSupervisor = next at hstep
  cases hstep with
  | @retiredFailed r hr hl =>
    rw [actionRounds, executeReplacementActions_singleton rfl] at hok
    have hleaving : Leaving { s with supervisor := some sup' } .retired r.instanceId :=
      .inr ⟨hst, sup', r.at .stopping, rfl, by simp only [occupant, hn], rfl, rfl⟩
    have := hleaving.frame (killInstance_frame r.instanceId)
    rwa [hok] at this

theorem leaving_beginRollback (h : Tracks o s) (hst : s.stage = .operational)
    (hs : s.supervisor = some sup) {c : Instance} (hc : sup.candidate = some c)
    (hok : beginRollback (applyReplacementEvent (depth + 1)) phase now s = (.ok (), s')) :
    Leaving s' .candidate c.instanceId := by
  unfold beginRollback at hok
  rw [bind_run, get_run] at hok
  by_cases hdef : s.deferredActiveExit.isSome = true
  · simp only [if_pos hdef] at hok
    have := mode_closing_of_failMaster s .crash
    rw [hok] at this
    exact .inl this
  · simp only [if_neg hdef, hs, Option.bind_some, hc, okOr_some] at hok
    -- the failed candidate is stopping; what follows only reports
    have hstart := (stable_tracks o).push (.rollbackStarted c.instanceId phase)
      ((stable_tracks o).failure (some phase) h)
    have hrun : (applyReplacementEvent (depth + 1) (.candidateFailed c.instanceId) now >>=
        fun _ => maybeFinishRollback : Method E Unit)
          ({ s with replacementFailure := some phase }.push
          (.rollbackStarted c.instanceId phase)) = (.ok (), s') := hok
    obtain ⟨_, s₁, happly, hfinish⟩ := bind_eq_ok.mp hrun
    have hleaving := leaving_candidateFailed hstart (by exact hst) happly
    have hsame := maybeFinishRollback_same s₁
    rw [hfinish] at hsame
    exact hleaving.congr hsame.1 hsame.2

theorem leaving_failRetired (hst : s.stage = .operational) (hw : s.worker .retired = some w)
    (hok : failRetired (applyReplacementEvent (depth + 1)) phase now s = (.ok (), s')) :
    Leaving s' .retired w.instanceId := by
  unfold failRetired at hok
  rw [bind_ok (workerId_run hw)] at hok
  exact leaving_retiredFailed (s := { s with replacementFailure := some phase }) hst hok

end leaving

/-! ## A worker that has exited leaves its role -/

section release

variable {depth : ℕ} {now : Instant} {id : InstanceId}

/-- The event that ends an instance's role. -/
def stoppedEvent (role : WorkerRole) (id : InstanceId) : ReplacementEvent :=
  match role with
  | .retired => .retiredStopped id
  | _ => .candidateStopped id

variable {apply : ApplyEvent E} {phase : FailurePhase}

theorem releaseRetired_run :
    releaseRetired apply id now s = apply (stoppedEvent .retired id) now (s.takeWorker .retired) :=
  rfl

theorem releaseCandidate_run : releaseCandidate apply id now s =
    apply (stoppedEvent .candidate id) now (s.takeWorker .candidate) := rfl

theorem Supervisor.Step.stopped {sup' : Supervisor} {acts : List ReplacementAction}
    (h : sup.Step (stoppedEvent role id) acts sup') : acts = [] := by
  unfold Supervisor.Step at h
  generalize sup'.toReplacementSupervisor = next at h
  cases role <;> cases h <;> rfl

theorem Supervisor.exists_stopped {i : Instance} (hrole : role ≠ .active)
    (hi : sup.occupant role = some i) (hl : i.lifecycle = .stopping) :
    ∃ sup', sup.Step (stoppedEvent role i.instanceId) [] sup' ∧
      sup'.ids = Function.update sup.ids role none := by
  cases role with
  | active => exact absurd rfl hrole
  | candidate =>
    have hstep := ReplacementSupervisor.Step.candidateStopped hi hl
    refine ⟨⟨_, sup.wellFormed.step hstep⟩, hstep, funext fun role => ?_⟩
    cases role <;> rfl
  | retired =>
    have hstep := ReplacementSupervisor.Step.retiredStopped hi hl
    refine ⟨⟨_, sup.wellFormed.step hstep⟩, hstep, funext fun role => ?_⟩
    cases role <;> rfl

theorem stable_gone (known : InstanceId → Prop) (id : InstanceId) :
    Stable (fun t : Master E => t.custody.Gone known id) where
  push _ h := h.imp_right fun ⟨role, status, hmem⟩ => ⟨role, status, List.mem_append_left _ hmem⟩
  touch _ _ h := h
  setWorker h _ _ := by simpa [Custody.Gone, custody] using h
  supervisor h _ _ := h
  failure _ h := h
  failing _ h := h
  reapDeferred h _ _ := h

theorem stable_within : Stable (fun t : Master E => ∀ role w,
    t.worker role = some w → ∃ w₀, s.worker role = some w₀ ∧ w₀.instanceId = w.instanceId) where
  push _ h := by simpa using h
  touch _ _ h := by simpa using h
  setWorker {t role w w'} h hw hsame role' w'' hw'' := by
    rw [setWorker_worker] at hw''
    split at hw''
    · rename_i hr
      cases hw''
      obtain ⟨w₀, hw₀, hid⟩ := h role w hw
      exact ⟨w₀, hr ▸ hw₀, hid.trans hsame.instanceId.symm⟩
    · exact h role' w'' hw''
  supervisor h _ _ := h
  failure _ h := h
  failing _ h := h
  reapDeferred {t} h _ _ role w hw := by
    rw [takeWorker_worker] at hw
    split at hw
    · cases hw
    · exact h role w hw

variable [Runtime E]

/-- **Release**: the slot and the role are given up together. -/
theorem tracks_release (h : Tracks o s) (hrole : role ≠ .active) (hl : Leaving s role id)
    (hgone : ∀ w, s.worker role = some w → s.custody.Gone o.known w.instanceId) :
    Tracks o (applyReplacementEvent (depth + 1) (stoppedEvent role id) now
      (s.takeWorker role)).2 := by
  have hgone' : ∀ id, s.custody.ids role = some id → s.custody.Gone o.known id := by
    intro id hid
    rw [custody_ids] at hid
    obtain ⟨w, hw, rfl⟩ := Option.map_eq_some_iff.mp hid
    exact hgone w hw
  rcases hl with hm | ⟨hst, sup, i, hs, hi, rfl, hl⟩
  · -- on its way down the master lets go whatever the supervisor says
    have htaken : Tracks o (s.takeWorker role) :=
      h.step (custody_takeWorker ▸ .forget hm hgone')
    rcases applySupervisor_cases with
      ⟨sup, acts, sup', hs, hstep, -⟩ | ⟨error, hr⟩
    · rw [applyReplacementEvent_step hs hstep, hstep.stopped, executeReplacementActions_nil]
      refine htaken.congr (Custody.ext ?_ rfl rfl rfl rfl)
      unfold custody mode at *
      cases hst : (s.takeWorker role).stage <;> simp_all
    · unfold applyReplacementEvent
      rw [bind_error hr]
      exact htaken
  · obtain ⟨sup', hstep, hids⟩ := exists_stopped hrole hi hl
    have hs' : (s.takeWorker role).supervisor = some sup := by rw [takeWorker_supervisor, hs]
    rw [applyReplacementEvent_step hs' hstep, executeReplacementActions_nil]
    have hrelease : Custody.Step o.accepted o.known s.custody
        { s.custody.take role with mode := .operating (Function.update sup.ids role none) } :=
      .release hrole (mode_operational hst hs) hgone'
    refine h.step ?_
    have hmode : { s.takeWorker role with supervisor := some sup' }.mode =
        .operating (Function.update sup.ids role none) := by
      simp [mode, hst, hids]
    have heq : { s.takeWorker role with supervisor := some sup' }.custody =
        { s.custody.take role with mode := .operating (Function.update sup.ids role none) } := by
      rw [← custody_takeWorker]
      exact Custody.ext hmode rfl rfl rfl rfl
    rw [heq]
    exact hrelease

/-- A method that moves no worker, then the release of a worker whose exit is known. -/
theorem tracks_then_release {x release : Method E Unit}
    (hx : ∀ {I : Master E → Prop}, Stable I → Keeps I x) (h : Tracks o s) (hrole : role ≠ .active)
    (hw : s.worker role = some w) (hgone : s.custody.Gone o.known w.instanceId)
    (hl : ∀ s', x s = (.ok (), s') → Leaving s' role w.instanceId) (hrelease : ∀ {s'}, release s' =
      applyReplacementEvent (depth + 1) (stoppedEvent role w.instanceId) now (s'.takeWorker role)) :
    Tracks o ((x >>= fun _ => release) s).2 := by
  have htracks := hx (stable_tracks o) s h
  have hgone' := hx (stable_gone o.known _) s hgone
  have hwithin := hx stable_within s fun _ w hw => ⟨w, hw, rfl⟩
  rw [bind_run]
  rcases hr : x s with ⟨e | a, s'⟩ <;> rw [hr] at htracks hgone' hwithin
  · exact htracks
  · simp only [hrelease]
    refine tracks_release htracks hrole (hl s' hr) fun w' hw' => ?_
    obtain ⟨w₀, hw₀, hid⟩ := hwithin role w' hw'
    cases hw.symm.trans hw₀
    exact hid ▸ hgone'

end release

/-! ## Commit -/

section commit

variable {depth : ℕ} {now : Instant} {id : InstanceId} {old promoted : ManagedWorker}

theorem commitCandidate_run (hs : s.supervisor = some sup) (ha : s.active = some old)
    (hc : s.candidate = some promoted) (hid : promoted.instanceId = sup.active.instanceId) :
    commitCandidate old.instanceId s = (.ok (),
      { s with active := some promoted, candidate := none, retired := some old }.push
        (.replacementCommitted sup.active.instanceId old.instanceId)) := by
  unfold commitCandidate
  have hactive : s.worker .active = some old := ha
  have hcandidate : s.worker .candidate = some promoted := hc
  simp [bind_run, hs, workerOr_run hactive, workerOr_run hcandidate, hid, pushEvent_run]

/-- The slots move with the roles; a deferred exit is settled by the commit. -/
theorem tracks_commit (h : Tracks o s) (hst : s.stage = .operational) (hs : s.supervisor = some sup)
    (ha : s.active = some old) (hc : s.candidate = some promoted) {sup' : Supervisor}
    (hids : sup'.ids = Custody.promoted sup.ids) (deferred : Option ExitStatus)
    (hdef : deferred.isSome = false) : Tracks o { s with
      supervisor := some sup'
      active := some promoted
      candidate := none
      retired := some old
      deferredActiveExit := deferred } := by
  have hcandidate := h.worker_id hst hs (show s.worker .candidate = _ from hc)
  obtain ⟨c, hc', -⟩ := candidate_of_ids hcandidate
  have hretired : sup.ids .retired = none := by
    simp [ids, sup.wellFormed.retired_none hc']
  have hcommit : Custody.Step o.accepted o.known s.custody _ :=
    .commit (mode_operational hst hs) (by rw [hcandidate]; rfl) hretired
  refine h.step ?_
  convert hcommit using 1
  refine Custody.ext ?_ (funext fun role => ?_) hdef rfl rfl
  · simp [custody, mode, hst, hids]
  · cases role with
    | active => simp [custody, worker, Custody.promoted, hc]
    | candidate => simp [custody, worker, Custody.promoted]
    | retired => simp [custody, worker, Custody.promoted, ha]

variable [Runtime E]

theorem tracks_releaseDeferred (h : Tracks o s) (hst : s.stage = .operational)
    (hw : s.worker .retired = some w) (hgone : s.custody.Gone o.known w.instanceId) : Tracks o ((do
      failRetired (applyReplacementEvent (depth + 1)) .crash now
      releaseRetired (applyReplacementEvent (depth + 1)) (← workerId .retired) now
      completeFailedRetired : Method E Unit) s).2 := by
  have hfail : ∀ {I : Master E → Prop}, Stable I → Keeps I
      (failRetired (applyReplacementEvent (depth + 1)) .crash now : Method E Unit) :=
    fun hI => (hI.compensates _).failRetired .crash now
  have htracks := hfail (stable_tracks o) s h
  have hgone' := hfail (stable_gone o.known _) s hgone
  have hwithin := hfail stable_within s fun _ w hw => ⟨w, hw, rfl⟩
  rw [bind_run]
  rcases hr : (failRetired _ .crash now : Method E Unit) s with
    ⟨e | a, s'⟩ <;> rw [hr] at htracks hgone' hwithin
  · exact htracks
  simp only
  cases hw' : s'.worker .retired with
  | none =>
    unfold workerId
    rw [bind_error (bind_error (workerOr_none hw'))]
    exact htracks
  | some w' =>
    obtain ⟨w₀, hw₀, hid⟩ := hwithin .retired w' hw'
    cases hw.symm.trans hw₀
    rw [bind_ok (workerId_run hw')]
    have hleaving := leaving_failRetired hst hw hr
    have hrelease : Tracks o (releaseRetired (applyReplacementEvent (depth + 1)) w'.instanceId now
        s').2 := by
      rw [releaseRetired_run]
      refine tracks_release htracks (by decide) (hid ▸ hleaving) fun w'' hw'' => ?_
      cases hw'.symm.trans hw''
      exact hid ▸ hgone'
    rw [bind_run]
    rcases hr' : releaseRetired _ _ now s' with
      ⟨e | a, s''⟩ <;> rw [hr'] at hrelease
    · exact hrelease
    · exact (stable_tracks o).keeps_completeFailedRetired s'' hrelease

/-- **The candidate takes over**, whether or not the old worker has already exited. -/
theorem tracks_candidateActivated (h : Tracks o s) (hst : s.stage = .operational) :
    Tracks o (applyReplacementEvent (depth + 2) (.candidateActivated id) now s).2 := by
  rcases applySupervisor_cases with
    ⟨sup, acts, sup', hs, hstep, -⟩ | ⟨error, hr⟩
  swap
  · unfold applyReplacementEvent
    rw [bind_error hr]
    exact h
  rw [applyReplacementEvent_step hs hstep]
  unfold Supervisor.Step at hstep
  generalize hn : sup'.toReplacementSupervisor = next at hstep
  cases hstep with
  | @candidateActivated c hc hl ha =>
    obtain ⟨old, hold, holdid⟩ := h.worker_of_id hst hs ids_active
    obtain ⟨promoted, hpromoted, hpromotedid⟩ := h.worker_of_id hst hs (ids_candidate hc)
    have hids : sup'.ids = Custody.promoted sup.ids := by
      funext role
      cases role <;> simp [ids, Custody.promoted, hn, hc]
    have hrun := commitCandidate_run (s := { s with supervisor := some sup' }) rfl hold hpromoted
      (by rw [hpromotedid, hn]; rfl)
    rw [actionRounds, executeReplacementActions_singleton rfl, ← holdid]
    unfold drainInstance
    rw [bind_ok hrun, bind_run, get_run]
    by_cases hdef : s.deferredActiveExit.isSome = true
    · -- the old worker has exited: it is failed and released at once
      simp only [push, hdef, if_true]
      have hgone :=
        h.inv.deferred hdef _ (by rw [custody_ids, show s.worker .active = some old from hold]; rfl)
      have htracks := (tracks_commit h hst hs hold hpromoted hids none rfl).push
        (.replacementCommitted sup'.active.instanceId old.instanceId)
      exact tracks_releaseDeferred htracks (by exact hst) rfl ((stable_gone o.known _).push _ hgone)
    · simp only [push, hdef]
      have htracks := (tracks_commit h hst hs hold hpromoted hids _ (by simpa using hdef)).push
        (.replacementCommitted sup'.active.instanceId old.instanceId)
      exact ((stable_tracks o).compensates _).issueOrCompensate _ _ _ _ _ _ htracks

end commit

end Oxiroute.Master
