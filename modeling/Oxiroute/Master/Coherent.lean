import Oxiroute.Master.Calls

/-!
# Requests, worker states and roles agree

What custody forgets: which request a worker is waiting on and whether it is being killed, against
the lifecycle of its instance. `Tight s` says how they agree in each stage of the master. With it,
every acknowledgement that is not stale is one the phase expects, every event applied to the
supervisor is accepted, and no handler fails, as long as the operating system carries out kills.

* `Supervisor.awaits`: the one request a worker may be waiting on.
* `Operating s sup free`: the operational stage; the workers in `free` are still to be settled.
* `Post calm s s'`: what a handler ends in. It carries both what the invariant is for: the handlers
  never fail, and only causes that are not calm fail the master.
-/

namespace Oxiroute.Master

open Lib Supervision Option

variable {E : Type}

/-- The operating system carries out every kill. -/
def KillsSucceed (E : Type) [Runtime E] : Prop :=
  ∀ (process : WorkerProcess) (executor : E), (Runtime.requestKill process executor).1 = .ok ()

/-! ## Settled workers -/

/-- The request a worker may be waiting on, by what the supervisor says of its role. -/
def Supervisor.awaits (sup : Supervisor) : WorkerRole → ControlPhase → Bool
  | .active, .quiesce => sup.candidate.any (·.lifecycle = .ready)
  | .active, .reactivate => sup.active.lifecycle = .reactivating
  | .candidate, .adoptListeners => sup.candidate.any (·.lifecycle = .preparing)
  | .candidate, .activate => sup.candidate.any (·.lifecycle = .activating)
  | .retired, .drain => sup.retired.any (·.lifecycle = .draining)
  | .retired, .shutdown => sup.retired.any (·.lifecycle = .stopping)
  | _, _ => false

/-- The candidate is on its way out. -/
def Supervisor.dropsCandidate (sup : Supervisor) : Bool :=
  sup.candidate.any (·.lifecycle = .stopping)

/-- Nobody has asked the worker to stop. -/
structure ManagedWorker.Sound (w : ManagedWorker) : Prop where
  running : w.state = .running
  spared : w.process.killRequested = false

/-- A worker that is being killed is waiting on nothing. -/
def ManagedWorker.Quelled (w : ManagedWorker) : Prop :=
  w.state = .terminating true → w.pending = none

/-- The state of a worker in its role. -/
def Supervisor.Stands (sup : Supervisor) (w : ManagedWorker) : WorkerRole → Prop
  | .active => w.Sound
  | .candidate => if sup.dropsCandidate then w.state = .terminating true else w.Sound
  | .retired => True

variable {sup : Supervisor} {role : WorkerRole} {w : ManagedWorker} {s : Master E}

theorem Supervisor.Stands.congr {w' : ManagedWorker} (h : sup.Stands w role)
    (hs : w'.state = w.state) (hk : w'.process.killRequested = w.process.killRequested) :
    sup.Stands w' role := by
  have hsound : w.Sound → w'.Sound := fun h => ⟨hs.trans h.running, hk.trans h.spared⟩
  cases role with
  | active => exact hsound h
  | retired => trivial
  | candidate =>
    cases hd : sup.dropsCandidate with
    | true =>
      simp only [Supervisor.Stands, hd, if_true] at h ⊢
      exact hs.trans h
    | false =>
      simp only [Supervisor.Stands, hd, Bool.false_eq_true, if_false] at h ⊢
      exact hsound h

/-- A worker whose request and state fit its role. -/
structure Supervisor.Settled (sup : Supervisor) (role : WorkerRole) (w : ManagedWorker) : Prop where
  awaits : ∀ p, w.pending = some p → sup.awaits role p.phase = true
  stands : sup.Stands w role

theorem Supervisor.Settled.congr {sup' : Supervisor} (h : sup.Settled role w)
    (hawaits : ∀ phase, sup.awaits role phase = true → sup'.awaits role phase = true)
    (hstands : sup.Stands w role → sup'.Stands w role) : sup'.Settled role w :=
  ⟨fun p hp => hawaits p.phase (h.awaits p hp), hstands h.stands⟩

theorem Supervisor.Settled.idle (hp : w.pending = none) (hs : sup.Stands w role) :
    sup.Settled role w :=
  ⟨by simp [hp], hs⟩

/-- The supervisor past a step. -/
def Supervisor.past (sup : Supervisor) {event : ReplacementEvent} {acts : List ReplacementAction}
    {next : ReplacementSupervisor}
    (h : ReplacementSupervisor.Step sup.toReplacementSupervisor event acts next) : Supervisor :=
  ⟨next, sup.wellFormed.step h⟩

/-- The operational master, up to the workers in `free`. -/
structure Operating (s : Master E) (sup : Supervisor) (free : List WorkerRole) : Prop where
  stage : s.stage = .operational
  supervisor : s.supervisor = some sup
  mirror : ∀ role, (s.worker role).map (·.instanceId) = sup.ids role
  quelled : ∀ role w, s.worker role = some w → w.Quelled
  settled : ∀ role w, s.worker role = some w → role ∉ free → sup.Settled role w
  deferred : s.deferredActiveExit.isSome = true → sup.phase = .activatingCandidate

/-- A master that waits for its first worker to answer a `phase` request. -/
structure Booting (s : Master E) (phase : ControlPhase) : Prop where
  supervisor : s.supervisor = none
  deferred : s.deferredActiveExit = none
  candidate : s.candidate = none
  retired : s.retired = none
  active : ∃ w, s.active = some w ∧ w.Sound ∧ ∀ p, w.pending = some p → p.phase = phase

/-- A worker held is the supervisor's instance of its role. -/
def Within (s : Master E) : Prop :=
  ∀ role w sup, s.worker role = some w → s.supervisor = some sup → sup.ids role = some w.instanceId

/-- A master on its way down: every worker is being killed. -/
structure Closing (s : Master E) : Prop where
  within : s.Within
  killed : ∀ role w, s.worker role = some w → w.state = .terminating true ∧ w.pending = none

structure ShuttingDown (s : Master E) : Prop where
  supervisor : s.supervisor = none
  asked : ∀ role w p, s.worker role = some w → w.pending = some p → p.phase = .shutdown
  quelled : ∀ role w, s.worker role = some w → w.Quelled

/-- **The invariant**, by stage. -/
def Tight (s : Master E) : Prop :=
  match s.stage with
  | .bootAdopting => s.Booting .adoptListeners
  | .bootActivating => s.Booting .activate
  | .operational => ∃ sup, s.Operating sup []
  | .failing _ => s.Closing
  | .shuttingDown _ _ => s.ShuttingDown
  | .stopped _ | .failed => ∀ role, s.worker role = none

theorem tight_operating (h : s.Operating sup []) : s.Tight := by
  unfold Tight
  rw [h.stage]
  exact ⟨sup, h⟩

theorem Tight.operating (h : s.Tight) (hst : s.stage = .operational) :
    ∃ sup, s.Operating sup [] := by
  unfold Tight at h
  rwa [hst] at h

theorem tight_closing (hst : ∃ phase, s.stage = .failing phase) (h : s.Closing) : s.Tight := by
  obtain ⟨phase, hst⟩ := hst
  unfold Tight
  rw [hst]
  exact h

theorem Tight.closing (h : s.Tight) {phase : FailurePhase} (hst : s.stage = .failing phase) :
    s.Closing := by
  unfold Tight at h
  rwa [hst] at h

/-- The stages of a master that has not failed and is not told to stop. -/
def Stage.serves : Stage → Bool
  | .bootAdopting | .bootActivating | .operational => true
  | _ => false

/-- The master serves, and no exit of its active worker is deferred. -/
structure Serving (s : Master E) : Prop where
  stage : s.stage.serves = true
  deferred : s.deferredActiveExit = none

theorem not_serving (h : s.stage.serves = false) : ¬ s.Serving := fun hs => by
  rw [hs.stage] at h
  exact Bool.noConfusion h

/-- A failed send or preparation for the active worker has been reported. -/
def Blamed (s : Master E) : Prop := ∃ event ∈ s.events, event.issueFailed .active = true

theorem Blamed.mono {s' : Master E} (h : s.Blamed) (he : s.events <+: s'.events) : s'.Blamed := by
  obtain ⟨event, hmem, hissue⟩ := h
  exact ⟨event, he.subset hmem, hissue⟩

/-- What a handler ends in. Where the cause is `calm`, it fails the master only when a request to
the active worker could not be made. -/
structure Post (calm : Prop) (s s' : Master E) : Prop where
  tight : s'.Tight
  events : s.events <+: s'.events
  serving : calm → s.Serving → s'.Serving ∨ s'.Blamed

namespace Post

variable {s s' s'' : Master E} {calm calm' : Prop}

theorem mono (h : Post calm s s') (hc : calm' → calm) : Post calm' s s' :=
  ⟨h.tight, h.events, fun hc' => h.serving (hc hc')⟩

theorem weaken (h : Post calm s s') (hc : calm' → s.Serving → calm) : Post calm' s s' :=
  ⟨h.tight, h.events, fun hc' hs => h.serving (hc hc' hs) hs⟩

theorem trans (h : Post calm s s') (h' : Post calm s' s'') : Post calm s s'' := by
  refine ⟨h'.tight, h.events.trans h'.events, fun hc hs => ?_⟩
  rcases h.serving hc hs with hs' | hb
  · exact h'.serving hc hs'
  · exact .inr (hb.mono h'.events)

/-- A handler that starts with steps the invariant does not read. -/
theorem after (h : Post calm s' s'') (he : s.events <+: s'.events) (hs : s.Serving → s'.Serving) :
    Post calm s s'' :=
  ⟨h.tight, he.trans h.events, fun hc hs' => h.serving hc (hs hs')⟩

/-- The master as it was, or with changes the invariant does not read. -/
theorem of_tight (h : s'.Tight) (he : s.events <+: s'.events) (hs : s.Serving → s'.Serving) :
    Post calm s s' :=
  ⟨h, he, fun _ hs' => .inl (hs hs')⟩

theorem refl (h : s.Tight) : Post calm s s := .of_tight h (List.prefix_refl _) id

theorem after_setWorker {w : Option ManagedWorker} (h : Post calm (s.setWorker role w) s') :
    Post calm s s' :=
  h.after (by simp) fun hs =>
    ⟨by rw [setWorker_stage, hs.stage], by rw [setWorker_deferredActiveExit, hs.deferred]⟩

theorem after_push {event : MasterEvent} (h : Post calm (s.push event) s') : Post calm s s' :=
  h.after (List.prefix_append _ _) fun hs => ⟨hs.stage, hs.deferred⟩

/-- A failed master, from a cause that is not calm. -/
theorem of_closing (hst : ∃ phase, s'.stage = .failing phase) (h : s'.Closing)
    (he : s.events <+: s'.events) (hcalm : calm → s.Serving → s'.Blamed) : Post calm s s' :=
  ⟨tight_closing hst h, he, fun hc hs => .inr (hcalm hc hs)⟩

theorem of_operating {sup' : Supervisor} (h : s'.Operating sup' [])
    (hd : s.deferredActiveExit = none → s'.deferredActiveExit = none)
    (he : s.events <+: s'.events) : Post calm s s' :=
  ⟨tight_operating h, he, fun _ hs => .inl ⟨by rw [h.stage]; rfl, hd hs.deferred⟩⟩

end Post

/-! ## Moves that keep it -/

section moves

variable {s s' : Master E} {role : WorkerRole} {w w' : ManagedWorker} {sup sup' : Supervisor}
  {free free' : List WorkerRole}

namespace Operating

variable (h : s.Operating sup free)
include h

theorem congr (hst : s'.stage = s.stage) (hs : s'.supervisor = s.supervisor)
    (hd : s'.deferredActiveExit = s.deferredActiveExit)
    (hw : ∀ role, s'.worker role = s.worker role) : s'.Operating sup free where
  stage := hst.trans h.stage
  supervisor := hs.trans h.supervisor
  mirror role := by rw [hw, h.mirror]
  quelled role w hw' := h.quelled role w ((hw role).symm.trans hw')
  settled role w hw' := h.settled role w ((hw role).symm.trans hw')
  deferred hd' := h.deferred (hd ▸ hd')

theorem push (event : MasterEvent) : (s.push event).Operating sup free :=
  h.congr rfl rfl rfl (push_worker s · event)

theorem touch (executor : E) (n : UInt64) : (s.touch executor n).Operating sup free :=
  h.congr rfl rfl rfl (touch_worker s · executor n)

theorem failure (failure : Option FailurePhase) :
    { s with replacementFailure := failure }.Operating sup free :=
  h.congr rfl rfl rfl fun role => by cases role <;> rfl

/-- A worker changes in its slot; it may be settled by that. -/
theorem setWorker (hw : s.worker role = some w) (hid : w'.instanceId = w.instanceId)
    (hq : w'.Quelled) (hsettled : role ∉ free' → sup.Settled role w')
    (hfree : ∀ role', role' ≠ role → role' ∉ free' → role' ∉ free) :
    (s.setWorker role (some w')).Operating sup free' where
  stage := by rw [setWorker_stage, h.stage]
  supervisor := by rw [setWorker_supervisor, h.supervisor]
  mirror role' := by
    rw [setWorker_worker, ← h.mirror]
    split
    · rename_i hr
      rw [hr, hw, map_some, map_some, hid]
    · rfl
  quelled role' w'' hw'' := by
    rw [setWorker_worker] at hw''
    split at hw''
    · exact Option.some.inj hw'' ▸ hq
    · exact h.quelled role' w'' hw''
  settled role' w'' hw'' hf := by
    rw [setWorker_worker] at hw''
    split at hw''
    · rename_i hr
      subst hr
      exact Option.some.inj hw'' ▸ hsettled hf
    · exact h.settled role' w'' hw'' (hfree role' ‹_› hf)
  deferred hd := h.deferred (by simpa using hd)

/-- The supervisor moves on without moving a role. -/
theorem advance (hids : sup'.ids = sup.ids)
    (hsettled : ∀ role w, s.worker role = some w → role ∉ free' → sup'.Settled role w)
    (hdeferred : s.deferredActiveExit.isSome = true → sup'.phase = .activatingCandidate) :
    { s with supervisor := some sup' }.Operating sup' free' where
  stage := h.stage
  supervisor := rfl
  mirror role := by
    rw [hids, ← h.mirror]
    cases role <;> rfl
  quelled role w hw := h.quelled role w (by cases role <;> exact hw)
  settled role w hw := hsettled role w (by cases role <;> exact hw)
  deferred := hdeferred

omit h

/-- A step of the supervisor while nobody waits on a request: only the candidate's fate matters. -/
theorem advance_idle (h : s.Operating sup []) (hids : sup'.ids = sup.ids)
    (hidle : ∀ role w, s.worker role = some w → w.pending = none)
    (hdrops : sup'.dropsCandidate = sup.dropsCandidate) (hd : s.deferredActiveExit = none) :
    { s with supervisor := some sup' }.Operating sup' [] := by
  refine h.advance hids (fun role w hw hfree => .idle (hidle role w hw) ?_) (by simp [hd])
  have hstands := (h.settled role w hw hfree).stands
  cases role with
  | active => exact hstands
  | retired => trivial
  | candidate => simpa only [Supervisor.Stands, hdrops] using hstands

include h

theorem within : s.Within := by
  intro role w sup' hw hs
  cases h.supervisor.symm.trans hs
  rw [← h.mirror, hw, map_some]

theorem worker_of_id {id : InstanceId} (hid : sup.ids role = some id) :
    ∃ w, s.worker role = some w ∧ w.instanceId = id :=
  map_eq_some_iff.mp ((h.mirror role).trans hid)

theorem id_eq (hw : s.worker role = some w) {id : InstanceId} (hid : sup.ids role = some id) :
    w.instanceId = id :=
  Option.some.inj ((h.within role w sup hw h.supervisor).symm.trans hid)

theorem roleFor {id : InstanceId} (hid : sup.ids role = some id) :
    s.roleFor id = some role := roleFor_of_ids h.mirror hid

theorem phase : s.replacementPhase = some sup.phase := by
  rw [replacementPhase, h.supervisor, map_some]

theorem worker_none (hid : sup.ids role = none) : s.worker role = none :=
  map_eq_none_iff.mp ((h.mirror role).trans hid)

theorem pending_none (hw : s.worker role = some w) (hfree : role ∉ free)
    (hn : ∀ phase, sup.awaits role phase = false) : w.pending = none := by
  cases hp : w.pending with
  | none => rfl
  | some p => exact absurd ((h.settled role w hw hfree).awaits p hp) (by simp [hn])

theorem not_deferred (hp : sup.phase ≠ .activatingCandidate) : s.deferredActiveExit = none := by
  cases hd : s.deferredActiveExit with
  | none => rfl
  | some status => exact absurd (h.deferred (by rw [hd]; rfl)) hp

end Operating

theorem Within.congr (h : s.Within) (hs : s'.supervisor = s.supervisor)
    (hw : ∀ role w', s'.worker role = some w' →
      ∃ w, s.worker role = some w ∧ w.instanceId = w'.instanceId) : s'.Within := by
  intro role w' sup hw' hsup
  obtain ⟨w, hw, hid⟩ := hw role w' hw'
  exact hid ▸ h role w sup hw (hs ▸ hsup)

end moves

end Oxiroute.Master
