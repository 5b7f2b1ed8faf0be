import Oxiroute.Master.Handlers

/-!
# Reactions to workers

The handlers of `master.rs` for what a worker reports. From a state that satisfies the invariant
each ends without an error, in a state that satisfies it again, with the one exception of
`Stranded`: the candidate exits while it is being activated and the active worker's exit has been
deferred.

* `handleAck_ends`: an acknowledgement is stale, or it is the one the phase expects.
* `handleExit_ends`: an exit, outside `Stranded`.
-/

namespace Oxiroute.Master

open Lib Lib.Prog List Supervision Supervisor Ends Option

variable {E : Type}

/-! ## The invariant under small changes -/

section small

variable {s s' : Master E} {role : WorkerRole} {w w' : ManagedWorker} {sup : Supervisor}

theorem Booting.congr {phase : ControlPhase} (h : s.Booting phase)
    (hs : s'.supervisor = s.supervisor) (hd : s'.deferredActiveExit = s.deferredActiveExit)
    (hw : ∀ role, s'.worker role = s.worker role) : s'.Booting phase where
  supervisor := hs.trans h.supervisor
  deferred := hd.trans h.deferred
  candidate := (hw .candidate).trans h.candidate
  retired := (hw .retired).trans h.retired
  active := by
    obtain ⟨w, ha, hsound⟩ := h.active
    exact ⟨w, (hw .active).trans ha, hsound⟩

theorem Closing.congr (h : s.Closing) (hs : s'.supervisor = s.supervisor)
    (hw : ∀ role, s'.worker role = s.worker role) : s'.Closing :=
  ⟨h.within.congr hs fun role w hw' => ⟨w, (hw role).symm.trans hw', rfl⟩,
    fun role w hw' => h.killed role w ((hw role).symm.trans hw')⟩

theorem ShuttingDown.congr (h : s.ShuttingDown) (hs : s'.supervisor = s.supervisor)
    (hw : ∀ role, s'.worker role = s.worker role) : s'.ShuttingDown :=
  ⟨hs.trans h.supervisor, fun role w p hw' => h.asked role w p ((hw role).symm.trans hw'),
    fun role w hw' => h.quelled role w ((hw role).symm.trans hw')⟩

theorem Tight.congr (h : s.Tight) (hst : s'.stage = s.stage) (hs : s'.supervisor = s.supervisor)
    (hd : s'.deferredActiveExit = s.deferredActiveExit)
    (hw : ∀ role, s'.worker role = s.worker role) : s'.Tight := by
  unfold Tight at h ⊢
  rw [hst]
  split at h
  · exact h.congr hs hd hw
  · exact h.congr hs hd hw
  · obtain ⟨sup, h⟩ := h
    exact ⟨sup, h.congr hst hs hd hw⟩
  · exact h.congr hs hw
  · exact h.congr hs hw
  · exact fun role => (hw role).trans (h role)
  · exact fun role => (hw role).trans (h role)

theorem Tight.push (h : s.Tight) (event : MasterEvent) : (s.push event).Tight :=
  h.congr rfl rfl rfl (push_worker s · event)

/-- A worker that is touched up in its slot: its identity and its state stay, and it waits on no
other request than before. -/
structure TouchedUp (w w' : ManagedWorker) : Prop where
  instanceId : w'.instanceId = w.instanceId
  state : w'.state = w.state
  process : w'.process = w.process
  pending : w'.pending = w.pending ∨ w'.pending = none

namespace TouchedUp

theorem of_pending (h : TouchedUp w w') {p : Pending} (hp : w'.pending = some p) :
    w.pending = some p := by
  rcases h.pending with he | he
  · rw [← he, hp]
  · cases he.symm.trans hp

theorem quelled (h : TouchedUp w w') (hq : w.Quelled) : w'.Quelled := by
  intro hs
  have hnone := hq (h.state ▸ hs)
  rcases h.pending with he | he
  · rw [he, hnone]
  · exact he

theorem sound (h : TouchedUp w w') (hs : w.Sound) : w'.Sound :=
  ⟨h.state.trans hs.running, (congrArg (·.killRequested) h.process).trans hs.spared⟩

theorem killed (ht : TouchedUp w w') (h : w.state = .terminating true ∧ w.pending = none) :
    w'.state = .terminating true ∧ w'.pending = none := by
  refine ⟨ht.state.trans h.1, ?_⟩
  rcases ht.pending with he | he
  · rw [he, h.2]
  · exact he

theorem settled (h : TouchedUp w w') (hs : sup.Settled role w) : sup.Settled role w' :=
  ⟨fun p hp => hs.awaits p (h.of_pending hp),
    hs.stands.congr h.state (congrArg (·.killRequested) h.process)⟩

end TouchedUp

theorem Tight.setWorker (h : s.Tight) (hw : s.worker role = some w) (ht : TouchedUp w w') :
    (s.setWorker role (some w')).Tight := by
  have hslot : ∀ role' w'', (s.setWorker role (some w')).worker role' = some w'' →
      ∃ w₀, s.worker role' = some w₀ ∧ TouchedUp w₀ w'' := by
    intro role' w'' hw''
    rw [setWorker_worker] at hw''
    split at hw''
    · rename_i hr
      cases hw''
      exact ⟨w, hr ▸ hw, ht⟩
    · exact ⟨w'', hw'', rfl, rfl, rfl, .inl rfl⟩
  have hboot : ∀ {phase}, s.Booting phase → (s.setWorker role (some w')).Booting phase := by
    intro phase hb
    obtain ⟨rfl, hsound, hp⟩ := hb.worker hw
    exact ⟨hb.supervisor, hb.deferred, hb.candidate, hb.retired, w', rfl, ht.sound hsound,
      fun p hp' => hp p (ht.of_pending hp')⟩
  unfold Tight at h ⊢
  rw [setWorker_stage]
  split at h
  · exact hboot h
  · exact hboot h
  · obtain ⟨sup, h⟩ := h
    exact ⟨sup, h.setWorker hw ht.instanceId (ht.quelled (h.quelled role w hw))
      (fun hfree => ht.settled (h.settled role w hw hfree)) (by simp)⟩
  · refine ⟨h.within.congr (setWorker_supervisor _ _ _) fun role' w'' hw'' => ?_,
      fun role' w'' hw'' => ?_⟩
    · obtain ⟨w₀, hw₀, ht₀⟩ := hslot role' w'' hw''
      exact ⟨w₀, hw₀, ht₀.instanceId.symm⟩
    · obtain ⟨w₀, hw₀, ht₀⟩ := hslot role' w'' hw''
      exact ht₀.killed (h.killed role' w₀ hw₀)
  · refine ⟨(setWorker_supervisor _ _ _).trans h.supervisor, fun role' w'' p hw'' hp => ?_,
      fun role' w'' hw'' => ?_⟩
    · obtain ⟨w₀, hw₀, ht₀⟩ := hslot role' w'' hw''
      exact h.asked role' w₀ p hw₀ (ht₀.of_pending hp)
    · obtain ⟨w₀, hw₀, ht₀⟩ := hslot role' w'' hw''
      exact ht₀.quelled (h.quelled role' w₀ hw₀)
  · cases (h role).symm.trans hw
  · cases (h role).symm.trans hw

end small

/-! ## Acknowledgements -/

section acks

variable {s s' : Master E} {role : WorkerRole} {w : ManagedWorker} {sup : Supervisor}
  {now : Instant}

/-- The request whose acknowledgement the master can use. -/
def Expects (s : Master E) (role : WorkerRole) (phase : ControlPhase) : Prop :=
  match s.stage with
  | .bootAdopting => role = .active ∧ phase = .adoptListeners
  | .bootActivating => role = .active ∧ phase = .activate
  | .operational => ∃ sup, s.supervisor = some sup ∧ sup.awaits role phase = true
  | .shuttingDown _ _ => phase = .shutdown
  | _ => False

theorem Tight.expects (h : s.Tight) (hw : s.worker role = some w) {p : Pending}
    (hp : w.pending = some p) : s.Expects role p.phase := by
  unfold Tight at h
  unfold Expects
  cases hst : s.stage with
  | bootAdopting | bootActivating =>
    rw [hst] at h
    obtain ⟨hr, -, hphase⟩ := h.worker hw
    exact ⟨hr, hphase p hp⟩
  | operational =>
    rw [hst] at h
    obtain ⟨sup, h⟩ := h
    exact ⟨sup, h.supervisor, (h.settled role w hw not_mem_nil).awaits p hp⟩
  | failing _ =>
    rw [hst] at h
    cases (h.killed role w hw).2.symm.trans hp
  | shuttingDown _ _ =>
    rw [hst] at h
    exact h.asked role w p hw hp
  | stopped _ | failed =>
    rw [hst] at h
    cases (h role).symm.trans hw

variable {phase : ControlPhase}

theorem becomeOperational_ends (h : s.Booting .activate)
    (hidle : ∀ w, s.worker .active = some w → w.pending = none) :
    Ends becomeOperational s fun _ s' => Post True s s' := by
  obtain ⟨w, hw, hsound, -⟩ := h.active
  obtain ⟨sup, hnew, hsup⟩ := new_active _ _
  have hrun : becomeOperational s = (.ok (),
      { s with supervisor := some sup, stage := .operational }.push
        (.initialActivated w.instanceId)) := by
    unfold becomeOperational
    rw [bind_ok (workerOr_run (show s.worker .active = some w from hw)), hnew]
    rfl
  suffices hop : { s with supervisor := some sup, stage := .operational }.Operating sup [] from
    ⟨(), _, hrun, .of_operating (hop.push _) id (prefix_append _ _)⟩
  have hslot : ∀ role w', { s with supervisor := some sup, stage := .operational }.worker role =
      some w' → role = .active ∧ w' = w := by
    intro role w' hw'
    cases role with
    | active => exact ⟨rfl, Option.some.inj (hw'.symm.trans hw)⟩
    | candidate => cases h.candidate.symm.trans hw'
    | retired => cases h.retired.symm.trans hw'
  refine ⟨rfl, rfl, fun role => ?_, fun role w' hw' => ?_, fun role w' hw' _ => ?_, ?_⟩
  · cases role <;> simp [worker, ids, hsup, hw, h.candidate, h.retired]
  · obtain ⟨-, rfl⟩ := hslot role w' hw'
    exact hsound.quelled
  · obtain ⟨rfl, rfl⟩ := hslot role w' hw'
    exact .idle (hidle w' hw) hsound
  · simp [h.deferred]

theorem Supervisor.phase_reactivating (hl : sup.active.lifecycle = .reactivating) :
    sup.phase = .rollingBack := by
  have hbeside : ∀ {c : Instance}, sup.candidate = some c → c.lifecycle = .stopping := by
    intro c hc
    have hbeside := sup.wellFormed.beside c hc
    rw [hl] at hbeside
    cases hlc : c.lifecycle <;> rw [hlc] at hbeside <;>
      first | rfl | exact absurd hbeside (by simp [ReplacementSupervisor.Beside])
  have hview := sup.view
  generalize sup.phase = p at hview ⊢
  cases hview with
  | running _ _ ha => cases hl.symm.trans ha
  | reactivating _ _ _ | stoppingCandidate _ _ => rfl
  | adopting hc hlc =>
    rcases hlc with hlc | hlc | hlc <;> cases hlc.symm.trans (hbeside hc)
  | quiescing hc hlc | activating hc hlc => cases hlc.symm.trans (hbeside hc)
  | draining hr _ | stoppingRetired hr _ =>
    cases hl.symm.trans (sup.wellFormed.retired_beside _ hr)

/-- The requests a worker may wait on, with the phase they belong to. -/
inductive Supervisor.Awaited (sup : Supervisor) :
    WorkerRole → ControlPhase → ReplacementPhase → Prop
  | adoptListeners {c : Instance} (hc : sup.candidate = some c) (hl : c.lifecycle = .preparing) :
      Awaited sup .candidate .adoptListeners .adoptingCandidate
  | quiesce {c : Instance} (hc : sup.candidate = some c) (hl : c.lifecycle = .ready) :
      Awaited sup .active .quiesce .quiescing
  | activate {c : Instance} (hc : sup.candidate = some c) (hl : c.lifecycle = .activating) :
      Awaited sup .candidate .activate .activatingCandidate
  | reactivate (hl : sup.active.lifecycle = .reactivating) :
      Awaited sup .active .reactivate .rollingBack
  | drain {r : Instance} (hr : sup.retired = some r) (hl : r.lifecycle = .draining) :
      Awaited sup .retired .drain .drainingRetired
  | shutdown {r : Instance} (hr : sup.retired = some r) (hl : r.lifecycle = .stopping) :
      Awaited sup .retired .shutdown .stoppingRetired

theorem Supervisor.awaited (h : sup.awaits role phase = true) :
    sup.Awaited role phase sup.phase := by
  have hcandidate : ∀ {l : Lifecycle}, sup.candidate.any (·.lifecycle = l) = true →
      ∃ c, sup.candidate = some c ∧ c.lifecycle = l ∧ sup.phase = candidatePhase l := by
    intro l hany
    obtain ⟨c, hc, hl⟩ := (any_eq_true _ _).mp hany
    have hl : c.lifecycle = l := by simpa using hl
    exact ⟨c, hc, hl, hl ▸ phase_candidate hc⟩
  have hretired : ∀ {l : Lifecycle}, sup.retired.any (·.lifecycle = l) = true →
      ∃ r, sup.retired = some r ∧ r.lifecycle = l ∧ sup.phase = retiredPhase l := by
    intro l hany
    obtain ⟨r, hr, hl⟩ := (any_eq_true _ _).mp hany
    have hl : r.lifecycle = l := by simpa using hl
    exact ⟨r, hr, hl, hl ▸ phase_retired hr⟩
  unfold awaits at h
  split at h
  · obtain ⟨c, hc, hl, hphase⟩ := hcandidate h
    exact hphase ▸ .quiesce hc hl
  · have hl : sup.active.lifecycle = .reactivating := by simpa using h
    exact phase_reactivating hl ▸ .reactivate hl
  · obtain ⟨c, hc, hl, hphase⟩ := hcandidate h
    exact hphase ▸ .adoptListeners hc hl
  · obtain ⟨c, hc, hl, hphase⟩ := hcandidate h
    exact hphase ▸ .activate hc hl
  · obtain ⟨r, hr, hl, hphase⟩ := hretired h
    exact hphase ▸ .drain hr hl
  · obtain ⟨r, hr, hl, hphase⟩ := hretired h
    exact hphase ▸ .shutdown hr hl
  · exact absurd h Bool.false_ne_true

/-- A master that serves can bear the failure of a request to another worker than the active. -/
theorem Expects.bearable (he : s.Expects role phase) (hr : role ≠ .active) (hs : s.Serving) :
    s.Bearable role := by
  unfold Expects at he
  cases hst : s.stage with
  | bootAdopting | bootActivating =>
    rw [hst] at he
    exact absurd he.1 hr
  | operational =>
    rw [hst] at he
    obtain ⟨sup, hsup, hawaits⟩ := he
    have hawaited := awaited hawaits
    have hphase : s.replacementPhase = some sup.phase := by
      rw [replacementPhase, hsup, map_some]
    generalize sup.phase = p at hawaited hphase
    cases hawaited with
    | quiesce _ _ | reactivate _ => exact absurd rfl hr
    | drain _ _ | shutdown _ _ => trivial
    | adoptListeners _ _ | activate _ _ =>
      rw [Bearable, hphase]
      decide
  | failing _ | shuttingDown _ _ | stopped _ | failed =>
    exact absurd hs (not_serving (by rw [hst]; rfl))

/-- The acknowledgement answers the request the worker in `role` waits on. -/
def Answers (s : Master E) (role : WorkerRole) (ack : ControlAck) : Prop :=
  ∃ w ∈ s.worker role, ∃ p ∈ w.pending, p.requestId = ack.requestId ∧ p.phase = ack.phase

variable [Runtime E]

theorem post_bootRequest (hkill : KillsSucceed E) {α : Type} {request : Method E α}
    (hst : s.stage = .bootAdopting ∧ phase = .adoptListeners ∨
      s.stage = .bootActivating ∧ phase = .activate) (h : s.Booting phase)
    (hx : Issues request .active phase) {failure : FailurePhase} :
    Ends (orCompensate applyEvent request .active phase failure now) s fun _ s' =>
      Post True s s' := by
  have htight : ∀ {t : Master E}, t.stage = s.stage → t.Booting phase → t.Tight := by
    intro t hstage ht
    unfold Tight
    rcases hst with ⟨hst, rfl⟩ | ⟨hst, rfl⟩
    · rwa [hstage, hst]
    · rwa [hstage, hst]
  obtain ⟨w, hw, hsound, -⟩ := h.active
  have hw' : s.worker .active = some w := hw
  obtain ⟨executor, n, ⟨p, hr, hp⟩ | ⟨event, hissue, hr⟩⟩ := orCompensate_cases hx hw' _ failure now
  · refine ⟨(), _, hr, htight (setWorker_stage _ _ _) ?_, prefix_refl _,
      fun _ hs => .inl ⟨hs.stage, hs.deferred⟩⟩
    exact ⟨h.supervisor, h.deferred, h.candidate, h.retired, w.awaiting p, rfl,
      ⟨hsound.running, hsound.spared⟩, fun p' hp' => Option.some.inj hp' ▸ hp⟩
  · have hb : ((s.touch executor n).push event).Booting phase :=
      h.congr rfl rfl fun role => by rw [push_worker, touch_worker]
    refine ((handlePhaseFailure_ends hkill (htight (by rfl) hb)
      (by rw [push_worker, touch_worker, hw'])).mono fun _ s' hpost =>
        ⟨hpost.tight, (prefix_append _ _).trans hpost.events, fun _ _ => .inr ?_⟩).of_eq hr
    exact Blamed.mono ⟨event, mem_append_right _ mem_cons_self, hissue⟩ hpost.events

theorem handlePhaseSuccess_operating (hkill : KillsSucceed E) (h : s.Operating sup [])
    (hw : s.worker role = some w) (hidle : w.pending = none)
    (hawaits : sup.awaits role phase = true) :
    Ends (handlePhaseSuccess role phase now) s fun _ s' => Post True s s' := by
  have hnone : ∀ w', s.worker role = some w' → w'.pending = none := fun w' hw' =>
    Option.some.inj (hw.symm.trans hw') ▸ hidle
  refine of_eq ?_ (bind_ok (get_run s))
  rw [h.stage, h.phase]
  have hawaited := awaited hawaits
  generalize sup.phase = p at hawaited
  cases hawaited with
  | adoptListeners hc hl =>
    refine of_eq ?_ (bind_ok (workerId_run hw))
    rw [h.id_eq hw (ids_candidate hc)]
    exact candidatePrepared_ends hkill h hc hl hnone
  | quiesce hc hl =>
    refine of_eq ?_ (bind_ok (workerId_run hw))
    rw [h.id_eq hw ids_active]
    exact activeQuiesced_ends hkill h hc hl hnone
  | activate hc hl =>
    refine of_eq ?_ (bind_ok (workerId_run hw))
    rw [h.id_eq hw (ids_candidate hc)]
    exact candidateActivated_ends hkill h hc hl hnone
  | reactivate hl =>
    refine of_eq ?_ (bind_ok (workerId_run hw))
    rw [h.id_eq hw ids_active]
    exact activeReactivated_ends h hl hnone
  | drain hr hl =>
    refine of_eq ?_ (bind_ok (workerId_run hw))
    rw [h.id_eq hw (ids_retired hr)]
    exact retiredDrained_ends hkill h hr hl hnone
  | shutdown hr hl => exact ends_pure (.of_operating h id (prefix_refl _))

/-- **An accepted request** takes the master on. -/
theorem handlePhaseSuccess_ends (hkill : KillsSucceed E) (h : s.Tight) (hw : s.worker role = some w)
    (hidle : w.pending = none) (hexpects : s.Expects role phase) :
    Ends (handlePhaseSuccess role phase now) s fun _ s' => Post True s s' := by
  unfold Expects at hexpects
  cases hst : s.stage with
  | bootAdopting =>
    rw [hst] at hexpects
    unfold Tight at h
    rw [hst] at h
    obtain ⟨rfl, rfl⟩ := hexpects
    obtain ⟨w', hw', hsound, -⟩ := h.active
    have hb : { s with stage := .bootActivating }.Booting .activate :=
      ⟨h.supervisor, h.deferred, h.candidate, h.retired, w', hw', hsound, fun p hp => by
        cases hw.symm.trans hw'
        exact absurd (hidle.symm.trans hp) (by simp)⟩
    have hrun : handlePhaseSuccess .active .adoptListeners now s =
        issueOrCompensate applyEvent .active .activate now s.config.activation .activation
          { s with stage := .bootActivating } := by
      unfold handlePhaseSuccess
      rw [bind_run, get_run]
      simp only [hst]
      rfl
    refine of_eq ?_ hrun
    exact (post_bootRequest hkill (.inr ⟨rfl, rfl⟩) hb (issues_issue _ _ _ _)).mono
      fun _ _ hp => hp.after (prefix_refl _) fun hs => ⟨rfl, hs.deferred⟩
  | bootActivating =>
    rw [hst] at hexpects
    unfold Tight at h
    rw [hst] at h
    obtain ⟨rfl, rfl⟩ := hexpects
    have hrun : handlePhaseSuccess .active .activate now s = becomeOperational s := by
      unfold handlePhaseSuccess
      rw [bind_run, get_run]
      simp only [hst]
    refine of_eq ?_ hrun
    exact becomeOperational_ends h fun w' hw' => Option.some.inj (hw.symm.trans hw') ▸ hidle
  | operational =>
    rw [hst] at hexpects
    obtain ⟨sup, hs, hawaits⟩ := hexpects
    obtain ⟨sup', hop⟩ := h.operating hst
    cases hs.symm.trans hop.supervisor
    exact handlePhaseSuccess_operating hkill hop hw hidle hawaits
  | shuttingDown deadline forced =>
    rw [hst] at hexpects
    subst hexpects
    have hrun : handlePhaseSuccess role .shutdown now s = (.ok (), s) := by
      unfold handlePhaseSuccess
      rw [bind_run, get_run]
      simp only [hst]
      rfl
    exact ⟨(), s, hrun, h, prefix_refl _, fun _ hs => absurd hs (not_serving (by rw [hst]; rfl))⟩
  | failing _ | stopped _ | failed =>
    rw [hst] at hexpects
    exact hexpects.elim

/-- **An acknowledgement** is stale, or the phase expects it. -/
theorem handleAck_ends (hkill : KillsSucceed E) (h : s.Tight) (hw : s.worker role = some w)
    {ack : ControlAck} : Ends (handleAck role ack now) s fun _ s' =>
      Post (role = .active → s.Answers role ack → ack.outcome = .accepted) s s' := by
  refine of_eq ?_ (bind_ok (get_run s))
  split
  · exact ⟨(), _, rfl, h.push _, prefix_append _ _, fun _ hs => .inl ⟨hs.stage, hs.deferred⟩⟩
  · rename_i hfresh
    cases hp : w.pending with
    | none => exact absurd hfresh (by simp [hw, hp])
    | some p =>
      simp only [hw, bind_some, hp, all_some, decide_eq_true_eq, not_or,
        not_not] at hfresh
      obtain ⟨hrequest, hphase⟩ := hfresh
      have hexpects := h.expects hw hp
      rw [hphase] at hexpects
      refine of_eq ?_ (bind_ok (updateWorker_run hw))
      have ht : (s.setWorker role (some { w with pending := none })).Tight :=
        h.setWorker hw ⟨rfl, rfl, rfl, .inr rfl⟩
      have hw' : (s.setWorker role (some { w with pending := none })).worker role =
          some { w with pending := none } := by rw [setWorker_worker, if_pos rfl]
      have hexpects' : (s.setWorker role (some { w with pending := none })).Expects role
          ack.phase := by
        unfold Expects at hexpects ⊢
        rwa [setWorker_stage, setWorker_supervisor]
      cases ho : ack.outcome with
      | accepted =>
        exact (handlePhaseSuccess_ends hkill ht hw' rfl hexpects').mono fun _ _ hpost =>
          (hpost.mono fun _ => trivial).after_setWorker
      | rejected _ =>
        refine (handlePhaseFailure_ends hkill ht hw').mono
          fun _ _ hpost => (hpost.weaken fun hcalm hs => ?_).after_setWorker
        exact hexpects'.bearable (fun hr => absurd (hcalm hr ⟨w, hw, p, hp, hrequest,
          hphase⟩) (by simp)) hs

end acks

/-! ## Statuses and disconnects -/

section reports

variable {s s' : Master E} {role : WorkerRole} {w : ManagedWorker} {sup : Supervisor}
  {now : Instant}

theorem handleStatus_ends (h : s.Tight) (hw : s.worker role = some w) {status : WorkerStatus} :
    Ends (handleStatus role status) s fun _ s' => Post True s s' := by
  refine of_eq ?_ (bind_ok (workerOr_run hw))
  split
  · exact ⟨(), _, rfl, h.push _, prefix_append _ _, fun _ hs => .inl ⟨hs.stage, hs.deferred⟩⟩
  · refine of_eq ?_ (bind_ok (get_run s))
    generalize s.snapshotHistory.recordEvents _ _ _ _ status = recorded
    have hrecorded : { s with snapshotHistory := recorded.1 }.Tight :=
      h.congr rfl rfl rfl fun role => by cases role <;> rfl
    have hw' : { s with snapshotHistory := recorded.1 }.worker role = some w := by
      rw [← hw]
      cases role <;> rfl
    have hretained : ({ s with snapshotHistory := recorded.1 }.setWorker role (some { w with
        lastEventCursor := recorded.2
        status := some (w.status.elim status fun previous =>
          retainMonotonicStatus previous status) })).Tight :=
      hrecorded.setWorker hw' ⟨rfl, rfl, rfl, .inl rfl⟩
    refine ⟨(), _, ?_, ((Post.refl (hretained.push (.workerStatusUpdated role w.instanceId
      status.sequence))).after_push.after_setWorker).after (prefix_refl _)
        fun hs => ⟨hs.stage, hs.deferred⟩⟩
    simp [bind_run, updateWorker_run hw', pushEvent_run]

/-- A master that serves can bear the failure of a worker, other than the active, that it has not
killed. -/
theorem Tight.bearable (h : s.Tight) (hw : s.worker role = some w) (hr : role ≠ .active)
    (hstate : w.state ≠ .terminating true) (hs : s.Serving) : s.Bearable role := by
  unfold Tight at h
  cases hst : s.stage with
  | bootAdopting | bootActivating =>
    rw [hst] at h
    exact absurd (h.worker hw).1 hr
  | operational =>
    rw [hst] at h
    obtain ⟨sup, h⟩ := h
    cases role with
    | active => exact absurd rfl hr
    | retired => trivial
    | candidate =>
      obtain ⟨c, hc, -⟩ := h.candidate_of hw
      rw [Bearable, h.phase, phase_candidate hc]
      have hstands := (h.settled .candidate w hw not_mem_nil).stands
      cases hlc : c.lifecycle with
      | stopping => exact absurd (by simpa [Supervisor.Stands, dropsCandidate, hc, hlc]
          using hstands) hstate
      | _ => simp [candidatePhase]
  | failing _ | shuttingDown _ _ | stopped _ | failed =>
    exact absurd hs (not_serving (by rw [hst]; rfl))

variable [Runtime E]

theorem handleDisconnect_ends (hkill : KillsSucceed E) (h : s.Tight) (hw : s.worker role = some w) :
    Ends (handleDisconnect role now) s fun _ s' => Post (role ≠ .active) s s' := by
  have hpushed := h.push (.workerDisconnected role w.instanceId)
  have hw' : (s.push (.workerDisconnected role w.instanceId)).worker role = some w := by
    rw [push_worker, hw]
  refine of_eq ?_ (bind_ok (workerOr_run hw))
  cases hstate : w.state with
  | terminating _ =>
    exact ⟨(), _, rfl, hpushed, prefix_append _ _, fun _ hs => .inl ⟨hs.stage, hs.deferred⟩⟩
  | running =>
    refine (handlePhaseFailure_ends hkill hpushed hw').mono fun _ _ hpost =>
      (hpost.weaken fun hr hs => ?_).after_push
    exact hpushed.bearable hw' hr (by rw [hstate]; exact WorkerState.noConfusion) hs

end reports

/-! ## Exits -/

section exits

variable {s s' : Master E} {role : WorkerRole} {w : ManagedWorker} {sup : Supervisor}
  {c r : Instance} {now : Instant}

/-- The one exit the master cannot handle: the candidate's, while it is being activated and the
exit of the active worker has been deferred. -/
def Stranded (s : Master E) (role : WorkerRole) : Prop :=
  role = .candidate ∧ s.stage = .operational ∧ s.replacementPhase = some .activatingCandidate ∧
    s.deferredActiveExit.isSome = true

theorem takeWorker_slot (role role' : WorkerRole)
    (hw : (s.takeWorker role).worker role' = some w) : role' ≠ role ∧ s.worker role' = some w := by
  rw [takeWorker_worker] at hw
  split at hw
  · cases hw
  · exact ⟨‹_›, hw⟩

theorem Within.takeWorker (h : s.Within) : (s.takeWorker role).Within :=
  h.congr (takeWorker_supervisor s role) fun _ w hw => ⟨w, (takeWorker_slot role _ hw).2, rfl⟩

theorem Closing.takeWorker (h : s.Closing) : (s.takeWorker role).Closing :=
  ⟨h.within.takeWorker, fun role' w hw => h.killed role' w (takeWorker_slot role _ hw).2⟩

theorem ShuttingDown.takeWorker (h : s.ShuttingDown) : (s.takeWorker role).ShuttingDown :=
  ⟨(takeWorker_supervisor s role).trans h.supervisor,
    fun role' w p hw => h.asked role' w p (takeWorker_slot role _ hw).2,
    fun role' w hw => h.quelled role' w (takeWorker_slot role _ hw).2⟩

theorem Released.post {calm : Prop} {s₁ : Master E} (h : Released s s₁) (hop : s₁.Operating sup [])
    (hp : Post calm s₁ s') : Post calm s s' :=
  hp.after (by simp [h.events]) fun hs =>
    ⟨by rw [hop.stage]; rfl, h.deferred.trans hs.deferred⟩

variable {status : ExitStatus}

/-- The active worker exits while the candidate is being activated: it stays in its slot until the
candidate's fate is known. -/
theorem Tight.deferExit (h : s.Tight) (hw : s.worker role = some w)
    (hphase : s.replacementPhase = some .activatingCandidate) :
    { s with deferredActiveExit := some status }.Tight := by
  have hworker : ∀ role, { s with deferredActiveExit := some status }.worker role =
      s.worker role := fun role => by cases role <;> rfl
  by_cases hop : s.stage = .operational
  · obtain ⟨sup, h⟩ := h.operating hop
    refine tight_operating (show Operating _ sup [] from ⟨h.stage, h.supervisor, fun role =>
      ?_, fun role w hw => ?_,
      fun role w hw => ?_, fun _ => Option.some.inj (h.phase.symm.trans hphase)⟩)
    · rw [hworker, h.mirror]
    · exact h.quelled role w ((hworker role).symm.trans hw)
    · exact h.settled role w ((hworker role).symm.trans hw)
  unfold Tight at h ⊢
  cases hst : s.stage with
  | operational => exact absurd hst hop
  | failing _ =>
    rw [hst] at h
    exact h.congr rfl hworker
  | bootAdopting | bootActivating | shuttingDown _ _ =>
    rw [hst] at h
    rw [replacementPhase, h.supervisor] at hphase
    cases hphase
  | stopped _ | failed =>
    rw [hst] at h
    cases (h role).symm.trans hw

variable [Runtime E]

theorem post_lost (hkill : KillsSucceed E) (hst : s.stage ≠ .failed) (hwithin : s.Within)
    (hq : ∀ role w, s.worker role = some w → w.Quelled) :
    Ends (Prog.modify (·.takeWorker role) >>= fun _ => failMaster .crash : Method E Unit) s
      fun _ s' => Post False s s' := by
  refine (failMaster_ends hkill (by rwa [takeWorker_stage]) hwithin.takeWorker
    (fun role' w hw => hq role' w (takeWorker_slot role _ hw).2) .crash).mono fun _ s' hf => ?_
  exact .of_closing hf.stage hf.closing (takeWorker_events s role ▸ hf.events)
    fun hfalse => hfalse.elim

theorem releaseRolledBack_ends {s₀ : Master E} (h : RolledBack c s₀ s sup) :
    Ends (releaseCandidate applyEvent c.instanceId now >>= fun _ => maybeFinishRollback :
      Method E Unit) s fun _ s' => Post True s₀ s' := by
  rcases h.stage with hop | ⟨⟨phase, hst⟩, hclosing, hblamed, hl⟩
  · refine (releaseCandidate_ends hop h.candidate rfl).bind fun _ s₁ h₁ => ?_
    obtain ⟨sup₁, hop₁, hreleased⟩ := h₁
    exact (maybeFinishRollback_ends hop₁).mono fun _ s' hp =>
      (hreleased.post hop₁ hp).after h.events fun _ => ⟨by rw [hop.stage]; rfl, h.deferred⟩
  · -- the master is failing: the supervisor still forgets the candidate
    have hstep := ReplacementSupervisor.Step.candidateStopped h.candidate rfl
    have hphase : (sup.past hstep).phase = .rollingBack := phase_reactivating hl
    have hrun : releaseCandidate applyEvent c.instanceId now s = (.ok (),
        { s.takeWorker .candidate with supervisor := some (sup.past hstep) }) := by
      exact (applyReplacementEvent_step (by rw [takeWorker_supervisor, h.supervisor])
        (show sup.Step (.candidateStopped c.instanceId) [] (sup.past hstep) from hstep)).trans
          executeReplacementActions_nil
    refine of_eq ?_ (bind_ok hrun)
    refine ⟨(), _, maybeFinishRollback_idle ?_, .of_closing ⟨phase, ?_⟩ ⟨?_, ?_⟩ ?_ ?_⟩
    · rw [replacementPhase, map_some, hphase]
      decide
    · exact (takeWorker_stage s .candidate).trans hst
    · intro role w sup' hw hs
      cases hs
      obtain ⟨hne, hw⟩ := takeWorker_slot (s := s) .candidate role
        (by rw [← hw]; cases role <;> rfl)
      have hid := hclosing.within role w sup hw h.supervisor
      cases role with
      | active | retired => exact hid
      | candidate => exact absurd rfl hne
    · intro role w hw
      refine hclosing.killed role w (takeWorker_slot .candidate role ?_).2
      rw [← hw]
      cases role <;> rfl
    · exact h.events
    · exact fun _ _ => hblamed

theorem handleReportedExit_operating (hkill : KillsSucceed E) (h : s.Operating sup [])
    (hw : s.worker role = some w) (hstranded : ¬ s.Stranded role) :
    Ends (handleReportedExit role w.instanceId now) s fun _ s' =>
      Post (role ≠ .active) s s' := by
  have hview := sup.view
  have hphase := h.phase
  refine of_eq ?_ (bind_ok (get_run s))
  rw [h.stage, hphase]
  cases role with
  | active =>
    have hlost : Ends (Prog.modify (·.takeWorker .active) >>= fun _ => failMaster .crash) s
        fun _ s' => Post (WorkerRole.active ≠ .active) s s' :=
      (post_lost hkill (by rw [h.stage]; exact Stage.noConfusion) h.within h.quelled).mono
        fun _ _ hp => hp.mono fun hne => hne rfl
    generalize sup.phase = p at hview
    cases hview <;> exact hlost
  | candidate =>
    obtain ⟨c, hc, hid⟩ := h.candidate_of hw
    rw [← hid]
    have hroll : sup.phase = .activatingCandidate ∨ s.deferredActiveExit = none → Ends (do
          beginRollback applyEvent .crash now
          releaseCandidate applyEvent c.instanceId now
          maybeFinishRollback : Method E Unit) s fun _ s' =>
            Post (WorkerRole.candidate ≠ .active) s s' := by
      intro hcase
      have hdef : s.deferredActiveExit = none := by
        rcases hcase with hactivating | hdef
        · cases hd : s.deferredActiveExit with
          | none => rfl
          | some _ =>
            exact absurd ⟨rfl, h.stage, hphase.trans (by rw [hactivating]), by rw [hd]; rfl⟩
              hstranded
        · exact hdef
      refine (beginRollback_ends hkill h hc).bind fun _ s₁ h₁ => ?_
      rcases h₁ with ⟨hd, -⟩ | ⟨-, sup₁, h₁⟩
      · rw [hdef] at hd
        cases hd
      · exact (releaseRolledBack_ends h₁).mono fun _ _ hp => hp.mono fun _ => trivial
    have hnot : sup.phase ≠ .activatingCandidate → s.deferredActiveExit = none := h.not_deferred
    generalize sup.phase = p at hview hphase hroll hnot
    cases hview with
    | adopting _ _ | quiescing _ _ => exact hroll (.inr (hnot (by decide)))
    | activating _ _ => exact hroll (.inl rfl)
    | stoppingCandidate hc' hl =>
      cases hc.symm.trans hc'
      refine (releaseCandidate_ends h hc hl).bind fun _ s₁ h₁ => ?_
      obtain ⟨sup₁, hop, hreleased⟩ := h₁
      exact (maybeFinishRollback_ends hop).mono fun _ _ hp =>
        hreleased.post hop (hp.mono fun _ => trivial)
    | running hnone _ _ | reactivating hnone _ _ => cases hnone.symm.trans hc
    | draining hr _ | stoppingRetired hr _ =>
      cases (sup.wellFormed.candidate_none hr).symm.trans hc
  | retired =>
    obtain ⟨r, hr, hid⟩ := h.retired_of hw
    rw [← hid]
    generalize sup.phase = p at hview
    cases hview with
    | draining _ _ =>
      refine (failRetired_ends hkill h hr .crash 1).bind fun _ s₁ h₁ => ?_
      obtain ⟨sup₁, h₁⟩ := h₁
      exact (releaseFailed_ends h₁ rfl 1).mono fun _ _ hp =>
        (hp.mono fun _ => trivial).after (prefix_refl _) fun hs => ⟨hs.stage, hs.deferred⟩
    | stoppingRetired hr' hl =>
      cases hr.symm.trans hr'
      refine (releaseRetired_ends h hr hl).bind fun _ s₁ h₁ => ?_
      obtain ⟨sup₁, hop, hreleased⟩ := h₁
      refine of_eq ?_ (bind_ok (get_run s₁))
      split
      · exact (completeFailedRetired_ends hop ‹_›).mono fun _ _ hp =>
          hreleased.post hop (hp.mono fun _ => trivial)
      · exact (completeReplacement_ends hop).mono fun _ _ hp =>
          hreleased.post hop (hp.mono fun _ => trivial)
    | running _ hnone _ | reactivating _ hnone _ => cases hnone.symm.trans hr
    | adopting hc _ | quiescing hc _ | activating hc _ | stoppingCandidate hc _ =>
      cases (sup.wellFormed.retired_none hc).symm.trans hr

theorem handleReportedExit_ends (hkill : KillsSucceed E) (h : s.Tight) (hw : s.worker role = some w)
    (hstranded : ¬ s.Stranded role) : Ends (handleReportedExit role w.instanceId now) s fun _ s' =>
      Post (role ≠ .active) s s' := by
  by_cases hst : s.stage = .operational
  · obtain ⟨sup, hop⟩ := h.operating hst
    exact handleReportedExit_operating hkill hop hw hstranded
  have hboot : ∀ {phase}, s.Booting phase → s.stage ≠ .failed →
      Ends (Prog.modify (·.takeWorker role) >>= fun _ => failMaster .crash) s
        fun _ s' => Post (role ≠ .active) s s' := fun hb hst =>
    (post_lost hkill hst hb.within (fun _ _ hw => (hb.worker hw).2.1.quelled)).mono
      fun _ _ hp => hp.mono fun hne => hne (hb.worker hw).1
  have htaken : (s.takeWorker role).Tight → s.stage.serves = false →
      Post (role ≠ .active) s (s.takeWorker role) := fun ht hserves =>
    ⟨ht, by simp, fun _ hs => absurd hs (not_serving hserves)⟩
  refine of_eq ?_ (bind_ok (get_run s))
  unfold Tight at h
  cases hstage : s.stage with
  | operational => exact absurd hstage hst
  | bootAdopting | bootActivating =>
    rw [hstage] at h
    exact hboot h (by rw [hstage]; exact Stage.noConfusion)
  | failing _ =>
    rw [hstage] at h
    exact ⟨(), _, rfl, htaken (tight_closing ⟨_, (takeWorker_stage s role).trans hstage⟩
      h.takeWorker) (by rw [hstage]; rfl)⟩
  | shuttingDown _ _ =>
    rw [hstage] at h
    refine ⟨(), _, rfl, htaken ?_ (by rw [hstage]; rfl)⟩
    unfold Tight
    rw [takeWorker_stage, hstage]
    exact h.takeWorker
  | stopped _ | failed =>
    rw [hstage] at h
    cases (h role).symm.trans hw

/-- **An exit** is handled, outside `Stranded`. -/
theorem handleExit_ends (hkill : KillsSucceed E) (h : s.Tight) (hw : s.worker role = some w)
    (hstranded : ¬ s.Stranded role) :
    Ends (handleExit role status now) s fun _ s' => Post (role ≠ .active) s s' := by
  refine of_eq ?_ (bind_ok (workerOr_run hw))
  refine of_eq ?_ (bind_ok (get_run s))
  by_cases hdefer : s.replacementPhase = some .activatingCandidate ∧ role = .active
  · simp only [if_pos hdefer]
    exact ⟨(), _, rfl, (h.deferExit hw hdefer.1).push _, prefix_append _ _,
      fun hne => absurd hdefer.2 hne⟩
  · simp only [if_neg hdefer]
    exact (handleReportedExit_ends hkill (h.push _) (by rw [push_worker, hw]) hstranded).mono
      fun _ _ hp => hp.after_push

end exits

end Oxiroute.Master
