import Oxiroute.Master.Compensation

/-!
# Replacement events end well

The events `master.rs` applies to its supervisor, one lemma each: from a state that satisfies the
invariant, on a system that carries out kills, the event is accepted, its actions are carried out or
compensated, and the state satisfies the invariant again.

* `post_orCompensate`: a request goes out, or its failure is handled.
* `releaseRetired_ends`, `releaseCandidate_ends`: a worker that has exited gives up slot and role.
* `candidateActivated_ends`: the commit, also past an exit that was deferred.
-/

namespace Oxiroute.Master

open Lib Lib.Prog List Supervision Supervisor ReplacementSupervisor.Step

variable {E : Type}

/-! ## Requests -/

section requests

variable {s s' : Master E} {role : WorkerRole} {w : ManagedWorker} {sup : Supervisor}
  {c r : Instance} {now : Instant}

theorem Post.after_supervisor {calm : Prop} {sup' : Supervisor}
    (h : Post calm { s with supervisor := some sup' } s') : Post calm s s' :=
  ⟨h.tight, h.events, fun hc hs => h.serving hc ⟨hs.stage, hs.deferred⟩⟩

theorem Operating.no_retired (h : s.Operating sup []) (hc : sup.candidate = some c) :
    s.worker .retired = none :=
  h.worker_none (by simp [ids, sup.wellFormed.retired_none hc])

theorem Operating.idle_beside (h : s.Operating sup []) (hc : sup.candidate = some c)
    (hactive : ∀ w, s.worker .active = some w → w.pending = none)
    (hcandidate : ∀ w, s.worker .candidate = some w → w.pending = none) :
    ∀ role w, s.worker role = some w → w.pending = none := by
  intro role w hw
  cases role with
  | active => exact hactive w hw
  | candidate => exact hcandidate w hw
  | retired => cases (h.no_retired hc).symm.trans hw

theorem Operating.candidate_sound (h : s.Operating sup []) (hd : sup.dropsCandidate = false)
    (hw : s.worker .candidate = some w) : w.Sound := by
  simpa [Supervisor.Stands, hd] using (h.settled .candidate w hw not_mem_nil).stands

theorem ManagedWorker.Sound.not_killed (h : w.Sound) : w.state ≠ .terminating true := by
  rw [h.running]
  exact WorkerState.noConfusion

variable [Runtime E]

/-- A request that the phase allows goes out, or its failure is handled. -/
theorem post_orCompensate (hkill : KillsSucceed E) {α : Type} {request : Method E α}
    {phase : ControlPhase} (h : s.Operating sup []) (hx : Issues request role phase)
    (hw : s.worker role = some w) (hstate : w.state ≠ .terminating true)
    (hawaits : sup.awaits role phase = true) (hbear : role = .active ∨ s.Bearable role)
    {failure : FailurePhase} (depth : ℕ) :
    Ends (orCompensate (applyReplacementEvent (depth + 1)) request role phase failure now) s
      fun _ s' => Post True s s' := by
  obtain ⟨executor, n, ⟨p, hr, hp⟩ | ⟨event, hissue, hr⟩⟩ := orCompensate_cases hx hw _ failure now
  · have hissued : ((s.touch executor n).setWorker role (some (w.awaiting p))).Operating sup [] :=
      h.issued hw (h.settled role w hw not_mem_nil).stands hstate executor n
        (by rw [hp]; exact hawaits) (by simp)
    refine ⟨(), _, hr, .of_operating hissued (fun hd => ?_) ?_⟩
    · simpa [touch] using hd
    · simp [touch]
  · have hpushed := (h.touch executor n).push event
    refine Ends.of_eq ?_ hr
    refine (handlePhaseFailure_operating hkill hpushed (by rw [push_worker, touch_worker,
      hw])).mono fun _ s' hpost => ⟨hpost.tight, ?_, fun _ hs => ?_⟩
    · exact (prefix_append _ _).trans hpost.events
    · rcases hbear with rfl | hbear
      · exact .inr (Blamed.mono ⟨event, mem_append_right _ mem_cons_self, hissue⟩ hpost.events)
      · refine hpost.serving ?_ ⟨hs.stage, hs.deferred⟩
        cases role <;> exact hbear

variable {depth : ℕ}

theorem ends_action {event : ReplacementEvent} {action : ReplacementAction}
    {next : ReplacementSupervisor} {Q : Unit → Master E → Prop} {x : Method E Unit}
    (hs : s.supervisor = some sup)
    (hstep : ReplacementSupervisor.Step sup.toReplacementSupervisor event [action] next)
    (hx : executeAction (applyReplacementEvent depth) now none action = x >>= fun _ => pure [])
    (h : Ends x { s with supervisor := some (sup.past hstep) } Q) :
    Ends (applyReplacementEvent (depth + 1) event now) s Q :=
  (h.of_eq (executeReplacementActions_singleton hx)).of_eq (applyReplacementEvent_step hs
    (show sup.Step _ _ (sup.past hstep) from hstep))

theorem candidatePrepared_ends (hkill : KillsSucceed E) (h : s.Operating sup [])
    (hc : sup.candidate = some c) (hl : c.lifecycle = .preparing)
    (hidle : ∀ w, s.worker .candidate = some w → w.pending = none) :
    Ends (applyReplacementEvent (depth + 2) (.candidatePrepared c.instanceId) now) s
      fun _ s' => Post True s s' := by
  have ha : sup.active.lifecycle = .active := by
    have := sup.wellFormed.beside c hc
    rwa [hl] at this
  have hstep := ReplacementSupervisor.Step.candidatePrepared hc hl ha
  have ht : { s with supervisor := some (sup.past hstep) }.Operating (sup.past hstep) [] := by
    refine h.advance_idle ?_ (h.idle_beside hc (fun w hw => ?_) hidle) ?_ (h.not_deferred ?_)
    · funext role
      cases role <;> simp [ids, past, hc]
    · refine h.pending_none hw not_mem_nil fun phase => ?_
      cases phase <;> simp [awaits, hc, hl, ha]
    · simp [dropsCandidate, past, hc, hl]
    · rw [phase_candidate hc, hl]
      decide
  have hids : (sup.past hstep).ids .active = some sup.active.instanceId := rfl
  obtain ⟨wa, hwa, -⟩ := ht.worker_of_id hids
  have hrun : quiesceInstance (applyReplacementEvent (depth + 1)) now sup.active.instanceId
      { s with supervisor := some (sup.past hstep) } =
      issueOrCompensate (applyReplacementEvent (depth + 1)) .active .quiesce now s.config.quiesce
        .quiesce { s with supervisor := some (sup.past hstep) } := by
    unfold quiesceInstance
    rw [bind_run, get_run]
    simp [ht.roleFor hids]
  refine ends_action h.supervisor hstep rfl (Ends.of_eq ?_ hrun)
  refine (post_orCompensate hkill ht (issues_issue _ _ _ _) hwa ?_ ?_ (.inl rfl) depth).mono
    fun _ _ hp => hp.after_supervisor
  · exact (ht.settled .active wa hwa not_mem_nil).stands.not_killed
  · simp [awaits, past]

theorem activeQuiesced_ends (hkill : KillsSucceed E) (h : s.Operating sup [])
    (hc : sup.candidate = some c) (hl : c.lifecycle = .ready)
    (hidle : ∀ w, s.worker .active = some w → w.pending = none) :
    Ends (applyReplacementEvent (depth + 2) (.activeQuiesced sup.active.instanceId) now) s
      fun _ s' => Post True s s' := by
  have ha : sup.active.lifecycle = .quiescing := by
    have := sup.wellFormed.beside c hc
    rwa [hl] at this
  have hstep := ReplacementSupervisor.Step.activeQuiesced hc hl ha
  have ht : { s with supervisor := some (sup.past hstep) }.Operating (sup.past hstep) [] := by
    refine h.advance_idle ?_ (h.idle_beside hc hidle fun w hw => ?_) ?_ (h.not_deferred ?_)
    · funext role
      cases role <;> simp [ids, past, hc]
    · refine h.pending_none hw not_mem_nil fun phase => ?_
      cases phase <;> simp [awaits, hc, hl]
    · simp [dropsCandidate, past, hc, hl]
    · rw [phase_candidate hc, hl]
      decide
  have hids : (sup.past hstep).ids .candidate = some c.instanceId := rfl
  obtain ⟨wc, hwc, -⟩ := ht.worker_of_id hids
  have hrun : activateInstance (applyReplacementEvent (depth + 1)) now c.instanceId
      { s with supervisor := some (sup.past hstep) } =
      issueOrCompensate (applyReplacementEvent (depth + 1)) .candidate .activate now
        s.config.activation .activation { s with supervisor := some (sup.past hstep) } := by
    unfold activateInstance
    rw [bind_run, get_run]
    simp only [bind_ok (actionRole_run (ht.roleFor hids))]
  refine ends_action h.supervisor hstep rfl (Ends.of_eq ?_ hrun)
  refine (post_orCompensate hkill ht (issues_issue _ _ _ _) hwc ?_ ?_ (.inr ?_) depth).mono
    fun _ _ hp => hp.after_supervisor
  · exact (ht.candidate_sound (by simp [dropsCandidate, past]) hwc).not_killed
  · simp [awaits, past]
  · rw [Bearable, ht.phase, phase_candidate (show (sup.past hstep).candidate = some
      (c.at .activating) from rfl)]
    simp [candidatePhase]

theorem candidateHandshakeComplete_ends (hkill : KillsSucceed E) (h : s.Operating sup [])
    (hc : sup.candidate = some c) (hl : c.lifecycle = .handshaking) :
    Ends (applyReplacementEvent (depth + 2) (.candidateHandshakeComplete c.instanceId) now) s
      fun _ s' => Post True s s' := by
  have ha : sup.active.lifecycle = .active := by
    have := sup.wellFormed.beside c hc
    rwa [hl] at this
  have hstep := ReplacementSupervisor.Step.candidateHandshakeComplete hc hl
  have ht : { s with supervisor := some (sup.past hstep) }.Operating (sup.past hstep) [] := by
    refine h.advance_idle ?_ (h.idle_beside hc (fun w hw => ?_) fun w hw => ?_) ?_
      (h.not_deferred ?_)
    · funext role
      cases role <;> simp [ids, past, hc]
    · refine h.pending_none hw not_mem_nil fun phase => ?_
      cases phase <;> simp [awaits, hc, hl, ha]
    · refine h.pending_none hw not_mem_nil fun phase => ?_
      cases phase <;> simp [awaits, hc, hl]
    · simp [dropsCandidate, past, hc, hl]
    · rw [phase_candidate hc, hl]
      decide
  have hids : (sup.past hstep).ids .candidate = some c.instanceId := rfl
  obtain ⟨wc, hwc, -⟩ := ht.worker_of_id hids
  have hrun : prepareInstance (applyReplacementEvent (depth + 1)) now c.instanceId
      { s with supervisor := some (sup.past hstep) } =
      orCompensate (applyReplacementEvent (depth + 1)) (issueAdoption .candidate now) .candidate
        .adoptListeners .listenerAdoption now { s with supervisor := some (sup.past hstep) } := by
    unfold prepareInstance
    rw [bind_run, get_run]
    simp only [ht.roleFor hids]
  refine ends_action h.supervisor hstep rfl (Ends.of_eq ?_ hrun)
  refine (post_orCompensate hkill ht issues_issueAdoption hwc ?_ ?_ (.inr ?_) depth).mono
    fun _ _ hp => hp.after_supervisor
  · exact (ht.candidate_sound (by simp [dropsCandidate, past]) hwc).not_killed
  · simp [awaits, past]
  · rw [Bearable, ht.phase, phase_candidate (show (sup.past hstep).candidate = some
      (c.at .preparing) from rfl)]
    simp [candidatePhase]

end requests

/-! ## Releases -/

section releases

variable {s s' : Master E} {w : ManagedWorker} {sup sup' : Supervisor} {c r : Instance}
  {now : Instant}

/-- What the release of a worker changes. -/
structure Released (s s' : Master E) : Prop where
  events : s'.events = s.events
  failure : s'.replacementFailure = s.replacementFailure
  deferred : s'.deferredActiveExit = s.deferredActiveExit

variable (h : s.Operating sup [])
include h

theorem Operating.release {role : WorkerRole} (hids : sup'.ids = Function.update sup.ids role none)
    (hsettled : ∀ role' w, role' ≠ role → s.worker role' = some w → sup.Settled role' w →
      sup'.Settled role' w) (hd : s.deferredActiveExit = none) :
    { s.takeWorker role with supervisor := some sup' }.Operating sup' [] := by
  have hworker : ∀ role', { s.takeWorker role with supervisor := some sup' }.worker role' =
      if role' = role then none else s.worker role' := by
    intro role'
    rw [← takeWorker_worker]
    cases role' <;> rfl
  have hslot : ∀ role' w, { s.takeWorker role with supervisor := some sup' }.worker role' = some w →
      role' ≠ role ∧ s.worker role' = some w := by
    intro role' w hw
    rw [hworker] at hw
    split at hw
    · cases hw
    · exact ⟨‹_›, hw⟩
  refine ⟨?_, rfl, fun role' => ?_, fun role' w hw => ?_, fun role' w hw hfree => ?_, ?_⟩
  · rw [← h.stage]
    exact takeWorker_stage s role
  · rw [hworker, hids]
    by_cases hr : role' = role
    · subst hr
      simp
    · rw [if_neg hr, Function.update_of_ne hr, h.mirror]
  · exact h.quelled role' w (hslot role' w hw).2
  · obtain ⟨hne, hw⟩ := hslot role' w hw
    exact hsettled role' w hne hw (h.settled role' w hw hfree)
  · intro hd'
    have : s.deferredActiveExit.isSome = true := by simpa using hd'
    rw [hd] at this
    cases this

theorem Operating.active_worker : ∃ w, s.worker .active = some w := by
  obtain ⟨w, hw, -⟩ := h.worker_of_id ids_active
  exact ⟨w, hw⟩

theorem completeReplacement_ends : Ends completeReplacement s fun _ s' => Post True s s' := by
  obtain ⟨w, hw⟩ := h.active_worker
  refine ⟨(), _, bind_ok (workerId_run hw), .of_operating (h.push _) id ?_⟩
  exact prefix_append _ _

theorem completeFailedRetired_ends (hf : s.replacementFailure.isSome = true) :
    Ends completeFailedRetired s fun _ s' => Post True s s' := by
  obtain ⟨phase, hf⟩ := Option.isSome_iff_exists.mp hf
  have hrun : completeFailedRetired s = completeReplacement
      ({ s with replacementFailure := none }.push (.retiredFailed phase)) := by
    unfold completeFailedRetired
    simp [bind_run, hf, pushEvent_run]
  refine ((completeReplacement_ends ((h.failure none).push _)).mono fun _ s' hp => ?_).of_eq hrun
  exact ⟨hp.tight, (prefix_append _ _).trans hp.events,
    fun _ hs => hp.serving trivial ⟨hs.stage, hs.deferred⟩⟩

theorem maybeFinishRollback_ends : Ends maybeFinishRollback s fun _ s' => Post True s s' := by
  by_cases hfinish : s.replacementPhase = some .running ∧ s.replacementFailure.isSome
  · obtain ⟨w, hw⟩ := h.active_worker
    have hw' : { s with replacementFailure := none }.worker .active = some w := hw
    refine ⟨(), _, ?_, .of_operating ((h.failure none).push (.rollbackCompleted w.instanceId)) id
      (prefix_append _ _)⟩
    unfold maybeFinishRollback
    simp [bind_run, if_pos hfinish, workerId_run hw', pushEvent_run]
  · refine ⟨(), s, ?_, .of_operating h id (prefix_refl _)⟩
    unfold maybeFinishRollback
    simp [bind_run, if_neg hfinish]

omit h

variable [Runtime E]

theorem releaseRetired_ends (h : s.Operating sup []) (hr : sup.retired = some r)
    (hl : r.lifecycle = .stopping) {depth : ℕ} :
    Ends (releaseRetired (applyReplacementEvent (depth + 1)) r.instanceId now) s fun _ s' =>
      ∃ sup', s'.Operating sup' [] ∧ Released s s' := by
  have hstep := retiredStopped hr hl
  refine ⟨(), _, (applyReplacementEvent_step (by rw [takeWorker_supervisor, h.supervisor])
    (show sup.Step (.retiredStopped r.instanceId) [] (sup.past hstep) from hstep)).trans
      executeReplacementActions_nil, sup.past hstep, ?_, rfl, rfl, rfl⟩
  refine h.release ?_ (fun role' w hne hw hsettled => ?_) (h.deferred_none hr)
  · funext role
    cases role <;> rfl
  · cases role' with
    | active | candidate => exact hsettled.congr (fun phase => by cases phase <;> exact id) id
    | retired => exact absurd rfl hne

theorem releaseCandidate_ends (h : s.Operating sup []) (hc : sup.candidate = some c)
    (hl : c.lifecycle = .stopping) {depth : ℕ} :
    Ends (releaseCandidate (applyReplacementEvent (depth + 1)) c.instanceId now) s fun _ s' =>
      ∃ sup', s'.Operating sup' [] ∧ Released s s' := by
  have hstep := candidateStopped hc hl
  refine ⟨(), _, (applyReplacementEvent_step (by rw [takeWorker_supervisor, h.supervisor])
    (show sup.Step (.candidateStopped c.instanceId) [] (sup.past hstep) from hstep)).trans
      executeReplacementActions_nil, sup.past hstep, ?_, rfl, rfl, rfl⟩
  refine h.release ?_ (fun role' w hne hw hsettled => ?_) (h.not_deferred ?_)
  · funext role
    cases role <;> rfl
  · cases role' with
    | active =>
      refine hsettled.congr (fun phase => ?_) id
      cases phase with
      | quiesce => exact fun hw => absurd hw (by simp [awaits, hc, hl])
      | _ => exact id
    | candidate => exact absurd rfl hne
    | retired => cases (h.no_retired hc).symm.trans hw
  · rw [phase_candidate hc, hl]
    decide

/-- A retired worker that has been failed and is known to have exited. -/
theorem releaseFailed_ends {s₀ : Master E} (h : RetiredFailed r s₀ s sup)
    (hf : s₀.replacementFailure.isSome = true) (depth : ℕ) :
    Ends (releaseRetired (applyReplacementEvent (depth + 1)) r.instanceId now >>= fun _ =>
      completeFailedRetired : Method E Unit) s fun _ s' => Post True s₀ s' := by
  refine (releaseRetired_ends h.operating h.retired rfl).bind fun _ s₁ h₁ => ?_
  obtain ⟨sup₁, hop, hreleased⟩ := h₁
  have hfailure : s₁.replacementFailure.isSome = true := by
    rw [hreleased.failure, h.failure, hf]
  refine (completeFailedRetired_ends hop hfailure).mono fun _ s' hp =>
    ⟨hp.tight, ?_, fun _ hs => ?_⟩
  · exact (h.events.trans (hreleased.events ▸ prefix_refl _)).trans hp.events
  · refine hp.serving trivial ⟨by rw [hop.stage]; rfl, ?_⟩
    rw [hreleased.deferred, h.operating.deferred_none h.retired]

end releases

/-! ## Events that end a phase -/

section events

variable {s s' : Master E} {w : ManagedWorker} {sup : Supervisor} {c r : Instance} {now : Instant}

theorem Operating.commit (h : s.Operating sup []) (hc : sup.candidate = some c)
    (hl : c.lifecycle = .activating) {old promoted : ManagedWorker} (ha : s.active = some old)
    (hp : s.candidate = some promoted) (hidle : promoted.pending = none) {sup' : Supervisor}
    (hsup : sup'.toReplacementSupervisor = ⟨c.at .active, none, some (sup.active.at .draining)⟩)
    (event : MasterEvent) (deferred : Option ExitStatus) (hdef : deferred = none) : ({ s with
      supervisor := some sup'
      active := some promoted
      candidate := none
      retired := some old
      deferredActiveExit := deferred }.push event).Operating sup' [] := by
  have hactive : s.worker .active = some old := ha
  have hcandidate : s.worker .candidate = some promoted := hp
  have hlifecycle : sup.active.lifecycle = .quiescing := by
    have := sup.wellFormed.beside c hc
    rwa [hl] at this
  have holdidle : old.pending = none := by
    refine h.pending_none hactive not_mem_nil fun phase => ?_
    cases phase <;> simp [awaits, hc, hl, hlifecycle]
  have hsound : promoted.Sound :=
    h.candidate_sound (by simp [dropsCandidate, hc, hl]) hcandidate
  suffices hop : { s with
      supervisor := some sup'
      active := some promoted
      candidate := none
      retired := some old
      deferredActiveExit := deferred }.Operating sup' [] from hop.push event
  refine ⟨h.stage, rfl, fun role => ?_, fun role w hw => ?_, fun role w hw _ => ?_, by simp [hdef]⟩
  · cases role with
    | active =>
      have := h.mirror .candidate
      rw [hcandidate, ids, hc] at this
      simpa [worker, ids, hsup] using this
    | candidate => simp [worker, ids, hsup]
    | retired =>
      have := h.mirror .active
      rw [hactive] at this
      simpa [worker, ids, hsup] using this
  · cases role with
    | active => exact Option.some.inj hw ▸ fun _ => hidle
    | candidate => exact absurd hw (by simp [worker])
    | retired => exact Option.some.inj hw ▸ fun _ => holdidle
  · cases role with
    | active => exact Option.some.inj hw ▸ .idle hidle hsound
    | candidate => exact absurd hw (by simp [worker])
    | retired => exact Option.some.inj hw ▸ .idle holdidle trivial

theorem markTerminating_run {role : WorkerRole} (hw : s.worker role = some w) {forced : Bool} :
    markTerminating role forced s = (.ok (),
      (s.setWorker role (some { w with state := .terminating forced })).push
        (.terminationRequested role forced)) := by
  unfold markTerminating
  rw [bind_ok (updateWorker_run hw)]
  rfl

variable [Runtime E] {depth : ℕ}

/-- The candidate is active: the roles move, and the old worker is asked to drain. -/
theorem candidateActivated_ends (hkill : KillsSucceed E) (h : s.Operating sup [])
    (hc : sup.candidate = some c) (hl : c.lifecycle = .activating)
    (hidle : ∀ w, s.worker .candidate = some w → w.pending = none) :
    Ends (applyReplacementEvent (depth + 2) (.candidateActivated c.instanceId) now) s
      fun _ s' => Post True s s' := by
  have ha : sup.active.lifecycle = .quiescing := by
    have := sup.wellFormed.beside c hc
    rwa [hl] at this
  have hstep := candidateActivated hc hl ha
  obtain ⟨old, hold, holdid⟩ := h.worker_of_id ids_active
  obtain ⟨promoted, hpromoted, hpromotedid⟩ := h.worker_of_id (Supervisor.ids_candidate hc)
  have hrun := commitCandidate_run (s := { s with supervisor := some (sup.past hstep) }) rfl hold
    hpromoted (by rw [hpromotedid]; rfl)
  rw [holdid] at hrun
  have hcommit := h.commit hc hl hold hpromoted (hidle promoted hpromoted)
    (show (sup.past hstep).toReplacementSupervisor = _ from rfl)
    (.replacementCommitted (sup.past hstep).active.instanceId sup.active.instanceId)
  refine ends_action h.supervisor hstep rfl ?_
  refine Ends.of_eq ?_ (bind_ok hrun)
  refine Ends.of_eq ?_ (bind_ok (get_run _))
  by_cases hdef : s.deferredActiveExit.isSome = true
  · -- the old worker has exited: it is failed and released at once
    simp only [push, hdef, if_true]
    have hop := hcommit none rfl
    have hretired : (sup.past hstep).retired = some (sup.active.at .draining) := rfl
    refine (failRetired_ends hkill hop hretired .crash depth).bind fun _ s₁ h₁ => ?_
    obtain ⟨sup₁, h₁⟩ := h₁
    obtain ⟨w₁, hw₁, hid₁⟩ := h₁.operating.worker_of_id
      (show sup₁.ids .retired = some sup.active.instanceId by simp [ids, h₁.retired])
    refine Ends.of_eq ?_ (bind_ok (workerId_run hw₁))
    rw [hid₁]
    refine (releaseFailed_ends h₁ rfl depth).mono fun _ s' hp => ⟨hp.tight, ?_, fun _ hs => ?_⟩
    · exact (prefix_append _ _).trans hp.events
    · rw [hs.deferred] at hdef
      cases hdef
  · simp only [push, hdef]
    have hop := hcommit _ (by simpa using hdef)
    refine (post_orCompensate hkill hop (issues_issue .retired .drain _ _) rfl ?_ ?_ (.inr trivial)
      depth).mono fun _ _ hp => ?_
    · exact (h.settled .active old hold not_mem_nil).stands.not_killed
    · simp [awaits, past]
    · exact ⟨hp.tight, (prefix_append _ _).trans hp.events,
        fun _ hs => hp.serving trivial ⟨hs.stage, hs.deferred⟩⟩

/-- The active worker has taken over again: the rollback is finished if the candidate is gone. -/
theorem activeReactivated_ends (h : s.Operating sup []) (hl : sup.active.lifecycle = .reactivating)
    (hidle : ∀ w, s.worker .active = some w → w.pending = none) :
    Ends (applyReplacementEvent (depth + 1) (.activeReactivated sup.active.instanceId) now >>=
      fun _ => maybeFinishRollback : Method E Unit) s fun _ s' => Post True s s' := by
  have hstep := activeReactivated (by rw [hl]; rfl)
  have hretired : sup.retired = none := by
    cases hr : sup.retired with
    | none => rfl
    | some r => cases hl.symm.trans (sup.wellFormed.retired_beside r hr)
  have ht : { s with supervisor := some (sup.past hstep) }.Operating (sup.past hstep) [] := by
    refine h.advance_idle rfl (fun role w hw => ?_) rfl (h.not_deferred ?_)
    · cases role with
      | active => exact hidle w hw
      | candidate =>
        obtain ⟨c, hc, -⟩ := h.candidate_of hw
        have hstopping : c.lifecycle = .stopping := by
          have hbeside := sup.wellFormed.beside c hc
          rw [hl] at hbeside
          cases hlc : c.lifecycle <;> rw [hlc] at hbeside <;>
            first | rfl | exact absurd hbeside (by simp [ReplacementSupervisor.Beside])
        have hstands := (h.settled .candidate w hw not_mem_nil).stands
        simp only [Supervisor.Stands, dropsCandidate, hc, Option.any_some, hstopping,
          decide_true, if_true] at hstands
        exact h.quelled .candidate w hw hstands
      | retired =>
        cases (h.worker_none (by simp [ids, hretired])).symm.trans hw
    · intro hphase
      have hview := sup.view
      rw [hphase] at hview
      cases hview with
      | activating hc hlc =>
        have := sup.wellFormed.beside _ hc
        rw [hlc, hl] at this
        exact Lifecycle.noConfusion this
  refine Ends.bind ⟨(), _, (applyReplacementEvent_step h.supervisor
    (show sup.Step _ [] (sup.past hstep) from hstep)).trans
      executeReplacementActions_nil, rfl⟩ fun _ t (hr : t = _) => ?_
  subst hr
  exact (maybeFinishRollback_ends ht).mono fun _ _ hp => hp.after_supervisor

/-- The retired worker has drained: it is asked to stop, or killed if it cannot be asked. -/
theorem terminateRetired_ends (hkill : KillsSucceed E) (h : s.Operating sup [])
    (hr : sup.retired = some r) (hl : r.lifecycle = .stopping) {timeout : Duration} :
    Ends (terminateRetired (applyReplacementEvent (depth + 1)) now timeout) s fun _ s' =>
      Post True s s' := by
  obtain ⟨w, hw, -⟩ := h.worker_of_id (Supervisor.ids_retired hr)
  obtain ⟨executor, n, ⟨deadline, p, hrun, hp⟩ | ⟨error, hrun, hissue⟩⟩ :=
    issues_issue .retired .shutdown now timeout s w hw
  · -- the request is on its way; its deadline is kept with the worker
    have hrun' : terminateRetired (applyReplacementEvent (depth + 1)) now timeout s = (.ok (),
        ((s.touch executor n).push (.terminationRequested .retired false)).setWorker .retired
          (some { w.awaiting p with
            state := .terminating false
            terminationDeadline := some deadline })) := by
      unfold terminateRetired Prog.attempt
      simp only [bind_run, hrun]
      rfl
    have hw' : ((s.touch executor n).push (.terminationRequested .retired false)).worker .retired =
        some w := by rw [push_worker, touch_worker, hw]
    have hop : (((s.touch executor n).push (.terminationRequested .retired false)).setWorker
        .retired (some { w.awaiting p with
          state := .terminating false
          terminationDeadline := some deadline })).Operating sup [] := by
      refine ((h.touch executor n).push _).setWorker hw' rfl (fun hs => by simp at hs)
        (fun _ => ⟨fun p' hp' => ?_, trivial⟩) (by simp)
      cases hp'
      simp [awaits, hp, hr, hl]
    exact ⟨(), _, hrun', .of_operating hop id (prefix_append _ _)⟩
  · obtain ⟨event, -, hrecord⟩ := recordIssueFailure_run (E := E) hissue .retired .shutdown
    have hpushed := (h.touch executor n).push event
    have hrun' : terminateRetired (applyReplacementEvent (depth + 1)) now timeout s =
        failRetired (applyReplacementEvent (depth + 1)) .shutdown now
          ((s.touch executor n).push event) := by
      unfold terminateRetired Prog.attempt
      simp [bind_run, hrun, hissue, hrecord]
    refine Ends.of_eq ?_ hrun'
    refine (failRetired_ends hkill hpushed hr .shutdown depth).mono fun _ s' hf => ?_
    obtain ⟨sup', hf⟩ := hf
    exact .of_operating hf.operating (fun _ => hf.operating.deferred_none hf.retired)
      ((prefix_append _ _).trans hf.events)

/-- The retired worker has drained: its snapshot is taken and it is asked to stop. -/
theorem retiredDrained_ends (hkill : KillsSucceed E) (h : s.Operating sup [])
    (hr : sup.retired = some r) (hl : r.lifecycle = .draining)
    (hidle : ∀ w, s.worker .retired = some w → w.pending = none) :
    Ends (applyReplacementEvent (depth + 2) (.retiredDrained r.instanceId) now) s
      fun _ s' => Post True s s' := by
  have hstep := retiredDrained hr hl
  have hcaptured := retiredSnapshotCaptured
    (s := (sup.past hstep).toReplacementSupervisor) rfl rfl
  have hcandidate := sup.wellFormed.candidate_none hr
  have ha := sup.wellFormed.retired_beside r hr
  have ht : { s with supervisor := some ((sup.past hstep).past hcaptured) }.Operating
      ((sup.past hstep).past hcaptured) [] := by
    refine h.advance_idle ?_ (fun role w hw => ?_) ?_ (h.deferred_none hr)
    · funext role
      cases role <;> simp [ids, past, hr]
    · cases role with
      | active =>
        refine h.pending_none hw not_mem_nil fun phase => ?_
        cases phase <;> simp [awaits, hcandidate, ha]
      | candidate =>
        exact absurd ((h.worker_none (by simp [ids, hcandidate])).symm.trans hw) (by simp)
      | retired => exact hidle w hw
    · simp [dropsCandidate, past, hcandidate]
  have hids : ((sup.past hstep).past hcaptured).ids .retired = some r.instanceId := rfl
  have hrun : applyReplacementEvent (depth + 2) (.retiredDrained r.instanceId) now s =
      terminateRetired (applyReplacementEvent (depth + 1)) now s.config.shutdown
        { s with supervisor := some ((sup.past hstep).past hcaptured) } := by
    rw [applyReplacementEvent_step h.supervisor (show sup.Step _ _ (sup.past hstep) from hstep)]
    -- the snapshot puts the termination on the queue
    change (applySupervisor (.retiredSnapshotCaptured r.instanceId) >>= fun more =>
      executeReplacementActions (applyReplacementEvent (depth + 1)) now none 2 ([] ++ more)) _ = _
    have hsnapshot : applySupervisor (.retiredSnapshotCaptured r.instanceId)
        { s with supervisor := some (sup.past hstep) } = (.ok [.terminate r.instanceId],
          { s with supervisor := some ((sup.past hstep).past hcaptured) }) :=
      applySupervisor_step rfl (show (sup.past hstep).Step _ _ ((sup.past hstep).past hcaptured)
        from hcaptured)
    rw [bind_ok hsnapshot, nil_append, executeReplacementActions_singleton rfl]
    unfold terminateInstance
    rw [bind_run, get_run]
    simp only [bind_ok (actionRole_run (ht.roleFor hids))]
  refine Ends.of_eq ?_ hrun
  exact (terminateRetired_ends hkill ht rfl rfl).mono fun _ _ hp => hp.after_supervisor

theorem terminationTimedOut_ends (hkill : KillsSucceed E) (hs : s.supervisor = some sup)
    (hr : sup.retired = some r) (hl : r.lifecycle = .stopping)
    (hrole : s.roleFor r.instanceId = some .retired) (hw : s.worker .retired = some w)
    (hq : w.Quelled) :
    Ends (applyReplacementEvent (depth + 1) (.terminationTimedOut r.instanceId) now) s
      fun _ s' => Forced .retired s s' := by
  have hstep := terminationTimedOut (.inr hr) hl
  have hsame : { s with supervisor := some (sup.past hstep) } = s := by
    rw [show sup.past hstep = sup from rfl, ← hs]
  refine ends_action hs hstep rfl ?_
  rw [hsame]
  exact (forceRole_ends hkill hw hq).of_eq (bind_ok (actionRole_run hrole))

end events

end Oxiroute.Master
