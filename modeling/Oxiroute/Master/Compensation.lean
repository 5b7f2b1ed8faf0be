import Oxiroute.Master.Coherent

/-!
# Compensations end well

The ways in which the master reacts to a worker that fails, on a system that carries out kills:
each ends without an error, in a state that satisfies the invariant of `Coherent.lean`.

* `failMaster_ends`: failing closed kills every worker.
* `beginRollback_ends`: a rollback stops the candidate; the active worker takes over again.
* `failRetired_ends`: a retired worker is given up.
* `handlePhaseFailure_ends`: the choice between them, in every stage and phase.
-/

namespace Oxiroute.Master

open Lib Lib.Prog List Supervision Supervisor Ends Option

variable {E : Type}

/-! ## Kills -/

section kills

variable {s s' : Master E} {role : WorkerRole} {w : ManagedWorker} {sup : Supervisor}
  {free : List WorkerRole}

/-- The worker in `role`, if there is one, is being killed; nothing else has changed. -/
structure Forced (role : WorkerRole) (s s' : Master E) : Prop where
  same : SameSupervision s s'
  events : s.events <+: s'.events
  ids : ∀ role', (s'.worker role').map (·.instanceId) = (s.worker role').map (·.instanceId)
  others : ∀ role', role' ≠ role → s'.worker role' = s.worker role'
  killed : ∀ w', s'.worker role = some w' → w'.state = .terminating true ∧ w'.pending = none

/-- Every worker is being killed; nothing else has changed. -/
structure AllForced (s s' : Master E) : Prop where
  same : SameSupervision s s'
  events : s.events <+: s'.events
  ids : ∀ role, (s'.worker role).map (·.instanceId) = (s.worker role).map (·.instanceId)
  killed : ∀ role w', s'.worker role = some w' → w'.state = .terminating true ∧ w'.pending = none

/-- What failing closed leaves behind. -/
structure FailedClosed (s s' : Master E) : Prop where
  stage : ∃ phase, s'.stage = .failing phase
  supervisor : s'.supervisor = s.supervisor
  failure : s'.replacementFailure = s.replacementFailure
  deferred : s'.deferredActiveExit = none
  events : s.events <+: s'.events
  closing : s'.Closing
  ids : s.deferredActiveExit = none → ∀ role,
    (s'.worker role).map (·.instanceId) = (s.worker role).map (·.instanceId)

theorem reapDeferredExit_run : reapDeferredExit s = (.ok (),
    if s.deferredActiveExit.isSome then { s with deferredActiveExit := none }.takeWorker .active
    else s) := by
  unfold reapDeferredExit
  simp only [bind_run, get_run]
  split <;> rfl

theorem closed_same {phase : FailurePhase} : (s.closed phase).supervisor = s.supervisor ∧
      (s.closed phase).replacementFailure = s.replacementFailure ∧
      (s.closed phase).deferredActiveExit = s.deferredActiveExit ∧
      s.events <+: (s.closed phase).events ∧
      (∀ role, (s.closed phase).worker role = s.worker role) ∧
      ∃ phase', (s.closed phase).stage = .failing phase' := by
  unfold closed
  split
  · exact ⟨rfl, rfl, rfl, prefix_refl _, fun _ => rfl, _, ‹_›⟩
  · refine ⟨rfl, rfl, rfl, prefix_append _ _, fun role => ?_, phase, rfl⟩
    cases role <;> rfl

theorem Operating.forced {free' : List WorkerRole} (h : s.Operating sup free)
    (hf : Forced role s s') (hstands : ∀ w, w.state = .terminating true → sup.Stands w role)
    (hfree : ∀ role', role' ≠ role → role' ∉ free' → role' ∉ free) : s'.Operating sup free' where
  stage := hf.same.stage.trans h.stage
  supervisor := hf.same.supervisor.trans h.supervisor
  mirror role' := by rw [hf.ids, h.mirror]
  quelled role' w hw := by
    by_cases hr : role' = role
    · subst hr
      exact fun _ => (hf.killed w hw).2
    · exact h.quelled role' w (hf.others role' hr ▸ hw)
  settled role' w hw hn := by
    by_cases hr : role' = role
    · subst hr
      obtain ⟨hstate, hpending⟩ := hf.killed w hw
      exact ⟨by simp [hpending], hstands w hstate⟩
    · exact h.settled role' w (hf.others role' hr ▸ hw) (hfree role' hr hn)
  deferred hd := h.deferred (hf.same.deferred ▸ hd)

theorem Closing.forced (h : s.Closing) (hf : Forced role s s') : s'.Closing := by
  refine ⟨h.within.congr hf.same.supervisor fun role' w' hw' => ?_, fun role' w' hw' => ?_⟩
  · have hid := hf.ids role'
    rw [hw', map_some] at hid
    exact map_eq_some_iff.mp hid.symm
  · by_cases hr : role' = role
    · subst hr
      exact hf.killed w' hw'
    · exact h.killed role' w' (hf.others role' hr ▸ hw')

theorem ShuttingDown.forced (h : s.ShuttingDown) (hf : Forced role s s') : s'.ShuttingDown := by
  have hother : ∀ role' w, s'.worker role' = some w → w.pending = none ∨
    s.worker role' = some w := by
    intro role' w hw
    by_cases hr : role' = role
    · subst hr
      exact .inl (hf.killed w hw).2
    · exact .inr (hf.others role' hr ▸ hw)
  refine ⟨hf.same.supervisor.trans h.supervisor, fun role' w p hw hp => ?_, fun role' w hw => ?_⟩
  · rcases hother role' w hw with hnone | hw
    · cases hnone.symm.trans hp
    · exact h.asked role' w p hw hp
  · rcases hother role' w hw with hnone | hw
    · exact fun _ => hnone
    · exact h.quelled role' w hw

variable [Runtime E]

theorem forceRole_ends (hkill : KillsSucceed E) (hw : s.worker role = some w) (hq : w.Quelled) :
    Ends (forceRole role) s fun _ s' => Forced role s s' := by
  rcases forceRole_cases hw with ⟨hforced, hr⟩ | ⟨-, executor, hr⟩ | ⟨executor, error, -, herr⟩
  · refine ⟨(), s, hr, .refl, prefix_refl _, fun _ => rfl, fun _ _ => rfl, fun w' hw' => ?_⟩
    cases hw.symm.trans hw'
    exact ⟨hforced, hq hforced⟩
  · refine ⟨(), _, hr, ⟨by simp [push, touch], by simp [push, touch], by simp [push, touch],
      by simp [push, touch]⟩, ?_, fun role' => ?_, fun role' hne => ?_, fun w' hw' => ?_⟩
    · simp [push, touch]
    · rw [push_worker, setWorker_worker]
      split
      · rename_i hr'
        rw [hr', hw]
        rfl
      · rw [touch_worker]
    · rw [push_worker, setWorker_worker, if_neg hne, touch_worker]
    · rw [push_worker, setWorker_worker, if_pos rfl] at hw'
      cases hw'
      exact ⟨rfl, rfl⟩
  · rw [hkill] at herr
    simp at herr

theorem forceAll_ends (hkill : KillsSucceed E) (hq : ∀ role w, s.worker role = some w → w.Quelled) :
    Ends forceAll s fun _ s' => AllForced s s' := by
  -- one round forces the worker of a role and keeps those forced before
  have hround : ∀ (role : WorkerRole) (t : Master E),
      (∀ role w, t.worker role = some w → w.Quelled) →
      Ends (do if ((← Prog.get).worker role).isSome then forceRole role else pure () :
        Method E Unit) t fun _ t' => Forced role t t' := by
    intro role t ht
    cases hw : t.worker role with
    | none =>
      refine ⟨(), t, ?_, .refl, prefix_refl _, fun _ => rfl, fun _ _ => rfl, ?_⟩
      · simp [bind_run, hw]
      · intro w' hw'
        cases hw.symm.trans hw'
    | some w =>
      refine (forceRole_ends hkill hw (ht role w hw)).of_eq ?_
      simp [bind_run, hw]
  have hquelled : ∀ {role : WorkerRole} {t t' : Master E}, Forced role t t' →
      (∀ role w, t.worker role = some w → w.Quelled) →
      ∀ role w, t'.worker role = some w → w.Quelled := by
    intro role t t' hf ht role' w hw _
    by_cases hr : role' = role
    · subst hr
      exact (hf.killed w hw).2
    · exact ht role' w (hf.others role' hr ▸ hw) ‹_›
  refine (hround .active s hq).bind fun _ s₁ h₁ => ?_
  refine (hround .candidate s₁ (hquelled h₁ hq)).bind fun _ s₂ h₂ => ?_
  refine (hround .retired s₂ (hquelled h₂ (hquelled h₁ hq))).bind fun _ s₃ h₃ => ?_
  refine ends_pure ⟨(h₁.same.trans h₂.same).trans h₃.same,
    (h₁.events.trans h₂.events).trans h₃.events, fun role => ?_, fun role w' hw' => ?_⟩
  · rw [h₃.ids, h₂.ids, h₁.ids]
  · cases role with
    | retired => exact h₃.killed w' hw'
    | candidate =>
      rw [h₃.others _ (by decide)] at hw'
      exact h₂.killed w' hw'
    | active =>
      rw [h₃.others _ (by decide), h₂.others _ (by decide)] at hw'
      exact h₁.killed w' hw'

/-- **Failing closed** kills every worker that is held, except an active one that has exited. -/
theorem failMaster_ends (hkill : KillsSucceed E) (hst : s.stage ≠ .failed) (hwithin : s.Within)
    (hq : ∀ role w, s.worker role = some w → w.Quelled) (phase : FailurePhase) :
    Ends (failMaster phase) s fun _ s' => FailedClosed s s' := by
  refine of_eq ?_ (failMaster_run hst)
  obtain ⟨hsup, hfail, hdef, hevents, hworker, phase', hstage⟩ := closed_same
  generalize s.closed phase = t at hsup hfail hdef hevents hworker hstage
  refine bind ⟨(), _, reapDeferredExit_run, rfl⟩ fun _ t' (ht' : t' = _) => ?_
  have hslot : ∀ role w, t'.worker role = some w → s.worker role = some w := by
    intro role w hw
    rw [ht'] at hw
    split at hw
    · rw [takeWorker_worker] at hw
      split at hw
      · simp at hw
      · exact hworker role ▸ hw
    · exact hworker role ▸ hw
  have hsame : t'.supervisor = s.supervisor ∧ t'.replacementFailure = s.replacementFailure ∧
      t'.stage = .failing phase' ∧ t'.deferredActiveExit = none ∧ t'.events = t.events := by
    rw [ht']
    split
    · exact ⟨hsup, hfail, hstage, rfl, rfl⟩
    · rename_i hnone
      exact ⟨hsup, hfail, hstage, by simpa using hnone, rfl⟩
  obtain ⟨hsup', hfail', hstage', hdef', hevents'⟩ := hsame
  refine (forceAll_ends hkill fun role w hw => hq role w (hslot role w hw)).mono fun _ s' h => ?_
  refine ⟨⟨phase', h.same.stage.trans hstage'⟩, h.same.supervisor.trans hsup',
    h.same.failure.trans hfail', h.same.deferred.trans hdef', ?_, ⟨?_, h.killed⟩, ?_⟩
  · exact (hevents' ▸ hevents).trans h.events
  · refine hwithin.congr (h.same.supervisor.trans hsup') fun role w' hw' => ?_
    have hid := h.ids role
    rw [hw', map_some] at hid
    obtain ⟨w, hw, hid⟩ := map_eq_some_iff.mp hid.symm
    exact ⟨w, hslot role w hw, hid⟩
  · intro hnone role
    have ht : t' = t := by rw [ht', hdef, hnone]; rfl
    rw [h.ids, ht, hworker]

end kills

/-! ## Rolling back -/

section rollback

variable {s s' : Master E} {role : WorkerRole} {w : ManagedWorker} {sup : Supervisor}
  {c : Instance} {now : Instant}

/-- What a failed candidate leaves behind: it is stopping, and the master operates, unless the
active worker could not be asked to take over again. -/
structure RolledBack (c : Instance) (s s' : Master E) (sup' : Supervisor) : Prop where
  events : s.events <+: s'.events
  deferred : s'.deferredActiveExit = none
  supervisor : s'.supervisor = some sup'
  candidate : sup'.candidate = some (c.at .stopping)
  stage : s'.Operating sup' [] ∨ (∃ phase, s'.stage = .failing phase) ∧ s'.Closing ∧ s'.Blamed ∧
    sup'.active.lifecycle = .reactivating

theorem Operating.issued {free free' : List WorkerRole} (h : s.Operating sup free)
    (hw : s.worker role = some w) (hstands : sup.Stands w role)
      (hstate : w.state ≠ .terminating true)
    (executor : E) (n : UInt64) {p : Pending} (hp : sup.awaits role p.phase = true)
    (hfree : ∀ role', role' ≠ role → role' ∉ free' → role' ∉ free) :
    ((s.touch executor n).setWorker role (some (w.awaiting p))).Operating sup free' := by
  have hw' : (s.touch executor n).worker role = some w := by rw [touch_worker, hw]
  refine (h.touch executor n).setWorker hw' rfl (fun hq => absurd hq hstate)
    (fun _ => ⟨fun p' hp' => ?_, ?_⟩) hfree
  · cases hp'
    exact hp
  · exact hstands.congr rfl rfl

theorem maybeFinishRollback_idle (h : s.replacementPhase ≠ some .running) :
    maybeFinishRollback s = (.ok (), s) := by
  unfold maybeFinishRollback
  simp [bind_run, h]

theorem RolledBack.phase {sup' : Supervisor} (h : RolledBack c s s' sup') :
    s'.replacementPhase = some .rollingBack := by
  rw [replacementPhase, h.supervisor, map_some, phase_candidate h.candidate]
  rfl

variable [Runtime E] {apply : ApplyEvent E} {depth : ℕ}

variable (hkill : KillsSucceed E)
include hkill

theorem terminateCandidate_ends {id : InstanceId} (hrole : s.roleFor id = some .candidate)
    (hw : s.worker .candidate = some w) (hq : w.Quelled) :
    Ends (terminateInstance apply now id) s fun _ s' => Forced .candidate s s' := by
  refine (forceRole_ends hkill hw hq).of_eq ?_
  unfold terminateInstance
  rw [bind_run, get_run]
  simp only [bind_ok (actionRole_run hrole)]

/-- The active worker is asked to take over again; if it cannot be asked, the master fails. -/
theorem reactivate_ends (h : s.Operating sup [.active, .candidate])
    (hphase : sup.phase = .rollingBack) (hl : sup.active.lifecycle = .reactivating)
    (hdef : s.deferredActiveExit = none) (hw : s.worker .active = some w) (hsound : w.Sound) :
    Ends (activateInstance apply now sup.active.instanceId) s fun _ s' =>
      s.events <+: s'.events ∧ s'.deferredActiveExit = none ∧ s'.supervisor = some sup ∧
      (∀ role, (s'.worker role).map (·.instanceId) = sup.ids role) ∧
      (s'.Operating sup [.candidate] ∨
        (∃ phase, s'.stage = .failing phase) ∧ s'.Closing ∧ s'.Blamed) := by
  have hrun : activateInstance apply now sup.active.instanceId s =
      issueOrCompensate apply .active .reactivate now s.config.activation .reactivation s := by
    unfold activateInstance
    rw [bind_run, get_run]
    simp only [bind_ok (actionRole_run (h.roleFor (show sup.ids .active = some _ from rfl)))]
  refine of_eq ?_ hrun
  obtain ⟨executor, n, ⟨p, hr, hp⟩ | ⟨event, hissue, hr⟩⟩ := orCompensate_cases
    (issues_issue .active .reactivate now _) hw apply .reactivation now
  · have hissued : ((s.touch executor n).setWorker .active (some (w.awaiting p))).Operating sup
        [.candidate] := by
      refine h.issued hw hsound (by rw [hsound.running]; exact WorkerState.noConfusion) executor n
        (by simp [hp, awaits, hl]) ?_
      simp_all
    refine ⟨(), _, hr, ?_, by simpa [touch] using hdef, hissued.supervisor,
      hissued.mirror, .inl hissued⟩
    simp [touch]
  · have hpushed := (h.touch executor n).push event
    have hfailed := failMaster_ends hkill (by rw [hpushed.stage]; exact Stage.noConfusion)
      hpushed.within hpushed.quelled .reactivation
    refine (hfailed.mono fun _ s' hf => ?_).of_eq (hr.trans
      (handlePhaseFailure_rollingBack hpushed.stage (hpushed.phase.trans (by rw [hphase]))))
    refine ⟨(prefix_append _ _).trans hf.events, hf.deferred,
      hf.supervisor.trans hpushed.supervisor, fun role => ?_, .inr ⟨hf.stage, hf.closing, ?_⟩⟩
    · rw [hf.ids hdef, hpushed.mirror]
    · exact Blamed.mono ⟨event, mem_append_right _ mem_cons_self, hissue⟩ hf.events

/-- The candidate fails before it is activated, or after: the active worker may have to take over
again. -/
theorem candidateFailed_ends (h : s.Operating sup []) (hc : sup.candidate = some c)
    (hdef : s.deferredActiveExit = none) :
    Ends (applyReplacementEvent (depth + 1) (.candidateFailed c.instanceId) now) s
      fun _ s' => ∃ sup', RolledBack c s s' sup' := by
  have hfail : c.lifecycle.canTransitionTo .failed = true := by
    have := sup.wellFormed.candidate_lifecycle c hc
    cases hlc : c.lifecycle <;> rw [hlc] at this <;> first | rfl | simp at this
  have hretired : s.worker .retired = none :=
    h.worker_none (by simp [ids, sup.wellFormed.retired_none hc])
  obtain ⟨wc, hwc, hwcid⟩ := h.worker_of_id (ids_candidate hc)
  obtain ⟨wa, hwa, hwaid⟩ := h.worker_of_id ids_active
  by_cases ha : sup.active.lifecycle = .quiescing
  · have hstep := ReplacementSupervisor.Step.candidateFailedReactivating hc hfail ha
    have ht : { s with supervisor := some (sup.past hstep) }.Operating (sup.past hstep)
        [.active, .candidate] := by
      refine h.advance ?_ (fun role w hw hfree => ?_) (by simp [hdef])
      · funext role
        cases role <;> simp [ids, past, hc]
      · cases role with
        | active => exact absurd mem_cons_self hfree
        | candidate => exact absurd (mem_cons_of_mem _ mem_cons_self) hfree
        | retired => cases hretired.symm.trans hw
    refine of_eq ?_ (applyReplacementEvent_step h.supervisor
      (show sup.Step _ _ (sup.past hstep) from hstep))
    refine of_eq ?_ (executeReplacementActions_cons rfl)
    have hphase :=
      phase_candidate (show (sup.past hstep).candidate = some (c.at .stopping) from rfl)
    refine (reactivate_ends hkill ht hphase rfl hdef (by exact hwa)
      (h.settled .active wa hwa not_mem_nil).stands).bind fun _ s₁ h₁ => ?_
    obtain ⟨hevents, hdef₁, hsup, hids, hstage⟩ := h₁
    have hcandidate : (sup.past hstep).ids .candidate = some c.instanceId := rfl
    obtain ⟨w₁, hw₁, -⟩ := map_eq_some_iff.mp ((hids .candidate).trans hcandidate)
    have hquelled : w₁.Quelled := by
      rcases hstage with hop | ⟨-, hclosing, -⟩
      · exact hop.quelled .candidate w₁ hw₁
      · exact fun _ => (hclosing.killed .candidate w₁ hw₁).2
    refine of_eq ?_ (executeReplacementActions_singleton rfl)
    refine (terminateCandidate_ends hkill (roleFor_of_ids hids hcandidate) hw₁ hquelled).mono
      fun _ s' hf => ?_
    refine ⟨sup.past hstep, hevents.trans hf.events, hf.same.deferred.trans hdef₁,
      hf.same.supervisor.trans hsup, rfl, ?_⟩
    rcases hstage with hop | ⟨⟨phase, hst⟩, hclosing, hblamed⟩
    · refine .inl (hop.forced hf (fun w hw => ?_) (by simp))
      simp [Supervisor.Stands, dropsCandidate, past, hw]
    · exact .inr ⟨⟨phase, hf.same.stage.trans hst⟩, hclosing.forced hf, hblamed.mono hf.events, rfl⟩
  · have hstep := ReplacementSupervisor.Step.candidateFailed hc hfail ha
    have hready : sup.candidate.any (·.lifecycle = .ready) = false := by
      have hne : c.lifecycle ≠ .ready := fun hlc =>
        ha (sup.wellFormed.quiescing_iff.mpr ⟨c, hc, .inl hlc⟩)
      simpa [hc] using hne
    have ht : { s with supervisor := some (sup.past hstep) }.Operating (sup.past hstep)
        [.candidate] := by
      refine h.advance ?_ (fun role w hw hfree => ?_) (by simp [hdef])
      · funext role
        cases role <;> simp [ids, past, hc]
      · cases role with
        | candidate => exact absurd mem_cons_self hfree
        | retired => cases hretired.symm.trans hw
        | active =>
          refine (h.settled .active w hw not_mem_nil).congr (fun phase => ?_) id
          cases phase with
          | quiesce => exact fun hw => absurd hw (by simp [awaits, hready])
          | _ => exact id
    refine of_eq ?_ (applyReplacementEvent_step h.supervisor
      (show sup.Step _ _ (sup.past hstep) from hstep))
    refine of_eq ?_ (executeReplacementActions_singleton rfl)
    refine (terminateCandidate_ends hkill (ht.roleFor ?_) (by exact hwc)
      (h.quelled _ _ hwc)).mono fun _ s' hf => ?_
    · simp [ids, past]
    · refine ⟨sup.past hstep, hf.events, hf.same.deferred.trans hdef, hf.same.supervisor, rfl,
        .inl (ht.forced hf (fun w hw => ?_) (by simp))⟩
      simp [Supervisor.Stands, dropsCandidate, past, hw]

/-- **A rollback** stops the candidate, or fails the master if the active worker has exited. -/
theorem beginRollback_ends (h : s.Operating sup []) (hc : sup.candidate = some c)
    {phase : FailurePhase} :
    Ends (beginRollback (applyReplacementEvent (depth + 1)) phase now) s fun _ s' =>
      s.deferredActiveExit.isSome = true ∧ FailedClosed s s' ∨
      s.deferredActiveExit = none ∧ ∃ sup', RolledBack c s s' sup' := by
  have hrun : beginRollback (applyReplacementEvent (depth + 1)) phase now s =
      (if s.deferredActiveExit.isSome then failMaster .crash
        else do
          let candidate ← Prog.okOr (s.supervisor.bind (·.candidate)) (.missingWorker .candidate)
          Prog.modify ({ · with replacementFailure := some phase })
          pushEvent (.rollbackStarted candidate.instanceId phase)
          applyReplacementEvent (depth + 1) (.candidateFailed candidate.instanceId) now
          maybeFinishRollback : Method E Unit) s := rfl
  refine of_eq ?_ hrun
  by_cases hdef : s.deferredActiveExit.isSome = true
  · rw [if_pos hdef]
    exact (failMaster_ends hkill (by rw [h.stage]; exact Stage.noConfusion) h.within h.quelled
      .crash).mono fun _ s' hf => .inl ⟨hdef, hf⟩
  · have hnone : s.deferredActiveExit = none := by simpa using hdef
    rw [if_neg hdef, h.supervisor, bind_some, hc, okOr_some]
    have hstart := (h.failure (some phase)).push (.rollbackStarted c.instanceId phase)
    refine (candidateFailed_ends hkill hstart hc hnone).bind fun _ s' hrolled => ?_
    obtain ⟨sup', hrolled⟩ := hrolled
    refine ⟨(), s', maybeFinishRollback_idle (by rw [hrolled.phase]; decide),
      .inr ⟨hnone, sup', ?_⟩⟩
    exact ⟨(prefix_append _ _).trans hrolled.events, hrolled.deferred, hrolled.supervisor,
      hrolled.candidate, hrolled.stage⟩

/-- A rollback is calm: it fails the master only if the active worker has exited or cannot be
asked to take over again. -/
theorem post_beginRollback (h : s.Operating sup []) (hc : sup.candidate = some c)
    (phase : FailurePhase) (depth : ℕ) :
    Ends (beginRollback (applyReplacementEvent (depth + 1)) phase now) s fun _ s' =>
      Post True s s' := by
  refine (beginRollback_ends hkill h hc).mono fun _ s' hr => ?_
  rcases hr with ⟨hdef, hf⟩ | ⟨hnone, sup', hr⟩
  · refine .of_closing hf.stage hf.closing hf.events fun _ hs => ?_
    rw [hs.deferred] at hdef
    simp at hdef
  · rcases hr.stage with hop | ⟨hst, hclosing, hblamed, -⟩
    · exact .of_operating hop (fun _ => hr.deferred) hr.events
    · exact .of_closing hst hclosing hr.events fun _ _ => hblamed

end rollback

/-! ## A failed retired worker -/

section retired

variable [Runtime E] {s s' : Master E} {w : ManagedWorker} {sup : Supervisor} {r : Instance}
  {now : Instant}

omit [Runtime E] in
theorem Operating.deferred_none {free : List WorkerRole} (h : s.Operating sup free)
    (hr : sup.retired = some r) : s.deferredActiveExit = none := by
  refine h.not_deferred ?_
  rw [phase_retired hr]
  cases r.lifecycle <;> decide

/-- The retired worker is being killed. -/
structure RetiredFailed (r : Instance) (s s' : Master E) (sup' : Supervisor) : Prop where
  events : s.events <+: s'.events
  failure : s'.replacementFailure = s.replacementFailure
  operating : s'.Operating sup' []
  retired : sup'.retired = some (r.at .stopping)

theorem retiredFailed_ends (hkill : KillsSucceed E) (h : s.Operating sup [])
    (hr : sup.retired = some r) {depth : ℕ} :
    Ends (applyReplacementEvent (depth + 1) (.retiredFailed r.instanceId) now) s
      fun _ s' => ∃ sup', RetiredFailed r s s' sup' := by
  have hfail : r.lifecycle.canTransitionTo .failed = true := by
    have := sup.wellFormed.retired_lifecycle r hr
    cases hlr : r.lifecycle <;> rw [hlr] at this <;> first | rfl | simp at this
  have hcandidate := sup.wellFormed.candidate_none hr
  have hstep := ReplacementSupervisor.Step.retiredFailed hr hfail
  have hids : (sup.past hstep).ids .retired = some r.instanceId := rfl
  have ht : { s with supervisor := some (sup.past hstep) }.Operating (sup.past hstep)
      [.retired] := by
    refine h.advance ?_ (fun role w hw hfree => ?_) (by simp [h.deferred_none hr])
    · funext role
      cases role <;> simp [ids, past, hr]
    · cases role with
      | retired => exact absurd mem_cons_self hfree
      | active => exact (h.settled .active w hw not_mem_nil).congr (fun phase => by
          cases phase <;> exact id) id
      | candidate =>
        exact absurd ((h.worker_none (by simp [ids, hcandidate])).symm.trans hw) (by simp)
  obtain ⟨w, hw, -⟩ := ht.worker_of_id hids
  refine of_eq ?_ (applyReplacementEvent_step h.supervisor
    (show sup.Step _ _ (sup.past hstep) from hstep))
  refine of_eq ?_ (executeReplacementActions_singleton rfl)
  refine of_eq ?_ (bind_ok (actionRole_run (ht.roleFor hids)))
  refine (forceRole_ends hkill hw (ht.quelled _ _ hw)).mono fun _ s' hf => ?_
  exact ⟨sup.past hstep, hf.events, hf.same.failure,
    ht.forced hf (fun _ _ => trivial) (by simp), rfl⟩

theorem failRetired_ends (hkill : KillsSucceed E) (h : s.Operating sup [])
    (hr : sup.retired = some r) (phase : FailurePhase) (depth : ℕ) :
    Ends (failRetired (applyReplacementEvent (depth + 1)) phase now) s fun _ s' =>
      ∃ sup', RetiredFailed r { s with replacementFailure := some phase } s' sup' := by
  obtain ⟨w, hw, hid⟩ := h.worker_of_id (ids_retired hr)
  refine of_eq ?_ (bind_ok (workerId_run hw))
  rw [hid]
  exact retiredFailed_ends hkill (h.failure _) hr

end retired

/-! ## Failures -/

section failures

variable {s s' : Master E} {role : WorkerRole} {w : ManagedWorker} {now : Instant}

/-- A failure of the worker in `role` that the master can bear. -/
def Bearable (s : Master E) : WorkerRole → Prop
  | .active => s.replacementPhase = some .quiescing
  | .candidate => s.replacementPhase ≠ some .rollingBack
  | .retired => True

variable {phase : ControlPhase} {free : List WorkerRole}

theorem Booting.worker (h : s.Booting phase) (hw : s.worker role = some w) :
    role = .active ∧ w.Sound ∧ ∀ p, w.pending = some p → p.phase = phase := by
  obtain ⟨w', hw', hsound, hp⟩ := h.active
  cases role with
  | active =>
    cases hw'.symm.trans hw
    exact ⟨rfl, hsound, hp⟩
  | candidate => cases h.candidate.symm.trans hw
  | retired => cases h.retired.symm.trans hw

theorem ManagedWorker.Sound.quelled (h : w.Sound) : w.Quelled := fun hs => by
  rw [h.running] at hs
  exact WorkerState.noConfusion hs

theorem Booting.within (h : s.Booting phase) : s.Within := by
  intro role w sup _ hs
  rw [h.supervisor] at hs
  simp at hs

variable {sup : Supervisor}

theorem Operating.candidate_of (h : s.Operating sup free) (hw : s.worker .candidate = some w) :
    ∃ c, sup.candidate = some c ∧ c.instanceId = w.instanceId :=
  candidate_of_ids (h.within .candidate w sup hw h.supervisor)

theorem Operating.retired_of (h : s.Operating sup free) (hw : s.worker .retired = some w) :
    ∃ r, sup.retired = some r ∧ r.instanceId = w.instanceId :=
  retired_of_ids (h.within .retired w sup hw h.supervisor)

variable [Runtime E]

theorem post_failMaster {calm : Prop} (hkill : KillsSucceed E) (hst : s.stage ≠ .failed)
    (hwithin : s.Within) (hq : ∀ role w, s.worker role = some w → w.Quelled)
    (hcalm : calm → ¬ s.Serving) (phase : FailurePhase) :
    Ends (failMaster phase) s fun _ s' => Post calm s s' :=
  (failMaster_ends hkill hst hwithin hq phase).mono fun _ _ hf =>
    .of_closing hf.stage hf.closing hf.events fun hc hs => absurd hs (hcalm hc)

variable {phase : FailurePhase} {depth : ℕ}

theorem handlePhaseFailure_operating (hkill : KillsSucceed E) (h : s.Operating sup [])
    (hw : s.worker role = some w) :
    Ends (handlePhaseFailure (applyReplacementEvent (depth + 1)) role phase now) s fun _ s' =>
      Post (s.Bearable role) s s' := by
  have hfail := fun hcalm : ¬ s.Bearable role => post_failMaster hkill
    (by rw [h.stage]; exact Stage.noConfusion) h.within h.quelled
    (fun hc _ => absurd hc hcalm) phase
  have hview := sup.view
  have hphase := h.phase
  refine of_eq ?_ (bind_ok (get_run s))
  rw [h.stage, hphase]
  cases role with
  | active =>
    generalize sup.phase = p at hview hphase
    cases hview with
    | quiescing hc hl =>
      exact (post_beginRollback hkill h hc phase depth).mono fun _ _ hp => hp.mono fun _ => trivial
    | _ => exact hfail (by rw [Bearable, hphase]; decide)
  | candidate =>
    obtain ⟨c, hc, -⟩ := h.candidate_of hw
    have hroll : Ends (beginRollback (applyReplacementEvent (depth + 1)) phase now) s
        fun _ s' => Post (s.Bearable .candidate) s s' :=
      (post_beginRollback hkill h hc phase depth).mono fun _ _ hp => hp.mono fun _ => trivial
    generalize sup.phase = p at hview hphase
    cases hview with
    | adopting _ _ | quiescing _ _ | activating _ _ => exact hroll
    | stoppingCandidate _ _ => exact hfail (by rw [Bearable, hphase]; decide)
    | running hnone _ _ | reactivating hnone _ _ => cases hnone.symm.trans hc
    | draining hr _ => cases (sup.wellFormed.candidate_none hr).symm.trans hc
    | stoppingRetired hr _ =>
      cases (sup.wellFormed.candidate_none hr).symm.trans hc
  | retired =>
    obtain ⟨r, hr, -⟩ := h.retired_of hw
    have hretired : Ends (failRetired (applyReplacementEvent (depth + 1)) phase now) s
        fun _ s' => Post (s.Bearable .retired) s s' := by
      refine (failRetired_ends hkill h hr phase depth).mono fun _ s' hf => ?_
      obtain ⟨sup', hf⟩ := hf
      exact .of_operating hf.operating (fun _ => hf.operating.deferred_none hf.retired) hf.events
    generalize sup.phase = p at hview hphase
    cases hview with
    | draining _ _ | stoppingRetired _ _ => exact hretired
    | running _ hnone _ | reactivating _ hnone _ => cases hnone.symm.trans hr
    | adopting hc _ | quiescing hc _ | activating hc _ | stoppingCandidate hc _ =>
      cases (sup.wellFormed.retired_none hc).symm.trans hr

/-- **Any failure of any worker** is handled: the master rolls back, gives up on the retired
worker, or fails closed. -/
theorem handlePhaseFailure_ends (hkill : KillsSucceed E) (h : s.Tight)
    (hw : s.worker role = some w) :
    Ends (handlePhaseFailure (applyReplacementEvent (depth + 1)) role phase now) s fun _ s' =>
      Post (s.Bearable role) s s' := by
  have hboot : ∀ {request}, s.Booting request → s.stage ≠ .failed →
      Ends (failMaster phase) s fun _ s' => Post (s.Bearable role) s s' := by
    intro request hb hst
    refine post_failMaster hkill hst hb.within (fun _ _ hw => (hb.worker hw).2.1.quelled)
      (fun hc _ => ?_) phase
    obtain ⟨rfl, -, -⟩ := hb.worker hw
    rw [Bearable, replacementPhase, hb.supervisor] at hc
    simp at hc
  by_cases hst : s.stage = .operational
  · obtain ⟨sup, hop⟩ := h.operating hst
    exact handlePhaseFailure_operating hkill hop hw
  refine of_eq ?_ (bind_ok (get_run s))
  unfold Tight at h
  cases hstage : s.stage with
  | operational => exact absurd hstage hst
  | bootAdopting | bootActivating =>
    rw [hstage] at h
    exact hboot h (by rw [hstage]; exact Stage.noConfusion)
  | failing _ =>
    rw [hstage] at h
    exact post_failMaster hkill (by rw [hstage]; exact Stage.noConfusion) h.within
      (fun _ _ hw _ => (h.killed _ _ hw).2) (fun _ => not_serving (by rw [hstage]; rfl)) phase
  | shuttingDown _ _ =>
    rw [hstage] at h
    refine (forceRole_ends hkill hw (h.quelled _ _ hw)).mono fun _ s' hf => ?_
    refine ⟨?_, hf.events, fun _ hs => absurd hs (not_serving (by rw [hstage]; rfl))⟩
    unfold Tight
    rw [hf.same.stage, hstage]
    exact h.forced hf
  | stopped _ | failed =>
    rw [hstage] at h
    cases (h role).symm.trans hw

end failures

end Oxiroute.Master
