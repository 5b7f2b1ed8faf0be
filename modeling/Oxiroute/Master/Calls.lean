import Oxiroute.Master.Refinement

/-!
# The public calls refine custody

Each handler of `master.rs`, and with them `launch`, `replace`, `poll` and `shutdown`, is a run of
the abstract machine of `Custody.lean`. Statuses are the only input the abstract machine reads; a
run may assume something of them (`Observation.Taken`), and nothing else of the workers, of the
executor or of the operating system.

* `tracks_handleObservation`, `tracks_handleTimeout`: the two sources of moves in a poll.
* `tracks_gather`, `tracks_handleAll`, `tracks_replace`, `tracks_shutdown`, `tracks_launch`: the
  calls. The event queue leaves the master at the end of a poll, so a poll is a run up to there.
-/

namespace Oxiroute.Master

open Lib Lib.Prog Supervision Supervisor Keeps Option List

variable {E : Type} {s s' : Master E} {o : Origin} {role : WorkerRole} {w : ManagedWorker}
  {sup : Supervisor} {id : InstanceId} {now : Instant}

/-! ## Acknowledgements -/

theorem Supervisor.new_active (id : InstanceId) (generation : GenerationId) :
    ∃ sup : Supervisor, Supervisor.new ⟨id, generation, .active⟩ = .ok sup ∧
      sup.toReplacementSupervisor = ⟨⟨id, generation, .active⟩, none, none⟩ :=
  ⟨_, rfl, rfl⟩

section acks

theorem tracks_becomeOperational (h : Tracks o s) (hst : s.stage = .bootActivating) :
    Tracks o (becomeOperational s).2 := by
  have hm : s.custody.mode = .booting := by simp [custody, mode, hst]
  unfold becomeOperational
  cases hw : s.worker .active with
  | none =>
    rw [bind_error (workerOr_none hw)]
    exact h
  | some w =>
    rw [bind_ok (workerOr_run hw)]
    obtain ⟨sup, hnew, hsup⟩ := new_active w.instanceId w.generation
    have hids : sup.ids = Custody.sole w.instanceId := by
      funext role
      cases role <;> simp [ids, Custody.sole, hsup]
    have hoperate : Custody.Step o.accepted o.known s.custody
        { s.custody with mode := .operating (Custody.sole w.instanceId) } :=
      .operate hm (by simp [custody, hw] : s.custody.slots .active = some w.badge)
    have hafter : { s with supervisor := some sup, stage := .operational }.custody =
        { s.custody with mode := .operating (Custody.sole w.instanceId) } := by
      refine Custody.ext ?_ rfl rfl rfl rfl
      simp [custody, mode, hids]
    have htracks : Tracks o { s with supervisor := some sup, stage := .operational } :=
      h.step (hafter ▸ hoperate)
    simp only [hnew, Except.mapError, bind_run, ofExcept_run, modify_run]
    exact htracks.push _

variable [Runtime E]

theorem tracks_handlePhaseSuccess {phase : ControlPhase} :
    Keeps (Tracks o) (handlePhaseSuccess role phase now : Method E Unit) := by
  refine keeps_get_bind fun s h => ?_
  have happly : ∀ (role : WorkerRole) (event : InstanceId → ReplacementEvent),
      (∀ id, movesRoles (event id) = false) →
      Keeps (Tracks o) (workerId role >>= fun id => applyEvent (event id) now : Method E Unit) :=
    fun role event he => keeps_workerId.bind fun id =>
      (stable_tracks o).keeps_applyReplacementEvent (he id) now
  split
  · rename_i hst
    have htracks : Tracks o { s with stage := .bootActivating } :=
      h.congr (Custody.ext (by simp [custody, mode, hst]) rfl rfl rfl rfl)
    exact ((stable_tracks o).compensates nesting).issueOrCompensate _ _ _ _ _ _ htracks
  · exact tracks_becomeOperational h ‹_›
  · exact happly .candidate .candidatePrepared (fun _ => rfl) s h
  · exact happly .active .activeQuiesced (fun _ => rfl) s h
  · cases hw : s.worker .candidate with
    | none =>
      unfold workerId
      rw [bind_error (bind_error (workerOr_none hw))]
      exact h
    | some w =>
      rw [bind_ok (workerId_run hw)]
      exact tracks_candidateActivated h ‹_›
  · exact keeps_workerId.bind (fun id =>
      ((stable_tracks o).keeps_applyReplacementEvent (by exact (rfl :
        movesRoles (.activeReactivated id) = false)) now).bind fun _ =>
        (stable_tracks o).keeps_maybeFinishRollback) s h
  · exact happly .retired .retiredDrained (fun _ => rfl) s h
  · exact h
  · exact h
  · exact h

theorem tracks_handleAck {ack : ControlAck} :
    Keeps (Tracks o) (handleAck role ack now : Method E Unit) := by
  refine keeps_get.bind fun s => ((stable_tracks o).keeps_pushEvent).ite ?_
  refine bind
    ((stable_tracks o).keeps_updateWorker role (by intro; exact ⟨rfl, rfl, rfl⟩)) fun _ => ?_
  cases ack.outcome with
  | accepted => exact tracks_handlePhaseSuccess
  | rejected _ => exact ((stable_tracks o).compensates nesting).handlePhaseFailure role _ now

end acks

/-! ## Statuses -/

theorem tracks_handleStatus {status : WorkerStatus} (haccepted : o.accepted status) :
    Keeps (Tracks o) (handleStatus role status : Method E Unit) := by
  intro s h
  unfold handleStatus
  cases hw : s.worker role with
  | none =>
    rw [bind_error (workerOr_none hw)]
    exact h
  | some w =>
    rw [bind_ok (workerOr_run hw)]
    split
    · exact h.push _
    · obtain ⟨hmetrics, hlisteners⟩ := s.snapshotHistory.recordEvents_baseline
      generalize hrec : s.snapshotHistory.recordEvents (generationRole role) w.instanceId
        w.generation w.lastEventCursor status = recorded at hmetrics hlisteners
      have hstatus : Custody.Step o.accepted o.known s.custody _ :=
        .status (by simp [custody, hw] : s.custody.slots role = some w.badge) haccepted hmetrics
          hlisteners
      have hsame : ∀ role', { s with snapshotHistory := recorded.1 }.worker role' =
          s.worker role' := fun role' => by cases role' <;> rfl
      have hw' := (hsame role).trans hw
      simp only [bind_run, get_run, hrec, modify_run, updateWorker_run hw',
        pushEvent_run]
      refine Tracks.push (h.step ?_) _
      convert hstatus using 1
      refine Custody.ext ?_ (funext fun role' => ?_) ?_ ?_ ?_
      · simp [custody, mode]
      · by_cases hr : role' = role
        · subst hr
          simp [custody, ManagedWorker.badge, Custody.retained]
        · simp [custody, hr, hsame]
      · simp [custody]
      · simp [custody]
      · simp [custody]

/-! ## Exits -/

section exits

theorem Tracks.forget (h : Tracks o s) (hm : s.mode = .closing)
    (hgone : ∀ w, s.worker role = some w → s.custody.Gone o.known w.instanceId) :
    Tracks o (s.takeWorker role) := by
  refine h.step (custody_takeWorker ▸ .forget hm fun id hid => ?_)
  rw [custody_ids] at hid
  obtain ⟨w, hw, rfl⟩ := map_eq_some_iff.mp hid
  exact hgone w hw

theorem leaving_of_rollingBack (h : Tracks o s) (hst : s.stage = .operational)
    (hp : s.replacementPhase = some .rollingBack) (hw : s.worker .candidate = some w) :
    Leaving s .candidate w.instanceId := by
  obtain ⟨sup, hs, -⟩ := h.mirror hst
  obtain ⟨c, hc, hid⟩ := candidate_of_ids (h.worker_id hst hs hw)
  refine .inr ⟨hst, sup, c, hs, hc, hid, ?_⟩
  rw [replacementPhase, hs, map_some, some_inj, phase_candidate hc] at hp
  cases hl : c.lifecycle <;> rw [hl] at hp <;> first | rfl | cases hp

theorem leaving_of_stoppingRetired (h : Tracks o s) (hst : s.stage = .operational)
    (hp : s.replacementPhase = some .stoppingRetired) (hw : s.worker .retired = some w) :
    Leaving s .retired w.instanceId := by
  obtain ⟨sup, hs, -⟩ := h.mirror hst
  obtain ⟨r, hr, hid⟩ := retired_of_ids (h.worker_id hst hs hw)
  refine .inr ⟨hst, sup, r, hs, hr, hid, ?_⟩
  rw [replacementPhase, hs, map_some, some_inj, phase_retired hr] at hp
  cases hl : r.lifecycle <;> rw [hl] at hp <;> first | rfl | cases hp

theorem tracks_then {x y : Method E Unit} (hx : Tracks o (x s).2) (hy : Keeps (Tracks o) y) :
    Tracks o ((x >>= fun _ => y) s).2 := by
  rw [bind_run]
  rcases hr : x s with ⟨e | a, s'⟩ <;> rw [hr] at hx
  · exact hx
  · exact hy s' hx

theorem keeps_observe (hI : Stable I) :
    Keeps I (observe role arrival : Method E (Option Observed)) := by
  refine keeps_get.bind fun s => ite (keeps_pure _) ?_
  cases s.worker role with
  | none => exact keeps_pure _
  | some w =>
    refine keeps_ofExcept.bind fun event => ?_
    cases event with
    | some status => exact keeps_pure _
    | none =>
      refine ite (bind ?_ fun _ => keeps_pure _) (keeps_pure _)
      unfold closeChannel
      split
      · exact hI.keeps_updateWorker role (by intro; exact ⟨rfl, rfl, rfl⟩)
      · exact keeps_pure ()

theorem keeps_observeAll (hI : Stable I) (arrivals : WorkerRole → Arrival) :
    ∀ roles, Keeps I (observeAll arrivals roles : Method E (List Observed))
  | [] => keeps_pure []
  | _ :: roles => (keeps_observe hI).bind fun _ =>
      (keeps_observeAll hI arrivals roles).bind fun _ => keeps_pure _

theorem observe_item {observed : Option Observed}
    (h : observe role arrival s = (.ok observed, s')) :
    ∀ item ∈ observed, (∃ status, item.observation = .exit status) ∨
        channelObservation arrival.received = some item.observation := by
  unfold observe at h
  rw [bind_run, get_run] at h
  simp only at h
  split at h
  · obtain rfl := Except.ok.inj (Prod.mk.inj h).1
    simp
  · split at h
    · obtain rfl := Except.ok.inj (Prod.mk.inj h).1
      simp
    · obtain ⟨event, t, -, h⟩ := bind_eq_ok.mp h
      cases event with
      | some status =>
        obtain rfl := Except.ok.inj (Prod.mk.inj h).1
        simp
      | none =>
        simp only at h
        split at h
        · obtain ⟨_, t', -, h⟩ := bind_eq_ok.mp h
          obtain rfl := Except.ok.inj (Prod.mk.inj h).1
          intro item hitem
          obtain ⟨observation, hobs, rfl⟩ := map_eq_some_iff.mp hitem
          exact .inr hobs
        · obtain rfl := Except.ok.inj (Prod.mk.inj h).1
          simp

theorem observeAll_items {arrivals : WorkerRole → Arrival} {roles : List WorkerRole} :
    ∀ {s s' : Master E} {observed : List Observed},
      observeAll arrivals roles s = (.ok observed, s') → ∀ item ∈ observed,
        (∃ status, item.observation = .exit status) ∨
          ∃ role, channelObservation (arrivals role).received = some item.observation := by
  induction roles with
  | nil =>
    intro s s' observed h
    obtain rfl := Except.ok.inj (Prod.mk.inj h).1
    simp
  | cons role roles ih =>
    intro s s' observed h item hitem
    obtain ⟨first, s₁, hfirst, h⟩ := bind_eq_ok.mp h
    obtain ⟨rest, s₂, hrest, h⟩ := bind_eq_ok.mp h
    obtain rfl := Except.ok.inj (Prod.mk.inj h).1
    rcases mem_append.mp hitem with hitem | hitem
    · exact (observe_item hfirst item (mem_toList.mp hitem)).imp_right fun h => ⟨role, h⟩
    · exact ih hrest item hitem

variable [Runtime E]

theorem tracks_takeAndFail (h : Tracks o s)
    (hgone : ∀ w, s.worker role = some w → s.custody.Gone o.known w.instanceId) :
    Tracks o ((Prog.modify (·.takeWorker role) >>= fun _ => failMaster .crash : Method E Unit)
      s).2 := by
  simp only [bind_run, modify_run]
  by_cases hm : s.mode = .closing
  · exact (stable_tracks o).keeps_failMaster _ (h.forget hm hgone)
  · -- the stage changes after the slot has been emptied; custody may take the moves the other way
    have hst := takeWorker_stage s role
    have hclosing : Tracks o { s with stage := .failing .crash } := h.step .close
    have htaken := (hclosing.forget rfl hgone).push (.failClosed .crash)
    have hclosed : (s.takeWorker role).closed .crash =
        ({ s with stage := .failing .crash }.takeWorker role).push (.failClosed .crash) := by
      unfold closed
      rw [hst]
      cases hstage :
        s.stage <;> first | cases role <;> rfl | exact absurd (by simp [mode, hstage]) hm
    rw [failMaster_run (by rw [hst]; intro hfailed; exact hm (by simp [mode, hfailed])), hclosed]
    exact (stable_tracks o).forceClosed htaken ⟨.crash, takeWorker_stage _ role⟩

theorem tracks_handleReportedExit (h : Tracks o s) (hw : s.worker role = some w)
    (hgone : s.custody.Gone o.known w.instanceId) :
    Tracks o (handleReportedExit role w.instanceId now s).2 := by
  have hslot : ∀ w', s.worker role = some w' → s.custody.Gone o.known w'.instanceId := by
    intro w' hw'
    cases hw.symm.trans hw'
    exact hgone
  have hcandidate : s.stage = .operational → role = .candidate →
      Tracks o ((beginRollback applyEvent .crash now >>= fun _ =>
        releaseCandidate applyEvent w.instanceId now >>= fun _ => maybeFinishRollback :
          Method E Unit) s).2 := by
    rintro hst rfl
    rw [← bind_bind]
    refine tracks_then (tracks_then_release (fun hI => (hI.compensates _).beginRollback .crash now)
      h (by decide) hw hgone (fun s' hok => ?_) releaseCandidate_run)
      (stable_tracks o).keeps_maybeFinishRollback
    obtain ⟨sup, hs, hids⟩ := h.mirror hst
    obtain ⟨c, hc, hid⟩ := candidate_of_ids (h.worker_id hst hs hw)
    exact hid ▸ leaving_beginRollback h hst hs hc hok
  have hrollback := (stable_tracks (E := E) o).keeps_maybeFinishRollback
  have hdone : Keeps (Tracks o) (do
      if (← Prog.get).replacementFailure.isSome then completeFailedRetired
      else completeReplacement : Method E Unit) :=
    keeps_get.bind fun _ => (stable_tracks o).keeps_completeFailedRetired.ite
      (stable_tracks o).keeps_completeReplacement
  unfold handleReportedExit
  rw [bind_run, get_run]
  simp only
  split
  · exact h.forget (by simp [mode, *]) hslot
  · exact h.forget (by simp [mode, *]) hslot
  · refine tracks_then ?_ hrollback
    rw [releaseCandidate_run]
    exact tracks_release h (by decide) (leaving_of_rollingBack h ‹_› ‹_› hw) hslot
  · refine tracks_then ?_ hdone
    rw [releaseRetired_run]
    exact tracks_release h (by decide) (leaving_of_stoppingRetired h ‹_› ‹_› hw) hslot
  · exact hcandidate ‹_› rfl
  · exact hcandidate ‹_› rfl
  · exact hcandidate ‹_› rfl
  · rw [← bind_bind]
    exact tracks_then (tracks_then_release (fun hI => (hI.compensates _).failRetired .crash now)
      h (by decide) hw hgone (fun _ hok => leaving_failRetired ‹_› hw hok) releaseRetired_run)
      (stable_tracks o).keeps_completeFailedRetired
  · exact tracks_takeAndFail h hslot

theorem tracks_handleExit {status : ExitStatus} :
    Keeps (Tracks o) (handleExit role status now : Method E Unit) := by
  intro s h
  unfold handleExit
  cases hw : s.worker role with
  | none =>
    rw [bind_error (workerOr_none hw)]
    exact h
  | some w =>
    rw [bind_ok (workerOr_run hw)]
    -- the report comes first or last; custody may take it first
    have hreported := h.push (.workerExited role w.instanceId status)
    have hgone : (s.push (.workerExited role w.instanceId status)).custody.Gone o.known
        w.instanceId := .inr ⟨role, status, mem_append_right _ mem_cons_self⟩
    simp only [bind_run, get_run]
    split
    · rename_i hdefer
      obtain ⟨-, rfl⟩ := hdefer
      refine hreported.step (Custody.Step.defer fun id hid => ?_)
      rw [custody_ids, push_worker, hw] at hid
      cases hid
      exact hgone
    · exact tracks_handleReportedExit hreported (by rw [push_worker, hw]) hgone

/-! ## A poll -/

/-- A status that is taken in is one the run may rely on. -/
def Observation.Taken (accepted : WorkerStatus → Prop) (observation : Observation) : Prop :=
  ∀ status, observation = .status status → accepted status

theorem tracks_handleDisconnect : Keeps (Tracks o) (handleDisconnect role now : Method E Unit) := by
  refine keeps_workerOr.bind fun w => ((stable_tracks o).keeps_pushEvent).bind fun _ => ?_
  cases w.state with
  | terminating _ => exact keeps_pure ()
  | running => exact ((stable_tracks o).compensates nesting).handlePhaseFailure role _ now

/-- **Handling an observation** is a run of custody. -/
theorem tracks_handleObservation {observation : Observation}
    (haccepted : observation.Taken o.accepted) :
    Keeps (Tracks o) (handleObservation role observation now : Method E Unit) := by
  cases observation with
  | ack ack => exact tracks_handleAck
  | status status => exact tracks_handleStatus (haccepted status rfl)
  | exit status => exact tracks_handleExit
  | disconnected => exact tracks_handleDisconnect
  | protocolFailure =>
    exact ((stable_tracks o).compensates nesting).handlePhaseFailure role .protocol now

variable {item : Observed} {I : Master E → Prop}

theorem tracks_handleObserved (haccepted : item.observation.Taken o.accepted) :
    Keeps (Tracks o) (handleObserved now item : Method E Unit) := by
  refine keeps_get.bind fun s => ?_
  cases s.roleFor _ with
  | none => exact keeps_pure ()
  | some role => exact tracks_handleObservation haccepted

/-- Every status an arrival stands for is one the run may rely on. -/
def Arrival.Taken (accepted : WorkerStatus → Prop) (arrival : Arrival) : Prop :=
  ∀ observation, channelObservation arrival.received = some observation → observation.Taken accepted

variable {arrival : Arrival}

theorem mem_prioritized {candidate : Option InstanceId} {observed : List Observed} :
    item ∈ prioritized candidate observed ↔ item ∈ observed := by
  simp only [prioritized, partition_eq_filter_filter, mem_append, mem_filter,
    Function.comp_apply]
  cases isCandidateActivation candidate item <;> simp

end exits

/-! ## Deadlines -/

section deadlines

theorem tracks_finishTerminalStates : Keeps (Tracks o) (finishTerminalStates : Method E Unit) := by
  refine keeps_get.bind fun s => ite (keeps_pure ()) ?_
  split
  · exact bind (keeps_modify (by exact fun _ h => h.step .close)) fun _ =>
      (stable_tracks o).keeps_pushEvent
  · exact bind (keeps_modify (by exact fun _ h => h.step .close)) fun _ =>
      (stable_tracks o).keeps_pushEvent
  · exact keeps_pure ()

theorem gather_items [Runtime E] {observed : List Observed}
    (h : gather now arrivals s = (.ok observed, s')) : ∀ item ∈ observed,
      (∃ status, item.observation = .exit status) ∨
        ∃ role, channelObservation (arrivals role).received = some item.observation := by
  obtain ⟨_, s₁, -, h⟩ := bind_eq_ok.mp h
  obtain ⟨_, s₂, -, h⟩ := bind_eq_ok.mp h
  obtain ⟨t, s₃, -, h⟩ := bind_eq_ok.mp h
  obtain ⟨unordered, s₄, hall, h⟩ := bind_eq_ok.mp h
  split at h
  · obtain rfl := Except.ok.inj (Prod.mk.inj h).1
    exact fun item hitem => observeAll_items hall item (mem_prioritized.mp hitem)
  · obtain rfl := Except.ok.inj (Prod.mk.inj h).1
    exact observeAll_items hall

variable [Runtime E] {I : Master E → Prop} {arrivals : WorkerRole → Arrival}

theorem Stable.keeps_handleExpiredRequest (hI : Stable I) :
    Keeps I (handleExpiredRequest now : Method E Unit) := by
  refine keeps_get.bind fun s => ?_
  split
  · exact keeps_pure ()
  · refine bind (hI.keeps_updateWorker _ (by intro; exact ⟨rfl, rfl, rfl⟩)) fun _ => ?_
    exact (hI.compensates nesting).handlePhaseFailure _ _ now

theorem Stable.keeps_handleWorkerTimeout (hI : Stable I) (now : Instant) :
    Keeps I (handleWorkerTimeout now : Method E Unit) := by
  refine keeps_get.bind fun s => ite ?_ hI.keeps_handleExpiredRequest
  refine keeps_workerId.bind fun id => hI.keeps_modify_failure.bind fun _ => ?_
  refine bind (hI.keeps_updateWorker _ (by intro; exact ⟨rfl, rfl, rfl⟩)) fun _ => ?_
  exact hI.keeps_applyReplacementEvent rfl now

theorem tracks_handleTimeout : Keeps (Tracks o) (handleTimeout now : Method E Unit) := by
  have hworker := (stable_tracks (E := E) o).keeps_handleWorkerTimeout now
  refine keeps_get.bind fun s => ite (keeps_pure ()) ?_
  split
  · refine ite ?_ hworker
    refine bind (keeps_modify fun t ht => ?_) fun _ =>
      (stable_tracks o).keeps_forceAll
    split
    · exact ht.step .close
    · exact (ht.push _).step .close
  · exact hworker

theorem tracks_gather : Keeps (Tracks o) (gather now arrivals : Method E (List Observed)) := by
  refine tracks_handleTimeout.bind fun _ => bind ?_ fun _ => ?_
  · refine keeps_get.bind fun s => ?_
    split
    · exact (stable_tracks o).keeps_failMaster
    · exact keeps_pure ()
  · refine keeps_get.bind fun s => (keeps_observeAll (stable_tracks o) _ _).bind fun _ => ?_
    exact (keeps_pure _).ite (keeps_pure _)

/-- A poll up to the point where its events are handed over. -/
def pollBody (now : Instant) (arrivals : WorkerRole → Arrival) : Method E Unit := do
  Prog.forEach (← gather now arrivals) (handleObserved now)
  finishTerminalStates

theorem poll_run : poll now arrivals s = match pollBody now arrivals s with
      | (.ok _, s') => (.ok s'.events, { s' with events := [] })
      | (.error error, s') => (.error error, s') := by
  unfold poll pollBody drainEvents
  simp only [bind_run]
  rcases (gather now arrivals : Method E _) s with ⟨e | observed, s₁⟩
  · rfl
  simp only
  rcases Prog.forEach observed _ s₁ with ⟨e | a, s₂⟩
  · rfl
  simp only
  rcases (finishTerminalStates : Method E Unit) s₂ with ⟨e | a, s₃⟩
  · rfl
  · rfl

/-- **A poll**, up to the point where its events are handed over, is a run of custody. -/
theorem tracks_poll (haccepted : ∀ role, (arrivals role).Taken o.accepted) (now : Instant) :
    Keeps (Tracks o) (pollBody now arrivals : Method E Unit) := by
  refine tracks_gather.bind_at fun observed s s₁ h hgather h₁ => ?_
  have htaken : ∀ item ∈ observed, item.observation.Taken o.accepted := by
    intro item hitem
    rcases gather_items hgather item hitem with ⟨status, hexit⟩ | ⟨role, hobs⟩
    · rw [hexit]
      exact fun _ h => Observation.noConfusion h
    · exact haccepted role _ hobs
  refine tracks_then ?_ tracks_finishTerminalStates
  exact forEach_mem (fun item hitem => tracks_handleObserved (htaken item hitem))
    s₁ h₁

end deadlines

/-! ## A replacement -/

section replacement

theorem tracks_spawn (h : Tracks o s) (hst : s.stage = .operational) (hs : s.supervisor = some sup)
    {sup' : Supervisor} {c : Instance} {acts : List ReplacementAction}
    (hstep : sup.Step (.begin c) acts sup') {generation : GenerationId} {process : UInt32} :
    Tracks o { s with
      supervisor := some sup'
      candidate := some (.new c.instanceId generation process) } := by
  unfold Supervisor.Step at hstep
  generalize hn : sup'.toReplacementSupervisor = next at hstep
  cases hstep with
  | begin hc hr ha hl hid hg =>
    have hspawn : Custody.Step o.accepted o.known s.custody _ :=
      .spawn (b := (ManagedWorker.new c.instanceId generation process).badge)
        (mode_operational hst hs) (by simp [ids, hc]) rfl
    refine h.step ?_
    convert hspawn using 1
    refine Custody.ext ?_ (funext fun role => ?_) rfl rfl rfl
    · have hids : sup'.ids = Function.update sup.ids .candidate (some c.instanceId) := by
        funext role
        cases role <;> simp [ids, hn]
      simp [custody, mode, hst, hids, ManagedWorker.badge, ManagedWorker.new]
    · cases role <;> simp [custody, worker]

theorem state_running (h : s.state? = some .running) :
    s.stage = .operational ∧ s.replacementPhase = some .running := by
  unfold state? at h
  cases hst : s.stage <;> rw [hst] at h
  case operational =>
    obtain ⟨phase, hp, hphase⟩ := map_eq_some_iff.mp h
    refine ⟨rfl, ?_⟩
    cases phase <;> first | exact hp | cases hphase
  all_goals cases h

variable [Runtime E]

/-- The three ways a candidate is or is not installed. -/
theorem installCandidate_cases (factory : Except String UInt32) (candidate : WorkerInput)
    (now : Instant) (s : Master E) :
    (∃ error, installCandidate factory candidate now s = (.error error, s)) ∨
    (∃ error event, installCandidate factory candidate now s = (.error error, s.push event)) ∨
    ∃ sup sup' process, s.supervisor = some sup ∧
      sup.Step (.begin ⟨candidate.instanceId, candidate.identity.generation, .spawned⟩)
        [.spawn ⟨candidate.instanceId, candidate.identity.generation, .spawned⟩] sup' ∧
      installCandidate factory candidate now s = (.ok (), { s with
          supervisor := some sup'
          candidate := some (.new candidate.instanceId candidate.identity.generation process) }.push
            (.replacementStarted candidate.instanceId)) := by
  unfold installCandidate
  simp only [bind_run, get_run]
  cases hs : s.supervisor with
  | none => exact .inl ⟨_, rfl⟩
  | some sup =>
    simp only [okOr_some, pure_run, ofExcept_run]
    rcases sup.apply_cases (.begin ⟨candidate.instanceId, candidate.identity.generation, .spawned⟩)
      with ⟨acts, sup', hstep, happly⟩ | ⟨error, happly⟩
    · have hacts : acts = [.spawn ⟨candidate.instanceId, candidate.identity.generation,
          .spawned⟩] := by
        unfold Supervisor.Step at hstep
        generalize sup'.toReplacementSupervisor = next at hstep
        cases hstep
        rfl
      subst hacts
      simp only [happly, Except.mapError, modify_run, Prog.attempt, actionRounds]
      cases factory with
      | ok process => exact .inr (.inr ⟨sup, sup', process, rfl, hstep, rfl⟩)
      | error reason =>
        have hrestored : { s with supervisor := some sup } = s := by rw [← hs]
        refine .inr (.inl ⟨.spawn reason, .spawnFailed candidate.instanceId, ?_⟩)
        exact congrArg (fun t : Master E =>
          ((.error _, t.push _) : Except _ Unit × Master E)) hrestored
    · rw [happly]
      exact .inl ⟨_, rfl⟩

/-- **A replacement request** is a run of custody. -/
theorem tracks_replace {factory : Except String UInt32} {candidate : WorkerInput} :
    Keeps (Tracks o) (replace factory candidate now : Method E Unit) := by
  refine keeps_get_bind fun s h => ?_
  split
  · exact h
  · rename_i hrunning
    obtain ⟨hst, -⟩ := state_running (not_not.mp hrunning)
    cases validateIdentity _ with
    | error error => exact h
    | ok _ =>
      have hrest : ∀ id, Keeps (Tracks o) (applyEvent (.candidateSpawned id) now >>= fun _ =>
          applyEvent (.candidateHandshakeComplete id) now : Method E Unit) := fun id =>
        ((stable_tracks o).keeps_applyReplacementEvent rfl now).bind fun _ =>
          (stable_tracks o).keeps_applyReplacementEvent rfl now
      rw [bind_ok ofExcept_run]
      refine tracks_then ?_ (hrest _)
      rcases installCandidate_cases factory candidate now s with
        ⟨error, hr⟩ | ⟨error, event, hr⟩ | ⟨sup, sup', process, hs, hstep, hr⟩ <;> rw [hr]
      · exact h
      · exact h.push event
      · exact (tracks_spawn h hst hs hstep).push _

end replacement

/-! ## Shutdown and launch -/

section shutdown

/-- The origin of a call made in the state `s`: the one exit known before is the deferred one. -/
def Origin.at (accepted : WorkerStatus → Prop) (s : Master E) : Origin where
  accepted := accepted
  known id := s.deferredActiveExit.isSome = true ∧ s.custody.ids .active = some id
  custody := s.custody

theorem tracks_start (accepted : WorkerStatus → Prop) (h : s.custody.Follows) :
    Tracks (Origin.at accepted s) s :=
  ⟨⟨h, fun hd _ hid => .inl ⟨hd, hid⟩⟩, .refl⟩

variable [Runtime E]

theorem tracks_shutdownRole {deadline : Instant} :
    Keeps (Tracks o) (shutdownRole deadline role : Method E Unit) := by
  refine keeps_get.bind fun s => ite ?_ (keeps_pure ())
  refine ((stable_tracks o).keeps_issueAtDeadline _ _).attempt.bind fun result => ?_
  cases result with
  | ok _ => exact (stable_tracks o).keeps_markTerminating _
  | error error =>
    refine ite ?_ keeps_throw
    refine ((stable_tracks o).keeps_recordIssueFailure _ _).bind fun _ =>
      ((stable_tracks o).keeps_forceRole role).bind fun _ => keeps_modify fun t ht => ?_
    split
    · exact ht.step .close
    · exact ht

theorem tracks_startShutdown : Keeps (Tracks o) (startShutdown now : Method E Unit) := by
  refine keeps_get_bind fun s h => ?_
  cases hd : deadlineAfter now _ with
  | none => exact h
  | some deadline =>
    have hrest : Keeps (Tracks o) (pushEvent .shutdownStarted >>= fun _ =>
        Prog.forEach WorkerRole.all (shutdownRole deadline) : Method E Unit) :=
      ((stable_tracks o).keeps_pushEvent).bind fun _ =>
        forEach (fun _ => tracks_shutdownRole) _
    -- the slot is emptied while the master still operates; custody closes first
    have hclosed : Tracks o { s with
        stage := .shuttingDown deadline false
        supervisor := none
        replacementFailure := none } := h.step .close
    simp only [okOr_some, reapDeferredExit, bind_run, pure_run, get_run]
    by_cases hdef : s.deferredActiveExit.isSome = true
    · simp only [if_pos hdef, modify_run]
      exact hrest _ (hclosed.reapDeferred rfl hdef)
    · simp only [if_neg hdef, pure_run, modify_run]
      exact hrest _ hclosed

theorem tracks_shutdown : Keeps (Tracks o) (shutdown now : Method E ShutdownProgress) := by
  refine bind ?_ fun _ => tracks_handleTimeout.bind fun _ =>
    keeps_get.bind fun _ => keeps_pure _
  refine keeps_get.bind fun s => ?_
  split
  · exact keeps_pure ()
  · exact keeps_pure ()
  · exact tracks_startShutdown

/-- **A launched master** has come from its first state by a run of custody. -/
theorem tracks_launch {config : MasterConfig} {listeners : Unix.DescriptorManifest} {executor : E}
    {factory : Except String UInt32} {active : WorkerInput} (accepted : WorkerStatus → Prop)
    (h : launch config listeners executor factory active now = .ok s) :
    ∃ process, Tracks (Origin.at accepted (booting config listeners executor active process))
      s := by
  obtain ⟨process, a, h⟩ := launch_eq_ok h
  have hkeeps := ((stable_tracks _).compensates nesting).orCompensate
    ((stable_tracks _).keeps_issueAdoption .active now) .active .adoptListeners
    .listenerAdoption now (booting config listeners executor active process)
    (tracks_start accepted ⟨rfl, rfl, rfl⟩)
  rw [h] at hkeeps
  exact ⟨process, hkeeps⟩

end shutdown

/-! ## Runs -/

section runs

variable [Runtime E]

/-- Every status that arrives with a call is one the run may rely on. -/
def Call.Taken (accepted : WorkerStatus → Prop) : Call E → Prop
  | .poll _ arrivals => ∀ role, (arrivals role).Taken accepted
  | _ => True

/-- The events of a call: those it hands over and those it leaves in the queue. -/
def emitted (outcome : Except MasterError (List MasterEvent) × Master E) : List MasterEvent :=
  (match outcome.1 with
    | .ok events => events
    | .error _ => []) ++ outcome.2.events

/-- **A call** is a run of custody to a state from which only reported events are taken away. -/
theorem tracks_perform {call : Call E} (hcall : call.Taken o.accepted) (h : Tracks o s) :
    ∃ s', Tracks o s' ∧ s'.events = emitted (perform call s) ∧
      (perform call s).2 = { s' with events := (perform call s).2.events } := by
  have hsilent : ∀ {α : Type} {x : Method E α}, Keeps (Tracks o) x → ∃ s', Tracks o s' ∧
        s'.events = emitted ((x >>= fun _ => pure [] : Method E (List MasterEvent)) s) ∧
        ((x >>= fun _ => pure [] : Method E (List MasterEvent)) s).2 = { s' with
          events := ((x >>= fun _ => pure [] : Method E (List MasterEvent)) s).2.events } := by
    intro α x hx
    have h' := hx s h
    rw [bind_run]
    rcases hr : x s with ⟨e | a, s'⟩ <;> rw [hr] at h'
    · exact ⟨s', h', rfl, rfl⟩
    · exact ⟨s', h', rfl, rfl⟩
  cases call with
  | replace factory candidate now => exact hsilent tracks_replace
  | shutdown now => exact hsilent tracks_shutdown
  | adjustExecutor executor =>
    exact hsilent (keeps_modify (by exact fun _ h => h.congr rfl))
  | poll now arrivals =>
    have hbody := tracks_poll hcall now s h
    unfold perform
    rw [poll_run]
    rcases hr : pollBody now arrivals s with ⟨e | a, s'⟩ <;> rw [hr] at hbody
    · exact ⟨s', hbody, rfl, rfl⟩
    · exact ⟨s', hbody, (append_nil _).symm, rfl⟩

end runs

end Oxiroute.Master
