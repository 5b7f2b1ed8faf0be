import Oxiroute.Master.Reactions

/-!
# Polls and calls end well

What a round of the master does beyond one report: missed deadlines, the batch of observations of a
poll, and the calls that start and stop workers. From a state that satisfies the invariant, on a
system that carries out kills, a round ends in a state that satisfies it, and a poll returns no
other error than the one of a process that cannot be observed.

* `handleTimeout_ends`: missed deadlines.
* `Along`: what a batch of observations needs at each of its items, as it is handled.
* `forEach_handled`, `forEach_spared`: the handling loop of a poll.
* `replace_post`, `shutdown_tight`, `launch_post`: the other calls.
-/

namespace Oxiroute.Master

open Lib Lib.Prog Supervision Supervisor Ends List Option

variable {E : Type}

/-! ## Observations -/

section observations

variable [Runtime E] {s s' : Master E} {role : WorkerRole} {w : ManagedWorker} {now : Instant}

/-- The master cannot handle the observation: the exit of a stranded candidate. -/
def Strands (s : Master E) (role : WorkerRole) : Observation → Prop
  | .exit _ => s.Stranded role
  | _ => False

/-- What the master bears: statuses and acceptances of the active worker, everything but a malformed
frame of a candidate that has been asked to stop, and everything of the retired worker. -/
def Calm (s : Master E) : WorkerRole → Observation → Prop
  | .active, .ack ack => s.Answers .active ack → ack.outcome = .accepted
  | .active, .status _ => True
  | .active, _ => False
  | .candidate, .protocolFailure => ∀ w ∈ s.candidate, w.state = .running
  | _, _ => True

/-- **An observation** is handled, unless it strands the master. -/
theorem handleObservation_ends (hkill : KillsSucceed E) (h : s.Tight) (hw : s.worker role = some w)
    {observation : Observation} (hstrands : ¬ s.Strands role observation) :
    Ends (handleObservation role observation now) s fun _ s' =>
      Post (s.Calm role observation) s s' := by
  cases observation with
  | ack ack =>
    refine (handleAck_ends hkill h hw).mono fun _ _ hp => hp.mono fun hcalm hr => ?_
    subst hr
    exact hcalm
  | status status =>
    exact (handleStatus_ends h hw).mono fun _ _ hp => hp.mono fun _ => trivial
  | exit status =>
    refine (handleExit_ends hkill h hw hstrands).mono fun _ _ hp => hp.mono fun hcalm hr => ?_
    subst hr
    exact hcalm
  | disconnected =>
    refine (handleDisconnect_ends hkill h hw).mono fun _ _ hp => hp.mono fun hcalm hr => ?_
    subst hr
    exact hcalm
  | protocolFailure =>
    refine (handlePhaseFailure_ends hkill h hw).mono fun _ _ hp =>
      hp.weaken fun hcalm hs => ?_
    cases role with
    | active => exact hcalm.elim
    | retired => trivial
    | candidate =>
      refine h.bearable hw (by decide) ?_ hs
      rw [hcalm w hw]
      exact WorkerState.noConfusion

/-- An item of a batch, as it is handled: it does not strand the master. -/
def Bears (s : Master E) (item : Observed) : Prop :=
  ∀ role ∈ s.roleFor item.instanceId, ¬ s.Strands role item.observation

theorem handleObserved_ends (hkill : KillsSucceed E) (h : s.Tight) {item : Observed}
    (hbears : s.Bears item) : Ends (handleObserved now item) s fun _ s' =>
      Post (∀ role ∈ s.roleFor item.instanceId, s.Calm role item.observation) s s' := by
  refine of_eq ?_ (bind_ok (get_run s))
  cases hr : s.roleFor _ with
  | none => exact ends_pure (.refl h)
  | some role =>
    obtain ⟨w, hw, -⟩ := roleFor_some hr
    exact (handleObservation_ends hkill h hw (hbears role hr)).mono fun _ _ hp =>
      hp.mono fun hcalm => hcalm role rfl

end observations

/-! ## Deadlines -/

section deadlines

variable {s s' : Master E} {role : WorkerRole} {w : ManagedWorker} {sup : Supervisor}
  {now : Instant}

theorem Within.roleFor (h : s.Within) (hs : s.supervisor = some sup) (hw : s.worker role = some w) :
    s.roleFor w.instanceId = some role := by
  cases hr : s.roleFor _ with
  | none =>
    have hnone := find?_eq_none.mp hr role (by cases role <;> simp [WorkerRole.all])
    exact absurd hnone (by simp [hw])
  | some role' =>
    obtain ⟨w', hw', hid⟩ := roleFor_some hr
    have hids := h role' w' sup hw' hs
    rw [hid] at hids
    rw [Supervisor.ids_inj hids (h role w sup hw hs)]

theorem missedDeadline_some {p : Pending} (h : s.missedDeadline now role = some p) :
    ∃ w, s.worker role = some w ∧ w.pending = some p := by
  obtain ⟨hbind, -⟩ := filter_eq_some_iff.mp h
  exact bind_eq_some_iff.mp hbind

theorem Tight.forced_retired (h : s.Tight) (hs : s.supervisor = some sup)
    (hf : Forced .retired s s') :
    s'.Tight := by
  have hst := hf.same.stage
  unfold Tight at h
  cases hstage : s.stage with
  | bootAdopting | bootActivating | shuttingDown _ _ =>
    rw [hstage] at h
    cases h.supervisor.symm.trans hs
  | operational =>
    rw [hstage] at h
    obtain ⟨sup', h⟩ := h
    exact tight_operating (h.forced hf (fun _ _ => trivial) (by simp))
  | failing phase =>
    rw [hstage] at h
    exact tight_closing ⟨phase, hst.trans hstage⟩ (h.forced hf)
  | stopped _ | failed =>
    rw [hstage] at h
    unfold Tight
    rw [hst, hstage]
    intro role
    have hid := hf.ids role
    rw [h role] at hid
    exact map_eq_none_iff.mp hid

theorem Tight.within (h : s.Tight) : s.Within := by
  unfold Tight at h
  cases hst : s.stage <;> rw [hst] at h
  case bootAdopting => exact h.within
  case bootActivating => exact h.within
  case operational =>
    obtain ⟨sup, h⟩ := h
    exact h.within
  case failing => exact h.within
  case shuttingDown =>
    intro role w sup _ hs
    cases h.supervisor.symm.trans hs
  all_goals exact fun role w _ hw => absurd ((h role).symm.trans hw) (by simp)

theorem Tight.quelled (h : s.Tight) (hw : s.worker role = some w) : w.Quelled := by
  unfold Tight at h
  cases hst : s.stage <;> rw [hst] at h
  case bootAdopting => exact (h.worker hw).2.1.quelled
  case bootActivating => exact (h.worker hw).2.1.quelled
  case operational =>
    obtain ⟨sup, h⟩ := h
    exact h.quelled role w hw
  case failing => exact fun _ => (h.killed role w hw).2
  case shuttingDown => exact h.quelled role w hw
  all_goals cases (h role).symm.trans hw

variable [Runtime E]

variable (hkill : KillsSucceed E)
include hkill

theorem handleExpiredRequest_ends (h : s.Tight) : Ends (handleExpiredRequest now) s fun _ s' =>
      Post (s.missedDeadline now .active = none) s s' := by
  refine of_eq ?_ (bind_ok (get_run s))
  split
  · exact ends_pure (.refl h)
  · rename_i role p hfind
    obtain ⟨role', -, hmap⟩ := exists_of_findSome?_eq_some hfind
    obtain ⟨p', hmissed, heq⟩ := map_eq_some_iff.mp hmap
    obtain ⟨rfl, rfl⟩ := Prod.mk.inj heq
    obtain ⟨w, hw, hp⟩ := missedDeadline_some hmissed
    have ht : (s.setWorker role' (some { w with pending := none })).Tight :=
      h.setWorker hw ⟨rfl, rfl, rfl, .inr rfl⟩
    have hw' : (s.setWorker role' (some { w with pending := none })).worker role' =
        some { w with pending := none } := by rw [setWorker_worker, if_pos rfl]
    refine of_eq ?_ (bind_ok (updateWorker_run hw))
    refine (handlePhaseFailure_ends hkill ht hw').mono fun _ _ hpost =>
      (hpost.weaken fun hcalm hs => ?_).after_setWorker
    have hexpects :
      (s.setWorker role' (some { w with pending := none })).Expects role' p'.phase := by
      have := h.expects hw hp
      unfold Expects at this ⊢
      rwa [setWorker_stage, setWorker_supervisor]
    refine hexpects.bearable (fun hr => ?_) hs
    rw [hr, hcalm] at hmissed
    cases hmissed

theorem retiredTimedOut_ends (h : s.Tight) (hphase : s.replacementPhase = some .stoppingRetired)
    (hw : s.worker .retired = some w) : Ends (do
      let retired ← workerId .retired
      Prog.modify ({ · with replacementFailure := some .shutdown })
      updateWorker .retired ({ · with terminationDeadline := none })
      applyEvent (.terminationTimedOut retired) now : Method E Unit) s fun _ s' =>
        Post True s s' := by
  obtain ⟨sup, hs, hsup⟩ := map_eq_some_iff.mp hphase
  obtain ⟨r, hr, hid⟩ := Supervisor.retired_of_ids (h.within .retired w sup hw hs)
  have hl : r.lifecycle = .stopping := by
    have hview := sup.view
    rw [hsup] at hview
    cases hview with
    | stoppingRetired hr' hl => exact Option.some.inj (hr'.symm.trans hr) ▸ hl
  have hfailure : { s with replacementFailure := some .shutdown }.Tight :=
    h.congr rfl rfl rfl fun role => by cases role <;> rfl
  have hw' : { s with replacementFailure := some .shutdown }.worker .retired = some w := hw
  have ht : ({ s with replacementFailure := some .shutdown }.setWorker .retired
      (some { w with terminationDeadline := none })).Tight :=
    hfailure.setWorker hw' ⟨rfl, rfl, rfl, .inl rfl⟩
  have hworker : ({ s with replacementFailure := some .shutdown }.setWorker .retired
      (some { w with terminationDeadline := none })).worker .retired =
        some { w with terminationDeadline := none } := by rw [setWorker_worker, if_pos rfl]
  refine of_eq ?_ (bind_ok (workerId_run hw))
  rw [← hid]
  refine of_eq ?_ (bind_ok modify_run)
  refine of_eq ?_ (bind_ok (updateWorker_run hw'))
  have hrole : ({ s with replacementFailure := some .shutdown }.setWorker .retired
      (some { w with terminationDeadline := none })).roleFor r.instanceId = some .retired :=
    hid.trans (show w.instanceId = ({ w with terminationDeadline := none } :
      ManagedWorker).instanceId from rfl) ▸ ht.within.roleFor (by exact hs) hworker
  exact (terminationTimedOut_ends hkill (by exact hs)
    hr hl hrole hworker (ht.quelled hworker)).mono fun _ s' hf =>
      ⟨ht.forced_retired (by exact hs) hf, hf.events, fun _ hserving =>
      .inl ⟨hf.same.stage ▸ hserving.stage, hf.same.deferred.trans hserving.deferred⟩⟩

theorem handleWorkerTimeout_ends (h : s.Tight) : Ends (handleWorkerTimeout now) s fun _ s' =>
      Post (s.missedDeadline now .active = none) s s' := by
  refine of_eq ?_ (bind_ok (get_run s))
  split
  · rename_i hdeadline
    obtain ⟨deadline, hbind, -⟩ := (any_eq_true _ _).mp hdeadline.2
    obtain ⟨w, hw, -⟩ := bind_eq_some_iff.mp hbind
    exact (retiredTimedOut_ends hkill h hdeadline.1 hw).mono fun _ _ hp => hp.mono fun _ => trivial
  · exact handleExpiredRequest_ends hkill h

theorem expireShutdown_ends {deadline deadline' : Instant} {forced forced' : Bool}
    (hst : s.stage = .shuttingDown deadline' forced') (h : s.ShuttingDown) :
    Ends (expireShutdown deadline forced) s fun _ s' => Post True s s' := by
  generalize ht : ({ if forced then s else s.push .shutdownForced with
    stage := .shuttingDown deadline true } : Master E) = t
  have hworker : ∀ role, t.worker role = s.worker role := by
    intro role
    rw [← ht]
    cases forced <;> cases role <;> rfl
  have hsup : t.supervisor = s.supervisor := by
    rw [← ht]
    cases forced <;> rfl
  have hevents : s.events <+: t.events := by
    rw [← ht]
    cases forced
    · exact prefix_append _ _
    · exact prefix_refl _
  have hstage : t.stage = .shuttingDown deadline true := by rw [← ht]
  have hdown : t.ShuttingDown := h.congr hsup hworker
  refine of_eq (t := t) (y := forceAll) ?_ (by rw [← ht]; rfl)
  refine (forceAll_ends hkill hdown.quelled).mono fun _ s' hf => ⟨?_, hevents.trans hf.events,
    fun _ hs => absurd hs (not_serving (by rw [hst]; rfl))⟩
  unfold Tight
  rw [hf.same.stage, hstage]
  refine ⟨hf.same.supervisor.trans hdown.supervisor, fun role w p hw hp =>
    ?_, fun role w hw _ => ?_⟩
  · cases (hf.killed role w hw).2.symm.trans hp
  · exact (hf.killed role w hw).2

/-- **Missed deadlines** are handled in every stage. -/
theorem handleTimeout_ends (h : s.Tight) : Ends (handleTimeout now) s fun _ s' =>
      Post (s.missedDeadline now .active = none) s s' := by
  refine of_eq ?_ (bind_ok (get_run s))
  split
  · exact ends_pure (.refl h)
  · split
    · rename_i deadline forced hst
      split
      · unfold Tight at h
        rw [hst] at h
        exact (expireShutdown_ends hkill hst h).mono fun _ _ hp => hp.mono fun _ => trivial
      · exact handleWorkerTimeout_ends hkill h
    · exact handleWorkerTimeout_ends hkill h

theorem retryFailing_ends (h : s.Tight) : Ends retryFailing s fun _ s' => Post True s s' := by
  refine of_eq ?_ (bind_ok (get_run s))
  split
  · rename_i phase hst
    have hclosing := h.closing hst
    exact post_failMaster hkill (by rw [hst]; exact Stage.noConfusion) hclosing.within
      (fun _ _ hw _ => (hclosing.killed _ _ hw).2) (fun _ => not_serving (by rw [hst]; rfl)) phase
  · exact ends_pure (.refl h)

end deadlines

/-! ## Polls -/

section polls

variable {s s' : Master E} {now : Instant}

/-- What a poll ends in: the only errors are those of a process that cannot be observed. -/
def Survived {α : Type} (Q : Master E → Prop) (result : Except MasterError α) (s' : Master E) :
    Prop :=
  Q s' ∧ ∀ error, result = .error error → ∃ source, error = .io source

variable {α : Type} {Q : Master E → Prop} {items : List Observed}

theorem Survived.ok {a : α} (h : Q s') : Survived Q (.ok a) s' :=
  ⟨h, by simp⟩

theorem Survived.forget {β : Type} {Q' : Master E → Prop} {error : MasterError}
    (h : Survived Q (.error error : Except MasterError α) s') (hq : Q s' → Q' s') :
    Survived Q' (.error error : Except MasterError β) s' :=
  ⟨hq h.1, fun _ he => h.2 _ (congrArg Except.error (Except.error.inj he))⟩

/-- Looking at a worker changes whether its channel is open, and nothing else. -/
theorem observe_survives (h : s.Tight) {role : WorkerRole} {arrival : Arrival} :
    wp (observe role arrival) (Survived (Post True s)) s := by
  refine wp_get_bind ?_
  split
  · exact wp_pure (.ok (.refl h))
  · split
    · exact wp_pure (.ok (.refl h))
    · rename_i w hw
      cases arrival.event with
      | error source => exact ⟨.refl h, fun error he => ⟨source, (Except.error.inj he).symm⟩⟩
      | ok event =>
        cases event with
        | some status => exact wp_pure (.ok (.refl h))
        | none =>
          have hclose : Ends (closeChannel role (channelObservation arrival.received)) s
              fun _ s' => Post True s s' := by
            unfold closeChannel
            split
            · have hclosed : (s.setWorker role (some { w with channelOpen := false })).Tight :=
                h.setWorker hw ⟨rfl, rfl, rfl, .inl rfl⟩
              exact ⟨(), _, updateWorker_run hw, (Post.refl hclosed).after_setWorker⟩
            · exact ends_pure (.refl h)
          split
          · refine wp (hclose.bind fun _ s' hp => ends_pure hp) fun _ _ hp => .ok hp
          · exact wp_pure (.ok (.refl h))

variable {arrivals : WorkerRole → Arrival}

theorem observeAll_survives (h : s.Tight) :
    ∀ roles, wp (observeAll arrivals roles) (Survived (Post True s)) s := by
  intro roles
  induction roles generalizing s with
  | nil => exact wp_pure (.ok (.refl h))
  | cons role roles ih =>
    refine wp_bind (observe_survives h) (fun first s₁ h₁ => ?_) fun error s₁ h₁ => h₁.forget id
    refine wp_bind (ih h₁.1.tight) (fun rest s₂ h₂ => ?_) fun error s₂ h₂ => h₂.forget h₁.1.trans
    exact wp_pure (.ok (h₁.1.trans h₂.1))

variable [Runtime E]

theorem gather_survives (hkill : KillsSucceed E) (h : s.Tight) :
    wp (gather now arrivals) (Survived (Post (s.missedDeadline now .active = none) s)) s := by
  refine wp_bind ((handleTimeout_ends hkill h).wp (R := Survived _) fun _ _ hp => .ok hp)
    (fun _ s₁ h₁ => ?_) fun _ _ h₁ => h₁.forget id
  have hto : ∀ {s'}, Post True s₁ s' → Post (s.missedDeadline now .active = none) s s' :=
    fun hp => h₁.1.trans (hp.mono fun _ => trivial)
  refine wp_bind ((retryFailing_ends hkill h₁.1.tight).wp (R := Survived _) fun _ _ hp => .ok hp)
    (fun _ s₂ h₂ => ?_) fun _ _ h₂ => h₂.forget hto
  refine wp_get_bind ?_
  refine wp_bind (observeAll_survives h₂.1.tight _) (fun observed s₃ h₃ => ?_)
    fun _ _ h₃ => h₃.forget fun hp => hto (h₂.1.trans hp)
  have hpost := hto (h₂.1.trans h₃.1)
  split <;> exact wp_pure (.ok hpost)

/-- Every item of a batch satisfies `P` in the state in which it is handled. -/
def Along (P : Master E → Observed → Prop) (now : Instant) : Master E → List Observed → Prop
  | _, [] => True
  | s, item :: items => P s item ∧ Along P now (handleObserved now item s).2 items

/-- A batch that strands nobody is handled to its end. -/
theorem forEach_handled (hkill : KillsSucceed E) (h : s.Tight) (hbears : Along Bears now s items) :
    Ends (Prog.forEach items (handleObserved now)) s fun _ s' => s'.Tight := by
  induction items generalizing s with
  | nil => exact ends_pure h
  | cons item items ih =>
    refine (handleObserved_ends hkill h hbears.1).bind_at fun a s₁ hr hp => ?_
    have hrest := hbears.2
    rw [hr] at hrest
    exact ih hp.tight hrest

/-- An item that a serving master bears: it is calm, and no request to the active worker failed. -/
def Spares (now : Instant) (s : Master E) (item : Observed) : Prop :=
  (∀ role ∈ s.roleFor item.instanceId, s.Calm role item.observation) ∧
    ¬ (handleObserved now item s).2.Blamed

omit [Runtime E] in
theorem Serving.bears (h : s.Serving) {item : Observed} : s.Bears item := by
  intro role _ hstrands
  unfold Strands at hstrands
  split at hstrands
  · obtain ⟨-, -, -, hdeferred⟩ := hstrands
    rw [h.deferred] at hdeferred
    cases hdeferred
  · exact hstrands

/-- **A serving master** goes on serving along a batch that it bears. -/
theorem forEach_spared (hkill : KillsSucceed E) (h : s.Tight) (hserving : s.Serving)
    (hspares : Along (Spares now) now s items) :
    Ends (Prog.forEach items (handleObserved now)) s fun _ s' => s'.Tight ∧ s'.Serving := by
  induction items generalizing s with
  | nil => exact ends_pure ⟨h, hserving⟩
  | cons item items ih =>
    refine (handleObserved_ends hkill h hserving.bears).bind_at fun a s₁ hr hp => ?_
    obtain ⟨⟨hcalm, hblamed⟩, hrest⟩ := hspares
    rw [hr] at hrest hblamed
    exact ih hp.tight ((hp.serving hcalm hserving).resolve_right hblamed) hrest

omit [Runtime E] in
theorem workerCount_eq_zero (h : s.workerCount = 0) (role : WorkerRole) : s.worker role = none := by
  have hnil := length_eq_zero_iff.mp h
  have hnone := filterMap_eq_nil_iff.mp hnil role (by cases role <;> simp [WorkerRole.all])
  exact hnone

omit [Runtime E] in
theorem finishTerminalStates_ends (h : s.Tight) :
    Ends finishTerminalStates s fun _ s' => s'.Tight ∧ (s.Serving → s'.Serving) := by
  refine of_eq ?_ (bind_ok (get_run s))
  split
  · exact ends_pure ⟨h, id⟩
  · rename_i hcount
    have hnone := workerCount_eq_zero (not_not.mp hcount)
    split
    · rename_i deadline forced hst
      refine ⟨(), _, rfl, fun role => ?_, fun hs => absurd hs (not_serving (by rw [hst]; rfl))⟩
      rw [← hnone role]
      cases role <;> rfl
    · rename_i phase hst
      refine ⟨(), _, rfl, fun role => ?_, fun hs => absurd hs (not_serving (by rw [hst]; rfl))⟩
      rw [← hnone role]
      cases role <;> rfl
    · exact ends_pure ⟨h, id⟩

end polls

/-! ## Calls -/

section calls

variable {s s' : Master E} {role : WorkerRole} {w : ManagedWorker} {sup : Supervisor}
  {now : Instant} {c : Instance} {waiting : List WorkerRole}

theorem Operating.spawn (h : s.Operating sup []) (hd : s.deferredActiveExit = none)
    {acts : List ReplacementAction} {sup' : Supervisor} (hstep : sup.Step (.begin c) acts sup')
    {generation : GenerationId} {process : UInt32} : { s with
      supervisor := some sup'
      candidate := some (.new c.instanceId generation process) }.Operating sup' [] ∧
    sup'.candidate = some c ∧ c.lifecycle = .spawned := by
  unfold Supervisor.Step at hstep
  generalize hn : sup'.toReplacementSupervisor = next at hstep
  cases hstep with
  | begin hc hr ha hl hid hg =>
    refine ⟨⟨h.stage, rfl, fun role => ?_, fun role w hw => ?_, fun role w hw _ =>
      ?_, by simp [hd]⟩,
      rfl, hl⟩
    · have := h.mirror role
      cases role <;> simp_all [worker, ids, ManagedWorker.new]
    · cases role with
      | active => exact h.quelled .active w hw
      | retired => exact h.quelled .retired w hw
      | candidate =>
        cases hw
        exact fun _ => rfl
    · cases role with
      | active =>
        have hw : s.worker .active = some w := hw
        have hidle : w.pending = none := by
          refine h.pending_none hw not_mem_nil fun phase => ?_
          cases phase <;> simp [awaits, hc, ha]
        exact .idle hidle (h.settled .active w hw not_mem_nil).stands
      | retired =>
        have hnone : s.worker .retired = none := h.worker_none (by simp [ids, hr])
        cases hnone.symm.trans hw
      | candidate =>
        cases hw
        refine .idle rfl ?_
        simp [Supervisor.Stands, dropsCandidate, hn, hl, ManagedWorker.new]
        exact ⟨rfl, rfl⟩

/-- A master that shuts down, with the workers in `waiting` still to be asked. -/
structure Stopping (s : Master E) (waiting : List WorkerRole) : Prop where
  stage : ∃ deadline forced, s.stage = .shuttingDown deadline forced
  supervisor : s.supervisor = none
  asked : ∀ role w p, s.worker role = some w → w.pending = some p → role ∉ waiting →
    p.phase = .shutdown
  quelled : ∀ role w, s.worker role = some w → w.Quelled

theorem Stopping.change (h : s.Stopping (role :: waiting))
    (hst : ∃ deadline forced, s'.stage = .shuttingDown deadline forced)
    (hs : s'.supervisor = s.supervisor)
    (hother : ∀ role', role' ≠ role → s'.worker role' = s.worker role')
    (hasked : ∀ w p, s'.worker role = some w → w.pending = some p → p.phase = .shutdown)
    (hquelled : ∀ w, s'.worker role = some w → w.Quelled) : s'.Stopping waiting where
  stage := hst
  supervisor := hs.trans h.supervisor
  asked role' w p hw hp hn := by
    by_cases hr : role' = role
    · subst hr
      exact hasked w p hw hp
    · exact h.asked role' w p (hother role' hr ▸ hw) hp (by simp [hr, hn])
  quelled role' w hw := by
    by_cases hr : role' = role
    · subst hr
      exact hquelled w hw
    · exact h.quelled role' w (hother role' hr ▸ hw)

variable [Runtime E]

theorem candidateSpawned_ends (h : s.Operating sup []) (hc : sup.candidate = some c)
    (hl : c.lifecycle = .spawned) {depth : ℕ} :
    Ends (applyReplacementEvent (depth + 1) (.candidateSpawned c.instanceId) now) s fun _ s' =>
      ∃ sup', s' = { s with supervisor := some sup' } ∧ s'.Operating sup' [] ∧
        sup'.candidate = some (c.at .handshaking) := by
  have ha : sup.active.lifecycle = .active := by
    have := sup.wellFormed.beside c hc
    rwa [hl] at this
  have hstep := ReplacementSupervisor.Step.candidateSpawned hc hl
  refine ⟨(), _, (applyReplacementEvent_step h.supervisor
    (show sup.Step _ [] (sup.past hstep) from hstep)).trans
      executeReplacementActions_nil, sup.past hstep, rfl, ?_, rfl⟩
  refine h.advance_idle ?_ (h.idle_beside hc (fun w hw => ?_) fun w hw => ?_) ?_ (h.not_deferred ?_)
  · funext role
    cases role <;> simp [ids, past, hc]
  · refine h.pending_none hw not_mem_nil fun phase => ?_
    cases phase <;> simp [awaits, hc, hl, ha]
  · refine h.pending_none hw not_mem_nil fun phase => ?_
    cases phase <;> simp [awaits, hc, hl]
  · simp [dropsCandidate, past, hc, hl]
  · rw [Supervisor.phase_candidate hc, hl]
    decide

variable {factory : Except String UInt32}

variable (hkill : KillsSucceed E)
include hkill

/-- **A replacement request** leaves the master as it was, or installs a candidate and asks it to
adopt the listeners. -/
theorem replace_post (h : s.Tight) {candidate : WorkerInput} :
    wp (replace factory candidate now) (fun _ s' => Post True s s') s := by
  refine wp_get_bind ?_
  split
  · exact wp_throw (.refl h)
  rename_i hrunning
  obtain ⟨hst, hphase⟩ := state_running (not_not.mp hrunning)
  obtain ⟨sup, hop⟩ := h.operating hst
  have hd : s.deferredActiveExit = none := hop.not_deferred (by
    rw [Option.some.inj (hop.phase.symm.trans hphase)]
    decide)
  refine wp_bind (wp_ofExcept (Q := fun _ s' => s' = s) rfl) (fun _ s₀ hs => ?_)
    fun _ s₀ hs => by rw [hs]; exact .refl h
  subst hs
  rcases installCandidate_cases factory candidate now s₀ with
    ⟨error, hr⟩ | ⟨error, event, hr⟩ | ⟨sup₁, sup', process, hs, hstep, hr⟩
  · refine wp_bind (wp_of_run (Q := fun r s' => r = .error error ∧ s' = s₀) hr ⟨rfl, rfl⟩)
      (fun _ _ hs => absurd hs.1 (by simp)) fun _ s' hs => by rw [hs.2]; exact .refl h
  · refine wp_bind (wp_of_run
      (Q := fun r s' => r = .error error ∧ s' = s₀.push event) hr ⟨rfl, rfl⟩)
      (fun _ _ hs => absurd hs.1 (by simp)) fun _ s' hs => ?_
    rw [hs.2]
    exact (Post.refl (h.push event)).after_push
  · cases hop.supervisor.symm.trans hs
    obtain ⟨hspawned, hc, hl⟩ := hop.spawn hd hstep
    have hinstalled := hspawned.push (.replacementStarted candidate.instanceId)
    refine wp (of_eq ?_ (bind_ok hr)) fun _ _ hp => hp
    refine (candidateSpawned_ends hinstalled hc rfl).bind fun _ s₁ h₁ => ?_
    obtain ⟨sup₁, rfl, hop₁, hc₁⟩ := h₁
    exact (candidateHandshakeComplete_ends hkill hop₁ hc₁ rfl).mono fun _ _ hp =>
      (hp.after_supervisor.after_push).after (prefix_refl _) fun hs => ⟨hs.stage, hs.deferred⟩

theorem shutdownRole_ends (h : s.Stopping (role :: waiting)) {deadline : Instant} :
    Ends (shutdownRole deadline role) s fun _ s' => s'.Stopping waiting := by
  obtain ⟨deadline', forced, hst⟩ := h.stage
  refine of_eq ?_ (bind_ok (get_run s))
  cases hw : s.worker role with
  | none =>
    refine ends_pure (h.change ⟨deadline', forced, hst⟩ rfl (fun _ _ => rfl) ?_ ?_)
    · intro w p hw' _
      cases hw.symm.trans hw'
    · intro w hw'
      cases hw.symm.trans hw'
  | some w =>
    obtain ⟨executor, n, ⟨a, p, hrun, hp⟩ | ⟨error, hrun, hissue⟩⟩ :=
      issues_issueAtDeadline s w hw
    · have hw' : ((s.touch executor n).setWorker role (some (w.awaiting p))).worker role =
          some (w.awaiting p) := by rw [setWorker_worker, if_pos rfl]
      refine of_eq ?_ (bind_ok (attempt_run hrun))
      refine ⟨(), _, markTerminating_run hw', h.change ⟨deadline', forced, ?_⟩ ?_
        (fun role' hne => ?_) (fun w' p' hw' hp' => ?_) fun w' hw' => ?_⟩
      · exact (setWorker_stage ..).trans ((setWorker_stage ..).trans hst)
      · exact (setWorker_supervisor ..).trans (setWorker_supervisor ..)
      · rw [push_worker, setWorker_worker, if_neg hne, setWorker_worker, if_neg hne, touch_worker]
      · rw [push_worker, setWorker_worker, if_pos rfl] at hw'
        cases hw'
        cases hp'
        exact hp
      · rw [push_worker, setWorker_worker, if_pos rfl] at hw'
        cases hw'
        exact fun hs => absurd hs (by simp)
    · obtain ⟨event, -, hrecord⟩ := recordIssueFailure_run hissue role .shutdown
      have hw' : ((s.touch executor n).push event).worker role = some w := by
        rw [push_worker, touch_worker, hw]
      refine of_eq ?_ (bind_ok (attempt_run hrun))
      simp only [hissue, if_true]
      refine of_eq ?_ (bind_ok (hrecord _))
      refine (forceRole_ends hkill hw' (h.quelled role w hw)).bind fun _ s₁ hf => ?_
      have hst₁ := hf.same.stage.trans hst
      refine ⟨(), _, modify_run, ?_⟩
      simp only [hst₁]
      refine h.change ⟨deadline', true, rfl⟩ hf.same.supervisor (fun role' hne => ?_)
        (fun w' p' hw' hp' => ?_) fun w' hw' _ => ?_
      · rw [show s.worker role' = ((s.touch executor n).push event).worker role' by
          rw [push_worker, touch_worker], ← hf.others role' hne]
        cases role' <;> rfl
      · have hkilled := hf.killed w' (by rw [← hw']; cases role <;> rfl)
        cases hkilled.2.symm.trans hp'
      · exact (hf.killed w' (by rw [← hw']; cases role <;> rfl)).2

/-- **A shutdown** that is started asks every worker to stop. -/
theorem startShutdown_tight (h : s.Tight) : wp (startShutdown now) (fun _ s' => s'.Tight) s := by
  refine wp_get_bind ?_
  cases hdeadline : deadlineAfter now _ with
  | none => exact h
  | some deadline =>
    -- the deferred exit is reaped; the workers left wait on whatever they waited on
    generalize ht : (if s.deferredActiveExit.isSome then
      { s with deferredActiveExit := none }.takeWorker .active else s) = t
    have hslot : ∀ role w, t.worker role = some w → s.worker role = some w := by
      intro role w hw
      rw [← ht] at hw
      split at hw
      · rw [← (takeWorker_slot .active role hw).2]
        cases role <;> rfl
      · exact hw
    have hstart : ({ t with
        stage := .shuttingDown deadline false
        supervisor := none
        replacementFailure := none }.push .shutdownStarted).Stopping WorkerRole.all := by
      refine ⟨⟨deadline, false, rfl⟩, rfl, fun role w p _ _ hn => ?_, fun role w hw => ?_⟩
      · exact absurd (by cases role <;> simp [WorkerRole.all]) hn
      · refine h.quelled (hslot role w ?_)
        rw [← hw]
        cases role <;> rfl
    have hloop : Ends (Prog.forEach WorkerRole.all (shutdownRole deadline) : Method E Unit)
        ({ t with
          stage := .shuttingDown deadline false
          supervisor := none
          replacementFailure := none }.push .shutdownStarted) fun _ s' => s'.Stopping [] := by
      refine (shutdownRole_ends hkill hstart).bind fun _ s₁ h₁ => ?_
      refine (shutdownRole_ends hkill h₁).bind fun _ s₂ h₂ => ?_
      exact (shutdownRole_ends hkill h₂).bind fun _ s₃ h₃ => ends_pure h₃
    refine wp (hloop.of_eq ?_) fun _ s' hs => ?_
    · exact (bind_ok (reapDeferredExit_run.trans (by rw [ht]))).trans rfl
    · obtain ⟨deadline', forced, hst⟩ := hs.stage
      unfold Tight
      rw [hst]
      exact ⟨hs.supervisor, fun role w p hw hp => hs.asked role w p hw hp not_mem_nil,
        hs.quelled⟩

theorem shutdown_tight (h : s.Tight) : wp (shutdown now) (fun _ s' => s'.Tight) s := by
  have hensure : wp (ensureShutdown now) (fun _ s' => s'.Tight) s := by
    refine wp_get_bind ?_
    split
    · exact h
    · exact h
    · exact startShutdown_tight hkill h
  refine wp_bind hensure (fun _ s₁ h₁ => ?_) fun _ _ h₁ => h₁
  refine wp_bind ((handleTimeout_ends hkill h₁).wp (R := fun _ s' => s'.Tight)
    fun _ _ hp => hp.tight) (fun _ s₂ h₂ => ?_) fun _ _ h₂ => h₂
  exact h₂

/-- **A launched master** satisfies the invariant. -/
theorem launch_post {config : MasterConfig} {listeners : Unix.DescriptorManifest} {executor : E}
    {active : WorkerInput} (h : launch config listeners executor factory active now = .ok s) :
    s.Tight ∧ (s.Serving ∨ s.Blamed) := by
  obtain ⟨process, a, h⟩ := launch_eq_ok h
  have hb : (booting config listeners executor active process).Booting .adoptListeners :=
    ⟨rfl, rfl, rfl, rfl, _, rfl, ⟨rfl, rfl⟩, fun p hp => absurd hp (by simp [ManagedWorker.new])⟩
  obtain ⟨_, _, hr, hp⟩ := post_bootRequest hkill (.inl ⟨rfl, rfl⟩) hb issues_issueAdoption
  cases hr.symm.trans h
  exact ⟨hp.tight, hp.serving trivial ⟨rfl, rfl⟩⟩

end calls

end Oxiroute.Master
