import Mathlib.Algebra.Order.BigOperators.Group.List
import Mathlib.Algebra.Order.Group.Nat
import Oxiroute.Master.Calls

/-!
# Ownership and counters over whole runs

What the custody of `Custody.lean` says about a master that is launched and then called in any
order, with any workers, executor and clock:

* `afterCalls_mirrored`: while operational, the workers held are exactly the instances of the
  supervisor's three roles, and no call lets go of a worker whose exit it has not reported.
* `afterCalls_totals_le`: no cumulative counter of a snapshot, global or of one listener, goes
  down from one call to the next, as long as no status names a listener twice.
* `afterCalls_closing`: closing is final.
-/

set_option maxRecDepth 100000

namespace Oxiroute.Master

open Lib List Supervision

variable {E : Type} [Runtime E] {s : Master E}

/-! ## Between the calls -/

section between

variable {accepted : WorkerStatus → Prop} {call : Call E}

omit [Runtime E] in
theorem Call.taken_true : call.Taken fun _ => True := by
  cases call with
  | poll _ _ => exact fun _ _ _ _ _ => trivial
  | _ => trivial

/-- What a call does to custody: a run, after which reported events may be taken away. -/
theorem perform_steps (hf : s.custody.Follows) (hcall : call.Taken accepted) :
    ∃ s', Tracks (Origin.at accepted s) s' ∧ s'.events = emitted (perform call s) ∧
      (perform call s).2 = { s' with events := (perform call s).2.events } :=
  tracks_perform hcall (tracks_start accepted hf)

theorem perform_follows (hf : s.custody.Follows) (hcall : call.Taken accepted) :
    (perform call s).2.custody.Follows := by
  obtain ⟨s', htracks, -, hafter⟩ := perform_steps hf hcall
  rw [hafter]
  exact htracks.inv.follows.congr rfl rfl

/-- **Along every run** the slots follow the roles. -/
theorem afterCalls_follows (hf : s.custody.Follows) {calls : List (Call E)}
    (hcalls : ∀ call ∈ calls, call.Taken accepted) : (afterCalls s calls).custody.Follows := by
  induction calls generalizing s with
  | nil => exact hf
  | cons call calls ih =>
    exact ih (perform_follows hf (hcalls call mem_cons_self))
      fun next hnext => hcalls next (mem_cons_of_mem call hnext)

theorem launch_follows {config : MasterConfig} {listeners : Unix.DescriptorManifest} {executor : E}
    {factory : Except String UInt32} {active : WorkerInput} {now : Instant}
    (h : launch config listeners executor factory active now = .ok s) : s.custody.Follows := by
  obtain ⟨process, htracks⟩ := tracks_launch (fun _ => True) h
  exact htracks.inv.follows

end between

/-! ## Role mirroring -/

/-- The workers held are the instances of the supervisor's roles, each in its own slot. -/
structure Mirrors (s : Master E) (sup : Supervisor) : Prop where
  active : s.active.map (·.instanceId) = some sup.active.instanceId
  candidate : s.candidate.map (·.instanceId) = sup.candidate.map (·.instanceId)
  retired : s.retired.map (·.instanceId) = sup.retired.map (·.instanceId)
  apart : ∀ role role' w w', s.worker role = some w → s.worker role' = some w' →
    w.instanceId = w'.instanceId → role = role'

/-- A worker that `s` holds is held after the call, in some role, unless its exit is known. And an
exit is deferred only once it has been reported. -/
structure Owns (s : Master E) (outcome : Except MasterError (List MasterEvent) × Master E) :
    Prop where
  held : ∀ role w, s.worker role = some w →
    (∃ role' w', outcome.2.worker role' = some w' ∧ w'.instanceId = w.instanceId ∧
      w'.process.id = w.process.id) ∨
    (s.deferredActiveExit.isSome = true ∧ s.active.map (·.instanceId) = some w.instanceId) ∨
    ∃ role' status, MasterEvent.workerExited role' w.instanceId status ∈ emitted outcome
  deferred : outcome.2.deferredActiveExit.isSome = true → ∀ w, outcome.2.active = some w →
    (s.deferredActiveExit.isSome = true ∧ s.active.map (·.instanceId) = some w.instanceId) ∨
    ∃ role' status, MasterEvent.workerExited role' w.instanceId status ∈ emitted outcome

omit [Runtime E] in
theorem mirrors_of_follows (hf : s.custody.Follows) (hst : s.stage = .operational) :
    ∃ sup, s.supervisor = some sup ∧ s.Mirrors sup := by
  obtain ⟨sup, hs, hids⟩ := (tracks_start (fun _ => True) hf).mirror hst
  refine ⟨sup, hs, hids .active, hids .candidate, hids .retired, ?_⟩
  intro role role' w w' hw hw' hid
  have hrole : sup.ids role = some w.instanceId := by rw [← hids, hw, Option.map_some]
  have hrole' : sup.ids role' = some w.instanceId := by rw [← hids, hw', Option.map_some, hid]
  exact Supervisor.ids_inj hrole hrole'

theorem owns_perform (hf : s.custody.Follows) {call : Call E} : s.Owns (perform call s) := by
  obtain ⟨s', htracks, hevents, hafter⟩ := perform_steps hf call.taken_true
  have hgone : ∀ {id}, s'.custody.Gone (Origin.at (fun _ => True) s).known id →
      (s.deferredActiveExit.isSome = true ∧ s.active.map (·.instanceId) = some id) ∨
        ∃ role' status, MasterEvent.workerExited role' id status ∈ emitted (perform call s) := by
    intro id h
    rcases h with ⟨hdef, hid⟩ | ⟨role', status, hmem⟩
    · exact .inl ⟨hdef, custody_ids.symm.trans hid⟩
    · exact .inr ⟨role', status, hevents ▸ hmem⟩
  have hworker : ∀ role, (perform call s).2.worker role = s'.worker role := by
    intro role
    rw [hafter]
    cases role <;> rfl
  refine ⟨fun role w hw => ?_, fun hdef w hw => ?_⟩
  · have hslot : s.custody.slots role = some w.badge := by simp [custody, hw]
    rcases Custody.owned_steps htracks.start htracks.steps hslot with
      ⟨role', b, hb, hid, hprocess⟩ | h
    · obtain ⟨w', hw', rfl⟩ := Option.map_eq_some_iff.mp hb
      exact .inl ⟨role', w', (hworker role').trans hw', hid, hprocess⟩
    · exact .inr (hgone h)
  · rw [hafter] at hdef hw
    refine hgone (htracks.inv.deferred hdef _ ?_)
    rw [custody_ids]
    exact congrArg _ hw

section scenario

/-- An executor that refuses nothing, on a system that kills what it is told to. -/
structure Obliging where

instance : Runtime Obliging where
  prepare _ _ _ := pure ()
  duplicateListeners _ _ := pure []
  send _ _ _ _ _ := pure ()
  requestKill _ := pure ()

/-- Ten seconds for everything. -/
def steadyConfig : MasterConfig := ⟨10, 10, 10, 10, 10, by decide⟩

def emptyManifest : Unix.DescriptorManifest := ⟨[], by decide, by rfl⟩

/-- Nothing has happened to a worker. -/
def quiet : Arrival := ⟨.ok none, .ok none⟩

def answered (requestId : UInt64) (phase : ControlPhase) (outcome : ControlOutcome) : Arrival :=
  ⟨.ok none, .ok (some ⟨ackMessage, 1, encodeAck requestId phase outcome, 0⟩)⟩

def exited : Arrival := ⟨.ok (some 0), .ok none⟩

def only (role : WorkerRole) (arrival : Arrival) : WorkerRole → Arrival :=
  fun role' => if role' = role then arrival else quiet

def firstWorker : WorkerInput :=
  ⟨Supervision.ReplacementSupervisor.servingInstance.instanceId, 1, controlProtocolVersion⟩

def secondWorker : WorkerInput :=
  ⟨Supervision.ReplacementSupervisor.nextInstance.instanceId, 2, controlProtocolVersion⟩

/-- The master that waits for its first worker to adopt the listeners. -/
def steadyMaster : Master Obliging :=
  (issueAdoption .active 0 (booting steadyConfig emptyManifest ⟨⟩ firstWorker 10)).2

theorem launch_steady : launch steadyConfig emptyManifest (⟨⟩ : Obliging) (.ok 10)
    firstWorker 0 = .ok steadyMaster := rfl

/-- The first worker adopts the listeners and is activated; a second one is to replace it. -/
def replacing : List (Call Obliging) :=
  [.poll 0 (only .active (answered 1 .adoptListeners .accepted)),
    .poll 0 (only .active (answered 2 .activate .accepted)), .replace (.ok 11) secondWorker 0]

end scenario

/-- **Role mirroring.** After every call of every run, while the master is operational, the workers
it holds are the instances of the supervisor, role by role, and no worker is in two roles. And no
call drops a worker before its exit is known. -/
theorem afterCalls_mirrored {config : MasterConfig} {listeners : Unix.DescriptorManifest}
    {executor : E} {factory : Except String UInt32} {active : WorkerInput} {now : Instant}
    {launched : Master E}
    (hlaunch : launch config listeners executor factory active now = .ok launched)
    (calls : List (Call E)) : ((afterCalls launched calls).stage = .operational →
      ∃ sup, (afterCalls launched calls).supervisor = some sup ∧
        (afterCalls launched calls).Mirrors sup) ∧
    ∀ call, (afterCalls launched calls).Owns (perform call (afterCalls launched calls)) := by
  have hcalls : ∀ call ∈ calls, call.Taken fun _ => True := fun call _ => call.taken_true
  have hf := afterCalls_follows (launch_follows hlaunch) hcalls
  exact ⟨mirrors_of_follows hf, fun _ => owns_perform hf⟩

/-- A master in the middle of a replacement. -/
theorem afterCalls_mirrored_replacing :
    (afterCalls steadyMaster replacing).stage = .operational ∧
      ∃ sup, (afterCalls steadyMaster replacing).supervisor = some sup ∧
        (afterCalls steadyMaster replacing).Mirrors sup := by
  have hoperational : (afterCalls steadyMaster replacing).stage = .operational := by decide +kernel
  exact ⟨hoperational, (afterCalls_mirrored launch_steady replacing).1 hoperational⟩

theorem perform_closing (hclosing : s.mode = .closing) (call : Call E) :
    (perform call s).2.mode = .closing ∧
      ∀ role id, (perform call s).2.custody.ids role = some id → s.custody.ids role = some id := by
  have hf : s.custody.Follows := by simp [Custody.Follows, custody, hclosing]
  obtain ⟨s', htracks, -, hafter⟩ := perform_steps hf call.taken_true
  rw [hafter]
  exact Custody.closing_steps htracks.steps hclosing

/-- **A master that closes never serves again.** Once it shuts down or fails, no calls make it boot
or operate, and every worker it still has it had then, in the same slot. -/
theorem afterCalls_closing (hclosing : s.mode = .closing) (calls : List (Call E)) :
    (afterCalls s calls).mode = .closing ∧
      ∀ role id, (afterCalls s calls).custody.ids role = some id →
        s.custody.ids role = some id := by
  induction calls generalizing s with
  | nil => exact ⟨hclosing, fun _ _ => id⟩
  | cons call calls ih =>
    obtain ⟨hmode, hids⟩ := perform_closing hclosing call
    exact (ih hmode).imp_right fun h role id => hids role id ∘ h role id

theorem afterCalls_closing_replacing :
    (afterCalls (perform (.shutdown 0) steadyMaster).2 replacing).mode = .closing :=
  (afterCalls_closing rfl replacing).1

/-! ## Monotone counters -/

section meters

variable (c : Counter) (k : ListenerKey)

def metricsMeter : Custody.Meter where
  base h := (h.metrics.counter c).toNat
  share := contribution c
  base_le _ := toNat_le_maxUInt64 _
  base_reap _ _ := counter_reap c
  base_congr _ _ hm _ := by rw [hm]
  share_retain previous status _ := contribution_retain c

def listenerMeter : Custody.Meter where
  base h := held c k h.listeners
  share status := listed c k status.listeners
  base_le h := held_le c k h.listeners
  base_reap _ _ := held_reap c k
  base_congr _ _ _ hl := by rw [hl]
  share_retain previous status hnd := listed_retain c k hnd _

/-- Whether a listener is reported at all, as a quantity that is all or nothing. -/
def presenceMeter : Custody.Meter where
  base h := if (h.listeners[k]?).isSome then maxUInt64 else 0
  share status := if k ∈ listenerKeys status.listeners then maxUInt64 else 0
  base_le h := by
    split
    · exact le_rfl
    · exact zero_le
  base_reap h status := by
    have hkeys : k ∈ listenerKeys status.listeners ↔
        ∃ l ∈ status.listeners, listenerKey l = k := mem_map
    simp only [present_reap, hkeys]
    by_cases hbase : (h.listeners[k]?).isSome = true <;>
      by_cases hlisted : ∃ l ∈ status.listeners, listenerKey l = k <;> simp [hbase, hlisted]
  base_congr _ _ _ hl := by rw [hl]
  share_retain previous status _ := by
    have hretain : k ∈ listenerKeys previous.listeners →
        k ∈ listenerKeys (retainMonotonicStatus previous status).listeners :=
      fun h => (mem_retain k).mpr (.inr h)
    by_cases h : k ∈ listenerKeys previous.listeners
    · exact le_of_eq (by rw [if_pos h, if_pos (hretain h)])
    · rw [if_neg h]
      exact zero_le

omit [Runtime E] in
theorem sum_snapshotSources {m : Custody.Meter} :
    (s.snapshotSources.map fun source => m.share source.status).sum =
      m.slot (s.custody.slots .active) + m.slot (s.custody.slots .candidate) +
        m.slot (s.custody.slots .retired) := by
  have hslot : ∀ role, m.slot (s.custody.slots role) =
      (((s.worker role).bind (·.status)).elim 0 m.share) := by
    intro role
    cases hw : s.worker role <;> simp [Custody.Meter.slot, custody, hw, ManagedWorker.badge]
  have hrole : ∀ roles : List WorkerRole, ((roles.filterMap fun role =>
      (s.worker role).bind fun w => w.status.map fun status =>
        (⟨generationRole role, w.instanceId, w.generation, status⟩ : WorkerSnapshotSource)).map
          fun source => m.share source.status).sum =
      (roles.map fun role => m.slot (s.custody.slots role)).sum := by
    intro roles
    induction roles with
    | nil => rfl
    | cons role roles ih =>
      rw [filterMap_cons, map_cons, sum_cons, hslot, ← ih]
      cases s.worker role with
      | none => simp
      | some w => cases hst : w.status <;> simp [hst]
  refine (hrole _).trans ?_
  simp [WorkerRole.all, add_assoc]

variable {s : Master E}

omit [Runtime E] in
theorem counter_total : (s.totals.1.counter c).toNat = (metricsMeter c).reading s.custody := by
  unfold Custody.Meter.reading
  rw [← sum_snapshotSources]
  exact counter_totals c

omit [Runtime E] in
theorem held_total : held c k s.totals.2 = (listenerMeter c k).reading s.custody := by
  unfold Custody.Meter.reading
  rw [← sum_snapshotSources]
  exact held_totals c k

omit [Runtime E] in
theorem present_total :
    (s.totals.2[k]?).isSome = true ↔ (presenceMeter k).reading s.custody = maxUInt64 := by
  unfold Custody.Meter.reading
  rw [← sum_snapshotSources]
  refine (present_totals k).trans ⟨fun h => min_eq_left ?_, fun h => ?_⟩
  · rcases h with hbase | ⟨source, hsource, hkey⟩
    · have hmax : (presenceMeter k).base s.custody.baseline = maxUInt64 := if_pos hbase
      exact hmax ▸ Nat.le_add_right _ _
    · have hshare : (presenceMeter k).share source.status = maxUInt64 :=
        if_pos (mem_map.mpr hkey)
      have hmem := mem_map_of_mem (f := fun source : WorkerSnapshotSource =>
        (presenceMeter k).share source.status) hsource
      rw [hshare] at hmem
      exact le_trans (single_le_sum (fun _ _ => zero_le) _ hmem) (Nat.le_add_left _ _)
  · -- absent everywhere, the reading is zero
    by_contra hnone
    obtain ⟨hbase, hsources⟩ := not_or.mp hnone
    have hsum : (s.snapshotSources.map fun source =>
        (presenceMeter k).share source.status).sum = 0 := by
      refine sum_eq_zero fun x hx => ?_
      obtain ⟨source, hsource, rfl⟩ := mem_map.mp hx
      exact if_neg fun hkey => hsources ⟨source, hsource, mem_map.mp hkey⟩
    have hzero : (presenceMeter k).base s.custody.baseline = 0 := if_neg hbase
    rw [hsum, hzero] at h
    cases h

end meters

/-- No total that a snapshot of `s` reports is lower in `s'`, and no listener is missing there. -/
structure TotalsLe (s s' : Master E) : Prop where
  metrics : ∀ c, s.totals.1.counter c ≤ s'.totals.1.counter c
  listeners : ∀ (k : ListenerKey) (entry : SupervisorListenerSnapshot),
    s.totals.2[k]? = some entry →
    ∃ entry' : SupervisorListenerSnapshot, s'.totals.2[k]? = some entry' ∧
      ∀ c, entry.counter c ≤ entry'.counter c

omit [Runtime E] in
theorem totalsLe_of_readings {s' : Master E}
    (h : ∀ m : Custody.Meter, m.reading s.custody ≤ m.reading s'.custody) : s.TotalsLe s' := by
  refine ⟨fun c => UInt64.le_iff_toNat_le.mpr ?_, fun k entry hentry => ?_⟩
  · rw [counter_total, counter_total]
    exact h _
  · have hpresent : (s'.totals.2[k]?).isSome = true := by
      have hreading := (present_total k).mp (by rw [hentry]; rfl)
      refine (present_total k).mpr (Nat.le_antisymm (min_le_left _ _) ?_)
      exact hreading ▸ h _
    obtain ⟨entry', hentry'⟩ := Option.isSome_iff_exists.mp hpresent
    refine ⟨entry', hentry', fun c => UInt64.le_iff_toNat_le.mpr ?_⟩
    have hheld : held c k s.totals.2 ≤ held c k s'.totals.2 := by
      rw [held_total, held_total]
      exact h _
    simpa [held, hentry, hentry'] using hheld

section counting

variable {call : Call E}

/-- One call: nothing is uncounted, and the statuses kept still name each listener once. -/
theorem perform_counts (hf : s.custody.Follows) (hd : s.custody.Distinct)
    (hcall : call.Taken Custody.NamesOnce) :
    (perform call s).2.custody.Distinct ∧ s.TotalsLe (perform call s).2 := by
  obtain ⟨s', htracks, -, hafter⟩ := perform_steps hf hcall
  have hsteps := fun m => Custody.reading_steps m htracks.start hd htracks.steps
  rw [hafter]
  exact ⟨(hsteps (metricsMeter .bytesSent)).1, totalsLe_of_readings fun m => (hsteps m).2⟩

theorem afterCalls_distinct (hf : s.custody.Follows) (hd : s.custody.Distinct)
    {calls : List (Call E)} (hcalls : ∀ call ∈ calls, call.Taken Custody.NamesOnce) :
    (afterCalls s calls).custody.Distinct := by
  induction calls generalizing s with
  | nil => exact hd
  | cons call calls ih =>
    have hcall := hcalls call mem_cons_self
    exact ih (perform_follows hf hcall) (perform_counts hf hd hcall).1
      fun next hnext => hcalls next (mem_cons_of_mem call hnext)

end counting

/-- **Monotone aggregate counters.** If each status names each listener at most once, no call lowers
a total that a snapshot reports, and none makes a reported listener disappear. -/
theorem afterCalls_totals_le {config : MasterConfig} {listeners : Unix.DescriptorManifest}
    {executor : E} {factory : Except String UInt32} {active : WorkerInput} {now : Instant}
    {launched : Master E}
    (hlaunch : launch config listeners executor factory active now = .ok launched)
    {calls : List (Call E)} (hcalls : ∀ call ∈ calls, call.Taken Custody.NamesOnce) {call : Call E}
    (hcall : call.Taken Custody.NamesOnce) :
    (afterCalls launched calls).TotalsLe (perform call (afterCalls launched calls)).2 ∧
    ∀ {R T : Type} (catalog : SupervisedGenerationCatalog R T) snapshot,
      (afterCalls launched calls).supervisorSnapshot catalog = .ok snapshot →
        snapshot.metrics = (afterCalls launched calls).totals.1 ∧
          snapshot.listeners = (afterCalls launched calls).totals.2.values := by
  have hf := afterCalls_follows (launch_follows hlaunch) hcalls
  obtain ⟨process, htracks⟩ := tracks_launch _ hlaunch
  have hdistinct : launched.custody.Distinct := by
    refine (Custody.reading_steps (metricsMeter .bytesSent) htracks.start ?_ htracks.steps).1
    rintro (_ | _ | _) b status hb hst
    · cases hb
      exact absurd hst (by simp [ManagedWorker.badge, ManagedWorker.new])
    · exact absurd hb (by simp [Origin.at, custody, worker, booting])
    · exact absurd hb (by simp [Origin.at, custody, worker, booting])
  have hd := afterCalls_distinct (launch_follows hlaunch) hdistinct hcalls
  refine ⟨(perform_counts hf hd hcall).2, fun _ _ hs => ?_⟩
  unfold Master.supervisorSnapshot SupervisorSnapshotHistory.snapshot at hs
  split at hs
  · cases hs
  · cases hs
    exact ⟨rfl, rfl⟩

/-- A status of the first worker with five connections on one listener, or with nothing left. -/
def statusOf (sequence : UInt64) (counted : Bool) : WorkerStatus where
  sequence := sequence
  generationId := 1
  lifecycle := .active
  administrativeState := .ready
  accepting := true
  runtimeStarted := true
  runtimeFailed := false
  drained := false
  generation := ⟨none, none, none, none, none, true, false, none, 0, 0, 0, 0⟩
  metrics := if counted then some ⟨5, 0, 1, 70, 80⟩ else none
  listeners := if counted then
    [⟨"web", "http", "127.0.0.1:80", .ready, .listening, 5, 0, 1, 70, 80⟩] else []
  degraded := false
  degradation := none
  eventCursor := 0
  eventCursorLost := false
  events := []

/-- The first worker sends that status. -/
def reported (sequence : UInt64) (counted : Bool) : Arrival :=
  ⟨.ok none, .ok (some ⟨statusMessage, 1,
    (encodeStatus (statusOf sequence counted)).toOption.getD [], 0⟩)⟩

/-- A first worker that has been counted. -/
def counting : List (Call Obliging) :=
  [.poll 0 (only .active (answered 1 .adoptListeners .accepted)),
    .poll 0 (only .active (answered 2 .activate .accepted)),
    .poll 1 (only .active (reported 1 true))]

variable {now : Instant}

theorem taken_only {arrival : Arrival} {accepted : WorkerStatus → Prop} {observation : Observation}
    (harrival : channelObservation arrival.received = some observation)
    (hobservation : observation.Taken accepted) {role : WorkerRole} :
    (Call.poll now (only role arrival) : Call Obliging).Taken accepted := by
  intro role' observation' hobs
  unfold only at hobs
  split at hobs
  · cases harrival.symm.trans hobs
    exact hobservation
  · exact absurd hobs (by simp [quiet, channelObservation])

theorem taken_reported {sequence : UInt64} {counted : Bool}
    (harrival : channelObservation (reported sequence counted).received =
      some (.status (statusOf sequence counted))) :
    (Call.poll now (only .active (reported sequence counted)) : Call Obliging).Taken
      Custody.NamesOnce := by
  refine taken_only harrival (fun status hstatus => ?_)
  obtain rfl := Observation.status.inj hstatus
  cases counted <;> simp [Custody.NamesOnce, listenerKeys, statusOf]

theorem taken_answered {requestId : UInt64} {phase : ControlPhase}
    (harrival : channelObservation (answered requestId phase .accepted).received =
      some (.ack ⟨requestId, phase, .accepted⟩)) :
    (Call.poll now (only .active (answered requestId phase .accepted)) : Call Obliging).Taken
      Custody.NamesOnce :=
  taken_only harrival (fun _ h => Observation.noConfusion h)

/-- A second status without metrics and listeners loses nothing. -/
theorem afterCalls_totals_le_counting :
    (afterCalls steadyMaster counting).TotalsLe
      (perform (.poll 2 (only .active (reported 2 false))) (afterCalls steadyMaster counting)).2 ∧
    (afterCalls steadyMaster counting).totals.1.bytesSent = 80 ∧
    (perform (.poll 2 (only .active (reported 2 false)))
      (afterCalls steadyMaster counting)).2.totals.1.bytesSent = 80 := by
  have hcalls : ∀ call ∈ counting, call.Taken Custody.NamesOnce := by
    intro call hcall
    simp only [counting, mem_cons, not_mem_nil, or_false] at hcall
    rcases hcall with rfl | rfl | rfl
    · exact taken_answered (by decide +kernel)
    · exact taken_answered (by decide +kernel)
    · exact taken_reported (by decide +kernel)
  exact ⟨(afterCalls_totals_le launch_steady hcalls (taken_reported (by decide +kernel))).1,
    by decide +kernel, by decide +kernel⟩

end Oxiroute.Master
