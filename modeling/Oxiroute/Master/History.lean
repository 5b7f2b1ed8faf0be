import Oxiroute.Master.Status
import Oxiroute.Supervision.Catalog

/-!
# The aggregated snapshot of all workers

Model of `SupervisorSnapshotHistory` and `retain_monotonic_status` of
`oxiroute-supervisor-master/src/status.rs`: what the master keeps of the workers it has reaped,
and how a supervisor snapshot adds the live ones to it.

* The four cumulative counters are read through `Counter`, so each of `add_cumulative_metrics`,
  `retain_monotonic_metrics` and their listener twins has one lemma.
* `SupervisorSnapshotHistory.metrics_snapshot` and `listener_snapshot_counter` say what a snapshot
  reports: the reaped baseline plus what each live worker contributes, capped at `u64::MAX`.
* `contribution_retain` and `listed_retain` say that retention never loses a contribution.
-/

namespace Oxiroute.Master

open Lib Supervision List

/-! ## Keys and counters -/

/-- The `(name, protocol, bind)` key of a listener. -/
abbrev ListenerKey := String × String × String

/-- The order of a `BTreeMap` keyed by `(String, String, String)`. -/
def compareListenerKey : ListenerKey → ListenerKey → Ordering :=
  compareLex (compareOn (·.1)) (compareLex (compareOn (·.2.1)) (compareOn (·.2.2)))

instance : Std.TransCmp compareListenerKey := inferInstanceAs (Std.TransCmp (compareLex _ _))

instance : Std.LawfulEqCmp compareListenerKey where
  eq_of_compare {a b} h := by
    simp only [compareListenerKey, compareLex_eq_eq, compareOn,
      Std.LawfulEqCmp.compare_eq_iff_eq] at h
    exact Prod.ext h.1 (Prod.ext h.2.1 h.2.2)

abbrev ListenerMap (β : Type) := Std.TreeMap ListenerKey β compareListenerKey

/-- The counters that only grow: all but `active_connections`. -/
inductive Counter where
  | acceptedConnections
  | rejectedConnections
  | bytesReceived
  | bytesSent
  deriving DecidableEq

def WorkerMetrics.counter (m : WorkerMetrics) : Counter → UInt64
  | .acceptedConnections => m.acceptedConnections
  | .rejectedConnections => m.rejectedConnections
  | .bytesReceived => m.bytesReceived
  | .bytesSent => m.bytesSent

def WorkerListenerStatus.counter (l : WorkerListenerStatus) : Counter → UInt64
  | .acceptedConnections => l.acceptedConnections
  | .rejectedConnections => l.rejectedConnections
  | .bytesReceived => l.bytesReceived
  | .bytesSent => l.bytesSent

structure SupervisorListenerSnapshot where
  name : String
  protocol : String
  bind : String
  administrativeState : WorkerAdministrativeState
  state : WorkerListenerState
  acceptedConnections : UInt64
  rejectedConnections : UInt64
  activeConnections : UInt64
  bytesReceived : UInt64
  bytesSent : UInt64
  deriving DecidableEq

def SupervisorListenerSnapshot.counter (l : SupervisorListenerSnapshot) : Counter → UInt64
  | .acceptedConnections => l.acceptedConnections
  | .rejectedConnections => l.rejectedConnections
  | .bytesReceived => l.bytesReceived
  | .bytesSent => l.bytesSent

/-- `WorkerMetrics::default`. -/
def WorkerMetrics.zero : WorkerMetrics := ⟨0, 0, 0, 0, 0⟩

def listenerKey (listener : WorkerListenerStatus) : ListenerKey :=
  (listener.name, listener.protocol, listener.bind)

def listenerSnapshot (listener : WorkerListenerStatus) : SupervisorListenerSnapshot where
  name := listener.name
  protocol := listener.protocol
  bind := listener.bind
  administrativeState := listener.administrativeState
  state := listener.state
  acceptedConnections := 0
  rejectedConnections := 0
  activeConnections := 0
  bytesReceived := 0
  bytesSent := 0

def addCumulativeMetrics (total value : WorkerMetrics) : WorkerMetrics :=
  { total with
    acceptedConnections := saturatingAdd total.acceptedConnections value.acceptedConnections
    rejectedConnections := saturatingAdd total.rejectedConnections value.rejectedConnections
    bytesReceived := saturatingAdd total.bytesReceived value.bytesReceived
    bytesSent := saturatingAdd total.bytesSent value.bytesSent }

def addAllMetrics (total value : WorkerMetrics) : WorkerMetrics :=
  { addCumulativeMetrics total value with
    activeConnections := saturatingAdd total.activeConnections value.activeConnections }

def retainMonotonicMetrics (previous current : WorkerMetrics) : WorkerMetrics :=
  { current with
    acceptedConnections := max current.acceptedConnections previous.acceptedConnections
    rejectedConnections := max current.rejectedConnections previous.rejectedConnections
    bytesReceived := max current.bytesReceived previous.bytesReceived
    bytesSent := max current.bytesSent previous.bytesSent }

def addCumulativeListener (total : SupervisorListenerSnapshot) (value : WorkerListenerStatus) :
    SupervisorListenerSnapshot :=
  { total with
    acceptedConnections := saturatingAdd total.acceptedConnections value.acceptedConnections
    rejectedConnections := saturatingAdd total.rejectedConnections value.rejectedConnections
    bytesReceived := saturatingAdd total.bytesReceived value.bytesReceived
    bytesSent := saturatingAdd total.bytesSent value.bytesSent }

def addAllListener (total : SupervisorListenerSnapshot) (value : WorkerListenerStatus) :
    SupervisorListenerSnapshot :=
  { addCumulativeListener total value with
    activeConnections := saturatingAdd total.activeConnections value.activeConnections }

def retainMonotonicListener (previous current : WorkerListenerStatus) : WorkerListenerStatus :=
  { current with
    acceptedConnections := max current.acceptedConnections previous.acceptedConnections
    rejectedConnections := max current.rejectedConnections previous.rejectedConnections
    bytesReceived := max current.bytesReceived previous.bytesReceived
    bytesSent := max current.bytesSent previous.bytesSent }

/-! ## Retention -/

/-- One round of the listener loop of `retain_monotonic_status`: the first current listener with
the previous one's key is raised to it; a vanished listener is appended. -/
def retainListener : List WorkerListenerStatus → WorkerListenerStatus → List WorkerListenerStatus
  | [], previous => [previous]
  | current :: rest, previous =>
    if listenerKey current = listenerKey previous then
      retainMonotonicListener previous current :: rest
    else current :: retainListener rest previous

def retainMonotonicStatus (previous status : WorkerStatus) : WorkerStatus :=
  { status with
    metrics := match previous.metrics, status.metrics with
      | some previous, some current => some (retainMonotonicMetrics previous current)
      | some previous, none => some previous
      | none, current => current
    generation :=
      { status.generation with
        prepares := max status.generation.prepares previous.generation.prepares
        activations := max status.generation.activations previous.generation.activations
        failures := max status.generation.failures previous.generation.failures
        rollbacks := max status.generation.rollbacks previous.generation.rollbacks }
    listeners := previous.listeners.foldl retainListener status.listeners }

/-! ## The history -/

def maxAggregatedEvents : ℕ := 2048

structure AggregatedWorkerEvent where
  cursor : UInt64
  instanceId : InstanceId
  generationId : GenerationId
  workerEvent : WorkerEventRecord
  deriving DecidableEq

/-- `RetainedEvent`, and `SupervisorEventRecord`, which has the same two fields. -/
structure SupervisorEventRecord where
  role : GenerationRole
  event : AggregatedWorkerEvent
  deriving DecidableEq

structure SupervisorSnapshotHistory where
  metrics : WorkerMetrics
  listeners : ListenerMap SupervisorListenerSnapshot
  events : List SupervisorEventRecord
  nextEventCursor : UInt64

structure SupervisorGenerationSnapshot (R : Type) where
  role : GenerationRole
  instanceId : InstanceId
  generationId : GenerationId
  revision : R

structure SupervisorProcessSnapshot where
  role : GenerationRole
  instanceId : InstanceId
  generationId : GenerationId
  sequence : UInt64
  lifecycle : WorkerLifecycle
  administrativeState : WorkerAdministrativeState
  accepting : Bool
  runtimeStarted : Bool
  runtimeFailed : Bool
  drained : Bool
  generation : WorkerGenerationStatus

structure SupervisorListenerObservation where
  role : GenerationRole
  instanceId : InstanceId
  listener : WorkerListenerStatus

structure SupervisorDegradation where
  role : GenerationRole
  instanceId : InstanceId
  reason : Option String

structure SupervisorSnapshot (R : Type) where
  generations : List (SupervisorGenerationSnapshot R)
  processes : List SupervisorProcessSnapshot
  listenerObservations : List SupervisorListenerObservation
  listeners : List SupervisorListenerSnapshot
  degraded : Bool
  degradation : List SupervisorDegradation
  metrics : WorkerMetrics
  events : List SupervisorEventRecord

structure SupervisorSnapshotError where
  instanceId : InstanceId
  observedRole : GenerationRole
  catalogRole : Option GenerationRole

structure WorkerSnapshotSource where
  role : GenerationRole
  instanceId : InstanceId
  generationId : GenerationId
  status : WorkerStatus

def rolePriority : GenerationRole → UInt8
  | .active => 5
  | .candidate => 4
  | .previous => 3
  | .quarantined => 2
  | .restartRequired => 1

namespace SupervisorSnapshotHistory

def new : SupervisorSnapshotHistory where
  metrics := .zero
  listeners := ∅
  events := []
  nextEventCursor := 1

/-- The loop of `record_events`: the history, and the worker's cursor so far. An exhausted
aggregate cursor (`0`) ends the loop. -/
def recordEventsFrom (role : GenerationRole) (instanceId : InstanceId)
    (generationId : GenerationId) : SupervisorSnapshotHistory → UInt64 → List WorkerEventRecord →
      SupervisorSnapshotHistory × UInt64
  | h, eventCursor, [] => (h, eventCursor)
  | h, eventCursor, workerEvent :: rest =>
    if workerEvent.cursor ≤ eventCursor then
      recordEventsFrom role instanceId generationId h eventCursor rest
    else if h.nextEventCursor = 0 then (h, eventCursor)
    else
      let events := h.events ++ [⟨role, h.nextEventCursor, instanceId, generationId, workerEvent⟩]
      recordEventsFrom role instanceId generationId { h with
          nextEventCursor := (checkedAdd h.nextEventCursor 1).getD 0
          events := events.drop (events.length - maxAggregatedEvents) } workerEvent.cursor rest

def recordEvents (h : SupervisorSnapshotHistory) (role : GenerationRole)
    (instanceId : InstanceId) (generationId : GenerationId) (previousCursor : UInt64)
    (status : WorkerStatus) : SupervisorSnapshotHistory × UInt64 :=
  let (h, eventCursor) :=
    recordEventsFrom role instanceId generationId h previousCursor status.events
  (h, max eventCursor status.eventCursor)

variable {role : GenerationRole} {instanceId : InstanceId} {generationId : GenerationId}
  {cursor : UInt64}

theorem recordEventsFrom_baseline {h : SupervisorSnapshotHistory}
    {events : List WorkerEventRecord} :
    (recordEventsFrom role instanceId generationId h cursor events).1.metrics = h.metrics ∧
      (recordEventsFrom role instanceId generationId h cursor events).1.listeners =
        h.listeners := by
  fun_induction recordEventsFrom role _ _ h cursor events with
  | case1 h cursor => exact ⟨rfl, rfl⟩
  | case2 h cursor workerEvent rest _ ih => exact ih
  | case3 h cursor workerEvent rest _ _ => exact ⟨rfl, rfl⟩
  | case4 h cursor workerEvent rest _ _ events ih => exact ih

variable (h : SupervisorSnapshotHistory)

theorem recordEvents_baseline {status : WorkerStatus} :
    (h.recordEvents role instanceId generationId cursor status).1.metrics = h.metrics ∧
      (h.recordEvents role instanceId generationId cursor status).1.listeners = h.listeners :=
  recordEventsFrom_baseline

/-- One round of the listener loop of `reap`. -/
def reapListener (listeners : ListenerMap SupervisorListenerSnapshot)
    (listener : WorkerListenerStatus) : ListenerMap SupervisorListenerSnapshot :=
  listeners.alter (listenerKey listener) fun entry =>
    some { addCumulativeListener (entry.getD (listenerSnapshot listener)) listener with
      activeConnections := 0 }

def reap : Option WorkerStatus → SupervisorSnapshotHistory
  | none => h
  | some status =>
    { h with
      metrics := match status.metrics with
        | some metrics => addCumulativeMetrics h.metrics metrics
        | none => h.metrics
      listeners := status.listeners.foldl reapListener h.listeners }

def workerEvents (after : UInt64) (limit : ℕ) : List AggregatedWorkerEvent :=
  ((h.events.filter fun retained => after < retained.event.cursor).take
    (min limit maxAggregatedEvents)).map (·.event)

/-- The catalog role of a source, `None` when no document has its identity. -/
def catalogRole {R T : Type} (catalog : SupervisedGenerationCatalog R T)
    (source : WorkerSnapshotSource) : Option GenerationRole :=
  catalog.documents.findSome? fun (role, document) =>
    if document.instanceId = source.instanceId ∧ document.generationId = source.generationId then
      some role
    else none

/-- The metrics of `snapshot`: the baseline and what each live worker adds. -/
def addSourceMetrics (metrics : WorkerMetrics) (source : WorkerSnapshotSource) : WorkerMetrics :=
  match source.status.metrics with
  | some workerMetrics => addAllMetrics metrics workerMetrics
  | none => metrics

/-- The listener map of `snapshot`, with the priority of the role each state was taken from. -/
structure ListenerTotals where
  listeners : ListenerMap SupervisorListenerSnapshot
  priorities : ListenerMap UInt8

/-- One round of the inner listener loop of `snapshot`: the counters are added in any case, the
states follow the live worker of the highest priority. -/
def ListenerTotals.add (role : GenerationRole) (totals : ListenerTotals)
    (listener : WorkerListenerStatus) : ListenerTotals :=
  let key := listenerKey listener
  let entry := addAllListener (totals.listeners[key]?.getD (listenerSnapshot listener)) listener
  if totals.priorities[key]?.all fun current => current < rolePriority role then
    { listeners := totals.listeners.insert key { entry with
          administrativeState := listener.administrativeState
          state := listener.state }
      priorities := totals.priorities.insert key (rolePriority role) }
  else { totals with listeners := totals.listeners.insert key entry }

/-- The listeners of one live worker. -/
def ListenerTotals.addSource (totals : ListenerTotals) (source : WorkerSnapshotSource) :
    ListenerTotals :=
  source.status.listeners.foldl (ListenerTotals.add source.role) totals

/-- What `snapshot` reports of one live worker's process. -/
def processSnapshot (source : WorkerSnapshotSource) : SupervisorProcessSnapshot where
  role := source.role
  instanceId := source.instanceId
  generationId := source.generationId
  sequence := source.status.sequence
  lifecycle := source.status.lifecycle
  administrativeState := source.status.administrativeState
  accepting := source.status.accepting
  runtimeStarted := source.status.runtimeStarted
  runtimeFailed := source.status.runtimeFailed
  drained := source.status.drained
  generation := source.status.generation

/-- What `snapshot` reports of a live worker's degradation. -/
def degradationOf (source : WorkerSnapshotSource) : Option SupervisorDegradation :=
  if source.status.degraded || source.status.generation.degraded || source.status.runtimeFailed then
    some ⟨source.role, source.instanceId,
      source.status.degradation.or source.status.generation.lastFailure⟩
  else none

/-- The totals `snapshot` reports once every source matched the catalog. -/
def totals (sources : List WorkerSnapshotSource) :
    WorkerMetrics × ListenerMap SupervisorListenerSnapshot :=
  (sources.foldl addSourceMetrics h.metrics,
    (sources.foldl ListenerTotals.addSource ⟨h.listeners, ∅⟩).listeners)

def snapshot {R T : Type} (h : SupervisorSnapshotHistory)
    (catalog : SupervisedGenerationCatalog R T) (sources : List WorkerSnapshotSource) :
    Except SupervisorSnapshotError (SupervisorSnapshot R) :=
  match sources.find? fun source => catalogRole catalog source ≠ some source.role with
  | some source => .error ⟨source.instanceId, source.role, catalogRole catalog source⟩
  | none =>
    let degradation := sources.filterMap degradationOf
    .ok {
      generations := catalog.documents.map fun (role, document) =>
        ⟨role, document.instanceId, document.generationId, document.revision⟩
      processes := sources.map processSnapshot
      listenerObservations := sources.flatMap fun source =>
        source.status.listeners.map fun listener => ⟨source.role, source.instanceId, listener⟩
      listeners := (h.totals sources).2.values
      degraded := !degradation.isEmpty
      degradation := degradation
      metrics := (h.totals sources).1
      events := h.events }

end SupervisorSnapshotHistory

/-! ## What a snapshot reports -/

section counters

variable (c : Counter) (k : ListenerKey) {total value : WorkerMetrics}

@[simp] theorem counter_addCumulativeMetrics : (addCumulativeMetrics total value).counter c =
      saturatingAdd (total.counter c) (value.counter c) := by
  cases c <;> rfl

@[simp] theorem counter_addAllMetrics : (addAllMetrics total value).counter c =
      saturatingAdd (total.counter c) (value.counter c) := by
  cases c <;> rfl

@[simp] theorem counter_retainMonotonicMetrics {previous current : WorkerMetrics} :
    (retainMonotonicMetrics previous current).counter c =
      max (current.counter c) (previous.counter c) := by
  cases c <;> rfl

@[simp] theorem counter_retainMonotonicListener {previous current : WorkerListenerStatus} :
    (retainMonotonicListener previous current).counter c =
      max (current.counter c) (previous.counter c) := by
  cases c <;> rfl

@[simp] theorem counter_listenerSnapshot {listener : WorkerListenerStatus} :
    (listenerSnapshot listener).counter c = 0 := by
  cases c <;> rfl

/-- What a live worker with this status adds to a global counter. -/
def contribution (status : WorkerStatus) : ℕ := status.metrics.elim 0 fun m => (m.counter c).toNat

/-- What one listener adds to the counter of key `k`. -/
def listenerShare (listener : WorkerListenerStatus) : ℕ :=
  if listenerKey listener = k then (listener.counter c).toNat else 0

/-- What the listeners of a live worker add to the counter of key `k`. -/
def listed (listeners : List WorkerListenerStatus) : ℕ :=
  (listeners.map (listenerShare c k)).sum

variable (m : ListenerMap SupervisorListenerSnapshot)

/-- The counter a listener map holds for key `k`; `0` for an absent key. -/
def held : ℕ :=
  m[k]?.elim 0 fun l => (l.counter c).toNat

theorem held_le : held c k m ≤ maxUInt64 := by
  unfold held
  cases m[k]? with
  | none => exact zero_le
  | some l => exact toNat_le_maxUInt64 _

/-- `m'` is `m` with `listener` added to the entry of its key, made if absent. -/
def Enters (listener : WorkerListenerStatus) (m m' : ListenerMap SupervisorListenerSnapshot) :
    Prop :=
  ∃ entry : SupervisorListenerSnapshot, (∀ c, entry.counter c = saturatingAdd
      ((m[listenerKey listener]?.getD (listenerSnapshot listener)).counter c)
      (listener.counter c)) ∧ ∀ k, m'[k]? = if listenerKey listener = k then some entry else m[k]?

variable {m m' : ListenerMap SupervisorListenerSnapshot} {listener : WorkerListenerStatus}

theorem Enters.held (h : Enters listener m m') :
    held c k m' = min maxUInt64 (held c k m + listenerShare c k listener) := by
  obtain ⟨entry, hc, hget⟩ := h
  unfold Master.held listenerShare
  rw [hget]
  by_cases hk : listenerKey listener = k
  · subst hk
    simp only [if_true, Option.elim_some, hc, toNat_saturatingAdd]
    cases m[listenerKey listener]? with
    | none => simp
    | some l => rfl
  · have hle := held_le c k m
    unfold Master.held at hle
    simp [if_neg hk, min_eq_right hle]

theorem Enters.isSome (h : Enters listener m m') :
    (m'[k]?).isSome = true ↔ (m[k]?).isSome = true ∨ listenerKey listener = k := by
  obtain ⟨entry, -, hget⟩ := h
  rw [hget]
  by_cases hk : listenerKey listener = k <;> simp [hk]

theorem enters_reapListener (m : ListenerMap SupervisorListenerSnapshot)
    (listener : WorkerListenerStatus) :
    Enters listener m (SupervisorSnapshotHistory.reapListener m listener) := by
  refine ⟨{ addCumulativeListener (m[listenerKey listener]?.getD (listenerSnapshot listener))
    listener with activeConnections := 0 }, fun c => ?_, fun k => ?_⟩
  · cases c <;> rfl
  · unfold SupervisorSnapshotHistory.reapListener
    simp [Std.TreeMap.getElem?_alter]

theorem enters_insert {entry : SupervisorListenerSnapshot}
    (hc : ∀ c, entry.counter c = saturatingAdd
      ((m[listenerKey listener]?.getD (listenerSnapshot listener)).counter c)
      (listener.counter c)) : Enters listener m (m.insert (listenerKey listener) entry) := by
  refine ⟨entry, hc, fun k => ?_⟩
  simp [Std.TreeMap.getElem?_insert]

theorem enters_add (role : GenerationRole) (totals : SupervisorSnapshotHistory.ListenerTotals)
    (listener : WorkerListenerStatus) :
    Enters listener totals.listeners (totals.add role listener).listeners := by
  unfold SupervisorSnapshotHistory.ListenerTotals.add
  simp only
  -- the two branches differ in the states of the entry, not in its counters
  split <;> exact enters_insert fun c => by cases c <;> rfl

variable {h : SupervisorSnapshotHistory} {status : WorkerStatus}
  {sources : List WorkerSnapshotSource}

theorem held_reap : held c k (h.reap (some status)).listeners =
      min maxUInt64 (held c k h.listeners + listed c k status.listeners) :=
  foldl_saturating (held_le c k) (fun m l => (enters_reapListener m l).held c k) _ _

theorem counter_reap : ((h.reap (some status)).metrics.counter c).toNat =
      min maxUInt64 ((h.metrics.counter c).toNat + contribution c status) := by
  unfold SupervisorSnapshotHistory.reap contribution
  cases hm : status.metrics with
  | none => simp [hm, min_eq_right (toNat_le_maxUInt64 _)]
  | some metrics => simp [hm]

/-- The global counters of a snapshot: the baseline and every live contribution, capped. -/
theorem counter_totals :
    ((h.totals sources).1.counter c).toNat = min maxUInt64 ((h.metrics.counter c).toNat +
      (sources.map fun source => contribution c source.status).sum) := by
  refine foldl_saturating (g := fun metrics : WorkerMetrics => (metrics.counter c).toNat)
    (fun _ => toNat_le_maxUInt64 _) (fun metrics source => ?_) sources h.metrics
  unfold SupervisorSnapshotHistory.addSourceMetrics contribution
  cases source.status.metrics with
  | none => simp [min_eq_right (toNat_le_maxUInt64 _)]
  | some workerMetrics => simp

/-- The counters a snapshot reports for a listener: the baseline and every live contribution,
capped. -/
theorem held_totals : held c k (h.totals sources).2 = min maxUInt64 (held c k h.listeners +
      (sources.map fun source => listed c k source.status.listeners).sum) := by
  refine foldl_saturating
    (g := fun totals : SupervisorSnapshotHistory.ListenerTotals => held c k totals.listeners)
    (fun _ => held_le c k _) (fun totals source => ?_) sources ⟨h.listeners, ∅⟩
  exact foldl_saturating
    (fun _ => held_le c k _) (fun totals l => (enters_add _ totals l).held c k) _ _

theorem present_reap : ((h.reap (some status)).listeners[k]?).isSome = true ↔
      (h.listeners[k]?).isSome = true ∨ ∃ l ∈ status.listeners, listenerKey l = k :=
  foldl_collects (p := fun m : ListenerMap SupervisorListenerSnapshot => (m[k]?).isSome = true)
    (fun m l => (enters_reapListener m l).isSome k) _ _

theorem present_totals :
    ((h.totals sources).2[k]?).isSome = true ↔ (h.listeners[k]?).isSome = true ∨
      ∃ source ∈ sources, ∃ l ∈ source.status.listeners, listenerKey l = k := by
  refine foldl_collects (p := fun totals : SupervisorSnapshotHistory.ListenerTotals =>
      (totals.listeners[k]?).isSome = true) (fun totals source => ?_) sources ⟨h.listeners, ∅⟩
  exact foldl_collects (p := fun totals : SupervisorSnapshotHistory.ListenerTotals =>
      (totals.listeners[k]?).isSome = true) (fun totals l => (enters_add _ totals l).isSome k) _ _

end counters

/-! ## Retention loses nothing -/

section retention

variable (c : Counter) (k : ListenerKey)

def listenerKeys (listeners : List WorkerListenerStatus) : List ListenerKey :=
  listeners.map listenerKey

theorem contribution_retain {previous status : WorkerStatus} :
    contribution c previous ≤ contribution c (retainMonotonicStatus previous status) := by
  unfold contribution retainMonotonicStatus
  cases previous.metrics with
  | none => exact zero_le
  | some p =>
    cases status.metrics with
    | none => exact le_rfl
    | some m =>
      simp only [Option.elim_some, counter_retainMonotonicMetrics, toNat_max]
      exact le_max_right _ _

variable {current : List WorkerListenerStatus} {previous : WorkerListenerStatus}

/-- Raising a listener keeps its key, so one round only adds the key it did not find. -/
theorem listenerKeys_retainListener : listenerKeys (retainListener current previous) =
      if listenerKey previous ∈ listenerKeys current then listenerKeys current
      else listenerKeys current ++ [listenerKey previous] := by
  induction current with
  | nil => rfl
  | cons l rest ih =>
    unfold retainListener
    by_cases hk : listenerKey l = listenerKey previous
    · simp only [if_pos hk]
      rw [if_pos (by simp [listenerKeys, hk])]
      rfl
    · simp only [if_neg hk]
      change listenerKey l :: listenerKeys (retainListener rest previous) = _
      rw [ih]
      have hmem : listenerKey previous ∈ listenerKeys (l :: rest) ↔
          listenerKey previous ∈ listenerKeys rest := by
        simp [listenerKeys, Ne.symm hk]
      by_cases hin : listenerKey previous ∈ listenerKeys rest
      · rw [if_pos hin, if_pos (hmem.mpr hin)]
        rfl
      · rw [if_neg hin, if_neg (fun h => hin (hmem.mp h))]
        rfl

theorem listed_retainListener_ge :
    listed c k current ≤ listed c k (retainListener current previous) := by
  induction current with
  | nil => exact zero_le
  | cons l rest ih =>
    unfold retainListener
    split
    · refine Nat.add_le_add_right ?_ _
      unfold listenerShare
      change _ ≤ if listenerKey l = k then _ else 0
      split
      · rw [counter_retainMonotonicListener, toNat_max]
        exact le_max_left _ _
      · exact le_rfl
    · exact Nat.add_le_add_left ih _

theorem listenerShare_le_retainListener :
    listenerShare c k previous ≤ listed c k (retainListener current previous) := by
  induction current with
  | nil => simp [retainListener, listed]
  | cons l rest ih =>
    unfold retainListener
    split
    · rename_i hk
      refine le_trans ?_ (Nat.le_add_right _ _)
      unfold listenerShare
      change _ ≤ if listenerKey l = k then _ else 0
      rw [hk, counter_retainMonotonicListener, toNat_max]
      split
      · exact le_max_right _ _
      · exact le_rfl
    · exact le_trans ih (Nat.le_add_left _ _)

variable {before : List WorkerListenerStatus}

theorem listed_foldl_retainListener_ge :
    ∀ current, listed c k current ≤ listed c k (before.foldl retainListener current) := by
  induction before with
  | nil => exact fun _ => le_rfl
  | cons p before ih =>
    intro current
    exact le_trans (listed_retainListener_ge c k) (ih _)

theorem listed_eq_zero (h : k ∉ listenerKeys before) : listed c k before = 0 := by
  induction before with
  | nil => rfl
  | cons l before ih =>
    obtain ⟨hl, hbefore⟩ := not_or.mp (mem_cons.not.mp h)
    have hshare : listenerShare c k l = 0 := if_neg (Ne.symm hl)
    change listenerShare c k l + listed c k before = 0
    rw [hshare, ih hbefore]

/-- **Retention keeps every listener's counter**, if no key was listed twice. -/
theorem listed_retain (hnd : (listenerKeys before).Nodup) :
    ∀ current, listed c k before ≤ listed c k (before.foldl retainListener current) := by
  induction before with
  | nil => exact fun _ => zero_le
  | cons p before ih =>
    intro current
    obtain ⟨hp, hnd⟩ := nodup_cons.mp hnd
    change listenerShare c k p + listed c k before ≤ _
    by_cases hk : listenerKey p = k
    · -- `k` is the key of `p` alone, so the round of `p` brings all of it
      rw [listed_eq_zero c k (hk ▸ hp), add_zero]
      exact le_trans (listenerShare_le_retainListener c k)
        (listed_foldl_retainListener_ge c k _)
    · have hshare : listenerShare c k p = 0 := if_neg hk
      rw [hshare, zero_add]
      exact ih hnd _

theorem nodup_retain : ∀ {current}, (listenerKeys current).Nodup →
    (listenerKeys (before.foldl retainListener current)).Nodup := by
  induction before with
  | nil => exact id
  | cons p before ih =>
    intro current h
    refine ih ?_
    rw [listenerKeys_retainListener]
    split
    · exact h
    · rename_i hp
      exact nodup_append.mpr ⟨h, nodup_singleton _, by
        rintro a ha b hb rfl
        exact hp (mem_singleton.mp hb ▸ ha)⟩

theorem mem_retain : ∀ {current}, k ∈ listenerKeys (before.foldl retainListener current) ↔
      k ∈ listenerKeys current ∨ k ∈ listenerKeys before := by
  intro current
  have hround : ∀ ls p, k ∈ listenerKeys (retainListener ls p) ↔
      k ∈ listenerKeys ls ∨ listenerKey p = k := by
    intro ls p
    rw [listenerKeys_retainListener]
    split
    · rename_i hp
      exact ⟨.inl, fun h => h.elim id fun hk => hk ▸ hp⟩
    · rw [mem_append, mem_singleton, eq_comm]
  rw [foldl_collects (p := fun ls => k ∈ listenerKeys ls) hround]
  simp [listenerKeys]

end retention


end Oxiroute.Master
