import Mathlib.Order.Monotone.Basic
import Oxiroute.Master.Effects

/-!
# The aggregated event log

The events of all workers share one bounded list in `SupervisorSnapshotHistory`, numbered by the
master. `EventFeed` threads each worker's `last_event_cursor` through `record_events`, as
`handle_status` does for every status it accepts (`handleStatus_record`).

* `Logged` is the invariant of the list: both numberings increase along it. One push keeps it
  (`Logged.push`), so a batch does (`Logged.recordEventsFrom`), so every feed does.
* `EventFeed.record_events_log` reads the invariant off: order, bound, no event twice, and what
  `worker_events` returns.

An aggregated cursor of `0` means that `u64::MAX` has been given out and the list is closed.
-/

namespace Oxiroute.Master

open Lib Lib.Prog List Supervision

/-! ## The invariant -/

/-- The retained events are numbered upwards, each worker's events also by their own cursors, and
`seen` bounds the cursors of every worker. -/
structure Logged (h : SupervisorSnapshotHistory) (seen : InstanceId → UInt64) : Prop where
  length_le : h.events.length ≤ maxAggregatedEvents
  cursors : h.events.Pairwise fun a b => a.event.cursor < b.event.cursor
  below : h.nextEventCursor ≠ 0 → ∀ r ∈ h.events, r.event.cursor < h.nextEventCursor
  workers : h.events.Pairwise fun a b => a.event.instanceId = b.event.instanceId →
    a.event.workerEvent.cursor < b.event.workerEvent.cursor
  seen_le : ∀ r ∈ h.events, r.event.workerEvent.cursor ≤ seen r.event.instanceId

namespace Logged

variable {h : SupervisorSnapshotHistory} {seen : InstanceId → UInt64} {id : InstanceId} {c : UInt64}

/-- A worker's bound may be raised. -/
theorem raise (hl : Logged h seen) (hc : seen id ≤ c) : Logged h (Function.update seen id c) :=
  { hl with
    seen_le := fun r hr => by
      by_cases hid : r.event.instanceId = id
      · rw [hid, Function.update_self]
        have hle := hl.seen_le r hr
        rw [hid] at hle
        exact UInt64.le_trans hle hc
      · rw [Function.update_of_ne hid]
        exact hl.seen_le r hr }

theorem push (hl : Logged h seen) (hnext : h.nextEventCursor ≠ 0) (role : GenerationRole)
    (generationId : GenerationId) (e : WorkerEventRecord) (he : seen id < e.cursor) :
    let events := h.events ++ [⟨role, h.nextEventCursor, id, generationId, e⟩]
    Logged { h with
        nextEventCursor := (checkedAdd h.nextEventCursor 1).getD 0
        events := events.drop (events.length - maxAggregatedEvents) }
      (Function.update seen id e.cursor) := by
  intro events
  have hraised := hl.raise (UInt64.le_of_lt he)
  have hmem : ∀ r ∈ events.drop (events.length - maxAggregatedEvents),
      r ∈ h.events ∨ r = ⟨role, h.nextEventCursor, id, generationId, e⟩ :=
    fun r hr => by simpa [events] using mem_of_mem_drop hr
  have hlength : (events.drop (events.length - maxAggregatedEvents)).length ≤
      maxAggregatedEvents := by
    rw [length_drop]
    omega
  generalize events.length - maxAggregatedEvents = evicted at hmem hlength ⊢
  refine ⟨hlength, .drop ?_, fun hsucc r hr => ?_, .drop ?_, fun r hr => ?_⟩
  · exact pairwise_append.mpr ⟨hl.cursors, by simp,
      fun a ha b hb => mem_singleton.mp hb ▸ hl.below hnext a ha⟩
  · obtain ⟨next, hadd⟩ : ∃ next, checkedAdd h.nextEventCursor 1 = some next :=
      Option.ne_none_iff_exists'.mp fun hnone => hsucc (by simp [hnone])
    have hlt := lt_of_checkedAdd_one hadd
    simp only [hadd, Option.getD_some]
    rcases hmem r hr with hr | rfl
    · exact UInt64.lt_trans (hl.below hnext r hr) hlt
    · exact hlt
  · refine pairwise_append.mpr ⟨hl.workers, by simp, fun a ha b hb hid => ?_⟩
    obtain rfl := mem_singleton.mp hb
    have hle := hl.seen_le a ha
    rw [hid] at hle
    exact UInt64.lt_of_le_of_lt hle he
  · rcases hmem r hr with hr | rfl
    · exact hraised.seen_le r hr
    · simp

/-- A batch of events of one worker, with its cursor in `seen` kept up to date. -/
theorem recordEventsFrom (role : GenerationRole) (generationId : GenerationId)
    (events : List WorkerEventRecord) (hl : Logged h (Function.update seen id c)) :
    let recorded := SupervisorSnapshotHistory.recordEventsFrom role id generationId h c events
    Logged recorded.1 (Function.update seen id recorded.2) := by
  fun_induction SupervisorSnapshotHistory.recordEventsFrom role id _ h c events with
  | case1 h c => exact hl
  | case2 h c e rest _ ih => exact ih hl
  | case3 h c e rest _ _ => exact hl
  | case4 h c e rest hc hnext events ih =>
    have hlt : Function.update seen id c id < e.cursor := by simpa using UInt64.not_le.mp hc
    have hpush := hl.push hnext role generationId e hlt
    rw [Function.update_idem] at hpush
    exact ih hpush

theorem recordEvents (hl : Logged h seen) {role : GenerationRole} {generationId : GenerationId}
    {status : WorkerStatus} : let recorded := h.recordEvents role id generationId (seen id) status
    Logged recorded.1 (Function.update seen id recorded.2) := by
  have hseen : Logged h (Function.update seen id (seen id)) := hl.raise (UInt64.le_refl _)
  have hloop := hseen.recordEventsFrom role generationId status.events
  generalize hrec : SupervisorSnapshotHistory.recordEventsFrom role id _ h (seen id)
    _ = recorded at hloop
  have hle : Function.update seen id recorded.2 id ≤ max recorded.2 status.eventCursor := by
    rw [Function.update_self, UInt64.le_iff_toNat_le, toNat_max]
    exact Nat.le_max_left _ _
  have hmax := hloop.raise hle
  simpa [SupervisorSnapshotHistory.recordEvents, hrec] using hmax

end Logged

/-! ## Feeds -/

/-- What is kept of the events of all workers: the history, and the `last_event_cursor` of each
worker. -/
structure EventFeed where
  history : SupervisorSnapshotHistory
  lastEventCursor : InstanceId → UInt64

namespace EventFeed

/-- No status seen yet. The next aggregated cursor is `1` in `SupervisorSnapshotHistory::new`; any
other start stands for a master that has run for long. -/
def startingAt (first : UInt64) : EventFeed :=
  ⟨{ SupervisorSnapshotHistory.new with nextEventCursor := first }, fun _ => 0⟩

/-- The events of an accepted status: `record_events`, and the worker's cursor after it. -/
def record (feed : EventFeed) (source : WorkerSnapshotSource) : EventFeed :=
  let recorded := feed.history.recordEvents source.role source.instanceId source.generationId
    (feed.lastEventCursor source.instanceId) source.status
  ⟨recorded.1, Function.update feed.lastEventCursor source.instanceId recorded.2⟩

theorem record_logged {first : UInt64} {sources : List WorkerSnapshotSource} :
    let feed := sources.foldl record (startingAt first)
    Logged feed.history feed.lastEventCursor := by
  have hnew : Logged (startingAt first).history (startingAt first).lastEventCursor :=
    ⟨Nat.zero_le _, .nil, fun _ _ hr => (by cases hr), .nil, fun _ hr => (by cases hr)⟩
  generalize startingAt first = feed at hnew
  induction sources generalizing feed with
  | nil => exact hnew
  | cons source rest ih =>
    exact ih _ hnew.recordEvents

/-- **The aggregated log**, after any statuses of any workers and from any aggregated cursor: the
list is numbered strictly upwards and bounded, has no event of a worker twice and each worker's
events in their own order, and `worker_events` returns the oldest events above a cursor, as many
as the limit and the bound allow. Nothing is assumed of the cursors a worker reports. -/
theorem record_events_log (first : UInt64) (sources : List WorkerSnapshotSource) :
    let h := (sources.foldl record (startingAt first)).history
    (h.events.map (·.event.cursor)).Pairwise (· < ·) ∧ h.events.length ≤ maxAggregatedEvents ∧
    (h.events.map fun r => (r.event.instanceId, r.event.workerEvent.cursor)).Nodup ∧
    (∀ id, ((h.events.filter fun r => r.event.instanceId = id).map
      (·.event.workerEvent.cursor)).Pairwise (· < ·)) ∧ ∀ (after : UInt64) (limit : ℕ),
      let newer := (h.events.map (·.event)).filter fun e => after < e.cursor
      h.workerEvents after limit <+: newer ∧
      (h.workerEvents after limit).length = min (min limit maxAggregatedEvents) newer.length ∧
      ∀ e ∈ h.workerEvents after limit, ∀ e' ∈ newer, e' ∉ h.workerEvents after limit →
        e.cursor < e'.cursor := by
  intro h
  have hl : Logged h _ := record_logged
  refine ⟨pairwise_map.mpr hl.cursors, hl.length_le, pairwise_map.mpr ?_, fun id => ?_,
    fun after limit => ?_⟩
  · refine hl.workers.imp fun hab heq => ?_
    obtain ⟨hid, hcursor⟩ := Prod.ext_iff.mp heq
    exact absurd hcursor (UInt64.ne_of_lt (hab hid))
  · refine pairwise_map.mpr ((List.Pairwise.filter _ hl.workers).imp_of_mem ?_)
    intro a b ha hb hab
    have haid : a.event.instanceId = id := by simpa using (mem_filter.mp ha).2
    have hbid : b.event.instanceId = id := by simpa using (mem_filter.mp hb).2
    exact hab (haid.trans hbid.symm)
  · intro newer
    have htake : h.workerEvents after limit = newer.take (min limit maxAggregatedEvents) := by
      simp [SupervisorSnapshotHistory.workerEvents, newer, filter_map, map_take, Function.comp_def]
    have hsorted : newer.Pairwise fun e e' => e.cursor < e'.cursor :=
      List.Pairwise.filter _ (pairwise_map.mpr hl.cursors)
    have hcut : newer.take (min limit maxAggregatedEvents) <+: newer := take_prefix _ _
    rw [htake]
    refine ⟨hcut, length_take, fun e he e' he' hnot => ?_⟩
    rw [← take_append_drop _ newer] at hsorted he'
    exact (pairwise_append.mp hsorted).2.2 e he e' ((mem_append.mp he').resolve_left hnot)

/-- `handle_status` of a status it accepts records its events as a feed does. -/
theorem handleStatus_record {E : Type} {s : Master E} {role : WorkerRole} {w : ManagedWorker}
    (hw : s.worker role = some w) {status : WorkerStatus}
    (hfresh : (w.status.map (·.sequence)).getD 0 < status.sequence)
    {feed : EventFeed} (hhistory : feed.history = s.snapshotHistory)
    (hcursor : feed.lastEventCursor w.instanceId = w.lastEventCursor) :
    let feed' := feed.record ⟨generationRole role, w.instanceId, w.generation, status⟩
    let s' := (handleStatus role status s).2
    s'.snapshotHistory = feed'.history ∧
    (s'.worker role).map (·.lastEventCursor) = some (feed'.lastEventCursor w.instanceId) := by
  have hw' : ∀ history, { s with snapshotHistory := history }.worker role = some w := by
    rw [← hw]
    cases role <;> exact fun _ => rfl
  unfold handleStatus record
  rw [hhistory, hcursor, bind_ok (workerOr_run hw), if_neg (UInt64.not_le.mpr hfresh)]
  simp only [bind_run, get_run, modify_run, updateWorker_run (hw' _), pushEvent_run]
  cases role <;> exact ⟨rfl, by simp⟩

end EventFeed

end Oxiroute.Master
