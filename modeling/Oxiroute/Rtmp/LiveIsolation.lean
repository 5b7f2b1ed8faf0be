import Oxiroute.Rtmp.LiveAccounting

/-!
# Isolation of publishers

A stream may change hands while viewers stay and old leases are still held. `StreamIsolated` says
that nothing an earlier publisher sent is left in a queue or in the cache; every effect keeps it,
for a change of publisher empties both. A lease that is not the current one can do nothing
(`publish_stale`, `dropPublisher_stale`), and incarnations are handed out in increasing order.
-/

namespace Oxiroute.Rtmp

open Lib Http MediaCache List Option Table

def MediaCache.events (cache : MediaCache) : List Tagged :=
  cache.metadata.toList ++ cache.aacSequenceHeader.toList
    ++ cache.videoSequenceHeaders.entries.map Sigma.snd

variable {cache : MediaCache} {keyframe e : Tagged} {issued : List Tagged} {stream : LiveStream}

theorem MediaCache.mem_events_of_header (h : cache.videoSequenceHeader keyframe = some e) :
    e ∈ cache.events := by
  obtain ⟨codec, _, hlookup⟩ := bind_eq_some_iff.mp h
  exact mem_append_right _ (mem_map.mpr ⟨⟨codec, e⟩, mem_entries_iff.mpr hlookup, rfl⟩)

theorem MediaCache.mem_mixedBootstrap (h : e ∈ cache.mixedBootstrap keyframe) :
    e ∈ cache.events ∨ e = keyframe := by
  simp only [mixedBootstrap, mem_append, mem_singleton] at h
  rcases h with ((h | h) | h) | h
  · exact .inl (mem_append_left _ (mem_append_left _ h))
  · exact .inl (mem_append_left _ (mem_append_right _ h))
  · exact .inl (mem_events_of_header (mem_toList.mp h))
  · exact .inr h

theorem MediaCache.mem_audioBootstrap {audio : Tagged} (h : e ∈ cache.audioBootstrap audio) :
    e ∈ cache.events ∨ e = audio := by
  simp only [audioBootstrap, mem_append, mem_singleton] at h
  rcases h with (h | h) | h
  · exact .inl (mem_append_left _ (mem_append_left _ h))
  · exact .inl (mem_append_left _ (mem_append_right _ h))
  · exact .inr h

theorem MediaCache.mem_videoBootstrap (h : e ∈ cache.videoBootstrap keyframe) :
    e ∈ cache.events ∨ e = keyframe := by
  simp only [videoBootstrap, mem_append, mem_singleton] at h
  rcases h with h | h
  · exact .inl (mem_events_of_header (mem_toList.mp h))
  · exact .inr h

@[simp] theorem MediaCache.events_transition {event : Tagged} :
    (cache.transition event).2.events = cache.events := by
  unfold transition
  split <;> rfl

variable {event : Tagged} {q : SubscriberQueue} {s : LiveHubState} {lease : PublisherLease}

theorem MediaCache.mem_store {cache' : MediaCache} (h : cache.store event = .ok cache')
    (he : e ∈ cache'.events) : e ∈ cache.events ∨ e = event := by
  simp only [store] at h
  have hheader : ∀ codec, e ∈ ({ cache with
      videoSequenceHeaders := cache.videoSequenceHeaders.insert codec event } : MediaCache).events →
      e ∈ cache.events ∨ e = event := by
    intro codec he
    rcases mem_append.mp he with he | he
    · exact .inl (mem_append_left _ he)
    · obtain ⟨⟨codec', e'⟩, hmem, rfl⟩ := mem_map.mp he
      have hlookup := mem_entries_iff.mp hmem
      obtain ⟨-, rfl⟩ | ⟨-, hlookup⟩ := of_lookup_insert hlookup
      · exact .inr rfl
      · exact .inl (mem_append_right _
          (mem_map.mpr ⟨⟨codec', e'⟩, mem_entries_iff.mpr hlookup, rfl⟩))
  split at h
  case h_1 =>
    cases h
    simp only [events, mem_append, mem_toList, Option.some.injEq] at he ⊢
    tauto
  case h_2 =>
    cases h
    simp only [events, mem_append, mem_toList, Option.some.injEq] at he ⊢
    tauto
  case h_3 | h_4 | h_5 =>
    obtain ⟨codec, _, h⟩ := bind_eq_ok.mp h
    cases h
    exact hheader codec he
  all_goals
    cases h
    exact .inl he

/-- A viewer gets what it had, what the cache has, and the event. -/
theorem Served.mem {transition : VideoTrackTransition} {events : List Tagged}
    {state : SubscriberState} (h : Served cache transition event q events state) (he : e ∈ events) :
    e ∈ q.events ∨ e ∈ cache.events ∨ e = event := by
  cases h with
  | waits hbase _ => exact .inl (hbase.subset he)
  | spared | skipped => exact .inl he
  | heard | seen =>
    rcases mem_append.mp he with he | he
    · exact .inl he
    · exact .inr (.inr (mem_singleton.mp he))
  | joinsAudio hbase _ =>
    rcases mem_append.mp he with he | he
    · exact .inl (hbase.subset he)
    · exact .inr (mem_audioBootstrap he)
  | joinsVideo =>
    rcases mem_append.mp he with he | he
    · exact .inl he
    · exact .inr (mem_videoBootstrap he)
  | joins hbase _ =>
    rcases mem_append.mp he with he | he
    · exact .inl (hbase.subset he)
    · exact .inr (mem_mixedBootstrap he)

/-! ## Streams -/

/-- Everything a stream holds was published by its current publisher. -/
structure StreamIsolated (issued : List Tagged) (stream : LiveStream) : Prop where
  queued : ∀ id q, stream.subscribers.lookup id = some q → ∀ e ∈ q.events,
    e ∈ issued ∧ stream.publisher = some e.incarnation
  cached : ∀ e ∈ stream.cache.events, e ∈ issued ∧ stream.publisher = some e.incarnation
  vacant : stream.publisher = none → stream.cache = .default

theorem StreamIsolated.empty (h : StreamIsolated issued stream) (hnone : stream.publisher = none)
    {id : UInt64} (hq : stream.subscribers.lookup id = some q) : q.events = [] := by
  refine eq_nil_iff_forall_not_mem.mpr fun e he => ?_
  have hpublisher := (h.queued id q hq e he).2
  rw [hnone] at hpublisher
  cases hpublisher

theorem StreamIsolated.mono (h : StreamIsolated issued stream) (later : List Tagged) :
    StreamIsolated (issued ++ later) stream where
  queued id q hq e he := ⟨mem_append_left _ (h.queued id q hq e he).1, (h.queued id q hq e he).2⟩
  cached e he := ⟨mem_append_left _ (h.cached e he).1, (h.cached e he).2⟩
  vacant := h.vacant

theorem streamIsolated_default : StreamIsolated issued .default :=
  ⟨fun _ _ h => (by cases h), fun _ h => (by cases h), fun _ => rfl⟩

theorem StreamIsolated.openedBy {incarnation : UInt64} :
    StreamIsolated issued (stream.openedBy incarnation) where
  queued id q hq e he := by
    rw [LiveStream.closed_subscribers, LiveStream.lookup_closed] at hq
    obtain ⟨_, _, rfl⟩ := map_eq_some_iff.mp hq
    cases he
  cached e he := by cases he
  vacant h := by cases h

theorem StreamIsolated.closed : StreamIsolated issued stream.closed where
  queued id q hq e he := by
    rw [LiveStream.lookup_closed] at hq
    obtain ⟨_, _, rfl⟩ := map_eq_some_iff.mp hq
    cases he
  cached e he := by cases he
  vacant _ := rfl

theorem StreamIsolated.insert (h : StreamIsolated issued stream) {id : UInt64}
    (hq : ∀ e ∈ q.events, e ∈ issued ∧ stream.publisher = some e.incarnation) :
    StreamIsolated issued { stream with subscribers := stream.subscribers.insert id q } where
  queued id' q' hq' := by
    obtain ⟨-, rfl⟩ | ⟨-, hq'⟩ := of_lookup_insert hq'
    · exact hq
    · exact h.queued id' q' hq'
  cached := h.cached
  vacant := h.vacant

theorem StreamIsolated.erase (h : StreamIsolated issued stream) {id : UInt64} :
    StreamIsolated issued { stream with subscribers := stream.subscribers.erase id } where
  queued id' q' hq' := by
    obtain ⟨-, hq'⟩ := of_lookup_erase hq'
    exact h.queued id' q' hq'
  cached := h.cached
  vacant := h.vacant

variable {limits : LiveHubLimits}

theorem StreamIsolated.published {before r : Round} (h : StreamIsolated issued stream)
    (hcurrent : stream.publisher = some event.incarnation)
    (hbefore : before.subscribers = stream.subscribers)
    (hround : RoundSpec limits (stream.cache.transition event).2 (stream.cache.transition event).1
      event stream.servingOrder before r)
    (hstore : (stream.cache.transition event).2.store event = .ok cache) :
    StreamIsolated (issued ++ [event])
      { stream with subscribers := r.subscribers, cache } where
  queued id q' hq' e he := by
    cases hq : stream.subscribers.lookup id with
    | none =>
      have := hround.absent id (hbefore ▸ hq)
      rw [this] at hq'
      cases hq'
    | some q =>
      obtain ⟨q'', hq'', -, hserved⟩ :=
        hround.served id (LiveStream.mem_servingOrder hq) q (hbefore ▸ hq)
      cases hq''.symm.trans hq'
      have hold := h.mono [event]
      rcases hserved.mem he with he | he | rfl
      · exact hold.queued id q hq e he
      · exact hold.cached e (events_transition ▸ he)
      · exact ⟨mem_append_right _ (mem_singleton_self _), hcurrent⟩
  cached e he := by
    rcases mem_store hstore he with he | rfl
    · exact (h.mono [event]).cached e (events_transition ▸ he)
    · exact ⟨mem_append_right _ (mem_singleton_self _), hcurrent⟩
  vacant hnone := by
    rw [hcurrent] at hnone
    cases hnone

/-! ## Every run -/

namespace World

/-- Every stream is isolated, and incarnations are handed out in increasing order. -/
structure Isolated (w : World) : Prop where
  streams : ∀ key stream, w.state.streams.lookup key = some stream → StreamIsolated w.issued stream
  increasing : w.incarnations.Pairwise (· < ·)
  latest : ∀ incarnation ∈ w.incarnations, incarnation ≤ w.state.nextPublisherIncarnation

variable {w : World}

theorem Isolated.entry (h : w.Isolated) {key : StreamKey} :
    StreamIsolated w.issued (w.state.entry key) := by
  cases hs : w.state.streams.lookup key with
  | none =>
    rw [LiveHubState.entry, hs]
    exact streamIsolated_default
  | some stream => exact entry_of_lookup hs ▸ h.streams key stream hs

variable {key : StreamKey} {streams' : Table StreamKey LiveStream} {stream' : LiveStream}

theorem Isolated.change (h : w.Isolated) (hc : Change w.state key stream' streams')
    {later : List Tagged} (hstream : StreamIsolated (w.issued ++ later) stream') :
    ∀ k stream, streams'.lookup k = some stream → StreamIsolated (w.issued ++ later) stream := by
  intro k stream hk
  rcases hc.of_lookup hk with ⟨_, rfl, _⟩ | ⟨_, hk⟩
  · exact hstream
  · exact (h.streams k stream hk).mono later

theorem Isolated.change_nil (h : w.Isolated) (hc : Change w.state key stream' streams')
    (hstream : StreamIsolated w.issued stream') :
    ∀ k stream, streams'.lookup k = some stream → StreamIsolated w.issued stream := by
  have := h.change hc (by rwa [append_nil])
  rwa [append_nil] at this

/-- **Isolation** is kept by every effect. -/
theorem Effect.isolated {w' : World} (h : w.Isolated) (he : Effect limits w w') : w'.Isolated := by
  cases he with
  | idle => exact h
  | forgotten => exact ⟨h.streams, h.increasing, h.latest⟩
  | attached key incarnation hlimit hnext =>
    have hlt := lt_of_checkedAdd_one hnext
    refine ⟨h.change_nil (.insert (.inl rfl)) .openedBy, ?_, ?_⟩
    · rw [pairwise_append]
      refine ⟨h.increasing, pairwise_singleton _ _, ?_⟩
      intro a ha b hb
      obtain rfl := mem_singleton.mp hb
      exact UInt64.lt_of_le_of_lt (h.latest a ha) hlt
    · intro i hi
      rcases mem_append.mp hi with hi | hi
      · exact UInt64.le_trans (h.latest i hi) (UInt64.le_of_lt hlt)
      · obtain rfl := mem_singleton.mp hi
        exact UInt64.le_refl _
  | subscribed key id stream hcount hlimit hstream hnext heq =>
    subst heq
    refine ⟨h.change_nil (.insert (.of_lookup (AList.lookup_insert _))) ?_, h.increasing, h.latest⟩
    exact h.entry.insert fun e he => (by cases he)
  | published lease event stream r cache hlease hstream hcurrent hround hstore =>
    refine ⟨h.change (.insert (.inl (by simp [hcurrent]))) ?_, h.increasing, h.latest⟩
    exact (h.streams _ _ hstream).published hcurrent rfl hround hstore
  | delivered i subscription stream q rest e events hi hstream hq hevents hrest =>
    refine ⟨h.change_nil (.insert (.of_lookup (AList.lookup_insert _))) ?_, h.increasing, h.latest⟩
    refine (h.streams _ _ hstream).insert fun e' he' => ?_
    refine (h.streams _ _ hstream).queued _ q hq e' ?_
    rw [hevents]
    exact mem_cons_of_mem _ (by simpa [hrest] using he')
  | unpublished i lease stream hi hstream hcurrent =>
    exact ⟨h.change_nil .closed .closed, h.increasing, h.latest⟩
  | unsubscribed i subscription stream rest q hi hstream hq hrest =>
    subst hrest
    exact ⟨h.change_nil .left ((h.streams _ _ hstream).erase), h.increasing, h.latest⟩

theorem isolated_new : new.Isolated :=
  ⟨fun _ _ h => (by cases h), List.Pairwise.nil, fun _ h => absurd h not_mem_nil⟩

end World

/-- The lease of the current publisher of its stream. -/
def LiveHubState.Current (s : LiveHubState) (lease : PublisherLease) : Prop :=
  ∃ stream, s.streams.lookup lease.key = some stream ∧ stream.publisher = some lease.incarnation

theorem publish_stale (h : ¬s.Current lease) :
    ∃ e, s.publish limits lease event = .ok (.error e, s) := by
  unfold LiveHubState.publish
  split
  · exact ⟨_, rfl⟩
  · split
    · exact ⟨_, rfl⟩
    · rename_i stream hfilter
      obtain ⟨hstream, hcurrent⟩ := filter_eq_some_iff.mp hfilter
      exact absurd ⟨stream, hstream, of_decide_eq_true hcurrent⟩ h

theorem dropPublisher_stale (h : ¬s.Current lease) : s.dropPublisher lease = .ok s := by
  unfold LiveHubState.dropPublisher
  split
  · rfl
  · rename_i stream hstream
    exact if_pos fun hcurrent => h ⟨stream, hstream, hcurrent⟩

/-- **Incarnation isolation**: after every run, what is queued or cached was published by the
current publisher of its stream, a stream without one has nothing, leases that are not current can
do nothing, and incarnations increase. -/
theorem run_isolated (limits : LiveHubLimits) (ops : List HubOp) : ∃ w, World.run limits ops = .ok w
      ∧ (∀ key stream, w.state.streams.lookup key = some stream →
        (∀ id q, stream.subscribers.lookup id = some q → ∀ e ∈ q.events,
          e ∈ w.issued ∧ stream.publisher = some e.incarnation)
        ∧ (∀ e ∈ stream.cache.events, e ∈ w.issued ∧ stream.publisher = some e.incarnation)
        ∧ (stream.publisher = none → stream.cache = .default
          ∧ ∀ id q, stream.subscribers.lookup id = some q → q.events = []))
      ∧ (∀ lease, ¬w.state.Current lease →
        (∀ event, ∃ e, w.state.publish limits lease event = .ok (.error e, w.state))
        ∧ w.state.dropPublisher lease = .ok w.state) ∧ w.incarnations.Pairwise (· < ·) := by
  obtain ⟨w, hrun, -, -, hw⟩ := World.run_induct limits World.isolated_new
    (fun _ _ _ _ hw he => he.isolated hw) ops
  refine ⟨w, hrun, fun key stream hstream => ?_, fun lease hstale =>
    ⟨fun _ => publish_stale hstale, dropPublisher_stale hstale⟩, hw.increasing⟩
  have hs := hw.streams key stream hstream
  exact ⟨hs.queued, hs.cached, fun hnone => ⟨hs.vacant hnone, fun _ _ hq => hs.empty hnone hq⟩⟩

end Oxiroute.Rtmp
