import Oxiroute.Rtmp.LiveDecodable

/-!
# Every viewer can decode what it is given

`Tracked` collects what every effect of the hub keeps: the log is numbered, no two streams have one
publisher, each cache holds the latest setup events of its publisher, and each subscription is
decodable and tracks its stream. `run_decodable` is the result for every run.
-/

namespace Oxiroute.Rtmp

open Lib Http List

structure StreamTracked (issued : List Tagged) (next : UInt64) (stream : LiveStream) : Prop where
  known : ∀ incarnation, stream.publisher = some incarnation → incarnation ≤ next
  cache : ∀ incarnation, stream.publisher = some incarnation →
    CacheLatest issued incarnation stream.cache

/-- The invariant of a subscription with its stream and its queue. -/
structure ViewerTracked (issued : List Tagged) (stream : LiveStream) (given : List Tagged)
    (q : SubscriberQueue) : Prop where
  issued_of_mem : ∀ x ∈ given ++ q.events, x ∈ issued
  decodable : Decodable issued (given ++ q.events)
  tracks : ∀ incarnation, stream.publisher = some incarnation →
    Tracks issued incarnation stream.cache.videoTrack (given ++ q.events) q.state

variable {issued given : List Tagged} {stream : LiveStream} {q : SubscriberQueue}

theorem ViewerTracked.reset {stream' : LiveStream} (h : ViewerTracked issued stream given q) :
    ViewerTracked issued stream' given .reset where
  issued_of_mem x hx := h.issued_of_mem x (by
    rw [SubscriberQueue.reset, append_nil] at hx
    exact mem_append_left _ hx)
  decodable := h.decodable.of_isPrefix (by simp [SubscriberQueue.reset])
  tracks _ _ := .waits (.inl rfl)

theorem ViewerTracked.foreign {e : Tagged} (h : ViewerTracked issued stream given q)
    (hnum : Numbered issued) (he : e.position = issued.length)
    (hne : stream.publisher ≠ some e.incarnation) :
    ViewerTracked (issued ++ [e]) stream given q where
  issued_of_mem x hx := mem_append_left _ (h.issued_of_mem x hx)
  decodable := h.decodable.mono h.issued_of_mem hnum he
  tracks incarnation hp := (h.tracks incarnation hp).foreign fun heq => hne (heq ▸ hp)

namespace World

/-- What every run keeps of a hub and its viewers. -/
structure Tracked (w : World) : Prop where
  numbered : Numbered w.issued
  known : ∀ x ∈ w.issued, x.incarnation ≤ w.state.nextPublisherIncarnation
  streams : ∀ key stream, w.state.streams.lookup key = some stream →
    StreamTracked w.issued w.state.nextPublisherIncarnation stream
  unique : ∀ key key' stream stream', w.state.streams.lookup key = some stream →
    w.state.streams.lookup key' = some stream' →
    ∀ incarnation, stream.publisher = some incarnation → stream'.publisher = some incarnation →
      key = key'
  viewers : ∀ s ∈ w.subscriptions, ∀ stream, w.state.streams.lookup s.key = some stream →
    ∀ q, stream.subscribers.lookup s.subscriberId = some q →
      ViewerTracked w.issued stream s.delivered q

variable {limits : LiveHubLimits} {w w' : World} {key : StreamKey} {stream' stream : LiveStream}
  {streams' : Table StreamKey LiveStream} {s : PlaybackSubscription}

/-- The publisher of a changed stream is the one it had, or none, or a new one. -/
theorem Tracked.unique_change (h : w.Tracked) (hc : Change w.state key stream' streams')
    (hpub : ∀ incarnation, stream'.publisher = some incarnation →
      (w.state.nextPublisherIncarnation < incarnation
        ∨ ∃ stream, w.state.streams.lookup key = some stream
          ∧ stream.publisher = some incarnation)) :
    ∀ k k' s s', streams'.lookup k = some s → streams'.lookup k' = some s' →
      ∀ incarnation, s.publisher = some incarnation → s'.publisher = some incarnation → k = k' := by
  -- Another stream does not have the publisher of the changed one.
  have hother : ∀ k s, k ≠ key → w.state.streams.lookup k = some s → ∀ incarnation,
      s.publisher = some incarnation → stream'.publisher = some incarnation → False := by
    intro k s hne hk incarnation hs hs'
    rcases hpub _ hs' with hlt | ⟨stream, hkey, hp⟩
    · exact absurd ((h.streams k s hk).known _ hs) (UInt64.not_le.mpr hlt)
    · exact hne (h.unique k key s stream hk hkey _ hs hp)
  intro k k' s s' hk hk' incarnation hs hs'
  rcases hc.of_lookup hk with ⟨rfl, rfl, -⟩ | ⟨hne, hk⟩ <;>
    rcases hc.of_lookup hk' with ⟨rfl, rfl, -⟩ | ⟨hne', hk'⟩
  · rfl
  · exact (hother k' s' hne' hk' _ hs' hs).elim
  · exact (hother k s hne hk _ hs hs').elim
  · exact h.unique k k' s s' hk hk' _ hs hs'

/-- The viewers after a change of one stream that publishes nothing. -/
theorem Tracked.viewers_change (h : w.Tracked) (hc : Change w.state key stream' streams')
    (hs : s ∈ w.subscriptions)
    (hkey : s.key = key → ∀ q, stream'.subscribers.lookup s.subscriberId = some q →
      ViewerTracked w.issued stream' s.delivered q) :
    ∀ stream, streams'.lookup s.key = some stream →
      ∀ q, stream.subscribers.lookup s.subscriberId = some q →
        ViewerTracked w.issued stream s.delivered q := by
  intro stream hstream q hq
  rcases hc.of_lookup hstream with ⟨heq, rfl, -⟩ | ⟨-, hstream⟩
  · exact hkey heq q hq
  · exact h.viewers s hs stream hstream q hq

theorem Tracked.streams_change (h : w.Tracked) (hc : Change w.state key stream' streams')
    (hstream : StreamTracked w.issued w.state.nextPublisherIncarnation stream') :
    ∀ k stream, streams'.lookup k = some stream →
      StreamTracked w.issued w.state.nextPublisherIncarnation stream := by
  intro k stream hk
  rcases hc.of_lookup hk with ⟨-, rfl, -⟩ | ⟨-, hk⟩
  · exact hstream
  · exact h.streams k stream hk

theorem Tracked.entry (h : w.Tracked) (key : StreamKey) :
    StreamTracked w.issued w.state.nextPublisherIncarnation (w.state.entry key) := by
  cases hs : w.state.streams.lookup key with
  | none =>
    rw [LiveHubState.entry, hs]
    exact ⟨fun _ h => (by cases h), fun _ h => (by cases h)⟩
  | some stream => exact entry_of_lookup hs ▸ h.streams key stream hs

theorem Handled.queue (hh : w.Handled) (hs : s ∈ w.subscriptions) :
    ∃ stream q, w.state.streams.lookup s.key = some stream
      ∧ stream.subscribers.lookup s.subscriberId = some q := by
  obtain ⟨q, hq⟩ := Option.isSome_iff_exists.mp (hh.held s hs)
  obtain ⟨stream, hstream, hq⟩ := Option.bind_eq_some_iff.mp hq
  exact ⟨stream, q, hstream, hq⟩

variable {q : SubscriberQueue}

theorem Tracked.viewers_reset (h : w.Tracked) (hh : w.Handled) (hs : s ∈ w.subscriptions)
    (hq : stream.closed.subscribers.lookup s.subscriberId = some q) :
    ViewerTracked w.issued stream' s.delivered q := by
  obtain ⟨old, q₀, hold, hq₀⟩ := hh.queue hs
  rw [LiveStream.lookup_closed] at hq
  obtain ⟨-, -, rfl⟩ := Option.map_eq_some_iff.mp hq
  exact (h.viewers s hs old hold q₀ hq₀).reset

theorem Effect.tracked_attached (h : w.Tracked) (hh : w.Handled) {incarnation : UInt64}
    (hnext : checkedAdd w.state.nextPublisherIncarnation 1 = some incarnation) : Tracked { w with
      state := { w.state with
        nextPublisherIncarnation := incarnation
        streams := w.state.streams.insert key ((w.state.entry key).openedBy incarnation)
        fanoutBytes := w.state.fanoutBytes - (w.state.entry key).queuedBytes }
      leases := w.leases ++ [⟨key, incarnation⟩]
      incarnations := w.incarnations ++ [incarnation] } := by
  have hlt := lt_of_checkedAdd_one hnext
  have hchange : Change w.state key ((w.state.entry key).openedBy incarnation)
      (w.state.streams.insert key ((w.state.entry key).openedBy incarnation)) := .insert (.inl rfl)
  refine ⟨h.numbered, fun x hx => UInt64.le_trans (h.known x hx) (UInt64.le_of_lt hlt), ?_, ?_, ?_⟩
  · intro k stream hk
    rcases hchange.of_lookup hk with ⟨-, rfl, -⟩ | ⟨-, hk⟩
    · refine ⟨fun i hi => ?_, fun i hi => ?_⟩
      · cases hi
        exact UInt64.le_refl _
      · cases hi
        refine cacheLatest_default fun x hx heq => ?_
        exact absurd (heq ▸ h.known x hx) (UInt64.not_le.mpr hlt)
    · obtain ⟨hknown, hcache⟩ := h.streams k stream hk
      exact ⟨fun i hi => UInt64.le_trans (hknown i hi) (UInt64.le_of_lt hlt), hcache⟩
  · refine h.unique_change hchange fun i hi => .inl ?_
    cases hi
    exact hlt
  · intro s hs
    exact h.viewers_change hchange hs fun _ q hq => h.viewers_reset hh hs hq

theorem Effect.tracked_published (h : w.Tracked) (hh : w.Handled) {lease : PublisherLease}
    {event : MediaEvent} {r : Round} {cache : MediaCache}
    (hstream : w.state.streams.lookup lease.key = some stream)
    (hcurrent : stream.publisher = some lease.incarnation)
    (hround : RoundSpec limits (stream.cache.transition (w.tag lease event)).2
      (stream.cache.transition (w.tag lease event)).1 (w.tag lease event) stream.servingOrder
      ⟨stream.subscribers, w.state.fanoutBytes, ⟨0, 0, 0, 0⟩⟩ r)
    (hstore : (stream.cache.transition (w.tag lease event)).2.store (w.tag lease event)
      = .ok cache) : Tracked { w with
      state := { w.state with
        streams := w.state.streams.insert lease.key
          { stream with subscribers := r.subscribers, cache }
        fanoutBytes := r.fanoutBytes }
      issued := w.issued ++ [w.tag lease event] } := by
  have hpos : (w.tag lease event).position = w.issued.length := rfl
  have hchange : Change w.state lease.key { stream with subscribers := r.subscribers, cache }
      (w.state.streams.insert lease.key { stream with subscribers := r.subscribers, cache }) :=
    .insert (.inl (by simp [hcurrent]))
  have hst := h.streams _ _ hstream
  -- The other streams have other publishers.
  have hforeign : ∀ k s, k ≠ lease.key → w.state.streams.lookup k = some s →
      s.publisher ≠ some (w.tag lease event).incarnation := fun k s hne hk hp =>
    hne (h.unique k lease.key s stream hk hstream _ hp hcurrent)
  refine ⟨h.numbered.snoc hpos, ?_, ?_, ?_, ?_⟩
  · intro x hx
    rcases mem_append.mp hx with hx | hx
    · exact h.known x hx
    · obtain rfl := mem_singleton.mp hx
      exact hst.known _ hcurrent
  · intro k s hk
    rcases hchange.of_lookup hk with ⟨-, rfl, -⟩ | ⟨hne, hk⟩
    · refine ⟨hst.known, fun i hi => ?_⟩
      cases hcurrent.symm.trans hi
      exact ((hst.cache _ hcurrent).transition _).store hstore
    · obtain ⟨hknown, hcache⟩ := h.streams k s hk
      exact ⟨hknown, fun i hi => (hcache i hi).foreign fun heq =>
        hforeign k s hne hk (heq ▸ hi)⟩
  · exact h.unique_change hchange fun i hi => .inr ⟨stream, hstream, hi⟩
  · intro s hs s' hs' q' hq'
    rcases hchange.of_lookup hs' with ⟨hkey, rfl, -⟩ | ⟨hne, hs'⟩
    · obtain ⟨old, q, hold, hq⟩ := hh.queue hs
      obtain rfl := Option.some.inj ((hkey ▸ hold).symm.trans hstream)
      obtain ⟨q'', hq'', -, hserved⟩ := hround.served _ (LiveStream.mem_servingOrder hq) q hq
      obtain rfl := Option.some.inj (hq''.symm.trans hq')
      have hv := h.viewers s hs old hold q hq
      obtain ⟨hdec, htracks⟩ := tracks_served h.numbered hpos hv.issued_of_mem hv.decodable
        (hv.tracks _ hcurrent) (hst.cache _ hcurrent) hserved
      refine ⟨fun x hx => ?_, hdec, fun i hi => ?_⟩
      · rcases mem_append.mp hx with hx | hx
        · exact mem_append_left _ (hv.issued_of_mem x (mem_append_left _ hx))
        · rcases hserved.mem hx with hx | hx | rfl
          · exact mem_append_left _ (hv.issued_of_mem x (mem_append_right _ hx))
          · exact mem_append_left _ (((hst.cache _ hcurrent).transition _).issued_of_mem hx)
          · exact mem_append_right _ (mem_singleton_self _)
      · cases hcurrent.symm.trans hi
        rw [store_videoTrack hstore]
        exact htracks
    · exact (h.viewers s hs s' hs' q' hq').foreign h.numbered hpos (hforeign _ s' hne hs')

theorem Effect.tracked_subscribed (h : w.Tracked) (hh : w.Handled) {id : UInt64}
    (hnext : checkedAdd w.state.nextSubscriberId 1 = some id) : Tracked { w with
      state := { w.state with
        nextSubscriberId := id
        streams := w.state.streams.insert key { w.state.entry key with
          subscribers := (w.state.entry key).subscribers.insert id
            (.new (w.state.entry key).cache.expectsVideo) }
        subscriberCount := w.state.subscriberCount + 1 }
      subscriptions := w.subscriptions ++ [⟨key, id, []⟩] } := by
  have hlt := lt_of_checkedAdd_one hnext
  have hchange : Change w.state key { w.state.entry key with
      subscribers := (w.state.entry key).subscribers.insert id
        (.new (w.state.entry key).cache.expectsVideo) } _ :=
    .insert (.of_lookup (AList.lookup_insert _))
  have hentry := h.entry key
  refine ⟨h.numbered, h.known, h.streams_change hchange ⟨hentry.known, hentry.cache⟩,
    h.unique_change hchange fun i hi => .inr ?_, ?_⟩
  · cases hs : w.state.streams.lookup key with
    | none =>
      rw [LiveHubState.entry, hs] at hi
      cases hi
    | some stream => exact ⟨stream, rfl, by rwa [entry_of_lookup hs] at hi⟩
  · intro s hs
    rcases mem_append.mp hs with hs | hs
    · refine h.viewers_change hchange hs fun hkey q hq => ?_
      have hne : s.subscriberId ≠ id := fun heq =>
        absurd (heq ▸ hh.fresh s hs) (UInt64.not_le.mpr hlt)
      obtain ⟨stream, q₀, hstream, hq₀⟩ := hh.queue hs
      have heq : w.state.entry key = stream := entry_of_lookup (hkey ▸ hstream)
      simp only [Table.lookup_insert, if_neg hne, heq] at hq
      have hv := h.viewers s hs stream hstream q hq
      exact ⟨hv.issued_of_mem, hv.decodable, heq ▸ hv.tracks⟩
    · obtain rfl := mem_singleton.mp hs
      intro stream hstream q hq
      rw [AList.lookup_insert] at hstream
      cases hstream
      rw [AList.lookup_insert] at hq
      cases hq
      refine ⟨fun x hx => absurd hx not_mem_nil, .nil, fun _ _ => .waits ?_⟩
      unfold SubscriberQueue.new
      split
      · exact .inr rfl
      · exact .inl rfl

theorem Effect.tracked_delivered (h : w.Tracked) (hh : w.Handled) {i : ℕ}
    {subscription : PlaybackSubscription} {e : Tagged} {events : List Tagged}
    {bytes fanoutBytes : ℕ} (hi : w.subscriptions[i]? = some subscription)
    (hstream : w.state.streams.lookup subscription.key = some stream)
    (hq : stream.subscribers.lookup subscription.subscriberId = some q)
    (hevents : q.events = e :: events) : Tracked { w with
      state := { w.state with
        streams := w.state.streams.insert subscription.key { stream with
          subscribers := stream.subscribers.insert subscription.subscriberId
            { q with events, bytes } }
        fanoutBytes }
      subscriptions := w.subscriptions.set i
        { subscription with delivered := subscription.delivered ++ [e] } } := by
  have hchange : Change w.state subscription.key { stream with
      subscribers := stream.subscribers.insert subscription.subscriberId
        { q with events, bytes } } _ :=
    .insert (.of_lookup (AList.lookup_insert _))
  have hst := h.streams _ _ hstream
  refine ⟨h.numbered, h.known, h.streams_change hchange ⟨hst.known, hst.cache⟩,
    h.unique_change hchange fun i hi => .inr ⟨stream, hstream, hi⟩, ?_⟩
  intro s hs
  rcases mem_set_or_mem_eraseIdx hi hs with rfl | hs
  · -- What is delivered leaves the queue.
    intro stream' hstream' q' hq'
    rw [AList.lookup_insert] at hstream'
    cases hstream'
    rw [AList.lookup_insert] at hq'
    cases hq'
    have hv := h.viewers _ (mem_of_getElem? hi) stream hstream q hq
    have heq : subscription.delivered ++ [e] ++ events = subscription.delivered ++ q.events := by
      rw [hevents, append_assoc, singleton_append]
    exact ⟨heq ▸ hv.issued_of_mem, heq ▸ hv.decodable, heq ▸ hv.tracks⟩
  · have hne := hh.ne_of_mem_eraseIdx hi hs
    have hs := mem_of_mem_eraseIdx hs
    refine h.viewers_change hchange hs fun hkey q' hq' => ?_
    simp only [Table.lookup_insert, if_neg hne] at hq'
    have hv := h.viewers s hs stream (hkey ▸ hstream) q' hq'
    exact ⟨hv.issued_of_mem, hv.decodable, hv.tracks⟩

/-- **Tracking** is kept by every effect. -/
theorem Effect.tracked (hh : w.Handled) (h : w.Tracked) (he : Effect limits w w') : w'.Tracked := by
  cases he with
  | idle => exact h
  | forgotten => exact ⟨h.numbered, h.known, h.streams, h.unique, h.viewers⟩
  | attached key incarnation hlimit hnext => exact tracked_attached h hh hnext
  | subscribed key id stream hcount hlimit hstream hnext heq =>
    subst heq
    exact tracked_subscribed h hh hnext
  | published lease event stream r cache hlease hstream hcurrent hround hstore =>
    exact tracked_published h hh hstream hcurrent hround hstore
  | delivered i subscription stream q rest e events hi hstream hq hevents hrest =>
    subst hrest
    exact tracked_delivered h hh hi hstream hq hevents
  | unpublished i lease stream hi hstream hcurrent =>
    have hchange : Change w.state lease.key stream.closed _ := .closed
    refine ⟨h.numbered, h.known, h.streams_change hchange ⟨?_, ?_⟩,
      h.unique_change hchange ?_, fun s hs => h.viewers_change hchange hs fun _ q hq =>
        h.viewers_reset hh hs hq⟩
    all_goals
      intro i hi
      cases hi
  | unsubscribed i subscription stream rest q hi hstream hq hrest =>
    subst hrest
    have hchange : Change w.state subscription.key
        { stream with subscribers := stream.subscribers.erase subscription.subscriberId } _ :=
      .left
    have hst := h.streams _ _ hstream
    refine ⟨h.numbered, h.known, h.streams_change hchange ⟨hst.known, hst.cache⟩,
      h.unique_change hchange fun i hi => .inr ⟨stream, hstream, hi⟩, fun s hs => ?_⟩
    have hs := mem_of_mem_eraseIdx hs
    refine h.viewers_change hchange hs fun hkey q' hq' => ?_
    simp only [Table.lookup_erase] at hq'
    split_ifs at hq'
    have hv := h.viewers s hs stream (hkey ▸ hstream) q' hq'
    exact ⟨hv.issued_of_mem, hv.decodable, hv.tracks⟩

theorem tracked_new : new.Tracked :=
  ⟨fun _ h => absurd h not_mem_nil, fun _ h => absurd h not_mem_nil,
    fun _ _ h => (by cases h), fun _ _ _ _ h => (by cases h), fun _ h => absurd h not_mem_nil⟩

/-- **Decodability**: in every run, whatever its publications, subscriptions, overflows and changes
of publisher, every viewer can decode what it was given. -/
theorem run_decodable (limits : LiveHubLimits) (ops : List HubOp) :
    ∃ w, run limits ops = .ok w ∧ ∀ s ∈ w.subscriptions, Decodable w.issued s.delivered := by
  obtain ⟨w, hrun, -, hh, hw⟩ := run_induct limits tracked_new
    (fun _ _ _ hh hw he => he.tracked hh hw) ops
  refine ⟨w, hrun, fun s hs => ?_⟩
  obtain ⟨stream, q, hstream, hq⟩ := hh.queue hs
  exact (hw.viewers s hs stream hstream q hq).decodable.of_isPrefix (prefix_append _ _)

end World

end Oxiroute.Rtmp
