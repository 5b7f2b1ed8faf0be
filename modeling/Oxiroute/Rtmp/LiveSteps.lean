import Oxiroute.Rtmp.LiveEffects

/-!
# The steps of the hub

`serve_loop` carries what a publication does to one viewer over all viewers of a stream. `Effect`
then lists what an operation of a client can do to a `World`: nothing, or one change to one stream.
`step_effect` says that a step from a state whose counter covers its queues does not panic and has
one of these effects; every invariant of the hub is proved over `Effect`.
-/

namespace Oxiroute.Rtmp

open Lib Http LiveHubState SubscriberQueue Table List

variable {limits : LiveHubLimits}

/-! ## All viewers of a stream -/

/-- What the loop of a publication does to the viewers it has served, and to the others. -/
structure RoundSpec (limits : LiveHubLimits) (cache : MediaCache)
    (transition : VideoTrackTransition) (event : Tagged) (ids : List UInt64) (r r' : Round) :
    Prop where
  balance : r'.fanoutBytes + total bytes r.subscribers
    = r.fanoutBytes + total bytes r'.subscribers
  bounded : r.fanoutBytes ≤ limits.maxFanoutBytes → r'.fanoutBytes ≤ limits.maxFanoutBytes
  size : size r'.subscribers = size r.subscribers
  served : ∀ id ∈ ids, ∀ q, r.subscribers.lookup id = some q →
    ∃ q', r'.subscribers.lookup id = some q' ∧ (QueueSound limits q → QueueSound limits q')
      ∧ Served cache transition event q q'.events q'.state
  others : ∀ id ∉ ids, r'.subscribers.lookup id = r.subscribers.lookup id
  absent : ∀ id, r.subscribers.lookup id = none → r'.subscribers.lookup id = none

variable {cache : MediaCache} {transition : VideoTrackTransition} {event : Tagged}

theorem RoundSpec.refl (r : Round) : RoundSpec limits cache transition event [] r r :=
  ⟨rfl, id, rfl, fun _ h => absurd h not_mem_nil, fun _ _ => rfl, fun _ h => h⟩

theorem serve_turn (limits : LiveHubLimits) (cache : MediaCache)
    (transition : VideoTrackTransition) (event : Tagged) (id : UInt64) {r : Round}
    (hr : total bytes r.subscribers ≤ r.fanoutBytes) :
    ∃ r', Round.serve limits cache transition event r id = .ok r'
      ∧ RoundSpec limits cache transition event [id] r r' := by
  cases hq : r.subscribers.lookup id with
  | none =>
    refine ⟨r, by simp only [Round.serve, hq], rfl, fun h => h, rfl, ?_, fun _ _ => rfl,
      fun _ h => h⟩
    intro id' hid q hq'
    obtain rfl := mem_singleton.mp hid
    rw [hq] at hq'
    cases hq'
  | some q =>
    have hcovered : Fanout.Covered ⟨q, r.fanoutBytes, r.report⟩ :=
      (le_total hq).trans hr
    obtain ⟨f, events, state, heq, hb, hs⟩ := serve_spec limits cache transition event hcovered
    have htotal := total_insert_add bytes r.subscribers id f.subscriber
    rw [hq, Option.map_some, Option.getD_some] at htotal
    have hbalance := hb.balance
    refine ⟨⟨r.subscribers.insert id f.subscriber, f.fanoutBytes, f.report⟩, ?_, ?_⟩
    · obtain ⟨f₁, hf₁, hf₂⟩ := bind_eq_ok.mp heq
      simp [Round.serve, hq, hf₁, hf₂]
    · constructor
      · simp only at htotal hbalance ⊢
        omega
      · exact hb.bounded
      · exact size_insert_of_mem (mem_of_lookup hq)
      · intro id' hid q' hq'
        obtain rfl := mem_singleton.mp hid
        cases hq.symm.trans hq'
        refine ⟨f.subscriber, AList.lookup_insert _, hb.queue, ?_⟩
        rw [hb.events_eq, hb.state_eq]
        exact hs
      · intro id' hid
        exact AList.lookup_insert_ne (fun h => hid (mem_singleton.mpr h))
      · intro id' hid
        rw [lookup_insert, if_neg, hid]
        rintro rfl
        rw [hq] at hid
        cases hid

/-- **The loop of a publication**: every viewer it comes by is served once. -/
theorem serve_loop (limits : LiveHubLimits) (cache : MediaCache)
    (transition : VideoTrackTransition) (event : Tagged) :
    ∀ (ids : List UInt64) (r : Round), ids.Nodup → total bytes r.subscribers ≤ r.fanoutBytes →
      ∃ r', ids.foldlM (Round.serve limits cache transition event) r = .ok r'
        ∧ RoundSpec limits cache transition event ids r r'
  | [], r, _, _ => ⟨r, rfl, .refl r⟩
  | id :: ids, r, hnodup, hr => by
    obtain ⟨r₁, h₁, hs₁⟩ := serve_turn limits cache transition event id hr
    have hr₁ : total bytes r₁.subscribers ≤ r₁.fanoutBytes := by
      have := hs₁.balance
      omega
    obtain ⟨hnot, hnodup⟩ := nodup_cons.mp hnodup
    obtain ⟨r₂, h₂, hs₂⟩ := serve_loop limits cache _ event ids r₁ hnodup hr₁
    refine ⟨r₂, by rw [foldlM_cons, h₁, bind_ok, h₂], ?_, hs₂.bounded ∘ hs₁.bounded,
      hs₂.size.trans hs₁.size, ?_, ?_, fun i h => hs₂.absent i (hs₁.absent i h)⟩
    · have := hs₁.balance
      have := hs₂.balance
      omega
    · intro i hi q hq
      rcases mem_cons.mp hi with rfl | hi
      · obtain ⟨q', hq', hrest⟩ := hs₁.served i (mem_singleton_self i) q hq
        exact ⟨q', (hs₂.others i hnot).trans hq', hrest⟩
      · have hne : i ∉ [id] := fun h => hnot (mem_singleton.mp h ▸ hi)
        exact hs₂.served i hi q ((hs₁.others i hne).trans hq)
    · intro i hi
      have hne : i ∉ [id] := fun h => hi (mem_cons.mpr (.inl (mem_singleton.mp h)))
      rw [hs₂.others i fun h => hi (mem_cons_of_mem _ h), hs₁.others i hne]

variable (stream : LiveStream)

theorem LiveStream.servingOrder_nodup : stream.servingOrder.Nodup :=
  (perm_insertionSort _ _).nodup_iff.mpr stream.subscribers.nodupKeys

theorem LiveStream.mem_servingOrder {stream : LiveStream} {id : UInt64} {q : SubscriberQueue}
    (h : stream.subscribers.lookup id = some q) : id ∈ stream.servingOrder := by
  refine (perm_insertionSort _ _).mem_iff.mpr (AList.mem_keys.mp ?_)
  exact mem_of_lookup h

/-! ## Effects -/

/-- A stream that a publisher has just been attached to. -/
def LiveStream.openedBy (stream : LiveStream) (incarnation : UInt64) : LiveStream :=
  (resetSubscribers { stream with publisher := some incarnation, cache := .default }).2

/-- A stream whose publisher has just left. -/
def LiveStream.closed (stream : LiveStream) : LiveStream :=
  (resetSubscribers { stream with publisher := none, cache := .default }).2

@[simp] theorem LiveStream.closed_publisher : stream.closed.publisher = none := rfl

variable {incarnation : UInt64}

theorem LiveStream.closed_subscribers :
    (stream.openedBy incarnation).subscribers = stream.closed.subscribers := rfl

def SubscriberQueue.reset : SubscriberQueue := ⟨[], 0, .awaitingMedia⟩

theorem LiveStream.lookup_closed {id : UInt64} : stream.closed.subscribers.lookup id
      = (stream.subscribers.lookup id).map fun _ => reset :=
  lookup_mapVals

@[simp] theorem LiveStream.size_closed :
    size stream.closed.subscribers = size stream.subscribers :=
  size_mapVals

@[simp] theorem LiveStream.queuedBytes_closed : stream.closed.queuedBytes = 0 := by
  simp [LiveStream.queuedBytes, LiveStream.closed, resetSubscribers, total, mapVals,
    clearQueue, Function.comp_def]

@[simp] theorem LiveStream.queuedBytes_openedBy : (stream.openedBy incarnation).queuedBytes = 0 :=
  stream.queuedBytes_closed

namespace World

inductive Effect (limits : LiveHubLimits) (w : World) : World → Prop
  /-- Nothing. -/
  | idle : Effect limits w w
  /-- A publisher is attached to a stream. -/
  | attached (key : StreamKey) (incarnation : UInt64)
      (hlimit : w.state.streamLimitReached limits key = false)
      (hnext : checkedAdd w.state.nextPublisherIncarnation 1 = some incarnation) : Effect limits w
        { w with
          state := { w.state with
            nextPublisherIncarnation := incarnation
            streams := w.state.streams.insert key ((w.state.entry key).openedBy incarnation)
            fanoutBytes := w.state.fanoutBytes - (w.state.entry key).queuedBytes }
          leases := w.leases ++ [⟨key, incarnation⟩]
          incarnations := w.incarnations ++ [incarnation] }
  /-- A viewer subscribes to a stream. -/
  | subscribed (key : StreamKey) (id : UInt64) (stream : LiveStream)
      (hcount : w.state.subscriberCount < limits.maxSubscribers)
      (hlimit : w.state.streamLimitReached limits key = false)
      (hstream : ∀ stream, w.state.streams.lookup key = some stream →
        size stream.subscribers < limits.maxSubscribersPerStream)
      (hnext : checkedAdd w.state.nextSubscriberId 1 = some id)
      (heq : stream = { w.state.entry key with
        subscribers := (w.state.entry key).subscribers.insert id
          (.new (w.state.entry key).cache.expectsVideo) }) : Effect limits w { w with
          state := { w.state with
            nextSubscriberId := id
            streams := w.state.streams.insert key stream
            subscriberCount := w.state.subscriberCount + 1 }
          subscriptions := w.subscriptions ++ [⟨key, id, []⟩] }
  /-- The current publisher of a stream publishes an event. -/
  | published (lease : PublisherLease) (event : MediaEvent) (stream : LiveStream) (r : Round)
      (cache : MediaCache) (hlease : lease ∈ w.leases)
      (hstream : w.state.streams.lookup lease.key = some stream)
      (hcurrent : stream.publisher = some lease.incarnation)
      (hround : RoundSpec limits (stream.cache.transition (w.tag lease event)).2
        (stream.cache.transition (w.tag lease event)).1 (w.tag lease event) stream.servingOrder
        ⟨stream.subscribers, w.state.fanoutBytes, ⟨0, 0, 0, 0⟩⟩ r)
      (hstore : (stream.cache.transition (w.tag lease event)).2.store (w.tag lease event)
        = .ok cache) : Effect limits w { w with
          state := { w.state with
            streams := w.state.streams.insert lease.key
              { stream with subscribers := r.subscribers, cache }
            fanoutBytes := r.fanoutBytes }
          issued := w.issued ++ [w.tag lease event] }
  /-- A viewer takes the next event out of its queue. -/
  | delivered (i : ℕ) (subscription : PlaybackSubscription) (stream : LiveStream)
      (q rest : SubscriberQueue) (event : Tagged) (events : List Tagged)
      (hi : w.subscriptions[i]? = some subscription)
      (hstream : w.state.streams.lookup subscription.key = some stream)
      (hq : stream.subscribers.lookup subscription.subscriberId = some q)
      (hevents : q.events = event :: events)
      (hrest : rest = { q with events, bytes := q.bytes - event.payloadLen }) : Effect limits w
        { w with
          state := { w.state with
            streams := w.state.streams.insert subscription.key { stream with
              subscribers := stream.subscribers.insert subscription.subscriberId rest }
            fanoutBytes := w.state.fanoutBytes - event.payloadLen }
          subscriptions := w.subscriptions.set i
            { subscription with delivered := subscription.delivered ++ [event] } }
  /-- A lease that is not current is dropped. -/
  | forgotten (i : ℕ) (lease : PublisherLease) (hi : w.leases[i]? = some lease)
      (hstale : ∀ stream, w.state.streams.lookup lease.key = some stream →
        stream.publisher ≠ some lease.incarnation) :
      Effect limits w { w with leases := w.leases.eraseIdx i }
  /-- The lease of the current publisher is dropped. -/
  | unpublished (i : ℕ) (lease : PublisherLease) (stream : LiveStream)
      (hi : w.leases[i]? = some lease) (hstream : w.state.streams.lookup lease.key = some stream)
      (hcurrent : stream.publisher = some lease.incarnation) : Effect limits w { w with
          state := { w.state with
            streams := if size stream.closed.subscribers = 0 then
                w.state.streams.erase lease.key
              else w.state.streams.insert lease.key stream.closed
            fanoutBytes := w.state.fanoutBytes - stream.queuedBytes }
          leases := w.leases.eraseIdx i }
  /-- A subscription is dropped. -/
  | unsubscribed (i : ℕ) (subscription : PlaybackSubscription) (stream rest : LiveStream)
      (q : SubscriberQueue) (hi : w.subscriptions[i]? = some subscription)
      (hstream : w.state.streams.lookup subscription.key = some stream)
      (hq : stream.subscribers.lookup subscription.subscriberId = some q)
      (hrest : rest = { stream with
        subscribers := stream.subscribers.erase subscription.subscriberId }) : Effect limits w
        { w with
          state := { w.state with
            streams := if rest.publisher.isNone ∧ size rest.subscribers = 0 then
                w.state.streams.erase subscription.key
              else w.state.streams.insert subscription.key rest
            subscriberCount := w.state.subscriberCount - 1
            fanoutBytes := w.state.fanoutBytes - q.bytes }
          subscriptions := w.subscriptions.eraseIdx i }

/-- The counters of the hub cover what they are decreased by, and every subscription has a queue. -/
structure Covered (w : World) : Prop where
  fanout : w.state.fanoutBytes = total LiveStream.queuedBytes w.state.streams
  queue : ∀ key stream, w.state.streams.lookup key = some stream →
    ∀ id q, stream.subscribers.lookup id = some q → q.bytes = payloadBytes q.events
  count : w.state.subscriberCount = total (fun s => size s.subscribers) w.state.streams
  held : ∀ subscription ∈ w.subscriptions, ∃ stream q,
    w.state.streams.lookup subscription.key = some stream
      ∧ stream.subscribers.lookup subscription.subscriberId = some q

variable {w : World}

theorem Covered.queuedBytes_le (h : w.Covered) {key : StreamKey} {stream : LiveStream}
    (hs : w.state.streams.lookup key = some stream) : stream.queuedBytes ≤ w.state.fanoutBytes :=
  h.fanout ▸ le_total hs

theorem Covered.entry_le (h : w.Covered) {key : StreamKey} :
    (w.state.entry key).queuedBytes ≤ w.state.fanoutBytes := by
  unfold entry
  cases hs : w.state.streams.lookup key with
  | none => exact Nat.zero_le _
  | some stream => exact h.queuedBytes_le hs

theorem createPublisher_effect (h : w.Covered) (key : StreamKey) :
    ∃ r, w.state.createPublisher limits key = .ok r ∧ Effect limits w (w.attached r) := by
  unfold createPublisher
  split_ifs with hlimit
  · exact ⟨_, rfl, .idle⟩
  · cases hnext : checkedAdd _ 1 with
    | none => exact ⟨_, rfl, .idle⟩
    | some incarnation =>
      have hle : (resetSubscribers { w.state.entry key with
          publisher := some incarnation, cache := .default }).1 ≤ w.state.fanoutBytes :=
        h.entry_le
      simp only [subSize_of_le hle, bind_ok]
      exact ⟨_, rfl, .attached key _ (by simpa using hlimit) hnext⟩

theorem attachPublisher_effect (h : w.Covered) (key : StreamKey) :
    ∃ r, w.state.attachPublisher limits key = .ok r ∧ Effect limits w (w.attached r) := by
  unfold attachPublisher
  split_ifs
  · exact ⟨_, rfl, .idle⟩
  · exact ⟨_, rfl, .idle⟩
  · exact createPublisher_effect h key

theorem subscribe_effect (w : World) (key : StreamKey) :
    Effect limits w (w.subscribed (w.state.subscribe limits key)) := by
  unfold subscribe
  split_ifs with hcount hlimit hstream
  · exact .idle
  · exact .idle
  · exact .idle
  · cases hnext : checkedAdd _ 1 with
    | none => exact .idle
    | some id =>
      refine .subscribed key id _ (Nat.lt_of_not_le hcount) (by simpa using hlimit) ?_ hnext rfl
      intro stream hs
      simpa [hs] using hstream

theorem store_ok (cache : MediaCache) (event : Tagged) : ∃ cache',
    cache.store event = .ok cache' := by
  unfold MediaCache.store
  split
  case h_3 hkind | h_4 hkind | h_5 hkind =>
    have hheader : event.event.kind.headerCodec = _ := congrArg _ hkind
    simp only [Tagged.videoCodec, MediaEvent.videoCodec_of_header hheader, expect_some, bind_ok]
    exact ⟨_, rfl⟩
  all_goals exact ⟨_, rfl⟩

variable {lease : PublisherLease} {i : ℕ} {subscription : PlaybackSubscription}

theorem publish_effect (h : w.Covered) (hlease : lease ∈ w.leases) (event : MediaEvent) :
    ∃ r, w.state.publish limits lease (w.tag lease event) = .ok r
      ∧ Effect limits w (w.published (w.tag lease event) r) := by
  unfold publish
  split
  · exact ⟨_, rfl, .idle⟩
  · split
    · exact ⟨_, rfl, .idle⟩
    · rename_i stream hfilter
      obtain ⟨hstream, hcurrent⟩ := Option.filter_eq_some_iff.mp hfilter
      have hcurrent := of_decide_eq_true hcurrent
      obtain ⟨r, hr, hround⟩ := serve_loop limits (stream.cache.transition (w.tag lease event)).2
        (stream.cache.transition (w.tag lease event)).1 (w.tag lease event) _
        ⟨stream.subscribers, w.state.fanoutBytes, ⟨0, 0, 0, 0⟩⟩ stream.servingOrder_nodup
        (h.queuedBytes_le hstream)
      obtain ⟨cache, hcache⟩ := store_ok (stream.cache.transition (w.tag lease event)).2
        (w.tag lease event)
      simp only [hr, bind_ok, hcache]
      exact ⟨_, rfl, .published lease event stream r cache hlease hstream hcurrent hround hcache⟩

theorem tryNext_effect (h : w.Covered) (hi : w.subscriptions[i]? = some subscription) :
    ∃ r, w.state.tryNext subscription.key subscription.subscriberId = .ok r
      ∧ Effect limits w (w.delivered i subscription r) := by
  unfold tryNext
  cases hstream : w.state.streams.lookup _ with
  | none => exact ⟨_, rfl, .idle⟩
  | some stream =>
    cases hq : stream.subscribers.lookup subscription.subscriberId with
    | none => exact ⟨(none, w.state), by simp only [hq], .idle⟩
    | some q =>
      cases hevents : q.events with
      | nil => exact ⟨(none, w.state), by simp only [hq, hevents], .idle⟩
      | cons event events =>
        have hbytes : event.payloadLen ≤ q.bytes := by
          rw [h.queue _ _ hstream _ _ hq, hevents, payloadBytes_cons]
          exact Nat.le_add_right _ _
        have hfanout : event.payloadLen ≤ w.state.fanoutBytes :=
          (hbytes.trans (le_total hq)).trans (h.queuedBytes_le hstream)
        simp only [hq, hevents, subSize_of_le hbytes, subSize_of_le hfanout, bind_ok]
        exact ⟨_, rfl, .delivered i _ stream q _ event events hi hstream hq hevents rfl⟩

theorem dropPublisher_effect (h : w.Covered) (hi : w.leases[i]? = some lease) :
    ∃ s, w.state.dropPublisher lease = .ok s
      ∧ Effect limits w { w with state := s, leases := w.leases.eraseIdx i } := by
  unfold dropPublisher
  cases hstream : w.state.streams.lookup lease.key with
  | none => exact ⟨_, rfl, .forgotten i lease hi (by simp [hstream])⟩
  | some stream =>
    by_cases hcurrent : stream.publisher ≠ some lease.incarnation
    · simp only [if_pos hcurrent]
      refine ⟨_, rfl, .forgotten i lease hi ?_⟩
      intro stream' hstream'
      rwa [← Option.some.inj (hstream.symm.trans hstream')]
    · simp only [if_neg hcurrent]
      have hqueued := h.queuedBytes_le hstream
      have hle : (resetSubscribers { stream with publisher := none, cache := .default }).1
          ≤ w.state.fanoutBytes := hqueued
      simp only [subSize_of_le hle, bind_ok]
      exact ⟨_, rfl, .unpublished i lease stream hi hstream (not_not.mp hcurrent)⟩

theorem dropSubscription_effect (h : w.Covered) (hi : w.subscriptions[i]? = some subscription) :
    ∃ s, w.state.dropSubscription subscription.key subscription.subscriberId = .ok s
      ∧ Effect limits w { w with state := s, subscriptions := w.subscriptions.eraseIdx i } := by
  obtain ⟨stream, q, hstream, hq⟩ := h.held _ (mem_of_getElem? hi)
  have hsize : 1 ≤ size stream.subscribers := by
    have hmem := mem_of_lookup hq
    have := size_erase hmem
    omega
  have hcount : 1 ≤ w.state.subscriberCount := by
    rw [h.count]
    exact hsize.trans (le_total (w := fun s : LiveStream => size _) hstream)
  have hbytes : q.bytes ≤ w.state.fanoutBytes :=
    (le_total hq).trans (h.queuedBytes_le hstream)
  simp only [dropSubscription, hstream, hq, subSize_of_le hcount, subSize_of_le hbytes, bind_ok]
  exact ⟨_, rfl, .unsubscribed i _ stream _ q hi hstream hq rfl⟩

/-- **One operation** does not panic and has one of the effects. -/
theorem step_effect (h : w.Covered) {op : HubOp} :
    ∃ w', step limits w op = .ok w' ∧ Effect limits w w' := by
  cases op with
  | attach key =>
    obtain ⟨r, hr, he⟩ := attachPublisher_effect h key
    exact ⟨_, by simp only [step, hr, bind_ok]; rfl, he⟩
  | replace key =>
    obtain ⟨r, hr, he⟩ := createPublisher_effect h key
    exact ⟨_, by simp only [step, replacePublisher, hr, bind_ok]; rfl, he⟩
  | subscribe key => exact ⟨_, rfl, subscribe_effect w key⟩
  | publish i event =>
    cases hi : w.leases[i]? with
    | none => exact ⟨w, by simp only [step, hi], .idle⟩
    | some lease =>
      obtain ⟨r, hr, he⟩ := publish_effect h (mem_of_getElem? hi) event
      exact ⟨_, by simp only [step, hi, hr, bind_ok]; rfl, he⟩
  | tryNext i =>
    cases hi : w.subscriptions[i]? with
    | none => exact ⟨w, by simp only [step, hi], .idle⟩
    | some subscription =>
      obtain ⟨r, hr, he⟩ := tryNext_effect h hi
      exact ⟨_, by simp only [step, hi, hr, bind_ok]; rfl, he⟩
  | dropPublisher i =>
    cases hi : w.leases[i]? with
    | none => exact ⟨w, by simp only [step, hi], .idle⟩
    | some lease =>
      obtain ⟨s, hs, he⟩ := dropPublisher_effect h hi
      exact ⟨_, by simp only [step, hi, hs, bind_ok]; rfl, he⟩
  | dropSubscription i =>
    cases hi : w.subscriptions[i]? with
    | none => exact ⟨w, by simp only [step, hi], .idle⟩
    | some subscription =>
      obtain ⟨s, hs, he⟩ := dropSubscription_effect h hi
      exact ⟨_, by simp only [step, hi, hs, bind_ok]; rfl, he⟩

end World

end Oxiroute.Rtmp
