import Oxiroute.Rtmp.LiveSteps

/-!
# Accounting of the hub

`Accounted` is the promise of the limits: the counter of queued bytes is the sum of what the queues
hold, the counter of viewers is the number of subscriptions, and everything is within its limit.

Every effect changes one stream. `Moves` says what the accounting needs to know of such a change,
and `StateSound` is the invariant it keeps. One limit is not enforced for the first viewer of a
stream: `subscribe` reads the number of viewers of a stream that exists already, so a hub that
allows no viewer per stream still takes one. `run_accounted_iff` says for which limits the promise
is kept.
-/

namespace Oxiroute.Rtmp

open Lib Http LiveHubState Table LiveStream List Option

/-- A stream that has to be kept. -/
def LiveStream.Occupied (stream : LiveStream) : Prop :=
  stream.publisher.isSome = true ∨ 0 < size stream.subscribers

instance (stream : LiveStream) : Decidable stream.Occupied :=
  inferInstanceAs (Decidable (_ ∨ _))

variable {stream : LiveStream} {s : LiveHubState} {key : StreamKey} {q : SubscriberQueue}
  {s' : LiveHubState} {stream' : LiveStream}

theorem LiveStream.Occupied.of_lookup {id : UInt64} (h : stream.subscribers.lookup id = some q) :
    stream.Occupied := by
  have := size_erase (mem_of_lookup h : id ∈ stream.subscribers)
  exact .inr (by omega)

/-! ## The change of one stream -/

/-- One stream becomes `stream'`, and goes when nobody needs it. -/
def Change (s : LiveHubState) (key : StreamKey) (stream' : LiveStream)
    (streams' : Table StreamKey LiveStream) : Prop :=
  (stream'.Occupied ∧ streams' = s.streams.insert key stream')
    ∨ (¬stream'.Occupied ∧ streams' = s.streams.erase key)

namespace Change

variable {s : LiveHubState} {key : StreamKey} {stream' : LiveStream}
  {streams' : Table StreamKey LiveStream}

variable (h : Change s key stream' streams')
include h

theorem lookup_ne {k : StreamKey} (hk : k ≠ key) : streams'.lookup k = s.streams.lookup k := by
  rcases h with ⟨_, rfl⟩ | ⟨_, rfl⟩
  · exact AList.lookup_insert_ne hk
  · exact AList.lookup_erase_ne hk

theorem lookup_self (hocc : stream'.Occupied) : streams'.lookup key = some stream' := by
  rcases h with ⟨_, rfl⟩ | ⟨hnot, _⟩
  · exact AList.lookup_insert _
  · exact absurd hocc hnot

theorem of_lookup {k : StreamKey} (hk : streams'.lookup k = some stream) :
    (k = key ∧ stream = stream' ∧ stream'.Occupied)
      ∨ (k ≠ key ∧ s.streams.lookup k = some stream) := by
  by_cases heq : k = key
  · subst heq
    rcases h with ⟨hocc, rfl⟩ | ⟨_, rfl⟩
    · rw [AList.lookup_insert] at hk
      exact .inl ⟨rfl, (Option.some.inj hk).symm, hocc⟩
    · rw [AList.lookup_erase] at hk
      cases hk
  · exact .inr ⟨heq, (h.lookup_ne heq) ▸ hk⟩

theorem total (weight : LiveStream → ℕ) (hempty : ¬stream'.Occupied → weight stream' = 0)
    (hdefault : weight .default = 0) : Table.total weight streams' + weight (s.entry key)
      = Table.total weight s.streams + weight stream' := by
  have hentry : weight (s.entry key) = ((s.streams.lookup key).map weight).getD 0 := by
    unfold entry
    cases s.streams.lookup key with
    | none => exact hdefault
    | some stream => rfl
  rw [hentry]
  rcases h with ⟨_, rfl⟩ | ⟨hnot, rfl⟩
  · exact total_insert_add weight s.streams key stream'
  · rw [hempty hnot]
    cases hs : s.streams.lookup key with
    | none =>
      rw [erase_of_notMem (AList.lookup_eq_none.mp hs)]
      rfl
    | some stream => exact total_erase hs

theorem size_le {maximum : ℕ} (hs : size s.streams ≤ maximum)
    (hnew : s.streams.lookup key = none → size s.streams < maximum) : size streams' ≤ maximum := by
  rcases h with ⟨_, rfl⟩ | ⟨_, rfl⟩
  · cases hk : s.streams.lookup key with
    | none =>
      rw [size_insert (AList.lookup_eq_none.mp hk)]
      exact hnew hk
    | some stream =>
      rw [size_insert_of_mem (mem_of_lookup hk)]
      exact hs
  · exact size_erase_le.trans hs

omit h

theorem insert (hocc : stream'.Occupied) : Change s key stream' (s.streams.insert key stream') :=
  .inl ⟨hocc, rfl⟩

theorem ite {p : Prop} [Decidable p] (hp : p ↔ ¬stream'.Occupied) :
    Change s key stream' (if p then s.streams.erase key else s.streams.insert key stream') := by
  by_cases h : p
  · exact .inr ⟨hp.mp h, if_pos h⟩
  · exact .inl ⟨not_not.mp (mt hp.mpr h), if_neg h⟩

theorem left : Change s key stream' (if stream'.publisher.isNone ∧ size stream'.subscribers = 0 then
    s.streams.erase key else s.streams.insert key stream') := by
  refine .ite ?_
  unfold LiveStream.Occupied
  cases stream'.publisher <;> simp

theorem closed {stream : LiveStream} : Change s key stream.closed
    (if size stream.closed.subscribers = 0 then s.streams.erase key
      else s.streams.insert key stream.closed) := by
  refine .ite ?_
  unfold LiveStream.Occupied
  simp

end Change

/-! ## The state -/

/-- The limits of a hub hold, but for the number of viewers of one stream. -/
structure StateSound (limits : LiveHubLimits) (s : LiveHubState) : Prop where
  fanout : s.fanoutBytes = Table.total queuedBytes s.streams
  count : s.subscriberCount = Table.total (fun st => size st.subscribers) s.streams
  queues : ∀ key stream, s.streams.lookup key = some stream →
    ∀ id q, stream.subscribers.lookup id = some q → QueueSound limits q ∧ id ≤ s.nextSubscriberId
  bounded : s.fanoutBytes ≤ limits.maxFanoutBytes
  streams : size s.streams ≤ limits.maxStreams
  subscribers : s.subscriberCount ≤ limits.maxSubscribers
  occupied : ∀ key stream, s.streams.lookup key = some stream → stream.Occupied

/-- What the accounting needs to know of a change. -/
structure Moves (limits : LiveHubLimits) (s s' : LiveHubState) (key : StreamKey)
    (stream' : LiveStream) : Prop where
  change : Change s key stream' s'.streams
  fanout : s'.fanoutBytes + (s.entry key).queuedBytes = s.fanoutBytes + stream'.queuedBytes
  count : s'.subscriberCount + size (s.entry key).subscribers
    = s.subscriberCount + size stream'.subscribers
  queues : ∀ id q, stream'.subscribers.lookup id = some q →
    QueueSound limits q ∧ id ≤ s'.nextSubscriberId
  bounded : s'.fanoutBytes ≤ limits.maxFanoutBytes
  streams : s.streams.lookup key = none → size s.streams < limits.maxStreams
  subscribers : s'.subscriberCount ≤ limits.maxSubscribers
  next : s.nextSubscriberId ≤ s'.nextSubscriberId
  viewers : size stream'.subscribers ≤ size (s.entry key).subscribers
    ∨ size stream'.subscribers ≤ size (s.entry key).subscribers + 1
      ∧ ∀ stream, s.streams.lookup key = some stream →
        size stream.subscribers < limits.maxSubscribersPerStream

variable {limits : LiveHubLimits}

theorem LiveStream.size_eq_zero (h : ¬stream.Occupied) : size stream.subscribers = 0 := by
  unfold LiveStream.Occupied at h
  omega

theorem LiveStream.queuedBytes_eq_zero (h : ¬stream.Occupied) : stream.queuedBytes = 0 := by
  have hnil := length_eq_zero_iff.mp (size_eq_zero h)
  simp [queuedBytes, Table.total, hnil]

theorem StateSound.moves (h : StateSound limits s) (hm : Moves limits s s' key stream') :
    StateSound limits s' where
  fanout := by
    have := hm.change.total _ queuedBytes_eq_zero rfl
    have := hm.fanout
    have := h.fanout
    omega
  count := by
    have := hm.change.total (fun st => size _) size_eq_zero rfl
    have := hm.count
    have := h.count
    omega
  queues k stream hk id q hq := by
    rcases hm.change.of_lookup hk with ⟨rfl, rfl, _⟩ | ⟨_, hk⟩
    · exact hm.queues id q hq
    · obtain ⟨hsound, hle⟩ := h.queues k stream hk id q hq
      exact ⟨hsound, UInt64.le_trans hle hm.next⟩
  bounded := hm.bounded
  streams := hm.change.size_le h.streams hm.streams
  subscribers := hm.subscribers
  occupied k stream hk := by
    rcases hm.change.of_lookup hk with ⟨rfl, rfl, hocc⟩ | ⟨_, hk⟩
    · exact hocc
    · exact h.occupied k stream hk

theorem entry_of_lookup (h : s.streams.lookup key = some stream) : s.entry key = stream := by
  rw [entry, h, getD_some]

/-- A change of a stream that is there already, and that gets no new viewer. -/
theorem Moves.of_lookup (hstream : s.streams.lookup key = some stream)
    (hchange : Change s key stream' s'.streams)
    (hfanout : s'.fanoutBytes + stream.queuedBytes = s.fanoutBytes + stream'.queuedBytes)
    (hcount : s'.subscriberCount + size stream.subscribers
      = s.subscriberCount + size stream'.subscribers)
    (hqueues : ∀ id q, stream'.subscribers.lookup id = some q →
      QueueSound limits q ∧ id ≤ s'.nextSubscriberId)
    (hbounded : s'.fanoutBytes ≤ limits.maxFanoutBytes)
    (hsubscribers : s'.subscriberCount ≤ limits.maxSubscribers)
    (hnext : s'.nextSubscriberId = s.nextSubscriberId)
    (hsize : size stream'.subscribers ≤ size stream.subscribers) :
      Moves limits s s' key stream' := by
  rw [← entry_of_lookup hstream] at hfanout hcount hsize
  refine ⟨hchange, hfanout, hcount, hqueues, hbounded, fun hnone => ?_, hsubscribers,
    hnext ▸ UInt64.le_refl _, .inl hsize⟩
  rw [hstream] at hnone
  cases hnone

theorem StateSound.entry_queues (h : StateSound limits s) {id : UInt64}
    (hq : (s.entry key).subscribers.lookup id = some q) :
    QueueSound limits q ∧ id ≤ s.nextSubscriberId := by
  cases hs : s.streams.lookup key with
  | none =>
    rw [entry, hs] at hq
    cases hq
  | some stream => exact h.queues key stream hs id q (entry_of_lookup hs ▸ hq)

theorem queueSound_new {state : SubscriberState} : QueueSound limits ⟨[], 0, state⟩ :=
  ⟨rfl, zero_le, zero_le⟩

theorem lt_maxStreams (h : s.streamLimitReached limits key = false)
    (hk : s.streams.lookup key = none) : size s.streams < limits.maxStreams := by
  simpa [streamLimitReached, hk] using h

namespace World

/-- The accounting of every effect. -/
theorem Effect.moves {w w' : World} (h : StateSound limits w.state) (he : Effect limits w w') :
    w'.state = w.state ∨ ∃ key stream', Moves limits w.state w'.state key stream' := by
  cases he with
  | idle | forgotten => exact .inl rfl
  | attached key incarnation hlimit hnext =>
    refine .inr ⟨key, _, .insert (.inl rfl), ?_, ?_, ?_, ?_, lt_maxStreams hlimit, h.subscribers,
      UInt64.le_refl _, .inl (size_closed _).le⟩
    · have hle : (w.state.entry key).queuedBytes ≤ w.state.fanoutBytes := by
        cases hs : w.state.streams.lookup key with
        | none =>
          rw [entry, hs]
          exact zero_le
        | some stream =>
          rw [entry_of_lookup hs, h.fanout]
          exact le_total hs
      rw [queuedBytes_openedBy]
      exact Nat.sub_add_cancel hle
    · rw [closed_subscribers, size_closed]
    · intro id q hq
      rw [closed_subscribers, lookup_closed] at hq
      obtain ⟨q₀, hq₀, rfl⟩ := map_eq_some_iff.mp hq
      exact ⟨queueSound_new, (h.entry_queues hq₀).2⟩
    · exact (Nat.sub_le _ _).trans h.bounded
  | subscribed key id stream hcount hlimit hstream hnext heq =>
    have hlt : w.state.nextSubscriberId < id := lt_of_checkedAdd_one hnext
    -- The identity is new, so the table of viewers grows.
    have hfresh : id ∉ (w.state.entry key).subscribers := by
      intro hmem
      obtain ⟨q, hq⟩ := exists_of_mem hmem
      exact absurd (h.entry_queues hq).2 (UInt64.not_le.mpr hlt)
    subst heq
    refine .inr ⟨key, _, .insert (.of_lookup (AList.lookup_insert _)), ?_, ?_, ?_, h.bounded,
      lt_maxStreams hlimit, hcount, UInt64.le_of_lt hlt, .inr ⟨(size_insert hfresh).le, hstream⟩⟩
    · change w.state.fanoutBytes + _ = w.state.fanoutBytes + Table.total _ _
      rw [total_insert hfresh]
      exact congrArg _ (zero_add _).symm
    · change w.state.subscriberCount + 1 + _ = w.state.subscriberCount + size _
      rw [size_insert hfresh]
      omega
    · intro id' q hq
      obtain ⟨hid, rfl⟩ | ⟨-, hq⟩ := of_lookup_insert hq
      · exact ⟨queueSound_new, hid ▸ UInt64.le_refl _⟩
      · obtain ⟨hsound, hle⟩ := h.entry_queues hq
        exact ⟨hsound, UInt64.le_trans hle (UInt64.le_of_lt hlt)⟩
  | published lease event stream r cache hlease hstream hcurrent hround hstore =>
    refine .inr ⟨lease.key, _, .of_lookup hstream (.insert (.inl (by simp [hcurrent])))
      hround.balance (congrArg _ hround.size.symm) ?_ (hround.bounded h.bounded) h.subscribers rfl
      hround.size.le⟩
    intro id q' hq'
    cases hq : stream.subscribers.lookup id with
    | none =>
      have := hround.absent id hq
      rw [this] at hq'
      cases hq'
    | some q =>
      obtain ⟨q'', hq'', hsound, -⟩ := hround.served id (mem_servingOrder hq) q hq
      cases hq''.symm.trans hq'
      obtain ⟨hq, hle⟩ := h.queues _ _ hstream id q hq
      exact ⟨hsound hq, hle⟩
  | delivered i subscription stream q rest e events hi hstream hq hevents hrest =>
    obtain ⟨hsound, hid⟩ := h.queues _ _ hstream _ _ hq
    have hbytes : q.bytes = e.payloadLen + payloadBytes events := by
      rw [hsound.bytes, hevents, payloadBytes_cons]
    have htotal := total_insert_add SubscriberQueue.bytes stream.subscribers
      subscription.subscriberId rest
    rw [hq, map_some, getD_some, hrest] at htotal
    have hle : stream.queuedBytes ≤ w.state.fanoutBytes := h.fanout ▸ le_total hstream
    have hqle : q.bytes ≤ stream.queuedBytes := le_total hq
    have hsize := size_insert_of_mem (v := rest)
      (mem_of_lookup hq : subscription.subscriberId ∈ stream.subscribers)
    subst hrest
    refine .inr ⟨subscription.key, _, .of_lookup hstream
      (.insert (.of_lookup (AList.lookup_insert _))) ?_ (congrArg _ hsize.symm) ?_
      ((Nat.sub_le _ _).trans h.bounded) h.subscribers rfl hsize.le⟩
    · simp only [queuedBytes] at htotal hle hqle ⊢
      omega
    · intro id' q' hq'
      obtain ⟨hid', rfl⟩ | ⟨-, hq'⟩ := of_lookup_insert hq'
      · have hmessages := hsound.messages
        rw [hevents, length_cons] at hmessages
        refine ⟨⟨?_, ?_, (Nat.sub_le _ _).trans hsound.bounded⟩, hid' ▸ hid⟩
        · change q.bytes - e.payloadLen = payloadBytes events
          omega
        · exact (Nat.le_succ _).trans hmessages
      · exact h.queues _ _ hstream id' q' hq'
  | unpublished i lease stream hi hstream hcurrent =>
    have hle : stream.queuedBytes ≤ w.state.fanoutBytes := h.fanout ▸ le_total hstream
    refine .inr ⟨lease.key, stream.closed, .of_lookup hstream .closed ?_ ?_ ?_
      ((Nat.sub_le _ _).trans h.bounded) h.subscribers rfl stream.size_closed.le⟩
    · rw [queuedBytes_closed]
      exact Nat.sub_add_cancel hle
    · rw [size_closed]
    · intro id q hq
      rw [lookup_closed] at hq
      obtain ⟨q₀, hq₀, rfl⟩ := map_eq_some_iff.mp hq
      exact ⟨queueSound_new, (h.queues _ _ hstream id q₀ hq₀).2⟩
  | unsubscribed i subscription stream rest q hi hstream hq hrest =>
    have hle : stream.queuedBytes ≤ w.state.fanoutBytes := h.fanout ▸ le_total hstream
    have htotal := total_erase (w := SubscriberQueue.bytes) hq
    have hsize := size_erase (mem_of_lookup hq : subscription.subscriberId ∈ stream.subscribers)
    have hcount : size stream.subscribers ≤ w.state.subscriberCount := by
      rw [h.count]
      exact le_total (w := fun st : LiveStream => size _) hstream
    subst hrest
    refine .inr ⟨subscription.key, _, .of_lookup hstream .left ?_ ?_ ?_
      ((Nat.sub_le _ _).trans h.bounded) ((Nat.sub_le _ _).trans h.subscribers) rfl size_erase_le⟩
    · simp only [queuedBytes] at htotal hle ⊢
      omega
    · simp only
      omega
    · intro id q' hq'
      obtain ⟨-, hq'⟩ := of_lookup_erase hq'
      exact h.queues _ _ hstream id q' hq'

theorem Effect.stateSound {w w' : World} (h : StateSound limits w.state)
    (he : Effect limits w w') : StateSound limits w'.state := by
  rcases he.moves h with heq | ⟨key, stream', hm⟩
  · rwa [heq]
  · exact h.moves hm

end World

/-! ## The subscriptions -/

def LiveHubState.viewer (s : LiveHubState) (key : StreamKey) (id : UInt64) :
    Option SubscriberQueue :=
  (s.streams.lookup key).bind fun stream => stream.subscribers.lookup id

theorem LiveHubState.viewer_of_lookup (h : s.streams.lookup key = some stream) {id : UInt64} :
    s.viewer key id = stream.subscribers.lookup id := by
  rw [viewer, h, bind_some]

theorem LiveHubState.viewer_eq_entry {id : UInt64} :
    s.viewer key id = (s.entry key).subscribers.lookup id := by
  rw [viewer, entry]
  cases s.streams.lookup key <;> rfl

/-- After a change the viewers of the stream are those of `stream'`, the others are as they were. -/
theorem Change.viewer (h : Change s key stream' s'.streams) {k : StreamKey} {id : UInt64} :
    s'.viewer k id = if k = key then stream'.subscribers.lookup id else s.viewer k id := by
  split_ifs with hk
  · subst hk
    by_cases hocc : stream'.Occupied
    · exact viewer_of_lookup (h.lookup_self hocc)
    · cases hs : s'.streams.lookup k with
      | some stream =>
        rcases h.of_lookup hs with ⟨_, _, hocc'⟩ | ⟨hne, _⟩
        · exact absurd hocc' hocc
        · exact absurd rfl hne
      | none =>
        rw [viewer, hs]
        refine (AList.lookup_eq_none.mpr fun hmem : id ∈ stream'.subscribers => ?_).symm
        obtain ⟨q, hq⟩ := exists_of_mem hmem
        exact hocc (.of_lookup hq)
  · rw [LiveHubState.viewer, h.lookup_ne hk]
    rfl

/-- Every subscription held has a queue of its own. -/
structure World.Handled (w : World) : Prop where
  held : ∀ subscription ∈ w.subscriptions,
    (w.state.viewer subscription.key subscription.subscriberId).isSome
  ids : (w.subscriptions.map PlaybackSubscription.subscriberId).Nodup
  fresh : ∀ subscription ∈ w.subscriptions, subscription.subscriberId ≤ w.state.nextSubscriberId
  count : w.state.subscriberCount = w.subscriptions.length

namespace World

variable {w : World} {subscriptions : List PlaybackSubscription} {i : ℕ}
  {s subscription : PlaybackSubscription}

theorem Handled.covered (h : w.Handled) (hs : StateSound limits w.state) : w.Covered where
  fanout := hs.fanout
  queue key stream hstream id q hq := (hs.queues key stream hstream id q hq).1.bytes
  count := hs.count
  held subscription hmem := by
    obtain ⟨q, hq⟩ := isSome_iff_exists.mp (h.held _ hmem)
    obtain ⟨stream, hstream, hq⟩ := bind_eq_some_iff.mp hq
    exact ⟨stream, q, hstream, hq⟩

theorem mem_set_or_mem_eraseIdx {old new : PlaybackSubscription} (hi : subscriptions[i]? = some old)
    (hs : s ∈ subscriptions.set i new) : s = new ∨ s ∈ subscriptions.eraseIdx i := by
  obtain ⟨j, hj⟩ := getElem?_of_mem hs
  by_cases hij : i = j
  · subst hij
    obtain ⟨hlt, -⟩ := List.getElem?_eq_some_iff.mp hi
    rw [getElem?_set_self hlt] at hj
    exact .inl (Option.some.inj hj).symm
  · rw [getElem?_set_ne hij] at hj
    exact .inr (mem_eraseIdx_iff_getElem?.mpr ⟨j, Ne.symm hij, hj⟩)

variable {delivered : List Tagged} {w' : World}

theorem mem_set_delivered (hi : subscriptions[i]? = some subscription)
    (hs : s ∈ subscriptions.set i { subscription with delivered }) :
    ∃ t ∈ subscriptions, t.key = s.key ∧ t.subscriberId = s.subscriberId := by
  rcases mem_set_or_mem_eraseIdx hi hs with rfl | hs
  · exact ⟨subscription, mem_of_getElem? hi, rfl, rfl⟩
  · exact ⟨s, mem_of_mem_eraseIdx hs, rfl, rfl⟩

theorem map_set_delivered (hi : subscriptions[i]? = some subscription) :
    (subscriptions.set i { subscription with delivered }).map PlaybackSubscription.subscriberId
      = subscriptions.map PlaybackSubscription.subscriberId := by
  obtain ⟨hlt, rfl⟩ := List.getElem?_eq_some_iff.mp hi
  rw [map_set]
  refine ext_getElem (by simp) fun j hj _ => ?_
  rw [getElem_set, getElem_map]
  split_ifs with hij
  · subst hij
    rfl
  · rfl

theorem Handled.ne_of_mem_eraseIdx (h : w.Handled) (hi : w.subscriptions[i]? = some subscription)
    (hs : s ∈ w.subscriptions.eraseIdx i) : s.subscriberId ≠ subscription.subscriberId := by
  obtain ⟨hlt, rfl⟩ := List.getElem?_eq_some_iff.mp hi
  obtain ⟨j, hne, hj⟩ := mem_eraseIdx_iff_getElem?.mp hs
  obtain ⟨hjlt, rfl⟩ := List.getElem?_eq_some_iff.mp hj
  intro heq
  refine hne ((getElem?_inj (by simpa using hjlt) h.ids).mp ?_)
  simpa [getElem?_eq_getElem hjlt, getElem?_eq_getElem hlt] using heq

/-- A change after which every viewer still has a queue keeps the subscriptions held. -/
theorem held_of_change (h : w.Handled) (hc : Change w.state key stream' s'.streams)
    (hkeep : ∀ id, (w.state.viewer key id).isSome → (stream'.subscribers.lookup id).isSome)
    (hs : s ∈ w.subscriptions) : (s'.viewer s.key s.subscriberId).isSome := by
  rw [hc.viewer]
  split_ifs with hk
  · exact hkeep _ (hk ▸ h.held s hs)
  · exact h.held s hs

/-- **Subscriptions**: every effect leaves each subscription held with a queue of its own. -/
theorem Effect.handled (h : w.Handled) (he : Effect limits w w') : w'.Handled := by
  cases he with
  | idle => exact h
  | forgotten => exact ⟨h.held, h.ids, h.fresh, h.count⟩
  | attached key incarnation hlimit hnext =>
    refine ⟨fun s hmem => held_of_change h (.insert (.inl rfl)) ?_ hmem, h.ids, h.fresh, h.count⟩
    intro id hid
    rw [closed_subscribers, lookup_closed]
    rw [viewer_eq_entry] at hid
    simpa using hid
  | subscribed key id stream hcount hlimit hstream hnext heq =>
    have hlt := lt_of_checkedAdd_one hnext
    subst heq
    have hchange : Change w.state key { w.state.entry key with
        subscribers := (w.state.entry key).subscribers.insert id
          (.new (w.state.entry key).cache.expectsVideo) } _ :=
      .insert (.of_lookup (AList.lookup_insert _))
    refine ⟨?_, ?_, ?_, ?_⟩
    · intro s hmem
      rcases mem_append.mp hmem with hmem | hmem
      · refine held_of_change h hchange ?_ hmem
        intro id' hid'
        rw [viewer_eq_entry] at hid'
        simp only [lookup_insert]
        split_ifs
        · rfl
        · exact hid'
      · obtain rfl := mem_singleton.mp hmem
        rw [hchange.viewer, if_pos rfl]
        simp only [AList.lookup_insert]
        rfl
    · rw [map_append, nodup_append]
      refine ⟨h.ids, nodup_singleton _, ?_⟩
      intro a ha b hb hab
      obtain ⟨s, hmem, rfl⟩ := mem_map.mp ha
      obtain rfl := mem_singleton.mp hb
      exact absurd (hab ▸ h.fresh s hmem) (UInt64.not_le.mpr hlt)
    · intro s hmem
      rcases mem_append.mp hmem with hmem | hmem
      · exact UInt64.le_trans (h.fresh s hmem) (UInt64.le_of_lt hlt)
      · obtain rfl := mem_singleton.mp hmem
        exact UInt64.le_refl _
    · rw [length_append, length_singleton]
      exact congrArg (· + 1) h.count
  | published lease event stream r cache hlease hstream hcurrent hround hstore =>
    refine ⟨fun s hmem => held_of_change h (.insert (.inl (by simp [hcurrent]))) ?_ hmem, h.ids,
      h.fresh, h.count⟩
    intro id hid
    rw [viewer_of_lookup hstream] at hid
    obtain ⟨q, hq⟩ := isSome_iff_exists.mp hid
    obtain ⟨q', hq', -⟩ := hround.served id (mem_servingOrder hq) q hq
    simp [hq']
  | delivered i subscription stream q rest e events hi hstream hq hevents hrest =>
    refine ⟨?_, ?_, ?_, ?_⟩
    · intro s hmem
      obtain ⟨t, ht, hkey, hid⟩ := mem_set_delivered hi hmem
      rw [← hkey, ← hid]
      refine held_of_change h (.insert (.of_lookup (AList.lookup_insert _))) ?_ ht
      intro id' hid'
      rw [viewer_of_lookup hstream] at hid'
      rw [lookup_insert]
      split_ifs
      · rfl
      · exact hid'
    · rw [map_set_delivered hi]
      exact h.ids
    · intro s hmem
      obtain ⟨t, ht, -, hid⟩ := mem_set_delivered hi hmem
      exact hid ▸ h.fresh t ht
    · rw [length_set]
      exact h.count
  | unpublished i lease stream hi hstream hcurrent =>
    refine ⟨fun s hmem => held_of_change h .closed ?_ hmem, h.ids, h.fresh, h.count⟩
    intro id hid
    rw [lookup_closed]
    rw [viewer_of_lookup hstream] at hid
    simpa using hid
  | unsubscribed i subscription stream rest q hi hstream hq hrest =>
    subst hrest
    have hlt : i < w.subscriptions.length := (List.getElem?_eq_some_iff.mp hi).1
    refine ⟨?_, ?_, fun s hmem => h.fresh s (mem_of_mem_eraseIdx hmem), ?_⟩
    · intro s hmem
      have hne := h.ne_of_mem_eraseIdx hi hmem
      have hheld := h.held s (mem_of_mem_eraseIdx hmem)
      have hchange : Change w.state subscription.key
          { stream with subscribers := stream.subscribers.erase subscription.subscriberId } _ :=
        .left
      rw [hchange.viewer]
      split_ifs with hk
      · rw [hk, viewer_of_lookup hstream] at hheld
        simp only [lookup_erase, if_neg hne]
        exact hheld
      · exact hheld
    · exact h.ids.sublist ((eraseIdx_sublist _ _).map _)
    · rw [length_eraseIdx_of_lt hlt]
      exact congrArg (· - 1) h.count

/-! ## Every run -/

/-- The promise of the limits. -/
structure Accounted (limits : LiveHubLimits) (w : World) : Prop where
  fanout : w.state.fanoutBytes = Table.total queuedBytes w.state.streams
  queues : ∀ key stream, w.state.streams.lookup key = some stream →
    ∀ id q, stream.subscribers.lookup id = some q → QueueSound limits q
  fanout_le : w.state.fanoutBytes ≤ limits.maxFanoutBytes
  streams_le : size w.state.streams ≤ limits.maxStreams
  subscribers_le : w.state.subscriberCount ≤ limits.maxSubscribers
  viewers_le : ∀ key stream, w.state.streams.lookup key = some stream →
    size stream.subscribers ≤ limits.maxSubscribersPerStream
  count : w.state.subscriberCount = w.subscriptions.length
  occupied : ∀ key stream, w.state.streams.lookup key = some stream → stream.Occupied

theorem stateSound_new : StateSound limits new.state :=
  ⟨rfl, rfl, fun _ _ h => (by cases h), zero_le, zero_le, zero_le,
    fun _ _ h => (by cases h)⟩

theorem handled_new : new.Handled :=
  ⟨fun _ h => absurd h not_mem_nil, nodup_nil, fun _ h => absurd h not_mem_nil, rfl⟩

/-- What holds at first and is kept by every effect holds after every run, and no run panics. -/
theorem run_induct (limits : LiveHubLimits) {P : World → Prop} (hnew : P new)
    (keeps : ∀ w w', StateSound limits w.state → w.Handled → P w → Effect limits w w' → P w')
    (ops : List HubOp) :
    ∃ w, run limits ops = .ok w ∧ StateSound limits w.state ∧ w.Handled ∧ P w := by
  refine foldlM_keeps ?_ ops new ⟨stateSound_new, handled_new, hnew⟩
  rintro w op ⟨hs, hh, hP⟩
  obtain ⟨w', hstep, he⟩ := step_effect (hh.covered hs)
  exact ⟨w', hstep, he.stateSound hs, he.handled hh, keeps w w' hs hh hP he⟩

/-- The viewers of each stream are within their limit. -/
def Seated (limits : LiveHubLimits) (w : World) : Prop :=
  ∀ key stream, w.state.streams.lookup key = some stream →
    size stream.subscribers ≤ limits.maxSubscribersPerStream

theorem Seated.entry (h : Seated limits w) :
    size (w.state.entry key).subscribers ≤ limits.maxSubscribersPerStream := by
  cases hs : w.state.streams.lookup key with
  | none =>
    rw [LiveHubState.entry, hs]
    exact zero_le
  | some stream => exact entry_of_lookup hs ▸ h key stream hs

/-- A limit that allows a viewer at all is enforced. -/
theorem Effect.seated (hpos : 0 < limits.maxSubscribersPerStream) (hs : StateSound limits w.state)
    (h : Seated limits w) (he : Effect limits w w') : Seated limits w' := by
  rcases he.moves hs with heq | ⟨key, stream', hm⟩
  · intro k stream hk
    exact h k stream (heq ▸ hk)
  · intro k stream hk
    rcases hm.change.of_lookup hk with ⟨rfl, rfl, -⟩ | ⟨-, hk⟩
    · rcases hm.viewers with hle | ⟨hle, hlt⟩
      · exact hle.trans h.entry
      · cases hs : w.state.streams.lookup k with
        | none =>
          rw [entry, hs] at hle
          exact hle.trans hpos
        | some old => exact (entry_of_lookup hs ▸ hle).trans (hlt old hs)
    · exact h k stream hk

theorem run_seated (hlimits : 0 < limits.maxSubscribersPerStream ∨ limits.maxSubscribers = 0
      ∨ limits.maxStreams = 0) {ops : List HubOp} :
    ∃ w, run limits ops = .ok w ∧ StateSound limits w.state ∧ w.Handled ∧ Seated limits w := by
  rcases hlimits with hpos | hzero
  · exact run_induct limits (fun _ _ h => by cases h)
      (fun _ _ hs _ hseated he => he.seated hpos hs hseated) ops
  · -- Without viewers or without streams there is nothing to count.
    obtain ⟨w, hrun, hs, hh, -⟩ := run_induct limits trivial (fun _ _ _ _ _ _ => trivial) ops
    refine ⟨w, hrun, hs, hh, fun key stream hstream => ?_⟩
    have hle := le_total (w := fun st : LiveStream => size st.subscribers) hstream
    rw [← hs.count] at hle
    have := hs.subscribers
    have := hs.streams
    have hpos := size_erase (mem_of_lookup hstream : key ∈ w.state.streams)
    omega

/-- The first viewer of a stream, whatever the limit on the viewers of a stream is. -/
theorem run_subscribe (limits : LiveHubLimits) (key : StreamKey)
    (hsub : limits.maxSubscribers ≠ 0) (hstreams : limits.maxStreams ≠ 0) :
    ∃ w stream, run limits [.subscribe key] = .ok w
      ∧ w.state.streams.lookup key = some stream ∧ size stream.subscribers = 1 := by
  have hlimit : LiveHubState.default.streamLimitReached limits key = false := by
    simp [streamLimitReached, LiveHubState.default, hstreams]
  have heq : LiveHubState.default.subscribe limits key
      = (.ok ⟨key, 1, []⟩, { LiveHubState.default with
        nextSubscriberId := 1
        streams := (∅ : Table StreamKey LiveStream).insert key
          ⟨none, .default, (∅ : Table UInt64 SubscriberQueue).insert 1 (.new false)⟩
        subscriberCount := 1 }) := by
    rw [subscribe, if_neg (by simpa [LiveHubState.default] using hsub), hlimit,
      if_neg (by simp), if_neg (by simp [LiveHubState.default])]
    rfl
  refine ⟨new.subscribed (LiveHubState.default.subscribe limits key),
    ⟨none, .default, (∅ : Table UInt64 _).insert 1 (.new false)⟩, rfl, ?_, ?_⟩
  · rw [heq]
    exact AList.lookup_insert _
  · rfl

/-- **Accounting.** Every run from an empty hub is without a panic and ends with the limits kept, if
and only if a stream may have a viewer or there can be no viewer or no stream at all. -/
theorem run_accounted_iff (limits : LiveHubLimits) :
    (∀ ops, ∃ w, run limits ops = .ok w ∧ Accounted limits w)
      ↔ 0 < limits.maxSubscribersPerStream ∨ limits.maxSubscribers = 0 ∨ limits.maxStreams = 0 := by
  constructor
  · intro h
    by_contra hnot
    push Not at hnot
    obtain ⟨hper, hsub, hstreams⟩ := hnot
    obtain ⟨w, hrun, hw⟩ := h [.subscribe ⟨"", "", ""⟩]
    obtain ⟨w', stream, hrun', hstream, hsize⟩ := run_subscribe limits ⟨"", "", ""⟩ hsub hstreams
    obtain rfl : w = w' := Except.ok.inj (hrun.symm.trans hrun')
    have := hw.viewers_le _ stream hstream
    omega
  · intro hlimits ops
    obtain ⟨w, hrun, hs, hh, hseated⟩ := run_seated hlimits
    exact ⟨w, hrun, hs.fanout, fun key stream hstream id q hq =>
      (hs.queues key stream hstream id q hq).1, hs.bounded, hs.streams, hs.subscribers, hseated,
      hh.count, hs.occupied⟩

/-- A hub that allows no viewer per stream. -/
def unseated : LiveHubLimits := ⟨1, 1, 0, 1, 1, 1, 1, 1⟩

/-- Its first viewer is taken all the same. -/
theorem unseated_subscribed : ∃ w stream, run unseated [.subscribe ⟨"s", "live", "cam"⟩] = .ok w
      ∧ w.state.streams.lookup ⟨"s", "live", "cam"⟩ = some stream
      ∧ unseated.maxSubscribersPerStream < size stream.subscribers ∧ ¬Accounted unseated w := by
  obtain ⟨w, stream, hrun, hstream, hsize⟩ := run_subscribe unseated ⟨"s", "live", "cam"⟩
    (by decide) (by decide)
  have hlt : unseated.maxSubscribersPerStream < size stream.subscribers := by
    rw [hsize]
    decide
  exact ⟨w, stream, hrun, hstream, hlt, fun h => absurd (h.viewers_le _ _ hstream) (by omega)⟩

end World

end Oxiroute.Rtmp
