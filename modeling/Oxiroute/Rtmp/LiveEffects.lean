import Oxiroute.Rtmp.Live

/-!
# What one publication does to one viewer

`Served` lists the ways a viewer comes out of a publication: it goes on waiting, it starts to follow
the stream from a bootstrap, or it follows it already and gets the event, or is spared it.
`Charged` is the accounting of the same step: the counter of the hub moves by what the queue gained
or lost, and no limit is passed. `serve_spec` says that no step panics and that both hold.
-/

namespace Oxiroute.Rtmp

open Lib Http List

def payloadBytes (events : List Tagged) : ℕ := (events.map Tagged.payloadLen).sum

@[simp] theorem payloadBytes_cons {e : Tagged} {events : List Tagged} :
    payloadBytes (e :: events) = e.payloadLen + payloadBytes events := rfl

@[simp] theorem payloadBytes_append {a b : List Tagged} :
    payloadBytes (a ++ b) = payloadBytes a + payloadBytes b := by
  simp [payloadBytes]

/-- A queue counts its bytes and is within its limits. -/
structure QueueSound (limits : LiveHubLimits) (q : SubscriberQueue) : Prop where
  bytes : q.bytes = payloadBytes q.events
  messages : q.events.length ≤ limits.maxQueueMessagesPerSubscriber
  bounded : q.bytes ≤ limits.maxQueueBytesPerSubscriber

/-- The accounting of a step: what the queue gains is charged, what it loses is released. -/
structure Charged (limits : LiveHubLimits) (f f' : Fanout) : Prop where
  balance : f'.fanoutBytes + f.subscriber.bytes = f.fanoutBytes + f'.subscriber.bytes
  queue : QueueSound limits f.subscriber → QueueSound limits f'.subscriber
  bounded : f.fanoutBytes ≤ limits.maxFanoutBytes → f'.fanoutBytes ≤ limits.maxFanoutBytes

/-- A step that leaves a viewer with these events and in this state. -/
structure Becomes (limits : LiveHubLimits) (f f' : Fanout) (events : List Tagged)
    (state : SubscriberState) : Prop extends Charged limits f f' where
  events_eq : f'.subscriber.events = events
  state_eq : f'.subscriber.state = state

variable {limits : LiveHubLimits} {cache : MediaCache} {event : Tagged} {f f' f'' : Fanout}
  {events : List Tagged} {state : SubscriberState}

namespace Becomes

theorem refl (f : Fanout) : Becomes limits f f f.subscriber.events f.subscriber.state :=
  ⟨⟨rfl, id, id⟩, rfl, rfl⟩

variable {state' : SubscriberState}

variable (h : Becomes limits f f' events state)
include h

theorem trans {events' : List Tagged} (h' : Becomes limits f' f'' events' state') :
    Becomes limits f f'' events' state' := by
  refine ⟨⟨?_, h'.queue ∘ h.queue, h'.bounded ∘ h.bounded⟩, h'.events_eq, h'.state_eq⟩
  have := h.balance
  have := h'.balance
  omega

theorem enter : Becomes limits f (f'.enter state') events state' :=
  ⟨⟨h.balance, fun hq => ⟨(h.queue hq).bytes, (h.queue hq).messages, (h.queue hq).bounded⟩,
    h.bounded⟩, h.events_eq, rfl⟩

theorem queued (n : ℕ) : Becomes limits f (f'.queued n) events state :=
  ⟨⟨h.balance, h.queue, h.bounded⟩, h.events_eq, h.state_eq⟩

theorem dropped : Becomes limits f f'.dropped events state :=
  ⟨⟨h.balance, h.queue, h.bounded⟩, h.events_eq, h.state_eq⟩

theorem resynchronized : Becomes limits f f'.resynchronized events state :=
  ⟨⟨h.balance, h.queue, h.bounded⟩, h.events_eq, h.state_eq⟩

end Becomes

/-- The counter of the hub covers the bytes of the viewer being served. -/
def Fanout.Covered (f : Fanout) : Prop := f.subscriber.bytes ≤ f.fanoutBytes

theorem clear_spec (hf : f.Covered) :
    ∃ f', f.clear = .ok f' ∧ Becomes limits f f' [] f.subscriber.state := by
  have heq : f.clear = .ok { f with
      subscriber := (clearQueue f.subscriber).2
      fanoutBytes := f.fanoutBytes - f.subscriber.bytes } := by
    change (subSize f.fanoutBytes f.subscriber.bytes >>= _) = _
    rw [subSize_of_le hf]
    rfl
  refine ⟨_, heq, ⟨?_, ?_, ?_⟩, rfl, rfl⟩
  · exact Nat.sub_add_cancel hf
  · intro _
    exact ⟨rfl, zero_le, zero_le⟩
  · exact (Nat.sub_le _ _).trans

theorem batchBytes_eq : ∀ {events : List Tagged} {start total : ℕ},
    events.foldlM (fun total event => checkedAddSize total event.payloadLen) start = some total →
      total = start + payloadBytes events
  | [], _, _, h => (Option.some.inj h).symm
  | e :: events, start, total, h => by
    rw [foldlM_cons, Option.bind_eq_bind, Option.bind_eq_some_iff] at h
    obtain ⟨next, hnext, h⟩ := h
    rw [batchBytes_eq h, checkedAddSize_eq_some hnext, payloadBytes_cons, add_assoc]

theorem enqueue_spec (h : enqueue limits events f = some f') :
    Becomes limits f f' (f.subscriber.events ++ events) f.subscriber.state := by
  simp only [enqueue, Option.bind_eq_bind, Option.bind_eq_some_iff] at h
  obtain ⟨messages, hmessages, batch, hbatch, queue, hqueue, total, htotal, h⟩ := h
  have hbatch := batchBytes_eq hbatch
  have hmessages := checkedAddSize_eq_some hmessages
  have hqueue := checkedAddSize_eq_some hqueue
  have htotal := checkedAddSize_eq_some htotal
  split at h
  · cases h
  · rename_i hlimits
    push Not at hlimits
    cases h
    refine ⟨⟨?_, ?_, fun _ => hlimits.2.2⟩, rfl, rfl⟩
    · change total + f.subscriber.bytes = f.fanoutBytes + queue
      omega
    · intro hq
      refine ⟨?_, ?_, hlimits.2.1⟩
      · change queue = payloadBytes (f.subscriber.events ++ events)
        rw [payloadBytes_append, ← hq.bytes]
        omega
      · rw [length_append, ← hmessages]
        exact hlimits.1

/-- A viewer that gets nothing for now. -/
def SubscriberState.Waits (state : SubscriberState) : Prop :=
  state = .awaitingMedia ∨ state = .awaitingKeyframe

/-- How a viewer with the queue `q` comes out of a publication. -/
inductive Served (cache : MediaCache) (transition : VideoTrackTransition) (event : Tagged)
    (q : SubscriberQueue) : List Tagged → SubscriberState → Prop
  /-- It waits, with its queue as it was or cleared. -/
  | waits {base : List Tagged} {state : SubscriberState} (hbase : base <+: q.events)
      (hstate : state.Waits) : Served cache transition event q base state
  /-- It follows the audio, and the event is not for it. -/
  | spared (hstate : q.state = .audio) (hkind : event.kind.isVideo = true) :
      Served cache transition event q q.events .audio
  /-- It follows the audio and gets the event. -/
  | heard (hstate : q.state = .audio) (hkind : event.kind.isVideo = false) :
      Served cache transition event q (q.events ++ [event]) .audio
  /-- It starts to follow the audio. -/
  | joinsAudio {base : List Tagged} (hbase : base <+: q.events) (hkind : event.kind = .audio) :
      Served cache transition event q (base ++ cache.audioBootstrap event) .audio
  /-- It follows the stream and gets the event. -/
  | seen (hstate : q.state = .mixed) (hsame : transition = .none ∨ transition = .present false) :
      Served cache transition event q (q.events ++ [event]) .mixed
  /-- It follows the stream and goes without a frame that no other frame needs. -/
  | skipped (hstate : q.state = .mixed) (hsame : transition = .none ∨ transition = .present false)
      (hkind : event.kind = .videoDisposable) : Served cache transition event q q.events .mixed
  /-- It follows the audio and starts to follow the stream. -/
  | joinsVideo (hstate : q.state = .audio) (hkind : event.kind = .videoKeyframe) :
      Served cache transition event q (q.events ++ cache.videoBootstrap event) .mixed
  /-- It starts to follow the stream. -/
  | joins {base : List Tagged} (hbase : base <+: q.events) (hkind : event.kind = .videoKeyframe) :
      Served cache transition event q (base ++ cache.mixedBootstrap event) .mixed

/-- The steps of a publication for one viewer: it does not panic, charges what it queues, and serves
the viewer. -/
def ServeSpec (limits : LiveHubLimits) (cache : MediaCache) (transition : VideoTrackTransition)
    (event : Tagged) (q : SubscriberQueue) (f : Fanout) (r : Panics Fanout) : Prop :=
  ∃ f' events state, r = .ok f' ∧ Becomes limits f f' events state
    ∧ Served cache transition event q events state

variable {transition : VideoTrackTransition} {q : SubscriberQueue}

/-- A viewer that waits, with some or none of its queue left, can start to follow the stream. -/
theorem mixedBootstrap_serves (hbase : f.subscriber.events <+: q.events)
    (hwaits : f.subscriber.state.Waits) (hkind : event.kind = .videoKeyframe) :
    ServeSpec limits cache transition event q f
      (.ok (enqueueMixedBootstrap limits cache event f)) := by
  simp only [enqueueMixedBootstrap]
  cases h : enqueue limits _ f with
  | none => exact ⟨_, _, _, rfl, (Becomes.refl f).dropped, .waits hbase hwaits⟩
  | some f' => exact ⟨_, _, _, rfl, ((enqueue_spec h).enter).queued _, .joins hbase hkind⟩

theorem audioBootstrap_serves (hbase : f.subscriber.events <+: q.events)
    (hwaits : f.subscriber.state.Waits) (hkind : event.kind = .audio) :
    ServeSpec limits cache transition event q f
      (.ok (enqueueAudioBootstrap limits cache event f)) := by
  simp only [enqueueAudioBootstrap]
  cases h : enqueue limits _ f with
  | none => exact ⟨_, _, _, rfl, (Becomes.refl f).dropped, .waits hbase hwaits⟩
  | some f' => exact ⟨_, _, _, rfl, ((enqueue_spec h).enter).queued _, .joinsAudio hbase hkind⟩

theorem ServeSpec.after {r : Panics Fanout} (h : Becomes limits f f' events state)
    (hr : ServeSpec limits cache transition event q f' r) :
    ServeSpec limits cache transition event q f r := by
  obtain ⟨f'', events', state', heq, hb, hs⟩ := hr
  exact ⟨f'', events', state', heq, h.trans hb, hs⟩

theorem cleared_spec (limits : LiveHubLimits) (hf : f.Covered) (state : SubscriberState) :
    ∃ f', f.clear = .ok f' ∧ Becomes limits f (f'.enter state).dropped.resynchronized [] state := by
  obtain ⟨f', hclear, h⟩ := clear_spec hf
  exact ⟨f', hclear, h.enter.dropped.resynchronized⟩

theorem fanoutAudioEvent_spec (hf : f.Covered) (hq : f.subscriber = q) (hstate : q.state = .audio) :
    ServeSpec limits cache transition event q f (fanoutAudioEvent limits cache event f) := by
  subst hq
  unfold fanoutAudioEvent
  -- A viewer that is spared the event.
  have hspared : event.kind.isVideo = true →
      ServeSpec limits cache transition event f.subscriber f (.ok f) := fun hkind =>
    ⟨_, _, _, rfl, .refl f, hstate ▸ .spared hstate hkind⟩
  split
  · rename_i hkind
    simp only
    cases h : enqueue limits _ f with
    | some f' =>
      exact ⟨_, _, _, rfl, ((enqueue_spec h).enter).queued _, .joinsVideo hstate hkind⟩
    | none =>
      obtain ⟨f', hclear, hb⟩ := cleared_spec limits hf .awaitingKeyframe
      simp only [hclear, bind_ok]
      refine ServeSpec.after hb (mixedBootstrap_serves ?_ (.inr rfl) hkind)
      rw [hb.events_eq]
      exact nil_prefix
  case h_2 hkind | h_3 hkind | h_4 hkind | h_5 hkind | h_6 hkind =>
    exact hspared (by rw [hkind]; rfl)
  -- A viewer that gets the event, or loses its queue to it.
  case h_7 hkind | h_8 hkind | h_9 hkind =>
    cases h : enqueue limits [event] f with
    | some f' =>
      exact ⟨_, _, _, rfl, (enqueue_spec h).queued 1, hstate ▸ .heard hstate (by rw [hkind]; rfl)⟩
    | none =>
      obtain ⟨f', hclear, hb⟩ := cleared_spec limits hf .awaitingMedia
      simp only [hclear, bind_ok]
      refine ServeSpec.after hb ?_
      have hnil := hb.events_eq ▸ nil_prefix (l := f.subscriber.events)
      by_cases haudio : event.kind = .audio
      · exact if_pos haudio ▸ audioBootstrap_serves hnil (.inl rfl) haudio
      · exact if_neg haudio ▸ ⟨_, _, _, rfl, .refl _, .waits hnil (.inl rfl)⟩

theorem fanoutMixedEvent_spec (hf : f.Covered) (hq : f.subscriber = q) (hstate : q.state = .mixed)
    (hsame : transition = .none ∨ transition = .present false) :
    ServeSpec limits cache transition event q f (fanoutMixedEvent limits cache event f) := by
  subst hq
  unfold fanoutMixedEvent
  cases h : enqueue limits [event] f with
  | some f' => exact ⟨_, _, _, rfl, (enqueue_spec h).queued 1, hstate ▸ .seen hstate hsame⟩
  | none =>
    by_cases hdisposable : event.kind = .videoDisposable
    · simp only [if_pos hdisposable]
      exact ⟨_, _, _, rfl, (Becomes.refl f).dropped, hstate ▸ .skipped hstate hsame hdisposable⟩
    · obtain ⟨f', hclear, hb⟩ := cleared_spec limits hf .awaitingKeyframe
      simp only [hclear, bind_ok]
      have hnil : (f'.enter .awaitingKeyframe).dropped.resynchronized.subscriber.events
          <+: f.subscriber.events := by
        rw [hb.events_eq]
        exact nil_prefix
      refine ServeSpec.after hb ?_
      split_ifs with hkind
      · exact mixedBootstrap_serves hnil (.inr rfl) hkind
      · exact ⟨_, _, _, rfl, .refl _, .waits hnil (.inr rfl)⟩

theorem fanoutEvent_waiting (hbase : f.subscriber.events <+: q.events)
    (hwaits : f.subscriber.state.Waits) :
    ServeSpec limits cache transition event q f (fanoutEvent limits cache event f) := by
  have hidle : ServeSpec limits cache transition event q f (.ok f) :=
    ⟨_, _, _, rfl, .refl f, .waits hbase hwaits⟩
  unfold fanoutEvent
  rcases id hwaits with h | h
  · rw [h]
    simp only
    split
    · exact audioBootstrap_serves hbase hwaits ‹_›
    · exact mixedBootstrap_serves hbase hwaits ‹_›
    · exact hidle
  · rw [h]
    split_ifs with hkind
    · exact mixedBootstrap_serves hbase hwaits hkind
    · exact hidle

/-- A change of the track leaves a viewer alone, or makes it wait. -/
theorem applyVideoTransition_spec (hf : f.Covered) :
    ∃ f', applyVideoTransition transition f = .ok f'
      ∧ ((f' = f ∧ (f.subscriber.state = .mixed → transition = .none ∨ transition = .present false))
        ∨ ∃ events state, Becomes limits f f' events state ∧ events <+: f.subscriber.events
          ∧ state.Waits) := by
  have hclear : ∀ state : SubscriberState, state.Waits → ∃ f',
      (do let f ← f.clear
          .ok (f.enter state).resynchronized : Panics Fanout) = .ok f'
        ∧ ∃ events state, Becomes limits f f' events state ∧ events <+: f.subscriber.events
          ∧ state.Waits := by
    intro state hwaits
    obtain ⟨f', hclear, h⟩ := clear_spec hf
    rw [hclear, bind_ok]
    exact ⟨_, rfl, [], state, h.enter.resynchronized, nil_prefix, hwaits⟩
  have henter : ∀ state : SubscriberState, state.Waits → ∃ events state',
      Becomes limits f (f.enter state) events state' ∧ events <+: f.subscriber.events
        ∧ state'.Waits := fun state hwaits =>
    ⟨_, state, (Becomes.refl f).enter, prefix_rfl, hwaits⟩
  unfold applyVideoTransition
  cases transition with
  | none => exact ⟨f, rfl, .inl ⟨rfl, fun _ => .inl rfl⟩⟩
  | absent =>
    cases hstate : f.subscriber.state with
    | awaitingMedia | audio => exact ⟨f, rfl, .inl ⟨rfl, fun h => by cases h⟩⟩
    | awaitingKeyframe => exact ⟨_, rfl, .inr (henter .awaitingMedia (.inl rfl))⟩
    | mixed =>
      obtain ⟨f', heq, h⟩ := hclear .awaitingMedia (.inl rfl)
      exact ⟨f', heq, .inr h⟩
  | present codecChanged =>
    cases hstate : f.subscriber.state with
    | awaitingMedia => exact ⟨_, rfl, .inr (henter .awaitingKeyframe (.inr rfl))⟩
    | awaitingKeyframe | audio => exact ⟨f, rfl, .inl ⟨rfl, fun h => by cases h⟩⟩
    | mixed =>
      cases codecChanged with
      | false => exact ⟨f, rfl, .inl ⟨rfl, fun _ => .inr rfl⟩⟩
      | true =>
        obtain ⟨f', heq, h⟩ := hclear .awaitingKeyframe (.inr rfl)
        exact ⟨f', heq, .inr h⟩

/-- **One viewer**: a publication does not panic, charges what it queues, and serves the viewer. -/
theorem serve_spec (limits : LiveHubLimits) (cache : MediaCache)
    (transition : VideoTrackTransition) (event : Tagged) (hf : f.Covered) :
    ServeSpec limits cache transition event f.subscriber f
      (applyVideoTransition transition f >>= fanoutEvent limits cache event) := by
  obtain ⟨f', heq, hcases⟩ := applyVideoTransition_spec hf
  rw [heq, bind_ok]
  rcases hcases with ⟨rfl, hsame⟩ | ⟨events, state, hb, hprefix, hwaits⟩
  · by_cases hwaits : f'.subscriber.state.Waits
    · exact fanoutEvent_waiting prefix_rfl hwaits
    · unfold fanoutEvent
      cases hstate : f'.subscriber.state with
      | awaitingMedia => exact absurd (.inl hstate) hwaits
      | awaitingKeyframe => exact absurd (.inr hstate) hwaits
      | audio => exact fanoutAudioEvent_spec hf rfl hstate
      | mixed => exact fanoutMixedEvent_spec hf rfl hstate (hsame hstate)
  · refine ServeSpec.after hb (fanoutEvent_waiting ?_ ?_)
    · rwa [hb.events_eq]
    · rwa [hb.state_eq]

end Oxiroute.Rtmp
