import Oxiroute.Rtmp.Event
import Oxiroute.Lib.Table
import Oxiroute.Lib.Machine
import Oxiroute.Lib.Panic
import Mathlib.Data.Prod.Lex
import Mathlib.Data.List.Sort

/-!
# The live hub

Model of `LiveHub` of `crates/oxiroute-rtmp/src/live.rs`: publishers attach to streams, viewers
subscribe to them, and every event a publisher sends is put into the bounded queues of the viewers.

* A `MediaCache` keeps the latest metadata and sequence headers of a stream, and which video track
  it has; `transition` says how an event changes the track.
* A viewer waits for media or for a keyframe, or follows the audio or the whole stream.
  `applyVideoTransition` and `fanoutEvent` are what one publication does to one viewer; the bytes it
  charges and releases are in the `Fanout` they pass on.
* A `LiveHubState` is what the mutex guards. Every subtraction of the source is one that panics on
  underflow, and so is the `expect` of `MediaCache::store`.

A `World` adds the leases and subscriptions the clients hold. As ghost data it keeps every event
that was published, every incarnation handed out, and for each subscription what it delivered; an
event in a queue is `Tagged` with the incarnation and the place in that log it was published at.
-/

namespace Oxiroute.Rtmp

open Lib Http

structure StreamKey where
  serverId : String
  application : String
  name : String
  deriving DecidableEq

structure LiveHubLimits where
  maxStreams : ℕ
  maxSubscribers : ℕ
  maxSubscribersPerStream : ℕ
  maxQueueMessagesPerSubscriber : ℕ
  maxQueueBytesPerSubscriber : ℕ
  maxFanoutBytes : ℕ
  maxCachedMetadataBytes : ℕ
  maxCachedCodecHeaderBytes : ℕ

structure PublishReport where
  queuedEvents : ℕ
  droppedEvents : ℕ
  viewersResynchronized : ℕ
  streamFanoutBytes : ℕ
  deriving DecidableEq

inductive LiveHubError where
  | streamLimitReached (maximum : ℕ)
  | subscriberLimitReached (maximum : ℕ)
  | streamSubscriberLimitReached (key : StreamKey) (maximum : ℕ)
  | publisherAlreadyAttached (key : StreamKey)
  | publisherExpired (key : StreamKey)
  | cachedEventTooLarge (kind : MediaEventKind) (size maximum : ℕ)
  | identityExhausted
  deriving DecidableEq

/-- An event, and as ghost data the incarnation that published it and its place among everything
that was published. The hub reads the event only. -/
structure Tagged where
  event : MediaEvent
  incarnation : UInt64
  position : ℕ
  deriving DecidableEq

/-- `MediaEvent::kind`. -/
abbrev Tagged.kind (e : Tagged) : MediaEventKind := e.event.kind

/-- `MediaEvent::video_codec`. -/
abbrev Tagged.videoCodec (e : Tagged) : Option VideoCodec := e.event.videoCodec

/-- `MediaEvent::payload_len`. -/
abbrev Tagged.payloadLen (e : Tagged) : ℕ := e.event.payload.length

/-! ## The cache of a stream -/

inductive CurrentVideoTrack where
  | unknown
  | absent
  | present (codec : Option VideoCodec)
  deriving DecidableEq

inductive VideoTrackTransition where
  | none
  | absent
  | present (codecChanged : Bool)
  deriving DecidableEq

def VideoTrackTransition.between (previous next : CurrentVideoTrack) : VideoTrackTransition :=
  if previous = next then .none
  else
    match next with
    | .unknown => .none
    | .absent => .absent
    | .present _ =>
      match previous with
      | .present _ => .present true
      | _ => .present false

structure MediaCache where
  metadata : Option Tagged
  aacSequenceHeader : Option Tagged
  videoSequenceHeaders : Table VideoCodec Tagged
  videoTrack : CurrentVideoTrack

namespace MediaCache

def default : MediaCache := ⟨none, none, ∅, .unknown⟩

/-- The video track an event announces. -/
def nextTrack (event : Tagged) : Option CurrentVideoTrack :=
  match event.kind with
  | .metadata =>
    match event.event.metadata.bind StreamMetadata.videoCodecId with
    | none => some .absent
    | some codecId =>
      if codecId.toNat = avcCodecId.toNat then some (.present (some .avc))
      else some (.present none)
  | .avcSequenceHeader | .hevcSequenceHeader | .av1SequenceHeader
  | .videoKeyframe | .videoInterframe | .videoDisposable => some (.present event.videoCodec)
  | .aacSequenceHeader | .audio => none

variable (cache : MediaCache)

def transition (event : Tagged) : VideoTrackTransition × MediaCache :=
  match nextTrack event with
  | none => (.none, cache)
  | some next =>
    (VideoTrackTransition.between cache.videoTrack next, { cache with videoTrack := next })

def store (event : Tagged) : Panics MediaCache :=
  match event.kind with
  | .metadata => .ok { cache with metadata := some event }
  | .aacSequenceHeader => .ok { cache with aacSequenceHeader := some event }
  | .avcSequenceHeader | .hevcSequenceHeader | .av1SequenceHeader => do
    let codec ← expect event.videoCodec
    .ok { cache with videoSequenceHeaders := cache.videoSequenceHeaders.insert codec event }
  | .audio | .videoKeyframe | .videoInterframe | .videoDisposable => .ok cache

variable (keyframe : Tagged)

def videoSequenceHeader : Option Tagged :=
  keyframe.videoCodec.bind fun codec => cache.videoSequenceHeaders.lookup codec

def mixedBootstrap : List Tagged :=
  cache.metadata.toList ++ cache.aacSequenceHeader.toList
    ++ (cache.videoSequenceHeader keyframe).toList ++ [keyframe]

def audioBootstrap (audio : Tagged) : List Tagged :=
  cache.metadata.toList ++ cache.aacSequenceHeader.toList ++ [audio]

def videoBootstrap : List Tagged :=
  (cache.videoSequenceHeader keyframe).toList ++ [keyframe]

def expectsVideo : Bool :=
  match cache.videoTrack with
  | .present _ => true
  | _ => false

end MediaCache

/-! ## One viewer -/

inductive SubscriberState where
  | awaitingMedia
  | awaitingKeyframe
  | audio
  | mixed
  deriving DecidableEq

structure SubscriberQueue where
  events : List Tagged
  bytes : ℕ
  state : SubscriberState
  deriving DecidableEq

def SubscriberQueue.new (videoExpected : Bool) : SubscriberQueue :=
  ⟨[], 0, if videoExpected then .awaitingKeyframe else .awaitingMedia⟩

def clearQueue (subscriber : SubscriberQueue) : ℕ × SubscriberQueue :=
  (subscriber.bytes, { subscriber with events := [], bytes := 0 })

/-- What a publication passes from one viewer to the next, with the viewer being served. -/
structure Fanout where
  subscriber : SubscriberQueue
  fanoutBytes : ℕ
  report : PublishReport

namespace Fanout

/-- `*fanout_bytes -= clear_queue(subscriber)`. -/
def clear (f : Fanout) : Panics Fanout := do
  let (released, subscriber) := clearQueue f.subscriber
  let fanoutBytes ← subSize f.fanoutBytes released
  .ok { f with subscriber, fanoutBytes }

def enter (state : SubscriberState) (f : Fanout) : Fanout :=
  { f with subscriber := { f.subscriber with state } }

def queued (n : ℕ) (f : Fanout) : Fanout :=
  { f with report := { f.report with queuedEvents := f.report.queuedEvents + n } }

def dropped (f : Fanout) : Fanout :=
  { f with report := { f.report with droppedEvents := f.report.droppedEvents + 1 } }

/-- Counts a viewer that has to start again. -/
def resynchronized (f : Fanout) : Fanout :=
  { f with report := { f.report with viewersResynchronized := f.report.viewersResynchronized + 1 } }

end Fanout

variable (limits : LiveHubLimits)

/-- `enqueue`: all of the events, or `none` when they do not fit. -/
def enqueue (events : List Tagged) (f : Fanout) : Option Fanout := do
  let messageCount ← checkedAddSize f.subscriber.events.length events.length
  let batchBytes ← events.foldlM (fun total event => checkedAddSize total event.payloadLen) 0
  let queueBytes ← checkedAddSize f.subscriber.bytes batchBytes
  let totalFanoutBytes ← checkedAddSize f.fanoutBytes batchBytes
  if messageCount > limits.maxQueueMessagesPerSubscriber
      ∨ queueBytes > limits.maxQueueBytesPerSubscriber
      ∨ totalFanoutBytes > limits.maxFanoutBytes then none
  else
    some { f with
      subscriber := { f.subscriber with
        events := f.subscriber.events ++ events
        bytes := queueBytes }
      fanoutBytes := totalFanoutBytes }

def enqueueAudioBootstrap (cache : MediaCache) (audio : Tagged) (f : Fanout) : Fanout :=
  let bootstrap := cache.audioBootstrap audio
  match enqueue limits bootstrap f with
  | some f => (f.enter .audio).queued bootstrap.length
  | none => f.dropped

def enqueueMixedBootstrap (cache : MediaCache) (keyframe : Tagged) (f : Fanout) : Fanout :=
  let bootstrap := cache.mixedBootstrap keyframe
  match enqueue limits bootstrap f with
  | some f => (f.enter .mixed).queued bootstrap.length
  | none => f.dropped

def applyVideoTransition (transition : VideoTrackTransition) (f : Fanout) : Panics Fanout :=
  match transition with
  | .none => .ok f
  | .absent =>
    match f.subscriber.state with
    | .awaitingKeyframe => .ok (f.enter .awaitingMedia)
    | .mixed => do
      let f ← f.clear
      .ok (f.enter .awaitingMedia).resynchronized
    | .awaitingMedia | .audio => .ok f
  | .present codecChanged =>
    match f.subscriber.state with
    | .awaitingMedia => .ok (f.enter .awaitingKeyframe)
    | .mixed =>
      if codecChanged then do
        let f ← f.clear
        .ok (f.enter .awaitingKeyframe).resynchronized
      else .ok f
    | .awaitingKeyframe | .audio => .ok f

def fanoutAudioEvent (cache : MediaCache) (event : Tagged) (f : Fanout) : Panics Fanout :=
  match event.kind with
  | .videoKeyframe =>
    let bootstrap := cache.videoBootstrap event
    match enqueue limits bootstrap f with
    | some f => .ok ((f.enter .mixed).queued bootstrap.length)
    | none => do
      let f ← f.clear
      .ok (enqueueMixedBootstrap limits cache event
        (f.enter .awaitingKeyframe).dropped.resynchronized)
  | .avcSequenceHeader | .hevcSequenceHeader | .av1SequenceHeader
  | .videoInterframe | .videoDisposable => .ok f
  | .metadata | .aacSequenceHeader | .audio =>
    match enqueue limits [event] f with
    | some f => .ok (f.queued 1)
    | none => do
      let f ← f.clear
      let f := (f.enter .awaitingMedia).dropped.resynchronized
      if event.kind = .audio then .ok (enqueueAudioBootstrap limits cache event f) else .ok f

def fanoutMixedEvent (cache : MediaCache) (event : Tagged) (f : Fanout) : Panics Fanout :=
  match enqueue limits [event] f with
  | some f => .ok (f.queued 1)
  | none =>
    if event.kind = .videoDisposable then .ok f.dropped
    else do
      let f ← f.clear
      let f := (f.enter .awaitingKeyframe).dropped.resynchronized
      if event.kind = .videoKeyframe then .ok (enqueueMixedBootstrap limits cache event f)
      else .ok f

def fanoutEvent (cache : MediaCache) (event : Tagged) (f : Fanout) : Panics Fanout :=
  match f.subscriber.state with
  | .awaitingMedia =>
    match event.kind with
    | .audio => .ok (enqueueAudioBootstrap limits cache event f)
    | .videoKeyframe => .ok (enqueueMixedBootstrap limits cache event f)
    | _ => .ok f
  | .awaitingKeyframe =>
    if event.kind = .videoKeyframe then .ok (enqueueMixedBootstrap limits cache event f) else .ok f
  | .audio => fanoutAudioEvent limits cache event f
  | .mixed => fanoutMixedEvent limits cache event f

/-! ## The hub -/

structure LiveStream where
  publisher : Option UInt64
  cache : MediaCache
  subscribers : Table UInt64 SubscriberQueue

def LiveStream.default : LiveStream := ⟨none, .default, ∅⟩

variable (stream : LiveStream)

def LiveStream.queuedBytes : ℕ :=
  Table.total SubscriberQueue.bytes stream.subscribers

/-- `reset_subscribers`: the bytes released, and the stream with every queue empty. -/
def resetSubscribers : ℕ × LiveStream :=
  (stream.queuedBytes, { stream with
      subscribers := Table.mapVals
        (fun _ q => (clearQueue { q with state := .awaitingMedia }).2) stream.subscribers })

structure LiveHubState where
  streams : Table StreamKey LiveStream
  subscriberCount : ℕ
  fanoutBytes : ℕ
  nextPublisherIncarnation : UInt64
  nextSubscriberId : UInt64

structure PublisherLease where
  key : StreamKey
  incarnation : UInt64
  deriving DecidableEq

/-- `PlaybackSubscription`, and as ghost data what it delivered. -/
structure PlaybackSubscription where
  key : StreamKey
  subscriberId : UInt64
  delivered : List Tagged
  deriving DecidableEq

def validateCacheSize (event : Tagged) : Except LiveHubError Unit :=
  let bounded (maximum : ℕ) : Except LiveHubError Unit :=
    if event.payloadLen > maximum then
      .error (.cachedEventTooLarge event.kind event.payloadLen maximum)
    else .ok ()
  match event.kind with
  | .metadata => bounded limits.maxCachedMetadataBytes
  | .aacSequenceHeader | .avcSequenceHeader | .hevcSequenceHeader | .av1SequenceHeader =>
    bounded limits.maxCachedCodecHeaderBytes
  | .audio | .videoKeyframe | .videoInterframe | .videoDisposable => .ok ()

/-- The viewers of a stream while a publication serves them. -/
structure Round where
  subscribers : Table UInt64 SubscriberQueue
  fanoutBytes : ℕ
  report : PublishReport

/-- One turn of the loop of `publish`. -/
def Round.serve (cache : MediaCache) (transition : VideoTrackTransition)
    (event : Tagged) (r : Round) (id : UInt64) : Panics Round :=
  match r.subscribers.lookup id with
  | none => .ok r
  | some subscriber => do
    let f ← applyVideoTransition transition ⟨subscriber, r.fanoutBytes, r.report⟩
    let f ← fanoutEvent limits cache event f
    .ok ⟨r.subscribers.insert id f.subscriber, f.fanoutBytes, f.report⟩

/-- The order the viewers are served in: least queued first. -/
def LiveStream.rank (id : UInt64) : ℕ ×ₗ ℕ :=
  toLex (((stream.subscribers.lookup id).map SubscriberQueue.bytes).getD 0, id.toNat)

/-- The viewers of a stream in the order they are served. -/
def LiveStream.servingOrder : List UInt64 :=
  stream.subscribers.keys.insertionSort fun a b => stream.rank a ≤ stream.rank b

namespace LiveHubState

def default : LiveHubState := ⟨∅, 0, 0, 0, 0⟩

/-- `state.streams.entry(key).or_default()`. -/
def entry (s : LiveHubState) (key : StreamKey) : LiveStream :=
  (s.streams.lookup key).getD .default

/-- The test against `max_streams`. -/
def streamLimitReached (limits : LiveHubLimits) (s : LiveHubState) (key : StreamKey) : Bool :=
  (s.streams.lookup key).isNone && decide (Table.size s.streams ≥ limits.maxStreams)

/-- `LiveHub::create_publisher`. -/
def createPublisher (limits : LiveHubLimits) (key : StreamKey) (s : LiveHubState) :
    Panics (Except LiveHubError PublisherLease × LiveHubState) :=
  if s.streamLimitReached limits key then .ok (.error (.streamLimitReached limits.maxStreams), s)
  else
    match checkedAdd s.nextPublisherIncarnation 1 with
    | none => .ok (.error .identityExhausted, s)
    | some incarnation => do
      let (released, stream) := resetSubscribers
        { s.entry key with publisher := some incarnation, cache := .default }
      let fanoutBytes ← subSize s.fanoutBytes released
      .ok (.ok ⟨key, incarnation⟩,
        { s with
          nextPublisherIncarnation := incarnation
          streams := s.streams.insert key stream
          fanoutBytes })

/-- `LiveHub::attach_publisher`. -/
def attachPublisher (limits : LiveHubLimits) (key : StreamKey) (s : LiveHubState) :
    Panics (Except LiveHubError PublisherLease × LiveHubState) :=
  if s.streamLimitReached limits key then .ok (.error (.streamLimitReached limits.maxStreams), s)
  else if (s.entry key).publisher.isSome then .ok (.error (.publisherAlreadyAttached key), s)
  else s.createPublisher limits key

/-- `LiveHub::replace_publisher`. -/
def replacePublisher (limits : LiveHubLimits) (key : StreamKey) (s : LiveHubState) :
    Panics (Except LiveHubError PublisherLease × LiveHubState) :=
  s.createPublisher limits key

/-- `LiveHub::subscribe`. -/
def subscribe (limits : LiveHubLimits) (key : StreamKey) (s : LiveHubState) :
    Except LiveHubError PlaybackSubscription × LiveHubState :=
  if s.subscriberCount ≥ limits.maxSubscribers then
    (.error (.subscriberLimitReached limits.maxSubscribers), s)
  else if s.streamLimitReached limits key then (.error (.streamLimitReached limits.maxStreams), s)
  else if (s.streams.lookup key).any fun stream =>
      decide (Table.size stream.subscribers ≥ limits.maxSubscribersPerStream) then
    (.error (.streamSubscriberLimitReached key limits.maxSubscribersPerStream), s)
  else
    match checkedAdd s.nextSubscriberId 1 with
    | none => (.error .identityExhausted, s)
    | some id =>
      let stream := s.entry key
      let queue := SubscriberQueue.new stream.cache.expectsVideo
      let stream := { stream with subscribers := stream.subscribers.insert id queue }
      (.ok ⟨key, id, []⟩, { s with
          nextSubscriberId := id
          streams := s.streams.insert key stream
          subscriberCount := s.subscriberCount + 1 })

/-- `PublisherLease::publish`. -/
def publish (limits : LiveHubLimits) (lease : PublisherLease) (event : Tagged) (s : LiveHubState) :
    Panics (Except LiveHubError PublishReport × LiveHubState) :=
  match validateCacheSize limits event with
  | .error e => .ok (.error e, s)
  | .ok _ =>
    match (s.streams.lookup lease.key).filter fun stream =>
        decide (stream.publisher = some lease.incarnation) with
    | none => .ok (.error (.publisherExpired lease.key), s)
    | some stream => do
      let (transition, cache) := stream.cache.transition event
      let r ← stream.servingOrder.foldlM (Round.serve limits cache transition event)
        ⟨stream.subscribers, s.fanoutBytes, ⟨0, 0, 0, 0⟩⟩
      let stream := { stream with subscribers := r.subscribers }
      let report := { r.report with streamFanoutBytes := stream.queuedBytes }
      let cache ← cache.store event
      .ok (.ok report,
        { s with
          streams := s.streams.insert lease.key { stream with cache }
          fanoutBytes := r.fanoutBytes })

/-- `PublisherLease::drop`. -/
def dropPublisher (lease : PublisherLease) (s : LiveHubState) : Panics LiveHubState :=
  match s.streams.lookup lease.key with
  | none => .ok s
  | some stream =>
    if stream.publisher ≠ some lease.incarnation then .ok s
    else do
      let (released, stream) :=
        resetSubscribers { stream with publisher := none, cache := .default }
      let fanoutBytes ← subSize s.fanoutBytes released
      let streams := if Table.size stream.subscribers = 0 then s.streams.erase lease.key
        else s.streams.insert lease.key stream
      .ok { s with streams, fanoutBytes }

/-- `PlaybackSubscription::try_next`. -/
def tryNext (key : StreamKey) (id : UInt64) (s : LiveHubState) :
    Panics (Option Tagged × LiveHubState) :=
  match s.streams.lookup key with
  | none => .ok (none, s)
  | some stream =>
    match stream.subscribers.lookup id with
    | none => .ok (none, s)
    | some subscriber =>
      match subscriber.events with
      | [] => .ok (none, s)
      | event :: events => do
        let bytes ← subSize subscriber.bytes event.payloadLen
        let subscriber := { subscriber with events, bytes }
        let stream := { stream with subscribers := stream.subscribers.insert id subscriber }
        let fanoutBytes ← subSize s.fanoutBytes event.payloadLen
        .ok (some event, { s with streams := s.streams.insert key stream, fanoutBytes })

/-- `PlaybackSubscription::drop`. -/
def dropSubscription (key : StreamKey) (id : UInt64) (s : LiveHubState) : Panics LiveHubState :=
  match s.streams.lookup key with
  | none => .ok s
  | some stream =>
    match stream.subscribers.lookup id with
    | none => .ok s
    | some subscriber => do
      let stream := { stream with subscribers := stream.subscribers.erase id }
      let subscriberCount ← subSize s.subscriberCount 1
      let fanoutBytes ← subSize s.fanoutBytes subscriber.bytes
      let streams :=
        if stream.publisher.isNone ∧ Table.size stream.subscribers = 0 then s.streams.erase key
        else s.streams.insert key stream
      .ok { s with streams, subscriberCount, fanoutBytes }

end LiveHubState

/-! ## Runs -/

/-- The hub and its clients. -/
structure World where
  state : LiveHubState
  leases : List PublisherLease
  subscriptions : List PlaybackSubscription
  incarnations : List UInt64
  issued : List Tagged

/-- What a client does. A lease or a subscription is named by its place among those held. -/
inductive HubOp where
  | attach (key : StreamKey)
  | replace (key : StreamKey)
  | subscribe (key : StreamKey)
  | publish (lease : ℕ) (event : MediaEvent)
  | tryNext (subscription : ℕ)
  | dropPublisher (lease : ℕ)
  | dropSubscription (subscription : ℕ)

namespace World

/-- A hub nobody uses yet. -/
def new : World := ⟨.default, [], [], [], []⟩

variable (w : World)

/-- Takes the result of an attachment. -/
def attached : Except LiveHubError PublisherLease × LiveHubState → World
  | (.error _, state) => { w with state }
  | (.ok lease, state) =>
    { w with
      state
      leases := w.leases ++ [lease]
      incarnations := w.incarnations ++ [lease.incarnation] }

/-- Takes the result of a subscription. -/
def subscribed : Except LiveHubError PlaybackSubscription × LiveHubState → World
  | (.error _, state) => { w with state }
  | (.ok subscription, state) =>
    { w with state, subscriptions := w.subscriptions ++ [subscription] }

/-- The event as the holder of a lease publishes it now. -/
def tag (lease : PublisherLease) (event : MediaEvent) : Tagged :=
  ⟨event, lease.incarnation, w.issued.length⟩

/-- Takes the result of a publication. -/
def published (event : Tagged) : Except LiveHubError PublishReport × LiveHubState → World
  | (.error _, state) => { w with state }
  | (.ok _, state) => { w with state, issued := w.issued ++ [event] }

/-- Takes the event a subscription delivers. -/
def delivered (i : ℕ) (subscription : PlaybackSubscription) : Option Tagged × LiveHubState → World
  | (none, state) => { w with state }
  | (some event, state) =>
    { w with
      state
      subscriptions := w.subscriptions.set i
        { subscription with delivered := subscription.delivered ++ [event] } }

def step (limits : LiveHubLimits) (w : World) : HubOp → Panics World
  | .attach key => do return w.attached (← w.state.attachPublisher limits key)
  | .replace key => do return w.attached (← w.state.replacePublisher limits key)
  | .subscribe key => .ok (w.subscribed (w.state.subscribe limits key))
  | .publish i event =>
    match w.leases[i]? with
    | none => .ok w
    | some lease => do
      return w.published (w.tag lease event) (← w.state.publish limits lease (w.tag lease event))
  | .tryNext i =>
    match w.subscriptions[i]? with
    | none => .ok w
    | some subscription => do
      return w.delivered i subscription
        (← w.state.tryNext subscription.key subscription.subscriberId)
  | .dropPublisher i =>
    match w.leases[i]? with
    | none => .ok w
    | some lease => do
      return { w with state := ← w.state.dropPublisher lease, leases := w.leases.eraseIdx i }
  | .dropSubscription i =>
    match w.subscriptions[i]? with
    | none => .ok w
    | some subscription => do
      return { w with
        state := ← w.state.dropSubscription subscription.key subscription.subscriberId
        subscriptions := w.subscriptions.eraseIdx i }

def run (limits : LiveHubLimits) (ops : List HubOp) : Panics World :=
  ops.foldlM (step limits) new

end World

end Oxiroute.Rtmp
