import Oxiroute.Rtmp.Live
import Mathlib.Data.String.Basic

/-!
# The stream registry

Model of `RtmpRegistry` of `crates/oxiroute-rtmp/src/catalog.rs`: the streams that are published or
viewed, found by id and by key, and the snapshot of them that the management interface shows.

* `ensureStream`, `removeStream`, `markMutation` and `publishSnapshotIfDirty` are the helpers every
  operation is built from. `StreamId::new` is the next number of a counter.
* A publisher or a subscriber holds a registration, which knows the id of the stream and the session
  only, and detaches itself through them.
* The recorders of a publisher are a list over a type `ρ`, what the catalog shows of them. Their own
  transitions are outside: an operation on them is any function on that list (`updateRecorders`,
  `refreshRecorderStatuses`). The status of a relay is of a type `σ`, and is asked for when a
  snapshot is made.

A `RegistryWorld` adds the registrations the clients hold. As ghost data a stream counts the
publishers that were attached to it, and a publisher's registration keeps the count it was given.
-/

namespace Oxiroute.Rtmp

open Lib

abbrev StreamId := ℕ

abbrev SessionId := ℕ

abbrev RelayId := ℕ

structure RtmpCapabilities where
  liveIngest : Bool
  manualRecording : Bool
  deriving DecidableEq

structure PublisherSnapshot where
  sessionId : SessionId
  attachedAtUnixMs : UInt64
  deriving DecidableEq

/-- `TrackSnapshot`, with its `Default`. -/
structure TrackSnapshot where
  flvCodecId : Option UInt8 := none
  videoCodec : Option VideoCodecIdentifier := none
  payloadBytesReceived : UInt64 := 0
  lastRtmpTimestampMs : Option UInt32 := none
  lastObservedAtUnixMs : Option UInt64 := none
  deriving DecidableEq

/-- `MediaSnapshot`, with its `Default`. -/
structure MediaSnapshot where
  audio : TrackSnapshot := {}
  video : TrackSnapshot := {}
  fanoutPayloadBytesQueued : UInt64 := 0
  deriving DecidableEq

structure RelaySnapshot (σ : Type) where
  id : RelayId
  status : σ
  deriving DecidableEq

structure StreamSnapshot (ρ σ : Type) where
  id : StreamId
  revision : UInt64
  key : StreamKey
  createdAtUnixMs : UInt64
  publisher : Option PublisherSnapshot
  subscriberCount : ℕ
  media : MediaSnapshot
  relays : List (RelaySnapshot σ)
  recorders : List ρ
  deriving DecidableEq

structure RtmpCatalogSnapshot (ρ σ : Type) where
  revision : UInt64
  asOfUnixMs : UInt64
  capabilities : RtmpCapabilities
  streams : List (StreamSnapshot ρ σ)
  deriving DecidableEq

structure RtmpRegistryWorkStats where
  mediaUpdates : UInt64 := 0
  snapshotRebuilds : UInt64 := 0
  snapshotStreamsVisited : UInt64 := 0
  deriving DecidableEq

/-- The variants of `CatalogError` that the modelled operations return. -/
inductive CatalogError where
  | admissionClosed
  | streamNotFound (streamId : StreamId)
  | publisherAlreadyAttached (streamId : StreamId) (sessionId : SessionId)
  | publisherMismatch (streamId : StreamId) (sessionId : SessionId)
  | subscriberNotFound (streamId : StreamId) (sessionId : SessionId)
  | recordingUnavailable
  deriving DecidableEq

/-- `MutableStream`. The `attachments` are ghost data: how many publishers were attached so far. A
subscriber's count is one of registrations in memory, so it is a number. -/
structure MutableStream (ρ : Type) where
  id : StreamId
  revision : UInt64
  key : StreamKey
  createdAtUnixMs : UInt64
  publisher : Option PublisherSnapshot
  publisherActivityAtUnixMs : UInt64
  subscribers : Table SessionId ℕ
  media : MediaSnapshot
  mediaSampleSequence : UInt64
  relays : List RelayId
  recorders : List ρ
  attachments : ℕ

/-- `RegistryInner`, with the capabilities of its registry and the next `StreamId`. -/
structure RegistryInner (ρ σ : Type) where
  capabilities : RtmpCapabilities
  admissionOpen : Bool
  revision : UInt64
  asOfUnixMs : UInt64
  streams : Table StreamId (MutableStream ρ)
  streamsByKey : Table StreamKey StreamId
  current : RtmpCatalogSnapshot ρ σ
  snapshotDirty : Bool
  workStats : RtmpRegistryWorkStats
  nextStreamId : StreamId

variable {ρ σ : Type}

/-! ## Streams -/

namespace MutableStream

def new (id : StreamId) (key : StreamKey) (atUnixMs : UInt64) : MutableStream ρ where
  id := id
  revision := 0
  key := key
  createdAtUnixMs := atUnixMs
  publisher := none
  publisherActivityAtUnixMs := 0
  subscribers := ∅
  media := {}
  mediaSampleSequence := 0
  relays := []
  recorders := []
  attachments := 0

variable (stream : MutableStream ρ)

def subscriberCount : ℕ :=
  Table.total (fun count => count) stream.subscribers

def snapshot (status : RelayId → σ) (stream : MutableStream ρ) : StreamSnapshot ρ σ where
  id := stream.id
  revision := stream.revision
  key := stream.key
  createdAtUnixMs := stream.createdAtUnixMs
  publisher := stream.publisher
  subscriberCount := stream.subscriberCount
  media := stream.media
  relays := stream.relays.map fun id => ⟨id, status id⟩
  recorders := stream.recorders

/-- `stream.revision.saturating_add(1)`. -/
def revised : MutableStream ρ :=
  { stream with revision := saturatingAdd stream.revision 1 }

def publisherSession : Option SessionId :=
  stream.publisher.map PublisherSnapshot.sessionId

variable (session : SessionId)

/-- What `attach_publisher_inner` makes of a stream without a publisher. -/
def attached (recorders : List ρ) (relays : List RelayId)
    (atUnixMs : UInt64) (stream : MutableStream ρ) : MutableStream ρ :=
  revised { stream with
      publisher := some ⟨session, atUnixMs⟩
      publisherActivityAtUnixMs := atUnixMs
      media := {}
      mediaSampleSequence := 0
      relays := relays
      recorders := recorders
      attachments := stream.attachments + 1 }

/-- What `detach_publisher_inner` makes of a stream. -/
def detached : MutableStream ρ :=
  revised { stream with
      publisher := none
      publisherActivityAtUnixMs := 0
      media := {}
      mediaSampleSequence := 0
      relays := []
      recorders := [] }

/-- What `attach_subscriber` makes of a stream. -/
def subscribed (stream : MutableStream ρ) : MutableStream ρ :=
  revised { stream with
      subscribers :=
        stream.subscribers.insert session ((stream.subscribers.lookup session).getD 0 + 1) }

/-- What `detach_subscriber` makes of a stream where the session counts `count`. -/
def unsubscribed (count : ℕ) (stream : MutableStream ρ) : MutableStream ρ :=
  revised { stream with
      subscribers :=
        if 1 < count then stream.subscribers.insert session (count - 1)
        else stream.subscribers.erase session }

/-- The order of the streams in a snapshot: by key, then by id. -/
def rank (stream : StreamSnapshot ρ σ) : String ×ₗ String ×ₗ String ×ₗ ℕ :=
  toLex (stream.key.serverId, toLex (stream.key.application, toLex (stream.key.name, stream.id)))

end MutableStream

/-! ## Helpers -/

namespace RegistryInner

/-- `RtmpRegistry::new`. -/
def new (capabilities : RtmpCapabilities) : RegistryInner ρ σ where
  capabilities := capabilities
  admissionOpen := true
  revision := 0
  asOfUnixMs := 0
  streams := ∅
  streamsByKey := ∅
  current := ⟨0, 0, capabilities, []⟩
  snapshotDirty := false
  workStats := {}
  nextStreamId := 0

/-- Writes through `streams.get_mut`: the stream of an id that is there. -/
def setStream (id : StreamId) (stream : MutableStream ρ) (inner : RegistryInner ρ σ) :
    RegistryInner ρ σ :=
  { inner with streams := Table.update id (fun _ => stream) inner.streams }

def ensureStream (key : StreamKey) (atUnixMs : UInt64) (inner : RegistryInner ρ σ) :
    StreamId × RegistryInner ρ σ :=
  match inner.streamsByKey.lookup key with
  | some id => (id, inner)
  | none =>
    let id := inner.nextStreamId
    (id,
      { inner with
        streamsByKey := inner.streamsByKey.insert key id
        streams := inner.streams.insert id (MutableStream.new id key atUnixMs)
        nextStreamId := id + 1 })

def removeStream (id : StreamId) (inner : RegistryInner ρ σ) : RegistryInner ρ σ :=
  match inner.streams.lookup id with
  | none => inner
  | some stream =>
    { inner with
      streams := inner.streams.erase id
      streamsByKey := inner.streamsByKey.erase stream.key }

def markMutation (atUnixMs : UInt64) (inner : RegistryInner ρ σ) : RegistryInner ρ σ :=
  { inner with
    revision := saturatingAdd inner.revision 1
    asOfUnixMs := max inner.asOfUnixMs atUnixMs
    snapshotDirty := true }

variable (status : RelayId → σ)

/-- The snapshot of a registry, when its relays have this status. -/
def render (inner : RegistryInner ρ σ) : RtmpCatalogSnapshot ρ σ where
  revision := inner.revision
  asOfUnixMs := inner.asOfUnixMs
  capabilities := inner.capabilities
  streams :=
    (inner.streams.entries.map fun entry => entry.2.snapshot status).insertionSort fun a b =>
      MutableStream.rank a ≤ MutableStream.rank b

def publishSnapshotIfDirty (inner : RegistryInner ρ σ) : RegistryInner ρ σ :=
  if inner.snapshotDirty then
    { inner with
      workStats :=
        { inner.workStats with
          snapshotRebuilds := saturatingAdd inner.workStats.snapshotRebuilds 1
          snapshotStreamsVisited :=
            saturatingAdd inner.workStats.snapshotStreamsVisited
              (UInt64.ofNat (inner.render status).streams.length) }
      current := inner.render status
      snapshotDirty := false }
  else inner

/-! ## Operations -/

variable (key : StreamKey)

def attachPublisherInner (session : SessionId)
    (recorders : List ρ) (relays : List RelayId) (atUnixMs : UInt64) (inner : RegistryInner ρ σ) :
    Except CatalogError StreamId × RegistryInner ρ σ :=
  if inner.admissionOpen then
    let (id, inner) := inner.ensureStream key atUnixMs
    match inner.streams.lookup id with
    | none => (.error (.streamNotFound id), inner)
    | some stream =>
      match stream.publisher with
      | some publisher =>
        if publisher.sessionId = session then (.ok id, inner)
        else (.error (.publisherAlreadyAttached id publisher.sessionId), inner)
      | none =>
        (.ok id,
          ((inner.setStream id (stream.attached session recorders relays atUnixMs)).markMutation
            atUnixMs).publishSnapshotIfDirty status)
  else (.error .admissionClosed, inner)

/-- `attach_publisher`: its publishers have no recorders and no relays. -/
def attachPublisher (session : SessionId) (recorders : List ρ) (atUnixMs : UInt64)
    (inner : RegistryInner ρ σ) : Except CatalogError StreamId × RegistryInner ρ σ :=
  if recorders.isEmpty then
    inner.attachPublisherInner status key session recorders [] atUnixMs
  else (.error .recordingUnavailable, inner)

variable (id : StreamId) (session : SessionId)

def updateMediaSample (sequence : UInt64) (media : MediaSnapshot) (atUnixMs : UInt64)
    (inner : RegistryInner ρ σ) : Except CatalogError Bool × RegistryInner ρ σ :=
  match inner.streams.lookup id with
  | none => (.error (.streamNotFound id), inner)
  | some stream =>
    if stream.publisherSession = some session then
      let stream :=
        { stream with
          publisherActivityAtUnixMs := max stream.publisherActivityAtUnixMs atUnixMs }
      if sequence ≤ stream.mediaSampleSequence then (.ok false, inner.setStream id stream)
      else
        let stream := { stream with mediaSampleSequence := sequence, media := media }
        let inner := inner.setStream id stream.revised
        let inner :=
          { inner with
            workStats :=
              { inner.workStats with
                mediaUpdates := saturatingAdd inner.workStats.mediaUpdates 1 } }
        (.ok true, inner.markMutation atUnixMs)
    else (.error (.publisherMismatch id session), inner)

variable (atUnixMs : UInt64) (inner : RegistryInner ρ σ)

def attachSubscriber : Except CatalogError StreamId × RegistryInner ρ σ :=
  if inner.admissionOpen then
    let (id, inner) := inner.ensureStream key atUnixMs
    match inner.streams.lookup id with
    | none => (.error (.streamNotFound id), inner)
    | some stream =>
      (.ok id, ((inner.setStream id (stream.subscribed session)).markMutation
          atUnixMs).publishSnapshotIfDirty status)
  else (.error .admissionClosed, inner)

/-- `detach_publisher_inner`; what it returns to be shut down is left out. -/
def detachPublisherInner : Except CatalogError Unit × RegistryInner ρ σ :=
  match inner.streams.lookup id with
  | none => (.error (.streamNotFound id), inner)
  | some stream =>
    if stream.publisherSession = some session then
      let inner := inner.setStream id stream.detached
      let inner := if stream.subscribers.entries.isEmpty then inner.removeStream id else inner
      (.ok (), (inner.markMutation atUnixMs).publishSnapshotIfDirty status)
    else (.error (.publisherMismatch id session), inner)

def detachSubscriber : Except CatalogError Unit × RegistryInner ρ σ :=
  match inner.streams.lookup id with
  | none => (.error (.streamNotFound id), inner)
  | some stream =>
    match stream.subscribers.lookup session with
    | none => (.error (.subscriberNotFound id session), inner)
    | some count =>
      let stream := stream.unsubscribed session count
      let inner := inner.setStream id stream
      let inner :=
        if stream.publisher.isNone && stream.subscribers.entries.isEmpty then inner.removeStream id
        else inner
      (.ok (), (inner.markMutation atUnixMs).publishSnapshotIfDirty status)

variable (change : List ρ → Option (List ρ))

/-- `start_continuous_recording`, `update_recorder_runtime` and `complete_worker_stop`: they change
the recorders of the session that publishes, or nothing. -/
def updateRecorders (atUnixMs : UInt64) (inner : RegistryInner ρ σ) : RegistryInner ρ σ :=
  match inner.streams.lookup id with
  | none => inner
  | some stream =>
    if stream.publisherSession = some session then
      match change stream.recorders with
      | none => inner
      | some recorders =>
        (inner.setStream id { stream with recorders := recorders }.revised).markMutation atUnixMs
    else inner

/-- What `refresh_recorder_statuses` makes of one stream. -/
def refreshed (stream : MutableStream ρ) : MutableStream ρ :=
  match change stream.recorders with
  | none => stream
  | some recorders => { stream with recorders := recorders }.revised

variable (change : StreamId → List ρ → Option (List ρ))

/-- `refresh_recorder_statuses`; the change and the time are what the recorders report. -/
def refreshRecorderStatuses
    (observedAtUnixMs : UInt64) (inner : RegistryInner ρ σ) : RegistryInner ρ σ :=
  if inner.streams.entries.any fun entry => (change entry.1 entry.2.recorders).isSome then
    { inner with
      streams := Table.mapVals (fun id stream => refreshed (change id) stream) inner.streams
      }.markMutation (max inner.asOfUnixMs observedAtUnixMs)
  else inner

/-- `RtmpRegistry::snapshot`. -/
def snapshot (observedAtUnixMs : UInt64) (inner : RegistryInner ρ σ) : RegistryInner ρ σ :=
  let inner := inner.refreshRecorderStatuses change observedAtUnixMs
  let inner :=
    if inner.streams.entries.any fun entry => !entry.2.relays.isEmpty then
      { inner with snapshotDirty := true }
    else inner
  inner.publishSnapshotIfDirty status

def stalePublisherOwner (nowUnixMs thresholdUnixMs : UInt64)
    (inner : RegistryInner ρ σ) : Option (StreamId × SessionId) := do
  let id ← inner.streamsByKey.lookup key
  let stream ← inner.streams.lookup id
  let publisher ← stream.publisher
  if nowUnixMs.toNat - stream.publisherActivityAtUnixMs.toNat < thresholdUnixMs.toNat then none
  else some (id, publisher.sessionId)

end RegistryInner

/-! ## Registrations -/

/-- `PublisherRegistration`. The `attachment` is ghost data: the publisher of the stream, by its
place among all that were attached to it, that this registration was made for. -/
structure PublisherRegistration where
  streamId : StreamId
  sessionId : SessionId
  lastObservedAtUnixMs : UInt64
  active : Bool
  attachment : ℕ
  deriving DecidableEq

structure SubscriberRegistration where
  streamId : StreamId
  sessionId : SessionId
  lastObservedAtUnixMs : UInt64
  active : Bool
  deriving DecidableEq

/-- The registry and the registrations its clients hold. -/
structure RegistryWorld (ρ σ : Type) where
  inner : RegistryInner ρ σ
  publishers : Table ℕ PublisherRegistration
  subscribers : Table ℕ SubscriberRegistration
  nextHandle : ℕ

/-- The operations of the registry and of its registrations. -/
inductive RegistryOp (ρ : Type) where
  | registerPublisher (key : StreamKey) (session : SessionId) (recorders : List ρ)
      (atUnixMs : UInt64)
  | registerManagedPublisher (key : StreamKey) (session : SessionId) (recorders : List ρ)
      (relays : List RelayId) (atUnixMs : UInt64)
  | registerSubscriber (key : StreamKey) (session : SessionId) (atUnixMs : UInt64)
  /-- `detach_publisher`, and `detach_expected_publisher` of a replacement. -/
  | detachPublisher (id : StreamId) (session : SessionId) (atUnixMs : UInt64)
  | updateMediaSample (id : StreamId) (session : SessionId) (sequence : UInt64)
      (media : MediaSnapshot) (atUnixMs : UInt64)
  /-- An operation on the recorders of a publisher. -/
  | updateRecorders (id : StreamId) (session : SessionId) (change : List ρ → Option (List ρ))
      (atUnixMs : UInt64)
  | snapshot (change : StreamId → List ρ → Option (List ρ)) (observedAtUnixMs : UInt64)
  /-- `PublisherRegistration::observe_at`. -/
  | observePublisher (handle : ℕ) (atUnixMs : UInt64)
  /-- `PublisherRegistration::release`. -/
  | releasePublisher (handle : ℕ) (atUnixMs : UInt64)
  /-- `PublisherRegistration::drop`. -/
  | dropPublisher (handle : ℕ)
  /-- `SubscriberRegistration::observe_at`. -/
  | observeSubscriber (handle : ℕ) (atUnixMs : UInt64)
  /-- `SubscriberRegistration::release`. -/
  | releaseSubscriber (handle : ℕ) (atUnixMs : UInt64)
  /-- `SubscriberRegistration::drop`. -/
  | dropSubscriber (handle : ℕ)
  | closeAdmission

namespace RegistryWorld

/-- A registry nobody has used yet. -/
def new (capabilities : RtmpCapabilities) : RegistryWorld ρ σ := ⟨.new capabilities, ∅, ∅, 0⟩

/-- `recorder_ids` and what follows it: the registration of an attached publisher. -/
def admitPublisher (session : SessionId) (atUnixMs : UInt64) (w : RegistryWorld ρ σ) :
    Except CatalogError StreamId × RegistryInner ρ σ → Except CatalogError Unit × RegistryWorld ρ σ
  | (.error e, inner) => (.error e, { w with inner := inner })
  | (.ok id, inner) =>
    match inner.streams.lookup id with
    | none => (.error (.streamNotFound id), { w with inner := inner })
    | some stream =>
      if stream.publisherSession = some session then
        (.ok (), { w with
            inner := inner
            publishers :=
              w.publishers.insert w.nextHandle ⟨id, session, atUnixMs, true, stream.attachments⟩
            nextHandle := w.nextHandle + 1 })
      else (.error (.publisherMismatch id session), { w with inner := inner })

/-- `register_subscriber` after `attach_subscriber`. -/
def admitSubscriber (session : SessionId) (atUnixMs : UInt64) (w : RegistryWorld ρ σ) :
    Except CatalogError StreamId × RegistryInner ρ σ → Except CatalogError Unit × RegistryWorld ρ σ
  | (.error e, inner) => (.error e, { w with inner := inner })
  | (.ok id, inner) =>
    (.ok (), { w with
        inner := inner
        subscribers := w.subscribers.insert w.nextHandle ⟨id, session, atUnixMs, true⟩
        nextHandle := w.nextHandle + 1 })

/-- `PublisherRegistration::release`. -/
def releasePublisher (status : RelayId → σ) (handle : ℕ) (atUnixMs : UInt64)
    (w : RegistryWorld ρ σ) : Except CatalogError Unit × RegistryWorld ρ σ :=
  match w.publishers.lookup handle with
  | none => (.ok (), w)
  | some registration =>
    if registration.active then
      match w.inner.detachPublisherInner status registration.streamId registration.sessionId
          (max atUnixMs registration.lastObservedAtUnixMs) with
      | (.error e, inner) => (.error e, { w with inner := inner })
      | (.ok (), inner) =>
        (.ok (), { w with
            inner := inner
            publishers := w.publishers.insert handle { registration with active := false } })
    else (.ok (), w)

/-- `PublisherRegistration::drop`. -/
def dropPublisher (status : RelayId → σ) (handle : ℕ) (w : RegistryWorld ρ σ) : RegistryWorld ρ σ :=
  match w.publishers.lookup handle with
  | none => w
  | some registration =>
    { w with
      inner :=
        if registration.active then
          (w.inner.detachPublisherInner status registration.streamId registration.sessionId
            registration.lastObservedAtUnixMs).2
        else w.inner
      publishers := w.publishers.erase handle }

/-- `SubscriberRegistration::release`. -/
def releaseSubscriber (status : RelayId → σ) (handle : ℕ) (atUnixMs : UInt64)
    (w : RegistryWorld ρ σ) : Except CatalogError Unit × RegistryWorld ρ σ :=
  match w.subscribers.lookup handle with
  | none => (.ok (), w)
  | some registration =>
    if registration.active then
      match w.inner.detachSubscriber status registration.streamId registration.sessionId
        atUnixMs with
      | (.error e, inner) => (.error e, { w with inner := inner })
      | (.ok (), inner) =>
        (.ok (),
          { w with
            inner := inner
            subscribers := w.subscribers.insert handle { registration with active := false } })
    else (.ok (), w)

/-- `SubscriberRegistration::drop`. -/
def dropSubscriber (status : RelayId → σ) (handle : ℕ) (w : RegistryWorld ρ σ) :
    RegistryWorld ρ σ :=
  match w.subscribers.lookup handle with
  | none => w
  | some registration =>
    { w with
      inner :=
        if registration.active then
          (w.inner.detachSubscriber status registration.streamId registration.sessionId
            registration.lastObservedAtUnixMs).2
        else w.inner
      subscribers := w.subscribers.erase handle }

/-- One operation, with the status the relays have while it runs. -/
def step (status : RelayId → σ) (w : RegistryWorld ρ σ) :
    RegistryOp ρ → Except CatalogError Unit × RegistryWorld ρ σ
  | .registerPublisher key session recorders atUnixMs =>
    w.admitPublisher session atUnixMs
      (w.inner.attachPublisher status key session recorders atUnixMs)
  | .registerManagedPublisher key session recorders relays atUnixMs =>
    w.admitPublisher session atUnixMs
      (w.inner.attachPublisherInner status key session recorders relays atUnixMs)
  | .registerSubscriber key session atUnixMs =>
    w.admitSubscriber session atUnixMs (w.inner.attachSubscriber status key session atUnixMs)
  | .detachPublisher id session atUnixMs =>
    let (answer, inner) := w.inner.detachPublisherInner status id session atUnixMs
    (answer, { w with inner := inner })
  | .updateMediaSample id session sequence media atUnixMs =>
    let (answer, inner) := w.inner.updateMediaSample id session sequence media atUnixMs
    (answer.map fun _ => (), { w with inner := inner })
  | .updateRecorders id session change atUnixMs =>
    (.ok (), { w with inner := w.inner.updateRecorders id session change atUnixMs })
  | .snapshot change observedAtUnixMs =>
    (.ok (), { w with inner := w.inner.snapshot status change observedAtUnixMs })
  | .observePublisher handle atUnixMs =>
    (.ok (),
      { w with
        publishers :=
          Table.update handle
            (fun r => { r with lastObservedAtUnixMs := max r.lastObservedAtUnixMs atUnixMs })
            w.publishers })
  | .releasePublisher handle atUnixMs => w.releasePublisher status handle atUnixMs
  | .dropPublisher handle => (.ok (), w.dropPublisher status handle)
  | .observeSubscriber handle atUnixMs =>
    (.ok (), { w with
        subscribers :=
          Table.update handle
            (fun r => { r with lastObservedAtUnixMs := max r.lastObservedAtUnixMs atUnixMs })
            w.subscribers })
  | .releaseSubscriber handle atUnixMs => w.releaseSubscriber status handle atUnixMs
  | .dropSubscriber handle => (.ok (), w.dropSubscriber status handle)
  | .closeAdmission => (.ok (), { w with inner := { w.inner with admissionOpen := false } })

end RegistryWorld

end Oxiroute.Rtmp
