import Oxiroute.Master.Protocol

/-!
# Worker status observations

Model of the data model and the codec of `oxiroute-supervisor-master/src/status.rs`. The
functions that turn a status into bytes and back follow the source statement by statement; a
repeated shape (an optional value behind a tag byte) is one helper.
-/

namespace Oxiroute.Master

open Lib Prog Supervision

def statusMessage : MessageType := 0x181

def maxStatusBytes : ℕ := 60 * 1024

def maxStatusListeners : ℕ := 64

def maxStatusEvents : ℕ := 64

def maxStatusStringBytes : ℕ := 1024

def statusFormatVersion : UInt16 := 1

inductive WorkerLifecycle where
  | starting
  | ready
  | active
  | quiescing
  | draining
  | reactivating
  | stopping
  | failed
  deriving DecidableEq

inductive WorkerListenerState where
  | configured
  | listening
  | stopped
  | failed
  deriving DecidableEq

inductive WorkerAdministrativeState where
  | ready
  | drain
  | maintenance
  deriving DecidableEq

structure WorkerMetrics where
  acceptedConnections : UInt64
  rejectedConnections : UInt64
  activeConnections : UInt64
  bytesReceived : UInt64
  bytesSent : UInt64
  deriving DecidableEq

structure WorkerListenerStatus where
  name : String
  protocol : String
  bind : String
  administrativeState : WorkerAdministrativeState
  state : WorkerListenerState
  acceptedConnections : UInt64
  rejectedConnections : UInt64
  activeConnections : UInt64
  bytesReceived : UInt64
  bytesSent : UInt64
  deriving DecidableEq

structure WorkerGenerationStatus where
  diskRevision : Option String
  candidateRevision : Option String
  activeRevision : Option String
  previousRevision : Option String
  quarantinedRevision : Option String
  activeAccepting : Bool
  degraded : Bool
  lastFailure : Option String
  prepares : UInt64
  activations : UInt64
  failures : UInt64
  rollbacks : UInt64
  deriving DecidableEq

structure WorkerEventRecord where
  cursor : UInt64
  timestampUnixMs : Option UInt64
  event : String
  outcome : String
  revision : Option String
  certificate : Option String
  correlationId : Option String
  source : Option String
  operation : Option String
  deriving DecidableEq

structure WorkerStatus where
  sequence : UInt64
  generationId : GenerationId
  lifecycle : WorkerLifecycle
  administrativeState : WorkerAdministrativeState
  accepting : Bool
  runtimeStarted : Bool
  runtimeFailed : Bool
  drained : Bool
  generation : WorkerGenerationStatus
  metrics : Option WorkerMetrics
  listeners : List WorkerListenerStatus
  degraded : Bool
  degradation : Option String
  eventCursor : UInt64
  eventCursorLost : Bool
  events : List WorkerEventRecord
  deriving DecidableEq

inductive StatusProtocolError where
  | unexpectedMessage (messageType : UInt16)
  | unexpectedDescriptors
  | tooLarge (maximum : ℕ)
  | versionMismatch (expected actual : UInt16)
  | invalidPayload
  | stringTooLong (maximum : ℕ)
  | collectionTooLong (kind : String)
  deriving DecidableEq

/-- `StatusWire`. -/
instance : BoundedWireProtocol StatusProtocolError where
  invalid := .invalidPayload
  tooLarge := fun _ maximum => .tooLarge maximum

/-! ## Tags -/

def statusFlags (status : WorkerStatus) : UInt8 :=
  status.accepting.toUInt8 ||| (status.runtimeStarted.toUInt8 <<< 1) |||
    (status.runtimeFailed.toUInt8 <<< 2) ||| (status.drained.toUInt8 <<< 3) |||
    (status.degraded.toUInt8 <<< 4)

def encodeLifecycle : WorkerLifecycle → UInt8
  | .starting => 1
  | .ready => 2
  | .active => 3
  | .quiescing => 4
  | .draining => 5
  | .reactivating => 6
  | .stopping => 7
  | .failed => 8

def decodeLifecycle (value : UInt8) : Except StatusProtocolError WorkerLifecycle :=
  match value with
  | 1 => .ok .starting
  | 2 => .ok .ready
  | 3 => .ok .active
  | 4 => .ok .quiescing
  | 5 => .ok .draining
  | 6 => .ok .reactivating
  | 7 => .ok .stopping
  | 8 => .ok .failed
  | _ => .error .invalidPayload

def encodeListenerState : WorkerListenerState → UInt8
  | .configured => 0
  | .listening => 1
  | .stopped => 2
  | .failed => 3

def decodeListenerState (value : UInt8) : Except StatusProtocolError WorkerListenerState :=
  match value with
  | 0 => .ok .configured
  | 1 => .ok .listening
  | 2 => .ok .stopped
  | 3 => .ok .failed
  | _ => .error .invalidPayload

def encodeAdministrativeState : WorkerAdministrativeState → UInt8
  | .ready => 0
  | .drain => 1
  | .maintenance => 2

def decodeAdministrativeState (value : UInt8) :
    Except StatusProtocolError WorkerAdministrativeState :=
  match value with
  | 0 => .ok .ready
  | 1 => .ok .drain
  | 2 => .ok .maintenance
  | _ => .error .invalidPayload

/-! ## Encoding -/

section write

open Supervision.BoundedWireWriter

abbrev StatusEncode := Prog Buffer StatusProtocolError Unit

/-- `string` of `StatusEncoder`. -/
def encodeString (value : String) : StatusEncode :=
  if maxStatusStringBytes < (utf8Bytes value).length then
    throw (.stringTooLong maxStatusStringBytes)
  else do
    u16 (UInt16.ofNat (utf8Bytes value).length)
    bytes (utf8Bytes value)

/-- A tag byte, and the value behind it when there is one. -/
def encodeOptional {α : Type} (encode : α → StatusEncode) : Option α → StatusEncode
  | some value => do
    u8 1
    encode value
  | none => u8 0

/-- `optional_string` of `StatusEncoder`. -/
def encodeOptionalString : Option String → StatusEncode := encodeOptional encodeString

/-- `u8::from(bool)` on the wire. -/
def encodeFlag (value : Bool) : StatusEncode := u8 value.toUInt8

def encodeGeneration (generation : WorkerGenerationStatus) : StatusEncode := do
  encodeOptionalString generation.diskRevision
  encodeOptionalString generation.candidateRevision
  encodeOptionalString generation.activeRevision
  encodeOptionalString generation.previousRevision
  encodeOptionalString generation.quarantinedRevision
  encodeFlag generation.activeAccepting
  encodeFlag generation.degraded
  encodeOptionalString generation.lastFailure
  u64 generation.prepares
  u64 generation.activations
  u64 generation.failures
  u64 generation.rollbacks

/-- The metrics of `encode_status`. -/
def encodeMetrics (metrics : WorkerMetrics) : StatusEncode := do
  u64 metrics.acceptedConnections
  u64 metrics.rejectedConnections
  u64 metrics.activeConnections
  u64 metrics.bytesReceived
  u64 metrics.bytesSent

/-- One round of the listener loop of `encode_status`. -/
def encodeListener (listener : WorkerListenerStatus) : StatusEncode := do
  encodeString listener.name
  encodeString listener.protocol
  encodeString listener.bind
  u8 (encodeAdministrativeState listener.administrativeState)
  u8 (encodeListenerState listener.state)
  u64 listener.acceptedConnections
  u64 listener.rejectedConnections
  u64 listener.activeConnections
  u64 listener.bytesReceived
  u64 listener.bytesSent

def encodeEvent (event : WorkerEventRecord) : StatusEncode :=
  if event.cursor = 0 then throw .invalidPayload
  else do
    u64 event.cursor
    encodeOptional u64 event.timestampUnixMs
    encodeString event.event
    encodeString event.outcome
    encodeOptionalString event.revision
    encodeOptionalString event.certificate
    encodeOptionalString event.correlationId
    encodeOptionalString event.source
    encodeOptionalString event.operation

/-- The writes of `encode_status`, in their order. -/
def encodeStatusBody (status : WorkerStatus) : StatusEncode := do
  u16 statusFormatVersion
  u16 controlProtocolVersion
  u64 status.sequence
  u64 status.generationId
  u8 (encodeLifecycle status.lifecycle)
  u8 (statusFlags status)
  u8 (encodeAdministrativeState status.administrativeState)
  encodeGeneration status.generation
  encodeOptional encodeMetrics status.metrics
  u16 (UInt16.ofNat status.listeners.length)
  forEach status.listeners encodeListener
  encodeOptionalString status.degradation
  u64 status.eventCursor
  encodeFlag status.eventCursorLost
  u16 (UInt16.ofNat status.events.length)
  forEach status.events encodeEvent

def encodeStatus (status : WorkerStatus) : Except StatusProtocolError (List UInt8) :=
  if status.sequence = 0 ∨ maxStatusListeners < status.listeners.length then
    .error .invalidPayload
  else if maxStatusEvents < status.events.length then .error (.collectionTooLong "events")
  else encode maxStatusBytes (encodeStatusBody status)

end write

/-! ## Decoding -/

section read

open Supervision.BoundedWireReader

abbrev StatusDecode := Prog (List UInt8) StatusProtocolError

/-- `flag` of `StatusDecoder`. -/
def decodeFlag : StatusDecode Bool := do
  match ← u8 with
  | 0 => pure false
  | 1 => pure true
  | _ => throw .invalidPayload

/-- `string` of `StatusDecoder`. -/
def decodeString : StatusDecode String := do
  let length ← u16
  if maxStatusStringBytes < length.toNat then
    throw (.stringTooLong maxStatusStringBytes)
  else
    let value ← bytes length.toNat
    okOr (fromUtf8 value) .invalidPayload

/-- A tag byte, and the value behind it when there is one. -/
def decodeOptional {α : Type} (decode : StatusDecode α) : StatusDecode (Option α) := do
  match ← u8 with
  | 0 => pure none
  | 1 => do
    let value ← decode
    pure (some value)
  | _ => throw .invalidPayload

/-- `optional_string` of `StatusDecoder`. -/
def decodeOptionalString : StatusDecode (Option String) := decodeOptional decodeString

def decodeGeneration : StatusDecode WorkerGenerationStatus := do
  let diskRevision ← decodeOptionalString
  let candidateRevision ← decodeOptionalString
  let activeRevision ← decodeOptionalString
  let previousRevision ← decodeOptionalString
  let quarantinedRevision ← decodeOptionalString
  let activeAccepting ← decodeFlag
  let degraded ← decodeFlag
  let lastFailure ← decodeOptionalString
  let prepares ← u64
  let activations ← u64
  let failures ← u64
  let rollbacks ← u64
  pure { diskRevision, candidateRevision, activeRevision, previousRevision, quarantinedRevision,
         activeAccepting, degraded, lastFailure, prepares, activations, failures, rollbacks }

/-- The metrics of `decode_status`. -/
def decodeMetrics : StatusDecode WorkerMetrics := do
  let acceptedConnections ← u64
  let rejectedConnections ← u64
  let activeConnections ← u64
  let bytesReceived ← u64
  let bytesSent ← u64
  pure { acceptedConnections, rejectedConnections, activeConnections, bytesReceived, bytesSent }

/-- One round of the listener loop of `decode_status`. -/
def decodeListener : StatusDecode WorkerListenerStatus := do
  let name ← decodeString
  let protocol ← decodeString
  let bind ← decodeString
  let administrativeState ← (u8 >>= fun v => ofExcept (decodeAdministrativeState v))
  let state ← (u8 >>= fun v => ofExcept (decodeListenerState v))
  let acceptedConnections ← u64
  let rejectedConnections ← u64
  let activeConnections ← u64
  let bytesReceived ← u64
  let bytesSent ← u64
  pure { name, protocol, bind, administrativeState, state, acceptedConnections,
         rejectedConnections, activeConnections, bytesReceived, bytesSent }

def decodeEvent : StatusDecode WorkerEventRecord := do
  let cursor ← u64
  if cursor = 0 then throw .invalidPayload
  else
    let timestampUnixMs ← decodeOptional u64
    let event ← decodeString
    let outcome ← decodeString
    let revision ← decodeOptionalString
    let certificate ← decodeOptionalString
    let correlationId ← decodeOptionalString
    let source ← decodeOptionalString
    let operation ← decodeOptionalString
    pure { cursor, timestampUnixMs, event, outcome, revision, certificate, correlationId, source,
           operation }

/-- Two neighbouring events whose cursors do not increase: `windows(2).any`. -/
def cursorsStall (events : List WorkerEventRecord) : Bool :=
  (events.zip events.tail).any fun pair => pair.2.cursor ≤ pair.1.cursor

/-- A last event above the announced cursor: `last().is_some_and`. -/
def cursorBeyond (events : List WorkerEventRecord) (eventCursor : UInt64) : Bool :=
  events.getLast?.any fun event => eventCursor < event.cursor

/-- The reads of `decode_status`, in their order, from a payload of generation `generation`. -/
def decodeStatusBody (generation : GenerationId) : StatusDecode WorkerStatus := do
  let formatVersion ← u16
  if formatVersion ≠ statusFormatVersion then
    throw (.versionMismatch statusFormatVersion formatVersion)
  else
  let protocolVersion ← u16
  if protocolVersion ≠ controlProtocolVersion then
    throw (.versionMismatch controlProtocolVersion protocolVersion)
  else
  let sequence ← u64
  if sequence = 0 then throw .invalidPayload
  else
  let generationId ← u64
  if generationId ≠ generation then throw .invalidPayload
  else
  let lifecycle ← (u8 >>= fun v => ofExcept (decodeLifecycle v))
  let flags ← u8
  if flags &&& ~~~0x1f ≠ 0 then throw .invalidPayload
  else
  let administrativeState ← (u8 >>= fun v => ofExcept (decodeAdministrativeState v))
  let generationStatus ← decodeGeneration
  let metrics ← decodeOptional decodeMetrics
  let listenerCount ← u16
  if maxStatusListeners < listenerCount.toNat then throw (.collectionTooLong "listeners")
  else
  let listeners ← Lib.readMany decodeListener listenerCount.toNat
  let degradation ← decodeOptionalString
  let eventCursor ← u64
  let eventCursorLost ← decodeFlag
  let eventCount ← u16
  if maxStatusEvents < eventCount.toNat then throw (.collectionTooLong "events")
  else
  let events ← Lib.readMany decodeEvent eventCount.toNat
  if cursorsStall events then throw .invalidPayload
  else if cursorBeyond events eventCursor then throw .invalidPayload
  else
  finish
  pure {
    sequence
    generationId
    lifecycle
    administrativeState
    accepting := flags &&& 0x01 != 0
    runtimeStarted := flags &&& 0x02 != 0
    runtimeFailed := flags &&& 0x04 != 0
    drained := flags &&& 0x08 != 0
    degraded := flags &&& 0x10 != 0
    generation := generationStatus
    metrics
    listeners
    degradation
    eventCursor
    eventCursorLost
    events }

def decodeStatus (frame : AuthenticatedFrame) : Except StatusProtocolError WorkerStatus :=
  if frame.messageType ≠ statusMessage then .error (.unexpectedMessage frame.messageType)
  else if frame.descriptors ≠ 0 then .error .unexpectedDescriptors
  else if maxStatusBytes < frame.payload.length then .error (.tooLarge maxStatusBytes)
  else (decodeStatusBody frame.generation frame.payload).1

end read

end Oxiroute.Master
