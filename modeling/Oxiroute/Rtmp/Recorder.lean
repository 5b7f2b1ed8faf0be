import Oxiroute.Lib.Runs
import Oxiroute.Rtmp.Flv
import Mathlib.Data.List.Sort

/-!
# The recorder worker

Model of `WorkerContext` of `crates/oxiroute-rtmp/src/recording_worker.rs`: it writes the events of
its queue into one segment file after another.

* `SegmentHeaders` are the latest metadata and sequence headers, which a new segment begins with.
* A segment is rotated when a limit on its size or its frames asks for it (`limitRequiresRotation`)
  or when the rotation interval has passed (`shouldRotate`); an event that a limit forbids and that
  cannot begin a segment is dropped (`limitRequiresDrop`).
* `process` is one event, and `run` the worker's loop, which ends at the first event that fails. A
  recorder that is stopped and started by hand is a new worker, to which the controller replays the
  headers first.

The store, the finalizer and the file that may be resumed are outside: a `WorkerInput` says for its
event whether they fail and which file is resumed. As ghost data the worker keeps the segments it
has finished and the latest header of each kind it was given, and each segment those at the moment
its media started.
-/

namespace Oxiroute.Rtmp

open Lib Http

inductive RecorderFailure where
  | open
  | write
  | finalize
  | fileSync
  | publish
  | directorySync
  | discontinuity
  | unsupportedCodec
  | shutdownTimedOut
  | workerPanicked
  deriving DecidableEq

/-- Why a worker stops at an event. -/
inductive RecorderStop where
  | failed (failure : RecorderFailure)
  | panicked (panic : Panic)
  deriving DecidableEq

/-- The limits of `RecorderWorkerConfig`; times are in nanoseconds. -/
structure RecorderWorkerConfig where
  rotationInterval : Option ℕ
  maxSize : Option ℕ
  maxFrames : Option ℕ
  deriving DecidableEq

/-- The latest event of each kind of header. -/
structure LatestHeaders where
  metadata : Option MediaEvent := none
  aac : Option MediaEvent := none
  video : Option MediaEvent := none
  deriving DecidableEq

structure CachedHeader where
  sequence : UInt64
  event : MediaEvent
  deriving DecidableEq

structure SegmentHeaders where
  sequence : UInt64 := 0
  metadata : Option CachedHeader := none
  aac : Option CachedHeader := none
  video : Option CachedHeader := none
  deriving DecidableEq

/-- `Segment`. The headers are ghost data: the latest ones when its media started, or so far. -/
structure Segment where
  muxer : FlvMuxer
  frameCount : UInt64
  latest : LatestHeaders
  deriving DecidableEq

/-- `WorkerContext`, with the failure in the status of the worker. The last two fields are ghost
data. -/
structure WorkerContext where
  config : RecorderWorkerConfig
  stopped : Option RecorderStop
  nextSegmentSequence : UInt64
  segment : Option Segment
  segmentStartedAt : Option ℕ
  videoSeen : Bool
  segmentHeaders : SegmentHeaders
  latest : LatestHeaders
  finished : List Segment
  deriving DecidableEq

/-- A file that `resumable_segment` found: its bytes, what `inspect_tail` returned of it, its tags,
its sequence number and when it was started. -/
structure ResumedFile where
  sequence : UInt64
  writer : Bytes
  flags : UInt8
  lastTimestampMs : UInt32
  log : List WrittenTag
  startedAt : ℕ
  deriving DecidableEq

/-- `QueuedMediaEvent`, and what the parts of the recorder outside of the model do while it is
processed. -/
structure WorkerInput where
  event : MediaEvent
  arrivedAt : ℕ
  pollFailure : Option RecorderFailure := none
  finalizationFailure : Option RecorderFailure := none
  openFailure : Option RecorderFailure := none
  resume : Option ResumedFile := none
  deriving DecidableEq

/-! ## Kinds of events -/

def VideoCodecIdentifier.recordingSupported : VideoCodecIdentifier → Bool
  | .flv codecId => decide (codecId = 7)
  | .fourCc code => decide (code = .avc1 ∨ code = .hvc1 ∨ code = .av01)

def isUnsupportedVideoEvent (event : MediaEvent) : Bool :=
  event.kind.isVideo &&
    event.videoCodecIdentifier.any fun identifier => !identifier.recordingSupported

def isFrameEvent (event : MediaEvent) : Bool :=
  match event.kind with
  | .audio | .videoKeyframe | .videoInterframe | .videoDisposable => true
  | _ => false

/-- The kinds that `process` keeps for the next segment. -/
def MediaEventKind.isReplayed : MediaEventKind → Bool
  | .metadata | .aacSequenceHeader | .avcSequenceHeader => true
  | _ => false

def LatestHeaders.update (latest : LatestHeaders) (event : MediaEvent) : LatestHeaders :=
  match event.kind with
  | .metadata => { latest with metadata := some event }
  | .aacSequenceHeader => { latest with aac := some event }
  | .avcSequenceHeader | .hevcSequenceHeader | .av1SequenceHeader =>
    { latest with video := some event }
  | _ => latest

namespace SegmentHeaders

/-- `SegmentHeaders::update`; it is called with the kinds above only. -/
def update (headers : SegmentHeaders) (event : MediaEvent) : SegmentHeaders :=
  let headers := { headers with sequence := saturatingAdd headers.sequence 1 }
  let header : CachedHeader := ⟨headers.sequence, event⟩
  match event.kind with
  | .metadata => { headers with metadata := some header }
  | .aacSequenceHeader => { headers with aac := some header }
  | .avcSequenceHeader | .hevcSequenceHeader | .av1SequenceHeader =>
    { headers with video := some header }
  | _ => headers

def ordered (headers : SegmentHeaders) : List MediaEvent :=
  ((headers.metadata.toList ++ headers.aac.toList ++ headers.video.toList).insertionSort
    fun a b => a.sequence.toNat ≤ b.sequence.toNat).map CachedHeader.event

end SegmentHeaders

/-! ## Segments -/

/-- A write of the muxer, as the worker sees it. -/
def writeToMuxer (event : MediaEvent) (muxer : FlvMuxer) : Except RecorderStop FlvMuxer :=
  match muxer.write event with
  | .error _ => .error (.failed .write)
  | .ok (.error panic) => .error (.panicked panic)
  | .ok (.ok muxer) => .ok muxer

namespace Segment

variable (event : MediaEvent) (segment : Segment)

def projectedBytes : Except RecorderStop ℕ :=
  match segment.muxer.projectedBytes event with
  | .error _ => .error (.failed .write)
  | .ok projected => .ok projected

def projectedEnd : Except RecorderStop (Option ℕ) := do
  let projected ← segment.projectedBytes event
  return checkedAddSize segment.muxer.writer.length projected

def write : Except RecorderStop Segment := do
  let projected ← segment.projectedBytes event
  let muxer ← writeToMuxer event segment.muxer
  return { segment with
    muxer := muxer
    frameCount :=
      if 0 < projected && isFrameEvent event then saturatingAdd segment.frameCount 1
      else segment.frameCount }

end Segment

/-! ## The worker -/

/-- What a part of the recorder outside of the model answers. -/
def answer : Option RecorderFailure → Except RecorderStop Unit
  | some failure => .error (.failed failure)
  | none => .ok ()

namespace WorkerContext

def new (config : RecorderWorkerConfig) : WorkerContext where
  config := config
  stopped := none
  nextSegmentSequence := 0
  segment := none
  segmentStartedAt := none
  videoSeen := false
  segmentHeaders := {}
  latest := {}
  finished := []

variable (event : MediaEvent)

/-- A limit of the segment forbids the event. -/
def limitReached (segment : Segment) (c : WorkerContext) : Except RecorderStop Bool := do
  let frameLimitReached := c.config.maxFrames.any fun maximum =>
    decide (maximum ≤ segment.frameCount.toNat) && isFrameEvent event
  match c.config.maxSize with
  | none => return frameLimitReached
  | some maximum =>
    let size ← segment.projectedEnd event
    return frameLimitReached || size.any fun size => decide (maximum < size)

def limitRequiresRotation (segment : Segment) (c : WorkerContext) : Except RecorderStop Bool := do
  let limitReached ← c.limitReached event segment
  return limitReached && segment.muxer.hasMedia &&
    (!c.videoSeen || decide (event.kind = .videoKeyframe))

def limitRequiresDrop (segment : Segment) (c : WorkerContext) : Except RecorderStop Bool := do
  let limitReached ← c.limitReached event segment
  return limitReached && segment.muxer.hasMedia && c.videoSeen &&
    decide (event.kind ≠ .videoKeyframe)

def shouldRotate (arrivedAt : ℕ) (c : WorkerContext) : Bool :=
  match c.config.rotationInterval, c.segmentStartedAt with
  | some interval, some startedAt =>
    if arrivedAt - startedAt < interval then false
    else if c.videoSeen then decide (event.kind = .videoKeyframe)
    else decide (event.kind = .audio)
  | _, _ => false

variable (input : WorkerInput) (c : WorkerContext)

/-- The file to resume: only the first segment of a worker may be one. -/
def resumed : Option ResumedFile :=
  if c.nextSegmentSequence = 0 then input.resume else none

/-- The muxer of the next segment, before its headers are written. -/
def nextMuxer : FlvMuxer :=
  match c.resumed input with
  | some file => .resume file.writer file.flags file.lastTimestampMs file.log
  | none => .new []

def openSegment : Except RecorderStop WorkerContext := do
  answer input.openFailure
  let muxer ← c.segmentHeaders.ordered.foldlM (fun muxer header => writeToMuxer header muxer)
    (c.nextMuxer input)
  let sequence := (c.resumed input).elim c.nextSegmentSequence ResumedFile.sequence
  match checkedAdd sequence 1 with
  | none => .error (.failed .open)
  | some next =>
    .ok { c with
      nextSegmentSequence := next
      segment := some ⟨muxer, 0, c.latest⟩
      segmentStartedAt := some ((c.resumed input).elim input.arrivedAt ResumedFile.startedAt) }

/-- `start_segment_finalization` and the lines after it. -/
def finalizeSegment : Except RecorderStop WorkerContext := do
  answer input.finalizationFailure
  return { c with
    segment := none
    segmentStartedAt := none
    finished := c.finished ++ c.segment.toList }

/-- The segment is finished and the next one opened. -/
def rotate : Except RecorderStop WorkerContext := do
  let c ← c.finalizeSegment input
  c.openSegment input

/-- The event goes into the open segment; the ghost headers of the segment follow the worker's until
its media starts. -/
def writeSegment (event : MediaEvent) (segment : Segment) (c : WorkerContext) :
    Except RecorderStop WorkerContext := do
  let written ← segment.write event
  return { c with
    segment := some { written with
      latest := if segment.muxer.hasMedia then written.latest else c.latest } }

/-- The first lines of `process`: the worker has seen the event. -/
def note (event : MediaEvent) (c : WorkerContext) : WorkerContext :=
  { c with
    latest := c.latest.update event
    videoSeen := c.videoSeen || event.kind.isVideo }

/-- The limits of `process`: the worker that goes on with the event, or none when it is dropped. -/
def limit : Except RecorderStop (Option WorkerContext) :=
  match c.segment with
  | none => .ok (some c)
  | some segment => do
    if ← c.limitRequiresRotation input.event segment then
      let c ← c.rotate input
      return some c
    else if ← c.limitRequiresDrop input.event segment then return none
    else return some c

/-- `process` for metadata and the headers that are kept for the next segment. -/
def processHeader : Except RecorderStop WorkerContext :=
  let c := { c with segmentHeaders := c.segmentHeaders.update input.event }
  match c.segment with
  | some segment => c.writeSegment input.event segment
  | none => c.openSegment input

/-- The segment of the other events is opened if there is none, and rotated if it is time to. -/
def segmentFor : Except RecorderStop WorkerContext :=
  if c.segment.isNone then c.openSegment input
  else if c.shouldRotate input.event input.arrivedAt then c.rotate input
  else .ok c

/-- `process` for the other events. -/
def processMedia : Except RecorderStop WorkerContext := do
  let c ← c.segmentFor input
  match c.segment with
  | none => .error (.panicked .expect)
  | some segment => c.writeSegment input.event segment

def process : Except RecorderStop WorkerContext := do
  answer input.pollFailure
  if isUnsupportedVideoEvent input.event then .error (.failed .unsupportedCodec)
  else
    match ← (c.note input.event).limit input with
    | none => return c.note input.event
    | some c => if input.event.kind.isReplayed then c.processHeader input else c.processMedia input

def step (input : WorkerInput) : WorkerContext :=
  if c.stopped.isSome then c
  else
    match c.process input with
    | .ok c' => c'
    | .error stop => { c with stopped := some stop }

def run (config : RecorderWorkerConfig) (inputs : List WorkerInput) : WorkerContext :=
  inputs.foldl step (new config)

/-- Every segment the worker has opened. -/
def segments : List Segment := c.finished ++ c.segment.toList

end WorkerContext

end Oxiroute.Rtmp
