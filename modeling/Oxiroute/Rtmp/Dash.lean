import Oxiroute.Rtmp.DashBoxes
import Oxiroute.Rtmp.DashManifest

/-!
# The DASH segmenter

Model of `DashSegmenter` of `crates/oxiroute-rtmp/src/dash_segmenter.rs`: it collects the samples of
a stream in segments, cuts a segment at a keyframe, publishes it as a file, and keeps the latest
ones in a manifest.

* `accept` is one media event and `finish` the end of a segment; either may panic while it builds
  boxes.
* The store is outside: `DashAnswers` says for one call whether the stream is still attached, which
  files it takes and which it removes, and the time of the clock.
* What the store has done is the `journal`, as ghost data: one entry for each file it replaced or
  removed, each of them atomic. `treeAfter` is the directory after some of them.
* `new` starts from a directory and reads its manifest.

As further ghost data the segmenter counts its events, and keeps the number of the last keyframe and
the segments that it has published.
-/

namespace Oxiroute.Rtmp

open Lib Http

/-- `SegmentWindowConfig::should_cut`. -/
def shouldCut (targetMs maximumMs : ℕ) (startTimestampMs timestampMs : UInt32) : Bool :=
  decide (min targetMs maximumMs ≤ timestampMs.toNat - startTimestampMs.toNat)

def maxDashSegments : ℕ := 512

/-- `DashOutputConfig`, and the limit of its store on a file. Durations are in milliseconds. -/
structure DashOutputConfig where
  segmentDuration : ℕ
  maxSegmentDuration : ℕ
  playlistLength : ℕ
  naming : DashSegmentNaming
  cleanup : Bool
  maxSegmentBytes : ℕ
  maxFileBytes : ℕ
  deriving DecidableEq

/-- What the store and the clock answer during one call. -/
structure DashAnswers where
  attached : Bool
  publishes : List Char → Bool
  removes : List Char → Bool
  unixTimeMs : UInt64

/-- One atomic change of the directory. -/
inductive DashWrite where
  | publish (name : List Char) (file : DashFile)
  | remove (name : List Char)
  deriving DecidableEq

/-- `DashSegmenter`. The last four fields are ghost data. -/
structure DashSegmenter where
  config : DashOutputConfig
  videoConfig : Option DashAvcConfig
  audioConfig : Option DashAacConfig
  videoWidth : UInt16
  videoHeight : UInt16
  current : Option DashSegmentBuilder
  published : List DashPublishedSegment
  nextSequence : ℕ
  initializationPublished : Bool
  failed : Bool
  journal : List DashWrite
  seen : ℕ
  lastKeyframe : Option ℕ
  finished : List DashSegmentBuilder
  deriving DecidableEq

/-- The directory after one change. -/
def DashTree.apply (tree : DashTree) : DashWrite → DashTree
  | .publish name file => tree.insert name file
  | .remove name => tree.erase name

/-- The directory after a list of changes. -/
def treeAfter (tree : DashTree) (journal : List DashWrite) : DashTree :=
  journal.foldl DashTree.apply tree

def sumDurations (segments : List DashPublishedSegment) : ℕ :=
  segments.foldl (fun total segment => min (total + segment.durationMs) (2 ^ 64 - 1)) 0

/-- The segments that `trim_playlist` drops, and those it keeps. -/
def trimSegments (playlistLengthMs : ℕ) :
    List DashPublishedSegment → List DashPublishedSegment × List DashPublishedSegment
  | first :: second :: rest =>
    if playlistLengthMs < sumDurations (first :: second :: rest) ∨
        maxDashSegments < (first :: second :: rest).length then
      let (dropped, kept) := trimSegments playlistLengthMs (second :: rest)
      (first :: dropped, kept)
    else ([], first :: second :: rest)
  | segments => ([], segments)

def segmentDurationMs (segment : DashSegmentBuilder) (sampleRate : UInt32) : ℕ :=
  let audioEnd := (segment.audio.getLast?.map fun sample =>
    sample.timestampMs.toNat + aacSamplesPerFrame * 1000 / max sampleRate.toNat 1).getD 0
  max 1 (max segment.lastTimestampMs.toNat audioEnd - segment.startTimestampMs.toNat)

/-- A dimension of the metadata that fits sixteen bits. -/
def metadataSize (value : Option UInt32) : UInt16 :=
  match value with
  | none => 0
  | some value => if value.toNat < 2 ^ 16 then UInt16.ofNat value.toNat else 0

namespace DashSegmenter

/-- `DashSegmenter::new`, on the directory of an attached stream. -/
def new (config : DashOutputConfig) (tree : DashTree) : Except DashLoadError DashSegmenter :=
  match loadManifest config.maxFileBytes tree with
  | .error e => .error e
  | .ok (published, nextSequence) => .ok {
      config := config
      videoConfig := none
      audioConfig := none
      videoWidth := 0
      videoHeight := 0
      current := none
      published := published
      nextSequence := nextSequence
      initializationPublished := false
      failed := false
      journal := []
      seen := 0
      lastKeyframe := none
      finished := [] }

def fail (s : DashSegmenter) : DashSegmenter := { s with failed := true }

variable (a : DashAnswers)

/-- `MediaStore::publish`: nothing if it fails. -/
def publish (name : List Char) (file : DashFile) (s : DashSegmenter) : Option DashSegmenter :=
  if file.size ≤ s.config.maxFileBytes ∧ a.publishes name = true then
    some { s with journal := s.journal ++ [.publish name file] }
  else none

def publishInitialization (s : DashSegmenter) : Panics DashSegmenter :=
  if s.initializationPublished ∨ s.failed then .ok s
  else
    match s.videoConfig, s.audioConfig with
    | some video, some audio =>
      if a.attached = false then .ok s.fail
      else do
        let initialization ← makeInitialization video audio s.videoWidth s.videoHeight
        match s.publish a initializationName (.data initialization) with
        | none => .ok s.fail
        | some s => .ok { s with initializationPublished := true }
    | _, _ => .ok s

def trimPlaylist (s : DashSegmenter) : DashSegmenter :=
  let (dropped, kept) := trimSegments s.config.playlistLength s.published
  let removals :=
    if s.config.cleanup then
      ((dropped.map fun segment => segment.name).filter a.removes).map DashWrite.remove
    else []
  { s with published := kept, journal := s.journal ++ removals }

/-- The arguments of `render_mpd` besides the segments. -/
def manifestHeader (video : DashAvcConfig) (audio : DashAacConfig) (endList : Bool)
    (s : DashSegmenter) :
    ManifestHeader where
  profile := video.profile
  compatibility := video.compatibility
  level := video.level
  sampleRate := audio.sampleRate.toNat
  channelConfiguration := audio.channelConfiguration
  audioObjectType := audio.audioObjectType
  width := s.videoWidth
  height := s.videoHeight
  playlistLengthMs := s.config.playlistLength
  endList := endList

variable (endList : Bool) (s : DashSegmenter)

def writeManifest : DashSegmenter :=
  if s.failed ∨ s.published = [] then s
  else
    match s.videoConfig, s.audioConfig with
    | some video, some audio =>
      if a.attached = false then s.fail
      else
        let manifest := renderMpd (s.manifestHeader video audio endList) s.published
        if s.config.maxSegmentBytes < textSize manifest then s.fail
        else (s.publish a manifestName (.manifest manifest)).getD s.fail
    | _, _ => s

/-- The part of `finish` behind the fragment: publishes it and what follows from it. -/
def publishFragment (segment : DashSegmentBuilder) (sampleRate : UInt32)
    (bytes : Bytes) (s : DashSegmenter) : DashSegmenter :=
  if s.config.maxSegmentBytes < bytes.length then s.fail
  else
    let sequence := s.nextSequence
    let s := { s with nextSequence := min (s.nextSequence + 1) (2 ^ 64 - 1) }
    if a.attached = false then s.fail
    else
      let name :=
        segmentFilename s.config.naming sequence segment.startTimestampMs a.unixTimeMs.toNat
      match s.publish a name (.data bytes) with
      | none => s.fail
      | some s =>
        let entry : DashPublishedSegment := {
          sequence := sequence
          startTimestampMs := segment.startTimestampMs
          durationMs := segmentDurationMs segment sampleRate
          name := name }
        (({ s with
          published := s.published ++ [entry],
          finished := s.finished ++ [segment] }).trimPlaylist a).writeManifest a endList

/-- What `finish` does when it publishes no segment. -/
def finishWithout : DashSegmenter :=
  if endList then s.writeManifest a true else s

def finish : Panics DashSegmenter :=
  if s.failed then .ok s
  else
    match s.current with
    | none => .ok (s.finishWithout a endList)
    | some segment =>
      let s := { s with current := none }
      match s.videoConfig, s.audioConfig with
      | some _, some audio =>
        if segment.video = [] ∨ segment.audio = [] then .ok (s.finishWithout a endList)
        else do
          let bytes ← makeFragment audio segment (min s.nextSequence (2 ^ 32 - 1))
          .ok (s.publishFragment a endList segment audio.sampleRate bytes)
      | _, _ => .ok (s.finishWithout a endList)

variable (event : MediaEvent)

/-- The sample that `append_video` makes of an event. -/
def videoSample (keyframe : Bool) (data : Bytes) (compositionTimeMs : ℤ)
    (s : DashSegmenter) : DashVideoSample where
  timestampMs := event.timestampMs
  compositionTimeMs := compositionTimeMs
  keyframe := keyframe
  data := data
  position := s.seen
  lastKeyframe := s.lastKeyframe

def appendVideo (keyframe : Bool) (s : DashSegmenter) : Panics DashSegmenter := do
  let parsed ← parseVideoSample event.payload
  match parsed with
  | none => .ok s.fail
  | some (data, compositionTimeMs) =>
    let segment := s.current.getD {
      startTimestampMs := event.timestampMs
      lastTimestampMs := event.timestampMs
      video := []
      audio := [] }
    .ok { s with current := some { segment with
      lastTimestampMs := max segment.lastTimestampMs event.timestampMs
      video := segment.video ++ [s.videoSample event keyframe data compositionTimeMs] } }

variable (s : DashSegmenter)

def appendAudio : Panics DashSegmenter := do
  let parsed ← parseAudioSample event.payload
  match parsed with
  | none => .ok s.fail
  | some data =>
    match s.current with
    | none => .ok s
    | some segment =>
      .ok { s with current := some { segment with
        lastTimestampMs := max segment.lastTimestampMs event.timestampMs
        audio := segment.audio ++ [{ timestampMs := event.timestampMs, data := data }] } }

/-- `should_cut`. -/
def cuts (timestampMs : UInt32) (s : DashSegmenter) : Bool :=
  s.current.any fun segment =>
    shouldCut s.config.segmentDuration s.config.maxSegmentDuration segment.startTimestampMs
      timestampMs

/-- The branch of `accept` for an AVC header. -/
def acceptAvcHeader : Panics DashSegmenter := do
  let parsed ← DashAvcConfig.parse event.payload
  match parsed with
  | none => .ok s.fail
  | some config =>
    if s.videoConfig.any (fun current => decide (current ≠ config)) then .ok s.fail
    else ({ s with videoConfig := some config }).publishInitialization a

/-- The branch of `accept` for an AAC header. -/
def acceptAacHeader : Panics DashSegmenter := do
  let parsed ← DashAacConfig.parse event.payload
  match parsed with
  | none => .ok s.fail
  | some config =>
    if s.audioConfig.any (fun current => decide (current ≠ config)) then .ok s.fail
    else ({ s with audioConfig := some config }).publishInitialization a

/-- The branch of `accept` for a keyframe. -/
def acceptKeyframe : Panics DashSegmenter :=
  if s.videoConfig = none ∨ s.audioConfig = none then .ok s
  else if s.cuts event.timestampMs then do
    let s ← s.finish a false
    if s.failed then .ok s else s.appendVideo event true
  else s.appendVideo event true

/-- The branches of `accept`. -/
def acceptKind : Panics DashSegmenter :=
  match event.kind with
  | .metadata =>
    match event.metadata with
    | none => .ok s
    | some metadata => .ok { s with
        videoWidth := metadataSize metadata.videoWidth
        videoHeight := metadataSize metadata.videoHeight }
  | .avcSequenceHeader => s.acceptAvcHeader a event
  | .aacSequenceHeader => s.acceptAacHeader a event
  | .videoKeyframe => s.acceptKeyframe a event
  | .videoInterframe | .videoDisposable =>
    if s.videoConfig = none then .ok s else s.appendVideo event false
  | .audio => if s.audioConfig = none then .ok s else s.appendAudio event
  | .hevcSequenceHeader | .av1SequenceHeader => .ok s.fail

def observe : DashSegmenter :=
  { s with
    seen := s.seen + 1
    lastKeyframe := if event.kind = .videoKeyframe then some (s.seen + 1) else s.lastKeyframe }

def accept : Panics DashSegmenter :=
  if s.failed then .ok (s.observe event) else (s.observe event).acceptKind a event

end DashSegmenter

inductive DashCall where
  | accept (event : MediaEvent) (answers : DashAnswers)
  | finish (endList : Bool) (answers : DashAnswers)

namespace DashSegmenter

def step (s : DashSegmenter) : DashCall → Panics DashSegmenter
  | .accept event a => s.accept a event
  | .finish endList a => s.finish a endList

def run (s : DashSegmenter) (calls : List DashCall) : Panics DashSegmenter := calls.foldlM step s

end DashSegmenter

end Oxiroute.Rtmp
