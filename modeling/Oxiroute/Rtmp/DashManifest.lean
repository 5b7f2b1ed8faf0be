import Oxiroute.Http.Header
import Oxiroute.Lib.Table
import Oxiroute.Lib.Text

/-!
# DASH manifests

Model of `render_mpd` and `load_manifest` of `crates/oxiroute-rtmp/src/dash_segmenter.rs`: the
manifest that lists the published segments of a stream, and how a later segmenter reads its own
manifest back.

* The directory of the stream is a table of its files by name (`DashTree`). A manifest is its text.
* `loadManifest` searches the text for its `SegmentURL` tags, reads three attributes of each, and
  checks that the file of every segment can be read and that no sequence number occurs twice. The
  search takes the length of the text as its fuel: every round reads at least one tag.
-/

namespace Oxiroute.Rtmp

open Lib Http

inductive DashSegmentNaming where
  | sequential
  | timestamp
  | system
  deriving DecidableEq

/-- `PublishedSegment`, by the name of its file. -/
structure DashPublishedSegment where
  sequence : ℕ
  startTimestampMs : UInt32
  durationMs : ℕ
  name : List Char
  deriving DecidableEq

inductive DashFile where
  | data (bytes : Bytes)
  | manifest (text : List Char)
  deriving DecidableEq

def textSize (text : List Char) : ℕ := (text.map fun c => c.utf8Size).sum

def DashFile.size : DashFile → ℕ
  | .data bytes => bytes.length
  | .manifest text => textSize text

abbrev DashTree := Table (List Char) DashFile

/-- The variants of `MediaStoreError` that loading a manifest returns. -/
inductive DashLoadError where
  | invalidManifestFile
  | fileTooLarge
  | manifestMalformed
  deriving DecidableEq

def maxDashFilenameBytes : ℕ := 256

def manifestName : List Char := "manifest.mpd".toList

def initializationName : List Char := "init.mp4".toList

/-- `segment_filename`, with the clock as an argument. -/
def segmentFilename (naming : DashSegmentNaming) (sequence : ℕ) (timestampMs : UInt32)
    (unixTimeMs : ℕ) :
    List Char :=
  match naming with
  | .sequential => "seg-".toList ++ decimal sequence ++ ".m4s".toList
  | .timestamp =>
    "seg-".toList ++ decimal timestampMs.toNat ++ '-' :: decimal sequence ++ ".m4s".toList
  | .system => "seg-".toList ++ decimal unixTimeMs ++ '-' :: decimal sequence ++ ".m4s".toList

/-! ## Rendering -/

def hexByte (b : UInt8) : List Char := [Nat.digitChar (b.toNat / 16), Nat.digitChar (b.toNat % 16)]

/-- `AvcConfig::codec_string`, from the three bytes it reads. -/
def codecString (profile compatibility level : UInt8) : List Char :=
  "avc1.".toList ++ hexByte profile ++ hexByte compatibility ++ hexByte level

def isoDuration (milliseconds : ℕ) : List Char :=
  let seconds := milliseconds / 1000
  let remainder := milliseconds % 1000
  if remainder = 0 then "PT".toList ++ decimal seconds ++ ['S']
  else
    let digits := [remainder / 100, remainder / 10 % 10, remainder % 10].map Nat.digitChar
    let fraction := (digits.reverse.dropWhile (· = '0')).reverse
    "PT".toList ++ decimal seconds ++ '.' :: fraction ++ ['S']

/-- What `render_mpd` reads besides the segments. -/
structure ManifestHeader where
  profile : UInt8
  compatibility : UInt8
  level : UInt8
  sampleRate : ℕ
  channelConfiguration : UInt8
  audioObjectType : UInt8
  width : UInt16
  height : UInt16
  playlistLengthMs : ℕ
  endList : Bool
  deriving DecidableEq

/-- The duration that `render_mpd` gives for all segments together. -/
def totalDurationMs (segments : List DashPublishedSegment) : ℕ :=
  let stop := (segments.getLast?.map fun s => s.startTimestampMs.toNat + s.durationMs).getD 0
  let start := (segments.head?.map fun s => s.startTimestampMs.toNat).getD 0
  min stop (2 ^ 64 - 1) - start

/-- An attribute of a positive number; nothing for zero. -/
def sizeAttribute (name : List Char) (value : UInt16) : List Char :=
  if 0 < value then ' ' :: name ++ "=\"".toList ++ decimal value.toNat ++ ['"'] else []

def xmlLine : List Char :=
  "<?xml version=\"1.0\"".toList ++ " encoding=\"UTF-8\"?>\n".toList

/-- The start of the `MPD` tag. -/
def mpdStart : List Char :=
  "<MPD xmlns=\"".toList ++ "urn:mpeg:dash:schema:mpd:2011".toList ++ "\" type=\"".toList

/-- The fixed attributes of the `MPD` tag. -/
def mpdProfiles : List Char :=
  "\" profiles=\"".toList ++ "urn:mpeg:dash:profile:".toList ++ "isoff-live:2011".toList ++
    "\" minBufferTime=\"PT1S\"".toList ++ " mediaPresentation".toList ++ "Duration=\"".toList

/-- The start of the last attribute of the `MPD` tag. -/
def mpdDepth : List Char := "\" timeShiftBuffer".toList ++ "Depth=\"".toList

def tagEnd : List Char := "\">\n".toList

/-- The `Period` tag. -/
def periodTag : List Char := "<Period id=\"0\" ".toList ++ "start=\"PT0S\">\n".toList

/-- The start of the `AdaptationSet` tag. -/
def adaptationStart : List Char :=
  "<AdaptationSet id=\"0\"".toList ++ " contentType=\"video\"".toList ++
    " mimeType=\"video/mp4\"".toList ++ " codecs=\"".toList

/-- The start of the `Representation` tag. -/
def representationStart : List Char :=
  "<Representation id=\"".toList ++ "avc-aac\"".toList ++ " bandwidth=\"1000000\"".toList

/-- The `SegmentList` tag. -/
def segmentListTag : List Char :=
  "<SegmentList ".toList ++ "timescale=\"1000\" ".toList ++ "presentationTimeOffset".toList ++
    "=\"0\">".toList

/-- The `Initialization` tag. -/
def initializationTag : List Char :=
  "<Initialization ".toList ++ "sourceURL=\"init.mp4\"/>\n".toList

variable (h : ManifestHeader)

/-- The text of `render_mpd` in front of the segments. -/
def manifestHead (segments : List DashPublishedSegment) : List Char :=
  xmlLine ++
  (mpdStart ++ (if h.endList then "static".toList else "dynamic".toList) ++ mpdProfiles ++
    isoDuration (totalDurationMs segments) ++ mpdDepth ++ isoDuration h.playlistLengthMs ++
      tagEnd) ++
  periodTag ++
  (adaptationStart ++ codecString h.profile h.compatibility h.level ++
      ",mp4a.40.2".toList ++ tagEnd) ++
  (representationStart ++ sizeAttribute "width".toList h.width ++
    sizeAttribute "height".toList h.height ++ ">\n".toList) ++ segmentListTag ++ initializationTag

def tagStart : List Char := "<SegmentURL ".toList

def tagStop : List Char := "/>".toList

/-- The attributes of a segment, up to the end of its tag. -/
def segmentAttributes (s : DashPublishedSegment) : List Char :=
  tagStart ++ ("media=\"".toList ++ (s.name ++ ("\" ".toList ++
    ("t=\"".toList ++ (decimal s.startTimestampMs.toNat ++ ("\" ".toList ++
      ("d=\"".toList ++ (decimal s.durationMs ++ "\"".toList))))))))

def segmentTag (s : DashPublishedSegment) : List Char := segmentAttributes s ++ (tagStop ++ ['\n'])

/-- The end of the `SegmentList`. -/
def segmentListEnd : List Char := "</SegmentList>".toList

/-- The end of the `AdaptationSet`. -/
def adaptationEnd : List Char := "</Representation>".toList ++ "</AdaptationSet>\n".toList

/-- The comment on the audio of a manifest. -/
def audioComment : List Char :=
  "<!-- AAC sample rate ".toList ++ decimal h.sampleRate ++ " Hz, ".toList ++
    decimal h.channelConfiguration.toNat ++ " channels, ".toList ++ "object type ".toList ++
    decimal h.audioObjectType.toNat ++ " -->\n".toList

def mpdEnd : List Char := "</Period>".toList ++ "</MPD>\n".toList

/-- The text of `render_mpd` behind the segments. -/
def manifestTail : List Char :=
  segmentListEnd ++ adaptationEnd ++ audioComment h ++ mpdEnd

def renderMpd (segments : List DashPublishedSegment) : List Char :=
  manifestHead h segments ++ (segments.flatMap segmentTag ++ manifestTail h)

/-! ## Loading -/

def xmlAttribute (tag name : List Char) : Option (List Char) := do
  let (_, rest) ← breakOn (name ++ "=\"".toList) tag
  let (value, _) ← breakOn ['"'] (rest.drop (name.length + 2))
  some value

def sequenceFromFilename (value : List Char) : Option ℕ := do
  let stem ← stripSuffix ".m4s".toList value
  parseDecimal (2 ^ 64) (afterLast '-' stem)

def pathComponents (path : List Char) : List (List Char) :=
  (path.splitOn '/').filter fun component => component ≠ [] ∧ component ≠ ['.']

def fileExtension (name : List Char) : Option (List Char) :=
  if '.' ∈ name ∧ name ≠ "..".toList ∧ (afterLast '.' name).length + 1 < name.length then
    some (afterLast '.' name)
  else none

def validSegmentFilename (value : List Char) : Bool :=
  decide (textSize value ≤ maxDashFilenameBytes) && value.all (fun c => decide (c.toNat < 128)) &&
  (((pathComponents value).getLast?.bind fileExtension).any fun extension =>
    decide (extension.map Char.toLower = "m4s".toList)) && "seg-".toList.isPrefixOf value &&
  (pathComponents value).all (fun component => decide (component ≠ "..".toList)) &&
  (sequenceFromFilename value).isSome

def parseSegmentTag (tag : List Char) : Option DashPublishedSegment := do
  let media ← xmlAttribute tag "media".toList
  let duration ← (xmlAttribute tag ['d']).bind (parseDecimal (2 ^ 64))
  if duration = 0 then none
  else
    let start ← (xmlAttribute tag ['t']).bind (parseDecimal (2 ^ 32))
    if validSegmentFilename media = false then none
    else
      let sequence ← sequenceFromFilename media
      some {
        sequence := sequence
        startTimestampMs := UInt32.ofNat start
        durationMs := duration
        name := media }

/-- Whether `read_relative` reads a file. -/
def readable (maxFileBytes : ℕ) (tree : DashTree) (name : List Char) : Bool :=
  (tree.lookup name).any fun file => decide (file.size ≤ maxFileBytes)

/-- The loop of `load_manifest`, with fuel. -/
def loadSegments (maxFileBytes : ℕ) (tree : DashTree) :
    ℕ → List Char → List DashPublishedSegment → Except DashLoadError (List DashPublishedSegment)
  | 0, _, published => .ok published
  | fuel + 1, text, published =>
    match breakOn tagStart text with
    | none => .ok published
    | some (_, start) =>
      match breakOn tagStop start with
      | none => .error .manifestMalformed
      | some (tag, stop) =>
        match parseSegmentTag tag with
        | none => .error .manifestMalformed
        | some segment =>
          if readable maxFileBytes tree segment.name = false then .error .manifestMalformed
          else if published.any (fun other => other.sequence = segment.sequence) then
            .error .manifestMalformed
          else loadSegments maxFileBytes tree fuel (stop.drop 2) (published ++ [segment])

/-- The number after the largest sequence number, or zero if there is none. -/
def nextSequenceOf (published : List DashPublishedSegment) : ℕ :=
  match (published.map fun s => s.sequence).max? with
  | none => 0
  | some sequence => if sequence + 1 < 2 ^ 64 then sequence + 1 else 0

/-- Whether a text has the parts that `load_manifest` looks for first. -/
def isManifest (text : List Char) : Bool :=
  "<?xml".toList.isPrefixOf text && containsText "<MPD ".toList text &&
    containsText "<SegmentList ".toList text && containsText "</SegmentList>".toList text &&
    containsText "</MPD>".toList text

def loadManifest (maxFileBytes : ℕ) (tree : DashTree) :
    Except DashLoadError (List DashPublishedSegment × ℕ) :=
  match tree.lookup manifestName with
  | none => .ok ([], 0)
  | some (.data _) => .error .invalidManifestFile
  | some (.manifest text) =>
    if maxFileBytes < textSize text then .error .fileTooLarge
    else if isManifest text = false then .error .manifestMalformed
    else
      match loadSegments maxFileBytes tree text.length text [] with
      | .error e => .error e
      | .ok [] => .error .manifestMalformed
      | .ok published => .ok (published, nextSequenceOf published)

end Oxiroute.Rtmp
