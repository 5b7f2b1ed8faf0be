import Oxiroute.Lib.Table
import Oxiroute.Rtmp.MediaParser

/-!
# DASH boxes

Model of the ISO base media boxes that `crates/oxiroute-rtmp/src/dash_segmenter.rs` builds: the
initialization file of a stream (`makeInitialization`) and the fragment of a segment
(`makeFragment`).

A box starts with its length in four bytes and a descriptor with its length in one; a conversion
that does not fit panics. `appendBox` and `appendFullBox` of the source append to a buffer: here
`box` and `fullBox` are what they append.
-/

namespace Oxiroute.Rtmp

open Lib Http List

def signed24 (bytes : Bytes) : ℤ :=
  let value := ofBeBytes bytes
  if value &&& 0x800000 ≠ 0 then (value : ℤ) - 2 ^ 24 else value

/-- `AvcConfig` of the DASH segmenter. -/
structure DashAvcConfig where
  profile : UInt8
  compatibility : UInt8
  level : UInt8
  configurationRecord : Bytes
  deriving DecidableEq

/-- `AacConfig` of the DASH segmenter. -/
structure DashAacConfig where
  audioObjectType : UInt8
  sampleRate : UInt32
  channelConfiguration : UInt8
  audioSpecificConfig : Bytes
  deriving DecidableEq

/-- `DashVideoSample`. The last two fields are ghost data: the number of the event of the sample,
and that of the last keyframe up to it. -/
structure DashVideoSample where
  timestampMs : UInt32
  compositionTimeMs : ℤ
  keyframe : Bool
  data : Bytes
  position : ℕ
  lastKeyframe : Option ℕ
  deriving DecidableEq

structure DashAudioSample where
  timestampMs : UInt32
  data : Bytes
  deriving DecidableEq

structure DashSegmentBuilder where
  startTimestampMs : UInt32
  lastTimestampMs : UInt32
  video : List DashVideoSample
  audio : List DashAudioSample
  deriving DecidableEq

def videoTimescale : ℕ := 90000

def defaultVideoSampleDuration : ℕ := 3000

def aacSamplesPerFrame : ℕ := 1024

/-- A four-byte conversion that panics if the number does not fit. -/
def fourBytes (n : ℕ) : Panics Bytes := if n < 2 ^ 32 then .ok (beBytes 4 n) else .error .expect

/-- The four bytes of a signed number. -/
def signedBytes (n : ℤ) : Bytes := beBytes 4 (n % 2 ^ 32).toNat

def boxKind (kind : FourCc) : Bytes := [kind.a, kind.b, kind.c, kind.d]

/-- `append_box`. -/
def box (kind : FourCc) (payload : Bytes) : Panics Bytes := do
  let size ← fourBytes (payload.length + 8)
  .ok (size ++ boxKind kind ++ payload)

/-- `append_full_box`. -/
def fullBox (kind : FourCc) (versionFlags : ℕ) (payload : Bytes) : Panics Bytes :=
  box kind (beBytes 4 versionFlags ++ payload)

def descriptor (tag : UInt8) (payload : Bytes) : Panics Bytes :=
  if payload.length < 256 then .ok (tag :: UInt8.ofNat payload.length :: payload)
    else .error .expect

/-- A code from its four characters. -/
def fourCc (a b c d : Char) : FourCc :=
  ⟨UInt8.ofNat a.toNat, UInt8.ofNat b.toNat, UInt8.ofNat c.toNat, UInt8.ofNat d.toNat⟩

/-! ## The initialization file -/

def movieHeaderPayload : Bytes :=
  beBytes 4 0 ++ beBytes 4 0 ++ beBytes 4 1000 ++ beBytes 4 0 ++ beBytes 4 0x00010000 ++
    beBytes 2 0x0100 ++ replicate 10 0 ++ beBytes 4 0x00010000 ++ beBytes 4 0 ++ beBytes 4 0 ++
    beBytes 4 0 ++ beBytes 4 0x00010000 ++ beBytes 4 0 ++ beBytes 4 0 ++ beBytes 4 0x40000000 ++
    replicate 24 0 ++ beBytes 4 3

def trexPayload (trackId : ℕ) : Bytes :=
  beBytes 4 trackId ++ beBytes 4 1 ++ beBytes 4 0 ++ beBytes 4 0 ++ beBytes 4 0

def trackHeaderPayload (trackId volume : ℕ) (width height : UInt16) : Bytes :=
  beBytes 4 0 ++ beBytes 4 0 ++ beBytes 4 trackId ++ beBytes 4 0 ++ beBytes 4 0 ++
    replicate 8 0 ++ beBytes 2 0 ++ beBytes 2 0 ++ beBytes 2 volume ++ beBytes 2 0 ++
    beBytes 4 0x00010000 ++ beBytes 4 0 ++ beBytes 4 0 ++ beBytes 4 0 ++ beBytes 4 0x00010000 ++
    beBytes 4 0 ++ beBytes 4 0 ++ beBytes 4 0x40000000 ++ replicate 24 0 ++
    beBytes 4 (width.toNat * 2 ^ 16) ++ beBytes 4 (height.toNat * 2 ^ 16)

def mediaHeaderPayload (timescale : ℕ) : Bytes :=
  beBytes 4 0 ++ beBytes 4 0 ++ beBytes 4 timescale ++ beBytes 4 0 ++ beBytes 2 0x55c4 ++
    beBytes 2 0

def handlerPayload (handler : FourCc) (name : String) : Bytes :=
  beBytes 4 0 ++ boxKind handler ++ replicate 12 0 ++
    (name.toList.map fun c => UInt8.ofNat c.toNat) ++ [0]

def dataInformation : Panics Bytes := do
  let url ← fullBox (fourCc 'u' 'r' 'l' ' ') 1 []
  fullBox (fourCc 'd' 'r' 'e' 'f') 0 (beBytes 4 1 ++ url)

/-- The tables behind the sample descriptions, which are empty. -/
def emptySampleTables : Panics Bytes := do
  let stts ← fullBox (fourCc 's' 't' 't' 's') 0 (beBytes 4 0)
  let stsc ← fullBox (fourCc 's' 't' 's' 'c') 0 (beBytes 4 0)
  let stsz ← fullBox (fourCc 's' 't' 's' 'z') 0 (replicate 8 0)
  let stco ← fullBox (fourCc 's' 't' 'c' 'o') 0 (beBytes 4 0)
  .ok (stts ++ stsc ++ stsz ++ stco)

/-- The fields of an `avc1` box in front of its configuration. -/
def avc1Fields (width height : UInt16) : Bytes :=
  replicate 6 0 ++ beBytes 2 1 ++ beBytes 2 0 ++ beBytes 2 0 ++ replicate 12 0 ++
    beBytes 2 width.toNat ++ beBytes 2 height.toNat ++ beBytes 4 0x00480000 ++
      beBytes 4 0x00480000 ++
    beBytes 4 0 ++ beBytes 2 1 ++ replicate 32 0 ++ beBytes 2 0x0018 ++ beBytes 2 0xffff

def videoSampleTable (config : DashAvcConfig) (width height : UInt16) : Panics Bytes := do
  let avcC ← box (fourCc 'a' 'v' 'c' 'C') config.configurationRecord
  let avc1 ← box (fourCc 'a' 'v' 'c' '1') (avc1Fields width height ++ avcC)
  let stsd ← fullBox (fourCc 's' 't' 's' 'd') 0 (beBytes 4 1 ++ avc1)
  let tables ← emptySampleTables
  .ok (stsd ++ tables)

variable (config : DashAacConfig)

/-- The fields of an `mp4a` box in front of its descriptors. -/
def mp4aFields : Bytes :=
  replicate 6 0 ++ beBytes 2 1 ++ replicate 8 0 ++
    beBytes 2 config.channelConfiguration.toNat ++ beBytes 2 16 ++ beBytes 2 0 ++ beBytes 2 0 ++
    beBytes 4 (config.sampleRate.toNat * 2 ^ 16 % 2 ^ 32)

/-- The elementary stream descriptor of `audio_sample_table`. -/
def esDescriptor : Panics Bytes := do
  let decoderConfig ← descriptor 0x05 config.audioSpecificConfig
  let decoder ← descriptor 0x04
    ([0x40, 0x15] ++ replicate 3 0 ++ replicate 4 0 ++ replicate 4 0 ++ decoderConfig)
  let layer ← descriptor 0x06 [2]
  .ok (beBytes 2 1 ++ [0] ++ decoder ++ layer)

def audioSampleTable : Panics Bytes := do
  let es ← esDescriptor config
  let esds ← fullBox (fourCc 'e' 's' 'd' 's') 0 es
  let mp4a ← box (fourCc 'm' 'p' '4' 'a') (mp4aFields config ++ esds)
  let stsd ← fullBox (fourCc 's' 't' 's' 'd') 0 (beBytes 4 1 ++ mp4a)
  let tables ← emptySampleTables
  .ok (stsd ++ tables)

/-- What `video_track` and `audio_track` build from the parts in which they differ. -/
def track (trackHeader : Bytes) (timescale : ℕ) (handler : FourCc) (handlerName : String)
    (mediaHeaderKind : FourCc) (mediaHeaderFlags : ℕ) (mediaHeader : Bytes)
    (sampleTable : Panics Bytes) : Panics Bytes := do
  let tkhd ← fullBox (fourCc 't' 'k' 'h' 'd') 0x00000007 trackHeader
  let mdhd ← fullBox (fourCc 'm' 'd' 'h' 'd') 0 (mediaHeaderPayload timescale)
  let hdlr ← fullBox (fourCc 'h' 'd' 'l' 'r') 0 (handlerPayload handler handlerName)
  let header ← fullBox mediaHeaderKind mediaHeaderFlags mediaHeader
  let information ← dataInformation
  let dinf ← box (fourCc 'd' 'i' 'n' 'f') information
  let table ← sampleTable
  let stbl ← box (fourCc 's' 't' 'b' 'l') table
  let minf ← box (fourCc 'm' 'i' 'n' 'f') (header ++ dinf ++ stbl)
  let mdia ← box (fourCc 'm' 'd' 'i' 'a') (mdhd ++ hdlr ++ minf)
  .ok (tkhd ++ mdia)

def videoTrack (config : DashAvcConfig) (width height : UInt16) : Panics Bytes :=
  track (trackHeaderPayload 1 0 width height) videoTimescale (fourCc 'v' 'i' 'd' 'e') "VideoHandler"
    (fourCc 'v' 'm' 'h' 'd') 1 (replicate 8 0) (videoSampleTable config width height)

def audioTrack : Panics Bytes :=
  track (trackHeaderPayload 2 0x0100 0 0) config.sampleRate.toNat (fourCc 's' 'o' 'u' 'n')
    "SoundHandler" (fourCc 's' 'm' 'h' 'd') 0 (replicate 4 0) (audioSampleTable config)

def makeInitialization (video : DashAvcConfig) (audio : DashAacConfig) (width height : UInt16) :
    Panics Bytes := do
  let ftyp ← box (fourCc 'f' 't' 'y' 'p')
    (boxKind (fourCc 'i' 's' 'o' '6') ++ beBytes 4 1 ++ boxKind (fourCc 'i' 's' 'o' '6') ++
      boxKind (fourCc 'd' 'a' 's' 'h') ++ boxKind (fourCc 'm' 'p' '4' '1'))
  let mvhd ← fullBox (fourCc 'm' 'v' 'h' 'd') 0 movieHeaderPayload
  let videoPayload ← videoTrack video width height
  let videoTrak ← box (fourCc 't' 'r' 'a' 'k') videoPayload
  let audioPayload ← audioTrack audio
  let audioTrak ← box (fourCc 't' 'r' 'a' 'k') audioPayload
  let videoTrex ← fullBox (fourCc 't' 'r' 'e' 'x') 0 (trexPayload 1)
  let audioTrex ← fullBox (fourCc 't' 'r' 'e' 'x') 0 (trexPayload 2)
  let mvex ← box (fourCc 'm' 'v' 'e' 'x') (videoTrex ++ audioTrex)
  let moov ← box (fourCc 'm' 'o' 'o' 'v') (mvhd ++ videoTrak ++ audioTrak ++ mvex)
  .ok (ftyp ++ moov)

/-! ## Fragments -/

/-- `video_sample_duration`, of a sample and the one after it. -/
def videoSampleDuration (sample : DashVideoSample) (next : Option DashVideoSample) : ℕ :=
  match next with
  | none => defaultVideoSampleDuration
  | some next =>
    max 1 (min ((next.timestampMs.toNat - sample.timestampMs.toNat) * videoTimescale / 1000)
      (2 ^ 32 - 1))

/-- The composition time of a sample in the time scale of the track. -/
def compositionOffset (sample : DashVideoSample) : ℤ :=
  let offset := Int.tdiv (sample.compositionTimeMs * videoTimescale) 1000
  if offset < -2 ^ 31 then -2 ^ 31 else if 2 ^ 31 - 1 < offset then 2 ^ 31 - 1 else offset

/-- The entries of the video samples in their `trun` box. -/
def videoEntries : List DashVideoSample → Panics Bytes
  | [] => .ok []
  | sample :: samples => do
    let size ← fourBytes sample.data.length
    let rest ← videoEntries samples
    .ok (beBytes 4 (videoSampleDuration sample samples.head?) ++ size ++
      beBytes 4 (if sample.keyframe then 0x02000000 else 0x01010000) ++
      signedBytes (compositionOffset sample) ++ rest)

/-- The entries of the audio samples in their `trun` box. -/
def audioEntries : List DashAudioSample → Panics Bytes
  | [] => .ok []
  | sample :: samples => do
    let size ← fourBytes sample.data.length
    let rest ← audioEntries samples
    .ok (beBytes 4 aacSamplesPerFrame ++ size ++ rest)

/-- What `video_traf` and `audio_traf` build from the parts in which they differ. -/
def traf (trackId baseDecodeTime count : ℕ) (dataOffset : ℤ) (entries : Panics Bytes)
    (trunFlags : ℕ) : Panics Bytes := do
  let tfhd ← fullBox (fourCc 't' 'f' 'h' 'd') 0x00020000 (beBytes 4 trackId)
  let tfdt ← fullBox (fourCc 't' 'f' 'd' 't') 0x01000000 (beBytes 8 baseDecodeTime)
  let countBytes ← fourBytes count
  let samples ← entries
  let trun ← fullBox (fourCc 't' 'r' 'u' 'n')
    trunFlags (countBytes ++ signedBytes dataOffset ++ samples)
  .ok (tfhd ++ tfdt ++ trun)

variable (segment : DashSegmentBuilder)

def videoTraf (dataOffset : ℤ) : Panics Bytes :=
  traf 1 ((segment.video.head?.map fun sample => sample.timestampMs.toNat * 90).getD 0)
    segment.video.length dataOffset (videoEntries segment.video) 0x01000f01

def audioTraf (audio : DashAacConfig) (dataOffset : ℤ) : Panics Bytes :=
  traf 2 ((segment.audio.head?.map fun sample =>
      min (sample.timestampMs.toNat * audio.sampleRate.toNat) (2 ^ 64 - 1) / 1000).getD 0)
    segment.audio.length dataOffset (audioEntries segment.audio) 0x00000301

def buildMoof (sequence : ℕ) (audio : DashAacConfig) (segment : DashSegmentBuilder)
    (videoOffset audioOffset : ℤ) : Panics Bytes := do
  let mfhd ← fullBox (fourCc 'm' 'f' 'h' 'd') 0 (beBytes 4 sequence)
  let videoPayload ← videoTraf segment videoOffset
  let video ← box (fourCc 't' 'r' 'a' 'f') videoPayload
  let audioPayload ← audioTraf segment audio audioOffset
  let audio ← box (fourCc 't' 'r' 'a' 'f') audioPayload
  box (fourCc 'm' 'o' 'o' 'f') (mfhd ++ video ++ audio)

/-- A length as an `i32`, at most its maximum. -/
def clampOffset (n : ℕ) : ℤ := min n (2 ^ 31 - 1)

/-- The bytes of the samples, as `make_fragment` puts them into the `mdat` box. -/
def DashSegmentBuilder.mediaData : Bytes :=
  segment.video.flatMap (fun sample => sample.data) ++ segment.audio.flatMap fun sample =>
    sample.data

def makeFragment (audio : DashAacConfig) (segment : DashSegmentBuilder) (sequence : ℕ) :
    Panics Bytes := do
  let videoBytes := (segment.video.map fun sample => sample.data.length).sum
  let emptyVideo ← buildMoof sequence audio segment 0 0
  let videoOffset := clampOffset (emptyVideo.length + 8)
  let audioOffset := min (videoOffset + clampOffset videoBytes) (2 ^ 31 - 1)
  let moof ← buildMoof sequence audio segment videoOffset audioOffset
  let mdat ← box (fourCc 'm' 'd' 'a' 't') segment.mediaData
  .ok (moof ++ mdat)

/-! ## Parsing -/

def maxCodecParameterSets : ℕ := 4

def maxCodecParameterSetBytes : ℕ := 64 * 1024

/-- Whether a parameter set is one of its kind, within its bound. -/
def isParameterSet (kind : UInt8) (parameterSet : Bytes) : Bool :=
  match parameterSet with
  | [] => false
  | first :: _ =>
      decide (parameterSet.length ≤ maxCodecParameterSetBytes) && (first &&& 0x1f) == kind

/-- The checks of `parse_avc_config`. -/
def DashAvcConfig.ofParsed (parsed : AvcConfiguration) : Option DashAvcConfig :=
  if parsed.nalLengthSize ≠ 4 ∨ parsed.sps = [] ∨ maxCodecParameterSets < parsed.sps.length ∨
      parsed.pps = [] ∨ maxCodecParameterSets < parsed.pps.length ∨ parsed.trailing ≠ [] then none
  else if (parsed.sps.all (isParameterSet 7) && parsed.pps.all (isParameterSet 8)) = false then none
  else
    some {
      profile := parsed.profile
      compatibility := parsed.compatibility
      level := parsed.level
      configurationRecord := parsed.configurationRecord }

/-- `parse_avc_config`. -/
def DashAvcConfig.parse (payload : Bytes) : Panics (Option DashAvcConfig) := do
  let parsed ← parseAvcConfiguration payload
  .ok (parsed.bind DashAvcConfig.ofParsed)

def aacSampleRates : List UInt32 :=
  [96000, 88200, 64000, 48000, 44100, 32000, 24000, 22050, 16000, 12000, 11025, 8000, 7350]

/-- The checks of `parse_aac_config`. -/
def DashAacConfig.ofParsed (parsed : AacConfiguration) : Option DashAacConfig :=
  match aacSampleRates[parsed.sampleRateIndex.toNat]? with
  | none => none
  | some sampleRate =>
    if parsed.audioObjectType ≠ 2 ∨ parsed.channelConfiguration = 0 ∨
      6 < parsed.channelConfiguration then
      none
    else
      some {
        audioObjectType := parsed.audioObjectType
        sampleRate := sampleRate
        channelConfiguration := parsed.channelConfiguration
        audioSpecificConfig := parsed.audioSpecificConfig ++ parsed.trailing }

/-- `parse_aac_config`. -/
def DashAacConfig.parse (payload : Bytes) : Panics (Option DashAacConfig) := do
  let parsed ← parseAacConfiguration payload
  .ok (parsed.bind DashAacConfig.ofParsed)

/-- The loop of `parse_video_sample`, with fuel: the length-prefixed units from a cursor on. -/
def videoUnits (payload : Bytes) : ℕ → ℕ → Panics (Option Bytes)
  | 0, _ => .ok none
  | fuel + 1, cursor =>
    if payload.length ≤ cursor then .ok (some [])
    else
      match checkedAddSize cursor 4 with
      | none => .ok none
      | some start =>
        match getRange payload cursor start with
        | none => .ok none
        | some lengthBytes =>
          if ofBeBytes lengthBytes = 0 then .ok none
          else
            match checkedAddSize start (ofBeBytes lengthBytes) with
            | none => .ok none
            | some stop =>
              if getRange payload start stop = none then .ok none
              else do
                let unitStart ← subSize start 4
                let unit ← range payload unitStart stop
                let rest ← videoUnits payload fuel stop
                .ok (rest.map fun rest => unit ++ rest)

def parseVideoSample (payload : Bytes) : Panics (Option (Bytes × ℤ)) :=
  if payload.length < 9 then .ok none
  else do
    let videoHeader ← index payload 0
    let packetType ← index payload 1
    if videoHeader &&& 0x0f ≠ 7 ∨ packetType ≠ 1 then .ok none
    else do
      let composition ← range payload 2 5
      let units ← videoUnits payload payload.length 5
      .ok ((units.filter fun data => decide (data ≠ [])).map fun data =>
        (data, signed24 composition))

def parseAudioSample (payload : Bytes) : Panics (Option Bytes) :=
  if payload.length ≤ 2 then .ok none
  else do
    let soundHeader ← index payload 0
    let packetType ← index payload 1
    if soundHeader >>> 4 ≠ 10 ∨ packetType ≠ 1 then .ok none
    else do
      let data ← range payload 2 payload.length
      .ok ((some data).filter fun data => decide (data ≠ []))

end Oxiroute.Rtmp
