import Oxiroute.Rtmp.Event
import Oxiroute.Lib.Machine
import Oxiroute.Lib.Panic

/-!
# FLV files: the muxer and its readers

Models of three pieces of code that must agree on the bytes of an FLV file.

* `FlvMuxer` of `crates/oxiroute-rtmp/src/flv.rs` writes the audio, video and metadata payloads of a
  recording as tags. Sequence headers wait in a cache until media starts. Timestamps count from the
  first one. `close` patches the flags of the file header. The checks of a write come first and
  change nothing; what follows them may panic, so a write is a `Panics` inside an `Except`.
* `parseFlvEvents` of `crates/oxiroute-rtmp/src/vod.rs` reads the media events of a file.
* `inspectTail` of `crates/oxiroute-rtmp/src/recording_store/flv.rs` finds the flags and the last
  timestamp, for `FlvMuxer::resume`.

The writer is the bytes written so far, and writing does not fail. As ghost data a muxer keeps a
`log` of the tags in the file, and how many there were when it was opened.

The muxer classifies video payloads on its own; `classifyVideo_agrees_iff` compares it with the kind
of the event.
-/

namespace Oxiroute.Rtmp

open Lib Http MediaEvent

inductive FlvTagType where
  | audio
  | video
  | metadata
  deriving DecidableEq

def FlvTagType.code : FlvTagType → UInt8
  | .audio => 8
  | .video => 9
  | .metadata => 18

/-- The bit a tag sets in the flags of the file header. -/
def FlvTagType.flag : FlvTagType → UInt8
  | .audio => 0b100
  | .video => 0b001
  | .metadata => 0

/-- `FlvMuxerError`, without the errors of the writer. -/
inductive FlvMuxerError where
  | malformedPayload (tagType : FlvTagType)
  | payloadTooLarge (tagType : FlvTagType) (size : ℕ)
  | codecHeaderTooLarge (tagType : FlvTagType) (size : ℕ)
  deriving DecidableEq

def maxCachedCodecHeaderSize : ℕ := 64 * 1024

/-- `CachedCodecHeader`. The arrival time is ghost data. -/
structure CachedCodecHeader where
  tagType : FlvTagType
  payload : Bytes
  arrivedMs : UInt32
  deriving DecidableEq

/-- A tag of the file, with the timestamp its payload arrived with and whether it is a header that
was cached until media started. -/
structure WrittenTag where
  tagType : FlvTagType
  payload : Bytes
  stampMs : UInt32
  arrivedMs : UInt32
  replayed : Bool
  deriving DecidableEq

/-- `FlvMuxer`. The last two fields are ghost data: the tags of the file, and how many of them there
were when the muxer was opened. -/
structure FlvMuxer where
  writer : Bytes
  headerStart : ℕ
  flags : UInt8
  timestampBaseMs : UInt32
  firstMediaTimestampMs : Option UInt32
  cachedCodecHeaders : List CachedCodecHeader
  aacSequenceHeaderSeen : Bool
  videoSequenceHeaderSeen : Bool
  waitingForVideoKeyframe : Bool
  log : List WrittenTag
  opened : ℕ
  deriving DecidableEq

/-! ## Payloads -/

inductive AudioPacketKind where
  | aacSequenceHeader
  | aacRaw
  | media
  deriving DecidableEq

inductive VideoPacketKind where
  | sequenceHeader
  | keyframe
  | other
  | media
  deriving DecidableEq

namespace FlvMuxer

variable (payload : Bytes)

def classifyAudio : Except FlvMuxerError AudioPacketKind :=
  match payload with
  | [] => .error (.malformedPayload .audio)
  | soundHeader :: rest =>
    if soundHeader >>> 4 ≠ 10 then .ok .media
    else
      match rest.head? with
      | some 0 => if payload.length > 2 then .ok .aacSequenceHeader
          else .error (.malformedPayload .audio)
      | some 1 => .ok .aacRaw
      | _ => .error (.malformedPayload .audio)

def classifyEnhancedVideo (videoHeader : UInt8) : Except FlvMuxerError VideoPacketKind :=
  if payload.length ≤ 5 ∨ (fourCcOf payload).codec = none then .error (.malformedPayload .video)
  else
    let frameType := (videoHeader >>> 4) &&& 0x07
    if frameType < 1 ∨ 5 < frameType then .error (.malformedPayload .video)
    else
      match videoHeader &&& 0x0f with
      | 0 => if frameType = 1 then .ok .sequenceHeader else .error (.malformedPayload .video)
      | 1 | 3 => if frameType = 1 then .ok .keyframe else .ok .other
      | _ => .error (.malformedPayload .video)

def classifyVideo : Except FlvMuxerError VideoPacketKind :=
  match payload with
  | [] => .error (.malformedPayload .video)
  | videoHeader :: _ =>
    if videoHeader &&& 0x80 ≠ 0 then classifyEnhancedVideo payload videoHeader
    else
      let frameType := videoHeader >>> 4
      let codecId := videoHeader &&& 0x0f
      if (frameType < 1 ∨ 5 < frameType) ∨ (codecId < 1 ∨ 7 < codecId) then
        .error (.malformedPayload .video)
      else if codecId ≠ 7 then .ok .media
      else if payload.length < 5 then .error (.malformedPayload .video)
      else
        match (payload[1]? : Option UInt8) with
        | some 0 => if payload.length > 5 then .ok .sequenceHeader
            else .error (.malformedPayload .video)
        | some 1 =>
          if payload.length > 5 ∧ frameType = 1 then .ok .keyframe
          else if payload.length > 5 then .ok .other
          else .error (.malformedPayload .video)
        | some 2 => .ok .other
        | _ => .error (.malformedPayload .video)

variable (tagType : FlvTagType)

def validateSize (payload : Bytes) : Except FlvMuxerError Unit :=
  if payload.length > maxFlvTagDataSize then .error (.payloadTooLarge tagType payload.length)
  else .ok ()

def validateCodecHeaderSize (payload : Bytes) : Except FlvMuxerError Unit :=
  if payload.length > maxCachedCodecHeaderSize then
    .error (.codecHeaderTooLarge tagType payload.length)
  else .ok ()

def tagSize : ℕ := payload.length + (11 + 4)

def relativeTimestamp (firstTimestampMs timestampMs : UInt32) : UInt32 :=
  let elapsed := timestampMs - firstTimestampMs
  if elapsed < 2147483648 then elapsed else 0

/-! ## Writing -/

def flvHeader : Bytes := [0x46, 0x4c, 0x56, 1, 0, 0, 0, 0, 9, 0, 0, 0, 0]

def new (writer : Bytes) : FlvMuxer where
  writer := writer ++ flvHeader
  headerStart := writer.length
  flags := 0
  timestampBaseMs := 0
  firstMediaTimestampMs := none
  cachedCodecHeaders := []
  aacSequenceHeaderSeen := false
  videoSequenceHeaderSeen := false
  waitingForVideoKeyframe := false
  log := []
  opened := 0

/-- `FlvMuxer::resume`; the log is the one of the file. -/
def resume (writer : Bytes) (flags : UInt8) (lastTimestampMs : UInt32) (log : List WrittenTag) :
    FlvMuxer where
  writer := writer
  headerStart := 0
  flags := flags
  timestampBaseMs := lastTimestampMs
  firstMediaTimestampMs := none
  cachedCodecHeaders := []
  aacSequenceHeaderSeen := false
  videoSequenceHeaderSeen := false
  waitingForVideoKeyframe := false
  log := log
  opened := log.length

variable (timestampMs : UInt32)

/-- `cache_codec_header`: a header of the same type makes way. -/
def cacheCodecHeader (payload : Bytes) (m : FlvMuxer) : FlvMuxer :=
  { m with
    cachedCodecHeaders :=
      (m.cachedCodecHeaders.eraseP fun header => decide (header.tagType = tagType)) ++
        [⟨tagType, payload, timestampMs⟩] }

variable (m : FlvMuxer)

def cachedCodecHeaderSize : ℕ :=
  (m.cachedCodecHeaders.map fun header => tagSize header.payload).sum

/-- The bytes `write_tag` writes for a payload that is `dataSize` long. -/
def tagBytes (payload : Bytes) (dataSize : ℕ) : Bytes :=
  [tagType.code] ++ beBytes 3 dataSize ++ beBytes 3 timestampMs.toNat ++
    beBytes 1 (timestampMs.toNat / 2 ^ 24) ++ [0, 0, 0] ++ payload ++ beBytes 4 (11 + dataSize)

def writeTag (payload : Bytes) (arrivedMs : UInt32)
    (replayed : Bool) (m : FlvMuxer) : Panics FlvMuxer := do
  let dataSize ← expect (if payload.length < 2 ^ 32 then some payload.length else none)
  if 11 + dataSize < 2 ^ 32 then
    return { m with
      writer := m.writer ++ tagBytes tagType timestampMs payload dataSize
      flags := m.flags ||| tagType.flag
      log := m.log ++ [⟨tagType, payload, timestampMs, arrivedMs, replayed⟩] }
  else throw .overflow

def writeNormalizedTag (payload : Bytes) (m : FlvMuxer) : Panics FlvMuxer := do
  let firstTimestamp ← expect m.firstMediaTimestampMs
  m.writeTag tagType
    (saturatingAdd32 m.timestampBaseMs (relativeTimestamp firstTimestamp timestampMs)) payload
    timestampMs false

def startIfNeeded : Panics FlvMuxer :=
  if m.firstMediaTimestampMs.isSome then .ok m
  else
    m.cachedCodecHeaders.foldlM (fun m header =>
        m.writeTag header.tagType m.timestampBaseMs header.payload header.arrivedMs true)
      { m with firstMediaTimestampMs := some timestampMs, cachedCodecHeaders := [] }

def writeAudio (payload : Bytes) (m : FlvMuxer) : Except FlvMuxerError (Panics FlvMuxer) := do
  validateSize .audio payload
  match ← classifyAudio payload with
  | .aacSequenceHeader =>
    validateCodecHeaderSize .audio payload
    let m := { m with aacSequenceHeaderSeen := true }
    if m.firstMediaTimestampMs.isNone then
      return .ok (m.cacheCodecHeader .audio timestampMs payload)
    else return m.writeNormalizedTag .audio timestampMs payload
  | kind =>
    if kind = .aacRaw ∧ !m.aacSequenceHeaderSeen then return .ok m
    else if m.waitingForVideoKeyframe then return .ok m
    else return m.startIfNeeded timestampMs >>= writeNormalizedTag .audio timestampMs payload

def writeVideo (payload : Bytes) (m : FlvMuxer) : Except FlvMuxerError (Panics FlvMuxer) := do
  validateSize .video payload
  match ← classifyVideo payload with
  | .sequenceHeader =>
    validateCodecHeaderSize .video payload
    let m := { m with videoSequenceHeaderSeen := true, waitingForVideoKeyframe := true }
    if m.firstMediaTimestampMs.isNone then
      return .ok (m.cacheCodecHeader .video timestampMs payload)
    else return m.writeNormalizedTag .video timestampMs payload
  | .keyframe =>
    if !m.videoSequenceHeaderSeen then return .ok m
    else
      let m := { m with waitingForVideoKeyframe := false }
      return m.startIfNeeded timestampMs >>= writeNormalizedTag .video timestampMs payload
  | .other =>
    if !m.videoSequenceHeaderSeen || m.waitingForVideoKeyframe then return .ok m
    else return m.writeNormalizedTag .video timestampMs payload
  | .media =>
    if m.waitingForVideoKeyframe then return .ok m
    else return m.startIfNeeded timestampMs >>= writeNormalizedTag .video timestampMs payload

def writeMetadata : Except FlvMuxerError (Panics FlvMuxer) := do
  validateSize .metadata payload
  return m.writeTag .metadata m.timestampBaseMs payload m.timestampBaseMs false

def close : Bytes := m.writer.set (m.headerStart + 4) m.flags

def projectedAudioSize : Except FlvMuxerError ℕ := do
  validateSize .audio payload
  match ← classifyAudio payload with
  | .aacSequenceHeader =>
    return if m.firstMediaTimestampMs.isNone then 0 else tagSize payload
  | kind =>
    return if kind = .aacRaw ∧ !m.aacSequenceHeaderSeen then 0
      else if m.waitingForVideoKeyframe then 0
      else if m.firstMediaTimestampMs.isNone then m.cachedCodecHeaderSize + tagSize payload
      else tagSize payload

def projectedVideoSize : Except FlvMuxerError ℕ := do
  validateSize .video payload
  let kind ← classifyVideo payload
  return if kind = .sequenceHeader ∧ m.firstMediaTimestampMs.isNone then 0
    else if kind = .keyframe ∧ !m.videoSequenceHeaderSeen then 0
    else if kind = .other ∧ (!m.videoSequenceHeaderSeen || m.waitingForVideoKeyframe) then 0
    else if kind = .media ∧ m.waitingForVideoKeyframe then 0
    else if kind ≠ .sequenceHeader ∧ m.firstMediaTimestampMs.isNone then
      m.cachedCodecHeaderSize + tagSize payload
    else tagSize payload

def projectedMetadataSize : Except FlvMuxerError ℕ := do
  validateSize .metadata payload
  return tagSize payload

/-- `write_to_muxer` of the recorder: the write of a media event. -/
def write (event : MediaEvent) (m : FlvMuxer) : Except FlvMuxerError (Panics FlvMuxer) :=
  match event.kind with
  | .aacSequenceHeader | .audio => m.writeAudio event.timestampMs event.payload
  | .metadata => m.writeMetadata event.payload
  | _ => m.writeVideo event.timestampMs event.payload

/-- `projected_bytes` of the recorder. -/
def projectedBytes (event : MediaEvent) (m : FlvMuxer) : Except FlvMuxerError ℕ :=
  match event.kind with
  | .aacSequenceHeader | .audio => m.projectedAudioSize event.payload
  | .metadata => projectedMetadataSize event.payload
  | _ => m.projectedVideoSize event.payload

def hasMedia : Bool := m.firstMediaTimestampMs.isSome

end FlvMuxer

/-! ## Reading -/

/-- The variants of `VodError` that the parser returns. -/
inductive VodError where
  | invalidFlv
  | invalidMedia
  | tooLarge
  deriving DecidableEq

def maxVodEvents : ℕ := 4 * 1024 * 1024

/-- The loop of `parse_flv_events` over the bytes that are left. Every round takes at least fifteen
of them, so that their number is fuel enough. -/
def parseFlvTags (maximumMs : ℕ) : ℕ → Bytes → List MediaEvent → Except VodError (List MediaEvent)
  | 0, _, events => .ok events
  | fuel + 1, rest, events =>
    if rest.isEmpty then .ok events
    else if rest.length < 11 then .error .invalidFlv
    else
      let tagType : UInt8 := rest.getD 0 0
      let dataSize := ofBeBytes ((rest.drop 1).take 3)
      let timestamp := ofBeBytes ((rest.drop 7).take 1 ++ (rest.drop 4).take 3)
      if rest.length < 11 + dataSize + 4 then .error .invalidFlv
      else if ofBeBytes ((rest.drop (11 + dataSize)).take 4) ≠ dataSize + 11 then
        .error .invalidFlv
      else
        let payload := (rest.drop 11).take dataSize
        let next := rest.drop (11 + dataSize + 4)
        if timestamp ≤ maximumMs then
          match (if tagType = 8 then some (audio (UInt32.ofNat timestamp) payload)
            else if tagType = 9 then some (video (UInt32.ofNat timestamp) payload)
            else none) with
          | none => parseFlvTags maximumMs fuel next events
          | some (.error _) => .error .invalidMedia
          | some (.ok event) =>
            if maxVodEvents < events.length + 1 then .error .tooLarge
            else parseFlvTags maximumMs fuel next (events ++ [event])
        else parseFlvTags maximumMs fuel next events

def parseFlvEvents (bytes : Bytes) (maximumDuration : Duration) :
    Except VodError (List MediaEvent) :=
  if bytes.length < 13 ∨ bytes.take 3 ≠ [0x46, 0x4c, 0x56] ∨ bytes.getD 3 0 ≠ 1 then
    .error .invalidFlv
  else
    let offset := ofBeBytes ((bytes.drop 5).take 4)
    if offset < 9 ∨ bytes.length < offset + 4 then .error .invalidFlv
    else
      parseFlvTags (min (maximumDuration.nanos / 10 ^ 6) (2 ^ 32 - 1)) bytes.length
        (bytes.drop (offset + 4)) []

/-- `inspect_tail`, of a file whose length is that of its bytes: the flags and the last timestamp,
or `ResumeInvalid`. -/
def inspectTail (file : Bytes) : Option (UInt8 × UInt32) :=
  if file.length < 28 then none
  else if file.take 4 ≠ [0x46, 0x4c, 0x56, 1] ∨ (file.drop 5).take 4 ≠ [0, 0, 0, 9] then none
  else
    let tagSize := ofBeBytes (file.drop (file.length - 4))
    if file.length - 4 < tagSize then none
    else
      let tagStart := file.length - 4 - tagSize
      if tagStart < 13 then none
      else
        let tagHeader := (file.drop tagStart).take 11
        if tagHeader.length < 11 then none
        else if tagSize ≠ ofBeBytes ((tagHeader.drop 1).take 3) + 11 then none
        else
          some (file.getD 4 0,
            UInt32.ofNat (ofBeBytes ((tagHeader.drop 7).take 1 ++ (tagHeader.drop 4).take 3)))

/-! ## Runs -/

/-- What happens to a recording. -/
inductive FlvOp where
  /-- The recorder writes an event. -/
  | write (event : MediaEvent)
  /-- The file is closed, inspected and resumed. -/
  | reopen
  deriving DecidableEq

/-- One operation; what the muxer or the inspection refuses changes nothing. -/
def FlvMuxer.step (m : FlvMuxer) : FlvOp → Panics FlvMuxer
  | .write event =>
    match m.write event with
    | .error _ => .ok m
    | .ok written => written
  | .reopen =>
    match inspectTail m.close with
    | none => .ok m
    | some (flags, lastTimestampMs) => .ok (.resume m.close flags lastTimestampMs m.log)

/-- A recording that starts as a new file. -/
def FlvMuxer.record (ops : List FlvOp) : Panics FlvMuxer := ops.foldlM FlvMuxer.step (.new [])

/-! ## One classification of video -/

/-- The packet kind says what the event kind says: a sequence header, a keyframe or neither. A
packet of `media` is of a codec that no event has. -/
def VideoPacketKind.Agrees (kind : MediaEventKind) : VideoPacketKind → Prop
  | .sequenceHeader => kind.headerCodec.isSome
  | .keyframe => kind = .videoKeyframe
  | .other => kind = .videoInterframe ∨ kind = .videoDisposable
  | .media => False

namespace FlvMuxer

/-- The codec whose packets `classifyVideo` takes the payload for. -/
def codecOf (payload : Bytes) : Option VideoCodec :=
  match payload with
  | [] => none
  | videoHeader :: _ =>
    if videoHeader &&& 0x80 ≠ 0 then (fourCcOf payload).codec
    else if videoHeader &&& 0x0f = 7 then some .avc
    else none

/-- The payload is of frame type 4, a keyframe generated by a server, and not a sequence header of
the legacy format, of which the muxer does not ask the frame type. -/
def generatedKeyframe (payload : Bytes) : Bool :=
  match payload with
  | [] => false
  | videoHeader :: _ =>
    if videoHeader &&& 0x80 ≠ 0 then (videoHeader >>> 4) &&& 0x07 = 4
    else videoHeader >>> 4 = 4 ∧ (payload[1]? : Option UInt8) = some 1

/-- How the muxer takes the payload of a video event of this kind and codec. -/
def Takes (payload : Bytes) (kind : MediaEventKind) (codec : VideoCodec) : Prop :=
  codecOf payload = some codec ∧
    (kind.headerCodec = some codec ∧
        (classifyVideo payload = .ok .sequenceHeader ∧ generatedKeyframe payload = false ∨
          (∃ e, classifyVideo payload = .error e) ∧ generatedKeyframe payload = true) ∨
      kind.headerCodec = none ∧
        (classifyVideo payload = .ok .keyframe ∧ kind = .videoKeyframe ∧
            generatedKeyframe payload = false ∨
          classifyVideo payload = .ok .other ∧
            generatedKeyframe payload = decide (kind = .videoKeyframe) ∧
            (kind = .videoKeyframe ∨ kind = .videoInterframe ∨ kind = .videoDisposable)))

variable {payload : Bytes} {kind : MediaEventKind} {codec : VideoCodec}
  {identifier : VideoCodecIdentifier} {header : UInt8}

theorem takes_legacy (hlegacy : header &&& 0x80 = 0)
    (h : classifyLegacyVideo (header :: payload) header = .ok (kind, codec, identifier)) :
    Takes (header :: payload) kind codec := by
  obtain ⟨rfl, hcodec, hlen, frameKind, hframe, hkind⟩ := classifyLegacyVideo_eq_ok h
  have hshort : ¬(header :: payload).length < 5 := by omega
  simp only [Takes, classifyVideo, codecOf, generatedKeyframe, hlegacy, hcodec, hshort]
  rcases classifyVideoFrame_eq_ok hframe with ⟨hf | hf, rfl⟩ | ⟨hf, rfl⟩ | ⟨hf, rfl⟩ <;>
    rcases hkind with ⟨hp, hkey, rfl⟩ | ⟨hp, rfl⟩ <;>
    simp_all [MediaEventKind.headerCodec]

theorem takes_enhanced (henhanced : header &&& 0x80 ≠ 0)
    (h : Rtmp.classifyEnhancedVideo (header :: payload) header = .ok (kind, codec, identifier)) :
    Takes (header :: payload) kind codec := by
  obtain ⟨hcodec, hlen, frameKind, hframe, hkind⟩ := classifyEnhancedVideo_eq_ok h
  have hshort := Nat.not_le.mpr hlen
  have hheader : codec.sequenceHeader.headerCodec = some codec := by cases codec <;> rfl
  simp only [Takes, classifyVideo, classifyEnhancedVideo, codecOf, generatedKeyframe, hcodec,
    hshort]
  rcases classifyVideoFrame_eq_ok hframe with ⟨hf | hf, rfl⟩ | ⟨hf, rfl⟩ | ⟨hf, rfl⟩ <;>
    rcases hkind with ⟨hp, hkey, rfl⟩ | ⟨hp | hp, rfl⟩ <;>
    simp_all [MediaEventKind.headerCodec]

theorem takes_of_event (h : Rtmp.classifyVideo payload = .ok (kind, codec, identifier)) :
    Takes payload kind codec := by
  cases payload with
  | nil => cases h
  | cons header rest =>
    simp only [Rtmp.classifyVideo] at h
    split_ifs at h with hlegacy
    · exact takes_legacy hlegacy h
    · exact takes_enhanced hlegacy h

/-- **The two classifications of a video payload agree unless it is a generated keyframe.** -/
theorem classifyVideo_agrees_iff {timestampMs : UInt32} {event : MediaEvent}
    (h : video timestampMs payload = .ok event) :
    ((∃ packet, classifyVideo payload = .ok packet ∧ packet.Agrees event.kind) ∧
      codecOf payload = event.videoCodec) ↔ generatedKeyframe payload = false := by
  unfold video at h
  split at h
  · cases h
  · rename_i kind codec identifier hclass
    rw [MediaEvent.new] at h
    split_ifs at h with hsize
    cases h
    obtain ⟨hcodec, ⟨hheader, htaken⟩ | ⟨-, htaken⟩⟩ := takes_of_event hclass
    · rcases htaken with ⟨htaken, hgen⟩ | ⟨⟨e, htaken⟩, hgen⟩ <;>
        simp [hcodec, htaken, hgen, VideoPacketKind.Agrees, hheader]
    · rcases htaken with ⟨htaken, hkind, hgen⟩ | ⟨htaken, hgen, hkind | hkind | hkind⟩ <;>
        simp [hcodec, htaken, hgen, hkind, VideoPacketKind.Agrees]

/-- A frame of type 4 is a keyframe as an event and none to the muxer. -/
theorem classifyVideo_generated : ∃ event,
    video 0 [0x47, 1, 0, 0, 0, 0] = .ok event ∧ event.kind = .videoKeyframe ∧
      classifyVideo [0x47, 1, 0, 0, 0, 0] = .ok .other :=
  ⟨_, rfl, rfl, rfl⟩

/-- One of type 1 is a keyframe to both. -/
theorem classifyVideo_agrees_iff_keyframe : ∃ event, video 0 [0x17, 1, 0, 0, 0, 0] = .ok event ∧
      classifyVideo [0x17, 1, 0, 0, 0, 0] = .ok .keyframe ∧
      codecOf [0x17, 1, 0, 0, 0, 0] = event.videoCodec :=
  ⟨_, rfl, rfl, ((classifyVideo_agrees_iff rfl).mpr rfl).2⟩

end FlvMuxer

end Oxiroute.Rtmp
