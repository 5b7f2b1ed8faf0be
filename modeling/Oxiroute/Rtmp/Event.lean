import Oxiroute.Http.Header

/-!
# Media events

Model of `MediaEvent` of `crates/oxiroute-rtmp/src/live.rs`: one RTMP media message, classified by
its first bytes.

* `classifyAudio` and `classifyVideo` read the sound header and the video header of an FLV payload;
  `audio` and `video` build the event of a payload they accept.
* An event carries the proof that its kind and its codec are what its payload says, and that its
  payload fits an FLV tag: the fields of the source are private and only these constructors set
  them.
* Metadata is encoded and decoded by the AMF library of the source; here the two functions are
  parameters.
-/

namespace Oxiroute.Rtmp

open Http (Bytes)

inductive MediaEventKind where
  | metadata
  | aacSequenceHeader
  | avcSequenceHeader
  | hevcSequenceHeader
  | av1SequenceHeader
  | audio
  | videoKeyframe
  | videoInterframe
  | videoDisposable
  deriving DecidableEq

inductive VideoCodec where
  | avc
  | hevc
  | av1
  deriving DecidableEq

structure FourCc where
  a : UInt8
  b : UInt8
  c : UInt8
  d : UInt8
  deriving DecidableEq

def FourCc.avc1 : FourCc := ⟨0x61, 0x76, 0x63, 0x31⟩

def FourCc.hvc1 : FourCc := ⟨0x68, 0x76, 0x63, 0x31⟩

def FourCc.av01 : FourCc := ⟨0x61, 0x76, 0x30, 0x31⟩

inductive VideoCodecIdentifier where
  | flv (codecId : UInt8)
  | fourCc (code : FourCc)
  deriving DecidableEq

/-- The fields of the `StreamMetadata` of the RTMP library that the modelled code reads. -/
structure StreamMetadata where
  videoWidth : Option UInt32
  videoHeight : Option UInt32
  videoCodecId : Option UInt32
  deriving DecidableEq

def aacCodecId : UInt8 := 10

def avcCodecId : UInt8 := 7

def enhancedVideoHeader : UInt8 := 0x80

def maxFlvTagDataSize : ℕ := 0x00ffffff

inductive MediaEventError where
  | malformedAudio
  | malformedVideo
  | unsupportedVideoCodec (identifier : VideoCodecIdentifier)
  | metadataEncoding (message : String)
  | payloadTooLarge (size maximum : ℕ)
  deriving DecidableEq

/-! ## Classification -/

variable (payload : Bytes)

/-- The kind of an audio payload, as `MediaEvent::audio` finds it. -/
def classifyAudio : Except MediaEventError MediaEventKind :=
  match payload with
  | [] => .error .malformedAudio
  | soundHeader :: rest =>
    if soundHeader >>> 4 = aacCodecId then
      match rest.head? with
      | some 0 => if payload.length > 2 then .ok .aacSequenceHeader else .error .malformedAudio
      | some 1 => if payload.length > 2 then .ok .audio else .error .malformedAudio
      | _ => .error .malformedAudio
    else .ok .audio

def classifyVideoFrame (frameType : UInt8) : Except MediaEventError MediaEventKind :=
  match frameType with
  | 1 | 4 => .ok .videoKeyframe
  | 2 => .ok .videoInterframe
  | 3 => .ok .videoDisposable
  | _ => .error .malformedVideo

def VideoCodec.sequenceHeader : VideoCodec → MediaEventKind
  | .avc => .avcSequenceHeader
  | .hevc => .hevcSequenceHeader
  | .av1 => .av1SequenceHeader

/-- What classifies a video payload. -/
abbrev VideoClass := MediaEventKind × VideoCodec × VideoCodecIdentifier

def classifyLegacyVideo (videoHeader : UInt8) : Except MediaEventError VideoClass :=
  match classifyVideoFrame (videoHeader >>> 4) with
  | .error e => .error e
  | .ok frameKind =>
    let codecId := videoHeader &&& 0x0f
    if codecId ≠ avcCodecId then .error (.unsupportedVideoCodec (.flv codecId))
    else
      match (payload[1]? : Option UInt8) with
      | some 0 =>
        if payload.length > 5 ∧ frameKind = .videoKeyframe then
          .ok (.avcSequenceHeader, .avc, .flv codecId)
        else .error .malformedVideo
      | some 1 =>
        if payload.length > 5 then .ok (frameKind, .avc, .flv codecId) else .error .malformedVideo
      | _ => .error .malformedVideo

/-- The four-character code of an enhanced video payload. -/
def fourCcOf : FourCc :=
  ⟨payload.getD 1 0, payload.getD 2 0, payload.getD 3 0, payload.getD 4 0⟩

/-- The codec of a four-character code that `classify_enhanced_video` accepts. -/
def FourCc.codec (code : FourCc) : Option VideoCodec :=
  if code = .avc1 then some .avc
  else if code = .hvc1 then some .hevc
  else if code = .av01 then some .av1
  else none

def classifyEnhancedVideo (videoHeader : UInt8) : Except MediaEventError VideoClass :=
  if payload.length ≤ 5 then .error .malformedVideo
  else
    match classifyVideoFrame ((videoHeader >>> 4) &&& 0x07) with
    | .error e => .error e
    | .ok frameKind =>
      let fourCc := fourCcOf payload
      match fourCc.codec with
      | none => .error (.unsupportedVideoCodec (.fourCc fourCc))
      | some codec =>
        match videoHeader &&& 0x0f with
        | 0 =>
          if frameKind = .videoKeyframe then .ok (codec.sequenceHeader, codec, .fourCc fourCc)
          else .error .malformedVideo
        | 1 | 3 => .ok (frameKind, codec, .fourCc fourCc)
        | _ => .error .malformedVideo

/-- The classification of a video payload, as `MediaEvent::video` finds it. -/
def classifyVideo : Except MediaEventError VideoClass :=
  match payload with
  | [] => .error .malformedVideo
  | videoHeader :: _ =>
    if videoHeader &&& enhancedVideoHeader = 0 then classifyLegacyVideo payload videoHeader
    else classifyEnhancedVideo payload videoHeader

/-- A kind that classifies a payload of an audio message. -/
def MediaEventKind.isAudio : MediaEventKind → Bool
  | .aacSequenceHeader | .audio => true
  | _ => false

/-- A kind that classifies a payload of a video message. -/
def MediaEventKind.isVideo : MediaEventKind → Bool
  | .metadata | .aacSequenceHeader | .audio => false
  | _ => true

def MediaEventKind.headerCodec : MediaEventKind → Option VideoCodec
  | .avcSequenceHeader => some .avc
  | .hevcSequenceHeader => some .hevc
  | .av1SequenceHeader => some .av1
  | _ => none

variable {payload : Bytes} {kind : MediaEventKind} {codec : VideoCodec}
  {identifier : VideoCodecIdentifier}

theorem classifyAudio_isAudio (h : classifyAudio payload = .ok kind) : kind.isAudio = true := by
  unfold classifyAudio at h
  repeat' split at h
  all_goals cases h
  all_goals rfl

theorem classifyVideoFrame_eq_ok {frameType : UInt8} (h : classifyVideoFrame frameType = .ok kind) :
    (frameType = 1 ∨ frameType = 4) ∧ kind = .videoKeyframe ∨
      frameType = 2 ∧ kind = .videoInterframe ∨ frameType = 3 ∧ kind = .videoDisposable := by
  unfold classifyVideoFrame at h
  split at h <;> cases h <;> simp

theorem classifyLegacyVideo_eq_ok {header : UInt8}
    (h : classifyLegacyVideo payload header = .ok (kind, codec, identifier)) :
    codec = .avc ∧ header &&& 0x0f = 7 ∧ 5 < payload.length ∧
      ∃ frameKind, classifyVideoFrame (header >>> 4) = .ok frameKind ∧
        (payload[1]? = some 0 ∧ frameKind = .videoKeyframe ∧ kind = .avcSequenceHeader ∨
          payload[1]? = some 1 ∧ kind = frameKind) := by
  unfold classifyLegacyVideo at h
  split at h
  · cases h
  · rename_i frameKind hframe
    simp only at h
    repeat' split at h
    all_goals cases h
    · rename_i hcodec _ h0 hlen
      exact ⟨rfl, not_not.mp hcodec, hlen.1, _, hframe, .inl ⟨h0, hlen.2, rfl⟩⟩
    · rename_i hcodec _ h1 hlen
      exact ⟨rfl, not_not.mp hcodec, hlen, _, hframe, .inr ⟨h1, rfl⟩⟩

theorem classifyEnhancedVideo_eq_ok {header : UInt8}
    (h : classifyEnhancedVideo payload header = .ok (kind, codec, identifier)) :
    (fourCcOf payload).codec = some codec ∧ 5 < payload.length ∧
      ∃ frameKind, classifyVideoFrame ((header >>> 4) &&& 0x07) = .ok frameKind ∧
        (header &&& 0x0f = 0 ∧ frameKind = .videoKeyframe ∧ kind = codec.sequenceHeader ∨
          (header &&& 0x0f = 1 ∨ header &&& 0x0f = 3) ∧ kind = frameKind) := by
  unfold classifyEnhancedVideo at h
  split_ifs at h with hlen
  have hlen := Nat.not_le.mp hlen
  split at h
  · cases h
  · rename_i frameKind hframe
    simp only at h
    repeat' split at h
    all_goals cases h
    · rename_i h0 hkey hcodec
      exact ⟨hcodec, hlen, _, hframe, .inl ⟨h0, hkey, rfl⟩⟩
    · rename_i h1 hcodec
      exact ⟨hcodec, hlen, _, hframe, .inr ⟨.inl h1, rfl⟩⟩
    · rename_i h3 hcodec
      exact ⟨hcodec, hlen, _, hframe, .inr ⟨.inr h3, rfl⟩⟩

theorem classifyVideo_cases (h : classifyVideo payload = .ok (kind, codec, identifier)) :
    kind = codec.sequenceHeader ∨ kind = .videoKeyframe ∨ kind = .videoInterframe
      ∨ kind = .videoDisposable := by
  have hframe : ∀ {frameType}, classifyVideoFrame frameType = .ok kind →
      kind = .videoKeyframe ∨ kind = .videoInterframe ∨ kind = .videoDisposable := fun h => by
    rcases classifyVideoFrame_eq_ok h with ⟨-, rfl⟩ | ⟨-, rfl⟩ | ⟨-, rfl⟩ <;> simp
  unfold classifyVideo at h
  split at h
  · cases h
  · split at h
    · obtain ⟨rfl, -, -, _, hk, ⟨-, -, rfl⟩ | ⟨-, rfl⟩⟩ := classifyLegacyVideo_eq_ok h
      · exact .inl rfl
      · exact .inr (hframe hk)
    · obtain ⟨-, -, _, hk, ⟨-, -, rfl⟩ | ⟨-, rfl⟩⟩ := classifyEnhancedVideo_eq_ok h
      · exact .inl rfl
      · exact .inr (hframe hk)

/-! ## Events -/

/-- The fields of an event agree with the classification of its payload. -/
def Classified (kind : MediaEventKind) (payload : Bytes) (metadata : Option StreamMetadata)
    (codec : Option VideoCodec) (identifier : Option VideoCodecIdentifier) : Prop :=
  if kind.isVideo then
    ∃ c i, classifyVideo payload = .ok (kind, c, i) ∧ metadata = none ∧ codec = some c
      ∧ identifier = some i
  else (kind.isAudio → classifyAudio payload = .ok kind ∧ metadata = none)
    ∧ codec = none ∧ identifier = none

structure MediaEvent where
  kind : MediaEventKind
  timestampMs : UInt32
  payload : Bytes
  metadata : Option StreamMetadata
  videoCodec : Option VideoCodec
  videoCodecIdentifier : Option VideoCodecIdentifier
  payload_le : payload.length ≤ maxFlvTagDataSize
  classified : Classified kind payload metadata videoCodec videoCodecIdentifier
  deriving DecidableEq

namespace MediaEvent

/-- `MediaEvent::new`, with the fields the callers set afterwards. -/
def new (kind : MediaEventKind) (timestampMs : UInt32) (payload : Bytes)
    (metadata : Option StreamMetadata) (codec : Option VideoCodec)
    (identifier : Option VideoCodecIdentifier)
    (classified : Classified kind payload metadata codec identifier) :
    Except MediaEventError MediaEvent :=
  if payload_le : payload.length ≤ maxFlvTagDataSize then
    .ok ⟨kind, timestampMs, payload, metadata, codec, identifier, payload_le, classified⟩
  else .error (.payloadTooLarge payload.length maxFlvTagDataSize)

theorem classified_metadata {metadata : Option StreamMetadata} :
    Classified .metadata payload metadata none none :=
  ⟨fun h => by simp [MediaEventKind.isAudio] at h, rfl, rfl⟩

variable {payload : Bytes} {kind : MediaEventKind} {codec : VideoCodec}

theorem classified_audio (h : classifyAudio payload = .ok kind) :
    Classified kind payload none none none := by
  have hkind := classifyAudio_isAudio h
  have hvideo :
    kind.isVideo = false := by revert hkind; cases kind <;> simp [MediaEventKind.isAudio,
    MediaEventKind.isVideo]
  rw [Classified, hvideo]
  exact ⟨fun _ => ⟨h, rfl⟩, rfl, rfl⟩

theorem classified_video (h : classifyVideo payload = .ok (kind, codec, identifier)) :
    Classified kind payload none (some codec) (some identifier) := by
  have hvideo : kind.isVideo = true := by
    rcases classifyVideo_cases h with rfl | rfl | rfl | rfl
    · cases codec <;> rfl
    all_goals rfl
  rw [Classified, hvideo]
  exact ⟨codec, identifier, h, rfl, rfl, rfl⟩

/-- `MediaEvent::from_wire` at the one kind it is called with, for the decoder of the AMF
library. -/
def fromWire (decodeMetadata : Bytes → Option StreamMetadata) (timestampMs : UInt32)
    (payload : Bytes) : Except MediaEventError MediaEvent :=
  new .metadata timestampMs payload (decodeMetadata payload) none none classified_metadata

def audio (timestampMs : UInt32) (payload : Bytes) : Except MediaEventError MediaEvent :=
  match h : classifyAudio payload with
  | .error e => .error e
  | .ok kind => new kind timestampMs payload none none none (classified_audio h)

def video (timestampMs : UInt32) (payload : Bytes) : Except MediaEventError MediaEvent :=
  match h : classifyVideo payload with
  | .error e => .error e
  | .ok (kind, codec, identifier) =>
    new kind timestampMs payload none (some codec) (some identifier) (classified_video h)

variable {event : MediaEvent}

theorem classifyAudio_eq (h : event.kind.isAudio = true) :
    classifyAudio event.payload = .ok event.kind := by
  have hclass := event.classified
  have hvideo : event.kind.isVideo = false := by
    revert h
    cases event.kind <;> simp [MediaEventKind.isAudio, MediaEventKind.isVideo]
  rw [Classified, hvideo] at hclass
  exact (hclass.1 h).1

theorem classifyVideo_eq (h : event.kind.isVideo = true) :
    ∃ codec identifier, classifyVideo event.payload = .ok (event.kind, codec, identifier) := by
  have hclass := event.classified
  rw [Classified, if_pos h] at hclass
  obtain ⟨codec, identifier, heq, -⟩ := hclass
  exact ⟨codec, identifier, heq⟩

theorem videoCodec_of_header (h : event.kind.headerCodec = some codec) :
    event.videoCodec = some codec := by
  have hclass := event.classified
  have hvideo : event.kind.isVideo = true := by
    revert h
    cases event.kind <;> simp [MediaEventKind.headerCodec, MediaEventKind.isVideo]
  rw [Classified, hvideo] at hclass
  obtain ⟨c, i, hc, -, hcodec, -⟩ := hclass
  rw [hcodec]
  rcases classifyVideo_cases hc with heq | heq | heq | heq
  · rw [heq] at h
    cases c <;> simpa [VideoCodec.sequenceHeader, MediaEventKind.headerCodec] using h
  all_goals simp [heq, MediaEventKind.headerCodec] at h

end MediaEvent

end Oxiroute.Rtmp
