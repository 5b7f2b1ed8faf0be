import Oxiroute.Rtmp.DashSteps

/-!
# When the DASH segmenter panics

`Builds x n` says that `x` builds `n` bytes and does not panic. Every box of an initialization file
and of a fragment has such a lemma; the lengths add up to the two conditions under which nothing
panics: a codec configuration of AAC that fits its descriptors, and a segment that fits the 32-bit
sizes of its boxes (`DashSegmentBuilder.Fits`).

`run_ok` says that no run panics whose calls meet them (`Bounded`). `run_panics` is an AAC header
that the segmenter accepts and that makes it panic.
-/

namespace Oxiroute.Rtmp

open Lib Http List

/-- A computation that builds `n` bytes. -/
def Builds (x : Panics Bytes) (n : ℕ) : Prop := ∃ bytes, x = .ok bytes ∧ bytes.length = n

variable {n : ℕ} {payload : Bytes}

theorem builds_ok {bytes : Bytes} (h : bytes.length = n) : Builds (.ok bytes) n := ⟨bytes, rfl, h⟩

theorem Builds.bind {x : Panics Bytes} {f : Bytes → Panics Bytes} {m : ℕ} (hx : Builds x m)
    (hf : ∀ bytes, bytes.length = m → Builds (f bytes) n) : Builds (x >>= f) n := by
  obtain ⟨bytes, rfl, hlength⟩ := hx
  exact hf bytes hlength

theorem builds_fourBytes (h : n < 2 ^ 32) : Builds (fourBytes n) 4 := by
  rw [fourBytes, if_pos h]
  exact builds_ok length_beBytes

theorem builds_box (kind : FourCc) (hn : payload.length + 8 = n) (h : n < 2 ^ 32) :
    Builds (box kind payload) n := by
  refine (builds_fourBytes (hn ▸ h)).bind fun size hsize => builds_ok ?_
  simp only [length_append, hsize, boxKind, length_cons, length_nil]
  omega

theorem builds_fullBox (kind : FourCc) (versionFlags : ℕ) (hn : payload.length + 12 = n)
    (h : n < 2 ^ 32) : Builds (fullBox kind versionFlags payload) n := by
  refine builds_box kind ?_ h
  rw [length_append, length_beBytes]
  omega

theorem builds_descriptor (tag : UInt8) (hn : payload.length + 2 = n) (h : n < 258) :
    Builds (descriptor tag payload) n := by
  rw [descriptor, if_pos (by omega)]
  exact builds_ok (by simp [hn])

/-! ## The initialization file -/

theorem builds_dataInformation : Builds dataInformation 28 := by
  refine (builds_fullBox _ 1 (n := 12) (by simp) (by decide)).bind fun url hurl => ?_
  exact builds_fullBox _ 0 (by simp [hurl]) (by decide)

theorem builds_emptySampleTables : Builds emptySampleTables 68 := by
  refine (builds_fullBox _ 0 (n := 16) (by simp) (by decide)).bind fun stts hstts => ?_
  refine (builds_fullBox _ 0 (n := 16) (by simp) (by decide)).bind fun stsc hstsc => ?_
  refine (builds_fullBox _ 0 (n := 20) (by simp) (by decide)).bind fun stsz hstsz => ?_
  refine (builds_fullBox _ 0 (n := 16) (by simp) (by decide)).bind fun stco hstco => ?_
  exact builds_ok (by simp [hstts, hstsc, hstsz, hstco])

theorem builds_videoSampleTable {config : DashAvcConfig} (width height : UInt16)
    (h : config.configurationRecord.length ≤ maxFlvTagDataSize) :
    Builds (videoSampleTable config width height) (config.configurationRecord.length + 178) := by
  have hmax : maxFlvTagDataSize = 16777215 := rfl
  refine (builds_box _ rfl (by omega)).bind fun avcC havcC => ?_
  refine (builds_box _ (n := config.configurationRecord.length + 94) ?_ (by omega)).bind
    fun avc1 havc1 => ?_
  · simp only [avc1Fields, length_append, length_replicate, length_beBytes, havcC]
    omega
  refine (builds_fullBox _ 0 (n := config.configurationRecord.length + 110) ?_ (by omega)).bind
    fun stsd hstsd => ?_
  · rw [length_append, length_beBytes]
    omega
  refine builds_emptySampleTables.bind fun tables htables => builds_ok ?_
  rw [length_append]
  omega

variable {config : DashAacConfig}

theorem builds_esDescriptor (h : config.audioSpecificConfig.length ≤ 240) :
    Builds (esDescriptor config) (config.audioSpecificConfig.length + 23) := by
  refine (builds_descriptor 0x05 rfl (by omega)).bind fun decoderConfig hdecoderConfig => ?_
  refine (builds_descriptor 0x04 (n := config.audioSpecificConfig.length + 17) ?_ (by omega)).bind
    fun decoder hdecoder => ?_
  · simp only [length_append, length_cons, length_nil, length_replicate, hdecoderConfig]
    omega
  refine (builds_descriptor 0x06 (n := 3) rfl (by decide)).bind fun layer hlayer => builds_ok ?_
  simp only [length_append, length_beBytes, length_cons, length_nil]
  omega

theorem builds_audioSampleTable (h : config.audioSpecificConfig.length ≤ 240) :
    Builds (audioSampleTable config) (config.audioSpecificConfig.length + 155) := by
  refine (builds_esDescriptor h).bind fun es hes => ?_
  refine (builds_fullBox _ 0 (n := config.audioSpecificConfig.length + 35) (by omega)
    (by omega)).bind
    fun esds hesds => ?_
  refine (builds_box _ (n := config.audioSpecificConfig.length + 71) ?_ (by omega)).bind
    fun mp4a hmp4a => ?_
  · simp only [mp4aFields, length_append, length_replicate, length_beBytes, hesds]
    omega
  refine (builds_fullBox _ 0 (n := config.audioSpecificConfig.length + 87) ?_ (by omega)).bind
    fun stsd hstsd => ?_
  · rw [length_append, length_beBytes]
    omega
  refine builds_emptySampleTables.bind fun tables htables => builds_ok ?_
  rw [length_append]
  omega

theorem builds_track (trackHeader : Bytes) (timescale : ℕ) (handler : FourCc) (handlerName : String)
    (mediaHeaderKind : FourCc) (mediaHeaderFlags : ℕ) (mediaHeader : Bytes)
    {sampleTable : Panics Bytes} (hheader : trackHeader.length = 100)
    (hname : handlerName.toList.length = 12) (hmedia : mediaHeader.length ≤ 8)
    (htable : Builds sampleTable n) (hn : n < 2 ^ 31) :
    ∃ m, m ≤ n + 400 ∧ Builds (track trackHeader timescale handler handlerName mediaHeaderKind
      mediaHeaderFlags mediaHeader sampleTable) m := by
  refine ⟨n + mediaHeader.length + 261, by omega, ?_⟩
  refine (builds_fullBox _ _ (n := 112) (by omega) (by decide)).bind fun tkhd htkhd => ?_
  refine (builds_fullBox _ _ (n := 32) (by simp [mediaHeaderPayload]) (by decide)).bind
    fun mdhd hmdhd => ?_
  refine (builds_fullBox _ _ (n := 45) (by simp [handlerPayload, boxKind, hname]) (by decide)).bind
    fun hdlr hhdlr => ?_
  refine (builds_fullBox _ _ rfl (by omega)).bind fun header hmheader => ?_
  refine builds_dataInformation.bind fun information hinformation => ?_
  refine (builds_box _ (n := 36) (by omega) (by decide)).bind fun dinf hdinf => ?_
  refine htable.bind fun table hlength => ?_
  refine (builds_box _ (n := n + 8) (by omega) (by omega)).bind fun stbl hstbl => ?_
  refine (builds_box _ (n := n + mediaHeader.length + 64) ?_ (by omega)).bind fun minf hminf => ?_
  · simp only [length_append]
    omega
  refine (builds_box _ (n := n + mediaHeader.length + 149) ?_ (by omega)).bind fun mdia hmdia => ?_
  · simp only [length_append]
    omega
  refine builds_ok ?_
  rw [length_append]
  omega

variable {width height : UInt16}

theorem length_trackHeaderPayload (trackId : ℕ) {volume : ℕ} :
    (trackHeaderPayload trackId volume width height).length = 100 := by
  unfold trackHeaderPayload
  simp

theorem length_movieHeaderPayload : movieHeaderPayload.length = 92 := by
  unfold movieHeaderPayload
  simp

theorem makeInitialization_ok {video : DashAvcConfig} {audio : DashAacConfig}
    (hvideo : video.configurationRecord.length ≤ maxFlvTagDataSize)
    (haudio : audio.audioSpecificConfig.length ≤ 240) :
    ∃ bytes, makeInitialization video audio width height = .ok bytes := by
  have hmax : maxFlvTagDataSize = 16777215 := rfl
  obtain ⟨v, hv, hvideoTrack⟩ := builds_track _ _ _ "VideoHandler" _ 1 (replicate 8 0)
    (length_trackHeaderPayload ..) rfl (by simp) (builds_videoSampleTable width height hvideo)
      (by omega)
  obtain ⟨w, hw, haudioTrack⟩ := builds_track _ _ _ "SoundHandler" _ 0 (replicate 4 0)
    (length_trackHeaderPayload ..) rfl (by simp) (builds_audioSampleTable haudio) (by omega)
  have hbuilds : Builds (makeInitialization video audio width height) (v + w + 228) := by
    refine (builds_box _ (n := 28) (by simp [boxKind]) (by decide)).bind fun ftyp hftyp => ?_
    refine (builds_fullBox _ _ (by rw [length_movieHeaderPayload]) (by decide)).bind
      fun mvhd hmvhd => ?_
    refine hvideoTrack.bind fun videoPayload hvideoPayload => ?_
    refine (builds_box _ rfl (by omega)).bind fun videoTrak hvideoTrak => ?_
    refine haudioTrack.bind fun audioPayload haudioPayload => ?_
    refine (builds_box _ rfl (by omega)).bind fun audioTrak haudioTrak => ?_
    refine (builds_fullBox _ _ (n := 32) (by simp [trexPayload]) (by decide)).bind
      fun videoTrex hvideoTrex => ?_
    refine (builds_fullBox _ _ (n := 32) (by simp [trexPayload]) (by decide)).bind
      fun audioTrex haudioTrex => ?_
    refine (builds_box _ (n := 72) (by simp [hvideoTrex, haudioTrex]) (by decide)).bind
      fun mvex hmvex => ?_
    refine (builds_box _ (n := v + w + 200) ?_ (by omega)).bind fun moov hmoov => ?_
    · simp only [length_append]
      omega
    refine builds_ok ?_
    rw [length_append]
    omega
  obtain ⟨bytes, hbytes, -⟩ := hbuilds
  exact ⟨bytes, hbytes⟩

/-! ## Fragments -/

/-- A segment whose boxes have lengths below `2 ^ 32`. -/
def DashSegmentBuilder.Fits (segment : DashSegmentBuilder) : Prop :=
  16 * segment.video.length + 8 * segment.audio.length + 152 < 2 ^ 32 ∧
    segment.mediaData.length + 8 < 2 ^ 32

instance (segment : DashSegmentBuilder) : Decidable segment.Fits :=
  inferInstanceAs (Decidable (_ ∧ _))

theorem builds_videoEntries {samples : List DashVideoSample}
    (h : ∀ sample ∈ samples, sample.data.length < 2 ^ 32) :
    Builds (videoEntries samples) (16 * samples.length) := by
  induction samples with
  | nil => exact builds_ok rfl
  | cons sample samples ih =>
    refine (builds_fourBytes (h sample mem_cons_self)).bind fun size hsize => ?_
    refine (ih fun other hother => h other (mem_cons_of_mem _ hother)).bind
      fun rest hrest => builds_ok ?_
    simp only [length_append, length_beBytes, signedBytes, hsize, hrest, length_cons]
    omega

theorem builds_audioEntries {samples : List DashAudioSample}
    (h : ∀ sample ∈ samples, sample.data.length < 2 ^ 32) :
    Builds (audioEntries samples) (8 * samples.length) := by
  induction samples with
  | nil => exact builds_ok rfl
  | cons sample samples ih =>
    refine (builds_fourBytes (h sample mem_cons_self)).bind fun size hsize => ?_
    refine (ih fun other hother => h other (mem_cons_of_mem _ hother)).bind
      fun rest hrest => builds_ok ?_
    simp only [length_append, length_beBytes, hsize, hrest, length_cons]
    omega

theorem builds_traf {trackId baseDecodeTime : ℕ} {count : ℕ} {dataOffset : ℤ}
    {entries : Panics Bytes} {trunFlags : ℕ} (hcount : count < 2 ^ 32) (hentries : Builds entries n)
    (hn : n + 56 < 2 ^ 32) :
    Builds (traf trackId baseDecodeTime count dataOffset entries trunFlags) (n + 56) := by
  refine (builds_fullBox _ _ (n := 16) (by simp) (by decide)).bind fun tfhd htfhd => ?_
  refine (builds_fullBox _ _ (n := 20) (by simp) (by decide)).bind fun tfdt htfdt => ?_
  refine (builds_fourBytes hcount).bind fun countBytes hcountBytes => ?_
  refine hentries.bind fun samples hsamples => ?_
  refine (builds_fullBox _ _ (n := n + 20) ?_ (by omega)).bind fun trun htrun => builds_ok ?_
  · simp only [length_append, signedBytes, length_beBytes, hcountBytes, hsamples]
    omega
  · simp only [length_append]
    omega

section Segment

variable {segment : DashSegmentBuilder}

theorem video_length_le {sample : DashVideoSample} (h : sample ∈ segment.video) :
    sample.data.length ≤ segment.mediaData.length := by
  have hle : sample.data.length ≤ (segment.video.flatMap fun sample => sample.data).length :=
    (sublist_flatten_of_mem (mem_map_of_mem h)).length_le
  rw [DashSegmentBuilder.mediaData, length_append]
  omega

theorem audio_length_le {sample : DashAudioSample} (h : sample ∈ segment.audio) :
    sample.data.length ≤ segment.mediaData.length := by
  have hle : sample.data.length ≤ (segment.audio.flatMap fun sample => sample.data).length :=
    (sublist_flatten_of_mem (mem_map_of_mem h)).length_le
  rw [DashSegmentBuilder.mediaData, length_append]
  omega

theorem builds_buildMoof (h : segment.Fits) (sequence : ℕ) (audio : DashAacConfig)
    (videoOffset audioOffset : ℤ) :
    Builds (buildMoof sequence audio segment videoOffset audioOffset)
      (16 * segment.video.length + 8 * segment.audio.length + 152) := by
  obtain ⟨hcounts, hdata⟩ := h
  have hvideo : Builds (videoEntries segment.video) (16 * segment.video.length) :=
    builds_videoEntries fun sample hsample => (video_length_le hsample).trans_lt (by omega)
  have haudio : Builds (audioEntries segment.audio) (8 * segment.audio.length) :=
    builds_audioEntries fun sample hsample => (audio_length_le hsample).trans_lt (by omega)
  refine (builds_fullBox _ _ (n := 16) (by simp) (by decide)).bind fun mfhd hmfhd => ?_
  refine (builds_traf (by omega) hvideo (by omega)).bind fun videoPayload hvideoPayload => ?_
  refine (builds_box _ rfl (by omega)).bind fun videoBox hvideoBox => ?_
  refine (builds_traf (by omega) haudio (by omega)).bind fun audioPayload haudioPayload => ?_
  refine (builds_box _ rfl (by omega)).bind fun audioBox haudioBox => ?_
  refine builds_box _ ?_ hcounts
  simp only [length_append]
  omega

theorem makeFragment_ok (h : segment.Fits) {audio : DashAacConfig} {sequence : ℕ} :
    ∃ bytes, makeFragment audio segment sequence = .ok bytes := by
  obtain ⟨emptyVideo, hempty, hlength⟩ := builds_buildMoof h sequence audio 0 0
  obtain ⟨moof, hmoof, -⟩ := builds_buildMoof h sequence audio (clampOffset (emptyVideo.length + 8))
    (min (clampOffset (emptyVideo.length + 8) +
      clampOffset (segment.video.map fun sample => sample.data.length).sum) (2 ^ 31 - 1))
  obtain ⟨mdat, hmdat, -⟩ := builds_box (fourCc 'm' 'd' 'a' 't') rfl h.2
  refine ⟨moof ++ mdat, ?_⟩
  rw [makeFragment]
  simp only [hempty, hmoof, hmdat, bind_ok]

end Segment

/-! ## Parsing -/

theorem DashAvcConfig.parse_ok : ∃ parsed, DashAvcConfig.parse payload = .ok parsed ∧
      ∀ c, parsed = some c → c.configurationRecord.length ≤ payload.length := by
  obtain ⟨parsed, h, hlength⟩ := parseAvcConfiguration_ok
  refine ⟨_, by rw [DashAvcConfig.parse, h, bind_ok], ?_⟩
  intro c hc
  obtain ⟨record, hrecord, hof⟩ := Option.bind_eq_some_iff.mp hc
  unfold DashAvcConfig.ofParsed at hof
  split_ifs at hof
  rw [← Option.some.inj hof]
  exact hlength record hrecord

theorem DashAacConfig.parse_ok : ∃ parsed, DashAacConfig.parse payload = .ok parsed ∧
      ∀ c, parsed = some c → c.audioSpecificConfig.length + 2 = payload.length := by
  obtain ⟨parsed, h, hlength⟩ := parseAacConfiguration_ok
  refine ⟨_, by rw [DashAacConfig.parse, h, bind_ok], ?_⟩
  intro c hc
  obtain ⟨record, hrecord, hof⟩ := Option.bind_eq_some_iff.mp hc
  obtain ⟨hconfig, htrailing⟩ := hlength record hrecord
  unfold DashAacConfig.ofParsed at hof
  split at hof
  · cases hof
  · split_ifs at hof
    rw [← Option.some.inj hof, length_append]
    omega

theorem videoUnits_ok : ∀ fuel cursor, ∃ parsed, videoUnits payload fuel cursor = .ok parsed := by
  intro fuel
  induction fuel with
  | zero => exact fun _ => ⟨none, rfl⟩
  | succ fuel ih =>
    intro cursor
    rw [videoUnits]
    split_ifs
    · exact ⟨some [], rfl⟩
    split
    · exact ⟨none, rfl⟩
    rename_i start hstart
    split
    · exact ⟨none, rfl⟩
    split_ifs
    · exact ⟨none, rfl⟩
    split
    · exact ⟨none, rfl⟩
    rename_i stop hstop
    split_ifs with hrange
    · exact ⟨none, rfl⟩
    obtain ⟨unit, hunit⟩ := Option.ne_none_iff_exists'.mp hrange
    obtain ⟨hle, hbound, -⟩ := getRange_eq_some hunit
    have hcursor := checkedAddSize_eq_some hstart
    obtain ⟨rest, hrest⟩ := ih stop
    rw [subSize_of_le (by omega), bind_ok, range_of_le (by omega) hbound, bind_ok, hrest, bind_ok]
    exact ⟨_, rfl⟩

theorem parseVideoSample_ok : ∃ parsed, parseVideoSample payload = .ok parsed := by
  rw [parseVideoSample]
  split_ifs with hlength
  · exact ⟨none, rfl⟩
  rw [index_of_lt (show 0 < payload.length by omega), bind_ok,
    index_of_lt (show 1 < payload.length by omega), bind_ok]
  split_ifs
  · exact ⟨none, rfl⟩
  obtain ⟨units, hunits⟩ := videoUnits_ok _ 5
  rw [range_of_le (by omega) (show 5 ≤ payload.length by omega), bind_ok, hunits, bind_ok]
  exact ⟨_, rfl⟩

theorem parseAudioSample_ok : ∃ parsed, parseAudioSample payload = .ok parsed := by
  rw [parseAudioSample]
  split_ifs with hlength
  · exact ⟨none, rfl⟩
  rw [index_of_lt (show 0 < payload.length by omega), bind_ok,
    index_of_lt (show 1 < payload.length by omega), bind_ok]
  split_ifs
  · exact ⟨none, rfl⟩
  rw [range_of_le (show 2 ≤ payload.length by omega) le_rfl, bind_ok]
  exact ⟨_, rfl⟩

/-! ## The segmenter -/

namespace DashSegmenter

variable {a : DashAnswers} {event : MediaEvent} {endList : Bool} {s t : DashSegmenter}

/-- The codec configurations fit their boxes and descriptors. -/
structure Encodable (s : DashSegmenter) : Prop where
  video : ∀ c, s.videoConfig = some c → c.configurationRecord.length ≤ maxFlvTagDataSize
  audio : ∀ c, s.audioConfig = some c → c.audioSpecificConfig.length ≤ 240

theorem SameConfigs.encodable (h : SameConfigs s t) (hs : s.Encodable) : t.Encodable :=
  ⟨fun c hc => hs.video c (h.1 ▸ hc), fun c hc => hs.audio c (h.2 ▸ hc)⟩

/-- Whether a call ends the open segment. -/
def closes (s : DashSegmenter) : DashCall → Bool
  | .finish _ _ => true
  | .accept event _ => decide (event.kind = .videoKeyframe) && s.cuts event.timestampMs

/-- Whether a call brings an AAC header that is too long for its descriptors. -/
def longHeader : DashCall → Bool
  | .finish _ _ => false
  | .accept event _ => decide (event.kind = .aacSequenceHeader ∧ 242 < event.payload.length)

/-- A call that brings no AAC header of more than 242 bytes and ends no segment that is too long. -/
def Bounded (s : DashSegmenter) (call : DashCall) : Prop :=
  longHeader call = false ∧
    (s.closes call = true → ∀ segment, s.current = some segment → segment.Fits)

instance (s : DashSegmenter) (call : DashCall) : Decidable (s.Bounded call) :=
  have : Decidable (∀ segment, s.current = some segment → segment.Fits) :=
    inferInstanceAs (Decidable (∀ segment ∈ s.current, segment.Fits))
  inferInstanceAs (Decidable (_ ∧ _))

variable (hs : s.Encodable)
include hs

theorem finish_ok (hfits : ∀ segment, s.current = some segment → segment.Fits) :
    ∃ t, s.finish a endList = .ok t ∧ t.Encodable := by
  have hok : ∃ t, s.finish a endList = .ok t := by
    unfold finish
    split
    · exact ⟨_, rfl⟩
    split
    · exact ⟨_, rfl⟩
    rename_i segment hcurrent
    dsimp only
    split
    · split
      · exact ⟨_, rfl⟩
      obtain ⟨bytes, hbytes⟩ := makeFragment_ok (hfits segment hcurrent)
      rw [hbytes]
      exact ⟨_, rfl⟩
    · exact ⟨_, rfl⟩
  obtain ⟨t, ht⟩ := hok
  exact ⟨t, ht, (finish_sameConfigs ht).encodable hs⟩

theorem publishInitialization_ok : ∃ t, s.publishInitialization a = .ok t ∧ t.Encodable := by
  unfold publishInitialization
  split
  · exact ⟨s, rfl, hs⟩
  split
  · rename_i video audio hvideo haudio
    split
    · exact ⟨_, rfl, hs.video, hs.audio⟩
    obtain ⟨bytes, hbytes⟩ := makeInitialization_ok (hs.video video hvideo) (hs.audio audio haudio)
    rw [hbytes, bind_ok]
    split
    · exact ⟨_, rfl, hs.video, hs.audio⟩
    · rename_i t hpublish
      obtain ⟨-, rfl⟩ := publish_eq_some hpublish
      exact ⟨_, rfl, hs.video, hs.audio⟩
  · exact ⟨s, rfl, hs⟩

theorem appendVideo_ok {keyframe : Bool} :
    ∃ t, s.appendVideo event keyframe = .ok t ∧ t.Encodable := by
  obtain ⟨parsed, hparsed⟩ := parseVideoSample_ok
  unfold appendVideo
  rw [hparsed, bind_ok]
  split <;> exact ⟨_, rfl, hs.video, hs.audio⟩

theorem appendAudio_ok : ∃ t, s.appendAudio event = .ok t ∧ t.Encodable := by
  obtain ⟨parsed, hparsed⟩ := parseAudioSample_ok
  unfold appendAudio
  rw [hparsed, bind_ok]
  split
  · exact ⟨_, rfl, hs.video, hs.audio⟩
  split <;> exact ⟨_, rfl, hs.video, hs.audio⟩

theorem acceptAvcHeader_ok : ∃ t, s.acceptAvcHeader a event = .ok t ∧ t.Encodable := by
  obtain ⟨parsed, hparsed, hlength⟩ := DashAvcConfig.parse_ok
  unfold acceptAvcHeader
  rw [hparsed, bind_ok]
  split
  · exact ⟨_, rfl, hs.video, hs.audio⟩
  rename_i config
  split
  · exact ⟨_, rfl, hs.video, hs.audio⟩
  refine publishInitialization_ok ⟨?_, hs.audio⟩
  rintro c ⟨⟩
  exact (hlength config rfl).trans event.payload_le

theorem acceptAacHeader_ok (hlong : event.payload.length ≤ 242) :
    ∃ t, s.acceptAacHeader a event = .ok t ∧ t.Encodable := by
  obtain ⟨parsed, hparsed, hlength⟩ := DashAacConfig.parse_ok
  unfold acceptAacHeader
  rw [hparsed, bind_ok]
  split
  · exact ⟨_, rfl, hs.video, hs.audio⟩
  rename_i config
  split
  · exact ⟨_, rfl, hs.video, hs.audio⟩
  refine publishInitialization_ok ⟨hs.video, ?_⟩
  rintro c ⟨⟩
  have := hlength config rfl
  omega

theorem acceptKeyframe_ok
    (hfits : s.cuts event.timestampMs = true → ∀ segment, s.current = some segment → segment.Fits) :
    ∃ t, s.acceptKeyframe a event = .ok t ∧ t.Encodable := by
  unfold acceptKeyframe
  split
  · exact ⟨s, rfl, hs⟩
  split
  · rename_i hcuts
    have hfinish : ∃ t, s.finish a false = .ok t ∧ t.Encodable := finish_ok hs (hfits hcuts)
    obtain ⟨t, ht, hencodable⟩ := hfinish
    rw [ht, bind_ok]
    split
    · exact ⟨t, rfl, hencodable⟩
    · exact appendVideo_ok hencodable
  · exact appendVideo_ok hs

theorem step_ok {call : DashCall} (h : s.Bounded call) :
    ∃ t, s.step call = .ok t ∧ t.Encodable := by
  obtain ⟨hlong, hfits⟩ := h
  cases call with
  | finish endList a => exact finish_ok hs (hfits rfl)
  | accept event a =>
    change ∃ t, s.accept a event = .ok t ∧ t.Encodable
    have hobserved : (s.observe event).Encodable := ⟨hs.video, hs.audio⟩
    unfold accept
    split
    · exact ⟨_, rfl, hobserved⟩
    unfold acceptKind
    split
    · split
      · exact ⟨_, rfl, hobserved⟩
      · exact ⟨_, rfl, hs.video, hs.audio⟩
    · exact acceptAvcHeader_ok hobserved
    · rename_i hkind
      simp only [longHeader, hkind, true_and, decide_eq_false_iff_not, not_lt] at hlong
      exact acceptAacHeader_ok hobserved hlong
    · rename_i hkind
      refine acceptKeyframe_ok hobserved fun hcuts => hfits ?_
      rw [closes, hkind]
      exact hcuts
    · split
      · exact ⟨_, rfl, hobserved⟩
      · exact appendVideo_ok hobserved
    · split
      · exact ⟨_, rfl, hobserved⟩
      · exact appendVideo_ok hobserved
    · split
      · exact ⟨_, rfl, hobserved⟩
      · exact appendAudio_ok hobserved
    · exact ⟨_, rfl, hobserved.video, hobserved.audio⟩
    · exact ⟨_, rfl, hobserved.video, hobserved.audio⟩

omit hs

theorem new_encodable {config : DashOutputConfig} {tree : DashTree} (h : new config tree = .ok s) :
    s.Encodable := by
  unfold new at h
  split at h
  · cases h
  · cases h
    exact ⟨(fun _ hc => nomatch hc), fun _ hc => nomatch hc⟩

/-- **No panic**: a segmenter whose calls bring no AAC header of more than 242 bytes and end no
segment that is too long for its boxes does not panic. -/
theorem run_ok {config : DashOutputConfig} {tree : DashTree} (hnew : new config tree = .ok s)
    (calls : List DashCall) (h : EveryStepOf step Bounded s calls) : ∃ t, s.run calls = .ok t := by
  obtain ⟨t, ht, -⟩ := foldlM_induct (fun _ _ hs hcall => step_ok hs hcall) calls s
    (new_encodable hnew) h
  exact ⟨t, ht⟩

/-! ## A header that is accepted and too long -/

def avcHeader : MediaEvent :=
  ⟨.avcSequenceHeader, 0,
    [0x17, 0, 0, 0, 0, 1, 0x42, 0, 0x1e, 0xff, 0xe1, 0, 4, 0x67, 0x42, 0, 0x1e, 1, 0, 2,
      0x68, 0xce],
    none, some .avc, some (.flv 7), Nat.le_of_ble_eq_true rfl, MediaEvent.classified_video rfl⟩

theorem classifyAudio_aacHeader {trailing : Bytes} :
    classifyAudio ([0xaf, 0, 0x12, 0x10] ++ trailing) = .ok .aacSequenceHeader := by
  have hcodec : (0xaf : UInt8) >>> 4 = 10 := by decide
  simp [classifyAudio, aacCodecId, hcodec]

/-- An AAC sequence header with `n` bytes behind its configuration. -/
def aacHeader (n : ℕ) (h : n ≤ 1000) : MediaEvent :=
  ⟨.aacSequenceHeader, 0, [0xaf, 0, 0x12, 0x10] ++ replicate n 0, none, none, none, (by
      simp only [length_append, length_cons, length_nil, length_replicate, maxFlvTagDataSize]
      omega), MediaEvent.classified_audio classifyAudio_aacHeader⟩

/-- A store that takes and removes every file. -/
def willingAnswers : DashAnswers := ⟨true, fun _ => true, fun _ => true, 0⟩

/-- A configuration with segments of one second. -/
def smallDashConfig : DashOutputConfig := ⟨1000, 2000, 4000, .sequential, true, 1048576, 1048576⟩

/-- The segmenter of an empty directory. -/
def freshSegmenter : DashSegmenter :=
  ⟨smallDashConfig, none, none, 0, 0, none, [], 0, false, false, [], 0, none, []⟩

theorem new_freshSegmenter : new smallDashConfig ∅ = .ok freshSegmenter := rfl

/-- A keyframe of one NAL unit. -/
def dashKeyframe (timestampMs : UInt32) : MediaEvent :=
  ⟨.videoKeyframe, timestampMs, [0x17, 1, 0, 0, 0, 0, 0, 0, 2, 0x65, 0x88], none, some .avc,
    some (.flv 7), Nat.le_of_ble_eq_true rfl, MediaEvent.classified_video rfl⟩

/-- A frame of AAC. -/
def dashAudio (timestampMs : UInt32) : MediaEvent :=
  ⟨.audio, timestampMs, [0xaf, 1, 0x21, 0x10], none, none, none, Nat.le_of_ble_eq_true rfl,
    MediaEvent.classified_audio rfl⟩

theorem run_ok_headers : new smallDashConfig ∅ = .ok freshSegmenter ∧
      ∃ t, freshSegmenter.run ([avcHeader, aacHeader 0 (by decide), dashKeyframe 0, dashAudio 0,
        dashKeyframe 1000].map (.accept · willingAnswers) ++ [.finish true willingAnswers]) =
          .ok t :=
  ⟨new_freshSegmenter, run_ok new_freshSegmenter _ (by decide +kernel)⟩

/-- With 239 bytes behind the configuration the decoder descriptor has 256 bytes, one too many. -/
theorem run_panics : new smallDashConfig ∅ = .ok freshSegmenter ∧
      freshSegmenter.run [.accept avcHeader willingAnswers,
        .accept (aacHeader 239 (by decide)) willingAnswers] = .error .expect := by
  decide +kernel

end DashSegmenter

end Oxiroute.Rtmp
