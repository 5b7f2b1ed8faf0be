import Oxiroute.Rtmp.FlvLayout

/-!
# Recordings can be read back

`Muxing` is what every operation on a muxer keeps: the bytes are the file of the log, the flags are
those of its tags, and the tags written since it was opened have the timestamps they should have.
`Muxing.write` is the step: an accepted write does not panic and appends as many bytes as were
announced. `record_readable` is the whole recording, across any number of times it is closed and
resumed.
-/

namespace Oxiroute.Rtmp

open Lib Http FlvMuxer MediaEventKind WrittenTag List

/-! ## Headers and frames -/

def MediaEventKind.headerType : MediaEventKind → Option FlvTagType
  | .metadata => some .metadata
  | .aacSequenceHeader => some .audio
  | .avcSequenceHeader | .hevcSequenceHeader | .av1SequenceHeader => some .video
  | .audio | .videoKeyframe | .videoInterframe | .videoDisposable => none

def MediaEventKind.tagType : MediaEventKind → FlvTagType
  | .metadata => .metadata
  | .aacSequenceHeader | .audio => .audio
  | _ => .video

theorem MediaEventKind.tagType_of_headerType {kind : MediaEventKind} {tagType : FlvTagType}
    (h : kind.headerType = some tagType) : kind.tagType = tagType := by
  cases kind <;> cases h <;> rfl

namespace FlvMuxer

def pushed (tags : List WrittenTag) (m : FlvMuxer) : FlvMuxer :=
  { m with
    writer := m.writer ++ tags.flatMap bytes
    flags := m.flags ||| flagsOf tags
    log := m.log ++ tags }

/-- A tag that was written with its own timestamp. -/
def live (t : WrittenTag) : Bool := decide (t.tagType ≠ .metadata) && !t.replayed

/-- The tag of a cached header. -/
def replay (baseMs : UInt32) (header : CachedCodecHeader) : WrittenTag :=
  ⟨header.tagType, header.payload, baseMs, header.arrivedMs, true⟩

/-- The timestamp of a media tag: the base for a replayed header, and the base plus the distance
from the first one for the others. -/
def StampOf (baseMs : UInt32) (first : Option UInt32) (t : WrittenTag) : Prop :=
  if t.replayed then t.stampMs = baseMs
  else ∃ firstMs, first = some firstMs ∧
    t.stampMs = saturatingAdd32 baseMs (relativeTimestamp firstMs t.arrivedMs)

/-- What holds of a muxer between two operations. -/
structure Muxing (m : FlvMuxer) : Prop where
  writer : ∃ flags, m.writer = flvFile flags m.log
  headerStart : m.headerStart = 0
  flags : m.flags = flagsOf m.log
  valid : ∀ t ∈ m.log, ValidPayload t.tagType t.payload
  cached : ∀ header ∈ m.cachedCodecHeaders, header.tagType ≠ .metadata ∧
    ValidPayload header.tagType header.payload
  started : m.videoSequenceHeaderSeen = true → m.waitingForVideoKeyframe = false →
    m.firstMediaTimestampMs.isSome = true
  opened : m.opened ≤ m.log.length
  stamps : ∀ t ∈ m.log.drop m.opened, t.tagType ≠ .metadata →
    StampOf m.timestampBaseMs m.firstMediaTimestampMs t
  first : m.firstMediaTimestampMs = ((m.log.drop m.opened).find? live).map arrivedMs

/-! ## Writing tags -/

variable {tags : List WrittenTag} {tags' : List WrittenTag} {m : FlvMuxer}

theorem flagsOf_append : flagsOf (tags ++ tags') = flagsOf tags ||| flagsOf tags' := by
  have hfold : ∀ (l : List WrittenTag) (flags : UInt8),
      l.foldl (fun flags t => flags ||| t.tagType.flag) flags = flags ||| flagsOf l := by
    intro l
    induction l with
    | nil => simp [flagsOf]
    | cons t l ih =>
      intro flags
      rw [flagsOf, foldl_cons, foldl_cons, ih, ih, UInt8.zero_or, UInt8.or_assoc]
  rw [flagsOf, foldl_append, hfold]
  rfl

theorem pushed_pushed : (m.pushed tags).pushed tags' = m.pushed (tags ++ tags') := by
  simp [pushed, flagsOf_append, append_assoc, UInt8.or_assoc]

variable {tagType : FlvTagType} {payload : Bytes}

theorem writeTag_eq (h : payload.length ≤ maxFlvTagDataSize) {stampMs arrivedMs : UInt32}
    {replayed : Bool} : m.writeTag tagType stampMs payload arrivedMs replayed =
      .ok (m.pushed [⟨tagType, payload, stampMs, arrivedMs, replayed⟩]) := by
  unfold maxFlvTagDataSize at h
  rw [writeTag, if_pos (by omega), expect_some, bind_ok, if_pos (by omega)]
  simp only [pushed, flatMap_cons, flatMap_nil, append_nil, bytes,
    flagsOf, foldl_cons, foldl_nil, UInt8.zero_or]
  rfl

variable {m : FlvMuxer}

theorem writeNormalizedTag_eq {firstMs : UInt32} (hfirst : m.firstMediaTimestampMs = some firstMs)
    (h : payload.length ≤ maxFlvTagDataSize) (timestampMs : UInt32) :
    m.writeNormalizedTag tagType timestampMs payload = .ok (m.pushed [⟨tagType, payload,
        saturatingAdd32 m.timestampBaseMs (relativeTimestamp firstMs timestampMs), timestampMs,
        false⟩]) := by
  rw [writeNormalizedTag, hfirst, expect_some, bind_ok, writeTag_eq h]

theorem replay_loop {headers : List CachedCodecHeader}
    (h : ∀ header ∈ headers, header.payload.length ≤ maxFlvTagDataSize) : ∀ m : FlvMuxer,
      headers.foldlM (fun m header =>
            m.writeTag header.tagType m.timestampBaseMs header.payload header.arrivedMs true) m =
        (.ok (m.pushed (headers.map (replay m.timestampBaseMs))) : Panics FlvMuxer) := by
  induction headers with
  | nil =>
    intro m
    simp [pushed, flagsOf]
    rfl
  | cons header headers ih =>
    intro m
    rw [foldlM_cons, writeTag_eq (h header mem_cons_self), bind_ok,
      ih fun header' hmem => h header' (mem_cons_of_mem _ hmem), pushed_pushed]
    rfl

/-- The muxer once media has started at this timestamp. -/
def begun (timestampMs : UInt32) (m : FlvMuxer) : FlvMuxer :=
  { m with firstMediaTimestampMs := some timestampMs, cachedCodecHeaders := [] }.pushed
    (m.cachedCodecHeaders.map (replay m.timestampBaseMs))

theorem startIfNeeded_of_some (h : m.firstMediaTimestampMs.isSome = true) (timestampMs : UInt32) :
    m.startIfNeeded timestampMs = .ok m := if_pos h

theorem startIfNeeded_of_none (h : m.firstMediaTimestampMs = none)
    (hcached : ∀ header ∈ m.cachedCodecHeaders, header.payload.length ≤ maxFlvTagDataSize)
    (timestampMs : UInt32) : m.startIfNeeded timestampMs = .ok (m.begun timestampMs) := by
  rw [startIfNeeded, h, if_neg (by simp), replay_loop hcached]
  rfl

theorem length_pushed : (m.pushed tags).writer.length =
      m.writer.length + (tags.map fun t => tagSize t.payload).sum := by
  have hsum : (tags.flatMap bytes).length = (tags.map fun t => tagSize t.payload).sum := by
    rw [length_flatMap]
    exact congrArg List.sum (map_congr_left fun t _ => t.length_bytes)
  rw [pushed, length_append, hsum]

theorem validateSize_ok (h : payload.length ≤ maxFlvTagDataSize) :
    validateSize tagType payload = .ok () :=
  if_neg (not_lt.mpr h)

/-! ## The muxer and the event model agree -/

theorem classifyAudio_of_event {kind : MediaEventKind} (h : Rtmp.classifyAudio payload = .ok kind) :
    (kind = .aacSequenceHeader ∧ classifyAudio payload = .ok .aacSequenceHeader) ∨
      (kind = .audio ∧
        (classifyAudio payload = .ok .aacRaw ∨ classifyAudio payload = .ok .media)) := by
  unfold Rtmp.classifyAudio at h
  unfold classifyAudio
  repeat' split at h
  all_goals simp_all [aacCodecId]

/-- The payload of an event is valid for the tag that it is written as. -/
theorem validPayload (event : MediaEvent) :
    ValidPayload event.kind.tagType event.payload := by
  refine ⟨event.payload_le, fun htype => ?_, fun htype => ?_⟩
  · refine ⟨_, event.classifyAudio_eq ?_⟩
    cases hkind : event.kind <;> rw [hkind] at htype <;> cases htype <;> rfl
  · obtain ⟨codec, identifier, hclass⟩ := event.classifyVideo_eq (by
      cases hkind : event.kind <;> rw [hkind] at htype <;> cases htype <;> rfl)
    exact ⟨_, hclass⟩

/-! ## What a write does -/

/-- The muxer that has seen a header of this type. -/
def noted (tagType : FlvTagType) (m : FlvMuxer) : FlvMuxer :=
  match tagType with
  | .metadata => m
  | .audio => { m with aacSequenceHeaderSeen := true }
  | .video => { m with videoSequenceHeaderSeen := true, waitingForVideoKeyframe := true }

/-- The tag of an audio or video event, with the base of its muxer and the first timestamp. -/
def mediaTag (event : MediaEvent) (baseMs firstMs : UInt32) : WrittenTag :=
  ⟨event.kind.tagType, event.payload,
    saturatingAdd32 baseMs (relativeTimestamp firstMs event.timestampMs), event.timestampMs, false⟩

/-- A frame that is dropped: the keyframe it waits for or the header of its codec is missing. -/
def Drops (event : MediaEvent) (m : FlvMuxer) : Prop :=
  event.kind.headerType = none ∧
    (m.waitingForVideoKeyframe = true ∧
        (event.kind.isVideo = true → classifyVideo event.payload ≠ .ok .keyframe) ∨
      event.kind.isVideo = true ∧ m.videoSequenceHeaderSeen = false ∨
      event.kind.isAudio = true ∧ classifyAudio event.payload = .ok .aacRaw ∧
        m.aacSequenceHeaderSeen = false)

/-- What an event makes of a muxer, and how many bytes it adds. It is dropped; its header waits in
the cache, in place of another of its type; or it becomes a tag with its payload and its timestamp,
behind the headers that waited if it starts the media. -/
inductive Wrote (event : MediaEvent) (m : FlvMuxer) : FlvMuxer → ℕ → Prop
  | dropped : Drops event m → Wrote event m m 0
  | metadata : event.kind = .metadata → Wrote event m
      (m.pushed [⟨.metadata, event.payload, m.timestampBaseMs, m.timestampBaseMs, false⟩])
      (tagSize event.payload)
  | cached {tagType : FlvTagType} : event.kind.headerType = some tagType → tagType ≠ .metadata →
      m.firstMediaTimestampMs = none → Wrote event m
        ((m.noted tagType).cacheCodecHeader tagType event.timestampMs event.payload) 0
  | header {tagType : FlvTagType} {firstMs : UInt32} : event.kind.headerType = some tagType →
      tagType ≠ .metadata → m.firstMediaTimestampMs = some firstMs → Wrote event m
        ((m.noted tagType).pushed [mediaTag event m.timestampBaseMs firstMs])
        (tagSize event.payload)
  | frame {firstMs : UInt32} : event.kind.headerType = none →
      m.firstMediaTimestampMs = some firstMs → Wrote event m
        ({ m with waitingForVideoKeyframe := false }.pushed
          [mediaTag event m.timestampBaseMs firstMs]) (tagSize event.payload)
  | started : event.kind.headerType = none → m.firstMediaTimestampMs = none → Wrote event m
      (FlvMuxer.pushed (m.cachedCodecHeaders.map (replay m.timestampBaseMs) ++
          [mediaTag event m.timestampBaseMs event.timestampMs])
        { m with
          firstMediaTimestampMs := some event.timestampMs
          cachedCodecHeaders := []
          waitingForVideoKeyframe := false })
      (m.cachedCodecHeaderSize + tagSize event.payload)

section writes

variable {m : FlvMuxer} {event : MediaEvent} {tagType : FlvTagType} {result : Panics FlvMuxer}

/-- What an accepted write comes to. -/
def WritesAs (event : MediaEvent) (m : FlvMuxer) (result : Panics FlvMuxer)
    (projected : Except FlvMuxerError ℕ) : Prop :=
  ∃ m' n, result = .ok m' ∧ projected = .ok n ∧ Wrote event m m' n

theorem wrote_header (hkind : event.kind.headerType = some tagType) (htype : tagType ≠ .metadata)
    {checked : Except FlvMuxerError Unit} {n : FlvMuxer} (hn : n = m.noted tagType)
    (h : (checked >>= fun _ => if n.firstMediaTimestampMs.isNone then
        .ok (.ok (n.cacheCodecHeader tagType event.timestampMs event.payload))
      else .ok (n.writeNormalizedTag tagType event.timestampMs event.payload) :
        Except FlvMuxerError (Panics FlvMuxer)) = .ok result) :
    WritesAs event m result
      (.ok (if m.firstMediaTimestampMs.isNone then 0 else tagSize event.payload)) := by
  obtain ⟨_, -, h⟩ := bind_eq_ok.mp h
  have hnoted : n.firstMediaTimestampMs = m.firstMediaTimestampMs ∧
      n.timestampBaseMs = m.timestampBaseMs := by
    rw [hn]
    cases tagType <;> exact ⟨rfl, rfl⟩
  cases hfirst : m.firstMediaTimestampMs with
  | none =>
    rw [hnoted.1, hfirst] at h
    cases h
    exact ⟨_, _, rfl, rfl, hn ▸ .cached hkind htype hfirst⟩
  | some firstMs =>
    rw [hfirst] at hnoted
    rw [hnoted.1] at h
    cases h
    refine ⟨_, _, ?_, rfl, .header hkind htype hfirst⟩
    rw [writeNormalizedTag_eq hnoted.1 event.payload_le, hnoted.2, hn,
      ← MediaEventKind.tagType_of_headerType hkind]
    rfl

variable (hcached : m.firstMediaTimestampMs = none →
  ∀ header ∈ m.cachedCodecHeaders, header.payload.length ≤ maxFlvTagDataSize)
include hcached

theorem wrote_frame (hkind : event.kind.headerType = none) : WritesAs event m
    ({ m with waitingForVideoKeyframe := false }.startIfNeeded event.timestampMs >>=
      writeNormalizedTag event.kind.tagType event.timestampMs event.payload)
    (.ok (if m.firstMediaTimestampMs.isNone then m.cachedCodecHeaderSize + tagSize event.payload
      else tagSize event.payload)) := by
  rcases Option.eq_none_or_eq_some m.firstMediaTimestampMs with hfirst | ⟨firstMs, hfirst⟩
  · refine ⟨_, _, ?_, by rw [hfirst]; rfl, .started hkind hfirst⟩
    have hbegun : ({ m with waitingForVideoKeyframe := false }.begun
        event.timestampMs).firstMediaTimestampMs = some event.timestampMs := rfl
    rw [startIfNeeded_of_none (m := { m with waitingForVideoKeyframe := false }) hfirst
      (hcached hfirst), bind_ok, writeNormalizedTag_eq hbegun event.payload_le, begun,
        pushed_pushed]
    rfl
  · refine ⟨_, _, ?_, by rw [hfirst]; rfl, .frame hkind hfirst⟩
    have hwaiting : { m with waitingForVideoKeyframe := false }.firstMediaTimestampMs =
        some firstMs := hfirst
    rw [startIfNeeded_of_some (by rw [hwaiting]; rfl), bind_ok,
      writeNormalizedTag_eq hwaiting event.payload_le]
    rfl

omit hcached in
theorem not_waiting (h : ¬m.waitingForVideoKeyframe = true) :
    { m with waitingForVideoKeyframe := false } = m := by
  rw [← Bool.eq_false_of_not_eq_true h]

theorem writeAudio_cases (haudio : event.kind.isAudio = true)
    (h : m.writeAudio event.timestampMs event.payload = .ok result) :
    WritesAs event m result (m.projectedAudioSize event.payload) := by
  have hclass := event.classifyAudio_eq haudio
  unfold writeAudio at h
  unfold projectedAudioSize
  rw [validateSize_ok event.payload_le] at h ⊢
  rcases classifyAudio_of_event hclass with ⟨hkind, hmuxer⟩ | ⟨hkind, hmuxer⟩
  · rw [hmuxer] at h ⊢
    exact wrote_header (by rw [hkind]; rfl) (by decide) rfl h
  · -- raw AAC and the other codecs differ only in the header they need
    obtain ⟨kind, hmuxer, hne⟩ : ∃ kind, classifyAudio event.payload = .ok kind ∧
        kind ≠ .aacSequenceHeader := by
      rcases hmuxer with hmuxer | hmuxer <;> exact ⟨_, hmuxer, by decide⟩
    have hnone : event.kind.headerType = none := by rw [hkind]; rfl
    have hframe := wrote_frame hcached hnone
    rw [show event.kind.tagType = .audio by rw [hkind]; rfl] at hframe
    have hdone : (if kind = .aacRaw ∧ !m.aacSequenceHeaderSeen then .ok (.ok m)
        else if m.waitingForVideoKeyframe then .ok (.ok m)
        else .ok (m.startIfNeeded event.timestampMs >>=
          writeNormalizedTag .audio event.timestampMs event.payload) :
        Except FlvMuxerError (Panics FlvMuxer)) = .ok result → WritesAs event m result
        (.ok (if kind = .aacRaw ∧ !m.aacSequenceHeaderSeen then 0
          else if m.waitingForVideoKeyframe then 0
          else if m.firstMediaTimestampMs.isNone then
            m.cachedCodecHeaderSize + tagSize event.payload
          else tagSize event.payload)) := by
      intro h
      split_ifs at h ⊢ with hraw hwaiting <;> cases h
      · exact ⟨_, _, rfl, rfl,
          .dropped ⟨hnone, .inr (.inr ⟨haudio, hraw.1 ▸ hmuxer, by simpa using hraw.2⟩)⟩⟩
      · refine ⟨_, _, rfl, rfl, .dropped ⟨hnone, .inl ⟨hwaiting, fun hvideo => ?_⟩⟩⟩
        rw [hkind] at hvideo
        cases hvideo
      all_goals
        rw [not_waiting hwaiting] at hframe
        simpa [*] using hframe
    rw [hmuxer] at h ⊢
    cases kind with
    | aacSequenceHeader => exact absurd rfl hne
    | aacRaw | media => exact hdone h

theorem writeVideo_cases (hvideo : event.kind.isVideo = true)
    (h : m.writeVideo event.timestampMs event.payload = .ok result) :
    WritesAs event m result (m.projectedVideoSize event.payload) ∨
      m.videoSequenceHeaderSeen = true ∧
      m.waitingForVideoKeyframe = false ∧ m.firstMediaTimestampMs = none ∧ ∃ e,
        result = .error e := by
  obtain ⟨codec, identifier, hclass⟩ := event.classifyVideo_eq hvideo
  have htype : event.kind.tagType = .video ∧
      event.kind.headerType = event.kind.headerCodec.map fun _ => .video := by
    revert hvideo
    cases event.kind <;> simp [isVideo, MediaEventKind.tagType, headerType, headerCodec]
  unfold writeVideo at h
  unfold projectedVideoSize
  rw [validateSize_ok event.payload_le] at h ⊢
  rcases (takes_of_event hclass).2 with
      ⟨hcodec, ⟨hmuxer, -⟩ | ⟨⟨e, hmuxer⟩, -⟩⟩ | ⟨hcodec, ⟨hmuxer, -⟩ | ⟨hmuxer, -⟩⟩ <;>
    rw [hmuxer] at h ⊢ <;> rw [hcodec] at htype
  · left
    have hdone := wrote_header htype.2 (by rintro ⟨⟩) rfl h
    change WritesAs event m result (.ok _)
    simpa using hdone
  · cases h
  · left
    have hframe := wrote_frame hcached htype.2
    rw [htype.1] at hframe
    change (if !m.videoSequenceHeaderSeen then .ok (.ok m) else .ok _ :
      Except FlvMuxerError (Panics FlvMuxer)) = .ok result at h
    split_ifs at h with hseen <;> cases h
    · exact ⟨_, _, rfl, by simp [hseen]; rfl,
        .dropped ⟨htype.2, .inr (.inl ⟨hvideo, by simpa using hseen⟩)⟩⟩
    · change WritesAs event m _ (.ok _)
      simpa [hseen] using hframe
  · change (if !m.videoSequenceHeaderSeen || m.waitingForVideoKeyframe then .ok (.ok m) else .ok _ :
      Except FlvMuxerError (Panics FlvMuxer)) = .ok result at h
    split_ifs at h with hdrop <;> cases h
    · refine .inl ⟨_, _, rfl, by simp [hdrop]; rfl, .dropped ⟨htype.2, ?_⟩⟩
      rcases (Bool.or_eq_true _ _).mp hdrop with hseen | hwaiting
      · exact .inr (.inl ⟨hvideo, by simpa using hseen⟩)
      · exact .inl ⟨hwaiting, fun _ heq => by cases hmuxer.symm.trans heq⟩
    · rw [Bool.not_eq_true, Bool.or_eq_false_iff, Bool.not_eq_false'] at hdrop
      obtain ⟨hseen, hwaiting⟩ := hdrop
      rcases Option.eq_none_or_eq_some m.firstMediaTimestampMs with hfirst | ⟨firstMs, hfirst⟩
      · refine .inr ⟨hseen, hwaiting, hfirst, .expect, ?_⟩
        rw [writeNormalizedTag, hfirst]
        rfl
      · have hframe := wrote_frame hcached htype.2
        rw [htype.1, not_waiting (by simp [hwaiting]),
          startIfNeeded_of_some (by rw [hfirst]; rfl), bind_ok] at hframe
        left
        change WritesAs event m _ (.ok _)
        simpa [hseen, hwaiting] using hframe

/-- **What a write does.** It panics only for a frame without a first timestamp, once a keyframe has
ended the wait. -/
theorem write_cases (h : m.write event = .ok result) :
    WritesAs event m result (m.projectedBytes event) ∨ m.videoSequenceHeaderSeen = true ∧
      m.waitingForVideoKeyframe = false ∧ m.firstMediaTimestampMs = none ∧ ∃ e,
        result = .error e := by
  unfold write at h
  unfold projectedBytes
  cases hkind : event.kind with
  | metadata =>
    rw [hkind] at h
    dsimp only at h ⊢
    rw [writeMetadata, validateSize_ok event.payload_le] at h
    rw [projectedMetadataSize, validateSize_ok event.payload_le]
    cases h
    exact .inl ⟨_, _, writeTag_eq event.payload_le, rfl, .metadata hkind⟩
  | aacSequenceHeader | audio =>
    rw [hkind] at h
    exact .inl (writeAudio_cases hcached (by rw [hkind]; rfl) h)
  | avcSequenceHeader | hevcSequenceHeader | av1SequenceHeader | videoKeyframe
  | videoInterframe | videoDisposable =>
    rw [hkind] at h
    exact writeVideo_cases hcached (by rw [hkind]; rfl) h

end writes

/-! ## What a write keeps -/

namespace Muxing

variable {m : FlvMuxer} {waiting : Bool} {timestampMs : UInt32}

/-- The flags that say what was seen may change, as long as media has started if they ask for it. -/
theorem noted (h : m.Muxing) {aac video : Bool}
    (hstarted : video = true → waiting = false → m.firstMediaTimestampMs.isSome = true) :
    Muxing { m with
      aacSequenceHeaderSeen := aac
      videoSequenceHeaderSeen := video
      waitingForVideoKeyframe := waiting } :=
  ⟨h.writer, h.headerStart, h.flags, h.valid, h.cached, hstarted, h.opened, h.stamps, h.first⟩

variable {tagType : FlvTagType} {payload : Bytes}

variable (h : m.Muxing)
include h

theorem cacheCodecHeader (htype : tagType ≠ .metadata) (hvalid : ValidPayload tagType payload) :
    (m.cacheCodecHeader tagType timestampMs payload).Muxing := by
  refine ⟨h.writer, h.headerStart, h.flags, h.valid, ?_, h.started, h.opened, h.stamps, h.first⟩
  intro header hmem
  rcases mem_append.mp hmem with hold | hnew
  · exact h.cached header (mem_of_mem_eraseP hold)
  · obtain rfl := mem_singleton.mp hnew
    exact ⟨htype, hvalid⟩

theorem drop_pushed : (m.pushed tags).log.drop m.opened = m.log.drop m.opened ++ tags :=
  drop_append_of_le_length h.opened

/-- Writing tags, with the start of media as `first`. -/
theorem pushed {first : Option UInt32} {headers : List CachedCodecHeader}
    (hstarted : m.videoSequenceHeaderSeen = true → waiting = false → first.isSome = true)
    (hheaders : ∀ header ∈ headers, header ∈ m.cachedCodecHeaders)
    (hvalid : ∀ t ∈ tags, ValidPayload t.tagType t.payload)
    (hkept : m.firstMediaTimestampMs.isSome = true → first = m.firstMediaTimestampMs)
    (hstamps : ∀ t ∈ tags, t.tagType ≠ .metadata → StampOf m.timestampBaseMs first t)
    (hfirst : first = m.firstMediaTimestampMs.or ((tags.find? live).map arrivedMs)) :
    Muxing (FlvMuxer.pushed tags { m with
        firstMediaTimestampMs := first
        cachedCodecHeaders := headers
        waitingForVideoKeyframe := waiting }) where
  writer := by
    obtain ⟨flags, hflags⟩ := h.writer
    simp [FlvMuxer.pushed, hflags, flvFile]
  headerStart := h.headerStart
  flags := by
    simp only [FlvMuxer.pushed, h.flags, flagsOf_append]
  valid := by
    intro t ht
    exact (mem_append.mp ht).elim (h.valid t) (hvalid t)
  cached := fun header hmem => h.cached header (hheaders header hmem)
  started := hstarted
  opened := h.opened.trans (by simp [FlvMuxer.pushed])
  stamps := by
    intro t ht htype
    rcases mem_append.mp (h.drop_pushed ▸ ht) with hold | hnew
    · -- A live tag has the first timestamp of its muxer, so there was one already.
      have hstamp := h.stamps t hold htype
      unfold StampOf at hstamp ⊢
      split_ifs at hstamp ⊢
      · exact hstamp
      · obtain ⟨firstMs, hsome, hstamp⟩ := hstamp
        refine ⟨firstMs, ?_, hstamp⟩
        change first = some firstMs
        rw [hkept (by rw [hsome]; rfl), hsome]
    · exact hstamps t hnew htype
  first := by
    refine hfirst.trans ?_
    change _ = (((FlvMuxer.pushed tags m).log.drop m.opened).find? live).map _
    rw [h.drop_pushed, List.find?_append, h.first, Option.map_or]

/-- The tag of an event, once media has started. -/
theorem mediaTag {event : MediaEvent} {firstMs : UInt32}
    (hfirst : m.firstMediaTimestampMs = some firstMs) :
    (m.pushed [FlvMuxer.mediaTag event m.timestampBaseMs firstMs]).Muxing := by
  refine h.pushed h.started (fun _ hmem => hmem) ?_ (fun _ => rfl) ?_ ?_
  · intro t ht
    obtain rfl := mem_singleton.mp ht
    exact (validPayload event)
  · intro t ht _
    obtain rfl := mem_singleton.mp ht
    exact ⟨firstMs, hfirst, rfl⟩
  · rw [hfirst]
    rfl

theorem wrote {event : MediaEvent} {m' : FlvMuxer} {n : ℕ} (hwrote : Wrote event m m' n) :
    m'.Muxing ∧ m'.writer.length = m.writer.length + n := by
  have hheader : ∀ {tagType}, (m.noted tagType).Muxing ∧ (m.noted tagType).writer = m.writer ∧
      (m.noted tagType).timestampBaseMs = m.timestampBaseMs ∧
      (m.noted tagType).firstMediaTimestampMs = m.firstMediaTimestampMs := by
    intro tagType
    cases tagType
    · exact ⟨h.noted h.started, rfl, rfl, rfl⟩
    · exact ⟨h.noted (fun _ hwaiting => nomatch hwaiting), rfl, rfl, rfl⟩
    · exact ⟨h, rfl, rfl, rfl⟩
  cases hwrote with
  | dropped _ => exact ⟨h, rfl⟩
  | metadata hkind =>
    refine ⟨h.pushed h.started (fun _ hmem => hmem) ?_ (fun _ => rfl) ?_ ?_, length_pushed⟩
    · intro t ht
      obtain rfl := mem_singleton.mp ht
      have hvalid := (validPayload event)
      rwa [hkind] at hvalid
    · intro t ht htype
      obtain rfl := mem_singleton.mp ht
      exact absurd rfl htype
    · cases m.firstMediaTimestampMs <;> rfl
  | @cached tagType hkind htype _ =>
    obtain ⟨hnoted, hwriter, -⟩ := @hheader tagType
    refine ⟨hnoted.cacheCodecHeader htype ?_, congrArg List.length hwriter⟩
    exact tagType_of_headerType hkind ▸ (validPayload event)
  | @header tagType firstMs _ _ hfirst =>
    obtain ⟨hnoted, hwriter, hbase, hfirst'⟩ := @hheader tagType
    refine ⟨?_, by rw [length_pushed, hwriter]; rfl⟩
    rw [← hbase]
    exact hnoted.mediaTag (hfirst'.trans hfirst)
  | @frame firstMs _ hfirst =>
    have hnoted : Muxing { m with waitingForVideoKeyframe := false } :=
      h.noted fun _ _ => by rw [hfirst]; rfl
    exact ⟨hnoted.mediaTag hfirst, length_pushed⟩
  | started hkind hfirst =>
    have htype : event.kind.tagType ≠ .metadata := by
      intro heq
      cases hk : event.kind <;> rw [hk] at hkind heq <;> cases hkind <;> cases heq
    refine ⟨h.pushed (fun _ _ => rfl) (fun _ hmem => absurd hmem not_mem_nil) ?_ ?_ ?_ ?_, ?_⟩
    · intro t ht
      rcases mem_append.mp ht with hold | hnew
      · obtain ⟨header, hmem, rfl⟩ := mem_map.mp hold
        exact (h.cached header hmem).2
      · obtain rfl := mem_singleton.mp hnew
        exact (validPayload event)
    · intro hsome
      rw [hfirst] at hsome
      cases hsome
    · intro t ht _
      rcases mem_append.mp ht with hold | hnew
      · obtain ⟨header, -, rfl⟩ := mem_map.mp hold
        exact rfl
      · obtain rfl := mem_singleton.mp hnew
        exact ⟨event.timestampMs, rfl, rfl⟩
    · have hreplayed : (m.cachedCodecHeaders.map (replay m.timestampBaseMs)).find? live = none := by
        rw [List.find?_eq_none]
        intro t ht
        obtain ⟨header, -, rfl⟩ := mem_map.mp ht
        simp [live, replay]
      rw [hfirst, List.find?_append, hreplayed]
      simp [live, FlvMuxer.mediaTag, htype]
    · rw [length_pushed, map_append, sum_append, map_map]
      rfl

/-- **One write**: an accepted event does not make the muxer panic, and appends as many bytes as the
projected size announced. -/
theorem write {event : MediaEvent} {result : Panics FlvMuxer}
    (hresult : m.write event = .ok result) :
    WritesAs event m result (m.projectedBytes event) := by
  rcases write_cases (fun _ header hmem => (h.cached header hmem).2.1) hresult with
    hwrites | ⟨hseen, hwaiting, hfirst, -⟩
  · exact hwrites
  · have hsome := h.started hseen hwaiting
    rw [hfirst] at hsome
    cases hsome

omit h

/-! ## Closing and resuming -/

theorem close_eq (h : m.Muxing) : m.close = flvFile (flagsOf m.log) m.log := by
  obtain ⟨flags, hwriter⟩ := h.writer
  rw [close, h.headerStart, hwriter, h.flags]
  rfl

theorem new : Muxing (.new []) where
  writer := ⟨0, rfl⟩
  headerStart := rfl
  flags := rfl
  valid := fun _ ht => absurd ht not_mem_nil
  cached := fun _ hmem => absurd hmem not_mem_nil
  started := fun hseen => nomatch hseen
  opened := le_rfl
  stamps := fun _ ht => absurd ht not_mem_nil
  first := rfl

/-- What the inspection finds in a closed file. -/
theorem inspectTail_close (h : m.Muxing) :
    inspectTail m.close = m.log.getLast?.map fun t => (flagsOf m.log, t.stampMs) := by
  rw [h.close_eq]
  rcases eq_nil_or_concat m.log with hnil | ⟨tags, t, htags⟩
  · rw [hnil]
    rfl
  · have hvalid := h.valid t (by rw [htags, concat_eq_append]; simp)
    rw [htags, concat_eq_append, inspectTail_flvFile hvalid.1]
    simp

theorem resume (h : m.Muxing) {lastTimestampMs : UInt32} :
    Muxing (.resume m.close (flagsOf m.log) lastTimestampMs m.log) where
  writer := ⟨flagsOf m.log, h.close_eq⟩
  headerStart := rfl
  flags := rfl
  valid := h.valid
  cached := fun _ hmem => absurd hmem not_mem_nil
  started := fun hseen => nomatch hseen
  opened := le_rfl
  stamps := fun t ht => by
    change t ∈ m.log.drop m.log.length at ht
    rw [drop_length] at ht
    exact absurd ht not_mem_nil
  first := by
    change none = ((m.log.drop m.log.length).find? live).map _
    rw [drop_length]
    rfl

theorem reopen_eq (h : m.Muxing) : m.step .reopen = .ok (m.log.getLast?.elim m fun last =>
    .resume m.close (flagsOf m.log) last.stampMs m.log) := by
  simp only [FlvMuxer.step]
  rw [h.inspectTail_close]
  cases m.log.getLast? <;> rfl

theorem step (h : m.Muxing) (op : FlvOp) : ∃ m', m.step op = .ok m' ∧ m'.Muxing := by
  cases op with
  | write event =>
    simp only [FlvMuxer.step]
    cases hwritten : m.write event with
    | error e => exact ⟨m, rfl, h⟩
    | ok result =>
      obtain ⟨m', n, hm', -, hwrote⟩ := h.write hwritten
      exact ⟨m', hm', (h.wrote hwrote).1⟩
  | reopen =>
    refine ⟨_, h.reopen_eq, ?_⟩
    cases m.log.getLast? with
    | none => exact h
    | some t => exact h.resume

end Muxing

theorem record_muxing {ops : List FlvOp} : ∃ m, record ops = .ok m ∧ m.Muxing :=
  foldlM_keeps (fun _ op h => h.step op) ops _ Muxing.new

/-! ## Recordings -/

theorem flagsOf_eq : flagsOf tags =
      (if tags.any fun t => decide (t.tagType = .audio) then FlvTagType.audio.flag else 0) |||
        (if tags.any fun t => decide (t.tagType = .video) then FlvTagType.video.flag else 0) := by
  induction tags with
  | nil => rfl
  | cons t tags ih =>
    have hcons : flagsOf (t :: tags) = t.tagType.flag ||| flagsOf tags := by
      have hone : flagsOf [t] = t.tagType.flag := UInt8.zero_or
      rw [← hone, ← flagsOf_append]
      rfl
    rw [hcons, ih, any_cons, any_cons]
    cases t.tagType <;> cases tags.any _ <;>
      cases tags.any _ <;> rfl

theorem filterMap_event (h : ∀ t ∈ tags, ValidPayload t.tagType t.payload) :
    (tags.filterMap event?).map (fun e => (e.kind.isVideo, e.timestampMs, e.payload)) =
      (tags.filter fun t => decide (t.tagType ≠ .metadata)).map fun t =>
        (decide (t.tagType = .video), t.stampMs, t.payload) := by
  induction tags with
  | nil => rfl
  | cons t tags ih =>
    have hrest := ih fun t' ht' => h t' (mem_cons_of_mem _ ht')
    rcases t.event_spec (h t mem_cons_self) with
      ⟨htype, hevent⟩ | ⟨event, hevent, htype, -, hvideo, hstamp, hpayload⟩
    · rw [filterMap_cons_none hevent, filter_cons_of_neg (by simp [htype]), hrest]
    · rw [filterMap_cons_some hevent, filter_cons_of_pos (by simp [htype]), map_cons,
        map_cons, hrest, hstamp, hpayload]
      congr 2
      rw [Bool.eq_iff_iff, hvideo, decide_eq_true_iff]

/-- **Recordings can be read back.** However often the file is closed and resumed, no write panics,
it appends what was announced, and the event is dropped, cached or logged as `Wrote` says. The
closed file is parsed to the media payloads of the log, or has more than the parser returns; their
timestamps, the flags of the header and the inspection are right. -/
theorem record_readable (ops : List FlvOp) : ∃ m, record ops = .ok m ∧
      (∀ event result, m.write event = .ok result → ∃ m' n, result = .ok m' ∧
        m.projectedBytes event = .ok n ∧ m'.writer.length = m.writer.length + n ∧
        Wrote event m m' n) ∧
      (if (m.log.filter fun t => decide (t.tagType ≠ .metadata)).length ≤ maxVodEvents then
        ∃ events, parseFlvEvents m.close Duration.maximum = .ok events ∧
          events.map (fun e => (e.kind.isVideo, e.timestampMs, e.payload)) =
            (m.log.filter fun t => decide (t.tagType ≠ .metadata)).map fun t =>
              (decide (t.tagType = .video), t.stampMs, t.payload)
      else parseFlvEvents m.close Duration.maximum = .error .tooLarge) ∧
      m.firstMediaTimestampMs = ((m.log.drop m.opened).find? live).map arrivedMs ∧
      (∀ t ∈ m.log.drop m.opened, t.tagType ≠ .metadata →
        if t.replayed then t.stampMs = m.timestampBaseMs
        else ∃ firstMs, m.firstMediaTimestampMs = some firstMs ∧ t.stampMs =
            saturatingAdd32 m.timestampBaseMs (relativeTimestamp firstMs t.arrivedMs)) ∧
      m.close.getD 4 0 =
        (if m.log.any fun t => decide (t.tagType = .audio) then FlvTagType.audio.flag else 0) |||
          (if m.log.any fun t => decide (t.tagType = .video) then FlvTagType.video.flag else 0) ∧
      (m.log ≠ [] → (inspectTail m.close).isSome = true) := by
  obtain ⟨m, hm, h⟩ := record_muxing
  refine ⟨m, hm, ?_, ?_, h.first, h.stamps, ?_, ?_⟩
  · intro event result hresult
    obtain ⟨m', n, hm', hn, hwrote⟩ := h.write hresult
    exact ⟨m', n, hm', hn, (h.wrote hwrote).2, hwrote⟩
  · have hparse := parseFlvEvents_flvFile (flagsOf m.log) h.valid
    have hevents := filterMap_event h.valid
    have hcount := congrArg List.length hevents
    rw [length_map, length_map] at hcount
    rw [h.close_eq, hparse, hcount]
    split_ifs
    · exact ⟨_, rfl, hevents⟩
    · rfl
  · rw [h.close_eq, ← flagsOf_eq]
    rfl
  · intro hlog
    rw [h.inspectTail_close, Option.isSome_map]
    exact Option.isSome_iff_ne_none.mpr (by simpa using hlog)

/-! ## Resuming -/

theorem le_saturatingAdd32 {a b : UInt32} : a ≤ saturatingAdd32 a b := by
  rw [saturatingAdd32, UInt32.le_iff_toNat_le, UInt32.toNat_ofNat']
  have := a.toNat_lt
  omega

/-- A write adds tags that are not before the base. -/
theorem Wrote.log {event : MediaEvent} {m' : FlvMuxer} {n : ℕ} (h : Wrote event m m' n) :
    m'.timestampBaseMs = m.timestampBaseMs ∧ m'.opened = m.opened ∧
      (m.firstMediaTimestampMs.isSome = true → m'.firstMediaTimestampMs.isSome = true) ∧
      ∃ tags, m'.log = m.log ++ tags ∧ ∀ t ∈ tags, m.timestampBaseMs ≤ t.stampMs := by
  have hmedia : ∀ {firstMs}, ∀ t ∈ [mediaTag event m.timestampBaseMs firstMs],
      m.timestampBaseMs ≤ t.stampMs := by
    intro firstMs t ht
    obtain rfl := mem_singleton.mp ht
    exact le_saturatingAdd32
  cases h with
  | dropped _ => exact ⟨rfl, rfl, id, [], (append_nil _).symm, nofun⟩
  | metadata _ => exact ⟨rfl, rfl, id, _, rfl, by simp⟩
  | @cached tagType _ _ _ => cases tagType <;> exact ⟨rfl, rfl, id, [], (append_nil _).symm, nofun⟩
  | @header tagType _ _ _ _ => cases tagType <;> exact ⟨rfl, rfl, id, _, rfl, hmedia⟩
  | frame _ _ => exact ⟨rfl, rfl, id, _, rfl, hmedia⟩
  | started _ _ =>
    refine ⟨rfl, rfl, fun _ => rfl, _, rfl, fun t ht => ?_⟩
    rcases mem_append.mp ht with hold | hnew
    · obtain ⟨header, -, rfl⟩ := mem_map.mp hold
      exact UInt32.le_refl _
    · exact hmedia t hnew

/-- A muxer whose file began with these tags, the last of which has this timestamp: none of the
others is before it. -/
structure Since (old : List WrittenTag) (stampMs : UInt32) (m : FlvMuxer) : Prop where
  muxing : m.Muxing
  base : stampMs ≤ m.timestampBaseMs
  last : ∃ t, old.getLast? = some t ∧ t.stampMs = stampMs
  log : ∃ tags, m.log = old ++ tags ∧ ∀ t ∈ tags, stampMs ≤ t.stampMs

theorem Since.step {old : List WrittenTag} {stampMs : UInt32} (h : Since old stampMs m)
    (op : FlvOp) :
    ∃ m', m.step op = .ok m' ∧ Since old stampMs m' := by
  obtain ⟨tags, hlog, hstamps⟩ := h.log
  obtain ⟨m', hstep, hmuxing⟩ := h.muxing.step op
  refine ⟨m', hstep, ?_⟩
  cases op with
  | write event =>
    simp only [FlvMuxer.step] at hstep
    cases hwritten : m.write event with
    | error e =>
      rw [hwritten] at hstep
      cases hstep
      exact h
    | ok result =>
      obtain ⟨m₁, n, rfl, -, hwrote⟩ := h.muxing.write hwritten
      rw [hwritten] at hstep
      cases hstep
      obtain ⟨hbase, -, -, tags', hlog', hstamps'⟩ := hwrote.log
      refine ⟨hmuxing, hbase ▸ h.base, h.last, tags ++ tags', ?_, fun t ht => ?_⟩
      · rw [hlog', hlog, append_assoc]
      · exact (mem_append.mp ht).elim (hstamps t) fun ht => UInt32.le_trans h.base (hstamps' t ht)
  | reopen =>
    rw [h.muxing.reopen_eq] at hstep
    cases hlast : m.log.getLast? with
    | none =>
      rw [hlast] at hstep
      cases hstep
      exact h
    | some t =>
      rw [hlast] at hstep
      cases hstep
      refine ⟨hmuxing, ?_, h.last, tags, hlog, hstamps⟩
      -- the last tag is one of those since, or the last of the file as it was
      obtain ⟨t', hold, hstamp⟩ := h.last
      rw [hlog, getLast?_append] at hlast
      cases htags : tags.getLast? with
      | none =>
        rw [htags, Option.none_or, hold] at hlast
        cases hlast
        exact UInt32.le_of_eq hstamp.symm
      | some t₁ =>
        rw [htags] at hlast
        cases hlast
        exact hstamps _ (mem_of_getLast? htags)

/-- An audio event of a codec without headers. -/
def speexAt (timestampMs : UInt32) : MediaEvent :=
  ⟨.audio, timestampMs, [0xb2], none, none, none, Nat.le_of_ble_eq_true rfl,
    MediaEvent.classified_audio rfl⟩

/-- A video event of the legacy AVC codec, whose sequence header and keyframe these are. -/
def avcAt (kind : MediaEventKind) (packetType : UInt8) (timestampMs : UInt32)
    (h : Rtmp.classifyVideo [0x17, packetType, 0, 0, 0, 1] = .ok (kind, .avc, .flv 7)) :
      MediaEvent :=
  ⟨kind, timestampMs, [0x17, packetType, 0, 0, 0, 1], none, some .avc, some (.flv 7),
    Nat.le_of_ble_eq_true rfl, MediaEvent.classified_video h⟩

theorem record_replicate {n : ℕ} :
    ∃ m, record (replicate n (.write (speexAt 0))) = .ok m ∧ m.cachedCodecHeaders = [] ∧
      m.waitingForVideoKeyframe = false ∧
      (m.log.filter fun t => decide (t.tagType ≠ .metadata)).length = n := by
  induction n with
  | zero => exact ⟨_, rfl, rfl, rfl, rfl⟩
  | succ n ih =>
    obtain ⟨m, hm, hcached, hwaiting, hcount⟩ := ih
    have hwrite : m.write (speexAt 0) =
        .ok (m.startIfNeeded 0 >>= writeNormalizedTag .audio 0 [0xb2]) := by
      have hkind : classifyAudio [0xb2] = .ok .media := rfl
      rw [show m.write (speexAt 0) = m.writeAudio 0 [0xb2] from rfl, writeAudio,
        validateSize_ok (by decide), hkind]
      simp only [hwaiting, reduceCtorEq, if_false]
      rfl
    have hrecord : record (replicate (n + 1) (.write (speexAt 0))) =
        m.startIfNeeded 0 >>= writeNormalizedTag .audio 0 [0xb2] := by
      unfold record at hm ⊢
      rw [replicate_succ', foldlM_append, hm, bind_ok, foldlM_cons, step, hwrite]
      exact bind_pure _
    have hsmall : ([0xb2] : Bytes).length ≤ maxFlvTagDataSize := by decide
    rw [hrecord]
    cases hfirst : m.firstMediaTimestampMs with
    | none =>
      have hbegun : (m.begun 0).firstMediaTimestampMs = some 0 := rfl
      rw [startIfNeeded_of_none hfirst (by simp [hcached]), bind_ok,
        writeNormalizedTag_eq hbegun hsmall]
      refine ⟨_, rfl, rfl, hwaiting, ?_⟩
      rw [← hcount]
      simp [pushed, begun, hcached]
    | some firstMs =>
      rw [startIfNeeded_of_some (by rw [hfirst]; rfl), bind_ok, writeNormalizedTag_eq hfirst hsmall]
      refine ⟨_, rfl, hcached, hwaiting, ?_⟩
      rw [← hcount]
      simp [pushed]

/-- A file without a tag is not resumed, a header may be replayed before its time, timestamps end at
the largest one, and more events than the parser returns are refused. -/
theorem record_limits : (∃ m, record [] = .ok m ∧ inspectTail m.close = none) ∧
      (∃ m t, record [.write (avcAt .avcSequenceHeader 0 100 rfl),
            .write (avcAt .videoKeyframe 1 50 rfl)] = .ok m ∧ t ∈ m.log ∧
          m.firstMediaTimestampMs = some 50 ∧ t.arrivedMs = 100 ∧ m.timestampBaseMs = 0 ∧
          relativeTimestamp 50 100 = 50 ∧ t.stampMs = 0) ∧
      (∃ m t, record [.write (speexAt 0), .write (speexAt 2147483647), .reopen,
            .write (speexAt 0), .write (speexAt 2147483647), .reopen,
            .write (speexAt 0), .write (speexAt 2147483647)] = .ok m ∧ t ∈ m.log.drop m.opened ∧
          m.firstMediaTimestampMs = some 0 ∧ t.arrivedMs = 2147483647 ∧
          m.timestampBaseMs = 4294967294 ∧ relativeTimestamp 0 2147483647 = 2147483647 ∧
          t.stampMs = 4294967295) ∧ (∃ ops m, record ops = .ok m ∧
        parseFlvEvents m.close Duration.maximum = .error .tooLarge) := by
  refine ⟨⟨_, rfl, rfl⟩, ?_, ?_, ?_⟩
  · exact ⟨_, ⟨.video, [0x17, 0, 0, 0, 0, 1], 0, 100, true⟩, rfl, by decide, rfl, rfl, rfl,
      rfl, rfl⟩
  · exact ⟨_, ⟨.audio, [0xb2], 4294967295, 2147483647, false⟩, rfl, by decide, rfl, rfl, rfl,
      rfl, rfl⟩
  · obtain ⟨m, hm, -, -, hcount⟩ := record_replicate
    obtain ⟨m', hm', h⟩ := record_muxing
    rw [hm] at hm'
    cases hm'
    refine ⟨_, m, hm, ?_⟩
    have hlength := congrArg List.length (filterMap_event h.valid)
    rw [length_map, length_map, hcount] at hlength
    rw [h.close_eq, parseFlvEvents_flvFile _ h.valid, hlength, if_neg (Nat.not_succ_le_self _)]

end FlvMuxer

end Oxiroute.Rtmp
