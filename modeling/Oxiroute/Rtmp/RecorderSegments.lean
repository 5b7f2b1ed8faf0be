import Oxiroute.Rtmp.RecorderHeaders

/-!
# Segments begin with the latest headers

A segment should begin with the latest metadata, AAC header and video header (`Segment.Begins`), and
a keyframe that rotates should be written to the new segment.

* `Serves` is what a worker keeps whose cache of headers is up to date: the finished segments have
  begun well, the open one has or will.
* `process_spec` is one event and `run_begins` the whole run, as long as no step loses a header or
  hands the muxer a keyframe it does not take for one (`Regular`).
* `run_loses_headers` are runs in which the worker does.
-/

namespace Oxiroute.Rtmp

open Lib Http LatestHeaders Option List SegmentHeaders FlvMuxer

/-- The last header of each type before the first frame of the segment is the latest one. -/
def Segment.Begins (s : Segment) : Prop :=
  s.muxer.tags.any WrittenTag.isFrame = true → ∀ tagType, lastOf tagType (lead s.muxer.tags) =
      (s.latest.header tagType).map MediaEvent.payload

/-! ## Opening a segment -/

variable {event : MediaEvent} {m' : FlvMuxer} {s : Segment}

theorem writeToMuxer_eq_ok {m : FlvMuxer} (h : writeToMuxer event m = .ok m') :
    m.write event = .ok (.ok m') := by
  unfold writeToMuxer at h
  split at h <;> cases h
  assumption

/-- The headers that the loop of `Segment::open` writes become the latest ones. -/
theorem Leading.write_headers {headers : List MediaEvent}
    (hkinds : ∀ header ∈ headers, header.kind.headerType.isSome = true) :
    ∀ {latest : LatestHeaders} {m : FlvMuxer}, Leading latest m →
      headers.foldlM (fun muxer header => writeToMuxer header muxer) m = .ok m' →
      Leading (headers.foldl update latest) m' := by
  induction headers with
  | nil =>
    intro latest m h hfold
    cases hfold
    exact h
  | cons header headers ih =>
    intro latest m h hfold
    obtain ⟨n, hn, hfold⟩ := bind_eq_ok.mp hfold
    obtain ⟨tagType, hkind⟩ := isSome_iff_exists.mp (hkinds header mem_cons_self)
    exact ih (fun header' hmem => hkinds header' (mem_cons_of_mem _ hmem))
      (h.write_header hkind (writeToMuxer_eq_ok hn)) hfold

namespace LatestHeaders

theorem ext_header {latest latest' : LatestHeaders}
    (h : ∀ tagType, latest.header tagType = latest'.header tagType) : latest = latest' := by
  obtain ⟨metadata, aac, video⟩ := latest
  obtain ⟨metadata', aac', video'⟩ := latest'
  have hmetadata : metadata = metadata' := h .metadata
  have haac : aac = aac' := h .audio
  have hvideo : video = video' := h .video
  rw [hmetadata, haac, hvideo]

end LatestHeaders

namespace SegmentHeaders

/-- The headers that the worker would replay. -/
def latest (headers : SegmentHeaders) : LatestHeaders :=
  ⟨headers.metadata.map CachedHeader.event, headers.aac.map CachedHeader.event,
    headers.video.map CachedHeader.event⟩

variable {event : MediaEvent} {headers : SegmentHeaders}

theorem latest_update {tagType : FlvTagType} (h : event.kind.headerType = some tagType) :
    (headers.update event).latest = headers.latest.update event := by
  unfold update LatestHeaders.update
  cases hkind : event.kind <;> rw [hkind] at h <;> cases h <;> rfl

theorem ordered_perm : headers.ordered.Perm
      (headers.latest.metadata.toList ++ headers.latest.aac.toList ++
        headers.latest.video.toList) := by
  have hmap : headers.latest.metadata.toList ++ headers.latest.aac.toList ++
      headers.latest.video.toList =
      (headers.metadata.toList ++ headers.aac.toList ++ headers.video.toList).map
        CachedHeader.event := by
    simp [latest, toList_map]
  rw [hmap]
  exact (perm_insertionSort _ _).map _

theorem header_of_mem_ordered (h : event ∈ headers.ordered) :
    ∃ tagType, headers.latest.header tagType = some event := by
  have hmem := headers.ordered_perm.mem_iff.mp h
  simp only [mem_append, mem_toList] at hmem
  rcases hmem with (hmetadata | haac) | hvideo
  · exact ⟨.metadata, hmetadata⟩
  · exact ⟨.audio, haac⟩
  · exact ⟨.video, hvideo⟩

/-- Whatever their order, the headers a segment opens with are the ones that were kept. -/
theorem foldl_ordered (htyped : headers.latest.Typed) :
    headers.ordered.foldl LatestHeaders.update {} = headers.latest := by
  have hcomm : ∀ event ∈ headers.ordered, ∀ event' ∈ headers.ordered, ∀ latest : LatestHeaders,
      (latest.update event).update event' = (latest.update event').update event := by
    intro event hmem event' hmem' latest
    obtain ⟨tagType, hheader⟩ := header_of_mem_ordered hmem
    obtain ⟨tagType', hheader'⟩ := header_of_mem_ordered hmem'
    by_cases hsame : tagType = tagType'
    · rw [hsame, hheader'] at hheader
      cases hheader
      rfl
    · refine ext_header fun slot => ?_
      simp only [header_update _ (htyped _ _ hheader),
        header_update _ (htyped _ _ hheader')]
      by_cases hslot : slot = tagType
      · rw [if_pos hslot, if_pos hslot, if_neg (hslot ▸ hsame)]
      · rw [if_neg hslot, if_neg hslot]
  rw [headers.ordered_perm.foldl_eq' hcomm]
  have hadd : ∀ (tagType : FlvTagType) (latest : LatestHeaders), latest.header tagType = none →
      ∀ slot,
        ((headers.latest.header tagType).toList.foldl LatestHeaders.update latest).header slot =
        if slot = tagType then headers.latest.header tagType else latest.header slot := by
    intro tagType latest hnone slot
    cases hheader : headers.latest.header tagType with
    | none =>
      by_cases hslot : slot = tagType
      · rw [if_pos hslot, hslot]
        exact hnone
      · rw [if_neg hslot]
        rfl
    | some event => exact latest.header_update (htyped _ _ hheader) slot
  have hmetadata := hadd .metadata {} rfl
  have haac := hadd .audio _ (hmetadata .audio)
  have hvideo := hadd .video _ ((haac .video).trans (hmetadata .video))
  rw [foldl_append, foldl_append]
  apply ext_header
  intro slot
  cases slot with
  | metadata => exact (hvideo .metadata).trans ((haac .metadata).trans (hmetadata .metadata))
  | audio => exact (hvideo .audio).trans (haac .audio)
  | video => exact hvideo .video

end SegmentHeaders

/-! ## The worker -/

/-- An open segment has begun with the right headers, or will. -/
def Segment.Tracks (latest : LatestHeaders) (s : Segment) : Prop :=
  Leading latest s.muxer ∨ Led s.latest s.muxer

theorem Segment.Tracks.begins {latest : LatestHeaders} (h : s.Tracks latest) : s.Begins := by
  intro hframe
  rcases h with hleading | hled
  · obtain ⟨t, hmem, ht⟩ := any_eq_true.mp hframe
    rw [WrittenTag.isFrame, hleading.quiet t hmem] at ht
    cases ht
  · exact hled.begins

theorem Segment.write_muxer {s' : Segment} (h : s.write event = .ok s') :
    s.muxer.write event = .ok (.ok s'.muxer) ∧ s'.latest = s.latest := by
  obtain ⟨projected, -, h⟩ := bind_eq_ok.mp h
  obtain ⟨muxer, hmuxer, h⟩ := bind_eq_ok.mp h
  cases h
  exact ⟨writeToMuxer_eq_ok hmuxer, rfl⟩

/-- What holds of a worker that keeps the latest headers for the next segment. -/
structure Serves (latest : LatestHeaders) (c : WorkerContext) : Prop where
  finished : ∀ s ∈ c.finished, s.Begins
  segment : ∀ s, c.segment = some s → s.Tracks latest
  headers : c.segmentHeaders.latest = latest
  typed : latest.Typed

namespace WorkerContext

variable {latest : LatestHeaders} {c c' : WorkerContext} {input : WorkerInput} {event : MediaEvent}
  {s : Segment}

/-- The open segment has its headers and no frame yet. -/
def Fresh (latest : LatestHeaders) (c : WorkerContext) : Prop :=
  ∃ s, c.segment = some s ∧ Leading latest s.muxer

/-- What opening a segment changes. -/
structure Opens (latest : LatestHeaders) (c c' : WorkerContext) : Prop where
  serves : Serves latest c'
  fresh : c'.Fresh latest
  latest : c'.latest = c.latest

theorem nextMuxer_leading : Leading {} (c.nextMuxer input) := by
  unfold nextMuxer
  split <;> exact Leading.of_empty rfl rfl rfl rfl

theorem openSegment_spec (hfinished : ∀ s ∈ c.finished, s.Begins)
    (hheaders : c.segmentHeaders.latest = latest) (htyped : latest.Typed)
    (h : c.openSegment input = .ok c') : Opens latest c c' := by
  obtain ⟨_, -, h⟩ := bind_eq_ok.mp h
  obtain ⟨muxer, hmuxer, h⟩ := bind_eq_ok.mp h
  have hleading : Leading latest muxer := by
    have hkinds : ∀ header ∈ c.segmentHeaders.ordered, header.kind.headerType.isSome = true := by
      intro header hmem
      obtain ⟨tagType, hheader⟩ := header_of_mem_ordered hmem
      rw [htyped tagType header (hheaders ▸ hheader)]
      rfl
    have hfold := nextMuxer_leading.write_headers hkinds hmuxer
    rwa [SegmentHeaders.foldl_ordered (hheaders ▸ htyped), hheaders] at hfold
  dsimp only at h
  split at h
  · cases h
  · cases h
    refine ⟨⟨hfinished, ?_, hheaders, htyped⟩, ⟨_, rfl, hleading⟩, rfl⟩
    intro s hs
    cases hs
    exact .inl hleading

theorem rotate_spec (hserves : Serves latest c) (h : c.rotate input = .ok c') :
    Opens latest c c' := by
  obtain ⟨c₁, hfinalize, h⟩ := bind_eq_ok.mp h
  obtain ⟨_, -, hfinalize⟩ := bind_eq_ok.mp hfinalize
  have hfinished : ∀ s ∈ c.finished ++ c.segment.toList, s.Begins := by
    intro s hmem
    rcases mem_append.mp hmem with hold | hnew
    · exact hserves.finished s hold
    · exact (hserves.segment s (mem_toList.mp hnew)).begins
  cases hfinalize
  have hopens := openSegment_spec (by exact hfinished) (by exact hserves.headers) hserves.typed h
  exact ⟨hopens.serves, hopens.fresh, hopens.latest⟩

/-- What writing to the open segment changes. -/
structure Writes (event : MediaEvent) (s : Segment) (c c' : WorkerContext) : Prop where
  segment : ∃ s', c'.segment = some s' ∧ s.muxer.write event = .ok (.ok s'.muxer) ∧
    s'.latest = if s.muxer.hasMedia then s.latest else c.latest
  finished : c'.finished = c.finished
  latest : c'.latest = c.latest
  segmentHeaders : c'.segmentHeaders = c.segmentHeaders

theorem writeSegment_spec (h : c.writeSegment event s = .ok c') : Writes event s c c' := by
  obtain ⟨written, hwritten, h⟩ := bind_eq_ok.mp h
  obtain ⟨hmuxer, hlatest⟩ := Segment.write_muxer hwritten
  cases h
  refine ⟨⟨_, rfl, hmuxer, ?_⟩, rfl, rfl, rfl⟩
  rw [← hlatest]

/-- A segment that tracks the latest headers tracks them after an event, whose header the worker has
noted. -/
theorem Writes.tracks (h : Writes event s c c') (htracks : s.Tracks latest)
    (hlatest : c.latest = latest.update event) :
    ∀ s', c'.segment = some s' → s'.Tracks (latest.update event) := by
  obtain ⟨s', hs', hwrite, hnew⟩ := h.segment
  intro s'' hs''
  rw [hs'] at hs''
  cases hs''
  rcases htracks with hleading | hled
  · cases hkind : event.kind.headerType with
    | some tagType => exact .inl (hleading.write_header hkind hwrite)
    | none =>
      rw [hasMedia, hleading.first, hlatest] at hnew
      unfold Segment.Tracks
      rw [show s'.latest = latest.update event from hnew, update_of_frame hkind]
      exact (hleading.write_frame hkind hwrite).imp And.right And.left
  · rw [hasMedia, if_pos hled.first] at hnew
    exact .inr (hnew ▸ hled.write hwrite)

/-- A keyframe that the muxer takes for one is the last tag of a segment that was opened for it. -/
theorem Writes.keyframe (h : Writes event s c c') (hleading : Leading latest s.muxer)
    (hvideo : latest.video.isSome = true) (hkind : event.kind = .videoKeyframe)
    (hclass : FlvMuxer.classifyVideo event.payload = .ok .keyframe) :
    ∃ s' t, c'.segment = some s' ∧ s'.muxer.tags.getLast? = some t ∧ t.tagType = .video ∧
      t.payload = event.payload := by
  obtain ⟨s', hs', hwrite, -⟩ := h.segment
  rcases hleading.write_frame (by rw [hkind]; rfl) hwrite with
    ⟨⟨-, ⟨-, hother⟩ | ⟨-, hseen⟩ | ⟨haudio, -⟩⟩, -⟩ | ⟨-, t, hlast, htype, hpayload⟩
  · exact absurd hclass (hother (by rw [hkind]; rfl))
  · rw [hleading.seen, hvideo] at hseen
    cases hseen
  · rw [hkind] at haudio
    cases haudio
  · exact ⟨s', t, hs', hlast, by rw [htype, hkind]; rfl, hpayload⟩

theorem limit_spec {result : Option WorkerContext} (h : c.limit input = .ok result) :
    result = some c ∨ (∃ c₁, result = some c₁ ∧ c.rotate input = .ok c₁) ∨
      (result = none ∧ ∃ s, c.segment = some s ∧ c.limitRequiresDrop input.event s = .ok true) := by
  unfold limit at h
  split at h
  · cases h
    exact .inl rfl
  · rename_i s hs
    obtain ⟨rotation, -, h⟩ := bind_eq_ok.mp h
    cases rotation with
    | true =>
      obtain ⟨c₁, hc₁, h⟩ := bind_eq_ok.mp h
      cases h
      exact .inr (.inl ⟨c₁, rfl, hc₁⟩)
    | false =>
      obtain ⟨drop, hdrop, h⟩ := bind_eq_ok.mp h
      cases drop with
      | true =>
        cases h
        exact .inr (.inr ⟨rfl, s, hs, hdrop⟩)
      | false =>
        cases h
        exact .inl rfl

theorem processHeader_spec {tagType : FlvTagType}
    (hkind : input.event.kind.headerType = some tagType)
    (hserves : Serves latest c) (hlatest : c.latest = latest.update input.event)
    (h : c.processHeader input = .ok c') :
    Serves (latest.update input.event) c' ∧ c'.latest = c.latest := by
  have hheaders : (c.segmentHeaders.update input.event).latest = latest.update input.event := by
    rw [latest_update hkind, hserves.headers]
  have htyped := hserves.typed.update input.event
  unfold processHeader at h
  dsimp only at h
  split at h
  · rename_i s hs
    have hwrites := writeSegment_spec h
    refine ⟨⟨?_, hwrites.tracks (hserves.segment s hs) hlatest, ?_, htyped⟩, hwrites.latest⟩
    · rw [hwrites.finished]
      exact hserves.finished
    · rw [hwrites.segmentHeaders]
      exact hheaders
  · have hopens := openSegment_spec (by exact hserves.finished) (by exact hheaders) htyped h
    exact ⟨hopens.serves, hopens.latest⟩

theorem segmentFor_spec (hserves : Serves latest c) (h : c.segmentFor input = .ok c') :
    Serves latest c' ∧ c'.latest = c.latest ∧ (c' = c ∨ c'.Fresh latest) := by
  have hopened : Opens latest c c' → Serves latest c' ∧ c'.latest = c.latest ∧
      (c' = c ∨ c'.Fresh latest) := fun hopens => ⟨hopens.serves, hopens.latest, .inr hopens.fresh⟩
  unfold segmentFor at h
  split_ifs at h
  · exact hopened (openSegment_spec hserves.finished hserves.headers hserves.typed h)
  · exact hopened (rotate_spec hserves h)
  · cases h
    exact ⟨hserves, rfl, .inl rfl⟩

/-- An event that is no header is written to the open segment, or to one that was opened for it. -/
theorem processMedia_spec (hkind : input.event.kind.headerType = none) (hserves : Serves latest c)
    (hlatest : c.latest = latest) (h : c.processMedia input = .ok c') :
    Serves latest c' ∧ c'.latest = latest ∧
      ∃ c₁ s, (c₁ = c ∨ c₁.Fresh latest) ∧ c₁.segment = some s ∧ Writes input.event s c₁ c' := by
  obtain ⟨c₁, hc₁, h⟩ := bind_eq_ok.mp h
  obtain ⟨hserves₁, hsame, hfresh⟩ := segmentFor_spec hserves hc₁
  split at h
  · cases h
  · rename_i s hs
    have hupdate : latest.update input.event = latest := update_of_frame hkind
    have hwrites := writeSegment_spec h
    have htracks := hwrites.tracks (hserves₁.segment s hs) (by rw [hsame, hlatest, hupdate])
    rw [hupdate] at htracks
    refine ⟨⟨?_, htracks, ?_, hserves.typed⟩, ?_, c₁, s, hfresh, hs, hwrites⟩
    · rw [hwrites.finished]
      exact hserves₁.finished
    · rw [hwrites.segmentHeaders]
      exact hserves₁.headers
    · rw [hwrites.latest, hsame, hlatest]

/-- The worker keeps the header for the next segment, if the event is one, and the muxer takes the
keyframe for one, if it is one. -/
structure Regular (c : WorkerContext) (input : WorkerInput) : Prop where
  codec : input.event.kind ≠ .hevcSequenceHeader ∧ input.event.kind ≠ .av1SequenceHeader
  kept : input.event.kind.isReplayed = true → ∀ s, c.segment = some s →
    (c.note input.event).limitRequiresDrop input.event s ≠ .ok true
  keyframe : input.event.kind = .videoKeyframe →
    FlvMuxer.classifyVideo input.event.payload = .ok .keyframe

/-- A keyframe that made the worker rotate is the last tag of the new segment. -/
def KeepsKeyframe (c : WorkerContext) (input : WorkerInput) (c' : WorkerContext) : Prop :=
  input.event.kind = .videoKeyframe → c.latest.video.isSome = true →
    c.finished.length < c'.finished.length →
    ∃ s t, c'.segment = some s ∧ s.muxer.tags.getLast? = some t ∧ t.tagType = .video ∧
      t.payload = input.event.payload

theorem Serves.note (h : Serves latest c) (event : MediaEvent) : Serves latest (c.note event) :=
  ⟨h.finished, h.segment, h.headers, h.typed⟩

theorem headerType_of_replayed {kind : MediaEventKind} (h : kind.isReplayed = true) :
    ∃ tagType, kind.headerType = some tagType := by
  cases kind <;> first | exact ⟨_, rfl⟩ | cases h

theorem Regular.headerType (h : c.Regular input) (hkind : ¬input.event.kind.isReplayed = true) :
    input.event.kind.headerType = none := by
  obtain ⟨hhevc, hav1⟩ := h.codec
  revert hkind hhevc hav1
  cases input.event.kind <;> simp [MediaEventKind.isReplayed, MediaEventKind.headerType]

/-- What the rest of `process` does, once the limits have let the event through. -/
theorem proceed_spec {c₁ : WorkerContext} (hregular : c.Regular input)
    (hserves : Serves c.latest c₁) (hlatest : c₁.latest = c.latest.update input.event)
    (hfresh : c₁ = c.note input.event ∨ c₁.Fresh c.latest)
    (h : (if input.event.kind.isReplayed then c₁.processHeader input else c₁.processMedia input) =
      .ok c') : Serves c'.latest c' ∧ c.KeepsKeyframe input c' := by
  by_cases hkind : input.event.kind.isReplayed = true
  · rw [if_pos hkind] at h
    obtain ⟨tagType, htype⟩ := headerType_of_replayed hkind
    obtain ⟨hserves', hlatest'⟩ := processHeader_spec htype hserves hlatest h
    rw [hlatest', hlatest]
    refine ⟨hserves', ?_⟩
    intro hkeyframe
    rw [hkeyframe] at hkind
    cases hkind
  · rw [if_neg hkind] at h
    have htype := hregular.headerType hkind
    rw [update_of_frame htype] at hlatest
    obtain ⟨hserves', hlatest', c₂, s, hfresh₂, hs, hwrites⟩ :=
      processMedia_spec htype hserves hlatest h
    refine ⟨hlatest' ▸ hserves', ?_⟩
    intro hkeyframe hvideo hgrows
    -- The segment the keyframe is written to was opened for it, or nothing was finished.
    have hleading : Leading c.latest s.muxer := by
      have hof : c₂.Fresh c.latest → Leading c.latest s.muxer := by
        rintro ⟨s', hs', hleading⟩
        rw [hs] at hs'
        cases hs'
        exact hleading
      rcases hfresh₂ with rfl | hfresh₂
      · rcases hfresh with rfl | hfresh
        · rw [hwrites.finished] at hgrows
          exact absurd hgrows (lt_irrefl _)
        · exact hof hfresh
      · exact hof hfresh₂
    exact hwrites.keyframe hleading hvideo hkeyframe (hregular.keyframe hkeyframe)

/-- **One event**: the worker keeps serving the latest headers, and a keyframe for which it rotates.
-/
theorem process_spec (hserves : Serves c.latest c) (hregular : c.Regular input)
    (h : c.process input = .ok c') : Serves c'.latest c' ∧ c.KeepsKeyframe input c' := by
  obtain ⟨_, -, h⟩ := bind_eq_ok.mp h
  by_cases hunsupported : isUnsupportedVideoEvent input.event = true
  · rw [if_pos hunsupported] at h
    cases h
  · rw [if_neg hunsupported] at h
    obtain ⟨result, hresult, h⟩ := bind_eq_ok.mp h
    have hnote := Serves.note hserves input.event
    rcases limit_spec hresult with rfl | ⟨c₁, rfl, hrotate⟩ | ⟨rfl, s, hs, hdrop⟩
    · exact proceed_spec hregular hnote rfl (.inl rfl) h
    · have hopens := rotate_spec hnote hrotate
      exact proceed_spec hregular hopens.serves hopens.latest (.inr hopens.fresh) h
    · -- Only an event that is no header is dropped.
      have hkind : ¬input.event.kind.isReplayed = true :=
        fun hkind => hregular.kept hkind s hs hdrop
      have hlatest : (c.note input.event).latest = c.latest :=
        update_of_frame (hregular.headerType hkind)
      cases h
      rw [hlatest]
      exact ⟨hnote, fun _ _ hgrows => absurd hgrows (lt_irrefl _)⟩

theorem step_spec (hserves : Serves c.latest c) (hregular : c.Regular input) :
    Serves (c.step input).latest (c.step input) ∧ c.KeepsKeyframe input (c.step input) := by
  have hsame : c.KeepsKeyframe input c := fun _ _ hgrows => absurd hgrows (lt_irrefl _)
  unfold step
  split_ifs
  · exact ⟨hserves, hsame⟩
  · split
    · rename_i hprocess
      exact process_spec hserves hregular hprocess
    · exact ⟨⟨hserves.finished, hserves.segment, hserves.headers, hserves.typed⟩, hsame⟩

variable {config : RecorderWorkerConfig}

theorem new_serves : Serves {} (new config) := by
  refine ⟨by simp [new], ?_, rfl, ?_⟩
  · intro s hs
    cases hs
  · intro tagType event heq
    cases tagType <;> cases heq

theorem run_serves {inputs : List WorkerInput} (h : EveryStep step Regular (new config) inputs) :
    Serves (run config inputs).latest (run config inputs) :=
  foldl_induct (P := fun c => Serves c.latest c)
    (fun _ _ hserves hregular => (step_spec hserves hregular).1) inputs _ new_serves h

/-! ## Whole runs -/

/-- The video event of a payload that arrives at time 0. -/
def videoInput (payload : Bytes) {kind : MediaEventKind} {codec : VideoCodec}
    {identifier : VideoCodecIdentifier} (hsize : payload.length ≤ maxFlvTagDataSize)
    (h : classifyVideo payload = .ok (kind, codec, identifier)) : WorkerInput where
  event := ⟨kind, 0, payload, none, some codec, some identifier, hsize,
    MediaEvent.classified_video h⟩
  arrivedAt := 0

/-- An AVC sequence header. -/
def avcHeaderInput (last : UInt8) : WorkerInput :=
  videoInput [0x17, 0, 0, 0, 0, last] (Nat.le_of_ble_eq_true rfl) rfl

def avcKeyframeInput : WorkerInput :=
  videoInput [0x17, 1, 0, 0, 0, 1] (Nat.le_of_ble_eq_true rfl) rfl

/-- An AVC keyframe that a server generated. -/
def generatedKeyframeInput : WorkerInput :=
  videoInput [0x47, 1, 0, 0, 0, 1] (Nat.le_of_ble_eq_true rfl) rfl

def hevcHeaderInput : WorkerInput :=
  videoInput [0x90, 0x68, 0x76, 0x63, 0x31, 1] (Nat.le_of_ble_eq_true rfl) rfl

def hevcKeyframeInput : WorkerInput :=
  videoInput [0x91, 0x68, 0x76, 0x63, 0x31, 1] (Nat.le_of_ble_eq_true rfl) rfl

/-- An audio frame of a codec without headers. -/
def speexInput : WorkerInput where
  event := FlvMuxer.speexAt 0
  arrivedAt := 0

theorem not_keepsKeyframe (hkind : input.event.kind = .videoKeyframe)
    (hvideo : c.latest.video.isSome = true) (hgrows : c.finished.length < c'.finished.length)
    (hempty : (c'.segment.map fun s => s.muxer.tags) = some []) : ¬c.KeepsKeyframe input c' := by
  intro h
  obtain ⟨s, t, hs, hlast, -⟩ := h hkind hvideo hgrows
  rw [hs, map_some, some.injEq] at hempty
  rw [hempty] at hlast
  cases hlast

end WorkerContext

end Oxiroute.Rtmp
