import Oxiroute.Rtmp.FlvRecording
import Oxiroute.Rtmp.Recorder
import Mathlib.Data.List.TakeWhile

/-!
# The headers at the beginning of a segment

What a muxer writes before its first frame.

* `lead` are the tags before the first frame and `lastOf` the last header of a type among them.
* `Leading` is what holds of a muxer until media starts: its file has metadata only, and its cache
  the latest headers. `Led` is what holds from then on. `Leading.write_header`,
  `Leading.write_frame` and `Led.write` are the steps.
-/

namespace Oxiroute.Rtmp

open Lib Http FlvMuxer MediaEventKind WrittenTag List

/-! ## The beginning of a segment -/

def WrittenTag.isFrame (t : WrittenTag) : Bool :=
  match t.tagType with
  | .metadata => false
  | .audio =>
    match classifyAudio t.payload with
    | .ok .audio => true
    | _ => false
  | .video =>
    match classifyVideo t.payload with
    | .ok (kind, _) => kind.headerCodec.isNone
    | .error _ => false

/-- The tags before the first frame. -/
def lead (tags : List WrittenTag) : List WrittenTag := tags.takeWhile fun t => !t.isFrame

def lastOf (tagType : FlvTagType) (tags : List WrittenTag) : Option Bytes :=
  (tags.filter fun t => decide (t.tagType = tagType)).getLast?.map payload

/-- The latest header that is written as a tag of this type. -/
def LatestHeaders.header (latest : LatestHeaders) : FlvTagType → Option MediaEvent
  | .metadata => latest.metadata
  | .audio => latest.aac
  | .video => latest.video

def FlvMuxer.tags (m : FlvMuxer) : List WrittenTag := m.log.drop m.opened

/-! ## Headers and frames -/

variable {tagType : FlvTagType} {α : Type} {m m' : FlvMuxer}

namespace LatestHeaders

variable {latest : LatestHeaders} {event : MediaEvent}

/-- Each header is of its own type. -/
def Typed (latest : LatestHeaders) : Prop :=
  ∀ tagType event, latest.header tagType = some event → event.kind.headerType = some tagType

theorem update_of_frame (h : event.kind.headerType = none) : latest.update event = latest := by
  unfold update
  cases hkind : event.kind <;> simp [hkind, headerType] at h ⊢

theorem header_update (latest : LatestHeaders) (h : event.kind.headerType = some tagType)
    (tagType' : FlvTagType) : (latest.update event).header tagType' =
      if tagType' = tagType then some event else latest.header tagType' := by
  unfold update
  cases hkind : event.kind <;> rw [hkind] at h <;> cases h <;> cases tagType' <;> rfl

theorem Typed.update (h : latest.Typed) (event : MediaEvent) : (latest.update event).Typed := by
  cases htype : event.kind.headerType with
  | none => rwa [update_of_frame htype]
  | some tagType =>
    intro tagType' event' heq
    rw [header_update latest htype] at heq
    split_ifs at heq with hsame
    · cases heq
      rw [hsame, htype]
    · exact h tagType' event' heq

end LatestHeaders

variable {event : MediaEvent} {tags : List WrittenTag}

/-- A tag with the payload of an event holds a frame exactly when the event is no header. -/
theorem WrittenTag.isFrame_of_event {t : WrittenTag} (htype : t.tagType = event.kind.tagType)
    (hpayload : t.payload = event.payload) : t.isFrame = event.kind.headerType.isNone := by
  unfold isFrame
  rw [htype, hpayload]
  cases hkind : event.kind
  case metadata => rfl
  case aacSequenceHeader | audio =>
    have h := event.classifyAudio_eq (by rw [hkind]; rfl)
    simp only [MediaEventKind.tagType, h, hkind]
    rfl
  all_goals
    obtain ⟨codec, identifier, h⟩ := event.classifyVideo_eq (by rw [hkind]; rfl)
    simp only [MediaEventKind.tagType, h, hkind]
    rfl

theorem FlvMuxer.wrote_of_write (hcached : m.firstMediaTimestampMs = none →
      ∀ header ∈ m.cachedCodecHeaders, header.payload.length ≤ maxFlvTagDataSize)
    (h : m.write event = .ok (.ok m')) : ∃ n, Wrote event m m' n := by
  rcases write_cases hcached h with ⟨_, n, heq, -, hwrote⟩ | ⟨-, -, -, _, heq⟩ <;> cases heq
  exact ⟨n, hwrote⟩

/-! ## Before media starts, and after -/

variable {p : α → Bool} {l : List α} {tags' : List WrittenTag}

theorem filter_eraseP_self : (l.eraseP p).filter p = (l.filter p).tail := by
  induction l with
  | nil => rfl
  | cons a l ih => by_cases h : p a = true <;> simp [h, ih]

theorem filter_eraseP_of_disjoint {q : α → Bool} (h : ∀ a, p a = true → q a = false) :
    (l.eraseP p).filter q = l.filter q := by
  induction l with
  | nil => rfl
  | cons a l ih =>
    by_cases hp : p a = true
    · simp [hp, h a hp]
    · simp [hp, filter_cons, ih]

theorem lastOf_append :
    lastOf tagType (tags ++ tags') = (lastOf tagType tags').or (lastOf tagType tags) := by
  rw [lastOf, filter_append, getLast?_append, Option.map_or]
  rfl

theorem lastOf_of_ne {tagType' : FlvTagType} (hne : tagType' ≠ tagType)
    (h : ∀ t ∈ tags, t.tagType = tagType') : lastOf tagType tags = none := by
  have hnil : (tags.filter fun t => decide (t.tagType = tagType)) = [] := by
    rw [filter_eq_nil_iff]
    intro t hmem
    simpa [h t hmem] using hne
  rw [lastOf, hnil]
  rfl

theorem lead_append_frame (h : ∀ t ∈ tags, t.isFrame = false) {frame : WrittenTag}
    (hframe : frame.isFrame = true) : lead (tags ++ [frame]) = tags := by
  rw [lead, takeWhile_append_of_pos (by simpa using h),
    takeWhile_cons_of_neg (by simpa using hframe), append_nil]

theorem lead_append (h : tags.any isFrame = true) : lead (tags ++ tags') = lead tags := by
  unfold lead
  rw [takeWhile_append, if_neg]
  intro hlength
  obtain ⟨t, hmem, hframe⟩ := any_eq_true.mp h
  have hcut : tags.takeWhile (fun t => !t.isFrame) <+: tags := takeWhile_prefix _
  have hall := takeWhile_eq_self_iff.mp (hcut.eq_of_length hlength) t hmem
  simp [hframe] at hall

theorem FlvMuxer.tags_append (hopened : m.opened ≤ m.log.length) {written : List WrittenTag}
    (hlog : m'.log = m.log ++ written) (hsame : m'.opened = m.opened) :
    m'.tags = m.tags ++ written := by
  rw [tags, tags, hlog, hsame, drop_append_of_le_length hopened]

/-- A muxer whose media has not started has written metadata only, and caches the latest headers. -/
structure Leading (latest : LatestHeaders) (m : FlvMuxer) : Prop where
  first : m.firstMediaTimestampMs = none
  opened : m.opened ≤ m.log.length
  quiet : ∀ t ∈ m.tags, t.tagType = .metadata
  metadata : lastOf .metadata m.tags = latest.metadata.map MediaEvent.payload
  known : ∀ header ∈ m.cachedCodecHeaders, header.tagType ≠ .metadata
  cached : ∀ tagType, tagType ≠ .metadata →
    (m.cachedCodecHeaders.filter fun header => decide (header.tagType = tagType)).map
      CachedCodecHeader.payload = ((latest.header tagType).map MediaEvent.payload).toList
  seen : m.videoSequenceHeaderSeen = latest.video.isSome
  typed : latest.Typed

/-- A muxer whose media has started wrote the latest headers first. -/
structure Led (latest : LatestHeaders) (m : FlvMuxer) : Prop where
  first : m.firstMediaTimestampMs.isSome = true
  opened : m.opened ≤ m.log.length
  frame : m.tags.any isFrame = true
  begins : ∀ tagType, lastOf tagType (lead m.tags) = (latest.header tagType).map MediaEvent.payload

theorem Led.write {latest : LatestHeaders} (h : Led latest m)
    (hwrite : m.write event = .ok (.ok m')) : Led latest m' := by
  obtain ⟨n, hwrote⟩ := wrote_of_write (fun hfirst => by simpa [hfirst] using h.first) hwrite
  obtain ⟨-, hsame, hfirst, tags, hlog, -⟩ := hwrote.log
  have htags := tags_append h.opened hlog hsame
  refine ⟨hfirst h.first, ?_, ?_, ?_⟩
  · rw [hlog, hsame, length_append]
    exact h.opened.trans (Nat.le_add_right _ _)
  · rw [htags, any_append, h.frame, Bool.true_or]
  · rw [htags, lead_append h.frame]
    exact h.begins

namespace Leading

variable {latest : LatestHeaders} {m m' : FlvMuxer} {event : MediaEvent}

theorem of_empty (hfirst : m.firstMediaTimestampMs = none) (hopened : m.opened = m.log.length)
    (hcached : m.cachedCodecHeaders = []) (hseen : m.videoSequenceHeaderSeen = false) :
    Leading {} m := by
  have htags : m.tags = [] := by
    rw [tags, hopened, drop_length]
  refine ⟨hfirst, hopened.le, by simp [htags], by rw [htags]; rfl, by simp [hcached], ?_, hseen, ?_⟩
  · intro tagType _
    rw [hcached]
    cases tagType <;> rfl
  · intro tagType event heq
    cases tagType <;> cases heq

variable {header : CachedCodecHeader} {tagType : FlvTagType}

variable (h : Leading latest m)
include h

theorem cached_event (hmem : header ∈ m.cachedCodecHeaders) :
    ∃ event, latest.header header.tagType = some event ∧ header.payload = event.payload := by
  have hpayload : header.payload ∈
      ((latest.header header.tagType).map MediaEvent.payload).toList := by
    rw [← h.cached _ (h.known header hmem)]
    exact mem_map_of_mem (mem_filter.mpr ⟨hmem, by simp⟩)
  simp only [Option.mem_toList, Option.map_eq_some_iff] at hpayload
  obtain ⟨event, hevent, heq⟩ := hpayload
  exact ⟨event, hevent, heq.symm⟩

theorem wrote (hwrite : m.write event = .ok (.ok m')) : ∃ n, Wrote event m m' n := by
  refine wrote_of_write (fun _ header hmem => ?_) hwrite
  obtain ⟨event, -, hpayload⟩ := h.cached_event hmem
  rw [hpayload]
  exact event.payload_le

theorem push_metadata (hkind : event.kind = .metadata) {t : WrittenTag} (ht : t.tagType = .metadata)
    (hpayload : t.payload = event.payload) : Leading (latest.update event) (m.pushed [t]) := by
  have htype : event.kind.headerType = some .metadata := by rw [hkind]; rfl
  have hheader := fun tagType => latest.header_update htype tagType
  have htags : (m.pushed [t]).tags = m.tags ++ [t] := tags_append h.opened rfl rfl
  refine ⟨h.first, ?_, ?_, ?_, h.known, ?_, ?_, h.typed.update event⟩
  · exact h.opened.trans (by simp [pushed])
  · rw [htags]
    intro t' hmem
    rcases mem_append.mp hmem with hold | hnew
    · exact h.quiet t' hold
    · rw [mem_singleton.mp hnew, ht]
  · rw [htags, lastOf_append,
      show (latest.update event).metadata = some event from hheader .metadata]
    simp [lastOf, ht, hpayload]
  · intro tagType hne
    rw [hheader, if_neg hne]
    exact h.cached tagType hne
  · rw [show (latest.update event).video = latest.video from hheader .video]
    exact h.seen

theorem cache_header (hkind : event.kind.headerType = some tagType) (htype : tagType ≠ .metadata) :
    Leading (latest.update event)
      ((m.noted tagType).cacheCodecHeader tagType event.timestampMs event.payload) := by
  have hheader := fun tagType' => latest.header_update hkind tagType'
  have hsame : (m.noted tagType).firstMediaTimestampMs = m.firstMediaTimestampMs ∧
      (m.noted tagType).opened = m.opened ∧ (m.noted tagType).log = m.log ∧
      (m.noted tagType).cachedCodecHeaders = m.cachedCodecHeaders := by
    cases tagType <;> exact ⟨rfl, rfl, rfl, rfl⟩
  obtain ⟨hfirst, hopened, hlog, hcached⟩ := hsame
  have htags : ((m.noted tagType).cacheCodecHeader tagType event.timestampMs event.payload).tags =
      m.tags := by
    rw [tags, cacheCodecHeader, hlog, hopened]
    rfl
  refine ⟨hfirst.trans h.first, ?_, ?_, ?_, ?_, ?_, ?_, h.typed.update event⟩
  · rw [cacheCodecHeader, hlog, hopened]
    exact h.opened
  · rw [htags]
    exact h.quiet
  · rw [htags, show (latest.update event).metadata = latest.metadata from
      (hheader .metadata).trans (if_neg htype.symm)]
    exact h.metadata
  · intro header hmem
    rw [cacheCodecHeader, hcached] at hmem
    rcases mem_append.mp hmem with hold | hnew
    · exact h.known header (mem_of_mem_eraseP hold)
    · rw [mem_singleton.mp hnew]
      exact htype
  · intro tagType' hne
    rw [cacheCodecHeader, hcached, filter_append, map_append, hheader]
    by_cases heq : tagType' = tagType
    · -- The older header of the type makes way: there was at most one.
      have htail : ((latest.header tagType).map MediaEvent.payload).toList.tail = [] := by
        cases latest.header tagType <;> rfl
      rw [if_pos heq, heq, filter_eraseP_self, map_tail, h.cached tagType htype, htail]
      simp
    · rw [if_neg heq, filter_eraseP_of_disjoint, h.cached tagType' hne]
      · simp [Ne.symm heq]
      · intro header hheader
        simp only [decide_eq_true_eq] at hheader
        simp [hheader, Ne.symm heq]
  · have hvideo := hheader .video
    cases tagType with
    | metadata => exact absurd rfl htype
    | audio =>
      rw [show (latest.update event).video = latest.video from hvideo]
      exact h.seen
    | video =>
      rw [show (latest.update event).video = some event from hvideo]
      rfl

theorem write_header (hkind : event.kind.headerType = some tagType)
    (hwrite : m.write event = .ok (.ok m')) : Leading (latest.update event) m' := by
  obtain ⟨n, hwrote⟩ := h.wrote hwrite
  cases hwrote with
  | dropped hdrops => exact nomatch hkind.symm.trans hdrops.1
  | metadata hmetadata => exact h.push_metadata hmetadata rfl rfl
  | cached hkind htype _ => exact h.cache_header hkind htype
  | header _ _ hfirst => exact nomatch h.first.symm.trans hfirst
  | frame hframe _ | started hframe _ => exact nomatch hkind.symm.trans hframe

theorem isFrame_replay (hmem : header ∈ m.cachedCodecHeaders) {baseMs : UInt32} :
    (replay baseMs header).isFrame = false := by
  obtain ⟨event, hevent, hpayload⟩ := h.cached_event hmem
  have hkind := h.typed _ _ hevent
  rw [isFrame_of_event (tagType_of_headerType hkind).symm hpayload, hkind]
  rfl

/-- What the replayed headers add before the first frame. -/
theorem lastOf_replays {baseMs : UInt32} :
    lastOf tagType (m.tags ++ m.cachedCodecHeaders.map (replay baseMs)) =
      (latest.header tagType).map MediaEvent.payload := by
  have hreplays : lastOf tagType (m.cachedCodecHeaders.map (replay baseMs)) =
      ((m.cachedCodecHeaders.filter fun header => decide (header.tagType = tagType)).map
        CachedCodecHeader.payload).getLast? := by
    rw [lastOf, filter_map, getLast?_map, getLast?_map, Option.map_map]
    rfl
  rw [lastOf_append, hreplays]
  by_cases htype : tagType = .metadata
  · have hnil :
      (m.cachedCodecHeaders.filter fun header => decide (header.tagType = tagType)) = [] := by
      rw [filter_eq_nil_iff]
      intro header hmem
      simpa [htype] using h.known header hmem
    rw [hnil, htype]
    exact h.metadata
  · rw [h.cached tagType htype, lastOf_of_ne (Ne.symm htype) h.quiet]
    cases latest.header tagType <;> rfl

/-- The frame that starts the media follows the latest headers. -/
theorem started (hkind : event.kind.headerType = none) {t : WrittenTag}
    (hlog : m'.log = m.log ++ (m.cachedCodecHeaders.map (replay m.timestampBaseMs) ++ [t]))
    (htype : t.tagType = event.kind.tagType) (hpayload : t.payload = event.payload)
    (hsame : m'.opened = m.opened) (hfirst : m'.firstMediaTimestampMs.isSome = true) :
    Led latest m' ∧ ∃ t, m'.tags.getLast? = some t ∧ t.tagType = event.kind.tagType ∧
      t.payload = event.payload := by
  have htags := tags_append h.opened hlog hsame
  rw [← append_assoc] at htags
  have hframe : t.isFrame = true := by
    rw [isFrame_of_event htype hpayload, hkind]
    rfl
  have hquiet : ∀ t' ∈ m.tags ++ m.cachedCodecHeaders.map (replay m.timestampBaseMs),
      t'.isFrame = false := by
    intro t' hmem
    rcases mem_append.mp hmem with hold | hreplay
    · rw [isFrame, h.quiet t' hold]
    · obtain ⟨header, hheader, rfl⟩ := mem_map.mp hreplay
      exact h.isFrame_replay hheader
  refine ⟨⟨hfirst, ?_, ?_, ?_⟩, t, ?_, htype, hpayload⟩
  · rw [hlog, hsame, length_append]
    exact h.opened.trans (Nat.le_add_right _ _)
  · rw [htags, any_append, any_cons, hframe, Bool.true_or, Bool.or_true]
  · intro tagType
    rw [htags, lead_append_frame hquiet hframe]
    exact h.lastOf_replays
  · rw [htags, getLast?_concat]

/-- A frame is dropped, or it starts the media. -/
theorem write_frame (hkind : event.kind.headerType = none) (hwrite : m.write event = .ok (.ok m')) :
    Drops event m ∧ Leading latest m' ∨ Led latest m' ∧ ∃ t, m'.tags.getLast? = some t ∧
      t.tagType = event.kind.tagType ∧ t.payload = event.payload := by
  obtain ⟨n, hwrote⟩ := h.wrote hwrite
  cases hwrote with
  | dropped hdrops => exact .inl ⟨hdrops, h⟩
  | metadata hmetadata =>
    rw [hmetadata] at hkind
    cases hkind
  | cached hheader _ _ => exact nomatch hkind.symm.trans hheader
  | header _ _ hfirst | frame _ hfirst => exact nomatch h.first.symm.trans hfirst
  | started _ _ => exact .inr (h.started hkind rfl rfl rfl rfl rfl)

end Leading

end Oxiroute.Rtmp
