import Oxiroute.Lib.Runs
import Oxiroute.Rtmp.LiveIsolation

/-!
# What a viewer can decode

`Decodable` is what a decoder needs of the events it is given, in terms of everything that was
published: before a frame the keyframe it depends on and every reference frame since, before a
keyframe the latest sequence header of its codec, before an AAC frame the latest AAC sequence
header.

`Tracks` is the invariant of one viewer, about the events it was given together with those still in
its queue. While the viewer follows the stream (`SubscriberState.mixed`) it names the keyframe the
viewer started from; clearing the queue leaves a prefix, which is decodable as well, and makes the
viewer wait. `Tracks.served` carries it through a publication, one case per way of being served.
-/

namespace Oxiroute.Rtmp

open Lib Http Tagged MediaCache MediaEventKind List Option

/-! ## Decoding -/

/-- A video event that later frames may need. -/
def MediaEventKind.isReference (kind : MediaEventKind) : Bool :=
  kind.isVideo && decide (kind ≠ .videoDisposable)

/-- A kind of event that can be decoded on its own. -/
def MediaEventKind.isSetup : MediaEventKind → Bool
  | .metadata | .aacSequenceHeader | .avcSequenceHeader | .hevcSequenceHeader
  | .av1SequenceHeader => true
  | _ => false

/-- The last event of an incarnation that satisfies `p`. -/
def latest (p : Tagged → Bool) (incarnation : UInt64) (issued : List Tagged) : Option Tagged :=
  (issued.filter fun y => decide (y.incarnation = incarnation) && p y).getLast?

def Tagged.isMetadata (e : Tagged) : Bool := decide (e.kind = .metadata)

def Tagged.isAacHeader (e : Tagged) : Bool := decide (e.kind = .aacSequenceHeader)

def Tagged.isHeaderOf (codec : Option VideoCodec) (e : Tagged) : Bool :=
  codec.isSome && decide (e.kind.headerCodec = codec)

/-- An audio frame coded in AAC. -/
def Tagged.IsAacFrame (e : Tagged) : Prop :=
  e.kind = .audio ∧ e.event.payload.head?.map (fun b : UInt8 => b >>> 4) = some aacCodecId

def publishedBefore (x : Tagged) (issued : List Tagged) : List Tagged :=
  issued.filter fun y => decide (y.position < x.position)

/-- The reference events that an incarnation published after a keyframe. -/
def referencesSince (k : Tagged) (issued : List Tagged) : List Tagged :=
  issued.filter fun y =>
    decide (y.incarnation = k.incarnation ∧ k.position < y.position) && y.kind.isReference

/-- An event can be decoded after the events `before`. -/
structure Follows (issued before : List Tagged) (x : Tagged) : Prop where
  /-- A frame comes after a keyframe of its publisher and codec, and after every reference event
  published in between, in the order of publication. -/
  frame : x.kind = .videoInterframe ∨ x.kind = .videoDisposable →
    ∃ earlier k between, before = earlier ++ k :: between ∧ k.kind = .videoKeyframe
      ∧ k.incarnation = x.incarnation ∧ k.videoCodec = x.videoCodec
      ∧ (referencesSince k (publishedBefore x issued)).Sublist between
  /-- A keyframe comes after the latest sequence header of its codec. -/
  keyframe : x.kind = .videoKeyframe → ∀ h,
    latest (isHeaderOf x.videoCodec) x.incarnation (publishedBefore x issued) = some h → h ∈ before
  /-- An AAC frame comes after the latest AAC sequence header. -/
  audio : x.IsAacFrame → ∀ h,
    latest isAacHeader x.incarnation (publishedBefore x issued) = some h → h ∈ before

/-- Every event can be decoded after those given before it. -/
def Decodable (issued given : List Tagged) : Prop :=
  ∀ before x after, given = before ++ x :: after → Follows issued before x

variable {issued seen : List Tagged} {e : Tagged}

theorem Decodable.nil : Decodable issued [] := EachAfter.nil

theorem Decodable.of_isPrefix {given : List Tagged} (h : Decodable issued given)
    (hp : seen <+: given) : Decodable issued seen := EachAfter.of_isPrefix h hp

theorem Decodable.snoc (h : Decodable issued seen) (he : Follows issued seen e) :
    Decodable issued (seen ++ [e]) := EachAfter.snoc h he

theorem follows_setup {before : List Tagged} (h : e.kind.isSetup = true) :
    Follows issued before e := by
  refine ⟨fun hk => ?_, fun hk => ?_, fun hk => ?_⟩
  · rcases hk with hk | hk <;> rw [hk] at h <;> cases h
  · rw [hk] at h
    cases h
  · rw [hk.1] at h
    cases h

theorem Decodable.append_setup (h : Decodable issued seen) {setup : List Tagged}
    (hsetup : ∀ x ∈ setup, x.kind.isSetup = true) : Decodable issued (seen ++ setup) :=
  EachAfter.append h fun x hx _ => follows_setup (hsetup x hx)

/-! ## One more publication -/

/-- The position of an event is its place in the log. -/
def Numbered (issued : List Tagged) : Prop := ∀ x ∈ issued, x.position < issued.length

theorem Numbered.snoc (h : Numbered issued) (he : e.position = issued.length) :
    Numbered (issued ++ [e]) := by
  intro x hx
  rw [length_append, length_singleton]
  rcases mem_append.mp hx with hx | hx
  · exact Nat.lt_succ_of_lt (h x hx)
  · obtain rfl := mem_singleton.mp hx
    omega

variable {p : Tagged → Bool} {x k : Tagged} {cache' : MediaCache} {between : List Tagged}

theorem latest_snoc {incarnation : UInt64} : latest p incarnation (issued ++ [e])
      = if e.incarnation = incarnation ∧
        p e = true then some e else latest p incarnation issued := by
  unfold latest
  rw [filter_append]
  split_ifs with h
  · simp [h.1, h.2]
  · have hnil : [e].filter (fun y => decide (y.incarnation = incarnation) && p y) = [] := by
      simpa using h
    rw [hnil, append_nil]

theorem latest_mem {incarnation : UInt64} (h : latest p incarnation issued = some x) :
    x ∈ issued ∧ p x = true := by
  have hmem := mem_filter.mp (mem_of_getLast? h)
  exact ⟨hmem.1, (Bool.and_eq_true_iff.mp hmem.2).2⟩

theorem latest_eq_none {incarnation : UInt64} (h : ∀ x ∈ issued, x.incarnation ≠ incarnation) :
    latest p incarnation issued = none := by
  unfold latest
  rw [getLast?_eq_none_iff, filter_eq_nil_iff]
  intro x hx
  simp [h x hx]

theorem publishedBefore_snoc (hx : x.position ≤ issued.length) (he : e.position = issued.length) :
    publishedBefore x (issued ++ [e]) = publishedBefore x issued := by
  have hnot : ¬e.position < x.position := by omega
  simp [publishedBefore, filter_append, hnot]

theorem publishedBefore_last (h : Numbered issued) (he : e.position = issued.length) :
    publishedBefore e (issued ++ [e]) = issued := by
  rw [publishedBefore_snoc he.le he, publishedBefore, filter_eq_self]
  intro x hx
  have := h x hx
  simp only [decide_eq_true_eq]
  omega

theorem referencesSince_snoc : referencesSince k (issued ++ [e]) = referencesSince k issued
      ++ if (e.incarnation = k.incarnation ∧ k.position < e.position) ∧ e.kind.isReference = true
        then [e] else [] := by
  unfold referencesSince
  split_ifs with h
  · simp [h.1, h.2]
  · simpa using h

theorem Decodable.mono (h : Decodable issued seen) (hseen : ∀ x ∈ seen, x ∈ issued)
    (hnum : Numbered issued) (he : e.position = issued.length) :
    Decodable (issued ++ [e]) seen := by
  rintro before x after rfl
  have hx : x.position ≤ issued.length := (hnum x (hseen x (by simp))).le
  obtain ⟨hframe, hkey, haudio⟩ := h before x after rfl
  refine ⟨?_, ?_, ?_⟩
  · rw [publishedBefore_snoc hx he]
    exact hframe
  · rw [publishedBefore_snoc hx he]
    exact hkey
  · rw [publishedBefore_snoc hx he]
    exact haudio

/-! ## The cache -/

/-- The cache of a stream holds the latest setup events of its publisher. -/
structure CacheLatest (issued : List Tagged) (incarnation : UInt64) (cache : MediaCache) :
    Prop where
  metadata : cache.metadata = latest isMetadata incarnation issued
  aac : cache.aacSequenceHeader = latest isAacHeader incarnation issued
  header : ∀ codec, cache.videoSequenceHeaders.lookup codec
    = latest (isHeaderOf (some codec)) incarnation issued

variable {incarnation : UInt64} {cache : MediaCache}

theorem cacheLatest_default (h : ∀ x ∈ issued, x.incarnation ≠ incarnation) :
    CacheLatest issued incarnation .default :=
  ⟨(latest_eq_none h).symm, (latest_eq_none h).symm, fun _ => (latest_eq_none h).symm⟩

variable (h : CacheLatest issued incarnation cache)
include h

theorem CacheLatest.transition (e : Tagged) :
    CacheLatest issued incarnation (cache.transition e).2 := by
  unfold MediaCache.transition
  split
  · exact h
  · exact ⟨h.metadata, h.aac, h.header⟩

theorem CacheLatest.issued_of_mem (hx : x ∈ cache.events) : x ∈ issued := by
  simp only [events, mem_append, mem_toList] at hx
  rcases hx with (hx | hx) | hx
  · exact (latest_mem (h.metadata ▸ hx)).1
  · exact (latest_mem (h.aac ▸ hx)).1
  · obtain ⟨⟨codec, y⟩, hmem, rfl⟩ := mem_map.mp hx
    exact (latest_mem (h.header codec ▸ Table.mem_entries_iff.mp hmem)).1

theorem CacheLatest.foreign (he : e.incarnation ≠ incarnation) :
    CacheLatest (issued ++ [e]) incarnation cache := by
  refine ⟨?_, ?_, fun codec => ?_⟩
  · rw [latest_snoc, if_neg fun h => he h.1]
    exact h.metadata
  · rw [latest_snoc, if_neg fun h => he h.1]
    exact h.aac
  · rw [latest_snoc, if_neg fun h => he h.1]
    exact h.header codec

omit h

theorem bind_latest_header {headers : VideoCodec → Option Tagged}
    (h : ∀ codec, headers codec = latest (isHeaderOf (some codec)) incarnation issued)
    {codec : Option VideoCodec} :
    codec.bind headers = latest (isHeaderOf codec) incarnation issued := by
  cases codec with
  | none =>
    rw [bind_none, latest, eq_comm, getLast?_eq_none_iff, filter_eq_nil_iff]
    simp [isHeaderOf]
  | some codec => exact h codec

theorem CacheLatest.videoSequenceHeader (h : CacheLatest issued incarnation cache)
    {keyframe : Tagged} : cache.videoSequenceHeader keyframe
      = latest (isHeaderOf keyframe.videoCodec) incarnation issued :=
  bind_latest_header h.header

theorem isSetup_of_latest (hp : ∀ x, p x = true → x.kind.isSetup = true)
    (h : latest p incarnation issued = some x) : x.kind.isSetup = true :=
  hp x (latest_mem h).2

theorem Tagged.isSetup_of_isMetadata (x : Tagged) (h : x.isMetadata = true) :
    x.kind.isSetup = true := by
  rw [of_decide_eq_true h]
  rfl

theorem Tagged.isSetup_of_isAacHeader (x : Tagged) (h : x.isAacHeader = true) :
    x.kind.isSetup = true := by
  rw [of_decide_eq_true h]
  rfl

theorem Tagged.isSetup_of_isHeaderOf {codec : Option VideoCodec} (x : Tagged)
    (h : x.isHeaderOf codec = true) : x.kind.isSetup = true := by
  obtain ⟨hsome, heq⟩ := Bool.and_eq_true_iff.mp h
  have heq := of_decide_eq_true heq
  revert heq
  cases x.kind <;> simp [headerCodec, isSetup] <;>
    · rintro rfl
      cases hsome

theorem CacheLatest.store (h : CacheLatest issued e.incarnation cache)
    (hstore : cache.store e = .ok cache') : CacheLatest (issued ++ [e]) e.incarnation cache' := by
  -- An event that is not of a sort leaves the latest of that sort.
  have hother : ∀ {p : Tagged → Bool}, p e = false →
      latest p e.incarnation issued = latest p e.incarnation (issued ++ [e]) := by
    intro p hp
    rw [latest_snoc, if_neg (by simp [hp])]
  have hself : ∀ {p : Tagged → Bool}, p e = true →
      some e = latest p e.incarnation (issued ++ [e]) := by
    intro p hp
    rw [latest_snoc, if_pos ⟨rfl, hp⟩]
  have hheader : ∀ codec, e.kind.headerCodec = some codec →
      CacheLatest (issued ++ [e]) e.incarnation { cache with
        videoSequenceHeaders := cache.videoSequenceHeaders.insert codec e } := by
    intro codec hcodec
    have hkind : e.kind ≠ .metadata ∧ e.kind ≠ .aacSequenceHeader := by
      constructor <;> · intro hk; rw [hk] at hcodec; cases hcodec
    refine ⟨h.metadata.trans (hother (decide_eq_false hkind.1)),
      h.aac.trans (hother (decide_eq_false hkind.2)), fun c => ?_⟩
    rw [Table.lookup_insert]
    split_ifs with hc
    · exact hself (by simp [isHeaderOf, hcodec, hc])
    · exact (h.header c).trans (hother (by simp [isHeaderOf, hcodec, Ne.symm hc]))
  have hplain : e.kind.isSetup = false → CacheLatest (issued ++ [e]) e.incarnation cache := by
    intro hsetup
    refine ⟨h.metadata.trans (hother ?_), h.aac.trans (hother ?_),
      fun c => (h.header c).trans (hother ?_)⟩ <;> rw [← Bool.not_eq_true] <;> intro hp
    · rw [e.isSetup_of_isMetadata hp] at hsetup
      cases hsetup
    · rw [e.isSetup_of_isAacHeader hp] at hsetup
      cases hsetup
    · rw [e.isSetup_of_isHeaderOf hp] at hsetup
      cases hsetup
  unfold MediaCache.store at hstore
  split at hstore
  case h_1 hkind =>
    cases hstore
    refine ⟨hself (decide_eq_true hkind), h.aac.trans (hother ?_),
      fun c => (h.header c).trans (hother ?_)⟩
    · simp [isAacHeader, hkind]
    · simp [isHeaderOf, hkind, headerCodec]
  case h_2 hkind =>
    cases hstore
    refine ⟨h.metadata.trans (hother ?_), hself (decide_eq_true hkind),
      fun c => (h.header c).trans (hother ?_)⟩
    · simp [isMetadata, hkind]
    · simp [isHeaderOf, hkind, headerCodec]
  case h_3 hkind | h_4 hkind | h_5 hkind =>
    have hcodec : e.event.kind.headerCodec = _ := congrArg _ hkind
    rw [videoCodec, MediaEvent.videoCodec_of_header hcodec, expect_some, bind_ok] at hstore
    cases hstore
    exact hheader _ hcodec
  all_goals
    rename_i hkind
    cases hstore
    exact hplain (by rw [hkind]; rfl)

theorem store_videoTrack (h : cache.store e = .ok cache') :
    cache'.videoTrack = cache.videoTrack := by
  unfold store at h
  split at h
  case h_3 | h_4 | h_5 =>
    obtain ⟨codec, _, h⟩ := bind_eq_ok.mp h
    cases h
    rfl
  all_goals
    cases h
    rfl

/-! ## One viewer -/

/-- The keyframe a viewer follows the stream from, and what it was given since. -/
structure FollowsFrom (issued : List Tagged) (incarnation : UInt64) (track : CurrentVideoTrack)
    (seen : List Tagged) (k : Tagged) (between : List Tagged) : Prop where
  split : ∃ earlier, seen = earlier ++ k :: between
  kind : k.kind = .videoKeyframe
  publisher : k.incarnation = incarnation
  position : k.position < issued.length
  codec : track = .present k.videoCodec
  references : (referencesSince k issued).Sublist between
  header : ∀ h, latest (isHeaderOf k.videoCodec) incarnation issued = some h → h ∈ seen

/-- The invariant of a viewer of the publisher `incarnation`: `seen` is what it was given and what
is still in its queue. -/
structure Tracks (issued : List Tagged) (incarnation : UInt64) (track : CurrentVideoTrack)
    (seen : List Tagged) (state : SubscriberState) : Prop where
  aac : ¬state.Waits → ∀ h, latest isAacHeader incarnation issued = some h → h ∈ seen
  video : state = .mixed → ∃ k between, FollowsFrom issued incarnation track seen k between

variable {track : CurrentVideoTrack} {state : SubscriberState}

theorem Tracks.waits (h : state.Waits) : Tracks issued incarnation track seen state := by
  refine ⟨fun hnot => absurd h hnot, fun hmixed => ?_⟩
  rw [hmixed] at h
  rcases h with h | h <;> cases h

theorem Tracks.foreign (h : Tracks issued incarnation track seen state)
    (he : e.incarnation ≠ incarnation) : Tracks (issued ++ [e]) incarnation track seen state := by
  refine ⟨fun hstate => ?_, fun hstate => ?_⟩
  · rw [latest_snoc, if_neg fun h => he h.1]
    exact h.aac hstate
  · obtain ⟨k, between, hk⟩ := h.video hstate
    refine ⟨k, between, hk.split, hk.kind, hk.publisher, ?_, hk.codec, ?_, ?_⟩
    · rw [length_append]
      exact lt_of_lt_of_le hk.position (Nat.le_add_right _ _)
    · rw [referencesSince_snoc, if_neg fun h => he (h.1.1.trans hk.publisher), append_nil]
      exact hk.references
    · rw [latest_snoc, if_neg fun h => he h.1]
      exact hk.header

theorem FollowsFrom.given (hk : FollowsFrom issued e.incarnation track seen k between) :
    FollowsFrom (issued ++ [e]) e.incarnation track (seen ++ [e]) k (between ++ [e]) := by
  obtain ⟨earlier, hsplit⟩ := hk.split
  refine ⟨⟨earlier, by simp [hsplit]⟩, hk.kind, hk.publisher, ?_, hk.codec, ?_, ?_⟩
  · rw [length_append]
    exact lt_of_lt_of_le hk.position (Nat.le_add_right _ _)
  · rw [referencesSince_snoc]
    refine hk.references.append ?_
    split_ifs
    · exact List.Sublist.refl _
    · exact nil_sublist _
  · intro h hlatest
    rw [latest_snoc] at hlatest
    split_ifs at hlatest
    · exact mem_append_right _ (by simpa using hlatest.symm)
    · exact mem_append_left _ (hk.header h hlatest)

/-- A disposable frame a viewer that follows the stream goes without. -/
theorem FollowsFrom.without (hk : FollowsFrom issued e.incarnation track seen k between)
    (hkind : e.kind = .videoDisposable) :
    FollowsFrom (issued ++ [e]) e.incarnation track seen k between := by
  refine ⟨hk.split, hk.kind, hk.publisher, ?_, hk.codec, ?_, ?_⟩
  · rw [length_append]
    exact lt_of_lt_of_le hk.position (Nat.le_add_right _ _)
  · rw [referencesSince_snoc, if_neg, append_nil]
    · exact hk.references
    · rintro ⟨-, href⟩
      rw [hkind] at href
      cases href
  · intro h hlatest
    rw [latest_snoc, if_neg] at hlatest
    · exact hk.header h hlatest
    · rintro ⟨-, hheader⟩
      have := e.isSetup_of_isHeaderOf hheader
      rw [hkind] at this
      cases this

/-- The latest AAC header is among what a viewer was given, when the newest event is. -/
theorem aac_given {given : List Tagged}
    (haac : ∀ h, latest isAacHeader e.incarnation issued = some h → h ∈ given)
    (hself : e ∈ given ∨ e.isAacHeader = false) :
    ∀ h, latest isAacHeader e.incarnation (issued ++ [e]) = some h → h ∈ given := by
  intro h hlatest
  rw [latest_snoc] at hlatest
  split_ifs at hlatest with hcond
  · cases hlatest
    rcases hself with hself | hself
    · exact hself
    · rw [hcond.2] at hself
      cases hself
  · exact haac h hlatest

theorem aac_snoc {given : List Tagged}
    (haac : ∀ h, latest isAacHeader e.incarnation issued = some h → h ∈ given) :
    ∀ h, latest isAacHeader e.incarnation (issued ++ [e]) = some h → h ∈ given ++ [e] :=
  aac_given (fun x hx => mem_append_left _ (haac x hx)) (.inl (by simp))

section Publication

variable (hnum : Numbered issued) (he : e.position = issued.length)
include hnum he

theorem FollowsFrom.follows (hk : FollowsFrom issued e.incarnation track seen k between)
    (hcodec : e.kind.isVideo = true → k.videoCodec = e.videoCodec)
    (haac : ∀ h, latest isAacHeader e.incarnation issued = some h → h ∈ seen) :
    Follows (issued ++ [e]) seen e := by
  obtain ⟨earlier, hsplit⟩ := hk.split
  refine ⟨fun hkind => ?_, fun hkind => ?_, fun _ => ?_⟩
  · have hvideo : e.kind.isVideo = true := by rcases hkind with h | h <;> rw [h] <;> rfl
    refine ⟨earlier, k, between, hsplit, hk.kind, hk.publisher, hcodec hvideo, ?_⟩
    rw [publishedBefore_last hnum he]
    exact hk.references
  · rw [publishedBefore_last hnum he, ← hcodec (by rw [hkind]; rfl)]
    exact hk.header
  · rw [publishedBefore_last hnum he]
    exact haac

theorem FollowsFrom.start (hkind : e.kind = .videoKeyframe) (htrack : track = .present e.videoCodec)
    (hheader : ∀ h, latest (isHeaderOf e.videoCodec) e.incarnation issued = some h → h ∈ seen) :
    FollowsFrom (issued ++ [e]) e.incarnation track (seen ++ [e]) e [] := by
  refine ⟨⟨seen, rfl⟩, hkind, rfl, ?_, htrack, ?_, ?_⟩
  · rw [length_append, length_singleton]
    omega
  · rw [referencesSince_snoc, if_neg (by omega), append_nil]
    refine sublist_nil.mpr (filter_eq_nil_iff.mpr fun x hx => ?_)
    have := hnum x hx
    simp only [Bool.and_eq_true, decide_eq_true_eq]
    omega
  · intro h hlatest
    rw [latest_snoc, if_neg] at hlatest
    · exact mem_append_left _ (hheader h hlatest)
    · rintro ⟨-, hh⟩
      have := e.isSetup_of_isHeaderOf hh
      rw [hkind] at this
      cases this

theorem follows_keyframe (hkind : e.kind = .videoKeyframe)
    (hheader : ∀ h, latest (isHeaderOf e.videoCodec) e.incarnation issued = some h → h ∈ seen) :
    Follows (issued ++ [e]) seen e := by
  refine ⟨fun h => ?_, fun _ => ?_, fun h => ?_⟩
  · rcases h with h | h <;> rw [hkind] at h <;> cases h
  · rw [publishedBefore_last hnum he]
    exact hheader
  · have := h.1
    rw [hkind] at this
    cases this

theorem follows_audio (hkind : e.kind.isVideo = false)
    (haac : ∀ h, latest isAacHeader e.incarnation issued = some h → h ∈ seen) :
    Follows (issued ++ [e]) seen e := by
  refine ⟨fun h => ?_, fun h => ?_, fun _ => ?_⟩
  · rcases h with h | h <;> rw [h] at hkind <;> cases hkind
  · rw [h] at hkind
    cases hkind
  · rw [publishedBefore_last hnum he]
    exact haac

end Publication

/-! ### The track -/

theorem nextTrack_video (h : e.kind.isVideo = true) :
    nextTrack e = some (.present e.videoCodec) := by
  unfold nextTrack
  revert h
  cases e.kind <;> simp [isVideo]

theorem nextTrack_ne_unknown : nextTrack e ≠ some .unknown := by
  unfold nextTrack
  repeat' split
  all_goals simp

theorem transition_video (cache : MediaCache) (h : e.kind.isVideo = true) :
    (cache.transition e).2.videoTrack = .present e.videoCodec := by
  simp only [transition, nextTrack_video h]

theorem track_kept {codec : Option VideoCodec} (h : cache.videoTrack = .present codec)
    (hsame : (cache.transition e).1 = .none ∨ (cache.transition e).1 = .present false) :
    (cache.transition e).2.videoTrack = .present codec
      ∧ (e.kind.isVideo = true → codec = e.videoCodec) := by
  cases hnext : nextTrack e with
  | none =>
    refine ⟨by simpa only [transition, hnext] using h, fun hvideo => ?_⟩
    rw [nextTrack_video hvideo] at hnext
    cases hnext
  | some next =>
    have hbetween : VideoTrackTransition.between (.present codec) next = .none
        ∨ VideoTrackTransition.between (.present codec) next = .present false := by
      simpa only [transition, hnext, h] using hsame
    have heq : CurrentVideoTrack.present codec = next := by
      by_contra hne
      unfold VideoTrackTransition.between at hbetween
      rw [if_neg hne] at hbetween
      cases next with
      | unknown => exact nextTrack_ne_unknown hnext
      | absent => rcases hbetween with h | h <;> cases h
      | present _ => rcases hbetween with h | h <;> cases h
    refine ⟨by simp only [transition, hnext, heq], fun hvideo => ?_⟩
    rw [nextTrack_video hvideo] at hnext
    cases hnext
    exact CurrentVideoTrack.present.inj heq

/-! ### Being served -/

theorem CacheLatest.isSetup (h : CacheLatest issued incarnation cache)
    (hx : x ∈ cache.metadata.toList ++ cache.aacSequenceHeader.toList) : x.kind.isSetup = true := by
  rcases mem_append.mp hx with hx | hx
  · exact isSetup_of_latest isSetup_of_isMetadata (h.metadata ▸ mem_toList.mp hx)
  · exact isSetup_of_latest isSetup_of_isAacHeader (h.aac ▸ mem_toList.mp hx)

theorem CacheLatest.isSetup_header (h : CacheLatest issued incarnation cache) (keyframe : Tagged)
    (hx : x ∈ (cache.videoSequenceHeader keyframe).toList) : x.kind.isSetup = true :=
  isSetup_of_latest isSetup_of_isHeaderOf (h.videoSequenceHeader ▸ mem_toList.mp hx)

/-- What the cache has of the latest headers is there for a viewer that is given it. -/
theorem CacheLatest.aac_mem (h : CacheLatest issued incarnation cache)
    (hsub : cache.aacSequenceHeader.toList ⊆ seen) :
    ∀ x, latest isAacHeader incarnation issued = some x → x ∈ seen :=
  fun _ hx => hsub (mem_toList.mpr (h.aac.trans hx))

theorem CacheLatest.header_mem (h : CacheLatest issued incarnation cache) (keyframe : Tagged)
    (hsub : (cache.videoSequenceHeader keyframe).toList ⊆ seen) :
    ∀ x, latest (isHeaderOf keyframe.videoCodec) incarnation issued = some x → x ∈ seen :=
  fun _ hx => hsub (mem_toList.mpr (h.videoSequenceHeader.trans hx))

/-- **One viewer through a publication**: what it can decode, and what it tracks. -/
theorem tracks_served {given : List Tagged} {q : SubscriberQueue} {events : List Tagged}
    (hnum : Numbered issued) (he : e.position = issued.length)
    (hseen : ∀ x ∈ given ++ q.events, x ∈ issued) (hdec : Decodable issued (given ++ q.events))
    (h : Tracks issued e.incarnation cache.videoTrack (given ++ q.events) q.state)
    (hcache : CacheLatest issued e.incarnation cache)
    (hs : Served (cache.transition e).2 (cache.transition e).1 e q events state) :
    Decodable (issued ++ [e]) (given ++ events)
      ∧ Tracks (issued ++ [e]) e.incarnation (cache.transition e).2.videoTrack (given ++ events)
        state := by
  have hdec' := hdec.mono hseen hnum he
  have hcache' := hcache.transition e
  have hvideo := transition_video (e := e) cache
  have hkept := fun codec => @track_kept e cache codec
  generalize cache.transition e = next at *
  have hbase : ∀ {base : List Tagged}, base <+: q.events →
      Decodable (issued ++ [e]) (given ++ base) := fun hb =>
    hdec'.of_isPrefix ((prefix_append_right_inj given).mpr hb)
  have hmixed : ∀ {state : SubscriberState}, state = .mixed → ¬state.Waits := by
    rintro _ rfl (h | h) <;> cases h
  have haudio : ∀ {state : SubscriberState}, state = .audio → ¬state.Waits := by
    rintro _ rfl (h | h) <;> cases h
  cases hs with
  | waits hb hstate => exact ⟨hbase hb, .waits hstate⟩
  | spared hstate hkind =>
    refine ⟨hdec', fun _ => aac_given (h.aac (haudio hstate)) (.inr ?_), fun h => by cases h⟩
    rw [← Bool.not_eq_true]
    intro haac
    rw [of_decide_eq_true haac] at hkind
    cases hkind
  | heard hstate hkind =>
    have haac := h.aac (haudio hstate)
    rw [← append_assoc]
    exact ⟨hdec'.snoc (follows_audio hnum he hkind haac), fun _ =>
      aac_snoc haac, fun h => by cases h⟩
  | @joinsAudio base hb hkind =>
    have hsetup := (hbase hb).append_setup fun x hx => hcache'.isSetup hx
    have haac := hcache'.aac_mem (subset_append_of_subset_right (given ++ base)
      (subset_append_right next.2.metadata.toList _))
    have heq : given ++ (base ++ next.2.audioBootstrap e) = given ++ base ++ (next.2.metadata.toList
          ++ next.2.aacSequenceHeader.toList) ++ [e] := by
      simp [audioBootstrap]
    rw [heq]
    exact ⟨hsetup.snoc (follows_audio hnum he (by rw [hkind]; rfl) haac), fun _ => aac_snoc haac,
      fun h => by cases h⟩
  | seen hstate hsame =>
    obtain ⟨k, between, hk⟩ := h.video hstate
    have haac := h.aac (hmixed hstate)
    obtain ⟨htrack, hcodec⟩ := hkept _ hk.codec hsame
    rw [← append_assoc, htrack]
    exact ⟨hdec'.snoc (hk.follows hnum he hcodec haac), fun _ => aac_snoc haac,
      fun _ => ⟨k, _, hk.codec ▸ hk.given⟩⟩
  | skipped hstate hsame hkind =>
    obtain ⟨k, between, hk⟩ := h.video hstate
    obtain ⟨htrack, -⟩ := hkept _ hk.codec hsame
    rw [htrack]
    refine ⟨hdec', fun _ => aac_given (h.aac (hmixed hstate)) (.inr ?_),
      fun _ => ⟨k, _, hk.codec ▸ hk.without hkind⟩⟩
    simp [isAacHeader, hkind]
  | joinsVideo hstate hkind =>
    have haac := h.aac (haudio hstate)
    have hsetup := hdec'.append_setup fun x hx => hcache'.isSetup_header e hx
    have hheader := hcache'.header_mem e (subset_append_right (given ++ q.events) _)
    have heq : given ++ (q.events ++ next.2.videoBootstrap e)
        = given ++ q.events ++ (next.2.videoSequenceHeader e).toList ++ [e] := by
      simp [videoBootstrap]
    rw [heq]
    refine ⟨hsetup.snoc (follows_keyframe hnum he hkind hheader), fun _ => aac_snoc fun x hx => ?_,
      fun _ => ⟨e, [], .start hnum he hkind (hvideo (by rw [hkind]; rfl)) hheader⟩⟩
    exact mem_append_left _ (haac x hx)
  | @joins base hb hkind =>
    have hsetup := ((hbase hb).append_setup fun x hx => hcache'.isSetup hx).append_setup
      fun x hx => hcache'.isSetup_header e hx
    have hheader := hcache'.header_mem e (subset_append_right (given ++ base ++
      (next.2.metadata.toList ++ next.2.aacSequenceHeader.toList)) _)
    have heq : given ++ (base ++ next.2.mixedBootstrap e) = given ++ base ++ (next.2.metadata.toList
          ++ next.2.aacSequenceHeader.toList) ++ (next.2.videoSequenceHeader e).toList ++ [e] := by
      simp [mixedBootstrap]
    rw [heq]
    refine ⟨hsetup.snoc (follows_keyframe hnum he hkind hheader),
      fun _ => aac_snoc (hcache'.aac_mem fun x hx => ?_),
      fun _ => ⟨e, [], .start hnum he hkind (hvideo (by rw [hkind]; rfl)) hheader⟩⟩
    simp [mem_toList.mp hx]

end Oxiroute.Rtmp
