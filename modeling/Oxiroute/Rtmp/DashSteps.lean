import Oxiroute.Rtmp.Dash

/-!
# What the calls of the DASH segmenter do

One lemma for each function of the segmenter that says everything it can do to the state. The proofs
about panics, about samples and about recovery start from these and do not unfold the functions
again.
-/

namespace Oxiroute.Rtmp

open Lib Http List

namespace DashSegmenter

variable {a : DashAnswers} {event : MediaEvent} {endList : Bool} {s t : DashSegmenter}

theorem publish_eq_some {name : List Char} {file : DashFile} (h : s.publish a name file = some t) :
    file.size ≤ s.config.maxFileBytes ∧
      t = { s with journal := s.journal ++ [.publish name file] } := by
  unfold publish at h
  split_ifs at h with hcond
  exact ⟨hcond.1, (Option.some.inj h).symm⟩

/-- The manifest that `write_manifest` stores. -/
def StoresManifest (s t : DashSegmenter) : Prop :=
  ∃ header text, text = renderMpd header s.published ∧ textSize text ≤ s.config.maxFileBytes ∧
    t = { s with journal := s.journal ++ [.publish manifestName (.manifest text)] }

theorem writeManifest_cases (a : DashAnswers) (endList : Bool) (s : DashSegmenter) :
    s.writeManifest a endList = s ∨ s.writeManifest a endList = s.fail ∨
      s.published ≠ [] ∧ StoresManifest s (s.writeManifest a endList) := by
  generalize hresult : s.writeManifest a endList = t
  unfold writeManifest at hresult
  split at hresult
  · exact .inl hresult.symm
  rename_i hskip
  split at hresult
  · split at hresult
    · exact .inr (.inl hresult.symm)
    dsimp only at hresult
    split at hresult
    · exact .inr (.inl hresult.symm)
    rename_i video audio _ _ _ _
    cases hpublish : s.publish a _ _ with
    | none =>
      rw [hpublish] at hresult
      exact .inr (.inl hresult.symm)
    | some u =>
      obtain ⟨hsize, rfl⟩ := publish_eq_some hpublish
      rw [hpublish] at hresult
      rw [not_or] at hskip
      exact .inr (.inr ⟨hskip.2, _, _, rfl, hsize, hresult.symm⟩)
  · exact .inl hresult.symm

theorem writeManifest_of_configs (hfailed : s.failed = false) (hne : s.published ≠ [])
    (hvideo : s.videoConfig.isSome = true) (haudio : s.audioConfig.isSome = true) :
    s.writeManifest a endList = s.fail ∨ StoresManifest s (s.writeManifest a endList) := by
  obtain ⟨video, hvideo⟩ := Option.isSome_iff_exists.mp hvideo
  obtain ⟨audio, haudio⟩ := Option.isSome_iff_exists.mp haudio
  rcases writeManifest_cases a endList s with hsame | hfail | ⟨-, hstores⟩
  · -- unchanged means not marked failed and nothing stored, so no branch is left
    have hlength := congrArg (fun t => (t.failed, t.journal.length)) hsame
    revert hlength
    unfold writeManifest
    rw [if_neg (by simp [hfailed, hne])]
    simp only [hvideo, haudio]
    split_ifs
    · simp [fail, hfailed]
    · simp [fail, hfailed]
    · unfold publish
      split_ifs
      · simp
      · simp [fail, hfailed]
  · exact .inl hfail
  · exact .inr hstores

/-- The segmenter once a segment is published and before the playlist is trimmed. -/
def withSegment (segment : DashSegmentBuilder) (entry : DashPublishedSegment) (bytes : Bytes)
    (s : DashSegmenter) : DashSegmenter :=
  { s with
    nextSequence := min (s.nextSequence + 1) (2 ^ 64 - 1)
    journal := s.journal ++ [.publish entry.name (.data bytes)]
    published := s.published ++ [entry]
    finished := s.finished ++ [segment] }

/-- What `finish` knows of the entry of a new segment. -/
structure IsEntry (s : DashSegmenter) (segment : DashSegmentBuilder)
    (entry : DashPublishedSegment) :
    Prop where
  sequence : entry.sequence = s.nextSequence
  name : ∃ unixTimeMs : UInt64, entry.name =
    segmentFilename s.config.naming entry.sequence entry.startTimestampMs unixTimeMs.toNat
  duration : ∃ sampleRate, entry.durationMs = segmentDurationMs segment sampleRate

/-- A fragment is published, and then the playlist trimmed and the manifest written, or it fails. -/
theorem publishFragment_cases (a : DashAnswers) (endList : Bool) (segment : DashSegmentBuilder)
    (sampleRate : UInt32) (bytes : Bytes) (s : DashSegmenter) :
    s.publishFragment a endList segment sampleRate bytes = s.fail ∨
      s.publishFragment a endList segment sampleRate bytes =
        fail { s with nextSequence := min (s.nextSequence + 1) (2 ^ 64 - 1) } ∨
      ∃ entry, s.IsEntry segment entry ∧ bytes.length ≤ s.config.maxFileBytes ∧
        s.publishFragment a endList segment sampleRate bytes =
          ((s.withSegment segment entry bytes).trimPlaylist a).writeManifest a endList := by
  generalize hresult : s.publishFragment a endList segment _ bytes = t
  unfold publishFragment at hresult
  split at hresult
  · exact .inl hresult.symm
  dsimp only at hresult
  split at hresult
  · exact .inr (.inl hresult.symm)
  split at hresult
  · exact .inr (.inl hresult.symm)
  · rename_i u hpublish
    obtain ⟨hsize, rfl⟩ := publish_eq_some hpublish
    exact .inr (.inr ⟨_, ⟨rfl, ⟨a.unixTimeMs, rfl⟩, ⟨sampleRate, rfl⟩⟩, hsize, hresult.symm⟩)

/-- What `finish` does: it has failed before, or it leaves the open segment unpublished, or it
publishes one that has both kinds of samples. -/
theorem finish_cases (h : s.finish a endList = .ok t) : s.failed = true ∧ t = s ∨
      s.failed = false ∧ (t = { s with current := none } ∨
        t = writeManifest a true { s with current := none }) ∨
      ∃ segment audio bytes, s.failed = false ∧ s.current = some segment ∧
        s.videoConfig.isSome = true ∧ s.audioConfig = some audio ∧ segment.video ≠ [] ∧
        segment.audio ≠ [] ∧
        makeFragment audio segment (min s.nextSequence (2 ^ 32 - 1)) = .ok bytes ∧
        t = publishFragment a endList segment audio.sampleRate bytes
          { s with current := none } := by
  unfold finish at h
  split at h
  · rename_i hfailed
    cases h
    exact .inl ⟨hfailed, rfl⟩
  rename_i hfailed
  have hfailed : s.failed = false := by simpa using hfailed
  have hwithout : ∀ {u : DashSegmenter}, u = { s with current := none } →
      (.ok (u.finishWithout a endList) : Panics DashSegmenter) = .ok t →
      t = { s with current := none } ∨ t = writeManifest a true { s with current := none } := by
    rintro u rfl hu
    cases endList
    · exact .inl (Except.ok.inj hu).symm
    · exact .inr (Except.ok.inj hu).symm
  split at h
  · rename_i hnone
    have hsame : s = { s with current := none } := by rw [← hnone]
    exact .inr (.inl ⟨hfailed, hwithout hsame h⟩)
  rename_i segment hcurrent
  dsimp only at h
  split at h
  · rename_i video audio hvideo haudio
    split at h
    · exact .inr (.inl ⟨hfailed, hwithout rfl h⟩)
    rename_i hempty
    obtain ⟨bytes, hbytes, ht⟩ := bind_eq_ok.mp h
    rw [not_or] at hempty
    have hsome : s.videoConfig.isSome = true := by
      rw [show s.videoConfig = some video from hvideo]
      rfl
    exact .inr (.inr ⟨segment, audio, bytes, hfailed, hcurrent, hsome, haudio, hempty.1, hempty.2,
      hbytes, (Except.ok.inj ht).symm⟩)
  · exact .inr (.inl ⟨hfailed, hwithout rfl h⟩)

/-- The codec configurations are those of another state. -/
def SameConfigs (s t : DashSegmenter) : Prop :=
  t.videoConfig = s.videoConfig ∧ t.audioConfig = s.audioConfig

theorem writeManifest_sameConfigs (a : DashAnswers) (endList : Bool) (s : DashSegmenter) :
    SameConfigs s (s.writeManifest a endList) := by
  rcases writeManifest_cases a endList s with h | h | ⟨-, header, text, -, -, h⟩
  all_goals rw [h]; exact ⟨rfl, rfl⟩

theorem finish_sameConfigs (h : s.finish a endList = .ok t) : SameConfigs s t := by
  rcases finish_cases h with ⟨-, rfl⟩ | ⟨-, rfl | rfl⟩
    | ⟨segment, audio, bytes, -, -, -, -, -, -, -, rfl⟩
  · exact ⟨rfl, rfl⟩
  · exact ⟨rfl, rfl⟩
  · exact writeManifest_sameConfigs a true { s with current := none }
  · rcases publishFragment_cases a endList segment _ bytes { s with current := none } with
      h | h | ⟨entry, -, -, h⟩ <;> rw [h]
    · exact ⟨rfl, rfl⟩
    · exact ⟨rfl, rfl⟩
    · exact writeManifest_sameConfigs a endList _

/-! ## What a call does to the store -/

/-- Nothing that the store sees has changed. -/
structure Quiet (s t : DashSegmenter) : Prop where
  config : t.config = s.config
  journal : t.journal = s.journal
  published : t.published = s.published
  nextSequence : t.nextSequence = s.nextSequence
  failed : s.failed = true → t.failed = true

theorem Quiet.refl : Quiet s s := ⟨rfl, rfl, rfl, rfl, id⟩

variable {u : DashSegmenter}

theorem Quiet.trans (h : Quiet s t) (h' : Quiet t u) : Quiet s u :=
  ⟨h'.config.trans h.config, h'.journal.trans h.journal, h'.published.trans h.published,
    h'.nextSequence.trans h.nextSequence, fun hs => h'.failed (h.failed hs)⟩

theorem quiet_fail (s : DashSegmenter) : Quiet s s.fail := ⟨rfl, rfl, rfl, rfl, fun _ => rfl⟩

/-- What the store sees of one call. -/
inductive Action : DashSegmenter → DashSegmenter → Prop
  | initialization {s : DashSegmenter} (bytes : Bytes) (hfailed : s.failed = false)
      (hsize : bytes.length ≤ s.config.maxFileBytes) : Action s { s with
        journal := s.journal ++ [.publish initializationName (.data bytes)]
        initializationPublished := true }
  | manifest {s t : DashSegmenter} (hfailed : s.failed = false) (hne : s.published ≠ [])
      (hstores : StoresManifest s t) : Action s t
  | refused {s : DashSegmenter} (hfailed : s.failed = false) :
      Action s (fail { s with nextSequence := min (s.nextSequence + 1) (2 ^ 64 - 1) })
  | segment {s t : DashSegmenter} (a : DashAnswers) (segment : DashSegmentBuilder)
      (entry : DashPublishedSegment) (bytes : Bytes) (hfailed : s.failed = false)
      (hentry : s.IsEntry segment entry) (hsize : bytes.length ≤ s.config.maxFileBytes)
      (hstores : t = ((s.withSegment segment entry bytes).trimPlaylist a).fail ∨
        StoresManifest ((s.withSegment segment entry bytes).trimPlaylist a) t) : Action s t

/-- A quiet part, at most one action, and a quiet part. -/
def Acts (s t : DashSegmenter) : Prop := Quiet s t ∨ ∃ u v, Quiet s u ∧ Action u v ∧ Quiet v t

theorem Quiet.acts (h : Quiet s t) (h' : Acts t u) : Acts s u := by
  rcases h' with h' | ⟨v, w, hv, hact, hw⟩
  · exact .inl (h.trans h')
  · exact .inr ⟨v, w, h.trans hv, hact, hw⟩

theorem Acts.quiet (h : Acts s t) (h' : Quiet t u) : Acts s u := by
  rcases h with h | ⟨v, w, hv, hact, hw⟩
  · exact .inl (h.trans h')
  · exact .inr ⟨v, w, hv, hact, hw.trans h'⟩

theorem Action.acts (h : Action s t) : Acts s t := .inr ⟨s, t, .refl, h, .refl⟩

theorem writeManifest_acts (hfailed : s.failed = false) : Acts s (s.writeManifest a endList) := by
  rcases writeManifest_cases a endList s with h | h | ⟨hne, hstores⟩
  · rw [h]
    exact .inl .refl
  · rw [h]
    exact .inl (quiet_fail s)
  · exact (Action.manifest hfailed hne hstores).acts

theorem trimSegments_append (playlistLengthMs : ℕ) (segments : List DashPublishedSegment) :
    (trimSegments playlistLengthMs segments).1 ++ (trimSegments playlistLengthMs segments).2 =
      segments := by
  fun_induction trimSegments _ segments with
  | case1 first second rest hlong dropped kept heq ih =>
    rw [heq] at ih
    rw [cons_append, ih]
  | case2 first second rest hlong | case3 segments hshort => rfl

theorem trimSegments_ne_nil {playlistLengthMs : ℕ} {segments : List DashPublishedSegment}
    (h : segments ≠ []) : (trimSegments playlistLengthMs segments).2 ≠ [] := by
  fun_induction trimSegments _ segments with
  | case1 first second rest hlong dropped kept heq ih =>
    rw [heq] at ih
    exact ih (cons_ne_nil _ _)
  | case2 first second rest hlong => exact cons_ne_nil _ _
  | case3 segments hshort => exact h

theorem trimPlaylist_cases (a : DashAnswers) (s : DashSegmenter) :
    ∃ dropped kept, ∃ names : List (List Char), s.published = dropped ++ kept ∧
      (s.published ≠ [] → kept ≠ []) ∧
      (∀ name ∈ names, ∃ segment ∈ dropped, segment.name = name) ∧
      s.trimPlaylist a =
        { s with published := kept, journal := s.journal ++ names.map .remove } := by
  have happend := trimSegments_append s.config.playlistLength s.published
  have hne : s.published ≠ [] → (trimSegments s.config.playlistLength s.published).2 ≠ [] :=
    trimSegments_ne_nil
  by_cases hcleanup : s.config.cleanup = true
  · refine ⟨_, _,
      ((trimSegments s.config.playlistLength s.published).1.map fun segment => segment.name).filter
        a.removes, happend.symm, hne, fun name hname => ?_, ?_⟩
    · exact mem_map.mp (mem_of_mem_filter hname)
    · simp [trimPlaylist, hcleanup]
  · refine ⟨_, _, [], happend.symm, hne, nofun, ?_⟩
    simp [trimPlaylist, if_neg hcleanup]

theorem publishFragment_acts {segment : DashSegmentBuilder} {sampleRate : UInt32} {bytes : Bytes}
    (hfailed : s.failed = false) (hvideo : s.videoConfig.isSome = true)
    (haudio : s.audioConfig.isSome = true) :
    Acts s (s.publishFragment a endList segment sampleRate bytes) := by
  rcases publishFragment_cases a endList segment _ bytes s with h | h | ⟨entry, hentry, hsize, h⟩
  · rw [h]
    exact .inl (quiet_fail s)
  · rw [h]
    exact (Action.refused hfailed).acts
  · have hne : ((s.withSegment segment entry bytes).trimPlaylist a).published ≠ [] :=
      trimSegments_ne_nil (append_ne_nil_of_right_ne_nil _ (cons_ne_nil _ _))
    rw [h]
    refine (Action.segment a segment entry bytes hfailed hentry hsize ?_).acts
    exact writeManifest_of_configs hfailed hne hvideo haudio

theorem finish_acts (h : s.finish a endList = .ok t) : Acts s t := by
  have hquiet : Quiet s { s with current := none } := ⟨rfl, rfl, rfl, rfl, id⟩
  rcases finish_cases h with ⟨-, rfl⟩ | ⟨hfailed, rfl | rfl⟩ |
    ⟨segment, audio, bytes, hfailed, -, hvideo, haudio, -, -, -, rfl⟩
  · exact .inl .refl
  · exact .inl hquiet
  · exact hquiet.acts (writeManifest_acts hfailed)
  · exact hquiet.acts (publishFragment_acts hfailed hvideo
      (by rw [show s.audioConfig = some audio from haudio]; rfl))

theorem publishInitialization_acts (h : s.publishInitialization a = .ok t) : Acts s t := by
  unfold publishInitialization at h
  split at h
  · cases h
    exact .inl .refl
  rename_i hskip
  have hfailed : s.failed = false := by
    rw [not_or] at hskip
    simpa using hskip.2
  split at h
  · split at h
    · cases h
      exact .inl (quiet_fail s)
    obtain ⟨bytes, -, h⟩ := bind_eq_ok.mp h
    split at h
    · cases h
      exact .inl (quiet_fail s)
    · rename_i u hpublish
      obtain ⟨hsize, rfl⟩ := publish_eq_some hpublish
      cases h
      exact (Action.initialization bytes hfailed hsize).acts
  · cases h
    exact .inl .refl

theorem appendVideo_quiet {keyframe : Bool} (h : s.appendVideo event keyframe = .ok t) :
    Quiet s t := by
  obtain ⟨parsed, -, h⟩ := bind_eq_ok.mp h
  cases parsed with
  | none =>
    cases h
    exact quiet_fail s
  | some sample =>
    cases h
    exact ⟨rfl, rfl, rfl, rfl, id⟩

theorem appendAudio_quiet (h : s.appendAudio event = .ok t) : Quiet s t := by
  obtain ⟨parsed, -, h⟩ := bind_eq_ok.mp h
  cases parsed with
  | none =>
    cases h
    exact quiet_fail s
  | some data =>
    dsimp only at h
    split at h
    · cases h
      exact .refl
    · cases h
      exact ⟨rfl, rfl, rfl, rfl, id⟩

theorem acceptAvcHeader_acts (h : s.acceptAvcHeader a event = .ok t) : Acts s t := by
  obtain ⟨parsed, -, h⟩ := bind_eq_ok.mp h
  cases parsed with
  | none =>
    cases h
    exact .inl (quiet_fail s)
  | some config =>
    dsimp only at h
    split at h
    · cases h
      exact .inl (quiet_fail s)
    · have hquiet : Quiet s { s with videoConfig := some config } := ⟨rfl, rfl, rfl, rfl, id⟩
      exact hquiet.acts (publishInitialization_acts h)

theorem acceptAacHeader_acts (h : s.acceptAacHeader a event = .ok t) : Acts s t := by
  obtain ⟨parsed, -, h⟩ := bind_eq_ok.mp h
  cases parsed with
  | none =>
    cases h
    exact .inl (quiet_fail s)
  | some config =>
    dsimp only at h
    split at h
    · cases h
      exact .inl (quiet_fail s)
    · have hquiet : Quiet s { s with audioConfig := some config } := ⟨rfl, rfl, rfl, rfl, id⟩
      exact hquiet.acts (publishInitialization_acts h)

theorem acceptKeyframe_acts (h : s.acceptKeyframe a event = .ok t) : Acts s t := by
  unfold acceptKeyframe at h
  split at h
  · cases h
    exact .inl .refl
  split at h
  · obtain ⟨u, hfinish, h⟩ := bind_eq_ok.mp h
    split at h
    · cases h
      exact finish_acts hfinish
    · exact (finish_acts hfinish).quiet (appendVideo_quiet h)
  · exact .inl (appendVideo_quiet h)

theorem acceptKind_acts (h : s.acceptKind a event = .ok t) : Acts s t := by
  unfold acceptKind at h
  split at h
  · split at h
    · cases h
      exact .inl .refl
    · cases h
      exact .inl ⟨rfl, rfl, rfl, rfl, id⟩
  · exact acceptAvcHeader_acts h
  · exact acceptAacHeader_acts h
  · exact acceptKeyframe_acts h
  · split at h
    · cases h
      exact .inl .refl
    · exact .inl (appendVideo_quiet h)
  · split at h
    · cases h
      exact .inl .refl
    · exact .inl (appendVideo_quiet h)
  · split at h
    · cases h
      exact .inl .refl
    · exact .inl (appendAudio_quiet h)
  · cases h
    exact .inl (quiet_fail s)
  · cases h
    exact .inl (quiet_fail s)

/-- **Every call acts on the store at most once.** -/
theorem step_acts {call : DashCall} (h : s.step call = .ok t) : Acts s t := by
  cases call with
  | accept event a =>
    have hobserve : Quiet s (s.observe event) := ⟨rfl, rfl, rfl, rfl, id⟩
    simp only [step, accept] at h
    split at h
    · cases h
      exact .inl hobserve
    · exact hobserve.acts (acceptKind_acts h)
  | finish endList a => exact finish_acts h

end DashSegmenter

end Oxiroute.Rtmp
