import Oxiroute.Rtmp.DashManifestRoundTrip
import Oxiroute.Rtmp.DashPanics

/-!
# Recovery of a DASH directory

A segmenter that stops at any moment leaves a directory behind, and the next one starts from it. The
store replaces or removes one file at a time, so the directories that can be left behind are those
after an initial part of the journal (`Reached`). `Recovers` is what the next segmenter should find:
the segments of the stored manifest, and numbers above all of them for its own.

`trim_playlist` removes the files of old segments before `write_manifest` stores a manifest without
them. While such a removal is pending (`pendingRemoval`) the stored manifest lists a file that is
gone, and `load_manifest` refuses it. `recovers_iff` says that this is the only way to fail, as long
as sequence numbers do not reach their limit.

The invariant `ListsAfter` says of every part of the journal which segments the stored manifest
lists, and that all of their files are there exactly if no removal is pending.
-/

namespace Oxiroute.Rtmp

open Lib Http List

/-! ## Directories -/

/-- The segments that the stored manifest was rendered from; none if there is no manifest. -/
def StoredSegments (tree : DashTree) (segments : List DashPublishedSegment) : Prop :=
  tree.lookup manifestName = none ∧ segments = [] ∨
    ∃ header, tree.lookup manifestName = some (.manifest (renderMpd header segments))

/-- A directory whose stored manifest lists some segments and can be read back. -/
structure Lists (maxFileBytes : ℕ) (tree : DashTree) (segments : List DashPublishedSegment) :
    Prop where
  stored : tree.lookup manifestName = none ∧ segments = [] ∨ segments ≠ [] ∧
    ∃ header, tree.lookup manifestName = some (.manifest (renderMpd header segments)) ∧
      textSize (renderMpd header segments) ≤ maxFileBytes
  listable : ∀ s ∈ segments, Listable s
  nodup : (segments.map fun s => s.sequence).Nodup
  bounded : ∀ s ∈ segments, s.sequence + 1 < 2 ^ 64

/-- The files of all segments can be read. -/
def Complete (maxFileBytes : ℕ) (tree : DashTree) (segments : List DashPublishedSegment) : Prop :=
  ∀ s ∈ segments, readable maxFileBytes tree s.name = true

variable {segments : List DashPublishedSegment} {maxFileBytes : ℕ} {tree : DashTree}

theorem Lists.storedSegments (h : Lists maxFileBytes tree segments) :
    StoredSegments tree segments := by
  rcases h.stored with h | ⟨-, header, h, -⟩
  · exact .inl h
  · exact .inr ⟨header, h⟩

theorem lt_nextSequenceOf (h : ∀ s ∈ segments, s.sequence + 1 < 2 ^ 64) :
    nextSequenceOf segments < 2 ^ 64 ∧ ∀ s ∈ segments, s.sequence < nextSequenceOf segments := by
  unfold nextSequenceOf
  cases hmax : (segments.map fun s => s.sequence).max? with
  | none =>
    have hnil : segments = [] := by simpa using List.max?_eq_none_iff.mp hmax
    subst hnil
    exact ⟨by decide, fun s hs => nomatch hs⟩
  | some last =>
    obtain ⟨hmem, hle⟩ := List.max?_eq_some_iff.mp hmax
    obtain ⟨s, hs, rfl⟩ := mem_map.mp hmem
    have hlt := h s hs
    dsimp only
    rw [if_pos hlt]
    exact ⟨hlt, fun t ht => Nat.lt_succ_of_le (hle _ (mem_map_of_mem ht))⟩

/-- What a segmenter finds in such a directory. -/
theorem loadManifest_of_lists (h : Lists maxFileBytes tree segments) :
    (Complete maxFileBytes tree segments →
      loadManifest maxFileBytes tree = .ok (segments, nextSequenceOf segments)) ∧
    (¬ Complete maxFileBytes tree segments →
      loadManifest maxFileBytes tree = .error .manifestMalformed) := by
  rcases h.stored with ⟨hnone, rfl⟩ | ⟨hne, header, hstored, hsize⟩
  · refine ⟨fun _ => ?_, fun hcomplete => absurd (fun s hs => nomatch hs) hcomplete⟩
    rw [loadManifest, hnone]
    rfl
  · have hload := loadManifest_renderMpd hstored hsize hne h.listable h.nodup
    exact ⟨fun hcomplete => hload.trans (if_pos hcomplete), fun hcomplete =>
      hload.trans (if_neg hcomplete)⟩

/-! ## Changes of one file -/

section Changes

variable {maxFileBytes : ℕ} {tree : DashTree} {segments : List DashPublishedSegment}
  {name : List Char}
  {file : DashFile}

theorem IsSegmentName.ne_manifestName {sequence : ℕ} (h : IsSegmentName sequence name) :
    name ≠ manifestName := by
  rintro rfl
  have := h.fileExtension
  revert this
  decide

theorem Listable.sequence_eq {s t : DashPublishedSegment} (hs : Listable s) (ht : Listable t)
    (h : s.name = t.name) : s.sequence = t.sequence := by
  have hread := hs.name.sequenceFromFilename hs.sequence
  rw [h, ht.name.sequenceFromFilename ht.sequence] at hread
  exact (Option.some.inj hread).symm

theorem Lists.of_lookup {tree' : DashTree} (h : Lists maxFileBytes tree segments)
    (hsame : tree'.lookup manifestName = tree.lookup manifestName) :
      Lists maxFileBytes tree' segments where
  stored := by
    rw [hsame]
    exact h.stored
  listable := h.listable
  nodup := h.nodup
  bounded := h.bounded

variable {other : List Char}

theorem lookup_publish_ne (h : other ≠ name) :
    (tree.apply (.publish name file)).lookup other = tree.lookup other := by
  rw [DashTree.apply, Table.lookup_insert, if_neg h]

theorem lookup_remove_ne (h : other ≠ name) :
    (tree.apply (.remove name)).lookup other = tree.lookup other := by
  rw [DashTree.apply, Table.lookup_erase, if_neg h]

theorem readable_publish (hsize : file.size ≤ maxFileBytes)
    (h : readable maxFileBytes tree other = true ∨ other = name) :
    readable maxFileBytes (tree.apply (.publish name file)) other = true := by
  unfold readable
  by_cases heq : other = name
  · rw [DashTree.apply, Table.lookup_insert, if_pos heq]
    exact decide_eq_true hsize
  · rw [lookup_publish_ne heq]
    exact h.resolve_right heq

theorem not_readable_remove (h : readable maxFileBytes tree other = false ∨ other = name) :
    readable maxFileBytes (tree.apply (.remove name)) other = false := by
  unfold readable
  by_cases heq : other = name
  · rw [DashTree.apply, Table.lookup_erase, if_pos heq]
    rfl
  · rw [lookup_remove_ne heq]
    exact h.resolve_right heq

end Changes

/-! ## The journal -/

/-- Whether a file has been removed since the manifest was last stored. -/
def pendingRemoval (journal : List DashWrite) : Bool :=
  journal.foldl (fun pending write =>
    match write with
    | .publish name _ => if name = manifestName then false else pending
    | .remove _ => true) false

variable {journal : List DashWrite} {file : DashFile} {name : List Char}

theorem pendingRemoval_manifest :
    pendingRemoval (journal ++ [.publish manifestName file]) = false := by
  rw [pendingRemoval, foldl_append]
  rfl

theorem pendingRemoval_publish (h : name ≠ manifestName) :
    pendingRemoval (journal ++ [.publish name file]) = pendingRemoval journal := by
  rw [pendingRemoval, foldl_append]
  exact if_neg h

theorem pendingRemoval_remove : pendingRemoval (journal ++ [.remove name]) = true := by
  rw [pendingRemoval, foldl_append]
  rfl

theorem treeAfter_append {write : DashWrite} :
    treeAfter tree (journal ++ [write]) = (treeAfter tree journal).apply write := by
  rw [treeAfter, foldl_append]
  rfl

/-- After a part of the journal the stored manifest lists some segments, and their files are there
exactly if no removal is pending. -/
structure ListsAfter (maxFileBytes : ℕ) (tree : DashTree) (journal : List DashWrite)
    (segments : List DashPublishedSegment) : Prop where
  lists : Lists maxFileBytes (treeAfter tree journal) segments
  complete : Complete maxFileBytes (treeAfter tree journal) segments ↔
    pendingRemoval journal = false

/-- This holds after every part of the journal. -/
def ListsThroughout (maxFileBytes : ℕ) (tree : DashTree) (journal : List DashWrite) : Prop :=
  ∀ done, done <+: journal → ∃ segments, ListsAfter maxFileBytes tree done segments

section Journal

variable {maxFileBytes : ℕ} {tree : DashTree} {journal : List DashWrite}
  {segments : List DashPublishedSegment}

theorem ListsThroughout.append {write : DashWrite} (h : ListsThroughout maxFileBytes tree journal)
    (hwrite : ListsAfter maxFileBytes tree (journal ++ [write]) segments) :
    ListsThroughout maxFileBytes tree (journal ++ [write]) := by
  intro done hdone
  rcases prefix_concat_iff.mp hdone with rfl | hdone
  · exact ⟨segments, hwrite⟩
  · exact h done hdone

theorem ListsAfter.publish (h : ListsAfter maxFileBytes tree journal segments)
    (hpending : pendingRemoval journal = false) (hname : name ≠ manifestName) (file : DashFile)
    (hsize : file.size ≤ maxFileBytes) :
    ListsAfter maxFileBytes tree (journal ++ [.publish name file]) segments where
  lists := by
    rw [treeAfter_append]
    exact h.lists.of_lookup (lookup_publish_ne hname.symm)
  complete := by
    rw [treeAfter_append, pendingRemoval_publish hname, hpending]
    exact iff_of_true (fun s hs => readable_publish hsize (.inl (h.complete.mpr hpending s hs))) rfl

theorem ListsAfter.remove {s : DashPublishedSegment}
    (h : ListsAfter maxFileBytes tree journal segments)
    (hs : s ∈ segments) : ListsAfter maxFileBytes tree (journal ++ [.remove s.name]) segments where
  lists := by
    rw [treeAfter_append]
    exact h.lists.of_lookup (lookup_remove_ne (h.lists.listable s hs).name.ne_manifestName.symm)
  complete := by
    rw [treeAfter_append, pendingRemoval_remove]
    refine iff_of_false (fun hcomplete => ?_) (fun htrue => nomatch htrue)
    have hgone : readable maxFileBytes ((treeAfter tree journal).apply (.remove s.name)) s.name =
      false :=
      not_readable_remove (.inr rfl)
    rw [hcomplete s hs] at hgone
    cases hgone

variable {names : List (List Char)}

theorem ListsAfter.removals (h : ListsAfter maxFileBytes tree journal segments)
    (hall : ListsThroughout maxFileBytes tree journal)
    (hnames : ∀ name ∈ names, ∃ s ∈ segments, s.name = name) :
    ListsAfter maxFileBytes tree (journal ++ names.map .remove) segments ∧
      ListsThroughout maxFileBytes tree (journal ++ names.map .remove) := by
  induction names generalizing journal with
  | nil =>
    rw [map_nil, append_nil]
    exact ⟨h, hall⟩
  | cons name names ih =>
    obtain ⟨s, hs, rfl⟩ := hnames name mem_cons_self
    have hfirst := h.remove hs
    rw [map_cons, ← singleton_append, ← append_assoc]
    exact ih hfirst (hall.append hfirst) (fun other hother =>
      hnames other (mem_cons_of_mem _ hother))

theorem lookup_removals {other : List Char} (h : other ∉ names) :
    (treeAfter tree (journal ++ names.map .remove)).lookup other =
      (treeAfter tree journal).lookup other := by
  induction names generalizing journal with
  | nil => rw [map_nil, append_nil]
  | cons name names ih =>
    rw [mem_cons, not_or] at h
    rw [map_cons, ← singleton_append, ← append_assoc, ih h.2, treeAfter_append,
      lookup_remove_ne h.1]

end Journal

/-! ## A segmenter at work -/

namespace DashSegmenter

/-- What holds between the calls of a segmenter that started from a directory. -/
structure Session (config : DashOutputConfig) (tree : DashTree) (s : DashSegmenter) : Prop where
  config_eq : s.config = config
  all : ListsThroughout config.maxFileBytes tree s.journal
  tracks : s.failed = false → ListsAfter config.maxFileBytes tree s.journal s.published
  settled : s.failed = false → pendingRemoval s.journal = false
  fresh : s.failed = false → ∀ segment ∈ s.published, segment.sequence < s.nextSequence

variable {config : DashOutputConfig} {tree : DashTree} {s t : DashSegmenter}

theorem Session.quiet (h : Session config tree s) (hquiet : Quiet s t) : Session config tree t := by
  have hfailed : t.failed = false → s.failed = false := by
    intro ht
    cases hs : s.failed with
    | false => rfl
    | true =>
      rw [hquiet.failed hs] at ht
      cases ht
  constructor
  · rw [hquiet.config]
    exact h.config_eq
  · rw [hquiet.journal]
    exact h.all
  · intro ht
    rw [hquiet.journal, hquiet.published]
    exact h.tracks (hfailed ht)
  · intro ht
    rw [hquiet.journal]
    exact h.settled (hfailed ht)
  · intro ht
    rw [hquiet.published, hquiet.nextSequence]
    exact h.fresh (hfailed ht)

theorem Session.of_storesManifest (hconfig : s.config = config)
    (hall : ListsThroughout config.maxFileBytes tree s.journal) (hne : s.published ≠ [])
    (hlistable : ∀ segment ∈ s.published, Listable segment)
    (hnodup : (s.published.map fun segment => segment.sequence).Nodup)
    (hbounded : ∀ segment ∈ s.published, segment.sequence + 1 < 2 ^ 64)
    (hcomplete : Complete config.maxFileBytes (treeAfter tree s.journal) s.published)
    (hfresh : ∀ segment ∈ s.published, segment.sequence < s.nextSequence)
    (hstores : StoresManifest s t) : Session config tree t := by
  obtain ⟨header, text, rfl, hsize, rfl⟩ := hstores
  rw [hconfig] at hsize
  have htracks : ListsAfter config.maxFileBytes tree
      (s.journal ++ [.publish manifestName (.manifest (renderMpd header s.published))])
      s.published := by
    refine ⟨⟨.inr ⟨hne, header, ?_, hsize⟩, hlistable, hnodup, hbounded⟩, ?_⟩
    · rw [treeAfter_append, DashTree.apply, Table.lookup_insert, if_pos rfl]
    · rw [treeAfter_append, pendingRemoval_manifest]
      exact iff_of_true (fun s hs => readable_publish hsize (.inl (hcomplete s hs))) rfl
  exact ⟨hconfig, hall.append htracks, fun _ => htracks, fun _ => pendingRemoval_manifest,
    fun _ => hfresh⟩

theorem segmentDurationMs_bounds (segment : DashSegmentBuilder) (sampleRate : UInt32) :
    0 < segmentDurationMs segment sampleRate ∧ segmentDurationMs segment sampleRate < 2 ^ 64 := by
  have hlast := segment.lastTimestampMs.toNat_lt
  have haudio : (segment.audio.getLast?.map fun sample =>
      sample.timestampMs.toNat + aacSamplesPerFrame * 1000 / max sampleRate.toNat 1).getD 0 <
        2 ^ 33 := by
    cases segment.audio.getLast? with
    | none =>
      rw [Option.map_none, Option.getD_none]
      decide
    | some sample =>
      have hsample := sample.timestampMs.toNat_lt
      have hframe : aacSamplesPerFrame * 1000 / max sampleRate.toNat 1 ≤ 1024000 :=
        Nat.div_le_self _ _
      rw [Option.map_some, Option.getD_some]
      generalize aacSamplesPerFrame * 1000 / max _ 1 = frame at hframe ⊢
      omega
  unfold segmentDurationMs
  dsimp only
  omega

variable {segment : DashSegmentBuilder} {entry : DashPublishedSegment}

theorem IsEntry.listable (h : s.IsEntry segment entry) (hbound : s.nextSequence + 1 < 2 ^ 64) :
    Listable entry := by
  obtain ⟨unixTimeMs, hname⟩ := h.name
  obtain ⟨sampleRate, hduration⟩ := h.duration
  have hbounds := segmentDurationMs_bounds segment sampleRate
  have hsequence := h.sequence
  refine ⟨?_, by omega, ?_, ?_⟩
  · rw [hname]
    exact segmentFilename_isSegmentName
  · rw [hduration]
    exact hbounds.1
  · rw [hduration]
    exact hbounds.2

/-- The playlist with a new segment, trimmed: what is known of it before its manifest is stored. -/
theorem Session.trimmed {a : DashAnswers} {bytes : Bytes} (h : Session config tree s)
    (hfailed : s.failed = false) (hbound : s.nextSequence + 1 < 2 ^ 64)
    (hentry : s.IsEntry segment entry) (hsize : bytes.length ≤ s.config.maxFileBytes)
    {u : DashSegmenter} (hu : u = (s.withSegment segment entry bytes).trimPlaylist a) :
    ListsThroughout config.maxFileBytes tree u.journal ∧
      (∀ segment ∈ u.published, Listable segment) ∧
      (u.published.map fun segment => segment.sequence).Nodup ∧
      Complete config.maxFileBytes (treeAfter tree u.journal) u.published ∧
      ∀ segment ∈ u.published, segment.sequence < u.nextSequence := by
  rw [h.config_eq] at hsize
  have hlists := (h.tracks hfailed).lists
  have hlistable := hentry.listable hbound
  have hname := hlistable.name.ne_manifestName
  -- the file of the new segment
  have hadded := (h.tracks hfailed).publish (h.settled hfailed) hname (.data bytes) hsize
  have hsettled : pendingRemoval (s.journal ++ [.publish entry.name (.data bytes)]) = false :=
    (pendingRemoval_publish hname).trans (h.settled hfailed)
  have hpublished : Complete config.maxFileBytes
      (treeAfter tree (s.journal ++ [.publish entry.name (.data bytes)]))
        (s.published ++ [entry]) := by
    intro other hother
    rcases mem_append.mp hother with hother | hother
    · exact hadded.complete.mpr hsettled other hother
    · rw [mem_singleton.mp hother, treeAfter_append]
      exact readable_publish hsize (.inr rfl)
  -- the playlist with it
  have hall : ∀ other ∈ s.published ++ [entry], Listable other := by
    intro other hother
    rcases mem_append.mp hother with hother | hother
    · exact hlists.listable other hother
    · exact mem_singleton.mp hother ▸ hlistable
  have hbelow : ∀ other ∈ s.published, other.sequence ≠ entry.sequence := by
    intro other hother
    have := h.fresh hfailed other hother
    have := hentry.sequence
    omega
  have hnodup : ((s.published ++ [entry]).map fun segment => segment.sequence).Nodup := by
    rw [map_append, nodup_append]
    refine ⟨hlists.nodup, nodup_singleton _, ?_⟩
    rintro n hn m hm rfl
    obtain ⟨other, hother, rfl⟩ := mem_map.mp hn
    exact hbelow other hother (mem_singleton.mp hm)
  -- what is dropped and what is kept
  obtain ⟨dropped, kept, names, happend, hkept, hnames, htrim⟩ :=
    trimPlaylist_cases a (s.withSegment segment entry bytes)
  have happend : s.published ++ [entry] = dropped ++ kept := happend
  have hkept : kept ≠ [] := hkept (append_ne_nil_of_right_ne_nil _ (cons_ne_nil _ _))
  have hdropped : s.published = dropped ++ kept.dropLast := by
    rw [← dropLast_append_of_ne_nil hkept, ← happend, dropLast_concat]
  have hnames' : ∀ name ∈ names, ∃ segment ∈ s.published, segment.name = name := by
    intro name hmem
    obtain ⟨other, hother, heq⟩ := hnames name hmem
    exact ⟨other, hdropped ▸ mem_append_left _ hother, heq⟩
  have hremoved := hadded.removals (h.all.append hadded) hnames'
  have hmem : ∀ other ∈ kept, other ∈ s.published ++ [entry] := by
    intro other hother
    rw [happend]
    exact mem_append_right _ hother
  rw [htrim] at hu
  subst hu
  rw [happend] at hnodup
  refine ⟨hremoved.2, fun other hother => hall other (hmem other hother), ?_, ?_, ?_⟩
  · rw [map_append] at hnodup
    exact hnodup.of_append_right
  · intro other hother
    have hkeeps : other.name ∉ names := by
      intro hmem'
      obtain ⟨gone, hgone, heq⟩ := hnames _ hmem'
      have hsame := (hall gone (happend ▸ mem_append_left _ hgone)).sequence_eq
        (hall other (hmem other hother)) heq
      rw [map_append] at hnodup
      refine disjoint_of_nodup_append hnodup (mem_map_of_mem hgone) ?_
      rw [hsame]
      exact mem_map_of_mem hother
    have hreadable := hpublished other (hmem other hother)
    unfold readable at hreadable ⊢
    exact (lookup_removals hkeeps).symm ▸ hreadable
  · intro other hother
    have hnext : other.sequence < min (s.nextSequence + 1) (2 ^ 64 - 1) := by
      rcases mem_append.mp (hmem other hother) with hold | hnew
      · have := h.fresh hfailed other hold
        omega
      · have := hentry.sequence
        rw [mem_singleton.mp hnew]
        omega
    exact hnext

/-- **One action keeps the invariant**, as long as there is a sequence number left. -/
theorem Session.action (h : Session config tree s) (hbound : s.nextSequence + 1 < 2 ^ 64)
    (haction : Action s t) : Session config tree t := by
  cases haction with
  | initialization bytes hfailed hsize =>
    rw [h.config_eq] at hsize
    have hname : initializationName ≠ manifestName := by decide
    have htracks := (h.tracks hfailed).publish (h.settled hfailed) hname (.data bytes) hsize
    exact ⟨h.config_eq, h.all.append htracks, fun _ => htracks,
      fun _ => (pendingRemoval_publish hname).trans (h.settled hfailed), fun _ => h.fresh hfailed⟩
  | manifest hfailed hne hstores =>
    have htracks := h.tracks hfailed
    exact .of_storesManifest h.config_eq h.all hne htracks.lists.listable htracks.lists.nodup
      htracks.lists.bounded (htracks.complete.mpr (h.settled hfailed)) (h.fresh hfailed) hstores
  | refused hfailed => exact ⟨h.config_eq, h.all, nofun, nofun, nofun⟩
  | segment a segment entry bytes hfailed hentry hsize hstores =>
    obtain ⟨hall, hlistable, hnodup, hcomplete, hfresh⟩ :=
      h.trimmed hfailed hbound hentry hsize (a := a) rfl
    obtain ⟨dropped, kept, names, happend, hkept, -, htrim⟩ :=
      trimPlaylist_cases a _
    have hconfig : ((s.withSegment segment entry bytes).trimPlaylist a).config = config := by
      exact h.config_eq
    have hnext : ((s.withSegment segment entry bytes).trimPlaylist a).nextSequence < 2 ^ 64 := by
      exact lt_of_le_of_lt (min_le_right _ _) (by decide)
    have hne : ((s.withSegment segment entry bytes).trimPlaylist a).published ≠ [] := by
      rw [htrim]
      exact hkept (append_ne_nil_of_right_ne_nil _ (cons_ne_nil _ _))
    rcases hstores with rfl | hstores
    · exact ⟨hconfig, hall, nofun, nofun, nofun⟩
    · refine .of_storesManifest hconfig hall hne hlistable hnodup (fun other hother => ?_) hcomplete
        hfresh hstores
      have := hfresh other hother
      omega

theorem Action.nextSequence (h : Action s t) :
    t.nextSequence = s.nextSequence ∨ t.nextSequence = min (s.nextSequence + 1) (2 ^ 64 - 1) := by
  cases h with
  | initialization bytes hfailed hsize => exact .inl rfl
  | manifest hfailed hne hstores =>
    obtain ⟨header, text, -, -, rfl⟩ := hstores
    exact .inl rfl
  | refused hfailed => exact .inr rfl
  | segment a segment entry bytes hfailed hentry hsize hstores =>
    rcases hstores with rfl | ⟨header, text, -, -, rfl⟩
    · exact .inr rfl
    · exact .inr rfl

theorem Session.step {call : DashCall} (h : Session config tree s)
    (hbound : s.nextSequence + 1 < 2 ^ 64)
    (hstep : s.step call = .ok t) :
    Session config tree t ∧ t.nextSequence ≤ s.nextSequence + 1 := by
  rcases step_acts hstep with hquiet | ⟨u, v, hu, haction, hv⟩
  · refine ⟨h.quiet hquiet, ?_⟩
    rw [hquiet.nextSequence]
    exact Nat.le_succ _
  · have hbound' : u.nextSequence + 1 < 2 ^ 64 := by
      rw [hu.nextSequence]
      exact hbound
    refine ⟨(((h.quiet hu).action hbound' haction)).quiet hv, ?_⟩
    have hnext := haction.nextSequence
    rw [hu.nextSequence] at hnext
    rw [hv.nextSequence]
    omega

theorem Session.run {calls : List DashCall} (h : Session config tree s)
    (hbound : s.nextSequence + calls.length < 2 ^ 64) (hrun : s.run calls = .ok t) :
    Session config tree t := by
  induction calls generalizing s with
  | nil =>
    cases hrun
    exact h
  | cons call calls ih =>
    rw [length_cons] at hbound
    obtain ⟨u, hstep, hrest⟩ := bind_eq_ok.mp hrun
    obtain ⟨hu, hnext⟩ := h.step (by omega) hstep
    exact ih hu (by omega) hrest

/-! ## Numbers of later segments -/

/-- Segments beyond those of a start have a number from some point on. -/
structure Numbered (old : List DashPublishedSegment) (first : ℕ) (s : DashSegmenter) : Prop where
  next : first ≤ s.nextSequence
  published : ∀ segment ∈ s.published, segment ∈ old ∨ first ≤ segment.sequence

section Numbers

variable {old : List DashPublishedSegment} {first : ℕ}

theorem Numbered.quiet (h : Numbered old first s) (hquiet : Quiet s t) : Numbered old first t := by
  refine ⟨?_, ?_⟩
  · rw [hquiet.nextSequence]
    exact h.next
  · rw [hquiet.published]
    exact h.published

theorem Action.published (h : Action s t) :
    ∀ segment ∈ t.published, segment ∈ s.published ∨ segment.sequence = s.nextSequence := by
  cases h with
  | initialization bytes hfailed hsize => exact fun segment hsegment => .inl hsegment
  | manifest hfailed hne hstores =>
    obtain ⟨header, text, -, -, rfl⟩ := hstores
    exact fun segment hsegment => .inl hsegment
  | refused hfailed => exact fun segment hsegment => .inl hsegment
  | segment a segment entry bytes hfailed hentry hsize hstores =>
    obtain ⟨dropped, kept, names, happend, -, -, htrim⟩ :=
      trimPlaylist_cases a (s.withSegment segment entry bytes)
    have happend : s.published ++ [entry] = dropped ++ kept := happend
    rw [htrim] at hstores
    have hpublished : t.published = kept := by
      rcases hstores with rfl | ⟨header, text, -, -, rfl⟩
      · rfl
      · rfl
    intro other hother
    rw [hpublished] at hother
    have hmem : other ∈ s.published ++ [entry] := happend ▸ mem_append_right _ hother
    rcases mem_append.mp hmem with hold | hnew
    · exact .inl hold
    · rw [mem_singleton.mp hnew]
      exact .inr hentry.sequence

theorem Numbered.step {call : DashCall} (hfirst : first < 2 ^ 64) (h : Numbered old first s)
    (hstep : s.step call = .ok t) : Numbered old first t := by
  rcases step_acts hstep with hquiet | ⟨u, v, hu, haction, hv⟩
  · exact h.quiet hquiet
  · have hbefore := h.quiet hu
    refine Numbered.quiet ⟨?_, fun segment hsegment => ?_⟩ hv
    · have hnext := hbefore.next
      rcases haction.nextSequence with heq | heq
      · omega
      · omega
    · rcases haction.published segment hsegment with hold | hnew
      · exact hbefore.published segment hold
      · rw [hnew]
        exact .inr hbefore.next

theorem Numbered.run {calls : List DashCall} (hfirst : first < 2 ^ 64) (h : Numbered old first s)
    (hrun : s.run calls = .ok t) : Numbered old first t :=
  foldlM_keeps_of_ok (fun _ _ _ hs hstep => hs.step hfirst hstep) calls s t h hrun

end Numbers

/-! ## Recovery -/

/-- The directories that sessions can leave behind: each starts from one of them, and stops after a
part of its journal. A directory without a manifest is the first. -/
inductive Reached (config : DashOutputConfig) : DashTree → Prop
  | start {tree : DashTree} (h : tree.lookup manifestName = none) : Reached config tree
  | crash {tree : DashTree} {s t : DashSegmenter} {calls : List DashCall} {done : List DashWrite}
      (h : Reached config tree) (hnew : new config tree = .ok s)
      (hcalls : s.nextSequence + calls.length < 2 ^ 64) (hrun : s.run calls = .ok t)
      (hdone : done <+: t.journal) : Reached config (treeAfter tree done)

/-- A new segmenter starts, with exactly the segments of the stored manifest, and gives its own
segments numbers above theirs. -/
def Recovers (config : DashOutputConfig) (tree : DashTree) : Prop :=
  ∃ s, new config tree = .ok s ∧ StoredSegments tree s.published ∧
    ∀ calls t, s.run calls = .ok t → ∀ segment ∈ t.published,
      segment ∈ s.published ∨ ∀ old ∈ s.published, old.sequence < segment.sequence

variable {segments : List DashPublishedSegment}

theorem new_eq_ok (h : Lists config.maxFileBytes tree segments) (hnew : new config tree = .ok s) :
    Complete config.maxFileBytes tree segments ∧ s.config = config ∧ s.published = segments ∧
      s.nextSequence = nextSequenceOf segments ∧ s.journal = [] := by
  have hload := loadManifest_of_lists h
  unfold new at hnew
  by_cases hcomplete : Complete config.maxFileBytes tree segments
  · rw [hload.1 hcomplete] at hnew
    cases hnew
    exact ⟨hcomplete, rfl, rfl, rfl, rfl⟩
  · rw [hload.2 hcomplete] at hnew
    cases hnew

theorem session_new (h : Lists config.maxFileBytes tree segments) (hnew : new config tree = .ok s) :
    Session config tree s := by
  obtain ⟨hcomplete, hconfig, hpublished, hnext, hjournal⟩ := new_eq_ok h hnew
  have htracks : ListsAfter config.maxFileBytes tree [] segments := ⟨h, iff_of_true hcomplete rfl⟩
  constructor
  · exact hconfig
  · intro done hdone
    rw [hjournal, prefix_nil] at hdone
    subst hdone
    exact ⟨segments, htracks⟩
  · intro _
    rw [hjournal, hpublished]
    exact htracks
  · intro _
    rw [hjournal]
    rfl
  · intro _
    rw [hpublished, hnext]
    exact (lt_nextSequenceOf h.bounded).2

/-- Every directory that is left behind has a manifest that lists segments, or none. -/
theorem Reached.lists (h : Reached config tree) :
    ∃ segments, Lists config.maxFileBytes tree segments := by
  induction h with
  | start h =>
    exact ⟨[], .inl ⟨h, rfl⟩, nofun, nodup_nil, nofun⟩
  | crash h hnew hcalls hrun hdone ih =>
    obtain ⟨segments, hlists⟩ := ih
    obtain ⟨stored, htracks⟩ := ((session_new hlists hnew).run hcalls hrun).all _ hdone
    exact ⟨stored, htracks.lists⟩

theorem recovers_iff_complete (h : Lists config.maxFileBytes tree segments) :
    Recovers config tree ↔ Complete config.maxFileBytes tree segments := by
  constructor
  · rintro ⟨s, hnew, -, -⟩
    exact (new_eq_ok h hnew).1
  · intro hcomplete
    have hload := (loadManifest_of_lists h).1 hcomplete
    obtain ⟨hlt, hbelow⟩ := lt_nextSequenceOf h.bounded
    refine ⟨_, by rw [new, hload], h.storedSegments, fun calls t hrun segment hsegment => ?_⟩
    have hnumbered := Numbered.run hlt ⟨le_rfl, fun _ hmem => .inl hmem⟩ hrun
    rcases hnumbered.published segment hsegment with hold | hnew
    · exact .inl hold
    · exact .inr fun old hold => lt_of_lt_of_le (hbelow old hold) hnew

/-- **A directory left behind is recovered exactly if no file was removed since its manifest was
stored.** -/
theorem recovers_iff {calls : List DashCall} {done : List DashWrite} (h : Reached config tree)
    (hnew : new config tree = .ok s) (hcalls : s.nextSequence + calls.length < 2 ^ 64)
    (hrun : s.run calls = .ok t) (hdone : done <+: t.journal) :
    Recovers config (treeAfter tree done) ↔ pendingRemoval done = false := by
  obtain ⟨segments, hlists⟩ := h.lists
  obtain ⟨stored, htracks⟩ := ((session_new hlists hnew).run hcalls hrun).all _ hdone
  rw [recovers_iff_complete htracks.lists]
  exact htracks.complete

/-! ## A session that trims its playlist -/

/-- A configuration whose playlist holds thirty milliseconds. -/
def shortDashConfig : DashOutputConfig := { smallDashConfig with playlistLength := 30 }

/-- The segmenter of an empty directory with it. -/
def shortSegmenter : DashSegmenter := { freshSegmenter with config := shortDashConfig }

/-- Two segments of one frame of sound each, 23 milliseconds. The second one pushes the first out of
the playlist. -/
def trimmingCalls : List DashCall :=
  [avcHeader, aacHeader 0 zero_le, dashKeyframe 0, dashAudio 0, dashKeyframe 1000,
    dashAudio 1000,
    dashKeyframe 2000].map fun event => .accept event willingAnswers

/-- The third change stores the first manifest, and the fifth one removes the file that it lists. -/
theorem run_trimmingCalls : (shortSegmenter.run trimmingCalls).toOption.any (fun t =>
      !pendingRemoval (t.journal.take 3) && pendingRemoval (t.journal.take 5)) = true := by
  decide +kernel

theorem exists_run_trimmingCalls : ∃ t, shortSegmenter.run trimmingCalls = .ok t ∧
    pendingRemoval (t.journal.take 3) = false ∧ pendingRemoval (t.journal.take 5) = true := by
  have hany := run_trimmingCalls
  cases hrun : shortSegmenter.run _ with
  | error p =>
    rw [hrun] at hany
    cases hany
  | ok t =>
    rw [hrun] at hany
    have hpending := Bool.and_eq_true_iff.mp hany
    exact ⟨t, rfl, by simpa using hpending.1, hpending.2⟩

theorem reached_empty : Reached shortDashConfig ∅ := .start rfl

theorem recovers_iff_first_manifest : ∃ t, shortSegmenter.run trimmingCalls = .ok t ∧
    Recovers shortDashConfig (treeAfter ∅ (t.journal.take 3)) := by
  obtain ⟨t, hrun, hsettled, -⟩ := exists_run_trimmingCalls
  have hdone : t.journal.take 3 <+: t.journal := take_prefix 3 _
  exact ⟨t, hrun, (recovers_iff reached_empty (rfl : new _ ∅ = .ok _)
    (by decide) hrun hdone).mpr hsettled⟩

/-- A crash right after the removal leaves a directory that no segmenter starts from. -/
theorem not_recovers_after_removal : ∃ t done, Reached shortDashConfig ∅ ∧
    new shortDashConfig ∅ = .ok shortSegmenter ∧ shortSegmenter.run trimmingCalls = .ok t ∧
    done <+: t.journal ∧ ¬ Recovers shortDashConfig (treeAfter ∅ done) ∧
    new shortDashConfig (treeAfter ∅ done) = .error .manifestMalformed := by
  obtain ⟨t, hrun, -, hpending⟩ := exists_run_trimmingCalls
  have hdone := take_prefix 5 t.journal
  have hnew : new shortDashConfig ∅ = .ok shortSegmenter := rfl
  obtain ⟨segments, hlists⟩ := reached_empty.lists
  obtain ⟨stored, htracks⟩ := ((session_new hlists hnew).run (by decide) hrun).all _ hdone
  have hmissing :
    ¬ Complete shortDashConfig.maxFileBytes (treeAfter ∅ (t.journal.take 5)) stored := by
    rw [htracks.complete, hpending]
    exact nofun
  refine ⟨t, _, reached_empty, hnew, hrun, hdone, ?_, ?_⟩
  · rwa [recovers_iff_complete htracks.lists]
  · rw [new, (loadManifest_of_lists htracks.lists).2 hmissing]

end DashSegmenter

end Oxiroute.Rtmp
