import Oxiroute.Rtmp.DashManifest

/-!
# Loading a rendered manifest

`loadManifest` on a manifest that `renderMpd` rendered returns the segments it was rendered from if
the file of every one of them can be read, and an error otherwise (`loadManifest_renderMpd`).

The search for `SegmentURL` tags goes over the text piece by piece, where a piece starts with its
only `<`. What is asked of a segment is `Listable`: its name is one that the segmenter gives, and
its numbers fit.
-/

namespace Oxiroute.Rtmp

open Lib Http List

/-! ## File names -/

/-- A name that ends in a dash, the sequence number and the extension. In front of them stand `seg`
and possibly another number. -/
def IsSegmentName (sequence : ℕ) (name : List Char) : Prop :=
  ∃ front, name = front ++ '-' :: decimal sequence ++ ".m4s".toList ∧
    (front = "seg".toList ∨ ∃ n < 2 ^ 64, front = "seg-".toList ++ decimal n)

/-- A segment as the segmenter lists it. -/
structure Listable (s : DashPublishedSegment) : Prop where
  name : IsSegmentName s.sequence s.name
  sequence : s.sequence < 2 ^ 64
  duration_pos : 0 < s.durationMs
  duration : s.durationMs < 2 ^ 64

theorem segmentFilename_isSegmentName {naming : DashSegmentNaming} {sequence : ℕ}
    {timestampMs : UInt32} {unixTimeMs : UInt64} :
    IsSegmentName sequence (segmentFilename naming sequence timestampMs unixTimeMs.toNat) := by
  cases naming with
  | sequential => exact ⟨"seg".toList, rfl, .inl rfl⟩
  | timestamp =>
    have hlt := timestampMs.toNat_lt
    exact ⟨"seg-".toList ++ decimal _, rfl, .inr ⟨_, by omega, rfl⟩⟩
  | system =>
    exact ⟨"seg-".toList ++ decimal _, rfl, .inr ⟨_, unixTimeMs.toNat_lt, rfl⟩⟩

section Names

variable {sequence : ℕ} {name : List Char} {c : Char}

theorem IsSegmentName.mem (h : IsSegmentName sequence name) (hc : c ∈ name) :
    c.isDigit = true ∨ c ∈ "seg-.m4".toList := by
  obtain ⟨front, rfl, hfront⟩ := h
  have hfixed : ∀ d ∈ "seg-".toList, d.isDigit = true ∨ d ∈ "seg-.m4".toList := by simp
  have hextension : ∀ d ∈ ".m4s".toList, d.isDigit = true ∨ d ∈ "seg-.m4".toList := by simp
  rcases mem_append.mp hc with hc | hc
  · rcases mem_append.mp hc with hc | hc
    · rcases hfront with rfl | ⟨n, -, rfl⟩
      · exact hfixed c (mem_of_mem_take (i := 3) hc)
      · rcases mem_append.mp hc with hc | hc
        · exact hfixed c hc
        · exact .inl (isDigit_of_mem_decimal hc)
    · rcases mem_cons.mp hc with rfl | hc
      · exact .inr (by decide)
      · exact .inl (isDigit_of_mem_decimal hc)
  · exact hextension c hc

theorem IsSegmentName.notMem (h : IsSegmentName sequence name) (hdigit : c.isDigit = false)
    (hfixed : c ∉ "seg-.m4".toList) : c ∉ name := by
  intro hc
  rcases h.mem hc with hc | hc
  · rw [hdigit] at hc
    cases hc
  · exact hfixed hc

theorem toNat_lt_of_isDigit (h : c.isDigit = true) : c.toNat < 128 := by
  have hdigit : c.val ≤ 57 := by
    simp only [Char.isDigit, Bool.and_eq_true, decide_eq_true_eq] at h
    exact h.2
  have hval : c.val.toNat ≤ 57 := hdigit
  change c.val.toNat < 128
  omega

theorem IsSegmentName.ascii (h : IsSegmentName sequence name) : ∀ c ∈ name, c.toNat < 128 := by
  have hfixed : ∀ c ∈ "seg-.m4".toList, c.toNat < 128 := by simp
  intro c hc
  rcases h.mem hc with hdigit | hc
  · exact toNat_lt_of_isDigit hdigit
  · exact hfixed c hc

theorem textSize_of_ascii {text : List Char} (h : ∀ c ∈ text, c.toNat < 128) :
    textSize text = text.length := by
  induction text with
  | nil => rfl
  | cons c text ih =>
    have hsize : c.utf8Size = 1 := by
      have hc : c.val.toNat < 128 := h c mem_cons_self
      have hle : c.val ≤ 0x7f := by
        exact Nat.le_of_lt_succ hc
      simp [Char.utf8Size, hle]
    have hrest := ih fun d hd => h d (mem_cons_of_mem _ hd)
    rw [textSize] at hrest
    rw [textSize, map_cons, sum_cons, hsize, hrest, length_cons, add_comm]

theorem length_decimal_le {n : ℕ} (h : n < 2 ^ 64) : (decimal n).length ≤ 20 :=
  (Nat.length_toDigits_le_iff (by omega) (by omega)).mpr (h.trans (by decide))

variable (h : IsSegmentName sequence name)
include h

theorem IsSegmentName.length_le (hsequence : sequence < 2 ^ 64) : name.length ≤ 256 := by
  obtain ⟨front, rfl, hfront⟩ := h
  have hdecimal := length_decimal_le hsequence
  have hfront : front.length ≤ 24 := by
    rcases hfront with rfl | ⟨n, hn, rfl⟩
    · decide
    · have := length_decimal_le hn
      rw [length_append]
      simp only [String.length_toList]
      have : "seg-".length = 4 := rfl
      omega
  have hextension : ".m4s".toList.length = 4 := rfl
  rw [length_append, length_append, length_cons, hextension]
  omega

theorem IsSegmentName.sequenceFromFilename (hsequence : sequence < 2 ^ 64) :
    sequenceFromFilename name = some sequence := by
  obtain ⟨front, rfl, -⟩ := h
  have hlast : afterLast '-' (front ++ '-' :: decimal sequence) = decimal sequence :=
    afterLast_append_cons (notMem_decimal rfl)
  rw [Rtmp.sequenceFromFilename, stripSuffix_append, Option.bind_eq_bind, Option.bind_some, hlast,
    parseDecimal_decimal hsequence]

theorem IsSegmentName.fileExtension : fileExtension name = some "m4s".toList := by
  obtain ⟨front, rfl, -⟩ := h
  have hlast : afterLast '.' (front ++ '-' :: decimal sequence ++ ".m4s".toList) =
      "m4s".toList := by
    exact afterLast_append_cons (by decide)
  have hlength : (front ++ '-' :: decimal sequence ++ ".m4s".toList).length =
      front.length + (decimal sequence).length + 5 := by
    simp
    omega
  have hne : front ++ '-' :: decimal sequence ++ ".m4s".toList ≠ "..".toList := by
    intro heq
    have := congrArg List.length heq
    rw [hlength] at this
    simp at this
  have hm4s : "m4s".toList.length = 3 := rfl
  have hdot : '.' ∈ front ++ '-' :: decimal sequence ++ ".m4s".toList := by
    exact mem_append_right _ mem_cons_self
  rw [Rtmp.fileExtension, hlast, hlength, hm4s]
  exact if_pos ⟨hdot, hne, by omega⟩

theorem IsSegmentName.pathComponents : pathComponents name = [name] := by
  have hslash : '/' ∉ name := h.notMem rfl (by decide)
  have hlong : 1 < name.length := by
    obtain ⟨front, rfl, -⟩ := h
    simp
    omega
  have hne : name ≠ [] ∧ name ≠ ['.'] := by
    constructor
    · rintro rfl
      simp at hlong
    · rintro rfl
      simp at hlong
  rw [Rtmp.pathComponents, splitOn_eq_singleton hslash]
  simp [hne]

theorem IsSegmentName.valid (hsequence : sequence < 2 ^ 64) : validSegmentFilename name = true := by
  have hsize : textSize name ≤ maxDashFilenameBytes := by
    rw [textSize_of_ascii h.ascii]
    exact h.length_le hsequence
  have hstart : "seg-".toList.isPrefixOf name = true := by
    obtain ⟨front, rfl, rfl | ⟨n, -, rfl⟩⟩ := h
    · rfl
    · rfl
  have hdots : name ≠ "..".toList := by
    rintro rfl
    have := h.fileExtension
    revert this
    decide
  have hascii : name.all (fun c => decide (c.toNat < 128)) = true := by
    rw [all_eq_true]
    exact fun c hc => decide_eq_true (h.ascii c hc)
  simp only [validSegmentFilename, h.pathComponents, h.sequenceFromFilename hsequence,
    getLast?_singleton, Option.bind_some, h.fileExtension, hascii, hstart]
  simp only [hsize, hdots, decide_true, Option.any_some, all_cons, all_nil, Bool.and_true,
    Bool.true_and, Option.isSome_some, ne_eq, not_false_eq_true]
  rfl

end Names

/-! ## Tags -/

variable {name a : List Char}

theorem xmlAttribute_eq {before value rest : List Char}
    (h : Skips (name ++ "=\"".toList) before) (hvalue : '"' ∉ value) :
    xmlAttribute (before ++ (name ++ "=\"".toList ++ (value ++ '"' :: rest))) name =
      some value := by
  have hquote : breakOn ['"'] (value ++ '"' :: rest) = some (value, '"' :: rest) :=
    (skips_of_notMem hvalue).found
  rw [xmlAttribute, h.found, Option.bind_eq_bind, Option.bind_some]
  simp [hquote]

section Attributes

variable {s : DashPublishedSegment}

variable (h : IsSegmentName s.sequence s.name)
include h

theorem xmlAttribute_media : xmlAttribute (segmentAttributes s) "media".toList = some s.name := by
  have hstart : Skips "media=\"".toList tagStart := skips_of_avoids (by decide)
  exact xmlAttribute_eq hstart (h.notMem rfl (by decide))

theorem xmlAttribute_t :
    xmlAttribute (segmentAttributes s) ['t'] = some (decimal s.startTimestampMs.toNat) := by
  have hname : 't' ∉ s.name := h.notMem rfl (by decide)
  have hmedia : Skips "t=\"".toList (tagStart ++ "media=\"".toList ++ s.name ++ "\" ".toList) :=
    ((skips_of_avoids (by decide)).append (skips_of_notMem hname)).append
      (skips_of_avoids (by decide))
  rw [segmentAttributes, ← append_assoc, ← append_assoc, ← append_assoc]
  exact xmlAttribute_eq hmedia (notMem_decimal rfl)

theorem xmlAttribute_d :
    xmlAttribute (segmentAttributes s) ['d'] = some (decimal s.durationMs) := by
  have hname : 'd' ∉ s.name := h.notMem rfl (by decide)
  have hmedia : Skips "d=\"".toList (tagStart ++ "media=\"".toList ++ s.name ++ "\" ".toList) :=
    ((skips_of_avoids (by decide)).append (skips_of_notMem hname)).append
      (skips_of_avoids (by decide))
  have hstart : 'd' ∉ decimal s.startTimestampMs.toNat := notMem_decimal rfl
  have ht := ((hmedia.append (skips_of_avoids (a := "t=\"".toList) (by decide))).append
    (skips_of_notMem hstart)).append (skips_of_avoids (a := "\" ".toList) (by decide))
  rw [segmentAttributes, ← append_assoc, ← append_assoc, ← append_assoc, ← append_assoc,
    ← append_assoc, ← append_assoc]
  exact xmlAttribute_eq ht (notMem_decimal rfl)

omit h

theorem parseSegmentTag_eq (h : Listable s) : parseSegmentTag (segmentAttributes s) = some s := by
  have hstart : UInt32.ofNat s.startTimestampMs.toNat = s.startTimestampMs := UInt32.ofNat_toNat
  have hduration : s.durationMs ≠ 0 := h.duration_pos.ne'
  simp only [parseSegmentTag, xmlAttribute_media h.name, xmlAttribute_t h.name,
    xmlAttribute_d h.name, Option.bind_eq_bind, Option.bind_some, parseDecimal_decimal h.duration,
    parseDecimal_decimal s.startTimestampMs.toNat_lt, h.name.valid h.sequence,
    h.name.sequenceFromFilename h.sequence, hstart]
  rw [if_neg hduration]
  rfl

end Attributes

/-! ## The text around the tags -/

theorem tagStart_eq : tagStart = '<' :: "SegmentURL ".toList := by decide

theorem skips_plain (h : '<' ∉ a) : Skips tagStart a := by
  rw [tagStart_eq]
  exact skips_of_notMem h

theorem isDigit_digitChar : ∀ k < 10, (Nat.digitChar k).isDigit = true := by decide

theorem skips_decimal {n : ℕ} : Skips tagStart (decimal n) := skips_plain (notMem_decimal rfl)

theorem skips_isoDuration (n : ℕ) : Skips tagStart (isoDuration n) := by
  have hdigits : '<' ∉ [n % 1000 / 100, n % 1000 / 10 % 10, n % 1000 % 10].map Nat.digitChar := by
    intro hmem
    obtain ⟨k, hk, heq⟩ := mem_map.mp hmem
    have hlt : k < 10 := by
      simp only [mem_cons, not_mem_nil, or_false] at hk
      omega
    have := isDigit_digitChar k hlt
    rw [heq] at this
    cases this
  unfold isoDuration
  dsimp only
  split
  · exact ((skips_plain (by decide)).append skips_decimal).append (skips_plain (by decide))
  · refine ((skips_plain (by decide)).append skips_decimal).append ?_ |>.append
      (skips_plain (by decide))
    refine skips_plain ?_
    rw [mem_cons, not_or]
    refine ⟨by decide, fun hmem => hdigits ?_⟩
    exact mem_reverse.mp ((dropWhile_sublist _).mem (mem_reverse.mp hmem))

theorem skips_codecString (profile compatibility level : UInt8) :
    Skips tagStart (codecString profile compatibility level) := by
  have hdigit : ∀ k < 16, Nat.digitChar k ≠ '<' := by decide
  have hhex : ∀ b : UInt8, Skips tagStart (hexByte b) := by
    intro b
    have hb := b.toNat_lt
    refine skips_plain ?_
    simp only [hexByte, mem_cons, not_mem_nil, or_false, not_or]
    exact ⟨(hdigit _ (by omega)).symm, (hdigit _ (by omega)).symm⟩
  exact (((skips_plain (by decide)).append (hhex _)).append (hhex _)).append (hhex _)

theorem skips_sizeAttribute (h : '<' ∉ name) {value : UInt16} :
    Skips tagStart (sizeAttribute name value) := by
  unfold sizeAttribute
  split
  · refine ((Skips.append (skips_plain ?_) (skips_plain (by decide))).append
      skips_decimal).append (skips_plain (by decide))
    rw [mem_cons, not_or]
    exact ⟨by decide, h⟩
  · exact skips_plain (by decide)

variable {h : ManifestHeader}

theorem skips_manifestHead {segments : List DashPublishedSegment} :
    Skips tagStart (manifestHead h segments) := by
  have hxml : Skips tagStart xmlLine := skips_of_avoids (by decide)
  have hkind : Skips tagStart (if h.endList then "static".toList else "dynamic".toList) := by
    split <;> exact skips_plain (by decide)
  have hmpd : Skips tagStart mpdStart := skips_of_avoids (by decide)
  have hprofiles : Skips tagStart mpdProfiles := skips_plain (by decide)
  have hdepth : Skips tagStart mpdDepth := skips_plain (by decide)
  have hperiod : Skips tagStart periodTag := skips_of_avoids (by decide)
  have hadaptation : Skips tagStart adaptationStart := skips_of_avoids (by decide)
  have haudio : Skips tagStart ",mp4a.40.2".toList := skips_plain (by decide)
  have hrepresentation : Skips tagStart representationStart := skips_of_avoids (by decide)
  have hlist : Skips tagStart segmentListTag := skips_of_avoids (by decide)
  have hinitialization : Skips tagStart initializationTag := skips_of_avoids (by decide)
  have hend : Skips tagStart ">\n".toList := skips_plain (by decide)
  have htagEnd : Skips tagStart tagEnd := skips_plain (by decide)
  have hwidth : Skips tagStart (sizeAttribute "width".toList h.width) :=
    skips_sizeAttribute (by decide)
  have hheight : Skips tagStart (sizeAttribute "height".toList h.height) :=
    skips_sizeAttribute (by decide)
  have hmpdTag := (((((hmpd.append hkind).append hprofiles).append
    (skips_isoDuration (totalDurationMs segments))).append hdepth).append
    (skips_isoDuration h.playlistLengthMs)).append htagEnd
  have hadaptationTag := ((hadaptation.append
    (skips_codecString h.profile h.compatibility h.level)).append haudio).append htagEnd
  have hrepresentationTag := ((hrepresentation.append hwidth).append hheight).append hend
  exact (((((hxml.append hmpdTag).append hperiod).append hadaptationTag).append
    hrepresentationTag).append hlist).append hinitialization

theorem skips_manifestTail : Skips tagStart (manifestTail h) := by
  have hlist : Skips tagStart segmentListEnd := skips_of_avoids (by decide)
  have hadaptation : Skips tagStart adaptationEnd :=
    (skips_of_avoids (by decide)).append (skips_of_avoids (by decide))
  have hstart : Skips tagStart "<!-- AAC sample rate ".toList := skips_of_avoids (by decide)
  have hhertz : Skips tagStart " Hz, ".toList := skips_plain (by decide)
  have hchannels : Skips tagStart " channels, ".toList := skips_plain (by decide)
  have hobject : Skips tagStart "object type ".toList := skips_plain (by decide)
  have hstop : Skips tagStart " -->\n".toList := skips_plain (by decide)
  have hcomment : Skips tagStart (audioComment h) :=
    ((((((hstart.append skips_decimal).append hhertz).append skips_decimal).append
      hchannels).append hobject).append skips_decimal).append hstop
  have hmpd : Skips tagStart mpdEnd :=
    (skips_of_avoids (by decide)).append (skips_of_avoids (by decide))
  exact ((hlist.append hadaptation).append hcomment).append hmpd

section Parts

variable {h : ManifestHeader} {segments : List DashPublishedSegment} {p a b : List Char}

theorem infix_append_left (hp : p <:+: a) : p <:+: a ++ b :=
  hp.trans (prefix_append a b).isInfix

theorem infix_append_right (hp : p <:+: b) : p <:+: a ++ b :=
  hp.trans (suffix_append a b).isInfix

theorem xmlLine_isPrefix : xmlLine <+: renderMpd h segments := by
  simp only [renderMpd, manifestHead, append_assoc]
  exact prefix_append _ _

theorem mpdStart_occurs : mpdStart <:+: manifestHead h segments := by
  simp only [manifestHead, append_assoc]
  exact infix_append_right (prefix_append _ _).isInfix

theorem segmentListTag_occurs : segmentListTag <:+: manifestHead h segments :=
  infix_append_left (suffix_append _ _).isInfix

theorem isManifest_renderMpd : isManifest (renderMpd h segments) = true := by
  have hxml : "<?xml".toList <+: renderMpd h segments :=
    (by decide : "<?xml".toList <+: xmlLine).trans xmlLine_isPrefix
  have hmpd : "<MPD ".toList <:+: renderMpd h segments :=
    infix_append_left ((by decide : "<MPD ".toList <:+: mpdStart).trans mpdStart_occurs)
  have hlist : "<SegmentList ".toList <:+: renderMpd h segments :=
    infix_append_left ((by decide : "<SegmentList ".toList <:+: segmentListTag).trans
      segmentListTag_occurs)
  have hlistEnd : segmentListEnd <:+: manifestTail h := by
    exact (prefix_append _ _).isInfix
  have hmpdEnd : "</MPD>".toList <:+: manifestTail h :=
    infix_append_right (by decide : "</MPD>".toList <:+: mpdEnd)
  unfold isManifest
  simp only [Bool.and_eq_true]
  rw [← isPrefixOf_iff_prefix] at hxml
  exact ⟨⟨⟨⟨hxml, containsText_of_infix hmpd⟩,
    containsText_of_infix hlist⟩,
    containsText_of_infix (infix_append_right (infix_append_right hlistEnd))⟩,
    containsText_of_infix (infix_append_right (infix_append_right hmpdEnd))⟩

end Parts

/-! ## The loop -/

section Loop

variable {maxFileBytes : ℕ} {tree : DashTree} {s : DashPublishedSegment}

theorem breakOn_segmentTag (hs : Listable s) {rest : List Char} :
    breakOn tagStop (segmentTag s ++ rest) =
      some (segmentAttributes s, tagStop ++ '\n' :: rest) := by
  have hstart : '/' ∉ tagStart := by decide
  have hname : '/' ∉ s.name := hs.name.notMem rfl (by decide)
  have hslash : '/' ∉ segmentAttributes s := by
    unfold segmentAttributes
    rw [mem_append, mem_append, mem_append, mem_append, mem_append,
      mem_append, mem_append, mem_append, mem_append]
    simp only [not_or]
    exact ⟨hstart, by decide, hname, by decide, by decide, notMem_decimal rfl, by decide, by decide,
      notMem_decimal rfl, by decide⟩
  have htag : segmentTag s ++ rest = segmentAttributes s ++ (tagStop ++ '\n' :: rest) := by
    rw [segmentTag, append_assoc, append_assoc, singleton_append]
  rw [htag]
  exact (skips_of_notMem hslash).found

/-- One round: the text in front of a tag and the tag are read. -/
theorem loadSegments_tag {front rest : List Char} {published : List DashPublishedSegment} {fuel : ℕ}
    (hfront : Skips tagStart front) (hs : Listable s)
    (hfresh : ∀ other ∈ published, other.sequence ≠ s.sequence) :
    loadSegments maxFileBytes tree (fuel + 1) (front ++ (segmentTag s ++ rest)) published =
      if readable maxFileBytes tree s.name = false then .error .manifestMalformed
      else loadSegments maxFileBytes tree fuel (['\n'] ++ rest) (published ++ [s]) := by
  have hprefix : tagStart <+: segmentTag s := by
    exact prefix_append _ _
  have htag : breakOn tagStart (segmentTag s ++ rest) = some ([], segmentTag s ++ rest) :=
    breakOn_append_of_isPrefix hprefix
  have hany : published.any (fun other => decide (other.sequence = s.sequence)) = false := by
    rw [any_eq_false]
    intro other hother
    simpa using hfresh other hother
  have hdrop : (tagStop ++ '\n' :: rest).drop 2 = ['\n'] ++ rest := drop_left' rfl
  rw [loadSegments, hfront, htag, Option.map_some]
  simp [breakOn_segmentTag hs, parseSegmentTag_eq hs, hdrop, hany]

/-- The loop over all tags: it reads every segment, unless one has no file. -/
theorem loadSegments_tags {tail : List Char} (htail : Skips tagStart tail) :
    ∀ {segments : List DashPublishedSegment} {front : List Char}
      {published : List DashPublishedSegment} {fuel : ℕ}, Skips tagStart front →
      (∀ s ∈ segments, Listable s) →
      ((published ++ segments).map fun s => s.sequence).Nodup → segments.length < fuel →
      loadSegments maxFileBytes tree fuel (front ++ (segments.flatMap segmentTag ++ tail))
        published =
        if ∀ s ∈ segments, readable maxFileBytes tree s.name = true then .ok (published ++ segments)
        else .error .manifestMalformed := by
  intro segments
  induction segments with
  | nil =>
    intro front published fuel hfront _ _ hfuel
    obtain ⟨fuel, rfl⟩ := Nat.exists_eq_add_of_lt hfuel
    have hnone : breakOn tagStart (front ++ ([].flatMap segmentTag ++ tail)) = none := by
      rw [flatMap_nil, nil_append, tagStart_eq]
      exact Skips.breakOn_eq_none (tagStart_eq ▸ hfront.append htail)
    rw [loadSegments, hnone]
    simp
  | cons s segments ih =>
    intro front published fuel hfront hlistable hnodup hfuel
    obtain ⟨fuel, rfl⟩ : ∃ n, fuel = n + 1 := Nat.exists_eq_succ_of_ne_zero (by omega)
    have hs := hlistable s mem_cons_self
    have hfresh : ∀ other ∈ published, other.sequence ≠ s.sequence := by
      intro other hother heq
      rw [map_append, map_cons] at hnodup
      refine disjoint_of_nodup_append hnodup (mem_map_of_mem hother) ?_
      rw [heq]
      exact mem_cons_self
    have hnodup' : (((published ++ [s]) ++ segments).map fun s => s.sequence).Nodup := by
      rwa [append_assoc, singleton_append]
    rw [flatMap_cons, append_assoc, loadSegments_tag hfront hs hfresh,
      ih (skips_plain (by decide)) (fun t ht => hlistable t (mem_cons_of_mem _ ht)) hnodup'
        (by simpa using hfuel)]
    by_cases hreadable : readable maxFileBytes tree s.name = true
    · simp [hreadable]
    · simp [hreadable]

end Loop

/-! ## The manifest -/

section Manifest

variable {maxFileBytes : ℕ} {tree : DashTree} {h : ManifestHeader}
  {segments : List DashPublishedSegment}

theorem length_segments_lt : segments.length < (renderMpd h segments).length := by
  have htags : segments.length ≤ (segments.flatMap segmentTag).length := by
    induction segments with
    | nil => exact le_rfl
    | cons s segments ih =>
      have hlength : 1 ≤ (segmentTag s).length := by
        exact Nat.le_add_left 1 _ |>.trans (Nat.le_add_left _ _)
      rw [flatMap_cons, length_append, length_cons]
      omega
  have htail : 0 < (manifestTail h).length := by
    rw [manifestTail, length_append]
    exact lt_of_lt_of_le (by decide : 0 < mpdEnd.length) (Nat.le_add_left _ _)
  rw [renderMpd, length_append, length_append]
  omega

theorem loadManifest_renderMpd (hstored :
    tree.lookup manifestName = some (.manifest (renderMpd h segments)))
    (hsize : textSize (renderMpd h segments) ≤ maxFileBytes) (hne : segments ≠ [])
    (hlistable : ∀ s ∈ segments, Listable s) (hnodup : (segments.map fun s => s.sequence).Nodup) :
    loadManifest maxFileBytes tree =
      if ∀ s ∈ segments, readable maxFileBytes tree s.name = true then
        .ok (segments, nextSequenceOf segments)
      else .error .manifestMalformed := by
  have hload :
      loadSegments maxFileBytes tree (renderMpd h segments).length (renderMpd h segments) [] =
      if ∀ s ∈ segments, readable maxFileBytes tree s.name = true then .ok segments
      else .error .manifestMalformed :=
    loadSegments_tags skips_manifestTail skips_manifestHead hlistable hnodup length_segments_lt
  rw [loadManifest, hstored]
  simp only [if_neg (not_lt.mpr hsize), isManifest_renderMpd, Bool.true_eq_false, if_false]
  rw [hload]
  split_ifs
  · cases segments with
    | nil => exact absurd rfl hne
    | cons s segments => rfl
  · rfl

end Manifest

end Oxiroute.Rtmp
