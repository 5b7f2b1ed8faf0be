import Oxiroute.Rtmp.Flv

/-!
# The layout of an FLV file

`flvFile flags tags` is the file with these tags: what the muxer writes and what the two readers are
about. `parseFlvEvents_flvFile` and `inspectTail_flvFile` say what they find in it, for tags whose
payloads are those of media events.
-/

namespace Oxiroute.Rtmp

open Lib Http WrittenTag List

def WrittenTag.bytes (t : WrittenTag) : Bytes :=
  FlvMuxer.tagBytes t.tagType t.stampMs t.payload t.payload.length

def flagsOf (tags : List WrittenTag) : UInt8 :=
  tags.foldl (fun flags t => flags ||| t.tagType.flag) 0

def flvFile (flags : UInt8) (tags : List WrittenTag) : Bytes :=
  [0x46, 0x4c, 0x56, 1, flags, 0, 0, 0, 9, 0, 0, 0, 0] ++ tags.flatMap bytes

/-- A payload that fits a tag and is one of a media event of its type. -/
def ValidPayload (tagType : FlvTagType) (payload : Bytes) : Prop :=
  payload.length ≤ maxFlvTagDataSize ∧
    (tagType = .audio → ∃ kind, classifyAudio payload = .ok kind) ∧
    (tagType = .video → ∃ c, classifyVideo payload = .ok c)

def WrittenTag.event? (t : WrittenTag) : Option MediaEvent :=
  match t.tagType with
  | .audio => (MediaEvent.audio t.stampMs t.payload).toOption
  | .video => (MediaEvent.video t.stampMs t.payload).toOption
  | .metadata => none

/-! ## Events of payloads -/

variable {payload : Bytes} {maximumMs : ℕ}

theorem ValidPayload.audio (h : ValidPayload .audio payload) (stampMs : UInt32) :
    ∃ event, MediaEvent.audio stampMs payload = .ok event ∧ event.kind.isAudio = true ∧
      event.timestampMs = stampMs ∧ event.payload = payload := by
  obtain ⟨kind, hkind⟩ := h.2.1 rfl
  unfold MediaEvent.audio
  split
  · rename_i heq
    rw [hkind] at heq
    cases heq
  · rename_i kind' heq
    rw [MediaEvent.new, dif_pos h.1]
    exact ⟨_, rfl, classifyAudio_isAudio heq, rfl, rfl⟩

theorem ValidPayload.video (h : ValidPayload .video payload) (stampMs : UInt32) :
    ∃ event, MediaEvent.video stampMs payload = .ok event ∧ event.kind.isVideo = true ∧
      event.timestampMs = stampMs ∧ event.payload = payload := by
  obtain ⟨c, hc⟩ := h.2.2 rfl
  unfold MediaEvent.video
  split
  · rename_i heq
    rw [hc] at heq
    cases heq
  · rename_i kind codec identifier heq
    rw [MediaEvent.new, dif_pos h.1]
    refine ⟨_, rfl, ?_, rfl, rfl⟩
    rcases classifyVideo_cases heq with rfl | rfl | rfl | rfl
    · cases codec <;> rfl
    all_goals rfl

variable {t : WrittenTag}

theorem WrittenTag.event_spec (h : ValidPayload t.tagType t.payload) :
    (t.tagType = .metadata ∧ t.event? = none) ∨
      ∃ event, t.event? = some event ∧ t.tagType ≠ .metadata ∧
        (event.kind.isAudio = true ↔ t.tagType = .audio) ∧
        (event.kind.isVideo = true ↔ t.tagType = .video) ∧ event.timestampMs = t.stampMs ∧
        event.payload = t.payload := by
  have hdisjoint : ∀ kind : MediaEventKind, ¬(kind.isAudio = true ∧ kind.isVideo = true) := by
    intro kind
    cases kind <;> simp [MediaEventKind.isAudio, MediaEventKind.isVideo]
  unfold event?
  cases htype : t.tagType with
  | metadata => exact .inl ⟨rfl, rfl⟩
  | audio =>
    rw [htype] at h
    obtain ⟨event, heq, hkind, hstamp, hpayload⟩ := h.audio t.stampMs
    refine .inr ⟨event, by rw [heq]; rfl, by simp, by simp [hkind], ?_, hstamp, hpayload⟩
    simp only [reduceCtorEq, iff_false]
    exact fun hv => hdisjoint _ ⟨hkind, hv⟩
  | video =>
    rw [htype] at h
    obtain ⟨event, heq, hkind, hstamp, hpayload⟩ := h.video t.stampMs
    refine .inr ⟨event, by rw [heq]; rfl, by simp, ?_, by simp [hkind], hstamp, hpayload⟩
    simp only [reduceCtorEq, iff_false]
    exact fun ha => hdisjoint _ ⟨ha, hkind⟩

/-! ## Slices of a tag -/

@[simp] theorem WrittenTag.length_bytes : t.bytes.length = t.payload.length + 15 := by
  simp only [bytes, FlvMuxer.tagBytes, length_append, length_beBytes, length_cons, length_nil]
  omega

/-- The fields of a tag, at their places in the bytes from its start. -/
structure TagAt (t : WrittenTag) (rest rest' : Bytes) : Prop where
  code : rest.getD 0 0 = t.tagType.code
  size : ofBeBytes ((rest.drop 1).take 3) = t.payload.length
  stamp : ofBeBytes ((rest.drop 7).take 1 ++ (rest.drop 4).take 3) = t.stampMs.toNat
  payload : (rest.drop 11).take t.payload.length = t.payload
  previous : ofBeBytes ((rest.drop (11 + t.payload.length)).take 4) = t.payload.length + 11
  next : rest.drop (11 + t.payload.length + 4) = rest'

theorem WrittenTag.tagAt (h : t.payload.length ≤ maxFlvTagDataSize) (rest : Bytes) :
    TagAt t (t.bytes ++ rest) rest := by
  have hsize : t.payload.length < 256 ^ 3 := by
    unfold maxFlvTagDataSize at h
    omega
  have hstamp : t.stampMs.toNat < 256 ^ 4 := t.stampMs.toNat_lt
  have hbytes : (t.bytes ++ rest).drop 0 = [t.tagType.code] ++ (beBytes 3 t.payload.length ++
      (beBytes 3 t.stampMs.toNat ++ (beBytes 1 (t.stampMs.toNat / 2 ^ 24) ++ ([0, 0, 0] ++
        (t.payload ++ (beBytes 4 (11 + t.payload.length) ++ rest)))))) := by
    simp [bytes, FlvMuxer.tagBytes]
  have hcode : (t.bytes ++ rest).drop 1 = _ := (drop_field hbytes rfl).1
  obtain ⟨hsizeEnd, hsizeAt⟩ := drop_field hcode length_beBytes
  obtain ⟨hlowEnd, hlowAt⟩ := drop_field hsizeEnd length_beBytes
  obtain ⟨hhighEnd, hhighAt⟩ := drop_field hlowEnd length_beBytes
  have hstream : (t.bytes ++ rest).drop 11 = _ := (drop_field hhighEnd rfl).1
  obtain ⟨hpayloadEnd, hpayloadAt⟩ := drop_field hstream rfl
  obtain ⟨hnext, hprevious⟩ := drop_field hpayloadEnd length_beBytes
  refine ⟨?_, ?_, ?_, hpayloadAt, ?_, hnext⟩
  · rw [drop_zero] at hbytes
    rfl
  · rw [hsizeAt, ofBeBytes_beBytes hsize]
  · rw [hhighAt, hlowAt]
    have hjoin := beBytes_add 1 3 t.stampMs.toNat
    rw [show (256 : ℕ) ^ 3 = 2 ^ 24 from rfl] at hjoin
    rw [← hjoin, ofBeBytes_beBytes hstamp]
  · rw [hprevious, ofBeBytes_beBytes (by omega)]
    omega

/-! ## The parser -/

theorem parseFlvTags_tag (h : ValidPayload t.tagType t.payload) (hmax : t.stampMs.toNat ≤ maximumMs)
    {fuel : ℕ} {rest : Bytes} {events : List MediaEvent} :
    parseFlvTags maximumMs (fuel + 1) (t.bytes ++ rest) events =
      match t.event? with
      | none => parseFlvTags maximumMs fuel rest events
      | some event =>
        if maxVodEvents < events.length + 1 then .error .tooLarge
        else parseFlvTags maximumMs fuel rest (events ++ [event]) := by
  have hat := t.tagAt h.1 rest
  have hlength : (t.bytes ++ rest).length = t.payload.length + 15 + rest.length := by
    rw [length_append, t.length_bytes]
  have hempty : (t.bytes ++ rest).isEmpty = false := by
    rw [isEmpty_eq_false_iff, ← length_pos_iff]
    omega
  rw [parseFlvTags, hempty, if_neg (by simp), if_neg (by omega)]
  simp only [hat.size, hat.stamp, hat.previous, hat.payload, hat.next, hat.code]
  rw [if_neg (by omega), if_neg (by simp), if_pos hmax, UInt32.ofNat_toNat]
  cases htype : t.tagType with
  | metadata =>
    simp [event?, htype, FlvTagType.code]
  | audio =>
    rw [htype] at h
    obtain ⟨event, heq, -⟩ := h.audio t.stampMs
    simp [event?, htype, FlvTagType.code, heq, Except.toOption]
  | video =>
    rw [htype] at h
    obtain ⟨event, heq, -⟩ := h.video t.stampMs
    simp [event?, htype, FlvTagType.code, heq, Except.toOption]

variable {tags : List WrittenTag}

theorem parseFlvTags_tags
    (h : ∀ t ∈ tags, ValidPayload t.tagType t.payload ∧ t.stampMs.toNat ≤ maximumMs) :
    ∀ (fuel : ℕ) (events : List MediaEvent), tags.length ≤ fuel → events.length ≤ maxVodEvents →
      parseFlvTags maximumMs fuel (tags.flatMap bytes) events =
        if events.length + (tags.filterMap event?).length ≤ maxVodEvents then
          .ok (events ++ tags.filterMap event?)
        else .error .tooLarge := by
  induction tags with
  | nil =>
    intro fuel events _ hevents
    rw [flatMap_nil, filterMap_nil, length_nil, add_zero, if_pos hevents, append_nil]
    cases fuel <;> rfl
  | cons t tags ih =>
    intro fuel events hfuel hevents
    obtain ⟨fuel, rfl⟩ := Nat.exists_eq_succ_of_ne_zero (Nat.ne_of_gt (lt_of_lt_of_le
      (Nat.succ_pos _) hfuel))
    have htags := fun t ht => h t (mem_cons_of_mem _ ht)
    obtain ⟨hvalid, hstamp⟩ := h t mem_cons_self
    have hfuel' : tags.length ≤ fuel := Nat.le_of_succ_le_succ hfuel
    rw [flatMap_cons, parseFlvTags_tag hvalid hstamp]
    cases hevent : t.event? with
    | none =>
      rw [filterMap_cons_none hevent]
      exact ih htags fuel events hfuel' hevents
    | some event =>
      rw [filterMap_cons_some hevent, length_cons]
      dsimp only
      split_ifs with hfull hfits hfits
      · omega
      · rfl
      · rw [ih htags fuel _ hfuel' (by rw [length_append, length_singleton]; omega),
          if_pos (by rw [length_append, length_singleton]; omega), append_assoc]
        rfl
      · rw [ih htags fuel _ hfuel' (by rw [length_append, length_singleton]; omega),
          if_neg (by rw [length_append, length_singleton]; omega)]

theorem length_flatMap_bytes (tags : List WrittenTag) :
    tags.length ≤ (tags.flatMap bytes).length := by
  induction tags with
  | nil => simp
  | cons t tags ih =>
    rw [flatMap_cons, length_append, length_cons, t.length_bytes]
    omega

/-- **The parser**: without a limit on the duration it returns the media events of a file, or
refuses it because there are too many. -/
theorem parseFlvEvents_flvFile (flags : UInt8) (h : ∀ t ∈ tags, ValidPayload t.tagType t.payload) :
    parseFlvEvents (flvFile flags tags) Duration.maximum =
      if (tags.filterMap event?).length ≤ maxVodEvents then
        .ok (tags.filterMap event?)
      else .error .tooLarge := by
  have hlength : (flvFile flags tags).length = 13 + (tags.flatMap bytes).length := by
    rw [flvFile, length_append]
    rfl
  have hoffset : ofBeBytes (((flvFile flags tags).drop 5).take 4) = 9 := rfl
  have hmax : min (Duration.maximum.nanos / 10 ^ 6) (2 ^ 32 - 1) = 2 ^ 32 - 1 := by decide
  have hdrop : (flvFile flags tags).drop (9 + 4) = tags.flatMap bytes := rfl
  rw [parseFlvEvents, if_neg]
  · simp only [hoffset, hmax, hdrop]
    refine (parseFlvTags_tags (fun t ht => ⟨h t ht, ?_⟩) _ [] ?_ zero_le).trans ?_
    · have := t.stampMs.toNat_lt
      omega
    · have := length_flatMap_bytes tags
      omega
    · rw [length_nil, zero_add, nil_append]
  · simp [flvFile]

/-! ## The tail -/

/-- **The tail**: the inspection of a file with a tag finds the flags and the last timestamp. -/
theorem inspectTail_flvFile {flags : UInt8} (h : t.payload.length ≤ maxFlvTagDataSize) :
    inspectTail (flvFile flags (tags ++ [t])) = some (flags, t.stampMs) := by
  have hat := t.tagAt h []
  rw [append_nil] at hat
  -- The file is what comes before the last tag, and the tag.
  obtain ⟨before, hfile, hbefore⟩ : ∃ before, flvFile flags (tags ++ [t]) = before ++ t.bytes ∧
      13 ≤ before.length := by
    refine ⟨flvFile flags tags, ?_, ?_⟩
    · simp [flvFile]
    · rw [flvFile, length_append]
      exact Nat.le_add_right _ _
  have hlength : (flvFile flags (tags ++ [t])).length = before.length + t.payload.length + 15 := by
    rw [hfile, length_append, t.length_bytes]
    omega
  have hlast : (flvFile flags (tags ++ [t])).drop
      ((flvFile flags (tags ++ [t])).length - 4) = t.bytes.drop (11 + t.payload.length) := by
    rw [hlength, hfile, show before.length + t.payload.length + 15 - 4 =
      before.length + (11 + t.payload.length) by omega, ← drop_drop, drop_left' rfl]
  have hprevious : ofBeBytes (t.bytes.drop (11 + t.payload.length)) = t.payload.length + 11 := by
    rw [← hat.previous, take_of_length_le]
    rw [length_drop, t.length_bytes]
    omega
  have hstart : (flvFile flags (tags ++ [t])).length - 4 - (t.payload.length + 11) =
      before.length := by omega
  have htag : ((flvFile flags (tags ++ [t])).drop before.length).take 11 = t.bytes.take 11 := by
    rw [hfile, drop_left' rfl]
  have hheader : (t.bytes.take 11).length = 11 := by
    rw [length_take, t.length_bytes]
    omega
  have hslice : ∀ i n, i + n ≤ 11 →
    ((t.bytes.take 11).drop i).take n = (t.bytes.drop i).take n := by
    intro i n hin
    rw [drop_take, take_take, min_eq_left (by omega)]
  rw [inspectTail, if_neg (by omega), if_neg (by simp [flvFile])]
  simp only [hlast, hprevious, hstart, htag, hheader, hslice 1 3 (by omega), hslice 7 1 (by omega),
    hslice 4 3 (by omega), hat.size, hat.stamp, UInt32.ofNat_toNat]
  rw [if_neg (by omega), if_neg (by omega), if_neg (by omega), if_neg (by simp)]
  rfl

end Oxiroute.Rtmp
