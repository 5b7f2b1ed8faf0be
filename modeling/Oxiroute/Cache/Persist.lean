import Oxiroute.Cache.RoundTrip
import Oxiroute.Cache.System

/-!
# Entries survive a restart

`prepared_accepted`: of what the decoder asks of a record, an entry the cache prepared has
everything but one thing. Its authority was made canonical, and the decoder wants the canonical form
of that to be itself. Where it is, `decodeRecord_encodeRecord_iff` gives the entry back.

The other limit is the stamp: a wall-clock time before the epoch is written as the epoch, so the
time from there to the epoch is missing from the age.
-/

set_option maxRecDepth 100000

namespace Oxiroute.Cache

open Lib Http Small Decode Vary List

/-! ## The base key -/

theorem toLower_toLower {c : Char} : c.toLower.toLower = c.toLower := by
  unfold Char.toLower
  split_ifs with hupper hagain
  · -- a lowered letter is above the capital ones
    simp only [ge_iff_le, UInt32.le_iff_toNat_le, UInt32.toNat_add] at hupper hagain
    have hA : 'A'.val.toNat = 65 := rfl
    have hZ : 'Z'.val.toNat = 90 := rfl
    have hdiff : ('a'.val - 'A'.val).toNat = 32 := rfl
    omega
  · rfl
  · rfl

theorem strLower_strLower {s : String} : strLower (strLower s) = strLower s := by
  have h : Char.toLower ∘ Char.toLower = Char.toLower := funext fun _ => toLower_toLower
  simp [strLower, h]

variable {maxBytes : ℕ} {name : HeaderName} {names : List HeaderName} {headers : HeaderMap}

/-- A base key a GET request built is canonical iff its authority is. -/
theorem canonical_iff [Crates] {request : RequestKeyInput} {k : BaseKey}
    (hget : request.method = Method.get) (h : BaseKey.new request maxBytes = .ok k) :
    k.Canonical maxBytes ↔ canonicalAuthority k.authority k.scheme = .ok k.authority := by
  obtain ⟨⟨hpath, hquery, hscheme⟩, _, ⟨hm, hs, hp, hq⟩, hlen⟩ := BaseKey.new_eq_ok.mp h
  have hne : Method.get ≠ Method.head := by decide
  rw [hget, if_neg hne] at hm
  have hlower : strLower k.scheme = k.scheme := by rw [hs, strLower_strLower]
  have hisGet : k.isGet = true := by simp [BaseKey.isGet, hm]
  unfold BaseKey.Canonical
  rw [BaseKey.new_eq_ok]
  simp only [BaseKey.asInput, hlower, hm, if_neg hne, hisGet, and_true, true_and]
  rw [hp, hq]
  constructor
  · exact fun hc => hc.2.1
  · exact fun hc => ⟨⟨hpath, hquery, hs ▸ hscheme⟩, hc, hlen⟩

/-! ## The selected fields -/

theorem HeaderName.length_fromBytes {raw : Bytes} (h : HeaderName.fromBytes raw = some name) :
    name.bytes.length = raw.length := by
  unfold HeaderName.fromBytes at h
  split_ifs at h
  cases h
  exact length_map _

theorem checkedAdd_eq_some {a b c : ℕ} (h : checkedAdd a b = some c) : c = a + b := by
  unfold checkedAdd at h
  split_ifs at h
  exact (Option.some.inj h).symm

variable {maxFields maximum : ℕ} {config : CacheConfig} {v : HeaderValue} {e : RecoveredEntry}
  {now : MonoTime} {wall : SystemTime}

/-- The names of a parsed `Vary` are some names within the limits, sorted and without
repetition. -/
theorem parseElements_names {elements : List Bytes} :
    ∀ {found : List HeaderName} {bytes : ℕ} {names : List HeaderName},
      found.length ≤ maxFields → (∀ n ∈ found, n.bytes.length ≤ maxBytes) →
      parseElements maxFields maxBytes elements found bytes = .ok (.names names) →
      ∃ all : List HeaderName, all.length ≤ maxFields ∧ (∀ n ∈ all, n.bytes.length ≤ maxBytes)
        ∧ names = (all.insertionSort fun a b => nameLe a b).destutter (· ≠ ·) := by
  induction elements with
  | nil =>
    intro found bytes names hcount hbytes h
    exact ⟨found, hcount, hbytes, (Vary.names.inj (Except.ok.inj h)).symm⟩
  | cons raw elements ih =>
    intro found bytes names hcount hbytes h
    rw [parseElements] at h
    split_ifs at h
    · cases h
    · cases hadd : checkedAdd bytes _ with
      | none =>
        rw [hadd] at h
        cases h
      | some total =>
        simp only [hadd] at h
        obtain ⟨htotal, h⟩ := guard_eq_ok.mp h
        cases hname : HeaderName.fromBytes _ with
        | none =>
          rw [hname] at h
          cases h
        | some name =>
          simp only [hname] at h
          obtain ⟨hfull, h⟩ := guard_eq_ok.mp h
          refine ih (not_lt.mp hfull) ?_ h
          intro n hn
          rcases mem_append.mp hn with hn | hn
          · exact hbytes n hn
          · rw [mem_singleton.mp hn, HeaderName.length_fromBytes hname]
            have := checkedAdd_eq_some hadd
            omega

theorem nameLe_iff {a b : HeaderName} :
    nameLe a b = true ↔ a.bytes.map UInt8.toNat ≤ b.bytes.map UInt8.toNat := by
  simp [nameLe]

theorem ascending_names (hsorted : names.Pairwise fun a b => nameLe a b = true)
    (hchain : names.IsChain (· ≠ ·)) : ascending (names.map (varyValue headers)) = true := by
  unfold ascending
  induction names with
  | nil => rfl
  | cons a names ih =>
    cases names with
    | nil => rfl
    | cons b names =>
      obtain ⟨hne, hchain⟩ := isChain_cons_cons.mp hchain
      obtain ⟨hle, hsorted⟩ := pairwise_cons.mp hsorted
      have hstrict : nameLe b a = false := by
        by_contra hba
        rw [Bool.not_eq_false] at hba
        have heq := le_antisymm (nameLe_iff.mp (hle b mem_cons_self)) (nameLe_iff.mp hba)
        exact hne (HeaderName.bytes_injective (BaseKey.map_toNat_injective heq))
      have h := ih hsorted hchain
      simp only [map_cons, tail_cons, zip_cons_cons, all_cons] at h ⊢
      simp only [varyValue] at h ⊢
      rw [hstrict]
      exact h

instance : Std.Total fun a b : HeaderName => nameLe a b = true :=
  ⟨fun a b => by simpa only [nameLe_iff] using le_total _ _⟩

instance : IsTrans HeaderName fun a b => nameLe a b = true :=
  ⟨fun _ _ _ hab hbc => nameLe_iff.mpr ((nameLe_iff.mp hab).trans (nameLe_iff.mp hbc))⟩

/-- What is known of the `Vary` part of a prepared key. -/
theorem parse_accepted {requestHeaders : HeaderMap}
    (h : parse headers maxFields maxBytes = .ok (.names names)) :
    names.length ≤ maxFields ∧ (∀ n ∈ names, n.bytes.length ≤ maxBytes)
      ∧ ascending (names.map (varyValue requestHeaders)) = true := by
  obtain ⟨all, hcount, hbytes, rfl⟩ :=
    parseElements_names zero_le (by simp) h
  have hsub := destutter_sublist (· ≠ ·) (all.insertionSort fun a b => nameLe a b)
  refine ⟨?_, ?_, ?_⟩
  · exact hsub.length_le.trans ((length_insertionSort _ all).trans_le hcount)
  · intro n hn
    exact hbytes n ((mem_insertionSort _).mp (hsub.subset hn))
  · refine ascending_names ?_ (isChain_destutter _ _)
    exact (pairwise_insertionSort _ all).sublist hsub

/-- What one selected field adds to the length of a key. -/
def varyLen (size : ℕ) (value : VaryValue) : ℕ :=
  satAdd (satAdd (satAdd size value.name.bytes.length) value.value.length) (1 + 2 * 4)

theorem le_foldl_varyLen (l : List VaryValue) : ∀ size : ℕ, min size usizeMax ≤ l.foldl varyLen size
      ∧ ∀ v ∈ l, min v.value.length usizeMax ≤ l.foldl varyLen size := by
  induction l with
  | nil => exact fun size => ⟨min_le_left _ _, by simp⟩
  | cons v l ih =>
    intro size
    obtain ⟨hstart, hall⟩ := ih _
    have hstep : min size usizeMax ≤ min (varyLen size v) usizeMax
        ∧ min v.value.length usizeMax ≤ min (varyLen size v) usizeMax := by
      unfold varyLen satAdd
      omega
    refine ⟨hstep.1.trans hstart, ?_⟩
    intro w hw
    rcases mem_cons.mp hw with rfl | hw
    · exact hstep.2.trans hstart
    · exact hall w hw

theorem value_le_of_encodedLen {k : CacheKey} (h : k.encodedLen ≤ maximum) {v : VaryValue}
    (hv : v ∈ k.vary) (hshort : v.value.length < 2 ^ 32) : v.value.length ≤ maximum := by
  have hle := (le_foldl_varyLen k.vary k.base.encodedLen).2 v hv
  have hfold : k.vary.foldl varyLen k.base.encodedLen ≤ maximum := h
  unfold usizeMax at hle
  omega

theorem CacheKey.new_eq_ok {base : BaseKey} {key : CacheKey}
    (h : CacheKey.new base headers (.names names) maxBytes = .ok key) :
    key.vary = names.map (varyValue headers) ∧ key.encodedLen ≤ maxBytes := by
  obtain ⟨hlen, h⟩ := guard_eq_ok.mp h
  cases h
  exact ⟨rfl, not_lt.mp hlen⟩

/-! ## Header fields, validators and tags -/

variable {l : List (HeaderName × HeaderValue)} {tags : List Bytes}

theorem foldlM_checkedAdd : ∀ {size total : ℕ}, l.foldlM (fun size field =>
      (checkedAdd size field.1.bytes.length).bind fun size =>
        checkedAdd size field.2.bytes.length) size = some total → total = size + fieldBytes l := by
  induction l with
  | nil =>
    intro size total h
    cases h
    simp [fieldBytes]
  | cons f l ih =>
    intro size total h
    rw [foldlM_cons, checkedAdd_twice] at h
    split_ifs at h
    · have htotal := ih h
      simp only [fieldBytes, map_cons, sum_cons] at htotal ⊢
      omega
    · exact absurd h (by simp [bind])

theorem checkHeaderBounds_iff (h : checkHeaderBounds headers config = true) :
    headers.iter.length ≤ config.maxHeaderFields
      ∧ fieldBytes headers.iter ≤ config.maxHeaderBytes := by
  unfold checkHeaderBounds at h
  rw [Bool.and_eq_true, decide_eq_true_eq, Option.any_eq_true] at h
  obtain ⟨hcount, total, htotal, hbytes⟩ := h
  have heq := foldlM_checkedAdd htotal
  refine ⟨hcount, ?_⟩
  rw [decide_eq_true_eq] at hbytes
  omega

theorem length_le_fieldBytes {f : HeaderName × HeaderValue} (h : f ∈ l) :
    f.2.bytes.length ≤ fieldBytes l := by
  have hle := single_le_sum (by simp) _
    (mem_map_of_mem (f := fun f => f.1.bytes.length + f.2.bytes.length) h)
  exact (Nat.le_add_left _ _).trans hle

theorem mem_iter_of_mem_getAll {m : HeaderMap} (h : v ∈ m.getAll name) : (name, v) ∈ m.iter := by
  unfold HeaderMap.getAll at h
  split at h
  · next f hf =>
    have hname : f.name = name := by simpa using List.find?_some hf
    refine mem_flatMap.mpr ⟨f, mem_of_find?_eq_some hf, ?_⟩
    exact mem_map.mpr ⟨v, h, by rw [hname]⟩
  · simp at h

theorem mem_getAll_of_singleHeader {o : Option HeaderValue} (h : singleHeader headers name = .ok o)
    (hv : v ∈ o) : v ∈ headers.getAll name := by
  unfold singleHeader at h
  split at h
  · cases h
    simp at hv
  · next value heq =>
    cases h
    cases hv
    simp [heq]
  · cases h

/-- The validators are header fields, so they are within the bound on these. -/
theorem responseValidators_bounds {validators : Validators}
    (h : responseValidators headers = .ok validators) (hbytes : fieldBytes headers.iter ≤ maximum) :
    (∀ v ∈ validators.etag, v.bytes.length ≤ maximum)
      ∧ ∀ v ∈ validators.lastModified, v.bytes.length ≤ maximum := by
  have hbound : ∀ {name o}, singleHeader headers name = .ok o → ∀ v ∈ o,
      v.bytes.length ≤ maximum := fun hs v hv =>
    (length_le_fieldBytes (mem_iter_of_mem_getAll (mem_getAll_of_singleHeader hs hv))).trans hbytes
  unfold responseValidators at h
  split at h
  · cases h
  · next etag hetag =>
    obtain ⟨_, h⟩ := guard_eq_ok.mp h
    split at h
    · cases h
    · next lastModified hlast =>
      cases h
      exact ⟨hbound hetag, hbound hlast⟩

theorem parseTagsLoop_ok {maxTagBytes : ℕ} :
    ∀ {parsed result : List Bytes}, parseTagsLoop maxTagBytes tags parsed = .ok result →
      (∀ tag ∈ parsed, validateTag tag maxTagBytes = true) → parsed.Nodup →
      result.length ≤ parsed.length + tags.length
        ∧ (∀ tag ∈ result, validateTag tag maxTagBytes = true) ∧ result.Nodup := by
  induction tags with
  | nil =>
    intro parsed result h hvalid hnodup
    cases h
    exact ⟨le_rfl, hvalid, hnodup⟩
  | cons tag tags ih =>
    intro parsed result h hvalid hnodup
    rw [parseTagsLoop, guard_eq_ok, Bool.not_eq_false] at h
    obtain ⟨htag, h⟩ := h
    by_cases hmem : parsed.contains tag = true
    · rw [if_pos hmem] at h
      obtain ⟨hlen, hrest⟩ := ih h hvalid hnodup
      exact ⟨hlen.trans (by simp), hrest⟩
    · rw [if_neg hmem] at h
      have hnew : tag ∉ parsed := by simpa using hmem
      have hvalid' : ∀ t ∈ parsed ++ [tag], validateTag t maxTagBytes = true := by
        intro t ht
        rcases mem_append.mp ht with ht | ht
        · exact hvalid t ht
        · rw [mem_singleton.mp ht]
          exact htag
      obtain ⟨hlen, hrest⟩ :=
        ih h hvalid' (nodup_append_comm.mp (nodup_cons.mpr ⟨hnew, hnodup⟩))
      refine ⟨hlen.trans ?_, hrest⟩
      simp only [length_append, length_cons, length_nil]
      omega

theorem parseTags_ok {result : List Bytes} (h : parseTags tags config = .ok result) :
    result.length ≤ config.maxTagsPerEntry
      ∧ (∀ tag ∈ result, validateTag tag config.maxTagBytes = true) ∧ result.Nodup := by
  obtain ⟨hcount, h⟩ := guard_eq_ok.mp h
  obtain ⟨hlen, hrest⟩ := parseTagsLoop_ok h (by simp) nodup_nil
  refine ⟨?_, hrest⟩
  simp only [length_nil] at hlen
  omega

/-! ## Prepared entries -/

/-- **Of what the decoder asks, a prepared entry lacks at most the canonical authority.** -/
theorem prepared_accepted [Crates] {shared : Shared} {e : PreparedEntry} (h : Prepared shared e)
    (hshort : e.toRecoveredEntry.Short) : e.toRecoveredEntry.Accepted shared.config ↔
      canonicalAuthority e.key.base.authority e.key.base.scheme = .ok e.key.base.authority := by
  obtain ⟨request, response, timeline, hp⟩ := h
  rw [← canonical_iff hp.method hp.base]
  refine ⟨fun ha => ha.key.base, fun hbase => ?_⟩
  obtain ⟨vary, hevaluate, hkey⟩ := hp.policy
  obtain ⟨control, heval⟩ := evaluate_ok hevaluate
  obtain ⟨names, rfl⟩ : ∃ names, vary = .names names := heval.names
  obtain ⟨hvary, hlen⟩ := CacheKey.new_eq_ok hkey
  obtain ⟨hcount, hnames, hasc⟩ := parse_accepted heval.selected
  obtain ⟨hfields, hbytes⟩ := checkHeaderBounds_iff hp.headerBounds
  obtain ⟨hetag, hlast⟩ := responseValidators_bounds heval.validated hbytes
  obtain ⟨htagCount, htags, hnodup⟩ := parseTags_ok hp.tags
  have hkeyOk : e.key.Accepted shared.config :=
    { base := hbase
      varyCount := by
        rw [hvary, length_map]
        exact hcount
      varyBounds := by
        intro v hv
        refine ⟨?_, value_le_of_encodedLen hlen hv (hshort.key.vary v hv).2⟩
        rw [hvary] at hv
        obtain ⟨n, hn, rfl⟩ := mem_map.mp hv
        exact hnames n hn
      ascending := by
        rw [hvary]
        exact hasc
      encodedLen := hlen }
  exact
    { key := hkeyOk
      fieldCount := hp.headers ▸ hfields
      fieldBytes := hp.headers ▸ hbytes
      body := hp.body ▸ hp.bodyBound
      tagCount := htagCount
      tags := htags
      tagsNodup := hnodup
      etag := hetag
      lastModified := hlast
      charge := by
        rw [hp.headers, hp.body]
        exact hp.charge
      chargeObject := hp.chargeObject
      chargeTotal := hp.chargeTotal }

/-! ## Round trip -/

theorem restored_inj {a b : Duration} : e.restored now a = e.restored now b ↔ a = b := by
  constructor
  · intro h
    exact congrArg (fun e => e.policy.correctedInitialAge) h
  · rintro rfl
    rfl

/-- **A record gives its entry back**, with the time since added to its age, iff the authority of
its key is its own canonical form and its time could be written. -/
theorem decodeRecord_encodeRecord_iff [Crates] {shared : Shared} {e : PreparedEntry}
    (hp : Prepared shared e) {sequence access : UInt64} {now : MonoTime} {wall : SystemTime}
    {record : Bytes} (henc : encodeRecord e.toRecoveredEntry sequence access now wall = .ok record)
    (now' : MonoTime) (wall' : SystemTime) : decodeRecord shared.config now' wall' record
        = .ok ⟨e.toRecoveredEntry.restored now'
            ((State.age e now).saturatingAdd (wall'.elapsedSince wall)), access, sequence⟩
      ↔ canonicalAuthority e.key.base.authority e.key.base.scheme = .ok e.key.base.authority
        ∧ (0 ≤ wall.nanos ∨ wall'.nanos ≤ wall.nanos
          ∨ durationBound - 1 ≤ (State.age e now).nanos + wall'.nanos.toNat) := by
  obtain ⟨hok, henc⟩ := guard_eq_ok.mp henc
  cases henc
  push Not at hok
  have hshort := RecoveredEntry.encodable_iff.mp (by simpa using hok.1)
  obtain ⟨stored, hstored, hdecode⟩ := decodeRecord_written (.inr rfl)
    hshort (.inl (Nat.le_refl 2)) hok.2
  refine (hdecode _).trans ?_
  rw [prepared_accepted hp hshort]
  refine and_congr_right fun _ => ?_
  rw [DecodedRecord.mk.injEq, restored_inj, ← Duration.nanos_injective.eq_iff]
  simp only [and_true, State.age, Duration.nanos_saturatingAdd, SystemTime.nanos_elapsedSince,
    hstored]
  omega

/-! ## Small records -/

section

attribute [local instance] crates

/-- What the small cache makes of a response without fields to a request for `/a`, with the
authority in canonical form. -/
def smallEntry (authority : String) (charge : ℕ) : PreparedEntry where
  key := ⟨⟨Method.get, "http", authority, "/a", none⟩, []⟩
  status := .ok
  headers := .empty
  body := [1, 2, 3]
  tags := []
  policy := ⟨0, 0, 0, 0, .rfc, false, false, false⟩
  validators := ⟨none, none⟩
  responseReceived := time 0
  charge
  identity := 7

/-- A request for `/a` of some authority. -/
def requestOf (authority : String) : RequestKeyInput :=
  { request "/a" .empty with authority }

theorem prepareInner_small :
    prepareInner shared (requestOf "Example.com:80") (response .empty [1, 2, 3]) none
      = .ok (smallEntry "example.com" 171)
    ∧ prepareInner shared (requestOf ":80") (response .empty [1, 2, 3]) none
      = .ok (smallEntry "" 160) := by
  decide +kernel

/-- A wall-clock time some seconds after the epoch, or before it. -/
def wallTime (secs : ℤ) (h : -systemTimeBound ≤ secs * 10 ^ 9 ∧ secs * 10 ^ 9 < systemTimeBound) :
    SystemTime :=
  ⟨secs * 10 ^ 9, h.1, h.2⟩

/-- What is written for an entry 5 seconds after it was received. -/
def smallRecord (e : PreparedEntry) (wall : SystemTime) : Bytes :=
  Encode.framed recordVersion (Encode.payload e.toRecoveredEntry 1 1
    (State.age e (time 5)) (wall.elapsedSince SystemTime.epoch))

theorem prepared_small : Prepared shared (smallEntry "example.com" 171) :=
  ⟨_, _, _, prepareInner_prepares prepareInner_small.1⟩

/-- Written at second 100 and read at second 130, an entry that was 5 seconds old is 35 seconds
old. -/
theorem decodeRecord_encodeRecord_small : Prepared Small.shared (smallEntry "example.com" 171)
    ∧ encodeRecord (smallEntry "example.com" 171).toRecoveredEntry 1 1 (Small.time 5)
        (wallTime 100 (by decide))
      = .ok (smallRecord (smallEntry "example.com" 171) (wallTime 100 (by decide)))
    ∧ decodeRecord Small.config (Small.time 9) (wallTime 130 (by decide))
        (smallRecord (smallEntry "example.com" 171) (wallTime 100 (by decide)))
      = .ok ⟨(smallEntry "example.com" 171).toRecoveredEntry.restored (Small.time 9)
          (Duration.ofSecs 35), 1, 1⟩ := by
  have henc : encodeRecord (smallEntry "example.com" 171).toRecoveredEntry 1 1 (Small.time 5)
        (wallTime 100 (by decide))
      = .ok (smallRecord (smallEntry "example.com" 171) (wallTime 100 (by decide))) := by
    decide +kernel
  have hdec := (decodeRecord_encodeRecord_iff prepared_small henc (Small.time 9)
    (wallTime 130 (by decide))).mpr ⟨by decide +kernel, .inl (by decide)⟩
  exact ⟨prepared_small, henc, hdec⟩

/-- The record of an entry whose authority is only a default port is not decoded, and an entry
stamped 10 seconds before the epoch and read 20 seconds after it is 10 seconds too young. -/
theorem decodeRecord_encodeRecord_lost :
    (prepareInner Small.shared (requestOf ":80") (Small.response .empty [1, 2, 3]) none
        = .ok (smallEntry "" 160)
      ∧ encodeRecord (smallEntry "" 160).toRecoveredEntry 1 1 (Small.time 5)
          (wallTime 100 (by decide))
        = .ok (smallRecord (smallEntry "" 160) (wallTime 100 (by decide)))
      ∧ decodeRecord Small.config (Small.time 9) (wallTime 130 (by decide))
          (smallRecord (smallEntry "" 160) (wallTime 100 (by decide))) = .error .invalidRecord)
    ∧ encodeRecord (smallEntry "example.com" 171).toRecoveredEntry 1 1 (Small.time 5)
          (wallTime (-10) (by decide))
        = .ok (smallRecord (smallEntry "example.com" 171) (wallTime (-10) (by decide)))
      ∧ decodeRecord Small.config (Small.time 9) (wallTime 20 (by decide))
          (smallRecord (smallEntry "example.com" 171) (wallTime (-10) (by decide)))
        = .ok ⟨(smallEntry "example.com" 171).toRecoveredEntry.restored (Small.time 9)
            (Duration.ofSecs 25), 1, 1⟩ := by
  decide +kernel

end

end Oxiroute.Cache
