import Oxiroute.Cache.Admission

/-!
# Records are read back

What the decoder makes of a record the encoder wrote. For every field there is a lemma that says on
which condition its bytes are read and that they then give the field back; `Accepts` collects the
conditions, and `decodeRecord_written` says that a record is decoded iff they hold.
-/

namespace Oxiroute.Cache

open Lib Http Encode SystemTime Reads List

/-! ## Versions -/

/-- The retention as a version writes it: version 1 has none. -/
def Encode.retentionOf (version : ℕ) (r : RetentionPolicy) : Bytes :=
  if version ≥ 2 then retention r else []

def Encode.payloadOf (version : ℕ) (e : RecoveredEntry) (sequence access : UInt64)
    (age wall : Duration) : Bytes :=
  stamp sequence access age wall ++ (representation e ++ (windows e.policy ++
    (retentionOf version e.policy.retention ++ (flags e.policy ++ (validators e.validators ++
      leBytes 8 e.charge)))))

variable {version : ℕ} {e : RecoveredEntry} {sequence access : UInt64} {age : Duration}
  {k : BaseKey} {config : CacheConfig} {now : MonoTime} {wall : SystemTime}

theorem Encode.payloadOf_eq {wall : Duration} : payloadOf version e sequence access age wall
      = stamp sequence access age wall ++ ((base e.key.base ++ counted varyValue e.key.vary) ++
        (leBytes 2 e.status.code ++ (leBytes 4 e.headers.iter.length ++
          (e.headers.iter.flatMap field ++ (bytesU64 e.body ++ (leBytes 4 e.tags.length ++
            (e.tags.flatMap bytes ++
              ((windows e.policy ++ (retentionOf version e.policy.retention ++ flags e.policy)) ++
                (optionalBytes (e.validators.etag.map HeaderValue.bytes) ++
                  (optionalBytes (e.validators.lastModified.map HeaderValue.bytes) ++
                    leBytes 8 e.charge)))))))))) := by
  simp [payloadOf, representation, validators, counted]

namespace Decode

/-! ## Numbers, flags and durations -/

variable {n v maximum : ℕ} {d : Duration} {s : String}

theorem reads_word (h : v < 256 ^ n) : Reads (word n) (leBytes n v) v True :=
  reads_readWord h

theorem reads_u64 (h : v < 2 ^ 64) : Reads u64 (leBytes 8 v) (UInt64.ofNat v) True := by
  have hlt : v < 256 ^ 8 := h
  exact (reads_word hlt).andThen (Reads.pure _)

theorem reads_boolean (b : Bool) : Reads boolean (Encode.boolean b) b True := by
  cases b
  · exact Reads.pure false
  · exact Reads.pure true

theorem duration_new : Duration.new (UInt64.ofNat d.asSecs) d.subsecNanos d.subsecNanos_lt = d := by
  apply Duration.nanos_injective
  change (UInt64.ofNat d.asSecs).toNat * 10 ^ 9 + d.subsecNanos = d.nanos
  rw [UInt64.toNat_ofNat_of_lt' d.asSecs_lt, d.secs_nanos]

theorem reads_duration : Reads duration (Encode.duration d) d True := by
  refine (reads_u64 d.asSecs_lt).next ?_
  have hlt : d.subsecNanos < 256 ^ 4 := d.subsecNanos_lt.trans (by decide)
  refine (reads_word hlt).andThen ?_
  rw [dif_pos d.subsecNanos_lt, duration_new]
  exact Reads.pure d

theorem reads_optionalDuration {o : Option Duration} :
    Reads optionalDuration (Encode.optionalDuration o) o True := by
  cases o with
  | none => exact (reads_boolean false).andThen (Reads.pure none)
  | some d =>
    exact (reads_boolean true).next (reads_duration.andThen (Reads.pure (some d)))

/-! ## Lengths and byte strings -/

theorem reads_count (h : n < 2 ^ 32) : Reads (count maximum) (leBytes 4 n) n (n ≤ maximum) := by
  have hlt : n < 256 ^ 4 := h
  exact ((reads_word hlt).check (Reads.pure n).guarded).congr (by simp)

theorem reads_bytes {v : Bytes} (h : v.length < 2 ^ 32) (maximum : ℕ) :
    Reads (bytes maximum) (Encode.bytes v) v (v.length ≤ maximum) := by
  have hlt : v.length < 256 ^ 4 := h
  exact ((reads_word hlt).next (reads_takeBytes _ v).guarded).congr (by simp)

theorem reads_bytesU64 {v : Bytes} (h : v.length < 2 ^ 64) :
    Reads (bytesU64 maximum) (Encode.bytesU64 v) v (v.length ≤ maximum) := by
  have hlt : v.length < 256 ^ 8 := h
  exact ((reads_word hlt).next (reads_takeBytes _ v).guarded).congr (by simp)

theorem fromUtf8_utf8Bytes : fromUtf8 (utf8Bytes s) = some s :=
  fromUtf8_eq_some.mpr rfl

theorem reads_string (h : (utf8Bytes s).length < 2 ^ 32) :
    Reads (string maximum) (Encode.bytes (utf8Bytes s)) s ((utf8Bytes s).length ≤ maximum) :=
  (reads_bytes h maximum).andThen (okOr fromUtf8_utf8Bytes)

theorem reads_optionalBytes {o : Option Bytes} (h : ∀ v ∈ o, v.length < 2 ^ 32) (maximum : ℕ) :
    Reads (optionalBytes maximum) (Encode.optionalBytes o) o (∀ v ∈ o, v.length ≤ maximum) := by
  cases o with
  | none => exact ((reads_boolean false).andThen (Reads.pure none)).congr (by simp)
  | some v =>
    have hread := (reads_bytes (h v rfl) maximum).andThen
      (f := fun v => pure (some v)) (Reads.pure (some v))
    exact ((reads_boolean true).next hread).congr (by simp)

theorem reads_optionalString {o : Option String} (h : ∀ s ∈ o, (utf8Bytes s).length < 2 ^ 32) :
    Reads (optionalString maximum) (Encode.optionalBytes (o.map utf8Bytes)) o
      (∀ s ∈ o, (utf8Bytes s).length ≤ maximum) := by
  have hread := reads_optionalBytes (o := o.map utf8Bytes) (by simpa using h) maximum
  cases o with
  | none =>
    refine (hread.andThen ?_).congr (by simp)
    exact Reads.pure none
  | some s =>
    refine (hread.andThen ?_).congr (by simp)
    exact (okOr fromUtf8_utf8Bytes).andThen (Reads.pure (some s))

theorem reads_optionalValue {o : Option HeaderValue} (h : ∀ v ∈ o, v.bytes.length < 2 ^ 32)
    (config : CacheConfig) :
    Reads (optionalValue config) (Encode.optionalBytes (o.map HeaderValue.bytes)) o
      (∀ v ∈ o, v.bytes.length ≤ config.maxHeaderBytes) := by
  have hread := reads_optionalBytes (o := o.map _) (by simpa using h) config.maxHeaderBytes
  cases o with
  | none =>
    refine (hread.andThen ?_).congr (by simp)
    exact Reads.pure none
  | some v =>
    refine (hread.andThen ?_).congr (by simp)
    exact (okOr v.fromBytes_bytes).andThen (Reads.pure (some v))

end Decode

/-! ## The key -/

/-- A base key as the input it would be rebuilt from. -/
def BaseKey.asInput (k : BaseKey) : RequestKeyInput :=
  ⟨k.method, k.scheme, k.authority, k.path, k.query, HeaderMap.empty⟩

theorem length_utf8Bytes {s : String} : (utf8Bytes s).length = strLen s := rfl

theorem BaseKey.new_eq_ok [Crates] {input : RequestKeyInput} {maxBytes : ℕ} :
    BaseKey.new input maxBytes = .ok k ↔
      (pathOk input.path = true ∧ (∀ query ∈ input.query, queryOk query = true)
        ∧ schemeOk (strLower input.scheme) = true)
      ∧ canonicalAuthority input.authority (strLower input.scheme) = .ok k.authority
      ∧ (k.method = (if input.method = Method.head then Method.get else input.method)
        ∧ k.scheme = strLower input.scheme ∧ k.path = input.path ∧ k.query = input.query)
      ∧ k.encodedLen ≤ maxBytes := by
  have hquery : (¬(input.query.any fun query => !queryOk query) = true)
      ↔ ∀ query ∈ input.query, queryOk query = true := by
    cases input.query <;> simp
  unfold BaseKey.new
  rw [guard_eq_ok, guard_eq_ok, guard_eq_ok, hquery, Bool.not_eq_false, Bool.not_eq_false]
  cases hauth : canonicalAuthority _ _ with
  | error e => simp
  | ok authority =>
    simp only [guard_eq_ok, Except.ok.injEq, not_lt]
    constructor
    · rintro ⟨hp, hq, hs, hlen, rfl⟩
      exact ⟨⟨hp, hq, hs⟩, rfl, ⟨rfl, rfl, rfl, rfl⟩, hlen⟩
    · rintro ⟨⟨hp, hq, hs⟩, rfl, ⟨hm, hsch, hpath, hqry⟩, hlen⟩
      obtain ⟨method, scheme, authority, path, query⟩ := k
      subst hm hsch hpath hqry
      exact ⟨hp, hq, hs, hlen, rfl⟩

/-- The base key is what its own fields build, and of a GET request. -/
def BaseKey.Canonical [Crates] (k : BaseKey) (maxBytes : ℕ) : Prop :=
  BaseKey.new k.asInput maxBytes = .ok k ∧ k.isGet = true

namespace Decode

variable (config : CacheConfig)

/-- The last step of the base key: rebuild it and compare. -/
theorem reads_canonical [Crates] : Reads (match BaseKey.new k.asInput config.maxKeyBytes with
        | .error _ => invalid
        | .ok canonical =>
          if canonical ≠ ⟨k.method, k.scheme, k.authority, k.path, k.query⟩
              ∨ canonical.isGet = false then invalid
          else pure canonical : Reader BaseKey) [] k (k.Canonical config.maxKeyBytes) := by
  unfold BaseKey.Canonical
  cases hnew : BaseKey.new k.asInput _ with
  | error e => exact Reads.throw.congr (by simp)
  | ok canonical =>
    by_cases heq : canonical = k
    · rw [heq]
      exact (Reads.pure k).guarded.congr (by simp)
    · simp only [if_pos (Or.inl heq)]
      exact Reads.throw.congr (by simp [heq])

theorem reads_base [Crates]
    (hm : k.method.bytes.length < 2 ^ 32) (hs : (utf8Bytes k.scheme).length < 2 ^ 32)
    (ha : (utf8Bytes k.authority).length < 2 ^ 32) (hp : (utf8Bytes k.path).length < 2 ^ 32)
    (hq : ∀ query ∈ k.query, (utf8Bytes query).length < 2 ^ 32) :
    Reads (base config) (Encode.base k) k (k.Canonical config.maxKeyBytes) := by
  have hread : Reads (base config) (Encode.base k) k (k.method.bytes.length ≤ config.maxKeyBytes
        ∧ (utf8Bytes k.scheme).length ≤ config.maxKeyBytes
        ∧ (utf8Bytes k.authority).length ≤ config.maxKeyBytes
        ∧ (utf8Bytes k.path).length ≤ config.maxKeyBytes
        ∧ (∀ query ∈ k.query, (utf8Bytes query).length ≤ config.maxKeyBytes)
        ∧ k.Canonical config.maxKeyBytes) := by
    refine (reads_bytes hm _).bind ?_
    refine skip (okOr k.method.fromBytes_bytes) ?_
    refine (reads_string hs).bind ?_
    refine (reads_string ha).bind ?_
    refine (reads_string hp).bind ?_
    exact (reads_optionalString hq).check (reads_canonical config)
  refine hread.congr ⟨fun h => h.2.2.2.2.2, fun hc => ?_⟩
  -- the lengths follow from the length of the key that was rebuilt
  have hle : k.encodedLen ≤ config.maxKeyBytes := (BaseKey.new_eq_ok.mp hc.1).2.2.2
  simp only [length_utf8Bytes, BaseKey.encodedLen] at hle ⊢
  refine ⟨by omega, by omega, by omega, by omega, fun query hq => ?_, hc⟩
  rw [Option.mem_def.mp hq, Option.map_some, Option.getD_some] at hle
  omega

theorem reads_varyValue {v : VaryValue}
    (hn : v.name.bytes.length < 2 ^ 32) (hv : v.value.length < 2 ^ 32) :
    Reads (varyValue config) (Encode.varyValue v) v
      (v.name.bytes.length ≤ config.maxHeaderBytes ∧ v.value.length ≤ config.maxKeyBytes) := by
  refine (reads_bytes hn _).bind ?_
  refine skip (okOr v.name.fromBytes_bytes) ?_
  refine (reads_boolean v.present).next ?_
  exact (reads_bytes hv _).andThen (Reads.pure v)

end Decode

/-- What the decoder asks of a key. -/
structure CacheKey.Accepted [Crates] (config : CacheConfig) (k : CacheKey) : Prop where
  base : k.base.Canonical config.maxKeyBytes
  varyCount : k.vary.length ≤ config.maxVaryFields
  varyBounds : ∀ v ∈ k.vary,
    v.name.bytes.length ≤ config.maxHeaderBytes ∧ v.value.length ≤ config.maxKeyBytes
  ascending : Decode.ascending k.vary = true
  encodedLen : k.encodedLen ≤ config.maxKeyBytes

/-- The strings and lists of a key are short enough to be written. -/
structure CacheKey.Short (k : CacheKey) : Prop where
  method : k.base.method.bytes.length < 2 ^ 32
  scheme : (utf8Bytes k.base.scheme).length < 2 ^ 32
  authority : (utf8Bytes k.base.authority).length < 2 ^ 32
  path : (utf8Bytes k.base.path).length < 2 ^ 32
  query : ∀ query ∈ k.base.query, (utf8Bytes query).length < 2 ^ 32
  varyCount : k.vary.length < 2 ^ 32
  vary : ∀ v ∈ k.vary, v.name.bytes.length < 2 ^ 32 ∧ v.value.length < 2 ^ 32

namespace Decode

variable (config : CacheConfig)

theorem reads_key [Crates] {k : CacheKey} (h : k.Short) :
    Reads (key config) (Encode.base k.base ++ Encode.counted Encode.varyValue k.vary) k
      (k.Accepted config) := by
  have hmany := many _ fun v hv => reads_varyValue config (h.vary v hv).1 (h.vary v hv).2
  have hread : Reads (key config) (Encode.base k.base ++ Encode.counted Encode.varyValue k.vary) k
      (k.base.Canonical config.maxKeyBytes ∧ k.vary.length ≤ config.maxVaryFields ∧ (∀ v ∈ k.vary,
          v.name.bytes.length ≤ config.maxHeaderBytes ∧ v.value.length ≤ config.maxKeyBytes)
        ∧ ¬ascending k.vary = false ∧ ¬k.encodedLen > config.maxKeyBytes ∧ True) := by
    refine (reads_base config h.method h.scheme h.authority h.path h.query).bind ?_
    refine (reads_count h.varyCount).bind ?_
    exact hmany.check (Reads.pure k).guarded.guarded
  refine hread.congr ⟨?_, ?_⟩
  · rintro ⟨hbase, hcount, hbounds, hasc, hlen, _⟩
    exact ⟨hbase, hcount, hbounds, by simpa using hasc, not_lt.mp hlen⟩
  · intro hk
    exact ⟨hk.base, hk.varyCount, hk.varyBounds, by simpa using hk.ascending, hk.encodedLen.not_gt,
      trivial⟩

/-! ## Status, header fields, tags -/

theorem reads_status (s : StatusCode) : Reads status (leBytes 2 s.code) s True := by
  have hlt : s.code < 256 ^ 2 := s.lt_thousand.trans (by decide)
  exact (reads_word hlt).andThen (okOr s.fromU16_code)

def fieldBytes (l : List (HeaderName × HeaderValue)) : ℕ :=
  (l.map fun f => f.1.bytes.length + f.2.bytes.length).sum

theorem checkedAdd_twice {a b c : ℕ} : ((checkedAdd a b).bind fun size => checkedAdd size c)
      = if a + b + c ≤ usizeMax then some (a + b + c) else none := by
  unfold checkedAdd
  by_cases hab : a + b ≤ usizeMax
  · rw [if_pos hab, Option.bind_some]
  · have habc : ¬a + b + c ≤ usizeMax := by omega
    rw [if_neg hab, if_neg habc, Option.bind_none]

/-- The test of one more field: what was counted so far and the field are within the limit. -/
theorem reads_sized {α : Type} {maximum size n m : ℕ} (hword : maximum ≤ usizeMax)
    {k : ℕ → Reader α} {bytes : Bytes} {a : α} {q : Prop}
    (hk : size + n + m ≤ maximum → Reads (k (size + n + m)) bytes a q) :
    Reads (Prog.okOr ((checkedAdd size n).bind fun size => checkedAdd size m)
        DiskCacheError.invalidRecord >>= fun size => if size > maximum then invalid else k size)
      bytes a (size + n + m ≤ maximum ∧ q) := by
  rw [checkedAdd_twice]
  by_cases hle : size + n + m ≤ maximum
  · rw [if_pos (hle.trans hword)]
    refine ((Reads.pure _).skip (hk hle).guarded).congr ?_
    rw [not_lt]
  · intro rest b rest'
    split_ifs with husize
    · rw [Prog.okOr_some, Prog.bind_ok Prog.pure_run, if_pos (not_le.mp hle)]
      simp [hle, invalid]
    · rw [Prog.okOr_none, Prog.bind_error Prog.throw_run]
      simp [hle]

theorem reads_fields (l : List (HeaderName × HeaderValue)) : ∀ (size : ℕ) (headers : HeaderMap),
      (∀ f ∈ l, f.1.bytes.length < 2 ^ 32 ∧ f.2.bytes.length < 2 ^ 32) →
      size ≤ config.maxHeaderBytes →
      Reads (fields config l.length size headers) (l.flatMap Encode.field) (headers.extend l)
        (size + fieldBytes l ≤ config.maxHeaderBytes) := by
  induction l with
  | nil =>
    intro size headers _ hsize
    exact (Reads.pure headers).congr (by simpa [fieldBytes] using hsize)
  | cons f l ih =>
    intro size headers hshort hsize
    obtain ⟨⟨hn, hv⟩, hshort⟩ := forall_mem_cons.mp hshort
    have hword : config.maxHeaderBytes ≤ usizeMax := config.word _ (by simp)
    have hread : Reads (fields config (f :: l).length size headers) ((f :: l).flatMap Encode.field)
        (headers.extend (f :: l))
        (f.1.bytes.length ≤ config.maxHeaderBytes ∧ f.2.bytes.length ≤ config.maxHeaderBytes
          ∧ size + f.1.bytes.length + f.2.bytes.length ≤ config.maxHeaderBytes
          ∧ size + f.1.bytes.length + f.2.bytes.length + fieldBytes l ≤ config.maxHeaderBytes) := by
      rw [flatMap_cons, Encode.field, append_assoc]
      refine (reads_bytes hn _).bind ?_
      refine (reads_bytes hv _).bind ?_
      refine reads_sized hword fun hle => ?_
      refine skip (okOr f.1.fromBytes_bytes) ?_
      refine skip (okOr f.2.fromBytes_bytes) ?_
      exact ih _ _ hshort hle
    refine hread.congr ?_
    simp only [fieldBytes, map_cons, sum_cons]
    omega

theorem length_le_of_validateTag {tag : Bytes} {maxBytes : ℕ}
    (h : validateTag tag maxBytes = true) : tag.length ≤ maxBytes := by
  simp only [validateTag, Bool.and_eq_true, decide_eq_true_eq] at h
  exact h.1.2

theorem reads_tags (l : List Bytes) :
    ∀ acc : List Bytes, (∀ tag ∈ l, tag.length < 2 ^ 32) → acc.Nodup →
      Reads (tags config l.length acc) (l.flatMap Encode.bytes) (acc ++ l)
        ((∀ tag ∈ l, validateTag tag config.maxTagBytes = true) ∧ (acc ++ l).Nodup) := by
  induction l with
  | nil =>
    intro acc _ hacc
    rw [append_nil]
    exact (Reads.pure acc).congr (by simpa using hacc)
  | cons tag l ih =>
    intro acc hshort hacc
    obtain ⟨hshort, hrest⟩ := forall_mem_cons.mp hshort
    have hassoc : acc ++ tag :: l = acc ++ [tag] ++ l := by simp
    have hread : Reads (tags config (tag :: l).length acc) ((tag :: l).flatMap Encode.bytes)
        (acc ++ tag :: l)
        (tag.length ≤ config.maxTagBytes ∧ ¬validateTag tag config.maxTagBytes = false
          ∧ ¬acc.contains tag = true ∧ (∀ tag ∈ l, validateTag tag config.maxTagBytes = true)
          ∧ (acc ++ tag :: l).Nodup) := by
      rw [flatMap_cons, hassoc]
      refine (reads_bytes hshort _).bind (guarded (guard_of fun hnew => ?_))
      refine ih _ hrest ?_
      exact nodup_append_comm.mp (nodup_cons.mpr ⟨by simpa using hnew, hacc⟩)
    refine hread.congr ⟨?_, ?_⟩
    · rintro ⟨_, hvalid, _, hall, hnodup⟩
      exact ⟨forall_mem_cons.mpr ⟨by simpa using hvalid, hall⟩, hnodup⟩
    · rintro ⟨hall, hnodup⟩
      obtain ⟨hvalid, hall⟩ := forall_mem_cons.mp hall
      refine ⟨length_le_of_validateTag hvalid, by simpa using hvalid, ?_, hall, hnodup⟩
      have hnot := (nodup_append.mp hnodup).2.2
      intro hmem
      exact hnot tag (by simpa using hmem) tag mem_cons_self rfl

/-! ## Policy and stamp -/

theorem reads_retention {r : RetentionPolicy} (h : version ≥ 2 ∨ r = .rfc) :
    Reads (retention version) (Encode.retentionOf version r) r True := by
  unfold retention Encode.retentionOf
  by_cases hv : version ≥ 2
  · rw [if_pos hv, if_pos hv]
    cases r with
    | rfc =>
      exact reads_optionalDuration.next ((reads_boolean true).andThen (Reads.pure _))
    | canonical keep =>
      exact reads_optionalDuration.next ((reads_boolean false).andThen (Reads.pure _))
  · rw [if_neg hv, if_neg hv, h.resolve_left hv]
    exact Reads.pure _

theorem reads_policy {p : ResponsePolicy} (h : version ≥ 2 ∨ p.retention = .rfc) :
    Reads (policy version age)
      (Encode.windows p ++ (Encode.retentionOf version p.retention ++ Encode.flags p))
      { p with correctedInitialAge := age } True := by
  unfold Encode.windows Encode.flags
  rw [append_assoc, append_assoc]
  refine reads_duration.next ?_
  refine reads_duration.next ?_
  refine reads_duration.next ?_
  refine (reads_retention h).next ?_
  refine (reads_boolean _).next ?_
  refine (reads_boolean _).next ?_
  exact (reads_boolean _).andThen (Reads.pure _)

/-- The wall-clock time a record was stamped with, as the decoder reads it back: nothing before the
epoch can be written. -/
theorem checkedAdd_elapsed : ∃ stored, epoch.checkedAdd (wall.elapsedSince epoch) = some stored
      ∧ stored.nanos = max 0 wall.nanos := by
  have helapsed := nanos_elapsedSince wall epoch
  have hlt := wall.lt_bound
  have hepoch : epoch.nanos = 0 := rfl
  have hbound : epoch.nanos + (wall.elapsedSince epoch).nanos < systemTimeBound := by
    unfold systemTimeBound at hlt ⊢
    omega
  refine ⟨_, dif_pos hbound, ?_⟩
  change epoch.nanos + ((wall.elapsedSince epoch).nanos : ℤ) = _
  omega

theorem reads_stamp (sequence access : UInt64) (age : Duration) (wall now : SystemTime) :
    ∃ stored : SystemTime, stored.nanos = max 0 wall.nanos ∧ Reads (stamp now)
        (Encode.stamp sequence access age (wall.elapsedSince epoch))
        (sequence, access, age.saturatingAdd (now.elapsedSince stored)) True := by
  obtain ⟨stored, hstored, hnanos⟩ := checkedAdd_elapsed
  refine ⟨stored, hnanos, ?_⟩
  have hseq := reads_u64 sequence.toNat_lt
  have hacc := reads_u64 access.toNat_lt
  rw [UInt64.ofNat_toNat] at hseq hacc
  refine hseq.next (hacc.next (reads_duration.next ?_))
  exact reads_duration.andThen ((okOr hstored).andThen (Reads.pure _))

end Decode

/-! ## Entries -/

/-- All strings and lists of an entry are short enough to be written. -/
structure RecoveredEntry.Short (e : RecoveredEntry) : Prop where
  key : e.key.Short
  fieldCount : e.headers.iter.length < 2 ^ 32
  fields : ∀ f ∈ e.headers.iter, f.1.bytes.length < 2 ^ 32 ∧ f.2.bytes.length < 2 ^ 32
  body : e.body.length < 2 ^ 64
  tagCount : e.tags.length < 2 ^ 32
  tags : ∀ tag ∈ e.tags, tag.length < 2 ^ 32
  etag : ∀ v ∈ e.validators.etag, v.bytes.length < 2 ^ 32
  lastModified : ∀ v ∈ e.validators.lastModified, v.bytes.length < 2 ^ 32
  charge : e.charge < 2 ^ 64

theorem RecoveredEntry.encodable_iff : e.encodable = true ↔ e.Short := by
  unfold RecoveredEntry.encodable
  simp only [Bool.and_eq_true, all_append, all_cons, all_nil, all_flatMap,
    all_eq_true, decide_eq_true_eq, and_true, Option.mem_toList, Option.map_eq_some_iff]
  constructor
  · rintro ⟨⟨⟨⟨⟨⟨⟨⟨⟨⟨⟨⟨hm, hs, ha, hp⟩, hq⟩, hvary⟩, hfields⟩, htags⟩, hetag⟩, hlast⟩, hvc⟩,
      hfc⟩, htc⟩,
      hbody⟩, hcharge⟩
    refine ⟨⟨hm, hs, ha, hp, ?_, hvc, hvary⟩, hfc, hfields, hbody, htc, htags, ?_, ?_, hcharge⟩
    · exact fun query hmem => hq _ ⟨query, hmem, rfl⟩
    · exact fun v hmem => hetag _ ⟨v, hmem, rfl⟩
    · exact fun v hmem => hlast _ ⟨v, hmem, rfl⟩
  · rintro ⟨⟨hm, hs, ha, hp, hq, hvc, hvary⟩, hfc, hfields, hbody, htc, htags, hetag, hlast,
      hcharge⟩
    refine ⟨⟨⟨⟨⟨⟨⟨⟨⟨⟨⟨⟨hm, hs, ha, hp⟩, ?_⟩, hvary⟩, hfields⟩, htags⟩, ?_⟩, ?_⟩, hvc⟩, hfc⟩, htc⟩,
      hbody⟩, hcharge⟩
    · rintro _ ⟨query, hmem, rfl⟩
      exact hq query hmem
    · rintro _ ⟨v, hmem, rfl⟩
      exact hetag v hmem
    · rintro _ ⟨v, hmem, rfl⟩
      exact hlast v hmem

/-- What the decoder asks of an entry. -/
structure RecoveredEntry.Accepted [Crates] (config : CacheConfig) (e : RecoveredEntry) : Prop where
  key : e.key.Accepted config
  fieldCount : e.headers.iter.length ≤ config.maxHeaderFields
  fieldBytes : Decode.fieldBytes e.headers.iter ≤ config.maxHeaderBytes
  body : e.body.length ≤ config.maxBodyBytes
  tagCount : e.tags.length ≤ config.maxTagsPerEntry
  tags : ∀ tag ∈ e.tags, validateTag tag config.maxTagBytes = true
  tagsNodup : e.tags.Nodup
  etag : ∀ v ∈ e.validators.etag, v.bytes.length ≤ config.maxHeaderBytes
  lastModified : ∀ v ∈ e.validators.lastModified, v.bytes.length ≤ config.maxHeaderBytes
  charge : objectCharge e.key e.headers e.body.length e.tags = some e.charge
  chargeObject : e.charge ≤ config.maxObjectBytes
  chargeTotal : e.charge ≤ config.maxTotalBytes

/-- The entry a record of `e` gives back: the time it was decoded at and the age it then had. -/
def RecoveredEntry.restored (e : RecoveredEntry) (now : MonoTime) (age : Duration) :
    RecoveredEntry :=
  { e with
    policy := { e.policy with correctedInitialAge := age }
    responseReceived := now }

namespace Decode

theorem readsAt_finish (config : CacheConfig) (e : RecoveredEntry) :
    ReadsAt (finish config e) [] e []
      (objectCharge e.key e.headers e.body.length e.tags = some e.charge
        ∧ e.charge ≤ config.maxObjectBytes ∧ e.charge ≤ config.maxTotalBytes) := by
  intro d rest'
  constructor
  · intro h
    obtain ⟨hd, _, hrest, hcharge⟩ := finish_eq_ok h
    exact ⟨hcharge, hd, hrest⟩
  · rintro ⟨⟨hcharge, hobject, htotal⟩, rfl, rfl⟩
    unfold finish
    rw [Prog.bind_ok (Prog.get_run _), if_neg (by simp),
      if_neg (by simp [hcharge, hobject, htotal])]
    rfl

theorem readsAt_payload [Crates] {wall' : SystemTime} (h : e.Short)
    (hv : version ≥ 2 ∨ e.policy.retention = .rfc) :
    ∃ stored : SystemTime, stored.nanos = max 0 wall.nanos ∧
      ReadsAt (payload config version now wall')
        (Encode.payloadOf version e sequence access age (wall.elapsedSince epoch))
        ⟨e.restored now (age.saturatingAdd (wall'.elapsedSince stored)), access, sequence⟩ []
        (e.Accepted config) := by
  obtain ⟨stored, hnanos, hstamp⟩ := reads_stamp sequence access age wall wall'
  refine ⟨stored, hnanos, ?_⟩
  have hread : ReadsAt (payload config version now wall')
      (Encode.payloadOf version e sequence access age (wall.elapsedSince epoch))
      ⟨e.restored now (age.saturatingAdd (wall'.elapsedSince stored)), access, sequence⟩ []
      (e.key.Accepted config ∧ e.headers.iter.length ≤ config.maxHeaderFields
        ∧ 0 + fieldBytes e.headers.iter ≤ config.maxHeaderBytes
        ∧ e.body.length ≤ config.maxBodyBytes ∧ e.tags.length ≤ config.maxTagsPerEntry
        ∧ ((∀ tag ∈ e.tags, validateTag tag config.maxTagBytes = true) ∧ ([] ++ e.tags).Nodup)
        ∧ (∀ v ∈ e.validators.etag, v.bytes.length ≤ config.maxHeaderBytes)
        ∧ (∀ v ∈ e.validators.lastModified, v.bytes.length ≤ config.maxHeaderBytes)
        ∧ (objectCharge e.key e.headers e.body.length e.tags = some e.charge
          ∧ e.charge ≤ config.maxObjectBytes ∧ e.charge ≤ config.maxTotalBytes)) := by
    rw [Encode.payloadOf_eq]
    refine hstamp.nextAll ((reads_key config h.key).bindAll ?_)
    refine (reads_status e.status).nextAll ((reads_count h.fieldCount).bindAll ?_)
    refine (reads_fields config _ 0 .empty h.fields (Nat.zero_le _)).bindAll ?_
    rw [HeaderMap.extend_iter]
    refine (reads_bytesU64 h.body).bindAll ((reads_count h.tagCount).bindAll ?_)
    refine (reads_tags config e.tags [] h.tags nodup_nil).bindAll ?_
    refine (reads_policy hv).nextAll ((reads_optionalValue h.etag config).bindAll ?_)
    refine (reads_optionalValue h.lastModified config).bindAll ?_
    have hcharge : e.charge < 256 ^ 8 := h.charge
    rw [← append_nil (leBytes 8 e.charge)]
    refine (reads_word hcharge).nextAll ?_
    have hlast := (readsAt_finish config
      (e.restored now (age.saturatingAdd (wall'.elapsedSince stored)))).bind
        (f := fun entry => pure (⟨entry, access, sequence⟩ : DecodedRecord)) (.of_run rfl)
    exact hlast.congr (by simp [RecoveredEntry.restored])
  refine hread.congr ⟨?_, ?_⟩
  · rintro ⟨hkey, hcount, hbytes, hbody, htags, ⟨hvalid, hnodup⟩, hetag, hlast, hcharge, hobj, htot⟩
    exact ⟨hkey, hcount, by simpa using hbytes, hbody, htags, hvalid, by simpa using hnodup, hetag,
      hlast, hcharge, hobj, htot⟩
  · intro ha
    exact ⟨ha.key, ha.fieldCount, by simpa using ha.fieldBytes, ha.body, ha.tagCount,
      ⟨ha.tags, by simpa using ha.tagsNodup⟩, ha.etag, ha.lastModified, ha.charge, ha.chargeObject,
      ha.chargeTotal⟩

end Decode

/-! ## Records -/

/-- The decoder finds the payload of a record with a header of its own. -/
theorem decodeRecord_framed [Crates] (hversion : version = 1 ∨ version = recordVersion)
    {payload : Bytes} (hlen : payload.length < 2 ^ 64) :
    decodeRecord config now wall (framed version payload)
      = (Decode.payload config version now wall payload).1 := by
  have hmagic : magic.length = 8 := by decide
  have hword : version < 256 ^ 2 := by
    rcases hversion with rfl | rfl <;> decide
  have hcrc : (Crates.crc32 payload).toNat < 256 ^ 4 := (Crates.crc32 payload).toNat_lt
  have hlen' : payload.length < 256 ^ 8 := hlen
  have hdrop8 : (framed version payload).drop 8 = leBytes 2 version ++ (leBytes 8 payload.length ++
        (leBytes 4 (Crates.crc32 payload).toNat ++ payload)) := drop_left' hmagic
  have hdrop10 : (framed version payload).drop 10
      = leBytes 8 payload.length ++ (leBytes 4 (Crates.crc32 payload).toNat ++ payload) := by
    rw [show (10 : ℕ) = 8 + 2 from rfl, ← drop_drop, hdrop8]
    exact drop_left' length_leBytes
  have hdrop18 : (framed version payload).drop 18
      = leBytes 4 (Crates.crc32 payload).toNat ++ payload := by
    rw [show (18 : ℕ) = 10 + 8 from rfl, ← drop_drop, hdrop10]
    exact drop_left' length_leBytes
  have hdrop22 : (framed version payload).drop headerBytes = payload := by
    rw [show headerBytes = 18 + 4 from rfl, ← drop_drop, hdrop18]
    exact drop_left' length_leBytes
  have hlength : (framed version payload).length = headerBytes + payload.length := by
    simp only [framed, length_append, length_leBytes, hmagic, headerBytes]
    omega
  unfold decodeRecord
  rw [if_neg]
  · simp only [hdrop8, hdrop10, hdrop18, hdrop22, hlength]
    rw [take_left' length_leBytes, take_left' length_leBytes,
      take_left' length_leBytes, ofLeBytes_leBytes hword, ofLeBytes_leBytes hlen',
      ofLeBytes_leBytes hcrc, if_neg]
    simp [hversion]
  · rw [hlength]
    have htake : (framed version payload).take 8 = magic := take_left' hmagic
    simp [htake]

/-- **A written record is decoded iff the decoder accepts its entry**, and then gives back the entry
with the age it had when it was written and the time since, as far as the stamp tells it. -/
theorem decodeRecord_written [Crates] {wall' : SystemTime}
    (hversion : version = 1 ∨ version = recordVersion) (h : e.Short)
    (hv : version ≥ 2 ∨ e.policy.retention = .rfc)
    (hlen : (Encode.payloadOf version e sequence access age
      (wall.elapsedSince epoch)).length < 2 ^ 64) :
    ∃ stored : SystemTime, stored.nanos = max 0 wall.nanos ∧ ∀ d,
      decodeRecord config now wall' (Encode.framed version
          (Encode.payloadOf version e sequence access age (wall.elapsedSince epoch))) = .ok d
        ↔ e.Accepted config
          ∧ d = ⟨e.restored now (age.saturatingAdd (wall'.elapsedSince stored)), access,
            sequence⟩ := by
  obtain ⟨stored, hnanos, hread⟩ :=
    Decode.readsAt_payload h hv
  refine ⟨stored, hnanos, fun d => ?_⟩
  rw [decodeRecord_framed hversion hlen]
  exact hread.fst_eq_ok

end Oxiroute.Cache
