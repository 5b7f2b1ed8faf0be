import Oxiroute.Cache.RoundTrip

/-!
# The sizes of records

The length of a record depends on the entry and on the version, not on the times it is stamped
with: `payloadLength`. For every reader there is a lemma that says how many bytes it consumed for
what it returned; `decodeRecord_sized` puts them together. A record of version 1 has no retention,
so the same entry takes two bytes more when it is written again.
-/

namespace Oxiroute.Cache

open Lib Http Encode RecoveredEntry List HeaderValue HeaderMap Prog
open Takes (guarded okOr)

/-! ## What is written -/

namespace Encode

@[simp] theorem length_boolean {b : Bool} : (boolean b).length = 1 := rfl

@[simp] theorem length_duration {d : Duration} : (duration d).length = 12 := by
  simp [duration]

variable {v : Bytes} {p : ResponsePolicy}

@[simp] theorem length_bytes : (bytes v).length = 4 + v.length := by
  simp [bytes]

@[simp] theorem length_bytesU64 : (bytesU64 v).length = 8 + v.length := by
  simp [bytesU64]

@[simp] theorem length_stamp {sequence access : UInt64} {age wall : Duration} :
    (stamp sequence access age wall).length = 40 := by
  simp [stamp]

@[simp] theorem length_windows : (windows p).length = 36 := by
  simp [windows]

@[simp] theorem length_flags : (flags p).length = 3 := rfl

theorem length_counted {α : Type} {enc : α → Bytes} {l : List α} :
    (counted enc l).length = 4 + (l.flatMap enc).length := by
  simp [counted]

end Encode

/-- The bytes of the payload of an entry. -/
def RecoveredEntry.payloadLength (version : ℕ) (e : RecoveredEntry) : ℕ :=
  (payloadOf version e 0 0 0 0).length

theorem Encode.length_payload {e : RecoveredEntry} {sequence access : UInt64}
    {age wall : Duration} :
    (payload e sequence access age wall).length = e.payloadLength recordVersion := by
  change (payloadOf recordVersion e sequence access age wall).length = _
  simp [payloadLength, payloadOf]

theorem Encode.length_framed [Crates] {version : ℕ} {payload : Bytes} :
    (framed version payload).length = headerBytes + payload.length := by
  simp only [framed, length_append, length_leBytes, show magic.length = 8 from rfl, headerBytes]
  omega

variable {e : RecoveredEntry} {now : MonoTime} {wall : SystemTime}

/-- **What version 1 leaves out**: two bytes, for an entry with the retention it stands for. -/
theorem RecoveredEntry.payloadLength_one (h : e.policy.retention = .rfc) :
    e.payloadLength recordVersion = e.payloadLength 1 + 2 := by
  have hone : retentionOf 1 e.policy.retention = [] := rfl
  have htwo : (retentionOf recordVersion e.policy.retention).length = 2 := by
    rw [h]
    rfl
  simp only [payloadLength, payloadOf, length_append, hone, htwo, length_nil]
  omega

/-- The bytes of the record of an entry. -/
def RecoveredEntry.recordSize (e : RecoveredEntry) : ℕ :=
  headerBytes + e.payloadLength recordVersion

/-- **When an entry is written, and how long the record is**. -/
theorem encodeRecord_sized [Crates] (h : e.encodable = true) (hsize : e.recordSize ≤ usizeMax)
    (sequence access : UInt64) (now : MonoTime) (wall : SystemTime) :
    ∃ payload, encodeRecord e sequence access now wall = .ok (framed recordVersion payload)
      ∧ (framed recordVersion payload).length = e.recordSize := by
  have hword : e.recordSize < 2 ^ 64 := lt_of_le_of_lt hsize (by decide)
  unfold encodeRecord
  simp only [h, length_payload, Bool.true_eq_false, false_or]
  have hlt : ¬2 ^ 64 ≤ e.payloadLength recordVersion := by
    unfold recordSize at hword
    omega
  rw [if_neg hlt]
  exact ⟨_, rfl, by rw [length_framed, length_payload, recordSize]⟩

variable {sequence access : UInt64}

theorem encodeRecord_error [Crates] {err : DiskCacheError}
    (h : encodeRecord e sequence access now wall = .error err) : err = .recordTooLarge := by
  simp only [encodeRecord] at h
  split_ifs at h
  exact (Except.error.inj h).symm

theorem encodeRecord_size [Crates] {bytes : Bytes}
    (h : encodeRecord e sequence access now wall = .ok bytes) :
    e.encodable = true ∧ (∃ payload, bytes = framed recordVersion payload)
      ∧ bytes.length = e.recordSize := by
  obtain ⟨hok, h⟩ := guard_eq_ok.mp h
  push Not at hok
  cases h
  refine ⟨by simpa using hok.1, ⟨_, rfl⟩, ?_⟩
  rw [length_framed, length_payload, recordSize]

/-! ## What is read -/

namespace Decode

theorem takes_word {n : ℕ} : Takes (word n) fun v m => v < 256 ^ n ∧ m = n := takes_readWord

theorem takes_u64 : Takes u64 fun _ n => n = 8 := by
  refine takes_word.bind ?_
  rintro v n ⟨_, rfl⟩
  exact Takes.pure rfl

theorem takes_boolean : Takes boolean fun _ n => n = 1 := by
  refine takes_word.bind ?_
  rintro v n ⟨_, rfl⟩
  exact guarded fun _ => Takes.pure rfl

theorem takes_duration : Takes duration fun _ n => n = 12 := by
  refine takes_u64.bind ?_
  rintro seconds n rfl
  refine takes_word.bind ?_
  rintro nanos n ⟨_, rfl⟩
  split_ifs with h
  · exact Takes.pure rfl
  · exact Takes.throw

theorem takes_optionalDuration :
    Takes optionalDuration fun o n => n = (Encode.optionalDuration o).length := by
  refine takes_boolean.bind ?_
  rintro present n rfl
  split_ifs
  · refine takes_duration.bind ?_
    rintro d n rfl
    exact Takes.pure (by simp [Encode.optionalDuration])
  · exact Takes.pure rfl

variable {maximum : ℕ} (config : CacheConfig)

theorem takes_count : Takes (count maximum) fun v n => v < 2 ^ 32 ∧ n = 4 := by
  refine takes_word.bind ?_
  rintro v n ⟨hlt, rfl⟩
  exact guarded fun _ => Takes.pure ⟨hlt, rfl⟩

theorem takes_bytes :
    Takes (bytes maximum) fun v n => n = (Encode.bytes v).length ∧ v.length < 2 ^ 32 := by
  refine takes_word.bind ?_
  rintro length n ⟨hlt, rfl⟩
  refine guarded fun _ => (takes_takeBytes _ length).mono ?_
  rintro v m ⟨hv, rfl⟩
  exact ⟨by simp [hv], hv ▸ hlt⟩

theorem takes_bytesU64 :
    Takes (bytesU64 maximum) fun v n => n = (Encode.bytesU64 v).length ∧ v.length < 2 ^ 64 := by
  refine takes_word.bind ?_
  rintro length n ⟨hlt, rfl⟩
  refine guarded fun _ => (takes_takeBytes _ length).mono ?_
  rintro v m ⟨hv, rfl⟩
  exact ⟨by simp [hv], hv ▸ hlt⟩

theorem takes_string : Takes (string maximum) fun s n =>
      n = (Encode.bytes (utf8Bytes s)).length ∧ (utf8Bytes s).length < 2 ^ 32 := by
  refine takes_bytes.bind fun v n hv => okOr fun s hs => ?_
  rw [fromUtf8_eq_some.mp hs]
  exact hv

theorem takes_optionalBytes : Takes (optionalBytes maximum) fun o n =>
      n = (Encode.optionalBytes o).length ∧ ∀ v ∈ o, v.length < 2 ^ 32 := by
  refine takes_boolean.bind ?_
  rintro present n rfl
  split_ifs
  · refine takes_bytes.bind ?_
    rintro v n ⟨rfl, hv⟩
    exact Takes.pure ⟨by simp [Encode.optionalBytes], by simpa using hv⟩
  · exact Takes.pure ⟨rfl, by simp⟩

theorem takes_optionalString : Takes (optionalString maximum) fun o n =>
      n = (Encode.optionalBytes (o.map utf8Bytes)).length
        ∧ ∀ s ∈ o, (utf8Bytes s).length < 2 ^ 32 := by
  refine takes_optionalBytes.bind ?_
  rintro (_ | v) n ⟨rfl, hv⟩
  · exact Takes.pure ⟨rfl, by simp⟩
  · refine Takes.bind (okOr (P := fun s n => utf8Bytes s = v ∧ n = 0) fun s hs =>
      ⟨fromUtf8_eq_some.mp hs, rfl⟩) ?_
    rintro s n ⟨rfl, rfl⟩
    exact Takes.pure ⟨rfl, by simpa using hv⟩

variable {bytes : Bytes} {version : ℕ}

theorem fromBytes_value {v : HeaderValue} (h : fromBytes bytes = some v) :
    v.bytes = bytes := by
  unfold fromBytes at h
  split_ifs at h
  rw [← Option.some.inj h]

theorem fromBytes_name {n : HeaderName} (h : HeaderName.fromBytes bytes = some n) :
    n.bytes.length = bytes.length := by
  unfold HeaderName.fromBytes at h
  split_ifs at h
  rw [← Option.some.inj h, length_map]

theorem fromBytes_method {m : Method} (h : Method.fromBytes bytes = some m) : m.bytes = bytes := by
  unfold Method.fromBytes at h
  split_ifs at h
  rw [← Option.some.inj h]

theorem takes_optionalValue : Takes (optionalValue config) fun o n =>
      n = (Encode.optionalBytes (o.map HeaderValue.bytes)).length
        ∧ ∀ v ∈ o, v.bytes.length < 2 ^ 32 := by
  refine takes_optionalBytes.bind ?_
  rintro (_ | bytes) n ⟨rfl, hv⟩
  · exact Takes.pure ⟨rfl, by simp⟩
  · refine Takes.bind (okOr (P := fun v n => v.bytes = bytes ∧ n = 0) fun v hv =>
      ⟨fromBytes_value hv, rfl⟩) ?_
    rintro v n ⟨rfl, rfl⟩
    exact Takes.pure ⟨rfl, by simpa using hv⟩

/-! ## Keys -/

/-- The strings of a base key are short enough to be written. -/
def ShortBase (k : BaseKey) : Prop :=
  k.method.bytes.length < 2 ^ 32 ∧ (utf8Bytes k.scheme).length < 2 ^ 32
    ∧ (utf8Bytes k.authority).length < 2 ^ 32 ∧ (utf8Bytes k.path).length < 2 ^ 32
    ∧ ∀ query ∈ k.query, (utf8Bytes query).length < 2 ^ 32

theorem takes_base [Crates] :
    Takes (base config) fun k n => n = (Encode.base k).length ∧ ShortBase k := by
  refine takes_bytes.bind ?_
  rintro bytes n ⟨rfl, hm⟩
  refine Takes.bind (okOr (P := fun m n => m.bytes = bytes ∧ n = 0) fun m hm =>
    ⟨fromBytes_method hm, rfl⟩) ?_
  rintro method n ⟨rfl, rfl⟩
  refine takes_string.bind ?_
  rintro scheme n ⟨rfl, hs⟩
  refine takes_string.bind ?_
  rintro authority n ⟨rfl, ha⟩
  refine takes_string.bind ?_
  rintro path n ⟨rfl, hp⟩
  refine takes_optionalString.bind ?_
  rintro query n ⟨rfl, hq⟩
  cases BaseKey.new ⟨method, scheme, authority, path, query, HeaderMap.empty⟩ _ with
  | error e => exact Takes.throw
  | ok canonical =>
    refine guarded fun hc => Takes.pure ?_
    push Not at hc
    rw [hc.1]
    exact ⟨by simp [Encode.base], hm, hs, ha, hp, hq⟩

theorem takes_varyValue : Takes (varyValue config) fun v n => n = (Encode.varyValue v).length
      ∧ v.name.bytes.length < 2 ^ 32 ∧ v.value.length < 2 ^ 32 := by
  refine takes_bytes.bind ?_
  rintro bytes n ⟨rfl, hn⟩
  refine Takes.bind (okOr (P := fun name n => name.bytes.length = bytes.length ∧ n = 0)
    fun name h => ⟨fromBytes_name h, rfl⟩) ?_
  rintro name n ⟨hname, rfl⟩
  refine takes_boolean.bind ?_
  rintro present n rfl
  refine takes_bytes.bind ?_
  rintro value n ⟨rfl, hv⟩
  exact Takes.pure ⟨by simp [Encode.varyValue, hname], hname ▸ hn, hv⟩

theorem takes_key [Crates] : Takes (key config) fun k n =>
      n = (Encode.base k.base ++ Encode.counted Encode.varyValue k.vary).length ∧ k.Short := by
  refine (takes_base config).bind ?_
  rintro base n ⟨rfl, hm, hs, ha, hp, hq⟩
  refine takes_count.bind ?_
  rintro varyCount n ⟨hcount, rfl⟩
  refine ((takes_varyValue config).many _ varyCount).bind ?_
  rintro vary n ⟨rfl, hlen, hvary⟩
  refine guarded fun _ => guarded fun _ => Takes.pure ⟨?_, ?_⟩
  · simp [length_counted]
  · exact ⟨hm, hs, ha, hp, hq, hlen ▸ hcount, hvary⟩

/-! ## Header fields and tags -/

theorem takes_status : Takes status fun _ n => n = 2 := by
  refine takes_word.bind ?_
  rintro code n ⟨_, rfl⟩
  exact okOr fun s _ => rfl

theorem takes_fields : ∀ (count size : ℕ) (headers : HeaderMap),
    Takes (fields config count size headers) fun m n =>
      (m.iter.flatMap field).length = (headers.iter.flatMap field).length + n
        ∧ m.iter.length = headers.iter.length + count
        ∧ ∀ f ∈ m.iter, f ∈ headers.iter ∨ f.1.bytes.length < 2 ^ 32 ∧ f.2.bytes.length < 2 ^ 32
  | 0, _, headers => Takes.pure ⟨rfl, rfl, fun _ hf => .inl hf⟩
  | count + 1, size, headers => by
    refine takes_bytes.bind ?_
    rintro nameBytes n ⟨rfl, hn⟩
    refine takes_bytes.bind ?_
    rintro valueBytes n ⟨rfl, hv⟩
    refine Takes.bind (okOr fun _ _ => rfl) ?_
    rintro size n rfl
    refine guarded fun _ => ?_
    refine Takes.bind (okOr (P := fun name n => name.bytes.length = nameBytes.length ∧ n = 0)
      fun name h => ⟨fromBytes_name h, rfl⟩) ?_
    rintro name n ⟨hname, rfl⟩
    refine Takes.bind (okOr (P := fun v n => v.bytes = valueBytes ∧ n = 0) fun v h =>
      ⟨fromBytes_value h, rfl⟩) ?_
    rintro value n ⟨rfl, rfl⟩
    refine (takes_fields count size _).mono ?_
    rintro m n ⟨hsize, hlen, hmem⟩
    have hperm := headers.append_iter_perm name value
    refine ⟨?_, ?_, ?_⟩
    · rw [hsize, (hperm.flatMap_right _).length_eq, flatMap_append]
      simp only [flatMap_singleton, field, length_bytes, length_append]
      omega
    · rw [hlen, hperm.length_eq, length_append, length_singleton]
      omega
    · intro f hf
      rcases hmem f hf with hf | hf
      · rcases mem_append.mp (hperm.mem_iff.mp hf) with hf | hf
        · exact .inl hf
        · rw [mem_singleton.mp hf]
          exact .inr ⟨hname ▸ hn, hv⟩
      · exact .inr hf

theorem takes_tags : ∀ (count : ℕ) (done : List Bytes), Takes (tags config count done) fun l n =>
      (l.flatMap Encode.bytes).length = (done.flatMap Encode.bytes).length + n
        ∧ l.length = done.length + count ∧ ∀ tag ∈ l, tag ∈ done ∨ tag.length < 2 ^ 32
  | 0, _ => Takes.pure ⟨rfl, rfl, fun _ h => .inl h⟩
  | count + 1, done => by
    refine takes_bytes.bind ?_
    rintro tag n ⟨rfl, ht⟩
    refine guarded fun _ => guarded fun _ => ?_
    refine (takes_tags count _).mono ?_
    rintro l n ⟨hsize, hlen, hmem⟩
    refine ⟨?_, ?_, ?_⟩
    · rw [hsize, flatMap_append, length_append, flatMap_singleton]
      omega
    · rw [hlen, length_append, length_singleton]
      omega
    · intro t h
      rcases hmem t h with h | h
      · rcases mem_append.mp h with h | h
        · exact .inl h
        · rw [mem_singleton.mp h]
          exact .inr ht
      · exact .inr h

/-! ## Policies -/

theorem takes_retention (hv : version = 1 ∨ version = recordVersion) :
    Takes (retention version) fun r n =>
      n = (retentionOf version r).length ∧ (version = 1 → r = .rfc) := by
  rcases hv with rfl | rfl
  · exact Takes.pure ⟨rfl, fun _ => rfl⟩
  · refine takes_optionalDuration.bind ?_
    rintro keep n rfl
    refine takes_boolean.bind ?_
    rintro allowed n rfl
    cases keep with
    | none =>
      cases allowed with
      | true => exact Takes.pure ⟨rfl, fun _ => rfl⟩
      | false => exact Takes.throw
    | some keep =>
      cases allowed with
      | true => exact Takes.throw
      | false =>
        refine Takes.pure ⟨?_, fun h => absurd h (by decide)⟩
        simp [Encode.retentionOf, Encode.retention, Encode.optionalDuration, recordVersion,
          RetentionPolicy.keep]

theorem takes_policy (hv : version = 1 ∨ version = recordVersion) {age : Duration} :
    Takes (policy version age) fun p n =>
      n = (windows p ++ (retentionOf version p.retention ++ flags p)).length
        ∧ (version = 1 → p.retention = .rfc) := by
  refine takes_duration.bind ?_
  rintro freshness n rfl
  refine takes_duration.bind ?_
  rintro whileRevalidate n rfl
  refine takes_duration.bind ?_
  rintro ifError n rfl
  refine (takes_retention hv).bind ?_
  rintro retention n ⟨rfl, hr⟩
  refine takes_boolean.bind ?_
  rintro always n rfl
  refine takes_boolean.bind ?_
  rintro must n rfl
  refine takes_boolean.bind ?_
  rintro authorized n rfl
  refine Takes.pure ⟨?_, hr⟩
  simp only [length_append, length_windows, length_flags]
  omega

theorem takes_stamp : Takes (stamp wall) fun _ n => n = 40 := by
  refine takes_u64.bind ?_
  rintro sequence n rfl
  refine takes_u64.bind ?_
  rintro access n rfl
  refine takes_duration.bind ?_
  rintro age n rfl
  refine takes_duration.bind ?_
  rintro stored n rfl
  refine Takes.bind (okOr fun _ _ => rfl) ?_
  rintro stored n rfl
  exact Takes.pure rfl

/-! ## Records -/

theorem takes_finish : Takes (finish config e) fun e' n => e' = e ∧ n = 0 := by
  intro r e' r' h
  obtain ⟨rest, s, hget, h⟩ := bind_eq_ok.mp h
  obtain ⟨_, rfl⟩ := Prod.mk.inj hget
  obtain ⟨_, h⟩ := guard_eq_ok.mp h
  obtain ⟨_, h⟩ := guard_eq_ok.mp h
  obtain ⟨he, rfl⟩ := Prod.mk.inj h
  exact ⟨0, by omega, (Except.ok.inj he).symm, rfl⟩

theorem finishes_finish : Finishes (finish config e) := by
  intro r e' r' h
  obtain ⟨rest, s, hget, h⟩ := bind_eq_ok.mp h
  obtain ⟨hrest, rfl⟩ := Prod.mk.inj hget
  cases hrest
  obtain ⟨hempty, h⟩ := guard_eq_ok.mp h
  obtain ⟨_, h⟩ := guard_eq_ok.mp h
  obtain ⟨_, rfl⟩ := Prod.mk.inj h
  exact not_not.mp hempty

theorem finishes_payload [Crates] : Finishes (payload config version now wall) := by
  refine .bind fun stamp => .bind fun key => .bind fun status => .bind fun fieldCount => ?_
  refine .bind fun headers => .bind fun body => .bind fun tagCount => .bind fun tags => ?_
  refine .bind fun policy => .bind fun etag => .bind fun lastModified => .bind fun charge => ?_
  exact (finishes_finish config).andPure

/-- The decoder takes what the encoder writes for the entry it reads. -/
theorem takes_payload [Crates] (hv : version = 1 ∨ version = recordVersion) :
    Takes (payload config version now wall) fun d n =>
      n = d.entry.payloadLength version ∧ d.entry.Short
        ∧ (version = 1 → d.entry.policy.retention = .rfc) := by
  refine takes_stamp.bind ?_
  rintro ⟨sequence, access, age⟩ n rfl
  refine (takes_key config).bind ?_
  rintro key n ⟨rfl, hkey⟩
  refine takes_status.bind ?_
  rintro status n rfl
  refine takes_count.bind ?_
  rintro fieldCount n ⟨hfc, rfl⟩
  refine (takes_fields config _ 0 _).bind ?_
  rintro headers fieldSize ⟨hfs, hfl, hfm⟩
  refine takes_bytesU64.bind ?_
  rintro body n ⟨rfl, hbody⟩
  refine takes_count.bind ?_
  rintro tagCount n ⟨htc, rfl⟩
  refine (takes_tags config tagCount []).bind ?_
  rintro tags tagSize ⟨hts, htl, htm⟩
  refine (takes_policy hv).bind ?_
  rintro policy n ⟨rfl, hpolicy⟩
  refine (takes_optionalValue config).bind ?_
  rintro etag n ⟨rfl, hetag⟩
  refine (takes_optionalValue config).bind ?_
  rintro lastModified n ⟨rfl, hlast⟩
  refine takes_word.bind ?_
  rintro charge n ⟨hcharge, rfl⟩
  refine (takes_finish config).bind ?_
  rintro entry n ⟨rfl, rfl⟩
  have hfs' : (headers.iter.flatMap Encode.field).length = fieldSize := by
    simpa [HeaderMap.iter, HeaderMap.empty] using hfs
  have hfl' : headers.iter.length = fieldCount := by
    simpa [HeaderMap.iter, HeaderMap.empty] using hfl
  have hts' : (tags.flatMap Encode.bytes).length = tagSize := by simpa using hts
  have htl' : tags.length = tagCount := by simpa using htl
  refine Takes.pure ⟨?_, ?_, hpolicy⟩
  · rw [payloadLength, Encode.payloadOf_eq]
    simp only [length_append, Encode.length_stamp, length_leBytes, hfs', hts', Nat.add_zero]
  · refine ⟨hkey, hfl' ▸ hfc, ?_, hbody, htl' ▸ htc, ?_, hetag, hlast, hcharge⟩
    · intro f hf
      exact (hfm f hf).resolve_left (by simp [HeaderMap.iter, HeaderMap.empty])
    · intro tag ht
      exact (htm tag ht).resolve_left (by simp)

end Decode

/-- The version in the header of a record. -/
def versionOf (record : Bytes) : ℕ := ofLeBytes ((record.drop 8).take 2)

theorem versionOf_framed [Crates] {payload : Bytes} :
    versionOf (framed recordVersion payload) = recordVersion := rfl

/-- **The size of a decoded record**: the entry can be written again, and takes then as many bytes
as the record has, or two more when the record is of version 1. -/
theorem decodeRecord_sized [Crates] {config : CacheConfig} {record : Bytes} {d : DecodedRecord}
    (h : decodeRecord config now wall record = .ok d) : d.entry.encodable = true
      ∧ d.entry.recordSize = record.length + (if versionOf record = 1 then 2 else 0) := by
  obtain ⟨hhead, h⟩ := guard_eq_ok.mp h
  obtain ⟨hframe, h⟩ := guard_eq_ok.mp h
  push Not at hhead hframe
  have hversion : versionOf record = 1 ∨ versionOf record = recordVersion := hframe.1
  have hrun : Decode.payload config (versionOf record) now wall (record.drop headerBytes)
      = (.ok d, (Decode.payload config (versionOf record) now wall (record.drop headerBytes)).2) :=
    Prod.ext h rfl
  obtain ⟨n, hn, hlength, hshort, hretention⟩ :=
    Decode.takes_payload config hversion _ _ _ hrun
  have hempty := Decode.finishes_payload config _ _ _ hrun
  rw [hempty, length_nil, Nat.add_zero, length_drop] at hn
  refine ⟨(d.entry.encodable_iff).mpr hshort, ?_⟩
  unfold recordSize
  rcases hversion with hone | htwo
  · rw [payloadLength_one (hretention hone), if_pos hone]
    rw [hone] at hlength
    omega
  · rw [htwo] at hlength ⊢
    rw [if_neg (by decide)]
    omega

end Oxiroute.Cache
