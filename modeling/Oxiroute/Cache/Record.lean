import Oxiroute.Cache.Memory
import Oxiroute.Lib.Reader

/-!
# Persistent records

Model of `encode_record` and `decode_record` of `crates/oxiroute-cache/src/disk.rs`, with the
encoder and the decoder of `disk/codec.rs`.

A record is a header (magic, version, payload length, checksum) and a payload of little-endian
words and length-prefixed byte strings. The encoder writes version 2; the decoder also reads
version 1, which has no retention. Every check of the encoder fails with the same error, so
`encodeRecord` makes them all at once (`encodable`) and then writes.

The decoder takes the payload apart in the order of the fields: the base key, which has to be
canonical, the `Vary` values, whose names have to ascend, the header fields, the tags, the policy,
the validators and the charge, which has to be the one recomputed.
-/

namespace Oxiroute.Cache

open Lib Prog Http

/-! ## Configuration and errors -/

structure DiskCacheConfig where
  memory : CacheConfig
  maxDiskBytes : ℕ
  maxDiskFiles : ℕ
  maxRecordBytes : ℕ
  diskBytes_le : maxDiskBytes ≤ u64Max
  diskFiles_le : maxDiskFiles ≤ usizeMax
  recordBytes_le : maxRecordBytes ≤ usizeMax

/-- `validate_disk_config`. -/
def DiskCacheConfig.validate (c : DiskCacheConfig) : Bool :=
  decide (0 < c.maxDiskBytes ∧ 0 < c.maxDiskFiles ∧ 0 < c.maxRecordBytes
    ∧ c.maxRecordBytes ≤ c.maxDiskBytes)

/-- The errors of the persistent cache that do not come from the file system; `invalidRecord` is
the storage error of `invalid_record`. -/
inductive DiskCacheError where
  | recordTooLarge
  | quota
  | invalidRecord
  | cache (e : CacheError)
  deriving DecidableEq

structure DecodedRecord where
  entry : RecoveredEntry
  access : UInt64
  sequence : UInt64
  deriving DecidableEq

def magic : Bytes := utf8Bytes "OXICACHE"

def recordVersion : ℕ := 2

def headerBytes : ℕ := 8 + 2 + 8 + 4

/-! ## Encoder -/

namespace Encode

def boolean (b : Bool) : Bytes := [if b then 1 else 0]

def duration (d : Duration) : Bytes := leBytes 8 d.asSecs ++ leBytes 4 d.subsecNanos

def optionalDuration : Option Duration → Bytes
  | none => boolean false
  | some d => boolean true ++ duration d

def bytes (v : Bytes) : Bytes := leBytes 4 v.length ++ v

def bytesU64 (v : Bytes) : Bytes := leBytes 8 v.length ++ v

def optionalBytes : Option Bytes → Bytes
  | none => boolean false
  | some v => boolean true ++ bytes v

def base (k : BaseKey) : Bytes :=
  bytes k.method.bytes ++ (bytes (utf8Bytes k.scheme) ++ (bytes (utf8Bytes k.authority) ++
    (bytes (utf8Bytes k.path) ++ optionalBytes (k.query.map utf8Bytes))))

def varyValue (v : VaryValue) : Bytes :=
  bytes v.name.bytes ++ (boolean v.present ++ bytes v.value)

def field (f : HeaderName × HeaderValue) : Bytes := bytes f.1.bytes ++ bytes f.2.bytes

/-- A list with its length in front. -/
def counted {α : Type} (enc : α → Bytes) (l : List α) : Bytes :=
  leBytes 4 l.length ++ l.flatMap enc

def retention (r : RetentionPolicy) : Bytes :=
  optionalDuration r.keep ++ boolean r.requestStaleAllowed

def windows (p : ResponsePolicy) : Bytes :=
  duration p.freshnessLifetime ++ (duration p.staleWhileRevalidate ++ duration p.staleIfError)

def flags (p : ResponsePolicy) : Bytes :=
  boolean p.alwaysRevalidate ++ (boolean p.mustRevalidateStale ++ boolean p.allowsAuthorizedReuse)

def validators (v : Validators) : Bytes :=
  optionalBytes (v.etag.map HeaderValue.bytes) ++
    optionalBytes (v.lastModified.map HeaderValue.bytes)

/-- The times at the start of a payload. -/
def stamp (sequence access : UInt64) (age wall : Duration) : Bytes :=
  leBytes 8 sequence.toNat ++ (leBytes 8 access.toNat ++ (duration age ++ duration wall))

/-- The representation: key, status, header fields, body and tags. -/
def representation (e : RecoveredEntry) : Bytes :=
  base e.key.base ++ (counted varyValue e.key.vary ++ (leBytes 2 e.status.code ++
    (counted field e.headers.iter ++ (bytesU64 e.body ++ counted bytes e.tags))))

def payload (e : RecoveredEntry) (sequence access : UInt64) (age wall : Duration) : Bytes :=
  stamp sequence access age wall ++ (representation e ++ (windows e.policy ++
    (retention e.policy.retention ++ (flags e.policy ++ (validators e.validators ++
      leBytes 8 e.charge)))))

/-- A record of a version with its header. -/
def framed [Crates] (version : ℕ) (payload : Bytes) : Bytes :=
  magic ++ (leBytes 2 version ++ (leBytes 8 payload.length ++
    (leBytes 4 (Crates.crc32 payload).toNat ++ payload)))

end Encode

/-- Whether all lengths an entry is written with fit their words. -/
def RecoveredEntry.encodable (e : RecoveredEntry) : Bool :=
  (([e.key.base.method.bytes, utf8Bytes e.key.base.scheme, utf8Bytes e.key.base.authority,
      utf8Bytes e.key.base.path] ++ (e.key.base.query.map utf8Bytes).toList
    ++ e.key.vary.flatMap (fun v => [v.name.bytes, v.value])
    ++ e.headers.iter.flatMap (fun f => [f.1.bytes, f.2.bytes]) ++ e.tags
    ++ (e.validators.etag.map HeaderValue.bytes).toList
    ++ (e.validators.lastModified.map HeaderValue.bytes).toList).all fun v =>
      decide (v.length < 2 ^ 32))
  && decide (e.key.vary.length < 2 ^ 32) && decide (e.headers.iter.length < 2 ^ 32)
  && decide (e.tags.length < 2 ^ 32) && decide (e.body.length < 2 ^ 64)
  && decide (e.charge < 2 ^ 64)

def encodeRecord [Crates] (e : RecoveredEntry) (sequence access : UInt64) (now : MonoTime)
    (wall : SystemTime) : Except DiskCacheError Bytes :=
  let age := e.policy.correctedInitialAge.saturatingAdd (now.durationSince e.responseReceived)
  let payload := Encode.payload e sequence access age (wall.elapsedSince SystemTime.epoch)
  if e.encodable = false ∨ 2 ^ 64 ≤ payload.length then .error .recordTooLarge
  else .ok (Encode.framed recordVersion payload)

/-! ## Decoder -/

namespace Decode

abbrev Reader (α : Type) := Prog (List UInt8) DiskCacheError α

def invalid {α : Type} : Reader α := throw .invalidRecord

def word (n : ℕ) : Reader ℕ := readWord .invalidRecord n

def u64 : Reader UInt64 := do
  let v ← word 8
  pure (UInt64.ofNat v)

def boolean : Reader Bool := do
  let v ← word 1
  if ¬(v = 0 ∨ v = 1) then invalid else pure (v = 1)

def duration : Reader Duration := do
  let seconds ← u64
  let nanos ← word 4
  if h : nanos < 10 ^ 9 then pure (Duration.new seconds nanos h) else invalid

def optionalDuration : Reader (Option Duration) := do
  let present ← boolean
  if present then do
    let d ← duration
    pure (some d)
  else pure none

variable (maximum : ℕ)

def count : Reader ℕ := do
  let count ← word 4
  if count > maximum then invalid else pure count

def bytes : Reader Bytes := do
  let length ← word 4
  if length > maximum then invalid else takeBytes .invalidRecord length

def bytesU64 : Reader Bytes := do
  let length ← word 8
  if length > maximum then invalid else takeBytes .invalidRecord length

def string : Reader String := do
  let v ← bytes maximum
  okOr (fromUtf8 v) .invalidRecord

def optionalBytes : Reader (Option Bytes) := do
  let present ← boolean
  if present then do
    let v ← bytes maximum
    pure (some v)
  else pure none

def optionalString : Reader (Option String) := do
  let v ← optionalBytes maximum
  match v with
  | none => pure none
  | some v => do
    let s ← okOr (fromUtf8 v) .invalidRecord
    pure (some s)

/-- The base key, which has to be in canonical form and of a GET request. -/
def base [Crates] (config : CacheConfig) : Reader BaseKey := do
  let method ← bytes config.maxKeyBytes
  let method ← okOr (Method.fromBytes method) .invalidRecord
  let scheme ← string config.maxKeyBytes
  let authority ← string config.maxKeyBytes
  let path ← string config.maxKeyBytes
  let query ← optionalString config.maxKeyBytes
  match BaseKey.new ⟨method, scheme, authority, path, query, HeaderMap.empty⟩
      config.maxKeyBytes with
  | .error _ => invalid
  | .ok canonical =>
    if canonical ≠ ⟨method, scheme, authority, path, query⟩ ∨ canonical.isGet = false then invalid
    else pure canonical

def varyValue (config : CacheConfig) : Reader VaryValue := do
  let name ← bytes config.maxHeaderBytes
  let name ← okOr (HeaderName.fromBytes name) .invalidRecord
  let present ← boolean
  let value ← bytes config.maxKeyBytes
  pure ⟨name, present, value⟩

/-- Whether the names ascend strictly. -/
def ascending (vary : List VaryValue) : Bool :=
  (vary.zip vary.tail).all fun pair => !Vary.nameLe pair.2.name pair.1.name

def key [Crates] (config : CacheConfig) : Reader CacheKey := do
  let base ← base config
  let varyCount ← count config.maxVaryFields
  let vary ← readMany (varyValue config) varyCount
  if ascending vary = false then invalid
  else if CacheKey.encodedLen ⟨base, vary⟩ > config.maxKeyBytes then invalid
  else pure ⟨base, vary⟩

def status : Reader StatusCode := do
  let code ← word 2
  okOr (StatusCode.fromU16 code) .invalidRecord

/-- The loop over the header fields: the bytes so far and the map so far. -/
def fields (config : CacheConfig) : ℕ → ℕ → HeaderMap → Reader HeaderMap
  | 0, _, headers => pure headers
  | n + 1, headerBytes, headers => do
    let name ← bytes config.maxHeaderBytes
    let value ← bytes config.maxHeaderBytes
    let headerBytes ← okOr ((checkedAdd headerBytes name.length).bind fun size =>
      checkedAdd size value.length) .invalidRecord
    if headerBytes > config.maxHeaderBytes then invalid
    else do
      let name ← okOr (HeaderName.fromBytes name) .invalidRecord
      let value ← okOr (HeaderValue.fromBytes value) .invalidRecord
      fields config n headerBytes (headers.append name value)

def tags (config : CacheConfig) : ℕ → List Bytes → Reader (List Bytes)
  | 0, tags => pure tags
  | n + 1, tags => do
    let tag ← bytes config.maxTagBytes
    if validateTag tag config.maxTagBytes = false then throw (.cache .invalidTag)
    else if tags.contains tag then invalid
    else Decode.tags config n (tags ++ [tag])

/-- The retention; version 1 knows only the RFC one. -/
def retention (version : ℕ) : Reader RetentionPolicy :=
  if version ≥ 2 then do
    let keep ← optionalDuration
    let requestStaleAllowed ← boolean
    match keep, requestStaleAllowed with
    | none, true => pure .rfc
    | some keep, false => pure (.canonical keep)
    | _, _ => invalid
  else pure .rfc

def optionalValue (config : CacheConfig) : Reader (Option HeaderValue) := do
  let v ← optionalBytes config.maxHeaderBytes
  match v with
  | none => pure none
  | some v => do
    let v ← okOr (HeaderValue.fromBytes v) .invalidRecord
    pure (some v)

def policy (version : ℕ) (correctedInitialAge : Duration) : Reader ResponsePolicy := do
  let freshnessLifetime ← duration
  let staleWhileRevalidate ← duration
  let staleIfError ← duration
  let retention ← retention version
  let alwaysRevalidate ← boolean
  let mustRevalidateStale ← boolean
  let allowsAuthorizedReuse ← boolean
  pure ⟨freshnessLifetime, correctedInitialAge, staleWhileRevalidate, staleIfError, retention,
    alwaysRevalidate, mustRevalidateStale, allowsAuthorizedReuse⟩

/-- The sequence, the access, and the age: what was stored plus the time since. -/
def stamp (wall : SystemTime) : Reader (UInt64 × UInt64 × Duration) := do
  let sequence ← u64
  let access ← u64
  let storedAge ← duration
  let storedWall ← duration
  let storedWall ← okOr (SystemTime.epoch.checkedAdd storedWall) .invalidRecord
  pure (sequence, access, storedAge.saturatingAdd (wall.elapsedSince storedWall))

/-- The checks at the end of `decode_record`. -/
def finish (config : CacheConfig) (e : RecoveredEntry) : Reader RecoveredEntry := do
  let rest ← get
  if rest ≠ [] then invalid
  else if objectCharge e.key e.headers e.body.length e.tags ≠ some e.charge
      ∨ e.charge > config.maxObjectBytes ∨ e.charge > config.maxTotalBytes then invalid
  else pure e

def payload [Crates] (config : CacheConfig) (version : ℕ) (now : MonoTime) (wall : SystemTime) :
    Reader DecodedRecord := do
  let (sequence, access, correctedInitialAge) ← stamp wall
  let key ← key config
  let status ← status
  let headerCount ← count config.maxHeaderFields
  let headers ← fields config headerCount 0 HeaderMap.empty
  let body ← bytesU64 config.maxBodyBytes
  let tagCount ← count config.maxTagsPerEntry
  let tags ← tags config tagCount []
  let policy ← policy version correctedInitialAge
  let etag ← optionalValue config
  let lastModified ← optionalValue config
  let charge ← word 8
  let entry ← finish config
    ⟨key, status, headers, body, tags, policy, ⟨etag, lastModified⟩, now, charge⟩
  pure ⟨entry, access, sequence⟩

end Decode

def decodeRecord [Crates] (config : CacheConfig) (now : MonoTime) (wall : SystemTime)
    (record : Bytes) : Except DiskCacheError DecodedRecord :=
  if record.length < headerBytes ∨ record.take 8 ≠ magic then .error .invalidRecord
  else
    let version := ofLeBytes ((record.drop 8).take 2)
    let payloadLen := ofLeBytes ((record.drop 10).take 8)
    let checksum := ofLeBytes ((record.drop 18).take 4)
    let payload := record.drop headerBytes
    if ¬(version = 1 ∨ version = recordVersion) ∨ payloadLen ≠ record.length - headerBytes
        ∨ (Crates.crc32 payload).toNat ≠ checksum then
      .error .invalidRecord
    else (Decode.payload config version now wall payload).1

end Oxiroute.Cache
