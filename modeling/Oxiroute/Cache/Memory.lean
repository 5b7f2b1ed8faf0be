import Mathlib.Data.List.MinMax
import Oxiroute.Cache.Policy
import Oxiroute.Lib.Machine
import Oxiroute.Lib.Table

/-!
# The memory cache

Model of `crates/oxiroute-cache/src/cache.rs`. A `State` is what the mutex guards: the entries, the
flights (collapsed fills in progress), the byte counter, the access sequence and the statistics.

* An operation is a function of the state; the clock is read once per operation, so its answer is
  an argument.
* The source tells flights of one base apart by the address of an allocation, `generation`. Here
  generations are numbers, and `nextGeneration` is the next one never handed out.
* A flight owns the sending half of a watch channel. `signals` lists what was sent, with the
  generation of the flight it was sent for; before anything is sent a follower reads `Filling`.
* `FillGuard.store`, `completeWithoutStore` and `drop` consume the guard, and `store` drops it when
  the entry is not the guard's.
-/

namespace Oxiroute.Cache

open Lib Http

/-- `u64::MAX`. -/
def u64Max : ℕ := 2 ^ 64 - 1

def entryAccountingOverhead : ℕ := 128
def headerAccountingOverhead : ℕ := 32
def tagAccountingOverhead : ℕ := 16

/-! ## Configuration -/

/-- `CacheConfig`; every limit is a machine word. -/
structure CacheConfig where
  maxEntries : ℕ
  maxTotalBytes : ℕ
  maxObjectBytes : ℕ
  maxHeaderBytes : ℕ
  maxHeaderFields : ℕ
  maxBodyBytes : ℕ
  maxKeyBytes : ℕ
  maxVaryFields : ℕ
  maxTagsPerEntry : ℕ
  maxTagBytes : ℕ
  maxInFlight : ℕ
  maxFollowersPerFill : ℕ
  maxHeuristicFreshness : Duration
  word : ∀ n ∈ [maxEntries, maxTotalBytes, maxObjectBytes, maxHeaderBytes, maxHeaderFields,
    maxBodyBytes, maxKeyBytes, maxVaryFields, maxTagsPerEntry, maxTagBytes, maxInFlight,
    maxFollowersPerFill], n ≤ usizeMax

namespace CacheConfig

/-- `validate_config`. -/
def validate (c : CacheConfig) : Bool :=
  decide (0 < c.maxEntries ∧ 0 < c.maxTotalBytes ∧ 0 < c.maxObjectBytes ∧ 0 < c.maxHeaderBytes
    ∧ 0 < c.maxHeaderFields ∧ 0 < c.maxBodyBytes ∧ 0 < c.maxKeyBytes ∧ 0 < c.maxVaryFields
    ∧ 0 < c.maxTagsPerEntry ∧ 0 < c.maxTagBytes ∧ 0 < c.maxInFlight ∧ 0 < c.maxFollowersPerFill)
  && decide (c.maxObjectBytes ≤ c.maxTotalBytes) && decide (c.maxBodyBytes ≤ c.maxObjectBytes)

end CacheConfig

inductive CacheError where
  | invalidConfig
  | invalidRequest (e : ParseError)
  | invalidKey (e : KeyError)
  | responseRejected (r : ResponseRejection)
  | headOrUnsupportedMethod
  | headersTooLarge
  | bodyTooLarge
  | objectTooLarge
  | invalidTag
  | tooManyTags
  | varyChanged
  | fillKeyMismatch
  | preparedEntryOwnerMismatch
  | invalidFillKey
  | invalidNotModified
  deriving DecidableEq

/-! ## Insertion candidates -/

/-- `check_header_bounds`: the number of fields, and their bytes as long as they fit a word. -/
def checkHeaderBounds (headers : HeaderMap) (config : CacheConfig) : Bool :=
  decide (headers.len ≤ config.maxHeaderFields) && (headers.iter.foldlM (fun size field =>
      (checkedAdd size field.1.bytes.length).bind fun size =>
        checkedAdd size field.2.bytes.length) 0).any fun bytes => bytes ≤ config.maxHeaderBytes

def validateTag (tag : Bytes) (maxBytes : ℕ) : Bool :=
  !tag.isEmpty && decide (tag.length ≤ maxBytes) &&
    tag.all fun byte => 33 ≤ byte && byte ≤ 126 && byte != 44 && byte != 34

/-- The loop of `parse_tags`: a repeated tag is kept once. -/
def parseTagsLoop (maxTagBytes : ℕ) : List Bytes → List Bytes → Except CacheError (List Bytes)
  | [], parsed => .ok parsed
  | tag :: tags, parsed =>
    if validateTag tag maxTagBytes = false then .error .invalidTag
    else parseTagsLoop maxTagBytes tags (if parsed.contains tag then parsed else parsed ++ [tag])

def parseTags (tags : List Bytes) (config : CacheConfig) : Except CacheError (List Bytes) :=
  if tags.length > config.maxTagsPerEntry then .error .tooManyTags
  else parseTagsLoop config.maxTagBytes tags []

/-- `object_charge`: what an entry counts against the quota. -/
def objectCharge (key : CacheKey) (headers : HeaderMap) (bodyBytes : ℕ) (tags : List Bytes) :
    Option ℕ := do
  let charge ← checkedAdd entryAccountingOverhead key.encodedLen
  let charge ← headers.iter.foldlM (fun charge field => do
    let charge ← checkedAdd charge headerAccountingOverhead
    let charge ← checkedAdd charge field.1.bytes.length
    checkedAdd charge field.2.bytes.length) charge
  let charge ← checkedAdd charge bodyBytes
  tags.foldlM (fun charge tag => do
    let charge ← checkedAdd charge tagAccountingOverhead
    checkedAdd charge tag.length) charge

/-- `RecoveredEntry`: what a persistent record holds of an entry. -/
structure RecoveredEntry where
  key : CacheKey
  status : StatusCode
  headers : HeaderMap
  body : Bytes
  tags : List Bytes
  policy : ResponsePolicy
  validators : Validators
  responseReceived : MonoTime
  charge : ℕ
  deriving DecidableEq

/-- `PreparedEntry`: the same with the cache that prepared it. -/
structure PreparedEntry extends RecoveredEntry where
  identity : ℕ
  deriving DecidableEq

structure CacheResponse where
  status : StatusCode
  headers : HeaderMap
  body : Bytes
  timing : ResponseTiming
  tags : List Bytes

/-- What all handles of a cache share and never change. -/
structure Shared where
  identity : ℕ
  config : CacheConfig

def prepareInner [Crates] (shared : Shared) (request : RequestKeyInput) (response : CacheResponse)
    (timeline : Option CacheTimeline) : Except CacheError PreparedEntry :=
  let config := shared.config
  if request.method ≠ Method.get then .error .headOrUnsupportedMethod
  else if response.timing.responseReceived.asDuration <
    response.timing.requestStarted.asDuration then
    .error (.responseRejected .invalidTiming)
  else if checkHeaderBounds request.headers config = false then .error .headersTooLarge
  else if checkHeaderBounds response.headers config = false then .error .headersTooLarge
  else if response.body.length > config.maxBodyBytes then .error .bodyTooLarge
  else do
    let (policy, vary, validators) ← (ResponsePolicy.evaluate
      { requestHeaders := request.headers
        status := response.status
        headers := response.headers
        timing := response.timing
        maxHeuristicFreshness := config.maxHeuristicFreshness
        maxVaryFields := config.maxVaryFields
        maxVaryBytes := config.maxHeaderBytes
        timeline }).mapError .responseRejected
    let base ← (BaseKey.new request config.maxKeyBytes).mapError .invalidKey
    let key ← (CacheKey.new base request.headers vary config.maxKeyBytes).mapError .invalidKey
    let tags ← parseTags response.tags config
    match objectCharge key response.headers response.body.length tags with
    | none => .error .objectTooLarge
    | some charge =>
      if charge > config.maxObjectBytes ∨ charge > config.maxTotalBytes then .error .objectTooLarge
      else
        .ok
          { identity := shared.identity
            key
            status := response.status
            headers := response.headers
            body := response.body
            tags
            policy
            validators
            responseReceived := response.timing.responseReceived
            charge }

/-! ## State -/

structure CacheStats where
  hits : UInt64
  misses : UInt64
  bypasses : UInt64
  revalidations : UInt64
  staleWhileRevalidate : UInt64
  staleHits : UInt64
  staleIfError : UInt64
  stores : UInt64
  rejected : UInt64
  evictions : UInt64
  purged : UInt64
  fillLeaders : UInt64
  fillFollowers : UInt64
  fillCancelled : UInt64
  deriving DecidableEq

structure StoredEntry where
  entry : PreparedEntry
  lastAccess : ℕ
  deriving DecidableEq

/-- `Flight`: a fill in progress and how many followers wait for it. -/
structure Flight where
  generation : ℕ
  followers : ℕ
  deriving DecidableEq

inductive FillOutcome where
  | filling
  | stored
  | notStored
  | cancelled
  | purged
  deriving DecidableEq

structure State where
  entries : Table CacheKey StoredEntry
  flights : Table BaseKey Flight
  bytesUsed : ℕ
  sequence : ℕ
  stats : CacheStats
  nextGeneration : ℕ
  signals : List (ℕ × FillOutcome)

/-- Counts one more, up to the largest word. -/
def bump (n : UInt64) : UInt64 := saturatingAdd n 1

/-- `usize as u64` added to a counter. -/
def bumpBy (n : UInt64) (k : ℕ) : UInt64 := saturatingAdd n (UInt64.ofNat k)

namespace State

/-- The state of `Cache::with_clock`. -/
def init : State where
  entries := ∅
  flights := ∅
  bytesUsed := 0
  sequence := 0
  stats := ⟨0, 0, 0, 0, 0, 0, 0, 0, 0, 0, 0, 0, 0, 0⟩
  nextGeneration := 0
  signals := []

variable (s : State) (key : CacheKey)

def entry : Option PreparedEntry :=
  (s.entries.lookup key).map StoredEntry.entry

/-- The keys in the order of their last access, oldest first. -/
def accessOrder : List CacheKey :=
  (s.entries.entries.insertionSort fun a b =>
    toLex (a.2.lastAccess, a.1) ≤ toLex (b.2.lastAccess, b.1)).map Sigma.fst

/-- Numbers the entries from zero on in the order of their last access. -/
def renumber : State :=
  { s with
    entries := Table.mapVals (fun key stored =>
      { stored with lastAccess := s.accessOrder.idxOf key }) s.entries
    sequence := Table.size s.entries }

def nextSequence : ℕ × State :=
  let s := if s.sequence = u64Max then s.renumber else s
  (s.sequence + 1, { s with sequence := s.sequence + 1 })

/-- Removes an entry, if it is there, and gives its charge back. -/
def dropEntry : State :=
  match s.entries.lookup key with
  | none => s
  | some stored =>
    { s with entries := s.entries.erase key, bytesUsed := s.bytesUsed - stored.entry.charge }

def dropEntries (keys : List CacheKey) : State := keys.foldl dropEntry s

/-- The time since the response was made, by the estimate taken when it was received. -/
def age (entry : PreparedEntry) (now : MonoTime) : Duration :=
  entry.policy.correctedInitialAge.saturatingAdd (now.durationSince entry.responseReceived)

/-- Whether an entry has outlived the retention of its timeline. -/
def expired (entry : PreparedEntry) (now : MonoTime) : Bool :=
  entry.policy.retention.keep.any fun keep =>
    age entry now > entry.policy.freshnessLifetime.saturatingAdd keep

def removeExpiredEntry (now : MonoTime) : Bool × State :=
  if (s.entry key).any (expired · now) then (true, s.dropEntry key) else (false, s)

variable (base : BaseKey)

/-- Whether a request may use the entry of a key. -/
def usable (headers : HeaderMap) (maxKeyBytes : ℕ) (authorized : Bool) (key : CacheKey) : Bool :=
  key.matchesRequest base headers maxKeyBytes && (s.entries.lookup key).any fun stored =>
      !authorized || stored.entry.policy.allowsAuthorizedReuse

/-- `matching_key`: of the keys that match, in iteration order, the last one accessed most
recently. -/
def matchingKey (headers : HeaderMap) (maxKeyBytes : ℕ) (authorized : Bool) : Option CacheKey :=
  (s.entries.keys.filter (s.usable base headers maxKeyBytes authorized)).reverse.argmax fun key =>
    ((s.entries.lookup key).map StoredEntry.lastAccess).getD 0

/-- Sends an outcome to the followers of a flight. -/
def signal (generation : ℕ) (outcome : FillOutcome) : State :=
  { s with signals := s.signals ++ [(generation, outcome)] }

def cancelFlight (outcome : FillOutcome) : Bool × State :=
  match s.flights.lookup base with
  | none => (false, s)
  | some flight =>
    (true, { ({ s with flights := s.flights.erase base }.signal flight.generation outcome) with
      stats := { s.stats with fillCancelled := bump s.stats.fillCancelled } })

def generationMatches (generation : ℕ) : Bool :=
  (s.flights.lookup base).any fun flight => flight.generation = generation

/-! ## Insertion -/

structure InsertionDelta where
  inserted : CacheKey
  removed : List CacheKey
  evicted : ℕ
  deriving DecidableEq

/-- The least recently used entry. -/
def lru : Option CacheKey :=
  (s.entries.entries.argmin fun e => toLex (e.2.lastAccess, e.1)).map Sigma.fst

/-- Whether a new entry of this charge does not fit. -/
def overfull (config : CacheConfig) (charge : ℕ) (s : State) : Bool :=
  decide (Table.size s.entries ≥ config.maxEntries) ||
    decide (satAdd s.bytesUsed charge > config.maxTotalBytes)

/-- The eviction loop of `insert_entry`. Every turn removes an entry, so as many turns as there
are entries are enough. -/
def evictLoop (config : CacheConfig) (charge : ℕ) : ℕ → State → List CacheKey →
    List CacheKey × State
  | 0, s, evicted => (evicted, s)
  | fuel + 1, s, evicted =>
    if overfull config charge s then
      match s.lru with
      | none => (evicted, s)
      | some key => evictLoop config charge fuel (s.dropEntry key) (evicted ++ [key])
    else (evicted, s)

/-- The keys of the same base that were selected by other `Vary` names. -/
def conflicting : List CacheKey :=
  (s.entries.keys.filter fun k => k.base = key.base && !k.sameVarySchema key).insertionSort (· ≤ ·)

/-- The first part of `insert_entry`: the entry under the same key, those of the same base with
another schema and as many others as needed go. Returns their keys and how many of them were
evicted. -/
def makeRoom (config : CacheConfig) (s : State) (entry : PreparedEntry) :
    (List CacheKey × ℕ) × State :=
  let replaced := if (s.entries.lookup entry.key).isSome then [entry.key] else []
  let s := s.dropEntry entry.key
  let conflicts := s.conflicting entry.key
  let s := s.dropEntries conflicts
  let (evicted, s) := evictLoop config entry.charge (Table.size s.entries) s []
  ((replaced ++ conflicts ++ evicted, evicted.length), s)

def insertEntry (config : CacheConfig) (s : State) (entry : PreparedEntry) :
    InsertionDelta × State :=
  let ((removed, evicted), s) := s.makeRoom config entry
  let (lastAccess, s) := s.nextSequence
  ({ inserted := entry.key, removed, evicted },
    { s with
      bytesUsed := satAdd s.bytesUsed entry.charge
      entries := s.entries.insert entry.key { entry, lastAccess }
      stats := { s.stats with evictions := bumpBy s.stats.evictions evicted } })

end State

/-! ## Lookup -/

structure CachedResponse where
  key : CacheKey
  status : StatusCode
  headers : HeaderMap
  body : Bytes
  age : Duration
  deriving DecidableEq

inductive LookupStatus where
  | bypass
  | miss
  | hit
  | staleWhileRevalidate
  | stale
  | revalidate
  | staleIfError
  deriving DecidableEq

inductive Lookup where
  | bypass (status : LookupStatus)
  | miss (status : LookupStatus) (onlyIfCached : Bool) (base : BaseKey)
  | hit (status : LookupStatus) (response : CachedResponse)
  | revalidate (status : LookupStatus) (response : CachedResponse) (validators : Validators)
      (staleIfError : Bool)
  deriving DecidableEq

def Lookup.response? : Lookup → Option CachedResponse
  | .hit _ response => some response
  | .revalidate _ response _ _ => some response
  | _ => none

def responseSnapshot (entry : PreparedEntry) (age : Duration) : CachedResponse where
  key := entry.key
  status := entry.status
  headers :=
    match HeaderValue.fromBytes (utf8Bytes (toString age.asSecs)) with
    | some value => entry.headers.insert Name.age value
    | none => entry.headers
  body := entry.body
  age

namespace State

def countBypass (s : State) : State :=
  { s with stats := { s.stats with bypasses := bump s.stats.bypasses } }

def cacheMiss (s : State) (policy : RequestPolicy) (base : BaseKey) : Lookup × State :=
  (.miss .miss policy.onlyIfCached base,
    { s with stats := { s.stats with misses := bump s.stats.misses } })

/-- Sets the access number of an entry. -/
def touch (s : State) (key : CacheKey) (access : ℕ) : State :=
  { s with entries :=
    Table.update key (fun stored => { stored with lastAccess := access }) s.entries }

/-- The last part of `Cache::lookup`: what a request may do with the entry that was found. -/
def answer (s : State) (policy : RequestPolicy) (entry : PreparedEntry) (now : MonoTime) :
    Lookup × State :=
  let stored := entry.policy
  let age := age entry now
  let response := responseSnapshot entry age
  let requestFresh := policy.maxAge.all fun maximum => age ≤ maximum
  let fresh : Bool := age.saturatingAdd policy.minFresh ≤ stored.freshnessLifetime
  let forced := policy.mode = .revalidate || !requestFresh || (policy.minFresh ≠ 0 && !fresh)
    || stored.alwaysRevalidate || (stored.mustRevalidateStale && !fresh)
  if fresh && requestFresh && !forced then
    (.hit .hit response, { s with stats := { s.stats with hits := bump s.stats.hits } })
  else
    let staleness := age.saturatingSub stored.freshnessLifetime
    let requestAllowsStale := stored.retention.requestStaleAllowed && !forced
      && !stored.mustRevalidateStale
      && policy.maxStale.any fun limit => limit.all fun limit => staleness ≤ limit
    let swr := !forced && decide (staleness ≤ stored.staleWhileRevalidate)
      && stored.staleWhileRevalidate ≠ 0
    if requestAllowsStale then
      (.hit .stale response,
        { s with stats := { s.stats with staleHits := bump s.stats.staleHits } })
    else if swr then
      (.hit .staleWhileRevalidate response, { s with stats :=
          { s.stats with staleWhileRevalidate := bump s.stats.staleWhileRevalidate } })
    else
      let staleIfError := policy.mode ≠ .revalidate && !stored.mustRevalidateStale
        && decide (staleness ≤ stored.staleIfError) && stored.staleIfError ≠ 0
      (.revalidate .revalidate response entry.validators staleIfError,
        { s with stats := { s.stats with revalidations := bump s.stats.revalidations } })

/-- The part of `Cache::lookup` under the lock. -/
def find (config : CacheConfig) (now : MonoTime) (request : RequestKeyInput)
    (policy : RequestPolicy) (base : BaseKey) (s : State) : Except CacheError Lookup × State :=
  match s.matchingKey base request.headers config.maxKeyBytes
      (request.headers.containsKey Name.authorization) with
  | none => ((s.cacheMiss policy base).map .ok id)
  | some key =>
    match s.removeExpiredEntry key now with
    | (true, s) => ((s.cacheMiss policy base).map .ok id)
    | (false, s) =>
      let (access, s) := s.nextSequence
      match s.entry key with
      | none => (.error .invalidNotModified, s)
      | some entry => ((s.touch key access).answer policy entry now).map .ok id

/-- `Cache::lookup`. -/
def lookup [Crates] (config : CacheConfig) (now : MonoTime) (request : RequestKeyInput)
    (s : State) : Except CacheError Lookup × State :=
  if checkHeaderBounds request.headers config = false then (.ok (.bypass .bypass), s.countBypass)
  else
    match RequestPolicy.evaluate request.method request.headers with
    | .error e => (.error (.invalidRequest e), s)
    | .ok policy =>
      if policy.mode = .bypass then (.ok (.bypass .bypass), s.countBypass)
      else
        match BaseKey.new request config.maxKeyBytes with
        | .error e => (.error (.invalidKey e), s)
        | .ok base => s.find config now request policy base

/-- `Cache::stale_if_error`. -/
def staleIfError (now : MonoTime) (key : CacheKey) (s : State) : Option CachedResponse × State :=
  match s.entry key with
  | none => (none, s)
  | some entry =>
    let age := age entry now
    let staleness := age.saturatingSub entry.policy.freshnessLifetime
    if entry.policy.mustRevalidateStale ∨ entry.policy.staleIfError = 0
        ∨ staleness > entry.policy.staleIfError then
      (none, s)
    else
      let (access, s) := s.nextSequence
      (some (responseSnapshot entry age),
        { s.touch key access with
          stats := { s.stats with staleIfError := bump s.stats.staleIfError } })

/-! ## Preparing entries -/

def countRejected (s : State) : State :=
  { s with stats := { s.stats with rejected := bump s.stats.rejected } }

/-- `Cache::prepare` and `Cache::prepare_with_timeline`. -/
def prepare [Crates] (shared : Shared) (request : RequestKeyInput) (response : CacheResponse)
    (timeline : Option CacheTimeline) (s : State) : Except CacheError PreparedEntry × State :=
  match prepareInner shared request response timeline with
  | .error e => (.error e, s.countRejected)
  | .ok entry => (.ok entry, s)

/-- `Cache::prepare_not_modified` and `Cache::prepare_not_modified_with_timeline`. -/
def prepareNotModified [Crates] (shared : Shared) (request : RequestKeyInput) (key : CacheKey)
    (notModified : HeaderMap) (timing : ResponseTiming) (timeline : Option CacheTimeline)
    (s : State) : Except CacheError PreparedEntry :=
  match s.entry key with
  | none => .error .invalidNotModified
  | some existing =>
    match mergeNotModifiedHeaders existing.headers notModified with
    | none => .error .invalidNotModified
    | some merged =>
      match prepareInner shared request
          { status := existing.status
            headers := merged
            body := existing.body
            timing
            tags := existing.tags } timeline with
      | .error e => .error e
      | .ok prepared => if prepared.key ≠ key then .error .varyChanged else .ok prepared

end State

/-! ## Fills -/

/-- `FillGuard`: the permit of a leader. -/
structure FillGuard where
  identity : ℕ
  base : BaseKey
  generation : ℕ
  deriving DecidableEq

/-- `FillJoin`; a follower holds the receiving half of the channel of a generation. -/
inductive FillJoin where
  | leader (guard : FillGuard)
  | follower (generation : ℕ)
  | atCapacity
  deriving DecidableEq

inductive StoreOutcome where
  | stored (evicted : ℕ)
  | generationLost
  deriving DecidableEq

inductive ClaimedStoreOutcome where
  | stored (delta : State.InsertionDelta)
  | generationLost
  deriving DecidableEq

namespace State

/-- `Cache::begin_fill`. -/
def beginFill (shared : Shared) (base : BaseKey) (s : State) : Except CacheError FillJoin × State :=
  if base.isGet = false ∨ base.encodedLen > shared.config.maxKeyBytes then
    (.error .invalidFillKey, s)
  else
    match s.flights.lookup base with
    | some flight =>
      if flight.followers ≥ shared.config.maxFollowersPerFill then (.ok .atCapacity, s)
      else
        (.ok (.follower flight.generation), { s with
            flights := Table.update base (fun flight =>
              { flight with followers := flight.followers + 1 }) s.flights
            stats := { s.stats with fillFollowers := bump s.stats.fillFollowers } })
    | none =>
      if Table.size s.flights ≥ shared.config.maxInFlight then (.ok .atCapacity, s)
      else
        (.ok (.leader { identity := shared.identity, base, generation := s.nextGeneration }),
          { s with
            flights := s.flights.insert base { generation := s.nextGeneration, followers := 0 }
            nextGeneration := s.nextGeneration + 1
            stats := { s.stats with fillLeaders := bump s.stats.fillLeaders } })

/-- `Cache::cancel_all_fills`. -/
def cancelAllFills (s : State) : State :=
  { s with
    flights := ∅
    signals := s.signals ++ s.flights.entries.map fun e => (e.2.generation, .cancelled)
    stats := { s.stats with
      fillCancelled := bumpBy s.stats.fillCancelled (Table.size s.flights) } }

end State

namespace FillGuard

variable (g : FillGuard)

def isCurrent (s : State) : Bool := s.generationMatches g.base g.generation

/-- `FillGuard::claim`: whether the entry is the guard's. -/
def claim (entry : PreparedEntry) : Except CacheError PreparedEntry :=
  if entry.identity ≠ g.identity then .error .preparedEntryOwnerMismatch
  else if entry.key.base ≠ g.base then .error .fillKeyMismatch
  else .ok entry

def storeClaimed (config : CacheConfig) (g : FillGuard) (entry : PreparedEntry) (s : State) :
    ClaimedStoreOutcome × State :=
  if g.isCurrent s = false then (.generationLost, s)
  else
    let (delta, s) := { s with flights := s.flights.erase g.base }.insertEntry config entry
    (.stored delta,
      { s.signal g.generation .stored with stats :=
        { s.stats with stores := bump s.stats.stores } })

def finish (outcome : FillOutcome) (s : State) : Bool × State :=
  if g.isCurrent s = false then (false, s)
  else (true, { s with flights := s.flights.erase g.base }.signal g.generation outcome)

def completeWithoutStore (s : State) : Bool × State := g.finish .notStored s

/-- `Drop for FillGuard`, of a guard that was not used. -/
def drop (s : State) : State :=
  if g.isCurrent s = false then s
  else
    { { s with flights := s.flights.erase g.base }.signal g.generation .cancelled with
      stats := { s.stats with fillCancelled := bump s.stats.fillCancelled } }

def store (config : CacheConfig) (g : FillGuard) (entry : PreparedEntry) (s : State) :
    Except CacheError StoreOutcome × State :=
  match g.claim entry with
  | .error e => (.error e, g.drop s)
  | .ok entry =>
    match g.storeClaimed config entry s with
    | (.stored delta, s) => (.ok (.stored delta.evicted), s)
    | (.generationLost, s) => (.ok .generationLost, s)

end FillGuard

/-! ## Purging and recovery -/

structure PurgeResult where
  entries : ℕ
  bytes : ℕ
  fillsCancelled : ℕ
  deriving DecidableEq

namespace State

def countPurged (s : State) (n : ℕ) : State :=
  { s with stats := { s.stats with purged := bumpBy s.stats.purged n } }

def chargeOf (s : State) (key : CacheKey) : ℕ := ((s.entry key).map fun e => e.charge).getD 0

/-- `Cache::purge_exact`. -/
def purgeExact (key : CacheKey) (s : State) : PurgeResult × State :=
  let entries := if (s.entries.lookup key).isSome then 1 else 0
  let (cancelled, t) := (s.dropEntry key).cancelFlight key.base .purged
  ({ entries, bytes := s.chargeOf key, fillsCancelled := cancelled.toNat }, t.countPurged entries)

/-- `Cache::purge_base`. -/
def purgeBase (base : BaseKey) (s : State) : PurgeResult × State :=
  let keys := s.entries.keys.filter fun key => key.base = base
  let (cancelled, t) := (s.dropEntries keys).cancelFlight base .purged
  ({ entries := keys.length
     bytes := keys.foldl (fun bytes key => satAdd bytes (s.chargeOf key)) 0
     fillsCancelled := cancelled.toNat }, t.countPurged keys.length)

/-- One turn of the loop of `Cache::purge_tag`. -/
def purgeTagged (acc : PurgeResult × State) (key : CacheKey) : PurgeResult × State :=
  let (cancelled, t) := (acc.2.dropEntry key).cancelFlight key.base .purged
  ({ entries := acc.1.entries + (if (acc.2.entries.lookup key).isSome then 1 else 0)
     bytes := satAdd acc.1.bytes (acc.2.chargeOf key)
     fillsCancelled := acc.1.fillsCancelled + cancelled.toNat }, t)

/-- `Cache::purge_tag`. -/
def purgeTag (config : CacheConfig) (tag : Bytes) (s : State) :
    Except CacheError PurgeResult × State :=
  if validateTag tag config.maxTagBytes = false then (.error .invalidTag, s)
  else
    let keys := (s.entries.entries.filter fun e => e.2.entry.tags.contains tag).map Sigma.fst
    let (result, t) := keys.foldl purgeTagged (⟨0, 0, 0⟩, s)
    (.ok result, t.countPurged result.entries)

/-- `Cache::restore`. -/
def restore (shared : Shared) (entry : RecoveredEntry) (s : State) : InsertionDelta × State :=
  s.insertEntry shared.config { entry with identity := shared.identity }

/-- `Cache::remove_without_cancelling_fill`. -/
def removeWithoutCancellingFill (key : CacheKey) (s : State) : Bool × State :=
  ((s.entries.lookup key).isSome, s.dropEntry key)

end State

end Oxiroute.Cache
