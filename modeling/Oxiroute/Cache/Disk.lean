import Oxiroute.Cache.System
import Oxiroute.Lib.Inverted
import Oxiroute.Lib.Runs

/-!
# The persistent cache

Model of `DiskCache` of `crates/oxiroute-cache/src/disk.rs`: the memory cache and beside it an index
of the record files in a directory, with every file system call taken to succeed.

* `DiskState` is what the mutex guards. A `RecordInfo` has the bytes of its file in the place of
  the name, the device and the inode the file is found by.
* `scanRoot` rebuilds both sides from the files of a directory, `touch` rewrites the record of an
  entry that was used, `store` makes room on disk, publishes the record and then stores the entry,
  and the purges remove from the index first.
* An operation that reads the clocks a second time, to stamp a record, takes those readings as a
  `Stamp`.

A `DiskWorld` adds what the clients hold, as `World` does for the memory cache.
-/

namespace Oxiroute.Cache

open Lib Http

/-! ## The index -/

/-- `RecordInfo`: a record file and what the index knows of it. -/
structure RecordInfo where
  contents : Bytes
  size : ℕ
  access : UInt64
  sequence : UInt64
  tags : List Bytes
  deriving DecidableEq

/-- The order in which records are given up: oldest access first. -/
def RecordInfo.rank (r : RecordInfo) (key : CacheKey) : ℕ ×ₗ ℕ ×ₗ CacheKey :=
  toLex (r.access.toNat, toLex (r.sequence.toNat, key))

/-- The `State` of `disk.rs`. -/
structure DiskState where
  records : Table CacheKey RecordInfo
  tags : Inverted Bytes CacheKey
  bytesUsed : ℕ
  sequence : UInt64
  recovered : UInt64
  staleTempsRemoved : UInt64
  corruptRecordsRemoved : UInt64

namespace DiskState

variable (s : DiskState)

/-- `State::next_sequence`. -/
def nextSequence : UInt64 × DiskState :=
  let sequence := saturatingAdd s.sequence 1
  (sequence, { s with sequence })

/-- `State::insert`. -/
def insert (key : CacheKey) (record : RecordInfo) : DiskState :=
  { s with
    bytesUsed := satAdd s.bytesUsed record.size
    tags := Inverted.add s.tags key record.tags
    records := s.records.insert key record }

/-- `State::remove`. -/
def remove (key : CacheKey) : DiskState :=
  match s.records.lookup key with
  | none => s
  | some record =>
    { s with
      records := s.records.erase key
      bytesUsed := s.bytesUsed - record.size
      tags := Inverted.drop s.tags key record.tags }

def removeAll (keys : List CacheKey) : DiskState := keys.foldl remove s

def sizeOf (key : CacheKey) : ℕ := ((s.records.lookup key).map RecordInfo.size).getD 0

/-- The record to give up next, apart from those already chosen. -/
def oldest (victims : List CacheKey) : Option CacheKey :=
  ((s.records.entries.filter fun e => !victims.contains e.1).argmin fun e => e.2.rank e.1).map
    Sigma.fst

/-- The loop of `admission_victims`. Every turn adds a key of the index, so one turn more than
there are records is enough. -/
def victimsLoop (config : DiskCacheConfig) (s : DiskState) (size : ℕ) :
    ℕ → List CacheKey → Except DiskCacheError (List CacheKey)
  | 0, _ => .error .quota
  | fuel + 1, victims =>
    let removedBytes := victims.foldl (fun total key => satAdd total (s.sizeOf key)) 0
    let remaining := Table.size s.records - victims.length
    let bytes := s.bytesUsed - removedBytes
    if remaining < config.maxDiskFiles ∧ satAdd bytes size ≤ config.maxDiskBytes then .ok victims
    else
      match s.oldest victims with
      | none => .error .quota
      | some key => victimsLoop config s size fuel (Inverted.insertKey key victims)

/-- `admission_victims`: the records to remove before one of this size is written for an entry. -/
def admissionVictims (config : DiskCacheConfig) (s : DiskState) (entry : PreparedEntry)
    (size : ℕ) : Except DiskCacheError (List CacheKey) :=
  if size > config.maxDiskBytes then .error .quota
  else
    let victims := (s.records.keys.filter fun key =>
      key = entry.key || (key.base = entry.key.base && !key.sameVarySchema entry.key)).insertionSort
        (· ≤ ·)
    s.victimsLoop config size (Table.size s.records + 1) victims

/-- One turn of `reconcile_insertion`. -/
def reconcileKey (inserted : CacheKey) (acc : ℕ × DiskState) (key : CacheKey) : ℕ × DiskState :=
  if key = inserted then acc
  else if (acc.2.records.lookup key).isSome then (acc.1 + 1, acc.2.remove key)
  else acc

/-- `reconcile_insertion`: removes the records of what the memory cache gave up. -/
def reconcileInsertion (delta : State.InsertionDelta) : ℕ × DiskState :=
  delta.removed.foldl (reconcileKey delta.inserted) (0, s)

end DiskState

/-! ## Operations -/

/-- The readings of the two clocks a record is stamped with. -/
structure Stamp where
  now : MonoTime
  wall : SystemTime

/-- What never changes of a persistent cache. -/
structure DiskShared where
  identity : ℕ
  config : DiskCacheConfig

def DiskShared.memory (shared : DiskShared) : Shared := ⟨shared.identity, shared.config.memory⟩

/-- Both sides of a persistent cache. -/
structure DiskCache where
  memory : State
  disk : DiskState

/-- `Shared::publish`: the index entry of a record that was written. -/
def publish (encoded : Bytes) (sequence access : UInt64) (tags : List Bytes) : RecordInfo :=
  ⟨encoded, encoded.length, access, sequence, tags⟩

namespace DiskCache

/-- `Shared::touch`: writes the record of an entry again, with the next access number. -/
def touch [Crates] (config : DiskCacheConfig) (stamp : Stamp) (key : CacheKey) (c : DiskCache) :
    Except DiskCacheError Unit × DiskCache :=
  match c.disk.records.lookup key, c.memory.entry key with
  | some _, some entry =>
    let (sequence, disk) := c.disk.nextSequence
    match encodeRecord entry.toRecoveredEntry sequence sequence stamp.now stamp.wall with
    | .error e => (.error e, { c with disk })
    | .ok encoded =>
      if encoded.length > config.maxRecordBytes then (.error .recordTooLarge, { c with disk })
      else
        (.ok (), { c with
          disk := (disk.remove key).insert key (publish encoded sequence sequence entry.tags) })
  | _, _ => (.ok (), c)

/-- Touches the record of a key and then returns a result. -/
def touchReturning [Crates] {α : Type} (config : DiskCacheConfig) (stamp : Stamp) (key : CacheKey)
    (result : α) (c : DiskCache) : Except DiskCacheError α × DiskCache :=
  match c.touch config stamp key with
  | (.error e, c) => (.error e, c)
  | (.ok _, c) => (.ok result, c)

/-- `Shared::reconcile_base`: removes the records of a base that the memory cache no longer has. -/
def reconcileBase (base : BaseKey) (c : DiskCache) : DiskCache :=
  let keys := c.disk.records.keys.filter fun key => key.base = base && (c.memory.entry key).isNone
  { c with disk := c.disk.removeAll keys }

def lookup [Crates] (shared : DiskShared) (now : MonoTime) (request : RequestKeyInput)
    (stamp : Stamp) (c : DiskCache) : Except DiskCacheError Lookup × DiskCache :=
  match c.memory.lookup shared.config.memory now request with
  | (.error e, memory) => (.error (.cache e), { c with memory })
  | (.ok result, memory) =>
    let c := { c with memory }
    match result with
    | .hit _ response | .revalidate _ response _ _ =>
      c.touchReturning shared.config stamp response.key result
    | .miss _ _ base => (.ok result, c.reconcileBase base)
    | .bypass _ => (.ok result, c)

def staleIfError [Crates] (shared : DiskShared) (now : MonoTime) (key : CacheKey) (stamp : Stamp)
    (c : DiskCache) : Except DiskCacheError (Option CachedResponse) × DiskCache :=
  match c.memory.staleIfError now key with
  | (none, memory) => (.ok none, { c with memory })
  | (some response, memory) =>
    { c with memory }.touchReturning shared.config stamp key (some response)

def purgeExact (key : CacheKey) (c : DiskCache) : PurgeResult × DiskCache :=
  let (result, memory) := c.memory.purgeExact key
  (result, { memory, disk := c.disk.remove key })

def purgeBase (base : BaseKey) (c : DiskCache) : PurgeResult × DiskCache :=
  let keys := c.disk.records.keys.filter fun key => key.base = base
  let (result, memory) := c.memory.purgeBase base
  (result, { memory, disk := c.disk.removeAll keys })

/-- `DiskCache::purge_tag`: the index says which records carry the tag. -/
def purgeTag (config : DiskCacheConfig) (tag : Bytes) (c : DiskCache) :
    Except DiskCacheError PurgeResult × DiskCache :=
  if validateTag tag config.memory.maxTagBytes = false then (.error (.cache .invalidTag), c)
  else
    let (result, memory) := c.memory.purgeTag config.memory tag
    (result.mapError .cache, { memory, disk := c.disk.removeAll (c.disk.tags.carriers tag) })

/-- One turn of the loop over the victims in `DiskFillGuard::store`. -/
def evict (c : DiskCache) (key : CacheKey) : DiskCache :=
  if (c.disk.records.lookup key).isSome then
    { memory := (c.memory.removeWithoutCancellingFill key).2, disk := c.disk.remove key }
  else c

/-- The second half of `DiskFillGuard::store`: the victims go, the record is published and the
entry stored, and what the memory cache gave up for it goes as well. -/
def admitRecord (config : DiskCacheConfig) (g : FillGuard) (entry : PreparedEntry)
    (record : RecordInfo)
    (victims : List CacheKey) (c : DiskCache) : Except DiskCacheError StoreOutcome × DiskCache :=
  let c := victims.foldl evict c
  let disk := c.disk.insert entry.key record
  match g.storeClaimed config.memory entry c.memory with
  | (.generationLost, memory) => (.ok .generationLost, { memory, disk := disk.remove entry.key })
  | (.stored delta, memory) =>
    let (reconciled, disk) := disk.reconcileInsertion delta
    (.ok (.stored (satAdd victims.length reconciled)), { memory, disk })

/-- `DiskFillGuard::store`. A failure drops the guard. -/
def store [Crates] (shared : DiskShared) (g : FillGuard) (entry : PreparedEntry) (stamp : Stamp)
    (c : DiskCache) : Except DiskCacheError StoreOutcome × DiskCache :=
  match g.claim entry with
  | .error e => (.error (.cache e), { c with memory := g.drop c.memory })
  | .ok entry =>
    if g.isCurrent c.memory = false then (.ok .generationLost, c)
    else
      let (sequence, disk) := c.disk.nextSequence
      match encodeRecord entry.toRecoveredEntry sequence sequence stamp.now stamp.wall with
      | .error e => (.error e, { memory := g.drop c.memory, disk })
      | .ok encoded =>
        if encoded.length > shared.config.maxRecordBytes then
          (.error .recordTooLarge, { memory := g.drop c.memory, disk })
        else
          match disk.admissionVictims shared.config entry encoded.length with
          | .error e => (.error e, { memory := g.drop c.memory, disk })
          | .ok victims =>
            { c with disk }.admitRecord shared.config g entry
              (publish encoded sequence sequence entry.tags) victims

end DiskCache

/-! ## Recovery -/

/-- What a directory lists: a temporary file, or a record file with its contents, whether its owner
and mode are the expected ones, and the clocks when it was read. -/
inductive DirEntry where
  | temp
  | record (name : String) (secure : Bool) (contents : Bytes) (stamp : Stamp)

def readRecord [Crates] (config : DiskCacheConfig) (secure : Bool) (contents : Bytes)
    (stamp : Stamp) : Option DecodedRecord :=
  if secure = false ∨ contents.length > config.maxRecordBytes then none
  else (decodeRecord config.memory stamp.now stamp.wall contents).toOption

/-- A record that was found, under the name of its file. -/
structure Candidate where
  name : String
  decoded : DecodedRecord
  info : RecordInfo

/-- The order among the files of one key: the last one is kept. -/
def Candidate.order (c : Candidate) : ℕ ×ₗ ℕ ×ₗ String :=
  toLex (c.decoded.access.toNat, toLex (c.decoded.sequence.toNat, c.name))

/-- The order of recovery. -/
def Candidate.rank (c : Candidate) : ℕ ×ₗ ℕ ×ₗ CacheKey :=
  toLex (c.decoded.access.toNat, toLex (c.decoded.sequence.toNat, c.decoded.entry.key))

/-- The loop over the directory: the best file of every key, and what was removed. -/
structure Scan where
  candidates : Table CacheKey Candidate
  staleTempsRemoved : UInt64
  corruptRecordsRemoved : UInt64

/-- One turn of the loop over the directory in `scan_root`. -/
def Scan.visit [Crates] (config : DiskCacheConfig) (s : Scan) : DirEntry → Scan
  | .temp => { s with staleTempsRemoved := bump s.staleTempsRemoved }
  | .record name secure contents stamp =>
    match readRecord config secure contents stamp with
    | none => { s with corruptRecordsRemoved := bump s.corruptRecordsRemoved }
    | some decoded =>
      let candidate : Candidate :=
        ⟨name, decoded,
          ⟨contents, contents.length, decoded.access, decoded.sequence, decoded.entry.tags⟩⟩
      match s.candidates.lookup decoded.entry.key with
      | none => { s with candidates := s.candidates.insert decoded.entry.key candidate }
      | some old =>
        { s with
          candidates :=
            if old.order < candidate.order then s.candidates.insert decoded.entry.key candidate
            else s.candidates
          corruptRecordsRemoved := bump s.corruptRecordsRemoved }

/-- The sizes added up in a machine word, which wraps. -/
def sumSizes (candidates : List Candidate) : ℕ := (candidates.map fun c => c.info.size).sum % 2 ^ 64

/-- The loop of `scan_root` that gives up the oldest records until the rest fits. -/
def trim (config : DiskCacheConfig) : List Candidate → List Candidate
  | [] => []
  | c :: rest =>
    if (c :: rest).length > config.maxDiskFiles ∨ sumSizes (c :: rest) > config.maxDiskBytes then
      trim config rest
    else c :: rest

/-- One turn of the last loop of `scan_root`. -/
def DiskCache.recover (shared : DiskShared) (c : DiskCache) (candidate : Candidate) : DiskCache :=
  let decoded := candidate.decoded
  let sequence := max (max c.disk.sequence decoded.sequence) decoded.access
  let (delta, memory) := c.memory.restore shared.memory decoded.entry
  let disk := { c.disk with sequence }.insert decoded.entry.key candidate.info
  { memory, disk := (disk.reconcileInsertion delta).2 }

/-- `scan_root` on a new memory cache. -/
def scanRoot [Crates] (shared : DiskShared) (directory : List DirEntry) : DiskCache :=
  let scan := directory.foldl (Scan.visit shared.config) ⟨∅, 0, 0⟩
  let found := (scan.candidates.entries.map Sigma.snd).insertionSort fun a b => a.rank ≤ b.rank
  let ordered := trim shared.config found
  let corrupt := bumpBy scan.corruptRecordsRemoved (found.length - ordered.length)
  ordered.foldl (DiskCache.recover shared)
    ⟨State.init, ∅, ∅, 0, 0, UInt64.ofNat ordered.length, scan.staleTempsRemoved, corrupt⟩

/-! ## Runs -/

/-- A persistent cache and what its clients hold. -/
structure DiskWorld where
  world : World
  disk : DiskState

inductive DiskOp where
  | prepare (request : RequestKeyInput) (response : CacheResponse) (timeline : Option CacheTimeline)
  | prepareNotModified (request : RequestKeyInput) (key : CacheKey) (notModified : HeaderMap)
      (timing : ResponseTiming) (timeline : Option CacheTimeline)
  | receive (entry : PreparedEntry)
  | lookup (now : MonoTime) (request : RequestKeyInput) (stamp : Stamp)
  | staleIfError (now : MonoTime) (key : CacheKey) (stamp : Stamp)
  | beginFill (base : BaseKey)
  | store (guard entry : ℕ) (stamp : Stamp)
  | completeWithoutStore (guard : ℕ)
  | dropGuard (guard : ℕ)
  | purgeExact (key : CacheKey)
  | purgeBase (base : BaseKey)
  | purgeTag (tag : Bytes)

namespace DiskWorld

def cache (w : DiskWorld) : DiskCache := ⟨w.world.state, w.disk⟩

def update (w : DiskWorld) (c : DiskCache) : DiskWorld :=
  ⟨{ w.world with state := c.memory }, c.disk⟩

/-- A call that only concerns the memory cache. -/
def inMemory [Crates] (shared : DiskShared) (w : DiskWorld) (op : Op) : DiskWorld :=
  { w with world := w.world.step shared.memory op }

def step [Crates] (shared : DiskShared) (w : DiskWorld) : DiskOp → DiskWorld
  | .prepare request response timeline =>
    w.inMemory shared (.prepare request response timeline)
  | .prepareNotModified request key notModified timing timeline =>
    w.inMemory shared (.prepareNotModified request key notModified timing timeline)
  | .receive entry => w.inMemory shared (.receive entry)
  | .lookup now request stamp => w.update (w.cache.lookup shared now request stamp).2
  | .staleIfError now key stamp => w.update (w.cache.staleIfError shared now key stamp).2
  | .beginFill base => w.inMemory shared (.beginFill base)
  | .store guard entry stamp =>
    match w.world.guards[guard]?, w.world.prepared[entry]? with
    | some g, some e =>
      let w := w.update (w.cache.store shared g e stamp).2
      { w with world := { w.world with guards := w.world.guards.eraseIdx guard } }
    | _, _ => w
  | .completeWithoutStore guard => w.inMemory shared (.completeWithoutStore guard)
  | .dropGuard guard => w.inMemory shared (.dropGuard guard)
  | .purgeExact key => w.update (w.cache.purgeExact key).2
  | .purgeBase base => w.update (w.cache.purgeBase base).2
  | .purgeTag tag => w.update (w.cache.purgeTag shared.config tag).2

/-- The cache that `DiskCache::open` makes of a directory, before anybody uses it. -/
def opened [Crates] (shared : DiskShared) (directory : List DirEntry) : DiskWorld :=
  let c := scanRoot shared directory
  ⟨{ World.init with state := c.memory }, c.disk⟩

def runFrom [Crates] (shared : DiskShared) (w : DiskWorld) (ops : List DiskOp) : DiskWorld :=
  ops.foldl (step shared) w

def run [Crates] (shared : DiskShared) (directory : List DirEntry) (ops : List DiskOp) :
    DiskWorld :=
  runFrom shared (opened shared directory) ops

end DiskWorld

end Oxiroute.Cache
