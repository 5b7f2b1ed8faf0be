import Oxiroute.Cache.Disk
import Oxiroute.Cache.Recency
import Oxiroute.Cache.RecordSize

/-!
# What the operations of the persistent cache do

The index operations first: what `insert`, `remove` and `reconcileInsertion` leave of the records,
the tag index and the byte counter.

`Backs` relates a record to the entry it was written for, or decoded to. `Agrees` says that the
index and the memory cache have the same keys, that every record backs its entry, and that the tag
index is the one of the records. `DiskEffect` lists what an operation can do to both sides of a
cache that agrees; everything about whole runs is proved from it.
-/

namespace Oxiroute.Cache

open Lib Http State

/-! ## The index -/

namespace DiskState

/-- The tag index lists for every tag exactly the records that carry it. -/
def Indexed (s : DiskState) : Prop :=
  Inverted.Exact s.tags fun key tag => ∃ r, s.records.lookup key = some r ∧ tag ∈ r.tags

/-- The byte counter is the sum of the sizes. -/
def Balanced (s : DiskState) : Prop := s.bytesUsed = Table.total RecordInfo.size s.records

variable {key k : CacheKey} {keys : List CacheKey}

theorem remove_records {s : DiskState} : (s.remove key).records = s.records.erase key := by
  unfold remove
  cases h : s.records.lookup key with
  | none => exact (Table.erase_of_notMem (AList.lookup_eq_none.mp h)).symm
  | some record => rfl

@[simp] theorem remove_sequence {s : DiskState} : (s.remove key).sequence = s.sequence := by
  unfold remove
  cases s.records.lookup key <;> rfl

theorem lookup_remove {s : DiskState} :
    (s.remove key).records.lookup k = if k = key then none else s.records.lookup k := by
  rw [remove_records, Table.lookup_erase]

variable {s : DiskState}

theorem Indexed.remove (h : Indexed s) : Indexed (s.remove key) := by
  unfold DiskState.remove
  cases hk : s.records.lookup key with
  | none => exact h
  | some record =>
    refine (Inverted.Exact.drop h).congr fun k tag => ?_
    by_cases heq : k = key
    · subst heq
      simp [hk]
    · simp [heq]

theorem Balanced.remove (h : Balanced s) : Balanced (s.remove key) := by
  unfold Balanced at h ⊢
  unfold DiskState.remove
  cases hk : s.records.lookup key with
  | none => exact h
  | some record =>
    have htotal := Table.total_erase (w := RecordInfo.size) hk
    change s.bytesUsed - record.size = Table.total RecordInfo.size (s.records.erase key)
    omega

theorem bytesUsed_remove_le : (s.remove key).bytesUsed ≤ s.bytesUsed := by
  unfold remove
  cases s.records.lookup key with
  | none => exact le_refl _
  | some record => exact Nat.sub_le _ _

theorem size_remove_le : Table.size (s.remove key).records ≤ Table.size s.records := by
  rw [remove_records]
  exact Table.size_erase_le

theorem removeAll_induct {P : DiskState → Prop} (step : ∀ s key, P s → P (s.remove key)) :
    ∀ (keys : List CacheKey) (s : DiskState), P s → P (s.removeAll keys)
  | [], _, h => h
  | key :: keys, s, h => removeAll_induct step keys (s.remove key) (step s key h)

@[simp] theorem removeAll_sequence : (s.removeAll keys).sequence = s.sequence :=
  removeAll_induct (P := fun t => t.sequence = s.sequence)
    (fun _ _ h => remove_sequence.trans h) keys s rfl

theorem lookup_removeAll :
    (s.removeAll keys).records.lookup k = if k ∈ keys then none else s.records.lookup k := by
  induction keys generalizing s with
  | nil => simp [removeAll]
  | cons key keys ih =>
    change ((s.remove key).removeAll keys).records.lookup k = _
    rw [ih, lookup_remove]
    by_cases hkey : k = key
    · simp [hkey]
    · simp [hkey]

theorem Indexed.removeAll (h : Indexed s) : Indexed (s.removeAll keys) :=
  removeAll_induct (fun _ _ h => h.remove) keys s h

theorem Balanced.removeAll (h : Balanced s) : Balanced (s.removeAll keys) :=
  removeAll_induct (fun _ _ h => h.remove) keys s h

theorem lookup_insert {record : RecordInfo} :
    (s.insert key record).records.lookup k = if k = key then some record else s.records.lookup k :=
  Table.lookup_insert

theorem Indexed.insert (h : Indexed s) (hkey : key ∉ s.records) {record : RecordInfo} :
    Indexed (s.insert key record) := by
  have hnone : s.records.lookup key = none := AList.lookup_eq_none.mpr hkey
  refine (Inverted.Exact.add h).congr fun k tag => ?_
  rw [lookup_insert]
  by_cases heq : k = key
  · subst heq
    simp [hnone]
  · simp [heq]

theorem Balanced.insert (h : Balanced s) (hkey : key ∉ s.records) {record : RecordInfo}
    (hroom : s.bytesUsed + record.size ≤ usizeMax) : Balanced (s.insert key record) := by
  change satAdd s.bytesUsed record.size = Table.total RecordInfo.size (s.records.insert key record)
  rw [Table.total_insert hkey, ← h, satAdd, min_eq_left hroom, add_comm]

/-- Reconciling removes what the memory cache gave up, but not what it took in. -/
theorem reconcileInsertion_eq {delta : State.InsertionDelta} :
    (s.reconcileInsertion delta).2 = s.removeAll (delta.removed.filter (· ≠ delta.inserted)) := by
  have hfold : ∀ (keys : List CacheKey) (acc : ℕ × DiskState),
      (keys.foldl (reconcileKey delta.inserted) acc).2
        = acc.2.removeAll (keys.filter (· ≠ delta.inserted)) := by
    intro keys
    induction keys with
    | nil => exact fun _ => rfl
    | cons key keys ih =>
      intro acc
      rw [List.foldl_cons, ih, List.filter_cons]
      unfold reconcileKey
      by_cases hkey : key = delta.inserted
      · simp [hkey]
      · simp only [ne_eq, hkey, not_false_eq_true, decide_true, if_true, if_false]
        split_ifs with hsome
        · rfl
        · -- removing what is not there changes nothing
          have hnone := Option.not_isSome_iff_eq_none.mp hsome
          have hsame : acc.2.remove key = acc.2 := by
            unfold remove
            rw [hnone]
          change _ = (acc.2.remove key).removeAll _
          rw [hsame]
  exact hfold _ (0, s)

theorem toNat_nextSequence : s.nextSequence.1.toNat = min maxUInt64 (s.sequence.toNat + 1) := by
  simp [nextSequence]

end DiskState

/-! ## Records and entries -/

/-- A record and the entry it stands for: it is small enough, and the entry can be written again,
in as many bytes as the record has, or in two more when the record is of version 1. -/
structure Backs (config : DiskCacheConfig) (r : RecordInfo) (e : RecoveredEntry) : Prop where
  tags : r.tags = e.tags
  fits : r.size ≤ config.maxRecordBytes
  encodable : e.encodable = true
  recordSize : e.recordSize = r.size + (if versionOf r.contents = 1 then 2 else 0)

/-- The record written for an entry with a new number. -/
structure Published (config : DiskCacheConfig) (r : RecordInfo) (e : RecoveredEntry)
    (number : UInt64) : Prop where
  backs : Backs config r e
  size : r.size = e.recordSize
  access : r.access = number
  sequence : r.sequence = number

theorem published_publish [Crates] {config : DiskCacheConfig} {e : RecoveredEntry}
    {number : UInt64} {now : MonoTime} {wall : SystemTime} {encoded : Bytes}
    (h : encodeRecord e number number now wall = .ok encoded)
    (hfits : encoded.length ≤ config.maxRecordBytes) :
    Published config (publish encoded number number e.tags) e number := by
  obtain ⟨hencodable, ⟨payload, rfl⟩, hsize⟩ := encodeRecord_size h
  have hversion : versionOf (Encode.framed recordVersion payload) ≠ 1 := by
    rw [versionOf_framed]
    decide
  refine ⟨⟨rfl, hfits, hencodable, ?_⟩, hsize, rfl, rfl⟩
  change e.recordSize = (Encode.framed recordVersion payload).length
    + (if versionOf (Encode.framed recordVersion payload) = 1 then 2 else 0)
  rw [hsize, if_neg hversion, add_zero]

/-- Both sides have the same keys, every record backs the entry of its key, every entry is stored
under its own key, and the tag index is the one of the records. -/
structure Agrees (config : DiskCacheConfig) (c : DiskCache) : Prop where
  keys : ∀ k, k ∈ c.disk.records ↔ k ∈ c.memory.entries
  backs : ∀ k r e, c.disk.records.lookup k = some r → c.memory.entry k = some e →
    Backs config r e.toRecoveredEntry
  keyed : ∀ k e, c.memory.entry k = some e → e.key = k
  indexed : c.disk.Indexed

namespace Agrees

variable {config : DiskCacheConfig} {c : DiskCache}

theorem of_entry (h : Agrees config c) {memory : State}
    (hm : ∀ {k}, memory.entry k = c.memory.entry k) : Agrees config { c with memory } where
  keys k := by
    rw [mem_entries_iff, hm, ← mem_entries_iff]
    exact h.keys k
  backs k r e hr he := h.backs k r e hr (hm ▸ he)
  keyed k e he := h.keyed k e (hm ▸ he)
  indexed := h.indexed

theorem entry (h : Agrees config c) {k : CacheKey} {r : RecordInfo}
    (hr : c.disk.records.lookup k = some r) :
    ∃ e, c.memory.entry k = some e ∧ e.key = k ∧ Backs config r e.toRecoveredEntry := by
  have hmem : k ∈ c.disk.records := Table.mem_of_lookup hr
  obtain ⟨e, he⟩ := mem_entries_iff.mp ((h.keys k).mp hmem)
  exact ⟨e, he, h.keyed k e he, h.backs k r e hr he⟩

theorem record (h : Agrees config c) {k : CacheKey} {e : PreparedEntry}
    (he : c.memory.entry k = some e) :
    ∃ r, c.disk.records.lookup k = some r ∧ Backs config r e.toRecoveredEntry := by
  have hmem : k ∈ c.disk.records := (h.keys k).mpr (mem_entries_iff.mpr ⟨e, he⟩)
  obtain ⟨r, hr⟩ := Table.exists_of_mem hmem
  exact ⟨r, hr, h.backs k r e hr he⟩

end Agrees

theorem mem_records_iff {s : DiskState} {k : CacheKey} :
    k ∈ s.records ↔ ∃ r, s.records.lookup k = some r := by
  rw [← AList.lookup_isSome, Option.isSome_iff_exists]

/-! ## Effects -/

/-- Whether an operation may touch the record of a key: a lookup whose request it matches, or a
stale response asked for by key. -/
def DiskOp.touches [Crates] (config : CacheConfig) : DiskOp → CacheKey → Bool
  | .lookup _ request _, key =>
    match BaseKey.new request config.maxKeyBytes with
    | .ok base => key.matchesRequest base request.headers config.maxKeyBytes
    | .error _ => false
  | .staleIfError _ touched _, key => touched = key
  | _, _ => false

/-- What an operation can do to a cache that agrees. `T` are the keys it may touch. -/
inductive DiskEffect (config : DiskCacheConfig) (T : CacheKey → Prop) (c c' : DiskCache) : Prop
  /-- The entries and the records stay; the counter may advance. -/
  | kept : State.SameEntries c.memory c'.memory →
      c'.disk = c.disk ∨ c'.disk = c.disk.nextSequence.2 → DiskEffect config T c c'
  /-- The same keys go on both sides. -/
  | removed (keys keys' : List CacheKey) :
      State.SameEntries (c.memory.dropEntries keys) c'.memory → c'.disk = c.disk.removeAll keys' →
      (∀ k ∈ c.disk.records, k ∈ keys ↔ k ∈ keys') → DiskEffect config T c c'
  /-- An entry was used, and its record written again. -/
  | touched (key : CacheKey) (old record : RecordInfo) (entry : PreparedEntry) : T key →
      c.disk.records.lookup key = some old → c.memory.entry key = some entry →
      Published config record entry.toRecoveredEntry c.disk.nextSequence.1 →
      State.Accessed c.memory key c'.memory →
      c'.disk = (c.disk.nextSequence.2.remove key).insert key record → DiskEffect config T c c'
  /-- An entry was used, but its record has become too long to be written again. -/
  | stuck (key : CacheKey) (old : RecordInfo) : T key → c.disk.records.lookup key = some old →
      versionOf old.contents = 1 → config.maxRecordBytes < old.size + 2 →
      State.Accessed c.memory key c'.memory → c'.disk = c.disk.nextSequence.2 →
      DiskEffect config T c c'
  /-- Room was made for an entry, and it was stored on both sides. -/
  | admitted (entry : PreparedEntry) (record : RecordInfo) (victims : List CacheKey) :
      Published config record entry.toRecoveredEntry c.disk.nextSequence.1 →
      c.disk.nextSequence.2.admissionVictims config entry record.size = .ok victims →
      State.SameEntries ((c.memory.dropEntries victims).insertEntry config.memory entry).2
        c'.memory → c'.disk = (((c.disk.nextSequence.2.removeAll victims).insert entry.key
        record).reconcileInsertion
          ((c.memory.dropEntries victims).insertEntry config.memory entry).1).2 →
      DiskEffect config T c c'

namespace DiskCache

variable {shared : DiskShared} {config : DiskCacheConfig} {c : DiskCache} {key : CacheKey}
  {stamp : Stamp} {T : CacheKey → Prop} {memory : State} {now : MonoTime}
  {request : RequestKeyInput} {base : BaseKey}

/-- **What touching does**: the record is written again, unless that would make it too long. -/
theorem touch_spec [Crates] (h : Agrees config c) {entry : PreparedEntry}
    (he : c.memory.entry key = some entry) : ∃ old, c.disk.records.lookup key = some old ∧
      ((∃ record, Published config record entry.toRecoveredEntry c.disk.nextSequence.1
        ∧ c.touch config stamp key = (.ok (), { c with
          disk := (c.disk.nextSequence.2.remove key).insert key record }))
      ∨ versionOf old.contents = 1 ∧ config.maxRecordBytes < old.size + 2 ∧ c.touch config stamp key
          = (.error .recordTooLarge, { c with disk := c.disk.nextSequence.2 })) := by
  obtain ⟨old, hold, hbacks⟩ := h.record he
  refine ⟨old, hold, ?_⟩
  by_cases hfits : entry.recordSize ≤ config.maxRecordBytes
  · left
    obtain ⟨payload, hencode, hlength⟩ := encodeRecord_sized hbacks.encodable
      (hfits.trans config.recordBytes_le) _ _ stamp.now stamp.wall
    have hle : (Encode.framed recordVersion payload).length ≤ config.maxRecordBytes :=
      hlength ▸ hfits
    refine ⟨_, published_publish hencode hle, ?_⟩
    simp only [touch, hold, he, hencode]
    exact if_neg (not_lt.mpr hle)
  · right
    have hsize := hbacks.recordSize
    have hold_fits := hbacks.fits
    have hversion : versionOf old.contents = 1 := by
      by_contra hne
      rw [if_neg hne] at hsize
      omega
    rw [if_pos hversion] at hsize
    refine ⟨hversion, by omega, ?_⟩
    cases hencode : encodeRecord entry.toRecoveredEntry c.disk.nextSequence.1
        c.disk.nextSequence.1 stamp.now stamp.wall with
    | error e => simp only [touch, hold, he, hencode, encodeRecord_error hencode]
    | ok encoded =>
      have hlength := (encodeRecord_size hencode).2.2
      simp only [touch, hold, he, hencode]
      exact if_pos (by omega)

theorem touch_effect [Crates] {α : Type} (h : Agrees config c) (hT : T key) {entry : PreparedEntry}
    (he : c.memory.entry key = some entry) (ha : State.Accessed c.memory key memory) {result : α} :
    DiskEffect config T c ({ c with memory }.touchReturning config stamp key result).2
      ∧ (({ c with memory }.touchReturning config stamp key result).1 = .error .recordTooLarge →
        ∃ key old, T key ∧ c.disk.records.lookup key = some old ∧ versionOf old.contents = 1
          ∧ config.maxRecordBytes < old.size + 2) := by
  have hagrees := h.of_entry ha.entry
  have hentry : memory.entry key = some entry := by rw [ha.entry, he]
  obtain ⟨old, hold, hwritten | hlong⟩ := touch_spec hagrees hentry
  · obtain ⟨record, hpublished, htouch⟩ := hwritten
    rw [touchReturning, htouch]
    exact ⟨.touched key old record entry hT hold he hpublished ha rfl, by simp⟩
  · obtain ⟨hversion, hlong, htouch⟩ := hlong
    rw [touchReturning, htouch]
    exact ⟨.stuck key old hT hold hversion hlong ha rfl,
      fun _ => ⟨key, old, hT, hold, hversion, hlong⟩⟩

/-- A miss: the expired entry, if there was one, goes on both sides. -/
theorem reconcileBase_effect (h : Agrees config c) (base : BaseKey) (keys : List CacheKey)
    (hkeys : ∀ k ∈ keys, k.base = base)
      (hs : State.SameEntries (c.memory.dropEntries keys) memory) :
    DiskEffect config T c ({ c with memory }.reconcileBase base) := by
  refine .removed keys _ hs rfl fun k hk => ?_
  have hmem := mem_entries_iff.mp ((h.keys k).mp hk)
  rw [List.mem_filter, ← AList.mem_keys, Bool.and_eq_true, decide_eq_true_eq, hs.entry,
    entry_dropEntries]
  constructor
  · intro hmem'
    exact ⟨hk, hkeys k hmem', by rw [if_pos hmem']; rfl⟩
  · rintro ⟨-, -, hnone⟩
    by_contra hnot
    obtain ⟨e, he⟩ := hmem
    rw [if_neg hnot, he] at hnone
    simp at hnone

/-- **What a lookup does**. It fails for the length of a record only when the record is of version
1 and has no two bytes left. -/
theorem lookup_effect [Crates] (h : Agrees shared.config c) : DiskEffect shared.config
        (fun k => (DiskOp.lookup now request stamp).touches shared.config.memory k = true) c
        (c.lookup shared now request stamp).2
      ∧ ((c.lookup shared now request stamp).1 = .error .recordTooLarge →
        ∃ key old, (DiskOp.lookup now request stamp).touches shared.config.memory key = true
          ∧ c.disk.records.lookup key = some old ∧ versionOf old.contents = 1
          ∧ shared.config.maxRecordBytes < old.size + 2) := by
  have heffect := (State.lookup_effect shared.config.memory now request c.memory).1
  unfold lookup
  cases hl : c.memory.lookup _ now request with
  | mk answer memory =>
    rw [hl] at heffect
    cases heffect with
    | failed e hs | bypassed status hs => exact ⟨.kept hs (.inl rfl), by simp⟩
    | missed status onlyIfCached base hs =>
      exact ⟨reconcileBase_effect h base [] (by simp) hs, by simp⟩
    | expired status onlyIfCached base key hbase hs =>
      exact ⟨reconcileBase_effect h base [key] (by simpa using hbase) hs, by simp⟩
    | found result key entry age hentry hresponse haccessed =>
      obtain ⟨policy, base, key', entry', -, -, hbase, husable, hentry', hanswer⟩ :=
        State.lookup_found (congrArg Prod.fst hl) hresponse
      have hsame := (congrArg Lookup.response? hanswer).symm.trans (answer_response ..)
      rw [hresponse] at hsame
      have hkey : entry.key = key := h.keyed key entry hentry
      have hsnapshot : (responseSnapshot entry age).key = key := hkey
      have hkey' : key' = key := by
        rw [← h.keyed key' entry' hentry', ← hsnapshot, Option.some.inj hsame]
        rfl
      have htouches :
        (DiskOp.lookup now request stamp).touches shared.config.memory key = true := by
        rw [DiskOp.touches, hbase, ← hkey']
        exact (Bool.and_eq_true_iff.mp husable).1
      cases result with
      | bypass status | miss status onlyIfCached base => simp [Lookup.response?] at hresponse
      | hit status response =>
        cases hresponse
        simp only [hsnapshot]
        exact touch_effect h htouches hentry haccessed
      | revalidate status response validators staleIfError =>
        cases hresponse
        simp only [hsnapshot]
        exact touch_effect h htouches hentry haccessed

theorem staleIfError_effect [Crates] (h : Agrees shared.config c) : DiskEffect shared.config
      (fun k => (DiskOp.staleIfError now key stamp).touches shared.config.memory k = true) c
      (c.staleIfError shared now key stamp).2 := by
  have heffect := (State.staleIfError_effect now key c.memory).1
  unfold staleIfError
  cases hs : c.memory.staleIfError now key with
  | mk response memory =>
    rw [hs] at heffect
    rcases heffect with ⟨hnone, hmemory⟩ | ⟨⟨response, hsome⟩, ⟨entry, hentry⟩, haccessed⟩
    · subst hnone hmemory
      exact .kept (.refl _) (.inl rfl)
    · subst hsome
      exact (touch_effect h (by simp [DiskOp.touches]) hentry haccessed).1

/-! ## Purges -/

theorem purgeExact_effect : DiskEffect config T c (c.purgeExact key).2 :=
  .removed [key] [key] purgeExact_entries rfl fun _ _ => Iff.rfl

theorem purgeBase_effect (h : Agrees config c) : DiskEffect config T c (c.purgeBase base).2 := by
  refine .removed _ _ purgeBase_entries rfl fun k hk => ?_
  rw [List.mem_filter, List.mem_filter, ← AList.mem_keys, ← AList.mem_keys, h.keys k]

theorem purgeTag_effect (h : Agrees config c) {tag : Bytes} :
    DiskEffect config T c (c.purgeTag config tag).2 := by
  have hentries := purgeTag_entries config.memory tag c.memory
  unfold purgeTag
  by_cases hvalid : validateTag tag config.memory.maxTagBytes = false
  · rw [if_pos hvalid]
    exact .kept (.refl _) (.inl rfl)
  · rw [if_neg hvalid]
    rw [if_pos (by simpa using hvalid)] at hentries
    refine .removed _ _ hentries rfl fun k hk => ?_
    rw [mem_tagged, h.indexed.mem]
    constructor
    · rintro ⟨e, he, htag⟩
      obtain ⟨r, hr, hbacks⟩ := h.record he
      exact ⟨r, hr, by rwa [hbacks.tags]⟩
    · rintro ⟨r, hr, htag⟩
      obtain ⟨e, he, -, hbacks⟩ := h.entry hr
      exact ⟨e, he, by rwa [← hbacks.tags]⟩

/-! ## Stores -/

theorem foldl_evict (victims : List CacheKey) (h : ∀ k, k ∈ c.disk.records ↔ k ∈ c.memory.entries) :
    victims.foldl evict c = ⟨c.memory.dropEntries victims, c.disk.removeAll victims⟩ := by
  induction victims generalizing c with
  | nil => rfl
  | cons key victims ih =>
    have hevict : evict c key = ⟨c.memory.dropEntry key, c.disk.remove key⟩ := by
      unfold evict
      split_ifs with hsome
      · rfl
      · -- a key that is on neither side
        have hnone := Option.not_isSome_iff_eq_none.mp hsome
        have hmemory := AList.lookup_eq_none.mpr ((h key).not.mp (AList.lookup_eq_none.mp hnone))
        unfold dropEntry DiskState.remove
        rw [hmemory, hnone]
    rw [List.foldl_cons, hevict, ih]
    · rfl
    · intro k
      rw [mem_records_iff, mem_entries_iff, DiskState.lookup_remove, entry_dropEntry]
      split_ifs
      · simp
      · rw [← mem_records_iff, ← mem_entries_iff]
        exact h k

/-- **What a store does**. -/
theorem store_effect [Crates] (h : Agrees shared.config c) {g : FillGuard} {entry : PreparedEntry} :
    DiskEffect shared.config T c (c.store shared g entry stamp).2 := by
  unfold store
  cases hclaim : g.claim entry with
  | error e => exact .kept (sameEntries_drop g c.memory) (.inl rfl)
  | ok entry =>
    simp only
    by_cases hcurrent : g.isCurrent c.memory = false
    · rw [if_pos hcurrent]
      exact .kept (.refl _) (.inl rfl)
    · rw [if_neg hcurrent]
      have hdropped := sameEntries_drop g c.memory
      cases hencode : encodeRecord _ _ _ stamp.now _ with
      | error e => exact .kept hdropped (.inr rfl)
      | ok encoded =>
        simp only
        split_ifs with hlong
        · exact .kept hdropped (.inr rfl)
        · cases hvictims : c.disk.nextSequence.2.admissionVictims _ entry _ with
          | error e => exact .kept hdropped (.inr rfl)
          | ok victims =>
            have hpublished := published_publish hencode (not_lt.mp hlong)
            have hevict := foldl_evict victims
              (c := { c with disk := c.disk.nextSequence.2 }) h.keys
            -- removing entries leaves the flights, so the guard is still current
            have hflights := sameFills_dropEntries victims c.memory
            have hstill : ¬g.isCurrent (c.memory.dropEntries victims) = false := by
              unfold FillGuard.isCurrent generationMatches at hcurrent ⊢
              rwa [hflights.flights]
            have hsame : State.SameEntries (c.memory.dropEntries victims)
                { c.memory.dropEntries victims with
                  flights := (c.memory.dropEntries victims).flights.erase g.base } :=
              ⟨rfl, rfl, rfl⟩
            obtain ⟨hdelta, hentries⟩ := hsame.insertEntry shared.config.memory entry
            simp only [admitRecord, hevict, FillGuard.storeClaimed, if_neg hstill]
            refine .admitted entry _ victims hpublished hvictims ?_ ?_
            · exact ⟨hentries.entries, hentries.bytesUsed, hentries.sequence⟩
            · rw [hdelta]

end DiskCache

/-! ## Steps -/

namespace DiskWorld

theorem inMemory_effect [Crates] {shared : DiskShared} {T : CacheKey → Prop} (w : DiskWorld)
    {op : Op} (h : State.SameEntries w.world.state (w.world.step shared.memory op).state) :
    DiskEffect shared.config T w.cache (w.inMemory shared op).cache :=
  .kept h (.inl rfl)

/-- **What a step does to a cache that agrees**. -/
theorem step_effect [Crates] {shared : DiskShared} {w : DiskWorld}
    (h : Agrees shared.config w.cache) (op : DiskOp) :
    DiskEffect shared.config (fun k => op.touches shared.config.memory k = true) w.cache
      (step shared w op).cache := by
  cases op with
  | prepare request response timeline =>
    refine w.inMemory_effect ?_
    have hs := (prepare_state shared.memory request response timeline w.world.state).1
    simp only [World.step]
    cases (w.world.state.prepare _ request response timeline).1 with
    | error e | ok entry => exact hs
  | prepareNotModified request key notModified timing timeline =>
    refine w.inMemory_effect ?_
    simp only [World.step]
    cases w.world.state.prepareNotModified _ request key _ timing timeline with
    | error e | ok entry => exact .refl _
  | receive entry =>
    refine w.inMemory_effect ?_
    simp only [World.step]
    split_ifs <;> exact .refl _
  | lookup now request stamp => exact (DiskCache.lookup_effect h).1
  | staleIfError now key stamp => exact DiskCache.staleIfError_effect h
  | beginFill base =>
    refine w.inMemory_effect ?_
    have hs := sameEntries_beginFill shared.memory base w.world.state
    simp only [World.step]
    cases (w.world.state.beginFill _ base).1 with
    | error e => exact hs
    | ok joined =>
      cases joined with
      | leader g | follower generation | atCapacity => exact hs
  | store guard entry stamp =>
    simp only [step]
    cases w.world.guards[guard]? with
    | none => exact .kept (.refl _) (.inl rfl)
    | some g =>
      cases w.world.prepared[entry]? with
      | none => exact .kept (.refl _) (.inl rfl)
      | some e => exact DiskCache.store_effect h
  | completeWithoutStore guard =>
    refine w.inMemory_effect ?_
    simp only [World.step]
    cases w.world.guards[guard]? with
    | none => exact .refl _
    | some g => exact sameEntries_completeWithoutStore
  | dropGuard guard =>
    refine w.inMemory_effect ?_
    simp only [World.step]
    cases w.world.guards[guard]? with
    | none => exact .refl _
    | some g => exact sameEntries_drop g _
  | purgeExact key => exact DiskCache.purgeExact_effect
  | purgeBase base => exact DiskCache.purgeBase_effect h
  | purgeTag tag => exact DiskCache.purgeTag_effect h

end DiskWorld

end Oxiroute.Cache
