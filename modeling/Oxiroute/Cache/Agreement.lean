import Oxiroute.Cache.DiskEffects

/-!
# Memory and disk agree

After recovery and after every operation the index has the keys of the memory cache, and the tag
index is the one of the records: `Agrees` is kept by every effect. `Ranked` adds the order of
access: the index ranks its records by the number they were written with, the memory cache by its
own numbers, and both orders are the same as long as the numbers on disk have not run out.

The order breaks in one way. A used entry is the newest in memory at once, and on disk when its
record has been written again; when a record of version 1 has no two bytes left for that, it keeps
its old place.
-/

set_option maxRecDepth 100000

namespace Oxiroute.Cache

open Lib Http DiskState State List

/-! ## Admission -/

/-- What `admission_victims` chooses: records of the index, each once, among them the one of the
same key, so that the new record fits beside the rest. -/
structure Admits (config : DiskCacheConfig) (s : DiskState) (entry : PreparedEntry) (size : ℕ)
    (victims : List CacheKey) : Prop where
  same : entry.key ∈ s.records → entry.key ∈ victims
  nodup : victims.Nodup
  subset : ∀ k ∈ victims, k ∈ s.records
  files : Table.size s.records - victims.length < config.maxDiskFiles
  bytes : satAdd (s.bytesUsed - victims.foldl (fun total key => satAdd total (s.sizeOf key)) 0) size
    ≤ config.maxDiskBytes

namespace DiskState

variable {s : DiskState} {victims : List CacheKey} {key : CacheKey} {config : DiskCacheConfig}
  {entry : PreparedEntry} {size : ℕ}

theorem oldest_mem (h : s.oldest victims = some key) : key ∈ s.records ∧ key ∉ victims := by
  obtain ⟨e, he, rfl⟩ := Option.map_eq_some_iff.mp h
  obtain ⟨hmem, hnot⟩ := mem_filter.mp (argmin_mem he)
  exact ⟨mem_keys_of_mem hmem, by simpa using hnot⟩

theorem nodup_insertKey {keys : List CacheKey} (h : keys.Nodup) :
    (Inverted.insertKey key keys).Nodup := by
  unfold Inverted.insertKey
  split_ifs with hmem
  · exact h
  · exact (perm_orderedInsert _ key keys).nodup_iff.mpr (nodup_cons.mpr ⟨hmem, h⟩)

theorem victimsLoop_admits : ∀ {fuel : ℕ} {victims result : List CacheKey},
      s.victimsLoop config size fuel victims = .ok result →
      (entry.key ∈ s.records → entry.key ∈ victims) → victims.Nodup →
      (∀ k ∈ victims, k ∈ s.records) → Admits config s entry size result
  | 0, _, _, h, _, _, _ => by simp [victimsLoop] at h
  | fuel + 1, victims, result, h, hsame, hnodup, hsubset => by
    simp only [victimsLoop] at h
    split_ifs at h with hfits
    · cases h
      exact ⟨hsame, hnodup, hsubset, hfits.1, hfits.2⟩
    · cases hold : s.oldest victims with
      | none => simp [hold] at h
      | some key =>
        simp only [hold] at h
        refine victimsLoop_admits h (fun hmem => ?_) (nodup_insertKey hnodup) fun k hk => ?_
        · exact Inverted.mem_insertKey.mpr (.inr (hsame hmem))
        · rcases Inverted.mem_insertKey.mp hk with rfl | hk
          · exact (oldest_mem hold).1
          · exact hsubset k hk

theorem admissionVictims_admits (h : s.admissionVictims config entry size = .ok victims) :
    Admits config s entry size victims := by
  obtain ⟨_, h⟩ := guard_eq_ok.mp h
  have hmem : ∀ k, k ∈ ((s.records.keys.filter fun key =>
      key = entry.key || (key.base = entry.key.base && !key.sameVarySchema entry.key)).insertionSort
        (· ≤ ·)) ↔ k ∈ s.records ∧ (k = entry.key
          ∨ k.base = entry.key.base ∧ k.sameVarySchema entry.key = false) := by
    intro k
    rw [(perm_insertionSort _ _).mem_iff, mem_filter, ← AList.mem_keys]
    simp
  refine victimsLoop_admits h (fun hkey => (hmem _).mpr ⟨hkey, .inl rfl⟩) ?_
    fun k hk => ((hmem k).mp hk).1
  exact (perm_insertionSort _ _).nodup_iff.mpr ((AList.keys_nodup s.records).filter _)

end DiskState

/-! ## Keys, records and tags -/

namespace Agrees

variable {config : DiskCacheConfig} {c : DiskCache} {memory : State}

/-- The same keys go on both sides. -/
theorem restrict (h : Agrees config c) {keys keys' : List CacheKey}
    (hs : State.SameEntries (c.memory.dropEntries keys) memory)
    (hkeys : ∀ k ∈ c.disk.records, k ∈ keys ↔ k ∈ keys') :
    Agrees config ⟨memory, c.disk.removeAll keys'⟩ where
  keys k := by
    rw [mem_records_iff, lookup_removeAll, mem_entries_iff, hs.entry,
      entry_dropEntries]
    by_cases hk : k ∈ c.disk.records
    · by_cases hgone : k ∈ keys
      · simp [hgone, (hkeys k hk).mp hgone]
      · rw [if_neg hgone, if_neg (mt (hkeys k hk).mpr hgone), ← mem_records_iff,
          ← mem_entries_iff]
        exact h.keys k
    · have hnot := (h.keys k).not.mp hk
      rw [mem_records_iff] at hk
      rw [mem_entries_iff] at hnot
      split_ifs <;> simp_all
  backs k r e hr he := by
    rw [lookup_removeAll] at hr
    rw [hs.entry, entry_dropEntries] at he
    split_ifs at hr
    split_ifs at he
    exact h.backs k r e hr he
  keyed k e he := by
    rw [hs.entry, entry_dropEntries] at he
    split_ifs at he
    exact h.keyed k e he
  indexed := h.indexed.removeAll

variable {record : RecordInfo} {entry : PreparedEntry}

theorem replace (h : Agrees config c) {key : CacheKey} (he : c.memory.entry key = some entry)
    (hb : Backs config record entry.toRecoveredEntry) {disk : DiskState}
    (hm : ∀ {k}, memory.entry k = c.memory.entry k) (hd : disk.records = c.disk.records)
    (ht : disk.tags = c.disk.tags) :
    Agrees config ⟨memory, (disk.remove key).insert key record⟩ where
  keys k := by
    rw [mem_records_iff, lookup_insert, lookup_remove, hd,
      mem_entries_iff, hm]
    by_cases hk : k = key
    · subst hk
      simp [he]
    · rw [if_neg hk, if_neg hk, ← mem_records_iff, ← mem_entries_iff]
      exact h.keys k
  backs k r e hr he' := by
    rw [lookup_insert, lookup_remove, hd] at hr
    rw [hm] at he'
    by_cases hk : k = key
    · subst hk
      cases he.symm.trans he'
      rw [if_pos rfl] at hr
      rwa [← Option.some.inj hr]
    · rw [if_neg hk, if_neg hk] at hr
      exact h.backs k r e hr he'
  keyed k e he' := h.keyed k e (hm ▸ he')
  indexed := by
    have hindexed : disk.Indexed := by
      unfold DiskState.Indexed
      rw [hd, ht]
      exact h.indexed
    refine hindexed.remove.insert ?_
    rw [mem_records_iff, lookup_remove]
    simp

/-- The records after an insertion: the new one, and the old ones the memory cache kept. -/
theorem lookup_inserted {s : State} {d : DiskState} {memory : CacheConfig} {k : CacheKey} :
    ((d.insert entry.key record).reconcileInsertion
        (s.insertEntry memory entry).1).2.records.lookup k = if k = entry.key then some record
        else if k ∈ (s.makeRoom memory entry).1.1 then none else d.records.lookup k := by
  have hdelta : (s.insertEntry memory entry).1.inserted = entry.key
      ∧ (s.insertEntry memory entry).1.removed = (s.makeRoom memory entry).1.1 := ⟨rfl, rfl⟩
  rw [reconcileInsertion_eq, lookup_removeAll, lookup_insert, hdelta.1, hdelta.2]
  by_cases hk : k = entry.key
  · simp [hk]
  · simp [hk]

/-- A new entry is stored on both sides, and what the memory cache gave up for it goes. -/
theorem insert (h : Agrees config c) (hkey : entry.key ∉ c.disk.records)
    (hb : Backs config record entry.toRecoveredEntry)
    (hs : State.SameEntries (c.memory.insertEntry config.memory entry).2 memory) :
    Agrees config ⟨memory, ((c.disk.insert entry.key record).reconcileInsertion
      (c.memory.insertEntry config.memory entry).1).2⟩ where
  keys k := by
    rw [mem_records_iff, lookup_inserted, mem_entries_iff, hs.entry,
      entry_insertEntry]
    by_cases hk : k = entry.key
    · simp [hk]
    · rw [if_neg hk, if_neg hk, entry_makeRoom_removed _ hk]
      split_ifs
      · simp
      · rw [← mem_records_iff, ← mem_entries_iff]
        exact h.keys k
  backs k r e hr he := by
    rw [lookup_inserted] at hr
    rw [hs.entry, entry_insertEntry] at he
    by_cases hk : k = entry.key
    · rw [if_pos hk] at hr he
      rw [← Option.some.inj hr, ← Option.some.inj he]
      exact hb
    · rw [entry_makeRoom_removed _ hk] at he
      split_ifs at hr he
      exact h.backs k r e hr he
  keyed k e he := by
    rw [hs.entry, entry_insertEntry] at he
    by_cases hk : k = entry.key
    · rw [if_pos hk] at he
      rw [← Option.some.inj he, hk]
    · rw [if_neg hk] at he
      exact h.keyed k e (entry_makeRoom he).1
  indexed := by
    rw [reconcileInsertion_eq]
    exact (h.indexed.insert hkey).removeAll

theorem numbered (h : Agrees config c) : Agrees config { c with disk := c.disk.nextSequence.2 } :=
  ⟨h.keys, h.backs, h.keyed, h.indexed⟩

/-- **Every effect keeps both sides in agreement**. -/
theorem effect (h : Agrees config c) {T : CacheKey → Prop} {c' : DiskCache}
    (he : DiskEffect config T c c') : Agrees config c' := by
  obtain ⟨memory, disk⟩ := c'
  cases he with
  | kept hs hd =>
    rcases hd with hd | hd
    · simp only at hd
      rw [hd]
      exact h.of_entry hs.entry
    · simp only at hd
      rw [hd]
      exact h.numbered.of_entry hs.entry
  | removed keys keys' hs hd hkeys =>
    simp only at hd
    rw [hd]
    exact h.restrict hs hkeys
  | touched key old record entry _ hold hentry hp ha hd =>
    simp only at hd
    rw [hd]
    exact h.replace hentry hp.backs ha.entry rfl rfl
  | stuck key old _ _ _ _ ha hd =>
    simp only at hd
    rw [hd]
    exact h.numbered.of_entry ha.entry
  | admitted entry record victims hp hv hs hd =>
    simp only at hd
    rw [hd]
    have hadmits := admissionVictims_admits hv
    have hevicted : Agrees config
        ⟨c.memory.dropEntries victims, c.disk.nextSequence.2.removeAll victims⟩ :=
      h.numbered.restrict (.refl _) fun _ _ => Iff.rfl
    refine hevicted.insert ?_ hp.backs hs
    rw [mem_records_iff, lookup_removeAll]
    split_ifs with hmem
    · simp
    · rw [← mem_records_iff]
      exact mt hadmits.same hmem

end Agrees

/-! ## The order of access -/

/-- No record has a number yet to come, no entry an access yet to come, and while there are numbers
left on disk, what comes first there was accessed first in memory. -/
structure Ranked (c : DiskCache) : Prop where
  numbered : ∀ k r, c.disk.records.lookup k = some r → r.access.toNat ≤ c.disk.sequence.toNat
  aged : c.memory.Aged
  order : c.disk.sequence.toNat < maxUInt64 → ∀ k r k' r', c.disk.records.lookup k = some r →
    c.disk.records.lookup k' = some r' → r.rank k < r'.rank k' → c.memory.Older k k'

variable {r r' : RecordInfo} {k k' : CacheKey} {x : Candidate}

theorem RecordInfo.rank_lt_of_access (h : r.access.toNat < r'.access.toNat) :
    r.rank k < r'.rank k' :=
  Prod.Lex.toLex_lt_toLex.mpr (.inl h)

namespace Ranked

variable {c : DiskCache} {c' : DiskCache}

/-- Fewer records, and the counter where it was or further. -/
theorem weaken (h : Ranked c) (haged : c'.memory.Aged)
    (hd : ∀ k r, c'.disk.records.lookup k = some r → c.disk.records.lookup k = some r)
    (hle : c.disk.sequence.toNat ≤ c'.disk.sequence.toNat)
    (hm : ∀ k k', k ∈ c'.disk.records → k' ∈ c'.disk.records → c.memory.Older k k' →
      c'.memory.Older k k') : Ranked c' where
  numbered k r hr := (h.numbered k r (hd k r hr)).trans hle
  aged := haged
  order hlt k r k' r' hr hr' hrank :=
    hm k k' (mem_records_iff.mpr ⟨r, hr⟩) (mem_records_iff.mpr ⟨r', hr'⟩)
      (h.order (hle.trans_lt hlt) k r k' r' (hd k r hr) (hd k' r' hr') hrank)

/-- A record that comes after all others, for an entry that is the newest. -/
theorem renew (h : Ranked c) {key : CacheKey} {record : RecordInfo}
    (hm : State.Renewed c.memory c'.memory key)
    (hkeys : ∀ k, k ∈ c'.disk.records ↔ k ∈ c'.memory.entries)
    (hkey : c'.disk.records.lookup key = some record)
    (hother : ∀ k r, k ≠ key → c'.disk.records.lookup k = some r →
      c.disk.records.lookup k = some r) (hle : c.disk.sequence.toNat ≤ c'.disk.sequence.toNat)
    (haccess : record.access.toNat ≤ c'.disk.sequence.toNat)
    (hnew : c'.disk.sequence.toNat < maxUInt64 → ∀ k r, k ≠ key →
      c'.disk.records.lookup k = some r → r.rank k < record.rank key) : Ranked c' where
  numbered k r hr := by
    by_cases hk : k = key
    · subst hk
      rwa [← Option.some.inj (hkey.symm.trans hr)]
    · exact (h.numbered k r (hother k r hk hr)).trans hle
  aged := hm.aged
  order hlt k r k' r' hr hr' hrank := by
    have hmem := (hkeys k).mp (mem_records_iff.mpr ⟨r, hr⟩)
    have hmem' := (hkeys k').mp (mem_records_iff.mpr ⟨r', hr'⟩)
    by_cases hk : k = key
    · -- nothing comes after the new record
      subst hk
      cases hkey.symm.trans hr
      by_cases hk' : k' = k
      · subst hk'
        cases hkey.symm.trans hr'
        exact absurd hrank (lt_irrefl _)
      · exact absurd (hnew hlt k' r' hk' hr') hrank.asymm
    · by_cases hk' : k' = key
      · subst hk'
        exact hm.newest k hk hmem
      · refine hm.others k k' hk hk' hmem hmem' ?_
        exact h.order (hle.trans_lt hlt) k r k' r' (hother k r hk hr) (hother k' r' hk' hr') hrank

theorem access_lt_next (h : Ranked c) (hr : c.disk.records.lookup k = some r)
    (hlt : c.disk.nextSequence.1.toNat < maxUInt64) :
    r.access.toNat < c.disk.nextSequence.1.toNat := by
  have hnext := c.disk.toNat_nextSequence
  have hle := h.numbered k r hr
  omega

theorem sequence_le_next {d : DiskState} : d.sequence.toNat ≤ d.nextSequence.1.toNat := by
  rw [d.toNat_nextSequence]
  have := toNat_le_maxUInt64 d.sequence
  omega

variable {config : DiskCacheConfig}

theorem restrict (h : Ranked c) (ha : Agrees config c) {keys keys' : List CacheKey} {memory : State}
    (hs : State.SameEntries (c.memory.dropEntries keys) memory)
    (hkeys : ∀ k ∈ c.disk.records, k ∈ keys ↔ k ∈ keys') :
    Ranked ⟨memory, c.disk.removeAll keys'⟩ := by
  have hafter := ha.restrict hs hkeys
  refine h.weaken (hs.aged h.aged.dropEntries) (fun k r hr => ?_) ?_ fun k k' hk hk' ho => ?_
  · rw [lookup_removeAll] at hr
    split_ifs at hr
    exact hr
  · rw [removeAll_sequence]
  · have hmem := (hafter.keys k).mp hk
    have hmem' := (hafter.keys k').mp hk'
    simp only [hs.entries] at hmem hmem'
    exact hs.older (keeps_dropEntries.older hmem hmem' ho)

/-- **Every effect but a failed rewrite keeps the order**. -/
theorem effect (h : Ranked c) (ha : Agrees config c) {T : CacheKey → Prop}
    (he : DiskEffect config T c c')
    (hfits : ∀ k r, T k → c.disk.records.lookup k = some r → versionOf r.contents = 1 →
      r.size + 2 ≤ config.maxRecordBytes) : Ranked c' := by
  have hafter := ha.effect he
  obtain ⟨memory, disk⟩ := c'
  cases he with
  | kept hs hd =>
    have hrecords : disk.records = c.disk.records := by
      rcases hd with hd | hd
      · exact congrArg _ hd
      · have hnext : c.disk.nextSequence.2.records = c.disk.records := rfl
        exact (congrArg _ hd).trans hnext
    have hsequence : c.disk.sequence.toNat ≤ disk.sequence.toNat := by
      rcases hd with hd | hd
      · exact (congrArg (·.sequence.toNat) hd).ge
      · exact sequence_le_next.trans (congrArg (·.sequence.toNat) hd).ge
    refine h.weaken (hs.aged h.aged) (fun k r hr => ?_) hsequence fun _ _ _ _ ho => hs.older ho
    rwa [hrecords] at hr
  | removed keys keys' hs hd hkeys =>
    simp only at hd
    rw [hd]
    exact h.restrict ha hs hkeys
  | touched key old record entry _ hold hentry hp haccessed hd =>
    have hmem : key ∈ c.memory.entries := mem_entries_iff.mpr ⟨entry, hentry⟩
    simp only at hd
    have hlookup : ∀ k, disk.records.lookup k
        = if k = key then some record else c.disk.records.lookup k := fun k => by
      rw [hd, lookup_insert, lookup_remove]
      split_ifs <;> rfl
    have hsequence : disk.sequence = c.disk.nextSequence.1 := by
      rw [hd]
      exact remove_sequence
    refine h.renew (haccessed.renewed h.aged hmem) hafter.keys
      (by rw [hlookup, if_pos rfl]) (fun k r hk hr => ?_) ?_ ?_ fun hlt k r hk hr => ?_
    · rwa [hlookup, if_neg hk] at hr
    · rw [hsequence]
      exact sequence_le_next
    · rw [hsequence, hp.access]
    · rw [hlookup, if_neg hk] at hr
      rw [hsequence] at hlt
      refine RecordInfo.rank_lt_of_access ?_
      rw [hp.access]
      exact h.access_lt_next hr hlt
  | stuck key old hT hold hversion hlong _ _ =>
    exact absurd (hfits key old hT hold hversion) (not_le.mpr hlong)
  | admitted entry record victims hp hv hs hd =>
    simp only at hd
    -- the victims go first, then the entry comes in
    have hevicted : Ranked ⟨c.memory.dropEntries victims, c.disk.removeAll victims⟩ :=
      h.restrict ha (.refl _) fun _ _ => Iff.rfl
    have hlookup : ∀ k, disk.records.lookup k = if k = entry.key then some record
        else if k ∈ ((c.memory.dropEntries victims).makeRoom config.memory entry).1.1 then none
        else (c.disk.removeAll victims).records.lookup k := fun k => by
      rw [hd, Agrees.lookup_inserted, lookup_removeAll, lookup_removeAll]
      rfl
    have hsequence : disk.sequence = c.disk.nextSequence.1 := by
      rw [hd, reconcileInsertion_eq, removeAll_sequence]
      exact removeAll_sequence
    have hother : ∀ k r, k ≠ entry.key → disk.records.lookup k = some r →
        (c.disk.removeAll victims).records.lookup k = some r := fun k r hk hr => by
      rw [hlookup, if_neg hk] at hr
      split_ifs at hr
      exact hr
    refine hevicted.renew (hs.renewed (renewed_insertEntry hevicted.aged))
      hafter.keys (by rw [hlookup, if_pos rfl]) hother ?_ ?_ fun hlt k r hk hr => ?_
    · rw [hsequence, removeAll_sequence]
      exact sequence_le_next
    · rw [hsequence, hp.access]
    · rw [hsequence] at hlt
      have hr := hother k r hk hr
      rw [lookup_removeAll] at hr
      split_ifs at hr
      refine RecordInfo.rank_lt_of_access ?_
      rw [hp.access]
      exact h.access_lt_next hr hlt

end Ranked

/-! ## Recovery -/

/-- A candidate as the scan makes it: its index entry is the one of its record, and the record backs
the entry it was decoded to. -/
structure Candidate.Sound (config : DiskCacheConfig) (x : Candidate) : Prop where
  access : x.info.access = x.decoded.access
  sequence : x.info.sequence = x.decoded.sequence
  backs : Backs config x.info x.decoded.entry

variable {config : DiskCacheConfig} {s : Scan}

theorem Candidate.Sound.rank (h : x.Sound config) : x.info.rank x.decoded.entry.key = x.rank := by
  unfold RecordInfo.rank Candidate.rank
  rw [h.access, h.sequence]

theorem readRecord_sound [Crates] {secure : Bool} {contents : Bytes} {stamp : Stamp}
    {d : DecodedRecord} (h : readRecord config secure contents stamp = some d) (name : String) :
    Candidate.Sound config
      ⟨name, d, ⟨contents, contents.length, d.access, d.sequence, d.entry.tags⟩⟩ := by
  unfold readRecord at h
  split_ifs at h with hbad
  push Not at hbad
  cases hd : decodeRecord config.memory stamp.now stamp.wall contents with
  | error e => simp [hd, Except.toOption] at h
  | ok decoded =>
    simp only [hd, Except.toOption, Option.some.injEq] at h
    subst h
    obtain ⟨hencodable, hsize⟩ := decodeRecord_sized hd
    exact ⟨rfl, rfl, ⟨rfl, hbad.2, hencodable, hsize⟩⟩

/-- Every candidate is sound and stands under its key. -/
def Scan.Sound (config : DiskCacheConfig) (s : Scan) : Prop :=
  ∀ k x, s.candidates.lookup k = some x → x.decoded.entry.key = k ∧ x.Sound config

theorem Scan.Sound.visit [Crates] (h : s.Sound config) {entry : DirEntry} :
    (s.visit config entry).Sound config := by
  cases entry with
  | temp => exact h
  | record name secure contents stamp =>
    simp only [Scan.visit]
    cases hread : readRecord config secure contents stamp with
    | none => exact h
    | some d =>
      have hnew := readRecord_sound hread name
      have hinsert : ∀ k x, (s.candidates.insert d.entry.key
          ⟨name, d, ⟨contents, contents.length, d.access, d.sequence, d.entry.tags⟩⟩).lookup k
            = some x → x.decoded.entry.key = k ∧ x.Sound config := by
        intro k x hx
        obtain ⟨hk, rfl⟩ | ⟨-, hx⟩ := Table.of_lookup_insert hx
        · exact ⟨hk.symm, hnew⟩
        · exact h k x hx
      simp only
      cases s.candidates.lookup _ with
      | none => exact hinsert
      | some old =>
        simp only
        split_ifs
        · exact hinsert
        · exact h

theorem Scan.sound_foldl [Crates] (config : DiskCacheConfig) (directory : List DirEntry) :
    (directory.foldl (Scan.visit config) ⟨∅, 0, 0⟩).Sound config :=
  foldl_keeps (P := Scan.Sound config) (fun _ entry h => h.visit) directory _
    fun k x h => absurd h (by simp)

/-- The candidates in the order of recovery, before any is given up. -/
def Scan.found (s : Scan) : List Candidate :=
  (s.candidates.entries.map Sigma.snd).insertionSort fun a b => a.rank ≤ b.rank

theorem Scan.mem_found (h : x ∈ s.found) : ∃ k, s.candidates.lookup k = some x := by
  unfold Scan.found at h
  rw [(perm_insertionSort _ _).mem_iff] at h
  obtain ⟨e, he, rfl⟩ := mem_map.mp h
  exact ⟨e.1, Table.mem_entries_iff.mp he⟩

theorem Scan.Sound.found_nodup (h : s.Sound config) :
    s.found.Pairwise fun a b => a.decoded.entry.key ≠ b.decoded.entry.key := by
  have hperm := (perm_insertionSort (fun a b : Candidate => a.rank ≤ b.rank)
    (s.candidates.entries.map Sigma.snd)).map fun x => x.decoded.entry.key
  have hmap : (s.candidates.entries.map Sigma.snd).map (fun x => x.decoded.entry.key)
      = s.candidates.keys := by
    rw [map_map]
    refine map_congr_left fun e he => ?_
    exact (h e.1 e.2 (Table.mem_entries_iff.mp he)).1
  rw [hmap] at hperm
  exact pairwise_map.mp (hperm.nodup_iff.mpr s.candidates.keys_nodup)

/-- The candidates have distinct keys, so their ranks ascend strictly. -/
theorem Scan.Sound.found_pairwise (h : s.Sound config) :
    s.found.Pairwise fun a b => a.rank < b.rank := by
  have hle : s.found.Pairwise fun a b => a.rank ≤ b.rank := by
    exact pairwise_insertionSort _ _
  refine (hle.and h.found_nodup).imp fun {a b} hab => lt_of_le_of_ne hab.1 fun heq => hab.2 ?_
  exact congrArg (fun r : ℕ ×ₗ ℕ ×ₗ CacheKey => (ofLex (ofLex r).2).2) heq

theorem trim_suffix (config : DiskCacheConfig) : ∀ l : List Candidate, trim config l <:+ l
  | [] => suffix_refl _
  | x :: rest => by
    rw [trim]
    split_ifs
    · exact (trim_suffix config rest).trans (suffix_cons x rest)
    · exact suffix_refl _

/-- What holds between two turns of the last loop of `scan_root`: both sides agree, and the records
that are there come before all that are still to come. -/
structure Recovering (config : DiskCacheConfig) (c : DiskCache) (rest : List Candidate) : Prop where
  agrees : Agrees config c
  ranked : Ranked c
  earlier : ∀ k r, c.disk.records.lookup k = some r → ∀ x ∈ rest, r.rank k < x.rank
  fresh : ∀ x ∈ rest, x.decoded.entry.key ∉ c.disk.records
  sound : ∀ x ∈ rest, x.Sound config
  sorted : rest.Pairwise fun a b => a.rank < b.rank
  distinct : rest.Pairwise fun a b => a.decoded.entry.key ≠ b.decoded.entry.key

variable {shared : DiskShared} {c : DiskCache}

theorem DiskCache.recover_eq : c.recover shared x =
    ⟨(c.memory.restore shared.memory x.decoded.entry).2, (({ c.disk with
        sequence := max (max c.disk.sequence x.decoded.sequence) x.decoded.access }.insert
          x.decoded.entry.key x.info).reconcileInsertion
            (c.memory.restore shared.memory x.decoded.entry).1).2⟩ := by
  unfold recover
  dsimp only

/-- The records after a turn: the new one, and the old ones the memory cache kept. -/
theorem DiskCache.lookup_recover : (c.recover shared x).disk.records.lookup k =
      if k = x.decoded.entry.key then some x.info
      else if k ∈ (c.memory.makeRoom shared.config.memory
          { x.decoded.entry with identity := shared.identity }).1.1 then none
      else c.disk.records.lookup k :=
  Agrees.lookup_inserted

theorem DiskCache.recover_sequence : (c.recover shared x).disk.sequence
      = max (max c.disk.sequence x.decoded.sequence) x.decoded.access := by
  simp only [recover, reconcileInsertion_eq, removeAll_sequence]
  rfl

namespace Recovering

variable {shared : DiskShared} {c : DiskCache} {x : Candidate} {rest : List Candidate}

theorem recover (h : Recovering shared.config c (x :: rest)) :
    Recovering shared.config (c.recover shared x) rest := by
  have hsound := h.sound x mem_cons_self
  have hkey := h.fresh x mem_cons_self
  obtain ⟨hfirst, hsorted⟩ := pairwise_cons.mp h.sorted
  obtain ⟨hother, hdistinct⟩ := pairwise_cons.mp h.distinct
  have hagrees : Agrees shared.config (c.recover shared x) := by
    have hnumbered : Agrees shared.config { c with disk := { c.disk with
        sequence := max (max c.disk.sequence x.decoded.sequence) x.decoded.access } } :=
      ⟨h.agrees.keys, h.agrees.backs, h.agrees.keyed, h.agrees.indexed⟩
    rw [DiskCache.recover_eq]
    exact hnumbered.insert hkey hsound.backs (.refl _)
  have hold : ∀ k r, k ≠ x.decoded.entry.key →
      (c.recover shared x).disk.records.lookup k = some r → c.disk.records.lookup k = some r := by
    intro k r hk hr
    rw [DiskCache.lookup_recover, if_neg hk] at hr
    split_ifs at hr
    exact hr
  have hnew : (c.recover shared x).disk.records.lookup x.decoded.entry.key = some x.info := by
    rw [DiskCache.lookup_recover, if_pos rfl]
  refine ⟨hagrees, ?_, fun k r hr y hy => ?_, fun y hy hmem => ?_,
    fun y hy => h.sound y (mem_cons_of_mem _ hy), hsorted, hdistinct⟩
  · refine h.ranked.renew (renewed_insertEntry h.ranked.aged) hagrees.keys hnew hold ?_ ?_
      fun _ k r hk hr => ?_
    · rw [DiskCache.recover_sequence, toNat_max, toNat_max]
      omega
    · rw [DiskCache.recover_sequence, toNat_max, hsound.access]
      omega
    · rw [hsound.rank]
      exact h.earlier k r (hold k r hk hr) x mem_cons_self
  · by_cases hk : k = x.decoded.entry.key
    · subst hk
      rw [← Option.some.inj (hnew.symm.trans hr), hsound.rank]
      exact hfirst y hy
    · exact h.earlier k r (hold k r hk hr) y (mem_cons_of_mem _ hy)
  · obtain ⟨r, hr⟩ := mem_records_iff.mp hmem
    exact h.fresh y (mem_cons_of_mem _ hy) (mem_records_iff.mpr ⟨r, hold _ r (hother y hy).symm hr⟩)

theorem foldl : ∀ (rest : List Candidate) (c : DiskCache), Recovering shared.config c rest →
    Recovering shared.config (rest.foldl (DiskCache.recover shared) c) []
  | [], _, h => h
  | x :: rest, c, h => foldl rest (c.recover shared x) h.recover

theorem start (hsound : ∀ x ∈ rest, x.Sound config)
    (hsorted : rest.Pairwise fun a b => a.rank < b.rank)
    (hdistinct : rest.Pairwise fun a b => a.decoded.entry.key ≠ b.decoded.entry.key)
    {disk : DiskState} (hrecords : disk.records = ∅) (htags : disk.tags = ∅) :
    Recovering config ⟨State.init, disk⟩ rest := by
  have hnone : ∀ k r, disk.records.lookup k ≠ some r := fun k r => by simp [hrecords]
  refine ⟨⟨fun k => ?_, fun k r e hr => absurd hr (hnone k r), fun k e he => ?_, ?_⟩,
    ⟨fun k r hr => absurd hr (hnone k r), aged_init, fun _ k r _ _ hr => absurd hr (hnone k r)⟩,
    fun k r hr => absurd hr (hnone k r), fun x _ => ?_, hsound, hsorted, hdistinct⟩
  · simp [hrecords, State.init]
  · simp [entry, State.init] at he
  · unfold DiskState.Indexed
    rw [htags]
    exact Inverted.exact_empty.congr fun k tag => by simp [hrecords]
  · simp [hrecords]

end Recovering

/-- The last loop of `scan_root` starts with nothing there and the sorted candidates to come. -/
theorem recovering_start [Crates] (shared : DiskShared) (directory : List DirEntry)
    {disk : DiskState} (hrecords : disk.records = ∅) (htags : disk.tags = ∅) :
    Recovering shared.config ⟨State.init, disk⟩
      (trim shared.config (directory.foldl (Scan.visit shared.config) ⟨∅, 0, 0⟩).found) := by
  have hsound := Scan.sound_foldl shared.config directory
  have hsuffix := trim_suffix shared.config
    (directory.foldl (Scan.visit shared.config) ⟨∅, 0, 0⟩).found
  refine Recovering.start (fun x hx => ?_) (hsound.found_pairwise.sublist hsuffix.sublist)
    (hsound.found_nodup.sublist hsuffix.sublist) hrecords htags
  obtain ⟨k, hk⟩ := Scan.mem_found (hsuffix.subset hx)
  exact (hsound k x hk).2

/-- **Recovery brings both sides into agreement**. -/
theorem scanRoot_agrees [Crates] {directory : List DirEntry} :
    Agrees shared.config (scanRoot shared directory) ∧ Ranked (scanRoot shared directory) := by
  have hdone : Recovering shared.config (scanRoot shared directory) [] :=
    Recovering.foldl _ _ (recovering_start shared directory rfl rfl)
  exact ⟨hdone.agrees, hdone.ranked⟩

/-! ## Runs -/

/-- The two sides of a cache have the same keys, the tag index maps every tag to the records that
carry it, and while there are numbers left on disk, both sides have the same order. -/
structure Agreement (c : DiskCache) : Prop where
  keys : ∀ k, k ∈ c.disk.records ↔ k ∈ c.memory.entries
  tags : Inverted.Exact c.disk.tags fun k tag =>
    ∃ r, c.disk.records.lookup k = some r ∧ tag ∈ r.tags
  order : c.disk.sequence.toNat < maxUInt64 → ∀ k r m k' r' m',
    c.disk.records.lookup k = some r → c.memory.entries.lookup k = some m →
    c.disk.records.lookup k' = some r' → c.memory.entries.lookup k' = some m' →
    (r.rank k < r'.rank k' ↔ m.lastAccess < m'.lastAccess)

theorem RecordInfo.rank_injective (h : r.rank k = r'.rank k') : k = k' :=
  congrArg (fun x : ℕ ×ₗ ℕ ×ₗ CacheKey => (ofLex (ofLex x).2).2) h

theorem Ranked.agreement (h : Ranked c) (ha : Agrees config c) : Agreement c := by
  refine ⟨ha.keys, ha.indexed, fun hlt k r m k' r' m' hr hm hr' hm' => ?_⟩
  have holder : ∀ {k k' : CacheKey} {m m' : StoredEntry}, c.memory.entries.lookup k = some m →
      c.memory.entries.lookup k' = some m' → c.memory.Older k k' →
        m.lastAccess < m'.lastAccess := by
    rintro k k' m m' hm hm' ⟨a, b, ha, hb, hab⟩
    rw [accessOf, hm, Option.map_some] at ha
    rw [accessOf, hm', Option.map_some] at hb
    rwa [Option.some.inj ha, Option.some.inj hb]
  constructor
  · intro hrank
    exact holder hm hm' (h.order hlt k r k' r' hr hr' hrank)
  · intro hless
    -- the ranks are compared the other way, or the keys are equal
    by_contra hnot
    rcases (not_lt.mp hnot).lt_or_eq with hrank | hrank
    · exact absurd (holder hm' hm (h.order hlt k' r' k r hr' hr hrank)) hless.asymm
    · obtain rfl := RecordInfo.rank_injective hrank
      rw [hm] at hm'
      rw [Option.some.inj hm'] at hless
      exact absurd hless (lt_irrefl _)

namespace DiskWorld

/-- No record that a step may touch is of version 1 and without two bytes left. -/
def Rewritable [Crates] (shared : DiskShared) (w : DiskWorld) (op : DiskOp) : Prop :=
  ∀ e ∈ w.disk.records.entries, op.touches shared.config.memory e.1 = true →
    versionOf e.2.contents = 1 → e.2.size + 2 ≤ shared.config.maxRecordBytes

instance [Crates] (shared : DiskShared) (w : DiskWorld) (op : DiskOp) :
    Decidable (Rewritable shared w op) :=
  inferInstanceAs (Decidable (∀ e ∈ w.disk.records.entries,
    op.touches shared.config.memory e.1 = true → versionOf e.2.contents = 1 →
      e.2.size + 2 ≤ shared.config.maxRecordBytes))

theorem agrees_step [Crates] {w : DiskWorld} {op : DiskOp}
    (h : Agrees shared.config w.cache ∧ Ranked w.cache) (hr : Rewritable shared w op) :
    Agrees shared.config (step shared w op).cache ∧ Ranked (step shared w op).cache := by
  have he := step_effect h.1 op
  exact ⟨h.1.effect he, h.2.effect h.1 he fun k r hT hk =>
    hr ⟨k, r⟩ (Table.mem_entries_iff.mpr hk) hT⟩

/-- **Memory and disk agree after every operation**, of every run from every directory in which no
record of version 1 is touched that has no two bytes left below the record limit. -/
theorem run_agreement [Crates] (shared : DiskShared) (directory : List DirEntry) (ops : List DiskOp)
    (hops : EveryStep (step shared) (Rewritable shared) (opened shared directory) ops) :
    Agreement (run shared directory ops).cache := by
  have h := foldl_induct (P := fun w => Agrees _ w.cache ∧ Ranked w.cache)
    (fun w op h hr => agrees_step h hr) ops _ scanRoot_agrees hops
  exact h.2.agreement h.1

/-! ## Small runs -/

section

attribute [local instance] Small.crates

/-- Limits for records and for the directory. -/
def smallDisk (maxRecordBytes maxDiskBytes : ℕ) (hr : maxRecordBytes ≤ usizeMax)
    (hd : maxDiskBytes ≤ u64Max) : DiskShared where
  identity := 7
  config := ⟨Small.config, maxDiskBytes, 2, maxRecordBytes, hd, by decide, hr⟩

/-- An entry that is fresh for a minute. -/
def smallEntryOf (path : String) : RecoveredEntry where
  key := ⟨Small.base path, []⟩
  status := .ok
  headers := HeaderMap.empty
  body := []
  tags := []
  policy := ⟨Duration.ofSecs 60, 0, 0, 0, .rfc, false, false, false⟩
  validators := ⟨none, none⟩
  responseReceived := Small.time 0
  charge := 168

/-- Two records of version 1, of 170 bytes each. -/
def legacyDirectory : List DirEntry :=
  [("/a", 1), ("/b", 2)].map fun (path, number) =>
    .record path true (Encode.framed 1 (Encode.payloadOf 1 (smallEntryOf path) number number 0 0))
      ⟨Small.time 0, SystemTime.epoch⟩

/-- A lookup of the older one. -/
def legacyLookup : DiskOp :=
  .lookup (Small.time 0) (Small.request "/a" .empty) ⟨Small.time 0, SystemTime.epoch⟩

/-- With room for two more bytes the older record becomes the newer one on both sides. -/
theorem run_agreement_rewritten : EveryStep (step (smallDisk 172 1000 (by decide) (by decide)))
        (Rewritable (smallDisk 172 1000 (by decide) (by decide)))
        (opened (smallDisk 172 1000 (by decide) (by decide)) legacyDirectory) [legacyLookup]
      ∧ Agreement (run (smallDisk 172 1000 (by decide) (by decide)) legacyDirectory
          [legacyLookup]).cache := by
  have hops : EveryStep (step (smallDisk 172 1000 (by decide) (by decide)))
      (Rewritable (smallDisk 172 1000 (by decide) (by decide)))
      (opened (smallDisk 172 1000 (by decide) (by decide)) legacyDirectory) [legacyLookup] := by
    decide +kernel
  exact ⟨hops, run_agreement _ _ [legacyLookup] hops⟩

/-- Without it the lookup fails: in memory the entry is now the newest, on disk it is still the
oldest. -/
theorem run_agreement_broken :
    ¬Agreement (run (smallDisk 170 1000 (by decide) (by decide)) legacyDirectory
      [legacyLookup]).cache := by
  intro h
  obtain ⟨hdisk, hmemory, hsequence⟩ : (∀ x ∈ [("/a", 1), ("/b", 2)],
        ((run (smallDisk 170 1000 (by decide) (by decide)) legacyDirectory
          [legacyLookup]).cache.disk.records.lookup ⟨Small.base x.1, []⟩).map
            (fun r => r.access.toNat) = some x.2) ∧
      (∀ x ∈ [("/a", 3), ("/b", 2)],
        (run (smallDisk 170 1000 (by decide) (by decide)) legacyDirectory
          [legacyLookup]).cache.memory.accessOf ⟨Small.base x.1, []⟩ = some x.2) ∧
      (run (smallDisk 170 1000 (by decide) (by decide)) legacyDirectory
        [legacyLookup]).cache.disk.sequence.toNat < maxUInt64 := by
    decide +kernel
  obtain ⟨r, hr, hrank⟩ := Option.map_eq_some_iff.mp (hdisk ("/a", 1) (by simp))
  obtain ⟨r', hr', hrank'⟩ := Option.map_eq_some_iff.mp (hdisk ("/b", 2) (by simp))
  obtain ⟨m, hm, haccess⟩ := Option.map_eq_some_iff.mp (hmemory ("/a", 3) (by simp))
  obtain ⟨m', hm', haccess'⟩ := Option.map_eq_some_iff.mp (hmemory ("/b", 2) (by simp))
  have hrank : r.rank ⟨Small.base "/a", []⟩ < r'.rank ⟨Small.base "/b", []⟩ :=
    RecordInfo.rank_lt_of_access (by omega)
  have hlt := (h.order hsequence _ r m _ r' m' hr hm hr' hm').mp hrank
  rw [haccess, haccess'] at hlt
  simp at hlt

end

end DiskWorld

end Oxiroute.Cache
