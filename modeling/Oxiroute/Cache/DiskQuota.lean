import Oxiroute.Cache.Agreement

/-!
# The quota of the persistent cache

`Quota`: the byte counter is the sum of the sizes of the records, and the bytes and the files are
within their limits. Recovery establishes it, admission makes room before it adds, and everything
else removes, except for one thing: a used record is written again without a look at the quota.
A record that was written before takes the same bytes again, but a record of version 1 takes two
more, which may be two too many for the directory or for a single record.

The sums saturate at `u64::MAX`, and the sum in `scan_root` wraps there, so the quota has to be
smaller, and what is found has to add up to less than `2 ^ 64` bytes.
-/

set_option maxRecDepth 100000

namespace Oxiroute.Cache

open Lib Http DiskState List Table
open Table (size)

/-- The byte counter is right, and both limits are kept. -/
structure Quota (config : DiskCacheConfig) (d : DiskState) : Prop where
  balanced : d.bytesUsed = total RecordInfo.size d.records
  bytes : d.bytesUsed ≤ config.maxDiskBytes
  files : size d.records ≤ config.maxDiskFiles

/-! ## Removal -/

namespace DiskState

variable (keys : List CacheKey) (s : DiskState)

theorem bytesUsed_removeAll_le : (s.removeAll keys).bytesUsed ≤ s.bytesUsed :=
  removeAll_induct (P := fun t => t.bytesUsed ≤ s.bytesUsed)
    (fun _ _ h => bytesUsed_remove_le.trans h) keys s (le_refl _)

theorem size_removeAll_le : size (s.removeAll keys).records ≤ size s.records :=
  removeAll_induct (P := fun t => size t.records ≤ size s.records)
    (fun _ _ h => size_remove_le.trans h) keys s (le_refl _)

theorem bytesUsed_remove {key : CacheKey} :
    (s.remove key).bytesUsed = s.bytesUsed - s.sizeOf key := by
  unfold remove sizeOf
  cases s.records.lookup key with
  | none | some record => rfl

theorem sizeOf_remove_ne {key k : CacheKey} (h : k ≠ key) :
    (s.remove key).sizeOf k = s.sizeOf k := by
  rw [sizeOf, lookup_remove, if_neg h, sizeOf]

theorem bytesUsed_removeAll (hn : keys.Nodup) (s : DiskState) :
    (s.removeAll keys).bytesUsed = s.bytesUsed - (keys.map s.sizeOf).sum := by
  induction keys generalizing s with
  | nil => rfl
  | cons key keys ih =>
    obtain ⟨hkey, hn⟩ := nodup_cons.mp hn
    have hsizes : keys.map (s.remove key).sizeOf = keys.map s.sizeOf :=
      map_congr_left fun k hk => s.sizeOf_remove_ne fun heq => hkey (heq ▸ hk)
    change ((s.remove key).removeAll keys).bytesUsed = _
    rw [ih hn, bytesUsed_remove, hsizes, map_cons, sum_cons]
    omega

theorem size_removeAll (hn : keys.Nodup) (s : DiskState) (hmem : ∀ k ∈ keys, k ∈ s.records) :
    size (s.removeAll keys).records = size s.records - keys.length := by
  induction keys generalizing s with
  | nil => rfl
  | cons key keys ih =>
    obtain ⟨hkey, hn⟩ := nodup_cons.mp hn
    obtain ⟨hfirst, hrest⟩ := forall_mem_cons.mp hmem
    have hleft : ∀ k ∈ keys, k ∈ (s.remove key).records := by
      intro k hk
      have hne : k ≠ key := fun heq => hkey (heq ▸ hk)
      rw [mem_records_iff, lookup_remove, if_neg hne, ← mem_records_iff]
      exact hrest k hk
    have hsize := size_erase hfirst
    change size ((s.remove key).removeAll keys).records = _
    rw [ih hn _ hleft, remove_records, length_cons]
    omega

/-- The sum over the victims, which saturates. -/
theorem foldl_satAdd {keys : List CacheKey} {total : ℕ} (h : total ≤ usizeMax) :
    keys.foldl (fun total key => satAdd total (s.sizeOf key)) total
      = min (total + (keys.map s.sizeOf).sum) usizeMax := by
  induction keys generalizing total with
  | nil => simp [h]
  | cons key keys ih =>
    have hcap : satAdd total (s.sizeOf key) ≤ usizeMax := min_le_right _ _
    rw [foldl_cons, ih hcap, map_cons, sum_cons, satAdd]
    omega

end DiskState

/-! ## Effects -/

namespace Quota

variable {config : DiskCacheConfig} {d : DiskState}

theorem removeAll (h : Quota config d) {keys : List CacheKey} : Quota config (d.removeAll keys) :=
  ⟨DiskState.Balanced.removeAll h.balanced, (bytesUsed_removeAll_le keys d).trans h.bytes,
    (size_removeAll_le keys d).trans h.files⟩

theorem numbered (h : Quota config d) : Quota config d.nextSequence.2 :=
  ⟨h.balanced, h.bytes, h.files⟩

theorem insert {key : CacheKey} {record : RecordInfo} (hb : d.Balanced) (hkey : key ∉ d.records)
    (hbytes : d.bytesUsed + record.size ≤ config.maxDiskBytes)
    (hfiles : size d.records < config.maxDiskFiles) : Quota config (d.insert key record) := by
  have hword := hbytes.trans config.diskBytes_le
  refine ⟨hb.insert hkey hword, ?_, ?_⟩
  · change satAdd d.bytesUsed record.size ≤ config.maxDiskBytes
    rw [satAdd]
    omega
  · change size (d.records.insert key record) ≤ config.maxDiskFiles
    rw [size_insert hkey]
    omega

/-- **Every effect keeps the quota**, if the record that is written again has room to grow. -/
theorem effect {c c' : DiskCache} (h : Quota config c.disk) (ha : Agrees config c)
    (hmax : config.maxDiskBytes < u64Max) {T : CacheKey → Prop} (he : DiskEffect config T c c')
    (hroom : ∀ k r, T k → c.disk.records.lookup k = some r → versionOf r.contents = 1 →
      c.disk.bytesUsed + 2 ≤ config.maxDiskBytes) : Quota config c'.disk := by
  cases he with
  | kept _ hd =>
    rcases hd with hd | hd
    · rw [hd]
      exact h
    · rw [hd]
      exact h.numbered
  | removed keys keys' _ hd _ =>
    rw [hd]
    exact h.removeAll
  | touched key old record entry hT hold hentry hp _ hd =>
    rw [hd]
    have hbacks := (ha.backs key old entry hold hentry).recordSize
    have hle : old.size ≤ total RecordInfo.size c.disk.records := le_total hold
    have hsize : (c.disk.nextSequence.2.remove key).bytesUsed = c.disk.bytesUsed - old.size := by
      rw [DiskState.bytesUsed_remove, DiskState.sizeOf]
      change c.disk.bytesUsed - ((c.disk.records.lookup key).map RecordInfo.size).getD 0 = _
      rw [hold, Option.map_some, Option.getD_some]
    have hmem : key ∈ c.disk.records := mem_records_iff.mpr ⟨old, hold⟩
    have hbalanced := h.balanced
    have hbytes := h.bytes
    have hfiles := h.files
    have herase := size_erase hmem
    refine Quota.insert (DiskState.Balanced.remove h.numbered.balanced) ?_ ?_ ?_
    · rw [mem_records_iff, lookup_remove]
      simp
    · rw [hsize, hp.size, hbacks]
      split_ifs with hversion
      · have := hroom key old hT hold hversion
        omega
      · omega
    · rw [remove_records]
      change size (c.disk.records.erase key) < _
      omega
  | stuck key old _ _ _ _ _ hd =>
    rw [hd]
    exact h.numbered
  | admitted entry record victims hp hv _ hd =>
    rw [hd, reconcileInsertion_eq]
    have hadmits := admissionVictims_admits hv
    have hused := bytesUsed_removeAll victims hadmits.nodup c.disk.nextSequence.2
    have hsize := size_removeAll victims hadmits.nodup _ hadmits.subset
    have hbytes := hadmits.bytes
    rw [foldl_satAdd _ zero_le, satAdd] at hbytes
    have hmax' : config.maxDiskBytes < usizeMax := hmax
    refine Quota.removeAll (Quota.insert h.numbered.removeAll.balanced ?_ ?_ ?_)
    · rw [mem_records_iff, lookup_removeAll]
      split_ifs with hmem
      · simp
      · rw [← mem_records_iff]
        exact mt hadmits.same hmem
    · omega
    · rw [hsize]
      exact hadmits.files

end Quota

/-! ## Recovery -/

/-- The bytes of a directory entry that may become a record. -/
def DirEntry.size : DirEntry → ℕ
  | .temp => 0
  | .record _ _ contents _ => contents.length

theorem Scan.total_visit [Crates] (config : DiskCacheConfig) (s : Scan) (entry : DirEntry) :
    total (fun x => x.info.size) (s.visit config entry).candidates
      ≤ entry.size + total (fun x => x.info.size) s.candidates := by
  cases entry with
  | temp => exact Nat.le_add_left _ _
  | record name secure contents stamp =>
    simp only [Scan.visit]
    cases readRecord config secure contents stamp with
    | none => exact Nat.le_add_left _ _
    | some d =>
      have hinsert := total_insert_le (fun x : Candidate => x.info.size) s.candidates
        d.entry.key ⟨name, d, ⟨contents, contents.length, d.access, d.sequence, d.entry.tags⟩⟩
      simp only
      cases s.candidates.lookup _ with
      | none => exact hinsert
      | some old =>
        simp only
        split_ifs
        · exact hinsert
        · exact Nat.le_add_left _ _

theorem Scan.total_foldl [Crates] (config : DiskCacheConfig) : ∀ (directory : List DirEntry)
    (s : Scan), total (fun x => x.info.size)
        (directory.foldl (Scan.visit config) s).candidates
      ≤ (directory.map DirEntry.size).sum + total (fun x => x.info.size) s.candidates
  | [], _ => Nat.le_add_left _ _
  | entry :: directory, s => by
    have hstep := s.total_visit config entry
    have hrest := Scan.total_foldl config directory (s.visit config entry)
    rw [foldl_cons, map_cons, sum_cons]
    omega

theorem Scan.total_found {s : Scan} :
    (s.found.map fun x => x.info.size).sum = total (fun x => x.info.size) s.candidates := by
  have hperm := (perm_insertionSort (fun a b : Candidate => a.rank ≤ b.rank)
    (s.candidates.entries.map Sigma.snd)).map fun x => x.info.size
  rw [map_map] at hperm
  exact hperm.sum_eq

theorem trim_fits (config : DiskCacheConfig) : ∀ l : List Candidate,
    (l.map fun x => x.info.size).sum < 2 ^ 64 → (trim config l).length ≤ config.maxDiskFiles
        ∧ ((trim config l).map fun x => x.info.size).sum ≤ config.maxDiskBytes
  | [], _ => ⟨zero_le, zero_le⟩
  | x :: rest, hsum => by
    rw [trim]
    split_ifs with hover
    · refine trim_fits config rest (lt_of_le_of_lt ?_ hsum)
      exact Nat.le_add_left _ _
    · push Not at hover
      rw [sumSizes, Nat.mod_eq_of_lt hsum] at hover
      exact hover

/-- What holds between two turns of the last loop of `scan_root`: there is room for the rest. -/
structure Filling (config : DiskCacheConfig) (d : DiskState) (rest : List Candidate) : Prop where
  balanced : d.Balanced
  bytes : d.bytesUsed + (rest.map fun x => x.info.size).sum ≤ config.maxDiskBytes
  files : size d.records + rest.length ≤ config.maxDiskFiles

variable {shared : DiskShared}

theorem Filling.recover {c : DiskCache} {x : Candidate} {rest : List Candidate}
    (h : Filling shared.config c.disk (x :: rest)) (hfresh : x.decoded.entry.key ∉ c.disk.records) :
    Filling shared.config (c.recover shared x).disk rest := by
  have hbytes := h.bytes
  have hfiles := h.files
  rw [map_cons, sum_cons] at hbytes
  rw [length_cons] at hfiles
  have hword : c.disk.bytesUsed + x.info.size ≤ usizeMax :=
    le_trans (by omega) shared.config.diskBytes_le
  have hbalanced : ({ c.disk with
      sequence := max (max c.disk.sequence x.decoded.sequence) x.decoded.access }.insert
        x.decoded.entry.key x.info).Balanced := DiskState.Balanced.insert h.balanced hfresh hword
  have hinserted : ({ c.disk with
      sequence := max (max c.disk.sequence x.decoded.sequence) x.decoded.access }.insert
        x.decoded.entry.key x.info).bytesUsed = c.disk.bytesUsed + x.info.size :=
    min_eq_left hword
  have hsize : size ({ c.disk with
      sequence := max (max c.disk.sequence x.decoded.sequence) x.decoded.access }.insert
        x.decoded.entry.key x.info).records = size c.disk.records + 1 :=
    size_insert hfresh
  simp only [DiskCache.recover, reconcileInsertion_eq]
  refine ⟨hbalanced.removeAll, ?_, ?_⟩
  · refine (Nat.add_le_add_right (bytesUsed_removeAll_le _ _) _).trans ?_
    rw [hinserted]
    omega
  · refine (Nat.add_le_add_right (size_removeAll_le _ _) _).trans ?_
    rw [hsize]
    omega

theorem Filling.foldl : ∀ (rest : List Candidate) (c : DiskCache),
    Filling shared.config c.disk rest → Recovering shared.config c rest →
      Filling shared.config (rest.foldl (DiskCache.recover shared) c).disk []
  | [], _, h, _ => h
  | x :: rest, c, h, hr =>
    Filling.foldl rest (c.recover shared x) (h.recover (hr.fresh x mem_cons_self)) hr.recover

/-- **Recovery respects the quota**, if the sizes of what it finds add up in a machine word. -/
theorem scanRoot_quota [Crates] {directory : List DirEntry}
    (hsum : (directory.map DirEntry.size).sum < 2 ^ 64) :
    Quota shared.config (scanRoot shared directory).disk := by
  have htotal := Scan.total_foldl shared.config directory ⟨∅, 0, 0⟩
  rw [total_empty, add_zero] at htotal
  have hfits := trim_fits shared.config (directory.foldl (Scan.visit shared.config) ⟨∅, 0, 0⟩).found
    (by rw [Scan.total_found]; omega)
  have hdone : Filling shared.config (scanRoot shared directory).disk [] := by
    refine Filling.foldl _ _ ⟨rfl, ?_, ?_⟩ (recovering_start shared directory rfl rfl)
    · rw [zero_add]
      exact hfits.2
    · change 0 + _ ≤ _
      rw [zero_add]
      exact hfits.1
  exact ⟨hdone.balanced, hdone.bytes, hdone.files⟩

/-! ## Runs -/

namespace DiskWorld

/-- No record that a step may touch is of version 1 and without two bytes left, below the record
limit and below the quota. -/
def Roomy [Crates] (shared : DiskShared) (w : DiskWorld) (op : DiskOp) : Prop :=
  ∀ e ∈ w.disk.records.entries, op.touches shared.config.memory e.1 = true →
    versionOf e.2.contents = 1 → e.2.size + 2 ≤ shared.config.maxRecordBytes
      ∧ w.disk.bytesUsed + 2 ≤ shared.config.maxDiskBytes

instance [Crates] (shared : DiskShared) (w : DiskWorld) (op : DiskOp) :
    Decidable (Roomy shared w op) :=
  inferInstanceAs (Decidable (∀ e ∈ w.disk.records.entries,
    op.touches shared.config.memory e.1 = true → versionOf e.2.contents = 1 →
      e.2.size + 2 ≤ shared.config.maxRecordBytes
        ∧ w.disk.bytesUsed + 2 ≤ shared.config.maxDiskBytes))

theorem quota_step [Crates] (hmax : shared.config.maxDiskBytes < u64Max) {w : DiskWorld}
    {op : DiskOp} (h : Agrees shared.config w.cache ∧ Quota shared.config w.disk)
    (hr : Roomy shared w op) :
    Agrees shared.config (step shared w op).cache ∧
      Quota shared.config (step shared w op).disk := by
  have he := step_effect h.1 op
  refine ⟨h.1.effect he, Quota.effect h.2 h.1 hmax he fun k r hT hk hversion => ?_⟩
  exact (hr ⟨k, r⟩ (mem_entries_iff.mpr hk) hT hversion).2

/-- **The quota holds after every operation**, of every run from every directory in which no
record of version 1 is touched that has no two bytes left, and no lookup of such a run fails for
the length of a record. -/
theorem run_quota [Crates] (shared : DiskShared) (hmax : shared.config.maxDiskBytes < u64Max)
    (directory : List DirEntry) (hsum : (directory.map DirEntry.size).sum < 2 ^ 64)
    (ops : List DiskOp)
    (hops : EveryStep (step shared) (Roomy shared) (opened shared directory) ops) :
    Quota shared.config (run shared directory ops).disk
      ∧ ∀ now request stamp, Roomy shared (run shared directory ops) (.lookup now request stamp) →
        ((run shared directory ops).cache.lookup shared now request stamp).1
          ≠ .error .recordTooLarge := by
  have h := foldl_induct (P := fun w => Agrees _ w.cache ∧ Quota _ w.disk)
    (fun w op h hr => quota_step hmax h hr) ops _ ⟨scanRoot_agrees.1, scanRoot_quota hsum⟩ hops
  refine ⟨h.2, fun now request stamp hroomy hfail => ?_⟩
  obtain ⟨key, old, htouches, hold, hversion, hlong⟩ :=
    (DiskCache.lookup_effect h.1).2 hfail
  have hroom := hroomy ⟨key, old⟩ (mem_entries_iff.mpr hold) htouches hversion
  exact absurd hroom.1 (not_le.mpr hlong)

section

attribute [local instance] Small.crates

/-- With two bytes to spare the record of version 1 is written again, and everything fits. -/
theorem run_quota_rewritten :
    (smallDisk 172 342 (by decide) (by decide)).config.maxDiskBytes < u64Max
      ∧ (legacyDirectory.map DirEntry.size).sum < 2 ^ 64
      ∧ EveryStep (step (smallDisk 172 342 (by decide) (by decide)))
        (Roomy (smallDisk 172 342 (by decide) (by decide)))
        (opened (smallDisk 172 342 (by decide) (by decide)) legacyDirectory) [legacyLookup]
      ∧ (run (smallDisk 172 342 (by decide) (by decide)) legacyDirectory
          [legacyLookup]).disk.bytesUsed = 342
      ∧ Quota (smallDisk 172 342 (by decide) (by decide)).config
          (run (smallDisk 172 342 (by decide) (by decide))
            legacyDirectory [legacyLookup]).disk := by
  have hops : EveryStep (step (smallDisk 172 342 (by decide) (by decide)))
      (Roomy (smallDisk 172 342 (by decide) (by decide)))
      (opened (smallDisk 172 342 (by decide) (by decide)) legacyDirectory) [legacyLookup] := by
    decide +kernel
  have hsum : (legacyDirectory.map DirEntry.size).sum < 2 ^ 64 := by decide +kernel
  exact ⟨by decide, hsum, hops, by decide +kernel,
    (run_quota _ (by decide) _ hsum [legacyLookup] hops).1⟩

/-- A lookup of one of two records of version 1 leaves 342 bytes where 340 are allowed, and with a
record limit of 170 bytes it fails, although the entry is fresh. -/
theorem run_quota_exceeded : (smallDisk 172 340 (by decide) (by decide)).config.validate = true
      ∧ (run (smallDisk 172 340 (by decide) (by decide)) legacyDirectory []).disk.bytesUsed = 340
      ∧ (run (smallDisk 172 340 (by decide) (by decide)) legacyDirectory
          [legacyLookup]).disk.bytesUsed = 342
      ∧ (smallDisk 170 1000 (by decide) (by decide)).config.validate = true
      ∧ ((run (smallDisk 170 1000 (by decide) (by decide)) legacyDirectory []).cache.lookup
          (smallDisk 170 1000 (by decide) (by decide)) (Small.time 0) (Small.request "/a" .empty)
          ⟨Small.time 0, SystemTime.epoch⟩).1 = .error .recordTooLarge := by
  decide +kernel

end

end DiskWorld

end Oxiroute.Cache
