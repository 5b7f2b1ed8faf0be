import Mathlib.Data.List.AList
import Mathlib.Algebra.Order.BigOperators.Group.List
import Mathlib.Algebra.Order.Ring.Nat
import Mathlib.Tactic.Common

/-!
# Hash maps as association lists

A `Table K V` is Mathlib's `AList` at a constant family: a list of entries whose keys are distinct.
The order of the list stands for the order a hash map would be iterated in. `total w t` adds up a
weight over the entries; `total_erase` and `total_insert` are the accounting rules of a store that
keeps such a sum in a counter.
-/

namespace Oxiroute.Lib

open List Option

/-- A finite map from `K` to `V`. -/
abbrev Table (K V : Type) := AList fun _ : K => V

namespace Table

variable {K V : Type}

/-- The number of entries. -/
def size (t : Table K V) : ℕ := t.entries.length

/-- The sum of a weight over the entries. -/
def total (w : V → ℕ) (t : Table K V) : ℕ := (t.entries.map fun e => w e.2).sum

variable {f : K → V → V}

theorem keys_map {l : List (Sigma fun _ : K => V)} :
    (l.map fun e => (⟨e.1, f e.1 e.2⟩ : Sigma fun _ : K => V)).keys = l.keys := by
  simp [keys]

/-- Rewrites every value in place. -/
def mapVals (f : K → V → V) (t : Table K V) : Table K V :=
  ⟨t.entries.map fun e => ⟨e.1, f e.1 e.2⟩, by
    rw [List.NodupKeys, keys_map]
    exact t.nodupKeys⟩

@[simp] theorem size_empty : size (∅ : Table K V) = 0 := rfl

@[simp] theorem total_empty {w : V → ℕ} : total w (∅ : Table K V) = 0 := rfl

@[simp] theorem keys_mapVals {t : Table K V} : (mapVals f t).keys = t.keys :=
  keys_map

@[simp] theorem size_mapVals {t : Table K V} : size (mapVals f t) = size t := by
  simp [size, mapVals]

variable {w : V → ℕ} {t : Table K V} {k k' : K} {v : V}

theorem total_mapVals (h : ∀ k v, w (f k v) = w v) : total w (mapVals f t) = total w t := by
  simp [total, mapVals, Function.comp_def, h]

theorem size_eq_length_keys : size t = t.keys.length := by
  simp [size, AList.keys, keys]

variable [DecidableEq K]

theorem mem_entries_iff : (⟨k, v⟩ : Sigma fun _ : K => V) ∈ t.entries ↔ t.lookup k = some v :=
  (AList.mem_lookup_iff).symm

theorem lookup_mapVals : (mapVals f t).lookup k = (t.lookup k).map (f k) := by
  ext v
  constructor
  · intro h
    obtain ⟨e, he, heq⟩ := mem_map.mp (mem_entries_iff.mpr h)
    obtain ⟨rfl, rfl⟩ := Sigma.mk.inj heq
    exact map_eq_some_iff.mpr ⟨e.2, mem_entries_iff.mp he, rfl⟩
  · intro h
    obtain ⟨u, hu, rfl⟩ := map_eq_some_iff.mp h
    exact mem_entries_iff.mp (mem_map.mpr ⟨⟨k, u⟩, mem_entries_iff.mpr hu, rfl⟩)

/-- Rewrites the value of one key in place. -/
def update (k : K) (f : V → V) (t : Table K V) : Table K V :=
  mapVals (fun k' v => if k' = k then f v else v) t

theorem lookup_update_self {f : V → V} : (update k f t).lookup k = (t.lookup k).map f := by
  simp [update, lookup_mapVals]

theorem lookup_update_ne (h : k' ≠ k) {f : V → V} : (update k f t).lookup k' = t.lookup k' := by
  simp [update, lookup_mapVals, h]

@[simp] theorem size_update {f : V → V} : size (update k f t) = size t :=
  size_mapVals

theorem total_update {f : V → V} (h : ∀ v, w (f v) = w v) (t : Table K V) :
    total w (update k f t) = total w t := by
  refine total_mapVals ?_
  intro k' v
  split_ifs
  · exact h v
  · rfl

/-- `HashMap::retain`, by the values. -/
def retain (p : V → Bool) (t : Table K V) : Table K V :=
  ⟨t.entries.filter fun e => p e.2, by
    have hsublist : (t.entries.filter fun e => p e.2).keys.Sublist t.entries.keys :=
      filter_sublist.map _
    exact hsublist.nodup t.nodupKeys⟩

theorem lookup_retain {p : V → Bool} : (retain p t).lookup k = (t.lookup k).filter p := by
  ext v
  rw [← mem_entries_iff, filter_eq_some_iff, ← mem_entries_iff]
  exact mem_filter

/-! ## Accounting -/

theorem total_erase (h : t.lookup k = some v) : total w (t.erase k) + w v = total w t := by
  have hk : k ∈ t.entries.keys := AList.mem_keys.mp (AList.lookup_isSome.mp (by simp [h]))
  obtain ⟨u, l₁, l₂, _, heq, herase⟩ := exists_of_kerase hk
  have hu : u = v := by
    have hmem : (⟨k, u⟩ : Sigma fun _ : K => V) ∈ t.entries := by simp [heq]
    exact Option.some.inj ((mem_entries_iff.mp hmem).symm.trans h)
  have hl : (t.erase k).entries = l₁ ++ l₂ := herase
  rw [total, total, hl, heq, ← hu]
  simp only [map_append, map_cons, sum_append, sum_cons]
  omega

theorem size_erase (h : k ∈ t) : size (t.erase k) + 1 = size t := by
  have hpos : 0 < t.keys.length := length_pos_of_mem (AList.mem_keys.mp h)
  rw [size_eq_length_keys, size_eq_length_keys, AList.keys_erase,
    length_erase_of_mem (AList.mem_keys.mp h)]
  omega

theorem size_erase_le : size (t.erase k) ≤ size t := by
  rw [size_eq_length_keys, size_eq_length_keys, AList.keys_erase]
  exact length_erase_le

theorem total_insert (h : k ∉ t) : total w (t.insert k v) = w v + total w t := by
  rw [total, total, AList.entries_insert_of_notMem h, map_cons, sum_cons]

theorem total_insert_le (w : V → ℕ) (t : Table K V) (k : K) (v : V) :
    total w (t.insert k v) ≤ w v + total w t := by
  have hentries : (t.insert k v).entries = ⟨k, v⟩ :: (t.erase k).entries := rfl
  rw [total, hentries, map_cons, sum_cons]
  refine Nat.add_le_add_left ?_ _
  cases h : t.lookup k with
  | none =>
    have hnot : t.erase k = t := AList.ext (kerase_of_notMem_keys (AList.lookup_eq_none.mp h))
    rw [hnot, total]
  | some u =>
    have := total_erase (w := w) h
    rw [total] at this
    omega

/-- **Accounting of an insertion**: the weight of what was there goes, the new one comes. -/
theorem total_insert_add (w : V → ℕ) (t : Table K V) (k : K) (v : V) :
    total w (t.insert k v) + ((t.lookup k).map w).getD 0 = total w t + w v := by
  have hentries : total w (t.insert k v) = w v + total w (t.erase k) := rfl
  cases h : t.lookup k with
  | none =>
    rw [total_insert (AList.lookup_eq_none.mp h), map_none, getD_none]
    omega
  | some u =>
    have := total_erase (w := w) h
    rw [hentries, map_some, getD_some]
    omega

theorem total_congr {w' : V → ℕ} (h : ∀ k v, t.lookup k = some v → w v = w' v) :
    total w t = total w' t := by
  refine congrArg List.sum (map_congr_left fun e he => ?_)
  exact h e.1 e.2 (mem_entries_iff.mp he)

/-- Accounting of a weight that changes for the value of one key. -/
theorem total_change {w' : V → ℕ} (h : t.lookup k = some v)
    (hothers : ∀ k' v', k' ≠ k → t.lookup k' = some v' → w v' = w' v') :
    total w' t + w v = total w t + w' v := by
  have hrest : total w (t.erase k) = total w' (t.erase k) := by
    refine total_congr fun k' v' hk' => ?_
    by_cases hk : k' = k
    · rw [hk, AList.lookup_erase] at hk'
      cases hk'
    · rw [AList.lookup_erase_ne hk] at hk'
      exact hothers k' v' hk hk'
  have hold := total_erase (w := w) h
  have hnew := total_erase (w := w') h
  omega

theorem size_insert_of_mem (h : k ∈ t) : size (t.insert k v) = size t := by
  have hentries : size (t.insert k v) = size (t.erase k) + 1 := rfl
  rw [hentries, size_erase h]

theorem size_insert (h : k ∉ t) : size (t.insert k v) = size t + 1 := by
  rw [size, size, AList.entries_insert_of_notMem h, length_cons]

theorem le_total (h : t.lookup k = some v) : w v ≤ total w t := by
  have := total_erase (w := w) h
  omega

theorem erase_of_notMem (h : k ∉ t) : t.erase k = t :=
  AList.ext (kerase_of_notMem_keys h)

theorem lookup_insert : (t.insert k v).lookup k' = if k' = k then some v else t.lookup k' := by
  split_ifs with h
  · rw [h, AList.lookup_insert]
  · exact AList.lookup_insert_ne h

theorem lookup_erase : (t.erase k).lookup k' = if k' = k then none else t.lookup k' := by
  split_ifs with h
  · rw [h, AList.lookup_erase]
  · exact AList.lookup_erase_ne h

theorem mem_of_lookup (h : t.lookup k = some v) : k ∈ t := AList.lookup_isSome.mp (by rw [h]; rfl)

theorem exists_of_mem (h : k ∈ t) : ∃ v, t.lookup k = some v :=
  isSome_iff_exists.mp (AList.lookup_isSome.mpr h)

theorem of_lookup_insert {v' : V} (h : (t.insert k v).lookup k' = some v') :
    k' = k ∧ v = v' ∨ k' ≠ k ∧ t.lookup k' = some v' := by
  rw [lookup_insert] at h
  split_ifs at h with hk
  · exact .inl ⟨hk, Option.some.inj h⟩
  · exact .inr ⟨hk, h⟩

theorem of_lookup_erase (h : (t.erase k).lookup k' = some v) : k' ≠ k ∧ t.lookup k' = some v := by
  rw [lookup_erase] at h
  split_ifs at h with hk
  exact ⟨hk, h⟩

end Table

end Oxiroute.Lib
