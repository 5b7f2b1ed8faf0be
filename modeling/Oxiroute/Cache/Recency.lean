import Oxiroute.Cache.Effects

/-!
# The order of access

The memory cache numbers accesses and numbers the entries anew when the numbers run out. `Older`
compares two entries by their last access. Numbering anew keeps it, an access makes its entry the
newest, and so does an insertion (`Renewed`).
-/

namespace Oxiroute.Cache.State

open Lib Table Option

def accessOf (s : State) (k : CacheKey) : Option ℕ :=
  (s.entries.lookup k).map StoredEntry.lastAccess

/-- Both keys have entries, and the first was accessed before the second. -/
def Older (s : State) (k k' : CacheKey) : Prop :=
  ∃ a b, s.accessOf k = some a ∧ s.accessOf k' = some b ∧ a < b

/-- No entry was accessed with a number yet to come. -/
def Aged (s : State) : Prop := ∀ k a, s.accessOf k = some a → a ≤ s.sequence

variable {s t : State} {k k' key : CacheKey} {a : ℕ}

theorem accessOf_isSome (h : k ∈ s.entries) : ∃ a, s.accessOf k = some a := by
  obtain ⟨m, hm⟩ := exists_of_mem h
  exact ⟨m.lastAccess, by rw [accessOf, hm, map_some]⟩

theorem SameEntries.accessOf (h : SameEntries s t) : t.accessOf k = s.accessOf k := by
  rw [State.accessOf, State.accessOf, h.entries]

theorem SameEntries.aged (h : SameEntries s t) (ha : Aged s) : Aged t := by
  intro k a hk
  rw [h.sequence]
  exact ha k a (h.accessOf ▸ hk)

theorem SameEntries.older (h : SameEntries s t) (ho : Older s k k') : Older t k k' := by
  unfold Older
  rw [h.accessOf, h.accessOf]
  exact ho

theorem aged_init : Aged State.init := by
  intro k a h
  simp [accessOf, State.init] at h

/-! ## Removal -/

theorem accessOf_dropEntry :
    (s.dropEntry key).accessOf k = if k = key then none else s.accessOf k := by
  rw [accessOf, accessOf, dropEntry_entries, lookup_erase]
  split_ifs <;> rfl

theorem Aged.dropEntry (h : Aged s) : Aged (s.dropEntry key) := by
  intro k a hk
  rw [accessOf_dropEntry] at hk
  split_ifs at hk
  rw [dropEntry_sequence]
  exact h k a hk

variable {keys : List CacheKey} {config : CacheConfig} {entry : PreparedEntry}

theorem Aged.dropEntries (h : Aged s) : Aged (s.dropEntries keys) :=
  dropEntries_induct (fun _ _ h => h.dropEntry) keys s h

theorem Aged.makeRoom (h : Aged s) : Aged (s.makeRoom config entry).2 :=
  makeRoom_induct (fun _ _ h => h.dropEntry) h

/-- The entries of a state that are left have the access numbers they had. -/
def Keeps (s t : State) : Prop := ∀ k a, t.accessOf k = some a → s.accessOf k = some a

theorem Keeps.dropEntry (h : Keeps s t) : Keeps s (t.dropEntry key) := by
  intro k a hk
  rw [accessOf_dropEntry] at hk
  split_ifs at hk
  exact h k a hk

theorem keeps_dropEntries : Keeps s (s.dropEntries keys) :=
  dropEntries_induct (fun _ _ h => h.dropEntry) keys s fun _ _ h => h

theorem keeps_makeRoom : Keeps s (s.makeRoom config entry).2 :=
  makeRoom_induct (fun _ _ h => h.dropEntry) fun _ _ h => h

theorem Keeps.older (h : Keeps s t) (hk : k ∈ t.entries) (hk' : k' ∈ t.entries)
    (ho : Older s k k') :
    Older t k k' := by
  obtain ⟨a, b, ha, hb, hlt⟩ := ho
  obtain ⟨a', ha'⟩ := accessOf_isSome hk
  obtain ⟨b', hb'⟩ := accessOf_isSome hk'
  cases ha.symm.trans (h k a' ha')
  cases hb.symm.trans (h k' b' hb')
  exact ⟨a, b, ha', hb', hlt⟩

/-! ## Numbering -/

def sorted (s : State) : List (Sigma fun _ : CacheKey => StoredEntry) :=
  s.entries.entries.insertionSort fun a b =>
    toLex (a.2.lastAccess, a.1) ≤ toLex (b.2.lastAccess, b.1)

theorem accessOrder_eq : s.accessOrder = s.sorted.map Sigma.fst := rfl

theorem mem_sorted {e : Sigma fun _ : CacheKey => StoredEntry} :
    e ∈ s.sorted ↔ s.entries.lookup e.1 = some e.2 := by
  rw [sorted, (List.perm_insertionSort _ _).mem_iff]
  exact Table.mem_entries_iff

theorem length_accessOrder : s.accessOrder.length = Table.size s.entries := by
  rw [accessOrder_eq, List.length_map, sorted, List.length_insertionSort]
  rfl

theorem mem_accessOrder (h : k ∈ s.entries) : k ∈ s.accessOrder := by
  obtain ⟨m, hm⟩ := exists_of_mem h
  exact List.mem_map.mpr ⟨⟨k, m⟩, mem_sorted.mpr hm, rfl⟩

theorem mem_of_accessOf (h : s.accessOf k = some a) : k ∈ s.entries := by
  obtain ⟨m, hm, _⟩ := map_eq_some_iff.mp h
  exact mem_of_lookup hm

theorem sorted_idxOf (h : s.accessOf k = some a) :
    ∃ e, s.sorted[s.accessOrder.idxOf k]? = some e ∧ e.1 = k ∧ e.2.lastAccess = a := by
  have hmem := mem_accessOrder (mem_of_accessOf h)
  have hget := List.getElem?_idxOf hmem
  rw [accessOrder_eq, List.getElem?_map, ← accessOrder_eq] at hget
  obtain ⟨e, he, hek⟩ := map_eq_some_iff.mp hget
  refine ⟨e, he, hek, ?_⟩
  have hlookup := mem_sorted.mp (List.mem_of_getElem? he)
  rw [accessOf, ← hek, hlookup, map_some] at h
  exact Option.some.inj h

theorem Older.idxOf_lt (h : Older s k k') : s.accessOrder.idxOf k < s.accessOrder.idxOf k' := by
  obtain ⟨a, b, ha, hb, hlt⟩ := h
  obtain ⟨e, he, rfl, rfl⟩ := sorted_idxOf ha
  obtain ⟨e', he', rfl, rfl⟩ := sorted_idxOf hb
  by_contra hge
  rcases (not_lt.mp hge).lt_or_eq with hless | heq
  · -- the list is sorted, so the later place has the later access
    have hsorted : s.sorted.Pairwise fun a b =>
        toLex (a.2.lastAccess, a.1) ≤ toLex (b.2.lastAccess, b.1) := by
      exact List.pairwise_insertionSort _ _
    obtain ⟨hi, hei⟩ := List.getElem?_eq_some_iff.mp he
    obtain ⟨hi', hei'⟩ := List.getElem?_eq_some_iff.mp he'
    have hle := List.pairwise_iff_getElem.mp hsorted _ _ hi' hi hless
    rw [hei, hei'] at hle
    exact absurd (Prod.Lex.monotone_fst _ _ hle) (not_le.mpr hlt)
  · rw [heq, he] at he'
    cases he'
    exact absurd hlt (lt_irrefl _)

theorem accessOf_renumber :
    s.renumber.accessOf k = (s.accessOf k).map fun _ => s.accessOrder.idxOf k := by
  simp only [accessOf, renumber, lookup_mapVals, map_map]
  rfl

theorem Older.renumber (h : Older s k k') : Older s.renumber k k' := by
  have hlt := h.idxOf_lt
  obtain ⟨a, b, ha, hb, _⟩ := h
  exact ⟨_, _, by rw [accessOf_renumber, ha, map_some],
    by rw [accessOf_renumber, hb, map_some], hlt⟩

theorem aged_renumber : Aged s.renumber := by
  intro k a h
  rw [accessOf_renumber] at h
  obtain ⟨b, hb, rfl⟩ := map_eq_some_iff.mp h
  have hlt := List.idxOf_lt_length_iff.mpr (mem_accessOrder (mem_of_accessOf hb))
  rw [length_accessOrder] at hlt
  exact hlt.le

theorem Older.nextSequence (h : Older s k k') : Older s.nextSequence.2 k k' := by
  unfold State.nextSequence
  by_cases hmax : s.sequence = u64Max
  · simp only [if_pos hmax]
    exact h.renumber
  · simp only [if_neg hmax]
    exact h

theorem Aged.lt_nextSequence (h : Aged s) (hk : s.nextSequence.2.accessOf k = some a) :
    a < s.nextSequence.1 := by
  unfold State.nextSequence at hk ⊢
  by_cases hmax : s.sequence = u64Max
  · simp only [if_pos hmax] at hk ⊢
    exact Nat.lt_succ_of_le (aged_renumber k a hk)
  · simp only [if_neg hmax] at hk ⊢
    exact Nat.lt_succ_of_le (h k a hk)

theorem mem_nextSequence : k ∈ s.nextSequence.2.entries ↔ k ∈ s.entries := by
  rw [AList.mem_keys, AList.mem_keys, keys_nextSequence]

/-! ## Access and insertion -/

/-- An entry has become the newest; the order of the others that are left is the one they had. -/
structure Renewed (s t : State) (key : CacheKey) : Prop where
  aged : Aged t
  newest : ∀ k, k ≠ key → k ∈ t.entries → Older t k key
  others : ∀ k k', k ≠ key → k' ≠ key → k ∈ t.entries → k' ∈ t.entries → Older s k k' → Older t k k'

theorem SameEntries.renewed {u : State} (h : SameEntries t u) (hr : Renewed s t key) :
    Renewed s u key := by
  refine ⟨h.aged hr.aged, fun k hne hk => ?_, fun k k' hne hne' hk hk' ho => ?_⟩
  · rw [h.entries] at hk
    exact h.older (hr.newest k hne hk)
  · rw [h.entries] at hk hk'
    exact h.older (hr.others k k' hne hne' hk hk' ho)

theorem aged_of_number (hs : Aged s) (hsequence : t.sequence = s.nextSequence.1)
    (hkey : ∀ a, t.accessOf key = some a → a = s.nextSequence.1)
    (hother : ∀ k, k ≠ key → t.accessOf k = s.nextSequence.2.accessOf k) : Aged t := by
  intro k a hk
  rw [hsequence]
  by_cases heq : k = key
  · exact (hkey a (heq ▸ hk)).le
  · rw [hother k heq] at hk
    exact (hs.lt_nextSequence hk).le

theorem renewed_of_number (hs : Aged s) (hsequence : t.sequence = s.nextSequence.1)
    (hkey : t.accessOf key = some s.nextSequence.1)
    (hother : ∀ k, k ≠ key → t.accessOf k = s.nextSequence.2.accessOf k) : Renewed s t key := by
  refine ⟨aged_of_number hs hsequence (fun a ha => Option.some.inj (ha.symm.trans hkey)) hother,
    fun k hne hk => ?_, fun k k' hne hne' _ _ ho => ?_⟩
  · obtain ⟨a, ha⟩ := accessOf_isSome hk
    have hnumbered : s.nextSequence.2.accessOf k = some a := by rw [← hother k hne, ha]
    exact ⟨a, _, ha, hkey, hs.lt_nextSequence hnumbered⟩
  · obtain ⟨a, b, ha, hb, hlt⟩ := ho.nextSequence
    exact ⟨a, b, by rw [hother k hne, ha], by rw [hother k' hne', hb], hlt⟩

/-- **An access makes its entry the newest**. -/
theorem Accessed.renewed (h : Accessed s key t) (hs : Aged s) (hkey : key ∈ s.entries) :
    Renewed s t key := by
  obtain ⟨m, hm⟩ := exists_of_mem (mem_nextSequence.mpr hkey)
  refine renewed_of_number hs h.sequence ?_ fun k hne => ?_
  · rw [accessOf, h.entries, State.touch, lookup_update_self, hm]
    rfl
  · rw [accessOf, h.entries, State.touch, lookup_update_ne hne, accessOf]

/-- **An insertion makes its entry the newest**. -/
theorem renewed_insertEntry (hs : Aged s) : Renewed s (s.insertEntry config entry).2 entry.key := by
  have hroom : Aged (s.makeRoom config entry).2 := hs.makeRoom
  have hlookup : ∀ k, k ≠ entry.key → (s.insertEntry config entry).2.accessOf k
      = (s.makeRoom config entry).2.nextSequence.2.accessOf k := fun k hne => by
    rw [accessOf, insertEntry_entries, lookup_insert, if_neg hne, accessOf]
  have hnew : Renewed (s.makeRoom config entry).2 (s.insertEntry config entry).2 entry.key := by
    refine renewed_of_number hroom (insertEntry_sequence config) ?_ hlookup
    rw [accessOf, insertEntry_entries, AList.lookup_insert, map_some]
  refine ⟨hnew.aged, hnew.newest, fun k k' hne hne' hk hk' ho => ?_⟩
  refine hnew.others k k' hne hne' hk hk' ?_
  have hleft : ∀ k, k ≠ entry.key → k ∈ (s.insertEntry config entry).2.entries →
      k ∈ (s.makeRoom config entry).2.entries := by
    intro k hne hk
    obtain ⟨a, ha⟩ := accessOf_isSome hk
    rw [hlookup k hne] at ha
    exact mem_nextSequence.mp (mem_of_accessOf ha)
  exact keeps_makeRoom.older (hleft k hne hk) (hleft k' hne' hk') ho

end Oxiroute.Cache.State
