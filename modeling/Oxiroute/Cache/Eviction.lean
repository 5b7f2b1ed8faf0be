import Oxiroute.Cache.Recency
import Oxiroute.Cache.System

/-!
# Eviction from the memory cache

`insert_entry` removes least recently used entries until the new one fits. `Numbered`: the numbers
of the accesses stay apart, also when the entries are numbered anew, so which entry is the oldest is
never a tie. `Covered`: the counter of bytes never exceeds the charges of what is stored, so an
entry within the quota fits an empty cache. `makeRoom_evicts` says what the loop removes (`Evicts`),
and `World.run_numbered` puts it together over whole runs.
-/

namespace Oxiroute.Cache.State

open Lib List

variable {s t : State} {k k' key : CacheKey} {keys : List CacheKey} {config : CacheConfig}
  {entry : PreparedEntry} {charge : ℕ}

/-! ## Numbers of their own -/

/-- No two entries have the same number, and none has one yet to come. -/
structure Numbered (s : State) : Prop where
  distinct : ∀ k k' a, s.accessOf k = some a → s.accessOf k' = some a → k = k'
  aged : Aged s

theorem numbered_init : Numbered State.init :=
  ⟨fun k k' a h => by simp [accessOf, State.init] at h, aged_init⟩

theorem SameEntries.numbered (h : SameEntries s t) (hn : Numbered s) : Numbered t :=
  ⟨fun k k' a hk hk' => hn.distinct k k' a (h.accessOf ▸ hk) (h.accessOf ▸ hk'), h.aged hn.aged⟩

theorem Numbered.dropEntries (h : Numbered s) : Numbered (s.dropEntries keys) :=
  ⟨fun k k' a hk hk' => h.distinct k k' a (keeps_dropEntries k a hk) (keeps_dropEntries k' a hk'),
    h.aged.dropEntries⟩

theorem Numbered.dropEntry (h : Numbered s) : Numbered (s.dropEntry key) :=
  show Numbered (s.dropEntries [key]) from h.dropEntries

theorem Numbered.older_or (h : Numbered s) (hk : k ∈ s.entries) (hk' : k' ∈ s.entries)
    (hne : k ≠ k') : Older s k k' ∨ Older s k' k := by
  obtain ⟨a, ha⟩ := accessOf_isSome hk
  obtain ⟨b, hb⟩ := accessOf_isSome hk'
  rcases Nat.lt_trichotomy a b with hlt | rfl | hlt
  · exact .inl ⟨a, b, ha, hb, hlt⟩
  · exact absurd (h.distinct k k' a ha hb) hne
  · exact .inr ⟨b, a, hb, ha, hlt⟩

theorem Older.asymm (h : Older s k k') : ¬Older s k' k := by
  obtain ⟨a, b, ha, hb, hlt⟩ := h
  rintro ⟨b', a', hb', ha', hlt'⟩
  rw [ha] at ha'
  rw [hb] at hb'
  cases ha'
  cases hb'
  omega

theorem Numbered.older_nextSequence (h : Numbered s) :
    Older s.nextSequence.2 k k' ↔ Older s k k' := by
  refine ⟨fun ho => ?_, Older.nextSequence⟩
  obtain ⟨a, b, ha, hb, hlt⟩ := ho
  have hne : k ≠ k' := by
    rintro rfl
    rw [ha] at hb
    cases hb
    omega
  have hk := mem_nextSequence.mp (mem_of_accessOf ha)
  have hk' := mem_nextSequence.mp (mem_of_accessOf hb)
  refine (h.older_or hk hk' hne).resolve_right fun ho => ?_
  exact Older.asymm ⟨a, b, ha, hb, hlt⟩ ho.nextSequence

theorem Numbered.of_number (h : Numbered s) (key : CacheKey)
    (hsequence : t.sequence = s.nextSequence.1)
    (hkey : ∀ a, t.accessOf key = some a → a = s.nextSequence.1)
    (hother : ∀ k, k ≠ key → t.accessOf k = s.nextSequence.2.accessOf k) : Numbered t := by
  have hlt : ∀ k a, k ≠ key → t.accessOf k = some a → a < s.nextSequence.1 := fun k a hne ha =>
    h.aged.lt_nextSequence ((hother k hne).symm.trans ha)
  refine ⟨fun k k' a ha ha' => ?_, aged_of_number h.aged hsequence hkey hother⟩
  by_contra hne
  by_cases hk : k = key
  · subst hk
    exact (hlt k' a (Ne.symm hne) ha').ne (hkey a ha)
  · by_cases hk' : k' = key
    · subst hk'
      exact (hlt k a hk ha).ne (hkey a ha')
    · rw [hother k hk] at ha
      rw [hother k' hk'] at ha'
      -- the order of the two was kept, so one of them has the smaller number
      rcases h.older_or (mem_nextSequence.mp (mem_of_accessOf ha))
        (mem_nextSequence.mp (mem_of_accessOf ha')) hne with ho | ho
      all_goals
        obtain ⟨x, y, hx, hy, hxy⟩ := ho.nextSequence
        simp_all

theorem Numbered.accessed (h : Numbered s) (ha : Accessed s key t) : Numbered t := by
  refine h.of_number key ha.sequence (fun a hk => ?_) fun k hne => ?_
  · rw [accessOf, ha.entries, State.touch, Table.lookup_update_self, Option.map_map] at hk
    obtain ⟨m, -, rfl⟩ := Option.map_eq_some_iff.mp hk
    rfl
  · rw [accessOf, ha.entries, State.touch, Table.lookup_update_ne hne, accessOf]

theorem Numbered.makeRoom (h : Numbered s) : Numbered (s.makeRoom config entry).2 :=
  ⟨fun k k' a hk hk' => h.distinct k k' a (keeps_makeRoom k a hk) (keeps_makeRoom k' a hk'),
    h.aged.makeRoom⟩

theorem Numbered.insertEntry (h : Numbered s) : Numbered (s.insertEntry config entry).2 := by
  refine h.makeRoom.of_number entry.key (insertEntry_sequence config) (fun a hk => ?_)
    fun k hne => ?_
  · rw [accessOf, insertEntry_entries, AList.lookup_insert] at hk
    exact (Option.some.inj hk).symm
  · rw [accessOf, insertEntry_entries, Table.lookup_insert, if_neg hne, accessOf]

/-! ## Eviction -/

theorem Numbered.lru_older (h : Numbered s) (hl : s.lru = some key) (hk : k ∈ s.entries)
    (hne : k ≠ key) : Older s key k := by
  refine (h.older_or hk (lru_mem hl) hne).resolve_left fun ho => ?_
  obtain ⟨a, b, ha, hb, hlt⟩ := ho
  obtain ⟨e, he, rfl⟩ := Option.map_eq_some_iff.mp hl
  obtain ⟨m, hm, rfl⟩ := Option.map_eq_some_iff.mp ha
  rw [accessOf, Table.mem_entries_iff.mp (argmin_mem he)] at hb
  cases hb
  have hle := le_of_mem_argmin (Table.mem_entries_iff.mpr hm) he
  exact absurd (Prod.Lex.monotone_fst _ _ hle) (not_le.mpr hlt)

theorem Keeps.of_older (h : Keeps s t) (ho : Older t k k') : Older s k k' := by
  obtain ⟨a, b, ha, hb, hlt⟩ := ho
  exact ⟨a, b, h k a ha, h k' b hb, hlt⟩

theorem keeps_dropEntry : Keeps s (s.dropEntry key) :=
  show Keeps s (s.dropEntries [key]) from keeps_dropEntries

theorem mem_dropEntry (h : k ∈ (s.dropEntry key).entries) : k ∈ s.entries ∧ k ≠ key := by
  rw [dropEntry_entries, AList.mem_erase] at h
  exact h.symm

/-- The keys are evicted from the oldest on, none of them while a new entry of the charge fits. -/
structure Evicts (config : CacheConfig) (charge : ℕ) (s : State) (keys : List CacheKey) : Prop where
  stored : ∀ k ∈ keys, k ∈ s.entries
  order : keys.Pairwise (Older s)
  oldest : ∀ k ∈ keys, ∀ k' ∈ (s.dropEntries keys).entries, Older s k k'
  needed : ∀ m < keys.length, overfull config charge (s.dropEntries (keys.take m)) = true

theorem Evicts.cons (h : Numbered s) (hl : s.lru = some key)
    (hover : overfull config charge s = true) (he : Evicts config charge (s.dropEntry key) keys) :
    Evicts config charge s (key :: keys) where
  stored := forall_mem_cons.mpr ⟨lru_mem hl, fun k hk => (mem_dropEntry (he.stored k hk)).1⟩
  order := pairwise_cons.mpr ⟨fun k hk =>
      have hmem := mem_dropEntry (he.stored k hk)
      h.lru_older hl hmem.1 hmem.2,
    he.order.imp keeps_dropEntry.of_older⟩
  oldest := by
    refine forall_mem_cons.mpr ⟨fun k' hk' => ?_, fun k hk k' hk' =>
      keeps_dropEntry.of_older (he.oldest k hk k' hk')⟩
    obtain ⟨a, ha⟩ := accessOf_isSome hk'
    have hmem := mem_dropEntry (mem_of_accessOf (keeps_dropEntries k' a ha))
    exact h.lru_older hl hmem.1 hmem.2
  needed m hm := by
    cases m with
    | zero => exact hover
    | succ m => exact he.needed m (Nat.lt_of_succ_lt_succ hm)

theorem evicts_nil {evicted : List CacheKey} :
    ∃ keys, (evicted, s) = (evicted ++ keys, s.dropEntries keys) ∧ Evicts config charge s keys :=
  ⟨[], by simp [dropEntries], by simp, .nil, by simp, by simp⟩

theorem evictLoop_evicts (config : CacheConfig) (charge fuel : ℕ) (evicted : List CacheKey)
    (h : Numbered s) :
    ∃ keys, evictLoop config charge fuel s evicted = (evicted ++ keys, s.dropEntries keys) ∧
      Evicts config charge s keys := by
  induction fuel generalizing s evicted with
  | zero => exact evicts_nil
  | succ fuel ih =>
    unfold evictLoop
    by_cases hover : overfull config charge s = true
    · rw [if_pos hover]
      cases hl : s.lru with
      | none => exact evicts_nil
      | some key =>
        obtain ⟨keys, heq, he⟩ := ih (evicted ++ [key]) (h.dropEntry)
        refine ⟨key :: keys, heq.trans ?_, .cons h hl hover he⟩
        rw [append_assoc]
        rfl
    · rw [if_neg hover]
      exact evicts_nil

/-! ## The counter of bytes -/

/-- The counter of bytes is never above the charges of what is stored: saturation only lowers it. -/
def Covered (s : State) : Prop :=
  s.bytesUsed ≤ Table.total (fun stored => stored.entry.charge) s.entries

theorem SameEntries.covered (h : SameEntries s t) (hc : Covered s) : Covered t := by
  rw [Covered, h.bytesUsed, h.entries]
  exact hc

theorem Covered.dropEntry (h : Covered s) : Covered (s.dropEntry key) := by
  unfold Covered State.dropEntry at *
  cases hk : s.entries.lookup key with
  | none => exact h
  | some stored =>
    have := Table.total_erase (w := fun stored : StoredEntry => stored.entry.charge) hk
    simp only
    omega

theorem Covered.dropEntries (h : Covered s) : Covered (s.dropEntries keys) :=
  dropEntries_induct (fun _ _ h => h.dropEntry) keys s h

theorem Covered.accessed (h : Covered s) (ha : Accessed s key t) : Covered t := by
  have htouch := Table.total_update (k := key) (w := fun stored => stored.entry.charge)
    (f := fun stored => { stored with lastAccess := s.nextSequence.1 }) (fun _ => rfl)
    s.nextSequence.2.entries
  rw [Covered, ha.bytesUsed, ha.entries]
  exact h.trans (htouch.trans total_nextSequence).ge

theorem Covered.insertEntry (h : Covered s) : Covered (s.insertEntry config entry).2 := by
  have hroom : Covered (s.makeRoom config entry).2 := makeRoom_induct (fun _ _ h => h.dropEntry) h
  have hnew : entry.key ∉ (s.makeRoom config entry).2.nextSequence.2.entries := fun hmem => by
    obtain ⟨e, he⟩ := mem_entries_iff.mp hmem
    rw [entry_nextSequence] at he
    exact (entry_makeRoom he).2.1 rfl
  rw [Covered, insertEntry_bytesUsed, insertEntry_entries, Table.total_insert hnew,
    total_nextSequence, add_comm]
  exact (min_le_left _ _).trans (Nat.add_le_add_right hroom _)

theorem Covered.fits (h : Covered s) (hempty : Table.size s.entries = 0)
    (hover : overfull config charge s = true) :
    config.maxEntries = 0 ∨ config.maxTotalBytes < charge := by
  have hzero : s.bytesUsed = 0 := by
    rw [Covered, Table.total, eq_nil_of_length_eq_zero hempty] at h
    exact Nat.le_zero.mp h
  simp only [overfull, hempty, hzero, satAdd, Bool.or_eq_true, decide_eq_true_eq] at hover
  omega

/-- The state of `insert_entry` before its eviction loop: what the new entry replaces is gone. -/
def replaced (s : State) (key : CacheKey) : State :=
  (s.dropEntry key).dropEntries ((s.dropEntry key).conflicting key)

/-- Making room evicts from the oldest on, until the new entry fits or nothing is left. -/
theorem makeRoom_evicts (h : Numbered s) (hc : Covered s) : ∃ evicted,
    (s.makeRoom config entry).1.2 = evicted.length ∧
    (s.makeRoom config entry).2 = (s.replaced entry.key).dropEntries evicted ∧
    Evicts config entry.charge (s.replaced entry.key) evicted ∧
    (overfull config entry.charge (s.makeRoom config entry).2 = true →
      Table.size (s.makeRoom config entry).2.entries = 0 ∧
        (config.maxEntries = 0 ∨ config.maxTotalBytes < entry.charge)) := by
  have hn : Numbered (s.replaced entry.key) := h.dropEntry.dropEntries
  obtain ⟨evicted, heq, he⟩ := evictLoop_evicts config entry.charge
    (Table.size (s.replaced entry.key).entries) [] hn
  refine ⟨evicted, congrArg (fun r => r.1.length) heq, congrArg Prod.snd heq, he, fun hover => ?_⟩
  have hempty := (makeRoom_done config s).resolve_left (ne_of_eq_of_ne hover (by decide))
  exact ⟨hempty, (makeRoom_induct (fun _ _ h => h.dropEntry) hc).fits hempty hover⟩

end Oxiroute.Cache.State

namespace Oxiroute.Cache.World

open Http

variable {config : CacheConfig} {s t : State} {inserted : Option PreparedEntry}

theorem EntryEffect.numbered (h : EntryEffect config s t inserted)
    (hs : s.Numbered ∧ s.Covered) : t.Numbered ∧ t.Covered := by
  obtain ⟨hn, hc⟩ := hs
  cases h with
  | same hs => exact ⟨hs.numbered hn, hs.covered hc⟩
  | removed keys hs => exact ⟨hs.numbered hn.dropEntries, hs.covered hc.dropEntries⟩
  | accessed key ha => exact ⟨hn.accessed ha, hc.accessed ha⟩
  | inserted entry hs => exact ⟨hs.numbered hn.insertEntry, hs.covered hc.insertEntry⟩

end Oxiroute.Cache.World
