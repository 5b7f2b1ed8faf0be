import Oxiroute.Cache.Memory

/-!
# What the cache operations change

The state has two halves that no operation mixes except `FillGuard.storeClaimed`: the entries with
their counters, and the fills with their signals. `SameEntries` and `SameFills` say that an
operation leaves one half alone. Within the first half everything is made of three steps, and
`LookupEffect` says which of them a lookup took for which answer:

* an entry is removed (`dropEntry`), which keeps the byte counter equal to the sum of the charges;
* an entry is accessed (`nextSequence`, `touch`), which changes access numbers only;
* an entry is inserted (`makeRoom`, `insertEntry`).

`Shrinks s t` says that `t` stores nothing that `s` did not store. `makeRoom` shrinks the state to
one in which the new entry conflicts with nothing, and in which it fits unless nothing is left.
-/

namespace Oxiroute.Cache

open Lib Http State Table List
open Table (size total)

namespace State

structure SameEntries (s t : State) : Prop where
  entries : t.entries = s.entries
  bytesUsed : t.bytesUsed = s.bytesUsed
  sequence : t.sequence = s.sequence

structure SameFills (s t : State) : Prop where
  flights : t.flights = s.flights
  signals : t.signals = s.signals
  nextGeneration : t.nextGeneration = s.nextGeneration

theorem SameEntries.refl (s : State) : SameEntries s s := ⟨rfl, rfl, rfl⟩

theorem SameFills.refl (s : State) : SameFills s s := ⟨rfl, rfl, rfl⟩

variable {s t u : State} {k key : CacheKey} {P : State → Prop}

theorem SameFills.trans (h : SameFills s t) (h' : SameFills t u) : SameFills s u :=
  ⟨h'.flights.trans h.flights, h'.signals.trans h.signals, h'.nextGeneration.trans h.nextGeneration⟩

/-- Nothing is stored in `t` that is not stored in `s`. -/
def Shrinks (s t : State) : Prop := ∀ k e, t.entry k = some e → s.entry k = some e

theorem Shrinks.refl : Shrinks s s := fun _ _ h => h

theorem Shrinks.trans (h : Shrinks s t) (h' : Shrinks t u) : Shrinks s u :=
  fun k e hu => h k e (h' k e hu)

theorem SameEntries.entry (h : SameEntries s t) : t.entry k = s.entry k := by
  rw [State.entry, State.entry, h.entries]

theorem SameEntries.shrinks (h : SameEntries s t) : Shrinks s t := by
  intro k e he
  rwa [← h.entry]

/-- The byte counter is the sum of the charges. -/
def Balanced (s : State) : Prop :=
  s.bytesUsed = total (fun stored => stored.entry.charge) s.entries

theorem SameEntries.balanced (h : SameEntries s t) (hb : Balanced s) : Balanced t := by
  unfold Balanced
  rw [h.bytesUsed, h.entries]
  exact hb

theorem mem_entries_iff : k ∈ s.entries ↔ ∃ e, s.entry k = some e := by
  rw [← AList.lookup_isSome, Option.isSome_iff_exists]
  simp only [entry, Option.map_eq_some_iff]
  constructor
  · rintro ⟨stored, h⟩
    exact ⟨_, stored, h, rfl⟩
  · rintro ⟨_, stored, h, _⟩
    exact ⟨stored, h⟩

/-! ## Removing entries -/

theorem dropEntry_entries : (s.dropEntry key).entries = s.entries.erase key := by
  unfold dropEntry
  cases h : s.entries.lookup key with
  | none =>
    have hk : key ∉ s.entries := AList.lookup_eq_none.mp h
    simp only [erase_of_notMem hk]
  | some stored => rfl

theorem dropEntry_sequence : (s.dropEntry key).sequence = s.sequence := by
  unfold dropEntry
  cases s.entries.lookup key <;> rfl

theorem sameFills_dropEntry (s : State) (key : CacheKey) : SameFills s (s.dropEntry key) := by
  unfold dropEntry
  cases s.entries.lookup key with
  | none => exact .refl s
  | some stored => exact ⟨rfl, rfl, rfl⟩

theorem entry_dropEntry : (s.dropEntry key).entry k = if k = key then none else s.entry k := by
  rw [entry, entry, dropEntry_entries, lookup_erase]
  split_ifs <;> rfl

theorem shrinks_dropEntry : Shrinks s (s.dropEntry key) := by
  intro k e h
  rw [entry_dropEntry] at h
  split_ifs at h
  exact h

theorem Balanced.dropEntry (h : Balanced s) : Balanced (s.dropEntry key) := by
  unfold Balanced at h ⊢
  unfold State.dropEntry
  cases hk : s.entries.lookup key with
  | none => exact h
  | some stored =>
    have := total_erase (w := fun stored : StoredEntry => stored.entry.charge) hk
    simp only
    omega

theorem dropEntry_bytesUsed_le (s : State) : (s.dropEntry key).bytesUsed ≤ s.bytesUsed := by
  unfold dropEntry
  cases s.entries.lookup key with
  | none => exact le_refl _
  | some stored => exact Nat.sub_le _ _

theorem size_dropEntry_le (s : State) : size (s.dropEntry key).entries ≤ size s.entries := by
  rw [dropEntry_entries]
  exact size_erase_le

theorem dropEntries_induct (step : ∀ s key, P s → P (s.dropEntry key)) :
    ∀ (keys : List CacheKey) (s : State), P s → P (s.dropEntries keys)
  | [], _, h => h
  | key :: keys, s, h => dropEntries_induct step keys (s.dropEntry key) (step s key h)

variable (keys : List CacheKey) (config : CacheConfig) (now : MonoTime) (charge : ℕ)
  (request : RequestKeyInput) (fuel : ℕ)

theorem entry_dropEntries :
    (s.dropEntries keys).entry k = if k ∈ keys then none else s.entry k := by
  induction keys generalizing s with
  | nil => simp [dropEntries]
  | cons key keys ih =>
    have hstep : s.dropEntries (key :: keys) = (s.dropEntry key).dropEntries keys := rfl
    rw [hstep, ih, entry_dropEntry]
    by_cases hk : k = key
    · simp [hk]
    · simp [hk]

theorem sameFills_dropEntries (s : State) : SameFills s (s.dropEntries keys) :=
  dropEntries_induct (fun t key h => h.trans (sameFills_dropEntry t key)) keys s (.refl s)

theorem shrinks_dropEntries : Shrinks s (s.dropEntries keys) :=
  dropEntries_induct (fun _ _ h => h.trans shrinks_dropEntry) keys s .refl

/-! ## Access numbers -/

theorem sameFills_nextSequence (s : State) : SameFills s s.nextSequence.2 := by
  unfold nextSequence
  by_cases h : s.sequence = u64Max
  · simp only [h, if_true]
    exact ⟨rfl, rfl, rfl⟩
  · simp only [h, if_false]
    exact ⟨rfl, rfl, rfl⟩

theorem entry_nextSequence (s : State) (k : CacheKey) : s.nextSequence.2.entry k = s.entry k := by
  unfold nextSequence
  by_cases h : s.sequence = u64Max
  · simp only [h, if_true, entry, renumber, lookup_mapVals, Option.map_map]
    rfl
  · simp only [h, if_false]
    rfl

theorem nextSequence_bytesUsed (s : State) : s.nextSequence.2.bytesUsed = s.bytesUsed := by
  unfold nextSequence
  by_cases h : s.sequence = u64Max
  · simp only [h, if_true]
    rfl
  · simp [h]

theorem total_nextSequence : total (fun stored => stored.entry.charge) s.nextSequence.2.entries
      = total (fun stored => stored.entry.charge) s.entries := by
  unfold nextSequence
  by_cases h : s.sequence = u64Max
  · simp only [h, if_true, renumber]
    refine total_mapVals ?_
    intro k stored
    rfl
  · simp [h]

theorem keys_nextSequence : s.nextSequence.2.entries.keys = s.entries.keys := by
  unfold nextSequence
  by_cases h : s.sequence = u64Max
  · simp only [h, if_true]
    exact keys_mapVals
  · simp [h]

theorem size_nextSequence : size s.nextSequence.2.entries = size s.entries := by
  rw [size_eq_length_keys, size_eq_length_keys, keys_nextSequence]

theorem entry_touch {access : ℕ} : (s.touch key access).entry k = s.entry k := by
  simp only [entry, touch]
  by_cases h : k = key
  · rw [h, lookup_update_self, Option.map_map]
    rfl
  · rw [lookup_update_ne h]

/-- An access changes no entry, no byte and no fill. -/
structure Accessed (s : State) (key : CacheKey) (t : State) : Prop where
  entries : t.entries = (s.nextSequence.2.touch key s.nextSequence.1).entries
  bytesUsed : t.bytesUsed = s.bytesUsed
  sequence : t.sequence = s.nextSequence.1

theorem Accessed.entry (h : Accessed s key t) : t.entry k = s.entry k := by
  rw [State.entry, h.entries, ← State.entry, entry_touch, entry_nextSequence]

theorem Accessed.shrinks (h : Accessed s key t) : Shrinks s t := by
  intro k e he
  rwa [← h.entry]

theorem Accessed.balanced (h : Accessed s key t) (hb : Balanced s) : Balanced t := by
  unfold Balanced at hb ⊢
  have htouch := total_update (k := key) (w := fun stored : StoredEntry => stored.entry.charge)
    (f := fun stored => { stored with lastAccess := s.nextSequence.1 }) (fun _ => rfl)
    s.nextSequence.2.entries
  rw [h.bytesUsed, h.entries, hb, ← total_nextSequence]
  exact htouch.symm

theorem Accessed.size (h : Accessed s key t) : size t.entries = size s.entries := by
  rw [h.entries, touch, size_update, size_nextSequence]

/-! ## Insertion -/

theorem lru_mem (h : s.lru = some key) : key ∈ s.entries := by
  obtain ⟨e, he, rfl⟩ := Option.map_eq_some_iff.mp h
  exact mem_keys_of_mem (argmin_mem he)

theorem lru_eq_none (h : s.lru = none) : size s.entries = 0 := by
  have h := Option.map_eq_none_iff.mp h
  have h : s.entries.entries = [] := argmin_eq_none.mp h
  rw [size, h, length_nil]

theorem evictLoop_induct (step : ∀ s key, P s → P (s.dropEntry key)) (config : CacheConfig)
    (charge : ℕ) : ∀ (fuel : ℕ) (s : State) (evicted : List CacheKey), P s →
      P (evictLoop config charge fuel s evicted).2
  | 0, _, _, h => h
  | fuel + 1, s, evicted, h => by
    unfold evictLoop
    split_ifs
    · cases s.lru with
      | none => exact h
      | some key => exact evictLoop_induct step config charge fuel _ _ (step s key h)
    · exact h

variable {evicted : List CacheKey} {entry : PreparedEntry} {policy : RequestPolicy}

/-- With as much fuel as there are entries the loop ends because the new entry fits or because no
entry is left. -/
theorem evictLoop_done (hfuel : size s.entries ≤ fuel) :
    overfull config charge (evictLoop config charge fuel s evicted).2 = false
      ∨ size (evictLoop config charge fuel s evicted).2.entries = 0 := by
  induction fuel generalizing s evicted with
  | zero =>
    right
    exact Nat.le_zero.mp hfuel
  | succ fuel ih =>
    unfold evictLoop
    by_cases ho : overfull config charge s = true
    · rw [if_pos ho]
      cases hl : s.lru with
      | none =>
        right
        exact lru_eq_none hl
      | some key =>
        refine ih ?_
        have hsize := size_erase (lru_mem hl)
        rw [dropEntry_entries]
        omega
    · rw [if_neg ho]
      left
      simpa using ho

theorem entry_evictLoop (hevicted : ∀ k ∈ evicted, s.entry k = none) :
    (evictLoop config charge fuel s evicted).2.entry k =
      if k ∈ (evictLoop config charge fuel s evicted).1 then none else s.entry k := by
  induction fuel generalizing s evicted with
  | zero => exact (ite_eq_right_iff.mpr fun hk => (hevicted k hk).symm).symm
  | succ fuel ih =>
    have hstop : s.entry k = if k ∈ evicted then none else s.entry k :=
      (ite_eq_right_iff.mpr fun hk => (hevicted k hk).symm).symm
    unfold evictLoop
    by_cases ho : overfull config charge s = true
    · simp only [if_pos ho]
      cases hl : s.lru with
      | none => exact hstop
      | some key =>
        have hnext : ∀ k ∈ evicted ++ [key], (s.dropEntry key).entry k = none := by
          intro k hk
          rw [entry_dropEntry]
          split_ifs with hkey
          · rfl
          · exact hevicted k ((mem_append.mp hk).resolve_right (by simpa using hkey))
        rw [ih hnext, entry_dropEntry]
        by_cases hkey : k = key
        · subst hkey
          have hmem := evictLoop_evicted config charge fuel (s.dropEntry k) (evicted ++ [k]) k
            (by simp)
          rw [if_pos hmem, if_pos hmem]
        · rw [if_neg hkey]
    · simp only [if_neg ho]
      exact hstop
where
  evictLoop_evicted (config : CacheConfig) (charge : ℕ) : ∀ (fuel : ℕ) (s : State)
      (evicted : List CacheKey) (k : CacheKey), k ∈ evicted →
        k ∈ (evictLoop config charge fuel s evicted).1
    | 0, _, _, _, h => h
    | fuel + 1, s, evicted, k, h => by
      unfold evictLoop
      split_ifs
      · cases s.lru with
        | none => exact h
        | some key =>
          exact evictLoop_evicted config charge fuel _ _ k (mem_append_left _ h)
      · exact h

theorem makeRoom_induct (step : ∀ s key, P s → P (s.dropEntry key)) {config : CacheConfig}
    (h : P s) :
    P (s.makeRoom config entry).2 := by
  unfold makeRoom
  exact evictLoop_induct step config _ _ _ _ (dropEntries_induct step _ _ (step _ _ h))

theorem sameFills_makeRoom (s : State) (entry : PreparedEntry) :
    SameFills s (s.makeRoom config entry).2 :=
  makeRoom_induct (fun t key h => h.trans (sameFills_dropEntry t key)) (.refl s)

theorem Balanced.makeRoom (h : Balanced s) {config : CacheConfig} :
    Balanced (s.makeRoom config entry).2 :=
  makeRoom_induct (fun _ _ h => h.dropEntry) h

theorem makeRoom_done (s : State) : overfull config entry.charge (s.makeRoom config entry).2 = false
      ∨ size (s.makeRoom config entry).2.entries = 0 :=
  evictLoop_done config entry.charge _ (le_refl _)

theorem mem_conflicting : k ∈ s.conflicting key ↔
      k ∈ s.entries ∧ k.base = key.base ∧ k.sameVarySchema key = false := by
  unfold conflicting
  rw [(perm_insertionSort _ _).mem_iff, mem_filter, ← AList.mem_keys]
  simp

/-- What is left after making room was stored before, under another key, and has the schema of the
new entry when it has its base. -/
theorem entry_makeRoom {config : CacheConfig} {e : PreparedEntry}
    (h : (s.makeRoom config entry).2.entry k = some e) : s.entry k = some e ∧ k ≠ entry.key
      ∧ (k.base = entry.key.base → k.sameVarySchema entry.key = true) := by
  have hdrop : ((s.dropEntry entry.key).dropEntries
      ((s.dropEntry entry.key).conflicting entry.key)).entry k = some e :=
    evictLoop_induct (P := Shrinks _)
      (fun t key h => h.trans shrinks_dropEntry) config _ _ _ _ .refl k e h
  rw [entry_dropEntries] at hdrop
  split_ifs at hdrop with hc
  have hd := hdrop
  rw [entry_dropEntry] at hd
  split_ifs at hd with hk
  refine ⟨hd, hk, fun hb => ?_⟩
  by_contra hs
  exact hc (mem_conflicting.mpr ⟨mem_entries_iff.mpr ⟨e, hdrop⟩, hb, by simpa using hs⟩)

/-- The removed keys `makeRoom` reports are the ones that went, the key of the new entry aside. -/
theorem entry_makeRoom_removed (hk : k ≠ entry.key) : (s.makeRoom config entry).2.entry k =
      if k ∈ (s.makeRoom config entry).1.1 then none else s.entry k := by
  have hreplaced : k ∉ (if (s.entries.lookup entry.key).isSome then [entry.key] else []) := by
    split_ifs <;> simp [hk]
  simp only [makeRoom, mem_append, hreplaced, false_or]
  rw [entry_evictLoop config _ _ (by simp), entry_dropEntries, entry_dropEntry, if_neg hk]
  split_ifs <;> simp_all

theorem sameFills_insertEntry (s : State) (entry : PreparedEntry) :
    SameFills s (s.insertEntry config entry).2 := by
  have h := (sameFills_makeRoom config s entry).trans (sameFills_nextSequence _)
  exact ⟨h.flights, h.signals, h.nextGeneration⟩

theorem insertEntry_entries : (s.insertEntry config entry).2.entries =
      (s.makeRoom config entry).2.nextSequence.2.entries.insert entry.key
        ⟨entry, (s.makeRoom config entry).2.nextSequence.1⟩ := rfl

theorem insertEntry_bytesUsed : (s.insertEntry config entry).2.bytesUsed =
      satAdd (s.makeRoom config entry).2.bytesUsed entry.charge := by
  rw [← nextSequence_bytesUsed (s.makeRoom config entry).2]
  rfl

theorem insertEntry_sequence :
    (s.insertEntry config entry).2.sequence = (s.makeRoom config entry).2.nextSequence.1 := rfl

theorem entry_insertEntry : (s.insertEntry config entry).2.entry k =
      if k = entry.key then some entry else (s.makeRoom config entry).2.entry k := by
  have h := entry_nextSequence (s.makeRoom config entry).2 k
  simp only [insertEntry, State.entry, lookup_insert]
  split_ifs with hk
  · rfl
  · exact h

/-! ## The entries half does not look at the fills -/

variable (h : SameEntries s t)
include h

theorem SameEntries.dropEntry (key : CacheKey) :
    SameEntries (s.dropEntry key) (t.dropEntry key) := by
  unfold State.dropEntry
  rw [h.entries]
  cases s.entries.lookup key with
  | none => exact h
  | some stored =>
    refine ⟨rfl, ?_, h.sequence⟩
    simp only [h.bytesUsed]

theorem SameEntries.trans (h' : SameEntries t u) : SameEntries s u :=
  ⟨h'.entries.trans h.entries, h'.bytesUsed.trans h.bytesUsed, h'.sequence.trans h.sequence⟩

theorem SameEntries.dropEntries (keys : List CacheKey) :
    SameEntries (s.dropEntries keys) (t.dropEntries keys) := by
  induction keys generalizing s t with
  | nil => exact h
  | cons key keys ih => exact ih (h.dropEntry key)

theorem SameEntries.evictLoop (config : CacheConfig) (charge fuel : ℕ) (evicted : List CacheKey) :
    (evictLoop config charge fuel t evicted).1 = (evictLoop config charge fuel s evicted).1
      ∧ SameEntries (evictLoop config charge fuel s evicted).2
        (evictLoop config charge fuel t evicted).2 := by
  induction fuel generalizing s t evicted with
  | zero => exact ⟨rfl, h⟩
  | succ fuel ih =>
    have hover : overfull config charge t = overfull config charge s := by
      unfold overfull
      rw [h.entries, h.bytesUsed]
    have hlru : t.lru = s.lru := by
      unfold lru
      rw [h.entries]
    unfold evictLoop
    rw [hover, hlru]
    split_ifs
    · cases s.lru with
      | none => exact ⟨rfl, h⟩
      | some key => exact ih (h.dropEntry key) _
    · exact ⟨rfl, h⟩

theorem SameEntries.makeRoom (config : CacheConfig) (e : PreparedEntry) :
    (t.makeRoom config e).1 = (s.makeRoom config e).1
      ∧ SameEntries (s.makeRoom config e).2 (t.makeRoom config e).2 := by
  have hdrop := h.dropEntry e.key
  have hconf : (t.dropEntry e.key).conflicting e.key = (s.dropEntry e.key).conflicting e.key := by
    unfold conflicting
    rw [hdrop.entries]
  have hdrops := hdrop.dropEntries ((s.dropEntry e.key).conflicting e.key)
  obtain ⟨hevicted, hsame⟩ := hdrops.evictLoop config e.charge
    (size ((s.dropEntry e.key).dropEntries ((s.dropEntry e.key).conflicting e.key)).entries) []
  unfold State.makeRoom
  simp only [hconf, hdrops.entries, hevicted, h.entries]
  exact ⟨trivial, hsame⟩

theorem SameEntries.nextSequence :
    t.nextSequence.1 = s.nextSequence.1 ∧ SameEntries s.nextSequence.2 t.nextSequence.2 := by
  have horder : t.accessOrder = s.accessOrder := by
    unfold accessOrder
    rw [h.entries]
  unfold State.nextSequence
  rw [h.sequence]
  by_cases hmax : s.sequence = u64Max
  · simp only [hmax, if_true, renumber, h.entries, horder]
    exact ⟨trivial, rfl, h.bytesUsed, rfl⟩
  · simp only [hmax, if_false, h.sequence]
    exact ⟨trivial, h.entries, h.bytesUsed, rfl⟩

theorem SameEntries.insertEntry (config : CacheConfig) (e : PreparedEntry) :
    (t.insertEntry config e).1 = (s.insertEntry config e).1
      ∧ SameEntries (s.insertEntry config e).2 (t.insertEntry config e).2 := by
  obtain ⟨hremoved, hroom⟩ := h.makeRoom config e
  obtain ⟨haccess, hseq⟩ := hroom.nextSequence
  unfold State.insertEntry
  simp only [hremoved, haccess, hseq.entries, hseq.bytesUsed]
  exact ⟨trivial, rfl, rfl, hseq.sequence⟩

omit h

/-! ## Lookup -/

variable {base : BaseKey} {headers : HeaderMap} {maxKeyBytes : ℕ} {authorized : Bool}

theorem matchingKey_usable (h : s.matchingKey base headers maxKeyBytes authorized = some key) :
    key ∈ s.entries ∧ s.usable base headers maxKeyBytes authorized key = true := by
  have hmem := mem_reverse.mp (argmax_mem h)
  exact mem_filter.mp hmem

theorem usable_base (h : s.usable base headers maxKeyBytes authorized key = true) :
    key.base = base := by
  exact CacheKey.matchesRequest_base (Bool.and_eq_true_iff.mp h).1

/-- What a lookup did to the entries, by its answer. -/
inductive LookupEffect (s t : State) : Except CacheError Lookup → Prop
  | failed (e : CacheError) : SameEntries s t → LookupEffect s t (.error e)
  | bypassed (status : LookupStatus) : SameEntries s t → LookupEffect s t (.ok (.bypass status))
  | missed (status : LookupStatus) (onlyIfCached : Bool) (base : BaseKey) :
      SameEntries s t → LookupEffect s t (.ok (.miss status onlyIfCached base))
  | expired (status : LookupStatus) (onlyIfCached : Bool) (base : BaseKey) (key : CacheKey) :
      key.base = base → SameEntries (s.dropEntry key) t →
        LookupEffect s t (.ok (.miss status onlyIfCached base))
  | found (lookup : Lookup) (key : CacheKey) (entry : PreparedEntry) (age : Duration) :
      s.entry key = some entry → lookup.response? = some (responseSnapshot entry age) →
        Accessed s key t → LookupEffect s t (.ok lookup)

theorem answer_state {now : MonoTime} :
    SameEntries s (s.answer policy entry now).2 ∧ SameFills s (s.answer policy entry now).2 := by
  unfold answer
  simp only
  split_ifs
  all_goals exact ⟨⟨rfl, rfl, rfl⟩, ⟨rfl, rfl, rfl⟩⟩

theorem answer_response (s : State) (policy : RequestPolicy) (entry : PreparedEntry)
    (now : MonoTime) :
    (s.answer policy entry now).1.response? = some (responseSnapshot entry (age entry now)) := by
  unfold answer
  simp only
  split_ifs
  all_goals rfl

theorem find_effect : LookupEffect s (s.find config now request policy base).2
      (s.find config now request policy base).1 ∧
    SameFills s (s.find config now request policy base).2 := by
  unfold find
  cases hm : s.matchingKey base _ _ _ with
  | none => exact ⟨.missed _ _ _ ⟨rfl, rfl, rfl⟩, ⟨rfl, rfl, rfl⟩⟩
  | some key =>
    obtain ⟨hmem, husable⟩ := matchingKey_usable hm
    obtain ⟨entry, hentry⟩ := mem_entries_iff.mp hmem
    simp only [removeExpiredEntry, hentry, Option.any_some]
    by_cases hexp : expired entry now = true
    · rw [if_pos hexp]
      have h := sameFills_dropEntry s key
      exact ⟨.expired _ _ _ key (usable_base husable) ⟨rfl, rfl, rfl⟩,
        ⟨h.flights, h.signals, h.nextGeneration⟩⟩
    · rw [if_neg hexp]
      simp only [entry_nextSequence, hentry]
      obtain ⟨hsame, hfills⟩ := answer_state
      refine ⟨.found _ key entry _ hentry (answer_response _ policy entry now)
        ⟨hsame.entries, hsame.bytesUsed.trans (nextSequence_bytesUsed s), hsame.sequence⟩, ?_⟩
      have htouch : SameFills s.nextSequence.2
        (s.nextSequence.2.touch key s.nextSequence.1) := ⟨rfl, rfl, rfl⟩
      exact ((sameFills_nextSequence s).trans htouch).trans hfills

/-- **What a lookup does to the entries.** The fills stay as they are. -/
theorem lookup_effect [Crates] (s : State) :
    LookupEffect s (s.lookup config now request).2 (s.lookup config now request).1 ∧
      SameFills s (s.lookup config now request).2 := by
  unfold lookup
  split_ifs with hb
  · exact ⟨.bypassed _ ⟨rfl, rfl, rfl⟩, ⟨rfl, rfl, rfl⟩⟩
  · cases RequestPolicy.evaluate _ _ with
    | error e => exact ⟨.failed _ (.refl s), .refl s⟩
    | ok policy =>
      simp only
      split_ifs with hm
      · exact ⟨.bypassed _ ⟨rfl, rfl, rfl⟩, ⟨rfl, rfl, rfl⟩⟩
      · cases BaseKey.new request _ with
        | error e => exact ⟨.failed _ (.refl s), .refl s⟩
        | ok base => exact find_effect config now request

section found

variable {config now} {request : RequestKeyInput} {result : Lookup} {response : CachedResponse}

theorem find_found (h : (s.find config now request policy base).1 = .ok result)
    (hr : result.response? = some response) :
    ∃ key entry, s.usable base request.headers config.maxKeyBytes
        (request.headers.containsKey Name.authorization) key = true ∧
      s.entry key = some entry ∧
        ((s.nextSequence.2.touch key s.nextSequence.1).answer policy entry now).1 = result := by
  unfold find at h
  cases hm : s.matchingKey base request.headers config.maxKeyBytes
      (request.headers.containsKey Name.authorization) with
  | none =>
    simp only [hm] at h
    cases h
    cases hr
  | some key =>
    obtain ⟨hmem, husable⟩ := matchingKey_usable hm
    obtain ⟨entry, hentry⟩ := mem_entries_iff.mp hmem
    simp only [hm, removeExpiredEntry, hentry, Option.any_some] at h
    by_cases hexp : expired entry now = true
    · simp only [if_pos hexp] at h
      cases h
      cases hr
    · simp only [if_neg hexp, entry_nextSequence, hentry] at h
      exact ⟨key, entry, husable, hentry, Except.ok.inj h⟩

/-- What a lookup that returns a stored response was made of. -/
theorem lookup_found [Crates] (h : (s.lookup config now request).1 = .ok result)
    (hr : result.response? = some response) :
    ∃ policy base key entry, RequestPolicy.evaluate request.method request.headers = .ok policy ∧
      policy.mode ≠ .bypass ∧ BaseKey.new request config.maxKeyBytes = .ok base ∧
      s.usable base request.headers config.maxKeyBytes
        (request.headers.containsKey Name.authorization) key = true ∧ s.entry key = some entry ∧
        ((s.nextSequence.2.touch key s.nextSequence.1).answer policy entry now).1 = result := by
  unfold lookup at h
  split_ifs at h
  · cases h
    cases hr
  · cases hpolicy : RequestPolicy.evaluate request.method request.headers with
    | error e => simp [hpolicy] at h
    | ok policy =>
      simp only [hpolicy] at h
      split_ifs at h with hmode
      · cases h
        cases hr
      · cases hbase : BaseKey.new request _ with
        | error e => simp [hbase] at h
        | ok base =>
          simp only [hbase] at h
          obtain ⟨key, entry, hfound⟩ := find_found h hr
          exact ⟨policy, base, key, entry, rfl, hmode, rfl, hfound⟩

end found

/-- A stale response served on an error is an access to its entry; otherwise nothing changes. -/
theorem staleIfError_effect (key : CacheKey) (s : State) :
    ((s.staleIfError now key).1 = none ∧ (s.staleIfError now key).2 = s
      ∨ (∃ response, (s.staleIfError now key).1 = some response)
        ∧ (∃ entry, s.entry key = some entry) ∧ Accessed s key (s.staleIfError now key).2) ∧
      SameFills s (s.staleIfError now key).2 := by
  unfold staleIfError
  cases hentry : s.entry key with
  | none => exact ⟨.inl ⟨rfl, rfl⟩, .refl s⟩
  | some entry =>
    simp only
    split_ifs with hstale
    · exact ⟨.inl ⟨rfl, rfl⟩, .refl s⟩
    · have h := sameFills_nextSequence s
      exact ⟨.inr ⟨⟨_, rfl⟩, ⟨entry, rfl⟩, ⟨rfl, nextSequence_bytesUsed s, rfl⟩⟩,
        ⟨h.flights, h.signals, h.nextGeneration⟩⟩

/-! ## Fills and purges -/

theorem sameEntries_cancelFlight (s : State) (base : BaseKey) (outcome : FillOutcome) :
    SameEntries s (s.cancelFlight base outcome).2 := by
  unfold cancelFlight
  cases s.flights.lookup base with
  | none => exact .refl s
  | some flight => exact ⟨rfl, rfl, rfl⟩

theorem sameEntries_beginFill (shared : Shared) (base : BaseKey) (s : State) :
    SameEntries s (s.beginFill shared base).2 := by
  unfold beginFill
  cases s.flights.lookup base with
  | some flight =>
    simp only
    split_ifs
    · exact .refl s
    · exact .refl s
    · exact ⟨rfl, rfl, rfl⟩
  | none =>
    split_ifs
    · exact .refl s
    · exact .refl s
    · exact ⟨rfl, rfl, rfl⟩

theorem sameEntries_drop (g : FillGuard) (s : State) : SameEntries s (g.drop s) := by
  unfold FillGuard.drop
  split_ifs
  · exact .refl s
  · exact ⟨rfl, rfl, rfl⟩

theorem sameEntries_completeWithoutStore {g : FillGuard} :
    SameEntries s (g.completeWithoutStore s).2 := by
  unfold FillGuard.completeWithoutStore FillGuard.finish
  split_ifs
  · exact .refl s
  · exact ⟨rfl, rfl, rfl⟩

theorem purgeExact_entries : SameEntries (s.dropEntry key) (s.purgeExact key).2 := by
  have h := sameEntries_cancelFlight (s.dropEntry key) key.base .purged
  exact ⟨h.entries, h.bytesUsed, h.sequence⟩

theorem purgeBase_entries :
    SameEntries (s.dropEntries (s.entries.keys.filter fun key => key.base = base))
      (s.purgeBase base).2 := by
  have h := sameEntries_cancelFlight
    (s.dropEntries (s.entries.keys.filter fun key => key.base = base)) base .purged
  exact ⟨h.entries, h.bytesUsed, h.sequence⟩

theorem foldl_purgeTagged_entries (s : State) (acc : PurgeResult × State)
    (h : SameEntries s acc.2) :
    SameEntries (s.dropEntries keys) (keys.foldl purgeTagged acc).2 := by
  induction keys generalizing s acc with
  | nil => exact h
  | cons key keys ih =>
    refine ih _ _ ?_
    exact (h.dropEntry key).trans (sameEntries_cancelFlight _ key.base .purged)

def tagged (s : State) (tag : Bytes) : List CacheKey :=
  (s.entries.entries.filter fun e => e.2.entry.tags.contains tag).map Sigma.fst

theorem mem_tagged {tag : Bytes} : k ∈ s.tagged tag ↔ ∃ e, s.entry k = some e ∧ tag ∈ e.tags := by
  unfold tagged entry
  simp only [mem_map, mem_filter, contains_iff_mem, Option.map_eq_some_iff]
  constructor
  · rintro ⟨e, ⟨hmem, htag⟩, rfl⟩
    exact ⟨e.2.entry, ⟨e.2, Table.mem_entries_iff.mp hmem, rfl⟩, htag⟩
  · rintro ⟨_, ⟨stored, hlook, rfl⟩, htag⟩
    exact ⟨⟨k, stored⟩, ⟨Table.mem_entries_iff.mpr hlook, htag⟩, rfl⟩

theorem purgeTag_entries (tag : Bytes) (s : State) :
    SameEntries (if validateTag tag config.maxTagBytes then s.dropEntries (s.tagged tag) else s)
      (s.purgeTag config tag).2 := by
  unfold purgeTag
  by_cases hv : validateTag tag config.maxTagBytes = true
  · simp only [hv, if_true, Bool.true_eq_false, if_false]
    have h := foldl_purgeTagged_entries (s.tagged tag) s (⟨0, 0, 0⟩, s) (.refl s)
    exact ⟨h.entries, h.bytesUsed, h.sequence⟩
  · simp only [hv, if_true]
    exact .refl s

end State

end Oxiroute.Cache
