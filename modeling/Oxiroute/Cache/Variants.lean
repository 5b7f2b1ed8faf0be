import Oxiroute.Cache.System

/-!
# Selecting a variant

All stored keys of one base were selected by the same `Vary` names (`OneSchema`), because an
insertion first removes the entries of its base with other names. A key that matches a request is
the one its names build from the request, so at most one stored key matches, and the lookup does
not depend on the order in which the hash map is iterated.

* `oneSchema_step`: an operation keeps the one schema of each base.
* `OneSchema.lookup_reordered`: the answer of a lookup is the same in every iteration order.
-/

namespace Oxiroute.Cache

open Lib Http CacheKey

namespace State

/-- The stored keys of one base have one schema. -/
def OneSchema (s : State) : Prop :=
  ∀ k ∈ s.entries, ∀ k' ∈ s.entries, k.base = k'.base → k.sameVarySchema k' = true

variable {s t : State} {base : BaseKey} {α : Type} {l : List α} {k : CacheKey} {headers : HeaderMap}
  {maxKeyBytes : ℕ} {authorized : Bool} {policy : RequestPolicy} {now : MonoTime}
  {config : CacheConfig} {request : RequestKeyInput}

/-- With one schema for each base, at most one stored key matches a request. -/
theorem OneSchema.matches_unique (h : OneSchema s) {k' : CacheKey} (hk : k ∈ s.entries)
    (hk' : k' ∈ s.entries) {maxBytes : ℕ} (hm : k.matchesRequest base headers maxBytes = true)
    (hm' : k'.matchesRequest base headers maxBytes = true) : k = k' := by
  have hbase : k.base = k'.base :=
    (matchesRequest_base hm).trans (matchesRequest_base hm').symm
  have hschema := sameVarySchema_iff.mp (h k hk k' hk' hbase)
  exact matchesRequest_unique hm hm' hschema

/-! ## Iteration order -/

/-- The same entries in another iteration order. -/
def Reordered (s t : State) : Prop :=
  t.entries.entries.Perm s.entries.entries

theorem Reordered.lookup (h : Reordered s t) : t.entries.lookup k = s.entries.lookup k :=
  AList.perm_lookup h

theorem Reordered.entry (h : Reordered s t) : t.entry k = s.entry k := by
  rw [State.entry, h.lookup, State.entry]

theorem Reordered.usable (h : Reordered s t) :
    t.usable base headers maxKeyBytes authorized =
      s.usable base headers maxKeyBytes authorized := by
  funext key
  rw [State.usable, h.lookup, State.usable]

theorem eq_of_perm_of_length_le_one {l' : List α} (h : l.Perm l') (hl : l'.length ≤ 1) :
    l = l' := by
  match l', hl with
  | [], _ => exact List.perm_nil.mp h
  | [a], _ => exact List.perm_singleton.mp h

theorem length_le_one_of_nodup (h : l.Nodup) (hl : ∀ a ∈ l, ∀ b ∈ l, a = b) : l.length ≤ 1 := by
  match l, h, hl with
  | [], _, _ | [a], _, _ => simp
  | a :: b :: l, h, hl =>
    have heq : a = b := hl a (by simp) b (by simp)
    simp [heq] at h

theorem OneSchema.usable_le_one (h : OneSchema s) :
    (s.entries.keys.filter (s.usable base headers maxKeyBytes authorized)).length ≤ 1 := by
  refine length_le_one_of_nodup (s.entries.keys_nodup.filter _) ?_
  intro k hk k' hk'
  obtain ⟨hk, hu⟩ := List.mem_filter.mp hk
  obtain ⟨hk', hu'⟩ := List.mem_filter.mp hk'
  unfold usable at hu hu'
  rw [Bool.and_eq_true] at hu hu'
  exact h.matches_unique hk hk' hu.1 hu'.1

/-- **The key a lookup chooses does not depend on the iteration order.** -/
theorem OneSchema.matchingKey_reordered (h : OneSchema s) (ht : Reordered s t) :
    t.matchingKey base headers maxKeyBytes authorized
      = s.matchingKey base headers maxKeyBytes authorized := by
  have hkeys : t.entries.keys.Perm s.entries.keys := List.Perm.map Sigma.fst ht
  have heq := eq_of_perm_of_length_le_one
    (hkeys.filter (s.usable base headers maxKeyBytes authorized)) h.usable_le_one
  unfold matchingKey
  rw [ht.usable, heq]
  simp only [ht.lookup]

theorem answer_fst {entry : PreparedEntry} :
    (s.answer policy entry now).1 = (t.answer policy entry now).1 := by
  simp only [answer]
  split_ifs <;> rfl

theorem find_congr (hkey : t.matchingKey base request.headers config.maxKeyBytes
        (request.headers.containsKey Name.authorization)
      = s.matchingKey base request.headers config.maxKeyBytes
        (request.headers.containsKey Name.authorization)) (hentry : ∀ {k}, t.entry k = s.entry k) :
    (t.find config now request policy base).1 = (s.find config now request policy base).1 := by
  unfold find
  rw [hkey]
  cases s.matchingKey base _ _ _ with
  | none => rfl
  | some key =>
    simp only [removeExpiredEntry, hentry]
    by_cases hexp : (s.entry key).any (expired · now) = true
    · simp only [hexp, if_true]
      rfl
    · simp only [hexp, Bool.false_eq_true, if_false, entry_nextSequence, hentry]
      cases s.entry key with
      | none => rfl
      | some entry => exact congrArg Except.ok answer_fst

/-- **The answer of a lookup does not depend on the iteration order.** -/
theorem OneSchema.lookup_reordered [Crates] (h : OneSchema s) (ht : Reordered s t) :
    (t.lookup config now request).1 = (s.lookup config now request).1 := by
  unfold State.lookup
  split_ifs with hbounds
  · rfl
  · cases RequestPolicy.evaluate _ _ with
    | error e => rfl
    | ok policy =>
      simp only
      split_ifs with hmode
      · rfl
      · cases BaseKey.new request _ with
        | error e => rfl
        | ok base => exact find_congr (h.matchingKey_reordered ht) ht.entry

end State

namespace World

open State

/-- **An operation keeps the one schema of each base.** -/
theorem oneSchema_step [Crates] {shared : Shared} {w : World} (h : OneSchema w.state) {op : Op} :
    OneSchema (step shared w op).state := by
  have heffect := (step_effect shared w op).entries
  intro k hk k' hk' hbase
  obtain ⟨e, hk⟩ := mem_entries_iff.mp hk
  obtain ⟨e', hk'⟩ := mem_entries_iff.mp hk'
  cases hins : inserting shared w op with
  | none =>
    rw [hins] at heffect
    have hold := mem_entries_iff.mpr ⟨e, heffect.shrinks k e hk⟩
    have hold' := mem_entries_iff.mpr ⟨e', heffect.shrinks k' e' hk'⟩
    exact h k hold k' hold' hbase
  | some entry =>
    rw [hins] at heffect
    -- of the two keys either may be the new one
    rcases heffect.stored hk with ⟨rfl, _⟩ | ⟨hold, _, hschema⟩
    · rcases heffect.stored hk' with ⟨rfl, _⟩ | ⟨_, _, hschema'⟩
      · exact sameVarySchema_iff.mpr rfl
      · have hs := sameVarySchema_iff.mp (hschema' hbase.symm)
        exact sameVarySchema_iff.mpr hs.symm
    · rcases heffect.stored hk' with ⟨rfl, _⟩ | ⟨hold', _, _⟩
      · exact hschema hbase
      · exact h k (mem_entries_iff.mpr ⟨e, hold⟩) k' (mem_entries_iff.mpr ⟨e', hold'⟩) hbase

/-- **Variants are selected unambiguously**: in every state of a run the keys of a base have one
schema, and neither the key a lookup chooses nor its answer depends on the order of the entries. -/
theorem run_unambiguous [Crates] (shared : Shared) (ops : List Op) :
    OneSchema (run shared ops).state
    ∧ (∀ base headers maxBytes, ∀ k ∈ (run shared ops).state.entries,
        ∀ k' ∈ (run shared ops).state.entries, k.matchesRequest base headers maxBytes = true →
          k'.matchesRequest base headers maxBytes = true → k = k')
    ∧ ∀ t, Reordered (run shared ops).state t → (∀ base headers maxBytes authorized,
          t.matchingKey base headers maxBytes authorized
            = (run shared ops).state.matchingKey base headers maxBytes authorized)
        ∧ ∀ now request, (t.lookup shared.config now request).1
            = ((run shared ops).state.lookup shared.config now request).1 := by
  have hinit : OneSchema init.state := by
    intro k hk
    simp [init, State.init] at hk
  have h : OneSchema (run shared ops).state :=
    runFrom_keeps (P := fun w => OneSchema w.state) (fun w op h => oneSchema_step h) ops init hinit
  refine ⟨h, ?_, ?_⟩
  · intro base headers maxBytes k hk k' hk' hm hm'
    exact h.matches_unique hk hk' hm hm'
  · intro t ht
    exact ⟨fun _ _ _ _ => h.matchingKey_reordered ht, fun _ _ => h.lookup_reordered ht⟩

end World

end Oxiroute.Cache
