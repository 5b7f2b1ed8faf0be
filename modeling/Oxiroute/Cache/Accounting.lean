import Oxiroute.Cache.System

/-!
# Accounting

`Accounted` is the promise of the quotas: the byte counter is the sum of the charges of the stored
entries and within its limit, and so are the entries, the flights and the followers of each.

The counter is kept with saturating additions. As long as the quota is below the largest machine
word the test before an insertion sees every overflow; at the largest word it sees none, and a sum
of charges above it is cut off. `Exact` is the condition under which an insertion adds exactly, and
`run_accounted` the promise for every run whose insertions meet it.
-/

set_option maxRecDepth 100000

namespace Oxiroute.Cache

open Lib Http State Table

/-- The resource limits of a cache hold. -/
structure Accounted (config : CacheConfig) (s : State) : Prop where
  balanced : s.bytesUsed = total (fun stored => stored.entry.charge) s.entries
  bytes : s.bytesUsed ≤ config.maxTotalBytes
  entries : size s.entries ≤ config.maxEntries
  flights : size s.flights ≤ config.maxInFlight
  followers : ∀ base flight, s.flights.lookup base = some flight →
    flight.followers ≤ config.maxFollowersPerFill

namespace World

/-! ## Entries -/

/-- The part of the promise about entries. -/
structure Stocked (config : CacheConfig) (s : State) : Prop where
  balanced : State.Balanced s
  bytes : s.bytesUsed ≤ config.maxTotalBytes
  entries : size s.entries ≤ config.maxEntries

variable {config : CacheConfig} {s t : State} {entry : PreparedEntry} {shared : Shared} {w : World}

theorem Stocked.of_same (h : Stocked config s) (hs : State.SameEntries s t) : Stocked config t :=
  ⟨hs.balanced h.balanced, hs.bytesUsed ▸ h.bytes, hs.entries ▸ h.entries⟩

variable {key : CacheKey} {op : Op}

theorem Stocked.dropEntry (h : Stocked config s) : Stocked config (s.dropEntry key) :=
  ⟨h.balanced.dropEntry, s.dropEntry_bytesUsed_le.trans h.bytes,
    s.size_dropEntry_le.trans h.entries⟩

theorem Stocked.accessed (h : Stocked config s) (ha : State.Accessed s key t) : Stocked config t :=
  ⟨ha.balanced h.balanced, ha.bytesUsed ▸ h.bytes, ha.size ▸ h.entries⟩

/-- The insertion of an entry adds its charge exactly: the quota is below the largest word, or the
sum does not exceed the largest word. -/
def Exact (config : CacheConfig) (s : State) (entry : PreparedEntry) : Prop :=
  config.maxTotalBytes < usizeMax ∨ (s.makeRoom config entry).2.bytesUsed + entry.charge ≤ usizeMax

instance (config : CacheConfig) (s : State) (entry : PreparedEntry) :
    Decidable (Exact config s entry) :=
  inferInstanceAs (Decidable (_ ∨ _))

theorem makeRoom_fits (hc : config.validate = true) (hb : State.Balanced s)
    (hcharge : entry.charge ≤ config.maxTotalBytes) :
    size (s.makeRoom config entry).2.entries + 1 ≤ config.maxEntries
      ∧ satAdd (s.makeRoom config entry).2.bytesUsed entry.charge ≤ config.maxTotalBytes := by
  have hpos : 0 < config.maxEntries := by
    simp only [CacheConfig.validate, Bool.and_eq_true, decide_eq_true_eq] at hc
    exact hc.1.1.1
  rcases s.makeRoom_done config with hdone | hempty
  · simp only [overfull, Bool.or_eq_false_iff, decide_eq_false_iff_not, not_le, not_lt] at hdone
    exact ⟨hdone.1, hdone.2⟩
  · -- nothing is left, so the counter is zero and the entry alone is within the quota
    have hroom : State.Balanced (s.makeRoom config entry).2 := hb.makeRoom
    have hzero : (s.makeRoom config entry).2.bytesUsed = 0 := by
      have hnil := List.eq_nil_of_length_eq_zero hempty
      rw [hroom, total, hnil, List.map_nil, List.sum_nil]
    refine ⟨by omega, ?_⟩
    rw [hzero, satAdd, zero_add]
    exact (min_le_left _ _).trans hcharge

theorem Stocked.insertEntry (hc : config.validate = true) (h : Stocked config s)
    (hcharge : entry.charge ≤ config.maxTotalBytes) (hexact : Exact config s entry) :
    Stocked config (s.insertEntry config entry).2 := by
  obtain ⟨hsize, hbytes⟩ := makeRoom_fits hc h.balanced hcharge
  have hroom : State.Balanced (s.makeRoom config entry).2 := h.balanced.makeRoom
  have hnew : entry.key ∉ (s.makeRoom config entry).2.nextSequence.2.entries := by
    intro hmem
    obtain ⟨e, he⟩ := mem_entries_iff.mp hmem
    rw [entry_nextSequence] at he
    exact (entry_makeRoom he).2.1 rfl
  have hsum : satAdd (s.makeRoom config entry).2.bytesUsed entry.charge
      = (s.makeRoom config entry).2.bytesUsed + entry.charge := by
    unfold satAdd at hbytes ⊢
    rcases hexact with hlt | hle
    · omega
    · exact min_eq_left hle
  refine ⟨?_, ?_, ?_⟩
  · rw [State.Balanced, insertEntry_bytesUsed, hsum, insertEntry_entries,
      total_insert hnew, total_nextSequence, ← hroom, add_comm]
  · rw [insertEntry_bytesUsed]
    exact hbytes
  · rw [insertEntry_entries, size_insert hnew, size_nextSequence]
    exact hsize

/-- What the clients can make the cache insert is within the quota. -/
theorem inserting_charge [Crates] (h : Held shared w) (hi : inserting shared w op = some entry) :
    entry.charge ≤ shared.config.maxTotalBytes := by
  rcases h.inserting hi with ⟨_, _, _, hp⟩ | ⟨now, wall, record, decoded, _, hd, rfl⟩
  · exact hp.chargeTotal
  · exact decodeRecord_charge hd

/-- The condition on a step: what it inserts is added exactly. -/
def Adds [Crates] (shared : Shared) (w : World) (op : Op) : Prop :=
  ∀ entry ∈ inserting shared w op, Exact shared.config w.state entry

instance [Crates] (shared : Shared) (w : World) (op : Op) : Decidable (Adds shared w op) :=
  inferInstanceAs (Decidable (∀ entry ∈ inserting shared w op, Exact shared.config w.state entry))

theorem stocked_step [Crates] (hc : shared.config.validate = true) (hheld : Held shared w)
    (h : Stocked shared.config w.state) (hadds : Adds shared w op) :
    Stocked shared.config (step shared w op).state := by
  have heffect := (step_effect shared w op).entries
  generalize hi : inserting shared w op = i at heffect
  cases heffect with
  | same hs => exact h.of_same hs
  | removed keys hs =>
    exact (dropEntries_induct (fun _ key h => h.dropEntry) keys _ h).of_same hs
  | accessed key ha => exact h.accessed ha
  | inserted entry hs =>
    exact (h.insertEntry hc (inserting_charge hheld hi) (hadds entry hi)).of_same hs

/-! ## Flights -/

/-- The part of the promise about fills. -/
structure Manned (config : CacheConfig) (s : State) : Prop where
  flights : size s.flights ≤ config.maxInFlight
  followers : ∀ base flight, s.flights.lookup base = some flight →
    flight.followers ≤ config.maxFollowersPerFill

theorem Manned.of_same (h : Manned config s) (hs : State.SameFills s t) : Manned config t :=
  ⟨hs.flights ▸ h.flights, hs.flights ▸ h.followers⟩

theorem Manned.retired {base : BaseKey} {flight : Flight} {outcome : FillOutcome}
    (h : Manned config s) (hr : Retired s base flight outcome t) : Manned config t := by
  constructor
  · rw [hr.flights]
    exact size_erase_le.trans h.flights
  · intro b f hf
    rw [hr.flights, lookup_erase] at hf
    split_ifs at hf
    exact h.followers b f hf

theorem Manned.retires (h : Manned config s) (hr : Retires s t) : Manned config t := by
  induction hr with
  | same hs => exact h.of_same hs
  | retire _ hone ih => exact ih.retired hone

theorem manned_step [Crates] (h : Manned shared.config w.state) :
    Manned shared.config (step shared w op).state := by
  have heffect := (step_effect shared w op).fills
  generalize handing shared w op = j at heffect
  cases heffect with
  | retires hr => exact h.retires hr
  | joined base flight hlook hroom hf _ _ =>
    constructor
    · rw [hf, size_update]
      exact h.flights
    · intro b f hb
      rw [hf] at hb
      by_cases hbase : b = base
      · rw [hbase, lookup_update_self, hlook, Option.map_some] at hb
        cases hb
        exact hroom
      · rw [lookup_update_ne hbase] at hb
        exact h.followers b f hb
  | led base hlook hroom hf _ _ =>
    have hnew : base ∉ w.state.flights := AList.lookup_eq_none.mp hlook
    constructor
    · rw [hf, size_insert hnew]
      exact hroom
    · intro b f hb
      rw [hf, lookup_insert] at hb
      split_ifs at hb
      · cases hb
        exact zero_le
      · exact h.followers b f hb

/-! ## Runs -/

/-- **Accounting**: for every valid configuration and every run whose insertions add exactly, the
byte counter is the sum of the charges and every resource is within its limit. -/
theorem run_accounted [Crates] (shared : Shared) (hc : shared.config.validate = true)
    (ops : List Op) (hadds : EveryStep shared (Adds shared) init ops) :
    Accounted shared.config (run shared ops).state := by
  have hinit : Held shared init ∧ Stocked shared.config init.state
      ∧ Manned shared.config init.state := by
    refine ⟨held_init, ⟨rfl, zero_le, zero_le⟩, zero_le, ?_⟩
    intro base flight hlook
    exact absurd hlook (by simp [init, State.init])
  have hrun := runFrom_induct (P := fun w => Held shared w ∧ Stocked _ w.state ∧ Manned _ w.state)
    (fun w op h hadd => ⟨held_step h.1, stocked_step hc h.1 h.2.1 hadd, manned_step h.2.2⟩)
    ops init hinit hadds
  obtain ⟨_, hstock, hman⟩ := hrun
  exact ⟨hstock.balanced, hstock.bytes, hstock.entries, hman.flights, hman.followers⟩

/-! ## Small runs -/

section

attribute [local instance] Small.crates

/-- A fill, a follower, a hit and an eviction. -/
def smallRun : List Op :=
  let plain := Small.response HeaderMap.empty [1, 2, 3]
  [.prepare (Small.request "/a" .empty) plain none, .prepare (Small.request "/b" .empty) plain none,
    .prepare (Small.request "/c" .empty) plain none,
    .beginFill (Small.base "/a"), .beginFill (Small.base "/a"), .store 0 0,
    .beginFill (Small.base "/b"), .store 0 1, .lookup (Small.time 0) (Small.request "/a" .empty),
    .beginFill (Small.base "/c"), .store 0 2, .beginFill (Small.base "/d")]

theorem run_accounted_small :
    Small.shared.config.validate = true ∧ EveryStep Small.shared (Adds Small.shared) init smallRun
      ∧ size (run Small.shared smallRun).state.entries = 2
      ∧ Accounted Small.config (run Small.shared smallRun).state :=
  ⟨by decide, by decide +kernel, by decide +kernel,
    run_accounted Small.shared (by decide) smallRun (by decide +kernel)⟩

/-- A configuration without a quota of its own. -/
def wideConfig : CacheConfig :=
  { Small.config with
    maxTotalBytes := usizeMax
    maxObjectBytes := usizeMax
    maxBodyBytes := usizeMax
    word := by decide }

def wide : Shared := ⟨7, wideConfig⟩

/-- What `wide` makes of a response without fields. -/
def wideEntry (path : String) (body : Bytes) (charge : ℕ) : PreparedEntry where
  key := ⟨Small.base path, []⟩
  status := .ok
  headers := .empty
  body
  tags := []
  policy := ⟨0, 0, 0, 0, .rfc, false, false, false⟩
  validators := ⟨none, none⟩
  responseReceived := Small.time 0
  charge
  identity := 7

theorem prepareInner_wide {path : String} (hpath : path = "/a" ∨ path = "/b") {body : Bytes}
    (hbody : body.length = 2 ^ 63 - 1) :
    prepareInner wide (Small.request path .empty) (Small.response .empty body) none
      = .ok (wideEntry path body (2 ^ 63 + 167)) := by
  have hbounds : checkHeaderBounds HeaderMap.empty wideConfig = true := by decide
  have hbase : BaseKey.new (Small.request path .empty) wideConfig.maxKeyBytes
      = .ok (Small.base path) := by
    rcases hpath with rfl | rfl <;> decide +kernel
  have hkey : CacheKey.new (Small.base path) .empty (.names []) wideConfig.maxKeyBytes
      = .ok ⟨Small.base path, []⟩ := by
    rcases hpath with rfl | rfl <;> decide +kernel
  have hcharge :
    objectCharge ⟨Small.base path, []⟩ .empty (2 ^ 63 - 1) [] = some (2 ^ 63 + 167) := by
    rcases hpath with rfl | rfl <;> decide +kernel
  have hlimit : 2 ^ 63 + 167 ≤ usizeMax := by decide
  refine Prepares.prepareInner_eq ?_
  exact
    { method := rfl
      timing := le_refl _
      requestBounds := hbounds
      headerBounds := hbounds
      bodyBound := by
        change body.length ≤ usizeMax
        rw [hbody]
        decide
      policy := ⟨.names [], rfl, hkey⟩
      base := hbase
      tags := rfl
      charge := by
        change objectCharge ⟨Small.base path, []⟩ .empty body.length [] = _
        rw [hbody]
        exact hcharge
      chargeObject := hlimit
      chargeTotal := hlimit
      identity := rfl
      status := rfl
      headers := rfl
      body := rfl
      responseReceived := rfl }

/-- The longest body a slice can have. -/
@[irreducible] def wideBody : Bytes := List.replicate (2 ^ 63 - 1) 0

/-- Two fills whose charges together exceed the largest word. -/
def wideRun : List Op :=
  [.prepare (Small.request "/a" .empty) (Small.response .empty wideBody) none,
    .prepare (Small.request "/b" .empty) (Small.response .empty wideBody) none,
    .beginFill (Small.base "/a"), .store 0 0, .beginFill (Small.base "/b"), .store 0 1]

/-- The world after the two entries of `wideRun` were prepared. -/
def wideWorld : World :=
  ⟨State.init, [wideEntry "/a" wideBody (2 ^ 63 + 167), wideEntry "/b" wideBody (2 ^ 63 + 167)], [],
    [], []⟩

/-- The world after `wideRun`. -/
def wideEnd : World :=
  runFrom wide wideWorld
    [.beginFill (Small.base "/a"), .store 0 0, .beginFill (Small.base "/b"), .store 0 1]

theorem wideBody_length : wideBody.length = 2 ^ 63 - 1 := by rw [wideBody, List.length_replicate]

theorem step_prepare_wide {path : String} (hpath : path = "/a" ∨ path = "/b") :
    step wide w (.prepare (Small.request path .empty) (Small.response .empty wideBody) none)
      = { w with prepared := w.prepared ++ [wideEntry path wideBody (2 ^ 63 + 167)] } := by
  rw [step, prepare, prepareInner_wide hpath wideBody_length]
  rfl

theorem run_wide : run wide wideRun = wideEnd := by
  rw [run, wideRun, runFrom, List.foldl_cons, List.foldl_cons, step_prepare_wide (.inl rfl),
    step_prepare_wide (.inr rfl)]
  rfl

theorem wideEnd_bytes : wideEnd.state.bytesUsed = usizeMax
    ∧ total (fun stored => stored.entry.charge) wideEnd.state.entries = 2 ^ 64 + 334 := by
  decide +kernel

/-- With a quota of the largest word the byte counter loses what exceeds it. -/
theorem run_wide_unaccounted :
    wide.config.validate = true ∧ ¬Accounted wide.config (run wide wideRun).state := by
  refine ⟨by decide, fun h => ?_⟩
  have hbalanced := h.balanced
  rw [run_wide, wideEnd_bytes.1, wideEnd_bytes.2] at hbalanced
  cases hbalanced

end

end World

end Oxiroute.Cache
