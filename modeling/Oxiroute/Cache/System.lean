import Oxiroute.Cache.Admission

/-!
# Runs of the memory cache

A `World` is a cache with what its clients hold: the entries they prepared, the fill guards they
have not used up, and the followers that wait for a fill. `issued` remembers every guard that was
ever handed out. An `Op` is one call by some client; clients refer to what they hold by position,
and a call with nothing at that position does nothing. An entry that another cache prepared can be
brought in with `receive`.

`EntryEffect` and `FillEffect` say once what an operation does to the entries and to the fills.
Everything about a whole run is proved from them: `runFrom_induct` is the induction.
-/

namespace Oxiroute.Cache

open Lib Http State List

/-- A cache and what its clients hold. -/
structure World where
  state : State
  prepared : List PreparedEntry
  guards : List FillGuard
  issued : List FillGuard
  waiters : List ℕ

inductive Op where
  | prepare (request : RequestKeyInput) (response : CacheResponse) (timeline : Option CacheTimeline)
  | prepareNotModified (request : RequestKeyInput) (key : CacheKey) (notModified : HeaderMap)
      (timing : ResponseTiming) (timeline : Option CacheTimeline)
  | receive (entry : PreparedEntry)
  | lookup (now : MonoTime) (request : RequestKeyInput)
  | staleIfError (now : MonoTime) (key : CacheKey)
  | beginFill (base : BaseKey)
  | store (guard entry : ℕ)
  | completeWithoutStore (guard : ℕ)
  | dropGuard (guard : ℕ)
  | purgeExact (key : CacheKey)
  | purgeBase (base : BaseKey)
  | purgeTag (tag : Bytes)
  | restore (now : MonoTime) (wall : SystemTime) (record : Bytes)
  | removeWithoutCancellingFill (key : CacheKey)
  | cancelAllFills

namespace World

/-- A new cache nobody has used. -/
def init : World := ⟨State.init, [], [], [], []⟩

/-- Hands a prepared entry to its client. -/
def keep (w : World) : Except CacheError PreparedEntry → World
  | .ok entry => { w with prepared := w.prepared ++ [entry] }
  | .error _ => w

/-- Hands the outcome of `begin_fill` to its client. -/
def join (w : World) : Except CacheError FillJoin → World
  | .ok (.leader guard) => { w with guards := w.guards ++ [guard], issued := w.issued ++ [guard] }
  | .ok (.follower generation) => { w with waiters := w.waiters ++ [generation] }
  | _ => w

def step [Crates] (shared : Shared) (w : World) : Op → World
  | .prepare request response timeline =>
    let (result, state) := w.state.prepare shared request response timeline
    { w with state }.keep result
  | .prepareNotModified request key notModified timing timeline =>
    w.keep (w.state.prepareNotModified shared request key notModified timing timeline)
  | .receive entry =>
    if entry.identity = shared.identity then w else { w with prepared := w.prepared ++ [entry] }
  | .lookup now request => { w with state := (w.state.lookup shared.config now request).2 }
  | .staleIfError now key => { w with state := (w.state.staleIfError now key).2 }
  | .beginFill base =>
    let (result, state) := w.state.beginFill shared base
    { w with state }.join result
  | .store guard entry =>
    match w.guards[guard]?, w.prepared[entry]? with
    | some g, some e =>
      { w with state := (g.store shared.config e w.state).2, guards := w.guards.eraseIdx guard }
    | _, _ => w
  | .completeWithoutStore guard =>
    match w.guards[guard]? with
    | some g =>
      { w with state := (g.completeWithoutStore w.state).2, guards := w.guards.eraseIdx guard }
    | none => w
  | .dropGuard guard =>
    match w.guards[guard]? with
    | some g => { w with state := g.drop w.state, guards := w.guards.eraseIdx guard }
    | none => w
  | .purgeExact key => { w with state := (w.state.purgeExact key).2 }
  | .purgeBase base => { w with state := (w.state.purgeBase base).2 }
  | .purgeTag tag => { w with state := (w.state.purgeTag shared.config tag).2 }
  | .restore now wall record =>
    match decodeRecord shared.config now wall record with
    | .ok decoded => { w with state := (w.state.restore shared decoded.entry).2 }
    | .error _ => w
  | .removeWithoutCancellingFill key =>
    { w with state := (w.state.removeWithoutCancellingFill key).2 }
  | .cancelAllFills => { w with state := w.state.cancelAllFills }

def runFrom [Crates] (shared : Shared) (w : World) (ops : List Op) : World :=
  ops.foldl (step shared) w

def run [Crates] (shared : Shared) (ops : List Op) : World := runFrom shared init ops

/-- A condition on a step, asked of every step of a run. -/
def EveryStep [Crates] (shared : Shared) (C : World → Op → Prop) : World → List Op → Prop
  | _, [] => True
  | w, op :: ops => C w op ∧ EveryStep shared C (step shared w op) ops

instance decidableEveryStep [Crates] (shared : Shared) (C : World → Op → Prop)
    [∀ w op, Decidable (C w op)] : ∀ (w : World) (ops : List Op),
      Decidable (EveryStep shared C w ops)
  | _, [] => .isTrue trivial
  | w, op :: ops =>
    @instDecidableAnd _ _ _ (decidableEveryStep shared C (step shared w op) ops)

variable {shared : Shared} {w : World} {s t : State} {config : CacheConfig} {P : World → Prop}
  {base : BaseKey} {g : FillGuard} {op : Op} {entry : PreparedEntry} {u : State}
  {outcome : FillOutcome}

/-- **Induction over runs**: what holds at first and is kept by every step that meets the condition
holds after every run whose steps all meet it. -/
theorem runFrom_induct [Crates] {C : World → Op → Prop}
    (step : ∀ w op, P w → C w op → P (step shared w op)) :
    ∀ (ops : List Op) (w : World), P w → EveryStep shared C w ops → P (runFrom shared w ops)
  | [], _, h, _ => h
  | op :: ops, w, h, hc => runFrom_induct step ops _ (step w op h hc.1) hc.2

theorem runFrom_keeps [Crates] (step : ∀ w op, P w → P (step shared w op)) :
    ∀ (ops : List Op) (w : World), P w → P (runFrom shared w ops)
  | [], _, h => h
  | op :: ops, w, h => runFrom_keeps step ops _ (step w op h)

/-! ## Entries that may be stored -/

/-- What the clients hold is as it was handed out: an entry of this cache was prepared by it, and
every guard is one of this cache's. -/
structure Held [Crates] (shared : Shared) (w : World) : Prop where
  prepared : ∀ e ∈ w.prepared, e.identity = shared.identity → Prepared shared e
  guards : ∀ g ∈ w.guards, g.identity = shared.identity

theorem held_init [Crates] : Held shared init := ⟨by simp [init], by simp [init]⟩

theorem Held.keep [Crates] (h : Held shared w) {r : Except CacheError PreparedEntry}
    (hr : ∀ e, r = .ok e → Prepared shared e) : Held shared (w.keep r) := by
  cases r with
  | error e => exact h
  | ok entry =>
    refine ⟨?_, h.guards⟩
    intro e he hid
    rcases mem_append.mp he with he | he
    · exact h.prepared e he hid
    · rw [mem_singleton.mp he]
      exact hr entry rfl

theorem Held.withState [Crates] (h : Held shared w) : Held shared { w with state := s } :=
  ⟨h.prepared, h.guards⟩

theorem Held.consume [Crates] (h : Held shared w) {i : ℕ} :
    Held shared { w with state := s, guards := w.guards.eraseIdx i } :=
  ⟨h.prepared, fun g hg => h.guards g ((eraseIdx_sublist _ _).subset hg)⟩

theorem beginFill_leader (h : (s.beginFill shared base).1 = .ok (.leader g)) :
    g = { identity := shared.identity, base, generation := s.nextGeneration } := by
  unfold beginFill at h
  split at h
  · cases h
  split at h
  · split_ifs at h <;> cases h
  · split_ifs at h <;> cases h
    rfl

theorem held_step [Crates] (h : Held shared w) : Held shared (step shared w op) := by
  cases op with
  | prepare request response timeline =>
    exact h.withState.keep fun e he => prepared_prepare he
  | prepareNotModified request key notModified timing timeline =>
    exact h.keep fun e he => prepared_prepareNotModified he
  | receive entry =>
    simp only [step]
    split_ifs with hid
    · exact h
    · refine ⟨?_, h.guards⟩
      intro e he heid
      rcases mem_append.mp he with he | he
      · exact h.prepared e he heid
      · rw [mem_singleton.mp he] at heid
        exact absurd heid hid
  | lookup now request | staleIfError now key => exact h.withState
  | beginFill base =>
    simp only [step]
    cases hj : (w.state.beginFill shared base).1 with
    | error e => exact h.withState
    | ok joined =>
      cases joined with
      | leader g =>
        refine ⟨h.prepared, ?_⟩
        intro g' hg'
        rcases mem_append.mp hg' with hg' | hg'
        · exact h.guards g' hg'
        · rw [mem_singleton.mp hg', beginFill_leader hj]
      | follower generation => exact ⟨h.prepared, h.guards⟩
      | atCapacity => exact h.withState
  | store guard entry =>
    simp only [step]
    cases w.guards[guard]? with
    | none => exact h
    | some g =>
      cases w.prepared[entry]? with
      | none => exact h
      | some e => exact h.consume
  | completeWithoutStore guard | dropGuard guard =>
    simp only [step]
    cases w.guards[guard]? with
    | none => exact h
    | some g => exact h.consume
  | purgeExact key | removeWithoutCancellingFill key => exact h.withState
  | purgeBase base | purgeTag tag => exact h.withState
  | restore now wall record =>
    simp only [step]
    cases decodeRecord _ now wall record with
    | error e => exact h
    | ok decoded => exact h.withState
  | cancelAllFills => exact h.withState

/-! ## The entries over a step -/

/-- The entry an operation inserts: a prepared one whose guard is current and claims it, or a
decoded one. -/
def inserting [Crates] (shared : Shared) (w : World) : Op → Option PreparedEntry
  | .store guard entry =>
    match w.guards[guard]?, w.prepared[entry]? with
    | some g, some e =>
      match g.claim e with
      | .ok e => if g.isCurrent w.state then some e else none
      | .error _ => none
    | _, _ => none
  | .restore now wall record =>
    match decodeRecord shared.config now wall record with
    | .ok decoded => some { decoded.entry with identity := shared.identity }
    | .error _ => none
  | _ => none

theorem Held.inserting [Crates] (h : Held shared w)
    (hi : World.inserting shared w op = some entry) :
    Prepared shared entry ∨ ∃ now wall record decoded, op = .restore now wall record
      ∧ decodeRecord shared.config now wall record = .ok decoded
      ∧ entry = { decoded.entry with identity := shared.identity } := by
  cases op with
  | store guard index =>
    simp only [World.inserting] at hi
    cases hg : w.guards[guard]? with
    | none => simp [hg] at hi
    | some g =>
      cases he : w.prepared[index]? with
      | none => simp [hg, he] at hi
      | some e =>
        simp only [hg, he, FillGuard.claim] at hi
        split_ifs at hi with hid hbase hcurrent
        · obtain rfl := Option.some.inj hi
          have hown : e.identity = shared.identity :=
            (not_not.mp hid).trans (h.guards g (mem_of_getElem? hg))
          exact .inl (h.prepared e (mem_of_getElem? he) hown)
  | restore now wall record =>
    simp only [World.inserting] at hi
    cases hd : decodeRecord shared.config now wall record with
    | error e => simp [hd] at hi
    | ok decoded =>
      simp only [hd, Option.some.injEq] at hi
      exact .inr ⟨now, wall, record, decoded, rfl, hd, hi.symm⟩
  | _ => simp [World.inserting] at hi

/-- What an operation does to the entries. -/
inductive EntryEffect (config : CacheConfig) (s t : State) : Option PreparedEntry → Prop
  | same : State.SameEntries s t → EntryEffect config s t none
  | removed (keys : List CacheKey) :
      State.SameEntries (s.dropEntries keys) t → EntryEffect config s t none
  | accessed (key : CacheKey) : State.Accessed s key t → EntryEffect config s t none
  | inserted (entry : PreparedEntry) :
      State.SameEntries (s.insertEntry config entry).2 t → EntryEffect config s t (some entry)

theorem EntryEffect.of_lookup {r : Except CacheError Lookup} (h : State.LookupEffect s t r) :
    EntryEffect config s t none := by
  cases h with
  | failed e h | bypassed status h | missed status onlyIfCached base h => exact .same h
  | expired status onlyIfCached base key _ h => exact .removed [key] h
  | found lookup key entry age _ _ h => exact .accessed key h

variable {e : PreparedEntry} {k : CacheKey}

theorem store_effect : EntryEffect shared.config s (g.store shared.config e s).2
      (match g.claim e with
        | .ok e => if g.isCurrent s then some e else none
        | .error _ => none) := by
  unfold FillGuard.store
  cases hc : g.claim e with
  | error err => exact .same (sameEntries_drop g s)
  | ok e' =>
    simp only [FillGuard.storeClaimed]
    by_cases hcur : g.isCurrent s = true
    · simp only [hcur, Bool.true_eq_false, if_false, if_true]
      have hsame : State.SameEntries s { s with flights := s.flights.erase g.base } :=
        ⟨rfl, rfl, rfl⟩
      have h := (hsame.insertEntry shared.config e').2
      exact .inserted e' ⟨h.entries, h.bytesUsed, h.sequence⟩
    · simp only [hcur, if_true]
      exact .same (.refl s)

theorem EntryEffect.shrinks (h : EntryEffect config s t none) : State.Shrinks s t := by
  cases h with
  | same hs => exact hs.shrinks
  | removed keys hs => exact (shrinks_dropEntries keys).trans hs.shrinks
  | accessed key ha => exact ha.shrinks

/-- What is stored after an insertion is the new entry, or was stored before under another key, and
then it has the schema of the new entry when it has its base. -/
theorem EntryEffect.stored (h : EntryEffect config s t (some entry)) (hk : t.entry k = some e) :
    k = entry.key ∧ e = entry ∨ s.entry k = some e ∧ k ≠ entry.key
        ∧ (k.base = entry.key.base → k.sameVarySchema entry.key = true) := by
  cases h with
  | inserted _ hs =>
    rw [hs.entry, entry_insertEntry] at hk
    split_ifs at hk with hkey
    · exact .inl ⟨hkey, (Option.some.inj hk).symm⟩
    · exact .inr (entry_makeRoom hk)

/-! ## The fills over a step -/

/-- The flight of a base leaves the table and its followers get an outcome. -/
structure Retired (s : State) (base : BaseKey) (flight : Flight) (outcome : FillOutcome)
    (t : State) : Prop where
  found : s.flights.lookup base = some flight
  terminal : outcome ≠ .filling
  flights : t.flights = s.flights.erase base
  signals : t.signals = s.signals ++ [(flight.generation, outcome)]
  nextGeneration : t.nextGeneration = s.nextGeneration

/-- Some flights leave the table one after another. -/
inductive Retires (s : State) : State → Prop
  | same {t : State} : State.SameFills s t → Retires s t
  | retire {t u : State} {base : BaseKey} {flight : Flight} {outcome : FillOutcome} :
      Retires s t → Retired t base flight outcome u → Retires s u

theorem Retires.trans_same (h : Retires s t) (h' : State.SameFills t u) : Retires s u := by
  cases h with
  | same h => exact .same (h.trans h')
  | retire h hr =>
    exact .retire h ⟨hr.found, hr.terminal, h'.flights.trans hr.flights,
      h'.signals.trans hr.signals, h'.nextGeneration.trans hr.nextGeneration⟩

theorem isCurrent_iff : g.isCurrent s = true ↔
      ∃ flight, s.flights.lookup g.base = some flight ∧ flight.generation = g.generation := by
  unfold FillGuard.isCurrent generationMatches
  cases s.flights.lookup g.base with
  | none | some flight => simp

/-- A flight that is still the guard's own leaves the table. -/
theorem retires_current (hcur : ¬g.isCurrent s = false) (ho : outcome ≠ .filling)
    (ht : State.SameFills { s with
      flights := s.flights.erase g.base
      signals := s.signals ++ [(g.generation, outcome)] } t) : Retires s t := by
  obtain ⟨flight, hf, hgen⟩ := isCurrent_iff.mp (Bool.eq_true_of_not_eq_false hcur)
  rw [← hgen] at ht
  exact .retire (.same (.refl s)) ⟨hf, ho, ht.flights, ht.signals, ht.nextGeneration⟩

theorem retires_drop : Retires s (g.drop s) := by
  unfold FillGuard.drop
  split_ifs with hcur
  · exact .same (.refl s)
  · exact retires_current hcur (show FillOutcome.cancelled ≠ .filling by simp) ⟨rfl, rfl, rfl⟩

theorem retires_finish (ho : outcome ≠ .filling) : Retires s (g.finish outcome s).2 := by
  unfold FillGuard.finish
  split_ifs with hcur
  · exact .same (.refl s)
  · exact retires_current hcur ho ⟨rfl, rfl, rfl⟩

theorem retires_storeClaimed (config : CacheConfig) (g : FillGuard) (e : PreparedEntry)
    (s : State) : Retires s (g.storeClaimed config e s).2 := by
  unfold FillGuard.storeClaimed
  split_ifs with hcur
  · exact .same (.refl s)
  · have h := sameFills_insertEntry config { s with flights := s.flights.erase g.base } e
    generalize insertEntry config { s with flights := s.flights.erase g.base } e = inserted at h ⊢
    exact retires_current hcur (show FillOutcome.stored ≠ .filling by simp)
      ⟨h.flights, congrArg (· ++ [_]) h.signals, h.nextGeneration⟩

theorem retires_store : Retires s (g.store config e s).2 := by
  unfold FillGuard.store
  cases g.claim e with
  | error err => exact retires_drop
  | ok e' =>
    have h := retires_storeClaimed config g e' s
    simp only
    cases hc : g.storeClaimed config e' s with
    | mk outcome t =>
      rw [hc] at h
      cases outcome with
      | stored delta | generationLost => exact h

theorem Retires.cancelFlight (h : Retires s t) (base : BaseKey) (outcome : FillOutcome)
    (ho : outcome ≠ .filling) : Retires s (t.cancelFlight base outcome).2 := by
  unfold State.cancelFlight
  cases hf : t.flights.lookup base with
  | none => exact h
  | some flight => exact .retire h ⟨hf, ho, rfl, rfl, rfl⟩

theorem retires_purgeExact {key : CacheKey} : Retires s (s.purgeExact key).2 := by
  have h := (Retires.same (sameFills_dropEntry s key)).cancelFlight key.base .purged (by simp)
  exact h.trans_same ⟨rfl, rfl, rfl⟩

theorem retires_purgeBase : Retires s (s.purgeBase base).2 := by
  have h := (Retires.same (sameFills_dropEntries
    (s.entries.keys.filter fun key => key.base = base) s)).cancelFlight base .purged (by simp)
  exact h.trans_same ⟨rfl, rfl, rfl⟩

theorem retires_foldl_purgeTagged {keys : List CacheKey} (acc : PurgeResult × State)
    (h : Retires s acc.2) : Retires s (keys.foldl purgeTagged acc).2 := by
  induction keys generalizing acc with
  | nil => exact h
  | cons key keys ih =>
    refine ih _ ?_
    exact (h.trans_same (sameFills_dropEntry acc.2 key)).cancelFlight key.base .purged (by simp)

theorem retires_purgeTag {tag : Bytes} : Retires s (s.purgeTag config tag).2 := by
  unfold purgeTag
  split_ifs with hv
  · exact .same (.refl s)
  · exact (retires_foldl_purgeTagged (⟨0, 0, 0⟩, s) (.same (.refl s))).trans_same ⟨rfl, rfl, rfl⟩

theorem Retires.head {flight : Flight} (h : Retired s base flight outcome t) (h' : Retires t u) :
    Retires s u := by
  induction h' with
  | same hs => exact (Retires.retire (.same (.refl s)) h).trans_same hs
  | retire _ hr ih => exact .retire ih hr

theorem retires_of_cleared (ht : t.flights = ∅) :
    ∀ (flights : List (Sigma fun _ : BaseKey => Flight)) (s : State), s.flights.entries = flights →
      t.signals = s.signals ++ flights.map (fun e => (e.2.generation, FillOutcome.cancelled)) →
      t.nextGeneration = s.nextGeneration → Retires s t
  | [], s, hs, hsig, hgen => by
    refine .same ⟨?_, by rw [hsig, map_nil, append_nil], hgen⟩
    rw [ht]
    exact AList.ext hs.symm
  | ⟨base, flight⟩ :: flights, s, hs, hsig, hgen => by
    have hfound : s.flights.lookup base = some flight := by
      rw [AList.lookup, hs, dlookup_cons_eq]
    let s' : State :=
      { s with
        flights := s.flights.erase base
        signals := s.signals ++ [(flight.generation, .cancelled)] }
    have hrest : s'.flights.entries = flights := by
      change kerase base s.flights.entries = flights
      rw [hs]
      exact kerase_cons_eq rfl
    have hhead : Retired s base flight .cancelled s' := ⟨hfound, by simp, rfl, rfl, rfl⟩
    refine .head hhead (retires_of_cleared ht flights s' hrest ?_ hgen)
    rw [hsig, map_cons, append_assoc]
    rfl

theorem retires_cancelAllFills : Retires s s.cancelAllFills :=
  retires_of_cleared rfl _ s rfl rfl rfl

/-- What `begin_fill` hands out. -/
def handed : Except CacheError FillJoin → Option FillJoin
  | .ok (.leader guard) => some (.leader guard)
  | .ok (.follower generation) => some (.follower generation)
  | _ => none

/-- What an operation hands out of the fills. -/
def handing (shared : Shared) (w : World) : Op → Option FillJoin
  | .beginFill base => handed (w.state.beginFill shared base).1
  | _ => none

/-- What an operation does to the fills. -/
inductive FillEffect (shared : Shared) (s t : State) : Option FillJoin → Prop
  | retires : Retires s t → FillEffect shared s t none
  | joined (base : BaseKey) (flight : Flight) : s.flights.lookup base = some flight →
      flight.followers < shared.config.maxFollowersPerFill →
      t.flights = Table.update base (fun f => { f with followers := f.followers + 1 }) s.flights →
      t.signals = s.signals → t.nextGeneration = s.nextGeneration →
      FillEffect shared s t (some (.follower flight.generation))
  | led (base : BaseKey) : s.flights.lookup base = none →
      Table.size s.flights < shared.config.maxInFlight →
      t.flights = s.flights.insert base { generation := s.nextGeneration, followers := 0 } →
      t.signals = s.signals → t.nextGeneration = s.nextGeneration + 1 → FillEffect shared s t
        (some (.leader { identity := shared.identity, base, generation := s.nextGeneration }))

theorem beginFill_effect (shared : Shared) (base : BaseKey) (s : State) :
    FillEffect shared s (s.beginFill shared base).2 (handed (s.beginFill shared base).1) := by
  unfold beginFill
  by_cases hbad : base.isGet = false ∨ base.encodedLen > shared.config.maxKeyBytes
  · simp only [if_pos hbad]
    exact .retires (.same (.refl _))
  · simp only [if_neg hbad]
    cases hf : s.flights.lookup base with
    | some flight =>
      by_cases hfull : flight.followers ≥ shared.config.maxFollowersPerFill
      · simp only [if_pos hfull]
        exact .retires (.same (.refl _))
      · simp only [if_neg hfull]
        exact .joined base flight hf (not_le.mp hfull) rfl rfl rfl
    | none =>
      by_cases hfull : Table.size s.flights ≥ shared.config.maxInFlight
      · simp only [if_pos hfull]
        exact .retires (.same (.refl _))
      · simp only [if_neg hfull]
        exact .led base hf (not_le.mp hfull) rfl rfl rfl

/-- What an operation does to the entries and to the fills. -/
structure StepEffect (shared : Shared) (s t : State) (entry : Option PreparedEntry)
    (joined : Option FillJoin) : Prop where
  entries : EntryEffect shared.config s t entry
  fills : FillEffect shared s t joined

theorem StepEffect.same (hentries : State.SameEntries s t) (hfills : State.SameFills s t) :
    StepEffect shared s t none none :=
  ⟨.same hentries, .retires (.same hfills)⟩

theorem StepEffect.refl : StepEffect shared s s none none := .same (.refl s) (.refl s)

/-- **One operation**, case by case. -/
theorem step_effect [Crates] (shared : Shared) (w : World) (op : Op) :
    StepEffect shared w.state (step shared w op).state (inserting shared w op)
      (handing shared w op) := by
  cases op with
  | prepare request response timeline =>
    have h := prepare_state shared request response timeline w.state
    simp only [step, inserting, handing]
    cases (w.state.prepare shared request response timeline).1 with
    | error e | ok entry => exact .same h.1 h.2
  | prepareNotModified request key notModified timing timeline =>
    simp only [step, inserting, handing]
    cases w.state.prepareNotModified shared request key _ timing timeline with
    | error e | ok entry => exact .refl
  | receive entry =>
    simp only [step, inserting, handing]
    split_ifs <;> exact .refl
  | lookup now request =>
    have h := lookup_effect shared.config now request w.state
    exact ⟨.of_lookup h.1, .retires (.same h.2)⟩
  | staleIfError now key =>
    obtain ⟨hentries, hfills⟩ := staleIfError_effect now key w.state
    refine ⟨?_, .retires (.same hfills)⟩
    simp only [step, inserting]
    rcases hentries with ⟨_, h⟩ | ⟨_, _, h⟩
    · rw [h]
      exact .same (.refl _)
    · exact .accessed key h
  | beginFill base =>
    have hentries := sameEntries_beginFill shared base w.state
    have hfills := beginFill_effect shared base w.state
    simp only [step, inserting, handing]
    cases hj : (w.state.beginFill shared base).1 with
    | error e =>
      rw [hj] at hfills
      exact ⟨.same hentries, hfills⟩
    | ok joined =>
      rw [hj] at hfills
      cases joined with
      | leader g | follower generation | atCapacity => exact ⟨.same hentries, hfills⟩
  | store guard entry =>
    simp only [step, inserting, handing]
    cases w.guards[guard]? with
    | none => exact .refl
    | some g =>
      cases w.prepared[entry]? with
      | none => exact .refl
      | some e => exact ⟨store_effect, .retires retires_store⟩
  | completeWithoutStore guard =>
    simp only [step, inserting, handing]
    cases w.guards[guard]? with
    | none => exact .refl
    | some g => exact ⟨.same sameEntries_completeWithoutStore, .retires (retires_finish (by simp))⟩
  | dropGuard guard =>
    simp only [step, inserting, handing]
    cases w.guards[guard]? with
    | none => exact .refl
    | some g => exact ⟨.same (sameEntries_drop g w.state), .retires retires_drop⟩
  | purgeExact key => exact ⟨.removed [key] purgeExact_entries, .retires retires_purgeExact⟩
  | purgeBase base => exact ⟨.removed _ purgeBase_entries, .retires retires_purgeBase⟩
  | purgeTag tag =>
    refine ⟨?_, .retires retires_purgeTag⟩
    have h := purgeTag_entries shared.config tag w.state
    split_ifs at h
    · exact .removed _ h
    · exact .same h
  | restore now wall record =>
    simp only [step, inserting, handing]
    cases decodeRecord _ now wall record with
    | error e => exact .refl
    | ok decoded =>
      exact ⟨.inserted _ (.refl _), .retires (.same (sameFills_insertEntry _ w.state _))⟩
  | removeWithoutCancellingFill key =>
    exact ⟨.removed [key] (.refl _), .retires (.same (sameFills_dropEntry w.state key))⟩
  | cancelAllFills => exact ⟨.same ⟨rfl, rfl, rfl⟩, .retires retires_cancelAllFills⟩

theorem step_entries [Crates] {P : CacheKey → PreparedEntry → Prop}
    (h : ∀ k e, w.state.entry k = some e → P k e)
    (hi : ∀ entry, inserting shared w op = some entry → P entry.key entry)
    (hk : (step shared w op).state.entry k = some e) : P k e := by
  have heffect := (step_effect shared w op).entries
  cases hins : inserting shared w op with
  | none =>
    rw [hins] at heffect
    exact h k e (heffect.shrinks k e hk)
  | some entry =>
    rw [hins] at heffect
    rcases heffect.stored hk with ⟨rfl, rfl⟩ | ⟨hold, _, _⟩
    · exact hi e hins
    · exact h k e hold

end World

/-! ## A small cache

A concrete environment in which the model can be run: authorities that are a registered name with
an optional port, no dates, and the CRC-32 the records are checked with. -/

namespace Small

/-- A port number after a colon. -/
def port (digits : List Char) : Option UInt16 :=
  if digits.isEmpty || !digits.all Char.isDigit then none
  else
    let n := digits.foldl (fun n d => n * 10 + (d.toNat - 48)) 0
    if n < 65536 then some (UInt16.ofNat n) else none

/-- A registered name with an optional port. -/
def authority (s : String) : Option Authority :=
  let chars := s.toList
  let rest := chars.dropWhile (· ≠ ':')
  if chars.isEmpty || (chars.any fun c => !(c.isAlphanum || c = '.' || c = '-' || c = ':'))
      || rest.tail.contains ':' then none
  else some { host := String.ofList (chars.takeWhile (· ≠ ':')), port := port rest.tail }

/-- Eight shifts of the reflected CRC-32 register. -/
def crcShifts : ℕ → ℕ → ℕ
  | 0, crc => crc
  | n + 1, crc => crcShifts n (if crc % 2 = 1 then (crc / 2) ^^^ 0xEDB88320 else crc / 2)

def crc32 (bytes : Bytes) : UInt32 :=
  UInt32.ofNat (bytes.foldl (fun crc b => crcShifts 8 (crc ^^^ b.toNat)) 0xFFFFFFFF ^^^ 0xFFFFFFFF)

@[reducible] def crates : Crates where
  authority := authority
  httpDate _ := none
  tenth _ := 0
  crc32 := crc32

example : crc32 (utf8Bytes "123456789") = 0xCBF43926 := by decide +kernel

/-- A configuration with room for two entries. -/
def config : CacheConfig where
  maxEntries := 2
  maxTotalBytes := 4096
  maxObjectBytes := 2048
  maxHeaderBytes := 512
  maxHeaderFields := 8
  maxBodyBytes := 1024
  maxKeyBytes := 512
  maxVaryFields := 4
  maxTagsPerEntry := 2
  maxTagBytes := 16
  maxInFlight := 2
  maxFollowersPerFill := 1
  maxHeuristicFreshness := 0
  word := by decide

def shared : Shared := ⟨7, config⟩

def time (secs : UInt64) : MonoTime := ⟨Duration.ofSecs secs⟩

/-- A GET request for a path. -/
def request (path : String) (headers : HeaderMap) : RequestKeyInput :=
  ⟨Method.get, "http", "example.com", path, none, headers⟩

/-- The base key of such a request. -/
def base (path : String) : BaseKey := ⟨Method.get, "http", "example.com", path, none⟩

/-- A response received at once. -/
def response (headers : HeaderMap) (body : Bytes) : CacheResponse where
  status := .ok
  headers
  body
  timing := ⟨time 0, time 0, SystemTime.epoch⟩
  tags := []

def header (name : HeaderName) (value : String) (h : (utf8Bytes value).all isValueByte = true) :
    HeaderMap :=
  HeaderMap.empty.insert name ⟨utf8Bytes value, h⟩

end Small

end Oxiroute.Cache
