import Mathlib.Data.List.Nodup
import Mathlib.Tactic.Common
import Oxiroute.Lib.Machine
import Oxiroute.Lib.Prog
import Oxiroute.Supervision.Identity

/-!
# The request correlation table

Model of `oxiroute-supervision/src/correlation.rs`. The `BTreeMap` of pending requests is
`Std.TreeMap`; the const parameter `MAX` is the parameter `max`. A token pairs the caller's
request id with a nonzero generation, and `nextGeneration = 0` stands for an exhausted counter.

`History` records the tokens issued and the tokens resolved (completed, or returned by `expire`)
together with the request each of them stood for. Over every sequence of calls (`Coherent`) the
pending entries are the issued ones that were not resolved.
-/

namespace Oxiroute.Supervision

open Lib List Std.TreeMap UInt64 Prog

/-- `CorrelationGeneration`: a nonzero generation. -/
structure CorrelationGeneration where
  value : UInt64
  nonzero : value ≠ 0
  deriving DecidableEq

structure CorrelationToken where
  requestId : RequestId
  generation : CorrelationGeneration
  deriving DecidableEq

structure PendingRequest (T : Type) where
  deadline : Epoch
  value : T

inductive CorrelationError where
  | duplicate (requestId : RequestId)
  | full (maximum : Nat)
  | unknown (token : CorrelationToken)
  | generationExhausted

/-- A pending request under the token it was issued. -/
abbrev CorrelationEntry (T : Type) := CorrelationToken × PendingRequest T

structure CorrelationTable (T : Type) (max : Nat) where
  pending : Std.TreeMap RequestId (CorrelationEntry T)
  nextGeneration : UInt64

namespace CorrelationTable

variable {T : Type} {max : Nat}

abbrev Method (T : Type) (max : Nat) := Prog (CorrelationTable T max) CorrelationError

def new : CorrelationTable T max := ⟨∅, 1⟩

def len (t : CorrelationTable T max) : Nat := t.pending.size

def insert (requestId : RequestId) (deadline : Epoch) (value : T) :
    Method T max CorrelationToken := do
  let t ← get
  if t.pending.contains requestId then throw (.duplicate requestId)
  else if t.len = max then throw (.full max)
  else if h : t.nextGeneration = 0 then throw .generationExhausted
  else
    let token : CorrelationToken := ⟨requestId, ⟨t.nextGeneration, h⟩⟩
    modify fun t => {
      nextGeneration := (checkedAdd t.nextGeneration 1).getD 0
      pending := t.pending.insert requestId (token, ⟨deadline, value⟩) }
    pure token

def complete (token : CorrelationToken) : Method T max (PendingRequest T) := do
  let t ← get
  match t.pending[token.requestId]? with
  | some (pendingToken, pending) =>
    if pendingToken = token then
      modify fun t => { t with pending := t.pending.erase token.requestId }
      pure pending
    else throw (.unknown token)
  | none => throw (.unknown token)

/-- The removals of `expire`: the entries found under `ids`, in that order, and the map left. -/
def removeAll : List RequestId → Std.TreeMap RequestId (CorrelationEntry T) →
    List (CorrelationEntry T) × Std.TreeMap RequestId (CorrelationEntry T)
  | [], pending => ([], pending)
  | id :: ids, pending =>
    let rest := removeAll ids (pending.erase id)
    (pending[id]?.toList ++ rest.1, rest.2)

/-- The ids `expire` collects before it removes anything. -/
def expiredIds (now : Epoch) (t : CorrelationTable T max) : List RequestId :=
  t.pending.toList.filterMap fun e => if e.2.2.deadline ≤ now then some e.1 else none

def expire (now : Epoch) : Method T max (List (CorrelationEntry T)) := do
  let t ← get
  let removed := removeAll (t.expiredIds now) t.pending
  modify fun t => { t with pending := removed.2 }
  pure removed.1

/-! ## What each call does -/

/-- One call. -/
inductive Operation (T : Type) where
  | insert (requestId : RequestId) (deadline : Epoch) (value : T)
  | complete (token : CorrelationToken)
  | expire (now : Epoch)

/-- What a successful call hands to the caller: a new token, or resolved entries. -/
inductive Outcome (T : Type) where
  | issued (entry : CorrelationEntry T)
  | resolved (entries : List (CorrelationEntry T))

def perform : Operation T → Method T max (Outcome T)
  | .insert requestId deadline value => do
    let token ← insert requestId deadline value
    pure (.issued (token, ⟨deadline, value⟩))
  | .complete token => do
    let pending ← complete token
    pure (.resolved [(token, pending)])
  | .expire now => do pure (.resolved (← expire now))

variable {t t' : CorrelationTable T max}

/-- The pending entries whose deadline has passed, by request id. -/
def expired (now : Epoch) (t : CorrelationTable T max) : List (CorrelationEntry T) :=
  (t.pending.toList.filter fun e => e.2.2.deadline ≤ now).map (·.2)

/-- What a successful call requires, returns and leaves. -/
inductive Step (t : CorrelationTable T max) :
    Operation T → Outcome T → CorrelationTable T max → Prop
  | insert {id : RequestId} {deadline : Epoch} {value : T} (hk : t.pending[id]? = none)
      (hm : t.len ≠ max) (hg : t.nextGeneration ≠ 0) : Step t (.insert id deadline value)
        (.issued (⟨id, ⟨t.nextGeneration, hg⟩⟩, ⟨deadline, value⟩))
        { nextGeneration := (checkedAdd t.nextGeneration 1).getD 0
          pending := t.pending.insert id (⟨id, ⟨t.nextGeneration, hg⟩⟩, ⟨deadline, value⟩) }
  | complete {e : CorrelationEntry T} (he : t.pending[e.1.requestId]? = some e) :
      Step t (.complete e.1) (.resolved [e]) { t with pending := t.pending.erase e.1.requestId }
  | expire (now : Epoch) : Step t (.expire now) (.resolved (t.expired now))
        { t with pending := (removeAll (t.expiredIds now) t.pending).2 }

theorem compare_eq_iff {a b : RequestId} : compare a b = .eq ↔ a = b :=
  Std.LawfulEqCmp.compare_eq_iff_eq

variable {ids : List RequestId} {now : Epoch} {k : RequestId}
  {pending : Std.TreeMap RequestId (CorrelationEntry T)} {op : Operation T}

theorem removeAll_getElem? : ∀ pending : Std.TreeMap RequestId (CorrelationEntry T),
      (removeAll ids pending).2[k]? = if k ∈ ids then none else pending[k]? := by
  induction ids with
  | nil => simp [removeAll]
  | cons id ids ih =>
    simp only [removeAll, ih, getElem?_erase, compare_eq_iff, mem_cons]
    by_cases hk : k ∈ ids
    · simp [hk]
    · by_cases hid : id = k
      · simp [hid]
      · simp [hk, hid, Ne.symm hid]

theorem removeAll_entries : ∀ pending : Std.TreeMap RequestId (CorrelationEntry T), ids.Nodup →
      (removeAll ids pending).1 = ids.filterMap (pending[·]?) := by
  induction ids with
  | nil => simp [removeAll]
  | cons id ids ih =>
    intro pending hn
    obtain ⟨hid, hn⟩ := nodup_cons.mp hn
    have herase : ids.filterMap ((pending.erase id)[·]?) = ids.filterMap (pending[·]?) := by
      refine filterMap_congr fun k hk => ?_
      rw [getElem?_erase, if_neg]
      rw [compare_eq_iff]
      rintro rfl
      exact hid hk
    simp only [removeAll, ih _ hn, herase]
    cases h : pending[id]? <;> simp [h]

theorem removeAll_size : ∀ pending : Std.TreeMap RequestId (CorrelationEntry T),
      (removeAll ids pending).2.size ≤ pending.size := by
  induction ids with
  | nil => exact fun _ => le_rfl
  | cons id ids ih => exact fun _ => le_trans (ih _) size_erase_le

theorem expiredIds_eq :
    t.expiredIds now = (t.pending.toList.filter fun e => e.2.2.deadline ≤ now).map (·.1) := by
  rw [expiredIds, ← filterMap_eq_map', filterMap_filter]
  refine filterMap_congr fun e _ => ?_
  by_cases h : e.2.2.deadline ≤ now <;> simp [h]

theorem toList_keys_lt : pending.toList.Pairwise fun a b => a.1 < b.1 :=
  ordered_keys_toList.imp Std.compare_eq_lt.mp

theorem expiredIds_nodup : (t.expiredIds now).Nodup := by
  rw [expiredIds_eq]
  refine pairwise_map.mpr ((toList_keys_lt.sublist filter_sublist).imp ?_)
  intro a b hlt heq
  rw [heq] at hlt
  exact UInt64.lt_irrefl _ hlt

theorem mem_expiredIds :
    k ∈ t.expiredIds now ↔ ∃ e, t.pending[k]? = some e ∧ e.2.deadline ≤ now := by
  rw [expiredIds_eq, mem_map]
  constructor
  · rintro ⟨⟨k', e⟩, he, rfl⟩
    obtain ⟨hmem, hd⟩ := mem_filter.mp he
    exact ⟨e, mem_toList_iff_getElem?_eq_some.mp hmem, of_decide_eq_true hd⟩
  · rintro ⟨e, he, hd⟩
    exact ⟨(k, e), mem_filter.mpr
      ⟨mem_toList_iff_getElem?_eq_some.mpr he, decide_eq_true hd⟩, rfl⟩

theorem removeAll_expired : (removeAll (t.expiredIds now) t.pending).1 = t.expired now := by
  rw [removeAll_entries _ expiredIds_nodup, expiredIds_eq, expired, filterMap_map,
    ← filterMap_eq_map']
  refine filterMap_congr fun e he => ?_
  have hmem := mem_of_mem_filter he
  simpa using mem_toList_iff_getElem?_eq_some.mp hmem

theorem perform_cases :
    (∃ o t', Step t op o t' ∧ perform op t = (.ok o, t')) ∨ (perform op).Rejects t := by
  cases op with
  | insert id deadline value =>
    by_cases hk : t.pending.contains id
    · refine .inr ⟨.duplicate id, ?_⟩
      simp only [perform, insert, bind_run, get_run, if_pos hk, throw_run]
    by_cases hm : t.len = max
    · refine .inr ⟨.full max, ?_⟩
      simp only [perform, insert, bind_run, get_run, if_neg hk, if_pos hm,
        throw_run]
    by_cases hg : t.nextGeneration = 0
    · refine .inr ⟨.generationExhausted, ?_⟩
      simp only [perform, insert, bind_run, get_run, if_neg hk, if_neg hm, dif_pos hg,
        throw_run]
    have hnone : t.pending[id]? = none :=
      getElem?_eq_none_of_contains_eq_false (eq_false_of_ne_true hk)
    refine .inl ⟨_, _, .insert hnone hm hg, ?_⟩
    simp only [perform, insert, bind_run, get_run, if_neg hk, if_neg hm, dif_neg hg,
      modify_run, pure_run]
  | complete token =>
    cases hp : t.pending[token.requestId]? with
    | none =>
      refine .inr ⟨.unknown token, ?_⟩
      simp [perform, complete, bind_run, hp]
    | some e =>
      by_cases heq : e.1 = token
      · subst heq
        refine .inl ⟨_, _, .complete hp, ?_⟩
        simp [perform, complete, bind_run, hp]
      · refine .inr ⟨.unknown token, ?_⟩
        simp [perform, complete, bind_run, hp, if_neg heq]
  | expire now =>
    refine .inl ⟨_, _, .expire now, ?_⟩
    simp [perform, expire, bind_run, removeAll_expired]

/-! ## Histories -/

/-- The entries issued and the entries resolved so far, latest first. -/
structure History (T : Type) where
  issued : List (CorrelationEntry T)
  resolved : List (CorrelationEntry T)

def History.record (h : History T) : Outcome T → History T
  | .issued e => { h with issued := e :: h.issued }
  | .resolved es => { h with resolved := es ++ h.resolved }

/-- A fresh table and its history after a sequence of calls. -/
def afterOperations (max : Nat) (ops : List (Operation T)) : CorrelationTable T max × History T :=
  observeAll perform (fun h _ o => History.record h o) (new, ⟨[], []⟩) ops

/-- A table agrees with its history. -/
structure Coherent (t : CorrelationTable T max) (h : History T) : Prop where
  /-- A counter that is not exhausted is above every generation issued. -/
  fresh : t.nextGeneration = 0 ∨ ∀ e ∈ h.issued, e.1.generation.value < t.nextGeneration
  issued_nodup : (h.issued.map (·.1)).Nodup
  pending : ∀ k e, t.pending[k]? = some e →
    e.1.requestId = k ∧ e ∈ h.issued ∧ e.1 ∉ h.resolved.map (·.1)
  resolved_nodup : (h.resolved.map (·.1)).Nodup
  resolved_issued : ∀ e ∈ h.resolved, e ∈ h.issued
  /-- No request is forgotten. -/
  accounted : ∀ e ∈ h.issued, t.pending[e.1.requestId]? = some e ∨ e ∈ h.resolved
  bounded : t.len ≤ max

variable {h : History T}

theorem Coherent.new : Coherent (new : CorrelationTable T max) ⟨[], []⟩ where
  fresh := .inr (by simp)
  issued_nodup := by simp
  pending := by simp [CorrelationTable.new]
  resolved_nodup := by simp
  resolved_issued := by simp
  accounted := by simp
  bounded := by simp [CorrelationTable.new, len]

theorem lt_next_of_fresh {g n : UInt64} (hlt : g < n ∨ g = n)
    (hn : (checkedAdd n 1).getD 0 ≠ 0) : g < (checkedAdd n 1).getD 0 := by
  cases hc : checkedAdd n 1 with
  | none => simp [hc] at hn
  | some m =>
    have hm := Lib.lt_of_checkedAdd_one hc
    rcases hlt with hlt | rfl
    · exact UInt64.lt_trans hlt hm
    · exact hm

/-- The token an insertion issues was never issued before, whatever request ids were reused. -/
theorem Coherent.token_fresh (hc : Coherent t h) (hg : t.nextGeneration ≠ 0) (id : RequestId) :
    (⟨id, ⟨t.nextGeneration, hg⟩⟩ : CorrelationToken) ∉ h.issued.map (·.1) := by
  intro hmem
  obtain ⟨e, he, heq⟩ := mem_map.mp hmem
  have hlt := hc.fresh.resolve_left hg e he
  rw [heq] at hlt
  exact UInt64.lt_irrefl _ hlt

theorem Coherent.insert (hc : Coherent t h) {id : RequestId} {p : PendingRequest T}
    (hk : t.pending[id]? = none) (hm : t.len ≠ max) (hg : t.nextGeneration ≠ 0) :
    Coherent (⟨t.pending.insert id (⟨id, ⟨t.nextGeneration, hg⟩⟩, p),
        (checkedAdd t.nextGeneration 1).getD 0⟩ : CorrelationTable T max)
      (h.record (.issued (⟨id, ⟨t.nextGeneration, hg⟩⟩, p))) where
  fresh := by
    by_cases hn : (checkedAdd t.nextGeneration 1).getD 0 = 0
    · exact .inl hn
    · refine .inr fun e he => lt_next_of_fresh ?_ hn
      rcases mem_cons.mp he with rfl | he
      · exact .inr rfl
      · exact .inl (hc.fresh.resolve_left hg e he)
  issued_nodup := nodup_cons.mpr ⟨hc.token_fresh hg id, hc.issued_nodup⟩
  pending k e he := by
    rw [Std.TreeMap.getElem?_insert] at he
    split at he
    · rename_i hid
      cases he
      refine ⟨compare_eq_iff.mp hid, mem_cons_self, fun hr => hc.token_fresh hg id ?_⟩
      obtain ⟨e', he', heq⟩ := mem_map.mp hr
      exact mem_map.mpr ⟨e', hc.resolved_issued e' he', heq⟩
    · obtain ⟨hreq, hmem, hres⟩ := hc.pending k e he
      exact ⟨hreq, mem_cons_of_mem _ hmem, hres⟩
  resolved_nodup := hc.resolved_nodup
  resolved_issued e he := mem_cons_of_mem _ (hc.resolved_issued e he)
  accounted e he := by
    rw [Std.TreeMap.getElem?_insert]
    rcases mem_cons.mp he with rfl | he
    · exact .inl (if_pos (compare_eq_iff.mpr rfl))
    · refine (hc.accounted e he).imp_left fun hp => ?_
      rw [if_neg, hp]
      rw [compare_eq_iff]
      rintro rfl
      cases hk.symm.trans hp
  bounded := by
    have hb := hc.bounded
    unfold len at hb hm ⊢
    have hle := size_insert_le (t := t.pending) (k := id)
      (v := (⟨id, ⟨t.nextGeneration, hg⟩⟩, p))
    dsimp only
    omega

/-- Entries leave the table together and are resolved together: `complete` removes one entry,
`expire` those past their deadline. -/
theorem Coherent.resolve (hc : Coherent t h) {es : List (CorrelationEntry T)}
    (hes : ∀ e ∈ es, t.pending[e.1.requestId]? = some e) (hn : (es.map (·.1.requestId)).Nodup)
    (hp : ∀ k, pending[k]? = if k ∈ es.map (·.1.requestId) then none else t.pending[k]?)
    (hsize : pending.size ≤ t.pending.size) :
    Coherent (⟨pending, t.nextGeneration⟩ : CorrelationTable T max)
      (h.record (.resolved es)) where
  fresh := hc.fresh
  issued_nodup := hc.issued_nodup
  pending k e he := by
    rw [hp] at he
    split at he
    · cases he
    · rename_i hk
      obtain ⟨hreq, hmem, hres⟩ := hc.pending k e he
      refine ⟨hreq, hmem, fun hr => ?_⟩
      rw [History.record, map_append, mem_append] at hr
      refine hr.elim (fun hr => hk ?_) hres
      obtain ⟨e', he', heq⟩ := mem_map.mp hr
      exact mem_map.mpr ⟨e', he', by rw [heq, hreq]⟩
  resolved_nodup := by
    rw [History.record, map_append, nodup_append']
    refine ⟨List.Nodup.of_map CorrelationToken.requestId ?_, hc.resolved_nodup, fun tok hl hr => ?_⟩
    · rw [map_map]
      exact hn
    · obtain ⟨e, he, rfl⟩ := mem_map.mp hl
      exact (hc.pending _ e (hes e he)).2.2 hr
  resolved_issued e he := by
    rcases mem_append.mp he with he | he
    · exact (hc.pending _ e (hes e he)).2.1
    · exact hc.resolved_issued e he
  accounted e he := by
    rcases hc.accounted e he with hpend | hr
    · by_cases hk : e.1.requestId ∈ es.map (·.1.requestId)
      · obtain ⟨e', he', heq⟩ := mem_map.mp hk
        have hsame := (hes e' he').symm.trans ((congrArg _ heq).trans hpend)
        cases hsame
        exact .inr (mem_append_left _ he')
      · exact .inl (by rw [hp, if_neg hk, hpend])
    · exact .inr (mem_append_right _ hr)
  bounded := le_trans hsize hc.bounded

theorem expired_eq_filterMap : t.expired now = (t.expiredIds now).filterMap (t.pending[·]?) := by
  rw [← removeAll_expired, removeAll_entries _ expiredIds_nodup]

theorem Coherent.step {o : Outcome T} (hc : Coherent t h) (hs : Step t op o t') :
    Coherent t' (h.record o) := by
  cases hs with
  | insert hk hm hg => exact hc.insert hk hm hg
  | complete he =>
    refine hc.resolve (by simpa using he) (by simp) (fun k => ?_) size_erase_le
    rw [getElem?_erase]
    refine if_congr ?_ rfl rfl
    rw [compare_eq_iff, map_singleton, mem_singleton, eq_comm]
  | expire now =>
    have hes : ∀ e ∈ t.expired now, t.pending[e.1.requestId]? = some e := by
      intro e he
      rw [expired_eq_filterMap, mem_filterMap] at he
      obtain ⟨k, _, hk⟩ := he
      rw [(hc.pending k e hk).1, hk]
    have hids : (t.expired now).map (·.1.requestId) = t.expiredIds now := by
      rw [expired, expiredIds_eq, map_map]
      refine map_congr_left fun e he => ?_
      have hmem := mem_of_mem_filter he
      exact (hc.pending _ _ (mem_toList_iff_getElem?_eq_some.mp hmem)).1
    refine hc.resolve hes (hids ▸ expiredIds_nodup) (fun k => ?_) (removeAll_size _)
    rw [removeAll_getElem?, hids]

theorem coherent_afterOperations {ops : List (Operation T)} :
    Coherent (afterOperations max ops).1 (afterOperations max ops).2 := by
  refine observeAll_invariant (fun t h op hc => ?_) ops _ .new
  refine perform_cases.imp_left ?_
  rintro ⟨o, t', hs, hrun⟩
  exact ⟨o, t', hrun, hc.step hs⟩

/-! ## What a run guarantees -/

theorem Coherent.complete_resolved (hc : Coherent t h) {e : CorrelationEntry T}
    (he : e ∈ h.resolved) : complete e.1 t = (.error (.unknown e.1), t) := by
  cases hp : t.pending[e.1.requestId]? with
  | none => simp [complete, bind_run, hp]
  | some e' =>
    have hne : e'.1 ≠ e.1 := by
      intro heq
      refine (hc.pending _ e' hp).2.2 ?_
      rw [heq]
      exact mem_map_of_mem he
    simp [complete, bind_run, hp, if_neg hne]

theorem Coherent.expired_ordered (hc : Coherent t h) :
    (t.expired now).Pairwise fun a b => a.1.requestId < b.1.requestId := by
  refine pairwise_map.mpr ?_
  refine ((List.Pairwise.and_mem.mp toList_keys_lt).sublist filter_sublist).imp ?_
  rintro ⟨k, a⟩ ⟨l, b⟩ ⟨ha, hb, hlt⟩
  have hka := (hc.pending k a (mem_toList_iff_getElem?_eq_some.mp ha)).1
  have hlb := (hc.pending l b (mem_toList_iff_getElem?_eq_some.mp hb)).1
  rw [hka, hlb]
  exact hlt

/-- **The correlation table over a whole run.** After any calls no token was issued twice, the
resolved entries are issued ones, each resolved once, every issued request is pending or resolved,
a resolved token stays unknown, `expire` returns the overdue entries in request-id order and leaves
the others, and the table keeps to its bound. -/
theorem afterOperations_correlated (max : Nat) (ops : List (Operation T)) :
    let t := (afterOperations max ops).1
    let h := (afterOperations max ops).2
    (h.issued.map (·.1)).Nodup ∧
    (h.resolved.map (·.1)).Nodup ∧
    (∀ e ∈ h.resolved, e ∈ h.issued) ∧
    (∀ e ∈ h.issued, t.pending[e.1.requestId]? = some e ∨ e ∈ h.resolved) ∧
    (∀ k e, t.pending[k]? = some e →
      e.1.requestId = k ∧ e ∈ h.issued ∧ e.1 ∉ h.resolved.map (·.1)) ∧
    (∀ e ∈ h.resolved, complete e.1 t = (.error (.unknown e.1), t)) ∧
    (∀ now, ∃ t' : CorrelationTable T max, expire now t = (.ok (t.expired now), t') ∧
      (t.expired now).Pairwise (fun a b => a.1.requestId < b.1.requestId) ∧
      ∀ k : RequestId, t'.pending[k]? =
        t.pending[k]?.filter fun e => now < e.2.deadline) ∧
    t.len ≤ max := by
  intro t h
  have hc : Coherent t h := coherent_afterOperations
  refine ⟨hc.issued_nodup, hc.resolved_nodup, hc.resolved_issued, hc.accounted, hc.pending,
    fun e he => hc.complete_resolved he, fun now => ?_, hc.bounded⟩
  refine ⟨{ t with pending := (removeAll (t.expiredIds now) t.pending).2 }, ?_,
    hc.expired_ordered, fun k => ?_⟩
  · simp [expire, bind_run, removeAll_expired]
  · rw [removeAll_getElem?]
    cases hp : t.pending[k]? with
    | none => simp
    | some e =>
      by_cases hd : e.2.deadline ≤ now
      · have hk : k ∈ t.expiredIds now := mem_expiredIds.mpr ⟨e, hp, hd⟩
        simp [hk, Option.filter, UInt64.not_lt.mpr hd]
      · have hk : k ∉ t.expiredIds now := by
          rw [mem_expiredIds, hp]
          simpa using hd
        simp [hk, Option.filter, UInt64.not_le.mp hd]

end CorrelationTable

end Oxiroute.Supervision
