import Oxiroute.Lib.Panic
import Oxiroute.Lib.Table

/-!
# The incarnation fence of a recording store

Model of `register_incarnation`, `retire_incarnation`, `claim` and the drop of a
`StoreOperationClaim` of `crates/oxiroute-rtmp/src/recording_store.rs`, one step for each time the
mutex of the store is held.

* Every opened store is an incarnation; an operation on files claims it for as long as it runs.
* `registerIncarnation` waits while a retired incarnation has claims.
* As ghost data a `Fence` keeps the incarnations that are about to register, that have registered
  and that were retired, and the claims that have not been dropped.

`Settled` is what the ghost data says the table holds; every step keeps it (`step_settled`). With it
`run_fenced` is the whole run: no drop panics, an entry goes exactly when its incarnation is retired
and has no claim left, and once a registration has returned no incarnation retired before it has a
claim, or gets one.
-/

namespace Oxiroute.Rtmp

open Lib Table List

structure IncarnationState where
  active : Bool
  claims : ℕ
  deriving DecidableEq

/-- The part of a `StoreState` that the fence is about, and the counter of `next_store_incarnation`.
The other fields are ghost data. -/
structure Fence where
  incarnations : Table ℕ IncarnationState
  next : ℕ
  waiting : List ℕ
  registered : List ℕ
  retired : List ℕ
  outstanding : List ℕ

namespace Fence

/-- A store that has just been created. -/
def new : Fence := ⟨∅, 0, [], [], [], []⟩

/-- `next_store_incarnation`: the caller will register it. -/
def allocate (f : Fence) : Fence :=
  { f with next := f.next + 1, waiting := (f.next + 1) :: f.waiting }

/-- The entries that `retain` keeps. -/
def kept (s : IncarnationState) : Bool := s.active || decide (s.claims ≠ 0)

/-- The condition of the loop of `register_incarnation`. -/
def mustWait (f : Fence) : Bool :=
  f.incarnations.entries.any fun e => !e.2.active && decide (e.2.claims ≠ 0)

variable (incarnation : ℕ)

/-- One round of the loop of `register_incarnation`, for a caller whose deadline has passed when it
looks for the first or for the second time. -/
def registerIncarnation (expired expiredLater : Bool) (f : Fence) : Fence :=
  if incarnation ∉ f.waiting then f
  else if f.mustWait then
    if expired then { f with waiting := f.waiting.erase incarnation } else f
  else if expired then { f with waiting := f.waiting.erase incarnation }
  else
    let f := { f with
      incarnations := retain kept f.incarnations
      waiting := f.waiting.erase incarnation }
    if expiredLater then f
    else
      { f with
        incarnations := f.incarnations.insert incarnation ⟨true, 0⟩
        registered := incarnation :: f.registered }

variable (f : Fence)

/-- `retire_incarnation`, of a store that was opened. -/
def retireIncarnation : Fence :=
  if incarnation ∉ f.registered then f
  else
    { f with
      incarnations := retain kept
        (update incarnation (fun s => { s with active := false }) f.incarnations)
      retired := incarnation :: f.retired }

def claim : Option Fence :=
  match f.incarnations.lookup incarnation with
  | none => none
  | some s =>
    if !s.active then none
    else
      some { f with
        incarnations := f.incarnations.insert incarnation { s with claims := s.claims + 1 }
        outstanding := incarnation :: f.outstanding }

def dropClaim : Panics Fence :=
  if incarnation ∉ f.outstanding then .ok f
  else do
    let s ← expect (f.incarnations.lookup incarnation)
    let claims ← subSize s.claims 1
    return { f with
      incarnations :=
        if !s.active && claims = 0 then f.incarnations.erase incarnation
        else f.incarnations.insert incarnation { s with claims := claims }
      outstanding := f.outstanding.erase incarnation }

/-- What a thread does while it holds the mutex. -/
inductive Op where
  | allocate
  | register (incarnation : ℕ) (expired expiredLater : Bool)
  | retire (incarnation : ℕ)
  | claim (incarnation : ℕ)
  | dropClaim (incarnation : ℕ)
  deriving DecidableEq

def step : Op → Panics Fence
  | .allocate => .ok f.allocate
  | .register incarnation expired expiredLater =>
    .ok (f.registerIncarnation incarnation expired expiredLater)
  | .retire incarnation => .ok (f.retireIncarnation incarnation)
  | .claim incarnation => .ok ((f.claim incarnation).getD f)
  | .dropClaim incarnation => f.dropClaim incarnation

/-- The store after these steps, in the order in which the mutex was taken. -/
def run (ops : List Op) : Panics Fence := ops.foldlM step f

/-! ## What the table holds -/

/-- The entry of an incarnation, by the ghost data: it is there from its registration until it is
retired and its last claim is dropped. -/
def entry (incarnation : ℕ) : Option IncarnationState :=
  if incarnation ∈ f.registered ∧
    (incarnation ∉ f.retired ∨ f.outstanding.count incarnation ≠ 0) then
    some ⟨decide (incarnation ∉ f.retired), f.outstanding.count incarnation⟩
  else none

/-- The table holds the entries it should, and the incarnations that are about to register are new.
-/
structure Settled (f : Fence) : Prop where
  lookup : ∀ incarnation, f.incarnations.lookup incarnation = f.entry incarnation
  fresh : ∀ incarnation ∈ f.waiting, incarnation ∉ f.registered
  waiting_le : ∀ incarnation ∈ f.waiting, incarnation ≤ f.next
  registered_le : ∀ incarnation ∈ f.registered, incarnation ≤ f.next
  waiting_nodup : f.waiting.Nodup
  retired : ∀ incarnation ∈ f.retired, incarnation ∈ f.registered
  outstanding : ∀ incarnation ∈ f.outstanding, incarnation ∈ f.registered

variable {f f' : Fence} {incarnation : ℕ}

theorem kept_of_entry {s : IncarnationState} (h : f.entry incarnation = some s) :
    kept s = true := by
  unfold entry at h
  split_ifs at h with hentry
  cases h
  rcases hentry.2 with hretired | hcount
  · simp [kept, hretired]
  · simp [kept, hcount]

namespace Settled

theorem of_new : Settled new := by
  refine ⟨fun incarnation => rfl, ?_, ?_, ?_, nodup_nil, ?_, ?_⟩ <;>
    · intro incarnation hmem
      cases hmem

variable (h : f.Settled)
include h

theorem lookup_retain :
    (Table.retain kept f.incarnations).lookup incarnation = f.entry incarnation := by
  rw [Table.lookup_retain, h.lookup]
  cases hentry : f.entry _ with
  | none => rfl
  | some s => simp [kept_of_entry hentry]

theorem allocate : f.allocate.Settled := by
  refine ⟨h.lookup, ?_, ?_, ?_, ?_, h.retired, h.outstanding⟩
  · intro incarnation hmem
    rcases mem_cons.mp hmem with rfl | hmem
    · intro hregistered
      exact absurd (h.registered_le _ hregistered) (Nat.not_succ_le_self _)
    · exact h.fresh _ hmem
  · intro incarnation hmem
    rcases mem_cons.mp hmem with rfl | hmem
    · exact Nat.le_refl _
    · exact Nat.le_succ_of_le (h.waiting_le _ hmem)
  · intro incarnation hmem
    exact Nat.le_succ_of_le (h.registered_le _ hmem)
  · refine nodup_cons.mpr ⟨fun hmem => ?_, h.waiting_nodup⟩
    exact absurd (h.waiting_le _ hmem) (Nat.not_succ_le_self _)

theorem gives_up : Settled { f with waiting := f.waiting.erase incarnation } :=
  ⟨h.lookup, fun i hmem => h.fresh i (mem_of_mem_erase hmem),
    fun i hmem => h.waiting_le i (mem_of_mem_erase hmem), h.registered_le,
    h.waiting_nodup.erase incarnation, h.retired, h.outstanding⟩

theorem retain : Settled { f with incarnations := retain kept f.incarnations } :=
  ⟨fun _ => h.lookup_retain, h.fresh, h.waiting_le, h.registered_le, h.waiting_nodup, h.retired,
    h.outstanding⟩

theorem insert (hmem : incarnation ∈ f.waiting) : Settled { f with
      incarnations := f.incarnations.insert incarnation ⟨true, 0⟩
      waiting := f.waiting.erase incarnation
      registered := incarnation :: f.registered } := by
  have hfresh := h.fresh _ hmem
  have hretired : incarnation ∉ f.retired := fun hr => hfresh (h.retired _ hr)
  have hcount := count_eq_zero.mpr fun ho => hfresh (h.outstanding _ ho)
  refine ⟨?_, ?_, ?_, ?_, h.waiting_nodup.erase _, ?_, ?_⟩
  · intro i
    rw [lookup_insert]
    by_cases hi : i = incarnation
    · rw [if_pos hi, hi]
      simp [entry, hretired, hcount]
    · rw [if_neg hi, h.lookup]
      simp [entry, hi]
  · intro i hi hregistered
    rcases mem_cons.mp hregistered with rfl | hregistered
    · exact (h.waiting_nodup.not_mem_erase) hi
    · exact h.fresh i (mem_of_mem_erase hi) hregistered
  · exact fun i hi => h.waiting_le i (mem_of_mem_erase hi)
  · intro i hi
    rcases mem_cons.mp hi with rfl | hi
    · exact h.waiting_le i hmem
    · exact h.registered_le i hi
  · exact fun i hi => mem_cons_of_mem _ (h.retired i hi)
  · exact fun i hi => mem_cons_of_mem _ (h.outstanding i hi)

theorem registerIncarnation (incarnation : ℕ) (expired expiredLater : Bool) :
    (f.registerIncarnation incarnation expired expiredLater).Settled := by
  unfold Fence.registerIncarnation
  split_ifs with hmem
  · exact h.gives_up
  · exact h
  · exact h.gives_up
  · exact h.gives_up.retain
  · exact h.retain.insert hmem
  · exact h

theorem retireIncarnation : (f.retireIncarnation incarnation).Settled := by
  unfold Fence.retireIncarnation
  split_ifs with hmem
  · refine ⟨?_, h.fresh, h.waiting_le, h.registered_le, h.waiting_nodup, ?_, h.outstanding⟩
    · intro i
      rw [Table.lookup_retain]
      by_cases hi : i = incarnation
      · rw [hi, Table.lookup_update_self, h.lookup]
        by_cases hcount : f.outstanding.count incarnation = 0
        · by_cases hretired : incarnation ∈ f.retired <;>
            simp [entry, hmem, hcount, hretired, kept]
        · simp [entry, hmem, hcount, kept]
      · have hentry : Fence.entry { f with
            incarnations := Table.retain kept
              (Table.update incarnation (fun s => { s with active := false }) f.incarnations)
            retired := incarnation :: f.retired } i = f.entry i := by
          simp [entry, hi]
        rw [Table.lookup_update_ne hi, hentry, ← h.lookup_retain, Table.lookup_retain]
    · intro i hi
      rcases mem_cons.mp hi with rfl | hi
      · exact hmem
      · exact h.retired i hi
  · exact h

/-- A claim is granted to the incarnations that have registered and were not retired. -/
theorem claim_isSome : (f.claim incarnation).isSome = true ↔
      incarnation ∈ f.registered ∧ incarnation ∉ f.retired := by
  unfold Fence.claim
  rw [h.lookup, entry]
  by_cases hretired : incarnation ∈ f.retired
  · split_ifs <;> simp [hretired]
  · by_cases hregistered : incarnation ∈ f.registered <;> simp [hretired, hregistered]

theorem claim (hclaim : f.claim incarnation = some f') : f'.Settled := by
  have hgranted := h.claim_isSome.mp (by rw [hclaim]; rfl)
  unfold Fence.claim at hclaim
  rw [h.lookup, entry, if_pos ⟨hgranted.1, .inl hgranted.2⟩] at hclaim
  simp only [hgranted.2, not_false_eq_true, decide_true, Bool.not_true, Bool.false_eq_true,
    if_false,
    Option.some.injEq] at hclaim
  subst hclaim
  refine ⟨?_, h.fresh, h.waiting_le, h.registered_le, h.waiting_nodup, h.retired, ?_⟩
  · intro i
    rw [lookup_insert]
    by_cases hi : i = incarnation
    · rw [if_pos hi, hi]
      simp [entry, hgranted.1, hgranted.2]
    · rw [if_neg hi, h.lookup]
      simp [entry, count_cons_of_ne (Ne.symm hi)]
  · intro i hi
    rcases mem_cons.mp hi with rfl | hi
    · exact hgranted.1
    · exact h.outstanding i hi

theorem dropClaim : ∃ f', f.dropClaim incarnation = .ok f' ∧ f'.Settled := by
  unfold Fence.dropClaim
  by_cases hmem : incarnation ∈ f.outstanding
  · have hcount : 0 < f.outstanding.count incarnation := count_pos_iff.mpr hmem
    have hregistered := h.outstanding _ hmem
    rw [if_neg (not_not.mpr hmem), h.lookup, entry, if_pos ⟨hregistered, .inr hcount.ne'⟩,
      expect_some, bind_ok, subSize_of_le hcount, bind_ok]
    refine ⟨_, rfl, ?_⟩
    refine ⟨?_, h.fresh, h.waiting_le, h.registered_le, h.waiting_nodup, h.retired, ?_⟩
    · intro i
      by_cases hi : i = incarnation
      · rw [hi]
        have herase : (f.outstanding.erase incarnation).count incarnation =
            f.outstanding.count incarnation - 1 := count_erase_self
        by_cases hretired : incarnation ∈ f.retired
        · by_cases hlast : f.outstanding.count incarnation - 1 = 0
          · simp [entry, hretired, herase, hlast]
          · simp [entry, hretired, herase, hlast, hregistered]
        · simp [entry, hretired, herase, hregistered]
      · have hother : (f.outstanding.erase incarnation).count i = f.outstanding.count i :=
          count_erase_of_ne hi
        split_ifs
        · rw [lookup_erase, if_neg hi, h.lookup]
          simp [entry, hother]
        · rw [lookup_insert, if_neg hi, h.lookup]
          simp [entry, hother]
    · exact fun i hi => h.outstanding i (mem_of_mem_erase hi)
  · rw [if_pos hmem]
    exact ⟨f, rfl, h⟩

end Settled

theorem step_settled (h : f.Settled) {op : Op} : ∃ f', f.step op = .ok f' ∧ f'.Settled := by
  cases op with
  | allocate => exact ⟨_, rfl, h.allocate⟩
  | register incarnation expired expiredLater =>
    exact ⟨_, rfl, h.registerIncarnation _ expired _⟩
  | retire incarnation => exact ⟨_, rfl, h.retireIncarnation⟩
  | claim incarnation =>
    refine ⟨_, rfl, ?_⟩
    cases hclaim : f.claim _ with
    | none => exact h
    | some f' => exact h.claim hclaim
  | dropClaim incarnation => exact h.dropClaim

theorem run_settled (h : f.Settled) (ops : List Op) : ∃ f', f.run ops = .ok f' ∧ f'.Settled :=
  foldlM_keeps (fun _ _ h => step_settled h) ops f h

/-! ## The fence -/

/-- The incarnation is retired and no operation on it is running. -/
def Quiet (incarnation : ℕ) (f : Fence) : Prop :=
  incarnation ∈ f.retired ∧ incarnation ∉ f.outstanding

/-- A registration that does not wait finds every retired incarnation quiet. -/
theorem Settled.quiet_of_not_mustWait (h : f.Settled) (hwait : ¬f.mustWait = true)
    (hretired : incarnation ∈ f.retired) : f.Quiet incarnation := by
  refine ⟨hretired, fun hmem => hwait ?_⟩
  have hcount : f.outstanding.count incarnation ≠ 0 := (count_pos_iff.mpr hmem).ne'
  have hlookup : f.incarnations.lookup incarnation =
      some ⟨false, f.outstanding.count incarnation⟩ := by
    rw [h.lookup, entry, if_pos ⟨h.retired _ hretired, .inr hcount⟩]
    simp [hretired]
  refine any_eq_true.mpr ⟨_, mem_entries_iff.mpr hlookup, ?_⟩
  simp [hcount]

theorem Quiet.registerIncarnation (h : f.Quiet incarnation) (other : ℕ)
    (expired expiredLater : Bool) :
    (f.registerIncarnation other expired expiredLater).Quiet incarnation := by
  unfold Fence.registerIncarnation
  split_ifs <;> exact h

theorem Quiet.step (hsettled : f.Settled) (h : f.Quiet incarnation) {op : Op}
    (hstep : f.step op = .ok f') : f'.Quiet incarnation := by
  cases op with
  | allocate =>
    cases hstep
    exact h
  | register other expired expiredLater =>
    cases hstep
    exact h.registerIncarnation other expired _
  | retire other =>
    cases hstep
    unfold retireIncarnation
    split_ifs
    · exact ⟨mem_cons_of_mem _ h.1, h.2⟩
    · exact h
  | claim other =>
    cases hstep
    cases hclaim : f.claim other with
    | none => exact h
    | some f' =>
      -- The claim is on another incarnation, since this one is retired.
      have hgranted := hsettled.claim_isSome.mp (by rw [hclaim]; rfl)
      unfold Fence.claim at hclaim
      split at hclaim
      · cases hclaim
      · split_ifs at hclaim
        cases hclaim
        refine ⟨h.1, fun hmem => ?_⟩
        rcases mem_cons.mp hmem with rfl | hmem
        · exact hgranted.2 h.1
        · exact h.2 hmem
  | dropClaim other =>
    rw [Fence.step, Fence.dropClaim] at hstep
    split_ifs at hstep
    · obtain ⟨s, -, hstep⟩ := bind_eq_ok.mp hstep
      obtain ⟨claims, -, hstep⟩ := bind_eq_ok.mp hstep
      cases hstep
      exact ⟨h.1, fun hmem => h.2 (mem_of_mem_erase hmem)⟩
    · cases hstep
      exact h

theorem Quiet.run (hsettled : f.Settled) (h : f.Quiet incarnation) (ops : List Op) :
    ∃ f', f.run ops = .ok f' ∧ f'.Settled ∧ f'.Quiet incarnation := by
  refine foldlM_keeps ?_ ops f ⟨hsettled, h⟩
  intro f op ⟨hsettled, hquiet⟩
  obtain ⟨f', hstep, hsettled'⟩ := step_settled hsettled
  exact ⟨f', hstep, hsettled', hquiet.step hsettled hstep⟩

/-- **The fence**, at every state of a run: no step has panicked, a registered incarnation is in the
table unless it is retired without a claim, and once one registers, no incarnation that is retired
at this moment has a claim or is granted one. -/
theorem run_fenced (ops : List Op) : ∃ f, new.run ops = .ok f ∧
      (∀ i, (f.incarnations.lookup i).isSome = true ↔
        i ∈ f.registered ∧ ¬(i ∈ f.retired ∧ i ∉ f.outstanding)) ∧
      ∀ j expired expiredLater ops', j ∉ f.registered →
        j ∈ (f.registerIncarnation j expired expiredLater).registered →
        ∃ f', (f.registerIncarnation j expired expiredLater).run ops' = .ok f' ∧
          ∀ i ∈ f.retired, i ∉ f'.outstanding ∧ f'.claim i = none := by
  obtain ⟨f, hf, hsettled⟩ := run_settled Settled.of_new ops
  refine ⟨f, hf, ?_, ?_⟩
  · intro i
    rw [hsettled.lookup, entry]
    by_cases hregistered : i ∈ f.registered <;> by_cases hretired : i ∈ f.retired <;>
      simp [hregistered, hretired, count_eq_zero]
  · intro j expired expiredLater ops' hbefore hafter
    have hwait : ¬f.mustWait = true := by
      intro hwait
      unfold registerIncarnation at hafter
      split_ifs at hafter <;> exact hbefore hafter
    have hsettled₁ := hsettled.registerIncarnation j expired expiredLater
    obtain ⟨f', hf', hsettled'⟩ := run_settled hsettled₁ ops'
    refine ⟨f', hf', fun i hi => ?_⟩
    have hquiet :=
      (hsettled.quiet_of_not_mustWait hwait hi).registerIncarnation j expired expiredLater
    obtain ⟨f'', hf'', -, hquiet'⟩ := hquiet.run hsettled₁ ops'
    rw [hf'] at hf''
    cases hf''
    refine ⟨hquiet'.2, ?_⟩
    rw [← Option.not_isSome_iff_eq_none, hsettled'.claim_isSome]
    exact fun hgranted => hgranted.2 hquiet'.1

/-- An incarnation that was not retired has a claim, and is granted one, after another has
registered. -/
theorem active_incarnation_not_fenced :
    ∃ f, new.run [.allocate, .register 1 false false, .claim 1, .allocate,
        .register 2 false false] = .ok f ∧
      2 ∈ f.registered ∧ 1 ∈ f.outstanding ∧ (f.claim 1).isSome = true :=
  ⟨_, rfl, by decide, by decide, by decide⟩

end Fence

end Oxiroute.Rtmp
