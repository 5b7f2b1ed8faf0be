import Mathlib.Algebra.Order.Ring.Nat

/-!
# Checked and saturating arithmetic on machine words

`checked_add` and `saturating_add` of Rust's `u64`, with their values read in `ℕ`, and of its `u32`.
-/

namespace Oxiroute.Lib

/-- `u64::checked_add`. -/
def checkedAdd (a b : UInt64) : Option UInt64 :=
  if a.toNat + b.toNat < 2 ^ 64 then some (a + b) else none

variable {a c : UInt64} {σ α : Type} {f : σ → α → σ} {b : UInt64}

theorem checkedAdd_eq_some : checkedAdd a b = some c ↔ c.toNat = a.toNat + b.toNat := by
  unfold checkedAdd
  constructor
  · intro h
    split at h
    · rename_i hlt
      cases h
      rw [UInt64.toNat_add, Nat.mod_eq_of_lt hlt]
    · cases h
  · intro h
    have hlt : a.toNat + b.toNat < 2 ^ 64 := h ▸ c.toNat_lt
    rw [if_pos hlt]
    refine congrArg some (UInt64.toNat_inj.mp ?_)
    rw [UInt64.toNat_add, Nat.mod_eq_of_lt hlt, h]

theorem lt_of_checkedAdd_one (h : checkedAdd a 1 = some c) : a < c := by
  have hc := checkedAdd_eq_some.mp h
  rw [UInt64.lt_iff_toNat_lt, hc]
  simp

/-- `u64::MAX`, as a number. -/
def maxUInt64 : ℕ := 2 ^ 64 - 1

/-- `u64::saturating_add`. -/
def saturatingAdd (a b : UInt64) : UInt64 := UInt64.ofNat (min maxUInt64 (a.toNat + b.toNat))

@[simp] theorem toNat_saturatingAdd :
    (saturatingAdd a b).toNat = min maxUInt64 (a.toNat + b.toNat) := by
  unfold saturatingAdd maxUInt64
  rw [UInt64.toNat_ofNat_of_lt']
  have := min_le_left (2 ^ 64 - 1) (a.toNat + b.toNat)
  exact lt_of_le_of_lt this (by decide)

theorem toNat_le_maxUInt64 (a : UInt64) : a.toNat ≤ maxUInt64 := by
  have := a.toNat_lt
  unfold maxUInt64
  omega

theorem le_saturatingAdd : a ≤ saturatingAdd a b := by
  rw [UInt64.le_iff_toNat_le, toNat_saturatingAdd]
  have := toNat_le_maxUInt64 a
  omega

theorem lt_saturatingAdd_one : a < saturatingAdd a 1 ∨ (saturatingAdd a 1).toNat = maxUInt64 := by
  rw [UInt64.lt_iff_toNat_lt, toNat_saturatingAdd]
  have hone : (1 : UInt64).toNat = 1 := rfl
  omega

theorem toNat_max : (max a b).toNat = max a.toNat b.toNat := by
  change (if a ≤ b then b else a).toNat = _
  split
  · rename_i h
    rw [Nat.max_eq_right (UInt64.le_iff_toNat_le.mp h)]
  · rename_i h
    have := UInt64.lt_iff_toNat_lt.mp (UInt64.not_le.mp h)
    rw [Nat.max_eq_left (Nat.le_of_lt this)]

/-- `u32::saturating_add`. -/
def saturatingAdd32 (a b : UInt32) : UInt32 := UInt32.ofNat (min (2 ^ 32 - 1) (a.toNat + b.toNat))

/-- **Saturating loops**: a loop whose rounds add `v` to a reading `g`, capped at `u64::MAX`,
adds the sum, capped once. -/
theorem foldl_saturating {g : σ → ℕ} {v : α → ℕ} (hcap : ∀ s, g s ≤ maxUInt64)
    (hstep : ∀ s a, g (f s a) = min maxUInt64 (g s + v a)) :
    ∀ (as : List α) (s : σ), g (as.foldl f s) = min maxUInt64 (g s + (as.map v).sum)
  | [], s => by
    rw [List.foldl_nil, List.map_nil, List.sum_nil, add_zero, min_eq_right (hcap s)]
  | a :: as, s => by
    rw [List.foldl_cons, foldl_saturating hcap hstep as, hstep, List.map_cons, List.sum_cons]
    omega

/-- **Collecting loops**: a property that a round has iff it had it before or the round's element
brings it. -/
theorem foldl_collects {p : σ → Prop} {q : α → Prop} (hstep : ∀ s a, p (f s a) ↔ p s ∨ q a) :
    ∀ (as : List α) (s : σ), p (as.foldl f s) ↔ p s ∨ ∃ a ∈ as, q a
  | [], s => by simp
  | a :: as, s => by
    rw [List.foldl_cons, foldl_collects hstep as, hstep]
    simp [or_assoc]

end Oxiroute.Lib
