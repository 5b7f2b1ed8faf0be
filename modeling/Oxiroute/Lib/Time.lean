import Mathlib.Algebra.Order.Ring.Int
import Mathlib.Order.Lattice.Nat
import Mathlib.Tactic.Common

/-!
# Durations and wall-clock times

A `Duration` is a number of nanoseconds whose seconds fit into 64 bits, with the saturating
arithmetic of such a type; a `SystemTime` is a signed number of nanoseconds since the Unix epoch
whose seconds fit into a signed 64-bit word.
-/

namespace Oxiroute.Lib

/-- One nanosecond more than the longest duration. -/
def durationBound : ℕ := 2 ^ 64 * 10 ^ 9

/-- A span of time in whole nanoseconds. -/
structure Duration where
  nanos : ℕ
  lt_bound : nanos < durationBound
  deriving DecidableEq

namespace Duration

theorem nanos_injective : Function.Injective nanos := by
  rintro ⟨a, _⟩ ⟨b, _⟩ h
  cases h
  rfl

instance : LinearOrder Duration := LinearOrder.lift' nanos nanos_injective

instance : Zero Duration := ⟨⟨0, by decide⟩⟩

instance : Inhabited Duration := ⟨0⟩

@[simp] theorem nanos_zero : (0 : Duration).nanos = 0 := rfl

def maximum : Duration := ⟨durationBound - 1, by decide⟩

def ofSecs (secs : UInt64) : Duration :=
  ⟨secs.toNat * 10 ^ 9, by
    have := secs.toNat_lt
    unfold durationBound
    omega⟩

/-- Seconds and nanoseconds within the second. -/
def new (secs : UInt64) (nanos : ℕ) (h : nanos < 10 ^ 9) : Duration :=
  ⟨secs.toNat * 10 ^ 9 + nanos, by
    have := secs.toNat_lt
    unfold durationBound
    omega⟩

def asSecs (a : Duration) : ℕ := a.nanos / 10 ^ 9

/-- The nanoseconds within the last second. -/
def subsecNanos (a : Duration) : ℕ := a.nanos % 10 ^ 9

variable {a : Duration}

theorem asSecs_lt : a.asSecs < 2 ^ 64 := by
  have := a.lt_bound
  unfold durationBound at this
  unfold asSecs
  omega

theorem subsecNanos_lt : a.subsecNanos < 10 ^ 9 := Nat.mod_lt _ (by decide)

theorem secs_nanos : a.asSecs * 10 ^ 9 + a.subsecNanos = a.nanos := by
  unfold asSecs subsecNanos
  omega

/-- Addition that stops at the longest duration. -/
def saturatingAdd (a b : Duration) : Duration :=
  ⟨min (a.nanos + b.nanos) (durationBound - 1), by
    unfold durationBound
    omega⟩

/-- Subtraction that stops at zero. -/
def saturatingSub (a b : Duration) : Duration :=
  ⟨a.nanos - b.nanos, (Nat.sub_le _ _).trans_lt a.lt_bound⟩

@[simp] theorem nanos_saturatingAdd {b : Duration} :
    (a.saturatingAdd b).nanos = min (a.nanos + b.nanos) (durationBound - 1) := rfl

@[simp] theorem saturatingAdd_zero : a.saturatingAdd 0 = a := by
  have := a.lt_bound
  apply nanos_injective
  rw [nanos_saturatingAdd, nanos_zero]
  omega

end Duration

/-- The bound on the seconds of a wall-clock time, in nanoseconds. -/
def systemTimeBound : ℤ := 2 ^ 63 * 10 ^ 9

/-- A wall-clock time, in nanoseconds since the Unix epoch. -/
structure SystemTime where
  nanos : ℤ
  ge_bound : -systemTimeBound ≤ nanos
  lt_bound : nanos < systemTimeBound
  deriving DecidableEq

namespace SystemTime

def epoch : SystemTime := ⟨0, by decide, by decide⟩

/-- The time a duration after `t`, when it is representable. -/
def checkedAdd (t : SystemTime) (d : Duration) : Option SystemTime :=
  if h : t.nanos + d.nanos < systemTimeBound then
    some ⟨t.nanos + d.nanos, by
      have := t.ge_bound
      omega, h⟩
  else
    none

/-- The time that passed since an earlier time; nothing when `earlier` is later. -/
def durationSince (t earlier : SystemTime) : Option Duration :=
  if h : earlier.nanos ≤ t.nanos then
    some ⟨(t.nanos - earlier.nanos).toNat, by
      have h₁ := t.lt_bound
      have h₂ := earlier.ge_bound
      unfold systemTimeBound at h₁ h₂
      unfold durationBound
      omega⟩
  else
    none

/-- The time that passed since `earlier`, zero when it is later. -/
def elapsedSince (t earlier : SystemTime) : Duration := (t.durationSince earlier).getD 0

theorem nanos_elapsedSince (t earlier : SystemTime) :
    (t.elapsedSince earlier).nanos = (t.nanos - earlier.nanos).toNat := by
  unfold elapsedSince durationSince
  split_ifs with h
  · rfl
  · simp only [Option.getD_none, Duration.nanos_zero]
    omega

end SystemTime

end Oxiroute.Lib
