import Mathlib.Tactic.Common
import Oxiroute.Lib.Prog

/-!
# Code that may panic

A function whose source can panic returns an `Except Panic`: an arithmetic overflow, an `expect` of
nothing, an index outside a slice. `foldlM_keeps` is the induction rule for a loop of such steps: if
a step keeps an invariant and does not panic, so does the loop. `foldlM_induct` is the rule for a
loop whose steps do so under a condition.
-/

namespace Oxiroute.Lib

/-- The ways a function of the source stops the program. -/
inductive Panic where
  | overflow
  | expect
  | slice
  deriving DecidableEq

/-- What a function that may panic returns. -/
abbrev Panics (α : Type) := Except Panic α

/-- The subtraction of `usize`. -/
def subSize (a b : ℕ) : Panics ℕ := if b ≤ a then .ok (a - b) else .error .overflow

/-- `usize::checked_add`. -/
def checkedAddSize (a b : ℕ) : Option ℕ := if a + b < 2 ^ 64 then some (a + b) else none

/-- `Option::expect`. -/
def expect {α : Type} : Option α → Panics α
  | some a => .ok a
  | none => .error .expect

/-- An index into a slice. -/
def index {α : Type} (l : List α) (i : ℕ) : Panics α :=
  match l[i]? with
  | some a => .ok a
  | none => .error .slice

/-- A range of a slice, if it is one: `slice.get(start..stop)`. -/
def getRange {α : Type} (l : List α) (start stop : ℕ) : Option (List α) :=
  if start ≤ stop ∧ stop ≤ l.length then some ((l.take stop).drop start) else none

/-- A range of a slice: `&slice[start..stop]`. -/
def range {α : Type} (l : List α) (start stop : ℕ) : Panics (List α) :=
  match getRange l start stop with
  | some r => .ok r
  | none => .error .slice

variable {α : Type} {l : List α}

theorem index_of_lt {i : ℕ} (h : i < l.length) : index l i = .ok l[i] := by
  rw [index, List.getElem?_eq_getElem h]

variable {start stop a b : ℕ} {β : Type}

theorem getRange_eq_some {r : List α} (h : getRange l start stop = some r) :
    start ≤ stop ∧ stop ≤ l.length ∧ r = (l.take stop).drop start := by
  unfold getRange at h
  split_ifs at h with hcond
  exact ⟨hcond.1, hcond.2, (Option.some.inj h).symm⟩

theorem range_of_le (h : start ≤ stop) (hs : stop ≤ l.length) :
    range l start stop = .ok ((l.take stop).drop start) := by
  rw [range, getRange, if_pos ⟨h, hs⟩]

theorem subSize_of_le (h : b ≤ a) : subSize a b = .ok (a - b) := if_pos h

theorem checkedAddSize_eq_some {c : ℕ} (h : checkedAddSize a b = some c) : c = a + b := by
  unfold checkedAddSize at h
  split_ifs at h
  exact (Option.some.inj h).symm

@[simp] theorem expect_some {a : α} : expect (some a) = .ok a := rfl

@[simp] theorem bind_ok {a : α} {f : α → Panics β} : (Except.ok a >>= f : Panics β) = f a := rfl

section Loops

variable {S O : Type} {step : S → O → Panics S} {P : S → Prop}

/-- A condition on a step, asked of every step that a loop takes. -/
def EveryStepOf (step : S → O → Panics S) (C : S → O → Prop) : S → List O → Prop
  | _, [] => True
  | s, op :: ops => C s op ∧ ∀ s', step s op = .ok s' → EveryStepOf step C s' ops

instance decidableEveryStepOf (C : S → O → Prop) [∀ s op, Decidable (C s op)] :
    ∀ (s : S) (ops : List O), Decidable (EveryStepOf step C s ops)
  | _, [] => .isTrue trivial
  | s, op :: ops =>
    have : ∀ x : Panics S, Decidable (∀ s', x = .ok s' → EveryStepOf step C s' ops)
      | .ok t => @decidable_of_iff _ (EveryStepOf step C t ops)
        ⟨fun h _ ht => Except.ok.inj ht ▸ h, fun h => h t rfl⟩ (decidableEveryStepOf C t ops)
      | .error _ => .isTrue nofun
    @instDecidableAnd _ _ _ (this (step s op))

/-- A loop whose steps meet a condition under which they keep `P` and do not panic keeps `P` and
does not panic. -/
theorem foldlM_induct {C : S → O → Prop}
    (keeps : ∀ s op, P s → C s op → ∃ s', step s op = .ok s' ∧ P s') :
    ∀ (ops : List O) (s : S), P s → EveryStepOf step C s ops →
      ∃ s', ops.foldlM step s = .ok s' ∧ P s'
  | [], s, h, _ => ⟨s, rfl, h⟩
  | op :: ops, s, h, hc => by
    obtain ⟨t, ht, hP⟩ := keeps s op h hc.1
    rw [List.foldlM_cons, ht, bind_ok]
    exact foldlM_induct keeps ops t hP (hc.2 t ht)

theorem foldlM_keeps (keeps : ∀ s op, P s → ∃ s', step s op = .ok s' ∧ P s') :
    ∀ (ops : List O) (s : S), P s → ∃ s', ops.foldlM step s = .ok s' ∧ P s'
  | [], s, h => ⟨s, rfl, h⟩
  | op :: ops, s, h => by
    obtain ⟨t, ht, hP⟩ := keeps s op h
    rw [List.foldlM_cons, ht, bind_ok]
    exact foldlM_keeps keeps ops t hP

/-- A loop of steps that keep `P` unless they panic keeps `P` unless it panics. -/
theorem foldlM_keeps_of_ok (keeps : ∀ s op s', P s → step s op = .ok s' → P s') :
    ∀ (ops : List O) (s s' : S), P s → ops.foldlM step s = .ok s' → P s'
  | [], s, s', h, hrun => by
    cases hrun
    exact h
  | op :: ops, s, s', h, hrun => by
    obtain ⟨t, ht, hrest⟩ := bind_eq_ok.mp hrun
    exact foldlM_keeps_of_ok keeps ops t s' (keeps s op t h ht) hrest

end Loops

end Oxiroute.Lib
