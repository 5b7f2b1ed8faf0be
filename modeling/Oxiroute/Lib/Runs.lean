import Mathlib.Data.List.Induction

/-!
# Runs of a machine

A machine is a step function `step : S → O → S`, and a run of it the fold of `step` over a list of
operations. `EveryStep` asks a condition of every step of a run, in the state the step is taken in,
and `EachAfter` one of every output, after the outputs before it.
-/

namespace Oxiroute.Lib

variable {S O : Type} (step : S → O → S)

/-- A condition on a step, asked of every step of a run. -/
def EveryStep (C : S → O → Prop) : S → List O → Prop
  | _, [] => True
  | s, op :: ops => C s op ∧ EveryStep C (step s op) ops

instance decidableEveryStep (C : S → O → Prop) [∀ s op, Decidable (C s op)] :
    ∀ (s : S) (ops : List O), Decidable (EveryStep step C s ops)
  | _, [] => .isTrue trivial
  | s, op :: ops => @instDecidableAnd _ _ _ (decidableEveryStep C (step s op) ops)

variable {step}

/-- **Induction over runs**: what holds at first and is kept by every step that meets the condition
holds after every run whose steps all meet it. -/
theorem foldl_induct {C : S → O → Prop} {P : S → Prop}
    (keeps : ∀ s op, P s → C s op → P (step s op)) :
    ∀ (ops : List O) (s : S), P s → EveryStep step C s ops → P (ops.foldl step s)
  | [], _, h, _ => h
  | op :: ops, s, h, hc => foldl_induct keeps ops _ (keeps s op h hc.1) hc.2

theorem foldl_keeps {P : S → Prop} (keeps : ∀ s op, P s → P (step s op)) :
    ∀ (ops : List O) (s : S), P s → P (ops.foldl step s)
  | [], _, h => h
  | op :: ops, s, h => foldl_keeps keeps ops _ (keeps s op h)

/-! ## Sequences of outputs -/

section outputs

variable {α : Type} {F : List α → α → Prop} {given seen : List α}

/-- Every element of a list satisfies `F` after those before it. -/
def EachAfter (F : List α → α → Prop) (given : List α) : Prop :=
  ∀ before x after, given = before ++ x :: after → F before x

theorem EachAfter.nil : EachAfter F [] := by
  intro before x after h
  simp at h

theorem EachAfter.of_isPrefix (h : EachAfter F given) (hp : seen <+: given) : EachAfter F seen := by
  obtain ⟨rest, rfl⟩ := hp
  rintro before x after rfl
  exact h before x (after ++ rest) (by simp)

theorem EachAfter.snoc {e : α} (h : EachAfter F seen) (he : F seen e) :
    EachAfter F (seen ++ [e]) := by
  intro before x after heq
  rcases List.eq_nil_or_concat after with rfl | ⟨after, last, rfl⟩
  · obtain ⟨rfl, hx⟩ := List.append_inj' heq (by simp)
    obtain rfl := List.singleton_inj.mp hx
    exact he
  · have heq' : seen ++ [e] = (before ++ x :: after) ++ [last] := by simpa using heq
    obtain ⟨hseen, -⟩ := List.append_inj' heq' (by simp)
    exact h before x after hseen

/-- Elements that satisfy `F` wherever they stand. -/
theorem EachAfter.append (h : EachAfter F seen) :
    ∀ {rest : List α}, (∀ x ∈ rest, ∀ before, F before x) → EachAfter F (seen ++ rest) := by
  intro rest
  induction rest using List.reverseRecOn with
  | nil => simpa using h
  | append_singleton rest last ih =>
    intro hrest
    rw [← List.append_assoc]
    refine (ih fun x hx => hrest x (List.mem_append_left _ hx)).snoc ?_
    exact hrest last (List.mem_append_right _ (List.mem_singleton_self _)) _

end outputs

end Oxiroute.Lib
