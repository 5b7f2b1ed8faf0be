import Mathlib.Data.List.Infix
import Mathlib.Data.Nat.Notation
import Mathlib.Tactic.Common

/-!
# Searching text and reading numbers

A text is a list of characters. `breakOn pattern text` splits a text where a search finds the
pattern. The rules of it are for text put together from parts: the pattern is there
(`breakOn_of_isPrefix`), or a part is skipped. `Skips` says that no occurrence begins in a part: its
first character does not occur there, or the part is a fixed one that `avoids` it. Such parts can be
joined.

`decimal` writes a number and `parseDecimal` reads one below a bound.
-/

namespace Oxiroute.Lib

open List

/-- The text before the first occurrence of a pattern, and the text from it on. -/
def breakOn (pattern : List Char) : List Char → Option (List Char × List Char)
  | [] => if pattern = [] then some ([], []) else none
  | c :: text =>
    if pattern.isPrefixOf (c :: text) then some ([], c :: text)
    else (breakOn pattern text).map fun split => (c :: split.1, split.2)

/-- Whether a text contains a pattern. -/
def containsText (pattern text : List Char) : Bool := (breakOn pattern text).isSome

/-- The text behind the last occurrence of a character, or all of it. -/
def afterLast (c : Char) (text : List Char) : List Char :=
  (text.reverse.takeWhile (· ≠ c)).reverse

/-- The text without a suffix. -/
def stripSuffix (suffix text : List Char) : Option (List Char) :=
  if suffix <:+ text then some (text.take (text.length - suffix.length)) else none

section Search

variable {pattern a text : List Char} {c : Char}

theorem breakOn_of_isPrefix (h : pattern <+: text) : breakOn pattern text = some ([], text) := by
  cases text with
  | nil =>
    rw [prefix_nil.mp h]
    rfl
  | cons c text =>
    rw [← isPrefixOf_iff_prefix] at h
    rw [breakOn, if_pos h]

theorem breakOn_append_of_isPrefix (h : pattern <+: a) :
    breakOn pattern (a ++ text) = some ([], a ++ text) :=
  breakOn_of_isPrefix (h.trans (prefix_append a text))

theorem breakOn_of_not_isPrefix (h : ¬ pattern <+: c :: text) :
    breakOn pattern (c :: text) = (breakOn pattern text).map fun split =>
      (c :: split.1, split.2) := by
  rw [← isPrefixOf_iff_prefix] at h
  rw [breakOn, if_neg h]

theorem breakOn_append_of_notMem (h : c ∉ a) : breakOn (c :: pattern) (a ++ text) =
      (breakOn (c :: pattern) text).map fun split => (a ++ split.1, split.2) := by
  induction a with
  | nil =>
    exact (congrFun Option.map_id _).symm
  | cons d a ih =>
    have hne : ¬ (c :: pattern) <+: d :: (a ++ text) := by
      intro hp
      exact h ((cons_prefix_cons.mp hp).1 ▸ mem_cons_self)
    rw [cons_append, breakOn_of_not_isPrefix hne, ih (fun hc => h (mem_cons_of_mem _ hc)),
      Option.map_map]
    rfl

/-- Two texts of which neither begins the other are different within the shorter one. -/
theorem not_isPrefix_append (h : ¬ pattern <+: a) (h' : ¬ a <+: pattern) :
    ¬ pattern <+: a ++ text := by
  intro hp
  rcases prefix_or_prefix_of_prefix hp (prefix_append a text) with hp | hp
  · exact h hp
  · exact h' hp

/-- A part of a text in which no occurrence of a pattern begins, whatever follows it. -/
def Skips (pattern a : List Char) : Prop :=
  ∀ text, breakOn pattern (a ++ text) =
    (breakOn pattern text).map fun split => (a ++ split.1, split.2)

theorem skips_of_notMem (h : c ∉ a) : Skips (c :: pattern) a := fun _ => breakOn_append_of_notMem h

/-- Whether no occurrence of a pattern can begin in a text. -/
def avoids (pattern : List Char) : List Char → Bool
  | [] => true
  | c :: text =>
    !pattern.isPrefixOf (c :: text) && !(c :: text).isPrefixOf pattern && avoids pattern text

theorem skips_of_avoids (h : avoids pattern a = true) : Skips pattern a := by
  induction a with
  | nil => exact fun _ => (congrFun Option.map_id _).symm
  | cons c a ih =>
    simp only [avoids, Bool.and_eq_true, Bool.not_eq_true', ← Bool.not_eq_true,
      isPrefixOf_iff_prefix] at h
    intro text
    have hne : ¬ pattern <+: c :: (a ++ text) := not_isPrefix_append h.1.1 h.1.2
    rw [cons_append, breakOn_of_not_isPrefix hne, ih h.2, Option.map_map]
    rfl

theorem Skips.append {b : List Char} (ha : Skips pattern a) (hb : Skips pattern b) :
    Skips pattern (a ++ b) := by
  intro text
  rw [append_assoc, ha, hb, Option.map_map]
  simp [Function.comp_def]

theorem Skips.found (h : Skips pattern a) :
    breakOn pattern (a ++ (pattern ++ text)) = some (a, pattern ++ text) := by
  rw [h, breakOn_append_of_isPrefix (prefix_refl _), Option.map_some, append_nil]

theorem Skips.breakOn_eq_none (h : Skips (c :: pattern) a) : breakOn (c :: pattern) a = none := by
  rw [← append_nil a, h]
  rfl

theorem containsText_of_infix (h : pattern <:+: text) : containsText pattern text = true := by
  induction text with
  | nil =>
    rw [infix_nil.mp h]
    rfl
  | cons c text ih =>
    rw [containsText]
    by_cases hp : pattern <+: c :: text
    · rw [breakOn_of_isPrefix hp]
      rfl
    · have hrest := ih ((infix_cons_iff.mp h).resolve_left hp)
      rw [breakOn_of_not_isPrefix hp, Option.isSome_map]
      exact hrest

theorem afterLast_append_cons (h : c ∉ a) : afterLast c (text ++ c :: a) = a := by
  have hall : ∀ d ∈ a.reverse, decide (d ≠ c) = true := by
    intro d hd
    have hne : d ≠ c := fun heq => h (heq ▸ mem_reverse.mp hd)
    simpa using hne
  rw [afterLast, reverse_append, reverse_cons, append_assoc, takeWhile_append_of_pos hall]
  simp

theorem stripSuffix_append {suffix : List Char} :
    stripSuffix suffix (text ++ suffix) = some text := by
  rw [stripSuffix, if_pos (suffix_append _ _), length_append, Nat.add_sub_cancel, take_left]

end Search

/-! ## Numbers -/

def decimal (n : ℕ) : List Char := Nat.toDigits 10 n

/-- The text behind an optional sign. -/
def withoutSign : List Char → List Char
  | '+' :: text => text
  | text => text

/-- Reads a number below a bound: decimal digits, with an optional sign. -/
def parseDecimal (bound : ℕ) (text : List Char) : Option ℕ :=
  let digits := withoutSign text
  if digits ≠ [] ∧ digits.all Char.isDigit = true ∧ Nat.ofDigitChars 10 digits 0 < bound then
    some (Nat.ofDigitChars 10 digits 0)
  else none

variable {n : ℕ} {c : Char}

theorem isDigit_of_mem_decimal (h : c ∈ decimal n) : c.isDigit = true :=
  Nat.isDigit_of_mem_toDigits (by omega) (by omega) h

theorem notMem_decimal (hc : c.isDigit = false) : c ∉ decimal n := by
  intro h
  rw [isDigit_of_mem_decimal h] at hc
  cases hc

theorem withoutSign_decimal : withoutSign (decimal n) = decimal n := by
  unfold withoutSign
  split
  · rename_i text heq
    have hmem : '+' ∈ decimal n := heq ▸ mem_cons_self
    exact absurd hmem (notMem_decimal rfl)
  · rfl

theorem parseDecimal_decimal {bound : ℕ} (h : n < bound) :
    parseDecimal bound (decimal n) = some n := by
  have hvalue : Nat.ofDigitChars 10 (decimal n) 0 = n :=
    Nat.ofDigitChars_toDigits (by omega) (by omega)
  have hall : (decimal n).all Char.isDigit = true :=
    all_eq_true.mpr fun _ hc => isDigit_of_mem_decimal hc
  rw [parseDecimal, withoutSign_decimal, hvalue]
  exact if_pos ⟨Nat.toDigits_ne_nil, hall, h⟩

end Oxiroute.Lib
