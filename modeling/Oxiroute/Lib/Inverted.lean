import Mathlib.Data.List.Sort
import Oxiroute.Lib.Table

/-!
# Inverted indexes

For every label the ascending list of the keys that carry it. A label no key carries has no list.
`Exact` says what an index stands for; adding and dropping the labels of a key keep it.
-/

namespace Oxiroute.Lib

/-- The keys of every label. -/
abbrev Inverted (L K : Type) := Table L (List K)

namespace Inverted

variable {L K : Type} [DecidableEq L]

/-- The keys that carry a label. -/
def carriers (index : Inverted L K) (label : L) : List K := (index.lookup label).getD []

/-- The index lists for every label exactly the keys that carry it, and no label without keys. -/
structure Exact (index : Inverted L K) (carries : K → L → Prop) : Prop where
  mem : ∀ label k, k ∈ index.carriers label ↔ carries k label
  nonempty : ∀ label, index.lookup label ≠ some []

theorem exact_empty : Exact (∅ : Inverted L K) fun _ _ => False :=
  ⟨fun label k => by simp [carriers], fun label => by simp⟩

variable {index : Inverted L K} {carries : K → L → Prop}

theorem Exact.congr {carries' : K → L → Prop} (h : Exact index carries)
    (hc : ∀ k label, carries k label ↔ carries' k label) : Exact index carries' :=
  ⟨fun label k => (h.mem label k).trans (hc k label), h.nonempty⟩

variable [LinearOrder K]

/-- Adds a key to an ascending list of distinct keys. -/
def insertKey (key : K) (keys : List K) : List K :=
  if key ∈ keys then keys else keys.orderedInsert (· ≤ ·) key

/-- One more label of a key. -/
def addLabel (key : K) (index : Inverted L K) (label : L) : Inverted L K :=
  index.insert label (insertKey key (index.carriers label))

/-- The labels of a new key. -/
def add (index : Inverted L K) (key : K) (labels : List L) : Inverted L K :=
  labels.foldl (addLabel key) index

/-- One label less of a key. -/
def dropLabel (key : K) (index : Inverted L K) (label : L) : Inverted L K :=
  match index.lookup label with
  | none => index
  | some keys =>
    let keys := keys.filter (· ≠ key)
    if keys.isEmpty then index.erase label else index.insert label keys

/-- Forgets the labels of a key. -/
def drop (index : Inverted L K) (key : K) (labels : List L) : Inverted L K :=
  labels.foldl (dropLabel key) index

variable {key : K} {label : L} {labels : List L}

theorem mem_insertKey {k : K} {keys : List K} : k ∈ insertKey key keys ↔ k = key ∨ k ∈ keys := by
  unfold insertKey
  split_ifs with h
  · constructor
    · exact .inr
    · rintro (rfl | hk)
      · exact h
      · exact hk
  · exact List.mem_orderedInsert _

variable (h : Exact index carries)
include h

theorem Exact.addLabel :
    Exact (addLabel key index label) fun k l => carries k l ∨ (k = key ∧ l = label) := by
  refine ⟨fun l k => ?_, fun l hl => ?_⟩
  · unfold Inverted.addLabel
    rw [carriers, Table.lookup_insert]
    split_ifs with heq
    · rw [Option.getD_some, mem_insertKey, h.mem, heq]
      tauto
    · rw [← carriers, h.mem]
      tauto
  · unfold Inverted.addLabel at hl
    rw [Table.lookup_insert] at hl
    split_ifs at hl with heq
    · have hmem : key ∈ insertKey key (index.carriers label) := mem_insertKey.mpr (.inl rfl)
      rw [Option.some.inj hl] at hmem
      exact List.not_mem_nil hmem
    · exact h.nonempty l hl

theorem Exact.add :
    Exact (add index key labels) fun k l => carries k l ∨ (k = key ∧ l ∈ labels) := by
  induction labels generalizing index carries with
  | nil => exact h.congr (by simp)
  | cons label labels ih =>
    refine (ih h.addLabel).congr fun k l => ?_
    rw [List.mem_cons]
    tauto

theorem Exact.dropLabel :
    Exact (dropLabel key index label) fun k l => carries k l ∧ ¬(k = key ∧ l = label) := by
  unfold Inverted.dropLabel
  cases hlabel : index.lookup label with
  | none =>
    refine h.congr fun k l => ⟨fun hc => ⟨hc, ?_⟩, And.left⟩
    rintro ⟨-, rfl⟩
    have hmem := (h.mem l k).mpr hc
    simp [carriers, hlabel] at hmem
  | some keys =>
    have hkeys : ∀ k, k ∈ keys ↔ carries k label := fun k => by
      have := h.mem label k
      rwa [carriers, hlabel, Option.getD_some] at this
    have hfilter : ∀ k, k ∈ keys.filter (· ≠ key) ↔ carries k label ∧ k ≠ key := fun k => by
      rw [List.mem_filter, hkeys, decide_eq_true_eq]
    simp only
    split_ifs with hempty
    · rw [List.isEmpty_iff] at hempty
      refine ⟨fun l k => ?_, fun l hl => ?_⟩
      · rw [carriers, Table.lookup_erase]
        split_ifs with heq
        · have hnot := hfilter k
          rw [hempty] at hnot
          rw [heq, Option.getD_none]
          tauto
        · rw [← carriers, h.mem]
          tauto
      · obtain ⟨-, hl⟩ := Table.of_lookup_erase hl
        exact h.nonempty l hl
    · refine ⟨fun l k => ?_, fun l hl => ?_⟩
      · rw [carriers, Table.lookup_insert]
        split_ifs with heq
        · rw [Option.getD_some, hfilter, heq]
          tauto
        · rw [← carriers, h.mem]
          tauto
      · rw [Table.lookup_insert] at hl
        split_ifs at hl with heq
        · rw [Option.some.inj hl] at hempty
          exact hempty rfl
        · exact h.nonempty l hl

theorem Exact.drop :
    Exact (drop index key labels) fun k l => carries k l ∧ ¬(k = key ∧ l ∈ labels) := by
  induction labels generalizing index carries with
  | nil => exact h.congr (by simp)
  | cons label labels ih =>
    refine (ih h.dropLabel).congr fun k l => ?_
    rw [List.mem_cons]
    tauto

end Inverted

end Oxiroute.Lib
