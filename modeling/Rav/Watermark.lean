import Mathlib.Data.Finset.Lattice.Basic
import Mathlib.Data.Finset.Card
import Mathlib.Order.Basic

/-!
# Replication by a high-water mark

A replica `K` of a set `U` is topped up with the elements of `U` above everything it holds.
That completes `K` exactly when `K` has no gap: whatever it lacks lies above all it holds.

## Main definitions

- `above K U` — the elements of `U` above all of `K`
- `fill K U` — the replica after topping up
- `GapFree K U` — every element of `U` missing from `K` is above all of `K`
-/

namespace Rav

variable {α : Type*} [LinearOrder α] {K L U : Finset α}

/-- The elements of `U` above every element of `K`. -/
def above (K U : Finset α) : Finset α := U.filter (fun u => ∀ k ∈ K, k < u)

/-- `K` topped up with what `U` has above it. -/
def fill (K U : Finset α) : Finset α := K ∪ above K U

/-- Every element of `U` that `K` lacks is above all of `K`. -/
def GapFree (K U : Finset α) : Prop := ∀ u ∈ U, u ∉ K → ∀ k ∈ K, k < u

instance : Decidable (GapFree K U) := by unfold GapFree; infer_instance

@[simp] theorem mem_above {u : α} : u ∈ above K U ↔ u ∈ U ∧ ∀ k ∈ K, k < u := by
  simp [above]

@[simp] theorem mem_fill {u : α} : u ∈ fill K U ↔ u ∈ K ∨ u ∈ U ∧ ∀ k ∈ K, k < u := by
  simp [fill]

theorem above_subset : above K U ⊆ U := Finset.filter_subset _ _

theorem subset_fill : K ⊆ fill K U := Finset.subset_union_left

@[simp] theorem fill_empty : fill ∅ U = U := by ext u; simp

theorem gapFree_empty : GapFree ∅ U := by simp [GapFree]

theorem gapFree_iff : GapFree K U ↔ U ⊆ fill K U := by
  constructor
  · intro h u hu
    by_cases hk : u ∈ K
    · exact subset_fill hk
    · exact mem_fill.mpr (Or.inr ⟨hu,h u hu hk⟩)
  · intro h u hu hk
    exact (mem_fill.mp (h hu)).resolve_left hk |>.2

theorem fill_eq_iff : fill K U = U ↔ K ⊆ U ∧ GapFree K U := by
  rw [gapFree_iff]
  constructor
  · intro h
    exact ⟨by rw [← h]; exact subset_fill,h.ge⟩
  · rintro ⟨hk,hu⟩
    exact Finset.Subset.antisymm (Finset.union_subset hk above_subset) hu

/-- One round of topping up is final. -/
theorem above_fill : above (fill K U) U = ∅ := by
  refine Finset.eq_empty_of_forall_notMem (fun u hu => ?_)
  obtain ⟨hu,hk⟩ := mem_above.mp hu
  have hf : u ∈ fill K U := mem_fill.mpr (Or.inr ⟨hu,fun k h => hk k (subset_fill h)⟩)
  exact lt_irrefl u (hk u hf)

theorem fill_of_above_eq_empty (h : above K U = ∅) : fill K U = K := by
  rw [fill,h,Finset.union_empty]

theorem fill_fill : fill (fill K U) U = fill K U := fill_of_above_eq_empty above_fill

/-- Whatever keeps the top of a replica and some of its rest has the same gaps below that top:
with something of `U` above `K`, no gap survives unless `K` itself has it. -/
theorem gapFree_union_above (hL : L ⊆ K) (hK : ∀ u ∈ U, u ∈ K → u ∈ L)
    (h : (above K U).Nonempty) : GapFree (L ∪ above K U) U ↔ GapFree K U := by
  obtain ⟨t,ht⟩ := h
  obtain ⟨htU,htK⟩ := mem_above.mp ht
  constructor
  · intro hg u hu hk
    by_cases ha : u ∈ above K U
    · exact (mem_above.mp ha).2
    · have hl : u ∉ L ∪ above K U := by
        rw [Finset.mem_union,not_or]
        exact ⟨fun hl => hk (hL hl),ha⟩
      intro k hkK
      exact (htK k hkK).trans (hg u hu hl t (Finset.mem_union_right _ ht))
  · intro hg u hu hl
    rw [Finset.mem_union,not_or] at hl
    have hk : u ∉ K := fun hk => hl.1 (hK u hu hk)
    exact absurd (mem_above.mpr ⟨hu,hg u hu hk⟩) hl.2

/-- The replica that keeps `L` of `K` and is topped up above `K` can be completed: `K` has no gap,
or nothing is above it and `L` has none. -/
def Completable (K L U : Finset α) : Prop := GapFree K U ∨ above K U = ∅ ∧ GapFree L U

instance : Decidable (Completable K L U) := by unfold Completable; infer_instance

theorem gapFree_union_above_iff (hL : L ⊆ K) (hK : ∀ u ∈ U, u ∈ K → u ∈ L) :
    GapFree (L ∪ above K U) U ↔ Completable K L U := by
  unfold Completable
  by_cases h : above K U = ∅
  · rw [h,Finset.union_empty]
    constructor
    · exact fun hg => Or.inr ⟨rfl,hg⟩
    · rintro (hg | ⟨-,hg⟩)
      · intro u hu hl
        have hk : u ∉ K := fun hk => hl (hK u hu hk)
        exact fun k hkL => hg u hu hk k (hL hkL)
      · exact hg
  · rw [gapFree_union_above hL hK (Finset.nonempty_iff_ne_empty.mpr h)]
    simp [h]

/-- A replica that has been topped up has the gaps it had before. -/
theorem gapFree_fill : GapFree (fill K U) U ↔ GapFree K U := by
  rw [gapFree_iff,fill_fill,← gapFree_iff]

/-- Among replicas of the right size, topping up completes only the complete one. -/
theorem fill_eq_iff_of_card (h : K.card = U.card) : fill K U = U ↔ K = U := by
  constructor
  · exact fun hf => Finset.eq_of_subset_of_card_le (fill_eq_iff.mp hf).1 h.ge
  · rintro rfl
    exact Finset.union_eq_left.mpr above_subset

/-- Topping up, dropping what `U` does not have, and topping up again. -/
theorem fill_sdiff_fill_eq_iff {R : Finset α} (hR : ∀ u ∈ U, u ∉ R) :
    fill (fill K U \ R) U = U ↔ K \ R ⊆ U ∧ Completable K (K \ R) U := by
  have he : fill K U \ R = (K \ R) ∪ above K U := by
    rw [fill,Finset.union_sdiff_distrib]
    congr 1
    exact Finset.sdiff_eq_self_of_disjoint
      (Finset.disjoint_left.mpr (fun u hu => hR u (above_subset hu)))
  rw [fill_eq_iff,he,gapFree_union_above_iff Finset.sdiff_subset
    (fun u hu hk => Finset.mem_sdiff.mpr ⟨hk,hR u hu⟩),Finset.union_subset_iff]
  simp [above_subset]

theorem fill_subset (h : K ⊆ U) : fill K U ⊆ U := Finset.union_subset h above_subset

/-- A replica without gaps that lacks nothing above itself lacks nothing. -/
theorem union_above_eq (hL : L = K ∩ U) (hg : GapFree K U) : L ∪ above K U = U := by
  subst hL
  refine Finset.Subset.antisymm (Finset.union_subset Finset.inter_subset_right above_subset) ?_
  intro u hu
  by_cases hk : u ∈ K
  · exact Finset.mem_union_left _ (Finset.mem_inter.mpr ⟨hk,hu⟩)
  · exact Finset.mem_union_right _ (mem_above.mpr ⟨hu,hg u hu hk⟩)

end Rav
