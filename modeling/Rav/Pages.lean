import Mathlib.Data.List.Dedup
import Mathlib.Data.List.MinMax
import Mathlib.Data.List.Sort
import Mathlib.Data.Finset.Card

/-!
# Pages and groups

A list cut into pages of one size, and the greatest element of each group of a list.

## Main definitions

- `slice`, `wrappedSlice` — a page, and one whose offset is reduced to a fixed range
- `forall_wrappedSlice_iff` — when reducing the offset makes no difference
- `heads` — the greatest of each group
-/

namespace Rav

universe u v w

variable {α : Type u} {κ : Type v} {β : Type w}

/-! ### Pages -/

/-- A page of a list. -/
def slice (page size : Nat) (l : List α) : List α := (l.drop (page * size)).take size

/-- A page, with the offset reduced modulo `m`. -/
def wrappedSlice (m page size : Nat) (l : List α) : List α := (l.drop (page * size % m)).take size

theorem slice_of_length_le {page size : Nat} {l : List α} (h : l.length ≤ page * size) :
    slice page size l = [] := by
  rw [slice, List.drop_eq_nil_of_le h, List.take_nil]

/-- Every element is on some page, unless the pages are empty. -/
theorem exists_mem_slice {m size : Nat} {l : List α} (hl : l.length ≤ m) (hsize : 0 < size) {x : α}
    (hx : x ∈ l) : ∃ page < m, x ∈ slice page size l := by
  obtain ⟨i,hi,rfl⟩ := List.getElem_of_mem hx
  refine ⟨i / size,lt_of_le_of_lt (Nat.div_le_self i size) (lt_of_lt_of_le hi hl),?_⟩
  have hmod := Nat.mod_lt i hsize
  have hdiv := Nat.div_add_mod' i size
  refine List.mem_of_getElem? (i := i % size) ?_
  rw [slice, List.getElem?_take, if_pos hmod, List.getElem?_drop, hdiv]
  exact List.getElem?_eq_getElem hi

theorem slice_zero (page : Nat) (l : List α) : slice page 0 l = [] := by
  rw [slice, List.take_zero]

/-- No page is shown again under a larger number. -/
theorem forall_wrappedSlice_iff {m size : Nat} {l : List α} (hl : l.length ≤ m) :
    (∀ page < m, wrappedSlice m page size l = slice page size l) ↔
      ∀ page < m, m ≤ page * size → l.length ≤ page * size % m := by
  refine forall₂_congr fun page hpage => ?_
  by_cases hwrap : m ≤ page * size
  · have hempty : slice page size l = [] := slice_of_length_le (hl.trans hwrap)
    have hsize : size ≠ 0 := by
      rintro rfl
      rw [Nat.mul_zero] at hwrap
      omega
    rw [hempty, wrappedSlice, List.take_eq_nil_iff, or_iff_right hsize, List.drop_eq_nil_iff]
    exact ⟨fun h _ => h,fun h => h hwrap⟩
  · rw [wrappedSlice, Nat.mod_eq_of_lt (not_le.mp hwrap)]
    exact iff_of_true rfl fun h => absurd h hwrap

/-! ### Groups -/

section Groups

variable [DecidableEq κ] [LinearOrder β] (key : α → κ) (rank : α → β)

/-- The greatest of each group. -/
def heads (l : List α) : List α := l.filter (fun r => decide (∀ s ∈ l, key s = key r → rank s ≤ rank r))

variable {key rank} {l : List α}

theorem mem_heads {r : α} :
    r ∈ heads key rank l ↔ r ∈ l ∧ ∀ s ∈ l, key s = key r → rank s ≤ rank r := by
  rw [heads, List.mem_filter, decide_eq_true_eq]

/-- Each group has a greatest element. -/
theorem exists_head {r : α} (hr : r ∈ l) : ∃ s ∈ heads key rank l, key s = key r := by
  have hne : (l.filter (fun s => decide (key s = key r))).argmax rank ≠ none := by
    rw [Ne, List.argmax_eq_none]
    exact List.ne_nil_of_mem (List.mem_filter.mpr ⟨hr,decide_eq_true rfl⟩)
  obtain ⟨s,hs⟩ := Option.ne_none_iff_exists'.mp hne
  obtain ⟨hmem,hkey⟩ := List.mem_filter.mp (List.argmax_mem hs)
  have hkey := of_decide_eq_true hkey
  refine ⟨s,mem_heads.mpr ⟨hmem,fun t ht heq => ?_⟩,hkey⟩
  exact List.le_of_mem_argmax (List.mem_filter.mpr ⟨ht,decide_eq_true (heq.trans hkey)⟩) hs

/-- Groups have one greatest element each. -/
theorem nodup_map_heads (hnodup : l.Nodup) (hrank : ∀ r ∈ l, ∀ s ∈ l, rank r = rank s → r = s) :
    ((heads key rank l).map key).Nodup := by
  refine (List.nodup_map_iff_inj_on (hnodup.filter _)).mpr fun r hr s hs heq => ?_
  obtain ⟨hr,hrmax⟩ := mem_heads.mp hr
  obtain ⟨hs,hsmax⟩ := mem_heads.mp hs
  exact hrank r hr s hs (le_antisymm (hsmax r hr heq) (hrmax s hs heq.symm))

theorem mem_map_heads {k : κ} : k ∈ (heads key rank l).map key ↔ k ∈ l.map key := by
  rw [List.mem_map, List.mem_map]
  constructor
  · rintro ⟨r,hr,rfl⟩
    exact ⟨r,(mem_heads.mp hr).1,rfl⟩
  · rintro ⟨r,hr,rfl⟩
    exact exists_head hr

end Groups

/-! ### Distinct values -/

theorem length_eq_dedup [DecidableEq κ] {l m : List κ} (hl : l.Nodup) (h : ∀ k, k ∈ l ↔ k ∈ m) :
    l.length = m.dedup.length := by
  rw [← List.toFinset_card_of_nodup hl, ← List.card_toFinset]
  congr 1
  ext k
  rw [List.mem_toFinset, List.mem_toFinset, h]

/-- A coarser grouping has as many groups only if it is the same grouping. -/
theorem length_dedup_eq_iff [DecidableEq κ] [DecidableEq β] {key : α → κ} {f : κ → β} {l : List α} :
    (l.map (f ∘ key)).dedup.length = (l.map key).dedup.length ↔
      ∀ r ∈ l, ∀ s ∈ l, f (key r) = f (key s) → key r = key s := by
  have himage : (l.map (f ∘ key)).toFinset = (l.map key).toFinset.image f := by
    ext b
    simp
  rw [← List.card_toFinset, ← List.card_toFinset, himage, Finset.card_image_iff]
  constructor
  · intro hinj r hr s hs heq
    refine hinj ?_ ?_ heq
    · exact List.mem_toFinset.mpr (List.mem_map_of_mem hr)
    · exact List.mem_toFinset.mpr (List.mem_map_of_mem hs)
  · intro h a ha b hb heq
    obtain ⟨r,hr,rfl⟩ := List.mem_map.mp (List.mem_toFinset.mp ha)
    obtain ⟨s,hs,rfl⟩ := List.mem_map.mp (List.mem_toFinset.mp hb)
    exact h r hr s hs heq

end Rav
