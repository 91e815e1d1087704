import Mathlib.Data.List.Basic
import Mathlib.Order.Lattice

/-!
# Ascending sequences

A sequence that ascends, and may be endless, is given by its elements up to each bound. Skipping
to one bound and taking up to another is filtering.

## Main definitions

- `Ascending` — the elements up to a bound, for every bound
- `Ascending.ofList` — a finite sequence
- `Ascending.between` — skip to a first bound, then take up to a second
-/

namespace Rav

universe u

/-- A strictly ascending sequence, by its elements up to each bound. -/
structure Ascending (α : Type u) [LinearOrder α] where
  upTo : α → List α
  sorted : ∀ b, (upTo b).Pairwise (· < ·)
  upTo_upTo : ∀ a b, a ≤ b → (upTo b).filter (fun x => decide (x ≤ a)) = upTo a

namespace Ascending

variable {α : Type u} [LinearOrder α]

/-- A finite sequence. -/
def ofList (l : List α) (h : l.Pairwise (· < ·)) : Ascending α where
  upTo b := l.filter (fun x => decide (x ≤ b))
  sorted b := h.filter _
  upTo_upTo a b hab := by
    rw [List.filter_filter]
    refine List.filter_congr (fun x _ => ?_)
    rw [← Bool.decide_and]
    exact decide_eq_decide.mpr (and_iff_left_of_imp (fun hx => hx.trans hab))

/-- Skip what comes before `a`, and take what comes up to `b`. -/
def between (s : Ascending α) (a b : α) : List α :=
  ((s.upTo (max a b)).dropWhile (fun x => decide (x < a))).takeWhile (fun x => decide (x ≤ b))

theorem dropWhile_of_sorted {l : List α} (h : l.Pairwise (· < ·)) (a : α) :
    l.dropWhile (fun x => decide (x < a)) = l.filter (fun x => decide (a ≤ x)) := by
  induction l with
  | nil => rfl
  | cons x l ih =>
    obtain ⟨hx,hl⟩ := List.pairwise_cons.mp h
    by_cases hlt : x < a
    · rw [List.dropWhile_cons,if_pos (decide_eq_true hlt),
        List.filter_cons_of_neg (by simpa using hlt),ih hl]
    · rw [List.dropWhile_cons,if_neg (by simpa using hlt)]
      refine (List.filter_eq_self.mpr (fun y hy => decide_eq_true ?_)).symm
      rcases List.mem_cons.mp hy with rfl | hy
      · exact le_of_not_gt hlt
      · exact (le_of_not_gt hlt).trans (hx y hy).le

theorem takeWhile_of_sorted {l : List α} (h : l.Pairwise (· < ·)) (b : α) :
    l.takeWhile (fun x => decide (x ≤ b)) = l.filter (fun x => decide (x ≤ b)) := by
  induction l with
  | nil => rfl
  | cons x l ih =>
    obtain ⟨hx,hl⟩ := List.pairwise_cons.mp h
    by_cases hle : x ≤ b
    · rw [List.takeWhile_cons_of_pos (by simpa using hle),
        List.filter_cons_of_pos (by simpa using hle),ih hl]
    · rw [List.takeWhile_cons_of_neg (by simpa using hle)]
      refine (List.filter_eq_nil_iff.mpr (fun y hy => ?_)).symm
      rcases List.mem_cons.mp hy with rfl | hy
      · simpa using hle
      · simpa using (lt_of_not_ge hle).trans (hx y hy)

variable (s : Ascending α)

theorem le_of_mem_upTo {b x : α} (h : x ∈ s.upTo b) : x ≤ b := by
  rw [← s.upTo_upTo b b le_rfl] at h
  exact of_decide_eq_true (List.mem_filter.mp h).2

theorem between_eq (a b : α) : s.between a b = (s.upTo b).filter (fun x => decide (a ≤ x)) := by
  unfold between
  rw [dropWhile_of_sorted (s.sorted _),takeWhile_of_sorted ((s.sorted _).filter _),
    List.filter_filter,← s.upTo_upTo b (max a b) (le_max_right a b),List.filter_filter]
  exact List.filter_congr (fun x _ => Bool.and_comm _ _)

theorem mem_between {a b x : α} : x ∈ s.between a b ↔ x ∈ s.upTo b ∧ a ≤ x := by
  rw [between_eq,List.mem_filter,decide_eq_true_iff]

end Ascending

end Rav
