import Mathlib.Data.List.Sort
import Mathlib.Data.List.TakeWhile
import Mathlib.Logic.Function.Iterate

/-!
# Queues served in batches

A queue of which the first few are looked at in every round. Those that are blocked stay where they
are, the others leave. Who has too many blocked ones ahead is never looked at.

## Main definitions

- `serveBatch` — one round
- `ahead` — those before one in the queue
- `exists_iterate_serveBatch_iff` — when all that are not blocked leave in the end
- `filter_insertionSort` — sorting keeps the order of those that are left
-/

namespace Rav

universe u

variable {α : Type u}

/-! ### Sorting -/

/-- What is filtered out of a sorted list may be left out before sorting. -/
theorem filter_orderedInsert (r : α → α → Prop) [DecidableRel r] [IsTrans α r] (p : α → Bool) (a : α)
    {l : List α} (hl : l.Pairwise r) : (l.orderedInsert r a).filter p =
      if p a then (l.filter p).orderedInsert r a else l.filter p := by
  induction l with
  | nil =>
    rw [List.orderedInsert_nil, List.filter_singleton]
    cases p a <;> rfl
  | cons b l ih =>
    obtain ⟨hb,hl⟩ := List.pairwise_cons.mp hl
    by_cases hab : r a b
    · have hhead : ∀ c ∈ (b :: l).filter p, r a c := by
        intro c hc
        rcases List.mem_cons.mp (List.mem_filter.mp hc).1 with rfl | hc
        · exact hab
        · exact IsTrans.trans _ _ _ hab (hb c hc)
      rw [List.orderedInsert_cons_of_le r l hab, List.filter_cons]
      split
      · cases hrest : (b :: l).filter p with
        | nil => rfl
        | cons c m => exact (List.orderedInsert_cons_of_le r m (hhead c (hrest ▸ List.mem_cons_self))).symm
      · rfl
    · rw [List.orderedInsert_of_not_le r l hab, List.filter_cons, ih hl, List.filter_cons]
      cases p a with
      | true =>
        cases p b with
        | true => exact (List.orderedInsert_of_not_le r _ hab).symm
        | false => rfl
      | false => rfl

theorem filter_insertionSort (r : α → α → Prop) [DecidableRel r] [IsTrans α r] [Std.Total r]
    (p : α → Bool) (l : List α) :
    (l.insertionSort r).filter p = (l.filter p).insertionSort r := by
  induction l with
  | nil => rfl
  | cons a l ih =>
    rw [List.insertionSort_cons, filter_orderedInsert r p a (List.pairwise_insertionSort r l), ih,
      List.filter_cons]
    split <;> rfl

/-! ### Rounds -/

section Rounds

variable (n : Nat) (blocked : α → Bool)

/-- One round: the first `n` are looked at, and those of them that are not blocked leave. -/
def serveBatch (l : List α) : List α := (l.take n).filter blocked ++ l.drop n

variable {n blocked} {l a b : List α} {x : α}

theorem serveBatch_sublist (l : List α) : (serveBatch n blocked l).Sublist l := by
  have h := List.Sublist.append (List.filter_sublist (l := l.take n) (p := blocked))
    (List.Sublist.refl (l.drop n))
  rwa [List.take_append_drop] at h

theorem iterate_serveBatch_sublist (k : Nat) (l : List α) : ((serveBatch n blocked)^[k] l).Sublist l := by
  induction k generalizing l with
  | zero => exact List.Sublist.refl l
  | succ k ih => exact (ih _).trans (serveBatch_sublist l)

theorem serveBatch_eq_filter [DecidableEq α] (hl : l.Nodup) :
    serveBatch n blocked l = l.filter (fun x => blocked x || decide (x ∉ l.take n)) := by
  have hdisjoint : ∀ x ∈ l.drop n, x ∉ l.take n := by
    intro x hx htake
    rw [← List.take_append_drop n l] at hl
    exact (List.nodup_append.mp hl).2.2 x htake x hx rfl
  have hsplit : l.filter (fun x => blocked x || decide (x ∉ l.take n)) =
      (l.take n ++ l.drop n).filter (fun x => blocked x || decide (x ∉ l.take n)) := by
    rw [List.take_append_drop]
  rw [hsplit, serveBatch, List.filter_append]
  congr 1
  · refine List.filter_congr fun x hx => ?_
    rw [decide_eq_false (not_not_intro hx), Bool.or_false]
  · refine (List.filter_eq_self.mpr fun x hx => ?_).symm
    rw [decide_eq_true (hdisjoint x hx), Bool.or_true]

/-- The blocked ones stay. -/
theorem filter_serveBatch (l : List α) : (serveBatch n blocked l).filter blocked = l.filter blocked := by
  rw [serveBatch, List.filter_append, List.filter_filter]
  simp only [Bool.and_self]
  rw [← List.filter_append, List.take_append_drop]

/-- One that is too far behind stays, with all that are behind it. -/
theorem serveBatch_append (h : n ≤ a.length) (b : List α) :
    serveBatch n blocked (a ++ b) = serveBatch n blocked a ++ b := by
  rw [serveBatch, List.take_append_of_le_length h, List.drop_append_of_le_length h, serveBatch, List.append_assoc]

/-- One that is looked at and not blocked leaves. -/
theorem not_mem_serveBatch (hl : (a ++ x :: b).Nodup) (hx : blocked x = false) (h : a.length < n) :
    x ∉ serveBatch n blocked (a ++ x :: b) := by
  obtain ⟨m,rfl⟩ := Nat.exists_eq_add_of_lt h
  have hdrop : (a ++ x :: b).drop (a.length + m + 1) = b.drop m := by
    rw [Nat.add_assoc, List.drop_append, List.drop_eq_nil_of_le (by omega), Nat.add_sub_cancel_left,
      List.nil_append, List.drop_succ_cons]
  rw [serveBatch, List.mem_append, hdrop]
  rintro (hmem | hmem)
  · rw [(List.mem_filter.mp hmem).2] at hx
    exact absurd hx Bool.noConfusion
  · have hcons := hl.sublist (List.sublist_append_right a (x :: b))
    exact (List.nodup_cons.mp hcons).1 (List.mem_of_mem_drop hmem)

/-- While the queue is longer than a round and not all of a round are blocked, it gets shorter. -/
theorem length_serveBatch_lt (hlen : n ≤ l.length) (h : (l.filter blocked).length < n) :
    (serveBatch n blocked l).length < l.length := by
  have htake : ((l.take n).filter blocked).length ≤ (l.filter blocked).length :=
    ((List.take_sublist n l).filter blocked).length_le
  rw [serveBatch, List.length_append, List.length_drop]
  omega

/-- Behind a round of blocked ones nothing is ever looked at. -/
theorem mem_iterate_of_starved (h : n ≤ (a.filter blocked).length) (k : Nat) :
    x ∈ (serveBatch n blocked)^[k] (a ++ x :: b) := by
  induction k generalizing a with
  | zero => exact List.mem_append_right _ List.mem_cons_self
  | succ k ih =>
    rw [Function.iterate_succ_apply, serveBatch_append (h.trans (List.length_filter_le _ _))]
    refine ih ?_
    rwa [filter_serveBatch]

/-- One with few blocked ones ahead is looked at in the end. -/
theorem exists_not_mem_iterate (hl : (a ++ x :: b).Nodup) (hx : blocked x = false)
    (h : (a.filter blocked).length < n) : ∃ k, x ∉ (serveBatch n blocked)^[k] (a ++ x :: b) := by
  induction hsize : a.length using Nat.strong_induction_on generalizing a with
  | _ size ih =>
    by_cases hlt : a.length < n
    · exact ⟨1,not_mem_serveBatch hl hx hlt⟩
    · have hle := not_lt.mp hlt
      have hnodup : (serveBatch n blocked a ++ x :: b).Nodup := by
        rw [← serveBatch_append hle]
        exact hl.sublist (serveBatch_sublist _)
      obtain ⟨k,hk⟩ := ih _ (hsize ▸ length_serveBatch_lt hle h) hnodup (by rwa [filter_serveBatch]) rfl
      refine ⟨k + 1,?_⟩
      rwa [Function.iterate_succ_apply, serveBatch_append hle]

theorem not_mem_iterate_of_le {k m : Nat} (hkm : k ≤ m) (h : x ∉ (serveBatch n blocked)^[k] l) :
    x ∉ (serveBatch n blocked)^[m] l := by
  obtain ⟨j,rfl⟩ := Nat.exists_eq_add_of_le' hkm
  rw [Function.iterate_add_apply]
  exact fun hmem => h ((iterate_serveBatch_sublist j _).subset hmem)

/-- What leaves in the end one by one has left after some round. -/
theorem exists_common_round {xs : List α} (h : ∀ x ∈ xs, ∃ k, x ∉ (serveBatch n blocked)^[k] l) :
    ∃ k, ∀ x ∈ xs, x ∉ (serveBatch n blocked)^[k] l := by
  induction xs with
  | nil => exact ⟨0,fun x hx => absurd hx List.not_mem_nil⟩
  | cons y xs ih =>
    obtain ⟨hy,hxs⟩ := List.forall_mem_cons.mp h
    obtain ⟨k,hk⟩ := hy
    obtain ⟨m,hm⟩ := ih hxs
    refine ⟨max k m,List.forall_mem_cons.mpr ⟨not_mem_iterate_of_le (le_max_left k m) hk,?_⟩⟩
    exact fun x hx => not_mem_iterate_of_le (le_max_right k m) (hm x hx)

end Rounds

/-! ### Starvation -/

section Starvation

variable [DecidableEq α] {n : Nat} {blocked : α → Bool} {l : List α}

/-- Those before one in the queue. -/
def ahead (l : List α) (x : α) : List α := l.takeWhile (fun y => y ≠ x)

theorem ahead_append {x : α} (hx : x ∈ l) : ∃ b, l = ahead l x ++ x :: b := by
  obtain ⟨a,b,rfl,hnot⟩ := List.eq_append_cons_of_mem hx
  have hne : ∀ y ∈ a, decide (y ≠ x) = true :=
    fun y hy => decide_eq_true fun heq => hnot (heq ▸ hy)
  refine ⟨b,?_⟩
  rw [ahead, List.takeWhile_append_of_pos hne, List.takeWhile_cons_of_neg (by simp), List.append_nil]

/-- All that are not blocked leave in the end if and only if each of them has less than a round of
blocked ones ahead. -/
theorem exists_iterate_serveBatch_iff (hl : l.Nodup) :
    (∃ k, ∀ x ∈ l, blocked x = false → x ∉ (serveBatch n blocked)^[k] l) ↔
      ∀ x ∈ l, blocked x = false → ((ahead l x).filter blocked).length < n := by
  constructor
  · rintro ⟨k,hk⟩ x hx hfree
    obtain ⟨b,hb⟩ := ahead_append hx
    by_contra hstarved
    have hmem := mem_iterate_of_starved (x := x) (b := b) (not_lt.mp hstarved) k
    rw [← hb] at hmem
    exact hk x hx hfree hmem
  · intro h
    have hleave : ∀ x ∈ l.filter (fun x => !blocked x), ∃ k, x ∉ (serveBatch n blocked)^[k] l := by
      intro x hx
      obtain ⟨hx,hfree⟩ := List.mem_filter.mp hx
      rw [Bool.not_eq_true'] at hfree
      obtain ⟨b,hb⟩ := ahead_append hx
      have hout := exists_not_mem_iterate (b := b) (hb ▸ hl) hfree (h x hx hfree)
      rwa [← hb] at hout
    obtain ⟨k,hk⟩ := exists_common_round hleave
    refine ⟨k,fun x hx hfree => hk x (List.mem_filter.mpr ⟨hx,?_⟩)⟩
    rw [hfree]
    rfl

end Starvation

end Rav
