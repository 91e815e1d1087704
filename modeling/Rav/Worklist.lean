import Mathlib.Data.List.Nodup
import Mathlib.Data.List.Perm.Subperm
import Mathlib.Data.Nat.Init
import Mathlib.Order.Basic

/-!
# Work lists

Names are looked up until no new ones turn up: a look-up finds items, and an item has names. The names
pending are looked up in some order, of which the items found do not depend.

## Main definitions

- `IterOrder` — an order of going through a set
- `Worklist`, `Worklist.visit`, `Worklist.run` — the names known, those looked up, and the items found
- `TurnsUp` — the names that turn up
- `Worklist.run_spec` — the search ends with the items of all names reached
- `retainFirst` — the first item of each key
-/

namespace Rav

universe u v w

/-- An order in which a set is gone through. -/
structure IterOrder (α : Type u) where
  list : List α → List α
  perm : ∀ l, (list l).Perm l

/-- The order in which the set was built. -/
def IterOrder.asBuilt (α : Type u) : IterOrder α where
  list := id
  perm := fun _ => .refl _

structure Worklist (α : Type u) (β : Type v) where
  known : List α
  processed : List α
  items : List β

variable {α : Type u} {β : Type v}

/-- The names that turn up from some to start with. -/
inductive TurnsUp (find : α → List β) (names : β → List α) (seeds : List α) : α → Prop
  | seed {a : α} (ha : a ∈ seeds) : TurnsUp find names seeds a
  | next {a a' : α} {b : β} (ha : TurnsUp find names seeds a) (hb : b ∈ find a) (ha' : a' ∈ names b) :
    TurnsUp find names seeds a'

namespace Worklist

variable [DecidableEq α]

/-- A set with some more elements. -/
def insertAll (known l : List α) : List α := l.foldl (fun known a => known.insert a) known

@[simp] theorem mem_insertAll {known l : List α} {a : α} : a ∈ insertAll known l ↔ a ∈ known ∨ a ∈ l := by
  induction l generalizing known with
  | nil => simp [insertAll]
  | cons b l ih =>
    have hcons : insertAll known (b :: l) = insertAll (known.insert b) l := rfl
    rw [hcons, ih, List.mem_insert_iff, List.mem_cons]
    tauto

section Search

variable (find : α → List β) (names : β → List α)

/-- Before any name is looked up. -/
def start (seeds : List α) : Worklist α β := ⟨insertAll [] seeds,[],[]⟩

/-- The names known that have not been looked up. -/
def pending (w : Worklist α β) : List α := w.known.filter (fun a => a ∉ w.processed)

/-- Look a name up. -/
def visit (w : Worklist α β) (a : α) : Worklist α β where
  known := insertAll w.known ((find a).flatMap names)
  processed := w.processed.insert a
  items := w.items ++ find a

/-- Look up what is pending, round by round, until nothing is. -/
def run (order : IterOrder α) : Nat → Worklist α β → Option (Worklist α β)
  | 0, _ => none
  | fuel + 1, w =>
    if w.pending.isEmpty then some w
    else run order fuel ((order.list w.pending).foldl (visit find names) w)

end Search

/-! ### What has been looked up -/

/-- What holds in between two look-ups. -/
structure Sound (find : α → List β) (names : β → List α) (seeds : List α) (w : Worklist α β) : Prop where
  seeded : ∀ a ∈ seeds, a ∈ w.known
  reached : ∀ a ∈ w.known, TurnsUp find names seeds a
  looked_up : ∀ a ∈ w.processed, a ∈ w.known
  nodup : w.processed.Nodup
  found : ∀ b, b ∈ w.items ↔ ∃ a ∈ w.processed, b ∈ find a
  named : ∀ b ∈ w.items, ∀ a ∈ names b, a ∈ w.known

variable {find : α → List β} {names : β → List α} {order : IterOrder α} {seeds l : List α}
  {w w' : Worklist α β} {a : α}

theorem sound_start : Sound find names seeds (start seeds) where
  seeded := fun a ha => mem_insertAll.mpr (Or.inr ha)
  reached := fun a ha => .seed ((mem_insertAll.mp ha).resolve_left List.not_mem_nil)
  looked_up := fun a ha => absurd ha List.not_mem_nil
  nodup := List.nodup_nil
  found := by simp [start]
  named := fun b hb => absurd hb List.not_mem_nil

theorem known_visit (ha : a ∈ w.known) (b : α) : a ∈ (w.visit find names b).known :=
  mem_insertAll.mpr (Or.inl ha)

/-- A known name is looked up. -/
theorem Sound.visit (h : Sound find names seeds w) (ha : a ∈ w.known) :
    Sound find names seeds (w.visit find names a) where
  seeded := fun b hb => known_visit (h.seeded b hb) a
  reached := by
    intro n hn
    rcases mem_insertAll.mp hn with hn | hn
    · exact h.reached n hn
    · obtain ⟨b,hb,hname⟩ := List.mem_flatMap.mp hn
      exact .next (h.reached a ha) hb hname
  looked_up := by
    intro n hn
    rcases List.mem_insert_iff.mp hn with rfl | hn
    · exact known_visit ha _
    · exact known_visit (h.looked_up n hn) a
  nodup := h.nodup.insert
  found := by
    intro b
    simp only [Worklist.visit, List.mem_append, h.found, List.mem_insert_iff]
    constructor
    · rintro (⟨n,hn,hb⟩ | hb)
      · exact ⟨n,Or.inr hn,hb⟩
      · exact ⟨a,Or.inl rfl,hb⟩
    · rintro ⟨n,rfl | hn,hb⟩
      · exact Or.inr hb
      · exact Or.inl ⟨n,hn,hb⟩
  named := by
    intro b hb n hn
    rcases List.mem_append.mp hb with hb | hb
    · exact known_visit (h.named b hb n hn) a
    · exact mem_insertAll.mpr (Or.inr (List.mem_flatMap.mpr ⟨b,hb,hn⟩))

theorem Sound.round (h : Sound find names seeds w) (hl : ∀ a ∈ l, a ∈ w.known) :
    Sound find names seeds (l.foldl (Worklist.visit find names) w) := by
  induction l generalizing w with
  | nil => exact h
  | cons a l ih =>
    obtain ⟨ha,hl⟩ := List.forall_mem_cons.mp hl
    exact ih (h.visit ha) fun b hb => known_visit (hl b hb) a

theorem mem_pending : a ∈ w.pending ↔ a ∈ w.known ∧ a ∉ w.processed := by
  rw [pending, List.mem_filter, decide_eq_true_eq]

theorem Sound.round_pending (h : Sound find names seeds w) :
    Sound find names seeds ((order.list w.pending).foldl (Worklist.visit find names) w) :=
  h.round fun _ ha => (mem_pending.mp ((order.perm _).mem_iff.mp ha)).1

/-- When nothing is pending, every name that turns up has been looked up. -/
theorem Sound.mem_processed (h : Sound find names seeds w) (hend : w.pending = []) :
    a ∈ w.processed ↔ TurnsUp find names seeds a := by
  have hall : ∀ n ∈ w.known, n ∈ w.processed := by
    intro n hn
    by_contra hnot
    exact List.not_mem_nil (hend ▸ mem_pending.mpr ⟨hn,hnot⟩)
  constructor
  · exact fun ha => h.reached a (h.looked_up a ha)
  · intro ha
    induction ha with
    | seed hseed => exact hall _ (h.seeded _ hseed)
    | next _ hb hname ih => exact hall _ (h.named _ ((h.found _).mpr ⟨_,ih,hb⟩) _ hname)

/-! ### The end of the search -/

theorem length_processed_le (l : List α) :
    w.processed.length ≤ (l.foldl (visit find names) w).processed.length := by
  induction l generalizing w with
  | nil => exact Nat.le_refl _
  | cons a l ih =>
    have hvisit : w.processed.length ≤ (w.visit find names a).processed.length :=
      List.length_le_length_insert
    exact Nat.le_trans hvisit ih

/-- Every round looks a name up. -/
theorem length_processed_lt (hne : w.pending ≠ []) :
    w.processed.length <
      ((order.list w.pending).foldl (visit find names) w).processed.length := by
  cases hlist : order.list w.pending with
  | nil => exact absurd (List.Perm.nil_eq (hlist ▸ order.perm w.pending)).symm hne
  | cons a l =>
    have hmem : a ∈ order.list w.pending := hlist ▸ List.mem_cons_self
    have hnew := (mem_pending.mp ((order.perm _).mem_iff.mp hmem)).2
    refine Nat.lt_of_lt_of_le ?_ (length_processed_le l)
    show w.processed.length < (w.processed.insert a).length
    rw [List.length_insert_of_not_mem hnew]
    exact Nat.lt_succ_self _

/-- A search with fuel for all names ends. -/
theorem exists_run {all : List α} (hall : ∀ a, TurnsUp find names seeds a → a ∈ all)
    (h : Sound find names seeds w) {fuel : Nat} (hfuel : all.length < w.processed.length + fuel) :
    ∃ w', run find names order fuel w = some w' ∧ Sound find names seeds w' ∧ w'.pending = [] := by
  induction fuel generalizing w with
  | zero =>
    have hsub : w.processed ⊆ all := fun a ha => hall a (h.reached a (h.looked_up a ha))
    have hle := (h.nodup.subperm hsub).length_le
    omega
  | succ fuel ih =>
    unfold run
    by_cases hend : w.pending = []
    · rw [if_pos (List.isEmpty_iff.mpr hend)]
      exact ⟨w,rfl,h,hend⟩
    · rw [if_neg (mt List.isEmpty_iff.mp hend)]
      have hlt : w.processed.length <
        ((order.list w.pending).foldl (visit find names) w).processed.length := length_processed_lt hend
      exact ih h.round_pending (by omega)

/-- More fuel makes no difference. -/
theorem run_succ {fuel : Nat} (h : run find names order fuel w = some w') :
    run find names order (fuel + 1) w = some w' := by
  induction fuel generalizing w with
  | zero => exact absurd h (by simp [run])
  | succ fuel ih =>
    unfold run at h ⊢
    split at h
    · next hend => rwa [if_pos hend]
    · next hend =>
      rw [if_neg hend]
      exact ih h

theorem run_mono {fuel more : Nat} (hle : fuel ≤ more) (h : run find names order fuel w = some w') :
    run find names order more w = some w' := by
  induction more, hle using Nat.le_induction with
  | base => exact h
  | succ more _ ih => exact run_succ ih

/-- The search ends with the items of all names that turn up. -/
theorem run_spec (order : IterOrder α) {all : List α}
    (hall : ∀ a, TurnsUp find names seeds a → a ∈ all) :
    ∃ w, (∀ fuel, all.length < fuel → run find names order fuel (start seeds) = some w) ∧
      ∀ b, b ∈ w.items ↔ ∃ a, TurnsUp find names seeds a ∧ b ∈ find a := by
  have hends : ∃ w, run find names order (all.length + 1) (start seeds) = some w ∧ _ :=
    exists_run hall sound_start (by simp [start])
  obtain ⟨w,hrun,hsound,hend⟩ := hends
  refine ⟨w,fun fuel hfuel => run_mono hfuel hrun,fun b => ?_⟩
  rw [hsound.found]
  exact exists_congr fun a => and_congr_left' (hsound.mem_processed hend)

end Worklist

/-! ### The first of each key -/

section First

variable {κ : Type w} [DecidableEq κ] (key : β → κ)

/-- The items of keys not seen before. -/
def retainFirst (seen : List κ) : List β → List β
  | [] => []
  | b :: l => if key b ∈ seen then retainFirst seen l else b :: retainFirst (key b :: seen) l

variable {key} {seen : List κ} {l : List β}

theorem retainFirst_sublist : (retainFirst key seen l).Sublist l := by
  induction l generalizing seen with
  | nil => exact .slnil
  | cons b l ih =>
    unfold retainFirst
    split
    · exact ih.cons b
    · exact ih.cons_cons b

theorem mem_map_retainFirst {k : κ} :
    k ∈ (retainFirst key seen l).map key ↔ k ∈ l.map key ∧ k ∉ seen := by
  induction l generalizing seen with
  | nil => simp [retainFirst]
  | cons b l ih =>
    unfold retainFirst
    split
    · next hseen =>
      rw [ih, List.map_cons, List.mem_cons]
      constructor
      · exact fun h => ⟨Or.inr h.1,h.2⟩
      · exact fun h => ⟨h.1.resolve_left fun heq => h.2 (heq ▸ hseen),h.2⟩
    · next hseen =>
      rw [List.map_cons, List.map_cons, List.mem_cons, List.mem_cons, ih, List.mem_cons]
      by_cases hk : k = key b
      · exact iff_of_true (Or.inl hk) ⟨Or.inl hk,hk ▸ hseen⟩
      · simp only [hk, false_or]

theorem nodup_retainFirst : ((retainFirst key seen l).map key).Nodup := by
  induction l generalizing seen with
  | nil => exact List.nodup_nil
  | cons b l ih =>
    unfold retainFirst
    split
    · exact ih
    · rw [List.map_cons, List.nodup_cons]
      exact ⟨fun h => (mem_map_retainFirst.mp h).2 List.mem_cons_self,ih⟩

/-- Nothing is lost if no two items share a key. -/
theorem mem_retainFirst (hkey : ∀ b ∈ l, ∀ c ∈ l, key b = key c → b = c) {b : β} :
    b ∈ retainFirst key [] l ↔ b ∈ l := by
  constructor
  · exact fun h => retainFirst_sublist.subset h
  · intro hb
    have hmem : key b ∈ (retainFirst key [] l).map key :=
      mem_map_retainFirst.mpr ⟨List.mem_map_of_mem hb,List.not_mem_nil⟩
    obtain ⟨c,hc,heq⟩ := List.mem_map.mp hmem
    exact hkey c (retainFirst_sublist.subset hc) b hb heq ▸ hc

end First

end Rav
