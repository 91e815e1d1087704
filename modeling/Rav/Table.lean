import Mathlib.Data.List.Nodup
import Mathlib.Data.Finset.Card
import Mathlib.Data.Finset.Dedup

/-!
# Keyed tables

A table is a list of rows in which no two rows share a key, so a violated primary key
cannot be written down. `find?` reads a table as a partial map from keys to rows; one
lemma for each statement says what it does to that map.

## Main definitions

- `Table` — rows under a primary key
- `Table.find?` — the row stored under a key
- `Table.insertOrReplace`, `Table.insertOrIgnore`, `Table.deleteWhere`, `Table.updateWhere`
-/

namespace Rav

universe u v

/-- Rows under a primary key: no two rows share a key. -/
structure Table {ρ : Type u} {κ : Type v} (key : ρ → κ) where
  rows : List ρ
  nodup : (rows.map key).Nodup

namespace Table

variable {ρ : Type u} {κ : Type v} {key : ρ → κ}

def empty : Table key := ⟨[],List.nodup_nil⟩

instance : Inhabited (Table key) := ⟨empty⟩

/-- Two rows of a table with the same key are the same row. -/
theorem eq_of_key {t : Table key} {r s : ρ} (hr : r ∈ t.rows) (hs : s ∈ t.rows)
    (h : key r = key s) : r = s :=
  List.inj_on_of_nodup_map t.nodup hr hs h

/-- The rows that fail `p`. -/
def deleteWhere (t : Table key) (p : ρ → Bool) : Table key where
  rows := t.rows.filter (fun r => !p r)
  nodup := t.nodup.sublist (List.filter_sublist.map key)

/-- Apply `g`, which keeps keys, to the rows that satisfy `p`. -/
def updateWhere (t : Table key) (p : ρ → Bool) (g : ρ → ρ) (hg : ∀ r, key (g r) = key r) :
    Table key where
  rows := t.rows.map (fun r => if p r then g r else r)
  nodup := by
    have he : (key ∘ fun r => if p r then g r else r) = key := by
      funext r
      by_cases hp : p r <;> simp [hp,hg]
    simpa only [List.map_map,he] using t.nodup

theorem deleteWhere_of_forall {t : Table key} {p : ρ → Bool}
    (h : ∀ r ∈ t.rows, p r = false) : t.deleteWhere p = t := by
  obtain ⟨rows,hnd⟩ := t
  simp only [deleteWhere,mk.injEq]
  refine List.filter_eq_self.mpr (fun r hr => ?_)
  rw [h r hr]
  rfl

theorem updateWhere_of_forall {t : Table key} {p : ρ → Bool} {g : ρ → ρ}
    {hg : ∀ r, key (g r) = key r} (h : ∀ r ∈ t.rows, p r = true → g r = r) :
    t.updateWhere p g hg = t := by
  obtain ⟨rows,hnd⟩ := t
  simp only [updateWhere,mk.injEq]
  refine (List.map_congr_left (fun r hr => ?_)).trans (List.map_id rows)
  split
  · next hp => exact h r hr hp
  · rfl

variable [DecidableEq κ]

/-- The row stored under `k`. -/
def find? (t : Table key) (k : κ) : Option ρ := t.rows.find? (fun r => key r = k)

/-- Drop the row with the key of `r`, if there is one, and append `r`. -/
def insertOrReplace (t : Table key) (r : ρ) : Table key where
  rows := t.rows.filter (fun s => key s ≠ key r) ++ [r]
  nodup := by
    rw [List.map_append,List.nodup_append]
    refine ⟨t.nodup.sublist (List.filter_sublist.map key),List.nodup_singleton _,?_⟩
    rintro a ha b hb rfl
    obtain ⟨s,hs,rfl⟩ := List.mem_map.mp ha
    have hne : key s ≠ key r := by simpa using (List.mem_filter.mp hs).2
    exact hne (by simpa using hb)

/-- Append `r` unless its key is taken. -/
def insertOrIgnore (t : Table key) (r : ρ) : Table key :=
  if h : key r ∈ t.rows.map key then t else
    ⟨t.rows ++ [r],by
      rw [List.map_append]
      exact List.nodup_append.mpr ⟨t.nodup,List.nodup_singleton _,by
        rintro a ha b hb rfl
        simp only [List.map_cons,List.map_nil,List.mem_singleton] at hb
        exact h (hb ▸ ha)⟩⟩

theorem find?_eq_some {t : Table key} {k : κ} {r : ρ} :
    t.find? k = some r ↔ r ∈ t.rows ∧ key r = k := by
  constructor
  · intro h
    exact ⟨List.mem_of_find?_eq_some h,by simpa using List.find?_some h⟩
  · rintro ⟨hr,rfl⟩
    cases hf : t.find? (key r) with
    | none =>
      have := List.find?_eq_none.mp hf r hr
      simp at this
    | some s =>
      have hs : s ∈ t.rows := List.mem_of_find?_eq_some hf
      have hk : key s = key r := by simpa using List.find?_some hf
      rw [eq_of_key hs hr hk]

theorem find?_eq_none {t : Table key} {k : κ} :
    t.find? k = none ↔ ∀ r ∈ t.rows, key r ≠ k := by
  simp [find?,List.find?_eq_none]

/-- A table is read through its keys: two tables with the same answers hold the same rows. -/
theorem find?_self {t : Table key} {r : ρ} (hr : r ∈ t.rows) : t.find? (key r) = some r :=
  find?_eq_some.mpr ⟨hr,rfl⟩

@[simp] theorem find?_empty (k : κ) : (empty : Table key).find? k = none := rfl

@[simp] theorem find?_deleteWhere (t : Table key) (p : ρ → Bool) (k : κ) :
    (t.deleteWhere p).find? k = (t.find? k).filter (fun r => !p r) := by
  cases hf : t.find? k with
  | none =>
    rw [find?_eq_none] at hf
    exact find?_eq_none.mpr (fun r hr => hf r (List.mem_filter.mp hr).1)
  | some r =>
    obtain ⟨hr,hk⟩ := find?_eq_some.mp hf
    by_cases hp : p r = true
    · rw [Option.filter_some_neg (by simp [hp])]
      refine find?_eq_none.mpr (fun s hs he => ?_)
      obtain ⟨hs,hps⟩ := List.mem_filter.mp hs
      have hsr : s = r := eq_of_key hs hr (he.trans hk.symm)
      simp [hsr,hp] at hps
    · rw [Option.filter_some_pos (by simpa using hp)]
      exact find?_eq_some.mpr ⟨List.mem_filter.mpr ⟨hr,by simpa using hp⟩,hk⟩

@[simp] theorem find?_updateWhere (t : Table key) (p : ρ → Bool) (g : ρ → ρ)
    (hg : ∀ r, key (g r) = key r) (k : κ) :
    (t.updateWhere p g hg).find? k = (t.find? k).map (fun r => if p r then g r else r) := by
  have hkey : ∀ r, key (if p r then g r else r) = key r := by
    intro r
    by_cases hp : p r <;> simp [hp,hg]
  cases hf : t.find? k with
  | none =>
    rw [find?_eq_none] at hf
    refine find?_eq_none.mpr (fun s hs => ?_)
    obtain ⟨r,hr,rfl⟩ := List.mem_map.mp hs
    rw [hkey]
    exact hf r hr
  | some r =>
    obtain ⟨hr,hk⟩ := find?_eq_some.mp hf
    exact find?_eq_some.mpr ⟨List.mem_map.mpr ⟨r,hr,rfl⟩,(hkey r).trans hk⟩

@[simp] theorem find?_insertOrReplace (t : Table key) (r : ρ) (k : κ) :
    (t.insertOrReplace r).find? k = if k = key r then some r else t.find? k := by
  by_cases hk : k = key r
  · subst hk
    rw [if_pos rfl]
    exact find?_eq_some.mpr ⟨by simp [insertOrReplace],rfl⟩
  · rw [if_neg hk]
    cases hf : t.find? k with
    | none =>
      rw [find?_eq_none] at hf
      refine find?_eq_none.mpr (fun s hs => ?_)
      rcases List.mem_append.mp hs with hs | hs
      · exact hf s (List.mem_filter.mp hs).1
      · rw [List.mem_singleton.mp hs]
        exact fun he => hk he.symm
    | some s =>
      obtain ⟨hs,rfl⟩ := find?_eq_some.mp hf
      exact find?_eq_some.mpr
        ⟨List.mem_append_left _ (List.mem_filter.mpr ⟨hs,by simpa using hk⟩),rfl⟩

@[simp] theorem find?_insertOrIgnore (t : Table key) (r : ρ) (k : κ) :
    (t.insertOrIgnore r).find? k = (t.find? k).or (if k = key r then some r else none) := by
  unfold insertOrIgnore
  by_cases h : key r ∈ t.rows.map key
  · rw [dif_pos h]
    obtain ⟨s,hs,hk⟩ := List.mem_map.mp h
    by_cases he : k = key r
    · rw [he,← hk,find?_self hs]
      rfl
    · simp [he]
  · rw [dif_neg h]
    simp only [find?,List.find?_append]
    congr 1
    by_cases he : k = key r <;> simp [he,eq_comm]

end Table

end Rav
