import Rav.Table

/-!
# Concurrent maps

A concurrent map, used one call at a time: a table of entries under their key. Each operation
comes with the lemma that says how it changes the answers of `get`.

## Main definitions

- `DashMap`, `DashMap.get`, `DashMap.iter`
- `DashMap.insert`, `DashMap.remove`, `DashMap.modify`, `DashMap.retain`
-/

namespace Rav

universe u v

/-- Entries with distinct keys. -/
abbrev DashMap (κ : Type u) (ν : Type v) : Type (max u v) := Table (Prod.fst : κ × ν → κ)

namespace DashMap

variable {κ : Type u} {ν : Type v}

def new : DashMap κ ν := Table.empty

/-- The entries, in no particular order. -/
def iter (m : DashMap κ ν) : List (κ × ν) := m.rows

/-- What is kept of one entry. -/
private def keep (f : κ → ν → Option ν) (e : κ × ν) : Option (κ × ν) := (f e.1 e.2).map (Prod.mk e.1)

private theorem keys_keep (f : κ → ν → Option ν) (es : List (κ × ν)) :
    List.Sublist ((es.filterMap (keep f)).map Prod.fst) (es.map Prod.fst) := by
  induction es with
  | nil => exact List.Sublist.refl _
  | cons e es ih =>
    rw [List.filterMap_cons,List.map_cons]
    unfold keep
    cases f e.1 e.2 with
    | none => exact ih.cons _
    | some v => exact ih.cons_cons _

/-- Keep the entries for which `f` gives a value, under that value. -/
def retain (m : DashMap κ ν) (f : κ → ν → Option ν) : DashMap κ ν where
  rows := m.rows.filterMap (keep f)
  nodup := m.nodup.sublist (keys_keep f m.rows)

variable [DecidableEq κ]

def get (m : DashMap κ ν) (k : κ) : Option ν := (m.find? k).map Prod.snd

def containsKey (m : DashMap κ ν) (k : κ) : Bool := (m.get k).isSome

def insert (m : DashMap κ ν) (k : κ) (v : ν) : DashMap κ ν := m.insertOrReplace (k,v)

def remove (m : DashMap κ ν) (k : κ) : DashMap κ ν := m.deleteWhere (fun e => e.1 = k)

/-- Change the value under a key in place, if there is one. -/
def modify (m : DashMap κ ν) (k : κ) (f : ν → ν) : DashMap κ ν :=
  m.updateWhere (fun e => e.1 = k) (fun e => (e.1,f e.2)) (fun _ => rfl)

theorem get_eq_some {m : DashMap κ ν} {k : κ} {v : ν} : m.get k = some v ↔ (k,v) ∈ m.iter := by
  unfold get
  rw [Option.map_eq_some_iff]
  constructor
  · rintro ⟨⟨k',v'⟩,he,rfl⟩
    obtain ⟨hm,rfl⟩ := Table.find?_eq_some.mp he
    exact hm
  · intro h
    exact ⟨(k,v),Table.find?_eq_some.mpr ⟨h,rfl⟩,rfl⟩

@[simp] theorem get_new (k : κ) : (new : DashMap κ ν).get k = none := rfl

@[simp] theorem get_insert (m : DashMap κ ν) (k : κ) (v : ν) (k' : κ) :
    (m.insert k v).get k' = if k' = k then some v else m.get k' := by
  unfold get insert
  rw [Table.find?_insertOrReplace]
  by_cases h : k' = k <;> simp [h]

/-- A new key is added behind the others. -/
theorem iter_insert {m : DashMap κ ν} {k : κ} (h : m.get k = none) (v : ν) :
    (m.insert k v).iter = m.iter ++ [(k,v)] := by
  show m.rows.filter (fun e => decide (e.1 ≠ k)) ++ [(k,v)] = m.rows ++ [(k,v)]
  rw [List.filter_eq_self.mpr]
  rintro ⟨k',v'⟩ he
  refine decide_eq_true (fun hk => ?_)
  obtain rfl : k' = k := hk
  exact Option.some_ne_none v' ((get_eq_some.mpr he).symm.trans h)

@[simp] theorem get_remove (m : DashMap κ ν) (k k' : κ) :
    (m.remove k).get k' = if k' = k then none else m.get k' := by
  unfold get remove
  rw [Table.find?_deleteWhere]
  cases hf : m.find? k' with
  | none => simp
  | some e =>
    obtain ⟨-,rfl⟩ := Table.find?_eq_some.mp hf
    by_cases h : e.1 = k <;> simp [h,Option.filter]

@[simp] theorem get_modify (m : DashMap κ ν) (k : κ) (f : ν → ν) (k' : κ) :
    (m.modify k f).get k' = if k' = k then (m.get k').map f else m.get k' := by
  unfold get modify
  rw [Table.find?_updateWhere]
  cases hf : m.find? k' with
  | none => simp
  | some e =>
    obtain ⟨-,rfl⟩ := Table.find?_eq_some.mp hf
    by_cases h : e.1 = k <;> simp [h]

@[simp] theorem get_retain (m : DashMap κ ν) (f : κ → ν → Option ν) (k : κ) :
    (m.retain f).get k = (m.get k).bind (f k) := by
  refine Option.ext (fun v => ?_)
  rw [get_eq_some,Option.bind_eq_some_iff]
  constructor
  · intro h
    obtain ⟨⟨k',v'⟩,he,hk⟩ := List.mem_filterMap.mp h
    obtain ⟨v'',hf,hv⟩ := Option.map_eq_some_iff.mp hk
    obtain ⟨rfl,rfl⟩ := Prod.mk.inj hv
    exact ⟨v',get_eq_some.mpr he,hf⟩
  · rintro ⟨v',hg,hf⟩
    exact List.mem_filterMap.mpr ⟨(k,v'),get_eq_some.mp hg,by simp [keep,hf]⟩

end DashMap

end Rav
