import Mathlib.Data.Finset.Dedup
import Mathlib.Data.Finset.Erase
import Mathlib.Data.List.Sort
import Mathlib.Data.String.Basic

/-!
# Lists of names in one string

Names are joined with a separator character and split at it again. What a joined string
holds as a set of names depends neither on the order in which they were joined nor on
how often it was split, sorted and joined again.

## Main definitions

- `joinSep`, `splitSep` — write and read the string
- `sortSep` — split, sort and join again
- `fields` — the set of names the string holds
-/

namespace Rav

variable {c : Char} {s : String} {fs gs : List String}

/-- The names of `fs`, separated by `c`. -/
def joinSep (c : Char) (fs : List String) : String := (String.singleton c).intercalate fs

/-- The pieces of `s` between separators. -/
def splitSep (c : Char) (s : String) : List String := (s.toList.splitOn c).map String.ofList

/-- `s` with its pieces in ascending order. -/
def sortSep (c : Char) (s : String) : String := joinSep c ((splitSep c s).insertionSort (· ≤ ·))

/-- The names in `s`; an empty string holds none. -/
def fields (c : Char) (s : String) : Finset String := (splitSep c s).toFinset.erase ""

theorem splitSep_append (s t : String) :
    splitSep c (s ++ String.singleton c ++ t) = splitSep c s ++ splitSep c t := by
  simp only [splitSep,String.toList_append,String.toList_singleton,List.append_assoc,
    List.singleton_append]
  rw [List.splitOn_append_cons_self,List.map_append]

theorem splitSep_joinSep (h : fs ≠ []) : splitSep c (joinSep c fs) = fs.flatMap (splitSep c) := by
  induction fs with
  | nil => exact absurd rfl h
  | cons f fs ih =>
    cases fs with
    | nil => simp [joinSep]
    | cons g gs =>
      rw [joinSep,String.intercalate_cons_cons,splitSep_append,List.flatMap_cons]
      exact congrArg (splitSep c f ++ ·) (ih (by simp))

theorem splitSep_of_notMem (h : c ∉ s.toList) : splitSep c s = [s] := by
  simp [splitSep,List.splitOn_eq_singleton h]

private theorem notMem_of_mem_splitOn {l cs : List Char} (h : l ∈ cs.splitOn c) : c ∉ l := by
  induction cs generalizing l with
  | nil =>
    rw [List.splitOn_nil,List.mem_singleton] at h
    simp [h]
  | cons d ds ih =>
    rw [List.splitOn_cons_eq_if_modifyHead] at h
    by_cases hd : (d == c) = true
    · rw [if_pos hd] at h
      rcases List.mem_cons.mp h with rfl | h
      · simp
      · exact ih h
    · rw [if_neg hd] at h
      obtain ⟨p,ps,hp⟩ := List.exists_cons_of_ne_nil (List.splitOn_ne_nil c ds)
      rw [hp,List.modifyHead_cons] at h
      rcases List.mem_cons.mp h with rfl | h
      · have hc : c ∉ p := ih (by simp [hp])
        have hdc : ¬c = d := fun he => hd (beq_iff_eq.mpr he.symm)
        simp [hc,hdc]
      · exact ih (by simp [hp,h])

/-- A piece holds no separator. -/
theorem notMem_of_mem_splitSep {p : String} (h : p ∈ splitSep c s) : c ∉ p.toList := by
  obtain ⟨l,hl,rfl⟩ := List.mem_map.mp h
  rw [String.toList_ofList]
  exact notMem_of_mem_splitOn hl

theorem fields_joinSep : fields c (joinSep c fs) = (fs.flatMap (splitSep c)).toFinset.erase "" := by
  by_cases h : fs = []
  · subst h
    simp only [fields,joinSep,String.intercalate_nil,List.flatMap_nil]
    rfl
  · rw [fields,splitSep_joinSep h]

theorem fields_joinSep_of_perm (h : fs.Perm gs) :
    fields c (joinSep c fs) = fields c (joinSep c gs) := by
  rw [fields_joinSep,fields_joinSep,List.toFinset_eq_of_perm _ _ (h.flatMap_right _)]

theorem fields_joinSep_sort :
    fields c (joinSep c (fs.insertionSort (· ≤ ·))) = fields c (joinSep c fs) :=
  fields_joinSep_of_perm (List.perm_insertionSort _ fs)

/-- Sorting the pieces changes no name. -/
theorem fields_sortSep : fields c (sortSep c s) = fields c s := by
  rw [sortSep,fields_joinSep_sort,fields_joinSep,fields]
  have h : (splitSep c s).flatMap (splitSep c) = splitSep c s := by
    rw [List.flatMap_congr (fun p hp => splitSep_of_notMem (notMem_of_mem_splitSep hp))]
    exact List.flatMap_singleton' _
  rw [h]

/-- Names without separators are read back as they were written. -/
theorem fields_joinSep_of_notMem (h : ∀ f ∈ fs, c ∉ f.toList) :
    fields c (joinSep c fs) = fs.toFinset.erase "" := by
  rw [fields_joinSep,List.flatMap_congr (fun f hf => splitSep_of_notMem (h f hf))]
  simp

end Rav
