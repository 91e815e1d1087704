import Mathlib.Data.List.Basic

/-!
# Readers-writer locks

A lock that any number of readers or one writer may hold, and a list of parties that hold it or not.
The lock fits the parties as long as each acquires only what the lock grants and releases what it
holds; then a writer is alone.

## Main definitions

- `RwLock`, `Hold` — the lock, and what a party holds of it
- `RwLock.Fits` — the lock counts the parties that hold it
- `RwLock.Fits.exclusive` — beside a writer nobody holds anything
-/

namespace Rav

/-- What a party holds of a lock. -/
inductive Hold
  | free
  | read
  | write
  deriving DecidableEq, Repr

/-- How many readers hold the lock, and whether a writer does. -/
structure RwLock where
  readers : Nat
  writer : Bool
  deriving DecidableEq, Repr

namespace RwLock

variable (l : RwLock)

def unlocked : RwLock := ⟨0,false⟩

def acquireRead : RwLock := { l with readers := l.readers + 1 }

def acquireWrite : RwLock := { l with writer := true }

def releaseRead : RwLock := { l with readers := l.readers - 1 }

def releaseWrite : RwLock := { l with writer := false }

/-- A reader may take the lock. -/
def GrantsRead : Prop := l.writer = false

/-- A writer may take the lock. -/
def GrantsWrite : Prop := l.writer = false ∧ l.readers = 0

instance : Decidable l.GrantsRead := inferInstanceAs (Decidable (_ = _))

instance : Decidable l.GrantsWrite := inferInstanceAs (Decidable (_ ∧ _))

/-- The lock counts the parties that hold it. -/
structure Fits (hs : List Hold) : Prop where
  readers : l.readers = hs.count .read
  writer : l.writer.toNat = hs.count .write
  alone : l.writer = true → l.readers = 0

variable {l} {hs : List Hold} {i j : Nat} {a b : Hold}

theorem fits_unlocked : unlocked.Fits [] := ⟨rfl,rfl,fun _ => rfl⟩

theorem count_set (hi : hs[i]? = some a) (c : Hold) :
    (hs.set i b).count c + (if a = c then 1 else 0) = hs.count c + if b = c then 1 else 0 := by
  obtain ⟨hlt,rfl⟩ := List.getElem?_eq_some_iff.mp hi
  have hle := List.boole_getElem_le_count (a := c) hlt
  simp only [beq_iff_eq] at hle
  rw [List.count_set hlt]
  simp only [beq_iff_eq]
  omega

namespace Fits

/-- Parties that hold nothing may come. -/
theorem join (h : l.Fits hs) : l.Fits (hs ++ [.free]) := by
  refine ⟨h.readers.trans ?_,h.writer.trans ?_,h.alone⟩
  · simp
  · simp

theorem same (h : l.Fits hs) (hi : hs[i]? = some a) : l.Fits (hs.set i a) := by
  obtain ⟨hlt,rfl⟩ := List.getElem?_eq_some_iff.mp hi
  rwa [List.set_getElem_self]

theorem acquireRead (h : l.Fits hs) (hi : hs[i]? = some .free) (hl : l.GrantsRead) :
    l.acquireRead.Fits (hs.set i .read) := by
  have hr := count_set (b := .read) hi .read
  have hw := count_set (b := .read) hi .write
  simp only [reduceCtorEq,if_false,if_true] at hr hw
  refine ⟨?_,?_,fun hwriter => ?_⟩
  · have := h.readers
    show l.readers + 1 = _
    omega
  · have := h.writer
    show l.writer.toNat = _
    omega
  · exact absurd (hl.symm.trans hwriter) nofun

theorem acquireWrite (h : l.Fits hs) (hi : hs[i]? = some .free) (hl : l.GrantsWrite) :
    l.acquireWrite.Fits (hs.set i .write) := by
  have hr := count_set (b := .write) hi .read
  have hw := count_set (b := .write) hi .write
  simp only [reduceCtorEq,if_false,if_true] at hr hw
  have hwriter := h.writer
  rw [hl.1] at hwriter
  refine ⟨?_,?_,fun _ => hl.2⟩
  · have := h.readers
    show l.readers = _
    omega
  · show 1 = _
    have : Bool.toNat false = 0 := rfl
    omega

theorem releaseRead (h : l.Fits hs) (hi : hs[i]? = some .read) :
    l.releaseRead.Fits (hs.set i .free) := by
  have hr := count_set (b := .free) hi .read
  have hw := count_set (b := .free) hi .write
  simp only [reduceCtorEq,if_false,if_true] at hr hw
  have hreaders := h.readers
  refine ⟨?_,?_,fun hwriter => ?_⟩
  · show l.readers - 1 = _
    omega
  · have := h.writer
    show l.writer.toNat = _
    omega
  · have hnone := h.alone hwriter
    show l.readers - 1 = 0
    omega

theorem releaseWrite (h : l.Fits hs) (hi : hs[i]? = some .write) :
    l.releaseWrite.Fits (hs.set i .free) := by
  have hr := count_set (b := .free) hi .read
  have hw := count_set (b := .free) hi .write
  simp only [reduceCtorEq,if_false,if_true] at hr hw
  have hle := Bool.toNat_le l.writer
  have hwriter := h.writer
  refine ⟨?_,?_,nofun⟩
  · have := h.readers
    show l.readers = _
    omega
  · show 0 = _
    omega

/-- A held lock is counted. -/
theorem read_pos (h : l.Fits hs) (hi : hs[i]? = some .read) : 0 < l.readers := by
  rw [h.readers]
  exact List.count_pos_iff.mpr (List.mem_of_getElem? hi)

theorem writer_eq (h : l.Fits hs) (hi : hs[i]? = some .write) : l.writer = true := by
  have hpos : 0 < hs.count .write := List.count_pos_iff.mpr (List.mem_of_getElem? hi)
  have hwriter := h.writer
  cases hl : l.writer with
  | true => rfl
  | false =>
    rw [hl] at hwriter
    have : Bool.toNat false = 0 := rfl
    omega

/-- Beside a reader nobody writes. -/
theorem not_write (h : l.Fits hs) (hi : hs[i]? = some .read) : hs[j]? ≠ some .write := by
  intro hj
  have hnone := h.alone (h.writer_eq hj)
  have hpos := h.read_pos hi
  omega

/-- Beside a writer nobody holds anything. -/
theorem exclusive (h : l.Fits hs) (hi : hs[i]? = some .write) (hj : hs[j]? = some a) (hne : i ≠ j) :
    a = .free := by
  cases a with
  | free => rfl
  | read => exact absurd hi (h.not_write hj)
  | write =>
    have hset := count_set (b := .free) hi .write
    have hpos : 0 < (hs.set i .free).count .write :=
      List.count_pos_iff.mpr (List.mem_of_getElem? ((List.getElem?_set_ne hne).trans hj))
    have hle := Bool.toNat_le l.writer
    have hwriter := h.writer
    simp only [reduceCtorEq,if_false,if_true] at hset
    omega

end Fits

end RwLock

end Rav
