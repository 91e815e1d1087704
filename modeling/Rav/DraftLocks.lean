import Rav.DashMap
import Rav.Runs
import Rav.Threads

/-!
# `routes::drafts`, the locks

Requests for one draft take turns: a map holds a mutex for each draft that is being worked on, shared
by counted references. Looking up, waiting, working and cleaning up are separate steps, and other
requests come in between.

## Main definitions

- `DraftLocks`, `LockCall`, `DraftLocks.serve` — the map, the mutexes and what is done with them
- `withLock` — a closure under the lock of a draft
- `LockStage` — where a request stands
- `DraftLocks.Inv` — what holds between the map, the mutexes and the requests
- `withLock_serialized` — one closure at a time, and no entry left behind
-/

namespace Rav

/-- What an `Arc<AsyncMutex<()>>` points to: how many such pointers there are, and whether it is locked. -/
structure ArcMutex where
  strong : Nat
  locked : Bool
  deriving DecidableEq, Repr

/-- The map, and the mutexes ever made; a pointer is a place among them. -/
structure DraftLocks where
  locks : DashMap String Nat
  mutexes : List ArcMutex

/-- The steps of a request, those of its closure among them. -/
inductive LockCall (F : Type)
  | entry (key : String)
  | lock (mutex : Nat)
  | inner (c : F)
  | unlock (mutex : Nat)
  | drop (mutex : Nat)
  | removeIf (key : String)

def LockCall.Answer {F : Type} (R : F → Type) : LockCall F → Type
  | .entry _ => Nat
  | .inner c => R c
  | _ => Unit

namespace DraftLocks

def new : DraftLocks := ⟨DashMap.new,[]⟩

/-- The pointer under a key, cloned; a new mutex if there is none. -/
def entry (w : DraftLocks) (key : String) : Nat × DraftLocks :=
  match w.locks.get key with
  | some m => (m,{ w with mutexes := w.mutexes.modify m (fun a => { a with strong := a.strong + 1 }) })
  | none => (w.mutexes.length,
      ⟨w.locks.insert key w.mutexes.length,w.mutexes ++ [⟨2,false⟩]⟩)

def setLocked (w : DraftLocks) (m : Nat) (b : Bool) : DraftLocks :=
  { w with mutexes := w.mutexes.modify m (fun a => { a with locked := b }) }

/-- One pointer less. -/
def drop (w : DraftLocks) (m : Nat) : DraftLocks :=
  { w with mutexes := w.mutexes.modify m (fun a => { a with strong := a.strong - 1 }) }

/-- Remove the entry unless there are pointers beside that of the map. -/
def removeIf (w : DraftLocks) (key : String) : DraftLocks :=
  match w.locks.get key with
  | some m =>
    if (w.mutexes[m]?).any (fun a => a.strong ≤ 1) then
      { w.drop m with locks := w.locks.remove key }
    else w
  | none => w

/-- Answer one call; the closures have a state of their own. -/
def serve {F σ : Type} {R : F → Type} (h : (c : F) → σ → R c × σ) :
    (c : LockCall F) → DraftLocks × σ → c.Answer R × (DraftLocks × σ)
  | .entry key, s => ((s.1.entry key).1,(s.1.entry key).2,s.2)
  | .lock m, s => ((),s.1.setLocked m true,s.2)
  | .inner c, s => ((h c s.2).1,s.1,(h c s.2).2)
  | .unlock m, s => ((),s.1.setLocked m false,s.2)
  | .drop m, s => ((),s.1.drop m,s.2)
  | .removeIf key, s => ((),s.1.removeIf key,s.2)

/-- Whoever locks a locked mutex waits. -/
def ready {F : Type} (w : DraftLocks) : LockCall F → Bool
  | .lock m => !(w.mutexes[m]?).any ArcMutex.locked
  | _ => true

end DraftLocks

variable {F σ α : Type} {R : F → Type}

abbrev LockTask (R : F → Type) (α : Type) := Prog (LockCall F) (LockCall.Answer R) α

def lockCall (c : LockCall F) : LockTask R (c.Answer R) := Prog.perform (R := LockCall.Answer R) c

/-- The closure as part of a request. -/
def closure : Prog F R α → LockTask R α
  | .pure a => .pure a
  | .call c k => .call (.inner c) (fun r => closure (k r))

/-- Run a closure while no other request for the draft runs one. -/
def withLock (userHash uuid : String) (f : Prog F R α) : LockTask R α := do
  let key := userHash ++ ":" ++ uuid
  let mutex : Nat ← lockCall (.entry key)
  lockCall (.lock mutex)
  let result ← closure f
  lockCall (.unlock mutex)
  lockCall (.drop mutex)
  lockCall (.removeIf key)
  pure result

/-! ### Where a request stands -/

/-- Before the lookup; waiting for the mutex; running the closure; before the pointer is dropped; before
the entry is removed; done. -/
inductive LockStage
  | entering
  | waiting (mutex : Nat)
  | running (mutex : Nat)
  | leaving (mutex : Nat)
  | cleaning
  | returned
  deriving DecidableEq, Repr

namespace LockStage

/-- The mutex the request has a pointer to. -/
def holds : LockStage → Option Nat
  | .waiting m => some m
  | .running m => some m
  | .leaving m => some m
  | _ => none

/-- The request has looked the key up and will still clean up. -/
def Pending : LockStage → Prop
  | .entering => False
  | .returned => False
  | _ => True

/-- The call the protocol allows. -/
def ok (g : String × LockStage) : LockCall F → Prop
  | .entry key => g = (key,.entering)
  | .lock m => g.2 = .waiting m
  | .inner _ => ∃ m, g.2 = .running m
  | .unlock m => g.2 = .running m
  | .drop m => g.2 = .leaving m
  | .removeIf key => g = (key,.cleaning)

def next (g : String × LockStage) : (c : LockCall F) → c.Answer R → String × LockStage
  | .entry _, (m : Nat) => (g.1,.waiting m)
  | .lock m, _ => (g.1,.running m)
  | .inner _, _ => g
  | .unlock m, _ => (g.1,.leaving m)
  | .drop _, _ => (g.1,.cleaning)
  | .removeIf _, _ => (g.1,.returned)

end LockStage

abbrev LockState (R : F → Type) (σ α : Type) :=
  Threads (String × LockStage) (DraftLocks × σ) (LockCall F) (LockCall.Answer R) α

/-- A request comes in, or one goes on. -/
inductive LockEvent (R : F → Type) (α : Type)
  | withLock (userHash uuid : String) (f : Prog F R α)
  | turn (i : Nat)

namespace LockState

def opening (s : σ) : LockState R σ α := ⟨(DraftLocks.new,s),[]⟩

def step (h : (c : F) → σ → R c × σ) (s : LockState R σ α) : LockEvent R α → Option (LockState R σ α)
  | .withLock userHash uuid f =>
    some ⟨s.world,s.tasks ++ [((userHash ++ ":" ++ uuid,.entering),Rav.withLock userHash uuid f)]⟩
  | .turn i =>
    if (s.upcoming i).all (fun u => s.world.1.ready u.2) then
      s.call (DraftLocks.serve h) LockStage.next i
    else none

/-- The `i`-th request runs its closure, under a key. -/
def Runs (s : LockState R σ α) (i : Nat) (key : String) : Prop :=
  ∃ m p, s.tasks[i]? = some ((key,.running m),p)

end LockState

theorem withLock_follows (userHash uuid : String) (f : Prog F R α) :
    (withLock userHash uuid f).Follows LockStage.ok LockStage.next (fun g _ => g.2 = .returned)
      (userHash ++ ":" ++ uuid,.entering) := by
  refine Prog.Follows.perform_bind rfl (fun m => Prog.Follows.perform_bind rfl (fun _ => ?_))
  have hclosure : (closure f).Follows (LockStage.ok (F := F)) LockStage.next
      (fun g _ => g = (userHash ++ ":" ++ uuid,.running m)) (userHash ++ ":" ++ uuid,.running m) := by
    induction f with
    | pure a => rfl
    | call c k ih => exact ⟨⟨m,rfl⟩,fun r => ih r⟩
  refine hclosure.bind (fun g a hg => ?_)
  subst hg
  refine Prog.Follows.perform_bind rfl (fun _ => Prog.Follows.perform_bind rfl (fun _ => ?_))
  exact Prog.Follows.perform_bind rfl (fun _ => rfl)

/-! ### The map, the mutexes and the requests -/

/-- How many requests have a pointer to a mutex. -/
def holders (gs : List (String × LockStage)) (m : Nat) : Nat :=
  gs.countP (fun g => decide (g.2.holds = some m))

/-- A request with a pointer finds it in the map; the map's mutexes are counted right and belong to one
key each; each entry has a request that will clean up; and who runs has its mutex locked, alone. -/
structure DraftLocks.Inv (w : DraftLocks) (gs : List (String × LockStage)) : Prop where
  held : ∀ g ∈ gs, ∀ m, g.2.holds = some m → w.locks.get g.1 = some m
  counted : ∀ k m, w.locks.get k = some m →
    ∃ a, w.mutexes[m]? = some a ∧ a.strong = 1 + holders gs m
  apart : ∀ k k' m, w.locks.get k = some m → w.locks.get k' = some m → k = k'
  pending : ∀ k m, w.locks.get k = some m → ∃ g ∈ gs, g.1 = k ∧ g.2.Pending
  alone : ∀ (i j : Nat) (k k' : String) (m : Nat), gs[i]? = some (k,.running m) →
    gs[j]? = some (k',.running m) → i = j
  locked : ∀ g ∈ gs, ∀ m, g.2 = .running m → (w.mutexes[m]?).any ArcMutex.locked = true

namespace LockStage

theorem pending_of_holds {g : LockStage} {m : Nat} (h : g.holds = some m) : g.Pending := by
  cases g with
  | entering => exact absurd h (by simp [holds])
  | returned => exact absurd h (by simp [holds])
  | _ => trivial

end LockStage

section Holders

variable {gs : List (String × LockStage)} {i m : Nat} {g g' : String × LockStage}

theorem holders_set (g' : String × LockStage) (hi : gs[i]? = some g) : holders (gs.set i g') m +
    (if g.2.holds = some m then 1 else 0) = holders gs m + if g'.2.holds = some m then 1 else 0 := by
  simpa only [holders,decide_eq_true_eq] using countP_set_add (fun g => decide (g.2.holds = some m)) hi

theorem holders_set_same (hi : gs[i]? = some g) (h : g'.2.holds = g.2.holds) :
    holders (gs.set i g') m = holders gs m := by
  have hset := holders_set (m := m) g' hi
  rw [h] at hset
  omega

theorem holders_pos : 0 < holders gs m ↔ ∃ g ∈ gs, g.2.holds = some m := by
  unfold holders
  rw [List.countP_pos_iff]
  simp only [decide_eq_true_eq]

end Holders

namespace DraftLocks.Inv

variable {w : DraftLocks} {gs : List (String × LockStage)} {i m : Nat} {key : String}

theorem new : DraftLocks.new.Inv [] := by
  refine ⟨?_,?_,?_,?_,?_,?_⟩
  · intro g hg
    simp at hg
  · intro k m h
    simp [DraftLocks.new] at h
  · intro k k' m h
    simp [DraftLocks.new] at h
  · intro k m h
    simp [DraftLocks.new] at h
  · intro i j k k' m h
    simp at h
  · intro g hg
    simp at hg

/-- A request comes in. -/
theorem join (h : w.Inv gs) (key : String) : w.Inv (gs ++ [(key,.entering)]) := by
  have hmem : ∀ g ∈ gs ++ [(key,LockStage.entering)], g ∈ gs ∨ g = (key,.entering) := by
    intro g hg
    rcases List.mem_append.mp hg with hg | hg
    · exact Or.inl hg
    · exact Or.inr (List.mem_singleton.mp hg)
  have hrun : ∀ (j : Nat) (k : String) (m : Nat),
      (gs ++ [(key,LockStage.entering)])[j]? = some (k,.running m) →
      gs[j]? = some (k,.running m) := by
    intro j k m hj
    by_cases hlt : j < gs.length
    · rwa [List.getElem?_append_left hlt] at hj
    · have hnew := List.mem_of_getElem? hj
      rw [List.getElem?_append_right (Nat.not_lt.mp hlt)] at hj
      have hlast := List.mem_singleton.mp (List.mem_of_getElem? hj)
      simp at hlast
  refine ⟨?_,?_,h.apart,?_,fun i j k k' m hi hj => h.alone i j k k' m (hrun i k m hi) (hrun j k' m hj),?_⟩
  · intro g hg m hm
    rcases hmem g hg with hg | rfl
    · exact h.held g hg m hm
    · simp [LockStage.holds] at hm
  · intro k m hk
    obtain ⟨a,ha,hs⟩ := h.counted k m hk
    refine ⟨a,ha,hs.trans ?_⟩
    simp [holders,LockStage.holds]
  · intro k m hk
    obtain ⟨g,hg,hp⟩ := h.pending k m hk
    exact ⟨g,List.mem_append_left _ hg,hp⟩
  · intro g hg m hm
    rcases hmem g hg with hg | rfl
    · exact h.locked g hg m hm
    · simp at hm

/-- What is left to show where a request moves on and the map stays. -/
theorem advance {g g' : String × LockStage} {w' : DraftLocks} (h : w.Inv gs)
    (hi : gs[i]? = some g) (hkey : g'.1 = g.1) (hmap : w'.locks = w.locks)
    (hheld : ∀ m, g'.2.holds = some m → w.locks.get g.1 = some m)
    (hcounted : ∀ k m a, w.locks.get k = some m → w.mutexes[m]? = some a →
      a.strong = 1 + holders gs m →
        ∃ a', w'.mutexes[m]? = some a' ∧ a'.strong = 1 + holders (gs.set i g') m)
    (hpending : g.2.Pending → g'.2.Pending)
    (halone : ∀ m, g'.2 = .running m → ∀ g ∈ gs, g.2 ≠ .running m)
    (hlocked : ∀ m, (g'.2 = .running m ∨ ∃ j k, i ≠ j ∧ gs[j]? = some (k,.running m)) →
      (w'.mutexes[m]?).any ArcMutex.locked = true) : w'.Inv (gs.set i g') := by
  refine ⟨?_,?_,?_,?_,?_,?_⟩
  · intro u hu m hm
    rw [hmap]
    rcases mem_set_cases hu with rfl | ⟨j,-,hj⟩
    · rw [hkey]
      exact hheld m hm
    · exact h.held u (List.mem_of_getElem? hj) m hm
  · intro k m hk
    rw [hmap] at hk
    obtain ⟨a,ha,hs⟩ := h.counted k m hk
    exact hcounted k m a hk ha hs
  · rw [hmap]
    exact h.apart
  · intro k m hk
    rw [hmap] at hk
    refine exists_mem_set hi ?_ (h.pending k m hk)
    rintro ⟨rfl,hp⟩
    exact ⟨hkey,hpending hp⟩
  · intro j l k k' m hj hl
    rcases getElem?_of_set hj with ⟨rfl,he⟩ | ⟨hij,hj⟩
    · rcases getElem?_of_set hl with ⟨rfl,-⟩ | ⟨-,hl⟩
      · rfl
      · exact absurd rfl (halone m (congrArg Prod.snd he).symm _ (List.mem_of_getElem? hl))
    · rcases getElem?_of_set hl with ⟨rfl,he⟩ | ⟨-,hl⟩
      · exact absurd rfl (halone m (congrArg Prod.snd he).symm _ (List.mem_of_getElem? hj))
      · exact h.alone j l k k' m hj hl
  · intro u hu m hm
    rcases mem_set_cases hu with rfl | ⟨j,hij,hj⟩
    · exact hlocked m (Or.inl hm)
    · exact hlocked m (Or.inr ⟨j,u.1,hij,hj.trans (congrArg some (Prod.ext rfl hm))⟩)

theorem getElem?_modify_self {a : ArcMutex} (f : ArcMutex → ArcMutex) (h : w.mutexes[m]? = some a) :
    (w.mutexes.modify m f)[m]? = some (f a) := by
  simp [h]

theorem getElem?_modify_of_ne {m' : Nat} (f : ArcMutex → ArcMutex) (h : m ≠ m') :
    (w.mutexes.modify m f)[m']? = w.mutexes[m']? := by
  simp [h]

/-- Counting leaves the locks alone. -/
theorem any_locked_modify (f : ArcMutex → ArcMutex) (hf : ∀ a, (f a).locked = a.locked) (m' : Nat) :
    ((w.mutexes.modify m f)[m']?).any ArcMutex.locked = (w.mutexes[m']?).any ArcMutex.locked := by
  by_cases he : m = m'
  · subst he
    cases ha : w.mutexes[m]? with
    | none => simp [ha]
    | some a =>
      rw [getElem?_modify_self f ha]
      exact hf a
  · rw [getElem?_modify_of_ne f he]

/-- The pointers are still counted where the counter of a mutex moves with those who hold it. -/
theorem counted_modify {g : String × LockStage} (g' : String × LockStage) {f : ArcMutex → ArcMutex}
    (hi : gs[i]? = some g) (hother : ∀ m', m ≠ m' → (g.2.holds = some m' ↔ g'.2.holds = some m'))
    (hf : ∀ a, 0 < a.strong → (f a).strong + (if g.2.holds = some m then 1 else 0) =
      a.strong + if g'.2.holds = some m then 1 else 0)
    {m' : Nat} {a : ArcMutex} (ha : w.mutexes[m']? = some a) (hs : a.strong = 1 + holders gs m') :
    ∃ a', (w.mutexes.modify m f)[m']? = some a' ∧ a'.strong = 1 + holders (gs.set i g') m' := by
  have hset := holders_set (m := m') g' hi
  by_cases he : m = m'
  · subst he
    have hstrong := hf a (by omega)
    exact ⟨f a,getElem?_modify_self f ha,by omega⟩
  · simp only [hother m' he] at hset
    exact ⟨a,(getElem?_modify_of_ne f he).trans ha,by omega⟩

/-- A request whose key is in the map gets the pointer there. -/
theorem enter (h : w.Inv gs) (hi : gs[i]? = some (key,.entering)) (hm : w.locks.get key = some m) :
    ({ w with mutexes := w.mutexes.modify m (fun a => { a with strong := a.strong + 1 }) } :
      DraftLocks).Inv (gs.set i (key,.waiting m)) := by
  refine h.advance hi rfl rfl ?_ ?_ (fun hp => hp.elim) nofun ?_
  · rintro m' hm'
    obtain rfl : m = m' := Option.some.inj hm'
    exact hm
  · intro k m' a _ ha hs
    refine counted_modify (key,.waiting m) hi (fun m' he => ?_) (fun a _ => ?_) ha hs
    · simp [LockStage.holds,he]
    · simp [LockStage.holds]
  · rintro m' (hrun | ⟨j,k,-,hj⟩)
    · simp at hrun
    · rw [any_locked_modify]
      · exact h.locked _ (List.mem_of_getElem? hj) m' rfl
      · exact fun a => rfl

/-- A request whose key is not in the map puts a new mutex there. -/
theorem insert (h : w.Inv gs) (hi : gs[i]? = some (key,.entering)) (hm : w.locks.get key = none) :
    (⟨w.locks.insert key w.mutexes.length,w.mutexes ++ [⟨2,false⟩]⟩ :
      DraftLocks).Inv (gs.set i (key,.waiting w.mutexes.length)) := by
  have hlt : ∀ k m, w.locks.get k = some m → m < w.mutexes.length := by
    intro k m hk
    obtain ⟨a,ha,-⟩ := h.counted k m hk
    exact (List.getElem?_eq_some_iff.mp ha).1
  have hne : ∀ {k m}, w.locks.get k = some m → k ≠ key := by
    rintro k m hk rfl
    rw [hm] at hk
    simp at hk
  have hfresh : holders gs w.mutexes.length = 0 := by
    refine Nat.eq_zero_of_not_pos (fun hpos => ?_)
    obtain ⟨g,hg,hh⟩ := holders_pos.mp hpos
    exact Nat.lt_irrefl _ (hlt _ _ (h.held g hg _ hh))
  refine ⟨?_,?_,?_,?_,?_,?_⟩
  · intro u hu m hum
    rw [DashMap.get_insert]
    rcases mem_set_cases hu with rfl | ⟨j,-,hj⟩
    · rw [if_pos rfl]
      exact hum
    · have hget := h.held u (List.mem_of_getElem? hj) m hum
      rw [if_neg (hne hget)]
      exact hget
  · intro k m hk
    rw [DashMap.get_insert] at hk
    have hset := holders_set (m := m) (key,.waiting w.mutexes.length) hi
    dsimp only [LockStage.holds] at hset
    split at hk
    · obtain rfl : w.mutexes.length = m := Option.some.inj hk
      refine ⟨⟨2,false⟩,by simp,?_⟩
      simp only [if_true,reduceCtorEq,if_false] at hset
      dsimp only
      omega
    · have hm := hlt k m hk
      obtain ⟨a,ha,hs⟩ := h.counted k m hk
      refine ⟨a,(List.getElem?_append_left hm).trans ha,?_⟩
      simp only [Option.some.injEq,Nat.ne_of_gt hm,reduceCtorEq,if_false] at hset
      omega
  · intro k k' m hk hk'
    rw [DashMap.get_insert] at hk hk'
    split at hk
    · next he =>
      obtain rfl : w.mutexes.length = m := Option.some.inj hk
      split at hk'
      · next he' => exact he.trans he'.symm
      · exact absurd (hlt k' _ hk') (Nat.lt_irrefl _)
    · split at hk'
      · obtain rfl : w.mutexes.length = m := Option.some.inj hk'
        exact absurd (hlt k _ hk) (Nat.lt_irrefl _)
      · exact h.apart k k' m hk hk'
  · intro k m hk
    rw [DashMap.get_insert] at hk
    split at hk
    · next he => exact ⟨_,mem_set_new hi,he.symm,trivial⟩
    · exact exists_mem_set hi (fun hp => hp.2.elim) (h.pending k m hk)
  · intro j l k k' m hj hl
    rcases getElem?_of_set hj with ⟨rfl,he⟩ | ⟨-,hj⟩
    · simp at he
    · rcases getElem?_of_set hl with ⟨rfl,he⟩ | ⟨-,hl⟩
      · simp at he
      · exact h.alone j l k k' m hj hl
  · intro u hu m hum
    rcases mem_set_cases hu with rfl | ⟨j,-,hj⟩
    · simp at hum
    · have hmem := List.mem_of_getElem? hj
      have hget := h.held u hmem m (by rw [hum]; rfl)
      dsimp only
      rw [List.getElem?_append_left (hlt _ _ hget)]
      exact h.locked u hmem m hum

theorem entry (h : w.Inv gs) (hi : gs[i]? = some (key,.entering)) :
    (w.entry key).2.Inv (gs.set i (key,.waiting (w.entry key).1)) := by
  unfold DraftLocks.entry
  cases hm : w.locks.get key with
  | some m => exact h.enter hi hm
  | none => exact h.insert hi hm

/-- A request gets the mutex nobody has locked. -/
theorem lock (h : w.Inv gs) (hi : gs[i]? = some (key,.waiting m))
    (hfree : (w.mutexes[m]?).any ArcMutex.locked = false) :
    (w.setLocked m true).Inv (gs.set i (key,.running m)) := by
  have hget := h.held _ (List.mem_of_getElem? hi) m rfl
  refine h.advance hi rfl rfl ?_ ?_ id ?_ ?_
  · rintro m' hm'
    obtain rfl : m = m' := Option.some.inj hm'
    exact hget
  · intro k m' a _ ha hs
    exact counted_modify (f := fun a => { a with locked := true }) (key,.running m) hi (fun _ _ => Iff.rfl)
      (fun _ _ => rfl) ha hs
  · intro m' hm' g hg hrun
    obtain rfl : m = m' := by simpa using hm'
    rw [h.locked g hg m hrun] at hfree
    simp at hfree
  · intro m' hrun
    obtain ⟨a,ha,-⟩ := h.counted key m hget
    by_cases he : m = m'
    · subst he
      rw [setLocked,getElem?_modify_self _ ha]
      rfl
    · rw [setLocked,getElem?_modify_of_ne _ he]
      rcases hrun with hrun | ⟨j,k,-,hj⟩
      · exact absurd (by simpa using hrun) he
      · exact h.locked _ (List.mem_of_getElem? hj) m' rfl

theorem unlock (h : w.Inv gs) (hi : gs[i]? = some (key,.running m)) :
    (w.setLocked m false).Inv (gs.set i (key,.leaving m)) := by
  have hget := h.held _ (List.mem_of_getElem? hi) m rfl
  refine h.advance hi rfl rfl ?_ ?_ id nofun ?_
  · rintro m' hm'
    obtain rfl : m = m' := Option.some.inj hm'
    exact hget
  · intro k m' a _ ha hs
    exact counted_modify (f := fun a => { a with locked := false }) (key,.leaving m) hi (fun _ _ => Iff.rfl)
      (fun _ _ => rfl) ha hs
  · rintro m' (hrun | ⟨j,k,hij,hj⟩)
    · simp at hrun
    · have he : m ≠ m' := by
        rintro rfl
        exact hij (h.alone i j key k m hi hj)
      rw [setLocked,getElem?_modify_of_ne _ he]
      exact h.locked _ (List.mem_of_getElem? hj) m' rfl

theorem drop (h : w.Inv gs) (hi : gs[i]? = some (key,.leaving m)) :
    (w.drop m).Inv (gs.set i (key,.cleaning)) := by
  refine h.advance hi rfl rfl nofun ?_ id nofun ?_
  · intro k m' a _ ha hs
    refine counted_modify (key,.cleaning) hi (fun m' he => ?_) (fun a hpos => ?_) ha hs
    · simp [LockStage.holds,he]
    · simp only [LockStage.holds,if_true,reduceCtorEq,if_false]
      omega
  · rintro m' (hrun | ⟨j,k,-,hj⟩)
    · simp at hrun
    · unfold DraftLocks.drop
      rw [any_locked_modify]
      · exact h.locked _ (List.mem_of_getElem? hj) m' rfl
      · exact fun a => rfl

/-- An entry with no pointers beside that of the map goes; another request cleans up after the others. -/
theorem removeIf (h : w.Inv gs) (hi : gs[i]? = some (key,.cleaning)) :
    (w.removeIf key).Inv (gs.set i (key,.returned)) := by
  have hrest : ∀ j (u : String × LockStage), i ≠ j → gs[j]? = some u → u ∈ gs.set i (key,.returned) := by
    intro j u hij hj
    exact List.mem_of_getElem? ((List.getElem?_set_ne hij).trans hj)
  have halone : ∀ (j l : Nat) (k k' : String) (m : Nat),
      (gs.set i (key,.returned))[j]? = some (k,.running m) →
      (gs.set i (key,.returned))[l]? = some (k',.running m) → j = l := by
    intro j l k k' m hj hl
    rcases getElem?_of_set hj with ⟨rfl,he⟩ | ⟨-,hj⟩
    · simp at he
    · rcases getElem?_of_set hl with ⟨rfl,he⟩ | ⟨-,hl⟩
      · simp at he
      · exact h.alone j l k k' m hj hl
  -- an entry another request will clean up
  have hother : ∀ k m, w.locks.get k = some m → (k = key → ∃ g ∈ gs, g.2.holds = some m) →
      ∃ g ∈ gs.set i (key,LockStage.returned), g.1 = k ∧ g.2.Pending := by
    intro k m hk hheld
    by_cases he : k = key
    · obtain ⟨g,hg,hm⟩ := hheld he
      obtain ⟨j,hj⟩ := List.mem_iff_getElem?.mp hg
      refine ⟨g,hrest j g ?_ hj,h.apart _ _ m (h.held g hg m hm) hk,LockStage.pending_of_holds hm⟩
      rintro rfl
      obtain rfl : (key,.cleaning) = g := Option.some.inj (hi.symm.trans hj)
      simp [LockStage.holds] at hm
    · obtain ⟨g,hg,hgk,hp⟩ := h.pending k m hk
      obtain ⟨j,hj⟩ := List.mem_iff_getElem?.mp hg
      refine ⟨g,hrest j g ?_ hj,hgk,hp⟩
      rintro rfl
      obtain rfl : (key,.cleaning) = g := Option.some.inj (hi.symm.trans hj)
      exact he hgk.symm
  have hold : ∀ u ∈ gs.set i (key,LockStage.returned), ∀ m, u.2.holds = some m → u ∈ gs := by
    intro u hu m hm
    rcases mem_set_cases hu with rfl | ⟨j,-,hj⟩
    · simp [LockStage.holds] at hm
    · exact List.mem_of_getElem? hj
  have hcount : ∀ m, holders (gs.set i (key,LockStage.returned)) m = holders gs m :=
    fun m => holders_set_same hi rfl
  have hstay : (∀ m, w.locks.get key = some m → ∃ g ∈ gs, g.2.holds = some m) →
      w.Inv (gs.set i (key,.returned)) := by
    intro hheld
    refine ⟨?_,?_,h.apart,?_,halone,?_⟩
    · exact fun u hu m hm => h.held u (hold u hu m hm) m hm
    · intro k m hk
      rw [hcount]
      exact h.counted k m hk
    · exact fun k m hk => hother k m hk (fun he => hheld m (he ▸ hk))
    · exact fun u hu m hm => h.locked u (hold u hu m (by rw [hm]; rfl)) m hm
  unfold DraftLocks.removeIf
  cases hm : w.locks.get key with
  | none => exact hstay (fun m hk => absurd (hm.symm.trans hk) (by simp))
  | some m =>
    obtain ⟨a,ha,hs⟩ := h.counted key m hm
    dsimp only
    rw [ha,Option.any_some]
    split
    · next hle =>
      rw [decide_eq_true_iff] at hle
      have hnone : ¬∃ g ∈ gs, g.2.holds = some m := by
        rw [← holders_pos]
        omega
      have hget : ∀ k m', (w.locks.remove key).get k = some m' → k ≠ key ∧ w.locks.get k = some m' := by
        intro k m' hk
        rw [DashMap.get_remove] at hk
        split at hk
        · simp at hk
        · next he => exact ⟨he,hk⟩
      refine ⟨?_,?_,?_,?_,halone,?_⟩
      · intro u hu m' hm'
        have hg := h.held u (hold u hu m' hm') m' hm'
        dsimp only
        rw [DashMap.get_remove,if_neg]
        · exact hg
        · intro he
          rw [he] at hg
          obtain rfl : m = m' := Option.some.inj (hm.symm.trans hg)
          exact hnone ⟨u,hold u hu m hm',hm'⟩
      · intro k m' hk
        obtain ⟨hne,hk⟩ := hget k m' hk
        obtain ⟨b,hb,hbs⟩ := h.counted k m' hk
        rw [hcount]
        refine ⟨b,(getElem?_modify_of_ne _ ?_).trans hb,hbs⟩
        rintro rfl
        exact hne (h.apart k key m hk hm)
      · exact fun k k' m' hk hk' => h.apart k k' m' (hget k m' hk).2 (hget k' m' hk').2
      · exact fun k m' hk => hother k m' (hget k m' hk).2 (fun he => absurd he (hget k m' hk).1)
      · intro u hu m' hm'
        have hlocked := h.locked u (hold u hu m' (by rw [hm']; rfl)) m' hm'
        refine Eq.trans ?_ hlocked
        exact any_locked_modify (fun a => { a with strong := a.strong - 1 }) (fun a => rfl) m'
    · next hgt =>
      rw [decide_eq_true_iff] at hgt
      refine hstay (fun m' hk => ?_)
      obtain rfl : m = m' := Option.some.inj (hm.symm.trans hk)
      exact holders_pos.mp (by omega)

/-- One call of one request. -/
theorem serve (h : w.Inv gs) {g : String × LockStage} {c : LockCall F} {s : σ}
    {k : (c : F) → σ → R c × σ} (hi : gs[i]? = some g) (hok : LockStage.ok g c)
    (hready : w.ready c = true) :
    (DraftLocks.serve k c (w,s)).2.1.Inv
      (gs.set i (LockStage.next g c (DraftLocks.serve k c (w,s)).1)) := by
  obtain ⟨key,stage⟩ := g
  cases c with
  | entry key' =>
    obtain ⟨rfl,rfl⟩ := Prod.mk.inj hok
    exact h.entry hi
  | lock m =>
    obtain rfl : stage = .waiting m := hok
    exact h.lock hi (by simpa [DraftLocks.ready] using hready)
  | inner c =>
    have hsame : gs.set i (key,stage) = gs := by
      obtain ⟨hlt,he⟩ := List.getElem?_eq_some_iff.mp hi
      rw [← he]
      exact List.set_getElem_self hlt
    show w.Inv (gs.set i (key,stage))
    rw [hsame]
    exact h
  | unlock m =>
    obtain rfl : stage = .running m := hok
    exact h.unlock hi
  | drop m =>
    obtain rfl : stage = .leaving m := hok
    exact h.drop hi
  | removeIf key' =>
    obtain ⟨rfl,rfl⟩ := Prod.mk.inj hok
    exact h.removeIf hi

end DraftLocks.Inv

/-! ### Runs -/

namespace LockState

/-- The requests keep to the protocol, and the invariant holds for where they stand. -/
structure Inv (s : LockState R σ α) : Prop where
  keep : s.Keep LockStage.ok LockStage.next (fun g _ => g.2 = .returned)
  locks : s.world.1.Inv (s.tasks.map Prod.fst)

variable {h : (c : F) → σ → R c × σ} {s s' : LockState R σ α}

theorem inv_opening (x : σ) : (opening x : LockState R σ α).Inv :=
  ⟨fun _ ht => absurd ht List.not_mem_nil,DraftLocks.Inv.new⟩

theorem inv_step (hs : s.Inv) (e : LockEvent R α) (he : s.step h e = some s') : s'.Inv := by
  cases e with
  | withLock userHash uuid f =>
    obtain rfl := Option.some.inj he
    refine ⟨hs.keep.start (withLock_follows userHash uuid f),?_⟩
    rw [List.map_append]
    exact hs.locks.join _
  | turn i =>
    simp only [step] at he
    split at he
    · next hready =>
      obtain ⟨g,c,k,ht,rfl⟩ := Threads.call_eq_some.mp he
      rw [Threads.upcoming_eq ht,Option.all_some] at hready
      have hi : (s.tasks.map Prod.fst)[i]? = some g := by rw [List.getElem?_map,ht]; rfl
      refine ⟨hs.keep.call ht,?_⟩
      rw [List.map_set]
      exact hs.locks.serve hi (hs.keep.allowed ht) hready
    · simp at he

theorem inv_of_run {x : σ} {es : List (LockEvent R α)}
    (hrun : Run (step h) (fun _ _ => True) (opening x) es s) : s.Inv :=
  hrun.invariant (inv_opening x) (fun _ e _ hs _ he => inv_step hs e he)

end LockState

/-- However the requests interleave: closures only run where the request holds the lock of its draft; no
two closures run under one key; and when no request is left the map is empty. -/
theorem withLock_serialized {h : (c : F) → σ → R c × σ} {x : σ} {es : List (LockEvent R α)}
    {s : LockState R σ α}
    (hrun : Run (LockState.step h) (fun _ _ => True) (LockState.opening x) es s) :
    (∀ i g c, s.upcoming i = some (g,.inner c) → s.Runs i g.1) ∧
      (∀ i j key, s.Runs i key → s.Runs j key → i = j) ∧
      ((∀ t ∈ s.tasks, Threads.unfinished t = false) → s.world.1.locks.iter = []) := by
  have hinv := LockState.inv_of_run hrun
  refine ⟨?_,?_,?_⟩
  · intro i g c hup
    unfold Threads.upcoming at hup
    split at hup
    · next g' e k ht =>
      obtain ⟨rfl,rfl⟩ := Prod.mk.inj (Option.some.inj hup)
      obtain ⟨m,hm⟩ := hinv.keep.allowed ht
      exact ⟨m,_,ht.trans (congrArg some (Prod.ext (Prod.ext rfl hm) rfl))⟩
    · simp at hup
  · rintro i j key ⟨m,p,hi⟩ ⟨m',p',hj⟩
    have hi' : (s.tasks.map Prod.fst)[i]? = some (key,.running m) := by
      rw [List.getElem?_map,hi]
      rfl
    have hj' : (s.tasks.map Prod.fst)[j]? = some (key,.running m') := by
      rw [List.getElem?_map,hj]
      rfl
    have hm := hinv.locks.held _ (List.mem_of_getElem? hi') m rfl
    have hm' := hinv.locks.held _ (List.mem_of_getElem? hj') m' rfl
    obtain rfl : m = m' := Option.some.inj (hm.symm.trans hm')
    exact hinv.locks.alone i j key key m hi' hj'
  · intro hdone
    refine List.eq_nil_iff_forall_not_mem.mpr (fun e he => ?_)
    obtain ⟨g,hg,-,hp⟩ := hinv.locks.pending e.1 e.2 (DashMap.get_eq_some.mpr he)
    obtain ⟨t,ht,rfl⟩ := List.mem_map.mp hg
    have hfin := hdone t ht
    have hkeep := hinv.keep t ht
    obtain ⟨g,p⟩ := t
    cases p with
    | pure a =>
      have hret : g.2 = .returned := hkeep
      rw [hret] at hp
      exact hp
    | call c k => simp [Threads.unfinished] at hfin

/-- A closure that adds one to a counter, read and written in two steps. -/
def addOne : Prog (Option Nat) (fun _ => Nat) Unit :=
  .call none (fun n => .call (some (n + 1)) (fun _ => .pure ()))

def counter : (c : Option Nat) → Nat → Nat × Nat
  | none, n => (n,n)
  | some k, _ => (k,k)

/-- Two saves of one draft, the second looking the lock up while the first is at work, and waiting. -/
def twoSaves : List (LockEvent (fun _ : Option Nat => Nat) Unit) :=
  [.withLock "a" "d" addOne,.withLock "a" "d" addOne,.turn 0,.turn 0,.turn 0,.turn 1,.turn 0,.turn 0,
    .turn 0,.turn 0,.turn 1,.turn 1,.turn 1,.turn 1,.turn 1,.turn 1]

theorem withLock_serialized_twoSaves :
    ∃ s, Run (LockState.step counter) (fun _ _ => True) (LockState.opening 0) twoSaves s ∧
      s.world.2 = 2 ∧ s.world.1.locks.iter = [] := by
  have hv : (execWhere (LockState.step counter) (fun _ _ => True) (LockState.opening 0) twoSaves).map
      (fun s => (s.world.2,s.tasks.all (fun t => !Threads.unfinished t))) = some (2,true) := by
    decide
  obtain ⟨s,hrun,hl⟩ := run_of_map_execWhere hv
  obtain ⟨hcount,hdone⟩ := Prod.mk.inj hl
  refine ⟨s,hrun,hcount,(withLock_serialized hrun).2.2 ?_⟩
  intro t ht
  have hall := List.all_eq_true.mp hdone t ht
  simpa using hall

end Rav
