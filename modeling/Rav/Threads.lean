import Rav.Prog
import Mathlib.Data.List.Nodup

/-!
# Threads

Programs in progress over one shared state, interleaved call by call. Each carries a stance that
the answers to its calls move; `Prog.Follows` says what a thread may still do from its stance.

## Main definitions

- `Thread`, `Threads` — a program in progress, and several over a shared state
- `Threads.call` — one call of one of them
- `Threads.Keep` — every thread keeps to what its stance allows
-/

namespace Rav

universe u v w x

/-- A stance, and what is left of a program. -/
abbrev Thread (γ : Type x) (E : Type u) (R : E → Type v) (α : Type w) := γ × Prog E R α

structure Threads (γ σ E : Type u) (R : E → Type u) (α : Type u) where
  world : σ
  tasks : List (Thread γ E R α)

namespace Threads

variable {γ σ E : Type u} {R : E → Type u} {α : Type u} (h : (e : E) → σ → R e × σ)
  (next : γ → (e : E) → R e → γ)

/-- Whether there is a call left. -/
def unfinished (t : Thread γ E R α) : Bool :=
  match t.2 with
  | .pure _ => false
  | .call _ _ => true

/-- One call of the `i`-th thread. -/
def call (s : Threads γ σ E R α) (i : Nat) : Option (Threads γ σ E R α) :=
  match s.tasks[i]? with
  | some (g,.call e k) =>
    let r := h e s.world
    some ⟨r.2,s.tasks.set i (next g e r.1,k r.1)⟩
  | _ => none

/-- The call the `i`-th thread is about to make, and its stance. -/
def upcoming (s : Threads γ σ E R α) (i : Nat) : Option (γ × E) :=
  match s.tasks[i]? with
  | some (g,.call e _) => some (g,e)
  | _ => none

variable {h next} {s s' : Threads γ σ E R α} {i : Nat} {ok : γ → E → Prop} {Q : γ → α → Prop}

theorem call_eq_some : s.call h next i = some s' ↔ ∃ g e k, s.tasks[i]? = some (g,.call e k) ∧
    s' = ⟨(h e s.world).2,s.tasks.set i (next g e (h e s.world).1,k (h e s.world).1)⟩ := by
  unfold call
  constructor
  · intro he
    split at he
    · next g e k ht => exact ⟨g,e,k,ht,(Option.some.inj he).symm⟩
    · simp at he
  · rintro ⟨g,e,k,ht,rfl⟩
    rw [ht]

theorem upcoming_eq {g : γ} {e : E} {k : R e → Prog E R α} (ht : s.tasks[i]? = some (g,.call e k)) :
    s.upcoming i = some (g,e) := by
  unfold upcoming
  rw [ht]

/-- Every thread keeps to what its stance allows. -/
def Keep (ok : γ → E → Prop) (next : γ → (e : E) → R e → γ) (Q : γ → α → Prop)
    (s : Threads γ σ E R α) : Prop := ∀ t ∈ s.tasks, t.2.Follows ok next Q t.1

theorem Keep.start {w : σ} {g : γ} {p : Prog E R α} (hs : Keep ok next Q s)
    (hp : p.Follows ok next Q g) : Keep ok next Q ⟨w,s.tasks ++ [(g,p)]⟩ := by
  intro t ht
  rcases List.mem_append.mp ht with ht | ht
  · exact hs t ht
  · rw [List.mem_singleton.mp ht]
    exact hp

/-- A thread about to make a call is allowed to. -/
theorem Keep.allowed {g : γ} {e : E} {k : R e → Prog E R α} (hs : Keep ok next Q s)
    (ht : s.tasks[i]? = some (g,.call e k)) : ok g e :=
  (hs _ (List.mem_of_getElem? ht)).1

theorem Keep.call {w : σ} {g : γ} {e : E} {k : R e → Prog E R α} {r : R e} (hs : Keep ok next Q s)
    (ht : s.tasks[i]? = some (g,.call e k)) :
    Keep ok next Q ⟨w,s.tasks.set i (next g e r,k r)⟩ := by
  intro t hmem
  rcases List.mem_or_eq_of_mem_set hmem with hmem | rfl
  · exact hs t hmem
  · exact (hs _ (List.mem_of_getElem? ht)).2 r

end Threads

/-! ### What the threads hold together -/

section Collect

variable {τ β : Type u} {ts : List τ} {i : Nat} {t t' : τ} (f : τ → List β)

/-- What a list collects, with one entry's share set apart. -/
theorem perm_flatMap_getElem? (ht : ts[i]? = some t) :
    (ts.flatMap f).Perm (f t ++ (ts.eraseIdx i).flatMap f) := by
  induction ts generalizing i with
  | nil => simp at ht
  | cons a ts ih =>
    cases i with
    | zero =>
      obtain rfl : a = t := by simpa using ht
      simp
    | succ i =>
      simp only [List.flatMap_cons,List.eraseIdx_cons_succ]
      refine ((ih (by simpa using ht)).append_left (f a)).trans ?_
      rw [← List.append_assoc,← List.append_assoc]
      exact List.perm_append_comm.append_right _

theorem perm_flatMap_set (ht : ts[i]? = some t) :
    ((ts.set i t').flatMap f).Perm (f t' ++ (ts.eraseIdx i).flatMap f) := by
  have hi : i < ts.length := (List.getElem?_eq_some_iff.mp ht).1
  have hset : (ts.set i t')[i]? = some t' := List.getElem?_set_self hi
  simpa [List.eraseIdx_set_eq] using perm_flatMap_getElem? f hset

/-- An entry after a replacement is the new one, or an old one elsewhere. -/
theorem getElem?_of_set {j : Nat} {u : τ} (h : (ts.set i t)[j]? = some u) :
    i = j ∧ u = t ∨ i ≠ j ∧ ts[j]? = some u := by
  by_cases hij : i = j
  · subst hij
    have hlt : i < ts.length := by
      have := (List.getElem?_eq_some_iff.mp h).1
      rwa [List.length_set] at this
    exact Or.inl ⟨rfl,(Option.some.inj ((List.getElem?_set_self hlt).symm.trans h)).symm⟩
  · exact Or.inr ⟨hij,(List.getElem?_set_ne hij).symm.trans h⟩

theorem mem_set_new (ht : ts[i]? = some t) : t' ∈ ts.set i t' :=
  List.mem_of_getElem? (List.getElem?_set_self (List.getElem?_eq_some_iff.mp ht).1)

/-- An entry after a replacement is the new one, or one that was elsewhere. -/
theorem mem_set_cases {u : τ} (h : u ∈ ts.set i t) : u = t ∨ ∃ j, i ≠ j ∧ ts[j]? = some u := by
  obtain ⟨j,hj⟩ := List.mem_iff_getElem?.mp h
  exact (getElem?_of_set hj).imp (fun h => h.2) (fun h => ⟨j,h⟩)

/-- Counting after a replacement. -/
theorem countP_set_add (p : τ → Bool) (ht : ts[i]? = some t) :
    (ts.set i t').countP p + (if p t = true then 1 else 0) =
      ts.countP p + if p t' = true then 1 else 0 := by
  obtain ⟨hi,rfl⟩ := List.getElem?_eq_some_iff.mp ht
  have hle := List.boole_getElem_le_countP (p := p) hi
  rw [List.countP_set hi]
  omega

/-- An entry with a property is still there after a replacement that keeps it. -/
theorem exists_mem_set {P : τ → Prop} (ht : ts[i]? = some t) (h : P t → P t') :
    (∃ u ∈ ts, P u) → ∃ u ∈ ts.set i t', P u := by
  rintro ⟨u,hu,hP⟩
  obtain ⟨j,hj⟩ := List.mem_iff_getElem?.mp hu
  by_cases hij : i = j
  · subst hij
    obtain rfl : t = u := Option.some.inj (ht.symm.trans hj)
    exact ⟨t',List.mem_of_getElem? (List.getElem?_set_self (List.getElem?_eq_some_iff.mp ht).1),h hP⟩
  · exact ⟨u,List.mem_of_getElem? (by rw [List.getElem?_set_ne hij]; exact hj),hP⟩

end Collect

end Rav
