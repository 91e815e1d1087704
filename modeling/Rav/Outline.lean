import Rav.Prog

/-!
# Interleaved programs

Several programs share a state and take their calls in turn, while their surroundings change the
state too. A program is proved safe by an outline: before each of its calls stands an assertion
that neither the calls of the other programs nor the surroundings disturb. What a program
tolerates may depend on where it stands, on a stance that each answer updates.

## Main definitions

- `Discipline` — the invariant of the state, what a call guarantees, what a stance relies on
- `Discipline.Stable` — the assertions nothing disturbs
- `Discipline.Outline` — a program with assertions that carry it through
- `Discipline.Sound` — a state and a pool of outlined threads
-/

namespace Rav

universe u v w x y

/-- A way of sharing a state: `answers` is how the state answers a call, `next` how the stance
of the caller moves. -/
structure Discipline (E : Type u) (R : E → Type v) (σ : Type x) (γ : Type y) where
  inv : σ → Prop
  guarantee : σ → σ → Prop
  rely : γ → σ → σ → Prop
  answers : (e : E) → σ → R e → σ → Prop
  next : γ → (e : E) → R e → γ
  rely_of_guarantee : ∀ g s s', guarantee s s' → rely g s s'

namespace Prog

variable {E : Type u} {R : E → Type v} {α : Type w}

def returned : Prog E R α → Bool
  | .pure _ => true
  | .call _ _ => false

end Prog

namespace Discipline

variable {E : Type u} {R : E → Type v} {σ : Type x} {γ : Type y} {α β : Type w}
variable (D : Discipline E R σ γ)

/-- Nothing a program at this stance tolerates disturbs the assertion. -/
def Stable (g : γ) (A : σ → Prop) : Prop :=
  ∀ s s', D.inv s → D.inv s' → D.rely g s s' → A s → A s'

/-- From a state with assertion `A`, each call of the program keeps the invariant and the
guarantee and leaves a stable assertion to the rest; a result is returned with `Q`. -/
def Outline (Q : γ → α → σ → Prop) : γ → (σ → Prop) → Prog E R α → Prop
  | g, A, .pure a => ∀ s, D.inv s → A s → Q g a s
  | g, A, .call e k => ∀ s r s', D.inv s → A s → D.answers e s r s' →
      D.inv s' ∧ D.guarantee s s' ∧
        ∃ B, D.Stable (D.next g e r) B ∧ B s' ∧ Outline Q (D.next g e r) B (k r)

/-- The post-condition of a program that keeps its stance. -/
def At (g : γ) (A : σ → Prop) : γ → α → σ → Prop := fun g' _ s => g' = g ∧ A s

variable {D} {Q : γ → α → σ → Prop} {g : γ} {A A' : σ → Prop} {p : Prog E R α} {s s' : σ}

/-! ### Assertions -/

theorem stable_true : D.Stable g (fun _ => True) := fun _ _ _ _ _ _ => trivial

theorem Stable.and (h : D.Stable g A) (h' : D.Stable g A') : D.Stable g (fun s => A s ∧ A' s) :=
  fun s t hs ht hr ⟨ha,ha'⟩ => ⟨h s t hs ht hr ha,h' s t hs ht hr ha'⟩

theorem Stable.guaranteed (h : D.Stable g A) (hs : D.inv s) (hs' : D.inv s')
    (hg : D.guarantee s s') (ha : A s) : A s' :=
  h s s' hs hs' (D.rely_of_guarantee g s s' hg) ha

/-! ### Rules -/

theorem Outline.mono (h : D.Outline Q g A p) (hA : ∀ s, D.inv s → A' s → A s) :
    D.Outline Q g A' p := by
  cases p with
  | pure a => exact fun s hi hs => h s hi (hA s hi hs)
  | call e k => exact fun s r s' hi hs => h s r s' hi (hA s hi hs)

theorem Outline.post {Q' : γ → α → σ → Prop} (h : D.Outline Q g A p)
    (hQ : ∀ g a s, Q g a s → Q' g a s) : D.Outline Q' g A p := by
  induction p generalizing g A with
  | pure a => exact fun s hi hs => hQ g a s (h s hi hs)
  | call e k ih =>
    intro s r s' hi hs hans
    obtain ⟨hi',hg,B,hB,hb,hk⟩ := h s r s' hi hs hans
    exact ⟨hi',hg,B,hB,hb,ih r hk⟩

/-- What an assertion says regardless of the state may be used at once. -/
theorem Outline.of_pure {P : Prop} (h : P → D.Outline Q g A p) :
    D.Outline Q g (fun s => P ∧ A s) p := by
  cases p with
  | pure a => exact fun s hi hs => h hs.1 s hi hs.2
  | call e k => exact fun s r s' hi hs => h hs.1 s r s' hi hs.2

theorem outline_pure {a : α} (h : ∀ s, A s → Q g a s) :
    D.Outline Q g A (pure a : Prog E R α) := fun s _ => h s

theorem Outline.bind {Q' : γ → β → σ → Prop} {f : α → Prog E R β} (hp : D.Outline Q g A p)
    (hf : ∀ g' a, D.Outline Q' g' (Q g' a) (f a)) : D.Outline Q' g A (p >>= f) := by
  induction p generalizing g A with
  | pure a => exact (hf g a).mono hp
  | call e k ih =>
    intro s r s' hi ha hans
    obtain ⟨hi',hg,B,hB,hb,hk⟩ := hp s r s' hi ha hans
    exact ⟨hi',hg,B,hB,hb,ih r hk⟩

theorem Outline.bind_at {Q' : γ → β → σ → Prop} {f : α → Prog E R β} {A' : σ → Prop}
    (hp : D.Outline (At g A') g A p) (hf : ∀ a, D.Outline Q' g A' (f a)) :
    D.Outline Q' g A (p >>= f) := by
  refine hp.bind (fun g' a => Outline.of_pure ?_)
  rintro rfl
  exact hf a

/-- One call first: what its answer leaves must be stable and carry the rest. -/
theorem Outline.perform_bind {R : E → Type w} {D : Discipline E R σ γ} {Q : γ → α → σ → Prop}
    {e : E} {f : R e → Prog E R α} (B : R e → σ → Prop)
    (hstep : ∀ s r s', D.inv s → A s → D.answers e s r s' →
      D.inv s' ∧ D.guarantee s s' ∧ B r s')
    (hB : ∀ r, D.Stable (D.next g e r) (B r))
    (hf : ∀ r, D.Outline Q (D.next g e r) (B r) (f r)) :
    D.Outline Q g A (Prog.perform e >>= f) := by
  intro s r s' hi ha hans
  obtain ⟨hi',hg,hb⟩ := hstep s r s' hi ha hans
  exact ⟨hi',hg,B r,hB r,hb,hf r⟩

/-! ### Pools -/

/-- The invariant holds, and every thread has an outline whose assertion holds now. -/
def Sound (D : Discipline E R σ γ) (s : σ) (ts : List (γ × Prog E R α)) : Prop :=
  D.inv s ∧ ∀ t ∈ ts, ∃ A, A s ∧ D.Stable t.1 A ∧ D.Outline (fun _ _ _ => True) t.1 A t.2

variable {ts : List (γ × Prog E R α)}

/-- A disturbance that every thread still running tolerates. -/
theorem Sound.disturb (h : D.Sound s ts) (hi : D.inv s')
    (hr : ∀ t ∈ ts, t.2.returned = false → D.rely t.1 s s') : D.Sound s' ts := by
  refine ⟨hi,fun t ht => ?_⟩
  obtain ⟨A,ha,hA,hO⟩ := h.2 t ht
  cases hp : t.2 with
  | pure a => exact ⟨fun _ => True,trivial,stable_true,fun _ _ _ => trivial⟩
  | call e k =>
    refine ⟨A,hA s s' h.1 hi (hr t ht ?_) ha,hA,hp ▸ hO⟩
    rw [hp]
    rfl

/-- One call of one thread. -/
theorem Sound.call {i : Nat} {g : γ} {e : E} {k : R e → Prog E R α} {r : R e} (h : D.Sound s ts)
    (ht : ts[i]? = some (g,.call e k)) (ha : D.answers e s r s') :
    D.Sound s' (ts.set i (D.next g e r,k r)) := by
  obtain ⟨A,hA,-,hO⟩ := h.2 _ (List.mem_of_getElem? ht)
  obtain ⟨hi',hg,B,hB,hb,hk⟩ := hO s r s' h.1 hA ha
  have hothers : D.Sound s' ts := h.disturb hi' (fun t _ _ => D.rely_of_guarantee t.1 s s' hg)
  refine ⟨hi',fun t hmem => ?_⟩
  rcases List.mem_or_eq_of_mem_set hmem with hmem | rfl
  · exact hothers.2 t hmem
  · exact ⟨B,hb,hB,hk⟩

theorem Sound.start (h : D.Sound s ts) (ha : A s) (hA : D.Stable g A)
    (hO : D.Outline (fun _ _ _ => True) g A p) : D.Sound s (ts ++ [(g,p)]) := by
  refine ⟨h.1,fun t ht => ?_⟩
  rcases List.mem_append.mp ht with ht | ht
  · exact h.2 t ht
  · rw [List.mem_singleton.mp ht]
    exact ⟨A,ha,hA,hO⟩

end Discipline

end Rav
