import Mathlib.Logic.Function.Iterate

/-!
# Programs as trees of calls

A program is a tree: it returns, or it makes a call and continues with the answer. Run
against a handler it is a function of the state; run one call at a time it is a thread that
others may interleave with. Both readings are of the same tree.

## Main definitions

- `Prog E R α` — programs making calls `e : E` answered in `R e`
- `Prog.run` — the whole program against a handler, with no interference
- `Prog.step` — one call of it
- `Prog.log` — what is observed of the calls of a whole run
- `Prog.AllWhere` — every call the program can make while its answers meet an assumption
  satisfies a predicate; `Prog.All` without the assumption
- `Prog.Follows` — every call is allowed at a stance that the answers move
- `Prog.Returns`, `Prog.Must` — what is returned, and a call that is surely made, while the answers
  meet an assumption
- `Prog.Hoare` — what holds before a whole run, and what after it
- `Prog.Performs`, `Prog.trace` — the lists of a program's calls with their answers, each with the
  result it leads to; the trace of a whole run is one of them
-/

namespace Rav

universe u v w x

/-- Programs that make calls `e : E`, are answered in `R e`, and return an `α`. -/
inductive Prog (E : Type u) (R : E → Type v) (α : Type w) : Type (max u v w)
  | pure (a : α)
  | call (e : E) (k : R e → Prog E R α)

namespace Prog

variable {E : Type u} {R : E → Type v} {α β : Type w} {σ : Type x}

def bind (p : Prog E R α) (f : α → Prog E R β) : Prog E R β :=
  match p with
  | .pure a => f a
  | .call e k => .call e (fun r => (k r).bind f)

instance : Monad (Prog E R) where
  pure := .pure
  bind := bind

/-- One call, returning its answer. -/
def perform {R : E → Type w} (e : E) : Prog E R (R e) := .call e .pure

/-- Run against a handler that answers each call from the state. -/
def run (h : (e : E) → σ → R e × σ) : Prog E R α → σ → α × σ
  | .pure a, s => (a,s)
  | .call e k, s => (k (h e s).1).run h (h e s).2

/-- One call of a program; a program that has returned stays. -/
def step (h : (e : E) → σ → R e × σ) : Prog E R α × σ → Prog E R α × σ
  | (.pure a,s) => (.pure a,s)
  | (.call e k,s) => (k (h e s).1,(h e s).2)

/-- Every call in the tree below answers that satisfy `A` satisfies `Q`. -/
def AllWhere (A : (e : E) → R e → Prop) (Q : E → Prop) : Prog E R α → Prop
  | .pure _ => True
  | .call e k => Q e ∧ ∀ r, A e r → (k r).AllWhere A Q

/-- Every call in the tree satisfies `Q`. -/
abbrev All (Q : E → Prop) (p : Prog E R α) : Prop := p.AllWhere (fun _ _ => True) Q

/-- Rests of programs run one after the other. -/
theorem bind_assoc {γ : Type w} (p : Prog E R α) (f : α → Prog E R β) (f' : β → Prog E R γ) :
    p >>= f >>= f' = p >>= fun a => f a >>= f' := by
  induction p with
  | pure a => rfl
  | call e k ih => exact congrArg (Prog.call e) (funext ih)

theorem bind_pure (p : Prog E R α) : p >>= Pure.pure = p := by
  induction p with
  | pure a => rfl
  | call e k ih => exact congrArg (Prog.call e) (funext ih)

@[simp] theorem run_pure (h : (e : E) → σ → R e × σ) (a : α) (s : σ) :
    (pure a : Prog E R α).run h s = (a,s) := rfl

@[simp] theorem run_bind (h : (e : E) → σ → R e × σ) (p : Prog E R α) (f : α → Prog E R β)
    (s : σ) : (p >>= f).run h s = (f (p.run h s).1).run h (p.run h s).2 := by
  induction p generalizing s with
  | pure a => rfl
  | call e k ih => exact ih (h e s).1 (h e s).2

@[simp] theorem run_perform {R : E → Type w} (h : (e : E) → σ → R e × σ) (e : E) (s : σ) :
    (perform e : Prog E R (R e)).run h s = h e s := rfl

@[simp] theorem run_ite (h : (e : E) → σ → R e × σ) (c : Prop) [Decidable c]
    (p q : Prog E R α) (s : σ) :
    (if c then p else q).run h s = if c then p.run h s else q.run h s := by
  split <;> rfl

section Log

variable {γ : Type*} (h : (e : E) → σ → R e × σ) (obs : E → σ → List γ)

/-- What is observed of each call and the state it is made in, in order. -/
def log : Prog E R α → σ → List γ
  | .pure _, _ => []
  | .call e k, s => obs e s ++ (k (h e s).1).log (h e s).2

@[simp] theorem log_pure (a : α) (s : σ) : (pure a : Prog E R α).log h obs s = [] := rfl

@[simp] theorem log_bind (p : Prog E R α) (f : α → Prog E R β) (s : σ) :
    (p >>= f).log h obs s = p.log h obs s ++ (f (p.run h s).1).log h obs (p.run h s).2 := by
  induction p generalizing s with
  | pure a => rfl
  | call e k ih =>
    show obs e s ++ _ = (obs e s ++ _) ++ _
    rw [List.append_assoc]
    exact congrArg (obs e s ++ ·) (ih (h e s).1 (h e s).2)

theorem log_perform {R : E → Type w} (h : (e : E) → σ → R e × σ) (e : E) (s : σ) :
    (perform e : Prog E R (R e)).log h obs s = obs e s := List.append_nil _

end Log

section All

variable {A : (e : E) → R e → Prop} {Q Q' : E → Prop} {p : Prog E R α}

@[simp] theorem all_pure (a : α) : (pure a : Prog E R α).AllWhere A Q := trivial

theorem all_perform {R : E → Type w} {A : (e : E) → R e → Prop} {e : E} (h : Q e) :
    (perform e : Prog E R (R e)).AllWhere A Q := ⟨h,fun _ _ => trivial⟩

theorem AllWhere.bind {f : α → Prog E R β} (hp : p.AllWhere A Q) (hf : ∀ a, (f a).AllWhere A Q) :
    (p >>= f).AllWhere A Q := by
  induction p with
  | pure a => exact hf a
  | call e k ih => exact ⟨hp.1,fun r hr => ih r (hp.2 r hr)⟩

theorem AllWhere.mono (hp : p.AllWhere A Q) (hQ : ∀ e, Q e → Q' e) : p.AllWhere A Q' := by
  induction p with
  | pure a => trivial
  | call e k ih => exact ⟨hQ e hp.1,fun r hr => ih r (hp.2 r hr)⟩

theorem AllWhere.ite {c : Prop} [Decidable c] {q : Prog E R α} (hp : p.AllWhere A Q)
    (hq : q.AllWhere A Q) : (if c then p else q).AllWhere A Q := by
  split
  · exact hp
  · exact hq

/-- One call first: the rest may rely on what is assumed of its answer. -/
theorem AllWhere.perform_bind {R : E → Type w} {A : (e : E) → R e → Prop} {β : Type w} {e : E}
    {f : R e → Prog E R β} (h : Q e) (hf : ∀ r, A e r → (f r).AllWhere A Q) :
    (perform e >>= f).AllWhere A Q := ⟨h,hf⟩

/-- Handlers that agree on every call of a program run it alike. -/
theorem run_congr {h h' : (e : E) → σ → R e × σ} (hh : ∀ e, Q e → h e = h' e)
    (hp : p.AllWhere (fun _ _ => True) Q) (s : σ) : p.run h s = p.run h' s := by
  induction p generalizing s with
  | pure a => rfl
  | call e k ih =>
    simp only [run,hh e hp.1]
    exact ih _ (hp.2 _ trivial) _

/-- What the answer to every call of a program preserves, the whole program preserves. -/
theorem run_invariant {h : (e : E) → σ → R e × σ} {P : σ → Prop}
    (hA : ∀ e s, P s → A e (h e s).1) (hP : ∀ e s, Q e → P s → P (h e s).2)
    (hp : p.AllWhere A Q) {s : σ} (hs : P s) : P (p.run h s).2 := by
  induction p generalizing s with
  | pure a => exact hs
  | call e k ih => exact ih _ (hp.2 _ (hA e s hs)) (hP e s hp.1 hs)

end All

section Follows

variable {γ : Type x} {ok : γ → E → Prop} {next : γ → (e : E) → R e → γ} {Q : γ → α → Prop}
  {p : Prog E R α} {g : γ}

/-- Along every path each call is allowed at the stance the answers so far have led to, and the
result is returned at a stance satisfying `Q`. -/
def Follows (ok : γ → E → Prop) (next : γ → (e : E) → R e → γ) (Q : γ → α → Prop) :
    γ → Prog E R α → Prop
  | g, .pure a => Q g a
  | g, .call e k => ok g e ∧ ∀ r, Follows ok next Q (next g e r) (k r)

theorem Follows.bind {Q' : γ → β → Prop} {f : α → Prog E R β} (hp : Follows ok next Q g p)
    (hf : ∀ g a, Q g a → Follows ok next Q' g (f a)) : Follows ok next Q' g (p >>= f) := by
  induction p generalizing g with
  | pure a => exact hf g a hp
  | call e k ih => exact ⟨hp.1,fun r => ih r (hp.2 r)⟩

theorem Follows.perform_bind {R : E → Type w} {next : γ → (e : E) → R e → γ} {e : E}
    {f : R e → Prog E R α} (h : ok g e) (hf : ∀ r, Follows ok next Q (next g e r) (f r)) :
    Follows ok next Q g (perform e >>= f) := ⟨h,hf⟩

theorem Follows.mono {Q' : γ → α → Prop} (hp : Follows ok next Q g p)
    (hQ : ∀ g a, Q g a → Q' g a) : Follows ok next Q' g p := by
  induction p generalizing g with
  | pure a => exact hQ g a hp
  | call e k ih => exact ⟨hp.1,fun r => ih r (hp.2 r)⟩

/-- A program may make calls that are allowed at every stance. -/
theorem Follows.of_all {P : E → Prop} (hp : p.All P) (hok : ∀ g e, P e → ok g e) :
    Follows ok next (fun _ _ => True) g p := by
  induction p generalizing g with
  | pure a => trivial
  | call e k ih => exact ⟨hok g e hp.1,fun r => ih r (hp.2 r trivial)⟩

/-- A program whose calls leave the stance ends at it. -/
theorem Follows.of_still {P : E → Prop} (hp : p.All P) (hok : ∀ e, P e → ok g e)
    (hnext : ∀ e r, P e → next g e r = g) : Follows ok next (fun g' _ => g' = g) g p := by
  induction p with
  | pure a => rfl
  | call e k ih =>
    refine ⟨hok e hp.1,fun r => ?_⟩
    rw [hnext e r hp.1]
    exact ih r (hp.2 r trivial)

theorem Follows.ite {c : Prop} [Decidable c] {q : Prog E R α} (hp : c → Follows ok next Q g p)
    (hq : ¬c → Follows ok next Q g q) : Follows ok next Q g (if c then p else q) := by
  split
  · next hc => exact hp hc
  · next hc => exact hq hc

end Follows

section Must

variable {A : (e : E) → R e → Prop} {P : E → Prop} {Q : α → Prop} {p : Prog E R α}

/-- While the answers satisfy `A`, the result satisfies `Q`. -/
def Returns (A : (e : E) → R e → Prop) (Q : α → Prop) : Prog E R α → Prop
  | .pure a => Q a
  | .call e k => ∀ r, A e r → (k r).Returns A Q

/-- While the answers satisfy `A`, a call that satisfies `P` is made before the program returns. -/
def Must (A : (e : E) → R e → Prop) (P : E → Prop) : Prog E R α → Prop
  | .pure _ => False
  | .call e k => P e ∨ ∀ r, A e r → (k r).Must A P

theorem returns_true (p : Prog E R α) : p.Returns A (fun _ => True) := by
  induction p with
  | pure a => trivial
  | call e k ih => exact fun r _ => ih r

theorem Returns.bind {Q' : β → Prop} {f : α → Prog E R β} (hp : p.Returns A Q)
    (hf : ∀ a, Q a → (f a).Returns A Q') : (p >>= f).Returns A Q' := by
  induction p with
  | pure a => exact hf a hp
  | call e k ih => exact fun r hr => ih r (hp r hr)

theorem Returns.perform_bind {R : E → Type w} {A : (e : E) → R e → Prop} {Q : β → Prop} {e : E}
    {f : R e → Prog E R β} (h : ∀ r, A e r → (f r).Returns A Q) : (perform e >>= f).Returns A Q := h

theorem Must.perform_bind {R : E → Type w} {A : (e : E) → R e → Prop} {e : E}
    {f : R e → Prog E R β} (h : ∀ r, A e r → (f r).Must A P) : (perform e >>= f).Must A P := Or.inr h

theorem Must.bind {f : α → Prog E R β} (hp : p.Must A P) : (p >>= f).Must A P := by
  induction p with
  | pure a => exact hp.elim
  | call e k ih => exact hp.imp id (fun h r hr => ih r (h r hr))

/-- The call is made after a first part that may be relied on. -/
theorem Returns.must {f : α → Prog E R β} (hp : p.Returns A Q) (hf : ∀ a, Q a → (f a).Must A P) :
    (p >>= f).Must A P := by
  induction p with
  | pure a => exact hf a hp
  | call e k ih => exact Or.inr (fun r hr => ih r (hp r hr))

end Must

section Hoare

variable {h : (e : E) → σ → R e × σ} {pre pre' : σ → Prop} {post post' : α → σ → Prop}
  {p q : Prog E R α}

/-- From a state satisfying `pre` the program ends with a result and a state satisfying `post`. -/
def Hoare (h : (e : E) → σ → R e × σ) (pre : σ → Prop) (p : Prog E R α) (post : α → σ → Prop) :
    Prop := ∀ s, pre s → post (p.run h s).1 (p.run h s).2

theorem Hoare.consequence (hp : Hoare h pre p post) (hpre : ∀ s, pre' s → pre s)
    (hpost : ∀ a s, post a s → post' a s) : Hoare h pre' p post' :=
  fun s hs => hpost _ _ (hp s (hpre s hs))

theorem Hoare.pure {a : α} (ha : ∀ s, pre s → post a s) :
    Hoare h pre (Pure.pure a : Prog E R α) post := ha

theorem Hoare.bind (mid : α → σ → Prop) {post : β → σ → Prop} {f : α → Prog E R β}
    (hp : Hoare h pre p mid) (hf : ∀ a, Hoare h (mid a) (f a) post) :
    Hoare h pre (p >>= f) post := by
  intro s hs
  rw [run_bind]
  exact hf _ _ (hp s hs)

theorem Hoare.perform_bind {R : E → Type w} {h : (e : E) → σ → R e × σ} {e : E}
    (mid : R e → σ → Prop) {post : β → σ → Prop} {f : R e → Prog E R β}
    (he : ∀ s, pre s → mid (h e s).1 (h e s).2) (hf : ∀ r, Hoare h (mid r) (f r) post) :
    Hoare h pre (perform e >>= f) post :=
  fun s hs => hf _ _ (he s hs)

theorem Hoare.ite {c : Prop} [Decidable c] (hp : c → Hoare h pre p post)
    (hq : ¬c → Hoare h pre q post) : Hoare h pre (if c then p else q) post := by
  split
  · next hc => exact hp hc
  · next hc => exact hq hc

/-- What every call of a program keeps, the program keeps. -/
theorem Hoare.of_all {C : E → Prop} (hp : p.All C) (hC : ∀ e s, C e → pre s → pre (h e s).2) :
    Hoare h pre p (fun _ => pre) :=
  fun _ hs => run_invariant (fun _ _ _ => trivial) (fun e s he hs => hC e s he hs) hp hs

end Hoare

/-- Running a program to its end is taking its steps one by one. -/
theorem exists_iterate_step (h : (e : E) → σ → R e × σ) (p : Prog E R α) (s : σ) :
    ∃ n, (step h)^[n] (p,s) = (.pure (p.run h s).1,(p.run h s).2) := by
  induction p generalizing s with
  | pure a => exact ⟨0,rfl⟩
  | call e k ih =>
    obtain ⟨n,hn⟩ := ih (h e s).1 (h e s).2
    exact ⟨n+1,hn⟩

/-! ### Traces -/

/-- The program can make these calls and, answered so, return this result. -/
inductive Performs : Prog E R α → List ((e : E) × R e) → α → Prop
  | pure (a : α) : Performs (.pure a) [] a
  | call {e : E} {k : R e → Prog E R α} {r : R e} {t : List ((e : E) × R e)} {a : α} :
      Performs (k r) t a → Performs (.call e k) (⟨e,r⟩ :: t) a

/-- The calls of a whole run with the handler's answers, in order. -/
def trace (h : (e : E) → σ → R e × σ) (p : Prog E R α) (s : σ) : List ((e : E) × R e) :=
  p.log h (fun e s => [⟨e,(h e s).1⟩]) s

theorem performs_run (h : (e : E) → σ → R e × σ) (p : Prog E R α) (s : σ) :
    p.Performs (p.trace h s) (p.run h s).1 := by
  induction p generalizing s with
  | pure a => exact .pure a
  | call e k ih => exact .call (ih (h e s).1 (h e s).2)

@[simp] theorem trace_pure (h : (e : E) → σ → R e × σ) (a : α) (s : σ) :
    (pure a : Prog E R α).trace h s = [] := rfl

@[simp] theorem trace_bind (h : (e : E) → σ → R e × σ) (p : Prog E R α) (f : α → Prog E R β)
    (s : σ) : (p >>= f).trace h s = p.trace h s ++ (f (p.run h s).1).trace h (p.run h s).2 :=
  log_bind h _ p f s

theorem performs_pure {a b : α} {t : List ((e : E) × R e)} :
    (pure a : Prog E R α).Performs t b ↔ t = [] ∧ b = a := by
  constructor
  · rintro ⟨⟩
    exact ⟨rfl,rfl⟩
  · rintro ⟨rfl,rfl⟩
    exact .pure b

theorem performs_call {e : E} {k : R e → Prog E R α} {t : List ((e : E) × R e)} {a : α} :
    (Prog.call e k).Performs t a ↔ ∃ r t', t = ⟨e,r⟩ :: t' ∧ (k r).Performs t' a := by
  constructor
  · intro h
    cases h with
    | call h => exact ⟨_,_,rfl,h⟩
  · rintro ⟨r,t,rfl,h⟩
    exact .call h

theorem performs_bind {p : Prog E R α} {f : α → Prog E R β} {t : List ((e : E) × R e)} {b : β} :
    (p >>= f).Performs t b ↔ ∃ t₁ a t₂, t = t₁ ++ t₂ ∧ p.Performs t₁ a ∧ (f a).Performs t₂ b := by
  induction p generalizing t with
  | pure a =>
    constructor
    · exact fun h => ⟨[],a,t,rfl,.pure a,h⟩
    · rintro ⟨t₁,a',t₂,rfl,⟨⟩,h⟩
      exact h
  | call e k ih =>
    constructor
    · intro h
      obtain ⟨r,t,rfl,hr⟩ := performs_call.mp h
      obtain ⟨t₁,a,t₂,rfl,hp,hf⟩ := (ih r).mp hr
      exact ⟨⟨e,r⟩ :: t₁,a,t₂,rfl,.call hp,hf⟩
    · rintro ⟨t₁,a,t₂,rfl,hp,hf⟩
      obtain ⟨r,t,rfl,hr⟩ := performs_call.mp hp
      exact .call ((ih r).mpr ⟨t,a,t₂,rfl,hr,hf⟩)

/-- One call first. -/
theorem performs_perform_bind {R : E → Type w} {β : Type w} {e : E} {f : R e → Prog E R β}
    {t : List ((e : E) × R e)} {b : β} :
    (perform e >>= f).Performs t b ↔ ∃ r t', t = ⟨e,r⟩ :: t' ∧ (f r).Performs t' b :=
  performs_call

end Prog

end Rav
