import Mathlib.Data.List.Basic
import Mathlib.Logic.Function.Iterate
import Mathlib.Order.Basic

/-!
# Runs of partial step functions

A system is an executable step function `σ → α → Option σ`: `none` where the label is not
enabled. `Run step ok` are its runs whose every step meets the condition `ok` in the state it
is taken in, so a property of guarded runs is an invariant of the guarded steps. `Settles`
speaks of iterating a total step.

## Main definitions

- `Run` — guarded runs, by appending one step at a time
- `execWhere` — the executable replay of a guarded run
- `Since` — a label has begun something, and none has ended it since
- `Settles` — from some iterate on, a predicate holds
- `Endless` — a run without end
-/

namespace Rav

universe u v

variable {σ : Type u} {α : Type v}

/-- Runs of `step` from a state through a list of labels, every step meeting `ok`. -/
inductive Run (step : σ → α → Option σ) (ok : σ → α → Prop) : σ → List α → σ → Prop
  | nil (s : σ) : Run step ok s [] s
  | snoc {s t u : σ} {as : List α} {a : α} :
      Run step ok s as t → ok t a → step t a = some u → Run step ok s (as ++ [a]) u

namespace Run

variable {step : σ → α → Option σ} {ok ok' : σ → α → Prop} {s t u : σ} {as bs : List α}

/-- A predicate preserved by every guarded step holds at the end of every guarded run. -/
theorem invariant {P : σ → Prop} (h : Run step ok s as t) (h0 : P s)
    (hstep : ∀ s a t, P s → ok s a → step s a = some t → P t) : P t := by
  induction h with
  | nil => exact h0
  | snoc _ hok hs ih => exact hstep _ _ _ ih hok hs

theorem mono (h : Run step ok s as t) (hok : ∀ s a, ok s a → ok' s a) : Run step ok' s as t := by
  induction h with
  | nil => exact .nil _
  | snoc _ ha hs ih => exact .snoc ih (hok _ _ ha) hs

theorem single {a : α} (ha : ok s a) (h : step s a = some t) : Run step ok s [a] t :=
  .snoc (.nil s) ha h

theorem trans (h : Run step ok s as t) (h' : Run step ok t bs u) :
    Run step ok s (as ++ bs) u := by
  induction h' with
  | nil => rwa [List.append_nil]
  | snoc _ ha hs ih =>
    rw [← List.append_assoc]
    exact .snoc ih ha hs

theorem snoc_inv {a : α} (h : Run step ok s (as ++ [a]) u) :
    ∃ t, Run step ok s as t ∧ ok t a ∧ step t a = some u := by
  generalize hb : as ++ [a] = bs at h
  cases h with
  | nil => simp at hb
  | snoc hr hok hs =>
    obtain ⟨rfl,ha⟩ := List.append_inj' hb rfl
    obtain rfl : a = _ := by simpa using ha
    exact ⟨_,hr,hok,hs⟩

/-- The labels of a run decide where it ends. -/
theorem unique (h : Run step ok s as t) (h' : Run step ok' s as u) : t = u := by
  induction h generalizing u with
  | nil =>
    generalize hb : ([] : List α) = bs at h'
    cases h' with
    | nil => rfl
    | snoc _ _ _ => simp at hb
  | snoc _ _ hs ih =>
    obtain ⟨t,hr,-,hs'⟩ := snoc_inv h'
    rw [ih hr] at hs
    exact Option.some.inj (hs.symm.trans hs')

/-- A property that each step keeps exactly when it meets a further condition holds at the end of
a run exactly when all its steps meet that condition. -/
theorem guarded_iff {I P : σ → Prop} (h : Run step ok s as t) (hs : I s) (hPs : P s)
    (hI : ∀ s a t, I s → ok s a → step s a = some t → I t)
    (hP : ∀ s a t, I s → step s a = some t → (P t ↔ P s ∧ ok' s a)) :
    P t ↔ Run step ok' s as t := by
  induction h with
  | nil => exact ⟨fun _ => .nil _,fun _ => hPs⟩
  | snoc hrun _ he ih =>
    rw [hP _ _ _ (hrun.invariant hs hI) he,ih]
    constructor
    · rintro ⟨hr,hok⟩
      exact .snoc hr hok he
    · intro hr
      obtain ⟨t,hr,hok,-⟩ := snoc_inv hr
      obtain rfl := unique hrun hr
      exact ⟨hr,hok⟩

/-- Where each step comes to writes, one after the other, so does a run. -/
theorem foldl_writes {τ ω : Type*} {f : σ → τ} {writes : α → List ω} {write : τ → ω → τ}
    (h : Run step ok s as t) (hstep : ∀ s a t, step s a = some t → f t = (writes a).foldl write (f s)) :
    f t = (as.flatMap writes).foldl write (f s) := by
  induction h with
  | nil => rfl
  | snoc _ _ hs ih =>
    rw [hstep _ _ _ hs, ih, List.flatMap_append, List.foldl_append, List.flatMap_singleton]

end Run

/-! ### What has stood since -/

/-- A label has begun it, and none of those after has ended it. -/
def Since (begun ended : α → Prop) (as : List α) : Prop :=
  ∃ before a after, as = before ++ a :: after ∧ begun a ∧ ∀ b ∈ after, ¬ended b

section Since

variable {begun ended : α → Prop} {step : σ → α → Option σ} {ok : σ → α → Prop} {s t : σ} {as : List α} {a : α}

theorem since_nil : ¬Since begun ended ([] : List α) := by
  rintro ⟨before, a, after, h, -, -⟩
  exact absurd h.symm (List.append_ne_nil_of_right_ne_nil _ (List.cons_ne_nil _ _))

theorem since_snoc : Since begun ended (as ++ [a]) ↔ begun a ∨ (Since begun ended as ∧ ¬ended a) := by
  constructor
  · rintro ⟨before, b, after, h, hb, hafter⟩
    -- the label that began it is the last, or the last is among those after it
    obtain rfl | ⟨after, c, rfl⟩ := after.eq_nil_or_concat'
    · obtain ⟨-, hab⟩ := List.append_inj' h rfl
      rw [List.head_eq_of_cons_eq hab]
      exact Or.inl hb
    · rw [← List.cons_append, ← List.append_assoc] at h
      obtain ⟨rfl, hac⟩ := List.append_inj' h rfl
      rw [List.head_eq_of_cons_eq hac]
      exact Or.inr ⟨⟨before, b, after, rfl, hb, fun d hd => hafter d (List.mem_append_left _ hd)⟩,
        hafter c (List.mem_append_right _ List.mem_cons_self)⟩
  · rintro (ha | ⟨⟨before, b, after, rfl, hb, hafter⟩, ha⟩)
    · exact ⟨as, a, [], rfl, ha, fun b hb => absurd hb List.not_mem_nil⟩
    · refine ⟨before, b, after ++ [a], by rw [List.append_assoc, List.cons_append], hb, ?_⟩
      intro d hd
      obtain hd | hd := List.mem_append.mp hd
      · exact hafter d hd
      · rwa [List.mem_singleton.mp hd]

/-- What each step begins or ends, and otherwise leaves, holds after a run exactly if it has stood since. -/
theorem Run.since {I P : σ → Prop} (h : Run step ok s as t) (hs : I s) (hPs : ¬P s)
    (hI : ∀ s a t, I s → ok s a → step s a = some t → I t)
    (hP : ∀ s a t, I s → ok s a → step s a = some t → (P t ↔ begun a ∨ (P s ∧ ¬ended a))) :
    P t ↔ Since begun ended as := by
  induction h with
  | nil => exact iff_of_false hPs since_nil
  | snoc hrun hok he ih => rw [hP _ _ _ (hrun.invariant hs hI) hok he, ih, since_snoc]

end Since

/-- Replay labels from a state, stopping at the first that is not enabled or not allowed. -/
def execWhere (step : σ → α → Option σ) (ok : σ → α → Prop) [∀ s a, Decidable (ok s a)] :
    σ → List α → Option σ
  | s, [] => some s
  | s, a :: as =>
    if ok s a then
      match step s a with
      | some t => execWhere step ok t as
      | none => none
    else none

theorem run_of_execWhere {step : σ → α → Option σ} {ok : σ → α → Prop}
    [∀ s a, Decidable (ok s a)] {s t : σ} {as : List α}
    (h : execWhere step ok s as = some t) : Run step ok s as t := by
  induction as generalizing s with
  | nil =>
    simp only [execWhere,Option.some.injEq] at h
    exact h ▸ .nil s
  | cons a as ih =>
    simp only [execWhere] at h
    split at h
    · next ha =>
      split at h
      · next u hu => exact (Run.single ha hu).trans (ih h)
      · simp at h
    · simp at h

/-- What a replay is seen to end in, a run ends in. -/
theorem run_of_map_execWhere {step : σ → α → Option σ} {ok : σ → α → Prop}
    [∀ s a, Decidable (ok s a)] {s : σ} {as : List α} {β : Type*} {f : σ → β} {b : β}
    (h : (execWhere step ok s as).map f = some b) : ∃ t, Run step ok s as t ∧ f t = b := by
  obtain ⟨t,ht,hb⟩ := Option.map_eq_some_iff.mp h
  exact ⟨t,run_of_execWhere ht,hb⟩

/-- From some iterate of `f` on, `p` holds. -/
def Settles (f : σ → σ) (p : σ → Prop) (s : σ) : Prop := ∃ n, ∀ k, n ≤ k → p (f^[k] s)

theorem settles_step {f : σ → σ} {p : σ → Prop} {s : σ} : Settles f p (f s) ↔ Settles f p s := by
  constructor
  · rintro ⟨n,hn⟩
    refine ⟨n+1,fun k hk => ?_⟩
    obtain ⟨k,rfl⟩ : ∃ j, k = j+1 := ⟨k-1,by omega⟩
    exact hn k (by omega)
  · rintro ⟨n,hn⟩
    exact ⟨n,fun k hk => hn (k+1) (by omega)⟩

/-- Where the step no longer changes what `p` reads, `p` settles exactly if it holds. -/
theorem settles_of_stable {f : σ → σ} {p q : σ → Prop} {s : σ} (hq : q s)
    (hstep : ∀ t, q t → q (f t)) (hp : ∀ t, q t → (p (f t) ↔ p t)) : Settles f p s ↔ p s := by
  have hk : ∀ k, q (f^[k] s) ∧ (p (f^[k] s) ↔ p s) := by
    intro k
    induction k with
    | zero => exact ⟨hq,Iff.rfl⟩
    | succ k ih =>
      rw [Function.iterate_succ_apply']
      exact ⟨hstep _ ih.1,(hp _ ih.1).trans ih.2⟩
  constructor
  · rintro ⟨n,hn⟩
    exact (hk n).2.mp (hn n (Nat.le_refl n))
  · intro h
    exact ⟨0,fun k _ => (hk k).2.mpr h⟩

/-- At a fixed point a predicate settles exactly if it holds. -/
theorem settles_of_fixed {f : σ → σ} {p : σ → Prop} {s : σ} (h : f s = s) : Settles f p s ↔ p s :=
  settles_of_stable (q := fun t => f t = t) h (fun _ ht => (congrArg f ht))
    (fun _ ht => iff_of_eq (congrArg p ht))

/-- What settles is read off any system in lockstep. -/
theorem settles_congr {τ : Type v} {f : σ → σ} {g : τ → τ} {p : σ → Prop} {q : τ → Prop}
    {R : σ → τ → Prop} {s : σ} {t : τ} (h : R s t) (hstep : ∀ s t, R s t → R (f s) (g t))
    (hp : ∀ s t, R s t → (p s ↔ q t)) : Settles f p s ↔ Settles g q t := by
  have hk : ∀ k, R (f^[k] s) (g^[k] t) := by
    intro k
    induction k with
    | zero => exact h
    | succ k ih =>
      rw [Function.iterate_succ_apply',Function.iterate_succ_apply']
      exact hstep _ _ ih
  constructor
  · rintro ⟨n,hn⟩
    exact ⟨n,fun k hkn => (hp _ _ (hk k)).mp (hn k hkn)⟩
  · rintro ⟨n,hn⟩
    exact ⟨n,fun k hkn => (hp _ _ (hk k)).mpr (hn k hkn)⟩

/-- A run without end, every step meeting `ok`. -/
structure Endless (step : σ → α → Option σ) (ok : σ → α → Prop) (s : Nat → σ) (e : Nat → α) : Prop where
  ok : ∀ n, ok (s n) (e n)
  step : ∀ n, step (s n) (e n) = some (s (n+1))

/-- What holds at some point and is kept from there on. -/
theorem Endless.invariant {step : σ → α → Option σ} {ok : σ → α → Prop} {s : Nat → σ} {e : Nat → α}
    (h : Endless step ok s e) {P : σ → Prop} {n : Nat} (hn : P (s n))
    (hstep : ∀ m, n ≤ m → P (s m) → ok (s m) (e m) → step (s m) (e m) = some (s (m+1)) → P (s (m+1)))
    {m : Nat} (hm : n ≤ m) : P (s m) := by
  induction hm with
  | refl => exact hn
  | step hm ih => exact hstep _ hm ih (h.ok _) (h.step _)

end Rav
