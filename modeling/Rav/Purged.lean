import Rav.Runs

/-!
# Purging a run

A machine that answers each label, and one party that watches the answers to some of the labels. If the
other labels never change what the party can tell, its answers are the same in the run that has been
purged of them: the unwinding theorem of noninterference, for guarded runs.

## Main definitions

- `stateAfter`, `answersTo` — the state a list of labels leads to, the answers on the way
- `Unwinding` — the conditions on one step
- `Unwinding.answers_filter` — the answers in a run are those in the purged run
-/

namespace Rav

universe u v w

variable {σ : Type u} {α : Type v} {β : Type w}

/-- The state after a list of labels. -/
def stateAfter (f : σ → α → β × σ) (s : σ) (as : List α) : σ := as.foldl (fun s a => (f s a).2) s

/-- The answers to the watched labels of a list. -/
def answersTo (f : σ → α → β × σ) (watched : α → Bool) (s : σ) : List α → List β
  | [] => []
  | a :: as =>
    if watched a then (f s a).1 :: answersTo f watched (f s a).2 as else answersTo f watched (f s a).2 as

theorem stateAfter_append (f : σ → α → β × σ) (s : σ) (as bs : List α) :
    stateAfter f s (as ++ bs) = stateAfter f (stateAfter f s as) bs := List.foldl_append

theorem answersTo_append (f : σ → α → β × σ) (watched : α → Bool) (s : σ) (as bs : List α) :
    answersTo f watched s (as ++ bs) = answersTo f watched s as ++ answersTo f watched (stateAfter f s as) bs := by
  induction as generalizing s with
  | nil => rfl
  | cons a as ih =>
    rw [List.cons_append, answersTo, answersTo, ih]
    split
    · rfl
    · rfl

theorem Run.stateAfter_eq {f : σ → α → β × σ} {ok : σ → α → Prop} {s t : σ} {as : List α}
    (h : Run (fun s a => some (f s a).2) ok s as t) : stateAfter f s as = t := by
  induction h with
  | nil => rfl
  | snoc _ _ he ih =>
    rw [stateAfter_append, ih]
    exact Option.some.inj he

/-- One step of the whole machine against one of the purged one. What is compared of an answer is what
`seen` shows. -/
structure Unwinding {γ : Type*} (f : σ → α → β × σ) (ok : σ → α → Prop) (watched : α → Bool)
    (seen : β → γ) (R : σ → σ → Prop) : Prop where
  answer : ∀ {s u a}, R s u → ok s a → watched a → seen (f s a).1 = seen (f u a).1
  own : ∀ {s u a}, R s u → ok s a → watched a → R (f s a).2 (f u a).2
  other : ∀ {s u a}, R s u → ok s a → ¬watched a → R (f s a).2 u

namespace Unwinding

variable {γ : Type*} {f : σ → α → β × σ} {ok : σ → α → Prop} {watched : α → Bool} {seen : β → γ}
  {R : σ → σ → Prop} {s t u : σ} {as : List α}

theorem related (h : Unwinding f ok watched seen R)
    (hrun : Run (fun s a => some (f s a).2) ok s as t) (hR : R s u) :
    R t (stateAfter f u (as.filter watched)) := by
  induction hrun with
  | nil => exact hR
  | @snoc v w as a hrun ha he ih =>
    obtain rfl := Option.some.inj he
    rw [List.filter_append, stateAfter_append]
    by_cases hw : watched a = true
    · rw [List.filter_cons_of_pos hw, List.filter_nil]
      exact h.own ih ha hw
    · rw [List.filter_cons_of_neg hw, List.filter_nil]
      exact h.other ih ha hw

/-- What a party sees of the answers to its labels does not depend on the other labels. -/
theorem answers_filter (h : Unwinding f ok watched seen R)
    (hrun : Run (fun s a => some (f s a).2) ok s as t) (hR : R s u) :
    (answersTo f watched s as).map seen = (answersTo f watched u (as.filter watched)).map seen := by
  induction hrun with
  | nil => rfl
  | @snoc v w as a hrun ha he ih =>
    have hv := h.related hrun hR
    rw [answersTo_append, hrun.stateAfter_eq, List.filter_append, answersTo_append, List.map_append, List.map_append,
      ih]
    congr 1
    have hsingle : ∀ s, answersTo f watched s [a] = if watched a then [(f s a).1] else [] := fun s => by
      rw [answersTo]
      rfl
    by_cases hw : watched a = true
    · rw [List.filter_cons_of_pos hw, List.filter_nil, hsingle, hsingle, if_pos hw, if_pos hw,
        List.map_singleton, List.map_singleton, h.answer hv ha hw]
    · rw [List.filter_cons_of_neg hw, List.filter_nil, hsingle, if_neg hw]
      rfl

end Unwinding

end Rav
