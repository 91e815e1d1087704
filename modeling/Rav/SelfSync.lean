import Mathlib.Data.List.Infix

/-!
# Self-synchronising codes

A code whose words begin with a symbol that stands nowhere else in a word. In a coded text a word is
found only where it was written, so that a text is part of another if and only if its code is.

## Main definitions

- `SelfSync` — words that are told apart at their first symbol, and none of which begins another
- `SelfSync.flatMap_infix_iff`, `SelfSync.flatMap_inj` — texts and their codes
-/

namespace Rav

variable {α β : Type}

structure SelfSync (word : α → List β) (lead : β → Prop) : Prop where
  led : ∀ a, ∃ x xs, word a = x :: xs ∧ lead x ∧ ∀ y ∈ xs, ¬lead y
  eq_of_begins : ∀ {a b}, word a <+: word b → a = b

namespace SelfSync

variable {word : α → List β} {lead : β → Prop} (h : SelfSync word lead)

include h

theorem word_ne_nil (a : α) : word a ≠ [] := by
  obtain ⟨x,xs,hx,-⟩ := h.led a
  rw [hx]
  exact List.cons_ne_nil _ _

/-- Two texts that begin alike begin with the same word. -/
theorem eq_of_append {a b : α} {s t : List β} (heq : word a ++ s = word b ++ t) :
    a = b ∧ s = t := by
  have hab : a = b := by
    rcases List.prefix_or_prefix_of_prefix (List.prefix_append (word a) s)
      (heq ▸ List.prefix_append (word b) t) with hp | hp
    · exact h.eq_of_begins hp
    · exact (h.eq_of_begins hp).symm
  subst hab
  exact ⟨rfl,List.append_cancel_left heq⟩

theorem prefix_of_flatMap {as bs : List α} (hp : as.flatMap word <+: bs.flatMap word) : as <+: bs := by
  induction as generalizing bs with
  | nil => exact List.nil_prefix
  | cons a as ih =>
    obtain ⟨t,ht⟩ := hp
    rw [List.flatMap_cons,List.append_assoc] at ht
    cases bs with
    | nil => exact absurd (List.append_eq_nil_iff.mp ht).1 (h.word_ne_nil a)
    | cons b bs =>
      rw [List.flatMap_cons] at ht
      obtain ⟨rfl,hrest⟩ := h.eq_of_append ht
      exact List.cons_prefix_cons.mpr ⟨rfl,ih ⟨t,hrest⟩⟩

/-- What begins with a leading symbol begins where a word does. -/
theorem boundary {bs : List α} : ∀ {p : List β} {x : β} {t : List β}, lead x →
    bs.flatMap word = p ++ x :: t → ∃ bs', bs' <:+ bs ∧ bs'.flatMap word = x :: t := by
  induction bs with
  | nil =>
    intro p x t _ heq
    exact absurd heq.symm (by simp)
  | cons b bs ih =>
    intro p x t hx heq
    obtain ⟨y,ys,hy,-,hys⟩ := h.led b
    cases p with
    | nil => exact ⟨b :: bs,List.suffix_refl _,heq⟩
    | cons z p =>
      rw [List.flatMap_cons,hy,List.cons_append,List.cons_append,List.cons.injEq] at heq
      -- the leading symbol is not within the first word, so what stands before it holds that word
      rcases List.append_eq_append_iff.mp heq.2 with ⟨q,hq,hrest⟩ | ⟨q,hq,hrest⟩
      · obtain ⟨bs',hsuffix,hbs'⟩ := ih hx hrest
        exact ⟨bs',hsuffix.trans (List.suffix_cons b bs),hbs'⟩
      · cases q with
        | nil =>
          rw [List.nil_append] at hrest
          exact ⟨bs,List.suffix_cons b bs,hrest.symm⟩
        | cons w q =>
          rw [List.cons_append,List.cons.injEq] at hrest
          have hmem : x ∈ ys := by
            rw [hq,hrest.1]
            simp
          exact absurd hx (hys x hmem)

/-- A text is part of another if and only if its code is part of the other's. -/
theorem flatMap_infix_iff {as bs : List α} : as.flatMap word <:+: bs.flatMap word ↔ as <:+: bs := by
  constructor
  · intro hpart
    cases as with
    | nil => exact List.nil_infix
    | cons a as =>
      obtain ⟨p,q,hpq⟩ := hpart
      obtain ⟨x,xs,hx,hlead,-⟩ := h.led a
      have hat : bs.flatMap word = p ++ x :: (xs ++ as.flatMap word ++ q) := by
        rw [← hpq,List.flatMap_cons,hx]
        simp
      obtain ⟨bs',hsuffix,hbs'⟩ := h.boundary hlead hat
      have hbegins : (a :: as).flatMap word <+: bs'.flatMap word := by
        rw [hbs',List.flatMap_cons,hx]
        exact ⟨q,by simp⟩
      exact (h.prefix_of_flatMap hbegins).isInfix.trans hsuffix.isInfix
  · rintro ⟨p,q,rfl⟩
    rw [List.flatMap_append,List.flatMap_append]
    exact ⟨_,_,rfl⟩

theorem flatMap_inj {as bs : List α} : as.flatMap word = bs.flatMap word ↔ as = bs := by
  refine ⟨fun heq => ?_,congrArg _⟩
  have hab := h.prefix_of_flatMap (heq ▸ List.prefix_refl _ : as.flatMap word <+: bs.flatMap word)
  have hba := h.prefix_of_flatMap (heq ▸ List.prefix_refl _ : bs.flatMap word <+: as.flatMap word)
  exact hab.eq_of_length (Nat.le_antisymm hab.length_le hba.length_le)

end SelfSync

end Rav
