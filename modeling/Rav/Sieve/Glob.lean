import Mathlib.Data.List.Basic
import Mathlib.Data.List.Infix

/-!
# Sieve: wildcards

The match type `:matches` (RFC 5228, section 2.7.1), over any characters and any comparator that maps
characters before it compares them. A backslash takes the character after it literally; a pattern that
ends in one matches nothing.

## Main definitions

- `Wildcards`, `GlobItem`, `Wildcards.parse` — patterns
- `matchItems`, `Wildcards.globMatches` — what they match
- `Wildcards.prefix_exact_iff`, `suffix_exact_iff` — when a wildcard at one end matches exactly the
  values with a given text at the other
-/

namespace Rav.Sieve

universe u

/-- The characters with a meaning in patterns. -/
structure Wildcards (α : Type u) where
  star : α
  quest : α
  backslash : α

inductive GlobItem (α : Type u)
  | any
  | one
  | lit (c : α)
  deriving DecidableEq, Repr

variable {α : Type u} [DecidableEq α]

namespace Wildcards

variable (w : Wildcards α)

/-- A character without a backslash before it. -/
def item (c : α) : GlobItem α := if c = w.star then .any else if c = w.quest then .one else .lit c

def parse : List α → Option (List (GlobItem α))
  | [] => some []
  | [c] => if c = w.backslash then none else some [w.item c]
  | c :: d :: cs =>
    if c = w.backslash then (parse cs).map (.lit d :: ·) else (parse (d :: cs)).map (w.item c :: ·)

/-- The character stands for itself. -/
def Plain (c : α) : Prop := c ≠ w.star ∧ c ≠ w.quest ∧ c ≠ w.backslash

instance decidablePlain (c : α) : Decidable (w.Plain c) :=
  inferInstanceAs (Decidable (c ≠ w.star ∧ c ≠ w.quest ∧ c ≠ w.backslash))

end Wildcards

/-- The whole value is matched. -/
def matchItems (fold : α → α) : List (GlobItem α) → List α → Bool
  | [], value => value.isEmpty
  | .any :: is, value => value.tails.any (matchItems fold is)
  | .one :: is, value =>
    match value with
    | [] => false
    | _ :: value => matchItems fold is value
  | .lit c :: is, value =>
    match value with
    | [] => false
    | d :: value => decide (fold d = fold c) && matchItems fold is value

def Wildcards.globMatches (w : Wildcards α) (fold : α → α) (pattern value : List α) : Bool :=
  (w.parse pattern).any (fun is => matchItems fold is value)

/-! ### Literal texts -/

section Literals

variable {fold : α → α} {is : List (GlobItem α)} {value : List α}

theorem matchItems_any : matchItems fold (.any :: is) value = true ↔
    ∃ a b, value = a ++ b ∧ matchItems fold is b = true := by
  simp only [matchItems,List.any_eq_true,List.mem_tails]
  constructor
  · rintro ⟨b,⟨a,rfl⟩,hb⟩
    exact ⟨a,b,rfl,hb⟩
  · rintro ⟨a,b,rfl,hb⟩
    exact ⟨b,⟨a,rfl⟩,hb⟩

theorem matchItems_lits (u : List α) : matchItems fold (u.map .lit ++ is) value = true ↔
    ∃ a b, value = a ++ b ∧ a.map fold = u.map fold ∧ matchItems fold is b = true := by
  induction u generalizing value with
  | nil => simp
  | cons c u ih =>
    cases value with
    | nil => simp [matchItems]
    | cons d value =>
      simp only [List.map_cons,List.cons_append,matchItems,Bool.and_eq_true,decide_eq_true_eq,ih]
      constructor
      · rintro ⟨hd,a,b,rfl,ha,hb⟩
        exact ⟨d :: a,b,rfl,by rw [List.map_cons,hd,ha],hb⟩
      · rintro ⟨a,b,hab,ha,hb⟩
        cases a with
        | nil => simp at ha
        | cons d' a =>
          obtain ⟨rfl,rfl⟩ := List.cons.inj hab
          obtain ⟨hd,ha⟩ := List.cons.inj ha
          exact ⟨hd,a,b,rfl,ha,hb⟩

omit [DecidableEq α] in
theorem prefix_map_iff (u : List α) : u.map fold <+: value.map fold ↔
    ∃ a b, value = a ++ b ∧ a.map fold = u.map fold := by
  constructor
  · rintro ⟨t,ht⟩
    obtain ⟨a,b,rfl,ha,-⟩ := List.map_eq_append_iff.mp ht.symm
    exact ⟨a,b,rfl,ha⟩
  · rintro ⟨a,b,rfl,ha⟩
    exact ⟨b.map fold,by rw [List.map_append,ha]⟩

omit [DecidableEq α] in
theorem suffix_map_iff (u : List α) : u.map fold <:+ value.map fold ↔
    ∃ a b, value = a ++ b ∧ b.map fold = u.map fold := by
  constructor
  · rintro ⟨t,ht⟩
    obtain ⟨a,b,rfl,-,hb⟩ := List.map_eq_append_iff.mp ht.symm
    exact ⟨a,b,rfl,hb⟩
  · rintro ⟨a,b,rfl,hb⟩
    exact ⟨a.map fold,by rw [List.map_append,hb]⟩

end Literals

namespace Wildcards

variable (w : Wildcards α)

theorem item_of_plain {c : α} (hc : w.Plain c) : w.item c = .lit c := by
  rw [item,if_neg hc.1,if_neg hc.2.1]

theorem parse_cons {c : α} (hc : c ≠ w.backslash) (p : List α) :
    w.parse (c :: p) = (w.parse p).map (w.item c :: ·) := by
  cases p with
  | nil => simp [parse,hc]
  | cons d p => rw [parse,if_neg hc]

theorem parse_escape (d : α) (p : List α) :
    w.parse (w.backslash :: d :: p) = (w.parse p).map (.lit d :: ·) := by
  rw [parse,if_pos rfl]

theorem parse_plain {u : List α} (hu : ∀ c ∈ u, w.Plain c) (p : List α) :
    w.parse (u ++ p) = (w.parse p).map (u.map .lit ++ ·) := by
  induction u with
  | nil => simp
  | cons c u ih =>
    obtain ⟨hc,hu⟩ := List.forall_mem_cons.mp hu
    rw [List.cons_append,parse_cons w hc.2.2,item_of_plain w hc,ih hu,Option.map_map]
    rfl

end Wildcards

/-! ### A short value that is matched -/

/-- The literals of a pattern, and `x` for every `?`. -/
def sample (x : α) (is : List (GlobItem α)) : List α :=
  is.flatMap (fun i => match i with
    | .any => []
    | .one => [x]
    | .lit c => [c])

theorem matchItems_sample (fold : α → α) (x : α) (is : List (GlobItem α)) :
    matchItems fold is (sample x is) = true := by
  induction is with
  | nil => rfl
  | cons i is ih =>
    cases i with
    | any => exact matchItems_any.mpr ⟨[],_,rfl,ih⟩
    | one => exact ih
    | lit c => exact Bool.and_eq_true_iff.mpr ⟨decide_eq_true rfl,ih⟩

namespace Wildcards

variable (w : Wildcards α)

theorem length_sample_item (x c : α) : (sample x [w.item c]).length ≤ 1 := by
  unfold item
  split
  · exact Nat.zero_le 1
  · split <;> exact Nat.le_refl 1

/-- No pattern asks for more characters than it has. -/
theorem length_sample_le (x : α) {p : List α} {is : List (GlobItem α)} (h : w.parse p = some is) :
    (sample x is).length ≤ p.length := by
  induction p using Wildcards.parse.induct w generalizing is with
  | case1 =>
    obtain rfl := Option.some.inj h
    exact Nat.le_refl 0
  | case2 => simp [parse] at h
  | case3 c hc =>
    rw [parse,if_neg hc] at h
    obtain rfl := Option.some.inj h
    exact w.length_sample_item x c
  | case4 d cs ih =>
    rw [parse_escape] at h
    obtain ⟨is',h',rfl⟩ := Option.map_eq_some_iff.mp h
    have := ih h'
    simp only [sample,List.flatMap_cons,List.length_append,List.length_cons,List.length_nil] at this ⊢
    omega
  | case5 c d cs hc ih =>
    rw [parse_cons w hc] at h
    obtain ⟨is',h',rfl⟩ := Option.map_eq_some_iff.mp h
    have h1 := w.length_sample_item x c
    have := ih h'
    simp only [sample,List.flatMap_cons,List.flatMap_nil,List.append_nil,List.length_append,
      List.length_cons] at h1 this ⊢
    omega

/-- A wildcard at the end asks for no character. -/
theorem exists_parse_star (hsb : w.star ≠ w.backslash) (x : α) (p : List α) :
    ∃ is, w.parse (p ++ [w.star]) = some is ∧ (sample x is).length ≤ p.length := by
  induction p using Wildcards.parse.induct w with
  | case1 => exact ⟨[.any],by simp [parse,item,hsb],Nat.le_refl 0⟩
  | case2 => exact ⟨[.lit w.star],by simp [parse],Nat.le_refl 1⟩
  | case3 c hc =>
    refine ⟨[w.item c,.any],by simp [parse,item,hc,hsb],?_⟩
    have h1 := w.length_sample_item x c
    simpa [sample] using h1
  | case4 d cs ih =>
    obtain ⟨is,h,hle⟩ := ih
    refine ⟨.lit d :: is,?_,?_⟩
    · rw [List.cons_append,List.cons_append,parse_escape,h]
      rfl
    · simp only [sample,List.flatMap_cons,List.length_append,List.length_cons,List.length_nil] at hle ⊢
      omega
  | case5 c d cs hc ih =>
    obtain ⟨is,h,hle⟩ := ih
    have h1 := w.length_sample_item x c
    refine ⟨w.item c :: is,?_,?_⟩
    · rw [List.cons_append,parse_cons w hc,h]
      rfl
    · simp only [sample,List.flatMap_cons,List.flatMap_nil,List.append_nil,List.length_append,
        List.length_cons] at h1 hle ⊢
      omega

/-- A text with a special character has a first one. -/
theorem exists_first {v : List α} (hv : ¬∀ c ∈ v, w.Plain c) :
    ∃ u c t, v = u ++ c :: t ∧ (∀ d ∈ u, w.Plain d) ∧ ¬w.Plain c := by
  induction v with
  | nil => simp at hv
  | cons c v ih =>
    by_cases hc : w.Plain c
    · obtain ⟨u,d,t,rfl,hu,hd⟩ := ih (fun h => hv (List.forall_mem_cons.mpr ⟨hc,h⟩))
      exact ⟨c :: u,d,t,rfl,List.forall_mem_cons.mpr ⟨hc,hu⟩,hd⟩
    · exact ⟨[],c,v,rfl,nofun,hc⟩

/-! ### Texts at one end -/

section Exact

variable (fold : α → α)

theorem globMatches_prefix (hsb : w.star ≠ w.backslash) {v : List α} (hv : ∀ c ∈ v, w.Plain c)
    (value : List α) :
    w.globMatches fold (v ++ [w.star]) value = true ↔ v.map fold <+: value.map fold := by
  have hstar : w.parse [w.star] = some [.any] := by simp [parse,item,hsb]
  rw [globMatches,parse_plain w hv,hstar,prefix_map_iff]
  simp only [Option.map_some,Option.any_some,matchItems_lits]
  refine exists_congr fun a => exists_congr fun b => and_congr_right fun _ => and_iff_left ?_
  exact matchItems_any.mpr ⟨b,[],(List.append_nil b).symm,rfl⟩

theorem globMatches_suffix (hsb : w.star ≠ w.backslash) {v : List α} (hv : ∀ c ∈ v, w.Plain c)
    (value : List α) :
    w.globMatches fold (w.star :: v) value = true ↔ v.map fold <:+ value.map fold := by
  have hparse : w.parse (w.star :: v) = some (.any :: v.map .lit) := by
    have h := parse_plain w hv []
    rw [List.append_nil] at h
    rw [parse_cons w hsb,h]
    simp [parse,item]
  rw [globMatches,hparse,suffix_map_iff,Option.any_some,matchItems_any]
  refine exists_congr fun a => exists_congr fun b => and_congr_right fun _ => ?_
  have h : matchItems fold (v.map .lit ++ []) b = true ↔
      ∃ a b', b = a ++ b' ∧ a.map fold = v.map fold ∧ matchItems fold [] b' = true :=
    matchItems_lits v
  rw [List.append_nil] at h
  rw [h]
  constructor
  · rintro ⟨a,b',rfl,ha,hb'⟩
    rw [List.isEmpty_iff.mp hb',List.append_nil]
    exact ha
  · intro hb
    exact ⟨b,[],(List.append_nil b).symm,hb,rfl⟩

/-- A special character, not a backslash at the end: a value is matched that is no longer than the text
and does not read like it. -/
theorem sample_special {x : α} (hx : fold x ≠ fold w.quest) {z : List α}
    (hz : ∀ p is, w.parse (p ++ z) = some is → (sample x is).length ≤ p.length) {c : α} {t : List α}
    (hc : ¬w.Plain c) (hback : c = w.backslash → t ≠ []) {is : List (GlobItem α)}
    (h : w.parse (c :: t ++ z) = some is) :
    (sample x is).length ≤ (c :: t).length ∧ (sample x is).map fold ≠ (c :: t).map fold := by
  by_cases hcb : c = w.backslash
  · subst hcb
    obtain ⟨d,t,rfl⟩ := List.exists_cons_of_ne_nil (hback rfl)
    rw [List.cons_append,List.cons_append,parse_escape] at h
    obtain ⟨is,hrest,rfl⟩ := Option.map_eq_some_iff.mp h
    have hle := hz t is hrest
    have hlen : (sample x (.lit d :: is)).length < (w.backslash :: d :: t).length := by
      simp only [sample,List.flatMap_cons,List.length_append,List.length_cons,List.length_nil] at hle ⊢
      omega
    refine ⟨Nat.le_of_lt hlen,fun heq => ?_⟩
    have := congrArg List.length heq
    rw [List.length_map,List.length_map] at this
    omega
  · rw [List.cons_append,parse_cons w hcb] at h
    obtain ⟨is,hrest,rfl⟩ := Option.map_eq_some_iff.mp h
    have hle := hz t is hrest
    by_cases hcs : c = w.star
    · have hlen : (sample x (w.item c :: is)).length < (c :: t).length := by
        simp only [sample,item,if_pos hcs,List.flatMap_cons,List.nil_append,List.length_cons] at hle ⊢
        omega
      refine ⟨Nat.le_of_lt hlen,fun heq => ?_⟩
      have := congrArg List.length heq
      rw [List.length_map,List.length_map] at this
      omega
    · have hcq : c = w.quest := by
        by_contra hq
        exact hc ⟨hcs,hq,hcb⟩
      have hitem : w.item c = .one := by rw [item,if_neg hcs,if_pos hcq]
      have hone : sample x (w.item c :: is) = x :: sample x is := by
        rw [hitem]
        rfl
      rw [hone]
      refine ⟨Nat.succ_le_succ hle,fun heq => hx ?_⟩
      rw [← hcq]
      exact (List.cons.inj heq).1

/-- A text followed by a wildcard matches exactly the values that begin with it if and only if it has
no special character. -/
theorem prefix_exact_iff (hsb : fold w.star ≠ fold w.backslash) {x : α} (hx : fold x ≠ fold w.quest)
    (v : List α) :
    (∀ value, w.globMatches fold (v ++ [w.star]) value = true ↔ v.map fold <+: value.map fold) ↔
      ∀ c ∈ v, w.Plain c := by
  have hne : w.star ≠ w.backslash := fun h => hsb (congrArg fold h)
  refine ⟨fun h => ?_,fun hv => w.globMatches_prefix fold hne hv⟩
  by_contra hv
  obtain ⟨u,c,t,rfl,hu,hc⟩ := w.exists_first hv
  obtain ⟨is,hparse,-⟩ := w.exists_parse_star hne x (c :: t)
  have hwhole : ∀ value, w.globMatches fold (u ++ c :: t ++ [w.star]) value =
      matchItems fold (u.map .lit ++ is) value := by
    intro value
    rw [globMatches,List.append_assoc,parse_plain w hu,hparse]
    rfl
  by_cases hback : c = w.backslash → t ≠ []
  · obtain ⟨hle,hdiff⟩ := w.sample_special fold hx (z := [w.star]) (fun p is' h' => by
      obtain ⟨is'',h'',hle⟩ := w.exists_parse_star hne x p
      rw [h'] at h''
      exact Option.some.inj h'' ▸ hle) hc hback hparse
    have hmatch : matchItems fold (u.map .lit ++ is) (u ++ sample x is) = true :=
      (matchItems_lits u).mpr ⟨u,_,rfl,rfl,matchItems_sample fold x is⟩
    have hbegins := (h (u ++ sample x is)).mp ((hwhole _).trans hmatch)
    rw [List.map_append, List.map_append, List.prefix_append_right_inj] at hbegins
    refine hdiff (hbegins.eq_of_length_le ?_).symm
    rw [List.length_map,List.length_map]
    exact hle
  · obtain ⟨rfl,ht⟩ := Classical.not_imp.mp hback
    obtain rfl := not_not.mp ht
    obtain rfl : [.lit w.star] = is := by
      have hescape := w.parse_escape w.star []
      exact Option.some.inj (hescape.symm.trans hparse)
    have hmatch := (h (u ++ [w.backslash])).mpr (List.prefix_refl _)
    rw [hwhole,matchItems_lits] at hmatch
    obtain ⟨a,b,hab,ha,hb⟩ := hmatch
    have hlen : a.length = u.length := by simpa using congrArg List.length ha
    obtain ⟨-,rfl⟩ := List.append_inj hab hlen.symm
    simp only [matchItems,Bool.and_eq_true,decide_eq_true_eq] at hb
    exact hsb hb.1.symm

/-- A text after a wildcard matches exactly the values that end with it if and only if it has no special
character. -/
theorem suffix_exact_iff (hsb : w.star ≠ w.backslash) {x : α} (hx : fold x ≠ fold w.quest)
    (v : List α) :
    (∀ value, w.globMatches fold (w.star :: v) value = true ↔ v.map fold <:+ value.map fold) ↔
      ∀ c ∈ v, w.Plain c := by
  refine ⟨fun h => ?_,fun hv => w.globMatches_suffix fold hsb hv⟩
  by_contra hv
  obtain ⟨u,c,t,rfl,hu,hc⟩ := w.exists_first hv
  have hparse : w.parse (w.star :: (u ++ c :: t)) =
      (w.parse (c :: t)).map (fun is => .any :: (u.map .lit ++ is)) := by
    rw [parse_cons w hsb,parse_plain w hu,Option.map_map]
    refine congrArg (fun f => Option.map f _) (funext fun is => ?_)
    simp [item]
  have hself := (h (u ++ c :: t)).mpr (List.suffix_refl _)
  rw [globMatches,hparse] at hself
  cases his : w.parse (c :: t) with
  | none => simp [his] at hself
  | some is =>
    have hback : c = w.backslash → t ≠ [] := by
      rintro rfl rfl
      simp [parse] at his
    have hz : ∀ p is', w.parse (p ++ []) = some is' → (sample x is').length ≤ p.length :=
      fun p is' h' => w.length_sample_le x (List.append_nil p ▸ h')
    obtain ⟨hle,hdiff⟩ := w.sample_special fold hx hz hc hback (List.append_nil (c :: t) ▸ his)
    have hmatch : w.globMatches fold (w.star :: (u ++ c :: t)) (u ++ sample x is) = true := by
      rw [globMatches,hparse,his]
      exact matchItems_any.mpr ⟨[],_,rfl,
        (matchItems_lits u).mpr ⟨u,_,rfl,rfl,matchItems_sample fold x is⟩⟩
    have hsuffix := (h (u ++ sample x is)).mp hmatch
    have heq := hsuffix.eq_of_length_le (by
      rw [List.length_map,List.length_map,List.length_append,List.length_append]
      exact Nat.add_le_add_left hle _)
    rw [List.map_append,List.map_append] at heq
    exact hdiff (List.append_cancel_left heq).symm

end Exact

end Wildcards

end Rav.Sieve
