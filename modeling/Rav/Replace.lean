import Mathlib.Data.List.DropRight
import Rav.Checked
import Rav.Str

/-!
# Replacing a text

Where a text first occurs in another, what replacing it does, and texts cut into words: a text without
a separator is replaced word by word.

## Main definitions

- `splitOnce_eq_none`, `splitOnce_eq_some` — the first occurrence
- `strFind` — its byte offset
- `splitOnce_delimiter` — a delimiter is found where it was put
- `dropPrefixes_append`, `trimText_append` — trimming
- `replaceText` — `str::replace` on characters
- `words`, `mapWords` — the words between separators
- `replaceText_mapWords` — replacing a text in one word after the other
-/

namespace Rav

/-! ### The first occurrence -/

section Once

variable {p s a b : List Char} {c : Char}

theorem splitOnce_front (h : p <+: c :: s) : splitOnce p (c :: s) = some ([],(c :: s).drop p.length) := by
  rw [splitOnce, if_pos (List.isPrefixOf_iff_prefix.mpr h)]

theorem splitOnce_cons (h : ¬p <+: c :: s) :
    splitOnce p (c :: s) = (splitOnce p s).map (fun r => (c :: r.1,r.2)) := by
  rw [splitOnce, if_neg (mt List.isPrefixOf_iff_prefix.mp h)]

theorem splitOnce_eq_none : splitOnce p s = none ↔ ¬p <:+: s := by
  induction s with
  | nil =>
    rw [splitOnce, List.infix_nil]
    split
    · next h => exact iff_of_false (Option.some_ne_none _) fun hnot => hnot h
    · next h => exact iff_of_true rfl h
  | cons c s ih =>
    rw [List.infix_cons_iff]
    by_cases h : p <+: c :: s
    · rw [splitOnce_front h]
      exact iff_of_false (Option.some_ne_none _) fun hnot => hnot (Or.inl h)
    · rw [splitOnce_cons h, Option.map_eq_none_iff, ih, or_iff_right h]

/-- The first occurrence of a nonempty text is at the front, or later. -/
theorem splitOnce_cases (hp : p ≠ []) (h : splitOnce p s = some (b,a)) :
    b = [] ∧ p ++ a = s ∧ s ≠ [] ∨
      ∃ c b' s', b = c :: b' ∧ s = c :: s' ∧ ¬p <+: c :: s' ∧ splitOnce p s' = some (b',a) := by
  cases s with
  | nil =>
    rw [splitOnce, if_neg hp] at h
    exact absurd h (Option.some_ne_none _).symm
  | cons c s =>
    by_cases hfront : p <+: c :: s
    · rw [splitOnce_front hfront] at h
      obtain ⟨rfl,rfl⟩ := Prod.mk.inj (Option.some.inj h)
      exact Or.inl ⟨rfl,List.prefix_iff_eq_append.mp hfront,List.cons_ne_nil c s⟩
    · rw [splitOnce_cons hfront] at h
      obtain ⟨⟨b',a'⟩,h',hab⟩ := Option.map_eq_some_iff.mp h
      obtain ⟨rfl,rfl⟩ := Prod.mk.inj hab
      exact Or.inr ⟨c,b',s,rfl,rfl,hfront,h'⟩

/-- There is none before it. -/
theorem splitOnce_eq_some (hp : p ≠ []) (h : splitOnce p s = some (b,a)) :
    s = b ++ p ++ a ∧ ¬p <:+: b := by
  induction s generalizing b with
  | nil =>
    rcases splitOnce_cases hp h with ⟨-,-,hne⟩ | ⟨_,_,_,-,heq,-⟩
    · exact absurd rfl hne
    · exact absurd heq (List.cons_ne_nil _ _).symm
  | cons c s ih =>
    rcases splitOnce_cases hp h with ⟨rfl,heq,-⟩ | ⟨d,b',s',rfl,heq,hfront,h'⟩
    · exact ⟨heq.symm,mt List.infix_nil.mp hp⟩
    · obtain ⟨rfl,rfl⟩ := List.cons.inj heq
      obtain ⟨hs,hfirst⟩ := ih h'
      refine ⟨by rw [hs, List.cons_append, List.cons_append],fun hwithin => ?_⟩
      rcases List.infix_cons_iff.mp hwithin with hhead | htail
      · refine hfront (hhead.trans ?_)
        rw [hs, List.append_assoc]
        exact (List.prefix_cons_inj c).mpr (List.prefix_append b' _)
      · exact hfirst htail

/-- With all that follows, a first occurrence is the first one of this text. -/
theorem splitOnce_append (hp : p ≠ []) (h : splitOnce p s = some (b,a)) :
    splitOnce (p ++ a) s = some (b,[]) := by
  induction s generalizing b with
  | nil =>
    rcases splitOnce_cases hp h with ⟨-,-,hne⟩ | ⟨_,_,_,-,heq,-⟩
    · exact absurd rfl hne
    · exact absurd heq (List.cons_ne_nil _ _).symm
  | cons c s ih =>
    rcases splitOnce_cases hp h with ⟨rfl,heq,-⟩ | ⟨d,b',s',rfl,heq,hfront,h'⟩
    · rw [heq, splitOnce_front (List.prefix_refl _), List.drop_length]
    · obtain ⟨rfl,rfl⟩ := List.cons.inj heq
      have hlonger : ¬p ++ a <+: c :: s := fun hlong => hfront ((List.prefix_append p a).trans hlong)
      rw [splitOnce_cons hlonger, ih h']
      rfl

/-- Text without the first character of a delimiter is skipped. -/
theorem splitOnce_skip (ha : c ∉ a) (s : List Char) :
    splitOnce (c :: p) (a ++ s) = (splitOnce (c :: p) s).map (fun r => (a ++ r.1, r.2)) := by
  induction a with
  | nil => exact Option.map_id'.symm
  | cons d a ih =>
    obtain ⟨hne, ha⟩ := List.ne_and_not_mem_of_not_mem_cons ha
    have hfront : ¬(c :: p) <+: d :: (a ++ s) := fun h => hne (List.cons_prefix_cons.mp h).1
    rw [List.cons_append, splitOnce_cons hfront, ih ha, Option.map_map]
    rfl

/-- A delimiter whose first character occurs once does not overlap with itself. -/
theorem not_prefix_delimiter (hc : c ∉ p) (hne : a ≠ []) (ha : ¬(c :: p) <:+: a) (rest : List Char) :
    ¬(c :: p) <+: a ++ (c :: (p ++ rest)) := by
  intro h
  cases a with
  | nil => exact hne rfl
  | cons d a =>
    rw [List.cons_append, List.cons_prefix_cons] at h
    obtain ⟨rfl, h⟩ := h
    obtain hshort | ⟨q, rfl⟩ := List.prefix_or_prefix_of_prefix h (List.prefix_append a _)
    · exact ha ((List.prefix_cons_inj c).mpr hshort).isInfix
    · rw [List.prefix_append_right_inj] at h
      cases q with
      | nil =>
        rw [List.append_nil] at ha
        exact ha (List.infix_refl _)
      | cons e q =>
        obtain ⟨rfl, -⟩ := List.cons_prefix_cons.mp h
        exact hc (List.mem_append_right a List.mem_cons_self)

/-- It is found where it was put, if it does not stand before. -/
theorem splitOnce_delimiter (hc : c ∉ p) (ha : ¬(c :: p) <:+: a) (rest : List Char) :
    splitOnce (c :: p) (a ++ (c :: (p ++ rest))) = some (a, rest) := by
  induction a with
  | nil =>
    have hfront : (c :: p) <+: c :: (p ++ rest) := List.prefix_append (c :: p) rest
    rw [List.nil_append, splitOnce_front hfront]
    exact congrArg some (congrArg (Prod.mk []) (@List.drop_left _ (c :: p) _))
  | cons d a ih =>
    have hfront := not_prefix_delimiter hc (List.cons_ne_nil d a) ha rest
    rw [List.infix_cons_iff, not_or] at ha
    rw [List.cons_append] at hfront ⊢
    rw [splitOnce_cons hfront, ih ha.2]
    rfl

/-- `str::find`: the byte offset of the first occurrence. -/
def strFind (p s : List Char) : Option Nat := (splitOnce p s).map (fun r => byteLength r.1)

theorem strFind_none (h : splitOnce p s = none) : strFind p s = none := by
  rw [strFind, h]
  rfl

theorem strFind_some (h : splitOnce p s = some (b,a)) : strFind p s = some (byteLength b) := by
  rw [strFind, h]
  rfl

end Once

/-! ### Trimming -/

section Trimming

variable {p : List Char}

/-- One round of trimming. -/
def dropPrefix (p s : List Char) : List Char := if p.isPrefixOf s then s.drop p.length else s

theorem dropPrefixes_eq (s : List Char) : dropPrefixes p s = (dropPrefix p)^[s.length] s := by
  unfold dropPrefixes
  rw [List.foldl_const, List.length_range]
  rfl

theorem dropPrefix_append (p s : List Char) : dropPrefix p (p ++ s) = s := by
  rw [dropPrefix, if_pos (List.isPrefixOf_iff_prefix.mpr (List.prefix_append p s)), List.drop_left]

theorem dropPrefix_of_not {s : List Char} (h : ¬p <+: s) : dropPrefix p s = s := by
  rw [dropPrefix, if_neg (mt List.isPrefixOf_iff_prefix.mp h)]

/-- A round for every character is enough. -/
theorem iterate_dropPrefix (hp : p ≠ []) {s : List Char} {n m : Nat} (hn : s.length ≤ n)
    (hm : s.length ≤ m) : (dropPrefix p)^[n] s = (dropPrefix p)^[m] s := by
  induction n generalizing s m with
  | zero =>
    obtain rfl := List.length_eq_zero_iff.mp (Nat.le_zero.mp hn)
    have hnil : dropPrefix p [] = [] := dropPrefix_of_not (mt List.prefix_nil.mp hp)
    rw [Function.iterate_fixed hnil, Function.iterate_fixed hnil]
  | succ n ih =>
    by_cases h : p <+: s
    · obtain ⟨s, rfl⟩ := h
      have hpos := List.length_pos_of_ne_nil hp
      rw [List.length_append] at hn hm
      obtain ⟨m, rfl⟩ := Nat.exists_eq_succ_of_ne_zero (show m ≠ 0 by omega)
      rw [Function.iterate_succ_apply, Function.iterate_succ_apply, dropPrefix_append,
        ih (m := m) (by omega) (by omega)]
    · have hfixed := dropPrefix_of_not h
      rw [Function.iterate_fixed hfixed, Function.iterate_fixed hfixed]

theorem dropPrefixes_append (hp : p ≠ []) (s : List Char) : dropPrefixes p (p ++ s) = dropPrefixes p s := by
  have hpos := List.length_pos_of_ne_nil hp
  have hlength : (p ++ s).length = p.length - 1 + s.length + 1 := by
    rw [List.length_append]
    omega
  rw [dropPrefixes_eq, dropPrefixes_eq, hlength, Function.iterate_succ_apply, dropPrefix_append]
  exact iterate_dropPrefix hp (Nat.le_add_left _ _) (Nat.le_refl _)

theorem dropPrefixes_of_not {s : List Char} (h : ¬p <+: s) : dropPrefixes p s = s := by
  rw [dropPrefixes_eq, Function.iterate_fixed (dropPrefix_of_not h)]

theorem dropPrefixes_suffix (s : List Char) : dropPrefixes p s <:+ s := by
  rw [dropPrefixes_eq]
  generalize s.length = n
  induction n with
  | zero => exact List.suffix_refl s
  | succ n ih =>
    rw [Function.iterate_succ_apply', dropPrefix]
    split
    · exact (List.drop_suffix _ _).trans ih
    · exact ih

theorem rdropWhile_append {q : Char → Bool} {d : Char} (hd : q d = false) (a v : List Char) :
    (a ++ d :: v).rdropWhile q = a ++ d :: v.rdropWhile q := by
  induction v using List.reverseRecOn with
  | nil => exact List.rdropWhile_concat_neg q a d (Bool.eq_false_iff.mp hd)
  | append_singleton v e ih =>
    rw [← List.cons_append, ← List.append_assoc]
    cases he : q e with
    | true => rw [List.rdropWhile_concat_pos q _ e he, List.rdropWhile_concat_pos q _ e he, ih]
    | false =>
      rw [List.rdropWhile_concat_neg q _ e (Bool.eq_false_iff.mp he),
        List.rdropWhile_concat_neg q _ e (Bool.eq_false_iff.mp he), List.append_assoc, List.cons_append]

end Trimming

/-- `str::trim`, on characters. -/
def trimText (s : List Char) : List Char := (s.dropWhile isWhitespace).rdropWhile isWhitespace

section TrimText

variable {c : Char} {s : List Char}

theorem trimText_cons (hc : isWhitespace c = false) (s : List Char) :
    trimText (c :: s) = c :: s.rdropWhile isWhitespace := by
  rw [trimText, List.dropWhile_cons_of_neg (Bool.eq_false_iff.mp hc)]
  exact rdropWhile_append hc [] s

theorem mem_of_mem_trimText (h : c ∈ trimText s) : c ∈ s :=
  (List.dropWhile_suffix _).mem ((List.rdropWhile_prefix _ _).mem h)

/-- A text begins, without the white space, with another character, if anything is left. -/
theorem trimText_cases (s : List Char) :
    trimText s = [] ∧ (∀ c ∈ s, isWhitespace c = true) ∨
      ∃ white c t, s = white ++ c :: t ∧ (∀ d ∈ white, isWhitespace d = true) ∧ isWhitespace c = false ∧
        trimText s = c :: t.rdropWhile isWhitespace := by
  induction s with
  | nil => exact Or.inl ⟨rfl, List.forall_mem_nil _⟩
  | cons a s ih =>
    cases ha : isWhitespace a with
    | false => exact Or.inr ⟨[], a, s, rfl, List.forall_mem_nil _, ha, trimText_cons ha s⟩
    | true =>
      have htail : trimText (a :: s) = trimText s := by
        rw [trimText, List.dropWhile_cons_of_pos ha]
        rfl
      rw [htail]
      obtain ⟨hnil, hwhite⟩ | ⟨white, c, t, rfl, hwhite, hc, heq⟩ := ih
      · exact Or.inl ⟨hnil, List.forall_mem_cons.mpr ⟨ha, hwhite⟩⟩
      · exact Or.inr ⟨a :: white, c, t, rfl, List.forall_mem_cons.mpr ⟨ha, hwhite⟩, hc, heq⟩

theorem trimText_append {white : List Char} (hwhite : ∀ d ∈ white, isWhitespace d = true)
    (hc : isWhitespace c = false) (t : List Char) :
    trimText (white ++ c :: t) = c :: t.rdropWhile isWhitespace := by
  rw [trimText, List.dropWhile_append_of_pos hwhite, ← trimText]
  exact trimText_cons hc t

/-- The end may be trimmed first. -/
theorem trimText_rdropWhile (s : List Char) : trimText (s.rdropWhile isWhitespace) = trimText s := by
  obtain ⟨hnil, hwhite⟩ | ⟨white, c, t, rfl, hwhite, hc, heq⟩ := trimText_cases s
  · rw [hnil, List.rdropWhile_eq_nil_iff.mpr hwhite]
    rfl
  · rw [heq, rdropWhile_append hc, trimText_append hwhite hc, List.rdropWhile_idempotent]

end TrimText

/-! ### Replacing -/

theorem toList_replaceChar (c : Char) (text s : String) :
    (replaceChar c text s).toList = s.toList.flatMap (fun d => if d = c then text.toList else [d]) :=
  String.toList_ofList

section Replacing

variable {p t s a b : List Char}

/-- `str::replace` of a nonempty text. -/
def replaceText (p t s : List Char) : List Char := t.intercalate (splitAll p s)

theorem strReplace_eq (pattern text s : String) :
    strReplace pattern text s = String.ofList (replaceText pattern.toList text.toList s.toList) := rfl

theorem length_lt_of_splitOnce (hp : p ≠ []) (h : splitOnce p s = some (b,a)) : a.length < s.length := by
  have hlength := congrArg List.length (splitOnce_eq_some hp h).1
  have hpos := List.length_pos_of_ne_nil hp
  rw [List.length_append, List.length_append] at hlength
  omega

/-- Fuel for every character is enough. -/
theorem splitFuel_eq (hp : p ≠ []) {n m : Nat} (hn : s.length < n) (hm : s.length < m) :
    splitFuel p n s = splitFuel p m s := by
  induction n generalizing s m with
  | zero => exact absurd hn (Nat.not_lt_zero _)
  | succ n ih =>
    cases m with
    | zero => exact absurd hm (Nat.not_lt_zero _)
    | succ m =>
      rw [splitFuel, splitFuel]
      cases h : splitOnce p s with
      | none => rfl
      | some r =>
        have hlength := length_lt_of_splitOnce hp h
        exact congrArg (List.cons r.1) (ih (by omega) (by omega))

theorem splitAll_none (h : ¬p <:+: s) : splitAll p s = [s] := by
  rw [splitAll, splitFuel, splitOnce_eq_none.mpr h]

theorem splitAll_some (hp : p ≠ []) (h : splitOnce p s = some (b,a)) :
    splitAll p s = b :: splitAll p a := by
  have hlength := length_lt_of_splitOnce hp h
  rw [splitAll, splitFuel, h]
  dsimp only
  rw [splitFuel_eq hp hlength (Nat.lt_succ_self a.length)]
  rfl

theorem replaceText_none (h : ¬p <:+: s) : replaceText p t s = s := by
  rw [replaceText, splitAll_none h]
  exact List.intercalate_singleton

theorem replaceText_some (hp : p ≠ []) (h : splitOnce p s = some (b,a)) :
    replaceText p t s = b ++ (t ++ replaceText p t a) := by
  have hrest : splitAll p a ≠ [] := splitFuel_ne_nil p _ a
  rw [replaceText, splitAll_some hp h, intercalate_cons hrest]
  rfl

theorem replaceText_front (hp : p ≠ []) (s : List Char) : replaceText p t (p ++ s) = t ++ replaceText p t s := by
  obtain ⟨c, p, rfl⟩ := List.exists_cons_of_ne_nil hp
  have hfront : splitOnce (c :: p) (c :: p ++ s) = some ([], s) :=
    (splitOnce_front (List.prefix_append (c :: p) s)).trans
      (congrArg some (congrArg (Prod.mk []) (@List.drop_left _ (c :: p) _)))
  exact replaceText_some hp hfront

theorem replaceText_cons {c : Char} (hp : p ≠ []) (h : ¬p <+: c :: s) :
    replaceText p t (c :: s) = c :: replaceText p t s := by
  cases hs : splitOnce p s with
  | none =>
    have hnone := splitOnce_eq_none.mp hs
    have hcons : ¬p <:+: c :: s := by
      rw [List.infix_cons_iff, not_or]
      exact ⟨h, hnone⟩
    rw [replaceText_none hcons, replaceText_none hnone]
  | some r =>
    have hcons : splitOnce p (c :: s) = some (c :: r.1, r.2) := by
      rw [splitOnce_cons h, hs]
      rfl
    rw [replaceText_some hp hcons, replaceText_some hp hs]
    rfl

/-- A text is read from the left: an occurrence is taken whole, any other character is passed over. -/
@[elab_as_elim]
theorem replaceText_induct {motive : List Char → Prop} (hp : p ≠ []) (nil : motive [])
    (found : ∀ s, motive s → motive (p ++ s))
    (passed : ∀ c s, ¬p <+: c :: s → motive s → motive (c :: s)) (s : List Char) : motive s := by
  induction hn : s.length using Nat.strong_induction_on generalizing s with
  | _ n ih =>
    cases s with
    | nil => exact nil
    | cons c s =>
      by_cases h : p <+: c :: s
      · obtain ⟨rest, hrest⟩ := h
        have hpos := List.length_pos_of_ne_nil hp
        have hlength := congrArg List.length hrest
        rw [List.length_append] at hlength
        rw [← hrest]
        exact found rest (ih rest.length (by omega) rest rfl)
      · rw [List.length_cons] at hn
        exact passed c s h (ih s.length (by omega) s rfl)

theorem length_replaceText_le (hp : p ≠ []) (ht : t.length ≤ p.length) (s : List Char) :
    (replaceText p t s).length ≤ s.length := by
  induction s using replaceText_induct hp with
  | nil =>
    rw [replaceText_none (mt List.infix_nil.mp hp)]
  | found s ih =>
    rw [replaceText_front hp, List.length_append, List.length_append]
    omega
  | passed c s h ih =>
    rw [replaceText_cons hp h]
    exact Nat.succ_le_succ ih

/-- A shorter text in place of what occurs. -/
theorem length_replaceText_lt (hp : p ≠ []) (ht : t.length < p.length) (h : p <:+: s) :
    (replaceText p t s).length < s.length := by
  induction s using replaceText_induct hp with
  | nil => exact absurd (List.infix_nil.mp h) hp
  | found s _ =>
    have hle := length_replaceText_le (t := t) hp ht.le s
    rw [replaceText_front hp, List.length_append, List.length_append]
    omega
  | passed c s hfront ih =>
    rw [List.infix_cons_iff, or_iff_right hfront] at h
    rw [replaceText_cons hp hfront]
    exact Nat.succ_lt_succ (ih h)

theorem replaceText_ne_nil (hp : p ≠ []) (ht : t ≠ []) (hs : s ≠ []) : replaceText p t s ≠ [] := by
  cases s using replaceText_induct hp with
  | nil => exact absurd rfl hs
  | found s =>
    rw [replaceText_front hp]
    exact List.append_ne_nil_of_left_ne_nil ht _
  | passed c s h =>
    rw [replaceText_cons hp h]
    exact List.cons_ne_nil _ _

/-- What no occurrence can end in stays. -/
theorem replaceText_append_end {e : Char} (hp : e ∈ p.getLast?) (he : e ∉ a) (s : List Char) :
    replaceText p t (s ++ a) = replaceText p t s ++ a := by
  have hne : p ≠ [] := by
    rintro rfl
    exact absurd hp (Option.not_mem_none e)
  have hbegins : ∀ {s : List Char}, p <+: s ++ a → p <+: s := by
    intro s h
    obtain hle | hle := Nat.le_total p.length s.length
    · exact List.prefix_of_prefix_length_le h (List.prefix_append s a) hle
    · obtain ⟨q, rfl⟩ := List.prefix_of_prefix_length_le (List.prefix_append s a) h hle
      rw [List.prefix_append_right_inj] at h
      cases q using List.reverseRecOn with
      | nil => rw [List.append_nil]
      | append_singleton q d =>
        rw [← List.append_assoc, List.getLast?_concat] at hp
        obtain rfl := Option.some.inj hp
        exact absurd (h.mem (List.mem_append_right q (List.mem_singleton_self d))) he
  induction s using replaceText_induct hne with
  | nil =>
    have hnot : ¬p <:+: a := fun h => he (h.mem (List.mem_of_mem_getLast? hp))
    rw [replaceText_none (mt List.infix_nil.mp hne)]
    exact replaceText_none hnot
  | found s ih => rw [List.append_assoc, replaceText_front hne, replaceText_front hne, ih, List.append_assoc]
  | passed c s h ih =>
    have hnot : ¬p <+: c :: (s ++ a) := fun hfront => h (hbegins (s := c :: s) hfront)
    rw [List.cons_append, replaceText_cons hne hnot, replaceText_cons hne h, ih, List.cons_append]

/-- An occurrence does not reach over a character that it does not have. -/
theorem prefix_append_cons_iff {e : Char} (he : e ∉ p) {v : List Char} :
    p <+: s ++ e :: v ↔ p <+: s := by
  refine ⟨fun h => ?_,fun h => h.trans (List.prefix_append s _)⟩
  rcases Nat.le_total p.length s.length with hle | hle
  · exact List.prefix_of_prefix_length_le h (List.prefix_append s _) hle
  · obtain ⟨q,rfl⟩ := List.prefix_of_prefix_length_le (List.prefix_append s _) h hle
    rw [List.prefix_append_right_inj] at h
    cases q with
    | nil => rw [List.append_nil]
    | cons d q =>
      obtain ⟨rfl,-⟩ := List.cons_prefix_cons.mp h
      exact absurd (List.mem_append_right s List.mem_cons_self) he

theorem splitOnce_before {e : Char} (hp : p ≠ []) (he : e ∉ p) (h : splitOnce p s = some (b,a))
    (v : List Char) : splitOnce p (s ++ e :: v) = some (b,a ++ e :: v) := by
  induction s generalizing b with
  | nil =>
    rcases splitOnce_cases hp h with ⟨-,-,hne⟩ | ⟨_,_,_,-,heq,-⟩
    · exact absurd rfl hne
    · exact absurd heq (List.cons_ne_nil _ _).symm
  | cons c s ih =>
    rcases splitOnce_cases hp h with ⟨rfl,heq,-⟩ | ⟨d,b',s',rfl,heq,hfront,h'⟩
    · have hall : c :: (s ++ e :: v) = p ++ (a ++ e :: v) := by
        rw [← List.append_assoc, heq, List.cons_append]
      rw [List.cons_append, splitOnce_front (hall ▸ List.prefix_append p _), hall, List.drop_left]
    · obtain ⟨rfl,rfl⟩ := List.cons.inj heq
      have hnot : ¬p <+: c :: (s ++ e :: v) := mt (prefix_append_cons_iff (s := c :: s) he).mp hfront
      rw [List.cons_append, splitOnce_cons hnot, ih h']
      rfl

theorem splitOnce_after {e : Char} (hp : p ≠ []) (he : e ∉ p) (h : ¬p <:+: s) (v : List Char) :
    splitOnce p (s ++ e :: v) = (splitOnce p v).map (fun r => (s ++ e :: r.1,r.2)) := by
  induction s with
  | nil =>
    have hnot : ¬p <+: e :: v := mt (prefix_append_cons_iff (s := []) he).mp (mt List.prefix_nil.mp hp)
    exact splitOnce_cons hnot
  | cons c s ih =>
    rw [List.infix_cons_iff, not_or] at h
    have hnot : ¬p <+: c :: (s ++ e :: v) := mt (prefix_append_cons_iff (s := c :: s) he).mp h.1
    rw [List.cons_append, splitOnce_cons hnot, ih h.2, Option.map_map]
    rfl

/-- What stands on either side of such a character is replaced by itself. -/
theorem replaceText_append {e : Char} (hp : p ≠ []) (he : e ∉ p) (u v : List Char) :
    replaceText p t (u ++ e :: v) = replaceText p t u ++ e :: replaceText p t v := by
  induction hn : u.length using Nat.strong_induction_on generalizing u with
  | _ n ih =>
    cases h : splitOnce p u with
    | none =>
      have hnone := splitOnce_eq_none.mp h
      have hafter := splitOnce_after hp he hnone v
      rw [replaceText_none hnone]
      cases hv : splitOnce p v with
      | none =>
        rw [hv, Option.map_none] at hafter
        rw [replaceText_none (splitOnce_eq_none.mp hafter), replaceText_none (splitOnce_eq_none.mp hv)]
      | some r =>
        rw [hv, Option.map_some] at hafter
        rw [replaceText_some hp hafter, replaceText_some hp hv, List.append_assoc, List.cons_append]
    | some r =>
      have hlength := length_lt_of_splitOnce hp h
      rw [replaceText_some hp (splitOnce_before hp he h v), replaceText_some hp h,
        ih r.2.length (by omega) r.2 rfl]
      simp only [List.append_assoc]

end Replacing

/-! ### Words -/

section Words

variable (ends : Char → Bool) (f : List Char → List Char)

/-- The words of a text, the first of which has begun. -/
def wordsFrom (word : List Char) : List Char → List (List Char)
  | [] => [word]
  | c :: s => if ends c then word :: wordsFrom [] s else wordsFrom (word ++ [c]) s

/-- What stands between the characters that end words. -/
def words (s : List Char) : List (List Char) := wordsFrom ends [] s

def mapWordsFrom (word : List Char) : List Char → List Char
  | [] => f word
  | c :: s => if ends c then f word ++ c :: mapWordsFrom [] s else mapWordsFrom (word ++ [c]) s

/-- A text with something else in place of each word. -/
def mapWords (s : List Char) : List Char := mapWordsFrom ends f [] s

variable {ends f} {g : List Char → List Char} {p t s word : List Char}

theorem mapWordsFrom_congr (h : ∀ w ∈ wordsFrom ends word s, f w = g w) :
    mapWordsFrom ends f word s = mapWordsFrom ends g word s := by
  induction s generalizing word with
  | nil => exact h word (List.mem_singleton.mpr rfl)
  | cons c s ih =>
    rw [wordsFrom] at h
    rw [mapWordsFrom, mapWordsFrom]
    split at h
    · next hc =>
      obtain ⟨hword,hrest⟩ := List.forall_mem_cons.mp h
      rw [if_pos hc, if_pos hc, hword, ih hrest]
    · next hc =>
      rw [if_neg hc, if_neg hc]
      exact ih h

theorem mapWords_congr (h : ∀ w ∈ words ends s, f w = g w) : mapWords ends f s = mapWords ends g s :=
  mapWordsFrom_congr h

theorem mapWordsFrom_id : mapWordsFrom ends id word s = word ++ s := by
  induction s generalizing word with
  | nil => rw [List.append_nil]; rfl
  | cons c s ih =>
    rw [mapWordsFrom, ih, ih, List.append_assoc]
    exact ite_self _

theorem mapWords_id : mapWords ends id s = s := mapWordsFrom_id

/-- Replacing a text without separators in what words have become, word by word. -/
theorem replaceText_mapWordsFrom (hp : p ≠ []) (hends : ∀ e, ends e = true → e ∉ p) :
    replaceText p t (mapWordsFrom ends f word s) =
      mapWordsFrom ends (fun w => replaceText p t (f w)) word s := by
  induction s generalizing word with
  | nil => rfl
  | cons c s ih =>
    rw [mapWordsFrom, mapWordsFrom]
    split
    · next hc => rw [replaceText_append hp (hends c hc), ih]
    · exact ih

theorem replaceText_mapWords (hp : p ≠ []) (hends : ∀ e, ends e = true → e ∉ p) :
    replaceText p t (mapWords ends f s) = mapWords ends (fun w => replaceText p t (f w)) s :=
  replaceText_mapWordsFrom hp hends

/-- Words are parts of the text. -/
theorem infix_of_mem_wordsFrom {w : List Char} (h : w ∈ wordsFrom ends word s) : w <:+: word ++ s := by
  induction s generalizing word with
  | nil =>
    rw [List.mem_singleton.mp h, List.append_nil]
  | cons c s ih =>
    rw [wordsFrom] at h
    split at h
    · rcases List.mem_cons.mp h with rfl | hrest
      · exact (List.prefix_append w _).isInfix
      · refine (ih hrest).trans ?_
        rw [List.nil_append, List.append_cons]
        exact (List.suffix_append _ _).isInfix
    · have hwithin := ih h
      rwa [List.append_assoc] at hwithin

theorem infix_of_mem_words {w : List Char} (h : w ∈ words ends s) : w <:+: s := infix_of_mem_wordsFrom h

/-- There is no separator in a word. -/
theorem not_ends_of_mem_wordsFrom {w : List Char} (hword : ∀ c ∈ word, ends c = false)
    (h : w ∈ wordsFrom ends word s) : ∀ c ∈ w, ends c = false := by
  induction s generalizing word with
  | nil => rwa [List.mem_singleton.mp h]
  | cons c s ih =>
    rw [wordsFrom] at h
    split at h
    · rcases List.mem_cons.mp h with rfl | hrest
      · exact hword
      · exact ih (fun _ hc => absurd hc List.not_mem_nil) hrest
    · next hc =>
      refine ih (fun d hd => ?_) h
      rcases List.mem_append.mp hd with hd | hd
      · exact hword d hd
      · rw [List.mem_singleton.mp hd]
        exact Bool.eq_false_iff.mpr hc

theorem not_ends_of_mem_words {w : List Char} (h : w ∈ words ends s) : ∀ c ∈ w, ends c = false :=
  not_ends_of_mem_wordsFrom (fun _ hc => absurd hc List.not_mem_nil) h

end Words

end Rav
