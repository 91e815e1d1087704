import Mathlib.Data.List.DropRight
import Rav.Replace
import Rav.Routes.Contacts
import Rav.Smtp.Pgp

/-!
# vCards of contacts

What is read back from the file that contacts are exported to. White space at the end of a line is cut
off, the address is written without escapes but read with them, a name that is missing is written as
the address, and a backslash in front of an `n` is taken for the escape of a line break.

## Main definitions

- `vcardUnescape_escape` — a value is read back from its escapes
- `vcardText_joined` — a file is read line by line
- `Contact.Exports` — a contact whose fields are kept
- `parseVcards_exportVcards` — when contacts are read back
-/

namespace Rav

/-! ### Escapes -/

/-- The character a value is escaped with: a backslash before a character, or before one that stands for
it. -/
def escapeChar (specials : List (Char × Char)) (c : Char) : List Char :=
  if c = '\\' then ['\\', '\\'] else ((specials.lookup c).map (fun y => ['\\', y])).getD [c]

def vcardSpecials : List (Char × Char) := [('\n', 'n'), (',', ','), (';', ';')]

section Escapes

variable {specials : List (Char × Char)} {x y : Char} {s : List Char}

theorem escapeChar_backslash : escapeChar specials '\\' = ['\\', '\\'] := if_pos rfl

theorem escapeChar_cons_self (hx : x ≠ '\\') : escapeChar ((x, y) :: specials) x = ['\\', y] := by
  rw [escapeChar, if_neg hx, List.lookup_cons_self]
  rfl

theorem escapeChar_cons_of_ne {c : Char} (hc : c ≠ x) :
    escapeChar ((x, y) :: specials) c = escapeChar specials c := by
  have hlookup : List.lookup c ((x, y) :: specials) = List.lookup c specials := by
    rw [List.lookup_cons, beq_false_of_ne hc]
  unfold escapeChar
  rw [hlookup]

/-- What a character other than a backslash becomes: two characters, or itself. -/
theorem escapeChar_cases (specials : List (Char × Char)) {c : Char} (hc : c ≠ '\\') :
    (∃ q ∈ specials, q.1 = c ∧ escapeChar specials c = ['\\', q.2]) ∨ escapeChar specials c = [c] := by
  rw [escapeChar, if_neg hc]
  cases h : List.lookup c specials with
  | none => exact .inr rfl
  | some z =>
    obtain ⟨l₁, l₂, hl, -⟩ := List.lookup_eq_some_iff.mp h
    exact .inl ⟨(c, z), hl ▸ List.mem_append_right l₁ List.mem_cons_self, rfl, rfl⟩

theorem escapeChar_ne_nil (specials : List (Char × Char)) (c : Char) : escapeChar specials c ≠ [] := by
  by_cases hc : c = '\\'
  · rw [hc, escapeChar_backslash]
    exact List.cons_ne_nil _ _
  · obtain ⟨q, -, -, hescape⟩ | hself := escapeChar_cases specials hc
    · rw [hescape]
      exact List.cons_ne_nil _ _
    · rw [hself]
      exact List.cons_ne_nil _ _

theorem toList_vcardEscape (v : String) :
    (vcardEscape v).toList = v.toList.flatMap (escapeChar vcardSpecials) := by
  rw [vcardEscape, toList_replaceChar, toList_replaceChar, toList_replaceChar, toList_replaceChar,
    List.flatMap_assoc, List.flatMap_assoc, List.flatMap_assoc]
  congr 1
  funext c
  by_cases hback : c = '\\'
  · subst hback
    rfl
  by_cases hcomma : c = ','
  · subst hcomma
    rfl
  by_cases hsemi : c = ';'
  · subst hsemi
    rfl
  by_cases hbreak : c = '\n'
  · subst hbreak
    rfl
  rw [vcardSpecials, escapeChar_cons_of_ne hbreak, escapeChar_cons_of_ne hcomma, escapeChar_cons_of_ne hsemi,
    escapeChar, if_neg hback]
  simp [hback, hcomma, hsemi, hbreak]

/-- The first character of what is written for a text. -/
theorem of_head_escape {e : Char} (he : e ≠ '\\')
    (h : (s.flatMap (escapeChar specials)).head? = some e) : s.head? = some e ∧ escapeChar specials e = [e] := by
  cases s with
  | nil => exact absurd h.symm (Option.some_ne_none e)
  | cons c s =>
    have hback : ∀ l : List Char, ('\\' :: l).head? ≠ some e := fun l h => he (Option.some.inj h).symm
    rw [List.flatMap_cons] at h
    by_cases hc : c = '\\'
    · rw [hc, escapeChar_backslash] at h
      exact absurd h (hback _)
    · obtain ⟨q, -, -, hq⟩ | hself := escapeChar_cases specials hc
      · rw [hq] at h
        exact absurd h (hback _)
      · rw [hself] at h
        obtain rfl := Option.some.inj h
        exact ⟨rfl, hself⟩

/-- One of the replacements of a value that is read: it undoes the escape of one character. A character
that is written as it is must not stand behind a backslash. -/
theorem replaceText_escapeChar (hx : x ≠ '\\') (hy : y ≠ '\\')
    (hspecials : ∀ q ∈ specials, q.1 ≠ x ∧ q.2 ≠ '\\' ∧ q.2 ≠ y) (hs : y = x ∨ ¬['\\', y] <:+: s) :
    replaceText ['\\', y] [x] (s.flatMap (escapeChar ((x, y) :: specials))) =
      s.flatMap (escapeChar specials) := by
  have hne : ['\\', y] ≠ [] := List.cons_ne_nil _ _
  have hpair : ∀ {c : Char} {l : List Char}, ['\\', y] <+: c :: l → c = '\\' ∧ l.head? = some y := by
    intro c l h
    obtain ⟨hc, h⟩ := List.cons_prefix_cons.mp h
    exact ⟨hc.symm, List.singleton_prefix_iff_head?_eq_some.mp h⟩
  induction s with
  | nil => exact replaceText_none (mt List.infix_nil.mp hne)
  | cons c s ih =>
    have htail := ih (hs.imp_right fun h => mt List.infix_cons h)
    rw [List.flatMap_cons, List.flatMap_cons]
    by_cases hc : c = x
    · subst hc
      have hplain : escapeChar specials c = [c] := by
        obtain ⟨q, hq, heq, -⟩ | h := escapeChar_cases specials hx
        · exact absurd heq (hspecials q hq).1
        · exact h
      rw [escapeChar_cons_self hx, replaceText_front hne, htail, hplain]
    rw [escapeChar_cons_of_ne hc]
    by_cases hback : c = '\\'
    · -- The second of the two backslashes is not the start of an escape.
      subst hback
      have hsecond : ¬['\\', y] <+: '\\' :: s.flatMap (escapeChar ((x, y) :: specials)) := by
        intro h
        obtain ⟨hhead, hself⟩ := of_head_escape hy (hpair h).2
        have hyx : y ≠ x := by
          rintro rfl
          rw [escapeChar_cons_self hx] at hself
          exact absurd (List.cons.inj hself).1.symm hy
        refine hs.elim hyx fun h => h ?_
        obtain ⟨t, rfl⟩ := List.head?_eq_some_iff.mp hhead
        exact (List.prefix_append ['\\', y] t).isInfix
      have hfirst : ∀ l : List Char, ¬['\\', y] <+: '\\' :: '\\' :: l :=
        fun l h => hy (Option.some.inj (hpair h).2).symm
      rw [escapeChar_backslash, List.cons_append, List.cons_append, List.nil_append,
        replaceText_cons hne (hfirst _), replaceText_cons hne hsecond, htail]
      rfl
    obtain ⟨q, hq, -, hescape⟩ | hself := escapeChar_cases specials hback
    · obtain ⟨-, hqback, hqy⟩ := hspecials q hq
      have hfirst : ∀ l : List Char, ¬['\\', y] <+: '\\' :: q.2 :: l :=
        fun l h => hqy (Option.some.inj (hpair h).2)
      have hsecond : ∀ l : List Char, ¬['\\', y] <+: q.2 :: l := fun l h => hqback (hpair h).1
      rw [hescape, List.cons_append, List.cons_append, List.nil_append,
        replaceText_cons hne (hfirst _), replaceText_cons hne (hsecond _), htail]
      rfl
    · have hfirst : ∀ l : List Char, ¬['\\', y] <+: c :: l := fun l h => hback (hpair h).1
      rw [hself, List.singleton_append, replaceText_cons hne (hfirst _), htail]
      rfl

/-- The last replacement. -/
theorem replaceText_backslashes (s : List Char) :
    replaceText ['\\', '\\'] ['\\'] (s.flatMap (escapeChar [])) = s := by
  have hne : ['\\', '\\'] ≠ [] := List.cons_ne_nil _ _
  induction s with
  | nil => exact replaceText_none (mt List.infix_nil.mp hne)
  | cons c s ih =>
    rw [List.flatMap_cons]
    by_cases hc : c = '\\'
    · rw [hc, escapeChar_backslash, replaceText_front hne, ih]
      rfl
    · have hplain : escapeChar [] c = [c] := if_neg hc
      have hfront : ∀ l : List Char, ¬['\\', '\\'] <+: c :: l :=
        fun l h => hc (List.cons_prefix_cons.mp h).1.symm
      rw [hplain, List.singleton_append, replaceText_cons hne (hfront _), ih]

end Escapes

/-! ### Values -/

/-- The replacements of a value that is read, in their order: the character behind a backslash, and what
is put in place of the two. -/
def vcardPasses : List (Char × Char) := [('n', '\n'), (',', ','), (';', ';'), ('\\', '\\')]

def unescapeChars (passes : List (Char × Char)) (s : List Char) : List Char :=
  passes.foldl (fun s q => replaceText ['\\', q.1] [q.2] s) s

theorem unescapeChars_nil (s : List Char) : unescapeChars [] s = s := rfl

theorem unescapeChars_cons (q : Char × Char) (passes : List (Char × Char)) (s : List Char) :
    unescapeChars (q :: passes) s = unescapeChars passes (replaceText ['\\', q.1] [q.2] s) := rfl

theorem toList_vcardUnescape (v : String) :
    (vcardUnescape v).toList = unescapeChars vcardPasses v.toList := by
  have hpass : ∀ (c d : Char) {pattern text : String}, pattern.toList = ['\\', c] → text.toList = [d] →
      ∀ v : String, (strReplace pattern text v).toList = replaceText ['\\', c] [d] v.toList := by
    intro c d pattern text hpattern htext v
    rw [strReplace_eq, String.toList_ofList, hpattern, htext]
  rw [vcardUnescape, hpass '\\' '\\' rfl rfl, hpass ';' ';' rfl rfl, hpass ',' ',' rfl rfl,
    hpass 'n' '\n' rfl rfl, vcardPasses, unescapeChars_cons, unescapeChars_cons, unescapeChars_cons,
    unescapeChars_cons, unescapeChars_nil]

section Values

variable {p s : List Char} {passes : List (Char × Char)}

/-- An escaped value is read back, unless it holds the escape of a line break. -/
theorem vcardUnescape_escape (h : ¬['\\', 'n'] <:+: s) :
    unescapeChars vcardPasses (s.flatMap (escapeChar vcardSpecials)) = s := by
  have hbreak := @replaceText_escapeChar [(',', ','), (';', ';')] '\n' 'n' s
    (by decide) (by decide) (by decide) (.inr h)
  have hcomma := @replaceText_escapeChar [(';', ';')] ',' ',' s
    (by decide) (by decide) (by decide) (.inl rfl)
  have hsemi := @replaceText_escapeChar [] ';' ';' s
    (by decide) (by decide) (by decide) (.inl rfl)
  rw [vcardPasses, unescapeChars_cons, unescapeChars_cons, unescapeChars_cons, unescapeChars_cons,
    unescapeChars_nil, vcardSpecials, hbreak, hcomma, hsemi, replaceText_backslashes]

theorem head_replaceText {x e : Char} (hp : p ≠ []) (he : e ≠ x)
    (h : (replaceText p [x] s).head? = some e) : s.head? = some e := by
  cases s using replaceText_induct hp with
  | nil =>
    rw [replaceText_none (mt List.infix_nil.mp hp)] at h
    exact h
  | found s =>
    rw [replaceText_front hp] at h
    exact absurd (Option.some.inj h).symm he
  | passed c s hfront =>
    rw [replaceText_cons hp hfront] at h
    exact h

/-- The replacements do not make an escape of a line break. -/
theorem not_infix_replaceText {x : Char} (hp : p ≠ []) (hx : x ≠ 'n')
    (hback : x = '\\' → p.getLast? = some '\\') (hs : p = ['\\', 'n'] ∨ ¬['\\', 'n'] <:+: s) :
    ¬['\\', 'n'] <:+: replaceText p [x] s := by
  have hcons : ∀ {c : Char} {l : List Char}, ['\\', 'n'] <+: c :: replaceText p [x] l →
      c = '\\' ∧ ∃ t, l = 'n' :: t := by
    intro c l h
    obtain ⟨hc, h⟩ := List.cons_prefix_cons.mp h
    have hhead := head_replaceText hp hx.symm (List.singleton_prefix_iff_head?_eq_some.mp h)
    exact ⟨hc.symm, List.head?_eq_some_iff.mp hhead⟩
  induction s using replaceText_induct hp with
  | nil =>
    rw [replaceText_none (mt List.infix_nil.mp hp)]
    exact mt List.infix_nil.mp (List.cons_ne_nil _ _)
  | found s ih =>
    have hrest := ih (hs.imp_right fun h hwithin => h (hwithin.trans (List.suffix_append p s).isInfix))
    rw [replaceText_front hp, List.singleton_append, List.infix_cons_iff, not_or]
    refine ⟨fun h => ?_, hrest⟩
    -- The backslash is the last one of what was replaced.
    obtain ⟨hslash, t, rfl⟩ := hcons h
    have hlast := hback hslash
    obtain rfl | hs := hs
    · exact absurd (Option.some.inj hlast) (by decide)
    · obtain ⟨q, rfl⟩ := List.getLast?_eq_some_iff.mp hlast
      refine hs ⟨q, t, ?_⟩
      simp only [List.append_assoc, List.cons_append, List.nil_append]
  | passed c s hfront ih =>
    have hrest := ih (hs.imp_right fun h => mt List.infix_cons h)
    rw [replaceText_cons hp hfront, List.infix_cons_iff, not_or]
    refine ⟨fun h => ?_, hrest⟩
    obtain ⟨rfl, t, rfl⟩ := hcons h
    have hbad : ['\\', 'n'] <+: '\\' :: 'n' :: t := List.prefix_append ['\\', 'n'] t
    obtain rfl | hs := hs
    · exact hfront hbad
    · exact hs hbad.isInfix

theorem not_infix_unescapeChars (s : List Char) : ¬['\\', 'n'] <:+: unescapeChars vcardPasses s := by
  have hrest : ∀ passes : List (Char × Char), (∀ q ∈ passes, q.2 ≠ 'n' ∧ (q.2 = '\\' → q.1 = '\\')) →
      ∀ s : List Char, ¬['\\', 'n'] <:+: s → ¬['\\', 'n'] <:+: unescapeChars passes s := by
    intro passes
    induction passes with
    | nil => exact fun _ _ h => h
    | cons q passes ih =>
      intro hpasses s h
      obtain ⟨⟨hn, hback⟩, hpasses⟩ := List.forall_mem_cons.mp hpasses
      exact ih hpasses _ (not_infix_replaceText (List.cons_ne_nil _ _) hn
        (fun hq => congrArg some (hback hq)) (.inr h))
  rw [vcardPasses, unescapeChars_cons]
  exact hrest _ (by decide) _
    (not_infix_replaceText (List.cons_ne_nil _ _) (by decide) (by decide) (.inl rfl))

theorem length_unescapeChars_le (passes : List (Char × Char)) (s : List Char) :
    (unescapeChars passes s).length ≤ s.length := by
  induction passes generalizing s with
  | nil => exact Nat.le_refl _
  | cons q passes ih =>
    exact (ih _).trans (length_replaceText_le (p := ['\\', q.1]) (t := [q.2]) (List.cons_ne_nil _ _) (Nat.le_succ 1) s)

/-- A value is read as it is if there is nothing to replace in it. -/
theorem unescapeChars_eq_self :
    unescapeChars passes s = s ↔ ∀ q ∈ passes, ¬['\\', q.1] <:+: s := by
  induction passes with
  | nil => exact iff_of_true rfl (List.forall_mem_nil _)
  | cons q passes ih =>
    have hne : ['\\', q.1] ≠ [] := List.cons_ne_nil _ _
    rw [List.forall_mem_cons, unescapeChars_cons]
    constructor
    · intro h
      have hnot : ¬['\\', q.1] <:+: s := by
        intro hwithin
        have hle := length_unescapeChars_le passes (replaceText ['\\', q.1] [q.2] s)
        have hlt := length_replaceText_lt (t := [q.2]) hne (Nat.lt_succ_self 1) hwithin
        rw [h] at hle
        omega
      rw [replaceText_none hnot] at h
      exact ⟨hnot, ih.mp h⟩
    · rintro ⟨hnot, hrest⟩
      rw [replaceText_none hnot]
      exact ih.mpr hrest

/-! ### Values in lines -/

/-- White space that is not written in another way. -/
def trimmable (c : Char) : Bool := isWhitespace c && c ≠ '\n'

/-- A value that is kept: no backslash stands before an `n`, and no white space at the end. -/
def KeepsValue (s : List Char) : Prop :=
  ¬['\\', 'n'] <:+: s ∧ ∀ c ∈ s.getLast?, trimmable c = false

/-- An address that is kept. It is written as it is, but escapes in it are read. -/
def KeepsAddress (s : List Char) : Prop :=
  (∀ c ∈ s.getLast?, isWhitespace c = false) ∧ ∀ q ∈ vcardPasses, ¬['\\', q.1] <:+: s

theorem rdropWhile_eq_self {p : Char → Bool} : s.rdropWhile p = s ↔ ∀ c ∈ s.getLast?, p c = false := by
  rw [List.rdropWhile_eq_self_iff]
  constructor
  · intro h c hc
    obtain ⟨l, rfl⟩ := List.getLast?_eq_some_iff.mp hc
    have hlast := h (List.append_ne_nil_of_right_ne_nil l (List.cons_ne_nil c []))
    rw [List.getLast_concat] at hlast
    exact Bool.eq_false_iff.mpr hlast
  · intro h hl
    exact Bool.eq_false_iff.mp (h _ (List.getLast?_eq_some_getLast hl))

/-- What is written for a character ends in white space only if the character is white space. -/
theorem escapeChar_ends (c : Char) : trimmable c = true ∧ escapeChar vcardSpecials c = [c] ∨
    trimmable c = false ∧ ∃ l d, escapeChar vcardSpecials c = l ++ [d] ∧ isWhitespace d = false := by
  by_cases hback : c = '\\'
  · subst hback
    exact .inr ⟨rfl, ['\\'], '\\', rfl, rfl⟩
  by_cases hbreak : c = '\n'
  · subst hbreak
    exact .inr ⟨rfl, ['\\'], 'n', rfl, rfl⟩
  obtain ⟨q, hq, rfl, hescape⟩ | hself := escapeChar_cases vcardSpecials hback
  · have hends : ∀ q ∈ vcardSpecials, q.1 = '\n' ∨ trimmable q.1 = false ∧ isWhitespace q.2 = false := by
      decide
    obtain hq | ⟨hkept, hends⟩ := hends q hq
    · exact absurd hq hbreak
    · exact .inr ⟨hkept, ['\\'], q.2, hescape, hends⟩
  · have htrim : trimmable c = isWhitespace c := by
      rw [trimmable, decide_eq_true hbreak, Bool.and_true]
    cases h : isWhitespace c with
    | true => exact .inl ⟨htrim.trans h, hself⟩
    | false => exact .inr ⟨htrim.trans h, [], c, hself, h⟩

theorem rdropWhile_escape (s : List Char) :
    (s.flatMap (escapeChar vcardSpecials)).rdropWhile isWhitespace =
      (s.rdropWhile trimmable).flatMap (escapeChar vcardSpecials) := by
  induction s using List.reverseRecOn with
  | nil => rfl
  | append_singleton s c ih =>
    rw [List.flatMap_append, List.flatMap_singleton]
    obtain ⟨htrim, hself⟩ | ⟨htrim, l, d, hescape, hends⟩ := escapeChar_ends c
    · have hwhite : isWhitespace c = true := (Bool.and_eq_true_iff.mp htrim).1
      rw [hself, List.rdropWhile_concat_pos _ _ _ hwhite, List.rdropWhile_concat_pos _ _ _ htrim, ih]
    · rw [hescape, ← List.append_assoc, List.rdropWhile_concat_neg _ _ _ (Bool.eq_false_iff.mp hends),
        List.rdropWhile_concat_neg _ _ _ (Bool.eq_false_iff.mp htrim), List.flatMap_append,
        List.flatMap_singleton, hescape, List.append_assoc]

/-- A value is read back from the end of its line if it is kept. -/
theorem unescapeChars_written :
    unescapeChars vcardPasses ((s.flatMap (escapeChar vcardSpecials)).rdropWhile isWhitespace) = s ↔
      KeepsValue s := by
  rw [rdropWhile_escape, KeepsValue, ← rdropWhile_eq_self]
  constructor
  · intro h
    have hnot : ¬['\\', 'n'] <:+: s := by
      rw [← h]
      exact not_infix_unescapeChars _
    have htrimmed : ¬['\\', 'n'] <:+: s.rdropWhile trimmable :=
      fun hwithin => hnot (hwithin.trans (List.rdropWhile_prefix trimmable s).isInfix)
    rw [vcardUnescape_escape htrimmed] at h
    exact ⟨hnot, h⟩
  · rintro ⟨hnot, htrim⟩
    rw [htrim, vcardUnescape_escape hnot]

theorem unescapeChars_address :
    unescapeChars vcardPasses (s.rdropWhile isWhitespace) = s ↔ KeepsAddress s := by
  rw [KeepsAddress, ← rdropWhile_eq_self, ← unescapeChars_eq_self]
  constructor
  · intro h
    have hfront := List.rdropWhile_prefix isWhitespace s
    have hle := length_unescapeChars_le vcardPasses (s.rdropWhile isWhitespace)
    rw [h] at hle
    have htrim := hfront.eq_of_length_le hle
    rw [htrim] at h
    exact ⟨htrim, h⟩
  · rintro ⟨htrim, h⟩
    rw [htrim, h]

end Values

/-! ### Lines -/

section Lines

variable {l s x : List Char}

theorem linesOf_cons {c : Char} (hfeed : c ≠ '\n') (hreturn : ∀ t, c = '\r' → s ≠ '\n' :: t) :
    linesOf (c :: s) = (c :: (linesOf s).headD []) :: (linesOf s).tail := by
  rw [linesOf]
  · cases linesOf s <;> rfl
  · exact hreturn
  · exact hfeed

theorem linesOf_feed_cons {c : Char} {a : List Char} (hfeed : c ≠ '\n')
    (hreturn : ∀ t, c = '\r' → a ≠ '\n' :: t)
    (ih : ∃ ls ≠ [], ∀ b, linesOf (a ++ '\n' :: b) = ls ++ linesOf b) :
    ∃ ls ≠ [], ∀ b, linesOf (c :: a ++ '\n' :: b) = ls ++ linesOf b := by
  obtain ⟨ls, hne, hls⟩ := ih
  obtain ⟨line, rest, rfl⟩ := List.exists_cons_of_ne_nil hne
  by_cases hend : c = '\r' ∧ a = []
  · obtain ⟨rfl, rfl⟩ := hend
    exact ⟨[[]], List.cons_ne_nil _ _, fun _ => rfl⟩
  · refine ⟨(c :: line) :: rest, List.cons_ne_nil _ _, fun b => ?_⟩
    have hnext : ∀ t, c = '\r' → a ++ '\n' :: b ≠ '\n' :: t := by
      intro t hc heq
      cases a with
      | nil => exact hend ⟨hc, rfl⟩
      | cons d a => exact hreturn a hc (congrArg (· :: a) (List.cons.inj heq).1)
    rw [List.cons_append, linesOf_cons hfeed hnext, hls]
    rfl

/-- The lines up to a line feed do not depend on what follows. -/
theorem linesOf_feed (a : List Char) : ∃ ls ≠ [], ∀ b, linesOf (a ++ '\n' :: b) = ls ++ linesOf b := by
  induction a using linesOf.induct with
  | case1 => exact ⟨[[]], List.cons_ne_nil _ _, fun _ => rfl⟩
  | case2 a ih =>
    obtain ⟨ls, -, hls⟩ := ih
    exact ⟨[] :: ls, List.cons_ne_nil _ _, fun b => congrArg (List.cons []) (hls b)⟩
  | case3 a ih =>
    obtain ⟨ls, -, hls⟩ := ih
    exact ⟨[] :: ls, List.cons_ne_nil _ _, fun b => congrArg (List.cons []) (hls b)⟩
  | case4 c a hreturn hfeed _ ih => exact linesOf_feed_cons hfeed hreturn ih
  | case5 c a hreturn hfeed _ _ _ ih => exact linesOf_feed_cons hfeed hreturn ih

theorem linesOf_feed_eq (a b : List Char) : linesOf (a ++ '\n' :: b) = linesOf (a ++ ['\n']) ++ linesOf b := by
  obtain ⟨ls, -, hls⟩ := linesOf_feed a
  rw [hls b, hls [], List.append_assoc]
  rfl

theorem linesOf_crlf (a b : List Char) : linesOf (a ++ crlf ++ b) = linesOf (a ++ crlf) ++ linesOf b := by
  have h := linesOf_feed_eq (a ++ ['\r']) b
  rw [List.append_assoc, List.append_assoc] at h
  rw [List.append_assoc]
  exact h

/-- A line without a line feed. -/
theorem linesOf_line_crlf (h : '\n' ∉ l) : linesOf (l ++ crlf) = [l] := by
  induction l with
  | nil => rfl
  | cons c l ih =>
    obtain ⟨hc, hl⟩ := List.ne_and_not_mem_of_not_mem_cons h
    have hreturn : ∀ t, c = '\r' → l ++ crlf ≠ '\n' :: t := by
      rintro t - heq
      cases l with
      | nil => exact absurd (List.cons.inj heq).1 (by decide)
      | cons d l => exact hl ((List.cons.inj heq).1 ▸ List.mem_cons_self)
    rw [List.cons_append, linesOf_cons (Ne.symm hc) hreturn, ih hl]
    rfl

/-- The lines take no more room than the text, and each line feed takes one more. -/
theorem length_add_count_le (s : List Char) : ∀ l ∈ linesOf s, l.length + s.count '\n' ≤ s.length := by
  have hstep : ∀ {c : Char} {a : List Char}, c ≠ '\n' → (∀ t, c = '\r' → a ≠ '\n' :: t) →
      (∀ l ∈ linesOf a, l.length + a.count '\n' ≤ a.length) → ∀ l ∈ linesOf (c :: a),
      l.length + (c :: a).count '\n' ≤ (c :: a).length := by
    intro c a hfeed hreturn ih l hl
    have hcount : a.count '\n' ≤ a.length := List.count_le_length
    rw [linesOf_cons hfeed hreturn] at hl
    rw [List.count_cons_of_ne hfeed, List.length_cons]
    cases hlines : linesOf a with
    | nil =>
      rw [hlines] at hl
      obtain rfl := List.mem_singleton.mp hl
      rw [List.headD_nil, List.length_singleton]
      omega
    | cons line rest =>
      rw [hlines] at hl ih
      obtain ⟨hline, hrest⟩ := List.forall_mem_cons.mp ih
      obtain rfl | hl := List.mem_cons.mp hl
      · rw [List.headD_cons, List.length_cons]
        omega
      · exact (hrest l hl).trans (Nat.le_succ _)
  induction s using linesOf.induct with
  | case1 => exact fun _ h => absurd h List.not_mem_nil
  | case2 s ih =>
    have hcount : s.count '\n' ≤ s.length := List.count_le_length
    rw [linesOf, List.count_cons_of_ne (by decide), List.count_cons_self, List.length_cons, List.length_cons]
    refine List.forall_mem_cons.mpr ⟨?_, fun l hl => ?_⟩
    · rw [List.length_nil]
      omega
    · have hl := ih l hl
      omega
  | case3 s ih =>
    have hcount : s.count '\n' ≤ s.length := List.count_le_length
    rw [linesOf, List.count_cons_self, List.length_cons]
    refine List.forall_mem_cons.mpr ⟨?_, fun l hl => ?_⟩
    · rw [List.length_nil]
      omega
    · have hl := ih l hl
      omega
  | case4 c a hreturn hfeed _ ih => exact hstep hfeed hreturn ih
  | case5 c a hreturn hfeed _ _ _ ih => exact hstep hfeed hreturn ih

theorem length_of_mem_linesOf (x : List Char) :
    ∀ l ∈ linesOf (x ++ crlf), l.length ≤ x.length ∧ ('\n' ∈ x → l.length < x.length) := by
  induction hn : x.length using Nat.strong_induction_on generalizing x with
  | _ n ih =>
    intro l hl
    by_cases hfeed : '\n' ∈ x
    · obtain ⟨a, b, rfl, -⟩ := List.eq_append_cons_of_mem hfeed
      rw [List.append_assoc, List.cons_append, linesOf_feed_eq, List.mem_append] at hl
      rw [List.length_append, List.length_cons] at hn
      obtain hl | hl := hl
      · have hcount := length_add_count_le _ l hl
        rw [List.count_append, List.length_append, List.count_singleton_self, List.length_singleton] at hcount
        exact ⟨by omega, fun _ => by omega⟩
      · obtain ⟨hle, -⟩ := ih b.length (by omega) b rfl l hl
        exact ⟨by omega, fun _ => by omega⟩
    · rw [linesOf_line_crlf hfeed] at hl
      rw [List.mem_singleton.mp hl, hn]
      exact ⟨Nat.le_refl n, fun h => absurd h hfeed⟩

/-! ### Folded lines -/

def vcardFolds : List (List Char) := [['\r', '\n', ' '], ['\r', '\n', '\t'], ['\n', ' '], ['\n', '\t']]

def unfoldChars (folds : List (List Char)) (s : List Char) : List Char :=
  folds.foldl (fun s p => replaceText p [] s) s

/-- The lines of a file once it is unfolded. -/
def vcardText (s : List Char) : List (List Char) := linesOf (unfoldChars vcardFolds s)

/-- A line feed, and white space at the end. -/
def IsFold (p : List Char) : Prop :=
  '\n' ∈ p ∧ (p.getLast? = some ' ' ∨ p.getLast? = some '\t') ∧ ∀ c ∈ p, c.toNat ≤ 32

theorem isFold_of_mem : ∀ p ∈ vcardFolds, IsFold p := by
  unfold vcardFolds IsFold
  decide

variable {folds : List (List Char)}

theorem unfoldChars_nil (s : List Char) : unfoldChars [] s = s := rfl

theorem unfoldChars_cons (p : List Char) (folds : List (List Char)) (s : List Char) :
    unfoldChars (p :: folds) s = unfoldChars folds (replaceText p [] s) := rfl

theorem IsFold.ne_nil {p : List Char} (h : IsFold p) : p ≠ [] := List.ne_nil_of_mem h.1

theorem unfoldChars_crlf (hfolds : ∀ p ∈ folds, IsFold p) (s : List Char) :
    unfoldChars folds (s ++ crlf) = unfoldChars folds s ++ crlf := by
  induction folds generalizing s with
  | nil => rfl
  | cons p folds ih =>
    obtain ⟨hp, hfolds⟩ := List.forall_mem_cons.mp hfolds
    have hend : ∃ e ∈ p.getLast?, e ∉ crlf := by
      obtain h | h := hp.2.1
      · exact ⟨' ', h, by decide⟩
      · exact ⟨'\t', h, by decide⟩
    obtain ⟨e, he, hnot⟩ := hend
    rw [unfoldChars_cons, unfoldChars_cons, replaceText_append_end he hnot, ih hfolds]

/-- A text goes on with a visible character. -/
theorem unfoldChars_append (hfolds : ∀ p ∈ folds, IsFold p) {e : Char} (he : 32 < e.toNat) (s v : List Char) :
    unfoldChars folds (s ++ e :: v) = unfoldChars folds s ++ unfoldChars folds (e :: v) := by
  induction folds generalizing s v with
  | nil => rfl
  | cons p folds ih =>
    obtain ⟨hp, hfolds⟩ := List.forall_mem_cons.mp hfolds
    have hnot : e ∉ p := fun hmem => absurd (hp.2.2 e hmem) (Nat.not_le.mpr he)
    have hfirst : ¬p <+: e :: v := by
      obtain ⟨d, q, rfl⟩ := List.exists_cons_of_ne_nil hp.ne_nil
      intro h
      obtain ⟨rfl, -⟩ := List.cons_prefix_cons.mp h
      exact hnot List.mem_cons_self
    have hfront : replaceText p [] (e :: v) = e :: replaceText p [] v := replaceText_cons hp.ne_nil hfirst
    rw [unfoldChars_cons, unfoldChars_cons, unfoldChars_cons, replaceText_append hp.ne_nil hnot, hfront,
      ih hfolds]

theorem unfoldChars_line (hfolds : ∀ p ∈ folds, IsFold p) (hl : '\n' ∉ l) : unfoldChars folds l = l := by
  induction folds with
  | nil => rfl
  | cons p folds ih =>
    obtain ⟨hp, hfolds⟩ := List.forall_mem_cons.mp hfolds
    rw [unfoldChars_cons, replaceText_none fun h => hl (h.mem hp.1), ih hfolds]

theorem unfoldChars_eq_or_lt (hfolds : ∀ p ∈ folds, IsFold p) (s : List Char) :
    unfoldChars folds s = s ∨ (unfoldChars folds s).length < s.length := by
  induction folds generalizing s with
  | nil => exact .inl rfl
  | cons p folds ih =>
    obtain ⟨hp, hfolds⟩ := List.forall_mem_cons.mp hfolds
    rw [unfoldChars_cons]
    by_cases h : p <:+: s
    · have hlt := length_replaceText_lt (t := []) hp.ne_nil (List.length_pos_of_ne_nil hp.ne_nil) h
      obtain heq | hlt' := ih hfolds (replaceText p [] s)
      · rw [heq]
        exact .inr hlt
      · exact .inr (hlt'.trans hlt)
    · rw [replaceText_none h]
      exact ih hfolds s

theorem vcardText_line (hl : '\n' ∉ l) : vcardText (l ++ crlf) = [l] := by
  rw [vcardText, unfoldChars_crlf isFold_of_mem, unfoldChars_line isFold_of_mem hl, linesOf_line_crlf hl]

/-- A line that is read is not longer than what was written, and it is shorter if that was not a line. -/
theorem length_of_mem_vcardText {line : List Char} (h : line ∈ vcardText (l ++ crlf)) :
    line.length ≤ l.length ∧ ('\n' ∈ l → line.length < l.length) := by
  rw [vcardText, unfoldChars_crlf isFold_of_mem] at h
  obtain ⟨hle, hlt⟩ := length_of_mem_linesOf _ line h
  obtain heq | hshort := unfoldChars_eq_or_lt isFold_of_mem l
  · rw [heq] at hle hlt
    exact ⟨hle, hlt⟩
  · exact ⟨by omega, fun _ => by omega⟩

theorem vcardText_append {e : Char} (he : 32 < e.toNat) (s v : List Char) :
    vcardText (s ++ crlf ++ e :: v) = vcardText (s ++ crlf) ++ vcardText (e :: v) := by
  unfold vcardText
  rw [unfoldChars_append isFold_of_mem he, unfoldChars_crlf isFold_of_mem, linesOf_crlf]

/-- Lines that begin with a visible character are read one after the other. -/
theorem vcardText_joined {ls : List (List Char)} (h : ∀ l ∈ ls, ∃ e ∈ l.head?, 32 < e.toNat)
    {last : List Char} (hlast : ∃ e ∈ last.head?, 32 < e.toNat) :
    vcardText (ls.flatMap (· ++ crlf) ++ last) =
      ls.flatMap (fun l => vcardText (l ++ crlf)) ++ vcardText last := by
  induction ls with
  | nil => rw [List.flatMap_nil, List.flatMap_nil, List.nil_append, List.nil_append]
  | cons l ls ih =>
    obtain ⟨-, hls⟩ := List.forall_mem_cons.mp h
    have hnext : ∃ e ∈ (ls.flatMap (· ++ crlf) ++ last).head?, 32 < e.toNat := by
      cases ls with
      | nil => exact hlast
      | cons m ms =>
        obtain ⟨e, he, hvisible⟩ := hls m List.mem_cons_self
        obtain ⟨m, rfl⟩ := List.head?_eq_some_iff.mp he
        exact ⟨e, rfl, hvisible⟩
    obtain ⟨e, he, hvisible⟩ := hnext
    obtain ⟨rest, hrest⟩ := List.head?_eq_some_iff.mp he
    rw [List.flatMap_cons, List.flatMap_cons, List.append_assoc (l ++ crlf), List.append_assoc (vcardText _),
      ← ih hls, hrest, vcardText_append hvisible]

end Lines

/-! ### Cards -/

section Cards

variable {c : Contact} {cs : List Contact} {key : String}

/-- The fields of a contact, each of them a line. -/
def cardFields (c : Contact) : List (String × String) :=
  let name := if c.name = "" then c.email else c.name
  [("VERSION", "3.0"), ("FN", vcardEscape name), ("N", vcardEscape name ++ ";;;;"), ("EMAIL", c.email)] ++
    (if c.company = "" then [] else [("ORG", vcardEscape c.company)]) ++
    (if c.notes = "" then [] else [("NOTE", vcardEscape c.notes)])

def fieldLine (f : String × String) : String := f.1 ++ ":" ++ f.2

theorem vcardLines_eq (c : Contact) :
    vcardLines c = "BEGIN:VCARD" :: ((cardFields c).map fieldLine ++ ["END:VCARD"]) := by
  have hfield : ∀ key value : String, fieldLine (key, value) = key ++ ":" ++ value := fun _ _ => rfl
  have hversion : "VERSION" ++ ":" ++ "3.0" = "VERSION:3.0" := rfl
  have hname : "FN" ++ ":" = "FN:" := rfl
  have hparts : "N" ++ ":" = "N:" := rfl
  have hemail : "EMAIL" ++ ":" = "EMAIL:" := rfl
  have horg : "ORG" ++ ":" = "ORG:" := rfl
  have hnote : "NOTE" ++ ":" = "NOTE:" := rfl
  unfold vcardLines cardFields
  rw [List.map_append, List.map_append, apply_ite (List.map fieldLine), apply_ite (List.map fieldLine)]
  simp only [List.map_cons, List.map_nil, hfield, hversion, hname, hparts, hemail, horg, hnote,
    List.cons_append, List.nil_append, List.append_assoc, String.append_assoc]

/-! ### Reading a card -/

def vcardKeys : List String := ["VERSION", "FN", "N", "EMAIL", "ORG", "NOTE"]

/-- What a field is read as. -/
def readValue (v : String) : String := vcardUnescape (String.ofList (v.toList.rdropWhile isWhitespace))

theorem newline_not_mem_escape (v : String) : '\n' ∉ (vcardEscape v).toList := by
  rw [toList_vcardEscape, List.mem_flatMap]
  rintro ⟨c, -, hc⟩
  by_cases hback : c = '\\'
  · subst hback
    exact absurd hc (by decide)
  by_cases hbreak : c = '\n'
  · subst hbreak
    exact absurd hc (by decide)
  obtain ⟨q, hq, -, hescape⟩ | hself := escapeChar_cases vcardSpecials hback
  · have hnot : ∀ q ∈ vcardSpecials, '\n' ∉ ['\\', q.2] := by decide
    exact hnot q hq (hescape ▸ hc)
  · rw [hself, List.mem_singleton] at hc
    exact hbreak hc.symm

/-- A field of one of the names; only an address may hold a line feed. -/
def FieldOf (c : Contact) (f : String × String) : Prop :=
  f.1 ∈ vcardKeys ∧ (f = ("EMAIL", c.email) ∨ f.1 ≠ "EMAIL" ∧ '\n' ∉ f.2.toList)

theorem fieldOf_of_mem : ∀ f ∈ cardFields c, FieldOf c f := by
  have hplain : ∀ {key value : String}, key ∈ vcardKeys → key ≠ "EMAIL" → '\n' ∉ value.toList →
      FieldOf c (key, value) := fun hkey hne hvalue => ⟨hkey, .inr ⟨hne, hvalue⟩⟩
  have hoptional : ∀ (b : Prop) [Decidable b] {f : String × String}, FieldOf c f →
      ∀ g ∈ (if b then [] else [f]), FieldOf c g := by
    intro b _ f hf g hg
    split at hg
    · exact absurd hg List.not_mem_nil
    · rwa [List.mem_singleton.mp hg]
  have hparts : ∀ v : String, '\n' ∉ (vcardEscape v ++ ";;;;").toList := by
    intro v
    rw [String.toList_append, List.mem_append]
    exact not_or.mpr ⟨newline_not_mem_escape v, by decide⟩
  intro f hf
  unfold cardFields at hf
  rw [List.mem_append, List.mem_append] at hf
  obtain (hf | hf) | hf := hf
  · revert f
    rw [List.forall_mem_cons, List.forall_mem_cons, List.forall_mem_cons, List.forall_mem_singleton]
    refine ⟨hplain (by decide) (by decide) (by decide), hplain (by decide) (by decide) ?_,
      hplain (by decide) (by decide) (hparts _), ?_⟩
    · exact newline_not_mem_escape _
    · have hemail : "EMAIL" ∈ vcardKeys := by decide
      exact ⟨hemail, .inl rfl⟩
  · exact hoptional _ (hplain (by decide) (by decide) (newline_not_mem_escape _)) f hf
  · exact hoptional _ (hplain (by decide) (by decide) (newline_not_mem_escape _)) f hf

theorem toList_fieldLine (key v : String) : (fieldLine (key, v)).toList = key.toList ++ ':' :: v.toList := by
  rw [fieldLine, String.toList_append, String.toList_append, List.append_assoc]
  rfl

/-- The end of a line is trimmed. -/
theorem strTrim_field (hkey : key ∈ vcardKeys) (v : String) : strTrim (fieldLine (key, v)) =
    fieldLine (key, String.ofList (v.toList.rdropWhile isWhitespace)) := by
  have hheads : ∀ key ∈ vcardKeys, ∃ d ∈ key.toList.head?, isWhitespace d = false := by decide
  obtain ⟨d, hd, hvisible⟩ := hheads key hkey
  obtain ⟨rest, hrest⟩ := List.head?_eq_some_iff.mp hd
  have hstart : (key.toList ++ ':' :: v.toList).dropWhile isWhitespace = key.toList ++ ':' :: v.toList := by
    rw [hrest, List.cons_append, List.dropWhile_cons_of_neg (Bool.eq_false_iff.mp hvisible)]
  have hend := rdropWhile_append (q := isWhitespace) (d := ':') rfl key.toList v.toList
  apply String.toList_injective
  rw [strTrim, String.toList_ofList, toList_fieldLine, toList_fieldLine, hstart, String.toList_ofList]
  exact hend

theorem vcardField_field (hkey : key ∈ vcardKeys) (v : String) : vcardField (fieldLine (key, v)) = some (key, v) := by
  have hkeys : ∀ key ∈ vcardKeys, ':' ∉ key.toList ∧ ';' ∉ key.toList ∧
      toUppercase (String.ofList key.toList) = key := by decide
  obtain ⟨hcolon, hsemi, hupper⟩ := hkeys key hkey
  rw [vcardField, toList_fieldLine, splitOnce_char hcolon, Option.map_some]
  dsimp only
  rw [splitOnce_none hsemi, Option.map_none, Option.getD_none, hupper, String.ofList_toList]

/-- A field begins or ends no card. -/
theorem field_ne_ends (hkey : key ∈ vcardKeys) (v : String) :
    eqIgnoreAsciiCase (fieldLine (key, v)) "BEGIN:VCARD" = false ∧
      eqIgnoreAsciiCase (fieldLine (key, v)) "END:VCARD" = false := by
  have hkeys : ∀ key ∈ vcardKeys, ∀ e ∈ ["BEGIN:VCARD", "END:VCARD"],
      ¬(key.toList ++ [':']).map Char.toLower <+: e.toList.map Char.toLower := by decide
  have hends : ∀ e ∈ ["BEGIN:VCARD", "END:VCARD"], eqIgnoreAsciiCase (fieldLine (key, v)) e = false := by
    intro e he
    rw [eqIgnoreAsciiCase, decide_eq_false_iff_not, toList_fieldLine]
    intro heq
    refine hkeys key hkey e he ?_
    have hfront := (List.prefix_append (key.toList ++ [':']) v.toList).map Char.toLower
    rw [List.append_assoc] at hfront
    rw [← heq]
    exact hfront
  exact ⟨hends _ List.mem_cons_self, hends _ (List.mem_cons_of_mem _ List.mem_cons_self)⟩

theorem line_field (hkey : key ∈ vcardKeys) (v : String) (current : ParsedVCard) (results : List ParsedVCard) :
    VCardLines.line ⟨true, current, results⟩ (fieldLine (key, v)) =
      ⟨true, current.set key (readValue v), results⟩ := by
  obtain ⟨hbegin, hend⟩ := field_ne_ends hkey (String.ofList (v.toList.rdropWhile isWhitespace))
  unfold VCardLines.line
  dsimp only
  rw [strTrim_field hkey, hbegin, hend, if_neg Bool.false_ne_true, if_neg Bool.false_ne_true,
    if_neg Bool.false_ne_true.symm, vcardField_field hkey]
  rfl

theorem foldl_fields {fs : List (String × String)} (hfs : ∀ f ∈ fs, f.1 ∈ vcardKeys) (current : ParsedVCard)
    (results : List ParsedVCard) : (fs.map fieldLine).foldl VCardLines.line ⟨true, current, results⟩ =
      ⟨true, fs.foldl (fun v f => v.set f.1 (readValue f.2)) current, results⟩ := by
  induction fs generalizing current with
  | nil => rfl
  | cons f fs ih =>
    obtain ⟨hf, hfs⟩ := List.forall_mem_cons.mp hfs
    rw [List.map_cons, List.foldl_cons, List.foldl_cons, line_field hf, ih hfs]

/-- The entry a card is read as. -/
def readCard (c : Contact) : ParsedVCard :=
  (cardFields c).foldl (fun v f => v.set f.1 (readValue f.2)) ⟨"", "", "", ""⟩

/-- A card is read whole, wherever it stands. An entry without an address is left out. -/
theorem foldl_vcardLines (c : Contact) (s : VCardLines) : (vcardLines c).foldl VCardLines.line s =
    ⟨false, readCard c, if (readCard c).email ≠ "" then s.results ++ [readCard c] else s.results⟩ := by
  have hbegin : s.line "BEGIN:VCARD" = ⟨true, ⟨"", "", "", ""⟩, s.results⟩ := by
    have his : eqIgnoreAsciiCase (strTrim "BEGIN:VCARD") "BEGIN:VCARD" = true := by decide
    unfold VCardLines.line
    dsimp only
    rw [if_pos his]
  have hend : ∀ (v : ParsedVCard) (results : List ParsedVCard),
      VCardLines.line ⟨true, v, results⟩ "END:VCARD" =
        ⟨false, v, if v.email ≠ "" then results ++ [v] else results⟩ := by
    intro v results
    have hnot : ¬eqIgnoreAsciiCase (strTrim "END:VCARD") "BEGIN:VCARD" = true := by decide
    have his : eqIgnoreAsciiCase (strTrim "END:VCARD") "END:VCARD" = true := by decide
    unfold VCardLines.line
    dsimp only
    rw [if_neg hnot, if_pos his]
    simp only [true_and]
  rw [vcardLines_eq, List.foldl_cons, hbegin, List.foldl_append, foldl_fields fun f hf => (fieldOf_of_mem f hf).1]
  exact hend _ _

theorem set_version (v : ParsedVCard) (value : String) : v.set "VERSION" value = v := by
  simp [ParsedVCard.set]

theorem set_name (email company notes value : String) :
    ParsedVCard.set ⟨"", email, company, notes⟩ "FN" value = ⟨value, email, company, notes⟩ := by
  simp [ParsedVCard.set]

theorem set_parts (name email company notes value : String) :
    ParsedVCard.set ⟨name, email, company, notes⟩ "N" value =
      ⟨if name = "" then vcardName value else name, email, company, notes⟩ := by
  by_cases h : name = "" <;> simp [ParsedVCard.set, h]

theorem set_email (name company notes value : String) :
    ParsedVCard.set ⟨name, "", company, notes⟩ "EMAIL" value = ⟨name, value, company, notes⟩ := by
  simp [ParsedVCard.set]

theorem set_company (name email notes value : String) :
    ParsedVCard.set ⟨name, email, "", notes⟩ "ORG" value = ⟨name, email, value, notes⟩ := by
  simp [ParsedVCard.set]

theorem set_notes (name email company value : String) :
    ParsedVCard.set ⟨name, email, company, ""⟩ "NOTE" value = ⟨name, email, company, value⟩ := by
  simp [ParsedVCard.set]

/-- The name of a card is that of its `FN` field, or of its `N` field if that is empty. -/
theorem readCard_eq (c : Contact) :
    readCard c = ⟨if readValue (vcardEscape (if c.name = "" then c.email else c.name)) = "" then
        vcardName (readValue (vcardEscape (if c.name = "" then c.email else c.name) ++ ";;;;"))
      else readValue (vcardEscape (if c.name = "" then c.email else c.name)),
      readValue c.email, readValue (vcardEscape c.company), readValue (vcardEscape c.notes)⟩ := by
  have hoptional : ∀ (key text : String) (v : ParsedVCard), v.set key "" = v →
      (if text = "" then [] else [(key, vcardEscape text)]).foldl (fun v f => v.set f.1 (readValue f.2)) v =
        v.set key (readValue (vcardEscape text)) := by
    intro key text v hset
    by_cases h : text = ""
    · have hempty : readValue (vcardEscape "") = "" := by decide
      rw [if_pos h, h, hempty, hset]
      rfl
    · rw [if_neg h]
      rfl
  unfold readCard cardFields
  rw [List.foldl_append, List.foldl_append, List.foldl_cons, List.foldl_cons, List.foldl_cons,
    List.foldl_cons, List.foldl_nil, set_version, set_name, set_parts, set_email,
    hoptional _ _ _ (set_company _ _ _ ""), set_company, hoptional _ _ _ (set_notes _ _ _ ""), set_notes]

/-! ### Reading a file -/

/-- The entries of the lines of a file. -/
def readLines (ls : List (List Char)) : List ParsedVCard :=
  ((ls.map String.ofList).foldl VCardLines.line ⟨false, ⟨"", "", "", ""⟩, []⟩).results

theorem parseVcards_eq (data : String) : parseVcards data = readLines (vcardText data.toList) := by
  have hfold : ∀ (p : List Char) {pattern : String}, pattern.toList = p →
      ∀ v : String, (strReplace pattern "" v).toList = replaceText p [] v.toList := by
    rintro p pattern rfl v
    rw [strReplace_eq, String.toList_ofList]
    rfl
  rw [parseVcards, strLines, hfold ['\n', '\t'] rfl, hfold ['\n', ' '] rfl, hfold ['\r', '\n', '\t'] rfl,
    hfold ['\r', '\n', ' '] rfl, readLines, vcardText, vcardFolds, unfoldChars_cons, unfoldChars_cons,
    unfoldChars_cons, unfoldChars_cons, unfoldChars_nil]

theorem intercalate_crlf {l : List String} (hl : l ≠ []) :
    (String.intercalate "\r\n" l).toList ++ crlf = l.flatMap (fun s => s.toList ++ crlf) := by
  induction l with
  | nil => exact absurd rfl hl
  | cons a l ih =>
    cases l with
    | nil =>
      rw [String.intercalate_singleton, List.flatMap_singleton]
    | cons b l =>
      have hcrlf : ("\r\n" : String).toList = crlf := rfl
      rw [String.intercalate_cons_cons, String.toList_append, String.toList_append, List.append_assoc,
        ih (List.cons_ne_nil b l), hcrlf]
      rfl

theorem mem_vcardLines {l : String} : l ∈ vcardLines c ↔
    l = "BEGIN:VCARD" ∨ (∃ f ∈ cardFields c, fieldLine f = l) ∨ l = "END:VCARD" := by
  rw [vcardLines_eq, List.mem_cons, List.mem_append, List.mem_singleton, List.mem_map]

/-- Every line begins with a letter. -/
theorem head_vcardLines : ∀ l ∈ vcardLines c, ∃ e ∈ l.toList.head?, 32 < e.toNat := by
  have hkeys : ∀ key ∈ vcardKeys, ∃ e ∈ key.toList.head?, 32 < e.toNat := by decide
  intro l hl
  obtain rfl | ⟨⟨key, v⟩, hf, rfl⟩ | rfl := mem_vcardLines.mp hl
  · exact ⟨'B', rfl, by decide⟩
  · obtain ⟨e, he, hvisible⟩ := hkeys key (fieldOf_of_mem _ hf).1
    obtain ⟨rest, hrest⟩ := List.head?_eq_some_iff.mp he
    refine ⟨e, ?_, hvisible⟩
    rw [toList_fieldLine, hrest]
    rfl
  · exact ⟨'E', rfl, by decide⟩

theorem newline_not_mem_field {v : String} (hkey : key ∈ vcardKeys) (hv : '\n' ∉ v.toList) :
    '\n' ∉ (fieldLine (key, v)).toList := by
  have hkeys : ∀ key ∈ vcardKeys, '\n' ∉ key.toList := by decide
  rw [toList_fieldLine, List.mem_append, List.mem_cons]
  exact not_or.mpr ⟨hkeys key hkey, not_or.mpr ⟨by decide, hv⟩⟩

/-- Only in the line of an address there may be a line feed. -/
theorem newline_not_mem_line {l : String} (hl : l ∈ vcardLines c) (hne : l ≠ fieldLine ("EMAIL", c.email)) :
    '\n' ∉ l.toList := by
  obtain rfl | ⟨⟨key, v⟩, hf, rfl⟩ | rfl := mem_vcardLines.mp hl
  · decide
  · obtain ⟨hkey, hemail | ⟨-, hv⟩⟩ := fieldOf_of_mem _ hf
    · exact absurd (congrArg fieldLine hemail) hne
    · exact newline_not_mem_field hkey hv
  · decide

theorem exportVcards_lines (hcs : cs ≠ []) : (exportVcards cs).toList ++ crlf =
    (cs.flatMap vcardLines).flatMap (fun l => l.toList ++ crlf) := by
  have hcards : ∀ c : Contact, (contactToVcard c).toList ++ crlf =
      (vcardLines c).flatMap (fun l => l.toList ++ crlf) := by
    intro c
    refine intercalate_crlf ?_
    rw [vcardLines_eq]
    exact List.cons_ne_nil _ _
  rw [exportVcards, intercalate_crlf (mt List.map_eq_nil_iff.mp hcs), List.flatMap_map, List.flatMap_assoc]
  congr 1
  funext c
  exact hcards c

/-- The lines that are read of an exported file are those of its lines. -/
theorem vcardText_exportVcards (cs : List Contact) : vcardText (exportVcards cs).toList =
    (cs.flatMap vcardLines).flatMap (fun l => vcardText (l.toList ++ crlf)) := by
  cases cs using List.reverseRecOn with
  | nil => rfl
  | append_singleton cs c =>
    have hend : vcardText ("END:VCARD".toList ++ crlf) = vcardText "END:VCARD".toList := by decide
    have hlines := @exportVcards_lines (cs ++ [c]) (List.append_ne_nil_of_right_ne_nil cs (List.cons_ne_nil c []))
    have hheads : ∀ l ∈ (cs ++ [c]).flatMap vcardLines, ∃ e ∈ l.toList.head?, 32 < e.toNat := by
      intro l hl
      obtain ⟨d, -, hl⟩ := List.mem_flatMap.mp hl
      exact head_vcardLines l hl
    -- The last line ends the file.
    have hlast : (cs ++ [c]).flatMap vcardLines =
        (cs.flatMap vcardLines ++ "BEGIN:VCARD" :: (cardFields c).map fieldLine) ++ ["END:VCARD"] := by
      rw [List.flatMap_append, List.flatMap_singleton, vcardLines_eq, List.append_assoc, List.cons_append]
    rw [hlast] at hlines hheads ⊢
    generalize cs.flatMap vcardLines ++ "BEGIN:VCARD" :: (cardFields c).map fieldLine = ls at hlines hheads ⊢
    rw [List.flatMap_append, List.flatMap_singleton, ← List.append_assoc, List.append_left_inj] at hlines
    have hjoined := @vcardText_joined (ls.map String.toList)
      (List.forall_mem_map.mpr fun l hl => hheads l (List.mem_append_left _ hl)) "END:VCARD".toList
      ⟨'E', rfl, by decide⟩
    rw [List.flatMap_map, List.flatMap_map] at hjoined
    rw [hlines, hjoined, List.flatMap_append, List.flatMap_singleton, hend]

theorem foldl_cards (cs : List Contact) (s : VCardLines) :
    ((cs.flatMap vcardLines).foldl VCardLines.line s).results =
      s.results ++ (cs.map readCard).filter (fun v => v.email ≠ "") := by
  induction cs generalizing s with
  | nil => exact (List.append_nil _).symm
  | cons c cs ih =>
    rw [List.flatMap_cons, List.foldl_append, ih, foldl_vcardLines, List.map_cons]
    dsimp only
    by_cases h : (readCard c).email = ""
    · rw [if_neg (not_not_intro h), List.filter_cons_of_neg (by simp [h])]
    · rw [if_pos h, List.filter_cons_of_pos (by simp [h]), List.append_assoc]
      rfl

/-- Where no address holds a line feed, the cards are read one after the other. -/
theorem parseVcards_cards (h : ∀ c ∈ cs, '\n' ∉ c.email.toList) :
    parseVcards (exportVcards cs) = (cs.map readCard).filter (fun v => v.email ≠ "") := by
  have hlines : vcardText (exportVcards cs).toList = (cs.flatMap vcardLines).map String.toList := by
    rw [vcardText_exportVcards, ← List.flatMap_singleton' ((cs.flatMap vcardLines).map String.toList), List.flatMap_map]
    refine List.flatMap_congr fun l hl => vcardText_line ?_
    obtain ⟨c, hc, hl⟩ := List.mem_flatMap.mp hl
    by_cases hemail : l = fieldLine ("EMAIL", c.email)
    · rw [hemail]
      exact newline_not_mem_field (by decide) (h c hc)
    · exact newline_not_mem_line hl hemail
  have htexts : ∀ ls : List String, (ls.map String.toList).map String.ofList = ls := by
    intro ls
    rw [List.map_map]
    exact List.map_id'' (fun l => String.ofList_toList) ls
  rw [parseVcards_eq, readLines, hlines, htexts]
  exact foldl_cards cs _

/-! ### Contacts that are kept -/

/-- What is expected back. -/
def Contact.entry (c : Contact) : ParsedVCard := ⟨c.name, c.email, c.company, c.notes⟩

/-- A contact whose fields are kept. -/
structure Contact.Exports (c : Contact) : Prop where
  name_ne : c.name ≠ ""
  name : KeepsValue c.name.toList
  line : '\n' ∉ c.email.toList
  email : KeepsAddress c.email.toList
  company : KeepsValue c.company.toList
  notes : KeepsValue c.notes.toList

theorem toList_readValue (v : String) :
    (readValue v).toList = unescapeChars vcardPasses (v.toList.rdropWhile isWhitespace) := by
  rw [readValue, toList_vcardUnescape, String.toList_ofList]

theorem readValue_escape {v : String} : readValue (vcardEscape v) = v ↔ KeepsValue v.toList := by
  rw [← String.toList_inj, toList_readValue, toList_vcardEscape]
  exact unescapeChars_written

theorem readValue_address {v : String} : readValue v = v ↔ KeepsAddress v.toList := by
  rw [← String.toList_inj, toList_readValue]
  exact unescapeChars_address

theorem unescapeChars_ne_nil {s : List Char} (passes : List (Char × Char)) (hs : s ≠ []) :
    unescapeChars passes s ≠ [] := by
  induction passes generalizing s with
  | nil => exact hs
  | cons q passes ih =>
    rw [unescapeChars_cons]
    exact ih (replaceText_ne_nil (List.cons_ne_nil _ _) (List.cons_ne_nil _ _) hs)

/-- A name that is read as nothing is white space. -/
theorem isWhitespace_of_readValue {v : String} (h : readValue (vcardEscape v) = "") :
    ∀ d ∈ v.toList, isWhitespace d = true := by
  have hnil : unescapeChars vcardPasses ((v.toList.rdropWhile trimmable).flatMap (escapeChar vcardSpecials)) = [] := by
    rw [← rdropWhile_escape, ← toList_vcardEscape, ← toList_readValue, h]
    rfl
  have hescaped := not_imp_comm.mp (unescapeChars_ne_nil vcardPasses) (not_not_intro hnil)
  have htrimmed : v.toList.rdropWhile trimmable = [] := by
    cases htail : v.toList.rdropWhile trimmable with
    | nil => rfl
    | cons d rest =>
      rw [htail, List.flatMap_cons] at hescaped
      exact absurd (List.append_eq_nil_iff.mp hescaped).1 (escapeChar_ne_nil _ _)
  intro d hd
  exact (Bool.and_eq_true_iff.mp (List.rdropWhile_eq_nil_iff.mp htrimmed d hd)).1

theorem getLast_strTrim (s : String) : ∀ d ∈ (strTrim s).toList.getLast?, isWhitespace d = false := by
  have h : (strTrim s).toList = (s.toList.dropWhile isWhitespace).rdropWhile isWhitespace :=
    String.toList_ofList
  rw [h, ← rdropWhile_eq_self]
  exact List.rdropWhile_idempotent _ _

theorem KeepsAddress.value {s : List Char} (h : KeepsAddress s) : KeepsValue s := by
  obtain ⟨hlast, hpairs⟩ := h
  refine ⟨hpairs ('n', '\n') List.mem_cons_self, fun d hd => ?_⟩
  rw [trimmable, hlast d hd, Bool.false_and]

/-- What is read of the name of a contact is the name if that is kept and there is one. -/
theorem readName_eq {email name : String} (hemail : KeepsAddress email.toList) (hne : email ≠ "") :
    (if readValue (vcardEscape (if name = "" then email else name)) = "" then
        vcardName (readValue (vcardEscape (if name = "" then email else name) ++ ";;;;"))
      else readValue (vcardEscape (if name = "" then email else name))) = name ↔
      name ≠ "" ∧ KeepsValue name.toList := by
  by_cases hname : name = ""
  · -- The address stands for the name, and is read as one.
    rw [if_pos hname, readValue_escape.mpr hemail.value, if_neg hne, hname]
    exact iff_of_false hne fun h => h.1 rfl
  rw [if_neg hname, ← readValue_escape]
  by_cases hempty : readValue (vcardEscape name) = ""
  · -- The other field is read as a name without white space at its ends.
    rw [if_pos hempty, hempty]
    refine iff_of_false (fun h => ?_) fun h => h.1 h.2.symm
    have hends : ∀ d ∈ name.toList.getLast?, isWhitespace d = false := by
      rw [← h]
      exact getLast_strTrim _
    have hlast := List.getLast?_eq_some_getLast (mt String.toList_eq_nil_iff.mp hname)
    have hwhite := isWhitespace_of_readValue hempty _ (List.mem_of_mem_getLast? hlast)
    rw [hends _ hlast] at hwhite
    exact Bool.false_ne_true hwhite
  · rw [if_neg hempty]
    exact (and_iff_right hname).symm

/-- A card is read as the contact it was written for. -/
theorem readCard_eq_entry (hline : '\n' ∉ c.email.toList) (hne : c.email ≠ "") :
    readCard c = c.entry ↔ c.Exports := by
  rw [readCard_eq, Contact.entry, ParsedVCard.mk.injEq, readValue_address, readValue_escape, readValue_escape]
  constructor
  · rintro ⟨hname, hemail, hcompany, hnotes⟩
    obtain ⟨hnameNe, hkept⟩ := (readName_eq hemail hne).mp hname
    exact ⟨hnameNe, hkept, hline, hemail, hcompany, hnotes⟩
  · rintro ⟨hnameNe, hname, -, hemail, hcompany, hnotes⟩
    exact ⟨(readName_eq hemail hne).mpr ⟨hnameNe, hname⟩, hemail, hcompany, hnotes⟩

/-! ### Addresses of several lines -/

theorem email_set (v : ParsedVCard) (field value : String) :
    (v.set field value).email = v.email ∨ field = "EMAIL" ∧ (v.set field value).email = value := by
  unfold ParsedVCard.set
  split
  · exact .inl rfl
  split
  · exact .inl rfl
  split
  · next h => exact .inr ⟨h.1, rfl⟩
  split
  · exact .inl rfl
  split
  · exact .inl rfl
  · exact .inl rfl

/-- An address that is read comes from a line of its field. -/
def EmailOf (ls : List (List Char)) (email : String) : Prop :=
  email = "" ∨ ∃ l ∈ ls, ∃ v, vcardField (strTrim (String.ofList l)) = some ("EMAIL", v) ∧ email = vcardUnescape v

theorem emailOf_line {ls : List (List Char)} {l : List Char} (hl : l ∈ ls) {s : VCardLines}
    (hcurrent : EmailOf ls s.current.email) (hresults : ∀ entry ∈ s.results, EmailOf ls entry.email) :
    EmailOf ls (s.line (String.ofList l)).current.email ∧
      ∀ entry ∈ (s.line (String.ofList l)).results, EmailOf ls entry.email := by
  unfold VCardLines.line
  dsimp only
  split
  · exact ⟨.inl rfl, hresults⟩
  split
  · refine ⟨hcurrent, fun entry hentry => ?_⟩
    dsimp only at hentry
    split at hentry
    · obtain hentry | hentry := List.mem_append.mp hentry
      · exact hresults entry hentry
      · rwa [List.mem_singleton.mp hentry]
    · exact hresults entry hentry
  split
  · exact ⟨hcurrent, hresults⟩
  cases h : vcardField (strTrim (String.ofList l)) with
  | none => exact ⟨hcurrent, hresults⟩
  | some f =>
    obtain ⟨field, value⟩ := f
    refine ⟨?_, hresults⟩
    obtain hkept | ⟨rfl, hset⟩ := email_set s.current field (vcardUnescape value)
    · dsimp only
      rwa [hkept]
    · exact .inr ⟨l, hl, value, h, hset⟩

theorem emailOf_readLines (ls : List (List Char)) : ∀ entry ∈ readLines ls, EmailOf ls entry.email := by
  have hfold : ∀ (rest : List (List Char)), (∀ l ∈ rest, l ∈ ls) → ∀ s : VCardLines,
      EmailOf ls s.current.email → (∀ entry ∈ s.results, EmailOf ls entry.email) →
      ∀ entry ∈ ((rest.map String.ofList).foldl VCardLines.line s).results, EmailOf ls entry.email := by
    intro rest
    induction rest with
    | nil => exact fun _ _ _ h => h
    | cons l rest ih =>
      intro hrest s hcurrent hresults
      obtain ⟨hl, hrest⟩ := List.forall_mem_cons.mp hrest
      obtain ⟨hcurrent', hresults'⟩ := emailOf_line hl hcurrent hresults
      rw [List.map_cons, List.foldl_cons]
      exact ih hrest (s.line (String.ofList l)) hcurrent' hresults'
  exact hfold ls (fun _ h => h) _ (.inl rfl) (List.forall_mem_nil _)

theorem length_strTrim_le (s : String) : (strTrim s).toList.length ≤ s.toList.length := by
  have h : (strTrim s).toList = (s.toList.dropWhile isWhitespace).rdropWhile isWhitespace :=
    String.toList_ofList
  rw [h]
  exact (List.rdropWhile_prefix _ _).length_le.trans (List.dropWhile_suffix _).length_le

/-- The name of a field takes room in its line. -/
theorem length_vcardField {line field v : String} (h : vcardField line = some (field, v)) :
    v.toList.length + field.toList.length + 1 ≤ line.toList.length := by
  unfold vcardField at h
  obtain ⟨⟨k, w⟩, hsplit, heq⟩ := Option.map_eq_some_iff.mp h
  obtain ⟨rfl, rfl⟩ := Prod.mk.inj heq
  obtain ⟨hline, -⟩ := splitOnce_some hsplit
  have hkey : (((splitOnce [';'] k).map Prod.fst).getD k).length ≤ k.length := by
    cases hsemi : splitOnce [';'] k with
    | none => exact Nat.le_refl _
    | some r =>
      obtain ⟨rfl, -⟩ := splitOnce_some hsemi
      exact (List.prefix_append r.1 _).length_le
  rw [hline, toUppercase, String.toList_ofList, String.toList_ofList, String.toList_ofList, List.length_map,
    List.length_append, List.length_cons]
  dsimp only
  omega

/-- What the address of a field that was read has to do with the address of a contact. -/
def ReadFrom (c : Contact) (email : String) : Prop :=
  ¬['\\', 'n'] <:+: email.toList ∧
    ('\n' ∈ c.email.toList → email.toList.length < c.email.toList.length) ∧
    ('\n' ∉ c.email.toList → email = readValue c.email)

theorem length_vcardUnescape_le (v : String) : (vcardUnescape v).toList.length ≤ v.toList.length := by
  rw [toList_vcardUnescape]
  exact length_unescapeChars_le _ _

theorem readFrom_of_line {l : String} (hl : l ∈ vcardLines c) {line : List Char}
    (hline : line ∈ vcardText (l.toList ++ crlf)) {v : String}
    (hv : vcardField (strTrim (String.ofList line)) = some ("EMAIL", v)) : ReadFrom c (vcardUnescape v) := by
  have hread : ∀ {l : String}, '\n' ∉ l.toList → line ∈ vcardText (l.toList ++ crlf) →
      vcardField (strTrim l) = some ("EMAIL", v) := by
    intro l hfree hline
    rw [vcardText_line hfree] at hline
    rwa [List.mem_singleton.mp hline, String.ofList_toList] at hv
  have hescape : ¬['\\', 'n'] <:+: (vcardUnescape v).toList := by
    rw [toList_vcardUnescape]
    exact not_infix_unescapeChars _
  by_cases hemail : l = fieldLine ("EMAIL", c.email)
  · subst hemail
    obtain ⟨-, hlt⟩ := length_of_mem_vcardText hline
    have hfield := length_vcardField hv
    have htrim := length_strTrim_le (String.ofList line)
    have hshort := length_vcardUnescape_le v
    have hkey : "EMAIL".toList.length = 5 := rfl
    rw [toList_fieldLine, List.length_append, List.length_cons, hkey] at hlt
    rw [String.toList_ofList] at htrim
    rw [hkey] at hfield
    refine ⟨hescape, fun hnewline => ?_, fun hfree => ?_⟩
    · have hlt := hlt (List.mem_append_right _ (List.mem_cons_of_mem _ hnewline))
      omega
    · have hfree' := @newline_not_mem_field "EMAIL" _ (by decide) hfree
      have hv := hread hfree' hline
      rw [strTrim_field (by decide), vcardField_field (by decide)] at hv
      rw [← (Prod.mk.inj (Option.some.inj hv)).2]
      rfl
  · have hv := hread (newline_not_mem_line hl hemail) hline
    exfalso
    obtain rfl | ⟨⟨key, w⟩, hf, rfl⟩ | rfl := mem_vcardLines.mp hl
    · have hbegin : (vcardField (strTrim "BEGIN:VCARD")).map Prod.fst = some "BEGIN" := by decide
      rw [hv] at hbegin
      have hne : ¬"EMAIL" = "BEGIN" := by decide
      exact hne (Option.some.inj hbegin)
    · obtain ⟨hkey, heq | ⟨hne, -⟩⟩ := fieldOf_of_mem _ hf
      · exact hemail (congrArg fieldLine heq)
      · rw [strTrim_field hkey, vcardField_field hkey] at hv
        exact hne (Prod.mk.inj (Option.some.inj hv)).1
    · have hend : (vcardField (strTrim "END:VCARD")).map Prod.fst = some "END" := by decide
      rw [hv] at hend
      have hne : ¬"EMAIL" = "END" := by decide
      exact hne (Option.some.inj hend)

/-- Every address that is read of an exported file comes from a contact. -/
theorem readFrom_of_parse {entry : ParsedVCard} (h : entry ∈ parseVcards (exportVcards cs)) :
    entry.email = "" ∨ ∃ d ∈ cs, ReadFrom d entry.email := by
  rw [parseVcards_eq, vcardText_exportVcards] at h
  obtain hempty | ⟨line, hline, v, hv, heq⟩ := emailOf_readLines _ entry h
  · exact .inl hempty
  · obtain ⟨l, hl, hline⟩ := List.mem_flatMap.mp hline
    obtain ⟨d, hd, hl⟩ := List.mem_flatMap.mp hl
    rw [heq]
    exact .inr ⟨d, hd, readFrom_of_line hl hline hv⟩

theorem of_mem_replaceText {p t s : List Char} {e : Char} (hp : p ≠ []) (he : e ∈ replaceText p t s) :
    e ∈ t ∨ e ∈ s := by
  induction s using replaceText_induct hp with
  | nil =>
    rw [replaceText_none (mt List.infix_nil.mp hp)] at he
    exact .inr he
  | found s ih =>
    rw [replaceText_front hp, List.mem_append] at he
    exact he.elim .inl fun he => (ih he).imp_right (List.mem_append_right p)
  | passed c s hfront ih =>
    rw [replaceText_cons hp hfront, List.mem_cons] at he
    obtain rfl | he := he
    · exact .inr List.mem_cons_self
    · exact (ih he).imp_right (List.mem_cons_of_mem c)

theorem of_mem_unescapeChars {e : Char} {passes : List (Char × Char)} {s : List Char}
    (he : e ∈ unescapeChars passes s) : e ∈ passes.map Prod.snd ∨ e ∈ s := by
  induction passes generalizing s with
  | nil => exact .inr he
  | cons q passes ih =>
    rw [unescapeChars_cons] at he
    obtain he | he := ih he
    · exact .inl (List.mem_cons_of_mem _ he)
    · obtain he | he := of_mem_replaceText (List.cons_ne_nil _ _) he
      · exact .inl (List.mem_singleton.mp he ▸ List.mem_cons_self)
      · exact .inr he

theorem newline_not_mem_readValue {v : String} (hv : '\n' ∉ v.toList) (hescape : ¬['\\', 'n'] <:+: v.toList) :
    '\n' ∉ (readValue v).toList := by
  have hfront := List.rdropWhile_prefix isWhitespace v.toList
  rw [toList_readValue, vcardPasses, unescapeChars_cons,
    replaceText_none fun h => hescape (h.trans hfront.isInfix)]
  intro he
  obtain he | he := of_mem_unescapeChars he
  · exact absurd he (by decide)
  · exact hv (hfront.subset he)

/-- If every contact is read back then no address holds a line feed: the longest that does would have
been read of a longer one. -/
theorem newline_not_mem_of_parse (hemail : ∀ c ∈ cs, c.email ≠ "")
    (h : parseVcards (exportVcards cs) = cs.map Contact.entry) : ∀ c ∈ cs, '\n' ∉ c.email.toList := by
  have hsource : ∀ c ∈ cs, ∃ d ∈ cs, ReadFrom d c.email := by
    intro c hc
    have hentry : c.entry ∈ parseVcards (exportVcards cs) := h ▸ List.mem_map_of_mem hc
    exact (readFrom_of_parse hentry).resolve_left (hemail c hc)
  -- A line feed is only read where one was written.
  have hlonger : ∀ c ∈ cs, '\n' ∈ c.email.toList → ∃ d ∈ cs, '\n' ∈ d.email.toList ∧
      c.email.toList.length < d.email.toList.length := by
    intro c hc hnewline
    obtain ⟨d, hd, -, hlt, hfree⟩ := hsource c hc
    by_cases hd' : '\n' ∈ d.email.toList
    · exact ⟨d, hd, hd', hlt hd'⟩
    · obtain ⟨-, -, hescape, -⟩ := hsource d hd
      rw [hfree hd'] at hnewline
      exact absurd hnewline (newline_not_mem_readValue hd' hescape)
  intro c hc hnewline
  let lengths := (cs.filter (fun d => '\n' ∈ d.email.toList)).map (fun d => d.email.toList.length)
  have hmem : ∀ d ∈ cs, '\n' ∈ d.email.toList → d.email.toList.length ∈ lengths := fun d hd hd' =>
    List.mem_map_of_mem (List.mem_filter.mpr ⟨hd, decide_eq_true hd'⟩)
  obtain ⟨d, hd, hmax⟩ := List.mem_map.mp (List.max_mem (List.ne_nil_of_mem (hmem c hc hnewline)))
  obtain ⟨hd, hd'⟩ := List.mem_filter.mp hd
  obtain ⟨e, he, he', hlt⟩ := hlonger d hd (of_decide_eq_true hd')
  have hle := List.le_max_of_mem (hmem e he he')
  omega

/-- Contacts with addresses are read back from the file they are exported to if each of them is kept. -/
theorem parseVcards_exportVcards (cs : List Contact) (hemail : ∀ c ∈ cs, c.email ≠ "") :
    parseVcards (exportVcards cs) = cs.map Contact.entry ↔ ∀ c ∈ cs, c.Exports := by
  constructor
  · intro h
    have hfree := newline_not_mem_of_parse hemail h
    rw [parseVcards_cards hfree] at h
    -- No card is left out, since there are as many entries as contacts.
    have hlength := congrArg List.length h
    rw [List.length_map, ← List.length_map (f := readCard)] at hlength
    have hall := List.filter_eq_self.mpr (List.length_filter_eq_length_iff.mp hlength)
    rw [hall, List.map_inj_left] at h
    intro c hc
    exact (readCard_eq_entry (hfree c hc) (hemail c hc)).mp (h c hc)
  · intro h
    have hcards : cs.map readCard = cs.map Contact.entry :=
      List.map_congr_left fun c hc => (readCard_eq_entry (h c hc).line (hemail c hc)).mpr (h c hc)
    rw [parseVcards_cards fun c hc => (h c hc).line, hcards, List.filter_eq_self, List.forall_mem_map]
    exact fun c hc => decide_eq_true (hemail c hc)

instance (s : List Char) : Decidable (KeepsValue s) := inferInstanceAs (Decidable (_ ∧ _))

instance (s : List Char) : Decidable (KeepsAddress s) := inferInstanceAs (Decidable (_ ∧ _))

/-- A contact whose name and notes need escapes. -/
def escapedContact : Contact :=
  ⟨"1", "ada@example.org", "Łovelace, Ada", "", "poet; analyst\nC:\\dir", false, none, 0, "manual", "", ""⟩

theorem parseVcards_escapedContact :
    parseVcards (exportVcards [escapedContact, escapedContact]) = [escapedContact.entry, escapedContact.entry] := by
  have hemail : escapedContact.email ≠ "" := by decide
  have hexports : escapedContact.Exports :=
    ⟨by decide, by decide, by decide, by decide, by decide, by decide⟩
  refine (parseVcards_exportVcards [escapedContact, escapedContact] ?_).mpr ?_
  · exact List.forall_mem_cons.mpr ⟨hemail, List.forall_mem_singleton.mpr hemail⟩
  · exact List.forall_mem_cons.mpr ⟨hexports, List.forall_mem_singleton.mpr hexports⟩

/-- A backslash in front of an `n` is read as a line break. -/
def pathContact : Contact :=
  ⟨"1", "ada@example.org", "Ada", "C:\\new", "", false, none, 0, "manual", "", ""⟩

theorem parseVcards_pathContact : pathContact.email ≠ "" ∧
    parseVcards (exportVcards [pathContact]) ≠ [pathContact.entry] := by
  have hfree : ∀ c ∈ [pathContact], '\n' ∉ c.email.toList := List.forall_mem_singleton.mpr (by decide)
  have hcompany : (readCard pathContact).company ≠ pathContact.company := by
    rw [readCard_eq]
    exact mt readValue_escape.mp (by decide)
  rw [parseVcards_cards hfree]
  refine ⟨by decide, fun h => ?_⟩
  have hentry : pathContact.entry ∈ ([pathContact].map readCard).filter (fun v => v.email ≠ "") := by
    rw [h]
    exact List.mem_cons_self
  obtain ⟨c, hc, heq⟩ := List.mem_map.mp (List.mem_filter.mp hentry).1
  rw [List.mem_singleton.mp hc] at heq
  exact hcompany (congrArg ParsedVCard.company heq)

end Cards

end Rav
