import Mathlib.Data.List.Infix
import Mathlib.Data.List.TakeWhile

/-!
# Strings

The functions of `str` the code uses.
-/

namespace Rav

/-- `char::is_whitespace`. -/
def isWhitespace (c : Char) : Bool :=
  let n := c.toNat
  (9 ≤ n && n ≤ 13) || n = 32 || n = 0x85 || n = 0xA0 || n = 0x1680 ||
    (0x2000 ≤ n && n ≤ 0x200A) || n = 0x2028 || n = 0x2029 || n = 0x202F || n = 0x205F || n = 0x3000

/-- `String::from_utf8`. -/
def fromUtf8 (bytes : List UInt8) : Option String := String.fromUTF8? ⟨bytes.toArray⟩

/-- `str::trim`. -/
def strTrim (s : String) : String :=
  String.ofList ((s.toList.dropWhile isWhitespace).reverse.dropWhile isWhitespace).reverse

/-- `str::split_whitespace`. -/
def splitWhitespace (s : String) : List String :=
  ((s.toList.splitOnP isWhitespace).filter (fun p => !p.isEmpty)).map String.ofList

/-- `str::eq_ignore_ascii_case`. -/
def eqIgnoreAsciiCase (a b : String) : Bool :=
  decide (a.toList.map Char.toLower = b.toList.map Char.toLower)

/-- `str::split_once`: what stands before and after the first occurrence of a pattern. -/
def splitOnce (pattern : List Char) : List Char → Option (List Char × List Char)
  | [] => if pattern = [] then some ([],[]) else none
  | c :: cs =>
    if pattern.isPrefixOf (c :: cs) then some ([],(c :: cs).drop pattern.length)
    else (splitOnce pattern cs).map (fun r => (c :: r.1,r.2))

/-- `str::split` by a nonempty pattern, for at most `fuel` pieces and a rest. -/
def splitFuel (pattern : List Char) : Nat → List Char → List (List Char)
  | 0, s => [s]
  | fuel + 1, s =>
    match splitOnce pattern s with
    | some (before,after) => before :: splitFuel pattern fuel after
    | none => [s]

/-- `str::split`: there are no more pieces than characters, and one. -/
def splitAll (pattern : List Char) (s : List Char) : List (List Char) :=
  splitFuel pattern (s.length + 1) s

/-- `str::trim_start_matches` of a nonempty pattern. -/
def dropPrefixes (pattern : List Char) (s : List Char) : List Char :=
  (List.range s.length).foldl
    (fun s _ => if pattern.isPrefixOf s then s.drop pattern.length else s) s

/-- `str::replace` of a nonempty text. -/
def strReplace (pattern text s : String) : String :=
  String.ofList (text.toList.intercalate (splitAll pattern.toList s.toList))

/-- `str::replace` of a character by a text. -/
def replaceChar (c : Char) (text : String) (s : String) : String :=
  String.ofList (s.toList.flatMap (fun d => if d = c then text.toList else [d]))

/-- The lines of a text: they end at `\n` or `\r\n`, the last one may end with the text. -/
def linesOf : List Char → List (List Char)
  | [] => []
  | '\r' :: '\n' :: cs => [] :: linesOf cs
  | '\n' :: cs => [] :: linesOf cs
  | c :: cs =>
    match linesOf cs with
    | [] => [[c]]
    | line :: rest => (c :: line) :: rest

/-- `str::lines`. -/
def strLines (s : String) : List String := (linesOf s.toList).map String.ofList

/-- `str::parse` of an unsigned integer below a bound: digits, perhaps after a `+`. -/
def parseUnsigned (bound : Nat) (s : String) : Option Nat :=
  let digits := if s.toList.head? = some '+' then s.toList.tail else s.toList
  let n := digits.foldl (fun n c => 10 * n + (c.toNat - '0'.toNat)) 0
  if digits ≠ [] ∧ digits.all Char.isDigit ∧ n < bound then some n else none

/-! ### Every character of a text -/

/-- A text is gone through; there are too many characters to go through all of them. -/
instance (priority := 2000) decidableForallMem (p : Char → Prop) [DecidablePred p] (s : List Char) :
    Decidable (∀ c ∈ s, p c) := List.decidableBAll p s

instance (priority := 2000) decidableForallOption (p : Char → Prop) [DecidablePred p] (o : Option Char) :
    Decidable (∀ c ∈ o, p c) :=
  match o with
  | none => isTrue fun _ h => absurd h (Option.not_mem_none _)
  | some c => decidable_of_iff (p c) ⟨fun h _ hd => Option.some.inj hd ▸ h,fun h => h c rfl⟩

instance (priority := 2000) decidableExistsOption (p : Char → Prop) [DecidablePred p] (o : Option Char) :
    Decidable (∃ c ∈ o, p c) :=
  match o with
  | none => isFalse fun ⟨_,h,_⟩ => absurd h (Option.not_mem_none _)
  | some c => decidable_of_iff (p c) ⟨fun h => ⟨c,rfl,h⟩,fun ⟨_,hd,h⟩ => Option.some.inj hd ▸ h⟩

/-- What is checked for one character after the other. -/
theorem forall_mem_of_all {p : Char → Prop} [DecidablePred p] {l : List Char}
    (h : l.all (fun c => decide (p c)) = true) : ∀ c ∈ l, p c :=
  fun c hc => of_decide_eq_true (List.all_eq_true.mp h c hc)

/-- Only white space is trimmed to nothing. -/
theorem isWhitespace_of_strTrim {s : String} (h : strTrim s = "") :
    ∀ c ∈ s.toList, isWhitespace c = true := by
  have hrev : (s.toList.dropWhile isWhitespace).reverse.dropWhile isWhitespace = [] :=
    List.reverse_eq_nil_iff.mp (String.ofList_injective h)
  have hall : ∀ c ∈ s.toList.dropWhile isWhitespace, isWhitespace c = true :=
    fun c hc => List.dropWhile_eq_nil_iff.mp hrev c (List.mem_reverse.mpr hc)
  refine List.dropWhile_eq_nil_iff.mp ?_
  by_contra hne
  have hhead := List.head_dropWhile_not isWhitespace hne
  rw [hall _ (List.head_mem hne)] at hhead
  simp at hhead

/-- A text without white space at either end is not trimmed. -/
theorem strTrim_of_ends {s : List Char} (hhead : ∀ c ∈ s.head?, isWhitespace c = false)
    (hlast : ∀ c ∈ s.getLast?, isWhitespace c = false) : strTrim (String.ofList s) = String.ofList s := by
  have hdrop : ∀ t : List Char, (∀ c ∈ t.head?, isWhitespace c = false) →
      t.dropWhile isWhitespace = t := by
    intro t ht
    cases t with
    | nil => rfl
    | cons c t => rw [List.dropWhile_cons,if_neg (by simp [ht c rfl])]
  unfold strTrim
  rw [String.toList_ofList,hdrop s hhead,hdrop s.reverse (by rwa [List.head?_reverse]),
    List.reverse_reverse]

/-! ### Splitting at a character -/

theorem splitOnce_char {sep : Char} {a : List Char} (ha : sep ∉ a) (rest : List Char) :
    splitOnce [sep] (a ++ sep :: rest) = some (a,rest) := by
  induction a with
  | nil => simp [splitOnce]
  | cons c a ih =>
    obtain ⟨hc,ha⟩ := List.ne_and_not_mem_of_not_mem_cons ha
    rw [List.cons_append,splitOnce,if_neg (by simpa using hc),ih ha]
    rfl

theorem splitOnce_none {sep : Char} {a : List Char} (ha : sep ∉ a) : splitOnce [sep] a = none := by
  induction a with
  | nil => rfl
  | cons c a ih =>
    obtain ⟨hc,ha⟩ := List.ne_and_not_mem_of_not_mem_cons ha
    rw [splitOnce,if_neg (by simpa using hc),ih ha]
    rfl

theorem splitOnce_some {sep : Char} {s a b : List Char} (h : splitOnce [sep] s = some (a,b)) :
    s = a ++ sep :: b ∧ sep ∉ a := by
  induction s generalizing a with
  | nil => simp [splitOnce] at h
  | cons c s ih =>
    rw [splitOnce] at h
    split at h
    · next hc =>
      obtain ⟨rfl,rfl⟩ := Prod.mk.inj (Option.some.inj h)
      have hc : sep = c := by simpa using hc
      subst hc
      exact ⟨rfl,List.not_mem_nil⟩
    · next hc =>
      obtain ⟨⟨a',b'⟩,h',hab⟩ := Option.map_eq_some_iff.mp h
      obtain ⟨rfl,rfl⟩ := Prod.mk.inj hab
      obtain ⟨hs,ha'⟩ := ih h'
      have hc : sep ≠ c := by simpa using hc
      exact ⟨by rw [hs,List.cons_append],List.not_mem_cons_of_ne_of_not_mem hc ha'⟩

theorem not_mem_of_splitOnce {sep : Char} {s : List Char} (h : splitOnce [sep] s = none) : sep ∉ s := by
  induction s with
  | nil => exact List.not_mem_nil
  | cons c s ih =>
    rw [splitOnce] at h
    split at h
    · simp at h
    · next hc =>
      have hc : sep ≠ c := by simpa using hc
      exact List.not_mem_cons_of_ne_of_not_mem hc (ih (Option.map_eq_none_iff.mp h))

theorem intercalate_cons {sep a : List Char} {l : List (List Char)} (hl : l ≠ []) :
    List.intercalate sep (a :: l) = a ++ (sep ++ List.intercalate sep l) := by
  obtain ⟨b,l,rfl⟩ := List.exists_cons_of_ne_nil hl
  rw [List.intercalate_cons_cons,List.append_assoc]

/-- A character of the joined text is one of the separator or of a piece. -/
theorem of_mem_intercalate {sep : List Char} {l : List (List Char)} {c : Char}
    (hc : c ∈ sep.intercalate l) : c ∈ sep ∨ ∃ p ∈ l, c ∈ p := by
  induction l with
  | nil => exact absurd hc List.not_mem_nil
  | cons p l ih =>
    by_cases hnil : l = []
    · subst hnil
      rw [List.intercalate_singleton] at hc
      exact Or.inr ⟨p,List.mem_cons_self,hc⟩
    · rw [intercalate_cons hnil, List.mem_append, List.mem_append] at hc
      rcases hc with hc | hc | hc
      · exact Or.inr ⟨p,List.mem_cons_self,hc⟩
      · exact Or.inl hc
      · exact (ih hc).imp_right fun ⟨q,hq,hc⟩ => ⟨q,List.mem_cons_of_mem _ hq,hc⟩

theorem splitFuel_ne_nil (pattern : List Char) (n : Nat) (s : List Char) : splitFuel pattern n s ≠ [] := by
  cases n with
  | zero => exact List.cons_ne_nil _ _
  | succ n =>
    rw [splitFuel]
    split <;> exact List.cons_ne_nil _ _

/-- The pieces are free of the separator, and make up the text. -/
theorem splitFuel_spec (sep : Char) (n : Nat) (s : List Char) (hn : s.length < n) :
    (∀ p ∈ splitFuel [sep] n s, sep ∉ p) ∧ List.intercalate [sep] (splitFuel [sep] n s) = s := by
  induction n generalizing s with
  | zero => exact absurd hn (Nat.not_lt_zero _)
  | succ n ih =>
    rw [splitFuel]
    cases h : splitOnce [sep] s with
    | none => exact ⟨List.forall_mem_singleton.mpr (not_mem_of_splitOnce h),by simp⟩
    | some r =>
      obtain ⟨a,b⟩ := r
      obtain ⟨rfl,ha⟩ := splitOnce_some h
      rw [List.length_append,List.length_cons] at hn
      obtain ⟨hpieces,hjoin⟩ := ih b (by omega)
      refine ⟨List.forall_mem_cons.mpr ⟨ha,hpieces⟩,?_⟩
      dsimp only
      rw [intercalate_cons (splitFuel_ne_nil [sep] n b),hjoin]
      rfl

theorem length_le_intercalate {sep : Char} (l : List (List Char)) :
    l.length ≤ (List.intercalate [sep] l).length + 1 := by
  induction l with
  | nil => exact Nat.zero_le _
  | cons p l ih =>
    by_cases hnil : l = []
    · subst hnil
      exact Nat.le_add_left 1 _
    · rw [intercalate_cons hnil,List.length_append,List.length_append,List.length_singleton,
        List.length_cons]
      omega

/-- Pieces that are free of the separator are found again. -/
theorem splitFuel_intercalate {sep : Char} {l : List (List Char)} (hl : l ≠ [])
    (hfree : ∀ p ∈ l, sep ∉ p) (n : Nat) (hn : l.length ≤ n + 1) :
    splitFuel [sep] n (List.intercalate [sep] l) = l := by
  induction l generalizing n with
  | nil => exact absurd rfl hl
  | cons p l ih =>
    obtain ⟨hp,hfree⟩ := List.forall_mem_cons.mp hfree
    by_cases hnil : l = []
    · subst hnil
      rw [List.intercalate_singleton]
      cases n with
      | zero => rfl
      | succ n => rw [splitFuel,splitOnce_none hp]
    · have hlen := List.length_pos_of_ne_nil hnil
      rw [List.length_cons] at hn
      obtain ⟨n,rfl⟩ := Nat.exists_eq_succ_of_ne_zero (show n ≠ 0 by omega)
      rw [intercalate_cons hnil,splitFuel,List.singleton_append,splitOnce_char hp]
      dsimp only
      rw [ih hnil hfree n (by omega)]

theorem splitAll_intercalate {sep : Char} {l : List (List Char)} (hl : l ≠ [])
    (hfree : ∀ p ∈ l, sep ∉ p) : splitAll [sep] (List.intercalate [sep] l) = l :=
  splitFuel_intercalate hl hfree _ (Nat.le_succ_of_le (length_le_intercalate l))

end Rav
