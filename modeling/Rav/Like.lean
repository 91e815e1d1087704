import Mathlib.Data.List.Infix

/-!
# SQL `LIKE`

Patterns over texts, case-insensitive over ASCII: `%` is any text, `_` any character, and with an escape
character either stands for itself. A text without wildcards, and one whose wildcards are escaped, is looked
for literally.

## Main definitions

- `likeInfix` — a text is somewhere, whatever its case
- `sqlLike` — SQL `LIKE`
- `sqlLikeEscape` — SQL `LIKE … ESCAPE '\'`
- `anywhere` — the pattern for a text anywhere
-/

namespace Rav

/-- SQL `LIKE '%pattern%'`: case-insensitive over ASCII. -/
def likeInfix (pattern s : String) : Bool :=
  (s.toList.map Char.toLower).tails.any (pattern.toList.map Char.toLower).isPrefixOf

/-- SQL `LIKE`: `%` is any text, `_` any character; case-insensitive over ASCII. -/
def likeChars : List Char → List Char → Bool
  | [], s => s.isEmpty
  | c :: p, s =>
    if c = '%' then s.tails.any (fun t => likeChars p t)
    else
      match s with
      | [] => false
      | d :: t => (c = '_' || c.toLower = d.toLower) && likeChars p t

def sqlLike (pattern s : String) : Bool := likeChars pattern.toList s.toList

/-- The pattern for a text anywhere. -/
def anywhere (text : String) : String := "%" ++ text ++ "%"

/-- A text with a character that `LIKE` does not take literally. -/
def hasWildcard (text : String) : Bool := text.toList.any (fun c => c = '%' || c = '_')

theorem likeChars_percent (p s : List Char) :
    likeChars ('%' :: p) s = s.tails.any (fun t => likeChars p t) := by
  cases s <;> simp [likeChars]

theorem likeChars_cons {c : Char} (hc : c ≠ '%') (p : List Char) (d : Char) (t : List Char) :
    likeChars (c :: p) (d :: t) = ((c = '_' || c.toLower = d.toLower) && likeChars p t) := by
  simp [likeChars,hc]

theorem likeChars_cons_nil {c : Char} (hc : c ≠ '%') (p : List Char) :
    likeChars (c :: p) [] = false := by
  simp [likeChars,hc]

/-- Without wildcards a pattern that ends in `%` is a prefix. -/
theorem likeChars_prefix {p : List Char} (hp : ∀ c ∈ p, ¬(c = '%' || c = '_')) (s : List Char) :
    likeChars (p ++ ['%']) s = (p.map Char.toLower).isPrefixOf (s.map Char.toLower) := by
  induction p generalizing s with
  | nil =>
    rw [List.nil_append,likeChars_percent]
    exact List.any_eq_true.mpr ⟨[],(List.mem_tails _ _).mpr List.nil_suffix,rfl⟩
  | cons c p ih =>
    obtain ⟨hc,hp⟩ := List.forall_mem_cons.mp hp
    rw [Bool.or_eq_true,decide_eq_true_iff,decide_eq_true_iff,not_or] at hc
    cases s with
    | nil => exact likeChars_cons_nil hc.1 _
    | cons d t =>
      rw [List.cons_append,likeChars_cons hc.1,ih hp,List.map_cons,List.map_cons,List.isPrefixOf]
      simp only [hc.2,decide_false,Bool.false_or,beq_eq_decide]

/-- A text without wildcards is looked for literally. -/
theorem sqlLike_anywhere {text : String} (h : hasWildcard text = false) (s : String) :
    sqlLike (anywhere text) s = likeInfix text s := by
  have hp : ∀ c ∈ text.toList, ¬(c = '%' || c = '_') := by
    intro c hc hwild
    exact Bool.false_ne_true (h.symm.trans (List.any_eq_true.mpr ⟨c,hc,hwild⟩))
  have hlist : (anywhere text).toList = '%' :: (text.toList ++ ['%']) := by
    simp [anywhere]
  unfold sqlLike likeInfix
  rw [hlist,likeChars_percent,List.map_tails,List.any_map]
  congr 1
  funext t
  exact likeChars_prefix hp t

/-! ### With an escape character -/

/-- A part of a pattern. -/
inductive LikeToken
  | anyText
  | anyChar
  | char (c : Char)
  deriving DecidableEq, Repr

/-- The parts of a pattern with the escape character `\`; it may not be the last. -/
def likeTokens : List Char → Option (List LikeToken)
  | [] => some []
  | c :: p =>
    if c = '\\' then
      match p with
      | [] => none
      | d :: p => (likeTokens p).map (List.cons (.char d))
    else if c = '%' then (likeTokens p).map (List.cons .anyText)
    else if c = '_' then (likeTokens p).map (List.cons .anyChar)
    else (likeTokens p).map (List.cons (.char c))

theorem likeTokens_escape (c : Char) (p : List Char) :
    likeTokens ('\\' :: c :: p) = (likeTokens p).map (List.cons (.char c)) := rfl

theorem likeTokens_percent (p : List Char) :
    likeTokens ('%' :: p) = (likeTokens p).map (List.cons .anyText) := by
  cases p <;> rfl

theorem likeTokens_char {c : Char} (hc : c ≠ '\\') (hwild : ¬(c = '%' ∨ c = '_')) (p : List Char) :
    likeTokens (c :: p) = (likeTokens p).map (List.cons (.char c)) := by
  obtain ⟨hpercent,hline⟩ := not_or.mp hwild
  cases p <;> simp [likeTokens, hc, hpercent, hline]

def likeMatches : List LikeToken → List Char → Bool
  | [], s => s.isEmpty
  | .anyText :: p, s => s.tails.any (fun t => likeMatches p t)
  | .anyChar :: p, s =>
    match s with
    | [] => false
    | _ :: t => likeMatches p t
  | .char c :: p, s =>
    match s with
    | [] => false
    | d :: t => c.toLower = d.toLower && likeMatches p t

/-- SQL `LIKE … ESCAPE '\'`. -/
def sqlLikeEscape (pattern s : String) : Bool :=
  (likeTokens pattern.toList).any (fun p => likeMatches p s.toList)

/-- Characters and then any text are a prefix. -/
theorem likeMatches_front (p s : List Char) :
    likeMatches (p.map LikeToken.char ++ [.anyText]) s =
      (p.map Char.toLower).isPrefixOf (s.map Char.toLower) := by
  induction p generalizing s with
  | nil => exact List.any_eq_true.mpr ⟨[],(List.mem_tails _ _).mpr List.nil_suffix,rfl⟩
  | cons c p ih =>
    cases s with
    | nil => rfl
    | cons d t =>
      rw [List.map_cons, List.map_cons, List.map_cons, List.isPrefixOf, ← ih, beq_eq_decide]
      rfl

/-- A text whose wildcards and escape characters are escaped stands for its characters, wherever a part
follows it. -/
theorem likeTokens_flatMap {esc : Char → List Char} {p : List Char} (rest : List Char)
    (hesc : ∀ c ∈ p, esc c = ['\\',c] ∨ (esc c = [c] ∧ c ≠ '\\' ∧ ¬(c = '%' ∨ c = '_'))) :
    likeTokens (p.flatMap esc ++ rest) = (likeTokens rest).map (p.map LikeToken.char ++ ·) := by
  induction p with
  | nil => exact Option.map_id'.symm
  | cons c p ih =>
    have ih' := ih (fun d hd => hesc d (List.mem_cons_of_mem c hd))
    rw [List.flatMap_cons, List.append_assoc]
    obtain hc | ⟨hc, hne, hwild⟩ := hesc c List.mem_cons_self
    · rw [hc, List.cons_append, List.cons_append, List.nil_append, likeTokens_escape, ih', Option.map_map]
      rfl
    · rw [hc, List.cons_append, List.nil_append, likeTokens_char hne hwild, ih', Option.map_map]
      rfl

/-- With an escaped text between two `%`, the text is looked for literally, but for the case of letters. -/
theorem sqlLikeEscape_anywhere {esc : Char → List Char} {text escaped : String}
    (hescaped : escaped.toList = text.toList.flatMap esc)
    (hesc : ∀ c, esc c = ['\\',c] ∨ (esc c = [c] ∧ c ≠ '\\' ∧ ¬(c = '%' ∨ c = '_'))) (s : String) :
    sqlLikeEscape (anywhere escaped) s = likeInfix text s := by
  have hlist : (anywhere escaped).toList = '%' :: (text.toList.flatMap esc ++ ['%']) := by
    rw [← hescaped, anywhere, String.toList_append, String.toList_append]
    rfl
  unfold sqlLikeEscape likeInfix
  rw [hlist, likeTokens_percent, likeTokens_flatMap ['%'] (fun c _ => hesc c), List.map_tails, List.any_map]
  exact congrArg s.toList.tails.any (funext (likeMatches_front text.toList))

end Rav
