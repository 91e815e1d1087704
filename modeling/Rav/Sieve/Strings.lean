import Rav.Sieve.Lexer

/-!
# Sieve: texts that are put together

What the lexer makes of strings, multi-line texts and numbers that are written character by
character, and of texts put together from pieces. A piece has its tokens, or it cannot be read.

## Main definitions

- `escapeWith`, `quotable`, `lex_escaped` — quoted strings
- `stuff`, `lineOk`, `lex_lines` — lines of multi-line texts
- `Piece` — pieces of text between tokens
-/

namespace Rav.Sieve

theorem lex_none {m : Mode} {c : Char} (h : m.step c = none) (cs : List Char) :
    lex m (c :: cs) = none := by
  rw [lex,h]
  rfl

/-- A character that only moves the lexer on. -/
theorem lex_move {m m' : Mode} {c : Char} (h : m.step c = some (m',[])) (cs : List Char) :
    lex m (c :: cs) = lex m' cs := by
  rw [lex_cons h]
  cases lex m' cs <;> rfl

/-! ### Quoted strings -/

/-- Backslashes before some characters. -/
def escapeWith (p : Char → Bool) (s : List Char) : List Char :=
  s.flatMap (fun c => if p c then ['\\',c] else [c])

/-- A string that can be quoted has no NUL, and every carriage return is followed by a line feed;
`cr` tells that one stands before. -/
def quotable : Bool → List Char → Bool
  | cr, [] => !cr
  | true, c :: cs => c = '\n' && quotable false cs
  | false, c :: cs => c ≠ '\x00' && quotable (c = '\r') cs

section Quoted

variable {p : Char → Bool}

/-- Quotes and backslashes are escaped; NUL and the ends of lines are not. -/
structure Escapes (p : Char → Bool) : Prop where
  quote : p '"' = true
  backslash : p '\\' = true
  nul : p '\x00' = false
  cr : p '\r' = false
  lf : p '\n' = false

theorem lex_escaped (hp : Escapes p) {d : Char} (hd : d ≠ '\n') (rest : List Char) :
    ∀ (cs acc : List Char),
      lex (.quoted acc) (escapeWith p cs ++ d :: rest) =
          (if quotable false cs then lex (.quoted (cs.reverse ++ acc)) (d :: rest) else none) ∧
        lex (.quotedCr acc) (escapeWith p cs ++ d :: rest) =
          if quotable true cs then lex (.quoted (cs.reverse ++ '\r' :: acc)) (d :: rest)
          else none := by
  intro cs
  induction cs with
  | nil => exact fun acc => ⟨rfl,lex_none (m := .quotedCr acc) (if_neg hd) rest⟩
  | cons c cs ih =>
    intro acc
    have hcons : escapeWith p (c :: cs) = (if p c then ['\\',c] else [c]) ++ escapeWith p cs := rfl
    have hrev : ∀ acc', (c :: cs).reverse ++ acc' = cs.reverse ++ c :: acc' := by simp
    rw [hcons,hrev,hrev]
    by_cases hpc : p c = true
    · have hnul : c ≠ '\x00' := by rintro rfl; exact absurd (hp.nul.symm.trans hpc) nofun
      have hcr : c ≠ '\r' := by rintro rfl; exact absurd (hp.cr.symm.trans hpc) nofun
      have hlf : c ≠ '\n' := by rintro rfl; exact absurd (hp.lf.symm.trans hpc) nofun
      have hescape : (Mode.escape acc).step c = some (.quoted (c :: acc),[]) :=
        if_neg (by rintro (h | h | h); exacts [hnul h,hcr h,hlf h])
      rw [if_pos hpc]
      constructor
      · have hq : quotable false (c :: cs) = quotable false cs := by simp [quotable,hnul,hcr]
        rw [hq,← (ih (c :: acc)).1]
        exact (lex_move rfl _).trans (lex_move hescape _)
      · have hq : quotable true (c :: cs) = false := by simp [quotable,hlf]
        rw [hq]
        exact lex_none rfl _
    · have hquote : c ≠ '"' := by rintro rfl; exact hpc hp.quote
      have hback : c ≠ '\\' := by rintro rfl; exact hpc hp.backslash
      rw [if_neg hpc]
      constructor
      · by_cases hcr : c = '\r'
        · subst hcr
          have hq : quotable false ('\r' :: cs) = quotable true cs := rfl
          rw [hq,← (ih acc).2]
          exact lex_move rfl _
        · by_cases hnul : c = '\x00'
          · subst hnul
            exact lex_none rfl _
          · have hq : quotable false (c :: cs) = quotable false cs := by simp [quotable,hnul,hcr]
            have hstep : (Mode.quoted acc).step c = some (.quoted (c :: acc),[]) := by
              simp [Mode.step,hquote,hback,hcr,hnul]
            rw [hq,← (ih (c :: acc)).1]
            exact lex_move hstep _
      · by_cases hlf : c = '\n'
        · subst hlf
          have hq : quotable true ('\n' :: cs) = quotable false cs := rfl
          rw [hq,← (ih ('\n' :: '\r' :: acc)).1]
          exact lex_move rfl _
        · have hq : quotable true (c :: cs) = false := by simp [quotable,hlf]
          rw [hq]
          exact lex_none (m := .quotedCr acc) (if_neg hlf) _

end Quoted

/-! ### Multi-line texts -/

/-- A line with its leading dot doubled. -/
def stuff (cs : List Char) : List Char := if cs.head? = some '.' then '.' :: cs else cs

/-- A line of a multi-line text has no NUL, and a carriage return at most at its end. -/
def lineOk : List Char → Bool
  | [] => true
  | c :: cs => c ≠ '\x00' && (c ≠ '\r' || cs.isEmpty) && lineOk cs

theorem lex_line (rest : List Char) : ∀ (cs acc : List Char), '\n' ∉ cs →
    lex (.line acc) (cs ++ '\n' :: rest) =
      if lineOk cs then lex (.lineStart ('\n' :: (cs.reverse ++ acc))) rest else none := by
  intro cs
  induction cs with
  | nil => exact fun acc _ => lex_move rfl rest
  | cons c cs ih =>
    intro acc hno
    have hlf : c ≠ '\n' := by rintro rfl; exact hno List.mem_cons_self
    have hno' : '\n' ∉ cs := fun h => hno (List.mem_cons_of_mem c h)
    have hrev : (c :: cs).reverse ++ acc = cs.reverse ++ c :: acc := by simp
    rw [hrev,List.cons_append]
    by_cases hcr : c = '\r'
    · subst hcr
      have hmove : (Mode.line acc).step '\r' = some (.lineCr acc,[]) := rfl
      rw [lex_move hmove]
      cases cs with
      | nil => exact lex_move rfl rest
      | cons d cs =>
        have hd : d ≠ '\n' := by rintro rfl; exact hno' List.mem_cons_self
        exact lex_none (m := .lineCr acc) (if_neg hd) _
    · by_cases hnul : c = '\x00'
      · subst hnul
        exact lex_none rfl _
      · have hok : lineOk (c :: cs) = lineOk cs := by simp [lineOk,hnul,hcr]
        have hmove : (Mode.line acc).step c = some (.line (c :: acc),[]) := by
          simp [Mode.step,lineStep,hlf,hcr,hnul]
        rw [hok,lex_move hmove]
        exact ih (c :: acc) hno'

theorem lex_stuffed {cs : List Char} (hno : '\n' ∉ cs) (acc rest : List Char) :
    lex (.lineStart acc) (stuff cs ++ '\n' :: rest) =
      if lineOk cs then lex (.lineStart ('\n' :: (cs.reverse ++ acc))) rest else none := by
  cases cs with
  | nil => exact lex_move rfl rest
  | cons c cs =>
    by_cases hdot : c = '.'
    · subst hdot
      have hno' : '\n' ∉ cs := fun h => hno (List.mem_cons_of_mem '.' h)
      have hok : lineOk ('.' :: cs) = lineOk cs := rfl
      have hrev : ('.' :: cs).reverse ++ acc = cs.reverse ++ '.' :: acc := by simp
      have hdot : (Mode.lineStart acc).step '.' = some (.dot acc,[]) := rfl
      rw [hok,hrev,← lex_line rest cs ('.' :: acc) hno']
      exact (lex_move hdot _).trans (lex_move rfl _)
    · have hplain : stuff (c :: cs) = c :: cs := if_neg fun h => hdot (Option.some.inj h)
      have hstep : (Mode.lineStart acc).step c = (Mode.line acc).step c := if_neg hdot
      rw [hplain,← lex_line rest (c :: cs) acc hno,List.cons_append,lex,lex,hstep]

/-- The lines of a text, one after the other, and the dot that ends it. -/
theorem lex_lines (rest : List Char) : ∀ (lines : List (List Char)) (acc : List Char),
    (∀ l ∈ lines, '\n' ∉ l) →
      lex (.lineStart acc) (lines.flatMap (fun l => stuff l ++ ['\n']) ++ '.' :: '\n' :: rest) =
        if lines.all lineOk then
          (lex .start rest).map
            (.str (textOf ((lines.flatMap (fun l => l ++ ['\n'])).reverse ++ acc)) :: ·)
        else none := by
  intro lines
  induction lines with
  | nil =>
    intro acc _
    have hdot : (Mode.lineStart acc).step '.' = some (.dot acc,[]) := rfl
    show lex (.lineStart acc) ('.' :: '\n' :: rest) = _
    rw [lex_move hdot]
    have hend : (Mode.dot acc).step '\n' = some (.start,[.str (textOf acc)]) := rfl
    exact lex_cons hend rest
  | cons l lines ih =>
    intro acc hno
    have hlines := ih ('\n' :: (l.reverse ++ acc)) fun l' hl' => hno l' (List.mem_cons_of_mem l hl')
    rw [List.flatMap_cons,List.append_assoc,List.append_assoc,List.singleton_append,
      lex_stuffed (hno l List.mem_cons_self),hlines,List.all_cons]
    cases lineOk l with
    | false => rfl
    | true => simp

/-! ### Pieces -/

/-- Between tokens the text is read as these tokens, unless it cannot be read. -/
def Piece (text : List Char) (ok : Bool) (ts : List Token) : Prop :=
  ∀ rest, lex .start (text ++ rest) = if ok then (lex .start rest).map (ts ++ ·) else none

section Pieces

variable {a b : List Char} {ok ok' : Bool} {ts us : List Token}

theorem Piece.nil : Piece [] true [] := by
  intro rest
  show lex .start rest = (lex .start rest).map (fun ts => [] ++ ts)
  simp

theorem Piece.append (ha : Piece a ok ts) (hb : Piece b ok' us) :
    Piece (a ++ b) (ok && ok') (ts ++ us) := by
  intro rest
  rw [List.append_assoc,ha,hb]
  cases ok <;> cases ok' <;> simp [Function.comp_def]

/-- A text that is fixed is read by running the lexer. -/
theorem Piece.of_feed (h : feed .start a = some (.start,ts)) : Piece a true ts :=
  fun rest => lex_of_feed h rest

theorem Piece.lex (h : Piece a ok ts) : lex .start a = if ok then some ts else none := by
  have hend := h []
  rw [List.append_nil] at hend
  rw [hend]
  cases ok with
  | false => rfl
  | true => simp [Sieve.lex,Mode.finish]

/-- A quoted string, perhaps with a wildcard before or after what is escaped. -/
theorem Piece.quoted {p : Char → Bool} (hp : Escapes p) (pre post s : List Char)
    (hpre : feed (.quoted []) pre = some (.quoted pre.reverse,[]))
    (hpost : ∀ acc, feed (.quoted acc) post = some (.quoted (post.reverse ++ acc),[]))
    (hlf : post.head? ≠ some '\n') :
    Piece ('"' :: (pre ++ (escapeWith p s ++ (post ++ ['"'])))) (quotable false s)
      [.str (String.ofList (pre ++ (s ++ post)))] := by
  intro rest
  have hnext : ∃ d tail, post ++ '"' :: rest = d :: tail ∧ d ≠ '\n' := by
    cases post with
    | nil => exact ⟨'"',rest,rfl,by decide⟩
    | cons d post => exact ⟨d,post ++ '"' :: rest,rfl,fun h => hlf (congrArg some h)⟩
  obtain ⟨d,tail,htail,hd⟩ := hnext
  have hclose : ∀ acc, Sieve.lex (.quoted acc) (post ++ '"' :: rest) =
      (Sieve.lex .start rest).map (.str (String.ofList (acc.reverse ++ post)) :: ·) := by
    intro acc
    have hq : (Mode.quoted (post.reverse ++ acc)).step '"' =
        some (.start,[.str (textOf (post.reverse ++ acc))]) := rfl
    rw [lex_of_feed (hpost acc),lex_cons hq]
    simp [textOf,Function.comp_def]
  have hopen : Mode.start.step '"' = some (.quoted [],[]) := rfl
  have hsplit : '"' :: (pre ++ (escapeWith p s ++ (post ++ ['"']))) ++ rest =
      '"' :: (pre ++ (escapeWith p s ++ d :: tail)) := by
    rw [← htail]
    simp
  rw [hsplit,lex_move hopen,lex_of_feed hpre,(lex_escaped hp hd tail s pre.reverse).1,← htail,hclose]
  cases quotable false s with
  | false => rfl
  | true => simp [Function.comp_def]

/-- The number that digits continue `n` to. -/
def digitsValue (n : Nat) (cs : List Char) : Nat :=
  cs.foldl (fun n c => 10 * n + (c.toNat - '0'.toNat)) n

/-- A number is read up to a character that is neither a digit nor a quantifier. -/
theorem lex_digits {d : Char} (hd : d.isDigit = false) (hq : quantifier d = none)
    (rest : List Char) : ∀ (cs : List Char) (n : Nat), (∀ c ∈ cs, c.isDigit = true) →
      Sieve.lex (.number n) (cs ++ d :: rest) =
        (Sieve.lex .start (d :: rest)).map (.number (digitsValue n cs) :: ·) := by
  intro cs
  induction cs with
  | nil =>
    intro n _
    have hstep : (Mode.number n).step d = emit (.number n) d := by
      simp [Mode.step,hd,hq]
    show Sieve.lex (.number n) (d :: rest) = _
    rw [Sieve.lex,Sieve.lex,hstep]
    show ((startStep d).map _).bind _ = ((startStep d).bind _).map _
    cases startStep d with
    | none => rfl
    | some r => simp [Function.comp_def,digitsValue]
  | cons c cs ih =>
    intro n hcs
    have hstep : (Mode.number n).step c = some (.number (10 * n + (c.toNat - '0'.toNat)),[]) :=
      if_pos (hcs c List.mem_cons_self)
    exact (lex_move hstep _).trans
      (ih _ fun c' hc' => hcs c' (List.mem_cons_of_mem c hc'))

theorem startStep_digit {c : Char} (hc : c.isDigit = true) :
    startStep c = some (.number (c.toNat - '0'.toNat),[]) := by
  have hne : ∀ d : Char, d.isDigit = false → c ≠ d := by
    rintro d hd rfl
    exact absurd (hd.symm.trans hc) nofun
  have hle : c.val ≤ '9'.val := (of_decide_eq_true (Bool.and_eq_true_iff.mp hc).2 :)
  have hupper : c.isUpper = false := Bool.eq_false_iff.mpr fun h => by
    have hge : 'A'.val ≤ c.val := (of_decide_eq_true h : _ ∧ _).1
    exact absurd (UInt32.le_trans hge hle) (by decide)
  have hlower : c.isLower = false := Bool.eq_false_iff.mpr fun h => by
    have hge : 'a'.val ≤ c.val := of_decide_eq_true (Bool.and_eq_true_iff.mp h).1
    exact absurd (UInt32.le_trans hge hle) (by decide)
  have hident : isIdentStart c = false := by
    have halpha : c.isAlpha = (c.isUpper || c.isLower) := rfl
    unfold isIdentStart
    rw [halpha,hupper,hlower,decide_eq_false (hne '_' rfl)]
    rfl
  unfold startStep
  rw [if_neg (by rintro (h | h | h); exacts [hne ' ' rfl h,hne '\t' rfl h,hne '\n' rfl h]),
    if_neg (hne '\r' rfl),if_neg (hne '#' rfl),if_neg (hne '/' rfl),if_neg (hne '"' rfl),
    if_neg (hne ':' rfl),hident,if_neg nofun,if_pos hc]

/-- A decimal number. -/
theorem lex_number {d : Char} (hd : d.isDigit = false) (hq : quantifier d = none) (rest : List Char)
    {cs : List Char} (hne : cs ≠ []) (hcs : ∀ c ∈ cs, c.isDigit = true) :
    Sieve.lex .start (cs ++ d :: rest) =
      (Sieve.lex .start (d :: rest)).map (.number (digitsValue 0 cs) :: ·) := by
  obtain ⟨c,cs,rfl⟩ := List.exists_cons_of_ne_nil hne
  have hdigits := lex_digits hd hq rest cs (c.toNat - '0'.toNat) fun c' hc' =>
    hcs c' (List.mem_cons_of_mem c hc')
  have hvalue : digitsValue 0 (c :: cs) = digitsValue (c.toNat - '0'.toNat) cs := by
    simp [digitsValue]
  rw [hvalue,← hdigits]
  exact lex_move (m := .start) (startStep_digit (hcs c List.mem_cons_self)) _

end Pieces

end Rav.Sieve
