import Mathlib.Data.List.TakeWhile

/-!
# JSON text

The JSON text `serde_json::to_string` writes for strings, numbers, options, arrays and
structures: no spaces, fields in the order of their declaration. And what `serde_json` reads of a
JSON text: values with white space between their tokens, strings with escapes and surrogate pairs,
numbers as the grammar has them. What is written by `Json.string`, `Json.array` and the others is
read as what it was written for.

## Main definitions

- `string`, `option`, `array`, `object` — what is written
- `Value` — a JSON value, with `Value.get`, `Value.asStr` and others to look into it
- `parse` — the value of a text
- `Reads` — a text is read as a value wherever it stands
-/

namespace Rav.Json

def hexDigit (n : Nat) : Char :=
  if n < 10 then Char.ofNat (48 + n) else Char.ofNat (87 + n)

/-- One character of a JSON string; control characters without a short form become `\u00xx`. -/
def escapeChar (c : Char) : List Char :=
  if c = '"' then ['\\','"']
  else if c = '\\' then ['\\','\\']
  else if c = '\n' then ['\\','n']
  else if c = '\r' then ['\\','r']
  else if c = '\t' then ['\\','t']
  else if c.toNat = 8 then ['\\','b']
  else if c.toNat = 12 then ['\\','f']
  else if c.toNat < 32 then
    ['\\','u','0','0',hexDigit (c.toNat / 16),hexDigit (c.toNat % 16)]
  else [c]

/-- A character but a quote stands for itself; the others, ASCII all of them, for a backslash and
letters other than `E` and `<`. -/
theorem escapeChar_cases (c : Char) :
    escapeChar c = [c] ∧ c ≠ '"' ∨
      c.toNat < 128 ∧ ∃ e, escapeChar c = '\\' :: e ∧ ∀ d ∈ e, d ≠ 'E' ∧ d ≠ '<' := by
  have hdigit : ∀ n, n < 16 → hexDigit n ≠ 'E' ∧ hexDigit n ≠ '<' := by decide
  have hletter : ∀ {d}, d ≠ 'E' → d ≠ '<' → ∀ d' ∈ [d], d' ≠ 'E' ∧ d' ≠ '<' := fun hE hlt _ hd =>
    List.mem_singleton.mp hd ▸ ⟨hE,hlt⟩
  generalize hcs : escapeChar c = cs
  unfold escapeChar at hcs
  split at hcs
  · next h => exact .inr ⟨h ▸ by decide,_,hcs.symm,hletter (by decide) (by decide)⟩
  next hquote =>
  split at hcs
  · next h => exact .inr ⟨h ▸ by decide,_,hcs.symm,hletter (by decide) (by decide)⟩
  split at hcs
  · next h => exact .inr ⟨h ▸ by decide,_,hcs.symm,hletter (by decide) (by decide)⟩
  split at hcs
  · next h => exact .inr ⟨h ▸ by decide,_,hcs.symm,hletter (by decide) (by decide)⟩
  split at hcs
  · next h => exact .inr ⟨h ▸ by decide,_,hcs.symm,hletter (by decide) (by decide)⟩
  split at hcs
  · next h => exact .inr ⟨by omega,_,hcs.symm,hletter (by decide) (by decide)⟩
  split at hcs
  · next h => exact .inr ⟨by omega,_,hcs.symm,hletter (by decide) (by decide)⟩
  split at hcs
  · next h =>
    refine .inr ⟨by omega,_,hcs.symm,fun d hd => ?_⟩
    simp only [List.mem_cons,List.not_mem_nil,or_false] at hd
    rcases hd with rfl | rfl | rfl | rfl | rfl
    · decide
    · decide
    · decide
    · exact hdigit _ (by omega)
    · exact hdigit _ (by omega)
  · exact .inl ⟨hcs.symm,hquote⟩

def string (s : String) : String :=
  String.ofList (['"'] ++ s.toList.flatMap escapeChar ++ ['"'])

def option {α : Type} (f : α → String) : Option α → String
  | some a => f a
  | none => "null"

def array {α : Type} (f : α → String) (as : List α) : String :=
  "[" ++ ",".intercalate (as.map f) ++ "]"

def object (members : List (String × String)) : String :=
  "\x7b" ++ ",".intercalate (members.map (fun m => string m.1 ++ ":" ++ m.2)) ++ "\x7d"

/-! ### Reading -/

/-- A JSON value; a number is kept as it is written. -/
inductive Value
  | null
  | bool (b : Bool)
  | number (text : List Char)
  | string (s : String)
  | array (vs : List Value)
  | object (members : List (String × Value))

namespace Value

/-- `Value::get` of a key; of several members with this key the last one counts. -/
def get (key : String) : Value → Option Value
  | .object members => (members.reverse.find? (fun m => m.1 = key)).map Prod.snd
  | _ => none

/-- `&value[key]`. -/
def field (v : Value) (key : String) : Value := (v.get key).getD .null

def isNull : Value → Bool
  | .null => true
  | _ => false

def asStr : Value → Option String
  | .string s => some s
  | _ => none

def asArray : Value → Option (List Value)
  | .array vs => some vs
  | _ => none

end Value

def isSpace (c : Char) : Bool := c = ' ' || c = '\n' || c = '\r' || c = '\t'

def skipSpace (cs : List Char) : List Char := cs.dropWhile isSpace

/-! ### Strings -/

def hexValue (c : Char) : Option Nat :=
  if c.isDigit then some (c.toNat - 48)
  else if 'a' ≤ c ∧ c ≤ 'f' then some (c.toNat - 87)
  else if 'A' ≤ c ∧ c ≤ 'F' then some (c.toNat - 55)
  else none

def hex4 : List Char → Option (Nat × List Char)
  | a :: b :: c :: d :: rest => do
    let a ← hexValue a
    let b ← hexValue b
    let c ← hexValue c
    let d ← hexValue d
    some (((a * 16 + b) * 16 + c) * 16 + d,rest)
  | _ => none

/-- The character of a `\u` escape; the first half of a surrogate pair needs the second. -/
def codePoint (n : Nat) (rest : List Char) : Option (Char × List Char) :=
  if n < 0xD800 ∨ 0xDFFF < n then some (Char.ofNat n,rest)
  else if 0xDBFF < n then none
  else
    match rest with
    | '\\' :: 'u' :: rest => do
      let (m,rest) ← hex4 rest
      if 0xDC00 ≤ m ∧ m ≤ 0xDFFF then
        some (Char.ofNat (0x10000 + (n - 0xD800) * 0x400 + (m - 0xDC00)),rest)
      else none
    | _ => none

def unescape (c : Char) : Option Char :=
  if c = '"' ∨ c = '\\' ∨ c = '/' then some c
  else if c = 'b' then some (Char.ofNat 8)
  else if c = 'f' then some (Char.ofNat 12)
  else if c = 'n' then some '\n'
  else if c = 'r' then some '\r'
  else if c = 't' then some '\t'
  else none

/-- One character of a string. -/
def readChar : List Char → Option (Char × List Char)
  | [] => none
  | c :: cs =>
    if c = '\\' then
      match cs with
      | [] => none
      | e :: rest =>
        if e = 'u' then (hex4 rest).bind (fun p => codePoint p.1 p.2)
        else (unescape e).map (fun c => (c,rest))
    else if c.toNat < 32 then none
    else some (c,cs)

/-- The characters of a string up to its closing quote. -/
def readChars : Nat → List Char → Option (List Char × List Char)
  | 0, _ => none
  | n + 1, cs =>
    if cs.head? = some '"' then some ([],cs.tail)
    else do
      let (c,cs) ← readChar cs
      let (s,rest) ← readChars n cs
      some (c :: s,rest)

/-! ### Numbers -/

def isNumberChar (c : Char) : Bool := c.isDigit || c = '-' || c = '+' || c = '.' || c = 'e' || c = 'E'

def wellFormedExponent : List Char → Bool
  | [] => true
  | c :: cs =>
    let digits := if cs.head? = some '+' || cs.head? = some '-' then cs.tail else cs
    (c = 'e' || c = 'E') && !digits.isEmpty && digits.all Char.isDigit

def wellFormedFraction (cs : List Char) : Bool :=
  if cs.head? = some '.' then
    !(cs.tail.takeWhile Char.isDigit).isEmpty && wellFormedExponent (cs.tail.dropWhile Char.isDigit)
  else wellFormedExponent cs

/-- A number of the grammar: no superfluous zeros, digits on both sides of the point. -/
def wellFormedNumber (cs : List Char) : Bool :=
  let cs := if cs.head? = some '-' then cs.tail else cs
  let whole := cs.takeWhile Char.isDigit
  !whole.isEmpty && (whole = ['0'] || whole.head? ≠ some '0') &&
    wellFormedFraction (cs.dropWhile Char.isDigit)

def readNumber (cs : List Char) : Option (Value × List Char) :=
  let text := cs.takeWhile isNumberChar
  if wellFormedNumber text then some (.number text,cs.dropWhile isNumberChar) else none

/-! ### Values -/

/-- The rest of a text that starts with a word. -/
def expect : List Char → List Char → Option (List Char)
  | [], cs => some cs
  | w :: ws, c :: cs => if c = w then expect ws cs else none
  | _ :: _, [] => none

mutual

def readValue : Nat → List Char → Option (Value × List Char)
  | 0, _ => none
  | n + 1, cs =>
    match skipSpace cs with
    | [] => none
    | c :: cs =>
      if c = '"' then (readChars (cs.length + 1) cs).map (fun p => (.string (String.ofList p.1),p.2))
      else if c = '[' then
        if (skipSpace cs).head? = some ']' then some (.array [],(skipSpace cs).tail)
        else (readElements n cs).map (fun p => (.array p.1,p.2))
      else if c = '\x7b' then
        if (skipSpace cs).head? = some '\x7d' then some (.object [],(skipSpace cs).tail)
        else (readMembers n cs).map (fun p => (.object p.1,p.2))
      else if c = 'n' then (expect ['u','l','l'] cs).map (fun rest => (.null,rest))
      else if c = 't' then (expect ['r','u','e'] cs).map (fun rest => (.bool true,rest))
      else if c = 'f' then (expect ['a','l','s','e'] cs).map (fun rest => (.bool false,rest))
      else readNumber (c :: cs)

def readElements : Nat → List Char → Option (List Value × List Char)
  | 0, _ => none
  | n + 1, cs => do
    let (v,cs) ← readValue n cs
    match skipSpace cs with
    | [] => none
    | c :: cs =>
      if c = ',' then (readElements n cs).map (fun p => (v :: p.1,p.2))
      else if c = ']' then some ([v],cs)
      else none

def readMembers : Nat → List Char → Option (List (String × Value) × List Char)
  | 0, _ => none
  | n + 1, cs => do
    let cs ← expect ['"'] (skipSpace cs)
    let (k,cs) ← readChars (cs.length + 1) cs
    let cs ← expect [':'] (skipSpace cs)
    let (v,cs) ← readValue n cs
    match skipSpace cs with
    | [] => none
    | c :: cs =>
      if c = ',' then (readMembers n cs).map (fun p => ((String.ofList k,v) :: p.1,p.2))
      else if c = '\x7d' then some ([(String.ofList k,v)],cs)
      else none

end

/-- The value a text is, with nothing but white space after it. -/
def parse (text : String) : Option Value :=
  match readValue (text.toList.length + 1) text.toList with
  | some (v,rest) => if skipSpace rest = [] then some v else none
  | none => none

/-! ### What is written is read -/

theorem hexValue_hexDigit : ∀ d, d < 16 → hexValue (hexDigit d) = some d := by decide

theorem escapeChar_ne_nil (c : Char) : escapeChar c ≠ [] := by
  rcases escapeChar_cases c with ⟨hself,-⟩ | ⟨-,e,he,-⟩
  · exact hself ▸ List.cons_ne_nil _ _
  · exact he ▸ List.cons_ne_nil _ _

/-- A character as it is written is read as that character. -/
theorem readChar_escapeChar (c : Char) (rest : List Char) :
    readChar (escapeChar c ++ rest) = some (c,rest) := by
  unfold escapeChar
  split
  · next h => rw [h]; rfl
  split
  · next h => rw [h]; rfl
  split
  · next h => rw [h]; rfl
  split
  · next h => rw [h]; rfl
  split
  · next h => rw [h]; rfl
  split
  · next h =>
    have hc : c = Char.ofNat 8 := (Char.ofNat_toNat c).symm.trans (congrArg Char.ofNat h)
    rw [hc]
    rfl
  split
  · next h =>
    have hc : c = Char.ofNat 12 := (Char.ofNat_toNat c).symm.trans (congrArg Char.ofNat h)
    rw [hc]
    rfl
  split
  · next h =>
    have hhigh := hexValue_hexDigit (c.toNat / 16) (by omega)
    have hlow := hexValue_hexDigit (c.toNat % 16) (by omega)
    have hzero : hexValue '0' = some 0 := by decide
    have hvalue : ((0 * 16 + 0) * 16 + c.toNat / 16) * 16 + c.toNat % 16 = c.toNat := by omega
    show (hex4 ('0' :: '0' :: hexDigit (c.toNat / 16) :: hexDigit (c.toNat % 16) :: rest)).bind _ = _
    simp only [hex4,hzero,hhigh,hlow,Option.bind_eq_bind,Option.bind_some,hvalue]
    unfold codePoint
    rw [if_pos (Or.inl (by omega)),Char.ofNat_toNat]
  · next hq hb _ _ _ _ _ hlow =>
    show (if c = '\\' then _ else _) = _
    rw [if_neg hb,if_neg hlow]
    rfl

theorem head?_escapeChar (c : Char) (rest : List Char) :
    (escapeChar c ++ rest).head? ≠ some '"' := by
  rcases escapeChar_cases c with ⟨hself,hquote⟩ | ⟨-,e,he,-⟩
  · rw [hself]
    exact fun h => hquote (Option.some.inj h)
  · rw [he]
    exact fun h => absurd (Option.some.inj h) (by decide)

/-- A string as it is written, up to its closing quote. -/
theorem readChars_escaped (cs rest : List Char) (n : Nat) (hn : cs.length < n) :
    readChars n (cs.flatMap escapeChar ++ '"' :: rest) = some (cs,rest) := by
  induction cs generalizing n with
  | nil =>
    obtain ⟨n,rfl⟩ := Nat.exists_eq_succ_of_ne_zero (Nat.ne_of_gt hn)
    rfl
  | cons c cs ih =>
    obtain ⟨n,rfl⟩ := Nat.exists_eq_succ_of_ne_zero (Nat.ne_of_gt (Nat.lt_of_le_of_lt (Nat.zero_le _) hn))
    rw [List.flatMap_cons,List.append_assoc,readChars,if_neg (head?_escapeChar c _),
      readChar_escapeChar]
    simp only [Option.bind_eq_bind,Option.bind_some]
    rw [ih n (Nat.lt_of_succ_lt_succ hn)]
    rfl

theorem length_le_flatMap_escapeChar (cs : List Char) : cs.length ≤ (cs.flatMap escapeChar).length := by
  induction cs with
  | nil => exact Nat.le_refl _
  | cons c cs ih =>
    have hpos := List.length_pos_iff.mpr (escapeChar_ne_nil c)
    rw [List.flatMap_cons,List.length_append,List.length_cons]
    omega

/-- What follows does not go on a number. -/
def Ends (rest : List Char) : Prop := ∀ c, rest.head? = some c → isNumberChar c = false

/-- The text is read as the value wherever it stands. -/
def Reads (text : String) (v : Value) : Prop :=
  ∀ n rest, text.toList.length ≤ n → Ends rest → readValue n (text.toList ++ rest) = some (v,rest)

theorem ends_cons {c : Char} {rest : List Char} (h : isNumberChar c = false) : Ends (c :: rest) := by
  intro d hd
  obtain rfl := Option.some.inj hd
  exact h

theorem parse_of_reads {text : String} {v : Value} (h : Reads text v) : parse text = some v := by
  have hread := h (text.toList.length + 1) [] (Nat.le_succ _) (fun _ hd => by simp at hd)
  rw [List.append_nil] at hread
  rw [parse,hread]
  rfl

theorem reads_null : Reads "null" .null := by
  intro n rest hn _
  obtain ⟨n,rfl⟩ := Nat.exists_eq_succ_of_ne_zero (Nat.ne_of_gt (Nat.lt_of_lt_of_le (by decide : 0 < 4) hn))
  rfl

theorem reads_string (s : String) : Reads (Json.string s) (.string s) := by
  intro n rest hn _
  have htext : (Json.string s).toList = '"' :: (s.toList.flatMap escapeChar ++ ['"']) := by
    rw [Json.string,String.toList_ofList]
    rfl
  rw [htext] at hn ⊢
  obtain ⟨n,rfl⟩ := Nat.exists_eq_succ_of_ne_zero (Nat.ne_of_gt (Nat.lt_of_lt_of_le (Nat.succ_pos _) hn))
  have happ : '"' :: (s.toList.flatMap escapeChar ++ ['"']) ++ rest =
      '"' :: (s.toList.flatMap escapeChar ++ '"' :: rest) := by simp
  have hlen := length_le_flatMap_escapeChar s.toList
  rw [happ]
  show (readChars _ _).map _ = _
  rw [readChars_escaped _ _ _ (by
    simp only [List.length_append,List.length_cons]
    omega)]
  simp [String.ofList_toList]

theorem reads_option {α : Type} {f : α → String} {v : α → Value} (h : ∀ a, Reads (f a) (v a)) :
    ∀ o : Option α, Reads (Json.option f o) (o.elim .null v)
  | none => reads_null
  | some a => h a

/-! ### Numbers as they are written -/

theorem ne_of_isDigit {c d : Char} (hc : c.isDigit = true) (hd : d.isDigit = false) : c ≠ d := by
  rintro rfl
  rw [hc] at hd
  exact Bool.noConfusion hd

theorem head?_toDigits (n : Nat) : Nat.toDigits 10 n = ['0'] ∨ (Nat.toDigits 10 n).head? ≠ some '0' := by
  induction n using Nat.strongRecOn with
  | ind n ih =>
    rw [Nat.toDigits_eq_if (by decide)]
    split
    · by_cases hn : n = 0
      · exact Or.inl (by rw [hn]; rfl)
      · refine Or.inr (fun h => hn ?_)
        exact Nat.digitChar_eq_zero.mp (Option.some.inj h)
    · next hge =>
      refine Or.inr (fun h => ?_)
      obtain ⟨d,ds,hd⟩ := List.exists_cons_of_ne_nil (Nat.toDigits_ne_nil (n := n / 10) (b := 10))
      have h : (Nat.toDigits 10 (n / 10)).head? = some '0' := by
        rw [hd] at h ⊢
        exact h
      rcases ih (n / 10) (by omega) with hzero | hne
      · have hvalue := Nat.ofDigitChars_toDigits (n := n / 10) (b := 10) (by decide) (by decide)
        rw [hzero] at hvalue
        have : n / 10 = 0 := hvalue.symm.trans rfl
        omega
      · exact hne h

theorem wellFormedNumber_toDigits (n : Nat) : wellFormedNumber (Nat.toDigits 10 n) = true := by
  have hdigits : ∀ c ∈ Nat.toDigits 10 n, c.isDigit = true :=
    fun c hc => Nat.isDigit_of_mem_toDigits (by decide) (by decide) hc
  have hsign : (Nat.toDigits 10 n).head? ≠ some '-' := by
    intro h
    exact ne_of_isDigit (hdigits _ (List.mem_of_mem_head? h)) rfl rfl
  have hwhole : (Nat.toDigits 10 n).takeWhile Char.isDigit = Nat.toDigits 10 n :=
    List.takeWhile_eq_self_iff.mpr hdigits
  have hrest : (Nat.toDigits 10 n).dropWhile Char.isDigit = [] := List.dropWhile_eq_nil_iff.mpr hdigits
  unfold wellFormedNumber
  rw [if_neg hsign]
  dsimp only
  rw [hwhole,hrest]
  have hne : (Nat.toDigits 10 n).isEmpty = false := List.isEmpty_eq_false_iff.mpr Nat.toDigits_ne_nil
  rw [hne]
  rcases head?_toDigits n with h | h
  · rw [h]
    rfl
  · simp [h,wellFormedFraction,wellFormedExponent]

/-- A value that starts with a digit is a number. -/
theorem readValue_digit {c : Char} (hc : c.isDigit = true) (n : Nat) (cs : List Char) :
    readValue (n + 1) (c :: cs) = readNumber (c :: cs) := by
  have hspace : isSpace c = false := by
    simp [isSpace,ne_of_isDigit hc (d := ' ') rfl,ne_of_isDigit hc (d := '\n') rfl,
      ne_of_isDigit hc (d := '\r') rfl,ne_of_isDigit hc (d := '\t') rfl]
  have hskip : skipSpace (c :: cs) = c :: cs := by
    rw [skipSpace,List.dropWhile_cons,hspace]
    rfl
  rw [readValue,hskip]
  dsimp only
  rw [if_neg (ne_of_isDigit hc rfl),if_neg (ne_of_isDigit hc rfl),if_neg (ne_of_isDigit hc rfl),
    if_neg (ne_of_isDigit hc rfl),if_neg (ne_of_isDigit hc rfl),if_neg (ne_of_isDigit hc rfl)]

theorem reads_nat (k : Nat) : Reads (toString k) (.number (Nat.toDigits 10 k)) := by
  intro n rest hn hends
  have htext : (toString k).toList = Nat.toDigits 10 k := String.toList_ofList
  have hdigits : ∀ c ∈ Nat.toDigits 10 k, c.isDigit = true :=
    fun c hc => Nat.isDigit_of_mem_toDigits (by decide) (by decide) hc
  have hchars : ∀ c ∈ Nat.toDigits 10 k, isNumberChar c = true := by
    intro c hc
    simp [isNumberChar,hdigits c hc]
  have hstop : rest.takeWhile isNumberChar = [] ∧ rest.dropWhile isNumberChar = rest := by
    cases rest with
    | nil => exact ⟨rfl,rfl⟩
    | cons c rest =>
      have hc := hends c rfl
      simp [hc]
  have htake : (Nat.toDigits 10 k ++ rest).takeWhile isNumberChar = Nat.toDigits 10 k := by
    rw [List.takeWhile_append_of_pos hchars,hstop.1,List.append_nil]
  have hdrop : (Nat.toDigits 10 k ++ rest).dropWhile isNumberChar = rest := by
    rw [List.dropWhile_append_of_pos hchars,hstop.2]
  rw [htext] at hn ⊢
  obtain ⟨c,cs,hcons⟩ := List.exists_cons_of_ne_nil (Nat.toDigits_ne_nil (n := k) (b := 10))
  have hc : c.isDigit = true := hdigits c (hcons ▸ List.mem_cons_self)
  obtain ⟨n,rfl⟩ := Nat.exists_eq_succ_of_ne_zero
    (Nat.ne_of_gt (Nat.lt_of_lt_of_le Nat.length_toDigits_pos hn))
  have hread : readNumber (Nat.toDigits 10 k ++ rest) = some (.number (Nat.toDigits 10 k),rest) := by
    rw [readNumber,htake,hdrop,if_pos (wellFormedNumber_toDigits k)]
  rw [hcons] at hread ⊢
  exact (readValue_digit hc n _).trans hread

/-! ### Arrays and objects -/

/-- A value does not start with a closing bracket. -/
theorem Reads.head?_ne {text : String} {v : Value} (h : Reads text v) {rest : List Char}
    (hends : Ends rest) : (skipSpace (text.toList ++ rest)).head? ≠ some ']' := by
  intro hhead
  have hread := h (text.toList.length + 1) rest (Nat.le_succ _) hends
  obtain ⟨cs,hcs⟩ := List.head?_eq_some_iff.mp hhead
  rw [readValue,hcs] at hread
  simp [readNumber,isNumberChar,wellFormedNumber] at hread

theorem readElements_of_reads {α : Type} {f : α → String} {v : α → Value} {as : List α} (hne : as ≠ [])
    (h : ∀ a ∈ as, Reads (f a) (v a)) (n : Nat) (rest : List Char)
    (hn : ([','].intercalate (as.map (fun a => (f a).toList))).length + 1 ≤ n) :
    readElements n ([','].intercalate (as.map (fun a => (f a).toList)) ++ ']' :: rest) =
      some (as.map v,rest) := by
  induction as generalizing n with
  | nil => exact absurd rfl hne
  | cons a as ih =>
    obtain ⟨n,rfl⟩ := Nat.exists_eq_succ_of_ne_zero (Nat.ne_of_gt (Nat.lt_of_lt_of_le (Nat.succ_pos _) hn))
    have ha := h a List.mem_cons_self
    rcases as with _ | ⟨b,as⟩
    · simp only [List.map_cons,List.map_nil,List.intercalate_singleton] at hn ⊢
      rw [readElements,ha n (']' :: rest) (by omega) (ends_cons rfl)]
      rfl
    · have hrest := ih (List.cons_ne_nil _ _) (fun c hc => h c (List.mem_cons_of_mem _ hc)) n
      simp only [List.map_cons,List.intercalate_cons_cons,List.length_append,List.length_cons,
        List.length_nil] at hn hrest ⊢
      rw [readElements,List.append_assoc,List.append_assoc,List.singleton_append,
        ha n _ (by omega) (ends_cons rfl)]
      show ((readElements n _).map _ : Option _) = _
      rw [hrest (by omega)]
      rfl

theorem reads_array {α : Type} {f : α → String} {v : α → Value} {as : List α}
    (h : ∀ a ∈ as, Reads (f a) (v a)) : Reads (Json.array f as) (.array (as.map v)) := by
  intro n rest hn _
  have htext : (Json.array f as).toList =
      '[' :: ([','].intercalate (as.map (fun a => (f a).toList)) ++ [']']) := by
    simp [Json.array,Function.comp_def]
  rw [htext] at hn ⊢
  obtain ⟨n,rfl⟩ := Nat.exists_eq_succ_of_ne_zero (Nat.ne_of_gt (Nat.lt_of_lt_of_le (Nat.succ_pos _) hn))
  rw [List.cons_append,List.append_assoc,List.singleton_append]
  by_cases has : as = []
  · rw [has]
    rfl
  · have hhead : (skipSpace ([','].intercalate (as.map (fun a => (f a).toList)) ++ ']' :: rest)).head? ≠
        some ']' := by
      obtain ⟨a,as',rfl⟩ := List.exists_cons_of_ne_nil has
      have ha := h a List.mem_cons_self
      rcases as' with _ | ⟨b,as'⟩
      · rw [List.map_singleton,List.intercalate_singleton]
        exact ha.head?_ne (ends_cons rfl)
      · rw [List.map_cons,List.map_cons,List.intercalate_cons_cons,List.append_assoc,List.append_assoc,
          List.singleton_append]
        exact ha.head?_ne (ends_cons rfl)
    show (if _ then _ else (readElements n _).map _ : Option _) = _
    rw [if_neg hhead,readElements_of_reads has h n rest (by
      simp only [List.length_cons,List.length_append,List.length_nil] at hn
      omega)]
    rfl

/-- A member as it is written. -/
def memberText (m : String × String) : List Char := (Json.string m.1).toList ++ ':' :: m.2.toList

/-- The key of a member, up to its colon. -/
theorem readMembers_key (k : String) (n : Nat) (cs : List Char) :
    readMembers (n + 1) ((Json.string k).toList ++ ':' :: cs) =
      (readValue n cs).bind (fun p =>
        match skipSpace p.2 with
        | [] => none
        | c :: cs =>
          if c = ',' then (readMembers n cs).map (fun q => ((k,p.1) :: q.1,q.2))
          else if c = '\x7d' then some ([(k,p.1)],cs)
          else none) := by
  have htext : (Json.string k).toList ++ ':' :: cs =
      '"' :: (k.toList.flatMap escapeChar ++ '"' :: ':' :: cs) := by
    rw [Json.string,String.toList_ofList]
    simp
  have hlen := length_le_flatMap_escapeChar k.toList
  have hkey : readChars ((k.toList.flatMap escapeChar ++ '"' :: ':' :: cs).length + 1)
      (k.toList.flatMap escapeChar ++ '"' :: ':' :: cs) = some (k.toList,':' :: cs) := by
    refine readChars_escaped _ _ _ ?_
    simp only [List.length_append,List.length_cons]
    omega
  rw [htext,readMembers]
  show ((readChars _ _).bind _ : Option _) = _
  rw [hkey]
  simp only [Option.bind_some,String.ofList_toList]
  rfl

theorem readMembers_of_reads {ms : List (String × String × Value)} (hne : ms ≠ [])
    (h : ∀ m ∈ ms, Reads m.2.1 m.2.2) (n : Nat) (rest : List Char)
    (hn : ([','].intercalate (ms.map (fun m => memberText (m.1,m.2.1)))).length + 1 ≤ n) :
    readMembers n ([','].intercalate (ms.map (fun m => memberText (m.1,m.2.1))) ++ '\x7d' :: rest) =
      some (ms.map (fun m => (m.1,m.2.2)),rest) := by
  induction ms generalizing n with
  | nil => exact absurd rfl hne
  | cons m ms ih =>
    obtain ⟨n,rfl⟩ := Nat.exists_eq_succ_of_ne_zero (Nat.ne_of_gt (Nat.lt_of_lt_of_le (Nat.succ_pos _) hn))
    have hm := h m List.mem_cons_self
    rcases ms with _ | ⟨m',ms⟩
    · simp only [List.map_cons,List.map_nil,List.intercalate_singleton,memberText,List.length_append,
        List.length_cons] at hn ⊢
      rw [List.append_assoc,List.cons_append,readMembers_key,hm n _ (by omega) (ends_cons rfl)]
      rfl
    · have hrest := ih (List.cons_ne_nil _ _) (fun c hc => h c (List.mem_cons_of_mem _ hc)) n
      simp only [List.map_cons,List.intercalate_cons_cons,List.length_append,List.length_cons,
        List.length_nil] at hn hrest ⊢
      rw [List.append_assoc,List.append_assoc,List.singleton_append]
      have hm' : m.2.1.toList.length ≤ n := by
        simp only [memberText,List.length_append,List.length_cons] at hn
        omega
      rw [memberText,List.append_assoc,List.cons_append,readMembers_key,
        hm n _ hm' (ends_cons rfl)]
      show ((readMembers n _).map _ : Option _) = _
      rw [hrest (by omega)]
      rfl

theorem reads_object (ms : List (String × String × Value)) (h : ∀ m ∈ ms, Reads m.2.1 m.2.2) :
    Reads (Json.object (ms.map (fun m => (m.1,m.2.1)))) (.object (ms.map (fun m => (m.1,m.2.2)))) := by
  intro n rest hn _
  have htext : (Json.object (ms.map (fun m => (m.1,m.2.1)))).toList =
      '\x7b' :: ([','].intercalate (ms.map (fun m => memberText (m.1,m.2.1))) ++ ['\x7d']) := by
    simp [Json.object,Function.comp_def,memberText]
  rw [htext] at hn ⊢
  obtain ⟨n,rfl⟩ := Nat.exists_eq_succ_of_ne_zero (Nat.ne_of_gt (Nat.lt_of_lt_of_le (Nat.succ_pos _) hn))
  rw [List.cons_append,List.append_assoc,List.singleton_append]
  by_cases hms : ms = []
  · rw [hms]
    rfl
  · have hhead : (skipSpace ([','].intercalate (ms.map (fun m => memberText (m.1,m.2.1))) ++
        '\x7d' :: rest)).head? ≠ some '\x7d' := by
      obtain ⟨m,ms',rfl⟩ := List.exists_cons_of_ne_nil hms
      have hquote : ∀ cs, (skipSpace (memberText (m.1,m.2.1) ++ cs)).head? = some '"' := by
        intro cs
        simp [memberText,Json.string,skipSpace,isSpace]
      rcases ms' with _ | ⟨m',ms'⟩
      · rw [List.map_singleton,List.intercalate_singleton,hquote]
        decide
      · rw [List.map_cons,List.map_cons,List.intercalate_cons_cons,List.append_assoc,List.append_assoc,
          hquote]
        decide
    show (if _ then _ else (readMembers n _).map _ : Option _) = _
    rw [if_neg hhead,readMembers_of_reads hms h n rest (by
      simp only [List.length_cons,List.length_append,List.length_nil] at hn
      omega)]
    rfl

end Rav.Json
