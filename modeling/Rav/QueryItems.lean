import Rav.Search.Query

/-!
# Query items

A query put together from operators with quoted values and from plain words is read as what it was put
together from.

## Main definitions

- `QueryItem` — an operator with its value, or a word
- `joinItems` — the items as the text of a query
- `ParsedQuery.ofItems` — what the items say
- `parseSearchQuery_joinItems` — the text is read as what the items say
-/

namespace Rav

/-- The names of the operators that take a text. -/
inductive OperatorName
  | from_
  | to_
  | subject
  | in_
  | folder
  deriving DecidableEq, Repr

def OperatorName.text : OperatorName → String
  | .from_ => "from"
  | .to_ => "to"
  | .subject => "subject"
  | .in_ => "in"
  | .folder => "folder"

/-- An operator whose name is written in any letter case, with a value free of quotes, or a word
without white space, colon or quote. -/
inductive QueryItem
  | operator (name : OperatorName) (op value : List Char)
      (op_eq : op.map Char.toLower = name.text.toList) (value_ne_nil : value ≠ [])
      (quote_not_mem : '"' ∉ value)
  | word (chars : List Char) (ne_nil : chars ≠ [])
      (plain : ∀ c ∈ chars, isWhitespace c = false ∧ c ≠ ':' ∧ c ≠ '"')

/-- White space between two items. -/
structure Gap where
  chars : List Char
  ne_nil : chars ≠ []
  blank : ∀ c ∈ chars, isWhitespace c = true

namespace QueryItem

def chars : QueryItem → List Char
  | .operator _ op value _ _ _ => op ++ ':' :: '"' :: value ++ ['"']
  | .word cs _ _ => cs

/-- The item as a token, without quotes. -/
def token : QueryItem → List Char
  | .operator _ op value _ _ _ => op ++ ':' :: value
  | .word cs _ _ => cs

/-- What an operator asks for. -/
def filter? : QueryItem → Option Filter
  | .operator .from_ _ value _ _ _ => some (.from_ (String.ofList value))
  | .operator .to_ _ value _ _ _ => some (.to_ (String.ofList value))
  | .operator .subject _ value _ _ _ => some (.subject (String.ofList value))
  | .operator .in_ _ value _ _ _ => some (.folder (String.ofList value))
  | .operator .folder _ value _ _ _ => some (.folder (String.ofList value))
  | .word _ _ _ => none

/-- The value of an item that is an operator with one of some names. -/
def value? (names : List OperatorName) : QueryItem → Option String
  | .operator name _ value _ _ _ => if name ∈ names then some (String.ofList value) else none
  | .word _ _ _ => none

def word? : QueryItem → Option String
  | .operator _ _ _ _ _ _ => none
  | .word cs _ _ => some (String.ofList cs)

end QueryItem

/-- The items one after the other, each after its gap but the first. -/
def joinItems : List (Gap × QueryItem) → List Char
  | [] => []
  | (_,item) :: items => item.chars ++ items.flatMap (fun p => p.1.chars ++ p.2.chars)

/-- The value last given with one of some names. -/
def lastValue (names : List OperatorName) (items : List QueryItem) : Option String :=
  (items.filterMap (QueryItem.value? names)).getLast?

def ParsedQuery.ofItems (items : List QueryItem) : ParsedQuery where
  textParts := items.filterMap QueryItem.word?
  subjectOnly := lastValue [.subject] items
  folder := lastValue [.in_,.folder] items
  from_ := lastValue [.from_] items
  to_ := lastValue [.to_] items
  dateFrom := none
  dateTo := none
  hasAttachment := none
  isRead := none
  isFlagged := none

/-! ### Tokens -/

/-- What is neither white space nor a quote is read into the token. -/
theorem tokensFrom_plain {cs : List Char} (hcs : ∀ c ∈ cs, isWhitespace c = false ∧ c ≠ '"')
    (current rest : List Char) :
    tokensFrom false current (cs ++ rest) = tokensFrom false (current ++ cs) rest := by
  induction cs generalizing current with
  | nil => rw [List.nil_append, List.append_nil]
  | cons c cs ih =>
    obtain ⟨⟨hspace,hquote⟩,hcs⟩ := List.forall_mem_cons.mp hcs
    rw [List.cons_append, tokensFrom, if_neg (by rw [hspace]; exact Bool.false_ne_true), if_neg hquote,
      ih hcs, List.append_assoc, List.singleton_append]

/-- A quoted section is read up to the next quote. -/
theorem tokensFrom_quoted {value : List Char} (hvalue : '"' ∉ value) (current rest : List Char) :
    tokensFrom true current (value ++ '"' :: rest) = tokensFrom false (current ++ value) rest := by
  induction value generalizing current with
  | nil => rw [List.nil_append, tokensFrom, if_pos rfl, List.append_nil]
  | cons c value ih =>
    rw [List.mem_cons, not_or] at hvalue
    rw [List.cons_append, tokensFrom, if_neg (Ne.symm hvalue.1), ih hvalue.2, List.append_assoc,
      List.singleton_append]

/-- White space between tokens is passed over. -/
theorem tokensFrom_blank {cs : List Char} (hcs : ∀ c ∈ cs, isWhitespace c = true) (rest : List Char) :
    tokensFrom false [] (cs ++ rest) = tokensFrom false [] rest := by
  induction cs with
  | nil => rfl
  | cons c cs ih =>
    obtain ⟨hspace,hcs⟩ := List.forall_mem_cons.mp hcs
    rw [List.cons_append, tokensFrom, if_pos hspace, ih hcs]
    rfl

/-- A gap ends a token. -/
theorem tokensFrom_gap (g : Gap) {current : List Char} (hcurrent : current ≠ []) (rest : List Char) :
    tokensFrom false current (g.chars ++ rest) =
      String.ofList current :: tokensFrom false [] rest := by
  obtain ⟨c,cs,hc⟩ := List.exists_cons_of_ne_nil g.ne_nil
  have hblank := g.blank
  rw [hc, List.forall_mem_cons] at hblank
  rw [hc, List.cons_append, tokensFrom, if_pos hblank.1, tokensFrom_blank hblank.2,
    if_neg (by rwa [List.isEmpty_iff])]
  rfl

theorem toNat_of_isAlpha {c : Char} (hc : c.isAlpha = true) :
    65 ≤ c.toNat ∧ c.toNat ≤ 90 ∨ 97 ≤ c.toNat ∧ c.toNat ≤ 122 := by
  have halpha : (c.isUpper || c.isLower) = true := hc
  rcases Bool.or_eq_true_iff.mp halpha with hupper | hlower
  · left
    have hrange : 'A'.val ≤ c.val ∧ c.val ≤ 'Z'.val := (of_decide_eq_true hupper :)
    exact ⟨UInt32.le_iff_toNat_le.mp hrange.1,UInt32.le_iff_toNat_le.mp hrange.2⟩
  · right
    have hlow : 'a'.val ≤ c.val := (of_decide_eq_true (Bool.and_eq_true_iff.mp hlower).1 :)
    have hhigh : c.val ≤ 'z'.val := (of_decide_eq_true (Bool.and_eq_true_iff.mp hlower).2 :)
    exact ⟨UInt32.le_iff_toNat_le.mp hlow,UInt32.le_iff_toNat_le.mp hhigh⟩

/-- The characters of an operator's name are letters. -/
theorem isAlpha_of_op {name : OperatorName} {op : List Char}
    (hop : op.map Char.toLower = name.text.toList) : ∀ c ∈ op, c.isAlpha = true := by
  have hname : ∀ name : OperatorName, ∀ c ∈ name.text.toList, c.isLower = true := by
    intro name
    cases name <;> exact forall_mem_of_all (by decide)
  intro c hc
  have hlower := hname name c.toLower (hop ▸ List.mem_map_of_mem hc)
  by_cases hupper : 65 ≤ c.toNat ∧ c.toNat ≤ 90
  · have hup : c.isUpper = true := decide_eq_true hupper
    exact Bool.or_eq_true_iff.mpr (Or.inl hup)
  · have heq : c.toLower = c := by
      unfold Char.toLower
      exact dif_neg hupper
    rw [heq] at hlower
    exact Bool.or_eq_true_iff.mpr (Or.inr hlower)

namespace QueryItem

theorem token_ne_nil (item : QueryItem) : item.token ≠ [] := by
  cases item with
  | operator name op value hop hne hquote =>
    unfold token
    simp
  | word cs hne hplain => exact hne

theorem tokensFrom_chars (item : QueryItem) (rest : List Char) :
    tokensFrom false [] (item.chars ++ rest) = tokensFrom false item.token rest := by
  cases item with
  | operator name op value hop hne hquote =>
    have hletter : ∀ c ∈ op, isWhitespace c = false ∧ c ≠ '"' := by
      intro c hc
      have hrange := toNat_of_isAlpha (isAlpha_of_op hop c hc)
      constructor
      · unfold isWhitespace
        simp only [Bool.or_eq_false_iff, Bool.and_eq_false_iff, decide_eq_false_iff_not]
        omega
      · rintro rfl
        exact absurd hrange (by decide)
    have hplain : ∀ c ∈ op ++ [':'], isWhitespace c = false ∧ c ≠ '"' :=
      List.forall_mem_append.mpr ⟨hletter,forall_mem_of_all (by decide)⟩
    have hchars : (operator name op value hop hne hquote).chars ++ rest =
        (op ++ [':']) ++ '"' :: (value ++ '"' :: rest) := by
      simp [chars]
    rw [hchars, tokensFrom_plain hplain, tokensFrom, if_neg (by decide), if_pos rfl,
      tokensFrom_quoted hquote]
    simp [token]
  | word cs hne hplain =>
    exact tokensFrom_plain (fun c hc => ⟨(hplain c hc).1,(hplain c hc).2.2⟩) [] rest

/-- The tokens of the text after an item. -/
theorem tokensFrom_rest (item : QueryItem) (items : List (Gap × QueryItem)) :
    tokensFrom false item.token (items.flatMap (fun p => p.1.chars ++ p.2.chars)) =
      (item :: items.map Prod.snd).map (fun i => String.ofList i.token) := by
  induction items generalizing item with
  | nil =>
    rw [List.flatMap_nil, tokensFrom, if_neg (by rw [List.isEmpty_iff]; exact item.token_ne_nil)]
    rfl
  | cons p items ih =>
    rw [List.flatMap_cons, List.append_assoc, tokensFrom_gap p.1 item.token_ne_nil, tokensFrom_chars, ih]
    rfl

end QueryItem

theorem tokenizeQuery_joinItems (items : List (Gap × QueryItem)) :
    tokenizeQuery (String.ofList (joinItems items)) =
      (items.map Prod.snd).map (fun i => String.ofList i.token) := by
  unfold tokenizeQuery
  rw [String.toList_ofList]
  cases items with
  | nil => rfl
  | cons p items =>
    exact (p.2.tokensFrom_chars _).trans (p.2.tokensFrom_rest items)

/-! ### Operators -/

namespace QueryItem

/-- An operator is found again in its token. -/
theorem splitOperator_token {name : OperatorName} {op value : List Char}
    (hop : op.map Char.toLower = name.text.toList) (hvalue : value ≠ []) :
    splitOperator (String.ofList (op ++ ':' :: value)) = some (String.ofList op,String.ofList value) := by
  have halpha := isAlpha_of_op hop
  have hcolon : ':' ∉ op := by
    intro h
    exact absurd (halpha ':' h) (by decide)
  have hne : op ≠ [] := by
    rintro rfl
    have hempty : ∀ name : OperatorName, [] ≠ name.text.toList := by
      intro name
      cases name <;> decide
    exact hempty name hop
  unfold splitOperator
  rw [String.toList_ofList, splitOnce_char hcolon]
  dsimp only
  rw [if_pos]
  simpa [hne, hvalue] using halpha

/-- The name of an operator in lower case. -/
theorem toLowercase_op {name : OperatorName} {op : List Char}
    (hop : op.map Char.toLower = name.text.toList) : toLowercase (String.ofList op) = name.text := by
  have halpha := isAlpha_of_op hop
  have hlower : ∀ c ∈ op, (if c.toNat = 0x212A then 'k' else c.toLower) = c.toLower := by
    intro c hc
    have hrange := toNat_of_isAlpha (halpha c hc)
    exact if_neg (by omega)
  rw [toLowercase, String.toList_ofList, List.map_congr_left hlower, hop, String.ofList_toList]

theorem splitOperator_word {cs : List Char} (hcs : ∀ c ∈ cs, c ≠ ':') :
    splitOperator (String.ofList cs) = none := by
  unfold splitOperator
  rw [String.toList_ofList, splitOnce_none fun h => hcs ':' h rfl]

/-- What the token of an item asks for. -/
theorem tokenFilters_token (now : Int) (item : QueryItem) :
    tokenFilters now (String.ofList item.token) = item.filter?.map (fun f => [f]) := by
  unfold tokenFilters
  cases item with
  | operator name op value hop hne hquote =>
    unfold token
    rw [splitOperator_token hop hne, Option.bind_some, toLowercase_op hop]
    cases name <;> rfl
  | word cs hne hplain =>
    unfold token
    rw [splitOperator_word fun c hc => (hplain c hc).2.1]
    rfl

end QueryItem

/-! ### What is read -/

theorem lastValue_cons (names : List OperatorName) (item : QueryItem) (items : List QueryItem) :
    lastValue names (item :: items) = (lastValue names items).or (item.value? names) := by
  unfold lastValue
  rw [List.filterMap_cons]
  cases item.value? names with
  | none => rw [Option.or_none]
  | some v => rw [List.getLast?_cons, Option.or_some]

/-- What is read of the token of an item. -/
theorem absorb_token (now : Int) (p : ParsedQuery) (item : QueryItem) :
    p.absorb now (String.ofList item.token) =
      { p with
        textParts := p.textParts ++ item.word?.toList
        subjectOnly := (item.value? [.subject]).or p.subjectOnly
        folder := (item.value? [.in_,.folder]).or p.folder
        from_ := (item.value? [.from_]).or p.from_
        to_ := (item.value? [.to_]).or p.to_ } := by
  unfold ParsedQuery.absorb
  rw [item.tokenFilters_token now]
  cases item with
  | operator name op value hop hne hquote =>
    cases name <;> simp [QueryItem.filter?, QueryItem.value?, QueryItem.word?, ParsedQuery.set]
  | word cs hne hplain => simp [QueryItem.filter?, QueryItem.value?, QueryItem.word?, QueryItem.token]

/-- What has been read so far, and what the items say. -/
theorem foldl_absorb (now : Int) (items : List QueryItem) (p : ParsedQuery) :
    (items.map (fun i => String.ofList i.token)).foldl (ParsedQuery.absorb now) p =
      { p with
        textParts := p.textParts ++ items.filterMap QueryItem.word?
        subjectOnly := (lastValue [.subject] items).or p.subjectOnly
        folder := (lastValue [.in_,.folder] items).or p.folder
        from_ := (lastValue [.from_] items).or p.from_
        to_ := (lastValue [.to_] items).or p.to_ } := by
  induction items generalizing p with
  | nil => simp [lastValue]
  | cons item items ih =>
    rw [List.map_cons, List.foldl_cons, ih, absorb_token]
    simp only [lastValue_cons, Option.or_assoc]
    cases hword : item.word? <;> simp [hword]

/-- The items are read as what they say, and the free text is the words with single spaces between
them. -/
theorem parseSearchQuery_joinItems (now : Int) (items : List (Gap × QueryItem)) :
    parseSearchQuery now (String.ofList (joinItems items)) = ParsedQuery.ofItems (items.map Prod.snd) ∧
      (parseSearchQuery now (String.ofList (joinItems items))).text =
        " ".intercalate ((items.map Prod.snd).filterMap QueryItem.word?) := by
  have hparsed : parseSearchQuery now (String.ofList (joinItems items)) =
      ParsedQuery.ofItems (items.map Prod.snd) := by
    unfold parseSearchQuery
    rw [tokenizeQuery_joinItems, foldl_absorb]
    unfold ParsedQuery.ofItems
    simp [ParsedQuery.empty]
  exact ⟨hparsed,congrArg ParsedQuery.text hparsed⟩

end Rav
