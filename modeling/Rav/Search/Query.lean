import Rav.Str

/-!
# Search queries

The query string of a search: words and quoted texts, some of which are operators such as `from:` or
`before:`. An operator asks for one or two filters; of each kind of filter the last one stands.

## Main definitions

- `Filter` — what a search can ask of a message, beside its text
- `tokenizeQuery`, `splitOperator`, `tokenFilters` — the tokens of a query, and what they ask for
- `parseSearchQuery` — the parsed query
-/

namespace Rav

/-- What can be asked of a message. -/
inductive Filter
  | folder (name : String)
  | from_ (value : String)
  | to_ (value : String)
  | subject (value : String)
  | dateFrom (epoch : Int)
  | dateTo (epoch : Int)
  | hasAttachment (on : Bool)
  | isRead (on : Bool)
  | isFlagged (on : Bool)
  deriving DecidableEq, Repr

/-! ### Tokens -/

/-- The tokens of a text, from within a quoted section or outside one; `current` has been read of the
first. -/
def tokensFrom : Bool → List Char → List Char → List String
  | _, current, [] => if current.isEmpty then [] else [String.ofList current]
  | true, current, c :: cs =>
    if c = '"' then tokensFrom false current cs else tokensFrom true (current ++ [c]) cs
  | false, current, c :: cs =>
    if isWhitespace c then
      (if current.isEmpty then [] else [String.ofList current]) ++ tokensFrom false [] cs
    else if c = '"' then tokensFrom true current cs
    else tokensFrom false (current ++ [c]) cs

def tokenizeQuery (input : String) : List String := tokensFrom false [] input.toList

/-- A token `operator:value`, with letters before the colon and something after it. -/
def splitOperator (token : String) : Option (String × String) :=
  match splitOnce [':'] token.toList with
  | some (op,val) =>
    if !op.isEmpty && op.all Char.isAlpha && !val.isEmpty then some (String.ofList op,String.ofList val)
    else none
  | none => none

/-- `str::to_lowercase`, as far as it yields letters of ASCII. -/
def toLowercase (s : String) : String :=
  String.ofList (s.toList.map (fun c => if c.toNat = 0x212A then 'k' else c.toLower))

/-! ### Dates -/

/-- `str::parse` of an `i64`. -/
def parseI64 (s : List Char) : Option Int :=
  let digits := if s.head? = some '-' ∨ s.head? = some '+' then s.tail else s
  let n : Int := digits.foldl (fun n c => 10 * n + (c.toNat - '0'.toNat)) 0
  let n := if s.head? = some '-' then -n else n
  if digits ≠ [] ∧ digits.all Char.isDigit ∧ -9223372036854775808 ≤ n ∧ n ≤ 9223372036854775807 then
    some n
  else none

def isLeapYear (y : Int) : Bool := (y % 4 = 0 && y % 100 ≠ 0) || y % 400 = 0

/-- The epoch of the first second of a year. -/
def yearToEpoch (year : Int) : Option Int :=
  if year < 1970 then none
  else
    let years := (List.range (year - 1970).toNat).map (fun i => (1970 + i : Int))
    some ((years.map (fun y => if isLeapYear y then 366 else 365)).foldr (· + ·) 0 * 86400)

def monthToEpoch (year month : Int) : Option Int :=
  if 1 ≤ month ∧ month ≤ 12 then do
    let yearStart ← yearToEpoch year
    let daysPerMonth : List Int :=
      [31,28 + (if isLeapYear year then 1 else 0),31,30,31,30,31,31,30,31,30,31]
    some (yearStart + (daysPerMonth.take (month - 1).toNat).foldr (· + ·) 0 * 86400)
  else none

def dayToEpoch (year month day : Int) : Option Int :=
  if 1 ≤ day ∧ day ≤ 31 then do
    let monthStart ← monthToEpoch year month
    some (monthStart + (day - 1) * 86400)
  else none

/-- A year of four digits. -/
def yearOnly (s : List Char) : Bool := s.length = 4 && s.all Char.isDigit

/-- The start of a date, for `after:` and `before:`. -/
def parseDateStart (now : Int) (date : String) : Option Int :=
  let s := (toLowercase (strTrim date)).toList
  let todayStart := now - now % 86400
  if s = "today".toList then some todayStart
  else if s = "yesterday".toList then some (todayStart - 86400)
  else if s = "last-week".toList then some (todayStart - 7 * 86400)
  else if s = "last-month".toList then some (todayStart - 30 * 86400)
  else if yearOnly s then (parseI64 s).bind yearToEpoch
  else if s.contains '-' then
    match splitFuel ['-'] 2 s with
    | [y,m] => do monthToEpoch (← parseI64 y) (← parseI64 m)
    | [y,m,d] => do dayToEpoch (← parseI64 y) (← parseI64 m) (← parseI64 d)
    | _ => none
  else if s.contains '/' then
    match splitAll ['/'] s with
    | [m,y] => do monthToEpoch (← parseI64 y) (← parseI64 m)
    | [m,d,y] => do dayToEpoch (← parseI64 y) (← parseI64 m) (← parseI64 d)
    | _ => none
  else none

/-- A single day. -/
def dayRange (now : Int) (date : String) : Option (Int × Int) :=
  (parseDateStart now date).map (fun start => (start,start + 86400 - 1))

/-- The first and last second of a date, for `date:`: a year, a month or a day. -/
def parseDateRange (now : Int) (date : String) : Option (Int × Int) :=
  let s := (toLowercase (strTrim date)).toList
  if yearOnly s then do
    let year ← parseI64 s
    let start ← yearToEpoch year
    let next ← yearToEpoch (year + 1)
    some (start,next - 1)
  else if s.contains '-' then
    match splitFuel ['-'] 2 s with
    | [y,m] => do
      let year ← parseI64 y
      let month ← parseI64 m
      let start ← monthToEpoch year month
      let next ← if month = 12 then monthToEpoch (year + 1) 1 else monthToEpoch year (month + 1)
      some (start,next - 1)
    | _ => dayRange now date
  else dayRange now date

/-! ### Operators -/

/-- What an operator asks for: a date that cannot be read asks for nothing; an unknown operator is
plain text. -/
def operatorFilters (now : Int) (op value : String) : Option (List Filter) :=
  if op = "from" then some [.from_ value]
  else if op = "to" then some [.to_ value]
  else if op = "subject" then some [.subject value]
  else if op = "in" ∨ op = "folder" then some [.folder value]
  else if op = "date" then
    some ((parseDateRange now value).elim [] (fun r => [.dateFrom r.1,.dateTo r.2]))
  else if op = "after" then some ((parseDateStart now value).elim [] (fun t => [.dateFrom t]))
  else if op = "before" then some ((parseDateStart now value).elim [] (fun t => [.dateTo t]))
  else if op = "has" ∧ eqIgnoreAsciiCase value "attachment" then some [.hasAttachment true]
  else if op = "is" then
    if toLowercase value = "read" then some [.isRead true]
    else if toLowercase value = "unread" then some [.isRead false]
    else if toLowercase value = "flagged" ∨ toLowercase value = "starred" then some [.isFlagged true]
    else none
  else none

/-- What a token asks for, unless it is plain text. -/
def tokenFilters (now : Int) (token : String) : Option (List Filter) :=
  (splitOperator token).bind (fun p => operatorFilters now (toLowercase p.1) p.2)

structure ParsedQuery where
  textParts : List String
  subjectOnly : Option String
  folder : Option String
  from_ : Option String
  to_ : Option String
  dateFrom : Option Int
  dateTo : Option Int
  hasAttachment : Option Bool
  isRead : Option Bool
  isFlagged : Option Bool
  deriving DecidableEq, Repr

def ParsedQuery.empty : ParsedQuery := ⟨[],none,none,none,none,none,none,none,none,none⟩

def ParsedQuery.text (p : ParsedQuery) : String := " ".intercalate p.textParts

def ParsedQuery.set (p : ParsedQuery) : Filter → ParsedQuery
  | .folder v => { p with folder := some v }
  | .from_ v => { p with from_ := some v }
  | .to_ v => { p with to_ := some v }
  | .subject v => { p with subjectOnly := some v }
  | .dateFrom t => { p with dateFrom := some t }
  | .dateTo t => { p with dateTo := some t }
  | .hasAttachment b => { p with hasAttachment := some b }
  | .isRead b => { p with isRead := some b }
  | .isFlagged b => { p with isFlagged := some b }

/-- Take in one token. -/
def ParsedQuery.absorb (now : Int) (p : ParsedQuery) (token : String) : ParsedQuery :=
  match tokenFilters now token with
  | some fs => fs.foldl ParsedQuery.set p
  | none => { p with textParts := p.textParts ++ [token] }

def parseSearchQuery (now : Int) (input : String) : ParsedQuery :=
  (tokenizeQuery input).foldl (ParsedQuery.absorb now) .empty

/-- The filters of a parsed query. -/
def ParsedQuery.filters (p : ParsedQuery) : List Filter :=
  (p.folder.map .folder).toList ++ (p.from_.map .from_).toList ++ (p.to_.map .to_).toList ++
    (p.subjectOnly.map .subject).toList ++ (p.dateFrom.map .dateFrom).toList ++
    (p.dateTo.map .dateTo).toList ++ (p.hasAttachment.map .hasAttachment).toList ++
    (p.isRead.map .isRead).toList ++ (p.isFlagged.map .isFlagged).toList

/-- What a token means: as it is read, but that `date:` takes every date that `after:` takes. -/
def tokenMeaning (now : Int) (token : String) : List Filter :=
  match splitOperator token with
  | some (op,value) =>
    if toLowercase op = "date" then
      ((parseDateRange now value).or (dayRange now value)).elim []
        (fun r => [.dateFrom r.1,.dateTo r.2])
    else (operatorFilters now (toLowercase op) value).getD []
  | none => []

/-- All the operators of a query ask for. -/
def queryFilters (now : Int) (input : String) : List Filter :=
  (tokenizeQuery input).flatMap (tokenMeaning now)

/-! ### A parsed query asks for nothing that was not given -/

variable {now : Int} {f : Filter}

theorem ParsedQuery.mem_filters_set {p : ParsedQuery} {g : Filter} (h : f ∈ (p.set g).filters) :
    f = g ∨ f ∈ p.filters := by
  cases g <;>
  · simp only [set,filters,List.mem_append,Option.map_some,Option.toList_some,List.mem_singleton] at h ⊢
    tauto

theorem ParsedQuery.mem_filters_foldl_set {fs : List Filter} {p : ParsedQuery}
    (h : f ∈ (fs.foldl ParsedQuery.set p).filters) : f ∈ fs ∨ f ∈ p.filters := by
  induction fs generalizing p with
  | nil => exact Or.inr h
  | cons g fs ih =>
    rcases ih h with hfs | hset
    · exact Or.inl (List.mem_cons_of_mem _ hfs)
    · rcases mem_filters_set hset with rfl | hp
      · exact Or.inl List.mem_cons_self
      · exact Or.inr hp

theorem mem_tokenMeaning {token : String} {fs : List Filter} (hfs : tokenFilters now token = some fs)
    (h : f ∈ fs) : f ∈ tokenMeaning now token := by
  unfold tokenFilters at hfs
  unfold tokenMeaning
  cases hsplit : splitOperator token with
  | none => simp [hsplit] at hfs
  | some p =>
    obtain ⟨op,value⟩ := p
    rw [hsplit,Option.bind_some] at hfs
    dsimp only at hfs ⊢
    split
    · next hdate =>
      rw [hdate] at hfs
      have hfs : (parseDateRange now value).elim [] (fun r => [.dateFrom r.1,.dateTo r.2]) = fs :=
        Option.some.inj hfs
      cases hrange : parseDateRange now value with
      | none =>
        rw [hrange] at hfs
        subst hfs
        simp at h
      | some r =>
        rw [hrange] at hfs
        subst hfs
        exact h
    · rw [hfs]
      exact h

/-- Every filter of the parsed query is one that an operator asks for. -/
theorem mem_queryFilters_of_parsed {input : String} (h : f ∈ (parseSearchQuery now input).filters) :
    f ∈ queryFilters now input := by
  have hgo : ∀ (tokens : List String) (p : ParsedQuery),
      f ∈ (tokens.foldl (ParsedQuery.absorb now) p).filters →
        f ∈ tokens.flatMap (tokenMeaning now) ∨ f ∈ p.filters := by
    intro tokens
    induction tokens with
    | nil => exact fun _ h => Or.inr h
    | cons token tokens ih =>
      intro p h
      rw [List.flatMap_cons,List.mem_append]
      rcases ih _ h with hrest | hfirst
      · exact Or.inl (Or.inr hrest)
      · unfold ParsedQuery.absorb at hfirst
        cases hfs : tokenFilters now token with
        | none =>
          rw [hfs] at hfirst
          exact Or.inr hfirst
        | some fs =>
          rw [hfs] at hfirst
          rcases ParsedQuery.mem_filters_foldl_set hfirst with hmem | hp
          · exact Or.inl (Or.inl (mem_tokenMeaning hfs hmem))
          · exact Or.inr hp
  rcases hgo _ _ h with hmem | hempty
  · exact hmem
  · simp [ParsedQuery.filters,ParsedQuery.empty] at hempty

end Rav
