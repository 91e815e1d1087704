import Rav.Sieve.Grammar
import Rav.Replace
import Rav.Sieve.Generator
import Rav.Sieve.Strings

/-!
# The form of generated scripts

A script declares the extensions it uses with `require`, before any other command (RFC 5228,
section 3.2). Every part of what is generated from the rules is a text that is read as commands, as long as
the strings it was given can be written. Put together they are a script that declares what it uses.

## Main definitions

- `extensionOf`, `tagExtension`, `Script.extensions` — what a script uses
- `Script.required`, `Script.requiresFirst` — what it declares, and where
- `WellFormed` — a text that is a script with its declarations in order
- `ruleOk`, `vacationOk` — the strings can be written
- `WrittenTest`, `Written` — a text that is read as a test, or as commands
- `written_rulesPart` — declarations and commands of the rules
-/

namespace Rav.Sieve

/-- The extension a command or a test belongs to; none where RFC 5228 has it. -/
def extensionOf (name : String) : Option String :=
  if name ∈ ["require","if","elsif","else","stop","keep","discard","redirect","address","allof",
    "anyof","exists","false","header","not","size","true"] then none
  else if name ∈ ["setflag","addflag","removeflag","hasflag"] then some "imap4flags"
  else if name ∈ ["date","currentdate"] then some "date"
  else if name ∈ ["set","string"] then some "variables"
  else some name

/-- The extension a tag belongs to. -/
def tagExtension (name : String) : Option String :=
  if name ∈ ["value","count"] then some "relational"
  else if name = "flags" then some "imap4flags"
  else if name = "create" then some "mailbox"
  else if name ∈ ["index","last"] then some "index"
  else if name ∈ ["copy","regex"] then some name
  else none

def Argument.extensions : Argument → List String
  | .tag name => (tagExtension name).toList
  | _ => []

mutual

def Clause.extensions : Clause → List String
  | .plain name args => (extensionOf name).toList ++ args.flatMap Argument.extensions
  | .nested name args test =>
    (extensionOf name).toList ++ args.flatMap Argument.extensions ++ test.extensions
  | .group name args tests =>
    (extensionOf name).toList ++ args.flatMap Argument.extensions ++ tests.extensions

def Tests.extensions : Tests → List String
  | .one test => test.extensions
  | .cons test tests => test.extensions ++ tests.extensions

end

def Clause.name : Clause → String
  | .plain name _ => name
  | .nested name _ _ => name
  | .group name _ _ => name

def Clause.args : Clause → List Argument
  | .plain _ args => args
  | .nested _ args _ => args
  | .group _ args _ => args

/-- The strings of an argument. -/
def Argument.strings : Argument → List String
  | .str s => [s]
  | .list s ss => s :: ss
  | _ => []

/-- The extensions a command declares. -/
def Clause.required (c : Clause) : List String :=
  if c.name = "require" then c.args.flatMap Argument.strings else []

namespace Script

/-- The extensions of all commands and tests. -/
def extensions : Script → List String
  | .nil => []
  | .simple head rest => head.extensions ++ rest.extensions
  | .block head body rest => head.extensions ++ body.extensions ++ rest.extensions

/-- The extensions that are declared, blocks aside. -/
def required : Script → List String
  | .nil => []
  | .simple head rest => head.required ++ rest.required
  | .block _ _ rest => rest.required

def noRequire : Script → Bool
  | .nil => true
  | .simple head rest => head.name ≠ "require" && rest.noRequire
  | .block head body rest => head.name ≠ "require" && body.noRequire && rest.noRequire

/-- There is no `require` after another command, or in a block. -/
def requiresFirst : Script → Bool
  | .simple head rest => if head.name = "require" then rest.requiresFirst else rest.noRequire
  | s => s.noRequire

def append : Script → Script → Script
  | .nil, t => t
  | .simple head rest, t => .simple head (rest.append t)
  | .block head body rest, t => .block head body (rest.append t)

variable (s t : Script)

@[simp] theorem tokens_append : (s.append t).tokens = s.tokens ++ t.tokens := by
  induction s with
  | nil => rfl
  | simple head rest ih => simp [append,tokens,ih]
  | block head body rest ihbody ih => simp [append,tokens,ih]

@[simp] theorem extensions_append : (s.append t).extensions = s.extensions ++ t.extensions := by
  induction s with
  | nil => rfl
  | simple head rest ih => simp [append,extensions,ih]
  | block head body rest ihbody ih => simp [append,extensions,ih]

@[simp] theorem required_append : (s.append t).required = s.required ++ t.required := by
  induction s with
  | nil => rfl
  | simple head rest ih => simp [append,required,ih]
  | block head body rest ihbody ih => simp [append,required,ih]

@[simp] theorem noRequire_append : (s.append t).noRequire = (s.noRequire && t.noRequire) := by
  induction s with
  | nil => rfl
  | simple head rest ih => simp [append,noRequire,ih,Bool.and_assoc]
  | block head body rest ihbody ih => simp [append,noRequire,ih,Bool.and_assoc]

end Script

/-- The text parses, every `require` comes first, and every extension in use is declared. -/
def WellFormed (text : String) : Prop :=
  ∃ s, parse text = some s ∧ s.requiresFirst = true ∧ ∀ e ∈ s.extensions, e ∈ s.required

theorem wellFormed_iff {text : String} {s : Script} (h : parse text = some s) :
    WellFormed text ↔ s.requiresFirst = true ∧ ∀ e ∈ s.extensions, e ∈ s.required := by
  constructor
  · rintro ⟨t,ht,hs⟩
    obtain rfl := Option.some.inj (h.symm.trans ht)
    exact hs
  · exact fun hs => ⟨s,h,hs⟩

theorem not_wellFormed {text : String} (h : parse text = none) : ¬WellFormed text := by
  rintro ⟨s,hs,-⟩
  exact absurd (h.symm.trans hs) nofun

end Rav.Sieve

namespace Rav

open Sieve

/-! ### Strings that can be written -/

/-- The string can be quoted: no NUL, and every carriage return before a line feed. -/
def strOk (s : String) : Bool := quotable false s.toList

/-- The lines of a text have no NUL, and carriage returns at most at their ends. -/
def bodyOk (body : String) : Bool := (linesOf body.toList).all lineOk

/-- A condition on a header writes its value. -/
def conditionOk (cond : FilterCondition) : Bool := (fieldToHeader cond.field).isNone || strOk cond.value

/-- An action that moves or forwards writes its value. -/
def actionOk (action : FilterAction) : Bool :=
  if action.actionType = "move" ∨ action.actionType = "forward" then
    strOk (action.actionValue.getD "")
  else true

/-- There is a test for the condition. -/
def expressible (cond : FilterCondition) : Bool :=
  match cond.field with
  | "has_attachment" => true
  | "is_reply" => true
  | "size" =>
    (parseUnsigned (2 ^ 64) cond.value).isSome && cond.op ∈ ["greater_than","less_than"]
  | field => field ∈ ["from","to","cc","subject"] && cond.op ∈
      ["contains","not_contains","equals","not_equals","starts_with","ends_with"]

/-- The rule has a condition that can be expressed. -/
def emitted (rule : FilterRule) : Bool := rule.conditions.any expressible

/-- The conditions that can be expressed and the actions of a rule can be written. -/
def ruleOk (rule : FilterRule) : Bool :=
  !emitted rule ||
    rule.conditions.all (fun c => !expressible c || conditionOk c) && rule.actions.all actionOk

def dateOk (date : Option String) : Bool := date.all strOk

def vacationOk (v : VacationResponder) : Bool :=
  dateOk v.startDate && dateOk v.endDate && (strOk v.subject && bodyOk v.body)

/-! ### Escaping -/

def special (c : Char) : Bool := c = '\\' || c = '"'

def specialGlob (c : Char) : Bool := special c || c = '*' || c = '?'

theorem escapes_special : Escapes special := ⟨rfl,rfl,rfl,rfl,rfl⟩

theorem escapes_specialGlob : Escapes specialGlob := ⟨rfl,rfl,rfl,rfl,rfl⟩

theorem toList_escapeSieve (s : String) : (escapeSieve s).toList = escapeWith special s.toList := by
  unfold escapeSieve escapeWith
  rw [toList_replaceChar,toList_replaceChar,List.flatMap_assoc]
  refine congrArg (fun f => List.flatMap f s.toList) (funext fun c => ?_)
  by_cases hb : c = '\\'
  · subst hb
    rfl
  · by_cases hq : c = '"'
    · subst hq
      rfl
    · simp [special,hb,hq]

theorem toList_escapeSieveGlob (s : String) :
    (escapeSieveGlob s).toList = escapeWith specialGlob s.toList := by
  unfold escapeSieveGlob
  rw [toList_replaceChar,toList_replaceChar,toList_escapeSieve]
  unfold escapeWith
  rw [List.flatMap_assoc,List.flatMap_assoc]
  refine congrArg (fun f => List.flatMap f s.toList) (funext fun c => ?_)
  by_cases hb : c = '\\'
  · subst hb
    rfl
  by_cases hq : c = '"'
  · subst hq
    rfl
  by_cases ha : c = '*'
  · subst ha
    rfl
  by_cases hm : c = '?'
  · subst hm
    rfl
  · simp [specialGlob,special,hb,hq,ha,hm]

/-- A value between quotes. -/
theorem piece_escaped (s : String) :
    Piece ("\"" ++ escapeSieve s ++ "\"").toList (strOk s) [.str s] := by
  have h := Piece.quoted escapes_special [] [] s.toList rfl (fun _ => rfl) nofun
  simp only [String.toList_append,toList_escapeSieve]
  simpa [strOk] using h

theorem piece_startsWith (s : String) :
    Piece ("\"" ++ (escapeSieveGlob s ++ "*") ++ "\"").toList (strOk s) [.str (s ++ "*")] := by
  have h := Piece.quoted escapes_specialGlob [] ['*'] s.toList rfl (fun _ => rfl) (by decide)
  simp only [String.toList_append,toList_escapeSieveGlob]
  simpa [strOk] using h

theorem piece_endsWith (s : String) :
    Piece ("\"" ++ ("*" ++ escapeSieveGlob s) ++ "\"").toList (strOk s) [.str ("*" ++ s)] := by
  have h := Piece.quoted escapes_specialGlob ['*'] [] s.toList rfl (fun _ => rfl) nofun
  simp only [String.toList_append,toList_escapeSieveGlob]
  simpa [strOk] using h

/-! ### Conditions -/

/-- A text before a comma or a closing parenthesis that is read as a test, unless it cannot be; the
test uses at most these extensions. -/
structure WrittenTest (exts : List String) (text : String) (ok : Bool) (t : Clause) : Prop where
  reads : ∀ d rest, d = ',' ∨ d = ')' → lex .start (text.toList ++ d :: rest) =
    if ok then (lex .start (d :: rest)).map (t.tokens ++ ·) else none
  uses : ∀ e ∈ t.extensions, e ∈ exts

theorem WrittenTest.of_piece {exts : List String} {text : String} {ok : Bool} {t : Clause}
    (h : Piece text.toList ok t.tokens) (ht : ∀ e ∈ t.extensions, e ∈ exts) :
    WrittenTest exts text ok t :=
  ⟨fun d rest _ => h (d :: rest),ht⟩

/-- A test on a header, negated or not. -/
def headerClause (negated : Bool) (name kind header value : String) : Clause :=
  if negated then .nested "not" [] (.plain name [.tag kind,.str header,.str value])
  else .plain name [.tag kind,.str header,.str value]

theorem written_headerTest (negated : Bool) (name kind : String) {test header value v : String}
    {ok : Bool} (htest : feed .start (test ++ " ").toList = some (.start,
      (if negated then [.ident "not"] else []) ++ [.ident name,.tag kind]))
    (hheader : header ∈ ["From","To","Cc","Subject"])
    (hvalue : Piece ("\"" ++ value ++ "\"").toList ok [.str v])
    (hname : name ∈ ["header","address"]) (hkind : kind ∈ ["contains","is","matches"]) :
    WrittenTest [] (headerTest test header value) ok (headerClause negated name kind header v) := by
  have hquoted : Piece ("\"" ++ header ++ "\" ").toList true [.str header] := by
    simp only [List.mem_cons,List.not_mem_nil,or_false] at hheader
    rcases hheader with rfl | rfl | rfl | rfl <;> exact Piece.of_feed (by decide)
  have hpiece := ((Piece.of_feed htest).append hquoted).append hvalue
  refine .of_piece ?_ ?_
  · cases negated with
    | true => simpa [headerTest,headerClause,Clause.tokens,Argument.tokens] using hpiece
    | false => simpa [headerTest,headerClause,Clause.tokens,Argument.tokens] using hpiece
  · simp only [List.mem_cons,List.not_mem_nil,or_false] at hname hkind
    cases negated <;> rcases hname with rfl | rfl <;> rcases hkind with rfl | rfl | rfl <;>
      exact fun _ he => he

theorem fieldToHeader_mem {field header : String} (h : fieldToHeader field = some header) :
    header ∈ ["From","To","Cc","Subject"] := by
  unfold fieldToHeader at h
  split at h <;> first | (obtain rfl := Option.some.inj h; decide) | simp at h

theorem written_header {cond : FilterCondition} {header text : String}
    (hheader : header ∈ ["From","To","Cc","Subject"])
    (h : headerToSieve cond header = some text) :
    ∃ t, WrittenTest [] text (strOk cond.value) t := by
  unfold headerToSieve at h
  have hvalue := piece_escaped cond.value
  split at h
  · obtain rfl := Option.some.inj h
    exact ⟨_,written_headerTest false "header" "contains" rfl hheader hvalue (by decide) (by decide)⟩
  · obtain rfl := Option.some.inj h
    exact ⟨_,written_headerTest true "header" "contains" rfl hheader hvalue (by decide) (by decide)⟩
  · obtain rfl := Option.some.inj h
    split
    · exact ⟨_,written_headerTest false "address" "is" rfl hheader hvalue (by decide) (by decide)⟩
    · exact ⟨_,written_headerTest false "header" "is" rfl hheader hvalue (by decide) (by decide)⟩
  · obtain rfl := Option.some.inj h
    split
    · exact ⟨_,written_headerTest true "address" "is" rfl hheader hvalue (by decide) (by decide)⟩
    · exact ⟨_,written_headerTest true "header" "is" rfl hheader hvalue (by decide) (by decide)⟩
  · obtain rfl := Option.some.inj h
    exact ⟨_,written_headerTest false "header" "matches" rfl hheader
      (piece_startsWith cond.value) (by decide) (by decide)⟩
  · obtain rfl := Option.some.inj h
    exact ⟨_,written_headerTest false "header" "matches" rfl hheader
      (piece_endsWith cond.value) (by decide) (by decide)⟩
  · simp at h

theorem digitsValue_toDigits (n : Nat) : digitsValue 0 (Nat.toDigits 10 n) = n :=
  Nat.ofDigitChars_toDigits (by decide) (by decide)

/-- A number, read up to a comma or a closing parenthesis. -/
theorem written_size (kind : String) (n : Nat) (hkind : kind ∈ ["over","under"]) :
    WrittenTest [] ("size :" ++ kind ++ " " ++ toString n) true (.plain "size" [.tag kind,.number n]) := by
  have hhead : feed .start ("size :" ++ kind ++ " ").toList =
      some (.start,[.ident "size",.tag kind]) := by
    simp only [List.mem_cons,List.not_mem_nil,or_false] at hkind
    rcases hkind with rfl | rfl <;> rfl
  constructor
  · intro d rest hd
    have hdigit : d.isDigit = false ∧ quantifier d = none := by
      rcases hd with rfl | rfl <;> exact ⟨rfl,rfl⟩
    have hdigits : ∀ c ∈ Nat.toDigits 10 n, c.isDigit = true :=
      fun c hc => Nat.isDigit_of_mem_toDigits (by decide) (by decide) hc
    have hnumber := lex_number hdigit.1 hdigit.2 rest Nat.toDigits_ne_nil hdigits
    have htext : (toString n).toList = Nat.toDigits 10 n := String.toList_ofList
    rw [String.toList_append,htext,List.append_assoc,lex_of_feed hhead,hnumber,digitsValue_toDigits]
    simp [Clause.tokens,Argument.tokens,Function.comp_def]
  · simp only [List.mem_cons,List.not_mem_nil,or_false] at hkind
    rcases hkind with rfl | rfl <;> exact fun _ he => he

theorem fieldToHeader_isSome (field : String) :
    (fieldToHeader field).isSome = decide (field ∈ ["from","to","cc","subject"]) := by
  unfold fieldToHeader
  split
  · rfl
  · rfl
  · rfl
  · rfl
  · next hfrom hto hcc hsubject =>
    have hnone : field ∉ ["from","to","cc","subject"] := by
      simp only [List.mem_cons,List.not_mem_nil,or_false,not_or]
      exact ⟨hfrom,hto,hcc,hsubject⟩
    exact (decide_eq_false hnone).symm

theorem headerToSieve_isSome (cond : FilterCondition) (header : String) :
    (headerToSieve cond header).isSome = decide (cond.op ∈
      ["contains","not_contains","equals","not_equals","starts_with","ends_with"]) := by
  unfold headerToSieve
  dsimp only
  generalize cond.op = op
  split
  · rfl
  · rfl
  · rfl
  · rfl
  · rfl
  · rfl
  · next h₁ h₂ h₃ h₄ h₅ h₆ =>
    have hnone : op ∉
        ["contains","not_contains","equals","not_equals","starts_with","ends_with"] := by
      simp only [List.mem_cons,List.not_mem_nil,or_false,not_or]
      exact ⟨h₁,h₂,h₃,h₄,h₅,h₆⟩
    exact (decide_eq_false hnone).symm

theorem sizeToSieve_isSome (cond : FilterCondition) : (sizeToSieve cond).isSome =
    ((parseUnsigned (2 ^ 64) cond.value).isSome && cond.op ∈ ["greater_than","less_than"]) := by
  unfold sizeToSieve
  split
  · next n hn hop =>
    rw [hn,hop]
    rfl
  · next n hn hop =>
    rw [hn,hop]
    rfl
  · next hover hunder =>
    cases hn : parseUnsigned (2 ^ 64) cond.value with
    | none => rfl
    | some n =>
      have hop : ¬cond.op = "greater_than" := hover n hn
      have hop' : ¬cond.op = "less_than" := hunder n hn
      simp [hop,hop']

section Headers

variable {cond : FilterCondition} (hattachment : cond.field ≠ "has_attachment")
  (hreply : cond.field ≠ "is_reply") (hsize : cond.field ≠ "size")

include hattachment hreply hsize

theorem expressible_header : expressible cond =
    (decide (cond.field ∈ ["from","to","cc","subject"]) && cond.op ∈
      ["contains","not_contains","equals","not_equals","starts_with","ends_with"]) := by
  unfold expressible
  split
  · next h => exact absurd h hattachment
  · next h => exact absurd h hreply
  · next h => exact absurd h hsize
  · rfl

theorem conditionToSieve_header :
    conditionToSieve cond = (fieldToHeader cond.field).bind (headerToSieve cond) := by
  unfold conditionToSieve
  split
  · next h => exact absurd h hattachment
  · next h => exact absurd h hreply
  · next h => exact absurd h hsize
  · rfl

end Headers

theorem expressible_eq (cond : FilterCondition) :
    expressible cond = (conditionToSieve cond).isSome := by
  by_cases hattachment : cond.field = "has_attachment"
  · simp only [expressible,conditionToSieve,hattachment,Option.isSome_some]
  by_cases hreply : cond.field = "is_reply"
  · simp only [expressible,conditionToSieve,hreply,Option.isSome_some]
  by_cases hsize : cond.field = "size"
  · simp only [expressible,conditionToSieve,hsize,sizeToSieve_isSome]
  rw [expressible_header hattachment hreply hsize,conditionToSieve_header hattachment hreply hsize,
    ← fieldToHeader_isSome]
  cases fieldToHeader cond.field with
  | none => rfl
  | some header => exact (headerToSieve_isSome cond header).symm

theorem written_condition {cond : FilterCondition} {text : String}
    (h : conditionToSieve cond = some text) : ∃ t, WrittenTest [] text (conditionOk cond) t := by
  have hfixed : ∀ {field : String}, cond.field = field → fieldToHeader field = none →
      conditionOk cond = true := by
    rintro field rfl hnone
    unfold conditionOk
    rw [hnone]
    rfl
  unfold conditionToSieve at h
  split at h
  · next hfield =>
    obtain rfl := Option.some.inj h
    rw [hfixed hfield rfl]
    refine ⟨.plain "header" [.tag "contains",.str "Content-Type",.str "multipart/"],
      .of_piece (Piece.of_feed rfl) nofun⟩
  · next hfield =>
    obtain rfl := Option.some.inj h
    rw [hfixed hfield rfl]
    exact ⟨.plain "exists" [.str "In-Reply-To"],.of_piece (Piece.of_feed rfl) nofun⟩
  · next hfield =>
    rw [hfixed hfield rfl]
    unfold sizeToSieve at h
    split at h
    · obtain rfl := Option.some.inj h
      exact ⟨_,written_size "over" _ (by decide)⟩
    · obtain rfl := Option.some.inj h
      exact ⟨_,written_size "under" _ (by decide)⟩
    · simp at h
  · obtain ⟨header,hheader,h⟩ := Option.bind_eq_some_iff.mp h
    have hok : conditionOk cond = strOk cond.value := by
      unfold conditionOk
      rw [hheader]
      rfl
    rw [hok]
    exact written_header (fieldToHeader_mem hheader) h

/-! ### Rules -/

/-- Tests with commas between them, up to the closing parenthesis. -/
theorem written_tests {exts : List String} (between : String) (sep : List Char)
    (hbetween : between.toList = ',' :: sep) (hsep : feed .start sep = some (.start,[])) :
    ∀ ps : List (String × Bool), ps ≠ [] → (∀ p ∈ ps, ∃ t, WrittenTest exts p.1 p.2 t) →
      ∃ ts : Tests, List.Forall₂ (fun p t => WrittenTest exts p.1 p.2 t) ps ts.toList ∧
        (∀ e ∈ ts.extensions, e ∈ exts) ∧
        Piece ((between.intercalate (ps.map Prod.fst)).toList ++ [')']) (ps.all Prod.snd) ts.tokens := by
  intro ps
  induction ps with
  | nil => exact fun hne => absurd rfl hne
  | cons p ps ih =>
    intro _ hps
    obtain ⟨t,ht⟩ := hps p List.mem_cons_self
    cases ps with
    | nil =>
      refine ⟨.one t,.cons ht .nil,ht.uses,fun rest => ?_⟩
      have hparen : Mode.start.step ')' = some (.start,[.rparen]) := rfl
      have hread := ht.reads ')' rest (Or.inr rfl)
      have htext : (between.intercalate (([p] : List (String × Bool)).map Prod.fst)).toList ++ [')'] ++
          rest = p.1.toList ++ ')' :: rest := by simp
      rw [htext,hread,lex_cons hparen]
      cases hp : p.2 <;> simp [Tests.tokens,Function.comp_def,hp]
    | cons q ps =>
      obtain ⟨ts,hlist,hts,hpiece⟩ := ih nofun fun p' hp' => hps p' (List.mem_cons_of_mem p hp')
      refine ⟨.cons t ts,.cons ht hlist,?_,fun rest => ?_⟩
      · intro e he
        rcases List.mem_append.mp he with he | he
        · exact ht.uses e he
        · exact hts e he
      · have hcomma : Mode.start.step ',' = some (.start,[.comma]) := rfl
        have htext : (between.intercalate ((p :: q :: ps).map Prod.fst)).toList ++ [')'] ++ rest =
            p.1.toList ++ ',' :: (sep ++ ((between.intercalate ((q :: ps).map Prod.fst)).toList ++
              [')'] ++ rest)) := by
          simp [hbetween]
        rw [htext,ht.reads ',' _ (Or.inl rfl),lex_cons hcomma,lex_of_feed hsep,hpiece]
        have hall : (p :: q :: ps).all Prod.snd = (p.2 && (q :: ps).all Prod.snd) := rfl
        rw [hall]
        generalize (q :: ps).all Prod.snd = ok
        cases p.2 <;> cases ok <;> simp [Tests.tokens,Function.comp_def]

/-- A text that is read as commands, unless it cannot be; they declare nothing and use at most these
extensions. -/
structure Written (exts : List String) (text : String) (ok : Bool) (s : Script) : Prop where
  piece : Piece text.toList ok s.tokens
  plain : s.noRequire = true
  uses : ∀ e ∈ s.extensions, e ∈ exts

section Rules

variable {exts exts' : List String} {a b : String} {ok ok' : Bool} {s t : Script}

theorem Written.empty : Written exts "" true .nil := ⟨Piece.nil,rfl,nofun⟩

theorem Written.mono (h : Written exts a ok s) (he : ∀ e ∈ exts, e ∈ exts') :
    Written exts' a ok s := ⟨h.piece,h.plain,fun e hs => he e (h.uses e hs)⟩

theorem Written.append (ha : Written exts a ok s) (hb : Written exts b ok' t) :
    Written exts (a ++ b) (ok && ok') (s.append t) := by
  refine ⟨?_,?_,?_⟩
  · rw [String.toList_append,Script.tokens_append]
    exact ha.piece.append hb.piece
  · rw [Script.noRequire_append,ha.plain,hb.plain]
    rfl
  · intro e he
    rw [Script.extensions_append] at he
    rcases List.mem_append.mp he with he | he
    · exact ha.uses e he
    · exact hb.uses e he

/-- The extensions an action uses. -/
def actionExtensions (action : FilterAction) : List String :=
  (if action.actionType = "move" || action.actionType = "delete" then ["fileinto"] else []) ++
    (if action.actionType = "mark_read" || action.actionType = "mark_starred" then ["imap4flags"]
      else [])

/-- A command with one string. -/
theorem written_quoted (name head value : String)
    (hhead : feed .start head.toList = some (.start,[.ident name])) (hname : name ≠ "require") :
    Written (extensionOf name).toList (head ++ ("\"" ++ escapeSieve value ++ "\"") ++ ";\n")
      (strOk value) (.simple (.plain name [.str value]) .nil) := by
  have hend : Piece ";\n".toList true [.semi] := Piece.of_feed rfl
  have hpiece := ((Piece.of_feed hhead).append (piece_escaped value)).append hend
  refine ⟨?_,?_,?_⟩
  · rw [String.toList_append,String.toList_append]
    simpa [Script.tokens,Clause.tokens,Argument.tokens] using hpiece
  · simp [Script.noRequire,Clause.name,hname]
  · intro e he
    simpa [Script.extensions,Clause.extensions,Argument.extensions] using he

/-- A command without a value. -/
theorem written_flag {value text : String}
    (h : feed .start text.toList = some (.start,[.ident "addflag",.str value,.semi])) :
    Written ["imap4flags"] text true (.simple (.plain "addflag" [.str value]) .nil) :=
  ⟨Piece.of_feed h,rfl,fun _ he => he⟩

theorem written_action {action : FilterAction} {line : String}
    (h : actionToSieve action = some line) : ∃ s, Written (actionExtensions action)
      ("    " ++ line ++ "\n") (actionOk action) s := by
  have hok : ∀ {kind : String}, action.actionType = kind → kind ≠ "move" → kind ≠ "forward" →
      actionOk action = true := by
    rintro kind rfl hmove hforward
    exact if_neg (by rintro (h | h); exacts [hmove h,hforward h])
  have hvalue : ∀ {kind value : String}, action.actionType = kind → kind = "move" ∨ kind = "forward" →
      action.actionValue = some value → actionOk action = strOk value := by
    rintro kind value rfl hkind hv
    unfold actionOk
    rw [if_pos hkind,hv]
    rfl
  unfold actionToSieve at h
  split at h
  · next hact =>
    obtain rfl := Option.some.inj h
    rw [hok hact (by decide) (by decide),actionExtensions,hact]
    exact ⟨_,written_flag rfl⟩
  · next hact =>
    obtain rfl := Option.some.inj h
    rw [hok hact (by decide) (by decide),actionExtensions,hact]
    exact ⟨_,written_flag rfl⟩
  · next hact =>
    obtain ⟨folder,hfolder,rfl⟩ := Option.map_eq_some_iff.mp h
    rw [hvalue hact (Or.inl rfl) hfolder,actionExtensions,hact]
    have htext : "    " ++ ("fileinto \"" ++ escapeSieve folder ++ "\";") ++ "\n" =
        "    fileinto " ++ ("\"" ++ escapeSieve folder ++ "\"") ++ ";\n" :=
      String.toList_injective (by simp only [String.toList_append,List.append_assoc]; rfl)
    rw [htext]
    exact ⟨_,written_quoted "fileinto" _ folder rfl (by decide)⟩
  · next hact =>
    obtain rfl := Option.some.inj h
    rw [hok hact (by decide) (by decide),actionExtensions,hact]
    exact ⟨.simple (.plain "fileinto" [.str "Trash"]) .nil,Piece.of_feed rfl,rfl,fun _ he => he⟩
  · next hact =>
    obtain ⟨addr,haddr,rfl⟩ := Option.map_eq_some_iff.mp h
    rw [hvalue hact (Or.inr rfl) haddr,actionExtensions,hact]
    have htext : "    " ++ ("redirect \"" ++ escapeSieve addr ++ "\";") ++ "\n" =
        "    redirect " ++ ("\"" ++ escapeSieve addr ++ "\"") ++ ";\n" :=
      String.toList_injective (by simp only [String.toList_append,List.append_assoc]; rfl)
    rw [htext]
    exact ⟨_,written_quoted "redirect" _ addr rfl (by decide)⟩
  · simp at h

/-- An action that is left out writes nothing. -/
theorem actionOk_of_none {action : FilterAction} (h : actionToSieve action = none) :
    actionOk action = true := by
  unfold actionOk
  split
  · next hact =>
    unfold actionToSieve at h
    rcases hact with hact | hact
    · rw [hact] at h
      rw [Option.map_eq_none_iff.mp h]
      rfl
    · rw [hact] at h
      rw [Option.map_eq_none_iff.mp h]
      rfl
  · rfl

theorem written_actions (actions : List FilterAction) :
    ∃ s, Written (actions.flatMap actionExtensions)
      (String.join ((actions.filterMap actionToSieve).map (fun line => "    " ++ line ++ "\n")))
      (actions.all actionOk) s := by
  induction actions with
  | nil => exact ⟨.nil,Written.empty⟩
  | cons action actions ih =>
    obtain ⟨s,hs⟩ := ih
    have hs' : Written ((action :: actions).flatMap actionExtensions) _ _ s :=
      hs.mono fun e he => List.mem_append_right _ he
    cases hline : actionToSieve action with
    | none =>
      rw [List.filterMap_cons_none hline,List.all_cons,actionOk_of_none hline,Bool.true_and]
      exact ⟨s,hs'⟩
    | some line =>
      obtain ⟨t,ht⟩ := written_action hline
      have ht' : Written ((action :: actions).flatMap actionExtensions) _ _ t :=
        ht.mono fun e he => List.mem_append_left _ he
      rw [List.filterMap_cons_some hline,List.map_cons,String.join_cons]
      exact ⟨t.append s,ht'.append hs'⟩

/-- The conditions that can be expressed, and whether they can be written. -/
def writtenConditions (rule : FilterRule) : List (String × Bool) :=
  rule.conditions.filterMap (fun c => (conditionToSieve c).map (fun text => (text,conditionOk c)))

theorem map_writtenConditions (rule : FilterRule) :
    (writtenConditions rule).map Prod.fst = ruleConditions rule := by
  unfold writtenConditions ruleConditions
  rw [List.map_filterMap]
  refine congrArg (fun f => List.filterMap f rule.conditions) (funext fun c => ?_)
  cases conditionToSieve c <;> rfl

theorem all_writtenConditions (rule : FilterRule) : (writtenConditions rule).all Prod.snd =
    rule.conditions.all (fun c => !expressible c || conditionOk c) := by
  unfold writtenConditions
  induction rule.conditions with
  | nil => rfl
  | cons c cs ih =>
    cases htext : conditionToSieve c with
    | none => simp [expressible_eq,htext,ih]
    | some text => simp [expressible_eq,htext,ih]

theorem emitted_eq (rule : FilterRule) : emitted rule = !(ruleConditions rule).isEmpty := by
  unfold emitted ruleConditions
  induction rule.conditions with
  | nil => rfl
  | cons c cs ih =>
    rw [List.any_cons,ih,expressible_eq]
    cases htext : conditionToSieve c with
    | none => simp [htext]
    | some text => simp [htext]

/-- The test of a rule, up to the opening of its block. -/
theorem written_ruleTest {rule : FilterRule} (h : emitted rule = true) :
    ∃ head : Clause, head.extensions = [] ∧ head.name = "if" ∧
      Piece ("if " ++ ruleTest rule ++ " \x7b\n").toList
        (rule.conditions.all (fun c => !expressible c || conditionOk c))
        (head.tokens ++ [.lbrace]) := by
  have hne : writtenConditions rule ≠ [] := by
    intro hnil
    have hconds := map_writtenConditions rule
    rw [hnil] at hconds
    rw [emitted_eq,← hconds] at h
    exact absurd h nofun
  have hall : ∀ p ∈ writtenConditions rule, ∃ t, WrittenTest [] p.1 p.2 t := by
    intro p hp
    obtain ⟨c,-,hc⟩ := List.mem_filterMap.mp hp
    obtain ⟨text,htext,rfl⟩ := Option.map_eq_some_iff.mp hc
    exact written_condition htext
  obtain ⟨ts,-,hts,hpiece⟩ := written_tests ", " [' '] rfl rfl _ hne hall
  rw [map_writtenConditions,all_writtenConditions] at hpiece
  have hnone : ts.extensions = [] :=
    List.eq_nil_iff_forall_not_mem.mpr fun e he => absurd (hts e he) List.not_mem_nil
  have hopen : Piece " \x7b\n".toList true [.lbrace] := Piece.of_feed rfl
  have hbuild : ∀ group : String, (extensionOf group).toList = [] →
      feed .start ("if " ++ (group ++ "(")).toList =
        some (.start,[.ident "if",.ident group,.lparen]) →
      ∃ head : Clause, head.extensions = [] ∧ head.name = "if" ∧
        Piece ("if " ++ (group ++ "(" ++ String.intercalate ", " (ruleConditions rule) ++ ")") ++
            " \x7b\n").toList
          (rule.conditions.all (fun c => !expressible c || conditionOk c))
          (head.tokens ++ [.lbrace]) := by
    intro group hgroup hfeed
    refine ⟨.nested "if" [] (.group group [] ts),?_,rfl,?_⟩
    · show [] ++ [] ++ ((extensionOf group).toList ++ [] ++ ts.extensions) = []
      rw [hgroup,hnone]
      rfl
    · have hwhole := ((Piece.of_feed hfeed).append hpiece).append hopen
      simpa [Clause.tokens] using hwhole
  have htest : ruleTest rule = "anyof" ++ "(" ++ String.intercalate ", " (ruleConditions rule) ++ ")" ∨
      ruleTest rule = "allof" ++ "(" ++ String.intercalate ", " (ruleConditions rule) ++ ")" := by
    unfold ruleTest
    dsimp only
    split
    · exact Or.inl rfl
    · exact Or.inr rfl
  rcases htest with htest | htest
  · rw [htest]
    exact hbuild "anyof" rfl rfl
  · rw [htest]
    exact hbuild "allof" rfl rfl

/-- A rule is one command, or nothing. -/
theorem written_rule (rule : FilterRule) :
    ∃ s, Written (rule.actions.flatMap actionExtensions) (ruleToSieve rule) (ruleOk rule) s ∧
      (s = .nil ↔ emitted rule = false) := by
  unfold ruleToSieve ruleOk
  cases he : emitted rule with
  | false =>
    have hempty : (ruleConditions rule).isEmpty = true := by simpa [emitted_eq] using he
    rw [if_pos hempty]
    exact ⟨.nil,Written.empty,by simp⟩
  | true =>
    have hnonempty : ¬(ruleConditions rule).isEmpty = true := by simpa [emitted_eq] using he
    rw [if_neg hnonempty]
    obtain ⟨head,hext,hname,hhead⟩ := written_ruleTest he
    obtain ⟨body,hbody⟩ := written_actions rule.actions
    have hstop : ∃ t, Written [] (if rule.stopProcessing then "    stop;\n" else "") true t := by
      split
      · exact ⟨.simple (.plain "stop" []) .nil,Piece.of_feed rfl,rfl,nofun⟩
      · exact ⟨.nil,Written.empty⟩
    obtain ⟨stop,hstop⟩ := hstop
    have hclose : Piece "\x7d\n\n".toList true [.rbrace] := Piece.of_feed rfl
    refine ⟨.block head (body.append stop) .nil,⟨?_,?_,?_⟩,by simp⟩
    · have hwhole := ((hhead.append hbody.piece).append hstop.piece).append hclose
      simpa [ruleActions,Script.tokens] using hwhole
    · simp [Script.noRequire,hname,hbody.plain,hstop.plain]
    · intro e hmem
      rw [Script.extensions,hext,Script.extensions_append] at hmem
      simp only [Script.extensions,List.nil_append,List.append_nil,List.mem_append] at hmem
      rcases hmem with hmem | hmem
      · exact hbody.uses e hmem
      · exact absurd (hstop.uses e hmem) List.not_mem_nil

/-- The rules, one after the other. -/
theorem written_rules (rules : List FilterRule) :
    ∃ s, Written (rules.flatMap (fun r => r.actions.flatMap actionExtensions))
      (String.join (rules.map ruleToSieve)) (rules.all ruleOk) s ∧
        (s = .nil ↔ rules.any emitted = false) := by
  induction rules with
  | nil => exact ⟨.nil,Written.empty,by simp⟩
  | cons rule rules ih =>
    obtain ⟨s,hs,hnil⟩ := ih
    obtain ⟨t,ht,hnil'⟩ := written_rule rule
    rw [List.map_cons,String.join_cons]
    refine ⟨t.append s,(ht.mono fun e he => List.mem_append_left _ he).append
      (hs.mono fun e he => List.mem_append_right _ he),?_⟩
    rw [List.any_cons,Bool.or_eq_false_iff,← hnil,← hnil']
    cases t with
    | nil => simp [Script.append]
    | simple head rest => simp [Script.append]
    | block head body rest => simp [Script.append]

end Rules

/-! ### Declarations -/

/-- The command that declares extensions, unless there are none. -/
def declares : List String → Script
  | [] => .nil
  | e :: es => .simple (.plain "require" [.list e es]) .nil

section Declarations

variable (exts : List String) (s : Script)

theorem declares_extensions : (declares exts).extensions = [] := by
  cases exts <;> rfl

theorem declares_required : (declares exts).required = exts := by
  cases exts with
  | nil => rfl
  | cons e es => simp [declares,Script.required,Clause.required,Clause.name,Clause.args,Argument.strings]

/-- Declarations may come first. -/
theorem requiresFirst_declares :
    ((declares exts).append s).requiresFirst = s.requiresFirst := by
  cases exts <;> rfl

variable {exts s}

theorem requiresFirst_of_noRequire (h : s.noRequire = true) : s.requiresFirst = true := by
  cases s with
  | nil => rfl
  | simple head rest =>
    obtain ⟨hhead,hrest⟩ := Bool.and_eq_true_iff.mp h
    exact (if_neg (of_decide_eq_true hhead)).trans hrest
  | block head body rest => exact h

/-- Declarations may not come after commands. -/
theorem requiresFirst_late {e : String} {es : List String} {t : Script} (hs : s.noRequire = true)
    (ht : t.noRequire = true) :
    (s.append ((declares (e :: es)).append t)).requiresFirst = true ↔ s = .nil := by
  have hlate : ((declares (e :: es)).append t).noRequire = false := rfl
  cases s with
  | nil =>
    refine iff_of_true ?_ rfl
    show ((declares (e :: es)).append t).requiresFirst = true
    rw [requiresFirst_declares,requiresFirst_of_noRequire ht]
  | simple head rest =>
    obtain ⟨hhead,-⟩ := Bool.and_eq_true_iff.mp hs
    refine iff_of_false ?_ nofun
    have hrest : (Script.simple head (rest.append ((declares (e :: es)).append t))).requiresFirst =
        (rest.append ((declares (e :: es)).append t)).noRequire := if_neg (of_decide_eq_true hhead)
    show ¬(Script.simple head (rest.append _)).requiresFirst = true
    rw [hrest,Script.noRequire_append,hlate,Bool.and_false]
    exact nofun
  | block head body rest =>
    refine iff_of_false ?_ nofun
    show ¬(Script.block head body (rest.append _)).noRequire = true
    simp [Script.noRequire,Script.noRequire_append,hlate]

end Declarations

theorem piece_requireLine (capable : List FilterRule) :
    Piece (requireLine (ruleExtensions capable)).toList true
      (declares (ruleExtensions capable)).tokens := by
  unfold ruleExtensions
  cases needsFileinto capable <;> cases needsImap4flags capable
  · exact Piece.nil
  · exact Piece.of_feed rfl
  · exact Piece.of_feed rfl
  · exact Piece.of_feed rfl

/-- What the actions of the rules use is declared. -/
theorem mem_ruleExtensions {capable : List FilterRule} {e : String}
    (h : e ∈ capable.flatMap (fun r => r.actions.flatMap actionExtensions)) :
    e ∈ ruleExtensions capable := by
  obtain ⟨rule,hrule,h⟩ := List.mem_flatMap.mp h
  obtain ⟨action,haction,h⟩ := List.mem_flatMap.mp h
  unfold ruleExtensions
  rcases List.mem_append.mp h with h | h
  · refine List.mem_append_left _ ?_
    split at h
    · next hact =>
      have hneeds : needsFileinto capable = true :=
        List.any_eq_true.mpr ⟨rule,hrule,List.any_eq_true.mpr ⟨action,haction,hact⟩⟩
      rw [hneeds]
      exact h
    · exact absurd h List.not_mem_nil
  · refine List.mem_append_right _ ?_
    split at h
    · next hact =>
      have hneeds : needsImap4flags capable = true :=
        List.any_eq_true.mpr ⟨rule,hrule,List.any_eq_true.mpr ⟨action,haction,hact⟩⟩
      rw [hneeds]
      exact h
    · exact absurd h List.not_mem_nil

/-- The part of the rules: declarations, and commands that use what is declared. -/
theorem written_rulesPart (rules : List FilterRule) :
    ∃ body, Piece (generateSieveScript rules).toList ((capableRules rules).all ruleOk)
        ((declares (ruleExtensions (capableRules rules))).append body).tokens ∧
      body.noRequire = true ∧
      (∀ e ∈ body.extensions, e ∈ ruleExtensions (capableRules rules)) ∧
      (body = .nil ↔ (capableRules rules).any emitted = false) := by
  unfold generateSieveScript
  dsimp only
  split
  · next hempty =>
    rw [List.isEmpty_iff.mp hempty]
    exact ⟨.nil,Piece.of_feed rfl,rfl,nofun,by simp⟩
  · obtain ⟨body,hbody,hnil⟩ := written_rules (capableRules rules)
    refine ⟨body,?_,hbody.plain,fun e he => mem_ruleExtensions (hbody.uses e he),hnil⟩
    have hwhole := (piece_requireLine (capableRules rules)).append hbody.piece
    rw [String.toList_append,Script.tokens_append]
    rw [Bool.true_and] at hwhole
    exact hwhole

end Rav
