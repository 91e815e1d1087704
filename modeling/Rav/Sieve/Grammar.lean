import Rav.Sieve.Lexer

/-!
# Sieve: grammar

The grammar of Sieve (RFC 5228, section 8.2): commands end in a semicolon or a block, and take
arguments that may end in a test or in a list of tests. A command without its end and a test are
built alike.

## Main definitions

- `Argument`, `Clause`, `Tests`, `Script` — syntax trees
- `Script.tokens` — the tokens of a script
- `parseScript`, `parse` — the parser
- `parse_tokens` — the tokens of a script parse to the script
-/

namespace Rav.Sieve

inductive Argument
  | str (s : String)
  | list (s : String) (ss : List String)
  | number (n : Nat)
  | tag (name : String)
  deriving DecidableEq, Repr

mutual

/-- An identifier with its arguments; they may end in a test, or in a list of tests. -/
inductive Clause
  | plain (name : String) (args : List Argument)
  | nested (name : String) (args : List Argument) (test : Clause)
  | group (name : String) (args : List Argument) (tests : Tests)

/-- A list of tests is not empty. -/
inductive Tests
  | one (test : Clause)
  | cons (test : Clause) (tests : Tests)

end

def Tests.toList : Tests → List Clause
  | .one test => [test]
  | .cons test tests => test :: tests.toList

/-- A sequence of commands, each with a semicolon or a block. -/
inductive Script
  | nil
  | simple (head : Clause) (rest : Script)
  | block (head : Clause) (body rest : Script)

/-! ### Tokens -/

/-- The strings of a list after its first, with its end. -/
def stringsTokens : List String → List Token
  | [] => [.rbracket]
  | s :: ss => .comma :: .str s :: stringsTokens ss

def Argument.tokens : Argument → List Token
  | .str s => [.str s]
  | .list s ss => .lbracket :: .str s :: stringsTokens ss
  | .number n => [.number n]
  | .tag name => [.tag name]

mutual

def Clause.tokens : Clause → List Token
  | .plain name args => .ident name :: args.flatMap Argument.tokens
  | .nested name args test => .ident name :: args.flatMap Argument.tokens ++ test.tokens
  | .group name args tests =>
    .ident name :: args.flatMap Argument.tokens ++ .lparen :: tests.tokens

def Tests.tokens : Tests → List Token
  | .one test => test.tokens ++ [.rparen]
  | .cons test tests => test.tokens ++ .comma :: tests.tokens

end

def Script.tokens : Script → List Token
  | .nil => []
  | .simple head rest => head.tokens ++ .semi :: rest.tokens
  | .block head body rest => head.tokens ++ .lbrace :: (body.tokens ++ .rbrace :: rest.tokens)

/-! ### The parser -/

/-- The strings of a list after its first, up to its end. -/
def parseStrings : List Token → Option (List String × List Token)
  | .rbracket :: ts => some ([],ts)
  | .comma :: .str s :: ts => (parseStrings ts).map fun r => (s :: r.1,r.2)
  | _ => none

/-- Arguments, as far as they go. Every parser below is given more steps than there are tokens. -/
def parseArguments : Nat → List Token → Option (List Argument × List Token)
  | 0, _ => none
  | n + 1, .str s :: ts => (parseArguments n ts).map fun r => (.str s :: r.1,r.2)
  | n + 1, .number k :: ts => (parseArguments n ts).map fun r => (.number k :: r.1,r.2)
  | n + 1, .tag name :: ts => (parseArguments n ts).map fun r => (.tag name :: r.1,r.2)
  | n + 1, .lbracket :: .str s :: ts =>
    (parseStrings ts).bind fun r =>
      (parseArguments n r.2).map fun r' => (.list s r.1 :: r'.1,r'.2)
  | _, .lbracket :: _ => none
  | _, ts => some ([],ts)

mutual

def parseClause : Nat → List Token → Option (Clause × List Token)
  | n + 1, .ident name :: ts =>
    (parseArguments n ts).bind fun r =>
      match r.2 with
      | .lparen :: ts => (parseTests n ts).map fun r' => (.group name r.1 r'.1,r'.2)
      | .ident name' :: ts =>
        (parseClause n (.ident name' :: ts)).map fun r' => (.nested name r.1 r'.1,r'.2)
      | ts => some (.plain name r.1,ts)
  | _, _ => none

def parseTests : Nat → List Token → Option (Tests × List Token)
  | 0, _ => none
  | n + 1, ts =>
    (parseClause n ts).bind fun r =>
      match r.2 with
      | .comma :: ts => (parseTests n ts).map fun r' => (.cons r.1 r'.1,r'.2)
      | .rparen :: ts => some (.one r.1,ts)
      | _ => none

end

/-- Commands, up to the end of a block or of the script. -/
def parseScript : Nat → List Token → Option (Script × List Token)
  | 0, _ => none
  | _, [] => some (.nil,[])
  | _, .rbrace :: ts => some (.nil,.rbrace :: ts)
  | n + 1, ts =>
    (parseClause n ts).bind fun r =>
      match r.2 with
      | .semi :: ts => (parseScript n ts).map fun r' => (.simple r.1 r'.1,r'.2)
      | .lbrace :: ts =>
        (parseScript n ts).bind fun r' =>
          match r'.2 with
          | .rbrace :: ts => (parseScript n ts).map fun r'' => (.block r.1 r'.1 r''.1,r''.2)
          | _ => none
      | _ => none

/-- A script is a text all of which is commands. -/
def parse (text : String) : Option Script :=
  (lex .start text.toList).bind fun ts =>
    (parseScript (ts.length + 1) ts).bind fun r => if r.2 = [] then some r.1 else none

/-! ### Round trip -/

theorem parseStrings_tokens (ss : List String) (rest : List Token) :
    parseStrings (stringsTokens ss ++ rest) = some (ss,rest) := by
  induction ss with
  | nil => rfl
  | cons s ss ih =>
    show (parseStrings (stringsTokens ss ++ rest)).map _ = _
    rw [ih]
    rfl

/-- What may stand after arguments. -/
def Stops : List Token → Prop
  | .str _ :: _ => False
  | .number _ :: _ => False
  | .tag _ :: _ => False
  | .lbracket :: _ => False
  | _ => True

/-- What may stand after a test or a command. -/
def Ends : List Token → Prop
  | .semi :: _ => True
  | .lbrace :: _ => True
  | .comma :: _ => True
  | .rparen :: _ => True
  | _ => False

theorem parseArguments_stop {rest : List Token} (h : Stops rest) (n : Nat) :
    parseArguments (n + 1) rest = some ([],rest) := by
  cases rest with
  | nil => rfl
  | cons t rest => cases t <;> first | rfl | exact h.elim

theorem parseArguments_tokens (args : List Argument) : ∀ {n : Nat} {r : List Token}, Stops r →
    (args.flatMap Argument.tokens).length < n →
      parseArguments n (args.flatMap Argument.tokens ++ r) = some (args,r) := by
  induction args with
  | nil =>
    intro n rest hstop hn
    obtain ⟨n,rfl⟩ := Nat.exists_eq_succ_of_ne_zero (Nat.ne_of_gt hn)
    exact parseArguments_stop hstop n
  | cons a args ih =>
    intro n rest hstop hn
    obtain ⟨n,rfl⟩ := Nat.exists_eq_succ_of_ne_zero (Nat.ne_of_gt (Nat.zero_lt_of_lt hn))
    rw [List.flatMap_cons,List.length_append] at hn
    rw [List.flatMap_cons,List.append_assoc]
    cases a with
    | list s ss =>
      have hrest := ih hstop (n := n) (by simp only [Argument.tokens,List.length_cons] at hn; omega)
      show (parseStrings (stringsTokens ss ++ _)).bind _ = _
      rw [parseStrings_tokens,Option.bind_some,hrest]
      rfl
    | _ =>
      have hrest := ih hstop (n := n) (by simp only [Argument.tokens,List.length_cons] at hn; omega)
      show (parseArguments n (_ ++ rest)).map _ = _
      rw [hrest]
      rfl

theorem Clause.exists_ident (c : Clause) : ∃ name ts, c.tokens = .ident name :: ts := by
  cases c with
  | plain name args => exact ⟨name,_,rfl⟩
  | nested name args test => exact ⟨name,_,rfl⟩
  | group name args tests => exact ⟨name,_,rfl⟩

theorem Ends.stops {rest : List Token} (h : Ends rest) : Stops rest := by
  cases rest with
  | nil => trivial
  | cons t rest => cases t <;> trivial

mutual

theorem parseClause_tokens : ∀ (c : Clause) {n : Nat} {r : List Token}, Ends r →
    c.tokens.length < n → parseClause n (c.tokens ++ r) = some (c,r)
  | _, 0, _, _, hn => absurd hn (Nat.not_lt_zero _)
  | .plain name args, n + 1, rest, hrest, hn => by
    have hargs := parseArguments_tokens args hrest.stops (n := n) (Nat.lt_of_succ_lt_succ hn)
    show (parseArguments n (args.flatMap Argument.tokens ++ rest)).bind _ = _
    rw [hargs,Option.bind_some]
    cases rest with
    | nil => exact hrest.elim
    | cons t rest => cases t <;> first | rfl | exact hrest.elim
  | .nested name args test, n + 1, rest, hrest, hn => by
    simp only [Clause.tokens,List.length_append,List.length_cons] at hn
    have htest := parseClause_tokens test hrest (n := n) (by omega)
    obtain ⟨name',ts,hts⟩ := test.exists_ident
    have hstop : Stops (test.tokens ++ rest) := by
      rw [hts]
      trivial
    have hargs := parseArguments_tokens args hstop (n := n) (by omega)
    show (parseArguments n (args.flatMap Argument.tokens ++ test.tokens ++ rest)).bind _ = _
    rw [List.append_assoc,hargs,Option.bind_some]
    rw [hts] at htest ⊢
    show (parseClause n (.ident name' :: ts ++ rest)).map _ = _
    rw [htest]
    rfl
  | .group name args tests, n + 1, rest, hrest, hn => by
    simp only [Clause.tokens,List.length_append,List.length_cons] at hn
    have htests := parseTests_tokens tests (n := n) (r := rest) (by omega)
    have hargs := parseArguments_tokens args (n := n) (r := .lparen :: (tests.tokens ++ rest))
      trivial (by omega)
    show (parseArguments n (args.flatMap Argument.tokens ++ .lparen :: tests.tokens ++ rest)).bind _ = _
    rw [List.append_assoc,List.cons_append,hargs,Option.bind_some]
    show (parseTests n (tests.tokens ++ rest)).map _ = _
    rw [htests]
    rfl

theorem parseTests_tokens : ∀ (ts : Tests) {n : Nat} {r : List Token},
    ts.tokens.length < n → parseTests n (ts.tokens ++ r) = some (ts,r)
  | _, 0, _, hn => absurd hn (Nat.not_lt_zero _)
  | .one test, n + 1, rest, hn => by
    simp only [Tests.tokens,List.length_append,List.length_cons,List.length_nil] at hn
    have htest := parseClause_tokens test (r := .rparen :: rest) trivial (n := n) (by omega)
    show (parseClause n (test.tokens ++ [.rparen] ++ rest)).bind _ = _
    rw [List.append_assoc,List.singleton_append,htest]
    rfl
  | .cons test tests, n + 1, rest, hn => by
    simp only [Tests.tokens,List.length_append,List.length_cons] at hn
    have htest := parseClause_tokens test (r := .comma :: (tests.tokens ++ rest)) trivial
      (n := n) (by omega)
    have htests := parseTests_tokens tests (n := n) (r := rest) (by omega)
    show (parseClause n (test.tokens ++ .comma :: tests.tokens ++ rest)).bind _ = _
    rw [List.append_assoc,List.cons_append,htest,Option.bind_some]
    show (parseTests n (tests.tokens ++ rest)).map _ = _
    rw [htests]
    rfl

end

/-- What may stand after a sequence of commands. -/
def Closes : List Token → Prop
  | [] => True
  | .rbrace :: _ => True
  | _ => False

theorem parseScript_close {rest : List Token} (h : Closes rest) (n : Nat) :
    parseScript (n + 1) rest = some (.nil,rest) := by
  cases rest with
  | nil => rfl
  | cons t rest => cases t <;> first | rfl | exact h.elim

theorem parseScript_tokens (s : Script) : ∀ {n : Nat} {r : List Token}, Closes r →
    s.tokens.length < n → parseScript n (s.tokens ++ r) = some (s,r) := by
  induction s with
  | nil =>
    intro n rest hrest hn
    obtain ⟨n,rfl⟩ := Nat.exists_eq_succ_of_ne_zero (Nat.ne_of_gt hn)
    exact parseScript_close hrest n
  | simple head script ih =>
    intro n rest hrest hn
    obtain ⟨n,rfl⟩ := Nat.exists_eq_succ_of_ne_zero (Nat.ne_of_gt (Nat.zero_lt_of_lt hn))
    simp only [Script.tokens,List.length_append,List.length_cons] at hn
    have hhead := parseClause_tokens head (r := .semi :: (script.tokens ++ rest)) trivial
      (n := n) (by omega)
    obtain ⟨name,ts,hts⟩ := head.exists_ident
    rw [Script.tokens,List.append_assoc,List.cons_append]
    rw [hts] at hhead ⊢
    show (parseClause n (.ident name :: ts ++ _)).bind _ = _
    rw [hhead,Option.bind_some]
    show (parseScript n (script.tokens ++ rest)).map _ = _
    rw [ih hrest (by omega)]
    rfl
  | block head body script ihbody ih =>
    intro n rest hrest hn
    obtain ⟨n,rfl⟩ := Nat.exists_eq_succ_of_ne_zero (Nat.ne_of_gt (Nat.zero_lt_of_lt hn))
    simp only [Script.tokens,List.length_append,List.length_cons] at hn
    have hhead := parseClause_tokens head
      (r := .lbrace :: (body.tokens ++ .rbrace :: (script.tokens ++ rest))) trivial
      (n := n) (by omega)
    have hbody := ihbody (r := .rbrace :: (script.tokens ++ rest)) trivial
      (n := n) (by omega)
    obtain ⟨name,ts,hts⟩ := head.exists_ident
    rw [Script.tokens,List.append_assoc,List.cons_append,List.append_assoc,List.cons_append]
    rw [hts] at hhead ⊢
    show (parseClause n (.ident name :: ts ++ _)).bind _ = _
    rw [hhead,Option.bind_some]
    show (parseScript n (body.tokens ++ .rbrace :: (script.tokens ++ rest))).bind _ = _
    rw [hbody,Option.bind_some]
    show (parseScript n (script.tokens ++ rest)).map _ = _
    rw [ih hrest (by omega)]
    rfl

/-- A text with the tokens of a script parses to it. -/
theorem parse_tokens {text : String} {s : Script} (h : lex .start text.toList = some s.tokens) :
    parse text = some s := by
  have hscript := parseScript_tokens s (r := []) trivial (Nat.lt_succ_self _)
  rw [List.append_nil] at hscript
  unfold parse
  rw [h,Option.bind_some,hscript]
  rfl

theorem parse_none {text : String} (h : lex .start text.toList = none) : parse text = none := by
  unfold parse
  rw [h]
  rfl

end Rav.Sieve
