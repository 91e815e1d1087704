import Mathlib.Data.List.Basic

/-!
# Sieve: tokens

The lexical tokens of Sieve (RFC 5228, section 8.1). White space and comments separate tokens and
are left out. Lines end at a line feed, alone or after a carriage return.

The lexer reads one character after the other: it is a finite automaton whose states carry the part
of a token read so far, and it emits a token when it is complete.

## Main definitions

- `Token`, `Mode` — tokens, and the states of the lexer
- `Mode.step`, `Mode.finish`, `lex`
- `feed` — a text that is only the beginning
-/

namespace Rav.Sieve

/-- Identifiers and tags are in lower case, strings are what they stand for. -/
inductive Token
  | ident (name : String)
  | tag (name : String)
  | number (n : Nat)
  | str (s : String)
  | lbracket
  | rbracket
  | lparen
  | rparen
  | lbrace
  | rbrace
  | comma
  | semi
  deriving DecidableEq, Repr

/-- The states of the lexer; what has been read of a token is kept in reverse. -/
inductive Mode
  | start
  | cr
  | hash
  | hashCr
  | slash
  | comment
  | commentStar
  | ident (acc : List Char)
  | colon
  | tag (acc : List Char)
  | number (n : Nat)
  | quantified (n : Nat)
  | quoted (acc : List Char)
  | escape (acc : List Char)
  | quotedCr (acc : List Char)
  | textHead
  | textHash
  | textCr
  | lineStart (acc : List Char)
  | line (acc : List Char)
  | lineCr (acc : List Char)
  | dot (acc : List Char)
  | dotCr (acc : List Char)
  deriving DecidableEq, Repr

def isIdentStart (c : Char) : Bool := c.isAlpha || c = '_'

def isIdentChar (c : Char) : Bool := isIdentStart c || c.isDigit

def punctuation (c : Char) : Option Token :=
  match c with
  | '[' => some .lbracket
  | ']' => some .rbracket
  | '(' => some .lparen
  | ')' => some .rparen
  | '\x7b' => some .lbrace
  | '\x7d' => some .rbrace
  | ',' => some .comma
  | ';' => some .semi
  | _ => none

/-- The multiplier a quantifier stands for. -/
def quantifier (c : Char) : Option Nat :=
  if c.toLower = 'k' then some 1024
  else if c.toLower = 'm' then some (1024 * 1024)
  else if c.toLower = 'g' then some (1024 * 1024 * 1024)
  else none

/-- A name that has been read, in lower case. -/
def nameOf (acc : List Char) : String := String.ofList (acc.reverse.map Char.toLower)

def textOf (acc : List Char) : String := String.ofList acc.reverse

/-- Between tokens. -/
def startStep (c : Char) : Option (Mode × List Token) :=
  if c = ' ' ∨ c = '\t' ∨ c = '\n' then some (.start,[])
  else if c = '\r' then some (.cr,[])
  else if c = '#' then some (.hash,[])
  else if c = '/' then some (.slash,[])
  else if c = '"' then some (.quoted [],[])
  else if c = ':' then some (.colon,[])
  else if isIdentStart c then some (.ident [c],[])
  else if c.isDigit then some (.number (c.toNat - '0'.toNat),[])
  else (punctuation c).map (fun t => (.start,[t]))

/-- A token is complete, and `c` follows it. -/
def emit (t : Token) (c : Char) : Option (Mode × List Token) :=
  (startStep c).map (fun r => (r.1,t :: r.2))

/-- In a line of a multi-line text. -/
def lineStep (acc : List Char) (c : Char) : Option (Mode × List Token) :=
  if c = '\n' then some (.lineStart (c :: acc),[])
  else if c = '\r' then some (.lineCr acc,[])
  else if c = '\x00' then none
  else some (.line (c :: acc),[])

namespace Mode

/-- One character. -/
def step : Mode → Char → Option (Mode × List Token)
  | .start, c => startStep c
  | .cr, c => if c = '\n' then some (.start,[]) else none
  | .hash, c =>
    if c = '\n' then some (.start,[])
    else if c = '\r' then some (.hashCr,[])
    else if c = '\x00' then none
    else some (.hash,[])
  | .hashCr, c => if c = '\n' then some (.start,[]) else none
  | .slash, c => if c = '*' then some (.comment,[]) else none
  | .comment, c =>
    if c = '*' then some (.commentStar,[]) else if c = '\x00' then none else some (.comment,[])
  | .commentStar, c =>
    if c = '/' then some (.start,[])
    else if c = '*' then some (.commentStar,[])
    else if c = '\x00' then none
    else some (.comment,[])
  | .ident acc, c =>
    if isIdentChar c then some (.ident (c :: acc),[])
    else if c = ':' ∧ nameOf acc = "text" then some (.textHead,[])
    else emit (.ident (nameOf acc)) c
  | .colon, c => if isIdentStart c then some (.tag [c],[]) else none
  | .tag acc, c =>
    if isIdentChar c then some (.tag (c :: acc),[]) else emit (.tag (nameOf acc)) c
  | .number n, c =>
    if c.isDigit then some (.number (10 * n + (c.toNat - '0'.toNat)),[])
    else
      match quantifier c with
      | some k => some (.quantified (n * k),[])
      | none => emit (.number n) c
  | .quantified n, c => emit (.number n) c
  | .quoted acc, c =>
    if c = '"' then some (.start,[.str (textOf acc)])
    else if c = '\\' then some (.escape acc,[])
    else if c = '\r' then some (.quotedCr acc,[])
    else if c = '\x00' then none
    else some (.quoted (c :: acc),[])
  | .escape acc, c =>
    if c = '\x00' ∨ c = '\r' ∨ c = '\n' then none else some (.quoted (c :: acc),[])
  | .quotedCr acc, c => if c = '\n' then some (.quoted (c :: '\r' :: acc),[]) else none
  | .textHead, c =>
    if c = ' ' ∨ c = '\t' then some (.textHead,[])
    else if c = '\n' then some (.lineStart [],[])
    else if c = '\r' then some (.textCr,[])
    else if c = '#' then some (.textHash,[])
    else none
  | .textHash, c =>
    if c = '\n' then some (.lineStart [],[])
    else if c = '\r' then some (.textCr,[])
    else if c = '\x00' then none
    else some (.textHash,[])
  | .textCr, c => if c = '\n' then some (.lineStart [],[]) else none
  | .lineStart acc, c => if c = '.' then some (.dot acc,[]) else lineStep acc c
  | .line acc, c => lineStep acc c
  | .lineCr acc, c => if c = '\n' then some (.lineStart (c :: '\r' :: acc),[]) else none
  | .dot acc, c =>
    if c = '\n' then some (.start,[.str (textOf acc)])
    else if c = '\r' then some (.dotCr acc,[])
    else if c = '\x00' then none
    else some (.line (c :: acc),[])
  | .dotCr acc, c => if c = '\n' then some (.start,[.str (textOf acc)]) else none

/-- The end of the script. -/
def finish : Mode → Option (List Token)
  | .start => some []
  | .ident acc => some [.ident (nameOf acc)]
  | .tag acc => some [.tag (nameOf acc)]
  | .number n => some [.number n]
  | .quantified n => some [.number n]
  | _ => none

end Mode

/-- The tokens of a text. -/
def lex : Mode → List Char → Option (List Token)
  | m, [] => m.finish
  | m, c :: cs => (m.step c).bind fun r => (lex r.1 cs).map (r.2 ++ ·)

/-- Where the lexer is after a beginning, and the tokens it has emitted. -/
def feed : Mode → List Char → Option (Mode × List Token)
  | m, [] => some (m,[])
  | m, c :: cs => (m.step c).bind fun r => (feed r.1 cs).map fun r' => (r'.1,r.2 ++ r'.2)

theorem lex_append (w cs : List Char) (m : Mode) :
    lex m (w ++ cs) = (feed m w).bind fun r => (lex r.1 cs).map (r.2 ++ ·) := by
  induction w generalizing m with
  | nil =>
    show lex m cs = (lex m cs).map ([] ++ ·)
    simp
  | cons c w ih =>
    rw [List.cons_append,lex,feed]
    cases m.step c with
    | none => rfl
    | some r =>
      simp only [Option.bind_some,ih]
      cases feed r.1 w with
      | none => rfl
      | some r' => simp [Function.comp_def]

/-- A beginning that leads to a state. -/
theorem lex_of_feed {m m' : Mode} {w : List Char} {ts : List Token} (h : feed m w = some (m',ts))
    (cs : List Char) : lex m (w ++ cs) = (lex m' cs).map (ts ++ ·) := by
  rw [lex_append,h]
  rfl

theorem lex_cons {m m' : Mode} {c : Char} {ts : List Token} (h : m.step c = some (m',ts))
    (cs : List Char) : lex m (c :: cs) = (lex m' cs).map (ts ++ ·) := by
  rw [lex,h]
  rfl

end Rav.Sieve
