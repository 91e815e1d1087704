import Mathlib.Data.List.Forall2
import Rav.Sieve.Casemap
import Rav.Sieve.Grammar

/-!
# Sieve: tests

A text as a test, what the match types ask of the values they are given, and what the tests of a script
say of a message (RFC 5228, section 5).

## Main definitions

- `readTest` — the test a text stands for
- `keyMatches` — the match types under the default comparator
- `Mail`, `Reader` — a message, and how an interpreter reads its fields
- `Clause.holds` — what a test says of a message
-/

namespace Rav.Sieve

/-- The test a text stands for where a list of tests ends with it. -/
def readTest (text : String) : Option Clause :=
  (lex .start (text.toList ++ [')'])).bind fun ts =>
    (parseClause (ts.length + 1) ts).bind fun r => if r.2 = [.rparen] then some r.1 else none

/-- A text whose tokens are those of a test. -/
theorem readTest_tokens {text : String} {t : Clause}
    (h : lex .start (text.toList ++ [')']) = some (t.tokens ++ [.rparen])) : readTest text = some t := by
  have hclause := parseClause_tokens t (r := [.rparen]) trivial
    (n := (t.tokens ++ [Token.rparen]).length + 1) (by simp only [List.length_append]; omega)
  unfold readTest
  rw [h,Option.bind_some,hclause]
  rfl

theorem readTest_none {text : String} (h : lex .start (text.toList ++ [')']) = none) :
    readTest text = none := by
  unfold readTest
  rw [h]
  rfl

def keyMatches (kind : String) (key value : List UInt8) : Bool :=
  match kind with
  | "is" => decide (value.map casemap = key.map casemap)
  | "contains" => decide (key.map casemap <:+: value.map casemap)
  | "matches" => wildcards.globMatches casemap key value
  | _ => false

/-! ### Tests on a message -/

/-- A message: names and unfolded values of its header fields, and its size in octets. -/
structure Mail where
  fields : List (String × List UInt8)
  size : Nat

/-- How an interpreter reads a value: as a text in UTF-8 without encoded words and without white
space around it, and as the addresses in it. -/
structure Reader where
  text : List UInt8 → List UInt8
  addresses : List UInt8 → List (List UInt8)

namespace Mail

variable (m : Mail) (r : Reader)

/-- The values of the fields of a name; names are compared without case. -/
def values (name : String) : List (List UInt8) :=
  (m.fields.filter (fun f => f.1.toList.map Char.toLower = name.toList.map Char.toLower)).map Prod.snd

def headerMatches (kind header key : String) : Bool :=
  (m.values header).any (fun v => keyMatches kind (octets key) (r.text v))

def addressMatches (kind header key : String) : Bool :=
  ((m.values header).flatMap r.addresses).any (keyMatches kind (octets key))

/-- A test without tests in it. -/
def plainHolds (name : String) (args : List Argument) : Option Bool :=
  match name, args with
  | "header", [.tag kind,.str header,.str key] => some (m.headerMatches r kind header key)
  | "address", [.tag kind,.str header,.str key] => some (m.addressMatches r kind header key)
  | "exists", [.str header] => some (!(m.values header).isEmpty)
  | "size", [.tag "over",.number n] => some (decide (n < m.size))
  | "size", [.tag "under",.number n] => some (decide (m.size < n))
  | _, _ => none

end Mail

mutual

/-- What a test says, if it is one of these. -/
def Clause.holds (m : Mail) (r : Reader) : Clause → Option Bool
  | .plain name args => m.plainHolds r name args
  | .nested name _ test => if name = "not" then (test.holds m r).map (!·) else none
  | .group name _ tests =>
    if name = "allof" then (tests.hold m r).map (List.all · id)
    else if name = "anyof" then (tests.hold m r).map (List.any · id)
    else none

/-- What each of the tests says. -/
def Tests.hold (m : Mail) (r : Reader) : Tests → Option (List Bool)
  | .one test => (test.holds m r).map ([·])
  | .cons test tests => (test.holds m r).bind fun b => (tests.hold m r).map (b :: ·)

end

/-- A list of tests says what its tests say, one after the other. -/
theorem Tests.hold_eq {m : Mail} {r : Reader} : ∀ (ts : Tests) {bs : List Bool},
    List.Forall₂ (fun b t => Clause.holds m r t = some b) bs ts.toList → ts.hold m r = some bs
  | .one test, bs, h => by
    obtain ⟨b,bs,hb,hbs,rfl⟩ := List.forall₂_cons_right_iff.mp h
    obtain rfl := List.forall₂_nil_right_iff.mp hbs
    show (test.holds m r).map _ = _
    rw [hb]
    rfl
  | .cons test tests, bs, h => by
    obtain ⟨b,bs,hb,hbs,rfl⟩ := List.forall₂_cons_right_iff.mp h
    show ((test.holds m r).bind fun b => (tests.hold m r).map (b :: ·)) = _
    rw [hb,Option.bind_some,hold_eq tests hbs]
    rfl

end Rav.Sieve
