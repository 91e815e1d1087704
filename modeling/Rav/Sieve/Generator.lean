import Rav.Db.Schema
import Rav.Str

/-!
# `sieve::generator`

Filter rules and the out-of-office responder as one Sieve script, put together as text.

## Main definitions

- `isSieveCapable`, `conditionToSieve`, `actionToSieve` — the parts of a rule
- `generateSieveScript`, `generateScript` — the script
-/

namespace Rav

/-- Returns true if the rule can be fully represented as a Sieve script. -/
def isSieveCapable (rule : FilterRule) : Bool :=
  let badCondition := rule.conditions.any (fun c => c.field = "body")
  let badAction := rule.actions.any (fun a => a.actionType = "tag")
  !badCondition && !badAction

/-! ### Strings -/

/-- Escape a value for use inside a Sieve quoted string. -/
def escapeSieve (s : String) : String := replaceChar '"' "\\\"" (replaceChar '\\' "\\\\" s)

/-- Escape a value for use in a Sieve `:matches` glob (additionally escapes `*` and `?`). -/
def escapeSieveGlob (s : String) : String :=
  replaceChar '?' "\\?" (replaceChar '*' "\\*" (escapeSieve s))

/-- In a `text:` literal a line that is a single dot ends it, so any leading dot is doubled. -/
def stuffDots (body : String) : String :=
  String.intercalate "\n"
    ((strLines body).map (fun l => if l.toList.head? = some '.' then "." ++ l else l))

/-! ### Conditions and actions -/

def fieldToHeader (field : String) : Option String :=
  match field with
  | "from" => some "From"
  | "to" => some "To"
  | "cc" => some "Cc"
  | "subject" => some "Subject"
  | _ => none

/-- A test on a header, up to its match type, with the header and a value that is escaped. -/
def headerTest (test header value : String) : String :=
  test ++ " \"" ++ header ++ "\" \"" ++ value ++ "\""

def sizeToSieve (cond : FilterCondition) : Option String :=
  match parseUnsigned (2 ^ 64) cond.value, cond.op with
  | some n, "greater_than" => some ("size :over " ++ toString n)
  | some n, "less_than" => some ("size :under " ++ toString n)
  | _, _ => none

/-- `address` compares the address part where `header` compares the whole header. -/
def headerToSieve (cond : FilterCondition) (header : String) : Option String :=
  let v := cond.value
  let isAddress := cond.field = "from" ∨ cond.field = "to" ∨ cond.field = "cc"
  match cond.op with
  | "contains" => some (headerTest "header :contains" header (escapeSieve v))
  | "not_contains" => some (headerTest "not header :contains" header (escapeSieve v))
  | "equals" =>
    some (headerTest (if isAddress then "address :is" else "header :is") header (escapeSieve v))
  | "not_equals" =>
    some (headerTest (if isAddress then "not address :is" else "not header :is") header
      (escapeSieve v))
  | "starts_with" => some (headerTest "header :matches" header (escapeSieveGlob v ++ "*"))
  | "ends_with" => some (headerTest "header :matches" header ("*" ++ escapeSieveGlob v))
  | _ => none

def conditionToSieve (cond : FilterCondition) : Option String :=
  match cond.field with
  | "has_attachment" => some "header :contains \"Content-Type\" \"multipart/\""
  | "is_reply" => some "exists \"In-Reply-To\""
  | "size" => sizeToSieve cond
  | field => (fieldToHeader field).bind (headerToSieve cond)

def actionToSieve (action : FilterAction) : Option String :=
  match action.actionType with
  | "mark_read" => some "addflag \"\\\\Seen\";"
  | "mark_starred" => some "addflag \"\\\\Flagged\";"
  | "move" => action.actionValue.map (fun folder => "fileinto \"" ++ escapeSieve folder ++ "\";")
  | "delete" => some "fileinto \"Trash\";"
  | "forward" => action.actionValue.map (fun addr => "redirect \"" ++ escapeSieve addr ++ "\";")
  | _ => none

/-! ### Filter rules -/

/-- The enabled, Sieve-capable rules. -/
def capableRules (rules : List FilterRule) : List FilterRule :=
  rules.filter (fun r => r.enabled && isSieveCapable r)

def needsFileinto (capable : List FilterRule) : Bool :=
  capable.any (fun r =>
    r.actions.any (fun a => a.actionType = "move" || a.actionType = "delete"))

def needsImap4flags (capable : List FilterRule) : Bool :=
  capable.any (fun r =>
    r.actions.any (fun a => a.actionType = "mark_read" || a.actionType = "mark_starred"))

/-- The extensions the rules are declared to use. -/
def ruleExtensions (capable : List FilterRule) : List String :=
  (if needsFileinto capable then ["fileinto"] else []) ++
    (if needsImap4flags capable then ["imap4flags"] else [])

def quoteAll (exts : List String) : String :=
  String.intercalate ", " (exts.map (fun e => "\"" ++ e ++ "\""))

def requireLine (exts : List String) : String :=
  if exts.isEmpty then "" else "require [" ++ quoteAll exts ++ "];\n\n"

/-- The conditions of a rule that can be expressed. -/
def ruleConditions (rule : FilterRule) : List String := rule.conditions.filterMap conditionToSieve

def ruleTest (rule : FilterRule) : String :=
  let conditions := ruleConditions rule
  if conditions.length ≠ 1 ∧ rule.matchMode = "any" then
    "anyof(" ++ String.intercalate ", " conditions ++ ")"
  else "allof(" ++ String.intercalate ", " conditions ++ ")"

def ruleActions (rule : FilterRule) : String :=
  String.join ((rule.actions.filterMap actionToSieve).map (fun line => "    " ++ line ++ "\n"))

/-- A rule as an `if` command; nothing where no condition can be expressed. -/
def ruleToSieve (rule : FilterRule) : String :=
  if (ruleConditions rule).isEmpty then ""
  else "if " ++ ruleTest rule ++ " \x7b\n" ++ ruleActions rule ++
    (if rule.stopProcessing then "    stop;\n" else "") ++ "\x7d\n\n"

/-- Generate a Sieve script from all enabled, Sieve-capable rules. -/
def generateSieveScript (rules : List FilterRule) : String :=
  let capable := capableRules rules
  if capable.isEmpty then "# rav-filters\n"
  else requireLine (ruleExtensions capable) ++ String.join (capable.map ruleToSieve)

/-! ### Out of office -/

/-- Sieve counts in whole days: rounded up, and never below one. -/
def vacationDays (hours : Int) : Nat :=
  (max (max (hours / 24) 0 + if 0 < hours % 24 then 1 else 0) 1).toNat

/-- The responder, if it is enabled. -/
def activeResponder (vacation : Option VacationResponder) : Option VacationResponder :=
  vacation.filter (fun v => v.enabled)

def vacationGuards (v : VacationResponder) : List String :=
  (v.startDate.map (fun start =>
      "currentdate :value \"ge\" \"date\" \"" ++ escapeSieve start ++ "\"")).toList ++
    (v.endDate.map (fun stop =>
      "currentdate :value \"le\" \"date\" \"" ++ escapeSieve stop ++ "\"")).toList

def vacationExtensions (v : VacationResponder) : List String :=
  if (vacationGuards v).isEmpty then ["vacation"] else ["vacation","date","relational"]

def vacationAction (v : VacationResponder) : String :=
  "vacation :days " ++ toString (vacationDays v.replyIntervalHours) ++ " :subject \"" ++
    escapeSieve v.subject ++ "\" text:\n" ++ stuffDots v.body ++ "\n.\n;"

def vacationBlock (v : VacationResponder) : String :=
  if (vacationGuards v).isEmpty then vacationAction v
  else "if allof (" ++ String.intercalate ",\n          " (vacationGuards v) ++ ") \x7b\n  " ++
    vacationAction v ++ "\n\x7d"

/-- One script carries everything: the filter rules first, then the out-of-office responder. -/
def generateScript (rules : List FilterRule) (vacation : Option VacationResponder) : String :=
  let rulesPart := generateSieveScript rules
  match activeResponder vacation with
  | none => rulesPart
  | some v =>
    rulesPart ++ "\n# --- out of office (generated by Altacee Mail) ---\nrequire [" ++
      quoteAll (vacationExtensions v) ++ "];\n" ++ vacationBlock v ++ "\n"

/-- Without rules and without a responder there is nothing but a comment. -/
example : generateScript [] (some defaultVacation) = "# rav-filters\n" := by decide

end Rav
