import Rav.Db.Filters
import Rav.Error
import Rav.Str

/-!
# `db::filters`, matching

A rule is held against what the cache says about a message. Lower-casing and the regular
expressions are parameters.

## Main definitions

- `MatchEnv` — `str::to_lowercase` and the regular expressions
- `MessageContext` — what is read of a message
- `stringMatches`, `evalCondition` — one condition
- `Db.matchingRules` — the enabled rules that match, in priority order
-/

namespace Rav

/-- `str::to_lowercase`, and `Regex::new` with what a pattern that compiles matches. -/
structure MatchEnv where
  lower : String → String
  regex : String → Option (String → Bool)

/-- What a condition may look at. -/
structure MessageContext where
  fromAddress : String
  toAddresses : String
  ccAddresses : String
  subject : String
  bodySnippet : String
  size : Nat
  hasAttachments : Bool
  isReply : Bool
  deriving DecidableEq, Repr

def CachedMessage.context (msg : CachedMessage) : MessageContext where
  fromAddress := msg.fromAddress
  toAddresses := msg.toAddresses
  ccAddresses := msg.ccAddresses
  subject := msg.subject
  bodySnippet := msg.snippet
  size := msg.size
  hasAttachments := msg.hasAttachments
  isReply := msg.inReplyTo.isSome

def stringMatches (env : MatchEnv) (haystack op needle : String) : Bool :=
  let h := env.lower haystack
  let n := env.lower needle
  match op with
  | "contains" => strContains h n
  | "not_contains" => !strContains h n
  | "equals" => decide (h = n)
  | "not_equals" => decide (h ≠ n)
  | "starts_with" => n.toList.isPrefixOf h.toList
  | "ends_with" => n.toList.isSuffixOf h.toList
  | "matches_regex" =>
    match env.regex needle with
    | some isMatch => isMatch haystack
    | none => false
  | _ => false

/-- `str::parse::<u32>`, 0 where it fails. -/
def sizeThreshold (value : String) : Nat := (parseUnsigned 4294967296 value).getD 0

def evalCondition (env : MatchEnv) (ctx : MessageContext) (cond : FilterCondition) : Bool :=
  match cond.field with
  | "from" => stringMatches env ctx.fromAddress cond.op cond.value
  | "to" => stringMatches env ctx.toAddresses cond.op cond.value
  | "cc" => stringMatches env ctx.ccAddresses cond.op cond.value
  | "subject" => stringMatches env ctx.subject cond.op cond.value
  | "body" => stringMatches env ctx.bodySnippet cond.op cond.value
  | "has_attachment" => ctx.hasAttachments
  | "is_reply" => ctx.isReply
  | "size" =>
    match cond.op with
    | "greater_than" => decide (sizeThreshold cond.value < ctx.size)
    | "less_than" => decide (ctx.size < sizeThreshold cond.value)
    | _ => false
  | _ => false

/-- A rule without conditions matches every message. -/
def FilterRule.isMatch (env : MatchEnv) (ctx : MessageContext) (rule : FilterRule) : Bool :=
  if rule.conditions.isEmpty then true
  else match rule.matchMode with
    | "any" => rule.conditions.any (evalCondition env ctx)
    | _ => rule.conditions.all (evalCondition env ctx)

namespace Db

/-- The enabled rules that match, in priority order. -/
def matchingRules (db : Db) (env : MatchEnv) (ctx : MessageContext) : List FilterRule :=
  db.listFilters.filter (fun rule => rule.enabled && rule.isMatch env ctx)

variable {db : Db} {env : MatchEnv} {ctx : MessageContext}

instance totalBefore : Std.Total FilterRule.Before where
  total a b := by
    unfold FilterRule.Before
    rcases lt_trichotomy a.priority b.priority with h | h | h
    · exact Or.inl (Or.inl h)
    · exact (le_total a.createdAt b.createdAt).imp (fun hc => Or.inr ⟨h,hc⟩)
        (fun hc => Or.inr ⟨h.symm,hc⟩)
    · exact Or.inr (Or.inl h)

instance transBefore : IsTrans FilterRule FilterRule.Before where
  trans a b c hab hbc := by
    unfold FilterRule.Before at *
    rcases hab with h | ⟨h,ht⟩ <;> rcases hbc with h' | ⟨h',ht'⟩
    · exact Or.inl (h.trans h')
    · exact Or.inl (h' ▸ h)
    · exact Or.inl (h ▸ h')
    · exact Or.inr ⟨h.trans h',ht.trans ht'⟩

/-- The rules come by ascending priority. -/
theorem pairwise_matchingRules :
    (db.matchingRules env ctx).Pairwise (fun a b => a.priority ≤ b.priority) := by
  have hsorted : db.listFilters.Pairwise FilterRule.Before := List.pairwise_insertionSort _ _
  refine (hsorted.filter _).imp fun {a b} h => ?_
  rcases h with h | ⟨h,-⟩
  · exact h.le
  · exact h.le

theorem mem_matchingRules {rule : FilterRule} : rule ∈ db.matchingRules env ctx ↔
    rule ∈ db.filterRules ∧ rule.enabled = true ∧ rule.isMatch env ctx = true := by
  unfold matchingRules listFilters
  rw [List.mem_filter,List.mem_insertionSort,Bool.and_eq_true]

/-- Only the rules are read. -/
theorem matchingRules_congr {db' : Db} (h : db'.filterRules = db.filterRules) :
    db'.matchingRules env ctx = db.matchingRules env ctx := by
  unfold matchingRules listFilters
  rw [h]

end Db

end Rav
