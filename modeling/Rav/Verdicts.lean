import Mathlib.Algebra.Order.BigOperators.Group.List
import Rav.Db.Matching
import Rav.Db.Messages
import Rav.Escaping
import Rav.Imap.Envelope
import Rav.Sieve.Tests

/-!
# Two verdicts on a condition

A condition is held against the cache by the program, and against the message by the test it is
written as. The verdicts are compared.

## Main definitions

- `SameCase` — lower-casing tells two texts apart as ASCII letters do
- `AnswersFor` — what the server says of a message is what IMAP has it say
- `FilterCondition.Regular`, `FilterCondition.Fits` — the condition on message and condition
- `sameVerdict_iff`, `sameVerdict_rule` — conditions, and rules of such conditions
-/

namespace Rav

open Sieve

/-! ### Texts -/

/-- Lower-casing maps the characters of both texts one by one, and makes a character of the one that
of the other only where they are the same but for the case of an ASCII letter. -/
def SameCase (lower : String → String) (s v : String) : Prop :=
  ∃ f : Char → Char, lower s = String.ofList (s.toList.map f) ∧
    lower v = String.ofList (v.toList.map f) ∧
    ∀ c ∈ s.toList, ∀ d ∈ v.toList, f c = f d ↔ c.toUpper = d.toUpper

/-- The key is found in the value. -/
def KeyFound (key : String) (value : List UInt8) : Prop :=
  (octets key).map casemap <:+: value.map casemap

/-- The value is the key. -/
def Equals (key : String) (value : List UInt8) : Prop :=
  value.map casemap = (octets key).map casemap

instance decidableFound (key : String) (value : List UInt8) : Decidable (KeyFound key value) :=
  inferInstanceAs (Decidable (_ <:+: _))

instance decidableEquals (key : String) (value : List UInt8) : Decidable (Equals key value) :=
  inferInstanceAs (Decidable (_ = _))

theorem KeyFound.mono {key : String} {value value' : List UInt8} (h : KeyFound key value)
    (hv : value <:+: value') : KeyFound key value' :=
  h.trans (hv.map casemap)

theorem found_nil {key : String} : KeyFound key [] ↔ key = "" := by
  unfold KeyFound
  rw [List.map_nil,List.infix_nil,List.map_eq_nil_iff]
  constructor
  · intro h
    have hchars : key.toList = [] := selfSync_utf8.flatMap_inj.mp h
    exact String.toList_eq_nil_iff.mp hchars
  · rintro rfl
    rfl

theorem equals_nil {key : String} : Equals key [] ↔ key = "" := by
  rw [← found_nil]
  unfold Equals KeyFound
  rw [List.map_nil,List.infix_nil,eq_comm]

section Mapped

variable {α β γ : Type} {f : α → β} {g : α → γ} {s v : List α}

theorem map_eq_map_iff (h : ∀ c ∈ s, ∀ d ∈ v, f c = f d ↔ g c = g d) :
    s.map f = v.map f ↔ s.map g = v.map g := by
  induction s generalizing v with
  | nil => cases v <;> simp
  | cons c s ih =>
    cases v with
    | nil => simp
    | cons d v =>
      have htail := ih (v := v) fun c' hc' d' hd' =>
        h c' (List.mem_cons_of_mem c hc') d' (List.mem_cons_of_mem d hd')
      rw [List.map_cons,List.map_cons,List.map_cons,List.map_cons,List.cons.injEq,List.cons.injEq,htail,
        h c List.mem_cons_self d List.mem_cons_self]

/-- Only which characters become the same matters for what is found. -/
theorem map_infix_map (h : ∀ c ∈ s, ∀ d ∈ v, f c = f d ↔ g c = g d) (hpart : v.map f <:+: s.map f) :
    v.map g <:+: s.map g := by
  obtain ⟨p,q,hpq⟩ := hpart
  obtain ⟨s₁,s₂,rfl,hs₁,hs₂⟩ := List.map_eq_append_iff.mp hpq.symm
  obtain ⟨a,b,rfl,ha,hb⟩ := List.map_eq_append_iff.mp hs₁
  have hbv : b.map g = v.map g := (map_eq_map_iff fun c hc d hd =>
    h c (List.mem_append_left _ (List.mem_append_right _ hc)) d hd).mp hb
  rw [List.map_append,List.map_append,hbv]
  exact ⟨_,_,rfl⟩

end Mapped

section SameCase

variable {lower : String → String} {s v : String}

theorem SameCase.contains_iff (h : SameCase lower s v) :
    strContains (lower s) (lower v) = true ↔ KeyFound v (octets s) := by
  obtain ⟨f,hs,hv,hf⟩ := h
  rw [strContains_iff,hs,hv,String.toList_ofList,String.toList_ofList,KeyFound,octets_contains_iff]
  exact ⟨map_infix_map hf,map_infix_map fun c hc d hd => (hf c hc d hd).symm⟩

theorem SameCase.eq_iff (h : SameCase lower s v) : lower s = lower v ↔ Equals v (octets s) := by
  obtain ⟨f,hs,hv,hf⟩ := h
  have hinj : String.ofList (s.toList.map f) = String.ofList (v.toList.map f) ↔
      s.toList.map f = v.toList.map f := ⟨String.ofList_injective,congrArg String.ofList⟩
  rw [hs,hv,hinj,Equals,octets_is_iff]
  exact map_eq_map_iff hf

end SameCase

/-! ### Addresses as they are stored -/

/-- The names and addresses a condition is meant for. -/
def EmailAddress.parts (a : EmailAddress) : List String := a.name.toList ++ [a.address]

/-- JSON writes the text as it is. -/
def PlainJson (s : String) : Prop := ∀ c ∈ s.toList, Json.escapeChar c = [c]

instance decidablePlainJson (s : String) : Decidable (PlainJson s) :=
  inferInstanceAs (Decidable (∀ c ∈ s.toList, _))

theorem infix_octets {a b : String} (h : a.toList <:+: b.toList) : octets a <:+: octets b :=
  selfSync_utf8.flatMap_infix_iff.mpr h

theorem infix_string {s : String} (h : PlainJson s) : s.toList <:+: (Json.string s).toList := by
  unfold Json.string
  rw [List.flatMap_congr h,String.toList_ofList,List.flatMap_singleton']
  exact ⟨['"'],['"'],rfl⟩

theorem infix_intercalate {sep s : String} {ss : List String} (h : s ∈ ss) :
    s.toList <:+: (sep.intercalate ss).toList := by
  induction ss with
  | nil => exact absurd h List.not_mem_nil
  | cons t ss ih =>
    cases ss with
    | nil =>
      rw [List.mem_singleton.mp h,String.intercalate_singleton]
    | cons u ss =>
      rw [String.intercalate_cons_cons,String.toList_append,String.toList_append]
      rcases List.mem_cons.mp h with rfl | h
      · exact ⟨[],_,(List.append_assoc _ _ _).symm⟩
      · exact (ih h).trans (List.suffix_append _ _).isInfix

theorem infix_array {α : Type} {f : α → String} {a : α} {as : List α} (h : a ∈ as) :
    (f a).toList <:+: (Json.array f as).toList := by
  unfold Json.array
  rw [String.toList_append,String.toList_append]
  exact (infix_intercalate (List.mem_map_of_mem h)).trans ⟨_,_,rfl⟩

theorem infix_object (name : String) {value : String} {members : List (String × String)}
    (h : (name,value) ∈ members) : value.toList <:+: (Json.object members).toList := by
  unfold Json.object
  rw [String.toList_append,String.toList_append]
  refine List.IsInfix.trans ?_ ((infix_intercalate (List.mem_map_of_mem h)).trans ⟨_,_,rfl⟩)
  rw [String.toList_append]
  exact (List.suffix_append _ _).isInfix

/-- What JSON writes as it is stands in the stored list. -/
theorem infix_stored {a : EmailAddress} {as : List EmailAddress} {part : String} (ha : a ∈ as)
    (hpart : part ∈ a.parts) (hplain : PlainJson part) :
    octets part <:+: octets (Json.array EmailAddress.json as) := by
  refine infix_octets ((infix_string hplain).trans (List.IsInfix.trans ?_ (infix_array ha)))
  unfold EmailAddress.json
  rcases List.mem_append.mp hpart with hname | haddress
  · obtain hname := Option.mem_toList.mp hname
    exact infix_object "name" (by rw [hname]; exact List.mem_cons_self)
  · rw [List.mem_singleton.mp haddress]
    exact infix_object "address" (by simp)

/-- An escape is no shorter than what it stands for. -/
theorem length_escapeChar (c : Char) :
    (String.utf8EncodeChar c).length ≤ ((Json.escapeChar c).flatMap String.utf8EncodeChar).length := by
  rcases Json.escapeChar_cases c with ⟨hplain,-⟩ | ⟨hascii,cs,hcs,-⟩
  · rw [hplain,List.flatMap_singleton]
  · have hval : c.val ≤ 127 := UInt32.le_iff_toNat_le.mpr (Nat.le_of_lt_succ hascii)
    rw [String.length_utf8EncodeChar,Char.utf8Size_eq_one_iff.mpr hval,hcs,List.flatMap_cons,
      List.length_append]
    exact Nat.le_add_right 1 _

theorem length_string (s : String) : (octets s).length < (octets (Json.string s)).length := by
  have hle : (octets s).length ≤
      ((s.toList.flatMap Json.escapeChar).flatMap String.utf8EncodeChar).length := by
    unfold octets
    rw [List.flatMap_assoc,List.length_flatMap,List.length_flatMap]
    exact List.sum_le_sum fun c _ => length_escapeChar c
  unfold Json.string octets at *
  rw [String.toList_ofList,List.flatMap_append,List.flatMap_append,List.length_append,List.length_append]
  have hquote : (['"'].flatMap String.utf8EncodeChar).length = 1 := rfl
  omega

/-- The stored list is longer than an address in it. -/
theorem length_stored {a : EmailAddress} {as : List EmailAddress} (ha : a ∈ as) :
    (octets a.address).length < (octets (Json.array EmailAddress.json as)).length := by
  have hobject : (Json.string a.address).toList <:+: (EmailAddress.json a).toList :=
    infix_object "address" (by simp)
  exact (length_string a.address).trans_le (infix_octets (hobject.trans (infix_array ha))).length_le

/-! ### The verdicts -/

/-- What the server says of the message, as IMAP has it: nothing of fields that are not there, the
structure of its parts, and its size, for which there are 32 bits. -/
structure AnswersFor (env : HeaderEnv) (m : Mail) (fetch : Fetch) (body : BodyStructure) : Prop where
  subject : ∀ e, fetch.envelope = some e → m.values "Subject" = [] → e.subject = none
  from_ : ∀ e, fetch.envelope = some e → m.values "From" = [] → e.from_ = none
  inReplyTo : ∀ raw p, fetch.header = some raw → env.parseThreading raw = some p →
    m.values "In-Reply-To" = [] → p.inReplyTo = none
  bodystructure : fetch.bodystructure = some body
  size : fetch.size = some m.size
  size_lt : m.size < 2 ^ 32

/-- The condition is written as a test, and the test says of the message what the program finds. -/
def SameVerdict (env : MatchEnv) (r : Reader) (m : Mail) (ctx : MessageContext) (cond : FilterCondition) :
    Prop :=
  ∃ text t, conditionToSieve cond = some text ∧ readTest text = some t ∧
    t.holds m r = some (evalCondition env ctx cond)

namespace FilterCondition

variable (cond : FilterCondition)

def negated : Bool := cond.op = "not_contains" || cond.op = "not_equals"

/-- The whole text is compared. -/
def whole : Bool := cond.op = "equals" || cond.op = "not_equals"

def isAddress : Bool := cond.field = "from" || cond.field = "to" || cond.field = "cc"

/-- The test finds the value. -/
def Finds (r : Reader) (m : Mail) (header : String) : Prop :=
  if cond.whole then
    if cond.isAddress then ∃ a ∈ (m.values header).flatMap r.addresses, Equals cond.value a
    else ∃ b ∈ m.values header, Equals cond.value (r.text b)
  else ∃ b ∈ m.values header, KeyFound cond.value (r.text b)

/-- The program finds the value. -/
def FindsStored (lower : String → String) (stored : String) : Prop :=
  if cond.whole then lower stored = lower cond.value
  else strContains (lower stored) (lower cond.value) = true

instance decidableFinds (r : Reader) (m : Mail) (header : String) :
    Decidable (cond.Finds r m header) :=
  inferInstanceAs (Decidable (if cond.whole then (if cond.isAddress then _ else _) else _))

instance decidableFindsStored (lower : String → String) (stored : String) :
    Decidable (cond.FindsStored lower stored) :=
  inferInstanceAs (Decidable (if cond.whole then _ else _))

/-- A condition that is held against a text. -/
def Textual : Prop :=
  cond.op = "contains" ∨ cond.op = "not_contains" ∨ cond.op = "equals" ∨ cond.op = "not_equals"

end FilterCondition

section Headers

variable {env : MatchEnv} {r : Reader} {m : Mail} {ctx : MessageContext} {cond : FilterCondition}
  {header stored : String}

theorem holds_headerClause (negated : Bool) (kind key : String) :
    (headerClause negated "header" kind header key).holds m r =
      some (negated ^^ m.headerMatches r kind header key) ∧
    (headerClause negated "address" kind header key).holds m r =
      some (negated ^^ m.addressMatches r kind header key) := by
  cases negated with
  | false => exact ⟨by simp [headerClause,Clause.holds,Mail.plainHolds],
      by simp [headerClause,Clause.holds,Mail.plainHolds]⟩
  | true => exact ⟨by simp [headerClause,Clause.holds,Mail.plainHolds],
      by simp [headerClause,Clause.holds,Mail.plainHolds]⟩

theorem stringMatches_textual (hop : cond.Textual) : stringMatches env stored cond.op cond.value =
    (cond.negated ^^ decide (cond.FindsStored env.lower stored)) := by
  unfold stringMatches FilterCondition.negated FilterCondition.FindsStored FilterCondition.whole
  rcases hop with hop | hop | hop | hop
  · simp [hop]
  · simp [hop]
  · simp [hop]
  · simp [hop]

theorem readTest_headerTest (negated : Bool) (name kind test value : String)
    (htest : feed .start (test ++ " ").toList = some (.start,
      (if negated then [.ident "not"] else []) ++ [.ident name,.tag kind]))
    (hheader : header ∈ ["From","To","Cc","Subject"]) (hname : name ∈ ["header","address"])
    (hkind : kind ∈ ["contains","is","matches"]) :
    readTest (headerTest test header (escapeSieve value)) =
      if strOk value then some (headerClause negated name kind header value) else none :=
  (written_headerTest negated name kind htest hheader (piece_escaped value) hname hkind).readTest

theorem headerMatches_contains {key : String} :
    m.headerMatches r "contains" header key = true ↔ ∃ b ∈ m.values header, KeyFound key (r.text b) := by
  unfold Mail.headerMatches
  rw [List.any_eq_true]
  exact exists_congr fun b => and_congr_right fun _ => decide_eq_true_iff

theorem headerMatches_is {key : String} :
    m.headerMatches r "is" header key = true ↔ ∃ b ∈ m.values header, Equals key (r.text b) := by
  unfold Mail.headerMatches
  rw [List.any_eq_true]
  exact exists_congr fun b => and_congr_right fun _ => decide_eq_true_iff

theorem addressMatches_is {key : String} : m.addressMatches r "is" header key = true ↔
    ∃ a ∈ (m.values header).flatMap r.addresses, Equals key a := by
  unfold Mail.addressMatches
  rw [List.any_eq_true]
  exact exists_congr fun a => and_congr_right fun _ => decide_eq_true_iff

/-- What is written for a positive or a negated condition, up to the match. -/
theorem written_match (negated : Bool) {name kind : String} (test : String)
    (htest : feed .start (test ++ " ").toList = some (.start,
      (if negated then [.ident "not"] else []) ++ [.ident name,.tag kind]))
    (hf : fieldToHeader cond.field = some header) (hname : name ∈ ["header","address"])
    (hkind : kind ∈ ["contains","is","matches"]) (hnegated : cond.negated = negated)
    (hwritten : headerToSieve cond header = some (headerTest test header (escapeSieve cond.value)))
    {found : Bool} (hfound : found = true ↔ cond.Finds r m header)
    (hholds : (headerClause negated name kind header cond.value).holds m r = some (negated ^^ found)) :
    ∃ text t, conditionToSieve cond = some text ∧
      readTest text = (if strOk cond.value then some t else none) ∧
      t.holds m r = some (cond.negated ^^ decide (cond.Finds r m header)) := by
  refine ⟨_,_,(conditionToSieve_of_header hf).trans hwritten,readTest_headerTest negated name kind test
    cond.value htest (fieldToHeader_mem hf) hname hkind,?_⟩
  have hdecide : found = decide (cond.Finds r m header) := by
    rw [Bool.eq_iff_iff,hfound,decide_eq_true_iff]
  rw [hholds,hnegated,hdecide]

/-- What is written for the condition is a test that says whether the value is found. -/
theorem written_textual (hf : fieldToHeader cond.field = some header) (hop : cond.Textual) :
    ∃ text t, conditionToSieve cond = some text ∧
      readTest text = (if strOk cond.value then some t else none) ∧
      t.holds m r = some (cond.negated ^^ decide (cond.Finds r m header)) := by
  have hisAddress : cond.isAddress = true ↔ cond.field = "from" ∨ cond.field = "to" ∨ cond.field = "cc" := by
    simp [FilterCondition.isAddress,or_assoc]
  have hcontains : cond.whole = false →
      (m.headerMatches r "contains" header cond.value = true ↔ cond.Finds r m header) := by
    intro hwhole
    rw [headerMatches_contains]
    simp [FilterCondition.Finds,hwhole]
  have haddressIs : cond.whole = true → cond.isAddress = true →
      (m.addressMatches r "is" header cond.value = true ↔ cond.Finds r m header) := by
    intro hwhole haddress
    rw [addressMatches_is]
    simp [FilterCondition.Finds,hwhole,haddress]
  have hheaderIs : cond.whole = true → ¬cond.isAddress = true →
      (m.headerMatches r "is" header cond.value = true ↔ cond.Finds r m header) := by
    intro hwhole haddress
    rw [headerMatches_is]
    simp [FilterCondition.Finds,hwhole,haddress]
  rcases hop with hop | hop | hop | hop
  · refine written_match false "header :contains" rfl hf (by decide) (by decide)
      (by simp [FilterCondition.negated,hop]) (by simp [headerToSieve,hop])
      (hcontains (by simp [FilterCondition.whole,hop])) (holds_headerClause false "contains" cond.value).1
  · refine written_match true "not header :contains" rfl hf (by decide) (by decide)
      (by simp [FilterCondition.negated,hop]) (by simp [headerToSieve,hop])
      (hcontains (by simp [FilterCondition.whole,hop])) (holds_headerClause true "contains" cond.value).1
  · have hwhole : cond.whole = true := by simp [FilterCondition.whole,hop]
    have hnegated : cond.negated = false := by simp [FilterCondition.negated,hop]
    by_cases haddress : cond.isAddress = true
    · refine written_match false "address :is" rfl hf (by decide) (by decide)
        hnegated ?_ (haddressIs hwhole haddress) (holds_headerClause false "is" cond.value).2
      simp [headerToSieve,hop,hisAddress.mp haddress]
    · refine written_match false "header :is" rfl hf (by decide) (by decide)
        hnegated ?_ (hheaderIs hwhole haddress) (holds_headerClause false "is" cond.value).1
      simp [headerToSieve,hop,mt hisAddress.mpr haddress]
  · have hwhole : cond.whole = true := by simp [FilterCondition.whole,hop]
    have hnegated : cond.negated = true := by simp [FilterCondition.negated,hop]
    by_cases haddress : cond.isAddress = true
    · refine written_match true "not address :is" rfl hf (by decide) (by decide)
        hnegated ?_ (haddressIs hwhole haddress) (holds_headerClause true "is" cond.value).2
      simp [headerToSieve,hop,hisAddress.mp haddress]
    · refine written_match true "not header :is" rfl hf (by decide) (by decide)
        hnegated ?_ (hheaderIs hwhole haddress) (holds_headerClause true "is" cond.value).1
      simp [headerToSieve,hop,mt hisAddress.mpr haddress]

theorem sameVerdict_textual (hf : fieldToHeader cond.field = some header) (hop : cond.Textual)
    (heval : evalCondition env ctx cond = stringMatches env stored cond.op cond.value) :
    SameVerdict env r m ctx cond ↔ strOk cond.value = true ∧
      (cond.Finds r m header ↔ cond.FindsStored env.lower stored) := by
  obtain ⟨text,t,htext,hread,hholds⟩ := written_textual (r := r) (m := m) hf hop
  unfold SameVerdict
  rw [heval,stringMatches_textual hop]
  have hiff : ∀ {p q : Prop} [Decidable p] [Decidable q] (b : Bool),
      some (b ^^ decide p) = some (b ^^ decide q) ↔ (p ↔ q) := by
    intro p q _ _ b
    rw [Option.some_inj,Bool.xor_right_inj,decide_eq_decide]
  constructor
  · rintro ⟨text',t',htext',hread',hholds'⟩
    obtain rfl : text = text' := Option.some.inj (htext.symm.trans htext')
    rw [hread'] at hread
    split at hread
    · next hok =>
      obtain rfl := Option.some.inj hread
      exact ⟨hok,(hiff cond.negated).mp (hholds.symm.trans hholds')⟩
    · simp at hread
  · rintro ⟨hok,hsame⟩
    rw [hok] at hread
    exact ⟨text,t,htext,hread,hholds.trans ((hiff cond.negated).mpr hsame)⟩

end Headers

/-! ### The condition -/

def BodyStructure.isMultipart : BodyStructure → Bool
  | .multipart _ => true
  | _ => false

/-- The address the message is taken to be from. -/
def ImapMessageHeader.sender (h : ImapMessageHeader) : String :=
  (h.from_.head?.map EmailAddress.address).getD ""

/-- Addresses as they are stored. -/
def storedList (as : List EmailAddress) : String := Json.array EmailAddress.json as

/-- The value is found in a name or an address. -/
def WithinParts (value : String) (as : List EmailAddress) : Prop :=
  ∃ a ∈ as, ∃ part ∈ a.parts, KeyFound value (octets part)

/-- The value is found in a field. -/
def InField (r : Reader) (m : Mail) (header value : String) : Prop :=
  ∃ b ∈ m.values header, KeyFound value (r.text b)

namespace FilterCondition

variable (cond : FilterCondition) (lower : String → String) (r : Reader) (m : Mail)
  (h : ImapMessageHeader) (body : BodyStructure)

/-- The test reads the addresses the server says; a name or an address with the value in it stands
in the field as it is stored; and a value in both texts is in a name or an address. -/
def RegularList (header : String) (as : List EmailAddress) : Prop :=
  SameCase lower (storedList as) cond.value ∧
    if cond.whole then
      (m.values header).flatMap r.addresses = as.map (fun a => octets a.address)
    else
      (∀ a ∈ as, ∀ part ∈ a.parts, KeyFound cond.value (octets part) →
        PlainJson part ∧ ∃ b ∈ m.values header, octets part <:+: r.text b) ∧
      (InField r m header cond.value → KeyFound cond.value (octets (storedList as)) → WithinParts cond.value as)

/-- The test reads the fields as the program does, whose lower-casing makes no difference but for
ASCII letters. -/
def Regular : Prop :=
  match cond.field with
  | "has_attachment" => body.isMultipart = true ↔ InField r m "Content-Type" "multipart/"
  | "from" =>
    SameCase lower h.sender cond.value ∧
      if cond.whole then
        (m.values "From").flatMap r.addresses = h.from_.map (fun a => octets a.address)
      else h.sender = "" ∨ ∃ b ∈ m.values "From", octets h.sender <:+: r.text b
  | "to" => cond.RegularList lower r m "To" h.to_
  | "cc" => cond.RegularList lower r m "Cc" h.cc
  | "subject" =>
    SameCase lower (h.subject.getD "") cond.value ∧
      ∀ b ∈ m.values "Subject", r.text b = octets (h.subject.getD "")
  | _ => True

/-- No address is the value, nor is what is stored; or the value is found in names and addresses only. -/
def FitsList (header : String) (as : List EmailAddress) : Prop :=
  if cond.whole then
    (∀ a ∈ as, ¬Equals cond.value (octets a.address)) ∧ ¬Equals cond.value (octets (storedList as))
  else InField r m header cond.value ∨ KeyFound cond.value (octets (storedList as)) → WithinParts cond.value as

/-- A message of several parts has an attachment and no other has one; a reply names a message; the
size is below `2 ^ 32`; the value is not to be found in a sender's address other than the first, or
outside of it; and the empty value is not held against a field that is not there. -/
def Fits : Prop :=
  conditionOk cond = true ∧
    match cond.field with
    | "has_attachment" => body.isMultipart = hasAttachments body
    | "is_reply" => m.values "In-Reply-To" ≠ [] → h.inReplyTo.isSome = true
    | "size" => ∀ n, parseUnsigned (2 ^ 64) cond.value = some n →
        n < 2 ^ 32 ∨ cond.op = "greater_than" ∧ m.size = 0
    | "from" =>
      if cond.whole then
        (∀ a ∈ h.from_, Equals cond.value (octets a.address) → Equals cond.value (octets h.sender)) ∧
          (h.from_ ≠ [] ∨ cond.value ≠ "")
      else
        (InField r m "From" cond.value → KeyFound cond.value (octets h.sender)) ∧
          (m.values "From" ≠ [] ∨ cond.value ≠ "")
    | "to" => cond.FitsList r m "To" h.to_
    | "cc" => cond.FitsList r m "Cc" h.cc
    | _ => m.values "Subject" ≠ [] ∨ cond.value ≠ ""

end FilterCondition

section Verdicts

variable {env : MatchEnv} {r : Reader} {m : Mail} {ctx : MessageContext} {h : ImapMessageHeader}
  {cond : FilterCondition} {header : String} {body : BodyStructure}

theorem conditionOk_of_header (hf : fieldToHeader cond.field = some header) :
    conditionOk cond = strOk cond.value := by
  unfold conditionOk
  rw [hf]
  rfl

/-- What lower-casing finds in a stored text. -/
theorem findsStored_iff {stored : String} (hcase : SameCase env.lower stored cond.value) :
    cond.FindsStored env.lower stored ↔
      if cond.whole then Equals cond.value (octets stored) else KeyFound cond.value (octets stored) := by
  unfold FilterCondition.FindsStored
  split
  · exact hcase.eq_iff
  · exact hcase.contains_iff

theorem subject_iff (hfield : cond.field = "subject") {subject : String}
    (habsent : m.values "Subject" = [] → subject = "")
    (hcase : SameCase env.lower subject cond.value)
    (htext : ∀ b ∈ m.values "Subject", r.text b = octets subject) :
    (cond.Finds r m "Subject" ↔ cond.FindsStored env.lower subject) ↔
      m.values "Subject" ≠ [] ∨ cond.value ≠ "" := by
  have haddress : cond.isAddress = false := by simp [FilterCondition.isAddress,hfield]
  rw [findsStored_iff hcase]
  unfold FilterCondition.Finds
  simp only [haddress,if_neg Bool.false_ne_true]
  cases hvalues : m.values "Subject" with
  | nil =>
    have hoctets : octets subject = [] := by
      rw [habsent hvalues]
      rfl
    simp [hoctets,found_nil,equals_nil]
  | cons b bs =>
    rw [hvalues] at htext
    have hfind : ∀ P : List UInt8 → Prop, (∃ b' ∈ b :: bs, P (r.text b')) ↔ P (octets subject) := by
      intro P
      constructor
      · rintro ⟨b',hb',hP⟩
        rwa [htext b' hb'] at hP
      · intro hP
        exact ⟨b,List.mem_cons_self,(htext b List.mem_cons_self).symm ▸ hP⟩
    rw [hfind,hfind]
    simp

theorem Equals.mem_octets {value : String} {as : List EmailAddress} :
    (∃ a ∈ as.map (fun a => octets a.address), Equals value a) ↔
      ∃ a ∈ as, Equals value (octets a.address) := by
  simp

theorem sender_iff (hfield : cond.field = "from")
    (habsent : m.values "From" = [] → h.sender = "")
    (hreg : cond.Regular env.lower r m h body) :
    (cond.Finds r m "From" ↔ cond.FindsStored env.lower h.sender) ↔
      if cond.whole then
        (∀ a ∈ h.from_, Equals cond.value (octets a.address) → Equals cond.value (octets h.sender)) ∧
          (h.from_ ≠ [] ∨ cond.value ≠ "")
      else
        (InField r m "From" cond.value → KeyFound cond.value (octets h.sender)) ∧
          (m.values "From" ≠ [] ∨ cond.value ≠ "") := by
  have haddress : cond.isAddress = true := by simp [FilterCondition.isAddress,hfield]
  unfold FilterCondition.Regular at hreg
  rw [hfield] at hreg
  obtain ⟨hcase,htexts⟩ := hreg
  rw [findsStored_iff hcase]
  unfold FilterCondition.Finds
  by_cases hwhole : cond.whole = true
  · rw [if_pos hwhole] at htexts
    simp only [hwhole,haddress,if_true]
    rw [htexts,Equals.mem_octets]
    cases hfrom : h.from_ with
    | nil =>
      have hsender : h.sender = "" := by simp [ImapMessageHeader.sender,hfrom]
      have hoctets : octets h.sender = [] := by
        rw [hsender]
        rfl
      simp [hoctets,equals_nil]
    | cons a as =>
      have hsender : h.sender = a.address := by simp [ImapMessageHeader.sender,hfrom]
      rw [hsender]
      constructor
      · exact fun hiff => ⟨fun b hb heq => hiff.mp ⟨b,hb,heq⟩,Or.inl (List.cons_ne_nil _ _)⟩
      · rintro ⟨hfirst,-⟩
        exact ⟨fun ⟨b,hb,heq⟩ => hfirst b hb heq,fun heq => ⟨a,List.mem_cons_self,heq⟩⟩
  · rw [if_neg hwhole] at htexts
    simp only [if_neg hwhole]
    by_cases hvalues : m.values "From" = []
    · have hoctets : octets h.sender = [] := by
        rw [habsent hvalues]
        rfl
      simp [InField,hvalues,hoctets,found_nil]
    · have hstored : KeyFound cond.value (octets h.sender) → InField r m "From" cond.value := by
        intro hfound
        rcases htexts with hempty | ⟨b,hb,hin⟩
        · obtain ⟨b,hb⟩ := List.exists_mem_of_ne_nil _ hvalues
          rw [hempty] at hfound
          refine ⟨b,hb,?_⟩
          rw [found_nil.mp hfound]
          exact List.nil_infix
        · exact ⟨b,hb,hfound.mono hin⟩
      constructor
      · exact fun hiff => ⟨hiff.mp,Or.inl hvalues⟩
      · exact fun hfits => ⟨hfits.1,hstored⟩

theorem list_iff {as : List EmailAddress} (haddress : cond.isAddress = true)
    (hreg : cond.RegularList env.lower r m header as) :
    (cond.Finds r m header ↔ cond.FindsStored env.lower (storedList as)) ↔
      cond.FitsList r m header as := by
  obtain ⟨hcase,htexts⟩ := hreg
  rw [findsStored_iff hcase]
  unfold FilterCondition.Finds FilterCondition.FitsList
  by_cases hwhole : cond.whole = true
  · rw [if_pos hwhole] at htexts
    simp only [hwhole,haddress,if_true]
    rw [htexts,Equals.mem_octets]
    -- the list is longer than its addresses, so they are not both the value
    have hboth : ∀ a ∈ as, Equals cond.value (octets a.address) →
        ¬Equals cond.value (octets (storedList as)) := by
      intro a ha haddress hlist
      have hlength := congrArg List.length (haddress.trans hlist.symm)
      rw [List.length_map,List.length_map] at hlength
      exact absurd hlength (length_stored ha).ne
    constructor
    · intro hiff
      have hnone : ∀ a ∈ as, ¬Equals cond.value (octets a.address) :=
        fun a ha heq => hboth a ha heq (hiff.mp ⟨a,ha,heq⟩)
      refine ⟨hnone,fun hlist => ?_⟩
      obtain ⟨a,ha,heq⟩ := hiff.mpr hlist
      exact hnone a ha heq
    · rintro ⟨hnone,hlist⟩
      exact ⟨fun ⟨a,ha,heq⟩ => absurd heq (hnone a ha),fun heq => absurd heq hlist⟩
  · rw [if_neg hwhole] at htexts
    simp only [if_neg hwhole]
    obtain ⟨hverbatim,hcross⟩ := htexts
    have hwithin : WithinParts cond.value as →
        InField r m header cond.value ∧ KeyFound cond.value (octets (storedList as)) := by
      rintro ⟨a,ha,part,hpart,hfound⟩
      obtain ⟨hplain,b,hb,hin⟩ := hverbatim a ha part hpart hfound
      exact ⟨⟨b,hb,hfound.mono hin⟩,hfound.mono (infix_stored ha hpart hplain)⟩
    constructor
    · rintro hiff (hfield | hlist)
      · exact hcross hfield (hiff.mp hfield)
      · exact hcross (hiff.mpr hlist) hlist
    · exact fun hfits => ⟨fun hfield => (hwithin (hfits (Or.inl hfield))).2,
        fun hlist => (hwithin (hfits (Or.inr hlist))).1⟩

/-! ### Conditions on something else -/

theorem sameVerdict_test {text : String} {t : Clause} {b : Bool}
    (htext : conditionToSieve cond = some text) (hwritten : WrittenTest [] text true t)
    (hholds : t.holds m r = some b) :
    SameVerdict env r m ctx cond ↔ b = evalCondition env ctx cond := by
  have hread := hwritten.readTest
  rw [if_pos rfl] at hread
  constructor
  · rintro ⟨text',t',htext',hread',hholds'⟩
    obtain rfl : text = text' := Option.some.inj (htext.symm.trans htext')
    obtain rfl : t = t' := Option.some.inj (hread.symm.trans hread')
    exact Option.some.inj (hholds.symm.trans hholds')
  · intro heq
    exact ⟨text,t,htext,hread,hholds.trans (congrArg some heq)⟩

theorem attachment_iff (hfield : cond.field = "has_attachment")
    (hreg : body.isMultipart = true ↔ InField r m "Content-Type" "multipart/") :
    SameVerdict env r m ctx cond ↔ body.isMultipart = ctx.hasAttachments := by
  have htext : conditionToSieve cond = some "header :contains \"Content-Type\" \"multipart/\"" := by
    simp only [conditionToSieve,hfield]
  have hwritten : WrittenTest [] "header :contains \"Content-Type\" \"multipart/\"" true
      (.plain "header" [.tag "contains",.str "Content-Type",.str "multipart/"]) :=
    .of_piece (Piece.of_feed rfl) fun _ he => absurd he List.not_mem_nil
  have hmatch : m.headerMatches r "contains" "Content-Type" "multipart/" = body.isMultipart :=
    Bool.eq_iff_iff.mpr (headerMatches_contains.trans hreg.symm)
  have heval : evalCondition env ctx cond = ctx.hasAttachments := by
    simp only [evalCondition,hfield]
  rw [sameVerdict_test htext hwritten (congrArg some hmatch),heval]

theorem reply_iff (hfield : cond.field = "is_reply")
    (habsent : m.values "In-Reply-To" = [] → ctx.isReply = false) :
    SameVerdict env r m ctx cond ↔ (m.values "In-Reply-To" ≠ [] → ctx.isReply = true) := by
  have htext : conditionToSieve cond = some "exists \"In-Reply-To\"" := by
    simp only [conditionToSieve,hfield]
  have hwritten : WrittenTest [] "exists \"In-Reply-To\"" true (.plain "exists" [.str "In-Reply-To"]) :=
    .of_piece (Piece.of_feed rfl) fun _ he => absurd he List.not_mem_nil
  have heval : evalCondition env ctx cond = ctx.isReply := by
    simp only [evalCondition,hfield]
  have hholds : (Clause.plain "exists" [.str "In-Reply-To"]).holds m r =
      some (!(m.values "In-Reply-To").isEmpty) := rfl
  rw [sameVerdict_test htext hwritten hholds,heval]
  cases hvalues : m.values "In-Reply-To" with
  | nil => exact iff_of_true (habsent hvalues).symm fun hne => absurd rfl hne
  | cons b bs => exact ⟨fun heq _ => heq.symm,fun hreply => (hreply (List.cons_ne_nil b bs)).symm⟩

theorem parseUnsigned_lt {value : String} {n : Nat} (hn : parseUnsigned (2 ^ 64) value = some n) :
    parseUnsigned 4294967296 value = if n < 2 ^ 32 then some n else none := by
  unfold parseUnsigned at hn ⊢
  dsimp only at hn ⊢
  generalize (if value.toList.head? = some '+' then value.toList.tail else value.toList) = digits at hn ⊢
  obtain ⟨⟨hne,hall,-⟩,hvalue⟩ := Option.ite_none_right_eq_some.mp hn
  rw [Option.some.inj hvalue]
  refine if_congr ?_ rfl rfl
  exact ⟨fun hdigits => hdigits.2.2,fun hlt => ⟨hne,hall,hlt⟩⟩

theorem size_iff (hfield : cond.field = "size") (htext : (conditionToSieve cond).isSome = true)
    (hsize : ctx.size = m.size) (hlt : m.size < 2 ^ 32) :
    SameVerdict env r m ctx cond ↔ ∀ n, parseUnsigned (2 ^ 64) cond.value = some n →
      n < 2 ^ 32 ∨ cond.op = "greater_than" ∧ m.size = 0 := by
  have hwrite : conditionToSieve cond = sizeToSieve cond := by
    simp only [conditionToSieve,hfield]
  rw [hwrite,sizeToSieve_isSome,Bool.and_eq_true,decide_eq_true_iff] at htext
  obtain ⟨hparse,hop⟩ := htext
  obtain ⟨n,hn⟩ := Option.isSome_iff_exists.mp hparse
  have hthreshold : sizeThreshold cond.value = if n < 2 ^ 32 then n else 0 := by
    unfold sizeThreshold
    rw [parseUnsigned_lt hn]
    split
    · rfl
    · rfl
  simp only [hn,Option.some.injEq,forall_eq']
  simp only [List.mem_cons,List.not_mem_nil,or_false] at hop
  rcases hop with hop | hop
  · have heval : evalCondition env ctx cond = decide (sizeThreshold cond.value < m.size) := by
      simp only [evalCondition,hfield,hop,hsize]
    have hover : conditionToSieve cond = some ("size :over " ++ toString n) := by
      rw [hwrite]
      simp only [sizeToSieve,hn,hop]
    have hholds : (Clause.plain "size" [.tag "over",.number n]).holds m r = some (decide (n < m.size)) :=
      rfl
    rw [sameVerdict_test hover (written_size "over" n (by decide)) hholds,heval,hthreshold,decide_eq_decide]
    by_cases hn32 : n < 2 ^ 32
    · rw [if_pos hn32]
      exact iff_of_true Iff.rfl (Or.inl hn32)
    · rw [if_neg hn32]
      simp only [hn32,hop,false_or,true_and]
      omega
  · have heval : evalCondition env ctx cond = decide (m.size < sizeThreshold cond.value) := by
      simp only [evalCondition,hfield,hop,hsize]
    have hunder : conditionToSieve cond = some ("size :under " ++ toString n) := by
      rw [hwrite]
      simp only [sizeToSieve,hn,hop]
    have hholds : (Clause.plain "size" [.tag "under",.number n]).holds m r = some (decide (m.size < n)) :=
      rfl
    rw [sameVerdict_test hunder (written_size "under" n (by decide)) hholds,heval,hthreshold,decide_eq_decide]
    by_cases hn32 : n < 2 ^ 32
    · rw [if_pos hn32]
      exact iff_of_true Iff.rfl (Or.inl hn32)
    · rw [if_neg hn32]
      have hne : ¬cond.op = "greater_than" := by
        rw [hop]
        decide
      have hsmall : m.size < n := by omega
      refine iff_of_false (fun hiff => absurd (hiff.mp hsmall) (Nat.not_lt_zero _)) ?_
      rintro (hn32' | ⟨hop',-⟩)
      · exact hn32 hn32'
      · exact hne hop'

/-! ### Every condition -/

theorem textual_of_isSome (hf : fieldToHeader cond.field = some header)
    (htext : (conditionToSieve cond).isSome = true)
    (hop : cond.op ≠ "starts_with" ∧ cond.op ≠ "ends_with") : cond.Textual := by
  rw [conditionToSieve_of_header hf,headerToSieve_isSome,decide_eq_true_iff] at htext
  simp only [List.mem_cons,List.not_mem_nil,or_false,hop.1,hop.2] at htext
  exact htext

theorem field_of_isSome (htext : (conditionToSieve cond).isSome = true) :
    cond.field = "has_attachment" ∨ cond.field = "is_reply" ∨ cond.field = "size" ∨
      cond.field = "from" ∨ cond.field = "to" ∨ cond.field = "cc" ∨ cond.field = "subject" := by
  by_cases hattachment : cond.field = "has_attachment"
  · exact Or.inl hattachment
  by_cases hreply : cond.field = "is_reply"
  · exact Or.inr (Or.inl hreply)
  by_cases hsize : cond.field = "size"
  · exact Or.inr (Or.inr (Or.inl hsize))
  have hheader : (fieldToHeader cond.field).isSome = true := by
    rw [conditionToSieve_header hattachment hreply hsize] at htext
    exact Option.isSome_of_isSome_bind htext
  rw [fieldToHeader_isSome,decide_eq_true_iff] at hheader
  simp only [List.mem_cons,List.not_mem_nil,or_false] at hheader
  exact Or.inr (Or.inr (Or.inr hheader))

/-- The verdict on a header condition. -/
theorem sameVerdict_of_header {stored : String} {fits : Prop} (hf : fieldToHeader cond.field = some header)
    (hop : cond.Textual)
    (heval : evalCondition env ctx cond = stringMatches env stored cond.op cond.value)
    (hfinds : (cond.Finds r m header ↔ cond.FindsStored env.lower stored) ↔ fits) :
    SameVerdict env r m ctx cond ↔ conditionOk cond = true ∧ fits := by
  rw [sameVerdict_textual hf hop heval,conditionOk_of_header hf,hfinds]

end Verdicts

section AnswersFor

variable {env : HeaderEnv} {m : Mail} {fetch : Fetch} {body : BodyStructure} {origin : Origin}
  {h : ImapMessageHeader} (hanswers : AnswersFor env m fetch body) (hheader : env.header fetch origin = some h)

include hanswers hheader

theorem AnswersFor.subject_absent (hvalues : m.values "Subject" = []) : h.subject.getD "" = "" := by
  obtain ⟨uid,-,rfl⟩ := Option.map_eq_some_iff.mp hheader
  dsimp only
  cases he : fetch.envelope with
  | none => rfl
  | some e =>
    rw [Option.bind_some,hanswers.subject e he hvalues]
    rfl

theorem AnswersFor.sender_absent (hvalues : m.values "From" = []) : h.sender = "" := by
  obtain ⟨uid,-,rfl⟩ := Option.map_eq_some_iff.mp hheader
  unfold ImapMessageHeader.sender
  dsimp only
  cases he : fetch.envelope with
  | none => rfl
  | some e =>
    rw [Option.bind_some,hanswers.from_ e he hvalues]
    rfl

theorem AnswersFor.reply_absent (hvalues : m.values "In-Reply-To" = []) : h.inReplyTo = none := by
  obtain ⟨uid,-,rfl⟩ := Option.map_eq_some_iff.mp hheader
  dsimp only
  cases hraw : fetch.header with
  | none => rfl
  | some raw =>
    rw [Option.bind_some]
    cases hp : env.parseThreading raw with
    | none => rfl
    | some p =>
      rw [Option.bind_some,hanswers.inReplyTo raw p hraw hp hvalues]
      rfl

theorem AnswersFor.size_eq : h.size = m.size := by
  obtain ⟨uid,-,rfl⟩ := Option.map_eq_some_iff.mp hheader
  dsimp only
  rw [hanswers.size]
  rfl

theorem AnswersFor.attachments_eq : h.hasAttachments = hasAttachments body := by
  obtain ⟨uid,-,rfl⟩ := Option.map_eq_some_iff.mp hheader
  dsimp only
  rw [hanswers.bodystructure]
  rfl

end AnswersFor

section Rules

variable {env : MatchEnv} {r : Reader} {m : Mail} {ctx : MessageContext} {rule : FilterRule}

/-- A condition with the same verdict is written, and its test says what the program finds. -/
theorem SameVerdict.written {cond : FilterCondition} (h : SameVerdict env r m ctx cond) :
    ∃ text, conditionToSieve cond = some text ∧ conditionOk cond = true ∧
      ∀ t, WrittenTest [] text true t → t.holds m r = some (evalCondition env ctx cond) := by
  obtain ⟨text,t,htext,hread,hholds⟩ := h
  obtain ⟨t',ht'⟩ := written_condition htext
  have hok : conditionOk cond = true := by
    by_contra hok
    have hnone := ht'.readTest
    rw [if_neg hok,hread] at hnone
    exact Option.some_ne_none t hnone
  refine ⟨text,htext,hok,fun u hu => ?_⟩
  have hsame := hu.readTest
  rw [if_pos rfl,hread] at hsame
  rwa [← Option.some.inj hsame]

/-- The test of a rule is that of its conditions, all or any. -/
theorem readTest_group (group : String) {texts : List String} {ts : Tests}
    (hgroup : feed .start (group ++ "(").toList = some (.start,[.ident group,.lparen]))
    (hpiece : Piece ((String.intercalate ", " texts).toList ++ [')']) true ts.tokens) :
    readTest (group ++ "(" ++ String.intercalate ", " texts ++ ")") = some (.group group [] ts) := by
  have hwhole := (Piece.of_feed hgroup).append hpiece
  refine readTest_tokens ?_
  have hread := hwhole [')']
  have hparen : lex .start [')'] = some [.rparen] := rfl
  rw [Bool.true_and,if_pos rfl,hparen] at hread
  simpa [Clause.tokens] using hread

/-- With the same verdicts no condition is left out. -/
theorem writtenConditions_eq (hall : ∀ c ∈ rule.conditions, SameVerdict env r m ctx c) :
    writtenConditions rule = rule.conditions.map (fun c => ((conditionToSieve c).getD "",true)) := by
  have hsome : ∀ c ∈ rule.conditions,
      (conditionToSieve c).map (fun text => (text,conditionOk c)) =
        some ((conditionToSieve c).getD "",true) := by
    intro c hc
    obtain ⟨text,htext,hok,-⟩ := (hall c hc).written
    rw [htext,hok]
    rfl
  unfold writtenConditions
  rw [List.filterMap_congr hsome,List.filterMap_eq_map']

/-- A rule of conditions with the same verdict is matched by its test if and only if it is by the
program. -/
theorem sameVerdict_rule (hne : rule.conditions ≠ [])
    (hall : ∀ c ∈ rule.conditions, SameVerdict env r m ctx c) :
    ∃ t, readTest (ruleTest rule) = some t ∧ t.holds m r = some (rule.isMatch env ctx) := by
  have hconditions := writtenConditions_eq hall
  have hwritten : ∀ p ∈ writtenConditions rule, ∃ t, WrittenTest [] p.1 p.2 t := by
    intro p hp
    obtain ⟨c,-,hc⟩ := List.mem_filterMap.mp hp
    obtain ⟨text,htext,rfl⟩ := Option.map_eq_some_iff.mp hc
    exact written_condition htext
  obtain ⟨ts,hlist,-,hpiece⟩ := written_tests ", " [' '] rfl rfl (writtenConditions rule)
    (by simpa [hconditions] using hne) hwritten
  have hok : (writtenConditions rule).all Prod.snd = true := by simp [hconditions]
  have hlength : (ruleConditions rule).length = rule.conditions.length := by
    rw [← map_writtenConditions,hconditions]
    simp
  rw [map_writtenConditions,hok] at hpiece
  rw [hconditions,List.forall₂_map_left_iff] at hlist
  have hvalues : ts.hold m r = some (rule.conditions.map (evalCondition env ctx)) := by
    refine ts.hold_eq (List.forall₂_map_left_iff.mpr ?_)
    refine ((List.forall₂_and_left _ _).mpr ⟨hall,hlist⟩).imp fun c t ⟨hsame,hwritten⟩ => ?_
    obtain ⟨text,htext,-,hholds⟩ := hsame.written
    rw [htext] at hwritten
    exact hholds t hwritten
  have hallof : (Clause.group "allof" [] ts).holds m r =
      some (rule.conditions.all (evalCondition env ctx)) := by
    simp [Clause.holds, hvalues]
  have hanyof : (Clause.group "anyof" [] ts).holds m r =
      some (rule.conditions.any (evalCondition env ctx)) := by
    simp [Clause.holds, hvalues]
  have hempty : ¬rule.conditions.isEmpty = true := fun h => hne (List.isEmpty_iff.mp h)
  have htext : ∀ group, group = "allof" ∨ group = "anyof" →
      readTest (group ++ "(" ++ String.intercalate ", " (ruleConditions rule) ++ ")") =
        some (.group group [] ts) := by
    rintro group (rfl | rfl)
    · exact readTest_group "allof" rfl hpiece
    · exact readTest_group "anyof" rfl hpiece
  unfold ruleTest FilterRule.isMatch
  rw [if_neg hempty]
  dsimp only
  rw [hlength]
  by_cases hany : rule.matchMode = "any"
  · by_cases hone : rule.conditions.length = 1
    · rw [if_neg (by simp [hone])]
      refine ⟨_,htext "allof" (Or.inl rfl),hallof.trans ?_⟩
      obtain ⟨c,hc⟩ := List.length_eq_one_iff.mp hone
      simp [hc,hany]
    · rw [if_pos ⟨hone,hany⟩]
      refine ⟨_,htext "anyof" (Or.inr rfl),hanyof.trans ?_⟩
      simp [hany]
  · rw [if_neg (by simp [hany])]
    refine ⟨_,htext "allof" (Or.inl rfl),hallof.trans ?_⟩
    split
    · next h => exact absurd h hany
    · rfl

end Rules

/-! ### Samples -/

def asciiMatch : MatchEnv := ⟨fun s => String.ofList (s.toList.map Char.toLower),fun _ => none⟩

/-- Lower-casing the ASCII letters alone is such a lower-casing of any two texts. -/
theorem sameCase_asciiMatch (s v : String) : SameCase asciiMatch.lower s v :=
  ⟨Char.toLower,rfl,rfl,fun _ _ _ _ => Sieve.toLower_eq_toLower_iff⟩

/-- Nothing is encoded, and there is no threading header. -/
def plainHeaders : HeaderEnv where
  base64 := fun _ => none
  utf8Lossy := latin1
  lower := asciiMatch.lower
  parseDateEpoch := fun _ => 0
  parseThreading := fun _ => some ⟨none,none,none,none⟩

/-- A reader of plain texts with one address, in angle brackets. -/
def plainReader : Reader where
  text := id
  addresses := fun v => [((v.dropWhile (· ≠ 60)).drop 1).takeWhile (· ≠ 62)]

/-- A short message of Ann Smith. -/
def smithMail : Mail := ⟨[("From",octets "Ann Smith <ann@x>"),("Subject",octets "Hello")],120⟩

def smithFetch : Fetch where
  uid := some 7
  envelope := some ⟨none,some (octets "Hello"),
    some [⟨some (octets "Ann Smith"),some (octets "ann"),some (octets "x")⟩],none,none⟩
  header := some []
  flags := []
  bodystructure := some (.text none)
  size := some 120
  internalDate := none

def smithHeader : ImapMessageHeader where
  uid := 7
  subject := some "Hello"
  from_ := [⟨some "Ann Smith","ann@x"⟩]
  to_ := []
  date := none
  dateEpoch := 0
  flags := []
  hasAttachments := false
  size := 120
  messageId := none
  inReplyTo := none
  references := none
  cc := []
  reaction := none
  origin := ⟨1,7⟩

theorem header_smithFetch : plainHeaders.header smithFetch ⟨1,7⟩ = some smithHeader := by decide

theorem answers_smithFetch : AnswersFor plainHeaders smithMail smithFetch (.text none) where
  subject := fun _ _ h => absurd h (by decide)
  from_ := fun _ _ h => absurd h (by decide)
  inReplyTo := by
    rintro raw p - hp -
    rw [← Option.some.inj hp]
  bodystructure := rfl
  size := rfl
  size_lt := by decide

def fromAnn : FilterCondition := ⟨"from","contains","ANN@x"⟩

def fromSmith : FilterCondition := ⟨"from","contains","Smith"⟩

end Rav
