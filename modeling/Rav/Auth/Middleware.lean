import Rav.Replace
import Rav.Auth.SessionRuns

/-!
# `auth::middleware`, `auth::csrf`

What a request is let through on: the browser's cookie, the account it names in a header or in the
query, and the account's own cookie, which together have to stand for a session of the store. The names
of headers are in lower case. Cookies are text between semicolons; a header that is not visible ASCII is
passed over.

## Main definitions

- `HttpRequest` — what is read of a request
- `extractCookieValue`, `extractActiveAccountHeader`, `extractActiveAccountQuery`
- `urlencodingDecode` — percent-decoding, one character for a byte
- `authGuard`, `csrfProtection` — the two guards
-/

namespace Rav

inductive HttpMethod
  | get
  | head
  | options
  | post
  | put
  | delete
  | patch
  | other (name : String)
  deriving DecidableEq, Repr

/-- The method, the headers in order and the query of a request. -/
structure HttpRequest where
  method : HttpMethod
  headers : List (String × List UInt8)
  query : Option String

def browserCookieName : String := "rav_browser"

def activeAccountHeader : String := "x-active-account"

/-- `HeaderValue::to_str`. -/
def headerToStr (value : List UInt8) : Option (List Char) :=
  if value.all (fun b => (32 ≤ b && b < 127) || b = 9) then
    some (value.map (fun b => Char.ofNat b.toNat))
  else none

/-- `str::strip_prefix`. -/
def stripPrefix (p s : List Char) : Option (List Char) :=
  if p.isPrefixOf s then some (s.drop p.length) else none

namespace HttpRequest

variable (req : HttpRequest)

/-- `HeaderMap::get_all`. -/
def getAll (name : String) : List (List UInt8) :=
  (req.headers.filter (fun h => h.1 = name)).map Prod.snd

/-- `HeaderMap::contains_key`. -/
def containsKey (name : String) : Bool := req.headers.any (fun h => h.1 = name)

end HttpRequest

/-- The nonempty value that a segment of a cookie header has for a name. -/
def segmentValue (cookieName segment : List Char) : Option (List Char) :=
  match stripPrefix (cookieName ++ ['=']) (trimText segment) with
  | none => none
  | some cookieValue =>
    let cookieValue := trimText cookieValue
    if cookieValue = [] then none else some cookieValue

/-- The value of a cookie: the first that is not empty. -/
def extractCookieValue (req : HttpRequest) (cookieName : String) : Option String :=
  ((req.getAll "cookie").findSome? fun value =>
    match headerToStr value with
    | none => none
    | some headerStr => (splitAll [';'] headerStr).findSome? (segmentValue cookieName.toList)).map
      String.ofList

def sessionCookieName (accountId : AccountId) : String := "rav_session_" ++ accountId

def extractSessionCookie (req : HttpRequest) (accountId : AccountId) : Option SessionId :=
  extractCookieValue req (sessionCookieName accountId)

def extractActiveAccountHeader (req : HttpRequest) : Option AccountId :=
  match (req.getAll activeAccountHeader).head?.bind headerToStr with
  | none => none
  | some s => if trimText s = [] then none else some (String.ofList (trimText s))

/-- A hexadecimal digit. -/
def hexDigitOf (c : Char) : Option Nat :=
  if c.isDigit then some (c.toNat - 48)
  else if 97 ≤ c.toNat ∧ c.toNat ≤ 102 then some (c.toNat - 87)
  else if 65 ≤ c.toNat ∧ c.toNat ≤ 70 then some (c.toNat - 55)
  else none

/-- `u8::from_str_radix(_, 16)` of at most two characters, the first of which may be a sign. -/
def byteFromHex : List Char → Option Nat
  | [c] => hexDigitOf c
  | [c,d] =>
    if c = '+' then hexDigitOf d
    else do
      let m ← hexDigitOf c
      let n ← hexDigitOf d
      return 16 * m + n
  | _ => none

/-- Percent-decoding: a byte becomes the character of its number, and what is no byte is kept. -/
def urlencodingDecode : List Char → List Char
  | [] => []
  | '%' :: c :: d :: rest =>
    match byteFromHex [c,d] with
    | some byte => Char.ofNat byte :: urlencodingDecode rest
    | none => '%' :: c :: d :: urlencodingDecode rest
  | ['%',c] =>
    match byteFromHex [c] with
    | some byte => [Char.ofNat byte]
    | none => ['%',c]
  | ['%'] => ['%']
  | '+' :: rest => ' ' :: urlencodingDecode rest
  | c :: rest => c :: urlencodingDecode rest

/-- The first nonempty `account_id` of the query. -/
def extractActiveAccountQuery (req : HttpRequest) : Option AccountId :=
  match req.query with
  | none => none
  | some query =>
    (splitAll ['&'] query.toList).findSome? fun pair =>
      match stripPrefix "account_id=".toList pair with
      | none => none
      | some value =>
        let decoded := urlencodingDecode value
        if decoded = [] then none else some (String.ofList decoded)

def extractActiveAccount (req : HttpRequest) : Option AccountId :=
  (extractActiveAccountHeader req).or (extractActiveAccountQuery req)

/-- Where a request goes: back with an error, or on to its handler. -/
inductive Guarded
  | unauthorized
  | accountExpired (accountId : AccountId)
  | csrfRejected
  | next (session : AccountSession)

/-- The guard of the routes that need a session. -/
def authGuard (store : SessionStore) (req : HttpRequest) (now : Nat) : Guarded × SessionStore :=
  match extractCookieValue req browserCookieName with
  | none => (.unauthorized,store)
  | some browserId =>
    match extractActiveAccount req with
    | none => (.unauthorized,store)
    | some accountId =>
      match extractSessionCookie req accountId with
      | none => (.accountExpired accountId,store)
      | some token =>
        match store.getAccountSession browserId accountId token now with
        | (none,store) => (.accountExpired accountId,store)
        | (some session,store) => (.next session,store)

def stateChangingMethods : List HttpMethod := [.post,.put,.delete,.patch]

/-- Whether a request passes the check of its method and its `X-Requested-With` header. -/
def csrfProtection (req : HttpRequest) : Bool :=
  !(stateChangingMethods.contains req.method && !req.containsKey "x-requested-with")

/-- The two layers of the protected routes, the check of the header first. -/
def protectedRoute (store : SessionStore) (req : HttpRequest) (now : Nat) : Guarded × SessionStore :=
  if csrfProtection req then authGuard store req now else (.csrfRejected,store)

/-! ### The cookies of a browser -/

/-- What a browser sends of the cookies it keeps. -/
def cookieHeader (jar : List (String × String)) : List Char :=
  "; ".toList.intercalate (jar.map (fun c => c.1.toList ++ '=' :: c.2.toList))

/-- A character that may stand in a cookie: visible, and no semicolon. -/
def CookieChar (c : Char) : Prop := 33 ≤ c.toNat ∧ c.toNat < 127 ∧ c ≠ ';'

instance (c : Char) : Decidable (CookieChar c) := inferInstanceAs (Decidable (_ ∧ _))

/-- A cookie as a browser keeps it: no equals sign in its name. -/
structure ProperCookie (c : String × String) : Prop where
  name : ∀ ch ∈ c.1.toList, CookieChar ch ∧ ch ≠ '='
  value : ∀ ch ∈ c.2.toList, CookieChar ch

/-- The first value that is not empty. -/
def cookieOf (jar : List (String × String)) (name : String) : Option String :=
  (jar.find? (fun c => c.1 = name ∧ c.2 ≠ "")).map Prod.snd

theorem CookieChar.not_whitespace {c : Char} (h : CookieChar c) : isWhitespace c = false := by
  obtain ⟨hlow, hhigh, -⟩ := h
  simp only [isWhitespace, Bool.or_eq_false_iff, Bool.and_eq_false_iff, decide_eq_false_iff_not]
  omega

theorem trimText_of_forall {s : List Char} (h : ∀ c ∈ s, isWhitespace c = false) : trimText s = s := by
  cases s with
  | nil => rfl
  | cons c s =>
    rw [trimText_cons (h c List.mem_cons_self), List.rdropWhile_eq_self_iff.mpr]
    intro hne
    rw [h _ (List.mem_cons_of_mem _ (List.getLast_mem hne))]
    exact Bool.false_ne_true

/-- A blank in front is trimmed. -/
theorem segmentValue_blank (name segment : List Char) :
    segmentValue name (' ' :: segment) = segmentValue name segment := by
  have htrim : trimText (' ' :: segment) = trimText segment := by
    rw [trimText, List.dropWhile_cons_of_pos (by decide)]
    rfl
  rw [segmentValue, segmentValue, htrim]

theorem stripPrefix_cookie {name m v : List Char} (hname : '=' ∉ name) (hm : '=' ∉ m) :
    stripPrefix (name ++ ['=']) (m ++ '=' :: v) = if m = name then some v else none := by
  rw [stripPrefix]
  by_cases heq : m = name
  · subst heq
    have hsplit : m ++ '=' :: v = (m ++ ['=']) ++ v := by rw [List.append_assoc]; rfl
    rw [if_pos rfl, hsplit, if_pos (List.isPrefixOf_iff_prefix.mpr (List.prefix_append _ _)), List.drop_left]
  · rw [if_neg heq, if_neg]
    intro hprefix
    obtain ⟨rest, hrest⟩ := List.isPrefixOf_iff_prefix.mp hprefix
    rw [List.append_assoc, List.singleton_append] at hrest
    have hfirst := splitOnce_char hname rest
    rw [hrest, splitOnce_char hm v] at hfirst
    exact heq (Prod.mk.inj (Option.some.inj hfirst)).1

/-- A segment that is written for a cookie is read as it. -/
theorem segmentValue_cookie {c : String × String} (hc : ProperCookie c) {name : String}
    (hname : '=' ∉ name.toList) : (segmentValue name.toList (c.1.toList ++ '=' :: c.2.toList)).map String.ofList =
      if c.1 = name ∧ c.2 ≠ "" then some c.2 else none := by
  have hblank : ∀ ch ∈ c.1.toList ++ '=' :: c.2.toList, isWhitespace ch = false := by
    intro ch hch
    obtain hch | hch := List.mem_append.mp hch
    · exact (hc.name ch hch).1.not_whitespace
    obtain rfl | hch := List.mem_cons.mp hch
    · rfl
    · exact (hc.value ch hch).not_whitespace
  have hvalue : trimText c.2.toList = c.2.toList :=
    trimText_of_forall (fun ch hch => (hc.value ch hch).not_whitespace)
  have hm : '=' ∉ c.1.toList := fun hmem => (hc.name _ hmem).2 rfl
  rw [segmentValue, trimText_of_forall hblank, stripPrefix_cookie hname hm]
  by_cases heq : c.1 = name
  · rw [if_pos (congrArg String.toList heq)]
    dsimp only
    rw [hvalue]
    by_cases hempty : c.2 = ""
    · rw [if_pos (by rw [hempty]; rfl), if_neg (fun h => h.2 hempty)]
      rfl
    · have hne : c.2.toList ≠ [] := fun h => hempty (String.toList_inj.mp h)
      rw [if_neg hne, if_pos ⟨heq, hempty⟩, Option.map_some, String.ofList_toList]
  · rw [if_neg (fun h => heq (String.toList_inj.mp h)), if_neg (fun h => heq h.1)]
    rfl

/-- Blanks behind the semicolons belong to the segments. -/
theorem intercalate_blank (p : List Char) (l : List (List Char)) :
    "; ".toList.intercalate (p :: l) = [';'].intercalate (p :: l.map (' ' :: ·)) := by
  induction l generalizing p with
  | nil => rw [List.map_nil, List.intercalate_singleton, List.intercalate_singleton]
  | cons q l ih =>
    have htail : "; ".toList.intercalate (q :: l) = [';'].intercalate (q :: l.map (' ' :: ·)) := ih q
    have hblank : [';'].intercalate ((' ' :: q) :: l.map (' ' :: ·)) =
        ' ' :: [';'].intercalate (q :: l.map (' ' :: ·)) := by
      cases l with
      | nil => rw [List.map_nil, List.intercalate_singleton, List.intercalate_singleton]
      | cons r l =>
        rw [List.map_cons, intercalate_cons (List.cons_ne_nil _ _), intercalate_cons (List.cons_ne_nil _ _),
          List.cons_append]
    rw [List.map_cons, intercalate_cons (List.cons_ne_nil _ _), intercalate_cons (List.cons_ne_nil _ _),
      hblank, htail]
    rfl

theorem findSome?_map_some {α β γ : Type*} (f : α → Option β) (g : β → γ) (l : List α) :
    (l.findSome? f).map g = l.findSome? (fun a => (f a).map g) := by
  induction l with
  | nil => rfl
  | cons a l ih =>
    rw [List.findSome?_cons, List.findSome?_cons]
    cases f a with
    | none => exact ih
    | some b => rfl

/-- What a browser sends of its cookies, the server finds in it. -/
theorem findSome?_cookieHeader {jar : List (String × String)} (hjar : ∀ c ∈ jar, ProperCookie c)
    {name : String} (hname : '=' ∉ name.toList) :
    ((splitAll [';'] (cookieHeader jar)).findSome? (segmentValue name.toList)).map String.ofList =
      cookieOf jar name := by
  have hread : ∀ l : List (String × String), (∀ c ∈ l, ProperCookie c) →
      (l.map (fun c => ' ' :: (c.1.toList ++ '=' :: c.2.toList))).findSome?
          (fun s => (segmentValue name.toList s).map String.ofList) = cookieOf l name := by
    intro l hl
    induction l with
    | nil => rfl
    | cons c l ih =>
      obtain ⟨hc, hl⟩ := List.forall_mem_cons.mp hl
      rw [List.map_cons, List.findSome?_cons, segmentValue_blank, segmentValue_cookie hc hname, cookieOf,
        List.find?_cons]
      by_cases hmatch : c.1 = name ∧ c.2 ≠ ""
      · rw [if_pos hmatch, decide_eq_true hmatch]
        rfl
      · rw [if_neg hmatch, decide_eq_false hmatch]
        exact ih hl
  cases jar with
  | nil =>
    rw [cookieHeader, List.map_nil, List.intercalate_nil]
    have hsplit : splitAll [';'] [] = [[]] := splitAll_none (by simp)
    have hnone : segmentValue name.toList [] = none := by
      rw [segmentValue, stripPrefix, if_neg]
      simp [trimText]
    rw [hsplit, List.findSome?_cons, hnone]
    rfl
  | cons c jar =>
    obtain ⟨hc, hrest⟩ := List.forall_mem_cons.mp hjar
    have hfree : ∀ c : String × String, ProperCookie c → ';' ∉ c.1.toList ++ '=' :: c.2.toList := by
      intro c hc hmem
      obtain hmem | hmem := List.mem_append.mp hmem
      · exact (hc.name _ hmem).1.2.2 rfl
      obtain hmem | hmem := List.mem_cons.mp hmem
      · exact absurd hmem (by decide)
      · exact (hc.value _ hmem).2.2 rfl
    have hblankfree : ∀ p ∈ (c.1.toList ++ '=' :: c.2.toList) ::
        (jar.map (fun c => c.1.toList ++ '=' :: c.2.toList)).map (' ' :: ·), ';' ∉ p := by
      intro p hp
      obtain rfl | hp := List.mem_cons.mp hp
      · exact hfree c hc
      obtain ⟨q, hq, rfl⟩ := List.mem_map.mp hp
      obtain ⟨d, hd, rfl⟩ := List.mem_map.mp hq
      intro hmem
      obtain hmem | hmem := List.mem_cons.mp hmem
      · exact absurd hmem (by decide)
      · exact hfree d (hrest d hd) hmem
    have hall := hread (c :: jar) hjar
    rw [List.map_cons, List.findSome?_cons, segmentValue_blank] at hall
    rw [cookieHeader, List.map_cons, intercalate_blank, splitAll_intercalate (List.cons_ne_nil _ _) hblankfree,
      findSome?_map_some, List.map_map, List.findSome?_cons]
    exact hall

end Rav
