import Rav.EncodedWords
import Rav.LinkProxy
import Rav.Numerals
import Rav.Routes.MessageDetail

/-!
# `link_proxy`: rewriting links

Which links of a mail are replaced, and what becomes of a link from its attribute to the answer of the
server. Links are found by their text: any quoted `href=` is taken for an attribute, one without quotes is
not found, and a long mail is cut.

## Main definitions

- `shouldProxy`, `findHref`, `LinkEnv.rewriteHtmlLinks` — finding and replacing
- `WebEnv` — what a browser makes of attributes and links
- `LinkEnv.redirect_signed` — what is signed is accepted
- `LinkEnv.follow_rewritten` — when a replaced link leads where the link led
- `HtmlReader` — the `href` attributes of an HTML text, and what stands between them
- `ReadsHrefs` — the quoted `href=` of a text, read from the left
- `LinkEnv.written_inj` — texts with different links are sent differently
- `LinkEnv.respond_html_iff` — when nothing but the links of a mail is replaced
-/

namespace Rav

/-! ### Finding and replacing -/

/-- Only `http` and `https`, in any case, and with white space around them. -/
def shouldProxy (href : List Char) : Bool :=
  let v := (strTrim (String.ofList href)).toList
  if v.isEmpty || v.head? = some '#' then false
  else
    match splitOnce [':'] v with
    | some (scheme, _) =>
      let scheme := toLowercase (String.ofList scheme)
      scheme = "http" || scheme = "https"
    | none => false

/-- An attribute that was found: what stands before it, its quote and its value, and what stands behind the
closing quote. -/
structure HrefPos where
  before : List Char
  quote : Char
  href : List Char
  after : List Char
  deriving DecidableEq, Repr

/-- `href=` at the front, in any case, and a quoted value; the bytes that are compared are ASCII. -/
def hrefAt : List Char → Option HrefPos
  | h :: r :: e :: f :: eq :: q :: rest =>
    if [h, r, e, f].map Char.toLower = "href".toList ∧ eq = '=' ∧ (q = '"' ∨ q = '\'') then
      (splitOnce [q] rest).map fun p => ⟨[], q, p.1, p.2⟩
    else none
  | _ => none

/-- Find the next `href=`. -/
def findHref : List Char → Option HrefPos
  | [] => none
  | c :: s =>
    match hrefAt (c :: s) with
    | some pos => some pos
    | none => (findHref s).map fun pos => { pos with before := c :: pos.before }

namespace LinkEnv

variable (env : LinkEnv)

/-- What a link is replaced by. -/
def proxyLink (secret : List UInt8) (userHash base : List Char) (exp : Int) (raw : List Char) : List Char :=
  base ++ "/api/v1/link?".toList ++ env.signUrl secret raw userHash exp

/-- What the value of an attribute is replaced by. -/
def rewrittenValue (secret : List UInt8) (userHash base : List Char) (exp : Int) (raw : List Char) :
    List Char :=
  if shouldProxy raw then env.proxyLink secret userHash base exp raw else raw

/-- The loop; there are no more links than characters. -/
def rewriteLinks (secret : List UInt8) (userHash base : List Char) (exp : Int) :
    Nat → List Char → List Char
  | 0, rest => rest
  | fuel + 1, rest =>
    match findHref rest with
    | none => rest
    | some pos =>
      pos.before ++ "href=".toList ++ [pos.quote] ++
        env.rewrittenValue secret userHash base exp pos.href ++ [pos.quote] ++
        rewriteLinks secret userHash base exp fuel pos.after

/-- `rewrite_html_links`. -/
def rewriteHtmlLinks (now : Int) (html : List Char) (secret : List UInt8) (userHash base : List Char) :
    List Char :=
  env.rewriteLinks secret userHash base (now + expirySecs) html.length html

end LinkEnv

/-- The base path of a server that started: the router nests below a path only if it begins with a slash. -/
structure BasePath where
  configured : Option (List Char)
  slash : ∀ p ∈ configured, p ≠ [] → p.head? = some '/'

def BasePath.text (base : BasePath) : List Char := base.configured.getD []

theorem BasePath.head_text (base : BasePath) : base.text ≠ [] → base.text.head? = some '/' := by
  obtain ⟨configured, hslash⟩ := base
  cases configured with
  | none => exact fun h => absurd rfl h
  | some p => exact hslash p rfl

/-- How the links of a page are rewritten. -/
def LinkEnv.rewriter (env : LinkEnv) (now : Int) (secret : List UInt8) (userHash : List Char) (base : BasePath)
    (html : String) : String :=
  String.ofList (env.rewriteHtmlLinks now html.toList secret userHash base.text)

/-! ### What is signed is accepted -/

theorem isHexDigit_hexDigit {n : Nat} (hn : n < 16) :
    IsHexDigit (hexDigit n) n ∧ (hexDigit n).utf8Size = 1 := by
  have hall : ∀ n < 16, (n < 10 ∧ (hexDigit n).toNat = n + 48 ∨ 10 ≤ n ∧ n < 16 ∧
      ((hexDigit n).toNat = n + 55 ∨ (hexDigit n).toNat = n + 87)) ∧ (hexDigit n).utf8Size = 1 := by
    decide
  exact hall n hn

theorem parseHexByte_hexDigit (b : UInt8) :
    parseHexByte [hexDigit (b.toNat / 16), hexDigit (b.toNat % 16)] = some b := by
  have hb := b.toNat_lt
  obtain ⟨hascii, hhigh, hplus⟩ :=
    hexValue_of_isHexDigit (isHexDigit_hexDigit (show b.toNat / 16 < 16 by omega)).1
  obtain ⟨hascii', hlow, -⟩ :=
    hexValue_of_isHexDigit (isHexDigit_hexDigit (show b.toNat % 16 < 16 by omega)).1
  rw [parseHexByte, if_pos ⟨hascii, hascii'⟩, hexPair, if_neg hplus, hhigh, hlow]
  dsimp only [Option.bind_some, Option.map_some]
  rw [show 16 * (b.toNat / 16) + b.toNat % 16 = b.toNat by omega, UInt8.ofNat_toNat]

theorem byteLength_encodeHex (bytes : List UInt8) : byteLength (encodeHex bytes) = bytes.length * 2 := by
  induction bytes with
  | nil => rfl
  | cons b bytes ih =>
    have hb := b.toNat_lt
    have hhigh := (isHexDigit_hexDigit (show b.toNat / 16 < 16 by omega)).2
    have hlow := (isHexDigit_hexDigit (show b.toNat % 16 < 16 by omega)).2
    have hcons : encodeHex (b :: bytes) = hexDigit (b.toNat / 16) :: hexDigit (b.toNat % 16) ::
        encodeHex bytes := rfl
    rw [hcons, byteLength_cons, byteLength_cons, ih, hhigh, hlow, List.length_cons]
    omega

theorem hexPairsFrom_encodeHex {p : List Char} {i : Nat} (hp : byteLength p = i * 2) (bytes : List UInt8) :
    hexPairsFrom (p ++ encodeHex bytes) i bytes.length = .ok (.ok bytes) := by
  induction bytes generalizing p i with
  | nil => rfl
  | cons b bytes ih =>
    have hb := b.toNat_lt
    have hhigh := (isHexDigit_hexDigit (show b.toNat / 16 < 16 by omega)).2
    have hlow := (isHexDigit_hexDigit (show b.toNat % 16 < 16 by omega)).2
    have hcons : p ++ encodeHex (b :: bytes) =
        p ++ hexDigit (b.toNat / 16) :: hexDigit (b.toNat % 16) :: encodeHex bytes := rfl
    have hp' : byteLength (p ++ [hexDigit (b.toNat / 16), hexDigit (b.toNat % 16)]) = (i + 1) * 2 := by
      rw [byteLength_append, byteLength_cons, byteLength_cons, hhigh, hlow, hp]
      exact (Nat.succ_mul i 2).symm
    have hrest := ih hp'
    rw [List.append_assoc] at hrest
    rw [hcons, List.length_cons, hexPairsFrom, byteSlice_pair hp, firstBytes_pair _ hhigh hlow,
      Except.bind_ok, parseHexByte_hexDigit]
    dsimp only
    rw [show p ++ hexDigit (b.toNat / 16) :: hexDigit (b.toNat % 16) :: encodeHex bytes =
      p ++ ([hexDigit (b.toNat / 16), hexDigit (b.toNat % 16)] ++ encodeHex bytes) from rfl, hrest]
    rfl

/-- What is encoded is decoded. -/
theorem decodeHex_encodeHex (bytes : List UInt8) : decodeHex (encodeHex bytes) = .ok (.ok bytes) := by
  have hlength := byteLength_encodeHex bytes
  unfold decodeHex
  rw [hlength, if_neg (by omega), Nat.mul_div_cancel bytes.length (by decide)]
  exact hexPairsFrom_encodeHex (p := []) rfl bytes

/-! ### Following a link -/

/-- A character that is the same in a query. -/
def Unreserved (c : Char) : Prop := c.isAlphanum = true ∨ c = '-' ∨ c = '_'

/-- A text without character references: behind every `&` there is the name of a parameter. -/
def PlainAmpersands (s : List Char) : Prop :=
  ∀ before after, s = before ++ '&' :: after →
    ∃ name rest, after = name ++ '=' :: rest ∧ name ≠ [] ∧ ∀ c ∈ name, c.isAlphanum = true

/-- What an attribute stands for, the parameters of a query, what may stand in a header, and the address
that a link is read as. -/
structure WebEnv (Address : Type) where
  entities : List Char → List Char
  query : List Char → Option LinkParams
  headerValue : List Char → Bool
  resolve : List Char → Address

namespace WebEnv

variable {Address : Type} (w : WebEnv Address)

/-- The parameters the server reads when a link is followed. -/
def follow (base link : List Char) : Option LinkParams :=
  if (base ++ "/api/v1/link?".toList).isPrefixOf link then
    w.query (link.drop (base ++ "/api/v1/link?".toList).length)
  else none

/-- A link that is written as it is checked: with its scheme in small letters at the front, of characters
that a header may have, and without character references that change where it leads. -/
def Direct (raw : List Char) : Prop :=
  ("http://".toList <+: raw ∨ "https://".toList <+: raw) ∧ w.headerValue raw = true ∧
    w.resolve raw = w.resolve (w.entities raw)

end WebEnv

section Ampersands

variable {s t : List Char}

theorem PlainAmpersands.append (hs : '&' ∉ s) (ht : PlainAmpersands t) : PlainAmpersands (s ++ t) := by
  intro before after h
  obtain ⟨a, rfl, rfl⟩ | ⟨a, rfl, hafter⟩ := List.append_eq_append_iff.mp h
  · exact ht a after rfl
  · cases a with
    | nil => exact ht [] after hafter.symm
    | cons c a =>
      obtain ⟨rfl, -⟩ := List.cons.inj hafter
      exact absurd (List.mem_append_right before List.mem_cons_self) hs

theorem plainAmpersands_of_not_mem (hs : '&' ∉ s) : PlainAmpersands s := by
  rintro before after rfl
  exact absurd (List.mem_append_right before List.mem_cons_self) hs

/-- One more parameter. -/
theorem PlainAmpersands.param {name : List Char} (hne : name ≠ []) (hname : ∀ c ∈ name, c.isAlphanum = true)
    (ht : PlainAmpersands t) : PlainAmpersands ('&' :: (name ++ ('=' :: t))) := by
  intro before after h
  cases before with
  | nil =>
    obtain rfl := (List.cons.inj h).2
    exact ⟨name, t, rfl, hne, hname⟩
  | cons c before =>
    have hamp : '&' ∉ name ++ ['='] := by
      rw [List.mem_append, not_or]
      exact ⟨fun hmem => absurd (hname _ hmem) (by decide), by decide⟩
    have hrest := PlainAmpersands.append hamp ht
    rw [List.append_assoc] at hrest
    exact hrest before after (List.cons.inj h).2

/-- The digits of a number have no ampersand. -/
theorem amp_not_mem_toString (n : Int) : '&' ∉ (toString n).toList := by
  have hnat : ∀ n : Nat, '&' ∉ (toString n).toList := by
    intro n hmem
    have htext : (toString n).toList = Nat.toDigits 10 n := String.toList_ofList
    rw [htext] at hmem
    exact absurd (Nat.isDigit_of_mem_toDigits (by decide) (by decide) hmem) (by decide)
  cases n with
  | ofNat n => exact hnat n
  | negSucc n =>
    have htext : (toString (Int.negSucc n)).toList = '-' :: (toString (n + 1)).toList :=
      String.toList_append
    rw [htext]
    exact List.not_mem_cons_of_ne_of_not_mem (by decide) (hnat (n + 1))

end Ampersands

namespace LinkEnv

variable {env : LinkEnv} (hbase64 : ∀ bytes, env.unbase64 (env.base64 bytes) = some bytes)
  (halphabet : ∀ bytes, ∀ c ∈ env.base64 bytes, Unreserved c)
  (hmac : ∀ key message, (env.mac key message).length = 32)

include hbase64 in
theorem linkUrl_base64 (url : List Char) : env.linkUrl (env.base64 (utf8 url)) = .ok url := by
  rw [linkUrl, hbase64]
  dsimp only
  rw [fromUtf8_utf8]
  exact congrArg Except.ok String.toList_ofList

include hbase64 hmac in
/-- What is signed is accepted, if it begins with its scheme. -/
theorem verify_signed {now exp : Int} (hlive : now ≤ exp) (secret : List UInt8) (url user : List Char) :
    env.verify now secret (env.base64 (utf8 url)) exp (encodeHex (env.computeMac secret url user exp)) user =
      .ok (if "http://".toList.isPrefixOf url || "https://".toList.isPrefixOf url then .ok url
        else .error "non-http destination") := by
  have hlength : (env.computeMac secret url user exp).length = tagBytes := by
    rw [computeMac, List.length_take, hmac]
    rfl
  have htag : (decide ((env.computeMac secret url user exp).length ≠ tagBytes) ||
      !constEq (env.computeMac secret url user exp) (env.computeMac secret url user exp)) = false := by
    rw [hlength, constEq_iff.mpr rfl]
    rfl
  rw [verify, if_neg (Int.not_lt.mpr hlive), linkUrl_base64 hbase64, decodeHex_encodeHex]
  dsimp only [checkLink, Except.map]
  rw [htag]
  cases "http://".toList.isPrefixOf url
  · cases "https://".toList.isPrefixOf url <;> rfl
  · rfl

variable {Address : Type} {w : WebEnv Address} (hentities : ∀ s, PlainAmpersands s → w.entities s = s)
  (hquery : ∀ u s exp, (∀ c ∈ u, Unreserved c) → (∀ c ∈ s, Unreserved c) → InI64 exp →
    w.query ("u=".toList ++ u ++ "&exp=".toList ++ (toString exp).toList ++ "&s=".toList ++ s) =
      some ⟨u, exp, s⟩)

theorem unreserved_encodeHex (bytes : List UInt8) : ∀ c ∈ encodeHex bytes, Unreserved c := by
  have hdigit : ∀ n < 16, (hexDigit n).isAlphanum = true := by decide
  intro c hc
  obtain ⟨b, -, hc⟩ := List.mem_flatMap.mp hc
  have hb := b.toNat_lt
  rw [List.mem_pair] at hc
  obtain rfl | rfl := hc
  · exact Or.inl (hdigit _ (by omega))
  · exact Or.inl (hdigit _ (by omega))

include halphabet hentities hquery in
/-- The parameters of a link that was replaced are the ones that were signed. -/
theorem follow_proxyLink {base : List Char} (hbase : '&' ∉ base) (secret : List UInt8) (user : List Char)
    {exp : Int} (hexp : InI64 exp) (raw : List Char) :
    w.follow base (w.entities (env.proxyLink secret user base exp raw)) =
      some ⟨env.base64 (utf8 raw), exp, encodeHex (env.computeMac secret raw user exp)⟩ := by
  have hsafe : ∀ {s : List Char}, (∀ c ∈ s, Unreserved c) → '&' ∉ s :=
    fun hs hmem => absurd (hs _ hmem) (by unfold Unreserved; decide)
  have hplain : PlainAmpersands (env.proxyLink secret user base exp raw) := by
    have htag : PlainAmpersands ('&' :: (['s'] ++ '=' :: encodeHex (env.computeMac secret raw user exp))) :=
      .param (List.cons_ne_nil _ _) (by decide) (plainAmpersands_of_not_mem (hsafe (unreserved_encodeHex _)))
    have hexpiry : PlainAmpersands ('&' :: (['e', 'x', 'p'] ++ '=' :: ((toString exp).toList ++
        '&' :: (['s'] ++ '=' :: encodeHex (env.computeMac secret raw user exp))))) :=
      .param (List.cons_ne_nil _ _) (by decide) (htag.append (amp_not_mem_toString exp))
    have hfront : '&' ∉ base ++ "/api/v1/link?".toList ++ ("u=".toList ++ env.base64 (utf8 raw)) := by
      simp only [List.mem_append, not_or]
      exact ⟨⟨hbase, by decide⟩, by decide, hsafe (halphabet _)⟩
    have hall := hexpiry.append hfront
    rw [proxyLink, signUrl]
    simp only [List.append_assoc] at hall ⊢
    exact hall
  rw [hentities _ hplain, WebEnv.follow, proxyLink, if_pos (List.isPrefixOf_iff_prefix.mpr
    (List.prefix_append _ _)), List.drop_left, signUrl]
  exact hquery _ _ _ (halphabet _) (unreserved_encodeHex _) hexp

include hbase64 hmac in
/-- The answer to a link that was signed. -/
theorem redirect_signed (headerValue : List Char → Bool) {now exp : Int} (hlive : now ≤ exp)
    (secret : List UInt8) (url user : List Char) :
    env.redirect headerValue now (some secret) user
      ⟨env.base64 (utf8 url), exp, encodeHex (env.computeMac secret url user exp)⟩ =
        .ok (if "http://".toList.isPrefixOf url || "https://".toList.isPrefixOf url then
          .found (if headerValue url then some url else none)
        else .badRequest "Link invalid or expired: non-http destination") := by
  rw [redirect]
  dsimp only
  rw [verify_signed hbase64 hmac hlive]
  split <;> rfl

include hbase64 halphabet hmac hentities hquery in
/-- A replaced link leads to where the link led, for the user and until it expires, if and only if the link
is written as it is checked. -/
theorem follow_rewritten {base : List Char} (hbase : '&' ∉ base) (secret : List UInt8) (user : List Char)
    {exp now : Int} (hexp : InI64 exp) (hlive : now ≤ exp) {raw : List Char} (hproxy : shouldProxy raw = true) :
    (∃ params location,
      w.follow base (w.entities (env.rewrittenValue secret user base exp raw)) = some params ∧
        env.redirect w.headerValue now (some secret) user params = .ok (.found (some location)) ∧
          w.resolve location = w.resolve (w.entities raw)) ↔ w.Direct raw := by
  have hredirect := redirect_signed hbase64 hmac w.headerValue hlive secret raw user
  rw [rewrittenValue, if_pos hproxy, follow_proxyLink halphabet hentities hquery hbase secret user hexp raw]
  unfold WebEnv.Direct
  rw [← List.isPrefixOf_iff_prefix, ← List.isPrefixOf_iff_prefix, ← Bool.or_eq_true]
  constructor
  · rintro ⟨params, location, hparams, hfound, hresolve⟩
    obtain rfl := Option.some.inj hparams
    rw [hredirect] at hfound
    replace hfound := Except.ok.inj hfound
    split at hfound
    · next hscheme =>
      replace hfound := LinkResponse.found.inj hfound
      split at hfound
      · next hheader =>
        obtain rfl := Option.some.inj hfound
        exact ⟨hscheme, hheader, hresolve⟩
      · exact absurd hfound.symm (Option.some_ne_none location)
    · cases hfound
  · rintro ⟨hscheme, hheader, hresolve⟩
    refine ⟨_, raw, rfl, ?_, hresolve⟩
    rw [hredirect, if_pos hscheme, if_pos hheader]

end LinkEnv

/-! ### Which links are replaced -/

/-- A part of an HTML text: one that is kept, or the value of an `href` attribute of an element, as it is
written. -/
inductive HtmlPart
  | text (s : List Char)
  | href (value : List Char)
  deriving DecidableEq, Repr

def HtmlPart.chars : HtmlPart → List Char
  | .text s => s
  | .href value => value

/-- A reader of HTML: it knows the attributes of the elements, and leaves nothing out. -/
structure HtmlReader where
  parts : List Char → List HtmlPart
  whole : ∀ html, (parts html).flatMap HtmlPart.chars = html

/-- What an HTML text should become: nothing but the values of its links is replaced. -/
def LinkEnv.rewritten (env : LinkEnv) (reader : HtmlReader) (secret : List UInt8) (userHash base : List Char)
    (exp : Int) (html : List Char) : List Char :=
  (reader.parts html).flatMap fun
    | .text s => s
    | .href value => env.rewrittenValue secret userHash base exp value

/-- A text with its links: a character, or an address that is replaced as a whole. -/
inductive LinkToken
  | char (c : Char)
  | link (raw : List Char) (hproxy : shouldProxy raw = true)
  deriving DecidableEq

def LinkToken.chars : LinkToken → List Char
  | .char c => [c]
  | .link raw _ => raw

/-- The value of an attribute is a link, or only characters. -/
def valueTokens (value : List Char) : List LinkToken :=
  if hproxy : shouldProxy value = true then [.link value hproxy] else value.map .char

def HtmlPart.tokens : HtmlPart → List LinkToken
  | .text s => s.map .char
  | .href value => valueTokens value

/-- `href=` in any case and a quoted value behind it, wherever they stand. -/
structure QuotedHref where
  before : List Char
  name : List Char
  quote : Char
  value : List Char
  name_href : name.map Char.toLower = "href=".toList
  quote_mem : quote = '"' ∨ quote = '\''
  quote_not_mem : quote ∉ value

namespace QuotedHref

def chars (f : QuotedHref) : List Char := f.before ++ (f.name ++ f.quote :: (f.value ++ [f.quote]))

def tokens (f : QuotedHref) : List LinkToken :=
  (f.before ++ f.name ++ [f.quote]).map .char ++ valueTokens f.value ++ [.char f.quote]

/-- The same one with its name in small letters. -/
def small (f : QuotedHref) : QuotedHref := { f with name := "href=".toList, name_href := rfl }

/-- What is found, with the rest behind it. -/
def pos (f : QuotedHref) (after : List Char) : HrefPos := ⟨f.before, f.quote, f.value, after⟩

/-- No other one begins earlier. -/
def First (f : QuotedHref) (s : List Char) : Prop :=
  ∀ (g : QuotedHref) (after : List Char), s = g.chars ++ after → f.before.length ≤ g.before.length

end QuotedHref

/-- A text is read from the left: one quoted `href=` after the other, and a rest without any. -/
inductive ReadsHrefs : List Char → List QuotedHref → List Char → Prop
  | done {s : List Char} (hnone : ∀ (f : QuotedHref) (after : List Char), s ≠ f.chars ++ after) :
    ReadsHrefs s [] s
  | find {after rest : List Char} {fs : List QuotedHref} (f : QuotedHref)
    (hfirst : f.First (f.chars ++ after)) (hrest : ReadsHrefs after fs rest) :
    ReadsHrefs (f.chars ++ after) (f :: fs) rest

section Finding

variable {s after rest : List Char} {pos : HrefPos} {f g : QuotedHref}

theorem QuotedHref.length_name (f : QuotedHref) : f.name.length = 5 := by
  have h := congrArg List.length f.name_href
  rwa [List.length_map] at h

/-- A name of five characters, the last of which is the equals sign itself. -/
theorem QuotedHref.name_eq (f : QuotedHref) : ∃ h r e f' : Char, f.name = [h, r, e, f', '='] ∧
    [h, r, e, f'].map Char.toLower = "href".toList := by
  have hlower : f.name.map Char.toLower = ['h', 'r', 'e', 'f', '='] := f.name_href
  obtain ⟨h, l, hname, hh, hlower⟩ := List.map_eq_cons_iff.mp hlower
  obtain ⟨r, l, rfl, hr, hlower⟩ := List.map_eq_cons_iff.mp hlower
  obtain ⟨e, l, rfl, he, hlower⟩ := List.map_eq_cons_iff.mp hlower
  obtain ⟨f', l, rfl, hf, hlower⟩ := List.map_eq_cons_iff.mp hlower
  obtain ⟨eq, l, rfl, hsign, hlower⟩ := List.map_eq_cons_iff.mp hlower
  obtain rfl := List.map_eq_nil_iff.mp hlower
  have heq : eq = '=' := by
    have h := Sieve.toNat_toLower eq
    rw [hsign] at h
    rw [← Char.toNat_inj]
    have hcode : '='.toNat = 61 := rfl
    split at h <;> omega
  refine ⟨h, r, e, f', by rw [hname, heq], ?_⟩
  rw [List.map_cons, List.map_cons, List.map_cons, List.map_cons, hh, hr, he, hf]
  rfl

theorem hrefAt_chars (hbefore : f.before = []) (after : List Char) :
    hrefAt (f.chars ++ after) = some (f.pos after) := by
  obtain ⟨h, r, e, f', hname, hlower⟩ := f.name_eq
  have hvalue := splitOnce_char f.quote_not_mem after
  have hchars : f.chars ++ after = h :: r :: e :: f' :: '=' :: f.quote :: (f.value ++ f.quote :: after) := by
    rw [QuotedHref.chars, hbefore, hname]
    simp only [List.nil_append, List.cons_append, List.append_assoc]
  rw [hchars, hrefAt, if_pos ⟨hlower, rfl, f.quote_mem⟩, hvalue, QuotedHref.pos, hbefore]
  rfl

theorem hrefAt_eq_some (h : hrefAt s = some pos) :
    ∃ (f : QuotedHref) (after : List Char), f.before = [] ∧ s = f.chars ++ after ∧ pos = f.pos after := by
  unfold hrefAt at h
  split at h
  · next c r e f eq q rest =>
    split at h
    · next hname =>
      obtain ⟨hname, rfl, hquote⟩ := hname
      obtain ⟨⟨value, after⟩, hvalue, rfl⟩ := Option.map_eq_some_iff.mp h
      obtain ⟨rfl, hfirst⟩ := splitOnce_eq_some (List.cons_ne_nil q []) hvalue
      have hlower : [c, r, e, f, '='].map Char.toLower = "href=".toList := by
        rw [show [c, r, e, f, '='] = [c, r, e, f] ++ ['='] from rfl, List.map_append, hname]
        rfl
      refine ⟨⟨[], [c, r, e, f, '='], q, value, hlower, hquote, fun hmem => ?_⟩, after, rfl, ?_, rfl⟩
      · obtain ⟨l, m, rfl⟩ := List.append_of_mem hmem
        exact hfirst ⟨l, m, by simp⟩
      · simp [QuotedHref.chars]
    · exact absurd h (Option.some_ne_none _).symm
  · exact absurd h (Option.some_ne_none _).symm

/-- What stands behind the first character. -/
theorem QuotedHref.tail {c : Char} (h : c :: s = g.chars ++ after) (hne : g.before ≠ []) :
    ∃ g' : QuotedHref, s = g'.chars ++ after ∧ g.before.length = g'.before.length + 1 := by
  obtain ⟨before, name, quote, value, hname, hquote, hvalue⟩ := g
  obtain ⟨d, before, rfl⟩ := List.exists_cons_of_ne_nil hne
  exact ⟨⟨before, name, quote, value, hname, hquote, hvalue⟩, (List.cons.inj h).2, rfl⟩

theorem findHref_eq_none (h : findHref s = none) (f : QuotedHref) (after : List Char) : s ≠ f.chars ++ after := by
  induction s generalizing f with
  | nil =>
    intro heq
    have hlength := congrArg List.length heq
    rw [List.length_nil, QuotedHref.chars, List.length_append, List.length_append, List.length_append,
      f.length_name] at hlength
    omega
  | cons c s ih =>
    intro heq
    rw [findHref] at h
    by_cases hbefore : f.before = []
    · rw [heq, hrefAt_chars hbefore] at h
      exact absurd h (Option.some_ne_none _)
    · cases hat : hrefAt (c :: s) with
      | some p => rw [hat] at h; exact absurd h (Option.some_ne_none _)
      | none =>
        rw [hat] at h
        obtain ⟨f', htail, -⟩ := QuotedHref.tail heq hbefore
        exact ih (Option.map_eq_none_iff.mp h) f' htail

theorem findHref_eq_some (h : findHref s = some pos) :
    ∃ (f : QuotedHref) (after : List Char), s = f.chars ++ after ∧ pos = f.pos after ∧ f.First s := by
  induction s generalizing pos with
  | nil => exact absurd h (Option.some_ne_none _).symm
  | cons c s ih =>
    rw [findHref] at h
    cases hat : hrefAt (c :: s) with
    | some p =>
      rw [hat] at h
      obtain rfl := Option.some.inj h
      obtain ⟨f, after, hbefore, hs, hpos⟩ := hrefAt_eq_some hat
      refine ⟨f, after, hs, hpos, fun g rest _ => ?_⟩
      rw [hbefore]
      exact Nat.zero_le _
    | none =>
      rw [hat] at h
      obtain ⟨p, hfind, rfl⟩ := Option.map_eq_some_iff.mp h
      obtain ⟨f, after, rfl, rfl, hfirst⟩ := ih hfind
      refine ⟨{ f with before := c :: f.before }, after, rfl, rfl, fun g rest heq => ?_⟩
      by_cases hbefore : g.before = []
      · rw [heq, hrefAt_chars hbefore] at hat
        exact absurd hat (Option.some_ne_none _)
      · obtain ⟨g', htail, hlength⟩ := QuotedHref.tail heq hbefore
        have hle := hfirst g' rest htail
        rw [List.length_cons]
        omega

/-- Where one begins, only one begins. -/
theorem QuotedHref.chars_inj {a b : List Char} (h : f.chars ++ a = g.chars ++ b)
    (hlength : f.before.length = g.before.length) : f = g ∧ a = b := by
  obtain ⟨before, name, quote, value, hname, hquote, hvalue⟩ := f
  obtain ⟨before', name', quote', value', hname', hquote', hvalue'⟩ := g
  unfold QuotedHref.chars at h
  dsimp only at h hlength
  simp only [List.append_assoc, List.cons_append, List.nil_append] at h
  obtain ⟨rfl, hnames⟩ := List.append_inj h hlength
  have hfive : name.length = name'.length := by
    rw [← List.length_map Char.toLower, hname, ← hname', List.length_map]
  obtain ⟨rfl, hquotes⟩ := List.append_inj hnames hfive
  obtain ⟨rfl, htail⟩ := List.cons.inj hquotes
  have hcut := splitOnce_char hvalue a
  have hvalues := (hcut.symm.trans (congrArg (splitOnce [quote]) htail)).trans (splitOnce_char hvalue' b)
  obtain ⟨rfl, rfl⟩ := Prod.mk.inj (Option.some.inj hvalues)
  exact ⟨rfl, rfl⟩

/-- The first one is found. -/
theorem findHref_chars (hfirst : f.First (f.chars ++ after)) :
    findHref (f.chars ++ after) = some (f.pos after) := by
  cases hfind : findHref (f.chars ++ after) with
  | none => exact absurd rfl (findHref_eq_none hfind f after)
  | some p =>
    obtain ⟨g, rest, heq, rfl, hg⟩ := findHref_eq_some hfind
    obtain ⟨rfl, rfl⟩ := QuotedHref.chars_inj heq (Nat.le_antisymm (hfirst g rest heq) (hg f after rfl))
    rfl

theorem QuotedHref.length_lt (f : QuotedHref) (after : List Char) : after.length < (f.chars ++ after).length := by
  rw [List.length_append, QuotedHref.chars, List.length_append, List.length_append, f.length_name]
  omega

/-- Every text is read. -/
theorem exists_readsHrefs (s : List Char) : ∃ fs rest, ReadsHrefs s fs rest := by
  induction hn : s.length using Nat.strongRecOn generalizing s with
  | ind n ih =>
    cases hfind : findHref s with
    | none => exact ⟨[], s, .done (findHref_eq_none hfind)⟩
    | some p =>
      obtain ⟨f, after, rfl, -, hfirst⟩ := findHref_eq_some hfind
      obtain ⟨fs, rest, hrest⟩ := ih after.length (hn ▸ f.length_lt after) after rfl
      exact ⟨f :: fs, rest, .find f hfirst hrest⟩

theorem ReadsHrefs.chars_eq {fs : List QuotedHref} (h : ReadsHrefs s fs rest) :
    fs.flatMap QuotedHref.chars ++ rest = s := by
  induction h with
  | done hnone => rfl
  | find f hfirst hrest ih => rw [List.flatMap_cons, List.append_assoc, ih]

end Finding

theorem chars_map_char (s : List Char) : (s.map LinkToken.char).flatMap LinkToken.chars = s := by
  rw [List.flatMap_map]
  exact List.flatMap_singleton' s

theorem chars_valueTokens (value : List Char) : (valueTokens value).flatMap LinkToken.chars = value := by
  unfold valueTokens
  split
  · exact List.flatMap_singleton _ _
  · exact chars_map_char value

theorem QuotedHref.chars_tokens (f : QuotedHref) : f.tokens.flatMap LinkToken.chars = f.chars := by
  rw [QuotedHref.tokens, List.flatMap_append, List.flatMap_append, chars_map_char, chars_valueTokens,
    QuotedHref.chars]
  simp only [List.flatMap_singleton, LinkToken.chars, List.append_assoc, List.cons_append, List.nil_append]

theorem HtmlReader.chars_tokens (reader : HtmlReader) (html : List Char) :
    ((reader.parts html).flatMap HtmlPart.tokens).flatMap LinkToken.chars = html := by
  have hpart : ∀ part : HtmlPart, part.tokens.flatMap LinkToken.chars = part.chars := by
    intro part
    cases part with
    | text s => exact chars_map_char s
    | href value => exact chars_valueTokens value
  rw [List.flatMap_assoc]
  simp only [hpart]
  exact reader.whole html

namespace LinkEnv

section Writing

variable (env : LinkEnv) (secret : List UInt8) (userHash base : List Char) (exp : Int)

/-- What is sent for a token. -/
def written : LinkToken → List Char
  | .char c => [c]
  | .link raw _ => env.proxyLink secret userHash base exp raw

theorem written_map_char (s : List Char) :
    (s.map LinkToken.char).flatMap (env.written secret userHash base exp) = s := by
  rw [List.flatMap_map]
  exact List.flatMap_singleton' s

theorem written_valueTokens (value : List Char) :
    (valueTokens value).flatMap (env.written secret userHash base exp) =
      env.rewrittenValue secret userHash base exp value := by
  unfold valueTokens rewrittenValue
  split
  · exact List.flatMap_singleton _ _
  · exact env.written_map_char secret userHash base exp value

theorem rewritten_eq (reader : HtmlReader) (html : List Char) :
    env.rewritten reader secret userHash base exp html =
      ((reader.parts html).flatMap HtmlPart.tokens).flatMap (env.written secret userHash base exp) := by
  rw [rewritten, List.flatMap_assoc]
  refine List.flatMap_congr fun part _ => ?_
  cases part with
  | text s => exact (env.written_map_char secret userHash base exp s).symm
  | href value => exact (env.written_valueTokens secret userHash base exp value).symm

theorem written_tokens (f : QuotedHref) : f.tokens.flatMap (env.written secret userHash base exp) =
    f.before ++ f.name ++ [f.quote] ++ env.rewrittenValue secret userHash base exp f.value ++ [f.quote] := by
  rw [QuotedHref.tokens, List.flatMap_append, List.flatMap_append, written_map_char, written_valueTokens,
    List.flatMap_singleton]
  rfl

/-- The loop, on a text that was read: names become small, and links are replaced. -/
theorem rewriteLinks_eq {s rest : List Char} {fs : List QuotedHref} (h : ReadsHrefs s fs rest) {fuel : Nat}
    (hfuel : s.length ≤ fuel) : env.rewriteLinks secret userHash base exp fuel s =
      (fs.flatMap (fun f : QuotedHref => f.small.tokens) ++ rest.map LinkToken.char).flatMap
        (env.written secret userHash base exp) := by
  induction h generalizing fuel with
  | @done s hnone =>
    have hfind : findHref s = none := by
      cases hfind : findHref s with
      | none => rfl
      | some p =>
        obtain ⟨f, after, hs, -⟩ := findHref_eq_some hfind
        exact absurd hs (hnone f after)
    rw [List.flatMap_nil, List.nil_append, written_map_char]
    cases fuel with
    | zero => rfl
    | succ fuel => rw [rewriteLinks, hfind]
  | @find after rest fs f hfirst hrest ih =>
    have hlt := f.length_lt after
    obtain ⟨fuel, rfl⟩ : ∃ n, fuel = n + 1 := ⟨fuel - 1, by omega⟩
    rw [rewriteLinks, findHref_chars hfirst]
    dsimp only [QuotedHref.pos]
    rw [ih (by omega), List.flatMap_cons, List.append_assoc f.small.tokens, @List.flatMap_append _ _ f.small.tokens,
      written_tokens]
    rfl

end Writing

end LinkEnv

/-! ### When only links are replaced -/

theorem shouldProxy_slash (t : List Char) : shouldProxy ('/' :: t) = false := by
  have htrim : (strTrim (String.ofList ('/' :: t))).toList = '/' :: t.rdropWhile isWhitespace := by
    rw [← trimText_cons (by decide), strTrim, String.toList_ofList, String.toList_ofList]
    rfl
  unfold shouldProxy
  rw [htrim]
  dsimp only
  rw [if_neg (by simp)]
  cases hsplit : splitOnce [':'] ('/' :: t.rdropWhile isWhitespace) with
  | none => rfl
  | some p =>
    obtain ⟨scheme, rest⟩ := p
    obtain ⟨hscheme, -⟩ := splitOnce_eq_some (List.cons_ne_nil ':' []) hsplit
    -- the scheme begins with the slash
    cases scheme with
    | nil => exact absurd (List.cons.inj hscheme).1 (by decide)
    | cons c scheme =>
      obtain rfl := (List.cons.inj hscheme).1
      have hlower : (toLowercase (String.ofList ('/' :: scheme))).toList.head? = some '/' := by
        rw [toLowercase, String.toList_ofList, String.toList_ofList]
        rfl
      have hne : ∀ name : String, name.toList.head? ≠ some '/' →
          toLowercase (String.ofList ('/' :: scheme)) ≠ name :=
        fun name hname heq => hname (heq ▸ hlower)
      dsimp only
      rw [decide_eq_false (hne "http" (by decide)), decide_eq_false (hne "https" (by decide))]
      rfl

/-- A link that is replaced begins with something else than its replacement, in any case. -/
theorem head_of_shouldProxy {raw : List Char} (h : shouldProxy raw = true) :
    ∃ a t, raw = a :: t ∧ a.toLower ≠ '/' := by
  cases raw with
  | nil => exact absurd h (by decide)
  | cons a t =>
    refine ⟨a, t, rfl, fun hslash => ?_⟩
    have ha : a = '/' := by
      have hlower := Sieve.toNat_toLower a
      rw [hslash] at hlower
      rw [← Char.toNat_inj]
      have hcode : '/'.toNat = 47 := rfl
      split at hlower <;> omega
    rw [ha, shouldProxy_slash] at h
    exact absurd h Bool.false_ne_true

theorem takeBytes_prefix (n : Nat) (s : List Char) : takeBytes n s <+: s := by
  induction s generalizing n with
  | nil => exact List.nil_prefix
  | cons c s ih =>
    rw [takeBytes]
    split
    · exact (List.prefix_cons_inj c).mpr (ih _)
    · exact List.nil_prefix

/-- Only a text that is too long is cut. -/
theorem takeBytes_eq_self {n : Nat} {s : List Char} : takeBytes n s = s ↔ byteLength s ≤ n := by
  induction s generalizing n with
  | nil => exact iff_of_true rfl (Nat.zero_le n)
  | cons c s ih =>
    rw [takeBytes, byteLength_cons]
    split
    · next hle =>
      rw [List.cons.injEq, eq_self, true_and, ih]
      omega
    · next hgt => exact iff_of_false (List.cons_ne_nil c s).symm (by omega)

theorem QuotedHref.lower_small (f : QuotedHref) : f.small.chars.map Char.toLower = f.chars.map Char.toLower := by
  unfold QuotedHref.chars QuotedHref.small
  rw [List.map_append, List.map_append, List.map_append, List.map_append, f.name_href]
  rfl

theorem lower_smalls (fs : List QuotedHref) (rest : List Char) :
    (fs.flatMap (fun f => f.small.chars) ++ rest).map Char.toLower =
      (fs.flatMap QuotedHref.chars ++ rest).map Char.toLower := by
  rw [List.map_append, List.map_append, List.map_flatMap, List.map_flatMap]
  simp only [QuotedHref.lower_small]

/-- A text that stays as it is has small names only. -/
theorem small_of_chars_eq {fs : List QuotedHref} {rest : List Char}
    (h : fs.flatMap (fun f => f.small.chars) ++ rest = fs.flatMap QuotedHref.chars ++ rest) :
    ∀ f ∈ fs, f.name = "href=".toList := by
  replace h := List.append_cancel_right h
  induction fs with
  | nil => exact List.forall_mem_nil _
  | cons f fs ih =>
    rw [List.flatMap_cons, List.flatMap_cons] at h
    have hlength : f.small.chars.length = f.chars.length := by
      rw [← List.length_map Char.toLower, f.lower_small, List.length_map]
    obtain ⟨hchars, hrest⟩ := List.append_inj h hlength
    have hnames := List.append_cancel_left hchars
    have hfive : f.small.name.length = f.name.length := by rw [f.small.length_name, f.length_name]
    have hname := (List.append_inj hnames hfive).1
    exact List.forall_mem_cons.mpr ⟨hname.symm, ih hrest⟩

theorem QuotedHref.small_eq_self {f : QuotedHref} (h : f.name = "href=".toList) : f.small = f := by
  obtain ⟨before, name, quote, value, hname, hquote, hvalue⟩ := f
  obtain rfl := h
  rfl

namespace LinkEnv

section Replaced

variable {env : LinkEnv} (hbase64 : ∀ bytes, env.unbase64 (env.base64 bytes) = some bytes)
  (halphabet : ∀ bytes, ∀ c ∈ env.base64 bytes, Unreserved c) (secret : List UInt8) (userHash : List Char)
  {base : List Char} (hbase : base ≠ [] → base.head? = some '/') (exp : Int)

include hbase in
theorem head_proxyLink (raw : List Char) :
    ∃ t, env.proxyLink secret userHash base exp raw = '/' :: t := by
  unfold proxyLink
  cases base with
  | nil => exact ⟨_, rfl⟩
  | cons c base =>
    obtain rfl := Option.some.inj (hbase (List.cons_ne_nil c base))
    exact ⟨_, rfl⟩

include hbase in
theorem eq_slash_of_proxyLink {c : Char} {raw a b : List Char}
    (h : c :: a = env.proxyLink secret userHash base exp raw ++ b) : c = '/' := by
  obtain ⟨t, ht⟩ := @head_proxyLink env secret userHash base hbase exp raw
  rw [ht] at h
  exact (List.cons.inj h).1

include hbase in
theorem written_ne_nil (t : LinkToken) : env.written secret userHash base exp t ≠ [] := by
  cases t with
  | char c => exact List.cons_ne_nil c []
  | link raw hproxy =>
    obtain ⟨t, ht⟩ := @head_proxyLink env secret userHash base hbase exp raw
    rw [written, ht]
    exact List.cons_ne_nil _ _

include hbase64 halphabet in
/-- A replaced link is told apart from what stands behind it. -/
theorem proxyLink_inj {raw raw' a b : List Char}
    (h : env.proxyLink secret userHash base exp raw ++ a = env.proxyLink secret userHash base exp raw' ++ b) :
    raw = raw' ∧ a = b := by
  have hsafe : ∀ bytes, '&' ∉ env.base64 bytes :=
    fun bytes hmem => absurd (halphabet bytes '&' hmem) (by unfold Unreserved; decide)
  have hlink : ∀ raw rest : List Char, env.proxyLink secret userHash base exp raw ++ rest =
      base ++ "/api/v1/link?u=".toList ++ (env.base64 (utf8 raw) ++ '&' ::
        ("exp=".toList ++ (toString exp).toList ++ "&s=".toList ++
          encodeHex (env.computeMac secret raw userHash exp) ++ rest)) := by
    intro raw rest
    rw [proxyLink, signUrl]
    simp only [List.append_assoc]
    rfl
  rw [hlink, hlink] at h
  have hcut := (splitOnce_char (hsafe (utf8 raw)) _).symm.trans
    ((congrArg (splitOnce ['&']) (List.append_cancel_left h)).trans (splitOnce_char (hsafe (utf8 raw')) _))
  obtain ⟨hbytes, hrest⟩ := Prod.mk.inj (Option.some.inj hcut)
  have hbytes : utf8 raw = utf8 raw' := by
    have h := hbase64 (utf8 raw)
    rw [hbytes, hbase64] at h
    exact (Option.some.inj h).symm
  obtain rfl := utf8_injective hbytes
  exact ⟨rfl, List.append_cancel_left hrest⟩

include hbase64 halphabet hbase in
/-- Texts that begin alike, up to the case of letters, are sent alike only with the same links. -/
theorem written_inj {T T' : List LinkToken}
    (hcase : (T.flatMap LinkToken.chars).map Char.toLower <+: (T'.flatMap LinkToken.chars).map Char.toLower)
    (h : T.flatMap (env.written secret userHash base exp) = T'.flatMap (env.written secret userHash base exp)) :
    T = T' := by
  induction T generalizing T' with
  | nil =>
    cases T' with
    | nil => rfl
    | cons t T' =>
      rw [List.flatMap_nil, List.flatMap_cons] at h
      exact absurd (List.append_eq_nil_iff.mp h.symm).1 (written_ne_nil secret userHash hbase exp t)
  | cons t T ih =>
    cases T' with
    | nil =>
      rw [List.flatMap_nil, List.flatMap_cons] at h
      exact absurd (List.append_eq_nil_iff.mp h).1 (written_ne_nil secret userHash hbase exp t)
    | cons t' T' =>
      rw [List.flatMap_cons, List.flatMap_cons] at h
      rw [List.flatMap_cons, List.flatMap_cons, List.map_append, List.map_append] at hcase
      cases t with
      | char c =>
        cases t' with
        | char d =>
          obtain ⟨rfl, htail⟩ := List.cons.inj h
          rw [ih ((List.prefix_cons_inj _).mp hcase) htail]
        | link raw hproxy =>
          -- a slash in place of what the link begins with
          obtain rfl := eq_slash_of_proxyLink secret userHash hbase exp h
          obtain ⟨a, t, rfl, ha⟩ := head_of_shouldProxy hproxy
          exact absurd (List.cons_prefix_cons.mp hcase).1.symm ha
      | link raw hproxy =>
        cases t' with
        | char d =>
          obtain rfl := eq_slash_of_proxyLink secret userHash hbase exp h.symm
          obtain ⟨a, t, rfl, ha⟩ := head_of_shouldProxy hproxy
          exact absurd (List.cons_prefix_cons.mp hcase).1 ha
        | link raw' hproxy' =>
          obtain ⟨rfl, htail⟩ := proxyLink_inj hbase64 halphabet secret userHash exp h
          rw [ih ((List.prefix_append_right_inj _).mp hcase) htail]

include hbase64 halphabet in
/-- A mail is sent with nothing but the links of its elements replaced exactly if it is short, and every
quoted `href=` in it is in small letters, and those that are replaced are the links of its elements. -/
theorem respond_html_iff (reader : HtmlReader) (now : Int) (basePath : BasePath) (page : PageEnv) {data : BodyData}
    (hplain : data.pgpStatus.any (fun s => s.kind = .encrypted) = false) (html : String) :
    (respond { page with rewriteLinks := some (env.rewriter now secret userHash basePath) }
        { data with bodyHtml := some html }).html =
      some (String.ofList (env.rewritten reader secret userHash basePath.text (now + expirySecs) html.toList)) ↔
    byteLength html.toList ≤ linkProxyMaxChars ∧ ∃ fs rest, ReadsHrefs html.toList fs rest ∧
      (∀ f ∈ fs, f.name = "href=".toList) ∧
        fs.flatMap QuotedHref.tokens ++ rest.map LinkToken.char =
          (reader.parts html.toList).flatMap HtmlPart.tokens := by
  have hsmall : ∀ fs : List QuotedHref, (∀ f ∈ fs, f.name = "href=".toList) →
      fs.flatMap (fun f => f.small.tokens) = fs.flatMap QuotedHref.tokens :=
    fun fs hfs => List.flatMap_congr fun f hf => by rw [QuotedHref.small_eq_self (hfs f hf)]
  have hresponse : (respond { page with rewriteLinks := some (env.rewriter now secret userHash basePath) }
      { data with bodyHtml := some html }).html =
        some (env.rewriter now secret userHash basePath (String.ofList (takeBytes linkProxyMaxChars html.toList))) := by
    unfold respond proxiedHtml
    dsimp only
    rw [hplain]
    rfl
  rw [hresponse, rewriter, String.toList_ofList, rewriteHtmlLinks, Option.some.injEq, String.ofList_inj,
    rewritten_eq]
  generalize html.toList = html
  constructor
  · intro h
    obtain ⟨fs, rest, hreads⟩ := exists_readsHrefs (takeBytes linkProxyMaxChars html)
    have hslice := takeBytes_prefix linkProxyMaxChars html
    rw [rewriteLinks_eq _ _ _ _ _ hreads (Nat.le_refl _)] at h
    have hchars : (fs.flatMap (fun f : QuotedHref => f.small.tokens) ++ rest.map LinkToken.char).flatMap
        LinkToken.chars = fs.flatMap (fun f => f.small.chars) ++ rest := by
      rw [List.flatMap_append, chars_map_char, List.flatMap_assoc]
      simp only [QuotedHref.chars_tokens]
    have htokens := written_inj hbase64 halphabet secret userHash basePath.head_text (now + expirySecs)
      (by
        rw [hchars, reader.chars_tokens, lower_smalls, hreads.chars_eq]
        exact hslice.map Char.toLower) h
    -- the text that is sent is the whole text
    have htext := congrArg (List.flatMap LinkToken.chars) htokens
    rw [hchars, reader.chars_tokens] at htext
    have hlength := congrArg List.length (lower_smalls fs rest)
    rw [List.length_map, List.length_map, hreads.chars_eq, htext] at hlength
    have hwhole := hslice.eq_of_length hlength.symm
    rw [hwhole] at hreads
    have hnames := small_of_chars_eq (htext.trans hreads.chars_eq.symm)
    exact ⟨takeBytes_eq_self.mp hwhole, fs, rest, hreads, hnames, hsmall fs hnames ▸ htokens⟩
  · rintro ⟨hshort, fs, rest, hreads, hnames, htokens⟩
    rw [takeBytes_eq_self.mpr hshort, rewriteLinks_eq _ _ _ _ _ hreads (Nat.le_refl _), hsmall fs hnames, htokens]

end Replaced

end LinkEnv

/-! ### Links -/

theorem sampleLinkEnv_base64 (bytes : List UInt8) :
    sampleLinkEnv.unbase64 (sampleLinkEnv.base64 bytes) = some bytes :=
  Base64.decode_encode Base64.proper_urlSafeNoPad bytes

theorem sampleLinkEnv_alphabet (bytes : List UInt8) : ∀ c ∈ sampleLinkEnv.base64 bytes, Unreserved c := by
  have hchars : ∀ n < 64, (Base64.urlSafeNoPad.char n).isAlphanum = true ∨
      Base64.urlSafeNoPad.char n = '-' ∨ Base64.urlSafeNoPad.char n = '_' := by decide
  intro c hc
  obtain ⟨-, hpad⟩ | ⟨n, hn, rfl⟩ := Base64.mem_encode hc
  · exact absurd hpad Bool.false_ne_true
  · exact hchars n hn

theorem sampleLinkEnv_mac (key message : List UInt8) : (sampleLinkEnv.mac key message).length = 32 := by
  unfold sampleLinkEnv
  dsimp only
  split <;> rfl

/-- The parameters of a query of the server's own. -/
def sampleQuery (query : List Char) : Option LinkParams := do
  let (_, rest) ← splitOnce ['='] query
  let (u, rest) ← splitOnce ['&'] rest
  let (_, rest) ← splitOnce ['='] rest
  let (exp, rest) ← splitOnce ['&'] rest
  let (_, s) ← splitOnce ['='] rest
  return ⟨u, ← parseI64 exp, s⟩

theorem sampleQuery_eq {u s : List Char} {exp : Int} (hu : ∀ c ∈ u, Unreserved c) (hexp : InI64 exp) :
    sampleQuery ("u=".toList ++ u ++ "&exp=".toList ++ (toString exp).toList ++ "&s=".toList ++ s) =
      some ⟨u, exp, s⟩ := by
  have hamp : '&' ∉ u := fun hmem => absurd (hu _ hmem) (by unfold Unreserved; decide)
  have hfirst := @splitOnce_char '=' ['u'] (by decide)
    (u ++ '&' :: ("exp".toList ++ '=' :: ((toString exp).toList ++ '&' :: ('s' :: '=' :: s))))
  have hsecond := splitOnce_char hamp ("exp".toList ++ '=' :: ((toString exp).toList ++ '&' :: ('s' :: '=' :: s)))
  have hthird := @splitOnce_char '=' "exp".toList (by decide)
    ((toString exp).toList ++ '&' :: ('s' :: '=' :: s))
  have hfourth := splitOnce_char (amp_not_mem_toString exp) ('s' :: '=' :: s)
  have hfifth := @splitOnce_char '=' ['s'] (by decide) s
  have hall : "u=".toList ++ u ++ "&exp=".toList ++ (toString exp).toList ++ "&s=".toList ++ s =
      ['u'] ++ '=' :: (u ++ '&' :: ("exp".toList ++ '=' :: ((toString exp).toList ++ '&' :: ('s' :: '=' :: s)))) := by
    simp only [List.append_assoc]
    rfl
  unfold sampleQuery
  rw [hall, hfirst]
  dsimp only [Option.bind_eq_bind, Option.bind_some]
  rw [hsecond]
  dsimp only [Option.bind_some]
  rw [hthird]
  dsimp only [Option.bind_some]
  rw [hfourth]
  dsimp only [Option.bind_some]
  rw [show 's' :: '=' :: s = ['s'] ++ '=' :: s from rfl, hfifth]
  dsimp only [Option.bind_some]
  rw [parseI64_toString hexp]
  rfl

/-- A browser that knows one character reference, and addresses that are the same when they are read. -/
def sampleWeb : WebEnv (List Char) where
  entities := replaceText "&amp;".toList ['&']
  query := sampleQuery
  headerValue s := s.all fun c => (32 ≤ c.toNat && c.toNat < 127) || c = '\t'
  resolve := id

theorem sampleWeb_entities (s : List Char) (hs : PlainAmpersands s) : sampleWeb.entities s = s := by
  refine replaceText_none ?_
  rintro ⟨before, after, rfl⟩
  rw [List.append_assoc] at hs
  obtain ⟨name, rest, h, hne, hname⟩ := hs before ("amp;".toList ++ after) rfl
  -- the name would end before the semicolon, and there is no equals sign there
  have h : 'a' :: 'm' :: 'p' :: ';' :: after = name ++ '=' :: rest := h
  match name with
  | [] => exact hne rfl
  | [_] => simp at h
  | [_, _] => simp at h
  | [_, _, _] => simp at h
  | a :: b :: c :: d :: name =>
    obtain rfl : d = ';' := by
      simp only [List.cons_append, List.cons.injEq] at h
      exact h.2.2.2.1.symm
    exact absurd (hname ';' (by simp)) (by decide)

theorem follow_sampleLink :
    (∃ params location,
      sampleWeb.follow "/rav".toList (sampleWeb.entities
        (sampleLinkEnv.rewrittenValue sampleSecret "0f".toList "/rav".toList 2000000000 "http://a.b/".toList)) =
          some params ∧
        sampleLinkEnv.redirect sampleWeb.headerValue 1999999999 (some sampleSecret) "0f".toList params =
          .ok (.found (some location)) ∧
          sampleWeb.resolve location = sampleWeb.resolve (sampleWeb.entities "http://a.b/".toList)) ↔
      sampleWeb.Direct "http://a.b/".toList := by
  have hproxy : shouldProxy "http://a.b/".toList = true := by decide
  exact LinkEnv.follow_rewritten sampleLinkEnv_base64 sampleLinkEnv_alphabet sampleLinkEnv_mac
    sampleWeb_entities (fun u s exp hu _ hexp => sampleQuery_eq hu hexp) (by decide) sampleSecret "0f".toList
    (by decide) (by decide) hproxy

/-- A link with two parameters, as it is written in a mail. -/
theorem follow_twoParameters :
    ¬∃ params location,
      sampleWeb.follow "/rav".toList (sampleWeb.entities (sampleLinkEnv.rewrittenValue sampleSecret
        "0f".toList "/rav".toList 2000000000 "http://a.b/?x=1&amp;y=2".toList)) = some params ∧
        sampleLinkEnv.redirect sampleWeb.headerValue 1999999999 (some sampleSecret) "0f".toList params =
          .ok (.found (some location)) ∧
          sampleWeb.resolve location =
            sampleWeb.resolve (sampleWeb.entities "http://a.b/?x=1&amp;y=2".toList) := by
  have hproxy : shouldProxy "http://a.b/?x=1&amp;y=2".toList = true := by decide
  rw [LinkEnv.rewrittenValue, if_pos hproxy, LinkEnv.follow_proxyLink sampleLinkEnv_alphabet sampleWeb_entities
    (fun u s exp hu _ hexp => sampleQuery_eq hu hexp) (by decide) sampleSecret "0f".toList (by decide)]
  rintro ⟨params, location, hparams, hfound, hresolve⟩
  obtain rfl := Option.some.inj hparams
  rw [LinkEnv.redirect_signed sampleLinkEnv_base64 sampleLinkEnv_mac sampleWeb.headerValue (by decide)] at hfound
  have hlocation : location = "http://a.b/?x=1&amp;y=2".toList := by
    have hheader : sampleWeb.headerValue "http://a.b/?x=1&amp;y=2".toList = true := by decide
    rw [hheader] at hfound
    exact (Option.some.inj (LinkResponse.found.inj (Except.ok.inj hfound))).symm
  rw [hlocation] at hresolve
  revert hresolve
  decide

/-- The parts of a text, within a tag or outside: attributes with a quoted value directly behind their name.
What was read of a name is kept in reverse. -/
def sampleParts : Nat → Bool → List Char → List Char → List HtmlPart
  | 0, _, _, s => [.text s]
  | _ + 1, _, _, [] => []
  | n + 1, false, _, c :: s => .text [c] :: sampleParts n (c = '<') [] s
  | n + 1, true, word, c :: s =>
    if c = '>' then .text [c] :: sampleParts n false [] s
    else if (c = '"' ∨ c = '\'') ∧ word.head? = some '=' then
      .text [c] ::
        (if word.tail.reverse.map Char.toLower = "href".toList then .href (s.takeWhile (· ≠ c))
          else .text (s.takeWhile (· ≠ c))) :: sampleParts n true [] (s.dropWhile (· ≠ c))
    else .text [c] :: sampleParts n true (if isWhitespace c then [] else c :: word) s

theorem sampleParts_whole (n : Nat) (tag : Bool) (word s : List Char) :
    (sampleParts n tag word s).flatMap HtmlPart.chars = s := by
  induction n generalizing tag word s with
  | zero => exact List.append_nil s
  | succ n ih =>
    cases s with
    | nil => cases tag <;> rfl
    | cons c s =>
      cases tag with
      | false =>
        rw [sampleParts, List.flatMap_cons, ih]
        rfl
      | true =>
        rw [sampleParts]
        split
        · rw [List.flatMap_cons, ih]
          rfl
        · split
          · rw [List.flatMap_cons, List.flatMap_cons, ih]
            split
            · exact congrArg (c :: ·) List.takeWhile_append_dropWhile
            · exact congrArg (c :: ·) List.takeWhile_append_dropWhile
          · rw [List.flatMap_cons, ih]
            rfl

def sampleReader : HtmlReader where
  parts html := sampleParts html.length false [] html
  whole html := sampleParts_whole html.length false [] html

def noBasePath : BasePath := ⟨none, fun _ h => absurd h (Option.not_mem_none _)⟩

def linkedRow : CachedMessage :=
  ⟨7, "INBOX", none, none, none, "", "", "", "[]", "[]", "", "", 0, false, "", none, 0, none, none, ⟨1, 0⟩⟩

/-- The page of a message without a conversation. -/
def linkedPage : PageEnv := ⟨some linkedRow, fun _ _ => linkedRow, fun _ => [], none⟩

theorem respond_sampleAnchor :
    let rewriter := sampleLinkEnv.rewriter 1997408000 sampleSecret "0f".toList noBasePath
    let html := "<a href=\"http://a.b/\">x</a>"
    (respond { linkedPage with rewriteLinks := some rewriter } ⟨some html, none, [], "", none, none⟩).html =
      some (String.ofList (sampleLinkEnv.rewritten sampleReader sampleSecret "0f".toList noBasePath.text
        (1997408000 + expirySecs) html.toList)) ↔
    byteLength html.toList ≤ linkProxyMaxChars ∧ ∃ fs rest, ReadsHrefs html.toList fs rest ∧
      (∀ f ∈ fs, f.name = "href=".toList) ∧
        fs.flatMap QuotedHref.tokens ++ rest.map LinkToken.char =
          (sampleReader.parts html.toList).flatMap HtmlPart.tokens :=
  @LinkEnv.respond_html_iff sampleLinkEnv sampleLinkEnv_base64 sampleLinkEnv_alphabet sampleSecret "0f".toList
    sampleReader 1997408000 noBasePath linkedPage ⟨none, none, [], "", none, none⟩ rfl _

/-- A paragraph without a link, in which one is replaced. -/
theorem respond_textHref :
    let rewriter := sampleLinkEnv.rewriter 1997408000 sampleSecret "0f".toList noBasePath
    let html := "<p>href=\"http://a.b/\"</p>"
    (respond { linkedPage with rewriteLinks := some rewriter } ⟨some html, none, [], "", none, none⟩).html ≠
      some (String.ofList (sampleLinkEnv.rewritten sampleReader sampleSecret "0f".toList noBasePath.text
        (1997408000 + expirySecs) html.toList)) := by
  decide +kernel

end Rav
