import Rav.Json
import Rav.Realtime.Sync
import Rav.Str

/-!
# The page of a message

`get_message` assembles its answer twice over: from a body just fetched, and from the columns of a
cached one. Bodies are cached by `get_message` itself and by the deep index step, which keep
different things.

## Main definitions

- `FetchedBody`, `AttachmentMeta` — what is fetched, what is told of attachments
- `missData`, `hitData` — the data of the page, from a fetch and from the cache
- `BodyWriter.columns` — what is cached
- `respond` — the page
-/

namespace Rav

inductive PgpStatusKind
  | encrypted
  | signed
  | signedAndEncrypted
  deriving DecidableEq, Repr

structure PgpMessageStatus where
  kind : PgpStatusKind
  ciphertext : Option String
  signature : Option String
  micalg : Option String
  signedContent : Option String
  deriving DecidableEq, Repr

/-- A fetched body with its PGP status; sizes fit into a machine word. -/
structure FetchedBody extends ImapMessageBody where
  pgpStatus : Option PgpMessageStatus
  size_lt : ∀ a ∈ attachments, a.size < 18446744073709551616

inductive EmailTheme
  | light
  | dark
  | transparent
  | adaptive
  deriving DecidableEq, Repr

def EmailTheme.asI32 : EmailTheme → Int
  | .light => 0
  | .dark => 1
  | .transparent => 2
  | .adaptive => 3

/-- The theme a stored number stands for. -/
def EmailTheme.ofI32 (t : Int) : EmailTheme :=
  if t = 0 then .light
  else if t = 1 then .dark
  else if t = 2 then .transparent
  else if t = 3 then .adaptive
  else .light

/-! ### Attachments -/

/-- Attachment metadata, without the data. -/
structure AttachmentMeta where
  id : String
  filename : Option String
  contentType : String
  size : Nat
  contentId : Option String
  deriving DecidableEq, Repr

def AttachmentMeta.json (m : AttachmentMeta) : String :=
  Json.object [("id",Json.string m.id),("filename",Json.option Json.string m.filename),
    ("content_type",Json.string m.contentType),("size",toString m.size),
    ("content_id",Json.option Json.string m.contentId)]

/-- The attachments are numbered from 0 on. -/
def attachmentMeta (attachments : List ImapAttachment) : List AttachmentMeta :=
  attachments.mapIdx (fun i a => ⟨toString i,a.filename,a.contentType,a.size,a.contentId⟩)

/-- A field of a structure: missing, there, or, if it is there twice, an error. -/
def jsonField (members : List (String × Json.Value)) (k : String) : Option (Option Json.Value) :=
  match members.filter (fun m => m.1 = k) with
  | [] => some none
  | [m] => some (some m.2)
  | _ => none

def jsonString : Json.Value → Option String
  | .string s => some s
  | _ => none

def jsonOptionString : Json.Value → Option (Option String)
  | .null => some none
  | .string s => some (some s)
  | _ => none

def jsonUsize : Json.Value → Option Nat
  | .number text =>
    let n := Nat.ofDigitChars 10 text 0
    if text.all Char.isDigit ∧ n < 18446744073709551616 then some n else none
  | _ => none

/-- What `serde` makes of a value: an optional field may be missing, unknown fields are passed over, an
array has the fields in their order. -/
def AttachmentMeta.fromValue : Json.Value → Option AttachmentMeta
  | .object ms => do
    let id ← (← jsonField ms "id").bind jsonString
    let filename ← (← jsonField ms "filename").elim (some none) jsonOptionString
    let contentType ← (← jsonField ms "content_type").bind jsonString
    let size ← (← jsonField ms "size").bind jsonUsize
    let contentId ← (← jsonField ms "content_id").elim (some none) jsonOptionString
    some ⟨id,filename,contentType,size,contentId⟩
  | .array [id,filename,contentType,size,contentId] => do
    some ⟨← jsonString id,← jsonOptionString filename,← jsonString contentType,← jsonUsize size,
      ← jsonOptionString contentId⟩
  | _ => none

/-- The cached list of attachments; what cannot be read counts as no attachment. -/
def attachmentsFromJson (text : String) : List AttachmentMeta :=
  match Json.parse text with
  | some (.array vs) => (vs.mapM AttachmentMeta.fromValue).getD []
  | _ => []

/-! ### Inline images -/

def base64Char (n : Nat) : Char :=
  "ABCDEFGHIJKLMNOPQRSTUVWXYZabcdefghijklmnopqrstuvwxyz0123456789+/".toList.getD n '='

/-- Standard base64 with padding. -/
def base64Encode : List Nat → List Char
  | [] => []
  | [a] => [base64Char (a / 4),base64Char (a % 4 * 16),'=','=']
  | [a,b] => [base64Char (a / 4),base64Char (a % 4 * 16 + b / 16),base64Char (b % 16 * 4),'=']
  | a :: b :: c :: rest => base64Char (a / 4) :: base64Char (a % 4 * 16 + b / 16) ::
      base64Char (b % 16 * 4 + c / 64) :: base64Char (c % 64) :: base64Encode rest

def ImapAttachment.dataUri (a : ImapAttachment) : String :=
  "data:" ++ a.contentType ++ ";base64," ++ String.ofList (base64Encode a.data)

/-- Put the inline images into the HTML, in place of their `cid:` addresses. -/
def resolveCids (attachments : List ImapAttachment) (html : String) : String :=
  attachments.foldl (fun html a => a.contentId.elim html
    (fun cid => strReplace ("cid:" ++ cid) a.dataUri html)) html

/-! ### The data of a page -/

structure BodyData where
  bodyHtml : Option String
  bodyText : Option String
  attachments : List AttachmentMeta
  rawHeaders : String
  emailTheme : Option Int
  pgpStatus : Option PgpMessageStatus
  deriving DecidableEq, Repr

/-- The cached columns of a body. -/
structure BodyColumns where
  html : Option String
  text : Option String
  attachmentsJson : Option String
  rawHeaders : Option String
  emailTheme : Option Int
  deriving DecidableEq, Repr

/-- The two places that cache a body. -/
inductive BodyWriter
  | getMessage
  | deepIndex
  deriving DecidableEq, Repr

section

variable (detect : String → Option EmailTheme) (b : FetchedBody)

def resolvedHtml : Option String := b.textHtml.map (resolveCids b.attachments)

/-- The data of a page whose body has just been fetched. -/
def missData : BodyData where
  bodyHtml := resolvedHtml b
  bodyText := b.textPlain
  attachments := attachmentMeta b.attachments
  rawHeaders := b.rawHeaders
  emailTheme := ((resolvedHtml b).bind detect).map EmailTheme.asI32
  pgpStatus := b.pgpStatus

/-- `get_message` caches what it shows; the deep index step what was fetched. -/
def BodyWriter.columns : BodyWriter → BodyColumns
  | .getMessage => ⟨resolvedHtml b,b.textPlain,
      some (Json.array AttachmentMeta.json (attachmentMeta b.attachments)),some b.rawHeaders,
      ((resolvedHtml b).bind detect).map EmailTheme.asI32⟩
  | .deepIndex => ⟨b.textHtml,b.textPlain,some (Json.array ImapAttachment.json b.attachments),
      some b.rawHeaders,(b.textHtml.bind detect).map EmailTheme.asI32⟩

/-- The theme found when none was stored. -/
def lateTheme (c : BodyColumns) : Option Int :=
  if c.emailTheme.isNone then (c.html.bind detect).map EmailTheme.asI32 else none

/-- The data of a page whose body is cached; without a list of attachments the body is fetched
again. -/
def hitData (c : BodyColumns) : Option BodyData :=
  c.attachmentsJson.map (fun json =>
    { bodyHtml := c.html
      bodyText := c.text
      attachments := attachmentsFromJson json
      rawHeaders := c.rawHeaders.getD ""
      emailTheme := c.emailTheme.or (lateTheme detect c)
      pgpStatus := none })

end

/-! ### The page -/

/-- What else a page is made from: the message's row, what the raw headers and the number of
attachments are made into where there is none, the rows of a conversation, and how links are
rewritten, if they are. -/
structure PageEnv where
  row : Option CachedMessage
  synthetic : String → Nat → CachedMessage
  thread : CachedMessage → List CachedMessage
  rewriteLinks : Option (String → String)

def linkProxyMaxChars : Nat := 200000

/-- The longest beginning of at most so many bytes. -/
def takeBytes : Nat → List Char → List Char
  | _, [] => []
  | n, c :: cs => if c.utf8Size ≤ n then c :: takeBytes (n - c.utf8Size) cs else []

/-- The page; its header fields are those of `header`. -/
structure MessageDetailResponse where
  header : CachedMessage
  html : Option String
  text : Option String
  rawHeaders : String
  attachments : List AttachmentMeta
  thread : List CachedMessage
  emailTheme : Option EmailTheme
  pgpStatus : Option PgpMessageStatus
  deriving DecidableEq, Repr

/-- Links are rewritten unless the message is encrypted. -/
def proxiedHtml (env : PageEnv) (data : BodyData) : Option String :=
  match env.rewriteLinks with
  | some rewrite =>
    if data.pgpStatus.any (fun s => s.kind = .encrypted) then data.bodyHtml
    else data.bodyHtml.map
      (fun html => rewrite (String.ofList (takeBytes linkProxyMaxChars html.toList)))
  | none => data.bodyHtml

def respond (env : PageEnv) (data : BodyData) : MessageDetailResponse :=
  let header := env.row.getD (env.synthetic data.rawHeaders data.attachments.length)
  { header := header
    html := proxiedHtml env data
    text := data.bodyText
    rawHeaders := data.rawHeaders
    attachments := data.attachments
    thread := env.thread header
    emailTheme := data.emailTheme.map EmailTheme.ofI32
    pgpStatus := data.pgpStatus }

end Rav
