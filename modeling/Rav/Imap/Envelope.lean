import Rav.Error
import Rav.Imap.Types
import Rav.Str
import Rav.Sieve.Casemap

/-!
# `imap::parse`, and the headers `imap::client` makes of an answer

What the server says of a message, and the header the client keeps of it. Decoders, lower-casing,
dates and the reading of the threading headers are parameters.

## Main definitions

- `Fetch` — what the server says of one message
- `decodeRfc2047`, `imapAddressToEmail`, `hasAttachments` — the parts of it
- `Fetch.header` — the header
-/

namespace Rav

open Sieve (octets)

/-- What the threading headers of a message are read as; `references` as a list and as a text. -/
structure ThreadingHeaders where
  messageId : Option String
  inReplyTo : Option String
  referencesList : Option (List String)
  referencesText : Option String
  deriving DecidableEq, Repr

/-- Base64, `String::from_utf8_lossy`, `str::to_lowercase`, the time of a date, and the parser of the
threading headers. -/
structure HeaderEnv where
  base64 : List Char → Option (List UInt8)
  utf8Lossy : List UInt8 → String
  lower : String → String
  parseDateEpoch : String → Int
  parseThreading : List UInt8 → Option ThreadingHeaders

/-! ### Encoded words -/

/-- `char::to_digit(16)`. -/
def hexValue (b : UInt8) : Option Nat :=
  if 48 ≤ b ∧ b ≤ 57 then some (b.toNat - 48)
  else if 65 ≤ b ∧ b ≤ 70 then some (b.toNat - 55)
  else if 97 ≤ b ∧ b ≤ 102 then some (b.toNat - 87)
  else none

/-- `u8::from_str_radix` of two characters; the first may be a `+`. -/
def hexPair (hi lo : UInt8) : Option UInt8 :=
  if hi = 43 then (hexValue lo).map UInt8.ofNat
  else (hexValue hi).bind fun h => (hexValue lo).map fun l => UInt8.ofNat (16 * h + l)

/-- Decode quoted-printable as used in RFC 2047 headers (underscores are spaces). -/
def decodeQuotedPrintableHeader : List UInt8 → Option (List UInt8)
  | [] => some []
  | b :: bs =>
    if b = 95 then (decodeQuotedPrintableHeader bs).map (32 :: ·)
    else if b = 61 then
      match bs with
      | hi :: lo :: bs =>
        (hexPair hi lo).bind fun byte => (decodeQuotedPrintableHeader bs).map (byte :: ·)
      | _ => none
    else (decodeQuotedPrintableHeader bs).map (b :: ·)

/-- Latin-1. -/
def latin1 (bytes : List UInt8) : String := String.ofList (bytes.map (fun b => Char.ofNat b.toNat))

namespace HeaderEnv

variable (env : HeaderEnv)

/-- Best-effort charset decoding; UTF-8 is tried first, then Latin-1. -/
def decodeCharset (charset : List Char) (bytes : List UInt8) : String :=
  match String.ofList (charset.map Char.toLower) with
  | "utf-8" | "utf8" => env.utf8Lossy bytes
  | "iso-8859-1" | "latin1" | "latin-1" => latin1 bytes
  | _ => (fromUtf8 bytes).getD (latin1 bytes)

/-- What an encoded word stands for; itself, where it cannot be decoded. -/
def decodeWord (charset encoding encodedText : List Char) : List Char :=
  let decodedBytes := match String.ofList (encoding.map Char.toUpper) with
    | "B" => env.base64 encodedText
    | "Q" => decodeQuotedPrintableHeader (octets (String.ofList encodedText))
    | _ => none
  match decodedBytes with
  | some bytes => (env.decodeCharset charset bytes).toList
  | none =>
    ['=','?'] ++ charset ++ ['?'] ++ encoding ++ ['?'] ++ encodedText ++ ['?','=']

/-- Decode one encoded word after the other; there are no more than characters. -/
def decodeWords : Nat → List Char → List Char
  | 0, remaining => remaining
  | fuel + 1, remaining =>
    match splitOnce ['=','?'] remaining with
    | none => remaining
    | some (before,afterStart) =>
      let word := (splitOnce ['?'] afterStart).bind fun r =>
        (splitOnce ['?'] r.2).bind fun r' =>
          (splitOnce ['?','='] r'.2).map fun r'' => (r.1,r'.1,r''.1,r''.2)
      match word with
      | some (charset,encoding,encodedText,remaining) =>
        -- white space between consecutive encoded words is dropped
        let trimmed := remaining.dropWhile isWhitespace
        let remaining := if ['=','?'].isPrefixOf remaining || ['=','?'].isPrefixOf trimmed
          then trimmed else remaining
        before ++ env.decodeWord charset encoding encodedText ++ decodeWords fuel remaining
      | none => before ++ ['=','?'] ++ decodeWords fuel afterStart

/-- Decode RFC 2047 encoded-word sequences. -/
def decodeRfc2047 (input : String) : String :=
  if !strContains input "=?" then input
  else String.ofList (env.decodeWords (input.toList.length + 1) input.toList)

end HeaderEnv

/-! ### What the server says of a message -/

structure ImapAddress where
  name : Option (List UInt8)
  mailbox : Option (List UInt8)
  host : Option (List UInt8)
  deriving DecidableEq, Repr

structure Envelope where
  date : Option (List UInt8)
  subject : Option (List UInt8)
  from_ : Option (List ImapAddress)
  to_ : Option (List ImapAddress)
  cc : Option (List ImapAddress)
  deriving DecidableEq, Repr

inductive BodyStructure
  | basic (ty : String) (disposition : Option String)
  | text (disposition : Option String)
  | message (body : BodyStructure)
  | multipart (bodies : List BodyStructure)

/-- What the server says of one message; flags are names. -/
structure Fetch where
  uid : Option Nat
  envelope : Option Envelope
  header : Option (List UInt8)
  flags : List String
  bodystructure : Option BodyStructure
  size : Option Nat
  internalDate : Option Int

namespace HeaderEnv

variable (env : HeaderEnv)

def imapAddressToEmail (addr : ImapAddress) : EmailAddress :=
  let name := (addr.name.bind fromUtf8).map env.decodeRfc2047
  let mailbox := (addr.mailbox.bind fromUtf8).getD ""
  let host := (addr.host.bind fromUtf8).getD ""
  ⟨name,if host.isEmpty then mailbox else mailbox ++ "@" ++ host⟩

end HeaderEnv

def isAttachment (disposition : Option String) : Bool :=
  disposition.any (fun ty => eqIgnoreAsciiCase ty "attachment")

mutual

/-- Detect attachments: parts with that disposition, and parts that are not text. -/
def hasAttachments : BodyStructure → Bool
  | .basic ty disposition =>
    isAttachment disposition ||
      ["application","image","audio","video"].contains (String.ofList (ty.toList.map Char.toLower))
  | .text disposition => isAttachment disposition
  | .message body => hasAttachments body
  | .multipart bodies => anyHasAttachments bodies

def anyHasAttachments : List BodyStructure → Bool
  | [] => false
  | body :: bodies => hasAttachments body || anyHasAttachments bodies

end

/-! ### The header -/

namespace HeaderEnv

variable (env : HeaderEnv)

/-- Detect Outlook/Exchange reaction emails from headers. -/
def reaction (raw : List UInt8) (subject : Option String) : Option String :=
  (fromUtf8 raw).bind fun headerStr =>
    let lower := env.lower headerStr
    if !(strContains lower "content-class: activitynotification" ||
        strContains lower "urn:content-class:reaction") then none
    else
      let s := strTrim (env.lower (subject.getD ""))
      some (if strContains s "like" then "👍"
        else if strContains s "heart" || strContains s "love" then "❤️"
        else if strContains s "laugh" then "😄"
        else if strContains s "surprised" || strContains s "wow" then "😮"
        else if strContains s "sad" then "😢"
        else if strContains s "angry" then "😠"
        else "👍")

/-- A message id in its angle brackets. -/
def bracketed (s : String) : String := "<" ++ s ++ ">"

/-- The header of a message, if the server says its UID. -/
def header (fetch : Fetch) (origin : Origin) : Option ImapMessageHeader :=
  fetch.uid.map fun uid =>
    let parsedThreading := fetch.header.bind env.parseThreading
    let subject := (fetch.envelope.bind Envelope.subject).bind fromUtf8 |>.map env.decodeRfc2047
    let addresses (field : Envelope → Option (List ImapAddress)) :=
      ((fetch.envelope.bind field).map (List.map env.imapAddressToEmail)).getD []
    let date := (fetch.envelope.bind Envelope.date).bind fromUtf8
    let fromHeader := (date.map env.parseDateEpoch).getD 0
    { uid := uid
      subject := subject
      from_ := addresses Envelope.from_
      to_ := addresses Envelope.to_
      date := date
      dateEpoch := if 0 < fromHeader then fromHeader else fetch.internalDate.getD 0
      flags := fetch.flags
      hasAttachments := (fetch.bodystructure.map Rav.hasAttachments).getD false
      size := fetch.size.getD 0
      messageId := (parsedThreading.bind ThreadingHeaders.messageId).map bracketed
      inReplyTo := (parsedThreading.bind ThreadingHeaders.inReplyTo).map bracketed
      references := parsedThreading.bind fun p =>
        (p.referencesList.map fun list => " ".intercalate (list.map bracketed)).or
          (p.referencesText.map bracketed)
      cc := addresses Envelope.cc
      reaction := fetch.header.bind fun raw => env.reaction raw subject
      origin := origin }

end HeaderEnv

end Rav
