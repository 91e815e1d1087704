import Rav.Error
import Rav.Str

/-!
# `smtp::types` and `smtp::client`: PGP

The PGP parameters of an outgoing message, the check that turns a client's request into them, and
the PGP/MIME envelope they are wrapped in.

## Main definitions

- `PgpMode`, `PgpSendParams`, `PgpSendRequest`
- `resolvePgpParams`
- `wrapPgpMime`
-/

namespace Rav

/-- Whether to sign or sign and encrypt an outbound PGP/MIME message. -/
inductive PgpMode
  | sign
  | encrypt
  deriving DecidableEq, Repr

/-- Parameters for PGP/MIME message wrapping. -/
structure PgpSendParams where
  mode : PgpMode
  signature : Option String
  ciphertext : Option String
  micalg : String
  deriving DecidableEq, Repr

structure PgpSendRequest where
  mode : String
  signature : Option String
  ciphertext : Option String
  micalg : Option String
  deriving DecidableEq, Repr

def allowedMicalg : List String :=
  ["pgp-sha256","pgp-sha384","pgp-sha512","pgp-sha224","pgp-sha1","pgp-ripemd160"]

/-- The mode a client asks for. -/
def pgpModeOf (mode : String) : Except AppError PgpMode :=
  if mode = "sign" then .ok .sign
  else if mode = "encrypt" then .ok .encrypt
  else .error (.badRequest ("Unknown PGP mode: " ++ mode))

/-- Convert a client-supplied request, validating the micalg against the allow-list. -/
def resolvePgpParams (req : PgpSendRequest) : Except AppError PgpSendParams :=
  match pgpModeOf req.mode with
  | .error e => .error e
  | .ok mode =>
    let micalg := req.micalg.getD "pgp-sha256"
    if micalg ∈ allowedMicalg then .ok ⟨mode,req.signature,req.ciphertext,micalg⟩
    else .error (.badRequest ("Invalid micalg: " ++ micalg))

/-! ### The envelope -/

/-- Lines with their ends as CRLF, whether they ended in CRLF, CR or LF. -/
def crlfChars : List Char → List Char
  | '\r' :: '\n' :: cs => '\r' :: '\n' :: crlfChars cs
  | '\r' :: cs => '\r' :: '\n' :: crlfChars cs
  | '\n' :: cs => '\r' :: '\n' :: crlfChars cs
  | c :: cs => c :: crlfChars cs
  | [] => []

/-- Normalize line endings to CRLF. -/
def toCrlf (s : String) : String := String.ofList (crlfChars s.toList)

def crlf : List Char := ['\r','\n']

/-- What stands before and after the first blank line. -/
def splitBlank (raw : List Char) : Option (List Char × List Char) :=
  (splitOnce (crlf ++ crlf) raw).or (splitOnce ['\n','\n'] raw)

/-- The header lines without Content-Type, MIME-Version and their continuations; `skip` tells
whether a continuation belongs to one of these. -/
def envelopeLines (skip : Bool) : List (List Char) → List (List Char)
  | [] => []
  | [] :: lines => envelopeLines skip lines
  | (c :: cs) :: lines =>
    if c = ' ' || c = '\t' then
      if skip then envelopeLines skip lines else (c :: cs) :: envelopeLines skip lines
    else
      let lower := (c :: cs).map Char.toLower
      let skip' := "content-type:".toList.isPrefixOf lower || "mime-version:".toList.isPrefixOf lower
      if skip' then envelopeLines skip' lines else (c :: cs) :: envelopeLines skip' lines

/-- Extract envelope headers, stripping MIME-specific ones. -/
def filterEnvelopeHeaders (raw : List Char) : List Char :=
  let headers := ((splitBlank raw).map Prod.fst).getD raw
  crlf.intercalate (envelopeLines false (splitAll crlf headers))

/-- What stands from the first blank line on. -/
def fromBlank (raw : List Char) : Option (List Char) :=
  ((splitOnce (crlf ++ crlf) raw).map (fun r => crlf ++ crlf ++ r.2)).or
    ((splitOnce ['\n','\n'] raw).map (fun r => '\n' :: '\n' :: r.2))

/-- The body of the first text/plain part, up to the next boundary, if there is such a part. -/
def textPart (body : List Char) : Option (List Char) := do
  let (_,rest) ← splitOnce "Content-Type: text/plain".toList body
  let text := (dropPrefixes crlf (← fromBlank rest)).dropWhile (· = '\n')
  let boundary := (splitOnce (crlf ++ ['-','-']) text).or (splitOnce ['\n','-','-'] text)
  pure ((boundary.map Prod.fst).getD text)

/-- Extract the plain-text body for the signed part of a multipart/signed message. -/
def extractTextBody (raw : List Char) : List Char :=
  let body := ((splitBlank raw).map Prod.snd).getD []
  (textPart body).getD body

/-- Wrap a formatted message in a PGP/MIME envelope with a boundary of its own. -/
def wrapPgpMime (boundary : String) (inner : List UInt8) (pgp : PgpSendParams) :
    Except String String :=
  match String.fromUTF8? (ByteArray.mk inner.toArray) with
  | none => .error "Message bytes are not valid UTF-8: invalid utf-8 sequence"
  | some raw =>
    let headers := String.ofList (filterEnvelopeHeaders raw.toList)
    match pgp.mode with
    | .sign =>
      match pgp.signature with
      | none => .error "PGP sign mode requires a signature"
      | some signature =>
        let canonical := toCrlf (String.ofList (extractTextBody raw.toList))
        .ok (headers ++ "\r\nMIME-Version: 1.0\r\n" ++
          "Content-Type: multipart/signed; protocol=\"application/pgp-signature\"; micalg=" ++
          pgp.micalg ++ "; boundary=\"" ++ boundary ++ "\"\r\n\r\n--" ++ boundary ++
          "\r\nContent-Type: text/plain; charset=utf-8\r\n\r\n" ++ canonical ++ "\r\n--" ++
          boundary ++ "\r\nContent-Type: application/pgp-signature\r\n" ++
          "Content-Description: OpenPGP digital signature\r\n\r\n" ++ signature ++ "\r\n--" ++
          boundary ++ "--\r\n")
    | .encrypt =>
      match pgp.ciphertext with
      | none => .error "PGP encrypt mode requires ciphertext"
      | some ciphertext =>
        .ok (headers ++ "\r\nMIME-Version: 1.0\r\n" ++
          "Content-Type: multipart/encrypted; protocol=\"application/pgp-encrypted\"; " ++
          "boundary=\"" ++ boundary ++ "\"\r\n\r\n--" ++ boundary ++
          "\r\nContent-Type: application/pgp-encrypted\r\n" ++
          "Content-Description: PGP/MIME version identification\r\n\r\nVersion: 1\r\n\r\n--" ++
          boundary ++ "\r\nContent-Type: application/octet-stream; name=\"encrypted.asc\"\r\n" ++
          "Content-Description: OpenPGP encrypted message\r\n" ++
          "Content-Disposition: inline; filename=\"encrypted.asc\"\r\n\r\n" ++ ciphertext ++
          "\r\n--" ++ boundary ++ "--\r\n")

end Rav
