import Rav.Routes.Auth
import Rav.Error
import Mathlib.Data.List.Sort

/-!
# `routes::mfa`

The TOTP handlers: setup draws a secret and stores nothing, confirm stores the secret of the
request once its code is valid for it, delete asks for a code valid for the stored one.

The handlers that register and delete passkeys and switch passkey-only mode, over the tables of
`db::mfa` they read and write. Each handler is one closure on one connection, but its statements
are separate transactions: other requests run between them. The WebAuthn ceremony and the
encryption that come before a registration is stored are a parameter.

## Main definitions

- `totpSetup`, `totpConfirm`, `totpDelete`
- `PasskeyDb` — the tables, with `insertPasskey`, `listPasskeysInfo`, `hasPasskeys`,
  `deletePasskey`, `setPasskeyOnly`
- `passkeyDelete`, `passkeyOnlySet`, `passkeyRegisterComplete` — the handlers
-/

namespace Rav

/-- `serde_json::json!({ "totp_enabled": b })`. -/
def totpEnabledBody (b : Bool) : String := Json.object [("totp_enabled",toString b)]

def badRequest (message : String) : HttpResponse := errorResponse 400 "BAD_REQUEST" message

def authenticationFailed : HttpResponse := errorResponse 401 "UNAUTHORIZED" "Authentication failed"

def invalidCodeResponse : HttpResponse :=
  errorResponse 422 "INVALID_CODE"
    "The code is incorrect. Check your authenticator app and try again."

/-- `POST /api/mfa/totp/setup`. -/
def totpSetup (env : MfaEnv) (email : String) : MfaTask HttpResponse := do
  match ← mfaCall .drawSecret with
  | .error (_ : String) => pure internalErrorResponse
  | .ok (secret : String) =>
    match env.totpInit secret with
    | .error _ => pure internalErrorResponse
    | .ok () =>
      pure ⟨200,Json.object [("secret",Json.string secret),
        ("url",Json.string (env.totpUrl secret email "Rav Mail"))],[]⟩

/-- Store a secret that has been confirmed. -/
def storeSecret (env : MfaEnv) (secret : String) : MfaTask HttpResponse := do
  match ← env.encrypt secret with
  | .error _ => pure internalErrorResponse
  | .ok encrypted =>
    match ← mfaCall (.upsertTotpSecret encrypted) with
    | .error (_ : String) => pure internalErrorResponse
    | .ok () => pure ⟨200,totpEnabledBody true,[]⟩

/-- `POST /api/mfa/totp/confirm`. -/
def totpConfirm (env : MfaEnv) (secret code : String) : MfaTask HttpResponse := do
  if strTrim secret = "" ∨ strTrim code = "" then pure (badRequest "Secret and code are required")
  else
    match ← mfaCall .withUserDb with
    | .error (_ : String) => pure internalErrorResponse
    | .ok () =>
      if unwrapOr (← isLockedOut) false then pure authenticationFailed
      else
        match ← verifyAndRecord env secret code with
        | .error _ => pure internalErrorResponse
        | .ok false => pure invalidCodeResponse
        | .ok true => storeSecret env secret

/-- Remove the TOTP credential and all associated replay and lockout state. -/
def deleteTotp : MfaTask (Except String Unit) := do
  match ← mfaCall .deleteTotpRow with
  | .error (e : String) => pure (.error e)
  | .ok () =>
    match ← mfaCall .deleteUsedSteps with
    | .error (e : String) => pure (.error e)
    | .ok () => mfaCall .clearLockout

/-- Verify a code against the stored secret and remove it. -/
def verifyAndDelete (env : MfaEnv) (secret code : String) : MfaTask HttpResponse := do
  match ← verifyAndRecord env secret code with
  | .error _ => pure internalErrorResponse
  | .ok false => pure invalidCodeResponse
  | .ok true =>
    match ← deleteTotp with
    | .error _ => pure internalErrorResponse
    | .ok () => pure ⟨200,totpEnabledBody false,[]⟩

/-- What a stored secret lets `totpDelete` do. -/
def deleteStored (env : MfaEnv) (stored : EncryptedSecret) (code : String) : MfaTask HttpResponse := do
  match env.decryptSecret stored with
  | none => pure internalErrorResponse
  | some secret =>
    if unwrapOr (← isLockedOut) false then pure authenticationFailed
    else verifyAndDelete env secret code

/-- `DELETE /api/mfa/totp`. -/
def totpDelete (env : MfaEnv) (code : String) : MfaTask HttpResponse := do
  if strTrim code = "" then
    pure (badRequest "A verification code is required to remove the authenticator app.")
  else
    match ← mfaCall .withUserDb with
    | .error (_ : String) => pure internalErrorResponse
    | .ok () =>
      match ← mfaCall .getTotpSecret with
      | .error (_ : String) => pure internalErrorResponse
      | .ok none => pure (badRequest "No authenticator app is enrolled.")
      | .ok (some (stored : EncryptedSecret)) => deleteStored env stored code

end Rav

namespace Rav

/-! ### The tables -/

/-- Parameters of `insert_passkey`. -/
structure NewPasskey where
  credentialId : String
  passkeyJson : String
  prfSalt : List UInt8
  encryptedImap : List UInt8
  imapNonce : List UInt8
  name : String
  deriving DecidableEq, Repr

/-- A row of `mfa_passkeys`. -/
structure PasskeyRow where
  credentialId : String
  passkeyJson : String
  prfSalt : List UInt8
  encryptedImap : List UInt8
  imapNonce : List UInt8
  name : String
  imap : ServerEndpoint
  smtp : ServerEndpoint
  createdAt : Nat
  deriving DecidableEq, Repr

def NewPasskey.row (p : NewPasskey) (imap smtp : ServerEndpoint) (now : Nat) : PasskeyRow where
  credentialId := p.credentialId
  passkeyJson := p.passkeyJson
  prfSalt := p.prfSalt
  encryptedImap := p.encryptedImap
  imapNonce := p.imapNonce
  name := p.name
  imap := imap
  smtp := smtp
  createdAt := now

/-- Minimal info returned by the list endpoint. -/
structure PasskeyInfo where
  credentialId : String
  name : String
  createdAt : Nat
  deriving DecidableEq, Repr

/-- The passkeys and the setting. -/
structure PasskeyDb where
  passkeys : Table PasskeyRow.credentialId
  passkeyOnly : Bool

namespace PasskeyDb

variable (db : PasskeyDb)

/-- A credential id in use is refused by the primary key. -/
def insertPasskey (p : NewPasskey) (imap smtp : ServerEndpoint) (now : Nat) : Option PasskeyDb :=
  match db.passkeys.find? p.credentialId with
  | some _ => none
  | none => some { db with passkeys := db.passkeys.insertOrIgnore (p.row imap smtp now) }

def listPasskeysInfo : List PasskeyInfo :=
  (db.passkeys.rows.insertionSort (fun a b => a.createdAt ≤ b.createdAt)).map
    (fun r => ⟨r.credentialId,r.name,r.createdAt⟩)

def hasPasskeys : Bool := decide (db.passkeys.rows.length > 0)

/-- Delete a passkey by credential id; whether there was one. -/
def deletePasskey (credentialId : String) : Bool × PasskeyDb :=
  ((db.passkeys.find? credentialId).isSome,
    { db with passkeys := db.passkeys.deleteWhere (fun r => r.credentialId = credentialId) })

def setPasskeyOnly (enabled : Bool) : PasskeyDb := { db with passkeyOnly := enabled }

end PasskeyDb

/-! ### Calls -/

inductive PasskeyCall
  | withUserDb
  | getMfaSettings
  | listPasskeysInfo
  | hasPasskeys
  | deletePasskey (credentialId : String)
  | setPasskeyOnly (enabled : Bool)
  | insertPasskey (p : NewPasskey) (imap smtp : ServerEndpoint)

def PasskeyCall.Answer : PasskeyCall → Type
  | .withUserDb => Except String Unit
  | .getMfaSettings => Except String Bool
  | .listPasskeysInfo => Except String (List PasskeyInfo)
  | .hasPasskeys => Except String Bool
  | .deletePasskey _ => Except String Bool
  | .setPasskeyOnly _ => Except String Unit
  | .insertPasskey _ _ _ => Except String Unit

abbrev PasskeyTask := Prog PasskeyCall PasskeyCall.Answer

def passkeyCall (c : PasskeyCall) : PasskeyTask c.Answer := Prog.perform (R := PasskeyCall.Answer) c

/-- The tables and the clock. -/
structure PasskeyWorld where
  db : PasskeyDb
  now : Nat

/-- A statement, unless it fails. -/
def PasskeyWorld.run {α : Type} (fails : Option String) (w : PasskeyWorld) (f : α × PasskeyDb) :
    Except String α × PasskeyWorld :=
  match fails with
  | some e => (.error e,w)
  | none => (.ok f.1,{ w with db := f.2 })

/-- Answer one call. -/
def PasskeyCall.serve (fails : Option String) :
    (c : PasskeyCall) → PasskeyWorld → c.Answer × PasskeyWorld
  | .withUserDb, w => w.run fails ((),w.db)
  | .getMfaSettings, w => w.run fails (w.db.passkeyOnly,w.db)
  | .listPasskeysInfo, w => w.run fails (w.db.listPasskeysInfo,w.db)
  | .hasPasskeys, w => w.run fails (w.db.hasPasskeys,w.db)
  | .deletePasskey id, w => w.run fails (w.db.deletePasskey id)
  | .setPasskeyOnly enabled, w => w.run fails ((),w.db.setPasskeyOnly enabled)
  | .insertPasskey p imap smtp, w =>
    match w.db.insertPasskey p imap smtp w.now with
    | none =>
      (.error "DB error inserting passkey: UNIQUE constraint failed: mfa_passkeys.credential_id",w)
    | some db => w.run fails ((),db)

/-! ### Handlers -/

def lastPasskeyResponse : HttpResponse :=
  badRequest ("Cannot remove the last passkey while passkey-only mode is enabled. " ++
    "Disable passkey-only mode first.")

/-- The guard of `passkeyDelete`: refuse to delete the last passkey while passkey-only mode is
enabled. Settings that cannot be read count as disabled, passkeys that cannot be listed as
none. -/
def deletesLast : PasskeyTask Bool := do
  if unwrapOr (← passkeyCall .getMfaSettings) false then
    match ← passkeyCall .listPasskeysInfo with
    | .ok (infos : List PasskeyInfo) => pure (decide (infos.length ≤ 1))
    | .error (_ : String) => pure true
  else pure false

/-- `DELETE /api/mfa/passkeys/{id}`. -/
def passkeyDelete (credentialId : String) : PasskeyTask HttpResponse := do
  match ← passkeyCall .withUserDb with
  | .error (_ : String) => pure internalErrorResponse
  | .ok () =>
    if ← deletesLast then pure lastPasskeyResponse
    else
      match ← passkeyCall (.deletePasskey credentialId) with
      | .ok true => pure ⟨200,Json.object [("deleted","true")],[]⟩
      | .ok false => pure (errorResponse 404 "NOT_FOUND" "Passkey not found.")
      | .error (_ : String) => pure internalErrorResponse

/-- The statement and the answer of `passkeyOnlySet`, past its guard. -/
def storePasskeyOnly (enabled : Bool) : PasskeyTask HttpResponse := do
  match ← passkeyCall (.setPasskeyOnly enabled) with
  | .error (_ : String) => pure internalErrorResponse
  | .ok () => pure ⟨200,Json.object [("passkey_only",toString enabled)],[]⟩

/-- `PUT /api/mfa/settings/passkey-only`; enabling takes an enrolled passkey. -/
def passkeyOnlySet (enabled : Bool) : PasskeyTask HttpResponse := do
  match ← passkeyCall .withUserDb with
  | .error (_ : String) => pure internalErrorResponse
  | .ok () =>
    if enabled then
      match ← passkeyCall .hasPasskeys with
      | .error (_ : String) => pure internalErrorResponse
      | .ok false =>
        pure (badRequest "Cannot enable passkey-only mode without at least one enrolled passkey.")
      | .ok true => storePasskeyOnly enabled
    else storePasskeyOnly enabled

/-- `POST /api/mfa/passkey/register/complete`; `ceremony` is what comes of the request before the
database is opened. -/
def passkeyRegisterComplete
    (ceremony : Except HttpResponse (NewPasskey × ServerEndpoint × ServerEndpoint)) :
    PasskeyTask HttpResponse := do
  match ceremony with
  | .error response => pure response
  | .ok (p,imap,smtp) =>
    match ← passkeyCall .withUserDb with
    | .error (_ : String) => pure internalErrorResponse
    | .ok () =>
      match ← passkeyCall (.insertPasskey p imap smtp) with
      | .ok () => pure ⟨201,Json.object [("id",Json.string p.credentialId),
          ("name",Json.string p.name)],[]⟩
      | .error (e : String) =>
        if strContains e "UNIQUE constraint" then
          pure (errorResponse 409 "ALREADY_ENROLLED" "This passkey is already enrolled.")
        else pure internalErrorResponse

end Rav
