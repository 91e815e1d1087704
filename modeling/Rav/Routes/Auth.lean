import Rav.Mfa.Task
import Rav.Str
import Rav.Json

/-!
# `mfa::totp`, `mfa::crypto` and `routes::auth`

Verification of a TOTP code with its replay protection and lockout, and the encryption of
secrets at rest. Errors of the library or the database pass through without the text the log
prefixes to them.

The handler of `POST /api/auth/login`: the second-factor gate, the IMAP login, the verification
of the TOTP code and the creation of the session. Seeding identities from the mail server's admin
interface, which runs in the background, is left out.

## Main definitions

- `incrementLockout`, `verifyAndRecord`, `isLockedOut`
- `MfaEnv.encrypt`, `MfaEnv.decrypt`, `loadTotpSecret`
- `LoginRequest`, `AppConfig`, `EffectiveServerConfig.build`
- `mfaGate` — the check before the IMAP login
- `createLoginSession`, `login`
-/

namespace Rav

def maxFailures : Nat := 5

def lockoutSeconds : Nat := 900

/-- Increment the failure counter; from `max` failures on, lock the account for `secs` seconds. -/
def incrementLockout (max secs : Nat) : MfaTask (Except String Unit) := do
  match ← mfaCall .bumpFailures with
  | .error (e : String) => pure (.error e)
  | .ok (newCount : Nat) => if newCount ≥ max then mfaCall (.lockFor secs) else pure (.ok ())

/-- What becomes of a code that matches a time step. -/
def acceptStep (step : Nat) : MfaTask (Except String Bool) := do
  match ← mfaCall (.isStepUsed step) with
  | .error (e : String) => pure (.error e)
  -- valid code but already consumed: replay attempt
  | .ok true => pure (.ok false)
  | .ok false =>
    match ← mfaCall (.recordUsedStep step) with
    | .error (e : String) => pure (.error e)
    | .ok () =>
      match ← mfaCall (.resetLockout step) with
      | .error (e : String) => pure (.error e)
      | .ok () => pure (.ok true)

/-- What becomes of a code that matches none. -/
def rejectCode : MfaTask (Except String Bool) := do
  match ← incrementLockout maxFailures lockoutSeconds with
  | .error (e : String) => pure (.error e)
  | .ok () => pure (.ok false)

/-- Verify a code against a secret with a window of one step either way. -/
def verifyAndRecord (env : MfaEnv) (secret code : String) : MfaTask (Except String Bool) := do
  match env.totpInit secret with
  | .error e => pure (.error e)
  | .ok () =>
    match ← mfaCall .systemTime with
    | .error (e : String) => pure (.error e)
    | .ok (now : Nat) =>
      -- used steps older than 5 minutes
      match ← mfaCall (.pruneUsedSteps (now - 300)) with
      | .error (e : String) => pure (.error e)
      | .ok () =>
        match ← mfaCall (.compare secret code now) with
        | some (step : Nat) => acceptStep step
        | none => rejectCode

/-- Whether the account is currently locked out. -/
def isLockedOut : MfaTask (Except String Bool) := do
  match ← mfaCall .systemTime with
  | .error (e : String) => pure (.error e)
  | .ok (now : Nat) => mfaCall (.checkLockout now)

/-- `Result::unwrap_or`. -/
def unwrapOr {α : Type} (r : Except String α) (a : α) : α :=
  match r with
  | .ok b => b
  | .error _ => a

/-! ### Secrets at rest -/

namespace MfaEnv

variable (env : MfaEnv)

/-- Encrypt under a fresh random 12-byte nonce. -/
def encrypt (plaintext : String) : MfaTask (Except String EncryptedSecret) := do
  let nonce ← mfaCall .drawNonce
  match env.aesEncrypt nonce plaintext.toUTF8.data.toList with
  | .error e => pure (.error ("AES-GCM encrypt failed: " ++ e))
  | .ok ciphertext => pure (.ok ⟨ciphertext,nonce⟩)

def decrypt (s : EncryptedSecret) : Except String (List UInt8) :=
  if s.nonce.length ≠ 12 then .error "Invalid nonce length"
  else
    match env.aesDecrypt s.nonce s.encryptedSecret with
    | some plaintext => .ok plaintext
    | none => .error "AES-GCM decrypt failed (wrong key or corrupted data)"

/-- The secret stored in a row. -/
def decryptSecret (s : EncryptedSecret) : Option String :=
  match env.decrypt s with
  | .error _ => none
  | .ok plaintext => fromUtf8 plaintext

end MfaEnv

/-- The plaintext TOTP secret of a user, if it is available. -/
def loadTotpSecret (env : MfaEnv) : MfaTask (Option String) := do
  match ← mfaCall .getTotpSecret with
  | .error (_ : String) => pure none
  | .ok none => pure none
  | .ok (some (s : EncryptedSecret)) => pure (env.decryptSecret s)

/-- Whether a code is valid for a secret at a time. -/
def MfaEnv.Valid (env : MfaEnv) (secret code : String) (now : Nat) : Prop :=
  (env.matchingStep secret code now).isSome = true

instance (env : MfaEnv) (secret code : String) (now : Nat) : Decidable (env.Valid secret code now) :=
  inferInstanceAs (Decidable (_ = true))

/-- The secret that is enrolled, if its row can be decrypted. -/
def MfaWorld.enrolledSecret (env : MfaEnv) (w : MfaWorld) : Option String :=
  w.db.totp.bind env.decryptSecret

end Rav

namespace Rav

structure LoginRequest where
  email : String
  password : String
  remember : Bool
  imapHost : Option String
  imapPort : Option UInt16
  imapTls : Option Bool
  smtpHost : Option String
  smtpPort : Option UInt16
  smtpTls : Option Bool
  browserId : Option String
  totpCode : Option String

/-- The part of the configuration a login reads. -/
structure AppConfig where
  environment : String
  imapHost : Option String
  imapPort : UInt16
  smtpHost : Option String
  smtpPort : UInt16
  tlsEnabled : Bool
  allowCustomMailServers : Bool
  sessionTimeoutHours : Nat

/-- Whether the request contains any mail server override. -/
def LoginRequest.hasServerConfig (r : LoginRequest) : Bool :=
  r.imapHost.isSome || r.imapPort.isSome || r.imapTls.isSome ||
    r.smtpHost.isSome || r.smtpPort.isSome || r.smtpTls.isSome

/-- The mail servers of a login attempt. -/
structure EffectiveServerConfig where
  imapHost : String
  imapPort : UInt16
  imapTls : Bool
  smtpHost : String
  smtpPort : UInt16
  smtpTls : Bool

/-- From the configuration alone, or merged with the request where that is allowed. -/
def EffectiveServerConfig.build (request : LoginRequest) (config : AppConfig) :
    Except (Nat × String) EffectiveServerConfig :=
  if !config.allowCustomMailServers then
    if request.hasServerConfig then
      .error (403,"Custom mail server configuration is not allowed. " ++
        "Provide only email and password.")
    else
      match config.imapHost with
      | none => .error (503,"Server not configured with default IMAP host")
      | some imapHost =>
        .ok ⟨imapHost,config.imapPort,config.tlsEnabled,
          config.smtpHost.getD imapHost,config.smtpPort,config.tlsEnabled⟩
  else
    match request.imapHost.or config.imapHost with
    | none => .error (503,"IMAP server not configured")
    | some imapHost =>
      .ok ⟨imapHost,request.imapPort.getD config.imapPort,request.imapTls.getD config.tlsEnabled,
        (request.smtpHost.or config.smtpHost).getD imapHost,
        request.smtpPort.getD config.smtpPort,request.smtpTls.getD config.tlsEnabled⟩

/-! ### Responses -/

/-- `{"error": {"code": …, "message": …, "status": …}}`. -/
def errorBody (code message : String) (status : Nat) : String :=
  Json.object [("error",Json.object [("code",Json.string code),("message",Json.string message),
    ("status",toString status)])]

def errorResponse (status : Nat) (code message : String) : HttpResponse :=
  ⟨status,errorBody code message status,[]⟩

def unauthorizedResponse : HttpResponse := errorResponse 401 "UNAUTHORIZED" "Invalid credentials"

def internalErrorResponse : HttpResponse :=
  errorResponse 500 "INTERNAL_ERROR" "An internal error occurred"

def serverConfigError (e : Nat × String) : HttpResponse :=
  errorResponse e.1 (if e.1 = 403 then "FORBIDDEN" else if e.1 = 503 then "SERVICE_UNAVAILABLE"
    else "ERROR") e.2

def serverUnreachableResponse (e : String) : HttpResponse := errorResponse 503 "SERVER_UNREACHABLE" e

def browserCookie (browserId : BrowserId) (maxAgeSecs : Nat) (secure : Bool) : String :=
  "rav_browser=" ++ browserId ++ ";" ++ (if secure then " Secure;" else "") ++
    " SameSite=Strict; Path=/; Max-Age=" ++ toString maxAgeSecs

def accountSessionCookie (accountId : AccountId) (token : SessionId) (maxAgeSecs : Nat)
    (secure : Bool) : String :=
  "rav_session_" ++ accountId ++ "=" ++ token ++ ";" ++ (if secure then " Secure;" else "") ++
    " HttpOnly; SameSite=Strict; Path=/; Max-Age=" ++ toString maxAgeSecs

/-- `HeaderValue::from_str`: no control characters but the tab. -/
def headerValue (s : String) : Option String :=
  if s.toList.all (fun c => (32 ≤ c.toNat && c.toNat ≠ 127) || c = '\t') then some s else none

/-! ### Creating the session -/

def rememberMeHours : Nat := 30 * 24

/-- The browser a session is created for: the one the request names, or a new one. -/
def browserOf (body : LoginRequest) : MfaTask BrowserId :=
  match body.browserId with
  | some browserId => pure browserId
  | none => mfaCall .createBrowser

/-- What is left once the account is known not to be logged in already. -/
def openSession (env : MfaEnv) (body : LoginRequest) (server : EffectiveServerConfig)
    (config : AppConfig) : MfaTask HttpResponse := do
  mfaCall (.ensureIdentity body.email)
  let sessionHours := if body.remember then rememberMeHours else config.sessionTimeoutHours
  let browserId ← browserOf body
  let ids ← mfaCall (.addAccountToBrowser browserId body.email body.password
    (env.hashEmail body.email) ⟨server.imapHost,server.imapPort,server.imapTls⟩
    ⟨server.smtpHost,server.smtpPort,server.smtpTls⟩)
  let token : SessionId := Prod.fst ids
  let accountId : AccountId := Prod.snd ids
  let maxAge := sessionHours * 3600
  let secure := decide (config.environment ≠ "development")
  pure ⟨201,Json.object [("account",Json.object [("email",Json.string body.email),
    ("id",Json.string accountId),("imapHost",Json.string server.imapHost),
    ("smtpHost",Json.string server.smtpHost)])],
    (headerValue (browserCookie browserId maxAge secure)).toList ++
      (headerValue (accountSessionCookie accountId token maxAge secure)).toList⟩

/-- Whether the browser lists the account already. -/
def isDuplicate (body : LoginRequest) (server : EffectiveServerConfig) : MfaTask Bool :=
  match body.browserId with
  | none => pure false
  | some browserId => do
    let existing ← mfaCall (.getBrowserAccounts browserId)
    pure (List.any existing (fun (a : AccountSession) =>
      a.email = body.email && a.imapHost = server.imapHost))

/-- Called after all factors have been verified. -/
def createLoginSession (env : MfaEnv) (body : LoginRequest) (server : EffectiveServerConfig)
    (config : AppConfig) : MfaTask HttpResponse := do
  match ← mfaCall (.provisionUserData (env.hashEmail body.email)) with
  | .error (_ : String) => pure internalErrorResponse
  | .ok () =>
    if ← isDuplicate body server then
      pure (errorResponse 409 "DUPLICATE_ACCOUNT" "This account is already logged in")
    else openSession env body server config

/-! ### Logging in -/

/-- Outcome of the TOTP gate before the IMAP login. -/
inductive MfaGate
  | skip
  | passkeyOnly
  | needsCode
  | lockedOut
  | secretMissing
  | ready (secret code : String)

/-- What an enrolled account has to show. -/
def totpGate (env : MfaEnv) (totpCode : Option String) : MfaTask MfaGate := do
  match totpCode with
  | none => pure .needsCode
  | some code =>
    -- a lockout that cannot be read counts as none
    if unwrapOr (← isLockedOut) false then pure .lockedOut
    else
      match ← loadTotpSecret env with
      | some secret => pure (.ready secret code)
      | none => pure .secretMissing

/-- The state of the second factor; what cannot be read counts as absent. -/
def mfaGate (env : MfaEnv) (totpCode : Option String) : MfaTask MfaGate := do
  match ← mfaCall .userDirExists with
  | false => pure .skip
  | true =>
    match ← mfaCall .withUserDb with
    | .error (_ : String) => pure .skip
    | .ok () =>
      if unwrapOr (← mfaCall .getMfaSettings) false then pure .passkeyOnly
      else if unwrapOr (← mfaCall .isTotpEnrolled) false then totpGate env totpCode
      else pure .skip

def validateImapCredentials (body : LoginRequest) (server : EffectiveServerConfig) :
    MfaTask AuthResult :=
  mfaCall (.validateImap server.imapHost server.imapPort server.imapTls body.email body.password)

/-- A login without a second factor. -/
def loginPlain (env : MfaEnv) (config : AppConfig) (body : LoginRequest) : MfaTask HttpResponse :=
  match EffectiveServerConfig.build body config with
  | .error e => pure (serverConfigError e)
  | .ok server => do
    match ← validateImapCredentials body server with
    | .success => createLoginSession env body server config
    | .invalidCredentials => pure unauthorizedResponse
    | .serverUnreachable e => pure (serverUnreachableResponse e)

/-- A failed IMAP login of an enrolled account counts towards its lockout. -/
def countImapFailure : MfaTask Unit := do
  match ← mfaCall .withUserDb with
  | .error (_ : String) => pure ()
  | .ok () => do
    let _ ← incrementLockout 5 900
    pure ()

/-- The second factor, after the IMAP login. -/
def loginVerify (env : MfaEnv) (config : AppConfig) (body : LoginRequest)
    (server : EffectiveServerConfig) (secret code : String) : MfaTask HttpResponse := do
  match ← mfaCall .withUserDb with
  | .error (_ : String) => pure internalErrorResponse
  | .ok () =>
    match ← verifyAndRecord env secret code with
    | .ok true => createLoginSession env body server config
    | .ok false => pure unauthorizedResponse
    | .error _ => pure internalErrorResponse

/-- A login with a TOTP code. -/
def loginTotp (env : MfaEnv) (config : AppConfig) (body : LoginRequest) (secret code : String) :
    MfaTask HttpResponse :=
  match EffectiveServerConfig.build body config with
  | .error e => pure (serverConfigError e)
  | .ok server => do
    match ← validateImapCredentials body server with
    | .success => loginVerify env config body server secret code
    | .serverUnreachable e => do
      countImapFailure
      pure (serverUnreachableResponse e)
    | .invalidCredentials => do
      countImapFailure
      pure unauthorizedResponse

def login (env : MfaEnv) (config : AppConfig) (body : LoginRequest) : MfaTask HttpResponse := do
  if strTrim body.email = "" ∨ strTrim body.password = "" then
    pure (errorResponse 400 "BAD_REQUEST" "Email and password are required")
  else
    match ← mfaGate env body.totpCode with
    | .passkeyOnly => pure unauthorizedResponse
    | .lockedOut => pure unauthorizedResponse
    | .needsCode => pure ⟨200,Json.object [("mfa_required","true"),("mfa_type","\"totp\"")],[]⟩
    | .secretMissing => pure internalErrorResponse
    | .ready secret code => loginTotp env config body secret code
    | .skip => loginPlain env config body

end Rav
