import Rav.Table
import Rav.Prog
import Rav.Str
import Rav.Auth.Session

/-!
# Requests that deal with the second factor

The tables of `db::mfa` and the statements on them, and the requests of one account as programs whose
calls are single statements on the account's database, the clock, random draws, the IMAP login and the
session store. `mfa_totp`, `mfa_lockout` and `mfa_settings` hold at most one row; the migrations insert
that of the last two. Timestamps are seconds since the epoch, and `now` is the `unixepoch()` of a
statement. The TOTP library, the AES-GCM cipher and the hashes are parameters.

## Main definitions

- `MfaDb` — the tables
- `MfaDb.getTotpSecret`, `upsertTotpSecret`, `isStepUsed`, `recordUsedStep`, `pruneUsedSteps`,
  `checkLockout`, `bumpFailures`, `lockUntil`, `resetLockout` — the statements
- `MfaEnv` — the libraries
- `MfaCall`, `MfaTask` — the calls, and programs making them
- `MfaWorld`, `MfaWeather`, `MfaEnv.serve` — the state, its disturbances, the answer to one call
-/

namespace Rav

/-- An AES-GCM ciphertext and its nonce. -/
structure EncryptedSecret where
  encryptedSecret : List UInt8
  nonce : List UInt8
  deriving DecidableEq, Repr

/-- A consumed time step. -/
structure UsedStep where
  step : Nat
  usedAt : Nat
  deriving DecidableEq, Repr

structure MfaLockout where
  failedCount : Nat
  lockedUntil : Option Nat
  lastFailure : Option Nat
  deriving DecidableEq, Repr

structure MfaDb where
  totp : Option EncryptedSecret
  usedSteps : Table UsedStep.step
  lockout : MfaLockout
  passkeyOnly : Bool

namespace MfaDb

variable (db : MfaDb)

def isTotpEnrolled : Bool := db.totp.isSome

/-- The encrypted secret and nonce, if one is enrolled. -/
def getTotpSecret : Option EncryptedSecret := db.totp

/-- Store (or replace) the encrypted secret. -/
def upsertTotpSecret (secret : EncryptedSecret) : MfaDb := { db with totp := some secret }

/-- `DELETE FROM mfa_totp`, the first statement of `delete_totp`. -/
def deleteTotpRow : MfaDb := { db with totp := none }

/-- `DELETE FROM mfa_totp_used_steps`, its second. -/
def deleteUsedSteps : MfaDb := { db with usedSteps := .empty }

def isStepUsed (step : Nat) : Bool := (db.usedSteps.find? step).isSome

/-- `INSERT OR IGNORE`: a step that is there already stays, and nobody is told. -/
def recordUsedStep (step now : Nat) : MfaDb :=
  { db with usedSteps := db.usedSteps.insertOrIgnore ⟨step,now⟩ }

def pruneUsedSteps (cutoff : Nat) : MfaDb :=
  { db with usedSteps := db.usedSteps.deleteWhere (fun r => r.usedAt < cutoff) }

/-- Whether `locked_until` is in the future. -/
def checkLockout (now : Nat) : Bool :=
  (db.lockout.lockedUntil.map (fun t => decide (t > now))).getD false

/-- The first statement of `increment_lockout`, returning the new count. -/
def bumpFailures (now : Nat) : Nat × MfaDb :=
  (db.lockout.failedCount + 1,
    { db with lockout := { db.lockout with
        failedCount := db.lockout.failedCount + 1, lastFailure := some now } })

/-- The second statement of `increment_lockout`. -/
def lockUntil (time : Nat) : MfaDb :=
  { db with lockout := { db.lockout with lockedUntil := some time } }

def resetLockout : MfaDb := { db with lockout := ⟨0,none,none⟩ }

end MfaDb

end Rav

namespace Rav

/-- The libraries the requests use. -/
structure MfaEnv where
  /-- `Secret::Encoded(secret).to_bytes()` and `TOTP::new`. -/
  totpInit : String → Except String Unit
  /-- `TOTP::generate` for a secret at a time. -/
  totpGenerate : String → Nat → String
  /-- `TOTP::get_url` for a secret, an account and an issuer. -/
  totpUrl : String → String → String → String
  /-- `Aes256Gcm::encrypt` under the server's key, of a nonce and a plaintext. -/
  aesEncrypt : List UInt8 → List UInt8 → Except String (List UInt8)
  /-- `Aes256Gcm::decrypt` under the server's key, of a nonce and a ciphertext. -/
  aesDecrypt : List UInt8 → List UInt8 → Option (List UInt8)
  hmacSha256 : String → String → List UInt8
  hashEmail : String → String

/-- The result of an IMAP login. -/
inductive AuthResult
  | success
  | invalidCredentials
  | serverUnreachable (e : String)
  deriving DecidableEq, Repr

/-- Status, body and `set-cookie` headers of a JSON response. -/
structure HttpResponse where
  status : Nat
  body : String
  setCookie : List String
  deriving DecidableEq, Repr

/-- The calls. `compare` holds a code against what the library generates around a time; in
`resetLockout`, `step` names the time step the reset is for. -/
inductive MfaCall
  | userDirExists
  | withUserDb
  | systemTime
  | getMfaSettings
  | isTotpEnrolled
  | getTotpSecret
  | checkLockout (now : Nat)
  | pruneUsedSteps (cutoff : Nat)
  | compare (secret code : String) (now : Nat)
  | isStepUsed (step : Nat)
  | recordUsedStep (step : Nat)
  | resetLockout (step : Nat)
  | bumpFailures
  | lockFor (secs : Nat)
  | drawSecret
  | drawNonce
  | upsertTotpSecret (secret : EncryptedSecret)
  | deleteTotpRow
  | deleteUsedSteps
  | clearLockout
  | validateImap (host : String) (port : UInt16) (tls : Bool) (email password : String)
  | provisionUserData (userHash : String)
  | getBrowserAccounts (browserId : BrowserId)
  | ensureIdentity (email : String)
  | createBrowser
  | addAccountToBrowser (browserId : BrowserId) (email password userHash : String)
      (imap smtp : ServerEndpoint)

def MfaCall.Answer : MfaCall → Type
  | .userDirExists => Bool
  | .withUserDb => Except String Unit
  | .systemTime => Except String Nat
  | .getMfaSettings => Except String Bool
  | .isTotpEnrolled => Except String Bool
  | .getTotpSecret => Except String (Option EncryptedSecret)
  | .checkLockout _ => Except String Bool
  | .pruneUsedSteps _ => Except String Unit
  | .compare _ _ _ => Option Nat
  | .isStepUsed _ => Except String Bool
  | .recordUsedStep _ => Except String Unit
  | .resetLockout _ => Except String Unit
  | .bumpFailures => Except String Nat
  | .lockFor _ => Except String Unit
  | .drawSecret => Except String String
  | .drawNonce => List UInt8
  | .upsertTotpSecret _ => Except String Unit
  | .deleteTotpRow => Except String Unit
  | .deleteUsedSteps => Except String Unit
  | .clearLockout => Except String Unit
  | .validateImap _ _ _ _ _ => AuthResult
  | .provisionUserData _ => Except String Unit
  | .getBrowserAccounts _ => List AccountSession
  | .ensureIdentity _ => Unit
  | .createBrowser => BrowserId
  | .addAccountToBrowser _ _ _ _ _ _ => SessionId × AccountId

abbrev MfaTask := Prog MfaCall MfaCall.Answer

def mfaCall (c : MfaCall) : MfaTask c.Answer := Prog.perform (R := MfaCall.Answer) c

/-- What is on record of an account: wrong codes, accepted time steps, lockouts that have run
out, sessions created. -/
inductive MfaRecord
  | wrongCode
  | accepted (step : Nat)
  | expired
  | session (accountId : AccountId)
  deriving DecidableEq, Repr

/-- The account's data directory and database, the clock, the session store and the records. -/
structure MfaWorld where
  userDir : Bool
  db : MfaDb
  now : Nat
  store : SessionStore
  log : List MfaRecord

/-- What a call meets: an error, the answer of the IMAP server, what is drawn at random. -/
structure MfaWeather where
  fails : Option String
  imap : AuthResult
  token : SessionId
  id : String
  secret : String
  nonce : List UInt8

/-- A call that may fail. -/
def MfaWeather.run {α : Type} (weather : MfaWeather) (w : MfaWorld) (f : α × MfaWorld) :
    Except String α × MfaWorld :=
  match weather.fails with
  | some e => (.error e,w)
  | none => (.ok f.1,f.2)

namespace MfaWeather

variable {weather : MfaWeather} {w : MfaWorld}

theorem run_world {α : Type} (weather : MfaWeather) (w : MfaWorld) (f : α × MfaWorld) :
    (weather.run w f).2 = w ∨ weather.fails = none ∧ weather.run w f = (.ok f.1,f.2) := by
  unfold run
  cases weather.fails with
  | some e => exact Or.inl rfl
  | none => exact Or.inr ⟨rfl,rfl⟩

theorem run_none {α : Type} {f : α × MfaWorld} (h : weather.fails = none) :
    weather.run w f = (.ok f.1,f.2) := by
  unfold run
  rw [h]

theorem run_some {α : Type} {f : α × MfaWorld} {e : String}
    (h : weather.fails = some e) : weather.run w f = (.error e,w) := by
  unfold run
  rw [h]

theorem run_ok {α : Type} {f : α × MfaWorld} {a : α}
    (h : (weather.run w f).1 = .ok a) :
    weather.fails = none ∧ a = f.1 ∧ (weather.run w f).2 = f.2 := by
  unfold run at h ⊢
  cases hf : weather.fails with
  | some e => simp [hf] at h
  | none => exact ⟨rfl,by simpa [hf] using h.symm,rfl⟩

end MfaWeather

/-! ### The TOTP library -/

def totpStep : Nat := 30

/-- Comparison without an early exit. -/
def constantEq (a b : String) : Bool :=
  let a := a.toUTF8.data.toList
  let b := b.toUTF8.data.toList
  if a.length ≠ b.length then false
  else (a.zip b).foldl (fun acc p => acc ||| (p.1 ^^^ p.2)) 0 == 0

/-- The first time step around `now` whose code is the given one. -/
def MfaEnv.matchingStep (env : MfaEnv) (secret code : String) (now : Nat) : Option Nat :=
  let currentStep := now / totpStep
  [-1,0,1].findSome? (fun offset =>
    let checkStep := (currentStep + offset : Int).toNat
    let expected := env.totpGenerate secret (checkStep * totpStep)
    if constantEq (strTrim code) expected then some checkStep else none)

/-- Answer one call. -/
def MfaEnv.serve (env : MfaEnv) (weather : MfaWeather) :
    (c : MfaCall) → MfaWorld → c.Answer × MfaWorld
  -- `Path::exists` answers false when it cannot tell
  | .userDirExists, w => (w.userDir && weather.fails.isNone,w)
  | .withUserDb, w => weather.run w ((),w)
  | .systemTime, w => weather.run w (w.now,w)
  | .getMfaSettings, w => weather.run w (w.db.passkeyOnly,w)
  | .isTotpEnrolled, w => weather.run w (w.db.isTotpEnrolled,w)
  | .getTotpSecret, w => weather.run w (w.db.getTotpSecret,w)
  | .checkLockout now, w => weather.run w (w.db.checkLockout now,w)
  | .pruneUsedSteps cutoff, w => weather.run w ((),{ w with db := w.db.pruneUsedSteps cutoff })
  | .compare secret code now, w =>
    match env.matchingStep secret code now with
    | some step => (some step,w)
    | none => (none,{ w with log := w.log ++ [.wrongCode] })
  | .isStepUsed step, w => weather.run w (w.db.isStepUsed step,w)
  | .recordUsedStep step, w => weather.run w ((),{ w with db := w.db.recordUsedStep step w.now })
  | .resetLockout step, w =>
    weather.run w ((),{ w with db := w.db.resetLockout, log := w.log ++ [.accepted step] })
  | .bumpFailures, w =>
    weather.run w ((w.db.bumpFailures w.now).1,{ w with db := (w.db.bumpFailures w.now).2 })
  | .lockFor secs, w => weather.run w ((),{ w with db := w.db.lockUntil (w.now + secs) })
  | .drawSecret, w => weather.run w (weather.secret,w)
  | .drawNonce, w => (weather.nonce,w)
  | .upsertTotpSecret secret, w => weather.run w ((),{ w with db := w.db.upsertTotpSecret secret })
  | .deleteTotpRow, w => weather.run w ((),{ w with db := w.db.deleteTotpRow })
  | .deleteUsedSteps, w => weather.run w ((),{ w with db := w.db.deleteUsedSteps })
  | .clearLockout, w => weather.run w ((),{ w with db := w.db.resetLockout })
  | .validateImap _ _ _ _ _, w => (weather.imap,w)
  | .provisionUserData _, w => weather.run w ((),{ w with userDir := true })
  | .getBrowserAccounts browserId, w => (w.store.getBrowserAccounts browserId,w)
  | .ensureIdentity _, w => ((),w)
  | .createBrowser, w => (weather.id,{ w with store := w.store.createBrowser weather.id })
  | .addAccountToBrowser browserId email password userHash imap smtp, w =>
    ((weather.token,weather.id),{ w with
      store := w.store.addAccountToBrowser env.hmacSha256 weather.token weather.id w.now browserId
        email password userHash imap smtp
      log := w.log ++ [.session weather.id] })

/-! ### A request alone -/

/-- Answer the calls of one request in turn, each under its own weather. -/
def MfaEnv.serveNth (env : MfaEnv) (weathers : Nat → MfaWeather) (c : MfaCall)
    (s : MfaWorld × Nat) : c.Answer × (MfaWorld × Nat) :=
  let r := env.serve (weathers s.2) c s.1
  (r.1,(r.2,s.2 + 1))

/-- A whole request, with no other in between. -/
def MfaTask.exec {α : Type} (env : MfaEnv) (weathers : Nat → MfaWeather) (t : MfaTask α)
    (w : MfaWorld) : α × MfaWorld :=
  let r := t.run (env.serveNth weathers) (w,0)
  (r.1,r.2.1)

end Rav
