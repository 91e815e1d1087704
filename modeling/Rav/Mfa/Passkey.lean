import Rav.DashMap
import Rav.Threads
import Rav.Json

/-!
# `mfa::passkey`

The passkey service: ceremonies begun wait in a map under their nonce until they are finished or
purged. Each method is a program whose calls are its reads of the clock and its operations on the
maps. What the code uses of the `webauthn_rs` crate is a parameter; the options sent to the
browser are left out.

## Main definitions

- `Webauthn` — what is used of the crate
- `PasskeyService`, `PasskeyServiceCall.serve` — the pending ceremonies, and the calls on them
- `PasskeyRequest.task` — the methods
-/

namespace Rav

/-- What the code uses of `webauthn_rs`, and of the formats around it; the number that starts a
ceremony is what its challenge is drawn from. -/
structure Webauthn where
  PasskeyRegistration : Type
  PasskeyAuthentication : Type
  RegisterPublicKeyCredential : Type
  PublicKeyCredential : Type
  Passkey : Type
  AuthenticationResult : Type
  /-- Whether RP_ID and RP_ORIGIN are set. -/
  configured : Bool
  decodeCredentialId : String → Option (List UInt8)
  startPasskeyRegistration (challenge : Nat) (userId userName displayName : String)
    (exclude : Option (List (List UInt8))) : Except String PasskeyRegistration
  startPasskeyAuthentication (challenge : Nat) (passkeys : List Passkey) :
    Except String PasskeyAuthentication
  registerCredential : Json.Value → Except String RegisterPublicKeyCredential
  publicKeyCredential : Json.Value → Except String PublicKeyCredential
  finishPasskeyRegistration :
    RegisterPublicKeyCredential → PasskeyRegistration → Except String Passkey
  finishPasskeyAuthentication :
    PublicKeyCredential → PasskeyAuthentication → Except String AuthenticationResult
  /-- The credential that was used, in base64url. -/
  credId : AuthenticationResult → String

variable {W : Webauthn}

/-- In-flight registration ceremony state. -/
structure PendingRegistration (W : Webauthn) where
  state : W.PasskeyRegistration
  prfSalt : List UInt8
  keyName : String
  createdAt : Int

/-- In-flight authentication ceremony state; a fake challenge has none. -/
structure PendingAuthentication (W : Webauthn) where
  state : Option W.PasskeyAuthentication
  email : String
  /-- The PRF salt of each enrolled key. -/
  credSalts : List (String × List UInt8)
  createdAt : Int

/-- The pending ceremonies, the clock in nanoseconds, and the nonces that are drawn. -/
structure PasskeyService (W : Webauthn) where
  pendingReg : DashMap String (PendingRegistration W)
  pendingAuth : DashMap String (PendingAuthentication W)
  now : Int
  nonces : Nat → String
  drawn : Nat

/-- How long a pending ceremony nonce stays valid: 300 seconds. -/
def ceremonyTtl : Int := 300000000000

/-! ### Calls -/

/-- A nonce is drawn as its ceremony is stored: nothing another call does depends on when it
is. -/
inductive PasskeyServiceCall (W : Webauthn)
  | instantNow
  | insertReg (p : PendingRegistration W)
  | insertAuth (p : PendingAuthentication W)
  | removeReg (nonce : String)
  | removeAuth (nonce : String)
  | retainReg (cutoff : Int)
  | retainAuth (cutoff : Int)

namespace PasskeyServiceCall

def Answer : PasskeyServiceCall W → Type
  | .instantNow => Int
  | .insertReg _ => String
  | .insertAuth _ => String
  | .removeReg _ => Option (PendingRegistration W)
  | .removeAuth _ => Option (PendingAuthentication W)
  | .retainReg _ => Unit
  | .retainAuth _ => Unit

/-- Answer one call. -/
def serve : (c : PasskeyServiceCall W) → PasskeyService W → c.Answer × PasskeyService W
  | .instantNow, w => (w.now,w)
  | .insertReg p, w =>
    let nonce := w.nonces w.drawn
    (nonce,{ w with pendingReg := w.pendingReg.insert nonce p, drawn := w.drawn + 1 })
  | .insertAuth p, w =>
    let nonce := w.nonces w.drawn
    (nonce,{ w with pendingAuth := w.pendingAuth.insert nonce p, drawn := w.drawn + 1 })
  | .removeReg nonce, w =>
    (w.pendingReg.get nonce,{ w with pendingReg := w.pendingReg.remove nonce })
  | .removeAuth nonce, w =>
    (w.pendingAuth.get nonce,{ w with pendingAuth := w.pendingAuth.remove nonce })
  | .retainReg cutoff, w =>
    let kept := w.pendingReg.retain (fun _ p => if p.createdAt > cutoff then some p else none)
    ((),{ w with pendingReg := kept })
  | .retainAuth cutoff, w =>
    let kept := w.pendingAuth.retain (fun _ p => if p.createdAt > cutoff then some p else none)
    ((),{ w with pendingAuth := kept })

end PasskeyServiceCall

/-! ### Methods -/

inductive PasskeyOutcome (W : Webauthn)
  | purged
  | begun (nonce : String)
  | registered (passkey : W.Passkey) (prfSalt : List UInt8) (keyName : String)
  | authenticated (result : W.AuthenticationResult) (prfSalt : List UInt8) (email : String)

abbrev PasskeyServiceTask (W : Webauthn) :=
  Prog (PasskeyServiceCall W) PasskeyServiceCall.Answer (Except String (PasskeyOutcome W))

def passkeyServiceCall (c : PasskeyServiceCall W) :
    Prog (PasskeyServiceCall W) PasskeyServiceCall.Answer c.Answer :=
  Prog.perform (R := PasskeyServiceCall.Answer) c

/-- Cleans out stale pending ceremonies older than `ceremonyTtl`. -/
def purgeStale : PasskeyServiceTask W := do
  let now : Int ← passkeyServiceCall .instantNow
  let cutoff := now - ceremonyTtl
  passkeyServiceCall (.retainReg cutoff)
  passkeyServiceCall (.retainAuth cutoff)
  pure (.ok .purged)

def beginRegistration (userId email keyName : String) (excludeCredIds : List String)
    (prfSalt : List UInt8) (challenge : Nat) : PasskeyServiceTask W :=
  if W.configured then
    let exclude := excludeCredIds.filterMap W.decodeCredentialId
    match W.startPasskeyRegistration challenge userId email email
        (if exclude.isEmpty then none else some exclude) with
    | .error e => pure (.error ("start_passkey_registration: " ++ e))
    | .ok state => do
      let now ← passkeyServiceCall .instantNow
      let nonce ← passkeyServiceCall (.insertReg ⟨state,prfSalt,keyName,now⟩)
      pure (.ok (.begun nonce))
  else pure (.error "Passkeys not configured")

/-- What `finish_registration` does with the ceremony it has taken out. -/
def completeRegistration (credential : Json.Value) (pending : PendingRegistration W) :
    Except String (PasskeyOutcome W) :=
  if W.configured then
    match W.registerCredential credential with
    | .error e => .error ("Invalid credential JSON: " ++ e)
    | .ok c =>
      match W.finishPasskeyRegistration c pending.state with
      | .error e => .error ("finish_passkey_registration: " ++ e)
      | .ok passkey => .ok (.registered passkey pending.prfSalt pending.keyName)
  else .error "Passkeys not configured"

def finishRegistration (nonce : String) (credential : Json.Value) : PasskeyServiceTask W := do
  match ← passkeyServiceCall (.removeReg nonce) with
  | none => pure (.error "Ceremony expired or nonce invalid")
  | some (pending : PendingRegistration W) => pure (completeRegistration credential pending)

def beginAuthentication (email : String) (passkeys : List W.Passkey)
    (credSalts : List (String × List UInt8)) (challenge : Nat) : PasskeyServiceTask W :=
  if W.configured then
    match W.startPasskeyAuthentication challenge passkeys with
    | .error e => pure (.error ("start_passkey_authentication: " ++ e))
    | .ok state => do
      let now ← passkeyServiceCall .instantNow
      let nonce ← passkeyServiceCall (.insertAuth ⟨some state,email,credSalts,now⟩)
      pure (.ok (.begun nonce))
  else pure (.error "Passkeys not configured")

/-- Begin a fake authentication ceremony: the stored state is `none`. -/
def beginAuthenticationFake (email : String) : PasskeyServiceTask W := do
  let now ← passkeyServiceCall .instantNow
  let nonce ← passkeyServiceCall (.insertAuth ⟨none,email,[],now⟩)
  pure (.ok (.begun nonce))

/-- What `finish_authentication` does with the ceremony it has taken out. -/
def completeAuthentication (credential : Json.Value) (pending : PendingAuthentication W) :
    Except String (PasskeyOutcome W) :=
  match pending.state with
  -- a fake challenge is rejected without saying why
  | none => .error "Authentication failed"
  | some state =>
    if W.configured then
      match W.publicKeyCredential credential with
      | .error e => .error ("Invalid credential JSON: " ++ e)
      | .ok c =>
        match W.finishPasskeyAuthentication c state with
        | .error e => .error ("finish_passkey_authentication: " ++ e)
        | .ok result =>
          match pending.credSalts.lookup (W.credId result) with
          | none => .error "No PRF salt found for this credential"
          | some salt => .ok (.authenticated result salt pending.email)
    else .error "Passkeys not configured"

def finishAuthentication (nonce : String) (credential : Json.Value) : PasskeyServiceTask W := do
  match ← passkeyServiceCall (.removeAuth nonce) with
  | none => pure (.error "Ceremony expired or nonce invalid")
  | some (pending : PendingAuthentication W) => pure (completeAuthentication credential pending)

/-- A call of a method. -/
inductive PasskeyRequest (W : Webauthn)
  | purgeStale
  | beginRegistration (userId email keyName : String) (excludeCredIds : List String)
      (prfSalt : List UInt8) (challenge : Nat)
  | finishRegistration (nonce : String) (credential : Json.Value)
  | beginAuthentication (email : String) (passkeys : List W.Passkey)
      (credSalts : List (String × List UInt8)) (challenge : Nat)
  | beginAuthenticationFake (email : String)
  | finishAuthentication (nonce : String) (credential : Json.Value)

def PasskeyRequest.task : PasskeyRequest W → PasskeyServiceTask W
  | .purgeStale => Rav.purgeStale
  | .beginRegistration userId email keyName excludeCredIds prfSalt challenge =>
    Rav.beginRegistration userId email keyName excludeCredIds prfSalt challenge
  | .finishRegistration nonce credential => Rav.finishRegistration nonce credential
  | .beginAuthentication email passkeys credSalts challenge =>
    Rav.beginAuthentication email passkeys credSalts challenge
  | .beginAuthenticationFake email => Rav.beginAuthenticationFake email
  | .finishAuthentication nonce credential => Rav.finishAuthentication nonce credential

end Rav
