import Rav.Threads
import Rav.Runs
import Rav.Routes.Mfa
import Mathlib.Algebra.Group.Nat.Defs

/-!
# Requests in progress

Logins and requests to disable TOTP over one account, interleaved call by call. A request's
stance says how far it has come with a code: a code is checked, recorded and accepted by three
statements, and a wrong one is counted by up to two.

## Main definitions

- `MfaStance`, with `next` and `Allows` — how far a request has come, and what it may do next
- `MfaSystem`, `MfaEvent`, `MfaSystem.step` — requests in progress over an account
-/

namespace Rav

/-- How far a request has come: `t` is the time it has read, `a` the time step of its code. -/
inductive MfaStance
  | fresh
  | loaded
  | timed (t : Nat)
  | matched (t a : Nat)
  | checked (t a : Nat)
  | recorded (a : Nat)
  | failed
  | counted
  | done
  | unenrolled
  deriving DecidableEq

namespace MfaStance

def next : MfaStance → (c : MfaCall) → c.Answer → MfaStance
  | .fresh, .getTotpSecret, .ok (some _) => .loaded
  | .loaded, .systemTime, .ok (t : Nat) => .timed t
  | .timed _, .checkLockout _, _ => .loaded
  | .timed t, .compare _ _ _, some (a : Nat) => .matched t a
  | .timed _, .compare _ _ _, none => .failed
  | .matched t a, .isStepUsed _, .ok false => .checked t a
  | .checked _ a, .recordUsedStep _, .ok _ => .recorded a
  | .recorded _, .resetLockout _, .ok _ => .done
  | .failed, .bumpFailures, .ok (n : Nat) => if n ≥ maxFailures then .counted else .done
  | .counted, .lockFor _, .ok _ => .done
  | .done, .deleteTotpRow, .ok _ => .unenrolled
  | g, _, _ => g

/-- What a request does with the second factor, it does at its stance; only some requests are
for disabling it. -/
def Allows (disabling : Prop) : MfaStance → MfaCall → Prop
  | g, .getTotpSecret => g = .fresh
  | g, .systemTime => g = .fresh ∨ g = .loaded
  | g, .checkLockout t => g = .fresh ∨ g = .timed t
  | g, .pruneUsedSteps cutoff => ∃ t, g = .timed t ∧ cutoff = t - 300
  | g, .compare _ _ t => g = .timed t
  | g, .isStepUsed a => ∃ t, g = .matched t a
  | g, .recordUsedStep a => ∃ t, g = .checked t a
  | g, .resetLockout a => g = .recorded a
  | g, .bumpFailures => g = .loaded ∨ g = .failed
  | g, .lockFor secs => (g = .loaded ∨ g = .counted) ∧ 0 < secs
  | g, .deleteTotpRow => disabling ∧ g = .done
  | g, .deleteUsedSteps => disabling ∧ g = .unenrolled
  | g, .clearLockout => disabling ∧ g = .unenrolled
  | _, .upsertTotpSecret _ => False
  | _, _ => True

/-- The answers that move a request on. -/
inductive Moves : MfaStance → (c : MfaCall) → c.Answer → MfaStance → Prop
  | load (s : EncryptedSecret) : Moves .fresh .getTotpSecret (.ok (some s)) .loaded
  | read (t : Nat) : Moves .loaded .systemTime (.ok t) (.timed t)
  | look (t : Nat) (r : Except String Bool) : Moves (.timed t) (.checkLockout t) r .loaded
  | hit (t a : Nat) (secret code : String) :
      Moves (.timed t) (.compare secret code t) (some a) (.matched t a)
  | miss (t : Nat) (secret code : String) :
      Moves (.timed t) (.compare secret code t) none .failed
  | check (t a : Nat) : Moves (.matched t a) (.isStepUsed a) (.ok false) (.checked t a)
  | record (t a : Nat) : Moves (.checked t a) (.recordUsedStep a) (.ok ()) (.recorded a)
  | accept (a : Nat) : Moves (.recorded a) (.resetLockout a) (.ok ()) .done
  | count (n : Nat) (hn : n ≥ maxFailures) : Moves .failed .bumpFailures (.ok n) .counted
  | spare (n : Nat) (hn : ¬n ≥ maxFailures) : Moves .failed .bumpFailures (.ok n) .done
  | lock (secs : Nat) : Moves .counted (.lockFor secs) (.ok ()) .done
  | unenrol : Moves .done .deleteTotpRow (.ok ()) .unenrolled

/-- A call a request is allowed to make moves it on, or leaves its stance. -/
theorem next_cases {d : Prop} {g : MfaStance} {c : MfaCall} (hok : Allows d g c)
    (r : c.Answer) :
    g.next c r = g ∨ Moves g c r (g.next c r) := by
  cases c with
  | getTotpSecret =>
    obtain rfl : g = .fresh := hok
    rcases r with e | _ | s
    · exact Or.inl rfl
    · exact Or.inl rfl
    · exact Or.inr (.load s)
  | systemTime =>
    rcases hok with rfl | rfl
    · exact Or.inl rfl
    · rcases r with e | t
      · exact Or.inl rfl
      · exact Or.inr (.read t)
  | checkLockout t =>
    rcases hok with rfl | rfl
    · exact Or.inl rfl
    · exact Or.inr (.look t r)
  | compare secret code t =>
    obtain rfl : g = .timed t := hok
    rcases r with _ | a
    · exact Or.inr (.miss t secret code)
    · exact Or.inr (.hit t a secret code)
  | isStepUsed a =>
    obtain ⟨t,rfl⟩ := hok
    rcases r with e | used
    · exact Or.inl rfl
    · cases used with
      | true => exact Or.inl rfl
      | false => exact Or.inr (.check t a)
  | recordUsedStep a =>
    obtain ⟨t,rfl⟩ := hok
    rcases r with e | _
    · exact Or.inl rfl
    · exact Or.inr (.record t a)
  | resetLockout a =>
    obtain rfl : g = .recorded a := hok
    rcases r with e | _
    · exact Or.inl rfl
    · exact Or.inr (.accept a)
  | bumpFailures =>
    rcases hok with rfl | rfl
    · exact Or.inl rfl
    · rcases r with e | n
      · exact Or.inl rfl
      · by_cases hn : n ≥ maxFailures
        · have hg : next .failed .bumpFailures (.ok n) = .counted := if_pos hn
          exact Or.inr (hg.symm ▸ .count n hn)
        · have hg : next .failed .bumpFailures (.ok n) = .done := if_neg hn
          exact Or.inr (hg.symm ▸ .spare n hn)
  | lockFor secs =>
    rcases hok.1 with rfl | rfl
    · exact Or.inl rfl
    · rcases r with e | _
      · exact Or.inl rfl
      · exact Or.inr (.lock secs)
  | deleteTotpRow =>
    obtain rfl : g = .done := hok.2
    rcases r with e | _
    · exact Or.inl rfl
    · exact Or.inr .unenrol
  | upsertTotpSecret s => exact hok.elim
  | _ => exact Or.inl (by cases g <;> rfl)

end MfaStance

/-- A request keeps to what its stance allows. -/
abbrev Observes {α : Type} (disabling : Prop) (Q : MfaStance → α → Prop) (g : MfaStance)
    (t : MfaTask α) : Prop :=
  t.Follows (MfaStance.Allows disabling) MfaStance.next Q g

/-! ### What each function may do -/

section Functions

variable {d : Prop}

theorem observes_isLockedOut_fresh : Observes d (fun g _ => g = .fresh) .fresh isLockedOut := by
  refine Prog.Follows.perform_bind (Or.inl rfl) (fun r => ?_)
  rcases r with e | t
  · exact rfl
  · exact ⟨Or.inl rfl,fun r => rfl⟩

theorem observes_isLockedOut_loaded : Observes d (fun g _ => g = .loaded) .loaded isLockedOut := by
  refine Prog.Follows.perform_bind (Or.inr rfl) (fun r => ?_)
  rcases r with e | t
  · exact rfl
  · exact ⟨Or.inr rfl,fun r => rfl⟩

theorem observes_countFailure : Observes d (fun _ _ => True) .loaded (incrementLockout 5 900) := by
  refine Prog.Follows.perform_bind (Or.inl rfl) (fun r => ?_)
  rcases r with e | n
  · trivial
  · refine Prog.Follows.ite (fun _ => ?_) (fun _ => trivial)
    exact ⟨⟨Or.inl rfl,by decide⟩,fun r => trivial⟩

/-- A verified code leaves its request done. -/
abbrev VerifiedDone (g : MfaStance) (r : Except String Bool) : Prop := r = .ok true → g = .done

theorem observes_acceptStep (t a : Nat) : Observes d VerifiedDone (.matched t a) (acceptStep a) := by
  refine Prog.Follows.perform_bind ⟨t,rfl⟩ (fun r => ?_)
  rcases r with e | used
  · exact nofun
  · cases used with
    | true => exact nofun
    | false =>
      refine Prog.Follows.perform_bind ⟨t,rfl⟩ (fun r => ?_)
      rcases r with e | _
      · exact nofun
      · refine Prog.Follows.perform_bind rfl (fun r => ?_)
        rcases r with e | _
        · exact nofun
        · exact fun _ => rfl

theorem observes_rejectCode : Observes d VerifiedDone .failed rejectCode := by
  refine Prog.Follows.bind (Q := fun _ _ => True) ?_ (fun g r _ => ?_)
  · refine Prog.Follows.perform_bind (Or.inr rfl) (fun r => ?_)
    rcases r with e | n
    · trivial
    · refine Prog.Follows.ite (fun hn => ?_) (fun _ => trivial)
      have hg : MfaStance.next .failed .bumpFailures (.ok n) = .counted := if_pos hn
      exact ⟨⟨Or.inr hg,by decide⟩,fun r => trivial⟩
  · rcases r with e | _ <;> exact nofun

theorem observes_verifyAndRecord (env : MfaEnv) (secret code : String) :
    Observes d VerifiedDone .loaded (verifyAndRecord env secret code) := by
  unfold verifyAndRecord
  split
  · exact nofun
  · refine Prog.Follows.perform_bind (Or.inr rfl) (fun r => ?_)
    rcases r with e | now
    · exact nofun
    · refine Prog.Follows.perform_bind ⟨now,rfl,rfl⟩ (fun r => ?_)
      rcases r with e | _
      · exact nofun
      · refine Prog.Follows.perform_bind rfl (fun r => ?_)
        rcases r with _ | a
        · exact observes_rejectCode
        · exact observes_acceptStep now a

/-- The calls of a login that have nothing to do with its code. -/
def MfaCall.Plain : MfaCall → Prop
  | .userDirExists => True
  | .withUserDb => True
  | .getMfaSettings => True
  | .isTotpEnrolled => True
  | .validateImap _ _ _ _ _ => True
  | .provisionUserData _ => True
  | .getBrowserAccounts _ => True
  | .ensureIdentity _ => True
  | .createBrowser => True
  | .addAccountToBrowser _ _ _ _ _ _ => True
  | _ => False

theorem MfaCall.Plain.allowed {c : MfaCall} (g : MfaStance) (h : c.Plain) :
    MfaStance.Allows d g c := by
  cases c <;> trivial

section Login

variable (env : MfaEnv) (config : AppConfig) (body : LoginRequest)

theorem plain_browserOf : (browserOf body).All MfaCall.Plain := by
  unfold browserOf
  cases body.browserId with
  | some id => trivial
  | none => exact Prog.all_perform trivial

theorem plain_openSession (server : EffectiveServerConfig) :
    (openSession env body server config).All MfaCall.Plain := by
  refine Prog.AllWhere.perform_bind trivial (fun _ _ => ?_)
  refine (plain_browserOf body).bind (fun id => ?_)
  exact Prog.AllWhere.perform_bind trivial (fun _ _ => trivial)

theorem plain_isDuplicate (server : EffectiveServerConfig) :
    (isDuplicate body server).All MfaCall.Plain := by
  unfold isDuplicate
  cases body.browserId with
  | none => exact trivial
  | some id => exact Prog.AllWhere.perform_bind trivial (fun _ _ => trivial)

theorem plain_createLoginSession (server : EffectiveServerConfig) :
    (createLoginSession env body server config).All MfaCall.Plain := by
  refine Prog.AllWhere.perform_bind trivial (fun r _ => ?_)
  rcases r with e | _
  · trivial
  · refine (plain_isDuplicate body server).bind (fun duplicate => ?_)
    cases duplicate with
    | true => exact trivial
    | false => exact plain_openSession env config body server

theorem observes_createLoginSession (g : MfaStance) (server : EffectiveServerConfig) :
    Observes d (fun _ _ => True) g (createLoginSession env body server config) :=
  Prog.Follows.of_all (plain_createLoginSession env config body server)
    (fun g _ hc => MfaCall.Plain.allowed g hc)

theorem observes_loadTotpSecret :
    Observes d (fun g r => r.isSome → g = .loaded) .fresh (loadTotpSecret env) := by
  refine Prog.Follows.perform_bind rfl (fun r => ?_)
  rcases r with e | _ | s
  · exact nofun
  · exact nofun
  · exact fun _ => rfl

/-- A gate that lets a code pass has loaded the secret. -/
abbrev ReadyLoaded (g : MfaStance) (gate : MfaGate) : Prop :=
  ∀ secret code, gate = .ready secret code → g = .loaded

theorem observes_totpGate (code : Option String) :
    Observes d ReadyLoaded .fresh (totpGate env code) := by
  cases code with
  | none => exact nofun
  | some code =>
    refine observes_isLockedOut_fresh.bind (fun g locked hg => ?_)
    rw [hg]
    refine Prog.Follows.ite (fun _ => nofun) (fun _ => ?_)
    refine (observes_loadTotpSecret env).bind (fun g r hr => ?_)
    cases r with
    | none => exact nofun
    | some secret => exact fun _ _ _ => hr rfl

theorem observes_mfaGate (code : Option String) :
    Observes d ReadyLoaded .fresh (mfaGate env code) := by
  refine Prog.Follows.perform_bind trivial (fun b => ?_)
  cases b with
  | false => exact nofun
  | true =>
    refine Prog.Follows.perform_bind trivial (fun r => ?_)
    rcases r with e | _
    · exact nofun
    · refine Prog.Follows.perform_bind trivial (fun r => ?_)
      refine Prog.Follows.ite (fun _ => nofun) (fun _ => ?_)
      refine Prog.Follows.perform_bind trivial (fun r => ?_)
      exact Prog.Follows.ite (fun _ => observes_totpGate env code) (fun _ => nofun)

theorem observes_loginPlain (g : MfaStance) :
    Observes d (fun _ _ => True) g (loginPlain env config body) := by
  unfold loginPlain
  split
  · trivial
  · next server _ =>
    refine Prog.Follows.perform_bind trivial (fun r => ?_)
    cases r with
    | success => exact observes_createLoginSession env config body _ server
    | invalidCredentials => trivial
    | serverUnreachable e => trivial

theorem observes_countImapFailure : Observes d (fun _ _ => True) .loaded countImapFailure := by
  refine Prog.Follows.perform_bind trivial (fun r => ?_)
  rcases r with e | _
  · trivial
  · exact observes_countFailure.bind (fun _ _ _ => trivial)

theorem observes_loginVerify (server : EffectiveServerConfig) (secret code : String) :
    Observes d (fun _ _ => True) .loaded (loginVerify env config body server secret code) := by
  refine Prog.Follows.perform_bind trivial (fun r => ?_)
  rcases r with e | _
  · trivial
  · refine (observes_verifyAndRecord env secret code).bind (fun g r _ => ?_)
    rcases r with e | valid
    · trivial
    · cases valid with
      | false => trivial
      | true => exact observes_createLoginSession env config body g server

theorem observes_loginTotp (secret code : String) :
    Observes d (fun _ _ => True) .loaded (loginTotp env config body secret code) := by
  unfold loginTotp
  split
  · trivial
  · next server _ =>
    refine Prog.Follows.perform_bind trivial (fun r => ?_)
    cases r with
    | success => exact observes_loginVerify env config body server secret code
    | invalidCredentials => exact observes_countImapFailure.bind (fun _ _ _ => trivial)
    | serverUnreachable e => exact observes_countImapFailure.bind (fun _ _ _ => trivial)

theorem observes_login : Observes d (fun _ _ => True) .fresh (login env config body) := by
  refine Prog.Follows.ite (fun _ => trivial) (fun _ => ?_)
  refine (observes_mfaGate env body.totpCode).bind (fun g gate hg => ?_)
  cases gate with
  | ready secret code =>
    rw [hg secret code rfl]
    exact observes_loginTotp env config body secret code
  | skip => exact observes_loginPlain env config body g
  | passkeyOnly => trivial
  | needsCode => trivial
  | lockedOut => trivial
  | secretMissing => trivial

end Login

section Disable

variable (env : MfaEnv)

theorem observes_verifyAndDelete (secret code : String) :
    Observes True (fun _ _ => True) .loaded (verifyAndDelete env secret code) := by
  refine (observes_verifyAndRecord env secret code).bind (fun g r hg => ?_)
  rcases r with e | valid
  · trivial
  · cases valid with
    | false => trivial
    | true =>
      rw [hg rfl]
      refine Prog.Follows.bind (Q := fun _ _ => True) ?_ (fun g r _ => ?_)
      · refine Prog.Follows.perform_bind ⟨trivial,rfl⟩ (fun r => ?_)
        rcases r with e | _
        · trivial
        · refine Prog.Follows.perform_bind ⟨trivial,rfl⟩ (fun r => ?_)
          rcases r with e | _
          · trivial
          · exact ⟨⟨trivial,rfl⟩,fun _ => trivial⟩
      · rcases r with e | _ <;> trivial

theorem observes_deleteStored (stored : EncryptedSecret) (code : String) :
    Observes True (fun _ _ => True) .loaded (deleteStored env stored code) := by
  unfold deleteStored
  split
  · trivial
  · next secret _ =>
    refine observes_isLockedOut_loaded.bind (fun g locked hg => ?_)
    rw [hg]
    exact Prog.Follows.ite (fun _ => trivial) (fun _ => observes_verifyAndDelete env secret code)

theorem observes_totpDelete (code : String) :
    Observes True (fun _ _ => True) .fresh (totpDelete env code) := by
  refine Prog.Follows.ite (fun _ => trivial) (fun _ => ?_)
  refine Prog.Follows.perform_bind trivial (fun r => ?_)
  rcases r with e | _
  · trivial
  · refine Prog.Follows.perform_bind rfl (fun r => ?_)
    rcases r with e | _ | stored
    · trivial
    · trivial
    · exact observes_deleteStored env stored code

end Disable

end Functions

/-! ### The system -/

/-- Time passes; a lockout that runs out meanwhile goes on record. -/
def MfaWorld.tick (w : MfaWorld) (secs : Nat) : MfaWorld :=
  if w.db.checkLockout w.now && !w.db.checkLockout (w.now + secs) then
    { w with now := w.now + secs, log := w.log ++ [.expired] }
  else { w with now := w.now + secs }

abbrev MfaSystem := Threads MfaStance MfaWorld MfaCall MfaCall.Answer HttpResponse

inductive MfaEvent
  | login (body : LoginRequest)
  | disable (code : String)
  | tick (secs : Nat)
  | call (i : Nat) (weather : MfaWeather)

namespace MfaSystem

/-- One event. -/
def step (env : MfaEnv) (config : AppConfig) (s : MfaSystem) : MfaEvent → Option MfaSystem
  | .login body => some { s with tasks := s.tasks ++ [(.fresh,login env config body)] }
  | .disable code => some { s with tasks := s.tasks ++ [(.fresh,totpDelete env code)] }
  | .tick secs => some { s with world := s.world.tick secs }
  | .call i weather => s.call (env.serve weather) MfaStance.next i

/-- An account with no request in progress. -/
def opening (w : MfaWorld) : MfaSystem := ⟨{ w with log := [] },[]⟩

/-- Every request keeps to what its stance allows. -/
abbrev Orderly (s : MfaSystem) : Prop :=
  Threads.Keep (MfaStance.Allows True) MfaStance.next (fun _ _ => True) s

end MfaSystem

/-! ### A sample account -/

/-- A base32 secret, its codes at the first ten time steps, and its AES-256-GCM ciphertext under
the all-zero key and nonce. -/
structure SampleSecret where
  secret : String
  codes : List String
  ciphertext : List UInt8

def firstSecret : SampleSecret where
  secret := "GEZDGNBVGY3TQOJQGEZDGNBVGY3TQOJQ"
  codes :=
    ["755224","287082","359152","969429","338314","254676","287922","162583","399871","520489"]
  ciphertext :=
    [137,226,26,121,10,46,41,56,64,23,246,135,235,188,215,73,53,37,89,142,112,232,104,34,150,251,
     198,218,36,73,127,223,199,72,102,175,56,232,106,189,59,35,88,148,24,184,3,130]

def secondSecret : SampleSecret where
  secret := "JBSWY3DPEHPK3PXPJBSWY3DPEHPK3PXP"
  codes :=
    ["702218","503347","946038","111507","419533","523004","857238","905357","639393","595232"]
  ciphertext :=
    [132,229,19,106,20,83,47,62,66,6,149,152,137,163,197,72,56,34,80,157,110,149,110,36,148,234,
     165,197,70,86,109,222,18,71,220,83,162,212,131,182,198,59,218,213,8,229,225,131]

def zeroNonce : List UInt8 := List.replicate 12 0

/-- The libraries as far as the two secrets and one address go. -/
def sampleEnv : MfaEnv where
  totpInit secret :=
    if secret = firstSecret.secret ∨ secret = secondSecret.secret then .ok ()
    else .error "Invalid base32 secret"
  totpGenerate secret time :=
    (((([firstSecret,secondSecret].find? (fun s => s.secret = secret)).map
      SampleSecret.codes).getD [])[time / totpStep]?).getD ""
  totpUrl secret _ _ :=
    "otpauth://totp/Rav%20Mail:a%40example.com?secret=" ++ secret ++ "&issuer=Rav%20Mail"
  aesEncrypt nonce plaintext :=
    if nonce = zeroNonce then
      (([firstSecret,secondSecret].find? (fun s => s.secret.toUTF8.data.toList = plaintext)).map
        (fun s => .ok s.ciphertext)).getD (.error "aead::Error")
    else .error "aead::Error"
  aesDecrypt nonce ciphertext :=
    if nonce = zeroNonce then
      ([firstSecret,secondSecret].find? (fun s => s.ciphertext = ciphertext)).map
        (fun s => s.secret.toUTF8.data.toList)
    else none
  hmacSha256 _ _ := []
  hashEmail email :=
    if email = "a@example.com" then
      "08168cd80dfd534ab0f10af10f1303fe00af2d43ab5c1432360d137f8197e17a"
    else ""

def sampleConfig : AppConfig where
  environment := "production"
  imapHost := some "mail.example.com"
  imapPort := 993
  smtpHost := none
  smtpPort := 587
  tlsEnabled := true
  allowCustomMailServers := false
  sessionTimeoutHours := 24

/-- An account with the first secret enrolled, in the third time step. -/
def enrolledAccount : MfaWorld where
  userDir := true
  db := ⟨some ⟨firstSecret.ciphertext,zeroNonce⟩,.empty,⟨0,none,none⟩,false⟩
  now := 75
  store := .new (24 * 3600 * 10 ^ 9)
  log := []

def sampleLogin (code : Option String) : LoginRequest :=
  ⟨"a@example.com","secret",false,none,none,none,none,none,none,none,code⟩

/-- Every call goes through. -/
def fair : MfaWeather := ⟨none,.success,"token","id",secondSecret.secret,zeroNonce⟩

end Rav
