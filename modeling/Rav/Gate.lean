import Rav.Mfa.Requests

/-!
# A login without its second factor

What the gate of a login cannot read counts as absent. So an account with a second factor is
logged in without it, or with a code nobody limits, exactly when a statement of the gate fails
and the rest of the login goes through.

## Main definitions

- `SessionCreated`, `FailsClosed` — a session takes the second factor, read and shown
- `PlainAdmits`, `TotpAdmits` — what the rest of a login takes, without and with a code
- `LetsThrough` — a code passes the gate
- `Slips` — the gate takes a statement that fails for an answer
-/

namespace Rav

def MfaRecord.isSession : MfaRecord → Bool
  | .session _ => true
  | _ => false

namespace MfaWorld

/-- How many sessions have been created. -/
def sessions (w : MfaWorld) : Nat := w.log.countP MfaRecord.isSession

/-- An account with a confirmed secret, or one that logs in with a passkey only. -/
def Protected (w : MfaWorld) : Prop := w.db.isTotpEnrolled = true ∨ w.db.passkeyOnly = true

end MfaWorld

section Defs

variable (env : MfaEnv) (config : AppConfig) (body : LoginRequest) (weathers : Nat → MfaWeather)
  (w : MfaWorld)

def SessionCreated : Prop := w.sessions < ((login env config body).exec env weathers w).2.sessions

/-- The state of the second factor can be read: the directory, the database, the settings, the
enrolment, the time, the lockout and the secret, in the order of the gate. -/
def StateRead : Prop := w.userDir = true ∧ ∀ k < 7, (weathers k).fails = none

/-- The login comes with a code valid for the enrolled secret. -/
def CodeSupplied : Prop :=
  ∃ secret ∈ w.enrolledSecret env, ∃ code ∈ body.totpCode, env.Valid secret code w.now

/-- A session is created only if the second factor could be read, is not a passkey, and was
shown. -/
def FailsClosed : Prop :=
  SessionCreated env config body weathers w →
    w.db.passkeyOnly = false ∧ CodeSupplied env body w ∧ StateRead weathers w

/-- Email and password are given. -/
def Complete : Prop := strTrim body.email ≠ "" ∧ strTrim body.password ≠ ""

/-! ### What the rest of a login takes -/

/-- The browser of the request lists the account already. -/
def Duplicate (server : EffectiveServerConfig) : Prop :=
  ∃ browserId ∈ body.browserId, ∃ a ∈ w.store.getBrowserAccounts browserId,
    a.email = body.email ∧ a.imapHost = server.imapHost

/-- From call `k` on, creating the session. -/
def CreateAdmits (server : EffectiveServerConfig) (k : Nat) : Prop :=
  (weathers k).fails = none ∧ ¬Duplicate body w server

/-- From call `k` on, a login without a code. -/
def PlainAdmits (k : Nat) : Prop :=
  ∃ server, EffectiveServerConfig.build body config = .ok server ∧
    (weathers k).imap = .success ∧ CreateAdmits body weathers w server (k + 1)

/-- From call `k` on, the verification of a code. -/
def VerifyAdmits (secret code : String) (k : Nat) : Prop :=
  env.totpInit secret = .ok () ∧ (weathers k).fails = none ∧ (weathers (k + 1)).fails = none ∧
    ∃ step, env.matchingStep secret code w.now = some step ∧ (weathers (k + 3)).fails = none ∧
      (w.db.pruneUsedSteps (w.now - 300)).isStepUsed step = false ∧
      (weathers (k + 4)).fails = none ∧ (weathers (k + 5)).fails = none

/-- From call `k` on, a login with a code. -/
def TotpAdmits (secret code : String) (k : Nat) : Prop :=
  ∃ server, EffectiveServerConfig.build body config = .ok server ∧
    (weathers k).imap = .success ∧ (weathers (k + 1)).fails = none ∧
    VerifyAdmits env weathers w secret code (k + 2) ∧
    CreateAdmits body weathers w server (k + 8)

/-! ### What the gate makes of statements that fail -/

/-- `Path::exists` finds the account's directory. -/
def DirSeen : Prop := w.userDir = true ∧ (weathers 0).fails = none

/-- The gate sees no passkey-only mode, be it that the settings cannot be read. -/
def PasswordAllowed : Prop := (weathers 2).fails = none → w.db.passkeyOnly = false

/-- The gate sees an enrolled secret. -/
def EnrolmentSeen : Prop := (weathers 3).fails = none ∧ w.db.isTotpEnrolled = true

/-- The gate sees no lockout, be it that it cannot be read, and reads the secret with call `k`. -/
def Unlocked (k : Nat) : Prop :=
  ((weathers 4).fails ≠ none ∧ k = 5) ∨ ((weathers 4).fails = none ∧ k = 6 ∧
    ((weathers 5).fails = none → w.db.checkLockout w.now = false))

/-- The gate lets a code pass, having read the secret with call `k`. -/
structure LetsThrough (secret code : String) (k : Nat) : Prop where
  dir : DirSeen weathers w
  db : (weathers 1).fails = none
  settings : PasswordAllowed weathers w
  enrolment : EnrolmentSeen weathers w
  code : body.totpCode = some code
  lockout : Unlocked weathers w k
  read : (weathers k).fails = none
  secret : w.enrolledSecret env = some secret

/-- The gate takes a statement that fails for an answer, and the rest of the login goes
through. -/
inductive Slips : Prop
  | unseen (dir : ¬DirSeen weathers w) (rest : PlainAdmits config body weathers w 1)
  | unopened (dir : DirSeen weathers w) (db : (weathers 1).fails ≠ none)
      (rest : PlainAdmits config body weathers w 2)
  | unread (dir : DirSeen weathers w) (db : (weathers 1).fails = none)
      (settings : PasswordAllowed weathers w) (enrolment : ¬EnrolmentSeen weathers w)
      (rest : PlainAdmits config body weathers w 4)
  | unmetered (secret code : String) (k : Nat)
      (gate : LetsThrough env body weathers w secret code k)
      (fails : (weathers 2).fails ≠ none ∨ (weathers 4).fails ≠ none ∨ (weathers 5).fails ≠ none)
      (rest : TotpAdmits env config body weathers w secret code (k + 1))

end Defs

/-! ### Programs that create a session -/

/-- Run from a state, the program creates a session. -/
def Creates {α : Type} (env : MfaEnv) (weathers : Nat → MfaWeather) (t : MfaTask α)
    (s : MfaWorld × Nat) : Prop :=
  s.1.sessions < (t.run (env.serveNth weathers) s).2.1.sessions

theorem sessions_exec_iff {α : Type} {env : MfaEnv} {weathers : Nat → MfaWeather} {t : MfaTask α}
    {w : MfaWorld} : w.sessions < (t.exec env weathers w).2.sessions ↔ Creates env weathers t (w,0) :=
  Iff.rfl

/-- Calls that leave the sessions alone. -/
def MfaCall.Sessionless : MfaCall → Prop
  | .addAccountToBrowser _ _ _ _ _ _ => False
  | _ => True

section Programs

variable {env : MfaEnv} {config : AppConfig} {body : LoginRequest} {weathers : Nat → MfaWeather}
  {w : MfaWorld} {k : Nat} {α β : Type}

theorem not_creates_pure (a : α) (s : MfaWorld × Nat) :
    ¬Creates env weathers (pure a : MfaTask α) s := Nat.lt_irrefl _

/-- A part of a program that creates no session hands over to the rest. -/
theorem creates_bind {p : MfaTask α} {f : α → MfaTask β} {s : MfaWorld × Nat}
    (h : (p.run (env.serveNth weathers) s).2.1.sessions = s.1.sessions) :
    Creates env weathers (p >>= f) s ↔
      Creates env weathers (f (p.run (env.serveNth weathers) s).1)
        (p.run (env.serveNth weathers) s).2 := by
  simp only [Creates,Prog.run_bind,h]

/-- A call that creates no session hands over to the rest. -/
theorem creates_call {c : MfaCall} {f : c.Answer → MfaTask β} {a : c.Answer} {w' : MfaWorld}
    (h : env.serve (weathers k) c w = (a,w')) (hw : w'.sessions = w.sessions) :
    Creates env weathers (mfaCall c >>= f) (w,k) ↔ Creates env weathers (f a) (w',k + 1) := by
  have hrun : (mfaCall c).run (env.serveNth weathers) (w,k) = (a,(w',k + 1)) := by
    rw [mfaCall,Prog.run_perform,MfaEnv.serveNth,h]
  rw [creates_bind (by rw [hrun,hw]),hrun]

/-! ### Calls that create no session -/

theorem sessions_append {r : MfaRecord} (hr : r.isSession = false) (log : List MfaRecord) :
    (log ++ [r]).countP MfaRecord.isSession = log.countP MfaRecord.isSession := by
  rw [List.countP_append,List.countP_singleton,hr]
  rfl

theorem run_sessions {weather : MfaWeather} {f : α × MfaWorld} (hf : f.2.sessions = w.sessions) :
    (weather.run w f).2.sessions = w.sessions := by
  rcases MfaWeather.run_world weather w f with hr | ⟨-,hr⟩
  · rw [hr]
  · rwa [hr]

theorem serve_sessions {c : MfaCall} (hc : c.Sessionless) (weather : MfaWeather) (w : MfaWorld) :
    (env.serve weather c w).2.sessions = w.sessions := by
  cases c with
  | addAccountToBrowser b e p u i s => exact hc.elim
  | compare secret code t =>
    simp only [MfaEnv.serve]
    split
    · rfl
    · exact sessions_append rfl _
  | resetLockout step => exact run_sessions (sessions_append rfl _)
  | userDirExists => rfl
  | drawNonce => rfl
  | validateImap h' p t e pw => rfl
  | getBrowserAccounts b => rfl
  | ensureIdentity e => rfl
  | createBrowser => rfl
  | _ => exact run_sessions rfl

/-- Where a program of such calls hands over to one that creates no session, none is created. -/
theorem not_creates_bind {p : MfaTask α} {f : α → MfaTask β} (hp : p.All MfaCall.Sessionless)
    (hf : ∀ a s, ¬Creates env weathers (f a) s) (s : MfaWorld × Nat) :
    ¬Creates env weathers (p >>= f) s := by
  have hsessions : (p.run (env.serveNth weathers) s).2.1.sessions = s.1.sessions :=
    Prog.run_invariant (P := fun s' : MfaWorld × Nat => s'.1.sessions = s.1.sessions)
      (fun _ _ _ => trivial) (fun _ _ hc hs => (serve_sessions hc _ _).trans hs) hp rfl
  exact fun h => hf _ _ ((creates_bind hsessions).mp h)

theorem sessionless_incrementLockout (max secs : Nat) :
    (incrementLockout max secs).All MfaCall.Sessionless := by
  refine Prog.AllWhere.perform_bind trivial (fun r _ => ?_)
  rcases r with e | n
  · trivial
  · exact Prog.AllWhere.ite (Prog.all_perform trivial) trivial

theorem sessionless_countImapFailure : countImapFailure.All MfaCall.Sessionless := by
  refine Prog.AllWhere.perform_bind trivial (fun r _ => ?_)
  rcases r with e | _
  · trivial
  · exact (sessionless_incrementLockout 5 900).bind (fun _ => trivial)

/-! ### Creating the session -/

variable {server : EffectiveServerConfig}

theorem creates_openSession (s : MfaWorld × Nat) :
    Creates env weathers (openSession env body server config) s := by
  have hone : ∀ (log : List MfaRecord) (id : AccountId), log.countP MfaRecord.isSession <
      (log ++ [MfaRecord.session id]).countP MfaRecord.isSession := by
    intro log id
    rw [List.countP_append]
    exact Nat.lt_succ_self _
  unfold Creates openSession browserOf
  cases body.browserId with
  | some id => exact hone _ _
  | none => exact hone _ _

/-- Looking for a duplicate leaves the account. -/
theorem run_isDuplicate (w : MfaWorld) (k : Nat) :
    ∃ k' b, (isDuplicate body server).run (env.serveNth weathers) (w,k) = (b,(w,k')) ∧
      (b = true ↔ Duplicate body w server) := by
  unfold isDuplicate Duplicate
  cases body.browserId with
  | none => exact ⟨k,false,rfl,by simp⟩
  | some id =>
    refine ⟨k + 1,(w.store.getBrowserAccounts id).any (fun a =>
      a.email = body.email && a.imapHost = server.imapHost),rfl,?_⟩
    simp

theorem creates_createLoginSession :
    Creates env weathers (createLoginSession env body server config) (w,k) ↔
      CreateAdmits body weathers w server k := by
  rw [createLoginSession,CreateAdmits]
  cases hf : (weathers k).fails with
  | some e =>
    refine (creates_call (c := .provisionUserData _) (MfaWeather.run_some hf) rfl).trans ?_
    exact iff_of_false (not_creates_pure _ _) (fun h => nomatch h.1)
  | none =>
    let w' : MfaWorld := { w with userDir := true }
    obtain ⟨k',duplicate,hrun,hdup⟩ := @run_isDuplicate env body weathers server w' (k + 1)
    refine (creates_call (c := .provisionUserData _) (MfaWeather.run_none hf) rfl).trans ?_
    refine (creates_bind (by rw [hrun])).trans ?_
    rw [hrun]
    cases duplicate with
    | true => exact iff_of_false (not_creates_pure _ _) (fun h => h.2 (hdup.mp rfl))
    | false =>
      have hfresh : ¬Duplicate body w server := fun h => Bool.false_ne_true (hdup.mpr h)
      exact iff_of_true (creates_openSession _) ⟨rfl,hfresh⟩

theorem creates_loginPlain :
    Creates env weathers (loginPlain env config body) (w,k) ↔
      PlainAdmits config body weathers w k := by
  unfold loginPlain PlainAdmits
  cases hb : EffectiveServerConfig.build body config with
  | error e => exact iff_of_false (not_creates_pure _ _) (fun ⟨_,h,_⟩ => nomatch h)
  | ok server =>
    refine (creates_call (c := .validateImap _ _ _ _ _) rfl rfl).trans ?_
    cases hi : (weathers k).imap with
    | success =>
      refine creates_createLoginSession.trans ⟨fun h => ⟨server,rfl,rfl,h⟩,?_⟩
      rintro ⟨server',hs,-,h⟩
      cases hs
      exact h
    | invalidCredentials => exact iff_of_false (not_creates_pure _ _) (fun ⟨_,_,h,_⟩ => nomatch h)
    | serverUnreachable e => exact iff_of_false (not_creates_pure _ _) (fun ⟨_,_,h,_⟩ => nomatch h)

/-! ### Verifying a code -/

/-- A statement whose failure ends the login. -/
theorem creates_statement {p : MfaTask (Except String α)} {f : Except String α → MfaTask β} {a : α}
    {w' : MfaWorld} (hp : p.run (env.serveNth weathers) (w,k) =
      (((weathers k).run w (a,w')).1,(((weathers k).run w (a,w')).2,k + 1)))
    (hw : w'.sessions = w.sessions) (hf : ∀ e s, ¬Creates env weathers (f (.error e)) s) :
    Creates env weathers (p >>= f) (w,k) ↔
      (weathers k).fails = none ∧ Creates env weathers (f (.ok a)) (w',k + 1) := by
  cases hfails : (weathers k).fails with
  | some e =>
    rw [MfaWeather.run_some hfails] at hp
    rw [creates_bind (by rw [hp]),hp]
    exact iff_of_false (hf e _) (fun h => nomatch h.1)
  | none =>
    rw [MfaWeather.run_none hfails] at hp
    rw [creates_bind (by rw [hp,hw]),hp]
    exact ⟨fun h => ⟨rfl,h⟩,fun h => h.2⟩

section Verify

variable {f : Except String Bool → MfaTask β} {P : Nat → Prop} {secret code : String}

theorem creates_acceptStep (a : Nat)
    (hno : ∀ r s, r ≠ .ok true → ¬Creates env weathers (f r) s)
    (hrest : ∀ w' k, w'.store = w.store → (Creates env weathers (f (.ok true)) (w',k) ↔ P k)) :
    Creates env weathers (acceptStep a >>= f) (w,k) ↔
      (weathers k).fails = none ∧ w.db.isStepUsed a = false ∧ (weathers (k + 1)).fails = none ∧
        (weathers (k + 2)).fails = none ∧ P (k + 3) := by
  have herror : ∀ (e : String) s, ¬Creates env weathers (f (.error e)) s :=
    fun e s => hno _ s nofun
  rw [acceptStep,Prog.bind_assoc]
  refine Iff.trans (creates_statement rfl rfl herror) (and_congr_right fun _ => ?_)
  cases hused : w.db.isStepUsed a with
  | true => exact iff_of_false (hno _ _ (by simp)) (fun h => nomatch h.1)
  | false =>
    refine Iff.trans ?_ (and_iff_right rfl).symm
    dsimp only
    rw [Prog.bind_assoc]
    refine Iff.trans (creates_statement rfl rfl herror) (and_congr_right fun _ => ?_)
    dsimp only
    rw [Prog.bind_assoc]
    refine Iff.trans (creates_statement rfl (sessions_append rfl _) herror)
      (and_congr_right fun _ => ?_)
    exact hrest _ _ rfl

theorem not_creates_rejectCode (hno : ∀ r s, r ≠ .ok true → ¬Creates env weathers (f r) s) :
    ¬Creates env weathers (rejectCode >>= f) (w,k) := by
  rw [rejectCode,Prog.bind_assoc]
  -- whatever counting the failure answers, the code is not valid
  refine not_creates_bind (sessionless_incrementLockout _ _) (fun r s => ?_) _
  rcases r with e | _
  · exact hno _ _ nofun
  · exact hno _ _ (by simp)

theorem creates_verifyAndRecord (hno : ∀ r s, r ≠ .ok true → ¬Creates env weathers (f r) s)
    (hrest : ∀ w' k, w'.store = w.store → (Creates env weathers (f (.ok true)) (w',k) ↔ P k)) :
    Creates env weathers (verifyAndRecord env secret code >>= f) (w,k) ↔
      VerifyAdmits env weathers w secret code k ∧ P (k + 6) := by
  have herror : ∀ (e : String) s, ¬Creates env weathers (f (.error e)) s :=
    fun e s => hno _ s nofun
  unfold verifyAndRecord VerifyAdmits
  cases env.totpInit secret with
  | error e => exact iff_of_false (herror _ _) (fun h => nomatch h.1.1)
  | ok u =>
    dsimp only
    rw [Prog.bind_assoc]
    refine Iff.trans (creates_statement rfl rfl herror) ?_
    dsimp only
    rw [Prog.bind_assoc]
    refine Iff.trans (and_congr_right fun _ => creates_statement rfl rfl herror) ?_
    dsimp only
    rw [Prog.bind_assoc]
    let w' : MfaWorld := { w with db := w.db.pruneUsedSteps (w.now - 300) }
    cases hm : env.matchingStep secret code w.now with
    | none =>
      refine iff_of_false (fun ⟨_,_,h⟩ => ?_) (fun ⟨⟨_,_,_,_,h,_⟩,_⟩ => nomatch h)
      have hserve : env.serve (weathers (k + 2)) (.compare secret code w.now) w' =
          (none,{ w' with log := w'.log ++ [.wrongCode] }) := by
        simp only [MfaEnv.serve,hm]
        rfl
      exact not_creates_rejectCode hno ((creates_call hserve (sessions_append rfl _)).mp h)
    | some step =>
      have hserve : env.serve (weathers (k + 2)) (.compare secret code w.now) w' =
          (some step,w') := by
        simp only [MfaEnv.serve,hm]
        rfl
      refine Iff.trans (and_congr_right fun _ => and_congr_right fun _ =>
        (creates_call hserve rfl).trans (creates_acceptStep step hno hrest)) ?_
      constructor
      · rintro ⟨h₀,h₁,h₃,hused,h₄,h₅,hP⟩
        exact ⟨⟨rfl,h₀,h₁,step,rfl,h₃,hused,h₄,h₅⟩,hP⟩
      · rintro ⟨⟨-,h₀,h₁,_,hstep,h₃,hused,h₄,h₅⟩,hP⟩
        obtain rfl := Option.some.inj hstep
        exact ⟨h₀,h₁,h₃,hused,h₄,h₅,hP⟩

end Verify

theorem creates_loginTotp (secret code : String) :
    Creates env weathers (loginTotp env config body secret code) (w,k) ↔
      TotpAdmits env config body weathers w secret code k := by
  unfold loginTotp TotpAdmits
  cases hb : EffectiveServerConfig.build body config with
  | error e => exact iff_of_false (not_creates_pure _ _) (fun ⟨_,h,_⟩ => nomatch h)
  | ok server =>
    refine (creates_call (c := .validateImap _ _ _ _ _) rfl rfl).trans ?_
    cases hi : (weathers k).imap with
    | success =>
      have hverify : Creates env weathers (loginVerify env config body server secret code)
          (w,k + 1) ↔ (weathers (k + 1)).fails = none ∧
            VerifyAdmits env weathers w secret code (k + 2) ∧
            CreateAdmits body weathers w server (k + 8) := by
        refine Iff.trans (creates_statement rfl rfl (fun _ => not_creates_pure _))
          (and_congr_right fun _ => ?_)
        refine creates_verifyAndRecord (P := fun k => CreateAdmits body weathers w server k)
          (fun r s hr => ?_) (fun w' k hw => ?_)
        · rcases r with e | valid
          · exact not_creates_pure _ _
          · cases valid with
            | true => exact absurd rfl hr
            | false => exact not_creates_pure _ _
        · refine creates_createLoginSession.trans ?_
          rw [CreateAdmits,CreateAdmits,Duplicate,Duplicate,hw]
      refine hverify.trans ⟨fun h => ⟨server,rfl,rfl,h⟩,?_⟩
      rintro ⟨server',hs,-,h⟩
      cases hs
      exact h
    | invalidCredentials =>
      refine iff_of_false ?_ (fun ⟨_,_,h,_⟩ => nomatch h)
      exact not_creates_bind sessionless_countImapFailure (fun _ => not_creates_pure _) _
    | serverUnreachable e =>
      refine iff_of_false ?_ (fun ⟨_,_,h,_⟩ => nomatch h)
      exact not_creates_bind sessionless_countImapFailure (fun _ => not_creates_pure _) _

/-! ### The gate -/

theorem creates_loadTotpSecret {f : Option String → MfaTask β}
    (hno : ∀ s, ¬Creates env weathers (f none) s) :
    Creates env weathers (loadTotpSecret env >>= f) (w,k) ↔ (weathers k).fails = none ∧
      ∃ secret, w.enrolledSecret env = some secret ∧
        Creates env weathers (f (some secret)) (w,k + 1) := by
  rw [loadTotpSecret,Prog.bind_assoc]
  refine Iff.trans (creates_statement rfl rfl (fun _ => hno)) (and_congr_right fun _ => ?_)
  rw [MfaWorld.enrolledSecret,MfaDb.getTotpSecret]
  cases w.db.totp with
  | none => exact iff_of_false (hno _) (fun ⟨_,h,_⟩ => nomatch h)
  | some row =>
    show Creates env weathers (f (env.decryptSecret row)) (w,k + 1) ↔ _
    rw [Option.bind_some]
    cases env.decryptSecret row with
    | none => exact iff_of_false (hno _) (fun ⟨_,h,_⟩ => nomatch h)
    | some secret => simp

/-- A lockout that cannot be read lets a login pass. -/
theorem creates_isLockedOut {b : α} {p : MfaTask α} {f : α → MfaTask β}
    (hb : ∀ s, ¬Creates env weathers (f b) s) :
    Creates env weathers (isLockedOut >>= fun locked =>
        (if unwrapOr locked false = true then pure b else p) >>= f) (w,4) ↔
      ∃ k, Unlocked weathers w k ∧ Creates env weathers (p >>= f) (w,k) := by
  have hif : ∀ r s, Creates env weathers
      ((if unwrapOr r false = true then pure b else p) >>= f) s ↔
        unwrapOr r false = false ∧ Creates env weathers (p >>= f) s := by
    intro r s
    cases unwrapOr r false with
    | true => exact iff_of_false (hb s) (fun h => nomatch h.1)
    | false => exact (and_iff_right rfl).symm
  rw [isLockedOut,Prog.bind_assoc]
  cases h4 : (weathers 4).fails with
  | some e =>
    refine (creates_call (c := .systemTime) (MfaWeather.run_some h4) rfl).trans ?_
    refine (hif _ _).trans ?_
    constructor
    · exact fun h => ⟨5,Or.inl ⟨h4 ▸ nofun,rfl⟩,h.2⟩
    · rintro ⟨k,⟨-,rfl⟩ | ⟨h,-⟩,hp⟩
      · exact ⟨rfl,hp⟩
      · exact nomatch h4.symm.trans h
  | none =>
    refine (creates_call (c := .systemTime) (MfaWeather.run_none h4) rfl).trans ?_
    have hlook : Creates env weathers (mfaCall (.checkLockout w.now) >>= fun locked =>
        (if unwrapOr locked false = true then pure b else p) >>= f) (w,5) ↔
          ((weathers 5).fails = none → w.db.checkLockout w.now = false) ∧
            Creates env weathers (p >>= f) (w,6) := by
      cases h5 : (weathers 5).fails with
      | some e =>
        refine (creates_call (c := .checkLockout _) (MfaWeather.run_some h5) rfl).trans ?_
        exact (hif _ _).trans (and_congr_left fun _ => iff_of_true rfl nofun)
      | none =>
        refine (creates_call (c := .checkLockout _) (MfaWeather.run_none h5) rfl).trans ?_
        exact (hif _ _).trans (and_congr_left fun _ => ⟨fun h _ => h,fun h => h rfl⟩)
    refine hlook.trans ⟨fun h => ⟨6,Or.inr ⟨h4,rfl,h.1⟩,h.2⟩,?_⟩
    rintro ⟨k,⟨h,-⟩ | ⟨-,rfl,h⟩,hp⟩
    · exact absurd h4 h
    · exact ⟨h,hp⟩

section Gate

variable {f : MfaGate → MfaTask β} {P : Nat → Prop} {Q : String → String → Nat → Prop}

theorem creates_totpGate
    (hno : ∀ s, ¬Creates env weathers (f .needsCode) s ∧ ¬Creates env weathers (f .lockedOut) s ∧
      ¬Creates env weathers (f .secretMissing) s)
    (hready : ∀ secret code k, Creates env weathers (f (.ready secret code)) (w,k) ↔
      Q secret code k) :
    Creates env weathers (totpGate env body.totpCode >>= f) (w,4) ↔
      ∃ secret code k, body.totpCode = some code ∧ Unlocked weathers w k ∧
        (weathers k).fails = none ∧ w.enrolledSecret env = some secret ∧ Q secret code (k + 1) := by
  cases body.totpCode with
  | none => exact iff_of_false (hno _).1 (fun ⟨_,_,_,h,_⟩ => nomatch h)
  | some code =>
    rw [totpGate,Prog.bind_assoc]
    refine Iff.trans (creates_isLockedOut (fun s => (hno s).2.1)) ?_
    constructor
    · rintro ⟨k,hk,h⟩
      rw [Prog.bind_assoc,creates_loadTotpSecret] at h
      · obtain ⟨hread,secret,hsecret,h⟩ := h
        exact ⟨secret,code,k,rfl,hk,hread,hsecret,(hready _ _ _).mp h⟩
      · exact fun s => (hno s).2.2
    · rintro ⟨secret,_,k,hcode,hk,hread,hsecret,hQ⟩
      obtain rfl := Option.some.inj hcode
      refine ⟨k,hk,?_⟩
      rw [Prog.bind_assoc,creates_loadTotpSecret]
      · exact ⟨hread,secret,hsecret,(hready _ _ _).mpr hQ⟩
      · exact fun s => (hno s).2.2

/-- The settings and the enrolment, once the database is open. -/
theorem creates_settings {p q r : MfaTask MfaGate}
    (hr : ∀ s, ¬Creates env weathers (r >>= f) s) :
    Creates env weathers ((mfaCall .getMfaSettings >>= fun passkeyOnly =>
        if unwrapOr passkeyOnly false = true then r
        else mfaCall .isTotpEnrolled >>= fun enrolled =>
          if unwrapOr enrolled false = true then p else q) >>= f) (w,2) ↔
      PasswordAllowed weathers w ∧
        (EnrolmentSeen weathers w ∧ Creates env weathers (p >>= f) (w,4) ∨
          ¬EnrolmentSeen weathers w ∧ Creates env weathers (q >>= f) (w,4)) := by
  have henrolled : Creates env weathers ((mfaCall .isTotpEnrolled >>= fun enrolled =>
      if unwrapOr enrolled false = true then p else q) >>= f) (w,3) ↔
        (EnrolmentSeen weathers w ∧ Creates env weathers (p >>= f) (w,4) ∨
          ¬EnrolmentSeen weathers w ∧ Creates env weathers (q >>= f) (w,4)) := by
    rw [Prog.bind_assoc,EnrolmentSeen]
    cases h3 : (weathers 3).fails with
    | some e =>
      refine (creates_call (c := .isTotpEnrolled) (MfaWeather.run_some h3) rfl).trans ?_
      simp [unwrapOr]
    | none =>
      refine (creates_call (c := .isTotpEnrolled) (MfaWeather.run_none h3) rfl).trans ?_
      cases w.db.isTotpEnrolled <;> simp [unwrapOr]
  rw [Prog.bind_assoc,PasswordAllowed]
  cases h2 : (weathers 2).fails with
  | some e =>
    refine (creates_call (c := .getMfaSettings) (MfaWeather.run_some h2) rfl).trans ?_
    exact henrolled.trans (and_iff_right nofun).symm
  | none =>
    refine (creates_call (c := .getMfaSettings) (MfaWeather.run_none h2) rfl).trans ?_
    cases hp : w.db.passkeyOnly with
    | true => exact iff_of_false (hr _) (fun h => nomatch h.1 rfl)
    | false => exact henrolled.trans (and_iff_right (fun _ => rfl)).symm

/-- What the gate hands over to, and after how many calls. -/
theorem creates_mfaGate (hplain : ∀ k, Creates env weathers (f .skip) (w,k) ↔ P k)
    (hready : ∀ secret code k, Creates env weathers (f (.ready secret code)) (w,k) ↔
      Q secret code k)
    (hno : ∀ s, ¬Creates env weathers (f .passkeyOnly) s ∧ ¬Creates env weathers (f .needsCode) s ∧
      ¬Creates env weathers (f .lockedOut) s ∧ ¬Creates env weathers (f .secretMissing) s) :
    Creates env weathers (mfaGate env body.totpCode >>= f) (w,0) ↔
      ¬DirSeen weathers w ∧ P 1 ∨ DirSeen weathers w ∧ (weathers 1).fails ≠ none ∧ P 2 ∨
      DirSeen weathers w ∧ (weathers 1).fails = none ∧ PasswordAllowed weathers w ∧
        ¬EnrolmentSeen weathers w ∧ P 4 ∨
      ∃ secret code k, LetsThrough env body weathers w secret code k ∧ Q secret code (k + 1) := by
  have hseen : (w.userDir && (weathers 0).fails.isNone) = true ↔ DirSeen weathers w := by
    simp [DirSeen]
  rw [mfaGate,Prog.bind_assoc]
  refine Iff.trans (creates_call (c := .userDirExists) rfl rfl) ?_
  cases hb : w.userDir && (weathers 0).fails.isNone with
  | false =>
    have hd : ¬DirSeen weathers w := fun h => Bool.false_ne_true (hb.symm.trans (hseen.mpr h))
    refine (hplain 1).trans ⟨fun h => Or.inl ⟨hd,h⟩,?_⟩
    rintro (⟨-,h⟩ | ⟨h,-⟩ | ⟨h,-⟩ | ⟨_,_,_,h,-⟩)
    · exact h
    · exact absurd h hd
    · exact absurd h hd
    · exact absurd h.dir hd
  | true =>
    have hd : DirSeen weathers w := hseen.mp hb
    dsimp only
    rw [Prog.bind_assoc]
    cases h1 : (weathers 1).fails with
    | some e =>
      refine (creates_call (c := .withUserDb) (MfaWeather.run_some h1) rfl).trans ?_
      refine (hplain 2).trans ⟨fun h => Or.inr (Or.inl ⟨hd,nofun,h⟩),?_⟩
      rintro (⟨h,-⟩ | ⟨-,-,h⟩ | ⟨-,h,-⟩ | ⟨_,_,_,h,-⟩)
      · exact absurd hd h
      · exact h
      · exact nomatch h
      · exact nomatch h1.symm.trans h.db
    | none =>
      refine (creates_call (c := .withUserDb) (MfaWeather.run_none h1) rfl).trans ?_
      refine Iff.trans (creates_settings (fun s => (hno s).1)) ?_
      have htotp : Creates env weathers (totpGate env body.totpCode >>= f) (w,4) ↔ _ :=
        creates_totpGate (fun s => (hno s).2) hready
      constructor
      · rintro ⟨hs,⟨he,h⟩ | ⟨he,h⟩⟩
        · obtain ⟨secret,code,k,hcode,hk,hread,hsecret,hQ⟩ := htotp.mp h
          exact Or.inr (Or.inr (Or.inr
            ⟨secret,code,k,⟨hd,h1,hs,he,hcode,hk,hread,hsecret⟩,hQ⟩))
        · exact Or.inr (Or.inr (Or.inl ⟨hd,rfl,hs,he,(hplain 4).mp h⟩))
      · rintro (⟨h,-⟩ | ⟨-,h,-⟩ | ⟨-,-,hs,he,h⟩ | ⟨secret,code,k,h,hQ⟩)
        · exact absurd hd h
        · exact absurd rfl h
        · exact ⟨hs,Or.inr ⟨he,(hplain 4).mpr h⟩⟩
        · exact ⟨h.settings,Or.inl ⟨h.enrolment,htotp.mpr
            ⟨secret,code,k,h.code,h.lockout,h.read,h.secret,hQ⟩⟩⟩

end Gate

/-- A login creates a session exactly if it is complete, and the gate hands over to a rest that
goes through. -/
theorem sessionCreated_iff : SessionCreated env config body weathers w ↔ Complete body ∧
    (¬DirSeen weathers w ∧ PlainAdmits config body weathers w 1 ∨
      DirSeen weathers w ∧ (weathers 1).fails ≠ none ∧ PlainAdmits config body weathers w 2 ∨
      DirSeen weathers w ∧ (weathers 1).fails = none ∧ PasswordAllowed weathers w ∧
        ¬EnrolmentSeen weathers w ∧ PlainAdmits config body weathers w 4 ∨
      ∃ secret code k, LetsThrough env body weathers w secret code k ∧
        TotpAdmits env config body weathers w secret code (k + 1)) := by
  unfold SessionCreated
  rw [sessions_exec_iff]
  unfold login Complete
  split
  · next hblank =>
    refine iff_of_false (not_creates_pure _ _) (fun h => ?_)
    exact hblank.elim h.1.1 h.1.2
  · next hblank =>
    refine Iff.trans (creates_mfaGate (fun _ => creates_loginPlain)
      (fun _ _ _ => creates_loginTotp _ _) (fun s => ?_)) ?_
    · exact ⟨not_creates_pure _ _,not_creates_pure _ _,not_creates_pure _ _,not_creates_pure _ _⟩
    · exact (and_iff_right (not_or.mp hblank)).symm

end Programs

/-! ### The second factor -/

section Main

variable {env : MfaEnv} {config : AppConfig} {body : LoginRequest} {weathers : Nat → MfaWeather}
  {w : MfaWorld}

theorem StateRead.dirSeen (h : StateRead weathers w) : DirSeen weathers w :=
  ⟨h.1,h.2 0 (by omega)⟩

/-- A code that passes the gate and the verification is valid for the enrolled secret. -/
theorem LetsThrough.codeSupplied {secret code : String} {k : Nat}
    (hg : LetsThrough env body weathers w secret code k)
    (ht : TotpAdmits env config body weathers w secret code (k + 1)) : CodeSupplied env body w := by
  obtain ⟨server,-,-,-,⟨-,-,-,step,hstep,-⟩,-⟩ := ht
  refine ⟨secret,hg.secret,code,hg.code,?_⟩
  rw [MfaEnv.Valid,hstep]
  rfl

/-- Nothing has failed when a code passes a gate that could read settings and lockout. -/
theorem LetsThrough.stateRead {secret code : String} {k : Nat}
    (hg : LetsThrough env body weathers w secret code k) (h2 : (weathers 2).fails = none)
    (h4 : (weathers 4).fails = none) (h5 : (weathers 5).fails = none) : StateRead weathers w := by
  obtain rfl : k = 6 := by
    rcases hg.lockout with ⟨h,-⟩ | ⟨-,hk,-⟩
    · exact absurd h4 h
    · exact hk
  refine ⟨hg.dir.1,fun j hj => ?_⟩
  have hj : j = 0 ∨ j = 1 ∨ j = 2 ∨ j = 3 ∨ j = 4 ∨ j = 5 ∨ j = 6 := by omega
  rcases hj with rfl | rfl | rfl | rfl | rfl | rfl | rfl
  · exact hg.dir.2
  · exact hg.db
  · exact h2
  · exact hg.enrolment.1
  · exact h4
  · exact h5
  · exact hg.read

/-- A slip logs the account in although something could not be read. -/
theorem Slips.sessionCreated (hb : Complete body) (h : Slips env config body weathers w) :
    SessionCreated env config body weathers w := by
  refine sessionCreated_iff.mpr ⟨hb,?_⟩
  cases h with
  | unseen dir rest => exact Or.inl ⟨dir,rest⟩
  | unopened dir db rest => exact Or.inr (Or.inl ⟨dir,db,rest⟩)
  | unread dir db settings enrolment rest =>
    exact Or.inr (Or.inr (Or.inl ⟨dir,db,settings,enrolment,rest⟩))
  | unmetered secret code k gate fails rest =>
    exact Or.inr (Or.inr (Or.inr ⟨secret,code,k,gate,rest⟩))

theorem Slips.not_stateRead (hw : w.Protected) (h : Slips env config body weathers w) :
    ¬StateRead weathers w := by
  intro hread
  cases h with
  | unseen dir rest => exact dir hread.dirSeen
  | unopened dir db rest => exact db (hread.2 1 (by omega))
  | unread dir db settings enrolment rest =>
    have hp : w.db.passkeyOnly = false := settings (hread.2 2 (by omega))
    have he : w.db.isTotpEnrolled = true := hw.resolve_right (by simp [hp])
    exact enrolment ⟨hread.2 3 (by omega),he⟩
  | unmetered secret code k gate fails rest =>
    rcases fails with h | h | h
    · exact h (hread.2 2 (by omega))
    · exact h (hread.2 4 (by omega))
    · exact h (hread.2 5 (by omega))

/-- A login of an account with a second factor creates a session only if the state of the second
factor could be read and it was shown, exactly if no statement of the gate that fails is taken
for an answer in a login that otherwise goes through. -/
theorem second_factor_enforced (hw : w.Protected) :
    FailsClosed env config body weathers w ↔
      (Complete body → ¬Slips env config body weathers w) := by
  constructor
  · intro hclosed hb hslip
    exact hslip.not_stateRead hw (hclosed (hslip.sessionCreated hb)).2.2
  · intro hslip hcreated
    obtain ⟨hb,hrest⟩ := sessionCreated_iff.mp hcreated
    specialize hslip hb
    rcases hrest with ⟨hd,h⟩ | ⟨hd,h1,h⟩ | ⟨hd,h1,hs,he,h⟩ | ⟨secret,code,k,hg,ht⟩
    · exact absurd (.unseen hd h) hslip
    · exact absurd (.unopened hd h1 h) hslip
    · exact absurd (.unread hd h1 hs he h) hslip
    · have hfine : ¬((weathers 2).fails ≠ none ∨ (weathers 4).fails ≠ none ∨
          (weathers 5).fails ≠ none) :=
        fun hfails => hslip (.unmetered secret code k hg hfails ht)
      simp only [not_or,not_not] at hfine
      obtain ⟨h2,h4,h5⟩ := hfine
      exact ⟨hg.settings h2,hg.codeSupplied ht,hg.stateRead h2 h4 h5⟩

end Main

/-! ### Samples -/

/-- The statement that reads the enrolment fails. -/
def enrolmentUnread : Nat → MfaWeather
  | 3 => { fair with fails := some "database is locked" }
  | _ => fair

theorem second_factor_enforced_codeShown :
    enrolledAccount.Protected ∧
      (FailsClosed sampleEnv sampleConfig (sampleLogin (some "359152")) (fun _ => fair)
          enrolledAccount ↔ (Complete (sampleLogin (some "359152")) →
        ¬Slips sampleEnv sampleConfig (sampleLogin (some "359152")) (fun _ => fair)
          enrolledAccount)) :=
  ⟨Or.inl rfl,second_factor_enforced (Or.inl rfl)⟩

/-- Without a code, and with an enrolment that cannot be read, the login creates a session. -/
theorem unread_enrolment_skips_code :
    ¬FailsClosed sampleEnv sampleConfig (sampleLogin none) enrolmentUnread enrolledAccount := by
  intro h
  have hcreated : SessionCreated sampleEnv sampleConfig (sampleLogin none) enrolmentUnread
      enrolledAccount := by
    unfold SessionCreated
    decide +kernel
  obtain ⟨_,-,code,hcode,-⟩ := (h hcreated).2.1
  exact nomatch hcode

end Rav
