import Rav.Mfa.Requests

/-!
# The enrolled secret is protected

Setup, confirm and delete requests over one account, in any order. Delete asks for a code valid
for the stored secret; confirm asks for one valid for the secret of the request and then replaces
whatever is stored. So an enrolment is protected exactly as far as the codes of confirm requests
are valid for the enrolled secret as well.

## Main definitions

- `MfaRequest`, `Handled` — the requests, and one that has been handled
- `Handled.Protected` — it changed an enrolment only with a code valid for it
- `EnrolmentSystem`, `EnrolmentSystem.step`, `EnrolmentSystem.Vouched`
-/

namespace Rav

/-- The requests of a signed-in user about TOTP. -/
inductive MfaRequest
  | setup (email : String)
  | confirm (secret code : String)
  | delete (code : String)

namespace MfaRequest

def task (env : MfaEnv) : MfaRequest → MfaTask HttpResponse
  | .setup email => totpSetup env email
  | .confirm secret code => totpConfirm env secret code
  | .delete code => totpDelete env code

def code : MfaRequest → Option String
  | .setup _ => none
  | .confirm _ code => some code
  | .delete code => some code

end MfaRequest

/-- A request, and the account before and after it. -/
structure Handled where
  request : MfaRequest
  before : MfaWorld
  after : MfaWorld

/-- An enrolled secret is replaced or removed only by a request with a code valid for it. -/
def Handled.Protected (env : MfaEnv) (h : Handled) : Prop :=
  ∀ secret ∈ h.before.enrolledSecret env, h.after.db.totp ≠ h.before.db.totp →
    ∃ code ∈ h.request.code, env.Valid secret code h.before.now

instance (env : MfaEnv) (h : Handled) : Decidable (h.Protected env) := by
  unfold Handled.Protected
  infer_instance

/-- An account, and the requests it has seen. -/
structure EnrolmentSystem where
  world : MfaWorld
  handled : List Handled

inductive EnrolmentEvent
  | request (r : MfaRequest) (weathers : Nat → MfaWeather)
  | tick (secs : Nat)

namespace EnrolmentSystem

def step (env : MfaEnv) (s : EnrolmentSystem) : EnrolmentEvent → Option EnrolmentSystem
  | .request r weathers =>
    let after := ((r.task env).exec env weathers s.world).2
    some ⟨after,s.handled ++ [⟨r,s.world,after⟩]⟩
  | .tick secs => some { s with world := s.world.tick secs }

/-- A confirm request whose code is valid for the secret it brings carries a code that is valid
for the enrolled secret too. -/
def Vouched (env : MfaEnv) (s : EnrolmentSystem) : EnrolmentEvent → Prop
  | .request (.confirm secret code) _ => ∀ enrolled ∈ s.world.enrolledSecret env,
      env.Valid secret code s.world.now → env.Valid enrolled code s.world.now
  | _ => True

instance (env : MfaEnv) (s : EnrolmentSystem) (e : EnrolmentEvent) :
    Decidable (s.Vouched env e) := by
  unfold Vouched
  split <;> infer_instance

end EnrolmentSystem

/-! ### What the requests do -/

/-- The credential and the clock. -/
def Holding (row : Option EncryptedSecret) (now : Nat) (s : MfaWorld × Nat) : Prop :=
  s.1.db.totp = row ∧ s.1.now = now

/-- Calls that leave the credential. -/
def MfaCall.KeepsRow : MfaCall → Prop
  | .upsertTotpSecret _ => False
  | .deleteTotpRow => False
  | _ => True

section Requests

variable {env : MfaEnv} {weathers : Nat → MfaWeather} {row : Option EncryptedSecret} {now : Nat}
  {c : MfaCall}

theorem run_holding {weather : MfaWeather} {α : Type} {w : MfaWorld} {f : α × MfaWorld} {n : Nat}
    (hw : Holding row now (w,n)) (hf : Holding row now (f.2,n)) :
    Holding row now ((weather.run w f).2,n) := by
  rcases MfaWeather.run_world weather w f with hr | ⟨-,hr⟩
  · rwa [hr]
  · rwa [hr]

theorem serveNth_holding {s : MfaWorld × Nat} (hc : c.KeepsRow) (h : Holding row now s) :
    Holding row now (env.serveNth weathers c s).2 := by
  cases c with
  | upsertTotpSecret secret => exact hc.elim
  | deleteTotpRow => exact hc.elim
  | compare secret code t =>
    simp only [MfaEnv.serveNth,MfaEnv.serve]
    split <;> exact h
  | userDirExists => exact h
  | drawNonce => exact h
  | validateImap h' p t e pw => exact h
  | getBrowserAccounts b => exact h
  | ensureIdentity e => exact h
  | createBrowser => exact h
  | addAccountToBrowser b e p u i s => exact h
  | _ => exact run_holding h h

theorem hoare_keepsRow {α : Type} {t : MfaTask α} (ht : t.All MfaCall.KeepsRow) :
    t.Hoare (env.serveNth weathers) (Holding row now) (fun _ => Holding row now) :=
  Prog.Hoare.of_all ht (fun _ _ hc hs => serveNth_holding hc hs)

theorem keepsRow_isLockedOut : isLockedOut.All MfaCall.KeepsRow := by
  refine Prog.AllWhere.perform_bind trivial (fun r _ => ?_)
  rcases r with e | t
  · trivial
  · exact Prog.all_perform trivial

theorem keepsRow_acceptStep (a : Nat) : (acceptStep a).All MfaCall.KeepsRow := by
  refine Prog.AllWhere.perform_bind trivial (fun r _ => ?_)
  rcases r with e | used
  · trivial
  · cases used with
    | true => trivial
    | false =>
      refine Prog.AllWhere.perform_bind trivial (fun r _ => ?_)
      rcases r with e | _
      · trivial
      · refine Prog.AllWhere.perform_bind trivial (fun r _ => ?_)
        rcases r with e | _ <;> trivial

theorem keepsRow_incrementLockout (max secs : Nat) :
    (incrementLockout max secs).All MfaCall.KeepsRow := by
  refine Prog.AllWhere.perform_bind trivial (fun r _ => ?_)
  rcases r with e | n
  · trivial
  · show Prog.AllWhere _ _ (if n ≥ max then mfaCall (.lockFor secs) else pure (.ok ()))
    split
    · exact Prog.all_perform trivial
    · trivial

/-- A verified code is valid. -/
theorem hoare_verifyAndRecord (secret code : String) :
    (verifyAndRecord env secret code).Hoare (env.serveNth weathers) (Holding row now)
      (fun r s => Holding row now s ∧ (r = .ok true → env.Valid secret code now)) := by
  unfold verifyAndRecord
  split
  · exact Prog.Hoare.pure (fun s hs => ⟨hs,nofun⟩)
  · refine Prog.Hoare.perform_bind (fun r s => Holding row now s ∧ ∀ t, r = .ok t → t = now)
      (fun s hs => ⟨serveNth_holding trivial hs,fun t ht => ?_⟩) (fun r => ?_)
    · exact (MfaWeather.run_ok ht).2.1.trans hs.2
    · rcases r with e | t
      · exact Prog.Hoare.pure (fun s hs => ⟨hs.1,nofun⟩)
      · refine Prog.Hoare.perform_bind (fun _ s => Holding row now s ∧ t = now)
          (fun s hs => ⟨serveNth_holding trivial hs.1,hs.2 t rfl⟩) (fun r => ?_)
        rcases r with e | _
        · exact Prog.Hoare.pure (fun s hs => ⟨hs.1,nofun⟩)
        · refine Prog.Hoare.perform_bind
            (fun r s => Holding row now s ∧ (r.isSome → env.Valid secret code now))
            (fun s hs => ⟨serveNth_holding trivial hs.1,fun hr => ?_⟩) (fun r => ?_)
          · obtain rfl := hs.2
            simp only [MfaEnv.serveNth,MfaEnv.serve] at hr
            split at hr
            · next a ha =>
              show (env.matchingStep secret code t).isSome = true
              rw [ha]
              rfl
            · simp at hr
          · rcases r with _ | a
            · refine Prog.Hoare.bind (fun _ => Holding row now) ?_ (fun r => ?_)
              · exact (hoare_keepsRow (keepsRow_incrementLockout _ _)).consequence
                  (fun s hs => hs.1) (fun _ _ h => h)
              · rcases r with e | _
                · exact Prog.Hoare.pure (fun s hs => ⟨hs,nofun⟩)
                · exact Prog.Hoare.pure (fun s hs => ⟨hs,nofun⟩)
            · intro s hs
              exact ⟨hoare_keepsRow (keepsRow_acceptStep a) s hs.1,fun _ => hs.2 rfl⟩

theorem hoare_totpConfirm (secret code : String) :
    (totpConfirm env secret code).Hoare (env.serveNth weathers) (Holding row now)
      (fun _ s => s.1.db.totp = row ∨ env.Valid secret code now) := by
  refine Prog.Hoare.ite (fun _ => Prog.Hoare.pure (fun s hs => Or.inl hs.1)) (fun _ => ?_)
  refine Prog.Hoare.perform_bind (fun _ => Holding row now)
    (fun s hs => serveNth_holding trivial hs) (fun r => ?_)
  rcases r with e | _
  · exact Prog.Hoare.pure (fun s hs => Or.inl hs.1)
  · refine Prog.Hoare.bind _ (hoare_keepsRow keepsRow_isLockedOut) (fun locked => ?_)
    refine Prog.Hoare.ite (fun _ => Prog.Hoare.pure (fun s hs => Or.inl hs.1)) (fun _ => ?_)
    refine Prog.Hoare.bind _ (hoare_verifyAndRecord secret code) (fun r => ?_)
    rcases r with e | valid
    · exact Prog.Hoare.pure (fun s hs => Or.inl hs.1.1)
    · cases valid with
      | false => exact Prog.Hoare.pure (fun s hs => Or.inl hs.1.1)
      | true => exact fun s hs => Or.inr (hs.2 rfl)

theorem hoare_verifyAndDelete (secret code : String) :
    (verifyAndDelete env secret code).Hoare (env.serveNth weathers) (Holding row now)
      (fun _ s => s.1.db.totp = row ∨ env.Valid secret code now) := by
  refine Prog.Hoare.bind _ (hoare_verifyAndRecord secret code) (fun r => ?_)
  rcases r with e | valid
  · exact Prog.Hoare.pure (fun s hs => Or.inl hs.1.1)
  · cases valid with
    | false => exact Prog.Hoare.pure (fun s hs => Or.inl hs.1.1)
    | true => exact fun s hs => Or.inr (hs.2 rfl)

/-- The row a delete request reads is the one it finds. -/
theorem serveNth_getTotpSecret {s : MfaWorld × Nat} {stored : Option EncryptedSecret}
    (hs : Holding row now s) (h : (env.serveNth weathers .getTotpSecret s).1 = .ok stored) :
    stored = row :=
  (MfaWeather.run_ok h).2.1.trans hs.1

theorem hoare_totpDelete (code : String) :
    (totpDelete env code).Hoare (env.serveNth weathers) (Holding row now)
      (fun _ s => s.1.db.totp = row ∨
        ∃ secret ∈ row.bind env.decryptSecret, env.Valid secret code now) := by
  refine Prog.Hoare.ite (fun _ => Prog.Hoare.pure (fun s hs => Or.inl hs.1)) (fun _ => ?_)
  refine Prog.Hoare.perform_bind (fun _ => Holding row now)
    (fun s hs => serveNth_holding trivial hs) (fun r => ?_)
  rcases r with e | _
  · exact Prog.Hoare.pure (fun s hs => Or.inl hs.1)
  · refine Prog.Hoare.perform_bind
      (fun r s => Holding row now s ∧ ∀ stored, r = .ok stored → stored = row)
      (fun s hs => ⟨serveNth_holding trivial hs,fun _ h => serveNth_getTotpSecret hs h⟩)
      (fun r => ?_)
    rcases r with e | _ | stored
    · exact Prog.Hoare.pure (fun s hs => Or.inl hs.1.1)
    · exact Prog.Hoare.pure (fun s hs => Or.inl hs.1.1)
    · show Prog.Hoare _ _ (deleteStored env stored code) _
      unfold deleteStored
      split
      · exact Prog.Hoare.pure (fun s hs => Or.inl hs.1.1)
      · next secret hsecret =>
        refine Prog.Hoare.bind (fun _ s => Holding row now s ∧ row = some stored) ?_
          (fun locked => ?_)
        · intro s hs
          exact ⟨hoare_keepsRow keepsRow_isLockedOut s hs.1,(hs.2 _ rfl).symm⟩
        · refine Prog.Hoare.ite (fun _ => Prog.Hoare.pure (fun s hs => Or.inl hs.1.1))
            (fun _ s hs => ?_)
          refine (hoare_verifyAndDelete secret code s hs.1).imp_right (fun hv => ⟨secret,?_,hv⟩)
          rw [hs.2]
          exact hsecret

theorem keepsRow_totpSetup (email : String) : (totpSetup env email).All MfaCall.KeepsRow := by
  refine Prog.AllWhere.perform_bind trivial (fun r _ => ?_)
  rcases r with e | secret
  · trivial
  · dsimp only
    split <;> trivial

end Requests

/-! ### The system -/

section System

variable {env : MfaEnv} {s s' : EnrolmentSystem}

/-- A request whose code is vouched for keeps the enrolment protected. -/
theorem protected_request {r : MfaRequest} {weathers : Nat → MfaWeather}
    (h : s.Vouched env (.request r weathers)) :
    Handled.Protected env ⟨r,s.world,((r.task env).exec env weathers s.world).2⟩ := by
  intro enrolled hmem hchanged
  change ((r.task env).run (env.serveNth weathers) (s.world,0)).2.1.db.totp ≠ _ at hchanged
  have hs : Holding s.world.db.totp s.world.now (s.world,0) := ⟨rfl,rfl⟩
  cases r with
  | setup email =>
    exact (hchanged (hoare_keepsRow (keepsRow_totpSetup email) _ hs).1).elim
  | confirm secret code =>
    simp only [MfaRequest.task] at hchanged
    rcases hoare_totpConfirm secret code _ hs with hrow | hvalid
    · exact (hchanged hrow).elim
    · exact ⟨code,rfl,h enrolled hmem hvalid⟩
  | delete code =>
    simp only [MfaRequest.task] at hchanged
    rcases hoare_totpDelete code _ hs with hrow | ⟨secret,hsecret,hvalid⟩
    · exact (hchanged hrow).elim
    · obtain rfl : enrolled = secret := Option.mem_unique hmem hsecret
      exact ⟨code,rfl,hvalid⟩

theorem protected_step {e : EnrolmentEvent} (hi : ∀ h ∈ s.handled, h.Protected env)
    (hok : s.Vouched env e) (he : s.step env e = some s') : ∀ h ∈ s'.handled, h.Protected env := by
  cases e with
  | request r weathers =>
    obtain rfl := Option.some.inj he
    intro h hmem
    rcases List.mem_append.mp hmem with hmem | hmem
    · exact hi h hmem
    · rw [List.mem_singleton.mp hmem]
      exact protected_request hok
  | tick secs =>
    obtain rfl := Option.some.inj he
    exact hi

end System

/-- In every run of requests in which each confirm request whose code is valid for the secret it
brings carries one valid for the enrolled secret too, an enrolled secret is replaced or removed
only by a request with a code valid for it. -/
theorem enrolment_protected {env : MfaEnv} {w : MfaWorld} {es : List EnrolmentEvent}
    {s : EnrolmentSystem}
    (h : Run (EnrolmentSystem.step env) (EnrolmentSystem.Vouched env) ⟨w,[]⟩ es s) :
    ∀ r ∈ s.handled, r.Protected env :=
  h.invariant (P := fun s => ∀ r ∈ s.handled, r.Protected env)
    (fun _ hr => absurd hr List.not_mem_nil) (fun _ _ _ hi hok he => protected_step hi hok he)

/-! ### Samples -/

/-- A second secret is enrolled after the first has been removed with its code. -/
def reenrolled : List EnrolmentEvent :=
  [.request (.delete "359152") (fun _ => fair),.tick 30,
    .request (.setup "a@example.com") (fun _ => fair),
    .request (.confirm secondSecret.secret "111507") (fun _ => fair)]

theorem enrolment_protected_reenrolled :
    ∃ s, Run (EnrolmentSystem.step sampleEnv) (EnrolmentSystem.Vouched sampleEnv)
        ⟨enrolledAccount,[]⟩ reenrolled s ∧
      s.world.enrolledSecret sampleEnv = some secondSecret.secret ∧
        ∀ r ∈ s.handled, r.Protected sampleEnv := by
  have hv : (execWhere (EnrolmentSystem.step sampleEnv) (EnrolmentSystem.Vouched sampleEnv)
      ⟨enrolledAccount,[]⟩ reenrolled).map (fun s => s.world.enrolledSecret sampleEnv) =
        some (some secondSecret.secret) := by
    decide +kernel
  obtain ⟨s,hrun,hl⟩ := run_of_map_execWhere hv
  exact ⟨s,hrun,hl,enrolment_protected hrun⟩

/-- A confirm request brings a secret and a code valid for it, but not for the enrolled one. -/
def overwriting : List EnrolmentEvent :=
  [.request (.confirm secondSecret.secret "946038") (fun _ => fair)]

/-- It replaces the enrolled secret. -/
theorem confirm_replaces_enrolled :
    ¬∀ (env : MfaEnv) (w : MfaWorld) (es : List EnrolmentEvent) (s : EnrolmentSystem),
      Run (EnrolmentSystem.step env) (fun _ _ => True) ⟨w,[]⟩ es s →
        ∀ r ∈ s.handled, r.Protected env := by
  intro hall
  have hv : (execWhere (EnrolmentSystem.step sampleEnv) (fun _ _ => True)
      ⟨enrolledAccount,[]⟩ overwriting).map
        (fun s => decide (∀ r ∈ s.handled, r.Protected sampleEnv)) = some false := by
    decide +kernel
  obtain ⟨s,hrun,hl⟩ := run_of_map_execWhere hv
  exact of_decide_eq_false hl (hall _ _ overwriting s hrun)

end Rav
