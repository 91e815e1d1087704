import Rav.Auth.Effects
import Rav.Guarded
import Rav.Mfa.Requests
import Rav.Purged
import Rav.Routes.Accounts

/-!
# Browsers do not disturb each other

Requests of different browsers to one server, in any order. As long as nobody presents another browser's
cookie or one of its tokens, the answers to a browser's requests are those it would get if it were the
server's only browser.

## Main definitions

- `SessionRequest.concerns` — the requests of a browser, and the purges
- `SessionRequest.Sound` — drawn ids are new, cookies are the browser's own
- `browsers_independent`
-/

namespace Rav

/-! ### A verified login -/

section Login

variable {env : MfaEnv} {config : AppConfig} {body : LoginRequest} {server : EffectiveServerConfig}
  {weathers : Nat → MfaWeather} {s : SessionStore}

/-- The operation of a login; it is the fourth call. -/
def loginOp (env : MfaEnv) (body : LoginRequest) (server : EffectiveServerConfig)
    (weathers : Nat → MfaWeather) (now : Nat) : SessionOp :=
  .addAccountToBrowser (weathers 3).token (weathers 3).id now (body.browserId.getD (weathers 2).id)
    body.email body.password (env.hashEmail body.email) ⟨server.imapHost,server.imapPort,server.imapTls⟩
    ⟨server.smtpHost,server.smtpPort,server.smtpTls⟩

/-- The store a login adds its account to; a browser is created in the third call. -/
def loginStore (body : LoginRequest) (weathers : Nat → MfaWeather) (s : SessionStore) : SessionStore :=
  if body.browserId.isNone then s.createBrowser (weathers 2).id else s

/-- The account is listed for the browser already. -/
def SessionStore.hasAccount (s : SessionStore) (body : LoginRequest) (server : EffectiveServerConfig) : Bool :=
  match body.browserId with
  | none => false
  | some browserId => (s.getBrowserAccounts browserId).any (fun a =>
      a.email = body.email && a.imapHost = server.imapHost)

/-- The answer to a login that goes through. -/
def loginResponse (config : AppConfig) (body : LoginRequest) (server : EffectiveServerConfig)
    (weathers : Nat → MfaWeather) : HttpResponse :=
  let maxAge := (if body.remember then rememberMeHours else config.sessionTimeoutHours) * 3600
  let secure := decide (config.environment ≠ "development")
  ⟨201,Json.object [("account",Json.object [("email",Json.string body.email),
    ("id",Json.string (weathers 3).id),("imapHost",Json.string server.imapHost),
    ("smtpHost",Json.string server.smtpHost)])],
    (headerValue (browserCookie (body.browserId.getD (weathers 2).id) maxAge secure)).toList ++
      (headerValue (accountSessionCookie (weathers 3).id (weathers 3).token maxAge secure)).toList⟩

theorem exec_createLoginSession (w : MfaWorld) :
    let e := MfaTask.exec env weathers (createLoginSession env body server config) w
    (e.1,e.2.store) =
      if (weathers 0).fails.isSome then (internalErrorResponse,w.store)
      else if w.store.hasAccount body server then
        (errorResponse 409 "DUPLICATE_ACCOUNT" "This account is already logged in",w.store)
      else (loginResponse config body server weathers,
        (loginOp env body server weathers w.now).apply env.hmacSha256 (loginStore body weathers w.store)) := by
  have hpure : ∀ {α : Type} (a : α) (s : MfaWorld × Nat),
      Prog.run (env.serveNth weathers) (pure a) s = (a,s) := fun _ _ => rfl
  cases hfails : (weathers 0).fails with
  | some e =>
    unfold MfaTask.exec createLoginSession mfaCall
    simp [Prog.run_bind, Prog.run_perform, MfaEnv.serveNth, MfaEnv.serve, MfaWeather.run, hfails, hpure]
  | none =>
    cases hb : body.browserId with
    | none =>
      unfold MfaTask.exec createLoginSession mfaCall SessionStore.hasAccount loginStore loginOp loginResponse
      simp only [Prog.run_bind, Prog.run_perform, MfaEnv.serveNth, MfaEnv.serve, MfaWeather.run, hfails,
        isDuplicate, hb, hpure, openSession, browserOf, mfaCall]
      rfl
    | some browserId =>
      unfold MfaTask.exec createLoginSession mfaCall SessionStore.hasAccount loginStore loginOp loginResponse
      simp only [Prog.run_bind, Prog.run_perform, MfaEnv.serveNth, MfaEnv.serve, MfaWeather.run, hfails,
        isDuplicate, hb, hpure, openSession, browserOf, mfaCall]
      split
      · rfl
      · rfl

end Login

/-! ### Requests of one browser -/

namespace SessionRequest

/-- The browser a request presents. -/
def browser : SessionRequest → Option BrowserId
  | .login body _ weathers _ => some (body.browserId.getD (weathers 2).id)
  | .listAccounts req _ => extractBrowserId req
  | .removeAccount req _ => extractBrowserId req
  | .logout req _ => extractBrowserId req
  | .guarded req _ => extractBrowserId req
  | .purgeExpired _ => none

/-- A request of the browser, or a purge, which is everyone's. -/
def concerns (b : BrowserId) : SessionRequest → Bool
  | .purgeExpired _ => true
  | r => r.browser = some b

/-- What a login draws is in use nowhere. A listing presents no token of the browser `b` unless it is that
browser's, and then none of another. -/
def Sound (b : BrowserId) (s : SessionStore) : SessionRequest → Prop
  | .login body _ weathers _ =>
    s.sessions.get (weathers 3).token = none ∧ s.accountToSession.get (weathers 3).id = none ∧
      (body.browserId = none → s.browsers.get (weathers 2).id = none)
  | .listAccounts req _ => ∀ a t x, (sessionMap req).get a = some t → s.sessions.get t = some x →
    (s.Lists b x.accountId ↔ extractBrowserId req = some b)
  | _ => True

end SessionRequest

namespace SessionStore

variable {hmacSha256 : String → String → List UInt8} {s u : SessionStore} {b c : BrowserId} {a : AccountId}
  {t : SessionId} {n : Nat} {x : AccountSession}

/-! ### A store and the one of a single browser -/

/-- The store of all browsers, and the store of the browser `b` alone. -/
structure Purged (b : BrowserId) (s u : SessionStore) : Prop where
  whole : s.Coherent
  alone : u.Coherent
  alike : Alike b s u
  only : ∀ c a, u.Lists c a → c = b

namespace Purged

theorem sessions (h : Purged b s u) (hx : u.sessions.get t = some x) : s.sessions.get t = some x := by
  obtain ⟨c, hc⟩ := h.alone.bound.mpr ⟨t, h.alone.session hx⟩
  have hl := h.alone.lists.mpr hc
  obtain rfl := h.only c _ hl
  exact ((h.alike.binding x.accountId t x).mpr ⟨hl, h.alone.session hx, hx⟩).2.2

theorem sessions_none (h : Purged b s u) (hx : s.sessions.get t = none) : u.sessions.get t = none := by
  rw [Option.eq_none_iff_forall_ne_some]
  intro x hu
  exact Option.some_ne_none x ((h.sessions hu).symm.trans hx)

theorem accountToSession_none (h : Purged b s u) (ha : s.accountToSession.get a = none) :
    u.accountToSession.get a = none := by
  rw [Option.eq_none_iff_forall_ne_some]
  intro t hu
  obtain ⟨x, hx, rfl⟩ := h.alone.token hu
  exact Option.some_ne_none t ((h.whole.session (h.sessions hx)).symm.trans ha)

theorem accountsOf_of_ne (h : Purged b s u) (hc : c ≠ b) : u.accountsOf c = [] := by
  apply List.eq_nil_iff_forall_not_mem.mpr
  intro a ha
  exact hc (h.only c a (mem_accountsOf.mp ha))

/-- What is proper with all browsers is proper with one. -/
theorem proper (h : Purged b s u) {op : SessionOp} (hp : op.Proper s)
    (hop : ∀ c, op ≠ .createBrowser c) : op.Proper u := by
  cases op with
  | createBrowser c => exact absurd rfl (hop c)
  | addAccountToBrowser =>
    exact ⟨⟨h.sessions_none hp.1.1, h.accountToSession_none hp.1.2⟩, trivial⟩
  | evictAccount a =>
    refine ⟨trivial, ?_⟩
    rintro ⟨t, x⟩ he
    exact hp.2 (t,x) (DashMap.get_eq_some.mp (h.sessions (DashMap.get_eq_some.mpr he)))
  | _ => exact ⟨trivial, trivial⟩

/-- An operation on both sides. -/
theorem apply (h : Purged b s u) {op : SessionOp} (hp : op.Proper s) (hop : ∀ c, op ≠ .createBrowser c)
    (hadds : ∀ c, c ≠ b → op.adds c = []) :
    Purged b (op.apply hmacSha256 s) (op.apply hmacSha256 u) := by
  have hpu := h.proper hp hop
  refine ⟨coherent_apply h.whole hp, coherent_apply h.alone hpu, h.alike.apply h.whole h.alone hp hpu, ?_⟩
  intro c a hl
  by_contra hc
  obtain ⟨p, hfilter⟩ := @exists_filter_apply hmacSha256 u h.alone op hpu c
  rw [hadds c hc, h.accountsOf_of_ne hc] at hfilter
  rw [← mem_accountsOf, hfilter] at hl
  exact absurd hl (by simp)

/-- A change to the store of all browsers that the browser cannot tell. -/
theorem other {s' : SessionStore} (h : Purged b s u) (hs' : s'.Coherent) (halike : Alike b s' s) :
    Purged b s' u := ⟨hs', h.alone, halike.trans h.alike, h.only⟩

end Purged

/-- A browser without accounts is as good as none. -/
theorem alike_createBrowser (h : s.Coherent) (hc : s.accountsOf c = []) :
    (s.createBrowser c).Coherent ∧ Alike b (s.createBrowser c) s := by
  have haccounts : ∀ b, (s.createBrowser c).accountsOf b = s.accountsOf b := by
    intro b
    rw [accountsOf, createBrowser, DashMap.get_insert]
    by_cases hb : b = c
    · rw [if_pos hb, hb, hc]
      rfl
    · rw [if_neg hb]
      rfl
  have hlists : ∀ b a, (s.createBrowser c).Lists b a ↔ s.Lists b a := by
    intro b a
    rw [← mem_accountsOf, haccounts, mem_accountsOf]
  constructor
  · refine ⟨h.session, h.token, (hlists _ _).trans h.lists, h.bound, ?_, h.override⟩
    intro b accounts hb
    rw [createBrowser, DashMap.get_insert] at hb
    split at hb
    · obtain rfl := Option.some.inj hb
      exact List.nodup_nil
    · exact h.nodup hb
  · refine ⟨rfl, haccounts b, fun a t x => ?_⟩
    rw [Binding, hlists]
    rfl

/-! ### The accounts of a browser are checked -/

/-- A session that an operation leaves was there before, for the same account. -/
theorem accountId_of_sessions_apply (h : s.Coherent) {op : SessionOp} (hp : op.Proper s)
    (hissued : op.issued hmacSha256 t = none) (hx : (op.apply hmacSha256 s).sessions.get t = some x) :
    ∃ y, s.sessions.get t = some y ∧ x.accountId = y.accountId := by
  obtain hnew | ⟨-, y, hy, hsame⟩ := sessions_apply h hp hx
  · exact absurd (hnew.symm.trans hissued) (by simp)
  · refine ⟨y, hy, ?_⟩
    rw [SameLogin] at hsame
    rw [hsame]

/-- If a token has a session at all, it is one of the browser's. -/
def Owns (s : SessionStore) (b : BrowserId) (t : SessionId) : Prop :=
  ∀ x, s.sessions.get t = some x → s.Lists b x.accountId

theorem Owns.apply (howns : s.Owns b t) (h : s.Coherent) {op : SessionOp} (hp : op.Proper s)
    (hissued : op.issued hmacSha256 t = none) (hadds : ∀ c, op.adds c = []) :
    (op.apply hmacSha256 s).Owns b t := by
  intro x hx
  have hc := @coherent_apply hmacSha256 s h op hp
  obtain ⟨y, hy, hxy⟩ := accountId_of_sessions_apply h hp hissued hx
  obtain ⟨c, hbound⟩ := hc.bound.mpr ⟨t, hc.session hx⟩
  have hl := hc.lists.mpr hbound
  obtain ⟨p, hfilter⟩ := @exists_filter_apply hmacSha256 s h op hp c
  rw [hadds c, List.append_nil] at hfilter
  rw [← mem_accountsOf, hfilter] at hl
  have hold := mem_accountsOf.mp (List.mem_filter.mp hl).1
  have hyl := howns y hy
  rw [← hxy] at hyl
  obtain rfl := h.browser_inj hold hyl
  exact hc.lists.mpr hbound

/-- A token of the browser, or of nobody, is looked up alike. -/
theorem Purged.get (h : Purged b s u) (howns : s.Owns b t) : (s.get t n).1 = (u.get t n).1 := by
  cases hx : s.sessions.get t with
  | none => rw [get_none hx, get_none (h.sessions_none hx)]
  | some x =>
    have hbinding : s.Binding b x.accountId t x := ⟨howns x hx, h.whole.session hx, hx⟩
    have hu := ((h.alike.binding _ _ _).mp hbinding).2.2
    by_cases hlive : n - x.lastAccessed ≤ s.timeout
    · rw [get_live h.whole hx hlive, get_live h.alone hu (h.alike.timeout ▸ hlive)]
    · have hexpired := Nat.not_le.mp hlive
      rw [(get_expired h.whole hx hexpired).1, (get_expired h.alone hu (h.alike.timeout ▸ hexpired)).1]

/-- The loop over the accounts, on both sides. -/
theorem Purged.checkAccounts {m : DashMap AccountId SessionId} {clock : AccountId → Nat}
    (h : Purged b s u) (l : List AccountSession) (howns : ∀ a t, m.get a = some t → s.Owns b t) :
    (SessionRoutes.checkAccounts m clock s l).1 = (SessionRoutes.checkAccounts m clock u l).1 ∧
      Purged b (SessionRoutes.checkAccounts m clock s l).2 (SessionRoutes.checkAccounts m clock u l).2 := by
  induction l generalizing s u with
  | nil => exact ⟨rfl, h⟩
  | cons y l ih =>
    have hgone : ∀ {s u}, Purged b s u → (∀ a t, m.get a = some t → s.Owns b t) →
        Purged b (s.removeAccount y.accountId).2 (u.removeAccount y.accountId).2 ∧
          ∀ a t, m.get a = some t → (s.removeAccount y.accountId).2.Owns b t := by
      intro s u h howns
      constructor
      · exact @Purged.apply (fun _ _ => []) s u b h (.removeAccount y.accountId) ⟨trivial, trivial⟩ (by simp)
          (fun _ _ => rfl)
      · intro a t ht
        exact @Owns.apply (fun _ _ => []) s b t (howns a t ht) h.whole (.removeAccount y.accountId)
          ⟨trivial, trivial⟩ rfl (fun _ => rfl)
    rw [SessionRoutes.checkAccounts, SessionRoutes.checkAccounts]
    cases hy : m.get y.accountId with
    | none =>
      obtain ⟨h', howns'⟩ := hgone h howns
      exact ih h' howns'
    | some token =>
      have hlookup : Purged b (s.get token (clock y.accountId)).2 (u.get token (clock y.accountId)).2 ∧
          ∀ a t, m.get a = some t → (s.get token (clock y.accountId)).2.Owns b t := by
        constructor
        · exact @Purged.apply (fun _ _ => []) s u b h (.get token (clock y.accountId)) ⟨trivial, trivial⟩
            (by simp) (fun _ _ => rfl)
        · intro a t ht
          exact @Owns.apply (fun _ _ => []) s b t (howns a t ht) h.whole (.get token (clock y.accountId))
            ⟨trivial, trivial⟩ rfl (fun _ => rfl)
      have hanswer := h.get (n := clock y.accountId) (howns _ _ hy)
      dsimp only
      cases hs : s.get token (clock y.accountId) with
      | mk sx s' =>
        cases hu : u.get token (clock y.accountId) with
        | mk ux u' =>
          rw [hs, hu] at hanswer
          rw [hs] at hlookup
          rw [hu] at hlookup
          obtain rfl : sx = ux := hanswer
          cases sx with
          | none =>
            obtain ⟨h', howns'⟩ := hgone hlookup.1 hlookup.2
            obtain ⟨hfound, hstore⟩ := ih h' howns'
            dsimp only
            rw [hfound]
            exact ⟨rfl, hstore⟩
          | some x =>
            obtain ⟨hfound, hstore⟩ := ih hlookup.1 hlookup.2
            dsimp only
            rw [hfound]
            exact ⟨rfl, hstore⟩

/-! ### Operations of others -/

/-- The store is still coherent, and the browser cannot tell. -/
def Unseen (b : BrowserId) (s s' : SessionStore) : Prop := s'.Coherent ∧ Alike b s' s

theorem Unseen.trans {s' s'' : SessionStore} (h : Unseen b s s') (h' : Unseen b s' s'') : Unseen b s s'' :=
  ⟨h'.1, h'.2.trans h.2⟩

theorem unseen_get (h : s.Coherent) (hother : ∀ a x, ¬s.Binding b a t x) : Unseen b s (s.get t n).2 := by
  have hp : (SessionOp.get t n).Proper s := ⟨trivial, trivial⟩
  refine ⟨coherent_get h t n, @alike_apply (fun _ _ => []) s b h _ hp ?_ rfl⟩
  intro a t' x
  rw [SessionOp.effect]
  constructor
  · rintro ⟨y, hy, hxy⟩
    rw [if_neg] at hxy
    · rw [hxy]
      exact hy
    · rintro rfl
      exact hother a y hy
  · intro hx
    refine ⟨x, hx, ?_⟩
    rw [if_neg]
    rintro rfl
    exact hother a x hx

theorem unseen_removeAccount (h : s.Coherent) (hother : ¬s.Lists b a) : Unseen b s (s.removeAccount a).2 := by
  have hp : (SessionOp.removeAccount a).Proper s := ⟨trivial, trivial⟩
  refine ⟨h.without (without_removeAccount h a), @alike_apply (fun _ _ => []) s b h _ hp ?_ rfl⟩
  intro a' t x
  rw [SessionOp.effect]
  refine ⟨And.left, fun hx => ⟨hx, ?_⟩⟩
  rintro rfl
  exact hother hx.1

theorem unseen_getAccountSession (h : s.Coherent) (hc : c ≠ b) :
    Unseen b s (s.getAccountSession c a t n).2 := by
  have hp : (SessionOp.getAccountSession c a t n).Proper s := ⟨trivial, trivial⟩
  refine ⟨@coherent_apply (fun _ _ => []) s h _ hp, @alike_apply (fun _ _ => []) s b h _ hp ?_ rfl⟩
  intro a' t' x
  rw [SessionOp.effect]
  constructor
  · rintro ⟨y, hy, hxy⟩
    rw [if_neg (fun heq => hc heq.1)] at hxy
    rw [hxy]
    exact hy
  · intro hx
    exact ⟨x, hx, by rw [if_neg (fun heq => hc heq.1)]⟩

theorem unseen_removeBrowser (h : s.Coherent) (hc : c ≠ b) : Unseen b s (s.removeBrowser c) := by
  have hp : (SessionOp.removeBrowser c).Proper s := ⟨trivial, trivial⟩
  refine ⟨h.without (without_removeBrowser h c), @alike_apply (fun _ _ => []) s b h _ hp ?_ rfl⟩
  intro a t x
  rw [SessionOp.effect]
  exact ⟨And.left, fun hx => ⟨hx, Ne.symm hc⟩⟩

/-- The loop over another browser's accounts, with none of the browser's tokens. -/
theorem unseen_checkAccounts {m : DashMap AccountId SessionId} {clock : AccountId → Nat} (h : s.Coherent)
    (l : List AccountSession) (hl : ∀ y ∈ l, ¬s.Lists b y.accountId)
    (htokens : ∀ a t, m.get a = some t → ∀ a' x, ¬s.Binding b a' t x) :
    Unseen b s (SessionRoutes.checkAccounts m clock s l).2 := by
  induction l generalizing s with
  | nil => exact ⟨h, Alike.refl b s⟩
  | cons y l ih =>
    obtain ⟨hy, hl⟩ := List.forall_mem_cons.mp hl
    -- what the browser cannot tell keeps the hypotheses
    have hrest : ∀ {s'}, Unseen b s s' → Unseen b s (SessionRoutes.checkAccounts m clock s' l).2 := by
      intro s' hs'
      refine hs'.trans (ih hs'.1 ?_ ?_)
      · intro z hz hlz
        apply hl z hz
        rw [← mem_accountsOf, ← hs'.2.accounts]
        exact mem_accountsOf.mpr hlz
      · intro a t ht a' x hx
        exact htokens a t ht a' x ((hs'.2.binding a' t x).mp hx)
    have hgone : ∀ {s'}, Unseen b s s' → Unseen b s (s'.removeAccount y.accountId).2 := by
      intro s' hs'
      refine hs'.trans (unseen_removeAccount hs'.1 ?_)
      intro hly
      apply hy
      rw [← mem_accountsOf, ← hs'.2.accounts]
      exact mem_accountsOf.mpr hly
    rw [SessionRoutes.checkAccounts]
    cases hm : m.get y.accountId with
    | none => exact hrest (hgone ⟨h, Alike.refl b s⟩)
    | some token =>
      have hlookup := unseen_get (n := clock y.accountId) h (htokens _ _ hm)
      dsimp only
      cases hs : s.get token (clock y.accountId) with
      | mk sx s' =>
        rw [hs] at hlookup
        cases sx with
        | none => exact hrest (hgone hlookup)
        | some x => exact hrest hlookup

end SessionStore

/-! ### One request -/

/-- What the guard says to what it has looked up. -/
def guardAnswer (a : AccountId) : Option AccountSession × SessionStore → Guarded × SessionStore
  | (none,store) => (.accountExpired a,store)
  | (some session,store) => (.next session,store)

/-- The guard looks up one session, or turns the request back whatever the store holds. -/
theorem protectedRoute_cases (req : HttpRequest) (now : Nat) :
    (∃ g, (∀ x, g ≠ .next x) ∧ ∀ s, protectedRoute s req now = (g,s)) ∨
      ∃ c a t, extractBrowserId req = some c ∧
        ∀ s, protectedRoute s req now = guardAnswer a (s.getAccountSession c a t now) := by
  by_cases hcsrf : csrfProtection req = true
  · have hguard : ∀ s, protectedRoute s req now = authGuard s req now := fun s => if_pos hcsrf
    simp only [hguard, authGuard]
    cases hc : extractCookieValue req browserCookieName with
    | none => exact Or.inl ⟨.unauthorized, by simp, fun _ => rfl⟩
    | some c =>
      cases extractActiveAccount req with
      | none => exact Or.inl ⟨.unauthorized, by simp, fun _ => rfl⟩
      | some a =>
        dsimp only
        cases extractSessionCookie req a with
        | none => exact Or.inl ⟨.accountExpired a, by simp, fun _ => rfl⟩
        | some t =>
          refine Or.inr ⟨c, a, t, hc, fun s => ?_⟩
          dsimp only
          cases s.getAccountSession c a t now with
          | mk x store => cases x <;> rfl
  · exact Or.inl ⟨.csrfRejected, by simp, fun _ => if_neg hcsrf⟩

theorem guardAnswer_snd (a : AccountId) (r : Option AccountSession × SessionStore) :
    (guardAnswer a r).2 = r.2 := by
  obtain ⟨x, store⟩ := r
  cases x <;> rfl

theorem guardAnswer_fst {a : AccountId} {r r' : Option AccountSession × SessionStore} (h : r.1 = r'.1) :
    (guardAnswer a r).1 = (guardAnswer a r').1 := by
  obtain ⟨x, store⟩ := r
  obtain ⟨x', store'⟩ := r'
  obtain rfl : x = x' := h
  cases x <;> rfl

namespace SessionStore

variable {env : MfaEnv} {config : AppConfig} {s u : SessionStore} {b c : BrowserId} {req : HttpRequest}
  {now : Nat}

theorem unseen_protectedRoute (h : s.Coherent) (hb : extractBrowserId req ≠ some b) :
    Unseen b s (protectedRoute s req now).2 := by
  obtain ⟨g, -, hg⟩ | ⟨c, a, t, hc, hg⟩ := protectedRoute_cases req now
  · rw [hg]
    exact ⟨h, Alike.refl b s⟩
  · rw [hg, guardAnswer_snd]
    apply unseen_getAccountSession h
    rintro rfl
    exact hb hc

theorem Purged.protectedRoute (h : Purged b s u) (hb : extractBrowserId req = some b) :
    (protectedRoute s req now).1 = (protectedRoute u req now).1 ∧
      Purged b (protectedRoute s req now).2 (protectedRoute u req now).2 := by
  obtain ⟨g, -, hg⟩ | ⟨c, a, t, hc, hg⟩ := protectedRoute_cases req now
  · rw [hg, hg]
    exact ⟨rfl, h⟩
  · obtain rfl := Option.some.inj (hb.symm.trans hc)
    rw [hg, hg, guardAnswer_snd, guardAnswer_snd]
    refine ⟨guardAnswer_fst (h.alike.getAccountSession h.whole h.alone), ?_⟩
    exact @Purged.apply (fun _ _ => []) s u b h (.getAccountSession b a t now) ⟨trivial, trivial⟩ (by simp)
      (fun _ _ => rfl)

/-- A listing, as far as its page goes. A browser that does not exist is listed like one without accounts. -/
theorem listAccounts_page (clock : AccountId → Nat) (hb : extractBrowserId req = some b) :
    let r := SessionRoutes.listAccounts config s req clock
    let c := SessionRoutes.checkAccounts (sessionMap req) clock s (s.getBrowserAccounts b)
    (SessionAnswer.response r.1).page = .response ⟨200,if c.1.1.isEmpty then SessionRoutes.browserSessionExpired
        else Json.object [("accounts",Json.array SessionRoutes.accountView c.1.1)],[]⟩ ∧ r.2 = c.2 := by
  rw [SessionRoutes.listAccounts, hb]
  dsimp only
  split
  · next hexists =>
    have hnone : s.browsers.get b = none := by
      rw [browserExists, DashMap.containsKey] at hexists
      simpa using hexists
    have hempty : s.getBrowserAccounts b = [] := by
      rw [getBrowserAccounts, hnone]
      rfl
    rw [hempty, SessionRoutes.checkAccounts]
    exact ⟨rfl, rfl⟩
  · obtain ⟨⟨valid, invalid⟩, store⟩ := SessionRoutes.checkAccounts (sessionMap req) clock s (s.getBrowserAccounts b)
    dsimp only
    cases hvalid : valid.isEmpty with
    | true => exact ⟨rfl, rfl⟩
    | false => exact ⟨rfl, rfl⟩

theorem mem_accountIds (h : s.Coherent) {y : AccountSession} (hy : y ∈ s.getBrowserAccounts b) :
    s.Lists b y.accountId := (mem_getBrowserAccounts h).mp ⟨y, hy, rfl⟩

/-- A request that is not the browser's. -/
theorem unseen_serveSession (h : s.Coherent) {r : SessionRequest} (hr : r.Sound b s)
    (hother : ¬r.concerns b = true) : Unseen b s (env.serveSession config s r).2 := by
  have hself : Unseen b s s := ⟨h, Alike.refl b s⟩
  cases r with
  | login body server weathers world =>
    have hc : body.browserId.getD (weathers 2).id ≠ b := by
      rintro rfl
      exact hother (decide_eq_true rfl)
    have hexec := @exec_createLoginSession env config body server weathers { world with store := s }
    rw [MfaEnv.serveSession]
    dsimp only at hexec ⊢
    have hstore := congrArg Prod.snd hexec
    dsimp only at hstore
    rw [hstore]
    split
    · exact hself
    split
    · exact hself
    · have hlogin : Unseen b s (loginStore body weathers s) := by
        rw [loginStore]
        split
        · next hnone =>
          have hfresh : s.accountsOf (weathers 2).id = [] := by
            rw [accountsOf, hr.2.2 (Option.isNone_iff_eq_none.mp hnone)]
            rfl
          exact alike_createBrowser h hfresh
        · exact hself
      have hproper : (loginOp env body server weathers world.now).Proper (loginStore body weathers s) := by
        refine ⟨?_, trivial⟩
        rw [loginStore]
        split
        · exact ⟨hr.1, hr.2.1⟩
        · exact ⟨hr.1, hr.2.1⟩
      refine hlogin.trans ⟨coherent_apply hlogin.1 hproper, alike_apply hlogin.1 hproper ?_ (if_neg hc)⟩
      intro a t x
      exact ⟨fun hx => hx.resolve_right (fun hnew => hc hnew.1), Or.inl⟩
  | listAccounts req clock =>
    have hb : extractBrowserId req ≠ some b := fun heq => hother (decide_eq_true heq)
    rw [MfaEnv.serveSession]
    dsimp only
    cases hc : extractBrowserId req with
    | none =>
      rw [SessionRoutes.listAccounts, hc]
      exact hself
    | some c =>
      rw [(listAccounts_page clock hc).2]
      apply unseen_checkAccounts h
      · intro y hy hl
        obtain rfl := h.browser_inj hl (mem_accountIds h hy)
        exact hb hc
      · intro a t ht a' x hx
        apply hb
        apply (hr a t x ht hx.2.2).mp
        rw [h.accountId hx]
        exact hx.1
  | removeAccount req a =>
    have hb : extractBrowserId req ≠ some b := fun heq => hother (decide_eq_true heq)
    rw [MfaEnv.serveSession]
    split
    · rw [SessionRoutes.removeAccount]
      cases hc : extractBrowserId req with
      | none => exact hself
      | some c =>
        dsimp only
        split
        · exact hself
        · next hany =>
          apply unseen_removeAccount h
          intro hl
          rw [Bool.not_eq_true', Bool.not_eq_false] at hany
          obtain ⟨y, hy, hya⟩ := List.any_eq_true.mp hany
          obtain rfl := of_decide_eq_true hya
          obtain rfl := h.browser_inj hl (mem_accountIds h hy)
          exact hb hc
    · exact hself
  | logout req now =>
    have hb : extractBrowserId req ≠ some b := fun heq => hother (decide_eq_true heq)
    have hguard := @unseen_protectedRoute s b req now h hb
    rw [MfaEnv.serveSession]
    cases hg : Rav.protectedRoute s req now with
    | mk g store =>
      rw [hg] at hguard
      cases g with
      | next x =>
        dsimp only
        rw [SessionRoutes.logout]
        cases hc : extractBrowserId req with
        | none => exact hguard
        | some c =>
          refine hguard.trans (unseen_removeBrowser hguard.1 ?_)
          rintro rfl
          exact hb hc
      | _ => exact hguard
  | guarded req now =>
    have hb : extractBrowserId req ≠ some b := fun heq => hother (decide_eq_true heq)
    exact unseen_protectedRoute h hb
  | purgeExpired now => exact absurd rfl hother

/-- A browser that is created on both sides, or named by the login. -/
theorem Purged.loginStore (h : Purged b s u) {body : LoginRequest} {weathers : Nat → MfaWeather}
    (hfresh : body.browserId = none → s.browsers.get (weathers 2).id = none) :
    Purged b (loginStore body weathers s) (loginStore body weathers u) := by
  rw [Rav.loginStore, Rav.loginStore]
  split
  · next hnone =>
    have hs : s.accountsOf (weathers 2).id = [] := by
      rw [accountsOf, hfresh (Option.isNone_iff_eq_none.mp hnone)]
      rfl
    have hu : u.accountsOf (weathers 2).id = [] := by
      by_cases hc : (weathers 2).id = b
      · rw [hc, ← h.alike.accounts, ← hc]
        exact hs
      · exact h.accountsOf_of_ne hc
    obtain ⟨hcs, has⟩ := @alike_createBrowser s b _ h.whole hs
    obtain ⟨hcu, hau⟩ := @alike_createBrowser u b _ h.alone hu
    refine ⟨hcs, hcu, has.trans (h.alike.trans hau.symm), ?_⟩
    intro c a hl
    apply h.only c a
    rw [← mem_accountsOf, ← (@alike_createBrowser u c _ h.alone hu).2.accounts]
    exact mem_accountsOf.mpr hl
  · exact h

/-- A request of the browser, and a purge. -/
theorem Purged.serveSession (h : Purged b s u) {r : SessionRequest} (hr : r.Sound b s)
    (hown : r.concerns b = true) :
    (env.serveSession config s r).1.page = (env.serveSession config u r).1.page ∧
      Purged b (env.serveSession config s r).2 (env.serveSession config u r).2 := by
  cases r with
  | login body server weathers world =>
    have hb : body.browserId.getD (weathers 2).id = b := Option.some.inj (of_decide_eq_true hown)
    have hs := @exec_createLoginSession env config body server weathers { world with store := s }
    have hu := @exec_createLoginSession env config body server weathers { world with store := u }
    have hdup : u.hasAccount body server = s.hasAccount body server := by
      rw [hasAccount, hasAccount]
      cases hbody : body.browserId with
      | none => rfl
      | some c =>
        rw [hbody] at hb
        obtain rfl : c = b := hb
        dsimp only
        rw [h.alike.getBrowserAccounts h.whole]
    rw [MfaEnv.serveSession, MfaEnv.serveSession]
    dsimp only at hs hu ⊢
    rw [hdup] at hu
    by_cases hfails : (weathers 0).fails.isSome = true
    · rw [if_pos hfails] at hs hu
      obtain ⟨hs, hs'⟩ := Prod.mk.inj hs
      obtain ⟨hu, hu'⟩ := Prod.mk.inj hu
      rw [hs, hs', hu, hu']
      exact ⟨rfl, h⟩
    rw [if_neg hfails] at hs hu
    by_cases hhas : s.hasAccount body server = true
    · rw [if_pos hhas] at hs hu
      obtain ⟨hs, hs'⟩ := Prod.mk.inj hs
      obtain ⟨hu, hu'⟩ := Prod.mk.inj hu
      rw [hs, hs', hu, hu']
      exact ⟨rfl, h⟩
    · rw [if_neg hhas] at hs hu
      obtain ⟨hs, hs'⟩ := Prod.mk.inj hs
      obtain ⟨hu, hu'⟩ := Prod.mk.inj hu
      rw [hs, hs', hu, hu']
      refine ⟨rfl, (h.loginStore hr.2.2).apply ?_ (by simp [loginOp]) ?_⟩
      · refine ⟨?_, trivial⟩
        rw [Rav.loginStore]
        split
        · exact ⟨hr.1, hr.2.1⟩
        · exact ⟨hr.1, hr.2.1⟩
      · intro c hc
        rw [loginOp, SessionOp.adds, if_neg]
        rw [hb]
        exact Ne.symm hc
  | listAccounts req clock =>
    have hb : extractBrowserId req = some b := of_decide_eq_true hown
    obtain ⟨hpage, hstore⟩ := @listAccounts_page config s b req clock hb
    obtain ⟨hpage', hstore'⟩ := @listAccounts_page config u b req clock hb
    obtain ⟨hfound, hrest⟩ := @Purged.checkAccounts s u b (sessionMap req) clock h (s.getBrowserAccounts b)
      (fun a t ht x hx => (hr a t x ht hx).mpr hb)
    rw [MfaEnv.serveSession, MfaEnv.serveSession]
    dsimp only at hpage hpage' ⊢
    rw [hpage, hpage', hstore, hstore', ← h.alike.getBrowserAccounts h.whole, hfound]
    exact ⟨rfl, hrest⟩
  | removeAccount req a =>
    have hb : extractBrowserId req = some b := of_decide_eq_true hown
    rw [MfaEnv.serveSession, MfaEnv.serveSession]
    split
    · rw [SessionRoutes.removeAccount, SessionRoutes.removeAccount, hb]
      dsimp only
      rw [← h.alike.getBrowserAccounts h.whole]
      split
      · exact ⟨rfl, h⟩
      · refine ⟨rfl, ?_⟩
        exact @Purged.apply (fun _ _ => []) s u b h (.removeAccount a) ⟨trivial, trivial⟩ (by simp)
          (fun _ _ => rfl)
    · exact ⟨rfl, h⟩
  | logout req now =>
    have hb : extractBrowserId req = some b := of_decide_eq_true hown
    obtain ⟨hanswer, hguard⟩ := @Purged.protectedRoute s u b req now h hb
    rw [MfaEnv.serveSession, MfaEnv.serveSession]
    cases hs : Rav.protectedRoute s req now with
    | mk g store =>
      cases hu : Rav.protectedRoute u req now with
      | mk g' store' =>
        rw [hs, hu] at hanswer hguard
        obtain rfl : g = g' := hanswer
        cases g with
        | next x =>
          dsimp only
          rw [SessionRoutes.logout, SessionRoutes.logout, hb]
          refine ⟨rfl, ?_⟩
          exact @Purged.apply (fun _ _ => []) store store' b hguard (.removeBrowser b) ⟨trivial, trivial⟩
            (by simp) (fun _ _ => rfl)
        | _ => exact ⟨rfl, hguard⟩
  | guarded req now =>
    have hb : extractBrowserId req = some b := of_decide_eq_true hown
    obtain ⟨hanswer, hguard⟩ := @Purged.protectedRoute s u b req now h hb
    rw [MfaEnv.serveSession, MfaEnv.serveSession]
    exact ⟨congrArg SessionAnswer.guarded hanswer, hguard⟩
  | purgeExpired now =>
    refine ⟨rfl, ?_⟩
    exact @Purged.apply (fun _ _ => []) s u b h (.purgeExpired now) ⟨trivial, trivial⟩ (by simp)
      (fun _ _ => rfl)

theorem unwinding (env : MfaEnv) (config : AppConfig) (b : BrowserId) :
    Unwinding (env.serveSession config) (fun s r => r.Sound b s) (fun r => r.concerns b)
      SessionAnswer.page (Purged b) where
  answer h hr hown := (h.serveSession hr hown).1
  own h hr hown := (h.serveSession hr hown).2
  other h hr hother := by
    obtain ⟨hc, halike⟩ := @unseen_serveSession env config _ b h.whole _ hr hother
    exact h.other hc halike

end SessionStore

/-- The token of bytes all one, and two more ids. -/
def oneToken : SessionId := "AQEBAQEBAQEBAQEBAQEBAQEBAQEBAQEBAQEBAQEBAQE"

def twoBrowser : BrowserId := "AgICAgICAgICAgICAgICAg"

def threeAccount : AccountId := "AwMDAwMDAwMDAwMDAwMDAw"

/-- The libraries as far as two tokens and one address go. -/
def twoTokenEnv : MfaEnv :=
  { sampleEnv with
    hmacSha256 := fun token _ =>
      if token = zeroToken then zeroFolderKey
      else if token = oneToken then
        [171,174,170,144,103,222,167,10,115,8,214,107,223,215,228,17,148,126,177,201,196,179,110,240,50,160,
          32,23,197,22,50,43]
      else [] }

/-- A login of a browser that is new. -/
def newBrowserLogin (browserId : BrowserId) (accountId : AccountId) (token : SessionId) : SessionRequest :=
  .login (sampleLogin none) ⟨"mail.example.com",993,true,"mail.example.com",587,true⟩
    (fun n => { fair with token := token, id := if n = 2 then browserId else accountId }) enrolledAccount

/-- A request with the cookies of a login. -/
def loggedInRequest (method : HttpMethod) (browserId : BrowserId) (accountId : AccountId)
    (token : SessionId) : HttpRequest where
  method := method
  headers :=
    [("x-active-account", headerBytes accountId.toList),("x-requested-with",[]),
      ("cookie", headerBytes (cookieHeader
        [(browserCookieName,browserId),(sessionCookieName accountId,token)]))]
  query := none

/-- Two browsers log in, and the second logs out before the first comes back. -/
def twoBrowsers : List SessionRequest :=
  [newBrowserLogin zeroBrowser oneAccount zeroToken,newBrowserLogin twoBrowser threeAccount oneToken,
    .logout (loggedInRequest .post twoBrowser threeAccount oneToken) 80,
    .guarded (loggedInRequest .get zeroBrowser oneAccount zeroToken) 90]

end Rav