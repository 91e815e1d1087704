import Rav.Auth.Effects
import Rav.Auth.Middleware
import Rav.FolderCipher
import Rav.Routes.Auth

/-!
# Requests that are let through

What a protected route lets through, over whole runs of the session store: the requests whose cookies
stand for a login that has not been undone or idled out, with the credentials of that login and the folder
key of its token. So a folder id is opened under the token it was made under, and only there.

## Main definitions

- `lastIssued` — the session of the last login that was given a token
- `authGuard_eq_next` — what the guard lets through
- `protectedRoute_next_iff` — over whole runs
- `folderId_opened_iff` — folder ids over whole runs
-/

namespace Rav

/-! ### The session of a token -/

/-- The session of the last login that was given a token. -/
def lastIssued (hmacSha256 : String → String → List UInt8) (t : SessionId) (ops : List SessionOp) :
    Option AccountSession :=
  ops.foldl (fun l op => (op.issued hmacSha256 t).or l) none

theorem lastIssued_snoc (hmacSha256 : String → String → List UInt8) (t : SessionId) (ops : List SessionOp)
    (op : SessionOp) : lastIssued hmacSha256 t (ops ++ [op]) =
      (op.issued hmacSha256 t).or (lastIssued hmacSha256 t ops) := by
  rw [lastIssued, List.foldl_append]
  rfl

/-- The folder key of a session belongs to its token. -/
theorem SessionOp.folderKey_of_issued {hmacSha256 : String → String → List UInt8} {t : SessionId}
    {op : SessionOp} {x : AccountSession} (h : op.issued hmacSha256 t = some x) :
    x.folderKey = deriveFolderKey hmacSha256 t := by
  cases op with
  | addAccountToBrowser token =>
    rw [issued] at h
    split at h
    · next ht =>
      obtain rfl := Option.some.inj h
      rw [ht]
    · exact absurd h.symm (Option.some_ne_none x)
  | _ => exact absurd h.symm (Option.some_ne_none x)

namespace SessionStore

variable {hmacSha256 : String → String → List UInt8} {s : SessionStore} {t : SessionId}

/-- A session that is only touched. -/
def SameLogin (x y : AccountSession) : Prop := x = { y with lastAccessed := x.lastAccessed }

theorem SameLogin.trans {x y z : AccountSession} (hxy : SameLogin x y) (hyz : SameLogin y z) :
    SameLogin x z := by
  rw [SameLogin] at hxy hyz ⊢
  rw [hyz] at hxy
  exact hxy

theorem SameLogin.folderKey {x y : AccountSession} (h : SameLogin x y) : x.folderKey = y.folderKey := by
  rw [SameLogin] at h
  rw [h]

theorem sessions_get (h : s.Coherent) {t' : SessionId} {n : Nat} {x : AccountSession}
    (hx : (s.get t' n).2.sessions.get t = some x) : ∃ y, s.sessions.get t = some y ∧ SameLogin x y := by
  cases ht : s.sessions.get t' with
  | none =>
    rw [get_none ht] at hx
    exact ⟨x, hx, rfl⟩
  | some z =>
    by_cases hlive : n - z.lastAccessed ≤ s.timeout
    · rw [get_live h ht hlive] at hx
      obtain ⟨y, hy, rfl⟩ := sessions_touch.mp hx
      refine ⟨y, hy, ?_⟩
      split <;> rfl
    · have hwithout := (get_expired h ht (Nat.not_le.mp hlive)).2
      exact ⟨x, ((hwithout.sessions t x).mp hx).1, rfl⟩

/-- After an operation a token's session is the one it had, touched perhaps, or a login's. -/
theorem sessions_apply (h : s.Coherent) {op : SessionOp} (hp : op.Proper s) {x : AccountSession}
    (hx : (op.apply hmacSha256 s).sessions.get t = some x) :
    op.issued hmacSha256 t = some x ∨
      op.issued hmacSha256 t = none ∧ ∃ y, s.sessions.get t = some y ∧ SameLogin x y := by
  cases op with
  | createBrowser b => exact Or.inr ⟨rfl, x, hx, rfl⟩
  | addAccountToBrowser token accountId now b email password userHash imap smtp =>
    rw [SessionOp.apply, addAccountToBrowser, DashMap.get_insert] at hx
    rw [SessionOp.issued]
    by_cases ht : t = token
    · rw [if_pos ht] at hx
      rw [if_pos ht.symm]
      exact Or.inl hx
    · rw [if_neg ht] at hx
      rw [if_neg (fun h => ht h.symm)]
      exact Or.inr ⟨rfl, x, hx, rfl⟩
  | getAccountSession b a t' n =>
    refine Or.inr ⟨rfl, ?_⟩
    by_cases hb : s.Lists b a ∧ s.accountToSession.get a = some t'
    · rw [SessionOp.apply, getAccountSession_of_bound hb.1 hb.2] at hx
      exact sessions_get h hx
    · rw [SessionOp.apply, getAccountSession_of_unbound hb] at hx
      exact ⟨x, hx, rfl⟩
  | get t' n => exact Or.inr ⟨rfl, sessions_get h hx⟩
  | removeAccount a => exact Or.inr ⟨rfl, x, (((without_removeAccount h a).sessions t x).mp hx).1, rfl⟩
  | removeBrowser b => exact Or.inr ⟨rfl, x, (((without_removeBrowser h b).sessions t x).mp hx).1, rfl⟩
  | evictAccount a =>
    exact Or.inr ⟨rfl, x, (((without_evictAccount h hp.2).sessions t x).mp hx).1, rfl⟩
  | purgeExpired n => exact Or.inr ⟨rfl, x, (((without_purgeExpired h n).sessions t x).mp hx).1, rfl⟩

/-- In every run a token's session is that of the last login that was given the token. -/
theorem issued_run {timeout : Nat} {ops : List SessionOp}
    (h : Run (step hmacSha256) (fun s op => op.Proper s) (new timeout) ops s) {x : AccountSession}
    (hx : s.sessions.get t = some x) : ∃ y, lastIssued hmacSha256 t ops = some y ∧ SameLogin x y := by
  induction h generalizing x with
  | nil => exact absurd hx.symm (Option.some_ne_none x)
  | @snoc u v ops op hrun hp he ih =>
    obtain rfl := Option.some.inj he
    rw [lastIssued_snoc]
    obtain hnew | ⟨hnone, y, hy, hxy⟩ := sessions_apply (coherent_run hrun) hp hx
    · exact ⟨x, by rw [hnew, Option.some_or], rfl⟩
    · obtain ⟨z, hz, hyz⟩ := ih hy
      exact ⟨z, by rw [hnone, Option.none_or, hz], hxy.trans hyz⟩

theorem folderKey_of_lastIssued {ops : List SessionOp} {x : AccountSession}
    (h : lastIssued hmacSha256 t ops = some x) : x.folderKey = deriveFolderKey hmacSha256 t := by
  induction ops using List.reverseRecOn with
  | nil => exact absurd h.symm (Option.some_ne_none x)
  | append_singleton ops op ih =>
    rw [lastIssued_snoc] at h
    cases hop : op.issued hmacSha256 t with
    | none =>
      rw [hop, Option.none_or] at h
      exact ih h
    | some y =>
      rw [hop, Option.some_or] at h
      obtain rfl := Option.some.inj h
      exact SessionOp.folderKey_of_issued hop

end SessionStore

/-! ### The guard -/

/-- What a request presents: the browser, the account it is about and the account's token. -/
structure Presents (req : HttpRequest) (b : BrowserId) (a : AccountId) (t : SessionId) : Prop where
  browser : extractCookieValue req browserCookieName = some b
  account : extractActiveAccount req = some a
  token : extractSessionCookie req a = some t

theorem authGuard_eq_next {s : SessionStore} {req : HttpRequest} {now : Nat} {x : AccountSession} :
    (authGuard s req now).1 = .next x ↔
      ∃ b a t, Presents req b a t ∧ (s.getAccountSession b a t now).1 = some x := by
  rw [authGuard]
  cases hb : extractCookieValue req browserCookieName with
  | none => exact ⟨fun h => absurd h (by simp), fun ⟨_, _, _, hp, _⟩ => absurd (hb.symm.trans hp.browser) (by simp)⟩
  | some b =>
    dsimp only
    cases ha : extractActiveAccount req with
    | none => exact ⟨fun h => absurd h (by simp), fun ⟨_, _, _, hp, _⟩ => absurd (ha.symm.trans hp.account) (by simp)⟩
    | some a =>
      dsimp only
      cases ht : extractSessionCookie req a with
      | none =>
        refine ⟨fun h => absurd h (by simp), fun ⟨_, a', _, hp, _⟩ => ?_⟩
        obtain rfl := Option.some.inj (ha.symm.trans hp.account)
        exact absurd (ht.symm.trans hp.token) (by simp)
      | some t =>
        have hunique : ∀ {b' a' t'}, Presents req b' a' t' → b' = b ∧ a' = a ∧ t' = t := by
          intro b' a' t' hp
          obtain rfl := Option.some.inj (ha.symm.trans hp.account)
          exact ⟨(Option.some.inj (hb.symm.trans hp.browser)).symm, rfl,
            (Option.some.inj (ht.symm.trans hp.token)).symm⟩
        dsimp only
        constructor
        · intro h
          refine ⟨b, a, t, ⟨hb, ha, ht⟩, ?_⟩
          split at h
          · exact absurd h (by simp)
          · next session store heq =>
            rw [heq]
            exact congrArg some (Guarded.next.inj h)
        · rintro ⟨b', a', t', hp, hx⟩
          obtain ⟨rfl, rfl, rfl⟩ := hunique hp
          split
          · next store heq => rw [heq] at hx; exact absurd hx (by simp)
          · next session store heq =>
            rw [heq] at hx
            rw [Option.some.inj hx]

/-! ### The cookies of a login -/

/-- What a browser keeps of a `Set-Cookie` header: a name and a value before the first semicolon. -/
def storedCookie (setCookie : String) : Option (String × String) :=
  (splitOnce ['='] (setCookie.toList.takeWhile (· ≠ ';'))).map fun c =>
    (String.ofList (trimText c.1),String.ofList (trimText c.2))

/-- A browser keeps one cookie of a name. -/
def keepCookie (jar : List (String × String)) (c : String × String) : List (String × String) :=
  jar.filter (fun d => d.1 ≠ c.1) ++ [c]

/-- The cookies of a browser after a response. -/
def keepCookies (jar : List (String × String)) (setCookies : List String) : List (String × String) :=
  (setCookies.filterMap storedCookie).foldl keepCookie jar

/-- The bytes of a header of ASCII characters. -/
def headerBytes (s : List Char) : List UInt8 := s.map (fun c => UInt8.ofNat c.toNat)

/-- An id or a token from the bytes that were drawn, 16 or 32 of them. -/
def SessionStore.generateId (bytes : List UInt8) : String :=
  String.ofList (Base64.urlSafeNoPad.encode bytes)

/-- An id or a token as they are drawn: characters that a cookie may hold. -/
def DrawnId (id : String) : Prop := id ≠ "" ∧ ∀ c ∈ id.toList, CookieChar c ∧ c ≠ '='

theorem drawnId_generateId {bytes : List UInt8} (hne : bytes ≠ []) : DrawnId (SessionStore.generateId bytes) := by
  rw [DrawnId, SessionStore.generateId, String.toList_ofList]
  constructor
  · intro hempty
    have hlong := Base64.urlSafeNoPad.length_lt_encode hne
    rw [← String.toList_ofList (l := Base64.urlSafeNoPad.encode bytes), hempty] at hlong
    exact absurd hlong (Nat.not_lt_zero _)
  · intro c hc
    have hchars : ∀ n < 64, CookieChar (Base64.urlSafeNoPad.char n) ∧ Base64.urlSafeNoPad.char n ≠ '=' := by
      decide
    obtain ⟨rfl, hpad⟩ | ⟨n, hn, rfl⟩ := Base64.urlSafeNoPad.mem_encode hc
    · exact absurd hpad (by decide)
    · exact hchars n hn

theorem headerToStr_headerBytes {s : List Char} (h : ∀ c ∈ s, 32 ≤ c.toNat ∧ c.toNat < 127) :
    headerToStr (headerBytes s) = some s := by
  have hbyte : ∀ c ∈ s, (UInt8.ofNat c.toNat).toNat = c.toNat := by
    intro c hc
    have hlt := (h c hc).2
    exact UInt8.toNat_ofNat_of_lt (Nat.lt_trans hlt (by decide))
  rw [headerToStr, if_pos, headerBytes, List.map_map]
  · congr 1
    refine (List.map_congr_left (fun c hc => ?_)).trans (List.map_id s)
    rw [Function.comp_apply, hbyte c hc, Char.ofNat_toNat]
    rfl
  · rw [List.all_eq_true]
    intro b hb
    obtain ⟨c, hc, rfl⟩ := List.mem_map.mp hb
    have hrange := h c hc
    have hlow : (32 : UInt8) ≤ UInt8.ofNat c.toNat := by
      rw [UInt8.le_iff_toNat_le, hbyte c hc]
      exact hrange.1
    have hhigh : UInt8.ofNat c.toNat < 127 := by
      rw [UInt8.lt_iff_toNat_lt, hbyte c hc]
      exact hrange.2
    simp [hlow, hhigh]

theorem cookieHeader_visible {jar : List (String × String)} (hjar : ∀ c ∈ jar, ProperCookie c) :
    ∀ ch ∈ cookieHeader jar, 32 ≤ ch.toNat ∧ ch.toNat < 127 := by
  have hvisible : ∀ {ch : Char}, CookieChar ch → 32 ≤ ch.toNat ∧ ch.toNat < 127 := by
    intro ch hch
    exact ⟨Nat.le_of_succ_le hch.1, hch.2.1⟩
  intro ch hch
  obtain hch | ⟨p, hp, hch⟩ := of_mem_intercalate hch
  · have hsep : ch = ';' ∨ ch = ' ' := by simpa using hch
    obtain rfl | rfl := hsep
    · decide
    · decide
  · obtain ⟨c, hc, rfl⟩ := List.mem_map.mp hp
    have hproper := hjar c hc
    obtain hch | hch := List.mem_append.mp hch
    · exact hvisible (hproper.name ch hch).1
    obtain rfl | hch := List.mem_cons.mp hch
    · decide
    · exact hvisible (hproper.value ch hch)

/-- A browser's cookies are what the server reads. -/
theorem extractCookieValue_jar {req : HttpRequest} {jar : List (String × String)}
    (hjar : ∀ c ∈ jar, ProperCookie c) (hreq : req.getAll "cookie" = [headerBytes (cookieHeader jar)])
    {name : String} (hname : '=' ∉ name.toList) : extractCookieValue req name = cookieOf jar name := by
  rw [extractCookieValue, hreq, List.findSome?_cons, headerToStr_headerBytes (cookieHeader_visible hjar),
    ← findSome?_cookieHeader hjar hname]
  dsimp only
  cases (splitAll [';'] (cookieHeader jar)).findSome? (segmentValue name.toList) with
  | none => rfl
  | some v => rfl

theorem storedCookie_cookie {name value : String} (attributes : String) (hname : ∀ c ∈ name.toList, CookieChar c ∧ c ≠ '=')
    (hvalue : ∀ c ∈ value.toList, CookieChar c) :
    storedCookie (name ++ "=" ++ value ++ ";" ++ attributes) = some (name,value) := by
  have hchars : (name ++ "=" ++ value ++ ";" ++ attributes).toList =
      (name.toList ++ '=' :: value.toList) ++ ';' :: attributes.toList := by
    simp only [String.toList_append, List.append_assoc]
    rfl
  have hfree : ∀ c ∈ name.toList ++ '=' :: value.toList, decide (c ≠ ';') = true := by
    intro c hc
    apply decide_eq_true
    obtain hc | hc := List.mem_append.mp hc
    · exact (hname c hc).1.2.2
    obtain rfl | hc := List.mem_cons.mp hc
    · decide
    · exact (hvalue c hc).2.2
  have hsep : '=' ∉ name.toList := fun hmem => (hname _ hmem).2 rfl
  rw [storedCookie, hchars, List.takeWhile_append_of_pos hfree, List.takeWhile_cons_of_neg (by decide),
    List.append_nil, splitOnce_char hsep, Option.map_some,
    trimText_of_forall (fun c hc => (hname c hc).1.not_whitespace),
    trimText_of_forall (fun c hc => (hvalue c hc).not_whitespace), String.ofList_toList, String.ofList_toList]

theorem cookieOf_keepCookie (jar : List (String × String)) (c : String × String) (hc : c.2 ≠ "") (name : String) :
    cookieOf (keepCookie jar c) name = if name = c.1 then some c.2 else cookieOf jar name := by
  rw [cookieOf, cookieOf, keepCookie, List.find?_append]
  by_cases hname : name = c.1
  · subst hname
    have hnone : (jar.filter (fun d => d.1 ≠ c.1)).find? (fun d => d.1 = c.1 ∧ d.2 ≠ "") = none := by
      rw [List.find?_eq_none]
      intro d hd hmatch
      have hne := of_decide_eq_true (List.mem_filter.mp hd).2
      exact hne (of_decide_eq_true hmatch).1
    have hlast : [c].find? (fun d => d.1 = c.1 ∧ d.2 ≠ "") = some c :=
      List.find?_cons_of_pos (decide_eq_true ⟨rfl, hc⟩)
    rw [if_pos rfl, hnone, Option.none_or, hlast]
    rfl
  · have hsame : (jar.filter (fun d => d.1 ≠ c.1)).find? (fun d => d.1 = name ∧ d.2 ≠ "") =
        jar.find? (fun d => d.1 = name ∧ d.2 ≠ "") := by
      rw [List.find?_filter]
      congr 1
      funext d
      by_cases hd : d.1 = name
      · have hne : d.1 ≠ c.1 := fun heq => hname (hd.symm.trans heq)
        simp [hd, hname]
      · simp [hd]
    have hlast : [c].find? (fun d => d.1 = name ∧ d.2 ≠ "") = none := by
      rw [List.find?_cons_of_neg, List.find?_nil]
      intro hmatch
      exact hname (of_decide_eq_true hmatch).1.symm
    rw [if_neg hname, hsame, hlast, Option.or_none]

theorem browserCookieName_chars : ∀ c ∈ browserCookieName.toList, CookieChar c ∧ c ≠ '=' := by
  have hchars : browserCookieName.toList = ['r','a','v','_','b','r','o','w','s','e','r'] := rfl
  rw [hchars]
  simp [CookieChar]

theorem sessionCookieName_chars {a : AccountId} (ha : DrawnId a) :
    ∀ c ∈ (sessionCookieName a).toList, CookieChar c ∧ c ≠ '=' := by
  intro c hc
  rw [sessionCookieName, String.toList_append] at hc
  obtain hc | hc := List.mem_append.mp hc
  · have hchars : "rav_session_".toList = ['r','a','v','_','s','e','s','s','i','o','n','_'] := rfl
    have hname : ∀ c ∈ "rav_session_".toList, CookieChar c ∧ c ≠ '=' := by
      rw [hchars]
      simp [CookieChar]
    exact hname c hc
  · exact ha.2 c hc

/-- The two cookies a login sets are kept under their names. -/
theorem keepCookies_login {b : BrowserId} {a : AccountId} {t : SessionId} (hb : DrawnId b) (ha : DrawnId a)
    (ht : DrawnId t) (maxAge : Nat) (secure : Bool) (jar : List (String × String)) :
    keepCookies jar [browserCookie b maxAge secure,accountSessionCookie a t maxAge secure] =
      keepCookie (keepCookie jar (browserCookieName,b)) (sessionCookieName a,t) := by
  have hbrowser : browserCookie b maxAge secure = browserCookieName ++ "=" ++ b ++ ";" ++
      ((if secure then " Secure;" else "") ++ (" SameSite=Strict; Path=/; Max-Age=" ++ toString maxAge)) := by
    apply String.toList_inj.mp
    simp only [browserCookie, browserCookieName, String.toList_append, List.append_assoc]
    rfl
  have hsession : accountSessionCookie a t maxAge secure = sessionCookieName a ++ "=" ++ t ++ ";" ++
      ((if secure then " Secure;" else "") ++
        (" HttpOnly; SameSite=Strict; Path=/; Max-Age=" ++ toString maxAge)) := by
    unfold accountSessionCookie sessionCookieName
    apply String.toList_inj.mp
    simp only [String.toList_append, List.append_assoc]
  rw [keepCookies, hbrowser, hsession, List.filterMap_cons,
    storedCookie_cookie _ browserCookieName_chars (fun c hc => (hb.2 c hc).1), List.filterMap_cons,
    storedCookie_cookie _ (sessionCookieName_chars ha) (fun c hc => (ht.2 c hc).1)]
  rfl

theorem properCookie_keepCookie {jar : List (String × String)} (hjar : ∀ c ∈ jar, ProperCookie c)
    {c : String × String} (hc : ProperCookie c) : ∀ d ∈ keepCookie jar c, ProperCookie d := by
  intro d hd
  obtain hd | hd := List.mem_append.mp hd
  · exact hjar d (List.mem_filter.mp hd).1
  · rw [List.mem_singleton.mp hd]
    exact hc

/-! ### What is let through -/

/-- A binding stands exactly if its session is handed out. -/
theorem SessionStore.standing_iff_isSome {hmacSha256 : String → String → List UInt8} {timeout : Nat}
    {ops : List SessionOp} {s : SessionStore} {now : Nat}
    (h : Run (SessionStore.step hmacSha256) (fun s op => op.Proper s) (.new timeout) ops s)
    (hclock : (ops.filterMap SessionOp.time ++ [now]).Pairwise (· ≤ ·)) {b : BrowserId} {a : AccountId}
    {t : SessionId} :
    Standing timeout ops b a t now ↔ (s.getAccountSession b a t now).1.isSome := by
  obtain ⟨htimeout, hknows⟩ := SessionStore.knows_run h
  rw [SessionStore.getAccountSession_isSome (SessionStore.coherent_run h), standing_iff hclock, htimeout]
  constructor
  · rintro ⟨l, hl, hlive⟩
    obtain ⟨y, hy, rfl⟩ := (hknows b a t l).mp hl
    exact ⟨y, hy, hlive⟩
  · rintro ⟨y, hy, hlive⟩
    exact ⟨_, (hknows b a t _).mpr ⟨y, hy, rfl⟩, hlive⟩

/-- The header that names the account, and the two cookies of its login. -/
def inboxRequest : HttpRequest where
  method := .get
  headers :=
    [("x-active-account", headerBytes oneAccount.toList),
      ("cookie", headerBytes (cookieHeader
        [(browserCookieName,zeroBrowser),(sessionCookieName oneAccount,zeroToken)]))]
  query := none

theorem presents_inboxRequest : Presents inboxRequest zeroBrowser oneAccount zeroToken := by
  refine ⟨?_, ?_, ?_⟩ <;> decide +kernel

/-- The request of a browser that had a cookie of its own before it logged in. -/
def darkRequest : HttpRequest where
  method := .get
  headers :=
    [("x-active-account", headerBytes oneAccount.toList),
      ("cookie", headerBytes (cookieHeader (keepCookies [("theme","dark")]
        [browserCookie zeroBrowser 86400 true,accountSessionCookie oneAccount zeroToken 86400 true])))]
  query := none

theorem drawnId_zero : DrawnId zeroBrowser ∧ DrawnId oneAccount ∧ DrawnId zeroToken := by
  have hbrowser : zeroBrowser = SessionStore.generateId (List.replicate 16 0) := by decide +kernel
  have haccount : oneAccount = SessionStore.generateId (List.replicate 16 1) := by decide +kernel
  have htoken : zeroToken = SessionStore.generateId (List.replicate 32 0) := by decide +kernel
  rw [hbrowser, haccount, htoken]
  exact ⟨drawnId_generateId (by decide), drawnId_generateId (by decide), drawnId_generateId (by decide)⟩

/-- The session of the login at the time 60. -/
def aliceAt60 : AccountSession where
  accountId := oneAccount
  email := "alice@example.com"
  password := "secret"
  userHash := "hash"
  imapHost := "imap.example.com"
  imapPort := 993
  imapTls := true
  smtpHost := "smtp.example.com"
  smtpPort := 587
  smtpTls := true
  lastAccessed := 60
  timeoutOverride := none
  folderKey := zeroFolderKey

/-- A protected route lets a request through exactly if it carries the header where its method asks for
one, and presents a browser, an account and a token that a login bound together, that stand since then, and
nothing but the session of that login is handed to the handler. -/
theorem protectedRoute_next_iff {hmacSha256 : String → String → List UInt8} {timeout : Nat}
    {ops : List SessionOp} {s : SessionStore} {now : Nat}
    (h : Run (SessionStore.step hmacSha256) (fun s op => op.Proper s) (.new timeout) ops s)
    (hclock : (ops.filterMap SessionOp.time ++ [now]).Pairwise (· ≤ ·)) (req : HttpRequest)
    (x : AccountSession) :
    (protectedRoute s req now).1 = .next x ↔
      csrfProtection req = true ∧ ∃ b a t login, Presents req b a t ∧ Standing timeout ops b a t now ∧
        lastIssued hmacSha256 t ops = some login ∧ x = { login with lastAccessed := now } := by
  have hc := SessionStore.coherent_run h
  have hstanding : ∀ b a t, Standing timeout ops b a t now ↔ (s.getAccountSession b a t now).1.isSome :=
    fun b a t => SessionStore.standing_iff_isSome h hclock
  have hsession : ∀ b a t, (s.getAccountSession b a t now).1 = some x ↔
      (s.getAccountSession b a t now).1.isSome ∧
        ∃ login, lastIssued hmacSha256 t ops = some login ∧ x = { login with lastAccessed := now } := by
    intro b a t
    constructor
    · intro hx
      refine ⟨by rw [hx]; rfl, ?_⟩
      obtain ⟨y, hy, -, rfl⟩ := (SessionStore.getAccountSession_eq_some hc).mp hx
      obtain ⟨login, hlogin, hsame⟩ := SessionStore.issued_run h hy.2.2
      refine ⟨login, hlogin, ?_⟩
      rw [SessionStore.SameLogin] at hsame
      rw [hsame]
    · rintro ⟨hsome, login, hlogin, rfl⟩
      obtain ⟨y, hy⟩ := Option.isSome_iff_exists.mp hsome
      obtain ⟨z, hz, -, rfl⟩ := (SessionStore.getAccountSession_eq_some hc).mp hy
      obtain ⟨login', hlogin', hsame⟩ := SessionStore.issued_run h hz.2.2
      obtain rfl := Option.some.inj (hlogin.symm.trans hlogin')
      rw [SessionStore.SameLogin] at hsame
      rw [hy, hsame]
  rw [protectedRoute]
  split
  · next hcsrf =>
    rw [authGuard_eq_next]
    simp only [hsession, ← hstanding]
    constructor
    · rintro ⟨b, a, t, hp, hs, login, hlogin, hx⟩
      exact ⟨hcsrf, b, a, t, login, hp, hs, hlogin, hx⟩
    · rintro ⟨-, b, a, t, login, hp, hs, hlogin, hx⟩
      exact ⟨b, a, t, hp, hs, login, hlogin, hx⟩
  · next hcsrf => exact ⟨fun h => absurd h (by simp), fun h => absurd h.1 hcsrf⟩

/-- The session of the login is handed over. -/
theorem protectedRoute_inboxRequest :
    ∃ s, Run (SessionStore.step fun _ _ => zeroFolderKey) (fun s op => op.Proper s) (.new 100) logIn s ∧
      (protectedRoute s inboxRequest 60).1 = .next aliceAt60 := by
  have hv : (execWhere (SessionStore.step fun _ _ => zeroFolderKey) (fun s op => op.Proper s)
      (.new 100) logIn).map (fun s =>
        (s.getAccountSession zeroBrowser oneAccount zeroToken 60).1.isSome) = some true := by
    decide
  obtain ⟨s, hrun, hl⟩ := run_of_map_execWhere hv
  have hstanding := (SessionStore.standing_iff_isSome hrun (by decide)).mpr hl
  exact ⟨s, hrun, (protectedRoute_next_iff hrun (by decide) inboxRequest aliceAt60).mpr
    ⟨rfl, zeroBrowser, oneAccount, zeroToken, { aliceAt60 with lastAccessed := 5 }, presents_inboxRequest,
      hstanding, rfl, rfl⟩⟩

/-- After a login the browser is let through with its new session, whatever other cookies it holds, until it
has been idle for longer than the timeout. -/
theorem login_cookies_pass {hmacSha256 : String → String → List UInt8} {timeout : Nat}
    {ops : List SessionOp} {s : SessionStore}
    (h : Run (SessionStore.step hmacSha256) (fun s op => op.Proper s) (.new timeout) ops s)
    {b : BrowserId} {a : AccountId} {t : SessionId} (hb : DrawnId b) (ha : DrawnId a) (ht : DrawnId t)
    {n now : Nat} {email password userHash : String} {imap smtp : ServerEndpoint}
    (hfresh : (SessionOp.addAccountToBrowser t a n b email password userHash imap smtp).Proper s)
    (hnow : now - n ≤ timeout) (maxAge : Nat) (secure : Bool) {jar : List (String × String)}
    (hjar : ∀ c ∈ jar, ProperCookie c) {req : HttpRequest}
    (hcookies : req.getAll "cookie" = [headerBytes (cookieHeader
      (keepCookies jar [browserCookie b maxAge secure,accountSessionCookie a t maxAge secure]))])
    (haccount : extractActiveAccount req = some a) :
    ∃ x, (authGuard (s.addAccountToBrowser hmacSha256 t a n b email password userHash imap smtp) req now).1 =
        .next x ∧
      x.accountId = a ∧ x.email = email ∧ x.password = password ∧ x.userHash = userHash := by
  have hc := SessionStore.coherent_run h
  have htimeout := (SessionStore.knows_run h).1
  rw [keepCookies_login hb ha ht] at hcookies
  have hproper : ∀ c ∈ keepCookie (keepCookie jar (browserCookieName,b)) (sessionCookieName a,t),
      ProperCookie c := by
    apply properCookie_keepCookie (properCookie_keepCookie hjar ?_) ?_
    · exact ⟨browserCookieName_chars, fun c hc => (hb.2 c hc).1⟩
    · exact ⟨sessionCookieName_chars ha, fun c hc => (ht.2 c hc).1⟩
  have hne : browserCookieName ≠ sessionCookieName a := by
    intro heq
    have hlen := congrArg (fun s : String => s.toList.take 5) heq
    rw [sessionCookieName, browserCookieName] at hlen
    simp only [String.toList_append] at hlen
    exact absurd hlen (by simp)
  have hpresents : Presents req b a t := by
    constructor
    · rw [extractCookieValue_jar hproper hcookies (fun hmem => (browserCookieName_chars _ hmem).2 rfl),
        cookieOf_keepCookie _ _ ht.1, if_neg hne, cookieOf_keepCookie _ _ hb.1, if_pos rfl]
    · exact haccount
    · rw [extractSessionCookie,
        extractCookieValue_jar hproper hcookies (fun hmem => (sessionCookieName_chars ha _ hmem).2 rfl),
        cookieOf_keepCookie _ _ ht.1, if_pos rfl]
  have hc' := @SessionStore.coherent_apply hmacSha256 s hc _ hfresh
  rw [SessionOp.apply] at hc'
  -- what the login wrote is what the three lookups find
  let login : AccountSession :=
    { accountId := a, email, password, userHash
      imapHost := imap.host, imapPort := imap.port, imapTls := imap.tls
      smtpHost := smtp.host, smtpPort := smtp.port, smtpTls := smtp.tls
      lastAccessed := n, timeoutOverride := none
      folderKey := deriveFolderKey hmacSha256 t }
  have hbinding : (s.addAccountToBrowser hmacSha256 t a n b email password userHash imap smtp).Binding b a t
      login := by
    refine ⟨SessionStore.lists_addAccountToBrowser.mpr (Or.inr ⟨rfl, rfl⟩), ?_, ?_⟩
    · rw [SessionStore.addAccountToBrowser, DashMap.get_insert, if_pos rfl]
    · rw [SessionStore.addAccountToBrowser, DashMap.get_insert, if_pos rfl]
  have hlive : now - login.lastAccessed ≤
      (s.addAccountToBrowser hmacSha256 t a n b email password userHash imap smtp).timeout := by
    rw [SessionStore.addAccountToBrowser, htimeout]
    exact hnow
  refine ⟨{ login with lastAccessed := now }, ?_, rfl, rfl, rfl, rfl⟩
  exact authGuard_eq_next.mpr ⟨b, a, t, hpresents,
    (SessionStore.getAccountSession_eq_some hc').mpr ⟨login, hbinding, hlive, rfl⟩⟩

theorem login_cookies_pass_zero :
    ∃ s x, Run (SessionStore.step fun _ _ => zeroFolderKey) (fun s op => op.Proper s) (.new 100)
        [.createBrowser zeroBrowser] s ∧
      (authGuard (s.addAccountToBrowser (fun _ _ => zeroFolderKey) zeroToken oneAccount 5 zeroBrowser
        "alice@example.com" "secret" "hash" ⟨"imap.example.com",993,true⟩ ⟨"smtp.example.com",587,true⟩)
        darkRequest 60).1 = .next x ∧
      x.email = "alice@example.com" := by
  have hv : (execWhere (SessionStore.step fun _ _ => zeroFolderKey) (fun s op => op.Proper s) (.new 100)
      [.createBrowser zeroBrowser]).map (fun s => decide ((SessionOp.addAccountToBrowser zeroToken oneAccount 5
        zeroBrowser "alice@example.com" "secret" "hash" ⟨"imap.example.com",993,true⟩
        ⟨"smtp.example.com",587,true⟩).Proper s)) = some true := by
    decide
  obtain ⟨s, hrun, hfresh⟩ := run_of_map_execWhere hv
  obtain ⟨hbrowser, haccount, htoken⟩ := drawnId_zero
  have hjar : ∀ c ∈ [("theme","dark")], ProperCookie c := by
    intro c hc
    rw [List.mem_singleton.mp hc]
    constructor
    · decide +kernel
    · decide +kernel
  have hcookies : darkRequest.getAll "cookie" = [headerBytes (cookieHeader (keepCookies [("theme","dark")]
      [browserCookie zeroBrowser 86400 true,accountSessionCookie oneAccount zeroToken 86400 true]))] := by
    simp [darkRequest, HttpRequest.getAll]
  have hactive : extractActiveAccount darkRequest = some oneAccount := by decide +kernel
  obtain ⟨x, hx, -, hemail, -⟩ := login_cookies_pass hrun hbrowser haccount htoken (of_decide_eq_true hfresh)
    (by decide : 60 - 5 ≤ 100) 86400 true hjar hcookies hactive
  exact ⟨s, x, hrun, hx, hemail⟩

/-! ### Folder ids -/

/-- The folder cipher of a session. -/
def AccountSession.folderCipher (aes : Aes256Gcm) (x : AccountSession) : FolderCipher := ⟨aes,x.folderKey⟩

/-- However many requests lie between two that are let through under one token, what the second opens as a
folder is what the first could have made for its name, and nothing else. -/
theorem folderId_opened_iff {hmacSha256 : String → String → List UInt8} {timeout : Nat}
    {ops ops' : List SessionOp} {s s' : SessionStore} {now now' : Nat}
    (h : Run (SessionStore.step hmacSha256) (fun s op => op.Proper s) (.new timeout) ops s)
    (h' : Run (SessionStore.step hmacSha256) (fun s op => op.Proper s) s ops' s')
    {req req' : HttpRequest} {b b' : BrowserId} {a a' : AccountId} {t : SessionId}
    (hp : Presents req b a t) (hp' : Presents req' b' a' t) {x x' : AccountSession}
    (hx : (authGuard s req now).1 = .next x) (hx' : (authGuard s' req' now').1 = .next x')
    (aes : Aes256Gcm) (id : FolderId) (name : String) :
    (x'.folderCipher aes).decrypt id = .ok name ↔
      name ≠ "" ∧ ∃ nonce : List UInt8, nonce.length = 12 ∧ id = (x.folderCipher aes).encrypt nonce name := by
  have hkey : ∀ {ops : List SessionOp} {s : SessionStore} {req : HttpRequest} {b a now}
      {x : AccountSession},
      Run (SessionStore.step hmacSha256) (fun s op => op.Proper s) (.new timeout) ops s →
      Presents req b a t → (authGuard s req now).1 = .next x →
      x.folderKey = deriveFolderKey hmacSha256 t := by
    intro ops s req b a now x hrun hp hx
    obtain ⟨b', a', t', hp', hx⟩ := authGuard_eq_next.mp hx
    obtain rfl := Option.some.inj (hp.account.symm.trans hp'.account)
    obtain rfl := Option.some.inj (hp.token.symm.trans hp'.token)
    obtain ⟨y, hy, -, rfl⟩ :=
      (SessionStore.getAccountSession_eq_some (SessionStore.coherent_run hrun)).mp hx
    obtain ⟨login, hlogin, hsame⟩ := SessionStore.issued_run hrun hy.2.2
    exact hsame.folderKey.trans (SessionStore.folderKey_of_lastIssued hlogin)
  have hcipher : x'.folderCipher aes = x.folderCipher aes := by
    rw [AccountSession.folderCipher, AccountSession.folderCipher, hkey (h.trans h') hp' hx', hkey h hp hx]
  rw [hcipher]
  exact FolderCipher.decrypt_eq_ok_iff

/-- The cipher as far as the sample uses it: its key stream for the nonce of zero bytes, and one tag. -/
def inboxGcm : Aes256Gcm where
  keystream key nonce i :=
    if key = zeroFolderKey ∧ nonce = List.replicate 12 0 then [50,221,5,54,25].getD i 0 else 0
  tag key nonce ciphertext :=
    if key = zeroFolderKey ∧ nonce = List.replicate 12 0 ∧ ciphertext = [123,147,71,121,65] then
      [1,11,160,228,184,181,103,132,62,141,21,5,80,239,187,99]
    else List.replicate 16 0
  length_tag key nonce ciphertext := by
    split
    · rfl
    · exact List.length_replicate

theorem folderId_opened_inbox :
    ∃ s s' x', Run (SessionStore.step fun _ _ => zeroFolderKey) (fun s op => op.Proper s) (.new 100) logIn s ∧
      Run (SessionStore.step fun _ _ => zeroFolderKey) (fun s op => op.Proper s) s
        [.getAccountSession zeroBrowser oneAccount zeroToken 60] s' ∧
      (authGuard s' inboxRequest 61).1 = .next x' ∧
      (x'.folderCipher inboxGcm).decrypt "AAAAAAAAAAAAAAAAe5NHeUEBC6DkuLVnhD6NFQVQ77tj" = .ok "INBOX" := by
  have hv : (execWhere (SessionStore.step fun _ _ => zeroFolderKey) (fun s op => op.Proper s) (.new 100)
      logIn).map (fun s => ((s.getAccountSession zeroBrowser oneAccount zeroToken 60).1.map (·.folderKey),
        (execWhere (SessionStore.step fun _ _ => zeroFolderKey) (fun s op => op.Proper s) s
          [.getAccountSession zeroBrowser oneAccount zeroToken 60]).map (fun s' =>
            (s'.getAccountSession zeroBrowser oneAccount zeroToken 61).1.isSome))) =
      some (some zeroFolderKey,some true) := by
    decide
  obtain ⟨s, hrun, hl⟩ := run_of_map_execWhere hv
  obtain ⟨hfirst, hsecond⟩ := Prod.mk.inj hl
  obtain ⟨s', hrun', hsome⟩ := run_of_map_execWhere hsecond
  obtain ⟨x, hx, hkey⟩ := Option.map_eq_some_iff.mp hfirst
  obtain ⟨x', hx'⟩ := Option.isSome_iff_exists.mp hsome
  have hnext := authGuard_eq_next.mpr ⟨_, _, _, presents_inboxRequest, hx⟩
  have hnext' := authGuard_eq_next.mpr ⟨_, _, _, presents_inboxRequest, hx'⟩
  refine ⟨s, s', x', hrun, hrun', hnext', ?_⟩
  apply (folderId_opened_iff hrun hrun' presents_inboxRequest presents_inboxRequest hnext hnext' inboxGcm _ _).mpr
  refine ⟨by decide, List.replicate 12 0, rfl, ?_⟩
  rw [AccountSession.folderCipher, hkey]
  decide +kernel

end Rav
