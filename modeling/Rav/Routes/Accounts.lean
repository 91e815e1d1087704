import Rav.Auth.Middleware
import Rav.Routes.Auth

/-!
# `routes::auth`: the accounts of a browser

The handlers that list the accounts of a browser, remove one and log out, and the requests that deal with
the session store: these three, the creation of a session once a login has been verified, everything behind
the guard, and the background task that purges expired sessions. Cookies of sessions are read into a map,
the last one of an account counting.

## Main definitions

- `extractBrowserId`, `extractSessionCookies`
- `SessionRoutes.listAccounts`, `removeAccount`, `logout` — the handlers
- `SessionRequest`, `MfaEnv.serveSession` — the requests and what they are answered
-/

namespace Rav

def clearingBrowserCookie (secure : Bool) : String :=
  browserCookieName ++ "=;" ++ (if secure then " Secure;" else "") ++
    " HttpOnly; SameSite=Strict; Path=/; Max-Age=0"

def clearingAccountCookie (accountId : AccountId) (secure : Bool) : String :=
  "rav_session_" ++ accountId ++ "=;" ++ (if secure then " Secure;" else "") ++
    " HttpOnly; SameSite=Strict; Path=/; Max-Age=0"

def extractBrowserId (req : HttpRequest) : Option BrowserId := extractCookieValue req "rav_browser"

/-- The account and the token of a segment of a cookie header. -/
def sessionSegment (segment : List Char) : Option (AccountId × SessionId) :=
  match stripPrefix "rav_session_".toList (trimText segment) with
  | none => none
  | some rest =>
    match splitOnce ['='] rest with
    | none => none
    | some (accountId,token) =>
      if accountId ≠ [] ∧ token ≠ [] then some (String.ofList accountId,String.ofList token) else none

def extractSessionCookies (req : HttpRequest) : List (AccountId × SessionId) :=
  ((req.getAll "cookie").filterMap headerToStr).flatMap fun cookie =>
    (splitAll [';'] cookie).filterMap sessionSegment

/-- The session cookies by account. -/
def sessionMap (req : HttpRequest) : DashMap AccountId SessionId :=
  (extractSessionCookies req).foldl (fun m c => m.insert c.1 c.2) DashMap.new

/-! ### Listing the accounts -/

namespace SessionRoutes

/-- The accounts that were found with their tokens, and those whose cookie is to be cleared. Accounts
without a session under their token are removed. -/
def checkAccounts (sessionMap : DashMap AccountId SessionId) (clock : AccountId → Nat) :
    SessionStore → List AccountSession → (List AccountSession × List AccountId) × SessionStore
  | store, [] => (([],[]),store)
  | store, session :: rest =>
    match sessionMap.get session.accountId with
    | none =>
      checkAccounts sessionMap clock (store.removeAccount session.accountId).2 rest
    | some token =>
      match store.get token (clock session.accountId) with
      | (some validSession,store) =>
        let (found,store) := checkAccounts sessionMap clock store rest
        ((validSession :: found.1,found.2),store)
      | (none,store) =>
        let (found,store) :=
          checkAccounts sessionMap clock (store.removeAccount session.accountId).2 rest
        ((found.1,session.accountId :: found.2),store)

/-- What the client is told of an account. -/
def accountView (x : AccountSession) : String :=
  Json.object [("email",Json.string x.email),("id",Json.string x.accountId),
    ("imapHost",Json.string x.imapHost),("smtpHost",Json.string x.smtpHost)]

def browserSessionExpired : String :=
  Json.object [("accounts",Json.array id []),("browserSessionExpired","true")]

/-- The answer to `list_accounts`; `clock` tells the time at which an account is looked up. -/
def listAccounts (config : AppConfig) (store : SessionStore) (req : HttpRequest) (clock : AccountId → Nat) :
    HttpResponse × SessionStore :=
  let secure := decide (config.environment ≠ "development")
  match extractBrowserId req with
  | none => (⟨200,browserSessionExpired,[]⟩,store)
  | some browserId =>
    if !store.browserExists browserId then
      (⟨200,browserSessionExpired,[clearingBrowserCookie secure]⟩,store)
    else
      let browserAccounts := store.getBrowserAccounts browserId
      let ((validAccounts,invalid),store) := checkAccounts (sessionMap req) clock store browserAccounts
      let foreign := ((sessionMap req).iter.map Prod.fst).filter
        (fun accountId => accountId ∉ browserAccounts.map (·.accountId))
      let clearCookies := (invalid ++ foreign).map (clearingAccountCookie · secure)
      if validAccounts.isEmpty then
        (⟨200,browserSessionExpired,clearingBrowserCookie secure :: clearCookies⟩,store)
      else (⟨200,Json.object [("accounts",Json.array accountView validAccounts)],clearCookies⟩,store)

/-! ### Removing an account, logging out -/

def loggedOut : String := Json.object [("status",Json.string "logged_out")]

def removeAccount (config : AppConfig) (store : SessionStore) (req : HttpRequest) (accountId : AccountId) :
    HttpResponse × SessionStore :=
  match extractBrowserId req with
  | none => (errorResponse 401 "UNAUTHORIZED" "No browser session",store)
  | some browserId =>
    if !(store.getBrowserAccounts browserId).any (fun s => s.accountId = accountId) then
      (errorResponse 403 "FORBIDDEN" "Account does not belong to this browser session",store)
    else
      let secure := decide (config.environment ≠ "development")
      (⟨200,loggedOut,(headerValue (clearingAccountCookie accountId secure)).toList⟩,
        (store.removeAccount accountId).2)

def logout (config : AppConfig) (store : SessionStore) (req : HttpRequest) : HttpResponse × SessionStore :=
  let secure := decide (config.environment ≠ "development")
  match extractBrowserId req with
  | none => (⟨200,loggedOut,[clearingBrowserCookie secure].filterMap headerValue⟩,store)
  | some browserId =>
    let cookiesToClear := (store.getBrowserAccounts browserId).map
      (fun account => clearingAccountCookie account.accountId secure)
    (⟨200,loggedOut,(cookiesToClear ++ [clearingBrowserCookie secure]).filterMap headerValue⟩,
      store.removeBrowser browserId)

end SessionRoutes

/-! ### Requests -/

/-- A request that deals with the session store. A login is one whose factors have been verified; `world` is
its account's, and `weathers` is what its calls meet and draw. -/
inductive SessionRequest
  | login (body : LoginRequest) (server : EffectiveServerConfig) (weathers : Nat → MfaWeather)
      (world : MfaWorld)
  | listAccounts (req : HttpRequest) (clock : AccountId → Nat)
  | removeAccount (req : HttpRequest) (accountId : AccountId)
  | logout (req : HttpRequest) (now : Nat)
  | guarded (req : HttpRequest) (now : Nat)
  | purgeExpired (now : Nat)

/-- What comes back: the answer of a handler, what the guard says, or nothing. -/
inductive SessionAnswer
  | response (r : HttpResponse)
  | guarded (g : Guarded)
  | done

/-- What is shown of an answer: status and body. -/
def SessionAnswer.page : SessionAnswer → SessionAnswer
  | .response r => .response { r with setCookie := [] }
  | .guarded g => .guarded g
  | .done => .done

/-- Answer one request. -/
def MfaEnv.serveSession (env : MfaEnv) (config : AppConfig) (store : SessionStore) :
    SessionRequest → SessionAnswer × SessionStore
  | .login body server weathers world =>
    let (r,w) := MfaTask.exec env weathers (createLoginSession env body server config)
      { world with store := store }
    (.response r,w.store)
  | .listAccounts req clock =>
    let (r,store) := SessionRoutes.listAccounts config store req clock
    (.response r,store)
  | .removeAccount req accountId =>
    if csrfProtection req then
      let (r,store) := SessionRoutes.removeAccount config store req accountId
      (.response r,store)
    else (.guarded .csrfRejected,store)
  | .logout req now =>
    match protectedRoute store req now with
    | (.next _,store) =>
      let (r,store) := SessionRoutes.logout config store req
      (.response r,store)
    | (g,store) => (.guarded g,store)
  | .guarded req now =>
    let (g,store) := protectedRoute store req now
    (.guarded g,store)
  | .purgeExpired now => (.done,store.purgeExpired now)

end Rav
