import Rav.DashMap

/-!
# `auth::session`

The in-memory session store: four concurrent maps that refer to each other. Instants and
durations count nanoseconds; an instant before another is no time after it
(`Instant::duration_since` saturates). The operations that draw a random token or id take it as
an argument, and HMAC-SHA256 is a parameter.

## Main definitions

- `AccountSession`, `SessionStore`
- `SessionStore.addAccountToBrowser`, `SessionStore.getBrowserAccounts`, `SessionStore.get`,
  `SessionStore.getAccountSession`, `SessionStore.removeAccount`, `SessionStore.removeBrowser`,
  `SessionStore.evictAccount`, `SessionStore.purgeExpired`
- `SessionStore.checkConsistency`
-/

namespace Rav

abbrev SessionId := String

abbrev BrowserId := String

abbrev AccountId := String

/-- A mail server address, for the IMAP or the SMTP side of an account. -/
structure ServerEndpoint where
  host : String
  port : UInt16
  tls : Bool
  deriving DecidableEq, Repr

structure AccountSession where
  accountId : AccountId
  email : String
  password : String
  userHash : String
  imapHost : String
  imapPort : UInt16
  imapTls : Bool
  smtpHost : String
  smtpPort : UInt16
  smtpTls : Bool
  lastAccessed : Nat
  timeoutOverride : Option Nat
  folderKey : List UInt8
  deriving DecidableEq, Repr

/-- The key of the folder cipher, derived from the session token. -/
def deriveFolderKey (hmacSha256 : String → String → List UInt8) (token : SessionId) : List UInt8 :=
  hmacSha256 token "folder-ids"

structure SessionStore where
  sessions : DashMap SessionId AccountSession
  browsers : DashMap BrowserId (List AccountId)
  accountToSession : DashMap AccountId SessionId
  accountToBrowser : DashMap AccountId BrowserId
  timeout : Nat

namespace SessionStore

def new (timeout : Nat) : SessionStore :=
  ⟨DashMap.new,DashMap.new,DashMap.new,DashMap.new,timeout⟩

variable (s : SessionStore)

def effectiveTimeout (x : AccountSession) : Nat := x.timeoutOverride.getD s.timeout

def createBrowser (browserId : BrowserId) : SessionStore :=
  { s with browsers := s.browsers.insert browserId [] }

def addAccountToBrowser (hmacSha256 : String → String → List UInt8) (token : SessionId)
    (accountId : AccountId) (now : Nat) (browserId : BrowserId) (email password userHash : String)
    (imap smtp : ServerEndpoint) : SessionStore :=
  let session : AccountSession :=
    { accountId, email, password, userHash
      imapHost := imap.host, imapPort := imap.port, imapTls := imap.tls
      smtpHost := smtp.host, smtpPort := smtp.port, smtpTls := smtp.tls
      lastAccessed := now, timeoutOverride := none
      folderKey := deriveFolderKey hmacSha256 token }
  { s with
    sessions := s.sessions.insert token session
    accountToSession := s.accountToSession.insert accountId token
    accountToBrowser := s.accountToBrowser.insert accountId browserId
    browsers := s.browsers.insert browserId ((s.browsers.get browserId).getD [] ++ [accountId]) }

/-- The sessions of the accounts listed for a browser, expired or not. -/
def getBrowserAccounts (browserId : BrowserId) : List AccountSession :=
  ((s.browsers.get browserId).getD []).filterMap
    (fun accountId => (s.accountToSession.get accountId).bind s.sessions.get)

def browserExists (browserId : BrowserId) : Bool := s.browsers.containsKey browserId

/-- Take an account out of every index; browsers left without accounts go too. -/
def evictAccount (accountId : AccountId) : SessionStore :=
  { s with
    accountToSession := s.accountToSession.remove accountId
    accountToBrowser := s.accountToBrowser.remove accountId
    browsers := s.browsers.retain (fun _ accounts =>
      let accounts := accounts.filter (· ≠ accountId)
      if accounts.isEmpty then none else some accounts) }

/-- The session of a token. An expired one is dropped, a live one is touched. -/
def get (token : SessionId) (now : Nat) : Option AccountSession × SessionStore :=
  match s.sessions.get token with
  | none => (none,s)
  | some entry =>
    if now - entry.lastAccessed > s.effectiveTimeout entry then
      (none,evictAccount { s with sessions := s.sessions.remove token } entry.accountId)
    else
      (some { entry with lastAccessed := now },
        { s with sessions := s.sessions.modify token (fun e => { e with lastAccessed := now }) })

def getAccountSession (browserId : BrowserId) (accountId : AccountId) (token : SessionId)
    (now : Nat) : Option AccountSession × SessionStore :=
  match s.browsers.get browserId with
  | none => (none,s)
  | some accounts =>
    if accountId ∉ accounts then (none,s)
    else
      match s.accountToSession.get accountId with
      | none => (none,s)
      | some sessionId => if sessionId ≠ token then (none,s) else s.get token now

def removeAccount (accountId : AccountId) : Bool × SessionStore :=
  match s.accountToSession.get accountId with
  | none => (false,s)
  | some sessionId =>
    let s := { s with
      accountToSession := s.accountToSession.remove accountId
      sessions := s.sessions.remove sessionId }
    match s.accountToBrowser.get accountId with
    | none => (true,s)
    | some browserId =>
      -- only the first occurrence is taken out of the browser's list
      (true,{ s with
        accountToBrowser := s.accountToBrowser.remove accountId
        browsers := s.browsers.modify browserId (·.erase accountId) })

/-- Clean up one account of a removed browser. -/
def dropAccount (accountId : AccountId) : SessionStore :=
  let s := { s with accountToBrowser := s.accountToBrowser.remove accountId }
  match s.accountToSession.get accountId with
  | none => s
  | some sessionId =>
    { s with
      accountToSession := s.accountToSession.remove accountId
      sessions := s.sessions.remove sessionId }

def removeBrowser (browserId : BrowserId) : SessionStore :=
  match s.browsers.get browserId with
  | none => s
  | some accountIds =>
    accountIds.foldl dropAccount { s with browsers := s.browsers.remove browserId }

def purgeExpired (now : Nat) : SessionStore :=
  let alive := fun (x : AccountSession) => decide (now - x.lastAccessed ≤ s.effectiveTimeout x)
  let expiredAccounts :=
    (s.sessions.iter.filter (fun e => !alive e.2)).map (fun e => e.2.accountId)
  expiredAccounts.foldl evictAccount
    { s with sessions := s.sessions.retain (fun _ x => if alive x then some x else none) }

/-- What contradicts what in the four maps. -/
def checkConsistency : List String :=
  s.sessions.iter.filterMap (fun (token,x) =>
    match s.accountToSession.get x.accountId with
    | some mappedToken =>
      if mappedToken = token then none
      else some ("account_to_session[" ++ x.accountId ++ "] points to " ++ mappedToken ++
        " but session token is " ++ token)
    | none => some ("session " ++ token ++ " references account " ++ x.accountId ++
        " with no account_to_session entry")) ++
  s.accountToSession.iter.filterMap (fun (accountId,sessionId) =>
    if s.sessions.containsKey sessionId then none
    else some ("account_to_session[" ++ accountId ++ "] references missing session " ++
      sessionId)) ++
  s.browsers.iter.flatMap (fun (browserId,accounts) => accounts.filterMap (fun accountId =>
    if s.accountToSession.containsKey accountId then none
    else some ("browser " ++ browserId ++ " references account " ++ accountId ++
      " missing from account_to_session"))) ++
  s.accountToBrowser.iter.flatMap (fun (accountId,browserId) =>
    (if s.accountToSession.containsKey accountId then []
      else ["account_to_browser[" ++ accountId ++
        "] references account missing from account_to_session"]) ++
    (if s.browsers.containsKey browserId then []
      else ["account_to_browser[" ++ accountId ++ "] references missing browser " ++ browserId]))

end SessionStore

end Rav
