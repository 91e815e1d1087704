import Rav.Imap.Pool
import Rav.Imap.Types
import Rav.Threads

/-!
# `imap::session_cache`

Authenticated sessions are kept for reuse in a pool, under the account's address and host; where there
is none, a new one is opened, a few at a time for each account. Operations of the client go on call by
call. A session carries the credentials it was authenticated with, which no function reads.

## Main definitions

- `ImapSession`, `SessionCache`, `SessionCache.key`
- `SessionCall`, `SessionWorld.serve` — the calls of an operation, and how they are answered
- `acquire`, `release`, `withSession` — an operation of the client
- `SessionUse` — what an operation has been handed, with `next` and `Allows`
- `SessionSystem`, `SessionEvent`, `SessionSystem.step` — operations in progress
-/

namespace Rav

/-- An authenticated connection. -/
structure ImapSession where
  id : Nat
  creds : ImapCredentials
  deriving DecidableEq, Repr

def maxConcurrentConnectsPerAccount : Nat := 4

/-- 25 minutes, in nanoseconds. -/
def sessionMaxIdle : Nat := 25 * 60 * 1000000000

/-- The idle sessions, and the permits left of each account's semaphore. -/
structure SessionCache where
  pool : IdlePool ImapSession
  connectLimits : DashMap String Nat

namespace SessionCache

def new (maxIdle : Nat) : SessionCache := ⟨IdlePool.empty maxIdle (some sessionMaxIdle),DashMap.new⟩

def key (creds : ImapCredentials) : String := creds.email ++ "@" ++ creds.host

/-- The account's semaphore; a new one if there is none. -/
def connectLimit (c : SessionCache) (key : String) : SessionCache :=
  if c.connectLimits.containsKey key then c
  else { c with connectLimits := c.connectLimits.insert key maxConcurrentConnectsPerAccount }

end SessionCache

/-! ### Calls -/

/-- `operate` is what the session is needed for. -/
inductive SessionCall
  | take (key : String)
  | connectLimit (key : String)
  | acquirePermit (key : String)
  | connect (creds : ImapCredentials)
  | dropPermit (key : String)
  | operate (session : ImapSession)
  | put (key : String) (session : ImapSession)
  deriving DecidableEq, Repr

def SessionCall.Answer : SessionCall → Type
  | .take _ => Option ImapSession
  | .connect _ => Except ImapError ImapSession
  | .operate _ => Bool
  | _ => Unit

/-- The readings of the clock in a call, why a connection fails, and whether an operation succeeds. -/
structure SessionWeather where
  clock : Nat → Nat
  fails : Option ImapError
  healthy : Bool

/-- The cache, the credentials the server would accept, those it has accepted, and the number of
connections made. -/
structure SessionWorld where
  cache : SessionCache
  accepts : ImapCredentials → Bool
  loggedIn : List ImapCredentials
  made : Nat

namespace SessionWorld

/-- `connect`: the server accepts the credentials, or not. -/
def connect (weather : SessionWeather) (w : SessionWorld) (creds : ImapCredentials) :
    Except ImapError ImapSession × SessionWorld :=
  match weather.fails with
  | some e => (.error e,w)
  | none =>
    if w.accepts creds then
      (.ok ⟨w.made,creds⟩,{ w with loggedIn := creds :: w.loggedIn, made := w.made + 1 })
    else (.error .authenticationFailed,w)

def changePermits (w : SessionWorld) (key : String) (f : Nat → Nat) : SessionWorld :=
  { w with cache := { w.cache with connectLimits := w.cache.connectLimits.modify key f } }

def serve (weather : SessionWeather) : (c : SessionCall) → SessionWorld → c.Answer × SessionWorld
  | .take key, w =>
    ((w.cache.pool.take weather.clock key).1,
      { w with cache := { w.cache with pool := (w.cache.pool.take weather.clock key).2 } })
  | .connectLimit key, w => ((),{ w with cache := w.cache.connectLimit key })
  | .acquirePermit key, w => ((),w.changePermits key (fun n => n - 1))
  | .connect creds, w => w.connect weather creds
  | .dropPermit key, w => ((),w.changePermits key (fun n => n + 1))
  | .operate _, w => (weather.healthy,w)
  | .put key session, w =>
    ((),{ w with cache := { w.cache with
      pool := (w.cache.pool.put (weather.clock 0) key session).2 } })

/-- Whoever needs a permit waits for one. -/
def ready (w : SessionWorld) : SessionCall → Bool
  | .acquirePermit key => (w.cache.connectLimits.get key).any (fun n => 0 < n)
  | _ => true

end SessionWorld

/-! ### Operations -/

abbrev SessionTask := Prog SessionCall SessionCall.Answer

def sessionCall (c : SessionCall) : SessionTask c.Answer := Prog.perform (R := SessionCall.Answer) c

/-- Open a new session; the permit is given back whatever comes of it. -/
def openImapSession (creds : ImapCredentials) : SessionTask (Except ImapError ImapSession) := do
  let key := SessionCache.key creds
  sessionCall (.connectLimit key)
  sessionCall (.acquirePermit key)
  let r ← sessionCall (.connect creds)
  sessionCall (.dropPermit key)
  pure r

/-- Take an existing session from the cache, or create a new one. -/
def acquire (creds : ImapCredentials) : SessionTask (Except ImapError ImapSession) := do
  match ← sessionCall (.take (SessionCache.key creds)) with
  | some session => pure (.ok session)
  | none => openImapSession creds

/-- Return a healthy session for reuse after a successful operation. -/
def release (creds : ImapCredentials) (session : ImapSession) : SessionTask Unit :=
  sessionCall (.put (SessionCache.key creds) session)

/-- An operation of the client: on error paths the session is dropped. -/
def withSession (creds : ImapCredentials) : SessionTask Unit := do
  match ← acquire creds with
  | .error _ => pure ()
  | .ok session => do
    let healthy : Bool ← sessionCall (.operate session)
    if healthy then release creds session else pure ()

/-- The credentials an operation is for, and the session it has been handed. -/
structure SessionUse where
  creds : ImapCredentials
  session : Option ImapSession
  deriving DecidableEq, Repr

namespace SessionUse

def next (g : SessionUse) : (c : SessionCall) → c.Answer → SessionUse
  | .take _, (some session : Option ImapSession) => { g with session := some session }
  | .connect _, (.ok session : Except ImapError ImapSession) => { g with session := some session }
  | _, _ => g

/-- A session is looked for under the key of the credentials, opened with the credentials, and given
back under their key. -/
def Allows (g : SessionUse) : SessionCall → Prop
  | .take key => key = SessionCache.key g.creds ∧ g.session = none
  | .connect creds => creds = g.creds ∧ g.session = none
  | .operate session => g.session = some session
  | .put key session => key = SessionCache.key g.creds ∧ g.session = some session
  | _ => True

end SessionUse

theorem withSession_follows (creds : ImapCredentials) :
    (withSession creds).Follows SessionUse.Allows SessionUse.next (fun _ _ => True)
      ⟨creds,none⟩ := by
  have hrest : ∀ session, Prog.Follows SessionUse.Allows SessionUse.next (fun _ _ => True)
      ⟨creds,some session⟩ (sessionCall (.operate session) >>= fun (healthy : Bool) =>
        if healthy then release creds session else pure ()) :=
    fun session => Prog.Follows.perform_bind rfl (fun (healthy : Bool) =>
      Prog.Follows.ite (fun _ => ⟨⟨rfl,rfl⟩,fun _ => trivial⟩) (fun _ => trivial))
  refine Prog.Follows.bind (Q := fun g r => g.creds = creds ∧ g.session = r.toOption) ?_ ?_
  · refine Prog.Follows.perform_bind ⟨rfl,rfl⟩ (fun (r : Option ImapSession) => ?_)
    cases r with
    | some session => exact ⟨rfl,rfl⟩
    | none =>
      refine Prog.Follows.perform_bind trivial (fun _ => Prog.Follows.perform_bind trivial (fun _ => ?_))
      refine Prog.Follows.perform_bind ⟨rfl,rfl⟩ (fun (r : Except ImapError ImapSession) => ?_)
      refine Prog.Follows.perform_bind trivial (fun _ => ?_)
      cases r with
      | error e => exact ⟨rfl,rfl⟩
      | ok session => exact ⟨rfl,rfl⟩
  · rintro ⟨creds',session'⟩ r ⟨rfl,rfl⟩
    cases r with
    | error e => trivial
    | ok session => exact hrest session

/-! ### Operations in progress -/

abbrev SessionSystem := Threads SessionUse SessionWorld SessionCall SessionCall.Answer Unit

/-- An operation begins, or goes on; or the server accepts other credentials from now on. -/
inductive SessionEvent
  | begin (creds : ImapCredentials)
  | call (i : Nat) (weather : SessionWeather)
  | server (accepts : ImapCredentials → Bool)

namespace SessionSystem

def opening (maxIdle : Nat) (accepts : ImapCredentials → Bool) : SessionSystem :=
  ⟨⟨SessionCache.new maxIdle,accepts,[],0⟩,[]⟩

def step (s : SessionSystem) : SessionEvent → Option SessionSystem
  | .begin creds => some ⟨s.world,s.tasks ++ [(⟨creds,none⟩,withSession creds)]⟩
  | .call i weather =>
    if (s.upcoming i).all (fun u => s.world.ready u.2) then
      s.call (SessionWorld.serve weather) SessionUse.next i
    else none
  | .server accepts => some ⟨{ s.world with accepts := accepts },s.tasks⟩

end SessionSystem

end Rav
