import Rav.Auth.Session
import Rav.Imap.Types
import Rav.Threads

/-!
# `realtime::idle`, `realtime::ws` and `db::push`

IDLE tasks in a map under user and folder, shared by the sockets that are open and by push; and the
one stored push credential of each user. Everything goes on call by call. An IDLE task reconnects for
ever, so it ends only by being aborted.

## Main definitions

- `LiveWorld` — the tasks, the push credentials, and what the outside does
- `LiveCall`, `LiveWorld.serve` — the calls, and how they are answered
- `startIdle`, `stopAll`, `handleSocketMultiAccount`
- `LiveWorld.storeCredential`, `LiveWorld.deleteCredential`
-/

namespace Rav

/-- A spawned `idle_loop`, and whether it still runs. -/
structure IdleTask where
  user : String
  folder : String
  creds : ImapCredentials
  live : Bool
  deriving DecidableEq, Repr

structure StoreCredential where
  email : String
  imapHost : String
  imapPort : UInt16
  nonce : List UInt8
  ciphertext : List UInt8
  deriving DecidableEq, Repr

/-- The row of `push_credential`. -/
structure StoredCredential extends StoreCredential where
  invalidSince : Option Nat
  deriving DecidableEq, Repr

/-- An entry of the data directory. -/
structure DirEntry where
  name : String
  isDir : Bool
  hasDb : Bool
  deriving DecidableEq, Repr

/-- Handles of tasks are their places in `spawned`. What the server answers to a listing under given
credentials, which databases open and what the data directory holds is up to the outside; what the
server has refused is remembered. -/
structure LiveWorld where
  tasks : DashMap (String × String) Nat
  spawned : List IdleTask
  credentials : String → Option StoredCredential
  running : DashMap String Unit
  listeners : List (String × ImapCredentials)
  directory : List DirEntry
  opens : String → Bool
  server : ImapCredentials → Except ImapError Unit
  refused : List ImapCredentials
  now : Nat

/-- The calls of a socket's handler and of the push worker; `closed` waits for the socket's loop to
be left, and `listen` spawns the task that turns events into pushes. -/
inductive LiveCall
  | containsKey (key : String × String)
  | spawn (user folder : String) (creds : ImapCredentials)
  | insert (key : String × String) (handle : Nat)
  | keysOf (user : String)
  | remove (key : String × String)
  | abort (handle : Nat)
  | closed
  | readDir
  | getCredential (user : String)
  | markInvalid (user : String)
  | listFolders (creds : ImapCredentials)
  | isRunning (user : String)
  | setRunning (user : String)
  | listen (user : String) (creds : ImapCredentials)

def LiveCall.Answer : LiveCall → Type
  | .containsKey _ => Bool
  | .spawn _ _ _ => Nat
  | .keysOf _ => List (String × String)
  | .remove _ => Option Nat
  | .readDir => List DirEntry
  | .getCredential _ => Option (Option StoredCredential)
  | .listFolders _ => Except ImapError Unit
  | .isRunning _ => Bool
  | _ => Unit

abbrev LiveTask := Prog LiveCall LiveCall.Answer

def liveCall (c : LiveCall) : LiveTask c.Answer := Prog.perform (R := LiveCall.Answer) c

namespace LiveWorld

/-- Store (or replace) the one credential. Replacing clears `invalid_since`. -/
def storeCredential (w : LiveWorld) (user : String) (data : StoreCredential) : LiveWorld :=
  { w with credentials := Function.update w.credentials user (some ⟨data,none⟩) }

/-- Forget the credential. The subscriptions that go with it are only read when a push is sent. -/
def deleteCredential (w : LiveWorld) (user : String) : LiveWorld :=
  { w with credentials := Function.update w.credentials user none }

/-- Record that the stored credential no longer authenticates. -/
def markInvalid (w : LiveWorld) (user : String) : LiveWorld :=
  let row := (w.credentials user).map (fun row => { row with invalidSince := some w.now })
  { w with credentials := Function.update w.credentials user row }

def abort (w : LiveWorld) (handle : Nat) : LiveWorld :=
  { w with spawned := w.spawned.modify handle (fun t => { t with live := false }) }

/-- List the folders: over a pooled session, or after a login. -/
def listFolders (w : LiveWorld) (creds : ImapCredentials) : Except ImapError Unit × LiveWorld :=
  match w.server creds with
  | .error .authenticationFailed =>
    (.error .authenticationFailed,{ w with refused := w.refused ++ [creds] })
  | r => (r,w)

/-- Answer one call. Work on a database that does not open does nothing. -/
def serve : (c : LiveCall) → LiveWorld → c.Answer × LiveWorld
  | .containsKey key, w => (w.tasks.containsKey key,w)
  | .spawn user folder creds, w =>
    (w.spawned.length,{ w with spawned := w.spawned ++ [⟨user,folder,creds,true⟩] })
  | .insert key handle, w => ((),{ w with tasks := w.tasks.insert key handle })
  | .keysOf user, w => ((w.tasks.iter.map Prod.fst).filter (fun key => key.1 = user),w)
  | .remove key, w => (w.tasks.get key,{ w with tasks := w.tasks.remove key })
  | .abort handle, w => ((),w.abort handle)
  | .closed, w => ((),w)
  | .readDir, w => (w.directory,w)
  | .getCredential user, w => (if w.opens user then some (w.credentials user) else none,w)
  | .markInvalid user, w => ((),if w.opens user then w.markInvalid user else w)
  | .listFolders creds, w => w.listFolders creds
  | .isRunning user, w => (w.running.containsKey user,w)
  | .setRunning user, w => ((),{ w with running := w.running.insert user () })
  | .listen user creds, w => ((),{ w with listeners := w.listeners ++ [(user,creds)] })

end LiveWorld

/-! ### The IDLE manager and the sockets -/

/-- Start an IDLE task for a specific user + folder. If one is already running, this is a no-op. -/
def startIdle (user folder : String) (creds : ImapCredentials) : LiveTask Unit := do
  let present : Bool ← liveCall (.containsKey (user,folder))
  if present then pure ()
  else do
    let handle : Nat ← liveCall (.spawn user folder creds)
    liveCall (.insert (user,folder) handle)

/-- Remove the tasks under the keys, and abort them. -/
def abortAll : List (String × String) → LiveTask Unit
  | [] => pure ()
  | key :: keys => do
    match ← liveCall (.remove key) with
    | some (handle : Nat) => do
      liveCall (.abort handle)
      abortAll keys
    | none => abortAll keys

/-- Stop all IDLE tasks for a user (called on WebSocket disconnect). -/
def stopAll (user : String) : LiveTask Unit := do
  let keys : List (String × String) ← liveCall (.keysOf user)
  abortAll keys

def AccountSession.imapCredentials (session : AccountSession) : ImapCredentials :=
  ⟨session.imapHost,session.imapPort,session.imapTls,session.email,session.password⟩

def startAll : List AccountSession → LiveTask Unit
  | [] => pure ()
  | session :: accounts => do
    startIdle session.userHash "INBOX" session.imapCredentials
    startAll accounts

def stopAccounts : List AccountSession → LiveTask Unit
  | [] => pure ()
  | session :: accounts => do
    stopAll session.userHash
    stopAccounts accounts

/-- The handler of a socket, as far as IDLE goes. -/
def handleSocketMultiAccount (accounts : List AccountSession) : LiveTask Unit := do
  startAll accounts
  liveCall .closed
  stopAccounts accounts

end Rav
