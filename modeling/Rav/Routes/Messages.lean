import Rav.Error
import Rav.Realtime.Sync

/-!
# `routes::messages`

The request handlers that fill the cache on demand: `list_messages` with its cold start, the
background fetch of the remaining headers, and `get_message`, which drops the row of a message
the server cannot serve. Only their dealings with the cache are modelled, not the page they
return.

## Main definitions

- `listMessages`, `coldStart` — the folder listing
- `syncRemainingHeaders` — the background fetch it spawns
- `getMessage` — one message with its body
-/

namespace Rav

def folderMessagesTtlSecs : Nat := 30

/-- Store fetched headers, stopping at the first the database refuses. -/
def upsertAndIndexHeaders (folder : String) : List ImapMessageHeader → Db → Bool × Db
  | [],db => (true,db)
  | h :: hs,db =>
    match db.upsertHeader folder h with
    | some db' => upsertAndIndexHeaders folder hs db'
    | none => (false,db)

/-- What `listMessages` learns from the cache before it asks the server. -/
structure InitialFolderCheck where
  cachedUidValidity : Nat
  cachedCount : Nat
  folderInvalidated : Bool
  deriving DecidableEq, Repr

/-- The first look at the cache; nothing where the folder is fresh. A folder without a row gets
one. -/
def initialFolderCheck (folder : String) (db : Db) : Option InitialFolderCheck × Db :=
  if db.isFolderFresh folder folderMessagesTtlSecs then (none,db)
  else
    let db' := match db.getFolder folder with
      | some _ => db
      | none => db.upsertFolder ⟨folder,none,none,"",true,0,0,0,0⟩
    (some ⟨((db.getFolder folder).map CachedFolder.uidValidity).getD 0,db'.countMessages folder,
      db'.isFolderMessagesInvalidated folder⟩,db')

inductive SyncOutcome
  | coldStart
  | stalePoke
  | noSyncNeeded
  deriving DecidableEq, Repr

/-- Decide what to do once the server's status is known; a changed UIDVALIDITY clears the
cache. -/
def syncOutcome (folder : String) (initial : InitialFolderCheck) (status : FolderStatus) (db : Db) :
    SyncOutcome × Db :=
  let needsFullSync := initial.cachedUidValidity ≠ 0 ∧ initial.cachedUidValidity ≠ status.uidValidity
  let db := if needsFullSync then db.deleteFolderMessages folder else db
  let needsSync := needsFullSync ∨ initial.cachedCount = 0 ∨ status.exists_ ≠ initial.cachedCount ∨
    initial.folderInvalidated
  if ¬needsSync then
    (.noSyncNeeded,db.updateFolderStatus folder status.uidValidity status.exists_)
  else if (needsFullSync ∨ initial.cachedCount = 0) ∧ 0 < status.exists_ then (.coldStart,db)
  else (.stalePoke,db.updateFolderStatus folder status.uidValidity status.exists_)

/-- The lowest UID of a cold start. -/
def recentStart (uidNext : Nat) : Nat := max (uidNext - 100) 1

/-- Store fetched headers, then the folder's UIDVALIDITY, count and unread count. -/
def storeFetched (folder : String) (headers : List ImapMessageHeader) (uidValidity exists_ : Nat)
    (db : Db) : Bool × Db :=
  let (ok,db) := upsertAndIndexHeaders folder headers db
  if ok then
    (true,(db.updateFolderStatus folder uidValidity exists_).refreshUnreadCount folder)
  else (false,db)

/-- Fetch the most recent headers, and leave the others to a background task. -/
def coldStart (folder : String) (status : FolderStatus) : Task (Except AppError Bool) := do
  match ← Task.imap (.fetchHeaders folder (.fromOn (recentStart status.uidNext))) with
  | .error e => pure (.error (.serviceUnavailable ("IMAP error: " ++ ImapError.display e)))
  | .ok (headers : List ImapMessageHeader) =>
    let ok ← Task.withUserDb (storeFetched folder headers status.uidValidity status.exists_)
    if !ok then pure (.error (.internalError "Database error"))
    else if 1 < recentStart status.uidNext then do
      Task.spawn ⟨folder,.upTo 1 (recentStart status.uidNext - 1),status.uidValidity,status.exists_⟩
      pure (.ok true)
    else pure (.ok false)

/-- The listing of a folder that is not fresh. -/
def listStale (folder : String) (initial : InitialFolderCheck) : Task (Except AppError Bool) := do
  match ← Task.imap (.folderStatus folder) with
  | .error e => pure (.error (.serviceUnavailable ("IMAP error: " ++ ImapError.display e)))
  | .ok (status : FolderStatus) =>
    match ← Task.withUserDb (syncOutcome folder initial status) with
    | .coldStart => coldStart folder status
    | .stalePoke => do
      Task.notifyWorker
      pure (.ok true)
    | .noSyncNeeded => pure (.ok false)

/-- The synchronisation of `GET /api/folders/:folder/messages`; returns whether more is to
come. -/
def listMessages (folder : String) : Task (Except AppError Bool) := do
  match ← Task.withUserDb (initialFolderCheck folder) with
  | none => pure (.ok false)
  | some initial => listStale folder initial

/-- The background task: fetch the remaining headers of a folder and store them under the status
of the request that spawned it. -/
def syncRemainingHeaders (p : BackgroundSyncParams) : Task Unit := do
  match ← Task.imap (.fetchHeaders p.folder p.uidRange) with
  | .error _ => pure ()
  | .ok (headers : List ImapMessageHeader) =>
    if headers.isEmpty then Task.publish (.folderUpdated (some p.folder))
    else do
      let ok ← Task.withUserDb (storeFetched p.folder headers p.uidValidity p.exists_)
      if ok then Task.publish (.folderUpdated (some p.folder)) else pure ()

/-- The cache side of `GET /api/messages/:folder/:uid`; `stored` is what a fetched body is
stored as, with its inline images resolved. -/
def getMessage (stored : ImapMessageBody → CachedBody) (folder : String) (uid : Nat) :
    Task (Except AppError Unit) := do
  let cached ← Task.query (fun db =>
    (db.getCachedBody folder uid).filter (fun c => c.attachmentsJson.isSome))
  match cached with
  | some _ => pure (.ok ())
  | none =>
    match ← Task.imap (.fetchBody folder uid) with
    | .error e => do
      -- the row goes whatever the error: deleted on the server, or server unreachable
      Task.execute (fun db => (db.deleteMessage folder uid).invalidateFolderFreshness folder)
      pure (.error (match e with
        | .messageNotFound _ _ =>
          .notFound ("Message UID " ++ toString uid ++ " not found in folder " ++ folder)
        | other => .serviceUnavailable ("IMAP error: " ++ other.display)))
    | .ok (body : ImapMessageBody) => do
      Task.execute (fun db => db.cacheMessageBody folder uid (stored body))
      pure (.ok ())

end Rav
