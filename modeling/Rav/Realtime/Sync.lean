import Rav.Realtime.Task

/-!
# `realtime::sync`

The sync cycle: for each cached folder a STATUS pre-check, then the CONDSTORE path, or the full
fetch where CONDSTORE is unavailable; afterwards bodies are indexed if enabled. The database is
taken to succeed; every IMAP call may fail.

## Main definitions

- `runSync` — one cycle over all cached folders
- `syncFolder`, `syncStatus` — the loop body for one folder
- `syncCondstore`, `applyDelta`, `syncFull` — the two paths
- `fetchAndStoreNew` — fetch and store the headers from a UID on
- `indexMessageBodies` — the deep index phase
-/

namespace Rav

/-- `n + 1` in `u32`. -/
def succU32 (n : Nat) : Nat := (n + 1) % 2 ^ 32

theorem succU32_of_lt {n : Nat} (h : n + 1 < 2 ^ 32) : succU32 n = n + 1 := Nat.mod_eq_of_lt h

/-- Lightweight snapshot of a cached folder for the sync loop. -/
structure FolderSnapshot where
  name : String
  uidValidity : Nat
  highestModseq : Nat
  deriving DecidableEq, Repr

/-! ### Storing headers -/

/-- Store fetched headers one by one, passing over those the database refuses. -/
def storeHeaders (folder : String) (headers : List ImapMessageHeader) (db : Db) : Db :=
  headers.foldl (fun db h => (db.upsertHeader folder h).getD db) db

/-- `max_by_key(uid)`: the last of the headers with the highest UID. -/
def latestHeader : List ImapMessageHeader → Option ImapMessageHeader
  | [] => none
  | h :: hs =>
    match latestHeader hs with
    | some l => if l.uid < h.uid then some h else some l
    | none => some h

def senderOf (h : ImapMessageHeader) : Option String :=
  h.from_.head?.map (fun a => a.name.getD a.address)

/-- Fetch headers for UIDs from `fromUid` on and store them. Returns their number, and sender
and subject of the one with the highest UID; a failed fetch counts as nothing new. -/
def fetchAndStoreNew (folder : String) (fromUid : Nat) :
    Task (Nat × Option String × Option String) := do
  match ← Task.imap (.fetchHeaders folder (.fromOn fromUid)) with
  | .error _ => pure (0,none,none)
  | .ok (headers : List ImapMessageHeader) =>
    -- "UID:*" can return the last message even if it is below `fromUid`
    let headers := headers.filter (fun h => fromUid ≤ h.uid)
    if headers.isEmpty then pure (0,none,none)
    else do
      Task.execute (storeHeaders folder headers)
      let latest := latestHeader headers
      pure (headers.length,latest.bind senderOf,latest.bind ImapMessageHeader.subject)

/-! ### The full fetch -/

/-- `HashMap::get` after collecting pairs: a later pair replaces an earlier one. -/
def mapGet (pairs : List (Nat × String)) (uid : Nat) : Option String :=
  (pairs.reverse.find? (fun p => p.1 = uid)).map Prod.snd

/-- One cached message against the server's state: gone, or with other flags. -/
def reconcileOne (folder : String) (imapMap : List (Nat × String)) (s : Bool × Db)
    (cached : Nat × String) : Bool × Db :=
  match mapGet imapMap cached.1 with
  | none => (true,s.2.deleteMessage folder cached.1)
  | some csv =>
    if sortSep ',' cached.2 ≠ csv then (true,s.2.updateMessageFlags folder cached.1 csv) else s

def reconcile (folder : String) (cached : List (Nat × String)) (imapMap : List (Nat × String))
    (db : Db) : Bool × Db :=
  cached.foldl (reconcileOne folder imapMap) (false,db)

/-- The new-message part of the full fetch. -/
def fetchNewFull (folder : String) (imapMap : List (Nat × String)) (maxCachedUid : Nat)
    (changed : Bool) : Task Bool := do
  if imapMap.any (fun p => maxCachedUid < p.1) then do
    let (newCount,latestSender,latestSubject) ← fetchAndStoreNew folder (succU32 maxCachedUid)
    if 0 < newCount then do
      Task.execute (fun db => db.refreshUnreadCount folder)
      Task.publish (.folderStateChanged folder newCount latestSender latestSubject)
      pure true
    else pure changed
  else pure changed

/-- Full fetch fallback: fetch all UIDs and flags and reconcile. -/
def syncFull (folder : String) (status : FolderStatusExtended) : Task Bool := do
  let cached ← Task.query (fun db => db.getAllUidsAndFlags folder)
  if cached.isEmpty then do
    Task.execute (fun db =>
      db.updateFolderSyncStatus folder status.uidValidity status.exists_ status.highestModseq)
    pure false
  else do
    let maxCachedUid := (cached.map Prod.fst).foldr max 0
    match ← Task.imap (.fetchUidsAndFlags folder) with
    | .error _ => pure false
    | .ok (imapState : List (Nat × List String)) =>
      let imapMap := imapState.map (fun p => (p.1,sortedFlagsCsv p.2))
      let changed ← Task.withUserDb (fun db =>
        let r := reconcile folder cached imapMap db
        (r.1,r.2.updateFolderSyncStatus folder status.uidValidity status.exists_
          status.highestModseq))
      let changed ← fetchNewFull folder imapMap maxCachedUid changed
      if changed then Task.publish (.flagsChanged folder) else pure ()
      pure changed

/-! ### The CONDSTORE path -/

def applyChanged (folder : String) (changed : List (Nat × List String)) (db : Db) : Db :=
  changed.foldl (fun db p => db.updateMessageFlags folder p.1 (sortedFlagsCsv p.2)) db

def deleteUids (folder : String) (uids : List Nat) (db : Db) : Db :=
  uids.foldl (fun db uid => db.deleteMessage folder uid) db

/-- Delete the cached messages whose UIDs are not among the server's. -/
def removeGone (folder : String) (imapUids : List Nat) (db : Db) : Bool × Db :=
  let gone := ((db.getAllUidsAndFlags folder).map Prod.fst).filter (fun uid => uid ∉ imapUids)
  (!gone.isEmpty,deleteUids folder gone db)

/-- Remove what the server named as vanished, or, where it named nothing, what is missing from
its UID list when it has fewer messages than the cache. -/
def removeDeleted (folder : String) (vanished : Option (List Nat)) (exists_ cachedCount : Nat) :
    Task Bool := do
  match vanished with
  | some uids =>
    if uids.isEmpty then pure false
    else Task.withUserDb (fun db => (true,deleteUids folder uids db))
  | none =>
    if exists_ < cachedCount then do
      match ← Task.imap (.fetchUidsAndFlags folder) with
      | .error _ => pure false
      | .ok (imapState : List (Nat × List String)) =>
        Task.withUserDb (removeGone folder (imapState.map Prod.fst))
    else pure false

/-- The new-message part of the CONDSTORE path. -/
def fetchNewCondstore (folder : String) (uidNext : Nat) : Task Bool := do
  let maxCachedUid ← Task.query (fun db => db.maxUid folder)
  if succU32 maxCachedUid < uidNext then do
    let (newCount,latestSender,latestSubject) ← fetchAndStoreNew folder (succU32 maxCachedUid)
    Task.execute (fun db => db.refreshUnreadCount folder)
    Task.publish (.folderStateChanged folder newCount latestSender latestSubject)
    pure true
  else pure false

/-- The CONDSTORE path once the server has answered: apply changed flags, remove what vanished,
fetch what is new, and write the checkpoint down. -/
def applyDelta (folder : String) (status : FolderStatusExtended) (delta : ChangedFlags) :
    Task Bool := do
  Task.execute (applyChanged folder delta.changed)
  let cachedCount ← Task.query (fun db => db.countMessages folder)
  let removed ← removeDeleted folder delta.vanished status.exists_ cachedCount
  let fetched ← fetchNewCondstore folder status.uidNext
  let finalModseq := if 0 < delta.highestModseq then delta.highestModseq else status.highestModseq
  Task.execute (fun db =>
    db.updateFolderSyncStatus folder status.uidValidity status.exists_ finalModseq)
  let changed := !delta.changed.isEmpty || removed || fetched
  if changed then Task.publish (.flagsChanged folder) else pure ()
  pure changed

/-- CONDSTORE path: fetch only what changed, or fall back to the full fetch. -/
def syncCondstore (folder : String) (cachedModseq : Nat) (status : FolderStatusExtended) :
    Task Bool := do
  match ← Task.imap (.fetchChangedFlags folder cachedModseq status.uidValidity) with
  | .error _ => syncFull folder status
  | .ok (delta : ChangedFlags) => applyDelta folder status delta

/-! ### The cycle -/

/-- Whether the folder's STATUS matches the checkpoint and the number of cached messages. -/
def unchanged (folder : FolderSnapshot) (status : FolderStatusExtended) : Task Bool := do
  if 0 < status.highestModseq ∧ 0 < folder.highestModseq ∧
      status.highestModseq = folder.highestModseq then do
    let cachedCount ← Task.query (fun db => db.countMessages folder.name)
    pure (decide (status.exists_ = cachedCount))
  else pure false

/-- What the loop does with a folder's STATUS. -/
def syncStatus (folder : FolderSnapshot) (status : FolderStatusExtended) : Task Bool := do
  if folder.uidValidity ≠ 0 ∧ status.uidValidity ≠ folder.uidValidity then do
    Task.execute (fun db => db.invalidateFolderFreshness folder.name)
    Task.publish (.folderUpdated (some folder.name))
    pure true
  else do
    let skip ← unchanged folder status
    if skip then pure false
    else if 0 < status.highestModseq ∧ 0 < folder.highestModseq then
      syncCondstore folder.name folder.highestModseq status
    else syncFull folder.name status

/-- The loop body for one folder; returns whether it counts as a change. -/
def syncFolder (folder : FolderSnapshot) : Task Bool := do
  match ← Task.imap (.folderStatusExtended folder.name) with
  | .error _ => pure false
  | .ok (status : FolderStatusExtended) => syncStatus folder status

def syncFolders : List FolderSnapshot → Task Bool
  | [] => pure false
  | folder :: folders => do
    let changed ← syncFolder folder
    let others ← syncFolders folders
    pure (changed || others)

/-- The folders search does not cover. Outside ASCII only the Kelvin sign lowers to a letter of
these names. -/
def isExcludedFolder (folder : String) : Bool :=
  let lower := folder.toList.map (fun c => if c.toNat = 0x212A then 'k' else c.toLower)
  ["trash","junk","spam"].any (fun name =>
    lower = name.toList || ('/' :: name.toList).isSuffixOf lower)

/-- Batch size for deep indexing per sync cycle. -/
def deepIndexBatch : Nat := 10

/-- The body columns a fetched body is stored as. -/
def ImapMessageBody.cached (b : ImapMessageBody) : CachedBody where
  html := b.textHtml
  text := b.textPlain
  attachmentsJson := some (Json.array ImapAttachment.json b.attachments)
  rawHeaders := some b.rawHeaders
  origin := b.origin

def indexBodies : List (String × Nat) → Task Unit
  | [] => pure ()
  | (folder,uid) :: rest => do
    if isExcludedFolder folder then indexBodies rest
    else do
      match ← Task.imap (.fetchBody folder uid) with
      | .error _ => indexBodies rest
      | .ok (body : ImapMessageBody) => do
        Task.execute (fun db => db.cacheMessageBody folder uid body.cached)
        indexBodies rest

/-- If deep indexing is enabled, fetch and cache bodies of messages that have none yet. -/
def indexMessageBodies : Task Unit := do
  let unindexed ← Task.query (fun db =>
    if db.deepIndex then db.getUnindexedMessages deepIndexBatch else [])
  indexBodies unindexed

/-- What the sync loop takes of the folder rows, in name order. -/
def folderSnapshots (db : Db) : List FolderSnapshot :=
  db.getAllFolders.map (fun f => ⟨f.name,f.uidValidity,f.highestModseq⟩)

/-- The cycle over the folders read at its start. -/
def syncSnapshots (snapshots : List FolderSnapshot) : Task Unit := do
  let anyChanges ← syncFolders snapshots
  if anyChanges then Task.publish (.folderUpdated none) else pure ()
  indexMessageBodies

/-- Reconcile all of a user's folders. -/
def runSync : Task Unit := do
  let snapshots ← Task.query folderSnapshots
  syncSnapshots snapshots

end Rav
