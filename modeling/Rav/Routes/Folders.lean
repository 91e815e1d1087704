import Rav.Error
import Rav.Db.Cache

/-!
# `routes::folders` and `list_folders`

The listing of the server's folders, and the refresh of the cached folder list from it: folders that
are new get a row, and folders the listing does not name are deleted with their messages.

## Main definitions

- `ListedName`, `ListExchange` — a `LIST` response, and how the command went
- `ListExchange.listFolders` — what the client makes of it
- `FolderList`, `FolderList.refresh` — the cached folder list, and its refresh
-/

namespace Rav

/-! ### The client -/

inductive NameAttribute
  | noInferiors
  | noSelect
  | marked
  | unmarked
  | all
  | archive
  | drafts
  | flagged
  | junk
  | sent
  | trash
  | extension (s : String)
  deriving DecidableEq, Repr

def nameAttributeToString : NameAttribute → String
  | .noInferiors => "\\Noinferiors"
  | .noSelect => "\\Noselect"
  | .marked => "\\Marked"
  | .unmarked => "\\Unmarked"
  | .all => "\\All"
  | .archive => "\\Archive"
  | .drafts => "\\Drafts"
  | .flagged => "\\Flagged"
  | .junk => "\\Junk"
  | .sent => "\\Sent"
  | .trash => "\\Trash"
  | .extension s => s

/-- A `LIST` response. -/
structure ListedName where
  name : String
  delimiter : Option String
  attributes : List NameAttribute
  deriving DecidableEq, Repr

/-- A folder as reported by the IMAP server. -/
structure ImapFolder where
  name : String
  delimiter : Option String
  attributes : List String
  deriving DecidableEq, Repr

def ListedName.selectable (n : ListedName) : Bool := n.attributes.all (fun a => a ≠ .noSelect)

def ListedName.folder (n : ListedName) : ImapFolder :=
  ⟨n.name,n.delimiter,n.attributes.map nameAttributeToString⟩

/-- A `LIST` command: refused, or answered by a stream of responses, some of which cannot be read.
The stream ends with the command, or where the connection reaches its end. -/
structure ListExchange where
  refused : Option ImapError
  responses : List (Except ImapError ListedName)

/-- The server is asked for its folders, and the connection ends after `k` of them. -/
def ListExchange.cut (server : List ListedName) (k : Nat) : ListExchange :=
  ⟨none,(server.take k).map .ok⟩

/-- The responses, up to the first that cannot be read. -/
def collectNames : List (Except ImapError ListedName) → Except ImapError (List ListedName)
  | [] => .ok []
  | .error e :: _ => .error e
  | .ok n :: rest =>
    match collectNames rest with
    | .error e => .error e
    | .ok names => .ok (n :: names)

/-- `ImapClient::list_folders`. -/
def ListExchange.listFolders (x : ListExchange) : Except ImapError (List ImapFolder) :=
  match x.refused with
  | some e => .error e
  | none =>
    match collectNames x.responses with
    | .error e => .error e
    | .ok names =>
      -- INBOX always exists; an empty answer means the connection is dead
      if names.isEmpty then
        .error (.protocolError "LIST returned no mailboxes; connection likely closed")
      else .ok ((names.filter ListedName.selectable).map ListedName.folder)

/-! ### The handler -/

/-- How many seconds the folder list cache is considered fresh. -/
def folderListTtlSecs : Nat := 30

/-- The cached folder list; `updatedAt` is the column of that name in the rows of the folders. -/
structure FolderList where
  cache : Cache
  updatedAt : String → Nat
  now : Nat

namespace FolderList

variable (s : FolderList)

/-- `is_folder_cache_fresh`. -/
def isFolderCacheFresh (maxAgeSecs : Nat) : Bool :=
  s.cache.rows.folders.any (fun f => s.now < s.updatedAt f.name + maxAgeSecs)

/-- Sync each folder into the cache. A folder that has a row keeps it. -/
def insertFolders (folders : List ImapFolder) (c : Cache) : Cache :=
  folders.foldl (fun c f => c.insertFolderIfNew f.name f.delimiter (",".intercalate f.attributes)) c

/-- What is done with the server's folders: insert, remove, and touch the rows that are left. -/
def store (folders : List ImapFolder) : FolderList where
  cache := ((insertFolders folders s.cache).removeStaleFolders (folders.map ImapFolder.name)).2
  updatedAt := fun _ => s.now
  now := s.now

/-- The synchronisation of `GET /api/folders`. -/
def refresh (imapHost : Option String) (x : ListExchange) : Except AppError FolderList :=
  if s.isFolderCacheFresh folderListTtlSecs then .ok s
  else
    match imapHost with
    | none => .error (.serviceUnavailable "Mail server not configured")
    | some _ =>
      match x.listFolders with
      | .error e => .error (.serviceUnavailable ("IMAP error: " ++ e.display))
      | .ok folders =>
        -- every mailbox has INBOX, so an empty LIST means the read failed
        if folders.isEmpty then
          .error (.serviceUnavailable "IMAP error: the server returned no folders")
        else .ok (s.store folders)

end FolderList

end Rav
