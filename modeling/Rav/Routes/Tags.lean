import Rav.Db.ThreadList
import Rav.DashMap
import Rav.FolderCipher
import Rav.Str

/-!
# `db::tags`, `routes::tags`

Tags have a name of their own and are put on cached messages. A statement that would leave two tags of one
name, or a tag on a message that is not cached, is refused; what is deleted takes the tags it had along.
Each handler runs one closure on the user's database, which may fail without effect. The id of a new tag,
the time and the nonces of folder ids are arguments.

## Main definitions

- `MessageTag`, `Tag` — a tag as it is listed on a message, and by itself
- `Cache.createTag`, `updateTag`, `deleteTag`, `addTagToMessage`, `removeTagFromMessage`, `getMessageTags`,
  `getTagsForMessages`, `listTags` — the statements
- `createTagHandler`, `updateTagHandler`, `deleteTagHandler`, `tagMessageHandler`, `untagMessageHandler`,
  `bulkTagHandler`, `listTagMessagesHandler` — the handlers
-/

namespace Rav

/-- Lightweight tag info returned alongside messages. -/
structure MessageTag where
  id : String
  name : String
  color : String
  deriving DecidableEq, Repr

/-- A tag with the number of its messages. -/
structure Tag where
  id : String
  name : String
  color : String
  messageCount : Nat
  deriving DecidableEq, Repr

def TagRow.view (t : TagRow) : MessageTag := ⟨t.id,t.name,t.color⟩

/-! ### Statements -/

namespace Cache

variable (c : Cache)

/-- Create a new tag. -/
def createTag (id name color : String) : Except String Cache :=
  if name ∈ c.rows.tags.map TagRow.name then
    .error "Failed to create tag: UNIQUE constraint failed: tags.name"
  else
    (CacheRows.commit { c.rows with tags := c.rows.tags ++ [⟨id,name,color⟩] }).mapError
      ("Failed to create tag: " ++ ·)

/-- List all tags with their message counts. -/
def listTags : List Tag :=
  (c.rows.tags.map fun t =>
    ⟨t.id,t.name,t.color,(c.rows.messageTags.filter (fun mt => mt.tagId = t.id)).length⟩).insertionSort
    (fun s t => s.name ≤ t.name)

/-- Update a tag's name and color; whether there is one. -/
def updateTag (id name color : String) : Except String (Bool × Cache) :=
  if id ∈ c.rows.tags.map TagRow.id then
    if name ∈ (c.rows.tags.filter (fun t => t.id ≠ id)).map TagRow.name then
      .error "Failed to update tag: UNIQUE constraint failed: tags.name"
    else
      ((CacheRows.commit { c.rows with
        tags := c.rows.tags.map (fun t => if t.id = id then ⟨id,name,color⟩ else t) }).map
          (Prod.mk true)).mapError ("Failed to update tag: " ++ ·)
  else .ok (false,c)

/-- Delete a tag; it is taken off its messages. -/
def deleteTag (id : String) : Except String (Bool × Cache) :=
  ((CacheRows.commit { c.rows with
    tags := c.rows.tags.filter (fun t => t.id ≠ id)
    messageTags := c.rows.messageTags.filter (fun mt => mt.tagId ≠ id) }).map
      (Prod.mk (decide (id ∈ c.rows.tags.map TagRow.id)))).mapError ("Failed to delete tag: " ++ ·)

/-- Add a tag to a message; if it has it, nothing is inserted. -/
def addTagToMessage (tagId : String) (uid : Nat) (folder now : String) : Except String Cache :=
  if ∃ mt ∈ c.rows.messageTags, mt.key = (tagId,uid,folder) then .ok c
  else
    (CacheRows.commit { c.rows with
      messageTags := c.rows.messageTags ++ [⟨tagId,uid,folder,now⟩] }).mapError
        ("Failed to add tag to message: " ++ ·)

/-- Remove a tag from a message; whether it had it. -/
def removeTagFromMessage (tagId : String) (uid : Nat) (folder : String) : Except String (Bool × Cache) :=
  ((CacheRows.commit { c.rows with
    messageTags := c.rows.messageTags.filter (fun mt => mt.key ≠ (tagId,uid,folder)) }).map
      (Prod.mk (decide (∃ mt ∈ c.rows.messageTags, mt.key = (tagId,uid,folder))))).mapError
        ("Failed to remove tag from message: " ++ ·)

/-- `JOIN tags t ON t.id = mt.tag_id`. -/
def tagOf (mt : MessageTagRow) : Option MessageTag :=
  (c.rows.tags.find? (fun t => t.id = mt.tagId)).map TagRow.view

/-- Get all tags for a specific message. -/
def getMessageTags (uid : Nat) (folder : String) : List MessageTag :=
  ((c.rows.messageTags.filter (fun mt => mt.message = (uid,folder))).filterMap c.tagOf).insertionSort
    (fun s t => s.name ≤ t.name)

/-- The rows of the query of `get_tags_for_messages`. -/
def tagsOfMessages (messages : List (Nat × String)) : List ((Nat × String) × MessageTag) :=
  ((c.rows.messageTags.filter (fun mt => mt.message ∈ messages)).filterMap
    (fun mt => (c.tagOf mt).map (Prod.mk mt.message))).insertionSort (fun s t => s.2.name ≤ t.2.name)

/-- Batch-fetch tags for multiple messages. The query has a condition for each message, and SQLite takes a
bounded number of them. -/
def getTagsForMessages (maxConditions : Nat) (messages : List (Nat × String)) :
    Except String (DashMap (Nat × String) (List MessageTag)) :=
  if messages = [] then .ok .new
  else if maxConditions < messages.length then .error "Failed to prepare get_tags_for_messages"
  else .ok ((c.tagsOfMessages messages).foldl (fun m e => m.insert e.1 ((m.get e.1).getD [] ++ [e.2])) .new)

/-- `DELETE FROM messages`; the tags go with the messages. -/
def deleteMessagesWhere (p : Nat × String → Bool) : Except String Cache :=
  CacheRows.commit { c.rows with
    messages := c.rows.messages.filter (fun m => !p m.key)
    messageTags := c.rows.messageTags.filter (fun mt => !p mt.message) }

def deleteMessage (folder : String) (uid : Nat) : Except String Cache :=
  c.deleteMessagesWhere (fun k => k = (uid,folder))

def deleteFolderMessages (folder : String) : Except String Cache := c.deleteMessagesWhere (fun k => k.2 = folder)

end Cache

/-! ### Handlers -/

namespace TagRoutes

/-- `with_user_db`: the closure runs, unless the database or a statement fails; then nothing has changed. -/
def withUserDb {α : Type} (fault : Option String) (f : Cache → Except String (α × Cache)) (c : Cache) :
    Except String α × Cache :=
  match fault with
  | some e => (.error e,c)
  | none =>
    match f c with
    | .error e => (.error e,c)
    | .ok (a,c') => (.ok a,c')

def databaseError (e : String) : AppError := .internalError ("Database error: " ++ e)

/-- What a handler answers. -/
inductive Reply
  | tag (id name color : String)
  | deleted
  | ok
  | tagged (count : Nat)
  deriving DecidableEq, Repr

structure CreateTagBody where
  name : String
  color : Option String

structure UpdateTagBody where
  name : String
  color : String

structure TagMessageRef where
  uid : Nat
  folder : FolderId

/-- `POST /api/tags`. -/
def createTagHandler (newV4 : String) (body : CreateTagBody) (fault : Option String) (c : Cache) :
    Except AppError Reply × Cache :=
  let name := strTrim body.name
  if name = "" then (.error (.badRequest "Tag name is required"),c)
  else
    let color := body.color.getD "#6b7280"
    match withUserDb fault (fun c => (c.createTag newV4 name color).map (Prod.mk ())) c with
    | (.error e,c) => (.error (databaseError e),c)
    | (.ok (),c) => (.ok (.tag newV4 name color),c)

/-- `PUT /api/tags/{id}`. -/
def updateTagHandler (id : String) (body : UpdateTagBody) (fault : Option String) (c : Cache) :
    Except AppError Reply × Cache :=
  let name := strTrim body.name
  if name = "" then (.error (.badRequest "Tag name is required"),c)
  else
    match withUserDb fault (fun c => c.updateTag id name body.color) c with
    | (.error e,c) => (.error (databaseError e),c)
    | (.ok true,c) => (.ok (.tag id name body.color),c)
    | (.ok false,c) => (.error (.notFound ("Tag '" ++ id ++ "' not found")),c)

/-- `DELETE /api/tags/{id}`. -/
def deleteTagHandler (id : String) (fault : Option String) (c : Cache) : Except AppError Reply × Cache :=
  match withUserDb fault (fun c => c.deleteTag id) c with
  | (.error e,c) => (.error (databaseError e),c)
  | (.ok true,c) => (.ok .deleted,c)
  | (.ok false,c) => (.error (.notFound ("Tag '" ++ id ++ "' not found")),c)

/-- `POST /api/tags/{id}/messages`. -/
def tagMessageHandler (cipher : FolderCipher) (id : String) (body : TagMessageRef) (now : String)
    (fault : Option String) (c : Cache) : Except AppError Reply × Cache :=
  match cipher.decrypt body.folder with
  | .error e => (.error e,c)
  | .ok folder =>
    match withUserDb fault (fun c => (c.addTagToMessage id body.uid folder now).map (Prod.mk ())) c with
    | (.error e,c) => (.error (databaseError e),c)
    | (.ok (),c) => (.ok .ok,c)

/-- `DELETE /api/tags/{id}/messages/{folder}/{uid}`. -/
def untagMessageHandler (cipher : FolderCipher) (id : String) (folderId : FolderId) (uid : Nat)
    (fault : Option String) (c : Cache) : Except AppError Reply × Cache :=
  match cipher.decrypt folderId with
  | .error e => (.error e,c)
  | .ok folder =>
    match withUserDb fault (fun c => c.removeTagFromMessage id uid folder) c with
    | (.error e,c) => (.error (databaseError e),c)
    | (.ok true,c) => (.ok .ok,c)
    | (.ok false,c) => (.error (.notFound "Tag not found on message"),c)

/-- The folders of the messages of a request. -/
def decryptAll (cipher : FolderCipher) (messages : List TagMessageRef) : Except AppError (List (Nat × String)) :=
  messages.mapM fun m => (cipher.decrypt m.folder).map (Prod.mk m.uid)

/-- The transaction of `bulk_tag_handler`: the first statement that fails rolls it back. -/
def tagAll (id now : String) (messages : List (Nat × String)) (c : Cache) : Except String Cache :=
  messages.foldlM (fun c k => c.addTagToMessage id k.1 k.2 now) c

/-- `POST /api/tags/{id}/messages/bulk`. -/
def bulkTagHandler (cipher : FolderCipher) (id : String) (messages : List TagMessageRef) (now : String)
    (fault : Option String) (c : Cache) : Except AppError Reply × Cache :=
  match decryptAll cipher messages with
  | .error e => (.error e,c)
  | .ok decrypted =>
    match withUserDb fault (fun c => (tagAll id now decrypted c).map (Prod.mk ())) c with
    | (.error e,c) => (.error (.internalError e),c)
    | (.ok (),c) => (.ok (.tagged decrypted.length),c)

/-- A message in the list of a tag: the folder is sent under its id. -/
structure TagMessageSummary where
  folderId : FolderId
  message : CachedMessage
  tags : List MessageTag
  threadCount : Nat
  unreadCount : Nat

def buildSummary (cipher : FolderCipher) (nonce : List UInt8) (m : CachedMessage) (tags : List MessageTag) :
    TagMessageSummary where
  folderId := cipher.encrypt nonce m.folder
  message := m
  tags := tags
  threadCount := 1
  unreadCount := if strContains m.flags "\\Seen" then 0 else 1

structure TagMessagesResponse where
  messages : List TagMessageSummary
  totalCount : Nat
  page : UInt32
  perPage : UInt32

/-- `GET /api/tags/{id}/messages`. If the tags cannot be fetched the messages are listed without. -/
def listTagMessagesHandler (maxConditions : Nat) (cipher : FolderCipher) (nonces : Nat → List UInt8)
    (id : String) (page perPage : UInt32) (c : Cache) : Except AppError TagMessagesResponse :=
  let messages := c.getMessagesByTag id page perPage
  match c.countMessagesByTag id with
  | none => .error (databaseError "Failed to count messages by tag")
  | some totalCount =>
    let tagsMap := match c.getTagsForMessages maxConditions (messages.map fun m => (m.uid,m.folder)) with
      | .ok tagsMap => tagsMap
      | .error _ => .new
    .ok {
      messages := messages.mapIdx fun i m =>
        buildSummary cipher (nonces i) m ((tagsMap.get (m.uid,m.folder)).getD [])
      totalCount := totalCount
      page := page
      perPage := perPage }

end TagRoutes

end Rav
