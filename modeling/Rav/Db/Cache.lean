import Rav.Db.Folders

/-!
# The cache under its constraints

The cached folders and messages with everything that refers to them: the tags of messages and the
calendar events taken from messages. A statement computes the rows it leaves and commits them, and
rows that break a primary key or a foreign key are refused with nothing changed.

## Main definitions

- `CacheRows` — the rows of the tables; `UniqueKeys`, `ForeignKeys` their constraints
- `Cache` — rows that satisfy them
- `CacheRows.commit` — the end of a statement
-/

namespace Rav

/-- A row of `messages`, with the column `email_theme`. -/
structure StoredMessage where
  header : CachedMessage
  emailTheme : Option Int
  deriving DecidableEq, Repr

/-- A row of `tags`. -/
structure TagRow where
  id : String
  name : String
  color : String
  deriving DecidableEq, Repr

/-- A row of `message_tags`. -/
structure MessageTagRow where
  tagId : String
  messageUid : Nat
  messageFolder : String
  createdAt : String
  deriving DecidableEq, Repr

/-- The part of a calendar event that refers to the message it came from. -/
structure EventSource where
  id : String
  messageUid : Option Int
  messageFolder : Option String
  deriving DecidableEq, Repr

/-- The primary key of `messages`. -/
def StoredMessage.key (m : StoredMessage) : Nat × String := m.header.key

def StoredMessage.folder (m : StoredMessage) : String := m.header.folder

/-- The columns that do not come from the header: the cached body and its theme. -/
def StoredMessage.content (m : StoredMessage) : Option CachedBody × Option Int :=
  (m.header.body,m.emailTheme)

/-- The message a tag is on. -/
def MessageTagRow.message (t : MessageTagRow) : Nat × String := (t.messageUid,t.messageFolder)

/-- The primary key of `message_tags`. -/
def MessageTagRow.key (t : MessageTagRow) : String × Nat × String := (t.tagId,t.message)

/-- The rows of the tables. -/
@[ext] structure CacheRows where
  folders : List CachedFolder
  messages : List StoredMessage
  tags : List TagRow
  messageTags : List MessageTagRow
  events : List EventSource
  deriving DecidableEq

namespace CacheRows

variable (rows : CacheRows)

structure UniqueKeys : Prop where
  folders : (rows.folders.map CachedFolder.name).Nodup
  messages : (rows.messages.map StoredMessage.key).Nodup
  tags : (rows.tags.map TagRow.id).Nodup
  messageTags : (rows.messageTags.map MessageTagRow.key).Nodup

/-- `messages(folder)` refers to `folders(name)`, `message_tags` to a tag and a message. -/
structure ForeignKeys : Prop where
  folder : ∀ m ∈ rows.messages, ∃ f ∈ rows.folders, f.name = m.folder
  tag : ∀ t ∈ rows.messageTags, ∃ g ∈ rows.tags, g.id = t.tagId
  message : ∀ t ∈ rows.messageTags, ∃ m ∈ rows.messages, m.key = t.message

instance : Decidable rows.UniqueKeys :=
  decidable_of_iff
    ((rows.folders.map CachedFolder.name).Nodup ∧ (rows.messages.map StoredMessage.key).Nodup ∧
      (rows.tags.map TagRow.id).Nodup ∧ (rows.messageTags.map MessageTagRow.key).Nodup)
    ⟨fun h => ⟨h.1,h.2.1,h.2.2.1,h.2.2.2⟩,fun h => ⟨h.folders,h.messages,h.tags,h.messageTags⟩⟩

instance : Decidable rows.ForeignKeys :=
  decidable_of_iff
    ((∀ m ∈ rows.messages, ∃ f ∈ rows.folders, f.name = m.folder) ∧
      (∀ t ∈ rows.messageTags, ∃ g ∈ rows.tags, g.id = t.tagId) ∧
      ∀ t ∈ rows.messageTags, ∃ m ∈ rows.messages, m.key = t.message)
    ⟨fun h => ⟨h.1,h.2.1,h.2.2⟩,fun h => ⟨h.folder,h.tag,h.message⟩⟩

end CacheRows

/-- Rows that satisfy the constraints. -/
structure Cache where
  rows : CacheRows
  unique : rows.UniqueKeys
  fk : rows.ForeignKeys

/-- The headers of the cached messages have different keys. -/
theorem Cache.nodup_headerKeys (c : Cache) :
    ((c.rows.messages.map StoredMessage.header).map CachedMessage.key).Nodup := by
  rw [List.map_map]
  exact c.unique.messages

/-- The end of a statement: the constraints hold, or the statement fails. -/
def CacheRows.commit (rows : CacheRows) : Except String Cache :=
  if hu : rows.UniqueKeys then
    if hf : rows.ForeignKeys then .ok ⟨rows,hu,hf⟩
    else .error "FOREIGN KEY constraint failed"
  else .error "UNIQUE constraint failed"

namespace CacheRows

variable {rows : CacheRows} {c : Cache}

theorem commit_eq_ok : rows.commit = .ok c ↔ rows = c.rows := by
  unfold commit
  constructor
  · intro h
    split at h
    · split at h
      · exact congrArg Cache.rows (Except.ok.inj h)
      · simp at h
    · simp at h
  · rintro rfl
    rw [dif_pos c.unique,dif_pos c.fk]

theorem commit_of_valid (hu : rows.UniqueKeys) (hf : rows.ForeignKeys) :
    rows.commit = .ok ⟨rows,hu,hf⟩ := commit_eq_ok.mpr rfl

/-- Rows with a dangling reference are refused. -/
theorem commit_error (hf : ¬rows.ForeignKeys) : ∃ e, rows.commit = .error e := by
  cases h : rows.commit with
  | error e => exact ⟨e,rfl⟩
  | ok c =>
    rw [commit_eq_ok] at h
    exact absurd (h ▸ c.fk) hf

end CacheRows

namespace Cache

/-- The rows `upsert_message` leaves. A row in the way is deleted first, and its tags with it; the
columns the statement does not list get their defaults. -/
def upsertRows (c : Cache) (folder : String) (uid : Nat) (p : UpsertMessageParams) : CacheRows :=
  { c.rows with
    messages := c.rows.messages.filter (fun m => m.key ≠ (uid,folder)) ++ [⟨p.row folder uid,none⟩]
    messageTags := c.rows.messageTags.filter (fun t => t.message ≠ (uid,folder)) }

/-- `INSERT OR REPLACE INTO messages`. -/
def upsertMessage (c : Cache) (folder : String) (uid : Nat) (p : UpsertMessageParams) :
    Except String Cache := (c.upsertRows folder uid p).commit

/-- `UPDATE messages SET folder = new WHERE folder = old`. -/
def updateMessagesFolder (c : Cache) (new old : String) : Except String Cache :=
  CacheRows.commit { c.rows with
    messages := c.rows.messages.map (fun m =>
      if m.folder = old then { m with header := { m.header with folder := new } } else m) }

/-- `UPDATE folders SET name = new WHERE name = old`. -/
def updateFoldersName (c : Cache) (new old : String) : Except String Cache :=
  CacheRows.commit { c.rows with
    folders := c.rows.folders.map (fun f => if f.name = old then { f with name := new } else f) }

/-- `INSERT OR IGNORE INTO folders`. -/
def insertFolderIfNew (c : Cache) (name : String) (delimiter : Option String) (csv : String) : Cache :=
  if h : name ∈ c.rows.folders.map CachedFolder.name then c
  else
    { rows := { c.rows with
        folders := c.rows.folders ++ [⟨name,delimiter,none,csv,true,0,0,0,0,none⟩] }
      unique :=
        { folders := by
            rw [List.map_append,List.nodup_append]
            refine ⟨c.unique.folders,List.nodup_singleton _,?_⟩
            rintro a ha b hb rfl
            exact h ((List.mem_singleton.mp hb : a = name) ▸ ha)
          messages := c.unique.messages
          tags := c.unique.tags
          messageTags := c.unique.messageTags }
      fk :=
        { folder := fun m hm => by
            obtain ⟨f,hf,hname⟩ := c.fk.folder m hm
            exact ⟨f,List.mem_append_left _ hf,hname⟩
          tag := c.fk.tag
          message := c.fk.message } }

/-- `DELETE FROM folders WHERE p name`; the messages of the folders go with them, and the tags of the
messages. -/
def deleteFoldersWhere (c : Cache) (p : String → Bool) : Cache where
  rows := { c.rows with
    folders := c.rows.folders.filter (fun f => !p f.name)
    messages := c.rows.messages.filter (fun m => !p m.folder)
    messageTags := c.rows.messageTags.filter (fun t => !p t.messageFolder) }
  unique :=
    { folders := c.unique.folders.sublist (List.filter_sublist.map _)
      messages := c.unique.messages.sublist (List.filter_sublist.map _)
      tags := c.unique.tags
      messageTags := c.unique.messageTags.sublist (List.filter_sublist.map _) }
  fk :=
    { folder := fun m hm => by
        obtain ⟨hm,hp⟩ := List.mem_filter.mp hm
        obtain ⟨f,hf,hname⟩ := c.fk.folder m hm
        exact ⟨f,List.mem_filter.mpr ⟨hf,hname ▸ hp⟩,hname⟩
      tag := fun t ht => c.fk.tag t (List.mem_filter.mp ht).1
      message := fun t ht => by
        obtain ⟨ht,hp⟩ := List.mem_filter.mp ht
        obtain ⟨m,hm,hkey⟩ := c.fk.message t ht
        have hfolder : m.folder = t.messageFolder := (Prod.mk.inj hkey).2
        exact ⟨m,List.mem_filter.mpr ⟨hm,hfolder ▸ hp⟩,hkey⟩ }

/-- Delete folders whose names are not in the provided list; how many. -/
def removeStaleFolders (c : Cache) (currentNames : List String) : Nat × Cache :=
  let c' := if currentNames.isEmpty then c.deleteFoldersWhere (fun _ => true)
    else c.deleteFoldersWhere (fun name => name ∉ currentNames)
  (c.rows.folders.length - c'.rows.folders.length,c')

variable {c c' : Cache} {folder : String} {uid : Nat} {p : UpsertMessageParams}

theorem upsertRows_uniqueKeys : (c.upsertRows folder uid p).UniqueKeys where
  folders := c.unique.folders
  messages := by
    show ((c.rows.messages.filter _ ++ [_]).map StoredMessage.key).Nodup
    rw [List.map_append,List.nodup_append]
    refine ⟨c.unique.messages.sublist (List.filter_sublist.map _),List.nodup_singleton _,?_⟩
    rintro a ha b hb rfl
    obtain ⟨m,hm,rfl⟩ := List.mem_map.mp ha
    have hne : m.key ≠ (uid,folder) := by simpa using (List.mem_filter.mp hm).2
    exact hne (List.mem_singleton.mp hb)
  tags := c.unique.tags
  messageTags := c.unique.messageTags.sublist (List.filter_sublist.map _)

theorem upsertRows_foreignKeys (h : ∃ f ∈ c.rows.folders, f.name = folder) :
    (c.upsertRows folder uid p).ForeignKeys where
  folder m hm := by
    rcases List.mem_append.mp hm with hm | hm
    · exact c.fk.folder m (List.mem_filter.mp hm).1
    · rw [List.mem_singleton.mp hm]
      exact h
  tag t ht := c.fk.tag t (List.mem_filter.mp ht).1
  message t ht := by
    obtain ⟨ht,hne⟩ := List.mem_filter.mp ht
    obtain ⟨m,hm,hk⟩ := c.fk.message t ht
    have hkey : m.key ≠ (uid,folder) := by
      rw [hk]
      simpa using hne
    exact ⟨m,List.mem_append_left _ (List.mem_filter.mpr ⟨hm,by simpa using hkey⟩),hk⟩

/-- Storing a header goes through where the folder is cached. -/
theorem upsertMessage_of_folder (h : ∃ f ∈ c.rows.folders, f.name = folder) :
    ∃ c', c.upsertMessage folder uid p = .ok c' :=
  ⟨_,CacheRows.commit_of_valid upsertRows_uniqueKeys (upsertRows_foreignKeys h)⟩

theorem upsertMessage_rows (h : c.upsertMessage folder uid p = .ok c') :
    c'.rows = c.upsertRows folder uid p := (CacheRows.commit_eq_ok.mp h).symm

end Cache

end Rav
