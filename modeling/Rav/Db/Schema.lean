import Rav.Table
import Rav.Separated
import Rav.Imap.Types

/-!
# The per-user database

The tables of a user's database: the cache of folders and messages, with the foreign key from
messages to folders kept by construction, the filter rules and the vacation responder; and
what the cache says about one folder.

## Main definitions

- `CachedFolder`, `CachedMessage` — the rows
- `Db` — the database
- `Db.folder?`, `Db.message?` — the row of a folder, the row of a message
- `Db.uids` — the cached UIDs of a folder
-/

namespace Rav

/-- A row of `folders`; `messagesUpdatedAt` is `NULL` until the folder's messages are synced. -/
structure CachedFolder where
  name : String
  delimiter : Option String
  parent : Option String
  flags : String
  isSubscribed : Bool
  totalCount : Nat
  unreadCount : Nat
  uidValidity : Nat
  highestModseq : Nat
  messagesUpdatedAt : Option Nat
  deriving DecidableEq, Repr

/-- The body columns of a message row, filled together; `origin` is ghost data. -/
structure CachedBody where
  html : Option String
  text : Option String
  attachmentsJson : Option String
  rawHeaders : Option String
  origin : Origin
  deriving DecidableEq, Repr

/-- A row of `messages`; `body` is present where `body_cached = 1`, `origin` is ghost data. -/
structure CachedMessage where
  uid : Nat
  folder : String
  messageId : Option String
  inReplyTo : Option String
  referencesHeader : Option String
  subject : String
  fromAddress : String
  fromName : String
  toAddresses : String
  ccAddresses : String
  date : String
  flags : String
  size : Nat
  hasAttachments : Bool
  snippet : String
  reaction : Option String
  dateEpoch : Int
  threadId : Option String
  body : Option CachedBody
  origin : Origin
  deriving DecidableEq, Repr

/-- The primary key of `messages`. -/
def CachedMessage.key (r : CachedMessage) : Nat × String := (r.uid,r.folder)

def CachedMessage.setFlags (r : CachedMessage) (csv : String) : CachedMessage :=
  { r with flags := csv }

def CachedMessage.setBody (r : CachedMessage) (body : CachedBody) : CachedMessage :=
  { r with body := some body }

@[simp] theorem CachedMessage.setFlags_key (r : CachedMessage) (csv : String) :
    (r.setFlags csv).key = r.key := rfl

@[simp] theorem CachedMessage.setBody_key (r : CachedMessage) (body : CachedBody) :
    (r.setBody body).key = r.key := rfl

@[simp] theorem CachedMessage.setFlags_flags (r : CachedMessage) (csv : String) :
    (r.setFlags csv).flags = csv := rfl

@[simp] theorem CachedMessage.setFlags_origin (r : CachedMessage) (csv : String) :
    (r.setFlags csv).origin = r.origin := rfl

@[simp] theorem CachedMessage.setFlags_body (r : CachedMessage) (csv : String) :
    (r.setFlags csv).body = r.body := rfl

@[simp] theorem CachedMessage.setBody_flags (r : CachedMessage) (body : CachedBody) :
    (r.setBody body).flags = r.flags := rfl

@[simp] theorem CachedMessage.setBody_origin (r : CachedMessage) (body : CachedBody) :
    (r.setBody body).origin = r.origin := rfl

@[simp] theorem CachedMessage.setBody_body (r : CachedMessage) (body : CachedBody) :
    (r.setBody body).body = some body := rfl

/-- A single condition within a filter rule. -/
structure FilterCondition where
  field : String
  op : String
  value : String
  deriving DecidableEq, Repr

/-- A single action to take when a rule matches. -/
structure FilterAction where
  actionType : String
  actionValue : Option String
  deriving DecidableEq, Repr

/-- A complete filter rule row. -/
structure FilterRule where
  id : String
  name : String
  enabled : Bool
  priority : Int
  conditions : List FilterCondition
  matchMode : String
  actions : List FilterAction
  stopProcessing : Bool
  createdAt : String
  deriving DecidableEq, Repr

/-- Vacation responder settings (singleton per user). -/
structure VacationResponder where
  enabled : Bool
  subject : String
  body : String
  startDate : Option String
  endDate : Option String
  replyIntervalHours : Int
  deriving DecidableEq, Repr

def defaultVacation : VacationResponder := ⟨false,"Out of office","",none,none,24⟩

/-- A user's database. `now` is what `strftime('now')` reads, `deepIndex` the display
preference of that name; `vacationReplies` holds (sender_email, replied_at), `messageTags`
(tag id, uid, folder). -/
structure Db where
  now : Nat
  deepIndex : Bool
  filterRules : List FilterRule
  vacation : VacationResponder
  vacationReplies : List (String × Nat)
  messageTags : List (String × Nat × String)
  folders : Table CachedFolder.name
  messages : Table CachedMessage.key
  fk : ∀ r ∈ messages.rows, ∃ f ∈ folders.rows, f.name = r.folder

namespace Db

def empty : Db := ⟨0,false,[],defaultVacation,[],[],.empty,.empty,by simp [Table.empty]⟩

variable (db : Db)

def folder? (name : String) : Option CachedFolder := db.folders.find? name

def message? (folder : String) (uid : Nat) : Option CachedMessage := db.messages.find? (uid,folder)

/-- The rows of a folder, in table order. -/
def rowsOf (folder : String) : List CachedMessage :=
  db.messages.rows.filter (fun r => r.folder = folder)

/-- The cached UIDs of a folder. -/
def uids (folder : String) : Finset Nat := ((db.rowsOf folder).map CachedMessage.uid).toFinset

variable {db : Db} {f : String} {u : Nat} {r : CachedMessage}

theorem message?_eq_some : db.message? f u = some r ↔ r ∈ db.messages.rows ∧ r.uid = u ∧ r.folder = f := by
  rw [message?,Table.find?_eq_some,CachedMessage.key,Prod.mk.injEq]

theorem mem_rowsOf : r ∈ db.rowsOf f ↔ r ∈ db.messages.rows ∧ r.folder = f := by
  simp [rowsOf]

theorem mem_rowsOf_iff : r ∈ db.rowsOf f ↔ db.message? f r.uid = some r := by
  rw [mem_rowsOf,message?_eq_some]
  simp

theorem mem_uids : u ∈ db.uids f ↔ ∃ r, db.message? f u = some r := by
  simp only [uids,List.mem_toFinset,List.mem_map]
  constructor
  · rintro ⟨r,hr,rfl⟩
    exact ⟨r,mem_rowsOf_iff.mp hr⟩
  · rintro ⟨r,hr⟩
    obtain rfl : r.uid = u := (message?_eq_some.mp hr).2.1
    exact ⟨r,mem_rowsOf_iff.mpr hr,rfl⟩

theorem mem_uids_iff_isSome : u ∈ db.uids f ↔ (db.message? f u).isSome := by
  rw [mem_uids,Option.isSome_iff_exists]

/-- The rows of a folder have distinct UIDs. -/
theorem nodup_uids : ((db.rowsOf f).map CachedMessage.uid).Nodup := by
  have hk : ((db.rowsOf f).map CachedMessage.key).Nodup :=
    db.messages.nodup.sublist (List.filter_sublist.map _)
  have he : (db.rowsOf f).map CachedMessage.key =
      ((db.rowsOf f).map CachedMessage.uid).map (fun u => (u,f)) := by
    rw [List.map_map]
    refine List.map_congr_left (fun r hr => ?_)
    simp [CachedMessage.key,(mem_rowsOf.mp hr).2]
  rw [he] at hk
  exact hk.of_map _

theorem card_uids : (db.uids f).card = (db.rowsOf f).length := by
  rw [uids,List.toFinset_card_of_nodup nodup_uids,List.length_map]

/-- A folder with cached messages has a row. -/
theorem folder?_isSome_of_mem_uids (h : u ∈ db.uids f) : ∃ row, db.folder? f = some row := by
  obtain ⟨r,hr⟩ := mem_uids.mp h
  obtain ⟨hm,-,hf⟩ := message?_eq_some.mp hr
  obtain ⟨row,hrow,hn⟩ := db.fk r hm
  exact ⟨row,Table.find?_eq_some.mpr ⟨hrow,hn.trans hf⟩⟩

/-- Two caches of a folder with the same rows under the same UIDs cache the same UIDs. -/
theorem uids_congr {db' : Db} {g : String} (h : ∀ u, (db.message? f u).isSome = (db'.message? g u).isSome) :
    db.uids f = db'.uids g := by
  ext u
  rw [mem_uids_iff_isSome,mem_uids_iff_isSome,h]

end Db

end Rav
