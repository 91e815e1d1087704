import Rav.Json
import Rav.Like
import Rav.Str
import Rav.Table
import Mathlib.Data.List.Sort

/-!
# `db::contacts`, `db::contact_groups`

The tables of the address book and the statements on them that contact requests make. A contact
has two unique keys, its id and its email; the memberships of a contact or a group go with it. The
addresses seen in the headers of messages are kept beside the contacts, each with the last name it was
seen with.

## Main definitions

- `Contact`, `ContactGroup`, `GroupMember` — the rows
- `ContactsDb` — the tables, under their keys and foreign keys
- `ContactsDb.upsertContact`, `getContact`, `getContactByEmail`, `deleteContact`, `listContacts`,
  `countContacts`, `searchContacts` — the statements
- `KnownAddress`, `AddressBook` — the addresses seen, beside the contacts
- `populateKnownAddresses`, `AddressBook.searchKnownAddresses` — the statements on them
-/

namespace Rav

/-- A contact record, mirroring the `contacts` table. -/
structure Contact where
  id : String
  email : String
  name : String
  company : String
  notes : String
  isFavorite : Bool
  lastContacted : Option String
  contactCount : Int
  source : String
  createdAt : String
  updatedAt : String
  deriving DecidableEq, Repr

/-- A row of `contact_groups`. -/
structure ContactGroup where
  id : String
  name : String
  createdAt : String
  updatedAt : String
  deriving DecidableEq, Repr

/-- A row of `contact_group_members`; all of it is the primary key. -/
structure GroupMember where
  groupId : String
  contactId : String
  deriving DecidableEq, Repr

structure ContactsDb where
  contacts : Table Contact.id
  groups : Table ContactGroup.id
  members : Table (fun m : GroupMember => m)
  emails : (contacts.rows.map Contact.email).Nodup
  groupNames : (groups.rows.map ContactGroup.name).Nodup
  contactOf : ∀ m ∈ members.rows, m.contactId ∈ contacts.rows.map Contact.id
  groupOf : ∀ m ∈ members.rows, m.groupId ∈ groups.rows.map ContactGroup.id

/-- A row that the insertion of `c` replaces: it has the id of `c`, or its email. -/
def Contact.conflicts (c r : Contact) : Bool := decide (r.id = c.id ∨ r.email = c.email)

namespace ContactsDb

variable (db : ContactsDb)

def getContact (id : String) : Option Contact := db.contacts.find? id

def getContactByEmail (email : String) : Option Contact :=
  db.contacts.rows.find? (fun r => r.email = email)

/-- The memberships of the rows that the insertion of `c` replaces. -/
def replaces (c : Contact) (m : GroupMember) : Bool :=
  db.contacts.rows.any (fun r => c.conflicts r && decide (r.id = m.contactId))

/-- `INSERT OR REPLACE`: the rows in conflict with `c` are deleted, the cascade deletes their
memberships, and `c` is inserted. -/
def upsertContact (c : Contact) : ContactsDb where
  contacts := {
    rows := db.contacts.rows.filter (fun r => !c.conflicts r) ++ [c]
    nodup := by
      rw [List.map_append,List.nodup_append]
      refine ⟨db.contacts.nodup.sublist (List.filter_sublist.map Contact.id),
        List.nodup_singleton _,?_⟩
      rintro a ha b hb rfl
      obtain ⟨r,hr,rfl⟩ := List.mem_map.mp ha
      have hc := (List.mem_filter.mp hr).2
      simp_all [Contact.conflicts] }
  groups := db.groups
  members := db.members.deleteWhere (db.replaces c)
  emails := by
    show ((db.contacts.rows.filter (fun r => !c.conflicts r) ++ [c]).map Contact.email).Nodup
    rw [List.map_append,List.nodup_append]
    refine ⟨db.emails.sublist (List.filter_sublist.map Contact.email),List.nodup_singleton _,?_⟩
    rintro a ha b hb rfl
    obtain ⟨r,hr,rfl⟩ := List.mem_map.mp ha
    have hc := (List.mem_filter.mp hr).2
    simp_all [Contact.conflicts]
  groupNames := db.groupNames
  contactOf := by
    intro m hm
    obtain ⟨hm,hkept⟩ := List.mem_filter.mp hm
    obtain ⟨r,hr,hid⟩ := List.mem_map.mp (db.contactOf m hm)
    have hfree : c.conflicts r = false := by
      by_contra hc
      have : db.replaces c m = true :=
        List.any_eq_true.mpr ⟨r,hr,by simp_all⟩
      simp [this] at hkept
    exact List.mem_map.mpr
      ⟨r,List.mem_append_left _ (List.mem_filter.mpr ⟨hr,by simp [hfree]⟩),hid⟩
  groupOf := fun m hm => db.groupOf m (List.mem_filter.mp hm).1

variable {db} {c d : Contact} {m : GroupMember}

/-- The contacts after an upsert: the one written, and those not in conflict with it. -/
theorem mem_upsertContact : d ∈ (db.upsertContact c).contacts.rows ↔
    (d ∈ db.contacts.rows ∧ d.id ≠ c.id ∧ d.email ≠ c.email) ∨ d = c := by
  simp [upsertContact,Contact.conflicts]

/-- The memberships after an upsert: those of contacts not in conflict with the one written. -/
theorem member_upsertContact : m ∈ (db.upsertContact c).members.rows ↔
    m ∈ db.members.rows ∧ ∀ r ∈ db.contacts.rows, r.id = m.contactId →
      r.id ≠ c.id ∧ r.email ≠ c.email := by
  simp only [upsertContact,Table.deleteWhere,List.mem_filter,replaces,Contact.conflicts,
    Bool.not_eq_true',List.any_eq_false,Bool.and_eq_true,decide_eq_true_eq,not_and]
  refine and_congr_right (fun _ => forall₂_congr (fun r _ => ?_))
  tauto

end ContactsDb

/-! ### Finding contacts -/

/-- Escape `%` and `_` in a search term to prevent LIKE wildcard injection. -/
def escapeLike (term : String) : String :=
  replaceChar '_' "\\_" (replaceChar '%' "\\%" (replaceChar '\\' "\\\\" term))

/-- `name LIKE ?1 ESCAPE '\' OR email LIKE ?1 ESCAPE '\'`. -/
def likeEither (query name email : String) : Bool :=
  sqlLikeEscape (anywhere (escapeLike query)) name || sqlLikeEscape (anywhere (escapeLike query)) email

namespace ContactsDb

variable (db : ContactsDb)

/-- `ORDER BY name ASC`; contacts of one name are in the order of the table. -/
def byName (cs : List Contact) : List Contact := cs.insertionSort (fun c d => c.name ≤ d.name)

/-- The contacts that a search is to find: all of them, if there is nothing to search for. -/
def found (search : Option String) : List Contact :=
  match search.filter (· ≠ "") with
  | some query => db.contacts.rows.filter (fun c => likeEither query c.name c.email)
  | none => db.contacts.rows

/-- List contacts with optional search filter on name/email. -/
def listContacts (search : Option String) (limit offset : Nat) : List Contact :=
  ((byName (db.found search)).drop offset).take limit

/-- Count contacts with optional search filter. -/
def countContacts (search : Option String) : Nat := (db.found search).length

/-- Search contacts by name or email. -/
def searchContacts (query : String) (limit : Nat) : List Contact :=
  (byName (db.contacts.rows.filter (fun c => likeEither query c.name c.email))).take limit

/-- `DELETE FROM contacts`: the cascade deletes the memberships; whether a row was deleted. -/
def deleteContact (id : String) : Bool × ContactsDb :=
  (decide (id ∈ db.contacts.rows.map Contact.id),
    { contacts := db.contacts.deleteWhere (fun c => c.id = id)
      groups := db.groups
      members := db.members.deleteWhere (fun m => m.contactId = id)
      emails := db.emails.sublist (List.filter_sublist.map Contact.email)
      groupNames := db.groupNames
      contactOf := by
        intro m hm
        obtain ⟨hm, hkept⟩ := List.mem_filter.mp hm
        obtain ⟨c, hc, hid⟩ := List.mem_map.mp (db.contactOf m hm)
        have hstays : (!decide (c.id = id)) = true := by
          rw [hid]
          exact hkept
        exact List.mem_map.mpr ⟨c, List.mem_filter.mpr ⟨hc, hstays⟩, hid⟩
      groupOf := fun m hm => db.groupOf m (List.mem_filter.mp hm).1 })

end ContactsDb

/-! ### Known addresses -/

/-- A known address extracted from message headers (not necessarily a contact). -/
structure KnownAddress where
  email : String
  name : String
  deriving DecidableEq, Repr

abbrev KnownAddresses := Table KnownAddress.email

/-- `INSERT … ON CONFLICT(email) DO UPDATE SET name = excluded.name WHERE excluded.name != ''`. -/
def KnownAddresses.insert (t : KnownAddresses) (k : KnownAddress) : KnownAddresses :=
  (t.updateWhere (fun r => r.email = k.email && k.name ≠ "") (fun r => { r with name := k.name })
    (fun _ => rfl)).insertOrIgnore k

/-- The rows for a JSON array of `{"address": "...", "name": "..."}` objects; what is not one is passed
over. -/
def addressEntries (json : String) : List KnownAddress :=
  match Json.parse json with
  | some (.array entries) =>
    (entries.map fun entry =>
      (⟨((entry.get "address").bind Json.Value.asStr).getD "",
        ((entry.get "name").bind Json.Value.asStr).getD ""⟩ : KnownAddress)).filter (fun k => k.email ≠ "")
  | _ => []

/-- The row for the sender of a message. -/
def senderEntry (fromAddress fromName : String) : List KnownAddress :=
  if fromAddress = "" then [] else [⟨fromAddress,fromName⟩]

/-- Populate the `known_addresses` table from a single message's header fields. Of its statements that of a
number may fail; then those before it have taken effect. -/
def populateKnownAddresses (fromAddress fromName toJson ccJson : String) (fault : Option (Nat × String))
    (t : KnownAddresses) : Except String Unit × KnownAddresses :=
  let sender := senderEntry fromAddress fromName
  let entries := sender ++ addressEntries toJson ++ addressEntries ccJson
  match fault.filter (fun f => f.1 < entries.length) with
  | some (n,e) =>
    (.error ((if n < sender.length then "Failed to insert known address (from): "
      else "Failed to insert known address (json): ") ++ e),(entries.take n).foldl KnownAddresses.insert t)
  | none => (.ok (),entries.foldl KnownAddresses.insert t)

/-- The contacts, and the known addresses beside them. -/
structure AddressBook where
  db : ContactsDb
  known : KnownAddresses

/-- Search known addresses. Excludes any addresses already present in the contacts table. -/
def AddressBook.searchKnownAddresses (b : AddressBook) (query : String) (limit : Nat) : List KnownAddress :=
  let found := b.known.rows.filter (fun k => likeEither query k.email k.name &&
    decide (∀ c ∈ b.db.contacts.rows, c.email ≠ k.email))
  (found.insertionSort (fun k l => k.email ≤ l.email)).take limit

end Rav
