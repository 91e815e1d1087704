import Rav.Db.Contacts
import Rav.Error
import Rav.Prog
import Rav.Str

/-!
# `routes::contacts`

The handlers that write contacts: creating or updating one, and importing a vCard file. Every
statement is a call, and may fail. A vCard file is also what the contacts are exported to. The handlers that
list and suggest contacts run one closure on the database, which may fail.

## Main definitions

- `ParsedVCard`, `parseVcards` — what an uploaded file says
- `contactToVcard`, `exportVcards` — the file of a download
- `ContactCall`, `ContactsWorld`, `ContactCall.serve` — the statements and the tables
- `createContactHandler`, `importContactsHandler` — the handlers
- `listContactsHandler`, `autocompleteHandler`, `autocompleteAllHandler` — the handlers that only read
-/

namespace Rav

/-! ### vCards -/

/-- A parsed vCard entry with optional fields. -/
structure ParsedVCard where
  name : String
  email : String
  company : String
  notes : String
  deriving DecidableEq, Repr

/-- The state of the loop over the lines of a file. -/
structure VCardLines where
  inVcard : Bool
  current : ParsedVCard
  results : List ParsedVCard

/-- `str::to_uppercase`, as far as it yields single letters of ASCII. -/
def toUppercase (s : String) : String :=
  String.ofList (s.toList.map (fun c =>
    if c.toNat = 0x131 then 'I' else if c.toNat = 0x17F then 'S' else c.toUpper))

/-- Field name and value of a line, without the parameters of the field. -/
def vcardField (line : String) : Option (String × String) :=
  (splitOnce [':'] line.toList).map (fun kv =>
    let field := ((splitOnce [';'] kv.1).map Prod.fst).getD kv.1
    (toUppercase (String.ofList field),String.ofList kv.2))

def vcardUnescape (value : String) : String :=
  strReplace "\\\\" "\\" (strReplace "\\;" ";" (strReplace "\\," "," (strReplace "\\n" "\n" value)))

/-- The name of an `N` field, `Last;First;Middle;Prefix;Suffix`. -/
def vcardName (value : String) : String :=
  let parts := (splitFuel [';'] 4 value.toList).map String.ofList
  let last := strTrim (parts[0]?.getD "")
  let first := strTrim (parts[1]?.getD "")
  strTrim (first ++ " " ++ last)

/-- Fill in a field of the entry that is still empty. -/
def ParsedVCard.set (v : ParsedVCard) (field value : String) : ParsedVCard :=
  if field = "FN" ∧ v.name = "" then { v with name := value }
  else if field = "N" ∧ v.name = "" then { v with name := vcardName value }
  else if field = "EMAIL" ∧ v.email = "" then { v with email := value }
  else if field = "ORG" ∧ v.company = "" then { v with company := value }
  else if field = "NOTE" ∧ v.notes = "" then { v with notes := value }
  else v

def VCardLines.line (s : VCardLines) (line : String) : VCardLines :=
  let line := strTrim line
  if eqIgnoreAsciiCase line "BEGIN:VCARD" then { s with inVcard := true, current := ⟨"","","",""⟩ }
  else if eqIgnoreAsciiCase line "END:VCARD" then
    { s with
      inVcard := false
      results := if s.inVcard ∧ s.current.email ≠ "" then s.results ++ [s.current] else s.results }
  else if s.inVcard = false then s
  else
    match vcardField line with
    | none => s
    | some (field,value) => { s with current := s.current.set field (vcardUnescape value) }

/-- Parse vCard data (potentially multiple entries) from a string. -/
def parseVcards (data : String) : List ParsedVCard :=
  let unfolded := strReplace "\n\t" "" (strReplace "\n " ""
    (strReplace "\r\n\t" "" (strReplace "\r\n " "" data)))
  ((strLines unfolded).foldl VCardLines.line ⟨false,⟨"","","",""⟩,[]⟩).results

/-- Escape special characters in a vCard field value. -/
def vcardEscape (s : String) : String :=
  replaceChar '\n' "\\n" (replaceChar ';' "\\;" (replaceChar ',' "\\," (replaceChar '\\' "\\\\" s)))

/-- The lines of a contact in vCard 3.0 format. -/
def vcardLines (c : Contact) : List String :=
  let name := if c.name = "" then c.email else c.name
  ["BEGIN:VCARD","VERSION:3.0","FN:" ++ vcardEscape name,"N:" ++ vcardEscape name ++ ";;;;",
    "EMAIL:" ++ c.email] ++
    (if c.company = "" then [] else ["ORG:" ++ vcardEscape c.company]) ++
    (if c.notes = "" then [] else ["NOTE:" ++ vcardEscape c.notes]) ++ ["END:VCARD"]

/-- Serialize a Contact to vCard 3.0 format. -/
def contactToVcard (c : Contact) : String := String.intercalate "\r\n" (vcardLines c)

/-- The file of `export_contacts_handler`. -/
def exportVcards (contacts : List Contact) : String :=
  String.intercalate "\r\n" (contacts.map contactToVcard)

/-! ### Calls -/

inductive ContactCall
  | withUserDb
  /-- `SELECT datetime('now')`. -/
  | datetimeNow
  /-- `Uuid::new_v4`. -/
  | newV4
  | getContactByEmail (email : String)
  | upsertContact (c : Contact)

def ContactCall.Answer : ContactCall → Type
  | .withUserDb => Except String Unit
  | .datetimeNow => Except String String
  | .newV4 => String
  | .getContactByEmail _ => Except String (Option Contact)
  | .upsertContact _ => Except String Unit

abbrev ContactTask := Prog ContactCall ContactCall.Answer

def contactCall (c : ContactCall) : ContactTask c.Answer := Prog.perform (R := ContactCall.Answer) c

/-- The tables, the clock, the ids that are drawn, and which of the next statements fail. -/
structure ContactsWorld where
  db : ContactsDb
  now : String
  uuids : Nat → String
  issued : Nat
  faults : List (Option String)

/-- The error of the next statement, if it fails. -/
def ContactsWorld.fault (w : ContactsWorld) : Option String := w.faults.head?.join

/-- A statement, unless it fails. -/
def ContactsWorld.statement {α : Type} (w : ContactsWorld) (failed : String)
    (f : α × ContactsDb) : Except String α × ContactsWorld :=
  match w.fault with
  | some e => (.error (failed ++ e),{ w with faults := w.faults.tail })
  | none => (.ok f.1,{ w with db := f.2, faults := w.faults.tail })

/-- Answer one call. -/
def ContactCall.serve : (c : ContactCall) → ContactsWorld → c.Answer × ContactsWorld
  | .withUserDb, w => w.statement "" ((),w.db)
  | .datetimeNow, w => w.statement "Database error: " (w.now,w.db)
  | .newV4, w => (w.uuids w.issued,{ w with issued := w.issued + 1 })
  | .getContactByEmail email, w =>
    w.statement "Failed to get contact by email: " (w.db.getContactByEmail email,w.db)
  | .upsertContact c, w => w.statement "Failed to upsert contact: " ((),w.db.upsertContact c)

/-! ### Handlers -/

/-- JSON body for `POST /api/contacts`. -/
structure CreateContactBody where
  id : Option String
  email : String
  name : String := ""
  company : String := ""
  notes : String := ""
  isFavorite : Bool := false
  lastContacted : Option String := none
  contactCount : Int := 0
  source : String := "manual"
  createdAt : String := ""
  updatedAt : String := ""

def CreateContactBody.contact (body : CreateContactBody) (id now : String) : Contact where
  id := id
  email := body.email
  name := body.name
  company := body.company
  notes := body.notes
  isFavorite := body.isFavorite
  lastContacted := body.lastContacted
  contactCount := body.contactCount
  source := body.source
  createdAt := if body.createdAt = "" then now else body.createdAt
  updatedAt := if body.updatedAt = "" then now else body.updatedAt

/-- The id a body gives, or a fresh one. -/
def contactId (id : Option String) : ContactTask String :=
  match id with
  | some id => pure id
  | none => contactCall .newV4

/-- The closure of `create_contact_handler`. -/
def storeContact (body : CreateContactBody) : ContactTask (Except String Contact) := do
  match ← contactCall .withUserDb with
  | .error (e : String) => pure (.error e)
  | .ok () =>
    match ← contactCall .datetimeNow with
    | .error (e : String) => pure (.error e)
    | .ok (now : String) =>
      let id ← contactId body.id
      match ← contactCall (.upsertContact (body.contact id now)) with
      | .error (e : String) => pure (.error e)
      | .ok () => pure (.ok (body.contact id now))

def databaseError {α : Type} : Except String α → Except AppError α
  | .ok a => .ok a
  | .error e => .error (.internalError ("Database error: " ++ e))

/-- `POST /api/contacts`: create or update a contact, with a fresh id if none is given. -/
def createContactHandler (body : CreateContactBody) : ContactTask (Except AppError Contact) :=
  if strTrim body.email = "" then pure (.error (.badRequest "Email is required"))
  else do
    let r ← storeContact body
    pure (databaseError r)

/-- Import response with counts. -/
structure ImportResponse where
  created : Nat
  updated : Nat
  skipped : Nat
  deriving DecidableEq, Repr

/-- Fill in the empty fields of a contact: manual edits are not overwritten. -/
def Contact.merge (c : Contact) (entry : ParsedVCard) : Contact :=
  { c with
    name := if c.name = "" then entry.name else c.name
    company := if c.company = "" then entry.company else c.company
    notes := if c.notes = "" then entry.notes else c.notes }

def ParsedVCard.contact (entry : ParsedVCard) (id now : String) : Contact where
  id := id
  email := entry.email
  name := entry.name
  company := entry.company
  notes := entry.notes
  isFavorite := false
  lastContacted := none
  contactCount := 0
  source := "imported"
  createdAt := now
  updatedAt := now

/-- One entry of the file: a contact with its email is filled in, any other is created. -/
def importEntry (now : String) (entry : ParsedVCard) (n : ImportResponse) :
    ContactTask (Except String ImportResponse) :=
  if entry.email = "" then pure (.ok { n with skipped := n.skipped + 1 })
  else do
    match ← contactCall (.getContactByEmail entry.email) with
    | .error (e : String) => pure (.error e)
    | .ok (some (c : Contact)) =>
      if c.merge entry = c then pure (.ok { n with skipped := n.skipped + 1 })
      else
        match ← contactCall (.upsertContact { c.merge entry with updatedAt := now }) with
        | .error (e : String) => pure (.error e)
        | .ok () => pure (.ok { n with updated := n.updated + 1 })
    | .ok none =>
      let id ← contactCall .newV4
      match ← contactCall (.upsertContact (entry.contact id now)) with
      | .error (e : String) => pure (.error e)
      | .ok () => pure (.ok { n with created := n.created + 1 })

def importEntries (now : String) : List ParsedVCard → ImportResponse →
    ContactTask (Except String ImportResponse)
  | [], n => pure (.ok n)
  | entry :: rest, n => do
    match ← importEntry now entry n with
    | .error e => pure (.error e)
    | .ok n => importEntries now rest n

/-- The closure of `import_contacts_handler`. -/
def importVcards (vcf : String) : ContactTask (Except String ImportResponse) := do
  match ← contactCall .withUserDb with
  | .error (e : String) => pure (.error e)
  | .ok () =>
    match ← contactCall .datetimeNow with
    | .error (e : String) => pure (.error e)
    | .ok (now : String) => importEntries now (parseVcards vcf) ⟨0,0,0⟩

/-- The first field of an upload. -/
inductive MultipartField
  | invalid (e : String)
  | missing
  | unreadable (e : String)
  | field (data : List UInt8)

/-- The text of the uploaded file. -/
def MultipartField.content : MultipartField → Except AppError String
  | .invalid e => .error (.badRequest ("Invalid multipart data: " ++ e))
  | .missing => .ok ""
  | .unreadable e => .error (.badRequest ("Failed to read field: " ++ e))
  | .field data =>
    match fromUtf8 data with
    | none => .error (.badRequest "Invalid UTF-8 in vCard file")
    | some vcf => .ok vcf

/-- `POST /api/contacts/import`: import contacts from an uploaded .vcf file. -/
def importContactsHandler (upload : MultipartField) :
    ContactTask (Except AppError ImportResponse) :=
  match upload.content with
  | .error e => pure (.error e)
  | .ok vcf =>
    if vcf = "" then pure (.error (.badRequest "No file uploaded"))
    else do
      let r ← importVcards vcf
      pure (databaseError r)

/-! ### Suggestions -/

/-- A single autocomplete suggestion. -/
structure AutocompleteSuggestion where
  email : String
  name : String
  source : Option String
  deriving DecidableEq, Repr

def Contact.suggestion (c : Contact) : AutocompleteSuggestion := ⟨c.email,c.name,some "contact"⟩

def KnownAddress.suggestion (k : KnownAddress) : AutocompleteSuggestion := ⟨k.email,k.name,some "known"⟩

/-- The state of the loops that collect suggestions. -/
structure Suggestions where
  seenEmails : List String
  suggestions : List AutocompleteSuggestion

/-- Deduplication by email, after `lower`, which is `str::to_lowercase`. -/
def Suggestions.push (lower : String → String) (s : Suggestions) (x : AutocompleteSuggestion) : Suggestions :=
  if lower x.email ∈ s.seenEmails then s
  else { seenEmails := lower x.email :: s.seenEmails, suggestions := s.suggestions ++ [x] }

/-- The closure of `autocomplete_handler`. -/
def AddressBook.suggest (b : AddressBook) (lower : String → String) (query : String) (limit : Nat) :
    List AutocompleteSuggestion :=
  let s := ((b.db.searchContacts query limit).map Contact.suggestion).foldl (Suggestions.push lower) ⟨[],[]⟩
  let s :=
    if s.suggestions.length < limit then
      let remaining := limit - s.suggestions.length
      ((b.searchKnownAddresses query remaining).map KnownAddress.suggestion).foldl (Suggestions.push lower) s
    else s
  s.suggestions.take limit

/-- The trimmed search query of a request, if there is one. -/
def searchQuery (q : Option String) : Option String := (q.map strTrim).filter (· ≠ "")

/-- `GET /api/contacts/autocomplete`: the suggestions for a query. -/
def autocompleteHandler (lower : String → String) (q : Option String) (limit : UInt32) (fault : Option String)
    (b : AddressBook) : Except AppError (List AutocompleteSuggestion) :=
  match searchQuery q with
  | none => .ok []
  | some query =>
    match fault with
    | some e => .error (.internalError ("Database error: " ++ e))
    | none => .ok (b.suggest lower query limit.toNat)

/-- `GET /api/contacts/autocomplete/all`: all contacts and known addresses. -/
def autocompleteAllHandler (lower : String → String) (fault : Option String) (b : AddressBook) :
    Except AppError (List AutocompleteSuggestion) :=
  match fault with
  | some e => .error (.internalError ("Database error: " ++ e))
  | none =>
    let contacts := b.db.listContacts none 50000 0
    let known := b.searchKnownAddresses "" 50000
    .ok ((contacts.map Contact.suggestion ++ known.map KnownAddress.suggestion).foldl
      (Suggestions.push lower) ⟨[],[]⟩).suggestions

/-- `GET /api/contacts`: a page of the contacts, and how many there are in all. -/
def listContactsHandler (q : Option String) (limit offset : UInt32) (fault : Option String) (b : AddressBook) :
    Except AppError (List Contact × Nat) :=
  match fault with
  | some e => .error (.internalError ("Database error: " ++ e))
  | none =>
    .ok (b.db.listContacts (searchQuery q) (min limit.toNat 200) offset.toNat,b.db.countContacts (searchQuery q))

end Rav
