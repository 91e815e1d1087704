import Rav.Prog
import Mathlib.Data.List.Sort

/-!
# `db::identities`

The table of sender identities. Each function is a program of statements, and other requests run
between two of them; clearing the old default and setting the new one are two. Timestamps are
left out.

## Main definitions

- `Identity`, `IdentityDb` — the table, with the single statements on it
- `IdentityCall`, `IdentityCall.serve` — a statement, which may fail
- `createIdentity`, `updateIdentity` — the functions of several statements
-/

namespace Rav

/-- A sender identity record, mirroring the `identities` table. -/
structure Identity where
  id : Int
  displayName : String
  email : String
  signatureHtml : String
  isDefault : Bool
  deriving DecidableEq, Repr

/-- Fields for creating a new identity. -/
structure CreateIdentity where
  displayName : String := ""
  email : String
  signatureHtml : String := ""
  isDefault : Bool := false
  deriving DecidableEq, Repr

/-- Fields for updating an existing identity. All are optional. -/
structure UpdateIdentity where
  displayName : Option String := none
  email : Option String := none
  signatureHtml : Option String := none
  isDefault : Option Bool := none
  deriving DecidableEq, Repr

def CreateIdentity.row (data : CreateIdentity) (id : Int) : Identity :=
  ⟨id,data.displayName,data.email,data.signatureHtml,data.isDefault⟩

/-- Only provided fields are changed. -/
def UpdateIdentity.apply (data : UpdateIdentity) (r : Identity) : Identity where
  id := r.id
  displayName := data.displayName.getD r.displayName
  email := data.email.getD r.email
  signatureHtml := data.signatureHtml.getD r.signatureHtml
  isDefault := data.isDefault.getD r.isDefault

/-- The table; ids are given out once. -/
structure IdentityDb where
  identities : List Identity
  /-- The last id given out. -/
  seq : Int
  ids : (identities.map Identity.id).Nodup
  issued : ∀ r ∈ identities, r.id ≤ seq

namespace IdentityDb

def empty : IdentityDb := ⟨[],0,List.nodup_nil,fun _ h => absurd h List.not_mem_nil⟩

variable (db : IdentityDb)

/-- `is_default DESC, email ASC`. -/
def inOrder (a b : Identity) : Bool :=
  (a.isDefault && !b.isDefault) || (a.isDefault == b.isDefault && decide (a.email ≤ b.email))

def listIdentities : List Identity :=
  db.identities.insertionSort (fun a b => inOrder a b = true)

def getIdentity (id : Int) : Option Identity := db.identities.find? (fun r => r.id = id)

def hasIdentities : Bool := decide (db.identities.length > 0)

/-- Change rows one by one, without their ids. -/
def mapRows (f : Identity → Identity) (hf : ∀ r, (f r).id = r.id) : IdentityDb where
  identities := db.identities.map f
  seq := db.seq
  ids := by
    have he : Identity.id ∘ f = Identity.id := funext hf
    rw [List.map_map,he]
    exact db.ids
  issued := by
    intro r hr
    obtain ⟨q,hq,rfl⟩ := List.mem_map.mp hr
    rw [hf]
    exact db.issued q hq

/-- Clear the default flag on all identities. -/
def clearDefault : IdentityDb := db.mapRows (fun r => { r with isDefault := false }) (fun _ => rfl)

/-- The `UPDATE` of `update_identity`. -/
def updateRow (id : Int) (data : UpdateIdentity) : IdentityDb :=
  db.mapRows (fun r => if r.id = id then data.apply r else r) (fun r => by split <;> rfl)

/-- The `INSERT` of `create_identity`. -/
def insertRow (data : CreateIdentity) : IdentityDb where
  identities := db.identities ++ [data.row (db.seq + 1)]
  seq := db.seq + 1
  ids := by
    rw [List.map_append,List.nodup_append]
    refine ⟨db.ids,List.nodup_singleton _,?_⟩
    rintro a ha b hb rfl
    obtain ⟨r,hr,rfl⟩ := List.mem_map.mp ha
    have hle := db.issued r hr
    have heq : r.id = db.seq + 1 := List.mem_singleton.mp hb
    omega
  issued := by
    intro r hr
    rcases List.mem_append.mp hr with hr | hr
    · have := db.issued r hr
      omega
    · rw [List.mem_singleton.mp hr]
      exact Int.le_refl _

/-- Delete an identity by id; whether there was one. -/
def deleteIdentity (id : Int) : Bool × IdentityDb :=
  ((db.getIdentity id).isSome,{
    identities := db.identities.filter (fun r => !decide (r.id = id))
    seq := db.seq
    ids := db.ids.sublist (List.filter_sublist.map Identity.id)
    issued := fun r hr => db.issued r (List.mem_filter.mp hr).1 })

end IdentityDb

/-! ### Statements -/

inductive IdentityCall
  | withUserDb
  | hasIdentities
  | listIdentities
  | getIdentity (id : Int)
  | clearDefault
  | insertIdentity (data : CreateIdentity)
  | updateIdentity (id : Int) (data : UpdateIdentity)
  | deleteIdentity (id : Int)

def IdentityCall.Answer : IdentityCall → Type
  | .withUserDb => Except String Unit
  | .hasIdentities => Except String Bool
  | .listIdentities => Except String (List Identity)
  | .getIdentity _ => Except String (Option Identity)
  | .clearDefault => Except String Unit
  | .insertIdentity _ => Except String Int
  | .updateIdentity _ _ => Except String Unit
  | .deleteIdentity _ => Except String Bool

/-- A statement, unless it fails. -/
def IdentityDb.statement {α : Type} (fails : Option String) (failed : String) (db : IdentityDb)
    (f : α × IdentityDb) : Except String α × IdentityDb :=
  match fails with
  | some e => (.error (failed ++ e),db)
  | none => (.ok f.1,f.2)

/-- Run one statement; the insertion answers the new id. -/
def IdentityCall.serve (fails : Option String) :
    (c : IdentityCall) → IdentityDb → c.Answer × IdentityDb
  | .withUserDb, db => db.statement fails "" ((),db)
  | .hasIdentities, db =>
    db.statement fails "Failed to count identities: " (db.hasIdentities,db)
  | .listIdentities, db =>
    db.statement fails "Failed to query identities: " (db.listIdentities,db)
  | .getIdentity id, db => db.statement fails "Failed to get identity: " (db.getIdentity id,db)
  | .clearDefault, db =>
    db.statement fails "Failed to clear default identity: " ((),db.clearDefault)
  | .insertIdentity data, db =>
    db.statement fails "Failed to create identity: " (db.seq + 1,db.insertRow data)
  | .updateIdentity id data, db =>
    db.statement fails "Failed to update identity: " ((),db.updateRow id data)
  | .deleteIdentity id, db =>
    db.statement fails "Failed to delete identity: " (db.deleteIdentity id)

abbrev IdentityTask := Prog IdentityCall IdentityCall.Answer

def identityCall (c : IdentityCall) : IdentityTask c.Answer :=
  Prog.perform (R := IdentityCall.Answer) c

/-- The `INSERT` of `create_identity`, and reading the row back. -/
def insertIdentity (data : CreateIdentity) : IdentityTask (Except String Identity) := do
  match ← identityCall (.insertIdentity data) with
  | .error (e : String) => pure (.error e)
  | .ok (id : Int) =>
    match ← identityCall (.getIdentity id) with
    | .error (e : String) => pure (.error e)
    | .ok none => pure (.error "Failed to read back created identity")
    | .ok (some (r : Identity)) => pure (.ok r)

/-- Create a new identity. If it is to be the default, the default flag on all other identities
is cleared first. -/
def createIdentity (data : CreateIdentity) : IdentityTask (Except String Identity) :=
  if data.isDefault then do
    match ← identityCall .clearDefault with
    | .error (e : String) => pure (.error e)
    | .ok () => insertIdentity data
  else insertIdentity data

/-- The `UPDATE` of `update_identity`, unless nothing is provided, and reading the row back. -/
def changeIdentity (id : Int) (data : UpdateIdentity) :
    IdentityTask (Except String (Option Identity)) :=
  if data = {} then identityCall (.getIdentity id)
  else do
    match ← identityCall (.updateIdentity id data) with
    | .error (e : String) => pure (.error e)
    | .ok () => identityCall (.getIdentity id)

/-- Update an existing identity. If it is made the default, the default flag is cleared on all
identities first. -/
def updateIdentity (id : Int) (data : UpdateIdentity) :
    IdentityTask (Except String (Option Identity)) := do
  match ← identityCall (.getIdentity id) with
  | .error (e : String) => pure (.error e)
  | .ok none => pure (.ok none)
  | .ok (some (_ : Identity)) =>
    if data.isDefault = some true then
      match ← identityCall .clearDefault with
      | .error (e : String) => pure (.error e)
      | .ok () => changeIdentity id data
    else changeIdentity id data

end Rav
