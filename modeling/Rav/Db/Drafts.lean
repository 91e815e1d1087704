import Rav.Table
import Mathlib.Data.List.Sort

/-!
# `db::drafts`

What IMAP does not store of a draft: the UID of its copy in the Drafts mailbox, the message it
replies to, and its attachments. Deleting a staging row takes its attachments along; updating one
leaves them alone.

## Main definitions

- `DraftStaging`, `DraftAttachment`, `DraftDb`
- `DraftDb.upsertStaging`, `getStaging`, `deleteStaging`, `insertAttachment`,
  `getDraftAttachments`, `deleteDraftAttachment` — the statements
-/

namespace Rav

/-- Maps a client-generated draft UUID to local state that IMAP doesn't store. -/
structure DraftStaging where
  uuid : String
  imapUid : Option Nat
  replyMessageId : Option String
  deriving DecidableEq, Repr

/-- An attachment file staged for a draft. -/
structure DraftAttachment where
  id : String
  draftUuid : String
  filename : String
  contentType : String
  size : Nat
  filePath : String
  createdAt : Nat
  deriving DecidableEq, Repr

structure DraftDb where
  staging : Table DraftStaging.uuid
  attachments : Table DraftAttachment.id
  fk : ∀ a ∈ attachments.rows, ∃ s ∈ staging.rows, s.uuid = a.draftUuid

namespace DraftDb

variable (db : DraftDb)

/-- Retrieve a staging record by UUID. -/
def getStaging (uuid : String) : Option DraftStaging := db.staging.find? uuid

/-- The row an upsert leaves: a reply target that is set stays. -/
def stagingRow (uuid : String) (imapUid : Option Nat) (replyMessageId : Option String) :
    DraftStaging :=
  ⟨uuid,imapUid,((db.getStaging uuid).bind DraftStaging.replyMessageId).or replyMessageId⟩

/-- Another draft replies to the message already. -/
def ReplyTaken (row : DraftStaging) : Prop :=
  row.replyMessageId ≠ none ∧
    ∃ s ∈ db.staging.rows, s.uuid ≠ row.uuid ∧ s.replyMessageId = row.replyMessageId

instance (row : DraftStaging) : Decidable (db.ReplyTaken row) := by
  unfold ReplyTaken
  infer_instance

/-- Insert or update the staging record of a draft, refused where `reply_message_id` would not be
unique. -/
def upsertStaging (uuid : String) (imapUid : Option Nat) (replyMessageId : Option String) :
    Option DraftDb :=
  let row := db.stagingRow uuid imapUid replyMessageId
  if db.ReplyTaken row then none
  else some { db with
    staging := db.staging.insertOrReplace row
    fk := by
      intro a ha
      obtain ⟨s,hs,hu⟩ := db.fk a ha
      by_cases hk : s.uuid = uuid
      · exact ⟨row,List.mem_append_right _ (List.mem_singleton.mpr rfl),hk.symm.trans hu⟩
      · exact ⟨s,List.mem_append_left _ (List.mem_filter.mpr ⟨hs,decide_eq_true hk⟩),hu⟩ }

/-- Delete a staging record and its attachments; whether there was one. -/
def deleteStaging (uuid : String) : Bool × DraftDb :=
  ((db.getStaging uuid).isSome,
    { db with
      staging := db.staging.deleteWhere (fun s => s.uuid = uuid)
      attachments := db.attachments.deleteWhere (fun a => a.draftUuid = uuid)
      fk := by
        intro a ha
        obtain ⟨ha,hne⟩ := List.mem_filter.mp ha
        obtain ⟨s,hs,hu⟩ := db.fk a ha
        have hsu : ¬s.uuid = uuid := by
          rw [hu]
          simpa using hne
        exact ⟨s,List.mem_filter.mpr ⟨hs,by simpa using hsu⟩,hu⟩ })

/-- The second statement of `add_draft_attachment`: the id must be new and the draft staged. -/
def insertAttachment (a : DraftAttachment) : Option DraftDb :=
  if h : (db.attachments.find? a.id).isNone ∧ ∃ s ∈ db.staging.rows, s.uuid = a.draftUuid then
    some { db with
      attachments := db.attachments.insertOrIgnore a
      fk := by
        intro b hb
        unfold Table.insertOrIgnore at hb
        split at hb
        · exact db.fk b hb
        · rcases List.mem_append.mp hb with hb | hb
          · exact db.fk b hb
          · rw [List.mem_singleton.mp hb]
            exact h.2 }
  else none

/-- All attachments of a draft, oldest first. -/
def getDraftAttachments (draftUuid : String) : List DraftAttachment :=
  (db.attachments.rows.filter (fun a => a.draftUuid = draftUuid)).insertionSort
    (fun a b => a.createdAt ≤ b.createdAt)

/-- Delete a single attachment; whether there was one. -/
def deleteDraftAttachment (id : String) : Bool × DraftDb :=
  ((db.attachments.find? id).isSome,
    { db with
      attachments := db.attachments.deleteWhere (fun a => a.id = id)
      fk := fun a ha => db.fk a (List.mem_filter.mp ha).1 })

/-! ### What the statements do -/

variable {db : DraftDb} {uuid : String} {db' : DraftDb}

theorem upsertStaging_spec {imapUid : Option Nat} {reply : Option String}
    (h : db.upsertStaging uuid imapUid reply = some db') :
    db'.attachments = db.attachments ∧ ∀ k, db'.getStaging k =
      if k = uuid then some (db.stagingRow uuid imapUid reply) else db.getStaging k := by
  unfold upsertStaging at h
  dsimp only at h
  split at h
  · simp at h
  · obtain rfl := Option.some.inj h
    exact ⟨rfl,fun k => Table.find?_insertOrReplace _ _ _⟩

/-- An attachment does not touch the staging rows. -/
theorem insertAttachment_staging {a : DraftAttachment} (h : db.insertAttachment a = some db') :
    db'.staging = db.staging := by
  unfold insertAttachment at h
  split at h
  · obtain rfl := Option.some.inj h
    rfl
  · simp at h

theorem getStaging_deleteStaging (k : String) :
    (db.deleteStaging uuid).2.getStaging k = if k = uuid then none else db.getStaging k := by
  show (db.staging.deleteWhere _).find? k = _
  rw [Table.find?_deleteWhere]
  show (db.getStaging k).filter _ = _
  cases h : db.getStaging k with
  | none => simp
  | some s =>
    have hs : s.uuid = k := (Table.find?_eq_some.mp h).2
    by_cases hk : k = uuid <;> simp [Option.filter,hs,hk]

end DraftDb

end Rav
