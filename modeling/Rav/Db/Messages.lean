import Rav.Db.Schema
import Rav.Str
import Mathlib.Data.List.Sort

/-!
# `db::messages`

The statements on the `messages` table that synchronisation uses, each with what it does to
`message?` and `folder?`.

## Main definitions

- `Db.upsertMessage`, `Db.upsertHeader` — store a header
- `Db.deleteMessage`, `Db.deleteFolderMessages`, `Db.updateMessageFlags`, `Db.cacheMessageBody`
- `Db.maxUid`, `Db.countMessages`, `Db.getAllUidsAndFlags`, `Db.getUnindexedMessages`
-/

namespace Rav

/-- The first word of `split_whitespace`. -/
def firstWord (s : String) : Option String :=
  match (s.toList.dropWhile isWhitespace).takeWhile (fun c => !isWhitespace c) with
  | [] => none
  | c :: cs => some (String.ofList (c :: cs))

/-- The canonical thread of a message: the first message id of its References chain, else its
In-Reply-To, else its own Message-ID. -/
def computeThreadId (messageId inReplyTo referencesHeader : Option String) : Option String :=
  match referencesHeader.bind firstWord with
  | some first => some first
  | none =>
    match inReplyTo.filter (fun s => s ≠ "") with
    | some irt => some irt
    | none => messageId.filter (fun s => s ≠ "")

structure UpsertMessageParams where
  messageId : Option String
  inReplyTo : Option String
  referencesHeader : Option String
  subject : String
  fromAddress : String
  fromName : String
  toJson : String
  ccJson : String
  date : String
  dateEpoch : Int
  flagsCsv : String
  size : Nat
  hasAttachments : Bool
  snippet : String
  reaction : Option String
  origin : Origin

/-- The row a header is stored as; its body columns start empty. -/
def UpsertMessageParams.row (p : UpsertMessageParams) (folder : String) (uid : Nat) :
    CachedMessage where
  uid := uid
  folder := folder
  messageId := p.messageId
  inReplyTo := p.inReplyTo
  referencesHeader := p.referencesHeader
  subject := p.subject
  fromAddress := p.fromAddress
  fromName := p.fromName
  toAddresses := p.toJson
  ccAddresses := p.ccJson
  date := p.date
  flags := p.flagsCsv
  size := p.size
  hasAttachments := p.hasAttachments
  snippet := p.snippet
  reaction := p.reaction
  dateEpoch := p.dateEpoch
  threadId := computeThreadId p.messageId p.inReplyTo p.referencesHeader
  body := none
  origin := p.origin

/-- The flags column: names separated by commas. -/
def flagsCsv (flags : List String) : String := joinSep ',' flags

/-- The flags column of names in ascending order. -/
def sortedFlagsCsv (flags : List String) : String := flagsCsv (flags.insertionSort (· ≤ ·))

/-- The flags a flags column holds. -/
def flagSet (csv : String) : Finset String := fields ',' csv

/-- The parameters the sync paths pass for a fetched header. -/
def ImapMessageHeader.upsertParams (h : ImapMessageHeader) : UpsertMessageParams where
  messageId := h.messageId
  inReplyTo := h.inReplyTo
  referencesHeader := h.references
  subject := h.subject.getD ""
  fromAddress := (h.from_.head?.map EmailAddress.address).getD ""
  fromName := (h.from_.head?.bind EmailAddress.name).getD ""
  toJson := Json.array EmailAddress.json h.to_
  ccJson := Json.array EmailAddress.json h.cc
  date := h.date.getD ""
  dateEpoch := h.dateEpoch
  flagsCsv := flagsCsv h.flags
  size := h.size
  hasAttachments := h.hasAttachments
  snippet := ""
  reaction := h.reaction
  origin := h.origin

/-- The row a fetched header is stored as. -/
def ImapMessageHeader.row (h : ImapMessageHeader) (folder : String) : CachedMessage :=
  h.upsertParams.row folder h.uid

@[simp] theorem ImapMessageHeader.row_uid (h : ImapMessageHeader) (f : String) :
    (h.row f).uid = h.uid := rfl

@[simp] theorem ImapMessageHeader.row_folder (h : ImapMessageHeader) (f : String) :
    (h.row f).folder = f := rfl

@[simp] theorem ImapMessageHeader.row_flags (h : ImapMessageHeader) (f : String) :
    (h.row f).flags = flagsCsv h.flags := rfl

@[simp] theorem ImapMessageHeader.row_origin (h : ImapMessageHeader) (f : String) :
    (h.row f).origin = h.origin := rfl

@[simp] theorem ImapMessageHeader.row_body (h : ImapMessageHeader) (f : String) :
    (h.row f).body = none := rfl

theorem flagSet_sortedFlagsCsv (flags : List String) :
    flagSet (sortedFlagsCsv flags) = flagSet (flagsCsv flags) := fields_joinSep_sort

namespace Db

variable (db : Db)

/-! ### Statements -/

/-- `DELETE FROM messages WHERE p`. -/
def deleteMessagesWhere (p : CachedMessage → Bool) : Db :=
  { db with
    messages := db.messages.deleteWhere p
    fk := fun r hr => db.fk r (List.mem_filter.mp hr).1 }

/-- `UPDATE messages SET g WHERE p`, for columns outside the key. -/
def updateMessagesWhere (p : CachedMessage → Bool) (g : CachedMessage → CachedMessage)
    (hg : ∀ r, (g r).key = r.key) : Db :=
  { db with
    messages := db.messages.updateWhere p g hg
    fk := by
      intro r hr
      obtain ⟨s,hs,rfl⟩ := List.mem_map.mp hr
      obtain ⟨f,hf,hn⟩ := db.fk s hs
      refine ⟨f,hf,hn.trans ?_⟩
      split
      · exact (congrArg Prod.snd (hg s)).symm
      · rfl }

/-- Delete all messages in a folder (used when UIDVALIDITY changes). -/
def deleteFolderMessages (folder : String) : Db :=
  db.deleteMessagesWhere (fun r => r.folder = folder)

def deleteMessage (folder : String) (uid : Nat) : Db :=
  db.deleteMessagesWhere (fun r => r.folder = folder && r.uid = uid)

/-- Update only the flags column for a specific message. -/
def updateMessageFlags (folder : String) (uid : Nat) (csv : String) : Db :=
  db.updateMessagesWhere (fun r => r.folder = folder && r.uid = uid)
    (fun r => r.setFlags csv) (fun r => r.setFlags_key csv)

/-- Cache a message body along with its attachments and raw headers. -/
def cacheMessageBody (folder : String) (uid : Nat) (body : CachedBody) : Db :=
  db.updateMessagesWhere (fun r => r.folder = folder && r.uid = uid)
    (fun r => r.setBody body) (fun r => r.setBody_key body)

/-- Insert or replace a message header row; the foreign key refuses a folder without a row. -/
def upsertMessage (folder : String) (uid : Nat) (p : UpsertMessageParams) : Option Db :=
  if h : ∃ f ∈ db.folders.rows, f.name = folder then
    some { db with
      messages := db.messages.insertOrReplace (p.row folder uid)
      fk := by
        intro r hr
        rcases List.mem_append.mp hr with hr | hr
        · exact db.fk r (List.mem_filter.mp hr).1
        · rw [List.mem_singleton.mp hr]
          exact h }
  else none

/-- Store a fetched header. -/
def upsertHeader (folder : String) (h : ImapMessageHeader) : Option Db :=
  db.upsertMessage folder h.uid h.upsertParams

/-! ### Queries -/

/-- The highest cached UID of a folder, or 0 if no messages are cached. -/
def maxUid (folder : String) : Nat := ((db.rowsOf folder).map CachedMessage.uid).foldr max 0

/-- The number of cached messages of a folder. -/
def countMessages (folder : String) : Nat := (db.rowsOf folder).length

def getSingleMessage (folder : String) (uid : Nat) : Option CachedMessage := db.message? folder uid

/-- The cached body if `body_cached = 1`. -/
def getCachedBody (folder : String) (uid : Nat) : Option CachedBody :=
  (db.message? folder uid).bind CachedMessage.body

/-- All (uid, flags) pairs of a folder, for reconciliation. -/
def getAllUidsAndFlags (folder : String) : List (Nat × String) :=
  (db.rowsOf folder).map (fun r => (r.uid,r.flags))

/-- All cached messages with `uid > min_uid` in a folder, ascending. -/
def getMessagesAfterUid (folder : String) (minUid : Nat) : List CachedMessage :=
  ((db.rowsOf folder).filter (fun r => minUid < r.uid)).insertionSort (fun r s => r.uid ≤ s.uid)

/-- (folder, uid) of messages without a cached body, most recent first, at most `limit`. -/
def getUnindexedMessages (limit : Nat) : List (String × Nat) :=
  (((db.messages.rows.filter (fun r => r.body.isNone)).insertionSort
    (fun r s => s.dateEpoch ≤ r.dateEpoch)).map (fun r => (r.folder,r.uid))).take limit

/-! ### What the statements do -/

variable {db : Db} {f g : String} {u v : Nat}

@[simp] theorem folder?_deleteMessagesWhere (p : CachedMessage → Bool) :
    (db.deleteMessagesWhere p).folder? f = db.folder? f := rfl

@[simp] theorem message?_deleteMessagesWhere (p : CachedMessage → Bool) :
    (db.deleteMessagesWhere p).message? f u = (db.message? f u).filter (fun r => !p r) :=
  Table.find?_deleteWhere _ _ _

@[simp] theorem folder?_updateMessagesWhere (p : CachedMessage → Bool) (k : CachedMessage → CachedMessage)
    (hk : ∀ r, (k r).key = r.key) :
    (db.updateMessagesWhere p k hk).folder? f = db.folder? f := rfl

@[simp] theorem message?_updateMessagesWhere (p : CachedMessage → Bool) (k : CachedMessage → CachedMessage)
    (hk : ∀ r, (k r).key = r.key) :
    (db.updateMessagesWhere p k hk).message? f u =
      (db.message? f u).map (fun r => if p r then k r else r) :=
  Table.find?_updateWhere _ _ _ hk _

@[simp] theorem folder?_deleteFolderMessages :
    (db.deleteFolderMessages g).folder? f = db.folder? f := rfl

theorem message?_deleteFolderMessages :
    (db.deleteFolderMessages g).message? f u = if f = g then none else db.message? f u := by
  rw [deleteFolderMessages,message?_deleteMessagesWhere]
  cases h : db.message? f u with
  | none => simp
  | some r =>
    have hf : r.folder = f := (message?_eq_some.mp h).2.2
    by_cases hg : f = g <;> simp [Option.filter,hf,hg]

@[simp] theorem folder?_deleteMessage : (db.deleteMessage g v).folder? f = db.folder? f := rfl

theorem message?_deleteMessage :
    (db.deleteMessage g v).message? f u = if f = g ∧ u = v then none else db.message? f u := by
  rw [deleteMessage,message?_deleteMessagesWhere]
  cases h : db.message? f u with
  | none => simp
  | some r =>
    obtain ⟨-,hu,hf⟩ := message?_eq_some.mp h
    by_cases hg : f = g <;> by_cases hv : u = v <;> simp [Option.filter,hf,hu,hg,hv]

theorem deleteMessage_of_none (h : db.message? f u = none) : db.deleteMessage f u = db := by
  have hrows : db.messages.deleteWhere (fun r => r.folder = f && r.uid = u) = db.messages := by
    refine Table.deleteWhere_of_forall (fun r hr => ?_)
    have hkey := Table.find?_eq_none.mp h r hr
    simp only [CachedMessage.key,ne_eq,Prod.mk.injEq,not_and] at hkey
    by_cases hf : r.folder = f
    · have hu : r.uid ≠ u := fun hu => hkey hu hf
      simp [hu]
    · simp [hf]
  obtain ⟨now,deepIndex,rules,vacation,replies,tags,folders,messages,fk⟩ := db
  simp only [deleteMessage,deleteMessagesWhere,mk.injEq,true_and]
  exact hrows

@[simp] theorem folder?_updateMessageFlags (csv : String) :
    (db.updateMessageFlags g v csv).folder? f = db.folder? f := rfl

theorem message?_updateMessageFlags (csv : String) :
    (db.updateMessageFlags g v csv).message? f u =
      (db.message? f u).map (fun r => if f = g ∧ u = v then r.setFlags csv else r) := by
  rw [updateMessageFlags,message?_updateMessagesWhere]
  cases h : db.message? f u with
  | none => rfl
  | some r =>
    obtain ⟨-,hu,hf⟩ := message?_eq_some.mp h
    simp [hu,hf]

@[simp] theorem folder?_cacheMessageBody (body : CachedBody) :
    (db.cacheMessageBody g v body).folder? f = db.folder? f := rfl

theorem message?_cacheMessageBody (body : CachedBody) :
    (db.cacheMessageBody g v body).message? f u =
      (db.message? f u).map (fun r => if f = g ∧ u = v then r.setBody body else r) := by
  rw [cacheMessageBody,message?_updateMessagesWhere]
  cases h : db.message? f u with
  | none => rfl
  | some r =>
    obtain ⟨-,hu,hf⟩ := message?_eq_some.mp h
    simp [hu,hf]

/-- Storing a header succeeds exactly where the folder has a row. -/
theorem upsertMessage_isSome (p : UpsertMessageParams) :
    (db.upsertMessage g v p).isSome ↔ (db.folder? g).isSome := by
  unfold upsertMessage
  have hiff : (∃ f ∈ db.folders.rows, f.name = g) ↔ (db.folder? g).isSome := by
    rw [Option.isSome_iff_exists]
    simp only [folder?,Table.find?_eq_some]
  split
  · next h => simpa using hiff.mp h
  · next h => simpa using fun hs => h (hiff.mpr hs)

theorem upsertMessage_spec {p : UpsertMessageParams} {db' : Db}
    (h : db.upsertMessage g v p = some db') :
    (∀ f, db'.folder? f = db.folder? f) ∧
      (∀ f u, db'.message? f u = if f = g ∧ u = v then some (p.row g v) else db.message? f u) ∧
      db'.now = db.now ∧ db'.deepIndex = db.deepIndex := by
  unfold upsertMessage at h
  split at h
  · rw [Option.some.injEq] at h
    subst h
    refine ⟨fun _ => rfl,fun f u => ?_,rfl,rfl⟩
    simp only [message?,Table.find?_insertOrReplace,CachedMessage.key,UpsertMessageParams.row,
      Prod.mk.injEq]
    by_cases hf : f = g <;> by_cases hu : u = v <;> simp [hf,hu]
  · simp at h

theorem countMessages_eq_card : db.countMessages f = (db.uids f).card := card_uids.symm

private theorem foldr_max_mem_or (l : List Nat) : l.foldr max 0 ∈ l ∨ l.foldr max 0 = 0 := by
  induction l with
  | nil => exact Or.inr rfl
  | cons a l ih =>
    rw [List.foldr_cons]
    rcases Nat.le_total a (l.foldr max 0) with h | h
    · rw [Nat.max_eq_right h]
      exact ih.imp (List.mem_cons_of_mem _) id
    · rw [Nat.max_eq_left h]
      exact Or.inl List.mem_cons_self

private theorem le_foldr_max {l : List Nat} {a : Nat} (h : a ∈ l) : a ≤ l.foldr max 0 := by
  induction l with
  | nil => simp at h
  | cons b l ih =>
    rw [List.foldr_cons]
    rcases List.mem_cons.mp h with rfl | h
    · exact Nat.le_max_left _ _
    · exact Nat.le_trans (ih h) (Nat.le_max_right _ _)

theorem le_maxUid (h : u ∈ db.uids f) : u ≤ db.maxUid f :=
  le_foldr_max (List.mem_toFinset.mp h)

theorem maxUid_mem (h : (db.uids f).Nonempty) : db.maxUid f ∈ db.uids f := by
  rcases foldr_max_mem_or ((db.rowsOf f).map CachedMessage.uid) with hm | h0
  · exact List.mem_toFinset.mpr hm
  · obtain ⟨u,hu⟩ := h
    have hz : u = 0 := Nat.le_zero.mp (h0 ▸ le_maxUid hu)
    have hmax : db.maxUid f = 0 := h0
    rw [hmax,← hz]
    exact hu

/-- The watermark bound: above the maximal UID is above every cached UID. -/
theorem maxUid_lt_iff (h : (db.uids f).Nonempty) : db.maxUid f < u ↔ ∀ k ∈ db.uids f, k < u :=
  ⟨fun hm _ hk => Nat.lt_of_le_of_lt (le_maxUid hk) hm,fun hk => hk _ (maxUid_mem h)⟩

theorem maxUid_of_empty (h : db.uids f = ∅) : db.maxUid f = 0 := by
  have hr : (db.rowsOf f).map CachedMessage.uid = [] := List.toFinset_eq_empty_iff _ |>.mp h
  rw [maxUid,hr]
  rfl

end Db

end Rav
