import Rav.Drafts.Task

/-!
# `routes::drafts` and `routes::attachments`

The handlers that save and discard a draft and that add and remove its attachments. Saving
replaces the copy in the Drafts mailbox: it expunges the old one, builds and appends the new one
and records its UID. What fails on the way is logged, and the answer is `saved`.

## Main definitions

- `saveDraftLocked`, `deleteDraftLocked`
- `addDraftAttachment`, `uploadAttachment`, `deleteAttachment`
-/

namespace Rav

/-- The `Message-ID` a draft's copy carries. -/
def draftMessageId (uuid : String) : String := "<" ++ uuid ++ "@draft>"

/-- The UID on record for the draft; a row that cannot be read counts as none. -/
def recordedUid (uuid : String) : MailTask (Option Nat) := do
  let r : Except String (Option DraftStaging) ← mailCall (.getStaging uuid)
  pure (r.toOption.join.bind DraftStaging.imapUid)

/-- The cached folder with the attribute, or the default name. -/
def folderWith (attr name : String) : MailTask String := do
  let r : Except String (Option String) ← mailCall (.findFolderByAttribute attr)
  pure (r.toOption.join.getD name)

/-! ### Saving -/

/-- Expunge a copy whose UID is on record; a failure is logged. -/
def expungeCopy (draftsFolder : String) : Option Nat → MailTask Unit
  | none => pure ()
  | some uid => do
    let _ ← mailCall (.expunge draftsFolder uid)
    pure ()

/-- Build and append the new copy; the UID the server gave it. -/
def appendDraft (env : MailEnv) (draftsFolder uuid : String) (req : SaveDraftRequest) :
    MailTask (Option Nat) := do
  match env.buildDraft req env.email (draftMessageId uuid) with
  | .error _ => pure none
  | .ok bytes => do
    let r : Except String (Option Nat) ←
      mailCall (.append draftsFolder bytes (draftMessageId uuid) true)
    pure r.toOption.join

/-- Store the mapping, so that the next save can expunge the right UID, and update the badge. -/
def storeMapping (draftsFolder uuid : String) (req : SaveDraftRequest)
    (existingUid newUid : Option Nat) : MailTask Unit := do
  let _ ← mailCall (.upsertStaging uuid newUid req.inReplyTo)
  let r : Except String Nat ← mailCall (.countThreads draftsFolder)
  let threadCount := r.toOption.getD 0
  let adjusted := if existingUid.isNone && newUid.isSome then threadCount + 1 else threadCount
  let _ ← mailCall (.setFolderTotalCount draftsFolder adjusted)
  let _ ← mailCall (.invalidateFolderFreshness draftsFolder)
  pure ()

def recordDraft (draftsFolder uuid : String) (req : SaveDraftRequest)
    (existingUid newUid : Option Nat) : MailTask Unit := do
  match ← mailCall (.withUserDb 1) with
  | .error (_ : String) => pure ()
  | .ok () => storeMapping draftsFolder uuid req existingUid newUid

/-- Replace the copy, once the previous UID and the folder are known. -/
def replaceDraft (env : MailEnv) (uuid : String) (req : SaveDraftRequest)
    (existingUid : Option Nat) (draftsFolder : String) : MailTask (Except AppError String) := do
  expungeCopy draftsFolder existingUid
  let newUid ← appendDraft env draftsFolder uuid req
  recordDraft draftsFolder uuid req existingUid newUid
  pure (.ok "saved")

/-- `POST /api/drafts/{uuid}`, under the draft's lock. -/
def saveDraftLocked (env : MailEnv) (uuid : String) (req : SaveDraftRequest) :
    MailTask (Except AppError String) := do
  match env.imapHost with
  | none => pure (.error (.internalError "IMAP not configured"))
  | some _ =>
    match ← mailCall (.withUserDb 0) with
    | .error (e : String) => pure (.error (.internalError e))
    | .ok () => do
      let existingUid ← recordedUid uuid
      let draftsFolder ← folderWith "\\Drafts" "Drafts"
      replaceDraft env uuid req existingUid draftsFolder

/-! ### Discarding -/

/-- Have the folder resynced. -/
def touchFolder (nth : Nat) (folder : String) : MailTask Unit := do
  match ← mailCall (.withUserDb nth) with
  | .error (_ : String) => pure ()
  | .ok () => do
    let _ ← mailCall (.invalidateFolderFreshness folder)
    pure ()

/-- Expunge the copy of a discarded draft from the Drafts folder. -/
def expungeStaged (uid : Nat) : MailTask (Except AppError Unit) := do
  match ← mailCall (.withUserDb 1) with
  | .error (e : String) => pure (.error (.internalError e))
  | .ok () => do
    let draftsFolder ← folderWith "\\Drafts" "Drafts"
    expungeCopy draftsFolder (some uid)
    touchFolder 2 draftsFolder
    pure (.ok ())

/-- Expunge the copy of a discarded draft if there is one and a server to ask. -/
def expungeDiscarded (env : MailEnv) (imapUid : Option Nat) : MailTask (Except AppError Unit) :=
  match imapUid, env.imapHost with
  | some uid, some _ => expungeStaged uid
  | _, _ => pure (.ok ())

/-- The rest of a discard, once the UID is known and the row is gone. -/
def discardCopy (env : MailEnv) (uuid : String) (imapUid : Option Nat) :
    MailTask (Except AppError String) := do
  match ← expungeDiscarded env imapUid with
  | .error (e : AppError) => pure (.error e)
  | .ok () => do
    let _ ← mailCall (.removeDirAll (env.attDir uuid))
    pure (.ok "deleted")

/-- Delete the row, whose UID is known. -/
def discardRow (env : MailEnv) (uuid : String) (imapUid : Option Nat) :
    MailTask (Except AppError String) := do
  match ← mailCall (.deleteStaging uuid) with
  | .error (e : String) => pure (.error (.internalError e))
  | .ok (_ : Bool) => discardCopy env uuid imapUid

/-- Read the UID and delete the row. -/
def discardStaged (env : MailEnv) (uuid : String) : MailTask (Except AppError String) := do
  let imapUid ← recordedUid uuid
  discardRow env uuid imapUid

/-- `DELETE /api/drafts/{uuid}`, under the draft's lock. -/
def deleteDraftLocked (env : MailEnv) (uuid : String) : MailTask (Except AppError String) := do
  match ← mailCall (.withUserDb 0) with
  | .error (e : String) => pure (.error (.internalError e))
  | .ok () => discardStaged env uuid

/-! ### Attachments -/

/-- A file of a multipart upload. -/
structure UploadedFile where
  filename : String
  contentType : String
  data : List UInt8

/-- A file written to disk. -/
structure SavedFile where
  id : String
  filename : String
  contentType : String
  size : Nat
  filePath : String

def maxAttachmentSize : Nat := 25 * 1024 * 1024

/-- Add an attachment record; the staging row is made sure of first, so that the foreign key does
not fail. -/
def addDraftAttachment (uuid : String) (f : SavedFile) : MailTask (Except String Unit) := do
  match ← mailCall (.upsertStaging uuid none none) with
  | .error (e : String) => pure (.error e)
  | .ok () => mailCall (.insertAttachment f.id uuid f.filename f.contentType f.size f.filePath)

def addDraftAttachments (uuid : String) : List SavedFile → MailTask (Except String Unit)
  | [] => pure (.ok ())
  | f :: fs => do
    match ← addDraftAttachment uuid f with
    | .error (e : String) => pure (.error e)
    | .ok () => addDraftAttachments uuid fs

/-- Write the `n`-th file of an upload to disk, unless it is too large. -/
def saveFile (env : MailEnv) (uuid : String) (n : Nat) (f : UploadedFile) :
    MailTask (Except AppError SavedFile) :=
  if f.data.length > maxAttachmentSize then
    pure (.error (.badRequest ("File '" ++ f.filename ++ "' exceeds maximum size of 25 MB")))
  else do
    let id : String ← mailCall (.drawUuid n)
    let path := env.attDir uuid ++ "/" ++ id
    let r : Except String Unit ← mailCall (.writeFile path f.data)
    pure ((r.mapError (fun e => .internalError ("Failed to write attachment: " ++ e))).map
      (fun _ => ⟨id,f.filename,f.contentType,f.data.length,path⟩))

/-- Write the fields of an upload to disk, the `n`-th first; a field that cannot be read or saved
ends the request. -/
def saveFiles (env : MailEnv) (uuid : String) :
    Nat → List (Except String UploadedFile) → MailTask (Except AppError (List SavedFile))
  | _, [] => pure (.ok [])
  | _, .error e :: _ => pure (.error (.badRequest e))
  | n, .ok f :: fields => do
    match ← saveFile env uuid n f with
    | .error (e : AppError) => pure (.error e)
    | .ok (s : SavedFile) => do
      let rest ← saveFiles env uuid (n + 1) fields
      pure (rest.map (s :: ·))

/-- Add the records of files on disk. -/
def recordFiles (uuid : String) (saved : List SavedFile) :
    MailTask (Except AppError (List SavedFile)) := do
  match ← mailCall (.withUserDb 0) with
  | .error (e : String) => pure (.error (.internalError e))
  | .ok () => do
    let r ← addDraftAttachments uuid saved
    pure ((r.mapError .internalError).map (fun _ => saved))

/-- `POST /api/drafts/{draft_uuid}/attachments`. -/
def uploadAttachment (env : MailEnv) (uuid : String) (fields : List (Except String UploadedFile)) :
    MailTask (Except AppError (List SavedFile)) := do
  match ← saveFiles env uuid 0 fields with
  | .error (e : AppError) => pure (.error e)
  | .ok (saved : List SavedFile) =>
    if saved.isEmpty then pure (.error (.badRequest "No files uploaded"))
    else recordFiles uuid saved

/-- Remove the file of an attachment that has been looked up, and its record. -/
def removeAttachment (attachmentId : String) :
    Option DraftAttachment → MailTask (Except AppError String)
  | none => pure (.error (.notFound "Attachment not found"))
  | some a => do
    let _ ← mailCall (.removeFile a.filePath)
    match ← mailCall (.withUserDb 1) with
    | .error (e : String) => pure (.error (.internalError e))
    | .ok () =>
      match ← mailCall (.deleteDraftAttachment attachmentId) with
      | .error (e : String) => pure (.error (.internalError e))
      | .ok _ => pure (.ok "deleted")

/-- `DELETE /api/drafts/{draft_id}/attachments/{attachment_id}`. -/
def deleteAttachment (uuid attachmentId : String) : MailTask (Except AppError String) := do
  match ← mailCall (.withUserDb 0) with
  | .error (e : String) => pure (.error (.internalError e))
  | .ok () =>
    match ← mailCall (.getDraftAttachments uuid) with
    | .error (e : String) => pure (.error (.internalError e))
    | .ok (attachments : List DraftAttachment) =>
      removeAttachment attachmentId (attachments.find? (fun a => a.id = attachmentId))

end Rav
