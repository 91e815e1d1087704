import Rav.Prog
import Rav.Db.Drafts
import Rav.Db.Folders
import Rav.Db.Outbox
import Rav.Smtp.Pgp

/-!
# Requests that deal with drafts

Requests and send attempts as programs whose calls are single statements, single IMAP commands,
file operations and submissions to SMTP. Building a message and serialising JSON are parameters.
A command to the IMAP server may be refused, and its answer may get lost once it has been carried
out.

## Main definitions

- `MailEnv` — the configuration and the libraries
- `MailCall`, `MailTask` — the calls, and programs making them
- `MailWorld`, `MailOutcome`, `serveMail` — the state, its disturbances, the answer to one call
-/

namespace Rav

structure SaveDraftRequest where
  to_ : String
  cc : String
  bcc : String
  subject : String
  textBody : String
  htmlBody : Option String
  inReplyTo : Option String
  references : Option String
  deriving DecidableEq, Repr

/-- A single file attachment to include in an outgoing message. -/
structure AttachmentData where
  filename : String
  contentType : String
  data : List UInt8
  contentId : Option String
  deriving DecidableEq, Repr

/-- A message ready to be sent via SMTP. -/
structure Smtp.SendableMessage where
  from_ : String
  to_ : List String
  cc : List String
  bcc : List String
  subject : String
  textBody : String
  htmlBody : Option String
  inReplyTo : Option String
  references : Option String
  attachments : List AttachmentData
  pgp : Option PgpSendParams
  deriving DecidableEq, Repr

/-- The configuration of the session, and the libraries. -/
structure MailEnv where
  imapHost : Option String
  smtpHost : Option String
  email : String
  /-- The attachment directory of a draft. -/
  attDir : String → String
  /-- `build_draft_rfc822`, by `lettre`, of a request, a sender and a Message-ID. -/
  buildDraft : SaveDraftRequest → String → String → Except String (List UInt8)
  /-- The message `lettre` makes for SMTP under a Message-ID. -/
  buildMessage : Smtp.SendableMessage → String → Except String (List UInt8)
  /-- The message `lettre` makes for the Sent folder. -/
  buildCopy : Smtp.SendableMessage → String → Except String (List UInt8)
  /-- `serde_json::to_string` and `serde_json::from_str`. -/
  pgpToJson : PgpSendParams → String
  pgpFromJson : String → Option PgpSendParams

/-- The calls. A request counts its uses of the connection pool and the ids it draws. -/
inductive MailCall
  | withUserDb (nth : Nat)
  | getStaging (uuid : String)
  | upsertStaging (uuid : String) (imapUid : Option Nat) (replyMessageId : Option String)
  | deleteStaging (uuid : String)
  | insertAttachment (id draftUuid filename contentType : String) (size : Nat) (filePath : String)
  | getDraftAttachments (uuid : String)
  | deleteDraftAttachment (id : String)
  | findFolderByAttribute (attr : String)
  | countThreads (folder : String)
  | setFolderTotalCount (folder : String) (count : Nat)
  | invalidateFolderFreshness (folder : String)
  | getIdentity (id : Int)
  | undoSendDelay
  | enqueue (e : NewOutboxEntry)
  | markSending (id : String)
  | markRetry (id : String) (delay : Nat) (reason : String)
  | markFailed (id : String) (reason : String)
  | deleteEntry (id : String)
  | expunge (folder : String) (uid : Nat)
  | append (folder : String) (bytes : List UInt8) (messageId : String) (search : Bool)
  | drawUuid (nth : Nat)
  | writeFile (path : String) (data : List UInt8)
  | readFile (path : String)
  | removeFile (path : String)
  | removeDirAll (dir : String)
  | submit (message : Smtp.SendableMessage) (bytes : List UInt8)

def MailCall.Answer : MailCall → Type
  | .withUserDb _ => Except String Unit
  | .getStaging _ => Except String (Option DraftStaging)
  | .upsertStaging _ _ _ => Except String Unit
  | .deleteStaging _ => Except String Bool
  | .insertAttachment _ _ _ _ _ _ => Except String Unit
  | .getDraftAttachments _ => Except String (List DraftAttachment)
  | .deleteDraftAttachment _ => Except String Bool
  | .findFolderByAttribute _ => Except String (Option String)
  | .countThreads _ => Except String Nat
  | .setFolderTotalCount _ _ => Except String Unit
  | .invalidateFolderFreshness _ => Except String Unit
  | .getIdentity _ => Except String (Option (String × String))
  | .undoSendDelay => Except String Int
  | .enqueue _ => Except String Unit
  | .markSending _ => Except String Unit
  | .markRetry _ _ _ => Except String Unit
  | .markFailed _ _ => Except String Unit
  | .deleteEntry _ => Except String Bool
  | .expunge _ _ => Except String Unit
  | .append _ _ _ _ => Except String (Option Nat)
  | .drawUuid _ => String
  | .writeFile _ _ => Except String Unit
  | .readFile _ => Except String (List UInt8)
  | .removeFile _ => Except String Unit
  | .removeDirAll _ => Except String Unit
  | .submit _ _ => Except String Unit

abbrev MailTask := Prog MailCall MailCall.Answer

def mailCall (c : MailCall) : MailTask c.Answer := Prog.perform (R := MailCall.Answer) c

/-! ### Folders of the IMAP server -/

/-- A message in a folder of the server. -/
structure MailCopy where
  uid : Nat
  messageId : String
  bytes : List UInt8
  deriving DecidableEq, Repr

/-- A folder of the server; UIDs ascend and are not used twice. -/
structure MailFolder where
  messages : List MailCopy
  uidNext : Nat
  ascending : ∀ m ∈ messages, m.uid < uidNext
  nodup : (messages.map MailCopy.uid).Nodup

namespace MailFolder

variable (b : MailFolder)

def empty : MailFolder := ⟨[],1,nofun,List.nodup_nil⟩

def expunge (uid : Nat) : MailFolder where
  messages := b.messages.filter (fun m => m.uid ≠ uid)
  uidNext := b.uidNext
  ascending m hm := b.ascending m (List.mem_filter.mp hm).1
  nodup := b.nodup.sublist (List.filter_sublist.map _)

def append (bytes : List UInt8) (messageId : String) : MailFolder where
  messages := b.messages ++ [⟨b.uidNext,messageId,bytes⟩]
  uidNext := b.uidNext + 1
  ascending m hm := by
    rcases List.mem_append.mp hm with hm | hm
    · exact Nat.lt_succ_of_lt (b.ascending m hm)
    · rw [List.mem_singleton.mp hm]
      exact Nat.lt_succ_self _
  nodup := by
    rw [List.map_append]
    refine b.nodup.append (List.nodup_singleton _) ?_
    intro u hu hnext
    obtain ⟨m,hm,rfl⟩ := List.mem_map.mp hu
    exact absurd (b.ascending m hm) (Nat.not_lt.mpr (List.mem_singleton.mp hnext).ge)

/-- `UID SEARCH HEADER Message-ID`, the highest UID. -/
def search (messageId : String) : Option Nat :=
  ((b.messages.filter (fun m => likeInfix messageId m.messageId)).map MailCopy.uid).max?

end MailFolder

/-! ### The state -/

/-- A submission to SMTP: the message handed over and the bytes put on the wire. -/
structure Submission where
  message : Smtp.SendableMessage
  bytes : List UInt8
  deriving DecidableEq, Repr

/-- The drafts, the cache, the queue, the identities (id, display name, address) and a preference
of a user's database, the folders of the server, the files of attachments, the clock and what has
been submitted. -/
structure MailWorld where
  drafts : DraftDb
  cache : Db
  queue : Outbox
  identities : List (Int × String × String)
  undoSendDelay : Int
  folders : String → MailFolder
  files : List (String × List UInt8)
  now : Nat
  submissions : List Submission

/-- What becomes of a command to the IMAP server: it is carried out; it is, but the answer is an
error; it is refused. -/
inductive ImapOutcome
  | done
  | lost (e : String)
  | refused (e : String)
  deriving DecidableEq, Repr

/-- What a call meets. -/
structure MailOutcome where
  fails : Option String
  imap : ImapOutcome
  smtp : Except String Unit
  uuid : String

namespace MailOutcome

variable (o : MailOutcome) (w : MailWorld)

/-- A statement or a file operation, unless it fails. -/
def run {α : Type} (f : α × MailWorld) : Except String α × MailWorld :=
  match o.fails with
  | some e => (.error e,w)
  | none => (.ok f.1,f.2)

/-- One that has its own way to fail. -/
def runOption {α : Type} (e : String) (f : Option (α × MailWorld)) : Except String α × MailWorld :=
  match f with
  | some f => o.run w f
  | none => (.error e,w)

/-- A command to the IMAP server. -/
def command {α : Type} (f : α × MailWorld) : Except String α × MailWorld :=
  match o.imap with
  | .done => (.ok f.1,f.2)
  | .lost e => (.error e,f.2)
  | .refused e => (.error e,w)

end MailOutcome

/-- Count of the threads of a folder. -/
def Db.countThreads (db : Db) (folder : String) : Nat :=
  ((db.rowsOf folder).map (fun r => r.threadId.getD (toString r.uid))).dedup.length

/-- The first folder whose `flags` column contains the attribute. -/
def Db.findFolderByAttribute (db : Db) (attr : String) : Option String :=
  (db.folders.rows.find? (fun f => likeInfix attr f.flags)).map CachedFolder.name

namespace MailWorld

variable (w : MailWorld)

def setFolder (name : String) (b : MailFolder) : MailWorld :=
  { w with folders := Function.update w.folders name b }

def readFile (path : String) : Option (List UInt8) :=
  (w.files.find? (fun f => f.1 = path)).map Prod.snd

def writeFile (path : String) (data : List UInt8) : MailWorld :=
  { w with files := (path,data) :: w.files.filter (fun f => f.1 ≠ path) }

def removeFile (path : String) : MailWorld :=
  { w with files := w.files.filter (fun f => f.1 ≠ path) }

/-- Remove a directory and the files in it. -/
def removeDirAll (dir : String) : MailWorld :=
  { w with files := w.files.filter (fun f => !(dir ++ "/").toList.isPrefixOf f.1.toList) }

end MailWorld

/-- Answer one call. -/
def serveMail (o : MailOutcome) : (c : MailCall) → MailWorld → c.Answer × MailWorld
  | .withUserDb _, w => o.run w ((),w)
  | .getStaging uuid, w => o.run w (w.drafts.getStaging uuid,w)
  | .upsertStaging uuid imapUid reply, w =>
    o.runOption w ("Failed to upsert draft_staging: UNIQUE constraint failed: " ++
        "draft_staging.reply_message_id")
      ((w.drafts.upsertStaging uuid imapUid reply).map (fun db => ((),{ w with drafts := db })))
  | .deleteStaging uuid, w =>
    o.run w ((w.drafts.deleteStaging uuid).1,
      { w with drafts := (w.drafts.deleteStaging uuid).2 })
  | .insertAttachment id draftUuid filename contentType size filePath, w =>
    o.runOption w "Failed to add draft attachment: constraint failed"
      ((w.drafts.insertAttachment ⟨id,draftUuid,filename,contentType,size,filePath,w.now⟩).map
        (fun db => ((),{ w with drafts := db })))
  | .getDraftAttachments uuid, w => o.run w (w.drafts.getDraftAttachments uuid,w)
  | .deleteDraftAttachment id, w =>
    o.run w ((w.drafts.deleteDraftAttachment id).1,
      { w with drafts := (w.drafts.deleteDraftAttachment id).2 })
  | .findFolderByAttribute attr, w =>
    o.run w (w.cache.findFolderByAttribute attr,w)
  | .countThreads folder, w => o.run w (w.cache.countThreads folder,w)
  | .setFolderTotalCount folder count, w =>
    o.run w ((),{ w with cache := w.cache.setFolderTotalCount folder count })
  | .invalidateFolderFreshness folder, w =>
    o.run w ((),{ w with cache := w.cache.invalidateFolderFreshness folder })
  | .getIdentity id, w =>
    o.run w ((w.identities.find? (fun i => i.1 = id)).map Prod.snd,w)
  | .undoSendDelay, w => o.run w (w.undoSendDelay,w)
  | .enqueue e, w =>
    o.runOption w "Failed to enqueue outbox entry: UNIQUE constraint failed: outbox.id"
      ((w.queue.enqueue e w.now).map (fun t => ((),{ w with queue := t })))
  | .markSending id, w => o.run w ((),{ w with queue := w.queue.markSending id })
  | .markRetry id delay reason, w =>
    o.run w ((),{ w with queue := w.queue.markRetry id (w.now + delay) reason })
  | .markFailed id reason, w =>
    o.run w ((),{ w with queue := w.queue.markFailed id reason })
  | .deleteEntry id, w =>
    o.run w ((w.queue.delete id).1,{ w with queue := (w.queue.delete id).2 })
  | .expunge folder uid, w =>
    o.command w ((),w.setFolder folder ((w.folders folder).expunge uid))
  | .append folder bytes messageId search, w =>
    let b := (w.folders folder).append bytes messageId
    o.command w (if search then b.search messageId else none,w.setFolder folder b)
  | .drawUuid _, w => (o.uuid,w)
  | .writeFile path data, w => o.run w ((),w.writeFile path data)
  | .readFile path, w =>
    o.runOption w "No such file or directory (os error 2)"
      ((w.readFile path).map (fun data => (data,w)))
  | .removeFile path, w =>
    o.runOption w "No such file or directory (os error 2)"
      ((w.readFile path).map (fun _ => ((),w.removeFile path)))
  | .removeDirAll dir, w => o.run w ((),w.removeDirAll dir)
  | .submit message bytes, w =>
    (o.smtp,{ w with submissions := w.submissions ++ [⟨message,bytes⟩] })

/-- The calls of one request, with no other in between, each with an outcome of its own. -/
def MailTask.exec {α : Type} (weather : MailCall → MailOutcome) (t : MailTask α) (w : MailWorld) :
    α × MailWorld := t.run (fun c => serveMail (weather c) c) w

end Rav
