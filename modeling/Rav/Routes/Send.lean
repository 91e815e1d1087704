import Rav.Routes.Drafts

/-!
# `routes::send` and `POST /api/outbox`

Sending a message, at once or through the queue: the attachments of its draft are loaded, it is
handed to SMTP, wrapped in PGP/MIME if it has PGP parameters, a copy is appended to the Sent
folder, and its draft is cleaned up.

## Main definitions

- `SendRequest`, `validateSendRequest`
- `Delivery.SendJob`, `Delivery.performSend`, `Delivery.cleanupDraft`
- `sendMessageHandler`, `enqueueHandler`
-/

namespace Rav

structure SendRequest where
  to_ : List String
  cc : List String
  bcc : List String
  subject : String
  textBody : Option String
  htmlBody : Option String
  inReplyTo : Option String
  references : Option String
  draftId : Option String
  fromIdentityId : Option Int
  pgp : Option PgpSendRequest
  deriving DecidableEq, Repr

/-- Validate recipients and subject/body presence. -/
def validateSendRequest (req : SendRequest) : Except AppError Unit :=
  if req.to_.isEmpty && req.cc.isEmpty && req.bcc.isEmpty then
    .error (.badRequest "At least one recipient is required")
  else if (strTrim req.subject).isEmpty && req.textBody.all (fun t => (strTrim t).isEmpty) &&
      req.htmlBody.all (fun t => (strTrim t).isEmpty) then
    .error (.badRequest "Subject or body is required")
  else .ok ()

namespace Delivery

/-- Fully-resolved send job. -/
structure SendJob where
  to_ : List String
  cc : List String
  bcc : List String
  subject : String
  textBody : String
  htmlBody : Option String
  inReplyTo : Option String
  references : Option String
  draftId : Option String
  fromIdentityId : Option Int
  pgp : Option PgpSendParams
  deriving DecidableEq, Repr

/-- The From address of an identity (display name, address). -/
def identityAddress (identity : String × String) : String :=
  if identity.1.isEmpty then identity.2 else "\"" ++ identity.1 ++ "\" <" ++ identity.2 ++ ">"

/-- The From address of an identity that has been looked up. -/
def senderFound : Option (String × String) → Except AppError String
  | none => .error (.notFound "Identity not found")
  | some identity => .ok (identityAddress identity)

/-- Look up an identity. -/
def lookUpSender (identityId : Int) : MailTask (Except AppError String) := do
  match ← mailCall (.getIdentity identityId) with
  | .error (e : String) => pure (.error (.internalError e))
  | .ok (identity : Option (String × String)) => pure (senderFound identity)

/-- Resolve the From address: the identity if there is one, else the session's address. -/
def fromAddress (env : MailEnv) : Option Int → MailTask (Except AppError String)
  | none => pure (.ok env.email)
  | some identityId => do
    match ← mailCall (.withUserDb 10) with
    | .error (e : String) => pure (.error (.internalError e))
    | .ok () => lookUpSender identityId

/-- Read the file of an attachment from disk. -/
def readAttachment (att : DraftAttachment) : MailTask (Except AppError AttachmentData) := do
  match ← mailCall (.readFile att.filePath) with
  | .error (e : String) =>
    pure (.error (.internalError
      ("Failed to read attachment file '" ++ att.filename ++ "': " ++ e)))
  | .ok (data : List UInt8) => pure (.ok ⟨att.filename,att.contentType,data,some att.id⟩)

/-- Read the files of attachments in their order. -/
def readAttachments : List DraftAttachment → MailTask (Except AppError (List AttachmentData))
  | [] => pure (.ok [])
  | att :: rest => do
    match ← readAttachment att with
    | .error (e : AppError) => pure (.error e)
    | .ok (data : AttachmentData) => do
      let read ← readAttachments rest
      pure (read.map (data :: ·))

/-- List the attachments of a draft and read their files. -/
def listAndRead (draftId : String) : MailTask (Except AppError (List AttachmentData)) := do
  match ← mailCall (.getDraftAttachments draftId) with
  | .error (e : String) => pure (.error (.internalError e))
  | .ok (attachments : List DraftAttachment) => readAttachments attachments

/-- Load attachment data from disk for a given draft. -/
def loadDraftAttachments (draftId : String) : MailTask (Except AppError (List AttachmentData)) := do
  match ← mailCall (.withUserDb 11) with
  | .error (e : String) => pure (.error (.internalError e))
  | .ok () => listAndRead draftId

/-- The attachments of the draft of a job; none without a draft. -/
def jobAttachments : Option String → MailTask (Except AppError (List AttachmentData))
  | none => pure (.ok [])
  | some draftId => loadDraftAttachments draftId

/-- The bytes of a message that has been built, wrapped if it has PGP parameters. -/
def wireBytes (nth : Nat) (inner : List UInt8) :
    Option PgpSendParams → MailTask (Except String (List UInt8))
  | none => pure (.ok inner)
  | some pgp => do
    let id : String ← mailCall (.drawUuid nth)
    let wrapped := wrapPgpMime ("----pgpboundary" ++ id) inner pgp
    pure (wrapped.map (fun s => s.toUTF8.data.toList))

/-- Generate a unique Message-ID. -/
def drawMessageId (host : String) : MailTask String := do
  let a : String ← mailCall (.drawUuid 0)
  let b : String ← mailCall (.drawUuid 1)
  pure ("<" ++ a ++ "." ++ b ++ "@" ++ host ++ ">")

/-- Build the message under a Message-ID and hand it to SMTP. -/
def submitAs (env : MailEnv) (message : Smtp.SendableMessage) (messageId : String) :
    MailTask (Except String Unit) := do
  match env.buildMessage message messageId with
  | .error e => pure (.error ("Send failed: " ++ e))
  | .ok inner =>
    match ← wireBytes 2 inner message.pgp with
    | .error (e : String) => pure (.error ("Send failed: " ++ e))
    | .ok (bytes : List UInt8) => mailCall (.submit message bytes)

/-- `send_message` of the SMTP client; the Message-ID. -/
def sendMessage (env : MailEnv) (host : String) (message : Smtp.SendableMessage) :
    MailTask (Except String String) := do
  let messageId ← drawMessageId host
  match ← submitAs env message messageId with
  | .error (e : String) => pure (.error e)
  | .ok () => pure (.ok messageId)

/-- Look up the folder of sent mail; it is `Sent` where that fails. -/
def sentFolderName : MailTask String := do
  match ← mailCall (.withUserDb 12) with
  | .error (_ : String) => pure "Sent"
  | .ok () => folderWith "\\Sent" "Sent"

/-- Append a copy to the Sent folder; failing does not fail the send. -/
def appendSent (env : MailEnv) (message : Smtp.SendableMessage) (messageId : String) :
    MailTask Unit := do
  match env.imapHost with
  | none => pure ()
  | some _ =>
    match env.buildCopy message messageId with
    | .error _ => pure ()
    | .ok inner =>
      match ← wireBytes 3 inner message.pgp with
      | .error (_ : String) => pure ()
      | .ok (bytes : List UInt8) => do
        let sentFolder ← sentFolderName
        match ← mailCall (.append sentFolder bytes messageId false) with
        | .error (_ : String) => pure ()
        | .ok (_ : Option Nat) => touchFolder 13 sentFolder

/-- Delete the staging row and the attachment files. -/
def forgetDraft (env : MailEnv) (draftId : String) : MailTask Unit := do
  match ← mailCall (.withUserDb 15) with
  | .error (_ : String) => pure ()
  | .ok () => do
    let _ ← mailCall (.deleteStaging draftId)
    pure ()
  let _ ← mailCall (.removeDirAll (env.attDir draftId))
  pure ()

/-- Expunge the copy before deleting the staging record. -/
def cleanupFound (env : MailEnv) (draftId : String) (imapUid : Option Nat)
    (draftsFolder : String) : MailTask Unit := do
  if env.imapHost.isSome then expungeCopy draftsFolder imapUid else pure ()
  forgetDraft env draftId

/-- Read the UID and the folder, and clean up. -/
def cleanupStaged (env : MailEnv) (draftId : String) : MailTask Unit := do
  let imapUid ← recordedUid draftId
  let draftsFolder ← folderWith "\\Drafts" "Drafts"
  cleanupFound env draftId imapUid draftsFolder

/-- Clean up draft record and attachment files from disk after successful send. -/
def cleanupDraft (env : MailEnv) (draftId : String) : MailTask Unit := do
  match ← mailCall (.withUserDb 14) with
  | .error (_ : String) => pure ()
  | .ok () => cleanupStaged env draftId

def cleanupJob (env : MailEnv) : Option String → MailTask Unit
  | none => pure ()
  | some draftId => cleanupDraft env draftId

/-- The message of a job. -/
def SendJob.message (job : SendJob) (from_ : String) (attachments : List AttachmentData) :
    Smtp.SendableMessage where
  from_ := from_
  to_ := job.to_
  cc := job.cc
  bcc := job.bcc
  subject := job.subject
  textBody := job.textBody
  htmlBody := job.htmlBody
  inReplyTo := job.inReplyTo
  references := job.references
  attachments := attachments
  pgp := job.pgp

/-- What `performSend` does with a message: hand it to SMTP, and once it is accepted file the copy
and clean up. -/
def sendPrepared (env : MailEnv) (host : String) (job : SendJob) (message : Smtp.SendableMessage) :
    MailTask (Except AppError String) := do
  match ← sendMessage env host message with
  | .error (e : String) => pure (.error (.serviceUnavailable ("Failed to send email: " ++ e)))
  | .ok (messageId : String) => do
    appendSent env message messageId
    cleanupJob env job.draftId
    pure (.ok messageId)

/-- Build the message, send it over SMTP, append a copy to the Sent folder and clean up the
draft. -/
def performSend (env : MailEnv) (job : SendJob) : MailTask (Except AppError String) := do
  match env.smtpHost with
  | none => pure (.error (.serviceUnavailable "SMTP server not configured"))
  | some host =>
    match ← fromAddress env job.fromIdentityId with
    | .error (e : AppError) => pure (.error e)
    | .ok (from_ : String) =>
      match ← jobAttachments job.draftId with
      | .error (e : AppError) => pure (.error e)
      | .ok (attachments : List AttachmentData) =>
        sendPrepared env host job (job.message from_ attachments)

end Delivery

/-- The PGP parameters of a request. -/
def requestPgp : Option PgpSendRequest → Except AppError (Option PgpSendParams)
  | none => .ok none
  | some pgp => (resolvePgpParams pgp).map some

def SendRequest.job (req : SendRequest) (pgp : Option PgpSendParams) : Delivery.SendJob where
  to_ := req.to_
  cc := req.cc
  bcc := req.bcc
  subject := req.subject
  textBody := req.textBody.getD ""
  htmlBody := req.htmlBody
  inReplyTo := req.inReplyTo
  references := req.references
  draftId := req.draftId
  fromIdentityId := req.fromIdentityId
  pgp := pgp

/-- `POST /api/messages/send`. -/
def sendMessageHandler (env : MailEnv) (req : SendRequest) : MailTask (Except AppError String) :=
  match validateSendRequest req, requestPgp req.pgp with
  | .error e, _ => pure (.error e)
  | .ok (), .error e => pure (.error e)
  | .ok (), .ok pgp => Delivery.performSend env (req.job pgp)

def SendRequest.entry (req : SendRequest) (id : String) (pgpJson : Option String)
    (sendAfter : Nat) : NewOutboxEntry where
  id := id
  draftId := req.draftId
  toAddrs := req.to_
  ccAddrs := req.cc
  bccAddrs := req.bcc
  subject := req.subject
  textBody := req.textBody.getD ""
  htmlBody := req.htmlBody
  inReplyTo := req.inReplyTo
  referencesHdr := req.references
  fromIdentityId := req.fromIdentityId
  pgpJson := pgpJson
  sendAfter := sendAfter

/-- Store an entry that is due after the user's undo-send delay. -/
def storeEntry (req : SendRequest) (pgpJson : Option String) (now : Nat) :
    MailTask (Except AppError String) := do
  match ← mailCall (.withUserDb 0) with
  | .error (e : String) => pure (.error (.internalError e))
  | .ok () =>
    match ← mailCall .undoSendDelay with
    | .error (e : String) => pure (.error (.internalError e))
    | .ok (delay : Int) => do
      let id : String ← mailCall (.drawUuid 0)
      match ← mailCall (.enqueue (req.entry id pgpJson (now + delay.toNat))) with
      | .error (e : String) => pure (.error (.internalError e))
      | .ok () => pure (.ok id)

/-- `POST /api/outbox`: queue a message for sending after the undo-send delay. -/
def enqueueHandler (env : MailEnv) (req : SendRequest) (now : Nat) :
    MailTask (Except AppError String) :=
  match validateSendRequest req, env.smtpHost, requestPgp req.pgp with
  | .error e, _, _ => pure (.error e)
  | .ok (), none, _ => pure (.error (.serviceUnavailable "SMTP server not configured"))
  | .ok (), some _, .error e => pure (.error e)
  | .ok (), some _, .ok pgp => storeEntry req (pgp.map env.pgpToJson) now

end Rav
