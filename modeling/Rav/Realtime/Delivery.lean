import Rav.Realtime.OutboxWorker
import Rav.Routes.Send
import Rav.Drafts.Spec

/-!
# `realtime::outbox_worker`: one attempt

An attempt of the worker at an entry, down to the statements, files and submissions it makes: the
calls each part of a send makes, whatever their answers; and what the parts before the submission
come to when nothing else happens in between.

## Main definitions

- `storedPgp` — the PGP parameters an entry has for the worker
- `Delivery.processEntry`
- `Preparing`, `Filing`, `Cleaning`, `Settling` — the calls of the parts
- `senderOf`, `attachmentsOf`, `prepared` — the message of an attempt
-/

namespace Rav

/-- The PGP parameters an entry has for the worker: none where the column does not parse. -/
def storedPgp (env : MailEnv) (entry : OutboxEntry) : Option PgpSendParams :=
  entry.pgpJson.bind env.pgpFromJson

namespace Delivery

def entryJob (env : MailEnv) (entry : OutboxEntry) : SendJob where
  to_ := entry.toAddrs
  cc := entry.ccAddrs
  bcc := entry.bccAddrs
  subject := entry.subject
  textBody := entry.textBody
  htmlBody := entry.htmlBody
  inReplyTo := entry.inReplyTo
  references := entry.referencesHdr
  draftId := entry.draftId
  fromIdentityId := entry.fromIdentityId
  pgp := storedPgp env entry

/-- The statement on the entry once its message has been sent or has failed. -/
def settleCall (entry : OutboxEntry) : Except AppError String → MailCall
  | .ok _ => .deleteEntry entry.id
  | .error e =>
    if isRetryable e ∧ entry.attemptCount + 1 < maxAttempts then
      .markRetry entry.id (backoffDuration entry.attemptCount) e.display
    else .markFailed entry.id e.display

/-- Record what became of an attempt. -/
def settleEntry (entry : OutboxEntry) (sent : Except AppError String) : MailTask Unit := do
  match ← mailCall (.withUserDb 21) with
  | .error (_ : String) => pure ()
  | .ok () => do
    let _ ← mailCall (settleCall entry sent)
    pure ()

/-- Send an entry that is marked as being sent. -/
def sendEntry (env : MailEnv) (entry : OutboxEntry) : MailTask Unit := do
  let sent ← performSend env (entryJob env entry)
  settleEntry entry sent

/-- Mark an entry and send it. -/
def markAndSend (env : MailEnv) (entry : OutboxEntry) : MailTask Unit := do
  match ← mailCall (.markSending entry.id) with
  | .error (_ : String) => pure ()
  | .ok () => sendEntry env entry

/-- One attempt to send an entry. -/
def processEntry (env : MailEnv) (entry : OutboxEntry) : MailTask Unit := do
  match ← mailCall (.withUserDb 20) with
  | .error (_ : String) => pure ()
  | .ok () => markAndSend env entry

end Delivery

/-! ### Calls -/

/-- Calls that prepare a message. -/
def Preparing : MailCall → Prop
  | .withUserDb _ => True
  | .getIdentity _ => True
  | .getDraftAttachments _ => True
  | .readFile _ => True
  | _ => False

/-- Calls that file a copy under a Message-ID in the Sent folder. -/
def Filing (messageId : String) : MailCall → Prop
  | .withUserDb _ => True
  | .drawUuid _ => True
  | .findFolderByAttribute _ => True
  | .append _ _ mid search => mid = messageId ∧ search = false
  | .invalidateFolderFreshness _ => True
  | _ => False

/-- Calls that clean up a draft. -/
def Cleaning (env : MailEnv) (uuid : String) : MailCall → Prop
  | .withUserDb _ => True
  | .getStaging k => k = uuid
  | .findFolderByAttribute _ => True
  | .expunge _ _ => True
  | .deleteStaging k => k = uuid
  | .removeDirAll dir => dir = env.attDir uuid
  | _ => False

/-- Calls that record what became of an entry. -/
def Settling : MailCall → Prop
  | .withUserDb _ => True
  | .deleteEntry _ => True
  | .markRetry _ _ _ => True
  | .markFailed _ _ => True
  | _ => False

namespace Delivery

variable {env : MailEnv}

theorem preparing_readAttachments (atts : List DraftAttachment) :
    (readAttachments atts).All Preparing := by
  induction atts with
  | nil => trivial
  | cons att rest ih =>
    refine ⟨trivial,fun r _ => ?_⟩
    cases r with
    | error e => trivial
    | ok data => exact ih.bind fun _ => trivial

theorem preparing_jobAttachments (draftId : Option String) :
    (jobAttachments draftId).All Preparing := by
  cases draftId with
  | none => trivial
  | some draftId =>
    refine ⟨trivial,fun r _ => ?_⟩
    cases r with
    | error e => trivial
    | ok _ =>
      refine ⟨trivial,fun r _ => ?_⟩
      cases r with
      | error e => trivial
      | ok attachments => exact preparing_readAttachments attachments

theorem preparing_fromAddress (identityId : Option Int) :
    (fromAddress env identityId).All Preparing := by
  cases identityId with
  | none => trivial
  | some identityId =>
    refine ⟨trivial,fun r _ => ?_⟩
    cases r with
    | error e => trivial
    | ok _ =>
      refine ⟨trivial,fun r _ => ?_⟩
      cases r with
      | error e => trivial
      | ok identity => trivial

theorem all_wireBytes {Q : MailCall → Prop} (hQ : ∀ n, Q (.drawUuid n)) (n : Nat)
    (inner : List UInt8) (pgp : Option PgpSendParams) : (wireBytes n inner pgp).All Q := by
  cases pgp with
  | none => trivial
  | some pgp => exact ⟨hQ n,fun _ _ => trivial⟩

theorem filing_sentFolderName (messageId : String) : sentFolderName.All (Filing messageId) := by
  refine ⟨trivial,fun r _ => ?_⟩
  cases r with
  | error e => trivial
  | ok _ => exact ⟨trivial,fun _ _ => trivial⟩

theorem filing_appendSent (message : Smtp.SendableMessage) (messageId : String) :
    (appendSent env message messageId).All (Filing messageId) := by
  unfold appendSent
  cases env.imapHost with
  | none => trivial
  | some host =>
    cases env.buildCopy message messageId with
    | error e => trivial
    | ok inner =>
      refine (all_wireBytes (fun _ => trivial) 3 inner message.pgp).bind fun bytes => ?_
      cases bytes with
      | error e => trivial
      | ok bytes =>
        refine (filing_sentFolderName messageId).bind fun folder => ⟨⟨rfl,rfl⟩,fun r _ => ?_⟩
        cases r with
        | error e => trivial
        | ok _ =>
          refine ⟨trivial,fun r _ => ?_⟩
          cases r with
          | error e => trivial
          | ok _ => exact ⟨trivial,fun _ _ => trivial⟩

theorem cleaning_cleanupDraft (uuid : String) :
    (cleanupDraft env uuid).All (Cleaning env uuid) := by
  have hforget : (forgetDraft env uuid).All (Cleaning env uuid) := by
    refine ⟨trivial,fun r _ => ?_⟩
    cases r with
    | error e => exact ⟨rfl,fun _ _ => trivial⟩
    | ok _ => exact ⟨rfl,fun _ _ => ⟨rfl,fun _ _ => trivial⟩⟩
  refine ⟨trivial,fun r _ => ?_⟩
  cases r with
  | error e => trivial
  | ok _ =>
    refine ⟨rfl,fun row _ => ⟨trivial,fun folder _ => ?_⟩⟩
    refine Prog.AllWhere.ite (Prog.AllWhere.bind ?_ fun _ => hforget) hforget
    cases (row : Except String (Option DraftStaging)).toOption.join.bind DraftStaging.imapUid with
    | none => trivial
    | some uid => exact ⟨trivial,fun _ _ => trivial⟩

theorem settling_settleEntry (entry : OutboxEntry) (sent : Except AppError String) :
    (settleEntry entry sent).All Settling := by
  refine ⟨trivial,fun r _ => ?_⟩
  cases r with
  | error e => trivial
  | ok _ =>
    refine ⟨?_,fun _ _ => trivial⟩
    unfold settleCall
    split
    · trivial
    · split <;> trivial

/-! ### The message of an attempt -/

section Prepared

variable (env : MailEnv) (weather : MailCall → MailOutcome) (w : MailWorld)

/-- The database can be opened, and the statement goes through. -/
abbrev Readable (n : Nat) (c : MailCall) : Prop :=
  (weather (.withUserDb n)).fails = none ∧ (weather c).fails = none

/-- The From address, if it can be found out. -/
def senderOf : Option Int → Option String
  | none => some env.email
  | some id =>
    if Readable weather 10 (.getIdentity id) then
      (w.identities.find? (fun i => i.1 = id)).map (fun i => identityAddress i.2)
    else none

/-- The data of an attachment, if its file can be read. -/
def fileOf (att : DraftAttachment) : Option AttachmentData :=
  if (weather (.readFile att.filePath)).fails = none then
    (w.readFile att.filePath).map (fun data => ⟨att.filename,att.contentType,data,some att.id⟩)
  else none

/-- The attachments of a job, if they can be read. -/
def attachmentsOf : Option String → Option (List AttachmentData)
  | none => some []
  | some draftId =>
    if Readable weather 11 (.getDraftAttachments draftId) then
      (w.drafts.getDraftAttachments draftId).mapM (fileOf weather w)
    else none

/-- The Message-ID a send draws. -/
def sentMessageId (host : String) : String :=
  "<" ++ (weather (.drawUuid 0)).uuid ++ "." ++ (weather (.drawUuid 1)).uuid ++ "@" ++ host ++ ">"

/-- The bytes of a message that has been built, wrapped if it has PGP parameters. -/
def wired (n : Nat) (inner : List UInt8) : Option PgpSendParams → Except String (List UInt8)
  | none => .ok inner
  | some pgp =>
    (wrapPgpMime ("----pgpboundary" ++ (weather (.drawUuid n)).uuid) inner pgp).map
      (fun s => s.toUTF8.data.toList)

/-- The message of a job for a host, and what it is built as. -/
def builtFor (job : SendJob) (host : String) : Option (Smtp.SendableMessage × List UInt8) := do
  let sender ← senderOf env weather w job.fromIdentityId
  let attachments ← attachmentsOf weather w job.draftId
  let message := job.message sender attachments
  let inner ← (env.buildMessage message (sentMessageId weather host)).toOption
  pure (message,inner)

/-- The message of an attempt at an entry, and what it is built as, if the attempt gets there. -/
def prepared (entry : OutboxEntry) : Option (Smtp.SendableMessage × List UInt8) :=
  if Readable weather 20 (.markSending entry.id) then
    env.smtpHost.bind (builtFor env weather w (entryJob env entry))
  else none

/-- What is submitted of a message that has been built. -/
def submittedOf : Option (Smtp.SendableMessage × List UInt8) → List Submission
  | none => []
  | some (message,inner) =>
    ((wired weather 2 inner message.pgp).toOption.map (fun bytes => ⟨message,bytes⟩)).toList

/-- A request for a value: it is had without changing anything, or there is an error. -/
def Yields {α : Type} (value : Option α) (r : Except AppError α × MailWorld) : Prop :=
  r.1.toOption = value ∧ r.2 = w

variable {env weather w}

/-- A value first, and what is made of it. -/
theorem Yields.bind {α β : Type} {p : MailTask (Except AppError α)} {v : Option α} {v' : Option β}
    {k : Except AppError α → MailTask (Except AppError β)}
    (hp : Yields w v (p.run (mailHandler weather) w))
    (herr : ∀ e, v = none → Yields w v' ((k (.error e)).run (mailHandler weather) w))
    (hok : ∀ a, v = some a → Yields w v' ((k (.ok a)).run (mailHandler weather) w)) :
    Yields w v' ((p >>= k).run (mailHandler weather) w) := by
  obtain ⟨hv,hw⟩ := hp
  rw [Prog.run_bind,hw]
  cases hr : (p.run (mailHandler weather) w).1 with
  | error e => exact herr e (hv.symm.trans (congrArg Except.toOption hr))
  | ok a => exact hok a (hv.symm.trans (congrArg Except.toOption hr))

theorem run_fromAddress (identityId : Option Int) :
    Yields w (senderOf env weather w identityId)
      ((fromAddress env identityId).run (mailHandler weather) w) := by
  cases identityId with
  | none => exact ⟨rfl,rfl⟩
  | some id =>
    have hsome : Readable weather 10 (.getIdentity id) → senderOf env weather w (some id) =
        (w.identities.find? (fun i => i.1 = id)).map (fun i => identityAddress i.2) :=
      fun h => if_pos h
    have hnone : ¬Readable weather 10 (.getIdentity id) →
        senderOf env weather w (some id) = none := fun h => if_neg h
    refine run_withUserDb (Yields w _) 10 (fun e hf => ?_) fun hopen => ?_
    · exact ⟨(hnone fun h => absurd (h.1.symm.trans hf) nofun).symm,rfl⟩
    refine run_statement (Yields w _) (.getIdentity id) Except.error
      (.ok ((w.identities.find? (fun i => i.1 = id)).map Prod.snd),w)
      (fun _ => MailOutcome.run_some) MailOutcome.run_none (fun e hf => ?_) fun hread => ?_
    · exact ⟨(hnone fun h => absurd (h.2.symm.trans hf) nofun).symm,rfl⟩
    · rw [hsome ⟨hopen,hread⟩]
      refine ⟨?_,rfl⟩
      show (senderFound ((w.identities.find? (fun i => i.1 = id)).map Prod.snd)).toOption = _
      cases w.identities.find? (fun i => i.1 = id) <;> rfl

/-- Reading a file: it fails, or there is no such file, or its content is returned. -/
theorem serve_readFile (path : String) :
    (∃ e, mailHandler weather (.readFile path) w = (.error e,w)) ∧
        ((weather (.readFile path)).fails ≠ none ∨ w.readFile path = none) ∨
      ∃ data, mailHandler weather (.readFile path) w = (.ok data,w) ∧
        (weather (.readFile path)).fails = none ∧ w.readFile path = some data := by
  show (∃ e, (weather _).runOption w _ ((w.readFile path).map _) = _) ∧ _ ∨
    ∃ data, (weather _).runOption w _ ((w.readFile path).map _) = _ ∧ _
  cases hd : w.readFile path with
  | none => exact Or.inl ⟨⟨_,rfl⟩,Or.inr rfl⟩
  | some data =>
    cases hf : (weather (.readFile path)).fails with
    | some e => exact Or.inl ⟨⟨e,MailOutcome.run_some hf⟩,Or.inl nofun⟩
    | none => exact Or.inr ⟨data,MailOutcome.run_none hf,rfl,rfl⟩

theorem run_readAttachment (att : DraftAttachment) :
    Yields w (fileOf weather w att) ((readAttachment att).run (mailHandler weather) w) := by
  unfold fileOf
  rcases serve_readFile att.filePath with ⟨⟨e,hr⟩,hno⟩ | ⟨data,hr,hf,hd⟩
  · have hrun : (readAttachment att).run (mailHandler weather) w = (.error _,w) := run_mailCall hr
    rw [hrun]
    rcases hno with hf | hd
    · rw [if_neg hf]
      exact ⟨rfl,rfl⟩
    · rw [hd]
      exact ⟨(ite_self none).symm,rfl⟩
  · have hrun : (readAttachment att).run (mailHandler weather) w = (.ok _,w) := run_mailCall hr
    rw [hrun,hf,hd]
    exact ⟨rfl,rfl⟩

theorem run_readAttachments (atts : List DraftAttachment) :
    Yields w (atts.mapM (fileOf weather w))
      ((readAttachments atts).run (mailHandler weather) w) := by
  induction atts with
  | nil => exact ⟨rfl,rfl⟩
  | cons att rest ih =>
    unfold readAttachments
    rw [List.mapM_cons]
    refine (run_readAttachment att).bind (fun e hnone => ?_) fun data hsome => ?_
    · rw [hnone]
      exact ⟨rfl,rfl⟩
    · rw [hsome]
      refine ih.bind (fun e hnone => ?_) fun read hread => ?_
      · rw [hnone]
        exact ⟨rfl,rfl⟩
      · rw [hread]
        exact ⟨rfl,rfl⟩

theorem run_jobAttachments (draftId : Option String) :
    Yields w (attachmentsOf weather w draftId)
      ((jobAttachments draftId).run (mailHandler weather) w) := by
  cases draftId with
  | none => exact ⟨rfl,rfl⟩
  | some id =>
    have hsome : Readable weather 11 (.getDraftAttachments id) → attachmentsOf weather w (some id) =
        (w.drafts.getDraftAttachments id).mapM (fileOf weather w) := fun h => if_pos h
    have hnone : ¬Readable weather 11 (.getDraftAttachments id) →
        attachmentsOf weather w (some id) = none := fun h => if_neg h
    refine run_withUserDb (Yields w _) 11 (fun e hf => ?_) fun hopen => ?_
    · exact ⟨(hnone fun h => absurd (h.1.symm.trans hf) nofun).symm,rfl⟩
    refine run_statement (Yields w _) (.getDraftAttachments id) Except.error
      (.ok (w.drafts.getDraftAttachments id),w) (fun _ => MailOutcome.run_some)
      MailOutcome.run_none (fun e hf => ?_) fun hread => ?_
    · exact ⟨(hnone fun h => absurd (h.2.symm.trans hf) nofun).symm,rfl⟩
    · rw [hsome ⟨hopen,hread⟩]
      exact run_readAttachments _

/-! ### Submissions -/

/-- A call that submits nothing. -/
def Silent (c : MailCall) : Prop := ∀ w, (c.effect w).submissions = w.submissions

theorem silent_of_filing {messageId : String} {c : MailCall} (h : Filing messageId c) :
    Silent c := by
  intro w
  cases c <;> first | rfl | exact h.elim

theorem silent_of_cleaning {uuid : String} {c : MailCall} (h : Cleaning env uuid c) :
    Silent c := by
  intro w
  cases c <;> first | rfl | exact h.elim

theorem silent_of_settling {c : MailCall} (h : Settling c) : Silent c := by
  intro w
  cases c <;> first | rfl | exact h.elim

theorem run_silent {α : Type} {t : MailTask α} (h : t.All Silent) (w : MailWorld) :
    (t.run (mailHandler weather) w).2.submissions = w.submissions :=
  Prog.run_invariant (P := fun w' : MailWorld => w'.submissions = w.submissions)
    (fun _ _ _ => trivial)
    (fun c s hc hs => serveMail_frame (o := weather c) (c := c) (w := s)
      (P := fun w' => w'.submissions = w.submissions) hs ((hc s).trans hs)) h rfl

theorem run_wireBytes (n : Nat) (inner : List UInt8) (pgp : Option PgpSendParams) :
    (wireBytes n inner pgp).run (mailHandler weather) w = (wired weather n inner pgp,w) := by
  cases pgp with
  | none => rfl
  | some pgp => rfl

/-- What `submitAs` submits. -/
theorem run_submitAs (message : Smtp.SendableMessage) (messageId : String) :
    ((submitAs env message messageId).run (mailHandler weather) w).2.submissions =
      w.submissions ++ submittedOf weather
        ((env.buildMessage message messageId).toOption.map (fun inner => (message,inner))) := by
  unfold submitAs
  cases env.buildMessage message messageId with
  | error e => exact (List.append_nil _).symm
  | ok inner =>
    simp only [Prog.run_bind,run_wireBytes]
    show _ = w.submissions ++
      ((wired weather 2 inner message.pgp).toOption.map (fun bytes => ⟨message,bytes⟩)).toList
    cases wired weather 2 inner message.pgp with
    | error e => exact (List.append_nil _).symm
    | ok bytes => rfl

/-- After the message has been handed over nothing more is submitted. -/
theorem run_sendPrepared {host : String} {job : SendJob} (message : Smtp.SendableMessage) :
    ((sendPrepared env host job message).run (mailHandler weather) w).2.submissions =
      w.submissions ++ submittedOf weather
        ((env.buildMessage message (sentMessageId weather host)).toOption.map
          (fun inner => (message,inner))) := by
  rw [← run_submitAs]
  let id := sentMessageId weather host
  let r := (submitAs env message id).run (mailHandler weather) w
  have hdrawn : (drawMessageId host).run (mailHandler weather) w = (id,w) := rfl
  unfold sendPrepared sendMessage
  simp only [Prog.run_bind,hdrawn]
  cases hr : r.1 with
  | error e => rfl
  | ok u =>
    obtain ⟨⟩ := u
    have hclean : (cleanupJob env job.draftId).All Silent := by
      cases job.draftId with
      | none => trivial
      | some uuid => exact (cleaning_cleanupDraft uuid).mono fun _ => silent_of_cleaning
    have hrest : (appendSent env message id >>= fun _ => cleanupJob env job.draftId >>= fun _ =>
        (pure (.ok id) : MailTask (Except AppError String))).All Silent :=
      ((filing_appendSent message id).mono fun _ => silent_of_filing).bind
        fun _ => hclean.bind fun _ => trivial
    exact run_silent hrest r.2

theorem run_performSend (job : SendJob) :
    ((performSend env job).run (mailHandler weather) w).2.submissions =
      w.submissions ++ submittedOf weather (env.smtpHost.bind (builtFor env weather w job)) := by
  unfold performSend
  cases env.smtpHost with
  | none => exact (List.append_nil _).symm
  | some host =>
    obtain ⟨hsender,hw⟩ : Yields w (senderOf env weather w job.fromIdentityId) _ :=
      run_fromAddress job.fromIdentityId
    obtain ⟨hatts,hw'⟩ : Yields w (attachmentsOf weather w job.draftId) _ :=
      run_jobAttachments job.draftId
    simp only [Prog.run_bind,Option.bind_some]
    rw [hw]
    unfold builtFor
    cases hr : ((fromAddress env job.fromIdentityId).run (mailHandler weather) w).1 with
    | error e =>
      rw [← hsender,hr]
      exact (List.append_nil _).symm
    | ok sender =>
      rw [← hsender,hr]
      simp only [Prog.run_bind]
      rw [hw']
      cases ha : ((jobAttachments job.draftId).run (mailHandler weather) w).1 with
      | error e =>
        rw [← hatts,ha]
        exact (List.append_nil _).symm
      | ok attachments =>
        rw [← hatts,ha]
        refine (run_sendPrepared _).trans ?_
        show _ ++ submittedOf weather _ = _ ++ submittedOf weather
          (do let inner ← (env.buildMessage (job.message sender attachments)
                (sentMessageId weather host)).toOption
              pure (job.message sender attachments,inner))
        cases env.buildMessage (job.message sender attachments) (sentMessageId weather host) <;> rfl

/-- What an attempt submits. -/
theorem run_processEntry (entry : OutboxEntry) :
    ((processEntry env entry).run (mailHandler weather) w).2.submissions =
      w.submissions ++ submittedOf weather (prepared env weather w entry) := by
  have hsome : Readable weather 20 (.markSending entry.id) → prepared env weather w entry =
      env.smtpHost.bind (builtFor env weather w (entryJob env entry)) := fun h => if_pos h
  have hnone : ¬Readable weather 20 (.markSending entry.id) →
      prepared env weather w entry = none := fun h => if_neg h
  refine run_withUserDb (fun r => r.2.submissions = _) 20 (fun e hf => ?_) fun hopen => ?_
  · rw [hnone fun h => absurd (h.1.symm.trans hf) nofun]
    exact (List.append_nil _).symm
  let w' : MailWorld := { w with queue := w.queue.markSending entry.id }
  refine run_statement (fun r => r.2.submissions = _) (.markSending entry.id) Except.error
    (.ok (),w') (fun _ => MailOutcome.run_some) MailOutcome.run_none (fun e hf => ?_) fun hmark => ?_
  · rw [hnone fun h => absurd (h.2.symm.trans hf) nofun]
    exact (List.append_nil _).symm
  · rw [hsome ⟨hopen,hmark⟩]
    show ((sendEntry env entry).run (mailHandler weather) w').2.submissions = _
    unfold sendEntry
    rw [Prog.run_bind,run_silent ((settling_settleEntry entry _).mono fun _ => silent_of_settling)]
    exact run_performSend (entryJob env entry)

end Prepared

end Delivery

end Rav
