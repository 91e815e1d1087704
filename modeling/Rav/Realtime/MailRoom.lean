import Rav.Realtime.Delivery
import Rav.Runs
import Rav.Threads

/-!
# Mail that waits with its draft

Requests on drafts, sends, and attempts of the worker, interleaved call by call. The history keeps
every mail that has been queued with the state it was queued in, and every submission of one.

## Main definitions

- `AttemptStance` — what an attempt has read of the attachments of its draft
- `QueuedMail` — a mail and the state it was queued in; `snapshot`, `touches`
- `MailRoom`, `MailRoom.step` — the system
-/

namespace Rav

/-! ### Attempts -/

/-- An attempt before it lists the attachments of its draft, and while it reads their files. -/
inductive AttemptStance
  | other
  | fresh (e : OutboxEntry)
  | reading (e : OutboxEntry) (todo : List DraftAttachment) (done : List AttachmentData)

/-- The data of an attachment whose file has been read. -/
def DraftAttachment.loaded (a : DraftAttachment) (data : List UInt8) : AttachmentData :=
  ⟨a.filename,a.contentType,data,some a.id⟩

namespace AttemptStance

def next : AttemptStance → (c : MailCall) → c.Answer → AttemptStance
  | .fresh e, .getDraftAttachments _, .ok (rows : List DraftAttachment) => .reading e rows []
  | .reading e (a :: todo) done, .readFile _, .ok (data : List UInt8) =>
    .reading e todo (done ++ [a.loaded data])
  | g, _, _ => g

/-- An attempt lists the attachments of its draft, reads their files in order, and submits what it
has read with the stored parameters. -/
def Allows (env : MailEnv) : AttemptStance → MailCall → Prop
  | .fresh e, .getDraftAttachments d => e.draftId = some d
  | .fresh _, .readFile _ => False
  | .fresh e, .submit m _ => m.pgp = storedPgp env e ∧ e.draftId = none ∧ m.attachments = []
  | .reading _ _ _, .getDraftAttachments _ => False
  | .reading _ todo _, .readFile path => ∃ a rest, todo = a :: rest ∧ path = a.filePath
  | .reading e todo done, .submit m _ =>
    m.pgp = storedPgp env e ∧ todo = [] ∧ m.attachments = done
  | _, _ => True

/-- The attempt at an entry has read these attachments. -/
def Loaded (e : OutboxEntry) (atts : List AttachmentData) : AttemptStance → Prop
  | .other => False
  | .fresh e' => e' = e ∧ e.draftId = none ∧ atts = []
  | .reading e' todo done => e' = e ∧ todo = [] ∧ done = atts

/-- The answers that move an attempt on. -/
inductive Moves : AttemptStance → (c : MailCall) → c.Answer → AttemptStance → Prop
  | list (e : OutboxEntry) (d : String) (rows : List DraftAttachment) :
      Moves (.fresh e) (.getDraftAttachments d) (.ok rows) (.reading e rows [])
  | read (e : OutboxEntry) (a : DraftAttachment) (todo : List DraftAttachment)
      (done : List AttachmentData) (path : String) (data : List UInt8) :
      Moves (.reading e (a :: todo) done) (.readFile path) (.ok data)
        (.reading e todo (done ++ [a.loaded data]))

theorem next_cases (g : AttemptStance) (c : MailCall) (r : c.Answer) :
    g.next c r = g ∨ Moves g c r (g.next c r) := by
  cases g with
  | other => exact Or.inl rfl
  | fresh e =>
    cases c with
    | getDraftAttachments d =>
      rcases r with m | rows
      · exact Or.inl rfl
      · exact Or.inr (.list e d rows)
    | _ => exact Or.inl rfl
  | reading e todo done =>
    cases todo with
    | nil => cases c <;> exact Or.inl rfl
    | cons a todo =>
      cases c with
      | readFile path =>
        rcases r with m | data
        · exact Or.inl rfl
        · exact Or.inr (.read e a todo done path data)
      | _ => exact Or.inl rfl

end AttemptStance

/-- Calls that have nothing to do with the attachments an attempt reads. -/
def Aside : MailCall → Prop
  | .getDraftAttachments _ => False
  | .readFile _ => False
  | .submit _ _ => False
  | _ => True

section Attempts

open AttemptStance

variable {env : MailEnv} {g : AttemptStance} {e : OutboxEntry} {c : MailCall}

theorem allows_aside (h : Aside c) : g.Allows env c := by
  cases g <;> cases c <;> trivial

theorem next_aside (h : Aside c) (r : c.Answer) : g.next c r = g := by
  rcases g with _ | _ | ⟨e,_ | ⟨a,todo⟩,done⟩ <;> cases c <;> first | rfl | exact h.elim

/-- A program that leaves the attachments alone. -/
theorem follows_aside {α : Type} {t : MailTask α} (h : t.All Aside) :
    t.Follows (Allows env) next (fun g' _ => g' = g) g :=
  Prog.Follows.of_still h (fun _ hc => allows_aside hc) (fun _ r hc => next_aside hc r)

theorem aside_of_filing {messageId : String} (h : Filing messageId c) : Aside c := by
  cases c <;> trivial

theorem aside_of_cleaning {uuid : String} (h : Cleaning env uuid c) : Aside c := by
  cases c <;> trivial

theorem aside_of_settling (h : Settling c) : Aside c := by
  cases c <;> trivial

theorem aside_fromAddress (identityId : Option Int) :
    (Delivery.fromAddress env identityId).All Aside := by
  cases identityId with
  | none => trivial
  | some id =>
    refine ⟨trivial,fun r _ => ?_⟩
    cases r with
    | error e => trivial
    | ok _ =>
      refine ⟨trivial,fun r _ => ?_⟩
      cases r with
      | error e => trivial
      | ok identity => trivial

/-- Reading the files moves through the list. -/
theorem follows_readAttachments (rows : List DraftAttachment) :
    ∀ done, (Delivery.readAttachments rows).Follows (Allows env) next
      (fun g r => ∀ atts, r = .ok atts → g = .reading e [] (done ++ atts))
      (.reading e rows done) := by
  induction rows with
  | nil =>
    intro done atts hatts
    obtain rfl : [] = atts := Except.ok.inj hatts
    exact congrArg _ (List.append_nil done).symm
  | cons a rows ih =>
    intro done
    refine ⟨⟨a,rows,rfl,rfl⟩,fun r => ?_⟩
    cases r with
    | error e => exact nofun
    | ok data =>
      refine (ih (done ++ [a.loaded data])).bind fun g read hg atts hatts => ?_
      cases read with
      | error e => exact absurd hatts nofun
      | ok read =>
        obtain rfl : a.loaded data :: read = atts := Except.ok.inj hatts
        rw [hg read rfl,List.append_assoc]
        rfl

/-- An attempt ends up with the attachments it has read, or with an error. -/
theorem follows_jobAttachments :
    (Delivery.jobAttachments e.draftId).Follows (Allows env) next
      (fun g r => ∀ atts, r = .ok atts → g.Loaded e atts) (.fresh e) := by
  cases hd : e.draftId with
  | none =>
    intro atts hatts
    exact ⟨rfl,hd,(Except.ok.inj hatts).symm⟩
  | some d =>
    refine ⟨trivial,fun r => ?_⟩
    cases r with
    | error m => exact nofun
    | ok _ =>
      refine ⟨hd,fun r => ?_⟩
      cases r with
      | error m => exact nofun
      | ok rows =>
        refine (follows_readAttachments rows []).mono fun g r hg atts hatts => ?_
        rw [hg atts hatts]
        exact ⟨rfl,rfl,rfl⟩

theorem follows_submitAs {message : Smtp.SendableMessage} {messageId : String}
    (hg : g.Loaded e message.attachments) (hpgp : message.pgp = storedPgp env e) :
    (Delivery.submitAs env message messageId).Follows (Allows env) next (fun _ _ => True) g := by
  unfold Delivery.submitAs
  cases env.buildMessage message messageId with
  | error m => trivial
  | ok inner =>
    have hwire : (Delivery.wireBytes 2 inner message.pgp).All Aside :=
      Delivery.all_wireBytes (fun _ => trivial) 2 inner message.pgp
    refine (follows_aside hwire).bind fun g' bytes hg' => ?_
    subst hg'
    cases bytes with
    | error m => trivial
    | ok bytes =>
      refine ⟨?_,fun _ => trivial⟩
      cases g' with
      | other => exact hg.elim
      | fresh e' =>
        obtain ⟨rfl,hd,ha⟩ := hg
        exact ⟨hpgp,hd,ha⟩
      | reading e' todo done =>
        obtain ⟨rfl,hd,ha⟩ := hg
        exact ⟨hpgp,hd,ha.symm⟩

theorem follows_any {α : Type} {t : MailTask α} (h : t.All Aside) :
    t.Follows (Allows env) next (fun _ _ => True) g :=
  (follows_aside h).mono fun _ _ _ => trivial

theorem follows_sendPrepared {host : String} {job : Delivery.SendJob}
    {message : Smtp.SendableMessage} (hg : g.Loaded e message.attachments)
    (hpgp : message.pgp = storedPgp env e) :
    (Delivery.sendPrepared env host job message).Follows (Allows env) next (fun _ _ => True) g := by
  have hdraw : (Delivery.drawMessageId host).All Aside :=
    ⟨trivial,fun _ _ => ⟨trivial,fun _ _ => trivial⟩⟩
  refine Prog.Follows.bind (Q := fun _ _ => True) ?_ fun g' r _ => ?_
  · refine (follows_aside hdraw).bind fun g' messageId hg' => ?_
    subst hg'
    refine (follows_submitAs hg hpgp).bind fun g'' r _ => ?_
    cases r with
    | error m => trivial
    | ok _ => trivial
  · cases r with
    | error m => trivial
    | ok messageId =>
      refine follows_any (Prog.AllWhere.bind ?_ fun _ => Prog.AllWhere.bind ?_ fun _ => trivial)
      · exact (Delivery.filing_appendSent message messageId).mono fun _ => aside_of_filing
      · cases job.draftId with
        | none => trivial
        | some uuid => exact (Delivery.cleaning_cleanupDraft uuid).mono fun _ => aside_of_cleaning

/-- An attempt keeps to its stance: what it submits is what it has read. -/
theorem follows_processEntry (e : OutboxEntry) :
    (Delivery.processEntry env e).Follows (Allows env) next (fun _ _ => True) (.fresh e) := by
  refine ⟨trivial,fun r => ?_⟩
  cases r with
  | error m => trivial
  | ok _ =>
    refine ⟨trivial,fun r => ?_⟩
    cases r with
    | error m => trivial
    | ok _ =>
      show (Delivery.sendEntry env e).Follows (Allows env) next (fun _ _ => True) (.fresh e)
      refine Prog.Follows.bind (Q := fun _ _ => True) ?_ fun g sent _ =>
        follows_any ((Delivery.settling_settleEntry e sent).mono fun _ => aside_of_settling)
      unfold Delivery.performSend
      cases env.smtpHost with
      | none => trivial
      | some host =>
        refine (follows_aside (aside_fromAddress e.fromIdentityId)).bind fun g sender hg => ?_
        subst hg
        cases sender with
        | error m => trivial
        | ok sender =>
          refine follows_jobAttachments.bind fun g atts hg => ?_
          cases atts with
          | error m => trivial
          | ok atts => exact follows_sendPrepared (hg atts rfl) rfl

end Attempts

/-! ### Queued mail -/

/-- The attachments a draft has: the rows, and the data of their files. -/
def MailWorld.draftAttachments (w : MailWorld) : Option String → List DraftAttachment
  | none => []
  | some draftId => w.drafts.getDraftAttachments draftId

def MailWorld.fileData (w : MailWorld) (a : DraftAttachment) : Option AttachmentData :=
  (w.readFile a.filePath).map a.loaded

/-- A mail that has been queued, and the state it was queued in. -/
structure QueuedMail where
  entry : NewOutboxEntry
  before : MailWorld

namespace QueuedMail

variable (m : QueuedMail)

/-- The rows of the attachments the draft had. -/
def rows : List DraftAttachment := m.before.draftAttachments m.entry.draftId

/-- The attachments the draft had when the mail was queued. -/
def snapshot : Option (List AttachmentData) := m.rows.mapM m.before.fileData

/-- A call that adds an attachment to the draft, removes one, or changes the file of one. -/
def touches : MailCall → Bool
  | .insertAttachment _ k _ _ _ _ => m.entry.draftId = some k
  | .deleteDraftAttachment id => m.rows.any (fun a => a.id = id)
  | .deleteStaging k => m.entry.draftId = some k && !m.rows.isEmpty
  | .writeFile path _ => m.rows.any (fun a => a.filePath = path)
  | .removeFile path => m.rows.any (fun a => a.filePath = path)
  | .removeDirAll dir => m.rows.any (fun a => (dir ++ "/").toList.isPrefixOf a.filePath.toList)
  | _ => false

end QueuedMail

/-- The attachments a submission carries: the PGP/MIME envelope has none. -/
def Submission.carried (s : Submission) : List AttachmentData :=
  if s.message.pgp.isSome then [] else s.message.attachments

/-! ### The system -/

/-- Requests. -/
inductive MailRequest
  | save (uuid : String) (req : SaveDraftRequest)
  | upload (uuid : String) (fields : List (Except String UploadedFile))
  | deleteAttachment (uuid id : String)
  | discard (uuid : String)
  | send (req : SendRequest)
  | enqueue (req : SendRequest)

/-- What a request does, its answer aside. -/
def MailRequest.task (env : MailEnv) (now : Nat) : MailRequest → MailTask Unit
  | .save uuid req => do
    let _ ← saveDraftLocked env uuid req
    pure ()
  | .upload uuid fields => do
    let _ ← uploadAttachment env uuid fields
    pure ()
  | .deleteAttachment uuid id => do
    let _ ← Rav.deleteAttachment uuid id
    pure ()
  | .discard uuid => do
    let _ ← deleteDraftLocked env uuid
    pure ()
  | .send req => do
    let _ ← sendMessageHandler env req
    pure ()
  | .enqueue req => do
    let _ ← enqueueHandler env req now
    pure ()

/-- Requests and attempts in progress, the entries the worker has listed, and the history: mails
queued, those whose draft has since been touched, and what has been submitted of them. -/
structure MailRoom where
  threads : Threads AttemptStance MailWorld MailCall MailCall.Answer Unit
  listed : List OutboxEntry
  queued : List QueuedMail
  touched : List String
  log : List (String × Submission)

/-- Time passes, a request arrives, the worker lists due entries or takes one up, and a thread
makes a call. -/
inductive MailRoomEvent
  | tick (seconds : Nat)
  | request (r : MailRequest)
  | list
  | attempt (e : OutboxEntry)
  | call (i : Nat) (o : MailOutcome)

namespace MailRoom

/-- A mail that a call queues. -/
def newlyQueued (o : MailOutcome) (w : MailWorld) : MailCall → List QueuedMail
  | .enqueue e => if o.fails = none ∧ (w.queue.enqueue e w.now).isSome then [⟨e,w⟩] else []
  | _ => []

/-- What a call of an attempt submits. -/
def submittedBy : AttemptStance → MailCall → List (String × Submission)
  | .fresh e, .submit message bytes => [(e.id,⟨message,bytes⟩)]
  | .reading e _ _, .submit message bytes => [(e.id,⟨message,bytes⟩)]
  | _, _ => []

variable (env : MailEnv) (s : MailRoom)

/-- Mails whose draft a call touches, unless it fails. -/
def touchedBy (o : MailOutcome) (c : MailCall) : List String :=
  if o.fails = none then (s.queued.filter (fun m => m.touches c)).map (fun m => m.entry.id) else []

/-- The history after a call. -/
def record (o : MailOutcome) (g : AttemptStance) (c : MailCall)
    (threads : Threads AttemptStance MailWorld MailCall MailCall.Answer Unit) : MailRoom where
  threads := threads
  listed := s.listed
  queued := s.queued ++ newlyQueued o s.threads.world c
  touched := s.touched ++ s.touchedBy o c
  log := s.log ++ submittedBy g c

def start (g : AttemptStance) (t : MailTask Unit) : MailRoom :=
  { s with threads := ⟨s.threads.world,s.threads.tasks ++ [(g,t)]⟩ }

def step : MailRoomEvent → Option MailRoom
  | .tick n =>
    let w := s.threads.world
    some { s with threads := ⟨{ w with now := w.now + n },s.threads.tasks⟩ }
  | .request r => some (s.start .other (r.task env s.threads.world.now))
  | .list =>
    let w := s.threads.world
    some { s with listed := s.listed ++ w.queue.listDue w.now }
  | .attempt e =>
    if e ∈ s.listed then some (s.start (.fresh e) (Delivery.processEntry env e)) else none
  | .call i o =>
    match s.threads.upcoming i, s.threads.call (serveMail o) AttemptStance.next i with
    | some (g,c), some threads => some (s.record o g c threads)
    | _, _ => none

/-- A user with an empty queue. -/
def opening (w : MailWorld) : MailRoom := ⟨⟨{ w with queue := .empty },[]⟩,[],[],[],[]⟩

end MailRoom

end Rav
