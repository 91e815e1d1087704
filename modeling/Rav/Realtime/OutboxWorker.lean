import Rav.Error
import Rav.Prog
import Rav.Db.Outbox
import Mathlib.Algebra.Group.Nat.Defs

/-!
# `realtime::outbox_worker`, `routes::outbox`

The worker that drains the send queue, written as a program whose calls are single statements on
the queue, the preparation of a message and its submission to SMTP. What happens to the Sent
folder and the draft after a submission does not touch the queue. And the handler of
`DELETE /api/outbox/{id}`: undo while still scheduled, discard while failed, rejected if the send is
already in flight. The row is read and deleted by two statements.

## Main definitions

- `OutboxCall`, `OutboxTask` — the calls, and programs making them
- `OutboxWorld`, `OutboxWeather`, `serve` — the state, its disturbances, the answer to one call
- `performSend`, `processEntry`, `workerCycle` — the worker
- `deleteHandler` — the handler
-/

namespace Rav

/-- Fully-resolved send job. -/
structure SendJob where
  to_ : List String
  cc : List String
  bcc : List String
  subject : String
  textBody : String
  htmlBody : Option String
  inReplyTo : Option String
  references : Option String
  draftId : Option String
  fromIdentityId : Option Int
  pgp : Option String
  deriving DecidableEq, Repr

def OutboxEntry.job (e : OutboxEntry) : SendJob where
  to_ := e.toAddrs
  cc := e.ccAddrs
  bcc := e.bccAddrs
  subject := e.subject
  textBody := e.textBody
  htmlBody := e.htmlBody
  inReplyTo := e.inReplyTo
  references := e.referencesHdr
  draftId := e.draftId
  fromIdentityId := e.fromIdentityId
  pgp := e.pgpJson

/-- The event `OutboxStateChanged`. -/
structure OutboxStateChanged where
  id : String
  state : String
  failReason : Option String
  deriving DecidableEq, Repr

/-- The calls of the worker and of the delete handler. `prepare` looks up the SMTP host, the
sender's identity and the attachments; there and in `submit`, `id` names the entry the job is
of. -/
inductive OutboxCall
  | listDue
  | nextSendAfter
  | get (id : String)
  | markSending (id : String)
  | markRetry (id : String) (delay : Nat) (reason : String)
  | markFailed (id : String) (reason : String)
  | delete (id : String)
  | prepare (id : String) (job : SendJob)
  | submit (id : String) (job : SendJob)
  | publish (e : OutboxStateChanged)
  | respond (id : String) (r : Except AppError String)

def OutboxCall.Answer : OutboxCall → Type
  | .listDue => Except String (List OutboxEntry)
  | .nextSendAfter => Except String (Option Nat)
  | .get _ => Except String (Option OutboxEntry)
  | .markSending _ => Except String Unit
  | .markRetry _ _ _ => Except String Unit
  | .markFailed _ _ => Except String Unit
  | .delete _ => Except String Bool
  | .prepare _ _ => Except AppError Unit
  | .submit _ _ => Except String String
  | .publish _ => Unit
  | .respond _ _ => Unit

abbrev OutboxTask := Prog OutboxCall OutboxCall.Answer

def outboxCall (c : OutboxCall) : OutboxTask c.Answer := Prog.perform (R := OutboxCall.Answer) c

/-- What is on record of a queue: submissions to SMTP, and cancellations told to the client. -/
inductive OutboxRecord
  | submitted (id : String)
  | acknowledged (id : String)
  deriving DecidableEq, Repr

/-- The queue, the clock, the ids given out so far, events and records. -/
structure OutboxWorld where
  rows : Outbox
  now : Nat
  issued : List String
  published : List OutboxStateChanged
  log : List OutboxRecord

/-- What may go wrong with a call: a statement fails, a message cannot be prepared, SMTP refuses
or accepts. -/
structure OutboxWeather where
  statement : Option String
  prepare : Except AppError Unit
  smtp : Except String String

/-- A statement, unless it fails. -/
def OutboxWeather.run {α : Type} (weather : OutboxWeather) (w : OutboxWorld)
    (f : Outbox → α × Outbox) : Except String α × OutboxWorld :=
  match weather.statement with
  | some e => (.error e,w)
  | none => (.ok (f w.rows).1,{ w with rows := (f w.rows).2 })

/-- Answer one call. -/
def serve (weather : OutboxWeather) : (c : OutboxCall) → OutboxWorld → c.Answer × OutboxWorld
  | .listDue, w => weather.run w (fun t => (t.listDue w.now,t))
  | .nextSendAfter, w => weather.run w (fun t => (t.nextSendAfter,t))
  | .get id, w => weather.run w (fun t => (t.get id,t))
  | .markSending id, w => weather.run w (fun t => ((),t.markSending id))
  | .markRetry id delay reason, w => weather.run w (fun t => ((),t.markRetry id (w.now + delay) reason))
  | .markFailed id reason, w => weather.run w (fun t => ((),t.markFailed id reason))
  | .delete id, w => weather.run w (fun t => t.delete id)
  | .prepare _ _, w => (weather.prepare,w)
  | .submit id _, w => (weather.smtp,{ w with log := w.log ++ [.submitted id] })
  | .publish e, w => ((),{ w with published := w.published ++ [e] })
  | .respond id (.ok _), w => ((),{ w with log := w.log ++ [.acknowledged id] })
  | .respond _ (.error _), w => ((),w)

section Serve

variable {weather : OutboxWeather} {w : OutboxWorld} {c : OutboxCall}

/-- A statement leaves the ids given out, the clock and the records. -/
theorem OutboxWeather.run_frame {α : Type} {f : Outbox → α × Outbox} :
    (weather.run w f).2.issued = w.issued ∧ (weather.run w f).2.now = w.now ∧
      (weather.run w f).2.log = w.log := by
  unfold OutboxWeather.run
  split <;> exact ⟨rfl,rfl,rfl⟩

theorem serve_issued : (serve weather c w).2.issued = w.issued := by
  cases c with
  | respond id r => cases r <;> rfl
  | prepare id job => rfl
  | submit id job => rfl
  | publish e => rfl
  | _ => exact OutboxWeather.run_frame.1

theorem serve_now : (serve weather c w).2.now = w.now := by
  cases c with
  | respond id r => cases r <;> rfl
  | prepare id job => rfl
  | submit id job => rfl
  | publish e => rfl
  | _ => exact OutboxWeather.run_frame.2.1

end Serve

/-! ### The worker -/

def maxAttempts : Nat := 5

/-- Exponential backoff: 30s, 60s, 120s, 240s, 480s, capped at 30 minutes. -/
def backoffDuration (attemptCount : Nat) : Nat := min (30 * 2 ^ min attemptCount 6) 1800

/-- Whether a failed `performSend` is worth retrying. -/
def isRetryable : AppError → Bool
  | .serviceUnavailable msg => !strContains msg "Authentication failed"
  | _ => false

/-- Build the message and send it over SMTP. -/
def performSend (id : String) (job : SendJob) : OutboxTask (Except AppError String) := do
  match ← outboxCall (.prepare id job) with
  | .error (e : AppError) => pure (.error e)
  | .ok () =>
    match ← outboxCall (.submit id job) with
    | .error (e : String) => pure (.error (.serviceUnavailable ("Failed to send email: " ++ e)))
    | .ok (messageId : String) => pure (.ok messageId)

/-- What becomes of an entry once its message has been sent or has failed. -/
def settleEntry (entry : OutboxEntry) (sent : Except AppError String) : OutboxTask Unit := do
  match sent with
  | .ok _ => do
    let _ ← outboxCall (.delete entry.id)
    outboxCall (.publish ⟨entry.id,"sent",none⟩)
  | .error e =>
    if isRetryable e ∧ entry.attemptCount + 1 < maxAttempts then do
      let _ ← outboxCall (.markRetry entry.id (backoffDuration entry.attemptCount) e.display)
      pure ()
    else do
      let _ ← outboxCall (.markFailed entry.id e.display)
      outboxCall (.publish ⟨entry.id,"failed",some e.display⟩)

def processEntry (entry : OutboxEntry) : OutboxTask Unit := do
  match ← outboxCall (.markSending entry.id) with
  | .error _ => pure ()
  | .ok () => do
    outboxCall (.publish ⟨entry.id,"sending",none⟩)
    let sent ← performSend entry.id entry.job
    settleEntry entry sent

def processEntries : List OutboxEntry → OutboxTask Unit
  | [] => pure ()
  | entry :: rest => do
    processEntry entry
    processEntries rest

/-- One round of `worker_loop`, from waking up to going back to sleep. -/
def workerCycle : OutboxTask Unit := do
  match ← outboxCall .listDue with
  | .error _ => pure ()
  | .ok (due : List OutboxEntry) => do
    processEntries due
    let _ ← outboxCall .nextSendAfter
    pure ()

/-! ### Samples -/

/-- A mail queued under an id. -/
def plainEntry (id : String) : NewOutboxEntry :=
  ⟨id,none,["bob@example.com"],[],[],"Hello","Body",none,none,none,none,none,5⟩

/-- Every call goes through. -/
def smooth : OutboxWeather := ⟨none,.ok (),.ok "<1@example.com>"⟩

/-! ### Deleting an entry -/

def deleteHandler (id : String) : OutboxTask Unit := do
  match ← outboxCall (.get id) with
  | .error (e : String) => outboxCall (.respond id (.error (.internalError e)))
  | .ok none => outboxCall (.respond id (.error (.notFound "Outbox entry not found")))
  | .ok (some (entry : OutboxEntry)) =>
    if entry.state = .sending then
      outboxCall (.respond id (.error (.badRequest "Send already in progress, cannot cancel")))
    else do
      match ← outboxCall (.delete id) with
      | .error (e : String) => outboxCall (.respond id (.error (.internalError e)))
      | .ok _ => do
        outboxCall (.publish ⟨id,"cancelled",none⟩)
        outboxCall (.respond id (.ok "cancelled"))

end Rav
