import Rav.Prog
import Rav.Str
import Rav.Error
import Rav.Db.Filters
import Rav.Realtime.Task

/-!
# `realtime::idle`, the out-of-office responder

The tasks that answer new messages of one account, as programs whose calls are single statements
on the account's database and the handing over of a mail to SMTP. Times are seconds, as they are
stored; `str::to_lowercase` is a parameter.

## Main definitions

- `isAutomatedSender`, `vacationInDateRange` — who is answered, and when
- `VacationCall`, `VacationTask` — the calls, and programs making them
- `shouldReplyAndRecord`, `purgeOldReplies`, `answerNewMessages` — the responder
- `VacationWorld`, `VacationWeather`, `vacationServe` — the state, its disturbances, one answer
-/

namespace Rav

/-! ### Who is answered, and when -/

/-- Senders that should never receive an auto-reply. -/
def isAutomatedSender (lower : String → String) (sender : String) : Bool :=
  let sender := lower sender
  let localPart := String.ofList ((splitAll ['@'] sender.toList).headD [])
  ["mailer-daemon","postmaster","noreply","no-reply","donotreply","do-not-reply","auto-reply",
      "auto_reply","autoreply"].contains localPart ||
    "bounce".toList.isPrefixOf localPart.toList || "return".toList.isPrefixOf localPart.toList ||
    "prvs=".toList.isPrefixOf localPart.toList || strContains sender "noreply" ||
    strContains sender "no-reply" || strContains sender "donotreply" ||
    strContains sender "auto-reply" || strContains sender "bounces+" || strContains sender "+caf_="

def vacationInDateRange (vacation : VacationResponder) (today : String) : Bool :=
  !vacation.startDate.any (fun start => decide (today < start)) &&
    !vacation.endDate.any (fun stop => decide (stop < today))

/-- The responder as it is taken where its settings cannot be read. -/
def unreadVacation : VacationResponder := ⟨false,"","",none,none,24⟩

/-! ### The calls -/

/-- The calls. Where a call belongs to the check of a sender, it names the sender; `elapsedHours`
also names the interval its answer is held against. -/
inductive VacationCall
  | getVacation
  | today
  | withUserDb (sender : Option String)
  | findReply (sender : String)
  | elapsedHours (sender : String) (repliedAt : Nat) (intervalHours : Int)
  | updateReply (sender : String)
  | insertReply (sender : String)
  | sendMessage (m : SendableMessage)
  | purgeReplies (hours : Int)

def VacationCall.Answer : VacationCall → Type
  | .getVacation => Except String VacationResponder
  | .today => String
  | .withUserDb _ => Except String Unit
  | .findReply _ => Except String (Option Nat)
  | .elapsedHours _ _ _ => Except String Int
  | .updateReply _ => Except String Unit
  | .insertReply _ => Except String Unit
  | .sendMessage _ => Bool
  | .purgeReplies _ => Except String Unit

abbrev VacationTask := Prog VacationCall VacationCall.Answer

def vacationCall (c : VacationCall) : VacationTask c.Answer :=
  Prog.perform (R := VacationCall.Answer) c

/-! ### `db::vacation` -/

/-- Whether to reply to a sender now; if so, the time is recorded. -/
def shouldReplyAndRecord (sender : String) (intervalHours : Int) :
    VacationTask (Except String Bool) := do
  match ← vacationCall (.findReply sender) with
  | .error e => pure (.error ("Failed to query vacation_replies: " ++ e))
  | .ok none =>
    match ← vacationCall (.insertReply sender) with
    | .error e => pure (.error ("Failed to insert vacation_reply: " ++ e))
    | .ok _ => pure (.ok true)
  | .ok (some repliedAt) =>
    match ← vacationCall (.elapsedHours sender repliedAt intervalHours) with
    | .error e => pure (.error ("Failed to compute elapsed time: " ++ e))
    | .ok elapsed =>
      if elapsed < intervalHours then pure (.ok false)
      else match ← vacationCall (.updateReply sender) with
        | .error e => pure (.error ("Failed to update vacation_replies: " ++ e))
        | .ok _ => pure (.ok true)

/-- `i64` arithmetic. -/
def wrap64 (n : Int) : Int := n.bmod 18446744073709551616

/-- Forget replies longer ago than twice the interval. -/
def purgeOldReplies (intervalHours : Int) : VacationTask (Except String Unit) := do
  match ← vacationCall (.purgeReplies (wrap64 (intervalHours * 2))) with
  | .error e => pure (.error ("Failed to purge vacation_replies: " ++ e))
  | .ok _ => pure (.ok ())

/-! ### The responder -/

/-- What the responder needs of its surroundings. -/
structure ResponderConfig where
  lower : String → String
  smtpHost : String
  email : String

def autoReply (email : String) (vacation : VacationResponder) (sender : String) : SendableMessage :=
  ⟨email,[sender],vacation.subject,vacation.body,true⟩

/-- No reply to the own address, to an empty sender or to automated mail. -/
def ResponderConfig.passesOver (config : ResponderConfig) (sender : String) : Bool :=
  sender.isEmpty || eqIgnoreAsciiCase sender config.email || isAutomatedSender config.lower sender

/-- The check of a sender on a pooled connection, and the reply. -/
def answerMessage (config : ResponderConfig) (vacation : VacationResponder) (sender : String) :
    VacationTask Unit :=
  if config.passesOver sender then pure ()
  else do
    match ← vacationCall (.withUserDb (some sender)) with
    | .error _ => pure ()
    | .ok _ =>
      match ← shouldReplyAndRecord sender vacation.replyIntervalHours with
      | .ok true => do
        let _ ← vacationCall (.sendMessage (autoReply config.email vacation sender))
        pure ()
      | _ => pure ()

def answerMessages (config : ResponderConfig) (vacation : VacationResponder) :
    List CachedMessage → VacationTask Unit
  | [] => pure ()
  | msg :: rest => do
    answerMessage config vacation msg.fromAddress
    answerMessages config vacation rest

/-- The responder's part in `process_new_messages`. -/
def answerNewMessages (config : ResponderConfig) (newMessages : List CachedMessage) :
    VacationTask Unit := do
  let settings ← vacationCall .getVacation
  let vacation := match settings with
    | .ok vacation => vacation
    | .error _ => unreadVacation
  if vacation.enabled then do
    let today ← vacationCall .today
    if vacationInDateRange vacation today ∧ ¬config.smtpHost.isEmpty then do
      answerMessages config vacation newMessages
      match ← vacationCall (.withUserDb none) with
      | .error _ => pure ()
      | .ok _ => do
        let _ ← purgeOldReplies vacation.replyIntervalHours
        pure ()
    else pure ()
  else pure ()

/-! ### The state -/

/-- What is on record: that a sender was looked up, that a reply was sent at a time, or that a
message was passed over at a time; the last two with the interval then in force. -/
inductive VacationRecord
  | asked (sender : String)
  | sent (sender : String) (time : Nat) (intervalHours : Int)
  | passed (sender : String) (time : Nat) (intervalHours : Int)
  deriving DecidableEq, Repr

/-- The settings and the table `vacation_replies` of (sender_email, replied_at), the clock and the
records. -/
structure VacationWorld where
  vacation : VacationResponder
  replies : Table (Prod.fst : String × Nat → String)
  now : Nat
  log : List VacationRecord

/-- What a call meets: an error of the database, an SMTP server that refuses, the local date. -/
structure VacationWeather where
  fails : Option String
  smtpDown : Bool
  today : String

namespace VacationWorld

variable (w : VacationWorld)

/-- The interval in force. -/
def interval : Int := w.vacation.replyIntervalHours

def record (rs : List VacationRecord) : VacationWorld := { w with log := w.log ++ rs }

/-- A message is passed over. -/
def pass (sender : String) : VacationWorld := w.record [.passed sender w.now w.interval]

def repliedAt (sender : String) : Option Nat := (w.replies.find? sender).map Prod.snd

/-- `CAST((julianday('now') - julianday(?1)) * 24 AS INTEGER)`. -/
def elapsed (repliedAt : Nat) : Int := ((w.now : Int) - repliedAt).tdiv 3600

def updateReply (sender : String) : VacationWorld :=
  { w with replies := w.replies.updateWhere (fun r => r.1 = sender) (fun r => (r.1,w.now)) (fun _ => rfl) }

def insertReply (sender : String) : VacationWorld :=
  { w with replies := w.replies.insertOrIgnore (sender,w.now) }

def purgeReplies (hours : Int) : VacationWorld :=
  { w with replies := w.replies.deleteWhere (fun r => hours < w.elapsed r.2) }

def tick (secs : Nat) : VacationWorld := { w with now := w.now + secs }

/-- `update_vacation`: an interval below an hour is refused. -/
def updateVacation (data : UpdateVacationResponder) : VacationWorld :=
  if data.replyIntervalHours.any (fun h => h < 1) then w
  else { w with vacation := data.apply w.vacation }

end VacationWorld

/-- Answer one call. -/
def vacationServe (weather : VacationWeather) :
    (c : VacationCall) → VacationWorld → c.Answer × VacationWorld
  | .getVacation, w =>
    match weather.fails with
    | some e => (.error e,w)
    | none => (.ok w.vacation,w)
  | .today, w => (weather.today,w)
  | .withUserDb sender, w =>
    match weather.fails with
    | some e => (.error e,match sender with | some sender => w.pass sender | none => w)
    | none => (.ok (),w)
  | .findReply sender, w =>
    match weather.fails with
    | some e => (.error e,w.pass sender)
    | none => (.ok (w.repliedAt sender),w.record [.asked sender])
  | .elapsedHours sender repliedAt intervalHours, w =>
    match weather.fails with
    | some e => (.error e,w.pass sender)
    | none =>
      (.ok (w.elapsed repliedAt),if w.elapsed repliedAt < intervalHours then w.pass sender else w)
  | .updateReply sender, w =>
    match weather.fails with
    | some e => (.error e,w.pass sender)
    | none => (.ok (),w.updateReply sender)
  | .insertReply sender, w =>
    match weather.fails with
    | some e => (.error e,w.pass sender)
    | none =>
      if (w.repliedAt sender).isSome then
        (.error "UNIQUE constraint failed: vacation_replies.sender_email",w.pass sender)
      else (.ok (),w.insertReply sender)
  | .sendMessage m, w =>
    if weather.smtpDown then (false,w.record (m.to_.map (.passed · w.now w.interval)))
    else (true,w.record (m.to_.map (.sent · w.now w.interval)))
  | .purgeReplies hours, w =>
    match weather.fails with
    | some e => (.error e,w)
    | none => (.ok (),w.purgeReplies hours)

end Rav
