import Rav.Prog
import Rav.Imap.Mailbox
import Rav.Db.Folders

/-!
# Tasks and their world

The program's asynchronous functions are written as `Task`s: trees of calls to the IMAP server,
to the user's database through `with_user_db`, to the event bus and to SMTP. Each call is one
atomic step; between two calls other tasks and the server may act.

The `World` is what tasks act on. `handle` answers one call under a `Weather`, which says for
each IMAP call what the server changes just before answering and whether the call fails.

## Main definitions

- `Call`, `Task` — the calls a task makes, and tasks
- `World`, `Weather`, `handle` — the state, its disturbances, the answer to one call
- `Task.exec` — a whole task with nothing else in between
-/

namespace Rav

/-- Calls to the IMAP client. -/
inductive ImapCall
  | folderStatus (folder : String)
  | folderStatusExtended (folder : String)
  | fetchChangedFlags (folder : String) (sinceModseq uidValidity : Nat)
  | fetchUidsAndFlags (folder : String)
  | fetchHeaders (folder : String) (set : UidSet)
  | fetchBody (folder : String) (uid : Nat)
  | addFlags (folder : String) (uid : Nat) (flags : List String)
  | moveMessage (folder : String) (uid : Nat) (target : String)
  deriving DecidableEq

def ImapCall.Reply : ImapCall → Type
  | .folderStatus _ => FolderStatus
  | .folderStatusExtended _ => FolderStatusExtended
  | .fetchChangedFlags _ _ _ => ChangedFlags
  | .fetchUidsAndFlags _ => List (Nat × List String)
  | .fetchHeaders _ _ => List ImapMessageHeader
  | .fetchBody _ _ => ImapMessageBody
  | .addFlags _ _ _ => Unit
  | .moveMessage _ _ _ => Unit

/-- What the event bus carries. -/
inductive MailEvent
  | newMail (folder : String) (count : Nat) (latestSender latestSubject : Option String)
  | flagsChanged (folder : String)
  | folderUpdated (folder : Option String)
  | folderStateChanged (folder : String) (count : Nat) (latestSender latestSubject : Option String)
  deriving DecidableEq, Repr

/-- The parameters of a background header fetch. -/
structure BackgroundSyncParams where
  folder : String
  uidRange : UidSet
  uidValidity : Nat
  exists_ : Nat
  deriving DecidableEq, Repr

/-- A mail handed to SMTP by the responder or by a forwarding rule. -/
structure SendableMessage where
  sender : String
  to_ : List String
  subject : String
  textBody : String
  autoSubmitted : Bool
  deriving DecidableEq, Repr

inductive Call : Type 1
  | imap (q : ImapCall)
  | withUserDb {β : Type} (f : Db → β × Db)
  | publish (e : MailEvent)
  | spawn (p : BackgroundSyncParams)
  | notifyWorker
  | sendMessage (m : SendableMessage)

def Call.Answer : Call → Type
  | .imap q => Except ImapError q.Reply
  | .withUserDb (β := β) _ => β
  | .publish _ => Unit
  | .spawn _ => Unit
  | .notifyWorker => Unit
  | .sendMessage _ => Bool

abbrev Task := Prog Call Call.Answer

/-- The server's mailboxes, the user's database, what has been published and sent, the background
fetches not yet run and the worker's bell. -/
structure World where
  server : String → Mailbox
  db : Db
  events : List MailEvent
  sent : List SendableMessage
  background : List BackgroundSyncParams
  bell : Bool

/-- What disturbs a task: changes the server makes before it answers a call, failing calls, and
whether SMTP refuses mail. -/
structure Weather where
  before : ImapCall → List (String × Change)
  fails : ImapCall → Option ImapError
  smtpDown : Bool

/-- A quiet server and no failure. -/
def calm : Weather := ⟨fun _ => [],fun _ => none,false⟩

namespace World

variable (w : World)

/-- A change of a mailbox; one the server cannot make does not happen. -/
def change (c : String × Change) : World :=
  match (w.server c.1).apply c.2 with
  | some b => { w with server := Function.update w.server c.1 b }
  | none => w

def drift (cs : List (String × Change)) : World := cs.foldl change w

/-- The server's answer to a call, and its state after it. -/
def reply : (q : ImapCall) → Except ImapError q.Reply × World
  | .folderStatus f => (.ok (w.server f).status,w)
  | .folderStatusExtended f => (.ok (w.server f).statusExtended,w)
  | .fetchChangedFlags f m v => (.ok ((w.server f).changedFlags m v),w)
  | .fetchUidsAndFlags f => (.ok (w.server f).uidsAndFlags,w)
  | .fetchHeaders f set => (.ok ((w.server f).headers set),w)
  | .fetchBody f uid => ((w.server f).body f uid,w)
  | .addFlags f uid flags =>
    (.ok (),{ w with server := Function.update w.server f ((w.server f).addFlags uid flags) })
  | .moveMessage f uid target =>
    if f = target then
      match (w.server f).moveWithin uid with
      | some b => (.ok (),{ w with server := Function.update w.server f b })
      | none => (.error (.protocolError "MOVE failed"),w)
    else
      match (w.server f).move (w.server target) uid with
      | some (b,t) =>
        (.ok (),{ w with server := Function.update (Function.update w.server f b) target t })
      | none => (.error (.protocolError "MOVE failed"),w)

end World

/-- Answer one call. -/
def handle (weather : Weather) : (c : Call) → World → c.Answer × World
  | .imap q, w =>
    let w := w.drift (weather.before q)
    match weather.fails q with
    | some e => (.error e,w)
    | none => w.reply q
  | .withUserDb f, w => ((f w.db).1,{ w with db := (f w.db).2 })
  | .publish e, w => ((),{ w with events := w.events ++ [e] })
  | .spawn p, w => ((),{ w with background := w.background ++ [p] })
  | .notifyWorker, w => ((),{ w with bell := true })
  | .sendMessage m, w =>
    if weather.smtpDown then (false,w) else (true,{ w with sent := w.sent ++ [m] })

namespace World

variable {w : World}

@[simp] theorem change_db (c : String × Change) : (w.change c).db = w.db := by
  unfold change
  split <;> rfl

@[simp] theorem drift_db (cs : List (String × Change)) : (w.drift cs).db = w.db := by
  induction cs generalizing w with
  | nil => rfl
  | cons c cs ih => exact (ih (w := w.change c)).trans (change_db c)

@[simp] theorem change_background (c : String × Change) :
    (w.change c).background = w.background := by
  unfold change
  split <;> rfl

@[simp] theorem drift_background (cs : List (String × Change)) :
    (w.drift cs).background = w.background := by
  induction cs generalizing w with
  | nil => rfl
  | cons c cs ih => exact (ih (w := w.change c)).trans (change_background c)

@[simp] theorem change_events (c : String × Change) : (w.change c).events = w.events := by
  unfold change
  split <;> rfl

@[simp] theorem drift_events (cs : List (String × Change)) : (w.drift cs).events = w.events := by
  induction cs generalizing w with
  | nil => rfl
  | cons c cs ih => exact (ih (w := w.change c)).trans (change_events c)

@[simp] theorem reply_db (q : ImapCall) : (w.reply q).2.db = w.db := by
  cases q with
  | moveMessage f u target =>
    unfold reply
    dsimp only
    split
    · split <;> rfl
    · split <;> rfl
  | _ => rfl

@[simp] theorem reply_events (q : ImapCall) : (w.reply q).2.events = w.events := by
  cases q with
  | moveMessage f u target =>
    unfold reply
    dsimp only
    split
    · split <;> rfl
    · split <;> rfl
  | _ => rfl

end World

/-- An IMAP call leaves the database alone. -/
@[simp] theorem handle_imap_db {weather : Weather} {w : World} (q : ImapCall) :
    (handle weather (.imap q) w).2.db = w.db := by
  simp only [handle]
  split
  · exact World.drift_db _
  · rw [World.reply_db,World.drift_db]

/-- Nor does it publish anything. -/
@[simp] theorem handle_imap_events {weather : Weather} {w : World} (q : ImapCall) :
    (handle weather (.imap q) w).2.events = w.events := by
  simp only [handle]
  split
  · exact World.drift_events _
  · rw [World.reply_events,World.drift_events]

namespace Task

def imap (q : ImapCall) : Task (Except ImapError q.Reply) := Prog.perform (R := Call.Answer) (.imap q)

def withUserDb {β : Type} (f : Db → β × Db) : Task β := Prog.perform (R := Call.Answer) (.withUserDb f)

/-- A database closure that only reads. -/
def query {β : Type} (f : Db → β) : Task β := withUserDb (fun db => (f db,db))

/-- A database closure that only writes. -/
def execute (f : Db → Db) : Task Unit := withUserDb (fun db => ((),f db))

def publish (e : MailEvent) : Task Unit := Prog.perform (R := Call.Answer) (.publish e)

def spawn (p : BackgroundSyncParams) : Task Unit := Prog.perform (R := Call.Answer) (.spawn p)

def notifyWorker : Task Unit := Prog.perform (R := Call.Answer) .notifyWorker

def sendMessage (m : SendableMessage) : Task Bool :=
  Prog.perform (R := Call.Answer) (.sendMessage m)

variable {α : Type}

/-- The whole task under a weather, with no other task in between. -/
def exec (weather : Weather) (t : Task α) (w : World) : α × World := t.run (handle weather) w

variable {weather : Weather} {w : World}

@[simp] theorem exec_pure (a : α) : exec weather (pure a) w = (a,w) := rfl

@[simp] theorem exec_bind {β : Type} (t : Task α) (f : α → Task β) :
    exec weather (t >>= f) w = exec weather (f (exec weather t w).1) (exec weather t w).2 :=
  Prog.run_bind _ _ _ _

@[simp] theorem exec_ite (c : Prop) [Decidable c] (s t : Task α) :
    exec weather (if c then s else t) w = if c then exec weather s w else exec weather t w :=
  Prog.run_ite _ _ _ _ _

@[simp] theorem exec_query {β : Type} (f : Db → β) : exec weather (query f) w = (f w.db,w) := rfl

@[simp] theorem exec_execute (f : Db → Db) :
    exec weather (execute f) w = ((),{ w with db := f w.db }) := rfl

@[simp] theorem exec_withUserDb {β : Type} (f : Db → β × Db) :
    exec weather (withUserDb f) w = ((f w.db).1,{ w with db := (f w.db).2 }) := rfl

@[simp] theorem exec_publish (e : MailEvent) :
    exec weather (publish e) w = ((),{ w with events := w.events ++ [e] }) := rfl

@[simp] theorem exec_spawn (p : BackgroundSyncParams) :
    exec weather (spawn p) w = ((),{ w with background := w.background ++ [p] }) := rfl

@[simp] theorem exec_notifyWorker : exec weather notifyWorker w = ((),{ w with bell := true }) := rfl

/-- A query first: the rest runs on what it read. -/
theorem exec_query_bind {β γ : Type} (k : Db → β) (g : β → Task γ) :
    exec weather (query k >>= g) w = exec weather (g (k w.db)) w := rfl

theorem exec_imap (q : ImapCall) : exec weather (imap q) w = handle weather (.imap q) w := rfl

/-- In calm weather the server answers from its mailboxes. -/
@[simp] theorem exec_imap_calm (q : ImapCall) : exec calm (imap q) w = w.reply q := rfl

end Task

end Rav
