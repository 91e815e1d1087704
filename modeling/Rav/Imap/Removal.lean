import Rav.Imap.FetchBody
import Rav.Imap.Mailbox
import Mathlib.Logic.Function.Basic

/-!
# `imap::client`, moving and expunging

The operations that take messages out of a folder: each sends its commands one after the other and goes
by how they are answered. A command may be carried out on some messages and not on others, and that is
independent of what the client is told.

## Main definitions

- `CommandWeather`, `RemovalWeather` — how the commands fare
- `ImapView`, `ImapTask`, `ImapTask.command` — the folders in a session, and commands to them
- `uidMv`, `uidCopy`, `uidStoreDeleted`, `uidExpunge`, `expunge` — the commands
- `moveMessage`, `expungeMessage`, `moveMessageBulk`, `expungeMessageBulk` — the client
-/

namespace Rav

/-! ### Messages of a folder -/

namespace Mailbox

/-- A message of this UID is there, with these flags. -/
def Holds (b : Mailbox) (uid : Nat) (flags : List String) : Prop :=
  ∃ m ∈ b.messages, m.uid = uid ∧ m.header.flags = flags

/-- Make a change if the server can. -/
def change (b : Mailbox) (c : Change) : Mailbox := (b.apply c).getD b

def expungeAll (b : Mailbox) (uids : List Nat) : Mailbox :=
  uids.foldl (fun b uid => b.change (.expunge uid)) b

/-- The messages of the folder that carry `\Deleted`. -/
def deleted (b : Mailbox) : List Nat :=
  (b.messages.filter (fun m => "\\Deleted" ∈ m.header.flags)).map Message.uid

variable {b b' : Mailbox} {uid : Nat} {flags : List String}

theorem Holds.mem_uids (h : b.Holds uid flags) : uid ∈ b.uids := by
  obtain ⟨m,hm,huid,-⟩ := h
  exact Mailbox.mem_uids.mpr ⟨m,hm,huid⟩

theorem exists_holds : (∃ flags, b.Holds uid flags) ↔ uid ∈ b.uids := by
  constructor
  · rintro ⟨flags,h⟩
    exact h.mem_uids
  · intro h
    obtain ⟨m,hm,huid⟩ := Mailbox.mem_uids.mp h
    exact ⟨m.header.flags,m,hm,huid,rfl⟩

theorem Holds.mem_deleted (h : b.Holds uid flags) : uid ∈ b.deleted ↔ "\\Deleted" ∈ flags := by
  obtain ⟨m,hm,rfl,rfl⟩ := h
  simp only [deleted,List.mem_map,List.mem_filter,decide_eq_true_eq]
  constructor
  · rintro ⟨n,⟨hn,hdel⟩,huid⟩
    exact eq_of_uid hn hm huid ▸ hdel
  · exact fun h => ⟨m,⟨hm,h⟩,rfl⟩

/-- Nothing but its own expunge and stores changes a message. -/
theorem Holds.change (h : b.Holds uid flags) {c : Change} (hr : ∀ b', c ≠ .rebuild b')
    (he : c ≠ .expunge uid) (hs : ∀ fs, c ≠ .storeFlags uid fs) : (b.change c).Holds uid flags := by
  obtain ⟨m,hm,huid,hflags⟩ := h
  cases c with
  | rebuild b' => exact absurd rfl (hr b')
  | deliver gap header body =>
    simp only [Mailbox.change,apply]
    split
    · exact ⟨m,List.mem_append_left _ hm,huid,hflags⟩
    · exact ⟨m,hm,huid,hflags⟩
  | expunge v =>
    simp only [Mailbox.change,apply]
    split
    · have hv : m.uid ≠ v := fun hv => he (by rw [← huid,hv])
      exact ⟨m,List.mem_filter.mpr ⟨hm,decide_eq_true hv⟩,huid,hflags⟩
    · exact ⟨m,hm,huid,hflags⟩
  | storeFlags v fs =>
    simp only [Mailbox.change,apply]
    split
    · have hv : m.uid ≠ v := fun hv => hs fs (by rw [← huid,hv])
      exact ⟨m,List.mem_map.mpr ⟨m,hm,if_neg hv⟩,huid,hflags⟩
    · exact ⟨m,hm,huid,hflags⟩

theorem uids_change_expunge (v : Nat) : (b.change (.expunge v)).uids = b.uids.erase v := by
  ext u
  rw [Finset.mem_erase]
  simp only [change,apply]
  split
  · simp only [Option.getD_some,Mailbox.mem_uids,expunge,List.mem_filter,decide_eq_true_eq]
    constructor
    · rintro ⟨m,⟨hm,hv⟩,rfl⟩
      exact ⟨hv,m,hm,rfl⟩
    · rintro ⟨hv,m,hm,rfl⟩
      exact ⟨m,⟨hm,hv⟩,rfl⟩
  · next h =>
    rw [Option.getD_none]
    constructor
    · intro hu
      refine ⟨?_,hu⟩
      rintro rfl
      exact h ⟨lt_uidNext hu,hu⟩
    · exact And.right

theorem mem_uids_expungeAll (us : List Nat) :
    uid ∈ (b.expungeAll us).uids ↔ uid ∈ b.uids ∧ uid ∉ us := by
  induction us generalizing b with
  | nil => simp [expungeAll]
  | cons v us ih =>
    have h := ih (b := b.change (.expunge v))
    rw [uids_change_expunge,Finset.mem_erase] at h
    rw [List.mem_cons,not_or]
    exact h.trans ⟨fun h => ⟨h.1.2,h.1.1,h.2⟩,fun h => ⟨⟨h.2.1,h.1⟩,h.2.2⟩⟩

theorem Holds.expungeAll {us : List Nat} (h : b.Holds uid flags) (hu : uid ∉ us) :
    (b.expungeAll us).Holds uid flags := by
  induction us generalizing b with
  | nil => exact h
  | cons v us ih =>
    obtain ⟨hv,hu⟩ := not_or.mp (fun hmem => hu (List.mem_cons.mpr hmem))
    refine ih (h.change (fun _ => Change.noConfusion) (fun he => hv ?_) (fun _ => Change.noConfusion)) hu
    injection he with he
    exact he.symm

end Mailbox

/-! ### Commands -/

/-- An error of the library; a BAD is shown as the given text. -/
inductive CommandError
  | bad (text : String)
  | error (e : AsyncImapError)
  deriving DecidableEq, Repr

namespace CommandError

/-- The server has answered NO or BAD. -/
def refused : CommandError → Bool
  | .bad _ => true
  | .error (.no _) => true
  | .error _ => false

def toImapError : CommandError → ImapError
  | .bad text => mapImapError (.other text)
  | .error e => mapImapError e

end CommandError

/-- How a command fares: the messages it is carried out on, whether sending it fails, and whether
reading the responses to it fails. -/
structure CommandWeather where
  reaches : Nat → Bool
  sent : Option CommandError
  read : Option CommandError

/-- How the commands of one operation fare, and whether the server has MOVE and UIDPLUS. A command it
does not have reaches no message. -/
structure RemovalWeather where
  move : Bool
  uidplus : Bool
  session : Connecting
  select : Option CommandError
  uidMv : CommandWeather
  uidCopy : CommandWeather
  uidStore : CommandWeather
  uidExpunge : CommandWeather
  expunge : CommandWeather

/-- The folders of the account, and the one the session has selected. -/
structure ImapView where
  folders : String → Mailbox
  selected : String

namespace ImapView

def source (v : ImapView) : Mailbox := v.folders v.selected

def setFolder (v : ImapView) (folder : String) (b : Mailbox) : ImapView :=
  { v with folders := Function.update v.folders folder b }

/-- One message of a UID MOVE. -/
def moveOne (target : String) (v : ImapView) (uid : Nat) : ImapView :=
  if target = v.selected then
    match v.source.moveWithin uid with
    | some b => v.setFolder v.selected b
    | none => v
  else
    match v.source.move (v.folders target) uid with
    | some (b,b') => (v.setFolder v.selected b).setFolder target b'
    | none => v

/-- One message of a UID COPY; a UID that is not there is no error. -/
def copyOne (target : String) (v : ImapView) (uid : Nat) : ImapView :=
  match v.source.messages.find? (fun m => m.uid = uid) with
  | some m => v.setFolder target ((v.folders target).change (.deliver 0 m.header m.body))
  | none => v

def storeOne (v : ImapView) (uid : Nat) : ImapView :=
  v.setFolder v.selected (v.source.addFlags uid ["\\Deleted"])

def expungeAll (v : ImapView) (uids : List Nat) : ImapView :=
  v.setFolder v.selected (v.source.expungeAll uids)

end ImapView

/-- The client in a session. -/
abbrev ImapTask := ExceptT ImapError (StateM ImapView)

/-- Carry out `f` on the server, and go on with the answer. -/
def ImapTask.command {α : Type} (f : ImapView → ImapView) (answer : Except ImapError α) : ImapTask α :=
  fun v => (answer,f v)

namespace ImapClient

/-- The first of two failures. -/
def failure (e e' : Option CommandError) : Except ImapError Unit :=
  match e.orElse (fun _ => e') with
  | some e => .error e.toImapError
  | none => .ok ()

section Commands

variable (w : RemovalWeather)

def acquire : ImapTask Unit := ImapTask.command id w.session.acquire

def select (folder : String) : ImapTask Unit :=
  ImapTask.command (fun v => { v with selected := folder }) (failure w.select none)

/-- `UID MOVE`, with how it is answered. -/
def uidMv (uids : List Nat) (target : String) : ImapTask (Option CommandError) :=
  ImapTask.command
    (fun v => (uids.filter (fun u => w.move && w.uidMv.reaches u)).foldl (ImapView.moveOne target) v)
    (.ok w.uidMv.sent)

def uidCopy (uids : List Nat) (target : String) : ImapTask Unit :=
  ImapTask.command (fun v => (uids.filter w.uidCopy.reaches).foldl (ImapView.copyOne target) v)
    (failure w.uidCopy.sent none)

/-- `UID STORE +FLAGS (\Deleted)`, its responses read to the end. -/
def uidStoreDeleted (uids : List Nat) : ImapTask Unit :=
  ImapTask.command (fun v => (uids.filter w.uidStore.reaches).foldl ImapView.storeOne v)
    (failure w.uidStore.sent w.uidStore.read)

/-- `UID EXPUNGE`: whether it could be sent. The responses are read to the end. -/
def uidExpunge (uids : List Nat) : ImapTask Bool :=
  ImapTask.command
    (fun v => v.expungeAll (v.source.deleted.filter
      (fun u => w.uidplus && w.uidExpunge.reaches u && uids.contains u)))
    (match w.uidExpunge.sent with
    | some _ => .ok false
    | none => (failure w.uidExpunge.read none).map (fun _ => true))

/-- `EXPUNGE`, its responses read to the end. -/
def expunge : ImapTask Unit :=
  ImapTask.command (fun v => v.expungeAll (v.source.deleted.filter w.expunge.reaches))
    (failure w.expunge.sent w.expunge.read)

end Commands

/-! ### Operations -/

/-- The fallback of a move: COPY, then flag `\Deleted`, then EXPUNGE. -/
def copyAndExpunge (w : RemovalWeather) (uids : List Nat) (target : String) : ImapTask Unit := do
  uidCopy w uids target
  uidStoreDeleted w uids
  expunge w

/-- Try UID MOVE first; fall back if the server refuses it. -/
def moveUids (w : RemovalWeather) (source : String) (uids : List Nat) (target : String) :
    ImapTask Unit := do
  acquire w
  select w source
  match ← uidMv w uids target with
  | none => pure ()
  | some e => if e.refused then copyAndExpunge w uids target else throw e.toImapError

/-- Flag `\Deleted`; then try UID EXPUNGE for precision, and fall back to EXPUNGE. -/
def expungeUids (w : RemovalWeather) (folder : String) (uids : List Nat) : ImapTask Unit := do
  acquire w
  select w folder
  uidStoreDeleted w uids
  let uidExpungeOk ← uidExpunge w uids
  if !uidExpungeOk then expunge w

def moveMessage (w : RemovalWeather) (source : String) (uid : Nat) (target : String) : ImapTask Unit :=
  moveUids w source [uid] target

def expungeMessage (w : RemovalWeather) (folder : String) (uid : Nat) : ImapTask Unit :=
  expungeUids w folder [uid]

def moveMessageBulk (w : RemovalWeather) (source : String) (uids : List Nat) (target : String) :
    ImapTask Unit :=
  if uids.isEmpty then pure () else moveUids w source uids target

def expungeMessageBulk (w : RemovalWeather) (folder : String) (uids : List Nat) : ImapTask Unit :=
  if uids.isEmpty then pure () else expungeUids w folder uids

end ImapClient

end Rav
