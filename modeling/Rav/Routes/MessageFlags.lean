import Rav.Db.Unread
import Rav.Error
import Rav.Realtime.Cycle

/-!
# `routes::messages`, the handlers that change messages

Flags, moves and removals: the server is asked first, and where it agrees the cache follows. Each
handler recounts the folder it changes; a move adjusts the count of the folder it leads to, and
invalidates it.

## Main definitions

- `updateFlags`, `bulkUpdateFlags`, `moveMessage`, `bulkMoveMessages`, `deleteMessageHandler`,
  `bulkDeleteMessages`, `markAllRead` — the handlers, for the server's answer
- `MessageRequest` — what the handlers are asked
- `MessageRequest.counted` — the handlers keep the counters right
-/

namespace Rav

/-! ### Flags -/

def isValidFlag (flag : String) : Bool :=
  let atom := if flag.toList.head? = some '\\' then flag.toList.tail else flag.toList
  !flag.isEmpty && flag.utf8ByteSize ≤ 64 && !atom.isEmpty &&
    atom.all (fun c => c.isAlphanum || ['$','_','-','+','.'].contains c)

def validateFlags (flags : List String) : Except AppError Unit :=
  if flags.all isValidFlag then .ok () else .error (.badRequest "invalid flag")

/-- Flags added to or removed from those of a row. -/
def editFlags (flags : List String) (add : Bool) (csv : String) : String :=
  let current := if csv = "" then [] else (splitAll [','] csv.toList).map String.ofList
  let edited :=
    if add then flags.foldl (fun fs f => if fs.contains f then fs else fs ++ [f]) current
    else current.filter (fun f => !flags.contains f)
  ",".intercalate edited

namespace Db

/-- Read the flags of a message, edit them and write them back. -/
def editMessageFlags (db : Db) (folder : String) (uid : Nat) (flags : List String) (add : Bool) : Db :=
  let csv := ((db.message? folder uid).map CachedMessage.flags).getD ""
  db.updateMessageFlags folder uid (editFlags flags add csv)

/-- Whether the cache has the message, without `\Seen`. -/
def wasUnread (db : Db) (folder : String) (uid : Nat) : Bool :=
  ((db.getSingleMessage folder uid).map (fun m => !strContains m.flags "\\Seen")).getD false

/-- The UIDs that are not cached, in order. -/
def failedUids (db : Db) (folder : String) (uids : List Nat) : List Nat :=
  (uids.filter (fun u => !(db.filterExistingUids folder uids).contains u)).insertionSort (· ≤ ·)

/-- The UIDs that are cached. -/
def foundUids (db : Db) (folder : String) (uids : List Nat) : List Nat :=
  uids.filter (fun u => (db.filterExistingUids folder uids).contains u)

end Db

/-! ### Handlers -/

/-- A handler's dealings with the cache, once the server has agreed. -/
def afterServer {α : Type} (server : Option ImapError) (db : Db) (k : Db → α × Db) :
    Except AppError α × Db :=
  match server with
  | some e => (.error (.serviceUnavailable ("IMAP error: " ++ e.display)),db)
  | none => (.ok (k db).1,(k db).2)

/-- `PATCH /api/messages/:folder/:uid/flags`. -/
def updateFlags (server : Option ImapError) (folder : String) (uid : Nat) (flags : List String)
    (add : Bool) (db : Db) : Except AppError Unit × Db :=
  match validateFlags flags with
  | .error e => (.error e,db)
  | .ok () => afterServer server db (fun db =>
      ((),(db.editMessageFlags folder uid flags add).refreshUnreadCount folder))

/-- `PATCH /api/messages/:folder/flags/bulk`. -/
def bulkUpdateFlags (server : Option ImapError) (folder : String) (uids : List Nat)
    (flags : List String) (add : Bool) (db : Db) : Except AppError (List Nat) × Db :=
  match validateFlags flags with
  | .error e => (.error e,db)
  | .ok () =>
    if uids.isEmpty then (.ok [],db)
    else afterServer server db (fun db =>
      (db.failedUids folder uids,((db.foundUids folder uids).foldl
        (fun db uid => db.editMessageFlags folder uid flags add) db).refreshUnreadCount folder))

/-- `POST /api/messages/move`. -/
def moveMessage (server : Option ImapError) (source : String) (uid : Nat) (target : String) (db : Db) :
    Except AppError Unit × Db :=
  afterServer server db (fun db =>
    let unread := db.wasUnread source uid
    let db := (db.deleteMessage source uid).refreshUnreadCount source
    let db := if unread then db.adjustUnreadCount target 1 else db
    ((),db.invalidateFolderFreshness target))

/-- One message of a bulk move: counted if it is unread, and removed. -/
def moveOne (source : String) (s : Nat × Db) (uid : Nat) : Nat × Db :=
  (if s.2.wasUnread source uid then s.1 + 1 else s.1,s.2.deleteMessage source uid)

/-- `POST /api/messages/move/bulk`. -/
def bulkMoveMessages (server : Option ImapError) (source : String) (uids : List Nat)
    (target : String) (db : Db) : Except AppError (List Nat) × Db :=
  if uids.isEmpty then (.ok [],db)
  else afterServer server db (fun db =>
    let moved := (db.foundUids source uids).foldl (moveOne source) (0,db)
    let db' := moved.2.refreshUnreadCount source
    let db' := if 0 < moved.1 then db'.adjustUnreadCount target moved.1 else db'
    (db.failedUids source uids,db'.invalidateFolderFreshness target))

/-- `DELETE /api/messages/:folder/:uid`. -/
def deleteMessageHandler (server : Option ImapError) (folder : String) (uid : Nat) (db : Db) :
    Except AppError Unit × Db :=
  afterServer server db (fun db => ((),(db.deleteMessage folder uid).refreshUnreadCount folder))

/-- `POST /api/messages/:folder/delete/bulk`. -/
def bulkDeleteMessages (server : Option ImapError) (folder : String) (uids : List Nat) (db : Db) :
    Except AppError (List Nat) × Db :=
  if uids.isEmpty then (.ok [],db)
  else afterServer server db (fun db =>
    (db.failedUids folder uids,
      (deleteUids folder (db.foundUids folder uids) db).refreshUnreadCount folder))

/-- `POST /api/folders/:folder/mark-all-read`. -/
def markAllRead (server : Option ImapError) (folder : String) (db : Db) : Except AppError Unit × Db :=
  afterServer server db (fun db => ((),(db.markAllSeen folder).refreshUnreadCount folder))

/-- What the handlers are asked. -/
inductive MessageRequest
  | updateFlags (folder : String) (uid : Nat) (flags : List String) (add : Bool)
  | bulkUpdateFlags (folder : String) (uids : List Nat) (flags : List String) (add : Bool)
  | moveMessage (source : String) (uid : Nat) (target : String)
  | bulkMoveMessages (source : String) (uids : List Nat) (target : String)
  | deleteMessage (folder : String) (uid : Nat)
  | bulkDeleteMessages (folder : String) (uids : List Nat)
  | markAllRead (folder : String)
  deriving DecidableEq, Repr

/-- What the handler makes of the cache. -/
def MessageRequest.cache (server : Option ImapError) (db : Db) : MessageRequest → Db
  | .updateFlags f u flags add => (Rav.updateFlags server f u flags add db).2
  | .bulkUpdateFlags f us flags add => (Rav.bulkUpdateFlags server f us flags add db).2
  | .moveMessage f u g => (Rav.moveMessage server f u g db).2
  | .bulkMoveMessages f us g => (Rav.bulkMoveMessages server f us g db).2
  | .deleteMessage f u => (Rav.deleteMessageHandler server f u db).2
  | .bulkDeleteMessages f us => (Rav.bulkDeleteMessages server f us db).2
  | .markAllRead f => (Rav.markAllRead server f db).2

/-! ### The counters stay right -/

section Counters

variable {db db' : Db} {f : String}

theorem Db.SameFolder.countedAt {g : String} (h : Db.SameFolder g db db') (hc : db.CountedAt g) :
    db'.CountedAt g :=
  hc.congr h.1 (Db.unreadCount_congr (fun u => congrArg _ (h.2 u)))

/-- A change within a folder that leaves the folder's counter right. -/
theorem Db.Counted.within (hc : db.Counted) (h : OnlyFolder f db db') (hf : db'.CountedAt f) :
    db'.Counted := by
  intro g
  by_cases hg : g = f
  · rw [hg]
    exact hf
  · exact (h g hg).countedAt (hc g)

theorem onlyFolder_updateMessagesWhere (p : CachedMessage → Bool) (k : CachedMessage → CachedMessage)
    (hk : ∀ r, (k r).key = r.key) (hp : ∀ r, p r = true → r.folder = f) :
    OnlyFolder f db (db.updateMessagesWhere p k hk) := by
  refine onlyFolder_of_rows (fun g => rfl) (fun g u hg => ?_)
  rw [Db.message?_updateMessagesWhere]
  cases hr : db.message? g u with
  | none => rfl
  | some r =>
    have hfolder : r.folder = g := (Db.message?_eq_some.mp hr).2.2
    have hnot : ¬p r = true := fun h => hg (hfolder.symm.trans (hp r h))
    rw [Option.map_some,if_neg hnot]

theorem onlyFolder_deleteMessage (u : Nat) : OnlyFolder f db (db.deleteMessage f u) := by
  refine onlyFolder_of_rows (fun g => rfl) (fun g v hg => ?_)
  rw [Db.message?_deleteMessage,if_neg (fun h => hg h.1)]

theorem onlyFolder_editMessageFlags (u : Nat) (flags : List String) (add : Bool) :
    OnlyFolder f db (db.editMessageFlags f u flags add) :=
  onlyFolder_updateMessagesWhere _ _ _ (fun r hr => by
    rw [Bool.and_eq_true,decide_eq_true_iff] at hr
    exact hr.1)

/-- What every step keeps to a folder, the whole loop does. -/
theorem onlyFolder_foldl {ι : Type} {k : Db → ι → Db} (hk : ∀ db i, OnlyFolder f db (k db i))
    (xs : List ι) (db : Db) : OnlyFolder f db (xs.foldl k db) := by
  induction xs generalizing db with
  | nil => exact onlyFolder_refl f db
  | cons x xs ih => exact onlyFolder_trans _ _ _ (hk db x) (ih _)

/-- The folder that is changed is recounted. -/
theorem Db.Counted.refresh (hc : db.Counted) (h : OnlyFolder f db db') :
    (db'.refreshUnreadCount f).Counted :=
  hc.within (onlyFolder_trans _ _ _ h (onlyFolder_updateFolder _ _)) Db.countedAt_refreshUnreadCount

/-- The folder a move leads to is adjusted and invalidated. -/
theorem Db.Counted.arrive (hc : db.Counted) (c : Prop) [Decidable c] (n : Int) :
    ((if c then db.adjustUnreadCount f n else db).invalidateFolderFreshness f).Counted := by
  refine hc.within ?_ Db.countedAt_invalidateFolderFreshness
  split
  · exact onlyFolder_trans _ _ _ (onlyFolder_updateFolder _ _) (onlyFolder_updateFolder _ _)
  · exact onlyFolder_updateFolder _ _

theorem onlyFolder_moveOne (us : List Nat) (s : Nat × Db) :
    OnlyFolder f s.2 (us.foldl (moveOne f) s).2 := by
  induction us generalizing s with
  | nil => exact onlyFolder_refl f s.2
  | cons u us ih => exact onlyFolder_trans _ _ _ (onlyFolder_deleteMessage u) (ih (moveOne f s u))

theorem counted_afterServer {α : Type} {server : Option ImapError} {k : Db → α × Db}
    (hc : db.Counted) (h : (k db).2.Counted) : (afterServer server db k).2.Counted := by
  cases server with
  | some e => exact hc
  | none => exact h

/-- Whatever a handler is asked and the server answers, the counters stay right. -/
theorem MessageRequest.counted (server : Option ImapError) (hc : db.Counted) (req : MessageRequest) :
    (req.cache server db).Counted := by
  cases req with
  | updateFlags f u flags add =>
    show (Rav.updateFlags server f u flags add db).2.Counted
    unfold Rav.updateFlags
    cases validateFlags flags with
    | error e => exact hc
    | ok _ =>
      refine counted_afterServer hc ?_
      exact hc.refresh (onlyFolder_editMessageFlags u flags add)
  | bulkUpdateFlags f us flags add =>
    show (Rav.bulkUpdateFlags server f us flags add db).2.Counted
    unfold Rav.bulkUpdateFlags
    cases validateFlags flags with
    | error e => exact hc
    | ok _ =>
      dsimp only
      split
      · exact hc
      · refine counted_afterServer hc (Db.Counted.refresh hc ?_)
        exact onlyFolder_foldl (fun db u => onlyFolder_editMessageFlags u flags add) _ db
  | moveMessage f u g =>
    exact counted_afterServer hc ((hc.refresh (onlyFolder_deleteMessage u)).arrive _ _)
  | bulkMoveMessages f us g =>
    show (Rav.bulkMoveMessages server f us g db).2.Counted
    unfold Rav.bulkMoveMessages
    split
    · exact hc
    · exact counted_afterServer hc ((hc.refresh (onlyFolder_moveOne _ (0,db))).arrive _ _)
  | deleteMessage f u =>
    exact counted_afterServer hc (hc.refresh (onlyFolder_deleteMessage u))
  | bulkDeleteMessages f us =>
    show (Rav.bulkDeleteMessages server f us db).2.Counted
    unfold Rav.bulkDeleteMessages
    split
    · exact hc
    · exact counted_afterServer hc
        (hc.refresh (onlyFolder_foldl (fun _ u => onlyFolder_deleteMessage u) _ _))
  | markAllRead f =>
    refine counted_afterServer hc (hc.refresh (onlyFolder_updateMessagesWhere _ _ _ (fun r hr => ?_)))
    rw [Bool.and_eq_true,decide_eq_true_iff] at hr
    exact hr.1

end Counters

end Rav
