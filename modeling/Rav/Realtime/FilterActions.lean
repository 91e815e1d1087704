import Rav.Routes.MessageFlags

/-!
# `realtime::idle`, the actions of filter rules

What the actions of the rules that match a new message do to it, one after the other, until one moves
the message out of INBOX. The cache follows the server, but no action recounts INBOX.

## Main definitions

- `performAction`, `performActions` — the actions on a message
- `ActionKeeps`, `ActionsKeep` — actions that leave INBOX as many unread messages
-/

namespace Rav

/-- `INSERT OR IGNORE INTO message_tags`; only a cached message can be tagged. -/
def Db.addTagToMessage (db : Db) (tagId : String) (uid : Nat) (folder : String) : Db :=
  if (db.message? folder uid).isSome ∧ (tagId,uid,folder) ∉ db.messageTags then
    { db with messageTags := db.messageTags ++ [(tagId,uid,folder)] }
  else db

/-- Set a flag of a message in INBOX; in the cache it takes the place of the others. -/
def filterFlag (uid : Nat) (flag : String) : Task Bool := do
  match ← Task.imap (.addFlags "INBOX" uid [flag]) with
  | .error _ => pure false
  | .ok _ => do
    Task.execute (fun db => db.updateMessageFlags "INBOX" uid flag)
    pure false

/-- Move a message out of INBOX; returns whether it is gone. -/
def filterMove (uid : Nat) (target : String) : Task Bool := do
  match ← Task.imap (.moveMessage "INBOX" uid target) with
  | .error _ => pure false
  | .ok _ => do
    Task.execute (fun db => db.deleteMessage "INBOX" uid)
    pure true

def forwardMail (sender forwardTo : String) (msg : CachedMessage) : SendableMessage :=
  ⟨sender,[forwardTo],"Fwd: " ++ msg.subject,
    "---------- Forwarded message ----------\nFrom: " ++ msg.fromAddress ++ "\nSubject: " ++
      msg.subject ++ "\n\n" ++ msg.snippet,false⟩

/-- One action on a new message; `smtp` is whether mail can be sent. -/
def performAction (smtp : Bool) (sender : String) (msg : CachedMessage) (a : FilterAction) :
    Task Bool :=
  if a.actionType = "mark_read" then filterFlag msg.uid "\\Seen"
  else if a.actionType = "mark_starred" then filterFlag msg.uid "\\Flagged"
  else if a.actionType = "move" then
    match a.actionValue with
    | some target => filterMove msg.uid target
    | none => pure false
  else if a.actionType = "delete" then filterMove msg.uid "Trash"
  else if a.actionType = "tag" then
    match a.actionValue with
    | some tagId => do
      Task.execute (fun db => db.addTagToMessage tagId msg.uid "INBOX")
      pure false
    | none => pure false
  else if a.actionType = "forward" ∧ smtp = true then
    match a.actionValue with
    | some forwardTo => do
      let _ ← Task.sendMessage (forwardMail sender forwardTo msg)
      pure false
    | none => pure false
  else pure false

/-- The actions in order, until the message is gone. -/
def performActions (smtp : Bool) (sender : String) (msg : CachedMessage) :
    List FilterAction → Task Bool
  | [] => pure false
  | a :: rest => do
    if ← performAction smtp sender msg a then pure true
    else performActions smtp sender msg rest

/-! ### What the actions do to the counter -/

/-- The server does what it is asked. -/
def Accepts (weather : Weather) (q : ImapCall) (w : World) : Prop :=
  ∃ r, ((Task.imap q).exec weather w).1 = .ok r

/-- The message, if INBOX has it, is unread or not. -/
def World.Shows (w : World) (uid : Nat) (unread : Bool) : Prop :=
  ∀ r, w.db.message? "INBOX" uid = some r → r.unread = unread

/-- Unless INBOX is invalidated, or the server refuses: a message is marked read, moved or deleted that
is read already, one is starred that is unread. -/
def ActionKeeps (weather : Weather) (msg : CachedMessage) (a : FilterAction) (w : World) : Prop :=
  w.db.Valid "INBOX" = true →
    (a.actionType = "mark_read" → Accepts weather (.addFlags "INBOX" msg.uid ["\\Seen"]) w →
      w.Shows msg.uid false) ∧
    (a.actionType = "mark_starred" → Accepts weather (.addFlags "INBOX" msg.uid ["\\Flagged"]) w →
      w.Shows msg.uid true) ∧
    (∀ target, a.actionType = "move" ∧ a.actionValue = some target ∨
        a.actionType = "delete" ∧ target = "Trash" →
      Accepts weather (.moveMessage "INBOX" msg.uid target) w → w.Shows msg.uid false)

/-- Each action does so when its turn comes. -/
def ActionsKeep (weather : Weather) (smtp : Bool) (sender : String) (msg : CachedMessage) :
    List FilterAction → World → Prop
  | [], _ => True
  | a :: rest, w => ActionKeeps weather msg a w ∧
    (((performAction smtp sender msg a).exec weather w).1 = false →
      ActionsKeep weather smtp sender msg rest ((performAction smtp sender msg a).exec weather w).2)

section

variable {weather : Weather} {w : World} {smtp : Bool} {sender : String} {msg : CachedMessage}

/-- A change of one message of INBOX that leaves it unread or read as it was. -/
theorem Db.Counted.inbox {db db' : Db} (hc : db.Counted) (h : OnlyFolder "INBOX" db db')
    (hrow : db'.folder? "INBOX" = db.folder? "INBOX")
    (hsame : db.Valid "INBOX" = true → ∀ u, (db'.message? "INBOX" u).any CachedMessage.unread =
      (db.message? "INBOX" u).any CachedMessage.unread) : db'.Counted := by
  refine hc.within h (fun row hr hvalid => ?_)
  have hr' : db.folder? "INBOX" = some row := hrow.symm.trans hr
  have hv : db.Valid "INBOX" = true := by
    unfold Db.Valid
    rw [hr']
    exact hvalid
  rw [Db.unreadCount_congr (hsame hv)]
  exact hc "INBOX" row hr' hvalid

/-- An answer of the server leaves the database, and then the rest follows. -/
theorem counted_imap_bind {q : ImapCall} {k : Except ImapError q.Reply → Task Bool}
    (hc : w.db.Counted) (herror : ∀ e, k (.error e) = pure false)
    (hok : ∀ r w', Accepts weather q w → w'.db = w.db →
      ((k (.ok r)).exec weather w').2.db.Counted) :
    ((Task.imap q >>= k).exec weather w).2.db.Counted := by
  have hdb : ((Task.imap q).exec weather w).2.db = w.db := handle_imap_db q
  rw [Task.exec_bind]
  cases hanswer : ((Task.imap q).exec weather w).1 with
  | error e =>
    rw [herror,Task.exec_pure]
    exact hdb.symm ▸ hc
  | ok r => exact hok r _ ⟨r,hanswer⟩ hdb

theorem counted_filterFlag {flag : String} {unread : Bool} (hc : w.db.Counted)
    (hflag : (!likeInfix "\\Seen" flag) = unread)
    (h : w.db.Valid "INBOX" = true → Accepts weather (.addFlags "INBOX" msg.uid [flag]) w →
      w.Shows msg.uid unread) : ((filterFlag msg.uid flag).exec weather w).2.db.Counted := by
  refine counted_imap_bind hc (fun e => rfl) (fun r w' hacc hdb => ?_)
  have hgoal : (w'.db.updateMessageFlags "INBOX" msg.uid flag).Counted := by
    rw [hdb]
    refine hc.inbox ?_ rfl (fun hv u => ?_)
    · refine onlyFolder_updateMessagesWhere _ _ _ (fun r hr => ?_)
      rw [Bool.and_eq_true,decide_eq_true_iff] at hr
      exact hr.1
    · rw [Db.message?_updateMessageFlags]
      cases hm : w.db.message? "INBOX" u with
      | none => rfl
      | some m =>
        by_cases hu : u = msg.uid
        · subst hu
          have hshow := h hv hacc m hm
          simp only [Option.map_some,and_self,if_true,Option.any_some]
          rw [hshow]
          exact hflag
        · simp [hu]
  exact hgoal

theorem counted_filterMove {target : String} (hc : w.db.Counted)
    (h : w.db.Valid "INBOX" = true → Accepts weather (.moveMessage "INBOX" msg.uid target) w →
      w.Shows msg.uid false) : ((filterMove msg.uid target).exec weather w).2.db.Counted := by
  refine counted_imap_bind hc (fun e => rfl) (fun r w' hacc hdb => ?_)
  have hgoal : (w'.db.deleteMessage "INBOX" msg.uid).Counted := by
    rw [hdb]
    refine hc.inbox (onlyFolder_deleteMessage _) rfl (fun hv u => ?_)
    rw [Db.message?_deleteMessage]
    split
    · next hu =>
      cases hm : w.db.message? "INBOX" u with
      | none => rfl
      | some m => exact (h hv hacc m (hu.2 ▸ hm)).symm
    · rfl
  exact hgoal

theorem counted_addTag {db : Db} (hc : db.Counted) (tagId : String) (uid : Nat) :
    (db.addTagToMessage tagId uid "INBOX").Counted := by
  unfold Db.addTagToMessage
  split
  · exact hc
  · exact hc

/-- An action that keeps the number of unread messages keeps the counters right. -/
theorem counted_performAction {a : FilterAction} (hc : w.db.Counted) (h : ActionKeeps weather msg a w) :
    ((performAction smtp sender msg a).exec weather w).2.db.Counted := by
  unfold performAction
  split
  · next hread => exact counted_filterFlag hc (by decide) (fun hv => (h hv).1 hread)
  split
  · next hstar => exact counted_filterFlag hc (by decide) (fun hv => (h hv).2.1 hstar)
  split
  · next hmove =>
    cases hvalue : a.actionValue with
    | none => exact hc
    | some target =>
      exact counted_filterMove hc (fun hv => (h hv).2.2 target (Or.inl ⟨hmove,hvalue⟩))
  split
  · next hdelete =>
    exact counted_filterMove hc (fun hv => (h hv).2.2 "Trash" (Or.inr ⟨hdelete,rfl⟩))
  split
  · cases a.actionValue with
    | none => exact hc
    | some tagId => exact counted_addTag hc tagId msg.uid
  split
  · cases a.actionValue with
    | none => exact hc
    | some forwardTo =>
      have hdb : ((Task.sendMessage (forwardMail sender forwardTo msg)).exec weather w).2.db = w.db := by
        show (handle weather (.sendMessage (forwardMail sender forwardTo msg)) w).2.db = w.db
        simp only [handle]
        split
        · rfl
        · rfl
      show ((Task.sendMessage (forwardMail sender forwardTo msg)).exec weather w).2.db.Counted
      rw [hdb]
      exact hc
  · exact hc

theorem counted_performActions {actions : List FilterAction} (hc : w.db.Counted)
    (h : ActionsKeep weather smtp sender msg actions w) :
    ((performActions smtp sender msg actions).exec weather w).2.db.Counted := by
  induction actions generalizing w with
  | nil => exact hc
  | cons a rest ih =>
    obtain ⟨hfirst,hrest⟩ := h
    have hc' : ((performAction smtp sender msg a).exec weather w).2.db.Counted :=
      counted_performAction hc hfirst
    unfold performActions
    rw [Task.exec_bind,Task.exec_ite]
    split
    · exact hc'
    · next hnot => exact ih hc' (hrest (Bool.eq_false_iff.mpr hnot))

end

end Rav
