import Rav.Db.Matching
import Rav.Realtime.FilterActions
import Rav.Sieve.Generator
import Rav.Account

/-!
# One engine for filter rules

Two loops go over the rules: `realtime::idle` runs them on new messages, leaving to the mail server those
its script can hold; `routes::filters::apply_filters_handler` runs them on every cached message of INBOX and
keeps account of what failed.

The rules that match a message, in the order of their priorities and up to the first that stops,
are what either loop is to apply: on arrival without those that run in the mail server's script.
The loop on arrival skips a rule of the script before it looks whether it stops, so it goes on to
rules that were stopped; and it counts a message as gone that was moved to INBOX itself.

## Main definitions

- `filterRules`, `filterMessages`, `filterNewMessages` — the rules on arrival
- `applyAction`, `applyRules`, `applyFilters` — the rules on request
- `Deed`, `FilterAction.deed` — what an action comes to
- `upToStop`, `engineRules` — the rules that are to be applied to a message
- `Whereabouts` — whether a message may still be acted on
- `StopKept`, `StaysOut` — no stopped rule acts, and no rule moves to INBOX
-/

namespace Rav

/-! ### On arrival -/

/-- The matching rules on one message; whether it is gone. -/
def filterRules (sieveActive smtp : Bool) (sender : String) (msg : CachedMessage) :
    List FilterRule → Task Bool
  | [] => pure false
  | rule :: rest =>
    if sieveActive && isSieveCapable rule then filterRules sieveActive smtp sender msg rest
    else do
      if ← performActions smtp sender msg rule.actions then pure true
      else if rule.stopProcessing then pure false
      else filterRules sieveActive smtp sender msg rest

/-- The messages in turn; the UIDs that were moved or deleted out of INBOX. -/
def filterMessages (env : MatchEnv) (sieveActive smtp : Bool) (sender : String) :
    List CachedMessage → Task (List Nat)
  | [] => pure []
  | msg :: rest => do
    let matched ← Task.query (fun db => db.matchingRules env msg.context)
    let gone ← filterRules sieveActive smtp sender msg matched
    let removed ← filterMessages env sieveActive smtp sender rest
    pure (if gone then msg.uid :: removed else removed)

/-- Only messages that survived filtering count as new mail. -/
def notifyNewMail (survivors : List CachedMessage) : Task Unit :=
  match survivors.getLast? with
  | some latest => Task.publish (.newMail "INBOX" survivors.length
      (if latest.fromAddress = "" then none else some latest.fromAddress) (some latest.subject))
  | none => pure ()

/-- `process_new_messages` from its filter rules on. -/
def filterNewMessages (env : MatchEnv) (sieveActive smtp : Bool) (sender : String)
    (maxUidBefore : Nat) : Task Unit := do
  let newMessages ← Task.query (fun db => db.getMessagesAfterUid "INBOX" maxUidBefore)
  let rules ← Task.query Db.listFilters
  if newMessages.isEmpty then pure ()
  else do
    let removed ← if rules.isEmpty then pure []
      else filterMessages env sieveActive smtp sender newMessages
    notifyNewMail (newMessages.filter (fun m => m.uid ∉ removed))

/-! ### On request -/

/-- What went wrong with an action on a message; SMTP errors have no IMAP cause. -/
structure ApplyError where
  uid : Nat
  action : String
  cause : Option ImapError
  deriving DecidableEq, Repr

def applyFlag (uid : Nat) (flag action : String) : Task (Bool × List ApplyError) := do
  match ← Task.imap (.addFlags "INBOX" uid [flag]) with
  | .error e => pure (false,[⟨uid,action,some e⟩])
  | .ok _ => do
    Task.execute (fun db => db.updateMessageFlags "INBOX" uid flag)
    pure (false,[])

def applyMove (uid : Nat) (target action : String) : Task (Bool × List ApplyError) := do
  match ← Task.imap (.moveMessage "INBOX" uid target) with
  | .error e => pure (false,[⟨uid,action,some e⟩])
  | .ok _ => do
    Task.execute (fun db => db.deleteMessage "INBOX" uid)
    pure (true,[])

/-- One action; whether the message is gone, and what failed. -/
def applyAction (smtp : Bool) (sender : String) (msg : CachedMessage) (a : FilterAction) :
    Task (Bool × List ApplyError) :=
  if a.actionType = "mark_read" then applyFlag msg.uid "\\Seen" "mark_read"
  else if a.actionType = "mark_starred" then applyFlag msg.uid "\\Flagged" "mark_starred"
  else if a.actionType = "move" then
    match a.actionValue with
    | some target => applyMove msg.uid target "move"
    | none => pure (false,[])
  else if a.actionType = "delete" then applyMove msg.uid "Trash" "delete"
  else if a.actionType = "tag" then
    match a.actionValue with
    | some tagId => do
      Task.execute (fun db => db.addTagToMessage tagId msg.uid "INBOX")
      pure (false,[])
    | none => pure (false,[])
  else if a.actionType = "forward" ∧ smtp = true then
    match a.actionValue with
    | some forwardTo => do
      let sent ← Task.sendMessage (forwardMail sender forwardTo msg)
      pure (false,if sent then [] else [⟨msg.uid,"forward",none⟩])
    | none => pure (false,[])
  else pure (false,[])

def applyActions (smtp : Bool) (sender : String) (msg : CachedMessage) :
    List FilterAction → Task (Bool × List ApplyError)
  | [] => pure (false,[])
  | a :: rest => do
    let first ← applyAction smtp sender msg a
    if first.1 then pure first
    else do
      let others ← applyActions smtp sender msg rest
      pure (others.1,first.2 ++ others.2)

def applyRules (smtp : Bool) (sender : String) (msg : CachedMessage) :
    List FilterRule → Task (Bool × List ApplyError)
  | [] => pure (false,[])
  | rule :: rest => do
    let first ← applyActions smtp sender msg rule.actions
    if first.1 then pure first
    else if rule.stopProcessing then pure first
    else do
      let others ← applyRules smtp sender msg rest
      pure (others.1,first.2 ++ others.2)

/-- The messages in turn; how many matched a rule, and what failed. -/
def applyMessages (env : MatchEnv) (smtp : Bool) (sender : String) :
    List CachedMessage → Task (Nat × List ApplyError)
  | [] => pure (0,[])
  | msg :: rest => do
    let matched ← Task.query (fun db => db.matchingRules env msg.context)
    if matched.isEmpty then applyMessages env smtp sender rest
    else do
      let first ← applyRules smtp sender msg matched
      let others ← applyMessages env smtp sender rest
      pure (others.1 + 1,first.2 ++ others.2)

/-- All cached messages of a folder, ascending. -/
def Db.listMessagesInFolder (db : Db) (folder : String) : List CachedMessage :=
  (db.rowsOf folder).insertionSort (fun r s => r.uid ≤ s.uid)

/-- `POST /api/filters/apply`. -/
def applyFilters (env : MatchEnv) (smtp : Bool) (sender : String) :
    Task (Nat × List ApplyError) := do
  let messages ← Task.query (fun db => db.listMessagesInFolder "INBOX")
  applyMessages env smtp sender messages

/-! ### What an action comes to -/

/-- An action with the value it needs. -/
inductive Deed
  | flag (name : String)
  | move (target : String)
  | tag (tagId : String)
  | forward (forwardTo : String)
  | nothing
  deriving DecidableEq, Repr

/-- An action without its value does nothing, nor does forwarding where no mail can be sent. -/
def FilterAction.deed (smtp : Bool) (a : FilterAction) : Deed :=
  if a.actionType = "mark_read" then .flag "\\Seen"
  else if a.actionType = "mark_starred" then .flag "\\Flagged"
  else if a.actionType = "move" then
    match a.actionValue with
    | some target => .move target
    | none => .nothing
  else if a.actionType = "delete" then .move "Trash"
  else if a.actionType = "tag" then
    match a.actionValue with
    | some tagId => .tag tagId
    | none => .nothing
  else if a.actionType = "forward" ∧ smtp = true then
    match a.actionValue with
    | some forwardTo => .forward forwardTo
    | none => .nothing
  else .nothing

def Deed.perform (sender : String) (msg : CachedMessage) : Deed → Task Bool
  | .flag name => filterFlag msg.uid name
  | .move target => filterMove msg.uid target
  | .tag tagId => Task.execute (fun db => db.addTagToMessage tagId msg.uid "INBOX") >>= fun _ => pure false
  | .forward forwardTo => Task.sendMessage (forwardMail sender forwardTo msg) >>= fun _ => pure false
  | .nothing => pure false

theorem performAction_eq (smtp : Bool) (sender : String) (msg : CachedMessage) (a : FilterAction) :
    performAction smtp sender msg a = (a.deed smtp).perform sender msg := by
  unfold performAction FilterAction.deed
  cases a.actionValue with
  | none =>
    simp only [apply_ite (Deed.perform sender msg)]
    rfl
  | some value =>
    simp only [apply_ite (Deed.perform sender msg)]
    rfl

end Rav

namespace Rav

/-! ### The rules that are to be applied -/

/-- The rules up to the first that stops, with it. -/
def upToStop : List FilterRule → List FilterRule
  | [] => []
  | rule :: rest => if rule.stopProcessing then [rule] else rule :: upToStop rest

/-- The rules after the first that stops. -/
def afterStop : List FilterRule → List FilterRule
  | [] => []
  | rule :: rest => if rule.stopProcessing then rest else afterStop rest

/-- A rule the application runs itself. -/
def inApp (sieveActive : Bool) (rule : FilterRule) : Bool := !(sieveActive && isSieveCapable rule)

/-- Of the matching rules, those that are to be applied by the application. -/
def engineRules (sieveActive : Bool) (matched : List FilterRule) : List FilterRule :=
  (upToStop matched).filter (inApp sieveActive)

def performRules (smtp : Bool) (sender : String) (msg : CachedMessage) (rules : List FilterRule) :
    Task Bool := performActions smtp sender msg (rules.flatMap FilterRule.actions)

theorem upToStop_cons (rule : FilterRule) (rest : List FilterRule) :
    upToStop (rule :: rest) = if rule.stopProcessing then [rule] else rule :: upToStop rest := rfl

theorem upToStop_filter (p : FilterRule → Bool) (rules : List FilterRule) :
    upToStop (rules.filter p) = (upToStop rules).filter p ++
      (if (rules.find? FilterRule.stopProcessing).any (fun r => !p r) then
        upToStop ((afterStop rules).filter p) else []) := by
  induction rules with
  | nil => rfl
  | cons rule rest ih =>
    by_cases hstop : rule.stopProcessing = true
    · by_cases hp : p rule = true
      · simp [upToStop,hstop,hp]
      · simp [upToStop,afterStop,hstop,hp]
    · by_cases hp : p rule = true
      · simp [upToStop,afterStop,hstop,hp,ih]
      · simp [upToStop,afterStop,hstop,hp,ih]

/-! ### The loops -/

section

variable {smtp : Bool} {sender : String} {msg : CachedMessage}

theorem performActions_cons (a : FilterAction) (rest : List FilterAction) :
    performActions smtp sender msg (a :: rest) = performAction smtp sender msg a >>= fun gone =>
      if gone then pure true else performActions smtp sender msg rest := rfl

theorem performActions_append (as bs : List FilterAction) :
    performActions smtp sender msg (as ++ bs) = performActions smtp sender msg as >>= fun gone =>
      if gone then pure true else performActions smtp sender msg bs := by
  induction as with
  | nil => rfl
  | cons a rest ih =>
    rw [List.cons_append,performActions_cons,performActions_cons,ih,Prog.bind_assoc]
    refine congrArg _ (funext fun gone => ?_)
    cases gone <;> rfl

theorem performRules_cons (rule : FilterRule) (rest : List FilterRule) :
    performRules smtp sender msg (rule :: rest) =
      performActions smtp sender msg rule.actions >>= fun gone =>
        if gone then pure true else performRules smtp sender msg rest := performActions_append _ _

/-- A rule with which a loop over rules ends. -/
theorem performRules_singleton (rule : FilterRule) :
    performRules smtp sender msg [rule] = performActions smtp sender msg rule.actions := by
  unfold performRules
  rw [List.flatMap_singleton]

theorem bind_stop (p : Task Bool) :
    (p >>= fun gone => if gone then pure true else pure false) = p := by
  induction p with
  | pure gone => cases gone <;> rfl
  | call c k ih => exact congrArg (Prog.call c) (funext ih)

/-- The loop on arrival applies the rules of the application, up to the first of these that
stops. -/
theorem filterRules_eq (sieveActive : Bool) (rules : List FilterRule) :
    filterRules sieveActive smtp sender msg rules =
      performRules smtp sender msg (upToStop (rules.filter (inApp sieveActive))) := by
  induction rules with
  | nil => rfl
  | cons rule rest ih =>
    unfold filterRules
    cases hskip : sieveActive && isSieveCapable rule with
    | true =>
      rw [List.filter_cons_of_neg (by simp [inApp,hskip])]
      exact ih
    | false =>
      rw [List.filter_cons_of_pos (by simp [inApp,hskip]),upToStop_cons]
      cases rule.stopProcessing with
      | true => exact (bind_stop _).trans (performRules_singleton _).symm
      | false => exact ih ▸ (performRules_cons _ _).symm

/-- The actions on request, without the account of what failed. -/
def heedless (p : Task (Bool × List ApplyError)) : Task Bool := p >>= fun r => pure r.1

theorem heedless_bind {p : Task (Bool × List ApplyError)}
    {k : Bool × List ApplyError → Task (Bool × List ApplyError)} {k' : Bool → Task Bool}
    (h : ∀ r, heedless (k r) = k' r.1) : heedless (p >>= k) = heedless p >>= k' := by
  unfold heedless
  rw [Prog.bind_assoc,Prog.bind_assoc]
  exact congrArg _ (funext h)

theorem heedless_applyFlag (uid : Nat) (flag action : String) :
    heedless (applyFlag uid flag action) = filterFlag uid flag :=
  congrArg (Prog.call _) (funext fun answer => by cases answer <;> rfl)

theorem heedless_applyMove (uid : Nat) (target action : String) :
    heedless (applyMove uid target action) = filterMove uid target :=
  congrArg (Prog.call _) (funext fun answer => by cases answer <;> rfl)

theorem heedless_ite {c : Prop} [Decidable c] (p q : Task (Bool × List ApplyError)) :
    heedless (if c then p else q) = if c then heedless p else heedless q := apply_ite heedless c p q

theorem heedless_applyAction (a : FilterAction) :
    heedless (applyAction smtp sender msg a) = performAction smtp sender msg a := by
  unfold applyAction performAction
  cases a.actionValue with
  | none =>
    simp only [heedless_ite,heedless_applyFlag,heedless_applyMove]
    rfl
  | some value =>
    simp only [heedless_ite,heedless_applyFlag,heedless_applyMove]
    rfl

theorem heedless_applyActions (actions : List FilterAction) :
    heedless (applyActions smtp sender msg actions) = performActions smtp sender msg actions := by
  induction actions with
  | nil => rfl
  | cons a rest ih =>
    refine (heedless_bind fun first => ?_).trans (congrArg (· >>= _) (heedless_applyAction a))
    obtain ⟨gone,errors⟩ := first
    cases gone with
    | true => rfl
    | false => exact (heedless_bind fun _ => rfl).trans ((Prog.bind_pure _).trans ih)

/-- The loop on request applies the rules up to the first that stops. -/
theorem heedless_applyRules (rules : List FilterRule) :
    heedless (applyRules smtp sender msg rules) =
      performRules smtp sender msg (upToStop rules) := by
  induction rules with
  | nil => rfl
  | cons rule rest ih =>
    have hstep : heedless (applyRules smtp sender msg (rule :: rest)) =
        performActions smtp sender msg rule.actions >>= fun gone =>
          if gone then pure true
          else if rule.stopProcessing then pure false
          else performRules smtp sender msg (upToStop rest) := by
      refine (heedless_bind fun first => ?_).trans
        (congrArg (· >>= _) (heedless_applyActions rule.actions))
      obtain ⟨gone,errors⟩ := first
      cases gone with
      | true => rfl
      | false =>
        cases rule.stopProcessing with
        | true => rfl
        | false => exact (heedless_bind fun _ => rfl).trans ((Prog.bind_pure _).trans ih)
    rw [hstep,upToStop_cons]
    cases rule.stopProcessing with
    | true => exact (bind_stop _).trans (performRules_singleton _).symm
    | false => exact (performRules_cons _ _).symm

/-! ### Messages that are gone -/

/-- Whether a message may still be acted on: it has been moved and its row is to go, or it is gone. -/
inductive Whereabouts
  | here
  | moved
  | gone
  deriving DecidableEq, Repr

/-- The row of a message that was moved out goes. -/
def forget (uid : Nat) : Call := .withUserDb (fun db => ((),db.deleteMessage "INBOX" uid))

def Whereabouts.Allows (uid : Nat) : Whereabouts → Call → Prop
  | .here, _ => True
  | .moved, c => c = forget uid
  | .gone, _ => False

def Whereabouts.next : Whereabouts → (c : Call) → c.Answer → Whereabouts
  | .here, .imap (.moveMessage _ _ _), .ok _ => .moved
  | .here, _, _ => .here
  | .moved, _, _ => .gone
  | .gone, _, _ => .gone

/-- After a move of the message nothing is done to it but to forget its row. -/
def Untouched (uid : Nat) (p : Task Bool) : Prop :=
  p.Follows (Whereabouts.Allows uid) Whereabouts.next
    (fun g gone => g = if gone then .gone else .here) .here

theorem untouched_pure (uid : Nat) : Untouched uid (pure false) := rfl

theorem untouched_filterFlag (uid : Nat) (flag : String) : Untouched uid (filterFlag uid flag) :=
  ⟨trivial,fun answer => by
    cases answer with
    | error e => rfl
    | ok r => exact ⟨trivial,fun _ => rfl⟩⟩

theorem untouched_filterMove (uid : Nat) (target : String) : Untouched uid (filterMove uid target) :=
  ⟨trivial,fun answer => by
    cases answer with
    | error e => rfl
    | ok r => exact ⟨rfl,fun _ => rfl⟩⟩

theorem untouched_performAction (a : FilterAction) :
    Untouched msg.uid (performAction smtp sender msg a) := by
  rw [performAction_eq]
  cases a.deed smtp with
  | flag name => exact untouched_filterFlag _ _
  | move target => exact untouched_filterMove _ _
  | tag tagId => exact ⟨trivial,fun _ => rfl⟩
  | forward forwardTo => exact ⟨trivial,fun _ => rfl⟩
  | nothing => rfl

theorem untouched_performActions (actions : List FilterAction) :
    Untouched msg.uid (performActions smtp sender msg actions) := by
  induction actions with
  | nil => rfl
  | cons a rest ih =>
    refine Prog.Follows.bind (untouched_performAction a) fun g gone hg => ?_
    subst hg
    cases gone with
    | true => rfl
    | false => exact ih

/-! ### Rules that were stopped -/

/-- A weather in which every call to a server fails. -/
def storm : Weather := ⟨fun _ => [],fun _ => some .authenticationFailed,true⟩

/-- The calls a task makes in it. -/
def stormCalls (p : Task Bool) (w : World) : Nat :=
  (p.log (handle storm) (fun _ _ => [()]) w).length

/-- In the storm an action goes no further than its first call. -/
theorem storm_performAction (a : FilterAction) (w : World) :
    ((performAction smtp sender msg a).exec storm w).1 = false ∧
      stormCalls (performAction smtp sender msg a) w = if a.deed smtp = .nothing then 0 else 1 := by
  rw [performAction_eq]
  cases a.deed smtp with
  | flag name => exact ⟨rfl,rfl⟩
  | move target => exact ⟨rfl,rfl⟩
  | tag tagId => exact ⟨rfl,rfl⟩
  | forward forwardTo => exact ⟨rfl,rfl⟩
  | nothing => exact ⟨rfl,rfl⟩

theorem stormCalls_bind (p : Task Bool) (k : Bool → Task Bool) (w : World) :
    stormCalls (p >>= k) w =
      stormCalls p w + stormCalls (k (p.exec storm w).1) (p.exec storm w).2 := by
  unfold stormCalls
  rw [Prog.log_bind,List.length_append]
  rfl

theorem stormCalls_performActions (actions : List FilterAction) (w : World) :
    stormCalls (performActions smtp sender msg actions) w =
      actions.countP (fun a => a.deed smtp ≠ .nothing) := by
  induction actions generalizing w with
  | nil => rfl
  | cons a rest ih =>
    obtain ⟨hfirst,hcalls⟩ := @storm_performAction smtp sender msg a w
    rw [performActions_cons,stormCalls_bind,hfirst,hcalls,if_neg Bool.false_ne_true,ih,
      List.countP_cons]
    by_cases ha : a.deed smtp = .nothing
    · simp [ha]
    · simp [ha,Nat.add_comm]

/-- Mailboxes nothing has been delivered to. -/
def emptyServer : String → Mailbox := fun _ => Mailbox.fresh 1 Nat.one_pos true true

/-- A database on which nothing has happened yet. -/
def World.fresh (db : Db) : World := ⟨emptyServer,db,[],[],[],false⟩

theorem performActions_idle {actions : List FilterAction} (h : ∀ a ∈ actions, a.deed smtp = .nothing) :
    performActions smtp sender msg actions = pure false := by
  induction actions with
  | nil => rfl
  | cons a rest ih =>
    rw [performActions_cons,performAction_eq,h a List.mem_cons_self]
    exact ih (fun b hb => h b (List.mem_cons_of_mem _ hb))

/-- What follows in a list of actions is of no effect exactly if it does nothing. -/
theorem performActions_append_eq_iff (as bs : List FilterAction) :
    performActions smtp sender msg (as ++ bs) = performActions smtp sender msg as ↔
      ∀ b ∈ bs, b.deed smtp = .nothing := by
  constructor
  · intro h b hb
    have hcalls := congrArg (fun p => stormCalls p (World.fresh .empty)) h
    simp only [stormCalls_performActions,List.countP_append] at hcalls
    have hnone : bs.countP (fun a => a.deed smtp ≠ .nothing) = 0 := by omega
    simpa using List.countP_eq_zero.mp hnone b hb
  · intro h
    rw [performActions_append,performActions_idle h]
    exact bind_stop _

/-- Where the first matching rule that stops is left to the server's script, none of the rules the
loop goes on to has an action that does something. -/
def StopKept (sieveActive smtp : Bool) (matched : List FilterRule) : Prop :=
  (matched.find? FilterRule.stopProcessing).any (fun r => !inApp sieveActive r) = true →
    ∀ rule ∈ upToStop ((afterStop matched).filter (inApp sieveActive)),
      ∀ a ∈ rule.actions, a.deed smtp = .nothing

theorem filterRules_eq_iff (sieveActive : Bool) (matched : List FilterRule) :
    filterRules sieveActive smtp sender msg matched =
        performRules smtp sender msg (engineRules sieveActive matched) ↔
      StopKept sieveActive smtp matched := by
  rw [filterRules_eq,upToStop_filter]
  unfold performRules engineRules StopKept
  rw [List.flatMap_append,performActions_append_eq_iff]
  split
  · next h =>
    rw [h]
    simp only [List.mem_flatMap,forall_exists_index,and_imp,forall_const]
    exact ⟨fun hb rule hrule a ha => hb a rule hrule ha,fun hb a rule hrule ha => hb rule hrule a ha⟩
  · next h =>
    simp only [List.flatMap_nil,List.not_mem_nil,false_implies,implies_true,true_iff]
    exact fun h' => absurd h' h

/-! ### New mail -/

/-- The name INBOX is the same in any case. -/
def isInbox (folder : String) : Bool := eqIgnoreAsciiCase folder "INBOX"

def leaving (folder : String) (uid : Nat) (target : String) : Except ImapError Unit → List Nat
  | .ok _ => if isInbox folder && !isInbox target then [uid] else []
  | .error _ => []

/-- The UID of a message that a call moves out of INBOX. -/
def movedOut (weather : Weather) : Call → World → List Nat
  | .imap (.moveMessage folder uid target), w =>
    leaving folder uid target (handle weather (.imap (.moveMessage folder uid target)) w).1
  | _, _ => []

/-- No action moves the message to INBOX, where it is. -/
def StaysOut (smtp : Bool) (actions : List FilterAction) : Prop :=
  ∀ a ∈ actions, ∀ target, a.deed smtp = .move target → isInbox target = false

/-- One call first: what is observed of it, then of the rest. -/
theorem log_imap_bind {weather : Weather} {γ : Type} (obs : Call → World → List γ) (q : ImapCall)
    (k : Except ImapError q.Reply → Task Bool) (w : World) :
    (Task.imap q >>= k).log (handle weather) obs w = obs (.imap q) w ++
      (k (handle weather (.imap q) w).1).log (handle weather) obs (handle weather (.imap q) w).2 := rfl

theorem exec_imap_bind {weather : Weather} (q : ImapCall) (k : Except ImapError q.Reply → Task Bool)
    (w : World) : (Task.imap q >>= k).exec weather w =
      (k (handle weather (.imap q) w).1).exec weather (handle weather (.imap q) w).2 := rfl

theorem movedOut_filterFlag (weather : Weather) (uid : Nat) (flag : String) (w : World) :
    (filterFlag uid flag).log (handle weather) (movedOut weather) w = [] ∧
      ((filterFlag uid flag).exec weather w).1 = false := by
  unfold filterFlag
  rw [log_imap_bind,exec_imap_bind]
  cases (handle weather (.imap (.addFlags "INBOX" uid [flag])) w).1 with
  | error e => exact ⟨rfl,rfl⟩
  | ok r => exact ⟨rfl,rfl⟩

theorem movedOut_filterMove {target : String} (h : isInbox target = false) (weather : Weather)
    (uid : Nat) (w : World) : (filterMove uid target).log (handle weather) (movedOut weather) w =
      if ((filterMove uid target).exec weather w).1 then [uid] else [] := by
  have hinbox : isInbox "INBOX" = true := by decide
  unfold filterMove
  rw [log_imap_bind,exec_imap_bind]
  show leaving _ _ _ (handle weather (.imap (.moveMessage "INBOX" uid target)) w).1 ++ _ = _
  cases (handle weather (.imap (.moveMessage "INBOX" uid target)) w).1 with
  | error e => rfl
  | ok r =>
    unfold leaving
    rw [hinbox,h]
    rfl

/-- The messages moved out are those reported gone. -/
theorem movedOut_performAction {weather : Weather} {a : FilterAction}
    (h : ∀ target, a.deed smtp = .move target → isInbox target = false) (w : World) :
    (performAction smtp sender msg a).log (handle weather) (movedOut weather) w =
      if ((performAction smtp sender msg a).exec weather w).1 then [msg.uid] else [] := by
  rw [performAction_eq]
  cases hd : a.deed smtp with
  | flag name =>
    obtain ⟨hlog,hgone⟩ := movedOut_filterFlag weather msg.uid name w
    unfold Deed.perform
    rw [hlog,hgone]
    rfl
  | move target => exact movedOut_filterMove (h target hd) weather msg.uid w
  | tag tagId => rfl
  | forward forwardTo => rfl
  | nothing => rfl

theorem movedOut_performActions {weather : Weather} {actions : List FilterAction}
    (h : StaysOut smtp actions) (w : World) :
    (performActions smtp sender msg actions).log (handle weather) (movedOut weather) w =
      if ((performActions smtp sender msg actions).exec weather w).1 then [msg.uid] else [] := by
  induction actions generalizing w with
  | nil => rfl
  | cons a rest ih =>
    have hfirst := @movedOut_performAction smtp sender msg weather a (h a List.mem_cons_self) w
    rw [performActions_cons,Prog.log_bind,hfirst,Task.exec_bind]
    show _ ++ Prog.log _ _ (if ((performAction smtp sender msg a).exec weather w).1 = true then _ else _) _ = _
    cases ((performAction smtp sender msg a).exec weather w).1 with
    | true => rfl
    | false => exact ih (fun b hb => h b (List.mem_cons_of_mem _ hb)) _

/-- A call of an action: neither the rules nor the events are its business. -/
def Beside (c : Call) : Prop := ∀ weather w,
  (handle weather c w).2.db.filterRules = w.db.filterRules ∧
    (handle weather c w).2.events = w.events

theorem aside_imap (q : ImapCall) : Beside (.imap q) :=
  fun _ _ => ⟨congrArg Db.filterRules (handle_imap_db q),handle_imap_events q⟩

theorem aside_execute {f : Db → Db} (h : ∀ db, (f db).filterRules = db.filterRules) :
    (Task.execute f).All Beside := Prog.all_perform fun _ w => ⟨h w.db,rfl⟩

theorem aside_filterFlag (uid : Nat) (flag : String) : (filterFlag uid flag).All Beside :=
  Prog.AllWhere.perform_bind (aside_imap _) fun answer _ => by
    cases answer with
    | error e => trivial
    | ok r => exact (aside_execute fun _ => rfl).bind fun _ => trivial

theorem aside_filterMove (uid : Nat) (target : String) : (filterMove uid target).All Beside :=
  Prog.AllWhere.perform_bind (aside_imap _) fun answer _ => by
    cases answer with
    | error e => trivial
    | ok r => exact (aside_execute fun _ => rfl).bind fun _ => trivial

theorem aside_performAction (a : FilterAction) : (performAction smtp sender msg a).All Beside := by
  rw [performAction_eq]
  cases a.deed smtp with
  | flag name => exact aside_filterFlag _ _
  | move target => exact aside_filterMove _ _
  | tag tagId =>
    refine (aside_execute fun db => ?_).bind fun _ => trivial
    unfold Db.addTagToMessage
    split
    · rfl
    · rfl
  | forward forwardTo =>
    refine (Prog.all_perform fun weather w => ?_).bind fun _ => trivial
    unfold handle
    split
    · exact ⟨rfl,rfl⟩
    · exact ⟨rfl,rfl⟩
  | nothing => trivial

theorem aside_performActions (actions : List FilterAction) :
    (performActions smtp sender msg actions).All Beside := by
  induction actions with
  | nil => trivial
  | cons a rest ih =>
    refine (aside_performAction a).bind fun gone => ?_
    cases gone with
    | true => trivial
    | false => exact ih

theorem aside_filterRules (sieveActive : Bool) (matched : List FilterRule) :
    (filterRules sieveActive smtp sender msg matched).All Beside :=
  filterRules_eq sieveActive matched ▸ aside_performActions _

/-- What actions keep while they run. -/
theorem Beside.exec {p : Task Bool} (hp : p.All Beside) (weather : Weather) (w : World) :
    (p.exec weather w).2.db.filterRules = w.db.filterRules ∧
      (p.exec weather w).2.events = w.events :=
  Prog.run_invariant (P := fun w' : World => w'.db.filterRules = w.db.filterRules ∧ w'.events = w.events)
    (fun _ _ _ => trivial)
    (fun _ _ hc hw => ⟨(hc _ _).1.trans hw.1,(hc _ _).2.trans hw.2⟩) hp ⟨rfl,rfl⟩

/-- The actions the loop on arrival goes through. -/
def loopActions (sieveActive : Bool) (matched : List FilterRule) : List FilterAction :=
  (upToStop (matched.filter (inApp sieveActive))).flatMap FilterRule.actions

/-- Without an effect of the rules that were stopped, only the others can move a message to INBOX. -/
theorem staysOut_loopActions {sieveActive : Bool} {matched : List FilterRule}
    (hstop : StopKept sieveActive smtp matched) :
    StaysOut smtp (loopActions sieveActive matched) ↔
      StaysOut smtp ((engineRules sieveActive matched).flatMap FilterRule.actions) := by
  unfold loopActions engineRules
  rw [upToStop_filter,List.flatMap_append]
  constructor
  · intro h a ha
    exact h a (List.mem_append_left _ ha)
  · intro h a ha target hd
    rcases List.mem_append.mp ha with ha | ha
    · exact h a ha target hd
    · split at ha
      · next hany =>
        obtain ⟨rule,hrule,ha⟩ := List.mem_flatMap.mp ha
        rw [hstop hany rule hrule a ha] at hd
        simp at hd
      · simp at ha

end

section

variable {env : MatchEnv} {sieveActive smtp : Bool} {sender : String} {weather : Weather}

theorem filterMessages_cons (msg : CachedMessage) (rest : List CachedMessage) :
    filterMessages env sieveActive smtp sender (msg :: rest) =
      Task.query (fun db => db.matchingRules env msg.context) >>= fun matched =>
        filterRules sieveActive smtp sender msg matched >>= fun gone =>
          filterMessages env sieveActive smtp sender rest >>= fun removed =>
            pure (if gone then msg.uid :: removed else removed) := rfl

theorem movedOut_query_bind {α β : Type} (k : Db → β) (g : β → Task α) (w : World) :
    (Task.query k >>= g).log (handle weather) (movedOut weather) w =
      (g (k w.db)).log (handle weather) (movedOut weather) w := rfl

/-- The loop over messages publishes nothing. -/
theorem events_filterMessages (msgs : List CachedMessage) (w : World) :
    ((filterMessages env sieveActive smtp sender msgs).exec weather w).2.events = w.events := by
  induction msgs generalizing w with
  | nil => rfl
  | cons msg rest ih =>
    rw [filterMessages_cons,Task.exec_query_bind,Task.exec_bind,Task.exec_bind,Task.exec_pure]
    exact (ih _).trans (Beside.exec (aside_filterRules _ _) weather w).2

/-- Where no message is moved to INBOX, those reported gone are those moved out. -/
theorem movedOut_filterMessages {db : Db} {msgs : List CachedMessage}
    (h : ∀ msg ∈ msgs, StaysOut smtp (loopActions sieveActive (db.matchingRules env msg.context)))
    {w : World} (hw : w.db.filterRules = db.filterRules) :
    (filterMessages env sieveActive smtp sender msgs).log (handle weather) (movedOut weather) w =
      ((filterMessages env sieveActive smtp sender msgs).exec weather w).1 := by
  induction msgs generalizing w with
  | nil => rfl
  | cons msg rest ih =>
    rw [filterMessages_cons,movedOut_query_bind,Task.exec_query_bind]
    generalize hp : filterRules sieveActive smtp sender msg (w.db.matchingRules env msg.context) = p
    have hfirst : p.log (handle weather) (movedOut weather) w =
        if (p.exec weather w).1 then [msg.uid] else [] := by
      rw [← hp,filterRules_eq]
      refine movedOut_performActions ?_ w
      rw [Db.matchingRules_congr hw]
      exact h msg List.mem_cons_self
    have hrules : (p.exec weather w).2.db.filterRules = db.filterRules :=
      (Beside.exec (hp ▸ aside_filterRules _ _) weather w).1.trans hw
    rw [Prog.log_bind,hfirst,Prog.log_bind,Task.exec_bind,Task.exec_bind,Task.exec_pure]
    show _ ++ (Prog.log _ _ _ (p.exec weather w).2 ++ []) = _
    rw [ih (fun m hm => h m (List.mem_cons_of_mem _ hm)) hrules,List.append_nil]
    cases (p.exec weather w).1 with
    | true => rfl
    | false => rfl

/-- How many messages an event counts as new. -/
def MailEvent.newMailCount : MailEvent → Option Nat
  | .newMail _ count _ _ => some count
  | _ => none

/-- A `NewMail` event, if there is anything new. -/
def announcedCounts (msgs : List CachedMessage) : List Nat := if msgs.isEmpty then [] else [msgs.length]

theorem events_notifyNewMail (survivors : List CachedMessage) (w : World) :
    ∃ es, ((notifyNewMail survivors).exec weather w).2.events = w.events ++ es ∧
      es.filterMap MailEvent.newMailCount = announcedCounts survivors := by
  unfold notifyNewMail announcedCounts
  cases hlast : survivors.getLast? with
  | none =>
    rw [List.getLast?_eq_none_iff.mp hlast]
    exact ⟨[],(List.append_nil _).symm,rfl⟩
  | some latest =>
    have hne : survivors ≠ [] := fun h => by simp [h] at hlast
    rw [List.isEmpty_eq_false_iff.mpr hne]
    exact ⟨_,rfl,rfl⟩

/-- Without rules nothing happens to any message. -/
theorem filterMessages_idle {w : World} (h : w.db.listFilters = []) (msgs : List CachedMessage) :
    (filterMessages env sieveActive smtp sender msgs).exec weather w = ([],w) ∧
      (filterMessages env sieveActive smtp sender msgs).log (handle weather) (movedOut weather) w =
        [] := by
  induction msgs with
  | nil => exact ⟨rfl,rfl⟩
  | cons msg rest ih =>
    have hnone : w.db.matchingRules env msg.context = [] := by
      unfold Db.matchingRules
      rw [h]
      rfl
    rw [filterMessages_cons,movedOut_query_bind,Task.exec_query_bind,hnone]
    show ((filterMessages env sieveActive smtp sender rest >>= pure).exec weather w = _ ∧
      (filterMessages env sieveActive smtp sender rest >>= pure).log _ _ w = _)
    rw [Prog.bind_pure]
    exact ih

/-- The messages that arrived, the loop over them, and what is published. -/
theorem filterNewMessages_spec (maxUidBefore : Nat) (w : World) :
    let newMessages := w.db.getMessagesAfterUid "INBOX" maxUidBefore
    let loop := filterMessages env sieveActive smtp sender newMessages
    let task := filterNewMessages env sieveActive smtp sender maxUidBefore
    task.log (handle weather) (movedOut weather) w = loop.log (handle weather) (movedOut weather) w ∧
      ∃ es, (task.exec weather w).2.events = w.events ++ es ∧
        es.filterMap MailEvent.newMailCount =
          announcedCounts (newMessages.filter (fun m => m.uid ∉ (loop.exec weather w).1)) := by
  intro newMessages loop task
  have htask : task =
      Task.query (fun db => db.getMessagesAfterUid "INBOX" maxUidBefore) >>= fun newMessages =>
        Task.query Db.listFilters >>= fun rules =>
          if newMessages.isEmpty then pure ()
          else if rules.isEmpty then notifyNewMail (newMessages.filter (fun m => m.uid ∉ ([] : List Nat)))
          else filterMessages env sieveActive smtp sender newMessages >>= fun removed =>
            notifyNewMail (newMessages.filter (fun m => m.uid ∉ removed)) := rfl
  have hnotify : ∀ msgs w, (notifyNewMail msgs).log (handle weather) (movedOut weather) w = [] := by
    intro msgs w
    unfold notifyNewMail
    split
    · rfl
    · rfl
  rw [htask,movedOut_query_bind,movedOut_query_bind,Task.exec_query_bind,Task.exec_query_bind]
  cases hnew : newMessages.isEmpty with
  | true =>
    have hnil : w.db.getMessagesAfterUid "INBOX" maxUidBefore = [] := List.isEmpty_iff.mp hnew
    simp only [loop,newMessages,hnil]
    exact ⟨rfl,[],(List.append_nil _).symm,rfl⟩
  | false =>
    rw [if_neg Bool.false_ne_true]
    by_cases hrules : w.db.listFilters = []
    · obtain ⟨hexec,hlog⟩ :=
        @filterMessages_idle env sieveActive smtp sender weather w hrules newMessages
      rw [if_pos (by simp [hrules]),hnotify,hlog,hexec]
      exact ⟨rfl,events_notifyNewMail _ _⟩
    · rw [if_neg (by simp [hrules]),Prog.log_bind,hnotify,List.append_nil,Task.exec_bind]
      refine ⟨rfl,?_⟩
      rw [← @events_filterMessages env sieveActive smtp sender weather newMessages w]
      exact events_notifyNewMail _ _

/-! ### A message moved to INBOX -/

/-- A weather in which the server takes one move and nothing else. -/
def letThrough (uid : Nat) (target : String) : Weather where
  before _ := []
  fails q := if q = .moveMessage "INBOX" uid target then none else some .authenticationFailed
  smtpDown := true

theorem letThrough_other {uid : Nat} {target : String} {q : ImapCall}
    (h : q ≠ .moveMessage "INBOX" uid target) (w : World) :
    handle (letThrough uid target) (.imap q) w = (.error .authenticationFailed,w) := by
  simp [handle,letThrough,World.drift,h]

/-- A mailbox without messages answers a move with success, and nothing has changed. -/
theorem letThrough_move (uid : Nat) (target : String) {w : World} (hw : w.server = emptyServer) :
    handle (letThrough uid target) (.imap (.moveMessage "INBOX" uid target)) w = (.ok (),w) := by
  have hmoves : ∀ f, (w.server f).moveWithin uid = some (w.server f) := by
    intro f
    rw [hw]
    rfl
  have hmove : ∀ f, (w.server f).move (w.server target) uid = some (w.server f,w.server target) := by
    intro f
    rw [hw]
    rfl
  simp only [handle,letThrough,if_true,World.drift,List.foldl_nil,World.reply,hmoves,hmove]
  split
  · rw [Function.update_eq_self]
    rfl
  · rw [Function.update_eq_self,Function.update_eq_self]
    rfl

theorem letThrough_server {uid : Nat} {target : String} (c : Call) {w : World}
    (hw : w.server = emptyServer) :
    (handle (letThrough uid target) c w).2.server = emptyServer := by
  cases c with
  | imap q =>
    by_cases hq : q = .moveMessage "INBOX" uid target
    · rw [hq,letThrough_move uid target hw]
      exact hw
    · rw [letThrough_other hq]
      exact hw
  | _ => exact hw

theorem letThrough_exec {α : Type} {uid : Nat} {target : String} (p : Task α) {w : World}
    (hw : w.server = emptyServer) : (p.exec (letThrough uid target) w).2.server = emptyServer := by
  induction p generalizing w with
  | pure a => exact hw
  | call c k ih => exact ih _ (letThrough_server c hw)

/-- A move to INBOX moves nothing out. -/
theorem movedOut_letThrough {uid : Nat} {target : String} (h : isInbox target = true) (q : ImapCall)
    (w : World) : movedOut (letThrough uid target) (.imap q) w = [] := by
  cases q with
  | moveMessage f u t =>
    show leaving f u t (handle (letThrough uid target) (.imap (.moveMessage f u t)) w).1 = []
    by_cases hq : ImapCall.moveMessage f u t = .moveMessage "INBOX" uid target
    · obtain ⟨rfl,rfl,rfl⟩ := ImapCall.moveMessage.inj hq
      unfold leaving
      split
      · simp [h]
      · rfl
    · rw [letThrough_other hq]
      rfl
  | _ => rfl

theorem log_letThrough {uid : Nat} {target : String} (h : isInbox target = true) {α : Type}
    (p : Task α) (w : World) :
    p.log (handle (letThrough uid target)) (movedOut (letThrough uid target)) w = [] := by
  induction p generalizing w with
  | pure a => rfl
  | call c k ih =>
    have hcall : movedOut (letThrough uid target) c w = [] := by
      cases c with
      | imap q => exact movedOut_letThrough h q w
      | _ => rfl
    show movedOut _ c w ++ _ = _
    rw [hcall]
    exact ih _ _

/-- The move is among the actions, so the message is reported gone. -/
theorem gone_performActions {msg : CachedMessage} {target : String} {actions : List FilterAction}
    (h : ∃ a ∈ actions, a.deed smtp = .move target) {w : World} (hw : w.server = emptyServer) :
    ((performActions smtp sender msg actions).exec (letThrough msg.uid target) w).1 = true := by
  induction actions generalizing w with
  | nil => simp at h
  | cons a rest ih =>
    rw [performActions_cons,Task.exec_bind,Task.exec_ite]
    split
    · rfl
    · next hstay =>
      refine ih ?_ (letThrough_exec _ hw)
      obtain ⟨b,hb,hd⟩ := h
      rcases List.mem_cons.mp hb with rfl | hb
      · refine absurd ?_ hstay
        rw [performAction_eq,hd]
        unfold Deed.perform filterMove
        rw [exec_imap_bind,letThrough_move _ _ hw]
        rfl
      · exact ⟨b,hb,hd⟩

theorem gone_filterMessages {db : Db} {msgs : List CachedMessage} {msg : CachedMessage} {target : String}
    (hmsg : msg ∈ msgs)
    (h : ∃ a ∈ loopActions sieveActive (db.matchingRules env msg.context), a.deed smtp = .move target)
    {w : World} (hw : w.server = emptyServer) (hrules : w.db.filterRules = db.filterRules) :
    msg.uid ∈ ((filterMessages env sieveActive smtp sender msgs).exec
      (letThrough msg.uid target) w).1 := by
  induction msgs generalizing w with
  | nil => simp at hmsg
  | cons m rest ih =>
    rw [filterMessages_cons,Task.exec_query_bind]
    generalize hp : filterRules sieveActive smtp sender m (w.db.matchingRules env m.context) = p
    have hrules' : (p.exec (letThrough msg.uid target) w).2.db.filterRules = db.filterRules :=
      (Beside.exec (hp ▸ aside_filterRules _ _) _ w).1.trans hrules
    rw [Task.exec_bind,Task.exec_bind,Task.exec_pure]
    rcases List.mem_cons.mp hmsg with rfl | hmsg
    · have hgone : (p.exec (letThrough msg.uid target) w).1 = true := by
        rw [← hp,filterRules_eq,Db.matchingRules_congr hrules]
        exact gone_performActions h hw
      rw [hgone]
      exact List.mem_cons_self
    · have hrest := ih hmsg (letThrough_exec p hw) hrules'
      show _ ∈ (if _ = true then _ else _)
      split
      · exact List.mem_cons_of_mem _ hrest
      · exact hrest

/-- A message counted as gone is one less that is announcedCounts. -/
theorem announced_ne {msgs : List CachedMessage} {p : CachedMessage → Bool}
    {msg : CachedMessage} (hmem : msg ∈ msgs) (hp : p msg = false) :
    announcedCounts (msgs.filter p) ≠ announcedCounts msgs := by
  intro h
  have hlt : (msgs.filter p).length < msgs.length :=
    List.length_filter_lt_length_iff_exists.mpr ⟨msg,hmem,by simp [hp]⟩
  have hne : msgs.isEmpty = false := List.isEmpty_eq_false_iff_exists_mem.mpr ⟨msg,hmem⟩
  unfold announcedCounts at h
  rw [hne,if_neg Bool.false_ne_true] at h
  split at h
  · simp at h
  · exact hlt.ne (List.cons.inj h).1

/-! ### The engine -/

/-- The messages that arrived and are announcedCounts are those that no action moved out of INBOX. -/
def CountsRemaining (env : MatchEnv) (sieveActive smtp : Bool) (sender : String) (maxUidBefore : Nat)
    (weather : Weather) (w : World) : Prop :=
  let task := filterNewMessages env sieveActive smtp sender maxUidBefore
  let remaining := (w.db.getMessagesAfterUid "INBOX" maxUidBefore).filter
    (fun m => m.uid ∉ task.log (handle weather) (movedOut weather) w)
  ∃ es, (task.exec weather w).2.events = w.events ++ es ∧
    es.filterMap MailEvent.newMailCount = announcedCounts remaining

/-- The rules of a database on a message: in the order of their priorities up to the first that
stops, none after the message is gone, alike on arrival and on request; and `NewMail` counts what
remains. -/
structure FilterEngineRight (env : MatchEnv) (sieveActive smtp : Bool) (sender : String) (db : Db)
    (maxUidBefore : Nat) : Prop where
  sorted : ∀ msg : CachedMessage, (db.matchingRules env msg.context).Pairwise
    (fun a b => a.priority ≤ b.priority)
  arrival : ∀ msg ∈ db.getMessagesAfterUid "INBOX" maxUidBefore,
    filterRules sieveActive smtp sender msg (db.matchingRules env msg.context) =
      performRules smtp sender msg (engineRules sieveActive (db.matchingRules env msg.context))
  request : ∀ msg ∈ db.listMessagesInFolder "INBOX",
    heedless (applyRules smtp sender msg (db.matchingRules env msg.context)) =
      performRules smtp sender msg (upToStop (db.matchingRules env msg.context))
  untouched : ∀ msg : CachedMessage,
    Untouched msg.uid
      (filterRules sieveActive smtp sender msg (db.matchingRules env msg.context)) ∧
    Untouched msg.uid
      (heedless (applyRules smtp sender msg (db.matchingRules env msg.context)))
  alike : sieveActive = false → ∀ msg : CachedMessage,
    filterRules sieveActive smtp sender msg (db.matchingRules env msg.context) =
      heedless (applyRules smtp sender msg (db.matchingRules env msg.context))
  counted : ∀ weather w, w.db = db →
    CountsRemaining env sieveActive smtp sender maxUidBefore weather w

theorem loops_alike (msg : CachedMessage) (matched : List FilterRule) :
    filterRules false smtp sender msg matched = heedless (applyRules smtp sender msg matched) := by
  have hall : matched.filter (inApp false) = matched := List.filter_eq_self.mpr fun _ _ => rfl
  rw [filterRules_eq,heedless_applyRules,hall]

theorem countsRemaining {db : Db} {maxUidBefore : Nat}
    (h : ∀ msg ∈ db.getMessagesAfterUid "INBOX" maxUidBefore,
      StaysOut smtp (loopActions sieveActive (db.matchingRules env msg.context)))
    {w : World} (hw : w.db = db) :
    CountsRemaining env sieveActive smtp sender maxUidBefore weather w := by
  subst hw
  obtain ⟨hlog,hevents⟩ :=
    @filterNewMessages_spec env sieveActive smtp sender weather maxUidBefore w
  dsimp only [CountsRemaining]
  rw [hlog,movedOut_filterMessages h rfl]
  exact hevents

/-- A rule that moves a message to INBOX: it is there and not counted. -/
theorem staysOut_of_counted {db : Db} {maxUidBefore : Nat}
    (h : ∀ weather w, w.db = db →
      CountsRemaining env sieveActive smtp sender maxUidBefore weather w) :
    ∀ msg ∈ db.getMessagesAfterUid "INBOX" maxUidBefore,
      StaysOut smtp (loopActions sieveActive (db.matchingRules env msg.context)) := by
  intro msg hmsg a ha target hd
  by_contra hin
  have hin : isInbox target = true := by simpa using hin
  obtain ⟨es,hes,hcount⟩ := h (letThrough msg.uid target) (World.fresh db) rfl
  obtain ⟨-,es',hes',hcount'⟩ := @filterNewMessages_spec env sieveActive smtp sender
    (letThrough msg.uid target) maxUidBefore (World.fresh db)
  have hsame : es = es' := List.append_cancel_left (hes.symm.trans hes')
  have hgone : msg.uid ∈ ((filterMessages env sieveActive smtp sender
      (db.getMessagesAfterUid "INBOX" maxUidBefore)).exec (letThrough msg.uid target)
        (World.fresh db)).1 :=
    gone_filterMessages hmsg ⟨a,ha,hd⟩ rfl rfl
  rw [hsame,hcount',log_letThrough hin] at hcount
  refine announced_ne hmsg ?_ (hcount.trans (congrArg announcedCounts ?_))
  · exact decide_eq_false (not_not.mpr hgone)
  · exact List.filter_eq_self.mpr fun m _ => by simp

theorem filterEngine_iff (env : MatchEnv) (sieveActive smtp : Bool) (sender : String) (db : Db)
    (maxUidBefore : Nat) :
    FilterEngineRight env sieveActive smtp sender db maxUidBefore ↔
      ∀ msg ∈ db.getMessagesAfterUid "INBOX" maxUidBefore,
        StopKept sieveActive smtp (db.matchingRules env msg.context) ∧
        StaysOut smtp ((engineRules sieveActive (db.matchingRules env msg.context)).flatMap
          FilterRule.actions) := by
  constructor
  · intro h msg hmsg
    have hstop := (filterRules_eq_iff sieveActive _).mp (h.arrival msg hmsg)
    exact ⟨hstop,(staysOut_loopActions hstop).mp (staysOut_of_counted h.counted msg hmsg)⟩
  · intro h
    exact {
      sorted := fun _ => Db.pairwise_matchingRules
      arrival := fun msg hmsg => (filterRules_eq_iff sieveActive _).mpr (h msg hmsg).1
      request := fun msg _ => heedless_applyRules _
      untouched := fun msg => ⟨filterRules_eq sieveActive _ ▸ untouched_performActions _,
        @heedless_applyRules smtp sender msg _ ▸ untouched_performActions _⟩
      alike := fun hsieve msg => hsieve ▸ loops_alike msg _
      counted := fun weather w hw => countsRemaining (fun msg hmsg =>
        (staysOut_loopActions (h msg hmsg).1).mpr (h msg hmsg).2) hw }

end

/-- A rule for mail of the boss that ends the rules, and one that tags mail. -/
def bossRules : List FilterRule :=
  [⟨"1","boss",true,0,[⟨"from","contains","boss@"⟩],"all",[⟨"mark_starred",none⟩],true,""⟩,
    ⟨"2","rest",true,1,[],"all",[⟨"tag",some "later"⟩],false,""⟩]

/-- A message of the boss, with these rules. -/
def bossDb : Db :=
  { ((Db.empty.insertFolderIfNew "INBOX" (some "/") "").upsertHeader "INBOX"
      { plainHeader with uid := 1, from_ := [⟨none,"Boss@example.com"⟩] }).getD .empty with
    filterRules := bossRules }

/-- Lower case of ASCII letters, and no regular expression. -/
def asciiEnv : MatchEnv := ⟨fun s => String.ofList (s.toList.map Char.toLower),fun _ => none⟩

/-- The first rule is the server's and stops; the second is run all the same. -/
theorem stopped_rule_runs :
    ¬FilterEngineRight asciiEnv true true "me@example.com" bossDb 0 := by
  intro h
  have hmem : ∃ msg ∈ bossDb.getMessagesAfterUid "INBOX" 0,
      bossDb.matchingRules asciiEnv msg.context = bossRules := by decide
  obtain ⟨msg,hmsg,hrules⟩ := hmem
  have hstop := (filterRules_eq_iff true _).mp (h.arrival msg hmsg)
  rw [hrules] at hstop
  exact absurd (hstop rfl ⟨"2","rest",true,1,[],"all",[⟨"tag",some "later"⟩],false,""⟩ (by decide)
    ⟨"tag",some "later"⟩ (by decide)) (by decide)

end Rav
