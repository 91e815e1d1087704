import Rav.FilterEngine
import Rav.Routes.Edits

/-!
# What filter rules do to flags

A flag action stores one flag on the server, which keeps the others, and then writes that flag over
all the flags in the cache. So the cache follows only where there is nothing to lose: the flags the
message has and those the actions name are one and the same.

## Main definitions

- `storedFlags` — the flags a task has the server store on a message
- `World.InStep` — the server has a message of INBOX under the flags the cache lists
- `FlagsFollow` — the flags afterwards are those before and those stored, and in step with the server
- `OneFlag` — there is nothing to lose
-/

namespace Rav

def storedOn (uid : Nat) (folder : String) (u : Nat) (flags : List String) :
    Except ImapError Unit → List String
  | .ok _ => if folder = "INBOX" ∧ u = uid then flags else []
  | .error _ => []

/-- The flags that a call has the server store on a message of INBOX. -/
def storedFlags (weather : Weather) (uid : Nat) : Call → World → List String
  | .imap (.addFlags folder u flags), w =>
    storedOn uid folder u flags (handle weather (.imap (.addFlags folder u flags)) w).1
  | _, _ => []

/-- The server has the message under these flags. -/
def World.Shown (w : World) (uid : Nat) (flags : List String) : Prop :=
  ∀ m ∈ (w.server "INBOX").messages, m.uid = uid → ∀ f, f ∈ m.header.flags ↔ f ∈ flags

/-- The server has the message under the flags the cache lists. -/
def World.InStep (w : World) (uid : Nat) : Prop :=
  ∀ r, w.db.message? "INBOX" uid = some r → w.Shown uid (listedFlags r.flags)

/-- A message that is still there has the flags it had and those that were stored, and the cache
stays in step with a server that changes nothing by itself. -/
def FlagsFollow (db : Db) (uid : Nat) (task : Task Bool) : Prop :=
  ∀ weather w r, w.db = db → db.message? "INBOX" uid = some r → (task.exec weather w).1 = false →
    ∃ r', (task.exec weather w).2.db.message? "INBOX" uid = some r' ∧
      (∀ f, f ∈ listedFlags r'.flags ↔ f ∈ listedFlags r.flags ∨
        f ∈ task.log (handle weather) (storedFlags weather uid) w) ∧
      (weather.before = (fun _ => []) → w.InStep uid → (task.exec weather w).2.InStep uid)

/-- The flags that actions name. -/
def namedFlags (smtp : Bool) (actions : List FilterAction) : List String :=
  actions.filterMap (fun a => match a.deed smtp with | .flag name => some name | _ => none)

/-- Where an action names a flag, the message has no other, and no action names another. -/
def OneFlag (smtp : Bool) (actions : List FilterAction) (flags : List String) : Prop :=
  ∀ f ∈ namedFlags smtp actions, ∀ g ∈ flags ++ namedFlags smtp actions, g = f

/-- The last of the flags written takes the place of all. -/
def overwrite (names : List String) (r : CachedMessage) : CachedMessage :=
  match names.getLast? with
  | some name => r.setFlags name
  | none => r

theorem overwrite_append (as bs : List String) (r : CachedMessage) :
    overwrite (as ++ bs) r = overwrite bs (overwrite as r) := by
  unfold overwrite
  rw [List.getLast?_append]
  cases bs.getLast? with
  | none => rfl
  | some b =>
    cases as.getLast? with
    | none => rfl
    | some a => rfl

/-- `UID STORE +FLAGS` keeps the flags there are. -/
theorem Mailbox.flags_addFlags {b : Mailbox} {uid : Nat} {flags : List String} {m' : Message}
    (hm' : m' ∈ (b.addFlags uid flags).messages) (hu : m'.uid = uid) :
    ∃ m ∈ b.messages, m.uid = uid ∧
      ∀ f, f ∈ m'.header.flags ↔ f ∈ m.header.flags ∨ f ∈ flags := by
  unfold Mailbox.addFlags at hm'
  split at hm'
  · next hnone => exact absurd hu (by simpa using List.find?_eq_none.mp hnone m' hm')
  · next m hfind =>
    have hm : m ∈ b.messages := List.mem_of_find?_eq_some hfind
    have hmu : m.uid = uid := by simpa using List.find?_some hfind
    obtain ⟨n,hn,rfl⟩ := List.mem_map.mp hm'
    by_cases hnu : n.uid = uid
    · refine ⟨n,hn,hnu,fun f => ?_⟩
      obtain rfl := Mailbox.eq_of_uid hn hm (hnu.trans hmu.symm)
      rw [if_pos hnu]
      by_cases hf : f ∈ n.header.flags
      · simp [Message.withFlags,hf]
      · simp [Message.withFlags,hf]
    · rw [if_neg hnu] at hu
      exact absurd hu hnu

/-! ### What the actions do -/

/-- Unless the message is gone after the task, the flags it had the server store are on the server,
and the last of them is all the cache has. -/
def Writes (weather : Weather) (uid : Nat) (p : Task Bool) (w : World) : Prop :=
  (p.exec weather w).1 = false →
    (p.exec weather w).2.db.message? "INBOX" uid = (w.db.message? "INBOX" uid).map
      (overwrite (p.log (handle weather) (storedFlags weather uid) w)) ∧
    (weather.before = (fun _ => []) → ∀ flags, w.Shown uid flags →
      (p.exec weather w).2.Shown uid (flags ++ p.log (handle weather) (storedFlags weather uid) w))

section

variable {weather : Weather} {uid : Nat} {w : World} {smtp : Bool} {sender : String}
  {msg : CachedMessage}

/-- A task that stores no flags and leaves the mailboxes and the message's row. -/
theorem Writes.of_still {p : Task Bool}
    (hlog : p.log (handle weather) (storedFlags weather uid) w = [])
    (hrow : (p.exec weather w).2.db.message? "INBOX" uid = w.db.message? "INBOX" uid)
    (hserver : weather.before = (fun _ => []) → (p.exec weather w).2.server = w.server) :
    Writes weather uid p w := by
  intro _
  rw [hlog]
  refine ⟨?_,fun hquiet flags h => ?_⟩
  · rw [hrow]
    cases w.db.message? "INBOX" uid with
    | none => rfl
    | some r => rfl
  · unfold World.Shown
    rw [hserver hquiet,List.append_nil]
    exact h

/-- A refused call changes nothing. -/
theorem reply_of_error {q : ImapCall} {e : ImapError} (h : (w.reply q).1 = .error e) :
    (w.reply q).2 = w := by
  cases q with
  | fetchBody f u => rfl
  | moveMessage f u target =>
    unfold World.reply at h ⊢
    dsimp only at h ⊢
    split
    · next hf =>
      rw [if_pos hf] at h
      split
      · next b hb => simp [hb] at h
      · rfl
    · next hf =>
      rw [if_neg hf] at h
      split
      · next b t hb => simp [hb] at h
      · rfl
  | _ => simp [World.reply] at h

theorem handle_of_error {q : ImapCall} {e : ImapError} (hquiet : weather.before = fun _ => [])
    (h : (handle weather (.imap q) w).1 = .error e) : (handle weather (.imap q) w).2 = w := by
  unfold handle at h ⊢
  dsimp only at h ⊢
  rw [hquiet] at h ⊢
  split
  · rfl
  · next hok =>
    rw [hok] at h
    exact reply_of_error h

/-- A `STORE` that goes through on a server that changes nothing by itself. -/
theorem handle_addFlags {name : String} {r : Unit} (hquiet : weather.before = fun _ => [])
    (h : (handle weather (.imap (.addFlags "INBOX" uid [name])) w).1 = .ok r) :
    ((handle weather (.imap (.addFlags "INBOX" uid [name])) w).2.server "INBOX") =
      (w.server "INBOX").addFlags uid [name] := by
  unfold handle at h ⊢
  dsimp only at h ⊢
  rw [hquiet] at h ⊢
  split
  · next e he => simp [he] at h
  · exact Function.update_self (β := fun _ : String => Mailbox) "INBOX" _ w.server

theorem filterFlag_error {name : String} {e : ImapError}
    (h : (handle weather (.imap (.addFlags "INBOX" uid [name])) w).1 = .error e) :
    (filterFlag uid name).log (handle weather) (storedFlags weather uid) w = [] ∧
      (filterFlag uid name).exec weather w =
        (false,(handle weather (.imap (.addFlags "INBOX" uid [name])) w).2) := by
  unfold filterFlag
  rw [log_imap_bind,exec_imap_bind,h]
  refine ⟨?_,rfl⟩
  show storedOn uid "INBOX" uid [name]
    (handle weather (.imap (.addFlags "INBOX" uid [name])) w).1 ++ [] = []
  rw [h]
  rfl

theorem filterFlag_ok {name : String} {r : Unit}
    (h : (handle weather (.imap (.addFlags "INBOX" uid [name])) w).1 = .ok r) :
    (filterFlag uid name).log (handle weather) (storedFlags weather uid) w = [name] ∧
      (filterFlag uid name).exec weather w =
        (false,{ (handle weather (.imap (.addFlags "INBOX" uid [name])) w).2 with
          db := w.db.updateMessageFlags "INBOX" uid name }) := by
  have hdb : (handle weather (.imap (.addFlags "INBOX" uid [name])) w).2.db = w.db := handle_imap_db _
  unfold filterFlag
  rw [log_imap_bind,exec_imap_bind,h]
  refine ⟨?_,?_⟩
  · show storedOn uid "INBOX" uid [name]
      (handle weather (.imap (.addFlags "INBOX" uid [name])) w).1 ++ [] = [name]
    rw [h]
    unfold storedOn
    rw [if_pos ⟨rfl,rfl⟩]
    rfl
  · rw [← hdb]
    rfl

theorem writes_filterFlag (name : String) : Writes weather uid (filterFlag uid name) w := by
  cases h : (handle weather (.imap (.addFlags "INBOX" uid [name])) w).1 with
  | error e =>
    obtain ⟨hlog,hexec⟩ := filterFlag_error h
    refine Writes.of_still hlog ?_ fun hquiet => ?_
    · rw [hexec,handle_imap_db]
    · rw [hexec,handle_of_error hquiet h]
  | ok r =>
    obtain ⟨hlog,hexec⟩ := filterFlag_ok h
    intro _
    rw [hlog,hexec]
    refine ⟨?_,fun hquiet flags hshown => ?_⟩
    · show (w.db.updateMessageFlags "INBOX" uid name).message? "INBOX" uid = _
      rw [Db.message?_updateMessageFlags]
      simp only [and_self,if_true]
      rfl
    · intro m' hm' hu f
      rw [handle_addFlags hquiet h] at hm'
      obtain ⟨m,hm,hmu,hflags⟩ := Mailbox.flags_addFlags hm' hu
      rw [hflags,hshown m hm hmu,List.mem_append]

theorem storedFlags_filterMove (target : String) :
    (filterMove uid target).log (handle weather) (storedFlags weather uid) w = [] := by
  unfold filterMove
  rw [log_imap_bind]
  cases (handle weather (.imap (.moveMessage "INBOX" uid target)) w).1 with
  | error e => rfl
  | ok r => rfl

/-- A message that is not gone was not moved. -/
theorem writes_filterMove (target : String) : Writes weather uid (filterMove uid target) w := by
  cases h : (handle weather (.imap (.moveMessage "INBOX" uid target)) w).1 with
  | error e =>
    have hexec : (filterMove uid target).exec weather w =
        (false,(handle weather (.imap (.moveMessage "INBOX" uid target)) w).2) := by
      unfold filterMove
      rw [exec_imap_bind,h]
      rfl
    refine Writes.of_still (storedFlags_filterMove target) ?_ fun hquiet => ?_
    · rw [hexec,handle_imap_db]
    · rw [hexec,handle_of_error hquiet h]
  | ok r =>
    intro hstay
    unfold filterMove at hstay
    rw [exec_imap_bind,h] at hstay
    simp at hstay

theorem writes_performAction (a : FilterAction) :
    Writes weather msg.uid (performAction smtp sender msg a) w := by
  rw [performAction_eq]
  cases a.deed smtp with
  | flag name => exact writes_filterFlag name
  | move target => exact writes_filterMove target
  | tag tagId =>
    refine Writes.of_still rfl ?_ fun _ => rfl
    show (w.db.addTagToMessage tagId msg.uid "INBOX").message? "INBOX" msg.uid = _
    unfold Db.addTagToMessage
    split
    · rfl
    · rfl
  | forward forwardTo =>
    have hsend : (handle weather (.sendMessage (forwardMail sender forwardTo msg)) w).2.db = w.db ∧
        (handle weather (.sendMessage (forwardMail sender forwardTo msg)) w).2.server = w.server := by
      unfold handle
      split
      · exact ⟨rfl,rfl⟩
      · exact ⟨rfl,rfl⟩
    exact Writes.of_still rfl (congrArg (fun db : Db => db.message? "INBOX" msg.uid) hsend.1) fun _ => hsend.2
  | nothing => exact Writes.of_still rfl rfl fun _ => rfl

theorem writes_performActions (actions : List FilterAction) :
    Writes weather msg.uid (performActions smtp sender msg actions) w := by
  induction actions generalizing w with
  | nil => exact Writes.of_still rfl rfl fun _ => rfl
  | cons a rest ih =>
    intro hstay
    rw [performActions_cons,Task.exec_bind,Task.exec_ite] at hstay
    rw [performActions_cons,Prog.log_bind,Task.exec_bind]
    cases hfirst : ((performAction smtp sender msg a).exec weather w).1 with
    | true => simp [hfirst] at hstay
    | false =>
      rw [hfirst,if_neg Bool.false_ne_true] at hstay
      have hwrites : Writes weather msg.uid (performAction smtp sender msg a) w := writes_performAction a
      obtain ⟨hrow,hserver⟩ := hwrites hfirst
      obtain ⟨hrow',hserver'⟩ := ih hstay
      have hrun : ((performAction smtp sender msg a).run (handle weather) w).1 = false := hfirst
      rw [hrun,if_neg Bool.false_ne_true]
      refine ⟨?_,fun hquiet flags hshown => ?_⟩
      · rw [hrow',hrow,Option.map_map]
        refine congrArg (Option.map · _) (funext fun r => ?_)
        exact (overwrite_append _ _ r).symm
      · rw [← List.append_assoc]
        exact hserver' hquiet _ (hserver hquiet flags hshown)

/-! ### What is lost -/

theorem mem_namedFlags {actions : List FilterAction} {f : String} :
    f ∈ namedFlags smtp actions ↔ ∃ a ∈ actions, a.deed smtp = .flag f := by
  unfold namedFlags
  rw [List.mem_filterMap]
  refine exists_congr fun a => and_congr_right fun _ => ?_
  cases a.deed smtp with
  | flag name => simp
  | _ => simp

theorem mem_storedFlags_performAction {a : FilterAction} {f : String}
    (h : f ∈ (performAction smtp sender msg a).log (handle weather)
      (storedFlags weather msg.uid) w) : a.deed smtp = .flag f := by
  rw [performAction_eq] at h
  cases hd : a.deed smtp with
  | flag name =>
    rw [hd] at h
    cases hans : (handle weather (.imap (.addFlags "INBOX" msg.uid [name])) w).1 with
    | error e =>
      have hnone : f ∈ ([] : List String) := (filterFlag_error hans).1 ▸ h
      simp at hnone
    | ok r =>
      have hone : f ∈ [name] := (filterFlag_ok hans).1 ▸ h
      rw [List.mem_singleton.mp hone]
  | move target =>
    rw [hd] at h
    exact absurd (storedFlags_filterMove (w := w) target ▸ h) List.not_mem_nil
  | tag tagId => exact absurd (hd ▸ h) List.not_mem_nil
  | forward forwardTo => exact absurd (hd ▸ h) List.not_mem_nil
  | nothing => exact absurd (hd ▸ h) List.not_mem_nil

/-- Only flags that an action names are stored. -/
theorem mem_storedFlags_performActions {actions : List FilterAction} {f : String}
    (h : f ∈ (performActions smtp sender msg actions).log (handle weather)
      (storedFlags weather msg.uid) w) : f ∈ namedFlags smtp actions := by
  induction actions generalizing w with
  | nil => exact absurd h List.not_mem_nil
  | cons a rest ih =>
    rw [performActions_cons,Prog.log_bind] at h
    rcases List.mem_append.mp h with h | h
    · exact mem_namedFlags.mpr ⟨a,List.mem_cons_self,mem_storedFlags_performAction h⟩
    · split at h
      · exact absurd h List.not_mem_nil
      · obtain ⟨b,hb,hd⟩ := mem_namedFlags.mp (ih h)
        exact mem_namedFlags.mpr ⟨b,List.mem_cons_of_mem _ hb,hd⟩

theorem deed_flag {a : FilterAction} {f : String} (h : a.deed smtp = .flag f) :
    f = "\\Seen" ∨ f = "\\Flagged" := by
  unfold FilterAction.deed at h
  split at h
  · exact Or.inl (Deed.flag.inj h).symm
  split at h
  · exact Or.inr (Deed.flag.inj h).symm
  · cases hvalue : a.actionValue with
    | none =>
      rw [hvalue] at h
      split_ifs at h
    | some value =>
      rw [hvalue] at h
      split_ifs at h

/-- The flags that actions name are listed alone. -/
theorem listedFlags_deed {a : FilterAction} {f : String} (h : a.deed smtp = .flag f) :
    listedFlags f = [f] := by
  rcases deed_flag h with rfl | rfl
  · decide
  · decide

theorem flagsFollow_of_oneFlag {db : Db} {actions : List FilterAction}
    (h : ∀ r, db.message? "INBOX" msg.uid = some r → OneFlag smtp actions (listedFlags r.flags)) :
    FlagsFollow db msg.uid (performActions smtp sender msg actions) := by
  intro weather w r hw hr hstay
  obtain ⟨hrow,hserver⟩ := writes_performActions actions hstay
  have hnamed : ∀ f ∈ (performActions smtp sender msg actions).log (handle weather)
      (storedFlags weather msg.uid) w, f ∈ namedFlags smtp actions :=
    fun f hf => mem_storedFlags_performActions hf
  generalize (performActions smtp sender msg actions).log (handle weather)
    (storedFlags weather msg.uid) w = names at *
  rw [hw,hr] at hrow
  have hflags : ∀ f, f ∈ listedFlags (overwrite names r).flags ↔ f ∈ listedFlags r.flags ∨ f ∈ names := by
    intro f
    unfold overwrite
    cases hlast : names.getLast? with
    | none => simp [List.getLast?_eq_none_iff.mp hlast]
    | some name =>
      have hname : name ∈ names := List.mem_of_getLast? hlast
      obtain ⟨a,-,hd⟩ := mem_namedFlags.mp (hnamed name hname)
      have hone := h r hr name (hnamed name hname)
      rw [CachedMessage.setFlags_flags,listedFlags_deed hd,List.mem_singleton]
      constructor
      · rintro rfl
        exact Or.inr hname
      · rintro (hf | hf)
        · exact hone f (List.mem_append_left _ hf)
        · exact hone f (List.mem_append_right _ (hnamed f hf))
  refine ⟨overwrite names r,hrow,hflags,fun hquiet hstep => ?_⟩
  intro r' hr' m hm hmu f
  obtain rfl : overwrite names r = r' := Option.some.inj (hrow.symm.trans hr')
  rw [hflags,hserver hquiet _ (hstep r (hw ▸ hr)) m hm hmu,List.mem_append]

/-- A weather in which the server stores flags, and every other call to a server fails. -/
def storesOnly : Weather where
  before _ := []
  fails
    | .addFlags _ _ _ => none
    | _ => some .authenticationFailed
  smtpDown := true

theorem storesOnly_other {q : ImapCall} (h : ∀ f u flags, q ≠ .addFlags f u flags) :
    handle storesOnly (.imap q) w = (.error .authenticationFailed,w) := by
  cases q with
  | addFlags f u flags => exact absurd rfl (h f u flags)
  | _ => rfl

theorem storesOnly_performAction (a : FilterAction) :
    ((performAction smtp sender msg a).exec storesOnly w).1 = false ∧
      (performAction smtp sender msg a).log (handle storesOnly) (storedFlags storesOnly msg.uid) w =
        namedFlags smtp [a] := by
  rw [performAction_eq]
  unfold namedFlags
  cases hd : a.deed smtp with
  | flag name =>
    have hok : (handle storesOnly (.imap (.addFlags "INBOX" msg.uid [name])) w).1 = .ok () := rfl
    obtain ⟨hlog,hexec⟩ := filterFlag_ok hok
    simp only [hd,List.filterMap_cons,List.filterMap_nil]
    exact ⟨congrArg Prod.fst hexec,hlog⟩
  | move target =>
    simp only [hd,List.filterMap_cons,List.filterMap_nil]
    exact ⟨rfl,storedFlags_filterMove target⟩
  | tag tagId =>
    simp only [hd,List.filterMap_cons,List.filterMap_nil]
    exact ⟨rfl,rfl⟩
  | forward forwardTo =>
    simp only [hd,List.filterMap_cons,List.filterMap_nil]
    exact ⟨rfl,rfl⟩
  | nothing =>
    simp only [hd,List.filterMap_cons,List.filterMap_nil]
    exact ⟨rfl,rfl⟩

theorem storesOnly_performActions (actions : List FilterAction) :
    ((performActions smtp sender msg actions).exec storesOnly w).1 = false ∧
      (performActions smtp sender msg actions).log (handle storesOnly) (storedFlags storesOnly msg.uid)
        w = namedFlags smtp actions := by
  induction actions generalizing w with
  | nil => exact ⟨rfl,rfl⟩
  | cons a rest ih =>
    obtain ⟨hstay,hlog⟩ := @storesOnly_performAction w smtp sender msg a
    have hrun : ((performAction smtp sender msg a).run (handle storesOnly) w).1 = false := hstay
    rw [performActions_cons,Prog.log_bind,Task.exec_bind,hlog,hstay,hrun,if_neg Bool.false_ne_true]
    refine ⟨ih.1,?_⟩
    rw [ih.2]
    show _ = namedFlags smtp ([a] ++ rest)
    exact List.filterMap_append.symm

theorem oneFlag_of_flagsFollow {db : Db} {actions : List FilterAction}
    (h : FlagsFollow db msg.uid (performActions smtp sender msg actions)) (r : CachedMessage)
    (hr : db.message? "INBOX" msg.uid = some r) : OneFlag smtp actions (listedFlags r.flags) := by
  intro f hf g hg
  obtain ⟨hstay,hlog⟩ := @storesOnly_performActions (World.fresh db) smtp sender msg actions
  obtain ⟨hrow,-⟩ := writes_performActions actions hstay
  obtain ⟨r',hr',hflags,-⟩ := h storesOnly (World.fresh db) r rfl hr hstay
  rw [hlog] at hrow hflags
  obtain rfl : overwrite (namedFlags smtp actions) r = r' := by
    rw [hr',show (World.fresh db).db.message? "INBOX" msg.uid = some r from hr] at hrow
    exact (Option.some.inj hrow).symm
  -- the last flag named is all that is left, so each flag is this one
  obtain ⟨name,hlast⟩ : ∃ name, (namedFlags smtp actions).getLast? = some name :=
    Option.isSome_iff_exists.mp (List.getLast?_isSome.mpr (List.ne_nil_of_mem hf))
  obtain ⟨a,-,hd⟩ := mem_namedFlags.mp (List.mem_of_getLast? hlast)
  have hall : ∀ g, g ∈ listedFlags r.flags ∨ g ∈ namedFlags smtp actions → g = name := by
    intro g hg
    have hmem := (hflags g).mpr hg
    unfold overwrite at hmem
    rw [hlast,CachedMessage.setFlags_flags,listedFlags_deed hd] at hmem
    exact List.mem_singleton.mp hmem
  rw [hall g (List.mem_append.mp hg),hall f (Or.inr hf)]

theorem flagsFollow_iff {db : Db} (actions : List FilterAction) :
    FlagsFollow db msg.uid (performActions smtp sender msg actions) ↔
      ∀ r, db.message? "INBOX" msg.uid = some r → OneFlag smtp actions (listedFlags r.flags) :=
  ⟨oneFlag_of_flagsFollow,flagsFollow_of_oneFlag⟩

/-- On arrival and on request the cache follows exactly where there is nothing to lose. -/
theorem filterFlags_iff (sieveActive smtp : Bool) (sender : String) (msg : CachedMessage) (db : Db)
    (matched : List FilterRule) :
    FlagsFollow db msg.uid (filterRules sieveActive smtp sender msg matched) ∧
        FlagsFollow db msg.uid (heedless (applyRules smtp sender msg matched)) ↔
      ∀ r, db.message? "INBOX" msg.uid = some r →
        OneFlag smtp (loopActions sieveActive matched) (listedFlags r.flags) ∧
        OneFlag smtp ((upToStop matched).flatMap FilterRule.actions) (listedFlags r.flags) := by
  rw [filterRules_eq,heedless_applyRules]
  unfold performRules
  rw [flagsFollow_iff,flagsFollow_iff]
  exact ⟨fun h r hr => ⟨h.1 r hr,h.2 r hr⟩,fun h => ⟨fun r hr => (h r hr).1,fun r hr => (h r hr).2⟩⟩

end

/-- A message that has been answered. -/
def answered : CachedMessage :=
  ImapMessageHeader.row { plainHeader with uid := 1, flags := ["\\Answered"] } "INBOX"

/-- A cache of that message. -/
def answeredDb : Db :=
  ((Db.empty.insertFolderIfNew "INBOX" (some "/") "").upsertHeader "INBOX"
    { plainHeader with uid := 1, flags := ["\\Answered"] }).getD .empty

/-- A rule that marks mail read. -/
def readRule : FilterRule := ⟨"1","read",true,0,[],"all",[⟨"mark_read",none⟩],false,""⟩

/-- Marked read by a rule, the message is no longer answered in the cache. -/
theorem answered_forgotten :
    ¬(FlagsFollow answeredDb answered.uid (filterRules false false "" answered [readRule]) ∧
      FlagsFollow answeredDb answered.uid (heedless (applyRules false "" answered [readRule]))) := by
  rintro ⟨h,-⟩
  rw [filterRules_eq] at h
  have hrow : answeredDb.message? "INBOX" answered.uid = some answered := by decide
  have hone := oneFlag_of_flagsFollow h answered hrow "\\Seen" (by decide) "\\Answered" (by decide)
  exact absurd hone (by decide)

end Rav
