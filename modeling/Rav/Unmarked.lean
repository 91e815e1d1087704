import Rav.Agreement
import Rav.Imap.Commands

/-!
# What cycles do to the server's flags

The folders' passes only ask for flags, headers and counters. The deep index step fetches whole
bodies, and with `BODY[]`: each message it gets a body of is marked as read.

## Main definitions

- `Outcome`, `handleMarking` — which calls get through, and the flags that fetching changes
- `cycles` — cycles one after the other
- `awaitsBody` — the messages whose bodies a cycle asks for
- `cycles_keep_flags_iff` — when cycles leave every flag as it was
-/

namespace Rav

/-- How the calls of a cycle turn out: which of them fail, and which of these the server has carried
out all the same. -/
structure Outcome where
  fails : ImapCall → Option ImapError
  executed : ImapCall → Bool

/-- Nobody but the cycle itself changes anything. -/
def Outcome.weather (o : Outcome) : Weather := ⟨fun _ => [],o.fails,false⟩

/-- The server carries the call's commands out. -/
def Outcome.Reaches (o : Outcome) (q : ImapCall) : Prop := o.fails q = none ∨ o.executed q = true

instance (o : Outcome) (q : ImapCall) : Decidable (o.Reaches q) :=
  inferInstanceAs (Decidable (_ ∨ _))

/-- Answer one call; what is fetched whole is marked as read. -/
def handleMarking (o : Outcome) : (c : Call) → World → c.Answer × World
  | .imap q, w =>
    let r := handle o.weather (.imap q) w
    (r.1,if o.Reaches q then { r.2 with server := marked q.commands r.2.server } else r.2)
  | c, w => handle o.weather c w

/-- One cycle. -/
def cycleMarking (o : Outcome) (w : World) : World := (runSync.run (handleMarking o) w).2

/-- Cycles one after the other. -/
def cycles (os : List Outcome) (w : World) : World := os.foldl (fun w o => cycleMarking o w) w

/-- The messages whose bodies the deep index step asks for. -/
def Db.awaitsBody (db : Db) : List (String × Nat) :=
  if db.deepIndex then
    (db.getUnindexedMessages deepIndexBatch).filter (fun p => !isExcludedFolder p.1)
  else []

/-- The cache when a cycle comes to its deep index step. -/
def syncedDb (o : Outcome) (w : World) : Db :=
  ((syncFolders (folderSnapshots w.db)).run (handleMarking o) w).2.db

/-- Every message whose body is asked for, and whose request the server carries out, is marked as read
already or no longer there. -/
def Outcome.MeetsRead (o : Outcome) (w : World) : Prop :=
  ∀ p ∈ (syncedDb o w).awaitsBody, o.Reaches (.fetchBody p.1 p.2) → (w.server p.1).Lit p.2

/-- Every message has the flags it had, on every folder of the server. -/
def SameFlags (s s' : String → Mailbox) : Prop := ∀ f, (s' f).uidsAndFlags = (s f).uidsAndFlags

/-! ### Marks -/

/-- Mark the messages as read one after the other. -/
def markAll (ps : List (String × Nat)) (s : String → Mailbox) : String → Mailbox :=
  ps.foldl (fun s p => Function.update s p.1 ((s p.1).markSeen p.2)) s

section Marks

variable {s : String → Mailbox} {p q : String × Nat} {ps : List (String × Nat)}

theorem Mailbox.Lit.update (h : (s q.1).Lit q.2) :
    (Function.update s p.1 ((s p.1).markSeen p.2) q.1).Lit q.2 := by
  by_cases hf : q.1 = p.1
  · rw [hf,Function.update_self]
    rw [hf] at h
    exact h.markSeen
  · rw [Function.update_of_ne hf]
    exact h

theorem Mailbox.Lit.markAll (h : (s q.1).Lit q.2) : (markAll ps s q.1).Lit q.2 := by
  induction ps generalizing s with
  | nil => exact h
  | cons p ps ih => exact ih h.update

theorem lit_markAll (hp : p ∈ ps) : (markAll ps s p.1).Lit p.2 := by
  induction ps generalizing s with
  | nil => exact absurd hp List.not_mem_nil
  | cons q ps ih =>
    rcases List.mem_cons.mp hp with rfl | hp
    · show (markAll ps (Function.update s p.1 ((s p.1).markSeen p.2)) p.1).Lit p.2
      refine Mailbox.Lit.markAll ?_
      rw [Function.update_self]
      exact Mailbox.lit_markSeen
    · exact ih hp

theorem markAll_of_lit (h : ∀ p ∈ ps, (s p.1).Lit p.2) : markAll ps s = s := by
  induction ps with
  | nil => rfl
  | cons p ps ih =>
    show markAll ps (Function.update s p.1 ((s p.1).markSeen p.2)) = s
    rw [Mailbox.markSeen_of_lit (h p List.mem_cons_self),Function.update_eq_self]
    exact ih (fun q hq => h q (List.mem_cons_of_mem _ hq))

theorem SameFlags.lit_iff {s' : String → Mailbox} (h : SameFlags s s') :
    (s' p.1).Lit p.2 ↔ (s p.1).Lit p.2 := by
  rw [Mailbox.lit_iff,Mailbox.lit_iff,h p.1]

end Marks

/-! ### The passes peek -/

/-- The call reads from the server, and marks nothing. -/
def Call.Peeking : Call → Prop
  | .imap q => q.ReadOnly ∧ q.Peeks
  | _ => True

/-- A read that is not a body fetch peeks. -/
theorem Call.peeking_imap {q : ImapCall} (h : q.ReadOnly) (hq : ∀ f u, q ≠ .fetchBody f u) :
    Call.Peeking (.imap q) := ⟨h,q.peeks_iff.mpr hq⟩

section Passes

variable (f : String)

theorem fetchAndStoreNew_peeks (n : Nat) : (fetchAndStoreNew f n).All Call.Peeking := by
  refine Prog.AllWhere.bind (Prog.all_perform (Call.peeking_imap trivial (by simp))) (fun r => ?_)
  rcases r with e | headers
  · trivial
  · dsimp only
    split
    · trivial
    · exact Prog.AllWhere.bind (Prog.all_perform trivial) (fun _ => trivial)

/-- Refreshing the unread count and telling what is new. -/
theorem announcement_peeks (count : Nat) (sender subject : Option String) : Prog.All Call.Peeking (do
    Task.execute (fun db => db.refreshUnreadCount f)
    Task.publish (.folderStateChanged f count sender subject)
    pure true : Task Bool) :=
  Prog.AllWhere.bind (Prog.all_perform trivial)
    (fun _ => Prog.AllWhere.bind (Prog.all_perform trivial) (fun _ => trivial))

theorem flagsChanged_peeks (changed : Bool) : Prog.All Call.Peeking (do
    if changed then Task.publish (.flagsChanged f) else pure ()
    pure changed : Task Bool) := by
  cases changed with
  | true => exact Prog.AllWhere.bind (Prog.all_perform trivial) (fun _ => trivial)
  | false => trivial

theorem syncFull_peeks (status : FolderStatusExtended) : (syncFull f status).All Call.Peeking := by
  refine Prog.AllWhere.bind (Prog.all_perform trivial) (fun cached => ?_)
  split
  · exact Prog.AllWhere.bind (Prog.all_perform trivial) (fun _ => trivial)
  · refine Prog.AllWhere.bind (Prog.all_perform (Call.peeking_imap trivial (by simp))) (fun r => ?_)
    rcases r with e | imapState
    · trivial
    · refine Prog.AllWhere.bind (Prog.all_perform trivial) (fun changed => ?_)
      refine Prog.AllWhere.bind ?_ (fun changed => flagsChanged_peeks f changed)
      unfold fetchNewFull
      split
      · refine Prog.AllWhere.bind (fetchAndStoreNew_peeks f _) (fun r => ?_)
        split
        exact Prog.AllWhere.ite (announcement_peeks f _ _ _) trivial
      · trivial

theorem removeDeleted_peeks (vanished : Option (List Nat)) (n k : Nat) :
    (removeDeleted f vanished n k).All Call.Peeking := by
  unfold removeDeleted
  cases vanished with
  | some us => exact Prog.AllWhere.ite trivial (Prog.all_perform trivial)
  | none =>
    refine Prog.AllWhere.ite ?_ trivial
    refine Prog.AllWhere.bind (Prog.all_perform (Call.peeking_imap trivial (by simp))) (fun r => ?_)
    rcases r with e | imapState
    · trivial
    · exact Prog.all_perform trivial

theorem syncCondstore_peeks (m : Nat) (status : FolderStatusExtended) :
    (syncCondstore f m status).All Call.Peeking := by
  refine Prog.AllWhere.bind (Prog.all_perform (Call.peeking_imap trivial (by simp))) (fun r => ?_)
  rcases r with e | delta
  · exact syncFull_peeks f status
  · refine Prog.AllWhere.bind (Prog.all_perform trivial) (fun _ => ?_)
    refine Prog.AllWhere.bind (Prog.all_perform trivial) (fun n => ?_)
    refine Prog.AllWhere.bind (removeDeleted_peeks f _ _ _) (fun removed => ?_)
    refine Prog.AllWhere.bind ?_ (fun fetched => ?_)
    · refine Prog.AllWhere.bind (Prog.all_perform trivial) (fun k => Prog.AllWhere.ite ?_ trivial)
      refine Prog.AllWhere.bind (fetchAndStoreNew_peeks f _) (fun r => ?_)
      split
      exact announcement_peeks f _ _ _
    · exact Prog.AllWhere.bind (Prog.all_perform trivial) (fun _ => flagsChanged_peeks f _)

/-- A folder's pass marks nothing as read. -/
theorem syncFolder_peeks (folder : FolderSnapshot) : (syncFolder folder).All Call.Peeking := by
  refine Prog.AllWhere.bind (Prog.all_perform (Call.peeking_imap trivial (by simp))) (fun r => ?_)
  rcases r with e | status
  · trivial
  · refine Prog.AllWhere.ite ?_ ?_
    · exact Prog.AllWhere.bind (Prog.all_perform trivial)
        (fun _ => Prog.AllWhere.bind (Prog.all_perform trivial) (fun _ => trivial))
    · refine Prog.AllWhere.bind (Prog.AllWhere.ite ?_ trivial) (fun skip => ?_)
      · exact Prog.AllWhere.bind (Prog.all_perform trivial) (fun _ => trivial)
      · refine Prog.AllWhere.ite trivial (Prog.AllWhere.ite ?_ ?_)
        · exact syncCondstore_peeks _ _ _
        · exact syncFull_peeks _ _

theorem syncFolders_peeks (folders : List FolderSnapshot) : (syncFolders folders).All Call.Peeking := by
  induction folders with
  | nil => trivial
  | cons folder folders ih =>
    exact Prog.AllWhere.bind (syncFolder_peeks folder)
      (fun _ => Prog.AllWhere.bind ih (fun _ => trivial))

end Passes

/-! ### A cycle -/

section Cycle

variable {o : Outcome} {w : World} {α : Type}

theorem handleMarking_peeking {c : Call} (h : c.Peeking) : (handleMarking o c w).2.server = w.server := by
  cases c with
  | imap q =>
    have hs : (handle o.weather (.imap q) w).2.server = w.server := by
      simp only [handle]
      cases o.weather.fails q with
      | some e => rfl
      | none => exact congrArg World.server (World.reply_of_readOnly h.1)
    simp only [handleMarking]
    split
    · rw [marked_peeking h.2,hs]
    · exact hs
  | sendMessage m =>
    simp only [handleMarking,handle]
    split <;> rfl
  | _ => rfl

theorem server_peeking {t : Task α} (ht : t.All Call.Peeking) (w : World) :
    (t.run (handleMarking o) w).2.server = w.server :=
  Prog.run_invariant (P := fun w' : World => w'.server = w.server) (fun _ _ _ => trivial)
    (fun _ _ hc hs => (handleMarking_peeking hc).trans hs) ht rfl

/-- Asking for a body marks the message, if the server gets to it. -/
theorem server_fetchBody (f : String) (u : Nat) :
    (handleMarking o (.imap (.fetchBody f u)) w).2.server =
      markAll (if o.Reaches (.fetchBody f u) then [(f,u)] else []) w.server := by
  have hs : (handle o.weather (.imap (.fetchBody f u)) w).2.server = w.server := by
    simp only [handle]
    split <;> rfl
  simp only [handleMarking]
  split
  · rw [marked_fetchBody,hs]
    rfl
  · rw [hs]
    rfl

theorem server_indexBodies (ps : List (String × Nat)) (w : World) :
    ((indexBodies ps).run (handleMarking o) w).2.server = markAll (ps.filter (fun p =>
      !isExcludedFolder p.1 && o.Reaches (.fetchBody p.1 p.2))) w.server := by
  induction ps generalizing w with
  | nil => rfl
  | cons p ps ih =>
    obtain ⟨f,u⟩ := p
    unfold indexBodies
    split
    · next hex =>
      rw [ih,List.filter_cons_of_neg]
      simp [hex]
    · next hex =>
      have hs : ((Task.imap (.fetchBody f u)).run (handleMarking o) w).2.server =
          markAll (if o.Reaches (.fetchBody f u) then [(f,u)] else []) w.server := server_fetchBody f u
      rw [Prog.run_bind]
      generalize (Task.imap (.fetchBody f u)).run (handleMarking o) w = r at hs ⊢
      obtain ⟨r,w'⟩ := r
      refine Eq.trans (b := markAll (ps.filter (fun p =>
        !isExcludedFolder p.1 && o.Reaches (.fetchBody p.1 p.2))) w'.server) ?_ ?_
      · rcases r with e | body
        · exact ih w'
        · exact ih _
      dsimp only at hs
      rw [hs]
      by_cases hr : o.Reaches (.fetchBody f u)
      · rw [if_pos hr,List.filter_cons_of_pos (by simp [hex,hr])]
        rfl
      · rw [if_neg hr,List.filter_cons_of_neg (by simp [hr])]
        rfl

theorem server_indexMessageBodies (w : World) :
    (indexMessageBodies.run (handleMarking o) w).2.server =
      markAll (w.db.awaitsBody.filter (fun p => o.Reaches (.fetchBody p.1 p.2))) w.server := by
  show ((indexBodies (if w.db.deepIndex then w.db.getUnindexedMessages deepIndexBatch else [])).run
    (handleMarking o) w).2.server = _
  rw [server_indexBodies,Db.awaitsBody]
  split
  · rw [List.filter_filter]
    exact congrArg (fun ps => markAll ps w.server) (List.filter_congr (fun p _ => Bool.and_comm _ _))
  · rfl

/-- The messages a cycle marks. -/
def markedBy (o : Outcome) (w : World) : List (String × Nat) :=
  (syncedDb o w).awaitsBody.filter (fun p => o.Reaches (.fetchBody p.1 p.2))

/-- All a cycle does on the server is to mark the messages whose bodies it asks for. -/
theorem server_cycleMarking (o : Outcome) (w : World) :
    (cycleMarking o w).server = markAll (markedBy o w) w.server := by
  have hpasses := server_peeking (o := o) (syncFolders_peeks (folderSnapshots w.db)) w
  have hquery : (Task.query folderSnapshots).run (handleMarking o) w = (folderSnapshots w.db,w) := rfl
  rw [cycleMarking,runSync,Prog.run_bind,hquery,syncSnapshots,Prog.run_bind,markedBy,syncedDb]
  generalize (syncFolders (folderSnapshots w.db)).run (handleMarking o) w = r at hpasses ⊢
  obtain ⟨anyChanges,w'⟩ := r
  dsimp only at hpasses ⊢
  rw [← hpasses]
  cases anyChanges with
  | true => exact server_indexMessageBodies { w' with events := w'.events ++ [.folderUpdated none] }
  | false => exact server_indexMessageBodies w'

theorem meetsRead_iff : o.MeetsRead w ↔ ∀ p ∈ markedBy o w, (w.server p.1).Lit p.2 := by
  simp only [Outcome.MeetsRead,markedBy,List.mem_filter,decide_eq_true_eq,and_imp]

/-- Cycles unmark nothing. -/
theorem Mailbox.Lit.cycles {p : String × Nat} (h : (w.server p.1).Lit p.2) (os : List Outcome) :
    ((cycles os w).server p.1).Lit p.2 := by
  induction os generalizing w with
  | nil => exact h
  | cons o os ih =>
    refine ih (w := cycleMarking o w) ?_
    rw [server_cycleMarking]
    exact h.markAll

end Cycle

/-- Cycles leave the flags of every message on the server as they were exactly if each of them, when
it comes to its deep index step, asks for the bodies of messages only that are marked as read already
or no longer there, or does not get through to the server. -/
theorem cycles_keep_flags_iff (os : List Outcome) (w : World) :
    SameFlags w.server (cycles os w).server ↔
      ∀ pre o post, os = pre ++ o :: post → o.MeetsRead (cycles pre w) := by
  constructor
  · rintro h pre o post rfl
    rw [meetsRead_iff]
    intro p hp
    have hrun : cycles (pre ++ o :: post) w = cycles post (cycleMarking o (cycles pre w)) :=
      List.foldl_append
    -- marked by this cycle, so marked in the end, so marked from the start
    have hmarked : ((cycleMarking o (cycles pre w)).server p.1).Lit p.2 := by
      rw [server_cycleMarking]
      exact lit_markAll hp
    have hend := hmarked.cycles post
    rw [← hrun,h.lit_iff] at hend
    exact hend.cycles pre
  · intro h
    suffices hserver : (cycles os w).server = w.server by
      rw [hserver]
      exact fun _ => rfl
    induction os generalizing w with
    | nil => rfl
    | cons o os ih =>
      have hfirst : (cycleMarking o w).server = w.server := by
        rw [server_cycleMarking]
        exact markAll_of_lit (meetsRead_iff.mp (h [] o os rfl))
      refine (ih (cycleMarking o w) (fun pre o' post hsplit => ?_)).trans hfirst
      exact h (o :: pre) o' post (congrArg (o :: ·) hsplit)

/-- Two unread messages without bodies, and deep indexing switched on. -/
def unreadTwo : World := { syncedTwo with db := { syncedTwo.db with deepIndex := true } }

/-- One undisturbed cycle marks both as read. -/
theorem unreadTwo_marked : ¬SameFlags unreadTwo.server
    (cycles [⟨fun _ => none,fun _ => true⟩] unreadTwo).server := by
  intro h
  have hinbox := h "INBOX"
  revert hinbox
  decide

end Rav
