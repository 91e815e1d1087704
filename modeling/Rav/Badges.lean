import Rav.Realtime.FilterActions
import Rav.Realtime.Recount
import Rav.Convergence

/-!
# Unread badges

The handlers that change messages recount. A folder's pass recounts where it stores new messages; where
it does not, its counter stays behind the flags it changes and the messages it removes, and a folder
that was invalidated counts as up to date again. Actions of filter rules never recount.

## Main definitions

- `stopsFolder` — a folder's pass that ends before its checkpoint
- `PassKeeps`, `countedAt_syncFolder_iff` — when a pass leaves the folder's counter right
- `Operation`, `World.operate` — what happens to the cache
- `counted_of_run` — the counters stay right
-/

namespace Rav

/-! ### A folder's pass -/

/-- The full fetch ends before its checkpoint, and the folder is then invalidated. -/
def stopsFull (folder : String) : Task Bool := do
  let cached ← Task.query (fun db => db.getAllUidsAndFlags folder)
  if cached.isEmpty then pure false
  else do
    match ← Task.imap (.fetchUidsAndFlags folder) with
    | .error _ => Task.query (fun db => !db.Valid folder)
    | .ok (_ : List (Nat × List String)) => pure false

def stopsCondstore (folder : String) (cachedModseq : Nat) (status : FolderStatusExtended) :
    Task Bool := do
  match ← Task.imap (.fetchChangedFlags folder cachedModseq status.uidValidity) with
  | .error _ => stopsFull folder
  | .ok (_ : ChangedFlags) => pure false

def stopsStatus (folder : FolderSnapshot) (status : FolderStatusExtended) : Task Bool := do
  if folder.uidValidity ≠ 0 ∧ status.uidValidity ≠ folder.uidValidity then pure true
  else do
    let skip ← unchanged folder status
    if skip then Task.query (fun db => !db.Valid folder.name)
    else if 0 < status.highestModseq ∧ 0 < folder.highestModseq then
      stopsCondstore folder.name folder.highestModseq status
    else stopsFull folder.name

/-- A folder's pass ends before its checkpoint, and the folder is then invalidated: its UIDVALIDITY
differs; or it was invalidated, and its STATUS or its UIDs cannot be had, or the STATUS is that of the
last checkpoint. -/
def stopsFolder (folder : FolderSnapshot) : Task Bool := do
  match ← Task.imap (.folderStatusExtended folder.name) with
  | .error _ => Task.query (fun db => !db.Valid folder.name)
  | .ok (status : FolderStatusExtended) => stopsStatus folder status

/-- A folder's pass comes to announce new messages; or where it would, the folder has as many unread
messages as its counter says; or it ends before its checkpoint, the folder being invalidated. -/
def PassKeeps (weather : Weather) (folder : FolderSnapshot) (w : World) : Prop :=
  announced weather folder.name ((pendingFolder folder).exec weather w).1
      ((pendingFolder folder).exec weather w).2 ≠ [] ∨
    (∀ row, w.db.folder? folder.name = some row →
      row.unreadCount = ((pendingFolder folder).exec weather w).2.db.unreadCount folder.name) ∨
    ((stopsFolder folder).exec weather w).1 = true

/-- Each folder's pass does so when its turn comes. -/
def PassesKeep (weather : Weather) : List FolderSnapshot → World → Prop
  | [], _ => True
  | folder :: rest, w => PassKeeps weather folder w ∧
    PassesKeep weather rest ((syncFolder folder).exec weather w).2

instance (weather : Weather) (folder : FolderSnapshot) (w : World) :
    Decidable (PassKeeps weather folder w) :=
  inferInstanceAs (Decidable (_ ∨ (∀ row ∈ w.db.folder? folder.name, _) ∨ _))

instance decidablePassesKeep (weather : Weather) :
    ∀ folders w, Decidable (PassesKeep weather folders w)
  | [], _ => instDecidableTrue
  | folder :: rest, w =>
    have := decidablePassesKeep weather rest ((syncFolder folder).exec weather w).2
    inferInstanceAs (Decidable (PassKeeps weather folder w ∧ _))

section Pass

variable {α : Type} {weather : Weather} {w : World} {f : String}

/-- Exactly where `s` says so, the task leaves the folder invalidated. -/
def Lapses (weather : Weather) (f : String) (t s : Task Bool) (w : World) : Prop :=
  (s.exec weather w).1 = !(t.exec weather w).2.db.Valid f

theorem Lapses.bind {q : Task α} {t s : α → Task Bool}
    (h : Lapses weather f (t (q.exec weather w).1) (s (q.exec weather w).1) (q.exec weather w).2) :
    Lapses weather f (q >>= t) (q >>= s) w := by
  unfold Lapses
  rw [Task.exec_bind,Task.exec_bind]
  exact h

theorem Lapses.imap_bind {q : ImapCall} {t s : Except ImapError q.Reply → Task Bool}
    (h : ∀ r w', w'.db = w.db → Lapses weather f (t r) (s r) w') :
    Lapses weather f (Task.imap q >>= t) (Task.imap q >>= s) w :=
  Lapses.bind (h _ _ (handle_imap_db q))

theorem Lapses.ite {c : Prop} [Decidable c] {t t' s s' : Task Bool} (h : Lapses weather f t s w)
    (h' : Lapses weather f t' s' w) :
    Lapses weather f (if c then t else t') (if c then s else s') w := by
  split
  · exact h
  · exact h'

/-- A task that leaves the database alone. -/
theorem lapses_rest (b : Bool) :
    Lapses weather f (pure b) (Task.query (fun db => !db.Valid f)) w := rfl

theorem lapses_of_valid {t : Task Bool} (h : (t.exec weather w).2.db.Valid f = true) :
    Lapses weather f t (pure false) w := by
  unfold Lapses
  rw [h]
  rfl

theorem Db.valid_updateFolderSyncStatus {db : Db} (h : (db.folder? f).isSome = true) (v c m : Nat) :
    (db.updateFolderSyncStatus f v c m).Valid f = true := by
  obtain ⟨row,hrow⟩ := Option.isSome_iff_exists.mp h
  rw [Valid,updateFolderSyncStatus,folder?_updateFolder,hrow,Option.map_some,if_pos rfl]
  rfl

theorem Db.valid_refreshUnreadCount (db : Db) : (db.refreshUnreadCount f).Valid f = db.Valid f := by
  rw [Valid,refreshUnreadCount,folder?_updateFolder,Option.any_map,Valid]
  congr 1
  funext row
  split
  · rfl
  · rfl

theorem Db.SameCounter.isSome {db db' : Db} (h : Db.SameCounter f db db') :
    (db'.folder? f).isSome = (db.folder? f).isSome := by
  have hsome := congrArg Option.isSome h
  rwa [Option.isSome_map,Option.isSome_map] at hsome

theorem folder?_fetchAndStoreNew (n : Nat) :
    ((fetchAndStoreNew f n).exec weather w).2.db.folder? f = w.db.folder? f := by
  rw [exec_fetchAndStoreNew_db]
  exact folder?_storeHeaders _

/-- After the checkpoint the full fetch does not invalidate the folder. -/
theorem valid_fetchNewFull (imapMap : List (Nat × String)) (n : Nat) (changed : Bool) :
    ((fetchNewFull f imapMap n changed).exec weather w).2.db.Valid f = w.db.Valid f := by
  unfold fetchNewFull
  split
  · have hrow := @folder?_fetchAndStoreNew weather w f (succU32 n)
    rw [Task.exec_bind]
    generalize (fetchAndStoreNew f (succU32 n)).exec weather w = r at hrow
    obtain ⟨⟨count,sender,subject⟩,w'⟩ := r
    have hvalid : w'.db.Valid f = w.db.Valid f := congrArg (Option.any _) hrow
    dsimp only
    split
    · exact (w'.db.valid_refreshUnreadCount).trans hvalid
    · exact hvalid
  · rfl

theorem isSome_fetchNewCondstore (uidNext : Nat) :
    (((fetchNewCondstore f uidNext).exec weather w).2.db.folder? f).isSome =
      (w.db.folder? f).isSome := by
  unfold fetchNewCondstore
  rw [Task.exec_query_bind]
  split
  · have hrow := @folder?_fetchAndStoreNew weather w f (succU32 (w.db.maxUid f))
    rw [Task.exec_bind]
    generalize (fetchAndStoreNew f (succU32 (w.db.maxUid f))).exec weather w = r at hrow
    obtain ⟨⟨count,sender,subject⟩,w'⟩ := r
    show ((w'.db.refreshUnreadCount f).folder? f).isSome = _
    rw [Db.refreshUnreadCount,Db.folder?_updateFolder,Option.isSome_map,hrow]
  · rfl

/-- Telling that flags changed leaves the database alone. -/
theorem exec_telling_db (b : Bool) : (Task.exec weather
    (do if b then Task.publish (.flagsChanged f) else pure ()
        pure b : Task Bool) w).2.db = w.db := by
  cases b with
  | true => rfl
  | false => rfl

theorem lapses_syncFull (hrow : (w.db.folder? f).isSome = true) (status : FolderStatusExtended) :
    Lapses weather f (syncFull f status) (stopsFull f) w := by
  refine Lapses.bind (q := Task.query (fun db => db.getAllUidsAndFlags f)) (Lapses.ite ?_ ?_)
  · exact lapses_of_valid (Db.valid_updateFolderSyncStatus hrow _ _ _)
  · refine Lapses.imap_bind (fun r w' hdb => ?_)
    rcases r with e | imapState
    · exact lapses_rest false
    · refine lapses_of_valid ?_
      rw [Task.exec_bind,Task.exec_bind,exec_telling_db,valid_fetchNewFull]
      refine Db.valid_updateFolderSyncStatus ?_ _ _ _
      rw [Task.exec_query] at hdb
      rw [← hdb] at hrow
      exact (congrArg Option.isSome (folder?_reconcile _ _)).trans hrow

theorem lapses_applyDelta (hrow : (w.db.folder? f).isSome = true) (status : FolderStatusExtended)
    (delta : ChangedFlags) : Lapses weather f (applyDelta f status delta) (pure false) w := by
  refine lapses_of_valid ?_
  unfold applyDelta
  rw [Task.exec_bind,Task.exec_query_bind,Task.exec_bind,Task.exec_bind,Task.exec_bind,exec_telling_db]
  refine Db.valid_updateFolderSyncStatus ?_ _ _ _
  rw [isSome_fetchNewCondstore,(sameCounter_removeDeleted _ _ _).isSome]
  exact (congrArg Option.isSome (folder?_applyChanged _)).trans hrow

theorem lapses_syncCondstore (hrow : (w.db.folder? f).isSome = true) (m : Nat)
    (status : FolderStatusExtended) :
    Lapses weather f (syncCondstore f m status) (stopsCondstore f m status) w := by
  refine Lapses.imap_bind (fun r w' hdb => ?_)
  rw [← hdb] at hrow
  rcases r with e | delta
  · exact lapses_syncFull hrow status
  · exact lapses_applyDelta hrow status delta

theorem valid_invalidateFolderFreshness (db : Db) :
    (db.invalidateFolderFreshness f).Valid f = false := by
  rw [Db.Valid,Db.invalidateFolderFreshness,Db.folder?_updateFolder,Option.any_map]
  cases db.folder? f with
  | none => rfl
  | some row => simp

theorem exec_unchanged_world (folder : FolderSnapshot) (status : FolderStatusExtended) :
    ((unchanged folder status).exec weather w).2 = w := by
  unfold unchanged
  split
  · rfl
  · rfl

theorem lapses_syncStatus {folder : FolderSnapshot} (hrow : (w.db.folder? folder.name).isSome = true)
    (status : FolderStatusExtended) :
    Lapses weather folder.name (syncStatus folder status) (stopsStatus folder status) w := by
  refine Lapses.ite ?_ (Lapses.bind ?_)
  · show true = !(w.db.invalidateFolderFreshness folder.name).Valid folder.name
    rw [valid_invalidateFolderFreshness]
    rfl
  · rw [exec_unchanged_world]
    refine Lapses.ite (lapses_rest false) (Lapses.ite ?_ ?_)
    · exact lapses_syncCondstore hrow _ _
    · exact lapses_syncFull hrow _

theorem lapses_syncFolder {folder : FolderSnapshot} (hrow : (w.db.folder? folder.name).isSome = true) :
    Lapses weather folder.name (syncFolder folder) (stopsFolder folder) w := by
  refine Lapses.imap_bind (fun r w' hdb => ?_)
  rw [← hdb] at hrow
  rcases r with e | status
  · exact lapses_rest false
  · exact lapses_syncStatus hrow status

end Pass

theorem Db.valid_of_row {db : Db} {f : String} {row : CachedFolder} (h : db.folder? f = some row) :
    db.Valid f = row.messagesUpdatedAt.isSome := by
  rw [Valid,h]
  rfl

/-- A pass leaves its folder's counter right, or the folder invalidated, exactly under the condition. -/
theorem countedAt_syncFolder_iff {weather : Weather} {w : World} {folder : FolderSnapshot} :
    ((syncFolder folder).exec weather w).2.db.CountedAt folder.name ↔ PassKeeps weather folder w := by
  have hrec : Recounts weather folder.name (syncFolder folder) (pendingFolder folder) w :=
    recounts_syncFolder folder
  unfold PassKeeps
  by_cases hnone : announced weather folder.name ((pendingFolder folder).exec weather w).1
      ((pendingFolder folder).exec weather w).2 = []
  · obtain ⟨hsame,hcount⟩ := hrec.kept hnone
    constructor
    · intro hc
      refine Or.inr ?_
      by_cases hstop : ((stopsFolder folder).exec weather w).1 = true
      · exact Or.inr hstop
      · refine Or.inl (fun row hrow => ?_)
        have hlapse : Lapses weather folder.name (syncFolder folder) (stopsFolder folder) w :=
          lapses_syncFolder (Option.isSome_of_eq_some hrow)
        rw [Lapses,Bool.eq_false_iff.mpr hstop,eq_comm,Bool.not_eq_false'] at hlapse
        obtain ⟨row',hrow',hcounter⟩ := Db.SameCounter.exists_row hsame.symm hrow
        rw [← hcounter,← hcount]
        exact hc row' hrow' ((Db.valid_of_row hrow').symm.trans hlapse)
    · rintro (hne | hcounter | hstop) row' hrow' hvalid
      · exact absurd hnone hne
      · obtain ⟨row,hrow,he⟩ := hsame.exists_row hrow'
        rw [← he,hcount]
        exact hcounter row hrow
      · obtain ⟨row,hrow,-⟩ := hsame.exists_row hrow'
        have hlapse : Lapses weather folder.name (syncFolder folder) (stopsFolder folder) w :=
          lapses_syncFolder (Option.isSome_of_eq_some hrow)
        rw [Lapses,hstop,Db.valid_of_row hrow',hvalid] at hlapse
        exact absurd hlapse (by decide)
  · exact iff_of_true (fun row hrow _ => hrec.fresh hnone row hrow) (Or.inl hnone)

/-! ### The cycle -/

section Cycle

variable {α : Type} {weather : Weather} {w : World} {f : String}

/-- A pass that touches one folder leaves the others alone. -/
theorem sameFolder_within {g : String} (hg : f ≠ g) {t : Task α} (ht : t.All (Call.Within g))
    (w : World) : Db.SameFolder f w.db (t.exec weather w).2.db := by
  refine Prog.run_invariant (Q := Call.Within g) (P := fun s : World => Db.SameFolder f w.db s.db)
    (fun _ _ _ => trivial) (fun c s hc hs => ?_) ht (Db.SameFolder.refl f w.db)
  cases c with
  | imap q =>
    rw [handle_imap_db]
    exact hs
  | withUserDb k => exact hs.trans (hc s.db f hg)
  | publish e => exact hs
  | spawn p => exact hc.elim
  | notifyWorker => exact hc.elim
  | sendMessage m => exact hc.elim

theorem counted_syncFolder {folder : FolderSnapshot} (hc : w.db.Counted)
    (h : PassKeeps weather folder w) : ((syncFolder folder).exec weather w).2.db.Counted := by
  intro g
  by_cases hg : g = folder.name
  · rw [hg]
    exact countedAt_syncFolder_iff.mpr h
  · exact (sameFolder_within hg (syncFolder_within folder) w).countedAt (hc g)

theorem counted_syncFolders {folders : List FolderSnapshot} (hc : w.db.Counted)
    (h : PassesKeep weather folders w) : ((syncFolders folders).exec weather w).2.db.Counted := by
  induction folders generalizing w with
  | nil => exact hc
  | cons folder rest ih =>
    obtain ⟨hfirst,hrest⟩ := h
    rw [exec_syncFolders_cons]
    exact ih (counted_syncFolder hc hfirst) hrest

/-- Bodies do not count. -/
theorem counted_indexBodies (unindexed : List (String × Nat)) (hc : w.db.Counted) :
    ((indexBodies unindexed).exec weather w).2.db.Counted := by
  induction unindexed generalizing w with
  | nil => exact hc
  | cons p rest ih =>
    unfold indexBodies
    split
    · exact ih hc
    · have hdb : ((Task.imap (.fetchBody p.1 p.2)).exec weather w).2.db = w.db := handle_imap_db _
      rw [Task.exec_bind]
      generalize (Task.imap (.fetchBody p.1 p.2)).exec weather w = r at hdb
      obtain ⟨r,w'⟩ := r
      rw [← hdb] at hc
      rcases r with e | body
      · exact ih hc
      · refine ih (fun g => (hc g).congr rfl (Db.unreadCount_congr (fun u => ?_)))
        show ((w'.db.cacheMessageBody p.1 p.2 (ImapMessageBody.cached body)).message? g u).any _ = _
        rw [Db.message?_cacheMessageBody,Option.any_map]
        congr 1
        funext row
        split
        · rfl
        · rfl

theorem counted_runSync (hc : w.db.Counted) (h : PassesKeep weather (folderSnapshots w.db) w) :
    (runSync.exec weather w).2.db.Counted := by
  have hpasses : ((syncFolders (folderSnapshots w.db)).exec weather w).2.db.Counted :=
    counted_syncFolders hc h
  unfold runSync syncSnapshots
  rw [Task.exec_query_bind,Task.exec_bind]
  generalize (syncFolders (folderSnapshots w.db)).exec weather w = r at hpasses
  obtain ⟨anyChanges,w'⟩ := r
  cases anyChanges with
  | true => exact counted_indexBodies _ hpasses
  | false => exact counted_indexBodies _ hpasses

end Cycle

/-! ### Runs -/

/-- What happens to the server and the cache: a change on the server; a request, whose handler the
server answers while it changes; a cycle; and the actions of the rules that match a new message. -/
inductive Operation
  | server (folder : String) (c : Change)
  | request (changes : List (String × Change)) (answer : Option ImapError) (req : MessageRequest)
  | cycle (weather : Weather)
  | filter (weather : Weather) (smtp : Bool) (sender : String) (msg : CachedMessage)
    (actions : List FilterAction)

namespace World

def operate (w : World) : Operation → Option World
  | .server f c => some (w.change (f,c))
  | .request changes answer req =>
    some { w.drift changes with db := req.cache answer w.db }
  | .cycle weather => some (runSync.exec weather w).2
  | .filter weather smtp sender msg actions =>
    some ((performActions smtp sender msg actions).exec weather w).2

/-- In a cycle every folder's pass keeps the counter, and so does every action of a filter. -/
def Keeps (w : World) : Operation → Prop
  | .server _ _ => True
  | .request _ _ _ => True
  | .cycle weather => PassesKeep weather (folderSnapshots w.db) w
  | .filter weather smtp sender msg actions => ActionsKeep weather smtp sender msg actions w

variable {w w' : World} {ops : List Operation}

theorem counted_operate (o : Operation) (hc : w.db.Counted) (h : w.Keeps o)
    (hstep : w.operate o = some w') : w'.db.Counted := by
  cases o with
  | server f c =>
    obtain rfl := Option.some.inj hstep
    rw [change_db]
    exact hc
  | request changes answer req =>
    obtain rfl := Option.some.inj hstep
    exact req.counted answer hc
  | cycle weather =>
    obtain rfl := Option.some.inj hstep
    exact counted_runSync hc h
  | filter weather smtp sender msg actions =>
    obtain rfl := Option.some.inj hstep
    exact counted_performActions hc h

/-- Where no pass and no filter action lets a counter drift, every folder that is not invalidated
counts its unread messages in every state reached. -/
theorem counted_of_run (hrun : Run operate Keeps w ops w') (hc : w.db.Counted) : w'.db.Counted :=
  hrun.invariant hc (fun _ o _ hc hok hstep => counted_operate o hc hok hstep)

end World


/-- A message is marked read, and a cycle follows. -/
def markedRead : World :=
  { listedTwo.drift [("INBOX",.storeFlags 1 ["\\Seen"])] with
    db := (MessageRequest.updateFlags "INBOX" 1 ["\\Seen"] true).cache none listedTwo.db }

theorem counted_markedRead : markedRead.cycle.db.Counted :=
  World.counted_of_run
    ((Run.single trivial rfl : Run World.operate World.Keeps listedTwo
      [.request [("INBOX",.storeFlags 1 ["\\Seen"])] none (.updateFlags "INBOX" 1 ["\\Seen"] true)]
        markedRead).trans
      (Run.single (by show PassesKeep _ _ _; decide) rfl :
        Run World.operate World.Keeps markedRead [.cycle calm] markedRead.cycle))
    (Db.counted_iff.mpr (by decide))

/-- A message read elsewhere: the cycle takes over its flags, and the badge still counts it. -/
theorem read_elsewhere_still_counted :
    listedTwo.Reachable ImapMessageBody.cached ∧ listedTwo.db.Counted ∧
      ∃ w', Run World.operate (fun _ _ => True) listedTwo
        [.server "INBOX" (.storeFlags 1 ["\\Seen"]),.cycle calm] w' ∧
        w'.db.Valid "INBOX" = true ∧ w'.db.unreadCount "INBOX" = 1 ∧
        (w'.db.folder? "INBOX").map CachedFolder.unreadCount = some 2 ∧ ¬w'.db.Counted := by
  refine ⟨reachable_listedTwo,Db.counted_iff.mpr (by decide),
    (listedTwo.change ("INBOX",.storeFlags 1 ["\\Seen"])).cycle,
    (Run.single trivial rfl).trans (Run.single trivial rfl),by decide,by decide,by decide,?_⟩
  rw [Db.counted_iff]
  decide

end Rav
