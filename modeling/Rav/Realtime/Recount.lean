import Rav.Db.Unread
import Rav.Phantom

/-!
# Counting in a folder's pass

A folder's pass recomputes the folder's unread count where it comes to storing new messages, and only
there. Where it does not, flags may have changed and messages may be gone, and the counter stays.

## Main definitions

- `Db.SameCounter` — a folder's counter is as before
- `Recounts` — what a pass makes of the counter
- `recounts_syncFolder` — every pass does that
-/

namespace Rav

/-- The folder's row shows the same unread count. -/
def Db.SameCounter (f : String) (db db' : Db) : Prop :=
  (db'.folder? f).map CachedFolder.unreadCount = (db.folder? f).map CachedFolder.unreadCount

namespace Db.SameCounter

variable {f : String} {db db' db'' : Db}

theorem trans (h : SameCounter f db db') (h' : SameCounter f db' db'') : SameCounter f db db'' :=
  Eq.trans h' h

theorem of_folder? (h : db'.folder? f = db.folder? f) : SameCounter f db db' :=
  congrArg (Option.map CachedFolder.unreadCount) h

/-- The row that shows the same count before. -/
theorem exists_row (h : SameCounter f db db') {row : CachedFolder} (hrow : db'.folder? f = some row) :
    ∃ row', db.folder? f = some row' ∧ row'.unreadCount = row.unreadCount := by
  unfold SameCounter at h
  rw [hrow,Option.map_some] at h
  exact Option.map_eq_some_iff.mp h.symm

end Db.SameCounter

theorem Db.sameCounter_updateFolder {f : String} {db : Db} (k : CachedFolder → CachedFolder)
    (hk : ∀ r, (k r).name = r.name) (hcount : ∀ r, (k r).unreadCount = r.unreadCount) :
    Db.SameCounter f db (db.updateFolder f k hk) := by
  unfold SameCounter
  rw [folder?_updateFolder,Option.map_map]
  congr 1
  funext r
  simp only [Function.comp_apply]
  split
  · exact hcount r
  · rfl

/-- Where the task announces new messages, it leaves the counter right; where it does not, the counter
is as before, and as many messages are unread as before the header fetch. -/
structure Recounts (weather : Weather) (f : String) (t : Task Bool) (p : Task (Option (Bool × Nat)))
    (w : World) : Prop where
  fresh : announced weather f (p.exec weather w).1 (p.exec weather w).2 ≠ [] →
    ∀ row, (t.exec weather w).2.db.folder? f = some row →
      row.unreadCount = (t.exec weather w).2.db.unreadCount f
  kept : announced weather f (p.exec weather w).1 (p.exec weather w).2 = [] →
    Db.SameCounter f w.db (t.exec weather w).2.db ∧
      (t.exec weather w).2.db.unreadCount f = (p.exec weather w).2.db.unreadCount f

section Pass

variable {α : Type} {weather : Weather} {w : World} {f : String}

/-- What comes before may change messages, but not the counter. -/
theorem Recounts.bind {q : Task α} {t : α → Task Bool} {p : α → Task (Option (Bool × Nat))}
    (hq : Db.SameCounter f w.db (q.exec weather w).2.db)
    (h : Recounts weather f (t (q.exec weather w).1) (p (q.exec weather w).1) (q.exec weather w).2) :
    Recounts weather f (q >>= t) (q >>= p) w := by
  refine ⟨?_,?_⟩
  · rw [Task.exec_bind,Task.exec_bind]
    exact h.fresh
  · rw [Task.exec_bind,Task.exec_bind]
    intro hnone
    obtain ⟨hcounter,hcount⟩ := h.kept hnone
    exact ⟨hq.trans hcounter,hcount⟩

theorem Recounts.query_bind {k : Db → α} {t : α → Task Bool} {p : α → Task (Option (Bool × Nat))}
    (h : Recounts weather f (t (k w.db)) (p (k w.db)) w) :
    Recounts weather f (Task.query k >>= t) (Task.query k >>= p) w :=
  Recounts.bind (q := Task.query k) rfl h

theorem Recounts.imap_bind {q : ImapCall} {t : Except ImapError q.Reply → Task Bool}
    {p : Except ImapError q.Reply → Task (Option (Bool × Nat))}
    (h : ∀ r w', w'.db = w.db → Recounts weather f (t r) (p r) w') :
    Recounts weather f (Task.imap q >>= t) (Task.imap q >>= p) w := by
  have hdb : ((Task.imap q).exec weather w).2.db = w.db := handle_imap_db q
  exact Recounts.bind (Db.SameCounter.of_folder? (by rw [hdb])) (h _ _ hdb)

/-- What comes after changes neither the counter nor which messages are unread. -/
theorem Recounts.before {t : Task Bool} {p : Task (Option (Bool × Nat))} {r : Bool → Task Bool}
    (h : Recounts weather f t p w) (hcounter : ∀ b w, Db.SameCounter f w.db ((r b).exec weather w).2.db)
    (hcount : ∀ b w, ((r b).exec weather w).2.db.unreadCount f = w.db.unreadCount f) :
    Recounts weather f (t >>= r) p w := by
  refine ⟨fun hsome row hrow => ?_,fun hnone => ?_⟩
  · rw [Task.exec_bind] at hrow ⊢
    obtain ⟨row',hrow',hsame⟩ := (hcounter _ _).exists_row hrow
    rw [hcount,← hsame]
    exact h.fresh hsome row' hrow'
  · obtain ⟨hkept,hunread⟩ := h.kept hnone
    rw [Task.exec_bind]
    exact ⟨hkept.trans (hcounter _ _),(hcount _ _).trans hunread⟩

/-- A task that comes to no header fetch. -/
theorem recounts_none {t : Task Bool} (hcounter : Db.SameCounter f w.db (t.exec weather w).2.db)
    (hcount : (t.exec weather w).2.db.unreadCount f = w.db.unreadCount f) :
    Recounts weather f t (pure none) w :=
  ⟨fun h => absurd rfl h,fun _ => ⟨hcounter,hcount⟩⟩

theorem Recounts.ite {c : Prop} [Decidable c] {t t' : Task Bool} {p p' : Task (Option (Bool × Nat))}
    (h : c → Recounts weather f t p w) (h' : ¬c → Recounts weather f t' p' w) :
    Recounts weather f (if c then t else t') (if c then p else p') w := by
  split
  · next hc => exact h hc
  · next hc => exact h' hc

/-- The database after storing what is fetched. -/
theorem exec_fetchAndStoreNew_db (n : Nat) : ((fetchAndStoreNew f n).exec weather w).2.db =
    storeHeaders f (fetched weather f n w) w.db := by
  have hans : (Task.imap (.fetchHeaders f (.fromOn n))).exec weather w =
      handle weather (.imap (.fetchHeaders f (.fromOn n))) w := rfl
  unfold fetchAndStoreNew
  rw [Task.exec_bind,hans]
  unfold fetched newHeaders handle
  dsimp only
  cases weather.fails (.fetchHeaders f (.fromOn n)) with
  | some e => exact World.drift_db _
  | none =>
    simp only [World.reply]
    split
    · next he =>
      rw [List.isEmpty_iff.mp he]
      exact World.drift_db _
    · exact congrArg (storeHeaders f _) (World.drift_db _)

/-- Before new messages are announced the counter is made right. -/
theorem unreadCount_of_announcement {count : Nat} {sender subject : Option String}
    {row : CachedFolder}
    (hrow : (Task.exec weather (do
      Task.execute (fun db => db.refreshUnreadCount f)
      Task.publish (.folderStateChanged f count sender subject)
      pure true) w).2.db.folder? f = some row) :
    row.unreadCount = (Task.exec weather (do
      Task.execute (fun db => db.refreshUnreadCount f)
      Task.publish (.folderStateChanged f count sender subject)
      pure true) w).2.db.unreadCount f := by
  have hcount : row.unreadCount = w.db.unreadCount f := Db.unreadCount_of_refresh hrow
  exact hcount

theorem recounts_fetchNewCondstore (uidNext : Nat) :
    Recounts weather f (fetchNewCondstore f uidNext)
      (Task.query (fun db => db.maxUid f) >>= fun maxCachedUid =>
        if succU32 maxCachedUid < uidNext then pure (some (true,succU32 maxCachedUid)) else pure none)
      w := by
  refine Recounts.query_bind (Recounts.ite (fun _ => ?_) (fun _ => recounts_none rfl rfl))
  refine ⟨fun _ row hrow => ?_,fun hnone => ?_⟩
  · rw [Task.exec_bind] at hrow ⊢
    exact unreadCount_of_announcement hrow
  · rw [Task.exec_pure,announced,if_pos (Or.inl rfl)] at hnone
    simp at hnone

theorem recounts_fetchNewFull (imapMap : List (Nat × String)) (maxCachedUid : Nat) (changed : Bool) :
    Recounts weather f (fetchNewFull f imapMap maxCachedUid changed)
      (if imapMap.any (fun p => maxCachedUid < p.1) then pure (some (false,succU32 maxCachedUid))
        else pure none) w := by
  refine Recounts.ite (fun _ => ?_) (fun _ => recounts_none rfl rfl)
  obtain ⟨hlen,-,-⟩ := @exec_fetchAndStoreNew_any weather w f (succU32 maxCachedUid)
  have hdb := @exec_fetchAndStoreNew_db weather w f (succU32 maxCachedUid)
  refine ⟨fun hsome row hrow => ?_,fun hnone => ?_⟩
  · have hpos : 0 < (fetched weather f (succU32 maxCachedUid) w).length := by
      by_contra hzero
      refine hsome ?_
      rw [Task.exec_pure,announced,if_neg (not_or.mpr ⟨Bool.false_ne_true,hzero⟩)]
    rw [Task.exec_bind] at hrow ⊢
    rw [← hlen] at hpos
    generalize (fetchAndStoreNew f (succU32 maxCachedUid)).exec weather w = r at hrow hpos ⊢
    obtain ⟨⟨count,sender,subject⟩,w'⟩ := r
    dsimp only at hrow hpos ⊢
    rw [if_pos hpos] at hrow ⊢
    exact unreadCount_of_announcement hrow
  · have hzero : ¬0 < (fetched weather f (succU32 maxCachedUid) w).length := by
      intro hpos
      rw [Task.exec_pure,announced,if_pos (Or.inr hpos)] at hnone
      simp at hnone
    rw [List.eq_nil_of_length_eq_zero (Nat.eq_zero_of_not_pos hzero)] at hdb
    rw [← hlen] at hzero
    rw [Task.exec_bind]
    generalize (fetchAndStoreNew f (succU32 maxCachedUid)).exec weather w = r at hdb hzero ⊢
    obtain ⟨⟨count,sender,subject⟩,w'⟩ := r
    dsimp only at hdb hzero ⊢
    rw [if_neg hzero,Task.exec_pure,hdb]
    exact ⟨rfl,rfl⟩

/-- Checkpoint and changed flags, at the end of a pass. -/
theorem recounts_before_checkpoint {t : Task Bool} {p : Task (Option (Bool × Nat))}
    (h : Recounts weather f t p w) (v c m : Nat) (changed : Bool → Bool) :
    Recounts weather f (t >>= fun fetched => do
      Task.execute (fun db => db.updateFolderSyncStatus f v c m)
      if changed fetched then Task.publish (.flagsChanged f) else pure ()
      pure (changed fetched)) p w := by
  refine h.before (fun b w => ?_) (fun b w => ?_)
  · have hupdate : Db.SameCounter f w.db (w.db.updateFolderSyncStatus f v c m) :=
      Db.sameCounter_updateFolder _ _ (fun _ => rfl)
    rw [Task.exec_bind]
    cases changed b with
    | true => exact hupdate
    | false => exact hupdate
  · rw [Task.exec_bind]
    cases changed b with
    | true => rfl
    | false => rfl

theorem recounts_syncFull (status : FolderStatusExtended) :
    Recounts weather f (syncFull f status) (pendingFull f status) w := by
  refine Recounts.query_bind (Recounts.ite (fun _ => ?_) (fun _ => ?_))
  · exact recounts_none (Db.sameCounter_updateFolder _ _ (fun _ => rfl)) rfl
  · refine Recounts.imap_bind (fun r w' hdb => ?_)
    rcases r with e | imapState
    · exact recounts_none rfl rfl
    · refine Recounts.bind ?_ ((recounts_fetchNewFull _ _ _).before (fun b w => ?_) (fun b w => ?_))
      · have hrec : Db.SameCounter f w'.db (reconcile f (w.db.getAllUidsAndFlags f)
            (imapState.map (fun p => (p.1,sortedFlagsCsv p.2))) w'.db).2 :=
          Db.SameCounter.of_folder? (folder?_reconcile _ _)
        exact hrec.trans (Db.sameCounter_updateFolder _ _ (fun _ => rfl))
      · cases b with
        | true => exact rfl
        | false => exact rfl
      · cases b with
        | true => rfl
        | false => rfl

theorem sameCounter_removeDeleted (vanished : Option (List Nat)) (n k : Nat) :
    Db.SameCounter f w.db ((removeDeleted f vanished n k).exec weather w).2.db := by
  unfold removeDeleted
  cases vanished with
  | some us =>
    dsimp only
    split
    · exact rfl
    · exact Db.SameCounter.of_folder? (folder?_deleteUids _)
  | none =>
    dsimp only
    split
    · rw [Task.exec_bind]
      have hdb : ((Task.imap (.fetchUidsAndFlags f)).exec weather w).2.db = w.db := handle_imap_db _
      generalize (Task.imap (.fetchUidsAndFlags f)).exec weather w = r at hdb
      obtain ⟨r,w'⟩ := r
      rcases r with e | imapState
      · exact Db.SameCounter.of_folder? (by rw [← hdb]; rfl)
      · refine Db.SameCounter.of_folder? ?_
        rw [← hdb]
        exact folder?_deleteUids _
    · exact rfl

theorem recounts_applyDelta (status : FolderStatusExtended) (delta : ChangedFlags) :
    Recounts weather f (applyDelta f status delta) (pendingDelta f status delta) w := by
  refine Recounts.bind (Db.SameCounter.of_folder? (folder?_applyChanged _)) ?_
  refine Recounts.query_bind (Recounts.bind (sameCounter_removeDeleted _ _ _) ?_)
  exact recounts_before_checkpoint (recounts_fetchNewCondstore _) _ _ _ _

theorem recounts_syncCondstore (m : Nat) (status : FolderStatusExtended) :
    Recounts weather f (syncCondstore f m status) (pendingCondstore f m status) w := by
  refine Recounts.imap_bind (fun r w' _ => ?_)
  rcases r with e | delta
  · exact recounts_syncFull status
  · exact recounts_applyDelta status delta

end Pass

/-- What a folder's pass makes of the folder's counter. -/
theorem recounts_syncFolder {weather : Weather} {w : World} (folder : FolderSnapshot) :
    Recounts weather folder.name (syncFolder folder) (pendingFolder folder) w := by
  refine Recounts.imap_bind (fun r w' _ => ?_)
  rcases r with e | status
  · exact recounts_none rfl rfl
  · refine Recounts.ite (fun _ => ?_) (fun _ => ?_)
    · exact recounts_none (Db.sameCounter_updateFolder _ _ (fun _ => rfl)) rfl
    · refine Recounts.bind ?_ (Recounts.ite (fun _ => recounts_none rfl rfl) (fun _ => ?_))
      · unfold unchanged
        split
        · exact rfl
        · exact rfl
      · exact Recounts.ite (fun _ => recounts_syncCondstore _ _) (fun _ => recounts_syncFull _)

end Rav
