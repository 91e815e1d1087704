import Rav.Db.Messages
import Rav.Like

/-!
# `db::folders`

The statements on the `folders` table that synchronisation uses. An `UPDATE` of a folder row
changes no message; `upsertFolder` replaces the row, and the cascade of the foreign key
deletes the folder's messages with the old one.

## Main definitions

- `Db.updateFolder` — `UPDATE folders SET … WHERE name = …`
- `Db.updateFolderStatus`, `Db.updateFolderSyncStatus`, `Db.refreshUnreadCount`,
  `Db.setFolderTotalCount`, `Db.invalidateFolderFreshness` — its instances
- `Db.upsertFolder`, `Db.insertFolderIfNew`
- `Db.getAllFolders`, `Db.isFolderFresh`, `Db.isFolderMessagesInvalidated`
-/

namespace Rav

namespace Db

variable (db : Db)

/-- `UPDATE folders SET g WHERE name = name`, for columns outside the key. -/
def updateFolder (name : String) (g : CachedFolder → CachedFolder) (hg : ∀ r, (g r).name = r.name) :
    Db :=
  { db with
    folders := db.folders.updateWhere (fun r => r.name = name) g hg
    fk := by
      intro r hr
      obtain ⟨f,hf,hn⟩ := db.fk r hr
      refine ⟨_,List.mem_map.mpr ⟨f,hf,rfl⟩,?_⟩
      split
      · exact (hg f).trans hn
      · exact hn }

/-- Update only the uid_validity and total_count of a folder, and mark its messages synced. -/
def updateFolderStatus (name : String) (uidValidity totalCount : Nat) : Db :=
  db.updateFolder name
    (fun r => { r with
      uidValidity := uidValidity, totalCount := totalCount, messagesUpdatedAt := some db.now })
    (fun _ => rfl)

/-- Update folder sync metadata after a CONDSTORE or STATUS-based sync. -/
def updateFolderSyncStatus (name : String) (uidValidity totalCount highestModseq : Nat) : Db :=
  db.updateFolder name
    (fun r => { r with
      uidValidity := uidValidity, totalCount := totalCount, highestModseq := highestModseq,
      messagesUpdatedAt := some db.now })
    (fun _ => rfl)

/-- Recompute and store the unread count of a folder from the messages table. -/
def refreshUnreadCount (name : String) : Db :=
  let unread := ((db.rowsOf name).filter (fun r => !likeInfix "\\Seen" r.flags)).length
  db.updateFolder name (fun r => { r with unreadCount := unread }) (fun _ => rfl)

def setFolderTotalCount (name : String) (count : Nat) : Db :=
  db.updateFolder name (fun r => { r with totalCount := count }) (fun _ => rfl)

/-- Clear a folder's `messages_updated_at`, so that the next request resyncs it. -/
def invalidateFolderFreshness (name : String) : Db :=
  db.updateFolder name (fun r => { r with messagesUpdatedAt := none }) (fun _ => rfl)

structure UpsertFolderParams where
  name : String
  delimiter : Option String
  parent : Option String
  flagsCsv : String
  isSubscribed : Bool
  totalCount : Nat
  unreadCount : Nat
  uidValidity : Nat
  highestModseq : Nat

def UpsertFolderParams.row (p : UpsertFolderParams) : CachedFolder :=
  ⟨p.name,p.delimiter,p.parent,p.flagsCsv,p.isSubscribed,p.totalCount,p.unreadCount,p.uidValidity,
    p.highestModseq,none⟩

/-- Insert or replace a folder row; replacing one deletes its messages. -/
def upsertFolder (p : UpsertFolderParams) : Db :=
  { db with
    folders := db.folders.insertOrReplace p.row
    messages := db.messages.deleteWhere (fun r => r.folder = p.name)
    fk := by
      intro r hr
      obtain ⟨hr,hne⟩ := List.mem_filter.mp hr
      obtain ⟨f,hf,hn⟩ := db.fk r hr
      have hp : ¬r.folder = p.name := by simpa using hne
      rw [← hn] at hp
      exact ⟨f,List.mem_append_left _ (List.mem_filter.mpr ⟨hf,decide_eq_true hp⟩),hn⟩ }

/-- Insert a folder only if it does not already exist. -/
def insertFolderIfNew (name : String) (delimiter : Option String) (csv : String) : Db :=
  { db with
    folders := db.folders.insertOrIgnore ⟨name,delimiter,none,csv,true,0,0,0,0,none⟩
    fk := by
      intro r hr
      obtain ⟨f,hf,hn⟩ := db.fk r hr
      refine ⟨f,?_,hn⟩
      unfold Table.insertOrIgnore
      split
      · exact hf
      · exact List.mem_append_left _ hf }

/-- All cached folders, sorted by name. -/
def getAllFolders : List CachedFolder :=
  db.folders.rows.insertionSort (fun a b => a.name ≤ b.name)

def getFolder (name : String) : Option CachedFolder := db.folder? name

/-- Whether a folder's messages were synced within the last `maxAgeSecs` seconds. -/
def isFolderFresh (name : String) (maxAgeSecs : Nat) : Bool :=
  match (db.folder? name).bind CachedFolder.messagesUpdatedAt with
  | some t => db.now < t + maxAgeSecs
  | none => false

/-- Whether a folder's messages cache has been invalidated. -/
def isFolderMessagesInvalidated (name : String) : Bool :=
  match db.folder? name with
  | some row => row.messagesUpdatedAt.isNone
  | none => false

/-- The synchronisation checkpoint of a folder: its stored UIDVALIDITY and HIGHESTMODSEQ. -/
def checkpoint (name : String) : Option (Nat × Nat) :=
  (db.folder? name).map (fun r => (r.uidValidity,r.highestModseq))

/-! ### What the statements do -/

variable {db : Db} {f g : String} {u : Nat}

@[simp] theorem message?_updateFolder (k : CachedFolder → CachedFolder) (hk : ∀ r, (k r).name = r.name) :
    (db.updateFolder g k hk).message? f u = db.message? f u := rfl

theorem folder?_updateFolder (k : CachedFolder → CachedFolder) (hk : ∀ r, (k r).name = r.name) :
    (db.updateFolder g k hk).folder? f =
      (db.folder? f).map (fun r => if f = g then k r else r) := by
  simp only [updateFolder,folder?,Table.find?_updateWhere]
  cases h : db.folders.find? f with
  | none => rfl
  | some r =>
    have hr : r.name = f := (Table.find?_eq_some.mp h).2
    simp [hr]

@[simp] theorem rowsOf_updateFolder (k : CachedFolder → CachedFolder) (hk : ∀ r, (k r).name = r.name) :
    (db.updateFolder g k hk).rowsOf f = db.rowsOf f := rfl

@[simp] theorem uids_updateFolder (k : CachedFolder → CachedFolder) (hk : ∀ r, (k r).name = r.name) :
    (db.updateFolder g k hk).uids f = db.uids f := rfl

@[simp] theorem message?_updateFolderStatus (v c : Nat) :
    (db.updateFolderStatus g v c).message? f u = db.message? f u := rfl

@[simp] theorem message?_updateFolderSyncStatus (v c m : Nat) :
    (db.updateFolderSyncStatus g v c m).message? f u = db.message? f u := rfl

@[simp] theorem message?_refreshUnreadCount :
    (db.refreshUnreadCount g).message? f u = db.message? f u := rfl

@[simp] theorem message?_invalidateFolderFreshness :
    (db.invalidateFolderFreshness g).message? f u = db.message? f u := rfl

@[simp] theorem uids_updateFolderStatus (v c : Nat) :
    (db.updateFolderStatus g v c).uids f = db.uids f := rfl

@[simp] theorem uids_updateFolderSyncStatus (v c m : Nat) :
    (db.updateFolderSyncStatus g v c m).uids f = db.uids f := rfl

@[simp] theorem uids_refreshUnreadCount : (db.refreshUnreadCount g).uids f = db.uids f := rfl

@[simp] theorem uids_invalidateFolderFreshness :
    (db.invalidateFolderFreshness g).uids f = db.uids f := rfl

theorem checkpoint_updateFolder (k : CachedFolder → CachedFolder) (hk : ∀ r, (k r).name = r.name)
    (w : Nat × Nat → Nat × Nat)
    (hw : ∀ r, ((k r).uidValidity,(k r).highestModseq) = w (r.uidValidity,r.highestModseq)) :
    (db.updateFolder g k hk).checkpoint f =
      (db.checkpoint f).map (fun c => if f = g then w c else c) := by
  simp only [checkpoint,folder?_updateFolder,Option.map_map]
  congr 1
  funext r
  by_cases hf : f = g <;> simp [hf,hw]

@[simp] theorem checkpoint_updateFolderStatus (v c : Nat) :
    (db.updateFolderStatus g v c).checkpoint f =
      (db.checkpoint f).map (fun p => if f = g then (v,p.2) else p) :=
  checkpoint_updateFolder _ _ (fun p => (v,p.2)) (fun _ => rfl)

@[simp] theorem checkpoint_updateFolderSyncStatus (v c m : Nat) :
    (db.updateFolderSyncStatus g v c m).checkpoint f =
      (db.checkpoint f).map (fun p => if f = g then (v,m) else p) :=
  checkpoint_updateFolder _ _ (fun _ => (v,m)) (fun _ => rfl)

private theorem checkpoint_of_same (k : CachedFolder → CachedFolder) (hk : ∀ r, (k r).name = r.name)
    (hw : ∀ r, ((k r).uidValidity,(k r).highestModseq) = (r.uidValidity,r.highestModseq)) :
    (db.updateFolder g k hk).checkpoint f = db.checkpoint f := by
  rw [checkpoint_updateFolder k hk id hw]
  simp

@[simp] theorem checkpoint_refreshUnreadCount :
    (db.refreshUnreadCount g).checkpoint f = db.checkpoint f :=
  checkpoint_of_same _ _ (fun _ => rfl)

@[simp] theorem checkpoint_setFolderTotalCount (c : Nat) :
    (db.setFolderTotalCount g c).checkpoint f = db.checkpoint f :=
  checkpoint_of_same _ _ (fun _ => rfl)

@[simp] theorem checkpoint_invalidateFolderFreshness :
    (db.invalidateFolderFreshness g).checkpoint f = db.checkpoint f :=
  checkpoint_of_same _ _ (fun _ => rfl)

theorem invalidateFolderFreshness_of_stale
    (h : ∀ row, db.folder? f = some row → row.messagesUpdatedAt = none) :
    db.invalidateFolderFreshness f = db := by
  have hrows : db.folders.updateWhere (fun r => r.name = f)
      (fun r => { r with messagesUpdatedAt := none }) (fun _ => rfl) = db.folders := by
    refine Table.updateWhere_of_forall (fun r hr hn => ?_)
    have hn : r.name = f := by simpa using hn
    have hstale := h r (hn ▸ Table.find?_self hr)
    obtain ⟨a1,a2,a3,a4,a5,a6,a7,a8,a9,a10⟩ := r
    dsimp only at hstale ⊢
    rw [hstale]
  obtain ⟨now,deepIndex,rules,vacation,replies,tags,folders,messages,fk⟩ := db
  simp only [invalidateFolderFreshness,updateFolder,mk.injEq,true_and,and_true]
  exact hrows

@[simp] theorem message?_setFolderTotalCount (c : Nat) :
    (db.setFolderTotalCount g c).message? f u = db.message? f u := rfl

/-- The checkpoints are those of the folder rows. -/
theorem checkpoint_congr {db' : Db} (h : ∀ f, db'.folder? f = db.folder? f) :
    db'.checkpoint f = db.checkpoint f := by
  rw [checkpoint,checkpoint,h]

theorem folder?_insertFolderIfNew (d : Option String) (csv : String) :
    (db.insertFolderIfNew g d csv).folder? f =
      (db.folder? f).or (if f = g then some ⟨g,d,none,csv,true,0,0,0,0,none⟩ else none) :=
  Table.find?_insertOrIgnore _ _ _

@[simp] theorem message?_insertFolderIfNew (d : Option String) (csv : String) :
    (db.insertFolderIfNew g d csv).message? f u = db.message? f u := rfl

theorem message?_upsertFolder (p : UpsertFolderParams) :
    (db.upsertFolder p).message? f u = if f = p.name then none else db.message? f u :=
  message?_deleteFolderMessages

theorem folder?_upsertFolder (p : UpsertFolderParams) :
    (db.upsertFolder p).folder? f = if f = p.name then some p.row else db.folder? f :=
  Table.find?_insertOrReplace _ _ _

end Db

end Rav
