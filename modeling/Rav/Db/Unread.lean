import Rav.Db.Folders

/-!
# Unread counts

Each folder row carries the number of the folder's unread messages. It is recomputed from the rows, or
adjusted where the folder's messages are invalidated until they are synced again.

## Main definitions

- `CachedMessage.unread`, `Db.unreadCount` — unread messages, and how many there are
- `Db.adjustUnreadCount`, `Db.markAllSeen`, `Db.filterExistingUids` — statements
- `Db.CountedAt`, `Db.Counted` — the counters are right
-/

namespace Rav

/-- `flags NOT LIKE '%\Seen%'`. -/
def CachedMessage.unread (r : CachedMessage) : Bool := !likeInfix "\\Seen" r.flags

namespace Db

/-- The number of unread messages of a folder. -/
def unreadCount (db : Db) (f : String) : Nat := ((db.rowsOf f).filter CachedMessage.unread).length

/-- Adjust a folder's unread count, not below zero. -/
def adjustUnreadCount (db : Db) (name : String) (delta : Int) : Db :=
  db.updateFolder name
    (fun r => { r with unreadCount := ((r.unreadCount : Int) + delta).toNat }) (fun _ => rfl)

/-- Add `\Seen` to the flags of every unread message of a folder. -/
def markAllSeen (db : Db) (folder : String) : Db :=
  db.updateMessagesWhere (fun r => r.folder = folder && r.unread)
    (fun r => r.setFlags (if r.flags = "" then "\\Seen" else r.flags ++ ",\\Seen"))
    (fun r => r.setFlags_key _)

/-- Those of some UIDs that are cached in a folder. -/
def filterExistingUids (db : Db) (folder : String) (uids : List Nat) : List Nat :=
  uids.filter (fun u => (db.message? folder u).isSome)

/-- The counter of a folder is right, unless the folder is invalidated. -/
def CountedAt (db : Db) (f : String) : Prop :=
  ∀ row, db.folder? f = some row → row.messagesUpdatedAt.isSome = true →
    row.unreadCount = db.unreadCount f

/-- The counters of all folders that are not invalidated are right. -/
def Counted (db : Db) : Prop := ∀ f, db.CountedAt f

/-- A folder has a row and is not invalidated. -/
def Valid (db : Db) (f : String) : Bool :=
  (db.folder? f).any (fun row => row.messagesUpdatedAt.isSome)

/-! ### Counting -/

variable {db db' : Db} {f g : String}

/-- The UIDs of the unread messages of a folder. -/
def unreadUids (db : Db) (f : String) : Finset Nat :=
  (((db.rowsOf f).filter CachedMessage.unread).map CachedMessage.uid).toFinset

theorem card_unreadUids : (db.unreadUids f).card = db.unreadCount f := by
  have hnd : (((db.rowsOf f).filter CachedMessage.unread).map CachedMessage.uid).Nodup :=
    db.nodup_uids.sublist (List.filter_sublist.map _)
  rw [unreadUids,List.toFinset_card_of_nodup hnd,List.length_map,unreadCount]

theorem mem_unreadUids {u : Nat} :
    u ∈ db.unreadUids f ↔ ∃ r, db.message? f u = some r ∧ r.unread = true := by
  simp only [unreadUids,List.mem_toFinset,List.mem_map,List.mem_filter]
  constructor
  · rintro ⟨r,⟨hr,hu⟩,rfl⟩
    exact ⟨r,mem_rowsOf_iff.mp hr,hu⟩
  · rintro ⟨r,hr,hu⟩
    obtain rfl : r.uid = u := (message?_eq_some.mp hr).2.1
    exact ⟨r,⟨mem_rowsOf_iff.mpr hr,hu⟩,rfl⟩

/-- The number depends only on which messages are unread. -/
theorem unreadCount_congr (h : ∀ u, (db'.message? f u).any CachedMessage.unread =
    (db.message? f u).any CachedMessage.unread) : db'.unreadCount f = db.unreadCount f := by
  have hmem : ∀ d : Db, ∀ u, u ∈ d.unreadUids f ↔
      (d.message? f u).any CachedMessage.unread = true := by
    intro d u
    rw [mem_unreadUids,Option.any_eq_true]
  rw [← card_unreadUids,← card_unreadUids]
  congr 1
  ext u
  rw [hmem,hmem,h]

/-! ### Right counters -/

theorem counted_iff : db.Counted ↔ ∀ row ∈ db.folders.rows, row.messagesUpdatedAt.isSome = true →
    row.unreadCount = db.unreadCount row.name := by
  constructor
  · intro h row hrow hvalid
    exact h row.name row (Table.find?_self hrow) hvalid
  · intro h f row hrow hvalid
    obtain ⟨hmem,rfl⟩ := Table.find?_eq_some.mp hrow
    exact h row hmem hvalid

theorem CountedAt.congr (h : db.CountedAt f) (hrow : db'.folder? f = db.folder? f)
    (hcount : db'.unreadCount f = db.unreadCount f) : db'.CountedAt f := by
  intro row hr hvalid
  rw [hcount]
  exact h row (hrow.symm.trans hr) hvalid

/-- Right after it is recomputed a counter is right, whether or not the folder is invalidated. -/
theorem unreadCount_of_refresh {row : CachedFolder}
    (h : (db.refreshUnreadCount f).folder? f = some row) : row.unreadCount = db.unreadCount f := by
  rw [refreshUnreadCount,folder?_updateFolder] at h
  obtain ⟨r,_,rfl⟩ := Option.map_eq_some_iff.mp h
  rw [if_pos rfl]
  rfl

theorem countedAt_refreshUnreadCount : (db.refreshUnreadCount f).CountedAt f := by
  intro row hrow _
  have hcount : row.unreadCount = db.unreadCount f := unreadCount_of_refresh hrow
  exact hcount

theorem countedAt_invalidateFolderFreshness : (db.invalidateFolderFreshness f).CountedAt f := by
  intro row hrow hvalid
  rw [invalidateFolderFreshness,folder?_updateFolder] at hrow
  obtain ⟨r,_,rfl⟩ := Option.map_eq_some_iff.mp hrow
  rw [if_pos rfl] at hvalid
  exact absurd hvalid Bool.false_ne_true

end Db

end Rav
