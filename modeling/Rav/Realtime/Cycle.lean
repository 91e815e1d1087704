import Rav.Realtime.SyncSpec

/-!
# A whole cycle

A cycle reads each folder's checkpoint once, synchronises the folders one after the other and
then fills in bodies. No folder's pass touches another folder, and bodies are no part of the
rows' headers, so on each folder the cycle acts as one `syncFolder`.

## Main definitions

- `Db.SameFolder` — two databases that agree on a folder entirely
- `Db.SameHeaders` — two databases that agree on a folder up to bodies
- `Call.Within` — the calls that touch at most one folder
-/

namespace Rav

/-- The two databases agree on a folder's row and messages. -/
def Db.SameFolder (f : String) (db db' : Db) : Prop :=
  db'.folder? f = db.folder? f ∧ ∀ u, db'.message? f u = db.message? f u

namespace Db.SameFolder

variable {f : String} {db db' db'' : Db}

theorem refl (f : String) (db : Db) : Db.SameFolder f db db := ⟨rfl,fun _ => rfl⟩

theorem trans (h : Db.SameFolder f db db') (h' : Db.SameFolder f db' db'') : Db.SameFolder f db db'' :=
  ⟨h'.1.trans h.1,fun u => (h'.2 u).trans (h.2 u)⟩

theorem sameRows (h : Db.SameFolder f db db') : Db.SameRows f db db' :=
  ⟨by rw [Db.checkpoint,Db.checkpoint,h.1],h.2⟩

end Db.SameFolder

/-- A row without its body. -/
def CachedMessage.headerOnly (r : CachedMessage) : CachedMessage := { r with body := none }

/-- The two databases agree on a folder's row and on its messages up to bodies. -/
def Db.SameHeaders (f : String) (db db' : Db) : Prop :=
  db'.folder? f = db.folder? f ∧ ∀ u, (db'.message? f u).map CachedMessage.headerOnly =
    (db.message? f u).map CachedMessage.headerOnly

namespace Db.SameHeaders

variable {f : String} {db db' db'' : Db}

theorem refl (f : String) (db : Db) : Db.SameHeaders f db db := ⟨rfl,fun _ => rfl⟩

theorem trans (h : Db.SameHeaders f db db') (h' : Db.SameHeaders f db' db'') :
    Db.SameHeaders f db db'' :=
  ⟨h'.1.trans h.1,fun u => (h'.2 u).trans (h.2 u)⟩

theorem checkpoint (h : Db.SameHeaders f db db') : db'.checkpoint f = db.checkpoint f := by
  rw [Db.checkpoint,Db.checkpoint,h.1]

theorem uids (h : Db.SameHeaders f db db') : db'.uids f = db.uids f :=
  Db.uids_congr (fun u => by simpa using congrArg Option.isSome (h.2 u))

/-- A row of one database has a row of the other that differs in its body only. -/
theorem exists_row (h : Db.SameHeaders f db db') {u : Nat} {r : CachedMessage}
    (hr : db'.message? f u = some r) :
    ∃ s, db.message? f u = some s ∧ s.headerOnly = r.headerOnly := by
  have hh := h.2 u
  rw [hr,Option.map_some] at hh
  obtain ⟨s,hs,he⟩ := Option.map_eq_some_iff.mp hh.symm
  exact ⟨s,hs,he⟩

end Db.SameHeaders

theorem CachedMessage.flags_of_headerOnly {r s : CachedMessage} (h : s.headerOnly = r.headerOnly) :
    s.flags = r.flags :=
  show s.headerOnly.flags = r.headerOnly.flags by rw [h]

/-! ### Frames -/

/-- Calls that only read from the server. -/
def ImapCall.ReadOnly : ImapCall → Prop
  | .addFlags _ _ _ => False
  | .moveMessage _ _ _ => False
  | _ => True

theorem World.reply_of_readOnly {w : World} {q : ImapCall} (h : q.ReadOnly) : (w.reply q).2 = w := by
  cases q <;> first | rfl | exact h.elim

/-- A call that changes nothing on the server and, in the database, at most what `k` allows. -/
def Call.Allows (k : Db → Db → Prop) : Call → Prop
  | .imap q => q.ReadOnly
  | .withUserDb f => ∀ db, k db (f db).2
  | .publish _ => True
  | .spawn _ => False
  | .notifyWorker => False
  | .sendMessage _ => False

/-- What a task whose calls are all allowed leaves: the server, and the database up to `k`. -/
theorem exec_allows {α : Type} {weather : Weather} (hw : Steady weather) {k : Db → Db → Prop}
    (hrefl : ∀ db, k db db) (htrans : ∀ a b c, k a b → k b c → k a c) {t : Task α}
    (ht : t.All (Call.Allows k)) (w : World) :
    (Task.exec weather t w).2.server = w.server ∧ k w.db (Task.exec weather t w).2.db := by
  refine Prog.run_invariant (Q := Call.Allows k)
    (P := fun s : World => s.server = w.server ∧ k w.db s.db) (fun _ _ _ => trivial) ?_ ht ⟨rfl,hrefl _⟩
  rintro e s he ⟨hs,hk⟩
  cases e with
  | imap q =>
    have hd : s.drift (weather.before q) = s := by
      rw [hw q]
      rfl
    simp only [handle,hd]
    cases weather.fails q with
    | some e => exact ⟨hs,hk⟩
    | none =>
      dsimp only
      rw [World.reply_of_readOnly he]
      exact ⟨hs,hk⟩
  | withUserDb f => exact ⟨hs,htrans _ _ _ hk (he s.db)⟩
  | publish e => exact ⟨hs,hk⟩
  | spawn p => exact he.elim
  | notifyWorker => exact he.elim
  | sendMessage m => exact he.elim

/-- Such a task starts no background fetch. -/
theorem exec_allows_background {α : Type} {weather : Weather} {k : Db → Db → Prop} {t : Task α}
    (ht : t.All (Call.Allows k)) (w : World) :
    (Task.exec weather t w).2.background = w.background := by
  refine Prog.run_invariant (Q := Call.Allows k)
    (P := fun s : World => s.background = w.background) (fun _ _ _ => trivial) ?_ ht rfl
  rintro e s he hs
  cases e with
  | imap q =>
    simp only [handle]
    split
    · rw [World.drift_background,hs]
    · rw [World.reply_of_readOnly he,World.drift_background,hs]
  | withUserDb f => exact hs
  | publish e => exact hs
  | spawn p => exact he.elim
  | notifyWorker => exact he.elim
  | sendMessage m => exact he.elim

/-- The change touches no folder but `f`. -/
def OnlyFolder (f : String) (db db' : Db) : Prop := ∀ g, g ≠ f → Db.SameFolder g db db'

theorem onlyFolder_refl (f : String) (db : Db) : OnlyFolder f db db :=
  fun g _ => Db.SameFolder.refl g db

theorem onlyFolder_trans {f : String} (a b c : Db) (h : OnlyFolder f a b) (h' : OnlyFolder f b c) :
    OnlyFolder f a c := fun g hg => (h g hg).trans (h' g hg)

theorem onlyFolder_of_rows {f : String} {db db' : Db} (hf : ∀ g, db'.folder? g = db.folder? g)
    (hm : ∀ g u, g ≠ f → db'.message? g u = db.message? g u) : OnlyFolder f db db' :=
  fun g hg => ⟨hf g,fun u => hm g u hg⟩

theorem onlyFolder_updateFolder {f : String} {db : Db} (k : CachedFolder → CachedFolder)
    (hk : ∀ r, (k r).name = r.name) : OnlyFolder f db (db.updateFolder f k hk) := by
  intro g hg
  refine ⟨?_,fun u => rfl⟩
  rw [Db.folder?_updateFolder]
  simp [hg]

/-- The calls that touch at most the folder `f`. -/
abbrev Call.Within (f : String) : Call → Prop := Call.Allows (OnlyFolder f)

section Within

variable (f : String)

theorem fetchAndStoreNew_within (n : Nat) : (fetchAndStoreNew f n).All (Call.Within f) := by
  refine Prog.AllWhere.bind (Prog.all_perform trivial) (fun r => ?_)
  rcases r with e | headers
  · trivial
  · dsimp only
    split
    · trivial
    · refine Prog.AllWhere.bind (Prog.all_perform (fun db => ?_)) (fun _ => trivial)
      exact onlyFolder_of_rows (fun g => folder?_storeHeaders _)
        (fun g u hg => message?_storeHeaders_of_ne _ hg)

theorem syncFull_within (st : FolderStatusExtended) : (syncFull f st).All (Call.Within f) := by
  refine Prog.AllWhere.bind (Prog.all_perform (fun db => onlyFolder_refl f db)) (fun cached => ?_)
  split
  · exact Prog.AllWhere.bind (Prog.all_perform (fun db => onlyFolder_updateFolder _ _))
      (fun _ => trivial)
  · refine Prog.AllWhere.bind (Prog.all_perform trivial) (fun r => ?_)
    rcases r with e | imapState
    · trivial
    · refine Prog.AllWhere.bind (Prog.all_perform (fun db => ?_)) (fun changed => ?_)
      · exact onlyFolder_trans _ _ _
          (onlyFolder_of_rows (fun g => folder?_reconcile _ _)
            (fun g u hg => message?_reconcile_of_ne _ _ hg))
          (onlyFolder_updateFolder _ _)
      · refine Prog.AllWhere.bind ?_ (fun changed => ?_)
        · unfold fetchNewFull
          split
          · refine Prog.AllWhere.bind (fetchAndStoreNew_within f _) (fun r => ?_)
            split
            split
            · exact Prog.AllWhere.bind
                (Prog.all_perform (fun db => onlyFolder_updateFolder _ _))
                (fun _ => Prog.AllWhere.bind (Prog.all_perform trivial) (fun _ => trivial))
            · trivial
          · trivial
        · dsimp only
          split
          · exact Prog.AllWhere.bind (Prog.all_perform trivial) (fun _ => trivial)
          · trivial

theorem removeDeleted_within (vanished : Option (List Nat)) (n k : Nat) :
    (removeDeleted f vanished n k).All (Call.Within f) := by
  have hdel : ∀ us db, OnlyFolder f db (deleteUids f us db) := fun us db =>
    onlyFolder_of_rows (fun g => folder?_deleteUids us)
      (fun g u hg => by rw [message?_deleteUids,if_neg (fun h => hg h.1)])
  cases vanished with
  | some us =>
    unfold removeDeleted
    dsimp only
    split
    · trivial
    · exact Prog.all_perform (fun db => hdel us db)
  | none =>
    unfold removeDeleted
    dsimp only
    split
    · refine Prog.AllWhere.bind (Prog.all_perform trivial) (fun r => ?_)
      rcases r with e | imapState
      · trivial
      · exact Prog.all_perform (fun db => hdel _ db)
    · trivial

theorem syncCondstore_within (m : Nat) (st : FolderStatusExtended) :
    (syncCondstore f m st).All (Call.Within f) := by
  refine Prog.AllWhere.bind (Prog.all_perform trivial) (fun r => ?_)
  rcases r with e | delta
  · exact syncFull_within f st
  · refine Prog.AllWhere.bind (Prog.all_perform (fun db => ?_)) (fun _ => ?_)
    · exact onlyFolder_of_rows (fun g => folder?_applyChanged _)
        (fun g u hg => message?_applyChanged_of_ne _ hg)
    refine Prog.AllWhere.bind (Prog.all_perform (fun db => onlyFolder_refl f db)) (fun n => ?_)
    refine Prog.AllWhere.bind (removeDeleted_within f _ _ _) (fun removed => ?_)
    refine Prog.AllWhere.bind ?_ (fun fetched => ?_)
    · refine Prog.AllWhere.bind (Prog.all_perform (fun db => onlyFolder_refl f db)) (fun k => ?_)
      split
      · refine Prog.AllWhere.bind (fetchAndStoreNew_within f _) (fun r => ?_)
        split
        exact Prog.AllWhere.bind
          (Prog.all_perform (fun db => onlyFolder_updateFolder _ _))
          (fun _ => Prog.AllWhere.bind (Prog.all_perform trivial) (fun _ => trivial))
      · trivial
    · refine Prog.AllWhere.bind (Prog.all_perform (fun db => onlyFolder_updateFolder _ _))
        (fun _ => ?_)
      dsimp only
      split
      · exact Prog.AllWhere.bind (Prog.all_perform trivial) (fun _ => trivial)
      · trivial

/-- A folder's pass touches no other folder. -/
theorem syncFolder_within (snap : FolderSnapshot) : (syncFolder snap).All (Call.Within snap.name) := by
  refine Prog.AllWhere.bind (Prog.all_perform trivial) (fun r => ?_)
  rcases r with e | status
  · trivial
  · dsimp only
    unfold syncStatus
    split
    · exact Prog.AllWhere.bind (Prog.all_perform (fun db => onlyFolder_updateFolder _ _))
        (fun _ => Prog.AllWhere.bind (Prog.all_perform trivial) (fun _ => trivial))
    · refine Prog.AllWhere.bind ?_ (fun skip => ?_)
      · unfold unchanged
        split
        · exact Prog.AllWhere.bind
            (Prog.all_perform (fun db => onlyFolder_refl _ db)) (fun _ => trivial)
        · trivial
      · split
        · trivial
        · split
          · exact syncCondstore_within _ _ _
          · exact syncFull_within _ _

end Within

/-- The deep index phase changes bodies only. -/
theorem indexMessageBodies_allows :
    indexMessageBodies.All (Call.Allows (fun db db' => ∀ f, Db.SameHeaders f db db')) := by
  refine Prog.AllWhere.bind (Prog.all_perform (fun db f => Db.SameHeaders.refl f db))
    (fun unindexed => ?_)
  induction unindexed with
  | nil => trivial
  | cons p rest ih =>
    unfold indexBodies
    split
    · exact ih
    · refine Prog.AllWhere.bind (Prog.all_perform trivial) (fun r => ?_)
      rcases r with e | body
      · exact ih
      · refine Prog.AllWhere.bind (Prog.all_perform (fun db f => ⟨rfl,fun u => ?_⟩))
          (fun _ => ih)
        simp only [Db.message?_cacheMessageBody,Option.map_map]
        congr 1
        funext r
        simp only [Function.comp_apply]
        split <;> rfl

/-! ### The cycle on one folder -/

variable {weather : Weather} {w : World} {f : String}

theorem exec_syncFolders_frame (hw : Steady weather) {snaps : List FolderSnapshot}
    (hf : ∀ s ∈ snaps, s.name ≠ f) (w : World) :
    (Task.exec weather (syncFolders snaps) w).2.server = w.server ∧
      Db.SameFolder f w.db (Task.exec weather (syncFolders snaps) w).2.db := by
  induction snaps generalizing w with
  | nil => exact ⟨rfl,Db.SameFolder.refl f _⟩
  | cons s rest ih =>
    have h1 := exec_allows hw (onlyFolder_refl _) onlyFolder_trans (syncFolder_within s) w
    have h2 := ih (fun s hs => hf s (List.mem_cons_of_mem _ hs)) (Task.exec weather (syncFolder s) w).2
    simp only [syncFolders,Task.exec_bind,Task.exec_pure]
    exact ⟨h2.1.trans h1.1,(h1.2 f (hf s List.mem_cons_self).symm).trans h2.2⟩

/-- Among folders of distinct names, a folder is synchronised as if it were alone. -/
theorem exec_syncFolders (hw : Steady weather) {snaps : List FolderSnapshot}
    (hnd : (snaps.map FolderSnapshot.name).Nodup) {snap : FolderSnapshot} (hs : snap ∈ snaps)
    (w : World) :
    ∃ w₁, w₁.server = w.server ∧ Db.SameFolder snap.name w.db w₁.db ∧
      (Task.exec weather (syncFolders snaps) w).2.server = w.server ∧
      Db.SameFolder snap.name (Task.exec weather (syncFolder snap) w₁).2.db
        (Task.exec weather (syncFolders snaps) w).2.db := by
  induction snaps generalizing w with
  | nil => simp at hs
  | cons s rest ih =>
    obtain ⟨hn,hnd⟩ := List.nodup_cons.mp hnd
    have h1 := exec_allows hw (onlyFolder_refl _) onlyFolder_trans (syncFolder_within s) w
    simp only [syncFolders,Task.exec_bind,Task.exec_pure]
    rcases List.mem_cons.mp hs with rfl | hs
    · have h2 := exec_syncFolders_frame (f := snap.name) hw
        (fun t ht he => hn (List.mem_map.mpr ⟨t,ht,he⟩)) (Task.exec weather (syncFolder snap) w).2
      exact ⟨w,rfl,Db.SameFolder.refl _ _,h2.1.trans h1.1,h2.2⟩
    · have hne : snap.name ≠ s.name := fun he => hn (List.mem_map.mpr ⟨snap,hs,he⟩)
      obtain ⟨w₁,hsrv,hdb,hsrv',hdb'⟩ := ih hnd hs (Task.exec weather (syncFolder s) w).2
      exact ⟨w₁,hsrv.trans h1.1,(h1.2 _ hne).trans hdb,hsrv'.trans h1.1,hdb'⟩

theorem mem_folderSnapshots {db : Db} {snap : FolderSnapshot} :
    snap ∈ folderSnapshots db ↔
      ∃ row, db.folder? snap.name = some row ∧ snap = ⟨row.name,row.uidValidity,row.highestModseq⟩ := by
  simp only [folderSnapshots,Db.getAllFolders,List.mem_map,List.mem_insertionSort]
  constructor
  · rintro ⟨row,hrow,rfl⟩
    exact ⟨row,Table.find?_self hrow,rfl⟩
  · rintro ⟨row,hrow,hs⟩
    exact ⟨row,(Table.find?_eq_some.mp hrow).1,hs.symm⟩

theorem nodup_folderSnapshots (db : Db) : ((folderSnapshots db).map FolderSnapshot.name).Nodup := by
  rw [folderSnapshots,List.map_map]
  have hp : (db.getAllFolders.map CachedFolder.name).Perm (db.folders.rows.map CachedFolder.name) :=
    (List.perm_insertionSort _ _).map _
  exact hp.nodup_iff.mpr db.folders.nodup

/-- On a folder with a row, a cycle acts as the folder's pass with the row's checkpoint. -/
theorem exec_runSync (hw : Steady weather) {v m : Nat} (hc : w.db.checkpoint f = some (v,m)) :
    ∃ w₁, w₁.server = w.server ∧ Db.SameFolder f w.db w₁.db ∧
      (Task.exec weather runSync w).2.server = w.server ∧
      Db.SameHeaders f (Task.exec weather (syncFolder ⟨f,v,m⟩) w₁).2.db
        (Task.exec weather runSync w).2.db := by
  obtain ⟨row,hrow,hvm⟩ := Option.map_eq_some_iff.mp hc
  obtain ⟨rfl,rfl⟩ := Prod.mk.inj hvm
  have hname : row.name = f := (Table.find?_eq_some.mp hrow).2
  have hmem : (⟨f,row.uidValidity,row.highestModseq⟩ : FolderSnapshot) ∈ folderSnapshots w.db :=
    mem_folderSnapshots.mpr ⟨row,hrow,by rw [hname]⟩
  obtain ⟨w₁,h1,h2,h3,h4⟩ := exec_syncFolders hw (nodup_folderSnapshots w.db) hmem w
  refine ⟨w₁,h1,h2,?_⟩
  simp only [runSync,syncSnapshots,Task.exec_bind,Task.exec_query]
  have hidx := fun s => exec_allows hw (fun db f => Db.SameHeaders.refl f db)
    (fun a b c h h' f => (h f).trans (h' f)) indexMessageBodies_allows s
  have hfin : ∀ s : World, s.server = w.server → s.db =
      (Task.exec weather (syncFolders (folderSnapshots w.db)) w).2.db →
      (Task.exec weather indexMessageBodies s).2.server = w.server ∧
        Db.SameHeaders f (Task.exec weather (syncFolder ⟨f,row.uidValidity,row.highestModseq⟩) w₁).2.db
          (Task.exec weather indexMessageBodies s).2.db := by
    intro s hs hdb
    obtain ⟨hi,hk⟩ := hidx s
    refine ⟨hi.trans hs,Db.SameHeaders.trans ?_ (hk f)⟩
    rw [hdb]
    exact ⟨h4.1,fun u => by rw [h4.2 u]⟩
  split
  · exact hfin _ h3 rfl
  · exact hfin _ h3 rfl

/-- Calls of the cycle: no mail is sent and no background fetch is started. -/
theorem runSync_allows : runSync.All (Call.Allows (fun _ _ => True)) := by
  have hweak : ∀ {k : Db → Db → Prop} (e : Call), Call.Allows k e → Call.Allows (fun _ _ => True) e := by
    intro k e he
    cases e with
    | withUserDb g => exact fun _ => trivial
    | _ => exact he
  refine Prog.AllWhere.bind (Prog.all_perform (fun _ => trivial)) (fun snaps => ?_)
  refine Prog.AllWhere.bind ?_ (fun any => ?_)
  · induction snaps with
    | nil => trivial
    | cons s rest ih =>
      exact Prog.AllWhere.bind ((syncFolder_within s).mono hweak)
        (fun _ => Prog.AllWhere.bind ih (fun _ => trivial))
  · have hidx := indexMessageBodies_allows.mono hweak
    dsimp only
    split
    · exact Prog.AllWhere.bind (Prog.all_perform trivial) (fun _ => hidx)
    · exact hidx

/-- A cycle knows nothing of a folder without a row. -/
theorem exec_runSync_noRow (hw : Steady weather) (hc : w.db.checkpoint f = none) :
    (Task.exec weather runSync w).2.server = w.server ∧
      Db.SameHeaders f w.db (Task.exec weather runSync w).2.db := by
  have hne : ∀ s ∈ folderSnapshots w.db, s.name ≠ f := by
    rintro s hs rfl
    obtain ⟨row,hrow,-⟩ := mem_folderSnapshots.mp hs
    simp [Db.checkpoint,hrow] at hc
  obtain ⟨h1,h2⟩ := exec_syncFolders_frame hw hne w
  simp only [runSync,syncSnapshots,Task.exec_bind,Task.exec_query]
  have hfin : ∀ s : World, s.server = w.server → s.db =
      (Task.exec weather (syncFolders (folderSnapshots w.db)) w).2.db →
      (Task.exec weather indexMessageBodies s).2.server = w.server ∧
        Db.SameHeaders f w.db (Task.exec weather indexMessageBodies s).2.db := by
    intro s hs hdb
    obtain ⟨hi,hk⟩ := exec_allows hw (fun db f => Db.SameHeaders.refl f db)
      (fun a b c h h' f => (h f).trans (h' f)) indexMessageBodies_allows s
    refine ⟨hi.trans hs,Db.SameHeaders.trans ?_ (hk f)⟩
    rw [hdb]
    exact ⟨h2.1,fun u => by rw [h2.2 u]⟩
  split
  · exact hfin _ h1 rfl
  · exact hfin _ h1 rfl

/-! ### One folder's pass -/

/-- The checkpoint and the number of messages match the server's. -/
def Matches (b : Mailbox) (m count : Nat) : Prop :=
  0 < b.reportedModseq ∧ 0 < m ∧ b.reportedModseq = m ∧ b.messages.length = count

instance (b : Mailbox) (m count : Nat) : Decidable (Matches b m count) := by
  unfold Matches; infer_instance

theorem exec_syncFolder_of_error (hw : Steady weather) {v m : Nat} {e : ImapError}
    (he : weather.fails (.folderStatusExtended f) = some e) :
    (Task.exec weather (syncFolder ⟨f,v,m⟩) w).2 = w := by
  simp only [syncFolder,syncStatus,Task.exec_bind,exec_imap_steady hw,he,Task.exec_pure]

/-- Under another UIDVALIDITY the pass only invalidates the folder. -/
theorem exec_syncFolder_of_stale (hw : Steady weather) {v m : Nat} (hv : v ≠ 0)
    (hne : (w.server f).uidValidity ≠ v)
    (hok : weather.fails (.folderStatusExtended f) = none) :
    (Task.exec weather (syncFolder ⟨f,v,m⟩) w).2.server = w.server ∧
      Db.SameRows f w.db (Task.exec weather (syncFolder ⟨f,v,m⟩) w).2.db := by
  have hc : v ≠ 0 ∧ (w.server f).statusExtended.uidValidity ≠ v := ⟨hv,hne⟩
  simp only [syncFolder,syncStatus,Task.exec_bind,exec_imap_steady hw,hok,World.reply,if_pos hc]
  exact ⟨rfl,Db.sameRows_invalidateFolderFreshness⟩

/-- Under the stored UIDVALIDITY, or none, the pass skips, or takes one of the two paths. -/
theorem exec_syncFolder (hw : Steady weather) {v m : Nat}
    (hv : v = 0 ∨ (w.server f).uidValidity = v)
    (hok : weather.fails (.folderStatusExtended f) = none) :
    (Task.exec weather (syncFolder ⟨f,v,m⟩) w).2 =
      if Matches (w.server f) m (w.db.countMessages f) then w
      else if 0 < (w.server f).reportedModseq ∧ 0 < m then
        (Task.exec weather (syncCondstore f m (w.server f).statusExtended) w).2
      else (Task.exec weather (syncFull f (w.server f).statusExtended) w).2 := by
  have hc : ¬(v ≠ 0 ∧ (w.server f).statusExtended.uidValidity ≠ v) := by
    rintro ⟨h0,hne⟩
    exact hne (hv.resolve_left h0)
  have hm : (w.server f).statusExtended.highestModseq = (w.server f).reportedModseq := rfl
  have he : (w.server f).statusExtended.exists_ = (w.server f).messages.length := rfl
  have hun : Task.exec weather (unchanged ⟨f,v,m⟩ (w.server f).statusExtended) w =
      (decide (Matches (w.server f) m (w.db.countMessages f)),w) := by
    simp only [unchanged,hm,he,Task.exec_ite,Task.exec_bind,Task.exec_query,Task.exec_pure]
    by_cases hp : 0 < (w.server f).reportedModseq ∧ 0 < m ∧ (w.server f).reportedModseq = m
    · rw [if_pos hp]
      by_cases hn : (w.server f).messages.length = w.db.countMessages f <;> simp [Matches,hp,hn]
    · rw [if_neg hp]
      have : ¬Matches (w.server f) m (w.db.countMessages f) := fun h => hp ⟨h.1,h.2.1,h.2.2.1⟩
      simp [this]
  simp only [syncFolder,syncStatus,Task.exec_bind,exec_imap_steady hw,hok,World.reply,if_neg hc,hun,
    Task.exec_ite,Task.exec_pure,hm,decide_eq_true_eq]
  split
  · rfl
  · split <;> rfl

end Rav
