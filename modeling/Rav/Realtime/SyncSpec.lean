import Rav.Realtime.SyncRows

/-!
# What a sync cycle does

Under a weather without changes on the server (calls may still fail) each path of the cycle
is a function of the folder's cache and its mailbox. A cycle over all folders acts on each
folder as `syncFolder` alone would.

## Main definitions

- `Db.SameRows` — two databases that agree on a folder's rows and checkpoint
- `Steady` — a weather in which the server changes nothing
- `newHeaders` — the headers `fetchAndStoreNew` gets to store
- `afterRemoval` — the database after the removal part of the CONDSTORE path
-/

namespace Rav

/-- The two databases agree on the rows and the checkpoint of a folder. -/
def Db.SameRows (f : String) (db db' : Db) : Prop :=
  db'.checkpoint f = db.checkpoint f ∧ ∀ u, db'.message? f u = db.message? f u

namespace Db.SameRows

variable {f : String} {db db' db'' : Db}

theorem refl (f : String) (db : Db) : Db.SameRows f db db := ⟨rfl,fun _ => rfl⟩

theorem trans (h : Db.SameRows f db db') (h' : Db.SameRows f db' db'') : Db.SameRows f db db'' :=
  ⟨h'.1.trans h.1,fun u => (h'.2 u).trans (h.2 u)⟩

theorem uids (h : Db.SameRows f db db') : db'.uids f = db.uids f :=
  Db.uids_congr (fun u => by rw [h.2 u])

theorem updateFolderSyncStatus (h : Db.SameRows f db db') (v c m : Nat) :
    Db.SameRows f (db.updateFolderSyncStatus f v c m) (db'.updateFolderSyncStatus f v c m) :=
  ⟨by rw [Db.checkpoint_updateFolderSyncStatus,Db.checkpoint_updateFolderSyncStatus,h.1],h.2⟩

end Db.SameRows

theorem Db.sameRows_refreshUnreadCount {db : Db} {f g : String} :
    Db.SameRows f db (db.refreshUnreadCount g) := ⟨by simp,fun _ => by simp⟩

theorem Db.sameRows_invalidateFolderFreshness {db : Db} {f g : String} :
    Db.SameRows f db (db.invalidateFolderFreshness g) := ⟨by simp,fun _ => by simp⟩

/-- The server changes nothing while a task runs; calls may fail. -/
def Steady (weather : Weather) : Prop := ∀ q, weather.before q = []

theorem steady_calm : Steady calm := fun _ => rfl

variable {weather : Weather} {w : World} {f : String}

/-- A failing or answered call in steady weather. -/
theorem exec_imap_steady (hw : Steady weather) (q : ImapCall) :
    Task.exec weather (Task.imap q) w =
      match weather.fails q with
      | some e => (.error e,w)
      | none => w.reply q := by
  simp only [Task.exec_imap,handle,hw q,World.drift,List.foldl_nil]
  cases weather.fails q <;> rfl

/-! ### Fetching new headers -/

/-- The headers `fetchAndStoreNew` gets to store. -/
def newHeaders (weather : Weather) (b : Mailbox) (f : String) (fromUid : Nat) :
    List ImapMessageHeader :=
  match weather.fails (.fetchHeaders f (.fromOn fromUid)) with
  | some _ => []
  | none => (b.headers (.fromOn fromUid)).filter (fun h => fromUid ≤ h.uid)

theorem exec_fetchAndStoreNew (hw : Steady weather) (n : Nat) :
    (Task.exec weather (fetchAndStoreNew f n) w).2 =
        { w with db := storeHeaders f (newHeaders weather (w.server f) f n) w.db } ∧
      (Task.exec weather (fetchAndStoreNew f n) w).1.1 =
        (newHeaders weather (w.server f) f n).length := by
  simp only [fetchAndStoreNew,Task.exec_bind,exec_imap_steady hw]
  unfold newHeaders
  cases hf : weather.fails (.fetchHeaders f (.fromOn n)) with
  | some e => exact ⟨rfl,rfl⟩
  | none =>
    simp only [World.reply]
    split
    · next he =>
      rw [List.isEmpty_iff.mp he]
      exact ⟨rfl,rfl⟩
    · exact ⟨rfl,rfl⟩

theorem Mailbox.le_topUid {b : Mailbox} {m : Message} (h : m ∈ b.messages) : m.uid ≤ b.topUid := by
  have hmem : m.uid ∈ b.messages.map Message.uid := List.mem_map.mpr ⟨m,h,rfl⟩
  unfold Mailbox.topUid
  generalize b.messages.map Message.uid = us at hmem
  induction us with
  | nil => simp at hmem
  | cons v vs ih =>
    rw [List.foldr_cons]
    rcases List.mem_cons.mp hmem with rfl | hv
    · exact Nat.le_max_left _ _
    · exact Nat.le_trans (ih hv) (Nat.le_max_right _ _)

theorem mem_headers_fromOn {b : Mailbox} {n : Nat} {h : ImapMessageHeader} :
    h ∈ (b.headers (.fromOn n)).filter (fun h => n ≤ h.uid) ↔
      ∃ m ∈ b.messages, n ≤ m.uid ∧ b.stamp m = h := by
  simp only [Mailbox.headers,List.mem_filter,List.mem_map,Mailbox.inUidSet,Bool.and_eq_true,
    decide_eq_true_eq]
  constructor
  · rintro ⟨⟨m,⟨hm,-⟩,rfl⟩,hn⟩
    exact ⟨m,hm,hn,rfl⟩
  · rintro ⟨m,hm,hn,rfl⟩
    have := Mailbox.le_topUid hm
    exact ⟨⟨m,⟨hm,by omega⟩,rfl⟩,hn⟩

theorem newHeaders_of_ok {b : Mailbox} {n : Nat} (h : weather.fails (.fetchHeaders f (.fromOn n)) = none)
    {k : ImapMessageHeader} :
    k ∈ newHeaders weather b f n ↔ ∃ m ∈ b.messages, n ≤ m.uid ∧ b.stamp m = k := by
  simp only [newHeaders,h]
  exact mem_headers_fromOn

theorem newHeaders_subset {b : Mailbox} {n : Nat} {k : ImapMessageHeader}
    (h : k ∈ newHeaders weather b f n) : ∃ m ∈ b.messages, n ≤ m.uid ∧ b.stamp m = k := by
  unfold newHeaders at h
  split at h
  · simp at h
  · exact mem_headers_fromOn.mp h

/-- Without a message from `n` on there is nothing to store. -/
theorem newHeaders_eq_nil {b : Mailbox} {n : Nat} (h : ∀ m ∈ b.messages, m.uid < n) :
    newHeaders weather b f n = [] := by
  refine List.eq_nil_iff_forall_not_mem.mpr (fun k hk => ?_)
  obtain ⟨m,hm,hn,-⟩ := newHeaders_subset hk
  exact absurd (h m hm) (by omega)

/-! ### The full fetch -/

/-- The server's UID list as the full fetch keeps it. -/
def imapMapOf (b : Mailbox) : List (Nat × String) :=
  b.uidsAndFlags.map (fun p => (p.1,sortedFlagsCsv p.2))

theorem mem_imapMapOf {b : Mailbox} {p : Nat × String} :
    p ∈ imapMapOf b ↔ ∃ m ∈ b.messages, (m.uid,sortedFlagsCsv m.header.flags) = p := by
  simp [imapMapOf,Mailbox.uidsAndFlags]

theorem exec_fetchNewFull (hw : Steady weather) {b : Mailbox} (hb : w.server f = b) {n : Nat}
    (hn : n + 1 < 2 ^ 32) (changed : Bool) :
    (Task.exec weather (fetchNewFull f (imapMapOf b) n changed) w).2.server = w.server ∧
      Db.SameRows f (storeHeaders f (newHeaders weather b f (n + 1)) w.db)
        (Task.exec weather (fetchNewFull f (imapMapOf b) n changed) w).2.db := by
  have hfetch := exec_fetchAndStoreNew (f := f) (w := w) hw (n + 1)
  rw [hb] at hfetch
  simp only [fetchNewFull,succU32_of_lt hn,Task.exec_ite,Task.exec_bind,Task.exec_execute,
    Task.exec_publish,Task.exec_pure,hfetch.1]
  split
  · split
    · exact ⟨rfl,Db.sameRows_refreshUnreadCount⟩
    · exact ⟨rfl,Db.SameRows.refl _ _⟩
  · next hany =>
    have hnil : newHeaders weather b f (n + 1) = [] := by
      refine newHeaders_eq_nil (fun m hm => ?_)
      have := hany
      simp only [List.any_eq_true,not_exists,not_and,Bool.not_eq_true] at this
      have hlt := this _ (mem_imapMapOf.mpr ⟨m,hm,rfl⟩)
      have : ¬n < m.uid := by simpa using hlt
      omega
    rw [hnil]
    exact ⟨rfl,Db.SameRows.refl _ _⟩

/-- The full fetch of an empty cache only writes the checkpoint. -/
theorem exec_syncFull_of_empty (h : w.db.uids f = ∅) (st : FolderStatusExtended) :
    (Task.exec weather (syncFull f st) w).2 =
      { w with db := w.db.updateFolderSyncStatus f st.uidValidity st.exists_ st.highestModseq } := by
  have hnil : w.db.getAllUidsAndFlags f = [] := by
    refine List.eq_nil_iff_forall_not_mem.mpr (fun p hp => ?_)
    obtain ⟨r,hr,-⟩ := mem_getAllUidsAndFlags.mp hp
    have := Db.mem_uids.mpr ⟨r,hr⟩
    simp [h] at this
  simp [syncFull,hnil]

theorem getAllUidsAndFlags_isEmpty (h : (w.db.uids f).Nonempty) :
    (w.db.getAllUidsAndFlags f).isEmpty = false := by
  obtain ⟨u,hu⟩ := h
  obtain ⟨r,hr⟩ := Db.mem_uids.mp hu
  refine List.isEmpty_eq_false_iff.mpr (List.ne_nil_of_mem (a := (u,r.flags)) ?_)
  exact mem_getAllUidsAndFlags.mpr ⟨r,hr,rfl⟩

/-- A failing UID list leaves the full fetch without effect. -/
theorem exec_syncFull_of_error (hw : Steady weather) (h : (w.db.uids f).Nonempty)
    (st : FolderStatusExtended) {e : ImapError}
    (he : weather.fails (.fetchUidsAndFlags f) = some e) :
    (Task.exec weather (syncFull f st) w).2 = w := by
  simp only [syncFull,Task.exec_bind,Task.exec_query,getAllUidsAndFlags_isEmpty h,
    Bool.false_eq_true,if_false,exec_imap_steady hw,he,Task.exec_pure]

/-- The rows and the checkpoint the full fetch leaves. -/
theorem exec_syncFull (hw : Steady weather) (h : (w.db.uids f).Nonempty)
    (hmax : w.db.maxUid f + 1 < 2 ^ 32) (st : FolderStatusExtended)
    (hok : weather.fails (.fetchUidsAndFlags f) = none) :
    (Task.exec weather (syncFull f st) w).2.server = w.server ∧
      Db.SameRows f
        (storeHeaders f (newHeaders weather (w.server f) f (w.db.maxUid f + 1))
          ((reconcile f (w.db.getAllUidsAndFlags f) (imapMapOf (w.server f)) w.db).2.updateFolderSyncStatus
            f st.uidValidity st.exists_ st.highestModseq))
        (Task.exec weather (syncFull f st) w).2.db := by
  have hm : ((w.db.getAllUidsAndFlags f).map Prod.fst).foldr max 0 = w.db.maxUid f := by
    rw [Db.getAllUidsAndFlags,List.map_map]
    rfl
  simp only [syncFull,Task.exec_bind,Task.exec_query,getAllUidsAndFlags_isEmpty h,
    Bool.false_eq_true,if_false,exec_imap_steady hw,hok,World.reply,Task.exec_withUserDb,hm]
  set db1 := (reconcile f (w.db.getAllUidsAndFlags f) (imapMapOf (w.server f)) w.db) with hdb1
  have hfetch := exec_fetchNewFull (w := { w with
    db := db1.2.updateFolderSyncStatus f st.uidValidity st.exists_ st.highestModseq }) hw
    (b := w.server f) rfl hmax db1.1
  split
  · exact hfetch
  · exact hfetch

/-! ### The CONDSTORE path -/

/-- The database after the removal part of the CONDSTORE path. -/
def afterRemoval (weather : Weather) (b : Mailbox) (f : String) (vanished : Option (List Nat))
    (db : Db) : Db :=
  match vanished with
  | some us => deleteUids f us db
  | none =>
    if b.messages.length < db.countMessages f ∧ weather.fails (.fetchUidsAndFlags f) = none then
      (removeGone f (b.uidsAndFlags.map Prod.fst) db).2
    else db

theorem exec_removeDeleted (hw : Steady weather) (vanished : Option (List Nat)) :
    (Task.exec weather
      (removeDeleted f vanished (w.server f).messages.length (w.db.countMessages f)) w).2 =
      { w with db := afterRemoval weather (w.server f) f vanished w.db } := by
  unfold removeDeleted afterRemoval
  cases vanished with
  | some us =>
    dsimp only
    split
    · next he =>
      rw [List.isEmpty_iff.mp he]
      rfl
    · rfl
  | none =>
    dsimp only
    by_cases hc : (w.server f).messages.length < w.db.countMessages f
    · rw [if_pos hc]
      simp only [Task.exec_bind,exec_imap_steady hw]
      cases hf : weather.fails (.fetchUidsAndFlags f) with
      | some e => simp
      | none => simp [World.reply,hc]
    · rw [if_neg hc,if_neg (fun h => hc h.1)]
      rfl

theorem exec_fetchNewCondstore (hw : Steady weather) (hmax : w.db.maxUid f + 1 < 2 ^ 32) :
    (Task.exec weather (fetchNewCondstore f (w.server f).uidNext) w).2.server = w.server ∧
      Db.SameRows f
        (storeHeaders f (newHeaders weather (w.server f) f (w.db.maxUid f + 1)) w.db)
        (Task.exec weather (fetchNewCondstore f (w.server f).uidNext) w).2.db := by
  simp only [fetchNewCondstore,Task.exec_bind,Task.exec_query,succU32_of_lt hmax,Task.exec_ite,
    Task.exec_execute,Task.exec_publish,Task.exec_pure,(exec_fetchAndStoreNew hw _).1]
  split
  · exact ⟨rfl,Db.sameRows_refreshUnreadCount⟩
  · next hle =>
    have hnil : newHeaders weather (w.server f) f (w.db.maxUid f + 1) = [] :=
      newHeaders_eq_nil (fun m hm => by
        have := ((w.server f).uid_bounds m hm).2
        omega)
    rw [hnil]
    exact ⟨rfl,Db.SameRows.refl _ _⟩

/-- The database after flags and removals, before new headers are fetched. -/
def beforeFetch (weather : Weather) (b : Mailbox) (f : String) (delta : ChangedFlags) (db : Db) : Db :=
  afterRemoval weather b f delta.vanished (applyChanged f delta.changed db)

/-- The modification sequence the CONDSTORE path stores. -/
def finalModseq (delta : ChangedFlags) (st : FolderStatusExtended) : Nat :=
  if 0 < delta.highestModseq then delta.highestModseq else st.highestModseq

/-- A failing change fetch falls back to the full fetch. -/
theorem exec_syncCondstore_of_error (hw : Steady weather) (m : Nat) (st : FolderStatusExtended)
    {e : ImapError} (he : weather.fails (.fetchChangedFlags f m st.uidValidity) = some e) :
    Task.exec weather (syncCondstore f m st) w = Task.exec weather (syncFull f st) w := by
  simp only [syncCondstore,Task.exec_bind,exec_imap_steady hw,he]

/-- The rows and the checkpoint the CONDSTORE path leaves. -/
theorem exec_syncCondstore (hw : Steady weather) (m : Nat)
    (hok : weather.fails (.fetchChangedFlags f m (w.server f).uidValidity) = none)
    (hmax : (beforeFetch weather (w.server f) f ((w.server f).changedFlags m (w.server f).uidValidity)
      w.db).maxUid f + 1 < 2 ^ 32) :
    let b := w.server f
    let delta := b.changedFlags m b.uidValidity
    let db1 := beforeFetch weather b f delta w.db
    (Task.exec weather (syncCondstore f m b.statusExtended) w).2.server = w.server ∧
      Db.SameRows f
        ((storeHeaders f (newHeaders weather b f (db1.maxUid f + 1)) db1).updateFolderSyncStatus f
          b.uidValidity b.messages.length (finalModseq delta b.statusExtended))
        (Task.exec weather (syncCondstore f m b.statusExtended) w).2.db := by
  intro b delta db1
  have hrem := exec_removeDeleted (f := f)
    (w := { w with db := applyChanged f delta.changed w.db }) hw delta.vanished
  have hfetch := exec_fetchNewCondstore (f := f) (w := { w with db := db1 }) hw hmax
  have hstat : b.statusExtended.uidValidity = b.uidValidity := rfl
  simp only [syncCondstore,Task.exec_bind,exec_imap_steady hw,hstat]
  rw [show weather.fails (.fetchChangedFlags f m b.uidValidity) = none from hok]
  simp only [World.reply,applyDelta,Task.exec_bind,Task.exec_execute,Task.exec_query]
  erw [hrem]
  have hdone : Db.SameRows f
      ((storeHeaders f (newHeaders weather b f (db1.maxUid f + 1)) db1).updateFolderSyncStatus f
          b.uidValidity b.messages.length (finalModseq delta b.statusExtended))
      ((Task.exec weather (fetchNewCondstore f b.uidNext) { w with db := db1 }).2.db.updateFolderSyncStatus
          f b.uidValidity b.messages.length (finalModseq delta b.statusExtended)) :=
    hfetch.2.updateFolderSyncStatus _ _ _
  split
  · exact ⟨hfetch.1,hdone⟩
  · exact ⟨hfetch.1,hdone⟩

end Rav
