import Rav.Agreement

/-!
# What new-messages events announce

A cycle announces new messages of a folder with their number. On the CONDSTORE path it announces
whatever the header fetch brought as soon as `uid_next` is ahead of the cache, also nothing at all;
the full fetch announces only what it stored.

## Main definitions

- `Task.told`, `Task.stored` — the announcements a task makes, and the messages it adds to a folder
- `pendingFolder` — a folder's pass up to its header fetch
- `Announces` — the condition on a folder's pass
- `announced_iff` — when a cycle announces exactly what it stored, and never nothing
-/

namespace Rav

/-! ### Announcements and stored messages -/

/-- The announcement of new messages a call makes. -/
def Call.told : Call → List (String × Nat)
  | .publish (.folderStateChanged folder count _ _) => [(folder,count)]
  | _ => []

/-- How many messages a call adds to the cached ones of a folder. -/
def Call.added (folder : String) : Call → World → Nat
  | .withUserDb k, w => ((k w.db).2.uids folder \ w.db.uids folder).card
  | _, _ => 0

namespace Task

variable {α β : Type} {weather : Weather} {w : World} {f : String}

/-- The new-messages events a task publishes: folder and count. -/
def told (weather : Weather) (t : Task α) (w : World) : List (String × Nat) :=
  t.log (handle weather) (fun c _ => c.told) w

/-- The number of messages of the folder a task newly stores in the cache. -/
def stored (weather : Weather) (f : String) (t : Task α) (w : World) : Nat :=
  (t.log (handle weather) (fun c w => [c.added f w]) w).foldr (· + ·) 0

theorem foldr_add_init (l : List Nat) (n : Nat) :
    l.foldr (· + ·) n = l.foldr (· + ·) 0 + n := by
  induction l with
  | nil => exact (Nat.zero_add n).symm
  | cons k l ih => rw [List.foldr_cons,ih,List.foldr_cons,Nat.add_assoc]

theorem told_bind (t : Task α) (g : α → Task β) : told weather (t >>= g) w =
    told weather t w ++ told weather (g (exec weather t w).1) (exec weather t w).2 :=
  Prog.log_bind _ _ _ _ _

theorem stored_bind (t : Task α) (g : α → Task β) : stored weather f (t >>= g) w =
    stored weather f t w + stored weather f (g (exec weather t w).1) (exec weather t w).2 := by
  simp only [stored,Prog.log_bind,List.foldr_append]
  exact foldr_add_init _ _

end Task

/-! ### Up to the header fetch -/

/-- The headers `fetchAndStoreNew` gets to store, of a server that may change before it answers. -/
def fetched (weather : Weather) (f : String) (n : Nat) (w : World) : List ImapMessageHeader :=
  newHeaders weather ((w.drift (weather.before (.fetchHeaders f (.fromOn n)))).server f) f n

/-- The full fetch up to its header fetch: where that starts. -/
def pendingFull (folder : String) (status : FolderStatusExtended) : Task (Option (Bool × Nat)) := do
  let cached ← Task.query (fun db => db.getAllUidsAndFlags folder)
  if cached.isEmpty then pure none
  else do
    let maxCachedUid := (cached.map Prod.fst).foldr max 0
    match ← Task.imap (.fetchUidsAndFlags folder) with
    | .error _ => pure none
    | .ok (imapState : List (Nat × List String)) =>
      let imapMap := imapState.map (fun p => (p.1,sortedFlagsCsv p.2))
      let _ ← Task.withUserDb (fun db =>
        let r := reconcile folder cached imapMap db
        (r.1,r.2.updateFolderSyncStatus folder status.uidValidity status.exists_
          status.highestModseq))
      if imapMap.any (fun p => maxCachedUid < p.1) then pure (some (false,succU32 maxCachedUid))
      else pure none

/-- The same for the CONDSTORE path once the server has answered. -/
def pendingDelta (folder : String) (status : FolderStatusExtended) (delta : ChangedFlags) :
    Task (Option (Bool × Nat)) := do
  Task.execute (applyChanged folder delta.changed)
  let cachedCount ← Task.query (fun db => db.countMessages folder)
  let _ ← removeDeleted folder delta.vanished status.exists_ cachedCount
  let maxCachedUid ← Task.query (fun db => db.maxUid folder)
  if succU32 maxCachedUid < status.uidNext then pure (some (true,succU32 maxCachedUid))
  else pure none

def pendingCondstore (folder : String) (cachedModseq : Nat) (status : FolderStatusExtended) :
    Task (Option (Bool × Nat)) := do
  match ← Task.imap (.fetchChangedFlags folder cachedModseq status.uidValidity) with
  | .error _ => pendingFull folder status
  | .ok (delta : ChangedFlags) => pendingDelta folder status delta

def pendingStatus (folder : FolderSnapshot) (status : FolderStatusExtended) :
    Task (Option (Bool × Nat)) := do
  if folder.uidValidity ≠ 0 ∧ status.uidValidity ≠ folder.uidValidity then pure none
  else do
    let skip ← unchanged folder status
    if skip then pure none
    else if 0 < status.highestModseq ∧ 0 < folder.highestModseq then
      pendingCondstore folder.name folder.highestModseq status
    else pendingFull folder.name status

/-- A folder's pass up to its header fetch, if it comes to one: whether it goes on by CONDSTORE, and
the UID it fetches headers from. -/
def pendingFolder (folder : FolderSnapshot) : Task (Option (Bool × Nat)) := do
  match ← Task.imap (.folderStatusExtended folder.name) with
  | .error _ => pure none
  | .ok (status : FolderStatusExtended) => pendingStatus folder status

/-- What is then announced. -/
def announced (weather : Weather) (f : String) : Option (Bool × Nat) → World → List (String × Nat)
  | none, _ => []
  | some (condstore,n), w =>
    if condstore = true ∨ 0 < (fetched weather f n w).length then [(f,(fetched weather f n w).length)]
    else []

/-- What is then stored. -/
def arrived (weather : Weather) (f : String) : Option (Bool × Nat) → World → Nat
  | none, _ => 0
  | some (_,n), w =>
    (((fetched weather f n w).map ImapMessageHeader.uid).toFinset \ w.db.uids f).card

/-- A folder's pass comes to no header fetch; or the fetch brings a message, unless this is the full
fetch, and brings none that is cached already. -/
def Announces (weather : Weather) (f : String) : Option (Bool × Nat) → World → Prop
  | none, _ => True
  | some (condstore,n), w => (condstore = true → fetched weather f n w ≠ []) ∧
      ∀ h ∈ fetched weather f n w, h.uid ∉ w.db.uids f

theorem fst_of_mem_announced {weather : Weather} {f g : String} {k : Nat} {p : Option (Bool × Nat)}
    {w : World} (h : (g,k) ∈ announced weather f p w) : g = f := by
  rcases p with _ | ⟨condstore,n⟩
  · simp [announced] at h
  · rw [announced] at h
    split at h
    · exact (Prod.mk.inj (List.mem_singleton.mp h)).1
    · simp at h

section Fetched

variable {weather : Weather} {w : World} {f : String} {n : Nat}

theorem nodup_fetched : ((fetched weather f n w).map ImapMessageHeader.uid).Nodup := by
  unfold fetched
  generalize (w.drift (weather.before (.fetchHeaders f (.fromOn n)))).server f = b
  unfold newHeaders
  split
  · exact List.nodup_nil
  · have hsub : ((b.headers (.fromOn n)).filter (fun h => n ≤ h.uid)).Sublist (b.messages.map b.stamp) :=
      (List.filter_sublist).trans ((List.filter_sublist).map _)
    refine (hsub.map ImapMessageHeader.uid).nodup ?_
    rw [List.map_map]
    exact b.uid_nodup

/-- As many are stored as were fetched exactly if none was there. -/
theorem card_fetched_iff : (((fetched weather f n w).map ImapMessageHeader.uid).toFinset \
    w.db.uids f).card = (fetched weather f n w).length ↔
      ∀ h ∈ fetched weather f n w, h.uid ∉ w.db.uids f := by
  have hcard : ((fetched weather f n w).map ImapMessageHeader.uid).toFinset.card =
      (fetched weather f n w).length := by
    rw [List.toFinset_card_of_nodup nodup_fetched,List.length_map]
  rw [← hcard]
  constructor
  · intro h k hk hmem
    have hsub := Finset.eq_of_subset_of_card_le Finset.sdiff_subset (Nat.le_of_eq h.symm)
    have hin : k.uid ∈ ((fetched weather f n w).map ImapMessageHeader.uid).toFinset :=
      List.mem_toFinset.mpr (List.mem_map.mpr ⟨k,hk,rfl⟩)
    rw [← hsub] at hin
    exact (Finset.mem_sdiff.mp hin).2 hmem
  · intro h
    rw [Finset.sdiff_eq_self_of_disjoint]
    refine Finset.disjoint_left.mpr (fun u hu hmem => ?_)
    obtain ⟨k,hk,rfl⟩ := List.mem_map.mp (List.mem_toFinset.mp hu)
    exact h k hk hmem

/-- Whatever is announced is more than nothing and as much as is stored, exactly under the condition. -/
theorem announces_iff (p : Option (Bool × Nat)) : Announces weather f p w ↔
    ∀ g k, (g,k) ∈ announced weather f p w → g = f ∧ 0 < k ∧ k = arrived weather f p w := by
  rcases p with _ | ⟨condstore,n⟩
  · simp [Announces,announced]
  · simp only [Announces,announced,arrived]
    constructor
    · rintro ⟨hsome,hnew⟩ g k hk
      split at hk
      · next hor =>
        obtain ⟨rfl,rfl⟩ := Prod.mk.inj (List.mem_singleton.mp hk)
        refine ⟨rfl,?_,(card_fetched_iff.mpr hnew).symm⟩
        exact hor.elim (fun hc => List.length_pos_iff.mpr (hsome hc)) id
      · simp at hk
    · intro h
      by_cases hpos : 0 < (fetched weather f n w).length
      · refine ⟨fun _ => List.length_pos_iff.mp hpos,?_⟩
        rw [if_pos (Or.inr hpos)] at h
        exact card_fetched_iff.mp (h _ _ (List.mem_singleton_self _)).2.2.symm
      · have hnil : fetched weather f n w = [] := by simpa using hpos
        refine ⟨fun hc => ?_,fun k hk => by simp [hnil] at hk⟩
        rw [if_pos (Or.inl hc)] at h
        exact absurd (h _ _ (List.mem_singleton_self _)).2.1 hpos

end Fetched

/-! ### A folder's pass tells what is pending -/

/-- Nothing is announced or stored, and the folder keeps its row. -/
structure Muted {α : Type} (weather : Weather) (f : String) (t : Task α) (w : World) : Prop where
  told : t.told weather w = []
  stored : t.stored weather f w = 0
  row : (w.db.folder? f).isSome = true → ((t.exec weather w).2.db.folder? f).isSome = true

/-- What is announced and stored is what is pending. -/
structure Tells (weather : Weather) (f : String) (t : Task Bool) (p : Task (Option (Bool × Nat)))
    (w : World) : Prop where
  told : t.told weather w = announced weather f (p.exec weather w).1 (p.exec weather w).2
  stored : t.stored weather f w = arrived weather f (p.exec weather w).1 (p.exec weather w).2

section Pass

variable {α β : Type} {weather : Weather} {w : World} {f : String}

theorem muted_pure (a : α) : Muted weather f (pure a) w := ⟨rfl,rfl,id⟩

theorem Muted.bind {q : Task α} {g : α → Task β} (hq : Muted weather f q w)
    (hg : Muted weather f (g (q.exec weather w).1) (q.exec weather w).2) :
    Muted weather f (q >>= g) w := by
  refine ⟨?_,?_,fun hrow => ?_⟩
  · rw [Task.told_bind,hq.told,hg.told]
    rfl
  · rw [Task.stored_bind,hq.stored,hg.stored]
  · rw [Task.exec_bind]
    exact hg.row (hq.row hrow)

theorem muted_imap (q : ImapCall) : Muted weather f (Task.imap q) w := by
  refine ⟨Prog.log_perform _ _ _ _,?_,fun hrow => ?_⟩
  · show (Prog.log _ _ (Prog.perform _) _).foldr (· + ·) 0 = 0
    rw [Prog.log_perform]
    rfl
  · rw [Task.exec_imap,handle_imap_db]
    exact hrow

theorem muted_withUserDb {k : Db → α × Db} (huids : (k w.db).2.uids f ⊆ w.db.uids f)
    (hrow : ((k w.db).2.folder? f).isSome = (w.db.folder? f).isSome) :
    Muted weather f (Task.withUserDb k) w := by
  refine ⟨Prog.log_perform _ _ _ _,?_,fun hs => ?_⟩
  · show (Prog.log _ _ (Prog.perform _) _).foldr (· + ·) 0 = 0
    rw [Prog.log_perform]
    show ((k w.db).2.uids f \ w.db.uids f).card + 0 = 0
    rw [Finset.sdiff_eq_empty_iff_subset.mpr huids]
    rfl
  · rw [Task.exec_withUserDb]
    exact hrow.trans hs

theorem muted_query (k : Db → α) : Muted weather f (Task.query k) w :=
  muted_withUserDb (Finset.Subset.refl _) rfl

theorem muted_execute {k : Db → Db} (huids : (k w.db).uids f ⊆ w.db.uids f)
    (hrow : ((k w.db).folder? f).isSome = (w.db.folder? f).isSome) :
    Muted weather f (Task.execute k) w := muted_withUserDb huids hrow

theorem muted_updateFolderSyncStatus (v c m : Nat) :
    Muted weather f (Task.execute (fun db => db.updateFolderSyncStatus f v c m)) w := by
  refine muted_execute (Finset.Subset.refl _) ?_
  rw [Db.updateFolderSyncStatus,Db.folder?_updateFolder,Option.isSome_map]

theorem muted_invalidateFolderFreshness :
    Muted weather f (Task.execute (fun db => db.invalidateFolderFreshness f)) w := by
  refine muted_execute (Finset.Subset.refl _) ?_
  rw [Db.invalidateFolderFreshness,Db.folder?_updateFolder,Option.isSome_map]

theorem stored_execute (k : Db → Db) : (Task.execute k).stored weather f w =
    ((k w.db).uids f \ w.db.uids f).card := by
  show (Prog.log _ _ (Prog.perform _) _).foldr (· + ·) 0 = _
  rw [Prog.log_perform]
  rfl

theorem Tells.bind {q : Task α} {t : α → Task Bool} {p : α → Task (Option (Bool × Nat))}
    (hq : Muted weather f q w)
    (h : Tells weather f (t (q.exec weather w).1) (p (q.exec weather w).1) (q.exec weather w).2) :
    Tells weather f (q >>= t) (q >>= p) w := by
  refine ⟨?_,?_⟩
  · rw [Task.told_bind,hq.told,List.nil_append,h.told,Task.exec_bind]
  · rw [Task.stored_bind,hq.stored,Nat.zero_add,h.stored,Task.exec_bind]

theorem Tells.query_bind {k : Db → α} {t : α → Task Bool} {p : α → Task (Option (Bool × Nat))}
    (h : Tells weather f (t (k w.db)) (p (k w.db)) w) :
    Tells weather f (Task.query k >>= t) (Task.query k >>= p) w := Tells.bind (muted_query k) h

/-- Whatever the server answers and changes, the database is as before. -/
theorem Tells.imap_bind {q : ImapCall} {t : Except ImapError q.Reply → Task Bool}
    {p : Except ImapError q.Reply → Task (Option (Bool × Nat))}
    (h : ∀ r w', w'.db = w.db → Tells weather f (t r) (p r) w') :
    Tells weather f (Task.imap q >>= t) (Task.imap q >>= p) w :=
  Tells.bind (muted_imap q) (h _ _ (handle_imap_db q))

/-- What comes after the new messages tells nothing. -/
theorem Tells.before {t : Task Bool} {p : Task (Option (Bool × Nat))} {r : Bool → Task Bool}
    (h : Tells weather f t p w) (hr : ∀ b w, Muted weather f (r b) w) :
    Tells weather f (t >>= r) p w := by
  refine ⟨?_,?_⟩
  · rw [Task.told_bind,(hr _ _).told,List.append_nil,h.told]
  · rw [Task.stored_bind,(hr _ _).stored,Nat.add_zero,h.stored]

theorem Muted.tells_none {t : Task Bool} (h : Muted weather f t w) :
    Tells weather f t (pure none) w := ⟨h.told,h.stored⟩

theorem Tells.ite {c : Prop} [Decidable c] {t t' : Task Bool} {p p' : Task (Option (Bool × Nat))}
    (h : c → Tells weather f t p w) (h' : ¬c → Tells weather f t' p' w) :
    Tells weather f (if c then t else t') (if c then p else p') w := by
  split
  · next hc => exact h hc
  · next hc => exact h' hc

/-- Storing what is fetched announces nothing yet. -/
theorem exec_fetchAndStoreNew_any (n : Nat) :
    ((fetchAndStoreNew f n).exec weather w).1.1 = (fetched weather f n w).length ∧
      (fetchAndStoreNew f n).told weather w = [] ∧
      ((w.db.folder? f).isSome = true → (fetchAndStoreNew f n).stored weather f w =
        (((fetched weather f n w).map ImapMessageHeader.uid).toFinset \ w.db.uids f).card) := by
  have hans : (Task.imap (.fetchHeaders f (.fromOn n))).exec weather w =
      handle weather (.imap (.fetchHeaders f (.fromOn n))) w := rfl
  have himap : Muted weather f (Task.imap (.fetchHeaders f (.fromOn n))) w := muted_imap _
  unfold fetchAndStoreNew
  rw [Task.exec_bind,Task.told_bind,Task.stored_bind,himap.told,himap.stored,hans]
  unfold fetched newHeaders handle
  dsimp only
  cases weather.fails (.fetchHeaders f (.fromOn n)) with
  | some e => exact ⟨rfl,rfl,fun _ => by simp; rfl⟩
  | none =>
    simp only [World.reply]
    split
    · next he =>
      rw [List.isEmpty_iff.mp he]
      exact ⟨rfl,rfl,fun _ => by simp; rfl⟩
    · refine ⟨rfl,rfl,fun hrow => ?_⟩
      rw [Task.stored_bind,stored_execute,World.drift_db,uids_storeHeaders hrow,
        Finset.union_sdiff_left,Nat.zero_add]
      rfl

theorem muted_publish {e : MailEvent} (he : (Call.publish e).told = []) :
    Muted weather f (Task.publish e) w := by
  refine ⟨(Prog.log_perform _ _ _ _).trans he,?_,id⟩
  show (Prog.log _ _ (Prog.perform _) _).foldr (· + ·) 0 = 0
  rw [Prog.log_perform]
  rfl

/-- The unread count is refreshed and the new messages are announced. -/
theorem announcement (count : Nat) (sender subject : Option String) (w : World) :
    Task.told weather (do
      Task.execute (fun db => db.refreshUnreadCount f)
      Task.publish (.folderStateChanged f count sender subject)
      pure true) w = [(f,count)] ∧
    Task.stored weather f (do
      Task.execute (fun db => db.refreshUnreadCount f)
      Task.publish (.folderStateChanged f count sender subject)
      pure true) w = 0 := by
  refine ⟨rfl,?_⟩
  rw [Task.stored_bind,Task.stored_bind,stored_execute,Db.uids_refreshUnreadCount,Finset.sdiff_self]
  rfl

theorem tells_fetchNewCondstore (hrow : (w.db.folder? f).isSome = true) (uidNext : Nat) :
    Tells weather f (fetchNewCondstore f uidNext)
      (Task.query (fun db => db.maxUid f) >>= fun maxCachedUid =>
        if succU32 maxCachedUid < uidNext then pure (some (true,succU32 maxCachedUid)) else pure none)
      w := by
  refine Tells.bind (muted_query _) (Tells.ite (fun _ => ?_) (fun _ => (muted_pure _).tells_none))
  obtain ⟨hlen,htold,hstored⟩ :=
    @exec_fetchAndStoreNew_any weather w f (succU32 (w.db.maxUid f))
  refine ⟨?_,?_⟩
  · rw [Task.told_bind]
    change (fetchAndStoreNew f (succU32 (w.db.maxUid f))).told weather w ++ _ = _
    rw [htold,List.nil_append]
    refine (announcement _ _ _ _).1.trans ?_
    change [(f,((fetchAndStoreNew f (succU32 (w.db.maxUid f))).exec weather w).1.1)] = _
    rw [hlen]
    show _ = announced weather f (some (true,succU32 (w.db.maxUid f))) w
    simp only [announced,true_or,if_true]
  · rw [Task.stored_bind]
    change (fetchAndStoreNew f (succU32 (w.db.maxUid f))).stored weather f w + _ = _
    rw [hstored hrow]
    exact congrArg _ (announcement _ _ _ _).2

theorem tells_fetchNewFull (hrow : (w.db.folder? f).isSome = true) (imapMap : List (Nat × String))
    (maxCachedUid : Nat) (changed : Bool) :
    Tells weather f (fetchNewFull f imapMap maxCachedUid changed)
      (if imapMap.any (fun p => maxCachedUid < p.1) then pure (some (false,succU32 maxCachedUid))
        else pure none) w := by
  refine Tells.ite (fun _ => ?_) (fun _ => (muted_pure _).tells_none)
  obtain ⟨hlen,htold,hstored⟩ :=
    @exec_fetchAndStoreNew_any weather w f (succU32 maxCachedUid)
  refine ⟨?_,?_⟩
  · rw [Task.told_bind,htold,List.nil_append]
    show _ = announced weather f (some (false,succU32 maxCachedUid)) w
    simp only [announced,← hlen]
    generalize (fetchAndStoreNew f (succU32 maxCachedUid)).exec weather w = r
    obtain ⟨⟨count,sender,subject⟩,w'⟩ := r
    by_cases hpos : 0 < count
    · rw [if_pos (Or.inr hpos)]
      dsimp only
      rw [if_pos hpos]
      exact (announcement _ _ _ _).1
    · rw [if_neg (not_or.mpr ⟨Bool.false_ne_true,hpos⟩)]
      dsimp only
      rw [if_neg hpos]
      rfl
  · rw [Task.stored_bind,hstored hrow]
    generalize (fetchAndStoreNew f (succU32 maxCachedUid)).exec weather w = r
    obtain ⟨⟨count,sender,subject⟩,w'⟩ := r
    refine congrArg (_ + ·) (?_ : _ = 0)
    dsimp only
    split
    · exact (announcement _ _ _ _).2
    · rfl

theorem uids_reconcile_subset (imapMap : List (Nat × String)) (db : Db) :
    (reconcile f (db.getAllUidsAndFlags f) imapMap db).2.uids f ⊆ db.uids f := by
  intro u hu
  obtain ⟨r,hr⟩ := Db.mem_uids.mp hu
  rw [message?_reconcile] at hr
  obtain ⟨r',hr',-⟩ := Option.bind_eq_some_iff.mp hr
  exact Db.mem_uids.mpr ⟨r',hr'⟩

/-- Telling that flags changed announces no messages. -/
theorem muted_flagsChanged (changed : Bool) : Muted weather f
    (do if changed then Task.publish (.flagsChanged f) else pure ()
        pure changed : Task Bool) w := by
  cases changed with
  | true => exact (muted_publish rfl).bind (muted_pure _)
  | false => exact muted_pure _

theorem tells_syncFull (hrow : (w.db.folder? f).isSome = true) (status : FolderStatusExtended) :
    Tells weather f (syncFull f status) (pendingFull f status) w := by
  refine Tells.query_bind (Tells.ite (fun _ => ?_) (fun _ => ?_))
  · refine Muted.tells_none ?_
    exact Muted.bind (muted_updateFolderSyncStatus _ _ _) (muted_pure false)
  · refine Tells.imap_bind (fun r w' hdb => ?_)
    rcases r with e | imapState
    · exact (muted_pure false).tells_none
    · rw [← hdb] at hrow ⊢
      have hrec : Muted weather f (Task.withUserDb (fun db =>
          let r := reconcile f (w'.db.getAllUidsAndFlags f)
            (imapState.map (fun p => (p.1,sortedFlagsCsv p.2))) db
          (r.1,r.2.updateFolderSyncStatus f status.uidValidity status.exists_
            status.highestModseq))) w' := by
        refine muted_withUserDb (uids_reconcile_subset _ _) ?_
        dsimp only
        rw [Db.updateFolderSyncStatus,Db.folder?_updateFolder,Option.isSome_map,folder?_reconcile]
      refine Tells.bind hrec ?_
      exact (tells_fetchNewFull (hrec.row hrow) _ _ _).before (fun b w => muted_flagsChanged b)

theorem muted_removeDeleted (vanished : Option (List Nat)) (n k : Nat) :
    Muted weather f (removeDeleted f vanished n k) w := by
  have hdel : ∀ us (w : World),
      Muted weather f (Task.withUserDb (fun db => (true,deleteUids f us db))) w := by
    intro us w
    refine muted_withUserDb ?_ ?_
    · rw [uids_deleteUids]
      exact Finset.sdiff_subset
    · rw [folder?_deleteUids]
  unfold removeDeleted
  cases vanished with
  | some us =>
    dsimp only
    split
    · exact muted_pure false
    · exact hdel us w
  | none =>
    dsimp only
    split
    · refine (muted_imap _).bind ?_
      generalize (Task.imap (.fetchUidsAndFlags f)).exec weather w = r
      obtain ⟨r,w'⟩ := r
      rcases r with e | imapState
      · exact muted_pure false
      · refine muted_withUserDb ?_ ?_
        · rw [uids_removeGone]
          exact Finset.inter_subset_left
        · exact congrArg Option.isSome (folder?_deleteUids _)
    · exact muted_pure false

theorem tells_applyDelta (hrow : (w.db.folder? f).isSome = true) (status : FolderStatusExtended)
    (delta : ChangedFlags) :
    Tells weather f (applyDelta f status delta) (pendingDelta f status delta) w := by
  have happly : Muted weather f (Task.execute (applyChanged f delta.changed)) w := by
    refine muted_execute ?_ ?_
    · rw [uids_applyChanged]
    · rw [folder?_applyChanged]
  refine Tells.bind happly (Tells.query_bind ?_)
  let w₁ := ((Task.execute (applyChanged f delta.changed)).exec weather w).2
  have hremove : Muted weather f
      (removeDeleted f delta.vanished status.exists_ (w₁.db.countMessages f)) w₁ :=
    muted_removeDeleted _ _ _
  refine Tells.bind hremove ?_
  refine (tells_fetchNewCondstore (hremove.row (happly.row hrow)) _).before (fun b w' => ?_)
  show Muted weather f (Task.execute _ >>= _) w'
  exact Muted.bind (muted_updateFolderSyncStatus _ _ _) (muted_flagsChanged _)

theorem tells_syncCondstore (hrow : (w.db.folder? f).isSome = true) (m : Nat)
    (status : FolderStatusExtended) :
    Tells weather f (syncCondstore f m status) (pendingCondstore f m status) w := by
  refine Tells.imap_bind (fun r w' hdb => ?_)
  rw [← hdb] at hrow
  rcases r with e | delta
  · exact tells_syncFull hrow status
  · exact tells_applyDelta hrow status delta

end Pass

/-- What a folder's pass announces and stores is what is pending for it. -/
theorem tells_syncFolder {weather : Weather} {w : World} {folder : FolderSnapshot}
    (hrow : (w.db.folder? folder.name).isSome = true) :
    Tells weather folder.name (syncFolder folder) (pendingFolder folder) w := by
  refine Tells.imap_bind (fun r w' hdb => ?_)
  rw [← hdb] at hrow
  rcases r with e | status
  · exact (muted_pure false).tells_none
  · show Tells weather folder.name (syncStatus folder status) (pendingStatus folder status) w'
    refine Tells.ite (fun _ => ?_) (fun _ => ?_)
    · refine Muted.tells_none (Muted.bind muted_invalidateFolderFreshness ?_)
      exact Muted.bind (muted_publish rfl) (muted_pure true)
    · have hskip : Muted weather folder.name (unchanged folder status) w' := by
        unfold unchanged
        split
        · exact (muted_query _).bind (muted_pure _)
        · exact muted_pure false
      refine Tells.bind hskip (Tells.ite (fun _ => (muted_pure false).tells_none) (fun _ => ?_))
      exact Tells.ite (fun _ => tells_syncCondstore (hskip.row hrow) _ _)
        (fun _ => tells_syncFull (hskip.row hrow) _)

/-! ### The cycle -/

section Cycle

variable {α : Type} {weather : Weather} {w : World} {f : String}

theorem stored_eq_zero {Q : Call → Prop} (hQ : ∀ c w, Q c → c.added f w = 0) {t : Task α}
    (ht : t.All Q) (w : World) : t.stored weather f w = 0 := by
  induction t generalizing w with
  | pure a => rfl
  | call c k ih =>
    show c.added f w +
      Task.stored weather f (k (handle weather c w).1) (handle weather c w).2 = 0
    rw [hQ c w ht.1,ih _ (ht.2 _ trivial)]

/-- A pass that touches one folder stores nothing in another, and leaves its row. -/
theorem stored_within {g : String} (hg : f ≠ g) {t : Task α} (ht : t.All (Call.Within g)) (w : World) :
    t.stored weather f w = 0 := by
  refine stored_eq_zero (fun c w hc => ?_) ht w
  cases c with
  | withUserDb k =>
    have hsame : (k w.db).2.uids f = w.db.uids f :=
      Db.uids_congr (fun u => congrArg Option.isSome ((hc w.db f hg).2 u))
    show ((k w.db).2.uids f \ w.db.uids f).card = 0
    rw [hsame,Finset.sdiff_self,Finset.card_empty]
  | _ => rfl

theorem folder?_within {g : String} (hg : f ≠ g) {t : Task α} (ht : t.All (Call.Within g))
    (w : World) : (t.exec weather w).2.db.folder? f = w.db.folder? f := by
  refine Prog.run_invariant (Q := Call.Within g) (P := fun s : World => s.db.folder? f = w.db.folder? f)
    (fun _ _ _ => trivial) (fun c s hc hs => ?_) ht rfl
  cases c with
  | imap q =>
    rw [handle_imap_db]
    exact hs
  | withUserDb k => exact ((hc s.db f hg).1).trans hs
  | publish e => exact hs
  | spawn p => exact hc.elim
  | notifyWorker => exact hc.elim
  | sendMessage m => exact hc.elim

theorem muted_indexBodies (unindexed : List (String × Nat)) (w : World) :
    Muted weather f (indexBodies unindexed) w := by
  induction unindexed generalizing w with
  | nil => exact muted_pure ()
  | cons p rest ih =>
    unfold indexBodies
    split
    · exact ih w
    · refine Muted.bind (muted_imap _) ?_
      generalize (Task.imap (.fetchBody p.1 p.2)).exec weather w = r
      obtain ⟨r,w'⟩ := r
      rcases r with e | body
      · exact ih w'
      · refine Muted.bind (muted_execute ?_ rfl) (ih _)
        refine (Db.uids_congr (fun u => ?_)).le
        rw [Db.message?_cacheMessageBody,Option.isSome_map]

theorem exec_syncFolders_cons (folder : FolderSnapshot) (folders : List FolderSnapshot) (w : World) :
    ((syncFolders (folder :: folders)).exec weather w).2 =
      ((syncFolders folders).exec weather ((syncFolder folder).exec weather w).2).2 := by
  simp only [syncFolders,Task.exec_bind,Task.exec_pure]

theorem told_syncFolders (folder : FolderSnapshot) (folders : List FolderSnapshot) (w : World) :
    (syncFolders (folder :: folders)).told weather w = (syncFolder folder).told weather w ++
      (syncFolders folders).told weather ((syncFolder folder).exec weather w).2 := by
  rw [syncFolders,Task.told_bind,Task.told_bind]
  exact congrArg _ (List.append_nil _)

theorem stored_syncFolders (folder : FolderSnapshot) (folders : List FolderSnapshot) (w : World) :
    (syncFolders (folder :: folders)).stored weather f w = (syncFolder folder).stored weather f w +
      (syncFolders folders).stored weather f ((syncFolder folder).exec weather w).2 := by
  rw [syncFolders,Task.stored_bind,Task.stored_bind]
  rfl

/-- What a cycle announces is what the passes announce, each after the ones before it. -/
theorem mem_told_syncFolders {k : Nat} (folders : List FolderSnapshot) (w : World) :
    (f,k) ∈ (syncFolders folders).told weather w ↔
      ∃ pre folder post, folders = pre ++ folder :: post ∧
        (f,k) ∈ (syncFolder folder).told weather ((syncFolders pre).exec weather w).2 := by
  induction folders generalizing w with
  | nil =>
    constructor
    · intro h
      exact absurd h List.not_mem_nil
    · rintro ⟨pre,folder,post,h,-⟩
      simp at h
  | cons folder folders ih =>
    rw [told_syncFolders,List.mem_append,ih]
    constructor
    · rintro (h | ⟨pre,folder',post,rfl,h⟩)
      · exact ⟨[],folder,folders,rfl,h⟩
      · refine ⟨folder :: pre,folder',post,rfl,?_⟩
        rw [exec_syncFolders_cons]
        exact h
    · rintro ⟨pre,folder',post,h,hk⟩
      rcases pre with _ | ⟨first,pre⟩
      · obtain ⟨rfl,rfl⟩ := List.cons.inj h
        exact Or.inl hk
      · obtain ⟨rfl,rfl⟩ := List.cons.inj h
        rw [exec_syncFolders_cons] at hk
        exact Or.inr ⟨pre,folder',post,rfl,hk⟩

theorem stored_syncFolders_of_not_mem (folders : List FolderSnapshot)
    (hf : ∀ s ∈ folders, f ≠ s.name) (w : World) : (syncFolders folders).stored weather f w = 0 := by
  induction folders generalizing w with
  | nil => rfl
  | cons folder folders ih =>
    rw [stored_syncFolders,stored_within (hf folder List.mem_cons_self) (syncFolder_within folder),
      ih (fun s hs => hf s (List.mem_cons_of_mem _ hs))]

/-- What a cycle stores in a folder its own pass stores. -/
theorem stored_syncFolders_split {pre post : List FolderSnapshot} {folder : FolderSnapshot}
    (hnd : ((pre ++ folder :: post).map FolderSnapshot.name).Nodup) (w : World) :
    (syncFolders (pre ++ folder :: post)).stored weather folder.name w =
      (syncFolder folder).stored weather folder.name ((syncFolders pre).exec weather w).2 := by
  induction pre generalizing w with
  | nil =>
    obtain ⟨hn,-⟩ := List.nodup_cons.mp hnd
    rw [List.nil_append,stored_syncFolders,stored_syncFolders_of_not_mem post ?_,Nat.add_zero]
    · rfl
    · intro s hs he
      exact hn (List.mem_map.mpr ⟨s,hs,he.symm⟩)
  | cons first pre ih =>
    obtain ⟨hn,hnd⟩ := List.nodup_cons.mp hnd
    have hne : folder.name ≠ first.name := by
      intro he
      exact hn (List.mem_map.mpr ⟨folder,by simp,he⟩)
    rw [List.cons_append,stored_syncFolders,stored_within hne (syncFolder_within first),Nat.zero_add,
      ih hnd,exec_syncFolders_cons]

/-- Other folders' passes leave a folder's row. -/
theorem folder?_syncFolders {pre : List FolderSnapshot} (hf : ∀ s ∈ pre, f ≠ s.name) (w : World) :
    ((syncFolders pre).exec weather w).2.db.folder? f = w.db.folder? f := by
  induction pre generalizing w with
  | nil => rfl
  | cons first pre ih =>
    rw [exec_syncFolders_cons,ih (fun s hs => hf s (List.mem_cons_of_mem _ hs)),
      folder?_within (hf first List.mem_cons_self) (syncFolder_within first)]

/-- After the folders' passes a cycle announces and stores nothing more. -/
theorem muted_afterSync (anyChanges : Bool) (w : World) : Muted weather f
    (do if anyChanges then Task.publish (.folderUpdated none) else pure ()
        indexMessageBodies : Task Unit) w := by
  have hindex : ∀ w : World, Muted weather f indexMessageBodies w := by
    intro w
    exact (muted_query _).bind (muted_indexBodies _ _)
  cases anyChanges with
  | true => exact (muted_publish rfl).bind (hindex _)
  | false => exact hindex w

theorem told_runSync (w : World) :
    runSync.told weather w = (syncFolders (folderSnapshots w.db)).told weather w := by
  have hquery : (Task.query folderSnapshots).told weather w = [] := Prog.log_perform _ _ _ _
  rw [runSync,Task.told_bind,hquery,List.nil_append,Task.exec_query]
  show (syncSnapshots (folderSnapshots w.db)).told weather w = _
  rw [syncSnapshots,Task.told_bind]
  exact (congrArg _ (muted_afterSync (f := "") _ _).told).trans (List.append_nil _)

theorem stored_runSync (w : World) :
    runSync.stored weather f w = (syncFolders (folderSnapshots w.db)).stored weather f w := by
  rw [runSync,Task.stored_bind,(muted_query folderSnapshots).stored,Nat.zero_add,Task.exec_query]
  show (syncSnapshots (folderSnapshots w.db)).stored weather f w = _
  rw [syncSnapshots,Task.stored_bind]
  exact (congrArg _ (muted_afterSync _ _).stored).trans (Nat.add_zero _)

end Cycle

/-- A cycle announces new messages only in a number above zero and equal to the number of messages of
the folder it newly stores in the cache, exactly if for every folder, when its turn comes, either no
headers are fetched, or the fetch brings a message (unless this is the full fetch) and brings none that
is cached already. -/
theorem announced_iff (weather : Weather) (w : World) :
    (∀ f k, (f,k) ∈ runSync.told weather w → 0 < k ∧ k = runSync.stored weather f w) ↔
      ∀ pre folder post, folderSnapshots w.db = pre ++ folder :: post →
        Announces weather folder.name
          ((pendingFolder folder).exec weather ((syncFolders pre).exec weather w).2).1
          ((pendingFolder folder).exec weather ((syncFolders pre).exec weather w).2).2 := by
  have hnd := nodup_folderSnapshots w.db
  have hpass : ∀ pre folder post, folderSnapshots w.db = pre ++ folder :: post →
      Tells weather folder.name (syncFolder folder) (pendingFolder folder)
        ((syncFolders pre).exec weather w).2 ∧
      runSync.stored weather folder.name w =
        (syncFolder folder).stored weather folder.name ((syncFolders pre).exec weather w).2 := by
    intro pre folder post hsplit
    rw [hsplit] at hnd
    refine ⟨tells_syncFolder ?_,?_⟩
    · rw [folder?_syncFolders ?_]
      · obtain ⟨row,hrow,-⟩ := mem_folderSnapshots.mp (hsplit ▸ List.mem_append_right _ List.mem_cons_self)
        rw [hrow]
        rfl
      · intro s hs he
        rw [List.map_append,List.nodup_append] at hnd
        exact hnd.2.2 s.name (List.mem_map.mpr ⟨s,hs,rfl⟩) folder.name (by simp) he.symm
    · rw [stored_runSync,hsplit]
      exact stored_syncFolders_split hnd w
  constructor
  · intro h pre folder post hsplit
    obtain ⟨htells,hstored⟩ := hpass pre folder post hsplit
    refine (announces_iff _).mpr (fun g k hk => ?_)
    have hg : g = folder.name := fst_of_mem_announced hk
    subst hg
    rw [← htells.told] at hk
    have hcycle : (folder.name,k) ∈ runSync.told weather w := by
      rw [told_runSync]
      exact (mem_told_syncFolders _ _).mpr ⟨pre,folder,post,hsplit,hk⟩
    obtain ⟨hpos,hcount⟩ := h _ _ hcycle
    exact ⟨rfl,hpos,by rw [hcount,hstored,htells.stored]⟩
  · intro h f k hk
    rw [told_runSync] at hk
    obtain ⟨pre,folder,post,hsplit,hk⟩ := (mem_told_syncFolders _ _).mp hk
    obtain ⟨htells,hstored⟩ := hpass pre folder post hsplit
    rw [htells.told] at hk
    obtain ⟨rfl,hpos,hcount⟩ := (announces_iff _).mp (h pre folder post hsplit) f k hk
    exact ⟨hpos,by rw [hstored,htells.stored,← hcount]⟩

/-- A synchronised folder into which a message was delivered and moved on before the next cycle. -/
def passedThrough : World :=
  syncedTwo.drift [("INBOX",.deliver 0 plainHeader plainBody),("INBOX",.expunge 3)]

/-- The next cycle announces no messages. -/
theorem passedThrough_announced :
    passedThrough.Reachable ImapMessageBody.cached ∧ ("INBOX",0) ∈ runSync.told calm passedThrough := by
  have hsynced : syncedTwo.Reachable ImapMessageBody.cached :=
    reachable_listedTwo.step (e := .cycle calm) rfl
  exact ⟨hsynced.drift _,by decide⟩

end Rav
