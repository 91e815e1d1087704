import Rav.Phantom

/-!
# The full fetch

Against a server that stands still, the full fetch keeps what the server still has, takes over its flags
and adds what lies above the old highest UID. The highest UID is taken before anything is removed: where
the removals lower it, a message in between comes with the next fetch only.

## Main definitions

- `Db.FullyFetched` — the cache after a full fetch
- `Db.Unmoved` — nothing changed but the time of the last sync
- `Mailbox.Caught`, `Mailbox.Plain` — when the next fetch has nothing to do
- `syncFull_exact_iff` — when one full fetch is enough
-/

namespace Rav

/-- The cached UIDs are those still on the server with those above the old ones; every message carries
the server's flags; and nothing else about the messages that stay has changed. -/
structure Db.FullyFetched (b : Mailbox) (f : String) (db db' : Db) : Prop where
  uids : db'.uids f = (db.uids f ∩ b.uids) ∪ above (db.uids f) b.uids
  flags : ∀ u r, db'.message? f u = some r →
    ∃ m ∈ b.messages, m.uid = u ∧ flagSet r.flags = flagSet (flagsCsv m.header.flags)
  kept : ∀ u r r', db.message? f u = some r → db'.message? f u = some r' → r' = r.setFlags r'.flags

/-- A folder row but for the time of its last sync. -/
def CachedFolder.untimed (row : CachedFolder) : CachedFolder := { row with messagesUpdatedAt := none }

/-- The messages are as before, and so are the folder rows but for the times of the last syncs. -/
structure Db.Unmoved (db db' : Db) : Prop where
  folders : ∀ g, (db'.folder? g).map CachedFolder.untimed = (db.folder? g).map CachedFolder.untimed
  messages : ∀ g u, db'.message? g u = db.message? g u

/-- None of some UIDs is left; or there is one above them all; or there is none above those left. -/
def Mailbox.Caught (b : Mailbox) (C : Finset Nat) : Prop :=
  C ∩ b.uids = ∅ ∨ (above C b.uids).Nonempty ∨ above (C ∩ b.uids) b.uids = ∅

/-- Sorting flags after they are joined, or not at all, makes no difference to sorting them before. -/
def PlainFlags (flags : List String) : Prop :=
  sortSep ',' (flagsCsv flags) = sortedFlagsCsv flags ∨ flagsCsv flags = sortedFlagsCsv flags

/-- So it is for all messages above some UIDs. -/
def Mailbox.Plain (b : Mailbox) (C : Finset Nat) : Prop :=
  ∀ m ∈ b.messages, m.uid ∈ above C b.uids → PlainFlags m.header.flags

instance (b : Mailbox) (C : Finset Nat) : Decidable (b.Caught C) :=
  inferInstanceAs (Decidable (_ ∨ _ ∨ _))

instance (flags : List String) : Decidable (PlainFlags flags) := inferInstanceAs (Decidable (_ ∨ _))

instance (b : Mailbox) (C : Finset Nat) : Decidable (b.Plain C) :=
  inferInstanceAs (Decidable (∀ m ∈ b.messages, _))

section

variable {w : World} {f : String} {b : Mailbox} {db : Db} {st : FolderStatusExtended} {C : Finset Nat}

/-! ### Above what is kept -/

/-- After a fetch that adds something nothing is above. -/
theorem above_union_above (h : (above C b.uids).Nonempty) :
    above ((C ∩ b.uids) ∪ above C b.uids) b.uids = ∅ := by
  refine Finset.eq_empty_of_forall_notMem (fun u hu => ?_)
  obtain ⟨hU,hall⟩ := mem_above.mp hu
  obtain ⟨v,hv⟩ := h
  have hvu : v < u := hall v (Finset.mem_union_right _ hv)
  have habove : u ∈ above C b.uids := by
    refine mem_above.mpr ⟨hU,fun k hk => ?_⟩
    exact Nat.lt_trans ((mem_above.mp hv).2 k hk) hvu
  exact Nat.lt_irrefl u (hall u (Finset.mem_union_right _ habove))

/-- Whether the next fetch finds nothing new. -/
theorem caught_iff : b.Caught C ↔ (C ∩ b.uids) ∪ above C b.uids = ∅ ∨
    above ((C ∩ b.uids) ∪ above C b.uids) b.uids = ∅ := by
  unfold Mailbox.Caught
  rcases (above C b.uids).eq_empty_or_nonempty with hnone | hsome
  · rw [hnone,Finset.union_empty]
    simp
  · exact iff_of_true (Or.inr (Or.inl hsome)) (Or.inr (above_union_above hsome))

/-! ### One fetch -/

/-- The cache once what the server lacks is gone and its flags are taken over. -/
def fetchedOver (b : Mailbox) (f : String) (st : FolderStatusExtended) (db : Db) : Db :=
  (reconcile f (db.getAllUidsAndFlags f) (imapMapOf b) db).2.updateFolderSyncStatus f st.uidValidity
    st.exists_ st.highestModseq

/-- The full fetch ends with its part for new messages. -/
theorem exec_syncFull_calm (h : (w.db.uids f).Nonempty) :
    ∃ changed, ((syncFull f st).exec calm w).2.db =
      ((fetchNewFull f (imapMapOf (w.server f)) (w.db.maxUid f) changed).exec calm
        { w with db := fetchedOver (w.server f) f st w.db }).2.db := by
  have hm : ((w.db.getAllUidsAndFlags f).map Prod.fst).foldr max 0 = w.db.maxUid f := by
    rw [Db.getAllUidsAndFlags,List.map_map]
    rfl
  refine ⟨(reconcile f (w.db.getAllUidsAndFlags f) (imapMapOf (w.server f)) w.db).1,?_⟩
  simp only [syncFull,Task.exec_bind,Task.exec_query,getAllUidsAndFlags_isEmpty h,
    Bool.false_eq_true,if_false,Task.exec_imap_calm,World.reply,Task.exec_withUserDb,hm]
  split
  · rfl
  · rfl

/-- The rows a full fetch leaves. -/
theorem message?_syncFull (h : (w.db.uids f).Nonempty) (hmax : w.db.maxUid f + 1 < 2 ^ 32) (u : Nat) :
    (∃ m ∈ (w.server f).messages, m.uid = u ∧ u ∈ above (w.db.uids f) (w.server f).uids ∧
      ((syncFull f st).exec calm w).2.db.message? f u = some (((w.server f).stamp m).row f)) ∨
    (u ∉ above (w.db.uids f) (w.server f).uids ∧
      ((syncFull f st).exec calm w).2.db.message? f u =
        (w.db.message? f u).bind (fun r => reconciled r (mapGet (imapMapOf (w.server f)) u))) := by
  obtain ⟨-,-,hrows⟩ := exec_syncFull steady_calm h hmax st rfl
  have hmem : u ∈ above (w.db.uids f) (w.server f).uids ↔
      ∃ k ∈ newHeaders calm (w.server f) f (w.db.maxUid f + 1), k.uid = u := by
    have huids := @uids_newHeaders f calm (w.server f) w.db rfl
    rw [← huids,List.mem_toFinset,List.mem_map]
  have hrow : ((fetchedOver (w.server f) f st w.db).folder? f).isSome = true := by
    obtain ⟨v,hv⟩ := h
    obtain ⟨row,hrow⟩ := Db.folder?_isSome_of_mem_uids hv
    rw [fetchedOver,Db.updateFolderSyncStatus,Db.folder?_updateFolder,Option.isSome_map,
      folder?_reconcile,hrow]
    rfl
  rw [hrows]
  rcases message?_storeHeaders hrow (newHeaders calm (w.server f) f (w.db.maxUid f + 1)) u with
    ⟨k,hk,hku,hr⟩ | ⟨hnone,hr⟩
  · obtain ⟨m,hm,-,rfl⟩ := (newHeaders_of_ok rfl).mp hk
    exact Or.inl ⟨m,hm,hku,hmem.mpr ⟨_,hk,hku⟩,hr⟩
  · refine Or.inr ⟨fun hu => ?_,hr.trans (message?_reconcile _)⟩
    obtain ⟨k,hk,hku⟩ := hmem.mp hu
    exact hnone k hk hku

theorem mapGet_imapMapOf_eq_some {u : Nat} {csv : String} (h : mapGet (imapMapOf b) u = some csv) :
    ∃ m ∈ b.messages, m.uid = u ∧ csv = sortedFlagsCsv m.header.flags := by
  have hu : u ∈ b.uids := (mapGet_imapMapOf u).mp (by rw [h]; rfl)
  obtain ⟨m,hm,rfl⟩ := Mailbox.mem_uids.mp hu
  exact ⟨m,hm,rfl,Option.some.inj (h.symm.trans (mapGet_imapMapOf_of_mem hm))⟩

/-- A message that stays, and what becomes of it. -/
theorem reconciled_eq_some {r r' : CachedMessage} {csv : Option String}
    (h : reconciled r csv = some r') : ∃ k, csv = some k ∧ r' = r.setFlags r'.flags ∧
      (r'.flags = k ∨ sortSep ',' r'.flags = k) := by
  cases csv with
  | none => simp [reconciled] at h
  | some k =>
    refine ⟨k,rfl,?_⟩
    obtain rfl := Option.some.inj h
    split
    · exact ⟨rfl,Or.inl rfl⟩
    · next hsame => exact ⟨rfl,Or.inr (not_not.mp hsame)⟩

/-- One full fetch. -/
theorem fullyFetched_syncFull (h : (w.db.uids f).Nonempty) (hmax : w.db.maxUid f + 1 < 2 ^ 32) :
    Db.FullyFetched (w.server f) f w.db ((syncFull f st).exec calm w).2.db := by
  have hrows := @message?_syncFull w f st h hmax
  refine ⟨?_,?_,?_⟩
  · ext u
    rw [Db.mem_uids_iff_isSome,Finset.mem_union,Finset.mem_inter,Db.mem_uids_iff_isSome]
    rcases hrows u with ⟨m,hm,rfl,hu,hr⟩ | ⟨hu,hr⟩
    · rw [hr]
      exact iff_of_true rfl (Or.inr hu)
    · rw [hr,or_iff_left hu,← mapGet_imapMapOf]
      cases w.db.message? f u with
      | none => simp
      | some r => cases mapGet (imapMapOf (w.server f)) u <;> simp [reconciled]
  · intro u r hr'
    rcases hrows u with ⟨m,hm,hmu,hu,hr⟩ | ⟨hu,hr⟩
    · obtain rfl := Option.some.inj (hr.symm.trans hr')
      exact ⟨m,hm,hmu,rfl⟩
    · obtain ⟨r₀,-,hrec⟩ := Option.bind_eq_some_iff.mp (hr.symm.trans hr')
      obtain ⟨csv,hcsv,-⟩ := reconciled_eq_some hrec
      obtain ⟨m,hm,rfl,rfl⟩ := mapGet_imapMapOf_eq_some hcsv
      exact ⟨m,hm,rfl,flagSet_reconciled (hcsv ▸ hrec)⟩
  · intro u r r' hr hr'
    rcases hrows u with ⟨m,hm,hmu,hu,-⟩ | ⟨-,hrow⟩
    · exact absurd ((mem_above.mp hu).2 u (Db.mem_uids.mpr ⟨r,hr⟩)) (Nat.lt_irrefl u)
    · rw [hr,Option.bind_some] at hrow
      obtain ⟨-,-,hset,-⟩ := reconciled_eq_some (hrow.symm.trans hr')
      exact hset

/-! ### The next fetch -/

/-- The row of a folder shows the status of a server. -/
def Db.Stamped (f : String) (st : FolderStatusExtended) (db : Db) : Prop :=
  ∀ row, db.folder? f = some row →
    row.uidValidity = st.uidValidity ∧ row.totalCount = st.exists_ ∧ row.highestModseq = st.highestModseq

theorem Db.Stamped.unmoved (h : db.Stamped f st) :
    Db.Unmoved db (db.updateFolderSyncStatus f st.uidValidity st.exists_ st.highestModseq) := by
  refine ⟨fun g => ?_,fun g u => rfl⟩
  rw [Db.updateFolderSyncStatus,Db.folder?_updateFolder,Option.map_map]
  cases hrow : db.folder? g with
  | none => rfl
  | some row =>
    simp only [Option.map_some,Function.comp_apply]
    split
    · next hname =>
      obtain ⟨h1,h2,h3⟩ := h row (hname ▸ hrow)
      rw [← h1,← h2,← h3]
      rfl
    · rfl

theorem Db.Stamped.congr {db' : Db} (h : db.Stamped f st) (hrow : db'.folder? f = db.folder? f) :
    db'.Stamped f st := fun row hr => h row (hrow.symm.trans hr)

theorem stamped_fetchedOver : (fetchedOver b f st db).Stamped f st := by
  intro row hrow
  rw [fetchedOver,Db.updateFolderSyncStatus,Db.folder?_updateFolder] at hrow
  obtain ⟨row',-,rfl⟩ := Option.map_eq_some_iff.mp hrow
  rw [if_pos rfl]
  exact ⟨rfl,rfl,rfl⟩

/-- Counting unread messages leaves the status. -/
theorem Db.Stamped.refresh (h : db.Stamped f st) : (db.refreshUnreadCount f).Stamped f st := by
  intro row hrow
  rw [Db.refreshUnreadCount,Db.folder?_updateFolder] at hrow
  obtain ⟨row',hrow',rfl⟩ := Option.map_eq_some_iff.mp hrow
  rw [if_pos rfl]
  exact h row' hrow'

theorem stamped_fetchNewFull (h : w.db.Stamped f st) (imapMap : List (Nat × String)) (n : Nat)
    (changed : Bool) : ((fetchNewFull f imapMap n changed).exec calm w).2.db.Stamped f st := by
  have hfetch := (exec_fetchAndStoreNew (f := f) (w := w) steady_calm (succU32 n)).1
  have hstored : (storeHeaders f (newHeaders calm (w.server f) f (succU32 n)) w.db).Stamped f st :=
    h.congr (folder?_storeHeaders _)
  simp only [fetchNewFull,Task.exec_ite,Task.exec_bind,Task.exec_execute,Task.exec_publish,
    Task.exec_pure,hfetch]
  split
  · split
    · exact hstored.refresh
    · exact hstored
  · exact h

theorem stamped_syncFull (h : (w.db.uids f).Nonempty) :
    ((syncFull f st).exec calm w).2.db.Stamped f st := by
  obtain ⟨changed,hdb⟩ := @exec_syncFull_calm w f st h
  rw [hdb]
  exact stamped_fetchNewFull stamped_fetchedOver _ _ _

/-- The server has messages above the cache. -/
theorem any_maxUid_lt_iff (h : (db.uids f).Nonempty) :
    (imapMapOf b).any (fun p => db.maxUid f < p.1) = true ↔ (above (db.uids f) b.uids).Nonempty := by
  rw [List.any_eq_true]
  constructor
  · rintro ⟨p,hp,hlt⟩
    obtain ⟨m,hm,rfl⟩ := mem_imapMapOf.mp hp
    rw [decide_eq_true_iff,Db.maxUid_lt_iff h] at hlt
    exact ⟨m.uid,mem_above.mpr ⟨Mailbox.mem_uids.mpr ⟨m,hm,rfl⟩,hlt⟩⟩
  · rintro ⟨u,hu⟩
    obtain ⟨hU,hall⟩ := mem_above.mp hu
    obtain ⟨m,hm,rfl⟩ := Mailbox.mem_uids.mp hU
    refine ⟨_,mem_imapMapOf.mpr ⟨m,hm,rfl⟩,?_⟩
    rw [decide_eq_true_iff,Db.maxUid_lt_iff h]
    exact hall

theorem fetched_calm (n : Nat) : fetched calm f n w = newHeaders calm (w.server f) f n := rfl

/-- New messages are announced exactly if there are any. -/
theorem told_syncFull_iff (h : (w.db.uids f).Nonempty) (hmax : w.db.maxUid f + 1 < 2 ^ 32) :
    (syncFull f st).told calm w = [] ↔ above (w.db.uids f) (w.server f).uids = ∅ := by
  have hrow : (w.db.folder? f).isSome = true := by
    obtain ⟨u,hu⟩ := h
    obtain ⟨row,hrow⟩ := Db.folder?_isSome_of_mem_uids hu
    rw [hrow]
    rfl
  have hm : ((w.db.getAllUidsAndFlags f).map Prod.fst).foldr max 0 = w.db.maxUid f := by
    rw [Db.getAllUidsAndFlags,List.map_map]
    rfl
  have hany := @any_maxUid_lt_iff f (w.server f) w.db h
  unfold imapMapOf at hany
  rw [(tells_syncFull hrow st).told]
  simp only [pendingFull,Task.exec_bind,Task.exec_query,getAllUidsAndFlags_isEmpty h,
    Bool.false_eq_true,if_false,Task.exec_imap_calm,World.reply,Task.exec_withUserDb,hm,
    succU32_of_lt hmax]
  split
  · next hlt =>
    have hnew := @uids_newHeaders f calm (w.server f) w.db rfl
    have hsome := hany.mp hlt
    refine iff_of_false ?_ hsome.ne_empty
    have hfetched : 0 < (newHeaders calm (w.server f) f (w.db.maxUid f + 1)).length := by
      rw [← hnew,List.toFinset_nonempty_iff] at hsome
      exact List.length_pos_iff.mpr (fun hnil => hsome (by rw [hnil]; rfl))
    rw [Task.exec_pure,announced,fetched_calm,if_pos (Or.inr hfetched)]
    exact List.cons_ne_nil _ _
  · next hnot => exact iff_of_true rfl (Finset.not_nonempty_iff_eq_empty.mp (fun hs => hnot (hany.mpr hs)))

/-- A row is left by a fetch exactly if its flags are the server's, sorted or once they are sorted. -/
theorem reconciled_eq_self_iff {r : CachedMessage} {k : String} :
    reconciled r (some k) = some r ↔ r.flags = k ∨ sortSep ',' r.flags = k := by
  by_cases hsame : sortSep ',' r.flags = k
  · simp [reconciled,hsame]
  · have hset : reconciled r (some k) = some (r.setFlags k) := congrArg some (if_pos hsame)
    rw [hset,Option.some.injEq,or_iff_left hsame]
    constructor
    · intro he
      rw [← he]
      rfl
    · rintro rfl
      rfl

/-- A fetch that finds nothing new, over what the fetch before left. -/
theorem exec_syncFull_again (h : (db.uids f).Nonempty) (hw : w.db = db)
    (hnone : above (db.uids f) (w.server f).uids = ∅) :
    ((syncFull f st).exec calm w).2.db = fetchedOver (w.server f) f st db := by
  subst hw
  obtain ⟨changed,hdb⟩ := @exec_syncFull_calm w f st h
  have hany : ¬(imapMapOf (w.server f)).any (fun p => w.db.maxUid f < p.1) = true := by
    rw [any_maxUid_lt_iff h,hnone]
    exact Finset.not_nonempty_empty
  rw [hdb,fetchNewFull,if_neg hany]
  rfl

theorem told_syncFull_of_empty (h : w.db.uids f = ∅) : (syncFull f st).told calm w = [] := by
  have hnil : w.db.getAllUidsAndFlags f = [] := by
    refine List.eq_nil_iff_forall_not_mem.mpr (fun p hp => ?_)
    obtain ⟨r,hr,-⟩ := mem_getAllUidsAndFlags.mp hp
    have hu := Db.mem_uids.mpr ⟨r,hr⟩
    rw [h] at hu
    exact Finset.notMem_empty _ hu
  have hmuted : Muted calm f (Task.query (fun db => db.getAllUidsAndFlags f)) w := muted_query _
  rw [syncFull,Task.told_bind,hmuted.told,Task.exec_query,hnil]
  rfl

/-- Where nothing is new, a fetch leaves everything exactly if it leaves the flags of every message. -/
theorem unmoved_fetchedOver_iff (h : db.Stamped f st) : Db.Unmoved db (fetchedOver b f st db) ↔
    ∀ u r, db.message? f u = some r → reconciled r (mapGet (imapMapOf b) u) = some r := by
  constructor
  · intro hsame u r hr
    have hrow : (reconcile f (db.getAllUidsAndFlags f) (imapMapOf b) db).2.message? f u =
        db.message? f u := hsame.messages f u
    rwa [message?_reconcile,hr,Option.bind_some] at hrow
  · intro hsame
    have hrec : (reconcile f (db.getAllUidsAndFlags f) (imapMapOf b) db).2.folder? f = db.folder? f :=
      folder?_reconcile _ _
    have hstamp := (h.congr hrec).unmoved
    refine ⟨fun g => ?_,fun g u => ?_⟩
    · exact (hstamp.folders g).trans (congrArg _ (folder?_reconcile _ _))
    · refine (hstamp.messages g u).trans ?_
      by_cases hg : g = f
      · subst hg
        rw [message?_reconcile]
        cases hr : db.message? g u with
        | none => rfl
        | some r => exact hsame u r hr
      · exact message?_reconcile_of_ne _ _ hg

end

/-- Where a full fetch meets a folder with messages in the cache and a server that stands still, it makes
the cache what it should be, and a second one changes nothing and announces nothing, exactly if none of the
cached messages is left on the server, or it has a message above all of them, or none above those left; and
sorting makes no difference to the flags of the messages that are new. -/
theorem syncFull_exact_iff (w : World) (f : String) (st : FolderStatusExtended)
    (h : (w.db.uids f).Nonempty) (hb : ∀ u ∈ w.db.uids f, u + 1 < 2 ^ 32) :
    (Db.FullyFetched (w.server f) f w.db ((syncFull f st).exec calm w).2.db ∧
      Db.Unmoved ((syncFull f st).exec calm w).2.db
        ((syncFull f st).exec calm ((syncFull f st).exec calm w).2).2.db ∧
      (syncFull f st).told calm ((syncFull f st).exec calm w).2 = []) ↔
    (w.server f).Caught (w.db.uids f) ∧ (w.server f).Plain (w.db.uids f) := by
  have hmax : w.db.maxUid f + 1 < 2 ^ 32 := hb _ (Db.maxUid_mem h)
  have hfirst := @fullyFetched_syncFull w f st h hmax
  have hserver : ((syncFull f st).exec calm w).2.server = w.server :=
    (exec_syncFull steady_calm h hmax st rfl).1
  have hstamp := @stamped_syncFull w f st h
  have hrows := @message?_syncFull w f st h hmax
  rw [and_iff_right hfirst,caught_iff,← hfirst.uids]
  generalize ((syncFull f st).exec calm w).2 = w' at hfirst hserver hstamp hrows ⊢
  rcases (w'.db.uids f).eq_empty_or_nonempty with hempty | hsome
  · rw [exec_syncFull_of_empty hempty]
    refine iff_of_true ⟨hstamp.unmoved,told_syncFull_of_empty hempty⟩ ⟨Or.inl hempty,?_⟩
    intro m _ hm
    have hnew : m.uid ∈ w'.db.uids f := by
      rw [hfirst.uids]
      exact Finset.mem_union_right _ hm
    rw [hempty] at hnew
    exact absurd hnew (Finset.notMem_empty _)
  · have hmax' : w'.db.maxUid f + 1 < 2 ^ 32 := by
      have hmem := Db.maxUid_mem hsome
      rw [hfirst.uids] at hmem
      rcases Finset.mem_union.mp hmem with hmem | hmem
      · exact hb _ (Finset.mem_inter.mp hmem).1
      · have hlt := Mailbox.lt_uidNext (mem_above.mp hmem).1
        have := (w.server f).uidNext_lt
        omega
    rw [told_syncFull_iff hsome hmax',hserver,or_iff_right hsome.ne_empty,
      and_comm (b := above (w'.db.uids f) (w.server f).uids = ∅)]
    refine and_congr_right (fun hnone => ?_)
    have hagain : ((syncFull f st).exec calm w').2.db = fetchedOver (w.server f) f st w'.db := by
      rw [← hserver] at hnone ⊢
      exact exec_syncFull_again hsome rfl hnone
    rw [hagain,unmoved_fetchedOver_iff hstamp]
    constructor
    · intro hleft m hm hnew
      rcases hrows m.uid with ⟨m',hm',he,-,hr⟩ | ⟨hnot,-⟩
      · obtain rfl : m' = m := Mailbox.eq_of_uid hm' hm he
        have hself := hleft _ _ hr
        rw [mapGet_imapMapOf_of_mem hm] at hself
        exact (reconciled_eq_self_iff.mp hself).symm
      · exact absurd hnew hnot
    · intro hplain u r hr'
      rcases hrows u with ⟨m,hm,rfl,hnew,hr⟩ | ⟨hnot,hr⟩
      · obtain rfl := Option.some.inj (hr.symm.trans hr')
        rw [mapGet_imapMapOf_of_mem hm]
        exact reconciled_eq_self_iff.mpr (hplain m hm hnew).symm
      · obtain ⟨r₀,-,hrec⟩ := Option.bind_eq_some_iff.mp (hr.symm.trans hr')
        obtain ⟨k,hk,-,hflags⟩ := reconciled_eq_some hrec
        rw [hk]
        exact reconciled_eq_self_iff.mpr hflags

/-- A folder of two messages, both cached; then the first is removed and a third delivered. -/
def movedOn : World :=
  listedTwo.drift [("INBOX",.deliver 0 plainHeader plainBody),("INBOX",.expunge 1)]

theorem syncFull_exact_movedOn :
    Db.Unmoved ((syncFull "INBOX" ⟨1,2,4,0,4⟩).exec calm movedOn).2.db
      ((syncFull "INBOX" ⟨1,2,4,0,4⟩).exec calm ((syncFull "INBOX" ⟨1,2,4,0,4⟩).exec calm movedOn).2).2.db :=
  ((syncFull_exact_iff movedOn "INBOX" ⟨1,2,4,0,4⟩ (by decide) (by decide)).mpr (by decide)).2.1

/-- Three messages listed; the row of the second is dropped, and then the third is removed. -/
def hollowThree : World :=
  ((Task.exec offline (getMessage ImapMessageBody.cached "INBOX" 2)
    (Task.exec calm (listMessages "INBOX")
      (World.opening (fun _ => (Mailbox.fresh 1 Nat.one_pos true false).deliverPlain 3))).2).2).drift
    [("INBOX",.expunge 3)]

/-- The second comes back, as a new message, with the second fetch only. -/
theorem fetched_late :
    hollowThree.Reachable ImapMessageBody.cached ∧ hollowThree.db.uids "INBOX" = {1,3} ∧
      (hollowThree.server "INBOX").uids = {1,2} ∧
      ¬(Db.FullyFetched (hollowThree.server "INBOX") "INBOX" hollowThree.db
          ((syncFull "INBOX" ⟨1,2,4,0,4⟩).exec calm hollowThree).2.db ∧
        Db.Unmoved ((syncFull "INBOX" ⟨1,2,4,0,4⟩).exec calm hollowThree).2.db
          ((syncFull "INBOX" ⟨1,2,4,0,4⟩).exec calm
            ((syncFull "INBOX" ⟨1,2,4,0,4⟩).exec calm hollowThree).2).2.db ∧
        (syncFull "INBOX" ⟨1,2,4,0,4⟩).told calm
          ((syncFull "INBOX" ⟨1,2,4,0,4⟩).exec calm hollowThree).2 = []) := by
  refine ⟨?_,by decide,by decide,fun h => absurd h.2.2 (by decide)⟩
  have hlisted : (Task.exec calm (listMessages "INBOX") (World.opening
      (fun _ => (Mailbox.fresh 1 Nat.one_pos true false).deliverPlain 3))).2.Reachable
        ImapMessageBody.cached :=
    (World.blank_opening _).reachable.step (e := .listMessages "INBOX" calm) rfl
  exact (hlisted.step (e := .getMessage "INBOX" 2 offline) rfl).drift _

end Rav
