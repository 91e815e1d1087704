import Rav.Realtime.Replica
import Rav.Imap.History

/-!
# What a folder's pass can leave, and what a cache has absorbed

In steady weather, calls failing or not, a folder's pass leaves its rows and checkpoint alone,
or ends one of the paths of the cycle. `Pass` lists these ends once; properties of caches under
faults are case analyses on it. A stored HIGHESTMODSEQ promises that the cache has taken in
everything the mailbox did up to it. `Absorbed` spells the promise out: messages delivered by then
are cached, flags unchanged since then are the cached ones, messages removed by then are not cached.

## Main definitions

- `Pass` — the databases a folder's pass can leave
- `FlagsAgree` — cached rows hold the flags of the messages unchanged since `k`
- `Absorbed` — the whole promise
- `Absorbs` — when a pass absorbs what it writes down: the calls that must not fail and the gaps
  that must not be there
-/

namespace Rav

/-- The pass has reached the full fetch: CONDSTORE is not in use, or the change fetch failed. -/
def ReachesFull (weather : Weather) (b : Mailbox) (f : String) (m : Nat) : Prop :=
  ¬(0 < b.reportedModseq ∧ 0 < m ∧ weather.fails (.fetchChangedFlags f m b.uidValidity) = none)

/-- The databases a folder's pass can leave, up to what the checkpoint and the rows do not
show. -/
inductive Pass (weather : Weather) (b : Mailbox) (f : String) (v m : Nat) (db db' : Db) : Prop
  | kept (h : Db.SameRows f db db')
  | condstore (hv : v = 0 ∨ b.uidValidity = v) (hn : ¬Matches b m (db.uids f).card)
      (hs : weather.fails (.folderStatusExtended f) = none)
      (hM : 0 < b.reportedModseq) (hm : 0 < m)
      (hok : weather.fails (.fetchChangedFlags f m b.uidValidity) = none)
      (db1 : Db) (hdb1 : db1 = beforeFetch weather b f (b.changedFlags m b.uidValidity) db)
      (h : Db.SameRows f
        ((storeHeaders f (newHeaders weather b f (db1.maxUid f + 1)) db1).updateFolderSyncStatus f
          b.uidValidity b.messages.length (b.nextModseq m)) db')
  | blank (hv : v = 0 ∨ b.uidValidity = v) (hn : ¬Matches b m (db.uids f).card)
      (hs : weather.fails (.folderStatusExtended f) = none) (hfull : ReachesFull weather b f m)
      (hC : db.uids f = ∅)
      (h : Db.SameRows f
        (db.updateFolderSyncStatus f b.uidValidity b.messages.length b.reportedModseq) db')
  | full (hv : v = 0 ∨ b.uidValidity = v) (hn : ¬Matches b m (db.uids f).card)
      (hs : weather.fails (.folderStatusExtended f) = none) (hfull : ReachesFull weather b f m)
      (hC : (db.uids f).Nonempty) (hok : weather.fails (.fetchUidsAndFlags f) = none)
      (h : Db.SameRows f
        (storeHeaders f (newHeaders weather b f (db.maxUid f + 1))
          ((reconcile f (db.getAllUidsAndFlags f) (imapMapOf b) db).2.updateFolderSyncStatus f
            b.uidValidity b.messages.length b.reportedModseq)) db')

section Ends

variable {weather : Weather} {w : World} {f : String} {v m : Nat}

private theorem exec_syncFull_pass (hw : Steady weather) (hv : v = 0 ∨ (w.server f).uidValidity = v)
    (hn : ¬Matches (w.server f) m (w.db.uids f).card)
    (hs : weather.fails (.folderStatusExtended f) = none)
    (hfull : ReachesFull weather (w.server f) f m) (hb : ∀ u ∈ w.db.uids f, u + 1 < 2 ^ 32) :
    (Task.exec weather (syncFull f (w.server f).statusExtended) w).2.server = w.server ∧
      Pass weather (w.server f) f v m w.db
        (Task.exec weather (syncFull f (w.server f).statusExtended) w).2.db := by
  rcases Finset.eq_empty_or_nonempty (w.db.uids f) with hC | hC
  · rw [exec_syncFull_of_empty hC]
    exact ⟨rfl,.blank hv hn hs hfull hC (Db.SameRows.refl _ _)⟩
  · cases hok : weather.fails (.fetchUidsAndFlags f) with
    | some e =>
      rw [exec_syncFull_of_error hw hC _ hok]
      exact ⟨rfl,.kept (Db.SameRows.refl _ _)⟩
    | none =>
      have hmax := @maxUid_succ_lt f w.db _ (Finset.Subset.refl _) hb
      obtain ⟨hsrv,hr⟩ := exec_syncFull hw hC hmax (w.server f).statusExtended hok
      exact ⟨hsrv,.full hv hn hs hfull hC hok hr⟩

/-- A folder's pass in steady weather leaves one of these. -/
theorem exec_syncFolder_pass (hw : Steady weather) (hb : ∀ u ∈ w.db.uids f, u + 1 < 2 ^ 32) :
    (Task.exec weather (syncFolder ⟨f,v,m⟩) w).2.server = w.server ∧
      Pass weather (w.server f) f v m w.db (Task.exec weather (syncFolder ⟨f,v,m⟩) w).2.db := by
  cases hs : weather.fails (.folderStatusExtended f) with
  | some e =>
    rw [exec_syncFolder_of_error hw hs]
    exact ⟨rfl,.kept (Db.SameRows.refl _ _)⟩
  | none =>
    by_cases hstale : v ≠ 0 ∧ (w.server f).uidValidity ≠ v
    · obtain ⟨hsrv,hr⟩ := exec_syncFolder_of_stale (m := m) hw hstale.1 hstale.2 hs
      exact ⟨hsrv,.kept hr⟩
    have hv : v = 0 ∨ (w.server f).uidValidity = v := by
      by_contra hn
      rw [not_or] at hn
      exact hstale hn
    rw [exec_syncFolder hw hv hs,Db.countMessages_eq_card]
    by_cases hn : Matches (w.server f) m (w.db.uids f).card
    · rw [if_pos hn]
      exact ⟨rfl,.kept (Db.SameRows.refl _ _)⟩
    rw [if_neg hn]
    by_cases hc : 0 < (w.server f).reportedModseq ∧ 0 < m
    · rw [if_pos hc]
      cases hok : weather.fails (.fetchChangedFlags f m (w.server f).uidValidity) with
      | some e =>
        rw [exec_syncCondstore_of_error hw m (w.server f).statusExtended hok]
        refine exec_syncFull_pass hw hv hn hs (fun h => ?_) hb
        rw [hok] at h
        exact Option.some_ne_none e h.2.2
      | none =>
        have hsub : (beforeFetch weather (w.server f) f ((w.server f).changedFlags m
            (w.server f).uidValidity) w.db).uids f ⊆ w.db.uids f := by
          rw [uids_beforeFetch hc.2]
          exact kept_subset _ _ _
        have hmax := maxUid_succ_lt hsub hb
        obtain ⟨hsrv,hr⟩ := exec_syncCondstore hw m hok hmax
        exact ⟨hsrv,.condstore hv hn hs hc.1 hc.2 hok _ rfl hr⟩
    · rw [if_neg hc]
      exact exec_syncFull_pass hw hv hn hs (fun h => hc ⟨h.1,h.2.1⟩) hb

/-- On a folder with a row, a cycle in steady weather leaves what a pass can leave, up to
bodies. -/
theorem exec_runSync_pass (hw : Steady weather) (hc : w.db.checkpoint f = some (v,m))
    (hb : ∀ u ∈ w.db.uids f, u + 1 < 2 ^ 32) :
    ∃ db db', Db.SameFolder f w.db db ∧ Pass weather (w.server f) f v m db db' ∧
      (Task.exec weather runSync w).2.server = w.server ∧
      Db.SameHeaders f db' (Task.exec weather runSync w).2.db := by
  obtain ⟨w₁,hs,hdb,hs',hh⟩ := exec_runSync (f := f) hw hc
  have hb₁ : ∀ u ∈ w₁.db.uids f, u + 1 < 2 ^ 32 := by rwa [hdb.sameRows.uids]
  obtain ⟨-,hp⟩ := exec_syncFolder_pass (v := v) (m := m) hw hb₁
  rw [hs] at hp
  exact ⟨w₁.db,_,hdb,hp,hs',hh⟩

end Ends

/-! ### What a cache has absorbed -/

/-- The cached rows hold the flags of the messages unchanged since `k`. -/
def FlagsAgree (b : Mailbox) (f : String) (db : Db) (k : Nat) : Prop :=
  ∀ msg ∈ b.messages, msg.modseq ≤ k → ∀ r, db.message? f msg.uid = some r →
    flagSet r.flags = flagSet (flagsCsv msg.header.flags)

instance (b : Mailbox) (f : String) (db : Db) (k : Nat) : Decidable (FlagsAgree b f db k) :=
  decidable_of_iff (∀ msg ∈ b.messages, msg.modseq ≤ k →
    (db.message? f msg.uid).all (fun r => flagSet r.flags = flagSet (flagsCsv msg.header.flags)) = true)
    (by simp only [FlagsAgree,Option.all_eq_true,decide_eq_true_eq])

/-- Everything the mailbox did up to the modification sequence `k` is in the cache. -/
structure Absorbed (b : Mailbox) (f : String) (db : Db) (k : Nat) : Prop where
  delivered : ∀ msg ∈ b.messages, msg.born ≤ k → msg.uid ∈ db.uids f
  flags : FlagsAgree b f db k
  removed : ∀ e ∈ b.expunged, e.2 ≤ k → e.1 ∉ db.uids f

variable {weather : Weather} {b b' : Mailbox} {f : String} {db db' : Db} {k m v : Nat}

/-! ### Flags -/

theorem FlagsAgree.of_rows (h : FlagsAgree b f db k)
    (hr : ∀ u r, db'.message? f u = some r → ∃ s, db.message? f u = some s ∧ s.flags = r.flags) :
    FlagsAgree b f db' k := by
  intro msg hmsg hk r hmr
  obtain ⟨s,hs,hflags⟩ := hr _ r hmr
  rw [← hflags]
  exact h msg hmsg hk s hs

theorem FlagsAgree.of_sameRows (h : FlagsAgree b f db k) (hs : Db.SameRows f db db') :
    FlagsAgree b f db' k :=
  h.of_rows (fun u r hr => ⟨r,(hs.2 u).symm.trans hr,rfl⟩)

theorem FlagsAgree.of_sameHeaders (h : FlagsAgree b f db k) (hs : Db.SameHeaders f db db') :
    FlagsAgree b f db' k := by
  refine h.of_rows (fun u r hr => ?_)
  obtain ⟨s,hs,he⟩ := hs.exists_row hr
  exact ⟨s,hs,CachedMessage.flags_of_headerOnly he⟩

/-- Applying what changed since `m` brings all flags up to date. -/
theorem flagsAgree_applyChanged (hm : 0 < m) (h : FlagsAgree b f db m) :
    FlagsAgree b f (applyChanged f (b.changedFlags m b.uidValidity).changed db) k := by
  intro msg hmsg _ r hr
  rcases @message?_applyChanged db f (b.changedFlags m b.uidValidity).changed msg.uid
    with ⟨p,hp,hpu,hrow⟩ | ⟨hn,hrow⟩
  · obtain ⟨n,hn,-,rfl⟩ := (Mailbox.mem_changed hm).mp hp
    obtain rfl := Mailbox.eq_of_uid hn hmsg hpu
    rw [hrow] at hr
    obtain ⟨s,-,rfl⟩ := Option.map_eq_some_iff.mp hr
    exact flagSet_sortedFlagsCsv n.header.flags
  · rw [hrow] at hr
    refine h msg hmsg ?_ r hr
    by_contra hlt
    exact hn _ ((Mailbox.mem_changed hm).mpr ⟨msg,hmsg,Nat.lt_of_not_le hlt,rfl⟩) rfl

theorem FlagsAgree.afterRemoval (h : FlagsAgree b f db k) (vanished : Option (List Nat)) :
    FlagsAgree b f (afterRemoval weather b f vanished db) k := by
  refine h.of_rows (fun u r hr => ⟨r,?_,rfl⟩)
  unfold Rav.afterRemoval at hr
  split at hr
  · rw [message?_deleteUids] at hr
    split at hr
    · simp at hr
    · exact hr
  · split at hr
    · rw [message?_removeGone] at hr
      split at hr
      · exact hr
      · simp at hr
    · exact hr

/-- Headers fetched from the mailbox carry its flags. -/
theorem FlagsAgree.storeHeaders (h : FlagsAgree b f db k) (hrow : (db.folder? f).isSome)
    {hs : List ImapMessageHeader} (hhs : ∀ h ∈ hs, ∃ msg ∈ b.messages, b.stamp msg = h) :
    FlagsAgree b f (storeHeaders f hs db) k := by
  intro msg hmsg hk r hr
  rcases message?_storeHeaders hrow hs msg.uid with ⟨h',hh,hu,hm⟩ | ⟨-,hm⟩
  · obtain ⟨n,hn,rfl⟩ := hhs h' hh
    obtain rfl := Mailbox.eq_of_uid hn hmsg hu
    rw [hm] at hr
    obtain rfl := Option.some.inj hr
    rfl
  · exact h msg hmsg hk r (hm ▸ hr)

/-- Reconciliation brings all flags up to date. -/
theorem flagsAgree_reconcile :
    FlagsAgree b f (reconcile f (db.getAllUidsAndFlags f) (imapMapOf b) db).2 k := by
  intro msg hmsg _ r hr
  rw [message?_reconcile,mapGet_imapMapOf_of_mem hmsg] at hr
  obtain ⟨s,-,hs⟩ := Option.bind_eq_some_iff.mp hr
  exact flagSet_reconciled hs

theorem newHeaders_stamps {n : Nat} :
    ∀ h ∈ newHeaders weather b f n, ∃ msg ∈ b.messages, b.stamp msg = h := by
  intro h hh
  obtain ⟨msg,hmsg,-,he⟩ := newHeaders_subset hh
  exact ⟨msg,hmsg,he⟩

/-! ### Folder rows -/

theorem folder?_beforeFetch (delta : ChangedFlags) :
    (beforeFetch weather b f delta db).folder? f = db.folder? f := by
  unfold beforeFetch Rav.afterRemoval
  split
  · rw [folder?_deleteUids,folder?_applyChanged]
  · split
    · rw [removeGone,folder?_deleteUids,folder?_applyChanged]
    · rw [folder?_applyChanged]

theorem folder?_isSome_of_checkpoint (hc : db.checkpoint f = some (v,m)) :
    (db.folder? f).isSome := by
  simpa [Db.checkpoint] using congrArg Option.isSome hc

/-! ### A pass -/

/-- A pass leaves rows and checkpoint alone or all flags up to date. -/
theorem Pass.flagsAgree (hp : Pass weather b f v m db db') (hc : db.checkpoint f = some (v,m))
    (h : 0 < m → FlagsAgree b f db m) : Db.SameRows f db db' ∨ ∀ k, FlagsAgree b f db' k := by
  have hrow := folder?_isSome_of_checkpoint hc
  cases hp with
  | kept h => exact Or.inl h
  | condstore hv hn hs hM hm hok db1 hdb1 hr =>
    refine Or.inr (fun k => FlagsAgree.of_sameRows ?_ hr)
    have h1 : FlagsAgree b f db1 k := by
      rw [hdb1]
      exact (flagsAgree_applyChanged hm (h hm)).afterRemoval _
    exact h1.storeHeaders (by rw [hdb1,folder?_beforeFetch]; exact hrow) newHeaders_stamps
  | blank hv hn hs hfull hC hr =>
    refine Or.inr (fun k => FlagsAgree.of_sameRows (fun msg hmsg _ r hmr => ?_) hr)
    have := Db.mem_uids.mpr ⟨r,hmr⟩
    simp [hC] at this
  | full hv hn hs hfull hC hok hr =>
    refine Or.inr (fun k => FlagsAgree.of_sameRows ?_ hr)
    have h1 : FlagsAgree b f ((reconcile f (db.getAllUidsAndFlags f) (imapMapOf b)
        db).2.updateFolderSyncStatus f b.uidValidity b.messages.length b.reportedModseq) k :=
      flagsAgree_reconcile
    refine h1.storeHeaders ?_ newHeaders_stamps
    rw [Db.updateFolderSyncStatus,Db.folder?_updateFolder,folder?_reconcile]
    simpa using hrow

/-- The header fetches of the folder succeed. -/
def HeadersServed (weather : Weather) (f : String) : Prop :=
  ∀ n, weather.fails (.fetchHeaders f (.fromOn n)) = none

/-- Topping up above `K` gets all the mailbox has: no gap, and no failure where something is to
be fetched. -/
def Reaches (weather : Weather) (b : Mailbox) (f : String) (K : Finset Nat) : Prop :=
  GapFree K b.uids ∧ (above K b.uids = ∅ ∨ HeadersServed weather f)

theorem Reaches.mem (h : Reaches weather b f (db.uids f)) : ∀ u ∈ b.uids, u ∈ db.uids f ∨
    u ∈ ((newHeaders weather b f (db.maxUid f + 1)).map ImapMessageHeader.uid).toFinset := by
  intro u hu
  by_cases hc : u ∈ db.uids f
  · exact Or.inl hc
  · have hab : u ∈ above (db.uids f) b.uids := mem_above.mpr ⟨hu,h.1 u hu hc⟩
    rcases h.2 with hnil | hok
    · rw [hnil] at hab
      simp at hab
    · exact Or.inr (by rwa [uids_newHeaders (hok _)])

/-- With the fetched headers stored, the cache has everything delivered. -/
theorem absorbed_storeHeaders {n : Nat} (hrow : (db.folder? f).isSome)
    (hall : ∀ u ∈ b.uids, u ∈ db.uids f ∨
      u ∈ ((newHeaders weather b f n).map ImapMessageHeader.uid).toFinset)
    (hgone : ∀ e ∈ b.expunged, e.2 ≤ k → e.1 ∉ db.uids f) (hflags : FlagsAgree b f db k) :
    Absorbed b f (storeHeaders f (newHeaders weather b f n) db) k := by
  have huids := uids_storeHeaders hrow (newHeaders weather b f n)
  refine ⟨fun msg hmsg _ => ?_,hflags.storeHeaders hrow newHeaders_stamps,fun e he hk hmem => ?_⟩
  · rw [huids,Finset.mem_union]
    exact hall _ (Mailbox.mem_uids.mpr ⟨msg,hmsg,rfl⟩)
  · rw [huids,Finset.mem_union] at hmem
    rcases hmem with hmem | hmem
    · exact hgone e he hk hmem
    · obtain ⟨h',hh,hu⟩ := List.mem_map.mp (List.mem_toFinset.mp hmem)
      obtain ⟨msg,hmsg,rfl⟩ := newHeaders_stamps h' hh
      exact b.expunged_gone e he msg hmsg hu

theorem Absorbed.of_rows (h : Absorbed b f db k) (hu : db'.uids f = db.uids f)
    (hf : FlagsAgree b f db' k) : Absorbed b f db' k :=
  ⟨fun msg hmsg hk => by rw [hu]; exact h.delivered msg hmsg hk,hf,
    fun e he hk => by rw [hu]; exact h.removed e he hk⟩

theorem Absorbed.of_sameRows (h : Absorbed b f db k) (hs : Db.SameRows f db db') :
    Absorbed b f db' k := h.of_rows hs.uids (h.flags.of_sameRows hs)

theorem Absorbed.of_sameHeaders (h : Absorbed b f db k) (hs : Db.SameHeaders f db db') :
    Absorbed b f db' k := h.of_rows hs.uids (h.flags.of_sameHeaders hs)

/-- The condition under which a pass over a cache `C` absorbs what it writes down. -/
def Absorbs (weather : Weather) (b : Mailbox) (f : String) (C : Finset Nat) (m : Nat) : Prop :=
  if 0 < m ∧ weather.fails (.fetchChangedFlags f m b.uidValidity) = none then
    Reaches weather b f (b.kept (weather.fails (.fetchUidsAndFlags f)).isNone C m) ∧
      ∀ e ∈ b.expunged, e.2 ≤ b.answered m →
        e.1 ∉ b.kept (weather.fails (.fetchUidsAndFlags f)).isNone C m
  else if C = ∅ then b.uids = ∅
  else weather.fails (.fetchUidsAndFlags f) = none → Reaches weather b f C

/-- Under that condition a pass leaves rows and checkpoint alone or writes down the mailbox's
UIDVALIDITY and what the cache has absorbed. -/
theorem Pass.absorbed (hp : Pass weather b f v m db db') (hc : db.checkpoint f = some (v,m))
    (h : b.Current v → 0 < m → FlagsAgree b f db m)
    (hg : b.Current v → ¬Matches b m (db.uids f).card →
      weather.fails (.folderStatusExtended f) = none → 0 < b.reportedModseq →
      Absorbs weather b f (db.uids f) m) :
    Db.SameRows f db db' ∨ ∃ m', db'.checkpoint f = some (b.uidValidity,m') ∧
      (0 < m' → m' ≤ b.highestModseq ∧ Absorbed b f db' m') := by
  have hrow := folder?_isSome_of_checkpoint hc
  cases hp with
  | kept h => exact Or.inl h
  | condstore hv hn hs hM hm hok db1 hdb1 hr =>
    have hrow1 : (db1.folder? f).isSome := by rwa [hdb1,folder?_beforeFetch]
    have hK : db1.uids f = b.kept (weather.fails (.fetchUidsAndFlags f)).isNone (db.uids f) m := by
      rw [hdb1,uids_beforeFetch hm]
    have habs := hg hv hn hs hM
    rw [Absorbs,if_pos ⟨hm,hok⟩,← hK,← Mailbox.nextModseq_eq hm] at habs
    have hflags : FlagsAgree b f db1 (b.nextModseq m) := by
      rw [hdb1]
      exact (flagsAgree_applyChanged hm (h hv hm)).afterRemoval _
    refine Or.inr ⟨b.nextModseq m,?_,fun _ => ⟨Mailbox.nextModseq_le hm,?_⟩⟩
    · rw [hr.1,Db.checkpoint_updateFolderSyncStatus,
        Db.checkpoint_congr (fun g => folder?_storeHeaders _),Db.checkpoint,hdb1,folder?_beforeFetch,
        ← Db.checkpoint,hc]
      simp
    · have hst := absorbed_storeHeaders hrow1 habs.1.mem habs.2 hflags
      have hup := @Absorbed.of_rows _ _ _ ((storeHeaders f _ db1).updateFolderSyncStatus f
        b.uidValidity b.messages.length (b.nextModseq m)) _ hst rfl hst.flags
      exact hup.of_sameRows hr
  | blank hv hn hs hfull hC hr =>
    refine Or.inr ⟨b.reportedModseq,?_,fun hM => ⟨Mailbox.reportedModseq_le,?_⟩⟩
    · rw [hr.1,Db.checkpoint_updateFolderSyncStatus,hc]
      simp
    · have habs := hg hv hn hs hM
      rw [Absorbs,if_neg (fun hc => hfull ⟨hM,hc⟩),if_pos hC] at habs
      have hu : db'.uids f = ∅ := hr.uids.trans hC
      refine ⟨fun msg hmsg _ => ?_,fun msg hmsg _ => ?_,fun e _ _ => ?_⟩
      · have := Mailbox.mem_uids.mpr ⟨msg,hmsg,rfl⟩
        simp [habs] at this
      · have := Mailbox.mem_uids.mpr ⟨msg,hmsg,rfl⟩
        simp [habs] at this
      · simp [hu]
  | full hv hn hs hfull hC hok hr =>
    have hrow1 : (((reconcile f (db.getAllUidsAndFlags f) (imapMapOf b) db).2.updateFolderSyncStatus f
        b.uidValidity b.messages.length b.reportedModseq).folder? f).isSome := by
      rw [Db.updateFolderSyncStatus,Db.folder?_updateFolder,folder?_reconcile]
      simpa using hrow
    refine Or.inr ⟨b.reportedModseq,?_,fun hM => ⟨Mailbox.reportedModseq_le,?_⟩⟩
    · rw [hr.1,Db.checkpoint_congr (fun g => folder?_storeHeaders _),
        Db.checkpoint_updateFolderSyncStatus,Db.checkpoint_congr (fun g => folder?_reconcile _ _),hc]
      simp
    · have habs := hg hv hn hs hM
      rw [Absorbs,if_neg (fun hc => hfull ⟨hM,hc⟩),if_neg hC.ne_empty] at habs
      refine Absorbed.of_sameRows (absorbed_storeHeaders hrow1 ?_ ?_ flagsAgree_reconcile) hr
      · intro u hu
        rw [Db.uids_updateFolderSyncStatus,uids_reconcile,Finset.mem_inter]
        exact ((habs hok).mem u hu).imp (fun hc => ⟨hc,hu⟩) id
      · intro e he _ hmem
        rw [Db.uids_updateFolderSyncStatus,uids_reconcile,Finset.mem_inter] at hmem
        obtain ⟨msg,hmsg,hu⟩ := Mailbox.mem_uids.mp hmem.2
        exact b.expunged_gone e he msg hmsg hu

/-- A pass caches nothing but what was cached and what the mailbox has. -/
theorem Pass.uids_subset (hp : Pass weather b f v m db db') (hc : db.checkpoint f = some (v,m)) :
    db'.uids f ⊆ db.uids f ∪ b.uids := by
  have hrow := folder?_isSome_of_checkpoint hc
  have hnew : ∀ n, ((newHeaders weather b f n).map ImapMessageHeader.uid).toFinset ⊆ b.uids := by
    intro n u hu
    obtain ⟨h',hh,rfl⟩ := List.mem_map.mp (List.mem_toFinset.mp hu)
    obtain ⟨msg,hmsg,rfl⟩ := newHeaders_stamps h' hh
    exact Mailbox.mem_uids.mpr ⟨msg,hmsg,rfl⟩
  cases hp with
  | kept h =>
    rw [h.uids]
    exact Finset.subset_union_left
  | condstore hv hn hs hM hm hok db1 hdb1 hr =>
    rw [hr.uids,Db.uids_updateFolderSyncStatus,
      uids_storeHeaders (by rwa [hdb1,folder?_beforeFetch]),hdb1,uids_beforeFetch hm]
    exact Finset.union_subset_union (kept_subset _ _ _) (hnew _)
  | blank hv hn hs hfull hC hr =>
    rw [hr.uids]
    exact Finset.subset_union_left
  | full hv hn hs hfull hC hok hr =>
    have hrow1 : (((reconcile f (db.getAllUidsAndFlags f) (imapMapOf b) db).2.updateFolderSyncStatus f
        b.uidValidity b.messages.length b.reportedModseq).folder? f).isSome := by
      rw [Db.updateFolderSyncStatus,Db.folder?_updateFolder,folder?_reconcile]
      simpa using hrow
    rw [hr.uids,uids_storeHeaders hrow1,Db.uids_updateFolderSyncStatus,uids_reconcile]
    exact Finset.union_subset_union Finset.inter_subset_left (hnew _)

/-! ### The server moves on -/

theorem FlagsAgree.later (h : FlagsAgree b f db k) (hk : k ≤ b.highestModseq) (hl : b.Later b') :
    FlagsAgree b' f db k :=
  fun msg hmsg hm => h msg (hl.messages msg hmsg (Nat.le_trans hm hk)) hm

/-- Later changes leave what has been absorbed absorbed. -/
theorem Absorbed.later (h : Absorbed b f db k) (hk : k ≤ b.highestModseq) (hl : b.Later b') :
    Absorbed b' f db k := by
  refine ⟨fun msg hmsg hborn => ?_,h.flags.later hk hl,fun e he hke => ?_⟩
  · obtain ⟨n,hn,hu,hb⟩ := hl.delivered msg hmsg (Nat.le_trans hborn hk)
    rw [← hu]
    exact h.delivered n hn (hb ▸ hborn)
  · exact h.removed e (hl.expunged e he (Nat.le_trans hke hk)) hke

end Rav
