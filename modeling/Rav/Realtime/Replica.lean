import Rav.Realtime.Cycle
import Rav.Imap.Changed
import Rav.Watermark

/-!
# A folder's cache as a replica of its mailbox

What matters for convergence of a folder's cache is the set of its UIDs and its checkpoint. On
these a successful cycle against a quiet server is a function, `Mailbox.syncReplica`: it tops
the replica up with what the mailbox has above it, after dropping what it learns is gone.

## Main definitions

- `Replica` — cached UIDs, stored UIDVALIDITY and HIGHESTMODSEQ
- `Mailbox.kept` — the UIDs the CONDSTORE path keeps
- `Mailbox.syncReplica` — one cycle
- `World.Holds` — a world whose cache of a folder is the given replica
-/

namespace Rav

/-- A folder's cache as far as convergence goes. -/
structure Replica where
  uids : Finset Nat
  uidValidity : Nat
  modseq : Nat
  deriving DecidableEq

namespace Mailbox

variable (b : Mailbox)

/-- The cached UIDs the CONDSTORE path keeps: without a list of removals, it compares with the
server's UIDs where the server has fewer and lists them. -/
def kept (listed : Bool) (C : Finset Nat) (m : Nat) : Finset Nat :=
  if b.qresync then C \ b.reported m
  else if b.uids.card < C.card ∧ listed then C ∩ b.uids
  else C

/-- What is kept where every call succeeds. -/
abbrev survivors (C : Finset Nat) (m : Nat) : Finset Nat := b.kept true C m

/-- The modification sequence the CONDSTORE path stores. -/
def nextModseq (m : Nat) : Nat := finalModseq (b.changedFlags m b.uidValidity) b.statusExtended

/-- The stored UIDVALIDITY is none or the mailbox's. -/
def Current (v : Nat) : Prop := v = 0 ∨ b.uidValidity = v

instance : Decidable (b.Current v) := by unfold Current; infer_instance

variable {b} in
theorem current_self : b.Current b.uidValidity := Or.inr rfl

/-- One successful cycle against the quiet mailbox. -/
def syncReplica (r : Replica) : Replica :=
  if r.uidValidity ≠ 0 ∧ b.uidValidity ≠ r.uidValidity then r
  else if Matches b r.modseq r.uids.card then r
  else if 0 < b.reportedModseq ∧ 0 < r.modseq then
    ⟨fill (b.survivors r.uids r.modseq) b.uids,b.uidValidity,b.nextModseq r.modseq⟩
  else if r.uids = ∅ then ⟨∅,b.uidValidity,b.reportedModseq⟩
  else ⟨(r.uids ∩ b.uids) ∪ above r.uids b.uids,b.uidValidity,b.reportedModseq⟩

end Mailbox

namespace Mailbox

variable {b : Mailbox} {m : Nat}

theorem nextModseq_of_qresync (hq : b.qresync = true) (hm : 0 < m) :
    b.nextModseq m = if 0 < b.topModseq m then b.topModseq m else b.reportedModseq := by
  rw [nextModseq,changedFlags_of_qresync hq hm]
  rfl

theorem nextModseq_of_condstore (hq : b.qresync = false) : b.nextModseq m = b.reportedModseq := by
  rw [nextModseq,changedFlags_of_condstore hq]
  exact ite_self _

/-- The modification sequence the server's answer reaches: with QRESYNC that of the last changed
message, if there is one. -/
def answered (b : Mailbox) (m : Nat) : Nat :=
  if b.qresync ∧ 0 < b.topModseq m then b.topModseq m else b.reportedModseq

theorem nextModseq_eq (hm : 0 < m) : b.nextModseq m = b.answered m := by
  unfold answered
  cases hq : b.qresync with
  | false => simp [nextModseq_of_condstore hq]
  | true => simp [nextModseq_of_qresync hq hm]

theorem nextModseq_le (hm : 0 < m) : b.nextModseq m ≤ b.highestModseq := by
  have hrep := b.reportedModseq_le
  cases hq : b.qresync with
  | false => rwa [nextModseq_of_condstore hq]
  | true =>
    rw [nextModseq_of_qresync hq hm]
    rcases topModseq_spec (b := b) (m := m) with ⟨h0,-⟩ | ⟨-,hle,-⟩ <;> split <;> omega

end Mailbox

/-- The world's cache of `f` is the replica `r`. -/
def World.Holds (w : World) (f : String) (r : Replica) : Prop :=
  w.db.checkpoint f = some (r.uidValidity,r.modseq) ∧ w.db.uids f = r.uids

variable {w : World} {f : String} {weather : Weather} {b : Mailbox} {db : Db}

/-- The headers fetched beyond the watermark are those of the UIDs above the cache. -/
theorem uids_newHeaders
    (hok : weather.fails (.fetchHeaders f (.fromOn (db.maxUid f + 1))) = none) :
    ((newHeaders weather b f (db.maxUid f + 1)).map ImapMessageHeader.uid).toFinset =
      above (db.uids f) b.uids := by
  ext u
  rw [List.mem_toFinset,List.mem_map,mem_above]
  have hlt : db.maxUid f + 1 ≤ u ∧ u ∈ b.uids ↔ u ∈ b.uids ∧ ∀ k ∈ db.uids f, k < u := by
    constructor
    · rintro ⟨hle,hu⟩
      exact ⟨hu,fun k hk => Nat.lt_of_le_of_lt (Db.le_maxUid hk) hle⟩
    · rintro ⟨hu,hk⟩
      refine ⟨?_,hu⟩
      by_cases hne : (db.uids f).Nonempty
      · exact hk _ (Db.maxUid_mem hne)
      · rw [Db.maxUid_of_empty (Finset.not_nonempty_iff_eq_empty.mp hne)]
        exact Mailbox.pos_of_mem_uids hu
  rw [← hlt]
  constructor
  · rintro ⟨h,hh,rfl⟩
    obtain ⟨m,hm,hle,rfl⟩ := (newHeaders_of_ok hok).mp hh
    exact ⟨hle,Mailbox.mem_uids.mpr ⟨m,hm,rfl⟩⟩
  · rintro ⟨hle,hu⟩
    obtain ⟨m,hm,rfl⟩ := Mailbox.mem_uids.mp hu
    exact ⟨b.stamp m,(newHeaders_of_ok hok).mpr ⟨m,hm,hle,rfl⟩,rfl⟩

theorem mapGet_imapMapOf (u : Nat) :
    (mapGet (imapMapOf b) u).isSome ↔ u ∈ b.uids := by
  rw [mapGet,Option.isSome_map,List.find?_isSome]
  simp only [List.mem_reverse,decide_eq_true_eq,Mailbox.mem_uids]
  constructor
  · rintro ⟨p,hp,rfl⟩
    obtain ⟨m,hm,rfl⟩ := mem_imapMapOf.mp hp
    exact ⟨m,hm,rfl⟩
  · rintro ⟨m,hm,rfl⟩
    exact ⟨_,mem_imapMapOf.mpr ⟨m,hm,rfl⟩,rfl⟩

theorem mapGet_imapMapOf_of_mem {m : Message} (hm : m ∈ b.messages) :
    mapGet (imapMapOf b) m.uid = some (sortedFlagsCsv m.header.flags) := by
  obtain ⟨csv,hcsv⟩ := Option.isSome_iff_exists.mp
    ((mapGet_imapMapOf m.uid).mpr (Mailbox.mem_uids.mpr ⟨m,hm,rfl⟩))
  obtain ⟨p,hp,rfl⟩ := Option.map_eq_some_iff.mp hcsv
  have hp1 : p.1 = m.uid := by simpa using List.find?_some hp
  obtain ⟨n,hn,rfl⟩ := mem_imapMapOf.mp (List.mem_reverse.mp (List.mem_of_find?_eq_some hp))
  rw [hcsv,Mailbox.eq_of_uid hn hm hp1]

theorem uids_reconcile :
    (reconcile f (db.getAllUidsAndFlags f) (imapMapOf b) db).2.uids f = db.uids f ∩ b.uids := by
  ext u
  rw [Db.mem_uids_iff_isSome,message?_reconcile,Finset.mem_inter,Db.mem_uids_iff_isSome,
    ← mapGet_imapMapOf]
  cases db.message? f u with
  | none => simp
  | some r => cases mapGet (imapMapOf b) u <;> simp [reconciled]

theorem uids_beforeFetch {m : Nat} (hm : 0 < m) :
    (beforeFetch weather b f (b.changedFlags m b.uidValidity) db).uids f =
      b.kept (weather.fails (.fetchUidsAndFlags f)).isNone (db.uids f) m := by
  have hcount : (applyChanged f (b.changedFlags m b.uidValidity).changed db).countMessages f =
      (db.uids f).card := by
    rw [Db.countMessages_eq_card,uids_applyChanged]
  unfold beforeFetch afterRemoval Mailbox.kept
  cases hq : b.qresync with
  | true =>
    have hv : (b.changedFlags m b.uidValidity).vanished = some (b.vanishedUids m) := by
      rw [Mailbox.changedFlags_of_qresync hq hm]
    simp only [hv,uids_deleteUids,uids_applyChanged,Mailbox.reported,hq,if_true]
  | false =>
    have hv : (b.changedFlags m b.uidValidity).vanished = none := by
      rw [Mailbox.changedFlags_of_condstore hq]
    simp only [hv,hcount,← Mailbox.card_uids,Bool.false_eq_true,if_false,Option.isNone_iff_eq_none]
    split
    · rw [uids_removeGone,uids_applyChanged]
      congr 1
      simp [Mailbox.uidsAndFlags,Mailbox.uids,Function.comp_def]
    · rw [uids_applyChanged]

theorem kept_subset (listed : Bool) (C : Finset Nat) (m : Nat) : b.kept listed C m ⊆ C := by
  unfold Mailbox.kept
  split
  · exact Finset.sdiff_subset
  · split
    · exact Finset.inter_subset_left
    · exact Finset.Subset.refl C

theorem maxUid_succ_lt {C : Finset Nat} (hC : db.uids f ⊆ C) (hb : ∀ u ∈ C, u + 1 < 2 ^ 32) :
    db.maxUid f + 1 < 2 ^ 32 := by
  by_cases hne : (db.uids f).Nonempty
  · exact hb _ (hC (Db.maxUid_mem hne))
  · rw [Db.maxUid_of_empty (Finset.not_nonempty_iff_eq_empty.mp hne)]
    decide

/-- A folder's pass acts on the replica as `syncReplica`. -/
theorem exec_syncFolder_holds {r : Replica} (h : w.Holds f r) (hb : ∀ u ∈ r.uids, u + 1 < 2 ^ 32) :
    (Task.exec calm (syncFolder ⟨f,r.uidValidity,r.modseq⟩) w).2.server = w.server ∧
      (Task.exec calm (syncFolder ⟨f,r.uidValidity,r.modseq⟩) w).2.Holds f
        ((w.server f).syncReplica r) := by
  obtain ⟨hc,hu⟩ := h
  have hrow : (w.db.folder? f).isSome := by
    simpa [Db.checkpoint] using congrArg Option.isSome hc
  unfold Mailbox.syncReplica
  by_cases hstale : r.uidValidity ≠ 0 ∧ (w.server f).uidValidity ≠ r.uidValidity
  · rw [if_pos hstale]
    obtain ⟨hs,hr⟩ := exec_syncFolder_of_stale (m := r.modseq) steady_calm hstale.1 hstale.2 rfl
    exact ⟨hs,hr.1.trans hc,hr.uids.trans hu⟩
  rw [if_neg hstale]
  have hv : r.uidValidity = 0 ∨ (w.server f).uidValidity = r.uidValidity := by
    by_contra hn
    rw [not_or] at hn
    exact hstale hn
  rw [exec_syncFolder steady_calm hv rfl,Db.countMessages_eq_card,hu]
  by_cases hmatch : Matches (w.server f) r.modseq r.uids.card
  · rw [if_pos hmatch,if_pos hmatch]
    exact ⟨rfl,hc,hu⟩
  rw [if_neg hmatch,if_neg hmatch]
  by_cases hcond : 0 < (w.server f).reportedModseq ∧ 0 < r.modseq
  · rw [if_pos hcond,if_pos hcond]
    have hbu := @uids_beforeFetch f calm (w.server f) w.db _ hcond.2
    rw [hu] at hbu
    have hmax := maxUid_succ_lt (by rw [hbu]; exact kept_subset _ _ _) hb
    obtain ⟨hs,hr⟩ := exec_syncCondstore (w := w) (f := f) steady_calm r.modseq rfl hmax
    have hrow1 : ((beforeFetch calm (w.server f) f ((w.server f).changedFlags r.modseq
        (w.server f).uidValidity) w.db).folder? f) = w.db.folder? f := by
      unfold beforeFetch afterRemoval
      split
      · rw [folder?_deleteUids,folder?_applyChanged]
      · split
        · rw [removeGone,folder?_deleteUids,folder?_applyChanged]
        · rw [folder?_applyChanged]
    refine ⟨hs,?_,?_⟩
    · rw [hr.1,Db.checkpoint_updateFolderSyncStatus,
        Db.checkpoint_congr (fun g => folder?_storeHeaders _),Db.checkpoint,hrow1,← Db.checkpoint,hc]
      simp [Mailbox.nextModseq]
    · rw [hr.uids,Db.uids_updateFolderSyncStatus,uids_storeHeaders (by rw [hrow1]; exact hrow),
        uids_newHeaders rfl,hbu]
      rfl
  rw [if_neg hcond,if_neg hcond]
  by_cases hempty : r.uids = ∅
  · rw [if_pos hempty,exec_syncFull_of_empty (hu.trans hempty)]
    refine ⟨rfl,?_,?_⟩
    · simp [hc,Mailbox.statusExtended]
    · exact hu.trans hempty
  · rw [if_neg hempty]
    have hne : (w.db.uids f).Nonempty := by
      rw [hu]
      exact Finset.nonempty_iff_ne_empty.mpr hempty
    have hmax := @maxUid_succ_lt f w.db _ (by rw [hu]) hb
    obtain ⟨hs,hr⟩ := exec_syncFull steady_calm hne hmax (w.server f).statusExtended rfl
    have hrow1 : (((reconcile f (w.db.getAllUidsAndFlags f) (imapMapOf (w.server f)) w.db).2).folder? f) =
        w.db.folder? f := folder?_reconcile _ _
    have hc1 : ((reconcile f (w.db.getAllUidsAndFlags f) (imapMapOf (w.server f)) w.db).2).checkpoint f =
        some (r.uidValidity,r.modseq) := by rw [Db.checkpoint,hrow1,← Db.checkpoint,hc]
    have hrow2 : ((((reconcile f (w.db.getAllUidsAndFlags f) (imapMapOf (w.server f)) w.db).2).updateFolderSyncStatus
        f (w.server f).statusExtended.uidValidity (w.server f).statusExtended.exists_
        (w.server f).statusExtended.highestModseq).folder? f).isSome := by
      rw [Db.updateFolderSyncStatus,Db.folder?_updateFolder,hrow1]
      simpa using hrow
    refine ⟨hs,?_,?_⟩
    · rw [hr.1,Db.checkpoint_congr (fun g => folder?_storeHeaders _),
        Db.checkpoint_updateFolderSyncStatus,hc1]
      simp [Mailbox.statusExtended]
    · rw [hr.uids,uids_storeHeaders hrow2,uids_newHeaders rfl,Db.uids_updateFolderSyncStatus,
        uids_reconcile,hu]

/-- A successful cycle against a quiet server acts on each folder's replica as
`syncReplica`. -/
theorem exec_runSync_holds {r : Replica} (h : w.Holds f r) (hb : ∀ u ∈ r.uids, u + 1 < 2 ^ 32) :
    (Task.exec calm runSync w).2.server = w.server ∧
      (Task.exec calm runSync w).2.Holds f ((w.server f).syncReplica r) := by
  obtain ⟨w₁,hs,hdb,hs',hh⟩ := exec_runSync (f := f) steady_calm h.1
  have hw₁ : w₁.Holds f r := ⟨hdb.sameRows.1.trans h.1,hdb.sameRows.uids.trans h.2⟩
  obtain ⟨-,hfin⟩ := exec_syncFolder_holds hw₁ hb
  refine ⟨hs',?_⟩
  rw [hs] at hfin
  exact ⟨hh.checkpoint.trans hfin.1,hh.uids.trans hfin.2⟩

end Rav
