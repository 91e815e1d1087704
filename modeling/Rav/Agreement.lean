import Rav.Convergence
import Rav.Realtime.Absorbed

/-!
# Agreement with CONDSTORE

With CONDSTORE but without QRESYNC a cycle learns of removals only by comparing counts. Two
cycles suffice: where the first cannot see a removal because deliveries made up for it, its
own top-up leaves the cache larger than the mailbox, and the second sees that.
-/

namespace Rav

namespace Mailbox

variable {b : Mailbox} {C : Finset Nat} {r : Replica} {v m : Nat}

/-- A CONDSTORE cycle leaves the present checkpoint. -/
theorem modseq_syncReplica (hq : b.qresync = false) (hv : b.Current r.uidValidity) :
    (b.syncReplica r).modseq = b.reportedModseq := by
  obtain ⟨C,v,m⟩ := r
  by_cases hmatch : Matches b m C.card
  · rw [syncReplica_of_matches hmatch]
    exact hmatch.2.2.1.symm
  by_cases hc : 0 < b.reportedModseq ∧ 0 < m
  · rw [syncReplica_condstore hv hmatch hc.1 hc.2]
    exact nextModseq_of_condstore hq
  · by_cases hC : C = ∅
    · rw [hC,syncReplica_empty hv hc]
    · rw [syncReplica_full hv hc hC]

theorem current_syncReplica (hv : b.Current r.uidValidity) :
    b.Current (b.syncReplica r).uidValidity := by
  unfold syncReplica
  repeat' split
  all_goals first | exact hv | exact current_self

/-- At the present checkpoint a replica that has everything loses exactly what is gone. -/
theorem uids_syncReplica_of_superset (hM : 0 < b.reportedModseq) (hq : b.qresync = false)
    (hC : b.uids ⊆ C) :
    (b.syncReplica ⟨C,b.uidValidity,b.reportedModseq⟩).uids = b.uids := by
  by_cases hmatch : Matches b b.reportedModseq C.card
  · rw [syncReplica_of_matches hmatch]
    exact (Finset.eq_of_subset_of_card_le hC (by rw [card_uids,hmatch.2.2.2])).symm
  · rw [syncReplica_condstore current_self hmatch hM hM]
    have hlt : b.uids.card < C.card := by
      refine Nat.lt_of_le_of_ne (Finset.card_le_card hC) (fun he => hmatch ⟨hM,hM,rfl,?_⟩)
      rw [← card_uids,he]
    have hs : b.survivors C b.reportedModseq = b.uids := by
      simp [kept,hq,hlt,Finset.inter_eq_right.mpr hC]
    rw [hs]
    exact Finset.union_eq_left.mpr above_subset

/-- At the present checkpoint a part of the mailbox without gaps is topped up to all of it. -/
theorem uids_syncReplica_of_subset (hM : 0 < b.reportedModseq) (hC : C ⊆ b.uids)
    (hgap : GapFree C b.uids) :
    (b.syncReplica ⟨C,b.uidValidity,b.reportedModseq⟩).uids = b.uids := by
  by_cases hmatch : Matches b b.reportedModseq C.card
  · rw [syncReplica_of_matches hmatch]
    exact Finset.eq_of_subset_of_card_le hC (by rw [card_uids,hmatch.2.2.2])
  · rw [syncReplica_condstore current_self hmatch hM hM,survivors_of_subset hC]
    exact fill_eq_iff.mpr ⟨hC,hgap⟩

/-- What a replica without gaps keeps and gets is all the mailbox has. -/
theorem subset_fill_survivors (hq : b.qresync = false) (hgap : GapFree C b.uids) :
    b.uids ⊆ fill (b.survivors C m) b.uids := by
  by_cases hlt : b.uids.card < C.card
  · have hs : b.survivors C m = C ∩ b.uids := by simp [kept,hq,hlt]
    rw [hs,← gapFree_iff]
    intro u hu hn k hk
    refine hgap u hu (fun hc => hn (Finset.mem_inter.mpr ⟨hc,hu⟩)) k ?_
    exact (Finset.mem_inter.mp hk).1
  · have hs : b.survivors C m = C := by simp [kept,hq,hlt]
    rw [hs]
    exact gapFree_iff.mp hgap

/-- Two cycles bring a replica without gaps to the mailbox's UIDs. -/
theorem uids_syncReplica_twice (hM : 0 < b.reportedModseq) (hq : b.qresync = false)
    (hv : b.Current v) (hgap : GapFree C b.uids) (hskip : Matches b m C.card → C = b.uids) :
    (b.syncReplica (b.syncReplica ⟨C,v,m⟩)).uids = b.uids := by
  by_cases hmatch : Matches b m C.card
  · have hfix : b.syncReplica ⟨C,v,m⟩ = ⟨C,v,m⟩ := syncReplica_of_matches hmatch
    rw [hfix,hfix]
    exact hskip hmatch
  by_cases hm : 0 < m
  · rw [syncReplica_condstore hv hmatch hM hm,nextModseq_of_condstore hq]
    exact uids_syncReplica_of_superset hM hq (subset_fill_survivors hq hgap)
  have hc : ¬(0 < b.reportedModseq ∧ 0 < m) := fun h => hm h.2
  by_cases hC : C = ∅
  · rw [hC,syncReplica_empty hv hc]
    exact uids_syncReplica_of_subset hM (Finset.empty_subset _) gapFree_empty
  · rw [syncReplica_full hv hc hC,union_above_eq rfl hgap]
    exact uids_syncReplica_of_superset hM hq (Finset.Subset.refl _)

end Mailbox

variable {w : World} {f : String} {b : Mailbox} {v m : Nat}

/-- A successful cycle leaves the flags up to date with the checkpoint it leaves. -/
theorem World.cycle_flagsAgree {r : Replica} (h : w.Holds f r) (hb : ∀ u ∈ r.uids, u + 1 < 2 ^ 32)
    (hflags : 0 < r.modseq → FlagsAgree (w.server f) f w.db r.modseq) :
    0 < ((w.server f).syncReplica r).modseq →
      FlagsAgree (w.server f) f w.cycle.db ((w.server f).syncReplica r).modseq := by
  have hb' : ∀ u ∈ w.db.uids f, u + 1 < 2 ^ 32 := by rwa [h.2]
  obtain ⟨db,db',hsame,hpass,-,hheaders⟩ := exec_runSync_pass steady_calm h.1 hb'
  obtain ⟨-,hholds⟩ := exec_runSync_holds h hb
  have hflags' : 0 < r.modseq → FlagsAgree (w.server f) f db r.modseq :=
    fun hm => (hflags hm).of_sameRows hsame.sameRows
  rcases hpass.flagsAgree (hsame.sameRows.1.trans h.1) hflags' with hrows | hall
  · have hc := hheaders.checkpoint.trans (hrows.1.trans (hsame.sameRows.1.trans h.1))
    have hm : ((w.server f).syncReplica r).modseq = r.modseq :=
      (Prod.mk.inj (Option.some.inj (hholds.1.symm.trans hc))).2
    rw [hm]
    exact fun hpos => ((hflags' hpos).of_sameRows hrows).of_sameHeaders hheaders
  · exact fun _ => (hall _).of_sameHeaders hheaders

/-- With CONDSTORE and without QRESYNC: from a cache that has all the mailbox's UIDs up to its
highest and flags up to its checkpoint, any batch of changes is absorbed by two cycles. The
cached UIDs are ones the mailbox has assigned and the checkpoint one it has reached; and if
the batch is empty and the first cycle sees nothing to do, there is nothing to do. -/
theorem two_cycles_agree {cs : List Change} (hc : w.db.checkpoint f = some (v,m))
    (hv : (w.server f).Current v) (hcond : (w.server f).condstore = true)
    (hq : (w.server f).qresync = false)
    (hfull : ∀ u ∈ (w.server f).uids, u ≤ w.db.maxUid f → u ∈ w.db.uids f)
    (hflags : FlagsAgree (w.server f) f w.db m)
    (hnext : ∀ u ∈ w.db.uids f, u < (w.server f).uidNext)
    (hm : m ≤ (w.server f).highestModseq)
    (hskip : cs = [] → Matches (w.server f) m (w.db.uids f).card →
      w.db.uids f = (w.server f).uids)
    (hbatch : (w.server f).applyAll cs = some b)
    (hsame : b.uidValidity = (w.server f).uidValidity) :
    let w' := World.cycle (World.cycle { w with server := Function.update w.server f b })
    w'.db.uids f = b.uids ∧
      ∀ msg ∈ b.messages, ∃ r, w'.db.message? f msg.uid = some r ∧
        flagSet r.flags = flagSet (flagsCsv msg.header.flags) ∧
        ((∀ flag ∈ msg.header.flags, ',' ∉ flag.toList) →
          flagSet r.flags = msg.header.flags.toFinset.erase "") := by
  intro w'
  obtain ⟨hl,hlt⟩ := Mailbox.applyAll_later hbatch hsame
  have hM : b.reportedModseq = b.highestModseq := if_pos (hl.condstore.trans hcond)
  have hM' : 0 < b.reportedModseq := hM ▸ b.modseq_pos
  have hq' : b.qresync = false := hl.qresync.trans hq
  have hv' : b.Current v := hv.imp id (fun h => hsame.trans h)
  have hgap : GapFree (w.db.uids f) b.uids := by
    intro u hu hn k hk
    rcases hl.uids u hu with hu | hu
    · refine Nat.lt_of_le_of_lt (Db.le_maxUid hk) (Nat.lt_of_not_le (fun hle => hn ?_))
      exact hfull u hu hle
    · exact Nat.lt_of_lt_of_le (hnext k hk) hu
  have hskip' : Matches b m (w.db.uids f).card → w.db.uids f = b.uids := by
    intro hmatch
    have hmb : m = b.highestModseq := hmatch.2.2.1.symm.trans hM
    have hnil : cs = [] := by
      by_contra hne
      have := hlt hne
      omega
    subst hnil
    obtain rfl := Option.some.inj hbatch
    exact hskip rfl hmatch
  have hbound : ∀ u ∈ w.db.uids f, u + 1 < 2 ^ 32 := by
    intro u hu
    have := hnext u hu
    have := (w.server f).uidNext_lt
    omega
  set w₀ : World := { w with server := Function.update w.server f b } with hw₀
  have hs₀ : w₀.server f = b := Function.update_self f b w.server
  have hh₀ : w₀.Holds f ⟨w.db.uids f,v,m⟩ := ⟨hc,rfl⟩
  obtain ⟨hs₁,hh₁⟩ := exec_runSync_holds hh₀ hbound
  have hbound₁ : ∀ u ∈ ((w₀.server f).syncReplica ⟨w.db.uids f,v,m⟩).uids, u + 1 < 2 ^ 32 := by
    intro u hu
    rcases Finset.mem_union.mp (Mailbox.uids_syncReplica_subset hu) with hu | hu
    · exact hbound u hu
    · have := Mailbox.lt_uidNext hu
      have := (w₀.server f).uidNext_lt
      omega
  obtain ⟨hs₂,hh₂⟩ := exec_runSync_holds hh₁ hbound₁
  have hflags₁ := World.cycle_flagsAgree hh₀ hbound
    (fun _ => by rw [hs₀]; exact hflags.later hm hl)
  have hflags₂ := World.cycle_flagsAgree hh₁ hbound₁ (by rw [hs₁]; exact hflags₁)
  rw [hs₁] at hflags₂ hh₂
  rw [hs₀] at hflags₂ hh₂
  have huids : w'.db.uids f = b.uids :=
    hh₂.2.trans (Mailbox.uids_syncReplica_twice hM' hq' hv' hgap hskip')
  refine ⟨huids,fun msg hmsg => ?_⟩
  have hmem : msg.uid ∈ w'.db.uids f := by
    rw [huids]
    exact Mailbox.mem_uids.mpr ⟨msg,hmsg,rfl⟩
  obtain ⟨r,hr⟩ := Db.mem_uids.mp hmem
  have hmod : (b.syncReplica (b.syncReplica ⟨w.db.uids f,v,m⟩)).modseq = b.reportedModseq :=
    Mailbox.modseq_syncReplica hq' (Mailbox.current_syncReplica hv')
  rw [hmod] at hflags₂
  have hset := hflags₂ hM' msg hmsg (hM ▸ (b.modseq_le msg hmsg).2) r hr
  exact ⟨r,hr,hset,fun hcomma => hset.trans (fields_joinSep_of_notMem hcomma)⟩

/-- Two messages cached and synchronised. -/
def syncedTwo : World := listedTwo.cycle

/-- One message removed, one delivered: the count does not change. -/
theorem two_cycles_agree_syncedTwo :
    ∃ b, (syncedTwo.server "INBOX").applyAll [.expunge 1,.deliver 0 plainHeader plainBody] = some b ∧
      (World.cycle (World.cycle
        { syncedTwo with server := Function.update syncedTwo.server "INBOX" b })).db.uids "INBOX" =
        b.uids := by
  obtain ⟨b,hb⟩ : ∃ b, (syncedTwo.server "INBOX").applyAll
      [.expunge 1,.deliver 0 plainHeader plainBody] = some b :=
    Option.isSome_iff_exists.mp (by decide)
  have hv : b.uidValidity = (syncedTwo.server "INBOX").uidValidity := by
    have := congrArg (Option.map Mailbox.uidValidity) hb
    exact (Option.some.inj this).symm
  exact ⟨b,hb,(two_cycles_agree (v := 1) (m := 3) (by decide) (by decide) rfl rfl (by decide)
    (by decide) (by decide) (by decide) (by simp) hb hv).1⟩

/-- A cache of UIDs 1 and 2 at the checkpoint of a mailbox of UIDs 1 and 3. -/
def miscounted : World :=
  let b := ((syncedTwo.server "INBOX").applyAll
    [.expunge 2,.deliver 0 plainHeader plainBody]).getD (syncedTwo.server "INBOX")
  { syncedTwo with
    server := Function.update syncedTwo.server "INBOX" b
    db := syncedTwo.db.updateFolderSyncStatus "INBOX" 1 2 b.highestModseq }

/-- Equal counts at an equal checkpoint hide a difference for good. -/
theorem equal_counts_hide :
    miscounted.db.checkpoint "INBOX" = some (1,5) ∧
      (miscounted.server "INBOX").uidValidity = 1 ∧
      (miscounted.server "INBOX").condstore = true ∧ (miscounted.server "INBOX").qresync = false ∧
      (∀ u ∈ (miscounted.server "INBOX").uids,
        u ≤ miscounted.db.maxUid "INBOX" → u ∈ miscounted.db.uids "INBOX") ∧
      FlagsAgree (miscounted.server "INBOX") "INBOX" miscounted.db 5 ∧
      (World.cycle (World.cycle miscounted)).db.uids "INBOX" ≠ (miscounted.server "INBOX").uids := by
  decide

end Rav
