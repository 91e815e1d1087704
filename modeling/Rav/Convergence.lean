import Rav.Account
import Rav.Realtime.Replica

/-!
# Convergence of a folder's cache

Against a quiet server the cycles of a folder come to rest after at most three. Where they
come to rest is decided by what they find: the full fetch and both CONDSTORE variants fetch
only UIDs above the cache, so whether a gap is ever closed depends on what lies above it.

## Main definitions

- `Mailbox.Converges` — from some cycle on, the replica holds the mailbox's UIDs
- `Mailbox.Completes` — the exact condition for it
-/

namespace Rav

namespace Mailbox

variable {b : Mailbox} {C D : Finset Nat} {r : Replica} {v m : Nat}

/-- From some cycle on, the replica's UIDs are the mailbox's. -/
def Converges (b : Mailbox) (r : Replica) : Prop :=
  Settles b.syncReplica (fun r' => r'.uids = b.uids) r

/-! ### One cycle -/

theorem syncReplica_of_stale (h : ¬Current b r.uidValidity) : b.syncReplica r = r := by
  rw [Current,not_or] at h
  exact if_pos h

private theorem not_stale (h : Current b v) : ¬(v ≠ 0 ∧ b.uidValidity ≠ v) :=
  fun hs => h.elim hs.1 hs.2

theorem syncReplica_of_matches (h : Matches b r.modseq r.uids.card) : b.syncReplica r = r := by
  unfold syncReplica
  rw [if_pos h,ite_self]

theorem syncReplica_condstore (hv : Current b v) (hn : ¬Matches b m C.card)
    (hM : 0 < b.reportedModseq) (hm : 0 < m) :
    b.syncReplica ⟨C,v,m⟩ = ⟨fill (b.survivors C m) b.uids,b.uidValidity,b.nextModseq m⟩ := by
  unfold syncReplica
  rw [if_neg (not_stale hv),if_neg hn,if_pos ⟨hM,hm⟩]

private theorem not_matches (h : ¬(0 < b.reportedModseq ∧ 0 < m)) {n : Nat} : ¬Matches b m n :=
  fun hM => h ⟨hM.1,hM.2.1⟩

theorem syncReplica_empty (hv : Current b v) (h : ¬(0 < b.reportedModseq ∧ 0 < m)) :
    b.syncReplica ⟨∅,v,m⟩ = ⟨∅,b.uidValidity,b.reportedModseq⟩ := by
  unfold syncReplica
  rw [if_neg (not_stale hv),if_neg (not_matches h),if_neg h,if_pos rfl]

theorem syncReplica_full (hv : Current b v) (h : ¬(0 < b.reportedModseq ∧ 0 < m)) (hC : C ≠ ∅) :
    b.syncReplica ⟨C,v,m⟩ =
      ⟨(C ∩ b.uids) ∪ above C b.uids,b.uidValidity,b.reportedModseq⟩ := by
  unfold syncReplica
  rw [if_neg (not_stale hv),if_neg (not_matches h),if_neg h,if_neg hC]

theorem uids_syncReplica_subset : (b.syncReplica r).uids ⊆ r.uids ∪ b.uids := by
  have hfill : ∀ {K}, K ⊆ r.uids → K ∪ above r.uids b.uids ⊆ r.uids ∪ b.uids := fun hK =>
    Finset.union_subset_union hK above_subset
  unfold syncReplica
  split
  · exact Finset.subset_union_left
  · split
    · exact Finset.subset_union_left
    · split
      · exact Finset.union_subset_union (kept_subset _ _ _) above_subset
      · split
        · exact Finset.empty_subset _
        · exact hfill Finset.inter_subset_left

/-! ### Where the cycles come to rest -/

/-- The CONDSTORE path from the present keeps its checkpoint. -/
theorem nextModseq_present (hM : 0 < b.reportedModseq) :
    b.nextModseq b.reportedModseq = b.reportedModseq := by
  cases hq : b.qresync with
  | false => exact nextModseq_of_condstore hq
  | true =>
    rw [nextModseq_of_qresync hq hM,topModseq_of_le (reportedModseq_of_pos hM).ge]
    rfl

/-- What the server reports as vanished when asked again from where the first answer leaves the
checkpoint: the highest modification sequence of the changed messages, or the present. -/
def reportedLater (b : Mailbox) (m : Nat) : Finset Nat :=
  if 0 < b.topModseq m then b.reported (b.topModseq m) else ∅

theorem survivors_of_subset (h : D ⊆ b.uids) : b.survivors D m = D := by
  unfold survivors kept
  split
  · refine Finset.sdiff_eq_self_of_disjoint (Finset.disjoint_left.mpr (fun u hu => ?_))
    exact reported_disjoint u (h hu)
  · rw [if_neg (fun hc => Nat.not_lt.mpr (Finset.card_le_card h) hc.1)]

theorem survivors_of_qresync (hq : b.qresync = true) : b.survivors C m = C \ b.reported m := by
  simp [kept,hq]

/-- At the present checkpoint, what is filled and survives stays. -/
theorem converges_of_filled (hM : 0 < b.reportedModseq)
    (hs : b.survivors D b.reportedModseq = D) (hf : fill D b.uids = D) :
    b.Converges ⟨D,b.uidValidity,b.reportedModseq⟩ ↔ D = b.uids := by
  refine settles_of_fixed ?_
  by_cases hmatch : Matches b b.reportedModseq D.card
  · exact syncReplica_of_matches hmatch
  · rw [syncReplica_condstore current_self hmatch hM hM,hs,hf,nextModseq_present hM]

/-- At the present checkpoint, a part of the mailbox converges exactly if it has no gap. -/
theorem converges_of_subset (hM : 0 < b.reportedModseq) (hD : D ⊆ b.uids) :
    b.Converges ⟨D,b.uidValidity,b.reportedModseq⟩ ↔ GapFree D b.uids := by
  have hfill := converges_of_filled (D := fill D b.uids) hM (survivors_of_subset (fill_subset hD))
    fill_fill
  by_cases hmatch : Matches b b.reportedModseq D.card
  · have hDU : D = b.uids := Finset.eq_of_subset_of_card_le hD (by rw [card_uids,hmatch.2.2.2])
    rw [Converges,settles_of_fixed (syncReplica_of_matches hmatch)]
    exact iff_of_true hDU (fill_eq_iff.mp (hDU ▸ Finset.union_eq_left.mpr above_subset)).2
  · rw [Converges,← settles_step,syncReplica_condstore current_self hmatch hM hM,
      survivors_of_subset hD,nextModseq_present hM,← Converges,hfill,fill_eq_iff]
    exact and_iff_right hD

/-- With QRESYNC and at the present checkpoint, one more topping up decides. -/
theorem converges_of_qresync (hM : 0 < b.reportedModseq) (hq : b.qresync = true) :
    b.Converges ⟨D,b.uidValidity,b.reportedModseq⟩ ↔ fill D b.uids = b.uids := by
  have hsurv : ∀ E, b.survivors E b.reportedModseq = E := by
    intro E
    rw [survivors_of_qresync hq,reported_of_le (reportedModseq_of_pos hM).ge,Finset.sdiff_empty]
  by_cases hmatch : Matches b b.reportedModseq D.card
  · rw [Converges,settles_of_fixed (syncReplica_of_matches hmatch)]
    constructor
    · rintro rfl
      exact Finset.union_eq_left.mpr above_subset
    · intro h
      exact Finset.eq_of_subset_of_card_le (fill_eq_iff.mp h).1 (by rw [card_uids,hmatch.2.2.2])
  · rw [Converges,← settles_step,syncReplica_condstore current_self hmatch hM hM,hsurv,
      nextModseq_present hM,← Converges,converges_of_filled hM (hsurv _) fill_fill]

/-! ### The three paths -/

theorem reportedLater_disjoint : ∀ u ∈ b.uids, u ∉ b.reportedLater m := by
  intro u hu
  unfold reportedLater
  split
  · exact reported_disjoint u hu
  · exact Finset.notMem_empty u

/-- With QRESYNC there are two rounds of removals, from the checkpoint and from where the first
leaves it, and a top-up after each. -/
theorem converges_qresync (hv : Current b v) (hq : b.qresync = true) (hM : 0 < b.reportedModseq)
    (hm : 0 < m) :
    b.Converges ⟨C,v,m⟩ ↔
      fill (fill (C \ b.reported m) b.uids \ b.reportedLater m) b.uids = b.uids := by
  have hpresent : b.highestModseq ≤ b.reportedModseq := (reportedModseq_of_pos hM).ge
  by_cases hmatch : Matches b m C.card
  · have hmM : m = b.reportedModseq := hmatch.2.2.1.symm
    have hcard : C.card = b.uids.card := by rw [card_uids,hmatch.2.2.2]
    rw [Converges,settles_of_fixed (syncReplica_of_matches hmatch),reportedLater,hmM,
      reported_of_le hpresent,topModseq_of_le hpresent,if_neg (Nat.lt_irrefl 0)]
    simp only [Finset.sdiff_empty,fill_fill]
    exact (fill_eq_iff_of_card hcard).symm
  rw [Converges,← settles_step,syncReplica_condstore hv hmatch hM hm,survivors_of_qresync hq,
    ← Converges,nextModseq_of_qresync hq hm,reportedLater]
  rcases topModseq_spec (b := b) (m := m) with ⟨h0,-⟩ | ⟨hlt,-,hall⟩
  · rw [h0,if_neg (Nat.lt_irrefl 0),if_neg (Nat.lt_irrefl 0),converges_of_qresync hM hq,
      Finset.sdiff_empty]
  have ht : 0 < b.topModseq m := by omega
  have hquiet : b.topModseq (b.topModseq m) = 0 := topModseq_of_all_le hall
  rw [if_pos ht,if_pos ht]
  by_cases hmatch' : Matches b (b.topModseq m) (fill (C \ b.reported m) b.uids).card
  · have hcard : (fill (C \ b.reported m) b.uids).card = b.uids.card := by
      rw [card_uids,hmatch'.2.2.2]
    rw [Converges,settles_of_fixed (syncReplica_of_matches hmatch'),← hmatch'.2.2.1,
      reported_of_le hpresent,Finset.sdiff_empty]
    exact (fill_eq_iff_of_card hcard).symm
  · rw [Converges,← settles_step,syncReplica_condstore current_self hmatch' hM ht,
      survivors_of_qresync hq,← Converges,nextModseq_of_qresync hq ht,hquiet,
      if_neg (Nat.lt_irrefl 0),converges_of_qresync hM hq,fill_fill]

/-- Without QRESYNC, on a cache larger than the mailbox: what is gone goes, gaps stay. -/
theorem converges_larger (hv : Current b v) (hq : b.qresync = false) (hM : 0 < b.reportedModseq)
    (hm : 0 < m) (hc : b.uids.card < C.card) :
    b.Converges ⟨C,v,m⟩ ↔ GapFree (C ∩ b.uids) b.uids := by
  have hmatch : ¬Matches b m C.card := by
    intro h
    have := h.2.2.2
    rw [card_uids] at hc
    omega
  have hs : b.survivors C m = C ∩ b.uids := by simp [kept,hq,hc]
  rw [Converges,← settles_step,syncReplica_condstore hv hmatch hM hm,hs,
    nextModseq_of_condstore hq,← Converges,
    converges_of_subset hM (fill_subset Finset.inter_subset_right),gapFree_fill]

/-- Without QRESYNC, on a cache that is no larger than the mailbox and does not match it: the
first top-up must reach everything, or the count gives what is gone away and the top-up after
that must. -/
theorem converges_smaller (hv : Current b v) (hq : b.qresync = false) (hM : 0 < b.reportedModseq)
    (hm : 0 < m) (hc : C.card ≤ b.uids.card) (hmatch : ¬Matches b m C.card) :
    b.Converges ⟨C,v,m⟩ ↔ GapFree C b.uids := by
  have hs : b.survivors C m = C := by simp [kept,hq,Nat.not_lt.mpr hc]
  have hinter : fill C b.uids ∩ b.uids = (C ∩ b.uids) ∪ above C b.uids := by
    rw [fill,Finset.union_inter_distrib_right,Finset.inter_eq_left.mpr above_subset]
  rw [Converges,← settles_step,syncReplica_condstore hv hmatch hM hm,hs,
    nextModseq_of_condstore hq,← Converges]
  rcases Nat.lt_trichotomy (fill C b.uids).card b.uids.card with hlt | heq | hgt
  · have hs' : b.survivors (fill C b.uids) b.reportedModseq = fill C b.uids := by
      simp [kept,hq,Nat.not_lt.mpr hlt.le]
    rw [converges_of_filled hM hs' fill_fill]
    refine iff_of_false (fun h => ?_) (fun h => ?_)
    · rw [h] at hlt
      exact Nat.lt_irrefl _ hlt
    · exact Nat.not_lt.mpr (Finset.card_le_card (gapFree_iff.mp h)) hlt
  · have hmatch' : Matches b b.reportedModseq (fill C b.uids).card :=
      ⟨hM,hM,rfl,by rw [← card_uids,heq]⟩
    rw [Converges,settles_of_fixed (syncReplica_of_matches hmatch'),gapFree_iff]
    constructor
    · intro h
      exact h.ge
    · intro h
      exact (Finset.eq_of_subset_of_card_le h heq.le).symm
  · rw [converges_larger current_self hq hM hM hgt,hinter,
      gapFree_union_above_iff Finset.inter_subset_left
        (fun u hu hk => Finset.mem_inter.mpr ⟨hk,hu⟩),Completable]
    refine or_iff_left (fun h => ?_)
    rw [fill_of_above_eq_empty h.1] at hgt
    omega

/-- The first full fetch under CONDSTORE keeps what the mailbox has and tops it up. -/
theorem converges_first (hv : Current b v) (hM : 0 < b.reportedModseq) :
    b.Converges ⟨C,v,0⟩ ↔ Completable C (C ∩ b.uids) b.uids := by
  have hn : ¬(0 < b.reportedModseq ∧ 0 < 0) := fun h => Nat.lt_irrefl 0 h.2
  rw [Converges,← settles_step]
  by_cases hC : C = ∅
  · subst hC
    rw [syncReplica_empty hv hn,← Converges,converges_of_subset hM (Finset.empty_subset _)]
    exact iff_of_true gapFree_empty (Or.inl gapFree_empty)
  · rw [syncReplica_full hv hn hC,← Converges,converges_of_subset hM
      (Finset.union_subset Finset.inter_subset_right above_subset)]
    exact gapFree_union_above_iff Finset.inter_subset_left
      (fun u hu hk => Finset.mem_inter.mpr ⟨hk,hu⟩)

/-- Without CONDSTORE every cycle is a full fetch, which does nothing for an empty cache. -/
theorem converges_full (hv : Current b v) (hM : b.reportedModseq = 0) :
    b.Converges ⟨C,v,m⟩ ↔ Completable C (C ∩ b.uids) b.uids ∧
      (C = ∅ ∨ C ∩ b.uids = ∅ ∧ above C b.uids = ∅ → b.uids = ∅) := by
  have hn : ∀ m', ¬(0 < b.reportedModseq ∧ 0 < m') := fun m' h => by omega
  have hrest : ∀ {v' m'}, Current b v' → (b.Converges ⟨∅,v',m'⟩ ↔ b.uids = ∅) := by
    intro v' m' hv'
    rw [Converges,← settles_step,syncReplica_empty hv' (hn _),
      settles_of_fixed (syncReplica_empty current_self (hn _))]
    exact eq_comm
  by_cases hC : C = ∅
  · subst hC
    rw [hrest hv]
    constructor
    · exact fun h => ⟨Or.inl gapFree_empty,fun _ => h⟩
    · exact fun h => h.2 (Or.inl rfl)
  have hgap := gapFree_union_above_iff (K := C) (L := C ∩ b.uids) (U := b.uids)
    Finset.inter_subset_left (fun u hu hk => Finset.mem_inter.mpr ⟨hk,hu⟩)
  rw [Converges,← settles_step,syncReplica_full hv (hn _) hC,← Converges,← hgap,
    ← Finset.union_eq_empty]
  have hD : (C ∩ b.uids) ∪ above C b.uids ⊆ b.uids :=
    Finset.union_subset Finset.inter_subset_right above_subset
  generalize (C ∩ b.uids) ∪ above C b.uids = D at hD
  by_cases hE : D = ∅
  · subst hE
    rw [hrest current_self]
    constructor
    · exact fun h => ⟨gapFree_empty,fun _ => h⟩
    · exact fun h => h.2 (Or.inr rfl)
  · have hfill : ∀ {E}, E ≠ ∅ → E ⊆ b.uids →
        b.syncReplica ⟨E,b.uidValidity,b.reportedModseq⟩ =
          ⟨fill E b.uids,b.uidValidity,b.reportedModseq⟩ := by
      intro E hne hsub
      rw [syncReplica_full current_self (hn _) hne,Finset.inter_eq_left.mpr hsub]
      rfl
    have hne : fill D b.uids ≠ ∅ := fun h => hE (Finset.subset_empty.mp (h ▸ subset_fill))
    have hfix : b.syncReplica ⟨fill D b.uids,b.uidValidity,b.reportedModseq⟩ =
        ⟨fill D b.uids,b.uidValidity,b.reportedModseq⟩ := by
      rw [hfill hne (fill_subset hD),fill_fill]
    rw [Converges,← settles_step,hfill hE hD,settles_of_fixed hfix,fill_eq_iff]
    simp [hC,hE,hD]

/-! ### The condition -/

/-- Whether the cycles complete the replica. It is the mailbox's UIDs where they do nothing.
Elsewhere nothing the mailbox has may be missing below the UIDs the path works from. -/
def Completes (b : Mailbox) (r : Replica) : Prop :=
  if ¬Current b r.uidValidity ∨ Matches b r.modseq r.uids.card then r.uids = b.uids
  else if b.reportedModseq = 0 then
    Completable r.uids (r.uids ∩ b.uids) b.uids ∧
      (r.uids = ∅ ∨ r.uids ∩ b.uids = ∅ ∧ above r.uids b.uids = ∅ → b.uids = ∅)
  else if r.modseq = 0 then Completable r.uids (r.uids ∩ b.uids) b.uids
  else if b.qresync then
    (r.uids \ b.reported r.modseq) \ b.reportedLater r.modseq ⊆ b.uids ∧
      Completable (r.uids \ b.reported r.modseq)
        ((r.uids \ b.reported r.modseq) \ b.reportedLater r.modseq) b.uids
  else if b.uids.card < r.uids.card then GapFree (r.uids ∩ b.uids) b.uids
  else GapFree r.uids b.uids

instance : Decidable (b.Completes r) := by unfold Completes; infer_instance

theorem converges_iff : b.Converges r ↔ b.Completes r := by
  obtain ⟨C,v,m⟩ := r
  unfold Completes
  dsimp only
  by_cases hrest : ¬Current b v ∨ Matches b m C.card
  · rw [if_pos hrest]
    refine settles_of_fixed ?_
    exact hrest.elim (fun h => syncReplica_of_stale h) (fun h => syncReplica_of_matches h)
  rw [if_neg hrest]
  rw [not_or,not_not] at hrest
  obtain ⟨hv,hmatch⟩ := hrest
  by_cases hM : b.reportedModseq = 0
  · rw [if_pos hM,converges_full hv hM]
  rw [if_neg hM]
  by_cases hm : m = 0
  · rw [if_pos hm,hm,converges_first hv (Nat.pos_of_ne_zero hM)]
  rw [if_neg hm]
  have hM' := Nat.pos_of_ne_zero hM
  have hm' := Nat.pos_of_ne_zero hm
  cases hq : b.qresync with
  | true =>
    rw [if_pos rfl,converges_qresync hv hq hM' hm',fill_sdiff_fill_eq_iff reportedLater_disjoint]
  | false =>
    rw [if_neg Bool.false_ne_true]
    split
    · next hc => exact converges_larger hv hq hM' hm' hc
    · next hc => exact converges_smaller hv hq hM' hm' (Nat.not_lt.mp hc) hmatch

end Mailbox

/-! ### The cache -/

variable {stored : ImapMessageBody → CachedBody} {w : World} {f : String} {v m : Nat}

/-- A successful cycle against a quiet server. -/
def World.cycle (w : World) : World := (Task.exec calm runSync w).2

/-- Cycle by cycle the cache follows its replica. -/
theorem World.Holds.settles_iff {r : Replica} (h : w.Holds f r) (hb : ∀ u ∈ r.uids, u + 1 < 2 ^ 32) :
    Settles World.cycle (fun w' => w'.db.uids f = (w.server f).uids) w ↔ (w.server f).Converges r := by
  refine settles_congr (R := fun w' r' =>
    w'.server = w.server ∧ w'.Holds f r' ∧ ∀ u ∈ r'.uids, u + 1 < 2 ^ 32) ⟨rfl,h,hb⟩ ?_ ?_
  · rintro w' r' ⟨hs,hh,hb'⟩
    obtain ⟨hs',hh'⟩ := exec_runSync_holds hh hb'
    rw [hs] at hh'
    refine ⟨hs'.trans hs,hh',fun u hu => ?_⟩
    rcases Finset.mem_union.mp (Mailbox.uids_syncReplica_subset hu) with hu | hu
    · exact hb' u hu
    · have := Mailbox.lt_uidNext hu
      have := (w.server f).uidNext_lt
      omega
  · rintro w' r' ⟨-,⟨-,hu⟩,-⟩
    rw [hu]

/-- Against a quiet server, successful cycles bring a cached folder to the mailbox's UIDs exactly
where no gap is in their way. -/
theorem cycles_complete_iff (hw : w.Reachable stored) (hc : w.db.checkpoint f = some (v,m)) :
    Settles World.cycle (fun w' => w'.db.uids f = (w.server f).uids) w ↔
      (w.server f).Completes ⟨w.db.uids f,v,m⟩ := by
  have hh : w.Holds f ⟨w.db.uids f,v,m⟩ := ⟨hc,rfl⟩
  rw [hh.settles_iff hw.succ_lt,Mailbox.converges_iff]

/-- A folder of two messages nobody has listed yet. -/
def openingTwo : World :=
  World.opening (fun _ => (Mailbox.fresh 1 Nat.one_pos true false).deliverPlain 2)

/-- The folder listed once. -/
def listedTwo : World := (Task.exec calm (listMessages "INBOX") openingTwo).2

/-- The same after a request for the body of its first message that could not reach the server. -/
def droppedOne : World :=
  (Task.exec offline (getMessage ImapMessageBody.cached "INBOX" 1) listedTwo).2

theorem reachable_listedTwo : listedTwo.Reachable ImapMessageBody.cached :=
  (World.blank_opening _).reachable.step (e := .listMessages "INBOX" calm) rfl

theorem cycles_complete_listedTwo :
    Settles World.cycle (fun w' => w'.db.uids "INBOX" = (listedTwo.server "INBOX").uids) listedTwo :=
  (cycles_complete_iff reachable_listedTwo (v := 1) (m := 0) (by decide)).mpr (by decide)

/-- A row dropped below the highest cached UID never comes back. -/
theorem dropped_row_not_refetched :
    droppedOne.Reachable ImapMessageBody.cached ∧
      droppedOne.db.checkpoint "INBOX" = some (1,0) ∧
      ¬Settles World.cycle (fun w' => w'.db.uids "INBOX" = (droppedOne.server "INBOX").uids)
        droppedOne := by
  have hc : droppedOne.db.checkpoint "INBOX" = some (1,0) := by decide
  have hu : droppedOne.db.uids "INBOX" = {2} := by decide
  refine ⟨reachable_listedTwo.step (e := .getMessage "INBOX" 1 offline) rfl,hc,?_⟩
  rw [World.Holds.settles_iff (r := ⟨{2},1,0⟩) ⟨hc,hu⟩ (by decide),Mailbox.converges_iff]
  decide

end Rav
