import Rav.Agreement
import Rav.Routes.MessagesSpec

/-!
# Safety of the checkpoint

The modification sequence stored for a folder promises what the cache has absorbed. Three
separate calls feed the cache before one unconditional write, so the promise holds along the
runs in which no swallowed failure and no gap stands behind a write: `Careful` says so step by
step, and `Trusted` is the invariant that carries it.

## Main definitions

- `Trusted` — the checkpoint of a folder can be believed
- `Careful` — the condition on each event of a run
-/

namespace Rav

/-- The checkpoint of a folder can be believed: it is of an epoch the mailbox has had, and if of
the present one, it has been absorbed. -/
structure Trusted (b : Mailbox) (f : String) (db : Db) : Prop where
  bound : ∀ u ∈ db.uids f, u + 1 < 2 ^ 32
  epoch : ∀ v m, db.checkpoint f = some (v,m) → v ≤ b.uidValidity ∧ (v = 0 → m = 0)
  absorbed : ∀ m, db.checkpoint f = some (b.uidValidity,m) → 0 < m →
    m ≤ b.highestModseq ∧ Absorbed b f db m

variable {weather : Weather} {b b' : Mailbox} {f : String} {db db' : Db} {v m : Nat}
  {p : BackgroundSyncParams}

namespace Trusted

theorem of_sameHeaders (h : Trusted b f db) (hs : Db.SameHeaders f db db') : Trusted b f db' where
  bound := by rw [hs.uids]; exact h.bound
  epoch := fun v m hc => h.epoch v m (hs.checkpoint.symm.trans hc)
  absorbed := by
    intro m hc hm
    obtain ⟨hle,ha⟩ := h.absorbed m (hs.checkpoint.symm.trans hc) hm
    exact ⟨hle,ha.of_sameHeaders hs⟩

theorem of_sameRows (h : Trusted b f db) (hs : Db.SameRows f db db') : Trusted b f db' where
  bound := by rw [hs.uids]; exact h.bound
  epoch := fun v m hc => h.epoch v m (hs.1.symm.trans hc)
  absorbed := by
    intro m hc hm
    obtain ⟨hle,ha⟩ := h.absorbed m (hs.1.symm.trans hc) hm
    exact ⟨hle,ha.of_sameRows hs⟩

theorem of_sameFolder (h : Trusted b f db) (hs : Db.SameFolder f db db') : Trusted b f db' :=
  h.of_sameHeaders ⟨hs.1,fun u => by rw [hs.2 u]⟩

/-- The mailbox moves on, or away. -/
theorem apply (h : Trusted b f db) {c : Change} (hc : b.apply c = some b') : Trusted b' f db := by
  rcases Mailbox.apply_later hc with ⟨hl,-⟩ | hlt
  · refine ⟨h.bound,fun v m hv => hl.uidValidity ▸ h.epoch v m hv,fun m hv hm => ?_⟩
    obtain ⟨hle,ha⟩ := h.absorbed m (hl.uidValidity ▸ hv) hm
    exact ⟨Nat.le_trans hle hl.modseq_le,ha.later hle hl⟩
  · refine ⟨h.bound,fun v m hv => ?_,fun m hv _ => ?_⟩
    · obtain ⟨hle,h0⟩ := h.epoch v m hv
      exact ⟨by omega,h0⟩
    · have := (h.epoch _ m hv).1
      omega

/-- A folder without a row is trusted, and so is one with a fresh row. -/
theorem of_noRow (hc : db.checkpoint f = none ∨ db.checkpoint f = some (0,0))
    (hu : db.uids f = ∅) : Trusted b f db := by
  refine ⟨by simp [hu],fun v m hv => ?_,fun m hv hm => ?_⟩
  · rcases hc with hc | hc
    · simp [hc] at hv
    · rw [hc] at hv
      obtain ⟨rfl,rfl⟩ := Prod.mk.inj (Option.some.inj hv)
      exact ⟨Nat.zero_le _,id⟩
  · rcases hc with hc | hc
    · simp [hc] at hv
    · rw [hc] at hv
      have := (Prod.mk.inj (Option.some.inj hv)).2
      omega

/-- Under another UIDVALIDITY the rows may go. -/
theorem deleteFolderMessages (h : Trusted b f db) (hc : db.checkpoint f = some (v,m))
    (hv : v ≠ b.uidValidity) : Trusted b f (db.deleteFolderMessages f) := by
  refine ⟨fun u hu => ?_,h.epoch,fun k hk _ => ?_⟩
  · obtain ⟨r,hr⟩ := Db.mem_uids.mp hu
    rw [Db.message?_deleteFolderMessages,if_pos rfl] at hr
    simp at hr
  · have hk' : db.checkpoint f = some (b.uidValidity,k) := hk
    rw [hc] at hk'
    exact absurd (Prod.mk.inj (Option.some.inj hk')).1 hv

theorem folder?_isSome (hc : db.checkpoint f = some (v,m)) : (db.folder? f).isSome :=
  folder?_isSome_of_checkpoint hc

end Trusted

/-- Rows fetched from the mailbox take nothing back. -/
theorem Absorbed.storeHeaders {k : Nat} (h : Absorbed b f db k) (hrow : (db.folder? f).isSome)
    {hs : List ImapMessageHeader} (hhs : ∀ h ∈ hs, ∃ msg ∈ b.messages, b.stamp msg = h) :
    Absorbed b f (storeHeaders f hs db) k := by
  have huids := uids_storeHeaders hrow hs
  refine ⟨fun msg hmsg hk => ?_,h.flags.storeHeaders hrow hhs,fun e he hk hmem => ?_⟩
  · rw [huids]
    exact Finset.mem_union_left _ (h.delivered msg hmsg hk)
  · rw [huids,Finset.mem_union] at hmem
    rcases hmem with hmem | hmem
    · exact h.removed e he hk hmem
    · obtain ⟨h',hh,hu⟩ := List.mem_map.mp (List.mem_toFinset.mp hmem)
      obtain ⟨msg,hmsg,rfl⟩ := hhs h' hh
      exact b.expunged_gone e he msg hmsg hu

namespace Trusted

theorem storeHeaders (h : Trusted b f db) (hrow : (db.folder? f).isSome)
    {hs : List ImapMessageHeader} (hhs : ∀ h ∈ hs, ∃ msg ∈ b.messages, b.stamp msg = h) :
    Trusted b f (storeHeaders f hs db) := by
  have hc : (Rav.storeHeaders f hs db).checkpoint f = db.checkpoint f :=
    Db.checkpoint_congr (fun g => folder?_storeHeaders _)
  refine ⟨fun u hu => ?_,fun v m hv => h.epoch v m (hc ▸ hv),fun m hv hm => ?_⟩
  · rw [uids_storeHeaders hrow,Finset.mem_union] at hu
    rcases hu with hu | hu
    · exact h.bound u hu
    · obtain ⟨h',hh,rfl⟩ := List.mem_map.mp (List.mem_toFinset.mp hu)
      obtain ⟨msg,hmsg,rfl⟩ := hhs h' hh
      have hlt : (b.stamp msg).uid < b.uidNext := (b.uid_bounds msg hmsg).2
      have := b.uidNext_lt
      omega
  · obtain ⟨hle,ha⟩ := h.absorbed m (hc ▸ hv) hm
    exact ⟨hle,ha.storeHeaders hrow hhs⟩

/-- Writing a UIDVALIDITY keeps the trust unless it makes an unabsorbed checkpoint current. -/
theorem updateFolderStatus (h : Trusted b f db) (hc : db.checkpoint f = some (v,m)) {v' n : Nat}
    (hpos : 0 < v') (hle : v' ≤ b.uidValidity)
    (habs : v' = b.uidValidity → v ≠ b.uidValidity → 0 < m →
      m ≤ b.highestModseq ∧ Absorbed b f db m) :
    Trusted b f ((db.updateFolderStatus f v' n).refreshUnreadCount f) ∧
      Trusted b f (db.updateFolderStatus f v' n) := by
  have hstep : Trusted b f (db.updateFolderStatus f v' n) := by
    have hc' : (db.updateFolderStatus f v' n).checkpoint f = some (v',m) := by simp [hc]
    refine ⟨h.bound,fun w k hk => ?_,fun k hk hkpos => ?_⟩
    · rw [hc'] at hk
      obtain ⟨rfl,rfl⟩ := Prod.mk.inj (Option.some.inj hk)
      exact ⟨hle,fun h0 => by omega⟩
    · rw [hc'] at hk
      obtain ⟨hv',rfl⟩ := Prod.mk.inj (Option.some.inj hk)
      by_cases hv : v = b.uidValidity
      · subst hv
        obtain ⟨hkle,ha⟩ := h.absorbed m hc hkpos
        exact ⟨hkle,ha.of_rows rfl ha.flags⟩
      · obtain ⟨hkle,ha⟩ := habs hv' hv hkpos
        exact ⟨hkle,ha.of_rows rfl ha.flags⟩
  refine ⟨?_,hstep⟩
  refine ⟨hstep.bound,fun w k hk => hstep.epoch w k (by simpa using hk),fun k hk hkpos => ?_⟩
  obtain ⟨hkle,ha⟩ := hstep.absorbed k (by simpa using hk) hkpos
  exact ⟨hkle,ha.of_rows rfl ha.flags⟩

/-- A cycle's pass over the folder. -/
theorem pass (h : Trusted b f db) (hc : db.checkpoint f = some (v,m))
    (hp : Pass weather b f v m db db')
    (hg : b.Current v → ¬Matches b m (db.uids f).card →
      weather.fails (.folderStatusExtended f) = none → 0 < b.reportedModseq →
      Absorbs weather b f (db.uids f) m) : Trusted b f db' := by
  have hbound : ∀ u ∈ db'.uids f, u + 1 < 2 ^ 32 := by
    intro u hmem
    rcases Finset.mem_union.mp (hp.uids_subset hc hmem) with hu | hu
    · exact h.bound u hu
    · have := Mailbox.lt_uidNext hu
      have := b.uidNext_lt
      omega
  have hflags : b.Current v → 0 < m → FlagsAgree b f db m := by
    rintro (hv | rfl) hm
    · have := (h.epoch v m hc).2 hv
      omega
    · exact (h.absorbed m hc hm).2.flags
  rcases hp.absorbed hc hflags hg with hrows | ⟨m',hc',habs⟩
  · refine ⟨hbound,fun w k hk => h.epoch w k (hrows.1.symm.trans hk),fun k hk hkpos => ?_⟩
    obtain ⟨hle,ha⟩ := h.absorbed k (hrows.1.symm.trans hk) hkpos
    exact ⟨hle,ha.of_sameRows hrows⟩
  · refine ⟨hbound,fun w k hk => ?_,fun k hk hkpos => ?_⟩
    · rw [hc'] at hk
      obtain ⟨rfl,rfl⟩ := Prod.mk.inj (Option.some.inj hk)
      exact ⟨Nat.le_refl _,fun h0 => absurd h0 b.uidValidity_pos.ne'⟩
    · rw [hc'] at hk
      obtain ⟨-,rfl⟩ := Prod.mk.inj (Option.some.inj hk)
      exact habs hkpos

end Trusted

/-! ### Requests -/

theorem headers_stamps (set : UidSet) : ∀ h ∈ b.headers set, ∃ msg ∈ b.messages, b.stamp msg = h := by
  intro h hh
  obtain ⟨msg,hmsg,rfl⟩ := List.mem_map.mp hh
  exact ⟨msg,(List.mem_filter.mp hmsg).1,rfl⟩

/-- The first look leaves the cache alone or adds an empty row, and reports the checkpoint's
UIDVALIDITY. -/
theorem initialFolderCheck_cases : (initialFolderCheck f db).2 = db ∧ (initialFolderCheck f db).1 = none ∨
    ∃ initial, (initialFolderCheck f db).1 = some initial ∧ ∃ m,
      (initialFolderCheck f db).2.checkpoint f = some (initial.cachedUidValidity,m) ∧
      ((initialFolderCheck f db).2 = db ∨
        initial.cachedUidValidity = 0 ∧ m = 0 ∧ (initialFolderCheck f db).2.uids f = ∅) := by
  unfold initialFolderCheck
  split
  · exact Or.inl ⟨rfl,rfl⟩
  · refine Or.inr ⟨_,rfl,?_⟩
    cases hrow : db.folder? f with
    | some row =>
      have hc : db.checkpoint f = some (row.uidValidity,row.highestModseq) := by
        simp [Db.checkpoint,hrow]
      exact ⟨row.highestModseq,by simpa [Db.getFolder,hrow] using hc,Or.inl (by simp [Db.getFolder,hrow])⟩
    | none =>
      refine ⟨0,?_,Or.inr ⟨by simp [Db.getFolder,hrow],rfl,?_⟩⟩
      · simp [Db.getFolder,hrow,Db.checkpoint,Db.folder?_upsertFolder,Db.UpsertFolderParams.row]
      · refine Finset.eq_empty_of_forall_notMem (fun u hu => ?_)
        obtain ⟨r,hr⟩ := Db.mem_uids.mp hu
        simp [Db.getFolder,hrow,Db.message?_upsertFolder] at hr

/-- A listing under a new UIDVALIDITY keeps the old modification sequence; this is harmless where
it has not outrun the mailbox and the first page has everything delivered by then. -/
def ListsSafely (b : Mailbox) (f : String) (db : Db) : Prop :=
  ∀ v m, db.checkpoint f = some (v,m) → v ≠ 0 → v ≠ b.uidValidity → 0 < m →
    m ≤ b.highestModseq ∧ ∀ msg ∈ b.messages, msg.born ≤ m → recentStart b.uidNext ≤ msg.uid

namespace Trusted

theorem initialFolderCheck (h : Trusted b f db) : Trusted b f (initialFolderCheck f db).2 := by
  rcases @initialFolderCheck_cases f db with ⟨he,-⟩ | ⟨initial,-,m,hc,he | ⟨hv,hm,hu⟩⟩
  · rwa [he]
  · rwa [he]
  · rw [hv,hm] at hc
    exact of_noRow (Or.inr hc) hu

theorem ne_zero_of_pos (h : Trusted b f db) (hc : db.checkpoint f = some (v,m)) (hm : 0 < m) :
    v ≠ 0 := by
  intro hv
  have := (h.epoch v m hc).2 hv
  omega

theorem cold (h : Trusted b f db) (hc : db.checkpoint f = some (v,m))
    (hnew : v ≠ 0 → v ≠ b.uidValidity → db.uids f = ∅)
    (hg : v ≠ 0 → v ≠ b.uidValidity → 0 < m →
      m ≤ b.highestModseq ∧ ∀ msg ∈ b.messages, msg.born ≤ m → recentStart b.uidNext ≤ msg.uid) :
    Trusted b f (cold weather b f b.status db).1 := by
  have hrow := folder?_isSome hc
  unfold Rav.cold
  split
  · exact h
  · dsimp only
    rw [storeFetched_eq hrow]
    set hs := b.headers (.fromOn (recentStart b.status.uidNext)) with hhs
    have hc' : (Rav.storeHeaders f hs db).checkpoint f = some (v,m) :=
      (Db.checkpoint_congr (fun g => folder?_storeHeaders _)).trans hc
    refine ((h.storeHeaders hrow (headers_stamps _)).updateFolderStatus hc' b.uidValidity_pos
      (Nat.le_refl _) (fun _ hv hm => ?_)).1
    have hv0 := h.ne_zero_of_pos hc hm
    obtain ⟨hle,hrecent⟩ := hg hv0 hv hm
    have hempty := hnew hv0 hv
    refine ⟨hle,fun msg hmsg hk => ?_,?_,fun e he hk hmem => ?_⟩
    · rw [uids_storeHeaders hrow]
      refine Finset.mem_union_right _ (List.mem_toFinset.mpr (List.mem_map.mpr ⟨b.stamp msg,?_,rfl⟩))
      have hstart : recentStart b.status.uidNext ≤ msg.uid := hrecent msg hmsg hk
      have htop := Mailbox.le_topUid hmsg
      refine List.mem_map.mpr ⟨msg,List.mem_filter.mpr ⟨hmsg,?_⟩,rfl⟩
      simp only [Mailbox.inUidSet,Bool.and_eq_true,decide_eq_true_eq]
      omega
    · refine FlagsAgree.storeHeaders (fun msg hmsg _ r hr => ?_) hrow (headers_stamps _)
      have := Db.mem_uids.mpr ⟨r,hr⟩
      simp [hempty] at this
    · rw [uids_storeHeaders hrow,hempty,Finset.empty_union] at hmem
      obtain ⟨h',hh,hu⟩ := List.mem_map.mp (List.mem_toFinset.mp hmem)
      obtain ⟨msg,hmsg,rfl⟩ := headers_stamps _ h' hh
      exact b.expunged_gone e he msg hmsg hu

/-- The second look, once the status is known. -/
theorem syncOutcome (h : Trusted b f db) {initial : InitialFolderCheck}
    (hc : db.checkpoint f = some (initial.cachedUidValidity,m))
    (hg : initial.cachedUidValidity ≠ 0 → initial.cachedUidValidity ≠ b.uidValidity → 0 < m →
      m ≤ b.highestModseq ∧ ∀ msg ∈ b.messages, msg.born ≤ m → recentStart b.uidNext ≤ msg.uid) :
    match syncOutcome f initial b.status db with
    | (.coldStart,db') => Trusted b f (Rav.cold weather b f b.status db').1
    | (_,db') => Trusted b f db' := by
  have hv : b.status.uidValidity = b.uidValidity := rfl
  have hn : b.status.exists_ = b.messages.length := rfl
  unfold Rav.syncOutcome
  rw [hv,hn]
  by_cases hnew : initial.cachedUidValidity ≠ 0 ∧ initial.cachedUidValidity ≠ b.uidValidity
  · have hdel := h.deleteFolderMessages hc hnew.2
    have hempty : (db.deleteFolderMessages f).uids f = ∅ := by
      refine Finset.eq_empty_of_forall_notMem (fun u hu => ?_)
      obtain ⟨r,hr⟩ := Db.mem_uids.mp hu
      rw [Db.message?_deleteFolderMessages,if_pos rfl] at hr
      simp at hr
    simp only [hnew,true_or,not_true_eq_false,if_false,if_true,true_and,ne_eq,not_false_eq_true]
    by_cases hpos : 0 < b.messages.length
    · rw [if_pos hpos]
      exact hdel.cold hc (fun _ _ => hempty) hg
    · rw [if_neg hpos]
      have hnil : b.messages = [] := List.length_eq_zero_iff.mp (by omega)
      refine (hdel.updateFolderStatus hc b.uidValidity_pos (Nat.le_refl _) (fun _ _ hm => ?_)).2
      refine ⟨(hg hnew.1 hnew.2 hm).1,by simp [hnil],by simp [FlagsAgree,hnil],by simp [hempty]⟩
  · have hold : initial.cachedUidValidity ≠ 0 → initial.cachedUidValidity ≠ b.uidValidity → False :=
      fun h1 h2 => hnew ⟨h1,h2⟩
    have hupd := (h.updateFolderStatus (n := b.messages.length) hc b.uidValidity_pos (Nat.le_refl _)
      (fun _ hne hm => (hold (h.ne_zero_of_pos hc hm) hne).elim)).2
    simp only [if_neg hnew]
    split
    · next db' he =>
      split at he
      · simp at he
      · split at he
        · obtain rfl := (Prod.mk.inj he).2
          exact h.cold hc (fun h1 h2 => (hold h1 h2).elim) hg
        · simp at he
    · next out db' hout he =>
      split at he
      · obtain rfl := (Prod.mk.inj he).2
        exact hupd
      · split at he
        · obtain rfl := (Prod.mk.inj he).2
          exact h
        · obtain rfl := (Prod.mk.inj he).2
          exact hupd

theorem listing (h : Trusted b f db) (hg : ListsSafely b f db) :
    Trusted b f (listing weather b f db).1 := by
  have h₁ := h.initialFolderCheck
  have hcases := @initialFolderCheck_cases f db
  unfold Rav.listing
  revert h₁ hcases
  rcases Rav.initialFolderCheck f db with ⟨_ | initial,db₁⟩ <;> intro h₁ hcases
  · exact h₁
  cases weather.fails (.folderStatus f) with
  | some e => exact h₁
  | none =>
    obtain ⟨-,hnone⟩ | ⟨initial',hi,m,hc,hdb⟩ := hcases
    · simp at hnone
    obtain rfl := Option.some.inj hi
    have hg' : initial.cachedUidValidity ≠ 0 → initial.cachedUidValidity ≠ b.uidValidity → 0 < m →
        m ≤ b.highestModseq ∧ ∀ msg ∈ b.messages, msg.born ≤ m → recentStart b.uidNext ≤ msg.uid := by
      rcases hdb with rfl | ⟨h0,-,-⟩
      · exact hg _ _ hc
      · exact fun hne => absurd h0 hne
    have hout := @h₁.syncOutcome weather _ _ _ _ _ hc hg'
    dsimp only
    revert hout
    rcases Rav.syncOutcome f initial b.status db₁ with ⟨_ | _ | _,db₂⟩ <;> exact id

/-- A background fetch started under a UIDVALIDITY the mailbox has had. -/
theorem remaining (h : Trusted b p.folder db) (hpos : 0 < p.uidValidity)
    (hle : p.uidValidity ≤ b.uidValidity)
    (hg : ∀ v m, db.checkpoint p.folder = some (v,m) → p.uidValidity = b.uidValidity →
      v = b.uidValidity ∨ m = 0) : Trusted b p.folder (remaining weather b p db) := by
  unfold Rav.remaining
  split
  · exact h
  · split
    · exact h
    · next hne =>
      cases hc : db.checkpoint p.folder with
      | none =>
        rw [storeFetched_of_noRow (by simpa [Db.checkpoint] using hc) (by simpa using hne)]
        exact h
      | some c =>
        obtain ⟨v,m⟩ := c
        have hrow := folder?_isSome hc
        rw [storeFetched_eq hrow]
        have hc' : (Rav.storeHeaders p.folder (b.headers p.uidRange) db).checkpoint p.folder =
            some (v,m) := (Db.checkpoint_congr (fun g => folder?_storeHeaders _)).trans hc
        refine ((h.storeHeaders hrow (headers_stamps _)).updateFolderStatus hc' hpos hle ?_).1
        intro hv hne' hm
        rcases hg v m hc hv with hv' | hm'
        · exact absurd hv' hne'
        · omega

theorem opening (h : Trusted b f db) {stored : ImapMessageBody → CachedBody} {u : Nat}
    (hg : u ∈ b.uids → weather.fails (.fetchBody f u) = none) :
    Trusted b f (opening weather stored b f u db) := by
  unfold Rav.opening
  split
  · exact h
  · split
    · refine h.of_sameHeaders ⟨rfl,fun v => ?_⟩
      rw [Db.message?_cacheMessageBody,Option.map_map]
      congr 1
      funext r
      simp only [Function.comp_apply]
      split <;> rfl
    · next hserved =>
      have hu : u ∉ b.uids := by
        intro hu
        obtain ⟨msg,hmsg⟩ : ∃ msg, b.messages.find? (fun m => m.uid = u) = some msg := by
          rw [← Option.isSome_iff_exists,List.find?_isSome]
          simpa using hu
        exact hserved _ (hg hu) (by simp [Mailbox.body,hmsg]; rfl)
      have huids : (db.deleteMessage f u).uids f = db.uids f \ {u} := by
        ext v
        rw [Db.mem_uids_iff_isSome,Db.message?_deleteMessage,Finset.mem_sdiff,Db.mem_uids_iff_isSome]
        by_cases hv : v = u <;> simp [hv]
      have hsub : (db.deleteMessage f u).uids f ⊆ db.uids f := huids ▸ Finset.sdiff_subset
      refine of_sameRows ⟨fun v hv => h.bound v (hsub hv),h.epoch,fun m hc hm => ?_⟩
        Db.sameRows_invalidateFolderFreshness
      obtain ⟨hle,ha⟩ := h.absorbed m hc hm
      refine ⟨hle,fun msg hmsg hk => ?_,ha.flags.of_rows (fun v r hr => ?_),fun e he hk hmem => ?_⟩
      · have hne : msg.uid ≠ u := fun he => hu (he ▸ Mailbox.mem_uids.mpr ⟨msg,hmsg,rfl⟩)
        rw [huids]
        exact Finset.mem_sdiff.mpr ⟨ha.delivered msg hmsg hk,by simpa using hne⟩
      · rw [Db.message?_deleteMessage] at hr
        split at hr
        · simp at hr
        · exact ⟨r,hr,rfl⟩
      · exact ha.removed e he hk (hsub hmem)

theorem insertFolderIfNew (h : Trusted b f db) (g : String) (d : Option String) (csv : String) :
    Trusted b f (db.insertFolderIfNew g d csv) := by
  cases hc : db.checkpoint f with
  | some c =>
    refine h.of_sameRows ⟨?_,fun _ => rfl⟩
    obtain ⟨row,hrow,-⟩ := Option.map_eq_some_iff.mp hc
    simp [Db.checkpoint,Db.folder?_insertFolderIfNew,hrow]
  | none =>
    have hrow : db.folder? f = none := by simpa [Db.checkpoint] using hc
    refine of_noRow ?_ ?_
    · rw [Db.checkpoint,Db.folder?_insertFolderIfNew,hrow]
      by_cases hf : f = g <;> simp [hf]
    · refine Finset.eq_empty_of_forall_notMem (fun u hu => ?_)
      obtain ⟨row,hrow'⟩ := @Db.folder?_isSome_of_mem_uids db f u hu
      simp [hrow] at hrow'

end Trusted

/-! ### Runs -/

variable {stored : ImapMessageBody → CachedBody} {w w' : World}

/-- The condition on each event. The folder's mailbox changes between events only. A cycle
absorbs what it writes down; listing the folder under a new UIDVALIDITY finds no checkpoint to
outrun it; a background fetch does not revive an older epoch; and no request for a message that
is there fails. -/
def Careful (f : String) (w : World) : AccountEvent → Prop
  | .cycle weather => Steady weather ∧ ∀ v m, w.db.checkpoint f = some (v,m) →
      (w.server f).Current v → ¬Matches (w.server f) m (w.db.uids f).card →
      weather.fails (.folderStatusExtended f) = none → 0 < (w.server f).reportedModseq →
      Absorbs weather (w.server f) f (w.db.uids f) m
  | .listMessages g weather => Steady weather ∧ (g = f → ListsSafely (w.server f) f w.db)
  | .background i weather => Steady weather ∧ ∀ p, w.background[i]? = some p → p.folder = f →
      ∀ v m, w.db.checkpoint f = some (v,m) → p.uidValidity = (w.server f).uidValidity →
        v = (w.server f).uidValidity ∨ m = 0
  | .getMessage g u weather => Steady weather ∧
      (g = f → u ∈ (w.server f).uids → weather.fails (.fetchBody f u) = none)
  | _ => True

/-- The invariant of careful runs: the checkpoint can be believed, and no background fetch is
from an epoch to come. -/
def KeepsTrust (f : String) (w : World) : Prop :=
  Trusted (w.server f) f w.db ∧
    ∀ p ∈ w.background, p.folder = f → 0 < p.uidValidity ∧ p.uidValidity ≤ (w.server f).uidValidity

theorem KeepsTrust.cycle {weather : Weather} (h : KeepsTrust f w)
    (hg : Careful f w (.cycle weather)) : KeepsTrust f (Task.exec weather runSync w).2 := by
  have hbg := @exec_allows_background _ weather _ _ runSync_allows w
  cases hc : w.db.checkpoint f with
  | none =>
    obtain ⟨hs,hh⟩ := exec_runSync_noRow hg.1 hc
    exact ⟨by rw [hs]; exact h.1.of_sameHeaders hh,by rw [hs,hbg]; exact h.2⟩
  | some c =>
    obtain ⟨v,m⟩ := c
    obtain ⟨db,db',hsame,hpass,hs,hh⟩ := exec_runSync_pass hg.1 hc h.1.bound
    have ht : Trusted (w.server f) f db' := by
      refine (h.1.of_sameFolder hsame).pass (hsame.sameRows.1.trans hc) hpass ?_
      rw [hsame.sameRows.uids]
      exact hg.2 v m hc
    exact ⟨by rw [hs]; exact ht.of_sameHeaders hh,by rw [hs,hbg]; exact h.2⟩

theorem KeepsTrust.listMessages {weather : Weather} {g : String} (h : KeepsTrust f w)
    (hg : Careful f w (.listMessages g weather)) :
    KeepsTrust f (Task.exec weather (listMessages g) w).2 := by
  obtain ⟨hs,hdb,hbg⟩ := exec_listMessages (f := g) (w := w) hg.1
  refine ⟨?_,?_⟩
  · rw [hs,hdb]
    by_cases hgf : g = f
    · subst hgf
      exact h.1.listing (hg.2 rfl)
    · exact h.1.of_sameFolder (onlyFolder_listing f (Ne.symm hgf))
  · rw [hs,hbg]
    intro p hp hpf
    rcases List.mem_append.mp hp with hp | hp
    · exact h.2 p hp hpf
    · obtain ⟨hpg,hv⟩ := background_listing p hp
      rw [hv,← hpg,hpf]
      exact ⟨(w.server f).uidValidity_pos,Nat.le_refl _⟩

theorem KeepsTrust.background {weather : Weather} {i : Nat} (h : KeepsTrust f w)
    (hg : Careful f w (.background i weather)) (hp : w.background[i]? = some p) :
    KeepsTrust f (Task.exec weather (syncRemainingHeaders p)
      { w with background := w.background.eraseIdx i }).2 := by
  obtain ⟨hs,hdb,hbg⟩ := exec_syncRemainingHeaders
    (w := { w with background := w.background.eraseIdx i }) hg.1 p
  have hmem := List.mem_of_getElem? hp
  refine ⟨?_,?_⟩
  · rw [hs,hdb]
    by_cases hpf : p.folder = f
    · subst hpf
      obtain ⟨hpos,hle⟩ := h.2 p hmem rfl
      exact h.1.remaining hpos hle (hg.2 p hp rfl)
    · exact h.1.of_sameFolder (onlyFolder_remaining p f (Ne.symm hpf))
  · rw [hs,hbg]
    exact fun q hq => h.2 q (List.mem_of_mem_eraseIdx hq)

theorem KeepsTrust.getMessage {weather : Weather} {g : String} {u : Nat} (h : KeepsTrust f w)
    (hg : Careful f w (.getMessage g u weather)) :
    KeepsTrust f (Task.exec weather (getMessage stored g u) w).2 := by
  obtain ⟨hs,hdb,hbg⟩ := exec_getMessage (f := g) (w := w) hg.1 stored u
  refine ⟨?_,by rw [hs,hbg]; exact h.2⟩
  rw [hs,hdb]
  by_cases hgf : g = f
  · subst hgf
    exact h.1.opening (hg.2 rfl)
  · exact h.1.of_sameFolder (onlyFolder_opening stored u f (Ne.symm hgf))

theorem KeepsTrust.server {g : String} {c : Change} (h : KeepsTrust f w)
    (hc : (w.server g).apply c = some b) :
    KeepsTrust f { w with server := Function.update w.server g b } := by
  by_cases hgf : g = f
  · subst hgf
    have hs : Function.update w.server g b g = b := Function.update_self g b w.server
    refine ⟨by dsimp only; rw [hs]; exact h.1.apply hc,fun p hp hpf => ?_⟩
    obtain ⟨hpos,hle⟩ := h.2 p hp hpf
    dsimp only
    rw [hs]
    rcases Mailbox.apply_later hc with ⟨hl,-⟩ | hlt
    · exact ⟨hpos,hl.uidValidity ▸ hle⟩
    · exact ⟨hpos,by omega⟩
  · have hs : Function.update w.server g b f = w.server f :=
      Function.update_of_ne (Ne.symm hgf) b w.server
    exact ⟨by dsimp only; rw [hs]; exact h.1,by dsimp only; rw [hs]; exact h.2⟩

/-- Every careful event keeps the invariant. -/
theorem KeepsTrust.step {e : AccountEvent} (h : KeepsTrust f w) (hg : Careful f w e)
    (he : account stored w e = some w') : KeepsTrust f w' := by
  cases e with
  | server g c =>
    obtain ⟨b,hb,rfl⟩ := Option.map_eq_some_iff.mp he
    exact h.server hb
  | tick secs =>
    obtain rfl := Option.some.inj he
    exact ⟨h.1.of_sameRows ⟨rfl,fun _ => rfl⟩,h.2⟩
  | listFolders g d csv =>
    obtain rfl := Option.some.inj he
    exact ⟨h.1.insertFolderIfNew g d csv,h.2⟩
  | setDeepIndex on =>
    obtain rfl := Option.some.inj he
    exact ⟨h.1.of_sameRows ⟨rfl,fun _ => rfl⟩,h.2⟩
  | cycle weather =>
    obtain rfl := Option.some.inj he
    exact h.cycle hg
  | listMessages g weather =>
    obtain rfl := Option.some.inj he
    exact h.listMessages hg
  | background i weather =>
    obtain ⟨p,hp,rfl⟩ := Option.map_eq_some_iff.mp he
    exact h.background hg hp
  | getMessage g u weather =>
    obtain rfl := Option.some.inj he
    exact h.getMessage hg

theorem World.Blank.keepsTrust (h : w.Blank) : KeepsTrust f w := by
  have hrow : w.db.folder? f = none := by simp [Db.folder?,Table.find?,h.1]
  refine ⟨Trusted.of_noRow (Or.inl (by simp [Db.checkpoint,hrow])) ?_,by simp [h.2]⟩
  refine Finset.eq_empty_of_forall_notMem (fun u hu => ?_)
  obtain ⟨row,hrow'⟩ := Db.folder?_isSome_of_mem_uids hu
  simp [hrow] at hrow'

/-- Where modification sequence and count match what has been absorbed, the cache is the
mailbox. -/
theorem Absorbed.eq_of_matches (h : Absorbed b f db m)
    (hmatch : Matches b m (db.countMessages f)) :
    db.uids f = b.uids ∧ ∀ msg ∈ b.messages, ∃ r, db.message? f msg.uid = some r ∧
      flagSet r.flags = flagSet (flagsCsv msg.header.flags) := by
  have hm : m = b.highestModseq := hmatch.2.2.1.symm.trans (Mailbox.reportedModseq_of_pos hmatch.1)
  have hmem : ∀ msg ∈ b.messages, msg.uid ∈ db.uids f := by
    intro msg hmsg
    have hborn := b.modseq_le msg hmsg
    exact h.delivered msg hmsg (by omega)
  have hsub : b.uids ⊆ db.uids f := by
    intro u hu
    obtain ⟨msg,hmsg,rfl⟩ := Mailbox.mem_uids.mp hu
    exact hmem msg hmsg
  have hcard : (db.uids f).card = b.uids.card := by
    rw [← Db.countMessages_eq_card,Mailbox.card_uids,hmatch.2.2.2]
  refine ⟨(Finset.eq_of_subset_of_card_le hsub hcard.le).symm,fun msg hmsg => ?_⟩
  obtain ⟨r,hr⟩ := Db.mem_uids.mp (hmem msg hmsg)
  exact ⟨r,hr,h.flags msg hmsg (hm ▸ (b.modseq_le msg hmsg).2) r hr⟩

/-- Along every careful run, a checkpoint stored for the present UIDVALIDITY has been absorbed,
and a cycle that skips the folder for its modification sequence and count skips nothing. -/
theorem checkpoint_absorbed {w₀ : World} {es : List AccountEvent} (h0 : w₀.Blank)
    (hrun : Run (account stored) (Careful f) w₀ es w)
    (hc : w.db.checkpoint f = some ((w.server f).uidValidity,m)) (hm : 0 < m) :
    Absorbed (w.server f) f w.db m ∧
      (Matches (w.server f) m (w.db.countMessages f) → w.db.uids f = (w.server f).uids ∧
        ∀ msg ∈ (w.server f).messages, ∃ r, w.db.message? f msg.uid = some r ∧
          flagSet r.flags = flagSet (flagsCsv msg.header.flags)) := by
  have ht : KeepsTrust f w :=
    hrun.invariant (P := KeepsTrust f) h0.keepsTrust (fun s e t hs hg he => hs.step hg he)
  have ha := (ht.1.absorbed m hc hm).2
  exact ⟨ha,ha.eq_of_matches⟩

theorem checkpoint_absorbed_syncedTwo :
    Absorbed (syncedTwo.server "INBOX") "INBOX" syncedTwo.db 3 := by
  have hlist : Careful "INBOX" openingTwo (.listMessages "INBOX" calm) := by
    refine ⟨steady_calm,fun _ v m hc => ?_⟩
    have hnone : openingTwo.db.checkpoint "INBOX" = none := by decide
    simp [hnone] at hc
  have hcycle : Careful "INBOX" listedTwo (.cycle calm) := by
    refine ⟨steady_calm,fun v m hc _ _ _ _ => ?_⟩
    have hsome : listedTwo.db.checkpoint "INBOX" = some (1,0) := by decide
    obtain ⟨-,rfl⟩ := Prod.mk.inj (Option.some.inj (hsome.symm.trans hc))
    exact fun _ => ⟨by decide,Or.inr (fun _ => rfl)⟩
  have hrun : Run (account ImapMessageBody.cached) (Careful "INBOX") openingTwo
      [.listMessages "INBOX" calm,.cycle calm] syncedTwo :=
    (Run.single hlist rfl).trans (Run.single hcycle rfl)
  exact (checkpoint_absorbed (World.blank_opening _) hrun (by decide) (by decide)).1

/-- Header fetches fail. -/
def headersDown : Weather where
  before _ := []
  fails
    | .fetchHeaders _ _ => some (.connectionFailed "timed out")
    | _ => none
  smtpDown := false

/-- Two messages synchronised; then one is removed and one delivered, and the cycle after that
cannot fetch the new header. -/
def swallowedFetch : World :=
  (Task.exec headersDown runSync
    (syncedTwo.drift [("INBOX",.expunge 1),("INBOX",.deliver 0 plainHeader plainBody)])).2

/-- The swallowed failure is written down as absorbed, and every later cycle skips the folder. -/
theorem swallowed_fetch_not_absorbed :
    swallowedFetch.Reachable ImapMessageBody.cached ∧
      swallowedFetch.db.checkpoint "INBOX" = some ((swallowedFetch.server "INBOX").uidValidity,5) ∧
      ¬Absorbed (swallowedFetch.server "INBOX") "INBOX" swallowedFetch.db 5 ∧
      Matches (swallowedFetch.server "INBOX") 5 (swallowedFetch.db.countMessages "INBOX") ∧
      swallowedFetch.db.uids "INBOX" ≠ (swallowedFetch.server "INBOX").uids := by
  have hne : swallowedFetch.db.uids "INBOX" ≠ (swallowedFetch.server "INBOX").uids := by decide
  have hmatch : Matches (swallowedFetch.server "INBOX") 5
    (swallowedFetch.db.countMessages "INBOX") := by decide
  refine ⟨?_,by decide,fun h => hne (h.eq_of_matches hmatch).1,hmatch,hne⟩
  have hsynced : syncedTwo.Reachable ImapMessageBody.cached :=
    reachable_listedTwo.step (e := .cycle calm) rfl
  exact (hsynced.drift _).step (e := .cycle headersDown) rfl

end Rav
