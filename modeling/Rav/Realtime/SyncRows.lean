import Rav.Realtime.Sync

/-!
# What the loops of a sync cycle do to the rows of a folder

Each loop of the sync paths is described by the row it leaves under each UID, and leaves other
folders and all folder rows alone.
-/

namespace Rav

variable {db : Db} {f g : String} {u : Nat}

/-! ### Storing headers -/

theorem folder?_storeHeaders (hs : List ImapMessageHeader) :
    (storeHeaders f hs db).folder? g = db.folder? g := by
  induction hs generalizing db with
  | nil => rfl
  | cons h hs ih =>
    rw [storeHeaders,List.foldl_cons]
    refine ih.trans ?_
    cases hu : db.upsertHeader f h with
    | none => rfl
    | some db' => exact (Db.upsertMessage_spec hu).1 g

theorem message?_storeHeaders_of_ne (hs : List ImapMessageHeader) (hg : g ≠ f) :
    (storeHeaders f hs db).message? g u = db.message? g u := by
  induction hs generalizing db with
  | nil => rfl
  | cons h hs ih =>
    rw [storeHeaders,List.foldl_cons]
    refine ih.trans ?_
    cases hu : db.upsertHeader f h with
    | none => rfl
    | some db' => simp [(Db.upsertMessage_spec hu).2.1,hg]

/-- The row under a UID after storing headers: that of a stored header, or the old one. -/
theorem message?_storeHeaders (hrow : (db.folder? f).isSome) (hs : List ImapMessageHeader) (u : Nat) :
    (∃ h ∈ hs, h.uid = u ∧ (storeHeaders f hs db).message? f u = some (h.row f)) ∨
      (∀ h ∈ hs, h.uid ≠ u) ∧ (storeHeaders f hs db).message? f u = db.message? f u := by
  induction hs generalizing db with
  | nil => exact Or.inr ⟨by simp,rfl⟩
  | cons h hs ih =>
    obtain ⟨db',hu⟩ : ∃ db', db.upsertHeader f h = some db' :=
      Option.isSome_iff_exists.mp ((Db.upsertMessage_isSome _).mpr hrow)
    obtain ⟨hf,hm,-⟩ := Db.upsertMessage_spec hu
    have hs' : storeHeaders f (h :: hs) db = storeHeaders f hs db' := by
      simp [storeHeaders,hu]
    rw [hs']
    rcases ih (by rw [hf]; exact hrow) with ⟨k,hk,hku,hr⟩ | ⟨hn,hr⟩
    · exact Or.inl ⟨k,List.mem_cons_of_mem _ hk,hku,hr⟩
    · by_cases he : h.uid = u
      · refine Or.inl ⟨h,List.mem_cons_self,he,hr.trans ?_⟩
        rw [hm,if_pos ⟨rfl,he.symm⟩]
        rfl
      · refine Or.inr ⟨List.forall_mem_cons.mpr ⟨he,hn⟩,hr.trans ?_⟩
        rw [hm,if_neg (fun hc => he hc.2.symm)]

theorem uids_storeHeaders (hrow : (db.folder? f).isSome) (hs : List ImapMessageHeader) :
    (storeHeaders f hs db).uids f = db.uids f ∪ (hs.map ImapMessageHeader.uid).toFinset := by
  ext u
  rw [Db.mem_uids_iff_isSome,Finset.mem_union,Db.mem_uids_iff_isSome,List.mem_toFinset,List.mem_map]
  rcases message?_storeHeaders hrow hs u with ⟨h,hh,hu,hr⟩ | ⟨hn,hr⟩
  · simp only [hr,Option.isSome_some,true_iff]
    exact Or.inr ⟨h,hh,hu⟩
  · rw [hr]
    constructor
    · exact Or.inl
    · rintro (h | ⟨h,hh,hu⟩)
      · exact h
      · exact absurd hu (hn h hh)

/-! ### Changed flags -/

theorem folder?_applyChanged (changed : List (Nat × List String)) :
    (applyChanged f changed db).folder? g = db.folder? g := by
  induction changed generalizing db with
  | nil => rfl
  | cons p ps ih =>
    rw [applyChanged,List.foldl_cons]
    exact ih

theorem message?_applyChanged_of_ne (changed : List (Nat × List String)) (hg : g ≠ f) :
    (applyChanged f changed db).message? g u = db.message? g u := by
  induction changed generalizing db with
  | nil => rfl
  | cons p ps ih =>
    rw [applyChanged,List.foldl_cons]
    refine ih.trans ?_
    simp [Db.message?_updateMessageFlags,hg]

/-- The row under a UID after applying changed flags: with the flags of a change, or the old. -/
theorem message?_applyChanged (changed : List (Nat × List String)) (u : Nat) :
    (∃ p ∈ changed, p.1 = u ∧ (applyChanged f changed db).message? f u =
        (db.message? f u).map (fun r => r.setFlags (sortedFlagsCsv p.2))) ∨
      (∀ p ∈ changed, p.1 ≠ u) ∧ (applyChanged f changed db).message? f u = db.message? f u := by
  induction changed generalizing db with
  | nil => exact Or.inr ⟨by simp,rfl⟩
  | cons p ps ih =>
    have hs : applyChanged f (p :: ps) db =
        applyChanged f ps (db.updateMessageFlags f p.1 (sortedFlagsCsv p.2)) := rfl
    rw [hs]
    by_cases he : p.1 = u
    · rcases @ih (db.updateMessageFlags f p.1 (sortedFlagsCsv p.2)) with
        ⟨q,hq,hqu,hr⟩ | ⟨hn,hr⟩
      · refine Or.inl ⟨q,List.mem_cons_of_mem _ hq,hqu,hr.trans ?_⟩
        rw [Db.message?_updateMessageFlags,Option.map_map]
        congr 1
        funext r
        simp only [Function.comp_apply]
        split <;> rfl
      · refine Or.inl ⟨p,List.mem_cons_self,he,hr.trans ?_⟩
        simp [Db.message?_updateMessageFlags,he]
    · have hk : (db.updateMessageFlags f p.1 (sortedFlagsCsv p.2)).message? f u = db.message? f u := by
        simp [Db.message?_updateMessageFlags,Ne.symm he]
      rcases @ih (db.updateMessageFlags f p.1 (sortedFlagsCsv p.2)) with
        ⟨q,hq,hqu,hr⟩ | ⟨hn,hr⟩
      · exact Or.inl ⟨q,List.mem_cons_of_mem _ hq,hqu,by rw [hr,hk]⟩
      · exact Or.inr ⟨List.forall_mem_cons.mpr ⟨he,hn⟩,by rw [hr,hk]⟩

theorem uids_applyChanged (changed : List (Nat × List String)) :
    (applyChanged f changed db).uids f = db.uids f := by
  refine Db.uids_congr (fun u => ?_)
  rcases @message?_applyChanged db f changed u with ⟨p,-,-,hr⟩ | ⟨-,hr⟩ <;> simp [hr]

/-! ### Deletions -/

theorem folder?_deleteUids (us : List Nat) : (deleteUids f us db).folder? g = db.folder? g := by
  induction us generalizing db with
  | nil => rfl
  | cons v vs ih =>
    rw [deleteUids,List.foldl_cons]
    exact ih

theorem message?_deleteUids (us : List Nat) :
    (deleteUids f us db).message? g u = if g = f ∧ u ∈ us then none else db.message? g u := by
  induction us generalizing db with
  | nil => simp [deleteUids]
  | cons v vs ih =>
    rw [deleteUids,List.foldl_cons]
    refine ih.trans ?_
    rw [Db.message?_deleteMessage]
    by_cases hg : g = f <;> by_cases hv : u = v <;> by_cases hm : u ∈ vs <;> simp [hg,hv,hm]

theorem uids_deleteUids (us : List Nat) : (deleteUids f us db).uids f = db.uids f \ us.toFinset := by
  ext u
  rw [Db.mem_uids_iff_isSome,message?_deleteUids,Finset.mem_sdiff,Db.mem_uids_iff_isSome,
    List.mem_toFinset]
  by_cases hu : u ∈ us <;> simp [hu]

theorem mem_getAllUidsAndFlags {p : Nat × String} :
    p ∈ db.getAllUidsAndFlags f ↔ ∃ r, db.message? f p.1 = some r ∧ r.flags = p.2 := by
  simp only [Db.getAllUidsAndFlags,List.mem_map]
  constructor
  · rintro ⟨r,hr,rfl⟩
    exact ⟨r,Db.mem_rowsOf_iff.mp hr,rfl⟩
  · rintro ⟨r,hr,hp⟩
    have hu : r.uid = p.1 := (Db.message?_eq_some.mp hr).2.1
    exact ⟨r,Db.mem_rowsOf_iff.mpr (hu ▸ hr),by rw [hu,hp]⟩

theorem mem_fst_getAllUidsAndFlags :
    u ∈ (db.getAllUidsAndFlags f).map Prod.fst ↔ u ∈ db.uids f := by
  rw [Db.getAllUidsAndFlags,List.map_map,Db.uids,List.mem_toFinset]
  rfl

theorem message?_removeGone (us : List Nat) :
    (removeGone f us db).2.message? f u = if u ∈ us then db.message? f u else none := by
  simp only [removeGone,message?_deleteUids,List.mem_filter,mem_fst_getAllUidsAndFlags,
    decide_eq_true_eq]
  by_cases hu : u ∈ us
  · simp [hu]
  · cases hm : db.message? f u with
    | none => simp
    | some r =>
      have hc : u ∈ db.uids f := Db.mem_uids.mpr ⟨r,hm⟩
      simp [hu,hc]

theorem uids_removeGone (us : List Nat) :
    (removeGone f us db).2.uids f = db.uids f ∩ us.toFinset := by
  ext u
  rw [Db.mem_uids_iff_isSome,message?_removeGone,Finset.mem_inter,Db.mem_uids_iff_isSome,
    List.mem_toFinset]
  by_cases hu : u ∈ us <;> simp [hu]

/-! ### Reconciliation -/

theorem folder?_reconcile (cached imapMap : List (Nat × String)) :
    (reconcile f cached imapMap db).2.folder? g = db.folder? g := by
  suffices h : ∀ s : Bool × Db, (cached.foldl (reconcileOne f imapMap) s).2.folder? g =
      s.2.folder? g from h _
  induction cached with
  | nil => intro s; rfl
  | cons p ps ih =>
    intro s
    rw [List.foldl_cons,ih]
    unfold reconcileOne
    split
    · rfl
    · split <;> rfl

theorem message?_reconcile_of_ne (cached imapMap : List (Nat × String)) (hg : g ≠ f) :
    (reconcile f cached imapMap db).2.message? g u = db.message? g u := by
  suffices h : ∀ s : Bool × Db, (cached.foldl (reconcileOne f imapMap) s).2.message? g u =
      s.2.message? g u from h _
  induction cached with
  | nil => intro s; rfl
  | cons p ps ih =>
    intro s
    rw [List.foldl_cons,ih]
    unfold reconcileOne
    split
    · simp [Db.message?_deleteMessage,hg]
    · split
      · simp [Db.message?_updateMessageFlags,hg]
      · rfl

/-- What reconciliation makes of a cached row, given the server's flags under its UID. -/
def reconciled (r : CachedMessage) : Option String → Option CachedMessage
  | none => none
  | some csv => some (if sortSep ',' r.flags ≠ csv then r.setFlags csv else r)

private theorem message?_reconcileOne (imapMap : List (Nat × String)) (s : Bool × Db)
    {p : Nat × String} {r : CachedMessage} (hr : s.2.message? f p.1 = some r) (hp : r.flags = p.2) :
    (reconcileOne f imapMap s p).2.message? f u =
      if u = p.1 then reconciled r (mapGet imapMap p.1) else s.2.message? f u := by
  unfold reconcileOne
  by_cases hu : u = p.1
  · subst hu
    cases hm : mapGet imapMap p.1 with
    | none => simp [Db.message?_deleteMessage,reconciled]
    | some csv =>
      by_cases hne : sortSep ',' p.2 ≠ csv
      · simp [Db.message?_updateMessageFlags,reconciled,hne,hr,hp]
      · simp [reconciled,hne,hr,hp]
  · cases hm : mapGet imapMap p.1 with
    | none => simp [Db.message?_deleteMessage,hu]
    | some csv =>
      by_cases hne : sortSep ',' p.2 ≠ csv
      · simp [Db.message?_updateMessageFlags,hne,hu]
      · simp [hne,hu]

private theorem message?_foldl_reconcileOne (imapMap cached : List (Nat × String)) (s : Bool × Db)
    (hnd : (cached.map Prod.fst).Nodup)
    (hc : ∀ p ∈ cached, ∃ r, s.2.message? f p.1 = some r ∧ r.flags = p.2) :
    (cached.foldl (reconcileOne f imapMap) s).2.message? f u =
      if u ∈ cached.map Prod.fst then (s.2.message? f u).bind (fun r => reconciled r (mapGet imapMap u))
      else s.2.message? f u := by
  induction cached generalizing s with
  | nil => simp
  | cons p ps ih =>
    obtain ⟨hp,hnd⟩ := List.nodup_cons.mp hnd
    obtain ⟨r,hr,hrp⟩ := hc p List.mem_cons_self
    have hone := fun v => message?_reconcileOne (u := v) imapMap s hr hrp
    have hps : ∀ q ∈ ps, ∃ r, (reconcileOne f imapMap s p).2.message? f q.1 = some r ∧ r.flags = q.2 := by
      intro q hq
      have hne : q.1 ≠ p.1 := fun he => hp (List.mem_map.mpr ⟨q,hq,he⟩)
      rw [hone,if_neg hne]
      exact hc q (List.mem_cons_of_mem _ hq)
    rw [List.foldl_cons,ih _ hnd hps,hone]
    by_cases hu : u = p.1
    · subst hu
      simp [hp,hr]
    · have hmem : u ∈ (p :: ps).map Prod.fst ↔ u ∈ ps.map Prod.fst := by
        rw [List.map_cons,List.mem_cons,or_iff_right hu]
      simp only [hmem,if_neg hu]

/-- Reconciling a whole folder: rows the server lacks go, the others take the server's flags. -/
theorem message?_reconcile (imapMap : List (Nat × String)) :
    (reconcile f (db.getAllUidsAndFlags f) imapMap db).2.message? f u =
      (db.message? f u).bind (fun r => reconciled r (mapGet imapMap u)) := by
  have hnd : ((db.getAllUidsAndFlags f).map Prod.fst).Nodup := by
    rw [Db.getAllUidsAndFlags,List.map_map]
    exact Db.nodup_uids
  rw [reconcile,message?_foldl_reconcileOne imapMap _ _ hnd (fun p hp => mem_getAllUidsAndFlags.mp hp)]
  by_cases hu : u ∈ db.uids f
  · rw [if_pos (mem_fst_getAllUidsAndFlags.mpr hu)]
  · rw [if_neg (fun h => hu (mem_fst_getAllUidsAndFlags.mp h))]
    cases hm : db.message? f u with
    | none => rfl
    | some r => exact absurd (Db.mem_uids.mpr ⟨r,hm⟩) hu

/-- A reconciled row holds the flags it was reconciled with. -/
theorem flagSet_reconciled {r s : CachedMessage} {flags : List String}
    (h : reconciled r (some (sortedFlagsCsv flags)) = some s) :
    flagSet s.flags = flagSet (flagsCsv flags) := by
  simp only [reconciled,Option.some.injEq] at h
  subst h
  split
  · exact flagSet_sortedFlagsCsv flags
  · next hne =>
    have he : sortSep ',' r.flags = sortedFlagsCsv flags := not_not.mp hne
    rw [← flagSet_sortedFlagsCsv,← he]
    exact fields_sortSep.symm

@[simp] theorem reconciled_origin {r s : CachedMessage} {csv : Option String}
    (h : reconciled r csv = some s) : s.origin = r.origin := by
  cases csv with
  | none => simp [reconciled] at h
  | some csv =>
    simp only [reconciled,Option.some.injEq] at h
    subst h
    split <;> rfl

end Rav
