import Rav.Checkpoint

/-!
# What vanishes with QRESYNC

The server names what it removed in ranges of UIDs, the client expands them, and the CONDSTORE
path deletes what the expansion lists before it writes the new checkpoint down. Between the
server's ranges and the deleted rows stands `expandRanges`, which drops a whole response for
one oversized range and reads a descending range as empty.

## Main definitions

- `handleExchange` — a server whose QRESYNC exchange is given
- `QresyncExchange.NamesUid` — the UIDs its `VANISHED` responses stand for
- `QresyncExchange.Spelled` — the UIDs named in a way the client can expand
-/

namespace Rav

/-- Some range of a `VANISHED` response stands for the UID. -/
def QresyncExchange.NamesUid (x : QresyncExchange) (uid : Nat) : Prop :=
  ∃ ranges ∈ vanishedLists x.responses, ∃ r ∈ ranges, r.Names uid

/-- The UID lies in an ascending range of a `VANISHED` response that has no oversized range. -/
def QresyncExchange.Spelled (x : QresyncExchange) (uid : Nat) : Prop :=
  ∃ ranges ∈ vanishedLists x.responses, Expandable ranges ∧
    ∃ r ∈ ranges, r.start ≤ uid ∧ uid ≤ r.stop

instance (x : QresyncExchange) (uid : Nat) : Decidable (x.NamesUid uid) := by
  unfold QresyncExchange.NamesUid; infer_instance

instance (x : QresyncExchange) (uid : Nat) : Decidable (x.Spelled uid) := by
  unfold QresyncExchange.Spelled; infer_instance

/-- As `handle`, but a change fetch that may use QRESYNC is answered by the given exchange. -/
def handleExchange (x : QresyncExchange) (weather : Weather) : (c : Call) → World → c.Answer × World
  | .imap (.fetchChangedFlags f m v),w =>
    match (if 0 < v ∧ 0 < m then tryQresync x else none) with
    | some delta => (.ok delta,w)
    | none => handle weather (.imap (.fetchChangedFlags f m v)) w
  | c,w => handle weather c w

/-- Every call but the change fetch. -/
def Call.NotChangeFetch : Call → Prop
  | .imap (.fetchChangedFlags _ _ _) => False
  | _ => True

theorem handleExchange_eq {x : QresyncExchange} {weather : Weather} (c : Call)
    (h : c.NotChangeFetch) : handleExchange x weather c = handle weather c := by
  funext w
  cases c with
  | imap q =>
    cases q with
    | fetchChangedFlags f m v => exact h.elim
    | _ => rfl
  | _ => rfl

/-- The path asks for changes once. -/
theorem applyDelta_notChangeFetch (f : String) (st : FolderStatusExtended) (delta : ChangedFlags) :
    (applyDelta f st delta).All Call.NotChangeFetch := by
  refine Prog.AllWhere.bind (Prog.all_perform trivial) (fun _ => ?_)
  refine Prog.AllWhere.bind (Prog.all_perform trivial) (fun n => ?_)
  refine Prog.AllWhere.bind ?_ (fun removed => ?_)
  · cases delta.vanished with
    | some us =>
      unfold removeDeleted
      dsimp only
      split
      · trivial
      · exact Prog.all_perform trivial
    | none =>
      unfold removeDeleted
      dsimp only
      split
      · refine Prog.AllWhere.bind (Prog.all_perform trivial) (fun r => ?_)
        rcases r with e | imapState
        · trivial
        · exact Prog.all_perform trivial
      · trivial
  refine Prog.AllWhere.bind ?_ (fun fetched => ?_)
  · refine Prog.AllWhere.bind (Prog.all_perform trivial) (fun k => ?_)
    split
    · refine Prog.AllWhere.bind ?_ (fun r => ?_)
      · refine Prog.AllWhere.bind (Prog.all_perform trivial) (fun r => ?_)
        rcases r with e | headers
        · trivial
        · dsimp only
          split
          · trivial
          · exact Prog.AllWhere.bind (Prog.all_perform trivial) (fun _ => trivial)
      · split
        exact Prog.AllWhere.bind (Prog.all_perform trivial)
          (fun _ => Prog.AllWhere.bind (Prog.all_perform trivial) (fun _ => trivial))
    · trivial
  · refine Prog.AllWhere.bind (Prog.all_perform trivial) (fun _ => ?_)
    dsimp only
    split
    · exact Prog.AllWhere.bind (Prog.all_perform trivial) (fun _ => trivial)
    · trivial

variable {x : QresyncExchange} {weather : Weather} {w : World} {f : String} {delta : ChangedFlags}
  {st : FolderStatusExtended} {v k m : Nat}

/-- Where the exchange completes, the path goes on with what it reports. -/
theorem run_syncCondstore (hx : tryQresync x = some delta) (hv : 0 < st.uidValidity) (hm : 0 < m) :
    (syncCondstore f m st).run (handleExchange x weather) w =
      Task.exec weather (applyDelta f st delta) w := by
  have hcall : (Task.imap (.fetchChangedFlags f m st.uidValidity)).run (handleExchange x weather) w =
      (.ok delta,w) := by
    change handleExchange x weather (.imap (.fetchChangedFlags f m st.uidValidity)) w = _
    simp only [handleExchange,hv,hm,and_self,if_true,hx]
    rfl
  simp only [syncCondstore,Prog.run_bind,hcall]
  exact Prog.run_congr handleExchange_eq (applyDelta_notChangeFetch f st delta) w

/-- The UIDs and the checkpoint the path leaves where the server lists what vanished. -/
theorem exec_applyDelta (hw : Steady weather) (hc : w.db.checkpoint f = some (v,k)) {us : List Nat}
    (hd : delta.vanished = some us) :
    let w' := (Task.exec weather (applyDelta f st delta) w).2
    w'.db.uids f ⊆ (w.db.uids f \ us.toFinset) ∪ (w.server f).uids ∧
      w.db.uids f \ us.toFinset ⊆ w'.db.uids f ∧
      w'.db.checkpoint f = some (st.uidValidity,finalModseq delta st) := by
  intro w'
  have hrow := folder?_isSome_of_checkpoint hc
  set db₁ := deleteUids f us (applyChanged f delta.changed w.db) with hdb₁
  have hrow₁ : db₁.folder? f = w.db.folder? f := by
    rw [hdb₁,folder?_deleteUids,folder?_applyChanged]
  have huids₁ : db₁.uids f = w.db.uids f \ us.toFinset := by
    rw [hdb₁,uids_deleteUids,uids_applyChanged]
  have hrem : ∀ n, (Task.exec weather (removeDeleted f delta.vanished st.exists_ n)
      { w with db := applyChanged f delta.changed w.db }).2 = { w with db := db₁ } := by
    intro n
    rw [hd]
    unfold removeDeleted
    by_cases he : us.isEmpty = true
    · rw [hdb₁,List.isEmpty_iff.mp he]
      rfl
    · simp only [he]
      rfl
  obtain ⟨hs,hdb⟩ : ∃ hs : List ImapMessageHeader,
      (∀ h ∈ hs, ∃ msg ∈ (w.server f).messages, (w.server f).stamp msg = h) ∧
      Db.SameRows f (storeHeaders f hs db₁)
        (Task.exec weather (fetchNewCondstore f st.uidNext) { w with db := db₁ }).2.db := by
    rw [fetchNewCondstore,Task.exec_query_bind]
    dsimp only
    by_cases hlt : succU32 (db₁.maxUid f) < st.uidNext
    · rw [if_pos hlt]
      simp only [Task.exec_bind,Task.exec_execute,Task.exec_publish,Task.exec_pure,
        (exec_fetchAndStoreNew hw _).1]
      exact ⟨_,newHeaders_stamps,Db.sameRows_refreshUnreadCount⟩
    · rw [if_neg hlt]
      exact ⟨[],by simp,Db.SameRows.refl _ _⟩
  have hend : Db.SameRows f ((storeHeaders f hs db₁).updateFolderSyncStatus f st.uidValidity
      st.exists_ (finalModseq delta st)) w'.db := by
    simp only [w',applyDelta,Task.exec_bind,Task.exec_execute,Task.exec_query,hrem]
    split
    · exact hdb.2.updateFolderSyncStatus _ _ _
    · exact hdb.2.updateFolderSyncStatus _ _ _
  have huids : w'.db.uids f = db₁.uids f ∪ (hs.map ImapMessageHeader.uid).toFinset := by
    rw [hend.uids,Db.uids_updateFolderSyncStatus,uids_storeHeaders (by rwa [hrow₁])]
  refine ⟨?_,?_,?_⟩
  · rw [huids,huids₁]
    refine Finset.union_subset_union_right (fun u hu => ?_)
    obtain ⟨h',hh,rfl⟩ := List.mem_map.mp (List.mem_toFinset.mp hu)
    obtain ⟨msg,hmsg,rfl⟩ := hdb.1 h' hh
    exact Mailbox.mem_uids.mpr ⟨msg,hmsg,rfl⟩
  · rw [huids,huids₁]
    exact Finset.subset_union_left
  · rw [hend.1,Db.checkpoint_updateFolderSyncStatus,
      Db.checkpoint_congr (fun g => folder?_storeHeaders _),Db.checkpoint,hrow₁,← Db.checkpoint,hc]
    simp

/-- After the path has written its checkpoint down, no cached UID is one the server named as
vanished, exactly if each that was cached was spelled so that the client can expand it. The
server does not name UIDs it still has. -/
theorem vanished_removed_iff (hw : Steady weather) (hx : tryQresync x = some delta)
    (hv : 0 < st.uidValidity) (hm : 0 < m) (hc : w.db.checkpoint f = some (v,k))
    (hgone : ∀ u ∈ (w.server f).uids, ¬x.NamesUid u) :
    let w' := ((syncCondstore f m st).run (handleExchange x weather) w).2
    w'.db.checkpoint f = some (st.uidValidity,finalModseq delta st) ∧
      ((∀ u ∈ w'.db.uids f, ¬x.NamesUid u) ↔ ∀ u ∈ w.db.uids f, x.NamesUid u → x.Spelled u) := by
  intro w'
  obtain ⟨us,hus,hmem⟩ := tryQresync_vanished hx
  obtain ⟨hsub,hsup,hcheck⟩ := @exec_applyDelta _ _ _ _ st _ _ hw hc _ hus
  have hw' : w' = (Task.exec weather (applyDelta f st delta) w).2 := by
    rw [← run_syncCondstore hx hv hm]
  rw [← hw'] at hsub hsup hcheck
  refine ⟨hcheck,?_,?_⟩
  · intro h u hu hn
    by_contra hspell
    have hkept : u ∈ w.db.uids f \ us.toFinset :=
      Finset.mem_sdiff.mpr ⟨hu,fun hin => hspell ((hmem u).mp (List.mem_toFinset.mp hin))⟩
    exact h u (hsup hkept) hn
  · intro h u hu hn
    rcases Finset.mem_union.mp (hsub hu) with hkept | hfetched
    · obtain ⟨hin,hout⟩ := Finset.mem_sdiff.mp hkept
      exact hout (List.mem_toFinset.mpr ((hmem u).mpr (h u hin hn)))
    · exact hgone u hfetched hn

/-- Both messages of the synchronised folder are removed. -/
def emptiedTwo : World := syncedTwo.drift [("INBOX",.expunge 1),("INBOX",.expunge 2)]

theorem vanished_removed_emptiedTwo :
    let w' := ((syncCondstore "INBOX" 3 (emptiedTwo.server "INBOX").statusExtended).run
      (handleExchange ⟨true,true,[.vanished [⟨1,2⟩],.done true true]⟩ calm) emptiedTwo).2
    w'.db.checkpoint "INBOX" = some (1,5) ∧ ∀ u ∈ w'.db.uids "INBOX",
      ¬QresyncExchange.NamesUid ⟨true,true,[.vanished [⟨1,2⟩],.done true true]⟩ u :=
  have h := @vanished_removed_iff _ _ _ "INBOX" ⟨[],some [1,2],0⟩
    (emptiedTwo.server "INBOX").statusExtended 1 3 _ steady_calm (by decide) (by decide) (by decide)
    (by decide) (by decide)
  ⟨h.1.trans (by decide),h.2.mpr (by decide)⟩

/-- One range of more than a hundred thousand UIDs, or one written downwards, and the cached UIDs
it names stay behind the new checkpoint. -/
theorem vanished_range_dropped :
    (∃ u ∈ ((syncCondstore "INBOX" 3 (emptiedTwo.server "INBOX").statusExtended).run (handleExchange
      ⟨true,true,[.vanished [⟨1,100001⟩],.done true true]⟩ calm) emptiedTwo).2.db.uids "INBOX",
      QresyncExchange.NamesUid ⟨true,true,[.vanished [⟨1,100001⟩],.done true true]⟩ u) ∧
    (∃ u ∈ ((syncCondstore "INBOX" 3 (emptiedTwo.server "INBOX").statusExtended).run (handleExchange
      ⟨true,true,[.vanished [⟨2,1⟩],.done true true]⟩ calm) emptiedTwo).2.db.uids "INBOX",
      QresyncExchange.NamesUid ⟨true,true,[.vanished [⟨2,1⟩],.done true true]⟩ u) ∧
    ((syncCondstore "INBOX" 3 (emptiedTwo.server "INBOX").statusExtended).run (handleExchange
      ⟨true,true,[.vanished [⟨1,100001⟩],.done true true]⟩ calm) emptiedTwo).2.db.checkpoint "INBOX" =
      some (1,5) := by
  decide

end Rav
