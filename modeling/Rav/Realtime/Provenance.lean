import Rav.Realtime.SyncRows
import Rav.Routes.Messages

/-!
# Where cached rows come from

Rows enter the cache only as headers the server answered with; everything else a task does to
a row keeps its key and its origin. So whatever holds of every header the server may answer
with holds of every cached row.

## Main definitions

- `Db.RowsSatisfy` — a property of folder, UID and origin of every cached row
- `Db.Derived` — every row was there before, up to flags and body; `Db.Trimmed` — up to flags,
  and no checkpoint has moved
- `Call.Stores`, `Call.Serves` — the calls that keep the property, the answers that have it
-/

namespace Rav

/-- Every cached row satisfies `P`. -/
def Db.RowsSatisfy (P : String → Nat → Origin → Prop) (db : Db) : Prop :=
  ∀ f u r, db.message? f u = some r → P f u r.origin

/-- Every row of `db'` is a row of `db` up to flags and body. -/
def Db.Derived (db db' : Db) : Prop :=
  ∀ f u r, db'.message? f u = some r → ∃ s, db.message? f u = some s ∧ s.origin = r.origin

theorem Db.Derived.rowsSatisfy {P : String → Nat → Origin → Prop} {db db' : Db}
    (h : Db.Derived db db') (hP : db.RowsSatisfy P) : db'.RowsSatisfy P := by
  intro f u r hr
  obtain ⟨s,hs,ho⟩ := h f u r hr
  exact ho ▸ hP f u s hs

namespace Db

variable {db db' db'' : Db} {f : String}

theorem Derived.refl (db : Db) : Derived db db := fun _ _ r hr => ⟨r,hr,rfl⟩

theorem Derived.trans (h : Derived db db') (h' : Derived db' db'') : Derived db db'' := by
  intro f u r hr
  obtain ⟨s,hs,ho⟩ := h' f u r hr
  obtain ⟨t,ht,ho'⟩ := h f u s hs
  exact ⟨t,ht,ho'.trans ho⟩

theorem derived_deleteMessagesWhere (p : CachedMessage → Bool) :
    Derived db (db.deleteMessagesWhere p) := by
  intro f u r hr
  rw [message?_deleteMessagesWhere] at hr
  exact ⟨r,(Option.filter_eq_some_iff.mp hr).1,rfl⟩

theorem derived_updateMessagesWhere (p : CachedMessage → Bool) (k : CachedMessage → CachedMessage)
    (hk : ∀ r, (k r).key = r.key) (ho : ∀ r, (k r).origin = r.origin) :
    Derived db (db.updateMessagesWhere p k hk) := by
  intro f u r hr
  rw [message?_updateMessagesWhere] at hr
  obtain ⟨s,hs,rfl⟩ := Option.map_eq_some_iff.mp hr
  refine ⟨s,hs,?_⟩
  split
  · exact (ho s).symm
  · rfl

theorem derived_updateFolder (k : CachedFolder → CachedFolder) (hk : ∀ r, (k r).name = r.name) :
    Derived db (db.updateFolder f k hk) := fun _ _ r hr => ⟨r,hr,rfl⟩

theorem derived_upsertFolder (p : UpsertFolderParams) : Derived db (db.upsertFolder p) :=
  derived_deleteMessagesWhere _

end Db

/-! ### Trimming -/

/-- Every row of `db'` is a row of `db` up to flags, and no checkpoint has moved; a folder may
have got its row. -/
structure Db.Trimmed (db db' : Db) : Prop where
  checkpoint : ∀ f, db'.checkpoint f = db.checkpoint f ∨
    db.checkpoint f = none ∧ db'.checkpoint f = some (0,0)
  rows : ∀ f u r, db'.message? f u = some r →
    ∃ s, db.message? f u = some s ∧ s.origin = r.origin ∧ s.body = r.body

namespace Db

variable {db db' db'' : Db} {f : String}

theorem Trimmed.derived (h : Trimmed db db') : Derived db db' := by
  intro f u r hr
  obtain ⟨s,hs,ho,-⟩ := h.rows f u r hr
  exact ⟨s,hs,ho⟩

theorem Trimmed.refl (db : Db) : Trimmed db db := ⟨fun _ => Or.inl rfl,fun _ _ r hr => ⟨r,hr,rfl,rfl⟩⟩

theorem Trimmed.trans (h : Trimmed db db') (h' : Trimmed db' db'') : Trimmed db db'' where
  checkpoint := by
    intro f
    rcases h'.checkpoint f with he' | ⟨hn',he'⟩
    · rcases h.checkpoint f with he | ⟨hn,he⟩
      · exact Or.inl (he'.trans he)
      · exact Or.inr ⟨hn,he'.trans he⟩
    · rcases h.checkpoint f with he | ⟨-,he⟩
      · exact Or.inr ⟨he ▸ hn',he'⟩
      · rw [hn'] at he
        simp at he
  rows := by
    intro f u r hr
    obtain ⟨s,hs,ho,hb⟩ := h'.rows f u r hr
    obtain ⟨t,ht,ho',hb'⟩ := h.rows f u s hs
    exact ⟨t,ht,ho'.trans ho,hb'.trans hb⟩

theorem trimmed_deleteMessagesWhere (p : CachedMessage → Bool) :
    Trimmed db (db.deleteMessagesWhere p) := by
  refine ⟨fun _ => Or.inl rfl,fun f u r hr => ?_⟩
  rw [message?_deleteMessagesWhere] at hr
  exact ⟨r,(Option.filter_eq_some_iff.mp hr).1,rfl,rfl⟩

theorem trimmed_updateMessageFlags (u : Nat) (csv : String) :
    Trimmed db (db.updateMessageFlags f u csv) := by
  refine ⟨fun _ => Or.inl rfl,fun g v r hr => ?_⟩
  rw [message?_updateMessageFlags] at hr
  obtain ⟨s,hs,rfl⟩ := Option.map_eq_some_iff.mp hr
  refine ⟨s,hs,?_⟩
  split
  · exact ⟨rfl,rfl⟩
  · exact ⟨rfl,rfl⟩

theorem trimmed_of_checkpoint (h : ∀ f, db'.checkpoint f = db.checkpoint f)
    (hm : ∀ f u, db'.message? f u = db.message? f u) : Trimmed db db' :=
  ⟨fun f => Or.inl (h f),fun f u r hr => ⟨r,hm f u ▸ hr,rfl,rfl⟩⟩

end Db

theorem trimmed_applyChanged {db : Db} {f : String} (changed : List (Nat × List String)) :
    Db.Trimmed db (applyChanged f changed db) := by
  induction changed generalizing db with
  | nil => exact Db.Trimmed.refl db
  | cons p ps ih =>
    have h1 : Db.Trimmed db (db.updateMessageFlags f p.1 (sortedFlagsCsv p.2)) :=
      Db.trimmed_updateMessageFlags _ _
    exact h1.trans ih

theorem trimmed_deleteUids {db : Db} {f : String} (us : List Nat) :
    Db.Trimmed db (deleteUids f us db) := by
  induction us generalizing db with
  | nil => exact Db.Trimmed.refl db
  | cons u us ih => exact (Db.trimmed_deleteMessagesWhere _).trans ih

theorem trimmed_reconcile {db : Db} {f : String} (cached imapMap : List (Nat × String)) :
    Db.Trimmed db (reconcile f cached imapMap db).2 := by
  suffices h : ∀ s : Bool × Db, Db.Trimmed s.2 (cached.foldl (reconcileOne f imapMap) s).2 from
    h (false,db)
  induction cached with
  | nil => exact fun s => Db.Trimmed.refl s.2
  | cons p ps ih =>
    intro s
    refine Db.Trimmed.trans ?_ (ih _)
    unfold reconcileOne
    split
    · exact Db.trimmed_deleteMessagesWhere _
    · split
      · exact Db.trimmed_updateMessageFlags _ _
      · exact Db.Trimmed.refl _

/-! ### Tasks -/

section Tasks

variable (P : String → Nat → Origin → Prop)

/-- The call keeps `P` of every row. -/
def Call.Stores : Call → Prop
  | .withUserDb k => ∀ db : Db, db.RowsSatisfy P → (k db).2.RowsSatisfy P
  | _ => True

/-- Every header in the answer satisfies `P`. -/
def Call.Serves : (c : Call) → c.Answer → Prop
  | .imap (.fetchHeaders f _), .ok (hs : List ImapMessageHeader) => ∀ h ∈ hs, P f h.uid h.origin
  | _, _ => True

/-- The task keeps `P` of every row as long as the server's headers satisfy it. -/
abbrev Provenant {α : Type} (t : Task α) : Prop := t.AllWhere (Call.Serves P) (Call.Stores P)

variable {P}

theorem provenant_query {β : Type} (k : Db → β) : Provenant P (Task.query k) :=
  Prog.all_perform (fun _ h => h)

theorem provenant_withUserDb {β : Type} {k : Db → β × Db} (h : ∀ db, Db.Derived db (k db).2) :
    Provenant P (Task.withUserDb k) := Prog.all_perform (fun db hdb => (h db).rowsSatisfy hdb)

theorem provenant_execute {k : Db → Db} (h : ∀ db, Db.Derived db (k db)) :
    Provenant P (Task.execute k) := provenant_withUserDb h

theorem provenant_publish (e : MailEvent) : Provenant P (Task.publish e) := Prog.all_perform trivial

theorem provenant_imap (q : ImapCall) : Provenant P (Task.imap q) := Prog.all_perform trivial

theorem rowsSatisfy_storeHeaders {f : String} {hs : List ImapMessageHeader}
    (h : ∀ k ∈ hs, P f k.uid k.origin) {db : Db} (hdb : db.RowsSatisfy P) :
    (storeHeaders f hs db).RowsSatisfy P := by
  induction hs generalizing db with
  | nil => exact hdb
  | cons k ks ih =>
    rw [storeHeaders,List.foldl_cons]
    refine ih (fun j hj => h j (List.mem_cons_of_mem _ hj)) ?_
    cases hu : db.upsertHeader f k with
    | none => exact hdb
    | some db' =>
      intro g u r hr
      rw [Option.getD_some,(Db.upsertMessage_spec hu).2.1] at hr
      split at hr
      · next hg =>
        obtain ⟨rfl,rfl⟩ := hg
        obtain rfl := Option.some.inj hr
        exact h k List.mem_cons_self
      · exact hdb g u r hr

theorem rowsSatisfy_upsertAndIndexHeaders {f : String} {hs : List ImapMessageHeader}
    (h : ∀ k ∈ hs, P f k.uid k.origin) {db : Db} (hdb : db.RowsSatisfy P) :
    (upsertAndIndexHeaders f hs db).2.RowsSatisfy P := by
  induction hs generalizing db with
  | nil => exact hdb
  | cons k ks ih =>
    unfold upsertAndIndexHeaders
    cases hu : db.upsertHeader f k with
    | none => exact hdb
    | some db' =>
      have hone : storeHeaders f [k] db = db' := by simp [storeHeaders,hu]
      refine ih (fun j hj => h j (List.mem_cons_of_mem _ hj)) ?_
      rw [← hone]
      exact rowsSatisfy_storeHeaders (fun j hj => h j (by simpa using Or.inl (by simpa using hj))) hdb

theorem rowsSatisfy_storeFetched {f : String} {hs : List ImapMessageHeader}
    (h : ∀ k ∈ hs, P f k.uid k.origin) {v n : Nat} {db : Db} (hdb : db.RowsSatisfy P) :
    (storeFetched f hs v n db).2.RowsSatisfy P := by
  have hs' := rowsSatisfy_upsertAndIndexHeaders h hdb
  unfold storeFetched
  dsimp only
  split
  · exact hs'
  · exact hs'

theorem provenant_fetchAndStoreNew (f : String) (n : Nat) : Provenant P (fetchAndStoreNew f n) := by
  refine Prog.AllWhere.perform_bind trivial (fun r hr => ?_)
  rcases r with e | headers
  · trivial
  · dsimp only
    split
    · trivial
    · refine Prog.AllWhere.bind (Prog.all_perform (fun db hdb => ?_)) (fun _ => trivial)
      exact rowsSatisfy_storeHeaders (fun h hm => hr h (List.mem_filter.mp hm).1) hdb

theorem provenant_syncFull (f : String) (st : FolderStatusExtended) : Provenant P (syncFull f st) := by
  refine Prog.AllWhere.bind (provenant_query _) (fun cached => ?_)
  split
  · exact Prog.AllWhere.bind (provenant_execute (fun db => Db.derived_updateFolder _ _))
      (fun _ => trivial)
  · refine Prog.AllWhere.bind (provenant_imap _) (fun r => ?_)
    rcases r with e | imapState
    · trivial
    · refine Prog.AllWhere.bind (provenant_withUserDb (fun db =>
        (trimmed_reconcile _ _).derived.trans (Db.derived_updateFolder _ _))) (fun changed => ?_)
      refine Prog.AllWhere.bind ?_ (fun changed => ?_)
      · unfold fetchNewFull
        split
        · refine Prog.AllWhere.bind (provenant_fetchAndStoreNew f _) (fun r => ?_)
          split
          split
          · exact Prog.AllWhere.bind (provenant_execute (fun db => Db.derived_updateFolder _ _))
              (fun _ => Prog.AllWhere.bind (provenant_publish _) (fun _ => trivial))
          · trivial
        · trivial
      · dsimp only
        split
        · exact Prog.AllWhere.bind (provenant_publish _) (fun _ => trivial)
        · trivial

theorem provenant_removeDeleted (f : String) (vanished : Option (List Nat)) (n k : Nat) :
    Provenant P (removeDeleted f vanished n k) := by
  cases vanished with
  | some us =>
    unfold removeDeleted
    dsimp only
    split
    · trivial
    · exact provenant_withUserDb (fun db => (trimmed_deleteUids _).derived)
  | none =>
    unfold removeDeleted
    dsimp only
    split
    · refine Prog.AllWhere.bind (provenant_imap _) (fun r => ?_)
      rcases r with e | imapState
      · trivial
      · exact provenant_withUserDb (fun db => (trimmed_deleteUids _).derived)
    · trivial

theorem provenant_syncCondstore (f : String) (m : Nat) (st : FolderStatusExtended) :
    Provenant P (syncCondstore f m st) := by
  refine Prog.AllWhere.bind (provenant_imap _) (fun r => ?_)
  rcases r with e | delta
  · exact provenant_syncFull f st
  · refine Prog.AllWhere.bind (provenant_execute (fun db => (trimmed_applyChanged _).derived)) (fun _ => ?_)
    refine Prog.AllWhere.bind (provenant_query _) (fun n => ?_)
    refine Prog.AllWhere.bind (provenant_removeDeleted f _ _ _) (fun removed => ?_)
    refine Prog.AllWhere.bind ?_ (fun fetched => ?_)
    · refine Prog.AllWhere.bind (provenant_query _) (fun k => ?_)
      split
      · refine Prog.AllWhere.bind (provenant_fetchAndStoreNew f _) (fun r => ?_)
        split
        exact Prog.AllWhere.bind (provenant_execute (fun db => Db.derived_updateFolder _ _))
          (fun _ => Prog.AllWhere.bind (provenant_publish _) (fun _ => trivial))
      · trivial
    · refine Prog.AllWhere.bind (provenant_execute (fun db => Db.derived_updateFolder _ _))
        (fun _ => ?_)
      dsimp only
      split
      · exact Prog.AllWhere.bind (provenant_publish _) (fun _ => trivial)
      · trivial

theorem provenant_syncFolder (snap : FolderSnapshot) : Provenant P (syncFolder snap) := by
  refine Prog.AllWhere.bind (provenant_imap _) (fun r => ?_)
  rcases r with e | status
  · trivial
  · dsimp only
    unfold syncStatus
    split
    · exact Prog.AllWhere.bind (provenant_execute (fun db => Db.derived_updateFolder _ _))
        (fun _ => Prog.AllWhere.bind (provenant_publish _) (fun _ => trivial))
    · refine Prog.AllWhere.bind ?_ (fun skip => ?_)
      · unfold unchanged
        split
        · exact Prog.AllWhere.bind (provenant_query _) (fun _ => trivial)
        · trivial
      · split
        · trivial
        · split
          · exact provenant_syncCondstore _ _ _
          · exact provenant_syncFull _ _

theorem provenant_runSync : Provenant P runSync := by
  refine Prog.AllWhere.bind (provenant_query _) (fun snaps => ?_)
  refine Prog.AllWhere.bind ?_ (fun any => ?_)
  · induction snaps with
    | nil => trivial
    | cons s rest ih =>
      exact Prog.AllWhere.bind (provenant_syncFolder s)
        (fun _ => Prog.AllWhere.bind ih (fun _ => trivial))
  · have hidx : Provenant P indexMessageBodies := by
      refine Prog.AllWhere.bind (provenant_query _) (fun unindexed => ?_)
      induction unindexed with
      | nil => trivial
      | cons p rest ih =>
        unfold indexBodies
        split
        · exact ih
        · refine Prog.AllWhere.bind (provenant_imap _) (fun r => ?_)
          rcases r with e | body
          · exact ih
          · exact Prog.AllWhere.bind
              (provenant_execute (fun db => Db.derived_updateMessagesWhere _ _ _ (fun _ => rfl)))
              (fun _ => ih)
    dsimp only
    split
    · exact Prog.AllWhere.bind (provenant_publish _) (fun _ => hidx)
    · exact hidx

theorem provenant_coldStart (f : String) (st : FolderStatus) : Provenant P (coldStart f st) := by
  refine Prog.AllWhere.perform_bind trivial (fun r hr => ?_)
  rcases r with e | headers
  · trivial
  · refine Prog.AllWhere.bind
      (Prog.all_perform (fun db hdb => rowsSatisfy_storeFetched (fun h hm => hr h hm) hdb))
      (fun ok => ?_)
    split
    · trivial
    · split
      · exact Prog.AllWhere.bind (Prog.all_perform trivial) (fun _ => trivial)
      · trivial

theorem provenant_listMessages (f : String) : Provenant P (listMessages f) := by
  refine Prog.AllWhere.bind (provenant_withUserDb (fun db => ?_)) (fun initial => ?_)
  · unfold initialFolderCheck
    split
    · exact Db.Derived.refl db
    · dsimp only
      split
      · exact Db.Derived.refl db
      · exact Db.derived_upsertFolder _
  · cases initial with
    | none => trivial
    | some initial =>
      refine Prog.AllWhere.bind (provenant_imap _) (fun r => ?_)
      rcases r with e | status
      · trivial
      · refine Prog.AllWhere.bind (provenant_withUserDb (fun db => ?_)) (fun outcome => ?_)
        · have hdel : Db.Derived db (if initial.cachedUidValidity ≠ 0 ∧
              initial.cachedUidValidity ≠ status.uidValidity then db.deleteFolderMessages f else db) := by
            split
            · exact Db.derived_deleteMessagesWhere _
            · exact Db.Derived.refl db
          unfold syncOutcome
          dsimp only
          split
          · exact hdel.trans (Db.derived_updateFolder _ _)
          · split
            · exact hdel
            · exact hdel.trans (Db.derived_updateFolder _ _)
        · cases outcome with
          | coldStart => exact provenant_coldStart f status
          | stalePoke => exact Prog.AllWhere.bind (Prog.all_perform trivial) (fun _ => trivial)
          | noSyncNeeded => trivial

theorem provenant_syncRemainingHeaders (p : BackgroundSyncParams) :
    Provenant P (syncRemainingHeaders p) := by
  refine Prog.AllWhere.perform_bind trivial (fun r hr => ?_)
  rcases r with e | headers
  · trivial
  · dsimp only
    split
    · exact provenant_publish _
    · refine Prog.AllWhere.bind
        (Prog.all_perform (fun db hdb => rowsSatisfy_storeFetched (fun h hm => hr h hm) hdb))
        (fun ok => ?_)
      split
      · exact provenant_publish _
      · trivial

theorem provenant_getMessage (stored : ImapMessageBody → CachedBody) (f : String) (u : Nat) :
    Provenant P (getMessage stored f u) := by
  refine Prog.AllWhere.bind (provenant_query _) (fun cached => ?_)
  cases cached with
  | some c => trivial
  | none =>
    refine Prog.AllWhere.bind (provenant_imap _) (fun r => ?_)
    rcases r with e | body
    · exact Prog.AllWhere.bind (provenant_execute (fun db =>
        (Db.derived_deleteMessagesWhere _).trans (Db.derived_updateFolder _ _))) (fun _ => trivial)
    · exact Prog.AllWhere.bind (provenant_execute (fun db =>
        Db.derived_updateMessagesWhere _ _ _ (fun _ => rfl))) (fun _ => trivial)

end Tasks

/-! ### Whole tasks -/

/-- What holds of every header any mailbox can answer with is kept of every cached row by a task
that stores headers only as answered. -/
theorem exec_rowsSatisfy {α : Type} {P : String → Nat → Origin → Prop} {t : Task α}
    (hP : ∀ (b : Mailbox) f set, ∀ h ∈ b.headers set, P f h.uid h.origin) (ht : Provenant P t)
    {weather : Weather} {w : World} (hw : w.db.RowsSatisfy P) :
    (Task.exec weather t w).2.db.RowsSatisfy P := by
  refine Prog.run_invariant (P := fun s : World => s.db.RowsSatisfy P) ?_ ?_ ht hw
  · intro c s _
    cases c with
    | imap q =>
      cases q with
      | fetchHeaders f set =>
        simp only [handle]
        cases weather.fails (.fetchHeaders f set) with
        | some e => trivial
        | none => exact hP _ f set
      | _ => trivial
    | _ => trivial
  · intro c s hc hs
    cases c with
    | imap q => rwa [handle_imap_db]
    | withUserDb k => exact hc s.db hs
    | sendMessage m =>
      simp only [handle]
      split
      · exact hs
      · exact hs
    | _ => exact hs

end Rav
