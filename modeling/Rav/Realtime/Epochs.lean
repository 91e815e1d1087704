import Rav.Runs
import Rav.Outline
import Rav.Routes.MessagesSpec
import Rav.Realtime.Provenance

/-!
# Interleaved tasks and their discipline

Folder listings, background fetches and sync cycles of one account in progress at the same time.
A task starts with the database call it opens with; from then on every step is one call of one
task, or something that happens to the server or the database in between.

`Sheltered` steps are those that keep a folder's UIDVALIDITY in place while some task works under
it: the folder is not rebuilt while a task is engaged with it, and a body is only fetched for a
folder whose cache is under the server's UIDVALIDITY.

A write to a folder's cache is safe where the server's UIDVALIDITY has not moved since the task
learnt it and the cache is `Clean`: under that validity already, or empty. Every task that fills
the cache follows this discipline, and no call of one task takes it from another.

## Main definitions

- `Footing` — what a task in progress goes by
- `Pool`, `PoolEvent`, `Pool.step` — tasks in progress over a world
- `Pool.Sheltered` — the steps that leave the tasks their footing
- `Db.EpochCorrect` — every row was fetched under the validity its folder is stored with
- `World.Clean`, `World.Fixed` — what tasks rely on about a folder
- `World.Consistent` — the invariant
- `epochs` — the discipline
- `outline_syncSnapshots`, `outline_listStale`, `outline_syncRemainingHeaders` — the tasks follow it
-/

namespace Rav

/-- The stored UIDVALIDITY of a folder, `0` without a row. -/
def Db.uidValidity (db : Db) (f : String) : Nat := ((db.checkpoint f).map Prod.fst).getD 0

/-- The server's UIDVALIDITY of a folder. -/
def World.epoch (w : World) (f : String) : Nat := (w.server f).uidValidity

/-- The row and its body were fetched under UIDVALIDITY `v`. -/
def CachedMessage.Under (v : Nat) (r : CachedMessage) : Prop :=
  r.origin.uidValidity = v ∧ ∀ b, r.body = some b → b.origin.uidValidity = v

/-- Every cached row was fetched under the UIDVALIDITY stored for its folder. -/
def Db.EpochCorrect (db : Db) : Prop :=
  ∀ f u r, db.message? f u = some r → r.Under (db.uidValidity f)

/-- What a task in progress goes by: the validities it has read from the cache for folders whose
STATUS it has yet to see, and the folder the server has last answered it about. -/
structure Footing where
  read : List (String × Nat)
  on : Option String

/-- The task works under the folder's UIDVALIDITY, or has taken the folder for one never synced. -/
def Footing.Engaged (g : Footing) (f : String) : Prop := g.on = some f ∨ (f,0) ∈ g.read

instance (g : Footing) (f : String) : Decidable (g.Engaged f) :=
  inferInstanceAs (Decidable (_ ∨ _))

/-- The server's word on a folder, or none where the call failed. -/
def Footing.told {ε ρ : Type} (g : Footing) (f : String) (r : Except ε ρ) : Footing where
  read := g.read.filter (fun p => p.1 ≠ f)
  on := match r with
    | .ok _ => some f
    | .error _ => none

def Footing.next (g : Footing) : (c : Call) → c.Answer → Footing
  | .imap (.folderStatus f), r => g.told f r
  | .imap (.folderStatusExtended f), r => g.told f r
  | .imap (.fetchBody f _), r => g.told f r
  | _, _ => g

/-- Tasks in progress over a world. -/
structure Pool where
  world : World
  tasks : List (Footing × Task Unit)

inductive PoolEvent
  | server (f : String) (c : Change)
  | tick (secs : Nat)
  | setDeepIndex (on : Bool)
  | listFolders (f : String) (delimiter : Option String) (csv : String)
  | listMessages (f : String)
  | runSync
  | background (i : Nat)
  | call (i : Nat) (fails : Option ImapError)

/-- Every IMAP call is answered at once, or fails. -/
def answering (fails : Option ImapError) : Weather := ⟨fun _ => [],fun _ => fails,false⟩

namespace Pool

variable (p : Pool)

/-- A task enters with its first call. -/
def enter (g : Footing) (t : Task Unit) : Pool :=
  let s := Prog.step (handle calm) (t,p.world)
  ⟨s.2,p.tasks ++ [(g,s.1)]⟩

def listingTask (f : String) : Task Unit := listMessages f >>= fun _ => pure ()

def step : PoolEvent → Option Pool
  | .server f c => ((p.world.server f).apply c).map (fun b =>
      { p with world := { p.world with server := Function.update p.world.server f b } })
  | .tick secs =>
    some { p with world := { p.world with db := { p.world.db with now := p.world.db.now + secs } } }
  | .setDeepIndex on =>
    some { p with world := { p.world with db := { p.world.db with deepIndex := on } } }
  | .listFolders f delimiter csv =>
    some { p with world := { p.world with db := p.world.db.insertFolderIfNew f delimiter csv } }
  | .listMessages f => some (p.enter ⟨[(f,p.world.db.uidValidity f)],none⟩ (listingTask f))
  | .runSync =>
    some (p.enter ⟨(folderSnapshots p.world.db).map (fun s => (s.name,s.uidValidity)),none⟩
      Rav.runSync)
  | .background i =>
    (p.world.background[i]?).map (fun b =>
      ⟨{ p.world with background := p.world.background.eraseIdx i },
        p.tasks ++ [(⟨[],some b.folder⟩,syncRemainingHeaders b)]⟩)
  | .call i fails =>
    match p.tasks[i]? with
    | some (g,.call c k) =>
      let s := handle (answering fails) c p.world
      some ⟨s.2,p.tasks.set i (g.next c s.1,k s.1)⟩
    | _ => none

/-- Nothing under way. -/
def opening (w : World) : Pool := ⟨w,[]⟩

end Pool

/-- A body is fetched for a folder whose cache is under the server's UIDVALIDITY. -/
def Call.Sheltered (w : World) : Call → Prop
  | .imap (.fetchBody f _) => w.db.uidValidity f = w.epoch f
  | _ => True

/-- No task still running is engaged with the folder, and no background fetch waits for it. -/
def Pool.Idle (p : Pool) (f : String) : Prop :=
  (∀ t ∈ p.tasks, t.2.returned = false → ¬t.1.Engaged f) ∧
    ∀ b ∈ p.world.background, b.folder ≠ f

/-- A folder is rebuilt only while it is idle, and bodies are fetched only for folders whose
cache is under the server's UIDVALIDITY. -/
def Pool.Sheltered (p : Pool) : PoolEvent → Prop
  | .server f (.rebuild _) => p.Idle f
  | .call i none =>
    match p.tasks[i]? with
    | some (_,.call c _) => c.Sheltered p.world
    | _ => True
  | _ => True

instance (w : World) (c : Call) : Decidable (c.Sheltered w) := by
  unfold Call.Sheltered
  split
  · exact inferInstanceAs (Decidable (_ = _))
  · exact inferInstanceAs (Decidable True)

instance (p : Pool) (f : String) : Decidable (p.Idle f) := inferInstanceAs (Decidable (_ ∧ _))

instance (p : Pool) (e : PoolEvent) : Decidable (p.Sheltered e) := by
  unfold Pool.Sheltered
  split
  · infer_instance
  · split <;> infer_instance
  · infer_instance

end Rav

namespace Rav

variable {w w' : World} {db db' : Db} {f g : String} {V u : Nat}

/-! ### What tasks rely on -/

/-- The folder's cache is under the server's UIDVALIDITY. -/
def World.Fixed (w : World) (f : String) : Prop := w.db.uidValidity f = w.epoch f

/-- The folder has a row, and its cache is under the server's UIDVALIDITY or empty. -/
def World.Clean (w : World) (f : String) : Prop :=
  (w.db.checkpoint f).isSome ∧ (w.Fixed f ∨ w.db.uids f = ∅)

structure World.Consistent (w : World) : Prop where
  rows : w.db.EpochCorrect
  /-- Only a folder that has been synced has rows. -/
  pos : ∀ f u r, w.db.message? f u = some r → 0 < w.db.uidValidity f
  modseq : ∀ f m, w.db.checkpoint f = some (0,m) → m = 0
  le : ∀ f, w.db.uidValidity f ≤ w.epoch f
  background : ∀ b ∈ w.background, b.uidValidity = w.epoch b.folder ∧ w.Fixed b.folder

/-- What a call of a task leaves to the other tasks, folder by folder. -/
def World.Guarantee (w w' : World) : Prop :=
  ∀ f, w'.epoch f = w.epoch f ∧ w.db.uidValidity f ≤ w'.db.uidValidity f ∧
    (w.Clean f → w'.Clean f)

/-- What a task on this footing tolerates. -/
def Footing.Rely (g : Footing) (w w' : World) : Prop :=
  ∀ f, w.epoch f ≤ w'.epoch f ∧ w.db.uidValidity f ≤ w'.db.uidValidity f ∧
    (g.Engaged f → w'.epoch f = w.epoch f ∧ (w.Clean f → w'.Clean f))

/-- The discipline of the tasks that fill the cache. -/
def epochs : Discipline Call Call.Answer World Footing where
  inv := World.Consistent
  guarantee := World.Guarantee
  rely := Footing.Rely
  answers c w r w' := ∃ fails, handle (answering fails) c w = (r,w') ∧ (fails = none → c.Sheltered w)
  next := Footing.next
  rely_of_guarantee := fun _ _ _ h f => ⟨(h f).1.ge,(h f).2.1,fun _ => ⟨(h f).1,(h f).2.2⟩⟩

theorem World.epoch_pos (w : World) (f : String) : 0 < w.epoch f := (w.server f).uidValidity_pos

theorem World.Fixed.clean (h : w.Fixed f) : w.Clean f := by
  refine ⟨?_,Or.inl h⟩
  have hp := w.epoch_pos f
  rw [← h,Db.uidValidity] at hp
  cases hc : w.db.checkpoint f with
  | none => simp [hc] at hp
  | some c => rfl

/-- The rows of a clean folder are all under the server's UIDVALIDITY. -/
theorem World.Clean.under {r : CachedMessage} (h : w.Clean f) (hw : w.Consistent)
    (hr : w.db.message? f u = some r) : r.Under (w.epoch f) := by
  rcases h.2 with hf | he
  · exact hf ▸ hw.rows f u r hr
  · exact absurd (Db.mem_uids.mpr ⟨r,hr⟩) (he ▸ Finset.notMem_empty u)

/-- A folder stored with no validity has no messages. -/
theorem World.Consistent.clean_of_zero (hw : w.Consistent) (hrow : (w.db.checkpoint f).isSome)
    (h : w.db.uidValidity f = 0) : w.Clean f := by
  refine ⟨hrow,Or.inr (Finset.eq_empty_of_forall_notMem (fun u hu => ?_))⟩
  obtain ⟨r,hr⟩ := Db.mem_uids.mp hu
  exact absurd (hw.pos f u r hr) (h ▸ Nat.lt_irrefl 0)

/-! ### Two kinds of writes -/

theorem Db.Trimmed.uidValidity (h : Db.Trimmed db db') (f : String) :
    db'.uidValidity f = db.uidValidity f := by
  simp only [Db.uidValidity]
  rcases h.checkpoint f with he | ⟨hn,he⟩
  · rw [he]
  · rw [hn,he]
    rfl

theorem Db.Trimmed.uids_eq_empty (h : Db.Trimmed db db') (he : db.uids f = ∅) : db'.uids f = ∅ := by
  refine Finset.eq_empty_of_forall_notMem (fun u hu => ?_)
  obtain ⟨r,hr⟩ := Db.mem_uids.mp hu
  obtain ⟨s,hs,-⟩ := h.rows f u r hr
  exact absurd (Db.mem_uids.mpr ⟨s,hs⟩) (he ▸ Finset.notMem_empty u)

/-- Trimming the cache keeps the invariant and disturbs no task. -/
theorem World.Consistent.trim (hw : w.Consistent) (h : Db.Trimmed w.db db') :
    World.Consistent { w with db := db' } ∧ World.Guarantee w { w with db := db' } := by
  have hv := h.uidValidity
  refine ⟨⟨?_,?_,?_,fun f => (hv f).trans_le (hw.le f),?_⟩,fun f => ⟨rfl,(hv f).ge,?_⟩⟩
  · intro f u r hr
    obtain ⟨s,hs,ho,hb⟩ := h.rows f u r hr
    have hs' := hw.rows f u s hs
    dsimp only
    rw [hv]
    exact ⟨ho ▸ hs'.1,fun b hb' => hs'.2 b (hb.trans hb')⟩
  · intro f u r hr
    obtain ⟨s,hs,-⟩ := h.rows f u r hr
    exact (hv f).symm ▸ hw.pos f u s hs
  · intro f m hm
    rcases h.checkpoint f with he | ⟨-,he⟩
    · exact hw.modseq f m (he ▸ hm)
    · have hm' : some (0,0) = some (0,m) := he.symm.trans hm
      simpa using hm'.symm
  · intro b hb
    obtain ⟨he,hf⟩ := hw.background b hb
    exact ⟨he,(hv _).trans hf⟩
  · rintro ⟨hrow,hc⟩
    refine ⟨?_,hc.imp (fun hf => (hv f).trans hf) h.uids_eq_empty⟩
    rcases h.checkpoint f with he | ⟨-,he⟩
    · exact he ▸ hrow
    · exact he ▸ rfl

/-- The write leaves the folder stored under UIDVALIDITY `V` with every row fetched under it, and
touches no other. -/
structure Db.Writes (f : String) (V : Nat) (db db' : Db) : Prop where
  others : OnlyFolder f db db'
  epoch : db'.uidValidity f = V
  rows : ∀ u r, db'.message? f u = some r → r.Under V

theorem OnlyFolder.checkpoint (h : OnlyFolder f db db') (hg : g ≠ f) :
    db'.checkpoint g = db.checkpoint g := by
  rw [Db.checkpoint,Db.checkpoint,(h g hg).1]

theorem OnlyFolder.uidValidity (h : OnlyFolder f db db') (hg : g ≠ f) :
    db'.uidValidity g = db.uidValidity g := by
  rw [Db.uidValidity,Db.uidValidity,h.checkpoint hg]

/-- A write under the server's UIDVALIDITY keeps the invariant and disturbs no task. -/
theorem World.Consistent.write (hw : w.Consistent) (h : Db.Writes f (w.epoch f) w.db db') :
    World.Consistent { w with db := db' } ∧ World.Guarantee w { w with db := db' } ∧
      World.Fixed { w with db := db' } f := by
  have hfix : World.Fixed { w with db := db' } f := h.epoch
  refine ⟨⟨?_,?_,?_,?_,?_⟩,?_,hfix⟩
  · intro g u r hr
    by_cases hg : g = f
    · subst hg
      exact h.epoch.symm ▸ h.rows u r hr
    · dsimp only
      rw [h.others.uidValidity hg]
      exact hw.rows g u r ((h.others g hg).2 u ▸ hr)
  · intro g u r hr
    by_cases hg : g = f
    · subst hg
      exact h.epoch.symm ▸ w.epoch_pos g
    · dsimp only
      rw [h.others.uidValidity hg]
      exact hw.pos g u r ((h.others g hg).2 u ▸ hr)
  · intro g m hm
    by_cases hg : g = f
    · subst hg
      have he := h.epoch
      have hp := w.epoch_pos g
      rw [Db.uidValidity,hm] at he
      exact absurd he hp.ne
    · exact hw.modseq g m (h.others.checkpoint hg ▸ hm)
  · intro g
    by_cases hg : g = f
    · subst hg
      exact h.epoch.le
    · exact (h.others.uidValidity hg).trans_le (hw.le g)
  · intro b hb
    obtain ⟨he,hf⟩ := hw.background b hb
    refine ⟨he,?_⟩
    by_cases hg : b.folder = f
    · exact hg ▸ hfix
    · exact (h.others.uidValidity hg).trans hf
  · intro g
    refine ⟨rfl,?_,fun hc => ?_⟩
    · by_cases hg : g = f
      · subst hg
        exact h.epoch.symm ▸ hw.le g
      · exact (h.others.uidValidity hg).ge
    · by_cases hg : g = f
      · exact hg ▸ hfix.clean
      · refine ⟨?_,hc.2.imp (fun h' => (h.others.uidValidity hg).trans h') (fun he => ?_)⟩
        · exact (h.others.checkpoint hg).symm ▸ hc.1
        · rw [← he]
          exact Db.uids_congr (fun u => by rw [(h.others g hg).2 u])

/-! ### What nothing disturbs -/

variable {G : Footing}

theorem stable_epoch (h : G.Engaged f) (v : Nat) : epochs.Stable G (fun w => v = w.epoch f) :=
  fun _ _ _ _ hr hv => hv.trans ((hr f).2.2 h).1.symm

theorem stable_fixed (h : G.Engaged f) : epochs.Stable G (fun w => w.Fixed f) := by
  intro w w' _ hw' hr hf
  have hle := (hr f).2.1
  have hle' := hw'.le f
  rw [((hr f).2.2 h).1] at hle'
  rw [hf] at hle
  exact (Nat.le_antisymm hle' hle).trans ((hr f).2.2 h).1.symm

theorem stable_clean (h : G.Engaged f) : epochs.Stable G (fun w => w.Clean f) :=
  fun _ _ _ _ hr hc => ((hr f).2.2 h).2 hc

/-- What a task still knows of the validities it has read: they have not been lowered since, and
a folder read as never synced is clean. -/
def Known (read : List (String × Nat)) (w : World) : Prop :=
  ∀ p ∈ read, p.2 ≤ w.db.uidValidity p.1 ∧ (p.2 = 0 → w.Clean p.1)

theorem stable_known {read : List (String × Nat)} (h : ∀ p ∈ read, p ∈ G.read) :
    epochs.Stable G (Known read) := by
  intro w w' _ _ hr hk p hp
  obtain ⟨hle,hc⟩ := hk p hp
  refine ⟨hle.trans (hr p.1).2.1,fun h0 => ?_⟩
  have hmem : (p.1,0) ∈ G.read := h0 ▸ h p hp
  exact ((hr p.1).2.2 (Or.inr hmem)).2 (hc h0)

theorem Known.mono {read read' : List (String × Nat)} {w : World} (h : Known read w)
    (hs : ∀ p ∈ read', p ∈ read) : Known read' w := fun p hp => h p (hs p hp)

/-! ### Rules for the calls -/

section Rules

variable {α β : Type} {Q : Footing → α → World → Prop} {A : World → Prop}

theorem outline_withUserDb {k : Db → β × Db} {t : β → Task α} (B : β → World → Prop)
    (hk : ∀ w, w.Consistent → A w → World.Consistent { w with db := (k w.db).2 } ∧
      World.Guarantee w { w with db := (k w.db).2 } ∧ B (k w.db).1 { w with db := (k w.db).2 })
    (hB : ∀ b, epochs.Stable G (B b)) (ht : ∀ b, epochs.Outline Q G (B b) (t b)) :
    epochs.Outline Q G A (Task.withUserDb k >>= t) := by
  refine Discipline.Outline.perform_bind B ?_ hB ht
  rintro w r w' hw ha ⟨fails,h,-⟩
  obtain ⟨rfl,rfl⟩ := Prod.mk.inj h
  exact hk w hw ha

theorem outline_query {k : Db → β} {t : β → Task α} (B : β → World → Prop)
    (hk : ∀ w, w.Consistent → A w → B (k w.db) w) (hB : ∀ b, epochs.Stable G (B b))
    (ht : ∀ b, epochs.Outline Q G (B b) (t b)) :
    epochs.Outline Q G A (Task.query k >>= t) :=
  outline_withUserDb B
    (fun w hw ha => ⟨hw,(hw.trim (Db.Trimmed.refl w.db)).2,hk w hw ha⟩) hB ht

theorem outline_trim {k : Db → β × Db} {t : β → Task α} (hk : ∀ db, Db.Trimmed db (k db).2)
    (hA : epochs.Stable G A) (ht : ∀ b, epochs.Outline Q G A (t b)) :
    epochs.Outline Q G A (Task.withUserDb k >>= t) := by
  refine outline_withUserDb (fun _ => A) (fun w hw ha => ?_) (fun _ => hA) ht
  obtain ⟨hw',hg⟩ := hw.trim (hk w.db)
  exact ⟨hw',hg,hA.guaranteed hw hw' hg ha⟩

theorem outline_write {k : Db → β × Db} {t : β → Task α}
    (hk : ∀ w, w.Consistent → A w → Db.Writes f (w.epoch f) w.db (k w.db).2)
    (hG : G.Engaged f) (hA : epochs.Stable G A)
    (ht : ∀ b, epochs.Outline Q G (fun w => A w ∧ w.Fixed f) (t b)) :
    epochs.Outline Q G A (Task.withUserDb k >>= t) := by
  refine outline_withUserDb (fun _ w => A w ∧ w.Fixed f) (fun w hw ha => ?_)
    (fun _ => hA.and (stable_fixed hG)) ht
  obtain ⟨hw',hg,hf⟩ := hw.write (hk w hw ha)
  exact ⟨hw',hg,hA.guaranteed hw hw' hg ha,hf⟩

/-- Neither the invariant nor any task looks at events and the bell. -/
theorem World.Consistent.quiet (hw : w.Consistent) (events : List MailEvent) (bell : Bool) :
    World.Consistent { w with events := events, bell := bell } ∧
      World.Guarantee w { w with events := events, bell := bell } :=
  ⟨⟨hw.rows,hw.pos,hw.modseq,hw.le,hw.background⟩,fun _ => ⟨rfl,Nat.le_refl _,id⟩⟩

theorem outline_publish {e : MailEvent} {t : Unit → Task α} (hA : epochs.Stable G A)
    (ht : epochs.Outline Q G A (t ())) : epochs.Outline Q G A (Task.publish e >>= t) := by
  refine Discipline.Outline.perform_bind (fun _ => A) ?_ (fun _ => hA) (fun _ => ht)
  rintro w r w' hw ha ⟨fails,h,-⟩
  obtain ⟨rfl,rfl⟩ := Prod.mk.inj h
  obtain ⟨hw',hg⟩ := hw.quiet (w.events ++ [e]) w.bell
  exact ⟨hw',hg,hA.guaranteed hw hw' hg ha⟩

theorem outline_notifyWorker {t : Unit → Task α} (hA : epochs.Stable G A)
    (ht : epochs.Outline Q G A (t ())) : epochs.Outline Q G A (Task.notifyWorker >>= t) := by
  refine Discipline.Outline.perform_bind (fun _ => A) ?_ (fun _ => hA) (fun _ => ht)
  rintro w r w' hw ha ⟨fails,h,-⟩
  obtain ⟨rfl,rfl⟩ := Prod.mk.inj h
  obtain ⟨hw',hg⟩ := hw.quiet w.events true
  exact ⟨hw',hg,hA.guaranteed hw hw' hg ha⟩

/-- `K` whatever the server answers, and with it `P` about what it returns. -/
def Answered {β : Type} (K : World → Prop) (P : β → World → Prop) :
    Except ImapError β → World → Prop
  | .error _, w => K w
  | .ok b, w => K w ∧ P b w

theorem outline_imap {q : ImapCall} (hq : q.ReadOnly) {t : Except ImapError q.Reply → Task α}
    (B : Except ImapError q.Reply → World → Prop)
    (herror : ∀ w e, A w → B (.error e) w)
    (hok : ∀ w, w.Consistent → A w → (Call.imap q).Sheltered w → B (w.reply q).1 w)
    (hB : ∀ r, epochs.Stable (G.next (.imap q) r) (B r))
    (ht : ∀ r, epochs.Outline Q (G.next (.imap q) r) (B r) (t r)) :
    epochs.Outline Q G A (Task.imap q >>= t) := by
  refine Discipline.Outline.perform_bind B ?_ hB ht
  rintro w r w' hw ha ⟨fails,h,hs⟩
  have hsame := (hw.trim (Db.Trimmed.refl w.db)).2
  cases fails with
  | some e =>
    obtain ⟨rfl,rfl⟩ := Prod.mk.inj h
    exact ⟨hw,hsame,herror w e ha⟩
  | none =>
    obtain rfl : w = w' := (World.reply_of_readOnly hq).symm.trans (congrArg Prod.snd h)
    obtain rfl : (w.reply q).1 = r := congrArg Prod.fst h
    exact ⟨hw,hsame,hok w hw ha (hs rfl)⟩

end Rules

/-! ### The writes of the tasks -/

theorem Db.uidValidity_updateFolderStatus (h : (db.checkpoint f).isSome) (v n : Nat) :
    (db.updateFolderStatus f v n).uidValidity f = v := by
  obtain ⟨c,hc⟩ := Option.isSome_iff_exists.mp h
  simp [Db.uidValidity,hc]

theorem Db.uidValidity_updateFolderSyncStatus (h : (db.checkpoint f).isSome) (v n m : Nat) :
    (db.updateFolderSyncStatus f v n m).uidValidity f = v := by
  obtain ⟨c,hc⟩ := Option.isSome_iff_exists.mp h
  simp [Db.uidValidity,hc]

theorem Db.uidValidity_congr (h : ∀ g, db'.folder? g = db.folder? g) :
    db'.uidValidity f = db.uidValidity f := by
  rw [Db.uidValidity,Db.uidValidity,Db.checkpoint_congr h]

/-- Trimming keeps rows under the validity they were fetched under. -/
theorem Db.Trimmed.under (h : Db.Trimmed db db')
    (hV : ∀ u r, db.message? f u = some r → r.Under V) :
    ∀ u r, db'.message? f u = some r → r.Under V := by
  intro u r hr
  obtain ⟨s,hs,ho,hb⟩ := h.rows f u r hr
  have hs' := hV u s hs
  exact ⟨ho ▸ hs'.1,fun b hb' => hs'.2 b (hb.trans hb')⟩

/-- The headers were fetched under the server's present UIDVALIDITY. -/
def Stamped (f : String) (hs : List ImapMessageHeader) (w : World) : Prop :=
  ∀ h ∈ hs, h.origin.uidValidity = w.epoch f

theorem stable_stamped (hG : G.Engaged f) (hs : List ImapMessageHeader) :
    epochs.Stable G (Stamped f hs) :=
  fun _ _ _ _ hr ha h hh => (ha h hh).trans ((hr f).2.2 hG).1.symm

/-- Stored headers are under the validity they are stamped with. -/
theorem World.Clean.under_storeHeaders {hs : List ImapMessageHeader} (hc : w.Clean f)
    (hw : w.Consistent) (hst : Stamped f hs w) :
    ∀ u r, (storeHeaders f hs w.db).message? f u = some r → r.Under (w.epoch f) := by
  intro u r hr
  have hrow : (w.db.folder? f).isSome := by simpa [Db.checkpoint] using hc.1
  rcases message?_storeHeaders hrow hs u with ⟨h,hh,-,hm⟩ | ⟨-,hm⟩
  · obtain rfl := Option.some.inj (hm.symm.trans hr)
    exact ⟨hst h hh,by simp⟩
  · exact hc.under hw (hm ▸ hr)

theorem writes_storeHeaders {hs : List ImapMessageHeader} (hw : w.Consistent) (hf : w.Fixed f)
    (hst : Stamped f hs w) : Db.Writes f (w.epoch f) w.db (storeHeaders f hs w.db) where
  others := onlyFolder_of_rows (fun _ => folder?_storeHeaders hs)
    (fun _ _ hg => message?_storeHeaders_of_ne hs hg)
  epoch := (Db.uidValidity_congr (fun _ => folder?_storeHeaders hs)).trans hf
  rows := hf.clean.under_storeHeaders hw hst

theorem writes_storeFetched {hs : List ImapMessageHeader} {n : Nat} (hw : w.Consistent)
    (hc : w.Clean f) (hst : Stamped f hs w) :
    Db.Writes f (w.epoch f) w.db (storeFetched f hs (w.epoch f) n w.db).2 := by
  have hrow : (w.db.folder? f).isSome := by simpa [Db.checkpoint] using hc.1
  have hrow' : ((storeHeaders f hs w.db).checkpoint f).isSome := by
    rw [Db.checkpoint_congr (fun _ => folder?_storeHeaders hs)]
    exact hc.1
  rw [storeFetched_eq hrow]
  refine ⟨?_,?_,hc.under_storeHeaders hw hst⟩
  · have h := @onlyFolder_storeFetched f w.db hs (w.epoch f) n
    rwa [storeFetched_eq hrow] at h
  · have h := Db.uidValidity_updateFolderStatus hrow' (w.epoch f) n
    rw [Db.uidValidity] at h ⊢
    rwa [Db.checkpoint_refreshUnreadCount]

theorem writes_updateFolderStatus (hw : w.Consistent) (hc : w.Clean f) (n : Nat) :
    Db.Writes f (w.epoch f) w.db (w.db.updateFolderStatus f (w.epoch f) n) :=
  ⟨onlyFolder_updateFolder _ _,Db.uidValidity_updateFolderStatus hc.1 _ _,
    fun _ _ hr => hc.under hw hr⟩

theorem writes_updateFolderSyncStatus (hw : w.Consistent) (hc : w.Clean f) (n m : Nat) :
    Db.Writes f (w.epoch f) w.db (w.db.updateFolderSyncStatus f (w.epoch f) n m) :=
  ⟨onlyFolder_updateFolder _ _,Db.uidValidity_updateFolderSyncStatus hc.1 _ _ _,
    fun _ _ hr => hc.under hw hr⟩

theorem writes_reconcile {cached imapMap : List (Nat × String)} (hw : w.Consistent)
    (hc : w.Clean f) (n m : Nat) : Db.Writes f (w.epoch f) w.db
      ((reconcile f cached imapMap w.db).2.updateFolderSyncStatus f (w.epoch f) n m) := by
  have ht := @trimmed_reconcile w.db f cached imapMap
  have hrow : ((reconcile f cached imapMap w.db).2.checkpoint f).isSome := by
    rw [Db.checkpoint_congr (fun _ => folder?_reconcile cached imapMap)]
    exact hc.1
  refine ⟨onlyFolder_trans _ _ _ (onlyFolder_of_rows (fun _ => folder?_reconcile cached imapMap)
    (fun _ _ hg => message?_reconcile_of_ne cached imapMap hg)) (onlyFolder_updateFolder _ _),
    Db.uidValidity_updateFolderSyncStatus hrow _ _ _,?_⟩
  exact ht.under (fun u r hr => hc.under hw hr)

theorem writes_cacheMessageBody {body : CachedBody} (hw : w.Consistent) (hf : w.Fixed f)
    (hb : body.origin.uidValidity = w.epoch f) (u : Nat) :
    Db.Writes f (w.epoch f) w.db (w.db.cacheMessageBody f u body) := by
  refine ⟨onlyFolder_of_rows (fun _ => rfl) (fun g v hg => ?_),hf,fun v r hr => ?_⟩
  · simp [Db.message?_cacheMessageBody,hg]
  · rw [Db.message?_cacheMessageBody] at hr
    obtain ⟨s,hs,rfl⟩ := Option.map_eq_some_iff.mp hr
    have hs' := hf.clean.under hw hs
    split
    · refine ⟨hs'.1,fun b hb' => ?_⟩
      obtain rfl := Option.some.inj hb'
      exact hb
    · exact hs'

/-- What `syncOutcome` goes by: the validity `v` read from the cache and the server's `V`. -/
def Told (f : String) (v V : Nat) (w : World) : Prop :=
  V = w.epoch f ∧ v ≤ w.db.uidValidity f ∧ (v = 0 → w.Clean f)

theorem Told.fixed {v : Nat} (h : Told f v v w) (hw : w.Consistent) : w.Fixed f :=
  Nat.le_antisymm (hw.le f) (h.1 ▸ h.2.1)

/-- Where the validities do not contradict each other, the folder is clean. -/
theorem Told.clean {v : Nat} (h : Told f v V w) (hw : w.Consistent) (hv : ¬(v ≠ 0 ∧ v ≠ V)) :
    w.Clean f := by
  by_cases h0 : v = 0
  · exact h.2.2 h0
  · obtain rfl : v = V := by_contra (fun hne => hv ⟨h0,hne⟩)
    exact (h.fixed hw).clean

theorem stable_told (hG : G.Engaged f) (v V : Nat) : epochs.Stable G (Told f v V) := by
  intro w w' hw hw' hr ⟨he,hle,hc⟩
  exact ⟨stable_epoch hG V w w' hw hw' hr he,hle.trans (hr f).2.1,
    fun h0 => stable_clean hG w w' hw hw' hr (hc h0)⟩

/-- Clearing the cache of a folder with a row leaves it clean. -/
theorem World.Clean.of_clear (h : (w.db.checkpoint f).isSome) :
    World.Clean { w with db := w.db.deleteFolderMessages f } f := by
  refine ⟨h,Or.inr (Finset.eq_empty_of_forall_notMem (fun u hu => ?_))⟩
  obtain ⟨r,hr⟩ := Db.mem_uids.mp hu
  simp [Db.message?_deleteFolderMessages] at hr

/-- Deciding what to do about a folder leaves it clean. -/
theorem syncOutcome_spec {initial : InitialFolderCheck} {st : FolderStatus} (hw : w.Consistent)
    (h : Told f initial.cachedUidValidity st.uidValidity w) :
    World.Consistent { w with db := (syncOutcome f initial st w.db).2 } ∧
      World.Guarantee w { w with db := (syncOutcome f initial st w.db).2 } ∧
      World.Clean { w with db := (syncOutcome f initial st w.db).2 } f := by
  have hcleared : ∃ db, (if initial.cachedUidValidity ≠ 0 ∧
      initial.cachedUidValidity ≠ st.uidValidity then w.db.deleteFolderMessages f else w.db) = db ∧
      World.Consistent { w with db := db } ∧ World.Guarantee w { w with db := db } ∧
      World.Clean { w with db := db } f := by
    split
    · next hv =>
      obtain ⟨hw',hg⟩ := hw.trim (Db.trimmed_deleteMessagesWhere _)
      refine ⟨_,rfl,hw',hg,World.Clean.of_clear ?_⟩
      have hpos : 0 < w.db.uidValidity f := (Nat.pos_of_ne_zero hv.1).trans_le h.2.1
      rw [Db.uidValidity] at hpos
      cases hc : w.db.checkpoint f with
      | none => simp [hc] at hpos
      | some c => rfl
    · next hv => exact ⟨_,rfl,hw,(hw.trim (Db.Trimmed.refl w.db)).2,h.clean hw hv⟩
  obtain ⟨db,hdb,hw',hg,hc⟩ := hcleared
  obtain ⟨hw'',hg',hf⟩ := hw'.write (writes_updateFolderStatus hw' hc st.exists_)
  have hg'' : World.Guarantee w { w with db := db.updateFolderStatus f (w.epoch f) st.exists_ } :=
    fun k => ⟨rfl,(hg k).2.1.trans (hg' k).2.1,fun h => (hg' k).2.2 ((hg k).2.2 h)⟩
  unfold syncOutcome
  dsimp only
  rw [hdb,h.1]
  split
  · exact ⟨hw'',hg'',hf.clean⟩
  · split
    · exact ⟨hw',hg,hc⟩
    · exact ⟨hw'',hg'',hf.clean⟩

/-! ### The tasks -/

section Tasks

variable {α : Type} {Q : Footing → α → World → Prop} {K : World → Prop}

theorem outline_fetchHeaders {set : UidSet}
    {t : Except ImapError (List ImapMessageHeader) → Task α} (hG : G.Engaged f)
    (hK : epochs.Stable G K) (herror : ∀ e, epochs.Outline Q G K (t (.error e)))
    (hok : ∀ hs, epochs.Outline Q G (fun w => K w ∧ Stamped f hs w) (t (.ok hs))) :
    epochs.Outline Q G K (Task.imap (.fetchHeaders f set) >>= t) := by
  refine outline_imap (q := .fetchHeaders f set) trivial (Answered K (Stamped f)) (fun _ _ hk => hk) ?_ ?_ ?_
  · exact fun w _ hk _ => ⟨hk,fun _ hh => Mailbox.origin_of_mem_headers hh⟩
  · rintro (e | hs)
    · exact hK
    · exact hK.and (stable_stamped hG hs)
  · rintro (e | hs)
    · exact herror e
    · exact hok hs

theorem outline_fetchAndStoreNew (n : Nat) (hG : G.Engaged f) (hK : epochs.Stable G K) :
    epochs.Outline (Discipline.At G (fun w => K w ∧ w.Fixed f)) G (fun w => K w ∧ w.Fixed f)
      (fetchAndStoreNew f n) := by
  have hKF := hK.and (stable_fixed hG)
  refine outline_fetchHeaders hG hKF (fun e => fun _ _ h => ⟨rfl,h⟩) (fun hs => ?_)
  dsimp only
  split
  · exact fun _ _ h => ⟨rfl,h.1⟩
  · refine outline_write (f := f) (fun w hw h => writes_storeHeaders hw h.1.2 ?_) hG
      (hKF.and (stable_stamped hG hs)) (fun _ => fun _ _ h => ⟨rfl,h.1.1⟩)
    exact fun k hk => h.2 k (List.mem_filter.mp hk).1

theorem outline_publish_pure {e : MailEvent} {a : α} (hK : epochs.Stable G K) :
    epochs.Outline (Discipline.At G K) G K (Task.publish e >>= fun _ => pure a) :=
  outline_publish hK (fun _ _ h => ⟨rfl,h⟩)

theorem outline_fetchNewFull (imapMap : List (Nat × String)) (n : Nat) (changed : Bool)
    (hG : G.Engaged f) (hK : epochs.Stable G K) :
    epochs.Outline (Discipline.At G (fun w => K w ∧ w.Fixed f)) G (fun w => K w ∧ w.Fixed f)
      (fetchNewFull f imapMap n changed) := by
  have hKF := hK.and (stable_fixed hG)
  unfold fetchNewFull
  split
  · refine (outline_fetchAndStoreNew _ hG hK).bind_at (fun r => ?_)
    split
    split
    · exact outline_trim (fun db => Db.trimmed_of_checkpoint
        (fun _ => Db.checkpoint_refreshUnreadCount) (fun _ _ => rfl)) hKF
        (fun _ => outline_publish_pure hKF)
    · exact fun _ _ h => ⟨rfl,h⟩
  · exact fun _ _ h => ⟨rfl,h⟩

theorem outline_syncFull (st : FolderStatusExtended) (hG : G.Engaged f) (hK : epochs.Stable G K) :
    epochs.Outline (Discipline.At G K) G
      (fun w => K w ∧ st.uidValidity = w.epoch f ∧ w.Clean f) (syncFull f st) := by
  have hA := hK.and ((stable_epoch hG st.uidValidity).and (stable_clean hG))
  refine outline_query (fun _ w => K w ∧ st.uidValidity = w.epoch f ∧ w.Clean f)
    (fun _ _ h => h) (fun _ => hA) (fun cached => ?_)
  split
  · refine outline_write (f := f) (fun w hw h => ?_) hG hA (fun _ _ _ h => ⟨rfl,h.1.1⟩)
    rw [h.2.1]
    exact writes_updateFolderSyncStatus hw h.2.2 _ _
  · refine outline_imap (q := .fetchUidsAndFlags f) trivial
      (fun _ w => K w ∧ st.uidValidity = w.epoch f ∧ w.Clean f) (fun _ _ h => h)
      (fun _ _ h _ => h) (fun _ => hA) (fun r => ?_)
    rcases r with e | imapState
    · exact fun _ _ h => ⟨rfl,h.1⟩
    · refine outline_write (f := f) (fun w hw h => ?_) hG hA (fun changed => ?_)
      · rw [h.2.1]
        exact writes_reconcile hw h.2.2 _ _
      · refine Discipline.Outline.bind_at ((outline_fetchNewFull _ _ changed hG hK).mono
          (fun _ _ h => ⟨h.1.1,h.2⟩)) (fun changed => ?_)
        dsimp only
        split
        · exact (outline_publish_pure hK).mono (fun _ _ h => h.1)
        · exact fun _ _ h => ⟨rfl,h.1⟩

theorem outline_removeDeleted (vanished : Option (List Nat)) (n k : Nat)
    (hK : epochs.Stable G K) :
    epochs.Outline (Discipline.At G K) G K (removeDeleted f vanished n k) := by
  cases vanished with
  | some us =>
    unfold removeDeleted
    dsimp only
    split
    · exact fun _ _ h => ⟨rfl,h⟩
    · exact outline_trim (t := pure) (fun db => trimmed_deleteUids _) hK (fun _ _ _ h => ⟨rfl,h⟩)
  | none =>
    unfold removeDeleted
    dsimp only
    split
    · refine outline_imap (q := .fetchUidsAndFlags f) trivial (fun _ => K) (fun _ _ h => h)
        (fun _ _ h _ => h) (fun _ => hK) (fun r => ?_)
      rcases r with e | imapState
      · exact fun _ _ h => ⟨rfl,h⟩
      · exact outline_trim (t := pure) (fun db => trimmed_deleteUids _) hK (fun _ _ _ h => ⟨rfl,h⟩)
    · exact fun _ _ h => ⟨rfl,h⟩

theorem outline_fetchNewCondstore (n : Nat) (hG : G.Engaged f) (hK : epochs.Stable G K) :
    epochs.Outline (Discipline.At G (fun w => K w ∧ w.Fixed f)) G (fun w => K w ∧ w.Fixed f)
      (fetchNewCondstore f n) := by
  have hKF := hK.and (stable_fixed hG)
  refine outline_query (fun _ w => K w ∧ w.Fixed f) (fun _ _ h => h) (fun _ => hKF) (fun k => ?_)
  split
  · refine (outline_fetchAndStoreNew _ hG hK).bind_at (fun r => ?_)
    split
    exact outline_trim (fun db => Db.trimmed_of_checkpoint
      (fun _ => Db.checkpoint_refreshUnreadCount) (fun _ _ => rfl)) hKF
      (fun _ => outline_publish_pure hKF)
  · exact fun _ _ h => ⟨rfl,h⟩

theorem outline_applyDelta (st : FolderStatusExtended) (delta : ChangedFlags) (hG : G.Engaged f)
    (hK : epochs.Stable G K) :
    epochs.Outline (Discipline.At G K) G
      (fun w => (K w ∧ st.uidValidity = w.epoch f) ∧ w.Fixed f) (applyDelta f st delta) := by
  have hKE := hK.and (stable_epoch hG st.uidValidity)
  have hA := hKE.and (stable_fixed hG)
  refine outline_trim (fun db => trimmed_applyChanged _) hA (fun _ => ?_)
  refine outline_query (fun _ w => (K w ∧ st.uidValidity = w.epoch f) ∧ w.Fixed f)
    (fun _ _ h => h) (fun _ => hA) (fun n => ?_)
  refine (outline_removeDeleted _ _ _ hA).bind_at (fun removed => ?_)
  refine (outline_fetchNewCondstore _ hG hKE).bind_at (fun fetched => ?_)
  refine outline_write (f := f) (fun w hw h => ?_) hG hA (fun _ => ?_)
  · rw [h.1.2]
    exact writes_updateFolderSyncStatus hw h.2.clean _ _
  · dsimp only
    split
    · exact (outline_publish_pure hK).mono (fun _ _ h => h.1.1.1)
    · exact fun _ _ h => ⟨rfl,h.1.1.1⟩

theorem outline_syncCondstore (m : Nat) (st : FolderStatusExtended) (hG : G.Engaged f)
    (hK : epochs.Stable G K) :
    epochs.Outline (Discipline.At G K) G
      (fun w => (K w ∧ st.uidValidity = w.epoch f) ∧ w.Fixed f) (syncCondstore f m st) := by
  have hA := (hK.and (stable_epoch hG st.uidValidity)).and (stable_fixed hG)
  refine outline_imap (q := .fetchChangedFlags f m st.uidValidity) trivial
    (fun _ w => (K w ∧ st.uidValidity = w.epoch f) ∧ w.Fixed f) (fun _ _ h => h)
    (fun _ _ h _ => h) (fun _ => hA) (fun r => ?_)
  rcases r with e | delta
  · exact (outline_syncFull st hG hK).mono (fun _ _ h => ⟨h.1.1,h.1.2,h.2.clean⟩)
  · exact outline_applyDelta st delta hG hK

/-- The validities a cycle still has to compare. -/
def toCompare (snaps : List FolderSnapshot) : List (String × Nat) :=
  snaps.map (fun s => (s.name,s.uidValidity))

theorem outline_unchanged (snap : FolderSnapshot) (st : FolderStatusExtended)
    (hK : epochs.Stable G K) : epochs.Outline (Discipline.At G K) G K (unchanged snap st) := by
  unfold unchanged
  split
  · exact outline_query (fun _ => K) (fun _ _ h => h) (fun _ => hK) (fun _ _ _ h => ⟨rfl,h⟩)
  · exact fun _ _ h => ⟨rfl,h⟩

theorem outline_syncStatus {snap : FolderSnapshot} {st : FolderStatusExtended}
    (hz : snap.uidValidity = 0 → snap.highestModseq = 0) (hG : G.Engaged snap.name)
    (hK : epochs.Stable G K) :
    epochs.Outline (Discipline.At G K) G
      (fun w => K w ∧ Told snap.name snap.uidValidity st.uidValidity w) (syncStatus snap st) := by
  have hA := hK.and (stable_told hG snap.uidValidity st.uidValidity)
  unfold syncStatus
  split
  · exact outline_trim (fun db => Db.trimmed_of_checkpoint
      (fun _ => Db.checkpoint_invalidateFolderFreshness) (fun _ _ => rfl)) hA
      (fun _ => (outline_publish_pure hK).mono (fun _ _ h => h.1))
  · next hv =>
    have hv' : ¬(snap.uidValidity ≠ 0 ∧ snap.uidValidity ≠ st.uidValidity) :=
      fun h => hv ⟨h.1,h.2.symm⟩
    refine (outline_unchanged snap st hA).bind_at (fun skip => ?_)
    split
    · exact fun _ _ h => ⟨rfl,h.1⟩
    · split
      · next hm =>
        have hne : snap.uidValidity ≠ 0 := fun h0 => absurd (hz h0) hm.2.ne'
        have he : snap.uidValidity = st.uidValidity := by_contra (fun h => hv' ⟨hne,h⟩)
        refine (outline_syncCondstore _ st hG hK).mono (fun w hw h => ⟨⟨h.1,h.2.1⟩,?_⟩)
        exact (he ▸ h.2).fixed hw
      · exact (outline_syncFull st hG hK).mono
          (fun w hw h => ⟨h.1,h.2.1,h.2.clean hw hv'⟩)

/-- What a task has learnt about a folder it knew by its cached validity. -/
theorem Known.told {read : List (String × Nat)} {v : Nat} (h : Known read w) (hm : (f,v) ∈ read) :
    Told f v (w.epoch f) w := ⟨rfl,h (f,v) hm⟩

theorem engaged_told {ε ρ : Type} (st : ρ) : (G.told f (.ok st : Except ε ρ)).Engaged f := Or.inl rfl

/-- The rest of a list of folders is still to be compared after the first has been. -/
theorem mem_read_told {ε ρ : Type} {read : List (String × Nat)} {r : Except ε ρ}
    (hread : ∀ p ∈ read, p ∈ G.read) (hf : ∀ p ∈ read, p.1 ≠ f) :
    ∀ p ∈ read, p ∈ (G.told f r).read :=
  fun p hp => List.mem_filter.mpr ⟨hread p hp,decide_eq_true (hf p hp)⟩

theorem outline_syncFolder {snap : FolderSnapshot} {rest : List (String × Nat)}
    (hz : snap.uidValidity = 0 → snap.highestModseq = 0)
    (hread : ∀ p ∈ rest, p ∈ G.read) (hne : ∀ p ∈ rest, p.1 ≠ snap.name) :
    epochs.Outline (fun g _ w => (∀ p ∈ rest, p ∈ g.read) ∧ Known rest w) G
      (Known ((snap.name,snap.uidValidity) :: rest)) (syncFolder snap) := by
  have hread' : ∀ {r : Except ImapError FolderStatusExtended},
      ∀ p ∈ rest, p ∈ (G.told snap.name r).read := mem_read_told hread hne
  have hrest : ∀ w, Known ((snap.name,snap.uidValidity) :: rest) w → Known rest w :=
    fun _ hk => hk.mono (fun _ => List.mem_cons_of_mem _)
  refine outline_imap (q := .folderStatusExtended snap.name) trivial (Answered (Known rest)
    (fun (st : FolderStatusExtended) => Told snap.name snap.uidValidity st.uidValidity))
    (fun w _ hk => hrest w hk) (fun w _ hk _ => ⟨hrest w hk,hk.told List.mem_cons_self⟩) ?_ ?_
  · rintro (e | st)
    · exact stable_known hread'
    · exact (stable_known hread').and (stable_told (engaged_told st) _ _)
  · rintro (e | st)
    · exact fun _ _ h => ⟨hread',h⟩
    · refine (outline_syncStatus hz (engaged_told st) (stable_known hread')).post ?_
      rintro g _ w ⟨rfl,hk⟩
      exact ⟨hread',hk⟩

theorem outline_syncFolders {snaps : List FolderSnapshot}
    (hz : ∀ s ∈ snaps, s.uidValidity = 0 → s.highestModseq = 0)
    (hnd : (snaps.map FolderSnapshot.name).Nodup) (hread : ∀ p ∈ toCompare snaps, p ∈ G.read) :
    epochs.Outline (fun _ _ _ => True) G (Known (toCompare snaps)) (syncFolders snaps) := by
  induction snaps generalizing G with
  | nil => exact fun _ _ _ => trivial
  | cons s rest ih =>
    obtain ⟨hs,hnd⟩ := List.nodup_cons.mp hnd
    have hne : ∀ p ∈ toCompare rest, p.1 ≠ s.name := by
      intro p hp he
      obtain ⟨s',hs',rfl⟩ := List.mem_map.mp hp
      exact hs (List.mem_map.mpr ⟨s',hs',he⟩)
    refine (outline_syncFolder (hz s List.mem_cons_self)
      (fun p hp => hread p (List.mem_cons_of_mem _ hp)) hne).bind (fun g changed => ?_)
    refine Discipline.Outline.of_pure (fun hg => ?_)
    exact (ih (fun s' hs' => hz s' (List.mem_cons_of_mem _ hs')) hnd hg).bind
      (fun _ _ _ _ _ => trivial)

theorem outline_indexBodies (unindexed : List (String × Nat)) :
    epochs.Outline (fun _ _ _ => True) G (fun _ => True) (indexBodies unindexed) := by
  induction unindexed generalizing G with
  | nil => exact fun _ _ _ => trivial
  | cons p rest ih =>
    unfold indexBodies
    split
    · exact ih
    · refine outline_imap (q := .fetchBody p.1 p.2) trivial (Answered (fun _ => True)
        (fun (body : ImapMessageBody) w => body.origin.uidValidity = w.epoch p.1 ∧ w.Fixed p.1))
        (fun _ _ _ => trivial) (fun w _ _ hs => ?_) ?_ ?_
      · simp only [World.reply]
        rcases hb : (w.server p.1).body p.1 p.2 with e | body
        · trivial
        · exact ⟨trivial,Mailbox.origin_of_body hb,hs⟩
      · rintro (e | body)
        · exact Discipline.stable_true
        · exact Discipline.stable_true.and
            ((stable_epoch (Or.inl rfl) _).and (stable_fixed (Or.inl rfl)))
      · rintro (e | body)
        · exact ih
        · refine outline_write (f := p.1)
            (fun w hw h => writes_cacheMessageBody hw h.2.2 h.2.1 _) (Or.inl rfl) ?_
            (fun _ => ih.mono (fun _ _ _ => trivial))
          exact Discipline.stable_true.and
            ((stable_epoch (Or.inl rfl) _).and (stable_fixed (Or.inl rfl)))

theorem outline_indexMessageBodies :
    epochs.Outline (fun _ _ _ => True) G (fun _ => True) indexMessageBodies :=
  outline_query (fun _ _ => True) (fun _ _ _ => trivial) (fun _ => Discipline.stable_true)
    (fun unindexed => outline_indexBodies unindexed)

theorem outline_syncSnapshots {snaps : List FolderSnapshot}
    (hz : ∀ s ∈ snaps, s.uidValidity = 0 → s.highestModseq = 0)
    (hnd : (snaps.map FolderSnapshot.name).Nodup) (hread : ∀ p ∈ toCompare snaps, p ∈ G.read) :
    epochs.Outline (fun _ _ _ => True) G (Known (toCompare snaps)) (syncSnapshots snaps) := by
  refine (outline_syncFolders hz hnd hread).bind (fun g changed => ?_)
  dsimp only
  split
  · exact outline_publish Discipline.stable_true outline_indexMessageBodies
  · exact outline_indexMessageBodies

/-- The headers a task has fetched are stored under the validity it was told. -/
theorem outline_storeFetched {hs : List ImapMessageHeader} {v n : Nat} {t : Bool → Task α}
    (hG : G.Engaged f) (hK : epochs.Stable G K) (hv : ∀ w, K w → v = w.epoch f)
    (hc : ∀ w, w.Consistent → K w → w.Clean f)
    (ht : ∀ ok, epochs.Outline Q G (fun w => K w ∧ w.Fixed f) (t ok)) :
    epochs.Outline Q G (fun w => K w ∧ Stamped f hs w)
      (Task.withUserDb (storeFetched f hs v n) >>= t) := by
  refine outline_write (f := f) (fun w hw h => ?_) hG (hK.and (stable_stamped hG hs))
    (fun ok => (ht ok).mono (fun _ _ h => ⟨h.1.1,h.2⟩))
  rw [hv w h.1]
  exact writes_storeFetched hw (hc w hw h.1) h.2

theorem outline_spawn {b : BackgroundSyncParams} {t : Unit → Task α} (hA : epochs.Stable G K)
    (hb : ∀ w, K w → b.uidValidity = w.epoch b.folder ∧ w.Fixed b.folder)
    (ht : epochs.Outline Q G K (t ())) : epochs.Outline Q G K (Task.spawn b >>= t) := by
  refine Discipline.Outline.perform_bind (fun _ => K) ?_ (fun _ => hA) (fun _ => ht)
  rintro w r w' hw ha ⟨fails,h,-⟩
  obtain ⟨rfl,rfl⟩ := Prod.mk.inj h
  have hw' : World.Consistent { w with background := w.background ++ [b] } := by
    refine ⟨hw.rows,hw.pos,hw.modseq,hw.le,fun c hc => ?_⟩
    rcases List.mem_append.mp hc with hc | hc
    · exact hw.background c hc
    · rw [List.mem_singleton.mp hc]
      exact hb w ha
  have hg : World.Guarantee w { w with background := w.background ++ [b] } :=
    fun _ => ⟨rfl,Nat.le_refl _,id⟩
  exact ⟨hw',hg,hA.guaranteed hw hw' hg ha⟩

theorem outline_coldStart (st : FolderStatus) (hG : G.Engaged f) :
    epochs.Outline (fun _ _ _ => True) G
      (fun w => st.uidValidity = w.epoch f ∧ w.Clean f) (coldStart f st) := by
  have hK := (stable_epoch hG st.uidValidity).and (stable_clean hG)
  refine outline_fetchHeaders hG hK (fun _ _ _ _ => trivial) (fun hs => ?_)
  refine outline_storeFetched hG hK (fun _ h => h.1) (fun _ _ h => h.2) (fun ok => ?_)
  split
  · exact fun _ _ _ => trivial
  · split
    · exact outline_spawn (hK.and (stable_fixed hG)) (fun _ h => ⟨h.1.1,h.2⟩)
        (fun _ _ _ => trivial)
    · exact fun _ _ _ => trivial

theorem outline_syncRemainingHeaders (b : BackgroundSyncParams) (hG : G.Engaged b.folder) :
    epochs.Outline (fun _ _ _ => True) G
      (fun w => b.uidValidity = w.epoch b.folder ∧ w.Fixed b.folder) (syncRemainingHeaders b) := by
  have hK := (stable_epoch hG b.uidValidity).and (stable_fixed hG)
  refine outline_fetchHeaders hG hK (fun _ _ _ _ => trivial) (fun hs => ?_)
  dsimp only
  split
  · exact outline_publish (t := pure) (hK.and (stable_stamped hG hs)) (fun _ _ _ => trivial)
  · refine outline_storeFetched hG hK (fun _ h => h.1) (fun _ _ h => h.2.clean) (fun ok => ?_)
    split
    · exact outline_publish (t := pure) (hK.and (stable_fixed hG)) (fun _ _ _ => trivial)
    · exact fun _ _ _ => trivial

theorem outline_listStale (initial : InitialFolderCheck) :
    epochs.Outline (fun _ _ _ => True) G (Known [(f,initial.cachedUidValidity)])
      (listStale f initial) := by
  refine outline_imap (q := .folderStatus f) trivial (Answered (fun _ => True)
    (fun (st : FolderStatus) => Told f initial.cachedUidValidity st.uidValidity))
    (fun _ _ _ => trivial) (fun w _ hk _ => ⟨trivial,hk.told List.mem_cons_self⟩) ?_ ?_
  · rintro (e | st)
    · exact Discipline.stable_true
    · have hG : (G.told f (.ok st : Except ImapError FolderStatus)).Engaged f := engaged_told st
      exact Discipline.stable_true.and (stable_told hG _ _)
  · rintro (e | st)
    · exact fun _ _ _ => trivial
    · have hG : (G.told f (.ok st : Except ImapError FolderStatus)).Engaged f := engaged_told st
      have hK := (stable_epoch hG st.uidValidity).and (stable_clean hG)
      refine outline_withUserDb (fun _ w => st.uidValidity = w.epoch f ∧ w.Clean f)
        (fun w hw h => ?_) (fun _ => hK) (fun outcome => ?_)
      · obtain ⟨hw',hg,hc⟩ := syncOutcome_spec hw h.2
        exact ⟨hw',hg,h.2.1,hc⟩
      · cases outcome with
        | coldStart => exact outline_coldStart st hG
        | stalePoke => exact outline_notifyWorker hK (fun _ _ _ => trivial)
        | noSyncNeeded => exact fun _ _ _ => trivial

end Tasks

end Rav
