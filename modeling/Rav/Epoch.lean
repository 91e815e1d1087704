import Rav.Account
import Rav.Imap.History
import Rav.Realtime.Epochs

/-!
# The UIDVALIDITY a row was fetched under

In any interleaving of listings, background fetches and sync cycles whose steps are sheltered,
every cached row was fetched under the validity stored for its folder: the tasks never disturb
one another. An unsheltered step can break it. A rebuild between STATUS and fetch goes unnoticed,
and rows of the new epoch are stored under the old validity.

## Main results

- `Pool.sound_step` — a sheltered step keeps the tasks' discipline
- `epochs_agree` — the invariant of sheltered runs
-/

namespace Rav

variable {w : World} {db db' : Db} {f : String}

/-! ### The pool -/

/-- The server's mailbox changes while no task minds. -/
theorem epoch_moves {ts : List (Footing × Task Unit)} {b : Mailbox} (h : epochs.Sound w ts)
    (hle : w.epoch f ≤ b.uidValidity)
    (hidle : b.uidValidity ≠ w.epoch f → (∀ t ∈ ts, t.2.returned = false → ¬t.1.Engaged f) ∧
      ∀ p ∈ w.background, p.folder ≠ f) :
    epochs.Sound { w with server := Function.update w.server f b } ts := by
  have hw := h.1
  have hself : World.epoch { w with server := Function.update w.server f b } f = b.uidValidity := by
    simp [World.epoch]
  have hother : ∀ g, g ≠ f →
      World.epoch { w with server := Function.update w.server f b } g = w.epoch g := by
    intro g hg
    simp [World.epoch,hg]
  refine h.disturb ⟨hw.rows,hw.pos,hw.modseq,fun g => ?_,fun p hp => ?_⟩ (fun t ht hrun g => ?_)
  · by_cases hg : g = f
    · rw [hg,hself]
      exact (hw.le f).trans hle
    · rw [hother g hg]
      exact hw.le g
  · obtain ⟨he,hf⟩ := hw.background p hp
    by_cases hg : p.folder = f
    · have hb : b.uidValidity = w.epoch f := by_contra (fun hne => (hidle hne).2 p hp hg)
      simp only [World.Fixed,hg,hself,hb] at he hf ⊢
      exact ⟨he,hf⟩
    · simp only [World.Fixed,hother _ hg]
      exact ⟨he,hf⟩
  · by_cases hg : g = f
    · subst hg
      refine ⟨hself.symm ▸ hle,Nat.le_refl _,fun heng => ?_⟩
      have hb : b.uidValidity = w.epoch g := by_contra (fun hne => (hidle hne).1 t ht hrun heng)
      have he := hself.trans hb
      exact ⟨he,fun hc => ⟨hc.1,hc.2.imp (fun hf => Eq.trans hf he.symm) id⟩⟩
    · have he := hother g hg
      exact ⟨he.ge,Nat.le_refl _,fun _ =>
        ⟨he,fun hc => ⟨hc.1,hc.2.imp (fun hf => Eq.trans hf he.symm) id⟩⟩⟩

/-- The database is trimmed. -/
theorem epoch_trims {ts : List (Footing × Task Unit)} (h : epochs.Sound w ts)
    (ht : Db.Trimmed w.db db') : epochs.Sound { w with db := db' } ts := by
  obtain ⟨hw',hg⟩ := h.1.trim ht
  exact h.disturb hw' (fun t _ _ => epochs.rely_of_guarantee t.1 w _ hg)

theorem trimmed_insertFolderIfNew (d : Option String) (csv : String) :
    Db.Trimmed db (db.insertFolderIfNew f d csv) := by
  refine ⟨fun g => ?_,fun _ _ r hr => ⟨r,hr,rfl,rfl⟩⟩
  simp only [Db.checkpoint,Db.folder?_insertFolderIfNew]
  cases hr : db.folder? g with
  | some r => exact Or.inl rfl
  | none =>
    by_cases hg : g = f
    · exact Or.inr ⟨rfl,by simp [hg]⟩
    · exact Or.inl (by simp [hg])

theorem trimmed_initialFolderCheck : Db.Trimmed db (initialFolderCheck f db).2 := by
  unfold initialFolderCheck
  split
  · exact Db.Trimmed.refl db
  · dsimp only [Db.getFolder]
    split
    · exact Db.Trimmed.refl db
    · next hn =>
      refine ⟨fun g => ?_,fun g u r hr => ?_⟩
      · by_cases hg : g = f
        · subst hg
          refine Or.inr ⟨by simp [Db.checkpoint,hn],?_⟩
          simp [Db.checkpoint,Db.folder?_upsertFolder,Db.UpsertFolderParams.row]
        · exact Or.inl (by simp [Db.checkpoint,Db.folder?_upsertFolder,hg])
      · rw [Db.message?_upsertFolder] at hr
        split at hr
        · simp at hr
        · exact ⟨r,hr,rfl,rfl⟩

/-- What a listing reads from the cache is what it knows. -/
theorem initialFolderCheck_known {initial : InitialFolderCheck} (hw : w.Consistent)
    (h : (initialFolderCheck f w.db).1 = some initial) :
    initial.cachedUidValidity = w.db.uidValidity f ∧
      Known [(f,initial.cachedUidValidity)] { w with db := (initialFolderCheck f w.db).2 } := by
  have ht := @trimmed_initialFolderCheck w.db f
  have hv : initial.cachedUidValidity = w.db.uidValidity f := by
    unfold initialFolderCheck at h
    split at h
    · simp at h
    · obtain rfl := Option.some.inj h
      simp [Db.uidValidity,Db.checkpoint,Db.getFolder,Function.comp_def]
  have hrow : ((initialFolderCheck f w.db).2.checkpoint f).isSome := by
    unfold initialFolderCheck at h ⊢
    split at h
    · simp at h
    · next hfresh =>
      rw [if_neg hfresh]
      dsimp only [Db.getFolder]
      split
      · next r hr => simp [Db.checkpoint,hr]
      · simp [Db.checkpoint,Db.folder?_upsertFolder]
  refine ⟨hv,fun p hp => ?_⟩
  obtain rfl := List.mem_singleton.mp hp
  refine ⟨(hv.trans (ht.uidValidity f).symm).le,fun h0 => ?_⟩
  exact (hw.trim ht).1.clean_of_zero hrow ((ht.uidValidity f).trans (hv.symm.trans h0))

theorem known_folderSnapshots (hw : w.Consistent) : Known (toCompare (folderSnapshots w.db)) w := by
  intro p hp
  obtain ⟨s,hs,rfl⟩ := List.mem_map.mp hp
  obtain ⟨row,hrow,he⟩ := mem_folderSnapshots.mp hs
  have hc : w.db.checkpoint s.name = some (s.uidValidity,row.highestModseq) := by
    rw [Db.checkpoint,hrow,he]
    rfl
  have hv : w.db.uidValidity s.name = s.uidValidity := by simp [Db.uidValidity,hc]
  exact ⟨hv.ge,fun h0 => hw.clean_of_zero (by simp [hc]) (hv.trans h0)⟩

/-- A folder read as never synced has no modification sequence either. -/
theorem modseq_folderSnapshots (hw : w.Consistent) {s : FolderSnapshot}
    (hs : s ∈ folderSnapshots w.db) (h0 : s.uidValidity = 0) : s.highestModseq = 0 := by
  obtain ⟨row,hrow,he⟩ := mem_folderSnapshots.mp hs
  refine hw.modseq s.name s.highestModseq ?_
  rw [Db.checkpoint,hrow,Option.map_some,← h0,he]

/-- A listing once it has looked at the cache and learnt `r`. -/
theorem outline_listing (r : Option InitialFolderCheck) :
    epochs.Outline (fun _ _ _ => True) G
      (fun w => ∀ initial, r = some initial → Known [(f,initial.cachedUidValidity)] w)
      ((match r with
        | none => pure (.ok false)
        | some initial => listStale f initial) >>= fun _ => (pure () : Task Unit)) := by
  cases r with
  | none => exact fun _ _ _ => trivial
  | some initial =>
    exact ((outline_listStale initial).mono (fun _ _ h => h initial rfl)).bind
      (fun _ _ _ _ _ => trivial)

theorem Pool.sound_listMessages {p : Pool} (h : epochs.Sound p.world p.tasks) :
    epochs.Sound (p.enter ⟨[(f,p.world.db.uidValidity f)],none⟩ (listingTask f)).world
      (p.enter ⟨[(f,p.world.db.uidValidity f)],none⟩ (listingTask f)).tasks := by
  have h' := epoch_trims h (@trimmed_initialFolderCheck p.world.db f)
  refine h'.start (fun initial hi => (initialFolderCheck_known h.1 hi).2) ?_
    (outline_listing (initialFolderCheck f p.world.db).1)
  intro w w' hw hw' hr hk initial hi
  have hv := (initialFolderCheck_known h.1 hi).1
  exact stable_known (fun q hq => by rwa [hv] at hq) w w' hw hw' hr (hk initial hi)

theorem Pool.sound_step {p p' : Pool} {e : PoolEvent} (h : epochs.Sound p.world p.tasks)
    (hs : p.Sheltered e) (he : p.step e = some p') : epochs.Sound p'.world p'.tasks := by
  cases e with
  | server f c =>
    obtain ⟨b,hb,rfl⟩ := Option.map_eq_some_iff.mp he
    refine epoch_moves h ?_ (fun hne => ?_)
    · rcases Mailbox.apply_later hb with ⟨hl,-⟩ | hlt
      · exact hl.uidValidity.ge
      · exact hlt.le
    · cases c with
      | rebuild b₁ => exact hs
      | _ => exact absurd (Mailbox.uidValidity_apply hb (by simp)) hne
  | tick secs =>
    obtain rfl := Option.some.inj he
    exact epoch_trims h (Db.trimmed_of_checkpoint (fun _ => rfl) (fun _ _ => rfl))
  | setDeepIndex on =>
    obtain rfl := Option.some.inj he
    exact epoch_trims h (Db.trimmed_of_checkpoint (fun _ => rfl) (fun _ _ => rfl))
  | listFolders f delimiter csv =>
    obtain rfl := Option.some.inj he
    exact epoch_trims h (trimmed_insertFolderIfNew delimiter csv)
  | listMessages f =>
    obtain rfl := Option.some.inj he
    exact Pool.sound_listMessages h
  | runSync =>
    obtain rfl := Option.some.inj he
    exact h.start (known_folderSnapshots h.1) (stable_known (fun _ hp => hp))
      (outline_syncSnapshots (fun s hs' h0 => modseq_folderSnapshots h.1 hs' h0)
        (nodup_folderSnapshots _) (fun _ hp => hp))
  | background i =>
    obtain ⟨b,hb,rfl⟩ := Option.map_eq_some_iff.mp he
    have hmem := List.mem_of_getElem? hb
    have h' : epochs.Sound { p.world with background := p.world.background.eraseIdx i } p.tasks :=
      h.disturb ⟨h.1.rows,h.1.pos,h.1.modseq,h.1.le,
        fun c hc => h.1.background c (List.mem_of_mem_eraseIdx hc)⟩
        (fun t _ _ => epochs.rely_of_guarantee t.1 _ _ (fun _ => ⟨rfl,Nat.le_refl _,id⟩))
    have hG : Footing.Engaged ⟨[],some b.folder⟩ b.folder := Or.inl rfl
    exact h'.start (h.1.background b hmem) ((stable_epoch hG _).and (stable_fixed hG))
      (outline_syncRemainingHeaders b hG)
  | call i fails =>
    simp only [Pool.step] at he
    split at he
    · next g c k ht =>
      obtain rfl := Option.some.inj he
      refine h.call ht ⟨fails,rfl,?_⟩
      rintro rfl
      simpa [Pool.Sheltered,ht] using hs
    · simp at he

theorem World.Blank.consistent (h : w.Blank) : w.Consistent := by
  have hrow : ∀ f, w.db.folder? f = none := fun f => by
    rw [← Option.not_isSome_iff_eq_none,Option.isSome_iff_exists]
    rintro ⟨row,hr⟩
    have hm := (Table.find?_eq_some.mp hr).1
    rw [h.1] at hm
    simp at hm
  have hc : ∀ f, w.db.checkpoint f = none := fun f => by simp [Db.checkpoint,hrow]
  have hm : ∀ f u r, w.db.message? f u ≠ some r := by
    intro f u r hr
    obtain ⟨row,hr'⟩ := Db.folder?_isSome_of_mem_uids (Db.mem_uids.mpr ⟨r,hr⟩)
    rw [hrow] at hr'
    simp at hr'
  refine ⟨fun f u r hr => absurd hr (hm f u r),fun f u r hr => absurd hr (hm f u r),
    fun f m hf => ?_,fun f => ?_,fun b hb => ?_⟩
  · rw [hc] at hf
    simp at hf
  · simp [Db.uidValidity,hc]
  · rw [h.2] at hb
    simp at hb

/-- In every interleaving in which a folder is rebuilt only while no task is engaged with it, and
bodies are fetched only for folders whose cache is under the server's UIDVALIDITY, every cached
row was fetched under the validity stored for its folder. -/
theorem epochs_agree {p : Pool} {es : List PoolEvent} (hw : w.Blank)
    (h : Run Pool.step Pool.Sheltered (Pool.opening w) es p) : p.world.db.EpochCorrect := by
  have hs := h.invariant (P := fun p => epochs.Sound p.world p.tasks)
    ⟨World.Blank.consistent hw,fun t ht => absurd ht List.not_mem_nil⟩
    (fun _ _ _ hp hok hst => Pool.sound_step hp hok hst)
  exact hs.1.rows

/-! ### Samples -/

/-- One message under a UIDVALIDITY. -/
def oneMessage (v : Nat) (h : 0 < v) : Mailbox := (Mailbox.fresh v h true true).deliverPlain 1

def openingOne : World := World.opening (fun _ => oneMessage 1 Nat.one_pos)

/-- A listing and a cycle overlap, the folder is rebuilt once both are through, and another
listing and another cycle overlap. -/
def overlapping : List PoolEvent :=
  [.listMessages "INBOX",.call 0 none,.runSync,.call 1 none,.call 0 none,.call 0 none,.call 0 none,
    .call 1 none,.call 1 none,.call 1 none,.call 1 none,
    .server "INBOX" (.rebuild (oneMessage 2 Nat.two_pos)),.tick 60,
    .listMessages "INBOX",.call 2 none,.runSync,.call 2 none,.call 3 none,.call 2 none,.call 2 none]

theorem epochs_agree_overlapping :
    ∃ p, Run Pool.step Pool.Sheltered (Pool.opening openingOne) overlapping p ∧
      p.world.db.EpochCorrect ∧ p.world.db.uidValidity "INBOX" = 2 ∧
      p.world.db.uids "INBOX" = {1} := by
  have hv : (execWhere Pool.step Pool.Sheltered (Pool.opening openingOne) overlapping).map
      (fun p => (p.world.db.uidValidity "INBOX",p.world.db.uids "INBOX")) = some (2,{1}) := by
    decide
  obtain ⟨p,hrun,hpv⟩ := run_of_map_execWhere hv
  exact ⟨p,hrun,epochs_agree (World.blank_opening _) hrun,congrArg Prod.fst hpv,
    congrArg Prod.snd hpv⟩

/-- A listing asks for STATUS, the folder is rebuilt, and the listing goes on. -/
def rebuiltMidway : List PoolEvent :=
  [.listMessages "INBOX",.call 0 none,.server "INBOX" (.rebuild (oneMessage 2 (by decide))),
    .call 0 none,.call 0 none,.call 0 none]

/-- Rows of the new epoch end up under the old validity. -/
theorem rebuild_goes_unnoticed :
    ¬∀ (w : World) (es : List PoolEvent) (p : Pool), w.Blank →
      Run Pool.step (fun _ _ => True) (Pool.opening w) es p → p.world.db.EpochCorrect := by
  intro hall
  have hv : (execWhere Pool.step (fun _ _ => True) (Pool.opening openingOne) rebuiltMidway).map
      (fun p => (p.world.db.uidValidity "INBOX",
        (p.world.db.message? "INBOX" 1).map (fun r => r.origin.uidValidity))) = some (1,some 2) := by
    decide
  obtain ⟨p,hrun,hpv⟩ := run_of_map_execWhere hv
  obtain ⟨h1,h2⟩ := Prod.mk.inj hpv
  obtain ⟨r,hr,ho⟩ := Option.map_eq_some_iff.mp h2
  have hc := (hall openingOne rebuiltMidway p (World.blank_opening _) hrun
    "INBOX" 1 r hr).1
  rw [ho,h1] at hc
  exact absurd hc (by decide)

end Rav
