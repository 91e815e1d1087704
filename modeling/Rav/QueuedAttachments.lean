import Rav.Realtime.MailRoom

/-!
# The attachments of a queued mail

The queue stores which draft a mail comes from, and every attempt reads the attachments anew. So a
submission carries what the draft had when the mail was queued as long as nobody has touched the
attachments when the attempt reads them.

## Main definitions

- `Undisturbed`, `MailRoom.Ok` — the attachments are read while the draft is untouched
- `MailRoom.Carries` — what a submission carries
- `QueuedMail.Unchanged`, `QueuedMail.Read`, `RoomInv` — the invariant
-/

namespace Rav

/-! ### The condition -/

/-- An attempt reads while nobody has touched the attachments of the draft since the mail was
queued; an id drawn for a mail is new, and a mail with PGP parameters has no attachments. -/
def Undisturbed (env : MailEnv) (s : MailRoom) : AttemptStance → MailCall → Prop
  | _, .enqueue e => (∀ m ∈ s.queued, m.entry.id ≠ e.id) ∧
      (e.pgpJson.bind env.pgpFromJson = none ∨
        s.threads.world.draftAttachments e.draftId = [])
  | .fresh e, .getDraftAttachments _ => e.id ∉ s.touched
  | .reading e _ _, .readFile _ => e.id ∉ s.touched
  | _, _ => True

instance (env : MailEnv) (s : MailRoom) (g : AttemptStance) (c : MailCall) :
    Decidable (Undisturbed env s g c) := by
  cases g <;> cases c <;> (dsimp only [Undisturbed]; infer_instance)

/-- A step that is taken with care. -/
def MailRoom.Ok (env : MailEnv) (s : MailRoom) : MailRoomEvent → Prop
  | .call i _ => ∀ t ∈ s.threads.upcoming i, Undisturbed env s t.1 t.2
  | _ => True

instance (env : MailEnv) (s : MailRoom) (a : MailRoomEvent) : Decidable (s.Ok env a) := by
  cases a <;> (dsimp only [MailRoom.Ok]; infer_instance)

/-! ### The attachments of one mail -/

namespace QueuedMail

variable (m : QueuedMail)

/-- The row of the queue is the one of the mail. -/
def Matches (e : OutboxEntry) : Prop :=
  e.id = m.entry.id ∧ e.draftId = m.entry.draftId ∧ e.pgpJson = m.entry.pgpJson

/-- The draft has the attachments it had. -/
def Unchanged (w : MailWorld) : Prop :=
  w.draftAttachments m.entry.draftId = m.rows ∧
    ∀ a ∈ m.rows, w.readFile a.filePath = m.before.readFile a.filePath

/-- What has been read of the attachments the draft had, and what is left. -/
def Read (todo : List DraftAttachment) (done : List AttachmentData) : Prop :=
  ∃ pre, m.rows = pre ++ todo ∧ pre.mapM m.before.fileData = some done

end QueuedMail

/-! #### Calls that do not touch it -/

section Statements

variable {db db' : DraftDb} {d : String}

theorem getDraftAttachments_congr
    (h : db'.attachments.rows.filter (fun a => a.draftUuid = d) =
      db.attachments.rows.filter (fun a => a.draftUuid = d)) :
    db'.getDraftAttachments d = db.getDraftAttachments d := by
  unfold DraftDb.getDraftAttachments
  rw [h]

theorem mem_getDraftAttachments {a : DraftAttachment} :
    a ∈ db.getDraftAttachments d ↔ a ∈ db.attachments.rows ∧ a.draftUuid = d := by
  unfold DraftDb.getDraftAttachments
  rw [List.mem_insertionSort,List.mem_filter,decide_eq_true_iff]

theorem getDraftAttachments_upsertStaging (uuid : String) (imapUid : Option Nat)
    (reply : Option String) :
    ((db.upsertStaging uuid imapUid reply).getD db).getDraftAttachments d =
      db.getDraftAttachments d := by
  cases h : db.upsertStaging uuid imapUid reply with
  | none => rfl
  | some db' => exact getDraftAttachments_congr (by rw [Option.getD_some,(DraftDb.upsertStaging_spec h).1])

/-- Discarding a draft leaves the attachments of others. -/
theorem getDraftAttachments_deleteStaging (k : String) :
    (db.deleteStaging k).2.getDraftAttachments d =
      if k = d then [] else db.getDraftAttachments d := by
  split
  · next hk =>
    refine List.eq_nil_iff_forall_not_mem.mpr fun a ha => ?_
    obtain ⟨ha,hd⟩ := mem_getDraftAttachments.mp ha
    have hne : ¬a.draftUuid = k := by simpa using (List.mem_filter.mp ha).2
    exact hne (hd.trans hk.symm)
  · next hk =>
    refine getDraftAttachments_congr ?_
    show (db.attachments.rows.filter _).filter _ = _
    rw [List.filter_filter]
    refine List.filter_congr fun a _ => ?_
    by_cases had : a.draftUuid = d
    · have hdk : ¬d = k := fun h => hk h.symm
      simp [had,hdk]
    · simp [had]

theorem getDraftAttachments_insertAttachment {a : DraftAttachment} (ha : a.draftUuid ≠ d) :
    ((db.insertAttachment a).getD db).getDraftAttachments d = db.getDraftAttachments d := by
  unfold DraftDb.insertAttachment
  split
  · refine getDraftAttachments_congr ?_
    show (db.attachments.insertOrIgnore a).rows.filter _ = _
    unfold Table.insertOrIgnore
    split
    · rfl
    · rw [List.filter_append,List.filter_singleton]
      simp [ha]
  · rfl

theorem getDraftAttachments_deleteDraftAttachment {id : String}
    (hid : ∀ a ∈ db.getDraftAttachments d, a.id ≠ id) :
    (db.deleteDraftAttachment id).2.getDraftAttachments d = db.getDraftAttachments d := by
  refine getDraftAttachments_congr ?_
  show (db.attachments.rows.filter _).filter _ = _
  rw [List.filter_filter]
  refine List.filter_congr fun a ha => ?_
  by_cases had : a.draftUuid = d
  · have hne := hid a (mem_getDraftAttachments.mpr ⟨ha,had⟩)
    simp [had,hne]
  · simp [had]

end Statements

section Untouched

variable {m : QueuedMail} {w w' : MailWorld} {c : MailCall} {o : MailOutcome}

/-- A search does not miss what a filter keeps. -/
theorem find?_filter_of_imp {α : Type} {p q : α → Bool} {l : List α}
    (h : ∀ a ∈ l, q a = true → p a = true) : (l.filter p).find? q = l.find? q := by
  induction l with
  | nil => rfl
  | cons a l ih =>
    have hl : ∀ b ∈ l, q b = true → p b = true := fun b hb => h b (List.mem_cons_of_mem a hb)
    by_cases hq : q a = true
    · have hp := h a List.mem_cons_self hq
      rw [List.filter_cons_of_pos hp,List.find?_cons_of_pos hq,List.find?_cons_of_pos hq]
    · rw [List.find?_cons_of_neg hq,← ih hl]
      by_cases hp : p a = true
      · rw [List.filter_cons_of_pos hp,List.find?_cons_of_neg hq]
      · rw [List.filter_cons_of_neg hp]

/-- Taking out files that do not include one. -/
theorem readFile_filter {p : String × List UInt8 → Bool} {path : String}
    (h : ∀ f ∈ w.files, f.1 = path → p f = true) :
    ({ w with files := w.files.filter p } : MailWorld).readFile path = w.readFile path :=
  congrArg (Option.map Prod.snd)
    (find?_filter_of_imp fun f hf hpath => h f hf (of_decide_eq_true hpath))

theorem readFile_writeFile {path k : String} {data : List UInt8} (h : path ≠ k) :
    (w.writeFile k data).readFile path = w.readFile path := by
  have hfilter : ({ w with files := w.files.filter (fun f => f.1 ≠ k) } : MailWorld).readFile path =
      w.readFile path := readFile_filter fun f _ hf => decide_eq_true (hf ▸ h)
  rw [← hfilter]
  unfold MailWorld.writeFile MailWorld.readFile
  rw [List.find?_cons_of_neg (by simpa using h.symm)]

/-- A call that does not touch the attachments of a mail leaves them as they were. -/
theorem effect_unchanged (h : m.touches c = false) (hu : m.Unchanged w) :
    m.Unchanged (c.effect w) := by
  obtain ⟨hrows,hfiles⟩ := hu
  have hno : ∀ {q : DraftAttachment → Bool}, m.rows.any q = false → ∀ a ∈ m.rows, ¬q a = true :=
    fun hany a ha hq => absurd (List.any_eq_true.mpr ⟨a,ha,hq⟩) (Bool.eq_false_iff.mp hany)
  have hdraft : ∀ {w' : MailWorld}, w'.files = w.files →
      (∀ d, m.entry.draftId = some d →
        w'.drafts.getDraftAttachments d = w.drafts.getDraftAttachments d) → m.Unchanged w' := by
    intro w' hf hd
    refine ⟨?_,fun a ha => ?_⟩
    · rw [← hrows]
      cases hid : m.entry.draftId with
      | none => rfl
      | some d => exact hd d hid
    · rw [← hfiles a ha]
      unfold MailWorld.readFile
      rw [hf]
  cases c with
  | upsertStaging uuid imapUid reply =>
    exact hdraft rfl fun d _ => getDraftAttachments_upsertStaging uuid imapUid reply
  | deleteStaging k =>
    refine hdraft rfl fun d hd => (getDraftAttachments_deleteStaging k).trans ?_
    split
    · next hk =>
      subst hk
      have hempty : m.rows.isEmpty = true := by
        simpa [QueuedMail.touches,hd] using h
      rw [List.isEmpty_iff.mp hempty,hd] at hrows
      exact hrows.symm
    · rfl
  | insertAttachment id k filename contentType size filePath =>
    refine hdraft rfl fun d hd => getDraftAttachments_insertAttachment ?_
    rintro rfl
    exact absurd (decide_eq_true hd) (Bool.eq_false_iff.mp h)
  | deleteDraftAttachment id =>
    refine hdraft rfl fun d hd => getDraftAttachments_deleteDraftAttachment fun a ha hid => ?_
    have hmem : a ∈ m.rows := by
      rw [← hrows,hd]
      exact ha
    exact hno h a hmem (decide_eq_true hid)
  | writeFile path data =>
    refine ⟨hrows,fun a ha => (readFile_writeFile fun hp => ?_).trans (hfiles a ha)⟩
    exact hno h a ha (decide_eq_true hp)
  | removeFile path =>
    refine ⟨hrows,fun a ha => (readFile_filter fun f _ hf => ?_).trans (hfiles a ha)⟩
    exact decide_eq_true fun hp => hno h a ha (decide_eq_true (hf.symm.trans hp))
  | removeDirAll dir =>
    refine ⟨hrows,fun a ha => (readFile_filter fun f _ hf => ?_).trans (hfiles a ha)⟩
    have hdir := hno h a ha
    rw [← hf] at hdir
    exact (Bool.not_eq_true' _).mpr (Bool.eq_false_iff.mpr hdir)
  | _ => exact ⟨hrows,hfiles⟩

/-- So does a call that fails. -/
theorem serveMail_unchanged (h : o.fails = none → m.touches c = false) (hu : m.Unchanged w) :
    m.Unchanged (serveMail o c w).2 := by
  cases ht : m.touches c with
  | false => exact serveMail_frame hu (effect_unchanged ht hu)
  | true =>
    cases hf : o.fails with
    | none => exact absurd (ht.symm.trans (h hf)) nofun
    | some e =>
      have hsame : (serveMail o c w).2 = w := by
        cases c with
        | insertAttachment id k filename contentType size filePath =>
          exact MailOutcome.runOption_some hf
        | deleteDraftAttachment id => exact congrArg Prod.snd (MailOutcome.run_some hf)
        | deleteStaging k => exact congrArg Prod.snd (MailOutcome.run_some hf)
        | writeFile path data => exact congrArg Prod.snd (MailOutcome.run_some hf)
        | removeFile path => exact MailOutcome.runOption_some hf
        | removeDirAll dir => exact congrArg Prod.snd (MailOutcome.run_some hf)
        | _ => exact absurd ht nofun
      rw [hsame]
      exact hu

end Untouched

/-! ### The queue -/

section Queue

variable {w : MailWorld} {c : MailCall} {o : MailOutcome} {m : QueuedMail} {e e' : OutboxEntry}

/-- A row with the content of another. -/
def SameMail (e e' : OutboxEntry) : Prop :=
  e'.id = e.id ∧ e'.draftId = e.draftId ∧ e'.pgpJson = e.pgpJson

theorem QueuedMail.Matches.same (h : m.Matches e) (hs : SameMail e e') : m.Matches e' :=
  ⟨hs.1.trans h.1,hs.2.1.trans h.2.1,hs.2.2.trans h.2.2⟩

theorem updateRow_same {t : Outbox} {id : String} {g : OutboxEntry → OutboxEntry}
    (hg : ∀ r, (g r).id = r.id) (hsame : ∀ r, SameMail r (g r))
    (he : e' ∈ (t.updateRow id g hg).rows) : ∃ e ∈ t.rows, SameMail e e' := by
  obtain ⟨r,hr,rfl⟩ := List.mem_map.mp he
  refine ⟨r,hr,?_⟩
  split
  · exact hsame r
  · exact ⟨rfl,rfl,rfl⟩

/-- The rows after a mail has been stored. -/
theorem rows_enqueue {t t' : Outbox} {n : NewOutboxEntry} {now : Nat}
    (h : t.enqueue n now = some t') (he : e' ∈ t'.rows) : e' ∈ t.rows ∨ e' = n.row now := by
  unfold Outbox.enqueue at h
  split at h
  · simp at h
  · obtain rfl := Option.some.inj h
    unfold Table.insertOrIgnore at he
    split at he
    · exact Or.inl he
    · rcases List.mem_append.mp he with he | he
      · exact Or.inl he
      · exact Or.inr (List.mem_singleton.mp he)

/-- A row of the queue after a call was there before, up to its state, or the call has queued it. -/
theorem queue_rows (he : e' ∈ (serveMail o c w).2.queue.rows) :
    (∃ e ∈ w.queue.rows, SameMail e e') ∨
      ∃ m ∈ MailRoom.newlyQueued o w c, m.Matches e' := by
  have hold : ∀ e ∈ w.queue.rows, ∃ e₁ ∈ w.queue.rows, SameMail e₁ e :=
    fun e he => ⟨e,he,rfl,rfl,rfl⟩
  have heffect : (∀ e ∈ (c.effect w).queue.rows, ∃ e₁ ∈ w.queue.rows, SameMail e₁ e) →
      ∃ e ∈ w.queue.rows, SameMail e e' := fun hc =>
    serveMail_frame (P := fun w' => e' ∈ w'.queue.rows → ∃ e ∈ w.queue.rows, SameMail e e')
      (hold e') (hc e') he
  cases c with
  | enqueue n =>
    have hserve : serveMail o (.enqueue n) w = o.runOption w
        "Failed to enqueue outbox entry: UNIQUE constraint failed: outbox.id"
        ((w.queue.enqueue n w.now).map (fun t => ((),{ w with queue := t }))) := rfl
    rw [hserve] at he
    cases ht : w.queue.enqueue n w.now with
    | none =>
      rw [ht] at he
      exact Or.inl (hold e' he)
    | some t =>
      rw [ht] at he
      cases hf : o.fails with
      | some msg =>
        rw [MailOutcome.runOption_some hf] at he
        exact Or.inl (hold e' he)
      | none =>
        have hrun : (o.runOption w "Failed to enqueue outbox entry: UNIQUE constraint failed: outbox.id"
            ((some t).map (fun t => ((),{ w with queue := t })))).2 = { w with queue := t } :=
          congrArg Prod.snd (MailOutcome.run_none hf)
        rw [hrun] at he
        rcases rows_enqueue ht he with he | rfl
        · exact Or.inl (hold e' he)
        · refine Or.inr ⟨⟨n,w⟩,?_,rfl,rfl,rfl⟩
          have hnew : MailRoom.newlyQueued o w (.enqueue n) = [⟨n,w⟩] :=
            if_pos ⟨hf,Option.isSome_iff_exists.mpr ⟨t,ht⟩⟩
          rw [hnew]
          exact List.mem_singleton_self _
  | markSending id =>
    refine Or.inl (heffect fun e he => updateRow_same ?_ ?_ he)
    · exact fun _ => rfl
    · exact fun _ => ⟨rfl,rfl,rfl⟩
  | markRetry id delay reason =>
    refine Or.inl (heffect fun e he => updateRow_same ?_ ?_ he)
    · exact fun _ => rfl
    · exact fun _ => ⟨rfl,rfl,rfl⟩
  | markFailed id reason =>
    refine Or.inl (heffect fun e he => updateRow_same ?_ ?_ he)
    · exact fun _ => rfl
    · exact fun _ => ⟨rfl,rfl,rfl⟩
  | deleteEntry id => exact Or.inl (heffect fun e he => hold e (List.mem_filter.mp he).1)
  | _ => exact Or.inl (heffect hold)

end Queue

/-! ### The invariant -/

/-- Every submission of a queued mail carries what its draft had. -/
def MailRoom.Carries (s : MailRoom) : Prop :=
  ∀ l ∈ s.log, ∀ m ∈ s.queued, m.entry.id = l.1 → some l.2.carried = m.snapshot

instance (s : MailRoom) : Decidable s.Carries := by unfold MailRoom.Carries; infer_instance

/-- What a stance knows of the mail its attempt is about. -/
def Held (queued : List QueuedMail) : AttemptStance → Prop
  | .other => True
  | .fresh e => ∃ m ∈ queued, m.Matches e
  | .reading e todo done => ∃ m ∈ queued, m.Matches e ∧ m.Read todo done

/-- Every row and every attempt is of a queued mail; attempts have read what the draft had, and it
still has what it had unless it has been touched. -/
structure RoomInv (env : MailEnv) (s : MailRoom) : Prop where
  ids : (s.queued.map (fun m => m.entry.id)).Nodup
  rows : ∀ e ∈ s.threads.world.queue.rows, ∃ m ∈ s.queued, m.Matches e
  listed : ∀ e ∈ s.listed, ∃ m ∈ s.queued, m.Matches e
  keep : s.threads.Keep (AttemptStance.Allows env) AttemptStance.next (fun _ _ => True)
  held : ∀ t ∈ s.threads.tasks, Held s.queued t.1
  untouched : ∀ m ∈ s.queued, m.entry.id ∉ s.touched → m.Unchanged s.threads.world
  plain : ∀ m ∈ s.queued, m.entry.pgpJson.bind env.pgpFromJson = none ∨ m.rows = []
  log : ∀ l ∈ s.log, ∃ m ∈ s.queued, m.entry.id = l.1 ∧ some l.2.carried = m.snapshot

section Steps

open AttemptStance

variable {env : MailEnv} {s s' : MailRoom} {g : AttemptStance} {c : MailCall} {o : MailOutcome}
  {queued queued' : List QueuedMail} {w : MailWorld}

theorem Held.mono (h : Held queued g) (hsub : ∀ m ∈ queued, m ∈ queued') : Held queued' g := by
  cases g with
  | other => trivial
  | fresh e =>
    obtain ⟨m,hm,hmatch⟩ := h
    exact ⟨m,hsub m hm,hmatch⟩
  | reading e todo done =>
    obtain ⟨m,hm,hmatch⟩ := h
    exact ⟨m,hsub m hm,hmatch⟩

/-- The rows an answer lists are the rows there are. -/
theorem listed_rows {d : String} {rows : List DraftAttachment}
    (h : (serveMail o (.getDraftAttachments d) w).1 = Except.ok rows) :
    rows = w.drafts.getDraftAttachments d := by
  have hrun : (o.run w (w.drafts.getDraftAttachments d,w)).1 = .ok rows := h
  rcases MailOutcome.run_cases o w (w.drafts.getDraftAttachments d,w) with ⟨e,-,hr⟩ | ⟨-,hr⟩
  · rw [hr] at hrun
    exact absurd hrun nofun
  · rw [hr] at hrun
    exact (Except.ok.inj hrun).symm

/-- The data an answer returns is the content of the file. -/
theorem read_data {path : String} {data : List UInt8}
    (h : (serveMail o (.readFile path) w).1 = Except.ok data) : w.readFile path = some data := by
  have hrun : (o.runOption w "No such file or directory (os error 2)"
      ((w.readFile path).map (fun data => (data,w)))).1 = .ok data := h
  cases hd : w.readFile path with
  | none =>
    rw [hd] at hrun
    exact absurd hrun nofun
  | some data' =>
    rw [hd] at hrun
    rcases MailOutcome.run_cases o w (data',w) with ⟨e,-,hr⟩ | ⟨-,hr⟩
    · have hrun' : (o.run w (data',w)).1 = .ok data := hrun
      rw [hr] at hrun'
      exact absurd hrun' nofun
    · have hrun' : (o.run w (data',w)).1 = .ok data := hrun
      rw [hr] at hrun'
      exact congrArg some (Except.ok.inj hrun')

/-- An attempt that reads with care reads what the draft had. -/
theorem held_next (hinv : RoomInv env s) (hallow : g.Allows env c) (hcare : Undisturbed env s g c)
    (hheld : Held s.queued g) : Held s.queued (g.next c (serveMail o c s.threads.world).1) := by
  rcases next_cases g c (serveMail o c s.threads.world).1 with h | h
  · rw [h]
    exact hheld
  generalize hr : (serveMail o c s.threads.world).1 = r at h ⊢
  generalize g.next c r = g' at h ⊢
  cases h with
  | list e d rows =>
    obtain ⟨m,hm,hmatch⟩ := hheld
    have hfree : m.entry.id ∉ s.touched := hmatch.1 ▸ hcare
    have hdraft : m.entry.draftId = some d := hmatch.2.1.symm.trans hallow
    have hrows := (hinv.untouched m hm hfree).1
    rw [hdraft] at hrows
    refine ⟨m,hm,hmatch,[],?_,rfl⟩
    rw [List.nil_append,listed_rows hr]
    exact hrows.symm
  | read e a todo done path data =>
    obtain ⟨m,hm,hmatch,pre,hpre,hdone⟩ := hheld
    have hfree : m.entry.id ∉ s.touched := hmatch.1 ▸ hcare
    obtain ⟨a',rest,hcons,rfl⟩ := hallow
    obtain ⟨rfl,rfl⟩ := List.cons.inj hcons
    have hmem : a ∈ m.rows := by
      rw [hpre]
      exact List.mem_append_right _ List.mem_cons_self
    have hdata : m.before.fileData a = some (a.loaded data) := by
      unfold MailWorld.fileData
      rw [← (hinv.untouched m hm hfree).2 a hmem,read_data hr]
      rfl
    refine ⟨m,hm,hmatch,pre ++ [a],?_,?_⟩
    · rw [hpre,List.append_assoc]
      rfl
    · rw [List.mapM_append,hdone]
      simp [hdata]

/-- The message of a mail carries the attachments it has been given: with PGP parameters there are
none. -/
theorem carried_eq {m : QueuedMail} {e : OutboxEntry} {message : Smtp.SendableMessage}
    {bytes : List UInt8} (hmatch : m.Matches e)
    (hplain : m.entry.pgpJson.bind env.pgpFromJson = none ∨ m.rows = [])
    (hpgp : message.pgp = storedPgp env e) (hsnap : m.snapshot = some message.attachments) :
    some (Submission.carried ⟨message,bytes⟩) = m.snapshot := by
  have hstored : message.pgp = m.entry.pgpJson.bind env.pgpFromJson := by
    rw [hpgp,← hmatch.2.2]
    rfl
  unfold Submission.carried
  rw [hsnap]
  split
  · next hsome =>
    rcases hplain with hnone | hempty
    · rw [hstored,hnone] at hsome
      exact absurd hsome nofun
    · have hnil : m.snapshot = some [] := by
        unfold QueuedMail.snapshot
        rw [hempty]
        rfl
      exact hnil.symm.trans hsnap
  · rfl

/-- What an attempt submits carries what the draft had. -/
theorem submitted_carries (hplain : ∀ m ∈ queued,
      m.entry.pgpJson.bind env.pgpFromJson = none ∨ m.rows = [])
    (hallow : g.Allows env c) (hheld : Held queued g) {l : String × Submission}
    (hl : l ∈ MailRoom.submittedBy g c) :
    ∃ m ∈ queued, m.entry.id = l.1 ∧ some l.2.carried = m.snapshot := by
  cases g with
  | other => exact absurd hl List.not_mem_nil
  | fresh e =>
    cases c with
    | submit message bytes =>
      obtain rfl := List.mem_singleton.mp hl
      obtain ⟨m,hm,hmatch⟩ := hheld
      obtain ⟨hpgp,hdraft,hatts⟩ := hallow
      refine ⟨m,hm,hmatch.1.symm,carried_eq hmatch (hplain m hm) hpgp ?_⟩
      unfold QueuedMail.snapshot QueuedMail.rows
      rw [← hmatch.2.1,hdraft,hatts]
      rfl
    | _ => exact absurd hl List.not_mem_nil
  | reading e todo done =>
    cases c with
    | submit message bytes =>
      obtain rfl := List.mem_singleton.mp hl
      obtain ⟨m,hm,hmatch,pre,hpre,hdone⟩ := hheld
      obtain ⟨hpgp,rfl,hatts⟩ := hallow
      refine ⟨m,hm,hmatch.1.symm,carried_eq hmatch (hplain m hm) hpgp ?_⟩
      unfold QueuedMail.snapshot
      rw [hpre,List.append_nil,hdone,hatts]
    | _ => exact absurd hl List.not_mem_nil

/-- A call queues no mail, or one. -/
theorem newlyQueued_cases (o : MailOutcome) (w : MailWorld) (c : MailCall) :
    MailRoom.newlyQueued o w c = [] ∨
      ∃ e, c = .enqueue e ∧ MailRoom.newlyQueued o w c = [⟨e,w⟩] := by
  cases c with
  | enqueue e =>
    simp only [MailRoom.newlyQueued]
    split
    · exact Or.inr ⟨e,rfl,rfl⟩
    · exact Or.inl rfl
  | _ => exact Or.inl rfl

theorem newlyQueued_spec {m : QueuedMail} (hm : m ∈ MailRoom.newlyQueued o w c) :
    c = .enqueue m.entry ∧ m.before = w := by
  rcases newlyQueued_cases o w c with h | ⟨e,hc,h⟩
  · rw [h] at hm
    exact absurd hm List.not_mem_nil
  · rw [h] at hm
    obtain rfl := List.mem_singleton.mp hm
    exact ⟨hc,rfl⟩

theorem newlyQueued_unchanged {m : QueuedMail} (hm : m ∈ MailRoom.newlyQueued o w c) :
    m.Unchanged (serveMail o c w).2 := by
  obtain ⟨rfl,hw⟩ := newlyQueued_spec hm
  have hnow : m.Unchanged w := by
    subst hw
    exact ⟨rfl,fun _ _ => rfl⟩
  exact serveMail_unchanged (fun _ => rfl) hnow

/-- One call, made with care, keeps the invariant. -/
theorem roomInv_record {i : Nat} {k : c.Answer → MailTask Unit} (hinv : RoomInv env s)
    (ht : s.threads.tasks[i]? = some (g,.call c k)) (hcare : Undisturbed env s g c) :
    RoomInv env (s.record o g c ⟨(serveMail o c s.threads.world).2,s.threads.tasks.set i
      (g.next c (serveMail o c s.threads.world).1,k (serveMail o c s.threads.world).1)⟩) := by
  have hallow : g.Allows env c := hinv.keep.allowed ht
  have hheld : Held s.queued g := hinv.held _ (List.mem_of_getElem? ht)
  have hsub : ∀ m ∈ s.queued, m ∈ s.queued ++ MailRoom.newlyQueued o s.threads.world c :=
    fun m hm => List.mem_append_left _ hm
  have hplain : ∀ m ∈ s.queued ++ MailRoom.newlyQueued o s.threads.world c,
      m.entry.pgpJson.bind env.pgpFromJson = none ∨ m.rows = [] := by
    intro m hm
    rcases List.mem_append.mp hm with hm | hm
    · exact hinv.plain m hm
    · obtain ⟨rfl,hw⟩ := newlyQueued_spec hm
      unfold QueuedMail.rows
      rw [hw]
      exact (show (_ ∧ _) from hcare).2
  refine ⟨?_,?_,?_,hinv.keep.call ht,?_,?_,hplain,?_⟩
  · show ((s.queued ++ MailRoom.newlyQueued o s.threads.world c).map _).Nodup
    rcases newlyQueued_cases o s.threads.world c with h | ⟨e,rfl,h⟩
    · rw [h,List.append_nil]
      exact hinv.ids
    · have hfresh : ∀ m ∈ s.queued, m.entry.id ≠ e.id := (show (_ ∧ _) from hcare).1
      rw [h,List.map_append,List.nodup_append]
      refine ⟨hinv.ids,List.nodup_singleton _,?_⟩
      rintro id hid _ hnew rfl
      obtain ⟨m,hm,rfl⟩ := List.mem_map.mp hid
      exact hfresh m hm (List.mem_singleton.mp hnew)
  · intro e he
    rcases queue_rows he with ⟨e₀,he₀,hsame⟩ | ⟨m,hm,hmatch⟩
    · obtain ⟨m,hm,hmatch⟩ := hinv.rows e₀ he₀
      exact ⟨m,hsub m hm,hmatch.same hsame⟩
    · exact ⟨m,List.mem_append_right _ hm,hmatch⟩
  · intro e he
    obtain ⟨m,hm,hmatch⟩ := hinv.listed e he
    exact ⟨m,hsub m hm,hmatch⟩
  · intro t hmem
    rcases List.mem_or_eq_of_mem_set hmem with hmem | rfl
    · exact (hinv.held t hmem).mono hsub
    · exact (held_next hinv hallow hcare hheld).mono hsub
  · intro m hm hfree
    have hfree' : m.entry.id ∉ s.touched ∧ m.entry.id ∉ s.touchedBy o c :=
      ⟨fun h => hfree (List.mem_append_left _ h),fun h => hfree (List.mem_append_right _ h)⟩
    rcases List.mem_append.mp hm with hm | hm
    · refine serveMail_unchanged (fun hf => ?_) (hinv.untouched m hm hfree'.1)
      refine Bool.eq_false_iff.mpr fun htouch => hfree'.2 ?_
      unfold MailRoom.touchedBy
      rw [if_pos hf]
      exact List.mem_map.mpr ⟨m,List.mem_filter.mpr ⟨hm,htouch⟩,rfl⟩
    · exact newlyQueued_unchanged hm
  · intro l hl
    rcases List.mem_append.mp hl with hl | hl
    · obtain ⟨m,hm,hcarry⟩ := hinv.log l hl
      exact ⟨m,hsub m hm,hcarry⟩
    · obtain ⟨m,hm,hcarry⟩ := submitted_carries hinv.plain hallow hheld hl
      exact ⟨m,hsub m hm,hcarry⟩

/-- A thread joins in. -/
theorem roomInv_start {t : MailTask Unit} (hinv : RoomInv env s) (hheld : Held s.queued g)
    (ht : t.Follows (Allows env) next (fun _ _ => True) g) : RoomInv env (s.start g t) := by
  refine ⟨hinv.ids,hinv.rows,hinv.listed,hinv.keep.start ht,?_,hinv.untouched,hinv.plain,hinv.log⟩
  intro t' hmem
  rcases List.mem_append.mp hmem with hmem | hmem
  · exact hinv.held t' hmem
  · rw [List.mem_singleton.mp hmem]
    exact hheld

/-- A request may make any call. -/
theorem follows_other {α : Type} (t : MailTask α) :
    t.Follows (Allows env) next (fun _ _ => True) .other := by
  induction t with
  | pure a => trivial
  | call c k ih => exact ⟨by cases c <;> trivial,fun r => ih r⟩

/-- One step, taken with care, keeps the invariant. -/
theorem roomInv_step {a : MailRoomEvent} (hinv : RoomInv env s) (hok : s.Ok env a)
    (hstep : s.step env a = some s') : RoomInv env s' := by
  cases a with
  | tick n =>
    obtain rfl := Option.some.inj hstep
    exact ⟨hinv.ids,hinv.rows,hinv.listed,hinv.keep,hinv.held,hinv.untouched,hinv.plain,hinv.log⟩
  | request r =>
    obtain rfl := Option.some.inj hstep
    exact roomInv_start hinv trivial (follows_other _)
  | list =>
    obtain rfl := Option.some.inj hstep
    refine ⟨hinv.ids,hinv.rows,?_,hinv.keep,hinv.held,hinv.untouched,hinv.plain,hinv.log⟩
    intro e he
    rcases List.mem_append.mp he with he | he
    · exact hinv.listed e he
    · unfold Outbox.listDue at he
      exact hinv.rows e (List.mem_filter.mp ((List.mem_insertionSort _).mp he)).1
  | attempt e =>
    have hsome : (if e ∈ s.listed then some (s.start (.fresh e) (Delivery.processEntry env e))
      else none) = some s' := hstep
    split at hsome
    · next he =>
      obtain rfl := Option.some.inj hsome
      exact roomInv_start hinv (hinv.listed e he) (follows_processEntry e)
    · exact absurd hsome nofun
  | call i o =>
    cases hcall : s.threads.call (serveMail o) next i with
    | none =>
      have hnone : s.step env (.call i o) = none := by
        simp only [MailRoom.step,hcall]
        cases s.threads.upcoming i <;> rfl
      rw [hnone] at hstep
      exact absurd hstep nofun
    | some threads =>
      obtain ⟨g,c,k,ht,hthreads⟩ := Threads.call_eq_some.mp hcall
      have hup := Threads.upcoming_eq ht
      have hrec : s.step env (.call i o) = some (s.record o g c threads) := by
        simp only [MailRoom.step,hcall,hup]
      rw [hrec] at hstep
      obtain rfl := Option.some.inj hstep
      subst hthreads
      exact roomInv_record hinv ht (hok (g,c) hup)

/-- The empty queue. -/
theorem roomInv_opening (env : MailEnv) (w : MailWorld) : RoomInv env (MailRoom.opening w) where
  ids := List.nodup_nil
  rows := fun _ he => absurd he List.not_mem_nil
  listed := fun _ he => absurd he List.not_mem_nil
  keep := fun _ ht => absurd ht List.not_mem_nil
  held := fun _ ht => absurd ht List.not_mem_nil
  untouched := fun _ hm => absurd hm List.not_mem_nil
  plain := fun _ hm => absurd hm List.not_mem_nil
  log := fun _ hl => absurd hl List.not_mem_nil

theorem RoomInv.carries (h : RoomInv env s) : s.Carries := by
  intro l hl m hm hid
  obtain ⟨m',hm',hid',hcarried⟩ := h.log l hl
  have hsame : m = m' := List.inj_on_of_nodup_map h.ids hm hm' (hid.trans hid'.symm)
  rw [hsame]
  exact hcarried

end Steps

/-- In every run in which the attachments are read while the draft is as it was when the mail was
queued, a submission carries what the draft had. -/
theorem queued_mail_carries {env : MailEnv} {w : MailWorld} {es : List MailRoomEvent} {s : MailRoom}
    (h : Run (MailRoom.step env) (MailRoom.Ok env) (MailRoom.opening w) es s) : s.Carries :=
  (h.invariant (roomInv_opening env w) (fun _ _ _ hi hok hs => roomInv_step hi hok hs)).carries

/-! ### Samples -/

def reportRow : DraftAttachment :=
  ⟨"a","d","report.pdf","application/pdf",2,"/data/attachments/d/report.pdf",0⟩

/-- A draft with one attachment. -/
def reportMail : MailWorld :=
  { freshMail with
    drafts := ⟨⟨[⟨"d",none,none⟩],by decide⟩,⟨[reportRow],by decide⟩,by decide⟩
    files := [(reportRow.filePath,[37,80])] }

def reportRequest : SendRequest where
  to_ := ["bob@example.com"]
  cc := []
  bcc := []
  subject := "Report"
  textBody := some "Attached."
  htmlBody := none
  inReplyTo := none
  references := none
  draftId := some "d"
  fromIdentityId := none
  pgp := none

def reportEntry : OutboxEntry := (reportRequest.entry "1" none 5).row 0

/-- The mail is queued. -/
def queueReport : List MailRoomEvent :=
  .request (.enqueue reportRequest) :: List.replicate 4 (.call 0 placid)

/-- The worker takes it up and calls the `i`-th thread. -/
def sendReport (i n : Nat) : List MailRoomEvent :=
  [.tick 5,.list,.attempt reportEntry] ++ List.replicate n (.call i placid)

theorem queued_mail_carries_report :
    ∃ s, Run (MailRoom.step plainSite) (MailRoom.Ok plainSite) (MailRoom.opening reportMail)
        (queueReport ++ sendReport 1 21) s ∧
      s.log.map (fun l => l.2.carried) = [[reportRow.loaded [37,80]]] ∧ s.Carries := by
  have hv : (execWhere (MailRoom.step plainSite) (MailRoom.Ok plainSite)
      (MailRoom.opening reportMail) (queueReport ++ sendReport 1 21)).map
        (fun s => s.log.map (fun l => l.2.carried)) = some [[reportRow.loaded [37,80]]] := by
    decide
  obtain ⟨s,hrun,hl⟩ := run_of_map_execWhere hv
  exact ⟨s,hrun,hl,queued_mail_carries hrun⟩

/-- The attachment is deleted between the two. -/
def deleteBeforeSending : List MailRoomEvent :=
  queueReport ++ .request (.deleteAttachment "d" "a") :: List.replicate 5 (.call 1 placid) ++
    sendReport 2 9

/-- The mail is sent without it. -/
theorem queued_mail_sent_bare :
    ¬∀ (env : MailEnv) (w : MailWorld) (es : List MailRoomEvent) (s : MailRoom),
      Run (MailRoom.step env) (fun _ _ => True) (MailRoom.opening w) es s → s.Carries := by
  intro hall
  have hv : (execWhere (MailRoom.step plainSite) (fun _ _ => True) (MailRoom.opening reportMail)
      deleteBeforeSending).map (fun s => decide s.Carries) = some false := by
    decide
  obtain ⟨s,hrun,hl⟩ := run_of_map_execWhere hv
  exact of_decide_eq_false hl (hall _ _ _ s hrun)

end Rav
