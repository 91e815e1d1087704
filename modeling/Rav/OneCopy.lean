import Rav.Realtime.Delivery
import Rav.Runs

/-!
# One copy of a draft

The UID of the server's copy of a draft goes through the staging row, which saving, uploading,
sending and discarding all write. While the row names every copy, the next save or send removes
it; a request keeps it so unless it loses sight of a copy.

## Main definitions

- `MailWorld.copies`, `MailWorld.recorded` — the copies of a draft, and the UID on record
- `OneCopy` — at most one copy, and its UID is on record
- `Quiet`, `SameDraft` — calls that touch neither
- `DraftRequest` — the requests that deal with one draft
-/

namespace Rav

namespace MailWorld

variable (w : MailWorld) (uuid : String)

/-- The copies of a draft in the Drafts mailbox. -/
def copies : List MailCopy :=
  (w.folders w.draftsFolder).messages.filter (fun m => m.messageId = draftMessageId uuid)

/-- The UID on record for a draft. -/
def recorded : Option Nat := (w.drafts.getStaging uuid).bind DraftStaging.imapUid

end MailWorld

/-- The Drafts mailbox holds at most one copy of the draft, and its UID is on record. -/
def OneCopy (uuid : String) (w : MailWorld) : Prop :=
  (w.copies uuid).length ≤ 1 ∧ ∀ m ∈ w.copies uuid, w.recorded uuid = some m.uid

section Copies

variable {uuid : String} {w w' : MailWorld}

theorem mem_copies {m : MailCopy} : m ∈ w.copies uuid ↔
    m ∈ (w.folders w.draftsFolder).messages ∧ m.messageId = draftMessageId uuid := by
  unfold MailWorld.copies
  rw [List.mem_filter,decide_eq_true_iff]

/-- UIDs are not used twice, so naming every copy leaves room for one. -/
theorem oneCopy_of_recorded (h : ∀ m ∈ w.copies uuid, w.recorded uuid = some m.uid) :
    OneCopy uuid w := by
  refine ⟨?_,h⟩
  have hnodup : ((w.copies uuid).map MailCopy.uid).Nodup :=
    (w.folders w.draftsFolder).nodup.sublist (List.filter_sublist.map _)
  match hc : w.copies uuid with
  | [] => exact Nat.zero_le 1
  | [_] => exact Nat.le_refl 1
  | m :: m' :: rest =>
    have hm := h m (hc ▸ List.mem_cons_self)
    have hm' := h m' (hc ▸ List.mem_cons_of_mem _ List.mem_cons_self)
    have huid : m.uid = m'.uid := Option.some.inj (hm.symm.trans hm')
    rw [hc] at hnodup
    simp [huid] at hnodup

theorem oneCopy_of_none (h : w.copies uuid = []) : OneCopy uuid w := by
  refine oneCopy_of_recorded fun m hm => ?_
  rw [h] at hm
  exact absurd hm List.not_mem_nil

end Copies

/-! ### What leaves a draft alone -/

/-- Neither the copies of the draft nor the UID on record have changed. -/
structure SameDraft (uuid : String) (w w' : MailWorld) : Prop where
  folder : w'.draftsFolder = w.draftsFolder
  copies : w'.copies uuid = w.copies uuid
  recorded : w'.recorded uuid = w.recorded uuid

/-- Calls that touch neither the copies of a draft nor its row. -/
def Quiet (uuid : String) : MailCall → Prop
  | .upsertStaging k _ _ => k ≠ uuid
  | .deleteStaging k => k ≠ uuid
  | .expunge _ _ => False
  | .append _ _ messageId _ => messageId ≠ draftMessageId uuid
  | _ => True

section Quiet

variable {uuid : String} {w w' w'' : MailWorld} {weather : MailCall → MailOutcome}

theorem SameDraft.refl (w : MailWorld) : SameDraft uuid w w := ⟨rfl,rfl,rfl⟩

theorem SameDraft.trans (h : SameDraft uuid w w') (h' : SameDraft uuid w' w'') :
    SameDraft uuid w w'' :=
  ⟨h'.folder.trans h.folder,h'.copies.trans h.copies,h'.recorded.trans h.recorded⟩

theorem SameDraft.oneCopy (h : SameDraft uuid w w') (hw : OneCopy uuid w) : OneCopy uuid w' := by
  obtain ⟨-,hc,hr⟩ := h
  unfold OneCopy
  rw [hc,hr]
  exact hw

theorem SameDraft.usedFolder_eq (h : SameDraft uuid w w') :
    usedFolder weather w' = usedFolder weather w := by
  unfold usedFolder
  rw [h.folder]

theorem effect_quiet {c : MailCall} (h : Quiet uuid c) : SameDraft uuid w (c.effect w) := by
  have hfolder := effect_draftsFolder c w
  refine ⟨hfolder,?_,?_⟩
  · unfold MailWorld.copies
    rw [hfolder]
    cases c with
    | expunge folder uid => exact h.elim
    | append folder bytes messageId search =>
      show List.filter _ ((w.setFolder folder ((w.folders folder).append bytes messageId)).folders
        w.draftsFolder).messages = _
      by_cases hf : w.draftsFolder = folder
      · subst hf
        have hne : messageId ≠ draftMessageId uuid := h
        rw [MailWorld.setFolder_self]
        simp [MailFolder.append,hne]
      · rw [MailWorld.setFolder_of_ne hf]
    | _ => rfl
  · unfold MailWorld.recorded
    cases c with
    | upsertStaging k imapUid reply =>
      cases hdb : w.drafts.upsertStaging k imapUid reply with
      | none => simp only [MailCall.effect,hdb,Option.getD_none]
      | some db =>
        have hk : ¬uuid = k := fun hk => h hk.symm
        simp only [MailCall.effect,hdb,Option.getD_some]
        rw [(DraftDb.upsertStaging_spec hdb).2,if_neg hk]
    | deleteStaging k =>
      have hk : ¬uuid = k := fun hk => h hk.symm
      simp only [MailCall.effect]
      rw [DraftDb.getStaging_deleteStaging,if_neg hk]
    | insertAttachment id draftUuid filename contentType size filePath =>
      cases hdb : w.drafts.insertAttachment
        ⟨id,draftUuid,filename,contentType,size,filePath,w.now⟩ with
      | none => simp only [MailCall.effect,hdb,Option.getD_none]
      | some db =>
        simp only [MailCall.effect,hdb,Option.getD_some]
        unfold DraftDb.getStaging
        rw [DraftDb.insertAttachment_staging hdb]
    | _ => rfl

/-- A quiet call leaves the draft alone. -/
theorem serveMail_quiet {o : MailOutcome} {c : MailCall} (h : Quiet uuid c) :
    SameDraft uuid w (serveMail o c w).2 :=
  serveMail_frame (SameDraft.refl w) (effect_quiet h)

/-- So does a program that makes quiet calls only. -/
theorem run_quiet {α : Type} {t : MailTask α} (h : t.All (Quiet uuid)) :
    SameDraft uuid w (t.run (mailHandler weather) w).2 :=
  Prog.run_invariant (P := SameDraft uuid w) (fun _ _ _ => trivial)
    (fun c s hc hw => SameDraft.trans hw (serveMail_quiet (w := s) (o := weather c) (c := c) hc))
    h (SameDraft.refl w)

/-- A quiet call first, and the rest from a state that is the same for the draft. -/
theorem run_quiet_call {α : Type} {P : MailWorld → Prop} {c : MailCall}
    {k : c.Answer → MailTask α} (hc : Quiet uuid c)
    (hk : ∀ r w', SameDraft uuid w w' → P ((k r).run (mailHandler weather) w').2) :
    P ((mailCall c >>= k).run (mailHandler weather) w).2 :=
  hk _ _ (serveMail_quiet hc)

end Quiet

/-! ### What the parts of a request do -/

/-- The request finds the copy of the draft: its row is read, in the Drafts folder. -/
def Found (weather : MailCall → MailOutcome) (uuid : String) (w : MailWorld) : Prop :=
  usedFolder weather w = w.draftsFolder ∧ (weather (.getStaging uuid)).fails = none

/-- The UID of a new copy is stored. -/
def UidStored (weather : MailCall → MailOutcome) (uuid : String) (newUid : Option Nat)
    (reply : Option String) (w : MailWorld) : Prop :=
  (weather (.withUserDb 1)).fails = none ∧
    (weather (.upsertStaging uuid newUid reply)).fails = none ∧
      ¬w.drafts.ReplyTaken (w.drafts.stagingRow uuid newUid reply)

section Parts

variable {env : MailEnv} {weather : MailCall → MailOutcome} {uuid : String} {w : MailWorld}

/-- An expunge in the Drafts folder under the UID of every copy leaves none. -/
theorem expungeCopy_copies {folder : String} {uid : Option Nat}
    (hdone : ∀ c, (weather c).imap = .done)
    (hall : ∀ m ∈ w.copies uuid, uid = some m.uid ∧ folder = w.draftsFolder) :
    ((expungeCopy folder uid).run (mailHandler weather) w).2.copies uuid = [] := by
  refine List.eq_nil_iff_forall_not_mem.mpr fun m hm => ?_
  obtain ⟨hm,hid⟩ := mem_copies.mp hm
  rw [run_draftsFolder] at hm
  obtain ⟨hm,hkept⟩ := ((expungeCopy_spec _ _).2 m).mp hm
  obtain ⟨huid,hfolder⟩ := hall m (mem_copies.mpr ⟨hm,hid⟩)
  refine hkept ⟨hfolder.symm,huid,fun e => ?_⟩
  rw [hdone]
  exact ImapOutcome.noConfusion

/-- A request that finds the copy reads its UID. -/
theorem found_copy (hw : OneCopy uuid w) (hfound : w.copies uuid ≠ [] → Found weather uuid w) :
    ∀ m ∈ w.copies uuid,
      readUid weather w uuid = some m.uid ∧ usedFolder weather w = w.draftsFolder := by
  intro m hm
  obtain ⟨hfolder,hread⟩ := hfound (List.ne_nil_of_mem hm)
  refine ⟨?_,hfolder⟩
  unfold readUid
  rw [hread]
  exact hw.2 m hm

theorem expungeCopy_drafts (folder : String) (uid : Option Nat) :
    ((expungeCopy folder uid).run (mailHandler weather) w).2.drafts = w.drafts := by
  cases uid with
  | none => rfl
  | some u => exact serveMail_frame (c := .expunge folder u) (P := fun w' => w'.drafts = _) rfl rfl

variable {folder : String} {req : SaveDraftRequest}

theorem appendDraft_drafts :
    ((appendDraft env folder uuid req).run (mailHandler weather) w).2.drafts = w.drafts := by
  unfold appendDraft
  cases env.buildDraft req env.email (draftMessageId uuid) with
  | error e => rfl
  | ok bytes =>
    exact serveMail_frame (c := .append folder bytes (draftMessageId uuid) true)
      (P := fun w' => w'.drafts = _) rfl rfl

theorem likeInfix_self (s : String) : likeInfix s s = true := by
  unfold likeInfix
  refine List.any_eq_true.mpr ⟨_,(List.mem_tails _ _).mpr (List.suffix_refl _),?_⟩
  exact List.isPrefixOf_iff_prefix.mpr (List.prefix_refl _)

/-- A search after an append finds the new message: it has the highest UID. -/
theorem search_append (b : MailFolder) (bytes : List UInt8) (messageId : String) :
    (b.append bytes messageId).search messageId = some b.uidNext := by
  unfold MailFolder.search
  refine List.max?_eq_some_iff.mpr ⟨?_,?_⟩
  · refine List.mem_map.mpr ⟨⟨b.uidNext,messageId,bytes⟩,List.mem_filter.mpr ⟨?_,?_⟩,rfl⟩
    · exact List.mem_append_right _ (List.mem_singleton_self _)
    · exact likeInfix_self _
  · intro u hu
    obtain ⟨m,hm,rfl⟩ := List.mem_map.mp hu
    exact Nat.le_of_lt_succ ((b.append bytes messageId).ascending m (List.mem_filter.mp hm).1)

/-- The UID an append reports. -/
theorem appendDraft_uid {bytes : List UInt8} (hdone : ∀ c, (weather c).imap = .done)
    (hb : env.buildDraft req env.email (draftMessageId uuid) = .ok bytes) :
    ((appendDraft env folder uuid req).run (mailHandler weather) w).1 =
      some (w.folders folder).uidNext := by
  unfold appendDraft
  rw [hb]
  let c : MailCall := .append folder bytes (draftMessageId uuid) true
  let b := (w.folders folder).append bytes (draftMessageId uuid)
  have hr : mailHandler weather c w =
      (.ok (b.search (draftMessageId uuid)),w.setFolder folder b) := by
    show (weather c).command w _ = _
    unfold MailOutcome.command
    rw [hdone]
    rfl
  refine (congrArg Prod.fst (run_mailCall hr)).trans ?_
  exact search_append _ _ _

/-- What a save stores of a UID. -/
theorem recordDraft_recorded {existingUid newUid : Option Nat}
    (h : UidStored weather uuid newUid req.inReplyTo w) :
    ((recordDraft folder uuid req existingUid newUid).run (mailHandler weather) w).2.recorded
      uuid = newUid := by
  obtain ⟨hopen,hfails,hfree⟩ := h
  have hdb : mailHandler weather (.withUserDb 1) w = (.ok (),w) := MailOutcome.run_none hopen
  obtain ⟨db,hup⟩ : ∃ db, w.drafts.upsertStaging uuid newUid req.inReplyTo = some db := by
    unfold DraftDb.upsertStaging
    exact ⟨_,if_neg hfree⟩
  have hrow : mailHandler weather (.upsertStaging uuid newUid req.inReplyTo) w =
      (.ok (),{ w with drafts := db }) := by
    show (weather _).runOption w _ ((w.drafts.upsertStaging _ _ _).map _) = _
    rw [hup]
    exact MailOutcome.run_none hfails
  have hopened : (recordDraft folder uuid req existingUid newUid).run (mailHandler weather) w =
      (storeMapping folder uuid req existingUid newUid).run (mailHandler weather) w :=
    run_mailCall hdb
  rw [hopened]
  unfold storeMapping
  rw [run_mailCall hrow]
  refine (run_quiet ?_).recorded.trans ?_
  · exact ⟨trivial,fun _ _ => ⟨trivial,fun _ _ => ⟨trivial,fun _ _ => trivial⟩⟩⟩
  · show (db.getStaging uuid).bind _ = _
    rw [(DraftDb.upsertStaging_spec hup).2,if_pos rfl]
    rfl

/-! #### Saving -/

/-- What a save must not miss: a copy that is there, and the UID of the copy it appends. -/
def SaveSound (env : MailEnv) (weather : MailCall → MailOutcome) (uuid : String)
    (req : SaveDraftRequest) (w : MailWorld) : Prop :=
  (w.copies uuid ≠ [] → Found weather uuid w) ∧
    ((env.buildDraft req env.email (draftMessageId uuid)).toOption.isSome →
      usedFolder weather w = w.draftsFolder →
        UidStored weather uuid (some (w.folders w.draftsFolder).uidNext) req.inReplyTo w)

theorem saveDraftLocked_oneCopy (hw : OneCopy uuid w) (hdone : ∀ c, (weather c).imap = .done)
    (h : SaveSound env weather uuid req w) :
    OneCopy uuid ((saveDraftLocked env uuid req).exec weather w).2 := by
  rw [saveDraftLocked_exec]
  split
  · unfold replaceDraft
    simp only [Prog.run_bind]
    let used := usedFolder weather w
    let uid := readUid weather w uuid
    let w₁ := ((expungeCopy used uid).run (mailHandler weather) w).2
    let r := (appendDraft env used uuid req).run (mailHandler weather) w₁
    let w₃ := ((recordDraft used uuid req uid r.1).run (mailHandler weather) r.2).2
    show OneCopy uuid w₃
    have hnone : w₁.copies uuid = [] := expungeCopy_copies hdone (found_copy hw h.1)
    have hname₁ : w₁.draftsFolder = w.draftsFolder := run_draftsFolder weather _ w
    have hname₂ : r.2.draftsFolder = w.draftsFolder := (run_draftsFolder weather _ w₁).trans hname₁
    have hname₃ : w₃.draftsFolder = w.draftsFolder := (run_draftsFolder weather _ r.2).trans hname₂
    have hfolders : w₃.folders = r.2.folders := run_folders weather (offline_recordDraft _ _) r.2
    have hnext : ∀ f, (w₁.folders f).uidNext = (w.folders f).uidNext :=
      fun f => (expungeCopy_spec uid f).1
    have hdrafts : r.2.drafts = w.drafts :=
      appendDraft_drafts.trans (expungeCopy_drafts used uid)
    refine oneCopy_of_recorded fun m hm => ?_
    obtain ⟨hm,hid⟩ := mem_copies.mp hm
    rw [hname₃,hfolders] at hm
    -- the only copy left is the one that has been appended
    rcases (appendDraft_spec w.draftsFolder m).mp hm with hold | ⟨hused,huid,-,hbytes,-⟩
    · have hcopy : m ∈ w₁.copies uuid := mem_copies.mpr ⟨hname₁ ▸ hold,hid⟩
      rw [hnone] at hcopy
      exact absurd hcopy List.not_mem_nil
    · have hnew : r.1 = some m.uid := by
        rw [huid,hused]
        exact appendDraft_uid hdone hbytes
      have hstored := h.2 (by rw [hbytes]; rfl) hused.symm
      rw [← hnext,← huid] at hstored
      have hstored' : UidStored weather uuid r.1 req.inReplyTo r.2 := by
        unfold UidStored
        rw [hnew,hdrafts]
        exact hstored
      exact (recordDraft_recorded hstored').trans hnew
  · exact hw

/-! #### Cleaning up and discarding -/

/-- Without commands the copies stay. -/
theorem run_copies {α : Type} {t : MailTask α} (h : t.All MailCall.Offline) (w : MailWorld) :
    (t.run (mailHandler weather) w).2.copies uuid = w.copies uuid := by
  unfold MailWorld.copies
  rw [run_draftsFolder,run_folders weather h]

theorem offline_forgetDraft : (Delivery.forgetDraft env uuid).All MailCall.Offline := by
  refine ⟨trivial,fun r _ => ?_⟩
  cases r with
  | error e => exact ⟨trivial,fun _ _ => trivial⟩
  | ok _ => exact ⟨trivial,fun _ _ => ⟨trivial,fun _ _ => trivial⟩⟩

/-- What cleaning up must not miss: a copy that is there. -/
def CleanSound (env : MailEnv) (weather : MailCall → MailOutcome) (uuid : String)
    (w : MailWorld) : Prop :=
  w.copies uuid ≠ [] → env.imapHost.isSome ∧ Found weather uuid w

theorem cleanupDraft_oneCopy (hw : OneCopy uuid w) (hdone : ∀ c, (weather c).imap = .done)
    (h : CleanSound env weather uuid w) :
    OneCopy uuid ((Delivery.cleanupDraft env uuid).run (mailHandler weather) w).2 := by
  refine run_withUserDb (fun r => OneCopy uuid r.2) 14 (fun _ _ => hw) fun _ => oneCopy_of_none ?_
  show ((Delivery.cleanupStaged env uuid).run (mailHandler weather) w).2.copies uuid = []
  unfold Delivery.cleanupStaged Delivery.cleanupFound
  simp only [Prog.run_bind,run_recordedUid,run_folderWith]
  split
  · rw [Prog.run_bind,run_copies offline_forgetDraft]
    exact expungeCopy_copies hdone (found_copy hw (fun hne => (h hne).2))
  · next hhost =>
    rw [run_copies offline_forgetDraft]
    exact Classical.not_not.mp fun hne => hhost (h hne).1

/-- What a discard must not miss. -/
def DiscardSound (env : MailEnv) (weather : MailCall → MailOutcome) (uuid : String)
    (w : MailWorld) : Prop :=
  w.copies uuid ≠ [] →
    env.imapHost.isSome ∧ Found weather uuid w ∧ (weather (.withUserDb 1)).fails = none

theorem offline_touchFolder (n : Nat) (folder : String) :
    (touchFolder n folder).All MailCall.Offline := by
  refine ⟨trivial,fun r _ => ?_⟩
  cases r with
  | error e => trivial
  | ok _ => exact ⟨trivial,fun _ _ => trivial⟩

theorem discardCopy_copies {uid : Option Nat} (hdone : ∀ c, (weather c).imap = .done)
    (hall : ∀ m ∈ w.copies uuid, uid = some m.uid ∧ usedFolder weather w = w.draftsFolder)
    (h : w.copies uuid ≠ [] → env.imapHost.isSome ∧ (weather (.withUserDb 1)).fails = none) :
    ((discardCopy env uuid uid).run (mailHandler weather) w).2.copies uuid = [] := by
  have hexp : ((expungeDiscarded env uid).run (mailHandler weather) w).2.copies uuid = [] := by
    have hnone : (uid = none ∨ env.imapHost = none) → w.copies uuid = [] := by
      intro hno
      refine Classical.not_not.mp fun hne => ?_
      obtain ⟨m,hm⟩ := List.exists_mem_of_ne_nil _ hne
      rcases hno with huid | hhost
      · exact absurd (huid.symm.trans (hall m hm).1) nofun
      · exact absurd (hhost ▸ (h hne).1) nofun
    unfold expungeDiscarded
    cases uid with
    | none => exact hnone (Or.inl rfl)
    | some u =>
      cases hhost : env.imapHost with
      | none => exact hnone (Or.inr hhost)
      | some host =>
        refine run_withUserDb (fun r => r.2.copies uuid = []) 1 (fun e hf => ?_) fun _ => ?_
        · exact Classical.not_not.mp fun hne => absurd (hf.symm.trans (h hne).2) nofun
        · simp only [Prog.run_bind,run_folderWith]
          show (((touchFolder 2 _).run (mailHandler weather) _).2.copies uuid) = []
          rw [run_copies (offline_touchFolder _ _)]
          exact expungeCopy_copies hdone hall
  unfold discardCopy
  rw [Prog.run_bind]
  cases ((expungeDiscarded env uid).run (mailHandler weather) w).1 with
  | error e => exact hexp
  | ok _ =>
    refine (run_copies ?_ _).trans hexp
    exact ⟨trivial,fun _ _ => trivial⟩

theorem deleteDraftLocked_oneCopy (hw : OneCopy uuid w) (hdone : ∀ c, (weather c).imap = .done)
    (h : DiscardSound env weather uuid w) :
    OneCopy uuid ((deleteDraftLocked env uuid).exec weather w).2 := by
  refine run_withUserDb (fun r => OneCopy uuid r.2) 0 (fun _ _ => hw) fun _ => ?_
  show OneCopy uuid ((discardStaged env uuid).run (mailHandler weather) w).2
  unfold discardStaged
  rw [Prog.run_bind,run_recordedUid]
  cases hd : (weather (.deleteStaging uuid)).fails with
  | some e =>
    have hr : mailHandler weather (.deleteStaging uuid) w = (.error e,w) :=
      MailOutcome.run_some hd
    have hrun : (discardRow env uuid (readUid weather w uuid)).run (mailHandler weather) w =
        (.error (.internalError e),w) := run_mailCall hr
    exact hrun ▸ hw
  | none =>
    let w' : MailWorld := { w with drafts := (w.drafts.deleteStaging uuid).2 }
    have hr : mailHandler weather (.deleteStaging uuid) w =
        (.ok (w.drafts.deleteStaging uuid).1,w') := MailOutcome.run_none hd
    have hrun : (discardRow env uuid (readUid weather w uuid)).run (mailHandler weather) w =
        (discardCopy env uuid (readUid weather w uuid)).run (mailHandler weather) w' :=
      run_mailCall hr
    show OneCopy uuid ((discardRow env uuid _).run (mailHandler weather) w).2
    rw [hrun]
    exact oneCopy_of_none (discardCopy_copies hdone
      (found_copy hw fun hne => (h hne).2.1) (fun hne => ⟨(h hne).1,(h hne).2.2⟩))

/-! #### Sending -/

theorem quiet_of_preparing {c : MailCall} (h : Preparing c) : Quiet uuid c := by
  cases c <;> trivial

theorem quiet_of_filing {messageId : String} (hid : messageId ≠ draftMessageId uuid) {c : MailCall}
    (h : Filing messageId c) : Quiet uuid c := by
  cases c with
  | append folder bytes mid search => exact h.1 ▸ hid
  | _ => trivial

theorem quiet_of_settling {c : MailCall} (h : Settling c) : Quiet uuid c := by
  cases c <;> trivial

theorem quiet_submitAs (message : Smtp.SendableMessage) (messageId : String) :
    (Delivery.submitAs env message messageId).All (Quiet uuid) := by
  unfold Delivery.submitAs
  cases env.buildMessage message messageId with
  | error e => trivial
  | ok inner =>
    refine (Delivery.all_wireBytes (fun _ => trivial) 2 inner message.pgp).bind fun bytes => ?_
    cases bytes with
    | error e => trivial
    | ok bytes => exact ⟨trivial,fun _ _ => trivial⟩

/-- What a send must not miss, and that the mail sent does not pass for the draft. -/
def SendSound (env : MailEnv) (weather : MailCall → MailOutcome) (uuid : String)
    (w : MailWorld) : Prop :=
  CleanSound env weather uuid w ∧
    ∀ host, env.smtpHost = some host → Delivery.sentMessageId weather host ≠ draftMessageId uuid

theorem CleanSound.same {w' : MailWorld} (h : CleanSound env weather uuid w)
    (hs : SameDraft uuid w w') : CleanSound env weather uuid w' := by
  unfold CleanSound Found
  rw [hs.copies,hs.usedFolder_eq,hs.folder]
  exact h

theorem sendPrepared_oneCopy {host : String} {job : Delivery.SendJob} {message : Smtp.SendableMessage}
    (hw : OneCopy uuid w) (hdone : ∀ c, (weather c).imap = .done)
    (hclean : CleanSound env weather uuid w)
    (hid : Delivery.sentMessageId weather host ≠ draftMessageId uuid) (hjob : job.draftId = some uuid) :
    OneCopy uuid ((Delivery.sendPrepared env host job message).run (mailHandler weather) w).2 := by
  let id := Delivery.sentMessageId weather host
  let r := (Delivery.submitAs env message id).run (mailHandler weather) w
  have hdrawn : (Delivery.drawMessageId host).run (mailHandler weather) w = (id,w) := rfl
  have hsubmit : SameDraft uuid w r.2 := run_quiet (quiet_submitAs message id)
  unfold Delivery.sendPrepared Delivery.sendMessage
  simp only [Prog.run_bind,hdrawn]
  cases hr : r.1 with
  | error e =>
    exact hsubmit.oneCopy hw
  | ok u =>
    obtain ⟨⟩ := u
    let w' := ((Delivery.appendSent env message id).run (mailHandler weather) r.2).2
    have hsame : SameDraft uuid w w' := hsubmit.trans
      (run_quiet ((Delivery.filing_appendSent message id).mono fun _ => quiet_of_filing hid))
    show OneCopy uuid ((Delivery.appendSent env message id >>= fun _ =>
      Delivery.cleanupJob env job.draftId >>= fun _ =>
        (pure (.ok id) : MailTask (Except AppError String))).run (mailHandler weather) r.2).2
    rw [Prog.run_bind,Prog.run_bind,hjob]
    exact cleanupDraft_oneCopy (hsame.oneCopy hw) hdone (hclean.same hsame)

theorem performSend_oneCopy {job : Delivery.SendJob} (hw : OneCopy uuid w)
    (hdone : ∀ c, (weather c).imap = .done) (h : SendSound env weather uuid w)
    (hjob : job.draftId = some uuid) :
    OneCopy uuid ((Delivery.performSend env job).run (mailHandler weather) w).2 := by
  unfold Delivery.performSend
  cases hhost : env.smtpHost with
  | none => exact hw
  | some host =>
    simp only [Prog.run_bind]
    let r := (Delivery.fromAddress env job.fromIdentityId).run (mailHandler weather) w
    have hfrom : SameDraft uuid w r.2 := 
      run_quiet ((Delivery.preparing_fromAddress job.fromIdentityId).mono fun _ => quiet_of_preparing)
    cases hr : r.1 with
    | error e =>
      exact hfrom.oneCopy hw
    | ok sender =>
      simp only [Prog.run_bind]
      let a := (Delivery.jobAttachments job.draftId).run (mailHandler weather) r.2
      have hatt : SameDraft uuid w a.2 := hfrom.trans
        (run_quiet ((Delivery.preparing_jobAttachments job.draftId).mono fun _ => quiet_of_preparing))
      cases ha : a.1 with
      | error e =>
        exact hatt.oneCopy hw
      | ok attachments =>
        exact sendPrepared_oneCopy (hatt.oneCopy hw) hdone (h.1.same hatt) (h.2 host hhost) hjob

theorem processEntry_oneCopy {entry : OutboxEntry} (hw : OneCopy uuid w)
    (hdone : ∀ c, (weather c).imap = .done) (h : SendSound env weather uuid w)
    (hentry : entry.draftId = some uuid) :
    OneCopy uuid ((Delivery.processEntry env entry).run (mailHandler weather) w).2 := by
  refine run_withUserDb (fun r => OneCopy uuid r.2) 20 (fun _ _ => hw) fun _ => ?_
  refine run_quiet_call (P := OneCopy uuid) (c := .markSending entry.id) trivial
    fun r w' (hsame : SameDraft uuid w w') => ?_
  cases r with
  | error e => exact hsame.oneCopy hw
  | ok u =>
    obtain ⟨⟩ := u
    show OneCopy uuid ((Delivery.sendEntry env entry).run (mailHandler weather) w').2
    unfold Delivery.sendEntry
    rw [Prog.run_bind]
    have hsend : SendSound env weather uuid w' := ⟨h.1.same hsame,h.2⟩
    exact (run_quiet
      ((Delivery.settling_settleEntry entry _).mono fun _ => quiet_of_settling)).oneCopy
      (performSend_oneCopy (hsame.oneCopy hw) hdone hsend hentry)

/-! #### Uploading -/

/-- The `n`-th file of an upload is written to disk. -/
def FileSaved (env : MailEnv) (weather : MailCall → MailOutcome) (uuid : String) (n : Nat)
    (f : UploadedFile) : Prop :=
  f.data.length ≤ maxAttachmentSize ∧
    (weather (.writeFile (env.attDir uuid ++ "/" ++ (weather (.drawUuid n)).uuid) f.data)).fails =
      none

/-- Every field of an upload is read and saved, the `n`-th first. -/
def FieldsSaved (env : MailEnv) (weather : MailCall → MailOutcome) (uuid : String) :
    Nat → List (Except String UploadedFile) → Prop
  | _, [] => True
  | _, .error _ :: _ => False
  | n, .ok f :: fields =>
    FileSaved env weather uuid n f ∧ FieldsSaved env weather uuid (n + 1) fields

/-- An upload gets as far as the staging row, and writes it. -/
def UploadStages (env : MailEnv) (weather : MailCall → MailOutcome) (uuid : String)
    (fields : List (Except String UploadedFile)) (w : MailWorld) : Prop :=
  FieldsSaved env weather uuid 0 fields ∧ fields ≠ [] ∧ (weather (.withUserDb 0)).fails = none ∧
    (weather (.upsertStaging uuid none none)).fails = none ∧
      ¬w.drafts.ReplyTaken (w.drafts.stagingRow uuid none none)

theorem saveFile_ok {n : Nat} {f : UploadedFile} {s : SavedFile}
    (h : ((saveFile env uuid n f).run (mailHandler weather) w).1 = .ok s) :
    FileSaved env weather uuid n f := by
  unfold saveFile at h
  split at h
  · exact absurd h nofun
  · next hsize =>
    refine ⟨Nat.not_lt.mp hsize,?_⟩
    let path := env.attDir uuid ++ "/" ++ (weather (.drawUuid n)).uuid
    let r := (weather (.writeFile path f.data)).run w ((),w.writeFile path f.data)
    have hr : ((r.1.mapError fun e => AppError.internalError
        ("Failed to write attachment: " ++ e)).map _) = Except.ok s := h
    cases hf : (weather (.writeFile path f.data)).fails with
    | none => rfl
    | some e =>
      have he : r = (.error e,w) := MailOutcome.run_some hf
      rw [he] at hr
      exact absurd hr nofun

/-- Only files that have all been saved are recorded. -/
theorem saveFiles_ok {fields : List (Except String UploadedFile)} :
    ∀ {n : Nat} {w : MailWorld} {saved : List SavedFile},
      ((saveFiles env uuid n fields).run (mailHandler weather) w).1 = .ok saved →
        FieldsSaved env weather uuid n fields ∧ saved.length = fields.length := by
  induction fields with
  | nil =>
    intro n w saved h
    exact ⟨trivial,(Except.ok.inj h) ▸ rfl⟩
  | cons field fields ih =>
    intro n w saved h
    cases field with
    | error e => exact absurd h nofun
    | ok f =>
      simp only [saveFiles,Prog.run_bind] at h
      cases hs : ((saveFile env uuid n f).run (mailHandler weather) w).1 with
      | error e =>
        rw [hs] at h
        exact absurd h nofun
      | ok s =>
        rw [hs] at h
        simp only [Prog.run_bind] at h
        cases hrest : ((saveFiles env uuid (n + 1) fields).run (mailHandler weather)
            ((saveFile env uuid n f).run (mailHandler weather) w).2).1 with
        | error e =>
          rw [hrest] at h
          exact absurd h nofun
        | ok rest =>
          rw [hrest] at h
          obtain rfl : s :: rest = saved := Except.ok.inj h
          obtain ⟨hsaved,hlen⟩ := ih hrest
          exact ⟨⟨saveFile_ok hs,hsaved⟩,congrArg Nat.succ hlen⟩

theorem all_saveFiles {Q : MailCall → Prop} (hdraw : ∀ n, Q (.drawUuid n))
    (hwrite : ∀ path data, Q (.writeFile path data))
    (fields : List (Except String UploadedFile)) : ∀ n, (saveFiles env uuid n fields).All Q := by
  induction fields with
  | nil => exact fun _ => trivial
  | cons field fields ih =>
    intro n
    cases field with
    | error e => trivial
    | ok f =>
      refine Prog.AllWhere.bind ?_ fun r => ?_
      · unfold saveFile
        refine Prog.AllWhere.ite trivial ?_
        exact ⟨hdraw n,fun _ _ => ⟨hwrite _ _,fun _ _ => trivial⟩⟩
      · cases r with
        | error e => trivial
        | ok s => exact (ih (n + 1)).bind fun _ => trivial

theorem offline_addDraftAttachments (saved : List SavedFile) :
    (addDraftAttachments uuid saved).All MailCall.Offline := by
  induction saved with
  | nil => trivial
  | cons f fs ih =>
    refine Prog.AllWhere.bind ?_ fun r => ?_
    · refine ⟨trivial,fun r _ => ?_⟩
      cases r with
      | error e => trivial
      | ok _ => exact ⟨trivial,fun _ _ => trivial⟩
    · cases r with
      | error e => trivial
      | ok _ => exact ih

theorem offline_uploadAttachment (fields : List (Except String UploadedFile)) :
    (uploadAttachment env uuid fields).All MailCall.Offline := by
  refine (all_saveFiles (fun _ => trivial) (fun _ _ => trivial) fields 0).bind fun r => ?_
  cases r with
  | error e => trivial
  | ok saved =>
    refine Prog.AllWhere.ite trivial ⟨trivial,fun r _ => ?_⟩
    cases r with
    | error e => trivial
    | ok _ => exact (offline_addDraftAttachments saved).bind fun _ => trivial

theorem saveFiles_drafts (n : Nat) (fields : List (Except String UploadedFile)) :
    ((saveFiles env uuid n fields).run (mailHandler weather) w).2.drafts = w.drafts := by
  let Q : MailCall → Prop := fun c => ∀ w, (c.effect w).drafts = w.drafts
  have hQ : (saveFiles env uuid n fields).All Q :=
    all_saveFiles (fun _ _ => rfl) (fun _ _ _ => rfl) fields n
  exact Prog.run_invariant (P := fun w' : MailWorld => w'.drafts = w.drafts)
    (fun _ _ _ => trivial)
    (fun c s hc hs => serveMail_frame (o := weather c) (c := c) (w := s)
      (P := fun w' => w'.drafts = w.drafts) hs ((hc s).trans hs)) hQ rfl

/-- A staging row that is not written ends the request. -/
theorem addDraftAttachments_refused {f : SavedFile} {fs : List SavedFile}
    (h : ¬((weather (.upsertStaging uuid none none)).fails = none ∧
      ¬w.drafts.ReplyTaken (w.drafts.stagingRow uuid none none))) :
    ((addDraftAttachments uuid (f :: fs)).run (mailHandler weather) w).2 = w := by
  obtain ⟨e,hr⟩ : ∃ e, mailHandler weather (.upsertStaging uuid none none) w = (.error e,w) := by
    show ∃ e, (weather _).runOption w _ ((w.drafts.upsertStaging uuid none none).map _) = _
    by_cases htaken : w.drafts.ReplyTaken (w.drafts.stagingRow uuid none none)
    · have hup : w.drafts.upsertStaging uuid none none = none := by
        unfold DraftDb.upsertStaging
        exact if_pos htaken
      rw [hup]
      exact ⟨_,rfl⟩
    · cases hf : (weather (.upsertStaging uuid none none)).fails with
      | none => exact absurd ⟨hf,htaken⟩ h
      | some e =>
        unfold MailOutcome.runOption
        cases w.drafts.upsertStaging uuid none none with
        | none => exact ⟨_,rfl⟩
        | some db => exact ⟨e,MailOutcome.run_some hf⟩
  have hadd : (addDraftAttachment uuid f).run (mailHandler weather) w = (.error e,w) :=
    run_mailCall hr
  unfold addDraftAttachments
  rw [Prog.run_bind,hadd]
  rfl

theorem uploadAttachment_oneCopy {fields : List (Except String UploadedFile)}
    (hw : OneCopy uuid w) (h : w.copies uuid ≠ [] → ¬UploadStages env weather uuid fields w) :
    OneCopy uuid ((uploadAttachment env uuid fields).exec weather w).2 := by
  by_cases hnone : w.copies uuid = []
  · exact oneCopy_of_none ((run_copies (offline_uploadAttachment fields) w).trans hnone)
  · refine SameDraft.oneCopy (w := w) ?_ hw
    let r := (saveFiles env uuid 0 fields).run (mailHandler weather) w
    have hsame : SameDraft uuid w r.2 :=
      run_quiet (all_saveFiles (fun _ => trivial) (fun _ _ => trivial) fields 0)
    unfold MailTask.exec uploadAttachment
    rw [Prog.run_bind]
    cases hr : r.1 with
    | error e => exact hsame
    | ok saved =>
      obtain ⟨hfields,hlen⟩ := saveFiles_ok hr
      have hdrafts : r.2.drafts = w.drafts := saveFiles_drafts 0 fields
      show SameDraft uuid w ((if saved.isEmpty then pure (.error (.badRequest "No files uploaded"))
        else recordFiles uuid saved).run (mailHandler weather) r.2).2
      cases saved with
      | nil => exact hsame
      | cons f fs =>
        refine run_withUserDb (fun r => SameDraft uuid w r.2) 0 (fun _ _ => hsame) fun hopen => ?_
        have hne : fields ≠ [] := by
          rintro rfl
          exact absurd hlen nofun
        have hrefused : ((addDraftAttachments uuid (f :: fs)).run (mailHandler weather) r.2).2 =
            r.2 := by
          refine addDraftAttachments_refused ?_
          rw [hdrafts]
          exact fun hup => h hnone ⟨hfields,hne,hopen,hup⟩
        simp only [Prog.run_bind]
        show SameDraft uuid w ((addDraftAttachments uuid (f :: fs)).run (mailHandler weather) r.2).2
        rw [hrefused]
        exact hsame

theorem quiet_removeAttachment (attachmentId : String) (found : Option DraftAttachment) :
    (removeAttachment attachmentId found).All (Quiet uuid) := by
  cases found with
  | none => trivial
  | some a =>
    refine ⟨trivial,fun _ _ => ⟨trivial,fun r _ => ?_⟩⟩
    cases r with
    | error e => trivial
    | ok _ =>
      refine ⟨trivial,fun r _ => ?_⟩
      cases r with
      | error e => trivial
      | ok _ => trivial

theorem quiet_deleteAttachment (attachmentId : String) :
    (deleteAttachment uuid attachmentId).All (Quiet uuid) := by
  refine ⟨trivial,fun r _ => ?_⟩
  cases r with
  | error e => trivial
  | ok _ =>
    refine ⟨trivial,fun r _ => ?_⟩
    cases r with
    | error e => trivial
    | ok attachments => exact quiet_removeAttachment attachmentId _

theorem sendMessageHandler_oneCopy {req : SendRequest} (hw : OneCopy uuid w)
    (hdone : ∀ c, (weather c).imap = .done) (h : SendSound env weather uuid w)
    (hreq : req.draftId = some uuid) :
    OneCopy uuid ((sendMessageHandler env req).run (mailHandler weather) w).2 := by
  unfold sendMessageHandler
  split
  · exact hw
  · exact hw
  · exact performSend_oneCopy hw hdone h hreq

end Parts

/-! ### Runs of requests -/

/-- The requests that deal with a draft. A mail is sent at once or as an entry of the queue. -/
inductive DraftRequest
  | save (req : SaveDraftRequest)
  | upload (fields : List (Except String UploadedFile))
  | deleteAttachment (id : String)
  | send (req : SendRequest)
  | attempt (entry : OutboxEntry)
  | discard

/-- A request for a draft, carried out under a weather. -/
def DraftRequest.exec (env : MailEnv) (uuid : String) (weather : MailCall → MailOutcome)
    (w : MailWorld) : DraftRequest → MailWorld
  | .save req => ((saveDraftLocked env uuid req).exec weather w).2
  | .upload fields => ((uploadAttachment env uuid fields).exec weather w).2
  | .deleteAttachment id => ((Rav.deleteAttachment uuid id).exec weather w).2
  | .send req => ((sendMessageHandler env { req with draftId := some uuid }).exec weather w).2
  | .attempt entry =>
    ((Delivery.processEntry env { entry with draftId := some uuid }).exec weather w).2
  | .discard => ((deleteDraftLocked env uuid).exec weather w).2

/-- What a request must not miss. -/
def DraftRequest.Sound (env : MailEnv) (uuid : String) (weather : MailCall → MailOutcome)
    (w : MailWorld) : DraftRequest → Prop
  | .save req => SaveSound env weather uuid req w
  | .upload fields => w.copies uuid ≠ [] → ¬UploadStages env weather uuid fields w
  | .deleteAttachment _ => True
  | .send _ => SendSound env weather uuid w
  | .attempt _ => SendSound env weather uuid w
  | .discard => DiscardSound env weather uuid w

section Requests

variable (env : MailEnv) (uuid : String)

/-- One request with what its calls meet. -/
abbrev DraftStep := DraftRequest × (MailCall → MailOutcome)

def draftStep (w : MailWorld) (a : DraftStep) : Option MailWorld := some (a.1.exec env uuid a.2 w)

/-- Every IMAP call of the request succeeds, and the request keeps sight of the copy. -/
def DraftStepOk (w : MailWorld) (a : DraftStep) : Prop :=
  (∀ c, (a.2 c).imap = .done) ∧ a.1.Sound env uuid a.2 w

variable {env uuid} {w w' : MailWorld}

/-- One request keeps a single copy, with its UID on record. -/
theorem draftStep_oneCopy {a : DraftStep} (hw : OneCopy uuid w) (h : DraftStepOk env uuid w a) :
    OneCopy uuid (a.1.exec env uuid a.2 w) := by
  obtain ⟨request,weather⟩ := a
  obtain ⟨hdone,hsound⟩ := h
  cases request with
  | save req => exact saveDraftLocked_oneCopy hw hdone hsound
  | upload fields => exact uploadAttachment_oneCopy hw hsound
  | deleteAttachment id => exact (run_quiet (quiet_deleteAttachment id)).oneCopy hw
  | send req => exact sendMessageHandler_oneCopy hw hdone hsound rfl
  | attempt entry => exact processEntry_oneCopy hw hdone hsound rfl
  | discard => exact deleteDraftLocked_oneCopy hw hdone hsound

/-- While every IMAP call succeeds and no request loses sight of the copy, the Drafts mailbox
holds at most one message of the draft after each request, and its UID is on record. -/
theorem single_draft_copy {steps : List DraftStep} (hw : OneCopy uuid w)
    (hrun : Run (draftStep env uuid) (DraftStepOk env uuid) w steps w') : OneCopy uuid w' :=
  hrun.invariant hw fun _ _ _ hs hok hstep =>
    (Option.some.inj hstep) ▸ draftStep_oneCopy hs hok

end Requests

/-! ### Samples -/

def saveHello : DraftStep := (.save helloDraft,fun _ => placid)

def attachNotes : DraftStep := (.upload [.ok ⟨"notes.txt","text/plain",[104,105]⟩],fun _ => placid)

theorem oneCopy_fresh : OneCopy "d" freshMail := oneCopy_of_none rfl

theorem saveHello_ok {w : MailWorld} (hfree : ¬w.drafts.ReplyTaken (w.drafts.stagingRow "d"
      (some (w.folders w.draftsFolder).uidNext) none)) :
    DraftStepOk plainSite "d" w saveHello :=
  ⟨fun _ => rfl,fun _ => ⟨rfl,rfl⟩,fun _ _ => ⟨rfl,rfl,hfree⟩⟩

/-- Saved twice, the draft has one copy. -/
theorem single_draft_copy_resaved :
    OneCopy "d" (saveHello.1.exec plainSite "d" saveHello.2
      (saveHello.1.exec plainSite "d" saveHello.2 freshMail)) := by
  refine single_draft_copy oneCopy_fresh (.snoc (.single (saveHello_ok ?_) rfl)
    (saveHello_ok ?_) rfl)
  · decide
  · decide

/-- Saved, given an attachment and saved again, it has two. -/
theorem upload_forgets_copy :
    OneCopy "d" freshMail ∧ ∃ w', Run (draftStep plainSite "d")
      (fun _ a => ∀ c, (a.2 c).imap = .done) freshMail [saveHello,attachNotes,saveHello] w' ∧
        (w'.copies "d").length = 2 ∧ ¬OneCopy "d" w' := by
  refine ⟨oneCopy_fresh,_,.snoc (.snoc (.single (fun _ => rfl) rfl) (fun _ => rfl) rfl)
    (fun _ => rfl) rfl,?_,?_⟩
  · decide
  · intro h
    exact absurd h.1 (by decide)

end Rav
