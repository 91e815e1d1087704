import Rav.Routes.Drafts

/-!
# What the draft handlers do

One lemma for each part of a handler, run alone: what it answers, and what it leaves of the
folders and the tables.

## Main definitions

- `MailCall.effect` — what a call does to the state
- `MailCall.Offline` — calls that are not commands to the IMAP server
- `readUid`, `usedFolder` — what a request finds out before it acts
- `ExpungeDone`, `AppendDone` — the two commands of a save, carried out
-/

namespace Rav

/-- The handler of the calls of one request. -/
abbrev mailHandler (weather : MailCall → MailOutcome) (c : MailCall) (w : MailWorld) :
    c.Answer × MailWorld := serveMail (weather c) c w

/-! ### One call -/

namespace MailOutcome

variable {o : MailOutcome} {w : MailWorld} {α : Type} {f : α × MailWorld}

/-- A statement fails and changes nothing, or goes through. -/
theorem run_cases (o : MailOutcome) (w : MailWorld) (f : α × MailWorld) :
    ((∃ e, o.fails = some e ∧ o.run w f = (.error e,w)) ∨
      o.fails = none ∧ o.run w f = (.ok f.1,f.2)) := by
  unfold run
  cases o.fails with
  | some e => exact Or.inl ⟨e,rfl,rfl⟩
  | none => exact Or.inr ⟨rfl,rfl⟩

theorem run_none (h : o.fails = none) : o.run w f = (.ok f.1,f.2) := by
  unfold run
  rw [h]

theorem run_some {e : String} (h : o.fails = some e) : o.run w f = (.error e,w) := by
  unfold run
  rw [h]

theorem runOption_some {e e' : String} {g : Option (α × MailWorld)} (h : o.fails = some e) :
    (o.runOption w e' g).2 = w := by
  cases g with
  | none => rfl
  | some f => exact congrArg Prod.snd (run_some h)

/-- What a statement does not change, whether it goes through or not. -/
theorem run_frame {P : MailWorld → Prop} (hw : P w) (hf : P f.2) : P (o.run w f).2 := by
  rcases run_cases o w f with ⟨e,-,h⟩ | ⟨-,h⟩
  · rw [h]
    exact hw
  · rw [h]
    exact hf

theorem runOption_frame {P : MailWorld → Prop} {e : String} {g : Option (α × MailWorld)} (hw : P w)
    (hg : ∀ f, g = some f → P f.2) : P (o.runOption w e g).2 := by
  unfold runOption
  cases g with
  | none => exact hw
  | some f => exact run_frame hw (hg f rfl)

theorem command_frame {P : MailWorld → Prop} (hw : P w) (hf : P f.2) : P (o.command w f).2 := by
  unfold command
  cases o.imap with
  | done => exact hf
  | lost e => exact hf
  | refused e => exact hw

end MailOutcome

/-- What a call does to the state if it is carried out. -/
def MailCall.effect : MailCall → MailWorld → MailWorld
  | .upsertStaging uuid imapUid reply, w =>
    { w with drafts := (w.drafts.upsertStaging uuid imapUid reply).getD w.drafts }
  | .deleteStaging uuid, w => { w with drafts := (w.drafts.deleteStaging uuid).2 }
  | .insertAttachment id draftUuid filename contentType size filePath, w =>
    { w with drafts :=
        (w.drafts.insertAttachment
          ⟨id,draftUuid,filename,contentType,size,filePath,w.now⟩).getD w.drafts }
  | .deleteDraftAttachment id, w => { w with drafts := (w.drafts.deleteDraftAttachment id).2 }
  | .setFolderTotalCount folder count, w =>
    { w with cache := w.cache.setFolderTotalCount folder count }
  | .invalidateFolderFreshness folder, w =>
    { w with cache := w.cache.invalidateFolderFreshness folder }
  | .enqueue e, w => { w with queue := (w.queue.enqueue e w.now).getD w.queue }
  | .markSending id, w => { w with queue := w.queue.markSending id }
  | .markRetry id delay reason, w => { w with queue := w.queue.markRetry id (w.now + delay) reason }
  | .markFailed id reason, w => { w with queue := w.queue.markFailed id reason }
  | .deleteEntry id, w => { w with queue := (w.queue.delete id).2 }
  | .expunge folder uid, w => w.setFolder folder ((w.folders folder).expunge uid)
  | .append folder bytes messageId _, w =>
    w.setFolder folder ((w.folders folder).append bytes messageId)
  | .writeFile path data, w => w.writeFile path data
  | .removeFile path, w => w.removeFile path
  | .removeDirAll dir, w => w.removeDirAll dir
  | .submit message bytes, w => { w with submissions := w.submissions ++ [⟨message,bytes⟩] }
  | _, w => w

/-- A call is carried out or changes nothing. -/
theorem serveMail_effect (o : MailOutcome) (c : MailCall) (w : MailWorld) :
    (serveMail o c w).2 = w ∨ (serveMail o c w).2 = c.effect w := by
  cases c with
  | drawUuid n => exact Or.inl rfl
  | submit message bytes => exact Or.inr rfl
  | expunge folder uid =>
    exact MailOutcome.command_frame (P := fun w' => w' = w ∨ w' = _) (Or.inl rfl) (Or.inr rfl)
  | append folder bytes messageId search =>
    exact MailOutcome.command_frame (P := fun w' => w' = w ∨ w' = _) (Or.inl rfl) (Or.inr rfl)
  | upsertStaging uuid imapUid reply =>
    refine MailOutcome.runOption_frame (P := fun w' => w' = w ∨ w' = _) (Or.inl rfl) ?_
    intro f hf
    obtain ⟨db,hdb,rfl⟩ := Option.map_eq_some_iff.mp hf
    exact Or.inr (by simp only [MailCall.effect,hdb,Option.getD_some])
  | insertAttachment id draftUuid filename contentType size filePath =>
    refine MailOutcome.runOption_frame (P := fun w' => w' = w ∨ w' = _) (Or.inl rfl) ?_
    intro f hf
    obtain ⟨db,hdb,rfl⟩ := Option.map_eq_some_iff.mp hf
    exact Or.inr (by simp only [MailCall.effect,hdb,Option.getD_some])
  | enqueue e =>
    refine MailOutcome.runOption_frame (P := fun w' => w' = w ∨ w' = _) (Or.inl rfl) ?_
    intro f hf
    obtain ⟨t,ht,rfl⟩ := Option.map_eq_some_iff.mp hf
    exact Or.inr (by simp only [MailCall.effect,ht,Option.getD_some])
  | readFile path =>
    refine MailOutcome.runOption_frame (P := fun w' => w' = w ∨ w' = _) (Or.inl rfl) ?_
    intro f hf
    obtain ⟨data,-,rfl⟩ := Option.map_eq_some_iff.mp hf
    exact Or.inl rfl
  | removeFile path =>
    refine MailOutcome.runOption_frame (P := fun w' => w' = w ∨ w' = _) (Or.inl rfl) ?_
    intro f hf
    obtain ⟨data,-,rfl⟩ := Option.map_eq_some_iff.mp hf
    exact Or.inr rfl
  | _ => exact MailOutcome.run_frame (P := fun w' => w' = w ∨ w' = _) (Or.inl rfl) (Or.inr rfl)

/-- What holds of the state and of the effect of a call on it holds after the call. -/
theorem serveMail_frame {o : MailOutcome} {c : MailCall} {w : MailWorld} {P : MailWorld → Prop}
    (hw : P w) (he : P (c.effect w)) : P (serveMail o c w).2 := by
  rcases serveMail_effect o c w with h | h <;> rw [h]
  · exact hw
  · exact he

/-- A request from one call on. -/
theorem run_mailCall {α : Type} {weather : MailCall → MailOutcome} {c : MailCall} {r : c.Answer}
    {w w' : MailWorld} {k : c.Answer → MailTask α} (h : mailHandler weather c w = (r,w')) :
    (mailCall c >>= k).run (mailHandler weather) w = (k r).run (mailHandler weather) w' := by
  show (k (mailHandler weather c w).1).run _ (mailHandler weather c w).2 = _
  rw [h]

/-- A request from a statement on: the statement fails and changes nothing, or it goes through. -/
theorem run_statement {α : Type} {weather : MailCall → MailOutcome} {w : MailWorld}
    (P : α × MailWorld → Prop) (c : MailCall) (err : String → c.Answer) (f : c.Answer × MailWorld)
    {k : c.Answer → MailTask α}
    (hserve : ∀ e, (weather c).fails = some e → mailHandler weather c w = (err e,w))
    (hserve' : (weather c).fails = none → mailHandler weather c w = f)
    (herr : ∀ e, (weather c).fails = some e → P ((k (err e)).run (mailHandler weather) w))
    (hok : (weather c).fails = none → P ((k f.1).run (mailHandler weather) f.2)) :
    P ((mailCall c >>= k).run (mailHandler weather) w) := by
  cases hf : (weather c).fails with
  | some e => exact (run_mailCall (hserve e hf)) ▸ herr e hf
  | none => exact (run_mailCall (hserve' hf)) ▸ hok hf

/-- A request that opens the database: it cannot, or it goes on. -/
theorem run_withUserDb {α : Type} {weather : MailCall → MailOutcome} {w : MailWorld}
    (P : α × MailWorld → Prop) (n : Nat) {k : Except String Unit → MailTask α}
    (herr : ∀ e, (weather (.withUserDb n)).fails = some e →
      P ((k (.error e)).run (mailHandler weather) w))
    (hok : (weather (.withUserDb n)).fails = none →
      P ((k (.ok ())).run (mailHandler weather) w)) :
    P ((mailCall (.withUserDb n) >>= k : MailTask α).run (mailHandler weather) w) :=
  run_statement P (.withUserDb n) Except.error (.ok (),w) (fun _ => MailOutcome.run_some)
    MailOutcome.run_none herr hok

/-- Calls that are not commands to the IMAP server. -/
def MailCall.Offline : MailCall → Prop
  | .expunge _ _ => False
  | .append _ _ _ _ => False
  | _ => True

/-- Only commands change the folders of the server. -/
theorem serveMail_folders {o : MailOutcome} {c : MailCall} {w : MailWorld} (h : c.Offline) :
    (serveMail o c w).2.folders = w.folders := by
  refine serveMail_frame (P := fun w' => w'.folders = w.folders) rfl ?_
  cases c with
  | expunge folder uid => exact h.elim
  | append folder bytes messageId search => exact h.elim
  | _ => rfl

/-- A program without commands leaves the folders of the server alone. -/
theorem run_folders {α : Type} {t : MailTask α} (weather : MailCall → MailOutcome)
    (h : t.All MailCall.Offline) (w : MailWorld) :
    (t.run (mailHandler weather) w).2.folders = w.folders :=
  Prog.run_invariant (P := fun w' : MailWorld => w'.folders = w.folders) (fun _ _ _ => trivial)
    (fun _ _ hc hw => (serveMail_folders hc).trans hw) h rfl

/-! ### The Drafts folder -/

/-- The name of the Drafts folder. -/
def MailWorld.draftsFolder (w : MailWorld) : String :=
  (w.cache.findFolderByAttribute "\\Drafts").getD "Drafts"

/-- An update that keeps names and attributes does not change which folder has an attribute. -/
theorem findFolder_updateFolder {db : Db} {name : String} {g : CachedFolder → CachedFolder}
    {hg : ∀ r, (g r).name = r.name} (hflags : ∀ r, (g r).flags = r.flags) (attr : String) :
    (db.updateFolder name g hg).findFolderByAttribute attr = db.findFolderByAttribute attr := by
  show (List.find? _ (db.folders.rows.map _)).map CachedFolder.name = _
  unfold Db.findFolderByAttribute
  induction db.folders.rows with
  | nil => rfl
  | cons f fs ih =>
    let f' := if f.name = name then g f else f
    have hn : f'.name = f.name := by
      show (if f.name = name then g f else f).name = _
      split
      · exact hg f
      · rfl
    have hf : f'.flags = f.flags := by
      show (if f.name = name then g f else f).flags = _
      split
      · exact hflags f
      · rfl
    have hmap : (f :: fs).map (fun r => if r.name = name then g r else r) =
        f' :: fs.map (fun r => if r.name = name then g r else r) := rfl
    simp only [decide_eq_true_eq] at ih ⊢
    rw [hmap,List.find?_cons,List.find?_cons,hf]
    split
    · exact congrArg some hn
    · exact ih

/-- No call changes which folder is the Drafts folder. -/
theorem effect_draftsFolder (c : MailCall) (w : MailWorld) :
    (c.effect w).draftsFolder = w.draftsFolder := by
  have hcache : ∀ {name : String} {g : CachedFolder → CachedFolder}
      {hg : ∀ r, (g r).name = r.name}, (∀ r, (g r).flags = r.flags) →
      ((w.cache.updateFolder name g hg).findFolderByAttribute "\\Drafts").getD "Drafts" =
        w.draftsFolder :=
    fun hflags => congrArg (Option.getD · "Drafts") (findFolder_updateFolder hflags _)
  cases c with
  | setFolderTotalCount folder count => exact hcache (fun _ => rfl)
  | invalidateFolderFreshness folder => exact hcache (fun _ => rfl)
  | _ => rfl

theorem serveMail_draftsFolder (o : MailOutcome) (c : MailCall) (w : MailWorld) :
    (serveMail o c w).2.draftsFolder = w.draftsFolder :=
  serveMail_frame (P := fun w' => w'.draftsFolder = w.draftsFolder) rfl (effect_draftsFolder c w)

theorem run_draftsFolder {α : Type} (weather : MailCall → MailOutcome) (t : MailTask α)
    (w : MailWorld) : (t.run (mailHandler weather) w).2.draftsFolder = w.draftsFolder := by
  induction t generalizing w with
  | pure a => rfl
  | call c k ih => exact (ih _ _).trans (serveMail_draftsFolder _ _ _)

/-! ### What a request finds out -/

section Lookups

variable (weather : MailCall → MailOutcome) (w : MailWorld)

/-- The UID a request reads for a draft. -/
def readUid (uuid : String) : Option Nat :=
  match (weather (.getStaging uuid)).fails with
  | none => (w.drafts.getStaging uuid).bind DraftStaging.imapUid
  | some _ => none

/-- The folder a request takes for it. -/
def usedFolder : String :=
  match (weather (.findFolderByAttribute "\\Drafts")).fails with
  | none => w.draftsFolder
  | some _ => "Drafts"

theorem run_recordedUid (uuid : String) :
    (recordedUid uuid).run (mailHandler weather) w = (readUid weather w uuid,w) := by
  let r := (weather (.getStaging uuid)).run w (w.drafts.getStaging uuid,w)
  show (r.1.toOption.join.bind DraftStaging.imapUid,r.2) = _
  unfold readUid
  cases hf : (weather (.getStaging uuid)).fails with
  | none =>
    have hr : r = (.ok (w.drafts.getStaging uuid),w) := MailOutcome.run_none hf
    rw [hr]
    rfl
  | some e =>
    have hr : r = (.error e,w) := MailOutcome.run_some hf
    rw [hr]
    rfl

theorem run_folderWith :
    (folderWith "\\Drafts" "Drafts").run (mailHandler weather) w = (usedFolder weather w,w) := by
  let r := (weather (.findFolderByAttribute "\\Drafts")).run w
    (w.cache.findFolderByAttribute "\\Drafts",w)
  show (r.1.toOption.join.getD "Drafts",r.2) = _
  unfold usedFolder
  cases hf : (weather (.findFolderByAttribute "\\Drafts")).fails with
  | none =>
    have hr : r = (.ok (w.cache.findFolderByAttribute "\\Drafts"),w) := MailOutcome.run_none hf
    rw [hr]
    rfl
  | some e =>
    have hr : r = (.error e,w) := MailOutcome.run_some hf
    rw [hr]
    rfl

end Lookups

/-! ### The commands of a save -/

section Commands

/-- An expunge is carried out, whatever the answer says. -/
def ExpungeDone (weather : MailCall → MailOutcome) (folder : String) (uid : Nat) : Prop :=
  ∀ e, (weather (.expunge folder uid)).imap ≠ .refused e

/-- So is an append. -/
def AppendDone (weather : MailCall → MailOutcome) (folder messageId : String)
    (bytes : List UInt8) : Prop :=
  ∀ e, (weather (.append folder bytes messageId true)).imap ≠ .refused e

variable {weather : MailCall → MailOutcome} {w : MailWorld} {env : MailEnv}
  {folder uuid : String} {req : SaveDraftRequest}

theorem MailWorld.setFolder_of_ne {f : String} {b : MailFolder} (h : f ≠ folder) :
    (w.setFolder folder b).folders f = w.folders f := Function.update_of_ne h _ _

@[simp] theorem MailWorld.setFolder_self (b : MailFolder) :
    (w.setFolder folder b).folders folder = b := Function.update_self _ _ _

/-- A command is carried out, or it changes nothing. -/
theorem MailOutcome.command_snd {α : Type} (o : MailOutcome) (f : α × MailWorld) :
    ((∀ e, o.imap ≠ .refused e) → (o.command w f).2 = f.2) ∧
      (¬(∀ e, o.imap ≠ .refused e) → (o.command w f).2 = w) := by
  unfold MailOutcome.command
  cases o.imap with
  | done => exact ⟨fun _ => rfl,fun h => absurd (fun _ => ImapOutcome.noConfusion) h⟩
  | lost e => exact ⟨fun _ => rfl,fun h => absurd (fun _ => ImapOutcome.noConfusion) h⟩
  | refused e => exact ⟨fun h => absurd rfl (h e),fun _ => rfl⟩

/-- What an expunge leaves of a folder. -/
theorem expungeCopy_spec (uid : Option Nat) (f : String) :
    (((expungeCopy folder uid).run (mailHandler weather) w).2.folders f).uidNext =
      (w.folders f).uidNext ∧
    ∀ copy, copy ∈ (((expungeCopy folder uid).run (mailHandler weather) w).2.folders f).messages ↔
      copy ∈ (w.folders f).messages ∧
        ¬(f = folder ∧ uid = some copy.uid ∧ ExpungeDone weather folder copy.uid) := by
  cases uid with
  | none => exact ⟨rfl,fun copy => ⟨fun h => ⟨h,nofun⟩,And.left⟩⟩
  | some u =>
    have hw := MailOutcome.command_snd (w := w) (weather (.expunge folder u))
      ((),w.setFolder folder ((w.folders folder).expunge u))
    show ((serveMail (weather (.expunge folder u)) (.expunge folder u) w).2.folders f).uidNext = _ ∧
      ∀ copy, copy ∈
        ((serveMail (weather (.expunge folder u)) (.expunge folder u) w).2.folders f).messages ↔ _
    by_cases hd : ExpungeDone weather folder u
    · rw [show (serveMail (weather (.expunge folder u)) (.expunge folder u) w).2 = _ from hw.1 hd]
      by_cases hf : f = folder
      · subst hf
        rw [MailWorld.setFolder_self]
        refine ⟨rfl,fun copy => ?_⟩
        simp only [MailFolder.expunge,List.mem_filter,decide_eq_true_eq,Option.some.injEq]
        refine and_congr_right fun _ => not_congr ⟨?_,fun h => h.2.1.symm⟩
        rintro rfl
        exact ⟨trivial,rfl,hd⟩
      · rw [MailWorld.setFolder_of_ne hf]
        exact ⟨rfl,fun copy => ⟨fun h => ⟨h,fun h => hf h.1⟩,And.left⟩⟩
    · rw [show (serveMail (weather (.expunge folder u)) (.expunge folder u) w).2 = _ from hw.2 hd]
      refine ⟨rfl,fun copy => ⟨fun h => ⟨h,?_⟩,And.left⟩⟩
      rintro ⟨-,hu,hdone⟩
      exact hd (Option.some.inj hu ▸ hdone)

/-- A copy of the new version that an append puts into the folder. -/
def Appended (weather : MailCall → MailOutcome) (env : MailEnv) (folder uuid : String)
    (req : SaveDraftRequest) (uid : Nat) (copy : MailCopy) : Prop :=
  copy.uid = uid ∧ copy.messageId = draftMessageId uuid ∧
    env.buildDraft req env.email (draftMessageId uuid) = .ok copy.bytes ∧
      AppendDone weather folder (draftMessageId uuid) copy.bytes

/-- What an append leaves of a folder. -/
theorem appendDraft_spec (f : String) (copy : MailCopy) :
    copy ∈ (((appendDraft env folder uuid req).run (mailHandler weather) w).2.folders f).messages ↔
      copy ∈ (w.folders f).messages ∨
        f = folder ∧ Appended weather env folder uuid req (w.folders f).uidNext copy := by
  unfold appendDraft
  cases hb : env.buildDraft req env.email (draftMessageId uuid) with
  | error e =>
    refine ⟨Or.inl,?_⟩
    rintro (h | ⟨-,-,-,h,-⟩)
    · exact h
    · rw [hb] at h
      exact absurd h nofun
  | ok bytes =>
    let c : MailCall := .append folder bytes (draftMessageId uuid) true
    let b := (w.folders folder).append bytes (draftMessageId uuid)
    have hw := MailOutcome.command_snd (w := w) (weather c)
      (b.search (draftMessageId uuid),w.setFolder folder b)
    show copy ∈ ((serveMail (weather c) c w).2.folders f).messages ↔ _
    by_cases hd : AppendDone weather folder (draftMessageId uuid) bytes
    · rw [show (serveMail (weather c) c w).2 = _ from hw.1 hd]
      by_cases hf : f = folder
      · subst hf
        rw [MailWorld.setFolder_self]
        refine List.mem_append.trans (or_congr_right ?_)
        rw [List.mem_singleton]
        refine ⟨?_,?_⟩
        · rintro rfl
          exact ⟨rfl,rfl,rfl,hb,hd⟩
        · rintro ⟨-,hu,hm,hb',-⟩
          rw [hb] at hb'
          obtain ⟨u,mid,bs⟩ := copy
          obtain rfl : bytes = bs := Except.ok.inj hb'
          obtain rfl : u = _ := hu
          obtain rfl : mid = _ := hm
          rfl
      · rw [MailWorld.setFolder_of_ne hf]
        exact ⟨Or.inl,fun h => h.resolve_right fun h => hf h.1⟩
    · rw [show (serveMail (weather c) c w).2 = _ from hw.2 hd]
      refine ⟨Or.inl,?_⟩
      rintro (h | ⟨-,-,-,hb',hdone⟩)
      · exact h
      · rw [hb] at hb'
        exact absurd (Except.ok.inj hb' ▸ hdone) hd

theorem offline_recordDraft (existingUid newUid : Option Nat) :
    (recordDraft folder uuid req existingUid newUid).All MailCall.Offline :=
  ⟨trivial,fun r _ => by
    cases r with
    | error e => trivial
    | ok _ => exact ⟨trivial,fun _ _ => ⟨trivial,fun _ _ => ⟨trivial,fun _ _ =>
        ⟨trivial,fun _ _ => trivial⟩⟩⟩⟩⟩

/-- What replacing the copy leaves of a folder. -/
theorem replaceDraft_spec (uid : Option Nat) (f : String) (copy : MailCopy) :
    copy ∈ (((replaceDraft env uuid req uid folder).run (mailHandler weather) w).2.folders
        f).messages ↔
      copy ∈ (w.folders f).messages ∧
          ¬(f = folder ∧ uid = some copy.uid ∧ ExpungeDone weather folder copy.uid) ∨
        f = folder ∧ Appended weather env folder uuid req (w.folders f).uidNext copy := by
  unfold replaceDraft
  simp only [Prog.run_bind]
  show copy ∈ (((recordDraft folder uuid req uid _).run (mailHandler weather) _).2.folders
    f).messages ↔ _
  rw [run_folders weather (offline_recordDraft _ _),appendDraft_spec]
  rw [(expungeCopy_spec uid f).1,(expungeCopy_spec uid f).2]

/-- A request ends early and changes nothing, or it replaces the copy it has found. -/
theorem saveDraftLocked_exec :
    ((saveDraftLocked env uuid req).exec weather w).2 =
      if env.imapHost.isSome ∧ (weather (.withUserDb 0)).fails = none then
        ((replaceDraft env uuid req (readUid weather w uuid) (usedFolder weather w)).run
          (mailHandler weather) w).2
      else w := by
  unfold MailTask.exec saveDraftLocked
  cases hi : env.imapHost with
  | none => rfl
  | some host =>
    cases hf : (weather (.withUserDb 0)).fails with
    | some e =>
      have hr : mailHandler weather (.withUserDb 0) w = (.error e,w) := MailOutcome.run_some hf
      exact congrArg Prod.snd (run_mailCall hr)
    | none =>
      have hr : mailHandler weather (.withUserDb 0) w = (.ok (),w) := MailOutcome.run_none hf
      refine (congrArg Prod.snd (run_mailCall hr)).trans ?_
      show (Prog.run (mailHandler weather) (recordedUid uuid >>= fun existingUid =>
        folderWith "\\Drafts" "Drafts" >>= replaceDraft env uuid req existingUid) w).2 = _
      simp only [Prog.run_bind,run_recordedUid,run_folderWith]
      rfl

end Commands

/-! ### Samples -/

/-- A server without disturbances: SMTP accepts, and every id drawn is `1`. -/
def placid : MailOutcome := ⟨none,.done,.ok (),"1"⟩

/-- A site that puts the text of a message under its Message-ID, and stores no PGP parameters. -/
def plainSite : MailEnv where
  imapHost := some "imap.example.com"
  smtpHost := some "smtp.example.com"
  email := "alice@example.com"
  attDir uuid := "/data/attachments/" ++ uuid
  buildDraft req _ messageId := .ok (messageId ++ "\r\n\r\n" ++ req.textBody).toUTF8.data.toList
  buildMessage m messageId := .ok (messageId ++ "\r\n\r\n" ++ m.textBody).toUTF8.data.toList
  buildCopy m messageId := .ok (messageId ++ "\r\n\r\n" ++ m.textBody).toUTF8.data.toList
  pgpToJson _ := "null"
  pgpFromJson _ := none

/-- A user without drafts. -/
def freshMail : MailWorld where
  drafts := ⟨.empty,.empty,nofun⟩
  cache := Db.empty
  queue := .empty
  identities := []
  undoSendDelay := 5
  folders _ := .empty
  files := []
  now := 0
  submissions := []

def helloDraft : SaveDraftRequest := ⟨"bob@example.com","","","Hello","Body",none,none,none⟩

end Rav
