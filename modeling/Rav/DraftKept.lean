import Rav.Drafts.Spec

/-!
# A draft while it is saved

Saving replaces the copy in the Drafts mailbox in two commands, the expunge of the old copy first.
Whatever each step meets, the mailbox ends up with one of the two versions unless the expunge is
carried out and the new version is then not stored.

## Main definitions

- `ExistingDraft` — a draft whose copy is on record
- `DraftKept` — the old copy or a copy of the new version is in the Drafts mailbox
- `OldRemoved`, `NewStored` — what the steps of a request meet
-/

namespace Rav

section Versions

variable (env : MailEnv) (weather : MailCall → MailOutcome) (uuid : String)
  (req : SaveDraftRequest) (m : MailCopy) (w : MailWorld)

/-- The draft is staged, and the copy whose UID is on record is in the Drafts mailbox. -/
def ExistingDraft : Prop :=
  (w.drafts.getStaging uuid).bind DraftStaging.imapUid = some m.uid ∧
    m ∈ (w.folders w.draftsFolder).messages

/-- A copy of the new version, younger than every message that was there before. -/
def NewVersion (copy : MailCopy) : Prop :=
  (w.folders w.draftsFolder).uidNext ≤ copy.uid ∧ copy.messageId = draftMessageId uuid ∧
    env.buildDraft req env.email (draftMessageId uuid) = .ok copy.bytes

/-- After a request the Drafts mailbox holds the previous version or the new one. -/
def DraftKept (w' : MailWorld) : Prop :=
  ∃ copy ∈ (w'.folders w.draftsFolder).messages, copy = m ∨ NewVersion env uuid req w copy

/-- The request gets as far as expunging the previous copy, and the command is carried out. -/
def OldRemoved : Prop :=
  env.imapHost.isSome ∧ (weather (.withUserDb 0)).fails = none ∧
    (weather (.getStaging uuid)).fails = none ∧ usedFolder weather w = w.draftsFolder ∧
    ExpungeDone weather w.draftsFolder m.uid

/-- The new version is built, and the command that appends it is carried out. -/
def NewStored : Prop :=
  ∃ bytes, env.buildDraft req env.email (draftMessageId uuid) = .ok bytes ∧
    AppendDone weather w.draftsFolder (draftMessageId uuid) bytes

end Versions

/-! ### One request -/

section Saves

variable {env : MailEnv} {weather : MailCall → MailOutcome} {uuid : String}
  {req : SaveDraftRequest} {m : MailCopy} {w : MailWorld}

/-- Saving keeps one of the two versions exactly where the old copy stays or the new one is stored,
whatever each step of the request meets. -/
theorem save_keeps_iff (h : ExistingDraft uuid m w) :
    DraftKept env uuid req m w ((saveDraftLocked env uuid req).exec weather w).2 ↔
      (OldRemoved env weather uuid m w → NewStored env weather uuid req w) := by
  obtain ⟨hrow,hm⟩ := h
  rw [saveDraftLocked_exec]
  split
  · next hgo =>
    unfold DraftKept
    simp only [replaceDraft_spec]
    refine ⟨?_,fun hstored => ?_⟩
    · rintro ⟨copy,⟨hbefore,hnot⟩ | ⟨hf,happ⟩,hcopy⟩ ⟨-,-,hstaging,hfolder,hdone⟩
      · rcases hcopy with rfl | hnew
        · refine absurd ⟨hfolder.symm,?_,hfolder ▸ hdone⟩ hnot
          unfold readUid
          rw [hstaging]
          exact hrow
        · exact absurd ((w.folders w.draftsFolder).ascending copy hbefore) (Nat.not_lt.mpr hnew.1)
      · exact ⟨copy.bytes,happ.2.2.1,hf ▸ happ.2.2.2⟩
    · by_cases hold : OldRemoved env weather uuid m w
      · obtain ⟨bytes,hb,hdone⟩ := hstored hold
        have hf : w.draftsFolder = usedFolder weather w := hold.2.2.2.1.symm
        refine ⟨⟨(w.folders w.draftsFolder).uidNext,draftMessageId uuid,bytes⟩,
          Or.inr ⟨hf,rfl,rfl,hb,hf ▸ hdone⟩,Or.inr ⟨Nat.le_refl _,rfl,hb⟩⟩
      · refine ⟨m,Or.inl ⟨hm,?_⟩,Or.inl rfl⟩
        rintro ⟨hf,huid,hdone⟩
        refine hold ⟨hgo.1,hgo.2,?_,hf.symm,hf ▸ hdone⟩
        unfold readUid at huid
        split at huid
        · assumption
        · exact absurd huid nofun
  · next hstop =>
    exact ⟨fun _ hold => absurd ⟨hold.1,hold.2.1⟩ hstop,fun _ => ⟨m,hm,Or.inl rfl⟩⟩

end Saves

/-! ### Samples -/

/-- The copy of a draft that has been saved once. -/
def savedCopy : MailCopy := ⟨1,draftMessageId "d",[72,105]⟩

/-- A mailbox with this copy, its UID on record. -/
def savedMail : MailWorld :=
  { freshMail with
    drafts := ⟨⟨[⟨"d",some 1,none⟩],by decide⟩,.empty,nofun⟩
    folders := fun _ => ⟨[savedCopy],2,by decide,by decide⟩ }

/-- The server is over quota. -/
def overQuota : MailOutcome := { placid with imap := .refused "NO [OVERQUOTA] Quota exceeded" }

/-- Only the append is refused. -/
def quotaWeather : MailCall → MailOutcome
  | .append _ _ _ _ => overQuota
  | _ => placid

theorem existing_savedMail : ExistingDraft "d" savedCopy savedMail := by
  refine ⟨rfl,?_⟩
  show savedCopy ∈ [savedCopy]
  exact List.mem_singleton_self _

/-- A draft is saved as long as the server accepts the new copy. -/
theorem save_keeps_iff_placid :
    DraftKept plainSite "d" helloDraft savedCopy savedMail
        ((saveDraftLocked plainSite "d" helloDraft).exec (fun _ => placid) savedMail).2 ↔
      (OldRemoved plainSite (fun _ => placid) "d" savedCopy savedMail →
        NewStored plainSite (fun _ => placid) "d" helloDraft savedMail) :=
  save_keeps_iff existing_savedMail

/-- An existing draft of which a save over quota leaves neither version, and is told `saved`. -/
theorem refused_append_loses_draft :
    ExistingDraft "d" savedCopy savedMail ∧
      ((saveDraftLocked plainSite "d" helloDraft).exec quotaWeather savedMail).1 = .ok "saved" ∧
      ¬DraftKept plainSite "d" helloDraft savedCopy savedMail
        ((saveDraftLocked plainSite "d" helloDraft).exec quotaWeather savedMail).2 := by
  refine ⟨existing_savedMail,rfl,?_⟩
  rintro ⟨copy,hcopy,-⟩
  have hnone : (((saveDraftLocked plainSite "d" helloDraft).exec quotaWeather savedMail).2.folders
      "Drafts").messages = [] := rfl
  exact absurd (hnone ▸ hcopy) List.not_mem_nil

end Rav
