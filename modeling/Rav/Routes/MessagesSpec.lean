import Rav.Realtime.Cycle
import Rav.Routes.Messages

/-!
# What the request handlers do

In steady weather each handler is a function of the cache and the mailbox: `listing`,
`remaining` and `opening`. None of them touches another folder.

## Main definitions

- `listing` — what `listMessages` makes of the cache, and the background fetch it starts
- `remaining` — what `syncRemainingHeaders` makes of the cache
- `opening` — what `getMessage` makes of the cache
-/

namespace Rav

variable {weather : Weather} {w : World} {b : Mailbox} {f : String} {db : Db}

/-- With a folder row nothing is refused. -/
theorem upsertAndIndexHeaders_eq (hrow : (db.folder? f).isSome) (hs : List ImapMessageHeader) :
    upsertAndIndexHeaders f hs db = (true,storeHeaders f hs db) := by
  induction hs generalizing db with
  | nil => rfl
  | cons h hs ih =>
    obtain ⟨db',hu⟩ : ∃ db', db.upsertHeader f h = some db' :=
      Option.isSome_iff_exists.mp ((Db.upsertMessage_isSome _).mpr hrow)
    have hrow' : (db'.folder? f).isSome := by rwa [(Db.upsertMessage_spec hu).1]
    simp only [upsertAndIndexHeaders,hu,ih hrow']
    rw [storeHeaders,storeHeaders,List.foldl_cons,hu]
    rfl

theorem storeFetched_eq (hrow : (db.folder? f).isSome) (hs : List ImapMessageHeader) (v n : Nat) :
    storeFetched f hs v n db =
      (true,((storeHeaders f hs db).updateFolderStatus f v n).refreshUnreadCount f) := by
  simp [storeFetched,upsertAndIndexHeaders_eq hrow]

theorem storeFetched_of_noRow (hrow : db.folder? f = none) {hs : List ImapMessageHeader}
    (hne : hs ≠ []) {v n : Nat} : (storeFetched f hs v n db).2 = db := by
  cases hs with
  | nil => exact absurd rfl hne
  | cons h hs =>
    have hu : db.upsertHeader f h = none := by
      rw [← Option.not_isSome_iff_eq_none,Db.upsertHeader,Db.upsertMessage_isSome,hrow]
      simp
    simp [storeFetched,upsertAndIndexHeaders,hu]

theorem onlyFolder_upsertAndIndexHeaders (hs : List ImapMessageHeader) :
    OnlyFolder f db (upsertAndIndexHeaders f hs db).2 := by
  induction hs generalizing db with
  | nil => exact onlyFolder_refl f db
  | cons h hs ih =>
    unfold upsertAndIndexHeaders
    cases hu : db.upsertHeader f h with
    | none => exact onlyFolder_refl f db
    | some db' =>
      obtain ⟨hf,hm,-⟩ := Db.upsertMessage_spec hu
      refine onlyFolder_trans _ _ _ (onlyFolder_of_rows hf (fun g u hg => ?_)) ih
      rw [hm,if_neg (fun hc => hg hc.1)]

theorem onlyFolder_storeFetched (hs : List ImapMessageHeader) (v n : Nat) :
    OnlyFolder f db (storeFetched f hs v n db).2 := by
  have h := @onlyFolder_upsertAndIndexHeaders f db hs
  unfold storeFetched
  dsimp only
  split
  · exact onlyFolder_trans _ _ _ h
      (onlyFolder_trans _ _ _ (onlyFolder_updateFolder _ _) (onlyFolder_updateFolder _ _))
  · exact h

/-! ### Listing -/

/-- The cache a cold start leaves and the background fetches it starts. -/
def cold (weather : Weather) (b : Mailbox) (f : String) (st : FolderStatus) (db : Db) :
    Db × List BackgroundSyncParams :=
  match weather.fails (.fetchHeaders f (.fromOn (recentStart st.uidNext))) with
  | some _ => (db,[])
  | none =>
    let r := storeFetched f (b.headers (.fromOn (recentStart st.uidNext))) st.uidValidity st.exists_ db
    (r.2,if r.1 ∧ 1 < recentStart st.uidNext then
      [⟨f,.upTo 1 (recentStart st.uidNext - 1),st.uidValidity,st.exists_⟩] else [])

/-- The cache `listMessages` leaves and the background fetches it starts. -/
def listing (weather : Weather) (b : Mailbox) (f : String) (db : Db) : Db × List BackgroundSyncParams :=
  match initialFolderCheck f db with
  | (none,db) => (db,[])
  | (some initial,db) =>
    match weather.fails (.folderStatus f) with
    | some _ => (db,[])
    | none =>
      match syncOutcome f initial b.status db with
      | (.coldStart,db) => cold weather b f b.status db
      | (.stalePoke,db) => (db,[])
      | (.noSyncNeeded,db) => (db,[])

theorem exec_coldStart (hw : Steady weather) (st : FolderStatus) :
    (Task.exec weather (coldStart f st) w).2.server = w.server ∧
      (Task.exec weather (coldStart f st) w).2.db = (cold weather (w.server f) f st w.db).1 ∧
      (Task.exec weather (coldStart f st) w).2.background =
        w.background ++ (cold weather (w.server f) f st w.db).2 := by
  simp only [coldStart,cold,Task.exec_bind,exec_imap_steady hw]
  cases weather.fails (.fetchHeaders f (.fromOn (recentStart st.uidNext))) with
  | some e => simp
  | none =>
    simp only [World.reply,Task.exec_bind,Task.exec_withUserDb]
    by_cases hok : (storeFetched f ((w.server f).headers (.fromOn (recentStart st.uidNext)))
      st.uidValidity st.exists_ w.db).1 = true
    · by_cases h1 : 1 < recentStart st.uidNext <;> simp [hok,h1]
    · simp [hok]

/-- In steady weather `listMessages` is `listing`. -/
theorem exec_listMessages (hw : Steady weather) :
    (Task.exec weather (listMessages f) w).2.server = w.server ∧
      (Task.exec weather (listMessages f) w).2.db = (listing weather (w.server f) f w.db).1 ∧
      (Task.exec weather (listMessages f) w).2.background =
        w.background ++ (listing weather (w.server f) f w.db).2 := by
  simp only [listMessages,listStale,Task.exec_bind,Task.exec_withUserDb,listing]
  rcases initialFolderCheck f w.db with ⟨_ | initial,db₁⟩
  · simp
  simp only [Task.exec_bind,exec_imap_steady hw]
  cases weather.fails (.folderStatus f) with
  | some e => simp
  | none =>
    simp only [World.reply,Task.exec_bind,Task.exec_withUserDb]
    rcases syncOutcome f initial (w.server f).status db₁ with ⟨_ | _ | _,db₂⟩
    · exact exec_coldStart (w := { w with db := db₂ }) hw (w.server f).status
    · simp
    · simp

theorem background_cold {st : FolderStatus} :
    ∀ p ∈ (cold weather b f st db).2, p.folder = f ∧ p.uidValidity = st.uidValidity := by
  intro p hp
  unfold cold at hp
  split at hp
  · simp at hp
  · dsimp only at hp
    split at hp
    · obtain rfl := List.mem_singleton.mp hp
      exact ⟨rfl,rfl⟩
    · simp at hp

/-- A background fetch is started under the UIDVALIDITY of the moment. -/
theorem background_listing :
    ∀ p ∈ (listing weather b f db).2, p.folder = f ∧ p.uidValidity = b.uidValidity := by
  intro p hp
  unfold listing at hp
  split at hp
  · simp at hp
  · split at hp
    · simp at hp
    · split at hp
      · exact background_cold p hp
      · simp at hp
      · simp at hp

theorem onlyFolder_initialFolderCheck : OnlyFolder f db (initialFolderCheck f db).2 := by
  unfold initialFolderCheck
  split
  · exact onlyFolder_refl f db
  · dsimp only
    split
    · exact onlyFolder_refl f db
    · intro g hg
      exact ⟨by rw [Db.folder?_upsertFolder,if_neg hg],fun u => by rw [Db.message?_upsertFolder,if_neg hg]⟩

theorem onlyFolder_syncOutcome (initial : InitialFolderCheck) (st : FolderStatus) :
    OnlyFolder f db (syncOutcome f initial st db).2 := by
  have hdel : OnlyFolder f db (if initial.cachedUidValidity ≠ 0 ∧
      initial.cachedUidValidity ≠ st.uidValidity then db.deleteFolderMessages f else db) := by
    split
    · exact fun g hg => ⟨rfl,fun u => by rw [Db.message?_deleteFolderMessages,if_neg hg]⟩
    · exact onlyFolder_refl f db
  unfold syncOutcome
  dsimp only
  split
  · exact onlyFolder_trans _ _ _ hdel (onlyFolder_updateFolder _ _)
  · split
    · exact hdel
    · exact onlyFolder_trans _ _ _ hdel (onlyFolder_updateFolder _ _)

theorem onlyFolder_cold (st : FolderStatus) : OnlyFolder f db (cold weather b f st db).1 := by
  unfold cold
  split
  · exact onlyFolder_refl f db
  · exact onlyFolder_storeFetched _ _ _

theorem onlyFolder_listing : OnlyFolder f db (listing weather b f db).1 := by
  have h₁ := @onlyFolder_initialFolderCheck f db
  unfold listing
  revert h₁
  rcases initialFolderCheck f db with ⟨_ | initial,db₁⟩ <;> intro h₁
  · exact h₁
  cases weather.fails (.folderStatus f) with
  | some e => exact h₁
  | none =>
    have h₂ := onlyFolder_trans _ _ _ h₁ (@onlyFolder_syncOutcome f db₁ initial b.status)
    dsimp only
    revert h₂
    rcases syncOutcome f initial b.status db₁ with ⟨_ | _ | _,db₂⟩ <;> intro h₂
    · exact onlyFolder_trans _ _ _ h₂ (onlyFolder_cold _)
    · exact h₂
    · exact h₂

/-! ### The background fetch -/

/-- The cache `syncRemainingHeaders` leaves. -/
def remaining (weather : Weather) (b : Mailbox) (p : BackgroundSyncParams) (db : Db) : Db :=
  match weather.fails (.fetchHeaders p.folder p.uidRange) with
  | some _ => db
  | none =>
    if (b.headers p.uidRange).isEmpty then db
    else (storeFetched p.folder (b.headers p.uidRange) p.uidValidity p.exists_ db).2

theorem exec_syncRemainingHeaders (hw : Steady weather) (p : BackgroundSyncParams) :
    (Task.exec weather (syncRemainingHeaders p) w).2.server = w.server ∧
      (Task.exec weather (syncRemainingHeaders p) w).2.db =
        remaining weather (w.server p.folder) p w.db ∧
      (Task.exec weather (syncRemainingHeaders p) w).2.background = w.background := by
  simp only [syncRemainingHeaders,remaining,Task.exec_bind,exec_imap_steady hw]
  cases weather.fails (.fetchHeaders p.folder p.uidRange) with
  | some e => simp
  | none =>
    simp only [World.reply]
    by_cases he : ((w.server p.folder).headers p.uidRange).isEmpty = true
    · simp [he]
    · simp only [he,Bool.false_eq_true,if_false,Task.exec_bind,Task.exec_withUserDb]
      by_cases hok : (storeFetched p.folder ((w.server p.folder).headers p.uidRange) p.uidValidity
        p.exists_ w.db).1 = true <;> simp [hok]

theorem onlyFolder_remaining (p : BackgroundSyncParams) :
    OnlyFolder p.folder db (remaining weather b p db) := by
  unfold remaining
  split
  · exact onlyFolder_refl _ db
  · split
    · exact onlyFolder_refl _ db
    · exact onlyFolder_storeFetched _ _ _

/-! ### Opening a message -/

/-- The cache `getMessage` leaves. -/
def opening (weather : Weather) (stored : ImapMessageBody → CachedBody) (b : Mailbox) (f : String)
    (u : Nat) (db : Db) : Db :=
  if ((db.getCachedBody f u).filter (fun c => c.attachmentsJson.isSome)).isSome then db
  else
    match weather.fails (.fetchBody f u),b.body f u with
    | none,.ok body => db.cacheMessageBody f u (stored body)
    | _,_ => (db.deleteMessage f u).invalidateFolderFreshness f

theorem exec_getMessage (hw : Steady weather) (stored : ImapMessageBody → CachedBody) (u : Nat) :
    (Task.exec weather (getMessage stored f u) w).2.server = w.server ∧
      (Task.exec weather (getMessage stored f u) w).2.db =
        opening weather stored (w.server f) f u w.db ∧
      (Task.exec weather (getMessage stored f u) w).2.background = w.background := by
  simp only [getMessage,opening,Task.exec_bind,Task.exec_query]
  cases (w.db.getCachedBody f u).filter (fun c => c.attachmentsJson.isSome) with
  | some c => simp
  | none =>
    simp only [Task.exec_bind,exec_imap_steady hw]
    cases weather.fails (.fetchBody f u) with
    | some e => simp
    | none =>
      simp only [World.reply]
      cases (w.server f).body f u <;> simp

theorem onlyFolder_opening (stored : ImapMessageBody → CachedBody) (u : Nat) :
    OnlyFolder f db (opening weather stored b f u db) := by
  unfold opening
  split
  · exact onlyFolder_refl f db
  · split
    · intro g hg
      refine ⟨rfl,fun v => ?_⟩
      rw [Db.message?_cacheMessageBody]
      simp [hg]
    · intro g hg
      refine ⟨?_,fun v => ?_⟩
      · rw [Db.invalidateFolderFreshness,Db.folder?_updateFolder]
        simp [hg]
      · rw [Db.message?_invalidateFolderFreshness,Db.message?_deleteMessage,
          if_neg (fun hc => hg hc.1)]

end Rav
