import Rav.Convergence
import Rav.Imap.FetchBody

/-!
# Rows dropped for want of a body

When a message is opened and its body is not cached, the client asks the server for it. Whatever
comes back instead of a body, the message's row is deleted and the folder is invalidated: also where
the server has not been reached at all.

## Main definitions

- `handleBodyExchange` — a `getMessage` call against one exchange
- `DropsOnlyGone` — a row is dropped only for a message that is gone
- `drops_only_gone_iff` — when that is so
-/

namespace Rav

variable (parse : Nat → List UInt8 → Option ImapMessageBody) (x : BodyExchange)

/-- Answer a call of `getMessage`; the body fetch is the client's, over the exchange. -/
def handleBodyExchange : (c : Call) → World → c.Answer × World
  | .imap (.fetchBody f u), w => (x.fetchBody parse f u,w)
  | c, w => handle calm c w

/-- The database after a `getMessage` call. -/
def getMessageDb (stored : ImapMessageBody → CachedBody) (f : String) (u : Nat) (w : World) : Db :=
  ((getMessage stored f u).run (handleBodyExchange parse x) w).2.db

/-- A row is dropped only for the message asked for, when the server has said that it is gone; any
other failure leaves the cache as it was. -/
structure DropsOnlyGone (f : String) (u : Nat) (db db' : Db) : Prop where
  dropped : ∀ g v, (db.message? g v).isSome = true → db'.message? g v = none →
    g = f ∧ v = u ∧ x.Established u
  kept : ∀ e, x.fetchBody parse f u = .error e → ¬x.Established u → db' = db

/-- The body is cached, with its list of attachments. -/
def Db.BodyUsable (db : Db) (f : String) (u : Nat) : Prop :=
  ∃ c, db.getCachedBody f u = some c ∧ c.attachmentsJson.isSome = true

/-- There is no row to lose, and the folder counts as stale already. -/
def Db.NothingToLose (db : Db) (f : String) (u : Nat) : Prop :=
  db.message? f u = none ∧ ∀ row, db.folder? f = some row → row.messagesUpdatedAt = none

section

variable {parse x} {stored : ImapMessageBody → CachedBody} {f : String} {u : Nat} {w : World}

theorem getMessageDb_of_usable (h : w.db.BodyUsable f u) :
    getMessageDb parse x stored f u w = w.db := by
  obtain ⟨c,hc,hsome⟩ := h
  have hq : (w.db.getCachedBody f u).filter (fun c => c.attachmentsJson.isSome) = some c := by
    rw [hc,Option.filter_some,if_pos hsome]
  have hquery : (Task.query (fun db => (db.getCachedBody f u).filter
      (fun c => c.attachmentsJson.isSome))).run (handleBodyExchange parse x) w = (some c,w) :=
    congrArg (fun o => (o,w)) hq
  unfold getMessageDb getMessage
  rw [Prog.run_bind,hquery]
  rfl

/-- Without a usable body the call is what it makes of the client's answer. -/
theorem getMessageDb_of_not_usable (h : ¬w.db.BodyUsable f u) : getMessageDb parse x stored f u w =
    match x.fetchBody parse f u with
    | .error _ => (w.db.deleteMessage f u).invalidateFolderFreshness f
    | .ok b => w.db.cacheMessageBody f u (stored b) := by
  have hq : (w.db.getCachedBody f u).filter (fun c => c.attachmentsJson.isSome) = none := by
    refine Option.filter_eq_none_iff.mpr (fun c hc hsome => h ⟨c,hc,hsome⟩)
  have hquery : (Task.query (fun db => (db.getCachedBody f u).filter
      (fun c => c.attachmentsJson.isSome))).run (handleBodyExchange parse x) w = (none,w) :=
    congrArg (fun o => (o,w)) hq
  unfold getMessageDb getMessage
  rw [Prog.run_bind,hquery]
  have hanswer : (Task.imap (.fetchBody f u)).run (handleBodyExchange parse x) w =
      (x.fetchBody parse f u,w) := rfl
  dsimp only
  rw [Prog.run_bind,hanswer]
  cases x.fetchBody parse f u with
  | error e => rfl
  | ok b => rfl

/-- Dropping and invalidating change nothing exactly if there is nothing to lose. -/
theorem dropped_eq_iff {db : Db} : (db.deleteMessage f u).invalidateFolderFreshness f = db ↔
    db.NothingToLose f u := by
  constructor
  · intro h
    have hrow : ((db.deleteMessage f u).invalidateFolderFreshness f).message? f u = none := by
      rw [Db.message?_invalidateFolderFreshness,Db.message?_deleteMessage,if_pos ⟨rfl,rfl⟩]
    refine ⟨h ▸ hrow,fun row hf => ?_⟩
    have hfolder : ((db.deleteMessage f u).invalidateFolderFreshness f).folder? f =
        some { row with messagesUpdatedAt := none } := by
      rw [Db.invalidateFolderFreshness,Db.folder?_updateFolder,Db.folder?_deleteMessage,hf]
      simp
    rw [h,hf] at hfolder
    exact congrArg CachedFolder.messagesUpdatedAt (Option.some.inj hfolder)
  · rintro ⟨hrow,hfolder⟩
    rw [Db.deleteMessage_of_none hrow,Db.invalidateFolderFreshness_of_stale hfolder]

end

/-- A `getMessage` call drops a row only for a message that is gone, and otherwise leaves the cache
as it was when it fails, exactly if it answers from the cache, or gets the body, or the server has
said that the message is gone, or there is nothing to lose. -/
theorem drops_only_gone_iff (stored : ImapMessageBody → CachedBody) (f : String) (u : Nat)
    (w : World) :
    DropsOnlyGone parse x f u w.db (getMessageDb parse x stored f u w) ↔
      w.db.BodyUsable f u ∨ (∃ b, x.fetchBody parse f u = .ok b) ∨ x.Established u ∨
        w.db.NothingToLose f u := by
  by_cases husable : w.db.BodyUsable f u
  · rw [getMessageDb_of_usable husable]
    refine iff_of_true ⟨fun g v hsome hnone => ?_,fun _ _ _ => rfl⟩ (Or.inl husable)
    rw [hnone] at hsome
    simp at hsome
  rw [getMessageDb_of_not_usable husable]
  cases hfetch : x.fetchBody parse f u with
  | ok b =>
    refine iff_of_true ⟨fun g v hsome hnone => ?_,fun e he => ?_⟩ (Or.inr (Or.inl ⟨b,rfl⟩))
    · dsimp only at hnone
      rw [Db.message?_cacheMessageBody,Option.map_eq_none_iff] at hnone
      rw [hnone] at hsome
      simp at hsome
    · rw [hfetch] at he
      simp at he
  | error e =>
    dsimp only
    constructor
    · intro h
      by_cases hest : x.Established u
      · exact Or.inr (Or.inr (Or.inl hest))
      · exact Or.inr (Or.inr (Or.inr (dropped_eq_iff.mp (h.kept e hfetch hest))))
    · rintro (h | ⟨b,hb⟩ | hest | hlose)
      · exact absurd h husable
      · simp at hb
      · refine ⟨fun g v hsome hnone => ?_,fun _ _ hnot => absurd hest hnot⟩
        rw [Db.message?_invalidateFolderFreshness,Db.message?_deleteMessage] at hnone
        split at hnone
        · next hgv => exact ⟨hgv.1,hgv.2,hest⟩
        · rw [hnone] at hsome
          simp at hsome
      · rw [dropped_eq_iff.mpr hlose]
        refine ⟨fun g v hsome hnone => ?_,fun _ _ _ => rfl⟩
        rw [hnone] at hsome
        simp at hsome

/-- The exchange that gets no connection in time. -/
def timedOutExchange : BodyExchange := ⟨.tcpTimeout,none,none,[],false⟩

/-- A message is opened while the server does not answer: its row is dropped. -/
theorem timed_out_drops_row :
    timedOutExchange.fetchBody (fun _ _ => none) "INBOX" 1 =
        .error (.connectionFailed "Connection timed out - the server did not respond") ∧
      ¬DropsOnlyGone (fun _ _ => none) timedOutExchange "INBOX" 1 listedTwo.db
        (getMessageDb (fun _ _ => none) timedOutExchange ImapMessageBody.cached "INBOX" 1
          listedTwo) := by
  refine ⟨rfl,fun h => ?_⟩
  have hgone := (h.dropped "INBOX" 1 (by decide) (by decide)).2.2
  simp [BodyExchange.Established,timedOutExchange,Connecting.acquire] at hgone

end Rav
