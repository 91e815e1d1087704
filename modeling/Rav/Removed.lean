import Rav.Account
import Rav.Imap.Removal

/-!
# What a move or an expunge takes out of a folder

A move whose UID MOVE is refused, and an expunge whose UID EXPUNGE cannot be sent, end in a plain
EXPUNGE, which takes out every message that carries `\Deleted`, whoever has set it. Every other command
spares the messages that are not asked for.

## Main definitions

- `Removal` — the operations of the client, with `run`
- `Removal.OnlyRequested` — no other message of the folder is gone
- `Removal.fallsBack` — the operation comes to the plain EXPUNGE
- `SparesOthers` — effects on the folders that keep the messages not asked for
- `onlyRequested_iff` — when no other message is gone
-/

namespace Rav

/-- An operation that takes messages out of a folder. -/
inductive Removal
  | moveMessage (source : String) (uid : Nat) (target : String)
  | expungeMessage (folder : String) (uid : Nat)
  | moveMessageBulk (source : String) (uids : List Nat) (target : String)
  | expungeMessageBulk (folder : String) (uids : List Nat)
  deriving DecidableEq, Repr

namespace Removal

def source : Removal → String
  | .moveMessage f _ _ => f
  | .expungeMessage f _ => f
  | .moveMessageBulk f _ _ => f
  | .expungeMessageBulk f _ => f

def uids : Removal → List Nat
  | .moveMessage _ uid _ => [uid]
  | .expungeMessage _ uid => [uid]
  | .moveMessageBulk _ uids _ => uids
  | .expungeMessageBulk _ uids => uids

def run (w : RemovalWeather) : Removal → ImapTask Unit
  | .moveMessage f uid g => ImapClient.moveMessage w f uid g
  | .expungeMessage f uid => ImapClient.expungeMessage w f uid
  | .moveMessageBulk f uids g => ImapClient.moveMessageBulk w f uids g
  | .expungeMessageBulk f uids => ImapClient.expungeMessageBulk w f uids

/-- Of the messages in the folder, only requested ones are gone. -/
def OnlyRequested (r : Removal) (before after : String → Mailbox) : Prop :=
  ∀ uid ∈ (before r.source).uids, uid ∉ r.uids → uid ∈ (after r.source).uids

end Removal

namespace RemovalWeather

variable (w : RemovalWeather)

/-- There is a session, with the folder selected. -/
def selected : Bool := w.session.acquire.toOption.isSome && w.select.isNone

def stored : Bool := w.uidStore.sent.isNone && w.uidStore.read.isNone

/-- The UID MOVE is refused, and what comes before the EXPUNGE goes well. -/
def moveFallsBack : Bool :=
  w.selected && (w.uidMv.sent.any CommandError.refused && (w.uidCopy.sent.isNone && w.stored))

/-- The UID EXPUNGE cannot be sent. -/
def expungeFallsBack : Bool := w.selected && (w.stored && w.uidExpunge.sent.isSome)

end RemovalWeather

namespace Removal

/-- By the server's answers the operation comes to the plain EXPUNGE. -/
def fallsBack (w : RemovalWeather) : Removal → Bool
  | .moveMessage _ _ _ => w.moveFallsBack
  | .expungeMessage _ _ => w.expungeFallsBack
  | .moveMessageBulk _ uids _ => !uids.isEmpty && w.moveFallsBack
  | .expungeMessageBulk _ uids => !uids.isEmpty && w.expungeFallsBack

end Removal

/-! ### What the commands spare -/

/-- `f` stays in the folder and keeps every message of it that is not in `uids`. -/
def SparesOthers (uids : List Nat) (f : ImapView → ImapView) : Prop :=
  ∀ v, (f v).selected = v.selected ∧
    ∀ uid flags, uid ∉ uids → v.source.Holds uid flags → (f v).source.Holds uid flags

section SparesOthers

variable {uids : List Nat} {f g : ImapView → ImapView}

theorem spares_id : SparesOthers uids id := fun _ => ⟨rfl,fun _ _ _ h => h⟩

theorem SparesOthers.comp (hg : SparesOthers uids g) (hf : SparesOthers uids f) : SparesOthers uids (g ∘ f) :=
  fun v => ⟨(hg (f v)).1.trans (hf v).1,
    fun uid flags hu h => (hg (f v)).2 uid flags hu ((hf v).2 uid flags hu h)⟩

theorem spares_foldl {k : ImapView → Nat → ImapView} {us : List Nat}
    (hk : ∀ u ∈ us, SparesOthers uids (fun v => k v u)) : SparesOthers uids (fun v => us.foldl k v) := by
  induction us with
  | nil => exact spares_id
  | cons u us ih =>
    exact (ih (fun u hu => hk u (List.mem_cons_of_mem _ hu))).comp (hk u List.mem_cons_self)

/-- The messages asked for on which a command is carried out. -/
theorem spares_filter {k : ImapView → Nat → ImapView} (p : Nat → Bool)
    (hk : ∀ u ∈ uids, SparesOthers uids (fun v => k v u)) :
    SparesOthers uids (fun v => (uids.filter p).foldl k v) :=
  spares_foldl (fun u hu => hk u (List.mem_filter.mp hu).1)

/-- Only the selected folder is changed. -/
theorem spares_source {k : Mailbox → Mailbox}
    (hk : ∀ b uid flags, uid ∉ uids → b.Holds uid flags → (k b).Holds uid flags) :
    SparesOthers uids (fun v => v.setFolder v.selected (k v.source)) := by
  refine fun v => ⟨rfl,fun uid flags hu h => ?_⟩
  simp only [ImapView.source,ImapView.setFolder,Function.update_self]
  exact hk _ uid flags hu h

theorem Mailbox.Holds.deliver {b : Mailbox} {uid : Nat} {flags : List String} (h : b.Holds uid flags)
    (gap : Nat) (header : ImapMessageHeader) (body : ImapMessageBody) (serial : Nat)
    (hu : b.uidNext + gap + 1 < 2 ^ 32) : (b.deliver gap header body serial hu).Holds uid flags := by
  obtain ⟨m,hm,h⟩ := h
  exact ⟨m,List.mem_append_left _ hm,h⟩

theorem Mailbox.Holds.expunge {b b' : Mailbox} {uid v : Nat} {flags : List String}
    (h : b.Holds uid flags) (hb : b.apply (.expunge v) = some b') (hv : uid ≠ v) :
    b'.Holds uid flags := by
  have hb' : b.change (.expunge v) = b' := by rw [Mailbox.change,hb,Option.getD_some]
  rw [← hb']
  refine h.change (fun _ => Change.noConfusion) (fun he => hv ?_) (fun _ => Change.noConfusion)
  injection he with he
  exact he.symm

theorem spares_moveOne (target : String) {u : Nat} (hu : u ∈ uids) :
    SparesOthers uids (fun v => v.moveOne target u) := by
  intro v
  simp only [ImapView.moveOne]
  split
  · cases hb : v.source.moveWithin u with
    | none => exact spares_id v
    | some b =>
      refine ⟨rfl,fun uid flags huid h => ?_⟩
      simp only [ImapView.source,ImapView.setFolder,Function.update_self]
      unfold Mailbox.moveWithin at hb
      split at hb
      · exact Option.some.inj hb ▸ h
      · split at hb
        · simp at hb
        · next b₁ hb₁ =>
          have h₁ : b₁.Holds uid flags := h.expunge hb₁ (fun he => huid (he ▸ hu))
          split at hb
          · exact Option.some.inj hb ▸ h₁.deliver _ _ _ _ _
          · simp at hb
  · next hne =>
    cases hb : v.source.move (v.folders target) u with
    | none => exact spares_id v
    | some bs =>
      refine ⟨rfl,fun uid flags huid h => ?_⟩
      simp only [ImapView.source,ImapView.setFolder,
        Function.update_of_ne (Ne.symm hne),Function.update_self]
      unfold Mailbox.move at hb
      split at hb
      · exact Option.some.inj hb ▸ h
      · split at hb
        · next b₁ b₂ hb₁ _ =>
          rw [← Option.some.inj hb]
          exact h.expunge hb₁ (fun he => huid (he ▸ hu))
        · simp at hb

theorem spares_copyOne (target : String) (u : Nat) : SparesOthers uids (fun v => v.copyOne target u) := by
  intro v
  simp only [ImapView.copyOne]
  split
  · refine ⟨rfl,fun uid flags huid h => ?_⟩
    by_cases ht : v.selected = target
    · subst ht
      simp only [ImapView.source,ImapView.setFolder,Function.update_self]
      exact h.change (fun _ => Change.noConfusion) Change.noConfusion (fun _ => Change.noConfusion)
    · simp only [ImapView.source,ImapView.setFolder,Function.update_of_ne ht]
      exact h
  · exact spares_id v

theorem spares_storeOne {u : Nat} (hu : u ∈ uids) : SparesOthers uids (fun v => v.storeOne u) := by
  refine spares_source (k := fun b => b.addFlags u ["\\Deleted"]) (fun b uid flags huid h => ?_)
  obtain ⟨m,hm,rfl,hflags⟩ := h
  unfold Mailbox.addFlags
  split
  · exact ⟨m,hm,rfl,hflags⟩
  · have hne : m.uid ≠ u := fun he => huid (he ▸ hu)
    exact ⟨m,List.mem_map.mpr ⟨m,hm,if_neg hne⟩,rfl,hflags⟩

/-- A UID EXPUNGE takes out none but the messages it names. -/
theorem spares_uidExpunge (p : Nat → Bool) :
    SparesOthers uids (fun v => v.expungeAll (v.source.deleted.filter (fun u => p u && uids.contains u))) := by
  refine spares_source (k := fun b => b.expungeAll (b.deleted.filter (fun u => p u && uids.contains u)))
    (fun b uid flags huid h => h.expungeAll (fun hmem => huid ?_))
  obtain ⟨-,hp⟩ := List.mem_filter.mp hmem
  rw [Bool.and_eq_true,List.contains_iff_mem] at hp
  exact hp.2

end SparesOthers

/-! ### What the operations do -/

/-- The effect of the plain EXPUNGE. -/
def plainExpunge (w : RemovalWeather) (v : ImapView) : ImapView :=
  v.expungeAll (v.source.deleted.filter w.expunge.reaches)

/-- `task` spares the messages not asked for, but for a plain EXPUNGE at its end if `falls`. -/
def Ends {α : Type} (w : RemovalWeather) (falls : Bool) (uids : List Nat) (task : ImapTask α) : Prop :=
  ∀ v : ImapView, ∃ g, SparesOthers uids g ∧
    (task v).2 = if falls then plainExpunge w (g v) else g v

section Operations

variable {w : RemovalWeather} {falls : Bool} {folder : String} {uids : List Nat} {α β : Type}
  {f : ImapView → ImapView}

theorem ends_pure (a : α) : Ends w false uids (pure a : ImapTask α) :=
  fun _ => ⟨id,spares_id,rfl⟩

theorem ends_throw (e : ImapError) : Ends w false uids (throw e : ImapTask α) :=
  fun _ => ⟨id,spares_id,rfl⟩

theorem ends_command_error (hf : SparesOthers uids f) (e : ImapError) (k : α → ImapTask β) :
    Ends w false uids (ImapTask.command f (.error e) >>= k) :=
  fun _ => ⟨f,hf,rfl⟩

theorem Ends.command {k : α → ImapTask β} {a : α} (hf : SparesOthers uids f) (hk : Ends w falls uids (k a)) :
    Ends w falls uids (ImapTask.command f (.ok a) >>= k) := by
  intro v
  obtain ⟨g,hg,h⟩ := hk (f v)
  exact ⟨g ∘ f,hg.comp hf,h⟩

/-- A command whose failure ends the operation. -/
theorem Ends.failure {k : Unit → ImapTask β} (hf : SparesOthers uids f) (e e' : Option CommandError)
    (hk : Ends w falls uids (k ())) :
    Ends w (e.isNone && e'.isNone && falls) uids
      (ImapTask.command f (ImapClient.failure e e') >>= k) := by
  cases e with
  | some e => exact ends_command_error hf e.toImapError k
  | none =>
    cases e' with
    | some e' => exact ends_command_error hf e'.toImapError k
    | none => exact hk.command hf

theorem ends_plainExpunge : Ends w true uids (ImapClient.expunge w) := fun _ => ⟨id,spares_id,rfl⟩

/-- The messages asked for are marked. -/
theorem Ends.stored {k : Unit → ImapTask β} (hk : Ends w falls uids (k ())) :
    Ends w (w.stored && falls) uids (ImapClient.uidStoreDeleted w uids >>= k) :=
  hk.failure (spares_filter w.uidStore.reaches (fun _ hu => spares_storeOne hu)) _ _

theorem ends_copyAndExpunge (w : RemovalWeather) (uids : List Nat) (target : String) :
    Ends w (w.uidCopy.sent.isNone && w.stored) uids (ImapClient.copyAndExpunge w uids target) := by
  have h : Ends w (w.uidCopy.sent.isNone && (none : Option CommandError).isNone && (w.stored && true))
      uids (ImapClient.copyAndExpunge w uids target) :=
    Ends.failure (spares_filter w.uidCopy.reaches (fun u _ => spares_copyOne target u)) _ _
      (Ends.stored (k := fun _ => ImapClient.expunge w) ends_plainExpunge)
  simpa only [Option.isNone_none,Bool.and_true] using h

/-- The session is had and the folder selected first; where that fails nothing is done. -/
theorem exists_opened {k : ImapTask Unit} (hk : Ends w falls uids k) (folder : String) (v : ImapView) :
    ∃ g, SparesOthers uids g ∧ ((do ImapClient.acquire w; ImapClient.select w folder; k : ImapTask Unit) v).2.folders =
      (if w.selected && falls then plainExpunge w (g ⟨v.folders,folder⟩)
        else g ⟨v.folders,folder⟩).folders := by
  cases hs : w.session.acquire with
  | error e =>
    refine ⟨id,spares_id,?_⟩
    simp only [RemovalWeather.selected,hs,ImapClient.acquire]
    rfl
  | ok a =>
    cases hsel : w.select with
    | some e =>
      refine ⟨id,spares_id,?_⟩
      simp only [RemovalWeather.selected,hs,ImapClient.acquire,ImapClient.select,hsel]
      rfl
    | none =>
      obtain ⟨g,hg,h⟩ := hk ⟨v.folders,folder⟩
      refine ⟨g,hg,?_⟩
      simp only [RemovalWeather.selected,hs,ImapClient.acquire,ImapClient.select,hsel]
      exact congrArg ImapView.folders h

theorem ends_move (w : RemovalWeather) (uids : List Nat) (target : String) :
    Ends w (w.uidMv.sent.any CommandError.refused && (w.uidCopy.sent.isNone && w.stored)) uids
      (ImapClient.uidMv w uids target >>= fun r => match r with
        | none => pure ()
        | some e => if e.refused then ImapClient.copyAndExpunge w uids target else throw e.toImapError) := by
  refine Ends.command (spares_filter _ (fun u hu => spares_moveOne target hu)) ?_
  cases w.uidMv.sent with
  | none => exact ends_pure ()
  | some e =>
    change Ends w (e.refused && _) uids (if e.refused then _ else _)
    cases e.refused with
    | false => exact ends_throw e.toImapError
    | true => exact ends_copyAndExpunge w uids target

theorem ends_expunge (w : RemovalWeather) (uids : List Nat) :
    Ends w (w.stored && w.uidExpunge.sent.isSome) uids
      (ImapClient.uidStoreDeleted w uids >>= fun _ => ImapClient.uidExpunge w uids >>= fun ok =>
        if !ok then ImapClient.expunge w else pure ()) := by
  refine Ends.stored ?_
  have hf := @spares_uidExpunge uids (fun u => w.uidplus && w.uidExpunge.reaches u)
  unfold ImapClient.uidExpunge
  cases w.uidExpunge.sent with
  | some e => exact Ends.command hf ends_plainExpunge
  | none =>
    cases w.uidExpunge.read with
    | some e => exact ends_command_error hf e.toImapError _
    | none => exact Ends.command hf (ends_pure ())

theorem exists_moveUids (w : RemovalWeather) (source : String) (uids : List Nat) (target : String)
    (v : ImapView) : ∃ g, SparesOthers uids g ∧ ((ImapClient.moveUids w source uids target) v).2.folders =
      (if w.moveFallsBack then plainExpunge w (g ⟨v.folders,source⟩) else g ⟨v.folders,source⟩).folders :=
  exists_opened (ends_move w uids target) source v

theorem exists_expungeUids (w : RemovalWeather) (folder : String) (uids : List Nat)
    (v : ImapView) : ∃ g, SparesOthers uids g ∧ ((ImapClient.expungeUids w folder uids) v).2.folders =
      (if w.expungeFallsBack then plainExpunge w (g ⟨v.folders,folder⟩) else g ⟨v.folders,folder⟩).folders :=
  exists_opened (ends_expunge w uids) folder v

theorem Removal.exists_run (w : RemovalWeather) (r : Removal) (v : ImapView) :
    ∃ g, SparesOthers r.uids g ∧ (r.run w v).2.folders =
      (if r.fallsBack w then plainExpunge w (g ⟨v.folders,r.source⟩)
        else g ⟨v.folders,r.source⟩).folders := by
  cases r with
  | moveMessage f uid target => exact exists_moveUids w f [uid] target v
  | expungeMessage f uid => exact exists_expungeUids w f [uid] v
  | moveMessageBulk f uids target =>
    cases uids with
    | nil => exact ⟨id,spares_id,rfl⟩
    | cons u us => exact exists_moveUids w f (u :: us) target v
  | expungeMessageBulk f uids =>
    cases uids with
    | nil => exact ⟨id,spares_id,rfl⟩
    | cons u us => exact exists_expungeUids w f (u :: us) v

end Operations

/-! ### The frame -/

/-- Whatever the server can do and however its commands fare, an operation takes none but the messages
asked for out of the folder if and only if it does not come to the plain EXPUNGE, or that reaches no
other message that carries `\Deleted`. -/
theorem onlyRequested_iff (w : RemovalWeather) (v : ImapView) (r : Removal) :
    r.OnlyRequested v.folders (r.run w v).2.folders ↔
      (r.fallsBack w = true → ∀ uid ∈ (v.folders r.source).deleted, uid ∉ r.uids →
        w.expunge.reaches uid = false) := by
  obtain ⟨g,hg,hrun⟩ := r.exists_run w v
  obtain ⟨hsel,hkeep⟩ := hg ⟨v.folders,r.source⟩
  have hsource : (g ⟨v.folders,r.source⟩).source = (g ⟨v.folders,r.source⟩).folders r.source :=
    congrArg _ hsel
  rw [Removal.OnlyRequested,hrun]
  cases r.fallsBack w with
  | false =>
    refine ⟨fun _ h => absurd h Bool.false_ne_true,fun _ uid huid hu => ?_⟩
    obtain ⟨flags,h⟩ := Mailbox.exists_holds.mpr huid
    exact hsource ▸ (hkeep uid flags hu h).mem_uids
  | true =>
    have hexpunge : (plainExpunge w (g ⟨v.folders,r.source⟩)).folders r.source =
        (g ⟨v.folders,r.source⟩).source.expungeAll
          ((g ⟨v.folders,r.source⟩).source.deleted.filter w.expunge.reaches) := by
      simp only [plainExpunge,ImapView.expungeAll,ImapView.setFolder,hsel,Function.update_self]
    rw [if_pos rfl,hexpunge]
    constructor
    · intro h _ uid hdel hu
      obtain ⟨m,hm,rfl⟩ := List.mem_map.mp hdel
      obtain ⟨hm,hflag⟩ := List.mem_filter.mp hm
      have hholds := hkeep m.uid m.header.flags hu ⟨m,hm,rfl,rfl⟩
      have hnot := (Mailbox.mem_uids_expungeAll _).mp (h m.uid (Mailbox.mem_uids.mpr ⟨m,hm,rfl⟩) hu)
      by_contra hreach
      rw [Bool.not_eq_false] at hreach
      exact hnot.2 (List.mem_filter.mpr ⟨hholds.mem_deleted.mpr (of_decide_eq_true hflag),hreach⟩)
    · intro h uid huid hu
      obtain ⟨flags,hbefore⟩ := Mailbox.exists_holds.mpr huid
      have hholds := hkeep uid flags hu hbefore
      refine (Mailbox.mem_uids_expungeAll _).mpr ⟨hholds.mem_uids,fun hmem => ?_⟩
      obtain ⟨hdel,hreach⟩ := List.mem_filter.mp hmem
      rw [h rfl uid (hbefore.mem_deleted.mpr (hholds.mem_deleted.mp hdel)) hu] at hreach
      exact Bool.false_ne_true hreach

/-- A message, and another that some other client has marked. -/
def markedSecond : Mailbox :=
  ((Mailbox.fresh 1 Nat.one_pos true false).change (.deliver 0 plainHeader plainBody)).change
    (.deliver 0 { plainHeader with flags := ["\\Deleted"] } plainBody)

/-- All goes well, with a server that has UIDPLUS and not MOVE. -/
def withoutMove : RemovalWeather :=
  let well : CommandWeather := ⟨fun _ => true,none,none⟩
  ⟨false,true,.fresh,none,⟨fun _ => true,some (.bad "unknown command"),none⟩,well,well,well,well⟩

/-- The move of a message takes another one out of the folder. -/
theorem marked_message_lost :
    2 ∈ markedSecond.uids ∧
      ¬(Removal.moveMessage "INBOX" 1 "Archive").OnlyRequested (fun _ => markedSecond)
        ((Removal.moveMessage "INBOX" 1 "Archive").run withoutMove ⟨fun _ => markedSecond,""⟩).2.folders := by
  refine ⟨by decide,fun h => ?_⟩
  exact absurd (h 2 (by decide) (by decide)) (by decide)

end Rav
