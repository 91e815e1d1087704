import Rav.Realtime.Task

/-!
# The commands behind the client's calls

Each call of the client opens a folder and sends a command or two. Of these a `FETCH` can change a
flag by itself: `BODY[..]` marks what it fetches as read, `BODY.PEEK[..]` does not.

## Main definitions

- `FetchItem`, `ImapCommand`, `ImapCall.commands` — what the client sends
- `Mailbox.markSeen`, `marked` — what fetching does to flags
- `ImapCall.peeks_iff` — the one call that marks
-/

namespace Rav

/-- A data item of a `FETCH`. -/
inductive FetchItem
  | uid
  | envelope
  | internalDate
  | flags
  | bodyStructure
  | rfc822Size
  | body (part : String)
  | bodyPeek (part : String)
  deriving DecidableEq, Repr

def FetchItem.marks : FetchItem → Bool
  | .body _ => true
  | _ => false

inductive ImapCommand
  | select (folder : String)
  | selectCondstore (folder : String)
  | enableQresync
  | selectQresync (folder : String) (uidValidity modseq : Nat)
  | status (folder : String) (items : List String)
  | uidFetch (uids : UidSet) (items : List FetchItem) (changedSince : Option Nat)
  | uidStore (uid : Nat) (flags : List String)
  | uidMove (uid : Nat) (target : String)
  deriving DecidableEq, Repr

def ImapCommand.marks : ImapCommand → Bool
  | .uidFetch _ items _ => items.any FetchItem.marks
  | _ => false

def headerFetchItems : List FetchItem :=
  [.uid,.envelope,.internalDate,.flags,.bodyStructure,.rfc822Size,
    .bodyPeek ("HEADER.FIELDS (Message-ID In-Reply-To References Content-Class " ++
      "x-ms-exchange-generated-message-class)")]

/-- What the client sends for a call when the server takes every command. `fetchChangedFlags` sends
the second half only where the QRESYNC round trip failed. -/
def ImapCall.commands : ImapCall → List ImapCommand
  | .folderStatus f => [.select f]
  | .folderStatusExtended f =>
    [.status f ["MESSAGES","UIDNEXT","UIDVALIDITY","UNSEEN","HIGHESTMODSEQ"]]
  | .fetchChangedFlags f m v =>
    (if 0 < v ∧ 0 < m then [.enableQresync,.selectQresync f v m] else []) ++
      [.selectCondstore f,.uidFetch (.fromOn 1) [.uid,.flags] (some m)]
  | .fetchUidsAndFlags f => [.select f,.uidFetch (.fromOn 1) [.uid,.flags] none]
  | .fetchHeaders f set => [.select f,.uidFetch set headerFetchItems none]
  | .fetchBody f uid => [.select f,.uidFetch (.upTo uid uid) [.uid,.body ""] none]
  | .addFlags f uid flags => [.select f,.uidStore uid flags]
  | .moveMessage f uid target => [.select f,.uidMove uid target]

/-- The commands of `fetch_raw_bytes`, which the assistant reads messages with. -/
def rawBytesCommands (f : String) (uid : Nat) : List ImapCommand :=
  [.select f,.uidFetch (.upTo uid uid) [.bodyPeek ""] none]

/-! ### Marking as read -/

namespace Mailbox

variable (b : Mailbox)

/-- The message, if there is one, is marked as read. -/
def Lit (uid : Nat) : Prop := ∀ m ∈ b.messages, m.uid = uid → "\\Seen" ∈ m.header.flags

instance (uid : Nat) : Decidable (b.Lit uid) := inferInstanceAs (Decidable (∀ m ∈ b.messages, _))

/-- Mark a message as read. -/
def markSeen (uid : Nat) : Mailbox := if b.Lit uid then b else b.addFlags uid ["\\Seen"]

/-- The messages a `UID FETCH` is for. -/
def selection (set : UidSet) (changedSince : Option Nat) : List Message :=
  b.messages.filter (fun m => b.inUidSet m.uid set && (changedSince.getD 0 < m.modseq || changedSince.isNone))

/-- What a `UID FETCH` leaves. -/
def fetch (set : UidSet) (items : List FetchItem) (changedSince : Option Nat) : Mailbox :=
  if items.any FetchItem.marks then
    ((b.selection set changedSince).map Message.uid).foldl markSeen b
  else b

variable {b : Mailbox} {u v : Nat}

theorem markSeen_of_lit (h : b.Lit u) : b.markSeen u = b := if_pos h

theorem exists_of_not_lit (h : ¬b.Lit u) : ∃ m ∈ b.messages, m.uid = u ∧ "\\Seen" ∉ m.header.flags := by
  simpa [Lit] using h

/-- The message's flags are what they were and `\Seen`. -/
theorem messages_markSeen (h : ¬b.Lit u) : (b.markSeen u).messages = b.messages.map (fun m =>
    if m.uid = u then Message.withFlags m (m.header.flags ++ ["\\Seen"]) (b.highestModseq + 1)
    else m) := by
  obtain ⟨m,hm,hu,hs⟩ := exists_of_not_lit h
  obtain ⟨m',hfind⟩ : ∃ m', b.messages.find? (fun m => m.uid = u) = some m' := by
    refine Option.isSome_iff_exists.mp (List.find?_isSome.mpr ⟨m,hm,?_⟩)
    simpa using hu
  have hu' : m'.uid = u := by simpa using List.find?_some hfind
  obtain rfl := eq_of_uid (List.mem_of_find?_eq_some hfind) hm (hu'.trans hu.symm)
  rw [markSeen,if_neg h,addFlags,hfind]
  show b.messages.map _ = _
  refine List.map_congr_left (fun n hn => ?_)
  by_cases hnu : n.uid = u
  · obtain rfl := eq_of_uid hn hm (hnu.trans hu.symm)
    simp [hnu,hs]
  · simp [hnu]

theorem lit_markSeen : (b.markSeen u).Lit u := by
  by_cases h : b.Lit u
  · rw [markSeen_of_lit h]
    exact h
  · intro m hm hu
    rw [messages_markSeen h] at hm
    obtain ⟨n,-,rfl⟩ := List.mem_map.mp hm
    split at hu
    · next hn => simp [hn,Message.withFlags]
    · next hn => exact absurd hu hn

/-- Nothing that is marked as read is unmarked. -/
theorem Lit.markSeen (hv : b.Lit v) : (b.markSeen u).Lit v := by
  by_cases h : b.Lit u
  · rw [markSeen_of_lit h]
    exact hv
  · intro m hm hmv
    rw [messages_markSeen h] at hm
    obtain ⟨n,hn,rfl⟩ := List.mem_map.mp hm
    split at hmv
    · next hnu => simp [hnu,Message.withFlags]
    · next hnu =>
      rw [if_neg hnu]
      exact hv n hn hmv

/-- Whether a message is marked shows in what the server tells about flags. -/
theorem lit_iff : b.Lit u ↔ ∀ p ∈ b.uidsAndFlags, p.1 = u → "\\Seen" ∈ p.2 := by
  constructor
  · rintro h p hp hu
    obtain ⟨m,hm,rfl⟩ := List.mem_map.mp hp
    exact h m hm hu
  · intro h m hm hu
    exact h _ (List.mem_map.mpr ⟨m,hm,rfl⟩) hu

/-- A UID selects the message of that UID. -/
theorem selection_single : (b.selection (.upTo u u) none).map Message.uid = [u] ∨
    ((b.selection (.upTo u u) none).map Message.uid = [] ∧ ∀ m ∈ b.messages, m.uid ≠ u) := by
  have hmem : ∀ m, m ∈ b.selection (.upTo u u) none ↔ m ∈ b.messages ∧ m.uid = u := by
    intro m
    simp only [selection,inUidSet,List.mem_filter,Nat.min_self,Nat.max_self,Bool.and_eq_true,
      decide_eq_true_eq,Option.isNone_none,Bool.or_true,and_true]
    exact and_congr_right (fun _ => ⟨fun h => by omega,fun h => by omega⟩)
  have hnd : ((b.selection (.upTo u u) none).map Message.uid).Nodup :=
    b.uid_nodup.sublist (List.filter_sublist.map _)
  have hall : ∀ v ∈ (b.selection (.upTo u u) none).map Message.uid, v = u := by
    intro v hv
    obtain ⟨m,hm,rfl⟩ := List.mem_map.mp hv
    exact ((hmem m).mp hm).2
  rcases hl : (b.selection (.upTo u u) none).map Message.uid with _ | ⟨v,vs⟩
  · refine Or.inr ⟨rfl,fun m hm hu => ?_⟩
    have hin := List.mem_map_of_mem (f := Message.uid) ((hmem m).mpr ⟨hm,hu⟩)
    rw [hl] at hin
    exact List.not_mem_nil hin
  · rw [hl] at hnd hall
    obtain rfl := hall v List.mem_cons_self
    rcases vs with _ | ⟨v',vs⟩
    · exact Or.inl rfl
    · obtain rfl := hall v' (List.mem_cons_of_mem _ List.mem_cons_self)
      exact absurd List.mem_cons_self (List.nodup_cons.mp hnd).1

/-- Fetching one message's body marks that message. -/
theorem fetch_single {items : List FetchItem} (hitems : items.any FetchItem.marks = true) :
    b.fetch (.upTo u u) items none = b.markSeen u := by
  rw [fetch,if_pos hitems]
  rcases selection_single (b := b) (u := u) with hsel | ⟨hsel,hnone⟩
  · rw [hsel]
    rfl
  · rw [hsel,markSeen_of_lit (fun m hm hu => absurd hu (hnone m hm))]
    rfl

theorem fetch_peeking {set : UidSet} {items : List FetchItem} {k : Option Nat}
    (hitems : items.any FetchItem.marks = false) : b.fetch set items k = b := by
  rw [fetch,hitems]
  rfl

end Mailbox

/-! ### An exchange -/

/-- One command: the folder that is open, and the mailboxes. Stores and moves are left to
`World.reply`. -/
def ImapCommand.act : ImapCommand → Option String × (String → Mailbox) →
    Option String × (String → Mailbox)
  | .select f, (_,s) => (some f,s)
  | .selectCondstore f, (_,s) => (some f,s)
  | .selectQresync f _ _, (_,s) => (some f,s)
  | .uidFetch set items k, (some f,s) => (some f,Function.update s f ((s f).fetch set items k))
  | _, p => p

/-- The mailboxes after a client's commands. -/
def marked (cs : List ImapCommand) (s : String → Mailbox) : String → Mailbox :=
  (cs.foldl (fun p c => c.act p) (none,s)).2

theorem ImapCommand.act_peeking {c : ImapCommand} (h : c.marks = false)
    (p : Option String × (String → Mailbox)) : (c.act p).2 = p.2 := by
  obtain ⟨open_,s⟩ := p
  cases c with
  | uidFetch set items k =>
    cases open_ with
    | none => rfl
    | some f =>
      show Function.update s f ((s f).fetch set items k) = s
      rw [Mailbox.fetch_peeking h,Function.update_eq_self]
  | _ => rfl

/-- Commands that only peek leave the mailboxes as they are. -/
theorem marked_peeking {cs : List ImapCommand} (h : ∀ c ∈ cs, c.marks = false) (s : String → Mailbox) :
    marked cs s = s := by
  have hfold : ∀ (cs : List ImapCommand) (p : Option String × (String → Mailbox)),
      (∀ c ∈ cs, c.marks = false) → (cs.foldl (fun p c => c.act p) p).2 = p.2 := by
    intro cs
    induction cs with
    | nil => exact fun _ _ => rfl
    | cons c cs ih =>
      intro p h
      rw [List.foldl_cons,ih _ (fun d hd => h d (List.mem_cons_of_mem _ hd)),
        ImapCommand.act_peeking (h c List.mem_cons_self)]
  exact hfold cs (none,s) h

/-- The assistant reads a message without marking it. -/
theorem marked_rawBytesCommands (f : String) (u : Nat) (s : String → Mailbox) :
    marked (rawBytesCommands f u) s = s :=
  marked_peeking (by simp [rawBytesCommands,ImapCommand.marks,FetchItem.marks]) s

/-- The call sends nothing that marks a message as read. -/
def ImapCall.Peeks (q : ImapCall) : Prop := ∀ c ∈ q.commands, c.marks = false

/-- Of the client's calls only `fetchBody` does. -/
theorem ImapCall.peeks_iff (q : ImapCall) : q.Peeks ↔ ∀ f u, q ≠ .fetchBody f u := by
  cases q with
  | fetchBody f u => simp [Peeks,commands,ImapCommand.marks,FetchItem.marks]
  | fetchChangedFlags f m v =>
    simp only [Peeks,commands]
    split <;> simp [ImapCommand.marks,FetchItem.marks]
  | _ => simp [Peeks,commands,headerFetchItems,ImapCommand.marks,FetchItem.marks]

theorem marked_fetchBody (f : String) (u : Nat) (s : String → Mailbox) :
    marked (ImapCall.fetchBody f u).commands s = Function.update s f ((s f).markSeen u) := by
  show Function.update s f ((s f).fetch (.upTo u u) [.uid,.body ""] none) = _
  rw [Mailbox.fetch_single rfl]

end Rav
