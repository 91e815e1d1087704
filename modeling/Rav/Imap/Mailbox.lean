import Rav.Imap.Types
import Mathlib.Data.List.Range
import Mathlib.Algebra.Group.Nat.Defs
import Mathlib.Data.Finset.Card
import Mathlib.Data.Finset.Dedup
import Mathlib.Data.List.Nodup

/-!
# The server's mailbox

One folder on the server: its messages, the counters `STATUS` reports, what has been expunged,
and how the server answers the client. UIDs are assigned in ascending order below `uidNext`
and never reused while `uidValidity` stands; every delivery, expunge and flag change takes the
next modification sequence. Before it the ranges of a `VANISHED` response, their expansion into UIDs, and
the QRESYNC round trip that collects what changed and what vanished.

## Main definitions

- `expandRanges` — flatten ranges into UIDs, refusing an implausible span
- `tryQresync` — the answer read off one QRESYNC round trip, if it completes
- `vanishedLists` — the range lists of the `VANISHED` responses of a round trip
- `Mailbox` — a folder on the server, with what IMAP promises about it
- `Mailbox.deliver`, `expunge`, `storeFlags` — its changes
- `Mailbox.statusExtended`, `changedFlags`, `uidsAndFlags`, `headers`, `body` — its answers
-/

namespace Rav

/-- A range of UIDs as the server wrote it. -/
structure UidRange where
  start : Nat
  stop : Nat
  deriving DecidableEq, Repr

/-- The UIDs a range stands for: its end points may come in either order. -/
def UidRange.Names (r : UidRange) (uid : Nat) : Prop :=
  r.start ≤ uid ∧ uid ≤ r.stop ∨ r.stop ≤ uid ∧ uid ≤ r.start

instance (r : UidRange) (uid : Nat) : Decidable (r.Names uid) := by
  unfold UidRange.Names; infer_instance

def UidRange.span (r : UidRange) : Nat := r.stop - r.start + 1

/-- What iterating over `start..=stop` yields: nothing where `stop < start`. -/
def UidRange.iter (r : UidRange) : List Nat := List.range' r.start (r.stop + 1 - r.start)

@[simp] theorem UidRange.mem_iter {r : UidRange} {uid : Nat} :
    uid ∈ r.iter ↔ r.start ≤ uid ∧ uid ≤ r.stop := by
  simp only [iter,List.mem_range'_1]
  omega

def maxRangeSpan : Nat := 100000

/-- Flatten ranges into UIDs after those in `out`; one oversized range drops them all. -/
def expandRangesFrom (out : List Nat) : List UidRange → List Nat
  | [] => out
  | r :: rs => if maxRangeSpan < r.span then [] else expandRangesFrom (out ++ r.iter) rs

def expandRanges (ranges : List UidRange) : List Nat := expandRangesFrom [] ranges

/-- Every range of the list is small enough to be expanded. -/
def Expandable (ranges : List UidRange) : Prop := ∀ r ∈ ranges, r.span ≤ maxRangeSpan

instance (ranges : List UidRange) : Decidable (Expandable ranges) := by
  unfold Expandable; infer_instance

private theorem expandRangesFrom_eq (out : List Nat) (ranges : List UidRange) :
    expandRangesFrom out ranges =
      if Expandable ranges then out ++ ranges.flatMap UidRange.iter else [] := by
  induction ranges generalizing out with
  | nil => simp [expandRangesFrom,Expandable]
  | cons r rs ih =>
    rw [expandRangesFrom,ih]
    by_cases hr : maxRangeSpan < r.span
    · have hn : ¬Expandable (r :: rs) := fun h => absurd (h r (by simp)) (by omega)
      rw [if_pos hr,if_neg hn]
    · have hiff : Expandable (r :: rs) ↔ Expandable rs := by
        simp only [Expandable,List.forall_mem_cons]
        exact and_iff_right (by omega)
      rw [if_neg hr]
      simp only [hiff,List.flatMap_cons,List.append_assoc]

theorem mem_expandRanges {ranges : List UidRange} {uid : Nat} :
    uid ∈ expandRanges ranges ↔
      Expandable ranges ∧ ∃ r ∈ ranges, r.start ≤ uid ∧ uid ≤ r.stop := by
  rw [expandRanges,expandRangesFrom_eq]
  by_cases h : Expandable ranges <;> simp [h]

inductive FetchAttr
  | uid (n : Nat)
  | flags (fs : List String)
  | modSeq (n : Nat)
  | other
  deriving DecidableEq, Repr

/-- The responses a round trip reads; `done` is tagged with the request's own tag or not. -/
inductive Response
  | vanished (uids : List UidRange)
  | fetch (attrs : List FetchAttr)
  | done (own ok : Bool)
  | other
  deriving DecidableEq, Repr

/-- One QRESYNC exchange as the server plays it: whether `ENABLE QRESYNC` is accepted, whether
the `SELECT` can be sent, and the responses that arrive before the stream ends or stalls. -/
structure QresyncExchange where
  enable : Bool
  select : Bool
  responses : List Response
  deriving DecidableEq, Repr

/-- What the read loop has gathered. -/
structure QresyncState where
  changed : List (Nat × List String)
  vanished : List Nat
  highestModseq : Nat
  deriving DecidableEq, Repr

/-- What one `FETCH` response has shown so far. -/
structure FetchState where
  uid : Option Nat
  flags : List String
  highestModseq : Nat

def readAttr (s : FetchState) : FetchAttr → FetchState
  | .uid u => { s with uid := some u }
  | .flags f => { s with flags := f }
  | .modSeq m => { s with highestModseq := max s.highestModseq m }
  | .other => s

def readFetch (s : QresyncState) (attrs : List FetchAttr) : QresyncState :=
  let f := attrs.foldl readAttr ⟨none,[],s.highestModseq⟩
  match f.uid with
  | some uid => { s with changed := s.changed ++ [(uid,f.flags)], highestModseq := f.highestModseq }
  | none => { s with highestModseq := f.highestModseq }

/-- The read loop: `none` when the stream ends first or the server refuses. -/
def readResponses (s : QresyncState) : List Response → Option QresyncState
  | [] => none
  | .vanished uids :: rs => readResponses { s with vanished := s.vanished ++ expandRanges uids } rs
  | .fetch attrs :: rs => readResponses (readFetch s attrs) rs
  | .done own ok :: rs => if own then (if ok then some s else none) else readResponses s rs
  | .other :: rs => readResponses s rs

def tryQresync (x : QresyncExchange) : Option ChangedFlags :=
  if x.enable && x.select then
    (readResponses ⟨[],[],0⟩ x.responses).map
      (fun s => ⟨s.changed,some s.vanished,s.highestModseq⟩)
  else none

/-- The range lists of the `VANISHED` responses read before the tagged completion. -/
def vanishedLists : List Response → List (List UidRange)
  | [] => []
  | .vanished uids :: rs => uids :: vanishedLists rs
  | .done own _ :: rs => if own then [] else vanishedLists rs
  | .fetch _ :: rs => vanishedLists rs
  | .other :: rs => vanishedLists rs

@[simp] theorem readFetch_vanished (s : QresyncState) (attrs : List FetchAttr) :
    (readFetch s attrs).vanished = s.vanished := by
  unfold readFetch
  dsimp only
  split <;> rfl

/-- A completed read has gathered the expansion of each list, one after the other. -/
theorem readResponses_vanished {s t : QresyncState} {rs : List Response}
    (h : readResponses s rs = some t) :
    t.vanished = s.vanished ++ (vanishedLists rs).flatMap expandRanges := by
  induction rs generalizing s with
  | nil => simp [readResponses] at h
  | cons r rs ih =>
    cases r with
    | vanished uids => simpa [vanishedLists] using ih h
    | fetch attrs => simpa [vanishedLists] using ih h
    | other => simpa [vanishedLists] using ih h
    | done own ok =>
      cases own with
      | false => simpa [vanishedLists] using ih h
      | true =>
        cases ok with
        | false => simp [readResponses] at h
        | true =>
          simp only [readResponses,if_true,Option.some.injEq] at h
          simp [vanishedLists,h]

/-- What a completed round trip reports as vanished: the UIDs of ascending ranges in responses
all of whose ranges can be expanded. -/
theorem tryQresync_vanished {x : QresyncExchange} {c : ChangedFlags} (h : tryQresync x = some c) :
    ∃ vs, c.vanished = some vs ∧ ∀ uid, uid ∈ vs ↔
      ∃ ranges ∈ vanishedLists x.responses, Expandable ranges ∧
        ∃ r ∈ ranges, r.start ≤ uid ∧ uid ≤ r.stop := by
  unfold tryQresync at h
  split at h
  · obtain ⟨s,hs,rfl⟩ := Option.map_eq_some_iff.mp h
    refine ⟨s.vanished,rfl,fun uid => ?_⟩
    rw [readResponses_vanished hs]
    simp [mem_expandRanges]
  · simp at h

end Rav

namespace Rav

/-- A message on the server; `born` is the modification sequence of its delivery. -/
structure Message where
  header : ImapMessageHeader
  body : ImapMessageBody
  serial : Nat
  born : Nat
  modseq : Nat

def Message.uid (m : Message) : Nat := m.header.uid

/-- A folder on the server. -/
structure Mailbox where
  uidValidity : Nat
  uidNext : Nat
  highestModseq : Nat
  condstore : Bool
  qresync : Bool
  nextSerial : Nat
  messages : List Message
  /-- UIDs removed so far, with the modification sequence of their removal. -/
  expunged : List (Nat × Nat)
  /-- How the server spreads UIDs over the ranges of `VANISHED` responses. -/
  names : List Nat → List (List UidRange)
  uidValidity_pos : 0 < uidValidity
  modseq_pos : 0 < highestModseq
  uidNext_pos : 0 < uidNext
  uidNext_lt : uidNext < 2 ^ 32
  uid_bounds : ∀ m ∈ messages, 0 < m.uid ∧ m.uid < uidNext
  uid_nodup : (messages.map Message.uid).Nodup
  serial_lt : ∀ m ∈ messages, m.serial < nextSerial
  modseq_le : ∀ m ∈ messages, m.born ≤ m.modseq ∧ m.modseq ≤ highestModseq
  expunged_le : ∀ e ∈ expunged, e.1 < uidNext ∧ e.2 ≤ highestModseq
  expunged_gone : ∀ e ∈ expunged, ∀ m ∈ messages, m.uid ≠ e.1
  names_exact : ∀ us uid, (∃ rs ∈ names us, ∃ r ∈ rs, r.Names uid) ↔ uid ∈ us

namespace Mailbox

variable (b : Mailbox)

def uids : Finset Nat := (b.messages.map Message.uid).toFinset

@[simp] theorem mem_uids {b : Mailbox} {uid : Nat} :
    uid ∈ b.uids ↔ ∃ m ∈ b.messages, m.uid = uid := by
  simp [uids]

theorem card_uids : b.uids.card = b.messages.length := by
  rw [uids,List.toFinset_card_of_nodup b.uid_nodup,List.length_map]

theorem lt_uidNext {b : Mailbox} {uid : Nat} (h : uid ∈ b.uids) : uid < b.uidNext := by
  obtain ⟨m,hm,rfl⟩ := mem_uids.mp h
  exact (b.uid_bounds m hm).2

theorem pos_of_mem_uids {b : Mailbox} {uid : Nat} (h : uid ∈ b.uids) : 0 < uid := by
  obtain ⟨m,hm,rfl⟩ := mem_uids.mp h
  exact (b.uid_bounds m hm).1

/-- A UID names one message. -/
theorem eq_of_uid {b : Mailbox} {m n : Message} (hm : m ∈ b.messages) (hn : n ∈ b.messages)
    (h : m.uid = n.uid) : m = n :=
  List.inj_on_of_nodup_map b.uid_nodup hm hn h

/-! ### Changes -/

/-- The server names each removed UID by itself. -/
def singletonNames (us : List Nat) : List (List UidRange) := [us.map (fun u => ⟨u,u⟩)]

theorem singletonNames_exact (us : List Nat) (uid : Nat) :
    (∃ rs ∈ singletonNames us, ∃ r ∈ rs, r.Names uid) ↔ uid ∈ us := by
  simp only [singletonNames,List.mem_singleton,exists_eq_left,List.mem_map,UidRange.Names]
  constructor
  · rintro ⟨r,⟨u,hu,rfl⟩,h⟩
    dsimp only at h
    obtain rfl : u = uid := by omega
    exact hu
  · intro h
    exact ⟨_,⟨uid,h,rfl⟩,Or.inl ⟨Nat.le_refl _,Nat.le_refl _⟩⟩

/-- A mailbox nothing has been delivered to. -/
def fresh (uidValidity : Nat) (h : 0 < uidValidity) (condstore qresync : Bool) : Mailbox where
  uidValidity := uidValidity
  uidNext := 1
  highestModseq := 1
  condstore := condstore
  qresync := qresync
  nextSerial := 0
  messages := []
  expunged := []
  names := singletonNames
  uidValidity_pos := h
  modseq_pos := by decide
  uidNext_pos := by decide
  uidNext_lt := by decide
  uid_bounds := by simp
  uid_nodup := by simp
  serial_lt := by simp
  modseq_le := by simp
  expunged_le := by simp
  expunged_gone := by simp
  names_exact := singletonNames_exact

/-- The message a delivery adds; the server may skip `gap` UIDs. -/
def delivered (gap : Nat) (header : ImapMessageHeader) (body : ImapMessageBody) (serial : Nat) :
    Message where
  header := { header with uid := b.uidNext + gap }
  body := { body with uid := b.uidNext + gap }
  serial := serial
  born := b.highestModseq + 1
  modseq := b.highestModseq + 1

def deliver (gap : Nat) (header : ImapMessageHeader) (body : ImapMessageBody) (serial : Nat)
    (hu : b.uidNext + gap + 1 < 2 ^ 32) : Mailbox :=
  { b with
    uidNext := b.uidNext + gap + 1
    highestModseq := b.highestModseq + 1
    nextSerial := max b.nextSerial (serial + 1)
    messages := b.messages ++ [b.delivered gap header body serial]
    modseq_pos := Nat.succ_pos _
    uidNext_pos := Nat.succ_pos _
    uidNext_lt := hu
    uid_bounds := by
      intro m hm
      rcases List.mem_append.mp hm with hm | hm
      · have := b.uid_bounds m hm
        omega
      · rw [List.mem_singleton.mp hm]
        exact ⟨Nat.add_pos_left b.uidNext_pos gap,Nat.lt_succ_self _⟩
    uid_nodup := by
      rw [List.map_append,List.nodup_append]
      refine ⟨b.uid_nodup,List.nodup_singleton _,?_⟩
      rintro u hu v hv rfl
      obtain ⟨m,hm,rfl⟩ := List.mem_map.mp hu
      have hlt := (b.uid_bounds m hm).2
      have he : m.uid = (b.delivered gap header body serial).uid := by simpa using hv
      change m.uid = b.uidNext + gap at he
      omega
    serial_lt := by
      intro m hm
      rcases List.mem_append.mp hm with hm | hm
      · exact Nat.lt_of_lt_of_le (b.serial_lt m hm) (Nat.le_max_left _ _)
      · rw [List.mem_singleton.mp hm]
        exact Nat.le_max_right _ _
    modseq_le := by
      intro m hm
      rcases List.mem_append.mp hm with hm | hm
      · have := b.modseq_le m hm
        omega
      · rw [List.mem_singleton.mp hm]
        exact ⟨Nat.le_refl _,Nat.le_refl _⟩
    expunged_le := by
      intro e he
      have := b.expunged_le e he
      omega
    expunged_gone := by
      intro e he m hm
      rcases List.mem_append.mp hm with hm | hm
      · exact b.expunged_gone e he m hm
      · have := (b.expunged_le e he).1
        rw [List.mem_singleton.mp hm]
        intro h
        have h' : b.uidNext + gap = e.1 := h
        omega }

def expunge (uid : Nat) (hu : uid < b.uidNext) : Mailbox :=
  { b with
    highestModseq := b.highestModseq + 1
    messages := b.messages.filter (fun m => m.uid ≠ uid)
    expunged := (uid,b.highestModseq + 1) :: b.expunged
    modseq_pos := Nat.succ_pos _
    uid_bounds := fun m hm => b.uid_bounds m (List.mem_filter.mp hm).1
    uid_nodup := b.uid_nodup.sublist (List.filter_sublist.map _)
    serial_lt := fun m hm => b.serial_lt m (List.mem_filter.mp hm).1
    modseq_le := by
      intro m hm
      have := b.modseq_le m (List.mem_filter.mp hm).1
      omega
    expunged_le := by
      intro e he
      rcases List.mem_cons.mp he with rfl | he
      · exact ⟨hu,Nat.le_refl _⟩
      · have := b.expunged_le e he
        omega
    expunged_gone := by
      intro e he m hm
      obtain ⟨hm,hne⟩ := List.mem_filter.mp hm
      rcases List.mem_cons.mp he with rfl | he
      · simpa using hne
      · exact b.expunged_gone e he m hm }

/-- The message after its flags are stored at modification sequence `k`. -/
def Message.withFlags (m : Message) (flags : List String) (k : Nat) : Message :=
  { m with header := { m.header with flags := flags }, modseq := k }

def storeFlags (uid : Nat) (flags : List String) : Mailbox :=
  let store := fun m : Message =>
    if m.uid = uid then Message.withFlags m flags (b.highestModseq + 1) else m
  have huid : ∀ m, (store m).uid = m.uid := by
    intro m
    simp only [store]
    split <;> rfl
  { b with
    highestModseq := b.highestModseq + 1
    messages := b.messages.map store
    modseq_pos := Nat.succ_pos _
    uid_bounds := by
      intro m hm
      obtain ⟨n,hn,rfl⟩ := List.mem_map.mp hm
      rw [huid]
      exact b.uid_bounds n hn
    uid_nodup := by
      have he : Message.uid ∘ store = Message.uid := funext huid
      rw [List.map_map,he]
      exact b.uid_nodup
    serial_lt := by
      intro m hm
      obtain ⟨n,hn,rfl⟩ := List.mem_map.mp hm
      have : (store n).serial = n.serial := by
        simp only [store]
        split <;> rfl
      rw [this]
      exact b.serial_lt n hn
    modseq_le := by
      intro m hm
      obtain ⟨n,hn,rfl⟩ := List.mem_map.mp hm
      have := b.modseq_le n hn
      simp only [store]
      split
      · exact ⟨Nat.le_trans (Nat.le_trans this.1 this.2) (Nat.le_succ _),Nat.le_refl _⟩
      · omega
    expunged_le := by
      intro e he
      have := b.expunged_le e he
      omega
    expunged_gone := by
      intro e he m hm
      obtain ⟨n,hn,rfl⟩ := List.mem_map.mp hm
      rw [huid]
      exact b.expunged_gone e he n hn }

end Mailbox

/-- What can happen to a folder on the server. `rebuild` stands for a restored or recreated
folder, which takes a greater UIDVALIDITY and may hold old messages under new UIDs. -/
inductive Change
  | deliver (gap : Nat) (header : ImapMessageHeader) (body : ImapMessageBody)
  | expunge (uid : Nat)
  | storeFlags (uid : Nat) (flags : List String)
  | rebuild (b : Mailbox)

namespace Mailbox

variable (b : Mailbox)

/-- Apply a change, where the server can make it. -/
def apply : Change → Option Mailbox
  | .deliver gap header body =>
    if h : b.uidNext + gap + 1 < 2 ^ 32 then some (b.deliver gap header body b.nextSerial h) else none
  | .expunge uid =>
    if h : uid < b.uidNext ∧ uid ∈ b.uids then some (b.expunge uid h.1) else none
  | .storeFlags uid flags => if uid ∈ b.uids then some (b.storeFlags uid flags) else none
  | .rebuild b' =>
    if b.uidValidity < b'.uidValidity ∧ b.nextSerial ≤ b'.nextSerial then some b' else none

/-- Only a rebuild changes the UIDVALIDITY. -/
theorem uidValidity_apply {b b' : Mailbox} {c : Change} (h : b.apply c = some b')
    (hc : ∀ b₁, c ≠ .rebuild b₁) : b'.uidValidity = b.uidValidity := by
  cases c with
  | rebuild b₁ => exact absurd rfl (hc b₁)
  | _ =>
    simp only [apply] at h
    split at h
    · obtain rfl := Option.some.inj h
      rfl
    · simp at h

/-- `UID MOVE` out of a mailbox into another: the message is removed from the one and delivered
to the other. A UID that is not there is no error. -/
def move (target : Mailbox) (uid : Nat) : Option (Mailbox × Mailbox) :=
  match b.messages.find? (fun m => m.uid = uid) with
  | none => some (b,target)
  | some m =>
    match b.apply (.expunge uid),target.apply (.deliver 0 m.header m.body) with
    | some b',some target' => some (b',target')
    | _,_ => none

/-- `UID MOVE` into the same mailbox: the message stays the same under a new UID. -/
def moveWithin (uid : Nat) : Option Mailbox :=
  match b.messages.find? (fun m => m.uid = uid) with
  | none => some b
  | some m =>
    match b.apply (.expunge uid) with
    | none => none
    | some b' =>
      if h : b'.uidNext + 0 + 1 < 2 ^ 32 then some (b'.deliver 0 m.header m.body m.serial h) else none

/-- `UID STORE +FLAGS`. -/
def addFlags (uid : Nat) (flags : List String) : Mailbox :=
  match b.messages.find? (fun m => m.uid = uid) with
  | none => b
  | some m => b.storeFlags uid (m.header.flags ++ flags.filter (fun f => f ∉ m.header.flags))

/-! ### Answers -/

/-- HIGHESTMODSEQ as the server reports it: nothing without CONDSTORE. -/
def reportedModseq : Nat := if b.condstore then b.highestModseq else 0

def status : FolderStatus := ⟨b.uidValidity,b.messages.length,b.uidNext⟩

def statusExtended : FolderStatusExtended where
  uidValidity := b.uidValidity
  exists_ := b.messages.length
  uidNext := b.uidNext
  unseen := (b.messages.filter (fun m => "\\Seen" ∉ m.header.flags)).length
  highestModseq := b.reportedModseq

def uidsAndFlags : List (Nat × List String) :=
  b.messages.map (fun m => (m.uid,m.header.flags))

/-- The messages a `CHANGEDSINCE` fetch returns. -/
def changedSince (modseq : Nat) : List Message := b.messages.filter (fun m => modseq < m.modseq)

/-- The UIDs a QRESYNC `SELECT` reports as removed. -/
def expungedSince (modseq : Nat) : List Nat :=
  (b.expunged.filter (fun e => modseq < e.2)).map Prod.fst

/-- The exchange a QRESYNC `SELECT` starts; an outdated UIDVALIDITY is answered by a plain
completion. -/
def qresyncExchange (modseq uidValidity : Nat) : QresyncExchange where
  enable := b.qresync
  select := true
  responses :=
    if uidValidity = b.uidValidity then
      (b.names (b.expungedSince modseq)).map .vanished ++
        (b.changedSince modseq).map
          (fun m => .fetch [.uid m.uid,.flags m.header.flags,.modSeq m.modseq]) ++
        [.done true true]
    else [.done true true]

/-- A header as fetched: stamped with the epoch it is fetched under. -/
def stamp (m : Message) : ImapMessageHeader := { m.header with origin := ⟨b.uidValidity,m.serial⟩ }

/-- The greatest UID in use, `*` in a UID set. -/
def topUid : Nat := (b.messages.map Message.uid).foldr max 0

def inUidSet (uid : Nat) : UidSet → Bool
  | .fromOn start => min start b.topUid ≤ uid && uid ≤ max start b.topUid
  | .upTo start stop => min start stop ≤ uid && uid ≤ max start stop

def headers (set : UidSet) : List ImapMessageHeader :=
  (b.messages.filter (fun m => b.inUidSet m.uid set)).map b.stamp

def body (folder : String) (uid : Nat) : Except ImapError ImapMessageBody :=
  match b.messages.find? (fun m => m.uid = uid) with
  | some m => .ok { m.body with origin := ⟨b.uidValidity,m.serial⟩ }
  | none => .error (.messageNotFound uid folder)

theorem origin_of_mem_headers {b : Mailbox} {set : UidSet} {h : ImapMessageHeader}
    (hh : h ∈ b.headers set) : h.origin.uidValidity = b.uidValidity := by
  obtain ⟨m,-,rfl⟩ := List.mem_map.mp hh
  rfl

theorem origin_of_body {b : Mailbox} {folder : String} {uid : Nat} {body : ImapMessageBody}
    (h : b.body folder uid = .ok body) : body.origin.uidValidity = b.uidValidity := by
  unfold Mailbox.body at h
  split at h
  · obtain rfl := Except.ok.inj h
    rfl
  · simp at h

/-- The client's `fetch_changed_flags`: one QRESYNC round trip, or else CONDSTORE. -/
def changedFlags (modseq uidValidity : Nat) : ChangedFlags :=
  match (if 0 < uidValidity ∧ 0 < modseq then tryQresync (b.qresyncExchange modseq uidValidity)
    else none) with
  | some delta => delta
  | none => ⟨(b.changedSince modseq).map (fun m => (m.uid,m.header.flags)),none,b.reportedModseq⟩

end Mailbox

end Rav
