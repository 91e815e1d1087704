import Rav.Table
import Mathlib.Data.List.Sort

/-!
# `db::outbox`

The send queue and the statements on it. Timestamps are seconds; the source compares them as
ISO strings of one format.

## Main definitions

- `OutboxEntry`, `NewOutboxEntry` — a queued send, and what is given to queue one
- `Outbox.enqueue`, `listDue`, `markSending`, `markRetry`, `markFailed`, `delete`, `requeue` — the
  statements
-/

namespace Rav

inductive OutboxState
  | scheduled
  | sending
  | failed
  deriving DecidableEq, Repr

/-- A queued send. -/
structure OutboxEntry where
  id : String
  draftId : Option String
  toAddrs : List String
  ccAddrs : List String
  bccAddrs : List String
  subject : String
  textBody : String
  htmlBody : Option String
  inReplyTo : Option String
  referencesHdr : Option String
  fromIdentityId : Option Int
  pgpJson : Option String
  state : OutboxState
  failReason : Option String
  attemptCount : Nat
  createdAt : Nat
  sendAfter : Nat
  deriving DecidableEq, Repr

structure NewOutboxEntry where
  id : String
  draftId : Option String
  toAddrs : List String
  ccAddrs : List String
  bccAddrs : List String
  subject : String
  textBody : String
  htmlBody : Option String
  inReplyTo : Option String
  referencesHdr : Option String
  fromIdentityId : Option Int
  pgpJson : Option String
  sendAfter : Nat
  deriving DecidableEq, Repr

/-- The row a new entry is stored as. -/
def NewOutboxEntry.row (e : NewOutboxEntry) (now : Nat) : OutboxEntry where
  id := e.id
  draftId := e.draftId
  toAddrs := e.toAddrs
  ccAddrs := e.ccAddrs
  bccAddrs := e.bccAddrs
  subject := e.subject
  textBody := e.textBody
  htmlBody := e.htmlBody
  inReplyTo := e.inReplyTo
  referencesHdr := e.referencesHdr
  fromIdentityId := e.fromIdentityId
  pgpJson := e.pgpJson
  state := .scheduled
  failReason := none
  attemptCount := 0
  createdAt := now
  sendAfter := e.sendAfter

/-- The table `outbox`. -/
abbrev Outbox := Table OutboxEntry.id

namespace Outbox

variable (t : Outbox)

/-- Insert a new entry in the `scheduled` state; an id in use is refused. -/
def enqueue (e : NewOutboxEntry) (now : Nat) : Option Outbox :=
  match t.find? e.id with
  | some _ => none
  | none => some (t.insertOrIgnore (e.row now))

def get (id : String) : Option OutboxEntry := t.find? id

/-- Entries due for a send attempt right now. -/
def listDue (now : Nat) : List OutboxEntry :=
  (t.rows.filter (fun r => r.state = .scheduled ∧ r.sendAfter ≤ now)).insertionSort
    (fun a b => a.sendAfter ≤ b.sendAfter)

/-- Earliest `send_after` among still-scheduled entries. -/
def nextSendAfter : Option Nat :=
  ((t.rows.filter (fun r => r.state = .scheduled)).map OutboxEntry.sendAfter).min?

/-- `UPDATE outbox SET g WHERE id = id`, for columns outside the key. -/
def updateRow (id : String) (g : OutboxEntry → OutboxEntry) (hg : ∀ r, (g r).id = r.id) : Outbox :=
  t.updateWhere (fun r => r.id = id) g hg

/-- The entry is being sent, whatever its state was. -/
def markSending (id : String) : Outbox :=
  t.updateRow id (fun r => { r with state := .sending }) (fun _ => rfl)

/-- Transient failure: bump the attempt count and reschedule. -/
def markRetry (id : String) (nextSendAfter : Nat) (reason : String) : Outbox :=
  t.updateRow id (fun r => { r with
    state := .scheduled, sendAfter := nextSendAfter, attemptCount := r.attemptCount + 1,
    failReason := some reason }) (fun _ => rfl)

def markFailed (id : String) (reason : String) : Outbox :=
  t.updateRow id (fun r => { r with state := .failed, failReason := some reason }) (fun _ => rfl)

/-- Delete an entry outright; whether there was one. -/
def delete (id : String) : Bool × Outbox :=
  ((t.find? id).isSome,t.deleteWhere (fun r => r.id = id))

/-- Reset a permanently failed entry to `scheduled`; whether there was one. -/
def requeue (id : String) (sendAfter : Nat) : Bool × Outbox :=
  (t.rows.any (fun r => r.id = id && r.state = .failed),
    t.updateWhere (fun r => r.id = id && r.state = .failed)
      (fun r => { r with
        state := .scheduled, sendAfter := sendAfter, attemptCount := 0, failReason := none })
      (fun _ => rfl))

/-! ### What the statements do to the ids in use -/

def ids : List String := t.rows.map OutboxEntry.id

variable {t : Outbox} {id : String}

theorem ids_updateWhere (p : OutboxEntry → Bool) (g : OutboxEntry → OutboxEntry)
    (hg : ∀ r, (g r).id = r.id) : ids (t.updateWhere p g hg) = t.ids := by
  simp only [ids,Table.updateWhere,List.map_map]
  refine List.map_congr_left (fun r _ => ?_)
  simp only [Function.comp_apply]
  split
  · exact hg r
  · rfl

@[simp] theorem ids_markSending : ids (t.markSending id) = t.ids := by
  rw [markSending,updateRow,ids_updateWhere]

@[simp] theorem ids_markRetry (next : Nat) (reason : String) :
    ids (t.markRetry id next reason) = t.ids := by
  rw [markRetry,updateRow,ids_updateWhere]

@[simp] theorem ids_markFailed (reason : String) : ids (t.markFailed id reason) = t.ids := by
  rw [markFailed,updateRow,ids_updateWhere]

@[simp] theorem ids_requeue (next : Nat) : ids (t.requeue id next).2 = t.ids := by
  rw [requeue,ids_updateWhere]

theorem mem_ids_delete {k : String} : k ∈ ids (t.delete id).2 ↔ k ∈ t.ids ∧ k ≠ id := by
  simp only [ids,delete,Table.deleteWhere,List.mem_map,List.mem_filter]
  constructor
  · rintro ⟨r,⟨hr,hne⟩,rfl⟩
    exact ⟨⟨r,hr,rfl⟩,by simpa using hne⟩
  · rintro ⟨⟨r,hr,rfl⟩,hne⟩
    exact ⟨r,⟨hr,by simpa using hne⟩,rfl⟩

theorem mem_ids_of_get {e : OutboxEntry} (h : t.get id = some e) : id ∈ t.ids := by
  obtain ⟨hm,rfl⟩ := Table.find?_eq_some.mp h
  exact List.mem_map.mpr ⟨e,hm,rfl⟩

theorem mem_ids_of_listDue {now : Nat} {e : OutboxEntry} (h : e ∈ t.listDue now) : e.id ∈ t.ids := by
  have hf := (List.mem_insertionSort _).mp h
  exact List.mem_map.mpr ⟨e,(List.mem_filter.mp hf).1,rfl⟩

theorem mem_ids_enqueue {e : NewOutboxEntry} {now : Nat} {t' : Outbox} {k : String}
    (h : t.enqueue e now = some t') : k ∈ t'.ids ↔ k ∈ t.ids ∨ k = e.id := by
  have hmem : ∀ t' : Outbox, k ∈ t'.ids ↔ (t'.find? k).isSome := by
    intro t'
    rw [Option.isSome_iff_exists,ids,List.mem_map]
    exact exists_congr (fun r => Table.find?_eq_some.symm)
  unfold enqueue at h
  split at h
  · simp at h
  · next hn =>
    obtain rfl := Option.some.inj h
    rw [hmem,hmem,Table.find?_insertOrIgnore]
    cases ht : t.find? k with
    | some r => simp
    | none => by_cases hk : k = e.id <;> simp [NewOutboxEntry.row,hk]

/-! ### What the statements do to one row -/

theorem get_eq_some {r : OutboxEntry} : t.get id = some r ↔ r ∈ t.rows ∧ r.id = id :=
  Table.find?_eq_some

theorem get_self {r : OutboxEntry} (h : r ∈ t.rows) : t.get r.id = some r := get_eq_some.mpr ⟨h,rfl⟩

variable {k : String}

theorem get_updateRow (g : OutboxEntry → OutboxEntry) (hg : ∀ r, (g r).id = r.id) :
    (t.updateRow id g hg).get k = (t.get k).map (fun r => if k = id then g r else r) := by
  unfold get updateRow
  rw [Table.find?_updateWhere]
  cases hr : t.find? k with
  | none => rfl
  | some r =>
    obtain ⟨-,rfl⟩ := Table.find?_eq_some.mp hr
    simp

theorem get_markSending : (t.markSending id).get k =
    (t.get k).map (fun r => if k = id then { r with state := .sending } else r) :=
  get_updateRow _ _

theorem get_markRetry (next : Nat) (reason : String) : (t.markRetry id next reason).get k =
    (t.get k).map (fun r => if k = id then { r with
      state := .scheduled, sendAfter := next, attemptCount := r.attemptCount + 1,
      failReason := some reason } else r) :=
  get_updateRow _ _

theorem get_markFailed (reason : String) : (t.markFailed id reason).get k =
    (t.get k).map (fun r => if k = id then { r with
      state := .failed, failReason := some reason } else r) :=
  get_updateRow _ _

theorem get_delete : get (t.delete id).2 k = if k = id then none else t.get k := by
  unfold get delete
  rw [Table.find?_deleteWhere]
  cases hr : t.find? k with
  | none => simp
  | some r =>
    obtain ⟨-,rfl⟩ := Table.find?_eq_some.mp hr
    by_cases hid : r.id = id <;> simp [hid]

theorem get_requeue (next : Nat) : get (t.requeue id next).2 k =
    (t.get k).map (fun r => if k = id ∧ r.state = .failed then { r with
      state := .scheduled, sendAfter := next, attemptCount := 0, failReason := none } else r) := by
  unfold get requeue
  rw [Table.find?_updateWhere]
  cases hr : t.find? k with
  | none => rfl
  | some r =>
    obtain ⟨-,rfl⟩ := Table.find?_eq_some.mp hr
    simp

/-- A retry goes through exactly for a failed entry. -/
theorem requeue_fst {next : Nat} : (t.requeue id next).1 = true ↔
    ∃ r, t.get id = some r ∧ r.state = .failed := by
  simp only [requeue,List.any_eq_true,Bool.and_eq_true,decide_eq_true_eq]
  constructor
  · rintro ⟨r,hr,hid,hs⟩
    exact ⟨r,get_eq_some.mpr ⟨hr,hid⟩,hs⟩
  · rintro ⟨r,hr,hs⟩
    obtain ⟨hr,hid⟩ := get_eq_some.mp hr
    exact ⟨r,hr,hid,hs⟩

theorem get_enqueue {e : NewOutboxEntry} {now : Nat} {t' : Outbox} (h : t.enqueue e now = some t') :
    t'.get k = if k = e.id then some (e.row now) else t.get k := by
  unfold enqueue at h
  split at h
  · simp at h
  · next hn =>
    obtain rfl := Option.some.inj h
    unfold get
    rw [Table.find?_insertOrIgnore]
    by_cases hk : k = e.id
    · simp [hk,hn,NewOutboxEntry.row]
    · simp [hk,NewOutboxEntry.row]

theorem mem_listDue {now : Nat} {e : OutboxEntry} : e ∈ t.listDue now ↔
    t.get e.id = some e ∧ e.state = .scheduled ∧ e.sendAfter ≤ now := by
  simp [listDue,get_eq_some]

/-- A scheduled entry is due at the earliest deadline or later. -/
theorem nextSendAfter_le {e : OutboxEntry} (h : t.get id = some e) (hs : e.state = .scheduled) :
    ∃ d, t.nextSendAfter = some d ∧ d ≤ e.sendAfter := by
  have hmem : e.sendAfter ∈ (t.rows.filter (fun r => r.state = .scheduled)).map
      OutboxEntry.sendAfter :=
    List.mem_map.mpr ⟨e,List.mem_filter.mpr ⟨(get_eq_some.mp h).1,by simpa using hs⟩,rfl⟩
  obtain ⟨d,hd⟩ := Option.isSome_iff_exists.mp (List.isSome_min?_of_mem hmem)
  exact ⟨d,hd,(List.min?_eq_some_iff.mp hd).2 _ hmem⟩

theorem nodup_listDue (t : Outbox) (now : Nat) : ((t.listDue now).map OutboxEntry.id).Nodup := by
  refine ((List.perm_insertionSort _ _).map OutboxEntry.id).nodup_iff.mpr ?_
  exact t.nodup.sublist (List.filter_sublist.map OutboxEntry.id)

end Outbox

end Rav
