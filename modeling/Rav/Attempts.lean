import Rav.Realtime.OutboxRuns

/-!
# Attempts are bounded

The worker hands an entry to SMTP only once it is due, and every way on from there either counts
the attempt, with the next one put off, or takes the entry out of what is listed as due: an entry
that was sent is deleted, or stays marked as being sent where the deletion fails. The account of an
entry is kept over the history alone, and the rows agree with it.

## Main definitions

- `Ledger`, `ledger` — what a history says of one entry
- `SendRecord.Allowed`, `Lawful` — when an entry may be handed to SMTP, and put off until when
- `Counts` — rows and entries in hand agree with the history
-/

namespace Rav

/-! ### The account of an entry -/

def SendRecord.id : SendRecord → String
  | .enqueued id _ => id
  | .requeued id _ => id
  | .rescheduled id _ _ => id
  | .handed id _ => id
  | .sent id => id
  | .refused id _ => id

/-- When an entry is due; how often it was handed to SMTP and rescheduled, and whether it was
refused for good, since the user last queued it; whether it was ever sent. -/
structure Ledger where
  due : Nat
  handed : Nat
  rescheduled : Nat
  refused : Bool
  sent : Bool
  deriving DecidableEq, Repr

/-- One more record of the entry. -/
def Ledger.enter : Option Ledger → SendRecord → Option Ledger
  | _, .enqueued _ due => some ⟨due,0,0,false,false⟩
  | l, .requeued _ due =>
    l.map (fun x => { x with due := due, handed := 0, rescheduled := 0, refused := false })
  | l, .rescheduled _ _ due =>
    l.map (fun x => { x with due := due, rescheduled := x.rescheduled + 1 })
  | l, .handed _ _ => l.map (fun x => { x with handed := x.handed + 1 })
  | l, .sent _ => l.map (fun x => { x with sent := true })
  | l, .refused _ retryable => l.map (fun x => { x with refused := x.refused || !retryable })

/-- What a history says of an entry, if it was ever queued. -/
def ledger (history : List SendRecord) (id : String) : Option Ledger :=
  (history.filter (fun r => r.id = id)).foldl Ledger.enter none

/-- An entry is handed to SMTP when it is due, fewer than `maxAttempts` times so far, not after it
was refused for good and not after it was sent; each retry is put off by the backoff. -/
def SendRecord.Allowed : SendRecord → Option Ledger → Prop
  | .handed _ now, l => ∃ x, l = some x ∧ x.due ≤ now ∧ x.handed < maxAttempts ∧
      x.refused = false ∧ x.sent = false
  | .rescheduled _ now due, l => ∃ x, l = some x ∧ due = now + backoffDuration x.rescheduled
  | _, _ => True

/-- Every record of a history is allowed by what came before it. -/
def Lawful (history : List SendRecord) : Prop :=
  ∀ before r after, history = before ++ r :: after → r.Allowed (ledger before r.id)

section Ledger

variable {history rs : List SendRecord} {r : SendRecord} {id : String}

theorem ledger_concat (h : r.id = id) :
    ledger (history ++ [r]) id = Ledger.enter (ledger history id) r := by
  simp [ledger,h]

theorem ledger_pair {r' : SendRecord} (h : r.id = id) (h' : r'.id = id) :
    ledger (history ++ [r,r']) id = Ledger.enter (Ledger.enter (ledger history id) r) r' := by
  simp [ledger,h,h']

theorem ledger_append_of_ne (h : ∀ r ∈ rs, r.id ≠ id) :
    ledger (history ++ rs) id = ledger history id := by
  have hnil : rs.filter (fun r => r.id = id) = [] := by simpa using h
  rw [ledger,List.filter_append,hnil,List.append_nil,ledger]

theorem lawful_nil : Lawful [] := by
  intro before r after h
  simp at h

theorem Lawful.concat (h : Lawful history) (hr : r.Allowed (ledger history r.id)) :
    Lawful (history ++ [r]) := by
  intro before q after heq
  rcases List.eq_nil_or_concat after with rfl | ⟨after,z,rfl⟩
  · obtain ⟨rfl,hq⟩ := List.append_inj' heq rfl
    obtain rfl := List.singleton_inj.mp hq
    exact hr
  · -- the record in question is an earlier one
    have hsplit : history ++ [r] = (before ++ q :: after) ++ [z] := by simpa using heq
    exact h before q after (List.append_inj' hsplit rfl).1

end Ledger

/-! ### The backoff -/

/-- The attempts put an entry off for longer and longer, up to half an hour. -/
theorem backoffDuration_mono (k : Nat) : backoffDuration k ≤ backoffDuration (k+1) := by
  unfold backoffDuration
  have hpow : 2 ^ min k 6 ≤ 2 ^ min (k+1) 6 := Nat.pow_le_pow_right (by omega) (by omega)
  omega

theorem backoffDuration_le (k : Nat) : backoffDuration k ≤ 1800 := Nat.min_le_right _ _

theorem maxAttempts_pos : 0 < maxAttempts := by decide

/-! ### Rows and entries in hand -/

/-- An entry may be handed to SMTP, after `n` attempts. -/
structure Ledger.Ready (x : Ledger) (n : Nat) : Prop where
  handed : x.handed ≤ n
  rescheduled : x.rescheduled = n
  room : n < maxAttempts
  refused : x.refused = false
  sent : x.sent = false

namespace OutboxEntry

/-- A row agrees with what the history says of its entry. -/
def Agrees (r : OutboxEntry) (l : Option Ledger) : Prop :=
  match r.state with
  | .scheduled => ∃ x, l = some x ∧ x.Ready r.attemptCount ∧ x.due = r.sendAfter
  | .failed => ∃ x, l = some x ∧ x.sent = false
  | .sending => True

/-- A row of the entry, if there is one, is in a state and counts the attempts so far. -/
def RowIn (e : OutboxEntry) (st : OutboxState) (t : Outbox) : Prop :=
  ∀ r, t.get e.id = some r → r.state = st ∧ r.attemptCount = e.attemptCount

/-- The entry may be handed to SMTP now; its row is in a state. -/
def Waits (e : OutboxEntry) (st : OutboxState) (w : OutboxWorld) (history : List SendRecord) :
    Prop :=
  (∃ x, ledger history e.id = some x ∧ x.Ready e.attemptCount ∧ x.due ≤ w.now) ∧
    e.RowIn st w.rows

/-- The entry has been tried once more. -/
def Tried (e : OutboxEntry) (sent : Except AppError String) (w : OutboxWorld)
    (history : List SendRecord) : Prop :=
  (∃ x, ledger history e.id = some x ∧ x.handed ≤ e.attemptCount + 1 ∧
    x.rescheduled = e.attemptCount ∧ ∀ err, sent = .error err → x.sent = false ∧
      (isRetryable err = true → x.refused = false)) ∧ e.RowIn .sending w.rows

end OutboxEntry

namespace SendStance

/-- The entries the worker has yet to take. -/
def queue : SendStance → List OutboxEntry
  | .idle => []
  | .pending due => due
  | .taken _ rest => rest
  | .settled _ _ rest => rest

/-- The entries the worker holds. -/
def entries : SendStance → List OutboxEntry
  | .idle => []
  | .pending due => due
  | .taken e rest => e :: rest
  | .settled e _ rest => e :: rest

theorem mem_entries {g : SendStance} {e : OutboxEntry} (h : e ∈ g.entries) :
    e ∈ g.queue ∨ (∃ rest, g = .taken e rest) ∨ ∃ sent rest, g = .settled e sent rest := by
  cases g with
  | idle => exact Or.inl h
  | pending due => exact Or.inl h
  | taken e' rest =>
    rcases List.mem_cons.mp h with rfl | h
    · exact Or.inr (Or.inl ⟨rest,rfl⟩)
    · exact Or.inl h
  | settled e' sent rest =>
    rcases List.mem_cons.mp h with rfl | h
    · exact Or.inr (Or.inr ⟨sent,rest,rfl⟩)
    · exact Or.inl h

end SendStance

/-- The history is lawful, and the rows and the entries the worker holds agree with it. -/
structure Counts (g : SendStance) (w : OutboxWorld) (history : List SendRecord) : Prop where
  lawful : Lawful history
  issued : ∀ id x, ledger history id = some x → id ∈ w.issued
  rows : ∀ id r, w.rows.get id = some r → r.Agrees (ledger history id)
  nodup : (g.entries.map OutboxEntry.id).Nodup
  queued : ∀ e ∈ g.queue, e.Waits .scheduled w history
  taken : ∀ e rest, g = .taken e rest → e.Waits .sending w history
  settled : ∀ e sent rest, g = .settled e sent rest → e.Tried sent w history

namespace OutboxEntry

variable {e : OutboxEntry} {st : OutboxState} {w w' : OutboxWorld} {history rs : List SendRecord}
  {t t' : Outbox}

theorem RowIn.mono (h : e.RowIn st t) (ht : ∀ r, t'.get e.id = some r → t.get e.id = some r) :
    e.RowIn st t' := fun r hr => h r (ht r hr)

/-- Records of other entries, and statements on other rows, do not matter. -/
theorem Waits.frame (h : e.Waits st w history) (hrs : ∀ r ∈ rs, r.id ≠ e.id)
    (hnow : w.now ≤ w'.now) (ht : ∀ r, w'.rows.get e.id = some r → w.rows.get e.id = some r) :
    e.Waits st w' (history ++ rs) := by
  obtain ⟨⟨x,hx,hready,hdue⟩,hrow⟩ := h
  exact ⟨⟨x,(ledger_append_of_ne hrs).trans hx,hready,hdue.trans hnow⟩,hrow.mono ht⟩

end OutboxEntry

namespace Counts

variable {g : SendStance} {w w' : OutboxWorld} {history : List SendRecord}

/-- Time passes, ids are given out, rows go. -/
theorem frame (h : Counts g w history) (hnow : w.now ≤ w'.now)
    (hissued : ∀ id ∈ w.issued, id ∈ w'.issued)
    (ht : ∀ id r, w'.rows.get id = some r → w.rows.get id = some r) : Counts g w' history := by
  refine ⟨h.lawful,fun id x hx => hissued _ (h.issued id x hx),
    fun id r hr => h.rows id r (ht id r hr),h.nodup,fun e he => ?_,fun e rest hg => ?_,
    fun e sent rest hg => ?_⟩
  · obtain ⟨⟨x,hx,hready,hdue⟩,hrow⟩ := h.queued e he
    exact ⟨⟨x,hx,hready,hdue.trans hnow⟩,hrow.mono (ht e.id)⟩
  · obtain ⟨⟨x,hx,hready,hdue⟩,hrow⟩ := h.taken e rest hg
    exact ⟨⟨x,hx,hready,hdue.trans hnow⟩,hrow.mono (ht e.id)⟩
  · obtain ⟨hl,hrow⟩ := h.settled e sent rest hg
    exact ⟨hl,hrow.mono (ht e.id)⟩

/-- Most calls leave nothing in the history. -/
theorem silent {rs : List SendRecord} (h : Counts g w history) (hrs : rs = []) :
    Counts g w (history ++ rs) := by
  rw [hrs,List.append_nil]
  exact h

/-- Whatever the worker holds, it may drop. -/
theorem idle (h : Counts g w history) : Counts .idle w history :=
  ⟨h.lawful,h.issued,h.rows,List.nodup_nil,fun _ he => (List.not_mem_nil he).elim,
    fun _ _ hg => by simp at hg,fun _ _ _ hg => by simp at hg⟩

/-- An entry the worker holds was queued before. -/
theorem issued_of_mem (h : Counts g w history) {e : OutboxEntry} (he : e ∈ g.entries) :
    e.id ∈ w.issued := by
  rcases SendStance.mem_entries he with hq | ⟨rest,hg⟩ | ⟨sent,rest,hg⟩
  · obtain ⟨⟨x,hx,-⟩,-⟩ := h.queued e hq
    exact h.issued _ x hx
  · obtain ⟨⟨x,hx,-⟩,-⟩ := h.taken e rest hg
    exact h.issued _ x hx
  · obtain ⟨⟨x,hx,-⟩,-⟩ := h.settled e sent rest hg
    exact h.issued _ x hx

/-- The row of an entry the worker holds is scheduled until the worker takes it. -/
theorem rowIn_of_mem (h : Counts g w history) {e : OutboxEntry} (he : e ∈ g.entries) :
    e ∈ g.queue ∧ e.RowIn .scheduled w.rows ∨ e.RowIn .sending w.rows := by
  rcases SendStance.mem_entries he with hq | ⟨rest,hg⟩ | ⟨sent,rest,hg⟩
  · exact Or.inl ⟨hq,(h.queued e hq).2⟩
  · exact Or.inr (h.taken e rest hg).2
  · exact Or.inr (h.settled e sent rest hg).2

/-- The first entry may be dropped; the others are not it. -/
theorem rest (h : Counts g w history) {e : OutboxEntry} {rest : List OutboxEntry}
    (hg : g.entries = e :: rest) : Counts (.pending rest) w history ∧ ∀ q ∈ rest, q.id ≠ e.id := by
  have hnd := h.nodup
  rw [hg,List.map_cons,List.nodup_cons] at hnd
  have hsub : ∀ q ∈ rest, q ∈ g.queue := by
    intro q hq
    cases g with
    | idle => simp [SendStance.entries] at hg
    | pending due =>
      obtain rfl : due = e :: rest := hg
      exact List.mem_cons_of_mem e hq
    | taken e' rest' => exact (List.cons.inj hg).2 ▸ hq
    | settled e' sent rest' => exact (List.cons.inj hg).2 ▸ hq
  exact ⟨⟨h.lawful,h.issued,h.rows,hnd.2,fun q hq => h.queued q (hsub q hq),
    fun _ _ hg => by simp at hg,fun _ _ _ hg => by simp at hg⟩,
    fun q hq heq => hnd.1 (List.mem_map.mpr ⟨q,hq,heq⟩)⟩

variable {e : OutboxEntry} {rest : List OutboxEntry} {rs : List SendRecord} {id : String}

/-- Records of an entry the worker does not hold, with what happens to its row. -/
theorem touch (h : Counts g w history) (hheld : ∀ e ∈ g.entries, e.id ≠ id)
    (hrs : ∀ r ∈ rs, r.id = id) (hlaw : Lawful (history ++ rs)) (hnow : w.now ≤ w'.now)
    (hissued : ∀ k ∈ w.issued, k ∈ w'.issued) (hid : id ∈ w'.issued)
    (hother : ∀ k r, k ≠ id → w'.rows.get k = some r → w.rows.get k = some r)
    (hrow : ∀ r, w'.rows.get id = some r → r.Agrees (ledger (history ++ rs) id)) :
    Counts g w' (history ++ rs) := by
  have hne : ∀ k, k ≠ id → ∀ r ∈ rs, r.id ≠ k := fun k hk r hr heq => hk (heq.symm.trans (hrs r hr))
  have hqueue : ∀ e ∈ g.queue, e ∈ g.entries := by
    intro e he
    cases g with
    | idle => exact he
    | pending due => exact he
    | taken e' rest => exact List.mem_cons_of_mem _ he
    | settled e' sent rest => exact List.mem_cons_of_mem _ he
  refine ⟨hlaw,fun k x hx => ?_,fun k r hr => ?_,h.nodup,fun e he => ?_,fun e rest hg => ?_,
    fun e sent rest hg => ?_⟩
  · by_cases hk : k = id
    · exact hk ▸ hid
    · rw [ledger_append_of_ne (hne k hk)] at hx
      exact hissued k (h.issued k x hx)
  · by_cases hk : k = id
    · subst hk
      exact hrow r hr
    · rw [ledger_append_of_ne (hne k hk)]
      exact h.rows k r (hother k r hk hr)
  · have hk := hheld e (hqueue e he)
    exact (h.queued e he).frame (hne _ hk) hnow (fun r => hother _ r hk)
  · have hk : e.id ≠ id := hheld e (hg ▸ List.mem_cons_self)
    exact (h.taken e rest hg).frame (hne _ hk) hnow (fun r => hother _ r hk)
  · have hk : e.id ≠ id := hheld e (hg ▸ List.mem_cons_self)
    obtain ⟨⟨x,hx,hl⟩,hr⟩ := h.settled e sent rest hg
    exact ⟨⟨x,(ledger_append_of_ne (hne _ hk)).trans hx,hl⟩,hr.mono (fun r => hother _ r hk)⟩

theorem nodup_cons (h : Counts (.pending rest) w history) (hne : ∀ q ∈ rest, q.id ≠ e.id) :
    ((e :: rest).map OutboxEntry.id).Nodup := by
  refine List.nodup_cons.mpr ⟨fun hm => ?_,h.nodup⟩
  obtain ⟨q,hq,heq⟩ := List.mem_map.mp hm
  exact hne q hq heq

theorem take (h : Counts (.pending rest) w history) (hne : ∀ q ∈ rest, q.id ≠ e.id)
    (he : e.Waits .sending w history) : Counts (.taken e rest) w history := by
  refine ⟨h.lawful,h.issued,h.rows,h.nodup_cons hne,h.queued,fun q rest' hg => ?_,
    fun _ _ _ hg => by simp at hg⟩
  obtain ⟨rfl,-⟩ := SendStance.taken.inj hg
  exact he

theorem settle {sent : Except AppError String} (h : Counts (.pending rest) w history)
    (hne : ∀ q ∈ rest, q.id ≠ e.id) (he : e.Tried sent w history) :
    Counts (.settled e sent rest) w history := by
  refine ⟨h.lawful,h.issued,h.rows,h.nodup_cons hne,h.queued,fun _ _ hg => by simp at hg,
    fun q sent' rest' hg => ?_⟩
  obtain ⟨rfl,rfl,-⟩ := SendStance.settled.inj hg
  exact he

/-! ### What the statements do to the count -/

theorem list (h : Counts .idle w history) : Counts (.pending (w.rows.listDue w.now)) w history := by
  refine ⟨h.lawful,h.issued,h.rows,Outbox.nodup_listDue _ _,fun e he => ?_,
    fun _ _ hg => by simp at hg,fun _ _ _ hg => by simp at hg⟩
  obtain ⟨hget,hst,hdue⟩ := Outbox.mem_listDue.mp he
  have hagrees := h.rows _ _ hget
  rw [OutboxEntry.Agrees,hst] at hagrees
  obtain ⟨x,hx,hready,hd⟩ := hagrees
  refine ⟨⟨x,hx,hready,hd ▸ hdue⟩,fun r hr => ?_⟩
  obtain rfl := Option.some.inj (hget.symm.trans hr)
  exact ⟨hst,rfl⟩

theorem markSending (h : Counts (.pending (e :: rest)) w history) :
    Counts (.taken e rest) { w with rows := w.rows.markSending e.id } history := by
  obtain ⟨hrest,hne⟩ := h.rest rfl
  obtain ⟨hl,hrow⟩ := h.queued e List.mem_cons_self
  have hmarked : e.RowIn .sending (w.rows.markSending e.id) := by
    intro r hr
    rw [Outbox.get_markSending] at hr
    obtain ⟨q,hq,rfl⟩ := Option.map_eq_some_iff.mp hr
    rw [if_pos rfl]
    exact ⟨rfl,(hrow q hq).2⟩
  have htouch : Counts (.pending rest) { w with rows := w.rows.markSending e.id }
      (history ++ []) := by
    refine hrest.touch hne (fun _ hr => (List.not_mem_nil hr).elim) (by simpa using h.lawful) le_rfl
      (fun _ => id) (h.issued_of_mem List.mem_cons_self) (fun k r hk hr => ?_) (fun r hr => ?_)
    · rw [Outbox.get_markSending] at hr
      simpa [hk] using hr
    · rw [OutboxEntry.Agrees,(hmarked r hr).1]
      trivial
  rw [List.append_nil] at htouch
  exact htouch.take hne ⟨hl,hmarked⟩

/-- The entry in hand may be handed to SMTP. -/
theorem lawful_handed (h : Counts (.taken e rest) w history) :
    Lawful (history ++ [.handed e.id w.now]) := by
  obtain ⟨⟨x,hx,hready,hdue⟩,-⟩ := h.taken e rest rfl
  exact h.lawful.concat
    ⟨x,hx,hdue,hready.handed.trans_lt hready.room,hready.refused,hready.sent⟩

/-- What is recorded of the entry in hand while it is being submitted. -/
theorem tried {sent : Except AppError String} (h : Counts (.taken e rest) w history)
    (hrs : ∀ r ∈ rs, r.id = e.id) (hlaw : Lawful (history ++ rs))
    (hl : ∀ x, ledger history e.id = some x → x.Ready e.attemptCount →
      ∃ y, ledger (history ++ rs) e.id = some y ∧ y.handed ≤ x.handed + 1 ∧
        y.rescheduled = x.rescheduled ∧ ∀ err, sent = .error err → y.sent = x.sent ∧
          (isRetryable err = true → y.refused = x.refused)) :
    Counts (.settled e sent rest) w (history ++ rs) := by
  obtain ⟨hrest,hne⟩ := h.rest rfl
  obtain ⟨⟨x,hx,hready,-⟩,hrow⟩ := h.taken e rest rfl
  refine (hrest.touch hne hrs hlaw le_rfl (fun _ => id) (h.issued_of_mem List.mem_cons_self)
    (fun _ _ _ => id) (fun r hr => ?_)).settle hne ⟨?_,hrow⟩
  · rw [OutboxEntry.Agrees,(hrow r hr).1]
    trivial
  · obtain ⟨y,hy,hhanded,hresched,herr⟩ := hl x hx hready
    refine ⟨y,hy,?_,hresched.trans hready.rescheduled,fun err he => ?_⟩
    · have := hready.handed
      omega
    · obtain ⟨hsent,hrefused⟩ := herr err he
      exact ⟨hsent.trans hready.sent,fun hr => (hrefused hr).trans hready.refused⟩

theorem markRetry {err : AppError} (h : Counts (.settled e (.error err) rest) w history)
    (hretry : e.Retries err) (reason : String) :
    Counts (.pending rest) { w with
      rows := w.rows.markRetry e.id (w.now + backoffDuration e.attemptCount) reason }
      (history ++ [.rescheduled e.id w.now (w.now + backoffDuration e.attemptCount)]) := by
  obtain ⟨hrest,hne⟩ := h.rest rfl
  obtain ⟨⟨x,hx,hhanded,hresched,herr⟩,hrow⟩ := h.settled e _ rest rfl
  obtain ⟨hsent,hrefused⟩ := herr err rfl
  refine hrest.touch hne (by simp [SendRecord.id])
    (h.lawful.concat ⟨x,hx,by rw [hresched]⟩) le_rfl
    (fun _ => id) (h.issued_of_mem List.mem_cons_self) (fun k r hk hr => ?_) (fun r hr => ?_)
  · rw [Outbox.get_markRetry] at hr
    simpa [hk] using hr
  · rw [Outbox.get_markRetry] at hr
    obtain ⟨q,hq,rfl⟩ := Option.map_eq_some_iff.mp hr
    rw [if_pos rfl]
    refine ⟨_,Eq.trans (ledger_concat rfl) (congrArg (fun l => Ledger.enter l _) hx),
      ⟨?_,?_,?_,hrefused hretry.1,hsent⟩,rfl⟩
    · exact hhanded.trans (by rw [(hrow q hq).2])
    · exact congrArg (· + 1) (hresched.trans (hrow q hq).2.symm)
    · rw [(hrow q hq).2]
      exact hretry.2

theorem markFailed {err : AppError} (h : Counts (.settled e (.error err) rest) w history)
    (reason : String) :
    Counts (.pending rest) { w with rows := w.rows.markFailed e.id reason } history := by
  obtain ⟨hrest,hne⟩ := h.rest rfl
  obtain ⟨⟨x,hx,-,-,herr⟩,-⟩ := h.settled e _ rest rfl
  rw [← List.append_nil history]
  refine hrest.touch hne (fun _ hr => (List.not_mem_nil hr).elim) (by simpa using h.lawful) le_rfl
    (fun _ => id) (h.issued_of_mem List.mem_cons_self) (fun k r hk hr => ?_) (fun r hr => ?_)
  · rw [Outbox.get_markFailed] at hr
    simpa [hk] using hr
  · rw [Outbox.get_markFailed] at hr
    obtain ⟨q,-,rfl⟩ := Option.map_eq_some_iff.mp hr
    rw [if_pos rfl,List.append_nil]
    exact ⟨x,hx,(herr err rfl).1⟩

theorem enqueue {n : NewOutboxEntry} {t : Outbox} (h : Counts g w history)
    (hnew : n.id ∉ w.issued) (ht : w.rows.enqueue n w.now = some t) :
    Counts g { w with rows := t, issued := n.id :: w.issued }
      (history ++ [.enqueued n.id n.sendAfter]) := by
  have hheld : ∀ e ∈ g.entries, e.id ≠ n.id := fun e he heq => hnew (heq ▸ h.issued_of_mem he)
  refine h.touch hheld (by simp [SendRecord.id]) (h.lawful.concat trivial) le_rfl
    (fun k => List.mem_cons_of_mem _) List.mem_cons_self (fun k r hk hr => ?_) (fun r hr => ?_)
  · rw [Outbox.get_enqueue ht,if_neg hk] at hr
    exact hr
  · rw [Outbox.get_enqueue ht,if_pos rfl] at hr
    obtain rfl := Option.some.inj hr
    exact ⟨_,ledger_concat rfl,⟨le_rfl,rfl,maxAttempts_pos,rfl,rfl⟩,rfl⟩

/-- A failed entry is in nobody's hands. -/
theorem requeue {id : String} {r : OutboxEntry} (h : Counts g w history)
    (hr : w.rows.get id = some r) (hst : r.state = .failed) :
    Counts g { w with rows := (w.rows.requeue id w.now).2 }
      (history ++ [.requeued id w.now]) := by
  have hagrees := h.rows id r hr
  rw [OutboxEntry.Agrees,hst] at hagrees
  obtain ⟨x,hx,hsent⟩ := hagrees
  have hheld : ∀ e ∈ g.entries, e.id ≠ id := by
    rintro e he rfl
    rcases h.rowIn_of_mem he with ⟨-,hrow⟩ | hrow
    · exact absurd (hrow r hr).1 (by simp [hst])
    · exact absurd (hrow r hr).1 (by simp [hst])
  refine h.touch hheld (by simp [SendRecord.id]) (h.lawful.concat trivial) le_rfl
    (fun _ hk => hk) (h.issued id x hx) (fun k q hk hq => ?_) (fun q hq => ?_)
  · rw [Outbox.get_requeue] at hq
    simpa [hk] using hq
  · rw [Outbox.get_requeue,hr,Option.map_some,if_pos ⟨rfl,hst⟩] at hq
    obtain rfl := Option.some.inj hq
    exact ⟨_,Eq.trans (ledger_concat rfl) (congrArg (fun l => Ledger.enter l _) hx),
      ⟨le_rfl,rfl,maxAttempts_pos,rfl,hsent⟩,rfl⟩

end Counts

/-- One call of the worker. -/
theorem Counts.work {weather : OutboxWeather} {g : SendStance} {c : OutboxCall} {w : OutboxWorld}
    {history : List SendRecord} (h : Counts g w history) (hok : g.Allows c) :
    Counts (g.next c (serve weather c w).1) (serve weather c w).2
      (history ++ c.history w.now (serve weather c w).1) := by
  cases c with
  | listDue =>
    obtain rfl : g = .idle := hok
    rcases hst : weather.statement with _ | m
    · rw [serve_listDue hst]
      exact h.list.silent rfl
    · rw [serve_listDue_fails hst]
      exact h.silent rfl
  | nextSendAfter =>
    obtain rfl : g = .pending [] := hok
    rw [serve_nextSendAfter_world]
    exact h.silent rfl
  | markSending id =>
    obtain ⟨e,rest,rfl,rfl⟩ := hok
    rcases hst : weather.statement with _ | m
    · rw [serve_markSending hst]
      exact h.markSending.silent rfl
    · rw [serve_markSending_fails hst]
      exact (h.rest rfl).1.silent rfl
  | prepare id job =>
    obtain ⟨e,rest,rfl,rfl⟩ := hok
    rcases hp : weather.prepare with err | _
    · have hserve : serve weather (.prepare e.id job) w = (.error err,w) := by
        simp only [serve,hp]
      rw [hserve]
      refine h.tried (by simp [OutboxCall.history,SendRecord.id]) (h.lawful.concat trivial) ?_
      intro x hx hready
      refine ⟨_,Eq.trans (ledger_concat rfl) (congrArg (fun l => Ledger.enter l _) hx),?_,rfl,?_⟩
      · exact Nat.le_succ _
      · intro err' heq
        obtain rfl := Except.error.inj heq
        exact ⟨rfl,fun hr => by simp [hr]⟩
    · have hserve : serve weather (.prepare e.id job) w = (.ok (),w) := by
        simp only [serve,hp]
      rw [hserve]
      exact h.silent rfl
  | submit id job =>
    obtain ⟨e,rest,rfl,rfl⟩ := hok
    have hlog : Counts (.taken e rest) (serve weather (.submit e.id job) w).2 history :=
      h.frame le_rfl (fun _ h => h) (fun _ _ h => h)
    have hlaw : ∀ r, r.Allowed (ledger (history ++ [.handed e.id w.now]) r.id) →
        Lawful (history ++ [.handed e.id w.now,r]) := by
      intro r hr
      simpa using h.lawful_handed.concat hr
    rcases hm : weather.smtp with m | m
    · have hserve : (serve weather (.submit e.id job) w).1 = .error m := hm
      rw [hserve]
      refine hlog.tried (by simp [OutboxCall.history,SendRecord.id]) (hlaw _ trivial) ?_
      intro x hx hready
      refine ⟨_,Eq.trans (ledger_pair rfl rfl) (congrArg
        (fun l => Ledger.enter (Ledger.enter l _) _) hx),le_rfl,rfl,fun err heq => ?_⟩
      obtain rfl := Except.error.inj heq
      exact ⟨rfl,fun hr => by simp [hr]⟩
    · have hserve : (serve weather (.submit e.id job) w).1 = .ok m := hm
      rw [hserve]
      refine hlog.tried (by simp [OutboxCall.history,SendRecord.id]) (hlaw _ trivial) ?_
      intro x hx hready
      exact ⟨_,Eq.trans (ledger_pair rfl rfl) (congrArg
        (fun l => Ledger.enter (Ledger.enter l _) _) hx),le_rfl,rfl,fun err heq => by simp at heq⟩
  | delete id =>
    obtain ⟨e,m,rest,rfl,rfl⟩ := hok
    have hrest := (h.rest rfl).1
    rcases hst : weather.statement with _ | m
    · rw [serve_delete_row hst]
      have hgone : Counts (.pending rest) { w with rows := (w.rows.delete e.id).2 } history := by
        refine hrest.frame le_rfl (fun _ h => h) (fun k r hr => ?_)
        rw [Outbox.get_delete] at hr
        split at hr
        · simp at hr
        · exact hr
      exact hgone.silent rfl
    · rw [serve_delete_fails hst]
      exact hrest.silent rfl
  | markRetry id delay reason =>
    obtain ⟨e,err,rest,rfl,rfl,rfl,hretry⟩ := hok
    rcases hst : weather.statement with _ | m
    · rw [serve_markRetry hst]
      exact h.markRetry hretry reason
    · rw [serve_markRetry_fails hst]
      exact (h.rest rfl).1.silent rfl
  | markFailed id reason =>
    obtain ⟨e,err,rest,rfl,rfl,-⟩ := hok
    rcases hst : weather.statement with _ | m
    · rw [serve_markFailed hst]
      exact (h.markFailed reason).silent rfl
    · rw [serve_markFailed_fails hst]
      exact (h.rest rfl).1.silent rfl
  | publish e =>
    rw [SendStance.next_publish]
    have htold : Counts g (serve weather (.publish e) w).2 history :=
      h.frame le_rfl (fun _ h => h) (fun _ _ h => h)
    exact htold.silent rfl
  | get id => exact hok.elim
  | respond id r => exact hok.elim

namespace QueueSystem

variable {s s' : QueueSystem}

/-- The worker and the handlers keep to what they may do, and the count is right. -/
structure CountInv (s : QueueSystem) : Prop where
  orderly : s.Orderly
  counts : Counts s.stance s.world s.history

theorem countInv_opening : opening.CountInv := by
  refine ⟨orderly_opening,lawful_nil,fun id x hx => ?_,fun id r hr => ?_,List.nodup_nil,
    fun e he => (List.not_mem_nil he).elim,fun e rest hg => ?_,fun e sent rest hg => ?_⟩
  · simp [opening,ledger] at hx
  · simp [opening,Outbox.get_eq_some,Table.empty] at hr
  · simp [opening,stance] at hg
  · simp [opening,stance] at hg

theorem CountInv.step {e : QueueEvent} (h : s.CountInv) (he : s.step e = some s') :
    s'.CountInv := by
  refine ⟨h.orderly.step he,?_⟩
  cases e with
  | enqueue e =>
    simp only [QueueSystem.step] at he
    split at he
    · simp at he
    · next hnew =>
      obtain ⟨t,ht,rfl⟩ := Option.map_eq_some_iff.mp he
      exact h.counts.enqueue hnew ht
  | requeue id =>
    obtain rfl := Option.some.inj he
    unfold requeue
    dsimp only
    split
    · next hdone =>
      obtain ⟨r,hr,hst⟩ := Outbox.requeue_fst.mp hdone
      exact h.counts.requeue hr hst
    · exact h.counts
  | tick secs =>
    obtain rfl := Option.some.inj he
    exact h.counts.frame (Nat.le_add_right _ _) (fun _ h => h) (fun _ _ h => h)
  | wake =>
    simp only [QueueSystem.step] at he
    split at he
    · simp at he
    · obtain rfl := Option.some.inj he
      exact h.counts.idle
  | work weather =>
    simp only [QueueSystem.step] at he
    split at he
    · next g c k hw =>
      obtain rfl := Option.some.inj he
      have hstance : s.stance = g := by rw [stance,hw]
      have hcounts := h.counts
      rw [hstance] at hcounts
      exact hcounts.work (h.orderly.allowed hw)
    · simp at he
  | cancel id =>
    obtain rfl := Option.some.inj he
    exact h.counts
  | handle i weather =>
    simp only [QueueSystem.step] at he
    split at he
    · next c k ht =>
      obtain rfl := Option.some.inj he
      have hissued : (serve weather c s.world).2.issued = s.world.issued := serve_issued
      exact h.counts.frame serve_now.ge (fun id hid => hissued ▸ hid)
        (fun id r hr => get_serve_of_handles (h.orderly.handles ht) hr)
    · simp at he
  | crash =>
    obtain rfl := Option.some.inj he
    exact h.counts.idle

end QueueSystem

/-- In every run, whatever fails and whenever it crashes, an entry is handed to SMTP only when it
is due, at most `maxAttempts` times between one queueing by the user and the next, not after it was
sent and not after it was refused for good until the user requeues it; each retry is put off by the
backoff of the attempts so far, which never falls from one attempt to the next nor passes its
cap. -/
theorem attempts_bounded {es : List QueueEvent} {s : QueueSystem}
    (h : Run QueueSystem.step (fun _ _ => True) QueueSystem.opening es s) :
    Lawful s.history ∧ ∀ k, backoffDuration k ≤ backoffDuration (k+1) ∧ backoffDuration k ≤ 1800 :=
  ⟨(h.invariant QueueSystem.countInv_opening
    (fun _ _ _ hi _ he => QueueSystem.CountInv.step hi he)).counts.lawful,
    fun k => ⟨backoffDuration_mono k,backoffDuration_le k⟩⟩

/-! ### Samples -/

/-- SMTP refuses for now, and for good. -/
def busyServer : OutboxWeather := ⟨none,.ok (),.error "Connection refused"⟩

def wrongPassword : OutboxWeather := ⟨none,.ok (),.error "Authentication failed: 535"⟩

open QueueEvent in
/-- A mail is put off once, refused, requeued and sent. -/
def retriedAndSent : List QueueEvent :=
  [enqueue (plainEntry "a"),tick 5,wake] ++ List.replicate 7 (work busyServer) ++
    [tick 30,wake] ++ List.replicate 8 (work wrongPassword) ++
    [requeue "a",wake] ++ List.replicate 8 (work smooth)

theorem attempts_bounded_retriedAndSent :
    ∃ s, Run QueueSystem.step (fun _ _ => True) QueueSystem.opening retriedAndSent s ∧
      s.history = [.enqueued "a" 5,.handed "a" 5,.refused "a" true,.rescheduled "a" 5 35,
        .handed "a" 35,.refused "a" false,.requeued "a" 35,.handed "a" 35,.sent "a"] ∧
      Lawful s.history := by
  have hv : (execWhere QueueSystem.step (fun _ _ => True) QueueSystem.opening
      retriedAndSent).map QueueSystem.history =
        some [.enqueued "a" 5,.handed "a" 5,.refused "a" true,.rescheduled "a" 5 35,
          .handed "a" 35,.refused "a" false,.requeued "a" 35,.handed "a" 35,.sent "a"] := by
    decide +kernel
  obtain ⟨s,hrun,hl⟩ := run_of_map_execWhere hv
  exact ⟨s,hrun,hl,(attempts_bounded hrun).1⟩

end Rav
