import Rav.Runs
import Rav.Realtime.OutboxWorker

/-!
# Runs of the send queue

One user's queue with its worker, the delete handlers, enqueues and retries, statement by
statement, and crashes in between. The worker's stance says which entries it has before it and
what it is doing with the one in hand. The history records when an entry becomes due, when it is
handed to SMTP and what came of it.

## Main definitions

- `SendStance`, with `next` and `Allows` — what the worker has in hand, and what it may do next
- `SendRecord`, `OutboxCall.history` — what goes into the history
- `QueueSystem`, `QueueEvent`, `QueueSystem.step` — the queue and who works on it
-/

namespace Rav

/-- What the worker has in hand: the entries it has listed, the one it is submitting, and what came
of that. -/
inductive SendStance
  | idle
  | pending (due : List OutboxEntry)
  | taken (e : OutboxEntry) (rest : List OutboxEntry)
  | settled (e : OutboxEntry) (sent : Except AppError String) (rest : List OutboxEntry)

/-- Whether an entry whose sending failed is sent again. -/
def OutboxEntry.Retries (e : OutboxEntry) (err : AppError) : Prop :=
  isRetryable err = true ∧ e.attemptCount + 1 < maxAttempts

instance (e : OutboxEntry) (err : AppError) : Decidable (e.Retries err) :=
  inferInstanceAs (Decidable (_ ∧ _))

namespace SendStance

def next : SendStance → (c : OutboxCall) → c.Answer → SendStance
  | .idle, .listDue, .ok (due : List OutboxEntry) => .pending due
  | .pending (_ :: rest), .markSending _, .error _ => .pending rest
  | .pending (e :: rest), .markSending _, .ok _ => .taken e rest
  | .taken e rest, .prepare _ _, .error (err : AppError) => .settled e (.error err) rest
  | .taken e rest, .submit _ _, .ok (m : String) => .settled e (.ok m) rest
  | .taken e rest, .submit _ _, .error (m : String) =>
    .settled e (.error (.serviceUnavailable ("Failed to send email: " ++ m))) rest
  | .settled _ _ rest, .delete _, _ => .pending rest
  | .settled _ _ rest, .markRetry _ _ _, _ => .pending rest
  | .settled _ _ rest, .markFailed _ _, _ => .pending rest
  | g, _, _ => g

@[simp] theorem next_publish (g : SendStance) (e : OutboxStateChanged)
    (r : OutboxCall.Answer (.publish e)) : g.next (.publish e) r = g := by
  rcases g with _ | (_ | _) | _ | _ <;> rfl

/-- The worker takes the first entry, submits it, and settles what came of it. -/
def Allows : SendStance → OutboxCall → Prop
  | g, .listDue => g = .idle
  | g, .nextSendAfter => g = .pending []
  | g, .markSending id => ∃ e rest, g = .pending (e :: rest) ∧ id = e.id
  | g, .prepare id _ => ∃ e rest, g = .taken e rest ∧ id = e.id
  | g, .submit id _ => ∃ e rest, g = .taken e rest ∧ id = e.id
  | g, .delete id => ∃ e m rest, g = .settled e (.ok m) rest ∧ id = e.id
  | g, .markRetry id delay _ => ∃ e err rest, g = .settled e (.error err) rest ∧ id = e.id ∧
      delay = backoffDuration e.attemptCount ∧ e.Retries err
  | g, .markFailed id _ => ∃ e err rest, g = .settled e (.error err) rest ∧ id = e.id ∧
      ¬e.Retries err
  | _, .publish _ => True
  | _, _ => False

/-- The worker is submitting the entry, or settling it. -/
def Submits (id : String) : SendStance → Prop
  | .taken e _ => e.id = id
  | .settled e _ _ => e.id = id
  | _ => False

/-- The answers that move the worker on. -/
inductive Moves : SendStance → (c : OutboxCall) → c.Answer → SendStance → Prop
  | list (due : List OutboxEntry) : Moves .idle .listDue (.ok due) (.pending due)
  | skip (e : OutboxEntry) (rest : List OutboxEntry) (m : String) :
      Moves (.pending (e :: rest)) (.markSending e.id) (.error m) (.pending rest)
  | take (e : OutboxEntry) (rest : List OutboxEntry) :
      Moves (.pending (e :: rest)) (.markSending e.id) (.ok ()) (.taken e rest)
  | refuse (e : OutboxEntry) (rest : List OutboxEntry) (job : SendJob) (err : AppError) :
      Moves (.taken e rest) (.prepare e.id job) (.error err) (.settled e (.error err) rest)
  | send (e : OutboxEntry) (rest : List OutboxEntry) (job : SendJob) (m : String) :
      Moves (.taken e rest) (.submit e.id job) (.ok m) (.settled e (.ok m) rest)
  | bounce (e : OutboxEntry) (rest : List OutboxEntry) (job : SendJob) (m : String) :
      Moves (.taken e rest) (.submit e.id job) (.error m)
        (.settled e (.error (.serviceUnavailable ("Failed to send email: " ++ m))) rest)
  | clear (e : OutboxEntry) (m : String) (rest : List OutboxEntry) (r : Except String Bool) :
      Moves (.settled e (.ok m) rest) (.delete e.id) r (.pending rest)
  | retry (e : OutboxEntry) (err : AppError) (rest : List OutboxEntry) (reason : String)
      (r : Except String Unit) (h : e.Retries err) : Moves (.settled e (.error err) rest)
        (.markRetry e.id (backoffDuration e.attemptCount) reason) r (.pending rest)
  | fail (e : OutboxEntry) (err : AppError) (rest : List OutboxEntry) (reason : String)
      (r : Except String Unit) (h : ¬e.Retries err) : Moves (.settled e (.error err) rest)
        (.markFailed e.id reason) r (.pending rest)

/-- A call the worker is allowed to make moves it on, or leaves its stance. -/
theorem next_cases {g : SendStance} {c : OutboxCall} (hok : g.Allows c) (r : c.Answer) :
    g.next c r = g ∨ Moves g c r (g.next c r) := by
  cases c with
  | listDue =>
    obtain rfl : g = .idle := hok
    rcases r with m | due
    · exact Or.inl rfl
    · exact Or.inr (.list due)
  | nextSendAfter =>
    obtain rfl : g = .pending [] := hok
    exact Or.inl rfl
  | markSending id =>
    obtain ⟨e,rest,rfl,rfl⟩ := hok
    rcases r with m | _
    · exact Or.inr (.skip e rest m)
    · exact Or.inr (.take e rest)
  | prepare id job =>
    obtain ⟨e,rest,rfl,rfl⟩ := hok
    rcases r with err | _
    · exact Or.inr (.refuse e rest job err)
    · exact Or.inl rfl
  | submit id job =>
    obtain ⟨e,rest,rfl,rfl⟩ := hok
    rcases r with m | m
    · exact Or.inr (.bounce e rest job m)
    · exact Or.inr (.send e rest job m)
  | delete id =>
    obtain ⟨e,m,rest,rfl,rfl⟩ := hok
    exact Or.inr (.clear e m rest r)
  | markRetry id delay reason =>
    obtain ⟨e,err,rest,rfl,rfl,rfl,h⟩ := hok
    exact Or.inr (.retry e err rest reason r h)
  | markFailed id reason =>
    obtain ⟨e,err,rest,rfl,rfl,h⟩ := hok
    exact Or.inr (.fail e err rest reason r h)
  | publish e => exact Or.inl (next_publish g e r)
  | get id => exact hok.elim
  | respond id r => exact hok.elim

end SendStance

/-! ### What a statement does -/

section Serve

variable {weather : OutboxWeather} {w : OutboxWorld} {id : String} {e : String}

theorem serve_listDue (h : weather.statement = none) :
    serve weather .listDue w = (.ok (w.rows.listDue w.now),w) := by
  simp only [serve,OutboxWeather.run,h]
  rfl

theorem serve_listDue_fails (h : weather.statement = some e) :
    serve weather .listDue w = (.error e,w) := by
  simp only [serve,OutboxWeather.run,h]
  rfl

theorem serve_listDue_world : (serve weather .listDue w).2 = w := by
  simp only [serve,OutboxWeather.run]
  split <;> rfl

theorem serve_nextSendAfter_world : (serve weather .nextSendAfter w).2 = w := by
  simp only [serve,OutboxWeather.run]
  split <;> rfl

theorem serve_get_world : (serve weather (.get id) w).2 = w := by
  simp only [serve,OutboxWeather.run]
  split <;> rfl

theorem serve_markSending (h : weather.statement = none) :
    serve weather (.markSending id) w = (.ok (),{ w with rows := w.rows.markSending id }) := by
  simp only [serve,OutboxWeather.run,h]
  rfl

theorem serve_markSending_fails (h : weather.statement = some e) :
    serve weather (.markSending id) w = (.error e,w) := by
  simp only [serve,OutboxWeather.run,h]
  rfl

theorem serve_markRetry {delay : Nat} {reason : String} (h : weather.statement = none) :
    serve weather (.markRetry id delay reason) w =
      (.ok (),{ w with rows := w.rows.markRetry id (w.now + delay) reason }) := by
  simp only [serve,OutboxWeather.run,h]
  rfl

theorem serve_markRetry_fails {delay : Nat} {reason : String} (h : weather.statement = some e) :
    serve weather (.markRetry id delay reason) w = (.error e,w) := by
  simp only [serve,OutboxWeather.run,h]
  rfl

theorem serve_markFailed {reason : String} (h : weather.statement = none) :
    serve weather (.markFailed id reason) w =
      (.ok (),{ w with rows := w.rows.markFailed id reason }) := by
  simp only [serve,OutboxWeather.run,h]
  rfl

theorem serve_markFailed_fails {reason : String} (h : weather.statement = some e) :
    serve weather (.markFailed id reason) w = (.error e,w) := by
  simp only [serve,OutboxWeather.run,h]
  rfl

theorem serve_delete_row (h : weather.statement = none) :
    serve weather (.delete id) w =
      (.ok (w.rows.delete id).1,{ w with rows := (w.rows.delete id).2 }) := by
  simp only [serve,OutboxWeather.run,h]
  rfl

theorem serve_delete_fails (h : weather.statement = some e) :
    serve weather (.delete id) w = (.error e,w) := by
  simp only [serve,OutboxWeather.run,h]
  rfl

end Serve

/-! ### What the worker may do -/

/-- The worker keeps to what its stance allows. -/
abbrev Works (Q : SendStance → Prop) (g : SendStance) {α : Type} (t : OutboxTask α) : Prop :=
  t.Follows SendStance.Allows SendStance.next (fun g _ => Q g) g

theorem works_performSend (e : OutboxEntry) (rest : List OutboxEntry) (job : SendJob) :
    (performSend e.id job).Follows SendStance.Allows SendStance.next
      (fun g sent => g = .settled e sent rest) (.taken e rest) := by
  refine Prog.Follows.perform_bind ⟨e,rest,rfl,rfl⟩ (fun r => ?_)
  rcases r with err | _
  · exact rfl
  · refine Prog.Follows.perform_bind ⟨e,rest,rfl,rfl⟩ (fun r => ?_)
    rcases r with m | m <;> exact rfl

theorem works_settleEntry (e : OutboxEntry) (sent : Except AppError String)
    (rest : List OutboxEntry) :
    Works (· = .pending rest) (.settled e sent rest) (settleEntry e sent) := by
  rcases sent with err | m
  · refine Prog.Follows.ite (fun h => ?_) (fun h => ?_)
    · exact ⟨⟨e,err,rest,rfl,rfl,rfl,h⟩,fun r => rfl⟩
    · exact ⟨⟨e,err,rest,rfl,rfl,h⟩,fun r => ⟨trivial,fun _ => SendStance.next_publish _ _ _⟩⟩
  · exact ⟨⟨e,m,rest,rfl,rfl⟩,fun r => ⟨trivial,fun _ => SendStance.next_publish _ _ _⟩⟩

theorem works_processEntry (e : OutboxEntry) (rest : List OutboxEntry) :
    Works (· = .pending rest) (.pending (e :: rest)) (processEntry e) := by
  refine Prog.Follows.perform_bind ⟨e,rest,rfl,rfl⟩ (fun r => ?_)
  rcases r with m | _
  · exact rfl
  · refine Prog.Follows.perform_bind trivial (fun _ => ?_)
    refine (works_performSend e rest e.job).bind (fun g sent hg => ?_)
    rw [hg]
    exact works_settleEntry e sent rest

theorem works_processEntries (due : List OutboxEntry) :
    Works (· = .pending []) (.pending due) (processEntries due) := by
  induction due with
  | nil => exact rfl
  | cons e rest ih =>
    refine (works_processEntry e rest).bind (fun g _ hg => ?_)
    rw [hg]
    exact ih

/-- When a round is over, no entry is in hand. -/
theorem works_workerCycle : Works (fun g => ∀ id, ¬g.Submits id) .idle workerCycle := by
  refine Prog.Follows.perform_bind rfl (fun r => ?_)
  rcases r with m | due
  · exact fun _ => id
  · refine (works_processEntries due).bind (fun g _ hg => ?_)
    rw [hg]
    exact ⟨rfl,fun _ _ => id⟩

/-- The calls of a delete handler. -/
def OutboxCall.Handles : OutboxCall → Prop
  | .get _ => True
  | .delete _ => True
  | .publish _ => True
  | .respond _ _ => True
  | _ => False

theorem handles_deleteHandler (id : String) : (deleteHandler id).All OutboxCall.Handles := by
  refine Prog.AllWhere.perform_bind trivial (fun r _ => ?_)
  rcases r with m | _ | e
  · exact Prog.all_perform trivial
  · exact Prog.all_perform trivial
  · refine Prog.AllWhere.ite (Prog.all_perform trivial) ?_
    · refine Prog.AllWhere.perform_bind trivial (fun r _ => ?_)
      rcases r with m | b
      · exact Prog.all_perform trivial
      · exact Prog.AllWhere.perform_bind trivial (fun _ _ => Prog.all_perform trivial)

/-- A handler only removes rows. -/
theorem get_serve_of_handles {weather : OutboxWeather} {w : OutboxWorld} {c : OutboxCall}
    {id : String} {r : OutboxEntry} (hc : c.Handles)
    (h : (serve weather c w).2.rows.get id = some r) : w.rows.get id = some r := by
  cases c with
  | get k => rwa [serve_get_world] at h
  | delete k =>
    rcases hs : weather.statement with _ | e
    · rw [serve_delete_row hs,Outbox.get_delete] at h
      split at h
      · simp at h
      · exact h
    · rwa [serve_delete_fails hs] at h
  | publish e => exact h
  | respond k r => cases r <;> exact h
  | _ => exact hc.elim

/-! ### The system -/

/-- What the history of a queue records of an entry. -/
inductive SendRecord
  | enqueued (id : String) (due : Nat)
  | requeued (id : String) (due : Nat)
  | rescheduled (id : String) (now due : Nat)
  | handed (id : String) (now : Nat)
  | sent (id : String)
  | refused (id : String) (retryable : Bool)
  deriving DecidableEq, Repr

/-- What a call at a time leaves in the history, given its answer. -/
def OutboxCall.history (now : Nat) : (c : OutboxCall) → c.Answer → List SendRecord
  | .prepare id _, .error (err : AppError) => [.refused id (isRetryable err)]
  | .submit id _, .ok _ => [.handed id now,.sent id]
  | .submit id _, .error (m : String) => [.handed id now,
      .refused id (isRetryable (.serviceUnavailable ("Failed to send email: " ++ m)))]
  | .markRetry id delay _, .ok _ => [.rescheduled id now (now + delay)]
  | _, _ => []

/-- A queue, its worker and the delete handlers in progress. -/
structure QueueSystem where
  world : OutboxWorld
  worker : Option (SendStance × OutboxTask Unit)
  handlers : List (OutboxTask Unit)
  history : List SendRecord

inductive QueueEvent
  | enqueue (e : NewOutboxEntry)
  | requeue (id : String)
  | tick (secs : Nat)
  | wake
  | work (weather : OutboxWeather)
  | cancel (id : String)
  | handle (i : Nat) (weather : OutboxWeather)
  | crash

namespace QueueSystem

variable (s : QueueSystem)

/-- The user's retry of a failed entry. -/
def requeue (id : String) : QueueSystem :=
  let r := s.world.rows.requeue id s.world.now
  if r.1 then
    { s with
      world := { s.world with rows := r.2 }, history := s.history ++ [.requeued id s.world.now] }
  else s

/-- One event. An id is given out once, and a round starts when the last is over. -/
def step : QueueEvent → Option QueueSystem
  | .enqueue e =>
    if e.id ∈ s.world.issued then none
    else (s.world.rows.enqueue e s.world.now).map (fun t =>
      { s with
        world := { s.world with rows := t, issued := e.id :: s.world.issued }
        history := s.history ++ [.enqueued e.id e.sendAfter] })
  | .requeue id => some (s.requeue id)
  | .tick secs => some { s with world := { s.world with now := s.world.now + secs } }
  | .wake =>
    match s.worker with
    | some (_,.call _ _) => none
    | _ => some { s with worker := some (.idle,workerCycle) }
  | .work weather =>
    match s.worker with
    | some (g,.call c k) =>
      let r := serve weather c s.world
      some { s with
        world := r.2, worker := some (g.next c r.1,k r.1)
        history := s.history ++ c.history s.world.now r.1 }
    | _ => none
  | .cancel id => some { s with handlers := s.handlers ++ [deleteHandler id] }
  | .handle i weather =>
    match s.handlers[i]? with
    | some (.call c k) =>
      let r := serve weather c s.world
      some { s with world := r.2, handlers := s.handlers.set i (k r.1) }
    | _ => none
  | .crash => some { s with worker := none, handlers := [] }

/-- An empty queue. -/
def opening : QueueSystem := ⟨⟨.empty,0,[],[],[]⟩,none,[],[]⟩

/-- The worker's stance. -/
def stance : SendStance :=
  match s.worker with
  | some (g,_) => g
  | none => .idle

/-- Worker and handlers keep to what they may do. -/
structure Orderly : Prop where
  worker : ∀ w ∈ s.worker, Works (fun g => ∀ id, ¬g.Submits id) w.1 w.2
  handlers : ∀ t ∈ s.handlers, t.All OutboxCall.Handles

variable {s} {s' : QueueSystem}

theorem orderly_opening : opening.Orderly :=
  ⟨fun _ hw => (Option.not_mem_none _ hw).elim,fun _ ht => (List.not_mem_nil ht).elim⟩

theorem Orderly.step {e : QueueEvent} (h : s.Orderly) (he : s.step e = some s') : s'.Orderly := by
  cases e with
  | enqueue e =>
    simp only [QueueSystem.step] at he
    split at he
    · simp at he
    · obtain ⟨t,-,rfl⟩ := Option.map_eq_some_iff.mp he
      exact ⟨h.worker,h.handlers⟩
  | requeue id =>
    obtain rfl := Option.some.inj he
    unfold requeue
    dsimp only
    split
    · exact ⟨h.worker,h.handlers⟩
    · exact h
  | tick secs =>
    obtain rfl := Option.some.inj he
    exact ⟨h.worker,h.handlers⟩
  | wake =>
    simp only [QueueSystem.step] at he
    split at he
    · simp at he
    · obtain rfl := Option.some.inj he
      refine ⟨fun w hw => ?_,h.handlers⟩
      obtain rfl := Option.some.inj hw
      exact works_workerCycle
  | work weather =>
    simp only [QueueSystem.step] at he
    split at he
    · next g c k hw =>
      obtain rfl := Option.some.inj he
      refine ⟨fun w hw' => ?_,h.handlers⟩
      obtain rfl := Option.some.inj hw'
      exact (h.worker _ hw).2 _
    · simp at he
  | cancel id =>
    obtain rfl := Option.some.inj he
    refine ⟨h.worker,fun t ht => ?_⟩
    rcases List.mem_append.mp ht with ht | ht
    · exact h.handlers t ht
    · rw [List.mem_singleton.mp ht]
      exact handles_deleteHandler id
  | handle i weather =>
    simp only [QueueSystem.step] at he
    split at he
    · next c k ht =>
      obtain rfl := Option.some.inj he
      refine ⟨h.worker,fun t htm => ?_⟩
      rcases List.mem_or_eq_of_mem_set htm with htm | rfl
      · exact h.handlers t htm
      · exact (h.handlers _ (List.mem_of_getElem? ht)).2 _ trivial
    · simp at he
  | crash =>
    obtain rfl := Option.some.inj he
    exact ⟨fun _ hw => (Option.not_mem_none _ hw).elim,fun _ ht => (List.not_mem_nil ht).elim⟩

/-- What the worker is about to call, its stance allows. -/
theorem Orderly.allowed {g : SendStance} {c : OutboxCall} {k : c.Answer → OutboxTask Unit}
    (h : s.Orderly) (hw : s.worker = some (g,.call c k)) : g.Allows c :=
  (h.worker _ hw).1

theorem Orderly.handles {i : Nat} {c : OutboxCall} {k : c.Answer → OutboxTask Unit}
    (h : s.Orderly) (ht : s.handlers[i]? = some (.call c k)) : c.Handles :=
  (h.handlers _ (List.mem_of_getElem? ht)).1

end QueueSystem

end Rav
