import Rav.Runs
import Rav.Realtime.OutboxWorker

/-!
# Undoing a send

A worker's rounds, delete handlers, enqueues and retries over one queue, statement by statement.
A round works through the entries it has listed; nothing takes an entry off its hands. So a
cancelled entry stays unsent exactly as long as no handler deletes an entry that a round still
has before it.

## Main definitions

- `Stance` — what a task in progress has in hand
- `OutboxSystem`, `OutboxEvent`, `OutboxSystem.step` — tasks in progress over a queue
- `OutboxSystem.HandsOff` — no handler deletes what a round has before it
- `NeverAfterwards` — nothing is submitted after its cancellation was acknowledged
-/

namespace Rav

/-- What a task has in hand: a round the entries it has yet to submit, a delete handler the entry
it has seen and then the entry it has deleted. -/
inductive Stance
  | worker (pending : List String)
  | request
  | found (id : String)
  | deleted (id : String)
  deriving DecidableEq

namespace Stance

def pending : Stance → List String
  | .worker p => p
  | _ => []

def next : Stance → (c : OutboxCall) → c.Answer → Stance
  | .worker _, .listDue, .ok (due : List OutboxEntry) => .worker (due.map OutboxEntry.id)
  | .worker p, .markSending id, .error _ => .worker (p.erase id)
  | .worker p, .prepare id _, .error _ => .worker (p.erase id)
  | .worker p, .submit id _, _ => .worker (p.erase id)
  | .request, .get id, .ok (some _) => .found id
  | .found id, .delete _, .ok _ => .deleted id
  | g, _, _ => g

/-- A round submits what it has before it; a handler deletes what it has seen and acknowledges
what it has deleted. -/
def Allows : Stance → OutboxCall → Prop
  | .worker p, .submit id _ => id ∈ p
  | _, .submit _ _ => False
  | .worker _, .delete _ => True
  | .found k, .delete id => id = k
  | _, .delete _ => False
  | .deleted k, .respond id (.ok _) => id = k
  | _, .respond _ (.ok _) => False
  | _, _ => True

end Stance

/-- A task in progress. -/
abbrev OutboxJob := Stance × OutboxTask Unit

structure OutboxSystem where
  world : OutboxWorld
  tasks : List OutboxJob

inductive OutboxEvent
  | enqueue (e : NewOutboxEntry)
  | requeue (id : String)
  | tick (secs : Nat)
  | wake
  | cancel (id : String)
  | call (i : Nat) (weather : OutboxWeather)

namespace OutboxSystem

variable (s : OutboxSystem)

/-- The entries some round has yet to submit. -/
def pending : List String := s.tasks.flatMap (fun t => t.1.pending)

/-- Whether a round is under way. -/
def busy : Bool :=
  s.tasks.any (fun t => match t with
    | (.worker _,.call _ _) => true
    | _ => false)

/-- One event. An id is given out once; a round starts when the last is over. -/
def step : OutboxEvent → Option OutboxSystem
  | .enqueue e =>
    if e.id ∈ s.world.issued then none
    else (s.world.rows.enqueue e s.world.now).map (fun t =>
      { s with world := { s.world with rows := t, issued := e.id :: s.world.issued } })
  | .requeue id =>
    some { s with world := { s.world with rows := (s.world.rows.requeue id s.world.now).2 } }
  | .tick secs => some { s with world := { s.world with now := s.world.now + secs } }
  | .wake => if s.busy then none else some { s with tasks := s.tasks ++ [(.worker [],workerCycle)] }
  | .cancel id => some { s with tasks := s.tasks ++ [(.request,deleteHandler id)] }
  | .call i weather =>
    match s.tasks[i]? with
    | some (g,.call c k) =>
      let r := serve weather c s.world
      some ⟨r.2,s.tasks.set i (g.next c r.1,k r.1)⟩
    | _ => none

/-- No handler deletes an entry that a round has yet to submit. -/
def HandsOff : OutboxEvent → Prop
  | .call i weather =>
    match s.tasks[i]? with
    | some (.found _,.call (.delete id) _) => weather.statement = none → id ∉ s.pending
    | _ => True
  | _ => True

instance (e : OutboxEvent) : Decidable (s.HandsOff e) := by
  unfold HandsOff
  split
  · split <;> infer_instance
  · infer_instance

/-- An empty queue. -/
def opening : OutboxSystem := ⟨⟨.empty,0,[],[],[]⟩,[]⟩

end OutboxSystem

/-- Nothing is submitted after its cancellation has been acknowledged. -/
def NeverAfterwards (log : List OutboxRecord) : Prop :=
  log.Pairwise (fun a b => ∀ id, a = .acknowledged id → b ≠ .submitted id)

/-! ### What each task may do -/

/-- The task keeps to what its stance allows. -/
abbrev Keeps (Q : Stance → Prop) (g : Stance) (t : OutboxTask Unit) : Prop :=
  t.Follows Stance.Allows Stance.next (fun g _ => Q g) g

theorem follows_performSend (id : String) (job : SendJob) (rest : List String) :
    (performSend id job).Follows Stance.Allows Stance.next (fun g _ => g = .worker rest)
      (.worker (id :: rest)) := by
  have herase : (id :: rest).erase id = rest := List.erase_cons_head _ _
  refine Prog.Follows.perform_bind trivial (fun r => ?_)
  rcases r with e | _
  · exact congrArg Stance.worker herase
  · refine Prog.Follows.perform_bind List.mem_cons_self (fun r => ?_)
    rcases r with e | m
    · exact congrArg Stance.worker herase
    · exact congrArg Stance.worker herase

theorem keeps_settleEntry (entry : OutboxEntry) (sent : Except AppError String)
    (rest : List String) : Keeps (· = .worker rest) (.worker rest) (settleEntry entry sent) := by
  cases sent with
  | ok m => exact ⟨trivial,fun r => ⟨trivial,fun _ => rfl⟩⟩
  | error e =>
    exact Prog.Follows.ite (fun _ => ⟨trivial,fun r => rfl⟩)
      (fun _ => ⟨trivial,fun r => ⟨trivial,fun _ => rfl⟩⟩)

theorem keeps_processEntry (entry : OutboxEntry) (rest : List String) :
    Keeps (· = .worker rest) (.worker (entry.id :: rest)) (processEntry entry) := by
  refine Prog.Follows.perform_bind trivial (fun r => ?_)
  rcases r with e | _
  · exact congrArg Stance.worker (List.erase_cons_head _ _)
  · refine Prog.Follows.perform_bind trivial (fun _ => ?_)
    refine (follows_performSend entry.id entry.job rest).bind (fun g sent hg => ?_)
    rw [hg]
    exact keeps_settleEntry entry sent rest

theorem keeps_processEntries (due : List OutboxEntry) :
    Keeps (· = .worker []) (.worker (due.map OutboxEntry.id)) (processEntries due) := by
  induction due with
  | nil => exact rfl
  | cons entry rest ih =>
    refine (keeps_processEntry entry _).bind (fun g _ hg => ?_)
    rw [hg]
    exact ih

theorem keeps_workerCycle : Keeps (fun _ => True) (.worker []) workerCycle := by
  refine Prog.Follows.perform_bind trivial (fun r => ?_)
  rcases r with e | due
  · trivial
  · refine (keeps_processEntries due).bind (fun g _ hg => ?_)
    rw [hg]
    exact ⟨trivial,fun _ => trivial⟩

theorem keeps_deleteHandler (id : String) : Keeps (fun _ => True) .request (deleteHandler id) := by
  refine Prog.Follows.perform_bind trivial (fun r => ?_)
  rcases r with e | _ | entry
  · exact ⟨trivial,fun _ => trivial⟩
  · exact ⟨trivial,fun _ => trivial⟩
  · refine Prog.Follows.ite (fun _ => ⟨trivial,fun _ => trivial⟩) (fun _ => ?_)
    refine Prog.Follows.perform_bind rfl (fun r => ?_)
    rcases r with e | _
    · exact ⟨trivial,fun _ => trivial⟩
    · exact ⟨trivial,fun _ => ⟨rfl,fun _ => trivial⟩⟩

/-! ### What one call does -/

/-- What a call leaves on record. -/
def OutboxCall.records : OutboxCall → List OutboxRecord
  | .submit id _ => [.submitted id]
  | .respond id (.ok _) => [.acknowledged id]
  | _ => []

section Serve

variable {weather : OutboxWeather} {w : OutboxWorld} {c : OutboxCall} {g : Stance} {k : String}

theorem serve_log : (serve weather c w).2.log = w.log ++ c.records := by
  cases c with
  | respond id r => cases r <;> simp [serve,OutboxCall.records]
  | prepare id job => simp [serve,OutboxCall.records]
  | submit id job => rfl
  | publish e => simp [serve,OutboxCall.records]
  | _ => exact OutboxWeather.run_frame.2.2.trans (List.append_nil _).symm

theorem run_ids {α : Type} {f : Outbox → α × Outbox} (hf : ∀ t, k ∈ (f t).2.ids → k ∈ t.ids)
    (h : k ∈ (weather.run w f).2.rows.ids) : k ∈ w.rows.ids := by
  unfold OutboxWeather.run at h
  split at h
  · exact h
  · exact hf _ h

/-- No call adds an entry. -/
theorem serve_ids (h : k ∈ (serve weather c w).2.rows.ids) : k ∈ w.rows.ids := by
  cases c with
  | respond id r => cases r <;> exact h
  | prepare id job => exact h
  | submit id job => exact h
  | publish e => exact h
  | delete id => exact run_ids (fun t ht => (Outbox.mem_ids_delete.mp ht).1) h
  | markSending id => exact run_ids (fun t ht => by simpa using ht) h
  | markRetry id d r => exact run_ids (fun t ht => by simpa using ht) h
  | markFailed id r => exact run_ids (fun t ht => by simpa using ht) h
  | _ => exact run_ids (fun _ => id) h

theorem due_of_serve {due : List OutboxEntry} (h : (serve weather .listDue w).1 = .ok due) :
    due = w.rows.listDue w.now := by
  simp only [serve,OutboxWeather.run] at h
  split at h
  · simp at h
  · exact (Except.ok.inj h).symm

theorem serve_get {e : OutboxEntry} (h : (serve weather (.get k) w).1 = .ok (some e)) :
    w.rows.get k = some e := by
  simp only [serve,OutboxWeather.run] at h
  split at h
  · simp at h
  · exact Except.ok.inj h

theorem serve_delete {b : Bool} (h : (serve weather (.delete k) w).1 = .ok b) :
    weather.statement = none ∧ (serve weather (.delete k) w).2.rows = (w.rows.delete k).2 := by
  simp only [serve,OutboxWeather.run] at h ⊢
  split at h
  · simp at h
  · next hs => exact ⟨hs,rfl⟩

/-- A round only takes on entries of the queue. -/
theorem pending_next (h : k ∈ (g.next c (serve weather c w).1).pending) :
    k ∈ g.pending ∨ k ∈ w.rows.ids := by
  generalize hr : (serve weather c w).1 = r at h
  cases g with
  | worker p =>
    cases c with
    | listDue =>
      rcases r with e | due
      · exact Or.inl h
      · obtain ⟨e,he,rfl⟩ := List.mem_map.mp h
        rw [due_of_serve hr] at he
        exact Or.inr (Outbox.mem_ids_of_listDue he)
    | markSending id =>
      rcases r with e | _
      · exact Or.inl (List.mem_of_mem_erase h)
      · exact Or.inl h
    | prepare id job =>
      rcases r with e | _
      · exact Or.inl (List.mem_of_mem_erase h)
      · exact Or.inl h
    | submit id job => exact Or.inl (List.mem_of_mem_erase h)
    | _ => exact Or.inl h
  | request =>
    cases c with
    | get id => rcases r with e | _ | entry <;> exact Or.inl h
    | _ => exact Or.inl h
  | found id =>
    cases c with
    | delete k' => rcases r with e | _ <;> exact Or.inl h
    | _ => exact Or.inl h
  | deleted id => exact Or.inl h

/-- A handler has seen what it has found. -/
theorem found_next (h : g.next c (serve weather c w).1 = .found k) :
    g = .found k ∨ k ∈ w.rows.ids := by
  generalize hr : (serve weather c w).1 = r at h
  cases g with
  | worker p =>
    exfalso
    cases c with
    | listDue => rcases r with e | _ <;> simp [Stance.next] at h
    | markSending id => rcases r with e | _ <;> simp [Stance.next] at h
    | prepare id job => rcases r with e | _ <;> simp [Stance.next] at h
    | _ => simp [Stance.next] at h
  | request =>
    cases c with
    | get id =>
      rcases r with e | _ | entry
      · exact Or.inl h
      · exact Or.inl h
      · obtain rfl := Stance.found.inj h
        exact Or.inr (Outbox.mem_ids_of_get (serve_get hr))
    | _ => exact Or.inl h
  | found id =>
    cases c with
    | delete k' =>
      rcases r with e | _
      · exact Or.inl h
      · simp [Stance.next] at h
    | _ => exact Or.inl h
  | deleted id => exact Or.inl h

/-- A handler has removed what it has deleted. -/
theorem deleted_next (hok : g.Allows c) (h : g.next c (serve weather c w).1 = .deleted k) :
    g = .deleted k ∨
      g = .found k ∧ c = .delete k ∧ weather.statement = none ∧
        k ∉ (serve weather c w).2.rows.ids := by
  generalize hr : (serve weather c w).1 = r at h
  cases g with
  | worker p =>
    exfalso
    cases c with
    | listDue => rcases r with e | _ <;> simp [Stance.next] at h
    | markSending id => rcases r with e | _ <;> simp [Stance.next] at h
    | prepare id job => rcases r with e | _ <;> simp [Stance.next] at h
    | _ => simp [Stance.next] at h
  | request =>
    cases c with
    | get id =>
      rcases r with e | _ | entry
      · exact Or.inl h
      · exact Or.inl h
      · simp [Stance.next] at h
    | _ => exact Or.inl h
  | found id =>
    cases c with
    | delete k' =>
      rcases r with e | _
      · exact Or.inl h
      · obtain rfl := Stance.deleted.inj h
        obtain rfl : k' = id := hok
        obtain ⟨hs,hrows⟩ := serve_delete hr
        refine Or.inr ⟨rfl,rfl,hs,fun hk => ?_⟩
        rw [hrows] at hk
        exact (Outbox.mem_ids_delete.mp hk).2 rfl
    | _ => exact Or.inl h
  | deleted id => exact Or.inl h

end Serve

/-! ### The system -/

namespace OutboxSystem

variable {s s' : OutboxSystem}

theorem mem_pending {k : String} : k ∈ s.pending ↔ ∃ t ∈ s.tasks, k ∈ t.1.pending :=
  List.mem_flatMap

/-- The entry is gone for good: out of the queue, off every round's hands, its id given out. -/
structure Dead (s : OutboxSystem) (k : String) : Prop where
  issued : k ∈ s.world.issued
  rows : k ∉ s.world.rows.ids
  pending : k ∉ s.pending

structure Inv (s : OutboxSystem) : Prop where
  issued : ∀ k ∈ s.world.rows.ids, k ∈ s.world.issued
  keeps : ∀ t ∈ s.tasks, Keeps (fun _ => True) t.1 t.2
  found : ∀ t ∈ s.tasks, ∀ k, t.1 = .found k → k ∈ s.world.issued
  deleted : ∀ t ∈ s.tasks, ∀ k, t.1 = .deleted k → s.Dead k
  acknowledged : ∀ k, .acknowledged k ∈ s.world.log → s.Dead k
  safe : NeverAfterwards s.world.log

/-- What keeps the queue's ids, the rounds' hands and the log keeps the invariant. -/
theorem Inv.of_world {w : OutboxWorld} (h : s.Inv) (hi : w.issued = s.world.issued)
    (hr : w.rows.ids = s.world.rows.ids) (hl : w.log = s.world.log) :
    Inv { s with world := w } := by
  have hdead : ∀ k, s.Dead k → Dead { s with world := w } k :=
    fun k hk => ⟨hi ▸ hk.issued,hr ▸ hk.rows,hk.pending⟩
  refine ⟨fun k hk => ?_,h.keeps,fun t ht k hk => ?_,fun t ht k hk => hdead k (h.deleted t ht k hk),
    fun k hk => ?_,hl ▸ h.safe⟩
  · rw [hi]
    exact h.issued k (hr ▸ hk)
  · rw [hi]
    exact h.found t ht k hk
  · rw [hl] at hk
    exact hdead k (h.acknowledged k hk)

/-- A task starts with nothing in hand. -/
theorem Inv.start {g : Stance} {t : OutboxTask Unit} (h : s.Inv) (ht : Keeps (fun _ => True) g t)
    (hp : g.pending = []) (hf : ∀ k, g ≠ .found k) (hd : ∀ k, g ≠ .deleted k) :
    Inv { s with tasks := s.tasks ++ [(g,t)] } := by
  have hpending : pending { s with tasks := s.tasks ++ [(g,t)] } = s.pending := by
    simp [pending,hp]
  have hdead : ∀ k, s.Dead k → Dead { s with tasks := s.tasks ++ [(g,t)] } k :=
    fun k hk => ⟨hk.issued,hk.rows,hpending ▸ hk.pending⟩
  have hmem : ∀ u ∈ s.tasks ++ [(g,t)], u ∈ s.tasks ∨ u = (g,t) :=
    fun u hu => (List.mem_append.mp hu).imp id List.mem_singleton.mp
  refine ⟨h.issued,fun u hu => ?_,fun u hu k hk => ?_,fun u hu k hk => ?_,
    fun k hk => hdead k (h.acknowledged k hk),h.safe⟩
  · rcases hmem u hu with hu | rfl
    · exact h.keeps u hu
    · exact ht
  · rcases hmem u hu with hu | rfl
    · exact h.found u hu k hk
    · exact absurd hk (hf k)
  · rcases hmem u hu with hu | rfl
    · exact hdead k (h.deleted u hu k hk)
    · exact absurd hk (hd k)

/-- A new entry takes a new id. -/
theorem Inv.enqueue {e : NewOutboxEntry} {t : Outbox} (h : s.Inv) (hn : e.id ∉ s.world.issued)
    (ht : s.world.rows.enqueue e s.world.now = some t) :
    Inv { s with world := { s.world with rows := t, issued := e.id :: s.world.issued } } := by
  have hdead : ∀ k, s.Dead k →
      Dead { s with world := { s.world with rows := t, issued := e.id :: s.world.issued } } k := by
    intro k hk
    refine ⟨List.mem_cons_of_mem _ hk.issued,fun hr => ?_,hk.pending⟩
    rcases (Outbox.mem_ids_enqueue ht).mp hr with hr | rfl
    · exact hk.rows hr
    · exact hn hk.issued
  refine ⟨fun k hk => ?_,h.keeps,fun u hu k hk => List.mem_cons_of_mem _ (h.found u hu k hk),
    fun u hu k hk => hdead k (h.deleted u hu k hk),fun k hk => hdead k (h.acknowledged k hk),h.safe⟩
  rcases (Outbox.mem_ids_enqueue ht).mp hk with hk | rfl
  · exact List.mem_cons_of_mem _ (h.issued k hk)
  · exact List.mem_cons_self

/-- One call of one task: what is dead stays dead. -/
theorem Dead.call {i : Nat} {g : Stance} {c : OutboxCall} {p : c.Answer → OutboxTask Unit}
    {weather : OutboxWeather} {k : String} (h : s.Dead k)
    (ht : s.tasks[i]? = some (g,.call c p)) :
    Dead ⟨(serve weather c s.world).2,s.tasks.set i
      (g.next c (serve weather c s.world).1,p (serve weather c s.world).1)⟩ k := by
  refine ⟨serve_issued.symm ▸ h.issued,fun hr => h.rows (serve_ids hr),fun hp => ?_⟩
  obtain ⟨u,hu,hk⟩ := mem_pending.mp hp
  rcases List.mem_or_eq_of_mem_set hu with hu | rfl
  · exact h.pending (mem_pending.mpr ⟨u,hu,hk⟩)
  · rcases pending_next hk with hk | hk
    · exact h.pending (mem_pending.mpr ⟨_,List.mem_of_getElem? ht,hk⟩)
    · exact h.rows hk

theorem Inv.call {i : Nat} {g : Stance} {c : OutboxCall} {p : c.Answer → OutboxTask Unit}
    {weather : OutboxWeather} (h : s.Inv) (ht : s.tasks[i]? = some (g,.call c p))
    (hoff : ∀ id k, g = .found id → c = .delete k → weather.statement = none → k ∉ s.pending) :
    Inv ⟨(serve weather c s.world).2,s.tasks.set i
      (g.next c (serve weather c s.world).1,p (serve weather c s.world).1)⟩ := by
  have hmem := List.mem_of_getElem? ht
  obtain ⟨hok,hrest⟩ := h.keeps _ hmem
  have hdead : ∀ k, s.Dead k → Dead ⟨(serve weather c s.world).2,s.tasks.set i
      (g.next c (serve weather c s.world).1,p (serve weather c s.world).1)⟩ k :=
    fun k hk => hk.call ht
  refine ⟨fun k hk => ?_,fun u hu => ?_,fun u hu k hk => ?_,fun u hu k hk => ?_,fun k hk => ?_,?_⟩
  · rw [serve_issued]
    exact h.issued k (serve_ids hk)
  · rcases List.mem_or_eq_of_mem_set hu with hu | rfl
    · exact h.keeps u hu
    · exact hrest _
  · rw [serve_issued]
    rcases List.mem_or_eq_of_mem_set hu with hu | rfl
    · exact h.found u hu k hk
    · rcases found_next hk with hg | hr
      · exact h.found _ hmem k hg
      · exact h.issued k hr
  · rcases List.mem_or_eq_of_mem_set hu with hu | rfl
    · exact hdead k (h.deleted u hu k hk)
    · rcases deleted_next hok hk with hg | ⟨hg,hc,hs,hr⟩
      · exact hdead k (h.deleted _ hmem k hg)
      · -- the handler has deleted an entry no round has before it
        refine ⟨serve_issued.symm ▸ h.found _ hmem k hg,hr,fun hp => ?_⟩
        obtain ⟨v,hv,hkv⟩ := mem_pending.mp hp
        rcases List.mem_or_eq_of_mem_set hv with hv | rfl
        · exact hoff k k hg hc hs (mem_pending.mpr ⟨v,hv,hkv⟩)
        · rw [hk] at hkv
          exact absurd hkv List.not_mem_nil
  · rw [serve_log] at hk
    rcases List.mem_append.mp hk with hk | hk
    · exact hdead k (h.acknowledged k hk)
    · cases c with
      | respond id r =>
        cases r with
        | error e => simp [OutboxCall.records] at hk
        | ok m =>
          obtain rfl : k = id := by simpa [OutboxCall.records] using hk
          cases g with
          | deleted k' =>
            obtain rfl : k = k' := hok
            exact hdead k (h.deleted _ hmem k rfl)
          | _ => exact hok.elim
      | _ => simp [OutboxCall.records] at hk
  · rw [serve_log]
    refine List.pairwise_append.mpr ⟨h.safe,?_,fun a ha b hb k hak hbk => ?_⟩
    · cases c with
      | respond id r => cases r <;> simp [OutboxCall.records]
      | _ => simp [OutboxCall.records]
    · subst hak hbk
      cases c with
      | submit id job =>
        obtain rfl : k = id := by simpa [OutboxCall.records] using hb
        cases g with
        | worker p =>
          exact (h.acknowledged k ha).pending (mem_pending.mpr ⟨_,hmem,hok⟩)
        | _ => exact hok.elim
      | respond id r => cases r <;> simp [OutboxCall.records] at hb
      | _ => simp [OutboxCall.records] at hb

theorem Inv.step {e : OutboxEvent} (h : s.Inv) (hoff : s.HandsOff e)
    (he : s.step e = some s') : s'.Inv := by
  cases e with
  | enqueue e =>
    simp only [OutboxSystem.step] at he
    split at he
    · simp at he
    · next hn =>
      obtain ⟨t,ht,rfl⟩ := Option.map_eq_some_iff.mp he
      exact h.enqueue hn ht
  | requeue id =>
    obtain rfl := Option.some.inj he
    exact h.of_world rfl (by simp) rfl
  | tick secs =>
    obtain rfl := Option.some.inj he
    exact h.of_world rfl rfl rfl
  | wake =>
    simp only [OutboxSystem.step] at he
    split at he
    · simp at he
    · obtain rfl := Option.some.inj he
      exact h.start keeps_workerCycle rfl (by simp) (by simp)
  | cancel id =>
    obtain rfl := Option.some.inj he
    exact h.start (keeps_deleteHandler id) rfl (by simp) (by simp)
  | call i weather =>
    simp only [OutboxSystem.step] at he
    split at he
    · next g c k ht =>
      obtain rfl := Option.some.inj he
      refine h.call ht ?_
      rintro id k' rfl rfl
      simpa [HandsOff,ht] using hoff
    · simp at he

theorem inv_opening : opening.Inv where
  issued := by simp [opening,Outbox.ids,Table.empty]
  keeps := by simp [opening]
  found := by simp [opening]
  deleted := by simp [opening]
  acknowledged := by simp [opening]
  safe := List.Pairwise.nil

end OutboxSystem

/-- In every run in which no handler deletes an entry that a round still has before it, nothing
is submitted after its cancellation was acknowledged. -/
theorem cancelled_stays_unsent {es : List OutboxEvent} {s : OutboxSystem}
    (h : Run OutboxSystem.step OutboxSystem.HandsOff OutboxSystem.opening es s) :
    NeverAfterwards s.world.log :=
  (h.invariant OutboxSystem.inv_opening (fun _ _ _ hi hok hst => hi.step hok hst)).safe

/-! ### Samples -/

/-- One of two mails is cancelled before the round that sends the other. -/
def undoneInTime : List OutboxEvent :=
  [.enqueue (plainEntry "a"),.enqueue (plainEntry "b"),.cancel "b",
    .call 0 smooth,.call 0 smooth,.call 0 smooth,.call 0 smooth,.tick 10,.wake,
    .call 1 smooth,.call 1 smooth,.call 1 smooth,.call 1 smooth,.call 1 smooth,.call 1 smooth]

theorem cancelled_stays_unsent_undoneInTime :
    ∃ s, Run OutboxSystem.step OutboxSystem.HandsOff OutboxSystem.opening undoneInTime s ∧
      s.world.log = [.acknowledged "b",.submitted "a"] ∧ NeverAfterwards s.world.log := by
  have hv : (execWhere OutboxSystem.step OutboxSystem.HandsOff OutboxSystem.opening
      undoneInTime).map (fun s => s.world.log) = some [.acknowledged "b",.submitted "a"] := by
    decide
  obtain ⟨s,hrun,hl⟩ := run_of_map_execWhere hv
  exact ⟨s,hrun,hl,cancelled_stays_unsent hrun⟩

/-- The second of two due mails is cancelled while the round is sending the first. -/
def undoneMidway : List OutboxEvent :=
  [.enqueue (plainEntry "a"),.enqueue (plainEntry "b"),.tick 10,.wake,
    .call 0 smooth,.call 0 smooth,.call 0 smooth,.call 0 smooth,
    .cancel "b",.call 1 smooth,.call 1 smooth,.call 1 smooth,.call 1 smooth,
    .call 0 smooth,.call 0 smooth,.call 0 smooth,.call 0 smooth,.call 0 smooth,.call 0 smooth,
    .call 0 smooth]

/-- The round sends its copy of the cancelled mail. -/
theorem cancelled_mail_is_sent :
    ¬∀ (es : List OutboxEvent) (s : OutboxSystem),
      Run OutboxSystem.step (fun _ _ => True) OutboxSystem.opening es s →
        NeverAfterwards s.world.log := by
  intro hall
  have hv : (execWhere OutboxSystem.step (fun _ _ => True) OutboxSystem.opening undoneMidway).map
      (fun s => s.world.log) =
        some [.acknowledged "b",.submitted "a",.submitted "b"] := by
    decide
  obtain ⟨s,hrun,hl⟩ := run_of_map_execWhere hv
  have hsafe := hall undoneMidway s hrun
  rw [hl] at hsafe
  exact absurd rfl ((List.pairwise_cons.mp hsafe).1 (.submitted "b") (by simp) "b" rfl)

end Rav
