import Rav.Realtime.OutboxRuns

/-!
# Wake-ups of the outbox worker

The outbox worker from round to round: it runs, rests until its next deadline or its bell, and
shuts down when there is nothing to wait for and nobody rings. Around it the handlers that store an
entry, call `ensure_worker`, which holds the lock of the map's entry throughout, and ring the bell
it returns. The worker in the map is the one spawned last.

## Main definitions

- `Rest`, `workerRound` — one round, and how the worker rests after it
- `RoundStance` — what the worker has in hand in a round, and how it has decided to rest
- `OutboxLoop`, `Poster` — a spawned worker with its bell; a handler that stores, ensures and rings
- `WakeSystem`, `WakeEvent`, `WakeSystem.step` — the workers and the handlers, interleaved
-/

namespace Rav

/-- How a worker rests after a round: for a while, whatever happens; until a deadline or its bell;
or until its bell, and not for ever. -/
inductive Rest
  | retry
  | due (deadline : Nat)
  | idle
  deriving DecidableEq, Repr

def workerIdleTimeoutSecs : Nat := 600

/-- The end of a round: what there is to wait for. -/
def nextRest : OutboxTask Rest := do
  match ← outboxCall .nextSendAfter with
  | .error _ => pure .retry
  | .ok (some (deadline : Nat)) => pure (.due deadline)
  | .ok none => pure .idle

/-- One round of `worker_loop`, and how the worker rests after it. -/
def workerRound : OutboxTask Rest := do
  match ← outboxCall .listDue with
  | .error _ => pure .retry
  | .ok (due : List OutboxEntry) => do
    processEntries due
    nextRest

/-- It is the round of `workerCycle`, which forgets how the worker rests. -/
theorem workerCycle_eq : workerCycle = (workerRound >>= fun _ => pure ()) := by
  refine congrArg (Prog.call OutboxCall.listDue) (funext (fun r => ?_))
  rcases r with m | due
  · rfl
  · show (processEntries due >>= fun _ => outboxCall .nextSendAfter >>= fun _ => pure ()) =
      (processEntries due >>= fun _ => nextRest) >>= fun _ => pure ()
    rw [Prog.bind_assoc]
    refine congrArg (processEntries due >>= ·) (funext (fun _ => ?_))
    refine congrArg (Prog.call OutboxCall.nextSendAfter) (funext (fun r => ?_))
    rcases r with m | _ | deadline <;> rfl

/-- The timer of a rest has run out. -/
def Rest.Expired (since now : Nat) : Rest → Prop
  | .retry => since + workerIdleTimeoutSecs ≤ now
  | .due deadline => deadline ≤ now
  | .idle => False

instance (since now : Nat) (r : Rest) : Decidable (r.Expired since now) := by
  cases r <;> unfold Rest.Expired <;> infer_instance

/-! ### A round -/

/-- What the worker has in hand, and how it has decided to rest. -/
abbrev RoundStance := SendStance × Option Rest

namespace RoundStance

/-- The answers that end a round. -/
def decided : (c : OutboxCall) → c.Answer → Option Rest
  | .listDue, .error _ => some .retry
  | .nextSendAfter, .error _ => some .retry
  | .nextSendAfter, .ok (some (deadline : Nat)) => some (.due deadline)
  | .nextSendAfter, .ok none => some .idle
  | _, _ => none

def next (g : RoundStance) (c : OutboxCall) (r : c.Answer) : RoundStance :=
  (g.1.next c r,decided c r)

def Allows (g : RoundStance) (c : OutboxCall) : Prop := g.2 = none ∧ g.1.Allows c

end RoundStance

/-- In the middle of a round nothing is decided. -/
theorem follows_undecided {α : Type} {Q : SendStance → α → Prop} {p : OutboxTask α}
    {g : SendStance} (hp : p.Follows SendStance.Allows SendStance.next Q g)
    (hc : p.All (fun c => c ≠ .listDue ∧ c ≠ .nextSendAfter)) :
    p.Follows RoundStance.Allows RoundStance.next (fun g a => g.2 = none ∧ Q g.1 a) (g,none) := by
  induction p generalizing g with
  | pure a => exact ⟨rfl,hp⟩
  | call c k ih =>
    refine ⟨⟨rfl,hp.1⟩,fun r => ?_⟩
    have hund : RoundStance.decided c r = none := by
      obtain ⟨hlist,hnext⟩ := hc.1
      cases c with
      | listDue => exact (hlist rfl).elim
      | nextSendAfter => exact (hnext rfl).elim
      | _ => rfl
    have hnext : RoundStance.next (g,none) c r = (g.next c r,none) := Prod.ext rfl hund
    rw [hnext]
    exact ih r (hp.2 r) (hc.2 r trivial)

theorem all_processEntry (e : OutboxEntry) :
    (processEntry e).All (fun c => c ≠ .listDue ∧ c ≠ .nextSendAfter) := by
  refine Prog.AllWhere.perform_bind ⟨nofun,nofun⟩ (fun r _ => ?_)
  rcases r with m | _
  · exact trivial
  · refine Prog.AllWhere.perform_bind ⟨nofun,nofun⟩ (fun _ _ => ?_)
    refine Prog.AllWhere.bind ?_ (fun sent => ?_)
    · refine Prog.AllWhere.perform_bind ⟨nofun,nofun⟩ (fun r _ => ?_)
      rcases r with err | _
      · exact trivial
      · refine Prog.AllWhere.perform_bind ⟨nofun,nofun⟩ (fun r _ => ?_)
        rcases r with m | m <;> exact trivial
    · rcases sent with err | m
      · refine Prog.AllWhere.ite ?_ ?_
        · exact Prog.AllWhere.perform_bind ⟨nofun,nofun⟩ (fun _ _ => trivial)
        · exact Prog.AllWhere.perform_bind ⟨nofun,nofun⟩
            (fun _ _ => Prog.all_perform ⟨nofun,nofun⟩)
      · exact Prog.AllWhere.perform_bind ⟨nofun,nofun⟩ (fun _ _ => Prog.all_perform ⟨nofun,nofun⟩)

theorem all_processEntries (due : List OutboxEntry) :
    (processEntries due).All (fun c => c ≠ .listDue ∧ c ≠ .nextSendAfter) := by
  induction due with
  | nil => exact trivial
  | cons e rest ih => exact (all_processEntry e).bind (fun _ => ih)

/-- A round keeps to what its stance allows, and ends as it has decided to. -/
abbrev Rounds (g : RoundStance) (t : OutboxTask Rest) : Prop :=
  t.Follows RoundStance.Allows RoundStance.next (fun g rest => g.2 = some rest) g

theorem rounds_workerRound : Rounds (.idle,none) workerRound := by
  refine Prog.Follows.perform_bind ⟨rfl,rfl⟩ (fun r => ?_)
  rcases r with m | due
  · exact rfl
  · refine (follows_undecided (works_processEntries due) (all_processEntries due)).bind
      (fun g _ hg => ?_)
    obtain ⟨g,d⟩ := g
    obtain ⟨rfl,rfl⟩ := hg
    refine Prog.Follows.perform_bind ⟨rfl,rfl⟩ (fun r => ?_)
    rcases r with m | _ | deadline <;> exact rfl

/-! ### The system -/

/-- Where a worker is. -/
inductive LoopPhase
  | running (g : RoundStance) (t : OutboxTask Rest)
  | resting (rest : Rest) (since : Nat)
  | leaving
  | finished

/-- A spawned worker, and whether there is a ring it has not heard. -/
structure OutboxLoop where
  phase : LoopPhase
  rung : Bool

/-- A worker at the start of a round. -/
def LoopPhase.round : LoopPhase := .running (.idle,none) workerRound

def OutboxLoop.finished (l : OutboxLoop) : Bool :=
  match l.phase with
  | .finished => true
  | _ => false

/-- The worker has decided to shut down, and its task has not ended. -/
def OutboxLoop.leaving (l : OutboxLoop) : Bool :=
  match l.phase with
  | .leaving => true
  | _ => false

/-- How far a handler has come: the bell it holds is that of a worker. -/
inductive PosterStage
  | stored
  | holding (bell : Nat)
  | rung
  deriving DecidableEq, Repr

/-- A handler, and the entry it has scheduled. -/
structure Poster where
  about : Option String
  stage : PosterStage
  deriving DecidableEq, Repr

structure WakeSystem where
  world : OutboxWorld
  loops : List OutboxLoop
  posters : List Poster

/-- Handlers store an entry, requeue one, or only look after the worker; `ensure` and `ring` are
their further steps. Entries are removed and time passes. A worker makes a call, goes to rest,
hears its bell, is woken by its timer, decides to shut down, and ends. -/
inductive WakeEvent
  | enqueue (e : NewOutboxEntry)
  | requeue (id : String)
  | visit
  | remove (id : String)
  | ensure (i : Nat)
  | ring (i : Nat)
  | tick (secs : Nat)
  | work (h : Nat) (weather : OutboxWeather)
  | rest (h : Nat)
  | hear (h : Nat)
  | expire (h : Nat)
  | timeout (h : Nat)
  | finish (h : Nat)

namespace WakeSystem

variable (s : WakeSystem)

/-- The running worker's bell, or a new worker's. -/
def ensureWorker : Nat × List OutboxLoop :=
  match s.loops.getLast? with
  | some l =>
    if l.finished then (s.loops.length,s.loops ++ [⟨.round,false⟩])
    else (s.loops.length - 1,s.loops)
  | none => (s.loops.length,s.loops ++ [⟨.round,false⟩])

/-- A worker moves on. -/
def setLoop (h : Nat) (l : OutboxLoop) : WakeSystem := { s with loops := s.loops.set h l }

def step : WakeEvent → Option WakeSystem
  | .enqueue e =>
    if e.id ∈ s.world.issued then none
    else (s.world.rows.enqueue e s.world.now).map (fun t =>
      { s with
        world := { s.world with rows := t, issued := e.id :: s.world.issued }
        posters := s.posters ++ [⟨some e.id,.stored⟩] })
  | .requeue id =>
    let r := s.world.rows.requeue id s.world.now
    if r.1 then
      some { s with
        world := { s.world with rows := r.2 }, posters := s.posters ++ [⟨some id,.stored⟩] }
    else none
  | .visit => some { s with posters := s.posters ++ [⟨none,.stored⟩] }
  | .remove id => some { s with world := { s.world with rows := (s.world.rows.delete id).2 } }
  | .ensure i =>
    match s.posters[i]? with
    | some ⟨about,.stored⟩ =>
      some { s with
        loops := s.ensureWorker.2, posters := s.posters.set i ⟨about,.holding s.ensureWorker.1⟩ }
    | _ => none
  | .ring i =>
    match s.posters[i]? with
    | some ⟨about,.holding b⟩ =>
      some { s with
        loops := s.loops.modify b (fun l => { l with rung := true })
        posters := s.posters.set i ⟨about,.rung⟩ }
    | _ => none
  | .tick secs => some { s with world := { s.world with now := s.world.now + secs } }
  | .work h weather =>
    match s.loops[h]? with
    | some ⟨.running g (.call c k),b⟩ =>
      let r := serve weather c s.world
      some { s.setLoop h ⟨.running (g.next c r.1) (k r.1),b⟩ with world := r.2 }
    | _ => none
  | .rest h =>
    match s.loops[h]? with
    | some ⟨.running _ (.pure rest),b⟩ => some (s.setLoop h ⟨.resting rest s.world.now,b⟩)
    | _ => none
  | .hear h =>
    match s.loops[h]? with
    | some ⟨.resting rest _,true⟩ =>
      if rest ≠ .retry then some (s.setLoop h ⟨.round,false⟩) else none
    | _ => none
  | .expire h =>
    match s.loops[h]? with
    | some ⟨.resting rest since,b⟩ =>
      if rest.Expired since s.world.now then some (s.setLoop h ⟨.round,b⟩) else none
    | _ => none
  | .timeout h =>
    match s.loops[h]? with
    | some ⟨.resting .idle since,b⟩ =>
      if since + workerIdleTimeoutSecs ≤ s.world.now then some (s.setLoop h ⟨.leaving,b⟩) else none
    | _ => none
  | .finish h =>
    match s.loops[h]? with
    | some ⟨.leaving,b⟩ => some (s.setLoop h ⟨.finished,b⟩)
    | _ => none

/-- An empty queue, and nobody at work. -/
def opening : WakeSystem := ⟨⟨.empty,0,[],[],[]⟩,[],[]⟩

end WakeSystem

end Rav
