import Rav.DashMap
import Rav.Runs
import Rav.Threads

/-!
# `realtime::worker`

The manager of the sync workers, the workers it spawns, and calls of `ensure_worker` interleaved
with them, one lock acquisition at a time. A worker waits for its bell, runs a sync cycle, and
shuts down when nobody has rung for a while; between the decision to shut down and the end of its
task it still counts as running.

## Main definitions

- `SyncWorker`, `SyncWorkerManager` — spawned workers; the two maps, the bells and the workers
- `ensureWorker`, `poke` — a call of `ensure_worker`, and one that rings the bell
- `PokeStage` — how far a call has come, with `next` and `Allows`
- `PokeSystem`, `PokeEvent`, `PokeSystem.step` — calls and workers, interleaved
-/

namespace Rav

/-- Where a `worker_loop` is. -/
inductive WorkerPhase
  | waiting
  | cycling
  | leaving
  | finished
  deriving DecidableEq, Repr

/-- A spawned `worker_loop`, with its bell. -/
structure SyncWorker where
  user : String
  bell : Nat
  phase : WorkerPhase
  deriving DecidableEq, Repr

/-- The map of bells, the map of join handles, the bells with a ring to be heard, the workers
spawned so far, and whether each ring so far woke a worker of its user. -/
structure SyncWorkerManager where
  bells : DashMap String Nat
  tasks : DashMap String Nat
  notifies : List Bool
  spawned : List SyncWorker
  rings : List (String × Bool)

/-- The calls of `ensure_worker`, and the ring. The lock under which `running` finds a join handle
is kept while the bell is looked up, which only rules some interleavings out. -/
inductive WorkerCall
  | running (user : String)
  | getBell (user : String)
  | newNotify
  | insertBell (user : String) (bell : Nat)
  | spawn (user : String) (bell : Nat)
  | insertTask (user : String) (handle : Nat)
  | notifyOne (user : String) (bell : Nat)

def WorkerCall.Answer : WorkerCall → Type
  | .running _ => Bool
  | .getBell _ => Option Nat
  | .newNotify => Nat
  | .insertBell _ _ => Unit
  | .spawn _ _ => Nat
  | .insertTask _ _ => Unit
  | .notifyOne _ _ => Unit

abbrev WorkerTask := Prog WorkerCall WorkerCall.Answer

def workerCall (c : WorkerCall) : WorkerTask c.Answer := Prog.perform (R := WorkerCall.Answer) c

/-- A worker that a ring wakes. -/
def WorkerPhase.Works (p : WorkerPhase) : Prop := p = .waiting ∨ p = .cycling

instance (p : WorkerPhase) : Decidable p.Works := inferInstanceAs (Decidable (_ ∨ _))

namespace SyncWorkerManager

variable (m : SyncWorkerManager)

/-- `!task.is_finished()` of the task in the map. -/
def running (user : String) : Bool :=
  match (m.tasks.get user).bind (fun h => m.spawned[h]?) with
  | some w => w.phase ≠ .finished
  | none => false

/-- Whether a worker of the user listens to a bell. -/
def wakes (user : String) (bell : Nat) : Bool :=
  m.spawned.any (fun w => w.user = user ∧ w.bell = bell ∧ w.phase.Works)

/-- Answer one call. -/
def serve : (c : WorkerCall) → SyncWorkerManager → c.Answer × SyncWorkerManager
  | .running user, m => (m.running user,m)
  | .getBell user, m => (m.bells.get user,m)
  | .newNotify, m => (m.notifies.length,{ m with notifies := m.notifies ++ [false] })
  | .insertBell user bell, m => ((),{ m with bells := m.bells.insert user bell })
  | .spawn user bell, m =>
    (m.spawned.length,{ m with spawned := m.spawned ++ [⟨user,bell,.waiting⟩] })
  | .insertTask user handle, m => ((),{ m with tasks := m.tasks.insert user handle })
  | .notifyOne user bell, m =>
    ((),{ m with
      notifies := m.notifies.set bell true, rings := m.rings ++ [(user,m.wakes user bell)] })

/-- A worker moves to another phase. -/
def setPhase (h : Nat) (p : WorkerPhase) : SyncWorkerManager :=
  { m with spawned := m.spawned.modify h (fun w => { w with phase := p }) }

end SyncWorkerManager

/-! ### `ensure_worker` -/

def spawnWorker (user : String) : WorkerTask Nat := do
  let bell ← workerCall .newNotify
  workerCall (.insertBell user bell)
  let handle ← workerCall (.spawn user bell)
  workerCall (.insertTask user handle)
  pure bell

/-- Find the user's worker, or spawn one; its bell. -/
def ensureWorker (user : String) : WorkerTask Nat := do
  let running : Bool ← workerCall (.running user)
  if running then
    match ← workerCall (.getBell user) with
    | some (bell : Nat) => pure bell
    | none => spawnWorker user
  else spawnWorker user

/-- `ensure_worker(..).notify_one()`. -/
def poke (user : String) : WorkerTask Unit := do
  let bell ← ensureWorker user
  workerCall (.notifyOne user bell)

/-! ### How far a call has come -/

inductive PokeStage
  | fresh
  | found
  | missing
  | named (bell : Nat)
  | announced (bell : Nat)
  | spawned (bell handle : Nat)
  | ready (bell : Nat)
  | rung
  deriving DecidableEq

namespace PokeStage

/-- The call has found no running worker, and has not entered its own in the map. -/
def Spawning : PokeStage → Prop
  | .missing => True
  | .named _ => True
  | .announced _ => True
  | .spawned _ _ => True
  | _ => False

/-- The call has found or started a worker, and has not rung its bell. -/
def Holds : PokeStage → Prop
  | .found => True
  | .spawned _ _ => True
  | .ready _ => True
  | _ => False

instance (g : PokeStage) : Decidable g.Spawning := by
  cases g <;> unfold Spawning <;> infer_instance

instance (g : PokeStage) : Decidable g.Holds := by
  cases g <;> unfold Holds <;> infer_instance

/-- What moves a call on; with it goes the user it is for. -/
def next : String × PokeStage → (c : WorkerCall) → c.Answer → String × PokeStage
  | (u,.fresh), .running _, true => (u,.found)
  | (u,.fresh), .running _, false => (u,.missing)
  | (u,.found), .getBell _, some (b : Nat) => (u,.ready b)
  | (u,.found), .getBell _, none => (u,.missing)
  | (u,.missing), .newNotify, (b : Nat) => (u,.named b)
  | (u,.named b), .insertBell _ _, _ => (u,.announced b)
  | (u,.announced b), .spawn _ _, (h : Nat) => (u,.spawned b h)
  | (u,.spawned b _), .insertTask _ _, _ => (u,.ready b)
  | (u,.ready _), .notifyOne _ _, _ => (u,.rung)
  | g, _, _ => g

def Allows : String × PokeStage → WorkerCall → Prop
  | (u,g), .running user => user = u ∧ g = .fresh
  | (u,g), .getBell user => user = u ∧ g = .found
  | (_,g), .newNotify => g = .missing
  | (u,g), .insertBell user bell => user = u ∧ g = .named bell
  | (u,g), .spawn user bell => user = u ∧ g = .announced bell
  | (u,g), .insertTask user handle => user = u ∧ ∃ bell, g = .spawned bell handle
  | (u,g), .notifyOne user bell => user = u ∧ g = .ready bell

end PokeStage

section Follows

variable {α : Type} (u : String)

/-- A call keeps to what its stage allows. -/
abbrev Pokes (Q : String × PokeStage → α → Prop) (g : String × PokeStage) (t : WorkerTask α) :
    Prop :=
  t.Follows PokeStage.Allows PokeStage.next Q g

theorem pokes_spawnWorker :
    Pokes (fun g (b : Nat) => g = (u,.ready b)) (u,.missing) (spawnWorker u) := by
  refine Prog.Follows.perform_bind rfl (fun (b : Nat) => ?_)
  refine Prog.Follows.perform_bind ⟨rfl,rfl⟩ (fun _ => ?_)
  refine Prog.Follows.perform_bind ⟨rfl,rfl⟩ (fun (h : Nat) => ?_)
  exact Prog.Follows.perform_bind ⟨rfl,b,rfl⟩ (fun _ => rfl)

theorem pokes_ensureWorker :
    Pokes (fun g (b : Nat) => g = (u,.ready b)) (u,.fresh) (ensureWorker u) := by
  refine Prog.Follows.perform_bind ⟨rfl,rfl⟩ (fun (b : Bool) => ?_)
  cases b with
  | true =>
    refine Prog.Follows.perform_bind ⟨rfl,rfl⟩ (fun (r : Option Nat) => ?_)
    cases r with
    | some b => exact rfl
    | none => exact pokes_spawnWorker u
  | false => exact pokes_spawnWorker u

theorem pokes_poke : Pokes (fun _ _ => True) (u,.fresh) (poke u) := by
  refine (pokes_ensureWorker u).bind (fun g b hg => ?_)
  subst hg
  exact ⟨⟨rfl,rfl⟩,fun _ => trivial⟩

end Follows

/-! ### Calls and workers, interleaved -/

abbrev PokeSystem := Threads (String × PokeStage) SyncWorkerManager WorkerCall WorkerCall.Answer Unit

/-- A call starts, or goes on; a worker hears its bell, ends its cycle, decides to shut down, ends,
or panics. -/
inductive PokeEvent
  | poke (user : String)
  | call (i : Nat)
  | wake (h : Nat)
  | cycled (h : Nat)
  | timeout (h : Nat)
  | finish (h : Nat)
  | panic (h : Nat)

namespace PokeSystem

variable (s : PokeSystem)

/-- A worker in a phase moves to another. -/
def shift (h : Nat) (p q : WorkerPhase) : Option PokeSystem :=
  match s.world.spawned[h]? with
  | some w => if w.phase = p then some ⟨s.world.setPhase h q,s.tasks⟩ else none
  | none => none

/-- A waiting worker hears a ring. -/
def hear (h : Nat) : Option PokeSystem :=
  match s.world.spawned[h]? with
  | some w =>
    if w.phase = .waiting ∧ s.world.notifies[w.bell]? = some true then
      some ⟨{ s.world.setPhase h .cycling with notifies := s.world.notifies.set w.bell false },
        s.tasks⟩
    else none
  | none => none

def step : PokeEvent → Option PokeSystem
  | .poke user => some ⟨s.world,s.tasks ++ [((user,.fresh),Rav.poke user)]⟩
  | .call i => s.call SyncWorkerManager.serve PokeStage.next i
  | .wake h => hear s h
  | .cycled h => shift s h .cycling .waiting
  | .timeout h => shift s h .waiting .leaving
  | .finish h => shift s h .leaving .finished
  | .panic h => shift s h .cycling .finished

/-- No worker, and nobody calling. -/
def opening : PokeSystem := ⟨⟨.new,.new,[],[],[]⟩,[]⟩

end PokeSystem

end Rav
