import Rav.DashMap
import Rav.Runs
import Rav.RwLock
import Rav.Threads

/-!
# `realtime::events`

The event bus: a broadcast channel for each user, in a map behind a readers-writer lock. Calls of
`subscribe`, `publish` and `cleanup` go on call by call, beside each other and beside receivers that
are dropped. The bus does not look at events, so they are of any type.

## Main definitions

- `EventBus`, `BusReceiver` — the bus, and the receivers it has handed out
- `subscribe`, `publish`, `cleanup`
- `BusStage` — how far a call has come, with `next`, `Allows` and what it holds of the lock
- `BusSystem`, `BusEvent`, `BusSystem.step` — calls and receivers, interleaved
-/

namespace Rav

/-- A receiver, with the events that have reached it. The bound on how many it may fall behind is
left out. -/
structure BusReceiver (ε : Type) where
  user : String
  channel : Nat
  queue : List ε
  live : Bool
  deriving DecidableEq, Repr

/-- The map of channels and its lock, the channels created so far, and the receivers. -/
structure EventBus (ε : Type) where
  lock : RwLock
  channels : DashMap String Nat
  created : Nat
  receivers : List (BusReceiver ε)

/-- The calls of the three functions; `subscribe` also names the user, for the receiver to carry. -/
inductive BusCall (ε : Type)
  | read
  | unread
  | write
  | unwrite
  | get (user : String)
  | orInsert (user : String)
  | subscribe (user : String) (tx : Nat)
  | send (tx : Nat) (event : ε)
  | receiverCount (tx : Nat)
  | remove (user : String)

def BusCall.Answer {ε : Type} : BusCall ε → Type
  | .get _ => Option Nat
  | .orInsert _ => Nat
  | .receiverCount _ => Nat
  | _ => Unit

abbrev BusTask (ε : Type) := Prog (BusCall ε) BusCall.Answer

def busCall {ε : Type} (c : BusCall ε) : BusTask ε c.Answer := Prog.perform (R := BusCall.Answer) c

variable {ε : Type}

namespace BusReceiver

/-- The receiver is attached to the channel. -/
def On (r : BusReceiver ε) (tx : Nat) : Prop := r.live = true ∧ r.channel = tx

instance (r : BusReceiver ε) (tx : Nat) : Decidable (r.On tx) := inferInstanceAs (Decidable (_ ∧ _))

end BusReceiver

namespace EventBus

/-- `entry(user).or_insert_with(..)`. -/
def orInsert (b : EventBus ε) (user : String) : Nat × EventBus ε :=
  match b.channels.get user with
  | some tx => (tx,b)
  | none =>
    (b.created,{ b with channels := b.channels.insert user b.created, created := b.created + 1 })

/-- Answer one call. A lock is only asked for while it is granted. -/
def serve : (c : BusCall ε) → EventBus ε → c.Answer × EventBus ε
  | .read, b => ((),{ b with lock := b.lock.acquireRead })
  | .unread, b => ((),{ b with lock := b.lock.releaseRead })
  | .write, b => ((),{ b with lock := b.lock.acquireWrite })
  | .unwrite, b => ((),{ b with lock := b.lock.releaseWrite })
  | .get user, b => (b.channels.get user,b)
  | .orInsert user, b => b.orInsert user
  | .subscribe user tx, b => ((),{ b with receivers := b.receivers ++ [⟨user,tx,[],true⟩] })
  | .send tx event, b =>
    ((),{ b with receivers :=
      b.receivers.map (fun r => if r.On tx then { r with queue := r.queue ++ [event] } else r) })
  | .receiverCount tx, b => (b.receivers.countP (fun r => r.On tx),b)
  | .remove user, b => ((),{ b with channels := b.channels.remove user })

/-- A receiver is dropped. -/
def dropReceiver (b : EventBus ε) (rx : Nat) : EventBus ε :=
  { b with receivers := b.receivers.modify rx (fun r => { r with live := false }) }

/-- Whether a call goes on at once, or waits for the lock. -/
def Grants (b : EventBus ε) : BusCall ε → Prop
  | .read => b.lock.GrantsRead
  | .write => b.lock.GrantsWrite
  | _ => True

instance (b : EventBus ε) (c : BusCall ε) : Decidable (b.Grants c) := by
  cases c <;> unfold Grants <;> infer_instance

def new : EventBus ε := ⟨.unlocked,.new,0,[]⟩

end EventBus

/-! ### The functions -/

/-- Subscribe to events for a user. Creates the channel if it doesn't exist. -/
def subscribe (user : String) : BusTask ε Unit := do
  busCall .read
  match ← busCall (.get user) with
  | some (tx : Nat) => do
    busCall (.subscribe user tx)
    busCall .unread
  | none => do
    busCall .unread
    busCall .write
    let tx : Nat ← busCall (.orInsert user)
    busCall (.subscribe user tx)
    busCall .unwrite

/-- Publish an event to all connected clients for a user. -/
def publish (user : String) (event : ε) : BusTask ε Unit := do
  busCall .read
  match ← busCall (.get user) with
  | some (tx : Nat) => do
    busCall (.send tx event)
    busCall .unread
  | none => busCall .unread

/-- Remove a user's channel when no more connections exist. -/
def cleanup (user : String) : BusTask ε Unit := do
  busCall .write
  match ← busCall (.get user) with
  | some (tx : Nat) => do
    let count : Nat ← busCall (.receiverCount tx)
    if count = 0 then do
      busCall (.remove user)
      busCall .unwrite
    else busCall .unwrite
  | none => busCall .unwrite

/-! ### How far a call has come -/

/-- The stages of the three functions. `publish` carries its event, and how many receivers had been
handed out when it was called. -/
inductive BusStage (ε : Type)
  | subscribing (user : String)
  | looking (user : String)
  | found (user : String) (tx : Nat)
  | attached
  | missing (user : String)
  | waiting (user : String)
  | creating (user : String)
  | created (user : String) (tx : Nat)
  | joined
  | publishing (user : String) (event : ε) (since : Nat)
  | reading (user : String) (event : ε) (since : Nat)
  | addressed (user : String) (event : ε) (since tx : Nat)
  | reached (user : String) (event : ε) (since : Nat)
  | published (user : String) (event : ε) (since : Nat)
  | sweeping (user : String)
  | checking (user : String)
  | counting (user : String) (tx : Nat)
  | emptied (user : String) (tx : Nat)
  | swept
  | done
  deriving DecidableEq

namespace BusStage

/-- What a call holds of the lock. -/
def hold : BusStage ε → Hold
  | .looking _ => .read
  | .found _ _ => .read
  | .attached => .read
  | .missing _ => .read
  | .creating _ => .write
  | .created _ _ => .write
  | .joined => .write
  | .reading _ _ _ => .read
  | .addressed _ _ _ _ => .read
  | .reached _ _ _ => .read
  | .checking _ => .write
  | .counting _ _ => .write
  | .emptied _ _ => .write
  | .swept => .write
  | _ => .free

/-- What moves a call on. -/
def next : BusStage ε → (c : BusCall ε) → c.Answer → BusStage ε
  | .subscribing user, .read, _ => .looking user
  | .looking user, .get _, some (tx : Nat) => .found user tx
  | .looking user, .get _, none => .missing user
  | .found _ _, .subscribe _ _, _ => .attached
  | .attached, .unread, _ => .done
  | .missing user, .unread, _ => .waiting user
  | .waiting user, .write, _ => .creating user
  | .creating user, .orInsert _, (tx : Nat) => .created user tx
  | .created _ _, .subscribe _ _, _ => .joined
  | .joined, .unwrite, _ => .done
  | .publishing user event since, .read, _ => .reading user event since
  | .reading user event since, .get _, some (tx : Nat) => .addressed user event since tx
  | .reading user event since, .get _, none => .reached user event since
  | .addressed user event since _, .send _ _, _ => .reached user event since
  | .reached user event since, .unread, _ => .published user event since
  | .sweeping user, .write, _ => .checking user
  | .checking user, .get _, some (tx : Nat) => .counting user tx
  | .checking _, .get _, none => .swept
  | .counting user tx, .receiverCount _, (count : Nat) => if count = 0 then .emptied user tx else .swept
  | .emptied _ _, .remove _, _ => .swept
  | .swept, .unwrite, _ => .done
  | g, _, _ => g

def Allows : BusStage ε → BusCall ε → Prop
  | g, .read => (∃ user, g = .subscribing user) ∨ ∃ user event since, g = .publishing user event since
  | g, .unread => g = .attached ∨ (∃ user, g = .missing user) ∨
      ∃ user event since, g = .reached user event since
  | g, .write => (∃ user, g = .waiting user) ∨ ∃ user, g = .sweeping user
  | g, .unwrite => g = .joined ∨ g = .swept
  | g, .get user => g = .looking user ∨ (∃ event since, g = .reading user event since) ∨
      g = .checking user
  | g, .orInsert user => g = .creating user
  | g, .subscribe user tx => g = .found user tx ∨ g = .created user tx
  | g, .send tx event => ∃ user since, g = .addressed user event since tx
  | g, .receiverCount tx => ∃ user, g = .counting user tx
  | g, .remove user => ∃ tx, g = .emptied user tx

/-- A call keeps to what its stage allows. -/
abbrev Keeps (g : BusStage ε) (t : BusTask ε Unit) : Prop :=
  t.Follows Allows next (fun _ _ => True) g

end BusStage

section Follows

variable (user : String) (event : ε) (since : Nat)

theorem keeps_subscribe : (BusStage.subscribing user).Keeps (subscribe user : BusTask ε Unit) := by
  refine Prog.Follows.perform_bind (Or.inl ⟨user,rfl⟩) (fun _ => ?_)
  refine Prog.Follows.perform_bind (Or.inl rfl) (fun (r : Option Nat) => ?_)
  cases r with
  | some tx =>
    refine Prog.Follows.perform_bind (Or.inl rfl) (fun _ => ?_)
    exact ⟨Or.inl rfl,fun _ => trivial⟩
  | none =>
    refine Prog.Follows.perform_bind (Or.inr (Or.inl ⟨user,rfl⟩)) (fun _ => ?_)
    refine Prog.Follows.perform_bind (Or.inl ⟨user,rfl⟩) (fun _ => ?_)
    refine Prog.Follows.perform_bind rfl (fun (tx : Nat) => ?_)
    refine Prog.Follows.perform_bind (Or.inr rfl) (fun _ => ?_)
    exact ⟨Or.inl rfl,fun _ => trivial⟩

theorem keeps_publish : (BusStage.publishing user event since).Keeps (publish user event) := by
  refine Prog.Follows.perform_bind (Or.inr ⟨user,event,since,rfl⟩) (fun _ => ?_)
  refine Prog.Follows.perform_bind (Or.inr (Or.inl ⟨event,since,rfl⟩)) (fun (r : Option Nat) => ?_)
  cases r with
  | some tx =>
    refine Prog.Follows.perform_bind ⟨user,since,rfl⟩ (fun _ => ?_)
    exact ⟨Or.inr (Or.inr ⟨user,event,since,rfl⟩),fun _ => trivial⟩
  | none => exact ⟨Or.inr (Or.inr ⟨user,event,since,rfl⟩),fun _ => trivial⟩

theorem keeps_cleanup : (BusStage.sweeping user).Keeps (cleanup user : BusTask ε Unit) := by
  refine Prog.Follows.perform_bind (Or.inr ⟨user,rfl⟩) (fun _ => ?_)
  refine Prog.Follows.perform_bind (Or.inr (Or.inr rfl)) (fun (r : Option Nat) => ?_)
  cases r with
  | some tx =>
    refine Prog.Follows.perform_bind ⟨user,rfl⟩ (fun (count : Nat) => ?_)
    by_cases hcount : count = 0
    · subst hcount
      refine Prog.Follows.perform_bind ⟨tx,rfl⟩ (fun _ => ?_)
      exact ⟨Or.inr rfl,fun _ => trivial⟩
    · have hrest : (BusStage.swept : BusStage ε).Keeps (busCall .unwrite) :=
        ⟨Or.inr rfl,fun _ => trivial⟩
      refine Prog.Follows.ite (fun h => absurd h hcount) (fun _ => ?_)
      show Prog.Follows _ _ _ (if count = 0 then BusStage.emptied user tx else BusStage.swept) _
      rw [if_neg hcount]
      exact hrest
  | none => exact ⟨Or.inr rfl,fun _ => trivial⟩

end Follows

/-! ### Calls and receivers, interleaved -/

abbrev BusSystem (ε : Type) := Threads (BusStage ε) (EventBus ε) (BusCall ε) BusCall.Answer Unit

/-- A function is called, goes on by one call, or is given up while it waits for the lock; or a
receiver is dropped. -/
inductive BusEvent (ε : Type)
  | subscribe (user : String)
  | publish (user : String) (event : ε)
  | cleanup (user : String)
  | call (i : Nat)
  | abandon (i : Nat)
  | drop (rx : Nat)

namespace BusSystem

variable (s : BusSystem ε)

/-- The `i`-th call goes on, unless it waits for the lock. -/
def advance (i : Nat) : Option (BusSystem ε) :=
  match s.upcoming i with
  | some (_,c) => if s.world.Grants c then s.call EventBus.serve BusStage.next i else none
  | none => none

/-- The `i`-th call is given up where it can be, at a lock. -/
def abandon (i : Nat) : Option (BusSystem ε) :=
  match s.upcoming i with
  | some (_,.read) => some ⟨s.world,s.tasks.set i (.done,pure ())⟩
  | some (_,.write) => some ⟨s.world,s.tasks.set i (.done,pure ())⟩
  | _ => none

def step : BusEvent ε → Option (BusSystem ε)
  | .subscribe user => some ⟨s.world,s.tasks ++ [(.subscribing user,Rav.subscribe user)]⟩
  | .publish user event =>
    some ⟨s.world,s.tasks ++ [(.publishing user event s.world.receivers.length,Rav.publish user event)]⟩
  | .cleanup user => some ⟨s.world,s.tasks ++ [(.sweeping user,Rav.cleanup user)]⟩
  | .call i => advance s i
  | .abandon i => abandon s i
  | .drop rx => some ⟨s.world.dropReceiver rx,s.tasks⟩

/-- A bus that is new, and nobody calling. -/
def opening : BusSystem ε := ⟨.new,[]⟩

end BusSystem

end Rav
