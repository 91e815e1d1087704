import Rav.Routes.Filters
import Rav.Runs
import Rav.Threads

/-!
# The script on the server

A request writes to the database, reads the rules and the responder, and hands the script over;
others do the same in between. The script of whoever comes last is the one that stays, so it is the
one for what is stored as long as nothing has been written since it was read.

## Main definitions

- `PushStance` — what a request has written and read
- `SieveRoom`, `SieveRoom.step` — the system
- `SieveRoom.Timely`, `SieveRoom.Ok` — the condition
- `SieveRoom.Synced`, `SyncInv` — the property and the invariant
-/

namespace Rav

/-! ### Requests -/

/-- A request: it has written and has yet to hand over a script; it has met an error; its script
has yet to be activated; the rules and the responder it has read. -/
structure PushStance where
  owes : Bool
  failed : Bool
  unactivated : Bool
  rules : Option (List FilterRule)
  vacation : Option VacationResponder
  deriving DecidableEq

namespace PushStance

def initial : PushStance := ⟨false,false,false,none,none⟩

/-- An answer other than success fails the request. -/
def next (g : PushStance) : (c : SieveCall) → c.Answer → PushStance
  | .withUserDb _, .ok _ => g
  | .drawUuid, _ => g
  | .insertFilter _ _, .ok _ => { g with owes := true }
  | .getFilter _, .ok (some _) => g
  | .listFilters, .ok rules => { g with rules := some rules }
  | .updateFilter _ _, .ok (n : Nat) => { g with owes := g.owes || n ≠ 0 }
  | .deleteFilter _, .ok (n : Nat) => { g with owes := g.owes || n ≠ 0 }
  | .setPriority _ _, .ok (n : Nat) => { g with owes := g.owes || n ≠ 0 }
  | .ensureVacation, .ok _ => g
  | .updateVacation _, .ok _ => { g with owes := true }
  | .getVacation, .ok v => { g with vacation := some v }
  | .login, .ok _ => g
  | .putScript _ _, .ok _ => { g with owes := false, unactivated := true }
  | .setActive _, .ok _ => { g with unactivated := false }
  | _, _ => { g with failed := true }

/-- A request that has failed does not write, and one that has not hands over the script for what
it has read. -/
def Allows (env : SieveEnv) (g : PushStance) : SieveCall → Prop
  | .insertFilter _ _ => g.failed = false ∧ g.owes = false ∧ g.unactivated = false
  | .updateFilter _ _ => g.failed = false
  | .deleteFilter _ => g.failed = false
  | .setPriority _ _ => g.failed = false
  | .updateVacation _ => g.failed = false
  | .putScript name script => name = "rav-filters" ∧ env.sieveHost.isSome ∧ (g.failed = true ∨
      ∃ rules v, g.rules = some rules ∧ g.vacation = some v ∧
        script = generateScript rules (some v))
  | .setActive name => name = "rav-filters"
  | _ => True

/-- At the end of a request that has not failed its script has been handed over and activated. -/
def Done (env : SieveEnv) (g : PushStance) : Prop :=
  g.failed = true ∨ (g.owes = true → env.sieveHost = none) ∧ g.unactivated = false

/-- The request has not handed anything over, unless it has failed. -/
def Underway (g : PushStance) : Prop := g.failed = true ∨ g.unactivated = false

/-- Nor has it written. -/
def Idle (g : PushStance) : Prop := g.failed = true ∨ g.owes = false ∧ g.unactivated = false

theorem Idle.done {env : SieveEnv} {g : PushStance} (h : g.Idle) : g.Done env :=
  h.imp_right fun h => ⟨fun ho => absurd (h.1.symm.trans ho) nofun,h.2⟩

end PushStance

section Requests

open PushStance

variable {env : SieveEnv} {g : PushStance}

/-- Nothing a request does undoes a failure. -/
theorem failed_next (c : SieveCall) (r : c.Answer) (h : g.failed = true) :
    (g.next c r).failed = true := by
  unfold PushStance.next
  split <;> first | rfl | exact h

/-- What a failed request may still do. -/
def Plain (env : SieveEnv) : SieveCall → Prop
  | .insertFilter _ _ => False
  | .updateFilter _ _ => False
  | .deleteFilter _ => False
  | .setPriority _ _ => False
  | .updateVacation _ => False
  | .putScript name _ => name = "rav-filters" ∧ env.sieveHost.isSome
  | .setActive name => name = "rav-filters"
  | _ => True

theorem follows_failed {α : Type} {t : SieveTask α} (ht : t.All (Plain env))
    (h : g.failed = true) : t.Follows (Allows env) next (fun g' _ => g'.failed = true) g := by
  induction t generalizing g with
  | pure a => exact h
  | call c k ih =>
    refine ⟨?_,fun r => ih r (ht.2 r trivial) (failed_next c r h)⟩
    cases c with
    | insertFilter id data => exact ht.1.elim
    | updateFilter id data => exact ht.1.elim
    | deleteFilter id => exact ht.1.elim
    | setPriority id priority => exact ht.1.elim
    | updateVacation data => exact ht.1.elim
    | putScript name script => exact ⟨ht.1.1,ht.1.2,Or.inl h⟩
    | setActive name => exact ht.1
    | _ => trivial

/-! #### Pushes -/

theorem plain_pushState (rules : List FilterRule) (v : Option VacationResponder) :
    (pushState env rules v).All (Plain env) := by
  unfold pushState
  cases hhost : env.sieveHost with
  | none => trivial
  | some host =>
    have hsome : env.sieveHost.isSome = true := by rw [hhost]; rfl
    refine Prog.AllWhere.bind ?_ fun _ => trivial
    refine ⟨trivial,fun r _ => ?_⟩
    cases r with
    | error e => trivial
    | ok _ =>
      refine ⟨⟨rfl,hsome⟩,fun r _ => ?_⟩
      cases r with
      | error e => trivial
      | ok _ => exact ⟨rfl,fun _ _ => trivial⟩

/-- A push of what has been read. -/
theorem follows_pushState {rules : List FilterRule} {v : VacationResponder} (hg : g.Underway)
    (hr : g.rules = some rules) (hv : g.vacation = some v) :
    (pushState env rules (some v)).Follows (Allows env) next (fun g' _ => g'.Done env) g := by
  unfold pushState
  cases hhost : env.sieveHost with
  | none => exact hg.imp_right fun hun => ⟨fun _ => hhost,hun⟩
  | some host =>
    have hsome : env.sieveHost.isSome = true := by rw [hhost]; rfl
    refine Prog.Follows.bind (Q := fun g' _ => g'.Done env) ?_ fun g' r hg' => hg'
    refine ⟨trivial,fun r => ?_⟩
    cases r with
    | error e => exact Or.inl rfl
    | ok _ =>
      refine ⟨⟨rfl,hsome,Or.inr ⟨rules,v,hr,hv,rfl⟩⟩,fun r => ?_⟩
      cases r with
      | error e => exact Or.inl rfl
      | ok _ =>
        refine ⟨rfl,fun r => ?_⟩
        cases r with
        | error e => exact Or.inl rfl
        | ok _ => exact Or.inr ⟨nofun,rfl⟩

theorem follows_readVacation : readVacation.Follows (Allows env) next
    (fun g' r => g'.failed = true ∨ ∃ v, r = some v ∧ g' = { g with vacation := some v }) g := by
  refine ⟨trivial,fun r => ?_⟩
  cases r with
  | error e => exact Or.inl rfl
  | ok _ =>
    refine ⟨trivial,fun r => ?_⟩
    cases r with
    | error e => exact Or.inl rfl
    | ok v => exact Or.inr ⟨v,rfl,rfl⟩

theorem follows_listOrDefault : listOrDefault.Follows (Allows env) next
    (fun g' rules => g'.failed = true ∨ g' = { g with rules := some rules }) g := by
  refine ⟨trivial,fun r => ?_⟩
  cases r with
  | error e => exact Or.inl rfl
  | ok rules => exact Or.inr rfl

theorem follows_rulesToPush : rulesToPush.Follows (Allows env) next
    (fun g' rules => g'.failed = true ∨ g' = { g with rules := some rules }) g := by
  refine ⟨trivial,fun r => ?_⟩
  cases r with
  | error e => exact Or.inl rfl
  | ok _ => exact follows_listOrDefault

theorem plain_pushSieveAsync (rules : List FilterRule) : (pushSieveAsync env rules).All (Plain env) := by
  unfold pushSieveAsync
  cases env.sieveHost with
  | none => trivial
  | some host =>
    refine Prog.AllWhere.bind ?_ fun v => plain_pushState rules v
    refine ⟨trivial,fun r _ => ?_⟩
    cases r with
    | error e => trivial
    | ok _ =>
      refine ⟨trivial,fun r _ => ?_⟩
      cases r <;> trivial

/-- A push that a request on filter rules spawns. -/
theorem follows_pushSieveAsync {rules : List FilterRule} (hg : g.Underway)
    (hr : g.failed = true ∨ g.rules = some rules) :
    (pushSieveAsync env rules).Follows (Allows env) next (fun g' _ => g'.Done env) g := by
  rcases hr with hf | hr
  · exact (follows_failed (plain_pushSieveAsync rules) hf).mono fun _ _ h => Or.inl h
  unfold pushSieveAsync
  cases hhost : env.sieveHost with
  | none => exact hg.imp_right fun hun => ⟨fun _ => hhost,hun⟩
  | some host =>
    refine follows_readVacation.bind fun g' r hg' => ?_
    rcases hg' with hf | ⟨v,rfl,rfl⟩
    · exact (follows_failed (plain_pushState rules r) hf).mono fun _ _ h => Or.inl h
    · exact follows_pushState hg hr rfl

/-- A push that a request on the responder spawns. -/
theorem follows_pushVacation {v : VacationResponder} (hg : g.Underway)
    (hv : g.vacation = some v) :
    (pushVacation env v).Follows (Allows env) next (fun g' _ => g'.Done env) g := by
  unfold pushVacation
  cases hhost : env.sieveHost with
  | none => exact hg.imp_right fun hun => ⟨fun _ => hhost,hun⟩
  | some host =>
    refine follows_rulesToPush.bind fun g' rules hg' => ?_
    rcases hg' with hf | rfl
    · exact (follows_failed (plain_pushState rules _) hf).mono fun _ _ h => Or.inl h
    · exact follows_pushState hg rfl hv

/-! #### Handlers -/

theorem follows_createFilter {data : CreateFilterRule} (hfine : g.failed = false)
    (hg : g.owes = false ∧ g.unactivated = false) :
    (createFilter data).Follows (Allows env) next
      (fun g' r => g'.Underway ∧ ∀ e, r = .error e → g'.Idle) g := by
  unfold createFilter
  cases validateActions data.actions with
  | error e => exact ⟨Or.inr hg.2,fun _ _ => Or.inr hg⟩
  | ok _ =>
    refine ⟨trivial,fun id => ⟨⟨hfine,hg⟩,fun r => ?_⟩⟩
    cases r with
    | error e => exact ⟨Or.inl rfl,fun _ _ => Or.inl rfl⟩
    | ok _ =>
      refine ⟨trivial,fun r => ?_⟩
      rcases r with e | _ | rule
      · exact ⟨Or.inl rfl,fun _ _ => Or.inl rfl⟩
      · exact ⟨Or.inl rfl,fun _ _ => Or.inl rfl⟩
      · exact ⟨Or.inr hg.2,nofun⟩

/-- Listing the rules and pushing them. -/
theorem follows_listAndPush {α : Type} {f : List FilterRule → SieveTask α} (hg : g.Underway)
    (hf : ∀ rules g', g'.Underway → (g'.failed = true ∨ g'.rules = some rules) →
      (f rules).Follows (Allows env) next (fun g'' _ => g''.Done env) g') :
    (listOrDefault >>= f).Follows (Allows env) next (fun g' _ => g'.Done env) g := by
  refine follows_listOrDefault.bind fun g' rules hg' => ?_
  rcases hg' with h | rfl
  · exact hf rules g' (Or.inl h) (Or.inl h)
  · exact hf rules _ hg (Or.inr rfl)

theorem follows_createFilterHandler {body : CreateFilterRule} :
    (createFilterHandler env body).Follows (Allows env) next (fun g _ => g.Done env) initial := by
  refine ⟨trivial,fun r => ?_⟩
  cases r with
  | error e => exact Or.inl rfl
  | ok _ =>
    refine (follows_createFilter rfl ⟨rfl,rfl⟩).bind fun g r hg => ?_
    cases r with
    | error e => exact (hg.2 e rfl).done
    | ok rule =>
      refine follows_listAndPush hg.1 fun rules g' hg' hr => ?_
      exact (follows_pushSieveAsync hg' hr).bind fun g'' _ h => h

/-- A rule that is not found ends the request. -/
theorem follows_updateFilter {id : String} {data : UpdateFilterRule} (hfine : g.failed = false)
    (hg : g.owes = false ∧ g.unactivated = false) :
    (updateFilter id data).Follows (Allows env) next
      (fun g' r => g'.Underway ∧ ((∀ rule, r ≠ .ok (some rule)) → g'.Idle)) g := by
  have hget : ∀ g' : PushStance, g'.unactivated = false → (sieveCall (.getFilter id)).Follows
      (Allows env) next (fun g' r => g'.Underway ∧ ((∀ rule, r ≠ .ok (some rule)) → g'.Idle)) g' := by
    refine fun g' hun => ⟨trivial,fun r => ?_⟩
    rcases r with e | _ | rule
    · exact ⟨Or.inl rfl,fun _ => Or.inl rfl⟩
    · exact ⟨Or.inl rfl,fun _ => Or.inl rfl⟩
    · exact ⟨Or.inr hun,fun h => absurd rfl (h rule)⟩
  unfold updateFilter
  cases data.actions.elim (.ok ()) validateActions with
  | error e => exact ⟨Or.inr hg.2,fun _ => Or.inr hg⟩
  | ok _ =>
    refine Prog.Follows.ite (fun _ => hget g hg.2) fun _ => ⟨hfine,fun r => ?_⟩
    cases r with
    | error e => exact ⟨Or.inl rfl,fun _ => Or.inl rfl⟩
    | ok n => exact hget _ hg.2

theorem follows_updateFilterHandler {id : String} {body : UpdateFilterRule} :
    (updateFilterHandler env id body).Follows (Allows env) next (fun g _ => g.Done env) initial := by
  refine ⟨trivial,fun r => ?_⟩
  cases r with
  | error e => exact Or.inl rfl
  | ok _ =>
    refine (follows_updateFilter rfl ⟨rfl,rfl⟩).bind fun g r hg => ?_
    rcases r with e | _ | rule
    · exact (hg.2 fun _ => nofun).done
    · refine follows_listOrDefault.bind fun g' rules hg' => ?_
      rcases hg' with h | rfl
      · exact Or.inl h
      · exact (hg.2 fun _ => nofun).done
    · refine follows_listAndPush hg.1 fun rules g' hg' hr => ?_
      exact (follows_pushSieveAsync hg' hr).bind fun g'' _ h => h

theorem follows_deleteFilterHandler {id : String} :
    (deleteFilterHandler env id).Follows (Allows env) next (fun g _ => g.Done env) initial := by
  refine ⟨trivial,fun r => ?_⟩
  cases r with
  | error e => exact Or.inl rfl
  | ok _ =>
    refine ⟨rfl,fun r => ?_⟩
    cases r with
    | error e => exact Or.inl rfl
    | ok n =>
      refine follows_listOrDefault.bind fun g' rules hg' => ?_
      refine Prog.Follows.ite (fun hn => ?_) fun hn => ?_
      · subst hn
        rcases hg' with h | rfl
        · exact Or.inl h
        · exact Or.inr ⟨nofun,rfl⟩
      · refine Prog.Follows.bind (Q := fun g _ => g.Done env) ?_ fun g'' _ h => h
        rcases hg' with h | rfl
        · exact follows_pushSieveAsync (Or.inl h) (Or.inl h)
        · exact follows_pushSieveAsync (Or.inr rfl) (Or.inr rfl)

theorem follows_reorderFilters (ids : List String) : ∀ (i : Nat) (g : PushStance),
    g.failed = false → g.unactivated = false → (reorderFilters ids i).Follows (Allows env) next
      (fun g' r => g'.Underway ∧ ∀ e, r = .error e → g'.failed = true) g := by
  induction ids with
  | nil => exact fun i g hfine hg => ⟨Or.inr hg,nofun⟩
  | cons id ids ih =>
    refine fun i g hfine hg => ⟨hfine,fun r => ?_⟩
    cases r with
    | error e => exact ⟨Or.inl rfl,fun _ _ => rfl⟩
    | ok n => exact ih (i + 1) _ hfine hg

theorem follows_reorderFiltersHandler {ids : List String} :
    (reorderFiltersHandler env ids).Follows (Allows env) next (fun g _ => g.Done env) initial := by
  refine ⟨trivial,fun r => ?_⟩
  cases r with
  | error e => exact Or.inl rfl
  | ok _ =>
    refine (follows_reorderFilters ids 0 initial rfl rfl).bind fun g r hg => ?_
    cases r with
    | error e => exact Or.inl (hg.2 e rfl)
    | ok _ =>
      refine ⟨trivial,fun r => ?_⟩
      cases r with
      | error e => exact Or.inl rfl
      | ok rules =>
        exact (follows_pushSieveAsync (g := { g with rules := some rules }) hg.1 (Or.inr rfl)).bind
          fun g'' _ h => h

theorem follows_updateVacation {data : UpdateVacationResponder} (hfine : g.failed = false)
    (hg : g.owes = false ∧ g.unactivated = false) : (updateVacation data).Follows (Allows env) next
      (fun g' r => (∀ e, r = .error e → g'.Idle) ∧
        ∀ v, r = .ok v → g'.unactivated = false ∧ g'.vacation = some v) g := by
  have hget : ∀ g' : PushStance, g'.unactivated = false → (sieveCall .getVacation).Follows
      (Allows env) next (fun g' r => (∀ e, r = .error e → g'.Idle) ∧
        ∀ v, r = .ok v → g'.unactivated = false ∧ g'.vacation = some v) g' := by
    refine fun g' hun => ⟨trivial,fun r => ?_⟩
    cases r with
    | error e => exact ⟨fun _ _ => Or.inl rfl,nofun⟩
    | ok v => exact ⟨nofun,fun v' hv => ⟨hun,congrArg some (Except.ok.inj hv)⟩⟩
  refine ⟨trivial,fun r => ?_⟩
  cases r with
  | error e => exact ⟨fun _ _ => Or.inl rfl,nofun⟩
  | ok _ =>
    refine Prog.Follows.ite (fun _ => ⟨fun _ _ => Or.inr hg,nofun⟩) fun _ => ?_
    refine Prog.Follows.ite (fun _ => hget g hg.2) fun _ => ⟨hfine,fun r => ?_⟩
    cases r with
    | error e => exact ⟨fun _ _ => Or.inl rfl,nofun⟩
    | ok _ => exact hget _ hg.2

theorem follows_updateVacationHandler {body : UpdateVacationResponder} :
    (updateVacationHandler env body).Follows (Allows env) next (fun g _ => g.Done env) initial := by
  refine ⟨trivial,fun r => ?_⟩
  cases r with
  | error e => exact Or.inl rfl
  | ok _ =>
    refine (follows_updateVacation rfl ⟨rfl,rfl⟩).bind fun g r hg => ?_
    cases r with
    | error e => exact (hg.1 e rfl).done
    | ok v =>
      obtain ⟨hun,hv⟩ := hg.2 v rfl
      exact (follows_pushVacation (Or.inr hun) hv).bind fun g' _ h => h

end Requests

/-! ### The system -/

inductive SieveRequest
  | create (body : CreateFilterRule)
  | update (id : String) (body : UpdateFilterRule)
  | delete (id : String)
  | reorder (ids : List String)
  | vacation (body : UpdateVacationResponder)

/-- What a request does, its answer aside. -/
def SieveRequest.task (env : SieveEnv) : SieveRequest → SieveTask Unit
  | .create body => do
    let _ ← createFilterHandler env body
    pure ()
  | .update id body => do
    let _ ← updateFilterHandler env id body
    pure ()
  | .delete id => do
    let _ ← deleteFilterHandler env id
    pure ()
  | .reorder ids => do
    let _ ← reorderFiltersHandler env ids
    pure ()
  | .vacation body => do
    let _ ← updateVacationHandler env body
    pure ()

theorem follows_request {env : SieveEnv} (r : SieveRequest) :
    (r.task env).Follows (PushStance.Allows env) PushStance.next (fun g _ => g.Done env) .initial := by
  cases r with
  | create body => exact follows_createFilterHandler.bind fun _ _ h => h
  | update id body => exact follows_updateFilterHandler.bind fun _ _ h => h
  | delete id => exact follows_deleteFilterHandler.bind fun _ _ h => h
  | reorder ids => exact follows_reorderFiltersHandler.bind fun _ _ h => h
  | vacation body => exact follows_updateVacationHandler.bind fun _ _ h => h

/-- Requests in progress; those whose reads a later write has overtaken; and whether a script has
been handed over. -/
structure SieveRoom where
  threads : Threads PushStance SieveWorld SieveCall SieveCall.Answer Unit
  overtaken : List Nat
  pushed : Bool

inductive SieveEvent
  | tick (seconds : Nat)
  | request (r : SieveRequest)
  | call (i : Nat) (o : SieveOutcome)

/-- A statement that writes what a request has read. -/
def SieveCall.overtakes (g : PushStance) : SieveCall → Bool
  | .insertFilter _ _ => g.rules.isSome
  | .updateFilter _ _ => g.rules.isSome
  | .deleteFilter _ => g.rules.isSome
  | .setPriority _ _ => g.rules.isSome
  | .updateVacation _ => g.vacation.isSome
  | _ => false

/-- The command that hands a script over. -/
def SieveCall.isPut : SieveCall → Bool
  | .putScript _ _ => true
  | _ => false

/-- The request has written and has yet to hand over a script, or to activate it. -/
def PushStance.busy (g : PushStance) : Bool := g.owes || g.unactivated

/-- No statement and no command of a push fails. -/
def SieveEvent.Smooth : SieveEvent → Prop
  | .call _ o => o.fails = none
  | _ => True

instance (e : SieveEvent) : Decidable e.Smooth := by
  cases e <;> (dsimp only [SieveEvent.Smooth]; infer_instance)

namespace SieveRoom

variable (env : SieveEnv) (s : SieveRoom)

/-- The requests a call overtakes, unless it fails. -/
def overtakenBy (o : SieveOutcome) (c : SieveCall) : List Nat :=
  if o.fails = none then
    (List.range s.threads.tasks.length).filter
      (fun j => (s.threads.tasks[j]?).any (fun t => c.overtakes t.1))
  else []

/-- Another request has written and has yet to hand over its script. -/
def owedByOther (i : Nat) : Bool :=
  (List.range s.threads.tasks.length).any
    (fun j => j ≠ i && (s.threads.tasks[j]?).any (fun t => t.1.owes))

def step : SieveEvent → Option SieveRoom
  | .tick n =>
    let w := s.threads.world
    some { s with threads := ⟨{ w with db := { w.db with now := w.db.now + n } },s.threads.tasks⟩ }
  | .request r =>
    some { s with threads := ⟨s.threads.world,s.threads.tasks ++ [(.initial,r.task env)]⟩ }
  | .call i o =>
    match s.threads.upcoming i, s.threads.call (serveSieve env o) PushStance.next i with
    | some (_,c), some threads =>
      some ⟨threads,s.overtaken ++ s.overtakenBy o c,s.pushed || c.isPut⟩
    | _, _ => none

def opening (w : SieveWorld) : SieveRoom := ⟨⟨w,[]⟩,[],false⟩

/-! #### The property -/

/-- All requests and the pushes they have spawned are finished. -/
def Settled : Prop := ∀ t ∈ s.threads.tasks, Threads.unfinished t = false

/-- The script for what is stored. -/
def script : String :=
  generateScript s.threads.world.db.listFilters (some s.threads.world.db.vacation)

/-- The script that is running is the one for what is stored. -/
def Synced : Prop := s.threads.world.server.activeScript = some s.script

/-! #### The condition -/

/-- A request that has written meets no error and finds its rule again, and what is handed over is
accepted and activated. -/
def Unfailing (o : SieveOutcome) (w : SieveWorld) (g : PushStance) : SieveCall → Prop
  | .putScript _ _ => o.fails = none
  | .setActive _ => o.fails = none
  | .getFilter id => g.busy = true → o.fails = none ∧ (w.db.getFilter id).isSome = true
  | _ => g.busy = true → o.fails = none

/-- A script is handed over while nothing has been written since the request has read, or another
request has written and has yet to hand over its own. -/
def Timely (i : Nat) (g : PushStance) : SieveCall → Prop
  | .putScript _ _ => g.failed = false ∧ (i ∉ s.overtaken ∨ s.owedByOther i = true)
  | _ => True

def Ok : SieveEvent → Prop
  | .call i o => ∀ t ∈ s.threads.upcoming i,
      Unfailing o s.threads.world t.1 t.2 ∧ s.Timely i t.1 t.2
  | _ => True

instance (o : SieveOutcome) (w : SieveWorld) (g : PushStance) (c : SieveCall) :
    Decidable (Unfailing o w g c) := by
  cases c <;> (dsimp only [Unfailing]; infer_instance)

instance (i : Nat) (g : PushStance) (c : SieveCall) : Decidable (s.Timely i g c) := by
  cases c <;> (dsimp only [Timely]; infer_instance)

instance (e : SieveEvent) : Decidable (s.Ok e) := by
  cases e <;> (dsimp only [Ok]; infer_instance)

instance : Decidable s.Settled := by
  unfold Settled
  infer_instance

instance : Decidable s.Synced := by
  unfold Synced
  infer_instance

end SieveRoom

/-! ### One call -/

section Calls

open PushStance

variable {env : SieveEnv} {o : SieveOutcome} {w w' : SieveWorld} {g : PushStance}

/-- What the answer to a call says about the state before it, and what the call leaves. -/
inductive Served (o : SieveOutcome) (w : SieveWorld) : (c : SieveCall) → c.Answer → SieveWorld → Prop
  | failed {c : SieveCall} {r : c.Answer} (hput : c.isPut = false)
      (h : ∀ g, PushStance.next g c r = { g with failed := true }) : Served o w c r w
  | withUserDb (nth : Nat) : Served o w (.withUserDb nth) (.ok ()) w
  | drawUuid (id : String) : Served o w .drawUuid id w
  | insertFilter {id : String} {data : CreateFilterRule} (db : Db) (hv : db.vacation = w.db.vacation)
      (hf : o.fails = none) : Served o w (.insertFilter id data) (.ok ()) { w with db := db }
  | getFilter (id : String) (rule : FilterRule) : Served o w (.getFilter id) (.ok (some rule)) w
  | listFilters : Served o w .listFilters (.ok w.db.listFilters) w
  | updateFilter (id : String) (data : UpdateFilterRule) (hf : o.fails = none) :
      Served o w (.updateFilter id data) (.ok (w.db.updateFilter id data).1)
        { w with db := (w.db.updateFilter id data).2 }
  | deleteFilter (id : String) (hf : o.fails = none) :
      Served o w (.deleteFilter id) (.ok (w.db.deleteFilter id).1)
        { w with db := (w.db.deleteFilter id).2 }
  | setPriority (id : String) (priority : Nat) (hf : o.fails = none) :
      Served o w (.setPriority id priority) (.ok (w.db.setPriority id priority).1)
        { w with db := (w.db.setPriority id priority).2 }
  | ensureVacation : Served o w .ensureVacation (.ok ()) w
  | updateVacation (data : UpdateVacationResponder) (hf : o.fails = none) :
      Served o w (.updateVacation data) (.ok ()) { w with db := w.db.updateVacation data }
  | getVacation : Served o w .getVacation (.ok w.db.vacation) w
  | login : Served o w .login (.ok ()) w
  | putScript (name script : String) : Served o w (.putScript name script) (.ok ())
      { w with server := w.server.put name script }
  | setActive (name : String) : Served o w (.setActive name) (.ok ())
      { w with server := w.server.activate name }

/-- A statement fails or is carried out. -/
theorem SieveOutcome.run_cases {α : Type} {o : SieveOutcome} {w : SieveWorld} {f : α × SieveWorld}
    {P : Except String α × SieveWorld → Prop} (herror : ∀ e, P (.error e,w))
    (hok : o.fails = none → P (.ok f.1,f.2)) : P (o.run w f) := by
  unfold SieveOutcome.run
  cases hf : o.fails with
  | some e => exact herror e
  | none => exact hok hf

theorem SieveOutcome.command_none (h : o.fails = none) (srv : SieveServer) :
    o.command w srv = (.ok (),{ w with server := srv }) := by
  unfold SieveOutcome.command
  rw [h]

/-- Every call is served like this, if commands to the server are accepted. -/
theorem served {c : SieveCall} (h : SieveRoom.Unfailing o w g c) :
    Served o w c (serveSieve env o c w).1 (serveSieve env o c w).2 := by
  cases c with
  | withUserDb nth =>
    exact SieveOutcome.run_cases (P := fun a => Served o w (.withUserDb nth) a.1 a.2)
      (fun e => .failed rfl fun _ => rfl) fun _ => .withUserDb nth
  | drawUuid => exact .drawUuid o.uuid
  | insertFilter id data =>
    show Served o w (.insertFilter id data) (o.runOption w _ _).1 (o.runOption w _ _).2
    cases hdb : w.db.insertFilter (data.row id (env.datetime w.db.now)) with
    | none => exact .failed rfl fun _ => rfl
    | some db =>
      have hv : db.vacation = w.db.vacation := by
        unfold Db.insertFilter at hdb
        split at hdb
        · simp at hdb
        · rw [← Option.some.inj hdb]
      exact SieveOutcome.run_cases (P := fun a => Served o w (.insertFilter id data) a.1 a.2)
        (fun e => .failed rfl fun _ => rfl) fun hf => .insertFilter db hv hf
  | getFilter id =>
    refine SieveOutcome.run_cases (P := fun a => Served o w (.getFilter id) a.1 a.2)
      (fun e => .failed rfl fun _ => rfl) fun _ => ?_
    cases hrule : w.db.getFilter id with
    | none => exact .failed rfl fun _ => rfl
    | some rule => exact .getFilter id rule
  | listFilters =>
    exact SieveOutcome.run_cases (P := fun a => Served o w .listFilters a.1 a.2)
      (fun e => .failed rfl fun _ => rfl) fun _ => .listFilters
  | updateFilter id data =>
    exact SieveOutcome.run_cases (P := fun a => Served o w (.updateFilter id data) a.1 a.2)
      (fun e => .failed rfl fun _ => rfl) fun hf => .updateFilter id data hf
  | deleteFilter id =>
    exact SieveOutcome.run_cases (P := fun a => Served o w (.deleteFilter id) a.1 a.2)
      (fun e => .failed rfl fun _ => rfl) fun hf => .deleteFilter id hf
  | setPriority id priority =>
    exact SieveOutcome.run_cases (P := fun a => Served o w (.setPriority id priority) a.1 a.2)
      (fun e => .failed rfl fun _ => rfl) fun hf => .setPriority id priority hf
  | ensureVacation =>
    exact SieveOutcome.run_cases (P := fun a => Served o w .ensureVacation a.1 a.2)
      (fun e => .failed rfl fun _ => rfl) fun _ => .ensureVacation
  | updateVacation data =>
    exact SieveOutcome.run_cases (P := fun a => Served o w (.updateVacation data) a.1 a.2)
      (fun e => .failed rfl fun _ => rfl) fun hf => .updateVacation data hf
  | getVacation =>
    exact SieveOutcome.run_cases (P := fun a => Served o w .getVacation a.1 a.2)
      (fun e => .failed rfl fun _ => rfl) fun _ => .getVacation
  | login =>
    exact SieveOutcome.run_cases (P := fun a => Served o w .login a.1 a.2)
      (fun e => .failed rfl fun _ => rfl) fun _ => .login
  | putScript name script =>
    have hr := SieveOutcome.command_none (w := w) h (w.server.put name script)
    show Served o w (.putScript name script) (o.command w _).1 (o.command w _).2
    rw [hr]
    exact .putScript name script
  | setActive name =>
    have hr := SieveOutcome.command_none (w := w) h (w.server.activate name)
    show Served o w (.setActive name) (o.command w _).1 (o.command w _).2
    rw [hr]
    exact .setActive name

/-- A busy request does not fail. -/
theorem busy_next {c : SieveCall} (h : SieveRoom.Unfailing o w g c) (hbusy : g.busy = true)
    (hallow : g.Allows env c) :
    (g.next c (serveSieve env o c w).1).failed = g.failed := by
  have hrun : ∀ {α : Type} (f : α × SieveWorld), o.fails = none → o.run w f = (.ok f.1,f.2) := by
    intro α f hf
    unfold SieveOutcome.run
    rw [hf]
  cases c with
  | drawUuid => rfl
  | insertFilter id data =>
    have hidle : g.busy = false := by
      unfold PushStance.busy
      rw [hallow.2.1,hallow.2.2]
      rfl
    exact absurd (hidle.symm.trans hbusy) nofun
  | getFilter id =>
    obtain ⟨hf,hrow⟩ := h hbusy
    obtain ⟨rule,hrule⟩ := Option.isSome_iff_exists.mp hrow
    have hr : serveSieve env o (.getFilter id) w = (.ok (some rule),w) := by
      rw [← hrule]
      exact hrun _ hf
    rw [hr]
    rfl
  | putScript name script => 
    have hr : serveSieve env o (.putScript name script) w = _ := SieveOutcome.command_none h _
    rw [hr]
    rfl
  | setActive name =>
    have hr : serveSieve env o (.setActive name) w = _ := SieveOutcome.command_none h _
    rw [hr]
    rfl
  | _ =>
    have hf : o.fails = none := h hbusy
    simp only [serveSieve,SieveOutcome.run,hf]
    rfl

/-! #### What a call leaves -/

variable {c : SieveCall} {r : c.Answer}

/-- The rules are as they were, or the request has written and overtaken those who had read them. -/
theorem Served.rules (h : Served o w c r w') (g : PushStance) :
    w'.db.listFilters = w.db.listFilters ∨ o.fails = none ∧ (g.next c r).owes = true ∧
      ∀ g' : PushStance, g'.rules.isSome = true → c.overtakes g' = true := by
  cases h with
  | insertFilter db hv hf => exact Or.inr ⟨hf,rfl,fun _ h => h⟩
  | updateFilter id data hf =>
    by_cases hn : (w.db.updateFilter id data).1 = 0
    · exact Or.inl (congrArg Db.listFilters (Db.changeFilter_zero hn))
    · exact Or.inr ⟨hf,by simp [PushStance.next,hn],fun _ h => h⟩
  | deleteFilter id hf =>
    by_cases hn : (w.db.deleteFilter id).1 = 0
    · exact Or.inl (congrArg Db.listFilters (Db.deleteFilter_zero hn))
    · exact Or.inr ⟨hf,by simp [PushStance.next,hn],fun _ h => h⟩
  | setPriority id priority hf =>
    by_cases hn : (w.db.setPriority id priority).1 = 0
    · exact Or.inl (congrArg Db.listFilters (Db.changeFilter_zero hn))
    · exact Or.inr ⟨hf,by simp [PushStance.next,hn],fun _ h => h⟩
  | _ => exact Or.inl rfl

theorem Served.vacation (h : Served o w c r w') (g : PushStance) :
    w'.db.vacation = w.db.vacation ∨ o.fails = none ∧ (g.next c r).owes = true ∧
      ∀ g' : PushStance, g'.vacation.isSome = true → c.overtakes g' = true := by
  cases h with
  | insertFilter db hv hf => exact Or.inl hv
  | updateVacation data hf => exact Or.inr ⟨hf,rfl,fun _ h => h⟩
  | _ => exact Or.inl rfl

/-- The rules a request has read, or reads. -/
theorem Served.read_rules (h : Served o w c r w') (g : PushStance) :
    (g.next c r).rules = g.rules ∨
      (g.next c r).rules = some w.db.listFilters ∧ w'.db = w.db := by
  cases h with
  | failed hput h =>
    rw [h g]
    exact Or.inl rfl
  | listFilters => exact Or.inr ⟨rfl,rfl⟩
  | _ => exact Or.inl rfl

theorem Served.read_vacation (h : Served o w c r w') (g : PushStance) :
    (g.next c r).vacation = g.vacation ∨
      (g.next c r).vacation = some w.db.vacation ∧ w'.db = w.db := by
  cases h with
  | failed hput h =>
    rw [h g]
    exact Or.inl rfl
  | getVacation => exact Or.inr ⟨rfl,rfl⟩
  | _ => exact Or.inl rfl

/-- A request that owes a script goes on owing it until it hands it over. -/
theorem Served.owes (h : Served o w c r w') (hput : c.isPut = false) (hg : g.owes = true) :
    (g.next c r).owes = true := by
  cases h with
  | failed hput h =>
    rw [h g]
    exact hg
  | putScript name script => exact absurd hput nofun
  | insertFilter db hv hf => rfl
  | updateVacation data hf => rfl
  | updateFilter id data hf => simp [PushStance.next,hg]
  | deleteFilter id hf => simp [PushStance.next,hg]
  | setPriority id priority hf => simp [PushStance.next,hg]
  | _ => exact hg

/-- The script that is stored is still there unless one is handed over. -/
theorem Served.scripts (h : Served o w c r w') (hput : c.isPut = false) :
    w'.server.scripts = w.server.scripts := by
  cases h with
  | putScript name script => exact absurd hput nofun
  | _ => rfl

/-- A request becomes busy by writing, or by handing over a script, and has not failed then. -/
theorem Served.busy (h : Served o w c r w') (hallow : g.Allows env c)
    (hput : c.isPut = true → g.failed = false) (hidle : g.busy = false)
    (hbusy : (g.next c r).busy = true) : (g.next c r).failed = false := by
  have hcontra : ∀ g' : PushStance, g'.busy = true → g'.busy = g.busy → g'.failed = false :=
    fun g' h h' => absurd (h.symm.trans (h'.trans hidle)) nofun
  cases h with
  | failed hput h =>
    rw [h g] at hbusy ⊢
    exact hcontra _ hbusy rfl
  | insertFilter db hv hf => exact hallow.1
  | updateFilter id data hf => exact hallow
  | deleteFilter id hf => exact hallow
  | setPriority id priority hf => exact hallow
  | updateVacation data hf => exact hallow
  | putScript name script => exact hput rfl
  | setActive name =>
    have howes : g.owes = false := (Bool.or_eq_false_iff.mp hidle).1
    have hquiet : (g.next (.setActive name) (.ok ())).busy = false := by
      show (g.owes || false) = false
      rw [howes]
      rfl
    exact absurd (hquiet.symm.trans hbusy) nofun
  | _ => exact hcontra _ hbusy rfl

/-- What has been handed over stays active, or to be activated. -/
theorem Served.active (h : Served o w c r w') (hallow : g.Allows env c) :
    (w'.server.active = w.server.active ∧
        (g.unactivated = true → (g.next c r).unactivated = true) ∧
        (c.isPut = true → (g.next c r).unactivated = true)) ∨
      w'.server.active = some "rav-filters" ∧ c.isPut = false := by
  cases h with
  | failed hput h =>
    refine Or.inl ⟨rfl,fun hun => ?_,fun hput' => absurd (hput.symm.trans hput') nofun⟩
    rw [h g]
    exact hun
  | putScript name script => exact Or.inl ⟨rfl,fun _ => rfl,fun _ => rfl⟩
  | setActive name => exact Or.inr ⟨congrArg some hallow,rfl⟩
  | _ => exact Or.inl ⟨rfl,id,nofun⟩

end Calls

/-! ### The invariant -/

/-- What requests have read is what is stored unless it has been overtaken, and so is the last
script that has been handed over unless another is to come. -/
structure SyncInv (env : SieveEnv) (s : SieveRoom) : Prop where
  keep : s.threads.Keep (PushStance.Allows env) PushStance.next (fun g _ => g.Done env)
  steady : ∀ t ∈ s.threads.tasks, t.1.busy = true → t.1.failed = false
  rules : ∀ i t, s.threads.tasks[i]? = some t → i ∉ s.overtaken → ∀ r, t.1.rules = some r →
    r = s.threads.world.db.listFilters
  vacation : ∀ i t, s.threads.tasks[i]? = some t → i ∉ s.overtaken → ∀ v, t.1.vacation = some v →
    v = s.threads.world.db.vacation
  host : s.pushed = true → env.sieveHost.isSome = true
  stored : s.pushed = true → (∃ t ∈ s.threads.tasks, t.1.owes = true) ∨
    s.threads.world.server.scripts "rav-filters" = some s.script
  active : s.pushed = true → (∃ t ∈ s.threads.tasks, t.1.unactivated = true) ∨
    s.threads.world.server.active = some "rav-filters"

section Steps

open PushStance

variable {env : SieveEnv} {s s' : SieveRoom} {g : PushStance} {c : SieveCall} {o : SieveOutcome}
  {i : Nat} {k : c.Answer → SieveTask Unit}

theorem mem_overtakenBy {j : Nat} {t : Thread PushStance SieveCall SieveCall.Answer Unit}
    (hf : o.fails = none) (ht : s.threads.tasks[j]? = some t) (h : c.overtakes t.1 = true) :
    j ∈ s.overtakenBy o c := by
  unfold SieveRoom.overtakenBy
  rw [if_pos hf]
  refine List.mem_filter.mpr ⟨List.mem_range.mpr (List.getElem?_eq_some_iff.mp ht).1,?_⟩
  rw [ht]
  exact h

theorem owedByOther_set {t : Thread PushStance SieveCall SieveCall.Answer Unit}
    (h : s.owedByOther i = true) : ∃ u ∈ s.threads.tasks.set i t, u.1.owes = true := by
  obtain ⟨j,-,hj⟩ := List.any_eq_true.mp h
  obtain ⟨hne,howes⟩ := Bool.and_eq_true_iff.mp hj
  obtain ⟨u,hu,howes⟩ := (Option.any_eq_true _ _).mp howes
  refine ⟨u,List.mem_of_getElem? (i := j) ?_,howes⟩
  rw [List.getElem?_set_ne (of_decide_eq_true hne).symm]
  exact hu

/-- Requests keep what they have read through a call of one of them, unless it overtakes them. -/
theorem read_call {α : Type} {f : PushStance → Option α} {x y : α}
    (hinv : ∀ i t, s.threads.tasks[i]? = some t → i ∉ s.overtaken → ∀ a, f t.1 = some a → a = x)
    (ht : s.threads.tasks[i]? = some (g,.call c k)) {r : c.Answer}
    (hread : f (g.next c r) = f g ∨ f (g.next c r) = some x ∧ y = x)
    (hkeep : y = x ∨ o.fails = none ∧ ∀ g' : PushStance, (f g').isSome = true →
      c.overtakes g' = true) :
    ∀ j t, (s.threads.tasks.set i (g.next c r,k r))[j]? = some t →
      j ∉ s.overtaken ++ s.overtakenBy o c → ∀ a, f t.1 = some a → a = y := by
  intro j t hj hfree a ha
  have hold : j ∉ s.overtaken := fun h => hfree (List.mem_append_left _ h)
  have hnew : j ∉ s.overtakenBy o c := fun h => hfree (List.mem_append_right _ h)
  have hkept : ∀ u, s.threads.tasks[j]? = some u → f u.1 = some a → a = y := by
    intro u hu hau
    rcases hkeep with rfl | ⟨hf,hover⟩
    · exact hinv j u hu hold a hau
    · exact absurd (mem_overtakenBy hf hu (hover u.1 (by rw [hau]; rfl))) hnew
  by_cases hij : i = j
  · subst hij
    rw [List.getElem?_set_self (List.getElem?_eq_some_iff.mp ht).1] at hj
    obtain rfl := Option.some.inj hj
    rcases hread with h | ⟨h,hy⟩
    · exact hkept _ ht (h.symm.trans ha)
    · rw [h] at ha
      rw [hy]
      exact (Option.some.inj ha).symm
  · rw [List.getElem?_set_ne hij] at hj
    exact hkept t hj ha

/-- A script handed over in time is the one for what is stored, or another is to come. -/
theorem stored_put (hinv : SyncInv env s) (ht : s.threads.tasks[i]? = some (g,.call c k))
    (hput : c.isPut = true) (hfine : SieveRoom.Unfailing o s.threads.world g c)
    (htime : g.failed = false ∧ (i ∉ s.overtaken ∨ s.owedByOther i = true)) {w : SieveWorld}
    (hw : w = (serveSieve env o c s.threads.world).2)
    {t : Thread PushStance SieveCall SieveCall.Answer Unit} :
    (∃ u ∈ s.threads.tasks.set i t, u.1.owes = true) ∨
      w.server.scripts "rav-filters" =
        some (generateScript w.db.listFilters (some w.db.vacation)) := by
  have hallow : g.Allows env c := hinv.keep.allowed ht
  cases c with
  | putScript name script =>
    rcases htime.2 with hfree | hother
    · right
      obtain ⟨rfl,-,hfailed | ⟨rules,v,hr,hv,rfl⟩⟩ := hallow
      · exact absurd (htime.1.symm.trans hfailed) nofun
      · have hrules := hinv.rules i _ ht hfree rules hr
        have hvacation := hinv.vacation i _ ht hfree v hv
        have hserve := SieveOutcome.command_none (w := s.threads.world) hfine
          (s.threads.world.server.put "rav-filters" (generateScript rules (some v)))
        have hafter : w = _ := hw.trans (congrArg Prod.snd hserve)
        rw [hafter]
        show (s.threads.world.server.put "rav-filters" _).scripts "rav-filters" =
          some (generateScript s.threads.world.db.listFilters (some s.threads.world.db.vacation))
        rw [← hrules,← hvacation]
        exact SieveServer.put_scripts _ _ _
    · exact Or.inl (owedByOther_set hother)
  | _ => exact absurd hput nofun

/-- One call, in time and without failing, keeps the invariant. -/
theorem syncInv_call (hinv : SyncInv env s) (ht : s.threads.tasks[i]? = some (g,.call c k))
    (hfine : SieveRoom.Unfailing o s.threads.world g c) (htime : s.Timely i g c) :
    SyncInv env ⟨⟨(serveSieve env o c s.threads.world).2,s.threads.tasks.set i
      (g.next c (serveSieve env o c s.threads.world).1,k (serveSieve env o c s.threads.world).1)⟩,
      s.overtaken ++ s.overtakenBy o c,s.pushed || c.isPut⟩ := by
  have hallow : g.Allows env c := hinv.keep.allowed ht
  have hserved : Served o s.threads.world c (serveSieve env o c s.threads.world).1
      (serveSieve env o c s.threads.world).2 := served hfine
  have hsteady : g.busy = true → g.failed = false := hinv.steady _ (List.mem_of_getElem? ht)
  have hlen := (List.getElem?_eq_some_iff.mp ht).1
  have hself : ∀ t : Thread PushStance SieveCall SieveCall.Answer Unit,
      t ∈ s.threads.tasks.set i t := fun t => List.mem_of_getElem? (List.getElem?_set_self hlen)
  have hput : c.isPut = true → g.failed = false ∧ (i ∉ s.overtaken ∨ s.owedByOther i = true) := by
    intro hput
    cases c with
    | putScript name script => exact htime
    | _ => exact absurd hput nofun
  refine ⟨hinv.keep.call ht,?_,?_,?_,?_,?_,?_⟩
  · intro t ht' hbusy
    rcases List.mem_or_eq_of_mem_set ht' with ht' | rfl
    · exact hinv.steady t ht' hbusy
    · cases hb : g.busy with
      | true => exact (busy_next hfine hb hallow).trans (hsteady hb)
      | false => exact hserved.busy hallow (fun h => (hput h).1) hb hbusy
  · exact read_call hinv.rules ht
      ((hserved.read_rules g).imp_right fun h => ⟨h.1,congrArg Db.listFilters h.2⟩)
      ((hserved.rules g).imp_right fun h => ⟨h.1,h.2.2⟩)
  · exact read_call hinv.vacation ht
      ((hserved.read_vacation g).imp_right fun h => ⟨h.1,congrArg Db.vacation h.2⟩)
      ((hserved.vacation g).imp_right fun h => ⟨h.1,h.2.2⟩)
  · intro hp
    rcases Bool.or_eq_true_iff.mp hp with hp | hput
    · exact hinv.host hp
    · cases c with
      | putScript name script => exact hallow.2.1
      | _ => exact absurd hput nofun
  · intro hp
    cases hisput : c.isPut with
    | true => exact stored_put hinv ht hisput hfine (hput hisput) rfl
    | false =>
      rw [hisput,Bool.or_false] at hp
      rcases hinv.stored hp with howes | hsame
      · exact Or.inl (exists_mem_set ht (hserved.owes hisput) howes)
      · rcases hserved.rules g with hr | ⟨-,howes,-⟩
        · rcases hserved.vacation g with hv | ⟨-,howes,-⟩
          · right
            show _ = some (generateScript _ _)
            rw [hserved.scripts hisput,hsame,hr,hv]
            rfl
          · exact Or.inl ⟨_,hself _,howes⟩
        · exact Or.inl ⟨_,hself _,howes⟩
  · intro hp
    rcases hserved.active hallow with ⟨hsame,hun,hun'⟩ | ⟨hact,-⟩
    · cases hisput : c.isPut with
      | true => exact Or.inl ⟨_,hself _,hun' hisput⟩
      | false =>
        rw [hisput,Bool.or_false] at hp
        refine (hinv.active hp).imp (exists_mem_set ht hun) fun h => ?_
        exact hsame.trans h
    · exact Or.inr hact

/-- Before the first request. -/
theorem syncInv_opening (w : SieveWorld) : SyncInv env (SieveRoom.opening w) where
  keep := fun _ ht => absurd ht List.not_mem_nil
  steady := fun _ ht => absurd ht List.not_mem_nil
  rules := fun _ _ ht => absurd ht nofun
  vacation := fun _ _ ht => absurd ht nofun
  host := nofun
  stored := nofun
  active := nofun

theorem exists_append {t : Thread PushStance SieveCall SieveCall.Answer Unit}
    {P : Thread PushStance SieveCall SieveCall.Answer Unit → Prop}
    (h : ∃ u ∈ s.threads.tasks, P u) : ∃ u ∈ s.threads.tasks ++ [t], P u := by
  obtain ⟨u,hu,hP⟩ := h
  exact ⟨u,List.mem_append_left _ hu,hP⟩

/-- A request that comes in has not read anything. -/
theorem syncInv_request {t : SieveTask Unit} (hinv : SyncInv env s)
    (ht : t.Follows (Allows env) next (fun g _ => g.Done env) initial) :
    SyncInv env ⟨⟨s.threads.world,s.threads.tasks ++ [(initial,t)]⟩,s.overtaken,s.pushed⟩ := by
  have hread : ∀ {α : Type} {f : PushStance → Option α} {x : α}, f initial = none →
      (∀ i u, s.threads.tasks[i]? = some u → i ∉ s.overtaken → ∀ a, f u.1 = some a → a = x) →
      ∀ i u, (s.threads.tasks ++ [(initial,t)])[i]? = some u → i ∉ s.overtaken →
        ∀ a, f u.1 = some a → a = x := by
    intro α f x hf h i u hu hfree a ha
    by_cases hi : i < s.threads.tasks.length
    · rw [List.getElem?_append_left hi] at hu
      exact h i u hu hfree a ha
    · rw [List.getElem?_append_right (Nat.le_of_not_lt hi)] at hu
      rw [List.mem_singleton.mp (List.mem_of_getElem? hu),hf] at ha
      exact absurd ha nofun
  refine ⟨hinv.keep.start ht,?_,hread rfl hinv.rules,hread rfl hinv.vacation,hinv.host,?_,?_⟩
  · intro u hu hbusy
    rcases List.mem_append.mp hu with hu | hu
    · exact hinv.steady u hu hbusy
    · rw [List.mem_singleton.mp hu]
      rfl
  · exact fun hp => (hinv.stored hp).imp_left exists_append
  · exact fun hp => (hinv.active hp).imp_left exists_append

/-- One step, in time and without failing, keeps the invariant. -/
theorem syncInv_step {e : SieveEvent} (hinv : SyncInv env s) (hok : s.Ok e)
    (hstep : s.step env e = some s') : SyncInv env s' := by
  cases e with
  | tick n =>
    obtain rfl := Option.some.inj hstep
    exact ⟨hinv.keep,hinv.steady,hinv.rules,hinv.vacation,hinv.host,hinv.stored,hinv.active⟩
  | request r =>
    obtain rfl := Option.some.inj hstep
    exact syncInv_request hinv (follows_request r)
  | call i o =>
    cases hcall : s.threads.call (serveSieve env o) next i with
    | none =>
      have hnone : s.step env (.call i o) = none := by
        simp only [SieveRoom.step,hcall]
        cases s.threads.upcoming i <;> rfl
      rw [hnone] at hstep
      exact absurd hstep nofun
    | some threads =>
      obtain ⟨g,c,k,ht,hthreads⟩ := Threads.call_eq_some.mp hcall
      have hup := Threads.upcoming_eq ht
      have hsome : s.step env (.call i o) =
          some ⟨threads,s.overtaken ++ s.overtakenBy o c,s.pushed || c.isPut⟩ := by
        simp only [SieveRoom.step,hcall,hup]
      rw [hsome] at hstep
      obtain rfl := Option.some.inj hstep
      subst hthreads
      exact syncInv_call hinv ht (hok (g,c) hup).1 (hok (g,c) hup).2

/-- Once all are finished nothing is to come. -/
theorem SyncInv.synced (hinv : SyncInv env s) (hsettled : s.Settled) (hpushed : s.pushed = true) :
    s.Synced := by
  have hdone : ∀ t ∈ s.threads.tasks, t.1.owes = false ∧ t.1.unactivated = false := by
    intro t ht
    have hfollows := hinv.keep t ht
    have hend := hsettled t ht
    have hsteady := hinv.steady t ht
    obtain ⟨g,p⟩ := t
    cases p with
    | call c k => exact absurd hend nofun
    | pure u =>
      rcases hfollows with hfailed | ⟨howes,hun⟩
      · have hidle : g.busy = false := by
          by_contra hbusy
          exact absurd (hfailed.symm.trans (hsteady (Bool.eq_true_of_not_eq_false hbusy))) nofun
        exact Bool.or_eq_false_iff.mp hidle
      · refine ⟨?_,hun⟩
        by_contra ho
        have hhost := hinv.host hpushed
        rw [howes (Bool.eq_true_of_not_eq_false ho)] at hhost
        exact absurd hhost nofun
  have hstored : s.threads.world.server.scripts "rav-filters" = some s.script := by
    rcases hinv.stored hpushed with ⟨t,ht,howes⟩ | h
    · exact absurd ((hdone t ht).1.symm.trans howes) nofun
    · exact h
  have hactive : s.threads.world.server.active = some "rav-filters" := by
    rcases hinv.active hpushed with ⟨t,ht,hun⟩ | h
    · exact absurd ((hdone t ht).2.symm.trans hun) nofun
    · exact h
  unfold SieveRoom.Synced SieveServer.activeScript
  rw [hactive]
  exact hstored

end Steps

/-- In every run in which scripts are handed over while what they were made from is still stored,
once all requests and their pushes are finished the script that is running is the one for what is
stored. -/
theorem script_synced {env : SieveEnv} {w : SieveWorld} {es : List SieveEvent} {s : SieveRoom}
    (h : Run (SieveRoom.step env) SieveRoom.Ok (.opening w) es s) (hsettled : s.Settled)
    (hpushed : s.pushed = true) : s.Synced :=
  (h.invariant (syncInv_opening w) (fun _ _ _ hi hok hs => syncInv_step hi hok hs)).synced
    hsettled hpushed

/-! ### Samples -/

def sieveSite : SieveEnv := ⟨some "sieve.example.com",fun n => toString n⟩

/-- A user without rules, and without scripts on the server. -/
def freshSieve : SieveWorld := ⟨Db.empty,⟨fun _ => none,none⟩⟩

def junkRule : CreateFilterRule :=
  ⟨"Junk",true,0,[⟨"from","contains","spam"⟩],"all",[⟨"move",some "Junk"⟩],false⟩

def turnOn : UpdateVacationResponder := ⟨some true,none,some "Away.",none,none,none⟩

/-- Calls of the `i`-th request that meet no error. -/
def smoothly (i n : Nat) : List SieveEvent := List.replicate n (.call i ⟨none,true,"1"⟩)

/-- A rule is created and the responder turned on before the script of the first request is handed
over; the script of the second follows. -/
def ruleThenResponder : List SieveEvent :=
  .request (.create junkRule) :: smoothly 0 8 ++ .request (.vacation turnOn) :: smoothly 1 3 ++
    smoothly 0 2 ++ smoothly 1 6

theorem script_synced_ruleThenResponder :
    ∃ s, Run (SieveRoom.step sieveSite) SieveRoom.Ok (.opening freshSieve) ruleThenResponder s ∧
      s.Settled ∧ s.pushed = true ∧ s.Synced := by
  have hv : (execWhere (SieveRoom.step sieveSite) SieveRoom.Ok (.opening freshSieve)
      ruleThenResponder).map (fun s => (decide s.Settled,s.pushed)) = some (true,true) := by
    decide
  obtain ⟨s,hrun,hl⟩ := run_of_map_execWhere hv
  have hsettled : s.Settled := of_decide_eq_true (congrArg Prod.fst hl)
  have hpushed : s.pushed = true := congrArg Prod.snd hl
  exact ⟨s,hrun,hsettled,hpushed,script_synced hrun hsettled hpushed⟩

/-- A rule is created and deleted again, and the script of the first request is handed over last. -/
def deletedRuleLast : List SieveEvent :=
  .request (.create junkRule) :: smoothly 0 8 ++ .request (.delete "1") :: smoothly 1 8 ++
    smoothly 0 2

/-- The deleted rule goes on running. -/
theorem deleted_rule_runs_on :
    ¬∀ (env : SieveEnv) (w : SieveWorld) (es : List SieveEvent) (s : SieveRoom),
      Run (SieveRoom.step env) (fun _ e => e.Smooth) (.opening w) es s → s.Settled →
        s.pushed = true → s.Synced := by
  intro hall
  have hv : (execWhere (SieveRoom.step sieveSite) (fun _ e => e.Smooth) (.opening freshSieve)
      deletedRuleLast).map (fun s => (decide s.Settled,s.pushed,decide s.Synced)) =
        some (true,true,false) := by
    decide
  obtain ⟨s,hrun,hl⟩ := run_of_map_execWhere hv
  have hsettled : s.Settled := of_decide_eq_true (congrArg Prod.fst hl)
  have hpushed : s.pushed = true := congrArg (fun p => p.2.1) hl
  have hsynced : ¬s.Synced := of_decide_eq_false (congrArg (fun p => p.2.2) hl)
  exact hsynced (hall _ _ _ s hrun hsettled hpushed)

end Rav
