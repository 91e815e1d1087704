import Rav.Prog
import Rav.Error
import Rav.Db.Filters
import Rav.Sieve.Generator

/-!
# `routes::filters` and `routes::vacation`: the Sieve state

Requests that change filter rules or the out-of-office responder, as programs whose calls are single
statements and single ManageSieve commands. Each such handler spawns a push of the whole state. A push
runs on after the answer; nothing waits for it, so it is modelled as the end of its request.

## Main definitions

- `SieveCall`, `SieveTask` — the calls, and programs making them
- `SieveServer`, `SieveWorld`, `serveSieve` — the state, and the answer to one call
- `pushScript`, `pushState`, `pushSieveAsync`
- `createFilterHandler`, `updateFilterHandler`, `deleteFilterHandler`, `reorderFiltersHandler`,
  `updateVacationHandler`
-/

namespace Rav

/-- The configuration, and `datetime('now')` as text. -/
structure SieveEnv where
  sieveHost : Option String
  datetime : Nat → String

/-- The calls. `login` is everything of a session before the script: the connection, TLS and
authentication. -/
inductive SieveCall
  | withUserDb (nth : Nat)
  | drawUuid
  | insertFilter (id : String) (data : CreateFilterRule)
  | getFilter (id : String)
  | listFilters
  | updateFilter (id : String) (data : UpdateFilterRule)
  | deleteFilter (id : String)
  | setPriority (id : String) (priority : Nat)
  | ensureVacation
  | updateVacation (data : UpdateVacationResponder)
  | getVacation
  | login
  | putScript (name script : String)
  | setActive (name : String)
  deriving DecidableEq

def SieveCall.Answer : SieveCall → Type
  | .withUserDb _ => Except String Unit
  | .drawUuid => String
  | .insertFilter _ _ => Except String Unit
  | .getFilter _ => Except String (Option FilterRule)
  | .listFilters => Except String (List FilterRule)
  | .updateFilter _ _ => Except String Nat
  | .deleteFilter _ => Except String Nat
  | .setPriority _ _ => Except String Nat
  | .ensureVacation => Except String Unit
  | .updateVacation _ => Except String Unit
  | .getVacation => Except String VacationResponder
  | .login => Except String Unit
  | .putScript _ _ => Except String Unit
  | .setActive _ => Except String Unit

abbrev SieveTask := Prog SieveCall SieveCall.Answer

def sieveCall (c : SieveCall) : SieveTask c.Answer := Prog.perform (R := SieveCall.Answer) c

/-! ### The state -/

/-- The scripts of a user on the server by name, and the name of the active one. -/
structure SieveServer where
  scripts : String → Option String
  active : Option String

namespace SieveServer

variable (srv : SieveServer)

/-- Store a script; storing under the name of the active script replaces what is running. -/
def put (name script : String) : SieveServer :=
  { srv with scripts := Function.update srv.scripts name (some script) }

@[simp] theorem put_scripts (name script : String) :
    (srv.put name script).scripts name = some script := Function.update_self _ _ _

def activate (name : String) : SieveServer := { srv with active := some name }

/-- The script that is running. -/
def activeScript : Option String := srv.active.bind srv.scripts

end SieveServer

/-- A user's database and scripts. -/
structure SieveWorld where
  db : Db
  server : SieveServer

/-- What a call meets: an error, after which a command to the server may have been carried out or
not, and the id drawn. -/
structure SieveOutcome where
  fails : Option String
  landed : Bool
  uuid : String
  deriving DecidableEq

namespace SieveOutcome

variable (o : SieveOutcome) (w : SieveWorld)

/-- A statement, unless it fails. -/
def run {α : Type} (f : α × SieveWorld) : Except String α × SieveWorld :=
  match o.fails with
  | some e => (.error e,w)
  | none => (.ok f.1,f.2)

/-- One that has its own way to fail. -/
def runOption {α : Type} (e : String) (f : Option (α × SieveWorld)) : Except String α × SieveWorld :=
  match f with
  | some f => o.run w f
  | none => (.error e,w)

/-- A command to the server. -/
def command (srv : SieveServer) : Except String Unit × SieveWorld :=
  match o.fails with
  | some e => (.error e,if o.landed then { w with server := srv } else w)
  | none => (.ok (),{ w with server := srv })

end SieveOutcome

/-- Answer one call. -/
def serveSieve (env : SieveEnv) (o : SieveOutcome) : (c : SieveCall) → SieveWorld →
    c.Answer × SieveWorld
  | .withUserDb _, w => o.run w ((),w)
  | .drawUuid, w => (o.uuid,w)
  | .insertFilter id data, w =>
    o.runOption w "Failed to insert filter: UNIQUE constraint failed: filter_rules.id"
      ((w.db.insertFilter (data.row id (env.datetime w.db.now))).map
        (fun db => ((),{ w with db := db })))
  | .getFilter id, w => o.run w (w.db.getFilter id,w)
  | .listFilters, w => o.run w (w.db.listFilters,w)
  | .updateFilter id data, w =>
    o.run w ((w.db.updateFilter id data).1,{ w with db := (w.db.updateFilter id data).2 })
  | .deleteFilter id, w =>
    o.run w ((w.db.deleteFilter id).1,{ w with db := (w.db.deleteFilter id).2 })
  | .setPriority id priority, w =>
    o.run w ((w.db.setPriority id priority).1,{ w with db := (w.db.setPriority id priority).2 })
  | .ensureVacation, w => o.run w ((),w)
  | .updateVacation data, w => o.run w ((),{ w with db := w.db.updateVacation data })
  | .getVacation, w => o.run w (w.db.vacation,w)
  | .login, w => o.run w ((),w)
  | .putScript name script, w => o.command w (w.server.put name script)
  | .setActive name, w => o.command w (w.server.activate name)

end Rav

namespace Rav

variable (env : SieveEnv)

/-! ### Pushes -/

/-- Upload and activate a Sieve script over ManageSieve. -/
def pushScript (name script : String) : SieveTask (Except String Unit) := do
  match ← sieveCall .login with
  | .error (e : String) => pure (.error e)
  | .ok () =>
    match ← sieveCall (.putScript name script) with
    | .error (e : String) => pure (.error e)
    | .ok () => sieveCall (.setActive name)

/-- Publish the whole Sieve state if there is a ManageSieve server; failures are logged. -/
def pushState (rules : List FilterRule) (vacation : Option VacationResponder) : SieveTask Unit :=
  match env.sieveHost with
  | none => pure ()
  | some _ => do
    let _ ← pushScript "rav-filters" (generateScript rules vacation)
    pure ()

/-- The responder as stored; none where reading it fails. -/
def readVacation : SieveTask (Option VacationResponder) := do
  match ← sieveCall (.withUserDb 1) with
  | .error (_ : String) => pure none
  | .ok () =>
    match ← sieveCall .getVacation with
    | .error (_ : String) => pure none
    | .ok (v : VacationResponder) => pure (some v)

/-- Push the given filter set to ManageSieve, with the responder as it is by then. -/
def pushSieveAsync (rules : List FilterRule) : SieveTask Unit :=
  match env.sieveHost with
  | none => pure ()
  | some _ => do
    let vacation ← readVacation
    pushState env rules vacation

/-! ### Statements of a request -/

/-- `list_filters(..).unwrap_or_default()`. -/
def listOrDefault : SieveTask (List FilterRule) := do
  match ← sieveCall .listFilters with
  | .error (_ : String) => pure []
  | .ok (rules : List FilterRule) => pure rules

/-- `create_filter`. -/
def createFilter (data : CreateFilterRule) : SieveTask (Except String FilterRule) :=
  match validateActions data.actions with
  | .error e => pure (.error e)
  | .ok () => do
    let id : String ← sieveCall .drawUuid
    match ← sieveCall (.insertFilter id data) with
    | .error (e : String) => pure (.error e)
    | .ok () =>
      match ← sieveCall (.getFilter id) with
      | .error (e : String) => pure (.error e)
      | .ok (rule : Option FilterRule) =>
        pure (rule.elim (.error "Failed to retrieve created filter") .ok)

/-- `update_filter`. -/
def updateFilter (id : String) (data : UpdateFilterRule) :
    SieveTask (Except String (Option FilterRule)) :=
  match data.actions.elim (.ok ()) validateActions with
  | .error e => pure (.error e)
  | .ok () =>
    if data.isEmpty then sieveCall (.getFilter id)
    else do
      match ← sieveCall (.updateFilter id data) with
      | .error (e : String) => pure (.error e)
      | .ok (_ : Nat) => sieveCall (.getFilter id)

/-- `reorder_filters`: priorities count up in the order of the ids. -/
def reorderFilters : List String → Nat → SieveTask (Except String Unit)
  | [], _ => pure (.ok ())
  | id :: ids, i => do
    match ← sieveCall (.setPriority id i) with
    | .error (e : String) => pure (.error e)
    | .ok (_ : Nat) => reorderFilters ids (i + 1)

/-- `update_vacation`. -/
def updateVacation (data : UpdateVacationResponder) :
    SieveTask (Except String VacationResponder) := do
  match ← sieveCall .ensureVacation with
  | .error (e : String) => pure (.error e)
  | .ok () =>
    if data.replyIntervalHours.any (· < 1) then
      pure (.error "reply_interval_hours must be >= 1")
    else if data.isEmpty then sieveCall .getVacation
    else do
      match ← sieveCall (.updateVacation data) with
      | .error (e : String) => pure (.error e)
      | .ok () => sieveCall .getVacation

/-! ### Handlers -/

/-- `POST /api/filters`. -/
def createFilterHandler (body : CreateFilterRule) : SieveTask (Except AppError FilterRule) := do
  match ← sieveCall (.withUserDb 0) with
  | .error (e : String) => pure (.error (.badRequest e))
  | .ok () =>
    match ← createFilter body with
    | .error (e : String) => pure (.error (.badRequest e))
    | .ok (rule : FilterRule) => do
      let rules ← listOrDefault
      pushSieveAsync env rules
      pure (.ok rule)

/-- `PUT /api/filters/{id}`. -/
def updateFilterHandler (id : String) (body : UpdateFilterRule) :
    SieveTask (Except AppError FilterRule) := do
  match ← sieveCall (.withUserDb 0) with
  | .error (e : String) => pure (.error (.badRequest e))
  | .ok () =>
    match ← updateFilter id body with
    | .error (e : String) => pure (.error (.badRequest e))
    | .ok (rule : Option FilterRule) => do
      let rules ← listOrDefault
      match rule with
      | none => pure (.error (.notFound "Filter rule not found"))
      | some rule => do
        pushSieveAsync env rules
        pure (.ok rule)

/-- `DELETE /api/filters/{id}`. -/
def deleteFilterHandler (id : String) : SieveTask (Except AppError Unit) := do
  match ← sieveCall (.withUserDb 0) with
  | .error (e : String) => pure (.error (.internalError e))
  | .ok () =>
    match ← sieveCall (.deleteFilter id) with
    | .error (e : String) => pure (.error (.internalError e))
    | .ok (n : Nat) => do
      let rules ← listOrDefault
      if n = 0 then pure (.error (.notFound "Filter rule not found"))
      else do
        pushSieveAsync env rules
        pure (.ok ())

/-- `PUT /api/filters/reorder`. -/
def reorderFiltersHandler (ids : List String) : SieveTask (Except AppError (List FilterRule)) := do
  match ← sieveCall (.withUserDb 0) with
  | .error (e : String) => pure (.error (.internalError e))
  | .ok () =>
    match ← reorderFilters ids 0 with
    | .error (e : String) => pure (.error (.internalError e))
    | .ok () =>
      match ← sieveCall .listFilters with
      | .error (e : String) => pure (.error (.internalError e))
      | .ok (rules : List FilterRule) => do
        pushSieveAsync env rules
        pure (.ok rules)

/-- The rules to push along with the responder; none where reading them fails. -/
def rulesToPush : SieveTask (List FilterRule) := do
  match ← sieveCall (.withUserDb 1) with
  | .error (_ : String) => pure []
  | .ok () => listOrDefault

/-- Republish the whole state after an update of the responder. -/
def pushVacation (vacation : VacationResponder) : SieveTask Unit :=
  match env.sieveHost with
  | none => pure ()
  | some _ => do
    let rules ← rulesToPush
    pushState env rules (some vacation)

/-- `PUT /api/settings/vacation`. -/
def updateVacationHandler (body : UpdateVacationResponder) :
    SieveTask (Except AppError VacationResponder) := do
  match ← sieveCall (.withUserDb 0) with
  | .error (e : String) => pure (.error (.internalError e))
  | .ok () =>
    match ← updateVacation body with
    | .error (e : String) => pure (.error (.internalError e))
    | .ok (vacation : VacationResponder) => do
      pushVacation env vacation
      pure (.ok vacation)

end Rav
