import Rav.Db.Schema
import Mathlib.Data.List.Sort

/-!
# `db::filters` and `db::vacation`

The statements on filter rules and on the out-of-office responder. A rule's conditions and actions
are stored as JSON; the model stores what the JSON says.

## Main definitions

- `CreateFilterRule`, `UpdateFilterRule`, `validateActions` — what requests ask for
- `Db.listFilters`, `getFilter`, `insertFilter`, `updateFilter`, `deleteFilter`, `setPriority`
- `UpdateVacationResponder`, `Db.updateVacation`
-/

namespace Rav

/-! ### Requests -/

structure CreateFilterRule where
  name : String
  enabled : Bool
  priority : Int
  conditions : List FilterCondition
  matchMode : String
  actions : List FilterAction
  stopProcessing : Bool
  deriving DecidableEq, Repr

structure UpdateFilterRule where
  name : Option String
  enabled : Option Bool
  priority : Option Int
  conditions : Option (List FilterCondition)
  matchMode : Option String
  actions : Option (List FilterAction)
  stopProcessing : Option Bool
  deriving DecidableEq, Repr

/-- An action that cannot do without its value. -/
def requireValue (action : FilterAction) (message : String) : Except String Unit :=
  if (action.actionValue.getD "").isEmpty then .error message else .ok ()

def validateAction (action : FilterAction) : Except String Unit :=
  match action.actionType with
  | "move" => requireValue action "move action requires action_value (target folder)"
  | "tag" => requireValue action "tag action requires action_value (tag id)"
  | "forward" =>
    let addr := action.actionValue.getD ""
    if addr.isEmpty ∨ '@' ∉ addr.toList then
      .error "forward action requires a valid email address"
    else .ok ()
  | "mark_read" => .ok ()
  | "mark_starred" => .ok ()
  | "delete" => .ok ()
  | other => .error ("Invalid action_type: " ++ other)

def validateActions (actions : List FilterAction) : Except String Unit :=
  if actions.isEmpty then .error "At least one action is required"
  else actions.forM validateAction

/-- The row a new rule is stored as. -/
def CreateFilterRule.row (data : CreateFilterRule) (id createdAt : String) : FilterRule where
  id := id
  name := data.name
  enabled := data.enabled
  priority := data.priority
  conditions := data.conditions
  matchMode := data.matchMode
  actions := data.actions
  stopProcessing := data.stopProcessing
  createdAt := createdAt

/-- The row an update leaves. -/
def UpdateFilterRule.apply (data : UpdateFilterRule) (rule : FilterRule) : FilterRule :=
  { rule with
    name := data.name.getD rule.name
    enabled := data.enabled.getD rule.enabled
    priority := data.priority.getD rule.priority
    conditions := data.conditions.getD rule.conditions
    matchMode := data.matchMode.getD rule.matchMode
    actions := data.actions.getD rule.actions
    stopProcessing := data.stopProcessing.getD rule.stopProcessing }

/-- An update that sets nothing. -/
def UpdateFilterRule.isEmpty (data : UpdateFilterRule) : Bool :=
  decide (data = ⟨none,none,none,none,none,none,none⟩)

/-- An update of the responder; a date that is set cannot be taken back. -/
structure UpdateVacationResponder where
  enabled : Option Bool
  subject : Option String
  body : Option String
  startDate : Option (Option String)
  endDate : Option (Option String)
  replyIntervalHours : Option Int
  deriving DecidableEq, Repr

def UpdateVacationResponder.isEmpty (data : UpdateVacationResponder) : Bool :=
  decide (data = ⟨none,none,none,none,none,none⟩)

def UpdateVacationResponder.apply (data : UpdateVacationResponder) (v : VacationResponder) :
    VacationResponder where
  enabled := data.enabled.getD v.enabled
  subject := data.subject.getD v.subject
  body := data.body.getD v.body
  startDate := data.startDate.getD v.startDate
  endDate := data.endDate.getD v.endDate
  replyIntervalHours := data.replyIntervalHours.getD v.replyIntervalHours

/-! ### Statements -/

/-- `ORDER BY priority ASC, created_at ASC`. -/
def FilterRule.Before (a b : FilterRule) : Prop :=
  a.priority < b.priority ∨ a.priority = b.priority ∧ a.createdAt ≤ b.createdAt

instance (a b : FilterRule) : Decidable (a.Before b) := by
  unfold FilterRule.Before
  infer_instance

namespace Db

variable (db : Db)

def listFilters : List FilterRule := db.filterRules.insertionSort FilterRule.Before

def getFilter (id : String) : Option FilterRule := db.filterRules.find? (fun r => r.id = id)

/-- Insert a rule, unless its id is taken. -/
def insertFilter (rule : FilterRule) : Option Db :=
  if (db.getFilter rule.id).isSome then none
  else some { db with filterRules := db.filterRules ++ [rule] }

/-- Change the rule with an id; the number of rows changed. -/
def changeFilter (id : String) (f : FilterRule → FilterRule) : Nat × Db :=
  (db.filterRules.countP (fun r => r.id = id),
    { db with filterRules := db.filterRules.map (fun r => if r.id = id then f r else r) })

def updateFilter (id : String) (data : UpdateFilterRule) : Nat × Db := db.changeFilter id data.apply

def setPriority (id : String) (priority : Int) : Nat × Db :=
  db.changeFilter id (fun r => { r with priority := priority })

def deleteFilter (id : String) : Nat × Db :=
  (db.filterRules.countP (fun r => r.id = id),
    { db with filterRules := db.filterRules.filter (fun r => r.id ≠ id) })

def updateVacation (data : UpdateVacationResponder) : Db :=
  { db with vacation := data.apply db.vacation }

variable {db}

/-- A change of no rows changes nothing. -/
theorem changeFilter_zero {id : String} {f : FilterRule → FilterRule}
    (h : (db.changeFilter id f).1 = 0) : (db.changeFilter id f).2 = db := by
  have hnone : ∀ r ∈ db.filterRules, ¬r.id = id := by
    intro r hr hid
    exact List.countP_eq_zero.mp h r hr (decide_eq_true hid)
  have hrules : db.filterRules.map (fun r => if r.id = id then f r else r) = db.filterRules := by
    conv_rhs => rw [← List.map_id db.filterRules]
    exact List.map_congr_left fun r hr => if_neg (hnone r hr)
  unfold changeFilter
  rw [hrules]

theorem deleteFilter_zero {id : String} (h : (db.deleteFilter id).1 = 0) :
    (db.deleteFilter id).2 = db := by
  have hrules : db.filterRules.filter (fun r => r.id ≠ id) = db.filterRules := by
    refine List.filter_eq_self.mpr fun r hr => decide_eq_true fun hid => ?_
    exact List.countP_eq_zero.mp h r hr (decide_eq_true hid)
  unfold deleteFilter
  rw [hrules]

end Db

end Rav
