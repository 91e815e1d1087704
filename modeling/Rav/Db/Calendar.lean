import Rav.Ascending
import Rav.Table

/-!
# `db::calendar`: events of a time range

The calendar's events and the query of a range, which expands recurring events. Instants are in
nanoseconds since the epoch; `chrono` and `rrule` are parameters.

## Main definitions

- `CalendarEvent` — a row of `calendar_events`
- `CalendarEnv` — what is read and written as a time, and the occurrences of a rule
- `tryExpand`, `expandRecurring`, `listEvents`
-/

namespace Rav

/-- A calendar event record. -/
structure CalendarEvent where
  id : String
  title : String
  description : String
  location : String
  startTime : String
  endTime : String
  allDay : Bool
  recurrenceRule : Option String
  attendees : String
  organizer : String
  status : String
  source : String
  sourceUid : Option String
  sourceMessageUid : Option Int
  sourceMessageFolder : Option String
  meetingUrl : Option String
  color : Option String
  reminderMinutes : Option Int
  createdAt : String
  updatedAt : String
  deriving DecidableEq, Repr

/-- The table `calendar_events`. -/
abbrev CalendarEvents := Table CalendarEvent.id

def second : Int := 1000000000

def day : Int := 86400 * second

/-- Parsing and formatting of `chrono`, and `RRuleSet::from_str`. -/
structure CalendarEnv where
  /-- `%Y-%m-%d`, in days since the epoch. -/
  date : String → Option Int
  /-- `DateTime<Utc>`. -/
  dateTime : String → Option Int
  /-- `%Y-%m-%dT%H:%M:%S`. -/
  naiveDateTime : String → Option Int
  formatDate : Int → String
  /-- `%Y-%m-%dT%H:%M:%SZ`. -/
  formatUtc : Int → String
  rruleSet : String → Option (Ascending Int)

def isDateOnly (iso : String) : Bool := iso.utf8ByteSize = 10 && !iso.toList.contains 'T'

/-- An ISO 8601 time as an iCal `DTSTART` line. -/
def isoToIcalDtstart (iso : String) : String :=
  if isDateOnly iso then
    "DTSTART;VALUE=DATE:" ++ String.ofList (iso.toList.filter (fun c => c ≠ '-'))
  else "DTSTART:" ++ String.ofList (iso.toList.filter (fun c => c ≠ '-' && c ≠ ':'))

/-- The iCal text of an event's rule. -/
def icalRule (start rule : String) : String := isoToIcalDtstart start ++ "\nRRULE:" ++ rule

variable (env : CalendarEnv)

/-- An ISO 8601 time, as UTC. -/
def parseIsoAsUtc (iso : String) : Option Int :=
  if isDateOnly iso then (env.date iso).map (fun d => d * day)
  else if iso.toList.getLast? = some 'Z' then env.dateTime iso
  else env.naiveDateTime iso

/-- How long an event lasts. -/
def eventDuration (e : CalendarEvent) : Option Int :=
  if isDateOnly e.startTime then do
    let s ← env.date e.startTime
    let t ← env.date e.endTime
    pure ((t - s) * day)
  else do
    let s ← parseIsoAsUtc env e.startTime
    let t ← parseIsoAsUtc env e.endTime
    pure (t - s)

/-- The occurrence of an event at an instant. -/
def occurrenceAt (e : CalendarEvent) (duration t : Int) : CalendarEvent :=
  if isDateOnly e.startTime then
    { e with
      startTime := env.formatDate (t / day)
      endTime := env.formatDate (t / day + duration / day) }
  else { e with startTime := env.formatUtc t, endTime := env.formatUtc (t + duration) }

/-- Where the rule and all times can be read: the duration of a recurring event, and when it
occurs within a range. -/
def occurrencesWithin (e : CalendarEvent) (rule rangeStart rangeEnd : String) :
    Option (Int × List Int) := do
  let rruleSet ← env.rruleSet (icalRule e.startTime rule)
  let windowStart ← parseIsoAsUtc env rangeStart
  let windowEnd ← parseIsoAsUtc env rangeEnd
  let duration ← eventDuration env e
  pure (duration,rruleSet.between windowStart windowEnd)

/-- The occurrences of an event, up to 500; `none` if something cannot be read. -/
def tryExpand (e : CalendarEvent) (rangeStart rangeEnd : String) : Option (List CalendarEvent) :=
  match e.recurrenceRule with
  | none => some [e]
  | some rule => do
    let (duration,ts) ← occurrencesWithin env e rule rangeStart rangeEnd
    let occurrences := (ts.take 500).map (occurrenceAt env e duration)
    if occurrences = [] then pure [e] else pure occurrences

def sortByStart (es : List CalendarEvent) : List CalendarEvent :=
  es.mergeSort (fun a b => decide (a.startTime ≤ b.startTime))

/-- Expand recurring events; on any error an event is kept as it is. -/
def expandRecurring (es : List CalendarEvent) (rangeStart rangeEnd : String) :
    List CalendarEvent :=
  sortByStart (es.flatMap (fun e => (tryExpand env e rangeStart rangeEnd).getD [e]))

/-- `end_time >= start AND start_time <= end`, compared as texts. -/
def CalendarEvent.MeetsRange (e : CalendarEvent) (rangeStart rangeEnd : String) : Prop :=
  rangeStart ≤ e.endTime ∧ e.startTime ≤ rangeEnd

instance (e : CalendarEvent) (rangeStart rangeEnd : String) :
    Decidable (e.MeetsRange rangeStart rangeEnd) :=
  inferInstanceAs (Decidable (rangeStart ≤ e.endTime ∧ e.startTime ≤ rangeEnd))

/-- The events of a range, start and end included. -/
def listEvents (db : CalendarEvents) (rangeStart rangeEnd : String) : List CalendarEvent :=
  let rows := db.rows.filter (fun e => decide (e.MeetsRange rangeStart rangeEnd))
  expandRecurring env (sortByStart rows) rangeStart rangeEnd

end Rav
