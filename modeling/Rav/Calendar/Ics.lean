import Rav.Checked
import Rav.Db.Calendar
import Rav.Error
import Rav.Json
import Rav.Prog
import Rav.Str

/-!
# `calendar::ics` and `routes::calendar::import_ics`

The events of an iCalendar text, and their import. How a text is cut into calendars, events and
properties is left to the `ical` crate, a parameter. Every statement of the import is a call, and may
fail.

## Main definitions

- `IcalParser` — the calendars of a text
- `parseIcalDatetime`, `parseIcs` — the events of a text
- `CalendarCall`, `CalendarWorld` — the statements and the table
- `createEvent`, `importIcs` — the import
-/

namespace Rav.Ics

/-! ### Events of a text -/

/-- `ical::property::Property`, without its parameters. -/
structure IcalProperty where
  name : String
  value : Option String
  deriving DecidableEq, Repr

/-- The properties of a `VEVENT`. -/
abbrev IcalEvent := List IcalProperty

/-- What `IcalParser` yields for a text: the events of one calendar after the other, or an error. -/
abbrev IcalParser := String → List (Except String (List IcalEvent))

/-- Fields for creating a new calendar event. -/
structure CreateEvent where
  title : String
  description : String
  location : String
  startTime : String
  endTime : String
  allDay : Bool
  recurrenceRule : Option String
  attendees : String
  organizer : String
  status : String
  source : String
  sourceUid : Option String
  sourceMessageUid : Option Int
  sourceMessageFolder : Option String
  meetingUrl : Option String
  color : Option String
  reminderMinutes : Option Int
  deriving DecidableEq, Repr

/-- Eight digits. -/
def isBasicDate (value : List Char) : Bool := byteLength value = 8 && value.all Char.isDigit

/-- Check if a DTSTART/DTEND value is date-only (no time component). -/
def isDateOnly (value : String) : Bool := isBasicDate value.toList

/-- `{year}-{month}-{day}`, of the parts of a text. -/
def isoDay (date : List Char) : Except Panic (List Char) := do
  let year ← byteSlice 0 4 date
  let month ← byteSlice 4 6 date
  let day ← byteSlice 6 8 date
  return year ++ '-' :: (month ++ '-' :: day)

def isoSeconds (time : List Char) : Except Panic (List Char) :=
  if 6 ≤ byteLength time then byteSlice 4 6 time else .ok ['0', '0']

/-- `{hour}:{min}:{sec}`, of the parts of a text. -/
def isoClock (time : List Char) : Except Panic (List Char) := do
  let hour ← byteSlice 0 2 time
  let min ← byteSlice 2 4 time
  let sec ← isoSeconds time
  return hour ++ ':' :: (min ++ ':' :: sec)

/-- Parse an iCalendar date/datetime value to ISO 8601 format. -/
def parseIcalDatetime (value : String) : Except Panic String :=
  let value := (strTrim value).toList
  if isBasicDate value then String.ofList <$> isoDay value
  else if 15 ≤ byteLength value ∧ 'T' ∈ value then do
    let datePart ← byteSlice 0 8 value
    let timePart ← dropBytes 9 value
    let day ← isoDay datePart
    let clock ← isoClock timePart
    let suffix := if value.getLast? = some 'Z' then ['Z'] else []
    return String.ofList (day ++ 'T' :: (clock ++ suffix))
  else return String.ofList value

/-- Extract email address from a cal-address value (e.g., "mailto:user@example.com"). -/
def extractEmailFromCalAddress (value : String) : String :=
  if "mailto:".toList.isPrefixOf value.toList then String.ofList (value.toList.drop 7)
  else if "MAILTO:".toList.isPrefixOf value.toList then String.ofList (value.toList.drop 7)
  else value

/-- The variables of the loop over the properties of an event. -/
structure EventFields where
  title : String := ""
  description : String := ""
  location : String := ""
  startTime : String := ""
  endTime : String := ""
  allDay : Bool := false
  uid : Option String := none
  rrule : Option String := none
  organizer : String := ""
  attendees : List String := []
  url : Option String := none

/-- One turn of the loop. -/
def EventFields.property (f : EventFields) (prop : IcalProperty) : Except Panic EventFields :=
  let value := prop.value.getD ""
  if prop.name = "SUMMARY" then .ok { f with title := value }
  else if prop.name = "DESCRIPTION" then .ok { f with description := value }
  else if prop.name = "LOCATION" then .ok { f with location := value }
  else if prop.name = "DTSTART" then do
    let parsed ← parseIcalDatetime value
    return { f with allDay := isDateOnly value, startTime := parsed }
  else if prop.name = "DTEND" then do
    let parsed ← parseIcalDatetime value
    return { f with endTime := parsed }
  else if prop.name = "UID" then .ok { f with uid := some value }
  else if prop.name = "RRULE" then .ok { f with rrule := some value }
  else if prop.name = "ORGANIZER" then .ok { f with organizer := extractEmailFromCalAddress value }
  else if prop.name = "ATTENDEE" then
    .ok { f with attendees := f.attendees ++ [extractEmailFromCalAddress value] }
  else if prop.name = "URL" ∧ value ≠ "" then .ok { f with url := some value }
  else .ok f

/-- What comes after the loop. Events without a start time are skipped. -/
def EventFields.event (f : EventFields) : Option CreateEvent :=
  if f.startTime = "" then none
  else some {
    title := if f.title = "" then "(No title)" else f.title
    description := f.description
    location := f.location
    startTime := f.startTime
    endTime := if f.endTime = "" then f.startTime else f.endTime
    allDay := f.allDay
    recurrenceRule := f.rrule
    attendees := Json.array Json.string f.attendees
    organizer := f.organizer
    status := "confirmed"
    source := "ics"
    sourceUid := f.uid
    sourceMessageUid := none
    sourceMessageFolder := none
    meetingUrl := f.url
    color := none
    reminderMinutes := none }

def parseEvent (vevent : IcalEvent) : Except Panic (Option CreateEvent) :=
  EventFields.event <$> vevent.foldlM EventFields.property {}

/-- The loop over the calendars. It ends at an error. -/
def parseCalendars : List (Except String (List IcalEvent)) → Except Panic (Except String (List CreateEvent))
  | [] => .ok (.ok [])
  | .error e :: _ => .ok (.error ("Failed to parse ICS: " ++ e))
  | .ok vevents :: rest => do
    let parsed ← vevents.mapM parseEvent
    let more ← parseCalendars rest
    return more.map (parsed.filterMap id ++ ·)

/-- Parse iCalendar text and return a list of events ready for database insertion. -/
def parseIcs (parser : IcalParser) (icsText : String) : Except Panic (Except String (List CreateEvent)) :=
  parseCalendars (parser icsText)

/-! ### Calls -/

inductive CalendarCall
  | withUserDb
  | findEventBySourceUid (sourceUid : String)
  /-- `Uuid::new_v4`. -/
  | newV4
  /-- `SELECT strftime('%Y-%m-%dT%H:%M:%SZ', 'now')`. -/
  | strftimeNow
  | insertEvent (row : CalendarEvent)
  | getEvent (id : String)

def CalendarCall.Answer : CalendarCall → Type
  | .withUserDb => Except String Unit
  | .findEventBySourceUid _ => Except String (Option CalendarEvent)
  | .newV4 => String
  | .strftimeNow => Except String String
  | .insertEvent _ => Except String Unit
  | .getEvent _ => Except String (Option CalendarEvent)

abbrev CalendarTask := Prog CalendarCall CalendarCall.Answer

def calendarCall (c : CalendarCall) : CalendarTask c.Answer := Prog.perform (R := CalendarCall.Answer) c

/-- The table, the clock, the ids that are drawn, and which of the next statements fail. -/
structure CalendarWorld where
  events : CalendarEvents
  now : String
  uuids : Nat → String
  issued : Nat
  faults : List (Option String)

namespace CalendarWorld

variable (w : CalendarWorld)

/-- The error of the next statement, if it fails. -/
def fault : Option String := w.faults.head?.join

/-- A statement, unless it fails. -/
def statement {α : Type} (failed : String) (r : Except String α × CalendarEvents) :
    Except String α × CalendarWorld :=
  match w.fault with
  | some e => (.error (failed ++ e), { w with faults := w.faults.tail })
  | none => (r.1, { w with events := r.2, faults := w.faults.tail })

/-- `INSERT INTO calendar_events`, with its primary key. -/
def insert (row : CalendarEvent) : Except String Unit × CalendarEvents :=
  match w.events.find? row.id with
  | some _ => (.error "UNIQUE constraint failed: calendar_events.id", w.events)
  | none => (.ok (), w.events.insertOrIgnore row)

end CalendarWorld

/-- Answer one call. -/
def CalendarCall.serve : (c : CalendarCall) → CalendarWorld → c.Answer × CalendarWorld
  | .withUserDb, w => w.statement "" (.ok (), w.events)
  | .findEventBySourceUid sourceUid, w =>
    w.statement "Failed to find event by source_uid: "
      (.ok (w.events.rows.find? (fun r => r.sourceUid = some sourceUid)), w.events)
  | .newV4, w => (w.uuids w.issued, { w with issued := w.issued + 1 })
  | .strftimeNow, w => w.statement "" (.ok w.now, w.events)
  | .insertEvent row, w => w.statement "" (w.insert row)
  | .getEvent id, w => w.statement "Failed to get event: " (.ok (w.events.find? id), w.events)

/-! ### The import -/

def CreateEvent.row (data : CreateEvent) (id now : String) : CalendarEvent where
  id := id
  title := data.title
  description := data.description
  location := data.location
  startTime := data.startTime
  endTime := data.endTime
  allDay := data.allDay
  recurrenceRule := data.recurrenceRule
  attendees := data.attendees
  organizer := data.organizer
  status := data.status
  source := data.source
  sourceUid := data.sourceUid
  sourceMessageUid := data.sourceMessageUid
  sourceMessageFolder := data.sourceMessageFolder
  meetingUrl := data.meetingUrl
  color := data.color
  reminderMinutes := data.reminderMinutes
  createdAt := now
  updatedAt := now

/-- Create a new calendar event. Generates a UUID for the ID. -/
def createEvent (data : CreateEvent) : CalendarTask (Except String CalendarEvent) := do
  let id ← calendarCall .newV4
  match ← calendarCall .strftimeNow with
  | .error (e : String) => pure (.error ("Failed to get current time: " ++ e))
  | .ok (now : String) =>
    match ← calendarCall (.insertEvent (data.row id now)) with
    | .error (e : String) => pure (.error ("Failed to create event: " ++ e))
    | .ok () =>
      match ← calendarCall (.getEvent id) with
      | .error (e : String) => pure (.error e)
      | .ok none => pure (.error "Event not found after insert")
      | .ok (some (event : CalendarEvent)) => pure (.ok event)

/-- Whether an event is found by its `source_uid`. An error is taken for a no. -/
def isKnown (sourceUid : Option String) : CalendarTask Bool :=
  match sourceUid with
  | none => pure false
  | some uid => do
    match ← calendarCall (.findEventBySourceUid uid) with
    | .ok (some (_ : CalendarEvent)) => pure true
    | .ok none => pure false
    | .error (_ : String) => pure false

structure ImportIcsResponse where
  created : Nat
  skipped : Nat
  events : List CalendarEvent

/-- The events that have been created, and how many have been skipped. -/
structure Imported where
  createdEvents : List CalendarEvent
  skipped : Nat

/-- One turn of the loop. -/
def importEvent (data : CreateEvent) (r : Imported) : CalendarTask Imported := do
  if ← isKnown data.sourceUid then pure { r with skipped := r.skipped + 1 }
  else
    match ← createEvent data with
    | .ok (event : CalendarEvent) => pure { r with createdEvents := r.createdEvents ++ [event] }
    | .error (_ : String) => pure { r with skipped := r.skipped + 1 }

def importEvents : List CreateEvent → Imported → CalendarTask Imported
  | [], r => pure r
  | data :: rest, r => do
    let r ← importEvent data r
    importEvents rest r

/-- The closure of `import_ics`, and the response. -/
def storeEvents (parsed : List CreateEvent) : CalendarTask (Except AppError ImportIcsResponse) := do
  match ← calendarCall .withUserDb with
  | .error (e : String) => pure (.error (.internalError ("Database error: " ++ e)))
  | .ok () =>
    let r ← importEvents parsed ⟨[], 0⟩
    pure (.ok ⟨r.createdEvents.length, r.skipped, r.createdEvents⟩)

/-- `POST /api/calendar/events/import-ics`: import events from ICS text, deduplicated by source_uid. -/
def importIcs (parser : IcalParser) (body : String) :
    Except Panic (CalendarTask (Except AppError ImportIcsResponse)) :=
  if strTrim body = "" then .ok (pure (.error (.badRequest "Empty ICS body")))
  else do
    match ← parseIcs parser body with
    | .error e => return pure (.error (.badRequest ("Failed to parse ICS: " ++ e)))
    | .ok parsed => return storeEvents parsed

/-- What an import leaves. A request that panics makes no statement. -/
def afterImport (parser : IcalParser) (body : String) (w : CalendarWorld) : CalendarWorld :=
  match importIcs parser body with
  | .error _ => w
  | .ok task => (task.run CalendarCall.serve w).2

end Rav.Ics
