import NexaStays.HostCalendar
import Mathlib.Data.List.Basic

/-!
# External calendars

`CalendarSyncService`: a sync claims its calendar, fetches the feed, replaces the stored
events of the calendar and brings the nights it blocks up to date, one statement after
the other and outside any transaction. The calendar's row is saved as a whole entity.
-/
namespace NexaStays.CalendarSync

open NexaStays.KeyedTable NexaStays.Transactions NexaStays.Database NexaStays.BookingDate
  NexaStays.HostCalendar

open NexaStays.Transactions.Program (require expect receive attempt forEach)

/-- The calendar date of a day: the inverse of `Ymd.toDay`. -/
def ymdOfDay (day : ℤ) : Ymd :=
  let z := day + 719468
  let era := z / 146097
  let doe := z % 146097
  let yoe := (doe - doe / 1460 + doe / 36524 - doe / 146096) / 365
  let doy := doe - (365 * yoe + yoe / 4 - yoe / 100)
  let mp := (5 * doy + 2) / 153
  let month := if mp < 10 then mp + 3 else mp - 9
  let year := yoe + era * 400 + if month ≤ 2 then 1 else 0
  ⟨year.toNat, month.toNat, (doy - (153 * mp + 2) / 5 + 1).toNat⟩

/-- `setUTCMonth(getUTCMonth() + n)`: the day of the month is kept, and spills into the
next month where the month is shorter. -/
def addMonths (day : ℤ) (n : ℕ) : ℤ :=
  let d := ymdOfDay day
  let months := d.year * 12 + (d.month - 1) + n
  (Ymd.mk (months / 12) (months % 12 + 1) d.day).toDay

example : addMonths (Ymd.mk 2025 8 31).toDay 18 = (Ymd.mk 2027 3 3).toDay := by decide

def importPastDays : ℤ := 30

def horizonMonths : ℕ := 18

/-- The nights `[from, to)` that are imported at an instant. -/
structure Horizon where
  start : ℤ
  stop : ℤ
  deriving DecidableEq, Repr

def importHorizon (now : ℤ) : Horizon :=
  let today := now / dayMs
  ⟨today - importPastDays, addMonths today horizonMonths⟩

/-- A component of a parsed feed, with its dates as `toDateOnly` reads them. -/
structure IcsComponent where
  isVevent : Bool
  isCancelled : Bool
  start : Option ℤ
  stop : Option ℤ
  uid : Option String
  recurrenceId : Option String
  summary : Option String
  deriving DecidableEq, Repr

structure ParsedEvent where
  uid : String
  recurrenceId : String
  startDate : ℤ
  endDate : ℤ
  summary : Option String
  deriving DecidableEq, Repr

/-- What `fetchIcs` and the parser bring back; the message of an error tells whether it
was a timeout. -/
inductive Fetched where
  | notModified
  | failed (isTimeout : Bool) (message : String)
  | delivered (data : List (String × IcsComponent)) (etag lastModified : Option String)
  deriving DecidableEq, Repr

/-- An event without an end, or with an end that is not after its start, has one night. -/
def parseIcsEvent (key : String) (ev : IcsComponent) : Option ParsedEvent :=
  if ev.isVevent ∧ ¬ev.isCancelled then
    ev.start.map fun start =>
      { uid := ev.uid.getD key
        recurrenceId := ev.recurrenceId.getD ""
        startDate := start
        endDate := (ev.stop.filter (start < ·)).getD (start + 1)
        summary := ev.summary.filter (· ≠ "") }
  else none

def parseIcsEvents (data : List (String × IcsComponent)) : List ParsedEvent :=
  data.filterMap fun entry => parseIcsEvent entry.1 entry.2

def inHorizon (h : Horizon) (events : List ParsedEvent) : List ParsedEvent :=
  events.filter fun e => h.start < e.endDate ∧ e.startDate < h.stop

/-- The nights of the events inside the horizon, each once. -/
def expandNights (events : List ParsedEvent) (h : Horizon) : List ℤ :=
  (events.flatMap fun e => nightsBetween (max e.startDate h.start) (min e.endDate h.stop)).eraseDups

/-- The last event to start; of several the first in the feed. -/
def pickLastReservation (events : List ParsedEvent) : Option (ℤ × ℤ) :=
  (events.foldl (fun (best : Option ParsedEvent) e => match best with
    | none => some e
    | some b => if b.startDate < e.startDate then some e else some b) none).map
    fun e => (e.startDate, e.endDate)

def storedEvents (s : Store) (calendarId : ℕ) : List StaysExternalCalendarEvent :=
  s.events.rows.filter fun e => e.externalCalendarId = calendarId

def eventRow (calendarId : ℕ) (e : ParsedEvent) : StaysExternalCalendarEvent :=
  { externalCalendarId := calendarId
    uid := e.uid
    recurrenceId := e.recurrenceId
    startDate := e.startDate
    endDate := e.endDate
    summary := e.summary }

/-- The nights a calendar blocks. -/
def icalRows (s : Store) (calendarId : ℕ) : List StaysAvailabilityBlock :=
  s.blocks.rows.filter fun b => b.externalCalendarId = some calendarId ∧ b.source = some .ical

def icalBlock (listingId calendarId : ℕ) (night : ℤ) : StaysAvailabilityBlock :=
  { listingId
    date := night
    isBlocked := true
    source := some .ical
    externalCalendarId := some calendarId }

/-- The conditional `UPDATE` that claims a calendar for two minutes. -/
def claimCalendar (calendarId : ℕ) (now claimUntil : ℤ) (evenSyncing : Bool) (s : Store) :
    List Write :=
  ((s.calendars.find? calendarId).filter fun c =>
    (∀ u ∈ c.lockedUntil, u < now) ∧ (evenSyncing ∨ c.status ≠ .syncing)).toList.map fun c =>
    .calendar { c with
      status := .syncing, lockedUntil := some claimUntil, lastAttemptAt := some now }

/-- A column of a saved entity: written where it differs from the row that `save` read. -/
def savedColumn {α : Type} [DecidableEq α] (entity stored current : α) : α :=
  if entity = stored then current else entity

/-- What `save` makes of the current row. -/
def savedRow (entity stored current : StaysExternalCalendar) : StaysExternalCalendar :=
  { id := current.id
    listingId := savedColumn entity.listingId stored.listingId current.listingId
    status := savedColumn entity.status stored.status current.status
    nextSyncAt := savedColumn entity.nextSyncAt stored.nextSyncAt current.nextSyncAt
    lockedUntil := savedColumn entity.lockedUntil stored.lockedUntil current.lockedUntil
    lastAttemptAt := savedColumn entity.lastAttemptAt stored.lastAttemptAt current.lastAttemptAt
    lastSuccessfulSyncAt := savedColumn entity.lastSuccessfulSyncAt stored.lastSuccessfulSyncAt
      current.lastSuccessfulSyncAt
    lastError := savedColumn entity.lastError stored.lastError current.lastError
    etag := savedColumn entity.etag stored.etag current.etag
    lastModified := savedColumn entity.lastModified stored.lastModified current.lastModified
    consecutiveFailures := savedColumn entity.consecutiveFailures stored.consecutiveFailures
      current.consecutiveFailures
    syncResult := savedColumn entity.syncResult stored.syncResult current.syncResult }

/-- `calendarRepo.save`: the row is read again, then inserted if it is gone, else the
columns that differ are updated. -/
def saveCalendar (entity : StaysExternalCalendar) : Stays Unit := do
  let stored ← Stays.read fun s => s.calendars.find? entity.id
  let _ ← Stays.update fun s => match stored with
    | none => [.calendar entity]
    | some row => (s.calendars.find? entity.id).toList.map fun c => .calendar (savedRow entity row c)
  pure ()

inductive SyncOutcome where
  | success | notModified | timeout | error
  deriving DecidableEq, Repr

structure SyncSummary where
  calendarId : ℕ
  outcome : SyncOutcome
  importedEvents : ℕ
  removedEvents : ℕ
  blockedNights : ℕ
  lastReservation : Option (ℤ × ℤ)
  message : Option String
  deriving DecidableEq, Repr

/-- The steps of the back-off, in minutes. -/
def backOffMinutes (consecutiveFailures : ℕ) : ℤ :=
  if consecutiveFailures = 0 then 5
  else [5, 15, 60, 180, 360].getD (min consecutiveFailures 4) 360

/-- From the current instant, with up to a minute of jitter. -/
def nextSyncAt (consecutiveFailures : ℕ) : Stays ℤ := do
  let now ← receive
  let jitter ← receive
  pure (now + backOffMinutes consecutiveFailures * 60000 + (jitter % 60000 : ℕ))

/-- `appendLog` and `trimLogs`. Nothing reads the log but the host's list of calendars; its
statements can fail like any other. -/
def writeLog : Stays Unit := do
  Stays.read fun _ => ()
  Stays.read fun _ => ()
  Stays.read fun _ => ()

def finishSuccess (cal : StaysExternalCalendar) (summary : SyncSummary) (notModified : Bool)
    (restoreStatus : CalendarStatus) : Stays Unit := do
  let now ← receive
  let next ← nextSyncAt 0
  saveCalendar { cal with
    status := restoreStatus
    lockedUntil := none
    lastSuccessfulSyncAt := some now
    lastError := none
    consecutiveFailures := 0
    nextSyncAt := next
    syncResult := some
      { importedEvents := summary.importedEvents
        removedEvents := summary.removedEvents
        blockedNights := summary.blockedNights
        notModified
        lastReservation := summary.lastReservation } }
  writeLog

def finishFailure (cal : StaysExternalCalendar) (summary : SyncSummary) : Stays Unit := do
  let failures := cal.consecutiveFailures + 1
  let next ← nextSyncAt failures
  saveCalendar { cal with
    status := .error
    lockedUntil := none
    lastError := some (summary.message.getD "Sync failed")
    consecutiveFailures := failures
    nextSyncAt := next }
  writeLog

/-- The rejected key of a bulk insert: a key that is there, or that the rows have twice. -/
def insertable (s : Store) (rows : List StaysExternalCalendarEvent) : Bool :=
  (rows.map fun e => (e.externalCalendarId, e.uid, e.recurrenceId)).Nodup ∧
    ∀ e ∈ rows, s.events.find? (e.externalCalendarId, e.uid, e.recurrenceId) = none

/-- `eventRepo.insert`, under the unique constraint of the table. -/
def insertEvents (rows : List StaysExternalCalendarEvent) : Stays Unit :=
  Program.update (fun s => if insertable s rows then rows.map .event else [])
    (fun s => if insertable s rows then .pure () else .throw .database) (.throw .database)

/-- Nothing is sent for a feed without events in the horizon. -/
def insertInHorizon (calendarId : ℕ) (events : List ParsedEvent) : Stays Unit :=
  if events = [] then pure () else insertEvents (events.map (eventRow calendarId))

def releaseNights (toRemove : List StaysAvailabilityBlock) : Stays Unit :=
  if toRemove = [] then pure ()
  else do
    let _ ← Stays.update fun _ => toRemove.map .deleteBlock
    pure ()

/-- One night of the feed: the rows of the host, of an administrator and of another
calendar are left alone. -/
def blockNight (cal : StaysExternalCalendar) (night : ℤ) : Stays Unit := do
  let existing ← Stays.read fun s => s.blocks.find? (cal.listingId, night)
  let source := existing.bind (·.source)
  let owner := existing.bind (·.externalCalendarId)
  if source = some .host ∨ source = some .admin then pure ()
  else if source = some .ical ∧ owner ≠ none ∧ owner ≠ some cal.id then pure ()
  else do
    let _ ← Stays.update fun _ => [.block (icalBlock cal.listingId cal.id night)]
    pure ()

/-- What a summary repeats of the last sync. -/
def lastSummary (cal : StaysExternalCalendar) (outcome : SyncOutcome) (message : Option String) :
    SyncSummary :=
  { calendarId := cal.id
    outcome
    importedEvents := 0
    removedEvents := 0
    blockedNights := (cal.syncResult.map (·.blockedNights)).getD 0
    lastReservation := cal.syncResult.bind (·.lastReservation)
    message }

/-- The import of a feed that was delivered. -/
def importFeed (cal : StaysExternalCalendar) (now : ℤ) (data : List (String × IcsComponent))
    (etag lastModified : Option String) : Stays SyncSummary := do
  let horizon := importHorizon now
  let events := inHorizon horizon (parseIcsEvents data)
  let oldEvents ← Stays.read fun s => storedEvents s cal.id
  let _ ← Stays.update fun s => (storedEvents s cal.id).map .deleteEvent
  insertInHorizon cal.id events
  let nights := expandNights events horizon
  let existingIcal ← Stays.read fun s => icalRows s cal.id
  releaseNights (existingIcal.filter fun b => b.date ∉ nights)
  forEach (blockNight cal) nights
  let blockedNights ← Stays.read fun s => ((icalRows s cal.id).filter (·.isBlocked)).length
  let summary : SyncSummary :=
    { calendarId := cal.id
      outcome := .success
      importedEvents := events.length
      removedEvents := oldEvents.length - events.length
      blockedNights
      lastReservation := pickLastReservation events
      message := none }
  finishSuccess { cal with
    etag := (etag.filter (· ≠ "")).or cal.etag
    lastModified := (lastModified.filter (· ≠ "")).or cal.lastModified } summary false .active
  pure summary

/-- The `try` block. -/
def trySync (cal : StaysExternalCalendar) (now : ℤ) : Fetched → Stays SyncSummary
  | .notModified => do
    let summary := lastSummary cal .notModified none
    finishSuccess cal summary true (if cal.status = .paused then .paused else .active)
    pure summary
  | .failed _ message => .throw (.internal message)
  | .delivered data etag lastModified => importFeed cal now data etag lastModified

def errorMessage : StaysError → String
  | .notFound m | .badRequest m | .conflict m | .forbidden m | .internal m => m
  | .database => "QueryFailedError"

/-- Of a failing statement only the driver's message tells whether it was a timeout. -/
def failureOutcome (fetched : Fetched) (e : StaysError) (answer : ℕ) : SyncOutcome :=
  match fetched, e with
  | .failed isTimeout _, .internal _ => if isTimeout then .timeout else .error
  | _, _ => if answer = 0 then .timeout else .error

/-- The `catch` block. -/
def catchSync (cal : StaysExternalCalendar) (fetched : Fetched) (e : StaysError) :
    Stays SyncSummary := do
  let answer ← receive
  let summary := lastSummary cal (failureOutcome fetched e answer) (some (errorMessage e))
  finishFailure cal summary
  pure summary

/-- A sync after its claim. -/
def syncClaimed (calendarId : ℕ) (now : ℤ) (fetched : Fetched) : Stays SyncSummary := do
  let found ← Stays.read fun s => s.calendars.find? calendarId
  let cal ← expect found (.internal "EntityNotFoundError")
  attempt (trySync cal now fetched) (catchSync cal fetched)

def claimMs : ℤ := 2 * 60000

/-- The answer where another sync holds the claim. -/
def alreadyInProgress (calendarId : ℕ) : SyncSummary :=
  { calendarId
    outcome := .error
    importedEvents := 0
    removedEvents := 0
    blockedNights := 0
    lastReservation := none
    message := some "Sync already in progress" }

/-- `now` is the instant of the call, and `fetched` what the feed answers. -/
def syncCalendar (calendarId : ℕ) (force : Bool) (now : ℤ) (fetched : Fetched) :
    Stays SyncSummary := do
  let claim ← Stays.update (claimCalendar calendarId now (now + claimMs) false)
  if claim ≠ [] then syncClaimed calendarId now fetched
  else if force then do
    let later ← receive
    let forced ← Stays.update (claimCalendar calendarId later (now + claimMs) true)
    require (forced ≠ []) (.conflict "Sync already in progress")
    syncClaimed calendarId now fetched
  else pure (alreadyInProgress calendarId)

def batchLimit : ℕ := 100

/-- A calendar the scheduler selects from. -/
def isDue (now : ℤ) (c : StaysExternalCalendar) : Bool :=
  c.status ∈ [.active, .error] ∧ c.nextSyncAt ≤ now ∧ ∀ u ∈ c.lockedUntil, u < now

/-- The due calendars, the one that has waited longest first. -/
def dueCalendars (now : ℤ) (s : Store) : List StaysExternalCalendar :=
  ((s.calendars.rows.filter (isDue now)).mergeSort fun a b => a.nextSyncAt ≤ b.nextSyncAt).take
    batchLimit

/-- The batch of the scheduler; `feed` is what each calendar's feed answers. Every sync reads
the clock for itself. -/
def processDueCalendars (now : ℤ) (feed : ℕ → Fetched) : Stays Unit := do
  let due ← Stays.read (dueCalendars now)
  forEach (fun cal => attempt
    (do
      let started ← receive
      let _ ← syncCalendar cal.id false started (feed cal.id)
      pure ())
    fun _ => pure ()) due

/-- The listing of a host. -/
def assertListingOwner (listingId hostUserId : ℕ) : Stays StaysListing := do
  let found ← Stays.read fun s => s.listings.find? listingId
  expect (found.filter fun l => l.hostUserId = hostUserId) (.notFound "Listing not found")

def getOwnedCalendar (listingId calendarId hostUserId : ℕ) : Stays StaysExternalCalendar := do
  let _ ← assertListingOwner listingId hostUserId
  let found ← Stays.read fun s => s.calendars.find? calendarId
  expect (found.filter fun c => c.listingId = listingId) (.notFound "Calendar not found")

/-- `patch.status`; a label is not modelled. -/
def updateCalendar (listingId calendarId hostUserId : ℕ) (pause : Option Bool) : Stays Unit := do
  let cal ← getOwnedCalendar listingId calendarId hostUserId
  let now ← receive
  saveCalendar (match pause with
    | none => cal
    | some true => { cal with status := .paused }
    | some false => { cal with status := .active, nextSyncAt := now, consecutiveFailures := 0 })

/-- What the reference of a block to its calendar does when the calendar is deleted. The
entity declares no such reference; the comment in `deleteCalendar` says that it cascades. -/
inductive BlockReference where
  | none | cascade
  deriving DecidableEq, Repr

/-- The blocks that go with a calendar. -/
def referencedBlocks (reference : BlockReference) (calendarId : ℕ) (s : Store) :
    List StaysAvailabilityBlock :=
  if reference = .cascade then
    s.blocks.rows.filter fun b => b.externalCalendarId = some calendarId
  else []

/-- One `DELETE`, which the events of the calendar follow. -/
def deleteCalendarRows (reference : BlockReference) (calendarId : ℕ) (s : Store) : List Write :=
  (s.calendars.find? calendarId).toList.map .deleteCalendar ++
    (storedEvents s calendarId).map .deleteEvent ++
    (referencedBlocks reference calendarId s).map .deleteBlock

def deleteCalendar (reference : BlockReference) (listingId calendarId hostUserId : ℕ) :
    Stays Unit := do
  let _ ← getOwnedCalendar listingId calendarId hostUserId
  let _ ← Stays.update (deleteCalendarRows reference calendarId)
  pure ()

end NexaStays.CalendarSync
