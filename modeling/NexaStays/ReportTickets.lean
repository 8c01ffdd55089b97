import NexaStays.SupportTickets

/-!
# The ticket of a report

A report gets its ticket from whichever call comes first: the one that files the report, the one
that escalates it, or one of its reporter. A call looks for the ticket and inserts one when there
is none. An insert that meets another ticket of the report is undone, up to the savepoint when it
is nested in a transaction and with its own transaction otherwise, and the call looks again.
-/
namespace NexaStays.ReportTickets

open NexaStays.KeyedTable
open NexaStays.MessagingStore (MessagingError StaysConversation StaysMessage SupportTicketParty)
open NexaStays.Messages (afterMessage newMessage textInput)
open NexaStays.SqlText (trim)
open NexaStays.SupportSla (SupportTicketPriority)
open NexaStays.SupportTickets (SupportTicket newConversation newTicket)

/-- The ticket `SUP-year-counter`. -/
structure TicketNumber where
  year : ℕ
  counter : ℕ
  deriving DecidableEq, Repr

inductive TrustReportStatus where
  | open | reviewed | escalated | dismissed
  deriving DecidableEq, Repr

structure StaysConversationReport where
  id : ℕ
  conversationId : ℕ
  reporterUserId : ℕ
  reason : Option String
  attachmentIds : List ℕ
  status : TrustReportStatus := .open
  bookingId : Option ℕ
  listingId : Option ℕ
  reportedUserId : Option ℕ
  deriving DecidableEq, Repr

/-- A ticket, with what it is about. -/
structure ReportTicket extends SupportTicket where
  ticketNumber : TicketNumber
  subject : String
  bookingId : Option ℕ
  listingId : Option ℕ
  reportId : Option ℕ
  safetyIssueId : Option ℕ
  lastMessagePreview : String
  customerName : Option String
  requesterEmail : Option String
  deriving DecidableEq, Repr

def ReportTicket.key (ticket : ReportTicket) : ℕ := ticket.id

/-- The counter of a year that has no row is zero. -/
structure Database where
  reports : Table StaysConversationReport.id
  tickets : Table ReportTicket.key
  conversations : Table StaysConversation.id
  messages : List StaysMessage
  counters : ℕ → ℕ

structure BookingLink where
  id : ℕ
  guestUserId : ℕ
  listingId : Option ℕ
  listingHostUserId : Option ℕ

/-- What the calls read of other services and tables. -/
structure Directory where
  booking : ℕ → Option BookingLink
  listingHost : ℕ → Option ℕ
  safetyReporter : ℕ → Option ℕ
  isHost : ℕ → Bool
  fullName : ℕ → Option String
  email : ℕ → Option String
  requesterLanguage : ℕ → Option String

structure CreateSupportTicketDto where
  category : String
  subject : String
  message : String
  bookingId : Option ℕ := none
  listingId : Option ℕ := none
  reportId : Option ℕ := none
  safetyIssueId : Option ℕ := none
  clientRequestId : Option String := none

structure ReportInput where
  conversationId : ℕ
  reporterUserId : ℕ
  reason : Option String
  attachmentIds : List ℕ
  bookingId : Option ℕ
  listingId : Option ℕ
  reportedUserId : Option ℕ
  sourceConversation : StaysConversation

inductive Call where
  | createTicketForUser (userId : ℕ) (dto : CreateSupportTicketDto)
  | ensureTicketForReport (report : StaysConversationReport)
      (sourceConversation : StaysConversation)
  | provisionReportWithTicket (input : ReportInput)
  | escalate (row : StaysConversationReport)

/-- What a ticket is created for. The last two have a transaction around it. -/
inductive Caller where
  | customer (dto : CreateSupportTicketDto)
  | ensure (report : StaysConversationReport)
  | provision (report : StaysConversationReport)
  | escalate (row : StaysConversationReport)

def Caller.nested : Caller → Bool
  | .provision _ | .escalate _ => true
  | .customer _ | .ensure _ => false

def Caller.reportId : Caller → Option ℕ
  | .customer dto => dto.reportId
  | .ensure report | .provision report | .escalate report => some report.id

def Caller.safetyIssueId : Caller → Option ℕ
  | .customer dto => dto.safetyIssueId
  | _ => none

/-- The ticket that a call returns, with what the call was about. -/
structure Answer where
  reportId : Option ℕ
  safetyIssueId : Option ℕ
  ticketId : ℕ
  deriving DecidableEq, Repr

def Caller.answer (caller : Caller) (ticketId : ℕ) : Answer :=
  ⟨caller.reportId, caller.safetyIssueId, ticketId⟩

structure Links where
  bookingId : Option ℕ
  listingId : Option ℕ
  reportId : Option ℕ
  safetyIssueId : Option ℕ

def ticketNotFound : MessagingError := .notFound "Ticket not found"

/-- The booking of a ticket and its listing. -/
def ownedBooking (dir : Directory) (userId : ℕ) :
    Option ℕ → Except MessagingError (Option ℕ × Option ℕ)
  | none => .ok (none, none)
  | some bookingId =>
    match dir.booking bookingId with
    | none => .error ticketNotFound
    | some booking =>
      if booking.guestUserId = userId ∨ booking.listingHostUserId = some userId then
        .ok (some booking.id, booking.listingId)
      else .error ticketNotFound

def ownedListing (dir : Directory) (userId : ℕ) (party : SupportTicketParty)
    (bookingId listingId : Option ℕ) : Option ℕ → Except MessagingError (Option ℕ)
  | none => .ok listingId
  | some id =>
    match dir.listingHost id with
    | none => .error ticketNotFound
    | some host =>
      if (party = .host ∨ bookingId = none) ∧ host ≠ userId then .error ticketNotFound
      else .ok (some id)

def ownedReport (reports : Table StaysConversationReport.id) (userId : ℕ) :
    Option ℕ → Except MessagingError (Option ℕ)
  | none => .ok none
  | some reportId =>
    match (reports.find? reportId).filter fun r => r.reporterUserId = userId with
    | none => .error ticketNotFound
    | some report => .ok (some report.id)

def ownedSafetyIssue (dir : Directory) (userId : ℕ) :
    Option ℕ → Except MessagingError (Option ℕ)
  | none => .ok none
  | some safetyIssueId =>
    if dir.safetyReporter safetyIssueId = some userId then .ok (some safetyIssueId)
    else .error ticketNotFound

def resolveOwnedLinks (dir : Directory) (reports : Table StaysConversationReport.id) (userId : ℕ)
    (party : SupportTicketParty) (dto : CreateSupportTicketDto) : Except MessagingError Links := do
  let booking ← ownedBooking dir userId dto.bookingId
  let listingId ← ownedListing dir userId party booking.1 booking.2 dto.listingId
  let reportId ← ownedReport reports userId dto.reportId
  let safetyIssueId ← ownedSafetyIssue dir userId dto.safetyIssueId
  pure ⟨booking.1, listingId, reportId, safetyIssueId⟩

def ticketOfReport (db : Database) (reportId : ℕ) : Option ReportTicket :=
  db.tickets.rows.find? fun t => t.reportId = some reportId

/-- The ticket that `createTicketForUser` returns instead of a new one. -/
def existing (db : Database) (userId : ℕ) (dto : CreateSupportTicketDto) : Option ReportTicket :=
  let ofReport := dto.reportId.bind fun reportId =>
    db.tickets.rows.find? fun t => t.reportId = some reportId ∧ t.requesterUserId = some userId
  let ofSafetyIssue := dto.safetyIssueId.bind fun safetyIssueId =>
    db.tickets.rows.find? fun t =>
      t.safetyIssueId = some safetyIssueId ∧ t.requesterUserId = some userId
  ofReport.orElse fun _ => ofSafetyIssue

/-- The row of `createReport`. -/
def createReport (input : ReportInput) (id : ℕ) : StaysConversationReport :=
  { id
    conversationId := input.conversationId
    reporterUserId := input.reporterUserId
    reason := (input.reason.map trim).filter (· ≠ "")
    attachmentIds := input.attachmentIds
    bookingId := input.bookingId
    listingId := input.listingId
    reportedUserId := input.reportedUserId }

def partyFromConversation (conversation : StaysConversation) (reporterUserId : ℕ) :
    SupportTicketParty :=
  if conversation.hostUserId = some reporterUserId then .host else .guest

/-- What `ensureTicketForReport` asks for. -/
def ensureDto (report : StaysConversationReport) (sourceConversation : StaysConversation) :
    CreateSupportTicketDto :=
  let reason := ((report.reason.map trim).filter (· ≠ "")).getD "Conversation reported by customer"
  { category := "OTHER"
    subject := String.ofList (reason.toList.take 120)
    message := reason
    reportId := some report.id
    bookingId := sourceConversation.bookingId
    listingId := sourceConversation.listingId }

/-- A ticket that is to be inserted. -/
structure Draft where
  userId : ℕ
  party : SupportTicketParty
  dto : CreateSupportTicketDto
  links : Links

/-- The rows of `insertTicket`. -/
structure Pending where
  ticket : ReportTicket
  conversation : StaysConversation
  message : StaysMessage

def createSupportConversation (draft : Draft) (id : ℕ) : StaysConversation :=
  { newConversation id draft.userId draft.party with listingId := draft.links.listingId }

def insertTicket (dir : Directory) (draft : Draft) (ticketNumber : TicketNumber) (now : ℤ)
    (newId : ℕ) : Pending :=
  let conversation := createSupportConversation draft newId
  let message := trim draft.dto.message
  let input := textInput draft.userId message draft.dto.clientRequestId
  { ticket :=
      { newTicket newId newId draft.userId draft.party draft.dto.category .normal
          (dir.requesterLanguage draft.userId) with
        ticketNumber
        subject := trim draft.dto.subject
        bookingId := draft.links.bookingId
        listingId := draft.links.listingId
        reportId := draft.links.reportId
        safetyIssueId := draft.links.safetyIssueId
        lastMessagePreview := String.ofList (message.toList.take 200)
        customerName := dir.fullName draft.userId
        requesterEmail := dir.email draft.userId }
    conversation := afterMessage conversation 1 input now newId conversation
    message := newMessage newId 1 input now newId }

/-- The unique columns of tickets. -/
def clashes (t u : ReportTicket) : Prop :=
  t.reportId.isSome ∧ t.reportId = u.reportId ∨
    t.safetyIssueId.isSome ∧ t.safetyIssueId = u.safetyIssueId ∨
    t.ticketNumber = u.ticketNumber ∨ t.conversationId = u.conversationId

instance (t u : ReportTicket) : Decidable (clashes t u) := by
  unfold clashes
  infer_instance

/-- Where a call stands. -/
inductive Stage where
  | waiting
  | ensuring (caller : Caller) (report : StaysConversationReport)
      (sourceConversation : StaysConversation)
  | creating (caller : Caller) (userId : ℕ) (dto : CreateSupportTicketDto)
      (party : Option SupportTicketParty)
  | inserting (caller : Caller) (draft : Draft)
  | numbered (caller : Caller) (draft : Draft) (ticketNumber : TicketNumber)
  | inserted (caller : Caller) (ticketId : ℕ)
  | reusing (caller : Caller) (draft : Draft)
  | created (caller : Caller) (ticketId : ℕ)
  | found (caller : Caller) (ticketId : ℕ)
  | ended (result : Except MessagingError Answer)

/-- The committed rows, the rows of tickets that are not committed with their calls, the holders of
the locks of the counters, and the calls. -/
structure System where
  db : Database
  uncommitted : List (ℕ × Pending)
  counting : ℕ → Option ℕ
  stages : ℕ → Stage

def start (db : Database) : System := ⟨db, [], fun _ => none, fun _ => .waiting⟩

/-- The rows of a call. -/
def System.pending (sys : System) (i : ℕ) : Option Pending :=
  (sys.uncommitted.find? fun p => p.1 = i).map (·.2)

def System.goto (sys : System) (i : ℕ) (stage : Stage) : System :=
  { sys with stages := Function.update sys.stages i stage }

/-- The rows and the locks of a call are given up. -/
def System.release (sys : System) (i : ℕ) : System :=
  { sys with
    uncommitted := sys.uncommitted.filter fun p => p.1 ≠ i
    counting := fun year => if sys.counting year = some i then none else sys.counting year }

/-- A transaction that fails rolls back. -/
def System.fail (sys : System) (i : ℕ) (error : MessagingError) : System :=
  (sys.release i).goto i (.ended (.error error))

def Database.insert (db : Database) (p : Pending) : Database :=
  { db with
    tickets := db.tickets.put p.ticket
    conversations := db.conversations.put p.conversation
    messages := db.messages ++ [p.message]
    counters := Function.update db.counters p.ticket.ticketNumber.year
      p.ticket.ticketNumber.counter }

/-- The ticket that a report is escalated with. -/
def raised (ticket : ReportTicket) : ReportTicket :=
  { ticket with priority := if ticket.priority = .urgent then .urgent else .high }

/-- What the transaction around the creation of a ticket writes beside it. -/
def Caller.writes (caller : Caller) (ticketId : ℕ) (db : Database) : Database :=
  match caller with
  | .customer _ | .ensure _ => db
  | .provision report => { db with reports := db.reports.put report }
  | .escalate row =>
    { db with
      tickets := ((db.tickets.find? ticketId).map fun t => db.tickets.put (raised t)).getD db.tickets
      reports := ((db.reports.find? row.id).map fun r =>
        db.reports.put { r with status := .escalated }).getD db.reports }

/-- The transaction of a call commits. -/
def System.commit (sys : System) (i : ℕ) (caller : Caller) (ticketId : ℕ) : System :=
  let inserted := ((sys.pending i).map sys.db.insert).getD sys.db
  { sys.release i with db := caller.writes ticketId inserted }

/-- The reports that the transaction of a call sees. -/
def Caller.reports (caller : Caller) (db : Database) : Table StaysConversationReport.id :=
  match caller with
  | .provision report => db.reports.put report
  | _ => db.reports

/-- The next statement of a call. The keys of new rows are the database's. -/
def next (dir : Directory) (calls : ℕ → Call) (sys : System) (i : ℕ) (now : ℤ) (year newId : ℕ) :
    Option System :=
  match sys.stages i with
  | .waiting =>
    match calls i with
    | .createTicketForUser userId dto =>
      some (sys.goto i (.creating (.customer dto) userId dto none))
    | .ensureTicketForReport report sourceConversation =>
      some (sys.goto i (.ensuring (.ensure report) report sourceConversation))
    | .provisionReportWithTicket input =>
      let report := createReport input newId
      if (sys.db.reports.find? newId).isSome then none
      else some (sys.goto i (.ensuring (.provision report) report input.sourceConversation))
    | .escalate row =>
      match ticketOfReport sys.db row.id with
      | some ticket => some (sys.goto i (.found (.escalate row) ticket.id))
      | none =>
        match sys.db.conversations.find? row.conversationId with
        | none => some (sys.fail i (.internal "Failed to ensure support ticket."))
        | some conversation => some (sys.goto i (.ensuring (.escalate row) row conversation))
  | .ensuring caller report sourceConversation =>
    match ticketOfReport sys.db report.id with
    | some ticket => some (sys.goto i (.found caller ticket.id))
    | none => some (sys.goto i (.creating caller report.reporterUserId
        (ensureDto report sourceConversation)
        (some (partyFromConversation sourceConversation report.reporterUserId))))
  | .creating caller userId dto party =>
    match existing sys.db userId dto with
    | some ticket => some (sys.goto i (.created caller ticket.id))
    | none =>
      let party := party.getD (if dir.isHost userId then .host else .guest)
      match resolveOwnedLinks dir (caller.reports sys.db) userId party dto with
      | .error error => some (sys.fail i error)
      | .ok links => some (sys.goto i (.inserting caller ⟨userId, party, dto, links⟩))
  | .inserting caller draft =>
    -- the counter of the year is locked up to the end of the transaction, or of the savepoint
    if (sys.counting year).isSome then none
    else some ({ sys with counting := Function.update sys.counting year (some i) }.goto i
      (.numbered caller draft ⟨year, sys.db.counters year + 1⟩))
  | .numbered caller draft ticketNumber =>
    let p := insertTicket dir draft ticketNumber now newId
    if (sys.db.tickets.find? newId).isSome ∨ (sys.db.conversations.find? newId).isSome ∨
        (∃ q ∈ sys.uncommitted, q.2.ticket.id = newId) then none
    -- an insert waits for the one that it clashes with
    else if ∃ q ∈ sys.uncommitted, clashes p.ticket q.2.ticket then none
    else if ∃ t ∈ sys.db.tickets.rows, clashes p.ticket t then
      some ((sys.release i).goto i (.reusing caller draft))
    else some ({ sys with uncommitted := (i, p) :: sys.uncommitted }.goto i
      (.inserted caller newId))
  | .inserted caller ticketId =>
    if caller.nested then some (sys.goto i (.created caller ticketId))
    else some ((sys.commit i caller ticketId).goto i (.created caller ticketId))
  | .reusing caller draft =>
    match existing sys.db draft.userId draft.dto with
    | some ticket => some (sys.goto i (.created caller ticket.id))
    | none => some (sys.fail i (.internal "Failed to ensure support ticket."))
  | .created caller ticketId =>
    match caller with
    | .customer _ => some (sys.goto i (.ended (.ok (caller.answer ticketId))))
    | _ =>
      -- `requireTicket` of the row, in the transaction of the caller
      if (sys.db.tickets.find? ticketId).isSome ∨
          ∃ p, sys.pending i = some p ∧ p.ticket.id = ticketId then
        some (sys.goto i (.found caller ticketId))
      else some (sys.fail i (.internal "Failed to ensure support ticket."))
  | .found caller ticketId =>
    some ((sys.commit i caller ticketId).goto i (.ended (.ok (caller.answer ticketId))))
  | .ended _ => none

inductive Action where
  | next (i : ℕ) (now : ℤ) (year newId : ℕ)
  | fail (i : ℕ)

def step (dir : Directory) (calls : ℕ → Call) (sys : System) : Action → Option System
  | .next i now year newId => next dir calls sys i now year newId
  | .fail i =>
    match sys.stages i with
    | .ended _ => none
    | _ => some (sys.fail i .database)

end NexaStays.ReportTickets
