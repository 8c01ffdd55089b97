import NexaStays.ConversationStates
import NexaStays.SupportRouting

/-!
# Support tickets and their threads

The calls of staff and of customers on support tickets, as far as the ticket, its conversation,
its messages and its notes go. A transaction takes the lock of the ticket's row first and decides
on the row that it has read behind the lock; what it writes becomes visible at its commit.
-/
namespace NexaStays.SupportTickets

open NexaStays.KeyedTable NexaStays.MessagingStore NexaStays.Messages NexaStays.ConversationStates
open NexaStays.SqlText (trim utf16Length)
open NexaStays.SupportSla (SupportTicketPriority SupportSlaState)
open NexaStays.SupportRouting (RoutingAgentWorkload RoutingAgentSkills RosterItem IdentityAuthz
  RoutedTicket Assignment assignLocked activeStatuses)

/-- A ticket, with the columns that staff and the assignment read and write. -/
structure SupportTicket extends StaysSupportTicket where
  priority : SupportTicketPriority := .normal
  category : String := "OTHER"
  requesterLanguage : Option String := none
  resolutionType : Option String := none
  reviewAgentId : Option ℕ := none
  resolvedAt : Option ℤ := none
  closedAt : Option ℤ := none
  deriving DecidableEq, Repr

def SupportTicket.key (ticket : SupportTicket) : ℕ := ticket.id

structure StaysSupportTicketNote where
  ticketId : ℕ
  authorAdminId : ℕ
  body : String
  deriving DecidableEq, Repr

structure Desk where
  tickets : Table SupportTicket.key
  conversations : Table StaysConversation.id
  messages : List StaysMessage
  notes : List StaysSupportTicketNote

/-- The rows that a transaction writes, at most one of each table. -/
structure Effect where
  ticket : Option SupportTicket := none
  conversation : Option StaysConversation := none
  message : Option StaysMessage := none
  note : Option StaysSupportTicketNote := none

def Desk.apply (s : Desk) (e : Effect) : Desk :=
  { tickets := (e.ticket.map s.tickets.put).getD s.tickets
    conversations := (e.conversation.map s.conversations.put).getD s.conversations
    messages := s.messages ++ e.message.toList
    notes := s.notes ++ e.note.toList }

/-- A field of a patch that may be left out. -/
abbrev Field (α : Type) := Option α

structure PatchSupportTicketDto where
  status : Field SupportTicketStatus := none
  priority : Field SupportTicketPriority := none
  assignedAdminId : Field (Option ℕ) := none
  resolutionType : Field (Option String) := none

/-- What an assignment reads beside tickets. -/
structure Routing where
  roster : List (RosterItem ℕ)
  lastAssignedAt : ℕ → Option ℤ
  skillRows : List (ℕ × RoutingAgentSkills)
  authz : ℕ → Option IdentityAuthz
  maxActive : ℕ
  slaState : SupportTicket → SupportSlaState

inductive Request where
  | createTicketForUser (userId : ℕ) (party : SupportTicketParty) (category : String)
      (priority : SupportTicketPriority) (language : Option String) (message : String)
  | patchForAdmin (ticketId : ℕ) (patch : PatchSupportTicketDto) (actor : SupportStaffActor)
  | reopenForAdmin (ticketId : ℕ) (actor : SupportStaffActor)
  | attemptAutoAssignment (ticketId : ℕ) (routing : Routing)
  | sendAdminMessage (ticketId adminUserId : ℕ) (body : String) (actor : SupportStaffActor)
  | createNoteForAdmin (ticketId authorAdminId : ℕ) (body : String) (actor : SupportStaffActor)
  | send (conversationId userId : ℕ) (body : String)
  | reopenConversation (conversationId userId : ℕ) (options : ReopenOptions)
  | block (conversationId userId : ℕ)
  | updateVisibility (conversationId userId : ℕ) (action : VisibilityAction)

/-- What a transaction has read: its ticket behind the lock, the conversation, and the workload
of the agents. -/
structure Held where
  ticket : Option SupportTicket := none
  conversation : Option StaysConversation := none
  workload : Option (List (ℕ × RoutingAgentWorkload)) := none

/-- The conversation that a customer's call is about, which it reads and checks first. -/
def look (s : Desk) : Request → Except MessagingError (Option StaysConversation)
  | .send conversationId userId _ =>
    match (s.conversations.find? conversationId).filter fun c => isParticipant c userId {} with
    | none => .error (.notFound "Conversation not found")
    | some conv =>
      if (resolve conv userId {}).canSend then .ok (some conv)
      else .error (.forbidden "Cannot send messages")
  | .reopenConversation conversationId userId _ | .block conversationId userId =>
    match (s.conversations.find? conversationId).filter fun c => isParticipant c userId {} with
    | none => .error (.notFound "Conversation not found")
    | some conv => .ok (some conv)
  | .updateVisibility conversationId userId action =>
    match (s.conversations.find? conversationId).filter fun c => isParticipant c userId {} with
    | none => .error (.notFound "Conversation not found")
    | some conv =>
      if (action = .archive → (resolve conv userId {}).canArchive = true) ∧
          (action = .delete → (resolve conv userId {}).canDelete = true) then .ok (some conv)
      else .error (.forbidden "Forbidden")
  | .patchForAdmin _ _ _ => .ok none
  | .reopenForAdmin _ actor =>
    if actor.role = .supportAgent then .error (.forbidden "Support agents cannot reopen tickets")
    else .ok none
  | .sendAdminMessage _ _ body _ =>
    if trim body = "" then .error (.badRequest "Message body required") else .ok none
  | .createNoteForAdmin _ _ body _ =>
    if trim body = "" then .error (.badRequest "Note body required")
    else if utf16Length (trim body) > 5000 then .error (.badRequest "Note body too long")
    else .ok none
  | .createTicketForUser _ _ _ _ _ _ | .attemptAutoAssignment _ _ => .ok none

/-- The ticket of a thread. -/
def ticketOfThread (s : Desk) (conversationId : ℕ) : Option SupportTicket :=
  s.tickets.rows.find? fun t => t.conversationId = conversationId

/-- The row whose lock a transaction takes. -/
def target (s : Desk) (conv : Option StaysConversation) : Request → Option SupportTicket
  | .patchForAdmin ticketId _ _ | .reopenForAdmin ticketId _ | .attemptAutoAssignment ticketId _
  | .sendAdminMessage ticketId _ _ _ | .createNoteForAdmin ticketId _ _ _ =>
    s.tickets.find? ticketId
  | .send _ _ _ => (conv.filter fun c => c.type = .support).bind fun c => ticketOfThread s c.id
  | _ => none

def ticketMustBeReopenedMessage : String := "Ticket must be reopened using the reopen action"

def ticketIsNotClosedMessage : String := "Ticket is not closed"

/-- The checks on the row that is locked, and on its conversation. -/
def check (ticket : Option SupportTicket) (conv : Option StaysConversation) :
    Request → Except MessagingError Unit
  | .patchForAdmin _ patch actor =>
    match ticket with
    | none => .error (.notFound "Ticket not found")
    | some t =>
      if ¬ canAccessTicket t.toStaysSupportTicket actor then .error (.notFound "Ticket not found")
      else if actor.role = .supportAgent ∧ patch.assignedAdminId.isSome then
        .error (.forbidden "Support agents cannot change ticket assignment")
      else if actor.role = .supportAgent ∧ patch.priority.isSome then
        .error (.forbidden "Support agents cannot change ticket priority")
      else if t.status = .closed ∧ patch.status.isSome ∧ patch.status ≠ some .closed then
        .error (.conflict ticketMustBeReopenedMessage)
      else .ok ()
  | .reopenForAdmin _ _ =>
    match ticket with
    | none => .error (.notFound "Ticket not found")
    | some t => if t.status ≠ .closed then .error (.conflict ticketIsNotClosedMessage) else .ok ()
  | .sendAdminMessage _ _ _ actor =>
    match ticket with
    | none => .error (.notFound "Ticket not found")
    | some t =>
      if ¬ canAccessTicket t.toStaysSupportTicket actor then .error (.notFound "Ticket not found")
      else if t.status = .closed then .error (.conflict closedSupportTicketMessage)
      else if conv = none then .error (.notFound "Ticket not found")
      else .ok ()
  | .createNoteForAdmin _ _ _ actor =>
    match ticket with
    | none => .error (.notFound "Ticket not found")
    | some t =>
      if ¬ canAccessTicket t.toStaysSupportTicket actor then .error (.notFound "Ticket not found")
      else .ok ()
  | .send _ _ _ =>
    match ticket with
    | none => .ok ()
    | some t =>
      if t.status = .closed then .error (.conflict closedSupportTicketMessage) else .ok ()
  | _ => .ok ()

/-- The conversation that a transaction reads. -/
def thread (s : Desk) (conv : Option StaysConversation) (ticket : Option SupportTicket) :
    Request → Option StaysConversation
  | .patchForAdmin _ _ _ | .reopenForAdmin _ _ | .sendAdminMessage _ _ _ _ =>
    ticket.bind fun t => s.conversations.find? t.conversationId
  | _ => conv

/-- `queryAssignedAgentWorkload`: the active tickets of each agent who has one. -/
def queryAssignedAgentWorkload (s : Desk) (routing : Routing) : List (ℕ × RoutingAgentWorkload) :=
  let active := s.tickets.rows.filter fun t => t.status ∈ activeStatuses
  (active.filterMap fun t => t.assignedAdminId).eraseDups.map fun agentId =>
    let own := active.filter fun t => t.assignedAdminId = some agentId
    (agentId,
      { assigned := own.length
        inProgress := own.countP fun t => t.status = .inProgress
        waiting := own.countP fun t =>
          t.status = .waitingForCustomer ∨ t.status = .waitingForHost
        atRisk := own.countP fun t => routing.slaState t = .atRisk
        breached := own.countP fun t => routing.slaState t = .breached })

/-- The ticket as `patchForAdmin` saves it. -/
def SupportTicket.patched (ticket : SupportTicket) (patch : PatchSupportTicketDto) (now : ℤ) :
    SupportTicket :=
  let locked : SupportTicket := { ticket with
    assignedAdminId := patch.assignedAdminId.getD ticket.assignedAdminId
    priority := patch.priority.getD ticket.priority
    resolutionType := patch.resolutionType.getD ticket.resolutionType
    status := patch.status.getD ticket.status }
  match patch.status with
  | some .resolved => { locked with resolvedAt := some (locked.resolvedAt.getD now) }
  | some .closed =>
    { locked with
      closedAt := some (locked.closedAt.getD now)
      resolvedAt := some (locked.resolvedAt.getD now)
      reviewAgentId :=
        if locked.closedAt = none then locked.reviewAgentId.orElse fun _ => locked.assignedAdminId
        else locked.reviewAgentId }
  | _ => locked

/-- The thread of a ticket that is closed for the first time. The entity is saved: each column in
which it differs from the row, which is read again, is written. -/
def archivedFor (conv : StaysConversation) (now : ℤ) : StaysConversation :=
  { conv with
    messagingState := .archived
    archivedAt := some (conv.archivedAt.getD now)
    readOnlyAt := some (conv.readOnlyAt.getD now)
    archiveReason := some "SUPPORT"
    conversationVersion := conv.conversationVersion + 1 }

/-- The ticket as `reopenForAdmin` saves it. -/
def SupportTicket.reopened (ticket : SupportTicket) : SupportTicket :=
  { ticket with
    status := if ticket.assignedAdminId = none then .open else .inProgress
    closedAt := none }

/-- The thread of a ticket that is reopened, which is saved in the same way. -/
def activeFor (conv : StaysConversation) : StaysConversation :=
  { conv with
    messagingState := .active
    archivedAt := none
    readOnlyAt := none
    archiveReason := none
    conversationVersion := conv.conversationVersion + 1 }

/-- The conversation that a participant has blocked. -/
def blockedBy (userId : ℕ) (conv : StaysConversation) (now : ℤ) (c : StaysConversation) :
    StaysConversation :=
  { c with
    blockedByGuest := if conv.guestUserId = some userId then true else c.blockedByGuest
    blockedByHost := if conv.guestUserId = some userId then c.blockedByHost else true
    messagingState := .locked
    lockedAt := some now
    conversationVersion := conv.conversationVersion + 1 }

/-- The conversation that a participant has archived, deleted or restored. -/
def visibleTo (userId : ℕ) (action : VisibilityAction) (conv c : StaysConversation) :
    StaysConversation :=
  if conv.guestUserId = some userId then
    { c with guestVisibility := action.value, conversationVersion := conv.conversationVersion + 1 }
  else
    { c with hostVisibility := action.value, conversationVersion := conv.conversationVersion + 1 }

def maxSequence (s : Desk) (conversationId : ℕ) : ℕ :=
  ((s.messages.filter fun m => m.conversationId = conversationId).map
    (·.conversationSequence)).foldr max 0

/-- The number of the next message of a conversation. -/
def nextSequence (s : Desk) (locked : StaysConversation) : ℕ :=
  max locked.lastMessageSequence (maxSequence s locked.id) + 1

def newConversation (id userId : ℕ) (party : SupportTicketParty) : StaysConversation :=
  { id
    bookingId := none
    type := .support
    guestUserId := if party = .guest then some userId else none
    hostUserId := if party = .host then some userId else none }

def newTicket (id conversationId userId : ℕ) (party : SupportTicketParty) (category : String)
    (priority : SupportTicketPriority) (language : Option String) : SupportTicket :=
  { id
    conversationId
    requesterUserId := some userId
    party
    status := .open
    assignedAdminId := none
    unreadForSupport := true
    firstAdminResponseAt := none
    priority
    category
    requesterLanguage := language }

/-- A conversation as it is now, with the columns of an update. -/
def updated (s : Desk) (conv : StaysConversation) (f : StaysConversation → StaysConversation) :
    Option StaysConversation :=
  (s.conversations.find? conv.id).map f

def Routing.assignment (routing : Routing) (ticket : SupportTicket)
    (workloadRows : List (ℕ × RoutingAgentWorkload)) : Assignment ℕ :=
  { roster := routing.roster
    ticket := some
      { status := ticket.status
        assignedAdminId := ticket.assignedAdminId
        priority := ticket.priority
        category := ticket.category
        requesterLanguage := ticket.requesterLanguage }
    workloadRows
    lastAssignedAt := routing.lastAssignedAt
    skillRows := routing.skillRows
    authz := routing.authz
    maxActive := routing.maxActive }

/-- What the transaction of a call writes; `none` when it rolls back. The keys of new rows are the
database's. -/
def effect (s : Desk) (held : Held) (now : ℤ) (newId : ℕ) : Request → Option Effect
  | .createTicketForUser userId party category priority language message =>
    if (s.tickets.find? newId).isSome ∨ (s.conversations.find? newId).isSome then none
    else some
      { ticket := some (newTicket newId newId userId party category priority language)
        conversation := some (afterMessage (newConversation newId userId party) 1
          (textInput userId (trim message) none) now newId (newConversation newId userId party))
        message := some (newMessage newId 1 (textInput userId (trim message) none) now newId) }
  | .patchForAdmin _ patch _ =>
    held.ticket.map fun t =>
      { ticket := some (t.patched patch now)
        conversation :=
          if patch.status = some .closed ∧ t.closedAt = none then
            (held.conversation.filter fun c => c.messagingState ≠ .archived).map fun conv =>
              archivedFor conv now
          else none }
  | .reopenForAdmin _ _ =>
    held.ticket.map fun t =>
      { ticket := some t.reopened
        conversation := held.conversation.map activeFor }
  | .attemptAutoAssignment _ routing =>
    match held.ticket, held.workload with
    | some t, some workload =>
      (assignLocked (routing.assignment t workload)).1.map fun agentId =>
        { ticket := some { t with assignedAdminId := some agentId } }
    | _, _ => none
  | .sendAdminMessage _ adminUserId body _ =>
    match held.ticket, held.conversation with
    | some t, some conv =>
      (s.conversations.find? conv.id).map fun locked =>
        let input := adminInput t.toStaysSupportTicket adminUserId (trim body)
        let sequence := nextSequence s locked
        { ticket := some { t with
            toStaysSupportTicket := answered t.toStaysSupportTicket adminUserId now
              t.toStaysSupportTicket }
          conversation := some (withUnread t.toStaysSupportTicket conv
            (afterMessage locked sequence input now newId locked))
          message := some (newMessage conv.id sequence input now newId) }
    | _, _ => none
  | .createNoteForAdmin _ authorAdminId body _ =>
    held.ticket.map fun t => { note := some ⟨t.id, authorAdminId, trim body⟩ }
  | .send _ userId body =>
    held.conversation.bind fun conv =>
      (s.conversations.find? conv.id).map fun locked =>
        let input := textInput userId (trim body) none
        let sequence := nextSequence s locked
        { ticket := held.ticket.map fun t =>
            { t with
              unreadForSupport := true
              status := nextStatusAfterCustomerMessage t.status t.party }
          conversation := some (unarchive userId conv
            (afterMessage locked sequence input now newId locked))
          message := some (newMessage conv.id sequence input now newId) }
  | .reopenConversation _ _ options =>
    held.conversation.map fun conv =>
      { conversation := updated s conv
          (ConversationStates.reopened conv conv.postStayEndsAt options) }
  | .block _ userId =>
    held.conversation.map fun conv =>
      { conversation := updated s conv (blockedBy userId conv now) }
  | .updateVisibility _ userId action =>
    held.conversation.map fun conv =>
      { conversation := updated s conv (visibleTo userId action conv) }

inductive Stage where
  | waiting
  | looked (conversation : Option StaysConversation)
  | holding (held : Held)
  | ended (result : Except MessagingError Unit)

/-- The rows, the holders of the locks of tickets and of the lock of the assignments, and the
calls. -/
structure System where
  desk : Desk
  holder : ℕ → Option ℕ
  assigning : Option ℕ
  stages : ℕ → Stage

def start (desk : Desk) : System := ⟨desk, fun _ => none, none, fun _ => .waiting⟩

inductive Action where
  | look (i : ℕ)
  | lock (i : ℕ)
  | count (i : ℕ)
  | commit (i : ℕ) (now : ℤ) (newId : ℕ)
  | fail (i : ℕ)
  deriving DecidableEq, Repr

def Request.assigns : Request → Bool
  | .attemptAutoAssignment _ _ => true
  | _ => false

/-- A call ends: its locks are free. -/
def System.release (sys : System) (i : ℕ) (result : Except MessagingError Unit) : System :=
  { sys with
    holder := fun id => if sys.holder id = some i then none else sys.holder id
    assigning := if sys.assigning = some i then none else sys.assigning
    stages := Function.update sys.stages i (.ended result) }

/-- The locks of a transaction are taken, once they are free. -/
def System.take (sys : System) (i : ℕ) (request : Request) (conv : Option StaysConversation) :
    Option System :=
  let ticket := target sys.desk conv request
  let conv := thread sys.desk conv ticket request
  if (ticket.bind fun t => sys.holder t.id).isSome ∨ request.assigns ∧ sys.assigning.isSome then
    none
  else
    match check ticket conv request with
    | .error e => some (sys.release i (.error e))
    | .ok () =>
      some { sys with
        holder := fun id => if ticket.map SupportTicket.key = some id then some i else sys.holder id
        assigning := if request.assigns then some i else sys.assigning
        stages := Function.update sys.stages i
          (.holding ⟨ticket, conv, none⟩) }

def step (requests : ℕ → Request) (sys : System) : Action → Option System
  | .look i =>
    match sys.stages i with
    | .waiting =>
      match look sys.desk (requests i) with
      | .error e => some (sys.release i (.error e))
      | .ok conv => some { sys with stages := Function.update sys.stages i (.looked conv) }
    | _ => none
  | .lock i =>
    match sys.stages i with
    | .looked conv => sys.take i (requests i) conv
    | _ => none
  | .count i =>
    match sys.stages i, requests i with
    | .holding ⟨ticket, conv, none⟩, .attemptAutoAssignment _ routing =>
      let workload := queryAssignedAgentWorkload sys.desk routing
      some { sys with
        stages := Function.update sys.stages i (.holding ⟨ticket, conv, some workload⟩) }
    | _, _ => none
  | .commit i now newId =>
    match sys.stages i with
    | .holding held =>
      match effect sys.desk held now newId (requests i) with
      | none => some (sys.release i
          (if (requests i).assigns then .ok () else .error .database))
      | some e => some ({ sys with desk := sys.desk.apply e }.release i (.ok ()))
    | _ => none
  | .fail i =>
    match sys.stages i with
    | .ended _ => none
    | _ => some (sys.release i (.error .database))

theorem step_commit (requests : ℕ → Request) {sys : System} {i : ℕ} {held : Held} {now : ℤ}
    {newId : ℕ} {e : Effect} (hstage : sys.stages i = .holding held)
    (heffect : effect sys.desk held now newId (requests i) = some e) :
    step requests sys (.commit i now newId) =
      some ({ sys with desk := sys.desk.apply e }.release i (.ok ())) := by
  simp only [step, hstage, heffect]

/-- The runs whose steps satisfy `ok`. -/
inductive Run (requests : ℕ → Request) (ok : System → Action → System → Prop) (s : System) :
    System → Prop where
  | refl : Run requests ok s s
  | tail {t u : System} {a : Action} : Run requests ok s t → step requests t a = some u →
      ok t a u → Run requests ok s u

end NexaStays.SupportTickets
