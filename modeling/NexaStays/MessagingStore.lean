import NexaStays.Database
import NexaStays.RowOrder
import NexaStays.SqlText

/-!
# The tables of the messaging service

Conversations, messages, attachments and their sessions, support tickets and the outbox, with
the bookings and listings they are about. A message and an event of the outbox are inserted
once; the columns of a message are updated later.
-/
namespace NexaStays.MessagingStore

open NexaStays.KeyedTable NexaStays.Transactions NexaStays.RowOrder
open NexaStays.Database (BookingStatus)

inductive ConversationType where
  | booking | support | system
  deriving DecidableEq, Repr

inductive MessagingState where
  | active | locked | readOnly | archived
  deriving DecidableEq, Repr

inductive ParticipantVisibility where
  | active | archived | deleted
  deriving DecidableEq, Repr

structure StaysConversation where
  id : ℕ
  bookingId : Option ℕ
  type : ConversationType
  messagingState : MessagingState := .active
  guestVisibility : ParticipantVisibility := .active
  hostVisibility : ParticipantVisibility := .active
  conversationVersion : ℕ := 1
  attachmentVersion : ℕ := 1
  listingId : Option ℕ := none
  hostUserId : Option ℕ := none
  guestUserId : Option ℕ := none
  lastMessageId : Option ℕ := none
  lastMessageSequence : ℕ := 0
  lastMessageAt : Option ℤ := none
  guestLastReadAt : Option ℤ := none
  hostLastReadAt : Option ℤ := none
  guestLastReadMessageId : Option ℕ := none
  hostLastReadMessageId : Option ℕ := none
  unreadGuest : ℕ := 0
  unreadHost : ℕ := 0
  blockedByGuest : Bool := false
  blockedByHost : Bool := false
  lockedAt : Option ℤ := none
  readOnlyAt : Option ℤ := none
  archivedAt : Option ℤ := none
  postStayEndsAt : Option ℤ := none
  autoArchiveDisabled : Bool := false
  autoArchiveDisabledReason : Option String := none
  archiveReason : Option String := none
  deriving DecidableEq, Repr

inductive MessageType where
  | text | systemEvent | systemNotice | systemInternal | propertyCard | bookingCard | checkinCard
  | wifiCard | locationCard | reviewCard | paymentCard | image | file | video | voice | location
  | system | card | custom
  deriving DecidableEq, Repr

inductive MessageStatus where
  | pending | persisted | delivered | read | failed
  deriving DecidableEq, Repr

/-- The fields of the metadata that are read again. -/
structure Metadata where
  source : String
  kind : Option String := none
  attachmentIds : List ℕ := []
  sessionId : Option ℕ := none
  supportTicketId : Option ℕ := none
  reviewed : Bool := false
  deriving DecidableEq, Repr

structure StaysMessage where
  id : ℕ
  conversationId : ℕ
  conversationSequence : ℕ
  senderId : Option ℕ
  type : MessageType
  body : Option String
  metadata : Metadata
  status : MessageStatus
  sentAt : ℤ
  deliveredAt : Option ℤ := none
  readAt : Option ℤ := none
  isSystem : Bool
  clientMessageId : Option String
  deletedAt : Option ℤ := none
  deriving DecidableEq, Repr

inductive ProcessingStatus where
  | uploading | processing | ready | failed
  deriving DecidableEq, Repr

structure StaysMessageAttachment where
  id : ℕ
  messageId : Option ℕ
  conversationId : Option ℕ
  uploaderUserId : Option ℕ
  sessionId : Option ℕ
  status : ProcessingStatus
  createdAt : ℤ
  deriving DecidableEq, Repr

inductive SessionStatus where
  | created | uploading | ready | completed | abandoned
  deriving DecidableEq, Repr

structure StaysAttachmentSession where
  id : ℕ
  conversationId : ℕ
  ownerUserId : ℕ
  status : SessionStatus
  expiresAt : ℤ
  deriving DecidableEq, Repr

inductive SupportTicketStatus where
  | open | inProgress | waitingForCustomer | waitingForHost | escalated | resolved | closed
  deriving DecidableEq, Repr

inductive SupportTicketParty where
  | guest | host
  deriving DecidableEq, Repr

structure StaysSupportTicket where
  id : ℕ
  conversationId : ℕ
  requesterUserId : Option ℕ
  party : SupportTicketParty
  status : SupportTicketStatus
  assignedAdminId : Option ℕ
  unreadForSupport : Bool
  firstAdminResponseAt : Option ℤ
  deriving DecidableEq, Repr

/-- An event of the outbox, with what names its subject and its receiver. -/
inductive OutboxEvent where
  | messageReceived (messageId conversationId recipientUserId senderUserId : ℕ)
      (conversationVersion lastMessageSequence : ℕ)
  | messageSent (messageId conversationId senderUserId : ℕ)
  | messageRead (conversationId readerUserId : ℕ)
  | snapshotRepairRequested (conversationId : ℕ)
  | bookingConfirmed (bookingId conversationId : ℕ)
  | paymentSucceeded (bookingId : ℕ)
  deriving DecidableEq, Repr

structure StaysMessagingOutbox where
  id : ℕ
  event : OutboxEvent
  nextRetryAt : ℤ
  deriving DecidableEq, Repr

structure StaysBooking where
  id : ℕ
  listingId : ℕ
  guestUserId : Option ℕ
  status : BookingStatus
  checkoutDate : ℤ
  completedAt : Option ℤ
  deriving DecidableEq, Repr

structure StaysListing where
  id : ℕ
  hostUserId : Option ℕ
  checkoutTime : Option String
  accessInstructions : Option String
  wifiSsid : Option String
  deriving DecidableEq, Repr

structure Store where
  conversations : Table StaysConversation.id
  messages : List StaysMessage
  attachments : Table StaysMessageAttachment.id
  sessions : Table StaysAttachmentSession.id
  tickets : Table StaysSupportTicket.id
  outbox : List StaysMessagingOutbox
  bookings : Table StaysBooking.id
  listings : Table StaysListing.id

inductive Key where
  | conversation (id : ℕ)
  | message (id : ℕ)
  | attachment (id : ℕ)
  | session (id : ℕ)
  | ticket (id : ℕ)
  | outbox (id : ℕ)
  | booking (id : ℕ)
  | listing (id : ℕ)
  deriving DecidableEq, Repr

/-- A row that is inserted or overwritten; `messageUpdate` overwrites a message that is there. -/
inductive Write where
  | conversation (row : StaysConversation)
  | message (row : StaysMessage)
  | messageUpdate (row : StaysMessage)
  | attachment (row : StaysMessageAttachment)
  | session (row : StaysAttachmentSession)
  | ticket (row : StaysSupportTicket)
  | outbox (row : StaysMessagingOutbox)
  | booking (row : StaysBooking)
  | listing (row : StaysListing)
  deriving DecidableEq, Repr

def Write.key : Write → Key
  | .conversation c => .conversation c.id
  | .message m => .message m.id
  | .messageUpdate m => .message m.id
  | .attachment a => .attachment a.id
  | .session x => .session x.id
  | .ticket t => .ticket t.id
  | .outbox e => .outbox e.id
  | .booking b => .booking b.id
  | .listing l => .listing l.id

namespace Store

def write (s : Store) : Write → Store
  | .conversation c => { s with conversations := s.conversations.put c }
  | .message m => { s with messages := s.messages ++ [m] }
  | .messageUpdate m =>
    { s with messages := s.messages.map fun x => if x.id = m.id then m else x }
  | .attachment a => { s with attachments := s.attachments.put a }
  | .session x => { s with sessions := s.sessions.put x }
  | .ticket t => { s with tickets := s.tickets.put t }
  | .outbox e => { s with outbox := s.outbox ++ [e] }
  | .booking b => { s with bookings := s.bookings.put b }
  | .listing l => { s with listings := s.listings.put l }

def present (s : Store) : Key → Bool
  | .conversation id => (s.conversations.find? id).isSome
  | .message id => s.messages.any fun m => m.id = id
  | .attachment id => (s.attachments.find? id).isSome
  | .session id => (s.sessions.find? id).isSome
  | .ticket id => (s.tickets.find? id).isSome
  | .outbox id => s.outbox.any fun e => e.id = id
  | .booking id => (s.bookings.find? id).isSome
  | .listing id => (s.listings.find? id).isSome

/-- A new deployment. -/
def blank : Store :=
  { conversations := .empty
    messages := []
    attachments := .empty
    sessions := .empty
    tickets := .empty
    outbox := []
    bookings := .empty
    listings := .empty }

end Store

instance : Storage Store Key Write where
  write := Store.write
  keyOf := Write.key
  present := Store.present

@[simp] theorem storage_write (s : Store) (w : Write) : Storage.write s w = s.write w := rfl

@[simp] theorem storage_keyOf (w : Write) : Storage.keyOf Store w = w.key := rfl

@[simp] theorem storage_present (s : Store) (k : Key) : Storage.present s k = s.present k := rfl

inductive MessagingError where
  | database
  | internal (message : String)
  | badRequest (message : String)
  | forbidden (message : String)
  | notFound (message : String)
  | conflict (message : String)
  | tooManyRequests
  deriving DecidableEq, Repr

/-- The programs of the messaging service. -/
abbrev Messaging := Program Store Key Write MessagingError

namespace Messaging

abbrev read {α : Type} (f : Store → α) : Messaging α := Program.query .database f

abbrev findOne {α : Type} (f : Store → List α) : Messaging (Option α) :=
  Program.findOne .database f

abbrev update (ws : Store → List Write) : Messaging (List Write) := Program.writeRows .database ws

abbrev insert (row : ℕ → Write) : Messaging ℕ := Program.insertRow .database row

/-- `new Date()`. -/
abbrev now : Messaging ℕ := Program.receive

end Messaging

def messagesOf (s : Store) (conversationId : ℕ) : List StaysMessage :=
  s.messages.filter fun m => m.conversationId = conversationId

/-- `COALESCE(MAX(m.conversation_sequence), 0)`. -/
def maxSequence (s : Store) (conversationId : ℕ) : ℕ :=
  ((messagesOf s conversationId).map (·.conversationSequence)).foldr max 0

/-- The conversation of a booking, which is unique. -/
def conversationOf (s : Store) (bookingId : ℕ) : Option StaysConversation :=
  s.conversations.rows.find? fun c => c.bookingId = some bookingId

/-- `convRepo.update(id, …)`. -/
def updateConversation (id : ℕ) (f : StaysConversation → StaysConversation) (s : Store) :
    List Write :=
  (s.conversations.find? id).toList.map fun c => .conversation (f c)

/-- `enqueue` and `enqueueDirect`. -/
def enqueue (event : OutboxEvent) : Messaging Unit := do
  let now ← Messaging.now
  let _ ← Messaging.insert fun id => .outbox { id, event, nextRetryAt := now }
  pure ()

end NexaStays.MessagingStore
