import NexaStays.MessagingStore

/-!
# Messages

Sending, reading and seeding messages. A message is inserted behind the row lock of its
conversation, in one transaction with the events that announce it; what a customer may do is
decided on a row that was read before.
-/
namespace NexaStays.Messages

open NexaStays.KeyedTable NexaStays.Transactions NexaStays.RowOrder NexaStays.MessagingStore
open NexaStays.SqlText (trim utf16Length)

structure MessagingAccessOptions where
  isAdmin : Bool := false
  ticketClosed : Bool := false
  deriving DecidableEq, Repr

/-- The permissions that the modelled calls ask for. -/
structure ConversationPermissions where
  canSend : Bool
  canArchive : Bool
  canDelete : Bool
  deriving DecidableEq, Repr

def denied : ConversationPermissions := ⟨false, false, false⟩

def readOnlyState (conv : StaysConversation) (options : MessagingAccessOptions) : Bool :=
  conv.messagingState = .readOnly || conv.messagingState = .archived ||
    conv.messagingState = .locked || options.ticketClosed

/-- `MessagingPermissionsService.resolve`. -/
def resolve (conv : StaysConversation) (userId : ℕ) (options : MessagingAccessOptions) :
    ConversationPermissions :=
  let isGuest := conv.guestUserId = some userId
  let isHost := conv.hostUserId = some userId
  let isSupportAdmin := options.isAdmin ∧ conv.type = .support
  if ¬isGuest ∧ ¬isHost ∧ ¬isSupportAdmin then denied
  else if isSupportAdmin ∧ ¬isGuest ∧ ¬isHost then ⟨!readOnlyState conv options, false, false⟩
  else
    let blocked := (isGuest ∧ conv.blockedByHost) ∨ (isHost ∧ conv.blockedByGuest)
    ⟨!(readOnlyState conv options || decide blocked) && !decide blocked, true, true⟩

def isParticipant (conv : StaysConversation) (userId : ℕ) (options : MessagingAccessOptions) :
    Bool :=
  conv.guestUserId = some userId || conv.hostUserId = some userId ||
    (options.isAdmin && conv.type = .support)

def getParticipantConversation (conversationId userId : ℕ) : Messaging StaysConversation := do
  let conv ← Messaging.read fun s => s.conversations.find? conversationId
  Program.expect (conv.filter fun c => isParticipant c userId {}) (.notFound "Conversation not found")

structure MessageInput where
  type : MessageType
  body : Option String
  metadata : Metadata
  senderId : Option ℕ := none
  clientMessageId : Option String := none
  deriving DecidableEq, Repr

/-- The row of a new message. -/
def newMessage (conversationId sequence : ℕ) (input : MessageInput) (now : ℤ) (id : ℕ) :
    StaysMessage :=
  { id
    conversationId
    conversationSequence := sequence
    senderId := input.senderId
    type := input.type
    body := input.body
    metadata := input.metadata
    status := .persisted
    sentAt := now
    isSystem := input.senderId.isNone
    clientMessageId := input.clientMessageId }

/-- The conversation of a new message, with what was read of it behind the lock. -/
def afterMessage (locked : StaysConversation) (sequence : ℕ) (input : MessageInput) (now : ℤ)
    (id : ℕ) (conv : StaysConversation) : StaysConversation :=
  { conv with
    lastMessageId := some id
    lastMessageSequence := sequence
    lastMessageAt := some now
    conversationVersion := locked.conversationVersion + 1
    unreadHost :=
      if input.senderId ≠ none ∧ input.senderId = locked.guestUserId then locked.unreadHost + 1
      else conv.unreadHost
    unreadGuest :=
      if input.senderId ≠ none ∧ input.senderId = locked.guestUserId then conv.unreadGuest
      else if input.senderId ≠ none ∧ input.senderId = locked.hostUserId then locked.unreadGuest + 1
      else conv.unreadGuest }

/-- `SELECT … FOR UPDATE` of the conversation. -/
def lockConversation (conversationId : ℕ) : Messaging StaysConversation := do
  let locked ← Program.lockRow .database (.conversation conversationId) fun s =>
    s.conversations.find? conversationId
  Program.expect locked (.internal "Conversation not found")

def insertMessage (conversation : StaysConversation) (input : MessageInput) :
    Messaging StaysMessage := do
  let locked ← lockConversation conversation.id
  let actualSequence ← Messaging.read fun s => maxSequence s locked.id
  let now ← Messaging.now
  let sequence := max locked.lastMessageSequence actualSequence + 1
  let id ← Messaging.insert fun id => .message (newMessage locked.id sequence input now id)
  let _ ← Messaging.update (updateConversation locked.id (afterMessage locked sequence input now id))
  pure (newMessage locked.id sequence input now id)

/-- The other participant of a conversation. -/
def recipientOf (conv : StaysConversation) (userId : ℕ) : Option ℕ :=
  if conv.guestUserId = some userId then conv.hostUserId else conv.guestUserId

/-- The archived conversation comes back to the inbox of the other participant. -/
def unarchive (userId : ℕ) (conv c : StaysConversation) : StaysConversation :=
  if conv.guestUserId = some userId then
    { c with
      hostVisibility := if c.hostVisibility = .archived then .active else c.hostVisibility }
  else
    { c with
      guestVisibility := if c.guestVisibility = .archived then .active else c.guestVisibility }

def enqueueDeliveryEvents (conv : StaysConversation) (message : StaysMessage) (userId : ℕ) :
    Messaging Unit := do
  let refreshed ← Messaging.read fun s => s.conversations.find? conv.id
  let version := (refreshed.map (·.conversationVersion)).getD (conv.conversationVersion + 1)
  match recipientOf conv userId with
  | none => pure ()
  | some recipientId =>
    enqueue (.messageReceived message.id conv.id recipientId userId version
      message.conversationSequence)
  enqueue (.messageSent message.id conv.id userId)
  let _ ← Messaging.update (updateConversation conv.id (unarchive userId conv))
  pure ()

def closedSupportTicketMessage : String := "This support ticket is closed."

def ticketOf (s : Store) (conversationId : ℕ) : List StaysSupportTicket :=
  s.tickets.rows.filter fun t => t.conversationId = conversationId

def lockTicketForCustomerSend (conversationId : ℕ) : Messaging (Option StaysSupportTicket) := do
  let found ← Messaging.findOne fun s => ticketOf s conversationId
  match found with
  | none => pure none
  | some ticket => do
    let locked ← Program.lockRow .database (.ticket ticket.id) fun s => s.tickets.find? ticket.id
    match locked with
    | none => pure none
    | some ticket => do
      Program.require (ticket.status ≠ .closed) (.conflict closedSupportTicketMessage)
      pure (some ticket)

def prepareCustomerSupportSend (conv : StaysConversation) (senderUserId : ℕ) :
    Messaging (Option StaysSupportTicket) :=
  if conv.type ≠ .support then pure none
  else if some senderUserId ≠ conv.guestUserId ∧ some senderUserId ≠ conv.hostUserId then pure none
  else lockTicketForCustomerSend conv.id

def nextStatusAfterCustomerMessage (status : SupportTicketStatus) (party : SupportTicketParty) :
    SupportTicketStatus :=
  match status with
  | .resolved => .open
  | .waitingForCustomer => .inProgress
  | .waitingForHost => if party = .host then .open else .waitingForHost
  | status => status

def updateTicket (id : ℕ) (f : StaysSupportTicket → StaysSupportTicket) (s : Store) : List Write :=
  (s.tickets.find? id).toList.map fun t => .ticket (f t)

def applyCustomerSupportMessageEffects (ticket : StaysSupportTicket) : Messaging Unit := do
  let _ ← Messaging.update (updateTicket ticket.id fun t =>
    { t with
      unreadForSupport := true
      status := nextStatusAfterCustomerMessage ticket.status ticket.party })
  pure ()

/-- `bumpAttachmentVersion`. -/
def bumpAttachmentVersion (conversationId : ℕ) : Messaging Unit := do
  let conv ← Messaging.read fun s => s.conversations.find? conversationId
  match conv with
  | none => pure ()
  | some conv => do
    let _ ← Messaging.update (updateConversation conversationId fun c =>
      { c with attachmentVersion := conv.attachmentVersion + 1 })
    pure ()

/-- The attachments of the list that belong to no message yet. -/
def unlinked (attachmentIds : List ℕ) (s : Store) : List StaysMessageAttachment :=
  s.attachments.rows.filter fun a => a.id ∈ attachmentIds ∧ a.messageId = none

def linkToMessage (messageId : ℕ) (attachmentIds : List ℕ) (conversationId : Option ℕ) :
    Messaging Unit :=
  if attachmentIds = [] then pure ()
  else do
    let _ ← Messaging.update fun s =>
      (unlinked attachmentIds s).map fun a => .attachment { a with messageId := some messageId }
    match conversationId with
    | none => pure ()
    | some conversationId => bumpAttachmentVersion conversationId

/-- `loadForMessages` of one message. -/
def loadForMessage (message : StaysMessage) : Messaging Unit :=
  linkToMessage message.id message.metadata.attachmentIds none

def assertReadyForSend (conversationId userId : ℕ) (attachmentIds : List ℕ) : Messaging Unit :=
  if attachmentIds = [] then pure ()
  else do
    let rows ← Messaging.read fun s => s.attachments.rows.filter fun a => a.id ∈ attachmentIds ∧
      a.conversationId = some conversationId ∧ a.uploaderUserId = some userId
    Program.require (rows.length = attachmentIds.length)
      (.badRequest "Invalid attachment references")
    Program.require (∀ a ∈ rows, a.status = .ready) (.badRequest "Attachment not ready")

/-- The session and its attachments, in the order of their creation. -/
def assertSessionReadyForSend (conversationId userId sessionId : ℕ) : Messaging (List ℕ) := do
  let session ← Messaging.read fun s => (s.sessions.find? sessionId).filter fun x =>
    x.conversationId = conversationId ∧ x.ownerUserId = userId
  let session ← Program.expect session (.badRequest "Invalid session")
  Program.require (session.status = .ready)
    (.badRequest "Session not ready — call complete first")
  let now ← Messaging.now
  Program.require ((now : ℤ) ≤ session.expiresAt) (.badRequest "Session expired")
  let rows ← Messaging.read fun s => (s.attachments.rows.filter fun a =>
    a.sessionId = some session.id ∧ a.messageId = none).mergeSort fun a b => a.createdAt ≤ b.createdAt
  Program.require (rows ≠ []) (.badRequest "Session has no attachments")
  Program.require (∀ a ∈ rows, a.status = .ready) (.badRequest "Attachment not ready")
  pure (rows.map (·.id))

/-- On a connection of its own, so that the transaction around it has no part in it. -/
def finalizeSession (sessionId : ℕ) : Messaging Unit :=
  Program.send (fun s =>
    (s.sessions.find? sessionId).toList.map fun x => .session { x with status := .completed })
    fun _ => ()

/-- The message that a client has sent before under its own number. -/
def findExisting (conversationId : ℕ) (clientMessageId : Option String) :
    Messaging (Option StaysMessage) :=
  match clientMessageId.filter (· ≠ "") with
  | none => pure none
  | some client => Messaging.findOne fun s =>
    s.messages.filter fun m => m.conversationId = conversationId ∧ m.clientMessageId = some client

/-- `assertCanSend`: the counters of a process, which only it knows. -/
def assertCanSend : Messaging Unit := do
  let allowed ← Program.receive
  Program.require (allowed ≠ 0) .tooManyRequests

/-- The transaction of a send. -/
def storeMessage (conv : StaysConversation) (userId : ℕ) (input : MessageInput)
    (link : StaysMessage → Messaging Unit) : Messaging StaysMessage :=
  Program.transaction .database do
    let supportTicket ← prepareCustomerSupportSend conv userId
    let message ← insertMessage conv input
    link message
    enqueueDeliveryEvents conv message userId
    match supportTicket with
    | none => pure ()
    | some ticket => applyCustomerSupportMessageEffects ticket
    pure message

def textInput (userId : ℕ) (body : String) (clientMessageId : Option String) : MessageInput :=
  { type := .text
    body := some body
    metadata := { source := "USER" }
    senderId := some userId
    clientMessageId }

def attachmentInput (userId : ℕ) (type : MessageType) (attachmentIds : List ℕ)
    (sessionId : Option ℕ) (caption clientMessageId : Option String) : MessageInput :=
  { type
    body := caption.map trim
    metadata := { source := "USER", attachmentIds, sessionId }
    senderId := some userId
    clientMessageId }

def sendText (conversationId userId : ℕ) (body : String) (clientMessageId : Option String) :
    Messaging StaysMessage := do
  Program.require (trim body ≠ "") (.badRequest "Message body required")
  Program.require (utf16Length (trim body) ≤ 2000) (.badRequest "Message too long")
  let conv ← getParticipantConversation conversationId userId
  Program.require ((resolve conv userId {}).canSend = true) (.forbidden "Cannot send messages")
  let existing ← findExisting conv.id clientMessageId
  match existing with
  | some message => pure message
  | none => do
    assertCanSend
    storeMessage conv userId (textInput userId (trim body) clientMessageId) fun _ => pure ()

def sendWithAttachments (conversationId userId : ℕ) (type : MessageType) (attachmentIds : List ℕ)
    (caption clientMessageId : Option String) : Messaging StaysMessage := do
  let conv ← getParticipantConversation conversationId userId
  Program.require ((resolve conv userId {}).canSend = true) (.forbidden "Cannot send messages")
  let existing ← findExisting conv.id clientMessageId
  match existing with
  | some message => do
    loadForMessage message
    pure message
  | none => do
    assertReadyForSend conv.id userId attachmentIds
    assertCanSend
    let saved ← storeMessage conv userId
      (attachmentInput userId type attachmentIds none caption clientMessageId) fun message =>
        linkToMessage message.id attachmentIds (some conv.id)
    loadForMessage saved
    pure saved

def sendWithSession (conversationId userId : ℕ) (type : MessageType) (sessionId : ℕ)
    (caption clientMessageId : Option String) : Messaging StaysMessage := do
  let conv ← getParticipantConversation conversationId userId
  Program.require ((resolve conv userId {}).canSend = true) (.forbidden "Cannot send messages")
  let existing ← findExisting conv.id clientMessageId
  match existing with
  | some message => do
    loadForMessage message
    pure message
  | none => do
    let attachmentIds ← assertSessionReadyForSend conv.id userId sessionId
    assertCanSend
    let saved ← storeMessage conv userId
      (attachmentInput userId type attachmentIds (some sessionId) caption clientMessageId)
        fun message => do
          linkToMessage message.id attachmentIds (some conv.id)
          finalizeSession sessionId
    loadForMessage saved
    pure saved

/-- The conversation that a participant has read. -/
def afterRead (conv : StaysConversation) (userId : ℕ) (lastMessageId : Option ℕ) (now : ℤ)
    (c : StaysConversation) : StaysConversation :=
  if conv.guestUserId = some userId then
    { c with
      guestLastReadAt := some now
      guestLastReadMessageId := lastMessageId
      unreadGuest := 0
      conversationVersion := conv.conversationVersion + 1 }
  else
    { c with
      hostLastReadAt := some now
      hostLastReadMessageId := lastMessageId
      unreadHost := 0
      conversationVersion := conv.conversationVersion + 1 }

/-- The messages of the others that were not read yet. -/
def unreadMessages (conversationId userId : ℕ) (s : Store) : List StaysMessage :=
  (messagesOf s conversationId).filter fun m =>
    m.senderId ≠ none ∧ m.senderId ≠ some userId ∧ m.readAt = none

def markMessagesRead (conversationId userId : ℕ) (now : ℤ) (s : Store) : List Write :=
  (unreadMessages conversationId userId s).map fun m =>
    .messageUpdate { m with status := .read, readAt := some now }

def markRead (conversationId userId : ℕ) : Messaging ℕ := do
  let conv ← getParticipantConversation conversationId userId
  let now ← Messaging.now
  let lastMsg ← match conv.lastMessageId with
    | none => pure none
    | some lastMessageId => Messaging.read fun s => s.messages.find? fun m => m.id = lastMessageId
  Program.transaction .database do
    let _ ← Messaging.update (updateConversation conv.id
      (afterRead conv userId (lastMsg.map (·.id)) now))
    let _ ← Messaging.update (markMessagesRead conv.id userId now)
    enqueue (.messageRead conv.id userId)
  pure (conv.conversationVersion + 1)

/-- What a reader may see of a conversation, newest first. -/
def history (conversationId : ℕ) (beforeSequence : Option ℕ) (s : Store) : List StaysMessage :=
  ((messagesOf s conversationId).filter fun m => m.type ≠ .systemInternal ∧ m.deletedAt = none ∧
    ∀ before ∈ beforeSequence, m.conversationSequence < before).mergeSort
      fun a b => b.conversationSequence ≤ a.conversationSequence

/-- The number of messages of a page. -/
def pageSize (limit : ℤ) : ℕ := (min (max limit 1) 50).toNat

def unreadFromOther (userId : ℕ) (slice : List StaysMessage) : List StaysMessage :=
  slice.filter fun m => m.senderId ≠ none ∧ m.senderId ≠ some userId ∧ m.status ≠ .read

def markDelivered (ids : List ℕ) (now : ℤ) (s : Store) : List Write :=
  (s.messages.filter fun m => m.id ∈ ids ∧ m.status = .persisted).map fun m =>
    .messageUpdate { m with status := .delivered, deliveredAt := some now }

/-- The messages of a page and whether there are more. -/
def listMessages (conversationId userId : ℕ) (limit : ℤ) (beforeSequence : Option ℕ) :
    Messaging (List StaysMessage × Bool) := do
  let conv ← getParticipantConversation conversationId userId
  let take := pageSize limit
  let rows ← Messaging.read fun s => (history conv.id beforeSequence s).take (take + 1)
  let hasMore := rows.length > take
  let slice := (rows.take take).reverse
  let unread := unreadFromOther userId slice
  if unread = [] then pure ()
  else do
    let now ← Messaging.now
    let _ ← Messaging.update (markDelivered (unread.map (·.id)) now)
    pure ()
  Program.forEach loadForMessage slice
  pure (slice, hasMore)

inductive StaffRole where
  | admin | supportAgent
  deriving DecidableEq, Repr

structure SupportStaffActor where
  userId : ℕ
  role : StaffRole
  deriving DecidableEq, Repr

def canAccessTicket (ticket : StaysSupportTicket) (actor : SupportStaffActor) : Prop :=
  actor.role = .admin ∨ ticket.assignedAdminId = some actor.userId

instance {ticket : StaysSupportTicket} {actor : SupportStaffActor} :
    Decidable (canAccessTicket ticket actor) := inferInstanceAs (Decidable (_ ∨ _))

def adminInput (ticket : StaysSupportTicket) (adminUserId : ℕ) (body : String) : MessageInput :=
  { type := .text
    body := some body
    metadata := { source := "SUPPORT_AGENT", supportTicketId := some ticket.id }
    senderId := some adminUserId }

/-- The counter of the party of the ticket, from the row that was read before the message. -/
def withUnread (ticket : StaysSupportTicket) (conv c : StaysConversation) : StaysConversation :=
  match ticket.party with
  | .guest => { c with unreadGuest := conv.unreadGuest + 1 }
  | .host => { c with unreadHost := conv.unreadHost + 1 }

/-- The ticket that staff has answered. -/
def answered (ticket : StaysSupportTicket) (adminUserId : ℕ) (now : ℤ) (t : StaysSupportTicket) :
    StaysSupportTicket :=
  { t with
    unreadForSupport := false
    assignedAdminId := some (ticket.assignedAdminId.getD adminUserId)
    status :=
      if ticket.status = .open ∨ ticket.status = .waitingForCustomer then .inProgress
      else ticket.status
    firstAdminResponseAt := some (ticket.firstAdminResponseAt.getD now) }

/-- The transaction of an answer of staff. -/
def storeAdminMessage (ticketId adminUserId : ℕ) (body : String) (actor : SupportStaffActor) :
    Messaging (StaysMessage × Option ℕ × StaysConversation) :=
  Program.transaction .database do
    let ticket ← Program.lockRow .database (.ticket ticketId) fun s => s.tickets.find? ticketId
    let ticket ← Program.expect ticket (.notFound "Ticket not found")
    Program.require (canAccessTicket ticket actor) (.notFound "Ticket not found")
    Program.require (ticket.status ≠ .closed) (.conflict closedSupportTicketMessage)
    let conv ← Messaging.read fun s => s.conversations.find? ticket.conversationId
    let conv ← Program.expect conv (.notFound "Ticket not found")
    let message ← insertMessage conv (adminInput ticket adminUserId body)
    let _ ← Messaging.update (updateConversation conv.id (withUnread ticket conv))
    let now ← Messaging.now
    let _ ← Messaging.update (updateTicket ticket.id (answered ticket adminUserId now))
    pure (message, ticket.requesterUserId, conv)

def sendAdminMessage (ticketId adminUserId : ℕ) (body : String) (actor : SupportStaffActor) :
    Messaging StaysMessage := do
  Program.require (trim body ≠ "") (.badRequest "Message body required")
  let saved ← storeAdminMessage ticketId adminUserId (trim body) actor
  let (message, requesterUserId, conv) := saved
  match requesterUserId with
  | none => pure ()
  | some requesterUserId =>
    enqueue (.messageReceived message.id conv.id requesterUserId adminUserId
      (conv.conversationVersion + 1) message.conversationSequence)
  pure message

end NexaStays.Messages
