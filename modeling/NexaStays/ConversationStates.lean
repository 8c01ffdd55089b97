import NexaStays.Messages

/-!
# The state of a conversation

What participants and the scheduled jobs make of a conversation: its archive, its locks, its
place in the inboxes, and the messages that go with a change. All but the seeded messages is
written over a row that was read without a lock.
-/
namespace NexaStays.ConversationStates

open NexaStays.KeyedTable NexaStays.Transactions NexaStays.RowOrder NexaStays.MessagingStore
  NexaStays.Messages
open NexaStays.Database (BookingStatus)

/-- `POST_STAY_GRACE_HOURS`, and the offset of the local time of the server. -/
structure Env where
  postStayGraceHours : ℕ := 72
  localOffset : ℤ := 0

inductive VisibilityAction where
  | archive | delete | restore
  deriving DecidableEq, Repr

def VisibilityAction.value : VisibilityAction → ParticipantVisibility
  | .archive => .archived
  | .delete => .deleted
  | .restore => .active

def updateVisibility (conversationId userId : ℕ) (action : VisibilityAction) : Messaging ℕ := do
  let conv ← getParticipantConversation conversationId userId
  Program.require (action = .archive → (resolve conv userId {}).canArchive = true) (.forbidden "Forbidden")
  Program.require (action = .delete → (resolve conv userId {}).canDelete = true) (.forbidden "Forbidden")
  let nextVersion := conv.conversationVersion + 1
  let _ ← Messaging.update (updateConversation conv.id fun c =>
    if conv.guestUserId = some userId then
      { c with guestVisibility := action.value, conversationVersion := nextVersion }
    else { c with hostVisibility := action.value, conversationVersion := nextVersion })
  pure nextVersion

def block (conversationId userId : ℕ) : Messaging Unit := do
  let conv ← getParticipantConversation conversationId userId
  let now ← Messaging.now
  let _ ← Messaging.update (updateConversation conv.id fun c =>
    { c with
      blockedByGuest := if conv.guestUserId = some userId then true else c.blockedByGuest
      blockedByHost := if conv.guestUserId = some userId then c.blockedByHost else true
      messagingState := .locked
      lockedAt := some now
      conversationVersion := conv.conversationVersion + 1 })
  pure ()

def messageableBookingStatuses : List BookingStatus := [.confirmed, .checkedIn, .completed]

def systemMetadata (kind : String) : Metadata := { source := "SYSTEM", kind := some kind }

/-- The seeds of `seedBookingConfirmed`. -/
def bookingConfirmedSeeds (listing : StaysListing) : List MessageInput :=
  [{ type := .systemEvent, body := some "Booking confirmed", metadata := systemMetadata "system" },
    { type := .bookingCard, body := none, metadata := systemMetadata "booking" },
    { type := .propertyCard, body := none, metadata := systemMetadata "property" }] ++
  (if listing.accessInstructions.any (· ≠ "") then
    [{ type := .checkinCard, body := none, metadata := systemMetadata "checkin" }] else []) ++
  (if listing.wifiSsid.any (· ≠ "") then
    [{ type := .wifiCard, body := none, metadata := systemMetadata "wifi" }] else [])

def seedAll (conversation : StaysConversation) (seeds : List MessageInput) : Messaging Unit :=
  Program.forEach (fun seed => do
    let _ ← insertMessage conversation seed
    pure ()) seeds

/-- The conversation that is made for a booking. -/
def provisioned (booking : StaysBooking) (listing : StaysListing) (id : ℕ) : StaysConversation :=
  { id
    bookingId := some booking.id
    type := .booking
    listingId := some listing.id
    hostUserId := listing.hostUserId
    guestUserId := booking.guestUserId }

def provisionWithinTransaction (booking : StaysBooking) (listingId : ℕ) :
    Messaging (Option StaysConversation) := do
  let existing ← Messaging.read fun s => conversationOf s booking.id
  match existing with
  | some conv => pure (some conv)
  | none => do
    let listing ← Messaging.read fun s => s.listings.find? listingId
    match listing.filter fun l => l.hostUserId ≠ none with
    | none => pure none
    | some listing => do
      let id ← Messaging.insert fun id => .conversation (provisioned booking listing id)
      let conversation := provisioned booking listing id
      seedAll conversation (bookingConfirmedSeeds listing)
      enqueue (.bookingConfirmed booking.id conversation.id)
      enqueue (.paymentSucceeded booking.id)
      pure (some conversation)

/-- What `ensureForBooking` does in its transaction. -/
def ensureWithinTransaction (bookingId userId : ℕ) : Messaging StaysConversation := do
  let existing ← Messaging.read fun s => conversationOf s bookingId
  match existing with
  | some conv => do
    Program.require (conv.guestUserId = some userId ∨ conv.hostUserId = some userId)
      (.forbidden "Not a participant on this booking")
    enqueue (.snapshotRepairRequested conv.id)
    pure conv
  | none => do
    let booking ← Messaging.read fun s => s.bookings.find? bookingId
    let booking ← Program.expect booking (.notFound "Booking not found")
    let listing ← Messaging.read fun s => s.listings.find? booking.listingId
    Program.require (booking.guestUserId = some userId ∨
      listing.bind (·.hostUserId) = some userId) (.forbidden "Not a participant on this booking")
    Program.require (booking.status ∈ messageableBookingStatuses)
      (.badRequest "Messaging is available after the booking is confirmed")
    let created ← provisionWithinTransaction booking booking.listingId
    Program.expect created (.badRequest "Could not open conversation for this booking")

def ensureForBooking (bookingId userId : ℕ) : Messaging StaysConversation := do
  let conv ← Program.transaction .database (ensureWithinTransaction bookingId userId)
  enqueue (.snapshotRepairRequested conv.id)
  pure conv

/-- `Number(part) || fallback`. -/
def numberOr (part : Option String) (fallback : ℕ) : ℕ :=
  match part.bind String.toNat? with
  | none | some 0 => fallback
  | some n => n

def parseCheckoutDateTime (env : Env) (checkoutDate : ℤ) (checkoutTime : String) : ℤ :=
  let parts := checkoutTime.splitOn ":"
  ((checkoutDate * 24 + numberOr parts[0]? 11) * 60 + numberOr parts[1]? 0) * 60000 - env.localOffset

def computePostStayEndsAt (env : Env) (booking : StaysBooking) (listing : Option StaysListing) : ℤ :=
  let checkoutAt := match booking.completedAt with
    | some completedAt => completedAt
    | none => parseCheckoutDateTime env booking.checkoutDate
      ((listing.bind (·.checkoutTime)).getD "11:00")
  checkoutAt + env.postStayGraceHours * 60 * 60 * 1000

def listingOf (booking : Option StaysBooking) : Messaging (Option StaysListing) :=
  match booking with
  | none => pure none
  | some booking => Messaging.read fun s => s.listings.find? booking.listingId

/-- The seeds of `seedCheckoutComplete`. -/
def checkoutCompleteSeeds : List MessageInput :=
  [{ type := .systemEvent, body := some "Checkout complete", metadata := systemMetadata "system" },
    { type := .reviewCard, body := none, metadata := systemMetadata "review" }]

/-- The seeds of `seedConversationArchived`. -/
def conversationArchivedSeeds : List MessageInput :=
  [{ type := .systemNotice, body := some "This conversation has been archived."
     metadata := systemMetadata "archive" }]

/-- Seed the messages unless one of a type is there. -/
def seedOnce (conv : StaysConversation) (type : MessageType) (seeds : List MessageInput) :
    Messaging Unit := do
  let present ← Messaging.read fun s => (messagesOf s conv.id).any fun m => m.type = type
  if present then pure () else seedAll conv seeds

/-- The conversation after checkout. -/
def inPostStay (conv : StaysConversation) (postStayEndsAt : ℤ) (c : StaysConversation) :
    StaysConversation :=
  { c with
    messagingState := .active
    guestVisibility := .active
    hostVisibility := .active
    postStayEndsAt := some postStayEndsAt
    archivedAt := none
    readOnlyAt := none
    archiveReason := none
    conversationVersion := conv.conversationVersion + 1 }

def enterPostStay (env : Env) (bookingId : ℕ) : Messaging Unit := do
  let booking ← Messaging.read fun s => s.bookings.find? bookingId
  let conv ← Messaging.read fun s => conversationOf s bookingId
  match booking.filter fun b => b.status = .completed, conv with
  | some booking, some conv =>
    if conv.messagingState = .active ∧ conv.postStayEndsAt ≠ none then pure ()
    else do
      let listing ← listingOf (some booking)
      Program.transaction .database do
        seedOnce conv .reviewCard checkoutCompleteSeeds
        let _ ← Messaging.update (updateConversation conv.id
          (inPostStay conv (computePostStayEndsAt env booking listing)))
        pure ()
  | _, _ => pure ()

/-- The conversation in the archive. -/
def inArchive (conv : StaysConversation) (reason : String) (now : ℤ) (c : StaysConversation) :
    StaysConversation :=
  { c with
    messagingState := .archived
    guestVisibility := .archived
    hostVisibility := .archived
    archivedAt := some (conv.archivedAt.getD now)
    readOnlyAt := some (conv.readOnlyAt.getD now)
    archiveReason := some reason
    conversationVersion := conv.conversationVersion + 1 }

def archiveConversation (conversationId : ℕ) (reason : String) : Messaging Unit := do
  let conv ← Messaging.read fun s => s.conversations.find? conversationId
  match conv.filter fun c => c.messagingState ≠ .archived with
  | none => pure ()
  | some conv => do
    let now ← Messaging.now
    Program.transaction .database do
      seedOnce conv .systemNotice conversationArchivedSeeds
      let _ ← Messaging.update (updateConversation conv.id (inArchive conv reason now))
      pure ()

def syncFromBooking (env : Env) (bookingId : ℕ) : Messaging Unit := do
  let booking ← Messaging.read fun s => s.bookings.find? bookingId
  let conv ← Messaging.read fun s => conversationOf s bookingId
  match booking, conv with
  | some booking, some conv => do
    let now ← Messaging.now
    if booking.status = .cancelledByGuest ∨ booking.status = .cancelledByHost then do
      let _ ← Messaging.update (updateConversation conv.id fun c =>
        { c with
          messagingState := .locked
          lockedAt := some (conv.lockedAt.getD now)
          conversationVersion := conv.conversationVersion + 1 })
      pure ()
    else if booking.status = .completed then
      if conv.messagingState = .archived then pure ()
      else if (∃ t ∈ conv.postStayEndsAt, t ≤ (now : ℤ)) ∧ conv.autoArchiveDisabled = false then
        archiveConversation conv.id "AUTO"
      else enterPostStay env bookingId
    else pure ()
  | _, _ => pure ()

structure ReopenOptions where
  reason : Option String := none
  disableAutoArchive : Option Bool := none
  deriving DecidableEq, Repr

/-- The conversation that is opened again. -/
def reopened (conv : StaysConversation) (postStayEndsAt : Option ℤ) (options : ReopenOptions)
    (c : StaysConversation) : StaysConversation :=
  { c with
    messagingState := .active
    guestVisibility := .active
    hostVisibility := .active
    archivedAt := none
    readOnlyAt := none
    archiveReason := none
    postStayEndsAt := postStayEndsAt
    autoArchiveDisabled := options.disableAutoArchive.getD false
    autoArchiveDisabledReason :=
      if options.disableAutoArchive = some true then some (options.reason.getD "manual") else none
    conversationVersion := conv.conversationVersion + 1 }

/-- `reopenConversation` of the state service, for a participant. -/
def reopenConversation (env : Env) (conversationId userId : ℕ) (options : ReopenOptions) :
    Messaging StaysConversation := do
  let _ ← getParticipantConversation conversationId userId
  let conv ← Messaging.read fun s => s.conversations.find? conversationId
  let conv ← Program.expect conv (.notFound "Conversation not found")
  let booking ← Messaging.read fun s => conv.bookingId.bind fun id => s.bookings.find? id
  let listing ← listingOf booking
  let postStayEndsAt := match booking.filter fun b => b.status = .completed with
    | some booking =>
      if options.disableAutoArchive = some true then conv.postStayEndsAt
      else some (computePostStayEndsAt env booking listing)
    | none => conv.postStayEndsAt
  let _ ← Messaging.update (updateConversation conv.id (reopened conv postStayEndsAt options))
  let updated ← Messaging.read fun s => s.conversations.find? conversationId
  Program.expect updated (.notFound "Conversation not found")

/-- The post-stay conversations past their deadline, in any order. -/
def dueConversations (now : ℤ) (s : Store) : List StaysConversation :=
  s.conversations.rows.filter fun c => c.type = .booking ∧ c.messagingState = .active ∧
    (∃ t ∈ c.postStayEndsAt, t ≤ now) ∧ c.autoArchiveDisabled = false

/-- A failure of one conversation does not keep the others. -/
def archiveDueConversations : Messaging Unit := do
  let now ← Messaging.now
  let due ← findAll .database (dueConversations now)
  Program.forEach (fun conv =>
    Program.attempt (archiveConversation conv.id "AUTO") fun _ => pure ()) due

/-- The last review card of a conversation. -/
def lastReviewCard (s : Store) (conversationId : ℕ) : Option StaysMessage :=
  (((messagesOf s conversationId).filter fun m => m.type = .reviewCard).mergeSort
    fun a b => b.conversationSequence ≤ a.conversationSequence).head?

def markReviewCardSubmitted (bookingId : ℕ) : Messaging Unit := do
  let conv ← Messaging.read fun s => conversationOf s bookingId
  match conv with
  | none => pure ()
  | some conv => do
    let reviewCard ← Messaging.read fun s => lastReviewCard s conv.id
    match reviewCard.filter fun m => m.metadata.reviewed = false with
    | none => pure ()
    | some reviewCard => do
      let _ ← Messaging.update fun s => (s.messages.filter fun m => m.id = reviewCard.id).map fun m =>
        .messageUpdate { m with metadata := { reviewCard.metadata with reviewed := true } }
      let _ ← Messaging.update (updateConversation conv.id fun c =>
        { c with conversationVersion := conv.conversationVersion + 1 })
      pure ()

end NexaStays.ConversationStates
