import NexaStays.Completions
import NexaStays.ConversationStates
import NexaStays.RowInvariants

/-!
# Locks on a conversation

A conversation is closed by a value of its state, which is one column for every reason, and a
participant is blocked by a flag of its own. Nothing clears a flag; the state is set back where
a stay is completed, and where a participant reopens the conversation.
-/
namespace NexaStays.ConversationLocks

open NexaStays.KeyedTable NexaStays.Transactions NexaStays.Phases NexaStays.Completions
open NexaStays.Sequences NexaStays.RowOrder NexaStays.RowInvariants
open NexaStays.MessagingStore NexaStays.Messages NexaStays.ConversationStates
open NexaStays.Database (BookingStatus)

inductive Call where
  | sendText (conversationId userId : ℕ) (body : String) (clientMessageId : Option String)
  | sendWithAttachments (conversationId userId : ℕ) (type : MessageType) (attachmentIds : List ℕ)
      (caption clientMessageId : Option String)
  | sendWithSession (conversationId userId : ℕ) (type : MessageType) (sessionId : ℕ)
      (caption clientMessageId : Option String)
  | reopenConversation (conversationId userId : ℕ) (options : ReopenOptions)
  | updateVisibility (conversationId userId : ℕ) (action : VisibilityAction)
  | block (conversationId userId : ℕ)
  | ensureForBooking (bookingId userId : ℕ)
  | syncFromBooking (bookingId : ℕ)
  | enterPostStay (bookingId : ℕ)
  | archiveDueConversations
  | bookingChanged (row : StaysBooking)
  deriving DecidableEq, Repr

inductive Answer where
  | message (m : StaysMessage)
  | conversation (c : StaysConversation)
  | version (n : ℕ)
  | done
  deriving DecidableEq, Repr

/-- The other services change a booking. -/
def changeBooking (row : StaysBooking) : Messaging Unit := do
  let _ ← Messaging.update fun _ => [.booking row]
  pure ()

def program (env : Env) : Call → Messaging Answer
  | .sendText conversationId userId body clientMessageId =>
    .message <$> Messages.sendText conversationId userId body clientMessageId
  | .sendWithAttachments conversationId userId type attachmentIds caption clientMessageId =>
    .message <$> Messages.sendWithAttachments conversationId userId type attachmentIds caption
      clientMessageId
  | .sendWithSession conversationId userId type sessionId caption clientMessageId =>
    .message <$> Messages.sendWithSession conversationId userId type sessionId caption
      clientMessageId
  | .reopenConversation conversationId userId options =>
    .conversation <$> ConversationStates.reopenConversation env conversationId userId options
  | .updateVisibility conversationId userId action =>
    .version <$> ConversationStates.updateVisibility conversationId userId action
  | .block conversationId userId =>
    (fun _ => .done) <$> ConversationStates.block conversationId userId
  | .ensureForBooking bookingId userId =>
    .conversation <$> ConversationStates.ensureForBooking bookingId userId
  | .syncFromBooking bookingId => (fun _ => .done) <$> ConversationStates.syncFromBooking env bookingId
  | .enterPostStay bookingId => (fun _ => .done) <$> ConversationStates.enterPostStay env bookingId
  | .archiveDueConversations => (fun _ => .done) <$> ConversationStates.archiveDueConversations
  | .bookingChanged row => (fun _ => .done) <$> changeBooking row

/-- The conversation to which a participant sends. -/
def Call.target : Call → Option ℕ
  | .sendText conversationId _ _ _ | .sendWithAttachments conversationId _ _ _ _ _
  | .sendWithSession conversationId _ _ _ _ _ => some conversationId
  | _ => none

/-- A call with the stores before and after it, and what it ended with. -/
abbrev Entry := Turn Call Store × Except MessagingError Answer

def cancelledStatuses : List BookingStatus := [.cancelledByGuest, .cancelledByHost]

/-- The booking is cancelled. -/
def Cancelled (s : Store) (bookingId : ℕ) : Prop :=
  ∃ b, s.bookings.find? bookingId = some b ∧ b.status ∈ cancelledStatuses

/-- `syncFromBooking` has closed the conversation of a cancelled booking. -/
def Closes (conversationId : ℕ) (entry : Entry) : Prop :=
  ∃ bookingId conv, entry.1.call = .syncFromBooking bookingId ∧ entry.2 = .ok .done ∧
    Cancelled entry.1.before bookingId ∧ conversationOf entry.1.before bookingId = some conv ∧
    conv.id = conversationId

/-- `userId` was blocked by the other participant. -/
def Blocks (conversationId userId : ℕ) (entry : Entry) : Prop :=
  ∃ blocker conv, entry.1.call = .block conversationId blocker ∧ entry.2 = .ok .done ∧
    entry.1.before.conversations.find? conversationId = some conv ∧
    if conv.guestUserId = some blocker then conv.hostUserId = some userId
    else conv.guestUserId = some userId

/-- No message is accepted once the conversation was closed, and who was blocked cannot send. -/
structure LocksHold (log : List Entry) (entry : Entry) : Prop where
  closed : ∀ conversationId ∈ entry.1.call.target, (∃ before ∈ log, Closes conversationId before) →
    ∀ answer, entry.2 ≠ .ok answer
  blocked : ∀ conversationId userId, (∃ before ∈ log ++ [entry], Blocks conversationId userId before) →
    ∀ conv, entry.1.after.conversations.find? conversationId = some conv →
      (resolve conv userId {}).canSend = false

/-- The conversation is not open, and its booking is cancelled. -/
def Barred (s : Store) (conv : StaysConversation) : Prop :=
  conv.messagingState ≠ .active ∧ ∃ bookingId, conv.bookingId = some bookingId ∧ Cancelled s bookingId

/-- No participant reopens the conversation of a cancelled booking, and no booking is taken back
from its cancellation. -/
def Clean (entry : Entry) : Prop :=
  match entry.1.call with
  | .reopenConversation conversationId userId _ =>
    ∀ conv, entry.1.before.conversations.find? conversationId = some conv →
      isParticipant conv userId {} = true → ¬Barred entry.1.before conv
  | .bookingChanged row => Cancelled entry.1.before row.id → row.status ∈ cancelledStatuses
  | _ => True

/-- What a call that starts at `s₀` may make of a conversation. -/
structure Extends (s₀ : Store) (c c' : StaysConversation) : Prop where
  guest : c'.guestUserId = c.guestUserId
  host : c'.hostUserId = c.hostUserId
  booking : c'.bookingId = c.bookingId
  blockedByGuest : c.blockedByGuest = true → c'.blockedByGuest = true
  blockedByHost : c.blockedByHost = true → c'.blockedByHost = true
  barred : Barred s₀ c → c'.messagingState ≠ .active

structure Stands (s₀ s : Store) : Prop where
  conversation : ∀ id c, s₀.conversations.find? id = some c →
    ∃ c', s.conversations.find? id = some c' ∧ Extends s₀ c c'
  cancelled : ∀ id, Cancelled s₀ id → Cancelled s id

def StandsWrite (s₀ : Store) : Write → Prop
  | .conversation c' => ∀ c, s₀.conversations.find? c'.id = some c → Extends s₀ c c'
  | .booking b => Cancelled s₀ b.id → b.status ∈ cancelledStatuses
  | _ => True

variable {s₀ s : Store} {env : Env} {conversationId userId : ℕ}

theorem extends_self (c : StaysConversation) : Extends s₀ c c :=
  ⟨rfl, rfl, rfl, id, id, fun h => h.1⟩

theorem stands_self : Stands s₀ s₀ := ⟨fun _ c h => ⟨c, h, extends_self c⟩, fun _ h => h⟩

theorem stands_write (s : Store) (w : Write) (hw : StandsWrite s₀ w) (hs : Stands s₀ s) :
    Stands s₀ (Storage.write s w) := by
  cases w with
  | conversation row =>
    refine ⟨fun id c hc => ?_, hs.cancelled⟩
    simp only [storage_write, Store.write, Table.find?_put]
    by_cases hid : id = row.id
    · subst hid
      exact ⟨row, if_pos rfl, hw c hc⟩
    · rw [if_neg hid]
      exact hs.conversation id c hc
  | booking row =>
    refine ⟨hs.conversation, fun id hid => ?_⟩
    simp only [Cancelled, storage_write, Store.write, Table.find?_put]
    by_cases heq : id = row.id
    · subst heq
      exact ⟨row, if_pos rfl, hw hid⟩
    · rw [if_neg heq]
      exact hs.cancelled id hid
  | _ => exact ⟨hs.conversation, hs.cancelled⟩

/-- A change of columns that keeps the participants, and opens no conversation. -/
structure Harmless (f : StaysConversation → StaysConversation) : Prop where
  id : ∀ c, (f c).id = c.id
  guest : ∀ c, (f c).guestUserId = c.guestUserId
  host : ∀ c, (f c).hostUserId = c.hostUserId
  booking : ∀ c, (f c).bookingId = c.bookingId
  blockedByGuest : ∀ c, c.blockedByGuest = true → (f c).blockedByGuest = true
  blockedByHost : ∀ c, c.blockedByHost = true → (f c).blockedByHost = true

theorem Harmless.extends {f : StaysConversation → StaysConversation} (hf : Harmless f)
    {c c' : StaysConversation} (h : Extends s₀ c c')
    (hstate : Barred s₀ c → (f c').messagingState ≠ .active) : Extends s₀ c (f c') where
  guest := (hf.guest c').trans h.guest
  host := (hf.host c').trans h.host
  booking := (hf.booking c').trans h.booking
  blockedByGuest hb := hf.blockedByGuest c' (h.blockedByGuest hb)
  blockedByHost hb := hf.blockedByHost c' (h.blockedByHost hb)
  barred := hstate

/-- An update of one conversation. -/
theorem upholds_updateConversation {id : ℕ} {f : StaysConversation → StaysConversation}
    (hf : Harmless f)
    (hstate : ∀ c c', s₀.conversations.find? id = some c → Extends s₀ c c' → Barred s₀ c →
      (f c').messagingState ≠ .active) :
    Upholds (Stands s₀) (StandsWrite s₀) (fun _ => True)
      (Messaging.update (updateConversation id f)) := by
  refine Upholds.writeRows fun s hs w hw => ?_
  obtain ⟨c', hc', rfl⟩ := List.mem_map.mp hw
  have hfound : s.conversations.find? id = some c' := Option.mem_toList.mp hc'
  obtain rfl : c'.id = id := Table.key_of_find? hfound
  intro c hc
  rw [hf.id] at hc
  obtain ⟨row, hrow, hext⟩ := hs.conversation _ c hc
  obtain rfl : c' = row := Option.some.inj (hfound.symm.trans hrow)
  exact hf.extends hext (hstate c c' hc hext)

/-- An update that leaves the state as it is, or closes the conversation. -/
theorem upholds_closing {id : ℕ} {f : StaysConversation → StaysConversation} (hf : Harmless f)
    (hstate : ∀ c, (f c).messagingState = c.messagingState ∨ (f c).messagingState ≠ .active) :
    Upholds (Stands s₀) (StandsWrite s₀) (fun _ => True)
      (Messaging.update (updateConversation id f)) := by
  refine upholds_updateConversation hf fun c c' _ hext hbarred => ?_
  obtain hsame | hclosed := hstate c'
  · rw [hsame]
    exact hext.barred hbarred
  · exact hclosed

theorem upholds_enqueue {event : OutboxEvent} :
    Upholds (Stands s₀) (StandsWrite s₀) (fun _ => True) (enqueue event) :=
  Upholds.receive.bind fun _ _ =>
    (Upholds.insertRow fun _ _ _ _ => trivial).bind fun _ _ => Upholds.pure trivial

theorem upholds_insertMessage {conv : StaysConversation} {input : MessageInput} :
    Upholds (Stands s₀) (StandsWrite s₀) (fun _ => True) (insertMessage conv input) := by
  refine Upholds.bind (Q := fun _ => True) ?_ fun locked _ => ?_
  · exact (Upholds.lockRow (Q := fun _ => True) fun _ _ => trivial).bind fun _ _ =>
      Upholds.expect.mono fun _ _ => trivial
  · refine (Upholds.query (Q := fun _ => True) fun _ _ => trivial).bind fun _ _ => ?_
    refine Upholds.receive.bind fun _ _ => ?_
    refine (Upholds.insertRow fun _ _ _ _ => trivial).bind fun _ _ => ?_
    refine Upholds.bind (upholds_closing ?_ fun c => .inl rfl) fun _ _ => Upholds.pure trivial
    exact ⟨fun _ => rfl, fun _ => rfl, fun _ => rfl, fun _ => rfl, fun _ h => h, fun _ h => h⟩

theorem upholds_seedAll {conv : StaysConversation} {seeds : List MessageInput} :
    Upholds (Stands s₀) (StandsWrite s₀) (fun _ => True) (seedAll conv seeds) :=
  Upholds.forEach fun _ _ => upholds_insertMessage.bind fun _ _ => Upholds.pure trivial

/-- The rows that a send writes besides those of its conversation are free. -/
theorem upholds_free {ws : Store → List Write} (h : ∀ s, ∀ w ∈ ws s, StandsWrite s₀ w) :
    Upholds (Stands s₀) (StandsWrite s₀) (fun _ => True) (Messaging.update ws) :=
  Upholds.writeRows fun s _ => h s

theorem upholds_enqueueDeliveryEvents {conv : StaysConversation} {message : StaysMessage} :
    Upholds (Stands s₀) (StandsWrite s₀) (fun _ => True)
      (enqueueDeliveryEvents conv message userId) := by
  refine (Upholds.query (Q := fun _ => True) fun _ _ => trivial).bind fun refreshed _ => ?_
  have hvisible : Upholds (Stands s₀) (StandsWrite s₀) (fun _ => True)
      (Messaging.update (updateConversation conv.id (unarchive userId conv))) := by
    refine upholds_closing ⟨?_, ?_, ?_, ?_, ?_, ?_⟩ fun c => .inl ?_
    all_goals unfold unarchive
    · exact fun c => by split <;> rfl
    · exact fun c => by split <;> rfl
    · exact fun c => by split <;> rfl
    · exact fun c => by split <;> rfl
    · exact fun c h => by split <;> exact h
    · exact fun c h => by split <;> exact h
    · split <;> rfl
  have hsent : Upholds (Stands s₀) (StandsWrite s₀) (fun _ => True)
      (enqueue (.messageSent message.id conv.id userId) >>= fun _ =>
        Messaging.update (updateConversation conv.id (unarchive userId conv)) >>= fun _ =>
          pure ()) :=
    upholds_enqueue.bind fun _ _ => hvisible.bind fun _ _ => Upholds.pure trivial
  cases recipientOf conv userId with
  | none => exact hsent
  | some recipientId => exact upholds_enqueue.bind fun _ _ => hsent

theorem upholds_lockTicket {id : ℕ} : Upholds (Stands s₀) (StandsWrite s₀) (fun _ => True)
    (lockTicketForCustomerSend id) := by
  refine (Upholds.findOne (Q := fun _ => True) trivial fun _ _ _ _ => trivial).bind fun found _ => ?_
  cases found with
  | none => exact Upholds.pure trivial
  | some ticket =>
    refine (Upholds.lockRow (Q := fun _ => True) fun _ _ => trivial).bind fun locked _ => ?_
    cases locked with
    | none => exact Upholds.pure trivial
    | some ticket => exact Upholds.require.bind fun _ _ => Upholds.pure trivial

theorem upholds_prepare {conv : StaysConversation} : Upholds (Stands s₀) (StandsWrite s₀)
    (fun _ => True) (prepareCustomerSupportSend conv userId) := by
  unfold prepareCustomerSupportSend
  split_ifs
  · exact Upholds.pure trivial
  · exact Upholds.pure trivial
  · exact upholds_lockTicket

theorem upholds_linkToMessage {messageId : ℕ} {attachmentIds : List ℕ} {id : Option ℕ} :
    Upholds (Stands s₀) (StandsWrite s₀) (fun _ => True)
      (linkToMessage messageId attachmentIds id) := by
  unfold linkToMessage
  split_ifs
  · exact Upholds.pure trivial
  · refine (upholds_free fun s w hw => ?_).bind fun _ _ => ?_
    · obtain ⟨a, -, rfl⟩ := List.mem_map.mp hw
      trivial
    · cases id with
      | none => exact Upholds.pure trivial
      | some id =>
        refine (Upholds.query (Q := fun _ => True) fun _ _ => trivial).bind fun conv _ => ?_
        cases conv with
        | none => exact Upholds.pure trivial
        | some conv =>
          refine Upholds.bind (upholds_closing ?_ fun c => .inl rfl) fun _ _ => Upholds.pure trivial
          exact ⟨fun _ => rfl, fun _ => rfl, fun _ => rfl, fun _ => rfl, fun _ h => h, fun _ h => h⟩

theorem upholds_storeMessage {conv : StaysConversation} {input : MessageInput}
    {link : StaysMessage → Messaging Unit}
    (hlink : ∀ m, Upholds (Stands s₀) (StandsWrite s₀) (fun _ => True) (link m)) :
    Upholds (Stands s₀) (StandsWrite s₀) (fun _ => True) (storeMessage conv userId input link) := by
  refine Upholds.transaction (upholds_prepare.bind fun ticket _ => ?_)
  refine upholds_insertMessage.bind fun message _ => (hlink message).bind fun _ _ => ?_
  refine upholds_enqueueDeliveryEvents.bind fun _ _ => ?_
  cases ticket with
  | none => exact Upholds.pure trivial
  | some ticket =>
    have heffects : Upholds (Stands s₀) (StandsWrite s₀) (fun _ => True)
        (applyCustomerSupportMessageEffects ticket) := by
      refine (upholds_free fun s w hw => ?_).bind fun _ _ => Upholds.pure trivial
      obtain ⟨t, -, rfl⟩ := List.mem_map.mp hw
      trivial
    exact heffects.bind fun _ _ => Upholds.pure trivial

/-- The conversation that a participant has read, as it was when the call began. -/
def Read (s₀ : Store) (conversationId userId : ℕ) (conv : StaysConversation) : Prop :=
  conv.id = conversationId ∧ isParticipant conv userId {} = true ∧
    ∀ c, s₀.conversations.find? conversationId = some c → Extends s₀ c conv

theorem upholds_getParticipantConversation :
    Upholds (Stands s₀) (StandsWrite s₀) (Read s₀ conversationId userId)
      (getParticipantConversation conversationId userId) := by
  refine (Upholds.query (Q := fun o : Option StaysConversation => ∀ conv, o = some conv →
    conv.id = conversationId ∧ ∀ c, s₀.conversations.find? conversationId = some c →
      Extends s₀ c conv) fun s hs conv hconv => ?_).bind fun found hfound => ?_
  · refine ⟨Table.key_of_find? hconv, fun c hc => ?_⟩
    obtain ⟨row, hrow, hext⟩ := hs.conversation _ c hc
    rwa [Option.some.inj (hconv.symm.trans hrow)]
  · refine Upholds.expect.mono fun conv hconv => ?_
    obtain ⟨hsome, hpart⟩ := Option.filter_eq_some_iff.mp hconv
    obtain ⟨hid, hext⟩ := hfound conv hsome
    exact ⟨hid, hpart, hext⟩

/-- The call does not start in a closed conversation of a cancelled booking. -/
def Open (s₀ : Store) (conversationId : ℕ) : Prop :=
  ∀ c, s₀.conversations.find? conversationId = some c → ¬Barred s₀ c

theorem not_canSend_of_closed {conv : StaysConversation} (h : conv.messagingState ≠ .active) :
    (resolve conv userId {}).canSend = false := by
  have hread : readOnlyState conv {} = true := by
    unfold readOnlyState
    cases hstate : conv.messagingState <;> simp_all
  unfold resolve
  simp only [hread]
  split_ifs <;> simp [denied]

theorem open_of_canSend {conv : StaysConversation} (hread : Read s₀ conversationId userId conv)
    (hsend : (resolve conv userId {}).canSend = true) : Open s₀ conversationId := by
  intro c hc hbarred
  have hclosed := (hread.2.2 c hc).barred hbarred
  rw [not_canSend_of_closed hclosed] at hsend
  cases hsend

/-- What every send does first. -/
theorem upholds_checked {α : Type} {Q : α → Prop} {k : StaysConversation → Messaging α}
    (hk : ∀ conv, Open s₀ conversationId → Upholds (Stands s₀) (StandsWrite s₀) Q (k conv)) :
    Upholds (Stands s₀) (StandsWrite s₀) Q (do
      let conv ← getParticipantConversation conversationId userId
      Program.require ((resolve conv userId {}).canSend = true) (.forbidden "Cannot send messages")
      k conv) :=
  upholds_getParticipantConversation.bind fun conv hread =>
    Upholds.require.bind fun _ hsend => hk conv (open_of_canSend hread hsend)

theorem upholds_findExisting {clientMessageId : Option String} :
    Upholds (Stands s₀) (StandsWrite s₀) (fun _ => True)
      (findExisting conversationId clientMessageId) := by
  unfold findExisting
  cases clientMessageId.filter fun c => c ≠ "" with
  | none => exact Upholds.pure trivial
  | some client => exact Upholds.findOne trivial fun _ _ _ _ => trivial

theorem upholds_assertCanSend :
    Upholds (Stands s₀) (StandsWrite s₀) (fun _ => True) assertCanSend :=
  Upholds.receive.bind fun _ _ => Upholds.require.mono fun _ _ => trivial

theorem upholds_sendText {body : String} {clientMessageId : Option String} :
    Upholds (Stands s₀) (StandsWrite s₀) (fun _ => Open s₀ conversationId)
      (sendText conversationId userId body clientMessageId) := by
  refine Upholds.require.bind fun _ _ => Upholds.require.bind fun _ _ => ?_
  refine upholds_checked fun conv hopen => upholds_findExisting.bind fun existing _ => ?_
  cases existing with
  | some message => exact Upholds.pure hopen
  | none =>
    refine upholds_assertCanSend.bind fun _ _ => ?_
    exact (upholds_storeMessage fun _ => Upholds.pure trivial).mono fun _ _ => hopen

theorem upholds_loadForMessage {message : StaysMessage} :
    Upholds (Stands s₀) (StandsWrite s₀) (fun _ => True) (loadForMessage message) :=
  upholds_linkToMessage

theorem upholds_assertReadyForSend {attachmentIds : List ℕ} :
    Upholds (Stands s₀) (StandsWrite s₀) (fun _ => True)
      (assertReadyForSend conversationId userId attachmentIds) := by
  unfold assertReadyForSend
  split_ifs
  · exact Upholds.pure trivial
  · refine (Upholds.query (Q := fun _ => True) fun _ _ => trivial).bind fun _ _ => ?_
    exact Upholds.require.bind fun _ _ => Upholds.require.mono fun _ _ => trivial

theorem upholds_sendWithAttachments {type : MessageType} {attachmentIds : List ℕ}
    {caption clientMessageId : Option String} :
    Upholds (Stands s₀) (StandsWrite s₀) (fun _ => Open s₀ conversationId)
      (sendWithAttachments conversationId userId type attachmentIds caption clientMessageId) := by
  refine upholds_checked fun conv hopen => upholds_findExisting.bind fun existing _ => ?_
  cases existing with
  | some message => exact upholds_loadForMessage.bind fun _ _ => Upholds.pure hopen
  | none =>
    refine upholds_assertReadyForSend.bind fun _ _ => upholds_assertCanSend.bind fun _ _ => ?_
    refine (upholds_storeMessage fun _ => upholds_linkToMessage).bind fun _ _ => ?_
    exact upholds_loadForMessage.bind fun _ _ => Upholds.pure hopen

theorem upholds_assertSessionReadyForSend {sessionId : ℕ} :
    Upholds (Stands s₀) (StandsWrite s₀) (fun _ => True)
      (assertSessionReadyForSend conversationId userId sessionId) := by
  refine (Upholds.query (Q := fun _ => True) fun _ _ => trivial).bind fun _ _ => ?_
  refine Upholds.expect.bind fun _ _ => Upholds.require.bind fun _ _ => ?_
  refine Upholds.receive.bind fun _ _ => Upholds.require.bind fun _ _ => ?_
  refine (Upholds.query (Q := fun _ => True) fun _ _ => trivial).bind fun _ _ => ?_
  exact Upholds.require.bind fun _ _ => Upholds.require.bind fun _ _ => Upholds.pure trivial

theorem upholds_finalizeSession {sessionId : ℕ} :
    Upholds (Stands s₀) (StandsWrite s₀) (fun _ => True) (finalizeSession sessionId) := by
  refine Upholds.send fun s _ w hw => ?_
  obtain ⟨x, -, rfl⟩ := List.mem_map.mp hw
  trivial

theorem upholds_sendWithSession {type : MessageType} {sessionId : ℕ}
    {caption clientMessageId : Option String} :
    Upholds (Stands s₀) (StandsWrite s₀) (fun _ => Open s₀ conversationId)
      (sendWithSession conversationId userId type sessionId caption clientMessageId) := by
  refine upholds_checked fun conv hopen => upholds_findExisting.bind fun existing _ => ?_
  cases existing with
  | some message => exact upholds_loadForMessage.bind fun _ _ => Upholds.pure hopen
  | none =>
    refine upholds_assertSessionReadyForSend.bind fun _ _ => upholds_assertCanSend.bind fun _ _ => ?_
    refine Upholds.bind (Q := fun _ => True) (upholds_storeMessage fun _ =>
      upholds_linkToMessage.bind fun _ _ => upholds_finalizeSession) fun _ _ => ?_
    exact upholds_loadForMessage.bind fun _ _ => Upholds.pure hopen

theorem upholds_updateVisibility {action : VisibilityAction} :
    Upholds (Stands s₀) (StandsWrite s₀) (fun _ => True)
      (updateVisibility conversationId userId action) := by
  refine upholds_getParticipantConversation.bind fun conv _ => ?_
  refine Upholds.require.bind fun _ _ => Upholds.require.bind fun _ _ => ?_
  refine (upholds_closing ⟨?_, ?_, ?_, ?_, ?_, ?_⟩ fun c => .inl ?_).bind fun _ _ =>
    Upholds.pure trivial
  · exact fun c => by split <;> rfl
  · exact fun c => by split <;> rfl
  · exact fun c => by split <;> rfl
  · exact fun c => by split <;> rfl
  · exact fun c h => by split <;> exact h
  · exact fun c h => by split <;> exact h
  · split <;> rfl

theorem upholds_block :
    Upholds (Stands s₀) (StandsWrite s₀) (fun _ => True) (block conversationId userId) := by
  refine upholds_getParticipantConversation.bind fun conv _ => Upholds.receive.bind fun _ _ => ?_
  refine Upholds.bind (upholds_closing ⟨fun _ => rfl, fun _ => rfl, fun _ => rfl, fun _ => rfl, ?_, ?_⟩
    fun c => .inr ?_) fun _ _ => Upholds.pure trivial
  · intro c h
    simp [h]
  · intro c h
    simp [h]
  · simp

theorem upholds_changeBooking {row : StaysBooking}
    (h : Cancelled s₀ row.id → row.status ∈ cancelledStatuses) :
    Upholds (Stands s₀) (StandsWrite s₀) (fun _ => True) (changeBooking row) := by
  refine (upholds_free fun s w hw => ?_).bind fun _ _ => Upholds.pure trivial
  rw [List.mem_singleton.mp hw]
  exact h

/-- A new row is no row of the store in which the call began. -/
theorem upholds_provision {booking : StaysBooking} {listingId : ℕ} :
    Upholds (Stands s₀) (StandsWrite s₀) (fun _ => True)
      (provisionWithinTransaction booking listingId) := by
  refine (Upholds.query (Q := fun _ => True) fun _ _ => trivial).bind fun existing _ => ?_
  cases existing with
  | some conv => exact Upholds.pure trivial
  | none =>
    refine (Upholds.query (Q := fun _ => True) fun _ _ => trivial).bind fun listing _ => ?_
    split
    · exact Upholds.pure trivial
    · refine (Upholds.insertRow fun s n hs hn c hc => ?_).bind fun id _ => ?_
      · obtain ⟨c', hc', -⟩ := hs.conversation _ c hc
        simp only [storage_present, storage_keyOf, Write.key, Store.present, hc'] at hn
        cases hn
      · refine upholds_seedAll.bind fun _ _ => upholds_enqueue.bind fun _ _ => ?_
        exact upholds_enqueue.bind fun _ _ => Upholds.pure trivial

theorem upholds_ensureForBooking {bookingId : ℕ} :
    Upholds (Stands s₀) (StandsWrite s₀) (fun _ => True) (ensureForBooking bookingId userId) := by
  refine Upholds.bind (Q := fun _ => True) (Upholds.transaction ?_) fun conv _ =>
    upholds_enqueue.bind fun _ _ => Upholds.pure trivial
  refine (Upholds.query (Q := fun _ => True) fun _ _ => trivial).bind fun existing _ => ?_
  cases existing with
  | some conv =>
    exact Upholds.require.bind fun _ _ => upholds_enqueue.bind fun _ _ => Upholds.pure trivial
  | none =>
    refine (Upholds.query (Q := fun _ => True) fun _ _ => trivial).bind fun booking _ => ?_
    refine Upholds.expect.bind fun booking _ => ?_
    refine (Upholds.query (Q := fun _ => True) fun _ _ => trivial).bind fun listing _ => ?_
    refine Upholds.require.bind fun _ _ => Upholds.require.bind fun _ _ => ?_
    exact upholds_provision.bind fun _ _ => Upholds.expect.mono fun _ _ => trivial

theorem upholds_seedOnce {conv : StaysConversation} {type : MessageType}
    {seeds : List MessageInput} :
    Upholds (Stands s₀) (StandsWrite s₀) (fun _ => True) (seedOnce conv type seeds) := by
  refine (Upholds.query (Q := fun _ => True) fun _ _ => trivial).bind fun present _ => ?_
  split_ifs
  · exact Upholds.pure trivial
  · exact upholds_seedAll

theorem upholds_archiveConversation {id : ℕ} {reason : String} :
    Upholds (Stands s₀) (StandsWrite s₀) (fun _ => True) (archiveConversation id reason) := by
  refine (Upholds.query (Q := fun _ => True) fun _ _ => trivial).bind fun conv _ => ?_
  split
  · exact Upholds.pure trivial
  · refine Upholds.receive.bind fun now _ => Upholds.transaction ?_
    refine upholds_seedOnce.bind fun _ _ => ?_
    refine (upholds_closing ?_ fun c => .inr (by simp [inArchive])).bind fun _ _ =>
      Upholds.pure trivial
    exact ⟨fun _ => rfl, fun _ => rfl, fun _ => rfl, fun _ => rfl, fun _ h => h, fun _ h => h⟩

/-- The booking of a conversation that a call has found. -/
def FoundFor (s₀ : Store) (bookingId : ℕ) (conv : StaysConversation) : Prop :=
  ∀ c, s₀.conversations.find? conv.id = some c → c.bookingId = some bookingId

theorem upholds_conversationOf {bookingId : ℕ} :
    Upholds (Stands s₀) (StandsWrite s₀) (fun o => ∀ conv, o = some conv → FoundFor s₀ bookingId conv)
      (Messaging.read fun s => conversationOf s bookingId) := by
  refine Upholds.query fun s hs conv hconv c hc => ?_
  obtain ⟨row, hrow, hext⟩ := hs.conversation _ c hc
  have hmem := List.mem_of_find?_eq_some hconv
  have hbooking : conv.bookingId = some bookingId := by simpa using List.find?_some hconv
  obtain rfl : conv = row := Option.some.inj ((Table.find?_key hmem).symm.trans hrow)
  rw [← hext.booking, hbooking]

theorem upholds_listingOf {booking : Option StaysBooking} :
    Upholds (Stands s₀) (StandsWrite s₀) (fun _ => True) (listingOf booking) := by
  cases booking with
  | none => exact Upholds.pure trivial
  | some booking => exact Upholds.query fun _ _ => trivial

/-- A completed stay opens its conversation: its booking is not cancelled. -/
theorem upholds_enterPostStay {bookingId : ℕ} :
    Upholds (Stands s₀) (StandsWrite s₀) (fun _ => True) (enterPostStay env bookingId) := by
  refine (Upholds.query (Q := fun o : Option StaysBooking => ∀ b, o = some b →
    b.status = .completed → ¬Cancelled s₀ bookingId) fun s hs b hb hstatus hcancelled => ?_).bind
      fun booking hbooking => ?_
  · obtain ⟨b', hb', hstatus'⟩ := hs.cancelled _ hcancelled
    obtain rfl : b = b' := Option.some.inj (hb.symm.trans hb')
    simp [hstatus, cancelledStatuses] at hstatus'
  · refine upholds_conversationOf.bind fun conv hconv => ?_
    split
    · rename_i booking' conv' hfound
      obtain ⟨hsome, hstatus⟩ := Option.filter_eq_some_iff.mp hfound
      have hopen := hbooking booking' hsome (by simpa using hstatus)
      split_ifs
      · exact Upholds.pure trivial
      · refine upholds_listingOf.bind fun listing _ => Upholds.transaction ?_
        refine upholds_seedOnce.bind fun _ _ => ?_
        refine (upholds_updateConversation ?_ fun c c' hc _ hbarred => ?_).bind fun _ _ =>
          Upholds.pure trivial
        · exact ⟨fun _ => rfl, fun _ => rfl, fun _ => rfl, fun _ => rfl, fun _ h => h, fun _ h => h⟩
        · obtain ⟨-, id, hid, hcancelled⟩ := hbarred
          rw [hconv _ rfl c hc] at hid
          rw [← Option.some.inj hid] at hcancelled
          exact absurd hcancelled hopen
    · exact Upholds.pure trivial

theorem upholds_syncFromBooking {bookingId : ℕ} :
    Upholds (Stands s₀) (StandsWrite s₀) (fun _ => True) (syncFromBooking env bookingId) := by
  refine (Upholds.query (Q := fun _ => True) fun _ _ => trivial).bind fun booking _ => ?_
  refine (Upholds.query (Q := fun _ => True) fun _ _ => trivial).bind fun conv _ => ?_
  split
  · refine Upholds.receive.bind fun now _ => ?_
    split_ifs
    · refine (upholds_closing ?_ fun c => .inr (by simp)).bind fun _ _ => Upholds.pure trivial
      exact ⟨fun _ => rfl, fun _ => rfl, fun _ => rfl, fun _ => rfl, fun _ h => h, fun _ h => h⟩
    · exact Upholds.pure trivial
    · exact upholds_archiveConversation
    · exact upholds_enterPostStay
    · exact Upholds.pure trivial
  · exact Upholds.pure trivial

theorem upholds_archiveDueConversations :
    Upholds (Stands s₀) (StandsWrite s₀) (fun _ => True) archiveDueConversations := by
  refine Upholds.receive.bind fun now _ => ?_
  refine (Upholds.findAll (Q := fun _ => True) fun _ _ _ => trivial).bind fun due _ => ?_
  exact Upholds.forEach fun conv _ => upholds_archiveConversation.attempt fun _ => Upholds.pure trivial

/-- A conversation may be reopened that is not closed, or whose booking is not cancelled. -/
theorem upholds_reopenConversation {options : ReopenOptions}
    (h : ∀ conv, s₀.conversations.find? conversationId = some conv →
      isParticipant conv userId {} = true → ¬Barred s₀ conv) :
    Upholds (Stands s₀) (StandsWrite s₀) (fun _ => True)
      (reopenConversation env conversationId userId options) := by
  refine upholds_getParticipantConversation.bind fun seen hseen => ?_
  refine (Upholds.query (Q := fun o : Option StaysConversation => ∀ conv, o = some conv →
    conv.id = conversationId) fun s _ conv hconv => Table.key_of_find? hconv).bind
      fun found hfound => ?_
  refine Upholds.expect.bind fun conv hconv => ?_
  refine (Upholds.query (Q := fun _ => True) fun _ _ => trivial).bind fun booking _ => ?_
  refine upholds_listingOf.bind fun listing _ => ?_
  refine Upholds.bind (Q := fun _ => True) (upholds_updateConversation ?_ fun c c' hc _ hbarred => ?_)
    fun _ _ => ?_
  · exact ⟨fun _ => rfl, fun _ => rfl, fun _ => rfl, fun _ => rfl, fun _ h => h, fun _ h => h⟩
  · rw [hfound conv hconv] at hc
    have hext := hseen.2.2 c hc
    have hpart : isParticipant c userId {} = true := by
      have hseen' := hseen.2.1
      unfold isParticipant at hseen' ⊢
      rw [hext.guest, hext.host] at hseen'
      simpa using hseen'
    exact absurd hbarred (h c hc hpart)
  · exact (Upholds.query (Q := fun _ => True) fun _ _ => trivial).bind fun _ _ =>
      Upholds.expect.mono fun _ _ => trivial

/-- The participant was blocked by the other one. -/
def Blocked (userId : ℕ) (c : StaysConversation) : Prop :=
  (c.guestUserId = some userId ∧ c.blockedByHost = true) ∨
    (c.hostUserId = some userId ∧ c.blockedByGuest = true)

theorem not_canSend_of_blocked {conv : StaysConversation} (h : Blocked userId conv) :
    (resolve conv userId {}).canSend = false := by
  unfold resolve
  obtain ⟨hguest, hblocked⟩ | ⟨hhost, hblocked⟩ := h
  · simp [hguest, hblocked]
  · simp [hhost, hblocked]

/-- The outcome of an update of a row that is there. -/
theorem find?_updated {id : ℕ} {c : StaysConversation} {f : StaysConversation → StaysConversation}
    (hc : s.conversations.find? id = some c) (hf : (f c).id = c.id) :
    (publish s (updateConversation id f s)).conversations.find? id = some (f c) := by
  have hid : c.id = id := Table.key_of_find? hc
  simp [updateConversation, hc, Store.write, hf, hid]

theorem syncFromBooking_closes {bookingId : ℕ} {conv : StaysConversation}
    (hcancelled : Cancelled s bookingId) (hconv : conversationOf s bookingId = some conv) :
    MustEnd (Value fun _ _ t => ∃ c, t.conversations.find? conv.id = some c ∧ Barred t c)
      (syncFromBooking env bookingId) .idle s := by
  obtain ⟨booking, hbooking, hstatus⟩ := id hcancelled
  have hrow : s.conversations.find? conv.id = some conv :=
    Table.find?_key (List.mem_of_find?_eq_some hconv)
  have hid : conv.bookingId = some bookingId := by simpa using List.find?_some hconv
  refine MustEnd.bind (P := fun o ses t => o = some booking ∧ ses = .idle ∧ s = t)
    (MustEnd.query ⟨hbooking, rfl, rfl⟩) fun o ses t h => ?_
  obtain ⟨rfl, rfl, rfl⟩ := h
  refine MustEnd.bind (P := fun o ses t => o = some conv ∧ ses = .idle ∧ s = t)
    (MustEnd.query ⟨hconv, rfl, rfl⟩) fun o ses t h => ?_
  obtain ⟨rfl, rfl, rfl⟩ := h
  refine MustEnd.bind (P := fun _ ses t => ses = .idle ∧ s = t)
    (MustEnd.receive fun _ => ⟨rfl, rfl⟩) fun now ses t h => ?_
  obtain ⟨rfl, rfl⟩ := h
  have hbranch : booking.status = .cancelledByGuest ∨ booking.status = .cancelledByHost := by
    simpa [cancelledStatuses] using hstatus
  rw [if_pos hbranch]
  refine MustEnd.bind (MustEnd.writeRows ?_) fun _ _ _ h => MustEnd.pure h
  refine ⟨_, find?_updated hrow rfl, by simp, bookingId, hid, ?_⟩
  obtain ⟨b, hb, hcancel⟩ := hcancelled
  refine ⟨b, ?_, hcancel⟩
  simp [Session.idle, Session.visible, Session.view, updateConversation, hrow, Store.write, hb]

theorem block_blocks {blocker : ℕ} {conv : StaysConversation}
    (hconv : s.conversations.find? conversationId = some conv)
    (hother : if conv.guestUserId = some blocker then conv.hostUserId = some userId
      else conv.guestUserId = some userId) :
    MustEnd (Value fun _ _ t => ∃ c, t.conversations.find? conversationId = some c ∧
      Blocked userId c) (block conversationId blocker) .idle s := by
  obtain rfl : conv.id = conversationId := Table.key_of_find? hconv
  refine MustEnd.bind (P := fun c ses t => c = conv ∧ ses = .idle ∧ s = t) ?_ fun c ses t h => ?_
  · refine MustEnd.bind (P := fun o ses t => o = some conv ∧ ses = .idle ∧ s = t)
      (MustEnd.query ⟨hconv, rfl, rfl⟩) fun o ses t h => ?_
    obtain ⟨rfl, rfl, rfl⟩ := h
    refine MustEnd.expect fun c hc => ⟨?_, rfl, rfl⟩
    exact (Option.some.inj (Option.filter_eq_some_iff.mp hc).1).symm
  · obtain ⟨rfl, rfl, rfl⟩ := h
    refine MustEnd.bind (P := fun _ ses t => ses = .idle ∧ s = t)
      (MustEnd.receive fun _ => ⟨rfl, rfl⟩) fun now ses t h => ?_
    obtain ⟨rfl, rfl⟩ := h
    refine MustEnd.bind (MustEnd.writeRows ?_) fun _ _ _ h => MustEnd.pure h
    refine ⟨_, find?_updated hconv rfl, ?_⟩
    split_ifs at hother with hguest
    · exact .inr ⟨hother, by simp [hguest]⟩
    · exact .inl ⟨hother, by simp [hguest]⟩

/-- What a call returns, where it may be called in the state that it finds. -/
def Permitted (s₀ : Store) (call : Call) : Prop :=
  ∀ conversationId ∈ call.target, Open s₀ conversationId

theorem upholds_map {α β : Type} {f : α → β} {P : α → Prop} {Q : β → Prop} {p : Messaging α}
    (h : Upholds (Stands s₀) (StandsWrite s₀) P p) (hf : ∀ a, P a → Q (f a)) :
    Upholds (Stands s₀) (StandsWrite s₀) Q (f <$> p) :=
  h.bind fun a ha => Upholds.pure (hf a ha)

variable (env) in
theorem upholds_program {call : Call} {r : Except MessagingError Answer} {t : Store}
    (hclean : Clean (⟨call, s₀, t⟩, r)) :
    Upholds (Stands s₀) (StandsWrite s₀) (fun _ => Permitted s₀ call) (program env call) := by
  have hany : ∀ {call : Call}, call.target = none → Permitted s₀ call := by
    intro call h id hid
    rw [h] at hid
    cases hid
  have hsend : ∀ {call : Call} {id : ℕ}, call.target = some id → Open s₀ id → Permitted s₀ call := by
    intro call id h hopen id' hid
    rw [h] at hid
    exact Option.some.inj hid ▸ hopen
  cases call with
  | sendText => exact upholds_map upholds_sendText fun _ h => hsend rfl h
  | sendWithAttachments => exact upholds_map upholds_sendWithAttachments fun _ h => hsend rfl h
  | sendWithSession => exact upholds_map upholds_sendWithSession fun _ h => hsend rfl h
  | reopenConversation =>
    exact upholds_map (upholds_reopenConversation hclean) fun _ _ => hany rfl
  | updateVisibility => exact upholds_map upholds_updateVisibility fun _ _ => hany rfl
  | block => exact upholds_map upholds_block fun _ _ => hany rfl
  | ensureForBooking => exact upholds_map upholds_ensureForBooking fun _ _ => hany rfl
  | syncFromBooking => exact upholds_map upholds_syncFromBooking fun _ _ => hany rfl
  | enterPostStay => exact upholds_map upholds_enterPostStay fun _ _ => hany rfl
  | archiveDueConversations =>
    exact upholds_map upholds_archiveDueConversations fun _ _ => hany rfl
  | bookingChanged => exact upholds_map (upholds_changeBooking hclean) fun _ _ => hany rfl

/-- What the calls so far have closed and blocked. -/
structure Kept (log : List Entry) (s : Store) : Prop where
  closed : ∀ id, (∃ before ∈ log, Closes id before) →
    ∃ c, s.conversations.find? id = some c ∧ Barred s c
  blocked : ∀ id userId, (∃ before ∈ log, Blocks id userId before) →
    ∃ c, s.conversations.find? id = some c ∧ Blocked userId c

theorem Kept.stands {log : List Entry} (h : Kept log s₀) (hs : Stands s₀ s) : Kept log s where
  closed id hclosed := by
    obtain ⟨c, hc, hbarred⟩ := h.closed id hclosed
    obtain ⟨c', hc', hext⟩ := hs.conversation id c hc
    have hstate := hext.barred hbarred
    obtain ⟨-, bookingId, hid, hcancelled⟩ := hbarred
    exact ⟨c', hc', hstate, bookingId, hext.booking.trans hid, hs.cancelled _ hcancelled⟩
  blocked id userId hblocked := by
    obtain ⟨c, hc, hblock⟩ := h.blocked id userId hblocked
    obtain ⟨c', hc', hext⟩ := hs.conversation id c hc
    refine ⟨c', hc', hblock.imp (fun h => ?_) fun h => ?_⟩
    · exact ⟨hext.guest.trans h.1, hext.blockedByHost h.2⟩
    · exact ⟨hext.host.trans h.1, hext.blockedByGuest h.2⟩

/-- What the last call has closed or blocked. -/
theorem Kept.snoc {log : List Entry} {entry : Entry} (h : Kept log s)
    (hcloses : ∀ id, Closes id entry → ∃ c, s.conversations.find? id = some c ∧ Barred s c)
    (hblocks : ∀ id userId, Blocks id userId entry →
      ∃ c, s.conversations.find? id = some c ∧ Blocked userId c) : Kept (log ++ [entry]) s where
  closed id hclosed := by
    obtain ⟨before, hmem, hclose⟩ := hclosed
    obtain hmem | hmem := List.mem_append.mp hmem
    · exact h.closed id ⟨before, hmem, hclose⟩
    · exact hcloses id (List.mem_singleton.mp hmem ▸ hclose)
  blocked id userId hblocked := by
    obtain ⟨before, hmem, hblock⟩ := hblocked
    obtain hmem | hmem := List.mem_append.mp hmem
    · exact h.blocked id userId ⟨before, hmem, hblock⟩
    · exact hblocks id userId (List.mem_singleton.mp hmem ▸ hblock)

/-- The answer of a call that is made of one of its parts. -/
theorem mustEnd_map {α β : Type} {f : α → β} {p : Messaging α} {ses : Session Key Write}
    {P : Store → Prop} (h : MustEnd (Value fun _ _ t => P t) p ses s) :
    MustEnd (Value fun _ _ t => P t) (f <$> p) ses s :=
  h.bind fun _ _ _ ht => MustEnd.pure ht

/-- Locks hold as long as no participant reopens the conversation of a cancelled booking and no
cancellation is taken back. -/
theorem locks_hold {t : Store} {log : List Entry} (hlog : Log (program env) s log t)
    (hclean : Always (fun _ => Clean) log) : Always LocksHold log := by
  refine (hlog.always (I := Kept) ⟨by simp, by simp⟩ hclean fun log call s₀ r t hok hkept h => ?_).2
  obtain ⟨sys, thread, hrun, hthread, hresult, rfl⟩ := h
  obtain ⟨_, hreturns, hstands⟩ := result_of_run (idle_of_upholds stands_write
    (upholds_program env hok) stands_self) hrun hthread hresult
  have hafter : Kept (log ++ [(⟨call, s₀, sys.store⟩, r)]) sys.store := by
    refine (hkept.stands hstands).snoc ?_ ?_
    · rintro id ⟨bookingId, conv, rfl, rfl, hcancelled, hconv, rfl⟩
      obtain ⟨_, hend⟩ := result_of_run (mustEnd_map (syncFromBooking_closes hcancelled hconv))
        hrun hthread hresult
      exact hend _ rfl
    · rintro id userId ⟨blocker, conv, rfl, rfl, hconv, hother⟩
      obtain ⟨_, hend⟩ := result_of_run (mustEnd_map (block_blocks hconv hother)) hrun hthread hresult
      exact hend _ rfl
  refine ⟨hafter, fun id hid hclosed answer hanswer => ?_, fun id userId hblocked conv hconv => ?_⟩
  · obtain ⟨c, hc, hbarred⟩ := hkept.closed id hclosed
    exact hreturns answer hanswer id hid c hc hbarred
  · obtain ⟨c, hc, hblock⟩ := hafter.blocked id userId hblocked
    rw [Option.some.inj (hconv.symm.trans hc)]
    exact not_canSend_of_blocked hblock

section Sample

def sampleConversation : StaysConversation :=
  { id := 1, bookingId := some 1, type := .booking, guestUserId := some 1, hostUserId := some 2 }

def sampleBooking : StaysBooking :=
  { id := 1
    listingId := 1
    guestUserId := some 1
    status := .cancelledByGuest
    checkoutDate := 0
    completedAt := none }

/-- A booking that its guest has cancelled, with its conversation. -/
def cancelledStay : Store :=
  { Store.blank with
    conversations := Table.empty.put sampleConversation
    bookings := Table.empty.put sampleBooking }

/-- The store after a call of `n` statements. -/
def left (s : Store) (call : Call) (n : ℕ) : Store :=
  (Phases.after (solo call s (program {} call)) (System.turns 0 0 n)).store

def guestSends : Call := .sendText 1 1 "hello" none

def guestReopens : Call := .reopenConversation 1 1 {}

/-- The conversation that was locked and reopened. -/
def reopenedConversation : StaysConversation :=
  { sampleConversation with conversationVersion := 3, lockedAt := some 2 }

def guestMessage : StaysMessage := newMessage 1 1 (textInput 1 "hello" none) 5 6

theorem log_nil : Log (program {}) cancelledStay [] cancelledStay := .nil

/-- After the synchronisation the guest is refused. -/
theorem locks_hold_synced : ∃ log t, Log (program {}) cancelledStay log t ∧ log.length = 2 ∧
    Always LocksHold log := by
  have hlog := (log_nil.call (.syncFromBooking 1) 4
    (r := .ok .done) (by decide +kernel) (by decide +kernel)).call guestSends 1
    (r := .error (.forbidden "Cannot send messages")) (by decide +kernel) (by decide +kernel)
  refine ⟨_, _, hlog, rfl, locks_hold hlog ?_⟩
  exact always_snoc.mpr ⟨always_snoc.mpr ⟨always_nil, trivial⟩, trivial⟩

/-- The guest of a cancelled booking reopens the conversation and is heard. -/
theorem reopened_accepted : ∃ log t, Log (program {}) cancelledStay log t ∧
    ¬Always LocksHold log := by
  have hlog := ((log_nil.call (.syncFromBooking 1) 4
    (r := .ok .done) (by decide +kernel) (by decide +kernel)).call guestReopens 6
    (r := .ok (.conversation reopenedConversation)) (by decide +kernel) (by decide +kernel)).call
    guestSends 15 (r := .ok (.message guestMessage)) (by decide +kernel) (by decide +kernel)
  refine ⟨_, _, hlog, fun hlocks => ?_⟩
  have hcloses : Closes 1 (⟨.syncFromBooking 1, cancelledStay,
      left cancelledStay (.syncFromBooking 1) 4⟩, .ok .done) :=
    ⟨1, sampleConversation, rfl, rfl, ⟨sampleBooking, rfl, by decide⟩, rfl, rfl⟩
  refine (always_snoc.mp hlocks).2.closed 1 rfl ⟨_, ?_, hcloses⟩ _ rfl
  exact List.mem_append_left _ (List.mem_append_right _ (List.mem_singleton.mpr rfl))

end Sample

end NexaStays.ConversationLocks
