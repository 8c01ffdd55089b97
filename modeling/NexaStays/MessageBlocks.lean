import NexaStays.Blocks
import NexaStays.ConversationStates

/-!
# What the parts of a send write

A message is stored by a transaction of several parts. Which of them touch a conversation or
its messages is said here once, for every view of the two.
-/
namespace NexaStays.MessageBlocks

open NexaStays.KeyedTable NexaStays.Transactions NexaStays.Snapshots NexaStays.Blocks
open NexaStays.RowOrder NexaStays.MessagingStore NexaStays.Messages NexaStays.ConversationStates

/-- The row of a message that was made of an input. -/
def Made (conversationId : ℕ) (input : MessageInput) (m : StaysMessage) : Prop :=
  ∃ sequence now n, m = newMessage conversationId sequence input now n

/-- A view of the conversations and the messages only. -/
def Conversational {ρ : Type} (view : Store → Option ρ) : Prop :=
  ∃ f : Table StaysConversation.id → List StaysMessage → Option ρ,
    ∀ s, view s = f s.conversations s.messages

section Parts

variable {ρ β : Type} {view : Store → Option ρ}

namespace Conversational

variable (h : Conversational view)
include h

theorem attachment {a : StaysMessageAttachment} : Spares view (.attachment a) := by
  obtain ⟨f, hf⟩ := h
  intro s
  rw [hf, hf]
  rfl

theorem session {x : StaysAttachmentSession} : Spares view (.session x) := by
  obtain ⟨f, hf⟩ := h
  intro s
  rw [hf, hf]
  rfl

theorem ticket {t : StaysSupportTicket} : Spares view (.ticket t) := by
  obtain ⟨f, hf⟩ := h
  intro s
  rw [hf, hf]
  rfl

theorem outbox {e : StaysMessagingOutbox} : Spares view (.outbox e) := by
  obtain ⟨f, hf⟩ := h
  intro s
  rw [hf, hf]
  rfl

theorem enqueue {event : OutboxEvent} : Keeping view (enqueue event) :=
  Keeping.receive.bind fun _ => (Keeping.insertRow fun _ => h.outbox).bind fun _ => trivial

theorem updateTicket {id : ℕ} {f : StaysSupportTicket → StaysSupportTicket} :
    ∀ s, ∀ w ∈ updateTicket id f s, Spares view w := by
  intro s w hw
  simp only [Messages.updateTicket, List.mem_map] at hw
  obtain ⟨t, -, rfl⟩ := hw
  exact h.ticket

theorem applyCustomerSupportMessageEffects {ticket : StaysSupportTicket} :
    Keeping view (applyCustomerSupportMessageEffects ticket) :=
  (Keeping.writeRows h.updateTicket).bind fun _ => trivial

theorem link {messageId : ℕ} {attachmentIds : List ℕ} :
    ∀ s, ∀ w ∈ (unlinked attachmentIds s).map fun a =>
      Write.attachment { a with messageId := some messageId }, Spares view w := by
  intro s w hw
  obtain ⟨a, -, rfl⟩ := List.mem_map.mp hw
  exact h.attachment

theorem loadForMessage {message : StaysMessage} : Keeping view (loadForMessage message) := by
  unfold Messages.loadForMessage linkToMessage
  split_ifs
  · trivial
  · exact (Keeping.writeRows h.link).bind fun _ => trivial

theorem finalizeSession {sessionId : ℕ} : Keeping view (finalizeSession sessionId) := by
  refine Keeping.send fun s w hw => ?_
  obtain ⟨x, -, rfl⟩ := List.mem_map.mp hw
  exact h.session

end Conversational

variable {conversationId : ℕ}

theorem keeping_lockConversation {f : StaysConversation → Messaging β}
    (h : ∀ c, c.id = conversationId → Keeping view (f c)) :
    Keeping view (lockConversation conversationId >>= f) := by
  refine ⟨fun s => ?_, trivial⟩
  change Keeping view (Program.expect (s.conversations.find? conversationId)
    (.internal "Conversation not found") >>= f)
  cases hlocked : s.conversations.find? conversationId with
  | none => trivial
  | some locked => exact h locked (Table.key_of_find? hlocked)

theorem spares_updateConversation {f : StaysConversation → StaysConversation}
    (h : ∀ c, c.id = conversationId → Spares view (.conversation (f c))) :
    ∀ s, ∀ w ∈ updateConversation conversationId f s, Spares view w := by
  intro s w hw
  simp only [updateConversation, List.mem_map, Option.mem_toList] at hw
  obtain ⟨c, hc, rfl⟩ := hw
  exact h c (Table.key_of_find? hc)

variable (hrow : ∀ c : StaysConversation, c.id = conversationId → Spares view (.conversation c))
include hrow

theorem keeping_insertMessage {conv : StaysConversation} {input : MessageInput}
    (hid : conv.id = conversationId)
    (h : ∀ m, Made conversationId input m → Spares view (.message m)) :
    Keeping view (insertMessage conv input) := by
  refine keeping_lockConversation fun locked hlocked => Keeping.query.bind fun sequence =>
    Keeping.receive.bind fun now => (Keeping.insertRow fun n => h _ ?_).bind fun n =>
      (Keeping.writeRows (spares_updateConversation fun c hc => hrow _ ?_)).bind fun _ => trivial
  · exact ⟨_, _, _, by rw [hlocked, hid]⟩
  · exact hc.trans (hlocked.trans hid)

theorem keeping_seedAll {conv : StaysConversation} {seeds : List MessageInput}
    (hid : conv.id = conversationId)
    (h : ∀ seed ∈ seeds, ∀ m, Made conversationId seed m → Spares view (.message m)) :
    Keeping view (seedAll conv seeds) :=
  Keeping.forEach fun seed hseed =>
    (keeping_insertMessage hrow hid (h seed hseed)).bind fun _ => trivial

end Parts

section Written

variable {ρ : Type} {view : Store → Option ρ} {v : ρ} {ws : List Write} {conversationId : ℕ}

theorem writes_lockConversation : Writes view v (fun c ws' => ws = ws' ∧ ∃ s, view s = some v ∧
    (publish s ws).conversations.find? conversationId = some c)
      (lockConversation conversationId) ws := by
  refine Writes.bind (Writes.lockRow (Q := fun o ws' => ws = ws' ∧ ∃ s, view s = some v ∧
    o = (publish s ws).conversations.find? conversationId) fun s hs => ⟨rfl, s, hs, rfl⟩) ?_
  rintro o _ ⟨rfl, s, hs, rfl⟩
  exact Writes.expect fun c hc => ⟨rfl, s, hs, hc⟩

/-- A message and the row of its conversation. -/
theorem writes_insertMessage {conv : StaysConversation} {input : MessageInput}
    {Q : StaysMessage → List Write → Prop}
    (h : ∀ s t locked sequence now n, view s = some v → view t = some v →
      (publish s ws).conversations.find? conv.id = some locked →
      Q (newMessage locked.id sequence input now n)
        (ws ++ [.message (newMessage locked.id sequence input now n)] ++
          updateConversation locked.id (afterMessage locked sequence input now n)
            (publish t (ws ++ [.message (newMessage locked.id sequence input now n)])))) :
    Writes view v Q (insertMessage conv input) ws := by
  refine writes_lockConversation.bind ?_
  rintro locked _ ⟨rfl, s, hs, hlocked⟩
  refine (Writes.query (Q := fun _ ws' => ws = ws') fun _ _ => rfl).bind ?_
  rintro actualSequence _ rfl
  refine (Writes.receive (Q := fun _ ws' => ws = ws') fun _ => rfl).bind ?_
  rintro now _ rfl
  let sequence := max locked.lastMessageSequence actualSequence + 1
  refine (Writes.insertRow (Q := fun n ws' =>
    ws ++ [.message (newMessage locked.id sequence input now n)] = ws') fun _ => rfl).bind ?_
  rintro n _ rfl
  let row := newMessage locked.id sequence input now n
  refine Writes.bind (Writes.writeRows (Q := fun _ ws' => ∃ t, view t = some v ∧
    ws' = ws ++ [.message row] ++ updateConversation locked.id (afterMessage locked sequence input now n)
      (publish t (ws ++ [.message row]))) fun t ht => ⟨t, ht, rfl⟩) ?_
  rintro _ _ ⟨t, ht, rfl⟩
  exact Writes.pure (h s t locked sequence now n hs ht hlocked)

end Written

end NexaStays.MessageBlocks
