import NexaStays.ConversationRepair
import NexaStays.ReportTickets
import NexaStays.Sequences

/-!
# Services on two tables of messages

The repair of conversations, the support desk and the tickets of reports take a service of the
messages for one step on the tables that they need. Such a step is what the service does in a run
of its own.
-/
namespace NexaStays.MessageTables

open NexaStays.KeyedTable NexaStays.Transactions NexaStays.Sequences NexaStays.MessagingStore
open NexaStays.Messages NexaStays.ConversationStates
open NexaStays.SqlText (trim)
open NexaStays.SupportTickets (Desk Request SupportTicket target)
open NexaStays.ConversationRepair (Threads MessageRow)

/-- `insertMessage` in a transaction writes the message behind the lock, then its conversation. -/
theorem stages_insertMessage {conversation : StaysConversation} {input : MessageInput}
    {ws : List Write} {s : Store} :
    Stages (fun m ws' => ∃ (locked : StaysConversation) (now : ℤ) (id : ℕ),
        (publish s ws).conversations.find? conversation.id = some locked ∧
        (∀ x ∈ (publish s ws).messages, x.id ≠ id) ∧
        m = newMessage locked.id (max locked.lastMessageSequence
          (maxSequence (publish s ws) locked.id) + 1) input now id ∧
        ws' = ws ++ [.message m, .conversation
          (afterMessage locked m.conversationSequence input now id locked)])
      (insertMessage conversation input) ws s := by
  refine Stages.bind (S := fun locked ws' => ws' = ws ∧
    (publish s ws).conversations.find? conversation.id = some locked) ?_ fun locked ws' h => ?_
  · refine Stages.bind (S := fun found ws' => ws' = ws ∧
      (publish s ws).conversations.find? conversation.id = found) (Stages.lockRow ⟨rfl, rfl⟩)
      fun found ws' h => ?_
    obtain ⟨rfl, rfl⟩ := h
    exact Stages.expect fun locked hlocked => ⟨rfl, hlocked⟩
  obtain ⟨rfl, hfound⟩ := h
  have hid : locked.id = conversation.id := Table.key_of_find? hfound
  refine Stages.bind (S := fun n ws => ws = ws' ∧ n = maxSequence (publish s ws') locked.id)
    (Stages.query ⟨rfl, rfl⟩) fun n ws h => ?_
  obtain ⟨rfl, rfl⟩ := h
  refine Stages.bind (S := fun _ ws' => ws' = ws) (Stages.receive fun _ => rfl) fun now ws' h => ?_
  obtain rfl := h
  refine Stages.bind (S := fun id ws => (∀ x ∈ (publish s ws').messages, x.id ≠ id) ∧
      ws = ws' ++ [.message (newMessage locked.id (max locked.lastMessageSequence
        (maxSequence (publish s ws') locked.id) + 1) input now id)])
    (Stages.insertRow fun id hfresh => ⟨fun x hx hxid => ?_, rfl⟩) fun id ws h => ?_
  · have hpresent : (publish s ws').messages.any (fun m => m.id = id) = true :=
      List.any_eq_true.mpr ⟨x, hx, decide_eq_true hxid⟩
    exact Bool.false_ne_true (hfresh.symm.trans hpresent)
  obtain ⟨hfresh, rfl⟩ := h
  refine Stages.bind (S := fun _ ws => ws = ws' ++ [.message (newMessage locked.id
      (max locked.lastMessageSequence (maxSequence (publish s ws') locked.id) + 1) input now id),
      .conversation (afterMessage locked (max locked.lastMessageSequence
        (maxSequence (publish s ws') locked.id) + 1) input now id locked)])
    (Stages.writeRows ?_) fun _ ws h => ?_
  · rw [updateConversation, publish_append]
    show _ ++ ((publish s ws').conversations.find? locked.id).toList.map _ = _
    rw [hid, hfound, List.append_assoc]
    rfl
  · obtain rfl := h
    exact Stages.pure ⟨locked, now, id, hfound, hfresh, rfl, rfl⟩

section Repair

structure SameThreads (th : Threads) (s : Store) : Prop where
  conversations : th.conversations = s.conversations
  messages : s.messages = th.messages.rows.map (·.toStaysMessage)

theorem maxSequence_thread {th : Threads} {s : Store} (h : SameThreads th s) (id : ℕ) :
    ConversationRepair.maxSequence (th.thread id) = maxSequence s id := by
  rw [ConversationRepair.maxSequence, MessagingStore.maxSequence, messagesOf, h.messages,
    Threads.thread, List.filter_map, List.map_map]
  rfl

/-- A message comes into both tables under the same number. -/
theorem insertMessage_threads {conversation : StaysConversation} {input : MessageInput}
    {th : Threads} {s : Store} (h : SameThreads th s) :
    Stages (fun _ ws => ∃ locked now newId th',
        th.conversations.find? conversation.id = some locked ∧
        ConversationRepair.insertMessage th locked input now newId = some th' ∧
        SameThreads th' (publish s ws))
      (insertMessage conversation input) [] s := by
  refine stages_insertMessage.mono fun m ws hm => ?_
  obtain ⟨locked, now, id, hfound, hfresh, rfl, rfl⟩ := hm
  have hlocked : th.conversations.find? locked.id = some locked := by
    rw [h.conversations, Table.key_of_find? hfound]
    exact hfound
  have hnew : th.messages.find? id = none := by
    refine Table.find?_eq_none.mpr fun r hr hid => ?_
    refine hfresh r.toStaysMessage ?_ hid
    rw [publish_nil, h.messages]
    exact List.mem_map_of_mem hr
  have hsequence : ConversationRepair.nextSequence th locked =
      max locked.lastMessageSequence (maxSequence s locked.id) + 1 := by
    rw [ConversationRepair.nextSequence, maxSequence_thread h]
  have hinsert : ConversationRepair.insertMessage th locked input now id = some
      { conversations := th.conversations.put (afterMessage locked
          (ConversationRepair.nextSequence th locked) input now id locked)
        messages := th.messages.put ⟨newMessage locked.id
          (ConversationRepair.nextSequence th locked) input now id, now⟩ } := by
    rw [ConversationRepair.insertMessage, hnew, hlocked]
    rfl
  refine ⟨locked, now, id, _, ?_, hinsert, ?_, ?_⟩
  · rw [h.conversations]
    exact hfound
  · dsimp only
    rw [hsequence, h.conversations]
    rfl
  · have habsent : th.messages.find? (MessageRow.key ⟨newMessage locked.id
        (ConversationRepair.nextSequence th locked) input now id, now⟩) = none := hnew
    rw [Table.rows_put_of_absent habsent, List.map_append, ← h.messages, hsequence]
    rfl

end Repair

section Desk

structure SameDesk (d : Desk) (s : Store) : Prop where
  conversations : d.conversations = s.conversations
  messages : d.messages = s.messages
  tickets : s.tickets.rows = d.tickets.rows.map (·.toStaysSupportTicket)

variable {d : Desk} {s : Store} {ws : List Write}

namespace SameDesk

theorem ticket (h : SameDesk d s) (id : ℕ) :
    s.tickets.find? id = (d.tickets.find? id).map (·.toStaysSupportTicket) := by
  rw [Table.find?, h.tickets, List.find?_map]
  rfl

theorem message (h : SameDesk d (publish s ws)) (m : StaysMessage) :
    SameDesk (d.apply { message := some m }) (publish s (ws ++ [.message m])) := by
  rw [publish_append]
  exact ⟨h.conversations, congrArg (· ++ [m]) h.messages, h.tickets⟩

theorem conversation (h : SameDesk d (publish s ws)) (c : StaysConversation) :
    SameDesk (d.apply { conversation := some c }) (publish s (ws ++ [.conversation c])) := by
  rw [publish_append]
  exact ⟨congrArg (Table.put · c) h.conversations, (List.append_nil _).trans h.messages, h.tickets⟩

theorem outbox (h : SameDesk d (publish s ws)) (e : StaysMessagingOutbox) :
    SameDesk d (publish s (ws ++ [.outbox e])) := by
  rw [publish_append]
  exact ⟨h.conversations, h.messages, h.tickets⟩

theorem put (h : SameDesk d (publish s ws)) (t : SupportTicket) :
    SameDesk (d.apply { ticket := some t })
      (publish s (ws ++ [.ticket t.toStaysSupportTicket])) := by
  rw [publish_append]
  refine ⟨h.conversations, (List.append_nil _).trans h.messages, ?_⟩
  exact Table.rows_put_map (fun _ => rfl) h.tickets t

end SameDesk

/-- What the call of a customer comes to on the desk, alone and at some time. -/
def Effects (d : Desk) (request : Request) (s : Store) : Prop :=
  ∃ conv now newId e, SupportTickets.look d request = .ok (some conv) ∧
    SupportTickets.check (target d (some conv) request) (some conv) request = .ok () ∧
    SupportTickets.effect d ⟨target d (some conv) request, some conv, none⟩ now newId request =
      some e ∧
    SameDesk (d.apply e) s

theorem returns_getParticipantConversation (conversationId userId : ℕ) :
    Returns (fun _ _ => True) (fun conv t => t = s ∧ conv.id = conversationId ∧
        s.conversations.find? conversationId = some conv ∧
        (s.conversations.find? conversationId).filter (fun c => isParticipant c userId {}) =
          some conv)
      (getParticipantConversation conversationId userId) s := by
  refine Returns.bind (P := fun found t => t = s ∧ s.conversations.find? conversationId = found)
    (Returns.query ⟨rfl, rfl⟩) fun found t h => ?_
  obtain ⟨rfl, rfl⟩ := h
  refine Returns.expect fun conv hconv => ?_
  have hfound := (Option.filter_eq_some_iff.mp hconv).1
  exact ⟨rfl, Table.key_of_find? hfound, hfound, hconv⟩

/-- An update of a conversation that was read before. -/
theorem returns_updateConversation (h : SameDesk d s) {conv : StaysConversation}
    (hfound : s.conversations.find? conv.id = some conv)
    (f : StaysConversation → StaysConversation) :
    Returns (fun _ _ => True) (fun _ t => SameDesk
        (d.apply { conversation := SupportTickets.updated d conv f }) t)
      (Messaging.update (updateConversation conv.id f)) s := by
  refine Returns.writeRows trivial ?_
  have hnone : SameDesk d (publish s []) := h
  rw [SupportTickets.updated, h.conversations, updateConversation, hfound]
  exact hnone.conversation (f conv)

theorem returns_block (h : SameDesk d s) (conversationId userId : ℕ) :
    Returns (fun _ _ => True) (fun _ t => Effects d (.block conversationId userId) t)
      (ConversationStates.block conversationId userId) s := by
  refine (returns_getParticipantConversation conversationId userId).bind fun conv t hconv => ?_
  obtain ⟨rfl, rfl, hfound, hlook⟩ := hconv
  refine Returns.bind (P := fun _ t' => t' = t) (Returns.receive fun _ => rfl) fun now t' ht => ?_
  obtain rfl := ht
  refine (returns_updateConversation h hfound _).bind fun _ t hsame => Returns.pure ?_
  refine ⟨conv, now, 0, _, ?_, rfl, rfl, hsame⟩
  rw [SupportTickets.look, h.conversations, hlook]

theorem returns_updateVisibility (h : SameDesk d s) (conversationId userId : ℕ)
    (action : VisibilityAction) :
    Returns (fun _ _ => True)
      (fun _ t => Effects d (.updateVisibility conversationId userId action) t)
      (ConversationStates.updateVisibility conversationId userId action) s := by
  refine (returns_getParticipantConversation conversationId userId).bind fun conv t hconv => ?_
  obtain ⟨rfl, rfl, hfound, hlook⟩ := hconv
  refine Returns.bind (P := fun _ t' => t' = t ∧
      (action = .archive → (resolve conv userId {}).canArchive = true))
    (Returns.require fun harchive => ⟨rfl, harchive⟩) fun _ t' ht => ?_
  obtain ⟨rfl, harchive⟩ := ht
  refine Returns.bind (P := fun _ t => t = t' ∧
      (action = .delete → (resolve conv userId {}).canDelete = true))
    (Returns.require fun hdelete => ⟨rfl, hdelete⟩) fun _ t ht => ?_
  obtain ⟨rfl, hdelete⟩ := ht
  refine (returns_updateConversation h hfound _).bind fun _ t' hsame => Returns.pure ?_
  refine ⟨conv, 0, 0, _, ?_, rfl, rfl, hsame⟩
  rw [SupportTickets.look, h.conversations, hlook]
  exact if_pos ⟨harchive, hdelete⟩

/-- A thread of support has no booking. -/
theorem returns_reopenConversation (h : SameDesk d s) (env : Env) (conversationId userId : ℕ)
    (options : ReopenOptions)
    (hbooking : ∀ conv, s.conversations.find? conversationId = some conv → conv.bookingId = none) :
    Returns (fun _ _ => True)
      (fun _ t => Effects d (.reopenConversation conversationId userId options) t)
      (ConversationStates.reopenConversation env conversationId userId options) s := by
  refine (returns_getParticipantConversation conversationId userId).bind fun conv t hconv => ?_
  obtain ⟨rfl, rfl, hfound, hlook⟩ := hconv
  have hnone := hbooking conv hfound
  refine Returns.bind (P := fun found t' => t' = t ∧ found = some conv)
    (Returns.query ⟨rfl, hfound⟩) fun found t' hf => ?_
  obtain ⟨rfl, rfl⟩ := hf
  refine Returns.bind (P := fun found t => t = t' ∧ found = conv)
    (Returns.expect fun c hc => ⟨rfl, (Option.some.inj hc).symm⟩) fun found t hf => ?_
  obtain ⟨rfl, rfl⟩ := hf
  refine Returns.bind (P := fun booking t' => t' = t ∧ booking = none)
    (Returns.query ⟨rfl, by rw [hnone]; rfl⟩) fun booking t' hb => ?_
  obtain ⟨rfl, rfl⟩ := hb
  refine Returns.bind (P := fun _ t => t = t') (Returns.pure rfl) fun listing t hl => ?_
  obtain rfl := hl
  refine Returns.bind (returns_updateConversation h hfound _) fun _ t hsame => ?_
  refine Returns.bind (P := fun _ t' => t' = t) (Returns.query rfl) fun updated t' ht => ?_
  obtain rfl := ht
  refine Returns.expect fun _ _ => ⟨found, 0, 0, _, ?_, rfl, rfl, hsame⟩
  rw [SupportTickets.look, h.conversations, hlook]

theorem stages_enqueue (h : SameDesk d (publish s ws)) (event : OutboxEvent) :
    Stages (fun _ ws' => SameDesk d (publish s ws')) (enqueue event) ws s := by
  refine Stages.bind (S := fun _ ws' => ws' = ws) (Stages.receive fun _ => rfl) fun now ws' hw => ?_
  obtain rfl := hw
  refine Stages.bind (S := fun _ ws => SameDesk d (publish s ws))
    (Stages.insertRow fun id _ => h.outbox _) fun _ ws hs => Stages.pure hs

theorem stages_enqueueDeliveryEvents (h : SameDesk d (publish s ws)) (conv c : StaysConversation)
    (message : StaysMessage) (userId : ℕ) (hfound : d.conversations.find? conv.id = some c) :
    Stages (fun _ ws' => SameDesk (d.apply { conversation := some (unarchive userId conv c) })
        (publish s ws'))
      (enqueueDeliveryEvents conv message userId) ws s := by
  refine Stages.bind (S := fun _ ws' => ws' = ws) (Stages.query rfl) fun refreshed ws' hw => ?_
  obtain rfl := hw
  have hsent : ∀ {ws}, SameDesk d (publish s ws) → Stages
      (fun _ ws' => SameDesk (d.apply { conversation := some (unarchive userId conv c) })
        (publish s ws'))
      (do
        enqueue (.messageSent message.id conv.id userId)
        let _ ← Messaging.update (updateConversation conv.id (unarchive userId conv))
        pure () : Messaging Unit) ws s := by
    intro ws hs
    refine Stages.bind (stages_enqueue hs _) fun _ ws hs => ?_
    refine Stages.bind (S := fun _ ws' => SameDesk
      (d.apply { conversation := some (unarchive userId conv c) }) (publish s ws'))
      (Stages.writeRows ?_) fun _ ws' hs => Stages.pure hs
    have hrow : (publish s ws).conversations.find? conv.id = some c := hs.conversations ▸ hfound
    rw [updateConversation, hrow]
    exact hs.conversation _
  cases recipientOf conv userId with
  | none => exact hsent h
  | some recipientId => exact Stages.bind (stages_enqueue h _) fun _ _ hs => hsent hs

/-- The ticket of the conversation, behind its lock and not closed. -/
theorem stages_prepareCustomerSupportSend (h : SameDesk d s)
    (hunique : (d.tickets.rows.map (·.conversationId)).Nodup) {conv : StaysConversation}
    {userId : ℕ} (hpart : isParticipant conv userId {} = true) (conversationId : ℕ)
    (body : String) :
    Stages (fun ticket ws => ws = [] ∧
        ticket = (target d (some conv) (.send conversationId userId body)).map
          (·.toStaysSupportTicket) ∧ ∀ t ∈ ticket, t.status ≠ .closed)
      (prepareCustomerSupportSend conv userId) [] s := by
  have hparticipant : ¬(some userId ≠ conv.guestUserId ∧ some userId ≠ conv.hostUserId) := by
    rintro ⟨hguest, hhost⟩
    simp [isParticipant, Ne.symm hguest, Ne.symm hhost] at hpart
  rw [prepareCustomerSupportSend, if_neg hparticipant, target]
  by_cases htype : conv.type = .support
  · have hrows : (ticketOf s conv.id) = (d.tickets.rows.filter fun t =>
        t.conversationId = conv.id).map (·.toStaysSupportTicket) := by
      rw [ticketOf, h.tickets, List.filter_map]
      rfl
    have hticket : (some conv).filter (fun c => decide (c.type = .support)) = some conv := by
      simp [htype]
    rw [if_neg (not_not.mpr htype), hticket, Option.bind_some, SupportTickets.ticketOfThread]
    refine Stages.bind (S := fun found ws => ws = [] ∧ found = (d.tickets.rows.find? fun t =>
      t.conversationId = conv.id).map (·.toStaysSupportTicket)) (Stages.findOne fun n => ?_)
      fun found ws hf => ?_
    · refine ⟨rfl, ?_⟩
      rw [publish_nil, hrows, Program.pick_map, Program.pick_filter hunique]
    obtain ⟨rfl, rfl⟩ := hf
    cases hfind : d.tickets.rows.find? fun t => t.conversationId = conv.id with
    | none => exact Stages.pure ⟨rfl, rfl, by simp⟩
    | some t =>
      have hdesk : d.tickets.find? t.id = some t :=
        Table.find?_key (List.mem_of_find?_eq_some hfind)
      have hlocked : s.tickets.find? t.id = some t.toStaysSupportTicket := by
        rw [h.ticket, hdesk]
        rfl
      refine Stages.bind (S := fun locked ws => ws = [] ∧ locked = some t.toStaysSupportTicket)
        (Stages.lockRow ⟨rfl, hlocked⟩) fun locked ws hl => ?_
      obtain ⟨rfl, rfl⟩ := hl
      refine Stages.bind (S := fun _ ws => ws = [] ∧ t.status ≠ .closed)
        (Stages.require fun hopen => ⟨rfl, hopen⟩) fun _ ws hr => ?_
      obtain ⟨rfl, hopen⟩ := hr
      exact Stages.pure ⟨rfl, rfl, by simpa using hopen⟩
  · have hticket : (some conv).filter (fun c => decide (c.type = .support)) = none := by
      simp [htype]
    rw [if_pos htype, hticket]
    exact Stages.pure ⟨rfl, rfl, by simp⟩

theorem nextSequence_desk (h : SameDesk d s) (conv : StaysConversation) :
    SupportTickets.nextSequence d conv =
      max conv.lastMessageSequence (maxSequence s conv.id) + 1 := by
  rw [SupportTickets.nextSequence, SupportTickets.maxSequence, h.messages]
  rfl

theorem apply_sent (d : Desk) (m : StaysMessage) {c c' : StaysConversation} (h : c.id = c'.id) :
    ((d.apply { message := some m }).apply { conversation := some c }).apply
        { conversation := some c' } =
      d.apply { conversation := some c', message := some m } := by
  simp [SupportTickets.Desk.apply, Table.put_put _ h]

theorem apply_ticket (d : Desk) (m : StaysMessage) (c : StaysConversation) (t : SupportTicket) :
    (d.apply { conversation := some c, message := some m }).apply { ticket := some t } =
      d.apply { ticket := some t, conversation := some c, message := some m } := by
  simp [SupportTickets.Desk.apply]

theorem find?_target {conv : StaysConversation} {conversationId userId : ℕ} {body : String}
    {ticket : SupportTicket}
    (h : target d (some conv) (.send conversationId userId body) = some ticket) :
    d.tickets.find? ticket.id = some ticket := by
  obtain ⟨c, -, hticket⟩ := Option.bind_eq_some_iff.mp h
  exact Table.find?_key (List.mem_of_find?_eq_some hticket)

theorem unarchive_id (userId : ℕ) (conv c : StaysConversation) :
    (unarchive userId conv c).id = c.id := by
  rw [unarchive]
  split_ifs <;> rfl

theorem stages_applyCustomerSupportMessageEffects {c : StaysConversation} {m : StaysMessage}
    (h : SameDesk (d.apply { conversation := some c, message := some m }) (publish s ws))
    {ticket : SupportTicket} (hfound : d.tickets.find? ticket.id = some ticket) :
    Stages (fun _ ws => SameDesk (d.apply
        { ticket := some { ticket with
            unreadForSupport := true
            status := nextStatusAfterCustomerMessage ticket.status ticket.party }
          conversation := some c
          message := some m }) (publish s ws))
      (applyCustomerSupportMessageEffects ticket.toStaysSupportTicket) ws s := by
  refine Stages.bind (Stages.writeRows ?_) fun _ ws hsent => Stages.pure hsent
  have hrow : (publish s ws).tickets.find? ticket.id = some ticket.toStaysSupportTicket :=
    (h.ticket ticket.id).trans (congrArg (Option.map _) hfound)
  rw [updateTicket, hrow, ← apply_ticket]
  exact h.put _

/-- A text that is stored without a number of the client. -/
theorem returns_storeMessage (h : SameDesk d s)
    (hunique : (d.tickets.rows.map (·.conversationId)).Nodup) {conv : StaysConversation}
    {userId : ℕ} {body : String} (hfound : s.conversations.find? conv.id = some conv)
    (hpart : isParticipant conv userId {} = true)
    (hlook : SupportTickets.look d (.send conv.id userId body) = .ok (some conv)) :
    Returns (fun _ _ => True) (fun _ t => Effects d (.send conv.id userId body) t)
      (storeMessage conv userId (textInput userId (trim body) none) fun _ => pure ()) s := by
  have hdesk : d.conversations.find? conv.id = some conv := h.conversations ▸ hfound
  refine Returns.transaction (Stages.bind
    (stages_prepareCustomerSupportSend h hunique hpart conv.id body) fun ticket ws hticket => ?_)
  obtain ⟨rfl, hticket, hopen⟩ := hticket
  refine Stages.bind stages_insertMessage fun message ws hmessage => ?_
  obtain ⟨locked, now, id, hlocked, -, rfl, rfl⟩ := hmessage
  obtain rfl : conv = locked := Option.some.inj (hfound.symm.trans hlocked)
  let sequence := max conv.lastMessageSequence (maxSequence s conv.id) + 1
  let input := textInput userId (trim body) none
  let message := newMessage conv.id sequence input now id
  let after := afterMessage conv sequence input now id conv
  have hnone : SameDesk d (publish s []) := h
  have hinserted : SameDesk
      ((d.apply { message := some message }).apply { conversation := some after })
      (publish s ([] ++ [.message message, .conversation after])) :=
    (hnone.message message).conversation after
  have hafter : ((d.apply { message := some message }).apply
      { conversation := some after }).conversations.find? conv.id = some after :=
    (Table.find?_put _ _ _).trans (if_pos rfl)
  refine Stages.bind (S := fun _ ws => ws = [] ++ [.message message, .conversation after])
    (Stages.pure rfl) fun _ ws hws => ?_
  obtain rfl := hws
  refine Stages.bind (stages_enqueueDeliveryEvents hinserted conv after message userId hafter)
    fun _ ws hs => ?_
  rw [apply_sent d message (unarchive_id userId conv after).symm] at hs
  have heffect : SupportTickets.effect d
      ⟨target d (some conv) (.send conv.id userId body), some conv, none⟩ now id
      (.send conv.id userId body) = some
        { ticket := (target d (some conv) (.send conv.id userId body)).map fun t =>
            { t with
              unreadForSupport := true
              status := nextStatusAfterCustomerMessage t.status t.party }
          conversation := some (unarchive userId conv after)
          message := some message } := by
    simp only [SupportTickets.effect, Option.bind_some, hdesk, Option.map_some,
      nextSequence_desk h]
    rfl
  cases htarget : target d (some conv) (.send conv.id userId body) with
  | none =>
    rw [htarget] at hticket heffect
    obtain rfl := hticket
    refine Stages.pure ⟨trivial, conv, now, id, _, hlook, ?_, ?_, hs⟩
    · rw [htarget]
      rfl
    · rw [htarget]
      exact heffect
  | some ticket =>
    rw [htarget] at hticket heffect
    obtain rfl := hticket
    have hstatus : ticket.status ≠ .closed := hopen _ rfl
    refine Stages.bind (stages_applyCustomerSupportMessageEffects hs (find?_target htarget))
      fun _ ws hsent => Stages.pure ⟨trivial, conv, now, id, _, hlook, ?_, ?_, hsent⟩
    · rw [htarget]
      exact if_neg hstatus
    · rw [htarget]
      exact heffect

/-- A text that is sent without a number of the client. -/
theorem returns_sendText (h : SameDesk d s)
    (hunique : (d.tickets.rows.map (·.conversationId)).Nodup) (conversationId userId : ℕ)
    (body : String) :
    Returns (fun _ _ => True) (fun _ t => Effects d (.send conversationId userId body) t)
      (sendText conversationId userId body none) s := by
  rw [sendText]
  generalize SqlText.utf16Length (trim body) = length
  refine Returns.bind (P := fun _ t => t = s) (Returns.require fun _ => rfl) fun _ t ht => ?_
  obtain rfl := ht
  refine Returns.bind (P := fun _ t' => t' = t) (Returns.require fun _ => rfl) fun _ t' ht => ?_
  obtain rfl := ht
  refine (returns_getParticipantConversation conversationId userId).bind fun conv t hconv => ?_
  obtain ⟨rfl, rfl, hfound, hlook⟩ := hconv
  refine Returns.bind (P := fun _ t' => t' = t ∧ (resolve conv userId {}).canSend = true)
    (Returns.require fun hsend => ⟨rfl, hsend⟩) fun _ t' ht => ?_
  obtain ⟨rfl, hsend⟩ := ht
  show Returns _ _ (assertCanSend >>= fun _ => storeMessage conv userId
    (textInput userId (trim body) none) fun _ => pure ()) t'
  refine Returns.bind (P := fun _ t => t = t') ?_ fun _ t ht => ?_
  · refine Returns.bind (P := fun _ t => t = t') (Returns.receive fun _ => rfl) fun n t ht => ?_
    obtain rfl := ht
    exact Returns.require fun _ => rfl
  obtain rfl := ht
  refine returns_storeMessage h hunique hfound (Option.filter_eq_some_iff.mp hlook).2 ?_
  rw [SupportTickets.look, h.conversations, hlook]
  exact if_pos hsend

end Desk

section Reports

/-- The rows of a ticket that is created, but for the listing of its conversation and the number
that the client gave its message, which the desk does not keep. -/
theorem effect_insertTicket (dir : ReportTickets.Directory) (draft : ReportTickets.Draft)
    (ticketNumber : ReportTickets.TicketNumber) (now : ℤ) (newId : ℕ) {s : Desk}
    (held : SupportTickets.Held) (hticket : s.tickets.find? newId = none)
    (hconversation : s.conversations.find? newId = none) :
    let p := ReportTickets.insertTicket dir draft ticketNumber now newId
    SupportTickets.effect s held now newId (.createTicketForUser draft.userId draft.party
        draft.dto.category .normal (dir.requesterLanguage draft.userId) draft.dto.message) =
      some { ticket := some p.ticket.toSupportTicket
             conversation := some { p.conversation with listingId := none }
             message := some { p.message with clientMessageId := none } } := by
  simp only [SupportTickets.effect, hticket, hconversation, Option.isSome_none, Bool.false_eq_true,
    or_self, if_false]
  rfl

end Reports

end NexaStays.MessageTables
