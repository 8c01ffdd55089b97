import NexaStays.TicketLocks

/-!
# Tickets and their threads

A ticket and its conversation are closed and opened together by staff, while a participant can
block and reopen any conversation. The two rows agree in the sequences of calls in which nobody
blocks the thread of a ticket or reopens the thread of a closed one.
-/
namespace NexaStays.TicketThreads

open NexaStays.KeyedTable NexaStays.MessagingStore NexaStays.Messages NexaStays.ConversationStates
  NexaStays.SupportTickets NexaStays.TicketLocks

structure Call where
  request : Request
  now : ℤ
  newId : ℕ

/-- What a transaction has read when no other call runs. -/
def heldBy (s : Desk) (conv : Option StaysConversation) (request : Request) : Held :=
  { ticket := target s conv request
    conversation := thread s conv (target s conv request) request
    workload :=
      match request with
      | .attemptAutoAssignment _ routing => some (queryAssignedAgentWorkload s routing)
      | _ => none }

/-- A call that runs alone. -/
def perform (s : Desk) (c : Call) : Desk :=
  match look s c.request with
  | .error _ => s
  | .ok conv =>
    let held := heldBy s conv c.request
    match check held.ticket held.conversation c.request with
    | .error _ => s
    | .ok () => ((effect s held c.now c.newId c.request).map s.apply).getD s

def runCalls (s : Desk) (calls : List Call) : Desk := calls.foldl perform s

/-- No ticket, no conversation. -/
def emptyDesk : Desk := ⟨Table.empty, Table.empty, [], []⟩

/-- The requester of a ticket may write in its thread. -/
def RequesterSends (t : SupportTicket) (c : StaysConversation) : Prop :=
  ∃ userId, t.requesterUserId = some userId ∧ (resolve c userId {}).canSend = true

/-- A ticket and its thread agree. -/
structure Agree (t : SupportTicket) (c : StaysConversation) : Prop where
  closedAt : t.status = .closed ↔ t.closedAt ≠ none
  resolvedAt : t.status = .closed → t.resolvedAt ≠ none
  archived : t.status = .closed → c.messagingState = .archived
  sends : t.status ≠ .closed → RequesterSends t c

/-- Every ticket agrees with the thread that it has. -/
def Agrees (s : Desk) : Prop :=
  ∀ t ∈ s.tickets.rows, ∃ c, s.conversations.find? t.conversationId = some c ∧ Agree t c

/-- The requester is the only participant of the thread, and has been blocked by nobody. -/
structure Owner (t : SupportTicket) (c : StaysConversation) (userId : ℕ) : Prop where
  requester : t.requesterUserId = some userId
  sides : c.guestUserId = some userId ∧ c.hostUserId = none ∧ c.blockedByHost = false ∨
    c.hostUserId = some userId ∧ c.guestUserId = none ∧ c.blockedByGuest = false

/-- What the calls of staff keep: a thread is archived with its ticket and active without. -/
structure Good (t : SupportTicket) (c : StaysConversation) : Prop where
  closedAt : t.status = .closed ↔ t.closedAt ≠ none
  resolvedAt : t.status = .closed → t.resolvedAt ≠ none
  archived : t.status = .closed → c.messagingState = .archived
  active : t.status ≠ .closed → c.messagingState = .active
  owner : ∃ userId, Owner t c userId

variable {s : Desk} {t : SupportTicket} {c c' conv : StaysConversation} {now : ℤ}

/-- The requester may write exactly in an active thread. -/
theorem Owner.canSend_iff {userId : ℕ} (h : Owner t c userId) :
    (resolve c userId {}).canSend = true ↔ c.messagingState = .active := by
  obtain ⟨-, ⟨hguest, hhost, hblocked⟩ | ⟨hhost, hguest, hblocked⟩⟩ := h
  · unfold resolve readOnlyState
    simp only [hguest, hhost, hblocked]
    cases c.messagingState <;> simp
  · unfold resolve readOnlyState
    simp only [hguest, hhost, hblocked]
    cases c.messagingState <;> simp

theorem Good.agree (h : Good t c) : Agree t c := by
  obtain ⟨userId, howner⟩ := h.owner
  exact ⟨h.closedAt, h.resolvedAt, h.archived,
    fun hopen => ⟨userId, howner.requester, howner.canSend_iff.mpr (h.active hopen)⟩⟩

/-- The columns of a conversation that its agreement with a ticket rests on. -/
structure SameThread (c c' : StaysConversation) : Prop where
  state : c'.messagingState = c.messagingState
  guest : c'.guestUserId = c.guestUserId
  host : c'.hostUserId = c.hostUserId
  byGuest : c'.blockedByGuest = c.blockedByGuest
  byHost : c'.blockedByHost = c.blockedByHost

theorem Owner.congr {t' : SupportTicket} {userId : ℕ} (h : Owner t c userId)
    (hrequester : t'.requesterUserId = t.requesterUserId) (hguest : c'.guestUserId = c.guestUserId)
    (hhost : c'.hostUserId = c.hostUserId) (hbyGuest : c'.blockedByGuest = c.blockedByGuest)
    (hbyHost : c'.blockedByHost = c.blockedByHost) : Owner t' c' userId := by
  refine ⟨hrequester.trans h.requester, ?_⟩
  rw [hguest, hhost, hbyGuest, hbyHost]
  exact h.sides

theorem Good.sameThread (h : Good t c) (hsame : SameThread c c') : Good t c' := by
  obtain ⟨userId, howner⟩ := h.owner
  exact ⟨h.closedAt, h.resolvedAt, fun hclosed => hsame.state.trans (h.archived hclosed),
    fun hopen => hsame.state.trans (h.active hopen),
    userId, howner.congr rfl hsame.guest hsame.host hsame.byGuest hsame.byHost⟩

theorem sameThread_visibleTo {userId : ℕ} {action : VisibilityAction} :
    SameThread c (visibleTo userId action conv c) := by
  unfold visibleTo
  split_ifs <;> exact ⟨rfl, rfl, rfl, rfl, rfl⟩

theorem sameThread_unarchive {userId : ℕ} (h : SameThread c c') :
    SameThread c (unarchive userId conv c') := by
  unfold unarchive
  split_ifs <;> exact ⟨h.state, h.guest, h.host, h.byGuest, h.byHost⟩

theorem sameThread_withUnread {ticket : StaysSupportTicket} (h : SameThread c c') :
    SameThread c (withUnread ticket conv c') := by
  unfold withUnread
  cases ticket.party <;> exact ⟨h.state, h.guest, h.host, h.byGuest, h.byHost⟩

theorem sameThread_afterMessage {sequence id : ℕ} {input : MessageInput} :
    SameThread c (afterMessage conv sequence input now id c) :=
  ⟨rfl, rfl, rfl, rfl, rfl⟩

/-- A patch that passes its checks closes the ticket with its thread, or leaves both open. -/
theorem Good.patched (h : Good t c) {patch : PatchSupportTicketDto}
    (hreopens : ¬ (t.status = .closed ∧ patch.status.isSome ∧ patch.status ≠ some .closed)) :
    Good (t.patched patch now)
      (if patch.status = some .closed ∧ t.closedAt = none then archivedFor c now else c) := by
  obtain ⟨userId, howner⟩ := h.owner
  have hrequester : (t.patched patch now).requesterUserId = t.requesterUserId := by
    unfold SupportTicket.patched
    dsimp only
    split <;> rfl
  cases hstatus : patch.status with
  | none =>
    have hpatched : (t.patched patch now).status = t.status ∧
        (t.patched patch now).closedAt = t.closedAt ∧
        (t.patched patch now).resolvedAt = t.resolvedAt := by
      simp [SupportTicket.patched, hstatus]
    obtain ⟨h₁, h₂, h₃⟩ := hpatched
    simp only [reduceCtorEq, false_and, if_false]
    exact ⟨by rw [h₁, h₂]; exact h.closedAt, by rw [h₁, h₃]; exact h.resolvedAt,
      by rw [h₁]; exact h.archived, by rw [h₁]; exact h.active,
      userId, howner.congr hrequester rfl rfl rfl rfl⟩
  | some status =>
    by_cases hclosing : status = .closed
    · subst hclosing
      have hpatched : (t.patched patch now).status = .closed ∧
          (t.patched patch now).closedAt ≠ none ∧ (t.patched patch now).resolvedAt ≠ none := by
        simp [SupportTicket.patched, hstatus]
      obtain ⟨h₁, h₂, h₃⟩ := hpatched
      refine ⟨iff_of_true h₁ h₂, fun _ => h₃, fun _ => ?_, fun hopen => absurd h₁ hopen, userId, ?_⟩
      · split_ifs with hfirst
        · rfl
        · refine h.archived (h.closedAt.mpr fun hnone => hfirst ⟨rfl, hnone⟩)
      · split_ifs
        · exact howner.congr hrequester rfl rfl rfl rfl
        · exact howner.congr hrequester rfl rfl rfl rfl
    · have hopen : t.status ≠ .closed := by
        intro hclosed
        refine hreopens ⟨hclosed, by rw [hstatus]; rfl, ?_⟩
        rw [hstatus]
        exact fun heq => hclosing (Option.some.inj heq)
      have hnone : t.closedAt = none := by
        by_contra hsome
        exact hopen (h.closedAt.mpr hsome)
      have hpatched : (t.patched patch now).status = status ∧
          (t.patched patch now).closedAt = none := by
        cases status <;> simp_all [SupportTicket.patched]
      obtain ⟨h₁, h₂⟩ := hpatched
      rw [if_neg fun hand => hclosing (Option.some.inj hand.1)]
      refine ⟨by rw [h₁, h₂]; simp [hclosing], fun hclosed => absurd (h₁.symm.trans hclosed) hclosing,
        fun hclosed => absurd (h₁.symm.trans hclosed) hclosing, fun _ => h.active hopen, userId,
        howner.congr hrequester rfl rfl rfl rfl⟩

theorem Good.reopened (h : Good t c) : Good t.reopened (activeFor c) := by
  obtain ⟨userId, howner⟩ := h.owner
  have hstatus : t.reopened.status ≠ .closed := by
    unfold SupportTicket.reopened
    dsimp only
    split_ifs <;> simp
  exact ⟨iff_of_false hstatus (by simp [SupportTicket.reopened]),
    fun hclosed => absurd hclosed hstatus, fun hclosed => absurd hclosed hstatus, fun _ => rfl,
    userId, howner.congr rfl rfl rfl rfl rfl⟩

/-- A ticket that was open and is open with another status. -/
theorem Good.moved (h : Good t c) {t' : SupportTicket} (hsame : SameThread c c')
    (hopen : t.status ≠ .closed) (hopen' : t'.status ≠ .closed) (hclosedAt : t'.closedAt = t.closedAt)
    (hrequester : t'.requesterUserId = t.requesterUserId) : Good t' c' := by
  obtain ⟨userId, howner⟩ := h.owner
  have hnone : t'.closedAt = none := by
    rw [hclosedAt]
    by_contra hsome
    exact hopen (h.closedAt.mpr hsome)
  exact ⟨iff_of_false hopen' (by simp [hnone]), fun hclosed => absurd hclosed hopen',
    fun hclosed => absurd hclosed hopen', fun _ => hsame.state.trans (h.active hopen),
    userId, howner.congr hrequester hsame.guest hsame.host hsame.byGuest hsame.byHost⟩

theorem next_ne_closed {status : SupportTicketStatus} {party : SupportTicketParty}
    (h : status ≠ .closed) : nextStatusAfterCustomerMessage status party ≠ .closed := by
  unfold nextStatusAfterCustomerMessage
  cases status <;> simp_all
  split_ifs <;> simp

theorem answered_ne_closed {ticket : StaysSupportTicket} {adminUserId : ℕ}
    (h : ticket.status ≠ .closed) : (answered ticket adminUserId now ticket).status ≠ .closed := by
  unfold answered
  dsimp only
  split_ifs
  · simp
  · exact h

/-- The thread of an open ticket that its requester opens again. -/
theorem Good.reopenedThread (h : Good t c) (hopen : t.status ≠ .closed) {options : ReopenOptions}
    {postStayEndsAt : Option ℤ} :
    Good t (ConversationStates.reopened conv postStayEndsAt options c) := by
  obtain ⟨userId, howner⟩ := h.owner
  exact ⟨h.closedAt, h.resolvedAt, fun hclosed => absurd hclosed hopen, fun _ => rfl,
    userId, howner.congr rfl rfl rfl rfl rfl⟩

theorem good_new {id userId : ℕ} {party : SupportTicketParty} {category : String}
    {priority : SupportSla.SupportTicketPriority} {language : Option String} :
    Good (newTicket id id userId party category priority language)
      (newConversation id userId party) := by
  refine ⟨by simp [newTicket], fun hclosed => (by cases hclosed), fun hclosed => (by cases hclosed),
    fun _ => rfl, userId, rfl, ?_⟩
  cases party with
  | guest => exact Or.inl ⟨rfl, rfl, rfl⟩
  | host => exact Or.inr ⟨rfl, rfl, rfl⟩

/-- Every ticket has its own thread, and the two are as the calls of staff leave them. -/
structure Sound (s : Desk) : Prop where
  linked : Linked s
  good : ∀ t ∈ s.tickets.rows, ∃ c, s.conversations.find? t.conversationId = some c ∧ Good t c

theorem Sound.agrees (h : Sound s) : Agrees s := by
  intro t ht
  obtain ⟨c, hfind, hgood⟩ := h.good t ht
  exact ⟨c, hfind, hgood.agree⟩

theorem sound_emptyDesk : Sound emptyDesk :=
  ⟨⟨fun _ ht => (by cases ht), fun _ ht => (by cases ht)⟩, fun _ ht => (by cases ht)⟩

variable {held : Held} {e : Effect}

theorem find?_apply_conversations (s : Desk) (e : Effect) (id : ℕ) :
    (s.apply e).conversations.find? id =
      match e.conversation with
      | some c => if id = c.id then some c else s.conversations.find? id
      | none => s.conversations.find? id := by
  unfold Desk.apply
  cases e.conversation with
  | none => rfl
  | some c => exact Table.find?_put _ _ _

/-- A commit keeps the tickets and the threads sound when what it writes is good. -/
theorem Sound.apply (h : Sound s) (hwrites : Writes s held e)
    (hheld : ∀ t, held.ticket = some t → s.tickets.find? t.id = some t)
    (hticket : ∀ t', e.ticket = some t' →
      ∃ c, (s.apply e).conversations.find? t'.conversationId = some c ∧ Good t' c)
    (hconversation : ∀ c', e.conversation = some c' → ∀ t ∈ s.tickets.rows,
      t.conversationId = c'.id → (∀ t', e.ticket = some t' → t'.id ≠ t.id) → Good t c') :
    Sound (s.apply e) := by
  refine ⟨hwrites.linked hheld h.linked, fun t ht => ?_⟩
  obtain hwritten | ⟨hmem, hother⟩ := mem_apply_tickets ht
  · exact hticket t hwritten
  · obtain ⟨c, hfind, hgood⟩ := h.good t hmem
    rw [find?_apply_conversations]
    cases hc : e.conversation with
    | none => exact ⟨c, hfind, hgood⟩
    | some c' =>
      dsimp only
      split_ifs with hid
      · exact ⟨c', rfl, hconversation c' hc t hmem hid hother⟩
      · exact ⟨c, hfind, hgood⟩

/-- The conversation of a participant. -/
def theirs (s : Desk) (conversationId userId : ℕ) : Option StaysConversation :=
  (s.conversations.find? conversationId).filter fun c => isParticipant c userId {}

/-- No participant blocks the thread of a ticket, and none reopens the thread of a closed one. -/
def Gentle (s : Desk) : Request → Prop
  | .block conversationId userId => (theirs s conversationId userId).isSome →
      ∀ t ∈ s.tickets.rows, t.conversationId ≠ conversationId
  | .reopenConversation conversationId userId _ => (theirs s conversationId userId).isSome →
      ∀ t ∈ s.tickets.rows, t.conversationId = conversationId → t.status ≠ .closed
  | _ => True

theorem find?_of_theirs {conversationId userId : ℕ} (h : theirs s conversationId userId = some c) :
    s.conversations.find? conversationId = some c ∧ c.id = conversationId :=
  have hfind := (Option.filter_eq_some_iff.mp h).1
  ⟨hfind, Table.key_of_find? hfind⟩

theorem updated_of_find? {f : StaysConversation → StaysConversation} {id : ℕ}
    (h : s.conversations.find? id = some c) : updated s c f = some (f c) := by
  unfold updated
  rw [show c.id = id from Table.key_of_find? h, h]
  rfl

/-- The ticket that a call addresses is a row. -/
theorem find?_target {conversation : Option StaysConversation} {request : Request}
    (h : target s conversation request = some t) : s.tickets.find? t.id = some t := by
  have hown : ∀ id, s.tickets.find? id = some t → s.tickets.find? t.id = some t := by
    intro id hfind
    have hkey : t.key = id := Table.key_of_find? hfind
    rw [← hkey] at hfind
    exact hfind
  cases request with
  | send conversationId userId body =>
    obtain ⟨conv, -, hticket⟩ := Option.bind_eq_some_iff.mp h
    exact Table.find?_key (List.mem_of_find?_eq_some hticket)
  | createTicketForUser | reopenConversation | block | updateVisibility => cases h
  | _ => exact hown _ h

/-- A commit that writes a ticket, and nothing but its thread. -/
theorem Sound.own (h : Sound s) (hwrites : Writes s held e)
    (hheld : held.ticket = some t) (hrow : s.tickets.find? t.id = some t) {t' : SupportTicket}
    (hticket : e.ticket = some t') (hid : t'.id = t.id)
    (hthread : t'.conversationId = t.conversationId)
    (hfind : s.conversations.find? t.conversationId = some c)
    (hconv : ∀ c', e.conversation = some c' → c'.id = t.conversationId)
    (hgood : Good t' (e.conversation.getD c)) : Sound (s.apply e) := by
  refine h.apply hwrites (fun u hu => ?_) (fun u hu => ?_) (fun c' hc' u hu hsame hother => ?_)
  · obtain rfl := Option.some.inj (hheld.symm.trans hu)
    exact hrow
  · obtain rfl := Option.some.inj (hticket.symm.trans hu)
    rw [find?_apply_conversations, hthread]
    cases hc' : e.conversation with
    | none => exact ⟨c, hfind, by rw [hc'] at hgood; exact hgood⟩
    | some c' =>
      rw [hc'] at hgood
      exact ⟨c', if_pos (hconv c' hc').symm, hgood⟩
  · have hut : u = t :=
      h.linked.apart u hu t (Table.mem_of_find? hrow) (hsame.trans (hconv c' hc'))
    exact absurd (by rw [hid, hut]) (hother t' hticket)

/-- A commit that writes a thread and no ticket. -/
theorem Sound.thread (h : Sound s) (hwrites : Writes s held e)
    (hheld : ∀ t, held.ticket = some t → s.tickets.find? t.id = some t)
    (hticket : e.ticket = none) (hgood : ∀ c', e.conversation = some c' →
      ∀ t ∈ s.tickets.rows, ∀ c, s.conversations.find? t.conversationId = some c →
        t.conversationId = c'.id → Good t c → Good t c') : Sound (s.apply e) := by
  refine h.apply hwrites hheld (fun u hu => ?_) (fun c' hc' u hu hsame _ => ?_)
  · rw [hticket] at hu
    cases hu
  · obtain ⟨c, hfind, hc⟩ := h.good u hu
    exact hgood c' hc' u hu c hfind hsame hc

theorem Good.assigned (h : Good t c) (agentId : Option ℕ) :
    Good { t with assignedAdminId := agentId } c := by
  obtain ⟨userId, howner⟩ := h.owner
  exact ⟨h.closedAt, h.resolvedAt, h.archived, h.active, userId, howner.requester, howner.sides⟩

/-- The calls of staff hold the thread of their ticket. -/
theorem heldBy_thread {conversation : Option StaysConversation} {request : Request}
    (ht : (heldBy s conversation request).ticket = some t)
    (hstaff : (∃ ticketId patch actor, request = .patchForAdmin ticketId patch actor) ∨
      (∃ ticketId actor, request = .reopenForAdmin ticketId actor) ∨
      ∃ ticketId adminUserId body actor,
        request = .sendAdminMessage ticketId adminUserId body actor) :
    (heldBy s conversation request).conversation = s.conversations.find? t.conversationId := by
  have htarget : target s conversation request = some t := ht
  obtain ⟨_, _, _, rfl⟩ | ⟨_, _, rfl⟩ | ⟨_, _, _, _, rfl⟩ := hstaff <;>
    simp only [heldBy, htarget, SupportTickets.thread, Option.bind_some]

/-- What is found of a participant's conversations, whatever is asked of it. -/
theorem theirs_of_found {conversationId userId : ℕ} {e : MessagingError}
    {f : StaysConversation → Except MessagingError (Option StaysConversation)}
    (hf : ∀ d r, f d = .ok (some r) → r = d)
    (h : (match theirs s conversationId userId with
      | none => Except.error e
      | some d => f d) = .ok (some c)) :
    theirs s conversationId userId = some c := by
  cases hfind : theirs s conversationId userId with
  | none =>
    rw [hfind] at h
    cases h
  | some d =>
    rw [hfind] at h
    rw [hf d c h]

/-- The calls of a participant on a conversation hold the one that they are a participant of. -/
theorem theirs_of_look {conversation : Option StaysConversation} {request : Request}
    {conversationId userId : ℕ} (hlook : look s request = .ok conversation)
    (hheld : (heldBy s conversation request).conversation = some c)
    (htheirs : (∃ options, request = .reopenConversation conversationId userId options) ∨
      request = .block conversationId userId ∨
      ∃ action, request = .updateVisibility conversationId userId action) :
    theirs s conversationId userId = some c := by
  obtain ⟨_, rfl⟩ | rfl | ⟨_, rfl⟩ := htheirs
  · obtain rfl : conversation = some c := hheld
    exact theirs_of_found (fun d r h => Option.some.inj (Except.ok.inj h.symm)) hlook
  · obtain rfl : conversation = some c := hheld
    exact theirs_of_found (fun d r h => Option.some.inj (Except.ok.inj h.symm)) hlook
  · obtain rfl : conversation = some c := hheld
    refine theirs_of_found (fun d r h => ?_) hlook
    split_ifs at h
    exact Option.some.inj (Except.ok.inj h.symm)

/-- The ticket that a message of a participant locks is the one of its thread. -/
theorem ticket_of_thread {conversation : Option StaysConversation} {conversationId userId : ℕ}
    {body : String}
    (hheld : (heldBy s conversation (.send conversationId userId body)).conversation = some c)
    (ht : (heldBy s conversation (.send conversationId userId body)).ticket = some t) :
    t.conversationId = c.id := by
  obtain rfl : conversation = some c := hheld
  obtain ⟨d, hd, hticket⟩ := Option.bind_eq_some_iff.mp ht
  obtain rfl := Option.some.inj (Option.filter_eq_some_iff.mp hd).1
  simpa using List.find?_some hticket

section Commits

variable {conv : Option StaysConversation} {newId : ℕ}

theorem find?_held {request : Request} (ht : (heldBy s conv request).ticket = some t) :
    s.tickets.find? t.id = some t :=
  find?_target ht

theorem Sound.createTicketForUser (h : Sound s) {userId : ℕ} {party : SupportTicketParty}
    {category message : String} {priority : SupportSla.SupportTicketPriority}
    {language : Option String}
    (hwrites : Writes s (heldBy s conv
      (.createTicketForUser userId party category priority language message)) e)
    (heffect : effect s (heldBy s conv
      (.createTicketForUser userId party category priority language message)) now newId
        (.createTicketForUser userId party category priority language message) = some e) :
    Sound (s.apply e) := by
  simp only [effect] at heffect
  split_ifs at heffect with hfree
  cases heffect
  have hnone : s.conversations.find? newId = none := by
    simpa using fun hsome => hfree (Or.inr hsome)
  refine h.apply hwrites (fun u hu => (by cases hu)) (fun u hu => ?_)
    (fun c' hc' u hu hsame _ => ?_)
  · cases hu
    rw [find?_apply_conversations]
    exact ⟨_, if_pos rfl, good_new.sameThread sameThread_afterMessage⟩
  · cases hc'
    obtain ⟨c, hfind, -⟩ := h.good u hu
    rw [hsame] at hfind
    exact absurd (hnone.symm.trans hfind) (by simp)

theorem Sound.patchForAdmin (h : Sound s) {ticketId : ℕ} {patch : PatchSupportTicketDto}
    {actor : SupportStaffActor}
    (hwrites : Writes s (heldBy s conv (.patchForAdmin ticketId patch actor)) e)
    (hcheck : check (heldBy s conv (.patchForAdmin ticketId patch actor)).ticket
      (heldBy s conv (.patchForAdmin ticketId patch actor)).conversation
      (.patchForAdmin ticketId patch actor) = .ok ())
    (heffect : effect s (heldBy s conv (.patchForAdmin ticketId patch actor)) now newId
      (.patchForAdmin ticketId patch actor) = some e) : Sound (s.apply e) := by
  obtain ⟨t, ht, rfl⟩ := Option.map_eq_some_iff.mp heffect
  obtain ⟨c, hfind, hgood⟩ := h.good t (Table.mem_of_find? (find?_held ht))
  have hid : c.id = t.conversationId := Table.key_of_find? hfind
  have hconv := (heldBy_thread ht (Or.inl ⟨_, _, _, rfl⟩)).trans hfind
  rw [ht] at hcheck
  have hreopens : ¬ (t.status = .closed ∧ patch.status.isSome ∧ patch.status ≠ some .closed) := by
    simp only [check] at hcheck
    split_ifs at hcheck with _ _ _ hno
    exact hno
  -- a ticket that is closed for the first time has an active thread, which is written then
  have hwritten : (if patch.status = some .closed ∧ t.closedAt = none then
      ((heldBy s conv (.patchForAdmin ticketId patch actor)).conversation.filter
        fun c => c.messagingState ≠ .archived).map fun conv => archivedFor conv now
      else none) =
      if patch.status = some .closed ∧ t.closedAt = none then some (archivedFor c now)
      else none := by
    split_ifs with hclosing
    · have hactive := hgood.active fun hclosed => hgood.closedAt.mp hclosed hclosing.2
      rw [hconv]
      simp [Option.filter_some, hactive]
    · rfl
  refine h.own hwrites ht (find?_held ht) rfl (id_patched t patch) (conversationId_patched t patch)
    hfind (fun c' hc' => ?_) ?_
  · have hc' := hwritten.symm.trans hc'
    split_ifs at hc'
    obtain rfl := Option.some.inj hc'
    exact hid
  · dsimp only
    rw [hwritten]
    have hpatched : Good (t.patched patch now) _ := hgood.patched hreopens
    split_ifs at hpatched ⊢ <;> exact hpatched

theorem Sound.sendAdminMessage (h : Sound s) {ticketId adminUserId : ℕ} {body : String}
    {actor : SupportStaffActor}
    (hwrites : Writes s (heldBy s conv (.sendAdminMessage ticketId adminUserId body actor)) e)
    (hcheck : check (heldBy s conv (.sendAdminMessage ticketId adminUserId body actor)).ticket
      (heldBy s conv (.sendAdminMessage ticketId adminUserId body actor)).conversation
      (.sendAdminMessage ticketId adminUserId body actor) = .ok ())
    (heffect : effect s (heldBy s conv (.sendAdminMessage ticketId adminUserId body actor)) now
      newId (.sendAdminMessage ticketId adminUserId body actor) = some e) :
    Sound (s.apply e) := by
  simp only [effect] at heffect
  split at heffect
  · next t conversation ht hconversation =>
    obtain ⟨c, hfind, hgood⟩ := h.good t (Table.mem_of_find? (find?_held ht))
    have hconv := (heldBy_thread ht (Or.inr (Or.inr ⟨_, _, _, _, rfl⟩))).trans hfind
    obtain rfl := Option.some.inj (hconversation.symm.trans hconv)
    obtain ⟨locked, hlocked, rfl⟩ := Option.map_eq_some_iff.mp heffect
    have hid := Table.key_of_find? hfind
    rw [hid] at hlocked
    obtain rfl := Option.some.inj (hlocked.symm.trans hfind)
    rw [ht] at hcheck
    have hopen := unclosed_of_check hcheck (Or.inr ⟨_, _, _, _, rfl⟩)
    refine h.own hwrites ht (find?_held ht) rfl rfl rfl hfind (fun c' hc' => ?_) ?_
    · cases hc'
      simpa using hid
    · exact hgood.moved (sameThread_withUnread sameThread_afterMessage) hopen
        (answered_ne_closed hopen) rfl rfl
  · cases heffect

theorem Sound.send (h : Sound s) {conversationId userId : ℕ} {body : String}
    (hwrites : Writes s (heldBy s conv (.send conversationId userId body)) e)
    (hcheck : check (heldBy s conv (.send conversationId userId body)).ticket
      (heldBy s conv (.send conversationId userId body)).conversation
      (.send conversationId userId body) = .ok ())
    (heffect : effect s (heldBy s conv (.send conversationId userId body)) now newId
      (.send conversationId userId body) = some e) : Sound (s.apply e) := by
  obtain ⟨c, hc, heffect⟩ := Option.bind_eq_some_iff.mp heffect
  obtain ⟨locked, hlocked, rfl⟩ := Option.map_eq_some_iff.mp heffect
  have hid := Table.key_of_find? hlocked
  obtain hnone | ⟨t, ht⟩ := Option.eq_none_or_eq_some
    (heldBy s conv (.send conversationId userId body)).ticket
  · refine h.thread hwrites (fun _ => find?_held) (by simp [hnone]) fun c' hc' u hu d hfind hsame hgood => ?_
    cases hc'
    simp only [id_unarchive, id_afterMessage] at hsame
    rw [hsame, hid, hlocked] at hfind
    obtain rfl := Option.some.inj hfind
    exact hgood.sameThread (sameThread_unarchive sameThread_afterMessage)
  · obtain ⟨d, hfind, hgood⟩ := h.good t (Table.mem_of_find? (find?_held ht))
    have hthread : t.conversationId = c.id := ticket_of_thread hc ht
    rw [hthread, hlocked] at hfind
    obtain rfl := Option.some.inj hfind
    rw [ht] at hcheck
    have hopen := unclosed_of_check hcheck (Or.inl rfl)
    let t' : SupportTicket := { t with
      unreadForSupport := true
      status := nextStatusAfterCustomerMessage t.status t.party }
    have hmoved : ∀ c', SameThread locked c' → Good t' c' := fun c' hsame =>
      hgood.moved hsame hopen (next_ne_closed hopen) rfl rfl
    have hticket : (heldBy s conv (.send conversationId userId body)).ticket.map
        (fun t => { t with
          unreadForSupport := true
          status := nextStatusAfterCustomerMessage t.status t.party }) = some t' := by
      rw [ht]
      rfl
    refine h.own hwrites ht (find?_held ht) hticket rfl rfl (hthread ▸ hlocked) (fun c' hc' => ?_)
      (hmoved _ (sameThread_unarchive sameThread_afterMessage))
    cases hc'
    simpa using hid.trans hthread.symm

end Commits

/-- What a gentle call commits keeps tickets and threads sound. -/
theorem Sound.commit (h : Sound s) {request : Request} {conv : Option StaysConversation}
    {newId : ℕ} (hlook : look s request = .ok conv)
    (hcheck : check (heldBy s conv request).ticket (heldBy s conv request).conversation request =
      .ok ())
    (heffect : effect s (heldBy s conv request) now newId request = some e)
    (hgentle : Gentle s request) : Sound (s.apply e) := by
  have hlooked : ∀ c, conv = some c → Known s c := by
    rintro c rfl
    exact known_of_look hlook
  have hwrites := writes_of_effect (fun c hc => known_thread hlooked hc) heffect
  cases request with
  | createTicketForUser userId party category priority language message =>
    exact h.createTicketForUser hwrites heffect
  | patchForAdmin ticketId patch actor =>
    exact h.patchForAdmin hwrites hcheck heffect
  | reopenForAdmin ticketId actor =>
    obtain ⟨t, ht, rfl⟩ := Option.map_eq_some_iff.mp heffect
    obtain ⟨c, hfind, hgood⟩ := h.good t (Table.mem_of_find? (find?_held ht))
    have hid : c.id = t.conversationId := Table.key_of_find? hfind
    have hconv := (heldBy_thread ht (Or.inr (Or.inl ⟨_, _, rfl⟩))).trans hfind
    have hwritten : (heldBy s conv (.reopenForAdmin ticketId actor)).conversation.map activeFor =
        some (activeFor c) := by
      rw [hconv, Option.map_some]
    refine h.own hwrites ht (find?_held ht) rfl rfl rfl hfind (fun c' hc' => ?_) ?_
    · obtain rfl := Option.some.inj (hwritten.symm.trans hc')
      exact hid
    · dsimp only
      rw [hwritten]
      exact hgood.reopened
  | attemptAutoAssignment ticketId routing =>
    simp only [effect] at heffect
    split at heffect
    · next t workload ht hworkload =>
      obtain ⟨agentId, -, rfl⟩ := Option.map_eq_some_iff.mp heffect
      obtain ⟨c, hfind, hgood⟩ := h.good t (Table.mem_of_find? (find?_held ht))
      exact h.own hwrites ht (find?_held ht) rfl rfl rfl hfind (fun c' hc' => (by cases hc'))
        (hgood.assigned _)
    · cases heffect
  | sendAdminMessage ticketId adminUserId body actor =>
    exact h.sendAdminMessage hwrites hcheck heffect
  | createNoteForAdmin ticketId authorAdminId body actor =>
    obtain ⟨t, ht, rfl⟩ := Option.map_eq_some_iff.mp heffect
    exact h.thread hwrites (fun _ => find?_held) rfl fun c' hc' => (by cases hc')
  | send conversationId userId body =>
    exact h.send hwrites hcheck heffect
  | reopenConversation conversationId userId options =>
    obtain ⟨c, hc, rfl⟩ := Option.map_eq_some_iff.mp heffect
    have htheirs := theirs_of_look hlook hc (Or.inl ⟨_, rfl⟩)
    obtain ⟨hfind, hid⟩ := find?_of_theirs htheirs
    refine h.thread hwrites (fun _ => find?_held) rfl fun c' hc' u hu d hd hsame hgood => ?_
    obtain rfl := Option.some.inj ((updated_of_find? hfind).symm.trans hc')
    rw [hsame, show (ConversationStates.reopened c c.postStayEndsAt options c).id = c.id from rfl, hid,
      hfind] at hd
    obtain rfl := Option.some.inj hd
    exact hgood.reopenedThread (hgentle (by rw [htheirs]; rfl) u hu (hsame.trans hid))
  | block conversationId userId =>
    obtain ⟨c, hc, rfl⟩ := Option.map_eq_some_iff.mp heffect
    have htheirs := theirs_of_look hlook hc (Or.inr (Or.inl rfl))
    obtain ⟨hfind, hid⟩ := find?_of_theirs htheirs
    refine h.thread hwrites (fun _ => find?_held) rfl fun c' hc' u hu d hd hsame hgood => ?_
    obtain rfl := Option.some.inj ((updated_of_find? hfind).symm.trans hc')
    exact absurd (hsame.trans hid) (hgentle (by rw [htheirs]; rfl) u hu)
  | updateVisibility conversationId userId action =>
    obtain ⟨c, hc, rfl⟩ := Option.map_eq_some_iff.mp heffect
    have htheirs := theirs_of_look hlook hc (Or.inr (Or.inr ⟨_, rfl⟩))
    obtain ⟨hfind, hid⟩ := find?_of_theirs htheirs
    refine h.thread hwrites (fun _ => find?_held) rfl fun c' hc' u hu d hd hsame hgood => ?_
    obtain rfl := Option.some.inj ((updated_of_find? hfind).symm.trans hc')
    rw [hsame, id_visibleTo, hid, hfind] at hd
    obtain rfl := Option.some.inj hd
    exact hgood.sameThread sameThread_visibleTo

/-- A call leaves the rows as they are, or commits. -/
theorem perform_cases (s : Desk) (call : Call) :
    perform s call = s ∨ ∃ conv e, look s call.request = .ok conv ∧
      check (heldBy s conv call.request).ticket (heldBy s conv call.request).conversation
        call.request = .ok () ∧
      effect s (heldBy s conv call.request) call.now call.newId call.request = some e ∧
      perform s call = s.apply e := by
  unfold perform
  split
  · exact Or.inl rfl
  · next conv hlook =>
    dsimp only
    split
    · exact Or.inl rfl
    · next hcheck =>
      cases heffect : effect s (heldBy s conv call.request) call.now call.newId call.request with
      | none => exact Or.inl rfl
      | some e => exact Or.inr ⟨conv, e, hlook, hcheck, heffect, rfl⟩

theorem Sound.perform (h : Sound s) {call : Call} (hgentle : Gentle s call.request) :
    Sound (perform s call) := by
  obtain hsame | ⟨conv, e, hlook, hcheck, heffect, hcommit⟩ := perform_cases s call
  · rw [hsame]
    exact h
  · rw [hcommit]
    exact h.commit hlook hcheck heffect hgentle

theorem perform_block {conversationId userId newId : ℕ}
    (h : theirs s conversationId userId = some c) :
    perform s ⟨.block conversationId userId, now, newId⟩ =
      s.apply { conversation := some (blockedBy userId c now c) } := by
  have hlook : look s (.block conversationId userId) = .ok (some c) := by
    unfold theirs at h
    simp only [look, h]
  unfold TicketThreads.perform
  simp only [hlook]
  change ((effect s ⟨none, some c, none⟩ now newId (.block conversationId userId)).map
    s.apply).getD s = _
  simp only [effect, Option.map_some, updated_of_find? (find?_of_theirs h).1, Option.getD_some]

theorem perform_reopenConversation {conversationId userId newId : ℕ} {options : ReopenOptions}
    (h : theirs s conversationId userId = some c) :
    perform s ⟨.reopenConversation conversationId userId options, now, newId⟩ =
      s.apply { conversation := some (ConversationStates.reopened c c.postStayEndsAt options c) } := by
  have hlook : look s (.reopenConversation conversationId userId options) = .ok (some c) := by
    unfold theirs at h
    simp only [look, h]
  unfold TicketThreads.perform
  simp only [hlook]
  change ((effect s ⟨none, some c, none⟩ now newId
    (.reopenConversation conversationId userId options)).map s.apply).getD s = _
  simp only [effect, Option.map_some, updated_of_find? (find?_of_theirs h).1, Option.getD_some]

/-- Nobody writes in a thread that is locked. -/
theorem canSend_of_locked {userId : ℕ} (h : c.messagingState = .locked) :
    (resolve c userId {}).canSend = false := by
  unfold resolve readOnlyState
  simp only [h]
  split_ifs <;> rfl

/-- The thread of a ticket after a call that writes only the thread. -/
theorem agree_of_agrees (h : Agrees (s.apply { conversation := some c }))
    (ht : t ∈ s.tickets.rows) (hid : t.conversationId = c.id) : Agree t c := by
  obtain ⟨c', hfind, hagree⟩ := h t ht
  rw [find?_apply_conversations] at hfind
  obtain rfl := Option.some.inj ((if_pos hid).symm.trans hfind)
  exact hagree

/-- A call that is not gentle parts a ticket from its thread. -/
theorem not_agrees_of_not_gentle {call : Call} (h : ¬ Gentle s call.request) :
    ¬ Agrees (perform s call) := by
  intro hagrees
  obtain ⟨request, now, newId⟩ := call
  cases request with
  | block conversationId userId =>
    simp only [Gentle] at h
    push Not at h
    obtain ⟨hsome, t, ht, hthread⟩ := h
    obtain ⟨c, htheirs⟩ := Option.isSome_iff_exists.mp hsome
    rw [perform_block htheirs] at hagrees
    have hagree := agree_of_agrees hagrees ht (hthread.trans (find?_of_theirs htheirs).2.symm)
    by_cases hclosed : t.status = .closed
    · exact absurd (hagree.archived hclosed) (by simp [blockedBy])
    · obtain ⟨requester, -, hsends⟩ := hagree.sends hclosed
      rw [canSend_of_locked rfl] at hsends
      cases hsends
  | reopenConversation conversationId userId options =>
    simp only [Gentle] at h
    push Not at h
    obtain ⟨hsome, t, ht, hthread, hclosed⟩ := h
    obtain ⟨c, htheirs⟩ := Option.isSome_iff_exists.mp hsome
    rw [perform_reopenConversation htheirs] at hagrees
    have hagree := agree_of_agrees hagrees ht (hthread.trans (find?_of_theirs htheirs).2.symm)
    exact absurd (hagree.archived hclosed) (by simp [ConversationStates.reopened])
  | _ => exact h trivial

/-- In every state that the calls go through, tickets agree with their threads. -/
def AgreeThroughout (s : Desk) (calls : List Call) : Prop :=
  ∀ before after, calls = before ++ after → Agrees (runCalls s before)

/-- Every call is gentle on the state that it finds. -/
def GentleThroughout (s : Desk) (calls : List Call) : Prop :=
  ∀ before call after, calls = before ++ call :: after →
    Gentle (runCalls s before) call.request

theorem agreeThroughout_cons (h : Agrees s) {call : Call} {calls : List Call} :
    AgreeThroughout s (call :: calls) ↔ AgreeThroughout (perform s call) calls := by
  refine ⟨fun hall before after hcalls => hall (call :: before) after (by rw [hcalls]; rfl),
    fun hall before after hcalls => ?_⟩
  cases before with
  | nil => exact h
  | cons first before =>
    obtain ⟨rfl, hrest⟩ := List.cons.inj hcalls
    exact hall before after hrest

theorem gentleThroughout_cons {call : Call} {calls : List Call} :
    GentleThroughout s (call :: calls) ↔
      Gentle s call.request ∧ GentleThroughout (perform s call) calls := by
  refine ⟨fun hall => ⟨hall [] call calls rfl, fun before other after hcalls =>
    hall (call :: before) other after (by rw [hcalls]; rfl)⟩, fun ⟨hfirst, hall⟩ before other after
    hcalls => ?_⟩
  cases before with
  | nil =>
    obtain ⟨rfl, -⟩ := List.cons.inj hcalls
    exact hfirst
  | cons first before =>
    obtain ⟨rfl, hrest⟩ := List.cons.inj hcalls
    exact hall before other after hrest

theorem Sound.throughout_iff (h : Sound s) (calls : List Call) :
    AgreeThroughout s calls ↔ GentleThroughout s calls := by
  induction calls generalizing s with
  | nil =>
    refine iff_of_true (fun before after hcalls => ?_) fun before call after hcalls => ?_
    · obtain rfl : before = [] := (List.append_eq_nil_iff.mp hcalls.symm).1
      exact h.agrees
    · cases before <;> cases hcalls
  | cons call calls ih =>
    rw [agreeThroughout_cons h.agrees, gentleThroughout_cons]
    by_cases hgentle : Gentle s call.request
    · rw [ih (h.perform hgentle)]
      exact ⟨fun hall => ⟨hgentle, hall⟩, fun hall => hall.2⟩
    · refine iff_of_false (fun hall => ?_) fun hall => hgentle hall.1
      exact not_agrees_of_not_gentle hgentle (hall [] calls rfl)

/-- Tickets and threads agree in every state of a sequence of calls, exactly when no call blocks
the thread of a ticket or reopens the thread of a closed one. -/
theorem agreeThroughout_iff (calls : List Call) :
    AgreeThroughout emptyDesk calls ↔ GentleThroughout emptyDesk calls :=
  sound_emptyDesk.throughout_iff calls

/-- A guest opens a ticket and blocks its thread. -/
def blockedThread : List Call :=
  [⟨.createTicketForUser 10 .guest "PAYMENT" .normal none "My card was charged twice", 5, 1⟩,
    ⟨.block 1 10, 6, 2⟩]

/-- The thread is locked although the ticket is open. -/
theorem not_agreeThroughout_blockedThread : ¬ AgreeThroughout emptyDesk blockedThread := by
  intro hall
  have hagrees := hall blockedThread [] rfl
  obtain ⟨c, hfind, hagree⟩ := hagrees (newTicket 1 1 10 .guest "PAYMENT" .normal none)
    (List.mem_singleton.mpr rfl)
  obtain ⟨userId, -, hsends⟩ := hagree.sends (by simp [newTicket])
  have hlocked : c.messagingState = .locked := by
    obtain rfl := Option.some.inj hfind
    rfl
  rw [canSend_of_locked hlocked] at hsends
  cases hsends

end NexaStays.TicketThreads
