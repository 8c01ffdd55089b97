import NexaStays.SupportTickets

/-!
# What the lock of a ticket is good for

Every writer of a ticket holds the lock of its row from the read it decides on to its commit, so
at its commit the row is still the one that it has checked.
-/
namespace NexaStays.TicketLocks

open NexaStays.KeyedTable NexaStays.MessagingStore NexaStays.Messages NexaStays.ConversationStates
  NexaStays.SupportTickets

/-- Every ticket has a support thread of its own. -/
structure Linked (s : Desk) : Prop where
  thread : ∀ t ∈ s.tickets.rows, ∃ c, s.conversations.find? t.conversationId = some c ∧
    c.type = .support
  apart : ∀ t ∈ s.tickets.rows, ∀ u ∈ s.tickets.rows, t.conversationId = u.conversationId → t = u

/-- A conversation is there, with the type it had when it was read. -/
def Known (s : Desk) (conv : StaysConversation) : Prop :=
  ∃ c, s.conversations.find? conv.id = some c ∧ c.type = conv.type

section Conversations

variable {locked conv c : StaysConversation} {sequence id : ℕ} {input : MessageInput} {now : ℤ}
  {userId : ℕ} {ticket : StaysSupportTicket}

@[simp] theorem id_afterMessage : (afterMessage locked sequence input now id c).id = c.id := rfl

@[simp] theorem type_afterMessage : (afterMessage locked sequence input now id c).type = c.type :=
  rfl

@[simp] theorem id_unarchive : (unarchive userId conv c).id = c.id := by
  unfold unarchive
  split_ifs <;> rfl

@[simp] theorem type_unarchive : (unarchive userId conv c).type = c.type := by
  unfold unarchive
  split_ifs <;> rfl

@[simp] theorem id_withUnread : (withUnread ticket conv c).id = c.id := by
  unfold withUnread
  cases ticket.party <;> rfl

@[simp] theorem type_withUnread : (withUnread ticket conv c).type = c.type := by
  unfold withUnread
  cases ticket.party <;> rfl

@[simp] theorem id_visibleTo {action : VisibilityAction} :
    (visibleTo userId action conv c).id = c.id := by
  unfold visibleTo
  split_ifs <;> rfl

@[simp] theorem type_visibleTo {action : VisibilityAction} :
    (visibleTo userId action conv c).type = c.type := by
  unfold visibleTo
  split_ifs <;> rfl

end Conversations

/-- A call writes the ticket it holds, or a new one with a new thread, and leaves the types of
conversations as they are. -/
structure Writes (s : Desk) (held : Held) (e : Effect) : Prop where
  ticket : ∀ t', e.ticket = some t' →
    (∃ t, held.ticket = some t ∧ t'.id = t.id ∧ t'.conversationId = t.conversationId) ∨
      s.tickets.find? t'.id = none ∧ s.conversations.find? t'.conversationId = none ∧
        ∃ c, e.conversation = some c ∧ c.id = t'.conversationId ∧ c.type = .support
  conversation : ∀ c, e.conversation = some c → s.conversations.find? c.id = none ∨
    ∃ c₀, s.conversations.find? c.id = some c₀ ∧ c.type = c₀.type

variable {s : Desk} {held : Held} {e : Effect} {now : ℤ} {newId : ℕ} {request : Request}

/-- An update of a conversation that keeps its key and its type. -/
theorem of_updated {conv c : StaysConversation} {f : StaysConversation → StaysConversation}
    (h : updated s conv f = some c) (hid : ∀ c, (f c).id = c.id)
    (htype : ∀ c, (f c).type = c.type) :
    ∃ c₀, s.conversations.find? c.id = some c₀ ∧ c.type = c₀.type := by
  obtain ⟨c₀, hfind, rfl⟩ := Option.map_eq_some_iff.mp h
  refine ⟨c₀, ?_, htype c₀⟩
  rw [hid, Table.key_of_find? hfind]
  exact hfind

@[simp] theorem id_patched (t : SupportTicket) (patch : PatchSupportTicketDto) :
    (t.patched patch now).id = t.id := by
  unfold SupportTicket.patched
  dsimp only
  split <;> rfl

@[simp] theorem conversationId_patched (t : SupportTicket) (patch : PatchSupportTicketDto) :
    (t.patched patch now).conversationId = t.conversationId := by
  unfold SupportTicket.patched
  dsimp only
  split <;> rfl

/-- A conversation that is saved as it was read, but for other columns. -/
theorem of_known {conv c : StaysConversation} (h : Known s conv) (hid : c.id = conv.id)
    (htype : c.type = conv.type) :
    ∃ c₀, s.conversations.find? c.id = some c₀ ∧ c.type = c₀.type := by
  obtain ⟨c₀, hfind, htype₀⟩ := h
  exact ⟨c₀, hid ▸ hfind, htype.trans htype₀.symm⟩

theorem writes_of_effect (hknown : ∀ conv, held.conversation = some conv → Known s conv)
    (h : effect s held now newId request = some e) : Writes s held e := by
  cases request with
  | createTicketForUser userId party category priority language message =>
    simp only [effect] at h
    split_ifs at h with hfree
    cases h
    push Not at hfree
    obtain ⟨hticket, hconv⟩ := hfree
    simp only [Option.not_isSome_iff_eq_none] at hticket hconv
    refine ⟨fun t' ht' => ?_, fun c hc => ?_⟩
    · cases ht'
      exact Or.inr ⟨hticket, hconv, _, rfl, rfl, rfl⟩
    · cases hc
      exact Or.inl hconv
  | patchForAdmin ticketId patch actor =>
    obtain ⟨t, ht, rfl⟩ := Option.map_eq_some_iff.mp h
    refine ⟨fun t' ht' => ?_, fun c hc => ?_⟩
    · cases ht'
      exact Or.inl ⟨t, ht, id_patched t patch, conversationId_patched t patch⟩
    · dsimp only at hc
      split_ifs at hc
      obtain ⟨conv, hconv, rfl⟩ := Option.map_eq_some_iff.mp hc
      exact Or.inr (of_known (hknown conv (Option.filter_eq_some_iff.mp hconv).1) rfl rfl)
  | reopenForAdmin ticketId actor =>
    obtain ⟨t, ht, rfl⟩ := Option.map_eq_some_iff.mp h
    refine ⟨fun t' ht' => ?_, fun c hc => ?_⟩
    · cases ht'
      exact Or.inl ⟨t, ht, rfl, rfl⟩
    · obtain ⟨conv, hconv, rfl⟩ := Option.map_eq_some_iff.mp hc
      exact Or.inr (of_known (hknown conv hconv) rfl rfl)
  | attemptAutoAssignment ticketId routing =>
    simp only [effect] at h
    split at h
    · next t workload ht hworkload =>
      obtain ⟨agentId, -, rfl⟩ := Option.map_eq_some_iff.mp h
      refine ⟨fun t' ht' => ?_, fun c hc => (by cases hc)⟩
      cases ht'
      exact Or.inl ⟨t, ht, rfl, rfl⟩
    · cases h
  | sendAdminMessage ticketId adminUserId body actor =>
    simp only [effect] at h
    split at h
    · next t conv ht hconv =>
      obtain ⟨locked, hlocked, rfl⟩ := Option.map_eq_some_iff.mp h
      refine ⟨fun t' ht' => ?_, fun c hc => ?_⟩
      · cases ht'
        exact Or.inl ⟨t, ht, rfl, rfl⟩
      · cases hc
        refine Or.inr ⟨locked, ?_, by simp⟩
        rw [id_withUnread, id_afterMessage, Table.key_of_find? hlocked]
        exact hlocked
    · cases h
  | createNoteForAdmin ticketId authorAdminId body actor =>
    obtain ⟨t, ht, rfl⟩ := Option.map_eq_some_iff.mp h
    exact ⟨fun t' ht' => (by cases ht'), fun c hc => (by cases hc)⟩
  | send conversationId userId body =>
    obtain ⟨conv, hconv, h⟩ := Option.bind_eq_some_iff.mp h
    obtain ⟨locked, hlocked, rfl⟩ := Option.map_eq_some_iff.mp h
    refine ⟨fun t' ht' => ?_, fun c hc => ?_⟩
    · obtain ⟨t, ht, rfl⟩ := Option.map_eq_some_iff.mp ht'
      exact Or.inl ⟨t, ht, rfl, rfl⟩
    · cases hc
      refine Or.inr ⟨locked, ?_, by simp⟩
      rw [id_unarchive, id_afterMessage, Table.key_of_find? hlocked]
      exact hlocked
  | reopenConversation conversationId userId options =>
    obtain ⟨conv, hconv, rfl⟩ := Option.map_eq_some_iff.mp h
    exact ⟨fun t' ht' => (by cases ht'),
      fun c hc => Or.inr (of_updated hc (fun _ => rfl) fun _ => rfl)⟩
  | block conversationId userId =>
    obtain ⟨conv, hconv, rfl⟩ := Option.map_eq_some_iff.mp h
    exact ⟨fun t' ht' => (by cases ht'),
      fun c hc => Or.inr (of_updated hc (fun _ => rfl) fun _ => rfl)⟩
  | updateVisibility conversationId userId action =>
    obtain ⟨conv, hconv, rfl⟩ := Option.map_eq_some_iff.mp h
    exact ⟨fun t' ht' => (by cases ht'),
      fun c hc => Or.inr (of_updated hc (fun _ => id_visibleTo) fun _ => type_visibleTo)⟩

theorem find?_apply_tickets {id : ℕ} (h : ∀ t, e.ticket = some t → t.id ≠ id) :
    (s.apply e).tickets.find? id = s.tickets.find? id := by
  unfold Desk.apply
  cases hticket : e.ticket with
  | none => rfl
  | some t => exact Table.find?_put_of_ne (Ne.symm (h t hticket))

/-- The rows of tickets after a commit. -/
theorem mem_apply_tickets {t : SupportTicket} (h : t ∈ (s.apply e).tickets.rows) :
    e.ticket = some t ∨ t ∈ s.tickets.rows ∧ ∀ t', e.ticket = some t' → t'.id ≠ t.id := by
  unfold Desk.apply at h
  cases hticket : e.ticket with
  | none => exact Or.inr ⟨by simpa [hticket] using h, fun t' h => (by cases h)⟩
  | some t' =>
    simp only [hticket, Option.map_some, Option.getD_some, Table.mem_put] at h
    obtain rfl | ⟨hmem, hne⟩ := h
    · exact Or.inl rfl
    · exact Or.inr ⟨hmem, fun t'' h => by cases h; exact Ne.symm hne⟩

/-- A commit drops no conversation and changes no type. -/
theorem Writes.known (h : Writes s held e) {conv : StaysConversation} (hconv : Known s conv) :
    Known (s.apply e) conv := by
  obtain ⟨c, hfind, htype⟩ := hconv
  unfold Known Desk.apply
  cases hwritten : e.conversation with
  | none => exact ⟨c, hfind, htype⟩
  | some c' =>
    dsimp only [Option.map_some, Option.getD_some]
    by_cases hid : c'.id = conv.id
    · refine ⟨c', by rw [Table.find?_put, if_pos hid.symm], ?_⟩
      obtain hnone | ⟨c₀, hfind₀, htype₀⟩ := h.conversation c' hwritten
      · simp [hid, hfind] at hnone
      · rw [hid, hfind] at hfind₀
        rw [htype₀, ← Option.some.inj hfind₀, htype]
    · exact ⟨c, by rw [Table.find?_put_of_ne (Ne.symm hid)]; exact hfind, htype⟩

/-- A ticket after a commit was there before, or is new with its thread. -/
theorem Writes.rows (h : Writes s held e)
    (hheld : ∀ t, held.ticket = some t → s.tickets.find? t.id = some t) {t : SupportTicket}
    (ht : t ∈ (s.apply e).tickets.rows) :
    (∃ u ∈ s.tickets.rows, u.id = t.id ∧ u.conversationId = t.conversationId) ∨
      s.conversations.find? t.conversationId = none ∧ e.ticket = some t := by
  obtain hwritten | ⟨hmem, -⟩ := mem_apply_tickets ht
  · obtain ⟨u, hu, hid, hconv⟩ | ⟨-, hnone, -⟩ := h.ticket t hwritten
    · exact Or.inl ⟨u, Table.mem_of_find? (hheld u hu), hid.symm, hconv.symm⟩
    · exact Or.inr ⟨hnone, hwritten⟩
  · exact Or.inl ⟨t, hmem, rfl, rfl⟩

theorem Writes.linked (h : Writes s held e)
    (hheld : ∀ t, held.ticket = some t → s.tickets.find? t.id = some t) (hs : Linked s) :
    Linked (s.apply e) := by
  have hpresent : ∀ u ∈ s.tickets.rows, s.conversations.find? u.conversationId ≠ none := by
    intro u hu hnone
    obtain ⟨c, hfind, -⟩ := hs.thread u hu
    simp [hnone] at hfind
  refine ⟨fun t ht => ?_, fun t ht u hu hsame => ?_⟩
  · obtain ⟨u, hu, -, hconv⟩ | ⟨hnone, hwritten⟩ := h.rows hheld ht
    · obtain ⟨c, hfind, htype⟩ := hs.thread u hu
      have hknown : Known s c := ⟨c, by rw [Table.key_of_find? hfind]; exact hfind, rfl⟩
      obtain ⟨c', hfind', htype'⟩ := h.known hknown
      rw [Table.key_of_find? hfind, hconv] at hfind'
      exact ⟨c', hfind', htype'.trans htype⟩
    · obtain ⟨u, hu, hid, hconv⟩ | ⟨-, -, c, hc, hid, htype⟩ := h.ticket t hwritten
      · exact absurd (hconv ▸ hnone) (hpresent u (Table.mem_of_find? (hheld u hu)))
      · refine ⟨c, ?_, htype⟩
        unfold Desk.apply
        simp [hc, hid]
  · have hkey : ∀ {t u : SupportTicket}, t ∈ (s.apply e).tickets.rows →
        u ∈ (s.apply e).tickets.rows → t.id = u.id → t = u :=
      fun ht hu hid => Table.eq_of_key_eq _ ht hu hid
    obtain ⟨t₀, ht₀, htid, htconv⟩ | ⟨htnone, htw⟩ := h.rows hheld ht <;>
      obtain ⟨u₀, hu₀, huid, huconv⟩ | ⟨hunone, huw⟩ := h.rows hheld hu
    · have hsame₀ : t₀ = u₀ := hs.apart t₀ ht₀ u₀ hu₀ (by rw [htconv, huconv, hsame])
      exact hkey ht hu (by rw [← htid, ← huid, hsame₀])
    · exact absurd (by rw [htconv, hsame, hunone]) (hpresent t₀ ht₀)
    · exact absurd (by rw [huconv, ← hsame, htnone]) (hpresent u₀ hu₀)
    · exact Option.some.inj (htw.symm.trans huw)

/-- The conversation that a call is about, and its ticket. -/
def Addressed (s : Desk) (held : Held) : Request → Prop
  | .send _ _ _ => ∀ conv, held.conversation = some conv →
      ∀ t ∈ s.tickets.rows, t.conversationId = conv.id → ∃ u, held.ticket = some u ∧ u.id = t.id
  | .sendAdminMessage _ _ _ _ => ∀ conv, held.conversation = some conv →
      ∃ t, held.ticket = some t ∧ conv.id = t.conversationId
  | _ => True

/-- A transaction holds the lock of its ticket, whose row is the one that it has checked. -/
structure Behind (requests : ℕ → Request) (sys : System) (i : ℕ) (held : Held) : Prop where
  locked : ∀ t, held.ticket = some t → sys.holder t.id = some i ∧
    sys.desk.tickets.find? t.id = some t
  checked : check held.ticket held.conversation (requests i) = .ok ()
  known : ∀ conv, held.conversation = some conv → Known sys.desk conv
  addressed : Addressed sys.desk held (requests i)

structure Orderly (requests : ℕ → Request) (sys : System) : Prop where
  linked : Linked sys.desk
  behind : ∀ i held, sys.stages i = .holding held → Behind requests sys i held
  looked : ∀ i conv, sys.stages i = .looked (some conv) → Known sys.desk conv

variable {requests : ℕ → Request} {sys sys' : System} {action : Action}

theorem Addressed.later {s s' : Desk} (h : Addressed s held request)
    (hheld : ∀ conv, held.conversation = some conv → Known s conv)
    (hrows : ∀ t ∈ s'.tickets.rows,
      (∃ u ∈ s.tickets.rows, u.id = t.id ∧ u.conversationId = t.conversationId) ∨
        s.conversations.find? t.conversationId = none) : Addressed s' held request := by
  cases request with
  | send conversationId userId body =>
    intro conv hconv t ht hsame
    obtain ⟨u, hu, hid, huconv⟩ | hnone := hrows t ht
    · obtain ⟨v, hv, hvid⟩ := h conv hconv u hu (huconv.trans hsame)
      exact ⟨v, hv, hvid.trans hid⟩
    · obtain ⟨c, hfind, -⟩ := hheld conv hconv
      simp [hsame, hfind] at hnone
  | sendAdminMessage => exact h
  | _ => trivial

/-- One call moves on, and takes from the others neither a lock nor a row. -/
theorem Orderly.move (h : Orderly requests sys) {i : ℕ} {desk : Desk} {holder : ℕ → Option ℕ}
    {assigning : Option ℕ} {stage : Stage} (hlinked : Linked desk)
    (hknown : ∀ conv, Known sys.desk conv → Known desk conv)
    (hrows : ∀ t ∈ desk.tickets.rows,
      (∃ u ∈ sys.desk.tickets.rows, u.id = t.id ∧ u.conversationId = t.conversationId) ∨
        sys.desk.conversations.find? t.conversationId = none)
    (hothers : ∀ j, j ≠ i → ∀ t, sys.holder t.id = some j → sys.desk.tickets.find? t.id = some t →
      holder t.id = some j ∧ desk.tickets.find? t.id = some t)
    (hself : ∀ held, stage = .holding held →
      Behind requests ⟨desk, holder, assigning, Function.update sys.stages i stage⟩ i held)
    (hlooked : ∀ conv, stage = .looked (some conv) → Known desk conv) :
    Orderly requests ⟨desk, holder, assigning, Function.update sys.stages i stage⟩ := by
  refine ⟨hlinked, fun j held hstage => ?_, fun j conv hstage => ?_⟩
  · by_cases hj : j = i
    · subst hj
      exact hself held ((Function.update_self _ _ _).symm.trans hstage)
    · have hbefore := h.behind j held ((Function.update_of_ne hj _ _).symm.trans hstage)
      refine ⟨fun t ht => ?_, hbefore.checked, fun conv hconv => hknown conv (hbefore.known conv hconv),
        hbefore.addressed.later hbefore.known hrows⟩
      obtain ⟨hholder, hfind⟩ := hbefore.locked t ht
      exact hothers j hj t hholder hfind
  · by_cases hj : j = i
    · subst hj
      exact hlooked conv ((Function.update_self _ _ _).symm.trans hstage)
    · exact hknown conv (h.looked j conv ((Function.update_of_ne hj _ _).symm.trans hstage))

/-- A call that ends. -/
theorem Orderly.release (h : Orderly requests sys) (desk : Desk) {i : ℕ}
    {result : Except MessagingError Unit} (hlinked : Linked desk)
    (hknown : ∀ conv, Known sys.desk conv → Known desk conv)
    (hrows : ∀ t ∈ desk.tickets.rows,
      (∃ u ∈ sys.desk.tickets.rows, u.id = t.id ∧ u.conversationId = t.conversationId) ∨
        sys.desk.conversations.find? t.conversationId = none)
    (hothers : ∀ j, j ≠ i → ∀ t, sys.holder t.id = some j → sys.desk.tickets.find? t.id = some t →
      desk.tickets.find? t.id = some t) :
    Orderly requests (System.release { sys with desk := desk } i result) := by
  refine h.move hlinked hknown hrows (fun j hj t hholder hfind => ⟨?_, hothers j hj t hholder hfind⟩)
    (fun held hstage => by cases hstage) fun conv hstage => by cases hstage
  have hne : sys.holder t.id ≠ some i := fun hi => hj (Option.some.inj (hholder.symm.trans hi))
  rw [if_neg hne]
  exact hholder

/-- A call that ends without having written. -/
theorem Orderly.ended (h : Orderly requests sys) {i : ℕ} {result : Except MessagingError Unit} :
    Orderly requests (sys.release i result) :=
  h.release sys.desk h.linked (fun _ hknown => hknown)
    (fun t ht => Or.inl ⟨t, ht, rfl, rfl⟩) fun _ _ _ _ hfind => hfind

theorem mem_of_target {conv : Option StaysConversation} {t : SupportTicket}
    (h : target s conv request = some t) : t ∈ s.tickets.rows := by
  cases request with
  | patchForAdmin | reopenForAdmin | attemptAutoAssignment | sendAdminMessage | createNoteForAdmin =>
    exact Table.mem_of_find? h
  | send =>
    obtain ⟨c, -, hfound⟩ := Option.bind_eq_some_iff.mp h
    exact List.mem_of_find?_eq_some hfound
  | createTicketForUser | reopenConversation | block | updateVisibility => cases h

/-- The ticket that is locked for a message is the one of its thread. -/
theorem addressed_target {conv : Option StaysConversation} (hs : Linked s)
    (hconv : ∀ c, conv = some c → Known s c) :
    Addressed s ⟨target s conv request, thread s conv (target s conv request) request, none⟩
      request := by
  cases request with
  | send conversationId userId body =>
    intro c hc t ht hsame
    obtain rfl : conv = some c := hc
    obtain ⟨c₀, hfind₀, htype₀⟩ := hs.thread t ht
    obtain ⟨c₁, hfind₁, htype₁⟩ := hconv c rfl
    rw [hsame, hfind₁] at hfind₀
    obtain rfl := Option.some.inj hfind₀
    have htype : c.type = .support := htype₁.symm.trans htype₀
    have hfound : ∃ u, ticketOfThread s c.id = some u := by
      rw [← Option.isSome_iff_exists, ticketOfThread, List.find?_isSome]
      exact ⟨t, ht, by simpa using hsame⟩
    obtain ⟨u, hu⟩ := hfound
    have huconv : u.conversationId = c.id := by simpa using List.find?_some hu
    have hut : u = t := hs.apart u (List.mem_of_find?_eq_some hu) t ht (huconv.trans hsame.symm)
    refine ⟨u, ?_, congrArg SupportTicket.key hut⟩
    show target s (some c) (.send conversationId userId body) = some u
    rw [target, Option.filter_some_pos (by simpa using htype), Option.bind_some, hu]
  | sendAdminMessage ticketId adminUserId body actor =>
    intro c hc
    obtain ⟨t, ht, hfind⟩ := Option.bind_eq_some_iff.mp hc
    exact ⟨t, ht, Table.key_of_find? hfind⟩
  | _ => trivial

/-- The conversation that a transaction reads, or has read before, is there. -/
theorem known_thread {conv : Option StaysConversation} {ticket : Option SupportTicket}
    (hconv : ∀ c, conv = some c → Known s c) {c : StaysConversation}
    (hc : thread s conv ticket request = some c) : Known s c := by
  cases request with
  | patchForAdmin | reopenForAdmin | sendAdminMessage =>
    obtain ⟨t, -, hfind⟩ := Option.bind_eq_some_iff.mp hc
    exact ⟨c, by rw [Table.key_of_find? hfind]; exact hfind, rfl⟩
  | createTicketForUser | attemptAutoAssignment | createNoteForAdmin | send | reopenConversation
  | block | updateVisibility => exact hconv c hc

theorem Orderly.take (h : Orderly requests sys) {i : ℕ} {conv : Option StaysConversation}
    (hstage : sys.stages i = .looked conv) (htake : sys.take i (requests i) conv = some sys') :
    Orderly requests sys' := by
  unfold System.take at htake
  dsimp only at htake
  split at htake
  · cases htake
  next hlocks =>
  have hfree : (target sys.desk conv (requests i)).bind (fun t => sys.holder t.id) = none := by
    simpa using fun h => hlocks (Or.inl h)
  split at htake
  · cases htake
    exact h.ended
  · next hcheck =>
    cases htake
    refine h.move h.linked (fun _ hknown => hknown) (fun t ht => Or.inl ⟨t, ht, rfl, rfl⟩)
      (fun j hj t hholder hfind => ⟨?_, hfind⟩) (fun held hheld => ?_) (fun c hc => by cases hc)
    · rw [if_neg, hholder]
      intro hkey
      obtain ⟨u, hu, huid⟩ := Option.map_eq_some_iff.mp hkey
      rw [hu, Option.bind_some, show u.id = t.id from huid, hholder] at hfree
      cases hfree
    · cases hheld
      have hconv : ∀ c, conv = some c → Known sys.desk c := by
        rintro c rfl
        exact h.looked i c hstage
      refine ⟨fun t ht => ⟨?_, Table.find?_key (mem_of_target ht)⟩, hcheck,
        fun c hc => known_thread hconv hc, addressed_target h.linked hconv⟩
      exact if_pos (congrArg (Option.map SupportTicket.key) ht)

/-- A customer's call goes on with a conversation that is there. -/
theorem known_of_look {conv : StaysConversation} (h : look s request = .ok (some conv)) :
    Known s conv := by
  have hread : ∀ {conversationId userId : ℕ} {c : StaysConversation},
      (s.conversations.find? conversationId).filter (fun c => isParticipant c userId {}) = some c →
        Known s c := by
    intro conversationId userId c hfound
    obtain ⟨hfind, -⟩ := Option.filter_eq_some_iff.mp hfound
    exact ⟨c, by rw [Table.key_of_find? hfind]; exact hfind, rfl⟩
  cases request with
  | send | reopenConversation | block | updateVisibility =>
    unfold look at h
    dsimp only at h
    split at h
    · cases h
    · next c hfound =>
      first
        | cases h; exact hread hfound
        | split_ifs at h; cases h; exact hread hfound
  | reopenForAdmin | sendAdminMessage | createNoteForAdmin =>
    unfold look at h
    dsimp only at h
    split_ifs at h
    cases h
  | patchForAdmin | createTicketForUser | attemptAutoAssignment => cases h

/-- Every step keeps the order. -/
theorem Orderly.step (h : Orderly requests sys) (hstep : step requests sys action = some sys') :
    Orderly requests sys' := by
  cases action with
  | look i =>
    simp only [SupportTickets.step] at hstep
    split at hstep
    · split at hstep
      · cases hstep
        exact h.ended
      · next conv hlook =>
        cases hstep
        refine h.move h.linked (fun _ hknown => hknown) (fun t ht => Or.inl ⟨t, ht, rfl, rfl⟩)
          (fun j _ t hholder hfind => ⟨hholder, hfind⟩) (fun held hheld => by cases hheld)
          (fun c hc => ?_)
        cases hc
        exact known_of_look hlook
    · cases hstep
  | lock i =>
    simp only [SupportTickets.step] at hstep
    split at hstep
    · next conv hstage => exact h.take hstage hstep
    · cases hstep
  | count i =>
    simp only [SupportTickets.step] at hstep
    split at hstep
    · next ticket conv ticketId routing hstage hrequest =>
      cases hstep
      have hbefore := h.behind i _ hstage
      refine h.move h.linked (fun _ hknown => hknown) (fun t ht => Or.inl ⟨t, ht, rfl, rfl⟩)
        (fun j _ t hholder hfind => ⟨hholder, hfind⟩) (fun held hheld => ?_)
        (fun c hc => by cases hc)
      cases hheld
      refine ⟨hbefore.locked, hbefore.checked, hbefore.known, ?_⟩
      rw [hrequest]
      trivial
    · cases hstep
  | commit i now newId =>
    simp only [SupportTickets.step] at hstep
    split at hstep
    · next held hstage =>
      split at hstep
      · cases hstep
        exact h.ended
      · next e heffect =>
        cases hstep
        have hwrites := writes_of_effect (h.behind i held hstage).known heffect
        have hlocked := (h.behind i held hstage).locked
        have hheld : ∀ t, held.ticket = some t → sys.desk.tickets.find? t.id = some t :=
          fun t ht => (hlocked t ht).2
        refine h.release _ (hwrites.linked hheld h.linked) (fun _ hknown => hwrites.known hknown)
          (fun t ht => ?_) (fun j hj t hholder hfind => ?_)
        · obtain hold | ⟨hnone, -⟩ := hwrites.rows hheld ht
          · exact Or.inl hold
          · exact Or.inr hnone
        · rw [find?_apply_tickets, hfind]
          intro t' ht' hid
          obtain ⟨u, hu, huid, -⟩ | ⟨hnone, -⟩ := hwrites.ticket t' ht'
          · have hi := (hlocked u hu).1
            rw [← huid, hid, hholder] at hi
            exact hj (Option.some.inj hi)
          · rw [hid, hfind] at hnone
            cases hnone
    · cases hstep
  | fail i =>
    simp only [SupportTickets.step] at hstep
    split at hstep
    · cases hstep
    · cases hstep
      exact h.ended

def messagesIn (s : Desk) (conversationId : ℕ) : List StaysMessage :=
  s.messages.filter fun m => m.conversationId = conversationId

def notesOn (s : Desk) (ticketId : ℕ) : List StaysSupportTicketNote :=
  s.notes.filter fun n => n.ticketId = ticketId

/-- The member of staff who writes with the call. -/
def staff : Request → Option SupportStaffActor
  | .sendAdminMessage _ _ _ actor | .createNoteForAdmin _ _ _ actor => some actor
  | _ => none

def sends : Request → Bool
  | .send _ _ _ => true
  | _ => false

def caller : Action → ℕ
  | .look i | .lock i | .count i | .commit i _ _ | .fail i => i

/-- No message reaches a closed ticket, an agent writes on a ticket of theirs only, and what a
customer sends opens no closed ticket. -/
structure Guarded (requests : ℕ → Request) (sys : System) (action : Action) (sys' : System) :
    Prop where
  unclosed : ∀ t ∈ sys.desk.tickets.rows,
    messagesIn sys'.desk t.conversationId ≠ messagesIn sys.desk t.conversationId →
      t.status ≠ .closed
  assigned : ∀ t ∈ sys.desk.tickets.rows,
    (messagesIn sys'.desk t.conversationId ≠ messagesIn sys.desk t.conversationId ∨
      notesOn sys'.desk t.id ≠ notesOn sys.desk t.id) →
      ∀ actor, staff (requests (caller action)) = some actor → actor.role = .supportAgent →
        t.assignedAdminId = some actor.userId
  customer : sends (requests (caller action)) = true → ∀ t ∈ sys.desk.tickets.rows,
    t.status = .closed → ∃ t', sys'.desk.tickets.find? t.id = some t' ∧ t'.status = .closed

theorem guarded_of_desk_eq (h : sys'.desk = sys.desk) : Guarded requests sys action sys' :=
  ⟨fun t _ hne => absurd (by rw [h]) hne,
    fun t _ hne => by
      obtain hne | hne := hne <;> exact absurd (by rw [h]) hne,
    fun _ t ht hclosed => ⟨t, h ▸ Table.find?_key ht, hclosed⟩⟩

section Written

variable {i : ℕ}

/-- The call puts a message of a participant or of staff into a thread that is there. -/
def Answers (request : Request) : Prop :=
  sends request = true ∨ ∃ ticketId adminUserId body actor,
    request = .sendAdminMessage ticketId adminUserId body actor

/-- A message goes to the thread of the ticket that is held. -/
theorem held_of_message (h : Orderly requests sys) (hbehind : Behind requests sys i held)
    (heffect : effect sys.desk held now newId (requests i) = some e) {m : StaysMessage}
    (hm : e.message = some m) {t : SupportTicket} (ht : t ∈ sys.desk.tickets.rows)
    (hsame : m.conversationId = t.conversationId) :
    held.ticket = some t ∧ Answers (requests i) := by
  have haddressed := hbehind.addressed
  cases hrequest : requests i with
  | createTicketForUser userId party category priority language message =>
    rw [hrequest] at heffect
    simp only [effect] at heffect
    split_ifs at heffect with hfree
    cases heffect
    cases hm
    have hnone : sys.desk.conversations.find? newId = none := by
      simpa using fun hsome => hfree (Or.inr hsome)
    obtain ⟨c, hfind, -⟩ := h.linked.thread t ht
    have hid : newId = t.conversationId := hsame
    rw [← hid, hnone] at hfind
    cases hfind
  | sendAdminMessage ticketId adminUserId body actor =>
    rw [hrequest] at heffect haddressed
    simp only [effect] at heffect
    split at heffect
    · next u conv hu hconv =>
      obtain ⟨locked, -, rfl⟩ := Option.map_eq_some_iff.mp heffect
      cases hm
      obtain ⟨v, hv, hid⟩ := haddressed conv hconv
      obtain rfl : u = v := Option.some.inj (hu.symm.trans hv)
      have hmem := Table.mem_of_find? (hbehind.locked u hu).2
      refine ⟨?_, Or.inr ⟨ticketId, adminUserId, body, actor, rfl⟩⟩
      rw [hu, h.linked.apart u hmem t ht (hid.symm.trans hsame)]
    · cases heffect
  | send conversationId userId body =>
    rw [hrequest] at heffect haddressed
    obtain ⟨conv, hconv, heffect⟩ := Option.bind_eq_some_iff.mp heffect
    obtain ⟨locked, -, rfl⟩ := Option.map_eq_some_iff.mp heffect
    cases hm
    obtain ⟨u, hu, hid⟩ := haddressed conv hconv t ht hsame.symm
    have hmem := Table.mem_of_find? (hbehind.locked u hu).2
    refine ⟨?_, Or.inl rfl⟩
    rw [hu, Table.eq_of_key_eq _ hmem ht hid]
  | patchForAdmin | reopenForAdmin | createNoteForAdmin =>
    rw [hrequest] at heffect
    obtain ⟨u, -, rfl⟩ := Option.map_eq_some_iff.mp heffect
    cases hm
  | attemptAutoAssignment ticketId routing =>
    rw [hrequest] at heffect
    simp only [effect] at heffect
    split at heffect
    · obtain ⟨agentId, -, rfl⟩ := Option.map_eq_some_iff.mp heffect
      cases hm
    · cases heffect
  | reopenConversation | block | updateVisibility =>
    rw [hrequest] at heffect
    obtain ⟨conv, -, rfl⟩ := Option.map_eq_some_iff.mp heffect
    cases hm

/-- A note goes to the ticket that is held. -/
theorem held_of_note (heffect : effect s held now newId request = some e)
    {n : StaysSupportTicketNote} (hn : e.note = some n) :
    ∃ t, held.ticket = some t ∧ n.ticketId = t.id := by
  cases request with
  | createNoteForAdmin ticketId authorAdminId body actor =>
    obtain ⟨t, ht, rfl⟩ := Option.map_eq_some_iff.mp heffect
    cases hn
    exact ⟨t, ht, rfl⟩
  | createTicketForUser =>
    simp only [effect] at heffect
    split_ifs at heffect
    cases heffect
    cases hn
  | sendAdminMessage | attemptAutoAssignment =>
    simp only [effect] at heffect
    split at heffect
    · obtain ⟨_, -, rfl⟩ := Option.map_eq_some_iff.mp heffect
      cases hn
    · cases heffect
  | send =>
    obtain ⟨conv, -, heffect⟩ := Option.bind_eq_some_iff.mp heffect
    obtain ⟨locked, -, rfl⟩ := Option.map_eq_some_iff.mp heffect
    cases hn
  | patchForAdmin | reopenForAdmin | reopenConversation | block | updateVisibility =>
    obtain ⟨_, -, rfl⟩ := Option.map_eq_some_iff.mp heffect
    cases hn

/-- The checks of a call that writes a message have found the ticket unclosed. -/
theorem unclosed_of_check {t : SupportTicket} {conv : Option StaysConversation}
    (hcheck : check (some t) conv request = .ok ())
    (hanswers : Answers request) : t.status ≠ .closed := by
  intro hclosed
  obtain hsends | ⟨ticketId, adminUserId, body, actor, rfl⟩ := hanswers
  · cases request with
    | send => simp [check, hclosed] at hcheck
    | _ => cases hsends
  · simp only [check, hclosed] at hcheck
    split_ifs at hcheck

/-- The checks of a call of staff have found the ticket open to them. -/
theorem access_of_check {t : SupportTicket} {conv : Option StaysConversation}
    {actor : SupportStaffActor} (hcheck : check (some t) conv request = .ok ())
    (hstaff : staff request = some actor) : canAccessTicket t.toStaysSupportTicket actor := by
  by_contra hno
  cases request with
  | sendAdminMessage | createNoteForAdmin =>
    obtain rfl := Option.some.inj hstaff
    simp [check, hno] at hcheck
  | _ => cases hstaff

theorem ne_messagesIn {conversationId : ℕ}
    (h : messagesIn (s.apply e) conversationId ≠ messagesIn s conversationId) :
    ∃ m, e.message = some m ∧ m.conversationId = conversationId := by
  unfold messagesIn Desk.apply at h
  cases hm : e.message with
  | none => simp [hm] at h
  | some m =>
    refine ⟨m, rfl, ?_⟩
    by_contra hne
    simp [hm, List.filter_append, hne] at h

theorem ne_notesOn {ticketId : ℕ} (h : notesOn (s.apply e) ticketId ≠ notesOn s ticketId) :
    ∃ n, e.note = some n ∧ n.ticketId = ticketId := by
  unfold notesOn Desk.apply at h
  cases hn : e.note with
  | none => simp [hn] at h
  | some n =>
    refine ⟨n, rfl, ?_⟩
    by_contra hne
    simp [hn, List.filter_append, hne] at h

/-- What a customer sends leaves a closed ticket closed. -/
theorem closed_of_send (hbehind : Behind requests sys i held)
    (hsends : sends (requests i) = true)
    (heffect : effect sys.desk held now newId (requests i) = some e) {t : SupportTicket}
    (ht : t ∈ sys.desk.tickets.rows) (hclosed : t.status = .closed) :
    (sys.desk.apply e).tickets.find? t.id = some t := by
  have hchecked := hbehind.checked
  have hfind : sys.desk.tickets.find? t.id = some t := Table.find?_key ht
  rw [find?_apply_tickets, hfind]
  intro t' ht' hid
  cases hrequest : requests i with
  | send conversationId userId body =>
    rw [hrequest] at heffect hchecked
    obtain ⟨conv, -, heffect⟩ := Option.bind_eq_some_iff.mp heffect
    obtain ⟨locked, -, rfl⟩ := Option.map_eq_some_iff.mp heffect
    obtain ⟨u, hu, rfl⟩ := Option.map_eq_some_iff.mp ht'
    have hmem := Table.mem_of_find? (hbehind.locked u hu).2
    have hut : u = t := Table.eq_of_key_eq _ hmem ht hid
    rw [hu] at hchecked
    exact unclosed_of_check hchecked (Or.inl rfl) (hut ▸ hclosed)
  | _ =>
    rw [hrequest] at hsends
    cases hsends

end Written

/-- A step leaves the rows as they are, or is a commit. -/
theorem desk_cases (hstep : SupportTickets.step requests sys action = some sys') :
    sys'.desk = sys.desk ∨ ∃ i now newId held e, action = .commit i now newId ∧
      sys.stages i = .holding held ∧ effect sys.desk held now newId (requests i) = some e ∧
      sys'.desk = sys.desk.apply e := by
  cases action with
  | look i =>
    simp only [SupportTickets.step] at hstep
    split at hstep
    · split at hstep <;> cases hstep <;> exact Or.inl rfl
    · cases hstep
  | lock i =>
    simp only [SupportTickets.step] at hstep
    split at hstep
    · unfold System.take at hstep
      dsimp only at hstep
      split at hstep
      · cases hstep
      · split at hstep <;> cases hstep <;> exact Or.inl rfl
    · cases hstep
  | count i =>
    simp only [SupportTickets.step] at hstep
    split at hstep
    · cases hstep
      exact Or.inl rfl
    · cases hstep
  | commit i now newId =>
    simp only [SupportTickets.step] at hstep
    split at hstep
    · next held hstage =>
      split at hstep
      · cases hstep
        exact Or.inl rfl
      · next e heffect =>
        cases hstep
        exact Or.inr ⟨i, now, newId, held, e, rfl, hstage, heffect, rfl⟩
    · cases hstep
  | fail i =>
    simp only [SupportTickets.step] at hstep
    split at hstep
    · cases hstep
    · cases hstep
      exact Or.inl rfl

/-- Every step of an orderly system is guarded. -/
theorem Orderly.guarded (h : Orderly requests sys)
    (hstep : SupportTickets.step requests sys action = some sys') :
    Guarded requests sys action sys' := by
  obtain hsame | ⟨i, now, newId, held, e, rfl, hstage, heffect, hdesk⟩ := desk_cases hstep
  · exact guarded_of_desk_eq hsame
  have hbehind := h.behind i held hstage
  refine ⟨fun t ht hne => ?_, fun t ht hne actor hstaff hrole => ?_, fun hsends t ht hclosed => ?_⟩
  · rw [hdesk] at hne
    obtain ⟨m, hm, hsame⟩ := ne_messagesIn hne
    obtain ⟨hheld, hanswers⟩ := held_of_message h hbehind heffect hm ht hsame
    exact unclosed_of_check (hheld ▸ hbehind.checked) hanswers
  · rw [hdesk] at hne
    have hheld : held.ticket = some t := by
      obtain hne | hne := hne
      · obtain ⟨m, hm, hsame⟩ := ne_messagesIn hne
        exact (held_of_message h hbehind heffect hm ht hsame).1
      · obtain ⟨n, hn, hsame⟩ := ne_notesOn hne
        obtain ⟨u, hu, hid⟩ := held_of_note heffect hn
        have hmem := Table.mem_of_find? (hbehind.locked u hu).2
        rw [hu, Table.eq_of_key_eq _ hmem ht (hid.symm.trans hsame)]
    obtain hadmin | hassigned := access_of_check (hheld ▸ hbehind.checked) hstaff
    · rw [hrole] at hadmin
      cases hadmin
    · exact hassigned
  · exact ⟨t, hdesk ▸ closed_of_send hbehind hsends heffect ht hclosed, hclosed⟩

theorem orderly_start {desk : Desk} (hdesk : Linked desk) : Orderly requests (start desk) :=
  ⟨hdesk, fun _ _ hstage => (by cases hstage), fun _ _ hstage => (by cases hstage)⟩

theorem orderly_of_run {desk : Desk} (hdesk : Linked desk)
    {ok : System → Action → System → Prop} (hrun : Run requests ok (start desk) sys) :
    Orderly requests sys := by
  induction hrun with
  | refl => exact orderly_start hdesk
  | tail _ hstep _ ih => exact ih.step hstep

/-- Nobody writes on a closed ticket, and no agent on a ticket of somebody else, in any run. -/
theorem writes_guarded {desk : Desk} (hdesk : Linked desk)
    (hrun : Run requests (fun _ _ _ => True) (start desk) sys)
    (hstep : step requests sys action = some sys') : Guarded requests sys action sys' :=
  (orderly_of_run hdesk hrun).guarded hstep

/-- A guest's ticket, assigned to an agent. -/
def oneTicket (status : SupportTicketStatus) : Desk :=
  { tickets := Table.empty.put
      { newTicket 1 1 10 .guest "PAYMENT" .normal none with status, assignedAdminId := some 7 }
    conversations := Table.empty.put (newConversation 1 10 .guest)
    messages := []
    notes := [] }

theorem linked_oneTicket (status : SupportTicketStatus) : Linked (oneTicket status) := by
  refine ⟨fun t ht => ?_, fun t ht u hu _ => ?_⟩
  · obtain rfl := List.mem_singleton.mp ht
    exact ⟨_, rfl, rfl⟩
  · rw [List.mem_singleton.mp ht, List.mem_singleton.mp hu]

/-- The message of a guest on an open ticket. -/
theorem writes_guarded_sent : ∃ sys sys',
    step (fun _ => .send 1 10 "Hello") sys (.commit 0 5 2) = some sys' ∧
      Guarded (fun _ => .send 1 10 "Hello") sys (.commit 0 5 2) sys' := by
  have hrun : Run (fun _ => .send 1 10 "Hello") (fun _ _ _ => True) (start (oneTicket .open)) _ :=
    .tail (a := .lock 0) (.tail (a := .look 0) .refl rfl trivial) rfl trivial
  exact ⟨_, _, rfl, writes_guarded (linked_oneTicket .open) hrun rfl⟩

end NexaStays.TicketLocks
