import NexaStays.TicketLocks

/-!
# Automatic assignments

An assignment takes an unassigned ticket and keeps its agent within the capacity, in the runs in
which the ticket that it locks is an active one and no other call adds to the load of an agent
between its count and its commit.
-/
namespace NexaStays.TicketCapacity

open NexaStays.KeyedTable NexaStays.MessagingStore NexaStays.SupportTickets NexaStays.TicketLocks
open NexaStays.SupportRouting (RoutingAgentWorkload Assignment assignLocked activeStatuses
  assignedOf emptyWorkload)

/-- The ticket is an active one of the agent. -/
def counts (agentId : ℕ) (t : SupportTicket) : Bool :=
  t.status ∈ activeStatuses ∧ t.assignedAdminId = some agentId

/-- The active tickets of an agent. -/
def load (s : Desk) (agentId : ℕ) : ℕ := s.tickets.rows.countP (counts agentId)

/-- The tickets of an agent, as an assignment has counted them. -/
def counted (workload : List (ℕ × RoutingAgentWorkload)) (agentId : ℕ) : ℕ :=
  ((((workload.filter fun row => row.1 = agentId).getLast?).map (·.2)).getD emptyWorkload).assigned

/-- A table has at most one row more of a kind after a row is overwritten. -/
theorem countP_overwrite_le {ρ κ : Type} [DecidableEq κ] {key : ρ → κ} (p : ρ → Bool) (r : ρ)
    {rows : List ρ} (hrows : (rows.map key).Nodup) :
    (rows.map fun x => if key x = key r then r else x).countP p ≤ rows.countP p + 1 := by
  induction rows with
  | nil => simp
  | cons x rows ih =>
    obtain ⟨hx, hnodup⟩ := List.nodup_cons.mp hrows
    rw [List.map_cons, List.countP_cons, List.countP_cons]
    by_cases hkey : key x = key r
    · have hrest : (rows.map fun x => if key x = key r then r else x) = rows := by
        refine (List.map_congr_left fun y hy => ?_).trans (List.map_id _)
        have hne : key y ≠ key r := fun hyr =>
          hx (List.mem_map.mpr ⟨y, hy, hyr.trans hkey.symm⟩)
        rw [if_neg hne, id]
      rw [hrest, if_pos hkey]
      split_ifs <;> omega
    · rw [if_neg hkey]
      have := ih hnodup
      omega

theorem load_apply_le {s : Desk} {e : Effect} {t : SupportTicket} (he : e.ticket = some t)
    (ht : ∃ u, s.tickets.find? t.id = some u) (agentId : ℕ) :
    load (s.apply e) agentId ≤ load s agentId + 1 := by
  obtain ⟨u, hu⟩ := ht
  have hrows : (s.apply e).tickets.rows =
      s.tickets.rows.map fun x => if x.key = t.key then t else x := by
    unfold Desk.apply
    rw [he]
    exact Table.rows_put_of_present hu
  unfold load
  rw [hrows]
  exact countP_overwrite_le (counts agentId) t s.tickets.nodup

/-- The count of an agent is the load at that moment. -/
theorem counted_query (s : Desk) (routing : Routing) (agentId : ℕ) :
    counted (queryAssignedAgentWorkload s routing) agentId = load s agentId := by
  have hload : load s agentId =
      ((s.tickets.rows.filter fun t => t.status ∈ activeStatuses).filter fun t =>
        t.assignedAdminId = some agentId).length := by
    rw [load, List.countP_eq_length_filter, List.filter_filter]
    congr 1
    refine List.filter_congr fun t _ => ?_
    simp [counts, Bool.and_comm]
  rw [hload]
  unfold counted queryAssignedAgentWorkload
  dsimp only
  generalize hactive : (s.tickets.rows.filter fun t => t.status ∈ activeStatuses) = active
  have hfilter (l : List ℕ) (f : ℕ → RoutingAgentWorkload) :
      (l.map fun id => (id, f id)).filter (fun row => row.1 = agentId) =
        List.replicate (l.count agentId) (agentId, f agentId) := by
    rw [List.filter_map, show ((fun row : ℕ × RoutingAgentWorkload => decide (row.1 = agentId)) ∘
      fun id => (id, f id)) = fun id => decide (id = agentId) from rfl, List.filter_eq,
      List.map_replicate]
  rw [hfilter, List.getLast?_replicate]
  split_ifs with hcount
  · have hnone : agentId ∉ active.filterMap fun t => t.assignedAdminId := by
      rw [← List.mem_eraseDups]
      exact List.count_eq_zero.mp hcount
    have hempty : (active.filter fun t => t.assignedAdminId = some agentId) = [] := by
      refine List.filter_eq_nil_iff.mpr fun t ht hassigned => hnone ?_
      exact List.mem_filterMap.mpr ⟨t, ht, by simpa using hassigned⟩
    rw [hempty]
    rfl
  · rfl

/-- Who is found for an unassigned ticket is below the capacity. -/
theorem of_assignLocked {x : Assignment ℕ} {agentId : ℕ} (h : (assignLocked x).1 = some agentId) :
    (∃ ticket, x.ticket = some ticket ∧ ticket.assignedAdminId = none) ∧
      counted x.workloadRows agentId < x.maxActive := by
  unfold assignLocked at h
  split_ifs at h
  split at h
  · cases h
  next ticket hticket =>
  obtain ⟨hread, hunassigned⟩ := Option.filter_eq_some_iff.mp hticket
  split_ifs at h
  obtain ⟨heligible, hlt⟩ := SupportRouting.Assignment.mem_tier (SupportRouting.search_some h).1
  refine ⟨⟨ticket, hread, of_decide_eq_true hunassigned⟩, ?_⟩
  have hworkload : assignedOf x.workloads agentId = counted x.workloadRows agentId := by
    unfold assignedOf SupportRouting.Assignment.workloads
    rw [if_pos heligible]
    rfl
  exact hworkload ▸ hlt

section Runs

variable {requests : ℕ → Request} {sys sys' : System} {action : Action}

/-- An assignment takes an unassigned active ticket, and leaves its agent within the capacity. -/
def Assigns (requests : ℕ → Request) (sys : System) (action : Action) (sys' : System) : Prop :=
  ∀ ticketId routing, requests (caller action) = .attemptAutoAssignment ticketId routing →
    ∀ t ∈ sys.desk.tickets.rows, ∀ t', sys'.desk.tickets.find? t.id = some t' → t' ≠ t →
      t.assignedAdminId = none ∧ t.status ∈ activeStatuses ∧
        ∃ agentId, t'.assignedAdminId = some agentId ∧ load sys'.desk agentId ≤ routing.maxActive

/-- The unassigned ticket that an assignment locks is an active one, and no call adds to the load
of an agent while another has counted and is yet to commit. -/
structure Timely (requests : ℕ → Request) (sys : System) (action : Action) (sys' : System) :
    Prop where
  active : ∀ i, action = .lock i → ∀ ticketId routing,
    requests i = .attemptAutoAssignment ticketId routing →
      ∀ t, sys.desk.tickets.find? ticketId = some t → t.assignedAdminId = none →
        t.status ∈ activeStatuses
  alone : (∃ agentId, load sys.desk agentId < load sys'.desk agentId) →
    ∀ i, i ≠ caller action → ∀ held, sys.stages i = .holding held → held.workload = none

/-- What the assignments in flight know. -/
structure Counts (requests : ℕ → Request) (sys : System) : Prop where
  active : ∀ i held t, sys.stages i = .holding held → (requests i).assigns = true →
    held.ticket = some t → t.assignedAdminId = none → t.status ∈ activeStatuses
  loads : ∀ i held workload, sys.stages i = .holding held → held.workload = some workload →
    ∀ agentId, load sys.desk agentId ≤ counted workload agentId

/-- One call moves on, and adds to no load that another has counted. -/
theorem Counts.move (h : Counts requests sys) {i : ℕ} {desk : Desk} {holder : ℕ → Option ℕ}
    {assigning : Option ℕ} {stage : Stage}
    (hothers : ∀ j, j ≠ i → ∀ held workload, sys.stages j = .holding held →
      held.workload = some workload → ∀ agentId, load desk agentId ≤ load sys.desk agentId)
    (hactive : ∀ held t, stage = .holding held → (requests i).assigns = true →
      held.ticket = some t → t.assignedAdminId = none → t.status ∈ activeStatuses)
    (hloads : ∀ held workload, stage = .holding held → held.workload = some workload →
      ∀ agentId, load desk agentId ≤ counted workload agentId) :
    Counts requests ⟨desk, holder, assigning, Function.update sys.stages i stage⟩ := by
  refine ⟨fun j held t hstage => ?_, fun j held workload hstage hworkload agentId => ?_⟩
  · by_cases hj : j = i
    · subst hj
      exact hactive held t ((Function.update_self _ _ _).symm.trans hstage)
    · exact h.active j held t ((Function.update_of_ne hj _ _).symm.trans hstage)
  · by_cases hj : j = i
    · subst hj
      exact hloads held workload ((Function.update_self _ _ _).symm.trans hstage) hworkload agentId
    · have hbefore := (Function.update_of_ne hj _ _).symm.trans hstage
      exact (hothers j hj held workload hbefore hworkload agentId).trans
        (h.loads j held workload hbefore hworkload agentId)

/-- A call that ends. -/
theorem Counts.release (h : Counts requests sys) (desk : Desk) {i : ℕ}
    {result : Except MessagingError Unit}
    (hothers : ∀ j, j ≠ i → ∀ held workload, sys.stages j = .holding held →
      held.workload = some workload → ∀ agentId, load desk agentId ≤ load sys.desk agentId) :
    Counts requests (System.release { sys with desk := desk } i result) :=
  h.move hothers (fun _ _ hstage => by cases hstage) fun _ _ hstage => by cases hstage

theorem Counts.ended (h : Counts requests sys) {i : ℕ} {result : Except MessagingError Unit} :
    Counts requests (sys.release i result) :=
  h.release sys.desk fun _ _ _ _ _ _ _ => le_rfl

theorem Counts.step (h : Counts requests sys)
    (hstep : SupportTickets.step requests sys action = some sys')
    (htimely : Timely requests sys action sys') : Counts requests sys' := by
  cases action with
  | look i =>
    simp only [SupportTickets.step] at hstep
    split at hstep
    · split at hstep
      · cases hstep
        exact h.ended
      · cases hstep
        exact h.move (fun _ _ _ _ _ _ _ => le_rfl) (fun _ _ hstage => by cases hstage)
          fun _ _ hstage => by cases hstage
    · cases hstep
  | lock i =>
    simp only [SupportTickets.step] at hstep
    split at hstep
    · unfold System.take at hstep
      dsimp only at hstep
      split at hstep
      · cases hstep
      · split at hstep
        · cases hstep
          exact h.ended
        · cases hstep
          refine h.move (fun _ _ _ _ _ _ _ => le_rfl) (fun held t hstage hassigns ht => ?_)
            fun held workload hstage hworkload => ?_
          · cases hstage
            cases hrequest : requests i with
            | attemptAutoAssignment ticketId routing =>
              rw [hrequest] at ht
              exact htimely.active i rfl ticketId routing hrequest t ht
            | _ =>
              rw [hrequest] at hassigns
              cases hassigns
          · cases hstage
            cases hworkload
    · cases hstep
  | count i =>
    simp only [SupportTickets.step] at hstep
    split at hstep
    · next ticket conv ticketId routing hstage hrequest =>
      cases hstep
      refine h.move (fun _ _ _ _ _ _ _ => le_rfl) (fun held t hheld hassigns ht => ?_)
        fun held workload hheld hworkload agentId => ?_
      · cases hheld
        exact h.active i _ t hstage hassigns ht
      · cases hheld
        cases hworkload
        exact (counted_query sys.desk routing agentId).ge
    · cases hstep
  | commit i now newId =>
    simp only [SupportTickets.step] at hstep
    split at hstep
    · split at hstep
      · cases hstep
        exact h.ended
      · next e heffect =>
        cases hstep
        refine h.release _ fun j hj held workload hstage hworkload agentId => ?_
        by_contra hlt
        have hnone := htimely.alone ⟨agentId, not_le.mp hlt⟩ j hj held hstage
        rw [hnone] at hworkload
        cases hworkload
    · cases hstep
  | fail i =>
    simp only [SupportTickets.step] at hstep
    split at hstep
    · cases hstep
    · cases hstep
      exact h.ended

theorem assigns_of_desk_eq (h : sys'.desk = sys.desk) : Assigns requests sys action sys' := by
  intro ticketId routing _ t ht t' ht' hne
  have hfind : sys.desk.tickets.find? t.id = some t := Table.find?_key ht
  rw [h, hfind] at ht'
  exact absurd (Option.some.inj ht').symm hne

/-- The commit of an assignment. -/
theorem assigns_of_commit (horderly : Orderly requests sys) (h : Counts requests sys) {i : ℕ}
    {held : Held} (hstage : sys.stages i = .holding held) {now : ℤ} {newId : ℕ} {e : Effect}
    (heffect : effect sys.desk held now newId (requests i) = some e) {ticketId : ℕ}
    {routing : Routing} (hrequest : requests i = .attemptAutoAssignment ticketId routing)
    {t t' : SupportTicket} (ht : t ∈ sys.desk.tickets.rows)
    (ht' : (sys.desk.apply e).tickets.find? t.id = some t') (hne : t' ≠ t) :
    t.assignedAdminId = none ∧ t.status ∈ activeStatuses ∧
      ∃ agentId, t'.assignedAdminId = some agentId ∧
        load (sys.desk.apply e) agentId ≤ routing.maxActive := by
  have hfind : sys.desk.tickets.find? t.id = some t := Table.find?_key ht
  rw [hrequest] at heffect
  simp only [effect] at heffect
  split at heffect
  · next u workload hu hworkload =>
    obtain ⟨agentId, hfound, rfl⟩ := Option.map_eq_some_iff.mp heffect
    have hstored := ((horderly.behind i held hstage).locked u hu).2
    have hut : u = t := by
      by_contra hdistinct
      rw [find?_apply_tickets, hfind] at ht'
      · exact hne (Option.some.inj ht').symm
      · intro w hw hid
        cases hw
        exact hdistinct (Table.eq_of_key_eq _ (Table.mem_of_find? hstored) ht hid)
    subst hut
    have hwritten : t' = { u with assignedAdminId := some agentId } := by
      have hput := Table.find?_put sys.desk.tickets
        ({ u with assignedAdminId := some agentId } : SupportTicket) u.id
      rw [if_pos (show u.id = SupportTicket.key { u with assignedAdminId := some agentId } from
        rfl)] at hput
      exact Option.some.inj (ht'.symm.trans hput)
    obtain ⟨⟨ticket, hticket, hunassigned⟩, hlt⟩ := of_assignLocked hfound
    have hnone : u.assignedAdminId = none := by
      cases hticket
      exact hunassigned
    refine ⟨hnone, h.active i held u hstage (by rw [hrequest]; rfl) hu hnone, agentId,
      by rw [hwritten], ?_⟩
    have hbefore := h.loads i held workload hstage hworkload agentId
    have hafter := load_apply_le (s := sys.desk)
      (e := { ticket := some { u with assignedAdminId := some agentId } }) rfl ⟨u, hstored⟩ agentId
    exact hafter.trans (Nat.succ_le_of_lt (hbefore.trans_lt hlt))
  · cases heffect

/-- Every step of an orderly system whose assignments count is lawful. -/
theorem assigns_step (horderly : Orderly requests sys) (h : Counts requests sys)
    (hstep : SupportTickets.step requests sys action = some sys') :
    Assigns requests sys action sys' := by
  obtain hsame | ⟨i, now, newId, held, e, rfl, hstage, heffect, hdesk⟩ := desk_cases hstep
  · exact assigns_of_desk_eq hsame
  · intro ticketId routing hrequest t ht t' ht' hne
    rw [hdesk] at ht' ⊢
    exact assigns_of_commit horderly h hstage heffect hrequest ht ht' hne

theorem counts_of_run {desk : Desk} (hrun : Run requests (Timely requests) (start desk) sys) :
    Counts requests sys := by
  induction hrun with
  | refl => exact ⟨fun _ _ _ hstage => (by cases hstage), fun _ _ _ hstage => (by cases hstage)⟩
  | tail _ hstep htimely ih => exact ih.step hstep htimely

/-- Assignments respect status and capacity in every run whose steps are timely. -/
theorem assignments_fair {desk : Desk} (hdesk : Linked desk)
    (hrun : Run requests (Timely requests) (start desk) sys)
    (hstep : SupportTickets.step requests sys action = some sys') :
    Assigns requests sys action sys' :=
  assigns_step (orderly_of_run hdesk hrun) (counts_of_run hrun) hstep

end Runs

/-- An agent without tickets who passes the check. -/
def oneAgent : Routing :=
  { roster := [⟨7, .active, .supportAgent⟩]
    lastAssignedAt := fun _ => none
    skillRows := []
    authz := fun _ => some ⟨.active, .admin, .supportAgent⟩
    maxActive := 20
    slaState := fun _ => .onTrack }

/-- A ticket that nobody has. -/
def unassigned (status : SupportTicketStatus) : Desk :=
  { tickets := Table.empty.put { newTicket 1 1 10 .guest "PAYMENT" .normal none with status }
    conversations := Table.empty.put (newConversation 1 10 .guest)
    messages := []
    notes := [] }

theorem linked_unassigned (status : SupportTicketStatus) : Linked (unassigned status) := by
  refine ⟨fun t ht => ?_, fun t ht u hu _ => ?_⟩
  · obtain rfl := List.mem_singleton.mp ht
    exact ⟨_, rfl, rfl⟩
  · rw [List.mem_singleton.mp ht, List.mem_singleton.mp hu]

def assigned (status : SupportTicketStatus) : SupportTicket :=
  { newTicket 1 1 10 .guest "PAYMENT" .normal none with status }

theorem agent_found (status : SupportTicketStatus) : ∃ agentId,
    effect (unassigned status) ⟨some (assigned status), none, some []⟩ 5 2
      (.attemptAutoAssignment 1 oneAgent) =
        some { ticket := some { assigned status with assignedAdminId := some agentId } } := by
  have hsome : (assignLocked (oneAgent.assignment (assigned status) [])).1 ≠ none := by
    intro hnone
    have hrejected := (SupportRouting.Assignment.assignLocked_eq_none_iff rfl rfl).mp hnone 7 ?_
    · exact absurd hrejected (by cases status <;> decide)
    · cases status <;> decide +kernel
  obtain ⟨agentId, hfound⟩ := Option.ne_none_iff_exists'.mp hsome
  refine ⟨agentId, ?_⟩
  simp only [effect]
  rw [hfound]
  rfl

theorem timely_open {sys sys' : System} {action : Action} (hdesk : sys.desk = unassigned .open)
    (hsame : sys'.desk = sys.desk) :
    Timely (fun _ => .attemptAutoAssignment 1 oneAgent) sys action sys' := by
  refine ⟨fun i _ ticketId routing hrequest t ht _ => ?_, fun ⟨agentId, hlt⟩ => ?_⟩
  · cases hrequest
    rw [hdesk] at ht
    cases ht
    decide
  · rw [hsame] at hlt
    exact absurd hlt (lt_irrefl _)

/-- The assignment of an open ticket. -/
theorem assignments_fair_open : ∃ sys sys',
    step (fun _ => .attemptAutoAssignment 1 oneAgent) sys (.commit 0 5 2) = some sys' ∧
      Assigns (fun _ => .attemptAutoAssignment 1 oneAgent) sys (.commit 0 5 2) sys' := by
  have hcount : Run (fun _ => .attemptAutoAssignment 1 oneAgent)
      (Timely fun _ => .attemptAutoAssignment 1 oneAgent) (start (unassigned .open)) _ :=
    .tail (a := .count 0) (.tail (a := .lock 0) (.tail (a := .look 0) .refl rfl
      (timely_open rfl rfl)) rfl (timely_open rfl rfl)) rfl (timely_open rfl rfl)
  obtain ⟨agentId, heffect⟩ := agent_found .open
  exact ⟨_, _, step_commit _ rfl heffect,
    assignments_fair (linked_unassigned .open) hcount (step_commit _ rfl heffect)⟩

/-- A resolved ticket is assigned. -/
theorem resolved_assigned :
    ¬ ∀ (requests : ℕ → Request) (desk : Desk) (sys sys' : System) (action : Action),
      Linked desk → Run requests (fun _ _ _ => True) (start desk) sys →
      step requests sys action = some sys' → Assigns requests sys action sys' := by
  intro h
  have hrun : Run (fun _ => .attemptAutoAssignment 1 oneAgent) (fun _ _ _ => True)
      (start (unassigned .resolved)) _ :=
    .tail (a := .count 0) (.tail (a := .lock 0) (.tail (a := .look 0) .refl rfl trivial) rfl
      trivial) rfl trivial
  obtain ⟨agentId, heffect⟩ := agent_found .resolved
  have hassigns := h _ _ _ _ (.commit 0 5 2) (linked_unassigned .resolved) hrun
    (step_commit _ rfl heffect) 1 oneAgent rfl (assigned .resolved) (List.mem_singleton.mpr rfl)
    { assigned .resolved with assignedAdminId := some agentId } rfl
    fun hsame => by cases congrArg (fun t : SupportTicket => t.assignedAdminId) hsame
  exact absurd hassigns.2.1 (by decide)

end NexaStays.TicketCapacity
