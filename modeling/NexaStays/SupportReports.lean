import NexaStays.GroupedSums
import NexaStays.KeyedTable
import NexaStays.Keyset
import NexaStays.SupportSla
import Mathlib.Data.List.Dedup
import Mathlib.Data.String.Basic

/-!
# Reports about a support agent

`support-performance.service`: `queryAgentPeriod` counts what an agent closed and the reviews
of the agent; `queryCategories` counts the same by category, from other selections.
-/
namespace NexaStays.SupportReports

open NexaStays.KeyedTable NexaStays.SupportSla NexaStays.GroupedSums

/-- A ticket. `firstSender` is who wrote the first message of its conversation that is
neither the requester's nor the system's. -/
structure SupportTicket where
  id : ℕ
  category : String
  priority : SupportTicketPriority
  createdAt : ℤ
  firstAdminResponseAt : Option ℤ
  resolvedAt : Option ℤ
  closedAt : Option ℤ
  reviewAgentId : Option ℕ
  firstSender : Option ℕ
  deriving DecidableEq, Repr

structure TicketCsat where
  ticketId : ℕ
  rating : ℚ
  agentRating : Option ℚ
  agentId : Option ℕ
  problemSolved : Option Bool
  submittedAt : ℤ
  deriving DecidableEq, Repr

structure AuditLog where
  action : String
  entityType : String
  entityId : ℕ
  deriving DecidableEq, Repr

structure SupportDb where
  tickets : Table SupportTicket.id
  csat : List TicketCsat
  auditLogs : List AuditLog

/-- `x >= $1 AND x < $2`. -/
def inWindow (start stop x : ℤ) : Bool := start ≤ x ∧ x < stop

/-- The same for a column that may be null. -/
def nullableInWindow (start stop : ℤ) (x : Option ℤ) : Bool := x.any (inWindow start stop)

/-- `EXISTS (SELECT 1 FROM stays_audit_logs …)`. -/
def isReopened (db : SupportDb) (t : SupportTicket) : Bool :=
  db.auditLogs.any fun a =>
    a.action = "support_ticket_reopened" && a.entityType = "support_ticket" && a.entityId = t.id

/-- A rate, without tickets none. -/
def rate (met count : ℕ) : Option ℚ := if 0 < count then some (met / count) else none

/-- `AVG` of the values that are not null. -/
def average (values : List (Option ℚ)) : Option ℚ :=
  let known := values.filterMap id
  if known = [] then none else some (known.sum / known.length)

variable (db : SupportDb) (start stop : ℤ)

/-- The metrics of an agent that count tickets and reviews. -/
structure AgentPerformanceMetrics where
  reviewCount : ℕ
  averageOverallRating : Option ℚ
  averageAgentRating : Option ℚ
  problemSolvedRate : Option ℚ
  ticketsClosed : ℕ
  ticketsReopened : ℕ
  reopenRate : Option ℚ
  firstResponseCount : ℕ
  firstResponseSlaRate : Option ℚ
  resolutionCount : ℕ
  resolutionSlaRate : Option ℚ
  deriving DecidableEq, Repr

/-- The reviews of an agent in the window. -/
def agentReviews (agentId : ℕ) : List TicketCsat :=
  db.csat.filter fun c => c.agentId = some agentId ∧ inWindow start stop c.submittedAt

/-- The tickets in the review of an agent that were closed in the window. -/
def agentClosed (agentId : ℕ) : List SupportTicket :=
  db.tickets.rows.filter fun t =>
    nullableInWindow start stop t.closedAt ∧ t.reviewAgentId = some agentId

def firstResponseMet (t : SupportTicket) : Bool :=
  t.firstAdminResponseAt.any fun at_ =>
    at_ ≤ t.createdAt + (supportSla t.priority).firstResponseHours * interval1Hour

def resolutionMet (t : SupportTicket) : Bool :=
  t.resolvedAt.any fun at_ =>
    at_ ≤ t.createdAt + (supportSla t.priority).resolutionHours * interval1Hour

def queryAgentPeriod (agentId : ℕ) : AgentPerformanceMetrics :=
  let closed := agentClosed db start stop agentId
  let reopened := (closed.filter (isReopened db)).length
  let response := db.tickets.rows.filter fun t =>
    nullableInWindow start stop t.firstAdminResponseAt ∧ t.firstSender = some agentId
  let resolution := db.tickets.rows.filter fun t =>
    nullableInWindow start stop t.resolvedAt ∧ t.reviewAgentId = some agentId
  let csat := agentReviews db start stop agentId
  { reviewCount := csat.length
    averageOverallRating := average (csat.map fun c => some c.rating)
    averageAgentRating := average (csat.map (·.agentRating))
    problemSolvedRate := rate (csat.filter fun c => c.problemSolved = some true).length csat.length
    ticketsClosed := closed.length
    ticketsReopened := reopened
    reopenRate := rate reopened closed.length
    firstResponseCount := response.length
    firstResponseSlaRate := rate (response.filter firstResponseMet).length response.length
    resolutionCount := resolution.length
    resolutionSlaRate := rate (resolution.filter resolutionMet).length resolution.length }

structure CategoryPerformanceRow where
  category : String
  ticketVolume : ℕ
  reviewCount : ℕ
  averageOverallRating : Option ℚ
  averageAgentRating : Option ℚ
  problemSolvedRate : Option ℚ
  ticketsClosed : ℕ
  ticketsReopened : ℕ
  firstResponseSlaRate : Option ℚ
  resolutionSlaRate : Option ℚ
  deriving DecidableEq, Repr

/-- The filter of an optional agent: without one every row passes. -/
def ofAgent (agentId : Option ℕ) (x : Option ℕ) : Bool := agentId.all fun agent => x = some agent

/-- The reviews with their tickets, by the inner join. -/
def csatRows (agentId : Option ℕ) : List (TicketCsat × SupportTicket) :=
  (db.csat.filter fun c => inWindow start stop c.submittedAt ∧ ofAgent agentId c.agentId).filterMap
    fun c => (db.tickets.find? c.ticketId).map fun t => (c, t)

/-- The tickets created in the window. -/
def createdRows : List SupportTicket :=
  db.tickets.rows.filter fun t => inWindow start stop t.createdAt

def volumeRows (agentId : Option ℕ) : List SupportTicket :=
  (createdRows db start stop).filter fun t => ofAgent agentId t.reviewAgentId

/-- `closed_at` in the window, and a reviewer. -/
def closedInWindow (t : SupportTicket) : Bool :=
  nullableInWindow start stop t.closedAt && t.reviewAgentId.isSome

def categoryKeys (agentId : Option ℕ) : List String :=
  ((csatRows db start stop agentId).map (·.2.category) ++
    ((volumeRows db start stop agentId).map (·.category) ++
      (createdRows db start stop).map (·.category))).dedup

def categoryRow (agentId : Option ℕ) (category : String) : CategoryPerformanceRow :=
  let c := ((csatRows db start stop agentId).filter fun r => r.2.category = category).map (·.1)
  let v := (volumeRows db start stop agentId).filter fun t => t.category = category
  let s := (createdRows db start stop).filter fun t => t.category = category
  let closed := v.filter (closedInWindow start stop)
  { category
    ticketVolume := v.length
    reviewCount := c.length
    averageOverallRating := average (c.map fun c => some c.rating)
    averageAgentRating := average (c.map (·.agentRating))
    problemSolvedRate := rate (c.filter fun c => c.problemSolved = some true).length c.length
    ticketsClosed := closed.length
    ticketsReopened := (closed.filter (isReopened db)).length
    firstResponseSlaRate := rate (s.filter firstResponseMet).length
      (s.filter (·.firstAdminResponseAt.isSome)).length
    resolutionSlaRate := rate (s.filter resolutionMet).length
      (s.filter (·.resolvedAt.isSome)).length }

/-- The rows in the order of their categories. -/
def queryCategories (agentId : Option ℕ) : List CategoryPerformanceRow :=
  (Keyset.orderBy id (categoryKeys db start stop agentId)).map (categoryRow db start stop agentId)

variable {db} {start stop} {agentId : Option ℕ} {agent : ℕ}

/-- What the selections of each category count adds up to the count of the selection. -/
theorem sum_lengths {β : Type} (category : β → String) {keys : List String} (hnodup : keys.Nodup)
    {rows : List β} (hkeys : ∀ r ∈ rows, category r ∈ keys) :
    (keys.map fun k => (rows.filter fun r => category r = k).length).sum = rows.length := by
  have hsum := sum_by_key (fun r => some (category r)) (fun _ => 1) hnodup
    fun r (hr : r ∈ rows) => ⟨category r, hkeys r hr, rfl⟩
  simpa using hsum

theorem sum_queryCategories (f : CategoryPerformanceRow → ℕ) :
    ((queryCategories db start stop agentId).map f).sum =
      ((categoryKeys db start stop agentId).map fun k =>
        f (categoryRow db start stop agentId k)).sum := by
  rw [queryCategories, List.map_map]
  exact ((Keyset.orderBy_perm _).map _).sum_eq

theorem nodup_categoryKeys : (categoryKeys db start stop agentId).Nodup := List.nodup_dedup _

theorem category_mem_of_csat {r : TicketCsat × SupportTicket}
    (hr : r ∈ csatRows db start stop agentId) :
    r.2.category ∈ categoryKeys db start stop agentId :=
  List.mem_dedup.mpr (List.mem_append_left _ (List.mem_map_of_mem hr))

theorem category_mem_of_created (agentId : Option ℕ) {t : SupportTicket}
    (ht : t ∈ createdRows db start stop) :
    t.category ∈ categoryKeys db start stop agentId :=
  List.mem_dedup.mpr (List.mem_append_right _ (List.mem_append_right _ (List.mem_map_of_mem ht)))

theorem sum_reviewCount : ((queryCategories db start stop agentId).map (·.reviewCount)).sum =
    (csatRows db start stop agentId).length := by
  rw [sum_queryCategories]
  simp only [categoryRow, List.length_map]
  exact sum_lengths (fun r => r.2.category) nodup_categoryKeys fun r hr => category_mem_of_csat hr

/-- The tickets that the rows count as closed, and those of them that were reopened. -/
theorem sum_closed (db : SupportDb) (start stop : ℤ) (agentId : Option ℕ)
    (p : SupportTicket → Bool) :
    ((categoryKeys db start stop agentId).map fun k =>
      ((((volumeRows db start stop agentId).filter fun t => t.category = k).filter
        (closedInWindow start stop)).filter p).length).sum =
      (((volumeRows db start stop agentId).filter (closedInWindow start stop)).filter p).length := by
  have hcomm : ∀ k, (((volumeRows db start stop agentId).filter fun t => t.category = k).filter
      (closedInWindow start stop)).filter p =
      (((volumeRows db start stop agentId).filter (closedInWindow start stop)).filter p).filter
        fun t => t.category = k := by
    intro k
    simp only [List.filter_filter]
    refine List.filter_congr fun t _ => ?_
    cases p t <;> cases closedInWindow start stop t <;> simp
  simp only [hcomm]
  refine sum_lengths (fun t : SupportTicket => t.category) nodup_categoryKeys fun t ht => category_mem_of_created agentId ?_
  exact List.mem_of_mem_filter (List.mem_of_mem_filter (List.mem_of_mem_filter ht))

/-- The tickets that the rows of an agent count are those of the period that were created in
the window. -/
theorem closed_eq_agentClosed : (volumeRows db start stop (some agent)).filter
    (closedInWindow start stop) =
      (agentClosed db start stop agent).filter fun t => inWindow start stop t.createdAt := by
  rw [volumeRows, createdRows, agentClosed, List.filter_filter, List.filter_filter,
    List.filter_filter]
  refine List.filter_congr fun t _ => ?_
  by_cases hagent : t.reviewAgentId = some agent
  · cases hclosed : nullableInWindow start stop t.closedAt <;>
      simp [closedInWindow, ofAgent, hagent, hclosed]
  · simp [ofAgent, hagent]

theorem length_csatRows : (csatRows db start stop (some agent)).length =
    ((agentReviews db start stop agent).filter fun c =>
      (db.tickets.find? c.ticketId).isSome).length := by
  have hreviews : (db.csat.filter fun c => inWindow start stop c.submittedAt ∧
      ofAgent (some agent) c.agentId) = agentReviews db start stop agent := by
    refine List.filter_congr fun c _ => ?_
    simp [ofAgent, and_comm]
  rw [csatRows, hreviews, List.length_filterMap_eq_countP, List.countP_eq_length_filter]
  simp

/-- The counts of the categories add up to those of the period. -/
def SumsAgree (db : SupportDb) (start stop : ℤ) (agent : ℕ) : Prop :=
  let rows := queryCategories db start stop (some agent)
  let period := queryAgentPeriod db start stop agent
  (rows.map (·.reviewCount)).sum = period.reviewCount ∧
    (rows.map (·.ticketsClosed)).sum = period.ticketsClosed ∧
    (rows.map (·.ticketsReopened)).sum = period.ticketsReopened

theorem sumsAgree_iff : SumsAgree db start stop agent ↔
    (∀ c ∈ agentReviews db start stop agent, ∃ t, db.tickets.find? c.ticketId = some t) ∧
      ∀ t ∈ agentClosed db start stop agent, inWindow start stop t.createdAt = true := by
  have hclosed : ((queryCategories db start stop (some agent)).map (·.ticketsClosed)).sum =
      ((agentClosed db start stop agent).filter fun t => inWindow start stop t.createdAt).length := by
    have hall := sum_closed db start stop (some agent) fun _ => true
    rw [sum_queryCategories, ← closed_eq_agentClosed]
    simpa [categoryRow] using hall
  have hreopened : ((queryCategories db start stop (some agent)).map (·.ticketsReopened)).sum =
      (((agentClosed db start stop agent).filter fun t =>
        inWindow start stop t.createdAt).filter (isReopened db)).length := by
    rw [sum_queryCategories, ← closed_eq_agentClosed]
    exact sum_closed db start stop (some agent) (isReopened db)
  simp only [SumsAgree, sum_reviewCount, hclosed, hreopened, length_csatRows, queryAgentPeriod,
    List.length_filter_eq_length_iff, Option.isSome_iff_exists]
  constructor
  · exact fun h => ⟨h.1, h.2.1⟩
  · intro h
    exact ⟨h.1, h.2, by rw [List.filter_eq_self.mpr h.2]⟩

/-- Another agent answered and closed the ticket. -/
def OfAnother (agent : ℕ) (t : SupportTicket) : Prop :=
  ∃ other, other ≠ agent ∧ t.firstSender = some other ∧ t.reviewAgentId = some other ∧
    t.firstAdminResponseAt.isSome ∧ t.closedAt.isSome

/-- Only tickets that another agent answered and closed have changed. -/
def SameForAgent (agent : ℕ) (db db' : SupportDb) : Prop :=
  db'.csat = db.csat ∧ db'.auditLogs = db.auditLogs ∧
    ∀ t, ¬OfAnother agent t → (t ∈ db'.tickets.rows ↔ t ∈ db.tickets.rows)

/-- The rates of the rows, with their categories. -/
def slaRates (db : SupportDb) (start stop : ℤ) (agent : ℕ) :
    List (String × Option ℚ × Option ℚ) :=
  (queryCategories db start stop (some agent)).map fun r =>
    (r.category, r.firstResponseSlaRate, r.resolutionSlaRate)

def SlaIndependent (db : SupportDb) (start stop : ℤ) (agent : ℕ) : Prop :=
  ∀ db', SameForAgent agent db db' → slaRates db' start stop agent = slaRates db start stop agent

/-- One more ticket changes a rate: one in time, unless all are, and then one that is late. -/
theorem rate_changes (met count : ℕ) :
    rate (met + 1) (count + 1) ≠ rate met count ∨ rate met (count + 1) ≠ rate met count := by
  by_cases hcount : 0 < count
  · have hpos : (0 : ℚ) < count := by exact_mod_cast hcount
    by_cases hall : met = count
    · right
      simp only [rate, hcount, if_true, Nat.succ_pos, ne_eq, Option.some.injEq, hall]
      rw [div_self hpos.ne', div_eq_one_iff_eq (by positivity)]
      push_cast
      intro hsame
      linarith
    · left
      simp only [rate, hcount, if_true, Nat.succ_pos, ne_eq, Option.some.injEq]
      rw [div_eq_div_iff (by positivity) hpos.ne']
      push_cast
      intro hsame
      have hcast : (met : ℚ) = count := by linarith
      exact hall (by exact_mod_cast hcast)
  · left
    simp [rate, hcount]

/-- A ticket of another agent, created at the start of the window, and answered at once or
late. -/
def othersTicket (id agent : ℕ) (start : ℤ) (late : Bool) : SupportTicket where
  id
  category := "BOOKING"
  priority := .urgent
  createdAt := start
  firstAdminResponseAt := some (if late then start + 2 * interval1Hour else start)
  resolvedAt := none
  closedAt := some (start + 3 * interval1Hour)
  reviewAgentId := some (agent + 1)
  firstSender := some (agent + 1)

theorem firstResponseMet_othersTicket (id agent : ℕ) (start : ℤ) (late : Bool) :
    firstResponseMet (othersTicket id agent start late) = !late := by
  cases late <;> simp [firstResponseMet, othersTicket, supportSla, interval1Hour]

/-- Both databases of a change differ by this ticket. -/
theorem sameForAgent_put (agent : ℕ) (start : ℤ) {id : ℕ}
    (hid : db.tickets.find? id = none) (late : Bool) :
    SameForAgent agent db
      { db with tickets := db.tickets.put (othersTicket id agent start late) } := by
  refine ⟨rfl, rfl, fun t ht => ?_⟩
  have hrows : (db.tickets.put (othersTicket id agent start late)).rows =
      db.tickets.rows ++ [othersTicket id agent start late] := Table.rows_put_of_absent hid
  have hother : OfAnother agent (othersTicket id agent start late) :=
    ⟨agent + 1, by omega, rfl, rfl, rfl, rfl⟩
  simp only [hrows, List.mem_append, List.mem_singleton]
  refine or_iff_left ?_
  rintro rfl
  exact ht hother

/-- The tickets of the rates of bookings. -/
def bookingTickets (db : SupportDb) (start stop : ℤ) : List SupportTicket :=
  (createdRows db start stop).filter fun t => t.category = "BOOKING"

/-- The row of a category that a ticket of the window has shows the rate of its tickets. -/
theorem rate_of_slaRates {f r : Option ℚ}
    (h : ("BOOKING", f, r) ∈ slaRates db start stop agent) :
    f = rate ((bookingTickets db start stop).filter firstResponseMet).length
      ((bookingTickets db start stop).filter (·.firstAdminResponseAt.isSome)).length := by
  obtain ⟨row, hrow, hsame⟩ := List.mem_map.mp h
  obtain ⟨k, -, rfl⟩ := List.mem_map.mp hrow
  obtain ⟨hk, hrest⟩ := Prod.mk.inj hsame
  obtain rfl : k = "BOOKING" := hk
  exact (Prod.mk.inj hrest).1.symm

theorem mem_slaRates (agent : ℕ) {t : SupportTicket} (ht : t ∈ bookingTickets db start stop) :
    ∃ f r, ("BOOKING", f, r) ∈ slaRates db start stop agent := by
  obtain ⟨hcreated, hcategory⟩ := List.mem_filter.mp ht
  have hkey := category_mem_of_created (some agent) hcreated
  rw [of_decide_eq_true hcategory] at hkey
  exact ⟨_, _, List.mem_map.mpr ⟨_, List.mem_map.mpr ⟨_, Keyset.mem_orderBy.mpr hkey, rfl⟩, rfl⟩⟩

theorem bookingTickets_put (agent : ℕ) {id : ℕ} (hid : db.tickets.find? id = none) (hwindow : start < stop)
    (late : Bool) :
    bookingTickets { db with tickets := db.tickets.put (othersTicket id agent start late) }
      start stop = bookingTickets db start stop ++ [othersTicket id agent start late] := by
  have hrows : (db.tickets.put (othersTicket id agent start late)).rows =
      db.tickets.rows ++ [othersTicket id agent start late] := Table.rows_put_of_absent hid
  simp only [bookingTickets, createdRows, hrows, List.filter_append]
  simp [inWindow, othersTicket, hwindow]

/-- In a window that is not empty the rates depend on tickets of others. -/
theorem not_slaIndependent (db : SupportDb) (agent : ℕ) (hwindow : start < stop) :
    ¬SlaIndependent db start stop agent := by
  intro hindependent
  obtain ⟨id, hid⟩ := db.tickets.exists_absent
  have hrates : ∀ late : Bool,
      rate (((bookingTickets db start stop).filter firstResponseMet).length + if late then 0 else 1)
        (((bookingTickets db start stop).filter (·.firstAdminResponseAt.isSome)).length + 1) =
      rate ((bookingTickets db start stop).filter firstResponseMet).length
        ((bookingTickets db start stop).filter (·.firstAdminResponseAt.isSome)).length := by
    intro late
    have hput := bookingTickets_put agent hid hwindow late
    have hsame := hindependent _ (sameForAgent_put agent start hid late)
    have hlast := List.mem_append_right (bookingTickets db start stop)
      (List.mem_singleton_self (othersTicket id agent start late))
    rw [← hput] at hlast
    obtain ⟨f, r, hmem⟩ := mem_slaRates agent hlast
    have hafter := rate_of_slaRates hmem
    rw [hsame] at hmem
    have hbefore := rate_of_slaRates hmem
    rw [← hbefore, hafter, hput, List.filter_append, List.filter_append, List.length_append,
      List.length_append]
    have hanswered : (othersTicket id agent start late).firstAdminResponseAt.isSome = true := rfl
    simp only [List.filter_cons, List.filter_nil, hanswered, firstResponseMet_othersTicket,
      if_true, List.length_singleton]
    cases late <;> simp
  rcases rate_changes _ _ with h | h
  · exact h (by simpa using hrates false)
  · exact h (by simpa using hrates true)

theorem slaIndependent_iff : SlaIndependent db start stop agent ↔ stop ≤ start := by
  constructor
  · intro h
    by_contra hwindow
    exact not_slaIndependent db agent (not_le.mp hwindow) h
  · intro hempty db' _
    have hnone : ∀ x, inWindow start stop x = false := fun x => by
      simp only [inWindow, decide_eq_false_iff_not]
      omega
    have hrates : ∀ db : SupportDb, slaRates db start stop agent = [] := fun db => by
      simp [slaRates, queryCategories, categoryKeys, csatRows, volumeRows, createdRows, hnone,
        Keyset.orderBy]
    rw [hrates, hrates]

/-- The counts agree exactly if every review of the agent in the window has its ticket and
every ticket closed in the window was created in it; the rates are independent of the
tickets of others only in an empty window. -/
theorem reports_agree_iff (db : SupportDb) (start stop : ℤ) (agent : ℕ) :
    (SumsAgree db start stop agent ↔
      (∀ c ∈ agentReviews db start stop agent, ∃ t, db.tickets.find? c.ticketId = some t) ∧
        ∀ t ∈ agentClosed db start stop agent, inWindow start stop t.createdAt = true) ∧
    (SlaIndependent db start stop agent ↔ stop ≤ start) :=
  ⟨sumsAgree_iff, slaIndependent_iff⟩

/-- A ticket created before the window and closed in it by agent 1. -/
def straddling : SupportDb where
  tickets := Table.empty.put
    { id := 1
      category := "BOOKING"
      priority := .normal
      createdAt := 0
      firstAdminResponseAt := some 10
      resolvedAt := some 2000
      closedAt := some 2000
      reviewAgentId := some 1
      firstSender := some 1 }
  csat := []
  auditLogs := []

/-- The period counts that ticket, the categories do not, and their rates depend on others. -/
theorem straddling_ticket_not_counted :
    (queryAgentPeriod straddling 1000 3000 1).ticketsClosed = 1 ∧
      ((queryCategories straddling 1000 3000 (some 1)).map (·.ticketsClosed)).sum = 0 ∧
      ¬SumsAgree straddling 1000 3000 1 ∧ ¬SlaIndependent straddling 1000 3000 1 := by
  have hperiod : (queryAgentPeriod straddling 1000 3000 1).ticketsClosed = 1 := by decide
  have hrows : queryCategories straddling 1000 3000 (some 1) = [] := by decide
  refine ⟨hperiod, by rw [hrows]; rfl, fun h => ?_, not_slaIndependent _ _ (by decide)⟩
  have hclosed := h.2.1
  rw [hrows, hperiod] at hclosed
  exact absurd hclosed (by decide)

end NexaStays.SupportReports
