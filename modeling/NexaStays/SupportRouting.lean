import Mathlib.Data.Prod.Lex
import Mathlib.Order.Basic
import NexaStays.MessagingStore
import NexaStays.SupportSla

/-!
# Routing of support tickets

Which agent a ticket goes to: the agents below their capacity, of these the ones of the best
tier of skills, and of these the first in the order of their workload who passes a check of
the authorisation service. Agents are of any type with the order of their identifiers.
-/
namespace NexaStays.SupportRouting

open NexaStays.MessagingStore (SupportTicketStatus)
open NexaStays.SupportSla (SupportTicketPriority)

structure RoutingAgentWorkload where
  assigned : ℕ := 0
  inProgress : ℕ := 0
  waiting : ℕ := 0
  atRisk : ℕ := 0
  breached : ℕ := 0
  deriving DecidableEq, Repr

def emptyWorkload : RoutingAgentWorkload := {}

structure RoutingAgentSkills where
  languages : List String
  categories : List String
  deriving DecidableEq, Repr

inductive AgentStatus where
  | active | frozen | other
  deriving DecidableEq, Repr

inductive StaffRole where
  | supportAgent | other
  deriving DecidableEq, Repr

inductive AccountType where
  | admin | other
  deriving DecidableEq, Repr

structure IdentityAuthz where
  status : AgentStatus
  accountType : AccountType
  staffRole : StaffRole
  deriving DecidableEq, Repr

/-- An agent as the identity service lists it. -/
structure RosterItem (α : Type) where
  id : α
  status : AgentStatus
  staffRole : StaffRole
  deriving DecidableEq, Repr

/-- The ticket, of which the assignment does not read the status. -/
structure RoutedTicket (α : Type) where
  status : SupportTicketStatus
  assignedAdminId : Option α
  priority : SupportTicketPriority
  category : String
  requesterLanguage : Option String
  deriving DecidableEq, Repr

/-- The statuses of an active ticket. -/
def activeStatuses : List SupportTicketStatus :=
  [.open, .inProgress, .waitingForCustomer, .waitingForHost, .escalated]

variable {α : Type} [LinearOrder α]

/-- `SUPPORT_ROUTING_URGENT_HEADROOM`. -/
def urgentHeadroom : ℚ := 0.7

def calculateRoutingScore (workload : RoutingAgentWorkload) : ℚ :=
  workload.assigned * 1 + workload.inProgress * 1.5 + workload.waiting * 0.5 +
    workload.atRisk * 4 + workload.breached * 8

def prefersUrgentHeadroom (priority : SupportTicketPriority) : Bool :=
  priority = .high || priority = .urgent

def assignedOf (workloads : α → Option RoutingAgentWorkload) (id : α) : ℕ :=
  ((workloads id).map (·.assigned)).getD 0

def capacityEligibleAgentIds (agentIds : List α) (workloads : α → Option RoutingAgentWorkload)
    (priority : SupportTicketPriority) (maxActive : ℕ) : List α :=
  let unique := agentIds.eraseDups
  let underCap := unique.filter fun id => assignedOf workloads id < maxActive
  if prefersUrgentHeadroom priority then
    let preferred := underCap.filter fun id => (assignedOf workloads id : ℚ) < maxActive * urgentHeadroom
    if preferred ≠ [] then preferred else underCap
  else underCap

def matchesCategory (skills : Option RoutingAgentSkills) (category : String) : Bool :=
  ((skills.map (·.categories)).getD []).contains category

def matchesLanguage (skills : Option RoutingAgentSkills) (language : Option String) : Bool :=
  match language.filter (· ≠ "") with
  | none => false
  | some language => ((skills.map (·.languages)).getD []).contains language

/-- The agents of the best tier. -/
def pickSkillTier (agentIds : List α) (skills : α → Option RoutingAgentSkills) (category : String)
    (language : Option String) : List α :=
  let catLang := agentIds.filter fun id =>
    matchesCategory (skills id) category && matchesLanguage (skills id) language
  if catLang ≠ [] then catLang
  else
    let cat := agentIds.filter fun id => matchesCategory (skills id) category
    if cat ≠ [] then cat
    else
      let lang := agentIds.filter fun id => matchesLanguage (skills id) language
      if lang ≠ [] then lang else agentIds

/-- The comparison of the sort does not put `b` before `a`. -/
def ahead (workloads : α → Option RoutingAgentWorkload) (lastAssignedAt : α → Option ℤ) (a b : α) :
    Bool :=
  let wa := (workloads a).getD emptyWorkload
  let wb := (workloads b).getD emptyWorkload
  if calculateRoutingScore wa ≠ calculateRoutingScore wb then
    calculateRoutingScore wa < calculateRoutingScore wb
  else if wa.assigned ≠ wb.assigned then wa.assigned < wb.assigned
  else
    let lastA := (lastAssignedAt a).getD 0
    let lastB := (lastAssignedAt b).getD 0
    if lastA ≠ lastB then lastA < lastB else a ≤ b

def selectBestAgent (agentIds : List α) (workloads : α → Option RoutingAgentWorkload)
    (lastAssignedAt : α → Option ℤ) (priority : SupportTicketPriority) (maxActive : ℕ) : Option α :=
  ((capacityEligibleAgentIds agentIds workloads priority maxActive).mergeSort
    (ahead workloads lastAssignedAt)).head?

def accepted (authz : Option IdentityAuthz) : Bool :=
  authz.any fun a => a.accountType = .admin && a.staffRole = .supportAgent && a.status = .active

/-- What the search is about: the workloads, the last assignments, the priority of the ticket
and the capacity. -/
structure Ranking (α : Type) where
  workloads : α → Option RoutingAgentWorkload
  lastAssignedAt : α → Option ℤ
  priority : SupportTicketPriority
  maxActive : ℕ

def Ranking.best (r : Ranking α) (agentIds : List α) : Option α :=
  selectBestAgent agentIds r.workloads r.lastAssignedAt r.priority r.maxActive

theorem mem_capacityEligible {agentIds : List α} {workloads : α → Option RoutingAgentWorkload}
    {priority : SupportTicketPriority} {maxActive : ℕ} {a : α}
    (h : a ∈ capacityEligibleAgentIds agentIds workloads priority maxActive) :
    a ∈ agentIds ∧ assignedOf workloads a < maxActive := by
  have hunder : a ∈ (agentIds.eraseDups).filter fun id => assignedOf workloads id < maxActive := by
    unfold capacityEligibleAgentIds at h
    simp only at h
    split_ifs at h
    · exact (List.mem_filter.mp h).1
    · exact h
    · exact h
  simpa using hunder

theorem Ranking.mem_of_best {r : Ranking α} {agentIds : List α} {a : α}
    (h : r.best agentIds = some a) : a ∈ agentIds := by
  have hmem := List.mem_of_head? h
  exact (mem_capacityEligible (List.mem_mergeSort.mp hmem)).1

/-- The loop of `assignLocked`: who was found, and who was asked about, in order. Every round
rules an agent out. -/
def search (r : Ranking α) (authz : α → Option IdentityAuthz) (tier ineligible : List α) :
    Option α × List α :=
  match _h : r.best (tier.filter fun id => id ∉ ineligible) with
  | none => (none, [])
  | some candidate =>
    if accepted (authz candidate) then (some candidate, [candidate])
    else
      let rest := search r authz tier (candidate :: ineligible)
      (rest.1, candidate :: rest.2)
termination_by (tier.filter fun id => id ∉ ineligible).length
decreasing_by
  have hmem := Ranking.mem_of_best _h
  have hsub : (tier.filter fun id => id ∉ candidate :: ineligible) =
      (tier.filter fun id => id ∉ ineligible).filter fun id => id ≠ candidate := by
    rw [List.filter_filter]
    refine List.filter_congr fun id _ => ?_
    simp [not_or]
  rw [hsub]
  exact List.length_filter_lt_length_iff_exists.mpr ⟨candidate, hmem, by simp⟩

/-- What one assignment reads. -/
structure Assignment (α : Type) where
  roster : List (RosterItem α)
  ticket : Option (RoutedTicket α)
  workloadRows : List (α × RoutingAgentWorkload)
  lastAssignedAt : α → Option ℤ
  skillRows : List (α × RoutingAgentSkills)
  authz : α → Option IdentityAuthz
  maxActive : ℕ

namespace Assignment

variable (x : Assignment α)

def eligibleIds : List α :=
  (x.roster.filter fun row => row.status = .active && row.staffRole = .supportAgent).map (·.id)

def workloads (id : α) : Option RoutingAgentWorkload :=
  if id ∈ x.eligibleIds then
    some ((((x.workloadRows.filter fun row => row.1 = id).getLast?).map (·.2)).getD emptyWorkload)
  else none

def remaining (ticket : RoutedTicket α) : List α :=
  capacityEligibleAgentIds x.eligibleIds x.workloads ticket.priority x.maxActive

def skills (ticket : RoutedTicket α) (id : α) : Option RoutingAgentSkills :=
  if id ∈ x.remaining ticket then
    ((x.skillRows.filter fun row => row.1 = id).getLast?).map (·.2)
  else none

def tier (ticket : RoutedTicket α) : List α :=
  pickSkillTier (x.remaining ticket) (x.skills ticket) ticket.category ticket.requesterLanguage

def ranking (ticket : RoutedTicket α) : Ranking α :=
  { workloads := x.workloads
    lastAssignedAt := x.lastAssignedAt
    priority := ticket.priority
    maxActive := x.maxActive }

end Assignment

/-- Who the ticket is assigned to, and who the authorisation service was asked about. -/
def assignLocked (x : Assignment α) : Option α × List α :=
  if x.eligibleIds = [] then (none, [])
  else
    match x.ticket.filter fun t => t.assignedAdminId = none with
    | none => (none, [])
    | some ticket =>
      if x.remaining ticket = [] then (none, [])
      else search (x.ranking ticket) x.authz (x.tier ticket) []

section Pools

variable {agentIds agentIds' : List α} {workloads : α → Option RoutingAgentWorkload}
  {priority : SupportTicketPriority} {maxActive : ℕ}

/-- Nobody is eligible only if nobody is below the capacity. -/
theorem full_of_capacityEligible
    (h : capacityEligibleAgentIds agentIds workloads priority maxActive = []) {a : α}
    (ha : a ∈ agentIds) : maxActive ≤ assignedOf workloads a := by
  have hunder : ((agentIds.eraseDups).filter fun id => assignedOf workloads id < maxActive) = [] := by
    unfold capacityEligibleAgentIds at h
    simp only at h
    split_ifs at h with hprefers hsome
    · exact absurd h hsome
    · exact h
    · exact h
  have hnot := List.filter_eq_nil_iff.mp hunder a (by simpa using ha)
  simpa using hnot

omit [LinearOrder α] in
theorem filter_congr_mem (p : α → Bool) (h : ∀ a, a ∈ agentIds ↔ a ∈ agentIds') (a : α) :
    a ∈ agentIds.filter p ↔ a ∈ agentIds'.filter p := by
  simp [h a]

omit [LinearOrder α] in
theorem ne_nil_congr (h : ∀ a, a ∈ agentIds ↔ a ∈ agentIds') : agentIds ≠ [] ↔ agentIds' ≠ [] := by
  constructor
  · intro hne
    obtain ⟨a, ha⟩ := List.exists_mem_of_ne_nil _ hne
    exact List.ne_nil_of_mem ((h a).mp ha)
  · intro hne
    obtain ⟨a, ha⟩ := List.exists_mem_of_ne_nil _ hne
    exact List.ne_nil_of_mem ((h a).mpr ha)

/-- The eligible agents do not depend on the order of the agents. -/
theorem capacityEligible_congr (h : ∀ a, a ∈ agentIds ↔ a ∈ agentIds') (a : α) :
    a ∈ capacityEligibleAgentIds agentIds workloads priority maxActive ↔
      a ∈ capacityEligibleAgentIds agentIds' workloads priority maxActive := by
  have hunique : ∀ a, a ∈ agentIds.eraseDups ↔ a ∈ agentIds'.eraseDups := fun a => by simp [h a]
  have hunder := filter_congr_mem (fun id => assignedOf workloads id < maxActive) hunique
  have hpreferred := filter_congr_mem
    (fun id => (assignedOf workloads id : ℚ) < maxActive * urgentHeadroom) hunder
  unfold capacityEligibleAgentIds
  simp only [ne_nil_congr hpreferred]
  split_ifs
  · exact hpreferred a
  · exact hunder a
  · exact hunder a

omit [LinearOrder α] in
theorem pickSkillTier_congr {skills : α → Option RoutingAgentSkills} {category : String}
    {language : Option String} (h : ∀ a, a ∈ agentIds ↔ a ∈ agentIds') (a : α) :
    a ∈ pickSkillTier agentIds skills category language ↔
      a ∈ pickSkillTier agentIds' skills category language := by
  have hcatLang := filter_congr_mem (fun id =>
    matchesCategory (skills id) category && matchesLanguage (skills id) language) h
  have hcat := filter_congr_mem (fun id => matchesCategory (skills id) category) h
  have hlang := filter_congr_mem (fun id => matchesLanguage (skills id) language) h
  unfold pickSkillTier
  simp only [ne_nil_congr hcatLang, ne_nil_congr hcat, ne_nil_congr hlang]
  split_ifs
  · exact hcatLang a
  · exact hcat a
  · exact hlang a
  · exact h a

omit [LinearOrder α] in
theorem mem_of_pickSkillTier {skills : α → Option RoutingAgentSkills} {category : String}
    {language : Option String} {a : α} (h : a ∈ pickSkillTier agentIds skills category language) :
    a ∈ agentIds := by
  unfold pickSkillTier at h
  simp only at h
  split_ifs at h
  · exact (List.mem_filter.mp h).1
  · exact (List.mem_filter.mp h).1
  · exact (List.mem_filter.mp h).1
  · exact h

end Pools

/-- The order of the sort as a linear one: score, active tickets, last assignment, identifier. -/
def rankOf (workloads : α → Option RoutingAgentWorkload) (lastAssignedAt : α → Option ℤ) (a : α) :
    ℚ ×ₗ ℕ ×ₗ ℤ ×ₗ α :=
  toLex (calculateRoutingScore ((workloads a).getD emptyWorkload),
    toLex (((workloads a).getD emptyWorkload).assigned, toLex ((lastAssignedAt a).getD 0, a)))

theorem ahead_iff {workloads : α → Option RoutingAgentWorkload} {lastAssignedAt : α → Option ℤ}
    {a b : α} : ahead workloads lastAssignedAt a b = true ↔
      rankOf workloads lastAssignedAt a ≤ rankOf workloads lastAssignedAt b := by
  simp only [ahead, rankOf, Prod.Lex.toLex_le_toLex]
  split_ifs with hscore hassigned hlast <;> simp_all

omit [LinearOrder α] in
theorem rankOf_injective {workloads : α → Option RoutingAgentWorkload}
    {lastAssignedAt : α → Option ℤ} : Function.Injective (rankOf workloads lastAssignedAt) := by
  intro a b h
  simp only [rankOf, EmbeddingLike.apply_eq_iff_eq, Prod.mk.injEq] at h
  exact h.2.2.2

namespace Ranking

variable {r : Ranking α} {l l' : List α} {a : α}

theorem best_eq_some (h : r.best l = some a) : a ∈ capacityEligibleAgentIds l r.workloads r.priority r.maxActive ∧
    ∀ b ∈ capacityEligibleAgentIds l r.workloads r.priority r.maxActive,
      rankOf r.workloads r.lastAssignedAt a ≤ rankOf r.workloads r.lastAssignedAt b := by
  have hsorted : ((capacityEligibleAgentIds l r.workloads r.priority r.maxActive).mergeSort
      (ahead r.workloads r.lastAssignedAt)).Pairwise
        fun a b => ahead r.workloads r.lastAssignedAt a b = true := List.pairwise_mergeSort
    (fun a b c hab hbc => ahead_iff.mpr ((ahead_iff.mp hab).trans (ahead_iff.mp hbc)))
    (fun a b => by
      rw [Bool.or_eq_true, ahead_iff, ahead_iff]
      exact le_total _ _)
    (capacityEligibleAgentIds l r.workloads r.priority r.maxActive)
  have hmem := List.mem_of_head? h
  refine ⟨List.mem_mergeSort.mp hmem, fun b hb => ?_⟩
  obtain ⟨rest, hrest⟩ := List.head?_eq_some_iff.mp h
  rw [hrest, List.pairwise_cons] at hsorted
  have hb' : b ∈ (capacityEligibleAgentIds l r.workloads r.priority r.maxActive).mergeSort
      (ahead r.workloads r.lastAssignedAt) := List.mem_mergeSort.mpr hb
  rw [hrest] at hb'
  obtain rfl | hb' := List.mem_cons.mp hb'
  · exact le_rfl
  · exact ahead_iff.mp (hsorted.1 b hb')

theorem best_eq_none (h : r.best l = none) (ha : a ∈ l) : r.maxActive ≤ assignedOf r.workloads a := by
  have hnil := List.head?_eq_none_iff.mp h
  have hpool : capacityEligibleAgentIds l r.workloads r.priority r.maxActive = [] :=
    List.length_eq_zero_iff.mp (by rw [← List.length_mergeSort, hnil]; rfl)
  exact full_of_capacityEligible hpool ha

/-- The best agent does not depend on the order of the agents. -/
theorem best_congr (h : ∀ a, a ∈ l ↔ a ∈ l') : r.best l = r.best l' := by
  have hpool : ∀ a, a ∈ capacityEligibleAgentIds l r.workloads r.priority r.maxActive ↔
      a ∈ capacityEligibleAgentIds l' r.workloads r.priority r.maxActive :=
    capacityEligible_congr h
  cases hl : r.best l with
  | none =>
    cases hl' : r.best l' with
    | none => rfl
    | some b =>
      obtain ⟨hb, -⟩ := best_eq_some hl'
      obtain ⟨hmem, hlt⟩ := mem_capacityEligible hb
      exact absurd (best_eq_none hl ((h b).mpr hmem)) (by omega)
  | some a =>
    obtain ⟨ha, hmin⟩ := best_eq_some hl
    cases hl' : r.best l' with
    | none =>
      obtain ⟨hmem, hlt⟩ := mem_capacityEligible ha
      exact absurd (best_eq_none hl' ((h a).mp hmem)) (by omega)
    | some b =>
      obtain ⟨hb, hmin'⟩ := best_eq_some hl'
      have hab := hmin b ((hpool b).mpr hb)
      have hba := hmin' a ((hpool a).mp ha)
      rw [rankOf_injective (le_antisymm hab hba)]

end Ranking

section Search

variable {r : Ranking α} {authz : α → Option IdentityAuthz} {tier tier' ineligible : List α} {a : α}

/-- Who is found was not ruled out and passes the check. -/
theorem search_some (h : (search r authz tier ineligible).1 = some a) :
    a ∈ tier ∧ accepted (authz a) = true := by
  fun_induction search r authz tier ineligible with
  | case1 => cases h
  | case2 ineligible candidate hbest haccepted =>
    obtain rfl := Option.some.inj h
    exact ⟨(List.mem_filter.mp (Ranking.mem_of_best hbest)).1, haccepted⟩
  | case3 ineligible candidate hbest hrejected rest ih => exact ih h

/-- Nobody is found only if everybody below the capacity was ruled out or fails the check. -/
theorem search_none (h : (search r authz tier ineligible).1 = none) (ha : a ∈ tier)
    (hnot : a ∉ ineligible) :
    r.maxActive ≤ assignedOf r.workloads a ∨ accepted (authz a) = false := by
  fun_induction search r authz tier ineligible with
  | case1 ineligible hbest =>
    exact Or.inl (Ranking.best_eq_none hbest (List.mem_filter.mpr ⟨ha, by simpa using hnot⟩))
  | case2 => cases h
  | case3 ineligible candidate hbest hrejected rest ih =>
    by_cases hcandidate : a = candidate
    · exact Or.inr (by rw [hcandidate]; simpa using hrejected)
    · exact ih h (by simp [hcandidate, hnot])

/-- Who is asked about was not ruled out before. -/
theorem search_asked (h : a ∈ (search r authz tier ineligible).2) : a ∉ ineligible := by
  fun_induction search r authz tier ineligible with
  | case1 => cases h
  | case2 ineligible candidate hbest haccepted =>
    obtain rfl := List.mem_singleton.mp h
    simpa using (List.mem_filter.mp (Ranking.mem_of_best hbest)).2
  | case3 ineligible candidate hbest hrejected rest ih =>
    obtain rfl | h := List.mem_cons.mp h
    · simpa using (List.mem_filter.mp (Ranking.mem_of_best hbest)).2
    · exact fun hmem => ih h (List.mem_cons_of_mem _ hmem)

theorem search_nodup : (search r authz tier ineligible).2.Nodup := by
  fun_induction search r authz tier ineligible with
  | case1 => exact List.nodup_nil
  | case2 => exact List.nodup_singleton _
  | case3 ineligible candidate hbest hrejected rest ih =>
    exact List.nodup_cons.mpr ⟨fun hmem => search_asked hmem List.mem_cons_self, ih⟩

/-- One round of the loop. -/
theorem search_round {candidate : α}
    (h : r.best (tier.filter fun id => id ∉ ineligible) = some candidate) :
    search r authz tier ineligible =
      if accepted (authz candidate) then (some candidate, [candidate])
      else ((search r authz tier (candidate :: ineligible)).1,
        candidate :: (search r authz tier (candidate :: ineligible)).2) := by
  rw [search]
  split
  · next hnone =>
    rw [h] at hnone
    cases hnone
  · next c hsome =>
    rw [h] at hsome
    obtain rfl := Option.some.inj hsome
    rfl

theorem search_over (h : r.best (tier.filter fun id => id ∉ ineligible) = none) :
    search r authz tier ineligible = (none, []) := by
  rw [search]
  split
  · rfl
  · next hsome =>
    rw [h] at hsome
    cases hsome

/-- The search does not depend on the order of the tier. -/
theorem search_congr (h : ∀ a, a ∈ tier ↔ a ∈ tier') :
    search r authz tier ineligible = search r authz tier' ineligible := by
  have hbest : ∀ ineligible : List α, r.best (tier.filter fun id => id ∉ ineligible) =
      r.best (tier'.filter fun id => id ∉ ineligible) :=
    fun _ => Ranking.best_congr (filter_congr_mem _ h)
  fun_induction search r authz tier ineligible with
  | case1 ineligible hnone => rw [search_over ((hbest _).symm.trans hnone)]
  | case2 ineligible candidate hsome haccepted =>
    rw [search_round ((hbest _).symm.trans hsome), if_pos haccepted]
  | case3 ineligible candidate hsome hrejected rest ih =>
    rw [search_round ((hbest _).symm.trans hsome), if_neg hrejected, ← ih]

end Search

namespace Assignment

variable {x : Assignment α} {ticket : RoutedTicket α}

theorem mem_tier {a : α} (h : a ∈ x.tier ticket) :
    a ∈ x.eligibleIds ∧ assignedOf x.workloads a < x.maxActive :=
  mem_capacityEligible (mem_of_pickSkillTier h)

/-- An unassigned ticket is left to nobody exactly if the tier has nobody who passes the check. -/
theorem assignLocked_eq_none_iff (hticket : x.ticket = some ticket)
    (hunassigned : ticket.assignedAdminId = none) :
    (assignLocked x).1 = none ↔ ∀ a ∈ x.tier ticket, accepted (x.authz a) = false := by
  have hfilter : (x.ticket.filter fun t => t.assignedAdminId = none) = some ticket := by
    simp [hticket, hunassigned]
  have hnobody : x.remaining ticket = [] → ∀ a ∈ x.tier ticket, accepted (x.authz a) = false := by
    intro hnil a ha
    exact absurd (mem_of_pickSkillTier ha) (by rw [hnil]; simp)
  unfold assignLocked
  split_ifs with heligible
  · refine iff_of_true rfl fun a ha => absurd (mem_tier ha).1 ?_
    rw [heligible]
    simp
  · simp only [hfilter]
    split_ifs with hremaining
    · exact iff_of_true rfl (hnobody hremaining)
    · constructor
      · intro hnone a ha
        obtain hfull | hrejected := search_none hnone ha (by simp)
        · exact absurd (mem_tier ha).2 (not_lt.mpr hfull)
        · exact hrejected
      · intro hall
        by_contra hsome
        obtain ⟨a, ha⟩ := Option.ne_none_iff_exists'.mp hsome
        obtain ⟨hmem, haccepted⟩ := search_some ha
        rw [hall a hmem] at haccepted
        cases haccepted

/-- The roster in another order. -/
def reorder (x : Assignment α) (roster : List (RosterItem α)) : Assignment α :=
  { x with roster }

omit [LinearOrder α] in
theorem eligibleIds_reorder {roster : List (RosterItem α)} (h : roster.Perm x.roster) (a : α) :
    a ∈ (x.reorder roster).eligibleIds ↔ a ∈ x.eligibleIds := by
  simp only [eligibleIds, reorder, List.mem_map, List.mem_filter, h.mem_iff]

theorem workloads_reorder {roster : List (RosterItem α)} (h : roster.Perm x.roster) :
    (x.reorder roster).workloads = x.workloads := by
  funext a
  simp only [workloads, eligibleIds_reorder h]
  rfl

theorem remaining_reorder {roster : List (RosterItem α)} (h : roster.Perm x.roster) (a : α) :
    a ∈ (x.reorder roster).remaining ticket ↔ a ∈ x.remaining ticket := by
  unfold remaining
  rw [workloads_reorder h]
  exact capacityEligible_congr (eligibleIds_reorder h) a

theorem skills_reorder {roster : List (RosterItem α)} (h : roster.Perm x.roster) :
    (x.reorder roster).skills ticket = x.skills ticket := by
  funext a
  simp only [skills, remaining_reorder h]
  rfl

theorem tier_reorder {roster : List (RosterItem α)} (h : roster.Perm x.roster) (a : α) :
    a ∈ (x.reorder roster).tier ticket ↔ a ∈ x.tier ticket := by
  unfold tier
  rw [skills_reorder h]
  exact pickSkillTier_congr (remaining_reorder h) a

theorem ranking_reorder {roster : List (RosterItem α)} (h : roster.Perm x.roster) :
    (x.reorder roster).ranking ticket = x.ranking ticket := by
  unfold ranking
  rw [workloads_reorder h]
  rfl

/-- What an assignment does does not depend on the order of the roster. -/
theorem assignLocked_reorder {roster : List (RosterItem α)} (h : roster.Perm x.roster) :
    assignLocked (x.reorder roster) = assignLocked x := by
  have heligible : (x.reorder roster).eligibleIds = [] ↔ x.eligibleIds = [] :=
    not_iff_not.mp (ne_nil_congr (eligibleIds_reorder h))
  have hticket : (x.reorder roster).ticket = x.ticket := rfl
  unfold assignLocked
  simp only [heligible, hticket]
  split_ifs
  · rfl
  · split
    · rfl
    · next ticket _ =>
      have hremaining : (x.reorder roster).remaining ticket = [] ↔ x.remaining ticket = [] :=
        not_iff_not.mp (ne_nil_congr (remaining_reorder h))
      simp only [hremaining, ranking_reorder h]
      split_ifs
      · rfl
      · exact search_congr (tier_reorder h)

theorem assignLocked_nodup : (assignLocked x).2.Nodup := by
  unfold assignLocked
  split_ifs
  · exact List.nodup_nil
  · split
    · exact List.nodup_nil
    · split_ifs
      · exact List.nodup_nil
      · exact search_nodup

end Assignment

/-- The law of the assignment: an open unassigned ticket stays so only if every agent is at the
capacity or fails the check, nobody is asked about twice, and the order of the roster does not
matter. -/
structure FindsAgent (x : Assignment α) : Prop where
  complete : ∀ ticket, x.ticket = some ticket → ticket.status ∈ activeStatuses →
    ticket.assignedAdminId = none → (assignLocked x).1 = none → ∀ a ∈ x.eligibleIds,
      x.maxActive ≤ assignedOf x.workloads a ∨ accepted (x.authz a) = false
  once : (assignLocked x).2.Nodup
  unordered : ∀ roster : List (RosterItem α), roster.Perm x.roster →
    (assignLocked { x with roster }).1 = (assignLocked x).1

/-- The agents that were preferred for their headroom and skills suffice: one of them passes the
check, or nobody below the capacity does. -/
def TierSuffices (x : Assignment α) : Prop :=
  ∀ ticket, x.ticket = some ticket → ticket.status ∈ activeStatuses →
    ticket.assignedAdminId = none → (∃ a ∈ x.tier ticket, accepted (x.authz a) = true) ∨
      ∀ a ∈ x.eligibleIds, assignedOf x.workloads a < x.maxActive → accepted (x.authz a) = false

theorem findsAgent_iff (x : Assignment α) : FindsAgent x ↔ TierSuffices x := by
  constructor
  · intro h ticket hticket hactive hunassigned
    by_cases hsome : ∃ a ∈ x.tier ticket, accepted (x.authz a) = true
    · exact Or.inl hsome
    · push Not at hsome
      have hnone := (Assignment.assignLocked_eq_none_iff hticket hunassigned).mpr fun a ha => by
        simpa using hsome a ha
      refine Or.inr fun a ha hlt => ?_
      exact (h.complete ticket hticket hactive hunassigned hnone a ha).resolve_left (not_le.mpr hlt)
  · intro h
    refine ⟨fun ticket hticket hactive hunassigned hnone a ha => ?_, Assignment.assignLocked_nodup,
      fun roster hperm => congrArg Prod.fst (Assignment.assignLocked_reorder hperm)⟩
    have hrejected := (Assignment.assignLocked_eq_none_iff hticket hunassigned).mp hnone
    obtain ⟨b, hb, haccepted⟩ | hall := h ticket hticket hactive hunassigned
    · rw [hrejected b hb] at haccepted
      cases haccepted
    · obtain hle | hlt := le_or_gt x.maxActive (assignedOf x.workloads a)
      · exact Or.inl hle
      · exact Or.inr (hall a ha hlt)

/-- Agent 1 knows the category of the ticket but was frozen since; agent 2 is free. -/
def frozenSpecialist : Assignment ℕ :=
  { roster := [⟨1, .active, .supportAgent⟩, ⟨2, .active, .supportAgent⟩]
    ticket := some ⟨.open, none, .normal, "PAYMENT", none⟩
    workloadRows := []
    lastAssignedAt := fun _ => none
    skillRows := [(1, ⟨[], ["PAYMENT"]⟩)]
    authz := fun id => if id = 1 then some ⟨.frozen, .admin, .supportAgent⟩
      else some ⟨.active, .admin, .supportAgent⟩
    maxActive := 20 }

theorem frozenSpecialist_unassigned : ¬FindsAgent frozenSpecialist := by
  intro h
  have hnone := (Assignment.assignLocked_eq_none_iff (x := frozenSpecialist) rfl rfl).mpr
    (by decide +kernel)
  have hagent := h.complete _ rfl (by decide) rfl hnone 2 (by decide +kernel)
  exact absurd hagent (by decide +kernel)

end NexaStays.SupportRouting
