import Mathlib.Algebra.Order.Field.Rat
import Mathlib.Tactic.Linarith
import Mathlib.Tactic.NormNum
import Mathlib.Tactic.Positivity
import Mathlib.Tactic.Ring

/-!
# Service levels of support tickets

How late a ticket is, is computed once in milliseconds and as a ratio, and three times by the
database, with intervals and in seconds. Instants are whole milliseconds, the arithmetic is
exact.
-/
namespace NexaStays.SupportSla

inductive SupportTicketPriority where
  | low | normal | high | urgent
  deriving DecidableEq, Repr

inductive SupportSlaState where
  | onTrack | atRisk | breached
  deriving DecidableEq, Repr

structure SlaPolicy where
  firstResponseHours : ℕ
  resolutionHours : ℕ
  deriving DecidableEq, Repr

/-- `SUPPORT_SLA`. -/
def supportSla : SupportTicketPriority → SlaPolicy
  | .low => { firstResponseHours := 24, resolutionHours := 120 }
  | .normal => { firstResponseHours := 12, resolutionHours := 72 }
  | .high => { firstResponseHours := 4, resolutionHours := 24 }
  | .urgent => { firstResponseHours := 1, resolutionHours := 8 }

structure SlaInput where
  createdAt : ℤ
  priority : SupportTicketPriority
  firstAdminResponseAt : Option ℤ
  resolvedAt : Option ℤ
  deriving DecidableEq, Repr

structure SupportSlaLeg where
  targetAt : ℤ
  completedAt : Option ℤ
  state : SupportSlaState
  deriving DecidableEq, Repr

structure SupportSlaPayload where
  firstResponse : SupportSlaLeg
  resolution : SupportSlaLeg
  deriving DecidableEq, Repr

def addHours (base : ℤ) (hours : ℕ) : ℤ := base + hours * 60 * 60 * 1000

def slaStateFor (createdAt targetAt : ℤ) (completedAt : Option ℤ) (now : ℤ) : SupportSlaState :=
  match completedAt with
  | some completedAt => if completedAt ≤ targetAt then .onTrack else .breached
  | none =>
    let windowMs := targetAt - createdAt
    if windowMs ≤ 0 then .breached
    else
      let elapsed := now - createdAt
      let ratio : ℚ := elapsed / windowMs
      if ratio < 0.8 then .onTrack else if ratio < 1 then .atRisk else .breached

def computeSupportSla (input : SlaInput) (now : ℤ) : SupportSlaPayload :=
  let policy := supportSla input.priority
  let frTarget := addHours input.createdAt policy.firstResponseHours
  let resTarget := addHours input.createdAt policy.resolutionHours
  { firstResponse :=
      { targetAt := frTarget
        completedAt := input.firstAdminResponseAt
        state := slaStateFor input.createdAt frTarget input.firstAdminResponseAt now }
    resolution :=
      { targetAt := resTarget
        completedAt := input.resolvedAt
        state := slaStateFor input.createdAt resTarget input.resolvedAt now } }

/-- The worse of two states. -/
def worse : SupportSlaState → SupportSlaState → SupportSlaState
  | .breached, _ | _, .breached => .breached
  | .atRisk, _ | _, .atRisk => .atRisk
  | .onTrack, .onTrack => .onTrack

/-- A value bound to a parameter of a query. -/
inductive SqlValue where
  | int (n : ℕ)
  | timestamptz (at_ : ℤ)
  deriving DecidableEq, Repr

namespace SqlValue

def asInt : SqlValue → ℕ
  | int n => n
  | timestamptz _ => 0

def asTimestamptz : SqlValue → ℤ
  | int _ => 0
  | timestamptz t => t

end SqlValue

/-- `$n`. -/
def positional (params : List SqlValue) (n : ℕ) : SqlValue := params.getD (n - 1) (.int 0)

/-- `INTERVAL '1 hour'`. -/
def interval1Hour : ℤ := 3600000

/-- `EXTRACT(EPOCH FROM …)` of an interval, in seconds. -/
def extractEpoch (interval : ℤ) : ℚ := interval / 1000

/-- `CASE priority WHEN 'LOW' … ELSE … END`. -/
def hoursCase (priority : SupportTicketPriority) (low high urgent normal : ℕ) : ℕ :=
  match priority with
  | .low => low
  | .high => high
  | .urgent => urgent
  | .normal => normal

def slaLegSql (createdAt : ℤ) (completed : Option ℤ) (hours : ℕ) (now : ℤ) : SupportSlaState :=
  match completed with
  | some completed => if completed ≤ createdAt + hours * interval1Hour then .onTrack else .breached
  | none =>
    if extractEpoch (now - createdAt) < 0.8 * hours * 3600 then .onTrack
    else if extractEpoch (now - createdAt) < hours * 3600 then .atRisk
    else .breached

/-- `combined`. -/
def combinedCase (fr res : SupportSlaState) : SupportSlaState :=
  if fr = .breached ∨ res = .breached then .breached
  else if fr = .atRisk ∨ res = .atRisk then .atRisk
  else .onTrack

/-- The query text with its parameters at their positions. -/
def liveSlaStateSql (frLow frNormal frHigh frUrgent resLow resNormal resHigh resUrgent now : ℕ)
    (params : List SqlValue) (t : SlaInput) : SupportSlaState :=
  let int n := (positional params n).asInt
  let frHours := hoursCase t.priority (int frLow) (int frHigh) (int frUrgent) (int frNormal)
  let resHours := hoursCase t.priority (int resLow) (int resHigh) (int resUrgent) (int resNormal)
  let now := (positional params now).asTimestamptz
  combinedCase (slaLegSql t.createdAt t.firstAdminResponseAt frHours now)
    (slaLegSql t.createdAt t.resolvedAt resHours now)

/-- `slaParams` of `listAttention` and of `queryAssignedAgentWorkload`. -/
def slaParams (now : ℤ) : List SqlValue :=
  [.int (supportSla .low).firstResponseHours, .int (supportSla .normal).firstResponseHours,
    .int (supportSla .high).firstResponseHours, .int (supportSla .urgent).firstResponseHours,
    .int (supportSla .low).resolutionHours, .int (supportSla .normal).resolutionHours,
    .int (supportSla .high).resolutionHours, .int (supportSla .urgent).resolutionHours,
    .timestamptz now]

def listAttentionState (t : SlaInput) (now : ℤ) : SupportSlaState :=
  liveSlaStateSql 1 2 3 4 5 6 7 8 9 (slaParams now) t

/-- What `queryAssignedAgentWorkload` counts as at risk and as breached. -/
def workloadState (t : SlaInput) (now : ℤ) : SupportSlaState :=
  liveSlaStateSql 1 2 3 4 5 6 7 8 9 (slaParams now) t

/-- The parameters of the named query. -/
structure NamedParams where
  slaFrLow : ℕ
  slaFrNormal : ℕ
  slaFrHigh : ℕ
  slaFrUrgent : ℕ
  slaResLow : ℕ
  slaResNormal : ℕ
  slaResHigh : ℕ
  slaResUrgent : ℕ
  slaNow : ℤ
  deriving DecidableEq, Repr

def liveSlaStateSqlNamed (params : NamedParams) (t : SlaInput) : SupportSlaState :=
  let frHours := hoursCase t.priority params.slaFrLow params.slaFrHigh params.slaFrUrgent
    params.slaFrNormal
  let resHours := hoursCase t.priority params.slaResLow params.slaResHigh params.slaResUrgent
    params.slaResNormal
  combinedCase (slaLegSql t.createdAt t.firstAdminResponseAt frHours params.slaNow)
    (slaLegSql t.createdAt t.resolvedAt resHours params.slaNow)

/-- Whether `applySlaStateFilter` lets the ticket through. -/
def applySlaStateFilter (t : SlaInput) (slaState : SupportSlaState) (now : ℤ) : Bool :=
  liveSlaStateSqlNamed
    { slaFrLow := (supportSla .low).firstResponseHours
      slaFrNormal := (supportSla .normal).firstResponseHours
      slaFrHigh := (supportSla .high).firstResponseHours
      slaFrUrgent := (supportSla .urgent).firstResponseHours
      slaResLow := (supportSla .low).resolutionHours
      slaResNormal := (supportSla .normal).resolutionHours
      slaResHigh := (supportSla .high).resolutionHours
      slaResUrgent := (supportSla .urgent).resolutionHours
      slaNow := now } t = slaState

/-- `legStateSql` of `getAnalyticsForAdmin`. -/
def legStateSql (createdAt : ℤ) (completed : Option ℤ) (hours : ℕ) (params : List SqlValue) :
    SupportSlaState :=
  match completed with
  | some completed => if completed ≤ createdAt + hours * interval1Hour then .onTrack else .breached
  | none =>
    let now := (positional params 11).asTimestamptz
    if extractEpoch (now - createdAt) < 0.8 * hours * 3600 then .onTrack
    else if extractEpoch (now - createdAt) < hours * 3600 then .atRisk
    else .breached

/-- The parameters of the analytics, of which the first two bound the creation. -/
def analyticsParams (from_ toExclusive now : ℤ) : List SqlValue :=
  .timestamptz from_ :: .timestamptz toExclusive :: slaParams now

structure AnalyticsRow where
  frState : SupportSlaState
  resState : SupportSlaState
  deriving DecidableEq, Repr

/-- The states that `getAnalyticsForAdmin` groups a ticket by. -/
def analyticsRow (t : SlaInput) (from_ toExclusive now : ℤ) : AnalyticsRow :=
  let params := analyticsParams from_ toExclusive now
  let int n := (positional params n).asInt
  { frState := legStateSql t.createdAt t.firstAdminResponseAt
      (hoursCase t.priority (int 3) (int 5) (int 6) (int 4)) params
    resState := legStateSql t.createdAt t.resolvedAt
      (hoursCase t.priority (int 7) (int 9) (int 10) (int 8)) params }

theorem addHours_eq (base : ℤ) (hours : ℕ) : addHours base hours = base + hours * interval1Hour := by
  unfold addHours interval1Hour
  ring

/-- A share of the window in milliseconds is the same share of the hours in seconds. -/
theorem ratio_lt_iff {elapsed : ℤ} {hours : ℕ} (hhours : 0 < hours) (share : ℚ) :
    (elapsed : ℚ) / ((hours * interval1Hour : ℤ) : ℚ) < share ↔
      extractEpoch elapsed < share * hours * 3600 := by
  have hpos : (0 : ℚ) < hours := by exact_mod_cast hhours
  have hwindow : ((hours * interval1Hour : ℤ) : ℚ) = hours * 3600000 := by
    simp [interval1Hour]
  rw [hwindow, div_lt_iff₀ (by positivity), extractEpoch]
  constructor
  · intro h
    linarith
  · intro h
    linarith

/-- One leg: the ratio of the process and the seconds of the database. -/
theorem slaStateFor_eq_slaLegSql {hours : ℕ} (hhours : 0 < hours) (createdAt : ℤ)
    (completed : Option ℤ) (now : ℤ) :
    slaStateFor createdAt (addHours createdAt hours) completed now =
      slaLegSql createdAt completed hours now := by
  rw [addHours_eq]
  cases completed with
  | some completed => rfl
  | none =>
    have hwindow : createdAt + hours * interval1Hour - createdAt = hours * interval1Hour := by ring
    have hpos : ¬(hours * interval1Hour : ℤ) ≤ 0 := by
      unfold interval1Hour
      omega
    simp only [slaStateFor, slaLegSql, hwindow, if_neg hpos, ratio_lt_iff hhours, one_mul]

theorem combinedCase_eq_worse (fr res : SupportSlaState) : combinedCase fr res = worse fr res := by
  cases fr <;> cases res <;> rfl

theorem firstResponseHours_pos (p : SupportTicketPriority) : 0 < (supportSla p).firstResponseHours := by
  cases p <;> decide

theorem resolutionHours_pos (p : SupportTicketPriority) : 0 < (supportSla p).resolutionHours := by
  cases p <;> decide

/-- The parameters are bound to the hours of the policy. -/
theorem hoursCase_firstResponse (p : SupportTicketPriority) :
    hoursCase p (supportSla .low).firstResponseHours (supportSla .high).firstResponseHours
      (supportSla .urgent).firstResponseHours (supportSla .normal).firstResponseHours =
        (supportSla p).firstResponseHours := by
  cases p <;> rfl

theorem hoursCase_resolution (p : SupportTicketPriority) :
    hoursCase p (supportSla .low).resolutionHours (supportSla .high).resolutionHours
      (supportSla .urgent).resolutionHours (supportSla .normal).resolutionHours =
        (supportSla p).resolutionHours := by
  cases p <;> rfl

/-- The state of a ticket, as its payload shows it. -/
def payloadState (t : SlaInput) (now : ℤ) : SupportSlaState :=
  worse (computeSupportSla t now).firstResponse.state (computeSupportSla t now).resolution.state

theorem combined_eq_payloadState (t : SlaInput) (now : ℤ) :
    combinedCase
      (slaLegSql t.createdAt t.firstAdminResponseAt (supportSla t.priority).firstResponseHours now)
      (slaLegSql t.createdAt t.resolvedAt (supportSla t.priority).resolutionHours now) =
        payloadState t now := by
  rw [combinedCase_eq_worse, payloadState, computeSupportSla,
    slaStateFor_eq_slaLegSql (firstResponseHours_pos _),
    slaStateFor_eq_slaLegSql (resolutionHours_pos _)]

/-- The payload of a ticket, the queue of attention, the workload of an agent, the filter of the
list and the analytics agree on the state of every ticket at every moment. -/
theorem slaState_agrees (t : SlaInput) (now from_ toExclusive : ℤ) :
    payloadState t now = listAttentionState t now ∧ payloadState t now = workloadState t now ∧
      (∀ state, applySlaStateFilter t state now = true ↔ payloadState t now = state) ∧
      analyticsRow t from_ toExclusive now =
        ⟨(computeSupportSla t now).firstResponse.state, (computeSupportSla t now).resolution.state⟩ := by
  have hlive : payloadState t now = listAttentionState t now := by
    rw [← combined_eq_payloadState, ← hoursCase_firstResponse t.priority,
      ← hoursCase_resolution t.priority]
    rfl
  refine ⟨hlive, hlive, fun state => ?_, ?_⟩
  · rw [applySlaStateFilter, decide_eq_true_iff, ← combined_eq_payloadState,
      ← hoursCase_firstResponse t.priority, ← hoursCase_resolution t.priority]
    rfl
  · rw [computeSupportSla, slaStateFor_eq_slaLegSql (firstResponseHours_pos _),
      slaStateFor_eq_slaLegSql (resolutionHours_pos _), ← hoursCase_firstResponse t.priority,
      ← hoursCase_resolution t.priority]
    rfl

/-- An open ticket of the lowest priority is at risk from four fifths of its day on. -/
example : payloadState ⟨0, .low, none, some 0⟩ 69120000 = .atRisk ∧
    payloadState ⟨0, .low, none, some 0⟩ 69119999 = .onTrack := by decide +kernel

end NexaStays.SupportSla
