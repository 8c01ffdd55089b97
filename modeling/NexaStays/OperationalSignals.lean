import NexaStays.KeyedTable
import NexaStays.MoneyIdempotency

/-!
# Operational signals

An evaluation reads the rows of the rules it has evaluated, raises or resolves them and saves
them whole; an administrator's patch does the same with one row. Neither holds a lock between
its read and its save.
-/
namespace NexaStays.OperationalSignals
open KeyedTable MoneyIdempotency

inductive OperationalSignalType where
  | repeatReport
  | repeatSafetyReport
  | multipleOpenTickets
  | slaAttention
  | slaBreached
  | unassignedHighPriority
  | lowCsatPattern
  | followUpRequired
  | agentLowCsatPattern
  | agentLowSolvedRate
  | agentSlaDecline
  | categoryOutcomeDecline
  deriving DecidableEq, Repr

def OperationalSignalType.text : OperationalSignalType → String
  | .repeatReport => "REPEAT_REPORT"
  | .repeatSafetyReport => "REPEAT_SAFETY_REPORT"
  | .multipleOpenTickets => "MULTIPLE_OPEN_TICKETS"
  | .slaAttention => "SLA_ATTENTION"
  | .slaBreached => "SLA_BREACHED"
  | .unassignedHighPriority => "UNASSIGNED_HIGH_PRIORITY"
  | .lowCsatPattern => "LOW_CSAT_PATTERN"
  | .followUpRequired => "FOLLOW_UP_REQUIRED"
  | .agentLowCsatPattern => "AGENT_LOW_CSAT_PATTERN"
  | .agentLowSolvedRate => "AGENT_LOW_SOLVED_RATE"
  | .agentSlaDecline => "AGENT_SLA_DECLINE"
  | .categoryOutcomeDecline => "CATEGORY_OUTCOME_DECLINE"

inductive OperationalSignalSeverity where
  | info
  | low
  | medium
  | high
  | urgent
  deriving DecidableEq, Repr

inductive OperationalSignalStatus where
  | active
  | acknowledged
  | resolved
  deriving DecidableEq, Repr

def OperationalSignalStatus.text : OperationalSignalStatus → String
  | .active => "ACTIVE"
  | .acknowledged => "ACKNOWLEDGED"
  | .resolved => "RESOLVED"

inductive OperationalSignalSubjectType where
  | ticket
  | user
  | admin
  | report
  | safetyIssue
  | category
  deriving DecidableEq, Repr

def OperationalSignalSubjectType.text : OperationalSignalSubjectType → String
  | .ticket => "TICKET"
  | .user => "USER"
  | .admin => "ADMIN"
  | .report => "REPORT"
  | .safetyIssue => "SAFETY_ISSUE"
  | .category => "CATEGORY"

abbrev Metadata := List (String × Json)

/-- `{ ...metadata, ...extra }`. -/
def Metadata.spread (metadata extra : Metadata) : Metadata :=
  (metadata.filter fun f => f.1 ∉ extra.map (·.1)) ++ extra

structure StaysSupportOperationalSignal where
  id : ℕ
  ticketId : Option ℕ
  reportId : Option ℕ
  safetyIssueId : Option ℕ
  signalType : OperationalSignalType
  severity : OperationalSignalSeverity
  status : OperationalSignalStatus
  subjectType : OperationalSignalSubjectType
  subjectId : Option String
  ruleVersion : String
  dedupeKey : String
  metadata : Metadata
  firstDetectedAt : ℤ
  lastDetectedAt : ℤ
  acknowledgedAt : Option ℤ := none
  acknowledgedByAdminId : Option String := none
  resolvedAt : Option ℤ := none
  resolvedByAdminId : Option String := none

abbrev Signals := Table StaysSupportOperationalSignal.dedupeKey

def operationalRuleVersion : String := "v1"

def signalDedupeKey (type : OperationalSignalType) (subjectType : OperationalSignalSubjectType)
    (subjectId : String) : String :=
  operationalRuleVersion ++ ":" ++ type.text ++ ":" ++ subjectType.text ++ ":" ++ subjectId

structure DesiredSignal where
  type : OperationalSignalType
  severity : OperationalSignalSeverity
  subjectType : OperationalSignalSubjectType
  subjectId : String
  ticketId : Option ℕ := none
  reportId : Option ℕ := none
  safetyIssueId : Option ℕ := none
  metadata : Metadata
  reactivateResolved : Bool := true

def DesiredSignal.key (desire : DesiredSignal) : String :=
  signalDedupeKey desire.type desire.subjectType desire.subjectId

/-- The rows an evaluation has read, as it has changed them so far, the keys of those it is to
save, and the rows it is to insert. -/
structure Pass where
  rows : List StaysSupportOperationalSignal
  touched : List String
  created : List StaysSupportOperationalSignal

def Pass.byKey (a : Pass) (key : String) : Option StaysSupportOperationalSignal :=
  a.rows.find? fun r => r.dedupeKey = key

/-- A row of the pass is changed and is to be saved. -/
def Pass.touch (a : Pass) (key : String)
    (f : StaysSupportOperationalSignal → StaysSupportOperationalSignal) : Pass :=
  { a with
    rows := a.rows.map fun r => if r.dedupeKey = key then f r else r
    touched := key :: a.touched }

def createSignal (desire : DesiredSignal) (now : ℤ) (id : ℕ) : StaysSupportOperationalSignal :=
  { id, ticketId := desire.ticketId, reportId := desire.reportId
    safetyIssueId := desire.safetyIssueId, signalType := desire.type, severity := desire.severity
    status := .active, subjectType := desire.subjectType, subjectId := some desire.subjectId
    ruleVersion := operationalRuleVersion, dedupeKey := desire.key, metadata := desire.metadata
    firstDetectedAt := now, lastDetectedAt := now }

/-- A row that a rule has raised again. -/
def StaysSupportOperationalSignal.detected (row : StaysSupportOperationalSignal)
    (desire : DesiredSignal) (now : ℤ) : StaysSupportOperationalSignal :=
  let row := { row with
    severity := desire.severity
    metadata := desire.metadata
    lastDetectedAt := now
    ticketId := desire.ticketId.orElse fun _ => row.ticketId
    reportId := desire.reportId.orElse fun _ => row.reportId
    safetyIssueId := desire.safetyIssueId.orElse fun _ => row.safetyIssueId }
  if row.status = .resolved then
    { row with
      status := .active
      acknowledgedAt := none
      acknowledgedByAdminId := none
      resolvedAt := none
      resolvedByAdminId := none }
  else row

/-- A row whose rule no longer holds. -/
def StaysSupportOperationalSignal.cleared (row : StaysSupportOperationalSignal)
    (extra : Option Metadata) (now : ℤ) : StaysSupportOperationalSignal :=
  { row with
    status := .resolved
    resolvedAt := some now
    resolvedByAdminId := none
    metadata := (extra.map row.metadata.spread).getD row.metadata }

def Pass.upsert (now : ℤ) (newId : String → ℕ) (a : Pass) (desire : DesiredSignal) : Pass :=
  match a.byKey desire.key with
  | none => { a with created := a.created ++ [createSignal desire now (newId desire.key)] }
  | some row =>
    if row.status = .resolved ∧ desire.reactivateResolved = false then a
    else a.touch desire.key fun r => r.detected desire now

def Pass.resolve (now : ℤ) (resolveMetadata : String → Option Metadata) (a : Pass)
    (key : String) : Pass :=
  match a.byKey key with
  | none => a
  | some row =>
    if row.status = .resolved then a
    else a.touch key fun r => r.cleared (resolveMetadata key) now

/-- The two loops of `applyDesires` over the rows that it has read. -/
def desires (now : ℤ) (newId : String → ℕ) (upserts : List DesiredSignal)
    (resolveKeys : List String) (resolveMetadata : String → Option Metadata)
    (existing : List StaysSupportOperationalSignal) : Pass :=
  resolveKeys.foldl (Pass.resolve now resolveMetadata)
    (upserts.foldl (Pass.upsert now newId) ⟨existing, [], []⟩)

def Pass.saved (a : Pass) : List StaysSupportOperationalSignal :=
  a.rows.filter fun r => r.dedupeKey ∈ a.touched

/-- The rows to insert break one of the unique indexes. -/
def Conflicts (t : Signals) (created : List StaysSupportOperationalSignal) : Prop :=
  ¬ (created.map (·.dedupeKey)).Nodup ∨ ¬ (created.map (·.id)).Nodup ∨
    ∃ r ∈ created, ∃ x ∈ t.rows, x.dedupeKey = r.dedupeKey ∨ x.id = r.id

instance (t : Signals) (created : List StaysSupportOperationalSignal) :
    Decidable (Conflicts t created) :=
  inferInstanceAs (Decidable (_ ∨ _ ∨ _))

/-- A support agent may patch the signals of the tickets that are open to them. -/
inductive Actor where
  | admin
  | agent (canAccessTicket : ℕ → Bool)

inductive Thrown where
  | badRequest (message : String)
  | notFound (message : String)
  | uniqueViolation
  | statement
  deriving DecidableEq, Repr

def Actor.sees (actor : Actor) (row : StaysSupportOperationalSignal) : Bool :=
  match actor with
  | .admin => true
  | .agent canAccessTicket => (row.ticketId.map canAccessTicket).getD false

/-- The checks of `patchSignal` on the row that it has read. -/
def checkPatch (row : StaysSupportOperationalSignal) (nextStatus : OperationalSignalStatus)
    (actor : Actor) : Except Thrown Unit :=
  if row.signalType = .followUpRequired ∧ nextStatus = .acknowledged then
    .error (.badRequest "Follow-up signals must be resolved, not acknowledged")
  else if actor.sees row = false then .error (.notFound "Signal not found")
  else if row.status = .active ∧ (nextStatus = .acknowledged ∨ nextStatus = .resolved) ∨
      row.status = .acknowledged ∧ nextStatus = .resolved then .ok ()
  else
    .error (.badRequest
      ("Cannot transition signal from " ++ row.status.text ++ " to " ++ nextStatus.text))

/-- The row as `patchSignal` saves it. -/
def StaysSupportOperationalSignal.patched (row : StaysSupportOperationalSignal)
    (nextStatus : OperationalSignalStatus) (adminUserId : String) (now : ℤ) :
    StaysSupportOperationalSignal :=
  let row := { row with status := nextStatus }
  if nextStatus = .acknowledged then
    { row with acknowledgedAt := some now, acknowledgedByAdminId := some adminUserId }
  else
    { row with
      resolvedAt := some now
      resolvedByAdminId := some adminUserId
      metadata :=
        if row.signalType = .followUpRequired then
          row.metadata.spread [("resolution", .text "MARK_REVIEWED")]
        else row.metadata }

/-- `applyDesires` with what an evaluation has computed from tickets, reports and ratings, or a
patch. -/
inductive Request where
  | evaluate (upserts : List DesiredSignal) (resolveKeys : List String)
      (resolveMetadata : String → Option Metadata)
  | patch (signalId : ℕ) (nextStatus : OperationalSignalStatus) (adminUserId : String)
      (actor : Actor)

/-- Where a call is: before its read, between its read and its save, or over. An evaluation that
has lost an insert starts again once. -/
inductive Stage where
  | waiting (retried : Bool)
  | holding (retried : Bool) (rows : List StaysSupportOperationalSignal)
  | ended (result : Except Thrown Unit)

structure System where
  signals : Signals
  stages : ℕ → Stage

/-- The calls begin with these rows. -/
def start (signals : Signals) : System := ⟨signals, fun _ => .waiting false⟩

/-- The read of a call. -/
def look (signals : Signals) (retried : Bool) : Request → Stage
  | .evaluate upserts resolveKeys _ =>
    let keys := upserts.map DesiredSignal.key ++ resolveKeys
    if keys = [] then .ended (.ok ())
    else .holding retried (signals.rows.filter fun r => r.dedupeKey ∈ keys)
  | .patch signalId nextStatus _ actor =>
    if nextStatus ≠ .acknowledged ∧ nextStatus ≠ .resolved then
      .ended (.error (.badRequest "Invalid status"))
    else
      match signals.rows.find? fun r => r.id = signalId with
      | none => .ended (.error (.notFound "Signal not found"))
      | some row =>
        match checkPatch row nextStatus actor with
        | .error e => .ended (.error e)
        | .ok () => .holding retried [row]

/-- The save of a call that has read `rows`: the rows it changed, as they are in its memory. -/
def save (signals : Signals) (retried : Bool) (rows : List StaysSupportOperationalSignal)
    (now : ℤ) (newId : String → ℕ) : Request → Signals × Stage
  | .evaluate upserts resolveKeys resolveMetadata =>
    let pass := desires now newId upserts resolveKeys resolveMetadata rows
    if Conflicts signals pass.created then
      (signals, if retried then .ended (.error .uniqueViolation) else .waiting true)
    else ((signals.putAll pass.saved).putAll pass.created, .ended (.ok ()))
  | .patch _ nextStatus adminUserId _ =>
    (signals.putAll (rows.map fun row => row.patched nextStatus adminUserId now), .ended (.ok ()))

inductive Action where
  | look (i : ℕ)
  | save (i : ℕ) (now : ℤ) (newId : String → ℕ)
  | fail (i : ℕ)

def Action.caller : Action → ℕ
  | .look i => i
  | .save i _ _ => i
  | .fail i => i

/-- One statement of one of the calls, which may fail. -/
def step (requests : ℕ → Request) (sys : System) : Action → Option System
  | .look i =>
    match sys.stages i with
    | .waiting retried =>
      some { sys with
        stages := Function.update sys.stages i (look sys.signals retried (requests i)) }
    | _ => none
  | .save i now newId =>
    match sys.stages i with
    | .holding retried rows =>
      let saved := save sys.signals retried rows now newId (requests i)
      some ⟨saved.1, Function.update sys.stages i saved.2⟩
    | _ => none
  | .fail i =>
    match sys.stages i with
    | .ended _ => none
    | _ => some { sys with stages := Function.update sys.stages i (.ended (.error .statement)) }

/-- The runs whose steps satisfy `ok`. -/
inductive Run (requests : ℕ → Request) (ok : System → Action → System → Prop) (s : System) :
    System → Prop where
  | refl : Run requests ok s s
  | tail {t u : System} {a : Action} : Run requests ok s t → step requests t a = some u →
      ok t a u → Run requests ok s u

end NexaStays.OperationalSignals
