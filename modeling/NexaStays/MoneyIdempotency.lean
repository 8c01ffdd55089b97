import Mathlib.Data.Int.Notation
import Mathlib.Data.List.Basic
import Mathlib.Logic.Function.Basic

/-!
# Idempotency keys of money movements

`runInTransaction` reserves a row for the key, runs the work of a caller and writes down how it
ended, all in one database transaction. A key is settled by the first attempt that commits, and
an attempt whose work throws does not: what was written about it is rolled back with the rest.
-/
namespace NexaStays.MoneyIdempotency

inductive Json where
  | null
  | bool (b : Bool)
  | number (digits : String)
  | text (s : String)
  | array (items : List Json)
  | object (fields : List (String × Json))
  deriving Repr

mutual

/-- Keys in order, without `idempotency_key`. -/
def canonicalizeForIdempotency : Json → Json
  | .array items => .array (canonicalizeItems items)
  | .object fields =>
    .object (((canonicalizeFields fields).filter fun f => f.1 ≠ "idempotency_key").mergeSort
      fun f g => f.1 ≤ g.1)
  | value => value

def canonicalizeItems : List Json → List Json
  | [] => []
  | item :: items => canonicalizeForIdempotency item :: canonicalizeItems items

def canonicalizeFields : List (String × Json) → List (String × Json)
  | [] => []
  | (k, v) :: fields => (k, canonicalizeForIdempotency v) :: canonicalizeFields fields

end

/-- `r[name]` of what may be an object. -/
def Json.field? (name : String) : Json → Option Json
  | .object fields => (fields.find? fun f => f.1 = name).map (·.2)
  | _ => none

def Json.text? : Json → Option String
  | .text s => some s
  | _ => none

def Json.isNull : Json → Bool
  | .null => true
  | _ => false

/-- `typeof value === 'object' && value !== null`. -/
def Json.isObject : Json → Bool
  | .array _ | .object _ => true
  | _ => false

inductive MoneyMovementIdempotencyStatus where
  | inFlight
  | completed
  | failed
  | uncertain
  deriving DecidableEq, Repr

inductive MoneyMovementScope where
  | p2pTransfer
  | qrPayment
  | nfcPayment
  | topup
  | withdraw
  | refund
  | adminTransactionReversal
  | staysWalletPayment
  | subscriptionPro
  deriving DecidableEq, Repr

structure HttpException where
  status : ℕ
  response : Json
  deriving Repr

/-- What a work throws; an unknown error may have a message. -/
inductive Thrown where
  | http (e : HttpException)
  | unknown (message : Option String)
  deriving Repr

structure ErrorJson where
  statusCode : ℕ
  error : Json
  deriving Repr

structure MoneyMovementIdempotencyRecord (η : Type) where
  id : ℕ
  scope : MoneyMovementScope
  actorUserId : String
  idempotencyKey : String
  requestHash : η
  status : MoneyMovementIdempotencyStatus
  responseContractVersion : Option ℕ := none
  httpStatus : Option ℕ := none
  responseJson : Option Json := none
  errorJson : Option ErrorJson := none
  ledgerTransactionId : Option String := none
  appTransactionId : Option String := none
  updatedAt : ℤ
  expiresAt : ℤ
  deriving Repr

/-- The rows, and whatever else the work of a caller reads and writes. -/
structure Database (η β : Type) where
  records : List (MoneyMovementIdempotencyRecord η)
  business : β

/-- The digest of a canonical document, the texts that a `uuid` column takes, and the
configuration of the service. -/
structure Env (η : Type) where
  digest : Json → η
  uuid : String → Bool
  moneyIdempotencyStaleInFlightMinutes : ℕ := 15
  moneyIdempotencyResponseContractVersion : ℕ := 1
  idempotencyDeleteRowOnServerError : Bool := false

structure MoneyIdempotencyRunParams where
  scope : MoneyMovementScope
  actorUserId : String
  idempotencyKey : String
  requestPayload : Json
  ttlHours : Option ℕ := none
  staleInFlightMinutes : Option ℕ := none

/-- The work of a caller, in the transaction of the row; `none` is `undefined`. -/
abbrev Work (β : Type) := β → Except Thrown (Option Json) × β

/-- A call, with the time at which it runs. -/
structure Attempt (β : Type) where
  params : MoneyIdempotencyRunParams
  work : Work β
  now : ℤ

/-- What a call ends with, and whether it has run its work. -/
structure Reply where
  answer : Except Thrown (Option Json)
  worked : Bool

section Service

variable {η β : Type} [DecidableEq η]

def canonicalRequestHash (env : Env η) (payload : Json) : η :=
  env.digest (canonicalizeForIdempotency payload)

def conflict (code message : String) : Thrown :=
  .http ⟨409, .object [("code", .text code), ("message", .text message)]⟩

def differentRequest : Thrown :=
  conflict "IDEMPOTENCY_KEY_REUSE_DIFFERENT_REQUEST"
    "Idempotency-Key was already used with a different request payload for this actor and scope."

def missingResponse : Thrown :=
  conflict "IDEMPOTENCY_CORRUPT_ROW" "Idempotency replay row is missing cached response."

def missingError : Thrown :=
  conflict "IDEMPOTENCY_CORRUPT_ROW" "Idempotency replay row is missing cached error."

def inProgress : Thrown :=
  .http ⟨409, .object [("code", .text "IDEMPOTENCY_IN_PROGRESS"),
    ("message", .text
      "A request with this Idempotency-Key is still being processed. Retry with backoff."),
    ("retry_after_ms", .number "750")]⟩

def outcomeUncertain (id : ℕ) : Thrown :=
  .http ⟨503, .object [("code", .text "IDEMPOTENCY_OUTCOME_UNCERTAIN"),
    ("message", .text ("Prior attempt has no confirmed outcome (server/PSP ambiguity). " ++
      "Do not repeat money movement with the same Idempotency-Key until reconciliation.")),
    ("idempotency_record_id", .number (toString id))]⟩

/-- What every statement throws after one of the transaction has failed. -/
def transactionAborted : Thrown := .unknown (some "current transaction is aborted")

def serializeUnknownError (message : Option String) : ErrorJson :=
  ⟨500, .object [("code", .text "INTERNAL_OR_UNKNOWN"),
    ("message", .text (message.getD "Unknown error"))]⟩

def serializeHttpException (e : HttpException) : ErrorJson :=
  ⟨e.status, if e.response.isObject then e.response else .object [("message", e.response)]⟩

def toHttpException (row : MoneyMovementIdempotencyRecord η) : Thrown :=
  .http ⟨((row.errorJson.map (·.statusCode)).orElse fun _ => row.httpStatus).getD 409,
    (row.errorJson.map (·.error)).getD (.object [("message", .text "Request failed")])⟩

/-- `ledgerTransactionId` and `appTransactionId` of a result. -/
def extractLedgerMeta (result : Option Json) : Option String × Option String :=
  let text (name : String) := (result.bind (·.field? name)).bind Json.text?
  (text "ledger_transaction_id", (text "transaction_id").orElse fun _ => text "id")

def isStaleInFlight (row : MoneyMovementIdempotencyRecord η) (staleMinutes : ℕ) (now : ℤ) : Bool :=
  row.updatedAt < now - staleMinutes * 60 * 1000

/-- What the row of a key answers; nothing where it is stale and reclaimed. -/
def replay (requestHash : η) (staleMinutes : ℕ) (now : ℤ)
    (existing : MoneyMovementIdempotencyRecord η) : Option (Except Thrown (Option Json)) :=
  if existing.requestHash ≠ requestHash then some (.error differentRequest)
  else
    match existing.status with
    | .completed =>
      match existing.responseJson with
      | none => some (.error missingResponse)
      | some response => some (.ok (some response))
    | .failed =>
      match existing.errorJson with
      | none => some (.error missingError)
      | some _ => some (.error (toHttpException existing))
    | .uncertain => some (.error (outcomeUncertain existing.id))
    | .inFlight =>
      if isStaleInFlight existing staleMinutes now then none else some (.error inProgress)

def hasKey (params : MoneyIdempotencyRunParams) (row : MoneyMovementIdempotencyRecord η) : Bool :=
  row.scope = params.scope ∧ row.actorUserId = params.actorUserId ∧
    row.idempotencyKey = params.idempotencyKey

/-- The row of a key; the table has a unique index on it. -/
def findRecord (params : MoneyIdempotencyRunParams) (db : Database η β) :
    Option (MoneyMovementIdempotencyRecord η) :=
  db.records.find? (hasKey params)

def freshId (records : List (MoneyMovementIdempotencyRecord η)) : ℕ :=
  (records.map (·.id)).foldr max 0 + 1

def deleteRecord (id : ℕ) (db : Database η β) : Database η β :=
  { db with records := db.records.filter fun row => row.id ≠ id }

def updateRecord (id : ℕ)
    (f : MoneyMovementIdempotencyRecord η → MoneyMovementIdempotencyRecord η)
    (db : Database η β) : Database η β :=
  { db with records := db.records.map fun row => if row.id = id then f row else row }

/-- The reservation of a key. -/
def reserved (env : Env η) (params : MoneyIdempotencyRunParams) (now : ℤ) (id : ℕ) :
    MoneyMovementIdempotencyRecord η :=
  { id
    scope := params.scope
    actorUserId := params.actorUserId
    idempotencyKey := params.idempotencyKey
    requestHash := canonicalRequestHash env params.requestPayload
    status := .inFlight
    updatedAt := now
    expiresAt := now + (params.ttlHours.getD 24 : ℕ) * 3600 * 1000 }

/-- The row of a work that returned; `null` and `undefined` are no response. -/
def completedRow (env : Env η) (result : Option Json) (now : ℤ)
    (row : MoneyMovementIdempotencyRecord η) : MoneyMovementIdempotencyRecord η :=
  { row with
    status := .completed
    httpStatus := some 200
    responseJson := result.filter fun response => !response.isNull
    responseContractVersion := some env.moneyIdempotencyResponseContractVersion
    ledgerTransactionId := (extractLedgerMeta result).1
    appTransactionId := (extractLedgerMeta result).2
    updatedAt := now
    expiresAt := now + 365 * 24 * 3600 * 1000 }

def failedRow (status : MoneyMovementIdempotencyStatus) (httpStatus : ℕ) (error : ErrorJson)
    (now : ℤ) (row : MoneyMovementIdempotencyRecord η) : MoneyMovementIdempotencyRecord η :=
  { row with
    status := status
    httpStatus := some httpStatus
    errorJson := some error
    updatedAt := now }

/-- What is written about a work that threw. -/
def recordFailure (env : Env η) (id : ℕ) (now : ℤ) (db : Database η β) : Thrown → Database η β
  | .http e =>
    if 400 ≤ e.status ∧ e.status < 500 then
      updateRecord id (failedRow .failed e.status (serializeHttpException e) now) db
    else if env.idempotencyDeleteRowOnServerError then deleteRecord id db
    else updateRecord id (failedRow .uncertain e.status (serializeHttpException e) now) db
  | .unknown message =>
    if env.idempotencyDeleteRowOnServerError then deleteRecord id db
    else updateRecord id (failedRow .uncertain 500 (serializeUnknownError message) now) db

/-- The columns take the identifiers of a result. -/
def Storable (env : Env η) (result : Option Json) : Prop :=
  (∀ t, (extractLedgerMeta result).1 = some t → env.uuid t = true) ∧
    ∀ t, (extractLedgerMeta result).2 = some t → env.uuid t = true

instance (env : Env η) (result : Option Json) : Decidable (Storable env result) :=
  inferInstanceAs (Decidable (_ ∧ _))

/-- Reserve the key, run the work, and write down how it ended. -/
def perform (env : Env η) (a : Attempt β) (db : Database η β) : Reply × Database η β :=
  let row := reserved env a.params a.now (freshId db.records)
  let db := { db with records := db.records ++ [row] }
  match a.work db.business with
  | (.ok result, business) =>
    let db := { db with business }
    if Storable env result then
      (⟨.ok result, true⟩, updateRecord row.id (completedRow env result a.now) db)
    else (⟨.error transactionAborted, true⟩, db)
  | (.error err, business) =>
    (⟨.error err, true⟩, recordFailure env row.id a.now { db with business } err)

/-- What runs in the transaction. -/
def body (env : Env η) (a : Attempt β) (db : Database η β) : Reply × Database η β :=
  match findRecord a.params db with
  | none => perform env a db
  | some existing =>
    match replay (canonicalRequestHash env a.params.requestPayload)
        (a.params.staleInFlightMinutes.getD env.moneyIdempotencyStaleInFlightMinutes) a.now
        existing with
    | some answer => (⟨answer, false⟩, db)
    | none => perform env a (deleteRecord existing.id db)

/-- A transaction commits what its body has returned from, and rolls back what has thrown. -/
def transaction (body : Database η β → Reply × Database η β) (db : Database η β) :
    Reply × Database η β :=
  match body db with
  | (reply, db') =>
    match reply.answer with
    | .ok _ => (reply, db')
    | .error _ => (reply, db)

def runInTransaction (env : Env η) (a : Attempt β) (db : Database η β) : Reply × Database η β :=
  transaction (body env a) db

/-- A call that has been made. -/
structure Turn (β : Type) where
  attempt : Attempt β
  reply : Reply

/-- Calls one after the other. -/
def turns (env : Env η) (db : Database η β) : List (Attempt β) → List (Turn β)
  | [] => []
  | a :: as => ⟨a, (runInTransaction env a db).1⟩ :: turns env (runInTransaction env a db).2 as

def SamePayload (a b : Attempt β) : Prop :=
  canonicalizeForIdempotency a.params.requestPayload =
    canonicalizeForIdempotency b.params.requestPayload

variable {env : Env η} {a a' : Attempt β} {db : Database η β} {params : MoneyIdempotencyRunParams}

/-- The row of the key tells how the call `a` ended, which returned `result`. -/
structure Settled (env : Env η) (params : MoneyIdempotencyRunParams) (a : Attempt β)
    (result : Option Json) (row : MoneyMovementIdempotencyRecord η) : Prop where
  status : row.status = .completed
  hash : row.requestHash = canonicalRequestHash env a.params.requestPayload
  response : row.responseJson = result.filter fun response => !response.isNull

end Service

/-- A work that counts its runs and returns. -/
def paid : Work ℕ := fun runs => (.ok (some (.text "paid")), runs + 1)

end NexaStays.MoneyIdempotency
