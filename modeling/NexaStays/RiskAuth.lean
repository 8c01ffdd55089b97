import NexaStays.Exceptions
import NexaStays.PinLogin

/-!
# The risk middleware of the PIN login

`RiskAuthMiddleware` compares the headers of a request with those of the last login of the user
that the request is about, before the handler runs. It finds the user by the text of the phone
number in the body; the handler normalizes that text first.
-/
namespace NexaStays.RiskAuth

open NexaStays.KeyedTable NexaStays.Transactions NexaStays.PersonStore NexaStays.LoginStore
open NexaStays.PinLogin
open NexaStays.IdentityStore (AccountType)
open NexaStays.SqlText (trim)

/-- The entries of the metadata of an audit entry that are texts. -/
structure AuditMetadata where
  ip : Option String
  country : Option String
  deviceFingerprint : Option String
  deriving DecidableEq, Repr

structure AuditLog where
  id : ℕ
  userId : Option ℕ
  action : String
  metadata : Option AuditMetadata
  createdAt : ℤ
  deriving DecidableEq, Repr

/-- The thresholds are rounded up; nothing is a threshold that is no number. -/
structure RiskConfig where
  mediumThreshold : Option ℤ
  highThreshold : Option ℤ
  /-- The SHA-256 of a text. -/
  digest : String → String
  toUpperCase : String → String

/-- The request as the middleware sees it: a header that is no text is absent. -/
structure Request where
  userId : Option ℕ
  phoneNumber : Option String
  accountType : Option String
  ip : String
  remoteAddress : Option String
  cfIpCountry : Option String
  countryCode : Option String
  geoCountry : Option String
  deviceId : Option String
  userAgent : Option String
  explicitFingerprint : Option String
  deriving DecidableEq, Repr

structure RiskContext where
  ip : String
  country : Option String
  deviceId : Option String
  deviceFingerprint : String
  userAgent : Option String
  deriving DecidableEq, Repr

structure RiskAuthAssessment where
  userId : Option ℕ
  riskScore : ℕ
  level : RiskAuthLevel
  reasonCodes : List String
  context : RiskContext
  deriving DecidableEq, Repr

/-- What the middleware reads, and which of several rows the database returns to it. -/
structure Records where
  users : Table User.id
  auditLog : Table AuditLog.id
  userChoice : ℕ
  auditChoice : ℕ

variable (config : RiskConfig) (records : Records)

def getString (value : Option String) : Option String := (value.map trim).filter (· ≠ "")

def usersStoredAs (phone accountType : String) (users : List User) : List User :=
  users.filter fun u => u.phoneNumber = some phone ∧
    u.accountType.map accountTypeText = some accountType

def resolveTargetUserId (req : Request) : Option ℕ :=
  match req.userId with
  | some userId => some userId
  | none =>
    (getString req.phoneNumber).bind fun phone =>
      (Program.pick records.userChoice (usersStoredAs phone
        ((getString req.accountType).getD "CONSUMER") records.users.rows)).map (·.id)

/-- `texts` joined by `||`. -/
def firstFilled (texts : List String) (last : String) : String :=
  (texts.find? (· ≠ "")).getD last

def extractContext (req : Request) : RiskContext :=
  { ip := firstFilled [trim req.ip, req.remoteAddress.getD ""] "0.0.0.0"
    country := ((getString req.cfIpCountry).or (getString req.countryCode)).or
      (getString req.geoCountry)
    deviceId := getString req.deviceId
    deviceFingerprint := config.digest ((getString req.explicitFingerprint).getD
      ((getString req.deviceId).getD "" ++ "|" ++ (getString req.userAgent).getD ""))
    userAgent := getString req.userAgent }

/-- The logins of a user, and the newest ones of them. -/
def loginsOf (userId : ℕ) (auditLog : List AuditLog) : List AuditLog :=
  auditLog.filter fun a => a.userId = some userId ∧ a.action = "LOGIN_SUCCESS"

def newest (entries : List AuditLog) : List AuditLog :=
  entries.filter fun a => entries.all fun b => b.createdAt ≤ a.createdAt

def lastLogin (userId : ℕ) : Option AuditLog :=
  Program.pick records.auditChoice (newest (loginsOf userId records.auditLog.rows))

def parsePreviousContext (metadata : Option AuditMetadata) : AuditMetadata :=
  match metadata with
  | none => ⟨none, none, none⟩
  | some m => ⟨getString m.ip, getString m.country, getString m.deviceFingerprint⟩

/-- The signals, each with its score and its reason. -/
def signals (previous : AuditMetadata) (context : RiskContext) : List (ℕ × String) :=
  (if previous.ip.any (· ≠ context.ip) then [(30, "IP_CHANGED")] else []) ++
  (if previous.country.any fun old => context.country.any fun new =>
      config.toUpperCase old ≠ config.toUpperCase new
    then [(35, "GEO_ANOMALY_COUNTRY_CHANGED")] else []) ++
  (if previous.deviceFingerprint.any (· ≠ context.deviceFingerprint) then
    [(40, "DEVICE_FINGERPRINT_MISMATCH")] else [])

def levelOf (score : ℕ) : RiskAuthLevel :=
  if config.highThreshold.any (· ≤ (score : ℤ)) then .high
  else if config.mediumThreshold.any (· ≤ (score : ℤ)) then .medium
  else .low

def assess (context : RiskContext) (found : Option ℕ) : RiskAuthAssessment :=
  match found with
  | none =>
    { userId := none
      riskScore := 0
      level := .low
      reasonCodes := []
      context }
  | some userId =>
    let raised := signals config
      (parsePreviousContext ((lastLogin records userId).bind (·.metadata))) context
    { userId := some userId
      riskScore := (raised.map (·.1)).sum
      level := levelOf config (raised.map (·.1)).sum
      reasonCodes := raised.map (·.2)
      context }

def buildAssessment (req : Request) : RiskAuthAssessment :=
  assess config records (extractContext config req) (resolveTargetUserId records req)

/-- A PIN verification. The route is public and middleware runs before the guards, so no user is
attached to the request; an `account_type` that the body carries is one of the enumeration. -/
def pinRequest (headers : Request) (phoneNumber : String) (accountType : Option AccountType) :
    Request :=
  { headers with
    userId := none
    phoneNumber := some phoneNumber
    accountType := accountType.map accountTypeText }

def getRiskDecision (assessment : RiskAuthAssessment) : AdaptiveRiskDecision :=
  ⟨assessment.riskScore, assessment.level, assessment.reasonCodes⟩

/-- The handler of `POST verify-pin`. -/
def verifyPinHandler (pinConfig : PinConfig) (assessment : RiskAuthAssessment)
    (phoneNumber pin : String) (accountType : Option AccountType) (ctx : RefreshTokenContext) :
    Login PinAnswer := do
  let phone ← Program.ofExcept (normalizedPhone phoneNumber)
  verifyPin pinConfig phone pin accountType ctx (some (getRiskDecision assessment))

end NexaStays.RiskAuth
