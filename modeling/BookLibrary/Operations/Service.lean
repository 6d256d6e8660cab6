import BookLibrary.Accounts.StaffUsers
import BookLibrary.Interleaving.Lifting
import BookLibrary.Operations.Store

/-!
# The identifier service

`AuthIdentifierService` as programs: an operation runs in one transaction where the
deployment has them, and else as a saga of single calls.
-/

namespace Operations

open AuthIdentifiers Documents Interleaving

/-- The exceptions of the services, with the texts that they carry. -/
inductive Failure where
  | account (failure : Accounts.Failure)
  | unauthorized (message : String)
  | serviceUnavailable (message : String)
  | cast (path : String)
  | validation (path : String)
  | error (message : String)
  deriving DecidableEq

namespace Failure

@[match_pattern] abbrev conflict (message : String) : Failure := .account (.conflict message)

@[match_pattern] abbrev notFound (message : String) : Failure := .account (.notFound message)

@[match_pattern] abbrev unprocessable (message : String) : Failure :=
  .account (.unprocessable message)

def message : Failure → String
  | .account failure => failure.message
  | .unauthorized message => message
  | .serviceUnavailable message => message
  | .cast path => "Cast to ObjectId failed for value at path \"" ++ path ++ "\""
  | .validation path => "AuthIdentifierOperation validation failed: " ++ path
  | .error message => message

/-- The error label that makes the driver run a callback again. -/
def isTransient : Failure → Bool
  | .account failure => failure.isTransient
  | _ => false

/-- `error.code === 11000` -/
def isDuplicateKey : Failure → Bool
  | .account (.duplicateKey _) => true
  | _ => false

end Failure

abbrev Op : Type → Type := Sessions.Op Query Write Document Accounts.Draw

abbrev Handler := Action Op Failure

def errors : Sessions.Errors Accounts.Draw Failure where
  lastError := .lastError
  raise e := .account (.thrown (e.getD ⟨false, ""⟩))

/-- What is remembered of the answers to queries. -/
inductive Sighting where
  | operation (operationId : String) (r : Option AuthIdentifierOperation)
  | reservation (id : String) (r : Option AuthIdentifier)
  | pending (operationId : String) (subjectType : AuthIdentifierSubjectType) (subjectId : String)
      (pendingAction : Option AuthIdentifierPendingAction) (r : Option AuthIdentifier)
  | carried (subjectType : AuthIdentifierSubjectType) (subjectId identifier : String) (r : Bool)
  | listed (operation : AuthIdentifierOperation) (r : List AuthIdentifier)
  | gated (operation : AuthIdentifierOperation) (r : Bool)
  | batch (parentOperationId : String) (batchNumber : ℕ) (r : Option AuthIdentifierRepairBatch)
  | batches (parentOperationId : String) (r : List AuthIdentifierRepairBatch)
  | identifier (normalizedIdentifier : String) (r : Option AuthIdentifier)
  deriving DecidableEq

def seen : (β : Type) → Query β → β → List Sighting
  | _, .inl (.findIdentifier identifier), r => [.identifier identifier r]
  | _, .inl _, _ => []
  | _, .inr (.findOperation operationId), r => [.operation operationId r]
  | _, .inr (.findReservation id), r => [.reservation id r]
  | _, .inr (.findPending operationId subjectType subjectId action), r =>
    [.pending operationId subjectType subjectId action r]
  | _, .inr (.carriesIdentifier subjectType subjectId identifier), r =>
    [.carried subjectType subjectId identifier r]
  | _, .inr (.listPending operation _), r => [.listed operation r]
  | _, .inr (.anyGated operation), r => [.gated operation r]
  | _, .inr (.findBatch parentOperationId batchNumber), r => [.batch parentOperationId batchNumber r]
  | _, .inr (.listBatches parentOperationId), r => [.batches parentOperationId r]
  | _, .inr _, _ => []

abbrev Event := Sessions.Event Sighting Write Document

/-- The clock, ids, errors and the driver's patience are drawn without fail. -/
def drawFails : (β : Type) → Accounts.Draw β → Prop
  | _, .hashPassword _ => True
  | _, .startSession => True
  | _, _ => False

/-- Programs of requests on the store of identifier operations. -/
abbrev service {Call ρ : Type} (body : Call → Prog Op ρ) : System Call Op Store ρ Event :=
  Sessions.system schema drawFails seen body

def perform {β : Type} (op : Op β) : Handler β := Sessions.perform errors op

def draw {β : Type} (x : Accounts.Draw β) : Handler β := perform (.draw x)

def find {β : Type} (session : Option ℕ) (q : Query β) : Handler β := perform (.find session q)

def findAccount {β : Type} (session : Option ℕ) (q : Accounts.Query β) : Handler β :=
  find session (.inl q)

def findOwn {β : Type} (session : Option ℕ) (q : OperationQuery β) : Handler β :=
  find session (.inr q)

/-- The documents that a write leaves; error 11000 is thrown. -/
def write (session : Option ℕ) (w : Write) : Handler (List Document) := do
  match ← perform (.change (.write session w)) with
  | .written docs => return docs
  | .unmatched => return []
  | .duplicateKey => do
    let error ← draw .lastError
    throw (.account (.duplicateKey error))

/-- `findOneAndUpdate` or `updateOne` of an operation: whether one was matched. -/
def updateOperation (session : Option ℕ) (u : OperationUpdate) : Handler Bool := do
  let docs ← write session (.updateOperation u)
  return !docs.isEmpty

/-- `updateOne` of a reservation; the number of matched documents is not looked at. -/
def updateIdentifier (session : Option ℕ) (u : IdentifierUpdate) : Handler Unit := do
  let _ ← write session (.updateIdentifier u)

/-- The one reservation that a write leaves. -/
def reservationOf : List Document → Option AuthIdentifier
  | .identifier d :: _ => some d
  | _ => none

def liftChange {β : Type} : Sessions.Change Accounts.Write Document β →
    Sessions.Change Write Document β
  | .write session w => .write session (.account w)
  | .startTransaction => .startTransaction
  | .commitTransaction session => .commitTransaction session
  | .abortTransaction session => .abortTransaction session

def liftOp {β : Type} : Accounts.Op β → Op β
  | .inl (session, q) => .find session (.inl q)
  | .inr (.inl c) => .change (liftChange c)
  | .inr (.inr x) => .draw x

/-- A program of the account services, run by one of these. -/
def account {α : Type} (x : Accounts.Handler α) : Handler α := Action.lift liftOp .account x

/-- `session.withTransaction(callback)` -/
def withTransaction {α : Type} (callback : ℕ → Handler α) : Handler α := do
  let retries ← draw .retries
  Sessions.withTransaction errors Failure.isTransient callback retries

/-- `Types.ObjectId` of a text in a filter or a document. -/
def castObjectId (path value : String) : Handler String :=
  match ObjectId.parse value with
  | some id => return id.1
  | none => throw (.cast path)

inductive TransactionStrategy where
  | auto | required | disabled
  deriving DecidableEq

/-- What the model takes from outside: the string methods of the host language, the
cryptography, and the configuration of the three services. -/
structure Environment where
  trim : String → String
  toLowerCase : String → String
  localeCompare : String → String → Ordering
  stringify : String → String
  fromBase64url : String → String
  decode : String → String
  hmac : (key message : String) → String
  hkdf : (key salt info : String) → String
  verifyToken : Date → String → Option SignIn.AccessTokenClaims
  keyMaterial : ℕ → Option String
  correlationKeyVersion : Option ℕ
  repairKeyVersion : Option ℕ
  transactionStrategy : TransactionStrategy
  maxAssignments : ℕ
  operationRetentionDays : ℕ
  leaseSeconds : ℕ
  batchSize : ℕ
  retentionDays : ℕ
  identifierMaxOperationAssignments : ℕ

def days (n : ℕ) : Date := n * (24 * 60 * 60 * 1000)

def seconds (n : ℕ) : Date := n * 1000

inductive TerminalStatus where
  | completed | failedTerminal
  deriving DecidableEq

def TerminalStatus.status : TerminalStatus → AuthIdentifierOperationStatus
  | .completed => .completed
  | .failedTerminal => .failedTerminal

def TerminalStatus.text : TerminalStatus → String
  | .completed => "completed"
  | .failedTerminal => "failed-terminal"

/-- `/^[a-z0-9][a-z0-9-]{0,63}$/` -/
def isReasonCategory (value : String) : Bool :=
  match value.toList with
  | [] => false
  | c :: rest => (c.isLower || c.isDigit) && decide (rest.length ≤ 63) &&
    rest.all fun c => c.isLower || c.isDigit || c = '-'

def safeReasonCategory (value : Option String) (fallback : String) : String :=
  match value with
  | some value => if isReasonCategory value then value else fallback
  | none => fallback

namespace SecurityActivityService

/-- Who is named by an event. -/
structure ActorReference where
  actorType : Accounts.SecurityActivityActorType
  actorId : String

def ActorReference.subject (actor : ActorReference) : AuthIdentifierSubjectReference where
  subjectType := if actor.actorType = .member then .member else .staff
  subjectId := actor.actorId

/-- An event of that `eventId` is there already, or is inserted; error 11000 is passed over. -/
def recordIdempotent (session : Option ℕ) (e : SecurityActivityEvent) : Handler Unit :=
  tryCatch (do
    let _ ← write session (.recordEvent e)) fun error =>
    if error.isDuplicateKey then return else throw error

def terminalEventId (operationId : String) (terminalStatus : TerminalStatus) : String :=
  "auth-identifier-operation:" ++ operationId ++ ":" ++ terminalStatus.text

structure TerminalInput where
  operationId : String
  operationType : AuthIdentifierOperationType
  terminalStatus : TerminalStatus
  actor : ActorReference
  outcome : Accounts.SecurityActivityOutcome
  reasonCategory : String

def terminalEvent (input : TerminalInput) : SecurityActivityEvent where
  id := ""
  eventId := some (terminalEventId input.operationId input.terminalStatus)
  eventType :=
    if input.terminalStatus = .completed ∧
        (input.operationType = .resolveConflict ∨ input.operationType = .offlineRepair) then
      .identifierConflictResolved
    else .identifierReservationRecovered
  actorType := input.actor.actorType
  actorId := some input.actor.actorId
  targetType := some "auth-identifier-operation"
  targetId := some input.operationId
  subjectType := none
  subjectId := none
  outcome := input.outcome
  reasonCategory := some (safeReasonCategory (some input.reasonCategory)
    "identifier-operation-terminal")
  operationId := some input.operationId
  context := .operation input.operationType input.terminalStatus.status

def recordIdentifierOperationTerminal (input : TerminalInput) (session : Option ℕ) :
    Handler String := do
  recordIdempotent session (terminalEvent input)
  return terminalEventId input.operationId input.terminalStatus

def resumedEventId (operationId resumeId : String) : String :=
  "identifier-repair-resumed:" ++ operationId ++ ":" ++ resumeId

def resumedEvent (operationId resumeId : String) (originalActor resumingActor : ActorReference) :
    SecurityActivityEvent where
  id := ""
  eventId := some (resumedEventId operationId resumeId)
  eventType := .identifierRepairResumed
  actorType := resumingActor.actorType
  actorId := some resumingActor.actorId
  targetType := some "auth-identifier-operation"
  targetId := some operationId
  subjectType := none
  subjectId := none
  outcome := .success
  reasonCategory := some "identifier-repair-resumed"
  operationId := some operationId
  context := .resumed (some originalActor.subject) (some resumingActor.subject)

def recordIdentifierRepairResumed (operationId resumeId : String)
    (originalActor resumingActor : ActorReference) : Handler Unit :=
  recordIdempotent none (resumedEvent operationId resumeId originalActor resumingActor)

end SecurityActivityService

end Operations
