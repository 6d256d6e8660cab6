import BookLibrary.Operations.Service

/-!
# The saga of an identifier operation

`AuthIdentifierService.execute` and `reconcile`. Each assignment has its reservation made
pending, then its account changed, then its reservation settled; an operation that fails
on the way is left for a retry, or undone assignment by assignment.
-/

namespace Operations

open AuthIdentifiers Documents Interleaving

/-- How an operation changes the accounts of its assignments. -/
structure AggregateAdapter where
  apply : AuthIdentifierAssignmentInput → Option ℕ → Handler Unit
  compensate : AuthIdentifierAssignmentInput → Option ℕ → Handler Unit
  isApplied : Option (AuthIdentifierAssignmentInput → Option ℕ → Handler Bool)

structure OperationInput where
  operationId : String
  operationType : AuthIdentifierOperationType
  assignments : List AuthIdentifierAssignmentInput
  requestedBy : AuthIdentifierSubjectReference
  successHttpStatus : Option ℕ
  successReasonCategory : Option String
  failureHttpStatus : Option ℕ
  failureReasonCategory : Option String
  compensateOnFailure : Bool
  cleanupStatus : Option AuthIdentifierOperationCleanupStatus
  resumeId : Option String
  retainedSubject : Option AuthIdentifierSubjectReference
  deriving DecidableEq

structure OperationResult where
  operationId : String
  status : TerminalStatus
  httpStatus : ℕ
  replayed : Bool
  result : AuthIdentifierOperationResult
  deriving DecidableEq

def TerminalStatus.ofStatus : AuthIdentifierOperationStatus → Option TerminalStatus
  | .completed => some .completed
  | .failedTerminal => some .failedTerminal
  | _ => none

def statusText : AuthIdentifierOperationStatus → String
  | .pending => "pending"
  | .applying => "applying"
  | .compensating => "compensating"
  | .finalizing => "finalizing"
  | .failedRetryable => "failed-retryable"
  | .completed => "completed"
  | .failedTerminal => "failed-terminal"

def allowedTransitions : AuthIdentifierOperationStatus → List AuthIdentifierOperationStatus
  | .pending => [.applying, .compensating, .failedRetryable]
  | .applying => [.compensating, .finalizing, .failedRetryable]
  | .compensating => [.finalizing, .failedRetryable]
  | .finalizing => [.completed, .failedTerminal]
  | .failedRetryable => [.applying, .compensating]
  | .completed => []
  | .failedTerminal => []

/-- The member of the schema's enumeration that an action is stored as, if it is one. -/
def pendingActionOf : AuthIdentifierAssignmentAction → Option AuthIdentifierPendingAction
  | .retain => none
  | .claim => some .claim
  | .replace => some .replace
  | .release => some .release

def AUTH_IDENTIFIER_SCHEMA_MAX_ASSIGNMENTS : ℕ := 100

namespace AuthIdentifierService

variable (env : Environment)

def validateTransition (source target : AuthIdentifierOperationStatus) : Handler Unit :=
  if target ∈ allowedTransitions source then return
  else throw (.conflict ("Invalid identifier operation transition: " ++ statusText source ++
    " -> " ++ statusText target))

def findOperation (operationId : String) (session : Option ℕ) :
    Handler (Option AuthIdentifierOperation) :=
  findOwn session (.findOperation operationId)

def toSecurityActor (actor : AuthIdentifierSubjectReference) :
    SecurityActivityService.ActorReference where
  actorType := match actor.subjectType with
    | .staff => .staff
    | .member => .member
  actorId := actor.subjectId

def terminalResult (input : OperationInput) : TerminalStatus → AuthIdentifierOperationResult
  | .completed =>
    { outcome := .success
      reasonCategory := some (safeReasonCategory input.successReasonCategory
        "identifier-operation-completed")
      httpStatus := input.successHttpStatus.getD 200 }
  | .failedTerminal =>
    { outcome := .failure
      reasonCategory := some (safeReasonCategory input.failureReasonCategory
        "identifier-operation-compensated")
      httpStatus := input.failureHttpStatus.getD 409 }

def replay (operation : AuthIdentifierOperation) : Handler OperationResult :=
  match TerminalStatus.ofStatus operation.status, operation.result with
  | some status, some result =>
    return ⟨operation.operationId, status, result.httpStatus, true, result⟩
  | _, _ => throw (.conflict "Identifier operation is not terminal")

def transition (operationId : String) (source target : AuthIdentifierOperationStatus)
    (session : Option ℕ) : Handler Unit := do
  validateTransition source target
  let now ← draw .currentDate
  let updated ← updateOperation session (.transition operationId source target now)
  if updated then return
  else throw (.conflict "Identifier operation state changed concurrently")

def validateInput (input : OperationInput) : Handler Unit :=
  if env.trim input.operationId = "" then throw (.unprocessable "Operation id is required")
  else if input.assignments.length = 0 ∨ env.maxAssignments < input.assignments.length then
    throw (.unprocessable ("Identifier operations require 1-" ++ toString env.maxAssignments ++
      " assignments"))
  else if (input.assignments.map (·.assignmentId)).Nodup then return
  else throw (.unprocessable "Assignment ids must be unique within an operation")

/-- The assignment of the input agrees with the stored one. -/
def matchesPersisted (input : OperationInput) (persisted : AuthIdentifierOperationAssignment) :
    Bool :=
  match input.assignments.find? fun item => decide (item.assignmentId = persisted.assignmentId) with
  | none => false
  | some candidate =>
    decide (candidate.subjectType = persisted.subjectType) &&
      decide (candidate.subjectId = persisted.subjectId) &&
      decide (candidate.action = persisted.action) &&
      decide (candidate.sourceReservationId.getD "" = persisted.sourceReservationId.getD "") &&
      decide (candidate.identifierCorrelationHash = persisted.identifierCorrelationHash) &&
      decide (candidate.correlationKeyVersion = persisted.correlationKeyVersion)

def assertOperationManifest (operation : AuthIdentifierOperation) (input : OperationInput) :
    Handler Unit :=
  if operation.assignments.length = input.assignments.length ∧
      operation.assignments.all (matchesPersisted input) then return
  else throw (.conflict "Operation id is already bound to another assignment manifest")

/-- The schema casts the source reservation to an `ObjectId`. -/
def persistedAssignment (assignment : AuthIdentifierAssignmentInput) :
    Option AuthIdentifierOperationAssignment := do
  let sourceReservationId ← match assignment.sourceReservationId with
    | none => some none
    | some value => (ObjectId.parse value).map fun id => some id.1
  return {
    assignmentId := assignment.assignmentId
    subjectType := assignment.subjectType
    subjectId := assignment.subjectId
    action := assignment.action
    sourceReservationId := sourceReservationId
    targetReservationId := none
    identifierCorrelationHash := assignment.identifierCorrelationHash
    correlationKeyVersion := assignment.correlationKeyVersion
    status := .pending
    appliedAt := none }

/-- What the schema asks of an assignment. -/
def isStorable (assignment : AuthIdentifierOperationAssignment) : Bool :=
  decide (env.trim assignment.assignmentId ≠ "") && decide (env.trim assignment.subjectId ≠ "") &&
    decide ((assignment.identifierCorrelationHash.getD "" ≠ "") =
      (assignment.correlationKeyVersion.isSome = true)) &&
    assignment.correlationKeyVersion.all fun version => decide (1 ≤ version)

def newOperation (input : OperationInput) (id : String)
    (assignments : List AuthIdentifierOperationAssignment) (now : Date) :
    AuthIdentifierOperation where
  id := id
  operationId := input.operationId
  operationType := input.operationType
  status := .pending
  assignments := assignments
  manifestHash := none
  manifestKeyVersion := none
  retainedSubject := input.retainedSubject
  result := none
  leaseOwner := none
  leaseExpiresAt := none
  terminalEventId := none
  terminalEventRecordedAt := none
  cleanupStatus := input.cleanupStatus.getD .notRequired
  expiresAt := none
  requestedBy := input.requestedBy
  lastResumedBy := none
  lastResumedAt := none
  completedAt := none
  updatedAt := now

def createOperation (input : OperationInput) (session : Option ℕ) :
    Handler AuthIdentifierOperation := do
  let now ← draw .currentDate
  let id ← draw .newObjectId
  match input.assignments.mapM persistedAssignment with
  | none => throw (.cast "assignments.sourceReservationId")
  | some assignments =>
    if assignments.length ≤ AUTH_IDENTIFIER_SCHEMA_MAX_ASSIGNMENTS ∧
        assignments.all (isStorable env) ∧ env.trim input.requestedBy.subjectId ≠ "" ∧
        (input.retainedSubject.all fun subject => env.trim subject.subjectId ≠ "") then do
      let _ ← write session (.insertOperation (newOperation input id.1 assignments now))
      return newOperation input id.1 assignments now
    else throw (.validation "assignments")

/-- The reservation that an assignment has been given, or that is pending for it. -/
def findRecoverableReservation (operationId : String) (assignment : AuthIdentifierAssignmentInput)
    (persisted : Option AuthIdentifierOperationAssignment) (session : Option ℕ) :
    Handler (Option AuthIdentifier) := do
  let referenced ← match persisted.bind (·.targetReservationId) with
    | some id => findOwn session (.findReservation id)
    | none => pure none
  match referenced with
  | some reservation => return some reservation
  | none =>
    findOwn session (.findPending operationId assignment.subjectType assignment.subjectId
      (some ((pendingActionOf assignment.action).getD .resolveConflict)))

def markAssignmentApplied (operationId assignmentId : String) (session : Option ℕ) :
    Handler Unit := do
  let now ← draw .currentDate
  let _ ← updateOperation session (.markApplied operationId assignmentId now)

/-- One `findOneAndUpdate` that has to find, or create, its reservation. -/
def obtain (session : Option ℕ) (w : Write) (unavailable : Failure) : Handler AuthIdentifier :=
  tryCatch (do
    let docs ← write session w
    match reservationOf docs with
    | some reservation => return reservation
    | none => throw unavailable) fun error =>
      if error.isDuplicateKey then throw unavailable else throw error

def reserveAssignment (operationId : String) (assignment : AuthIdentifierAssignmentInput)
    (actorId : String) (session : Option ℕ) : Handler AuthIdentifier := do
  let unavailable : Failure := .conflict "Identifier reservation is unavailable"
  match assignment.action with
  | .release | .retain =>
    if assignment.sourceReservationId.getD "" = "" then
      throw (.unprocessable "Source reservation is required for this assignment")
    else do
      let now ← draw .currentDate
      let sourceReservationId ← castObjectId "_id" (assignment.sourceReservationId.getD "")
      obtain session (.updateIdentifier (.takeSource operationId sourceReservationId
        (if assignment.action = .retain then .resolveConflict else .release)
        (if assignment.action = .retain then [.conflict] else [.active, .conflict])
        assignment.subjectType assignment.subjectId actorId now)) unavailable
  | .claim | .replace =>
    match assignment.normalizedIdentifier, assignment.identifierType with
    | some normalizedIdentifier, some identifierType =>
      if normalizedIdentifier = "" then
        throw (.unprocessable "A normalized identifier and type are required")
      else do
        let now ← draw .currentDate
        let newId ← draw .newObjectId
        obtain session (.upsertIdentifier
          { operationId := operationId
            normalizedIdentifier := normalizedIdentifier
            identifierType := identifierType
            subjectType := assignment.subjectType
            subjectId := assignment.subjectId
            pendingAction := if assignment.action = .claim then .claim else .replace
            actorId := actorId
            now := now
            reclaims := true
            newId := newId.1 }) unavailable
    | _, _ => throw (.unprocessable "A normalized identifier and type are required")

def attachReservationReference (operationId assignmentId : String) (reservation : AuthIdentifier)
    (session : Option ℕ) : Handler Unit := do
  let now ← draw .currentDate
  let _ ← updateOperation session (.attachReference operationId assignmentId reservation.id now)

def finalizeReservation (operationId : String) (assignment : AuthIdentifierAssignmentInput)
    (reservation : AuthIdentifier) (actorId : String) (session : Option ℕ) : Handler Unit := do
  let now ← draw .currentDate
  updateIdentifier session (.finalizeReservation operationId reservation.id
    (decide (assignment.action = .release)) actorId now)

/-- The account of an assignment is changed, unless it has been. -/
def applyAggregate (aggregate : AggregateAdapter) (assignment : AuthIdentifierAssignmentInput)
    (session : Option ℕ) : Handler Unit := do
  let alreadyApplied ← match aggregate.isApplied with
    | some isApplied => isApplied assignment session
    | none => pure false
  if alreadyApplied then return
  else aggregate.apply assignment session

/-- One round of the loop of `applyAssignments`. -/
def applyAssignment (input : OperationInput) (aggregate : AggregateAdapter) (session : Option ℕ)
    (assignment : AuthIdentifierAssignmentInput) : Handler Unit := do
  let operation ← findOperation input.operationId session
  let persisted := operation.bind fun d =>
    d.assignments.find? fun item => decide (item.assignmentId = assignment.assignmentId)
  let reservation ← match ← findRecoverableReservation input.operationId assignment persisted
      session with
    | some reservation => pure reservation
    | none => reserveAssignment input.operationId assignment input.requestedBy.subjectId session
  attachReservationReference input.operationId assignment.assignmentId reservation session
  if persisted.map (·.status) = some .applied then pure ()
  else do
    applyAggregate aggregate assignment session
    markAssignmentApplied input.operationId assignment.assignmentId session
  finalizeReservation input.operationId assignment reservation input.requestedBy.subjectId session

def applyAssignments (input : OperationInput) (aggregate : AggregateAdapter)
    (session : Option ℕ) : Handler Unit :=
  input.assignments.forM (applyAssignment input aggregate session)

def restoredStatus : AuthIdentifierAssignmentAction → AuthIdentifierStatus
  | .release => .active
  | .retain => .conflict
  | _ => .released

/-- One round of the loop of `compensateAssignments`. -/
def compensateAssignment (input : OperationInput) (aggregate : AggregateAdapter)
    (persisted : AuthIdentifierOperationAssignment) : Handler Unit := do
  match input.assignments.find? fun item => decide (item.assignmentId = persisted.assignmentId) with
  | none => throw (.conflict "Cannot safely compensate an incomplete assignment manifest")
  | some assignment => do
    aggregate.compensate assignment none
    let now ← draw .currentDate
    let reservationId ← match persisted.targetReservationId, assignment.sourceReservationId with
      | some id, _ => pure (some id)
      | none, some value => some <$> castObjectId "_id" value
      | none, none => pure none
    updateIdentifier none (.restoreReservation input.operationId reservationId
      (restoredStatus assignment.action) input.requestedBy.subjectId now)
    let now ← draw .currentDate
    let _ ← updateOperation none
      (.markCompensated input.operationId assignment.assignmentId now)

def compensateAssignments (input : OperationInput) (operation : AuthIdentifierOperation)
    (aggregate : AggregateAdapter) : Handler Unit :=
  (operation.assignments.filter fun a => decide (a.status = .applied)).reverse.forM
    (compensateAssignment input aggregate)

/-- Those of the pending assignments whose account has been changed are marked. -/
def synchronizeAppliedAssignments (input : OperationInput) (aggregate : AggregateAdapter) :
    Handler Unit := do
  match ← findOperation input.operationId none with
  | none => throw (.conflict "Identifier operation is not retained")
  | some operation =>
    let pending := operation.assignments.filter fun a => decide (a.status = .pending)
    match aggregate.isApplied with
    | none =>
      if pending.isEmpty then return
      else throw (.conflict "Aggregate state cannot be proven safe for compensation")
    | some isApplied => pending.forM fun persisted => do
      match input.assignments.find? fun item =>
          decide (item.assignmentId = persisted.assignmentId) with
      | none => return
      | some assignment =>
        if ← isApplied assignment none then
          markAssignmentApplied input.operationId assignment.assignmentId none
        else return

def beginFinalizing (input : OperationInput) (source : AuthIdentifierOperationStatus)
    (terminalStatus : TerminalStatus) (session : Option ℕ) : Handler Unit := do
  validateTransition source .finalizing
  let now ← draw .currentDate
  let updated ← updateOperation session
    (.beginFinalizing input.operationId source (terminalResult input terminalStatus) now)
  if updated then return
  else throw (.conflict "Identifier operation state changed concurrently")

def terminalInput (input : OperationInput) (status : TerminalStatus) :
    SecurityActivityService.TerminalInput where
  operationId := input.operationId
  operationType := input.operationType
  terminalStatus := status
  actor := toSecurityActor input.requestedBy
  outcome := match status with
    | .completed => .success
    | .failedTerminal => .failure
  reasonCategory := (terminalResult input status).reasonCategory.getD ""

def finishTerminal (input : OperationInput) (status : TerminalStatus) (session : Option ℕ) :
    Handler OperationResult := do
  let result := terminalResult input status
  let eventId ← SecurityActivityService.recordIdentifierOperationTerminal
    (terminalInput input status) session
  let now ← draw .currentDate
  -- what the input says of the cleanup counts here, not what is stored
  let expiresAt := if input.cleanupStatus = some .pending then none
    else some (now + days env.operationRetentionDays)
  let updated ← updateOperation session
    (.finishTerminal input.operationId status.status result eventId now expiresAt)
  if updated then return ⟨input.operationId, status, result.httpStatus, false, result⟩
  else do
    match ← findOperation input.operationId session with
    | some current =>
      if current.status.isTerminal then replay current
      else throw (.conflict "Identifier operation could not be finalized safely")
    | none => throw (.conflict "Identifier operation could not be finalized safely")

def executeInTransaction (input : OperationInput) (aggregate : AggregateAdapter) :
    Handler OperationResult := do
  draw .startSession
  withTransaction fun n => do
    let session := some n
    let _ ← createOperation env input session
    transition input.operationId .pending .applying session
    applyAssignments input aggregate session
    beginFinalizing input .applying .completed session
    finishTerminal env input .completed session

/-- The assignments applied so far are undone. -/
def compensate (input : OperationInput) (operation : AuthIdentifierOperation)
    (aggregate : AggregateAdapter) : Handler OperationResult := do
  compensateAssignments input operation aggregate
  beginFinalizing input .compensating .failedTerminal none
  finishTerminal env input .failedTerminal none

/-- What `executeSaga` does when the assignments could not be applied. -/
def fail (input : OperationInput) (aggregate : AggregateAdapter) (error : Failure) :
    Handler OperationResult :=
  if input.compensateOnFailure then do
    tryCatch (synchronizeAppliedAssignments input aggregate) fun synchronizationError => do
      transition input.operationId .applying .failedRetryable none
      throw synchronizationError
    transition input.operationId .applying .compensating none
    match ← findOperation input.operationId none with
    | none => throw error
    | some latest => compensate env input latest aggregate
  else do
    transition input.operationId .applying .failedRetryable none
    throw error

/-- The stored operation of that id, created if there is none. -/
def obtainOperation (input : OperationInput) : Handler AuthIdentifierOperation := do
  match ← findOperation input.operationId none with
  | some operation => return operation
  | none =>
    tryCatch (createOperation env input none) fun error =>
      if error.isDuplicateKey then do
        match ← findOperation input.operationId none with
        | some operation => return operation
        | none => throw error
      else throw error

/-- The assignments are applied, and the operation turns to its end. -/
def advance (input : OperationInput) (aggregate : AggregateAdapter) : Handler OperationResult := do
  -- the end itself is not awaited within the `try`
  let failure : Option Failure ← tryCatch (do
    applyAssignments input aggregate none
    beginFinalizing input .applying .completed none
    return none) fun error => return some error
  match failure with
  | none => finishTerminal env input .completed none
  | some error => fail env input aggregate error

def executeSaga (input : OperationInput) (aggregate : AggregateAdapter) :
    Handler OperationResult := do
  let operation ← obtainOperation env input
  match operation.status with
  | .completed | .failedTerminal => replay operation
  | .finalizing =>
    finishTerminal env input
      (if operation.result.map (·.outcome) = some .failure then .failedTerminal else .completed) none
  | .compensating => compensate env input operation aggregate
  | .applying => advance env input aggregate
  | .pending | .failedRetryable => do
    transition input.operationId operation.status .applying none
    advance env input aggregate

def resumeOrReplay (operation : AuthIdentifierOperation) (input : OperationInput)
    (aggregate : AggregateAdapter) : Handler OperationResult := do
  if operation.operationType ≠ input.operationType then
    throw (.conflict "Operation id is already in use")
  else do
    assertOperationManifest operation input
    if operation.status.isTerminal then replay operation
    else if operation.operationType = .offlineRepair then do
      if input.resumeId.getD "" = "" then
        throw (.unprocessable
          "A stable resume id is required for offline repair reconciliation")
      else do
        SecurityActivityService.recordIdentifierRepairResumed input.operationId
          (input.resumeId.getD "") (toSecurityActor operation.requestedBy)
          (toSecurityActor input.requestedBy)
        let now ← draw .currentDate
        let _ ← updateOperation none (.resume input.operationId input.requestedBy now)
        executeSaga env input aggregate
    else executeSaga env input aggregate

/-- `/transactions? (are|is) unavailable|transaction numbers are only allowed|replica set/i` -/
def isTransactionUnavailable (error : Failure) : Bool :=
  ["transaction is unavailable", "transaction are unavailable", "transactions is unavailable",
    "transactions are unavailable", "transaction numbers are only allowed", "replica set"].any
    fun pattern => Accounts.containsIgnoringCase pattern error.message

def execute (input : OperationInput) (aggregate : AggregateAdapter) : Handler OperationResult := do
  validateInput env input
  match ← findOperation input.operationId none with
  | some existing => resumeOrReplay env existing input aggregate
  | none =>
    if env.transactionStrategy = .disabled then executeSaga env input aggregate
    else
      tryCatch (executeInTransaction env input aggregate) fun error =>
        if env.transactionStrategy = .required ∨ ¬ isTransactionUnavailable error then throw error
        else executeSaga env input aggregate

def reconcile (input : OperationInput) (aggregate : AggregateAdapter) :
    Handler OperationResult := do
  validateInput env input
  match ← findOperation input.operationId none with
  | some operation => resumeOrReplay env operation input aggregate
  | none => throw (.conflict "Identifier operation is not retained")

end AuthIdentifierService

end Operations
