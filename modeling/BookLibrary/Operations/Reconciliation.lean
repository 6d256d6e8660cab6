import BookLibrary.Operations.Saga

/-!
# Reconciliation of identifier operations

`AuthIdentifierReconciliationService`: a pass takes a lease on each operation that has
been left behind, and moves it on by one status.
-/

namespace Operations

open AuthIdentifiers Documents Interleaving

structure ReconciliationResult where
  examined : ℕ
  claimed : ℕ
  processed : ℕ
  skippedMissingKey : ℕ
  deriving DecidableEq

def CLOCK_SKEW_SECONDS : ℕ := 5

/-- The one operation that a write leaves. -/
def operationOf : List Document → Option AuthIdentifierOperation
  | .operation d :: _ => some d
  | _ => none

namespace AuthIdentifierReconciliationService

variable (env : Environment) (instanceId : String)

def repairKeyAvailable (operation : AuthIdentifierOperation) : Bool :=
  if operation.operationType ≠ .offlineRepair then true
  else operation.manifestKeyVersion.any fun version =>
    (env.keyMaterial version).any fun material => decide (material ≠ "")

def claim (operationId : String) : Handler (Option AuthIdentifierOperation) := do
  let now ← draw .currentDate
  let docs ← write none (.updateOperation (.claim operationId instanceId now
    (now + seconds env.leaseSeconds) (now - seconds CLOCK_SKEW_SECONDS)))
  return operationOf docs

def renewLease (operationId : String) : Handler Bool := do
  let now ← draw .currentDate
  updateOperation none (.renewLease operationId instanceId now (now + seconds env.leaseSeconds))

def releaseLease (operationId : String) : Handler Unit := do
  let now ← draw .currentDate
  let _ ← updateOperation none (.releaseLease operationId instanceId now)

def transition (operationId : String) (source target : AuthIdentifierOperationStatus) :
    Handler Unit := do
  if source = target then return
  else do
    let _ ← updateOperation none (.recoverTransition operationId instanceId source target)

def correlationFor (normalizedIdentifier : String) (requestedVersion : Option ℕ) :
    Option Correlation := do
  let version ← requestedVersion.or env.correlationKeyVersion
  if version = 0 then none
  else do
    let material ← env.keyMaterial version
    if material = "" then none
    else some {
      hash := env.hmac (env.decode material)
        ("book-library/auth-identifier-reconciliation/v1\x00" ++ normalizedIdentifier)
      version := version }

/-- The assignment has no reservation yet, and this one is pending for the like of it. -/
def awaits (reservation : AuthIdentifier) (item : AuthIdentifierOperationAssignment) : Bool :=
  decide (item.targetReservationId.getD "" = "") &&
    decide (some item.subjectType = reservation.subjectType) &&
    decide (some item.subjectId = reservation.subjectId) &&
    (pendingActionOf item.action).isSome &&
    decide (pendingActionOf item.action = reservation.pendingAction)

/-- The object in memory is given the reservation. -/
def attachInMemory (reservation : AuthIdentifier) :
    List AuthIdentifierOperationAssignment → List AuthIdentifierOperationAssignment
  | [] => []
  | item :: rest =>
    if awaits reservation item then { item with targetReservationId := some reservation.id } :: rest
    else item :: attachInMemory reservation rest

/-- One round of the loop of `attachMissingReservationReferences`. -/
def attachReference (operation : AuthIdentifierOperation) (reservation : AuthIdentifier) :
    Handler AuthIdentifierOperation :=
  match operation.assignments.find? (awaits reservation) with
  | none => return operation
  | some assignment => do
    let correlation :=
      if assignment.identifierCorrelationHash.getD "" ≠ "" then none
      else correlationFor env reservation.normalizedIdentifier operation.manifestKeyVersion
    let _ ← updateOperation none (.attachMissing operation.operationId assignment.assignmentId
      instanceId reservation.id correlation)
    return { operation with assignments := attachInMemory reservation operation.assignments }

def attachMissingReservationReferences (operation : AuthIdentifierOperation) :
    Handler AuthIdentifierOperation := do
  let reservations ← findOwn none
    (.listPending operation (env.identifierMaxOperationAssignments + 1))
  if env.identifierMaxOperationAssignments < reservations.length then do
    transition instanceId operation.operationId operation.status .failedRetryable
    return operation
  else reservations.foldlM (attachReference env instanceId) operation

def findReservation (operation : AuthIdentifierOperation)
    (assignment : AuthIdentifierOperationAssignment) : Handler (Option AuthIdentifier) :=
  match assignment.targetReservationId with
  | some id => findOwn none (.findReservation id)
  | none => findOwn none (.findPending operation.operationId assignment.subjectType
      assignment.subjectId (pendingActionOf assignment.action))

/-- One round of the loop of `recoverApplying`: whether the assignment has to be retried. -/
def recoverAssignment (operation : AuthIdentifierOperation)
    (assignment : AuthIdentifierOperationAssignment) : Handler Bool := do
  if assignment.status = .applied then return false
  else do
    let expectedStatus : AuthIdentifierStatus :=
      if assignment.action = .release then .released else .active
    match ← findReservation operation assignment with
    | none => return true
    | some reservation =>
      if reservation.status = expectedStatus ∧
          reservation.lastOperationId = some operation.operationId then do
        let _ ← updateOperation none (.recoverApplied operation.operationId assignment.assignmentId
          instanceId reservation.updatedAt)
        return false
      else return true

def recoverApplying (operation : AuthIdentifierOperation) : Handler Unit := do
  let retries ← operation.assignments.mapM (recoverAssignment instanceId operation)
  transition instanceId operation.operationId .applying
    (if retries.any id then .failedRetryable else .finalizing)

/-- One round of the loop of `recoverCompensating`: whether it has to be retried. -/
def restoreAssignment (operation : AuthIdentifierOperation)
    (assignment : AuthIdentifierOperationAssignment) : Handler Bool := do
  if assignment.status = .compensated then return false
  else if assignment.status = .applied then return true
  else do
    match ← findReservation operation assignment with
    | none => return true
    | some reservation =>
      if reservation.pendingOperationId ≠ some operation.operationId then return true
      else do
        updateIdentifier none (.recoverReservation operation.operationId reservation.id
          (AuthIdentifierService.restoredStatus assignment.action))
        let _ ← updateOperation none (.recoverCompensated operation.operationId
          assignment.assignmentId instanceId)
        return false

def recoverCompensating (operation : AuthIdentifierOperation) : Handler Unit := do
  let retries ← operation.assignments.reverse.mapM (restoreAssignment instanceId operation)
  transition instanceId operation.operationId .compensating
    (if retries.any id then .failedRetryable else .finalizing)

/-- How the reconciler reads an operation that is finalizing. -/
def isFailed (operation : AuthIdentifierOperation) : Bool :=
  decide (operation.result.map (·.outcome) = some .failure) ||
    operation.assignments.all fun item => decide (item.status = .compensated)

def terminalStatus (operation : AuthIdentifierOperation) : TerminalStatus :=
  if isFailed operation then .failedTerminal else .completed

def terminalInput (operation : AuthIdentifierOperation) : SecurityActivityService.TerminalInput where
  operationId := operation.operationId
  operationType := operation.operationType
  terminalStatus := terminalStatus operation
  actor := AuthIdentifierService.toSecurityActor operation.requestedBy
  outcome := if isFailed operation then .failure else .success
  reasonCategory := (operation.result.bind (·.reasonCategory)).getD
    (if isFailed operation then "identifier-operation-compensated"
      else "identifier-operation-recovered")

def finalize (operation : AuthIdentifierOperation) : Handler Unit := do
  let eventId ← SecurityActivityService.recordIdentifierOperationTerminal
    (terminalInput operation) none
  let now ← draw .currentDate
  let expiresAt := if operation.cleanupStatus = .pending then none
    else some (now + days env.retentionDays)
  let _ ← updateOperation none (.finalize operation.operationId instanceId
    (terminalStatus operation).status eventId now expiresAt)

/-- The gates and batches of an operation that has ended are taken away, a bounded number
at a time. -/
def cleanup (operation : AuthIdentifierOperation) : Handler Unit := do
  let capacity := env.identifierMaxOperationAssignments
  let gated ← findOwn none (.listGated operation capacity)
  if ¬ gated.isEmpty then do
    let _ ← write none (.updateIdentifiers
      (.ungate (gated.map (·.id)) (decide (operation.status = .failedTerminal))))
  if gated.length < capacity then do
    let batches ← findOwn none (.listOpenBatches operation.operationId (capacity - gated.length))
    if ¬ batches.isEmpty then do
      let now ← draw .currentDate
      let _ ← write none (.expireBatches (batches.map (·.id)) now)
  let _ ← renewLease env instanceId operation.operationId
  let gateRemaining ← findOwn none (.anyGated operation)
  let batchRemaining ← findOwn none (.anyOpenBatch operation.operationId)
  if gateRemaining || batchRemaining then return
  else do
    let now ← draw .currentDate
    let _ ← updateOperation none (.finishCleanup operation.operationId instanceId now
      (now + days env.retentionDays))

def process (operation : AuthIdentifierOperation) : Handler Unit := do
  if operation.status.isTerminal then
    if operation.cleanupStatus = .pending then cleanup env instanceId operation
    else return
  else do
    let operation ← attachMissingReservationReferences env instanceId operation
    match operation.status with
    | .pending => transition instanceId operation.operationId .pending .applying
    | .failedRetryable =>
      transition instanceId operation.operationId .failedRetryable
        (if operation.assignments.any fun item => decide (item.status = .compensated) then
          .compensating else .applying)
    | .applying => recoverApplying instanceId operation
    | .compensating => recoverCompensating instanceId operation
    | .finalizing => finalize env instanceId operation
    | .completed | .failedTerminal => return

/-- The loop of `runBoundedPass`. -/
def reconcileCandidates : List AuthIdentifierOperation → ReconciliationResult →
    Handler ReconciliationResult
  | [], result => return result
  | candidate :: candidates, result => do
    if env.batchSize ≤ result.claimed then return result
    else if ¬ repairKeyAvailable env candidate then
      reconcileCandidates candidates
        { result with skippedMissingKey := result.skippedMissingKey + 1 }
    else do
      match ← claim env instanceId candidate.id with
      | none => reconcileCandidates candidates result
      | some operation => do
        let processed ← tryCatch (do
          process env instanceId operation
          return 1) fun _ => return 0
        releaseLease instanceId operation.operationId
        reconcileCandidates candidates
          { result with
            claimed := result.claimed + 1
            processed := result.processed + processed }

def runBoundedPass : Handler ReconciliationResult := do
  let now ← draw .currentDate
  let candidates ← findOwn none
    (.listCandidates (now - seconds CLOCK_SKEW_SECONDS) (env.batchSize * 2))
  reconcileCandidates env instanceId candidates ⟨candidates.length, 0, 0, 0⟩

end AuthIdentifierReconciliationService

end Operations
