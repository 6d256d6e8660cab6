import BookLibrary.Documents.Collection

/-!
# Identifier reservations and operations

The reservations that say which account owns a sign-in identifier, the operations
that change them, and the batches of an offline repair.
-/

namespace AuthIdentifiers

open Documents

inductive AuthIdentifierType where
  | email | memberNumber | loginIdentifier
  deriving DecidableEq

inductive AuthIdentifierSubjectType where
  | staff | member
  deriving DecidableEq

inductive AuthIdentifierStatus where
  | pending | active | released | conflict
  deriving DecidableEq

inductive AuthIdentifierConflictResolutionStatus where
  | reviewable | manualRepairRequired
  deriving DecidableEq

inductive AuthIdentifierPendingAction where
  | claim | replace | release | resolveConflict
  deriving DecidableEq

structure AuthIdentifierSubjectReference where
  subjectType : AuthIdentifierSubjectType
  subjectId : String
  deriving DecidableEq

structure AuthIdentifier where
  id : String
  normalizedIdentifier : String
  identifierType : AuthIdentifierType
  subjectType : Option AuthIdentifierSubjectType
  subjectId : Option String
  status : AuthIdentifierStatus
  conflictingSubjects : Option (List AuthIdentifierSubjectReference)
  conflictResolutionStatus : Option AuthIdentifierConflictResolutionStatus
  pendingOperationId : Option String
  activationGateOperationId : Option String
  lastOperationId : Option String
  pendingAction : Option AuthIdentifierPendingAction
  releasedAt : Option Date
  createdBy : String
  updatedBy : String
  updatedAt : Date
  deriving DecidableEq

inductive AuthIdentifierOperationType where
  | claim | replace | release | resolveConflict | offlineRepair
  deriving DecidableEq

inductive AuthIdentifierOperationStatus where
  | pending | applying | compensating | finalizing | failedRetryable | completed | failedTerminal
  deriving DecidableEq

def AuthIdentifierOperationStatus.isTerminal : AuthIdentifierOperationStatus → Bool
  | .completed => true
  | .failedTerminal => true
  | _ => false

inductive AuthIdentifierOperationCleanupStatus where
  | notRequired | pending | completed
  deriving DecidableEq

inductive AuthIdentifierAssignmentAction where
  | retain | claim | replace | release
  deriving DecidableEq

inductive AuthIdentifierAssignmentStatus where
  | pending | applied | compensated
  deriving DecidableEq

structure AuthIdentifierOperationAssignment where
  assignmentId : String
  subjectType : AuthIdentifierSubjectType
  subjectId : String
  action : AuthIdentifierAssignmentAction
  sourceReservationId : Option String
  targetReservationId : Option String
  identifierCorrelationHash : Option String
  correlationKeyVersion : Option ℕ
  status : AuthIdentifierAssignmentStatus
  appliedAt : Option Date
  deriving DecidableEq

inductive AuthIdentifierOperationResultOutcome where
  | success | failure
  deriving DecidableEq

structure AuthIdentifierOperationResult where
  outcome : AuthIdentifierOperationResultOutcome
  reasonCategory : Option String
  httpStatus : ℕ
  deriving DecidableEq

structure AuthIdentifierOperation where
  id : String
  operationId : String
  operationType : AuthIdentifierOperationType
  status : AuthIdentifierOperationStatus
  assignments : List AuthIdentifierOperationAssignment
  manifestHash : Option String
  manifestKeyVersion : Option ℕ
  retainedSubject : Option AuthIdentifierSubjectReference
  result : Option AuthIdentifierOperationResult
  leaseOwner : Option String
  leaseExpiresAt : Option Date
  terminalEventId : Option String
  terminalEventRecordedAt : Option Date
  cleanupStatus : AuthIdentifierOperationCleanupStatus
  expiresAt : Option Date
  requestedBy : AuthIdentifierSubjectReference
  lastResumedBy : Option AuthIdentifierSubjectReference
  lastResumedAt : Option Date
  completedAt : Option Date
  updatedAt : Date
  deriving DecidableEq

inductive AuthIdentifierRepairBatchStatus where
  | pending | prepared | activated | compensated
  deriving DecidableEq

structure AuthIdentifierRepairBatch where
  id : String
  parentOperationId : String
  batchNumber : ℕ
  batchCount : ℕ
  status : AuthIdentifierRepairBatchStatus
  assignments : List AuthIdentifierOperationAssignment
  checkpointHash : String
  manifestKeyVersion : ℕ
  preparedAt : Option Date
  activatedAt : Option Date
  compensatedAt : Option Date
  expiresAt : Option Date
  deriving DecidableEq

end AuthIdentifiers
