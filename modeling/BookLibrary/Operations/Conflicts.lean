import BookLibrary.Operations.Saga

/-!
# Conflicts between identifiers

`AuthIdentifierService.resolveConflict`, and who an identifier signs in.
-/

namespace Operations

open AuthIdentifiers Documents Interleaving

structure Reassignment extends AuthIdentifierSubjectReference where
  newIdentifier : String
  deriving DecidableEq

structure ResolveAuthIdentifierConflictDto where
  operationId : String
  retainedSubject : Option AuthIdentifierSubjectReference
  reassignments : List Reassignment
  deriving DecidableEq

def subjectTypeText : AuthIdentifierSubjectType → String
  | .staff => "staff"
  | .member => "member"

namespace AuthIdentifierService

variable (env : Environment)

def resolveActiveIdentifier (normalizedIdentifier : String) :
    Handler (Option (Option AuthIdentifierSubjectType × Option String)) := do
  match ← findAccount none (.findIdentifier normalizedIdentifier) with
  | none => return none
  | some reservation =>
    if reservation.status ≠ .active then return none
    else match reservation.activationGateOperationId with
      | none => return some (reservation.subjectType, reservation.subjectId)
      | some operationId => do
        let gate ← findOperation operationId none
        if gate.map (·.status) = some .completed then
          return some (reservation.subjectType, reservation.subjectId)
        else return none

def normalizeIdentifier (value : String) : Handler String :=
  if env.toLowerCase (env.trim value) = "" then
    throw (.unprocessable "Replacement identifier is required")
  else return env.toLowerCase (env.trim value)

def validateConflictMapping (subjects : List AuthIdentifierSubjectReference)
    (originalIdentifier : String) (dto : ResolveAuthIdentifierConflictDto) : Handler Unit := do
  let reassigned := dto.reassignments.map (·.toAuthIdentifierSubjectReference)
  let accounted := dto.retainedSubject.toList ++ reassigned
  if ¬ dto.retainedSubject.all (subjects.contains ·) then
    throw (.unprocessable "Retained subject is not a claimant")
  else if ¬ reassigned.Nodup then
    throw (.unprocessable "Each subject may be reassigned once")
  else if accounted.eraseDups.length ≠ subjects.eraseDups.length ∨
      ¬ accounted.all (subjects.contains ·) then
    throw (.unprocessable "Every conflicting subject must be retained or reassigned")
  else do
    let replacements ← dto.reassignments.mapM fun item => normalizeIdentifier env item.newIdentifier
    if ¬ replacements.Nodup ∨ replacements.contains originalIdentifier then
      throw (.unprocessable "Replacement identifiers must be unique")
    else return

/-- `updateAggregateIdentifier` of the account services. -/
def updateAggregateIdentifier (assignment : AuthIdentifierAssignmentInput)
    (normalizedIdentifier : String) (session : Option ℕ) : Handler Unit :=
  account (Accounts.AuthIdentifierService.updateAggregateIdentifier assignment normalizedIdentifier
    session)

def releaseOriginalConflict (conflictId : String) (assignment : AuthIdentifierAssignmentInput)
    (session : Option ℕ) : Handler Unit := do
  let now ← draw .currentDate
  let id ← castObjectId "_id" conflictId
  updateIdentifier session (.releaseConflict id assignment.subjectType assignment.subjectId now)

/-- The original reservation is released with the account of the last assignment, where no
subject retains it. -/
def conflictAggregateAdapter (conflictId originalIdentifier : String)
    (releaseOnAssignmentId : Option String) : AggregateAdapter where
  apply assignment session := do
    if assignment.action ≠ .retain then
      updateAggregateIdentifier assignment (assignment.normalizedIdentifier.getD "") session
    if releaseOnAssignmentId = some assignment.assignmentId then
      releaseOriginalConflict conflictId assignment session
  compensate assignment session := do
    if assignment.action ≠ .retain then
      updateAggregateIdentifier assignment originalIdentifier session
    if releaseOnAssignmentId = some assignment.assignmentId then do
      let id ← castObjectId "_id" conflictId
      updateIdentifier session (.restoreConflict id)
  isApplied := some fun assignment session =>
    if assignment.action = .retain ∨ assignment.normalizedIdentifier.getD "" = "" then return false
    else findOwn session (.carriesIdentifier assignment.subjectType assignment.subjectId
      (assignment.normalizedIdentifier.getD ""))

def retainAssignment (conflictId : String) (dto : ResolveAuthIdentifierConflictDto)
    (retained : AuthIdentifierSubjectReference) : AuthIdentifierAssignmentInput where
  assignmentId := dto.operationId ++ ":retain"
  subjectType := retained.subjectType
  subjectId := retained.subjectId
  action := .retain
  normalizedIdentifier := none
  identifierType := none
  sourceReservationId := some conflictId
  identifierCorrelationHash := none
  correlationKeyVersion := none

def reassignment (conflictId : String) (dto : ResolveAuthIdentifierConflictDto)
    (item : Reassignment) : Handler AuthIdentifierAssignmentInput := do
  let normalizedIdentifier ← normalizeIdentifier env item.newIdentifier
  return {
    assignmentId :=
      dto.operationId ++ ":" ++ subjectTypeText item.subjectType ++ ":" ++ item.subjectId
    subjectType := item.subjectType
    subjectId := item.subjectId
    action := .replace
    normalizedIdentifier := some normalizedIdentifier
    identifierType := some (match item.subjectType with
      | .staff => .email
      | .member => .loginIdentifier)
    sourceReservationId := some conflictId
    identifierCorrelationHash := none
    correlationKeyVersion := none }

/-- The operation that resolves a conflict as `dto` says. -/
def conflictInput (dto : ResolveAuthIdentifierConflictDto)
    (assignments : List AuthIdentifierAssignmentInput) (actor : AuthIdentifierSubjectReference) :
    OperationInput where
  operationId := dto.operationId
  operationType := .resolveConflict
  assignments := assignments
  requestedBy := actor
  successHttpStatus := some 200
  successReasonCategory := some "identifier-conflict-resolved"
  failureHttpStatus := some 409
  failureReasonCategory := some "identifier-conflict-resolution-failed"
  compensateOnFailure := true
  cleanupStatus := none
  resumeId := none
  retainedSubject := dto.retainedSubject

def finalAssignmentId (dto : ResolveAuthIdentifierConflictDto)
    (assignments : List AuthIdentifierAssignmentInput) : Option String :=
  if dto.retainedSubject.isSome then none
  else assignments.getLast?.map (·.assignmentId)

def resolveConflict (conflictId : String) (dto : ResolveAuthIdentifierConflictDto)
    (actor : AuthIdentifierSubjectReference) : Handler OperationResult := do
  let id ← castObjectId "_id" conflictId
  match ← findOwn none (.findReservation id) with
  | none => throw (.notFound "Identifier conflict not found")
  | some conflict =>
    if conflict.status ≠ .conflict then throw (.notFound "Identifier conflict not found")
    else if conflict.conflictResolutionStatus ≠ some .reviewable then
      throw (.unprocessable "Identifier conflict requires offline repair")
    else do
      validateConflictMapping env (conflict.conflictingSubjects.getD [])
        conflict.normalizedIdentifier dto
      let reassignments ← dto.reassignments.mapM (reassignment env conflictId dto)
      let assignments :=
        (dto.retainedSubject.map (retainAssignment conflictId dto)).toList ++ reassignments
      execute env (conflictInput dto assignments actor)
        (conflictAggregateAdapter conflictId conflict.normalizedIdentifier
          (finalAssignmentId dto assignments))

end AuthIdentifierService

end Operations
