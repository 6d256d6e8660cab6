import BookLibrary.Operations.Conflicts
import BookLibrary.SignIn.Guard

/-!
# Offline repair

`AuthIdentifierRepairService` resolves a conflict that is too large for one operation, in
batches: a dry run creates the parent operation, `apply` prepares and activates its
batches, each in a transaction of its own, and `cancel` undoes them.
-/

namespace Operations

open AuthIdentifiers Documents Interleaving

structure RepairManifest where
  conflictId : String
  retainedSubject : Option AuthIdentifierSubjectReference
  reassignments : List Reassignment
  deriving DecidableEq

structure OfflineRepairRequest where
  token : String
  operationId : String
  manifest : RepairManifest
  resumeId : Option String
  deriving DecidableEq

structure OfflineRepairResult where
  operationId : String
  status : AuthIdentifierOperationStatus
  assignmentCount : ℕ
  batchCount : ℕ
  replayed : Bool
  reasonCategory : String
  deriving DecidableEq

namespace AuthIdentifierRepairAuthorizationService

variable (env : Environment)

def findActiveById (id : String) : Handler Accounts.StaffUser := do
  let user ← account (Accounts.StaffUsersService.findDocumentById id)
  if user.status ≠ .active then throw (.notFound "Active staff user not found")
  else return user

def denial : Failure := .unauthorized "Repair authorization required"

/-- The subject id of an administrator whose token is valid and up to date. -/
def authorize (token : String) : Handler String :=
  if token = "" then throw denial
  else tryCatch (do
    let now ← draw .currentDate
    match env.verifyToken now token with
    | none => throw denial
    | some payload =>
      if payload.roleArea ≠ .staff ∨ ¬ payload.permissions.contains .authIdentifiersManage then
        throw denial
      else do
        let user ← findActiveById payload.sub
        if ¬ user.roles.contains .admin ∨
            ¬ (SignIn.permissionsForStaffRoles user.roles).contains .authIdentifiersManage ∨
            user.authVersion.getD 0 ≠ payload.authVersion then throw denial
        else return user.id) fun _ => throw denial

end AuthIdentifierRepairAuthorizationService

section Manifest

variable (env : Environment)

/-- By the text of the subject's type, and then by its id. -/
def subjectPrecedes (left right : Reassignment) : Bool :=
  match env.localeCompare (subjectTypeText left.subjectType) (subjectTypeText right.subjectType) with
  | .lt => true
  | .gt => false
  | .eq => decide (env.localeCompare left.subjectId right.subjectId ≠ .gt)

def normalizeReassignment (item : Reassignment) : Reassignment where
  subjectType := item.subjectType
  subjectId := env.trim item.subjectId
  newIdentifier := env.toLowerCase (env.trim item.newIdentifier)

def normalizeRepairManifest (manifest : RepairManifest) : Handler RepairManifest :=
  let reassignments :=
    (manifest.reassignments.map (normalizeReassignment env)).insertionSort
      (subjectPrecedes env · · = true)
  if env.trim manifest.conflictId = "" then throw (.unprocessable "Conflict id is required")
  else if reassignments.isEmpty ∨ reassignments.any fun item =>
      decide (item.subjectId = "") || decide (item.newIdentifier = "") then
    throw (.unprocessable "Every repair reassignment requires a subject and identifier")
  else return {
    conflictId := env.trim manifest.conflictId
    retainedSubject := manifest.retainedSubject.map fun subject =>
      { subject with subjectId := env.trim subject.subjectId }
    reassignments := reassignments }

/-- The canonical JSON text of an object, its keys in order. -/
def canonicalObject (fields : List (String × String)) : String :=
  "\x7b" ++ String.intercalate ","
    (fields.map fun field => env.stringify field.1 ++ ":" ++ field.2) ++ "\x7d"

def canonicalReassignment (item : Reassignment) : String :=
  canonicalObject env [("newIdentifier", env.stringify item.newIdentifier),
    ("subjectId", env.stringify item.subjectId),
    ("subjectType", env.stringify (subjectTypeText item.subjectType))]

def canonicalSubject (subject : AuthIdentifierSubjectReference) : String :=
  canonicalObject env [("subjectId", env.stringify subject.subjectId),
    ("subjectType", env.stringify (subjectTypeText subject.subjectType))]

def canonicalJson (manifest : RepairManifest) : String :=
  canonicalObject env ([("conflictId", env.stringify manifest.conflictId),
    ("reassignments", "[" ++ String.intercalate ","
      (manifest.reassignments.map (canonicalReassignment env)) ++ "]")] ++
    manifest.retainedSubject.toList.map fun subject =>
      ("retainedSubject", canonicalSubject env subject))

def AUTH_IDENTIFIER_REPAIR_MANIFEST_SALT : String :=
  "book-library/auth-identifier-repair-manifest/v1"

def deriveRepairManifestKey (keyMaterial : String) (manifestKeyVersion : ℕ) : Handler String :=
  if manifestKeyVersion < 1 then
    throw (.unprocessable "Manifest key version must be a positive integer")
  else
    let info := "key-version:" ++ toString manifestKeyVersion
    return env.hkdf (env.decode keyMaterial) AUTH_IDENTIFIER_REPAIR_MANIFEST_SALT info

def hashRepairManifest (manifest : RepairManifest) (keyMaterial : String)
    (manifestKeyVersion : ℕ) : Handler String := do
  let manifest ← normalizeRepairManifest env manifest
  let derivedKey ← deriveRepairManifestKey env keyMaterial manifestKeyVersion
  return env.hmac derivedKey (canonicalJson env manifest)

def verifyRepairManifest (manifest : RepairManifest) (expectedHash keyMaterial : String)
    (manifestKeyVersion : ℕ) : Handler Bool := do
  let actual ← hashRepairManifest env manifest keyMaterial manifestKeyVersion
  return decide (env.fromBase64url actual = env.fromBase64url expectedHash)

end Manifest

namespace AuthIdentifierRepairService

open AuthIdentifierRepairAuthorizationService (authorize)

variable (env : Environment)

def loadConflict (conflictId : String) : Handler AuthIdentifier := do
  let id ← castObjectId "_id" conflictId
  match ← findOwn none (.findReservation id) with
  | some conflict =>
    if conflict.status = .conflict then return conflict
    else throw (.notFound "Identifier conflict not found")
  | none => throw (.notFound "Identifier conflict not found")

def validateManifestSubjects (conflict : AuthIdentifier) (manifest : RepairManifest) :
    Handler Unit :=
  let claimants := conflict.conflictingSubjects.getD []
  let mapped := manifest.retainedSubject.toList ++
    manifest.reassignments.map (·.toAuthIdentifierSubjectReference)
  if mapped.eraseDups.length ≠ claimants.eraseDups.length ∨ ¬ mapped.all (claimants.contains ·) then
    throw (.unprocessable "Repair manifest must account for every conflict claimant")
  else return

def requireKey (version : ℕ) : Handler String :=
  match env.keyMaterial version with
  | some key => if key = "" then throw (.serviceUnavailable "repair-key-required") else return key
  | none => throw (.serviceUnavailable "repair-key-required")

def verifyPersistedManifest (operation : AuthIdentifierOperation) (manifest : RepairManifest) :
    Handler Unit := do
  let manifestHash := operation.manifestHash.getD ""
  let manifestKeyVersion := operation.manifestKeyVersion.getD 0
  if operation.operationType ≠ .offlineRepair ∨ manifestHash = "" ∨ manifestKeyVersion = 0 then
    throw (.conflict "Repair operation is invalid")
  else do
    let key ← requireKey env manifestKeyVersion
    if ← verifyRepairManifest env manifest manifestHash key manifestKeyVersion then return
    else throw (.conflict "Repair manifest does not match dry run")

def requireOperation (operationId : String) : Handler AuthIdentifierOperation := do
  match ← findOwn none (.findOperation operationId) with
  | some operation => return operation
  | none => throw (.notFound "Repair operation not found")

def result (operation : AuthIdentifierOperation) (assignmentCount : ℕ) (replayed : Bool) :
    OfflineRepairResult where
  operationId := operation.operationId
  status := operation.status
  assignmentCount := assignmentCount
  batchCount := (assignmentCount + env.identifierMaxOperationAssignments - 1) /
    env.identifierMaxOperationAssignments
  replayed := replayed
  reasonCategory := (operation.result.bind (·.reasonCategory)).getD
    "identifier-offline-repair-pending"

/-- The parent of a repair, as a dry run creates it. -/
def newParent (operationId : String) (manifest : RepairManifest) (manifestHash : String)
    (version : ℕ) (actorId id : String) (now : Date) : AuthIdentifierOperation where
  id := id
  operationId := operationId
  operationType := .offlineRepair
  status := .pending
  assignments := []
  manifestHash := some manifestHash
  manifestKeyVersion := some version
  retainedSubject := manifest.retainedSubject
  result := none
  leaseOwner := none
  leaseExpiresAt := none
  terminalEventId := none
  terminalEventRecordedAt := none
  cleanupStatus := .notRequired
  expiresAt := none
  requestedBy := ⟨.staff, actorId⟩
  lastResumedBy := none
  lastResumedAt := none
  completedAt := none
  updatedAt := now

def dryRun (input : OfflineRepairRequest) : Handler OfflineRepairResult := do
  let actorId ← authorize env input.token
  let manifest ← normalizeRepairManifest env input.manifest
  let conflict ← loadConflict manifest.conflictId
  validateManifestSubjects conflict manifest
  match env.repairKeyVersion with
  | none | some 0 => throw (.serviceUnavailable "repair-key-required")
  | some version => do
    let keyMaterial ← requireKey env version
    let manifestHash ← hashRepairManifest env manifest keyMaterial version
    match ← findOwn none (.findOperation input.operationId) with
    | some existing =>
      if existing.operationType ≠ .offlineRepair ∨ existing.manifestKeyVersion ≠ some version ∨
          existing.manifestHash ≠ some manifestHash then
        throw (.conflict "Repair operation id is already in use")
      else return result env existing manifest.reassignments.length true
    | none => do
      let now ← draw .currentDate
      let id ← draw .newObjectId
      if env.trim input.operationId = "" ∨ manifestHash = "" ∨
          (manifest.retainedSubject.any fun subject => env.trim subject.subjectId = "") then
        throw (.validation "operationId")
      else do
        let _ ← write none (.insertOperation
          (newParent input.operationId manifest manifestHash version actorId id.1 now))
        let created ← requireOperation input.operationId
        return result env created manifest.reassignments.length false

def recordResume (operation : AuthIdentifierOperation) (actorId resumeId : String) :
    Handler Unit :=
  SecurityActivityService.recordIdentifierRepairResumed operation.operationId resumeId
    ⟨.staff, operation.requestedBy.subjectId⟩ ⟨.staff, actorId⟩

def reserveReplacement (operation : AuthIdentifierOperation) (item : Reassignment)
    (session : Option ℕ) : Handler AuthIdentifier := do
  let now ← draw .currentDate
  let newId ← draw .newObjectId
  tryCatch (do
    let docs ← write session (.upsertIdentifier
      { operationId := operation.operationId
        normalizedIdentifier := item.newIdentifier
        identifierType := match item.subjectType with
          | .staff => .email
          | .member => .loginIdentifier
        subjectType := item.subjectType
        subjectId := item.subjectId
        pendingAction := .replace
        actorId := operation.requestedBy.subjectId
        now := now
        reclaims := false
        newId := newId.1 })
    match reservationOf docs with
    | some reservation => return reservation
    | none => throw (.conflict "Replacement unavailable")) fun error =>
      if error.isDuplicateKey then
        throw (.conflict "Replacement identifier is already reserved")
      else throw error

/-- The identifier that an account carries now, if there is the account. -/
def currentIdentifier (subjectType : AuthIdentifierSubjectType) (subjectId : String)
    (session : Option ℕ) : Handler (Option (Option String)) :=
  match subjectType with
  | .staff => do
    let user ← findAccount session (.findStaffUser subjectId)
    return user.map fun user => some user.email
  | .member => do
    let member ← findAccount session (.findMember subjectId)
    return member.map fun member => member.loginIdentifier

def setAggregateIdentifier (subjectType : AuthIdentifierSubjectType) (subjectId identifier : String)
    (session : Option ℕ) : Handler Unit := do
  let _ ← write session (.account (.setAccountIdentifier subjectType subjectId identifier))

def applyAggregateIdentifier (item : Reassignment) (session : Option ℕ) : Handler Unit := do
  match ← currentIdentifier item.subjectType item.subjectId session with
  | none => throw (.notFound "Repair subject not found")
  | some current =>
    if current = some item.newIdentifier then return
    else setAggregateIdentifier item.subjectType item.subjectId item.newIdentifier session

def batchAssignment (operation : AuthIdentifierOperation) (conflict : AuthIdentifier)
    (derivedKey : String) (item : Reassignment) : AuthIdentifierOperationAssignment where
  assignmentId :=
    operation.operationId ++ ":" ++ subjectTypeText item.subjectType ++ ":" ++ item.subjectId
  subjectType := item.subjectType
  subjectId := item.subjectId
  action := .replace
  sourceReservationId := some conflict.id
  targetReservationId := none
  identifierCorrelationHash := some (env.hmac derivedKey item.newIdentifier)
  correlationKeyVersion := operation.manifestKeyVersion
  status := .pending
  appliedAt := none

/-- One round of the loop of `prepareBatch`. -/
def prepareAssignment (operation : AuthIdentifierOperation) (batchNumber : ℕ)
    (session : Option ℕ) (item : Reassignment) (assignment : AuthIdentifierOperationAssignment) :
    Handler Unit := do
  let reservation ← reserveReplacement operation item session
  applyAggregateIdentifier item session
  let now ← draw .currentDate
  let _ ← write session (.updateBatch (.markApplied operation.operationId batchNumber
    assignment.assignmentId reservation.id now))

def prepareBatch (operation : AuthIdentifierOperation) (conflict : AuthIdentifier)
    (reassignments : List Reassignment) (batchNumber batchCount : ℕ) : Handler Unit := do
  let existing ← findOwn none (.findBatch operation.operationId batchNumber)
  if existing.any fun batch => decide (batch.status ≠ .pending) then return
  else do
    let version := operation.manifestKeyVersion.getD 0
    let key ← requireKey env version
    let derivedKey ← deriveRepairManifestKey env key version
    let assignments := reassignments.map (batchAssignment env operation conflict derivedKey)
    let checkpointHash := env.hmac derivedKey (operation.operationId ++ ":" ++
      toString batchNumber ++ ":" ++ String.intercalate "|" (assignments.map (·.assignmentId)))
    draw .startSession
    withTransaction fun n => do
      let session := some n
      match existing with
      | none =>
        let id ← draw .newObjectId
        if assignments.isEmpty ∨ AUTH_IDENTIFIER_SCHEMA_MAX_ASSIGNMENTS < assignments.length then
          throw (.validation "assignments")
        else do
          let _ ← write session (.insertBatch
            { id := id.1
              parentOperationId := operation.operationId
              batchNumber := batchNumber
              batchCount := batchCount
              status := .pending
              assignments := assignments
              checkpointHash := checkpointHash
              manifestKeyVersion := version
              preparedAt := none
              activatedAt := none
              compensatedAt := none
              expiresAt := none })
      | some batch =>
        if batch.checkpointHash ≠ checkpointHash then
          throw (.conflict "Repair batch checkpoint does not match")
      (reassignments.zip assignments).forM fun (item, assignment) =>
        prepareAssignment operation batchNumber session item assignment
      let now ← draw .currentDate
      let _ ← write session (.updateBatch (.prepare operation.operationId batchNumber now))

def activateBatch (operationId : String) (batchNumber : ℕ) : Handler Unit := do
  match ← findOwn none (.findBatch operationId batchNumber) with
  | none => return
  | some batch =>
    if batch.status = .activated then return
    else if batch.status ≠ .prepared then throw (.conflict "Repair batch is not prepared")
    else do
      draw .startSession
      withTransaction fun n => do
        let session := some n
        let _ ← write session (.updateIdentifiers (.activate operationId
          (batch.assignments.filterMap (·.targetReservationId))))
        let now ← draw .currentDate
        let _ ← write session (.updateBatch (.activate operationId batchNumber now))

/-- The verdict of a repair on its parent, with its event. -/
def finishParent (operationId actorId : String) (status : TerminalStatus) (session : Option ℕ) :
    Handler Unit := do
  let reasonCategory := match status with
    | .completed => "identifier-offline-repair-completed"
    | .failedTerminal => "identifier-offline-repair-cancelled"
  let eventId ← SecurityActivityService.recordIdentifierOperationTerminal
    { operationId := operationId
      operationType := .offlineRepair
      terminalStatus := status
      actor := ⟨.staff, actorId⟩
      outcome := match status with
        | .completed => .success
        | .failedTerminal => .failure
      reasonCategory := reasonCategory } session
  let now ← draw .currentDate
  let _ ← updateOperation session (.finishRepair operationId status.status
    { outcome := match status with
        | .completed => .success
        | .failedTerminal => .failure
      reasonCategory := some reasonCategory
      httpStatus := match status with
        | .completed => 200
        | .failedTerminal => 409 } eventId now)

def completeParent (input : OfflineRepairRequest) (manifest : RepairManifest) (actorId : String) :
    Handler Unit := do
  draw .startSession
  withTransaction fun n => do
    let session := some n
    let now ← draw .currentDate
    let conflictId ← castObjectId "_id" manifest.conflictId
    let first := (manifest.reassignments.head?.map (·.toAuthIdentifierSubjectReference)).getD
      ⟨.staff, ""⟩
    updateIdentifier session
      (.resolveOriginal input.operationId conflictId manifest.retainedSubject first now)
    finishParent input.operationId actorId .completed session

def finishFailedParent (operationId actorId : String) : Handler Unit := do
  draw .startSession
  withTransaction fun n => finishParent operationId actorId .failedTerminal (some n)

/-- One round of the loop of `compensateBatch`. -/
def compensateAssignment (manifest : RepairManifest) (originalIdentifier : String)
    (session : Option ℕ) (assignment : AuthIdentifierOperationAssignment) : Handler Unit := do
  match manifest.reassignments.reverse.find? fun item =>
      decide (item.subjectType = assignment.subjectType) &&
        decide (item.subjectId = assignment.subjectId) with
  | none => return
  | some item => do
    setAggregateIdentifier item.subjectType item.subjectId originalIdentifier session
    match assignment.targetReservationId with
    | none => return
    | some id => do
      let now ← draw .currentDate
      updateIdentifier session (.releaseReplacement id now)

def compensateBatch (batch : AuthIdentifierRepairBatch) (manifest : RepairManifest) :
    Handler Unit := do
  if batch.status = .compensated then return
  else do
    let conflict ← loadConflict manifest.conflictId
    draw .startSession
    withTransaction fun n => do
      let session := some n
      batch.assignments.reverse.forM
        (compensateAssignment manifest conflict.normalizedIdentifier session)
      let now ← draw .currentDate
      let _ ← write session (.updateBatch (.compensate batch.id now))

/-- `partition(manifest)` -/
def partition (manifest : RepairManifest) : List (List Reassignment) :=
  manifest.reassignments.toChunks env.identifierMaxOperationAssignments

/-- What `apply` does within its `try`. -/
def applyBatches (input : OfflineRepairRequest) (manifest : RepairManifest)
    (operation : AuthIdentifierOperation) (conflict : AuthIdentifier) (actorId : String) :
    Handler Unit := do
  let batches := partition env manifest
  batches.zipIdx.forM fun (reassignments, index) => do
    let _ ← authorize env input.token
    prepareBatch env operation conflict reassignments index batches.length
  (List.range batches.length).forM fun index => do
    let _ ← authorize env input.token
    activateBatch input.operationId index
  let _ ← authorize env input.token
  let _ ← updateOperation none (.moveStatus input.operationId [.applying] .finalizing)
  completeParent input manifest actorId

def apply (input : OfflineRepairRequest) : Handler OfflineRepairResult := do
  if env.trim (input.resumeId.getD "") = "" then
    throw (.unprocessable "A stable resume id is required")
  else do
    let actorId ← authorize env input.token
    let manifest ← normalizeRepairManifest env input.manifest
    let operation ← requireOperation input.operationId
    verifyPersistedManifest env operation manifest
    if operation.status.isTerminal then
      return result env operation manifest.reassignments.length true
    else do
      let conflict ← loadConflict manifest.conflictId
      validateManifestSubjects conflict manifest
      recordResume operation actorId (input.resumeId.getD "")
      if operation.status = .pending ∨ operation.status = .failedRetryable then do
        let now ← draw .currentDate
        let _ ← updateOperation none
          (.startApplying input.operationId operation.status actorId now)
      tryCatch (applyBatches env input manifest operation conflict actorId) fun error => do
        let _ ← updateOperation none (.moveStatus input.operationId [.applying] .failedRetryable)
        throw error
      let operation ← requireOperation input.operationId
      return result env operation manifest.reassignments.length false

/-- What `cancel` does within its `try`. -/
def compensateBatches (input : OfflineRepairRequest) (manifest : RepairManifest)
    (batches : List AuthIdentifierRepairBatch) (actorId : String) : Handler Unit := do
  batches.forM fun batch => do
    let _ ← authorize env input.token
    compensateBatch batch manifest
  let _ ← authorize env input.token
  let conflictId ← castObjectId "_id" manifest.conflictId
  updateIdentifier none (.markConflict conflictId)
  let _ ← updateOperation none (.moveStatus input.operationId [.compensating] .finalizing)
  finishFailedParent input.operationId actorId

def cancel (input : OfflineRepairRequest) : Handler OfflineRepairResult := do
  let actorId ← authorize env input.token
  let manifest ← normalizeRepairManifest env input.manifest
  let operation ← requireOperation input.operationId
  verifyPersistedManifest env operation manifest
  if operation.status.isTerminal then
    return result env operation manifest.reassignments.length true
  else do
    let _ ← updateOperation none
      (.moveStatus input.operationId [.applying, .failedRetryable, .pending] .compensating)
    let batches ← findOwn none (.listBatches input.operationId)
    tryCatch (compensateBatches env input manifest batches actorId) fun error => do
      let _ ← updateOperation none (.moveStatus input.operationId [.compensating] .failedRetryable)
      throw error
    let operation ← requireOperation input.operationId
    return result env operation manifest.reassignments.length false

end AuthIdentifierRepairService

end Operations
