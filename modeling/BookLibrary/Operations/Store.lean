import BookLibrary.Accounts.AuthIdentifiers
import BookLibrary.Transactions.Handlers

/-!
# The calls of the identifier operations

What `AuthIdentifierService`, `AuthIdentifierReconciliationService` and
`AuthIdentifierRepairService` ask of the database: one constructor for each kind of query
and for each update, with the filter and the update that it stands for.
-/

namespace Operations

open AuthIdentifiers Documents Interleaving

export Accounts (Database Document AuthIdentifierAssignmentInput SecurityActivityEvent)

/-- A query that works on an operation in memory carries it. -/
inductive OperationQuery : Type → Type where
  | findOperation (operationId : String) : OperationQuery (Option AuthIdentifierOperation)
  | findReservation (id : String) : OperationQuery (Option AuthIdentifier)
  | findPending (operationId : String) (subjectType : AuthIdentifierSubjectType)
      (subjectId : String) (pendingAction : Option AuthIdentifierPendingAction) :
      OperationQuery (Option AuthIdentifier)
  | carriesIdentifier (subjectType : AuthIdentifierSubjectType) (subjectId identifier : String) :
      OperationQuery Bool
  | listCandidates (clientCutoff : Date) (limit : ℕ) : OperationQuery (List AuthIdentifierOperation)
  | listPending (operation : AuthIdentifierOperation) (limit : ℕ) :
      OperationQuery (List AuthIdentifier)
  | listGated (operation : AuthIdentifierOperation) (limit : ℕ) : OperationQuery (List AuthIdentifier)
  | listOpenBatches (operationId : String) (limit : ℕ) :
      OperationQuery (List AuthIdentifierRepairBatch)
  | anyGated (operation : AuthIdentifierOperation) : OperationQuery Bool
  | anyOpenBatch (operationId : String) : OperationQuery Bool
  | findBatch (parentOperationId : String) (batchNumber : ℕ) :
      OperationQuery (Option AuthIdentifierRepairBatch)
  | listBatches (parentOperationId : String) : OperationQuery (List AuthIdentifierRepairBatch)

abbrev Query (β : Type) : Type := Accounts.Query β ⊕ OperationQuery β

/-- Change the first assignment of that id: the positional operator of an update. -/
def adjust (assignmentId : String)
    (f : AuthIdentifierOperationAssignment → AuthIdentifierOperationAssignment) :
    List AuthIdentifierOperationAssignment → List AuthIdentifierOperationAssignment
  | [] => []
  | a :: assignments =>
    if a.assignmentId = assignmentId then f a :: assignments
    else a :: adjust assignmentId f assignments

def hasAssignment (assignmentId : String) (assignments : List AuthIdentifierOperationAssignment) :
    Bool :=
  assignments.any fun a => decide (a.assignmentId = assignmentId)

def RECONCILABLE_STATUSES : List AuthIdentifierOperationStatus :=
  [.pending, .applying, .compensating, .finalizing, .failedRetryable]

def TERMINAL_STATUSES : List AuthIdentifierOperationStatus := [.completed, .failedTerminal]

/-- The filter of the reconciler, for leases that ended by the date `cutoff`. -/
def candidateFilter (cutoff : Date) (d : AuthIdentifierOperation) : Bool :=
  (decide (d.status ∈ RECONCILABLE_STATUSES) ||
    decide (d.status ∈ TERMINAL_STATUSES) && decide (d.cleanupStatus = .pending)) &&
  d.leaseExpiresAt.all fun leaseExpiresAt => decide (leaseExpiresAt ≤ cutoff)

structure Correlation where
  hash : String
  version : ℕ
  deriving DecidableEq

/-- The updates of one operation: those of the saga, of the reconciler, of the repair. -/
inductive OperationUpdate where
  | transition (operationId : String) (source target : AuthIdentifierOperationStatus) (now : Date)
  | attachReference (operationId assignmentId reservationId : String) (now : Date)
  | markApplied (operationId assignmentId : String) (now : Date)
  | markCompensated (operationId assignmentId : String) (now : Date)
  | beginFinalizing (operationId : String) (source : AuthIdentifierOperationStatus)
      (result : AuthIdentifierOperationResult) (now : Date)
  | finishTerminal (operationId : String) (status : AuthIdentifierOperationStatus)
      (result : AuthIdentifierOperationResult) (eventId : String) (now : Date)
      (expiresAt : Option Date)
  | resume (operationId : String) (requestedBy : AuthIdentifierSubjectReference) (now : Date)
  | claim (id owner : String) (now leaseExpiresAt cutoff : Date)
  | renewLease (operationId owner : String) (now leaseExpiresAt : Date)
  | releaseLease (operationId owner : String) (now : Date)
  | attachMissing (operationId assignmentId owner reservationId : String)
      (correlation : Option Correlation)
  | recoverApplied (operationId assignmentId owner : String) (appliedAt : Date)
  | recoverCompensated (operationId assignmentId owner : String)
  | recoverTransition (operationId owner : String) (source target : AuthIdentifierOperationStatus)
  | finalize (operationId owner : String) (status : AuthIdentifierOperationStatus)
      (eventId : String) (now : Date) (expiresAt : Option Date)
  | finishCleanup (operationId owner : String) (now expiresAt : Date)
  | startApplying (operationId : String) (source : AuthIdentifierOperationStatus)
      (actorId : String) (now : Date)
  | moveStatus (operationId : String) (sources : List AuthIdentifierOperationStatus)
      (target : AuthIdentifierOperationStatus)
  | finishRepair (operationId : String) (status : AuthIdentifierOperationStatus)
      (result : AuthIdentifierOperationResult) (eventId : String) (now : Date)
  deriving DecidableEq

namespace OperationUpdate

def leasedBy (owner : String) (d : AuthIdentifierOperation) : Bool :=
  decide (d.leaseOwner = some owner)

def selects : OperationUpdate → AuthIdentifierOperation → Bool
  | transition operationId source _ _, d =>
    decide (d.operationId = operationId) && decide (d.status = source)
  | attachReference operationId assignmentId _ _, d =>
    decide (d.operationId = operationId) && hasAssignment assignmentId d.assignments
  | markApplied operationId assignmentId _, d =>
    decide (d.operationId = operationId) && hasAssignment assignmentId d.assignments
  | markCompensated operationId assignmentId _, d =>
    decide (d.operationId = operationId) && hasAssignment assignmentId d.assignments
  | beginFinalizing operationId source _ _, d =>
    decide (d.operationId = operationId) && decide (d.status = source)
  | finishTerminal operationId _ _ _ _ _, d =>
    decide (d.operationId = operationId) && decide (d.status = .finalizing)
  | resume operationId _ _, d => decide (d.operationId = operationId)
  | claim id _ _ _ cutoff, d => decide (d.id = id) && candidateFilter cutoff d
  | renewLease operationId owner now _, d =>
    decide (d.operationId = operationId) && leasedBy owner d &&
      d.leaseExpiresAt.any fun leaseExpiresAt => decide (now < leaseExpiresAt)
  | releaseLease operationId owner _, d => decide (d.operationId = operationId) && leasedBy owner d
  | attachMissing operationId assignmentId owner _ _, d =>
    decide (d.operationId = operationId) && hasAssignment assignmentId d.assignments &&
      (d.assignments.all fun a => decide (a.targetReservationId = none)) && leasedBy owner d
  | recoverApplied operationId assignmentId owner _, d =>
    decide (d.operationId = operationId) && hasAssignment assignmentId d.assignments &&
      leasedBy owner d
  | recoverCompensated operationId assignmentId owner, d =>
    decide (d.operationId = operationId) && hasAssignment assignmentId d.assignments &&
      leasedBy owner d
  | recoverTransition operationId owner source _, d =>
    decide (d.operationId = operationId) && decide (d.status = source) && leasedBy owner d
  | finalize operationId owner _ _ _ _, d =>
    decide (d.operationId = operationId) && decide (d.status = .finalizing) && leasedBy owner d
  | finishCleanup operationId owner _ _, d =>
    decide (d.operationId = operationId) && decide (d.status ∈ TERMINAL_STATUSES) &&
      decide (d.cleanupStatus = .pending) && d.terminalEventId.isSome &&
      d.terminalEventRecordedAt.isSome && leasedBy owner d
  | startApplying operationId source _ _, d =>
    decide (d.operationId = operationId) && decide (d.status = source)
  | moveStatus operationId sources _, d =>
    decide (d.operationId = operationId) && decide (d.status ∈ sources)
  | finishRepair operationId _ _ _ _, d =>
    decide (d.operationId = operationId) && decide (d.status = .finalizing)

def apply : OperationUpdate → AuthIdentifierOperation → AuthIdentifierOperation
  | transition _ _ target now, d => { d with status := target, updatedAt := now }
  | attachReference _ assignmentId reservationId now, d =>
    { d with
      assignments := adjust assignmentId
        (fun a => { a with targetReservationId := some reservationId }) d.assignments
      updatedAt := now }
  | markApplied _ assignmentId now, d =>
    { d with
      assignments := adjust assignmentId
        (fun a => { a with status := .applied, appliedAt := some now }) d.assignments
      updatedAt := now }
  | markCompensated _ assignmentId now, d =>
    { d with
      assignments := adjust assignmentId (fun a => { a with status := .compensated }) d.assignments
      updatedAt := now }
  | beginFinalizing _ _ result now, d =>
    { d with status := .finalizing, result := some result, updatedAt := now }
  | finishTerminal _ status result eventId now expiresAt, d =>
    { d with
      status := status
      result := some result
      terminalEventId := some eventId
      terminalEventRecordedAt := some now
      completedAt := some now
      updatedAt := now
      expiresAt := expiresAt.or d.expiresAt }
  | resume _ requestedBy now, d =>
    { d with lastResumedBy := some requestedBy, lastResumedAt := some now }
  | claim _ owner now leaseExpiresAt _, d =>
    { d with leaseOwner := some owner, leaseExpiresAt := some leaseExpiresAt, updatedAt := now }
  | renewLease _ _ now leaseExpiresAt, d =>
    { d with leaseExpiresAt := some leaseExpiresAt, updatedAt := now }
  | releaseLease _ _ now, d => { d with leaseExpiresAt := some now, updatedAt := now }
  | attachMissing _ assignmentId _ reservationId correlation, d =>
    { d with
      assignments := adjust assignmentId
        (fun a => { a with
          targetReservationId := some reservationId
          identifierCorrelationHash := (correlation.map (·.hash)).or a.identifierCorrelationHash
          correlationKeyVersion := (correlation.map (·.version)).or a.correlationKeyVersion })
        d.assignments }
  | recoverApplied _ assignmentId _ appliedAt, d =>
    { d with
      assignments := adjust assignmentId
        (fun a => { a with status := .applied, appliedAt := some appliedAt }) d.assignments }
  | recoverCompensated _ assignmentId _, d =>
    { d with
      assignments := adjust assignmentId (fun a => { a with status := .compensated })
        d.assignments }
  | recoverTransition _ _ _ target, d => { d with status := target }
  | finalize _ _ status eventId now expiresAt, d =>
    { d with
      status := status
      terminalEventId := some eventId
      terminalEventRecordedAt := some now
      completedAt := some now
      updatedAt := now
      expiresAt := expiresAt.or d.expiresAt }
  | finishCleanup _ _ now expiresAt, d =>
    { d with cleanupStatus := .completed, expiresAt := some expiresAt, updatedAt := now }
  | startApplying _ _ actorId now, d =>
    { d with
      status := .applying
      lastResumedBy := some ⟨.staff, actorId⟩
      lastResumedAt := some now }
  | moveStatus _ _ target, d => { d with status := target }
  | finishRepair _ status result eventId now, d =>
    { d with
      status := status
      result := some result
      terminalEventId := some eventId
      terminalEventRecordedAt := some now
      completedAt := some now
      cleanupStatus := .pending }

end OperationUpdate

/-- A reservation that an operation makes pending. The subject of an active one may
`reclaim` it; where there is none for the identifier, it is created. -/
structure IdentifierUpsert where
  operationId : String
  normalizedIdentifier : String
  identifierType : AuthIdentifierType
  subjectType : AuthIdentifierSubjectType
  subjectId : String
  pendingAction : AuthIdentifierPendingAction
  actorId : String
  now : Date
  reclaims : Bool
  newId : String
  deriving DecidableEq

namespace IdentifierUpsert

variable (u : IdentifierUpsert)

def selects (d : AuthIdentifier) : Bool :=
  decide (d.normalizedIdentifier = u.normalizedIdentifier) &&
    (decide (d.pendingOperationId = some u.operationId) || decide (d.status = .released) ||
      u.reclaims && decide (d.status = .active) && decide (d.subjectType = some u.subjectType) &&
        decide (d.subjectId = some u.subjectId))

def apply (d : AuthIdentifier) : AuthIdentifier :=
  { d with
    normalizedIdentifier := u.normalizedIdentifier
    identifierType := u.identifierType
    subjectType := some u.subjectType
    subjectId := some u.subjectId
    status := .pending
    pendingAction := some u.pendingAction
    pendingOperationId := some u.operationId
    updatedBy := u.actorId
    updatedAt := u.now }

def created : AuthIdentifier where
  id := u.newId
  normalizedIdentifier := u.normalizedIdentifier
  identifierType := u.identifierType
  subjectType := some u.subjectType
  subjectId := some u.subjectId
  status := .pending
  conflictingSubjects := none
  conflictResolutionStatus := none
  pendingOperationId := some u.operationId
  activationGateOperationId := none
  lastOperationId := none
  pendingAction := some u.pendingAction
  releasedAt := none
  createdBy := u.actorId
  updatedBy := u.actorId
  updatedAt := u.now

end IdentifierUpsert

/-- The updates of one reservation: those of the saga, of the conflict's adapter, of the
reconciler, of the repair. -/
inductive IdentifierUpdate where
  | takeSource (operationId id : String) (pendingAction : AuthIdentifierPendingAction)
      (sources : List AuthIdentifierStatus) (subjectType : AuthIdentifierSubjectType)
      (subjectId actorId : String) (now : Date)
  | finalizeReservation (operationId id : String) (released : Bool) (actorId : String) (now : Date)
  | restoreReservation (operationId : String) (id : Option String) (status : AuthIdentifierStatus)
      (actorId : String) (now : Date)
  | releaseConflict (id : String) (subjectType : AuthIdentifierSubjectType) (subjectId : String)
      (now : Date)
  | restoreConflict (id : String)
  | recoverReservation (operationId id : String) (status : AuthIdentifierStatus)
  | resolveOriginal (operationId id : String) (retained : Option AuthIdentifierSubjectReference)
      (reassigned : AuthIdentifierSubjectReference) (now : Date)
  | releaseReplacement (id : String) (now : Date)
  | markConflict (id : String)
  deriving DecidableEq

namespace IdentifierUpdate

def selects : IdentifierUpdate → AuthIdentifier → Bool
  | takeSource operationId id _ sources _ _ _ _, d =>
    decide (d.id = id) &&
      (decide (d.pendingOperationId = some operationId) || decide (d.status ∈ sources))
  | finalizeReservation operationId id _ _ _, d =>
    decide (d.id = id) && decide (d.pendingOperationId = some operationId)
  | restoreReservation operationId id _ _ _, d =>
    decide (some d.id = id) && decide (d.lastOperationId = some operationId)
  | releaseConflict id _ _ _, d => decide (d.id = id) && decide (d.status = .conflict)
  | restoreConflict id, d => decide (d.id = id)
  | recoverReservation operationId id _, d =>
    decide (d.id = id) && decide (d.pendingOperationId = some operationId)
  | resolveOriginal _ id _ _ _, d => decide (d.id = id) && decide (d.status = .conflict)
  | releaseReplacement id _, d => decide (d.id = id)
  | markConflict id, d => decide (d.id = id)

def apply : IdentifierUpdate → AuthIdentifier → AuthIdentifier
  | takeSource operationId _ pendingAction _ subjectType subjectId actorId now, d =>
    { d with
      status := .pending
      pendingAction := some pendingAction
      pendingOperationId := some operationId
      subjectType := some subjectType
      subjectId := some subjectId
      updatedBy := actorId
      updatedAt := now }
  | finalizeReservation operationId _ released actorId now, d =>
    { d with
      status := if released then .released else .active
      lastOperationId := some operationId
      updatedBy := actorId
      updatedAt := now
      releasedAt := if released then some now else d.releasedAt
      pendingOperationId := none
      pendingAction := none }
  | restoreReservation _ _ status actorId now, d =>
    { d with
      status := status
      updatedBy := actorId
      updatedAt := now
      pendingOperationId := none
      pendingAction := none
      releasedAt := if status = .released then d.releasedAt else none }
  | releaseConflict _ subjectType subjectId now, d =>
    { d with
      status := .released
      subjectType := some subjectType
      subjectId := some subjectId
      releasedAt := some now
      conflictingSubjects := none
      conflictResolutionStatus := none }
  | restoreConflict _, d =>
    { d with
      status := .conflict
      conflictResolutionStatus := some .reviewable
      releasedAt := none }
  | recoverReservation operationId _ status, d =>
    { d with
      status := status
      lastOperationId := some operationId
      pendingOperationId := none
      pendingAction := none }
  | resolveOriginal operationId _ (some retained) _ _, d =>
    { d with
      status := .active
      subjectType := some retained.subjectType
      subjectId := some retained.subjectId
      lastOperationId := some operationId
      conflictingSubjects := none
      conflictResolutionStatus := none
      pendingOperationId := none
      pendingAction := none
      releasedAt := none }
  | resolveOriginal operationId _ none reassigned now, d =>
    { d with
      status := .released
      subjectType := some reassigned.subjectType
      subjectId := some reassigned.subjectId
      releasedAt := some now
      lastOperationId := some operationId
      conflictingSubjects := none
      conflictResolutionStatus := none
      pendingOperationId := none
      pendingAction := none }
  | releaseReplacement _ now, d =>
    { d with
      status := .released
      releasedAt := some now
      activationGateOperationId := none
      pendingOperationId := none
      pendingAction := none }
  | markConflict _, d =>
    { d with
      status := .conflict
      conflictResolutionStatus := some .manualRepairRequired }

end IdentifierUpdate

/-- The updates of several reservations: of the reconciler, and of the repair. -/
inductive IdentifiersUpdate where
  | ungate (ids : List String) (releases : Bool)
  | activate (operationId : String) (ids : List String)
  deriving DecidableEq

namespace IdentifiersUpdate

def selects : IdentifiersUpdate → AuthIdentifier → Bool
  | ungate ids _, d => decide (d.id ∈ ids)
  | activate operationId ids, d =>
    decide (d.id ∈ ids) && decide (d.pendingOperationId = some operationId)

def apply : IdentifiersUpdate → AuthIdentifier → AuthIdentifier
  | ungate _ releases, d =>
    { d with
      status := if releases then .released else d.status
      activationGateOperationId := none }
  | activate operationId _, d =>
    { d with
      status := .active
      activationGateOperationId := some operationId
      lastOperationId := some operationId
      pendingOperationId := none
      pendingAction := none }

end IdentifiersUpdate

/-- The updates of a batch of an offline repair. -/
inductive BatchUpdate where
  | markApplied (parentOperationId : String) (batchNumber : ℕ) (assignmentId reservationId : String)
      (now : Date)
  | prepare (parentOperationId : String) (batchNumber : ℕ) (now : Date)
  | activate (parentOperationId : String) (batchNumber : ℕ) (now : Date)
  | compensate (id : String) (now : Date)
  deriving DecidableEq

namespace BatchUpdate

def selects : BatchUpdate → AuthIdentifierRepairBatch → Bool
  | markApplied parentOperationId batchNumber assignmentId _ _, d =>
    decide (d.parentOperationId = parentOperationId) && decide (d.batchNumber = batchNumber) &&
      hasAssignment assignmentId d.assignments
  | prepare parentOperationId batchNumber _, d =>
    decide (d.parentOperationId = parentOperationId) && decide (d.batchNumber = batchNumber)
  | activate parentOperationId batchNumber _, d =>
    decide (d.parentOperationId = parentOperationId) && decide (d.batchNumber = batchNumber)
  | compensate id _, d => decide (d.id = id)

def apply : BatchUpdate → AuthIdentifierRepairBatch → AuthIdentifierRepairBatch
  | markApplied _ _ assignmentId reservationId now, d =>
    { d with
      assignments := adjust assignmentId
        (fun a => { a with
          targetReservationId := some reservationId
          status := .applied
          appliedAt := some now }) d.assignments }
  | prepare _ _ now, d => { d with status := .prepared, preparedAt := some now }
  | activate _ _ now, d => { d with status := .activated, activatedAt := some now }
  | compensate _ now, d => { d with status := .compensated, compensatedAt := some now }

end BatchUpdate

inductive Write where
  | account (w : Accounts.Write)
  | insertOperation (d : AuthIdentifierOperation)
  | updateOperation (u : OperationUpdate)
  | upsertIdentifier (u : IdentifierUpsert)
  | updateIdentifier (u : IdentifierUpdate)
  | updateIdentifiers (u : IdentifiersUpdate)
  | insertBatch (d : AuthIdentifierRepairBatch)
  | updateBatch (u : BatchUpdate)
  | expireBatches (ids : List String) (now : Date)
  | recordEvent (e : SecurityActivityEvent)
  deriving DecidableEq

/-- A text longer than all of them: an id that the server gives a new document. -/
def freshId (ids : List String) : String :=
  String.ofList (List.replicate (ids.foldr (fun id n => max id.length n) 0 + 1) '0')

theorem freshId_not_mem (ids : List String) : freshId ids ∉ ids := by
  have bound : ∀ id ∈ ids, id.length ≤ ids.foldr (fun id n => max id.length n) 0 := by
    induction ids with
    | nil => intro id h; cases h
    | cons id ids ih =>
      intro id' h
      rcases List.mem_cons.mp h with rfl | h
      · exact Nat.le_max_left _ _
      · exact (ih id' h).trans (Nat.le_max_right _ _)
  intro h
  have hlong := bound _ h
  rw [freshId, String.length_ofList, List.length_replicate] at hlong
  omega

/-- Some of the documents that the filter selects, `limit` of them or else all. -/
def FindLimited {D : Type} (p : D → Bool) (limit : ℕ) (docs batch : List D) : Prop :=
  ∃ order : List D, order.Perm (docs.filter p) ∧ batch = order.take limit

namespace Database

def isPendingFor (operationId : String) (d : AuthIdentifier) : Bool :=
  decide (d.pendingOperationId = some operationId)

def isGatedBy (operationId : String) (d : AuthIdentifier) : Bool :=
  decide (d.activationGateOperationId = some operationId)

/-- The filter that finds the pending reservation of an assignment; an action that is no
pending action is stored by no reservation. -/
def isPendingAs (operationId : String) (subjectType : AuthIdentifierSubjectType)
    (subjectId : String) (pendingAction : Option AuthIdentifierPendingAction) (d : AuthIdentifier) :
    Bool :=
  isPendingFor operationId d && decide (d.subjectType = some subjectType) &&
    decide (d.subjectId = some subjectId) && pendingAction.isSome &&
    decide (d.pendingAction = pendingAction)

def isOpenBatchOf (operationId : String) (d : AuthIdentifierRepairBatch) : Bool :=
  decide (d.parentOperationId = operationId) && d.expiresAt.isNone

def carries (s : Accounts.Database) (subjectId identifier : String) :
    AuthIdentifierSubjectType → Bool
  | .staff => s.staffUsers.any fun d => decide (d.id = subjectId) && decide (d.email = identifier)
  | .member => s.members.any fun d =>
    decide (d.id = subjectId) && decide (d.loginIdentifier = some identifier)

def answersOperation : (β : Type) → OperationQuery β → Accounts.Database → β → Prop
  | _, .findOperation operationId, s, r =>
    FindOne (fun d => decide (d.operationId = operationId)) s.operations r
  | _, .findReservation id, s, r => FindOne (fun d => decide (d.id = id)) s.identifiers r
  | _, .findPending operationId subjectType subjectId action, s, r =>
    FindOne (isPendingAs operationId subjectType subjectId action) s.identifiers r
  | _, .carriesIdentifier subjectType subjectId identifier, s, r =>
    r = carries s subjectId identifier subjectType
  | _, .listCandidates clientCutoff limit, s, r =>
    FindSorted (candidateFilter clientCutoff) (·.updatedAt) limit s.operations r
  | _, .listPending operation limit, s, r =>
    FindLimited (isPendingFor operation.operationId) limit s.identifiers r
  | _, .listGated operation limit, s, r =>
    FindLimited (isGatedBy operation.operationId) limit s.identifiers r
  | _, .listOpenBatches operationId limit, s, r =>
    FindLimited (isOpenBatchOf operationId) limit s.batches r
  | _, .anyGated operation, s, r => r = s.identifiers.any (isGatedBy operation.operationId)
  | _, .anyOpenBatch operationId, s, r => r = s.batches.any (isOpenBatchOf operationId)
  | _, .findBatch parentOperationId batchNumber, s, r =>
    FindOne (fun d => decide (d.parentOperationId = parentOperationId) &&
      decide (d.batchNumber = batchNumber)) s.batches r
  | _, .listBatches parentOperationId, s, r =>
    FindSorted (fun d => decide (d.parentOperationId = parentOperationId))
      (fun d => - (d.batchNumber : ℤ)) s.batches.length s.batches r

def answers (β : Type) (q : Query β) (s : Accounts.Database) (r : β) : Prop :=
  match q with
  | .inl q => Accounts.Database.answers β q s r
  | .inr q => answersOperation β q s r

variable (s : Accounts.Database)

open Accounts.Database (update insert)

/-- What each write leaves, unique indexes aside. -/
def unchecked : Write → Sessions.WriteResult Document
  | .account w => s.unchecked w
  | .insertOperation d => s.insert (.operation d)
  | .updateOperation u => update .operation u.selects u.apply s.operations
  | .upsertIdentifier u =>
    match s.identifiers.find? u.selects with
    | some d => .written [.identifier (u.apply d)]
    | none => s.insert (.identifier u.created)
  | .updateIdentifier u => update .identifier u.selects u.apply s.identifiers
  | .updateIdentifiers u =>
    .written ((s.identifiers.filter u.selects).map fun d => .identifier (u.apply d))
  | .insertBatch d => s.insert (.batch d)
  | .updateBatch u => update .batch u.selects u.apply s.batches
  | .expireBatches ids now =>
    .written ((s.batches.filter fun d => decide (d.id ∈ ids)).map fun d =>
      .batch { d with expiresAt := some now })
  | .recordEvent e =>
    if s.activity.any fun d => decide (d.eventId = e.eventId) then .unmatched
    else .written [.event { e with id := freshId (s.activity.map (·.id)) }]

end Database

/-- The collections as a store of documents. No write that breaks a unique index is
applied. -/
def schema : Sessions.Schema Query Write Accounts.Database Accounts.Document Accounts.Key where
  key := Accounts.Document.key
  find := Accounts.Database.find
  put := Accounts.Database.put
  indexed s := decide s.Indexed
  answers := Database.answers
  write w s :=
    if ((Database.unchecked s w).docs.foldr Accounts.Database.put s).Indexed then
      Database.unchecked s w
    else .duplicateKey

abbrev Store := Sessions.Store Accounts.Database Accounts.Document

end Operations
