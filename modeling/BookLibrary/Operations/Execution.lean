import BookLibrary.Accounts.Execution
import BookLibrary.Operations.System
import BookLibrary.Transactions.Execution

/-!
# Executing the identifier operations

Each query and each draw as a function.
-/

namespace Operations

open AuthIdentifiers Documents Interleaving

export Accounts (Choice)

/-- `Database.answersOperation` as a function. -/
def answerOperation : (β : Type) → OperationQuery β → Database → β
  | _, .findOperation operationId, s =>
    s.operations.find? fun d => decide (d.operationId = operationId)
  | _, .findReservation id, s => s.identifiers.find? fun d => decide (d.id = id)
  | _, .findPending operationId subjectType subjectId action, s =>
    s.identifiers.find? (Database.isPendingAs operationId subjectType subjectId action)
  | _, .carriesIdentifier subjectType subjectId identifier, s =>
    Database.carries s subjectId identifier subjectType
  | _, .listCandidates clientCutoff limit, s =>
    ((s.operations.filter (candidateFilter clientCutoff)).insertionSort
      (·.updatedAt ≤ ·.updatedAt)).take limit
  | _, .listPending operation limit, s =>
    (s.identifiers.filter (Database.isPendingFor operation.operationId)).take limit
  | _, .listGated operation limit, s =>
    (s.identifiers.filter (Database.isGatedBy operation.operationId)).take limit
  | _, .listOpenBatches operationId limit, s =>
    (s.batches.filter (Database.isOpenBatchOf operationId)).take limit
  | _, .anyGated operation, s => s.identifiers.any (Database.isGatedBy operation.operationId)
  | _, .anyOpenBatch operationId, s => s.batches.any (Database.isOpenBatchOf operationId)
  | _, .findBatch parentOperationId batchNumber, s =>
    s.batches.find? fun d => decide (d.parentOperationId = parentOperationId) &&
      decide (d.batchNumber = batchNumber)
  | _, .listBatches parentOperationId, s =>
    ((s.batches.filter fun d => decide (d.parentOperationId = parentOperationId)).insertionSort
      (fun d d' => - (d.batchNumber : ℤ) ≤ - (d'.batchNumber : ℤ))).take s.batches.length

theorem answerOperation_answers {β : Type} (q : OperationQuery β) (s : Database) :
    Database.answersOperation β q s (answerOperation β q s) := by
  cases q with
  | findOperation | findReservation | findPending | findBatch => exact findOne_find?
  | carriesIdentifier | anyGated | anyOpenBatch => rfl
  | listCandidates clientCutoff limit => exact findSorted_insertionSort
  | listBatches parentOperationId => exact findSorted_insertionSort
  | listPending | listGated | listOpenBatches => exact ⟨_, .refl _, rfl⟩

def answer (β : Type) (q : Query β) (s : Database) : β :=
  match q with
  | .inl q => Accounts.answer β q s
  | .inr q => answerOperation β q s

def drawsFail : (β : Type) → Accounts.Draw β → Bool
  | _, .hashPassword _ => true
  | _, .startSession => true
  | _, _ => false

def player : Sessions.Player schema Accounts.Draw drawFails Choice where
  answer := answer
  answer_answers q s := by
    cases q with
    | inl q => exact Accounts.answer_answers q s
    | inr q => exact answerOperation_answers q s
  drawn := Accounts.performDraw
  drawsFail := drawsFail
  drawsFail_fails {β x} h := by
    cases x with
    | hashPassword | startSession => trivial
    | _ => cases h


section Schedules

/-- No aggregates: conflicts and repairs need none. -/
abbrev noAggregates (a : Empty) : Aggregate := a.elim

abbrev Run := Config ℕ (Call Empty) Op Store Response Event

/-- The next `n` calls of caller `i`, at that date; new documents are given that id. -/
def turns (n i : ℕ) (date : Date) (id : ObjectId) : List (Move ℕ (Call Empty) Choice) :=
  List.replicate n (.reply i ⟨date, id, ⟨false, ""⟩, 0⟩)

def firstId : ObjectId := ⟨"d00000000000000000000000", by decide⟩

def secondId : ObjectId := ⟨"e00000000000000000000000", by decide⟩

/-- A deployment without transactions; its keys are not hidden in what is made with them. -/
def deployment : Environment where
  trim := id
  toLowerCase := id
  localeCompare a b := if a = b then .eq else if a.toList < b.toList then .lt else .gt
  stringify text := "\"" ++ text ++ "\""
  fromBase64url := id
  decode := id
  hmac key message := key ++ "|" ++ message
  hkdf key salt info := key ++ "|" ++ salt ++ "|" ++ info
  verifyToken _ token :=
    if token = "token" then some {
      sub := Accounts.staffUserId.1, jti := "j0", roleArea := .staff, scope := "", authVersion := 0
      permissions := [.authIdentifiersManage] }
    else none
  keyMaterial version := if version = 1 then some "key" else none
  correlationKeyVersion := some 1
  repairKeyVersion := some 1
  transactionStrategy := .disabled
  maxAssignments := 20
  operationRetentionDays := 30
  leaseSeconds := 30
  batchSize := 10
  retentionDays := 30
  identifierMaxOperationAssignments := 1

def freeDriver : Driver (operations deployment noAggregates) (anyCall : Gate ℕ _ _ _ _) Choice :=
  player.driver _ (fun _ _ _ _ _ _ => true) fun _ => anyCall_pass

def conflictId : ObjectId := ⟨"c00000000000000000000000", by decide⟩

def firstMemberId : ObjectId := ⟨"a00000000000000000000001", by decide⟩

def secondMemberId : ObjectId := ⟨"a00000000000000000000002", by decide⟩

def claimant (id : ObjectId) (memberNumber : String) : Accounts.Member where
  id := id.1
  memberNumber := memberNumber
  fullName := "Olivia Overdue"
  email := none
  membershipTypeId := "t0"
  status := .active
  loginIdentifier := none
  passwordHash := some "p"
  authStatus := some .active
  authVersion := some 0
  phone := none
  activeLoanCount := 0
  passwordUpdatedAt := none
  createdBy := none
  updatedBy := none

/-- An identifier that two members claim, and an administrator. -/
def contested : Database :=
  { Accounts.Database.reserved [
      { Accounts.reservation conflictId.1 "olivia" .conflict (.member, firstMemberId.1) with
        conflictingSubjects := some [⟨.member, firstMemberId.1⟩, ⟨.member, secondMemberId.1⟩]
        conflictResolutionStatus := some .reviewable }] with
    members := [claimant firstMemberId "M-1004", claimant secondMemberId "M-1005"]
    staffUsers := [{
      id := Accounts.staffUserId.1, email := "ada@library.local", displayName := "Ada"
      passwordHash := "p", roles := [.admin], status := .active, authVersion := some 0
      passwordUpdatedAt := none, createdBy := none, updatedBy := none }] }

theorem contested_indexed : contested.Indexed := by decide

/-- Both members are given another identifier. -/
def repairRequest : OfflineRepairRequest where
  token := "token"
  operationId := "repair"
  manifest := {
    conflictId := conflictId.1
    retainedSubject := none
    reassignments := [⟨⟨.member, firstMemberId.1⟩, "olivia-1"⟩, ⟨⟨.member, secondMemberId.1⟩, "olivia-2"⟩] }
  resumeId := some "resume"

/-- The statuses of the operations that are stored. -/
def statuses (c : Run) : List AuthIdentifierOperationStatus :=
  c.store.committed.operations.map (·.status)

/-- The ids of the events that are stored, latest first. -/
def eventIds (c : Run) : List (Option String) := c.store.committed.activity.map (·.eventId)

/-- The first member keeps the identifier, the second is given another. -/
def resolution : ResolveAuthIdentifierConflictDto where
  operationId := "resolution"
  retainedSubject := some ⟨.member, firstMemberId.1⟩
  reassignments := [⟨⟨.member, secondMemberId.1⟩, "olivia-2"⟩]

def administrator : AuthIdentifierSubjectReference := ⟨.staff, Accounts.staffUserId.1⟩

/-- The like of `resolution`, as a repair. -/
def smallRepair : OfflineRepairRequest :=
  { repairRequest with manifest := {
      conflictId := conflictId.1
      retainedSubject := resolution.retainedSubject
      reassignments := resolution.reassignments } }

/-- The repair of the identifier is created. -/
def dryRuns : List (Move ℕ (Call Empty) Choice) :=
  .start 1 (.dryRun repairRequest) :: turns 8 1 1000 firstId

end Schedules

end Operations
