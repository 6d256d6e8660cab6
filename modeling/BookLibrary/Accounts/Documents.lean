import BookLibrary.Circulation.Documents
import BookLibrary.SignIn.Documents

/-!
# Accounts and their identifiers

The documents that the services of staff users and members read and write, as one
store of documents with its unique indexes.
-/

namespace Accounts

open AuthIdentifiers Documents SignIn

structure StaffUser extends SignIn.StaffUser where
  passwordUpdatedAt : Option Date
  createdBy : Option String
  updatedBy : Option String
  deriving DecidableEq

structure Member extends SignIn.Member where
  phone : Option String
  activeLoanCount : ℕ
  passwordUpdatedAt : Option Date
  createdBy : Option String
  updatedBy : Option String
  deriving DecidableEq

structure MembershipType where
  id : String
  status : Circulation.LibraryItemStatus
  deriving DecidableEq

inductive SecurityActivityEventType where
  | roleChanged | accountStatusChanged | identifierConflictResolved
  | identifierReservationRecovered | identifierRepairResumed | tokenRevoked
  deriving DecidableEq

inductive SecurityActivityActorType where
  | staff | member | system | unknown
  deriving DecidableEq

inductive SecurityActivityOutcome where
  | success | failure | denied
  deriving DecidableEq

inductive SecurityActivityContext where
  | none
  | roles (previousRoles roles : List StaffRole)
  | status (previousStatus status : StaffUserStatus)
  | operation (operationType : AuthIdentifierOperationType)
      (terminalStatus : AuthIdentifierOperationStatus)
  | resumed (originalActor resumingActor : Option AuthIdentifierSubjectReference)
  deriving DecidableEq

structure SecurityActivityEvent where
  id : String
  eventId : Option String
  eventType : SecurityActivityEventType
  actorType : SecurityActivityActorType
  actorId : Option String
  targetType : Option String
  targetId : Option String
  subjectType : Option AuthIdentifierSubjectType
  subjectId : Option String
  outcome : SecurityActivityOutcome
  reasonCategory : Option String
  operationId : Option String
  context : SecurityActivityContext
  deriving DecidableEq

/-- A field after a save: what was set since the document was loaded, else what is stored. -/
def sent {α : Type} [DecidableEq α] (loaded now stored : α) : α :=
  if now = loaded then stored else now

@[simp] theorem sent_self {α : Type} [DecidableEq α] (loaded stored : α) :
    sent loaded loaded stored = stored := if_pos rfl

@[simp] theorem sent_loaded {α : Type} [DecidableEq α] (loaded now : α) :
    sent loaded now loaded = now := by
  by_cases h : now = loaded
  · simp [h]
  · simp [sent, h]

/-- The stored document after a save of `now`, which was `loaded`. -/
def StaffUser.saved (loaded now stored : StaffUser) : StaffUser where
  id := stored.id
  email := sent loaded.email now.email stored.email
  displayName := sent loaded.displayName now.displayName stored.displayName
  passwordHash := sent loaded.passwordHash now.passwordHash stored.passwordHash
  roles := sent loaded.roles now.roles stored.roles
  status := sent loaded.status now.status stored.status
  authVersion := sent loaded.authVersion now.authVersion stored.authVersion
  passwordUpdatedAt := sent loaded.passwordUpdatedAt now.passwordUpdatedAt stored.passwordUpdatedAt
  createdBy := sent loaded.createdBy now.createdBy stored.createdBy
  updatedBy := sent loaded.updatedBy now.updatedBy stored.updatedBy

def Member.saved (loaded now stored : Member) : Member where
  id := stored.id
  memberNumber := sent loaded.memberNumber now.memberNumber stored.memberNumber
  fullName := sent loaded.fullName now.fullName stored.fullName
  email := sent loaded.email now.email stored.email
  membershipTypeId := sent loaded.membershipTypeId now.membershipTypeId stored.membershipTypeId
  status := sent loaded.status now.status stored.status
  loginIdentifier := sent loaded.loginIdentifier now.loginIdentifier stored.loginIdentifier
  passwordHash := sent loaded.passwordHash now.passwordHash stored.passwordHash
  authStatus := sent loaded.authStatus now.authStatus stored.authStatus
  authVersion := sent loaded.authVersion now.authVersion stored.authVersion
  phone := sent loaded.phone now.phone stored.phone
  activeLoanCount := sent loaded.activeLoanCount now.activeLoanCount stored.activeLoanCount
  passwordUpdatedAt := sent loaded.passwordUpdatedAt now.passwordUpdatedAt stored.passwordUpdatedAt
  createdBy := sent loaded.createdBy now.createdBy stored.createdBy
  updatedBy := sent loaded.updatedBy now.updatedBy stored.updatedBy

structure Database where
  staffUsers : List StaffUser
  members : List Member
  membershipTypes : List MembershipType
  identifiers : List AuthIdentifier
  operations : List AuthIdentifierOperation
  batches : List AuthIdentifierRepairBatch
  families : List TokenSession.RefreshTokenFamily
  activity : List SecurityActivityEvent
  deriving DecidableEq

/-- A document of one of the collections that the services write. -/
inductive Document where
  | staffUser (d : StaffUser)
  | member (d : Member)
  | identifier (d : AuthIdentifier)
  | operation (d : AuthIdentifierOperation)
  | batch (d : AuthIdentifierRepairBatch)
  | family (d : TokenSession.RefreshTokenFamily)
  | event (d : SecurityActivityEvent)
  deriving DecidableEq

inductive Key where
  | staffUser (id : String)
  | member (id : String)
  | identifier (id : String)
  | operation (id : String)
  | batch (id : String)
  | family (familyId : String)
  | event (id : String)
  deriving DecidableEq

def Document.key : Document → Key
  | .staffUser d => .staffUser d.id
  | .member d => .member d.id
  | .identifier d => .identifier d.id
  | .operation d => .operation d.id
  | .batch d => .batch d.id
  | .family d => .family d.familyId
  | .event d => .event d.id

namespace Database

def find : Key → Database → Option Document
  | .staffUser id, s => (s.staffUsers.find? fun d => decide (d.id = id)).map .staffUser
  | .member id, s => (s.members.find? fun d => decide (d.id = id)).map .member
  | .identifier id, s => (s.identifiers.find? fun d => decide (d.id = id)).map .identifier
  | .operation id, s => (s.operations.find? fun d => decide (d.id = id)).map .operation
  | .batch id, s => (s.batches.find? fun d => decide (d.id = id)).map .batch
  | .family id, s => (s.families.find? fun d => decide (d.familyId = id)).map .family
  | .event id, s => (s.activity.find? fun d => decide (d.id = id)).map .event

def put : Document → Database → Database
  | .staffUser d, s => { s with staffUsers := replaceOne (·.id) d s.staffUsers }
  | .member d, s => { s with members := replaceOne (·.id) d s.members }
  | .identifier d, s => { s with identifiers := replaceOne (·.id) d s.identifiers }
  | .operation d, s => { s with operations := replaceOne (·.id) d s.operations }
  | .batch d, s => { s with batches := replaceOne (·.id) d s.batches }
  | .family d, s => { s with families := replaceOne (·.familyId) d s.families }
  | .event d, s => { s with activity := replaceOne (·.id) d s.activity }

/-- The unique indexes of the collections. -/
structure Indexed (s : Database) : Prop where
  staffUsers : (s.staffUsers.map (·.id)).Nodup
  staffEmail : (s.staffUsers.map (·.email)).Nodup
  members : (s.members.map (·.id)).Nodup
  memberNumber : (s.members.map (·.memberNumber)).Nodup
  memberEmail : Unique (fun d : Member => d.email) s.members
  loginIdentifier : Unique (fun d : Member => d.loginIdentifier) s.members
  identifiers : (s.identifiers.map (·.id)).Nodup
  normalizedIdentifier : (s.identifiers.map (·.normalizedIdentifier)).Nodup
  operations : (s.operations.map (·.id)).Nodup
  operationId : (s.operations.map (·.operationId)).Nodup
  terminalEvent : Unique (fun d : AuthIdentifierOperation => d.terminalEventId) s.operations
  batches : (s.batches.map (·.id)).Nodup
  checkpoint : (s.batches.map fun d => (d.parentOperationId, d.batchNumber)).Nodup
  families : (s.families.map (·.familyId)).Nodup
  activity : (s.activity.map (·.id)).Nodup
  eventId : Unique (fun d : SecurityActivityEvent => d.eventId) s.activity

instance (s : Database) : Decidable s.Indexed :=
  decidable_of_iff
    ((((s.staffUsers.map (·.id)).Nodup ∧ (s.staffUsers.map (·.email)).Nodup) ∧
      ((s.members.map (·.id)).Nodup ∧ (s.members.map (·.memberNumber)).Nodup ∧
        Unique (fun d : Member => d.email) s.members ∧
        Unique (fun d : Member => d.loginIdentifier) s.members)) ∧
      ((s.identifiers.map (·.id)).Nodup ∧ (s.identifiers.map (·.normalizedIdentifier)).Nodup) ∧
      ((s.operations.map (·.id)).Nodup ∧ (s.operations.map (·.operationId)).Nodup ∧
        Unique (fun d : AuthIdentifierOperation => d.terminalEventId) s.operations) ∧
      ((s.batches.map (·.id)).Nodup ∧
        (s.batches.map fun d => (d.parentOperationId, d.batchNumber)).Nodup) ∧
      (s.families.map (·.familyId)).Nodup ∧
      ((s.activity.map (·.id)).Nodup ∧
        Unique (fun d : SecurityActivityEvent => d.eventId) s.activity))
    ⟨fun ⟨⟨⟨h₁, h₂⟩, h₃, h₄, h₅, h₆⟩, ⟨h₇, h₈⟩, ⟨h₉, h₁₀, h₁₁⟩, ⟨h₁₂, h₁₃⟩, h₁₄, h₁₅, h₁₆⟩ =>
        ⟨h₁, h₂, h₃, h₄, h₅, h₆, h₇, h₈, h₉, h₁₀, h₁₁, h₁₂, h₁₃, h₁₄, h₁₅, h₁₆⟩,
      fun ⟨h₁, h₂, h₃, h₄, h₅, h₆, h₇, h₈, h₉, h₁₀, h₁₁, h₁₂, h₁₃, h₁₄, h₁₅, h₁₆⟩ =>
        ⟨⟨⟨h₁, h₂⟩, h₃, h₄, h₅, h₆⟩, ⟨h₇, h₈⟩, ⟨h₉, h₁₀, h₁₁⟩, ⟨h₁₂, h₁₃⟩, h₁₄, h₁₅, h₁₆⟩⟩

end Database

end Accounts
