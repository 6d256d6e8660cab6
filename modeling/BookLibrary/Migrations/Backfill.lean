import BookLibrary.AuthIdentifiers.Documents
import BookLibrary.Documents.Maps
import BookLibrary.Interleaving.Crashes

/-!
# The backfill of the reservations

`backfillAuthIdentifiers` of the migration 003 reserves every identifier that accounts of
before the reservations carry: for the account that carries it, or as a conflict of all that do.
-/

namespace Migrations

open AuthIdentifiers Documents Interleaving

/-- An account of before. A field that is not a string is `none`. -/
structure LegacyAccountDocument where
  id : String
  email : Option String
  loginIdentifier : Option String
  memberNumber : Option String
  deriving DecidableEq

structure IdentifierCandidate where
  normalizedIdentifier : String
  identifierType : AuthIdentifierType
  subject : AuthIdentifierSubjectReference
  deriving DecidableEq

structure SecurityActivityEvent where
  eventId : Option String
  eventType : String
  actorType : String
  targetType : Option String
  targetId : Option String
  outcome : String
  reasonCategory : Option String
  createdAt : Date
  deriving DecidableEq

/-- What the migration takes from outside: the string methods and the orders of the host
language, and the number that `AUTH_IDENTIFIER_MAX_OPERATION_ASSIGNMENTS` is parsed to. -/
structure Environment where
  trim : String → String
  toLowerCase : String → String
  localeCompare : String → String → Ordering
  precedes : String → String → Bool
  configured : Option ℤ

structure Database where
  staffusers : List LegacyAccountDocument
  members : List LegacyAccountDocument
  authIdentifiers : List AuthIdentifier
  securityActivityEvents : List SecurityActivityEvent
  deriving DecidableEq

/-- The unique indexes, which the migration has created before. -/
structure Database.Indexed (s : Database) : Prop where
  id : (s.authIdentifiers.map (·.id)).Nodup
  normalizedIdentifier : (s.authIdentifiers.map (·.normalizedIdentifier)).Nodup
  eventId : Unique (·.eventId) s.securityActivityEvents

def MIGRATION_ACTOR : String := "migration:003-auth-roles-permissions"

def DEFAULT_MAX_ASSIGNMENTS : ℕ := 20

section Groups

variable (env : Environment)

def normalizeIdentifier (value : Option String) : Option String :=
  match value with
  | none => none
  | some value =>
    let normalized := env.toLowerCase (env.trim value)
    if normalized = "" then none else some normalized

def configuredMaxAssignments : ℕ :=
  match env.configured with
  | some configured =>
    if 2 ≤ configured ∧ configured ≤ 100 then configured.toNat else DEFAULT_MAX_ASSIGNMENTS
  | none => DEFAULT_MAX_ASSIGNMENTS

/-- The candidates of each identifier, one for each subject, in the order in which they came. -/
abbrev Groups := List (String × List IdentifierCandidate)

def addCandidate (groups : Groups) (value : Option String) (identifierType : AuthIdentifierType)
    (subjectType : AuthIdentifierSubjectType) (subjectId : String) : Groups :=
  match normalizeIdentifier env value with
  | none => groups
  | some normalizedIdentifier =>
    let candidate : IdentifierCandidate :=
      ⟨normalizedIdentifier, identifierType, ⟨subjectType, subjectId⟩⟩
    let subjects := (getEntry normalizedIdentifier groups).getD []
    setEntry normalizedIdentifier
      (if subjects.any fun c => decide (c.subject = candidate.subject) then subjects
        else subjects ++ [candidate]) groups

def addStaff (groups : Groups) (staff : LegacyAccountDocument) : Groups :=
  addCandidate env groups staff.email .email .staff staff.id

def addMember (groups : Groups) (member : LegacyAccountDocument) : Groups :=
  addCandidate env
    (addCandidate env groups member.loginIdentifier .loginIdentifier .member member.id)
    member.memberNumber .memberNumber .member member.id

def candidateGroups (staffDocuments memberDocuments : List LegacyAccountDocument) : Groups :=
  memberDocuments.foldl (addMember env) (staffDocuments.foldl (addStaff env) [])

end Groups

section Documents

variable (env : Environment)

def subjectKey (subject : AuthIdentifierSubjectReference) : String :=
  match subject.subjectType with
  | .staff => "staff:" ++ subject.subjectId
  | .member => "member:" ++ subject.subjectId

def sortCandidates (candidates : List IdentifierCandidate) : List IdentifierCandidate :=
  candidates.insertionSort fun left right =>
    env.localeCompare (subjectKey left.subject) (subjectKey right.subject) ≠ .gt

def conflictResolutionStatus (candidates : List IdentifierCandidate) :
    AuthIdentifierConflictResolutionStatus :=
  if configuredMaxAssignments env < candidates.length then .manualRepairRequired else .reviewable

/-- The reservation of an identifier with those candidates, the first of them given apart. -/
def migrationDocument (identifierId normalizedIdentifier : String) (migrationStartedAt : Date)
    (primaryCandidate : IdentifierCandidate) (candidates : List IdentifierCandidate) :
    AuthIdentifier :=
  let isConflict := 1 < candidates.length
  { id := identifierId
    normalizedIdentifier := normalizedIdentifier
    identifierType := primaryCandidate.identifierType
    subjectType := if isConflict then none else some primaryCandidate.subject.subjectType
    subjectId := if isConflict then none else some primaryCandidate.subject.subjectId
    status := if isConflict then .conflict else .active
    conflictingSubjects := if isConflict then some (candidates.map (·.subject)) else none
    conflictResolutionStatus :=
      if isConflict then some (conflictResolutionStatus env candidates) else none
    pendingOperationId := none
    activationGateOperationId := none
    lastOperationId := none
    pendingAction := none
    releasedAt := none
    createdBy := MIGRATION_ACTOR
    updatedBy := MIGRATION_ACTOR
    updatedAt := migrationStartedAt }

def conflictEventId (identifierId : String) : String :=
  "migration-003-identifier-conflict:" ++ identifierId

def conflictEvent (identifierId : String) (status : AuthIdentifierConflictResolutionStatus)
    (migrationStartedAt : Date) : SecurityActivityEvent where
  eventId := some (conflictEventId identifierId)
  eventType := "identifier-conflict-detected"
  actorType := "system"
  targetType := some "auth-identifier"
  targetId := some identifierId
  outcome := "denied"
  reasonCategory := some (match status with
    | .manualRepairRequired => "legacy-identifier-conflict-oversized"
    | .reviewable => "legacy-identifier-conflict")
  createdAt := migrationStartedAt

end Documents

/-- The calls of the backfill. The two updates insert where their filter finds nothing, and
change nothing where it does. -/
inductive Op : Type → Type where
  | findStaffUsers : Op (List LegacyAccountDocument)
  | findMembers : Op (List LegacyAccountDocument)
  | findAuthIdentifiers : Op (List AuthIdentifier)
  | newObjectId : Op String
  | upsertIdentifier (d : AuthIdentifier) : Op Unit
  | upsertEvent (e : SecurityActivityEvent) : Op Unit

namespace Database

/-- Object ids are new: no reservation has it, and no event is about one that had it. -/
def Fresh (s : Database) (id : String) : Prop :=
  (∀ d ∈ s.authIdentifiers, d.id ≠ id) ∧
    ∀ e ∈ s.securityActivityEvents, e.eventId ≠ some (conflictEventId id)

def upsertIdentifier (d : AuthIdentifier) (s : Database) : Database :=
  if s.authIdentifiers.any fun d' => decide (d'.normalizedIdentifier = d.normalizedIdentifier) then s
  else { s with authIdentifiers := d :: s.authIdentifiers }

def upsertEvent (e : SecurityActivityEvent) (s : Database) : Database :=
  if s.securityActivityEvents.any fun e' => decide (e'.eventId = e.eventId) then s
  else { s with securityActivityEvents := e :: s.securityActivityEvents }

end Database

def sortById (docs : List LegacyAccountDocument) : List LegacyAccountDocument :=
  docs.insertionSort (·.id ≤ ·.id)

def exec : (β : Type) → Op β → Database → β → Database → Prop
  | _, .findStaffUsers, s, r, s' => r = sortById s.staffusers ∧ s' = s
  | _, .findMembers, s, r, s' => r = sortById s.members ∧ s' = s
  | _, .findAuthIdentifiers, s, r, s' =>
    r = s.authIdentifiers.insertionSort (·.normalizedIdentifier ≤ ·.normalizedIdentifier) ∧ s' = s
  | _, .newObjectId, s, r, s' => s.Fresh r ∧ s' = s
  | _, .upsertIdentifier d, s, _, s' =>
    (s.upsertIdentifier d).Indexed ∧ s' = s.upsertIdentifier d
  | _, .upsertEvent e, s, _, s' => s' = s.upsertEvent e

/-- Every call to the database may throw. -/
def fallible : (β : Type) → Op β → Prop
  | _, .newObjectId => False
  | _, _ => True

inductive Failure where
  | thrown
  deriving DecidableEq

abbrev Handler := Action Op Failure

def call {β : Type} (op : Op β) : Handler β := Action.perform .thrown op

variable (env : Environment)

/-- One round of the loop. -/
def backfillIdentifier (groups : Groups) (existingIdentifiers : List AuthIdentifier)
    (migrationStartedAt : Date) (normalizedIdentifier : String) : Handler Unit := do
  let candidates := sortCandidates env ((getEntry normalizedIdentifier groups).getD [])
  let existing := existingIdentifiers.find? fun d =>
    decide (d.normalizedIdentifier = normalizedIdentifier)
  let identifierId ← match existing with
    | some existing => pure existing.id
    | none => call .newObjectId
  match candidates with
  | [] => throw .thrown
  | primaryCandidate :: _ => do
    call (.upsertIdentifier (migrationDocument env identifierId normalizedIdentifier
      migrationStartedAt primaryCandidate candidates))
    if 1 < candidates.length then
      call (.upsertEvent (conflictEvent identifierId (conflictResolutionStatus env candidates)
        migrationStartedAt))

def backfillAuthIdentifiers (migrationStartedAt : Date) : Handler Unit := do
  let staffDocuments ← call .findStaffUsers
  let memberDocuments ← call .findMembers
  let existingIdentifiers ← call .findAuthIdentifiers
  let groups := candidateGroups env staffDocuments memberDocuments
  ((groups.map (·.1)).insertionSort (env.precedes · · = true)).forM
    (backfillIdentifier env groups existingIdentifiers migrationStartedAt)

end Migrations
