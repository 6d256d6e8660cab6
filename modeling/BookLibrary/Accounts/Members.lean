import BookLibrary.Accounts.Service

/-!
# The member service

`MembersService` as programs: a member as it is loaded, the edited fields, the save, and
the reservations of the identifiers that change.
-/

namespace Accounts

open AuthIdentifiers Documents Interleaving SignIn

structure CreateMemberDto where
  memberNumber : String
  fullName : String
  email : Option String
  phone : Option String
  membershipTypeId : String
  activeLoanCount : Option ℕ
  deriving DecidableEq

structure UpdateMemberDto where
  fullName : Option String
  email : Option String
  phone : Option String
  membershipTypeId : Option String
  status : Option MemberStatus
  activeLoanCount : Option ℕ
  deriving DecidableEq

structure MemberResponseDto where
  id : String
  memberNumber : String
  fullName : String
  email : Option String
  phone : Option String
  membershipTypeId : String
  status : MemberStatus
  activeLoanCount : ℕ
  deriving DecidableEq

namespace MembersService

variable (env : Environment)

def toResponse (member : Member) : MemberResponseDto where
  id := member.id
  memberNumber := member.memberNumber
  fullName := member.fullName
  email := member.email
  phone := member.phone
  membershipTypeId := member.membershipTypeId
  status := member.status
  activeLoanCount := member.activeLoanCount

def normalizeLoginIdentifier (loginIdentifier : String) : String :=
  env.toLowerCase (env.trim loginIdentifier)

def findDocumentById (id : String) : Handler Member := do
  let id ← toMongoObjectId id "id"
  match ← find none (.findMember id) with
  | some member => return member
  | none => throw (.notFound "Member not found")

/-- `membershipTypesService.validateActivePolicy` -/
def validateActivePolicy (id : String) : Handler Unit := do
  let id ← toMongoObjectId id "id"
  match ← find none (.findMembershipType id) with
  | none => throw (.notFound "Membership type not found")
  | some membershipType =>
    if membershipType.status = .active then return
    else throw (.conflict "Membership type is not active")

/-- `member.save()`; the argument is the member as it was loaded and as it is now. -/
def save (loaded now : Member) : Handler Member := do
  match ← write none (.saveMember loaded now) with
  | .written _ => return now
  | .unmatched => throw .documentNotFound
  | .duplicateKey => raiseDuplicateKey

def reserveIdentifier (normalizedIdentifier : String) (identifierType : AuthIdentifierType)
    (subjectId : String) (actorId : Option String) : Handler Unit :=
  reserve none normalizedIdentifier (some identifierType) identifierType .member subjectId actorId

def releaseIdentifier (normalizedIdentifier subjectId : String) (actorId : Option String) :
    Handler Unit :=
  release none normalizedIdentifier .member subjectId actorId

def recordMemberChange (member : Member) (actor : Option AuditActor)
    (identifierChanged statusChanged : Bool) : Handler Unit := do
  let common (eventType : SecurityActivityEventType) (reasonCategory id : String) :
      SecurityActivityEvent :=
    { id := id
      eventId := none
      eventType := eventType
      actorType := if actor.isSome then .staff else .system
      actorId := actor.map (·.id)
      targetType := some "member"
      targetId := some member.id
      subjectType := some .member
      subjectId := some member.id
      outcome := .success
      reasonCategory := some reasonCategory
      operationId := none
      context := .none }
  if identifierChanged then
    recordActivity (common .identifierReservationRecovered "member-identifier-updated")
  if statusChanged then
    recordActivity (common .accountStatusChanged "member-status-updated")

def create (dto : CreateMemberDto) (actor : Option AuditActor) : Handler MemberResponseDto := do
  validateActivePolicy dto.membershipTypeId
  let memberNumber := env.toUpperCase (env.trim dto.memberNumber)
  if ← find none (.memberNumberExists memberNumber) then
    throw (.conflict "Member number already exists")
  else do
    let id ← draw .newObjectId
    let member : Member :=
      { id := id.1
        memberNumber := memberNumber
        fullName := dto.fullName
        email := dto.email.map env.toLowerCase
        phone := dto.phone
        membershipTypeId := dto.membershipTypeId
        status := .active
        activeLoanCount := dto.activeLoanCount.getD 0
        loginIdentifier := none
        passwordHash := none
        passwordUpdatedAt := none
        authStatus := some .active
        authVersion := some 0
        createdBy := actor.map (·.id)
        updatedBy := actor.map (·.id) }
    match ← write none (.insertMember member) with
    | .duplicateKey => raiseDuplicateKey
    | _ => return toResponse member

section Update

variable (dto : UpdateMemberDto) (actor : Option AuditActor) (member : Member)

def nextEmail : Option String := dto.email.map fun email => env.toLowerCase (env.trim email)

def emailChanged : Bool :=
  decide (nextEmail env dto ≠ none) && decide (nextEmail env dto ≠ member.email)

def statusChanged : Bool := decide (dto.status ≠ none) && decide (dto.status ≠ some member.status)

/-- The edits of `update`, in its order. -/
def applyUpdates : Member :=
  { member with
    membershipTypeId := dto.membershipTypeId.getD member.membershipTypeId
    fullName := dto.fullName.getD member.fullName
    email := (nextEmail env dto).orElse fun _ => member.email
    phone := dto.phone.orElse fun _ => member.phone
    status := dto.status.getD member.status
    authVersion :=
      let authVersion :=
        if statusChanged dto member then incremented member.authVersion else member.authVersion
      if emailChanged env dto member then incremented authVersion else authVersion
    activeLoanCount := dto.activeLoanCount.getD member.activeLoanCount
    updatedBy := actor.map (·.id) }

/-- `identifier && …`: an identifier that is missing or empty is left alone. -/
def forIdentifier (identifier : Option String) (f : String → Handler Unit) : Handler Unit :=
  match identifier with
  | some identifier => if identifier = "" then return else f identifier
  | none => return

/-- What follows the edits, in the `try` of `update`. -/
def persist : Handler MemberResponseDto := do
  let actorId := actor.map (·.id)
  let now := applyUpdates env dto actor member
  let saved ← save member now
  if emailChanged env dto member then
    forIdentifier member.email fun previousEmail =>
      releaseIdentifier previousEmail member.id actorId
  if emailChanged env dto member || statusChanged dto member then
    revokeSessions .member member.id "member-account-updated"
  recordMemberChange now actor (emailChanged env dto member) (statusChanged dto member)
  return toResponse saved

def update (id : String) : Handler MemberResponseDto := do
  let member ← findDocumentById id
  let actorId := actor.map (·.id)
  if emailChanged env dto member then
    forIdentifier (nextEmail env dto) fun nextEmail =>
      reserveIdentifier nextEmail .email member.id actorId
  match dto.membershipTypeId with
  | some membershipTypeId => validateActivePolicy membershipTypeId
  | none => pure ()
  tryCatch (persist env dto actor member) fun error => do
    if emailChanged env dto member then
      forIdentifier (nextEmail env dto) fun nextEmail =>
        releaseIdentifier nextEmail member.id actorId
    throw error

end Update

section Credentials

variable (actor : Option AuditActor) (member : Member)

/-- What follows the edits, in the `try` of `setMemberCredentials`. -/
def persistCredentials (now : Member) (normalizedLoginIdentifier : String) :
    Handler MemberResponseDto := do
  let actorId := actor.map (·.id)
  let saved ← save member now
  if member.loginIdentifier ≠ some normalizedLoginIdentifier then
    forIdentifier member.loginIdentifier fun previousLoginIdentifier =>
      releaseIdentifier previousLoginIdentifier member.id actorId
  revokeSessions .member member.id "member-credentials-updated"
  recordMemberChange now actor true false
  return toResponse saved

def setMemberCredentials (id loginIdentifier password : String) : Handler MemberResponseDto := do
  let member ← findDocumentById id
  let actorId := actor.map (·.id)
  let normalizedLoginIdentifier := normalizeLoginIdentifier env loginIdentifier
  if ← find none (.loginIdentifierExists member.id normalizedLoginIdentifier) then
    throw (.conflict "Member login identifier already exists")
  else do
    reserveIdentifier normalizedLoginIdentifier .loginIdentifier member.id actorId
    let passwordHash ← draw (.hashPassword password)
    let passwordUpdatedAt ← draw .currentDate
    let now : Member :=
      { member with
        loginIdentifier := some normalizedLoginIdentifier
        passwordHash := some passwordHash
        passwordUpdatedAt := some passwordUpdatedAt
        authStatus := some .active
        authVersion := incremented member.authVersion
        updatedBy := actorId }
    tryCatch (persistCredentials actor member now normalizedLoginIdentifier) fun error => do
      releaseIdentifier normalizedLoginIdentifier member.id actorId
      throw error

end Credentials

def findActiveById (id : String) : Handler Member := do
  let member ← findDocumentById id
  if member.status = .active ∧ member.authStatus = some .active then return member
  else throw (.notFound "Active member not found")

def bumpAuthVersion (id : String) : Handler Unit := do
  let id ← toMongoObjectId id "id"
  match ← write none (.bumpAuthVersion .member id) with
  | .unmatched => throw (.notFound "Member not found")
  | _ => return

end MembersService

end Accounts
