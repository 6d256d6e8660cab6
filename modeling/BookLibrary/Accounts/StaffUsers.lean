import BookLibrary.Accounts.Service

/-!
# The staff user service

`StaffUsersService` as programs. A change of the e-mail address runs in a transaction
where the deployment has them, and as single calls where it has not. The object in memory
is the same in every run of the transaction's callback.
-/

namespace Accounts

open AuthIdentifiers Documents Interleaving SignIn

structure CreateStaffUserDto where
  email : String
  displayName : String
  password : String
  roles : List StaffRole
  deriving DecidableEq

structure UpdateStaffUserDto where
  email : Option String
  displayName : Option String
  roles : Option (List StaffRole)
  status : Option StaffUserStatus
  deriving DecidableEq

structure StaffUserResponseDto where
  id : String
  email : String
  displayName : String
  roles : List StaffRole
  permissions : List AuthPermission
  status : StaffUserStatus
  deriving DecidableEq

/-- `pattern.test(text)` for a pattern of lower-case letters and blanks, ignoring case. -/
def containsIgnoringCase (pattern text : String) : Bool :=
  (text.toList.map Char.toLower).tails.any fun rest => pattern.toList.isPrefixOf rest

def Failure.message : Failure → String
  | .badRequest message => message
  | .notFound message => message
  | .conflict message => message
  | .unprocessable message => message
  | .validation path => "AuthIdentifier validation failed: " ++ path ++ ": Path `" ++ path ++
      "` is required."
  | .documentNotFound => "No document found for query on model \"StaffUser\""
  | .duplicateKey error => error.message
  | .thrown error => error.message

/-- The error label that makes the driver run a callback again. -/
def Failure.isTransient : Failure → Bool
  | .thrown error => error.transient
  | _ => false

namespace StaffUsersService

/-- Programs that work on the staff user in memory. -/
abbrev Working := Keeping Op (Hydrated StaffUser) Failure

variable (env : Environment)

def toResponse (user : StaffUser) : StaffUserResponseDto where
  id := user.id
  email := user.email
  displayName := user.displayName
  roles := user.roles
  permissions := permissionsForStaffRoles user.roles
  status := user.status

def normalizeEmail (email : String) : String := env.toLowerCase (env.trim email)

/-- `Array.from(new Set(roles))`, unless it is empty. -/
def validateRoles (roles : List StaffRole) : Handler (List StaffRole) :=
  if roles.eraseDups.isEmpty then throw (.unprocessable "Only approved staff roles are allowed")
  else return roles.eraseDups

/-- The order of the roles as texts. -/
def precedes : StaffRole → StaffRole → Bool
  | .admin, _ => true
  | .staff, .staff => true
  | .staff, .admin => false

def sameRoles (left right : List StaffRole) : Bool :=
  decide (left.mergeSort precedes = right.mergeSort precedes)

def identifierError : Failure → Failure
  | .conflict _ => .conflict "Sign-in identifier is already reserved"
  | .duplicateKey _ => .conflict "Sign-in identifier is already reserved"
  | error => error

/-- `/transaction|replica set|mongos/i` -/
def isTransactionUnavailable (error : Failure) : Bool :=
  containsIgnoringCase "transaction" error.message ||
    containsIgnoringCase "replica set" error.message ||
    containsIgnoringCase "mongos" error.message

def findDocumentById (id : String) : Handler StaffUser := do
  let id ← toMongoObjectId id "id"
  match ← find none (.findStaffUser id) with
  | some user => return user
  | none => throw (.notFound "Staff user not found")

/-- A claim leaves the type of a released reservation as it is. -/
def reserveIdentifier (normalizedIdentifier subjectId : String) (actorId : Option String)
    (session : Option ℕ) : Handler Unit :=
  reserve session normalizedIdentifier none .email .staff subjectId actorId

def releaseIdentifier (normalizedIdentifier subjectId : String) (actorId : Option String)
    (session : Option ℕ) : Handler Unit :=
  release session normalizedIdentifier .staff subjectId actorId

/-- `user.save()`: all of a new document, of another what has changed since its last save. -/
def save (session : Option ℕ) : Working Unit := do
  let user ← get
  match ← write session
      (if user.isNew then .insertStaffUser user.now else .saveStaffUser user.loaded user.now) with
  | .written _ => set ({ loaded := user.now, now := user.now, isNew := false } : Hydrated StaffUser)
  | .unmatched => throw .documentNotFound
  | .duplicateKey => raiseDuplicateKey (α := Unit)

/-- `startSession().catch(() => undefined)` -/
def startSession : Handler Bool :=
  tryCatch (do
    draw .startSession
    return true) fun _ => return false

/-- `session.withTransaction(callback)`, run again at most `retries` times: the driver
does so after an error that it labels as transient. Its own repetitions of a commit
belong to that call. -/
def withTransaction (callback : ℕ → Working Unit) : (retries : ℕ) → Working Unit
  | 0 => attempt callback
  | retries + 1 => tryCatch (attempt callback) fun error =>
    if error.isTransient then withTransaction callback retries else throw error
where
  /-- One run of the callback, which is rolled back unless it is committed. -/
  attempt (callback : ℕ → Working Unit) : Working Unit := do
    let session ← change .startTransaction
    tryCatch (do
      callback session
      change (.commitTransaction session)) fun error => do
        change (.abortTransaction session)
        throw error

/-- A change in a transaction, or without one where transactions are unavailable. -/
def persistWithIdentifier (transactional : ℕ → Working Unit) (fallback : Working Unit) :
    Working Unit := do
  if ← startSession then
    let completed ← tryCatch (do
      let retries ← draw .retries
      withTransaction transactional retries
      return true) fun error =>
        if isTransactionUnavailable error then return false else throw (identifierError error)
    if completed then return else fallback
  else fallback

section Create

variable (email subjectId : String) (actorId : Option String)

def createWithIdentifier (session : ℕ) : Working Unit := do
  reserveIdentifier email subjectId actorId (some session)
  save (some session)

def createWithoutTransaction : Working Unit := do
  reserveIdentifier email subjectId actorId none
  tryCatch (save none) fun error => do
    releaseIdentifier email subjectId actorId none
    throw error

def persistCreateWithIdentifier : Working Unit :=
  persistWithIdentifier (createWithIdentifier email subjectId actorId)
    (createWithoutTransaction email subjectId actorId)

end Create

def create (dto : CreateStaffUserDto) (actor : Option AuditActor) :
    Handler StaffUserResponseDto := do
  let email := normalizeEmail env dto.email
  let roles ← validateRoles dto.roles
  if ← find none (.staffEmailExists email) then
    throw (.conflict "Staff user email already exists")
  else do
    let passwordHash ← draw (.hashPassword dto.password)
    let subjectId ← draw .newObjectId
    let passwordUpdatedAt ← draw .currentDate
    let actorId := actor.map (·.id)
    let document : StaffUser :=
      { id := subjectId.1
        email := email
        displayName := dto.displayName
        passwordHash := passwordHash
        roles := roles
        status := .active
        authVersion := some 0
        passwordUpdatedAt := some passwordUpdatedAt
        createdBy := actorId
        updatedBy := actorId }
    let created ← Keeping.keep ⟨document, document, true⟩
      (persistCreateWithIdentifier email subjectId.1 actorId)
    return toResponse created.now

section Update

variable (dto : UpdateStaffUserDto) (actor : Option AuditActor) (user : StaffUser)
  (nextRoles : List StaffRole)

def nextEmail : String := (dto.email.map (normalizeEmail env)).getD user.email

def emailChanged : Bool := decide (nextEmail env dto user ≠ user.email)

def rolesChanged : Bool := !sameRoles user.roles nextRoles

def statusChanged : Bool := decide (dto.status ≠ none) && decide (dto.status ≠ some user.status)

/-- The update is one that outdates the tokens of the account. -/
def securityChanged : Bool :=
  rolesChanged user nextRoles || statusChanged dto user || emailChanged env dto user

/-- The closure `applyUpdates`, which edits the user in memory as it is by then. -/
def applyUpdates (memory : Hydrated StaffUser) : Hydrated StaffUser :=
  { memory with
    now := { memory.now with
      email := nextEmail env dto user
      roles := nextRoles
      displayName := dto.displayName.getD memory.now.displayName
      status := dto.status.getD memory.now.status
      authVersion :=
        if securityChanged env dto user nextRoles then incremented memory.now.authVersion
        else memory.now.authVersion
      updatedBy := actor.map (·.id) } }

def changeWithIdentifier (session : ℕ) : Working Unit := do
  let actorId := actor.map (·.id)
  reserveIdentifier (nextEmail env dto user) user.id actorId (some session)
  modify (applyUpdates env dto actor user nextRoles)
  save (some session)
  releaseIdentifier user.email user.id actorId (some session)

def changeWithoutTransaction : Working Unit := do
  let actorId := actor.map (·.id)
  reserveIdentifier (nextEmail env dto user) user.id actorId none
  tryCatch (do
    modify (applyUpdates env dto actor user nextRoles)
    save none
    releaseIdentifier user.email user.id actorId none) fun error => do
      releaseIdentifier (nextEmail env dto user) user.id actorId none
      throw error

def persistIdentifierChange : Working Unit :=
  persistWithIdentifier (changeWithIdentifier env dto actor user nextRoles)
    (changeWithoutTransaction env dto actor user nextRoles)

def recordChanges (now : StaffUser) : Handler Unit := do
  let event (eventType : SecurityActivityEventType) (reasonCategory : String)
      (context : SecurityActivityContext) (id : String) : SecurityActivityEvent :=
    { id := id
      eventId := none
      eventType := eventType
      actorType := if actor.isSome then .staff else .system
      actorId := actor.map (·.id)
      targetType := some "staff-user"
      targetId := some now.id
      subjectType := some .staff
      subjectId := some now.id
      outcome := .success
      reasonCategory := some reasonCategory
      operationId := none
      context := context }
  if rolesChanged user nextRoles then
    recordActivity (event .roleChanged "staff-roles-updated" (.roles user.roles now.roles))
  if statusChanged dto user then
    recordActivity (event .accountStatusChanged "staff-status-updated" (.status user.status now.status))

end Update

def update (dto : UpdateStaffUserDto) (actor : Option AuditActor) (id : String) :
    Handler StaffUserResponseDto := do
  let user ← findDocumentById id
  let nextRoles ← match dto.roles with
    | some roles => validateRoles roles
    | none => pure user.roles
  let saved ← Keeping.keep ⟨user, user, false⟩
    (if emailChanged env dto user then persistIdentifierChange env dto actor user nextRoles
    else do
      modify (applyUpdates env dto actor user nextRoles)
      save none)
  if securityChanged env dto user nextRoles then
    revokeSessions .staff user.id "staff-account-updated"
  recordChanges dto actor user nextRoles saved.now
  return toResponse saved.now

def findActiveById (id : String) : Handler StaffUser := do
  let user ← findDocumentById id
  if user.status = .active then return user
  else throw (.notFound "Active staff user not found")

def bumpAuthVersion (id : String) : Handler Unit := do
  let id ← toMongoObjectId id "id"
  let _ ← write none (.bumpAuthVersion .staff id)

end StaffUsersService

end Accounts
