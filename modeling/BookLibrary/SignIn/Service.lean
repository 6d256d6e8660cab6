import BookLibrary.SignIn.Guard

/-!
# Shared sign-in

`AuthService.createSharedSession` and the three sign-in handlers of the controller,
behind their guard and the validation of the body.
-/

namespace SignIn

open AuthIdentifiers AuthThrottle Documents Interleaving

structure SharedLoginDto where
  identifier : Option String
  password : Option String

inductive Profile where
  | staff (id email displayName : String) (roles : List StaffRole)
      (permissions : List AuthPermission)
  | member (id memberNumber displayName : String) (email : Option String)
      (membershipStatus : MemberStatus) (membershipTypeId membershipTypeCode : String)
      (membershipTypeName : String)
  deriving DecidableEq

structure SharedLoginResponse where
  accessToken : String
  expiresIn : ℕ
  scope : String
  permissions : List AuthPermission
  profile : Profile
  deriving DecidableEq

structure SharedAuthSessionResult where
  response : SharedLoginResponse
  refreshToken : String
  refreshExpiresAt : Date
  deriving DecidableEq

/-- What sign-in uses of an active reservation. -/
structure ActiveReservation where
  subjectType : AuthIdentifierSubjectType
  subjectId : String
  activationGateOperationId : Option String

structure StaffAuth where
  user : StaffUser
  permissions : List AuthPermission
  authVersion : ℕ

structure MemberAuth where
  member : Member
  permissions : List AuthPermission
  authVersion : ℕ

section Validation

variable (env : Environment)

def Field.string? : Field → Option String
  | .text value => some value
  | _ => none

/-- `@IsOptional() @IsString()` -/
def Field.isOptionalString : Field → Bool
  | .other => false
  | _ => true

/-- The validation pipe, which forbids properties that the route's body does not have. -/
def validate (route : AuthRoute) (body : Option Body) : Option SharedLoginDto :=
  match body with
  | none => none
  | some body =>
    if body.extra then none
    else match route with
    | .login =>
      if body.email = .undefined ∧ body.loginIdentifier = .undefined ∧
          body.identifier.isOptionalString = true ∧ body.password.isOptionalString = true then
        some ⟨body.identifier.string?, body.password.string?⟩
      else none
    | .staffLogin =>
      match body.email, body.password with
      | .text email, .text password =>
        if body.identifier = .undefined ∧ body.loginIdentifier = .undefined ∧
            env.isEmail email = true then
          some ⟨some email, some password⟩
        else none
      | _, _ => none
    | .memberLogin =>
      match body.loginIdentifier, body.password with
      | .text loginIdentifier, .text password =>
        if body.identifier = .undefined ∧ body.email = .undefined ∧ 8 ≤ password.length then
          some ⟨some loginIdentifier, some password⟩
        else none
      | _, _ => none
    | .refresh => none

end Validation

section AuthService

variable (env : Environment)

def normalizeSharedIdentifier (value : Option String) : String :=
  match value with
  | some value => env.toLowerCase (env.trim value)
  | none => ""

def recordFailedSignIn (normalizedIdentifier reasonCategory : String)
    (subject : Option (AuthIdentifierSubjectType × String)) : Handler Unit :=
  call (.recordActivity
    { eventType := .signInFailure
      actorType := .unknown
      actorId := none
      subjectType := subject.map Prod.fst
      subjectId := subject.map Prod.snd
      outcome := .failure
      reasonCategory := some reasonCategory
      identifierCorrelation :=
        if subject.isSome ∨ normalizedIdentifier = "" then none
        else env.correlate normalizedIdentifier })

def denySharedSignIn {α : Type} (normalizedIdentifier reasonCategory : String)
    (subject : Option (AuthIdentifierSubjectType × String)) : Handler α := do
  recordFailedSignIn env normalizedIdentifier reasonCategory subject
  throw .unauthorized

def resolveSharedIdentifier (normalizedIdentifier : String) : Handler (Option ActiveReservation) := do
  if normalizedIdentifier = "" then return none
  else
    match ← call (.findReservation normalizedIdentifier) with
    | none => denySharedSignIn env normalizedIdentifier "unresolved-identifier" none
    | some reservation =>
      match reservation.status, reservation.subjectType, reservation.subjectId with
      | .active, some subjectType, some subjectId =>
        if subjectId = "" then
          denySharedSignIn env normalizedIdentifier "unresolved-identifier" none
        else return some ⟨subjectType, subjectId, reservation.activationGateOperationId⟩
      | .conflict, _, _ =>
        denySharedSignIn env normalizedIdentifier "legacy-ambiguous-identifier" none
      | _, _, _ => denySharedSignIn env normalizedIdentifier "unresolved-identifier" none

def assertActivationGateCompleted (reservation : ActiveReservation)
    (normalizedIdentifier : String) : Handler Unit := do
  match reservation.activationGateOperationId with
  | none => return
  | some operationId =>
    if operationId = "" then return
    else
      match ← call (.findGateStatus operationId) with
      | some .completed => return
      | _ => denySharedSignIn env normalizedIdentifier "activation-gate-incomplete" none

def authenticateReservedStaff (normalizedIdentifier password reservedSubjectId : String) :
    Handler StaffAuth := do
  match ← call (.findStaffByEmail (env.toLowerCase (env.trim normalizedIdentifier))) with
  | none =>
    denySharedSignIn env normalizedIdentifier "invalid-credentials" (some (.staff, reservedSubjectId))
  | some user =>
    if user.id = reservedSubjectId ∧ user.status = .active then
      if ← call (.verifyPassword user.passwordHash password) then
        call (.touchLastLogin .staff user.id)
        return ⟨user, permissionsForStaffRoles user.roles, user.authVersion.getD 0⟩
      else
        denySharedSignIn env normalizedIdentifier "invalid-credentials"
          (some (.staff, reservedSubjectId))
    else
      denySharedSignIn env normalizedIdentifier "invalid-credentials"
        (some (.staff, reservedSubjectId))

def authenticateReservedMember (normalizedIdentifier password reservedSubjectId : String) :
    Handler MemberAuth := do
  match ← call (.findMemberByLogin (env.toLowerCase (env.trim normalizedIdentifier))
      (env.toUpperCase (env.trim normalizedIdentifier))) with
  | none =>
    denySharedSignIn env normalizedIdentifier "invalid-credentials"
      (some (.member, reservedSubjectId))
  | some member =>
    if member.id = reservedSubjectId ∧ member.status = .active ∧
        member.authStatus = some .active ∧ member.passwordHash.getD "" ≠ "" then
      if ← call (.verifyPassword (member.passwordHash.getD "") password) then
        call (.touchLastLogin .member member.id)
        return ⟨member, memberRolePermissions, member.authVersion.getD 0⟩
      else
        denySharedSignIn env normalizedIdentifier "invalid-credentials"
          (some (.member, reservedSubjectId))
    else
      denySharedSignIn env normalizedIdentifier "invalid-credentials"
        (some (.member, reservedSubjectId))

def scopeOf (permissions : List AuthPermission) : String :=
  " ".intercalate (permissions.map (·.text))

def buildStaffLoginResponse (staffAuth : StaffAuth) : Handler SharedLoginResponse := do
  let user := staffAuth.user
  let jti ← ofSessions (TokenSession.call .randomUUID)
  let accessToken ← call (.signAccessToken
    { sub := user.id
      jti := jti
      roleArea := .staff
      scope := scopeOf staffAuth.permissions
      permissions := staffAuth.permissions
      authVersion := staffAuth.authVersion })
  return {
    accessToken := accessToken
    expiresIn := env.accessTokenTtlSeconds
    scope := scopeOf staffAuth.permissions
    permissions := staffAuth.permissions
    profile := .staff user.id user.email user.displayName user.roles staffAuth.permissions }

/-- A missing member or membership type is a `NotFoundException`, which sign-in passes on. -/
def findSelfServiceProfile (memberId : String) : Handler MembershipType := do
  match ← call (.findMember memberId) with
  | none => throw .notFound
  | some member =>
    match ← call (.findMembershipType member.membershipTypeId) with
    | none => throw .notFound
    | some membershipType => return membershipType

def buildMemberLoginResponse (memberAuth : MemberAuth) : Handler SharedLoginResponse := do
  let member := memberAuth.member
  let membershipType ← findSelfServiceProfile member.id
  let jti ← ofSessions (TokenSession.call .randomUUID)
  let accessToken ← call (.signAccessToken
    { sub := member.id
      jti := jti
      roleArea := .member
      scope := scopeOf memberAuth.permissions
      permissions := memberAuth.permissions
      authVersion := memberAuth.authVersion })
  return {
    accessToken := accessToken
    expiresIn := env.accessTokenTtlSeconds
    scope := scopeOf memberAuth.permissions
    permissions := memberAuth.permissions
    profile := .member member.id member.memberNumber member.fullName member.email member.status
      member.membershipTypeId membershipType.code membershipType.name }

def createRefreshToken (subjectType : TokenSession.AuthSubjectType) (subjectId : String)
    (scopes : List AuthPermission) (authVersion : ℕ) : Handler (String × Date) := do
  let now ← ofSessions (TokenSession.call .currentDate)
  let session ← ofSessions (TokenSession.createFamily env.sha256
    { clientId := "book-library-web"
      subjectType := subjectType
      subjectId := subjectId
      scopes := scopes.map (·.text)
      authVersion := authVersion
      ttlSeconds := env.refreshTokenTtlSeconds } now)
  return (session.refreshToken, session.expiresAt)

def recordSuccess (subjectType : AuthIdentifierSubjectType) (subjectId : String) : Handler Unit :=
  call (.recordActivity
    { eventType := .signInSuccess
      actorType := match subjectType with
        | .staff => .staff
        | .member => .member
      actorId := some subjectId
      subjectType := some subjectType
      subjectId := some subjectId
      outcome := .success
      reasonCategory := none
      identifierCorrelation := none })

def createSharedSession (dto : SharedLoginDto) : Handler SharedAuthSessionResult := do
  let identifier := normalizeSharedIdentifier env dto.identifier
  let password := dto.password.getD ""
  match ← resolveSharedIdentifier env identifier with
  | none => denySharedSignIn env identifier "unresolved-identifier" none
  | some reservation =>
    assertActivationGateCompleted env reservation identifier
    match reservation.subjectType with
    | .staff =>
      let staffAuth ← authenticateReservedStaff env identifier password reservation.subjectId
      let response ← buildStaffLoginResponse env staffAuth
      let (refreshToken, refreshExpiresAt) ← createRefreshToken env .staff staffAuth.user.id
        staffAuth.permissions staffAuth.authVersion
      recordSuccess .staff staffAuth.user.id
      return ⟨response, refreshToken, refreshExpiresAt⟩
    | .member =>
      let memberAuth ← authenticateReservedMember env identifier password reservation.subjectId
      let response ← buildMemberLoginResponse env memberAuth
      let (refreshToken, refreshExpiresAt) ← createRefreshToken env .member memberAuth.member.id
        memberAuth.permissions memberAuth.authVersion
      recordSuccess .member memberAuth.member.id
      return ⟨response, refreshToken, refreshExpiresAt⟩

end AuthService

section Controller

variable (env : Environment)

def recordIdentifierFailure (context : Option AuthThrottleRequestContext) : Handler Unit := do
  match context.bind (·.normalizedIdentifier) with
  | none => return
  | some identifier =>
    let now ← ofSessions (TokenSession.call .currentDate)
    let decision ← orDeny
      (consumeSignInIdentifierFailure env.hmac env.throttle identifier .invalidPassword now)
    assertAuthThrottleAllowed decision

/-- The body that the three sign-in handlers share. -/
def completeSharedLogin (context : Option AuthThrottleRequestContext) (dto : SharedLoginDto) :
    Handler SharedAuthSessionResult :=
  tryCatch (createSharedSession env dto) fun error => do
    recordIdentifierFailure env context
    throw error

/-- A request to a sign-in route: the guard, the validation of the body, the handler. -/
def signIn (request : Request) : Handler SharedAuthSessionResult := do
  let context ← canActivate env request
  match validate env request.route request.body with
  | none => throw .badRequest
  | some dto => completeSharedLogin env context dto

/-- The sign-in routes on the sign-in database. -/
def system : System Request Op Database (Except HttpFailure SharedAuthSessionResult) Event :=
  service env fun request => (signIn env request).run

end Controller

end SignIn
