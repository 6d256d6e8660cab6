import BookLibrary.Interleaving.Lifting
import BookLibrary.SignIn.Documents

/-!
# The throttle guard of the authentication routes

`AuthEndpointThrottleGuard`, which every sign-in and refresh request passes before
its handler, and the atomic calls of a whole request.
-/

namespace SignIn

open AuthIdentifiers AuthThrottle Documents Interleaving

/-- A property of a JSON body. -/
inductive Field where
  | undefined
  | null
  | text (value : String)
  | other
  deriving DecidableEq

/-- `a ?? b` -/
def Field.orElse : Field → Field → Field
  | .undefined, b => b
  | .null, b => b
  | a, _ => a

/-- A body that is an object; `extra` tells whether it has further properties. -/
structure Body where
  identifier : Field
  email : Field
  loginIdentifier : Field
  password : Field
  extra : Bool
  deriving DecidableEq

/-- `identifier ?? email ?? loginIdentifier` -/
def Body.name (body : Body) : Field :=
  (body.identifier.orElse body.email).orElse body.loginIdentifier

inductive AuthRoute where
  | login | staffLogin | memberLogin | refresh
  deriving DecidableEq

def AuthRoute.path : AuthRoute → String
  | .login => "/auth/login"
  | .staffLogin => "/auth/staff-login"
  | .memberLogin => "/auth/member-login"
  | .refresh => "/auth/refresh"

/-- A request that the origin guard has let through: its source identity as
`AuthSourceIdentityService` resolves it, its body unless that is no object, its
refresh cookie, and the date at which the guard takes it up. -/
structure Request where
  route : AuthRoute
  sourceIdentity : String
  body : Option Body
  refreshCookie : Option String
  now : Date
  deriving DecidableEq

structure AccessTokenClaims where
  sub : String
  jti : String
  roleArea : AuthIdentifierSubjectType
  scope : String
  permissions : List AuthPermission
  authVersion : ℕ
  deriving DecidableEq

/-- The atomic calls of the authentication service, its passwords and its tokens. -/
inductive Own : Type → Type where
  | findReservation (normalizedIdentifier : String) : Own (Option AuthIdentifier)
  | findGateStatus (operationId : String) : Own (Option AuthIdentifierOperationStatus)
  | findStaffByEmail (email : String) : Own (Option StaffUser)
  | findMemberByLogin (loginIdentifier memberNumber : String) : Own (Option Member)
  | verifyPassword (passwordHash rawPassword : String) : Own Bool
  | touchLastLogin (subjectType : AuthIdentifierSubjectType) (id : String) : Own Unit
  | findMember (id : String) : Own (Option Member)
  | findMembershipType (id : String) : Own (Option MembershipType)
  | signAccessToken (claims : AccessTokenClaims) : Own String
  | recordActivity (event : SecurityActivityEvent) : Own Unit

/-- The atomic calls of a request. -/
def Op (β : Type) : Type := AuthThrottle.Op β ⊕ TokenSession.Op β ⊕ Own β

/-- What the model takes from outside: the string methods of the host language, the
validators, the cryptography, and the configuration. -/
structure Environment where
  trim : String → String
  toLowerCase : String → String
  toUpperCase : String → String
  isEmail : String → Bool
  hmac : String → String → String
  sha256 : String → String
  verify : (passwordHash rawPassword : String) → Bool
  correlate : String → Option (String × ℕ)
  throttle : AuthThrottle.Settings
  accessTokenTtlSeconds : ℕ
  refreshTokenTtlSeconds : ℕ

inductive HttpFailure where
  | badRequest
  | unauthorized
  | notFound
  | tooManyRequests (retryAfterSeconds : Option ℤ)
  | internal
  deriving DecidableEq

abbrev Handler := Action Op HttpFailure

/-- The effect of the calls of the authentication service. -/
def ownEffect (env : Environment) : (β : Type) → Own β → Database → β → Database → Prop
  | _, .findReservation identifier, s, r, s' =>
    FindOne (fun d => decide (d.normalizedIdentifier = identifier)) s.identifiers r ∧ s' = s
  | _, .findGateStatus id, s, r, s' =>
    ∃ operation, FindOne (fun d => decide (d.operationId = id)) s.operations operation ∧
      r = operation.map (·.status) ∧ s' = s
  | _, .findStaffByEmail email, s, r, s' =>
    FindOne (fun d => decide (d.email = email)) s.staffUsers r ∧ s' = s
  | _, .findMemberByLogin login number, s, r, s' =>
    FindOne (fun d => decide (d.loginIdentifier = some login) || decide (d.memberNumber = number) ||
      decide (d.email = some login)) s.members r ∧ s' = s
  | _, .verifyPassword hash password, s, r, s' => r = env.verify hash password ∧ s' = s
  | _, .touchLastLogin .., s, _, s' => s' = s
  | _, .findMember id, s, r, s' => FindOne (fun d => decide (d.id = id)) s.members r ∧ s' = s
  | _, .findMembershipType id, s, r, s' =>
    FindOne (fun d => decide (d.id = id)) s.membershipTypes r ∧ s' = s
  | _, .signAccessToken _, s, _, s' => s' = s
  | _, .recordActivity event, s, _, s' => s' = { s with activity := event :: s.activity }

def exec (env : Environment) (β : Type) (op : Op β) (s : Database) (b : β) (s' : Database) : Prop :=
  match op with
  | .inl op => ∃ t, AuthThrottle.exec β op s.throttle b t ∧ s' = { s with throttle := t }
  | .inr (.inl op) => ∃ t, TokenSession.exec β op s.sessions b t ∧ s' = { s with sessions := t }
  | .inr (.inr op) => ownEffect env β op s b s'

def fallible (β : Type) (op : Op β) : Prop :=
  match op with
  | .inl _ => True
  | .inr (.inl op) => TokenSession.fallible β op
  | .inr (.inr _) => True

inductive Event where
  | throttle (ev : AuthThrottle.Event)
  | session (ev : TokenSession.Event)
  | looked (normalizedIdentifier : String) (reservation : Option AuthIdentifier)
  | verified (passwordHash rawPassword : String) (ok : Bool)

def Event.throttle? : Event → Option AuthThrottle.Event
  | .throttle ev => some ev
  | _ => none

def Event.session? : Event → Option TokenSession.Event
  | .session ev => some ev
  | _ => none

def ownNote : (β : Type) → Own β → Option β → List Event
  | _, .findReservation identifier, r => r.toList.map (.looked identifier)
  | _, .verifyPassword hash password, r => r.toList.map (.verified hash password)
  | _, _, _ => []

def note (β : Type) (op : Op β) (r : Option β) : List Event :=
  match op with
  | .inl op => (AuthThrottle.note β op r).map .throttle
  | .inr (.inl op) => (TokenSession.note β op r).map .session
  | .inr (.inr op) => ownNote β op r

/-- The throttle's buckets pass only by its own calls and its TTL monitor. Anything
else may be changed by the rest of the application. -/
def Elapse (s s' : Database) : Prop := AuthThrottle.Database.Elapse s.throttle s'.throttle

def fromThrottle {β : Type} (op : AuthThrottle.Op β) : Op β := .inl op

def fromSessions {β : Type} (op : TokenSession.Op β) : Op β := .inr (.inl op)

def call {β : Type} (op : Own β) : Handler β := Action.perform .internal (Sum.inr (Sum.inr op) : Op β)

def throttled {α : Type} (x : AuthThrottle.Throttle α) : Handler α :=
  Action.lift fromThrottle (fun _ => .internal) x

/-- A refresh denial is an `UnauthorizedException`. -/
def ofSessions {α : Type} (x : TokenSession.Refresh α) : Handler α :=
  Action.lift fromSessions (fun
    | .denied => .unauthorized
    | .thrown => .internal) x

structure AuthThrottleRequestContext where
  sourceIdentity : String
  normalizedIdentifier : Option String

def assertAuthThrottleAllowed (decision : AuthThrottleDecision) : Handler Unit :=
  if decision.allowed then return
  else throw (.tooManyRequests decision.retryAfterSeconds)

/-- `.catch(() => ({ allowed: false }))` -/
def orDeny (x : AuthThrottle.Throttle AuthThrottleDecision) : Handler AuthThrottleDecision :=
  tryCatch (throttled x) fun _ => return ⟨false, none, none⟩

section Guard

variable (env : Environment)

inductive RouteCategory where
  | login | memberLogin | refresh | other
  deriving DecidableEq

/-- `a.endsWith(b)` -/
def endsWith (a b : String) : Bool := b.toList.isSuffixOf a.toList

def routeCategory (path : String) : RouteCategory :=
  if endsWith path "/member-login" || decide (path = "member-login") then .memberLogin
  else if endsWith path "/login" || decide (path = "login") then .login
  else if endsWith path "/refresh" || decide (path = "refresh") then .refresh
  else .other

def normalizedIdentifier (body : Option Body) : Option String :=
  match body with
  | none => none
  | some body =>
    match body.name with
    | .text value =>
      let normalized := env.toLowerCase (env.trim value)
      if normalized = "" then none else some normalized
    | _ => none

def hasMissingCredential (body : Option Body) : Bool :=
  match body with
  | none => true
  | some body =>
    match body.name, body.password with
    | .text identifier, .text password =>
      decide (env.trim identifier = "") || decide (password = "")
    | _, _ => true

def canActivate (request : Request) : Handler (Option AuthThrottleRequestContext) :=
  match routeCategory request.route.path with
  | .login | .memberLogin => do
    let identifier := normalizedIdentifier env request.body
    let decision ← orDeny (consumeSignInAttempt env.hmac env.throttle
      { sourceIdentity := request.sourceIdentity
        normalizedIdentifier := identifier
        failureCategory :=
          if identifier.isSome && hasMissingCredential env request.body then
            some .missingCredential
          else none } request.now)
    assertAuthThrottleAllowed decision
    return some ⟨request.sourceIdentity, identifier⟩
  | .refresh => do
    let familyId ← ofSessions (TokenSession.resolveFamilyId env.sha256 request.refreshCookie)
    let now ← ofSessions (TokenSession.call .currentDate)
    let decision ← orDeny (consumeRefreshAttempt env.hmac env.throttle
      { sourceIdentity := request.sourceIdentity, familyId := familyId } now)
    assertAuthThrottleAllowed decision
    return some ⟨request.sourceIdentity, none⟩
  | .other => return none

/-- Programs of a request on the sign-in database. -/
def service {ρ : Type} (body : Request → Prog Op ρ) : System Request Op Database ρ Event where
  body := body
  exec := exec env
  fallible := fallible
  env := Elapse
  note := note

theorem filterMap_throttle (evs : List AuthThrottle.Event) :
    (evs.map Event.throttle).filterMap Event.throttle? = evs := by
  rw [List.filterMap_map]
  exact List.filterMap_some

theorem filterMap_session (evs : List TokenSession.Event) :
    (evs.map Event.session).filterMap Event.session? = evs := by
  rw [List.filterMap_map]
  exact List.filterMap_some

/-- The throttle is a component of the sign-in service. -/
theorem throttle_component {ρ : Type} {body : Request → Prog Op ρ} :
    Component (AuthThrottle.system env.hmac env.throttle) (service env body) fromThrottle
      Event.throttle? where
  answers := by
    rintro β op b ⟨s, s', t, h, -⟩
    exact ⟨s.throttle, t, h⟩
  fallible := fun _ => trivial
  note op r := filterMap_throttle _

/-- So are the token sessions. -/
theorem sessions_component {ρ : Type} {body : Request → Prog Op ρ} :
    Component (TokenSession.system env.sha256 True) (service env body) fromSessions
      Event.session? where
  answers := by
    rintro β op b ⟨s, s', t, h, -⟩
    exact ⟨s.sessions, t, h⟩
  fallible := id
  note op r := filterMap_session _

/-- Requests up to where their handler takes over. -/
def guarded : System Request Op Database (Except HttpFailure (Option AuthThrottleRequestContext))
    Event :=
  service env fun request => (canActivate env request).run

end Guard

end SignIn
