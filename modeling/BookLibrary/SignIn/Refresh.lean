import BookLibrary.Interleaving.Traces
import BookLibrary.SignIn.Service

/-!
# Refreshing a session

`AuthService.refresh`. The rotation of the token is durable before the account is looked up,
the access token is signed and the event is recorded.
-/

namespace SignIn

open AuthIdentifiers Documents Interleaving

inductive RefreshEventType where
  | tokenRefreshed | refreshReplayDetected
  deriving DecidableEq

/-- The events of a refresh. -/
structure RefreshActivityEvent where
  eventType : RefreshEventType
  actorType : SecurityActivityActorType
  actorId : Option String
  subjectType : Option AuthIdentifierSubjectType
  subjectId : Option String
  outcome : SecurityActivityOutcome
  reasonCategory : Option String
  deriving DecidableEq

/-- The sign-in database, beside the events of refreshes. -/
structure RefreshDatabase where
  base : Database
  refreshActivity : List RefreshActivityEvent

/-- The calls of a refresh that sign-in does not issue. -/
inductive RefreshOwn : Type → Type where
  | findStaffUser (id : String) : RefreshOwn (Option StaffUser)
  | recordActivity (event : RefreshActivityEvent) : RefreshOwn Unit

def RefreshOp (β : Type) : Type := Op β ⊕ RefreshOwn β

abbrev Refreshing := Action RefreshOp HttpFailure

def refreshExec (env : Environment) (β : Type) (op : RefreshOp β) (s : RefreshDatabase) (b : β)
    (s' : RefreshDatabase) : Prop :=
  match op with
  | .inl op => ∃ t, exec env β op s.base b t ∧ s' = { s with base := t }
  | .inr op =>
    match β, op, b with
    | _, .findStaffUser id, r => FindOne (fun d => decide (d.id = id)) s.base.staffUsers r ∧ s' = s
    | _, .recordActivity event, _ =>
      s' = { s with refreshActivity := event :: s.refreshActivity }

def refreshFallible (β : Type) (op : RefreshOp β) : Prop :=
  match op with
  | .inl op => fallible β op
  | .inr _ => True

def ofBase {β : Type} (op : Op β) : RefreshOp β := .inl op

def ofSignIn {α : Type} (x : Handler α) : Refreshing α := Action.lift ofBase id x

def refreshCall {β : Type} (op : RefreshOwn β) : Refreshing β :=
  Action.perform .internal (Sum.inr op : RefreshOp β)

section AuthService

variable (env : Environment)

/-- `MembersService.findActiveById` -/
def findActiveMember (id : String) : Refreshing Member := do
  match ← ofSignIn (call (.findMember id)) with
  | none => throw .notFound
  | some member =>
    if member.status = .active ∧ member.authStatus = some .active then return member
    else throw .notFound

/-- `StaffUsersService.findActiveById` -/
def findActiveStaffUser (id : String) : Refreshing StaffUser := do
  match ← refreshCall (.findStaffUser id) with
  | none => throw .notFound
  | some user => if user.status = .active then return user else throw .notFound

def denyRefreshAndRevoke {α : Type} (familyId reason : String) : Refreshing α := do
  tryCatch (ofSignIn (ofSessions (TokenSession.revokeFamily familyId reason))) fun _ => return
  throw .unauthorized

/-- `catch (error) { if (error instanceof NotFoundException) … throw error; }` -/
def orDenyRefresh {α : Type} (familyId : String) (x : Refreshing α) : Refreshing α :=
  tryCatch x fun error =>
    if error = .notFound then denyRefreshAndRevoke familyId "inactive-subject" else throw error

def recordRefreshed (subjectType : AuthIdentifierSubjectType) (subjectId : String) :
    Refreshing Unit :=
  refreshCall (.recordActivity
    { eventType := .tokenRefreshed
      actorType := match subjectType with
        | .staff => .staff
        | .member => .member
      actorId := some subjectId
      subjectType := some subjectType
      subjectId := some subjectId
      outcome := .success
      reasonCategory := none })

/-- The rotation, whose failure is recorded. -/
def rotateRefreshToken (refreshToken : String) :
    Refreshing TokenSession.RefreshTokenRotationResult :=
  tryCatch
    (do
      let now ← ofSignIn (ofSessions (TokenSession.call .currentDate))
      ofSignIn (ofSessions (TokenSession.rotate env.sha256 refreshToken now)))
    fun error => do
      refreshCall (.recordActivity
        { eventType := .refreshReplayDetected
          actorType := .unknown
          actorId := none
          subjectType := none
          subjectId := none
          outcome := .failure
          reasonCategory := some "invalid-refresh-token" })
      throw error

def refreshMember (rotated : TokenSession.RefreshTokenRotationResult) :
    Refreshing SharedAuthSessionResult := do
  let member ← orDenyRefresh rotated.familyId (findActiveMember rotated.subjectId)
  if member.authVersion.getD 0 ≠ rotated.authVersion then
    denyRefreshAndRevoke rotated.familyId "stale-auth-version"
  else
    let response ← ofSignIn (buildMemberLoginResponse env
      ⟨member, memberRolePermissions, member.authVersion.getD 0⟩)
    recordRefreshed .member member.id
    return ⟨response, rotated.refreshToken, rotated.expiresAt⟩

def refreshStaff (rotated : TokenSession.RefreshTokenRotationResult) :
    Refreshing SharedAuthSessionResult := do
  let user ← orDenyRefresh rotated.familyId (findActiveStaffUser rotated.subjectId)
  if user.authVersion.getD 0 ≠ rotated.authVersion then
    denyRefreshAndRevoke rotated.familyId "stale-auth-version"
  else
    let response ← ofSignIn (buildStaffLoginResponse env
      ⟨user, permissionsForStaffRoles user.roles, user.authVersion.getD 0⟩)
    recordRefreshed .staff user.id
    return ⟨response, rotated.refreshToken, rotated.expiresAt⟩

/-- What `refresh` does once the token has been rotated. -/
def finishRefresh (rotated : TokenSession.RefreshTokenRotationResult) :
    Refreshing SharedAuthSessionResult :=
  match rotated.subjectType with
  | .member => refreshMember env rotated
  | .staff => refreshStaff env rotated

def refresh (refreshToken : String) : Refreshing SharedAuthSessionResult := do
  let rotated ← rotateRefreshToken env refreshToken
  finishRefresh env rotated

end AuthService

end SignIn
