import BookLibrary.Accounts.Members
import BookLibrary.Accounts.StaffUsers
import BookLibrary.Interleaving.Traces
import BookLibrary.SignIn.Refresh

/-!
# Accounts and sign-in on one database

The account services and the routes of sign-in, refresh and sign-out work on the same
collections. A serial run serves one request after another.
-/

namespace Access

open AuthIdentifiers Documents Interleaving SignIn

/-- The collections of the account services, beside those that only the authentication
routes use. -/
structure Site where
  accounts : Accounts.Store
  throttle : AuthThrottle.Database
  markers : List TokenSession.RefreshTokenReplayMarker
  clock : Date
  drawn : List String
  membershipTypes : List SignIn.MembershipType
  activity : List SignIn.SecurityActivityEvent
  refreshActivity : List RefreshActivityEvent

namespace Site

variable (s : Site)

/-- The accounts of the staff. -/
def staffUsers : List Accounts.StaffUser := s.accounts.committed.staffUsers

/-- The site as the authentication routes see it. -/
def authentication : RefreshDatabase where
  base :=
    { throttle := s.throttle
      sessions := ⟨s.accounts.committed.families, s.markers, s.clock, s.drawn⟩
      identifiers := s.accounts.committed.identifiers
      operations := s.accounts.committed.operations
      staffUsers := s.accounts.committed.staffUsers.map (·.toStaffUser)
      members := s.accounts.committed.members.map (·.toMember)
      membershipTypes := s.membershipTypes
      activity := s.activity }
  refreshActivity := s.refreshActivity

/-- The site once those routes have written `t`. -/
def afterAuthentication (t : RefreshDatabase) : Site :=
  { s with
    accounts := { s.accounts with
      committed := { s.accounts.committed with families := t.base.sessions.families } }
    throttle := t.base.throttle
    markers := t.base.sessions.markers
    clock := t.base.sessions.clock
    drawn := t.base.sessions.drawn
    activity := t.base.activity
    refreshActivity := t.refreshActivity }

/-- Time passes between two requests, and the TTL monitor may remove what has expired. -/
def Elapse (s' : Site) : Prop :=
  ∃ throttle sessions, s.throttle.Elapse throttle ∧
    s.authentication.base.sessions.Elapse True sessions ∧
    s' = s.afterAuthentication { s.authentication with
      base := { s.authentication.base with throttle := throttle, sessions := sessions } }

end Site

def Op (β : Type) : Type := Accounts.Op β ⊕ RefreshOp β

inductive Failure where
  | account (error : Accounts.Failure)
  | http (error : HttpFailure)

abbrev Handler := Action Op Failure

def accountOp {β : Type} (op : Accounts.Op β) : Op β := .inl op

def authenticationOp {β : Type} (op : RefreshOp β) : Op β := .inr op

def ofAccounts {α : Type} (x : Accounts.Handler α) : Handler α := Action.lift accountOp .account x

def ofAuthentication {α : Type} (x : Refreshing α) : Handler α :=
  Action.lift authenticationOp .http x

/-- A request of the account services or of the authentication routes. -/
inductive Request where
  | createStaffUser (dto : Accounts.CreateStaffUserDto) (actor : Option Accounts.AuditActor)
  | updateStaffUser (dto : Accounts.UpdateStaffUserDto) (actor : Option Accounts.AuditActor)
      (id : String)
  | createMember (dto : Accounts.CreateMemberDto) (actor : Option Accounts.AuditActor)
  | updateMember (dto : Accounts.UpdateMemberDto) (actor : Option Accounts.AuditActor) (id : String)
  | setMemberCredentials (actor : Option Accounts.AuditActor) (id loginIdentifier password : String)
  | signIn (request : SignIn.Request)
  | refresh (request : SignIn.Request)
  | logoutAll (roleArea : AuthIdentifierSubjectType) (subjectId : String)

section Services

variable (env : Environment)

def exec (β : Type) (op : Op β) (s : Site) (b : β) (s' : Site) : Prop :=
  match op with
  | .inl op => ∃ t, Accounts.exec β op s.accounts b t ∧ s' = { s with accounts := t }
  | .inr op => ∃ t, refreshExec env β op s.authentication b t ∧ s' = s.afterAuthentication t

def fallible (β : Type) (op : Op β) : Prop :=
  match op with
  | .inl op => Accounts.fallible β op
  | .inr op => refreshFallible β op

def bumpAuthVersion (roleArea : AuthIdentifierSubjectType) (subjectId : String) :
    Accounts.Handler Unit :=
  match roleArea with
  | .member => Accounts.MembersService.bumpAuthVersion subjectId
  | .staff => Accounts.StaffUsersService.bumpAuthVersion subjectId

/-- `AuthService.logoutAll` -/
def logoutAll (roleArea : AuthIdentifierSubjectType) (subjectId : String) : Handler Unit := do
  ofAuthentication (ofSignIn (ofSessions
    (TokenSession.revokeSubject (Accounts.sessionSubject roleArea) subjectId "sign-out-all")))
  ofAccounts (bumpAuthVersion roleArea subjectId)
  ofAccounts (Accounts.recordActivity fun id =>
    { id := id
      eventId := none
      eventType := .tokenRevoked
      actorType := match roleArea with
        | .member => .member
        | .staff => .staff
      actorId := some subjectId
      targetType := none
      targetId := none
      subjectType := some roleArea
      subjectId := some subjectId
      outcome := .success
      reasonCategory := some "sign-out-all"
      operationId := none
      context := .none })

/-- The refresh route: its guard, and the service on the token of the cookie, if there is one. -/
def refreshRoute (request : SignIn.Request) : Refreshing SharedAuthSessionResult := do
  let _ ← SignIn.ofSignIn (canActivate env request)
  SignIn.refresh env (request.refreshCookie.getD "")

def Request.handle : Request → Handler Unit
  | .createStaffUser dto actor => do
    let _ ← ofAccounts (Accounts.StaffUsersService.create env dto actor)
  | .updateStaffUser dto actor id => do
    let _ ← ofAccounts (Accounts.StaffUsersService.update env dto actor id)
  | .createMember dto actor => do
    let _ ← ofAccounts (Accounts.MembersService.create env dto actor)
  | .updateMember dto actor id => do
    let _ ← ofAccounts (Accounts.MembersService.update env dto actor id)
  | .setMemberCredentials actor id loginIdentifier password => do
    let _ ← ofAccounts
      (Accounts.MembersService.setMemberCredentials env actor id loginIdentifier password)
  | .signIn request => do
    let _ ← ofAuthentication (ofSignIn (SignIn.signIn env request))
  | .refresh request => do
    let _ ← ofAuthentication (refreshRoute env request)
  | .logoutAll roleArea subjectId => Access.logoutAll roleArea subjectId

/-- The claims of a call that signs an access token. -/
def issued : Step Op → Option AccessTokenClaims
  | ⟨.inr (.inl (.inr (.inr (.signAccessToken claims)))), _⟩ => some claims
  | _ => none

/-- From the site `s₀`, requests that are served one after another, each of them to its end
and however its calls go, come to `s`, and have signed the tokens. -/
inductive SerialRun (s₀ : Site) : List AccessTokenClaims → Site → Prop where
  | start : SerialRun s₀ [] s₀
  | serve {tokens : List AccessTokenClaims} {s s' : Site} {l : List (Step Op)}
      {r : Except Failure Unit} (request : Request) (before : SerialRun s₀ tokens s)
      (served : Traces (exec env) fallible (request.handle env).run s l r s') :
      SerialRun s₀ (tokens ++ l.filterMap issued) s'
  | elapse {tokens : List AccessTokenClaims} {s s' : Site} (before : SerialRun s₀ tokens s)
      (later : s.Elapse s') : SerialRun s₀ tokens s'

end Services

end Access
