import BookLibrary.SignIn.Documents

/-!
# The session of the browser

The session store of the frontend, its API client, and the calls that set and clear the
session: `login`, `refreshSession`, the sign-outs and the route guards. Whatever a call awaits
may take its time, so a call is a flight that is answered in one step and goes on in another.
-/

namespace BrowserSession

open SignIn

inductive RoleArea where
  | staff | member
  deriving DecidableEq

inductive TokenType where
  | bearer
  deriving DecidableEq

/-- Why there is no session, or that there is another. -/
inductive Reason where
  | signedOut | expired | switched
  deriving DecidableEq

structure StaffProfile where
  id : String
  email : String
  displayName : String
  roles : List StaffRole
  deriving DecidableEq

structure MemberProfile where
  id : String
  memberNumber : String
  displayName : String
  email : Option String
  membershipStatus : MemberStatus
  membershipTypeId : Option String
  membershipTypeCode : Option String
  membershipTypeName : Option String
  deriving DecidableEq

inductive Profile where
  | staff (profile : StaffProfile)
  | member (profile : MemberProfile)
  deriving DecidableEq

def Profile.roleArea : Profile → RoleArea
  | .staff _ => .staff
  | .member _ => .member

structure SessionUser where
  profile : Profile
  permissions : List AuthPermission
  deriving DecidableEq

structure AuthTokenMetadata where
  tokenType : Option TokenType
  expiresIn : Option ℕ
  scope : Option String
  permissions : Option (List AuthPermission)
  issuer : Option String
  audience : Option (String ⊕ List String)
  authVersion : Option ℕ
  deriving DecidableEq

/-- A user as the API sends it, with or without its permissions. -/
structure UserPayload (P : Type) where
  profile : P
  permissions : Option (List AuthPermission)
  deriving DecidableEq

structure SharedLoginResponse extends AuthTokenMetadata where
  accessToken : String
  roleArea : RoleArea
  user : Option (UserPayload StaffProfile)
  member : Option (UserPayload MemberProfile)
  principal : Option (UserPayload StaffProfile)
  deriving DecidableEq

structure AuthSessionSnapshot where
  accessToken : Option String
  tokenType : Option TokenType
  expiresIn : Option ℕ
  scope : Option String
  permissions : Option (List AuthPermission)
  issuer : Option String
  audience : Option (String ⊕ List String)
  authVersion : Option ℕ
  roleArea : Option RoleArea
  user : Option SessionUser
  reason : Option Reason
  deriving DecidableEq

/-- `{ reason }` -/
def AuthSessionSnapshot.empty (reason : Reason) : AuthSessionSnapshot :=
  ⟨none, none, none, none, none, none, none, none, none, none, some reason⟩

/-- What `createAuthSessionStore` keeps. -/
structure AuthSession where
  snapshot : AuthSessionSnapshot
  generation : ℕ
  deriving DecidableEq

namespace AuthSession

def init : AuthSession := ⟨.empty .signedOut, 0⟩

def setSession (accessToken : String) (user : SessionUser) (metadata : AuthTokenMetadata)
    (session : AuthSession) : AuthSession :=
  let permissions := metadata.permissions.getD user.permissions
  { generation := session.generation + 1
    snapshot :=
      { accessToken := some accessToken
        tokenType := some (metadata.tokenType.getD .bearer)
        expiresIn := metadata.expiresIn
        scope := some (metadata.scope.getD (" ".intercalate (permissions.map (·.text))))
        permissions := some permissions
        issuer := metadata.issuer
        audience := metadata.audience
        authVersion := metadata.authVersion
        roleArea := some user.profile.roleArea
        user := some { user with permissions := permissions }
        reason := some .switched } }

def clear (reason : Reason) (session : AuthSession) : AuthSession :=
  ⟨.empty reason, session.generation + 1⟩

end AuthSession

def normalizeStaffUser (response : SharedLoginResponse) : Option SessionUser :=
  (response.user.or response.principal).map fun user =>
    ⟨.staff user.profile, (user.permissions.or response.permissions).getD [.catalogRead]⟩

/-- There is no user, and an exception, where the response lacks the one it is about. -/
def normalizeSharedUser (response : SharedLoginResponse) : Option SessionUser :=
  match response.roleArea with
  | .member => response.member.map fun member =>
      ⟨.member member.profile, (member.permissions.or response.permissions).getD [.memberSelfRead]⟩
  | .staff => normalizeStaffUser response

/-- What the calls of the frontend await. -/
inductive Call where
  | request (path : String) (auth : Bool)
  | login
  | refreshSession
  | signOut
  | signOutAll
  deriving DecidableEq

def Call.path : Call → String
  | .request path _ => path
  | .login => "/auth/login"
  | .refreshSession => "/auth/refresh"
  | .signOut => "/auth/logout"
  | .signOutAll => "/auth/logout-all"

/-- The `auth` option of the request. -/
def Call.auth : Call → Bool
  | .request _ auth => auth
  | .signOutAll => true
  | _ => false

/-- How the API answers: with a payload, by a status that is not of success, or by nothing that
can be read. -/
inductive Answer where
  | ok (payload : Option SharedLoginResponse)
  | error (status : ℕ)
  | unreadable
  deriving DecidableEq

inductive Phase where
  | inFlight
  | answered (r : Answer)
  | resumed
  | settled
  deriving DecidableEq

/-- A call: the `authorization` header of its request, and the session as it was when that was
issued. -/
structure Flight where
  call : Call
  authorization : Option String
  issued : AuthSession
  phase : Phase
  deriving DecidableEq

structure State where
  session : AuthSession
  pendingRefresh : Option ℕ
  flights : List Flight
  deriving DecidableEq

namespace State

def init : State := ⟨.init, none, []⟩

variable (s : State)

/-- The header that `apiRequest` sets. -/
def authorization (call : Call) : Option String :=
  if call.auth then
    (s.session.snapshot.accessToken.filter fun token => decide (token ≠ "")).map ("Bearer " ++ ·)
  else none

/-- The synchronous part of a call, up to its `fetch`. -/
def issue (call : Call) : State :=
  { s with flights := s.flights ++ [⟨call, s.authorization call, s.session, .inFlight⟩] }

def setPhase (i : ℕ) (phase : Phase) : State :=
  { s with flights := s.flights.modify i fun flight => { flight with phase := phase } }

/-- `refreshSession`: a refresh that is under way is shared. -/
def refreshSession : State :=
  match s.pendingRefresh with
  | some _ => s
  | none => { s.issue .refreshSession with pendingRefresh := some s.flights.length }

/-- The end of `apiRequest`, when the response has been read. -/
def receive (r : Answer) : AuthSession :=
  match r with
  | .error 401 => s.session.clear .expired
  | _ => s.session

/-- `authSession.setSession(response.accessToken, user, tokenMetadata(response))` -/
def enter (response : SharedLoginResponse) (user : SessionUser) : AuthSession :=
  s.session.setSession response.accessToken user response.toAuthTokenMetadata

/-- What a call goes on to do with the session when its request has been answered. -/
def proceed (flight : Flight) (r : Answer) : AuthSession :=
  match flight.call, r with
  | .login, .ok (some response) =>
    match normalizeSharedUser response with
    | some user => s.enter response user
    | none => s.session
  | .refreshSession, .ok (some response) =>
    match normalizeSharedUser response with
    | some user =>
      if s.session.generation ≠ flight.issued.generation then s.session else s.enter response user
    | none => s.session
  | .signOut, _ => s.session.clear .signedOut
  | .signOutAll, _ => s.session.clear .signedOut
  | _, _ => s.session

/-- `requireRoleArea` -/
def requireRoleArea (roleArea : RoleArea) : AuthSession :=
  if (s.session.snapshot.accessToken.getD "") = "" then s.session
  else if s.session.snapshot.roleArea ≠ some roleArea then s.session.clear .switched
  else s.session

end State

/-- What may happen next; `forget` is the `finally` of a refresh. -/
inductive Action where
  | call (call : Call)
  | answer (i : ℕ) (r : Answer)
  | resume (i : ℕ)
  | forget (i : ℕ)
  | requireRoleArea (roleArea : RoleArea)
  deriving DecidableEq

def step (s : State) : Action → Option State
  | .call .refreshSession => some s.refreshSession
  | .call call => some (s.issue call)
  | .answer i r => do
    let flight ← s.flights[i]?
    guard (flight.phase = .inFlight)
    return { s.setPhase i (.answered r) with session := s.receive r }
  | .resume i => do
    let flight ← s.flights[i]?
    match flight.phase with
    | .answered r => return { s.setPhase i .resumed with session := s.proceed flight r }
    | _ => none
  | .forget i => do
    let flight ← s.flights[i]?
    guard (flight.call = .refreshSession ∧ flight.phase = .resumed)
    return { s.setPhase i .settled with pendingRefresh := none }
  | .requireRoleArea roleArea => return { s with session := s.requireRoleArea roleArea }

end BrowserSession
