import BookLibrary.AuthIdentifiers.Documents
import BookLibrary.AuthThrottle.Service
import BookLibrary.TokenSession.Service

/-!
# Accounts and the sign-in database

The account collections that sign-in reads, with the roles and permissions it
grants, beside the throttle buckets and the token sessions.
-/

namespace SignIn

open AuthIdentifiers

inductive AuthPermission where
  | catalogRead | catalogManage | membersRead | membersManage | membershipTypesRead
  | membershipTypesManage | borrowingsRead | borrowingsManage | staffUsersRead | staffUsersManage
  | rolesRead | rolesManage | authIdentifiersRead | authIdentifiersManage | securityEventsRead
  | memberSelfRead
  deriving DecidableEq

def AuthPermission.text : AuthPermission → String
  | .catalogRead => "catalog:read"
  | .catalogManage => "catalog:manage"
  | .membersRead => "members:read"
  | .membersManage => "members:manage"
  | .membershipTypesRead => "membership-types:read"
  | .membershipTypesManage => "membership-types:manage"
  | .borrowingsRead => "borrowings:read"
  | .borrowingsManage => "borrowings:manage"
  | .staffUsersRead => "staff-users:read"
  | .staffUsersManage => "staff-users:manage"
  | .rolesRead => "roles:read"
  | .rolesManage => "roles:manage"
  | .authIdentifiersRead => "auth-identifiers:read"
  | .authIdentifiersManage => "auth-identifiers:manage"
  | .securityEventsRead => "security-events:read"
  | .memberSelfRead => "member:self:read"

inductive StaffRole where
  | staff | admin
  deriving DecidableEq

def staffRolePermissions : StaffRole → List AuthPermission
  | .staff =>
    [.catalogRead, .catalogManage, .membersRead, .membersManage, .membershipTypesRead,
      .membershipTypesManage, .borrowingsRead, .borrowingsManage]
  | .admin =>
    [.catalogRead, .catalogManage, .membersRead, .membersManage, .membershipTypesRead,
      .membershipTypesManage, .borrowingsRead, .borrowingsManage, .staffUsersRead,
      .staffUsersManage, .rolesRead, .rolesManage, .authIdentifiersRead, .authIdentifiersManage,
      .securityEventsRead]

def memberRolePermissions : List AuthPermission := [.memberSelfRead]

def permissionsForStaffRoles (roles : List StaffRole) : List AuthPermission :=
  (roles.flatMap staffRolePermissions).eraseDups

inductive StaffUserStatus where
  | active | suspended | inactive
  deriving DecidableEq

inductive MemberStatus where
  | active | suspended | inactive
  deriving DecidableEq

inductive MemberAuthStatus where
  | active | locked | resetRequired
  deriving DecidableEq

structure StaffUser where
  id : String
  email : String
  displayName : String
  passwordHash : String
  roles : List StaffRole
  status : StaffUserStatus
  authVersion : Option ℕ
  deriving DecidableEq

structure Member where
  id : String
  memberNumber : String
  fullName : String
  email : Option String
  membershipTypeId : String
  status : MemberStatus
  loginIdentifier : Option String
  passwordHash : Option String
  authStatus : Option MemberAuthStatus
  authVersion : Option ℕ
  deriving DecidableEq

structure MembershipType where
  id : String
  code : String
  name : String
  deriving DecidableEq

inductive SecurityActivityEventType where
  | signInSuccess | signInFailure
  deriving DecidableEq

inductive SecurityActivityActorType where
  | staff | member | unknown
  deriving DecidableEq

inductive SecurityActivityOutcome where
  | success | failure
  deriving DecidableEq

/-- The events of sign-in. The identifier of a failure without a subject is kept as
a keyed hash with the version of the key. -/
structure SecurityActivityEvent where
  eventType : SecurityActivityEventType
  actorType : SecurityActivityActorType
  actorId : Option String
  subjectType : Option AuthIdentifierSubjectType
  subjectId : Option String
  outcome : SecurityActivityOutcome
  reasonCategory : Option String
  identifierCorrelation : Option (String × ℕ)
  deriving DecidableEq

/-- The database behind the sign-in routes. -/
structure Database where
  throttle : AuthThrottle.Database
  sessions : TokenSession.Database
  identifiers : List AuthIdentifier
  operations : List AuthIdentifierOperation
  staffUsers : List StaffUser
  members : List Member
  membershipTypes : List MembershipType
  activity : List SecurityActivityEvent

end SignIn
