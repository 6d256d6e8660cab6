import BookLibrary.Accounts.Members
import BookLibrary.Accounts.StaffUsers
import BookLibrary.SignIn.Service
import BookLibrary.Text.Trimming

/-!
# Permissions of a token

`JwtStrategy.validate`, on the claims of a token whose signature and expiry have been
checked, and the permissions that `PermissionsService` derives from them.
-/

namespace Access

open AuthIdentifiers Documents Interleaving SignIn

inductive Audience where
  | one (audience : String)
  | many (audiences : List String)
  deriving DecidableEq

structure JwtPayload where
  sub : String
  iss : Option String
  aud : Option Audience
  jti : Option String
  roleArea : Option String
  role_area : Option String
  scope : Option String
  permissions : Option (List String)
  auth_version : Option ℕ
  deriving DecidableEq

inductive ContextRoles where
  | staff (roles : List StaffRole)
  | member
  deriving DecidableEq

structure NormalizedAuthContext where
  subjectId : String
  roleArea : AuthIdentifierSubjectType
  roles : ContextRoles
  permissions : List AuthPermission
  authVersion : ℕ
  issuer : Option String
  audience : Option Audience
  tokenId : Option String
  scope : String
  deriving DecidableEq

inductive RequestProfile where
  | member (memberNumber : String)
  | staff (email displayName : String) (roles : List StaffRole)
  deriving DecidableEq

structure RequestUser where
  id : String
  subjectId : String
  profile : RequestProfile
  roleArea : AuthIdentifierSubjectType
  permissions : List AuthPermission
  authVersion : ℕ
  authContext : NormalizedAuthContext
  deriving DecidableEq

/-- `Object.values(AuthPermission)` -/
def authPermissions : List AuthPermission :=
  [.catalogRead, .catalogManage, .membersRead, .membersManage, .membershipTypesRead,
    .membershipTypesManage, .borrowingsRead, .borrowingsManage, .staffUsersRead, .staffUsersManage,
    .rolesRead, .rolesManage, .authIdentifiersRead, .authIdentifiersManage, .securityEventsRead,
    .memberSelfRead]

/-- The permission with the text, if it is one. -/
def authPermission (text : String) : Option AuthPermission :=
  authPermissions.find? fun permission => decide (permission.text = text)

/-- `text.split(/\s+/)` -/
def splitWhite (text : String) : List String :=
  (go text.toList).map String.ofList
where
  /-- The pieces, where a run of white space stands between two of them. -/
  go : List Char → List (List Char)
    | [] => [[]]
    | c :: rest =>
      if Text.isWhite c then
        if (rest.head?.map Text.isWhite).getD false then go rest else [] :: go rest
      else match go rest with
        | [] => [[c]]
        | piece :: pieces => (c :: piece) :: pieces

namespace PermissionsService

def permissionsFromScope (scope : Option String) : List AuthPermission :=
  match scope with
  | none => []
  | some scope => if scope = "" then [] else (splitWhite scope).filterMap authPermission

/-- The permissions of the claims, else those of their scope, unless these are none. -/
def permissionsFromPayload (payload : JwtPayload) : Option (List AuthPermission) :=
  match payload.permissions with
  | some (permission :: permissions) => some ((permission :: permissions).filterMap authPermission)
  | _ =>
    let scopedPermissions := permissionsFromScope payload.scope
    if scopedPermissions = [] then none else some scopedPermissions

def buildStaffContext (user : Accounts.StaffUser) (payload : JwtPayload) : NormalizedAuthContext :=
  let permissions := (permissionsFromPayload payload).getD (permissionsForStaffRoles user.roles)
  { subjectId := user.id
    roleArea := .staff
    roles := .staff user.roles
    permissions := permissions
    authVersion := user.authVersion.getD (payload.auth_version.getD 0)
    issuer := payload.iss
    audience := payload.aud
    tokenId := payload.jti
    scope := scopeOf permissions }

def buildMemberContext (member : Accounts.Member) (payload : JwtPayload) : NormalizedAuthContext :=
  let permissions := (permissionsFromPayload payload).getD memberRolePermissions
  { subjectId := member.id
    roleArea := .member
    roles := .member
    permissions := permissions
    authVersion := member.authVersion.getD (payload.auth_version.getD 0)
    issuer := payload.iss
    audience := payload.aud
    tokenId := payload.jti
    scope := scopeOf permissions }

end PermissionsService

namespace JwtStrategy

open PermissionsService

inductive Failure where
  | unauthorized (message : String)
  | account (error : Accounts.Failure)
  deriving DecidableEq

abbrev Validation := Action Accounts.Op Failure

def ofAccounts {α : Type} (x : Accounts.Handler α) : Validation α := Action.lift id .account x

def validateMember (payload : JwtPayload) : Validation RequestUser := do
  let member ← ofAccounts (Accounts.MembersService.findActiveById payload.sub)
  if payload.auth_version.getD 0 ≠ member.authVersion.getD 0 then
    throw (.unauthorized "Stale token")
  else
    let authContext := buildMemberContext member payload
    return {
      id := member.id
      subjectId := member.id
      profile := .member member.memberNumber
      roleArea := .member
      permissions := authContext.permissions
      authVersion := authContext.authVersion
      authContext := authContext }

def validateStaff (payload : JwtPayload) : Validation RequestUser := do
  let user ← ofAccounts (Accounts.StaffUsersService.findActiveById payload.sub)
  if payload.auth_version.getD 0 ≠ user.authVersion.getD 0 then
    throw (.unauthorized "Stale token")
  else
    let authContext := buildStaffContext user payload
    return {
      id := user.id
      subjectId := user.id
      profile := .staff user.email user.displayName user.roles
      roleArea := .staff
      permissions := authContext.permissions
      authVersion := authContext.authVersion
      authContext := authContext }

def validate (payload : JwtPayload) : Validation RequestUser :=
  let roleArea := (payload.role_area.orElse fun _ => payload.roleArea).getD ""
  if payload.sub = "" ∨ payload.jti.getD "" = "" ∨ roleArea = "" then
    throw (.unauthorized "Invalid token claims")
  else if roleArea = "member" then validateMember payload
  else if roleArea ≠ "staff" then throw (.unauthorized "Invalid token role area")
  else validateStaff payload

end JwtStrategy

def roleAreaText : AuthIdentifierSubjectType → String
  | .staff => "staff"
  | .member => "member"

/-- The payload of a token with the claims, as it is issued. -/
def payloadOf (claims : AccessTokenClaims) (iss : Option String) (aud : Option Audience) :
    JwtPayload where
  sub := claims.sub
  iss := iss
  aud := aud
  jti := some claims.jti
  roleArea := some (roleAreaText claims.roleArea)
  role_area := some (roleAreaText claims.roleArea)
  scope := some claims.scope
  permissions := some (claims.permissions.map (·.text))
  auth_version := some claims.authVersion

section Permissions

open PermissionsService

theorem authPermission_text (permission : AuthPermission) :
    authPermission permission.text = some permission := by
  cases permission <;> decide

/-- The permissions of an issued token, where it has any. -/
theorem permissionsFromPayload_issued {claims : AccessTokenClaims} {iss : Option String}
    {aud : Option Audience} (hscope : claims.scope = scopeOf claims.permissions) :
    permissionsFromPayload (payloadOf claims iss aud) =
      if claims.permissions = [] then none else some claims.permissions := by
  have hread : ∀ permissions : List AuthPermission,
      (permissions.map (·.text)).filterMap authPermission = permissions := by
    intro permissions
    rw [List.filterMap_map]
    refine (List.filterMap_congr fun permission _ => authPermission_text permission).trans ?_
    exact List.filterMap_some
  cases hpermissions : claims.permissions with
  | nil =>
    rw [hpermissions] at hscope
    simp [permissionsFromPayload, permissionsFromScope, payloadOf, hpermissions, hscope, scopeOf]
  | cons permission permissions =>
    have hlist := hread (permission :: permissions)
    rw [List.map_cons] at hlist
    simp [permissionsFromPayload, payloadOf, hpermissions, hlist]

end Permissions

end Access
