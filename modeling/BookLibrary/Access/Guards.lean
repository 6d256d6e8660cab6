import BookLibrary.Access.Retention

/-!
# Guards of the routes

The guards that the controllers name in front of their handlers, on the access token of the
request. What is refused to a caller is recorded; the accounts are left alone.
-/

namespace Access

open AuthIdentifiers Documents Interleaving SignIn

inductive Guard where
  | authBrowserOrigin | authEndpointThrottle | jwtAuth | permissions | memberAuth
  deriving DecidableEq

/-- What `@Public()` and `@RequirePermissions(..)` set on a class or on a handler. -/
structure Metadata where
  isPublic : Option Bool
  permissions : Option (List AuthPermission)
  deriving DecidableEq

/-- A handler of a controller, with the guards of both. -/
structure Route where
  controller : String
  handler : String
  classGuards : List Guard
  handlerGuards : List Guard
  classMetadata : Metadata
  handlerMetadata : Metadata
  deriving DecidableEq

namespace Route

/-- The guards in the order in which they are asked. -/
def guards (route : Route) : List Guard := route.classGuards ++ route.handlerGuards

/-- `reflector.getAllAndOverride(key, [context.getHandler(), context.getClass()])` -/
def getAllAndOverride {α : Type} (route : Route) (key : Metadata → Option α) : Option α :=
  (key route.handlerMetadata).or (key route.classMetadata)

def isPublic (route : Route) : Bool := decide (route.getAllAndOverride (·.isPublic) = some true)

def requiredPermissions (route : Route) : List AuthPermission :=
  (route.getAllAndOverride (·.permissions)).getD []

/-- All that the guards of the route require. -/
def demands (route : Route) : List AuthPermission :=
  (if .permissions ∈ route.guards then route.requiredPermissions else []) ++
    if .memberAuth ∈ route.guards then memberRolePermissions else []

end Route

section Controllers

def noMetadata : Metadata := ⟨none, none⟩

def requirePermissions (permissions : List AuthPermission) : Metadata := ⟨none, some permissions⟩

/-- A handler that names its guards itself. -/
def handlerRoute (controller handler : String) (guards : List Guard) (metadata : Metadata) : Route :=
  ⟨controller, handler, [], guards, noMetadata, metadata⟩

/-- A handler of a controller under `@UseGuards(JwtAuthGuard, PermissionsGuard)`. -/
def staffRoute (controller handler : String) (permissions : List AuthPermission) : Route :=
  ⟨controller, handler, [.jwtAuth, .permissions], [], noMetadata, requirePermissions permissions⟩

def authController : List Route :=
  let route := handlerRoute "AuthController"
  let entrance : List Guard := [.authBrowserOrigin, .authEndpointThrottle]
  let staff : List Guard := [.jwtAuth, .permissions]
  [ route "login" entrance noMetadata,
    route "staffLogin" entrance noMetadata,
    route "memberLogin" entrance noMetadata,
    route "refresh" entrance noMetadata,
    route "logout" [.authBrowserOrigin] noMetadata,
    route "logoutAll" [.authBrowserOrigin, .jwtAuth] noMetadata,
    route "me" [.jwtAuth] noMetadata,
    route "roleReview" staff (requirePermissions [.rolesRead]),
    route "securityActivity" staff (requirePermissions [.securityEventsRead]),
    route "listIdentifierConflicts" staff (requirePermissions [.authIdentifiersRead]),
    route "resolveIdentifierConflict" staff (requirePermissions [.authIdentifiersManage]),
    route "identifierOperationStatus" staff (requirePermissions [.authIdentifiersRead]) ]

def bookCategoriesController : List Route :=
  let route := staffRoute "BookCategoriesController"
  [ route "create" [.catalogManage], route "findAll" [.catalogRead], route "update" [.catalogManage] ]

def booksController : List Route :=
  let route := staffRoute "BooksController"
  [ route "findAll" [.catalogRead], route "findOne" [.catalogRead],
    route "create" [.catalogManage], route "update" [.catalogManage] ]

def borrowingsController : List Route :=
  let route := staffRoute "BorrowingsController"
  [ route "create" [.borrowingsManage], route "findOverdue" [.borrowingsRead],
    route "findAll" [.borrowingsRead], route "findOne" [.borrowingsRead],
    route "returnBorrowing" [.borrowingsManage] ]

def healthController : List Route :=
  let route handler := handlerRoute "HealthController" handler [] ⟨some true, none⟩
  [ route "getHealth", route "getReadiness" ]

def membersController : List Route :=
  let staff handler permissions := handlerRoute "MembersController" handler [.jwtAuth, .permissions]
    (requirePermissions permissions)
  let self handler := handlerRoute "MembersController" handler [.jwtAuth, .memberAuth] noMetadata
  [ staff "create" [.membersManage], staff "findAll" [.membersRead],
    self "getMe", self "getMyPolicyStatus", self "findMyBorrowings", self "findMyBorrowing",
    staff "getPolicyStatus" [.membersRead], staff "findBorrowings" [.membersRead],
    staff "findOne" [.membersRead], staff "update" [.membersManage] ]

def membershipTypesController : List Route :=
  let route := staffRoute "MembershipTypesController"
  [ route "create" [.membershipTypesManage], route "findAll" [.membershipTypesRead],
    route "update" [.membershipTypesManage] ]

def staffUsersController : List Route :=
  let route := staffRoute "StaffUsersController"
  [ route "create" [.staffUsersManage, .rolesManage],
    route "findAll" [.staffUsersRead, .rolesRead],
    route "update" [.staffUsersManage, .rolesManage] ]

def routes : List Route :=
  authController ++ bookCategoriesController ++ booksController ++ borrowingsController ++
    healthController ++ membersController ++ membershipTypesController ++ staffUsersController

end Controllers

/-- What `SecurityActivityEventType.AuthorizationDenied` is recorded with. -/
structure AuthorizationDenial where
  actorType : Accounts.SecurityActivityActorType
  actorId : Option String
  targetType : String
  targetId : String
  reasonCategory : String
  requiredPermissions : List AuthPermission
  deriving DecidableEq

inductive DenialOp : Type → Type where
  | record (denial : AuthorizationDenial) : DenialOp Unit

def GuardOp (β : Type) : Type := Accounts.Op β ⊕ DenialOp β

/-- The accounts, and the denials among the security events. -/
structure Entrance where
  accounts : Accounts.Store
  denials : List AuthorizationDenial

def guardExec (β : Type) (op : GuardOp β) (s : Entrance) (b : β) (s' : Entrance) : Prop :=
  match op with
  | .inl op => ∃ t, Accounts.exec β op s.accounts b t ∧ s' = { s with accounts := t }
  | .inr (.record denial) => s' = { s with denials := denial :: s.denials }

def guardFallible (β : Type) (op : GuardOp β) : Prop :=
  match op with
  | .inl op => Accounts.fallible β op
  | .inr _ => True

inductive Refusal where
  | unauthorized (message : String)
  | forbidden (message : String)
  | strategy (error : JwtStrategy.Failure)
  | guard (guard : Guard)
  | thrown
  deriving DecidableEq

abbrev Guarding := Action GuardOp Refusal

def strategyOp {β : Type} (op : Accounts.Op β) : GuardOp β := .inl op

def ofStrategy {α : Type} (x : JwtStrategy.Validation α) : Guarding α :=
  Action.lift strategyOp .strategy x

/-- `securityActivityService.record({..}).catch(() => undefined)` -/
def recordDenial (denial : AuthorizationDenial) : Guarding Unit :=
  tryCatch (Action.perform .thrown (.inr (.record denial))) fun _ => return

/-- `AuthGuard('jwt')`: `payload` is that of the bearer token, if there is one that verifies. -/
def JwtAuthGuard.canActivate (route : Route) (payload : Option JwtPayload)
    (user : Option RequestUser) : Guarding (Option RequestUser) :=
  if route.isPublic then return user
  else match payload with
    | none => throw (.unauthorized "Unauthorized")
    | some payload => do
      let user ← ofStrategy (JwtStrategy.validate payload)
      return some user

namespace PermissionsService

/-- The strategy gives every user a context. -/
def normalizeRequestContext (user : Option RequestUser) : Option NormalizedAuthContext :=
  user.map RequestUser.authContext

def hasEveryPermission (context : Option NormalizedAuthContext)
    (requiredPermissions : List AuthPermission) : Bool :=
  match context with
  | none => false
  | some context => ! requiredPermissions.isEmpty && requiredPermissions.all fun permission =>
      decide (permission ∈ context.permissions)

end PermissionsService

namespace PermissionsGuard

open PermissionsService

def denial (route : Route) (authContext : Option NormalizedAuthContext)
    (requiredPermissions : List AuthPermission) (reasonCategory : String) :
    AuthorizationDenial where
  actorType := match authContext.map NormalizedAuthContext.roleArea with
    | some .member => .member
    | some .staff => .staff
    | none => .unknown
  actorId := authContext.bind fun context =>
    if context.subjectId = "" then none else some context.subjectId
  targetType := route.controller
  targetId := route.handler
  reasonCategory := reasonCategory
  requiredPermissions := requiredPermissions

def canActivate (route : Route) (user : Option RequestUser) : Guarding Unit :=
  let requiredPermissions := route.requiredPermissions
  let authContext := normalizeRequestContext user
  if route.isPublic then return
  else if requiredPermissions.isEmpty then do
    recordDenial (denial route authContext [] "permission-policy-required")
    throw (.forbidden "Permission policy is required")
  else if (requiredPermissions.any fun permission => decide (permission ≠ .memberSelfRead)) ∧
      authContext.map NormalizedAuthContext.roleArea = some .member then do
    recordDenial (denial route authContext requiredPermissions "staff-permission-required")
    throw (.forbidden "Staff permission is required")
  else if ¬ hasEveryPermission authContext requiredPermissions then do
    recordDenial (denial route authContext requiredPermissions "required-permission-missing")
    throw (.forbidden "Required permission is missing")
  else return

end PermissionsGuard

namespace MemberAuthGuard

open PermissionsService

def canActivate (route : Route) (user : Option RequestUser) : Guarding Unit :=
  let authContext := normalizeRequestContext user
  let denial := PermissionsGuard.denial route authContext [.memberSelfRead]
  if authContext.map NormalizedAuthContext.roleArea ≠ some .member then do
    recordDenial (denial "member-session-required")
    throw (.forbidden "Member session is required")
  else if ¬ hasEveryPermission authContext [.memberSelfRead] then do
    recordDenial (denial "member-self-permission-required")
    throw (.forbidden "Member self-service permission is required")
  else return

end MemberAuthGuard

/-- The guards of a route, one after the other; `admits` answers for those of the browser's
origin and of the throttle. -/
def enter (admits : Guard → Bool) (route : Route) (payload : Option JwtPayload) :
    List Guard → Option RequestUser → Guarding (Option RequestUser)
  | [], user => return user
  | .jwtAuth :: guards, user => do
    let user ← JwtAuthGuard.canActivate route payload user
    enter admits route payload guards user
  | .permissions :: guards, user => do
    PermissionsGuard.canActivate route user
    enter admits route payload guards user
  | .memberAuth :: guards, user => do
    MemberAuthGuard.canActivate route user
    enter admits route payload guards user
  | guard :: guards, user =>
    if admits guard then enter admits route payload guards user else throw (.guard guard)

section Acceptance

variable {E : Type} {s : Site} {claims : AccessTokenClaims} {iss : Option String}
  {aud : Option Audience}

/-- The context of an accepted token is of the account that the token names. -/
structure Identified (claims : AccessTokenClaims) (user : RequestUser) : Prop where
  subject : ∃ id, ObjectId.parse claims.sub = some id ∧ user.id = id.1
  subjectId : user.authContext.subjectId = user.id
  roleArea : user.authContext.roleArea = claims.roleArea
  permissions : user.authContext.permissions = user.permissions

theorem validate_identified (hs : s.accounts.committed.Indexed) :
    Reads E s.accounts (JwtStrategy.validate (payloadOf claims iss aud)) (Identified claims) := by
  have hpayload : ∀ area, claims.roleArea = area →
      (payloadOf claims iss aud).role_area = some (roleAreaText area) := by
    rintro area rfl
    rfl
  rw [JwtStrategy.validate]
  refine Steady.ite (fun _ => Steady.throw) fun _ => ?_
  cases harea : claims.roleArea with
  | member =>
    rw [hpayload _ harea]
    refine Steady.ite (fun _ => ?_) fun h => absurd rfl h
    refine Steady.bind (ofAccounts_reads (findActiveMember_reads hs _)) ?_
    rintro d ⟨id, hid, hd, -⟩
    refine Steady.ite (fun _ => Steady.throw) fun _ => Steady.pure ?_
    exact ⟨⟨id, hid, Accounts.Database.id_of_member hd⟩, rfl, harea.symm, rfl⟩
  | staff =>
    rw [hpayload _ harea]
    refine Steady.ite (fun h => absurd (show "staff" = "member" from h) (by decide)) fun _ => ?_
    refine Steady.ite (fun h => absurd rfl h) fun _ => ?_
    refine Steady.bind (ofAccounts_reads (findActiveStaffUser_reads hs _)) ?_
    rintro d ⟨id, hid, hd, -⟩
    refine Steady.ite (fun _ => Steady.throw) fun _ => Steady.pure ?_
    exact ⟨⟨id, hid, Accounts.Database.id_of_staffUser hd⟩, rfl, harea.symm, rfl⟩

theorem Reads.both {α ε : Type} {s : Accounts.Store} {x : Action Accounts.Op ε α} {R R' : α → Prop}
    (h : Reads E s x R) (h' : Reads E s x R') : Reads E s x fun a => R a ∧ R' a := by
  intro t ht l r t' htraces
  obtain ⟨v, hv, hsame, hseen, hR⟩ := h t ht l r t' htraces
  obtain ⟨v', -, -, -, hR'⟩ := h' t ht l r t' htraces
  exact ⟨v, hv, hsame, hseen, fun a ha => ⟨hR a ha, hR' a ha⟩⟩

/-- What a token that lasts is accepted with, its account permits. -/
theorem validate_permitted (hs : s.Sound) (hlasting : Lasting s.staffUsers claims) :
    Reads E s.accounts (JwtStrategy.validate (payloadOf claims iss aud)) fun user =>
      Permitted s claims user.permissions := by
  obtain ⟨hscope, hlasts⟩ := hlasting
  cases harea : claims.roleArea with
  | staff =>
    rw [harea] at hlasts
    obtain ⟨d, hd, -, hpermissions⟩ := hlasts
    refine (validate_staff hs.indexed harea).mono ?_
    rintro user ⟨id, d', hid, hd', hactive, hversion, hgranted⟩
    -- the account of the token is the one that was found
    have hcanonical := ObjectId.parse_text ⟨claims.sub, hs.ids _ d hd⟩
    have hsame : d = d' := by
      rw [hid] at hcanonical
      rw [Option.some.inj hcanonical] at hd'
      exact Option.some.inj (hd.symm.trans hd')
    subst hsame
    rw [Permitted, harea]
    refine ⟨id, hid, d, hd', hactive, ?_⟩
    rw [hgranted]
    exact permissions_subset hscope (hpermissions hversion.symm)
  | member =>
    rw [harea] at hlasts
    refine (validate_member hs.indexed harea).mono ?_
    rintro user ⟨id, d, hid, hd, hactive, hauth, hgranted⟩
    rw [Permitted, harea]
    refine ⟨id, hid, d, hd, hactive, hauth, ?_⟩
    rw [hgranted, ← hlasts]
    exact permissions_subset hscope (List.Subset.refl _)

end Acceptance

section Passing

variable {α β : Type} {s : Entrance} {actorId : Option String} {R : α → Prop}

/-- What is left at an entrance of a caller who was turned away: the accounts as they were, and
one denial of the actor at most. -/
structure Turned (s : Entrance) (actorId : Option String) (s' : Entrance) : Prop where
  accounts : s'.accounts = s.accounts
  denials : s'.denials = s.denials ∨
    ∃ denial : AuthorizationDenial, denial.actorId = actorId ∧ s'.denials = denial :: s.denials

theorem Turned.refl (s : Entrance) (actorId : Option String) : Turned s actorId s := ⟨rfl, .inl rfl⟩

def unseenGuard (_ : Step GuardOp) : Option Unit := none

/-- However its calls go, the guard turns the caller away, or else leaves all as it was and
returns what `R` says. -/
def Grants (s : Entrance) (actorId : Option String) (x : Guarding α) (R : α → Prop) : Prop :=
  Leads guardExec guardFallible unseenGuard (fun s s' => s' = s) x.run s fun _ r s' =>
    Turned s actorId s' ∧ ∀ a, r = .ok a → s' = s ∧ R a

namespace Grants

theorem pure {a : α} (h : R a) : Grants s actorId (Pure.pure a) R := by
  refine Leads.run_pure ⟨.refl _ _, ?_⟩
  rintro _ ⟨⟩
  exact ⟨rfl, h⟩

theorem throw {e : Refusal} : Grants s actorId (MonadExcept.throw e : Guarding α) R :=
  Leads.run_throw ⟨.refl _ _, nofun⟩

theorem bind {Q : β → Prop} {x : Guarding β} {f : β → Guarding α} (hx : Grants s actorId x Q)
    (hf : ∀ b, Q b → Grants s actorId (f b) R) : Grants s actorId (x >>= f) R := by
  refine Leads.run_bind hx ?_ fun _ e _ h => ⟨h.1, nofun⟩
  rintro _ b v ⟨-, hok⟩
  obtain ⟨rfl, hb⟩ := hok b rfl
  exact hf b hb

theorem ite {c : Prop} [Decidable c] {x y : Guarding α} (hx : c → Grants s actorId x R)
    (hy : ¬ c → Grants s actorId y R) : Grants s actorId (if c then x else y) R :=
  Leads.run_ite hx hy

theorem of_strategy {x : JwtStrategy.Validation α} (hx : Reads Unit s.accounts x R) :
    Grants s actorId (ofStrategy x) R := by
  rw [Reads, Steady] at hx
  have hfallible : ∀ {β : Type} {op : Accounts.Op β}, guardFallible β (strategyOp op) →
      Accounts.fallible β op := fun h => h
  have hsee : ∀ {β : Type} (op : Accounts.Op β) (o : Outcome β),
      unseenGuard ⟨strategyOp op, o⟩ = Accounts.unseen ⟨op, o⟩ := fun _ _ => rfl
  have hlift : Leads guardExec guardFallible unseenGuard
      (fun accounts s' => s'.accounts = accounts ∧ s'.denials = s.denials) (ofStrategy x).run
      s.accounts fun _ r accounts => accounts = s.accounts ∧ ∀ a, r = .ok a → R a := by
    refine Leads.run_lift Entrance.accounts Entrance.denials s.denials (fun _ _ => Iff.rfl) ?_
      hfallible hsee hx fun _ r accounts h => ⟨h.1, fun a ha => ?_⟩
    · rintro β op s s' b ⟨t, ht, rfl⟩
      exact ⟨ht, rfl⟩
    · cases r with
      | ok b =>
        cases ha
        exact h.2.2 _ rfl
      | error e => cases ha
  rintro s₁ hs₁ l r s' ht
  obtain rfl : s₁ = s := hs₁
  obtain ⟨accounts, ⟨hpart, hdenials⟩, haccounts, hr⟩ := hlift s₁ ⟨rfl, rfl⟩ l r s' ht
  have hsame : s' = s₁ := by
    cases s'
    cases s₁
    exact Entrance.mk.injEq .. ▸ ⟨hpart.trans haccounts, hdenials⟩
  exact ⟨s', rfl, hsame ▸ .refl _ _, fun a ha => ⟨hsame, hr a ha⟩⟩

/-- A caller who is denied is turned away, whether the denial can be recorded or not. -/
theorem deny {denial : AuthorizationDenial} {e : Refusal} (h : denial.actorId = actorId) :
    Grants s actorId (do
      recordDenial denial
      MonadExcept.throw e : Guarding α) R := by
  have hrecord : Leads guardExec guardFallible unseenGuard (fun s s' => s' = s)
      (recordDenial denial).run s fun _ _ s' => Turned s actorId s' := by
    refine Leads.run_tryCatch (R := fun _ _ s' => Turned s actorId s') ?_ (fun _ _ _ h => h)
      fun _ _ _ h => Leads.run_pure h
    refine Leads.run_perform ?_
    rintro _ rfl o s₁ hgoes
    refine ⟨s₁, rfl, ?_⟩
    rcases hgoes.applied with ⟨-, rfl⟩ | ⟨b, -, hexec⟩
    · exact .refl _ _
    · obtain rfl : s₁ = _ := hexec
      exact ⟨rfl, .inr ⟨denial, h, rfl⟩⟩
  exact Leads.run_bind hrecord (fun _ _ _ h => Leads.run_throw ⟨h, nofun⟩) fun _ _ _ h => ⟨h, nofun⟩

end Grants

end Passing

section Routes

variable {s : Site} {denials : List AuthorizationDenial} {claims : AccessTokenClaims}
  {iss : Option String} {aud : Option Audience} {route : Route} {user : RequestUser}

open PermissionsService

theorem Identified.denial_actorId (h : Identified claims user) (permissions : List AuthPermission)
    (reasonCategory : String) :
    (PermissionsGuard.denial route (some user.authContext) permissions reasonCategory).actorId =
      some user.id := by
  obtain ⟨id, -, hid⟩ := h.subject
  have hne : user.authContext.subjectId ≠ "" := by
    rw [h.subjectId, hid]
    intro hempty
    have hcanonical := id.2
    rw [hempty] at hcanonical
    exact absurd hcanonical (by decide)
  rw [PermissionsGuard.denial]
  simp only [Option.bind_some]
  rw [if_neg hne, h.subjectId]

theorem mem_of_hasEveryPermission {context : NormalizedAuthContext}
    {required : List AuthPermission} (h : hasEveryPermission (some context) required = true) :
    required ⊆ context.permissions := by
  rw [hasEveryPermission, Bool.and_eq_true] at h
  intro permission hmem
  exact of_decide_eq_true (List.all_eq_true.mp h.2 permission hmem)

theorem permissionsGuard_grants {e : Entrance} (hidentified : Identified claims user)
    (hpublic : route.isPublic = false) :
    Grants e (some user.id) (PermissionsGuard.canActivate route (some user)) fun _ =>
      route.requiredPermissions ⊆ user.permissions ∧
        ((∃ permission ∈ route.requiredPermissions, permission ≠ .memberSelfRead) →
          claims.roleArea = .staff) := by
  refine Grants.ite (fun h => absurd (hpublic.symm.trans h) (by decide)) fun _ => ?_
  refine Grants.ite (fun _ => .deny (hidentified.denial_actorId _ _)) fun _ => ?_
  refine Grants.ite (fun _ => .deny (hidentified.denial_actorId _ _)) fun hstaff => ?_
  refine Grants.ite (fun _ => .deny (hidentified.denial_actorId _ _)) fun hevery => .pure ⟨?_, ?_⟩
  · rw [← hidentified.permissions]
    exact mem_of_hasEveryPermission (not_not.mp hevery)
  · rintro ⟨permission, hmem, hne⟩
    have hany : (route.requiredPermissions.any fun permission =>
        decide (permission ≠ .memberSelfRead)) = true :=
      List.any_eq_true.mpr ⟨permission, hmem, decide_eq_true hne⟩
    rw [← hidentified.roleArea]
    cases harea : user.authContext.roleArea with
    | staff => rfl
    | member => exact absurd ⟨hany, congrArg some harea⟩ hstaff

theorem memberAuthGuard_grants {e : Entrance} (hidentified : Identified claims user) :
    Grants e (some user.id) (MemberAuthGuard.canActivate route (some user)) fun _ =>
      memberRolePermissions ⊆ user.permissions ∧ claims.roleArea = .member := by
  refine Grants.ite (fun _ => .deny (hidentified.denial_actorId _ _)) fun harea => ?_
  refine Grants.ite (fun _ => .deny (hidentified.denial_actorId _ _)) fun hevery => .pure ⟨?_, ?_⟩
  · rw [← hidentified.permissions]
    exact mem_of_hasEveryPermission (not_not.mp hevery)
  · rw [← hidentified.roleArea]
    exact Option.some.inj (not_not.mp harea)

/-- How the guards of a route that asks for an access token are ordered, and for whom it is. -/
inductive Shape (route : Route) : Prop where
  | token (guards : route.guards = [.jwtAuth] ∨ route.guards = [.authBrowserOrigin, .jwtAuth])
  | staff (guards : route.guards = [.jwtAuth, .permissions])
      (staff : ∃ permission ∈ route.requiredPermissions, permission ≠ .memberSelfRead)
  | member (guards : route.guards = [.jwtAuth, .memberAuth])

/-- The controllers name their guards in these orders. -/
theorem shape_of_mem (hroute : route ∈ routes) (hprotected : .jwtAuth ∈ route.guards) :
    route.isPublic = false ∧ Shape route := by
  have hroutes : ∀ route ∈ routes, .jwtAuth ∈ route.guards → route.isPublic = false ∧
      ((route.guards = [.jwtAuth] ∨ route.guards = [.authBrowserOrigin, .jwtAuth]) ∨
        (route.guards = [.jwtAuth, .permissions] ∧
          ∃ permission ∈ route.requiredPermissions, permission ≠ .memberSelfRead) ∨
        route.guards = [.jwtAuth, .memberAuth]) := by decide
  obtain ⟨hpublic, hguards⟩ := hroutes route hroute hprotected
  refine ⟨hpublic, ?_⟩
  rcases hguards with htoken | ⟨hstaff, hsome⟩ | hmember
  · exact .token htoken
  · exact .staff hstaff hsome
  · exact .member hmember

/-- The token names an account that is active, of the area that the route is for, and that permits
by now all that the route demands. -/
structure Admitted (s : Site) (claims : AccessTokenClaims) (route : Route)
    (user : Option RequestUser) : Prop where
  permitted : Permitted s claims route.demands
  staff : .permissions ∈ route.guards → claims.roleArea = .staff
  member : .memberAuth ∈ route.guards → claims.roleArea = .member
  identified : ∃ u, user = some u ∧ Identified claims u

theorem Permitted.mono {permissions permissions' : List AuthPermission}
    (h : Permitted s claims permissions) (hsub : permissions' ⊆ permissions) :
    Permitted s claims permissions' := by
  obtain ⟨id, hid, h⟩ := h
  refine ⟨id, hid, ?_⟩
  cases harea : claims.roleArea with
  | staff =>
    rw [harea] at h
    obtain ⟨d, hd, hactive, hpermissions⟩ := h
    exact ⟨d, hd, hactive, List.Subset.trans hsub hpermissions⟩
  | member =>
    rw [harea] at h
    obtain ⟨d, hd, hactive, hauth, hpermissions⟩ := h
    exact ⟨d, hd, hactive, hauth, List.Subset.trans hsub hpermissions⟩

/-- The account that the token names. -/
def namedAccount (claims : AccessTokenClaims) : Option String :=
  (ObjectId.parse claims.sub).map (·.1)

/-- The guards of a route, on a token that lasts. -/
theorem enter_grants (hs : s.Sound) (hlasting : Lasting s.staffUsers claims)
    (admits : Guard → Bool) (hpublic : route.isPublic = false) (hshape : Shape route) :
    Grants ⟨s.accounts, denials⟩ (namedAccount claims)
      (enter admits route (some (payloadOf claims iss aud)) route.guards none)
      (Admitted s claims route) := by
  have hvalidated : Reads Unit s.accounts (JwtStrategy.validate (payloadOf claims iss aud))
      fun user => Identified claims user ∧ Permitted s claims user.permissions :=
    Reads.both (validate_identified hs.indexed) (validate_permitted hs hlasting)
  have hjwt : ∀ {guards}, (∀ user, Identified claims user → Permitted s claims user.permissions →
      Grants ⟨s.accounts, denials⟩ (some user.id)
        (enter admits route (some (payloadOf claims iss aud)) guards (some user))
        (Admitted s claims route)) →
      Grants ⟨s.accounts, denials⟩ (namedAccount claims)
        (enter admits route (some (payloadOf claims iss aud)) (.jwtAuth :: guards) none)
        (Admitted s claims route) := by
    intro guards hrest
    refine Grants.bind (Q := fun user => ∃ u, user = some u ∧ Identified claims u ∧
      Permitted s claims u.permissions) ?_ ?_
    · refine Grants.ite (fun h => absurd (hpublic.symm.trans h) (by decide)) fun _ => ?_
      exact Grants.bind (.of_strategy hvalidated) fun u hu => .pure ⟨u, rfl, hu⟩
    · rintro _ ⟨u, rfl, hidentified, hpermitted⟩
      have hnamed : namedAccount claims = some u.id := by
        obtain ⟨id, hid, hu⟩ := hidentified.subject
        rw [namedAccount, hid, hu]
        rfl
      rw [hnamed]
      exact hrest u hidentified hpermitted
  cases hshape with
  | token hguards =>
    have hdemands : route.demands = [] ∧ .permissions ∉ route.guards ∧ .memberAuth ∉ route.guards := by
      rw [Route.demands]
      rcases hguards with hguards | hguards <;> simp [hguards]
    have hadmitted : ∀ user, Identified claims user → Permitted s claims user.permissions →
        Admitted s claims route (some user) := by
      intro user hidentified hpermitted
      refine ⟨?_, fun h => absurd h hdemands.2.1, fun h => absurd h hdemands.2.2, user, rfl,
        hidentified⟩
      rw [hdemands.1]
      exact hpermitted.mono (List.nil_subset _)
    rcases hguards with hguards | hguards
    · rw [hguards]
      exact hjwt fun user hi hp => .pure (hadmitted user hi hp)
    · rw [hguards]
      exact Grants.ite (fun _ => hjwt fun user hi hp => .pure (hadmitted user hi hp)) fun _ => .throw
  | staff hguards hstaff =>
    have hdemands : route.demands = route.requiredPermissions ∧ .memberAuth ∉ route.guards := by
      rw [Route.demands, hguards]
      simp
    rw [hguards]
    refine hjwt fun user hi hp => Grants.bind (permissionsGuard_grants hi hpublic) ?_
    rintro - ⟨hrequired, harea⟩
    refine .pure ⟨?_, fun _ => harea hstaff, fun h => absurd h hdemands.2, user, rfl, hi⟩
    rw [hdemands.1]
    exact hp.mono hrequired
  | member hguards =>
    have hdemands : route.demands = memberRolePermissions ∧ .permissions ∉ route.guards := by
      rw [Route.demands, hguards]
      simp
    rw [hguards]
    refine hjwt fun user hi hp => Grants.bind (memberAuthGuard_grants hi) ?_
    rintro - ⟨hself, harea⟩
    refine .pure ⟨?_, fun h => absurd h hdemands.2, fun _ => harea, user, rfl, hi⟩
    rw [hdemands.1]
    exact hp.mono hself

/-- In every serial run, a token that was issued in it passes the guards of a route only for an
account that is active, is of the area that the route is for, and permits by then all that the
route demands. Whoever is turned away leaves the accounts alone and one denial at most. -/
theorem routes_guarded {env : Environment} {s₀ : Site} {tokens : List AccessTokenClaims}
    (hs₀ : s₀.Sound) (hrun : SerialRun env s₀ tokens s) (hclaims : claims ∈ tokens)
    (hroute : route ∈ routes) (hprotected : .jwtAuth ∈ route.guards) {admits : Guard → Bool}
    {l : List (Step GuardOp)} {r : Except Refusal (Option RequestUser)} {e : Entrance}
    (hentered : Traces guardExec guardFallible
      (enter admits route (some (payloadOf claims iss aud)) route.guards none).run
      ⟨s.accounts, denials⟩ l r e) :
    Turned ⟨s.accounts, denials⟩ (namedAccount claims) e ∧
      ∀ user, r = .ok user → e = ⟨s.accounts, denials⟩ ∧ Admitted s claims route user := by
  obtain ⟨hs, hlasting⟩ := hrun.lasting hs₀
  obtain ⟨hpublic, hshape⟩ := shape_of_mem hroute hprotected
  obtain ⟨e', rfl, hturned, hadmitted⟩ := enter_grants hs (hlasting claims hclaims) admits hpublic
    hshape _ rfl l r e hentered
  exact ⟨hturned, hadmitted⟩

end Routes

section Execution

/-- `guardExec` as a function. -/
def guardPerform (β : Type) (op : GuardOp β) (s : Entrance) (x : Accounts.Choice) :
    Option (β × Entrance) :=
  match op with
  | .inl op => (Accounts.execute β op s.accounts x).map fun (b, t) => (b, { s with accounts := t })
  | .inr (.record denial) => some ((), { s with denials := denial :: s.denials })

theorem guardPerform_exec {β : Type} {op : GuardOp β} {s s' : Entrance} {x : Accounts.Choice} {b : β}
    (h : guardPerform β op s x = some (b, s')) : guardExec β op s b s' := by
  rcases op with op | op
  · obtain ⟨⟨b', t⟩, hperform, heq⟩ := Option.map_eq_some_iff.mp h
    cases heq
    exact ⟨t, Accounts.execute_exec hperform, rfl⟩
  · cases op
    cases h
    rfl

/-- The guards of a route, on the token of the sign-in. -/
def adaEnters (route : Route) : Option (List (Step Op) × Site × Except Refusal (Option RequestUser) ×
    Entrance) :=
  signedInSite.bind fun (l, _, s) =>
    (trace guardPerform (fun _ _ => false) Accounts.drawsAnything []
      (enter (fun _ => true) route (some (payloadOf adaClaims none none)) route.guards none).run
      ⟨s.accounts, []⟩).map fun (_, r, e) => (l, s, r, e)

theorem adaEnters_runs {route : Route} {l : List (Step Op)} {s : Site}
    {r : Except Refusal (Option RequestUser)} {e : Entrance}
    (h : adaEnters route = some (l, s, r, e)) (hissued : l.filterMap issued = [adaClaims]) :
    SerialRun plain oneAccount [adaClaims] s ∧ ∃ steps, Traces guardExec guardFallible
      (enter (fun _ => true) route (some (payloadOf adaClaims none none)) route.guards none).run
      ⟨s.accounts, []⟩ steps r e := by
  obtain ⟨⟨l', outcome, s'⟩, hserved, hrest⟩ := Option.bind_eq_some_iff.mp h
  obtain ⟨⟨steps, r', e'⟩, hentered, heq⟩ := Option.map_eq_some_iff.mp hrest
  cases heq
  refine ⟨?_, steps, traces_of_trace guardPerform_exec nofun hentered⟩
  have hserve := SerialRun.serve (.signIn adaSignsIn) (@SerialRun.start plain oneAccount)
    (traces_of_trace perform_exec nofun hserved)
  rw [hissued] at hserve
  exact hserve

theorem oneAccount_sound : oneAccount.Sound := by
  refine ⟨by decide, fun id d hd => ?_⟩
  have hd' := List.mem_singleton.mp (List.mem_of_find?_eq_some hd)
  rw [← Accounts.id_of_account hd, hd']
  exact Accounts.staffUserId.2

/-- A member of the staff lists the books. -/
theorem routes_guarded_ada : ∃ s user, SerialRun plain oneAccount [adaClaims] s ∧
    Admitted s adaClaims (staffRoute "BooksController" "findAll" [.catalogRead]) user := by
  have hrun : (adaEnters (staffRoute "BooksController" "findAll" [.catalogRead])).map
      (fun (l, _, r, _) => (l.filterMap issued, r.toOption.isSome)) =
        some ([adaClaims], true) := by decide +kernel
  obtain ⟨⟨l, s, r, e⟩, henters, hview⟩ := Option.map_eq_some_iff.mp hrun
  obtain ⟨hissued, hsome⟩ := Prod.mk.inj hview
  obtain ⟨hserial, steps, hentered⟩ := adaEnters_runs henters hissued
  cases r with
  | error e => cases hsome
  | ok user =>
    have hguarded := routes_guarded oneAccount_sound hserial List.mem_cons_self (by decide)
      (by decide) hentered
    exact ⟨s, user, hserial, (hguarded.2 user rfl).2⟩

/-- She is turned away from the accounts of the staff, and the denial is recorded of her. -/
example : (adaEnters (staffRoute "StaffUsersController" "findAll" [.staffUsersRead, .rolesRead])).map
    (fun (_, _, r, e) => (r.toOption.isSome, e.denials.map (·.actorId))) =
      some (false, [some adaClaims.sub]) := by decide +kernel

end Execution

end Access
