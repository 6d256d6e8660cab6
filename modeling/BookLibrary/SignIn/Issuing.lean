import BookLibrary.Interleaving.Steady
import BookLibrary.SignIn.Refresh

/-!
# Issued access tokens

What sign-in and refresh put into the tokens that they sign: what the account permits at that
moment, under its version.
-/

namespace SignIn

open AuthIdentifiers Documents Interleaving

/-- The collections that sign-in reads and never writes. -/
structure Kept (s s' : Database) : Prop where
  identifiers : s'.identifiers = s.identifiers
  operations : s'.operations = s.operations
  staffUsers : s'.staffUsers = s.staffUsers
  members : s'.members = s.members
  membershipTypes : s'.membershipTypes = s.membershipTypes

theorem Kept.refl (s : Database) : Kept s s := ⟨rfl, rfl, rfl, rfl, rfl⟩

theorem exec_kept {env : Environment} {β : Type} {op : Op β} {s s' : Database} {b : β}
    (h : exec env β op s b s') : Kept s s' := by
  rcases op with op | op | op
  · obtain ⟨t, -, rfl⟩ := h
    exact ⟨rfl, rfl, rfl, rfl, rfl⟩
  · obtain ⟨t, -, rfl⟩ := h
    exact ⟨rfl, rfl, rfl, rfl, rfl⟩
  · cases op with
    | findGateStatus =>
      obtain ⟨operation, -, -, rfl⟩ := h
      exact .refl _
    | touchLastLogin | signAccessToken =>
      obtain rfl : s' = s := h
      exact .refl _
    | recordActivity =>
      obtain rfl : s' = _ := h
      exact ⟨rfl, rfl, rfl, rfl, rfl⟩
    | _ =>
      obtain ⟨-, rfl⟩ := h
      exact .refl _

theorem refreshExec_kept {env : Environment} {β : Type} {op : RefreshOp β} {s s' : RefreshDatabase}
    {b : β} (h : refreshExec env β op s b s') : Kept s.base s'.base := by
  rcases op with op | op
  · obtain ⟨t, ht, rfl⟩ := h
    exact exec_kept ht
  · cases op with
    | findStaffUser =>
      obtain ⟨-, rfl⟩ := h
      exact .refl _
    | recordActivity =>
      obtain rfl : s' = _ := h
      exact .refl _

/-- The claims that a call is to sign. -/
def signed : Step Op → Option AccessTokenClaims
  | ⟨.inr (.inr (.signAccessToken claims)), _⟩ => some claims
  | _ => none

def refreshSigned : Step RefreshOp → Option AccessTokenClaims
  | ⟨.inl op, o⟩ => signed ⟨op, o⟩
  | _ => none

/-- The claims are those of an account of the staff as it is stored, or those of a member. -/
inductive Entitled (users : List StaffUser) : AccessTokenClaims → Prop where
  | staff {user : StaffUser} (jti : String) (stored : user ∈ users) : Entitled users
    { sub := user.id
      jti := jti
      roleArea := .staff
      scope := scopeOf (permissionsForStaffRoles user.roles)
      permissions := permissionsForStaffRoles user.roles
      authVersion := user.authVersion.getD 0 }
  | member (sub jti : String) (authVersion : ℕ) : Entitled users
    { sub := sub
      jti := jti
      roleArea := .member
      scope := scopeOf memberRolePermissions
      permissions := memberRolePermissions
      authVersion := authVersion }

section Walks

variable {α β : Type} {env : Environment} {users : List StaffUser} {R : α → Prop}

/-- The action signs only what is granted, and returns what `R` says. -/
def Signs (env : Environment) (users : List StaffUser) (x : Handler α) (R : α → Prop) : Prop :=
  Steady (exec env) fallible signed (fun users s => s.staffUsers = users) (Entitled users) users x R

/-- The calls that sign nothing. -/
def Unsigning (β : Type) (op : Op β) : Prop := ∀ o, signed ⟨op, o⟩ = none

theorem goes_kept {op : Op β} {s s₁ : Database} {o : Outcome β} (hs : s.staffUsers = users)
    (h : Goes (exec env) fallible op s o s₁) : s₁.staffUsers = users := by
  rcases h.applied with ⟨-, rfl⟩ | ⟨b, -, hexec⟩
  · exact hs
  · exact (exec_kept hexec).staffUsers.trans hs

namespace Signs

theorem quiet {x : Handler α} (hx : x.run.Confined Unsigning) :
    Signs env users x fun _ => True :=
  Steady.of_confined (fun hop _ hs o _ hgoes => ⟨goes_kept hs hgoes, hop o⟩) hx

/-- Calls that sign nothing, and then the rest. -/
theorem quiet_bind {x : Handler β} {f : β → Handler α} (hx : x.run.Confined Unsigning)
    (hf : ∀ b, Signs env users (f b) R) : Signs env users (x >>= f) R :=
  Steady.bind (quiet hx) fun b _ => hf b

theorem sign {claims : AccessTokenClaims} (h : Entitled users claims) :
    Signs env users (call (.signAccessToken claims)) fun _ => True := by
  refine Steady.perform fun s hs o s₁ hgoes => ⟨goes_kept hs hgoes, ?_, fun _ _ => trivial⟩
  rintro _ ⟨⟩
  exact h

end Signs

section Quiet

theorem unsigning_call {op : Own α} (h : Unsigning α (.inr (.inr op))) :
    (call op).run.Confined Unsigning := by
  refine ⟨h, fun r => ?_⟩
  cases r with
  | some _ => trivial
  | none => trivial

theorem unsigning_throttled (x : AuthThrottle.Throttle α) : (throttled x).run.Confined Unsigning :=
  .run_lift (fun _ _ _ _ => rfl) (Prog.confined_any _)

theorem unsigning_ofSessions (x : TokenSession.Refresh α) : (ofSessions x).run.Confined Unsigning :=
  .run_lift (fun _ _ _ _ => rfl) (Prog.confined_any _)

theorem unsigning_orDeny (x : AuthThrottle.Throttle AuthThrottle.AuthThrottleDecision) :
    (orDeny x).run.Confined Unsigning :=
  .run_tryCatch (unsigning_throttled x) fun _ => .run_pure

theorem unsigning_assertAllowed (decision : AuthThrottle.AuthThrottleDecision) :
    (assertAuthThrottleAllowed decision).run.Confined Unsigning :=
  .run_ite (fun _ => .run_pure) fun _ => .run_throw

theorem unsigning_canActivate (request : Request) :
    (canActivate env request).run.Confined Unsigning := by
  rw [canActivate]
  cases routeCategory request.route.path with
  | login | memberLogin =>
    exact .run_bind (unsigning_orDeny _) fun decision =>
      .run_bind (unsigning_assertAllowed decision) fun _ => .run_pure
  | refresh =>
    exact .run_bind (unsigning_ofSessions _) fun familyId =>
      .run_bind (unsigning_ofSessions _) fun now => .run_bind (unsigning_orDeny _) fun decision =>
        .run_bind (unsigning_assertAllowed decision) fun _ => .run_pure
  | other => exact .run_pure

theorem unsigning_denySharedSignIn (identifier reason : String)
    (subject : Option (AuthIdentifierSubjectType × String)) :
    (denySharedSignIn env identifier reason subject : Handler α).run.Confined Unsigning :=
  .run_bind (unsigning_call fun _ => rfl) fun _ => .run_throw

theorem unsigning_resolve (identifier : String) :
    (resolveSharedIdentifier env identifier).run.Confined Unsigning := by
  refine .run_ite (fun _ => .run_pure) fun _ => .run_bind (unsigning_call fun _ => rfl) fun found => ?_
  cases found with
  | none => exact unsigning_denySharedSignIn _ _ _
  | some reservation =>
    dsimp only
    split
    · exact .run_ite (fun _ => unsigning_denySharedSignIn _ _ _) fun _ => .run_pure
    · exact unsigning_denySharedSignIn _ _ _
    · exact unsigning_denySharedSignIn _ _ _

theorem unsigning_gate (reservation : ActiveReservation) (identifier : String) :
    (assertActivationGateCompleted env reservation identifier).run.Confined Unsigning := by
  rw [assertActivationGateCompleted]
  cases reservation.activationGateOperationId with
  | none => exact .run_pure
  | some operationId =>
    refine .run_ite (fun _ => .run_pure) fun _ => .run_bind (unsigning_call fun _ => rfl) fun status => ?_
    split
    · exact .run_pure
    · exact unsigning_denySharedSignIn _ _ _

theorem unsigning_createRefreshToken (subjectType : TokenSession.AuthSubjectType)
    (subjectId : String) (scopes : List AuthPermission) (authVersion : ℕ) :
    (createRefreshToken env subjectType subjectId scopes authVersion).run.Confined Unsigning :=
  .run_bind (unsigning_ofSessions _) fun _ => .run_bind (unsigning_ofSessions _) fun _ => .run_pure

theorem unsigning_recordIdentifierFailure (context : Option AuthThrottleRequestContext) :
    (recordIdentifierFailure env context).run.Confined Unsigning := by
  rw [recordIdentifierFailure]
  split
  · exact .run_pure
  · exact .run_bind (unsigning_ofSessions _) fun now =>
      .run_bind (unsigning_orDeny _) fun decision => unsigning_assertAllowed decision

theorem unsigning_findSelfServiceProfile (memberId : String) :
    (findSelfServiceProfile memberId).run.Confined Unsigning := by
  refine .run_bind (unsigning_call fun _ => rfl) fun found => ?_
  cases found with
  | none => exact .run_throw
  | some member =>
    refine .run_bind (unsigning_call fun _ => rfl) fun found => ?_
    cases found with
    | none => exact .run_throw
    | some membershipType => exact .run_pure

end Quiet

section SignIn

/-- The account of a staff sign-in, as it is stored. -/
def StaffAuth.IsStored (users : List StaffUser) (staffAuth : StaffAuth) : Prop :=
  staffAuth.user ∈ users ∧
    staffAuth.permissions = permissionsForStaffRoles staffAuth.user.roles ∧
    staffAuth.authVersion = staffAuth.user.authVersion.getD 0

theorem denies_signs (identifier reason : String)
    (subject : Option (AuthIdentifierSubjectType × String)) :
    Signs env users (denySharedSignIn env identifier reason subject : Handler α) R :=
  Signs.quiet_bind (unsigning_call fun _ => rfl) fun _ => Steady.throw

/-- What a query of the accounts of the staff finds is stored. -/
theorem findStaffByEmail_signs (email : String) :
    Signs env users (call (.findStaffByEmail email)) fun found =>
      ∀ user, found = some user → user ∈ users := by
  refine Steady.perform fun s hs o s₁ hgoes => ⟨goes_kept hs hgoes, nofun, ?_⟩
  rintro found hfound user rfl
  cases o with
  | answered found =>
    cases hfound
    exact hs ▸ hgoes.1.1
  | threw r => cases hfound

theorem authenticateReservedStaff_signs (identifier password reservedSubjectId : String) :
    Signs env users (authenticateReservedStaff env identifier password reservedSubjectId)
      (StaffAuth.IsStored users) := by
  refine Steady.bind (findStaffByEmail_signs _) fun found hfound => ?_
  cases found with
  | none => exact denies_signs _ _ _
  | some user =>
    refine Steady.ite (fun _ => ?_) fun _ => denies_signs _ _ _
    refine Signs.quiet_bind (unsigning_call fun _ => rfl) fun ok => ?_
    refine Steady.ite (fun _ => ?_) fun _ => denies_signs _ _ _
    refine Signs.quiet_bind (unsigning_call fun _ => rfl) fun _ => ?_
    exact Steady.pure ⟨hfound user rfl, rfl, rfl⟩

theorem authenticateReservedMember_signs (identifier password reservedSubjectId : String) :
    Signs env users (authenticateReservedMember env identifier password reservedSubjectId)
      fun memberAuth => memberAuth.permissions = memberRolePermissions := by
  refine Signs.quiet_bind (unsigning_call fun _ => rfl) fun found => ?_
  cases found with
  | none => exact denies_signs _ _ _
  | some member =>
    refine Steady.ite (fun _ => ?_) fun _ => denies_signs _ _ _
    refine Signs.quiet_bind (unsigning_call fun _ => rfl) fun ok => ?_
    refine Steady.ite (fun _ => ?_) fun _ => denies_signs _ _ _
    exact Signs.quiet_bind (unsigning_call fun _ => rfl) fun _ => Steady.pure rfl

theorem buildStaffLoginResponse_signs {staffAuth : StaffAuth} (h : staffAuth.IsStored users) :
    Signs env users (buildStaffLoginResponse env staffAuth) fun _ => True := by
  obtain ⟨user, permissions, authVersion⟩ := staffAuth
  obtain ⟨hmem, hpermissions, hversion⟩ := h
  obtain rfl : permissions = permissionsForStaffRoles user.roles := hpermissions
  obtain rfl : authVersion = user.authVersion.getD 0 := hversion
  refine Signs.quiet_bind (unsigning_ofSessions _) fun jti => ?_
  exact Steady.bind (Signs.sign (.staff jti hmem)) fun _ _ => Steady.pure trivial

theorem buildMemberLoginResponse_signs {memberAuth : MemberAuth}
    (h : memberAuth.permissions = memberRolePermissions) :
    Signs env users (buildMemberLoginResponse env memberAuth) fun _ => True := by
  obtain ⟨member, permissions, authVersion⟩ := memberAuth
  obtain rfl := h
  refine Signs.quiet_bind (unsigning_findSelfServiceProfile _) fun membershipType => ?_
  refine Signs.quiet_bind (unsigning_ofSessions _) fun jti => ?_
  exact Steady.bind (Signs.sign (.member _ jti _)) fun _ _ => Steady.pure trivial

theorem createSharedSession_signs (dto : SharedLoginDto) :
    Signs env users (createSharedSession env dto) fun _ => True := by
  refine Signs.quiet_bind (unsigning_resolve _) fun found => ?_
  cases found with
  | none => exact denies_signs _ _ _
  | some reservation =>
    refine Signs.quiet_bind (unsigning_gate _ _) fun _ => ?_
    cases reservation.subjectType with
    | staff =>
      refine Steady.bind (authenticateReservedStaff_signs _ _ _) fun staffAuth hstored => ?_
      refine Steady.bind (buildStaffLoginResponse_signs hstored) fun response _ => ?_
      refine Signs.quiet_bind (unsigning_createRefreshToken _ _ _ _) fun session => ?_
      exact Signs.quiet_bind (unsigning_call fun _ => rfl) fun _ => Steady.pure trivial
    | member =>
      refine Steady.bind (authenticateReservedMember_signs _ _ _) fun memberAuth hpermissions => ?_
      refine Steady.bind (buildMemberLoginResponse_signs hpermissions) fun response _ => ?_
      refine Signs.quiet_bind (unsigning_createRefreshToken _ _ _ _) fun session => ?_
      exact Signs.quiet_bind (unsigning_call fun _ => rfl) fun _ => Steady.pure trivial

/-- A request to a sign-in route signs what is granted at that moment. -/
theorem signIn_signs (request : Request) : Signs env users (signIn env request) fun _ => True := by
  refine Signs.quiet_bind (unsigning_canActivate request) fun context => ?_
  cases validate env request.route request.body with
  | none => exact Steady.throw
  | some dto =>
    exact Steady.tryCatch (createSharedSession_signs dto) fun error =>
      Signs.quiet_bind (unsigning_recordIdentifierFailure context) fun _ => Steady.throw

end SignIn

section Refresh

/-- `Signs`, of the calls of a refresh. -/
def RefreshSigns (env : Environment) (users : List StaffUser) (x : Refreshing α) (R : α → Prop) :
    Prop :=
  Steady (refreshExec env) refreshFallible refreshSigned
    (fun users s => s.base.staffUsers = users) (Entitled users) users x R

theorem Signs.refreshing {x : Handler α} (hx : Signs env users x R) :
    RefreshSigns env users (ofSignIn x) R := by
  refine Steady.lift RefreshDatabase.base (fun _ _ => Iff.rfl) ?_ id (fun _ _ => rfl) hx
  rintro β op s s' b ⟨t, ht, rfl⟩
  exact ht

theorem refreshGoes_kept {op : RefreshOp β} {s s₁ : RefreshDatabase} {o : Outcome β}
    (hs : s.base.staffUsers = users) (h : Goes (refreshExec env) refreshFallible op s o s₁) :
    s₁.base.staffUsers = users := by
  rcases h.applied with ⟨-, rfl⟩ | ⟨b, -, hexec⟩
  · exact hs
  · exact (refreshExec_kept hexec).staffUsers.trans hs

theorem refreshCall_signs {op : RefreshOwn α}
    (h : ∀ s : RefreshDatabase, s.base.staffUsers = users → ∀ a s',
      refreshExec env α (.inr op) s a s' → R a) : RefreshSigns env users (refreshCall op) R := by
  refine Steady.perform fun s hs o s₁ hgoes => ⟨refreshGoes_kept hs hgoes, nofun, fun a ha => ?_⟩
  cases o with
  | answered b =>
    cases ha
    exact h s hs _ s₁ hgoes
  | threw r => cases ha

theorem recordActivity_signs (event : RefreshActivityEvent) :
    RefreshSigns env users (refreshCall (.recordActivity event)) fun _ => True :=
  refreshCall_signs fun _ _ _ _ _ => trivial

theorem rotateRefreshToken_signs (refreshToken : String) :
    RefreshSigns env users (rotateRefreshToken env refreshToken) fun _ => True := by
  refine Steady.tryCatch (Steady.bind (Signs.quiet (unsigning_ofSessions _)).refreshing fun now _ =>
    (Signs.quiet (unsigning_ofSessions _)).refreshing) fun error => ?_
  exact Steady.bind (recordActivity_signs _) fun _ _ => Steady.throw

theorem denyRefreshAndRevoke_signs (familyId reason : String) :
    RefreshSigns env users (denyRefreshAndRevoke familyId reason : Refreshing α) R := by
  refine Steady.bind (Q := fun _ => True) (Steady.tryCatch ?_ fun _ => Steady.pure trivial)
    fun _ _ => Steady.throw
  exact (Signs.quiet (unsigning_ofSessions _)).refreshing

theorem orDenyRefresh_signs {familyId : String} {x : Refreshing α} (hx : RefreshSigns env users x R) :
    RefreshSigns env users (orDenyRefresh familyId x) R :=
  Steady.tryCatch hx fun _ => Steady.ite (fun _ => denyRefreshAndRevoke_signs _ _) fun _ => Steady.throw

theorem findActiveMember_signs (id : String) :
    RefreshSigns env users (findActiveMember id) fun _ => True := by
  refine Steady.bind (Signs.quiet (unsigning_call fun _ => rfl)).refreshing fun found _ => ?_
  cases found with
  | none => exact Steady.throw
  | some member => exact Steady.ite (fun _ => Steady.pure trivial) fun _ => Steady.throw

theorem findActiveStaffUser_signs (id : String) :
    RefreshSigns env users (findActiveStaffUser id) fun user => user ∈ users := by
  refine Steady.bind (Q := fun found => ∀ user, found = some user → user ∈ users)
    (refreshCall_signs ?_) fun found hfound => ?_
  · rintro s rfl found s' ⟨hfound, -⟩ user rfl
    exact hfound.1
  · cases found with
    | none => exact Steady.throw
    | some user => exact Steady.ite (fun _ => Steady.pure (hfound user rfl)) fun _ => Steady.throw

/-- So does a refresh. -/
theorem refresh_signs (refreshToken : String) :
    RefreshSigns env users (refresh env refreshToken) fun _ => True := by
  refine Steady.bind (rotateRefreshToken_signs refreshToken) fun rotated _ => ?_
  rw [finishRefresh]
  cases rotated.subjectType with
  | member =>
    refine Steady.bind (orDenyRefresh_signs (findActiveMember_signs _)) fun member _ => ?_
    refine Steady.ite (fun _ => denyRefreshAndRevoke_signs _ _) fun _ => ?_
    refine Steady.bind (buildMemberLoginResponse_signs rfl).refreshing fun response _ => ?_
    exact Steady.bind (recordActivity_signs _) fun _ _ => Steady.pure trivial
  | staff =>
    refine Steady.bind (orDenyRefresh_signs (findActiveStaffUser_signs _)) fun user hstored => ?_
    refine Steady.ite (fun _ => denyRefreshAndRevoke_signs _ _) fun _ => ?_
    refine Steady.bind (buildStaffLoginResponse_signs ⟨hstored, rfl, rfl⟩).refreshing fun response _ => ?_
    exact Steady.bind (recordActivity_signs _) fun _ _ => Steady.pure trivial

end Refresh

end Walks

end SignIn
