import BookLibrary.Access.Site
import BookLibrary.Access.Strategy
import BookLibrary.Accounts.Lifetimes
import BookLibrary.SignIn.Issuing
import BookLibrary.SignIn.Stranding

/-!
# No privilege outlives its account

An access token keeps what its account permitted under the version that it carries. A later
change of the account raises the version, so that the token is refused.
-/

namespace Access

open AuthIdentifiers Documents Interleaving SignIn
open Accounts (Database account Ages Succeeds)

section Strategy

variable {E α β : Type} {s : Accounts.Store}

/-- The action leaves the accounts alone and returns what `R` says. -/
def Reads (E : Type) {ε : Type} (s : Accounts.Store) (x : Action Accounts.Op ε α) (R : α → Prop) :
    Prop :=
  Steady Accounts.exec Accounts.fallible (Accounts.unseen : Step Accounts.Op → Option E)
    (fun s s' => s' = s) (fun _ => True) s x R

theorem find_reads (q : Accounts.Query β) :
    Reads E s (Accounts.find none q) fun b => Database.answers β q s.committed b := by
  rw [Reads, Steady]
  refine Leads.call fun s' hs' o s₁ hgoes => ?_
  obtain rfl : s' = s := hs'
  have hsame : s₁ = s' := by
    rcases hgoes.applied with ⟨-, rfl⟩ | ⟨b, -, -, rfl⟩
    · rfl
    · rfl
  refine ⟨s', hsame, ?_⟩
  cases o with
  | answered b =>
    obtain ⟨⟨v, hv, hb⟩, -⟩ := hgoes
    cases hv
    refine Leads.done ⟨rfl, nofun, ?_⟩
    rintro _ ⟨⟩
    exact hb
  | threw r =>
    -- the driver's error is passed on
    refine Leads.call fun s hs o s₁ hgoes => ⟨s', ?_, Leads.done ⟨rfl, nofun, nofun⟩⟩
    rw [Accounts.goes_draw hgoes]
    exact hs

theorem toMongoObjectId_reads (value fieldName : String) :
    Reads E s (Accounts.toMongoObjectId value fieldName)
      fun text => ∃ id, ObjectId.parse value = some id ∧ text = id.1 := by
  cases hid : ObjectId.parse value with
  | some id =>
    rw [Accounts.toMongoObjectId_some hid]
    exact Steady.pure ⟨id, rfl, rfl⟩
  | none =>
    rw [Accounts.toMongoObjectId_none hid]
    exact Steady.throw

/-- The accounts that are found are those under their ids. -/
theorem staffUser_of_mem (hs : s.committed.Indexed) {user : Accounts.StaffUser}
    (h : user ∈ s.committed.staffUsers) : s.committed.staffUser user.id = some user :=
  Accounts.account_of_mem hs.staffUsers h

theorem member_of_mem (hs : s.committed.Indexed) {member : Accounts.Member}
    (h : member ∈ s.committed.members) : s.committed.member member.id = some member := by
  cases hfind : s.committed.member member.id with
  | none => simpa using List.find?_eq_none.mp hfind member h
  | some d =>
    exact congrArg some (List.inj_on_of_nodup_map hs.members (List.mem_of_find?_eq_some hfind) h
      (Database.id_of_member hfind))

theorem findActiveStaffUser_reads (hs : s.committed.Indexed) (sub : String) :
    Reads E s (Accounts.StaffUsersService.findActiveById sub) fun user =>
      ∃ id, ObjectId.parse sub = some id ∧ s.committed.staffUser id.1 = some user ∧
        user.status = .active := by
  have hfind : Reads E s (Accounts.StaffUsersService.findDocumentById sub) fun user =>
      ∃ id, ObjectId.parse sub = some id ∧ s.committed.staffUser id.1 = some user := by
    refine Steady.bind (toMongoObjectId_reads _ _) ?_
    rintro _ ⟨id, hid, rfl⟩
    refine Steady.bind (find_reads _) fun found hfound => ?_
    cases found with
    | none => exact Steady.throw
    | some user =>
      refine Steady.pure ⟨id, hid, ?_⟩
      rw [← of_decide_eq_true hfound.2]
      exact staffUser_of_mem hs hfound.1
  refine Steady.bind hfind fun user ⟨id, hid, huser⟩ => ?_
  exact Steady.ite (fun hactive => Steady.pure ⟨id, hid, huser, hactive⟩) fun _ => Steady.throw

theorem findActiveMember_reads (hs : s.committed.Indexed) (sub : String) :
    Reads E s (Accounts.MembersService.findActiveById sub) fun member =>
      ∃ id, ObjectId.parse sub = some id ∧ s.committed.member id.1 = some member ∧
        member.status = .active ∧ member.authStatus = some .active := by
  have hfind : Reads E s (Accounts.MembersService.findDocumentById sub) fun member =>
      ∃ id, ObjectId.parse sub = some id ∧ s.committed.member id.1 = some member := by
    refine Steady.bind (toMongoObjectId_reads _ _) ?_
    rintro _ ⟨id, hid, rfl⟩
    refine Steady.bind (find_reads _) fun found hfound => ?_
    cases found with
    | none => exact Steady.throw
    | some member =>
      refine Steady.pure ⟨id, hid, ?_⟩
      rw [← of_decide_eq_true hfound.2]
      exact member_of_mem hs hfound.1
  refine Steady.bind hfind fun member ⟨id, hid, hmember⟩ => ?_
  exact Steady.ite (fun hactive => Steady.pure ⟨id, hid, hmember, hactive⟩) fun _ => Steady.throw

open PermissionsService

theorem ofAccounts_reads {x : Accounts.Handler α} {R : α → Prop} (hx : Reads E s x R) :
    Reads E s (JwtStrategy.ofAccounts x) R :=
  Steady.lift id (fun _ _ => Iff.rfl) id id (fun _ _ => rfl) hx

variable {claims : AccessTokenClaims} {iss : Option String} {aud : Option Audience}

/-- A token of the staff is accepted for the account that it names, while that is active. -/
theorem validate_staff (hs : s.committed.Indexed) (harea : claims.roleArea = .staff) :
    Reads E s (JwtStrategy.validate (payloadOf claims iss aud)) fun user => ∃ id d,
      ObjectId.parse claims.sub = some id ∧ s.committed.staffUser id.1 = some d ∧
      d.status = .active ∧ claims.authVersion = d.authVersion.getD 0 ∧
      user.permissions = (permissionsFromPayload (payloadOf claims iss aud)).getD
        (permissionsForStaffRoles d.roles) := by
  have htext : (payloadOf claims iss aud).role_area = some "staff" := by
    rw [payloadOf, harea]
    rfl
  rw [JwtStrategy.validate, htext]
  refine Steady.ite (fun _ => Steady.throw) fun _ => ?_
  refine Steady.ite (fun h => absurd (show "staff" = "member" from h) (by decide)) fun _ => ?_
  refine Steady.ite (fun h => absurd rfl h) fun _ => ?_
  refine Steady.bind (ofAccounts_reads (findActiveStaffUser_reads hs _)) ?_
  rintro d ⟨id, hid, hd, hactive⟩
  refine Steady.ite (fun _ => Steady.throw) fun hversion => Steady.pure ?_
  exact ⟨id, d, hid, hd, hactive, not_not.mp hversion, rfl⟩

theorem validate_member (hs : s.committed.Indexed) (harea : claims.roleArea = .member) :
    Reads E s (JwtStrategy.validate (payloadOf claims iss aud)) fun user => ∃ id d,
      ObjectId.parse claims.sub = some id ∧ s.committed.member id.1 = some d ∧
      d.status = .active ∧ d.authStatus = some .active ∧
      user.permissions = (permissionsFromPayload (payloadOf claims iss aud)).getD
        memberRolePermissions := by
  have htext : (payloadOf claims iss aud).role_area = some "member" := by
    rw [payloadOf, harea]
    rfl
  rw [JwtStrategy.validate, htext]
  refine Steady.ite (fun _ => Steady.throw) fun _ => ?_
  refine Steady.ite (fun _ => ?_) fun h => absurd rfl h
  refine Steady.bind (ofAccounts_reads (findActiveMember_reads hs _)) ?_
  rintro d ⟨id, hid, hd, hactive, hauth⟩
  exact Steady.ite (fun _ => Steady.throw) fun _ => Steady.pure ⟨id, d, hid, hd, hactive, hauth, rfl⟩

end Strategy

section Tokens

variable {users users' : List Accounts.StaffUser} {claims : AccessTokenClaims}

/-- What stays true of an issued token: the account of the staff that it names is there, and as
long as its version stands it permits what the token does. -/
def Lasting (users : List Accounts.StaffUser) (claims : AccessTokenClaims) : Prop :=
  claims.scope = scopeOf claims.permissions ∧ match claims.roleArea with
    | .staff => ∃ d, account users claims.sub = some d ∧ claims.authVersion ≤ d.authVersion.getD 0 ∧
        (d.authVersion.getD 0 = claims.authVersion →
          claims.permissions ⊆ permissionsForStaffRoles d.roles)
    | .member => claims.permissions = memberRolePermissions

theorem Lasting.ages (h : Lasting users claims) (hages : Ages users users') :
    Lasting users' claims := by
  obtain ⟨hscope, h⟩ := h
  refine ⟨hscope, ?_⟩
  cases harea : claims.roleArea with
  | member =>
    rw [harea] at h
    exact h
  | staff =>
    rw [harea] at h
    obtain ⟨d, hd, hle, hpermissions⟩ := h
    obtain ⟨d', hd', hsucceeds⟩ := hages.accounts _ d hd
    refine ⟨d', hd', hle.trans hsucceeds.version, fun heq => ?_⟩
    have hsame : d.authVersion.getD 0 = claims.authVersion :=
      le_antisymm (heq ▸ hsucceeds.version) hle
    exact List.Subset.trans (hpermissions hsame) (hsucceeds.permissions (heq.trans hsame.symm))

theorem lasting_of_entitled (hn : (users.map (·.id)).Nodup)
    (h : Entitled (users.map (·.toStaffUser)) claims) : Lasting users claims := by
  cases h with
  | @staff user jti hmem =>
    obtain ⟨d, hd, rfl⟩ := List.mem_map.mp hmem
    refine ⟨rfl, d, Accounts.account_of_mem hn hd, le_rfl, fun _ => List.Subset.refl _⟩
  | member sub jti authVersion => exact ⟨rfl, rfl⟩

end Tokens

section Site

variable {α β : Type} {env : Environment} {s s' : Site} {l : List (Step Op)}

/-- What the authentication routes see of what they have written themselves. -/
theorem authentication_after {t : RefreshDatabase} (h : Kept s.authentication.base t.base) :
    (s.afterAuthentication t).authentication = t := by
  obtain ⟨base, refreshActivity⟩ := t
  obtain ⟨hidentifiers, hoperations, hstaff, hmembers, htypes⟩ := h
  obtain ⟨throttle, sessions, identifiers, operations, staffUsers, members, types, activity⟩ := base
  obtain rfl : identifiers = _ := hidentifiers
  obtain rfl : operations = _ := hoperations
  obtain rfl : staffUsers = _ := hstaff
  obtain rfl : members = _ := hmembers
  obtain rfl : types = _ := htypes
  rfl

theorem exec_authentication {op : RefreshOp β} {b : β} (h : exec env β (.inr op) s b s') :
    refreshExec env β op s.authentication b s'.authentication ∧ s'.staffUsers = s.staffUsers := by
  obtain ⟨t, ht, rfl⟩ := h
  rw [authentication_after (refreshExec_kept ht)]
  exact ⟨ht, rfl⟩

section Indexed

/-- No call of the account services breaks a unique index. -/
theorem accounts_indexed {op : Accounts.Op β} {s s' : Accounts.Store} {b : β}
    (hs : s.committed.Indexed) (h : Accounts.exec β op s b s') : s'.committed.Indexed := by
  rcases op with ⟨session, q⟩ | c | op
  · obtain ⟨-, rfl⟩ := h
    exact hs
  · cases c with
    | write session w =>
      cases session with
      | none =>
        obtain ⟨rfl, rfl⟩ := h
        exact Accounts.Database.wrote_indexed hs w
      | some n =>
        obtain ⟨t, -, -, rfl⟩ := h
        exact hs
    | startTransaction =>
      obtain ⟨-, rfl⟩ := h
      exact hs
    | commitTransaction n =>
      obtain ⟨t, -, -, hindexed, rfl⟩ := h
      exact of_decide_eq_true hindexed
    | abortTransaction n =>
      obtain rfl : s' = _ := h
      exact hs
  · obtain rfl : s' = s := h
    exact hs

theorem refreshExec_families {op : RefreshOp β} {t t' : RefreshDatabase} {b : β}
    (h : refreshExec env β op t b t') (hn : (t.base.sessions.families.map (·.familyId)).Nodup) :
    (t'.base.sessions.families.map (·.familyId)).Nodup := by
  have hkept : t'.base.sessions = t.base.sessions →
      (t'.base.sessions.families.map (·.familyId)).Nodup := by
    intro heq
    rwa [heq]
  rcases op with (op | op | op) | op
  · obtain ⟨base, ⟨throttle, -, rfl⟩, rfl⟩ := h
    exact hn
  · obtain ⟨base, ⟨sessions, ⟨-, hindexed⟩, rfl⟩, rfl⟩ := h
    have hunique := hindexed.familyId
    rwa [Documents.Unique, List.filterMap_eq_map'] at hunique
  · obtain ⟨base, hbase, rfl⟩ := h
    refine hkept ?_
    cases op with
    | findGateStatus =>
      obtain ⟨operation, -, -, rfl⟩ := hbase
      rfl
    | touchLastLogin | signAccessToken | recordActivity =>
      obtain rfl : base = _ := hbase
      rfl
    | _ =>
      obtain ⟨-, rfl⟩ := hbase
      rfl
  · refine hkept ?_
    cases op with
    | findStaffUser =>
      obtain ⟨-, rfl⟩ := h
      rfl
    | recordActivity =>
      obtain rfl : t' = _ := h
      rfl

theorem exec_indexed {op : Op β} {b : β} (hs : s.accounts.committed.Indexed)
    (h : exec env β op s b s') : s'.accounts.committed.Indexed := by
  rcases op with op | op
  · obtain ⟨t, ht, rfl⟩ := h
    exact accounts_indexed hs ht
  · obtain ⟨t, ht, rfl⟩ := h
    exact { hs with families := refreshExec_families ht hs.families }

end Indexed

section Requests

/-- What calls leave, one after the other: older accounts, and tokens that last. -/
structure Endured (s : Site) (l : List (Step Op)) (s' : Site) : Prop where
  indexed : s'.accounts.committed.Indexed
  ages : Ages s.staffUsers s'.staffUsers
  lasting : ∀ claims ∈ l.filterMap issued, Lasting s'.staffUsers claims

theorem Endured.trans {s₁ : Site} {l₁ l₂ : List (Step Op)} (h₁ : Endured s l₁ s₁)
    (h₂ : Endured s₁ l₂ s') : Endured s (l₁ ++ l₂) s' where
  indexed := h₂.indexed
  ages := h₁.ages.trans h₂.ages
  lasting claims hclaims := by
    rw [List.filterMap_append] at hclaims
    rcases List.mem_append.mp hclaims with hmem | hmem
    · exact (h₁.lasting claims hmem).ages h₂.ages
    · exact h₂.lasting claims hmem

/-- However its calls go, the handler leaves older accounts, and signs tokens that last. -/
def Endures (env : Environment) (x : Handler α) : Prop :=
  ∀ s l r s', s.accounts.committed.Indexed → Traces (exec env) fallible x.run s l r s' →
    Endured s l s'

namespace Endures

theorem pure (a : α) : Endures env (Pure.pure a) := by
  rintro s _ _ _ hs ⟨rfl, -, rfl⟩
  exact ⟨hs, .refl _, fun _ h => absurd h List.not_mem_nil⟩

theorem bind {x : Handler β} {f : β → Handler α} (hx : Endures env x)
    (hf : ∀ b, Endures env (f b)) : Endures env (x >>= f) := by
  intro s l r s' hs ht
  rcases traces_run_bind ht with ⟨e, -, hx'⟩ | ⟨b, s₁, l₁, l₂, hx', hf', rfl⟩
  · exact hx s l _ s' hs hx'
  · have h₁ := hx s l₁ _ s₁ hs hx'
    exact h₁.trans (hf b s₁ l₂ r s' h₁.indexed hf')

/-- Requests of the account services sign nothing. -/
theorem of_accounts {x : Accounts.Handler α} (hx : ∀ users : List Accounts.StaffUser,
    (users.map (·.id)).Nodup → Accounts.Outlasts AccessTokenClaims users x) :
    Endures env (ofAccounts x) := by
  intro s l r s' hs ht
  have hlift : Leads (exec env) fallible issued (fun scene s => scene.At s.accounts)
      (ofAccounts x).run (Accounts.Scene.outside s.staffUsers) fun l _ scene => l = [] ∧
        ∃ users', scene = .outside users' ∧ Ages s.staffUsers users' := by
    refine Leads.run_lift Site.accounts (fun _ => ()) () (fun _ _ => (and_iff_left rfl).symm) ?_ id
      (fun _ _ => rfl) ((hx s.staffUsers hs.staffUsers).blind fun _ => rfl) fun _ _ _ h => h
    rintro β op s s' b ⟨t, ht, rfl⟩
    exact ⟨ht, rfl⟩
  obtain ⟨_, hscene, hnil, users', rfl, hages⟩ := hlift s rfl l r s' ht
  obtain rfl : s'.staffUsers = users' := hscene
  refine ⟨ht.keeps (P := fun s => s.accounts.committed.Indexed) exec_indexed hs, hages, ?_⟩
  rw [hnil]
  exact fun _ h => absurd h List.not_mem_nil

theorem of_spares {x : Accounts.Handler α} (hx : x.run.Confined (Accounts.Spares none)) :
    Endures env (ofAccounts x) := of_accounts fun _ _ => .of_spares hx

/-- The authentication routes leave the accounts as they are, and sign what is granted. -/
theorem of_authentication {x : Refreshing α} {R : α → Prop}
    (hx : ∀ users, RefreshSigns env users x R) : Endures env (ofAuthentication x) := by
  intro s l r s' hs ht
  have hfallible : ∀ {β : Type} {op : RefreshOp β}, fallible β (authenticationOp op) →
      refreshFallible β op := fun h => h
  have hsee : ∀ {β : Type} (op : RefreshOp β) (o : Outcome β),
      issued ⟨authenticationOp op, o⟩ = refreshSigned ⟨op, o⟩ := by
    intro β op o
    rcases op with (op | op | op) | op
    · rfl
    · rfl
    · cases op with
      | _ => rfl
    · rfl
  have hsigns : Leads (refreshExec env) refreshFallible refreshSigned
      (fun users t => t.base.staffUsers = users) x.run (s.staffUsers.map (·.toStaffUser))
      fun l _ _ => ∀ claims ∈ l, Entitled (s.staffUsers.map (·.toStaffUser)) claims := by
    have hx' := hx (s.staffUsers.map (·.toStaffUser))
    rw [RefreshSigns, Steady] at hx'
    exact hx'.mono fun _ _ _ h => h.2.1
  have hlift : Leads (exec env) fallible issued
      (fun users s' => s'.authentication.base.staffUsers = users ∧ s'.staffUsers = s.staffUsers)
      (ofAuthentication x).run (s.staffUsers.map (·.toStaffUser)) fun l _ _ =>
        ∀ claims ∈ l, Entitled (s.staffUsers.map (·.toStaffUser)) claims := by
    exact Leads.run_lift Site.authentication Site.staffUsers s.staffUsers (fun _ _ => Iff.rfl)
      exec_authentication hfallible hsee hsigns fun _ _ _ h => h
  obtain ⟨_, ⟨-, hsame⟩, hgranted⟩ := hlift s ⟨rfl, rfl⟩ l r s' ht
  refine ⟨ht.keeps (P := fun s => s.accounts.committed.Indexed) exec_indexed hs, ?_,
    fun claims hclaims => ?_⟩
  · rw [hsame]
    exact .refl _
  · rw [hsame]
    exact lasting_of_entitled hs.staffUsers (hgranted claims hclaims)

end Endures

theorem logoutAll_endures (roleArea : AuthIdentifierSubjectType) (subjectId : String) :
    Endures env (logoutAll roleArea subjectId) := by
  have hrevoked : Endures env (ofAuthentication (ofSignIn (ofSessions
      (TokenSession.revokeSubject (Accounts.sessionSubject roleArea) subjectId "sign-out-all")))) :=
    .of_authentication fun _ => (Signs.quiet (unsigning_ofSessions _)).refreshing
  have hbumped : Endures env (ofAccounts (bumpAuthVersion roleArea subjectId)) := by
    cases roleArea with
    | staff => exact .of_accounts fun _ _ => Accounts.bumpAuthVersion_outlasts subjectId
    | member => exact .of_spares (Accounts.spares_bumpMember subjectId)
  exact .bind hrevoked fun _ => .bind hbumped fun _ => .of_spares (Accounts.spares_recordActivity _)

theorem refreshRoute_endures (request : SignIn.Request) :
    Endures env (ofAuthentication (refreshRoute env request)) :=
  .of_authentication fun _ => Steady.bind (Signs.quiet (unsigning_canActivate _)).refreshing
    fun _ _ => refresh_signs _

theorem handle_endures (request : Request) : Endures env (request.handle env) := by
  cases request with
  | createStaffUser dto actor =>
    exact .bind (.of_accounts fun _ _ => Accounts.create_outlasts dto actor) fun _ => .pure _
  | updateStaffUser dto actor id =>
    exact .bind (.of_accounts fun _ hn => Accounts.update_outlasts hn dto actor id) fun _ => .pure _
  | createMember dto actor =>
    exact .bind (.of_spares (Accounts.spares_createMember dto actor)) fun _ => .pure _
  | updateMember dto actor id =>
    exact .bind (.of_spares (Accounts.spares_updateMember dto actor id)) fun _ => .pure _
  | setMemberCredentials actor id loginIdentifier password =>
    exact .bind (.of_spares (Accounts.spares_setMemberCredentials actor id loginIdentifier password))
      fun _ => .pure _
  | signIn request =>
    exact .bind (.of_authentication fun _ => (signIn_signs request).refreshing) fun _ => .pure _
  | refresh request => exact .bind (refreshRoute_endures request) fun _ => .pure _
  | logoutAll roleArea subjectId => exact logoutAll_endures roleArea subjectId

end Requests

section Runs

variable {s₀ : Site} {tokens : List AccessTokenClaims}

/-- The unique indexes hold, and the staff have ids of the database. -/
structure Site.Sound (s : Site) : Prop where
  indexed : s.accounts.committed.Indexed
  ids : ∀ id d, account s.staffUsers id = some d → isCanonicalId id = true

theorem elapse_indexed (h : s.Elapse s') (hs : s.accounts.committed.Indexed) :
    s'.accounts.committed.Indexed := by
  obtain ⟨throttle, sessions, -, hsessions, rfl⟩ := h
  exact { hs with families := hs.families.sublist (hsessions.families.1.map _) }

theorem elapse_staffUsers (h : s.Elapse s') : s'.staffUsers = s.staffUsers := by
  obtain ⟨throttle, sessions, -, -, rfl⟩ := h
  rfl

/-- In every serial run every token lasts. -/
theorem SerialRun.lasting (h : SerialRun env s₀ tokens s) (hs₀ : s₀.Sound) :
    s.Sound ∧ ∀ claims ∈ tokens, Lasting s.staffUsers claims := by
  induction h with
  | start => exact ⟨hs₀, fun _ h => absurd h List.not_mem_nil⟩
  | @serve tokens s s' l r request _ served ih =>
    obtain ⟨hs, hlasting⟩ := ih
    have hendured := handle_endures request s l r s' hs.indexed served
    refine ⟨⟨hendured.indexed, fun id d hd => ?_⟩, fun claims hclaims => ?_⟩
    · cases hold : account s.staffUsers id with
      | some d' => exact hs.ids id d' hold
      | none => exact hendured.ages.ids id d hold hd
    · rcases List.mem_append.mp hclaims with hmem | hmem
      · exact (hlasting claims hmem).ages hendured.ages
      · exact hendured.lasting claims hmem
  | elapse _ later ih =>
    obtain ⟨hs, hlasting⟩ := ih
    have hsame := elapse_staffUsers later
    refine ⟨⟨elapse_indexed later hs.indexed, ?_⟩, ?_⟩
    · rw [hsame]
      exact hs.ids
    · rw [hsame]
      exact hlasting

end Runs

section Acceptance

variable {s₀ : Site} {tokens : List AccessTokenClaims} {claims : AccessTokenClaims}
  {iss : Option String} {aud : Option Audience}

theorem permissions_subset {permissions : List AuthPermission}
    (hscope : claims.scope = scopeOf claims.permissions) (hclaims : claims.permissions ⊆ permissions) :
    (PermissionsService.permissionsFromPayload (payloadOf claims iss aud)).getD permissions ⊆
      permissions := by
  rw [permissionsFromPayload_issued hscope]
  by_cases hnone : claims.permissions = []
  · rw [if_pos hnone]
    exact List.Subset.refl _
  · rw [if_neg hnone]
    exact hclaims

/-- What the account of a token permits at this moment, if it is active. -/
def Permitted (s : Site) (claims : AccessTokenClaims) (permissions : List AuthPermission) : Prop :=
  ∃ id, ObjectId.parse claims.sub = some id ∧ match claims.roleArea with
    | .staff => ∃ d, s.accounts.committed.staffUser id.1 = some d ∧ d.status = .active ∧
        permissions ⊆ permissionsForStaffRoles d.roles
    | .member => ∃ d, s.accounts.committed.member id.1 = some d ∧ d.status = .active ∧
        d.authStatus = some .active ∧ permissions ⊆ memberRolePermissions

/-- A token that was issued in the run is accepted for an active account only, and grants at
most what the account permits by then. -/
theorem no_privilege_retained (hs₀ : s₀.Sound) (hrun : SerialRun env s₀ tokens s)
    (hclaims : claims ∈ tokens) {l : List (Step Accounts.Op)} {user : RequestUser}
    {t : Accounts.Store} (haccepted : Traces Accounts.exec Accounts.fallible
      (JwtStrategy.validate (payloadOf claims iss aud)).run s.accounts l (.ok user) t) :
    Permitted s claims user.permissions := by
  obtain ⟨hs, hlasting⟩ := hrun.lasting hs₀
  obtain ⟨hscope, hlasts⟩ := hlasting claims hclaims
  rw [Permitted]
  cases harea : claims.roleArea with
  | staff =>
    rw [harea] at hlasts
    obtain ⟨d, hd, -, hpermissions⟩ := hlasts
    have hreads : Reads Unit s.accounts (JwtStrategy.validate (payloadOf claims iss aud)) _ :=
      validate_staff hs.indexed harea
    obtain ⟨_, -, -, -, hread⟩ := hreads s.accounts rfl l _ t haccepted
    obtain ⟨id, d', hid, hd', hactive, hversion, hgranted⟩ := hread user rfl
    have hcanonical := hs.ids _ d hd
    obtain rfl : id = ⟨claims.sub, hcanonical⟩ :=
      Option.some.inj (hid.symm.trans (ObjectId.parse_text ⟨claims.sub, hcanonical⟩))
    obtain rfl : d = d' := Option.some.inj (hd.symm.trans hd')
    refine ⟨_, hid, d, hd', hactive, ?_⟩
    rw [hgranted]
    exact permissions_subset hscope (hpermissions hversion.symm)
  | member =>
    rw [harea] at hlasts
    have hreads : Reads Unit s.accounts (JwtStrategy.validate (payloadOf claims iss aud)) _ :=
      validate_member hs.indexed harea
    obtain ⟨_, -, -, -, hread⟩ := hreads s.accounts rfl l _ t haccepted
    obtain ⟨id, d, hid, hd, hactive, hauth, hgranted⟩ := hread user rfl
    refine ⟨id, hid, d, hd, hactive, hauth, ?_⟩
    rw [hgranted]
    exact permissions_subset hscope (by rw [hlasts]; exact List.Subset.refl _)

end Acceptance

section Execution

/-- `exec` as a function. -/
def perform (env : Environment) (β : Type) (op : Op β) (s : Site)
    (x : Accounts.Choice × TokenSession.Draw) : Option (β × Site) :=
  match op with
  | .inl op => (Accounts.execute β op s.accounts x.1).map fun (b, t) => (b, { s with accounts := t })
  | .inr op =>
    (performRefresh env β op s.authentication x.2).map fun (b, t) => (b, s.afterAuthentication t)

theorem perform_exec {op : Op β} {x : Accounts.Choice × TokenSession.Draw} {b : β}
    (h : perform env β op s x = some (b, s')) : exec env β op s b s' := by
  rcases op with op | op
  · obtain ⟨⟨b', t⟩, hperform, heq⟩ := Option.map_eq_some_iff.mp h
    cases heq
    exact ⟨t, Accounts.execute_exec hperform, rfl⟩
  · obtain ⟨⟨b', t⟩, hperform, heq⟩ := Option.map_eq_some_iff.mp h
    cases heq
    exact ⟨t, performRefresh_exec hperform, rfl⟩

/-- One member of the staff, who has not signed in. -/
def oneAccount : Site where
  accounts := .init Accounts.oneStaffUser
  throttle := .empty 0
  markers := []
  clock := 0
  drawn := []
  membershipTypes := []
  activity := []
  refreshActivity := []

def adaSignsIn : SignIn.Request where
  route := .login
  sourceIdentity := "s"
  body := some ⟨.text "ada@library.local", .undefined, .undefined, .text "p", false⟩
  refreshCookie := none
  now := 0

/-- The sign-in, each of whose calls draws a text of its own. -/
def signedInSite : Option (List (Step Op) × Except Failure Unit × Site) :=
  trace (perform plain) (fun _ _ => false) (Accounts.drawsAnything, ⟨"", 0⟩)
    ((List.range 20).map fun n =>
      .reply (Accounts.drawsAnything, ⟨String.ofList (List.replicate (n + 1) 't'), 0⟩))
    ((Request.signIn adaSignsIn).handle plain).run oneAccount

def adaClaims : AccessTokenClaims where
  sub := Accounts.staffUserId.1
  jti := "tttttttt"
  roleArea := .staff
  scope := scopeOf (permissionsForStaffRoles [.staff])
  permissions := permissionsForStaffRoles [.staff]
  authVersion := 0

/-- The token of the sign-in is accepted right after it. -/
theorem no_privilege_retained_ada : ∃ s, ∃ user : RequestUser,
    SerialRun plain oneAccount [adaClaims] s ∧
    user.permissions = permissionsForStaffRoles [.staff] ∧ Permitted s adaClaims user.permissions := by
  have hrun : (signedInSite.bind fun (l, _, s) =>
      (trace Accounts.execute Accounts.fails Accounts.drawsAnything []
        (JwtStrategy.validate (payloadOf adaClaims none none)).run s.accounts).map fun (_, r, _) =>
          (l.filterMap issued, r.toOption.map (·.permissions))) =
      some ([adaClaims], some (permissionsForStaffRoles [.staff])) := by decide +kernel
  obtain ⟨⟨l, r, s⟩, hserved, hrest⟩ := Option.bind_eq_some_iff.mp hrun
  obtain ⟨⟨l', r', t⟩, hvalidated, hview⟩ := Option.map_eq_some_iff.mp hrest
  obtain ⟨hissued, hgranted⟩ := Prod.mk.inj hview
  have hserial : SerialRun plain oneAccount [adaClaims] s := by
    have hserve := SerialRun.serve (.signIn adaSignsIn) (@SerialRun.start plain oneAccount)
      (traces_of_trace perform_exec nofun hserved)
    rw [hissued] at hserve
    exact hserve
  cases r' with
  | error e => cases hgranted
  | ok user =>
    refine ⟨s, user, hserial, Option.some.inj hgranted, ?_⟩
    have hsound : oneAccount.Sound := by
      refine ⟨by decide, fun id d hd => ?_⟩
      have hd' := List.mem_singleton.mp (List.mem_of_find?_eq_some hd)
      rw [← Accounts.id_of_account hd, hd']
      exact Accounts.staffUserId.2
    exact no_privilege_retained hsound hserial List.mem_cons_self
      (traces_of_trace Accounts.execute_exec Accounts.fails_fallible hvalidated)

end Execution

end Site

end Access
