import BookLibrary.Accounts.Scenes

/-!
# Requests on accounts, one at a time

Each request of the account services leaves the accounts of the staff older, however its
calls go.
-/

namespace Accounts

open AuthIdentifiers Documents Interleaving SignIn

section Rules

variable {E α β : Type} {users : List StaffUser}

/-- The request ends outside of all transactions, and the accounts have aged. -/
def Outlasts (E : Type) {α : Type} (users : List StaffUser) (a : Handler α) : Prop :=
  Leads exec fallible (unseen : Step Op → Option E) Scene.At a.run (.outside users)
    fun _ _ x => ∃ users', x = .outside users' ∧ Ages users users'

namespace Outlasts

theorem of_spares {a : Handler α} (ha : a.run.Confined (Spares none)) : Outlasts E users a :=
  (spares_leads (x := .outside users) ha).mono fun _ _ _ h => ⟨users, h.2, .refl users⟩

/-- Calls that concern no account, and then the rest. -/
theorem spares_bind {a : Handler β} {f : β → Handler α} (ha : a.run.Confined (Spares none))
    (hf : ∀ b, Outlasts E users (f b)) : Outlasts E users (a >>= f) := by
  refine Leads.run_bind (spares_leads (x := .outside users) ha) ?_ ?_
  · rintro l b _ ⟨-, rfl⟩
    exact hf b
  · rintro l e _ ⟨-, rfl⟩
    exact ⟨users, rfl, .refl users⟩

theorem ite {c : Prop} [Decidable c] {a b : Handler α} (ha : c → Outlasts E users a)
    (hb : ¬ c → Outlasts E users b) : Outlasts E users (if c then a else b) := Leads.run_ite ha hb

/-- The calls that follow concern no account. -/
theorem then_spares {a : Handler β} {f : β → Handler α} (ha : Outlasts E users a)
    (hf : ∀ b, (f b).run.Confined (Spares none)) : Outlasts E users (a >>= f) := by
  refine Leads.run_bind ha ?_ fun l e x h => h
  rintro l b _ ⟨users', rfl, hages⟩
  refine (spares_leads (x := .outside users') (hf b)).mono fun _ _ _ h => ?_
  exact ⟨users', h.2, hages⟩

theorem of_moves {m : Hydrated StaffUser} {p : StaffUsersService.Working Unit}
    (hp : Moves E (.outside users) m p (Rests (fun _ _ => True) users)) :
    Outlasts E users (Keeping.keep m p) :=
  Leads.run_keep hp fun _ _ _ ⟨users', hx, hages, _⟩ => ⟨users', hx, hages⟩

theorem of_write {w : Write} (hw : w.Heeds users) : Outlasts E users (write none w) := by
  refine (write_leads (x := .outside users) w).mono ?_
  rintro _ _ _ ⟨users', hleaves, rfl⟩
  exact ⟨users', rfl, hleaves.ages hw⟩

end Outlasts

end Rules

section StaffUsers

open StaffUsersService

variable {E : Type} {env : Environment} {users : List StaffUser} {m : Hydrated StaffUser}

section Create

variable {email subjectId : String} {actorId : Option String}

/-- The document is new, or stored as it is in memory. -/
structure Fresh (m : Hydrated StaffUser) (users : List StaffUser) : Prop where
  id : isCanonicalId m.now.id = true
  stored : m.isNew = true ∨ m.loaded = m.now

theorem Fresh.heeds (h : Fresh m users) : m.write.Heeds users := by
  rw [Hydrated.write]
  by_cases hnew : m.isNew = true
  · rw [if_pos hnew]
    exact heeds_insert users h.id
  · rw [if_neg hnew, h.stored.resolve_left hnew]
    refine heeds_save fun stored _ => ?_
    rw [saved_self]
    exact .refl stored

theorem createWithIdentifier_moves (n : ℕ) (hm : Fresh m users) :
    Moves E (.inside n users users) m (createWithIdentifier email subjectId actorId n)
      (Calls Fresh n users) := by
  refine Moves.spares_bind (x := .inside n users users) spares_reserve (fun _ => ?_)
    fun e => ⟨users, rfl, hm, nofun⟩
  refine save_moves (x := .inside n users users) (fun users' hleaves => ?_) fun e users' hleaves => ?_
  · exact ⟨users', rfl, ⟨hm.id, .inr rfl⟩, fun _ => ⟨hleaves.ages hm.heeds, hm.id, .inr rfl⟩⟩
  · exact ⟨users', rfl, hm, nofun⟩

theorem createWithoutTransaction_moves (hm : Fresh m users) :
    Moves E (.outside users) m (createWithoutTransaction email subjectId actorId)
      (Rests (fun _ _ => True) users) := by
  refine Moves.spares_bind (x := .outside users) spares_reserve (fun _ => ?_)
    fun e => ⟨users, rfl, .refl users, trivial⟩
  refine Moves.tryCatch (R := Rests (fun _ _ => True) users)
    (save_moves (x := .outside users) (fun users' hleaves => ?_) fun e users' hleaves => ?_)
    (fun _ _ _ h => h) ?_
  · exact ⟨users', rfl, hleaves.ages hm.heeds, trivial⟩
  · exact ⟨users', rfl, hleaves.ages hm.heeds, trivial⟩
  · rintro e m' _ ⟨users', rfl, hages, -⟩
    exact Moves.spares_bind (x := .outside users') spares_release
      (fun _ => Moves.throw ⟨users', rfl, hages, trivial⟩) fun e => ⟨users', rfl, hages, trivial⟩

theorem create_outlasts (dto : CreateStaffUserDto) (actor : Option AuditActor) :
    Outlasts E users (create env dto actor) := by
  have hroles : (validateRoles dto.roles).run.Confined (Spares none) :=
    .run_ite (fun _ => .run_throw) fun _ => .run_pure
  refine .spares_bind hroles fun roles => .spares_bind (spares_find _) fun taken => ?_
  refine .ite (fun _ => .of_spares .run_throw) fun _ => ?_
  refine .spares_bind (spares_draw _) fun passwordHash => ?_
  refine .spares_bind (spares_draw _) fun id => .spares_bind (spares_draw _) fun date => ?_
  refine .then_spares (.of_moves ?_) fun _ => .run_pure
  exact persistWithIdentifier_moves (I := Fresh)
    (fun n _ _ hm => createWithIdentifier_moves n hm) (fun _ _ hm => createWithoutTransaction_moves hm)
    ⟨id.2, .inl rfl⟩

end Create

section Update

variable {dto : UpdateStaffUserDto} {actor : Option AuditActor} {user : StaffUser}
  {nextRoles : List StaffRole}

theorem permissions_of_sameRoles {left right : List StaffRole} (h : sameRoles left right = true) :
    permissionsForStaffRoles left ⊆ permissionsForStaffRoles right := by
  have hsort : left.mergeSort precedes = right.mergeSort precedes := of_decide_eq_true h
  intro permission hp
  simp only [permissionsForStaffRoles, List.mem_eraseDups, List.mem_flatMap] at hp ⊢
  obtain ⟨role, hrole, hp⟩ := hp
  refine ⟨role, ?_, hp⟩
  have hmem : role ∈ left.mergeSort precedes := List.mem_mergeSort.mpr hrole
  rw [hsort] at hmem
  exact List.mem_mergeSort.mp hmem

/-- The account in memory, whose loaded version nobody has passed. -/
def Keeps (user : StaffUser) (m : Hydrated StaffUser) (users : List StaffUser) : Prop :=
  Tracks user.id m ∧ Behind users user.id (m.loaded.authVersion.getD 0)

/-- The edits of a change that raises the version, and the save of them. -/
theorem edit_moves {x : Scene} {session : Option ℕ} {rest : Working Unit}
    {Q : Except Failure Unit → Hydrated StaffUser → Scene → Prop} (hsession : x.session = session)
    (hm : Keeps user m x.users)
    (hchanged : securityChanged env dto user nextRoles = true)
    (hok : ∀ m' users', Keeps user m' x.users → Keeps user m' users' → Ages x.users users' →
      Moves E (x.seeing users') m' rest Q)
    (herr : ∀ e m' users', Keeps user m' x.users → Ages x.users users' →
      Q (.error e) m' (x.seeing users')) :
    Moves E x m (do
      modify (applyUpdates env dto actor user nextRoles)
      save session
      rest) Q := by
  subst hsession
  obtain ⟨htracks, hlt⟩ := applyUpdates_tracks env dto actor user nextRoles hm.1
  have hraise := hlt hchanged
  rw [Moves, Keeping.runFrom_modify_bind]
  have hwrite : (applyUpdates env dto actor user nextRoles m).write =
      .saveStaffUser m.loaded (applyUpdates env dto actor user nextRoles m).now :=
    if_neg (by rw [htracks.old]; rintro ⟨⟩)
  have hbehind : Behind x.users m.loaded.id (m.loaded.authVersion.getD 0) := by
    rw [hm.1.loaded]
    exact hm.2
  have hages : ∀ {users'}, (applyUpdates env dto actor user nextRoles m).write.Leaves x.users users' →
      Ages x.users users' := by
    intro users' h
    rw [hwrite] at h
    exact h.ages (heeds_raise hbehind hraise)
  refine Moves.bind (R := fun r m' x' => ∃ users', x' = x.seeing users' ∧ Ages x.users users' ∧
      Keeps user m' x.users ∧ (r = .ok () → Keeps user m' users'))
    (save_moves (fun users' hleaves => ?_) fun e users' hleaves => ?_) ?_ ?_
  · -- the save has returned, and what is in memory passes for saved
    refine ⟨users', rfl, hages hleaves, ⟨⟨rfl, htracks.now, htracks.now, .inl rfl⟩, ?_⟩, fun _ =>
      ⟨⟨rfl, htracks.now, htracks.now, .inl rfl⟩, ?_⟩⟩
    · exact fun d hd => (hm.2 d hd).trans hraise.le
    · rw [hwrite] at hleaves
      rcases hleaves with rfl | ⟨v, hv, rfl⟩
      · exact fun d hd => (hm.2 d hd).trans hraise.le
      · rw [← hm.1.loaded]
        exact behind_save (hv ▸ hbehind) hraise
  · exact ⟨users', rfl, hages hleaves, ⟨htracks, hm.2⟩, (by rintro ⟨⟩)⟩
  · rintro _ m' _ ⟨users', rfl, hages, hbase, hm'⟩
    exact hok m' users' hbase (hm' rfl) hages
  · rintro e m' _ ⟨users', rfl, hages, hbase, -⟩
    exact herr e m' users' hbase hages

theorem securityChanged_of_email (h : emailChanged env dto user = true) :
    securityChanged env dto user nextRoles = true := by
  rw [securityChanged, h, Bool.or_true]

theorem changeWithIdentifier_moves (hc : emailChanged env dto user = true) (n : ℕ)
    (hm : Keeps user m users) :
    Moves E (.inside n users users) m (changeWithIdentifier env dto actor user nextRoles n)
      (Calls (Keeps user) n users) := by
  refine Moves.spares_bind (x := .inside n users users) spares_reserve (fun _ => ?_)
    fun e => ⟨users, rfl, hm, nofun⟩
  refine edit_moves (x := .inside n users users) rfl hm (securityChanged_of_email hc)
    (fun m' users' hbase hm' hages => ?_) fun e m' users' hbase _ => ⟨users', rfl, hbase, nofun⟩
  exact Moves.spares (x := .inside n users users') spares_release
    fun r => ⟨users', rfl, hbase, fun _ => ⟨hages, hm'⟩⟩

theorem changeWithoutTransaction_moves (hc : emailChanged env dto user = true)
    (hm : Keeps user m users) :
    Moves E (.outside users) m (changeWithoutTransaction env dto actor user nextRoles)
      (Rests (fun _ _ => True) users) := by
  refine Moves.spares_bind (x := .outside users) spares_reserve (fun _ => ?_)
    fun e => ⟨users, rfl, .refl users, trivial⟩
  refine Moves.tryCatch (R := Rests (fun _ _ => True) users)
    (edit_moves (x := .outside users) rfl hm (securityChanged_of_email hc)
      (fun m' users' _ _ hages => ?_) fun e m' users' _ hages => ⟨users', rfl, hages, trivial⟩)
    (fun _ _ _ h => h) ?_
  · exact Moves.spares (x := .outside users') spares_release
      fun r => ⟨users', rfl, hages, trivial⟩
  · rintro e m' _ ⟨users', rfl, hages, -⟩
    exact Moves.spares_bind (x := .outside users') spares_release
      (fun _ => Moves.throw ⟨users', rfl, hages, trivial⟩) fun e => ⟨users', rfl, hages, trivial⟩

theorem keeps_found (h : account users user.id = some user) :
    Keeps user ⟨user, user, false⟩ users := by
  refine ⟨⟨rfl, rfl, rfl, .inl rfl⟩, fun d hd => ?_⟩
  rw [h] at hd
  cases hd
  exact le_rfl

/-- Edits that leave the version alone leave the roles in another order at most. -/
theorem succeeds_edited (env : Environment) (dto : UpdateStaffUserDto) (actor : Option AuditActor)
    (user : StaffUser) (nextRoles : List StaffRole) :
    Succeeds user (applyUpdates env dto actor user nextRoles ⟨user, user, false⟩).now := by
  obtain ⟨-, hlt⟩ := applyUpdates_tracks env dto actor user nextRoles
    (m := ⟨user, user, false⟩) ⟨rfl, rfl, rfl, .inl rfl⟩
  by_cases hchanged : securityChanged env dto user nextRoles = true
  · exact .of_lt (hlt hchanged)
  · have hversion : (applyUpdates env dto actor user nextRoles ⟨user, user, false⟩).now.authVersion =
        user.authVersion := if_neg hchanged
    refine ⟨by rw [hversion], fun _ => permissions_of_sameRoles ?_⟩
    simp only [securityChanged, Bool.or_eq_true, not_or, rolesChanged, Bool.not_eq_true',
      Bool.not_eq_false] at hchanged
    exact hchanged.1.1

/-- The save of an update that leaves the e-mail address alone. -/
theorem saveOther_moves (h : account users user.id = some user) :
    Moves E (.outside users) ⟨user, user, false⟩ (do
      modify (applyUpdates env dto actor user nextRoles)
      save none) (Rests (fun _ _ => True) users) := by
  rw [Moves, Keeping.runFrom_modify_bind]
  have hheeds : (applyUpdates env dto actor user nextRoles ⟨user, user, false⟩).write.Heeds users := by
    refine heeds_save fun stored hstored => ?_
    obtain rfl : user = stored := Option.some.inj (h.symm.trans hstored)
    exact (succeeds_edited env dto actor user nextRoles).congr (sent_loaded _ _) (sent_loaded _ _)
  exact save_moves (x := .outside users)
    (fun users' hleaves => ⟨users', rfl, hleaves.ages hheeds, trivial⟩)
    fun e users' hleaves => ⟨users', rfl, hleaves.ages hheeds, trivial⟩

theorem account_of_mem (hn : (users.map (·.id)).Nodup) (h : user ∈ users) :
    account users user.id = some user := by
  cases hfind : account users user.id with
  | none => simpa using List.find?_eq_none.mp hfind user h
  | some d =>
    exact congrArg some (List.inj_on_of_nodup_map hn (List.mem_of_find?_eq_some hfind) h
      (id_of_account hfind))

/-- The user that is found is the account under its id. -/
theorem findDocumentById_leads (hn : (users.map (·.id)).Nodup) (id : String) :
    Leads exec fallible (unseen : Step Op → Option E) Scene.At (findDocumentById id).run
      (.outside users) fun _ r x => x = .outside users ∧
        ∀ user, r = .ok user → account users user.id = some user := by
  have hid : (toMongoObjectId id "id").run.Confined (Spares none) := confined_toMongoObjectId _ _
  refine Leads.run_bind (spares_leads (x := .outside users) hid) ?_ fun l e x h => ⟨h.2, nofun⟩
  rintro l id' _ ⟨-, rfl⟩
  refine Leads.run_bind (R := fun _ r x => x = .outside users ∧
    ∀ found, r = .ok found → ∀ user, found = some user → account users user.id = some user)
    ?_ ?_ fun l e x h => ⟨h.1, nofun⟩
  · refine Leads.call fun s hs o s₁ hgoes => ⟨.outside users, ?_, ?_⟩
    · have hspares : Spares (Scene.outside users).session _ (.inl (none, .findStaffUser id')) := trivial
      exact goes_spares hspares hs hgoes
    · cases o with
      | answered found =>
        obtain ⟨⟨v, hv, hfound⟩, -⟩ := hgoes
        cases hv
        refine Leads.done ⟨rfl, ?_⟩
        rintro _ ⟨⟩ user rfl
        have hmem : user ∈ users := hs ▸ hfound.1
        exact account_of_mem hn hmem
      | threw r =>
        refine Leads.call fun s hs o s₁ hgoes => ⟨_, ?_, Leads.done ⟨rfl, nofun⟩⟩
        rw [goes_draw hgoes]
        exact hs
  · rintro l found _ ⟨rfl, hfound⟩
    cases found with
    | none => exact Leads.run_throw ⟨rfl, nofun⟩
    | some user =>
      refine Leads.run_pure ⟨rfl, ?_⟩
      rintro _ ⟨⟩
      exact hfound _ rfl user rfl

theorem spares_recordChanges (now : StaffUser) :
    (recordChanges dto actor user nextRoles now).run.Confined (Spares none) :=
  .run_ite (fun _ => .run_bind (spares_recordActivity _) fun _ =>
      .run_ite (fun _ => spares_recordActivity _) fun _ => .run_pure)
    fun _ => .run_ite (fun _ => spares_recordActivity _) fun _ => .run_pure

/-- The update from where the new roles are known. -/
theorem finishUpdate_outlasts (huser : account users user.id = some user) :
    Outlasts E users (do
      let saved ← Keeping.keep ⟨user, user, false⟩
        (if emailChanged env dto user then persistIdentifierChange env dto actor user nextRoles
        else do
          modify (applyUpdates env dto actor user nextRoles)
          save none)
      if securityChanged env dto user nextRoles then
        revokeSessions .staff user.id "staff-account-updated"
      recordChanges dto actor user nextRoles saved.now
      return toResponse saved.now : Handler StaffUserResponseDto) := by
  refine .then_spares (.of_moves ?_) fun saved => ?_
  · by_cases hc : emailChanged env dto user = true
    · rw [if_pos hc]
      exact persistWithIdentifier_moves (I := Keeps user)
        (fun n _ _ hm => changeWithIdentifier_moves hc n hm)
        (fun _ _ hm => changeWithoutTransaction_moves hc hm) (keeps_found huser)
    · rw [if_neg hc]
      exact saveOther_moves huser
  · exact .run_ite (fun _ => .run_bind spares_revokeSessions fun _ =>
        .run_bind (spares_recordChanges _) fun _ => .run_pure)
      fun _ => .run_bind (spares_recordChanges _) fun _ => .run_pure

theorem update_outlasts (hn : (users.map (·.id)).Nodup) (dto : UpdateStaffUserDto)
    (actor : Option AuditActor) (id : String) : Outlasts E users (update env dto actor id) := by
  refine Leads.run_bind (findDocumentById_leads hn id) ?_ ?_
  · rintro l user _ ⟨rfl, hfound⟩
    have hfinish : ∀ nextRoles, Outlasts E users _ := fun nextRoles =>
      @finishUpdate_outlasts E env users dto actor user nextRoles (hfound user rfl)
    cases dto.roles with
    | none => exact hfinish user.roles
    | some roles =>
      exact Outlasts.spares_bind (.run_ite (fun _ => .run_throw) fun _ => .run_pure) hfinish
  · rintro l e _ ⟨rfl, -⟩
    exact ⟨users, rfl, .refl users⟩

end Update

theorem bumpAuthVersion_outlasts (id : String) : Outlasts E users (bumpAuthVersion id) := by
  refine .spares_bind (confined_toMongoObjectId _ _) fun id' => ?_
  exact .then_spares (.of_write (heeds_bump users id')) fun _ => .run_pure

end StaffUsers

section Members

open MembersService

variable {α : Type} {env : Environment} {member : Member} {actor : Option AuditActor}

theorem spares_forIdentifier {identifier : Option String} {f : String → Handler Unit}
    (hf : ∀ identifier, (f identifier).run.Confined (Spares none)) :
    (forIdentifier identifier f).run.Confined (Spares none) := by
  cases identifier with
  | none => exact .run_pure
  | some identifier => exact .run_ite (fun _ => .run_pure) fun _ => hf identifier

theorem spares_findMember (id : String) : (findDocumentById id).run.Confined (Spares none) := by
  refine .run_bind (confined_toMongoObjectId _ _) fun id' => .run_bind (spares_find _) fun found => ?_
  cases found with
  | some member => exact .run_pure
  | none => exact .run_throw

theorem spares_validateActivePolicy (id : String) :
    (validateActivePolicy id).run.Confined (Spares none) := by
  refine .run_bind (confined_toMongoObjectId _ _) fun id' => .run_bind (spares_find _) fun found => ?_
  cases found with
  | none => exact .run_throw
  | some membershipType => exact .run_ite (fun _ => .run_pure) fun _ => .run_throw

theorem spares_saveMember (loaded now : Member) : (save loaded now).run.Confined (Spares none) := by
  refine .run_bind (perform_confined ⟨rfl, trivial⟩ trivial) fun r => ?_
  cases r with
  | written docs => exact .run_pure
  | unmatched => exact .run_throw
  | duplicateKey => exact spares_raiseDuplicateKey

theorem spares_recordMemberChange (identifierChanged statusChanged : Bool) :
    (recordMemberChange member actor identifierChanged statusChanged).run.Confined (Spares none) :=
  .run_ite (fun _ => .run_bind (spares_recordActivity _) fun _ =>
      .run_ite (fun _ => spares_recordActivity _) fun _ => .run_pure)
    fun _ => .run_ite (fun _ => spares_recordActivity _) fun _ => .run_pure

theorem spares_createMember (dto : CreateMemberDto) (actor : Option AuditActor) :
    (MembersService.create env dto actor).run.Confined (Spares none) := by
  refine .run_bind (spares_validateActivePolicy _) fun _ => .run_bind (spares_find _) fun taken => ?_
  refine .run_ite (fun _ => .run_throw) fun _ => .run_bind (spares_draw _) fun id => ?_
  refine .run_bind (perform_confined ⟨rfl, trivial⟩ trivial) fun r => ?_
  cases r with
  | duplicateKey => exact spares_raiseDuplicateKey
  | written docs | unmatched => exact .run_pure

/-- A condition on which further calls are made before the rest. -/
theorem spares_if {c : Prop} [Decidable c] {x : Handler PUnit} {f : PUnit → Handler α}
    (hx : x.run.Confined (Spares none)) (hf : (f ⟨⟩).run.Confined (Spares none)) :
    (if c then x >>= f else f ⟨⟩).run.Confined (Spares none) :=
  .run_ite (fun _ => .run_bind hx fun _ => hf) fun _ => hf

theorem spares_persistMember (dto : UpdateMemberDto) :
    (persist env dto actor member).run.Confined (Spares none) := by
  refine .run_bind (spares_saveMember _ _) fun saved => ?_
  refine spares_if (spares_forIdentifier fun _ => spares_release) ?_
  refine spares_if spares_revokeSessions ?_
  exact .run_bind (spares_recordMemberChange _ _) fun _ => .run_pure

theorem spares_updateMember (dto : UpdateMemberDto) (actor : Option AuditActor) (id : String) :
    (MembersService.update env dto actor id).run.Confined (Spares none) := by
  refine .run_bind (spares_findMember id) fun member => ?_
  refine spares_if (spares_forIdentifier fun _ => spares_reserve) ?_
  have htry : (tryCatch (persist env dto actor member) fun error => do
      if emailChanged env dto member then
        forIdentifier (nextEmail env dto) fun nextEmail =>
          releaseIdentifier nextEmail member.id (actor.map (·.id))
      throw error : Handler _).run.Confined (Spares none) :=
    .run_tryCatch (spares_persistMember dto) fun error =>
      spares_if (spares_forIdentifier fun _ => spares_release) .run_throw
  cases dto.membershipTypeId with
  | none => exact htry
  | some id => exact .run_bind (spares_validateActivePolicy id) fun _ => htry

theorem spares_setMemberCredentials (actor : Option AuditActor)
    (id loginIdentifier password : String) :
    (MembersService.setMemberCredentials env actor id loginIdentifier password).run.Confined
      (Spares none) := by
  refine .run_bind (spares_findMember id) fun member => .run_bind (spares_find _) fun taken => ?_
  refine .run_ite (fun _ => .run_throw) fun _ => .run_bind spares_reserve fun _ => ?_
  refine .run_bind (spares_draw _) fun passwordHash => .run_bind (spares_draw _) fun date => ?_
  refine .run_tryCatch (.run_bind (spares_saveMember _ _) fun saved => ?_)
    fun error => .run_bind spares_release fun _ => .run_throw
  refine spares_if (spares_forIdentifier fun _ => spares_release) ?_
  exact .run_bind spares_revokeSessions fun _ =>
    .run_bind (spares_recordMemberChange _ _) fun _ => .run_pure

theorem spares_bumpMember (id : String) :
    (MembersService.bumpAuthVersion id).run.Confined (Spares none) := by
  refine .run_bind (confined_toMongoObjectId _ _) fun id' =>
    .run_bind (perform_confined ⟨rfl, trivial⟩ trivial) fun r => ?_
  cases r with
  | unmatched => exact .run_throw
  | written docs | duplicateKey => exact .run_pure

end Members

end Accounts
