import BookLibrary.SignIn.Execution
import BookLibrary.SignIn.Gate

/-!
# Whom an identifier signs in

A reservation says whose an identifier is; the account is then looked for once more, by the
fields that may carry the identifier.
-/

namespace SignIn

open AuthIdentifiers Documents Interleaving

variable {env : Environment}

/-- What `createSharedSession` does before it builds the session. -/
def authenticate (env : Environment) (dto : SharedLoginDto) : Handler (StaffAuth ⊕ MemberAuth) := do
  let identifier := normalizeSharedIdentifier env dto.identifier
  let password := dto.password.getD ""
  let reservation ← passGate env identifier
  match reservation.subjectType with
  | .staff =>
    let staffAuth ← authenticateReservedStaff env identifier password reservation.subjectId
    return .inl staffAuth
  | .member =>
    let memberAuth ← authenticateReservedMember env identifier password reservation.subjectId
    return .inr memberAuth

/-- What `createSharedSession` does with the account that has signed in. -/
def openSession (env : Environment) : StaffAuth ⊕ MemberAuth → Handler SharedAuthSessionResult
  | .inl staffAuth => do
    let response ← buildStaffLoginResponse env staffAuth
    let (refreshToken, refreshExpiresAt) ← createRefreshToken env .staff staffAuth.user.id
      staffAuth.permissions staffAuth.authVersion
    recordSuccess .staff staffAuth.user.id
    return ⟨response, refreshToken, refreshExpiresAt⟩
  | .inr memberAuth => do
    let response ← buildMemberLoginResponse env memberAuth
    let (refreshToken, refreshExpiresAt) ← createRefreshToken env .member memberAuth.member.id
      memberAuth.permissions memberAuth.authVersion
    recordSuccess .member memberAuth.member.id
    return ⟨response, refreshToken, refreshExpiresAt⟩

theorem createSharedSession_authenticate (dto : SharedLoginDto) :
    ∃ f, createSharedSession env dto = authenticate env dto >>= f := by
  refine ⟨openSession env, ?_⟩
  rw [createSharedSession, authenticate, passGate]
  simp only [bind_assoc]
  refine congrArg _ (funext fun reservation => ?_)
  cases reservation with
  | none =>
    simp only [denySharedSignIn, bind_assoc]
    rfl
  | some reservation =>
    simp only [bind_assoc, pure_bind]
    refine congrArg _ (funext fun _ => ?_)
    cases hsubject : reservation.subjectType with
    | staff =>
      simp only [bind_assoc, pure_bind]
      rfl
    | member =>
      simp only [bind_assoc, pure_bind]
      rfl

/-- The filter by which `findByLoginIdentifierWithPassword` looks for the member. -/
def Matches (env : Environment) (identifier : String) (d : Member) : Prop :=
  d.loginIdentifier = some (env.toLowerCase (env.trim identifier)) ∨
    d.memberNumber = env.toUpperCase (env.trim identifier) ∨
    d.email = some (env.toLowerCase (env.trim identifier))

/-- The identifier has an ungated active reservation for the member, who is active, carries it and
has the password. -/
structure Holds (env : Environment) (s : Database) (dto : SharedLoginDto) (m : Member) : Prop where
  reservations : (s.identifiers.map (·.normalizedIdentifier)).Nodup
  ids : (s.members.map (·.id)).Nodup
  identifier : normalizeSharedIdentifier env dto.identifier ≠ ""
  reserved : ∃ r ∈ s.identifiers,
    r.normalizedIdentifier = normalizeSharedIdentifier env dto.identifier ∧ r.status = .active ∧
      r.subjectType = some .member ∧ r.subjectId = some m.id ∧ r.activationGateOperationId = none
  stored : m ∈ s.members
  named : m.id ≠ ""
  carries : Matches env (normalizeSharedIdentifier env dto.identifier) m
  active : m.status = .active ∧ m.authStatus = some .active
  password : m.passwordHash.getD "" ≠ "" ∧
    env.verify (m.passwordHash.getD "") (dto.password.getD "") = true

/-- The databases that show the reservations and the members of `s`. -/
def Alike (s : Database) : Set Database :=
  {s' | s'.identifiers = s.identifiers ∧ s'.members = s.members}

/-- No call throws. -/
def NoFault (β : Type) (_ : Op β) : Prop := False

/-- Whatever the calls find, the identifier is resolved to the member. -/
def ResolvesTo (env : Environment) (s : Database) (dto : SharedLoginDto) (m : Member) : Prop :=
  (authenticate env dto).Ends (Found env (Alike s)) NoFault fun r =>
    ∃ auth : MemberAuth, r = .ok (.inr auth) ∧ auth.member = m

variable {s : Database} {dto : SharedLoginDto} {m : Member}

theorem passGate_resolves (h : Holds env s dto m) :
    (passGate env (normalizeSharedIdentifier env dto.identifier)).Ends (Found env (Alike s)) NoFault
      fun r => r = .ok ⟨.member, m.id, none⟩ := by
  obtain ⟨r, hr, hname, hactive, htype, hsubject, hgate⟩ := h.reserved
  have hresolve : (resolveSharedIdentifier env (normalizeSharedIdentifier env dto.identifier)).Ends
      (Found env (Alike s)) NoFault fun r => r = .ok (some ⟨.member, m.id, none⟩) := by
    rw [resolveSharedIdentifier, if_neg h.identifier]
    refine .call (fun b hb => ?_) (by rintro ⟨⟩)
    obtain ⟨s', hs', s'', hfound, -⟩ := hb
    rw [hs'.1] at hfound
    cases b with
    | none =>
      have hfalse := hfound r hr
      simp [hname] at hfalse
    | some r' =>
      have hname' : r'.normalizedIdentifier = normalizeSharedIdentifier env dto.identifier :=
        of_decide_eq_true hfound.2
      obtain rfl := List.inj_on_of_nodup_map h.reservations hfound.1 hr (hname'.trans hname.symm)
      simp only [hactive, htype, hsubject, hgate, if_neg h.named]
      exact .pure rfl
  refine .bind hresolve (fun reservation heq => ?_) (by rintro _ ⟨⟩)
  cases heq
  exact .bind (.pure (Q := fun r => r = .ok ()) rfl) (fun _ _ => .pure rfl) (by rintro _ ⟨⟩)

/-- What the password is checked of is the member that the second query has found. -/
theorem authenticateReservedMember_finds (h : Holds env s dto m)
    (honly : ∀ d ∈ s.members, Matches env (normalizeSharedIdentifier env dto.identifier) d → d = m) :
    (authenticateReservedMember env (normalizeSharedIdentifier env dto.identifier)
      (dto.password.getD "") m.id).Ends (Found env (Alike s)) NoFault
        fun r => ∃ auth : MemberAuth, r = .ok auth ∧ auth.member = m := by
  refine .call (fun b hb => ?_) nofun
  obtain ⟨s', hs', s'', hfound, -⟩ := hb
  rw [hs'.2] at hfound
  cases b with
  | none =>
    have hfalse := hfound m h.stored
    rcases h.carries with hlogin | hnumber | hemail
    · simp [hlogin] at hfalse
    · simp [hnumber] at hfalse
    · simp [hemail] at hfalse
  | some d =>
    obtain ⟨hd, hmatches⟩ := hfound
    obtain rfl : d = m := by
      refine honly d hd ?_
      simpa [Matches, or_assoc] using hmatches
    simp only
    rw [if_pos ⟨trivial, h.active.1, h.active.2, h.password.1⟩]
    refine .call (fun b hb => ?_) nofun
    obtain ⟨-, -, -, rfl, -⟩ := hb
    rw [if_pos h.password.2]
    exact .call (fun _ _ => .pure ⟨_, rfl, rfl⟩) nofun

/-- The reservation is found, and passes. -/
theorem passGate_passes (h : Holds env s dto m) {α : Type} {f : ActiveReservation → Handler α}
    {Q : Except HttpFailure α → Prop}
    (hends : (passGate env (normalizeSharedIdentifier env dto.identifier) >>= f).Ends
      (Found env (Alike s)) NoFault Q) :
    (f ⟨.member, m.id, none⟩).Ends (Found env (Alike s)) NoFault Q := by
  obtain ⟨r, hr, hname, hactive, htype, hsubject, hgate⟩ := h.reserved
  rw [passGate, resolveSharedIdentifier, if_neg h.identifier] at hends
  simp only [bind_assoc] at hends
  have hfound : Found env (Alike s) _ (.inr (.inr (.findReservation
      (normalizeSharedIdentifier env dto.identifier)))) (some r) :=
    ⟨s, ⟨rfl, rfl⟩, s, ⟨hr, decide_eq_true hname⟩, rfl⟩
  have hpassed := hends.answered hfound
  simp only [hactive, htype, hsubject, hgate, if_neg h.named, pure_bind,
    assertActivationGateCompleted] at hpassed
  exact hpassed

/-- Another member who matches may be found in place of the one, and is turned away. -/
theorem authenticateReservedMember_misses {d : Member} (hd : d ∈ s.members)
    (hmatches : Matches env (normalizeSharedIdentifier env dto.identifier) d) (hne : d.id ≠ m.id)
    {α : Type} {f : MemberAuth → Handler α} {Q : Except HttpFailure α → Prop}
    (h : (authenticateReservedMember env (normalizeSharedIdentifier env dto.identifier)
      (dto.password.getD "") m.id >>= f).Ends (Found env (Alike s)) NoFault Q) :
    Q (.error .unauthorized) := by
  rw [authenticateReservedMember] at h
  simp only [bind_assoc] at h
  have hanswer : Found env (Alike s) _ (.inr (.inr (.findMemberByLogin
      (env.toLowerCase (env.trim (normalizeSharedIdentifier env dto.identifier)))
      (env.toUpperCase (env.trim (normalizeSharedIdentifier env dto.identifier)))))) (some d) := by
    refine ⟨s, ⟨rfl, rfl⟩, s, ⟨hd, ?_⟩, rfl⟩
    simpa [Matches, or_assoc] using hmatches
  have hdenied := h.answered hanswer
  simp only [hne, false_and, if_false, denySharedSignIn, recordFailedSignIn, bind_assoc] at hdenied
  exact hdenied.1 () ⟨s, ⟨rfl, rfl⟩, _, rfl⟩

/-- Where the member is always found, nobody else matches. -/
theorem ResolvesTo.only (hresolves : ResolvesTo env s dto m) (h : Holds env s dto m) :
    ∀ d ∈ s.members, Matches env (normalizeSharedIdentifier env dto.identifier) d → d = m := by
  intro d hd hmatches
  by_contra hne
  have hids : d.id ≠ m.id := fun hid => hne (List.inj_on_of_nodup_map h.ids hd h.stored hid)
  -- the gate is passed, and the query finds the other member
  have hends := passGate_passes h hresolves
  obtain ⟨auth, heq, -⟩ := authenticateReservedMember_misses hd hmatches hids hends
  cases heq

theorem Holds.resolvesTo (h : Holds env s dto m)
    (honly : ∀ d ∈ s.members, Matches env (normalizeSharedIdentifier env dto.identifier) d → d = m) :
    ResolvesTo env s dto m := by
  refine .bind (passGate_resolves h) (fun reservation heq => ?_) nofun
  cases heq
  refine .bind (authenticateReservedMember_finds h honly) (fun auth hauth => ?_) ?_
  · obtain ⟨auth', heq, hm⟩ := hauth
    cases heq
    exact .pure ⟨auth, rfl, hm⟩
  · rintro e ⟨auth, heq, -⟩
    cases heq

/-- The member is signed in just if no other member matches the query. -/
theorem resolvesTo_iff (h : Holds env s dto m) :
    ResolvesTo env s dto m ↔
      ∀ d ∈ s.members, Matches env (normalizeSharedIdentifier env dto.identifier) d → d = m :=
  ⟨fun hresolves => hresolves.only h, h.resolvesTo⟩

section Schedules

def olivia : Member where
  id := "m1"
  memberNumber := "M-1"
  fullName := "Olivia Overdue"
  email := none
  membershipTypeId := "t1"
  status := .active
  loginIdentifier := some "olivia"
  passwordHash := some "secret"
  authStatus := some .active
  authVersion := some 0

/-- The identifier is reserved for one member, and another is stored with that email. -/
def twoMembers (email : Option String) : Database :=
  { Database.empty with
    identifiers := [{
      id := "i1", normalizedIdentifier := "olivia", identifierType := .loginIdentifier
      subjectType := some .member, subjectId := some "m1", status := .active
      conflictingSubjects := none, conflictResolutionStatus := none, pendingOperationId := none
      activationGateOperationId := none, lastOperationId := none, pendingAction := none
      releasedAt := none, createdBy := "staff", updatedBy := "staff", updatedAt := 0 }]
    members := [{ olivia with id := "m2", memberNumber := "M-2", loginIdentifier := none, email := email },
      olivia] }

def oliviaLogin : SharedLoginDto := ⟨some "olivia", some "secret"⟩

theorem holds_olivia (email : Option String) : Holds plain (twoMembers email) oliviaLogin olivia where
  reservations := List.nodup_singleton _
  ids := by simp [twoMembers, olivia]
  identifier := by decide
  reserved := ⟨_, List.mem_cons_self, rfl, rfl, rfl, rfl, rfl⟩
  stored := List.mem_cons_of_mem _ List.mem_cons_self
  named := by decide
  carries := .inl rfl
  active := ⟨rfl, rfl⟩
  password := ⟨by decide, rfl⟩

theorem resolvesTo_olivia : ResolvesTo plain (twoMembers none) oliviaLogin olivia := by
  refine (resolvesTo_iff (holds_olivia none)).mpr fun d hd hmatches => ?_
  rcases List.mem_cons.mp hd with rfl | hd
  · rcases hmatches with h | h | h
    · cases h
    · simp [plain, normalizeSharedIdentifier, oliviaLogin] at h
    · cases h
  · exact List.mem_singleton.mp hd

/-- Another member has the identifier for an email. -/
theorem not_resolvesTo_olivia : ∃ s dto m, Holds plain s dto m ∧ ¬ ResolvesTo plain s dto m := by
  refine ⟨twoMembers (some "olivia"), oliviaLogin, olivia, holds_olivia _, fun h => ?_⟩
  have heq := h.only (holds_olivia _) _ List.mem_cons_self (.inr (.inr rfl))
  simp [olivia] at heq

end Schedules

end SignIn
