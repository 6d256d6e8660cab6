import BookLibrary.Interleaving.Endings
import BookLibrary.SignIn.Service

/-!
# The gate of sign-in

What `createSharedSession` decides before it asks for the password: whom the identifier is
reserved for, and whether the operation that has activated the reservation is completed.
-/

namespace SignIn

open AuthIdentifiers Documents Interleaving

variable {env : Environment}

/-- The first part of `createSharedSession`. -/
def passGate (env : Environment) (identifier : String) : Handler ActiveReservation := do
  match ← resolveSharedIdentifier env identifier with
  | none => denySharedSignIn env identifier "unresolved-identifier" none
  | some reservation =>
    assertActivationGateCompleted env reservation identifier
    return reservation

/-- The rest of `createSharedSession`. -/
def signInReserved (env : Environment) (dto : SharedLoginDto) (reservation : ActiveReservation) :
    Handler SharedAuthSessionResult := do
  let identifier := normalizeSharedIdentifier env dto.identifier
  let password := dto.password.getD ""
  match reservation.subjectType with
  | .staff =>
    let staffAuth ← authenticateReservedStaff env identifier password reservation.subjectId
    let response ← buildStaffLoginResponse env staffAuth
    let (refreshToken, refreshExpiresAt) ← createRefreshToken env .staff staffAuth.user.id
      staffAuth.permissions staffAuth.authVersion
    recordSuccess .staff staffAuth.user.id
    return ⟨response, refreshToken, refreshExpiresAt⟩
  | .member =>
    let memberAuth ← authenticateReservedMember env identifier password reservation.subjectId
    let response ← buildMemberLoginResponse env memberAuth
    let (refreshToken, refreshExpiresAt) ← createRefreshToken env .member memberAuth.member.id
      memberAuth.permissions memberAuth.authVersion
    recordSuccess .member memberAuth.member.id
    return ⟨response, refreshToken, refreshExpiresAt⟩

/-- There is no session but behind the gate. -/
theorem createSharedSession_eq (dto : SharedLoginDto) :
    ∃ f, createSharedSession env dto =
      passGate env (normalizeSharedIdentifier env dto.identifier) >>= f := by
  refine ⟨signInReserved env dto, ?_⟩
  rw [createSharedSession, passGate, bind_assoc]
  refine congrArg _ (funext fun reservation => ?_)
  cases reservation with
  | none =>
    simp only [denySharedSignIn, bind_assoc]
    rfl
  | some reservation =>
    simp only [bind_assoc, pure_bind]
    rfl

/-- The calls of the authentication service find one of the databases `K`, each its own. -/
def Found (env : Environment) (K : Set Database) (β : Type) (op : Op β) (b : β) : Prop :=
  ∃ s ∈ K, ∃ s', exec env β op s b s'

/-- Nobody passes the gate with the identifier, whichever of the databases each call finds. -/
def Refused (env : Environment) (K : Set Database) (identifier : String) : Prop :=
  (passGate env identifier).Ends (Found env K) fallible fun r => ∃ e, r = .error e

variable {K : Set Database} {α : Type}

theorem deny_ends {identifier reason : String}
    {subject : Option (AuthIdentifierSubjectType × String)} :
    (denySharedSignIn env identifier reason subject : Handler α).Ends (Found env K) fallible
      fun r => ∃ e, r = .error e :=
  .call (fun _ _ => .throw ⟨_, rfl⟩) fun _ => ⟨_, rfl⟩

/-- Where the reservation is not active, or its gate is shut. -/
theorem refused_of_shut {identifier : String}
    (h : ∀ s ∈ K, ∀ r ∈ s.identifiers, r.normalizedIdentifier = identifier → r.status = .active →
      ∃ operationId ≠ "", r.activationGateOperationId = some operationId ∧
        ∀ s' ∈ K, ∀ d ∈ s'.operations, d.operationId = operationId → d.status ≠ .completed) :
    Refused env K identifier := by
  have hresolve : (resolveSharedIdentifier env identifier).Ends (Found env K) fallible fun r =>
      ∀ reservation, r = .ok (some reservation) → ∃ operationId ≠ "",
        reservation.activationGateOperationId = some operationId ∧
          ∀ s' ∈ K, ∀ d ∈ s'.operations, d.operationId = operationId → d.status ≠ .completed := by
    have denied : ∀ {reason : String},
        (denySharedSignIn env identifier reason none : Handler (Option ActiveReservation)).Ends
          (Found env K) fallible fun r => ∀ reservation, r = .ok (some reservation) →
            ∃ operationId ≠ "", reservation.activationGateOperationId = some operationId ∧
              ∀ s' ∈ K, ∀ d ∈ s'.operations, d.operationId = operationId →
                d.status ≠ .completed := by
      intro reason
      refine deny_ends.mono fun r hr reservation heq => ?_
      obtain ⟨e, he⟩ := hr
      rw [he] at heq
      cases heq
    rw [resolveSharedIdentifier]
    split
    · exact .pure nofun
    · refine .call (fun b hb => ?_) fun _ => nofun
      obtain ⟨s, hs, s', hfound, -⟩ := hb
      cases b with
      | none => exact denied
      | some r =>
        obtain ⟨hmem, hname⟩ := hfound
        have hgate := h s hs r hmem (of_decide_eq_true hname)
        simp only
        split
        · next hstatus _ _ =>
          split
          · exact denied
          · refine .pure fun reservation heq => ?_
            cases heq
            exact hgate hstatus
        · exact denied
        · exact denied
  refine .bind hresolve (fun reservation hreservation => ?_) fun e _ => ⟨e, rfl⟩
  cases reservation with
  | none => exact deny_ends
  | some reservation =>
    obtain ⟨operationId, hne, hgate, hopen⟩ := hreservation _ rfl
    refine .bind (R := fun r => ∃ e, r = .error e) ?_ (fun b hb => ?_) fun e _ => ⟨e, rfl⟩
    · rw [assertActivationGateCompleted, hgate]
      simp only
      rw [if_neg hne]
      refine .call (fun b hb => ?_) fun _ => ⟨_, rfl⟩
      obtain ⟨s, hs, s', operation, hfound, hb, -⟩ := hb
      cases operation with
      | none =>
        rw [hb]
        exact deny_ends
      | some d =>
        have hstatus := hopen s hs d hfound.1 (of_decide_eq_true hfound.2)
        rw [hb]
        simp only [Option.map_some]
        split
        · next heq =>
          exact absurd (Option.some.inj heq) hstatus
        · exact deny_ends
    · obtain ⟨e, he⟩ := hb
      cases he

end SignIn
