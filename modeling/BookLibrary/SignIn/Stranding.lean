import BookLibrary.SignIn.Execution
import BookLibrary.SignIn.Refresh
import BookLibrary.TokenSession.Effects

/-!
# What a refresh leaves behind

Once a token has been rotated nobody but the caller can present the new one. A refresh that
fails after that has to revoke the family.
-/

namespace SignIn

open AuthIdentifiers Documents Interleaving

section Smooth

variable {Op : Type → Type} {σ ε α β : Type} {exec : (β : Type) → Op β → σ → β → σ → Prop}
  {fallible : (β : Type) → Op β → Prop} {see : Step Op → Option Bool} {At : Database → σ → Prop}
  {v : Database} {ok : Prop}

/-- The families are left as they are; the program ends with a result just if it can and no call
is lost on it. -/
def Smooth (v : Database) (ok : Prop) (R : α → Database → Prop) (l : List Bool) (r : Except ε α)
    (v' : Database) : Prop :=
  v'.sessions.families = v.sessions.families ∧
    ((∃ a, r = .ok a ∧ R a v' ∧ ok ∧ true ∉ l) ∨ (∃ e, r = .error e) ∧ (ok → true ∈ l))

theorem smooth_pure {R : α → Database → Prop} {a : α} (hok : ok) (hR : R a v) :
    Leads exec fallible see At (pure a : Action Op ε α).run v (Smooth v ok R) :=
  .run_pure ⟨rfl, .inl ⟨a, rfl, hR, hok, List.not_mem_nil⟩⟩

theorem smooth_throw {R : α → Database → Prop} {e : ε} (hok : ¬ ok) :
    Leads exec fallible see At (throw e : Action Op ε α).run v (Smooth v ok R) :=
  .run_throw ⟨rfl, .inr ⟨⟨e, rfl⟩, fun h => absurd h hok⟩⟩

theorem smooth_bind {ok' : Prop} {R : β → Database → Prop} {Q : α → Database → Prop}
    {x : Action Op ε β} {f : β → Action Op ε α}
    (hx : Leads exec fallible see At x.run v (Smooth v ok' R)) (hok : ok → ok')
    (hf : ∀ b v₁, ok' → R b v₁ → Leads exec fallible see At (f b).run v₁ (Smooth v₁ ok Q)) :
    Leads exec fallible see At (x >>= f).run v (Smooth v ok Q) := by
  refine .run_bind hx (fun l b v₁ hb => ?_) fun l e v₁ he => ?_
  · obtain ⟨hfamilies, ⟨b', heq, hR, hok', hl⟩ | ⟨⟨e, heq⟩, -⟩⟩ := hb
    · cases heq
      refine (hf b v₁ hok' hR).mono fun l' r v' h => ?_
      obtain ⟨hfamilies', ⟨a, hr, hQ, hok, hl'⟩ | ⟨he, hlost⟩⟩ := h
      · refine ⟨hfamilies'.trans hfamilies, .inl ⟨a, hr, hQ, hok, ?_⟩⟩
        rw [List.mem_append, not_or]
        exact ⟨hl, hl'⟩
      · exact ⟨hfamilies'.trans hfamilies, .inr ⟨he, fun h => List.mem_append_right l (hlost h)⟩⟩
    · cases heq
  · obtain ⟨hfamilies, ⟨b, heq, -⟩ | ⟨-, hlost⟩⟩ := he
    · cases heq
    · exact ⟨hfamilies, .inr ⟨⟨e, rfl⟩, fun h => hlost (hok h)⟩⟩

theorem smooth_perform {R : α → Database → Prop} {op : Op α} {thrown : ε}
    (hsee : ∀ o, see ⟨op, o⟩ = some o.isThrown)
    (hexec : ∀ s, At v s → ∀ b s', exec α op s b s' →
      ∃ v', At v' s' ∧ v'.sessions.families = v.sessions.families ∧ R b v') :
    Leads exec fallible see At (Action.perform thrown op).run v (Smooth v True R) := by
  refine .run_perform fun s hs o s₁ hgoes => ?_
  rw [hsee]
  cases o with
  | answered b =>
    obtain ⟨v', hv', hfamilies, hR⟩ := hexec s hs b s₁ hgoes
    exact ⟨v', hv', hfamilies, .inl ⟨b, rfl, hR, trivial, by simp [Outcome.isThrown]⟩⟩
  | threw r =>
    have hthrown : true ∈ (some (Outcome.threw r).isThrown).toList := by simp [Outcome.isThrown]
    cases r with
    | none =>
      obtain ⟨-, rfl⟩ := hgoes
      exact ⟨v, hs, rfl, .inr ⟨⟨thrown, rfl⟩, fun _ => hthrown⟩⟩
    | some b =>
      obtain ⟨v', hv', hfamilies, -⟩ := hexec s hs b s₁ hgoes.2
      exact ⟨v', hv', hfamilies, .inr ⟨⟨thrown, rfl⟩, fun _ => hthrown⟩⟩

end Smooth

section Losses

def isRevocation : (β : Type) → TokenSession.Op β → Bool
  | _, .revokeFamilies .. => true
  | _, _ => false

/-- The call threw, and if it is a revocation it has not been applied either. -/
def lost (step : Step Op) : Bool :=
  match step.op with
  | .inr (.inl op) =>
    if isRevocation _ op then step.outcome.applied.isNone else step.outcome.isThrown
  | _ => step.outcome.isThrown

def refreshLost (step : Step RefreshOp) : Bool :=
  match step.op with
  | .inl op => lost ⟨op, step.outcome⟩
  | .inr _ => step.outcome.isThrown

variable {env : Environment} {α : Type} {v : Database}

/-- What a handler leads to, on which calls are lost. -/
abbrev Comes (env : Environment) (x : Handler α) (v : Database)
    (Q : List Bool → Except HttpFailure α → Database → Prop) : Prop :=
  Leads (exec env) fallible (fun step => some (lost step)) (fun v s => s = v) x.run v Q

abbrev RefreshComes (env : Environment) (x : Refreshing α) (v : Database)
    (Q : List Bool → Except HttpFailure α → Database → Prop) : Prop :=
  Leads (refreshExec env) refreshFallible (fun step => some (refreshLost step))
    (fun v s => s.base = v) x.run v Q

theorem own_comes {β : Type} {op : Own β} {R : β → Database → Prop}
    (h : ∀ b v', ownEffect env β op v b v' →
      v'.sessions.families = v.sessions.families ∧ R b v') :
    Comes env (call op) v (Smooth v True R) := by
  refine smooth_perform (fun o => rfl) fun s hs b s' hexec => ?_
  subst hs
  exact ⟨s', rfl, h b s' hexec⟩

theorem ofSessions_call {β : Type} (op : TokenSession.Op β) :
    ofSessions (TokenSession.call op) = Action.perform .internal (fromSessions op) :=
  Action.lift_perform ..

theorem randomUUID_comes :
    Comes env (ofSessions (TokenSession.call .randomUUID)) v (Smooth v True fun _ _ => True) := by
  rw [ofSessions_call]
  refine smooth_perform (fun o => rfl) fun s hs b s' hexec => ?_
  subst hs
  obtain ⟨t, ⟨⟨-, -, rfl⟩, -⟩, rfl⟩ := hexec
  exact ⟨_, rfl, rfl, trivial⟩

theorem signAccessToken_comes {claims : AccessTokenClaims} :
    Comes env (call (.signAccessToken claims)) v (Smooth v True fun _ _ => True) := by
  refine own_comes ?_
  rintro b v' rfl
  exact ⟨rfl, trivial⟩

theorem buildStaffLoginResponse_comes {staffAuth : StaffAuth} :
    Comes env (buildStaffLoginResponse env staffAuth) v (Smooth v True fun _ _ => True) :=
  smooth_bind randomUUID_comes id fun _ _ _ _ =>
    smooth_bind signAccessToken_comes id fun _ _ _ _ => smooth_pure trivial trivial

/-- The membership type of the member is stored. -/
def Typed (s : Database) (member : Member) : Prop :=
  ∃ t ∈ s.membershipTypes, t.id = member.membershipTypeId

theorem findSelfServiceProfile_comes {member : Member} (hids : (v.members.map (·.id)).Nodup)
    (hmember : member ∈ v.members) :
    Comes env (findSelfServiceProfile member.id) v (Smooth v (Typed v member) fun _ _ => True) := by
  refine smooth_bind (R := fun r v' => v = v' ∧ r = some member) (own_comes ?_)
    (fun _ => trivial) ?_
  · rintro r v' ⟨hfound, rfl⟩
    refine ⟨rfl, rfl, ?_⟩
    cases r with
    | none =>
      have hfalse := hfound member hmember
      simp at hfalse
    | some d =>
      exact congrArg some (List.inj_on_of_nodup_map hids hfound.1 hmember (of_decide_eq_true hfound.2))
  · rintro _ _ - ⟨rfl, rfl⟩
    refine smooth_bind (R := fun r v' => v = v' ∧ (r.isSome = true ↔ Typed v member))
      (own_comes ?_) (fun _ => trivial) ?_
    · rintro r v' ⟨hfound, rfl⟩
      refine ⟨rfl, rfl, ?_⟩
      cases r with
      | none =>
        refine ⟨nofun, fun ⟨t, ht, hid⟩ => ?_⟩
        have hfalse := hfound t ht
        simp [hid] at hfalse
      | some t => exact ⟨fun _ => ⟨t, hfound.1, of_decide_eq_true hfound.2⟩, fun _ => rfl⟩
    · rintro r _ - ⟨rfl, htyped⟩
      cases r with
      | none => exact smooth_throw fun h => nomatch htyped.mpr h
      | some t => exact smooth_pure (htyped.mp rfl) trivial

theorem buildMemberLoginResponse_comes {memberAuth : MemberAuth}
    (hids : (v.members.map (·.id)).Nodup) (hmember : memberAuth.member ∈ v.members) :
    Comes env (buildMemberLoginResponse env memberAuth) v
      (Smooth v (Typed v memberAuth.member) fun _ _ => True) :=
  smooth_bind (findSelfServiceProfile_comes hids hmember) id fun _ _ htyped _ =>
    smooth_bind randomUUID_comes (fun _ => trivial) fun _ _ _ _ =>
      smooth_bind signAccessToken_comes (fun _ => trivial) fun _ _ _ _ => smooth_pure htyped trivial

end Losses

section Refreshes

variable {env : Environment} {α : Type} {v : Database}

theorem ofSignIn_comes {x : Handler α} {Q : List Bool → Except HttpFailure α → Database → Prop}
    (hx : Comes env x v Q) : RefreshComes env (ofSignIn x) v Q := by
  refine Leads.run_lift RefreshDatabase.base (fun _ => ()) () (by simp) ?_ id
    (fun _ _ => rfl) hx fun l r v' h => ?_
  · rintro β op s s' b ⟨t, hexec, rfl⟩
    exact ⟨hexec, rfl⟩
  · cases r with
    | ok a => exact h
    | error e => exact h

/-- The call fails; the family is revoked, or a call on the way is lost. -/
def Denied (v : Database) (familyId : String) (l : List Bool) (r : Except HttpFailure α)
    (v' : Database) : Prop :=
  (∃ e, r = .error e) ∧
    ((true ∉ l ∧ ∀ f ∈ v'.sessions.families, f.familyId = familyId → f.status ≠ .active) ∨
      (true ∈ l ∧ v'.sessions.families = v.sessions.families))

theorem revokeFamilies_comes {familyId reason : String} {date : Date} :
    Comes env (ofSessions (TokenSession.call (.revokeFamilies (.familyId familyId) .revoked reason date)))
      v fun l _ v' =>
        (true ∉ l ∧ ∀ f ∈ v'.sessions.families, f.familyId = familyId → f.status ≠ .active) ∨
          (true ∈ l ∧ v'.sessions.families = v.sessions.families) := by
  rw [ofSessions_call]
  refine .run_perform fun s hs o s₁ hgoes => ⟨s₁, rfl, ?_⟩
  subst hs
  obtain ⟨hnone, rfl⟩ | ⟨n, hsome, t, ⟨⟨-, rfl⟩, -⟩, rfl⟩ := hgoes.applied
  · refine .inr ⟨?_, rfl⟩
    simp [lost, fromSessions, isRevocation, hnone]
  · refine .inl ⟨by simp [lost, fromSessions, isRevocation, hsome], fun f hf hid => ?_⟩
    rcases mem_updateMany.mp hf with ⟨-, hp⟩ | ⟨g, -, -, rfl⟩
    · intro hactive
      simp [TokenSession.RevocationFilter.selects, hactive, hid] at hp
    · exact nofun

theorem revokeFamily_comes {familyId reason : String} :
    Comes env (ofSessions (TokenSession.revokeFamily familyId reason)) v fun l _ v' =>
      (true ∉ l ∧ ∀ f ∈ v'.sessions.families, f.familyId = familyId → f.status ≠ .active) ∨
        (true ∈ l ∧ v'.sessions.families = v.sessions.families) := by
  rw [TokenSession.revokeFamily, TokenSession.revoke, ofSessions, Action.lift_bind]
  refine .run_bind (R := fun l r v' => l = [false] ∧ (∃ d, r = .ok d) ∧ v' = v) ?_ ?_ ?_
  · rw [TokenSession.call, Action.lift_perform]
    refine .run_perform fun s hs o s₁ hgoes => ?_
    subst hs
    cases o with
    | answered d =>
      obtain ⟨t, ⟨rfl, -⟩, rfl⟩ := hgoes
      exact ⟨_, rfl, rfl, ⟨d, rfl⟩, rfl⟩
    | threw r => cases r <;> exact hgoes.1.elim
  · rintro l d v₁ ⟨rfl, -, rfl⟩
    rw [Action.lift_bind]
    refine .run_bind revokeFamilies_comes (fun l _ v' h => .run_pure ?_) fun l _ v' h => ?_
    · simpa using h
    · simpa using h
  · rintro l e v₁ ⟨-, ⟨d, heq⟩, -⟩
    cases heq

theorem denyRefreshAndRevoke_comes {familyId reason : String} :
    RefreshComes env (denyRefreshAndRevoke familyId reason : Refreshing α) v (Denied v familyId) := by
  refine .run_bind (R := fun l _ v' =>
      (true ∉ l ∧ ∀ f ∈ v'.sessions.families, f.familyId = familyId → f.status ≠ .active) ∨
        (true ∈ l ∧ v'.sessions.families = v.sessions.families)) ?_
    (fun l _ v₁ h => .run_throw ⟨⟨_, rfl⟩, by rwa [List.append_nil]⟩) fun l e v₁ h => ⟨⟨e, rfl⟩, h⟩
  refine .run_tryCatch (ofSignIn_comes revokeFamily_comes) (fun _ _ _ h => h) fun l e v₁ h => ?_
  exact .run_pure (by rwa [List.append_nil])

/-- How a lookup ends: with the account, without one, or because it threw. -/
def LookedUp (v : Database) (P : α → Prop) (l : List Bool) (r : Except HttpFailure α)
    (v' : Database) : Prop :=
  (∃ a, r = .ok a ∧ P a ∧ v' = v ∧ true ∉ l) ∨
    (r = .error .notFound ∧ (∀ a, ¬ P a) ∧ v' = v ∧ true ∉ l) ∨
      ∃ e, e ≠ .notFound ∧ r = .error e ∧ v' = v ∧ true ∈ l

/-- The account is stored and active. -/
def ActiveMember (s : Database) (id : String) (member : Member) : Prop :=
  member ∈ s.members ∧ member.id = id ∧ member.status = .active ∧ member.authStatus = some .active

def ActiveStaffUser (s : Database) (id : String) (user : StaffUser) : Prop :=
  user ∈ s.staffUsers ∧ user.id = id ∧ user.status = .active

/-- The document is found by its id, or the call is lost. -/
def Finds {D : Type} (v : Database) (id : D → String) (docs : List D) (i : String) (l : List Bool)
    (r : Except HttpFailure (Option D)) (v' : Database) : Prop :=
  v' = v ∧ ((∃ d, r = .ok d ∧ FindOne (fun d => decide (id d = i)) docs d ∧ true ∉ l) ∨
    r = .error .internal ∧ true ∈ l)

theorem lookedUp_of_finds {D : Type} {id : D → String} {docs : List D} {i : String}
    (active : D → Prop) [DecidablePred active] {x : Refreshing (Option D)}
    {f : Option D → Refreshing D} (hids : (docs.map id).Nodup)
    (hx : RefreshComes env x v (Finds v id docs i)) (hnone : f none = throw .notFound)
    (hsome : ∀ d, f (some d) = if active d then return d else throw .notFound) :
    RefreshComes env (x >>= f) v (LookedUp v fun d => d ∈ docs ∧ id d = i ∧ active d) := by
  refine .run_bind hx (fun l r v₁ h => ?_) fun l e v₁ h => ?_
  · obtain ⟨rfl, ⟨d, heq, hfound, hl⟩ | ⟨heq, -⟩⟩ := h
    · cases heq
      cases r with
      | none =>
        rw [hnone]
        refine .run_throw (.inr (.inl ⟨rfl, fun d hd => ?_, rfl, by rwa [List.append_nil]⟩))
        have hfalse := hfound d hd.1
        simp [hd.2.1] at hfalse
      | some d =>
        have hid := of_decide_eq_true hfound.2
        rw [hsome]
        refine .run_ite (fun hactive => ?_) fun hinactive => ?_
        · exact .run_pure (.inl ⟨d, rfl, ⟨hfound.1, hid, hactive⟩, rfl, by rwa [List.append_nil]⟩)
        · refine .run_throw (.inr (.inl ⟨rfl, fun d' hd' => ?_, rfl, by rwa [List.append_nil]⟩))
          obtain rfl := List.inj_on_of_nodup_map hids hd'.1 hfound.1 (hd'.2.1.trans hid.symm)
          exact hinactive hd'.2.2
    · cases heq
  · obtain ⟨rfl, ⟨d, heq, -⟩ | ⟨heq, hl⟩⟩ := h
    · cases heq
    · exact .inr (.inr ⟨e, by cases heq; exact nofun, rfl, rfl, hl⟩)

theorem findActiveMember_comes {id : String} (hids : (v.members.map (·.id)).Nodup) :
    RefreshComes env (findActiveMember id) v (LookedUp v (ActiveMember v id)) := by
  have hfinds : Comes env (call (.findMember id)) v (Finds v (·.id) v.members id) := ?_
  · rw [findActiveMember]
    exact lookedUp_of_finds (fun m : Member => m.status = .active ∧ m.authStatus = some .active) hids
      (ofSignIn_comes hfinds) rfl fun _ => rfl
  refine .run_perform fun s hs o s₁ hgoes => ⟨s₁, rfl, ?_⟩
  subst hs
  cases o with
  | answered r => exact ⟨hgoes.2, .inl ⟨r, rfl, hgoes.1, by simp [lost, Outcome.isThrown]⟩⟩
  | threw r =>
    refine ⟨?_, .inr ⟨rfl, by simp [lost, Outcome.isThrown]⟩⟩
    cases r with
    | none => exact hgoes.2
    | some d => exact hgoes.2.2

theorem findActiveStaffUser_comes {id : String} (hids : (v.staffUsers.map (·.id)).Nodup) :
    RefreshComes env (findActiveStaffUser id) v (LookedUp v (ActiveStaffUser v id)) := by
  have hfinds : RefreshComes env (refreshCall (.findStaffUser id)) v
      (Finds v (·.id) v.staffUsers id) := ?_
  · rw [findActiveStaffUser]
    exact lookedUp_of_finds (fun u : StaffUser => u.status = .active) hids hfinds rfl fun _ => rfl
  refine .run_perform fun s hs o s₁ hgoes => ⟨s₁.base, rfl, ?_⟩
  subst hs
  cases o with
  | answered r =>
    exact ⟨congrArg _ hgoes.2, .inl ⟨r, rfl, hgoes.1, by simp [refreshLost, Outcome.isThrown]⟩⟩
  | threw r =>
    refine ⟨?_, .inr ⟨rfl, by simp [refreshLost, Outcome.isThrown]⟩⟩
    cases r with
    | none => exact congrArg _ hgoes.2
    | some d => exact congrArg _ hgoes.2.2

/-- How a refresh goes on: it answers the account that is current unless a call is lost, and
denies another. -/
def Continues (v : Database) (familyId : String) (current ok : Prop) (R : α → Database → Prop)
    (l : List Bool) (r : Except HttpFailure α) (v' : Database) : Prop :=
  (current → Smooth v ok R l r v') ∧ (¬ current → Denied v familyId l r v')

theorem continues_of_lookup {β : Type} {P : α → Prop} {version : α → ℕ} {x : Refreshing α}
    {f : α → Refreshing β} {familyId : String} {authVersion : ℕ} {ok : Prop}
    {R : β → Database → Prop} (hunique : ∀ a b, P a → P b → a = b)
    (hx : RefreshComes env x v (LookedUp v P))
    (hf : ∀ a, P a → RefreshComes env (f a) v (Smooth v ok R)) :
    RefreshComes env
      (do
        let a ← orDenyRefresh familyId x
        if version a ≠ authVersion then denyRefreshAndRevoke familyId "stale-auth-version" else f a)
      v (Continues v familyId (∃ a, P a ∧ version a = authVersion) ok R) := by
  refine .run_bind (R := fun l r v' => (∃ a, r = .ok a ∧ P a ∧ v' = v ∧ true ∉ l) ∨
    ((∀ a, ¬ P a) ∧ Denied v familyId l r v') ∨
      (∃ e, r = .error e) ∧ true ∈ l ∧ v'.sessions.families = v.sessions.families) ?_ ?_ ?_
  · refine .run_tryCatch hx (fun l a v₁ h => ?_) fun l e v₁ h => ?_
    · rcases h with h | ⟨heq, -⟩ | ⟨e, -, heq, -⟩
      · exact .inl h
      · cases heq
      · cases heq
    · rcases h with ⟨a, heq, -⟩ | ⟨heq, hnone, rfl, hl⟩ | ⟨e', hne, heq, rfl, hl⟩
      · cases heq
      · cases heq
        rw [if_pos rfl]
        refine denyRefreshAndRevoke_comes.mono fun l' r v' h => .inr (.inl ⟨hnone, h.1, ?_⟩)
        simpa [hl] using h.2
      · cases heq
        rw [if_neg hne]
        exact .run_throw (.inr (.inr ⟨⟨e, rfl⟩, by rwa [List.append_nil], rfl⟩))
  · rintro l a v₁ (⟨b, heq, hP, rfl, hl⟩ | ⟨-, ⟨e, heq⟩, -⟩ | ⟨⟨e, heq⟩, -⟩)
    · cases heq
      refine .run_ite (fun hne => ?_) fun heq => ?_
      · have hstale : ¬ ∃ b, P b ∧ version b = authVersion := by
          rintro ⟨b, hb, hversion⟩
          exact hne (hunique a b hP hb ▸ hversion)
        refine denyRefreshAndRevoke_comes.mono fun l' r v' h => ⟨fun hc => absurd hc hstale, fun _ => ?_⟩
        exact ⟨h.1, by simpa [hl] using h.2⟩
      · rw [not_not] at heq
        refine (hf a hP).mono fun l' r v' h => ⟨fun _ => ?_, fun hc => absurd ⟨a, hP, heq⟩ hc⟩
        refine ⟨h.1, ?_⟩
        simpa [hl] using h.2
    · cases heq
    · cases heq
  · rintro l e v₁ (⟨b, heq, -⟩ | ⟨hnone, hdenied⟩ | ⟨-, hl, hsame⟩)
    · cases heq
    · exact ⟨fun ⟨a, ha, _⟩ => absurd ha (hnone a), fun _ => ⟨⟨e, rfl⟩, hdenied.2⟩⟩
    · exact ⟨fun _ => ⟨hsame, .inr ⟨⟨e, rfl⟩, fun _ => hl⟩⟩, fun _ => ⟨⟨e, rfl⟩, .inr ⟨hl, hsame⟩⟩⟩

/-- The account of the session is active, with the session's version. -/
def Current (s : Database) (rotated : TokenSession.RefreshTokenRotationResult) : Prop :=
  match rotated.subjectType with
  | .member => ∃ m, ActiveMember s rotated.subjectId m ∧ m.authVersion.getD 0 = rotated.authVersion
  | .staff => ∃ u, ActiveStaffUser s rotated.subjectId u ∧ u.authVersion.getD 0 = rotated.authVersion

/-- Where the account is a member, its membership type is stored. -/
def Profiled (s : Database) (rotated : TokenSession.RefreshTokenRotationResult) : Prop :=
  match rotated.subjectType with
  | .member => ∀ m, ActiveMember s rotated.subjectId m → Typed s m
  | .staff => True

theorem recordRefreshed_comes {subjectType : AuthIdentifierSubjectType} {id : String} :
    RefreshComes env (recordRefreshed subjectType id) v (Smooth v True fun _ _ => True) := by
  refine smooth_perform (fun o => rfl) fun s hs b s' hexec => ?_
  subst hs
  cases hexec
  exact ⟨_, rfl, rfl, trivial⟩

variable {rotated : TokenSession.RefreshTokenRotationResult}

theorem finishRefresh_comes (hmembers : (v.members.map (·.id)).Nodup)
    (hstaff : (v.staffUsers.map (·.id)).Nodup) :
    RefreshComes env (finishRefresh env rotated) v
      (Continues v rotated.familyId (Current v rotated) (Profiled v rotated)
        fun a _ => a.refreshToken = rotated.refreshToken) := by
  cases hsubject : rotated.subjectType with
  | member =>
    simp only [finishRefresh, Current, Profiled, hsubject]
    refine continues_of_lookup (fun m m' hm hm' => ?_) (findActiveMember_comes hmembers) fun m hm => ?_
    · exact List.inj_on_of_nodup_map hmembers hm.1 hm'.1 (hm.2.1.trans hm'.2.1.symm)
    · refine smooth_bind (ofSignIn_comes (buildMemberLoginResponse_comes hmembers hm.1))
        (fun h => h m hm) fun response v₁ htyped _ => ?_
      refine smooth_bind recordRefreshed_comes (fun _ => trivial) fun _ _ _ _ => smooth_pure ?_ rfl
      intro m' hm'
      obtain rfl := List.inj_on_of_nodup_map hmembers hm'.1 hm.1 (hm'.2.1.trans hm.2.1.symm)
      exact htyped
  | staff =>
    simp only [finishRefresh, Current, Profiled, hsubject]
    refine continues_of_lookup (fun u u' hu hu' => ?_) (findActiveStaffUser_comes hstaff) fun u hu => ?_
    · exact List.inj_on_of_nodup_map hstaff hu.1 hu'.1 (hu.2.1.trans hu'.2.1.symm)
    · exact smooth_bind (ofSignIn_comes buildStaffLoginResponse_comes) id fun _ _ _ _ =>
        smooth_bind recordRefreshed_comes id fun _ _ _ _ => smooth_pure trivial rfl

end Refreshes

section Rotations

open TokenSession

variable {sha256 : String → String} {v : TokenSession.Database}

/-- What a program leads to in the token sessions. -/
abbrev Rotates {α : Type} (x : Refresh α) (v : TokenSession.Database)
    (Q : Except RefreshFailure α → TokenSession.Database → Prop) : Prop :=
  Leads TokenSession.exec TokenSession.fallible (fun _ => (none : Option Unit)) (fun v s => s = v)
    x.run v fun _ r v' => Q r v'

/-- A rotation that succeeds has left the family active, with the hash of the new token. -/
def Renewed {ε : Type} (sha256 : String → String) (r : Except ε RefreshTokenRotationResult)
    (v : TokenSession.Database) : Prop :=
  ∀ rotated, r = .ok rotated → ∃ f ∈ v.families, f.familyId = rotated.familyId ∧
    f.status = .active ∧ f.currentTokenHash = some (sha256 rotated.refreshToken)

theorem rotates_any {α : Type} (x : Refresh α) : Rotates x v fun _ _ => True :=
  .vacuous fun s => ⟨s, rfl⟩

/-- Nothing is returned where the last thing done is a denial. -/
theorem denied_rotates {α β : Type} (x : Refresh β) {Q : Except RefreshFailure α → TokenSession.Database → Prop}
    (hQ : ∀ e v', Q (.error e) v') : Rotates (x >>= fun _ => denyRefresh) v Q :=
  .run_bind (rotates_any x) (fun _ _ _ _ => .run_throw (hQ _ _)) fun _ _ _ _ => hQ _ _

theorem commitRotation_rotates {prepared : PreparedRotation} {tokenHash : String} :
    Rotates (commitRotation prepared tokenHash) v fun r v' => r = .ok () → v'.families = v.families := by
  refine .run_tryCatch (R := fun _ r v' => r = .ok () → v'.families = v.families) ?_
    (fun _ _ _ h => h) fun _ e v₁ _ => ?_
  · refine .run_bind (R := fun _ r v' => ∀ m, r = .ok m → v'.families = v.families) ?_ ?_ nofun
    · refine .run_bind (R := fun _ _ v' => v'.families = v.families) ?_ (fun _ date v₁ h => ?_) nofun
      · refine .run_perform fun s hs o s₁ hgoes => ⟨s₁, rfl, ?_⟩
        obtain ⟨-, rfl⟩ | ⟨d, -, heffect, -⟩ := hgoes.applied
        · rw [hs]
        · rw [heffect, hs]
      · refine .run_perform fun s hs o s₁ hgoes => ⟨s₁, rfl, fun m _ => ?_⟩
        rw [← h, ← hs]
        obtain ⟨-, rfl⟩ | ⟨m, -, ⟨markers, -, rfl⟩, -⟩ := hgoes.applied
        · rfl
        · rfl
    · intro _ m v₁ h
      refine .run_ite (fun _ => ?_) fun _ => .run_pure fun _ => h m rfl
      exact denied_rotates _ nofun
  · exact denied_rotates _ nofun

theorem rotate_rotates {token : String} {now : Date} :
    Rotates (rotate sha256 token now) v (Renewed sha256) := by
  refine .run_ite (fun _ => .run_throw nofun) fun _ => ?_
  refine .run_bind (rotates_any _) (fun _ prepared v₁ _ => ?_) nofun
  refine .run_bind (rotates_any _) (fun _ next v₂ _ => ?_) nofun
  refine .run_bind (R := fun _ r v' => ∀ f, r = .ok (some f) →
    f ∈ v'.families ∧ f.status = .active ∧ f.currentTokenHash = some (sha256 next)) ?_ ?_ nofun
  · refine .run_tryCatch (R := fun _ r v' => ∀ f, r = .ok (some f) →
      f ∈ v'.families ∧ f.status = .active ∧ f.currentTokenHash = some (sha256 next)) ?_
      (fun _ _ _ h => h) fun _ e v₃ _ => ?_
    · refine .run_perform fun s hs o s₁ hgoes => ⟨s₁, rfl, fun f hf => ?_⟩
      cases o with
      | threw r => cases hf
      | answered r =>
        cases hf
        obtain ⟨⟨families, hupdate, rfl⟩, -⟩ := hgoes
        obtain ⟨f', -, hselects, rfl, hmem⟩ := hupdate.source
        rw [Bool.and_eq_true] at hselects
        exact ⟨hmem, (RefreshTokenFamily.isCurrent_iff.mp hselects.2).2.1, rfl⟩
    · exact denied_rotates _ fun _ _ _ heq => nomatch heq
  · intro _ swapped v₃ h
    cases swapped with
    | none =>
      exact denied_rotates _ nofun
    | some f =>
      obtain ⟨hmem, hactive, hhash⟩ := h f rfl
      refine .run_bind commitRotation_rotates (fun _ _ v₄ hsame => .run_pure ?_) nofun
      rintro _ ⟨⟩
      exact ⟨f, hsame rfl ▸ hmem, rfl, hactive, hhash⟩

end Rotations

variable {env : Environment}

/-- The state shows the token sessions, and those accounts. -/
def Shows (accounts : List Member × List StaffUser) (v : TokenSession.Database)
    (s : RefreshDatabase) : Prop :=
  s.base.sessions = v ∧ (s.base.members, s.base.staffUsers) = accounts

theorem renewed_mapError {ε ε' : Type} {sha256 : String → String} {g : ε → ε'}
    {r : Except ε TokenSession.RefreshTokenRotationResult} {v : TokenSession.Database}
    (h : Renewed sha256 r v) : Renewed sha256 (r.mapError g) v := by
  intro rotated heq
  cases r with
  | ok a => exact h rotated (by cases heq; rfl)
  | error e => cases heq

theorem ofSessions_renews (accounts : List Member × List StaffUser)
    {x : TokenSession.Refresh TokenSession.RefreshTokenRotationResult} {v : TokenSession.Database}
    (hx : Rotates x v (Renewed env.sha256)) :
    Leads (refreshExec env) refreshFallible (fun _ => (none : Option Unit)) (Shows accounts)
      (ofSignIn (ofSessions x)).run v fun _ r v' => Renewed env.sha256 r v' := by
  have hsignIn : Leads (exec env) fallible (fun _ => (none : Option Unit))
      (fun v s => s.sessions = v ∧ (s.members, s.staffUsers) = accounts) (ofSessions x).run v
      fun _ r v' => Renewed env.sha256 r v' := by
    refine .run_lift Database.sessions (fun s => (s.members, s.staffUsers)) accounts
      (fun _ _ => Iff.rfl) ?_ id (fun _ _ => rfl) hx fun _ r v' h => renewed_mapError h
    rintro β op s s' b ⟨t, hexec, rfl⟩
    exact ⟨hexec, rfl⟩
  refine .run_lift RefreshDatabase.base (fun _ => ()) () (fun v s => by simp [Shows]) ?_ id (fun _ _ => rfl) hsignIn fun _ r v' h => renewed_mapError h
  rintro β op s s' b ⟨t, hexec, rfl⟩
  exact ⟨hexec, rfl⟩

/-- A refresh that has rotated the token leaves the accounts as they were. -/
theorem rotateRefreshToken_renews (accounts : List Member × List StaffUser) {token : String}
    {v : TokenSession.Database} :
    Leads (refreshExec env) refreshFallible (fun _ => (none : Option Unit)) (Shows accounts)
      (rotateRefreshToken env token).run v fun _ r v' => Renewed env.sha256 r v' := by
  refine .run_tryCatch (R := fun _ r v' => Renewed env.sha256 r v') ?_ (fun _ _ _ h => h)
    fun _ e v₁ _ => ?_
  · have hrotates : Rotates (do
        let now ← TokenSession.call .currentDate
        TokenSession.rotate env.sha256 token now) v (Renewed env.sha256) :=
      .run_bind (rotates_any _) (fun _ _ _ _ => rotate_rotates) nofun
    have hrenews := ofSessions_renews accounts hrotates
    simp only [ofSessions, ofSignIn, Action.lift_bind] at hrenews ⊢
    exact hrenews
  · refine .run_bind (R := fun _ _ _ => True) ?_ (fun _ _ _ _ => .run_throw nofun)
      fun _ _ _ _ _ heq => nomatch heq
    refine .run_perform fun s hs o s₁ hgoes => ⟨v₁, ?_, trivial⟩
    obtain ⟨-, rfl⟩ | ⟨_, -, rfl⟩ := hgoes.applied
    · exact hs
    · exact hs

/-- A refresh that has rotated the token, and the calls `l` that it issues from then on. -/
structure Refreshes (env : Environment) (token : String) (s : RefreshDatabase)
    (rotated : TokenSession.RefreshTokenRotationResult) (s₁ : RefreshDatabase)
    (l : List (Step RefreshOp)) (r : Except HttpFailure SharedAuthSessionResult)
    (s' : RefreshDatabase) : Prop where
  rotation : ∃ l₀, Traces (refreshExec env) refreshFallible (rotateRefreshToken env token).run s l₀
    (.ok rotated) s₁
  rest : Traces (refreshExec env) refreshFallible (finishRefresh env rotated).run s₁ l r s'

/-- A refresh fails with the rotation, or goes on from it. -/
theorem refresh_cases {token : String} {s s' : RefreshDatabase} {l : List (Step RefreshOp)}
    {r : Except HttpFailure SharedAuthSessionResult}
    (h : Traces (refreshExec env) refreshFallible (refresh env token).run s l r s') :
    (∃ e, r = .error e ∧ Traces (refreshExec env) refreshFallible
      (rotateRefreshToken env token).run s l (.error e) s') ∨
      ∃ rotated s₁ l₁, Refreshes env token s rotated s₁ l₁ r s' := by
  rcases traces_run_bind h with h | ⟨rotated, s₁, l₀, l₁, hrotation, hrest, -⟩
  · exact .inl h
  · exact .inr ⟨rotated, s₁, l₁, ⟨l₀, hrotation⟩, hrest⟩

/-- The new credentials are returned, or the family is not active. -/
def Settled (rotated : TokenSession.RefreshTokenRotationResult)
    (r : Except HttpFailure SharedAuthSessionResult) (s : RefreshDatabase) : Prop :=
  (∃ a, r = .ok a ∧ a.refreshToken = rotated.refreshToken) ∨
    ∀ f ∈ s.base.sessions.families, f.familyId = rotated.familyId → f.status ≠ .active

/-- The new token of an active family is given to nobody. -/
def Stranded (env : Environment) (rotated : TokenSession.RefreshTokenRotationResult)
    (r : Except HttpFailure SharedAuthSessionResult) (s : RefreshDatabase) : Prop :=
  (∃ e, r = .error e) ∧ ∃ f ∈ s.base.sessions.families, f.familyId = rotated.familyId ∧
    f.status = .active ∧ f.currentTokenHash = some (env.sha256 rotated.refreshToken)

/-- Once the token has been rotated no call is lost, and the membership type of a member who is
to be answered is stored. -/
structure Unharmed (rotated : TokenSession.RefreshTokenRotationResult) (s : RefreshDatabase)
    (l : List (Step RefreshOp)) : Prop where
  calls : ∀ step ∈ l, refreshLost step = false
  profile : Current s.base rotated → Profiled s.base rotated

variable {token : String} {s s₁ s' : RefreshDatabase} {l : List (Step RefreshOp)}
  {r : Except HttpFailure SharedAuthSessionResult}
  {rotated : TokenSession.RefreshTokenRotationResult}

/-- A refresh that has rotated the token leaves no session stranded just if it is unharmed. -/
theorem settled_iff (hmembers : (s.base.members.map (·.id)).Nodup)
    (hstaff : (s.base.staffUsers.map (·.id)).Nodup)
    (h : Refreshes env token s rotated s₁ l r s') :
    (Settled rotated r s' ∧ ¬ Stranded env rotated r s') ↔ Unharmed rotated s₁ l := by
  obtain ⟨l₀, hrotation⟩ := h.rotation
  obtain ⟨v, ⟨rfl, haccounts⟩, hrenewed⟩ :=
    rotateRefreshToken_renews (s.base.members, s.base.staffUsers) s ⟨rfl, rfl⟩ _ _ _ hrotation
  obtain ⟨f, hf, hid, hactive, hhash⟩ := hrenewed rotated rfl
  obtain ⟨hm, hs⟩ := Prod.mk.inj haccounts
  have hfinish : RefreshComes env (finishRefresh env rotated) s₁.base _ :=
    finishRefresh_comes (by rwa [hm]) (by rwa [hs])
  obtain ⟨v', rfl, hcurrent, hstale⟩ := hfinish s₁ rfl l r s' h.rest
  have hlost : true ∈ l.filterMap (fun step => some (refreshLost step)) ↔
      ¬ ∀ step ∈ l, refreshLost step = false := by
    simp
  by_cases hc : Current s₁.base rotated
  · obtain ⟨hfamilies, ⟨a, rfl, hanswer, hprofiled, hl⟩ | ⟨⟨e, rfl⟩, hl⟩⟩ := hcurrent hc
    · -- the account is answered
      rw [hlost, not_not] at hl
      exact ⟨fun _ => ⟨hl, fun _ => hprofiled⟩, fun _ => ⟨.inl ⟨a, rfl, hanswer⟩, fun ⟨⟨e, heq⟩, _⟩ => nomatch heq⟩⟩
    · -- the call fails, and the family is as the rotation has left it
      rw [hlost] at hl
      refine ⟨fun ⟨hsettled, _⟩ => ?_, fun h => absurd h.calls (hl (h.profile hc))⟩
      rcases hsettled with ⟨a, heq, -⟩ | hinactive
      · cases heq
      · exact absurd hactive (hinactive f (hfamilies ▸ hf) hid)
  · obtain ⟨⟨e, rfl⟩, ⟨hl, hinactive⟩ | ⟨hl, hfamilies⟩⟩ := hstale hc
    · rw [hlost, not_not] at hl
      refine ⟨fun _ => ⟨hl, fun h => absurd h hc⟩, fun _ => ⟨.inr hinactive, ?_⟩⟩
      rintro ⟨-, g, hg, hgid, hgactive, -⟩
      exact hinactive g hg hgid hgactive
    · rw [hlost] at hl
      refine ⟨fun ⟨hsettled, _⟩ => ?_, fun h => absurd h.calls hl⟩
      rcases hsettled with ⟨a, heq, -⟩ | hinactive
      · cases heq
      · exact absurd hactive (hinactive f (hfamilies ▸ hf) hid)

section Execution

/-- `refreshExec` as a function. -/
def performRefresh (env : Environment) (β : Type) (op : RefreshOp β) (s : RefreshDatabase)
    (x : TokenSession.Draw) : Option (β × RefreshDatabase) :=
  match op with
  | .inl op => (perform env β op s.base x).map fun (b, t) => (b, { s with base := t })
  | .inr op =>
    match β, op with
    | _, .findStaffUser id => some (s.base.staffUsers.find? fun d => decide (d.id = id), s)
    | _, .recordActivity event => some ((), { s with refreshActivity := event :: s.refreshActivity })

theorem performRefresh_exec {β : Type} {op : RefreshOp β} {s s' : RefreshDatabase}
    {x : TokenSession.Draw} {b : β} (h : performRefresh env β op s x = some (b, s')) :
    refreshExec env β op s b s' := by
  cases op with
  | inl op =>
    obtain ⟨⟨b', t⟩, hperform, heq⟩ := Option.map_eq_some_iff.mp h
    cases heq
    exact ⟨t, perform_exec hperform, rfl⟩
  | inr op =>
    cases op with
    | findStaffUser id =>
      cases h
      exact ⟨findOne_find?, rfl⟩
    | recordActivity event =>
      cases h
      rfl

/-- The calls of its own that a refresh issues may throw. -/
def refreshFails (β : Type) (op : RefreshOp β) : Bool := op.isRight

theorem refreshFails_fallible {β : Type} {op : RefreshOp β} (h : refreshFails β op = true) :
    refreshFallible β op := by
  cases op with
  | inl op => cases h
  | inr op => trivial

def ada : StaffUser where
  id := "s1"
  email := "ada@example.com"
  displayName := "Ada Admin"
  passwordHash := "secret"
  roles := [.staff]
  status := .active
  authVersion := some 0

/-- A staff user has signed in and been given the token. -/
def signedIn : RefreshDatabase where
  base := { Database.empty with
    staffUsers := [ada]
    sessions := { TokenSession.Database.empty 0 with
      drawn := ["f1", "t1"]
      families := [{
        familyId := "f1", clientId := "book-library-web", subjectType := .staff, subjectId := "s1"
        scopes := [], authVersion := some 0, status := .active, currentTokenHash := some "t1"
        lastRotationOperationId := none, issuedAt := 0, lastRotatedAt := 0, expiresAt := 1000
        revokedAt := none, revokedReason := none }] } }
  refreshActivity := []

/-- A refresh whose rotation draws `texts`, and whose further calls meet the `fates`. -/
def refreshRun (texts : List String) (fates : List (Fate TokenSession.Draw)) :
    Option (TokenSession.RefreshTokenRotationResult × RefreshDatabase × List (Step RefreshOp) ×
      Except HttpFailure SharedAuthSessionResult × RefreshDatabase) :=
  (trace (performRefresh plain) refreshFails ⟨"", 0⟩ (texts.map fun text => .reply ⟨text, 0⟩)
    (rotateRefreshToken plain "t1").run signedIn).bind fun (_, rotation, s₁) =>
      match rotation with
      | .error _ => none
      | .ok rotated =>
        (trace (performRefresh plain) refreshFails ⟨"", 0⟩ fates
          (finishRefresh plain rotated).run s₁).map fun (l, r, s') => (rotated, s₁, l, r, s')

theorem refreshes_of_refreshRun {texts : List String} {fates : List (Fate TokenSession.Draw)}
    {rotated : TokenSession.RefreshTokenRotationResult} {s₁ s' : RefreshDatabase}
    {l : List (Step RefreshOp)} {r : Except HttpFailure SharedAuthSessionResult}
    (h : refreshRun texts fates = some (rotated, s₁, l, r, s')) :
    Refreshes plain "t1" signedIn rotated s₁ l r s' := by
  obtain ⟨⟨l₀, rotation, s₂⟩, hrotation, hrest⟩ := Option.bind_eq_some_iff.mp h
  cases rotation with
  | error e => cases hrest
  | ok rotated' =>
    obtain ⟨⟨l₁, r₁, s₃⟩, hfinish, heq⟩ := Option.map_eq_some_iff.mp hrest
    cases heq
    exact ⟨⟨l₀, traces_of_trace performRefresh_exec refreshFails_fallible hrotation⟩,
      traces_of_trace performRefresh_exec refreshFails_fallible hfinish⟩

def rotation : List String := ["", "", "", "op1", "", "t2"]

/-- The token is replaced, and its owner is answered. -/
theorem settled_ada : ∃ rotated s₁ l r s', Refreshes plain "t1" signedIn rotated s₁ l r s' ∧
    Settled rotated r s' ∧ ¬ Stranded plain rotated r s' := by
  have hrun : (refreshRun rotation [.reply ⟨"", 0⟩, .reply ⟨"j1", 0⟩]).map
      (fun (rotated, _, l, _) => (rotated.subjectType, l.map refreshLost)) =
        some (.staff, [false, false, false, false]) := by
    decide +kernel
  obtain ⟨⟨rotated, s₁, l, r, s'⟩, hrefresh, hview⟩ := Option.map_eq_some_iff.mp hrun
  obtain ⟨hsubject, hcalls⟩ := Prod.mk.inj hview
  have hrefreshes := refreshes_of_refreshRun hrefresh
  refine ⟨rotated, s₁, l, r, s', hrefreshes,
    (settled_iff (by decide) (by decide) hrefreshes).mpr ⟨fun step hstep => ?_, fun _ => ?_⟩⟩
  · have hmem : refreshLost step ∈ [false, false, false, false] := hcalls ▸ List.mem_map_of_mem hstep
    simpa using hmem
  · rw [Profiled, hsubject]
    trivial

/-- The record of the refresh is lost; the new token is given to nobody. -/
theorem stranded_ada : ∃ rotated s₁ l r s', Refreshes plain "t1" signedIn rotated s₁ l r s' ∧
    ¬ Settled rotated r s' ∧ Stranded plain rotated r s' := by
  have hrun : (refreshRun rotation
      [.reply ⟨"", 0⟩, .reply ⟨"j1", 0⟩, .reply ⟨"a1", 0⟩, .lose]).map
        (fun (rotated, _, _, r, s') => (r.toOption.isNone, s'.base.sessions.families.any fun f =>
          f.familyId = rotated.familyId ∧ f.status = .active ∧
            f.currentTokenHash = some rotated.refreshToken)) = some (true, true) := by
    decide +kernel
  obtain ⟨⟨rotated, s₁, l, r, s'⟩, hrefresh, hview⟩ := Option.map_eq_some_iff.mp hrun
  obtain ⟨hr, hfamily⟩ := Prod.mk.inj hview
  obtain ⟨f, hf, hheld⟩ := List.any_eq_true.mp hfamily
  obtain ⟨hid, hstatus, hhash⟩ := of_decide_eq_true hheld
  cases r with
  | ok a => cases hr
  | error e =>
    refine ⟨rotated, s₁, l, .error e, s', refreshes_of_refreshRun hrefresh, ?_, ⟨e, rfl⟩, f, hf, hid,
      hstatus, hhash⟩
    rintro (⟨a, heq, -⟩ | hinactive)
    · cases heq
    · exact hinactive f hf hid hstatus

end Execution

end SignIn
