import BookLibrary.Accounts.Completion
import BookLibrary.Accounts.Execution
import BookLibrary.SignIn.Execution

/-!
# Members and their reservations

Calls of `update` and `setMemberCredentials` one after the other, none of them failing. Each
reserves the identifier that a member is given and releases the one that it replaces, which
the member may still carry in its other field.
-/

namespace Accounts

open AuthIdentifiers Documents Interleaving SignIn

/-- The identifiers that the reservations of a member are made for. -/
def Member.carries (member : Member) (x : String) : Prop :=
  member.email = some x ∨ member.loginIdentifier = some x

/-- The member under the id carries the identifier. -/
def Bears (v : Database) (id x : String) : Prop :=
  ∃ member, v.member id = some member ∧ member.carries x

/-- What members carry and what is reserved for them: an identifier that a member carries and
that has been reserved for it, now or in the `past`, is reserved for it, and what is reserved
for a member it carries, save what was so without being carried from the start. -/
structure Agrees (v₀ : Database) (past : List Database) (v : Database) : Prop where
  carried : ∀ id x, (∃ u ∈ v :: past, u.owner x = some (.member, id)) → Bears v id x →
    v.owner x = some (.member, id)
  owned : ∀ id x, v.owner x = some (.member, id) →
    Bears v id x ∨ v₀.owner x = some (.member, id) ∧ ¬ Bears v₀ id x

section Exchange

/-- In one of its fields the member `id` has `new` for `old`, and the reservations follow. -/
structure Exchange (id : String) (old new other : Option String) (v v' : Database) : Prop where
  before : ∀ x, Bears v id x ↔ old = some x ∨ other = some x
  after : ∀ x, Bears v' id x ↔ new = some x ∨ other = some x
  rest : ∀ id' ≠ id, v'.member id' = v.member id'
  kept : ∀ x subject, v.owner x = some subject → v'.owner x = some subject ∨
    subject = (.member, id) ∧ old = some x ∧ new ≠ some x
  source : ∀ x subject, v'.owner x = some subject → v.owner x = some subject ∨
    subject = (.member, id) ∧ new = some x
  gained : ∀ x ≠ "", new = some x → old ≠ new → v'.owner x = some (.member, id)
  lost : ∀ x ≠ "", old = some x → old ≠ new → v'.owner x ≠ some (.member, id)

variable {v₀ v v' : Database} {past : List Database}

theorem bears_congr {id x : String} (h : v'.member id = v.member id) :
    Bears v' id x ↔ Bears v id x := by
  rw [Bears, Bears, h]

theorem Agrees.start (v : Database) : Agrees v [] v where
  carried := by
    rintro id x ⟨u, hu, howner⟩ -
    rwa [List.mem_singleton.mp hu] at howner
  owned id x h := by
    by_cases hb : Bears v id x
    · exact .inl hb
    · exact .inr ⟨h, hb⟩

/-- A call that changes nothing. -/
theorem Agrees.same (h : Agrees v₀ past v) : Agrees v₀ (v :: past) v where
  carried := by
    rintro id x ⟨u, hu, howner⟩ hb
    refine h.carried id x ⟨u, ?_, howner⟩ hb
    rcases List.mem_cons.mp hu with rfl | hu
    · exact List.mem_cons_self
    · exact hu
  owned := h.owned

/-- An exchange keeps to what is reserved, unless it gives up a reservation that the other
field needs. -/
theorem Agrees.exchange (h : Agrees v₀ past v) (hnamed : ∀ u ∈ v :: past, ∀ subject,
      u.owner "" ≠ some subject) {id : String} {old new other : Option String}
    (hx : Exchange id old new other v v')
    (hapart : old ≠ new → ∀ x ≠ "", old = some x → other = some x →
      v.owner x ≠ some (.member, id)) :
    Agrees v₀ (v :: past) v' where
  carried := by
    rintro id' x ⟨u, hu, howner⟩ hb
    rcases List.mem_cons.mp hu with rfl | hu
    · exact howner
    have hne : x ≠ "" := by
      rintro rfl
      exact hnamed u hu _ howner
    -- what was carried before is still reserved, or has just been given up
    have hold : Bears v id' x → v'.owner x = some (.member, id') ∨
        id' = id ∧ old = some x ∧ new ≠ some x := by
      intro hbefore
      rcases hx.kept x _ (h.carried id' x ⟨u, hu, howner⟩ hbefore) with hkept | ⟨hid, hgone⟩
      · exact .inl hkept
      · exact .inr ⟨congrArg Prod.snd hid, hgone⟩
    by_cases hid : id' = id
    · subst hid
      by_cases hbefore : Bears v id' x
      · rcases hold hbefore with hkept | ⟨-, hgone, hnew⟩
        · exact hkept
        · have hother := ((hx.after x).mp hb).resolve_left hnew
          have hchanged : old ≠ new := by
            rintro rfl
            exact hnew hgone
          exact absurd (h.carried id' x ⟨u, hu, howner⟩ hbefore)
            (hapart hchanged x hne hgone hother)
      · rw [hx.before, not_or] at hbefore
        have hnew := ((hx.after x).mp hb).resolve_right hbefore.2
        refine hx.gained x hne hnew ?_
        rintro rfl
        exact hbefore.1 hnew
    · rcases hold ((bears_congr (hx.rest id' hid)).mp hb) with hkept | ⟨heq, -⟩
      · exact hkept
      · exact absurd heq hid
  owned := by
    intro id' x howner
    rcases hx.source x _ howner with hbefore | ⟨heq, hnew⟩
    · have hne : x ≠ "" := by
        rintro rfl
        exact hnamed v List.mem_cons_self _ hbefore
      rcases h.owned id' x hbefore with hb | hstray
      · left
        by_cases hid : id' = id
        · subst hid
          refine (hx.after x).mpr (((hx.before x).mp hb).imp_left fun hold => ?_)
          by_contra hnew
          refine hx.lost x hne hold ?_ howner
          rintro rfl
          exact hnew hold
        · exact (bears_congr (hx.rest id' hid)).mpr hb
      · exact .inr hstray
    · obtain rfl : id' = id := congrArg Prod.snd heq
      exact .inl ((hx.after x).mpr (.inl hnew))

end Exchange

namespace MembersService

variable {env : Environment} {v v₁ v' : Database}

section Acquired

/-- What has been reserved before the save. -/
structure Acquires (next : Option String) (subject : Subject) (v v' : Database) : Prop where
  sound : Sound v'
  spared : Spared v v'
  available : ∀ x, next = some x → v.owner x = some subject ∨ v.owner x = none
  owner : ∀ y, v'.owner y = if next = some y then some subject else v.owner y

theorem Acquires.nothing (hv : Sound v) (subject : Subject) : Acquires none subject v v :=
  ⟨hv, .refl v, nofun, fun y => by simp⟩

theorem Acquires.of_obtains {x : String} {subject : Subject} (hv : Sound v)
    (h : Obtains x subject v (.ok ()) v') : Acquires (some x) subject v v' := by
  cases h with
  | held hheld =>
    refine ⟨hv, .refl v, fun y hy => ?_, fun y => ?_⟩
    · cases hy
      exact .inl hheld
    · by_cases hy : some x = some y
      · cases hy
        rw [if_pos rfl, hheld]
      · rw [if_neg hy]
  | taken free sound spared owner =>
    refine ⟨sound, spared, fun y hy => ?_, fun y => ?_⟩
    · cases hy
      exact .inr free.owner
    · simp only [owner, Option.some.injEq, eq_comm]

/-- A reservation before the save, the save, and a release after it. -/
theorem Acquires.exchange {α : Type} {member now : Member} {r : Except Failure α}
    {next previous old new other : Option String} (h₁ : Acquires next (.member, member.id) v v₁)
    (h₂ : Replaces now previous v₁ r v') (hmember : v.member member.id = some member)
    (hid : now.id = member.id) (hbefore : ∀ x, member.carries x ↔ old = some x ∨ other = some x)
    (hafter : ∀ x, now.carries x ↔ new = some x ∨ other = some x)
    (hnext : ∀ x, next = some x → new = some x)
    (hprevious : ∀ x, previous = some x → old = some x ∧ old ≠ new)
    (hgains : ∀ x ≠ "", new = some x → old ≠ new → next = some x)
    (hloses : ∀ x ≠ "", old = some x → old ≠ new → previous = some x) :
    Exchange member.id old new other v v' := by
  have hmid : ∀ id, v'.member id = if id = member.id then some now else v.member id := by
    intro id
    rw [h₂.member, hid, Database.member, h₁.spared.members]
    rfl
  have howner : ∀ y, v'.owner y =
      if previous = some y ∧ v₁.owner y = some (.member, member.id) then none else v₁.owner y := by
    intro y
    rw [h₂.owner, hid]
  refine ⟨fun x => ?_, fun x => ?_, fun id hne => ?_, fun x subject hx => ?_, fun x subject hx => ?_,
    fun x hne hnew hchanged => ?_, fun x hne hold hchanged hx => ?_⟩
  · rw [Bears, hmember]
    simpa using hbefore x
  · rw [Bears, hmid, if_pos rfl]
    simpa using hafter x
  · rw [hmid, if_neg hne]
  · have hx₁ : v₁.owner x = some subject := by
      rw [h₁.owner]
      by_cases hn : next = some x
      · rcases h₁.available x hn with hsame | hnone
        · rw [if_pos hn, ← hsame, hx]
        · rw [hnone] at hx
          cases hx
      · rw [if_neg hn, hx]
    rw [howner]
    by_cases hp : previous = some x ∧ v₁.owner x = some (.member, member.id)
    · obtain ⟨hold, hchanged⟩ := hprevious x hp.1
      rw [hx₁, Option.some.injEq] at hp
      exact .inr ⟨hp.2, hold, fun hnew => hchanged (hold.trans hnew.symm)⟩
    · rw [if_neg hp, hx₁]
      exact .inl rfl
  · rw [howner] at hx
    split at hx
    · cases hx
    · rw [h₁.owner] at hx
      by_cases hn : next = some x
      · rw [if_pos hn, Option.some.injEq] at hx
        exact .inr ⟨hx.symm, hnext x hn⟩
      · rw [if_neg hn] at hx
        exact .inl hx
  · have hx₁ : v₁.owner x = some (.member, member.id) := by
      rw [h₁.owner, if_pos (hgains x hne hnew hchanged)]
    rw [howner, if_neg, hx₁]
    rintro ⟨hp, -⟩
    exact hchanged ((hprevious x hp).1.trans hnew.symm)
  · rw [howner] at hx
    split at hx
    · cases hx
    · next hp => exact hp ⟨hloses x hne hold hchanged, hx⟩

end Acquired

theorem named_eq_some {identifier : Option String} {x : String} :
    named identifier = some x ↔ identifier = some x ∧ x ≠ "" := by
  rw [named, Option.filter_eq_some_iff, decide_eq_true_eq]

/-- A policy check, if there is to be one, and what follows it. -/
theorem permitted_serves {α : Type} {Q : Except Failure α → Database → Prop} {x : Handler α}
    (hv : Sound v) (membershipTypeId : Option String)
    (herr : membershipTypeId.all (permits v) = false → ∀ e, Q (.error e) v)
    (hx : membershipTypeId.all (permits v) = true → Serves x v Q) :
    Serves (match membershipTypeId with
      | some id => validateActivePolicy id >>= fun _ => x
      | none => x) v Q := by
  cases membershipTypeId with
  | none => exact hx rfl
  | some id =>
    refine Leads.run_bind (validateActivePolicy_serves hv id) ?_ ?_
    · rintro l b v₁ ⟨rfl, hpermits⟩
      exact hx (hpermits.mp rfl)
    · rintro l e v₁ ⟨rfl, hpermits⟩
      refine herr ?_ e
      simpa using hpermits

/-- The identifier is to be had for the member. -/
def Available (v : Database) (id x : String) : Prop := v.owner x = some (.member, id) ∨ v.Free x

/-- What a call comes to: nothing, or an exchange of one of the member's identifiers, which
leaves the other field its reservation. -/
def Settles (v v' : Database) : Prop :=
  Sound v' ∧ (v' = v ∨ ∃ id old new other, Exchange id old new other v v' ∧
    (old ≠ new → ∀ x ≠ "", old = some x → other = some x → v.owner x ≠ some (.member, id)))

section Update

variable {dto : UpdateMemberDto} {actor : Option AuditActor} {member : Member}

/-- The address that `update` reserves. -/
def reservedEmail (env : Environment) (dto : UpdateMemberDto) (member : Member) : Option String :=
  if emailChanged env dto member then named (nextEmail env dto) else none

/-- Where an `update` that does not fail leaves members and reservations in agreement. When it
is refused by the policy it has reserved no new address; else the address that it replaces
is not reserved for the member's sign-in as well. -/
def update.Keeps (env : Environment) (dto : UpdateMemberDto) (member : Member) (v : Database) :
    Prop :=
  if dto.membershipTypeId.all (permits v) then
    emailChanged env dto member = true →
      (∀ x, named (nextEmail env dto) = some x → Available v member.id x) →
      ∀ x, named member.email = some x → member.loginIdentifier = some x →
        v.owner x ≠ some (.member, member.id)
  else ∀ x, reservedEmail env dto member = some x → ¬ v.Free x

theorem applyUpdates_carries (x : String) : (applyUpdates env dto actor member).carries x ↔
    (nextEmail env dto).orElse (fun _ => member.email) = some x ∨ member.loginIdentifier = some x :=
  Iff.rfl

theorem emailChanged_iff : emailChanged env dto member = true ↔
    member.email ≠ (nextEmail env dto).orElse fun _ => member.email := by
  rw [emailChanged, Bool.and_eq_true, decide_eq_true_eq, decide_eq_true_eq]
  cases nextEmail env dto with
  | none => exact iff_of_false (fun h => h.1 rfl) fun h => h rfl
  | some x => exact ⟨fun h => Ne.symm h.2, fun h => ⟨(by rintro ⟨⟩), Ne.symm h⟩⟩

/-- The save of an update, and what follows it, when the address has been reserved. -/
theorem saved_serves (hmember : v.member member.id = some member)
    (h₁ : Acquires (reservedEmail env dto member) (.member, member.id) v v₁)
    (hkeeps : emailChanged env dto member = true → ∀ x, named member.email = some x →
      member.loginIdentifier = some x → v.owner x ≠ some (.member, member.id)) :
    Serves (tryCatch (persist env dto actor member) fun error => do
        if emailChanged env dto member then
          forIdentifier (nextEmail env dto) fun nextEmail =>
            releaseIdentifier nextEmail member.id (actor.map (·.id))
        throw error) v₁ fun _ v' => Settles v v' := by
  have hmember₁ : v₁.member member.id = some member := by
    rw [Database.member, h₁.spared.members]
    exact hmember
  refine Leads.run_tryCatch (persist_serves h₁.sound hmember₁) (fun l a v' h₂ => ?_)
    fun l e v' h₂ => by obtain ⟨a, ha⟩ := h₂.returned; cases ha
  refine ⟨h₂.sound, .inr ⟨member.id, member.email, (nextEmail env dto).orElse fun _ => member.email,
    member.loginIdentifier, ?_, fun hchanged x hne hold => ?_⟩⟩
  · refine h₁.exchange h₂ hmember rfl (fun x => Iff.rfl) applyUpdates_carries ?_ ?_ ?_ ?_
    · intro x hx
      rw [reservedEmail] at hx
      split at hx
      · rw [(named_eq_some.mp hx).1]
        rfl
      · cases hx
    · intro x hx
      split at hx
      · next hc => exact ⟨(named_eq_some.mp hx).1, emailChanged_iff.mp hc⟩
      · cases hx
    · intro x hne hnew hchanged
      rw [reservedEmail, if_pos (emailChanged_iff.mpr hchanged)]
      refine named_eq_some.mpr ⟨?_, hne⟩
      cases hn : nextEmail env dto with
      | none => exact absurd (by rw [hn]; rfl) hchanged
      | some y => simpa [hn] using hnew
    · intro x hne hold hchanged
      rw [if_pos (emailChanged_iff.mpr hchanged)]
      exact named_eq_some.mpr ⟨hold, hne⟩
  · exact hkeeps (emailChanged_iff.mpr hchanged) x (named_eq_some.mpr ⟨hold, hne⟩)

theorem update_serves (hv : Sound v) (id : String)
    (hkeeps : ∀ oid : Documents.ObjectId, ObjectId.parse id = some oid → ∀ member,
      v.member oid.1 = some member → update.Keeps env dto member v) :
    Serves (update env dto actor id) v fun _ v' => Settles v v' := by
  have hnothing : Settles v v := ⟨hv, .inl rfl⟩
  rw [update]
  refine Leads.run_bind (findDocumentById_serves hv id) ?_ ?_
  · rintro l member v₀ ⟨rfl, hfound⟩
    obtain ⟨oid, hid, hmember⟩ := hfound member rfl
    have hkept := hkeeps oid hid member hmember
    rw [← Database.id_of_member hmember] at hmember
    -- the policy check and the `try`, when the address has been reserved
    have hrest : ∀ {v₁}, Acquires (reservedEmail env dto member) (.member, member.id) v₀ v₁ →
        (dto.membershipTypeId.all (permits v₀) = false → v₁ = v₀) →
        (emailChanged env dto member = true → ∀ x, named (nextEmail env dto) = some x →
          Available v₀ member.id x) →
        Serves (do
          match dto.membershipTypeId with
          | some membershipTypeId => validateActivePolicy membershipTypeId
          | none => pure ()
          tryCatch (persist env dto actor member) fun error => do
            if emailChanged env dto member then
              forIdentifier (nextEmail env dto) fun nextEmail =>
                releaseIdentifier nextEmail member.id (actor.map (·.id))
            throw error) v₁ fun _ v' => Settles v₀ v' := by
      intro v₁ h₁ hrefused havailable
      have hpermits : permits v₁ = permits v₀ := by
        funext t
        rw [permits, permits, h₁.spared.membershipTypes]
      refine permitted_serves h₁.sound dto.membershipTypeId (fun hp e => ?_) fun hp => ?_
      · rw [hpermits] at hp
        exact hrefused hp ▸ hnothing
      · rw [hpermits] at hp
        rw [update.Keeps, if_pos hp] at hkept
        exact saved_serves hmember h₁ fun hc => hkept hc (havailable hc)
    by_cases hc : emailChanged env dto member = true
    · rw [if_pos hc]
      have hreserved : reservedEmail env dto member = named (nextEmail env dto) := if_pos hc
      cases hn : named (nextEmail env dto) with
      | none =>
        rw [forIdentifier_none hn]
        refine hrest ?_ (fun _ => rfl) fun _ x hx => ?_
        · rw [hreserved, hn]
          exact .nothing hv _
        · rw [hn] at hx
          cases hx
      | some n =>
        rw [forIdentifier_some hn]
        refine Leads.run_bind (reserve_serves hv n (.member, member.id) _ _ _) ?_ ?_
        · intro l u v₁ hobtains
          refine hrest ?_ (fun hp => ?_) fun _ x hx => ?_
          · rw [hreserved, hn]
            exact .of_obtains hv hobtains
          · rw [update.Keeps, if_neg (by simp [hp])] at hkept
            cases hobtains with
            | held => rfl
            | taken free => exact (hkept n (hreserved.trans hn) free).elim
          · rw [hn, Option.some.injEq] at hx
            subst hx
            cases hobtains with
            | held hheld => exact .inl hheld
            | taken free => exact .inr free
        · intro l e v₁ hobtains
          cases hobtains
          exact hnothing
    · rw [if_neg hc]
      refine hrest ?_ (fun _ => rfl) fun hc' => absurd hc' hc
      rw [reservedEmail, if_neg hc]
      exact .nothing hv _
  · rintro l e v₀ ⟨rfl, -⟩
    exact hnothing

end Update

section Credentials

variable {actor : Option AuditActor} {member : Member}

/-- Where a call of `setMemberCredentials` that does not fail leaves members and reservations in
agreement: the login identifier that it replaces is not the member's e-mail address as well. -/
def setMemberCredentials.Keeps (env : Environment) (loginIdentifier : String) (member : Member)
    (v : Database) : Prop :=
  let n := normalizeLoginIdentifier env loginIdentifier
  (v.members.any fun d => !decide (d.id = member.id) && decide (d.loginIdentifier = some n))
      = false →
    Available v member.id n → member.loginIdentifier ≠ some n →
    ∀ x, named member.loginIdentifier = some x → member.email = some x →
      v.owner x ≠ some (.member, member.id)

/-- The save of new credentials, and what follows it, when the login identifier has been
reserved. -/
theorem savedCredentials_serves {now : Member} {n : String}
    (hmember : v.member member.id = some member)
    (h₁ : Acquires (some n) (.member, member.id) v v₁) (hid : now.id = member.id)
    (hlogin : now.loginIdentifier = some n) (hemail : now.email = member.email)
    (hkeeps : member.loginIdentifier ≠ some n → ∀ x, named member.loginIdentifier = some x →
      member.email = some x → v.owner x ≠ some (.member, member.id)) :
    Serves (tryCatch (persistCredentials actor member now n) fun error => do
        releaseIdentifier n member.id (actor.map (·.id))
        throw error) v₁ fun _ v' => Settles v v' := by
  have hmember₁ : v₁.member member.id = some member := by
    rw [Database.member, h₁.spared.members]
    exact hmember
  refine Leads.run_tryCatch (persistCredentials_serves h₁.sound hmember₁ hid n)
    (fun l a v' h₂ => ?_) fun l e v' h₂ => by obtain ⟨a, ha⟩ := h₂.returned; cases ha
  refine ⟨h₂.sound, .inr ⟨member.id, member.loginIdentifier, some n, member.email, ?_,
    fun hchanged x hne hold => hkeeps hchanged x (named_eq_some.mpr ⟨hold, hne⟩)⟩⟩
  refine h₁.exchange h₂ hmember hid (fun x => or_comm) (fun x => ?_) (fun _ => id) ?_
    (fun _ _ hnew _ => hnew) fun x hne hold hchanged => ?_
  · rw [Member.carries, hlogin, hemail, or_comm]
  · intro x hx
    split at hx
    · next hchanged => exact ⟨(named_eq_some.mp hx).1, hchanged⟩
    · cases hx
  · rw [if_pos hchanged]
    exact named_eq_some.mpr ⟨hold, hne⟩

theorem setMemberCredentials_serves (hv : Sound v) (id loginIdentifier password : String)
    (hkeeps : ∀ oid : Documents.ObjectId, ObjectId.parse id = some oid → ∀ member,
      v.member oid.1 = some member → setMemberCredentials.Keeps env loginIdentifier member v) :
    Serves (setMemberCredentials env actor id loginIdentifier password) v fun _ v' =>
      Settles v v' := by
  have hnothing : Settles v v := ⟨hv, .inl rfl⟩
  rw [setMemberCredentials]
  refine Leads.run_bind (findDocumentById_serves hv id) ?_ ?_
  · rintro l member v₀ ⟨rfl, hfound⟩
    obtain ⟨oid, hid, hmember⟩ := hfound member rfl
    have hkept := hkeeps oid hid member hmember
    rw [← Database.id_of_member hmember] at hmember
    refine find_serves fun taken htaken => ?_
    refine Leads.run_ite (fun _ => Leads.run_throw hnothing) fun hfree => ?_
    replace hkept := hkept (htaken.symm.trans (by simpa using hfree))
    refine Leads.run_bind (reserve_serves hv _ (.member, member.id) _ _ _) ?_ ?_
    · intro l u v₁ hobtains
      replace hkept := hkept (by
        cases hobtains with
        | held hheld => exact .inl hheld
        | taken free => exact .inr free)
      exact draw_serves fun passwordHash => draw_serves fun passwordUpdatedAt =>
        savedCredentials_serves hmember (.of_obtains hv hobtains) rfl rfl rfl hkept
    · intro l e v₁ hobtains
      cases hobtains
      exact hnothing
  · rintro l e v₀ ⟨rfl, -⟩
    exact hnothing

end Credentials

/-- The calls that give members their identifiers. -/
inductive IdentifierCall where
  | update (id : String) (dto : UpdateMemberDto) (actor : Option AuditActor)
  | setMemberCredentials (id loginIdentifier password : String) (actor : Option AuditActor)

namespace IdentifierCall

def body (env : Environment) : IdentifierCall → Handler MemberResponseDto
  | .update id dto actor => MembersService.update env dto actor id
  | .setMemberCredentials id loginIdentifier password actor =>
    MembersService.setMemberCredentials env actor id loginIdentifier password

/-- Where the call leaves members and reservations in agreement. -/
def Keeps (env : Environment) (v : Database) : IdentifierCall → Prop
  | .update id dto _ => ∀ oid : Documents.ObjectId, ObjectId.parse id = some oid →
      ∀ member, v.member oid.1 = some member → update.Keeps env dto member v
  | .setMemberCredentials id loginIdentifier _ _ => ∀ oid : Documents.ObjectId,
      ObjectId.parse id = some oid → ∀ member, v.member oid.1 = some member →
        setMemberCredentials.Keeps env loginIdentifier member v

theorem body_serves (hv : Sound v) {call : IdentifierCall} (hkeeps : call.Keeps env v) :
    Serves (call.body env) v fun _ v' => Settles v v' := by
  cases call with
  | update id dto actor => exact update_serves hv id hkeeps
  | setMemberCredentials id loginIdentifier password actor =>
    exact setMemberCredentials_serves hv id loginIdentifier password hkeeps

end IdentifierCall

/-- Calls one after the other, each where `P` says, and none of them failing. `past` are the
databases before each of them, the latest first. -/
inductive Run (env : Environment) (P : Database → IdentifierCall → Prop) (s₀ : Store) :
    List Database → Store → Prop
  | start : Run env P s₀ [] s₀
  | call {past : List Database} {s s' : Store} {call : IdentifierCall} {l : List (Step Op)}
      {r : Except Failure MemberResponseDto} (before : Run env P s₀ past s)
      (admitted : P s.committed call)
      (served : Traces Served Unfailing (call.body env).run s l r s') :
      Run env P s₀ (s.committed :: past) s'

theorem Run.sound {P : Database → IdentifierCall → Prop} {s₀ s : Store} {past : List Database}
    (hs : Sound s₀.committed) (hP : ∀ v call, P v call → call.Keeps env v)
    (h : Run env P s₀ past s) : ∀ u ∈ s.committed :: past, Sound u := by
  induction h with
  | start =>
    intro u hu
    rw [List.mem_singleton.mp hu]
    exact hs
  | call before admitted served ih =>
    have hv := ih _ List.mem_cons_self
    obtain ⟨v', rfl, hsettles⟩ :=
      IdentifierCall.body_serves hv (hP _ _ admitted) _ rfl _ _ _ served
    intro u hu
    rcases List.mem_cons.mp hu with rfl | hu
    · exact hsettles.1
    · exact ih u hu

section Runs

/-- `Served` as a function. -/
def serve (β : Type) (op : Op β) (s : Store) (x : Choice) : Option (β × Store) :=
  (execute β op s x).filter fun r => !refused β op r.1

theorem serve_served {β : Type} {op : Op β} {s s' : Store} {x : Choice} {b : β}
    (h : serve β op s x = some (b, s')) : Served β op s b s' := by
  obtain ⟨hexec, hrefused⟩ := Option.filter_eq_some_iff.mp h
  exact ⟨execute_exec hexec, by simpa using hrefused⟩

/-- The trace of a handler whose every call is served. -/
theorem traces_of_serve {α : Type} {p : Prog Op α} {s s' : Store} {x : Choice} {l : List (Step Op)}
    {a : α} (h : trace serve (fun _ _ => false) x [] p s = some (l, a, s')) :
    Traces Served Unfailing p s l a s' :=
  traces_of_trace serve_served (fun h => by cases h) h

/-- The calls of a list, the last of them first. -/
def serveAll (env : Environment) (s₀ : Store) :
    List (IdentifierCall × Choice) → Option (List Database × Store)
  | [] => some ([], s₀)
  | (call, x) :: earlier => (serveAll env s₀ earlier).bind fun (past, s) =>
      (trace serve (fun _ _ => false) x [] (call.body env).run s).map fun (_, _, s') =>
        (s.committed :: past, s')

theorem run_of_serveAll {s₀ s : Store} {past : List Database} {calls : List (IdentifierCall × Choice)}
    (h : serveAll env s₀ calls = some (past, s)) : Run env (fun _ _ => True) s₀ past s := by
  induction calls generalizing past s with
  | nil =>
    cases h
    exact .start
  | cons call earlier ih =>
    obtain ⟨⟨past', s'⟩, hearlier, hlast⟩ := Option.bind_eq_some_iff.mp h
    obtain ⟨⟨l, r, s''⟩, htrace, heq⟩ := Option.map_eq_some_iff.mp hlast
    cases heq
    exact .call (ih hearlier) trivial (traces_of_serve htrace)

/-- The member is given another e-mail address. -/
def renames (email : String) : IdentifierCall :=
  .update memberId.1 ⟨none, some email, none, none, none, none⟩ none

theorem oneMember_sound : Sound oneMember :=
  ⟨by decide, List.nodup_nil, fun _ h => by cases h⟩

end Runs

/-- In every run of calls that keep to it, members and reservations agree. -/
theorem members_agree {s₀ s : Store} {past : List Database} (hs : Sound s₀.committed)
    (h : Run env (fun v call => call.Keeps env v) s₀ past s) :
    Agrees s₀.committed past s.committed := by
  induction h with
  | start => exact .start _
  | @call past s s' call l r before admitted served ih =>
    have hsound := before.sound hs fun _ _ => id
    obtain ⟨v', rfl, -, hsame | ⟨id, old, new, other, hexchange, hapart⟩⟩ :=
      IdentifierCall.body_serves (hsound _ List.mem_cons_self) admitted _ rfl _ _ _ served
    · rw [hsame]
      exact ih.same
    · exact ih.exchange (fun u hu _ howner => (hsound u hu).owner_ne howner rfl) hexchange hapart

/-- The member had no address. -/
theorem members_agree_renamed : ∃ s past, s.owner "o@library.local" = some (.member, memberId.1) ∧
    past = [oneMember] ∧ Agrees oneMember past s := by
  have hrun : (trace serve (fun _ _ => false) drawsAnything []
      ((renames "o@library.local").body plain).run (.init oneMember)).map
        (fun t => t.2.2.committed.owner "o@library.local") =
      some (some (.member, memberId.1)) := by
    decide +kernel
  obtain ⟨⟨l, r, s⟩, htrace, howner⟩ := Option.map_eq_some_iff.mp hrun
  have hkeeps : (renames "o@library.local").Keeps plain oneMember := by
    intro oid hid member hmember
    have hemail : member.email = none := by
      rw [List.mem_singleton.mp (List.mem_of_find?_eq_some hmember)]
    simp [update.Keeps, named, hemail]
  have hafter : Run plain (fun v call => call.Keeps plain v) (.init oneMember) [oneMember] s :=
    .call .start hkeeps (traces_of_serve htrace)
  exact ⟨s.committed, [oneMember], howner, rfl, members_agree oneMember_sound hafter⟩

/-- A member signs in by "olivia". With that as its address as well, and then another address,
the member is left without the reservation of what it signs in by. -/
theorem shared_identifier_released : ¬ ∀ (env : Environment) (s₀ s : Store) (past : List Database),
    Sound s₀.committed → Run env (fun _ _ => True) s₀ past s →
      Agrees s₀.committed past s.committed := by
  intro hagrees
  have hrun : (serveAll plain (.init oneMember)
      [(renames "o@library.local", ⟨2000, ⟨"f00000000000000000000001", by decide⟩, ⟨false, ""⟩, 0⟩),
        (renames "olivia", drawsAnything)]).map (fun r =>
      (r.1.any fun u => decide (u.owner "olivia" = some (.member, memberId.1)),
        (r.2.committed.member memberId.1).map (·.loginIdentifier), r.2.committed.owner "olivia")) =
      some (true, some (some "olivia"), none) := by
    decide +kernel
  obtain ⟨⟨past, s⟩, hserve, hview⟩ := Option.map_eq_some_iff.mp hrun
  simp only [Prod.mk.injEq, List.any_eq_true, decide_eq_true_eq, Option.map_eq_some_iff] at hview
  obtain ⟨⟨u, hu, howner⟩, ⟨member, hmember, hlogin⟩, hreleased⟩ := hview
  have hheld := (hagrees plain _ s past oneMember_sound (run_of_serveAll hserve)).carried
    memberId.1 "olivia" ⟨u, List.mem_cons_of_mem _ hu, howner⟩ ⟨member, hmember, .inr hlogin⟩
  rw [hreleased] at hheld
  cases hheld

end MembersService

end Accounts
