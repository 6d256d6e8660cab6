import BookLibrary.Accounts.Compensation

/-!
# What the member service does to the members

`create` and `update` on their own, whatever their calls throw: at most one member is
written, the one they are about, and every other member stays as it is.
-/

namespace Accounts

open AuthIdentifiers Documents Interleaving SignIn

variable {env : Environment} {base v v' : Database}

section Aside

/-- Calls outside of all transactions that write no account. -/
def Aside : (β : Type) → Op β → Prop
  | _, .inr (.inl (.write session w)) => session = none ∧
      (w.purpose = .reservation ∨ w.purpose = .elsewhere ∨ ∃ x, w.purpose = .release x)
  | _, .inr (.inl _) => False
  | _, _ => True

def Document.isMember : Document → Bool
  | .member _ => true
  | _ => false

/-- The members are as they were. -/
structure Spared (v v' : Database) : Prop where
  indexed : v.Indexed → v'.Indexed
  members : v'.members = v.members
  membershipTypes : v'.membershipTypes = v.membershipTypes

theorem Spared.refl (v : Database) : Spared v v := ⟨id, rfl, rfl⟩

theorem Spared.trans {v'' : Database} (h : Spared v v') (h' : Spared v' v'') : Spared v v'' :=
  ⟨fun hv => h'.indexed (h.indexed hv), h'.members.trans h.members,
    h'.membershipTypes.trans h.membershipTypes⟩

theorem members_put {d : Document} (h : d.isMember = false) : (v.put d).members = v.members := by
  cases d with
  | member d => cases h
  | _ => rfl

theorem membershipTypes_putAll {docs : List Document} :
    (docs.foldr Database.put v).membershipTypes = v.membershipTypes := by
  induction docs with
  | nil => rfl
  | cons d docs ih =>
    rw [← ih]
    cases d <;> rfl

theorem members_putAll {docs : List Document} (h : ∀ d ∈ docs, d.isMember = false) :
    (docs.foldr Database.put v).members = v.members := by
  induction docs with
  | nil => rfl
  | cons d docs ih =>
    rw [List.foldr_cons, members_put (h d List.mem_cons_self)]
    exact ih fun d' hd' => h d' (List.mem_cons_of_mem _ hd')

/-- A write for one of these purposes leaves no member. -/
theorem docs_of_purpose {w : Write}
    (hw : w.purpose = .reservation ∨ w.purpose = .elsewhere ∨ ∃ x, w.purpose = .release x) :
    ∀ d ∈ (schema.write w v).docs, d.isMember = false := by
  have hinsert : ∀ d : Document, d.isMember = false →
      ∀ d' ∈ (v.insert d).docs, d'.isMember = false := by
    intro d hd d' hd'
    rw [Database.insert] at hd'
    split at hd'
    · cases hd'
    · rw [List.mem_singleton.mp hd']
      exact hd
  have hupdate : ∀ {D : Type} (wrap : D → Document) (p : D → Bool) (f : D → D) (docs : List D),
      (∀ d, (wrap d).isMember = false) →
        ∀ d' ∈ (Database.update wrap p f docs).docs, d'.isMember = false := by
    intro D wrap p f docs hwrap d' hd'
    rw [Database.update] at hd'
    split at hd'
    · rw [List.mem_singleton.mp hd']
      exact hwrap _
    · cases hd'
  have hunchecked : ∀ d ∈ (v.unchecked w).docs, d.isMember = false := by
    cases w with
    | insertIdentifier d => exact hinsert _ rfl
    | claimReleased => exact hupdate _ _ _ _ fun _ => rfl
    | releaseIdentifier => exact hupdate _ _ _ _ fun _ => rfl
    | revokeFamilies =>
      intro d hd
      obtain ⟨f, -, rfl⟩ := List.mem_map.mp hd
      rfl
    | recordActivity e => exact hinsert _ rfl
    | _ => rcases hw with h | h | ⟨x, h⟩ <;> cases h
  rw [Database.write_eq]
  split
  · exact hunchecked
  · exact fun d hd => by cases hd

theorem Spared.wrote {w : Write}
    (hw : w.purpose = .reservation ∨ w.purpose = .elsewhere ∨ ∃ x, w.purpose = .release x) :
    Spared v (v.wrote w) :=
  ⟨fun hv => Database.wrote_indexed hv w, members_putAll (docs_of_purpose hw),
    membershipTypes_putAll⟩

theorem goes_aside {β : Type} {op : Op β} {s s₁ : Store} {o : Outcome β} (hop : Aside β op)
    (hs : At none base v s) (h : Goes exec fallible op s o s₁) :
    ∃ v₁, At none base v₁ s₁ ∧ Spared v v₁ := by
  rcases op with ⟨session, q⟩ | c | op
  · rcases h.applied with ⟨-, rfl⟩ | ⟨b, -, -, rfl⟩
    · exact ⟨v, hs, .refl v⟩
    · exact ⟨v, hs, .refl v⟩
  · cases c with
    | write session w =>
      obtain ⟨rfl, hw⟩ := hop
      rcases goes_write hs h with ⟨-, hs₁⟩ | ⟨-, hs₁⟩
      · exact ⟨v, hs₁, .refl v⟩
      · exact ⟨_, hs₁, .wrote hw⟩
    | _ => exact hop.elim
  · rw [goes_draw h]
    exact ⟨v, hs, .refl v⟩

/-- A program of such calls spares the members, however it ends. -/
theorem aside_shows {α : Type} {p : Prog Op α} (hp : p.Confined Aside) :
    Shows none base p v fun _ _ v' => Spared v v' := by
  induction p generalizing v with
  | done a => exact Leads.done (.refl v)
  | call op next ih =>
    refine Leads.call fun s hs o s₁ hgoes => ?_
    obtain ⟨v₁, hs₁, hspared⟩ := goes_aside hp.1 hs hgoes
    exact ⟨v₁, hs₁, (ih _ (hp.2 _)).mono fun l a v' h => hspared.trans h⟩

theorem aside_draw {γ : Type} (op : Draw γ) : Aside γ (drawn op) := trivial

theorem aside_reserve {normalizedIdentifier subjectId : String}
    {claimedType : Option AuthIdentifierType} {createdType : AuthIdentifierType}
    {subjectType : AuthIdentifierSubjectType} {actorId : Option String} :
    (reserve none normalizedIdentifier claimedType createdType subjectType subjectId
      actorId).run.Confined Aside :=
  confined_reserve trivial (fun _ hw => ⟨rfl, .inl hw⟩) aside_draw

theorem aside_release {normalizedIdentifier subjectId : String}
    {subjectType : AuthIdentifierSubjectType} {actorId : Option String} :
    (release none normalizedIdentifier subjectType subjectId actorId).run.Confined Aside :=
  confined_release (fun _ hw => ⟨rfl, .inr (.inr ⟨_, hw⟩)⟩) aside_draw

theorem aside_recordActivity (e : String → SecurityActivityEvent) :
    (recordActivity e).run.Confined Aside :=
  confined_recordActivity e (fun _ hw => ⟨rfl, .inr (.inl hw)⟩) aside_draw

theorem aside_revokeSessions {subjectType : AuthIdentifierSubjectType} {subjectId reason : String} :
    (revokeSessions subjectType subjectId reason).run.Confined Aside :=
  confined_revokeSessions (fun _ hw => ⟨rfl, .inr (.inl hw)⟩) aside_draw

/-- `if (c) { x }`, and then the rest. -/
theorem aside_if {α : Type} {c : Prop} [Decidable c] {x : Handler PUnit} {f : PUnit → Handler α}
    (hx : x.run.Confined Aside) (hf : ∀ u, (f u).run.Confined Aside) :
    (if c then x >>= f else f ⟨⟩).run.Confined Aside :=
  .run_ite (fun _ => .run_bind hx hf) fun _ => hf ⟨⟩

end Aside

namespace MembersService

section Parts

theorem aside_forIdentifier {identifier : Option String} {f : String → Handler Unit}
    (hf : ∀ x, (f x).run.Confined Aside) : (forIdentifier identifier f).run.Confined Aside := by
  cases identifier with
  | none => exact .run_pure
  | some x => exact .run_ite (fun _ => .run_pure) fun _ => hf x

theorem aside_recordMemberChange {member : Member} {actor : Option AuditActor} {b b' : Bool} :
    (recordMemberChange member actor b b').run.Confined Aside := by
  rw [recordMemberChange]
  exact aside_if (aside_recordActivity _) fun _ =>
    .run_ite (fun _ => aside_recordActivity _) fun _ => .run_pure

theorem validateActivePolicy_checks (id : String) : Shows none base (validateActivePolicy id).run v
    (Still (fun _ => ∃ oid : Documents.ObjectId, ObjectId.parse id = some oid) v) := by
  cases hid : ObjectId.parse id with
  | none =>
    rw [validateActivePolicy, toMongoObjectId_none hid]
    exact Leads.run_throw ⟨rfl, rfl, fun a ha => by cases ha⟩
  | some oid =>
    exact (validateActivePolicy_shows id).mono fun l r v' h => ⟨h.1, h.2.1, fun _ _ => ⟨oid, rfl⟩⟩

/-- The save of a member that is stored as it was loaded, whose answer may be lost. -/
theorem save_edits {loaded now : Member} (hv : v.Indexed)
    (hloaded : v.member loaded.id = some loaded) (hnow : now.id = loaded.id) :
    Shows none base (save loaded now).run v fun _ _ v' =>
      v'.Indexed ∧ (v' = v ∨ v' = v.put (.member now)) := by
  have hwrote : v.wrote (.saveMember loaded now) = v ∨
      v.wrote (.saveMember loaded now) = v.put (.member now) := by
    rcases write_saveMember hv hloaded hnow with hdup | hw
    · exact .inl (Database.wrote_of_no_docs (by rw [hdup]; rfl))
    · exact .inr (Database.wrote_written hw)
  have hindexed := Database.wrote_indexed hv (.saveMember loaded now)
  refine write_then (fun l e v' h => ?_) ?_
  · cases h with
    | applied error => exact ⟨hindexed, hwrote⟩
    | lost error => exact ⟨hv, .inl rfl⟩
  · rcases write_saveMember hv hloaded hnow with hdup | hw
    · rw [hdup]
      exact draw_then (fun h => h.elim) fun error => Leads.run_throw ⟨hindexed, hwrote⟩
    · rw [hw]
      exact Leads.run_pure ⟨hindexed, hwrote⟩

/-- The insertion of a member, whose answer may be lost. -/
theorem insert_edits (hv : v.Indexed) (d : Member) :
    Shows none base (do
      match ← write none (.insertMember d) with
      | .duplicateKey => raiseDuplicateKey
      | _ => return toResponse d : Handler MemberResponseDto).run v fun _ _ v' =>
        (v'.Indexed ∧ v'.membershipTypes = v.membershipTypes) ∧ (v'.members = v.members ∨
          (∀ m ∈ v.members, m.id ≠ d.id) ∧ v'.members = replaceOne (·.id) d v.members) := by
  have hwrote : (v.wrote (.insertMember d)).members = v.members ∨
      (∀ m ∈ v.members, m.id ≠ d.id) ∧
        (v.wrote (.insertMember d)).members = replaceOne (·.id) d v.members := by
    rcases Database.write_insert (s := v) (w := .insertMember d) hv rfl with hdup | ⟨hnew, hw, -⟩
    · exact .inl (by rw [Database.wrote_of_no_docs (by rw [hdup]; rfl)])
    · refine .inr ⟨fun m hm hid => ?_, by rw [Database.wrote_written hw]; rfl⟩
      have hnone : v.members.find? (fun x => decide (x.id = d.id)) = none := by
        simpa [Database.find, Document.key] using hnew
      simpa [hid] using List.find?_eq_none.mp hnone m hm
  have hindexed : (v.wrote (.insertMember d)).Indexed ∧
      (v.wrote (.insertMember d)).membershipTypes = v.membershipTypes :=
    ⟨Database.wrote_indexed hv _, membershipTypes_putAll⟩
  refine write_then (fun l e v' h => ?_) ?_
  · cases h with
    | applied error => exact ⟨hindexed, hwrote⟩
    | lost error => exact ⟨⟨hv, rfl⟩, .inl rfl⟩
  · cases schema.write (.insertMember d) v with
    | duplicateKey =>
      exact draw_then (fun h => h.elim) fun error => Leads.run_throw ⟨hindexed, hwrote⟩
    | _ => exact Leads.run_pure ⟨hindexed, hwrote⟩

end Parts

/-- A member of a membership type has been inserted, or none has. -/
def Created (dto : CreateMemberDto) (v v' : Database) : Prop :=
  (v'.Indexed ∧ v'.membershipTypes = v.membershipTypes) ∧ (v'.members = v.members ∨
    ∃ (id membershipType : Documents.ObjectId) (d : Member), d.id = id.1 ∧
      ObjectId.parse d.membershipTypeId = some membershipType ∧
      d.activeLoanCount = dto.activeLoanCount.getD 0 ∧ (∀ m ∈ v.members, m.id ≠ d.id) ∧
      v'.members = replaceOne (·.id) d v.members)

theorem create_shows (hv : v.Indexed) (dto : CreateMemberDto) (actor : Option AuditActor) :
    Shows none base (create env dto actor).run v fun _ _ v' => Created dto v v' := by
  have hnothing : Created dto v v := ⟨⟨hv, rfl⟩, .inl rfl⟩
  refine Leads.run_bind (validateActivePolicy_checks _) ?_ ?_
  · rintro l u v₁ ⟨-, rfl, hpolicy⟩
    obtain ⟨membershipType, htype⟩ := hpolicy u rfl
    refine find_then (fun _ => hnothing) fun taken _ => ?_
    refine Leads.run_ite (fun _ => Leads.run_throw hnothing) fun _ => ?_
    refine draw_then (fun h => h.elim) fun id => ?_
    refine (insert_edits hv _).mono fun _ _ v' h => ⟨h.1, ?_⟩
    rcases h.2 with hsame | ⟨hnew, hmembers⟩
    · exact .inl hsame
    · exact .inr ⟨id, membershipType, _, rfl, htype, rfl, hnew, hmembers⟩
  · rintro l e v₁ ⟨-, rfl, -⟩
    exact hnothing

/-- The member under the id has been edited, or no member has. -/
def Edited (env : Environment) (dto : UpdateMemberDto) (actor : Option AuditActor)
    (id : Documents.ObjectId) (v v' : Database) : Prop :=
  (v'.Indexed ∧ v'.membershipTypes = v.membershipTypes) ∧ (v'.members = v.members ∨ ∃ m ∈ v.members, m.id = id.1 ∧
    (∀ t, dto.membershipTypeId = some t → ∃ membershipType : Documents.ObjectId,
      ObjectId.parse t = some membershipType) ∧
    v'.members = replaceOne (·.id) (applyUpdates env dto actor m) v.members)

section Update

variable {dto : UpdateMemberDto} {actor : Option AuditActor} {member : Member}

/-- What follows the edits: the save, and then nothing that touches a member. -/
theorem persist_edits (hv : v.Indexed) (hmember : v.member member.id = some member) :
    Shows none base (persist env dto actor member).run v fun _ _ v' =>
      (v'.Indexed ∧ v'.membershipTypes = v.membershipTypes) ∧ (v'.members = v.members ∨
        v'.members = replaceOne (·.id) (applyUpdates env dto actor member) v.members) := by
  rw [persist]
  refine Leads.run_bind (save_edits hv hmember rfl) ?_ ?_
  · intro l saved v₁ hsaved
    refine (aside_shows ?_).mono fun _ _ v' hspared => ?_
    · refine aside_if (aside_forIdentifier fun _ => aside_release) fun _ => ?_
      refine aside_if aside_revokeSessions fun _ => ?_
      exact .run_bind aside_recordMemberChange fun _ => .run_pure
    · rw [hspared.members, hspared.membershipTypes]
      rcases hsaved.2 with rfl | rfl
      · exact ⟨⟨hspared.indexed hsaved.1, rfl⟩, .inl rfl⟩
      · exact ⟨⟨hspared.indexed hsaved.1, rfl⟩, .inr rfl⟩
  · rintro l e v₁ ⟨hindexed, rfl | rfl⟩
    · exact ⟨⟨hindexed, rfl⟩, .inl rfl⟩
    · exact ⟨⟨hindexed, rfl⟩, .inr rfl⟩

/-- What `update` does once it has reserved the identifier. -/
def checkAndPersist (env : SignIn.Environment) (dto : UpdateMemberDto) (actor : Option AuditActor)
    (member : Member) : Handler MemberResponseDto := do
  match dto.membershipTypeId with
  | some membershipTypeId => validateActivePolicy membershipTypeId
  | none => pure ()
  tryCatch (persist env dto actor member) fun error => do
    if emailChanged env dto member then
      forIdentifier (nextEmail env dto) fun nextEmail =>
        releaseIdentifier nextEmail member.id (actor.map (·.id))
    throw error

/-- The edit of the member as it is found, however the calls around it go. -/
theorem update_edits (hv : v.Indexed) {id : String} {oid : Documents.ObjectId}
    (hid : ObjectId.parse id = some oid) :
    Shows none base (update env dto actor id).run v fun _ _ v' => Edited env dto actor oid v v' := by
  have hnothing : ∀ {v'}, Spared v v' → Edited env dto actor oid v v' :=
    fun h => ⟨⟨h.indexed hv, h.membershipTypes⟩, .inl h.members⟩
  rw [update]
  refine Leads.run_bind (findDocumentById_shows hv hid) ?_ ?_
  · rintro l member v₁ ⟨-, rfl, hfound⟩
    have hmember : v₁.member oid.1 = some member := hfound member rfl
    have hmid : member.id = oid.1 := Database.id_of_member hmember
    -- the `try` and its handler, once the policy has been checked
    have htry : ∀ {v₂}, Spared v₁ v₂ →
        (∀ t, dto.membershipTypeId = some t → ∃ membershipType : Documents.ObjectId,
          ObjectId.parse t = some membershipType) →
        Shows none base (tryCatch (persist env dto actor member) fun error => do
          if emailChanged env dto member then
            forIdentifier (nextEmail env dto) fun nextEmail =>
              releaseIdentifier nextEmail member.id (actor.map (·.id))
          throw error : Handler MemberResponseDto).run v₂
          fun _ _ v' => Edited env dto actor oid v₁ v' := by
      intro v₂ hspared htype
      have hmember₂ : v₂.member member.id = some member := by
        rw [Database.member, hspared.members, hmid]
        exact hmember
      have hedited : ∀ {v'}, (v'.Indexed ∧ v'.membershipTypes = v₂.membershipTypes) ∧
          (v'.members = v₂.members ∨
            v'.members = replaceOne (·.id) (applyUpdates env dto actor member) v₂.members) →
          Edited env dto actor oid v₁ v' := by
        rintro v' ⟨⟨hindexed, htypes⟩, h⟩
        rw [hspared.members] at h
        exact ⟨⟨hindexed, htypes.trans hspared.membershipTypes⟩, h.imp_right fun h =>
          ⟨member, List.mem_of_find?_eq_some hmember, hmid, htype, h⟩⟩
      refine Leads.run_tryCatch (persist_edits (hspared.indexed hv) hmember₂)
        (fun _ _ _ h => hedited h) fun l e v₃ h => ?_
      refine (aside_shows ?_).mono fun _ _ v' hspared' => hedited ?_
      · exact aside_if (aside_forIdentifier fun _ => aside_release) fun _ => .run_throw
      · rw [hspared'.members, hspared'.membershipTypes]
        exact ⟨⟨hspared'.indexed h.1.1, h.1.2⟩, h.2⟩
    have hpolicy : ∀ {v₂}, Spared v₁ v₂ →
        Shows none base (checkAndPersist env dto actor member).run v₂
          fun _ _ v' => Edited env dto actor oid v₁ v' := by
      intro v₂ hspared
      rw [checkAndPersist]
      cases htype : dto.membershipTypeId with
      | none => exact htry hspared fun t ht => by rw [htype] at ht; cases ht
      | some membershipTypeId =>
        refine Leads.run_bind (validateActivePolicy_checks membershipTypeId) ?_ ?_
        · rintro l u v₃ ⟨-, rfl, hchecked⟩
          refine htry hspared fun t ht => ?_
          rw [htype, Option.some.injEq] at ht
          exact ht ▸ hchecked u rfl
        · rintro l e v₃ ⟨-, rfl, -⟩
          exact hnothing hspared
    refine Leads.run_ite (fun _ => ?_) fun _ => hpolicy (.refl v₁)
    refine Leads.run_bind (aside_shows (aside_forIdentifier fun _ => aside_reserve)) ?_ ?_
    · exact fun l u v₂ hspared => hpolicy hspared
    · exact fun l e v₂ hspared => hnothing hspared
  · rintro l e v₁ ⟨-, rfl, -⟩
    exact hnothing (.refl v₁)

/-- An id that is none is found for no member. -/
theorem update_edits_nothing {id : String} (hid : ObjectId.parse id = none) :
    Shows none base (update env dto actor id).run v fun _ _ v' => v' = v := by
  rw [update, findDocumentById, toMongoObjectId_none hid]
  exact Leads.run_throw rfl

end Update

end MembersService

end Accounts
