import BookLibrary.Accounts.MemberEdits
import BookLibrary.Interleaving.Total

/-!
# Account services without failures

What the calls of the member service leave of the database when every call of theirs is
answered and no unique index refuses a write.
-/

namespace Accounts

open AuthIdentifiers Documents Interleaving SignIn

section Served

/-- A unique index has refused the write. -/
def refused : (β : Type) → Op β → β → Bool
  | _, .inr (.inl (.write _ _)), r => decide (r = .duplicateKey)
  | _, _, _ => false

/-- The calls of a run without failures. -/
def Served (β : Type) (op : Op β) (s : Store) (b : β) (s' : Store) : Prop :=
  exec β op s b s' ∧ refused β op b = false

/-- What a handler makes of a database when none of its calls fails. -/
abbrev Serves {α : Type} (x : Handler α) (v : Database)
    (Q : Except Failure α → Database → Prop) : Prop :=
  Leads Served Unfailing (fun _ => (none : Option Empty)) (fun v s => s.committed = v) x.run v
    fun _ => Q

variable {α β : Type} {v : Database} {Q : Except Failure α → Database → Prop}

theorem perform_serves {op : Op β} {f : β → Handler α}
    (h : ∀ s b s', s.committed = v → Served β op s b s' → Serves (f b) s'.committed Q) :
    Serves (perform op >>= f) v Q := by
  refine Leads.run_bind (R := fun _ r v' => ∃ s b s', r = .ok b ∧ s.committed = v ∧
    Served β op s b s' ∧ v' = s'.committed) ?_ ?_ ?_
  · refine Leads.call fun s hs o s' hgoes => ⟨s'.committed, rfl, ?_⟩
    cases o with
    | answered b => exact Leads.done ⟨s, b, s', rfl, hs, hgoes, rfl⟩
    | threw r => cases r <;> exact hgoes.1.elim
  · rintro l b v₁ ⟨s, b', s', heq, hs, hserved, rfl⟩
    cases heq
    exact h s b s' hs hserved
  · rintro l e v₁ ⟨s, b, s', heq, -⟩
    cases heq

theorem find_serves {q : Query β} {f : β → Handler α}
    (h : ∀ b, Database.answers β q v b → Serves (f b) v Q) :
    Serves (find none q >>= f) v Q := by
  refine perform_serves fun s b s' hs hserved => ?_
  obtain ⟨⟨⟨v', hv', hanswers⟩, rfl⟩, -⟩ := hserved
  cases hv'
  exact hs ▸ h b (hs ▸ hanswers)

theorem draw_serves {op : Draw β} {f : β → Handler α} (h : ∀ b, Serves (f b) v Q) :
    Serves (draw op >>= f) v Q := by
  refine perform_serves fun s b s' hs hserved => ?_
  obtain rfl : s' = s := hserved.1
  exact hs ▸ h b

theorem write_serves {w : Write} {f : Sessions.WriteResult Document → Handler α}
    (h : schema.write w v ≠ .duplicateKey → Serves (f (schema.write w v)) (v.wrote w) Q) :
    Serves (write none w >>= f) v Q := by
  refine perform_serves fun s b s' hs hserved => ?_
  obtain ⟨⟨rfl, rfl⟩, hrefused⟩ := hserved
  subst hs
  exact h (of_decide_eq_false hrefused)

end Served

section Schemas

/-- The database keeps to its schemas: the unique indexes, and no reservation of an empty
identifier. -/
structure Sound (v : Database) : Prop where
  indexed : v.Indexed
  membershipTypes : (v.membershipTypes.map (·.id)).Nodup
  named : ∀ d ∈ v.identifiers, d.normalizedIdentifier ≠ ""

variable {v v' : Database}

theorem mem_identifiers_putAll {docs : List Document} {d : AuthIdentifier}
    (hd : d ∈ (docs.foldr Database.put v).identifiers) :
    .identifier d ∈ docs ∨ d ∈ v.identifiers := by
  induction docs with
  | nil => exact .inr hd
  | cons doc docs ih =>
    have hmem : .identifier d = doc ∨ d ∈ (docs.foldr Database.put v).identifiers := by
      cases doc with
      | identifier d' =>
        rcases mem_replaceOne.mp hd with rfl | ⟨hold, -⟩
        · exact .inl rfl
        · exact .inr hold
      | _ => exact .inr hd
    rcases hmem with rfl | hold
    · exact .inl List.mem_cons_self
    · exact (ih hold).imp_left (List.mem_cons_of_mem _)

/-- A write leaves a reservation of an identifier that was reserved before, or that it inserts. -/
theorem identifier_of_docs {w : Write} {d : AuthIdentifier}
    (hd : .identifier d ∈ (schema.write w v).docs) : w = .insertIdentifier d ∨
      ∃ d' ∈ v.identifiers, d.normalizedIdentifier = d'.normalizedIdentifier := by
  have hinsert : ∀ {doc : Document}, .identifier d ∈ (v.insert doc).docs → .identifier d = doc := by
    intro doc hmem
    rw [Database.insert] at hmem
    split at hmem
    · cases hmem
    · exact List.mem_singleton.mp hmem
  have hupdate : ∀ {D : Type} {wrap : D → Document} {p : D → Bool} {f : D → D} {docs : List D},
      .identifier d ∈ (Database.update wrap p f docs).docs →
        ∃ d' ∈ docs, .identifier d = wrap (f d') := by
    intro D wrap p f docs hmem
    rw [Database.update] at hmem
    split at hmem
    · next d' hfind => exact ⟨d', List.mem_of_find?_eq_some hfind, List.mem_singleton.mp hmem⟩
    · cases hmem
  rw [Database.write_eq] at hd
  split at hd
  · cases w with
    | insertIdentifier d' =>
      cases hinsert hd
      exact .inl rfl
    | claimReleased | releaseIdentifier =>
      obtain ⟨d', hd', heq⟩ := hupdate hd
      cases heq
      exact .inr ⟨d', hd', rfl⟩
    | insertStaffUser | insertMember | recordActivity => cases hinsert hd
    | saveStaffUser | saveMember =>
      obtain ⟨d', -, heq⟩ := hupdate hd
      cases heq
    | bumpAuthVersion subjectType | setAccountIdentifier subjectType =>
      cases subjectType with
      | staff | member =>
        obtain ⟨d', -, heq⟩ := hupdate hd
        cases heq
    | revokeFamilies =>
      obtain ⟨f, -, heq⟩ := List.mem_map.mp hd
      cases heq
  · cases hd

theorem Sound.wrote (h : Sound v) {w : Write}
    (hw : ∀ d, w = .insertIdentifier d → d.normalizedIdentifier ≠ "") : Sound (v.wrote w) where
  indexed := Database.wrote_indexed h.indexed w
  membershipTypes := by
    rw [Database.wrote, Sessions.Schema.putAll]
    exact membershipTypes_putAll (v := v) ▸ h.membershipTypes
  named d hd := by
    rcases mem_identifiers_putAll hd with hdoc | hold
    · rcases identifier_of_docs hdoc with rfl | ⟨d', hd', hname⟩
      · exact hw d rfl
      · exact hname ▸ h.named d' hd'
    · exact h.named d hold

/-- Nobody owns the empty identifier. -/
theorem Sound.owner_ne (h : Sound v) {x : String} {subject : Subject}
    (hx : v.owner x = some subject) : x ≠ "" := by
  obtain ⟨d, hd, -⟩ := Database.owner_eq_some.mp hx
  obtain ⟨hmem, rfl⟩ := Database.mem_of_reservation hd
  exact h.named d hmem

end Schemas

section Reservations

variable {v : Database} {x : String} {subject : Subject}

/-- Nobody holds the identifier, and nobody is about to. -/
def Database.Free (v : Database) (x : String) : Prop :=
  ∀ d, v.reservation x = some d → d.status = .released

theorem Database.Free.owner (h : v.Free x) : v.owner x = none := by
  rw [Database.owner]
  cases hd : v.reservation x with
  | none => rfl
  | some d => simp [AuthIdentifier.owner, h d hd]

/-- What `reserve` comes to. -/
inductive Obtains (x : String) (subject : Subject) (v : Database) :
    Except Failure Unit → Database → Prop
  | held (h : v.owner x = some subject) : Obtains x subject v (.ok ()) v
  | taken {v' : Database} (free : v.Free x) (sound : Sound v') (spared : Spared v v')
      (owner : ∀ y, v'.owner y = if y = x then some subject else v.owner y) :
      Obtains x subject v (.ok ()) v'
  | refused (e : Failure) : Obtains x subject v (.error e) v

theorem Obtains.inserted (hv : Sound v) {d : AuthIdentifier} (hfree : v.Free d.normalizedIdentifier)
    (ho : AuthIdentifier.owner d = some subject) (hname : d.normalizedIdentifier ≠ "")
    (hrefused : schema.write (.insertIdentifier d) v ≠ .duplicateKey) :
    Obtains d.normalizedIdentifier subject v (.ok ()) (v.wrote (.insertIdentifier d)) := by
  rcases Database.write_insert (s := v) (w := .insertIdentifier d) hv.indexed rfl with
    hdup | ⟨-, hw, -⟩
  · exact (hrefused hdup).elim
  · refine .taken hfree (hv.wrote fun d' hd' => ?_) (.wrote (.inl rfl)) fun y => ?_
    · cases hd'
      exact hname
    · rw [(Database.owner_insertIdentifier hv.indexed hw y).2, ho]
      simp only [eq_comm]

theorem reserve_serves (hv : Sound v) (x : String) (subject : Subject)
    (claimedType : Option AuthIdentifierType) (createdType : AuthIdentifierType)
    (actorId : Option String) :
    Serves (reserve none x claimedType createdType subject.1 subject.2 actorId) v
      (Obtains x subject v) := by
  refine find_serves fun found hfound => ?_
  replace hfound : FindOne (fun d => decide (d.normalizedIdentifier = x)) v.identifiers found :=
    hfound
  have hreservation : v.reservation x = found :=
    hfound.eq_find? hv.indexed.normalizedIdentifier
  cases found with
  | some existing =>
    have hmem := hfound.mem
    obtain rfl : existing.normalizedIdentifier = x := of_decide_eq_true hfound.select
    refine Leads.run_ite (fun hown => Leads.run_pure (.held ?_)) fun _ => ?_
    · exact Database.owner_eq_some.mpr
        ⟨existing, hreservation, AuthIdentifier.owner_eq_some.mpr hown⟩
    · refine Leads.run_ite (fun _ => Leads.run_throw (.refused _)) fun hreleased => ?_
      replace hreleased := not_not.mp hreleased
      refine write_serves fun _ => Leads.run_pure (.taken ?_ (hv.wrote ?_) (.wrote (.inl rfl)) ?_)
      · intro d hd
        rw [hreservation, Option.some.injEq] at hd
        exact hd ▸ hreleased
      · exact fun d hd => by cases hd
      · intro y
        rw [Database.owner_claimReleased hv.indexed hmem hreleased]
        simp only [eq_comm]
  | none =>
    have hfree : v.Free x := fun d hd => by rw [hreservation] at hd; cases hd
    refine Leads.run_bind (R := fun _ r v' =>
      (∀ b, r = .ok b → b ≠ .duplicateKey ∧ Obtains x subject v (.ok ()) v') ∧
      ∀ e, r = .error e → v' = v) ?_ ?_ ?_
    · refine draw_serves fun id => ?_
      refine Leads.run_ite (fun _ => Leads.run_throw ⟨by rintro _ ⟨⟩, fun _ _ => rfl⟩) fun hname => ?_
      rw [← bind_pure (write none _)]
      refine write_serves fun hrefused => Leads.run_pure ⟨?_, by rintro _ ⟨⟩⟩
      rintro b ⟨⟩
      exact ⟨hrefused, .inserted (d := { id := id.1, .. }) hv hfree rfl hname hrefused⟩
    · rintro l b v' ⟨hok, -⟩
      obtain ⟨hb, hobtains⟩ := hok b rfl
      cases b with
      | duplicateKey => exact (hb rfl).elim
      | unmatched | written => exact Leads.run_pure hobtains
    · rintro l e v' ⟨-, herr⟩
      rw [herr e rfl]
      exact .refused e

/-- What a release comes to, if there is anything to release. -/
structure Relinquishes (previous : Option String) (subject : Subject) (v : Database)
    (r : Except Failure Unit) (v' : Database) : Prop where
  returned : r = .ok ()
  sound : Sound v'
  spared : Spared v v'
  owner : ∀ y, v'.owner y =
    if previous = some y ∧ v.owner y = some subject then none else v.owner y

theorem Relinquishes.nothing (hv : Sound v) : Relinquishes none subject v (.ok ()) v :=
  ⟨rfl, hv, .refl v, fun y => by simp⟩

theorem release_serves (hv : Sound v) (x : String) (subject : Subject) (actorId : Option String) :
    Serves (release none x subject.1 subject.2 actorId) v (Relinquishes (some x) subject v) := by
  refine draw_serves fun releasedAt => write_serves fun _ => Leads.run_pure ?_
  exact {
    returned := rfl
    sound := hv.wrote fun d hd => by cases hd
    spared := .wrote (.inr (.inr ⟨x, rfl⟩))
    owner := fun y => by
      rw [Database.owner_releaseIdentifier hv.indexed]
      by_cases hy : x = y
      · simp [hy]
      · simp [hy] }

end Reservations

section Elsewhere

variable {v : Database}

/-- Neither an account nor a reservation is touched, and the call returns. -/
structure Passes (v : Database) (r : Except Failure Unit) (v' : Database) : Prop where
  returned : r = .ok ()
  sound : Sound v'
  spared : Spared v v'
  owner : ∀ y, v'.owner y = v.owner y

theorem Passes.nothing (hv : Sound v) : Passes v (.ok ()) v :=
  ⟨rfl, hv, .refl v, fun _ => rfl⟩

theorem Passes.trans {v₁ v₂ : Database} {r r' : Except Failure Unit} (h : Passes v r v₁)
    (h' : Passes v₁ r' v₂) : Passes v r' v₂ :=
  ⟨h'.returned, h'.sound, h.spared.trans h'.spared, fun y => (h'.owner y).trans (h.owner y)⟩

/-- A write for the purpose leaves no reservation. -/
theorem identifiers_wrote {w : Write} (hw : w.purpose = .elsewhere) :
    (v.wrote w).identifiers = v.identifiers := by
  have hdocs : ∀ doc ∈ (schema.write w v).docs, doc.isElsewhere = true := by
    intro doc hdoc
    rw [Database.write_eq] at hdoc
    split at hdoc
    · cases w with
      | revokeFamilies =>
        obtain ⟨f, -, rfl⟩ := List.mem_map.mp hdoc
        rfl
      | recordActivity e =>
        rw [Database.unchecked, Database.insert] at hdoc
        split at hdoc
        · cases hdoc
        · rw [List.mem_singleton.mp hdoc]
          rfl
      | _ => cases hw
    · cases hdoc
  have hputs : ∀ docs : List Document, (∀ doc ∈ docs, doc.isElsewhere = true) →
      (docs.foldr Database.put v).identifiers = v.identifiers := by
    intro docs hall
    induction docs with
    | nil => rfl
    | cons doc docs ih =>
      rw [← ih fun d hd => hall d (List.mem_cons_of_mem _ hd)]
      have hdoc := hall doc List.mem_cons_self
      cases doc with
      | family | event => rfl
      | _ => cases hdoc
  exact hputs _ hdocs

theorem Passes.wrote (hv : Sound v) {w : Write} (hw : w.purpose = .elsewhere) :
    Passes v (.ok ()) (v.wrote w) where
  returned := rfl
  sound := hv.wrote fun d hd => by
    rw [hd] at hw
    cases hw
  spared := .wrote (.inr (.inl hw))
  owner := Database.owner_congr (identifiers_wrote hw)

theorem revokeSessions_serves (hv : Sound v) (subjectType : AuthIdentifierSubjectType)
    (subjectId reason : String) :
    Serves (revokeSessions subjectType subjectId reason) v (Passes v) :=
  draw_serves fun _ => write_serves fun _ => Leads.run_pure (.wrote hv rfl)

theorem recordActivity_serves (hv : Sound v) (e : String → SecurityActivityEvent) :
    Serves (recordActivity e) v (Passes v) := by
  refine draw_serves fun id => write_serves fun hrefused => ?_
  cases hw : schema.write (.recordActivity (e id.1)) v with
  | duplicateKey => exact (hrefused hw).elim
  | unmatched | written => exact Leads.run_pure (.wrote hv rfl)

end Elsewhere

namespace MembersService

variable {env : Environment} {v : Database}

/-- The check of the membership type that `validateActivePolicy` makes. -/
def permits (v : Database) (id : String) : Bool :=
  (ObjectId.parse id).any fun id =>
    (v.membershipTypes.find? fun d => decide (d.id = id.1)).any fun d => decide (d.status = .active)

theorem validateActivePolicy_serves (hv : Sound v) (id : String) :
    Serves (validateActivePolicy id) v fun r v' =>
      v' = v ∧ (r = .ok () ↔ permits v id = true) := by
  rw [validateActivePolicy, permits]
  cases hid : ObjectId.parse id with
  | none =>
    rw [toMongoObjectId_none hid]
    exact Leads.run_throw ⟨rfl, by simp⟩
  | some id =>
    rw [toMongoObjectId_some hid]
    refine find_serves fun found hfound => ?_
    replace hfound : FindOne (fun d => decide (d.id = id.1)) v.membershipTypes found := hfound
    rw [Option.any_some, hfound.eq_find? hv.membershipTypes]
    cases found with
    | none => exact Leads.run_throw ⟨rfl, by simp⟩
    | some membershipType =>
      refine Leads.run_ite (fun hactive => Leads.run_pure ⟨rfl, ?_⟩) fun hactive => ?_
      · simp [hactive]
      · exact Leads.run_throw ⟨rfl, by simp [hactive]⟩

theorem findDocumentById_serves (hv : Sound v) (id : String) :
    Serves (findDocumentById id) v fun r v' => v' = v ∧ ∀ member, r = .ok member →
      ∃ oid : Documents.ObjectId, ObjectId.parse id = some oid ∧ v.member oid.1 = some member := by
  rw [findDocumentById]
  cases hid : ObjectId.parse id with
  | none =>
    rw [toMongoObjectId_none hid]
    exact Leads.run_throw ⟨rfl, fun _ h => by cases h⟩
  | some oid =>
    rw [toMongoObjectId_some hid]
    refine find_serves fun found hfound => ?_
    replace hfound : FindOne (fun d : Member => decide (d.id = oid.1)) v.members found := hfound
    have hfind : v.member oid.1 = found := hfound.eq_find? hv.indexed.members
    cases found with
    | none => exact Leads.run_throw ⟨rfl, fun _ h => by cases h⟩
    | some member => exact Leads.run_pure ⟨rfl, fun m h => by cases h; exact ⟨oid, rfl, hfind⟩⟩

/-- What `save` comes to. -/
structure Stores (now : Member) (v : Database) (r : Except Failure Member) (v' : Database) :
    Prop where
  returned : r = .ok now
  sound : Sound v'
  member : ∀ id, v'.member id = if id = now.id then some now else v.member id
  owner : ∀ x, v'.owner x = v.owner x

theorem save_serves (hv : Sound v) {loaded now : Member}
    (hloaded : v.member loaded.id = some loaded) (hnow : now.id = loaded.id) : Serves (save loaded now) v (Stores now v) := by
  refine write_serves fun hrefused => ?_
  have hw : schema.write (.saveMember loaded now) v = .written [.member now] :=
    (write_saveMember hv.indexed hloaded hnow).resolve_left hrefused
  have hput := Database.wrote_written hw
  have hsound : Sound (v.wrote (.saveMember loaded now)) := hv.wrote fun d hd => by cases hd
  rw [hw]
  refine Leads.run_pure ⟨rfl, hsound, fun id => ?_, fun x => ?_⟩
  · rw [hput]
    simp [eq_comm]
  · rw [hput]
    rfl

theorem recordMemberChange_serves (hv : Sound v) (member : Member) (actor : Option AuditActor)
    (identifierChanged statusChanged : Bool) :
    Serves (recordMemberChange member actor identifierChanged statusChanged) v (Passes v) := by
  have hstatus : ∀ {v₁}, Passes v (.ok ()) v₁ → ∀ e, Serves
      (if statusChanged then recordActivity e else pure ()) v₁ (Passes v) := by
    intro v₁ h e
    refine Leads.run_ite (fun _ => ?_) fun _ => Leads.run_pure h
    exact (recordActivity_serves h.sound e).mono fun _ _ _ h' => h.trans h'
  rw [recordMemberChange]
  refine Leads.run_ite (fun _ => ?_) fun _ => hstatus (.nothing hv) _
  exact Leads.run_bind (recordActivity_serves hv _) (fun l u v₁ h => hstatus h _)
    fun l e v₁ h => by cases h.returned

theorem forIdentifier_serves (hv : Sound v) (previous : Option String) (id : String)
    (actorId : Option String) :
    Serves (forIdentifier previous fun x => releaseIdentifier x id actorId) v
      (Relinquishes (named previous) (.member, id) v) := by
  cases hp : named previous with
  | none =>
    rw [forIdentifier_none hp]
    exact Leads.run_pure (.nothing hv)
  | some p =>
    rw [forIdentifier_some hp]
    exact release_serves hv p (.member, id) actorId

/-- What the body of a `try` comes to: the member is saved and the previous identifier
released. -/
structure Replaces {α : Type} (now : Member) (previous : Option String) (v : Database)
    (r : Except Failure α) (v' : Database) : Prop where
  returned : ∃ a, r = .ok a
  sound : Sound v'
  member : ∀ id, v'.member id = if id = now.id then some now else v.member id
  owner : ∀ y, v'.owner y =
    if previous = some y ∧ v.owner y = some (.member, now.id) then none else v.owner y

theorem Stores.replaces {α : Type} {now : Member} {previous : Option String} {v₁ v₂ v₃ : Database}
    {r₁ : Except Failure Member} {r₂ r₃ : Except Failure Unit} (h₁ : Stores now v r₁ v₁)
    (h₂ : Relinquishes previous (.member, now.id) v₁ r₂ v₂) (h₃ : Passes v₂ r₃ v₃) (a : α) :
    Replaces now previous v (.ok a : Except Failure α) v₃ where
  returned := ⟨a, rfl⟩
  sound := h₃.sound
  member id := by
    rw [Database.member, h₃.spared.members, h₂.spared.members]
    exact h₁.member id
  owner y := by rw [h₃.owner, h₂.owner, h₁.owner]

section Bodies

variable {dto : UpdateMemberDto} {actor : Option AuditActor} {member now : Member}

theorem persist_serves (hv : Sound v) (hmember : v.member member.id = some member) :
    Serves (persist env dto actor member) v (Replaces (applyUpdates env dto actor member)
      (if emailChanged env dto member = true then named member.email else none) v) := by
  rw [persist]
  refine Leads.run_bind (save_serves hv hmember rfl) (fun l saved v₁ h₁ => ?_) fun l e v₁ h₁ => by
    cases h₁.returned
  -- what follows the release of the previous address
  have hrest : ∀ {previous r v₂}, Relinquishes previous (.member, member.id) v₁ r v₂ →
      Serves (do
        if emailChanged env dto member || statusChanged dto member then
          revokeSessions .member member.id "member-account-updated"
        recordMemberChange (applyUpdates env dto actor member) actor
          (emailChanged env dto member) (statusChanged dto member)
        return toResponse saved) v₂ (Replaces (applyUpdates env dto actor member) previous v) := by
    intro previous r v₂ h₂
    have hrecord : ∀ {r' v₃}, Passes v₂ r' v₃ → Serves (do
        recordMemberChange (applyUpdates env dto actor member) actor
          (emailChanged env dto member) (statusChanged dto member)
        return toResponse saved) v₃ (Replaces (applyUpdates env dto actor member) previous v) := by
      intro r' v₃ h₃
      refine Leads.run_bind (recordMemberChange_serves h₃.sound _ _ _ _) (fun l u v₄ h₄ => ?_)
        fun l e v₄ h₄ => by cases h₄.returned
      exact Leads.run_pure (h₁.replaces h₂ (h₃.trans h₄) _)
    refine Leads.run_ite (fun _ => ?_) fun _ => hrecord (.nothing h₂.sound)
    exact Leads.run_bind (revokeSessions_serves h₂.sound _ _ _) (fun l u v₃ h₃ => hrecord h₃)
      fun l e v₃ h₃ => by cases h₃.returned
  by_cases hc : emailChanged env dto member = true
  · rw [if_pos hc, if_pos hc]
    exact Leads.run_bind (forIdentifier_serves h₁.sound _ _ _) (fun l u v₂ h₂ => hrest h₂)
      fun l e v₂ h₂ => by cases h₂.returned
  · rw [if_neg hc, if_neg hc]
    exact hrest (.nothing h₁.sound)

theorem persistCredentials_serves (hv : Sound v) (hmember : v.member member.id = some member)
    (hnow : now.id = member.id) (n : String) :
    Serves (persistCredentials actor member now n) v (Replaces now
      (if member.loginIdentifier ≠ some n then named member.loginIdentifier else none) v) := by
  rw [persistCredentials]
  refine Leads.run_bind (save_serves hv hmember hnow) (fun l saved v₁ h₁ => ?_) fun l e v₁ h₁ => by
    cases h₁.returned
  have hrest : ∀ {previous r v₂}, Relinquishes previous (.member, member.id) v₁ r v₂ →
      Serves (do
        revokeSessions .member member.id "member-credentials-updated"
        recordMemberChange now actor true false
        return toResponse saved) v₂ (Replaces now previous v) := by
    intro previous r v₂ h₂
    rw [← hnow] at h₂
    refine Leads.run_bind (revokeSessions_serves h₂.sound _ _ _) (fun l u v₃ h₃ => ?_)
      fun l e v₃ h₃ => by cases h₃.returned
    refine Leads.run_bind (recordMemberChange_serves h₃.sound _ _ _ _) (fun l u v₄ h₄ => ?_)
      fun l e v₄ h₄ => by cases h₄.returned
    exact Leads.run_pure (h₁.replaces h₂ (h₃.trans h₄) _)
  by_cases hc : member.loginIdentifier ≠ some n
  · rw [if_pos hc, if_pos hc]
    exact Leads.run_bind (forIdentifier_serves h₁.sound _ _ _) (fun l u v₂ h₂ => hrest h₂)
      fun l e v₂ h₂ => by cases h₂.returned
  · rw [if_neg hc, if_neg hc]
    exact hrest (.nothing h₁.sound)

end Bodies

end MembersService

end Accounts
