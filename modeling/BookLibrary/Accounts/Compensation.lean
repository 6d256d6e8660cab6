import BookLibrary.Accounts.Attempts
import BookLibrary.Accounts.Execution
import BookLibrary.Accounts.Members
import BookLibrary.Accounts.StaffUsers

/-!
# Account updates that fail

An update that changes an identifier reserves the new one, saves the account and releases
the old one. When one of its calls throws it releases what it has reserved, as if the
account had not been saved.
-/

namespace Accounts

open AuthIdentifiers Documents Interleaving SignIn

/-- The identifiers by which a member signs in. -/
def Member.signsInBy (env : Environment) (member : Member) (x : String) : Prop :=
  member.email = some x ∨ member.loginIdentifier = some x ∨ env.toLowerCase member.memberNumber = x

/-- The identifiers that the account carries. -/
def Carries (env : Environment) (s : Database) : Subject → String → Prop
  | (.staff, id), x => ∃ user, s.staffUser id = some user ∧ user.email = x
  | (.member, id), x => ∃ member, s.member id = some member ∧ Member.signsInBy env member x

/-- The account still owns what it carries, and owns nothing that it does not carry:
what it owned without carrying it before the call aside. -/
structure Intact (env : Environment) (subject : Subject) (s : Database) (l : List Attempt)
    (s' : Database) : Prop where
  carried : ∀ x, Carries env s' subject x →
    s.owner x = some subject ∨ acquired none subject x l = true → s'.owner x = some subject
  owned : ∀ x, s'.owner x = some subject →
    Carries env s' subject x ∨ s.owner x = some subject ∧ ¬ Carries env s subject x

/-- Where a failed call does no harm, for all that it was to reserve `identifier` for an
account that carries the identifiers `C`. The save was not applied. If it was issued, then
`identifier` is released and had better not be among `C`; if it was not, then nobody
releases `identifier`, and had the call to reserve it first, it must be among `C`. -/
def Covers (C : String → Prop) (identifier : String) (l : List Attempt) : Prop :=
  made none .save l = false ∧ (tried none .save l = true → ¬ C identifier) ∧
    (tried none .save l = false → made none .reservation l = true → C identifier)

theorem covers_nil {C : String → Prop} {identifier : String} : Covers C identifier [] := by
  simp [Covers]

theorem carries_congr {env : Environment} {s s' : Database} {subject : Subject} {x : String}
    (hstaff : s'.staffUsers = s.staffUsers) (hmembers : s'.members = s.members) :
    Carries env s' subject x ↔ Carries env s subject x := by
  obtain ⟨subjectType, id⟩ := subject
  cases subjectType with
  | staff => rw [Carries, Carries, Database.staffUser, Database.staffUser, hstaff]
  | member => rw [Carries, Carries, Database.member, Database.member, hmembers]

theorem Intact.of_same {env : Environment} {subject : Subject} {s s' : Database} {l : List Attempt}
    (hcarries : ∀ x, Carries env s' subject x ↔ Carries env s subject x)
    (howner : ∀ x, s'.owner x = s.owner x) (hacquired : ∀ x, ¬ acquired none subject x l = true) :
    Intact env subject s l s' where
  carried x _ h := by
    rw [howner]
    exact h.resolve_right (hacquired x)
  owned x hx := by
    rw [howner] at hx
    by_cases hc : Carries env s subject x
    · exact .inl ((hcarries x).mpr hc)
    · exact .inr ⟨hx, hc⟩

theorem Intact.refl (env : Environment) (subject : Subject) (s : Database) :
    Intact env subject s [] s :=
  .of_same (fun _ => Iff.rfl) (fun _ => rfl) fun x => by simp

/-- A call that ends before its save, with the reservation made or not. -/
theorem Reserves.intact_iff {env : Environment} {identifier : String} {subject : Subject}
    {s v : Database} {l : List Attempt} {r : Except Failure Unit}
    (h : Reserves none identifier subject s l r v) :
    Intact env subject s l v ↔ Covers (Carries env s subject) identifier l := by
  have hcarries : ∀ x, Carries env v subject x ↔ Carries env s subject x :=
    fun x => carries_congr h.staffUsers h.members
  have htried : tried none .save l = false := h.issues.tried (by nofun) none
  have hmade : made none .save l = false := h.issues.made (by nofun) none
  constructor
  · intro hi
    refine ⟨hmade, fun ht => ?_, fun _ hres => ?_⟩
    · rw [htried] at ht
      cases ht
    have howner : v.owner identifier = some subject := by rw [h.owner, if_pos ⟨rfl, hres⟩]
    rcases hi.owned identifier howner with hc | ⟨ho, -⟩
    · exact (hcarries identifier).mp hc
    · rw [h.free hres] at ho
      cases ho
  · rintro ⟨-, -, hres⟩
    constructor
    · intro x _ hx
      rw [h.owner]
      by_cases hm : x = identifier ∧ made none .reservation l = true
      · rw [if_pos hm]
      · rw [if_neg hm]
        rcases hx with ho | ha
        · exact ho
        · rw [h.acquires, Bool.and_eq_true, decide_eq_true_eq] at ha
          exact absurd ha hm
    · intro x hx
      rw [h.owner] at hx
      by_cases hm : x = identifier ∧ made none .reservation l = true
      · obtain ⟨rfl, hmade⟩ := hm
        exact .inl ((hcarries x).mpr (hres htried hmade))
      · rw [if_neg hm] at hx
        by_cases hc : Carries env s subject x
        · exact .inl ((hcarries x).mpr hc)
        · exact .inr ⟨hx, hc⟩

/-- The identifier that the call has reserved was the account's, or is by now. -/
theorem Reserves.had {identifier : String} {subject : Subject} {s v : Database} {l : List Attempt}
    (h : Reserves none identifier subject s l (.ok ()) v) :
    s.owner identifier = some subject ∨ acquired none subject identifier l = true := by
  have hsecured := h.secured rfl
  rw [h.owner] at hsecured
  by_cases hm : made none .reservation l = true
  · right
    simp [h.acquires, hm]
  · rw [if_neg fun hc => hm hc.2] at hsecured
    exact .inl hsecured

/-- A call that fails when at most one of its writes has failed does no harm exactly where
`P` says so. -/
def Harmless {α : Type} (env : Environment) (subject : Subject) (s : Database)
    (P : List Attempt → Prop) (l : List Attempt) (r : Except Failure α) (s' : Database) : Prop :=
  (∃ e, r = .error e) → faults l ≤ 1 → (Intact env subject s l s' ↔ P l)

namespace MembersService

variable {env : Environment} {base v : Database}

theorem recordMemberChange_shows (hv : v.Indexed) (member : Member) (actor : Option AuditActor)
    (identifierChanged statusChanged : Bool) :
    Shows none base (recordMemberChange member actor identifierChanged statusChanged).run v
      (Elsewhere v) := by
  rw [recordMemberChange]
  refine Elsewhere.run_if hv (fun _ => recordActivity_shows hv _) fun v' hv' => ?_
  exact Leads.run_ite (fun _ => recordActivity_shows hv' _) fun _ => Leads.run_pure (.nothing hv')

/-- `save` of a member that is stored as it was loaded. -/
structure Saves (loaded now : Member) (v : Database) (l : List Attempt) (r : Except Failure Member)
    (v' : Database) : Prop where
  indexed : v'.Indexed
  staffUsers : v'.staffUsers = v.staffUsers
  identifiers : v'.identifiers = v.identifiers
  member : ∀ id, v'.member id =
    if id = loaded.id ∧ made none .save l = true then some now else v.member id
  returned : ∀ m, r = .ok m → made none .save l = true
  faults : (∃ e, r = .error e) → 1 ≤ faults l
  attempted : tried none .save l = true
  issues : Issues none .save l

section Save

variable {loaded now : Member} (hv : v.Indexed) (hloaded : v.member loaded.id = some loaded)
  (hnow : now.id = loaded.id)

include hv hloaded hnow

theorem write_saveMember : schema.write (.saveMember loaded now) v = .duplicateKey ∨
    schema.write (.saveMember loaded now) v = .written [.member now] := by
  have hsaved : Member.saved loaded now loaded = now := by
    simp [Member.saved, ← hnow]
  rcases Database.write_update (s := v) (w := .saveMember loaded now) hv rfl with
    ⟨-, hnone⟩ | ⟨d, -, hw, -⟩ | ⟨d, hd, hw, -⟩
  · rw [Database.member] at hloaded
    rw [hloaded] at hnone
    cases hnone
  · exact .inl hw
  · rw [Database.member] at hloaded
    rw [hloaded] at hd
    cases hd
    rw [hsaved] at hw
    exact .inr hw

theorem Saves.applied {t : Bool} {r : Except Failure Member}
    (hr : ∀ m, r = .ok m → schema.write (.saveMember loaded now) v ≠ .duplicateKey)
    (hfails : (∃ e, r = .error e) →
      t = true ∨ schema.write (.saveMember loaded now) v = .duplicateKey) :
    Saves loaded now v
      [.write none (.saveMember loaded now) (some (schema.write (.saveMember loaded now) v)) t] r
      (v.wrote (.saveMember loaded now)) := by
  have hfaults : (∃ e, r = .error e) → (Attempt.write none (.saveMember loaded now)
      (some (schema.write (.saveMember loaded now) v)) t).fails = true := by
    intro he
    rcases hfails he with rfl | hdup
    · rfl
    · rw [hdup]
      cases t <;> rfl
  rcases write_saveMember hv hloaded hnow with hdup | hw
  · have hsame : v.wrote (.saveMember loaded now) = v :=
      Database.wrote_of_no_docs (by rw [hdup]; rfl)
    rw [hsame]
    rw [hdup] at hfaults ⊢
    exact {
      indexed := hv
      staffUsers := rfl
      identifiers := rfl
      member := fun id => by simp [made]
      returned := fun m hm => absurd hdup (hr m hm)
      faults := fun he => faults_pos List.mem_cons_self (hfaults he)
      attempted := rfl
      issues := .one rfl }
  · have hput := Database.wrote_written hw
    rw [hw] at hfaults ⊢
    exact {
      indexed := Database.wrote_indexed hv _
      staffUsers := by rw [hput]; rfl
      identifiers := by rw [hput]; rfl
      member := fun id => by
        rw [hput]
        simp [made, Write.purpose, hnow, eq_comm]
      returned := fun _ _ => rfl
      faults := fun he => faults_pos List.mem_cons_self (hfaults he)
      attempted := rfl
      issues := .one rfl }

theorem save_shows : Shows none base (save loaded now).run v (Saves loaded now v) := by
  refine write_then (fun l e v' h => ?_) ?_
  · cases h with
    | applied error => exact .applied hv hloaded hnow (fun m hm => by cases hm) fun _ => .inl rfl
    | lost error =>
      exact {
        indexed := hv
        staffUsers := rfl
        identifiers := rfl
        member := fun id => by simp [made]
        returned := fun m hm => by cases hm
        faults := fun _ => faults_pos List.mem_cons_self rfl
        attempted := rfl
        issues := .one rfl }
  · rcases write_saveMember hv hloaded hnow with hdup | hw
    · rw [hdup]
      refine draw_then (fun h => h.elim) fun error => Leads.run_throw ?_
      rw [← hdup]
      exact .applied hv hloaded hnow (fun m hm => by cases hm) fun _ => .inr hdup
    · rw [hw]
      refine Leads.run_pure ?_
      rw [← hw]
      refine .applied hv hloaded hnow (fun m _ hdup => ?_) (by rintro ⟨e, he⟩; cases he)
      rw [hw] at hdup
      cases hdup

end Save

/-- What the body of the `try` does: a save, the release of the previous identifier, and the
rest. -/
structure Persists {α : Type} (now : Member) (previous : Option String) (v : Database)
    (l : List Attempt) (r : Except Failure α) (v' : Database) : Prop where
  indexed : v'.Indexed
  member : ∀ id, v'.member id =
    if id = now.id ∧ made none .save l = true then some now else v.member id
  owner : ∀ x, v'.owner x = if made none (.release x) l = true then none else v.owner x
  released : ∀ x, made none (.release x) l = true → previous = some x ∧ made none .save l = true
  returned : (∃ a, r = .ok a) → made none .save l = true
  faults : (∃ e, r = .error e) → 1 ≤ faults l
  attempted : tried none .save l = true
  reservation : made none .reservation l = false
  acquires : ∀ subject x, acquired none subject x l = false

theorem Persists.of_saves {loaded now : Member} {l : List Attempt} {r : Except Failure Member}
    {v' : Database} (h : Saves loaded now v l r v') (hnow : now.id = loaded.id)
    (previous : Option String) : Persists now previous v l r v' where
  indexed := h.indexed
  member id := by rw [hnow, h.member]
  owner x := by
    rw [h.issues.made (by nofun), if_neg (by nofun)]
    exact Database.owner_congr h.identifiers x
  released x hx := by
    rw [h.issues.made (by nofun)] at hx
    cases hx
  returned := fun ⟨m, hm⟩ => h.returned m hm
  faults := h.faults
  attempted := h.attempted
  reservation := h.issues.made (by nofun) none
  acquires subject x := h.issues.acquired (by nofun) none subject x

section Persist

variable {α β : Type} {now : Member} {previous : Option String} {v' v'' : Database}
  {l l' : List Attempt} {a : β} {r : Except Failure α}

/-- An error is one whatever the value was to be. -/
theorem Persists.error {e : Failure} (h : Persists now previous v l (.error e : Except Failure β) v') :
    Persists now previous v l (.error e : Except Failure α) v' :=
  { h with
    returned := fun ⟨a, ha⟩ => by cases ha
    faults := fun _ => h.faults ⟨e, rfl⟩ }

theorem Persists.release {p : String} {subject : Subject} {r : Except Failure Unit}
    (h : Persists now previous v l (.ok a : Except Failure β) v') (hp : previous = some p)
    (hnone : ∀ x, made none (.release x) l = false) (h' : Releases none p subject v' l' r v'') :
    Persists now previous v (l ++ l') r v'' where
  indexed := h'.indexed
  member id := by
    rw [made_append, h'.issues.made (by nofun), Bool.or_false, Database.member, h'.members]
    exact h.member id
  owner x := by
    rw [h'.owner, h.owner, hnone, if_neg Bool.false_ne_true, made_append, hnone, Bool.false_or]
    by_cases hx : x = p
    · simp [hx]
    · rw [h'.issues.made (p := .release x) (by simpa using Ne.symm hx)]
      simp [hx]
  released x hx := by
    rw [made_append, h.returned ⟨a, rfl⟩]
    refine ⟨?_, rfl⟩
    by_contra hne
    rw [made_append, hnone, Bool.false_or,
      h'.issues.made (p := .release x) (by simpa [hp] using hne)] at hx
    cases hx
  returned _ := by rw [made_append, h.returned ⟨a, rfl⟩, Bool.true_or]
  faults := by
    rintro ⟨e, rfl⟩
    have hthrew : threw none (.release p) l' = true := by
      by_contra hf
      exact absurd (h'.returned.mpr (by simpa using hf)) (by nofun)
    have := faults_of_threw hthrew
    rw [faults_append]
    omega
  attempted := by rw [tried_append, h.attempted, Bool.true_or]
  reservation := by rw [made_append, h.reservation, h'.issues.made (by nofun), Bool.false_or]
  acquires subject x := by
    rw [acquired_append, h.acquires, h'.issues.acquired (by nofun), Bool.false_or]

theorem Persists.elsewhere (h : Persists now previous v l (.ok a : Except Failure β) v')
    (h' : Elsewhere v' l' r v'') : Persists now previous v (l ++ l') r v'' where
  indexed := h'.indexed
  member id := by
    rw [made_append, h'.issues.made (by nofun), Bool.or_false, Database.member, h'.members]
    exact h.member id
  owner x := by
    rw [made_append, h'.issues.made (by nofun), Bool.or_false, Database.owner_congr h'.identifiers]
    exact h.owner x
  released x hx := by
    rw [made_append, h'.issues.made (by nofun), Bool.or_false] at hx ⊢
    exact h.released x hx
  returned _ := by rw [made_append, h.returned ⟨a, rfl⟩, Bool.true_or]
  faults he := by
    have := h'.faults he
    rw [faults_append]
    omega
  attempted := by rw [tried_append, h.attempted, Bool.true_or]
  reservation := by rw [made_append, h.reservation, h'.issues.made (by nofun), Bool.false_or]
  acquires subject x := by
    rw [acquired_append, h.acquires, h'.issues.acquired (by nofun), Bool.false_or]

end Persist

/-- An identifier that is there and not empty. -/
def named (identifier : Option String) : Option String := identifier.filter fun x => decide (x ≠ "")

theorem forIdentifier_some {identifier : Option String} {x : String} (h : named identifier = some x)
    (f : String → Handler Unit) : forIdentifier identifier f = f x := by
  obtain ⟨rfl, hx⟩ := Option.filter_eq_some_iff.mp h
  rw [forIdentifier, if_neg (by simpa using hx)]

theorem forIdentifier_none {identifier : Option String} (h : named identifier = none)
    (f : String → Handler Unit) : forIdentifier identifier f = pure () := by
  cases identifier with
  | none => rfl
  | some x =>
    have hx : x = "" := by simpa [named] using h
    rw [forIdentifier, if_pos hx]

section Body

variable {α : Type} {member now : Member} {actorId : Option String} {l : List Attempt} {v' : Database}

/-- The save is done: the previous identifier is released, where there is one. -/
theorem releasePrevious_then {previous : Option String} {a : Member} {f : Unit → Handler α}
    (h : Persists now (named previous) v l (.ok a : Except Failure Member) v')
    (hnone : ∀ x, made none (.release x) l = false)
    (hf : ∀ v', v'.Indexed → Shows none base (f ()).run v' (Elsewhere v')) :
    Shows none base (forIdentifier previous (fun p => releaseIdentifier p member.id actorId) >>= f).run
      v' fun l' r v'' => Persists now (named previous) v (l ++ l') r v'' := by
  cases hp : named previous with
  | none =>
    rw [hp] at h
    rw [forIdentifier_none hp]
    exact (hf v' h.indexed).mono fun l' r v'' h' => h.elsewhere h'
  | some p =>
    rw [hp] at h
    rw [forIdentifier_some hp]
    refine Leads.run_bind (release_shows p (.member, member.id) h.indexed _) ?_ ?_
    · intro l₁ b v₁ h₁
      refine (hf v₁ h₁.indexed).mono fun l₂ r v₂ h₂ => ?_
      rw [← List.append_assoc]
      exact (h.release rfl hnone h₁).elsewhere h₂
    · intro l₁ e v₁ h₁
      exact (h.release rfl hnone h₁).error

/-- A body that has failed, and the release of the identifier reserved before it. -/
theorem Persists.intact_iff {s v₁ v₂ v₃ : Database} {n : String} {previous : Option String}
    {l₁ l₂ l₃ : List Attempt} {e : Failure}
    (h₁ : Reserves none n (.member, now.id) s l₁ (.ok ()) v₁)
    (h₂ : Persists now previous v₁ l₂ (.error e : Except Failure α) v₂)
    (h₃ : Releases none n (.member, now.id) v₂ l₃ (.ok ()) v₃)
    (hnow : now.email = some n ∨ now.loginIdentifier = some n) :
    Intact env (.member, now.id) s (l₁ ++ (l₂ ++ l₃)) v₃ ↔
      Covers (Carries env s (.member, now.id)) n (l₁ ++ (l₂ ++ l₃)) := by
  have hfreed : v₃.owner n ≠ some (.member, now.id) := h₃.freed rfl
  have hmade : made none .save (l₁ ++ (l₂ ++ l₃)) = made none .save l₂ := by
    rw [made_append, made_append, h₁.issues.made (by nofun), h₃.issues.made (by nofun),
      Bool.false_or, Bool.or_false]
  have htried : tried none .save (l₁ ++ (l₂ ++ l₃)) = true := by
    rw [tried_append, tried_append, h₂.attempted, Bool.true_or, Bool.or_true]
  have hacquired : ∀ x, acquired none (.member, now.id) x (l₁ ++ (l₂ ++ l₃)) =
      acquired none (.member, now.id) x l₁ := by
    intro x
    rw [acquired_append, acquired_append, h₂.acquires, h₃.issues.acquired (by nofun),
      Bool.false_or, Bool.or_false]
  have hmember : v₃.member now.id = if made none .save l₂ = true then some now
      else s.member now.id := by
    rw [Database.member, h₃.members]
    refine (h₂.member now.id).trans ?_
    simp [Database.member, h₁.members]
  have hhad : s.owner n = some (.member, now.id) ∨
      acquired none (.member, now.id) n (l₁ ++ (l₂ ++ l₃)) = true := by
    rw [hacquired]
    exact h₁.had
  constructor
  · intro hi
    have hlost : ¬ Carries env v₃ (.member, now.id) n := fun hc => hfreed (hi.carried n hc hhad)
    have hunsaved : made none .save l₂ = false := by
      by_contra hsaved
      rw [Bool.not_eq_false] at hsaved
      rw [if_pos hsaved] at hmember
      refine hlost ⟨now, hmember, ?_⟩
      rcases hnow with hemail | hlogin
      · exact .inl hemail
      · exact .inr (.inl hlogin)
    rw [if_neg (by simp [hunsaved])] at hmember
    refine ⟨hmade.trans hunsaved, fun _ hc => hlost ?_, fun ht => ?_⟩
    · simpa only [Carries, hmember] using hc
    · rw [htried] at ht
      cases ht
  · rintro ⟨hsaved, hc, -⟩
    rw [hmade] at hsaved
    rw [if_neg (by simp [hsaved])] at hmember
    have hcarries : ∀ x, Carries env v₃ (.member, now.id) x ↔ Carries env s (.member, now.id) x := by
      intro x
      rw [Carries, Carries, hmember]
    -- only the reserved identifier has changed hands, and it is free again
    have howner : ∀ x ≠ n, v₃.owner x = s.owner x := by
      intro x hx
      rw [h₃.owner, if_neg fun h => hx h.1, h₂.owner, if_neg ?_, h₁.owner, if_neg fun h => hx h.1]
      intro hr
      rw [(h₂.released x hr).2] at hsaved
      cases hsaved
    constructor
    · intro x hx hhadx
      have hne : x ≠ n := by
        rintro rfl
        exact hc htried ((hcarries x).mp hx)
      rw [howner x hne]
      rcases hhadx with ho | ha
      · exact ho
      · rw [hacquired, h₁.acquires, Bool.and_eq_true, decide_eq_true_eq] at ha
        exact absurd ha.1 hne
    · intro x hx
      have hne : x ≠ n := by
        rintro rfl
        exact hfreed hx
      rw [howner x hne] at hx
      by_cases hcx : Carries env s (.member, now.id) x
      · exact .inl ((hcarries x).mpr hcx)
      · exact .inr ⟨hx, hcx⟩

end Body

/-- The `try` of an update that has reserved `n`. -/
theorem compensate_shows {α : Type} {s : Database} (now : Member) {n : String}
    {previous : Option String} (actorId : Option String) {l₁ : List Attempt} {x : Handler α}
    {f : Failure → Handler α} (h₁ : Reserves none n (.member, now.id) s l₁ (.ok ()) v)
    (hx : Shows none base x.run v (Persists now previous v))
    (hf : ∀ error, f error = do
      releaseIdentifier n now.id actorId
      throw error)
    (hnow : now.email = some n ∨ now.loginIdentifier = some n) :
    Shows none base (tryCatch x f).run v fun l r v' =>
      Harmless env (.member, now.id) s (Covers (Carries env s (.member, now.id)) n) (l₁ ++ l) r v' := by
  refine Leads.run_tryCatch hx (fun l a v' _ ⟨e, he⟩ => by cases he) fun l₂ e v₂ h₂ => ?_
  rw [hf]
  refine Leads.run_bind (release_shows n (.member, now.id) h₂.indexed actorId) ?_ ?_
  · intro l₃ b v₃ h₃
    refine Leads.run_throw fun _ _ => ?_
    rw [List.append_nil]
    exact h₂.intact_iff h₁ h₃ hnow
  · intro l₃ e' v₃ h₃ _ hone
    -- the release has failed as well
    have hfirst := h₂.faults ⟨e, rfl⟩
    have hsecond : 1 ≤ faults l₃ := by
      refine faults_of_threw (p := .release n) ?_
      by_contra hf
      exact absurd (h₃.returned.mpr (by simpa using hf)) (by nofun)
    rw [faults_append, faults_append] at hone
    omega

theorem findDocumentById_shows (hv : v.Indexed) {id : String} {oid : Documents.ObjectId}
    (hid : ObjectId.parse id = some oid) :
    Shows none base (findDocumentById id).run v
      (Still (fun member => v.member oid.1 = some member) v) := by
  rw [findDocumentById, toMongoObjectId_some hid]
  refine find_then (fun error => ⟨rfl, rfl, fun a ha => by cases ha⟩) fun found hfound => ?_
  replace hfound : FindOne (fun d : Member => decide (d.id = oid.1)) v.members found := hfound
  have hfind := hfound.eq_find? hv.members
  cases found with
  | some member => exact Leads.run_pure ⟨rfl, rfl, fun a ha => by cases ha; exact hfind⟩
  | none => exact Leads.run_throw ⟨rfl, rfl, fun a ha => by cases ha⟩

theorem validateActivePolicy_shows (id : String) :
    Shows none base (validateActivePolicy id).run v (Still (fun _ => True) v) := by
  have hend : ∀ r, Still (fun _ : Unit => True) v [] r v := fun r => ⟨rfl, rfl, fun _ _ => trivial⟩
  rw [validateActivePolicy]
  cases hid : ObjectId.parse id with
  | none =>
    rw [toMongoObjectId_none hid]
    exact Leads.run_throw (hend _)
  | some oid =>
    rw [toMongoObjectId_some hid]
    refine find_then (fun error => hend _) fun found _ => ?_
    cases found with
    | none => exact Leads.run_throw (hend _)
    | some membershipType =>
      exact Leads.run_ite (fun _ => Leads.run_pure (hend _)) fun _ => Leads.run_throw (hend _)

section Update

variable {dto : UpdateMemberDto} {actor : Option AuditActor} {member : Member}

theorem persist_shows (hv : v.Indexed) (hmember : v.member member.id = some member) :
    Shows none base (persist env dto actor member).run v
      (Persists (applyUpdates env dto actor member)
        (if emailChanged env dto member = true then named member.email else none) v) := by
  rw [persist]
  have hrest : ∀ (saved : Member) (v : Database), v.Indexed → Shows none base
      ((do
        if emailChanged env dto member || statusChanged dto member then
          revokeSessions .member member.id "member-account-updated"
        recordMemberChange (applyUpdates env dto actor member) actor
          (emailChanged env dto member) (statusChanged dto member)
        return toResponse saved : Handler MemberResponseDto)).run v (Elsewhere v) := by
    intro saved v hv
    refine Elsewhere.run_if hv (fun _ => revokeSessions_shows hv _ _ _) fun v₁ hv₁ => ?_
    exact Elsewhere.run_bind (recordMemberChange_shows hv₁ _ _ _ _) fun _ v₂ hv₂ =>
      Leads.run_pure (.nothing hv₂)
  refine Leads.run_bind (save_shows hv hmember rfl) ?_ ?_
  · intro l saved v₁ h
    have hnone : ∀ x, made none (.release x) l = false := fun x => h.issues.made (by nofun) none
    by_cases hc : emailChanged env dto member = true
    · rw [if_pos hc, if_pos hc]
      exact releasePrevious_then (Persists.of_saves h rfl _) hnone (hrest saved)
    · rw [if_neg hc, if_neg hc]
      exact (hrest saved v₁ h.indexed).mono fun l' r v₂ h' => (Persists.of_saves h rfl none).elsewhere h'
  · intro l e v₁ h
    exact (Persists.of_saves h rfl _).error

/-- Where a failed `update` does no harm. An e-mail address that is taken away reserves
nothing: once the save is applied, the previous address is to be released unless the member
signs in by it all the same. -/
def update.Spares (env : Environment) (dto : UpdateMemberDto) (member : Member) (s : Database)
    (l : List Attempt) : Prop :=
  if emailChanged env dto member then
    match named (nextEmail env dto) with
    | some nextEmail => Covers (Carries env s (.member, member.id)) nextEmail l
    | none => made none .save l = true → ∀ p, named member.email = some p →
        s.owner p = some (.member, member.id) →
        (made none (.release p) l = true ↔
          ¬ (member.loginIdentifier = some p ∨ env.toLowerCase member.memberNumber = p))
  else True

theorem emailChanged_some {dto : UpdateMemberDto} {member : Member} (actor : Option AuditActor)
    (h : emailChanged env dto member = true) : ∃ n, nextEmail env dto = some n ∧
      member.email ≠ some n ∧ (applyUpdates env dto actor member).email = some n := by
  rw [emailChanged, Bool.and_eq_true, decide_eq_true_eq, decide_eq_true_eq] at h
  cases hn : nextEmail env dto with
  | none => exact absurd hn h.1
  | some n =>
    refine ⟨n, rfl, fun he => h.2 (by rw [hn, he]), ?_⟩
    rw [applyUpdates, hn]
    rfl

/-- The rest of `update`, when the new address has been reserved. -/
theorem updateReserved_shows {s : Database} {n : String} {l₁ : List Attempt}
    (hc : emailChanged env dto member = true) (hn : named (nextEmail env dto) = some n)
    (hs : s.member member.id = some member)
    (h₁ : Reserves none n (.member, member.id) s l₁ (.ok ()) v) :
    Shows none base (tryCatch (persist env dto actor member) fun error => do
        if emailChanged env dto member then
          forIdentifier (nextEmail env dto) fun nextEmail =>
            releaseIdentifier nextEmail member.id (actor.map (·.id))
        throw error : Handler MemberResponseDto).run v fun l r v' =>
      Harmless env (.member, member.id) s (update.Spares env dto member s) (l₁ ++ l) r v' := by
  have hspares : update.Spares env dto member s = Covers (Carries env s (.member, member.id)) n := by
    funext l
    rw [update.Spares, if_pos hc, hn]
  rw [hspares]
  have hmember : v.member member.id = some member := by
    rw [Database.member, h₁.members]
    exact hs
  obtain ⟨n', hn', -, hnow⟩ := emailChanged_some actor hc
  have heq : n' = n := by
    obtain ⟨h, -⟩ := Option.filter_eq_some_iff.mp hn
    rw [hn'] at h
    exact Option.some.inj h
  subst heq
  refine compensate_shows (applyUpdates env dto actor member) (actor.map (·.id)) h₁
    (persist_shows h₁.indexed hmember) (fun error => ?_) (.inl hnow)
  rw [if_pos hc, forIdentifier_some hn]
  rfl

/-- The rest of `update`, when it changes no identifier. -/
theorem updateOther_shows (hv : v.Indexed) (hc : ¬ emailChanged env dto member = true)
    (hs : v.member member.id = some member) :
    Shows none base (tryCatch (persist env dto actor member) fun error => do
        if emailChanged env dto member then
          forIdentifier (nextEmail env dto) fun nextEmail =>
            releaseIdentifier nextEmail member.id (actor.map (·.id))
        throw error : Handler MemberResponseDto).run v
      (Harmless env (.member, member.id) v (update.Spares env dto member v)) := by
  refine Leads.run_tryCatch (persist_shows hv hs) (fun l a v' _ ⟨e, he⟩ => by cases he)
    fun l e v' h => ?_
  rw [if_neg hc] at h ⊢
  refine Leads.run_throw fun _ _ => ?_
  rw [List.append_nil, update.Spares, if_neg hc, iff_true]
  have hemail : (applyUpdates env dto actor member).email = member.email := by
    rw [applyUpdates]
    cases hn : nextEmail env dto with
    | none => rfl
    | some n => simpa [emailChanged, hn] using hc
  have hsigns : ∀ x, Member.signsInBy env (applyUpdates env dto actor member) x ↔
      Member.signsInBy env member x := by
    intro x
    rw [Member.signsInBy, hemail]
    rfl
  have hcarries : ∀ x, Carries env v' (.member, member.id) x ↔ Carries env v (.member, member.id) x := by
    intro x
    simp only [Carries, h.member, hs]
    by_cases hm : made none .save l = true
    · simpa [applyUpdates, hm] using hsigns x
    · simp [hm]
  have howner : ∀ x, v'.owner x = v.owner x := by
    intro x
    rw [h.owner, if_neg fun hr => by cases (h.released x hr).1]
  exact .of_same hcarries howner fun x => by simp [h.acquires]

/-- The rest of `update`, when it takes the address away. -/
theorem updateEmptied_shows (hv : v.Indexed) (hc : emailChanged env dto member = true)
    (hn : named (nextEmail env dto) = none) (hs : v.member member.id = some member) :
    Shows none base (tryCatch (persist env dto actor member) fun error => do
        if emailChanged env dto member then
          forIdentifier (nextEmail env dto) fun nextEmail =>
            releaseIdentifier nextEmail member.id (actor.map (·.id))
        throw error : Handler MemberResponseDto).run v
      (Harmless env (.member, member.id) v (update.Spares env dto member v)) := by
  refine Leads.run_tryCatch (persist_shows hv hs) (fun l a v' _ ⟨e, he⟩ => by cases he)
    fun l e v' h => ?_
  rw [if_pos hc] at h
  rw [if_pos hc, forIdentifier_none hn]
  refine Leads.run_throw fun _ _ => ?_
  rw [List.append_nil, update.Spares, if_pos hc, hn]
  show _ ↔ (_ → _)
  obtain ⟨n, hn', -, hnow⟩ := emailChanged_some actor hc
  obtain rfl : n = "" := by simpa [named, hn'] using hn
  have hmember : v'.member member.id = if made none .save l = true
      then some (applyUpdates env dto actor member) else some member := by
    have hput := h.member member.id
    rw [hs] at hput
    simpa [show (applyUpdates env dto actor member).id = member.id from rfl] using hput
  have hacquired : ∀ x, ¬ acquired none (.member, member.id) x l = true := by
    intro x
    simp [h.acquires]
  -- what the member signs in by, the address aside
  let other (x : String) : Prop :=
    member.loginIdentifier = some x ∨ env.toLowerCase member.memberNumber = x
  have hbefore : ∀ x, Carries env v (.member, member.id) x ↔ member.email = some x ∨ other x := by
    intro x
    simp only [Carries, hs, Option.some.injEq, exists_eq_left']
    rfl
  by_cases hsaved : made none .save l = true
  · rw [if_pos hsaved] at hmember
    have hafter : ∀ x, Carries env v' (.member, member.id) x ↔ x = "" ∨ other x := by
      intro x
      simp only [Carries, hmember, Option.some.injEq, exists_eq_left', Member.signsInBy, hnow,
        eq_comm (a := "")]
      rfl
    constructor
    · intro hi _ p hp ho
      obtain ⟨hemail, hne⟩ := Option.filter_eq_some_iff.mp hp
      constructor
      · intro hr hother
        have hheld := hi.carried p ((hafter p).mpr (.inr hother)) (.inl ho)
        rw [h.owner, if_pos hr] at hheld
        cases hheld
      · intro hother
        by_contra hr
        have hheld : v'.owner p = some (.member, member.id) := by rw [h.owner, if_neg hr, ho]
        rcases hi.owned p hheld with hc' | ⟨-, hc'⟩
        · rcases (hafter p).mp hc' with rfl | ho'
          · simp at hne
          · exact hother ho'
        · exact hc' ((hbefore p).mpr (.inl hemail))
    · intro hp
      replace hp := hp hsaved
      constructor
      · intro x hx hown
        have ho : v.owner x = some (.member, member.id) := hown.resolve_right (hacquired x)
        rw [h.owner, if_neg, ho]
        intro hr
        have hname := (h.released x hr).1
        obtain ⟨-, hne⟩ := Option.filter_eq_some_iff.mp hname
        rcases (hafter x).mp hx with rfl | hother
        · simp at hne
        · exact (hp x hname ho).mp hr hother
      · intro x hx
        rw [h.owner] at hx
        by_cases hr : made none (.release x) l = true
        · rw [if_pos hr] at hx
          cases hx
        · rw [if_neg hr] at hx
          by_cases hc' : Carries env v' (.member, member.id) x
          · exact .inl hc'
          · refine .inr ⟨hx, fun hbc => ?_⟩
            rw [hafter, not_or] at hc'
            rcases (hbefore x).mp hbc with hemail | hother
            · have hname : named member.email = some x :=
                Option.filter_eq_some_iff.mpr ⟨hemail, by simpa using hc'.1⟩
              exact hr ((hp x hname hx).mpr hc'.2)
            · exact hc'.2 hother
  · rw [if_neg hsaved] at hmember
    have hafter : ∀ x, Carries env v' (.member, member.id) x ↔ Carries env v (.member, member.id) x := by
      intro x
      simp only [Carries, hmember, hs]
    have howner : ∀ x, v'.owner x = v.owner x := by
      intro x
      rw [h.owner, if_neg fun hr => hsaved (h.released x hr).2]
    exact ⟨fun _ hm => absurd hm hsaved, fun _ => .of_same hafter howner hacquired⟩

/-- A policy check, if there is to be one, and what follows it. -/
theorem policy_then {α : Type} {P : List Attempt → Except Failure α → Database → Prop}
    {x : Handler α} (membershipTypeId : Option String) (herr : ∀ e, P [] (.error e) v)
    (hx : Shows none base x.run v P) :
    Shows none base (match membershipTypeId with
      | some id => validateActivePolicy id >>= fun _ => x
      | none => x).run v P := by
  cases membershipTypeId with
  | none => exact hx
  | some id =>
    refine Leads.run_bind (validateActivePolicy_shows id) ?_ ?_
    · rintro l b v₁ ⟨rfl, rfl, -⟩
      exact hx
    · rintro l e v₁ ⟨rfl, rfl, -⟩
      exact herr e

theorem update.spares_nil (env : Environment) (dto : UpdateMemberDto) (member : Member)
    (s : Database) : update.Spares env dto member s [] := by
  rw [update.Spares]
  split
  · split
    · exact covers_nil
    · intro hm
      cases hm
  · trivial

theorem update_shows {s : Database} (hs : s.Indexed) {id : String} {oid : Documents.ObjectId}
    (hid : ObjectId.parse id = some oid) :
    Shows none base (update env dto actor id).run s (Harmless env (.member, oid.1) s fun l =>
      match s.member oid.1 with
      | some member => update.Spares env dto member s l
      | none => True) := by
  rw [update]
  refine Leads.run_bind (findDocumentById_shows hs hid) ?_ ?_
  · rintro l member v ⟨rfl, rfl, hfound⟩
    have hmember := hfound member rfl
    have hmid : member.id = oid.1 := Database.id_of_member hmember
    rw [← hmid] at hmember ⊢
    simp only [hmember, List.nil_append]
    by_cases hc : emailChanged env dto member = true
    · rw [if_pos hc]
      cases hn : named (nextEmail env dto) with
      | some n =>
        rw [forIdentifier_some hn]
        have hspares : ∀ l, update.Spares env dto member v l ↔
            Covers (Carries env v (.member, member.id)) n l := by
          intro l
          rw [update.Spares, if_pos hc, hn]
        refine Leads.run_bind (reserve_shows (.member, member.id) hs _ _ _) ?_ ?_
        · intro l₁ b v₁ h₁
          refine policy_then dto.membershipTypeId (fun e _ _ => ?_)
            (updateReserved_shows hc hn hmember h₁)
          rw [List.append_nil]
          exact h₁.intact_iff.trans (hspares l₁).symm
        · intro l₁ e v₁ h₁ _ _
          exact h₁.intact_iff.trans (hspares l₁).symm
      | none =>
        rw [forIdentifier_none hn]
        exact policy_then dto.membershipTypeId
          (fun e _ _ => iff_of_true (.refl env _ _) (update.spares_nil env dto member v))
          (updateEmptied_shows hs hc hn hmember)
    · rw [if_neg hc]
      exact policy_then dto.membershipTypeId
        (fun e _ _ => iff_of_true (.refl env _ _) (update.spares_nil env dto member v))
        (updateOther_shows hs hc hmember)
  · rintro l e v ⟨rfl, rfl, -⟩ _ _
    refine iff_of_true (.refl env _ _) ?_
    cases v.member oid.1 with
    | some member => exact update.spares_nil env dto member v
    | none => trivial

end Update

section Credentials

variable {actor : Option AuditActor} {member : Member}

theorem persistCredentials_shows (hv : v.Indexed) (hmember : v.member member.id = some member)
    {now : Member} (hnow : now.id = member.id) (n : String) :
    Shows none base (persistCredentials actor member now n).run v
      (Persists now (if member.loginIdentifier ≠ some n then named member.loginIdentifier else none)
        v) := by
  rw [persistCredentials]
  have hrest : ∀ (saved : Member) (v : Database), v.Indexed → Shows none base
      ((do
        revokeSessions .member member.id "member-credentials-updated"
        recordMemberChange now actor true false
        return toResponse saved : Handler MemberResponseDto)).run v (Elsewhere v) := by
    intro saved v hv
    refine Elsewhere.run_bind (revokeSessions_shows hv _ _ _) fun _ v₁ hv₁ => ?_
    exact Elsewhere.run_bind (recordMemberChange_shows hv₁ _ _ _ _) fun _ v₂ hv₂ =>
      Leads.run_pure (.nothing hv₂)
  refine Leads.run_bind (save_shows hv hmember hnow) ?_ ?_
  · intro l saved v₁ h
    have hnone : ∀ x, made none (.release x) l = false := fun x => h.issues.made (by nofun) none
    by_cases hc : member.loginIdentifier ≠ some n
    · rw [if_pos hc, if_pos hc]
      exact releasePrevious_then (Persists.of_saves h hnow _) hnone (hrest saved)
    · rw [if_neg hc, if_neg hc]
      exact (hrest saved v₁ h.indexed).mono fun l' r v₂ h' =>
        (Persists.of_saves h hnow none).elsewhere h'
  · intro l e v₁ h
    exact (Persists.of_saves h hnow _).error

theorem setMemberCredentials_shows {s : Database} (hs : s.Indexed) {id : String}
    {oid : Documents.ObjectId} (hid : ObjectId.parse id = some oid)
    (loginIdentifier password : String) :
    Shows none base (setMemberCredentials env actor id loginIdentifier password).run s
      (Harmless env (.member, oid.1) s (Covers (Carries env s (.member, oid.1))
        (normalizeLoginIdentifier env loginIdentifier))) := by
  rw [setMemberCredentials]
  have hnothing : Intact env (.member, oid.1) s [] s ↔ Covers (Carries env s (.member, oid.1))
      (normalizeLoginIdentifier env loginIdentifier) [] :=
    iff_of_true (Intact.refl env (.member, oid.1) s) covers_nil
  refine Leads.run_bind (findDocumentById_shows hs hid) ?_ ?_
  · rintro l member v ⟨rfl, rfl, hfound⟩
    have hmember := hfound member rfl
    have hmid : member.id = oid.1 := Database.id_of_member hmember
    rw [← hmid] at hmember hnothing ⊢
    refine find_then (fun error _ _ => hnothing) fun taken _ => ?_
    refine Leads.run_ite (fun _ => Leads.run_throw fun _ _ => hnothing) fun _ => ?_
    refine Leads.run_bind (reserve_shows (.member, member.id) hs _ _ _) ?_ ?_
    · intro l₁ b v₁ h₁
      refine draw_then (fun _ error _ _ => ?_) fun passwordHash => ?_
      · rw [List.append_nil]
        exact h₁.intact_iff
      · refine draw_then (fun h => h.elim) fun passwordUpdatedAt => ?_
        have hmember₁ : v₁.member member.id = some member := by
          rw [Database.member, h₁.members]
          exact hmember
        have htry : ∀ now : Member, now.id = member.id →
            now.loginIdentifier = some (normalizeLoginIdentifier env loginIdentifier) →
            Shows none base (tryCatch (persistCredentials actor member now
              (normalizeLoginIdentifier env loginIdentifier)) fun error => do
                releaseIdentifier (normalizeLoginIdentifier env loginIdentifier) member.id
                  (actor.map (·.id))
                throw error : Handler MemberResponseDto).run v₁ fun l r v' =>
              Harmless env (.member, member.id) v (Covers (Carries env v (.member, member.id))
                (normalizeLoginIdentifier env loginIdentifier)) (l₁ ++ l) r v' := by
          intro now hid hlogin
          have hpersist : Shows none base (persistCredentials actor member now
              (normalizeLoginIdentifier env loginIdentifier)).run v₁ (Persists now _ v₁) :=
            persistCredentials_shows h₁.indexed hmember₁ hid _
          rw [← hid] at h₁ ⊢
          exact compensate_shows now _ h₁ hpersist (fun error => rfl) (.inr hlogin)
        exact htry _ rfl rfl
    · intro l₁ e v₁ h₁ _ _
      exact h₁.intact_iff
  · rintro l e v ⟨rfl, rfl, -⟩ _ _
    exact hnothing

end Credentials

end MembersService

end Accounts
