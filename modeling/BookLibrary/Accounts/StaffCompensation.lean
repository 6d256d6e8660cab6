import BookLibrary.Accounts.Compensation

/-!
# Changes of e-mail addresses that fail

`StaffUsersService.update` without transactions: what is left of an attempt at a
transaction, and what the compensation makes of it.
-/

namespace Accounts

open AuthIdentifiers Documents Interleaving SignIn

namespace StaffUsersService

variable {env : Environment} {base v : Database} {dto : UpdateStaffUserDto}
  {actor : Option AuditActor} {user : StaffUser} {nextRoles : List StaffRole}

/-- What a change of the address knows of the object in memory. Where a save has returned,
though in a transaction that is given up, it passes for saved with the new address. -/
structure Remembers (env : Environment) (dto : UpdateStaffUserDto) (user : StaffUser) (kept : Bool)
    (m : Hydrated StaffUser) : Prop where
  isNew : m.isNew = false
  loadedId : m.loaded.id = user.id
  id : m.now.id = user.id
  email : m.loaded.email = if kept = true then nextEmail env dto user else user.email

theorem Remembers.init : Remembers env dto user false ⟨user, user, false⟩ := ⟨rfl, rfl, rfl, rfl⟩

theorem Remembers.applyUpdates {k : Bool} {m : Hydrated StaffUser} (actor : Option AuditActor)
    (nextRoles : List StaffRole) (h : Remembers env dto user k m) :
    Remembers env dto user k (applyUpdates env dto actor user nextRoles m) :=
  ⟨h.isNew, h.loadedId, h.id, h.email⟩

/-- A part of the attempt at a transaction. Nothing comes of it unless it is committed. -/
structure Aside (env : Environment) (dto : UpdateStaffUserDto) (user : StaffUser) (k : Bool)
    (v : Database) (l : List Attempt) (m : Hydrated StaffUser) (v' : Database) : Prop where
  within : Within l
  unseen : committed l = false → v' = v
  remembers : Remembers env dto user (k || kept l) m

section Aside

variable {α β : Type} {k : Bool} {m : Hydrated StaffUser}

theorem Aside.trans {v v' v'' : Database} {l l' : List Attempt} {m' : Hydrated StaffUser}
    (h : Aside env dto user k v l m v') (h' : Aside env dto user (k || kept l) v' l' m' v'') :
    Aside env dto user k v (l ++ l') m' v'' where
  within := h.within.append h'.within
  unseen hc := by
    rw [committed_append, Bool.or_eq_false_iff] at hc
    exact (h'.unseen hc.2).trans (h.unseen hc.1)
  remembers := by
    rw [kept_append, ← Bool.or_assoc]
    exact h'.remembers

theorem Aside.of_unseen {l : List Attempt} {v' : Database} (hm : Remembers env dto user k m)
    (h : Unseen v l v') : Aside env dto user k v l m v' where
  within := h.within
  unseen _ := h.same
  remembers := by rwa [h.kept, Bool.or_false]

theorem inside_alone {x : Handler α} (hm : Remembers env dto user k m) (hx : x.run.Confined Inside) :
    Shows none base ((liftM x : Working α).runFrom m) v (fun l r v' => Aside env dto user k v l r.2 v') :=
  Leads.keeping_lift (inside_shows hx) fun _ _ _ h => .of_unseen hm h

/-- A call inside the transaction, then the rest. -/
theorem inside_then {x : Handler β} {f : β → Working α} (hm : Remembers env dto user k m)
    (hx : x.run.Confined Inside)
    (hf : ∀ b v, Shows none base ((f b).runFrom m) v (fun l r v' => Aside env dto user k v l r.2 v')) :
    Shows none base ((liftM x >>= f).runFrom m) v (fun l r v' => Aside env dto user k v l r.2 v') := by
  refine Leads.keeping_lift_bind (inside_shows hx) (fun l b v₁ h => ?_) fun l e v₁ h => .of_unseen hm h
  refine (hf b v₁).mono fun l' r v₂ h' => (Aside.of_unseen hm h).trans ?_
  rwa [h.kept, Bool.or_false]

theorem aside_bind {x : Working β} {f : β → Working α}
    (hx : Shows none base (x.runFrom m) v (fun l r v' => Aside env dto user k v l r.2 v'))
    (hf : ∀ b k' m' v', Remembers env dto user k' m' →
      Shows none base ((f b).runFrom m') v' (fun l r v'' => Aside env dto user k' v' l r.2 v'')) :
    Shows none base ((x >>= f).runFrom m) v (fun l r v' => Aside env dto user k v l r.2 v') := by
  refine Leads.keeping_bind hx ?_ ?_
  · intro l b m' v₁ h
    exact (hf b _ m' v₁ h.remembers).mono fun l' r v₂ h' => h.trans h'
  · exact fun l e m' v₁ h => h

theorem aside_tryCatch {x : Working α} {f : Failure → Working α}
    (hx : Shows none base (x.runFrom m) v (fun l r v' => Aside env dto user k v l r.2 v'))
    (hf : ∀ e k' m' v', Remembers env dto user k' m' →
      Shows none base ((f e).runFrom m') v' (fun l r v'' => Aside env dto user k' v' l r.2 v'')) :
    Shows none base ((tryCatch x f).runFrom m) v (fun l r v' => Aside env dto user k v l r.2 v') := by
  refine Leads.keeping_tryCatch hx (fun l a m' v₁ h => h) ?_
  intro l e m' v₁ h
  exact (hf e _ m' v₁ h.remembers).mono fun l' r v₂ h' => h.trans h'

theorem aside_done {r : Except Failure α} (hm : Remembers env dto user k m) :
    Shows none base (.done (r, m)) v (fun l r v' => Aside env dto user k v l r.2 v') :=
  Leads.done (.of_unseen hm (.nil v))

end Aside

section Transaction

variable {α : Type} {k : Bool} {m : Hydrated StaffUser} {n : ℕ}

/-- The log of one save in the transaction, which has ended so. -/
def SaveLogged (n : ℕ) (l : List Attempt) : Except Failure (Sessions.WriteResult Document) → Prop
  | .ok res => ∃ w, w.purpose = .save ∧ l = [.write (some n) w (some res) false]
  | .error _ => ∃ w res, l = [.write (some n) w res true]

/-- A save in the transaction, of a user whose address has been edited. -/
theorem save_aside (hm : Remembers env dto user k m) (he : m.now.email = nextEmail env dto user) :
    Shows none base ((save (some n)).runFrom m) v (fun l r v' => Aside env dto user k v l r.2 v') := by
  rw [save, Keeping.runFrom_get_bind]
  refine Leads.keeping_lift_bind (R := fun l r v' => v' = v ∧ SaveLogged n l r) ?_ ?_ ?_
  · refine Leads.call fun s hs o s₁ hgoes => ⟨v, goes_write_inside hs hgoes, ?_⟩
    cases o with
    | answered res =>
      refine Leads.done ⟨rfl, _, ?_, rfl⟩
      rw [if_neg (by simp [hm.isNew])]
      rfl
    | threw res => exact passed_on fun error => ⟨rfl, _, res, rfl⟩
  · rintro l res v₁ ⟨rfl, w, hw, rfl⟩
    have hl : Within [.write (some n) w (some res) false] := .one (.inl ⟨_, _, _, _, rfl⟩)
    cases res with
    | written docs =>
      refine Leads.done ⟨hl, fun _ => rfl, ?_⟩
      have hkept : kept [.write (some n) w (some (.written docs)) false] = true := by
        simp [kept, hw]
      rw [List.append_nil, hkept, Bool.or_true]
      exact ⟨rfl, hm.id, hm.id, he⟩
    | unmatched =>
      refine Leads.done ⟨hl, fun _ => rfl, ?_⟩
      rw [List.append_nil, kept_one, Bool.or_false]
      exact hm
    | duplicateKey =>
      refine (inside_alone hm (confined_raiseDuplicateKey fun _ => trivial)).mono fun l' r v₂ h' => ?_
      have hfirst : Aside env dto user k v₁ [.write (some n) w (some .duplicateKey) false] m v₁ := by
        refine ⟨hl, fun _ => rfl, ?_⟩
        rw [kept_one, Bool.or_false]
        exact hm
      refine hfirst.trans ?_
      rwa [kept_one, Bool.or_false]
  · rintro l e v₁ ⟨rfl, w, res, rfl⟩
    refine ⟨.one (.inl ⟨_, _, _, _, rfl⟩), fun _ => rfl, ?_⟩
    rw [kept_one]
    cases res with
    | none => rwa [Bool.or_false]
    | some res => cases res <;> rwa [Bool.or_false]

theorem callback_aside (hm : Remembers env dto user k m) :
    Shows none base ((changeWithIdentifier env dto actor user nextRoles n).runFrom m) v
      (fun l r v' => Aside env dto user k v l r.2 v') := by
  rw [changeWithIdentifier]
  have hwrite : ∀ w : Write, w.purpose ≠ .save → Inside _ (.inr (.inl (.write (some n) w))) :=
    fun w hw => ⟨rfl, hw⟩
  refine inside_then hm (confined_reserve rfl (fun w hw => hwrite w (by rw [hw]; nofun))
    fun _ => trivial) fun _ v₁ => ?_
  rw [Keeping.runFrom_modify_bind]
  refine aside_bind (save_aside (hm.applyUpdates actor nextRoles) rfl) fun _ k₂ m₂ v₂ hm₂ => ?_
  exact inside_alone hm₂ (confined_release (fun w hw => hwrite w (by rw [hw]; nofun))
    fun _ => trivial)

/-- The attempt at a transaction as a whole: it succeeds only by a commit. -/
def Attempts {α : Type} (env : Environment) (dto : UpdateStaffUserDto) (user : StaffUser) (k : Bool)
    (v : Database) (l : List Attempt) (r : Except Failure α × Hydrated StaffUser) (v' : Database) :
    Prop :=
  Aside env dto user k v l r.2 v' ∧ ((∃ a, r.1 = .ok a) → committed l = true)

theorem Aside.attempts {v v' v'' : Database} {l l' : List Attempt}
    {r' : Except Failure α × Hydrated StaffUser} (h : Aside env dto user k v l m v') (h' : Attempts env dto user (k || kept l) v' l' r' v'') :
    Attempts env dto user k v (l ++ l') r' v'' := by
  refine ⟨h.trans h'.1, fun hr => ?_⟩
  rw [committed_append, h'.2 hr, Bool.or_true]

theorem commit_attempts (hm : Remembers env dto user k m) :
    Shows none base ((liftM (change (.commitTransaction n)) : Working Unit).runFrom m) v
      (Attempts env dto user k v) := by
  refine Leads.keeping_lift (R := fun l r v' => ∃ applied threw, l = [.commit n applied threw] ∧
    (applied = false → v' = v) ∧ ((∃ a, r = .ok a) → applied = true)) ?_ ?_
  · refine Leads.call fun s hs o s₁ hgoes => ⟨s₁.committed, rfl, ?_⟩
    have hsame : o.applied.isSome = false → s₁.committed = v := by
      intro hnone
      rcases hgoes.applied with ⟨-, rfl⟩ | ⟨b, hb, -⟩
      · exact hs
      · rw [hb] at hnone
        cases hnone
    cases o with
    | answered b => exact Leads.done ⟨_, _, rfl, hsame, fun _ => rfl⟩
    | threw r => exact passed_on fun error => ⟨_, _, rfl, hsame, fun ⟨a, ha⟩ => by cases ha⟩
  · rintro l r v₁ ⟨applied, threw, rfl, hsame, hr⟩
    refine ⟨⟨.one (.inr ⟨_, _, _, rfl⟩), fun hc => hsame ?_, ?_⟩, fun h => ?_⟩
    · cases applied with
      | false => rfl
      | true => cases hc
    · rwa [show kept [.commit n applied threw] = false from rfl, Bool.or_false]
    · rw [hr h]
      rfl

theorem attempt_attempts {callback : ℕ → Working Unit}
    (hcallback : ∀ n k m v, Remembers env dto user k m →
      Shows none base ((callback n).runFrom m) v (fun l r v' => Aside env dto user k v l r.2 v'))
    (hm : Remembers env dto user k m) :
    Shows none base ((withTransaction.attempt callback).runFrom m) v
      (Attempts env dto user k v) := by
  rw [withTransaction.attempt]
  refine Leads.keeping_bind (inside_alone hm (perform_confined trivial trivial)) ?_ ?_
  · intro l₁ n m₁ v₁ h₁
    refine Leads.mono (Q := Attempts env dto user (k || kept l₁) v₁) ?_ fun l r v' h => h₁.attempts h
    refine Leads.keeping_tryCatch (R := Attempts env dto user (k || kept l₁) v₁) ?_
      (fun _ _ _ _ h => h) ?_
    · refine Leads.keeping_bind (hcallback n _ m₁ v₁ h₁.remembers) ?_ ?_
      · intro l₂ b m₂ v₂ h₂
        exact (commit_attempts h₂.remembers).mono fun l r v' h => h₂.attempts h
      · exact fun l e m' v' h => ⟨h, fun ⟨a, ha⟩ => by cases ha⟩
    · intro l₂ e m₂ v₂ h₂
      refine Leads.mono (Q := Attempts env dto user ((k || kept l₁) || kept l₂) v₂) ?_
        fun l r v' h => h₂.1.attempts h
      refine Leads.keeping_bind (inside_alone h₂.1.remembers (perform_confined trivial trivial)) ?_ ?_
      · intro l₃ b m₃ v₃ h₃
        refine Leads.keeping_throw (h₃.attempts ⟨.of_unseen h₃.remembers (.nil _), ?_⟩)
        exact fun ⟨a, ha⟩ => by cases ha
      · exact fun l e m' v' h => ⟨h, fun ⟨a, ha⟩ => by cases ha⟩
  · exact fun l e m' v' h => ⟨h, fun ⟨a, ha⟩ => by cases ha⟩

theorem withTransaction_attempts {callback : ℕ → Working Unit}
    (hcallback : ∀ n k m v, Remembers env dto user k m →
      Shows none base ((callback n).runFrom m) v fun l r v' => Aside env dto user k v l r.2 v') (retries : ℕ)
    (hm : Remembers env dto user k m) :
    Shows none base ((withTransaction callback retries).runFrom m) v
      (Attempts env dto user k v) := by
  induction retries generalizing k m v with
  | zero => exact attempt_attempts hcallback hm
  | succ retries ih =>
    refine Leads.keeping_tryCatch (attempt_attempts hcallback hm) (fun _ _ _ _ h => h) ?_
    intro l e m₁ v₁ h
    refine Leads.mono (Q := Attempts env dto user (k || kept l) v₁) ?_ fun l' r v' h' =>
      h.1.attempts h'
    by_cases ht : e.isTransient = true
    · rw [if_pos ht]
      exact ih h.1.remembers
    · rw [if_neg ht]
      exact Leads.keeping_throw ⟨.of_unseen h.1.remembers (.nil _), fun ⟨a, ha⟩ => by cases ha⟩

end Transaction

section Settled

/-- Where a failed change of the address does no harm, `kept` being whether the object passed
for saved when the fallback came to it. Before the save nothing may have been reserved. When
the new address is stored, the release of the previous one must have returned. When it is
not, the previous address must not be released, and the new one not be left reserved. -/
def update.Spares (env : Environment) (dto : UpdateStaffUserDto) (user : StaffUser) (kept : Bool)
    (s : Database) (l : List Attempt) : Prop :=
  if tried none .save l = true then
    if kept = false ∧ made none .save l = true then
      tried none (.release user.email) l = true ∧ threw none (.release user.email) l = false
    else
      (s.owner user.email = some (.staff, user.id) → made none (.release user.email) l = false) ∧
      (tried none (.release user.email) l = true → threw none (.release user.email) l = false →
        s.owner (nextEmail env dto user) = some (.staff, user.id))
  else made none .reservation l = false

/-- The store after a change of the address that has come to its save; `email` is what the
user carries by now. -/
structure Settled (env : Environment) (dto : UpdateStaffUserDto) (user : StaffUser) (s : Database)
    (l : List Attempt) (v : Database) (email : String) : Prop where
  before : ∀ x, Carries env s (.staff, user.id) x ↔ x = user.email
  after : ∀ x, Carries env v (.staff, user.id) x ↔ x = email
  previous : v.owner user.email =
    if made none (.release user.email) l = true then none else s.owner user.email
  other : ∀ x, x ≠ nextEmail env dto user → x ≠ user.email → v.owner x = s.owner x
  had : s.owner (nextEmail env dto user) = some (.staff, user.id) ∨
    acquired none (.staff, user.id) (nextEmail env dto user) l = true
  acquires : ∀ x, acquired none (.staff, user.id) x l = true → x = nextEmail env dto user

variable {s : Database} {l : List Attempt}

theorem Settled.intact_new (h : Settled env dto user s l v (nextEmail env dto user))
    (hne : nextEmail env dto user ≠ user.email) : Intact env (.staff, user.id) s l v ↔
      v.owner (nextEmail env dto user) = some (.staff, user.id) ∧
      v.owner user.email ≠ some (.staff, user.id) := by
  constructor
  · intro hi
    refine ⟨hi.carried _ ((h.after _).mpr rfl) h.had, fun ho => ?_⟩
    rcases hi.owned _ ho with hc | ⟨-, hc⟩
    · exact hne ((h.after _).mp hc).symm
    · exact hc ((h.before _).mpr rfl)
  · rintro ⟨hnew, hold⟩
    constructor
    · intro x hx _
      rw [(h.after x).mp hx]
      exact hnew
    · intro x hx
      by_cases hn : x = nextEmail env dto user
      · exact .inl ((h.after x).mpr hn)
      · right
        have hp : x ≠ user.email := by
          rintro rfl
          exact hold hx
        exact ⟨by rw [← h.other x hn hp, hx], fun hc => hp ((h.before x).mp hc)⟩

theorem Settled.intact_old (h : Settled env dto user s l v user.email)
    (hne : nextEmail env dto user ≠ user.email) : Intact env (.staff, user.id) s l v ↔
      (s.owner user.email = some (.staff, user.id) →
        made none (.release user.email) l = false) ∧
      (v.owner (nextEmail env dto user) = some (.staff, user.id) →
        s.owner (nextEmail env dto user) = some (.staff, user.id)) := by
  have hprevious := h.previous
  constructor
  · intro hi
    refine ⟨fun ho => ?_, fun ho => ?_⟩
    · by_contra hr
      have hheld := hi.carried _ ((h.after _).mpr rfl) (.inl ho)
      rw [hprevious, if_pos (by simpa using hr)] at hheld
      cases hheld
    · rcases hi.owned _ ho with hc | ⟨hs, -⟩
      · exact absurd ((h.after _).mp hc) hne
      · exact hs
  · rintro ⟨hold, hnew⟩
    constructor
    · intro x hx hhad
      obtain rfl := (h.after x).mp hx
      have ho : s.owner user.email = some (.staff, user.id) :=
        hhad.resolve_right fun ha => hne (h.acquires _ ha).symm
      rw [hprevious, if_neg (by simp [hold ho]), ho]
    · intro x hx
      by_cases hp : x = user.email
      · exact .inl ((h.after x).mpr hp)
      · refine .inr ⟨?_, fun hc => hp ((h.before x).mp hc)⟩
        by_cases hn : x = nextEmail env dto user
        · subst hn
          exact hnew hx
        · rw [← h.other x hn hp, hx]

end Settled

section Save

variable {k : Bool} {m : Hydrated StaffUser}

/-- `save` outside of transactions of a user who is stored as `user`; `email` is what is
stored if it is applied. -/
structure Saves (user : StaffUser) (email : String) (v : Database) (l : List Attempt)
    (r : Except Failure Unit) (v' : Database) : Prop where
  indexed : v'.Indexed
  members : v'.members = v.members
  identifiers : v'.identifiers = v.identifiers
  staffUser : (v'.staffUser user.id).map (·.email) =
    some (if made none .save l = true then email else user.email)
  returned : r = .ok () → made none .save l = true
  faults : (∃ e, r = .error e) → 1 ≤ faults l
  attempted : tried none .save l = true
  issues : Issues none .save l

section Write

variable {loaded now : StaffUser} (hv : v.Indexed) (huser : v.staffUser loaded.id = some user)

include hv huser

theorem write_saveStaffUser (now : StaffUser) : schema.write (.saveStaffUser loaded now) v = .duplicateKey ∨
    schema.write (.saveStaffUser loaded now) v =
      .written [.staffUser (StaffUser.saved loaded now user)] := by
  rw [Database.staffUser] at huser
  rcases Database.write_update (s := v) (w := .saveStaffUser loaded now) hv rfl with
    ⟨-, hnone⟩ | ⟨d, -, hw, -⟩ | ⟨d, hd, hw, -⟩
  · rw [huser] at hnone
    cases hnone
  · exact .inl hw
  · rw [huser] at hd
    cases hd
    exact .inr hw

theorem Saves.applied (hid : loaded.id = user.id) {t : Bool} {r : Except Failure Unit}
    (hr : r = .ok () → schema.write (.saveStaffUser loaded now) v ≠ .duplicateKey)
    (hfails : (∃ e, r = .error e) →
      t = true ∨ schema.write (.saveStaffUser loaded now) v = .duplicateKey) :
    Saves user (sent loaded.email now.email user.email) v
      [.write none (.saveStaffUser loaded now)
        (some (schema.write (.saveStaffUser loaded now) v)) t] r
      (v.wrote (.saveStaffUser loaded now)) := by
  have hfaults : (∃ e, r = .error e) → (Attempt.write none (.saveStaffUser loaded now)
      (some (schema.write (.saveStaffUser loaded now) v)) t).fails = true := by
    intro he
    rcases hfails he with rfl | hdup
    · rfl
    · rw [hdup]
      cases t <;> rfl
  rcases write_saveStaffUser hv huser now with hdup | hw
  · have hsame : v.wrote (.saveStaffUser loaded now) = v :=
      Database.wrote_of_no_docs (by rw [hdup]; rfl)
    rw [hsame]
    rw [hdup] at hfaults ⊢
    exact {
      indexed := hv
      members := rfl
      identifiers := rfl
      staffUser := by
        rw [← hid, huser]
        rfl
      returned := fun hok => absurd hdup (hr hok)
      faults := fun he => faults_pos List.mem_cons_self (hfaults he)
      attempted := rfl
      issues := .one rfl }
  · have hput := Database.wrote_written hw
    rw [hw] at hfaults ⊢
    exact {
      indexed := Database.wrote_indexed hv _
      members := by rw [hput]; rfl
      identifiers := by rw [hput]; rfl
      staffUser := by
        rw [hput]
        show ((v.put _).staffUser user.id).map _ = _
        rw [Database.staffUser_put, if_pos (show (StaffUser.saved loaded now user).id = user.id from rfl)]
        rfl
      returned := fun _ => rfl
      faults := fun he => faults_pos List.mem_cons_self (hfaults he)
      attempted := rfl
      issues := .one rfl }

end Write

theorem save_shows (hv : v.Indexed) (huser : v.staffUser user.id = some user)
    (hm : Remembers env dto user k m) :
    Shows none base ((save none).runFrom m) v fun l r v' =>
      Saves user (sent m.loaded.email m.now.email user.email) v l r.1 v' := by
  rw [save, Keeping.runFrom_get_bind, if_neg (by simp [hm.isNew])]
  have hfound : v.staffUser m.loaded.id = some user := by rw [hm.loadedId, huser]
  refine Leads.keeping_lift_bind (write_shows _) ?_ ?_
  · rintro l b v' ⟨rfl, rfl, rfl⟩
    rcases write_saveStaffUser hv hfound m.now with hdup | hw
    · rw [hdup]
      refine Leads.keeping_lift (R := fun l r v' => l = [] ∧ v' = v.wrote (.saveStaffUser m.loaded m.now) ∧
        ∃ e, r = .error e) ?_ ?_
      · exact draw_then (fun h => h.elim) fun error => Leads.run_throw ⟨rfl, rfl, _, rfl⟩
      · rintro l r v' ⟨rfl, rfl, e, rfl⟩
        rw [← hdup]
        exact .applied hv hfound hm.loadedId (fun h => by cases h) fun _ => .inr hdup
    · rw [hw]
      refine Leads.done ?_
      rw [← hw]
      refine .applied hv hfound hm.loadedId (fun _ hdup => ?_) fun ⟨e, he⟩ => by cases he
      rw [hw] at hdup
      cases hdup
  · intro l e v' h
    cases h with
    | applied error => exact .applied hv hfound hm.loadedId (fun h => by cases h) fun _ => .inl rfl
    | lost error =>
      exact {
        indexed := hv
        members := rfl
        identifiers := rfl
        staffUser := by rw [huser]; rfl
        returned := fun h => by cases h
        faults := fun _ => faults_pos List.mem_cons_self rfl
        attempted := rfl
        issues := .one rfl }

end Save

section Fallback

variable {k : Bool} {m : Hydrated StaffUser} {s v' v'' : Database} {email : String}
  {l l' l₁ l₂ l₃ : List Attempt}

/-- What the body of the `try` does: the save, and the release of the previous address. -/
structure Edits (user : StaffUser) (email : String) (v : Database) (l : List Attempt)
    (r : Except Failure Unit) (v' : Database) : Prop where
  indexed : v'.Indexed
  staffUser : (v'.staffUser user.id).map (·.email) =
    some (if made none .save l = true then email else user.email)
  owner : ∀ x, v'.owner x =
    if x = user.email ∧ made none (.release user.email) l = true then none else v.owner x
  attempted : tried none .save l = true
  returned : r = .ok () ↔
    tried none (.release user.email) l = true ∧ threw none (.release user.email) l = false
  saved : tried none (.release user.email) l = true → made none .save l = true
  freed : r = .ok () → v'.owner user.email ≠ some (.staff, user.id)
  faults : (∃ e, r = .error e) → 1 ≤ faults l
  acquires : ∀ x, acquired none (.staff, user.id) x l = false
  kept : kept l = false

theorem Edits.of_saves {e : Failure} (h : Saves user email v l (.error e) v') :
    Edits user email v l (.error e) v' where
  indexed := h.indexed
  staffUser := h.staffUser
  owner x := by
    rw [h.issues.made (by nofun), Database.owner_congr h.identifiers, if_neg (by simp)]
  attempted := h.attempted
  returned := by
    rw [h.issues.tried (by nofun)]
    simp
  saved ht := by
    rw [h.issues.tried (by nofun)] at ht
    cases ht
  freed hr := by cases hr
  faults := h.faults
  acquires x := h.issues.acquired (by nofun) none _ x
  kept := h.issues.kept

theorem Edits.of_release {r : Except Failure Unit} (h : Saves user email v l (.ok ()) v')
    (h' : Releases none user.email (.staff, user.id) v' l' r v'')
    (htried : tried none (.release user.email) l' = true) :
    Edits user email v (l ++ l') r v'' where
  indexed := h'.indexed
  staffUser := by
    rw [made_append, h'.issues.made (by rintro ⟨⟩), Bool.or_false, Database.staffUser, h'.staffUsers]
    exact h.staffUser
  owner x := by
    rw [made_append, h.issues.made (by rintro ⟨⟩), Bool.false_or, h'.owner,
      Database.owner_congr h.identifiers]
  attempted := by rw [tried_append, h.attempted, Bool.true_or]
  returned := by
    rw [tried_append, threw_append, htried, h.issues.threw (by rintro ⟨⟩), Bool.or_true, Bool.false_or,
      ← h'.returned]
    simp
  saved _ := by rw [made_append, h.returned rfl, Bool.true_or]
  freed := h'.freed
  faults he := by
    have hthrew : threw none (.release user.email) l' = true := by
      by_contra hf
      obtain ⟨e, rfl⟩ := he
      exact absurd (h'.returned.mpr (by simpa using hf)) (by rintro ⟨⟩)
    have := faults_of_threw hthrew
    rw [faults_append]
    omega
  acquires x := by
    rw [acquired_append, h.issues.acquired (by rintro ⟨⟩), h'.issues.acquired (by rintro ⟨⟩), Bool.false_or]
  kept := by rw [kept_append, h.issues.kept, h'.issues.kept, Bool.false_or]

/-- What a change of the address has come to, with the compensation or without. -/
theorem settled {r : Except Failure Unit} (huser : s.staffUser user.id = some user)
    (hne : nextEmail env dto user ≠ user.email)
    (h₁ : Reserves none (nextEmail env dto user) (.staff, user.id) s l₁ (.ok ()) v)
    (h₂ : Edits user email v l₂ r v') (h₃ : Issues none (.release (nextEmail env dto user)) l₃)
    (hstaff : v''.staffUsers = v'.staffUsers)
    (howner : ∀ x ≠ nextEmail env dto user, v''.owner x = v'.owner x) :
    Settled env dto user s (l₁ ++ (l₂ ++ l₃)) v''
      (if made none .save l₂ = true then email else user.email) where
  before x := by
    simp only [Carries, huser, Option.some.injEq, exists_eq_left']
    exact eq_comm
  after x := by
    have hfound := h₂.staffUser
    rw [Database.staffUser, ← hstaff] at hfound
    obtain ⟨u, hu, hemail⟩ := Option.map_eq_some_iff.mp hfound
    have hu' : v''.staffUser user.id = some u := hu
    simp only [Carries, hu', hemail, Option.some.injEq, exists_eq_left']
    exact eq_comm
  previous := by
    have hreleased : made none (.release user.email) (l₁ ++ (l₂ ++ l₃)) =
        made none (.release user.email) l₂ := by
      rw [made_append, made_append, h₁.issues.made (by rintro ⟨⟩),
        h₃.made (p := .release user.email) (by simpa using hne), Bool.false_or, Bool.or_false]
    have hkept : v.owner user.email = s.owner user.email := by
      rw [h₁.owner, if_neg fun h => hne h.1.symm]
    rw [hreleased, howner _ hne.symm, h₂.owner, hkept]
    simp
  other x hn hp := by
    rw [howner x hn, h₂.owner, if_neg fun h => hp h.1, h₁.owner, if_neg fun h => hn h.1]
  had := by
    rw [acquired_append]
    rcases h₁.had with ho | ha
    · exact .inl ho
    · exact .inr (by rw [ha, Bool.true_or])
  acquires x hx := by
    rw [acquired_append, acquired_append, h₂.acquires, h₃.acquired (by rintro ⟨⟩), Bool.false_or,
      Bool.or_false, h₁.acquires, Bool.and_eq_true, decide_eq_true_eq] at hx
    exact hx.1

theorem intact_iff_spares {r : Except Failure Unit} (huser : s.staffUser user.id = some user)
    (hne : nextEmail env dto user ≠ user.email)
    (h₁ : Reserves none (nextEmail env dto user) (.staff, user.id) s l₁ (.ok ()) v)
    (h₂ : Edits user (if k = true then user.email else nextEmail env dto user) v l₂ r v')
    (h₃ : Issues none (.release (nextEmail env dto user)) l₃)
    (hstaff : v''.staffUsers = v'.staffUsers)
    (howner : ∀ x ≠ nextEmail env dto user, v''.owner x = v'.owner x)
    (hnew : v''.owner (nextEmail env dto user) = some (.staff, user.id) ↔ r = .ok ()) :
    Intact env (.staff, user.id) s (l₁ ++ (l₂ ++ l₃)) v'' ↔
      update.Spares env dto user k s (l₁ ++ (l₂ ++ l₃)) := by
  have hsettled := settled huser hne h₁ h₂ h₃ hstaff howner
  have hp : Purpose.release (nextEmail env dto user) ≠ .release user.email := by simpa using hne
  have htried : tried none .save (l₁ ++ (l₂ ++ l₃)) = true := by
    rw [tried_append, tried_append, h₂.attempted, Bool.true_or, Bool.or_true]
  have hmade : made none .save (l₁ ++ (l₂ ++ l₃)) = made none .save l₂ := by
    rw [made_append, made_append, h₁.issues.made (by nofun), h₃.made (by nofun), Bool.false_or,
      Bool.or_false]
  have hreturned : r = .ok () ↔ tried none (.release user.email) (l₁ ++ (l₂ ++ l₃)) = true ∧
      threw none (.release user.email) (l₁ ++ (l₂ ++ l₃)) = false := by
    rw [tried_append, tried_append, threw_append, threw_append, h₁.issues.tried (by nofun),
      h₁.issues.threw (by nofun), h₃.tried hp, h₃.threw hp, Bool.false_or, Bool.or_false,
      Bool.false_or, Bool.or_false]
    exact h₂.returned
  rw [update.Spares, if_pos htried, hmade]
  by_cases hstored : k = false ∧ made none .save l₂ = true
  · obtain ⟨rfl, hsaved⟩ := hstored
    rw [if_pos hsaved] at hsettled
    rw [if_pos ⟨rfl, hsaved⟩, hsettled.intact_new hne, hnew, ← hreturned]
    refine ⟨fun h => h.1, fun hr => ⟨hr, ?_⟩⟩
    rw [howner _ hne.symm]
    exact h₂.freed hr
  · have hkept : (if made none .save l₂ = true then
        if k = true then user.email else nextEmail env dto user else user.email) = user.email := by
      by_cases hs : made none .save l₂ = true
      · have hk : k = true := by simpa [hs] using hstored
        rw [if_pos hs, if_pos hk]
      · rw [if_neg hs]
    rw [hkept] at hsettled
    rw [if_neg hstored, hsettled.intact_old hne, hnew, hreturned, and_imp]

/-- The change on its own: where it does no harm, if it returns, or fails for one reason. -/
def FallsBack (env : Environment) (dto : UpdateStaffUserDto) (user : StaffUser) (k : Bool)
    (s : Database) (l : List Attempt) (r : Except Failure Unit) (v : Database) : Prop :=
  v.Indexed ∧ kept l = false ∧ (r = .ok () ∨ faults l ≤ 1 →
    (Intact env (.staff, user.id) s l v ↔ update.Spares env dto user k s l))

theorem fallback_shows (hs : s.Indexed) (huser : s.staffUser user.id = some user)
    (hne : nextEmail env dto user ≠ user.email) (hm : Remembers env dto user k m) :
    Shows none base ((changeWithoutTransaction env dto actor user nextRoles).runFrom m) s
      fun l r v => FallsBack env dto user k s l r.1 v := by
  rw [changeWithoutTransaction]
  have hend : ∀ {l r v}, Reserves none (nextEmail env dto user) (.staff, user.id) s l r v →
      (Intact env (.staff, user.id) s l v ↔ update.Spares env dto user k s l) := by
    intro l r v h
    have hfree : ¬ Carries env s (.staff, user.id) (nextEmail env dto user) := by
      simpa [Carries, huser] using hne.symm
    rw [h.intact_iff, update.Spares, if_neg (by simp [h.issues.tried (p := .save) (by rintro ⟨⟩) none]),
      Covers, h.issues.tried (by rintro ⟨⟩), h.issues.made (p := .save) (by rintro ⟨⟩)]
    simp [hfree]
  refine Leads.keeping_lift_bind (R := Reserves none (nextEmail env dto user) (.staff, user.id) s)
    (reserve_shows (.staff, user.id) hs _ _ _) ?_ ?_
  · intro l₁ b v₁ h₁
    have huser₁ : v₁.staffUser user.id = some user := by
      rw [Database.staffUser, h₁.staffUsers]
      exact huser
    refine Leads.keeping_tryCatch (R := fun l r v => Edits user
      (if k = true then user.email else nextEmail env dto user) v₁ l r.1 v) ?_ ?_ ?_
    · have hemail : sent m.loaded.email (nextEmail env dto user) user.email =
          if k = true then user.email else nextEmail env dto user := by
        rw [hm.email]
        cases k with
        | true => exact sent_self _ _
        | false => exact sent_loaded _ _
      rw [Keeping.runFrom_modify_bind]
      refine Leads.keeping_bind (save_shows h₁.indexed huser₁ (hm.applyUpdates actor nextRoles)) ?_ ?_
      · intro l₂ b₂ m₂ v₂ h₂
        replace h₂ : Saves user (sent m.loaded.email (nextEmail env dto user) user.email) v₁ l₂
          (.ok b₂) v₂ := h₂
        rw [hemail] at h₂
        refine Leads.keeping_lift (release_tried user.email (.staff, user.id) h₂.indexed _) fun l₃ r₃ v₃ h₃ => ?_
        exact .of_release h₂ h₃.1 h₃.2
      · intro l₂ e m₂ v₂ h₂
        replace h₂ : Saves user (sent m.loaded.email (nextEmail env dto user) user.email) v₁ l₂
          (.error e) v₂ := h₂
        rw [hemail] at h₂
        exact .of_saves h₂
    · intro l₂ b₂ m₂ v₂ h₂
      refine ⟨h₂.indexed, by rw [kept_append, h₁.issues.kept, h₂.kept, Bool.false_or], fun _ => ?_⟩
      have hsecured : v₂.owner (nextEmail env dto user) = some (.staff, user.id) := by
        rw [h₂.owner, if_neg fun h => hne h.1]
        exact h₁.secured rfl
      have hiff := intact_iff_spares huser hne h₁ h₂ .nil rfl (fun _ _ => rfl)
        (iff_of_true hsecured rfl)
      rwa [List.append_nil] at hiff
    · intro l₂ e m₂ v₂ h₂
      refine Leads.keeping_lift_bind
        (R := Releases none (nextEmail env dto user) (.staff, user.id) v₂)
        (release_shows (nextEmail env dto user) (.staff, user.id) h₂.indexed _) ?_ ?_
      · intro l₃ b₃ v₃ h₃
        refine Leads.keeping_throw ⟨h₃.indexed, ?_, fun _ => ?_⟩
        · rw [List.append_nil, kept_append, kept_append, h₁.issues.kept, h₂.kept, h₃.issues.kept,
            Bool.false_or, Bool.false_or]
        rw [List.append_nil]
        refine intact_iff_spares huser hne h₁ h₂ h₃.issues h₃.staffUsers (fun x hx => ?_)
          (iff_of_false (h₃.freed rfl) (by rintro ⟨⟩))
        rw [h₃.owner, if_neg fun h => hx h.1]
      · intro l₃ e' v₃ h₃
        refine ⟨h₃.indexed, ?_, fun hone => ?_⟩
        · rw [kept_append, kept_append, h₁.issues.kept, h₂.kept, h₃.issues.kept, Bool.false_or,
            Bool.false_or]
        -- the release has failed as well
        have hfirst := h₂.faults ⟨e, rfl⟩
        have hsecond : 1 ≤ faults l₃ := by
          refine faults_of_threw (p := .release (nextEmail env dto user)) ?_
          by_contra hf
          exact absurd (h₃.returned.mpr (by simpa using hf)) (by rintro ⟨⟩)
        rcases hone with hok | hone
        · cases hok
        · rw [faults_append, faults_append] at hone
          omega
  · exact fun l e v₁ h => ⟨h.indexed, h.issues.kept, fun _ => hend h⟩

end Fallback

section Update

variable {s v' : Database} {l l' : List Attempt} {k : Bool}

/-- What belongs to transactions has no part in it. -/
theorem update.spares_within (h : Within l) :
    update.Spares env dto user k s (l ++ l') ↔ update.Spares env dto user k s l' := by
  simp only [update.Spares, tried_append, made_append, threw_append, h.tried, h.made, h.threw,
    Bool.false_or]

theorem intact_within {subject : Subject} (h : Within l) :
    Intact env subject s (l ++ l') v ↔ Intact env subject s l' v := by
  have hacquired : ∀ x, acquired none subject x (l ++ l') = acquired none subject x l' := by
    intro x
    rw [acquired_append, h.acquired, Bool.false_or]
  constructor
  · exact fun hi => ⟨fun x hx ho => hi.carried x hx (by rwa [hacquired]), hi.owned⟩
  · exact fun hi => ⟨fun x hx ho => hi.carried x hx (by rwa [← hacquired]), hi.owned⟩

theorem update.spares_elsewhere (h : Issues none .elsewhere l') :
    update.Spares env dto user k s (l ++ l') ↔ update.Spares env dto user k s l := by
  have htried : ∀ p, Purpose.elsewhere ≠ p → tried none p (l ++ l') = tried none p l := by
    intro p hp
    rw [tried_append, h.tried hp, Bool.or_false]
  have hmade : ∀ p, Purpose.elsewhere ≠ p → made none p (l ++ l') = made none p l := by
    intro p hp
    rw [made_append, h.made hp, Bool.or_false]
  have hthrew : ∀ p, Purpose.elsewhere ≠ p → threw none p (l ++ l') = threw none p l := by
    intro p hp
    rw [threw_append, h.threw hp, Bool.or_false]
  rw [update.Spares, update.Spares, htried _ (by nofun), hmade _ (by nofun), htried _ (by nofun),
    hthrew _ (by nofun), hmade _ (by nofun), hmade _ (by nofun)]

theorem intact_elsewhere {α : Type} {subject : Subject} {r : Except Failure α}
    (h : Elsewhere v l' r v') :
    Intact env subject s (l ++ l') v' ↔ Intact env subject s l v := by
  have hcarries : ∀ x, Carries env v' subject x ↔ Carries env v subject x :=
    fun x => carries_congr h.staffUsers h.members
  have howner : ∀ x, v'.owner x = v.owner x := Database.owner_congr h.identifiers
  have hacquired : ∀ x, acquired none subject x (l ++ l') = acquired none subject x l := by
    intro x
    rw [acquired_append, h.issues.acquired (by nofun), Bool.or_false]
  constructor
  · intro hi
    refine ⟨fun x hx ho => ?_, fun x hx => ?_⟩
    · rw [← howner]
      exact hi.carried x ((hcarries x).mpr hx) (by rwa [hacquired])
    · rw [← hcarries]
      exact hi.owned x (by rwa [howner])
  · intro hi
    refine ⟨fun x hx ho => ?_, fun x hx => ?_⟩
    · rw [howner]
      exact hi.carried x ((hcarries x).mp hx) (by rwa [← hacquired])
    · rw [hcarries]
      exact hi.owned x (by rwa [← howner])

/-- The change, with the attempt at a transaction before it if there is one. -/
def Persisted (env : Environment) (dto : UpdateStaffUserDto) (user : StaffUser) (s : Database)
    (l : List Attempt) (r : Except Failure Unit) (v : Database) : Prop :=
  committed l = false → v.Indexed ∧ (r = .ok () ∨ faults l ≤ 1 →
    (Intact env (.staff, user.id) s l v ↔ update.Spares env dto user (kept l) s l))

theorem Persisted.of_fallsBack {r : Except Failure Unit} (hl : Within l)
    (h : FallsBack env dto user (kept l) s l' r v) : Persisted env dto user s (l ++ l') r v := by
  intro _
  refine ⟨h.1, fun hr => ?_⟩
  rw [intact_within hl, kept_append, h.2.1, Bool.or_false, update.spares_within hl]
  refine h.2.2 (hr.imp_right fun hone => ?_)
  rwa [faults_append, hl.faults, Nat.zero_add] at hone

theorem Persisted.of_aside {m : Hydrated StaffUser} {r : Except Failure Unit} (hs : s.Indexed)
    (h : Aside env dto user k s l m v) : Persisted env dto user s l r v := by
  intro hc
  obtain rfl := h.unseen hc
  refine ⟨hs, fun _ => iff_of_true (.of_same (fun _ => Iff.rfl) (fun _ => rfl) fun x => ?_) ?_⟩
  · simp [h.within.acquired]
  · rw [update.Spares, if_neg (by simp [h.within.tried])]
    exact h.within.made .reservation

theorem persistIdentifierChange_shows (hs : s.Indexed) (huser : s.staffUser user.id = some user)
    (hne : nextEmail env dto user ≠ user.email) :
    Shows none base
      ((persistIdentifierChange env dto actor user nextRoles).runFrom ⟨user, user, false⟩) s
      fun l r v => Persisted env dto user s l r.1 v := by
  rw [persistIdentifierChange, persistWithIdentifier]
  -- the fallback, after whatever the attempt at a transaction has left
  have hfallback : ∀ (l : List Attempt) (m : Hydrated StaffUser) (v : Database), Within l →
      (committed l = false → v = s) → Remembers env dto user (kept l) m →
      Shows none base ((changeWithoutTransaction env dto actor user nextRoles).runFrom m) v
        fun l' r v' => Persisted env dto user s (l ++ l') r.1 v' := by
    intro l m v hl hv hm
    by_cases hc : committed l = true
    · refine (Leads.vacuous fun s => ⟨s.committed, rfl⟩).mono fun l' r v' _ hc' => ?_
      rw [committed_append, hc] at hc'
      cases hc'
    · obtain rfl := hv (by simpa using hc)
      exact (fallback_shows hs huser hne hm).mono fun l' r v' h => .of_fallsBack hl h
  have hinit : Remembers env dto user false ⟨user, user, false⟩ := .init
  have hstart : startSession.run.Confined Inside :=
    .run_tryCatch (.run_bind (perform_confined trivial trivial) fun _ => .run_pure) fun _ => .run_pure
  refine Leads.keeping_bind (inside_alone hinit hstart) ?_ fun l e m v h => .of_aside hs h
  intro l₁ started m₁ v₁ h₁
  have hm₁ : Remembers env dto user (kept l₁) m₁ := h₁.remembers
  cases started with
  | false => exact hfallback l₁ m₁ v₁ h₁.within h₁.unseen hm₁
  | true =>
    refine Leads.keeping_bind (R := fun l r v => Aside env dto user (kept l₁) v₁ l r.2 v ∧
      (r.1 = .ok true → committed l = true)) ?_ ?_ ?_
    · refine Leads.keeping_tryCatch (R := fun l r v => Aside env dto user (kept l₁) v₁ l r.2 v ∧
        ((∃ a, r.1 = .ok a) → committed l = true)) ?_ (fun l a m v h => ⟨h.1, fun _ => h.2 ⟨a, rfl⟩⟩) ?_
      · refine Leads.keeping_bind (inside_alone hm₁ (perform_confined trivial trivial)) ?_ ?_
        · intro l₂ retries m₂ v₂ h₂
          refine Leads.keeping_bind (withTransaction_attempts (fun n k m v hm => callback_aside hm)
            retries h₂.remembers) ?_ ?_
          · intro l₃ b m₃ v₃ h₃
            refine Leads.keeping_pure ?_
            rw [List.append_nil]
            exact ⟨h₂.trans h₃.1, fun _ => by rw [committed_append, h₃.2 ⟨b, rfl⟩, Bool.or_true]⟩
          · exact fun l e m v h => ⟨h₂.trans h.1, fun ⟨a, ha⟩ => by cases ha⟩
        · exact fun l e m v h => ⟨h, fun ⟨a, ha⟩ => by cases ha⟩
      · intro l e m v h
        by_cases hu : isTransactionUnavailable e = true
        · rw [if_pos hu]
          refine Leads.keeping_pure ⟨?_, fun hr => by cases hr⟩
          rw [List.append_nil]
          exact h.1
        · rw [if_neg hu]
          refine Leads.keeping_throw ⟨?_, fun hr => by cases hr⟩
          rw [List.append_nil]
          exact h.1
    · intro l₂ completed m₂ v₂ h₂
      have hboth : Aside env dto user false s (l₁ ++ l₂) m₂ v₂ := h₁.trans h₂.1
      cases completed with
      | true =>
        refine Leads.keeping_pure fun hc => ?_
        rw [List.append_nil, committed_append, h₂.2 rfl, Bool.or_true] at hc
        cases hc
      | false =>
        refine (hfallback (l₁ ++ l₂) m₂ v₂ hboth.within hboth.unseen hboth.remembers).mono
          fun l' r v' h => ?_
        rw [← List.append_assoc]
        exact h
    · intro l₂ e m₂ v₂ h₂
      have hboth : Aside env dto user false s (l₁ ++ l₂) m₂ v₂ := h₁.trans h₂.1
      exact .of_aside hs hboth

theorem recordChanges_shows (hv : v.Indexed) (now : StaffUser) :
    Shows none base (recordChanges dto actor user nextRoles now).run v (Elsewhere v) := by
  rw [recordChanges]
  refine Elsewhere.run_if hv (fun _ => recordActivity_shows hv _) fun v' hv' => ?_
  exact Leads.run_ite (fun _ => recordActivity_shows hv' _) fun _ => Leads.run_pure (.nothing hv')

theorem findDocumentById_shows (hv : v.Indexed) {id : String} {oid : Documents.ObjectId}
    (hid : ObjectId.parse id = some oid) :
    Shows none base (findDocumentById id).run v
      (Still (fun user => v.staffUser oid.1 = some user) v) := by
  rw [findDocumentById, toMongoObjectId_some hid]
  refine find_then (fun error => ⟨rfl, rfl, fun a ha => by cases ha⟩) fun found hfound => ?_
  replace hfound : FindOne (fun d : StaffUser => decide (d.id = oid.1)) v.staffUsers found := hfound
  have hfind := hfound.eq_find? hv.staffUsers
  cases found with
  | some user => exact Leads.run_pure ⟨rfl, rfl, fun a ha => by cases ha; exact hfind⟩
  | none => exact Leads.run_throw ⟨rfl, rfl, fun a ha => by cases ha⟩

/-- The save of an update that leaves the address as it is. -/
theorem saveOther_shows (hs : s.Indexed) (huser : s.staffUser user.id = some user)
    (hsame : nextEmail env dto user = user.email) :
    Shows none base ((do
      modify (applyUpdates env dto actor user nextRoles)
      save none : Working Unit).runFrom ⟨user, user, false⟩) s
      fun l _ v => v.Indexed ∧ Intact env (.staff, user.id) s l v := by
  rw [Keeping.runFrom_modify_bind]
  have hm : Remembers env dto user false ⟨user, user, false⟩ := .init
  refine (save_shows hs huser (hm.applyUpdates actor nextRoles)).mono fun l r v h => ⟨h.indexed, ?_⟩
  refine .of_same (fun x => ?_) (Database.owner_congr h.identifiers)
    fun x => by simp [h.issues.acquired (by nofun) none]
  have hemail : (v.staffUser user.id).map (·.email) = some (if made none .save l = true
      then sent user.email (nextEmail env dto user) user.email else user.email) := h.staffUser
  rw [hsame, sent_self, ite_self] at hemail
  obtain ⟨u, hu, he⟩ := Option.map_eq_some_iff.mp hemail
  simp only [Carries, hu, huser, he, Option.some.injEq, exists_eq_left']

/-- A failed `update`, whose change no transaction has committed: where it does no harm. -/
def update.Ends {α : Type} (env : Environment) (dto : UpdateStaffUserDto) (user : StaffUser)
    (s : Database) (l : List Attempt) (r : Except Failure α) (v : Database) : Prop :=
  (∃ e, r = .error e) → faults l ≤ 1 → committed l = false →
    (Intact env (.staff, user.id) s l v ↔
      (emailChanged env dto user = true → update.Spares env dto user (kept l) s l))

/-- What follows the change has no part in it. -/
theorem update.Ends.of_rest {α : Type} {r : Except Failure α}
    (h : committed l = false → v.Indexed ∧ (Intact env (.staff, user.id) s l v ↔
      (emailChanged env dto user = true → update.Spares env dto user (kept l) s l)))
    (h' : Elsewhere v l' r v') : update.Ends env dto user s (l ++ l') r v' := by
  intro _ _ hc
  rw [committed_append, Bool.or_eq_false_iff] at hc
  rw [intact_elsewhere h', kept_append, h'.issues.kept, Bool.or_false, spares_elsewhere h'.issues]
  exact (h hc.1).2

/-- The change as `update` makes it, whether it is one of the address or not. -/
theorem change_shows (hs : s.Indexed) (huser : s.staffUser user.id = some user) :
    Shows none base (Keeping.keep ⟨user, user, false⟩
      (if emailChanged env dto user then persistIdentifierChange env dto actor user nextRoles
      else do
        modify (applyUpdates env dto actor user nextRoles)
        save none)).run s fun l r v => committed l = false → v.Indexed ∧
      ((∃ m, r = .ok m) ∨ faults l ≤ 1 → (Intact env (.staff, user.id) s l v ↔
        (emailChanged env dto user = true → update.Spares env dto user (kept l) s l))) := by
  by_cases hc : emailChanged env dto user = true
  · rw [if_pos hc]
    have hne : nextEmail env dto user ≠ user.email := by simpa [emailChanged] using hc
    refine Leads.run_keep (persistIdentifierChange_shows hs huser hne) fun l r v h hcommitted => ?_
    obtain ⟨hv, hiff⟩ := h hcommitted
    refine ⟨hv, fun hr => ?_⟩
    rw [hiff (hr.imp_left ?_)]
    · exact ⟨fun hspares _ => hspares, fun hspares => hspares hc⟩
    · rintro ⟨m, hm⟩
      obtain ⟨r | u, m'⟩ := r
      · cases hm
      · rfl
  · rw [if_neg hc]
    have hsame : nextEmail env dto user = user.email := by simpa [emailChanged] using hc
    exact Leads.run_keep (saveOther_shows hs huser hsame) fun l r v h _ =>
      ⟨h.1, fun _ => iff_of_true h.2 fun h => absurd h hc⟩

/-- `update`, once the roles are settled. -/
theorem updateFrom_shows (dto : UpdateStaffUserDto) (actor : Option AuditActor)
    (nextRoles : List StaffRole) (hs : s.Indexed) (huser : s.staffUser user.id = some user) :
    Shows none base ((do
      let saved ← Keeping.keep ⟨user, user, false⟩
        (if emailChanged env dto user then persistIdentifierChange env dto actor user nextRoles
        else do
          modify (applyUpdates env dto actor user nextRoles)
          save none)
      if securityChanged env dto user nextRoles then
        revokeSessions .staff user.id "staff-account-updated"
      recordChanges dto actor user nextRoles saved.now
      return toResponse saved.now : Handler StaffUserResponseDto)).run s
      (update.Ends env dto user s) := by
  refine Leads.run_bind (change_shows hs huser) ?_ ?_
  · intro l saved v₁ h
    by_cases hc : committed l = true
    · refine (Leads.vacuous fun s => ⟨s.committed, rfl⟩).mono fun l' r v' _ _ _ hc' => ?_
      rw [committed_append, hc] at hc'
      cases hc'
    · obtain ⟨hv₁, hiff⟩ := h (by simpa using hc)
      have hrest : Shows none base ((do
          if securityChanged env dto user nextRoles then
            revokeSessions .staff user.id "staff-account-updated"
          recordChanges dto actor user nextRoles saved.now
          return toResponse saved.now : Handler StaffUserResponseDto)).run v₁ (Elsewhere v₁) := by
        refine Elsewhere.run_if hv₁ (fun _ => revokeSessions_shows hv₁ _ _ _) fun v₂ hv₂ => ?_
        exact Elsewhere.run_bind (recordChanges_shows hv₂ _) fun _ v₃ hv₃ =>
          Leads.run_pure (.nothing hv₃)
      exact hrest.mono fun l' r v' h' =>
        update.Ends.of_rest (fun _ => ⟨hv₁, hiff (.inl ⟨saved, rfl⟩)⟩) h'
  · exact fun l e v₁ h _ hone hc => (h hc).2 (.inr hone)

theorem update_shows (hs : s.Indexed) {id : String} {oid : Documents.ObjectId}
    (hid : ObjectId.parse id = some oid) :
    Shows none base (update env dto actor id).run s fun l r v =>
      (∃ e, r = .error e) → faults l ≤ 1 → committed l = false →
        (Intact env (.staff, oid.1) s l v ↔ match s.staffUser oid.1 with
          | some user => emailChanged env dto user = true → update.Spares env dto user (kept l) s l
          | none => True) := by
  have hnothing : Intact env (.staff, oid.1) s [] s ↔ match s.staffUser oid.1 with
      | some user => emailChanged env dto user = true → update.Spares env dto user (kept []) s []
      | none => True := by
    refine iff_of_true (.refl env _ _) ?_
    cases s.staffUser oid.1 with
    | none => trivial
    | some user => exact fun _ => rfl
  rw [update]
  refine Leads.run_bind (findDocumentById_shows hs hid) ?_ ?_
  · rintro l user v ⟨rfl, rfl, hfound⟩
    have huser := hfound user rfl
    have huid : user.id = oid.1 := Database.id_of_staffUser huser
    rw [← huid] at huser hnothing ⊢
    simp only [huser, List.nil_append] at hnothing ⊢
    cases dto.roles with
    | none => exact updateFrom_shows dto actor user.roles hs huser
    | some roles =>
      refine Leads.run_bind (R := Still (fun _ => True) v) ?_ ?_ ?_
      · exact Leads.run_ite (fun _ => Leads.run_throw ⟨rfl, rfl, fun _ _ => trivial⟩)
          fun _ => Leads.run_pure ⟨rfl, rfl, fun _ _ => trivial⟩
      · rintro l nextRoles v ⟨rfl, rfl, -⟩
        exact updateFrom_shows dto actor nextRoles hs huser
      · rintro l e v ⟨rfl, rfl, -⟩ _ _ _
        exact hnothing
  · rintro l e v ⟨rfl, rfl, -⟩ _ _ _
    exact hnothing

end Update

end StaffUsersService

end Accounts
