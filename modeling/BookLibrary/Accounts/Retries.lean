import BookLibrary.Accounts.Execution
import BookLibrary.Accounts.StaffCompensation
import BookLibrary.Interleaving.Steady
import BookLibrary.SignIn.Execution

/-!
# Retried writes of staff users

`StaffUsersService.create` and `update` on their own, with any number of runs of the callback
of their transaction and with the fallback. The user in memory is not put back between the
runs: each of them edits what the last one has left.
-/

namespace Accounts

open AuthIdentifiers Documents Interleaving SignIn

/-- How many saves have been sent, in transactions or outside. -/
def saves (l : List Attempt) : ℕ :=
  l.countP fun
    | .write _ w _ _ => decide (w.purpose = .save)
    | .commit .. => false

@[simp] theorem saves_nil : saves [] = 0 := rfl

@[simp] theorem saves_append (l l' : List Attempt) : saves (l ++ l') = saves l + saves l' :=
  List.countP_append

theorem Issues.saves {session : Option ℕ} {q : Purpose} {l : List Attempt} (h : Issues session q l)
    (hq : q ≠ .save) : saves l = 0 := by
  rw [Accounts.saves, List.countP_eq_zero]
  intro a ha
  obtain ⟨w, r, t, rfl, hw⟩ := h a ha
  simp [hw, hq]

/-- What a program leads to that has the store to itself. -/
abbrev Alone {α : Type} (p : Prog Op α) (s : Store) (Q : List Attempt → α → Store → Prop) : Prop :=
  Leads exec fallible attempt (fun s₁ s₂ => s₂ = s₁) p s Q

section Alone

variable {α β : Type} {s : Store}

/-- One call, whose error is passed on. -/
theorem perform_alone {op : Op β} {Q : List Attempt → Except Failure β → Store → Prop}
    (hok : ∀ b s₁, exec β op s b s₁ → Q (attempt ⟨op, .answered b⟩).toList (.ok b) s₁)
    (herr : ∀ r s₁ error, Goes exec fallible op s (.threw r) s₁ →
      Q (attempt ⟨op, .threw r⟩).toList (.error (.thrown error)) s₁) :
    Alone (perform op).run s Q := by
  refine Leads.call ?_
  rintro _ rfl o s₁ hgoes
  refine ⟨s₁, rfl, ?_⟩
  cases o with
  | answered b => exact Leads.done (by rw [List.append_nil]; exact hok b s₁ hgoes)
  | threw r =>
    refine Leads.call ?_
    rintro _ rfl o' s₂ hgoes'
    obtain rfl := goes_draw hgoes'
    refine ⟨_, rfl, Leads.done ?_⟩
    have hnone : attempt ⟨drawn .lastError, o'⟩ = none := rfl
    rw [hnone, Option.toList_none, List.append_nil, List.append_nil]
    exact herr r _ _ hgoes

/-- Calls that neither write nor commit. -/
def Idles : (β : Type) → Op β → Prop
  | _, .inl _ => True
  | _, .inr (.inl (.write ..)) => False
  | _, .inr (.inl (.commitTransaction _)) => False
  | _, .inr _ => True

theorem goes_idle {op : Op β} {s₁ : Store} {o : Outcome β} (hop : Idles β op)
    (h : Goes exec fallible op s o s₁) : s₁.committed = s.committed ∧ attempt ⟨op, o⟩ = none := by
  rcases op with ⟨session, q⟩ | c | op
  · rcases h.applied with ⟨-, rfl⟩ | ⟨b, -, -, rfl⟩
    · exact ⟨rfl, rfl⟩
    · exact ⟨rfl, rfl⟩
  · cases c with
    | write => cases hop
    | startTransaction =>
      rcases h.applied with ⟨-, rfl⟩ | ⟨b, -, -, rfl⟩
      · exact ⟨rfl, rfl⟩
      · exact ⟨rfl, rfl⟩
    | commitTransaction => cases hop
    | abortTransaction =>
      rcases h.applied with ⟨-, rfl⟩ | ⟨b, -, rfl⟩
      · exact ⟨rfl, rfl⟩
      · exact ⟨rfl, rfl⟩
  · obtain rfl := goes_draw h
    exact ⟨rfl, rfl⟩

theorem idle_alone {p : Prog Op α} (hp : p.Confined Idles) :
    Alone p s fun l _ s' => l = [] ∧ s'.committed = s.committed := by
  have hshows : Shows none s.committed p s.committed fun l _ v' => l = [] ∧ v' = s.committed := by
    refine Leads.of_confined (fun hop s₁ hs₁ o s₂ hgoes => ?_) hp
    obtain ⟨hsame, hnone⟩ := goes_idle hop hgoes
    exact ⟨hsame.trans hs₁, hnone⟩
  refine (hshows.exact rfl).mono fun l a s' h => ?_
  obtain ⟨v', hv', rfl, rfl⟩ := h
  exact ⟨rfl, hv'⟩

end Alone

namespace StaffUsersService

section Retries

variable {I D : ℕ → Hydrated StaffUser → Database → Prop} {N : ℕ}
  {m : Hydrated StaffUser} {s : Store} {callback : ℕ → Working Unit}
  {fallback : Working Unit}

/-- What a part of the change makes of the user in memory and of the database, `N` saves having
been sent before. `I` is what the next part can start from, and `D` what a part that returns
comes to. -/
structure Carried (I : ℕ → Hydrated StaffUser → Database → Prop)
    (D : ℕ → Hydrated StaffUser → Database → Prop) (N : ℕ) (l : List Attempt)
    (r : Except Failure Unit × Hydrated StaffUser) (v : Database) : Prop where
  next : I (N + saves l) r.2 v
  done : r.1 = .ok () → D (N + saves l) r.2 v

/-- Between parts nothing is sent, and the database stays. -/
theorem Carried.then {l l' : List Attempt} {e : Failure} {m' : Hydrated StaffUser} {v v' : Database}
    {r : Except Failure Unit × Hydrated StaffUser} (_ : Carried I D N l (.error e, m') v)
    (h : Carried I D (N + saves l) l' r v') : Carried I D N (l ++ l') r v' := by
  refine ⟨?_, fun hr => ?_⟩
  · rw [saves_append, ← Nat.add_assoc]
    exact h.next
  · rw [saves_append, ← Nat.add_assoc]
    exact h.done hr

/-- A callback works within its transaction: the database it has found is there for the next run,
and what it has made of it, if it returns, is `D`. -/
def Works (I : ℕ → Hydrated StaffUser → Database → Prop)
    (D : ℕ → Hydrated StaffUser → Database → Prop) (callback : ℕ → Working Unit) : Prop :=
  ∀ n N m base, I N m base → Shows (some n) base ((callback n).runFrom m) base fun l r v =>
    I (N + saves l) r.2 base ∧ (r.1 = .ok () → I (N + saves l) r.2 v ∧ D (N + saves l) r.2 v)

/-- What is committed is what the transaction sees. -/
theorem commit_alone {n : ℕ} {base v : Database} (hs : At (some n) base v s) :
    Alone (change (.commitTransaction n)).run s fun l r s' => saves l = 0 ∧
      (s'.committed = base ∨ s'.committed = v) ∧ (r = .ok () → s'.committed = v) := by
  obtain ⟨hbase, t, ht, hsnapshot, hview⟩ := hs
  have happlied : ∀ s₁, exec Unit (Sum.inr (.inl (.commitTransaction n))) s () s₁ →
      s₁.committed = v := by
    rintro s₁ ⟨t', ht', -, -, rfl⟩
    rw [ht] at ht'
    cases ht'
    rw [← hview, ← hbase]
  refine perform_alone (fun b s₁ h => ⟨rfl, .inr (happlied s₁ h), fun _ => happlied s₁ h⟩) ?_
  intro r s₁ error hgoes
  refine ⟨rfl, ?_, fun hr => by cases hr⟩
  rcases hgoes.applied with ⟨-, rfl⟩ | ⟨b, -, hexec⟩
  · exact .inl hbase
  · exact .inr (happlied s₁ hexec)

theorem attempt_alone (hcallback : Works I D callback) (hI : I N m s.committed) :
    Alone ((withTransaction.attempt callback).runFrom m) s fun l r s' =>
      Carried I D N l r s'.committed := by
  rw [withTransaction.attempt]
  refine Leads.keeping_lift_bind (R := fun l r s₁ => l = [] ∧ s₁.committed = s.committed ∧
    ∀ n, r = .ok n → At (some n) s.committed s.committed s₁) ?_ ?_ ?_
  · refine perform_alone ?_ ?_
    · rintro n s₁ ⟨rfl, rfl⟩
      refine ⟨rfl, rfl, ?_⟩
      rintro _ ⟨⟩
      exact ⟨rfl, _, Function.update_self .., rfl, rfl⟩
    · intro r s₁ error hgoes
      cases r <;> cases hgoes.1
  · rintro l n s₁ ⟨rfl, hsame, hAt⟩
    simp only [List.nil_append]
    refine Leads.keeping_tryCatch (R := fun l r s' => Carried I D N l r s'.committed) ?_
      (fun l a m' s' h => h) ?_
    · refine Leads.keeping_bind ((hcallback n N m s.committed hI).exact (hAt n rfl)) ?_ ?_
      · rintro l u m₂ s₂ ⟨v, hv, hbase, hdone⟩
        obtain ⟨hI', hD⟩ := hdone rfl
        refine Leads.keeping_lift (commit_alone hv) fun l' r s' h => ?_
        obtain ⟨hsaves, hcommitted, hok⟩ := h
        refine ⟨?_, fun hr => ?_⟩
        · rw [saves_append, hsaves, Nat.add_zero]
          -- the driver cannot tell whether a lost commit was applied, and runs it all again
          rcases hcommitted with hlost | hmade
          · rw [hlost]
            exact hbase
          · rw [hmade]
            exact hI'
        · rw [saves_append, hsaves, Nat.add_zero, hok hr]
          exact hD
      · rintro l e m₂ s₂ ⟨v, hv, hI', -⟩
        refine ⟨?_, fun hr => by cases hr⟩
        rw [hv.1]
        exact hI'
    · intro l e m₂ s₂ h
      -- the abort takes back the writes, not the edits of the user in memory
      have habort : (change (.abortTransaction n) : Handler Unit).run.Confined Idles :=
        perform_confined trivial trivial
      refine Leads.keeping_lift_bind (idle_alone habort) ?_ ?_
      · rintro l' u s₃ ⟨rfl, hs₃⟩
        refine Leads.keeping_throw ⟨?_, fun hr => by cases hr⟩
        rw [List.append_nil, List.append_nil, hs₃]
        exact h.next
      · rintro l' e' s₃ ⟨rfl, hs₃⟩
        refine ⟨?_, fun hr => by cases hr⟩
        rw [List.append_nil, hs₃]
        exact h.next
  · rintro l e s₁ ⟨rfl, hsame, -⟩
    refine ⟨?_, fun hr => by cases hr⟩
    rw [hsame]
    exact hI

/-- Any number of runs of the callback. -/
theorem withTransaction_alone (hcallback : Works I D callback) (retries : ℕ)
    (hI : I N m s.committed) :
    Alone ((withTransaction callback retries).runFrom m) s fun l r s' =>
      Carried I D N l r s'.committed := by
  -- on the runs that are left, from the user in memory that the last one has edited
  induction retries generalizing N m s with
  | zero => exact attempt_alone hcallback hI
  | succ retries ih =>
    refine Leads.keeping_tryCatch (attempt_alone hcallback hI) (fun l a m' s' h => h) ?_
    intro l e m₁ s₁ h
    -- only an error of the transaction has the callback run again
    by_cases htransient : e.isTransient = true
    · rw [if_pos htransient]
      exact (ih h.next).mono fun l' r s' h' => h.then h'
    · rw [if_neg htransient]
      refine Leads.keeping_throw (h.then ⟨?_, fun hr => by cases hr⟩)
      exact h.next

/-- The change as a whole: by a transaction, or by the fallback where there is none. -/
theorem persistWithIdentifier_alone (hcallback : Works I D callback)
    (hfallback : ∀ N m base v, I N m v → Shows none base (fallback.runFrom m) v fun l r v' =>
      r.1 = .ok () → D (N + saves l) r.2 v')
    (hI : I 0 m s.committed) :
    Alone ((persistWithIdentifier callback fallback).runFrom m) s fun l r s' =>
      r.1 = .ok () → D (saves l) r.2 s'.committed := by
  have hrest : ∀ {N m} {s : Store}, I N m s.committed →
      Alone (fallback.runFrom m) s fun l r s' =>
        r.1 = .ok () → D (N + saves l) r.2 s'.committed := by
    intro N m s h
    refine ((hfallback N m s.committed _ h).exact rfl).mono fun l r s' h' hr => ?_
    obtain ⟨v', hv', hD⟩ := h'
    rw [show s'.committed = v' from hv']
    exact hD hr
  have hstart : startSession.run.Confined Idles :=
    .run_tryCatch (.run_bind (perform_confined trivial trivial) fun _ => .run_pure)
      fun _ => .run_pure
  rw [persistWithIdentifier]
  refine Leads.keeping_lift_bind (idle_alone hstart) ?_ fun _ _ _ _ hr => by cases hr
  rintro l started s₁ ⟨rfl, hs₁⟩
  simp only [List.nil_append]
  rw [← hs₁] at hI
  cases started with
  | false =>
    refine (hrest hI).mono fun l r s' h hr => ?_
    rw [← Nat.zero_add (saves l)]
    exact h hr
  | true =>
    refine Leads.keeping_bind (R := fun l r s' => I (saves l) r.2 s'.committed ∧
      (r.1 = .ok true → D (saves l) r.2 s'.committed)) ?_ ?_ fun _ _ _ _ _ hr => by cases hr
    · refine Leads.keeping_tryCatch (R := fun l r s' => I (saves l) r.2 s'.committed ∧
        (r.1 = .ok true → D (saves l) r.2 s'.committed)) ?_ (fun l a m' s' h => h) ?_
      · have hdraw : (draw .retries).run.Confined Idles := perform_confined trivial trivial
        refine Leads.keeping_lift_bind (idle_alone hdraw) ?_ ?_
        · rintro l retries s₂ ⟨rfl, hs₂⟩
          simp only [List.nil_append]
          rw [← hs₂] at hI
          refine Leads.keeping_bind (withTransaction_alone hcallback retries hI) ?_ ?_
          · intro l u m₃ s₃ h
            refine Leads.keeping_pure ?_
            rw [List.append_nil, ← Nat.zero_add (saves l)]
            exact ⟨h.next, fun _ => h.done rfl⟩
          · intro l e m₃ s₃ h
            rw [← Nat.zero_add (saves l)]
            exact ⟨h.next, fun hr => by cases hr⟩
        · rintro l e s₂ ⟨rfl, hs₂⟩
          rw [← hs₂] at hI
          exact ⟨hI, fun hr => by cases hr⟩
      · rintro l e m₂ s₂ ⟨hI₂, -⟩
        by_cases hunavailable : isTransactionUnavailable e = true
        · rw [if_pos hunavailable]
          refine Leads.keeping_pure ?_
          rw [List.append_nil]
          exact ⟨hI₂, fun hr => by cases hr⟩
        · rw [if_neg hunavailable]
          refine Leads.keeping_throw ?_
          rw [List.append_nil]
          exact ⟨hI₂, fun hr => by cases hr⟩
    · rintro l completed m₂ s₂ ⟨hI₂, hdone⟩
      cases completed with
      | true =>
        refine Leads.keeping_pure fun _ => ?_
        rw [List.append_nil]
        exact hdone rfl
      | false =>
        refine (hrest hI₂).mono fun l' r s' h hr => ?_
        rw [saves_append]
        exact h hr

end Retries

section Save

variable {session : Option ℕ} {base v : Database} {m : Hydrated StaffUser} {d : StaffUser}

/-- The write that `save` sends. -/
def saveOf (m : Hydrated StaffUser) : Write :=
  if m.isNew then .insertStaffUser m.now else .saveStaffUser m.loaded m.now

/-- `save` sends one write. Where it returns the user in memory passes for saved; where it throws
the user is as before. -/
structure Sends (m : Hydrated StaffUser) (v : Database) (l : List Attempt)
    (r : Except Failure Unit × Hydrated StaffUser) (v' : Database) : Prop where
  sent : m.isNew = false → saves l = 1
  returned : r.1 = .ok () → (∃ docs, schema.write (saveOf m) v = .written docs) ∧
    v' = v.wrote (saveOf m) ∧ r.2 = ⟨m.now, m.now, false⟩
  thrown : ∀ e, r.1 = .error e → r.2 = m

theorem saves_saveOf (hm : m.isNew = false) {r : Option (Sessions.WriteResult Document)}
    {t : Bool} :
    saves [.write session (saveOf m) r t] = 1 := by
  rw [saveOf, if_neg (by simp [hm])]
  rfl

theorem save_sends : Shows session base ((save session).runFrom m) v (Sends m v) := by
  rw [save, Keeping.runFrom_get_bind]
  refine Leads.keeping_lift_bind (R := Writes session (saveOf m) v) (write_shows _) ?_ ?_
  · rintro l b v' ⟨rfl, rfl, rfl⟩
    cases hw : schema.write (saveOf m) v with
    | written docs =>
      refine Leads.done ⟨fun hm => ?_, fun _ => ⟨⟨docs, hw⟩, rfl, rfl⟩, fun e he => by cases he⟩
      rw [List.append_nil, saves_saveOf hm]
    | unmatched =>
      refine Leads.keeping_throw ⟨fun hm => ?_, (fun hr => by cases hr), fun _ _ => rfl⟩
      rw [List.append_nil, saves_saveOf hm]
    | duplicateKey =>
      refine Leads.keeping_lift (R := fun l r v' => l = [] ∧ ∃ e, r = .error e) ?_ ?_
      · exact draw_then (fun h => h.elim) fun error => Leads.run_throw ⟨rfl, _, rfl⟩
      · rintro l r v' ⟨rfl, e, rfl⟩
        refine ⟨fun hm => ?_, (fun hr => by cases hr), fun _ _ => rfl⟩
        rw [List.append_nil, saves_saveOf hm]
  · intro l e v' h
    refine ⟨fun hm => ?_, (fun hr => by cases hr), fun _ _ => rfl⟩
    cases h with
    | applied error => exact saves_saveOf hm
    | lost error => exact saves_saveOf hm

/-- The error is thrown again, whatever becomes of the release. -/
theorem rethrow_shows {x : Handler Unit} {e : Failure} :
    Shows none base ((do x; throw e : Working Unit).runFrom m) v fun _ r _ => r.1 ≠ .ok () :=
  Leads.keeping_bind (Leads.vacuous fun s => ⟨s.committed, rfl⟩)
    (fun _ _ _ _ _ => Leads.keeping_throw fun hr => by cases hr) fun _ _ _ _ _ hr => by cases hr

/-- A save of a user who is stored as `d` changes the fields that the user in memory has changed. -/
theorem stored_of_save (hv : v.Indexed) {loaded now : StaffUser}
    (hd : v.staffUser loaded.id = some d)
    (hw : ∃ docs, schema.write (.saveStaffUser loaded now) v = .written docs) :
    (v.wrote (.saveStaffUser loaded now)).Indexed ∧
      (v.wrote (.saveStaffUser loaded now)).identifiers = v.identifiers ∧
      (v.wrote (.saveStaffUser loaded now)).staffUser d.id =
        some (StaffUser.saved loaded now d) := by
  obtain ⟨docs, hw⟩ := hw
  rcases write_saveStaffUser hv hd now with hdup | hwritten
  · rw [hw] at hdup
    cases hdup
  · refine ⟨Database.wrote_indexed hv _, ?_, ?_⟩
    · rw [Database.wrote_written hwritten]
      rfl
    · rw [Database.wrote_written hwritten]
      exact (Database.staffUser_put _ _).trans (if_pos rfl)

/-- A user who is not stored is not saved. -/
theorem not_saved (hv : v.Indexed) {loaded now : StaffUser} (hd : v.staffUser loaded.id = none) :
    ¬ ∃ docs, schema.write (.saveStaffUser loaded now) v = .written docs := by
  rintro ⟨docs, hw⟩
  rw [Database.staffUser] at hd
  rcases Database.write_update (s := v) (w := .saveStaffUser loaded now) hv rfl with
    ⟨hnone, -⟩ | ⟨x, hx, -⟩ | ⟨x, hx, -⟩
  · rw [hw] at hnone
    cases hnone
  · rw [hd] at hx
    cases hx
  · rw [hd] at hx
    cases hx

/-- A new user is stored as a whole. -/
theorem stored_of_insert (hv : v.Indexed)
    (hw : ∃ docs, schema.write (.insertStaffUser d) v = .written docs) :
    v.staffUser d.id = none ∧ (v.wrote (.insertStaffUser d)).Indexed ∧
      (v.wrote (.insertStaffUser d)).identifiers = v.identifiers ∧
      (v.wrote (.insertStaffUser d)).staffUser d.id = some d := by
  obtain ⟨docs, hw⟩ := hw
  rcases Database.write_insert (s := v) (w := .insertStaffUser d) hv rfl with
    hdup | ⟨hnone, hwritten, -⟩
  · rw [hw] at hdup
    cases hdup
  · refine ⟨Option.map_eq_none_iff.mp hnone, Database.wrote_indexed hv _, ?_, ?_⟩
    · rw [Database.wrote_written hwritten]
      rfl
    · rw [Database.wrote_written hwritten]
      exact (Database.staffUser_put _ _).trans (if_pos rfl)

end Save

section Update

variable {env : Environment} {dto : UpdateStaffUserDto} {actor : Option AuditActor}
  {user : StaffUser} {nextRoles : List StaffRole} {session : Option ℕ} {base v : Database}
  {m : Hydrated StaffUser} {N : ℕ}

/-- The user in memory once `N` saves of a new address have been sent: each of them has raised
the version. -/
structure Remade (user : StaffUser) (N : ℕ) (m : Hydrated StaffUser) : Prop where
  isNew : m.isNew = false
  loadedId : m.loaded.id = user.id
  id : m.now.id = user.id
  version : m.now.authVersion.getD 0 = user.authVersion.getD 0 + N
  loadedVersion : m.loaded.authVersion.getD 0 ≤ user.authVersion.getD 0 + N
  untouched : N = 0 → m = ⟨user, user, false⟩

/-- What another run of the change can start from. -/
structure Resumable (user : StaffUser) (N : ℕ) (m : Hydrated StaffUser) (v : Database) : Prop where
  remade : Remade user N m
  indexed : v.Indexed
  stored : ∃ d, v.staffUser user.id = some d ∧ (N = 0 → d = user)

/-- What a change of the address that returns comes to. -/
structure Moved (env : Environment) (dto : UpdateStaffUserDto) (user : StaffUser)
    (nextRoles : List StaffRole) (N : ℕ) (v : Database) : Prop where
  indexed : v.Indexed
  stored : ∃ d, v.staffUser user.id = some d ∧
    d.authVersion = some (user.authVersion.getD 0 + N) ∧
    (N = 1 → d.email = nextEmail env dto user ∧ d.roles = nextRoles ∧
      d.status = dto.status.getD user.status)
  owner : v.owner (nextEmail env dto user) = some (.staff, user.id)

theorem Remade.init : Remade user 0 ⟨user, user, false⟩ :=
  ⟨rfl, rfl, rfl, rfl, le_rfl, fun _ => rfl⟩

theorem applyUpdates_authVersion (hchanged : emailChanged env dto user = true)
    (m : Hydrated StaffUser) :
    (applyUpdates env dto actor user nextRoles m).now.authVersion =
      incremented m.now.authVersion := by
  rw [applyUpdates, securityChanged, hchanged, Bool.or_true]
  rfl

theorem Remade.applyUpdates (h : Remade user N m) (hchanged : emailChanged env dto user = true) :
    Remade user (N + 1) (applyUpdates env dto actor user nextRoles m) where
  isNew := h.isNew
  loadedId := h.loadedId
  id := h.id
  version := by
    rw [applyUpdates_authVersion hchanged, incremented, Option.getD_some, h.version, Nat.add_assoc]
  loadedVersion := h.loadedVersion.trans (Nat.le_succ _)
  untouched hzero := by cases hzero

theorem Remade.kept (h : Remade user N m) (hN : N ≠ 0) : Remade user N ⟨m.now, m.now, false⟩ where
  isNew := rfl
  loadedId := h.id
  id := h.id
  version := h.version
  loadedVersion := h.version.le
  untouched hzero := absurd hzero hN

/-- The save of an edited user, with the address reserved already. -/
theorem moved_of_save (hm : Remade user N m) (hchanged : emailChanged env dto user = true)
    (hv : v.Indexed) (hstored : ∃ d, v.staffUser user.id = some d ∧ (N = 0 → d = user))
    (howner : v.owner (nextEmail env dto user) = some (.staff, user.id))
    (hw : ∃ docs, schema.write (saveOf (applyUpdates env dto actor user nextRoles m)) v =
      .written docs) :
    Moved env dto user nextRoles (N + 1)
      (v.wrote (saveOf (applyUpdates env dto actor user nextRoles m))) := by
  obtain ⟨d, hd, hfirst⟩ := hstored
  have hid : d.id = user.id := Database.id_of_staffUser hd
  have hedited : Remade user (N + 1) (applyUpdates env dto actor user nextRoles m) :=
    hm.applyUpdates hchanged
  have hsave : saveOf (applyUpdates env dto actor user nextRoles m) =
      .saveStaffUser m.loaded (applyUpdates env dto actor user nextRoles m).now :=
    if_neg (by simp [hedited.isNew])
  rw [hsave] at hw ⊢
  obtain ⟨hindexed, hidentifiers, hsaved⟩ := stored_of_save hv (hm.loadedId ▸ hd) hw
  refine ⟨hindexed, ⟨_, hid ▸ hsaved, ?_, fun hN => ?_⟩, ?_⟩
  · have hversion := hedited.version
    rw [applyUpdates_authVersion hchanged, incremented, Option.getD_some] at hversion
    -- the version is higher than the one that passes for saved, so it is sent
    have hne : incremented m.now.authVersion ≠ m.loaded.authVersion := by
      intro heq
      have hloaded := hm.loadedVersion
      rw [← heq, incremented, Option.getD_some, hversion] at hloaded
      omega
    show sent m.loaded.authVersion (applyUpdates env dto actor user nextRoles m).now.authVersion
      d.authVersion = _
    rw [applyUpdates_authVersion hchanged, sent, if_neg hne, incremented, hversion]
  · obtain rfl : N = 0 := by omega
    obtain rfl := hfirst rfl
    rw [hm.untouched rfl]
    exact ⟨sent_loaded _ _, sent_loaded _ _, sent_loaded _ _⟩
  · rw [Database.owner_congr hidentifiers]
    exact howner

/-- The user is edited and saved, and the previous address released. -/
theorem edit_shows (hm : Remade user N m) (hchanged : emailChanged env dto user = true)
    (hv : v.Indexed) (hstored : ∃ d, v.staffUser user.id = some d ∧ (N = 0 → d = user))
    (howner : v.owner (nextEmail env dto user) = some (.staff, user.id)) :
    Shows session base ((do
      modify (applyUpdates env dto actor user nextRoles)
      save session
      releaseIdentifier user.email user.id (actor.map (·.id)) session : Working Unit).runFrom m) v
      fun l r v' => saves l = 1 ∧ Remade user (N + 1) r.2 ∧
        (r.1 = .ok () → Moved env dto user nextRoles (N + 1) v') := by
  have hne : nextEmail env dto user ≠ user.email := by simpa [emailChanged] using hchanged
  have hedited : Remade user (N + 1) (applyUpdates env dto actor user nextRoles m) :=
    hm.applyUpdates hchanged
  rw [Keeping.runFrom_modify_bind]
  refine Leads.keeping_bind save_sends ?_ ?_
  · rintro l u m' v' ⟨hsent, hreturned, -⟩
    obtain ⟨hw, rfl, hm'⟩ := hreturned rfl
    obtain rfl : m' = _ := hm'
    have hmoved := moved_of_save hm hchanged hv hstored howner hw
    refine Leads.keeping_lift (release_shows user.email (.staff, user.id) hmoved.indexed _)
      fun l' r v'' h => ⟨?_, hedited.kept (Nat.succ_ne_zero N), fun _ => ?_⟩
    · rw [saves_append, hsent hedited.isNew, h.issues.saves (fun h => by cases h)]
    · refine ⟨h.indexed, ?_, ?_⟩
      · rw [Database.staffUser, h.staffUsers]
        exact hmoved.stored
      · rw [h.owner, if_neg fun hprevious => hne hprevious.1]
        exact hmoved.owner
  · rintro l e m' v' ⟨hsent, -, hthrown⟩
    obtain rfl : m' = _ := hthrown e rfl
    exact ⟨hsent hedited.isNew, hedited, fun hr => by cases hr⟩

theorem Resumable.later (h : Resumable user N m v) {m' : Hydrated StaffUser}
    (hm' : Remade user (N + 1) m') : Resumable user (N + 1) m' v where
  remade := hm'
  indexed := h.indexed
  stored := by
    obtain ⟨d, hd, -⟩ := h.stored
    exact ⟨d, hd, fun hN => by cases hN⟩

theorem Moved.again (h : Moved env dto user nextRoles (N + 1) v) (hm : Remade user (N + 1) m) :
    Resumable user (N + 1) m v where
  remade := hm
  indexed := h.indexed
  stored := by
    obtain ⟨d, hd, -⟩ := h.stored
    exact ⟨d, hd, fun hN => by cases hN⟩

/-- What `reserve` leaves of accounts and of reservations is what the edit needs. -/
theorem Resumable.reserved {v' : Database} {l : List Attempt} (h : Resumable user N m v)
    (hreserves : Reserves session (nextEmail env dto user) (.staff, user.id) v l (.ok ()) v') :
    (∃ d, v'.staffUser user.id = some d ∧ (N = 0 → d = user)) ∧
      v'.owner (nextEmail env dto user) = some (.staff, user.id) := by
  refine ⟨?_, hreserves.secured rfl⟩
  rw [Database.staffUser, hreserves.staffUsers]
  exact h.stored

theorem changeWithIdentifier_works (hchanged : emailChanged env dto user = true) :
    Works (Resumable user) (fun N _ v => Moved env dto user nextRoles N v)
      (changeWithIdentifier env dto actor user nextRoles) := by
  intro n N m base hI
  rw [changeWithIdentifier]
  refine Leads.keeping_lift_bind (reserve_shows (.staff, user.id) hI.indexed _ _ _) ?_ ?_
  · intro l u v h
    obtain ⟨hstored, howner⟩ := hI.reserved h
    refine (edit_shows hI.remade hchanged h.indexed hstored howner).mono fun l' r v' h' => ?_
    obtain ⟨hsaves, hremade, hmoved⟩ := h'
    have htotal : N + saves (l ++ l') = N + 1 := by
      rw [saves_append, h.issues.saves (fun h => by cases h), hsaves]
    rw [htotal]
    exact ⟨hI.later hremade, fun hr => ⟨(hmoved hr).again hremade, hmoved hr⟩⟩
  · intro l e v h
    refine ⟨?_, fun hr => by cases hr⟩
    rw [h.issues.saves (fun h => by cases h)]
    exact hI

theorem changeWithoutTransaction_shows (hchanged : emailChanged env dto user = true)
    (hI : Resumable user N m v) :
    Shows none base ((changeWithoutTransaction env dto actor user nextRoles).runFrom m) v
      fun l r v' => r.1 = .ok () → Moved env dto user nextRoles (N + saves l) v' := by
  rw [changeWithoutTransaction]
  refine Leads.keeping_lift_bind (reserve_shows (.staff, user.id) hI.indexed _ _ _) ?_
    fun _ _ _ _ hr => by cases hr
  intro l u v' h
  obtain ⟨hstored, howner⟩ := hI.reserved h
  refine Leads.keeping_tryCatch (edit_shows hI.remade hchanged h.indexed hstored howner) ?_ ?_
  · rintro l' a m' v'' ⟨hsaves, -, hmoved⟩ hr
    rw [saves_append, h.issues.saves (fun h => by cases h), hsaves]
    exact hmoved hr
  · rintro l' e m' v'' -
    exact rethrow_shows.mono fun l'' r v₃ h hr => absurd hr h

end Update

section Create

variable {email : String} {actorId : Option String} {document : StaffUser} {session : Option ℕ}
  {base v : Database} {m : Hydrated StaffUser} {N : ℕ}

/-- What another run of the creation can start from: the document is as it was made, and passes
for saved only where nobody else is stored under its id. -/
structure Creatable (document : StaffUser) (m : Hydrated StaffUser) (v : Database) : Prop where
  loaded : m.loaded = document
  now : m.now = document
  indexed : v.Indexed
  stored : m.isNew = true ∨ v.staffUser document.id = none ∨ v.staffUser document.id = some document

/-- What a creation that returns comes to. -/
structure Created (email : String) (document : StaffUser) (m : Hydrated StaffUser) (v : Database) :
    Prop where
  now : m.now = document
  indexed : v.Indexed
  stored : v.staffUser document.id = some document
  owner : v.owner email = some (.staff, document.id)

theorem Creatable.save (h : Creatable document m base) (hv : v.Indexed)
    (hstaff : v.staffUsers = base.staffUsers) (howner : v.owner email = some (.staff, document.id))
    (hw : ∃ docs, schema.write (saveOf m) v = .written docs) :
    Creatable document ⟨m.now, m.now, false⟩ base ∧
      Created email document ⟨m.now, m.now, false⟩ (v.wrote (saveOf m)) := by
  have hsame : ∀ id, v.staffUser id = base.staffUser id := by
    intro id
    rw [Database.staffUser, Database.staffUser, hstaff]
  have hnow := h.now
  cases hnew : m.isNew with
  | true =>
    have hsave : saveOf m = .insertStaffUser document := by rw [saveOf, if_pos hnew, hnow]
    rw [hsave] at hw ⊢
    obtain ⟨hnone, hindexed, hidentifiers, hstored⟩ := stored_of_insert hv hw
    rw [hsame] at hnone
    refine ⟨⟨hnow, hnow, h.indexed, .inr (.inl hnone)⟩, hnow, hindexed, hstored, ?_⟩
    rw [Database.owner_congr hidentifiers]
    exact howner
  | false =>
    -- a run that was taken back has inserted it: the save asks for a document that may be gone
    have hsave : saveOf m = .saveStaffUser document document := by
      rw [saveOf, if_neg (by simp [hnew]), h.loaded, hnow]
    rw [hsave] at hw ⊢
    rcases h.stored with htrue | hnone | hsome
    · cases hnew.symm.trans htrue
    · exact absurd hw (not_saved hv ((hsame document.id).trans hnone))
    · obtain ⟨hindexed, hidentifiers, hstored⟩ :=
        stored_of_save hv ((hsame document.id).trans hsome) hw
      refine ⟨⟨hnow, hnow, h.indexed, .inr (.inr hsome)⟩, hnow, hindexed, ?_, ?_⟩
      · rw [hstored]
        simp only [StaffUser.saved, sent_self]
      · rw [Database.owner_congr hidentifiers]
        exact howner

theorem createWithIdentifier_works :
    Works (fun _ => Creatable document) (fun _ => Created email document)
      (createWithIdentifier email document.id actorId) := by
  intro n N m base hI
  rw [createWithIdentifier]
  refine Leads.keeping_lift_bind (reserve_shows (.staff, document.id) hI.indexed _ _ _) ?_
    fun l e v h => ⟨hI, fun hr => by cases hr⟩
  intro l u v h
  refine save_sends.mono fun l' r v' h' => ?_
  obtain ⟨e | a, m'⟩ := r
  · obtain rfl : m' = m := h'.thrown e rfl
    exact ⟨hI, fun hr => by cases hr⟩
  · obtain ⟨hw, rfl, hm'⟩ := h'.returned rfl
    obtain rfl : m' = _ := hm'
    obtain ⟨hkept, hcreated⟩ := hI.save h.indexed h.staffUsers (h.secured rfl) hw
    refine ⟨hkept, fun _ => ⟨⟨hkept.loaded, hkept.now, hcreated.indexed, ?_⟩, hcreated⟩⟩
    exact .inr (.inr hcreated.stored)

theorem createWithoutTransaction_shows (hI : Creatable document m v) :
    Shows none base ((createWithoutTransaction email document.id actorId).runFrom m) v
      fun _ r v' => r.1 = .ok () → Created email document r.2 v' := by
  rw [createWithoutTransaction]
  refine Leads.keeping_lift_bind (reserve_shows (.staff, document.id) hI.indexed _ _ _) ?_
    fun _ _ _ _ hr => by cases hr
  intro l u v' h
  refine Leads.keeping_tryCatch save_sends ?_ ?_
  · intro l' a m' v'' h'
    obtain ⟨hw, rfl, hm'⟩ := h'.returned rfl
    obtain rfl : m' = _ := hm'
    exact fun _ => (hI.save h.indexed h.staffUsers (h.secured rfl) hw).2
  · rintro l' e m' v'' -
    exact rethrow_shows.mono fun l'' r v₃ h hr => absurd hr h

/-- The creation asks for this account. -/
structure create.Applied (env : Environment) (dto : CreateStaffUserDto)
    (response : StaffUserResponseDto) (v : Database) : Prop where
  stored : ∃ d, v.staffUser response.id = some d ∧ d.email = normalizeEmail env dto.email ∧
    d.roles = dto.roles.eraseDups ∧ d.status = .active
  owned : v.owner (normalizeEmail env dto.email) = some (.staff, response.id)

theorem create_alone {env : Environment} {s : Store} (hs : s.committed.Indexed)
    (dto : CreateStaffUserDto) (actor : Option AuditActor) :
    Alone (create env dto actor).run s fun _ r s' =>
      ∀ response, r = .ok response → create.Applied env dto response s'.committed := by
  -- nothing but the change of the store itself writes
  have idle : ∀ {β : Type} {x : Handler β} {f : β → Handler StaffUserResponseDto} {s : Store},
      x.run.Confined Idles →
      (∀ b s₁, s₁.committed = s.committed → Alone (f b).run s₁ fun _ r s' =>
        ∀ response, r = .ok response → create.Applied env dto response s'.committed) →
      Alone (x >>= f).run s fun _ r s' =>
        ∀ response, r = .ok response → create.Applied env dto response s'.committed := by
    intro β x f s hx hf
    exact Leads.run_bind (idle_alone hx) (fun l b s₁ h => hf b s₁ h.2)
      fun _ _ _ _ _ hr => by cases hr
  have hdraw : ∀ {β : Type} (op : Draw β), (draw op).run.Confined Idles :=
    fun op => perform_confined trivial trivial
  refine Leads.run_bind (R := fun _ r s' => s' = s ∧ ∀ roles, r = .ok roles →
    roles = dto.roles.eraseDups) ?_ ?_ fun _ _ _ _ _ hr => by cases hr
  · refine Leads.run_ite (fun _ => Leads.run_throw ⟨rfl, fun _ hr => by cases hr⟩) fun _ =>
      Leads.run_pure ⟨rfl, ?_⟩
    rintro roles ⟨⟩
    rfl
  rintro l roles s₁ ⟨rfl, hroles⟩
  obtain rfl := hroles roles rfl
  refine idle (perform_confined trivial trivial) fun taken s₁ hs₁ => ?_
  refine Leads.run_ite (fun _ => Leads.run_throw fun _ hr => by cases hr) fun _ => ?_
  refine idle (hdraw _) fun passwordHash s₂ hs₂ => idle (hdraw _) fun subjectId s₃ hs₃ => ?_
  refine idle (hdraw _) fun passwordUpdatedAt s₄ hs₄ => ?_
  have hindexed : s₄.committed.Indexed := by rwa [hs₄, hs₃, hs₂, hs₁]
  let document : StaffUser :=
    { id := subjectId.1
      email := normalizeEmail env dto.email
      displayName := dto.displayName
      passwordHash := passwordHash
      roles := dto.roles.eraseDups
      status := .active
      authVersion := some 0
      passwordUpdatedAt := some passwordUpdatedAt
      createdBy := actor.map (·.id)
      updatedBy := actor.map (·.id) }
  have hI : Creatable document ⟨document, document, true⟩ s₄.committed :=
    ⟨rfl, rfl, hindexed, .inl rfl⟩
  have hpersist : Alone (Keeping.keep ⟨document, document, true⟩
      (persistCreateWithIdentifier document.email document.id (actor.map (·.id)))).run s₄
      fun _ r s' => ∀ created, r = .ok created →
        Created document.email document created s'.committed := by
    refine Leads.run_keep (persistWithIdentifier_alone (I := fun _ => Creatable document)
      (D := fun _ => Created document.email document) createWithIdentifier_works
      (fun N m base v h => createWithoutTransaction_shows h) hI) fun l r s' h created hr => ?_
    obtain ⟨e | u, m⟩ := r
    · cases hr
    · cases hr
      exact h rfl
  refine Leads.run_bind hpersist (fun l created s₅ h => ?_) fun _ _ _ _ _ hr => by cases hr
  have hcreated := h created rfl
  refine Leads.run_pure ?_
  rintro response ⟨⟩
  refine ⟨⟨document, ?_, rfl, rfl, rfl⟩, ?_⟩
  · rw [toResponse, hcreated.now]
    exact hcreated.stored
  · rw [toResponse, hcreated.now]
    exact hcreated.owner

end Create

section Main

variable {env : Environment} {dto : UpdateStaffUserDto} {actor : Option AuditActor}
  {user : StaffUser} {nextRoles : List StaffRole} {s : Store}

/-- The update asks for this account: the version is raised by one where the update outdates
the tokens, and the address is the user's where the update takes one or the user had it. -/
structure update.Applied (env : Environment) (dto : UpdateStaffUserDto) (user : StaffUser)
    (nextRoles : List StaffRole) (s v : Database) : Prop where
  stored : ∃ d, v.staffUser user.id = some d ∧ d.email = nextEmail env dto user ∧
    d.roles = nextRoles ∧ d.status = dto.status.getD user.status ∧
    d.authVersion = if securityChanged env dto user nextRoles then incremented user.authVersion
      else user.authVersion
  owned : emailChanged env dto user = true ∨ s.owner user.email = some (.staff, user.id) →
    v.owner (nextEmail env dto user) = some (.staff, user.id)

theorem Moved.applied_iff {N : ℕ} {v v₀ : Database} (h : Moved env dto user nextRoles N v)
    (hchanged : emailChanged env dto user = true) :
    update.Applied env dto user nextRoles v₀ v ↔ N = 1 := by
  obtain ⟨d, hd, hversion, hfields⟩ := h.stored
  have hsecurity : securityChanged env dto user nextRoles = true := by
    rw [securityChanged, hchanged, Bool.or_true]
  constructor
  · -- every save beyond the first has raised the version once more
    rintro ⟨⟨d', hd', -, -, -, hversion'⟩, -⟩
    rw [hd] at hd'
    cases hd'
    rw [hversion, if_pos hsecurity, incremented, Option.some_inj] at hversion'
    omega
  · rintro rfl
    obtain ⟨hemail, hroles, hstatus⟩ := hfields rfl
    refine ⟨⟨d, hd, hemail, hroles, hstatus, ?_⟩, fun _ => h.owner⟩
    rw [hversion, if_pos hsecurity, incremented]

/-- The change as `update` makes it: it is as asked for if it is saved once. -/
theorem change_alone (hs : s.committed.Indexed)
    (huser : s.committed.staffUser user.id = some user) :
    Alone (Keeping.keep ⟨user, user, false⟩
      (if emailChanged env dto user then persistIdentifierChange env dto actor user nextRoles
      else do
        modify (applyUpdates env dto actor user nextRoles)
        save none)).run s fun l r s' => ∀ saved, r = .ok saved → s'.committed.Indexed ∧
          (update.Applied env dto user nextRoles s.committed s'.committed ↔ saves l = 1) := by
  by_cases hchanged : emailChanged env dto user = true
  · rw [if_pos hchanged]
    have hI : Resumable user 0 ⟨user, user, false⟩ s.committed :=
      ⟨.init, hs, user, huser, fun _ => rfl⟩
    refine Leads.run_keep (persistWithIdentifier_alone (changeWithIdentifier_works hchanged)
      (fun N m base v h => changeWithoutTransaction_shows hchanged h) hI)
      fun l r s' h saved hr => ?_
    obtain ⟨e | u, m⟩ := r
    · cases hr
    · exact ⟨(h rfl).indexed, (h rfl).applied_iff hchanged⟩
  · -- no transaction is opened, so the user in memory is as it was loaded
    rw [if_neg hchanged]
    have hsame : nextEmail env dto user = user.email := by simpa [emailChanged] using hchanged
    have hsaves : Shows none s.committed ((do
        modify (applyUpdates env dto actor user nextRoles)
        save none : Working Unit).runFrom ⟨user, user, false⟩) s.committed fun l r v =>
          r.1 = .ok () → v.Indexed ∧
            (update.Applied env dto user nextRoles s.committed v ↔ saves l = 1) := by
      rw [Keeping.runFrom_modify_bind]
      refine save_sends.mono fun l r v h hr => ?_
      obtain ⟨hw, rfl, -⟩ := h.returned hr
      obtain ⟨hindexed, hidentifiers, hstored⟩ := stored_of_save hs huser hw
      refine ⟨hindexed, iff_of_true ⟨⟨_, hstored, ?_⟩, fun howner => ?_⟩ (h.sent rfl)⟩
      · exact ⟨sent_loaded _ _, sent_loaded _ _, sent_loaded _ _, sent_loaded _ _⟩
      · rw [hsame]
        exact (Database.owner_congr hidentifiers _).trans (howner.resolve_left hchanged)
    refine Leads.run_keep (hsaves.exact rfl) fun l r s' h saved hr => ?_
    obtain ⟨v, hv, hiff⟩ := h
    obtain rfl : s'.committed = v := hv
    obtain ⟨e | u, m⟩ := r
    · cases hr
    · exact hiff rfl

/-- The roles that an update asks for. -/
def requestedRoles (dto : UpdateStaffUserDto) (user : StaffUser) : List StaffRole :=
  (dto.roles.map List.eraseDups).getD user.roles

/-- An update that returns has found the user, and its change is as asked for if it is saved
once. -/
def update.Settles (env : Environment) (dto : UpdateStaffUserDto) (id : String) (s : Database)
    (l : List Attempt) (s' : Database) : Prop :=
  ∃ oid, ObjectId.parse id = some oid ∧ ∃ user, s.staffUser oid.1 = some user ∧
    (update.Applied env dto user (requestedRoles dto user) s s' ↔ saves l = 1)

/-- What the revocation and the security events write does not concern the account. -/
theorem update.Applied.elsewhere {α : Type} {s₀ v v' : Database} {l : List Attempt}
    {r : Except Failure α} (h : Elsewhere v l r v') :
    update.Applied env dto user nextRoles s₀ v' ↔ update.Applied env dto user nextRoles s₀ v := by
  have hstaff : v'.staffUser user.id = v.staffUser user.id := by
    rw [Database.staffUser, Database.staffUser, h.staffUsers]
  have howner := Database.owner_congr h.identifiers (nextEmail env dto user)
  constructor
  · rintro ⟨hstored, howned⟩
    rw [hstaff] at hstored
    rw [howner] at howned
    exact ⟨hstored, howned⟩
  · rintro ⟨hstored, howned⟩
    rw [← hstaff] at hstored
    rw [← howner] at howned
    exact ⟨hstored, howned⟩

theorem updateFrom_alone (hs : s.committed.Indexed)
    (huser : s.committed.staffUser user.id = some user) :
    Alone (do
      let saved ← Keeping.keep ⟨user, user, false⟩
        (if emailChanged env dto user then persistIdentifierChange env dto actor user nextRoles
        else do
          modify (applyUpdates env dto actor user nextRoles)
          save none)
      if securityChanged env dto user nextRoles then
        revokeSessions .staff user.id "staff-account-updated"
      recordChanges dto actor user nextRoles saved.now
      return toResponse saved.now : Handler StaffUserResponseDto).run s fun l r s' =>
        ∀ response, r = .ok response →
          (update.Applied env dto user nextRoles s.committed s'.committed ↔ saves l = 1) := by
  refine Leads.run_bind (change_alone hs huser) ?_ fun _ _ _ _ _ hr => by cases hr
  intro l saved s₁ h
  obtain ⟨hindexed, hiff⟩ := h saved rfl
  have hrest : Shows none s₁.committed ((do
      if securityChanged env dto user nextRoles then
        revokeSessions .staff user.id "staff-account-updated"
      recordChanges dto actor user nextRoles saved.now
      return toResponse saved.now : Handler StaffUserResponseDto)).run s₁.committed
      (Elsewhere s₁.committed) := by
    refine Elsewhere.run_if hindexed (fun _ => revokeSessions_shows hindexed _ _ _) fun v₂ hv₂ => ?_
    exact Elsewhere.run_bind (recordChanges_shows hv₂ _) fun _ v₃ hv₃ =>
      Leads.run_pure (.nothing hv₃)
  refine (hrest.exact rfl).mono fun l' r s' h' response _ => ?_
  obtain ⟨v, hv, helsewhere⟩ := h'
  obtain rfl : s'.committed = v := hv
  rw [update.Applied.elsewhere helsewhere, saves_append, helsewhere.issues.saves (fun h => by cases h)]
  exact hiff

theorem update_alone (hs : s.committed.Indexed) (id : String) :
    Alone (update env dto actor id).run s fun l r s' =>
      ∀ response, r = .ok response → update.Settles env dto id s.committed l s'.committed := by
  rw [update]
  cases hid : ObjectId.parse id with
  | none =>
    rw [findDocumentById, toMongoObjectId_none hid]
    exact Leads.run_throw fun _ hr => by cases hr
  | some oid =>
    have hfind : Shows none s.committed (findDocumentById id).run s.committed
        (Still (fun user => s.committed.staffUser oid.1 = some user) s.committed) :=
      findDocumentById_shows hs hid
    refine Leads.run_bind (hfind.exact rfl) ?_ fun _ _ _ _ _ hr => by cases hr
    rintro l user s₁ ⟨v, hv, rfl, hsame, hfound⟩
    have hs₁ : s₁.committed = s.committed := hv.trans hsame
    have huser := hfound user rfl
    have huid : user.id = oid.1 := Database.id_of_staffUser huser
    rw [← hs₁] at hs huser ⊢
    have hsettles : ∀ {l} {s' : Store},
        (update.Applied env dto user (requestedRoles dto user) s₁.committed s'.committed ↔
          saves l = 1) → update.Settles env dto id s₁.committed l s'.committed :=
      fun h => ⟨oid, hid, user, huser, h⟩
    rw [← huid] at huser
    cases hroles : dto.roles with
    | none =>
      have hrequested : requestedRoles dto user = user.roles := by rw [requestedRoles, hroles]; rfl
      rw [hrequested] at hsettles
      exact (updateFrom_alone hs huser).mono fun l' r s' h response hr => hsettles (h response hr)
    | some roles =>
      have hrequested : requestedRoles dto user = roles.eraseDups := by
        rw [requestedRoles, hroles]
        rfl
      rw [hrequested] at hsettles
      refine Leads.run_bind (R := fun l r s' => l = [] ∧ s' = s₁ ∧
        ∀ nextRoles, r = .ok nextRoles → nextRoles = roles.eraseDups) ?_ ?_
        fun _ _ _ _ _ hr => by cases hr
      · refine Leads.run_ite (fun _ => Leads.run_throw ⟨rfl, rfl, fun _ hr => by cases hr⟩) fun _ =>
          Leads.run_pure ⟨rfl, rfl, ?_⟩
        rintro nextRoles ⟨⟩
        rfl
      · rintro l nextRoles s₂ ⟨rfl, rfl, hnext⟩
        obtain rfl := hnext nextRoles rfl
        exact (updateFrom_alone hs huser).mono fun l' r s' h response hr => hsettles (h response hr)

/-- A call on its own, whatever the runs of the callback of its transaction. A creation that
returns has made the account that was asked for; an update that returns has made the changes
that were asked for exactly where one save was sent, so that each run of the callback but one
ended before its save. -/
theorem staff_writes_applied (hs : s.committed.Indexed) :
    (∀ dto actor l response s',
      Traces exec fallible (create env dto actor).run s l (.ok response) s' →
        create.Applied env dto response s'.committed) ∧
    ∀ dto actor id l response s',
      Traces exec fallible (update env dto actor id).run s l (.ok response) s' →
        update.Settles env dto id s.committed (l.filterMap attempt) s'.committed := by
  refine ⟨fun dto actor l response s' htrace => ?_, fun dto actor id l response s' htrace => ?_⟩
  · obtain ⟨s₁, hs₁, happlied⟩ := create_alone hs dto actor s rfl l _ s' htrace
    rw [hs₁]
    exact happlied response rfl
  · obtain ⟨s₁, hs₁, hsettles⟩ := update_alone hs id s rfl l _ s' htrace
    rw [hs₁]
    exact hsettles response rfl

end Main

section Schedules

def movesAway : UpdateStaffUserDto := ⟨some "ada@books.local", none, none, none⟩

/-- A fault that has the callback run again, once. -/
def transient : Choice := { drawsAnything with error := ⟨true, ""⟩, retries := 1 }

/-- The update whose transaction loses its call after `n` others, and is run again. -/
def rerun (n : ℕ) :
    Option (List (Step Accounts.Op) × Except Failure StaffUserResponseDto × Store) :=
  trace execute fails drawsAnything
    (List.replicate (4 + n) (.reply transient) ++ [.lose, .reply transient])
    (update plain movesAway none staffUserId.1).run (.init oneStaffUser)

theorem traces_of_rerun {n : ℕ} {l : List (Step Accounts.Op)} {s' : Store}
    {r : Except Failure StaffUserResponseDto} (h : rerun n = some (l, r, s')) :
    Traces exec fallible (update plain movesAway none staffUserId.1).run (.init oneStaffUser) l
      r s' :=
  traces_of_trace execute_exec fails_fallible h

/-- The first run ends at the reservation, and the second one makes the change. -/
theorem staff_writes_applied_rerun : ∃ l response, ∃ s' : Store,
    Traces exec fallible (update plain movesAway none staffUserId.1).run (.init oneStaffUser) l
      (.ok response) s' ∧
    ∃ user, oneStaffUser.staffUser staffUserId.1 = some user ∧
      update.Applied plain movesAway user (requestedRoles movesAway user) oneStaffUser
        s'.committed := by
  have hrun : (rerun 0).map (fun (l, r, _) => (r.isOk, saves (l.filterMap attempt))) =
      some (true, 1) := by
    decide +kernel
  obtain ⟨⟨l, r, s'⟩, hrerun, hview⟩ := Option.map_eq_some_iff.mp hrun
  simp only [Prod.mk.injEq] at hview
  obtain ⟨hok, hone⟩ := hview
  cases r with
  | error e => cases hok
  | ok response =>
    have htrace := traces_of_rerun hrerun
    have hindexed : oneStaffUser.Indexed := by decide
    obtain ⟨oid, hoid, user, huser, hiff⟩ :=
      (staff_writes_applied hindexed).2 movesAway none staffUserId.1 l response s' htrace
    have hparse : ObjectId.parse staffUserId.1 = some staffUserId := by decide +kernel
    obtain rfl : oid = staffUserId := Option.some_inj.mp (hoid.symm.trans hparse)
    exact ⟨l, response, s', htrace, user, huser, hiff.mpr hone⟩

/-- The commit of the first run is lost, when the user in memory already passes for saved: the
second run sends the raised version alone, and the user keeps the address that is released. -/
theorem staff_writes_not_applied : ∃ l response, ∃ s' : Store,
    Traces exec fallible (update plain movesAway none staffUserId.1).run (.init oneStaffUser) l
      (.ok response) s' ∧
    s'.committed.owner "ada@library.local" = none ∧
    (s'.committed.staffUser staffUserId.1).map (fun d => (d.email, d.authVersion)) =
      some ("ada@library.local", some 2) ∧
    ∃ user, oneStaffUser.staffUser staffUserId.1 = some user ∧ user.authVersion = some 0 ∧
      ¬ update.Applied plain movesAway user (requestedRoles movesAway user) oneStaffUser
        s'.committed := by
  have hrun : (rerun 6).map (fun (_, r, s') => (r.isOk, s'.committed.owner "ada@library.local",
      (s'.committed.staffUser staffUserId.1).map fun d => (d.email, d.authVersion))) =
      some (true, none, some ("ada@library.local", some 2)) := by
    decide +kernel
  obtain ⟨⟨l, r, s'⟩, hrerun, hview⟩ := Option.map_eq_some_iff.mp hrun
  simp only [Prod.mk.injEq] at hview
  obtain ⟨hok, hreleased, hstored⟩ := hview
  have huser : ∃ user, oneStaffUser.staffUser staffUserId.1 = some user ∧
      user.id = staffUserId.1 ∧ user.email = "ada@library.local" ∧ user.authVersion = some 0 := by
    decide +kernel
  obtain ⟨user, huser, hid, hemail, hversion⟩ := huser
  cases r with
  | error e => cases hok
  | ok response =>
    refine ⟨l, response, s', traces_of_rerun hrerun, hreleased, hstored, user, huser, hversion, ?_⟩
    rintro ⟨⟨d, hd, hrequested, -⟩, -⟩
    rw [hid] at hd
    rw [hd] at hstored
    have hkept : d.email = "ada@library.local" := congrArg Prod.fst (Option.some_inj.mp hstored)
    have hnext : nextEmail plain movesAway user = "ada@books.local" := rfl
    rw [hkept, hnext] at hrequested
    exact absurd hrequested (by decide)

end Schedules

end StaffUsersService

end Accounts
