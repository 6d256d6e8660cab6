import BookLibrary.Accounts.Aging
import BookLibrary.Accounts.Attempts

/-!
# Scenes of a request

Where a request of the account services stands that nobody else interferes with, and what its
saves and transactions do to the accounts of the staff, however often they are run.
-/

namespace Accounts

open AuthIdentifiers Documents Interleaving SignIn

/-- Where a request is: outside of all transactions, or in one that sees its own writes. -/
inductive Scene where
  | outside (users : List StaffUser)
  | inside (session : ℕ) (committed users : List StaffUser)

namespace Scene

def session : Scene → Option ℕ
  | outside _ => none
  | inside session _ _ => some session

/-- The accounts as the request sees them. -/
def users : Scene → List StaffUser
  | outside users => users
  | inside _ _ users => users

/-- The scene once the request sees these accounts. -/
def seeing (users : List StaffUser) : Scene → Scene
  | outside _ => outside users
  | inside session committed _ => inside session committed users

def At : Scene → Store → Prop
  | outside users, s => s.committed.staffUsers = users
  | inside session committed users, s => s.committed.staffUsers = committed ∧
    ∃ t, s.transactions session = some t ∧ t.snapshot = s.committed ∧
      (schema.putAll t.buffer t.snapshot).staffUsers = users

end Scene

/-- The calls that concern no account of the staff, and stay in the session. -/
def Spares (session : Option ℕ) : (β : Type) → Op β → Prop
  | _, .inl _ => True
  | _, .inr (.inl (.write session' w)) => session' = session ∧ w.SparesStaff
  | _, .inr (.inl _) => False
  | _, .inr (.inr _) => True

section Calls

variable {β : Type} {x : Scene} {s s₁ : Store}

/-- A write of the session, where it is applied. -/
theorem goes_write_scene {w : Write} {o : Outcome (Sessions.WriteResult Document)} (hs : x.At s)
    (h : Goes exec fallible (Sum.inr (.inl (.write x.session w)) : Op _) s o s₁) :
    (o.applied = none ∧ x.At s₁) ∨ ∃ v : Database, v.staffUsers = x.users ∧
      o.applied = some (schema.write w v) ∧ (x.seeing (v.wrote w).staffUsers).At s₁ := by
  rcases h.applied with ⟨hnone, rfl⟩ | ⟨r, hr, hexec⟩
  · exact .inl ⟨hnone, hs⟩
  · right
    cases x with
    | outside users =>
      obtain ⟨rfl, rfl⟩ := hexec
      exact ⟨s.committed, hs, hr, rfl⟩
    | inside n committed users =>
      obtain ⟨hcommitted, t, ht, hsnapshot, husers⟩ := hs
      obtain ⟨t', ht', rfl, rfl⟩ := hexec
      obtain rfl : t = t' := Option.some.inj (ht.symm.trans ht')
      refine ⟨_, husers, hr, hcommitted, _, Function.update_self .., hsnapshot, ?_⟩
      rw [Sessions.Schema.putAll_append]
      rfl

theorem goes_spares {op : Op β} {o : Outcome β} (hop : Spares x.session β op) (hs : x.At s)
    (h : Goes exec fallible op s o s₁) : x.At s₁ := by
  rcases op with ⟨session, q⟩ | c | op
  · rcases h.applied with ⟨-, rfl⟩ | ⟨b, -, -, rfl⟩
    · exact hs
    · exact hs
  · cases c with
    | write session w =>
      obtain ⟨rfl, hw⟩ := hop
      rcases goes_write_scene hs h with ⟨-, hs₁⟩ | ⟨v, hv, -, hs₁⟩
      · exact hs₁
      · rw [staffUsers_wrote hw, hv] at hs₁
        cases x with
        | outside | inside => exact hs₁
    | startTransaction | commitTransaction | abortTransaction => exact hop.elim
  · rw [goes_draw h]
    exact hs

end Calls

section Walks

variable {E α β : Type} {x : Scene} {m : Hydrated StaffUser} {users : List StaffUser}

/-- A call of the services on its own shows nothing. -/
def unseen (_ : Step Op) : Option E := none

/-- Programs confined to calls that concern no account. -/
theorem spares_leads {p : Prog Op α} (hp : p.Confined (Spares x.session)) :
    Leads exec fallible (unseen : Step Op → Option E) Scene.At p x fun l _ x' => l = [] ∧ x' = x :=
  Leads.of_confined (fun hop _ hs _ _ hgoes => ⟨goes_spares hop hs hgoes, rfl⟩) hp

/-- However the program goes that works on `m`, it ends as `Q` says. -/
def Moves (E : Type) {α : Type} (x : Scene) (m : Hydrated StaffUser)
    (p : StaffUsersService.Working α) (Q : Except Failure α → Hydrated StaffUser → Scene → Prop) : Prop :=
  Leads exec fallible (unseen : Step Op → Option E) Scene.At (p.runFrom m) x fun _ r x' => Q r.1 r.2 x'

namespace Moves

variable {Q Q' : Except Failure α → Hydrated StaffUser → Scene → Prop}
  {p : StaffUsersService.Working α}

theorem mono (hp : Moves E x m p Q) (h : ∀ r m' x', Q r m' x' → Q' r m' x') : Moves E x m p Q' :=
  Leads.mono hp fun _ _ _ hr => h _ _ _ hr

theorem pure {a : α} (h : Q (.ok a) m x) :
    Moves E x m (Pure.pure a : StaffUsersService.Working α) Q := Leads.keeping_pure h

theorem throw {e : Failure} (h : Q (.error e) m x) :
    Moves E x m (MonadExcept.throw e : StaffUsersService.Working α) Q := Leads.keeping_throw h

theorem bind {R : Except Failure β → Hydrated StaffUser → Scene → Prop}
    {p : StaffUsersService.Working β} {f : β → StaffUsersService.Working α} (hp : Moves E x m p R)
    (hok : ∀ b m' x', R (.ok b) m' x' → Moves E x' m' (f b) Q)
    (herr : ∀ e m' x', R (.error e) m' x' → Q (.error e) m' x') : Moves E x m (p >>= f) Q :=
  Leads.keeping_bind hp (fun _ b m' x' h => hok b m' x' h) fun _ e m' x' h => herr e m' x' h

theorem tryCatch {R : Except Failure α → Hydrated StaffUser → Scene → Prop}
    {f : Failure → StaffUsersService.Working α} (hp : Moves E x m p R)
    (hok : ∀ a m' x', R (.ok a) m' x' → Q (.ok a) m' x')
    (herr : ∀ e m' x', R (.error e) m' x' → Moves E x' m' (f e) Q) :
    Moves E x m (MonadExcept.tryCatch p f) Q :=
  Leads.keeping_tryCatch hp (fun _ a m' x' h => hok a m' x' h) fun _ e m' x' h => herr e m' x' h

theorem spares {a : Handler α} (ha : a.run.Confined (Spares x.session))
    (h : ∀ r, Q r m x) : Moves E x m (liftM a) Q := by
  refine Leads.keeping_lift (spares_leads ha) fun l r x' hx => ?_
  obtain ⟨-, rfl⟩ := hx
  exact h r

/-- Calls that concern no account, and then the rest. -/
theorem spares_bind {a : Handler β} {f : β → StaffUsersService.Working α}
    (ha : a.run.Confined (Spares x.session)) (hok : ∀ b, Moves E x m (f b) Q)
    (herr : ∀ e, Q (.error e) m x) : Moves E x m (liftM a >>= f) Q := by
  refine bind (spares (Q := fun _ m' x' => m' = m ∧ x' = x) ha fun r => ⟨rfl, rfl⟩) ?_ ?_
  · rintro b _ _ ⟨rfl, rfl⟩
    exact hok b
  · rintro e _ _ ⟨rfl, rfl⟩
    exact herr e

end Moves

section Confined

variable {session : Option ℕ} {normalizedIdentifier subjectId : String} {actorId : Option String}
  {subjectType : AuthIdentifierSubjectType}

theorem Write.sparesStaff_of_purpose {w : Write} (h : w.purpose ≠ .save) (h' : w.purpose ≠ .other) :
    w.SparesStaff := by
  cases w with
  | saveStaffUser | saveMember => exact absurd rfl h
  | insertStaffUser | insertMember | bumpAuthVersion | setAccountIdentifier => exact absurd rfl h'
  | insertIdentifier | claimReleased | releaseIdentifier | revokeFamilies | recordActivity => trivial

theorem spares_write {w : Write} {p : Purpose} (hp : w.purpose = p) (h : p ≠ .save) (h' : p ≠ .other) :
    Spares session _ (.inr (.inl (.write session w))) :=
  ⟨rfl, Write.sparesStaff_of_purpose (hp ▸ h) (hp ▸ h')⟩

theorem spares_draw (op : Draw β) : (draw op).run.Confined (Spares session) :=
  perform_confined trivial trivial

theorem spares_find (q : Query β) : (find session q).run.Confined (Spares session) :=
  perform_confined trivial trivial

theorem spares_reserve {claimedType : Option AuthIdentifierType} {createdType : AuthIdentifierType} :
    (reserve session normalizedIdentifier claimedType createdType subjectType subjectId
      actorId).run.Confined (Spares session) :=
  confined_reserve trivial (fun _ hw => spares_write hw nofun nofun) fun _ => trivial

theorem spares_release :
    (release session normalizedIdentifier subjectType subjectId actorId).run.Confined
      (Spares session) :=
  confined_release (fun _ hw => spares_write hw nofun nofun) fun _ => trivial

theorem spares_recordActivity (e : String → SecurityActivityEvent) :
    (recordActivity e).run.Confined (Spares none) :=
  confined_recordActivity e (fun _ hw => spares_write hw nofun nofun) fun _ => trivial

theorem spares_revokeSessions {reason : String} :
    (revokeSessions subjectType subjectId reason).run.Confined (Spares none) :=
  confined_revokeSessions (fun _ hw => spares_write hw nofun nofun) fun _ => trivial

theorem spares_raiseDuplicateKey : (raiseDuplicateKey : Handler α).run.Confined (Spares session) :=
  confined_raiseDuplicateKey fun _ => trivial

end Confined

section Persisting

open StaffUsersService

theorem Scene.seeing_users (x : Scene) : x.seeing x.users = x := by
  cases x with
  | outside | inside => rfl

/-- How a write leaves the accounts that the request sees. -/
def Write.Leaves (w : Write) (users users' : List StaffUser) : Prop :=
  users' = users ∨ ∃ v : Database, v.staffUsers = users ∧ users' = (v.wrote w).staffUsers

theorem Write.Leaves.ages {w : Write} {users' : List StaffUser} (h : w.Leaves users users')
    (hw : w.Heeds users) : Ages users users' := by
  rcases h with rfl | ⟨v, rfl, rfl⟩
  · exact .refl _
  · exact ages_wrote hw

theorem write_leads (w : Write) :
    Leads exec fallible (unseen : Step Op → Option E) Scene.At (write x.session w).run x
      fun _ _ x' => ∃ users', w.Leaves x.users users' ∧ x' = x.seeing users' := by
  refine Leads.call fun s hs o s₁ hgoes => ?_
  have hleft : ∃ users', w.Leaves x.users users' ∧ (x.seeing users').At s₁ := by
    rcases goes_write_scene hs hgoes with ⟨-, hs₁⟩ | ⟨v, hv, -, hs₁⟩
    · exact ⟨x.users, .inl rfl, by rwa [Scene.seeing_users]⟩
    · exact ⟨_, .inr ⟨v, hv, rfl⟩, hs₁⟩
  obtain ⟨users', hleaves, hs₁⟩ := hleft
  refine ⟨_, hs₁, ?_⟩
  cases o with
  | answered r => exact Leads.done ⟨users', hleaves, rfl⟩
  | threw r =>
    -- the driver's error is passed on
    refine Leads.call fun s hs o s₁ hgoes => ⟨_, ?_, Leads.done ⟨users', hleaves, rfl⟩⟩
    rw [goes_draw hgoes]
    exact hs

theorem raise_moves {Q : Except Failure α → Hydrated StaffUser → Scene → Prop}
    (h : ∀ e, Q (.error e) m x) :
    Moves E x m (liftM (raiseDuplicateKey : Handler α)) Q := by
  have hraise : Leads exec fallible (unseen : Step Op → Option E) Scene.At
      (raiseDuplicateKey : Handler α).run x fun _ r x' => (∃ e, r = .error e) ∧ x' = x := by
    refine Leads.run_bind (spares_leads (spares_draw _)) ?_ ?_
    · rintro l error x' ⟨-, rfl⟩
      exact Leads.run_throw ⟨⟨_, rfl⟩, rfl⟩
    · rintro l e x' ⟨-, rfl⟩
      exact ⟨⟨e, rfl⟩, rfl⟩
  refine Leads.keeping_lift hraise ?_
  rintro l r x' ⟨⟨e, rfl⟩, rfl⟩
  exact h e

/-- What a save writes. -/
def Hydrated.write (m : Hydrated StaffUser) : Write :=
  if m.isNew then .insertStaffUser m.now else .saveStaffUser m.loaded m.now

/-- The user in memory passes for saved only where the save has returned. -/
theorem save_moves {Q : Except Failure Unit → Hydrated StaffUser → Scene → Prop}
    (hok : ∀ users', m.write.Leaves x.users users' →
      Q (.ok ()) ⟨m.now, m.now, false⟩ (x.seeing users'))
    (herr : ∀ e users', m.write.Leaves x.users users' → Q (.error e) m (x.seeing users')) :
    Moves E x m (save x.session) Q := by
  rw [Moves, save, Keeping.runFrom_get_bind]
  refine Leads.keeping_lift_bind (R := fun _ _ x' => ∃ users',
    m.write.Leaves x.users users' ∧ x' = x.seeing users') (write_leads _) ?_ ?_
  · rintro l r x' ⟨users', hleaves, rfl⟩
    cases r with
    | written docs => exact Leads.done (hok users' hleaves)
    | unmatched => exact Leads.done (herr _ users' hleaves)
    | duplicateKey =>
      exact raise_moves fun e => herr e users' hleaves
  · rintro l e x' ⟨users', hleaves, rfl⟩
    exact herr e users' hleaves

/-- The scene once a transaction is given up. -/
def Scene.aborted : Scene → Scene
  | outside users => outside users
  | inside _ committed _ => outside committed

theorem start_moves {Q : Except Failure ℕ → Hydrated StaffUser → Scene → Prop}
    (h : ∀ n, Q (.ok n) m (.inside n users users)) :
    Moves E (.outside users) m (liftM (change .startTransaction)) Q := by
  refine Leads.keeping_lift (R := fun _ r x' => ∃ n, r = .ok n ∧ x' = .inside n users users) ?_ ?_
  · refine Leads.call fun s hs o s₁ hgoes => ?_
    cases o with
    | answered n =>
      obtain ⟨rfl, rfl⟩ := hgoes
      exact ⟨.inside s.started users users, ⟨hs, _, Function.update_self .., rfl, hs⟩,
        Leads.done ⟨_, rfl, rfl⟩⟩
    | threw r =>
      cases r with
      | none => exact hgoes.1.elim
      | some n => exact hgoes.1.elim
  · rintro l r x' ⟨n, rfl, rfl⟩
    exact h n

theorem abort_moves {n : ℕ} {Q : Except Failure Unit → Hydrated StaffUser → Scene → Prop}
    (h : Q (.ok ()) m x.aborted) : Moves E x m (liftM (change (.abortTransaction n))) Q := by
  refine Leads.keeping_lift (R := fun _ r x' => r = .ok () ∧ x' = x.aborted) ?_ ?_
  · refine Leads.call fun s hs o s₁ hgoes => ?_
    cases o with
    | answered _ =>
      obtain rfl : s₁ = _ := hgoes
      refine ⟨x.aborted, ?_, Leads.done ⟨rfl, rfl⟩⟩
      cases x with
      | outside => exact hs
      | inside => exact hs.1
    | threw r =>
      cases r with
      | none => exact hgoes.1.elim
      | some _ => exact hgoes.1.elim
  · rintro l r x' ⟨rfl, rfl⟩
    exact h

/-- A commit that throws has been applied, or the transaction is still open. -/
theorem commit_moves {n : ℕ} {users' : List StaffUser}
    {Q : Except Failure Unit → Hydrated StaffUser → Scene → Prop}
    (hdone : ∀ r, Q r m (.outside users')) (hlost : ∀ e, Q (.error e) m (.inside n users users')) :
    Moves E (.inside n users users') m (liftM (change (.commitTransaction n))) Q := by
  refine Leads.keeping_lift (R := fun _ r x' => x' = .outside users' ∨
    (∃ e, r = .error e) ∧ x' = .inside n users users') ?_ ?_
  · refine Leads.call fun s hs o s₁ hgoes => ?_
    have hstill : o.applied = none → s₁ = s := by
      rcases hgoes.applied with ⟨-, rfl⟩ | ⟨b, hb, -⟩
      · exact fun _ => rfl
      · exact fun hnone => by rw [hnone] at hb; cases hb
    have hcommitted : ∀ b, o.applied = some b → s₁.committed.staffUsers = users' := by
      intro b hb
      rcases hgoes.applied with ⟨hnone, -⟩ | ⟨b', -, t, ht, -, -, rfl⟩
      · rw [hnone] at hb
        cases hb
      · obtain ⟨-, t', ht', hsnapshot, husers⟩ := hs
        obtain rfl : t = t' := Option.some.inj (ht.symm.trans ht')
        rw [hsnapshot] at husers
        exact husers
    -- the error of a call that has thrown is passed on
    have hpassed : ∀ x', (x' = .outside users' ∨ x' = .inside n users users') →
        Leads exec fallible (unseen : Step Op → Option E) Scene.At
          (.call (drawn .lastError) fun e => .done
            (.error (.thrown (e.getD ⟨false, ""⟩)) : Except Failure Unit))
          x' fun _ r x' => x' = .outside users' ∨
            (∃ e, r = .error e) ∧ x' = .inside n users users' := by
      intro x' hx'
      refine Leads.call fun s hs o s₁ hgoes => ⟨x', ?_, Leads.done ?_⟩
      · rw [goes_draw hgoes]
        exact hs
      · rcases hx' with rfl | rfl
        · exact .inl rfl
        · exact .inr ⟨⟨_, rfl⟩, rfl⟩
    cases o with
    | answered b => exact ⟨.outside users', hcommitted b rfl, Leads.done (.inl rfl)⟩
    | threw r =>
      cases r with
      | none =>
        obtain rfl := hstill rfl
        exact ⟨_, hs, hpassed _ (.inr rfl)⟩
      | some b => exact ⟨.outside users', hcommitted b rfl, hpassed _ (.inl rfl)⟩
  · rintro l r x' (rfl | ⟨⟨e, rfl⟩, rfl⟩)
    · exact hdone r
    · exact hlost e

/-- The request is outside of all transactions again, the accounts have aged, and `I` holds of
what is in memory. -/
def Rests {β : Type} (I : Hydrated StaffUser → List StaffUser → Prop) (users : List StaffUser)
    (_ : Except Failure β) (m : Hydrated StaffUser) (x : Scene) : Prop :=
  ∃ users', x = .outside users' ∧ Ages users users' ∧ I m users'

/-- A run of the callback: where it throws, `I` holds of the accounts as they were before. -/
def Calls (I : Hydrated StaffUser → List StaffUser → Prop) (n : ℕ) (users : List StaffUser)
    (r : Except Failure Unit) (m : Hydrated StaffUser) (x : Scene) : Prop :=
  ∃ users', x = .inside n users users' ∧ I m users ∧
    (r = .ok () → Ages users users' ∧ I m users')

variable {I : Hydrated StaffUser → List StaffUser → Prop} {callback : ℕ → Working Unit}

theorem Rests.trans {users' : List StaffUser} {r : Except Failure α} (h : Ages users users')
    (h' : Rests I users' r m x) : Rests I users r m x := by
  obtain ⟨users'', hx, hages, hm⟩ := h'
  exact ⟨users'', hx, h.trans hages, hm⟩

theorem attempt_moves (hcallback : ∀ n m users, I m users →
      Moves E (.inside n users users) m (callback n) (Calls I n users)) (hm : I m users) :
    Moves E (.outside users) m (withTransaction.attempt callback) (Rests I users) := by
  refine Moves.bind (R := fun r m' x' => ∃ n, r = .ok n ∧ m' = m ∧ x' = .inside n users users)
    (start_moves fun n => ⟨n, rfl, rfl, rfl⟩) ?_ ?_
  · rintro n _ _ ⟨_, hn, rfl, rfl⟩
    cases hn
    refine Moves.tryCatch (R := fun r m' x' => Rests I users r m' x' ∨
      (∃ e, r = .error e) ∧ ∃ users', x' = .inside n users users' ∧ I m' users) ?_ ?_ ?_
    · refine Moves.bind (hcallback n _ users hm) ?_ ?_
      · rintro _ m' _ ⟨users', rfl, hbase, hok⟩
        obtain ⟨hages, hm'⟩ := hok rfl
        exact commit_moves (fun r => .inl ⟨users', rfl, hages, hm'⟩)
          fun e => .inr ⟨⟨e, rfl⟩, users', rfl, hbase⟩
      · rintro e m' _ ⟨users', rfl, hbase, -⟩
        exact .inr ⟨⟨e, rfl⟩, users', rfl, hbase⟩
    · rintro _ m' x' (h | ⟨⟨e, he⟩, -⟩)
      · exact h
      · cases he
    · intro e m' x' h
      refine Moves.bind (R := fun _ m'' x'' => Rests I users (.error e : Except Failure Unit) m'' x'')
        (abort_moves ?_) (fun _ _ _ h => Moves.throw h) fun _ _ _ h => h
      rcases h with ⟨users', rfl, hages, hm'⟩ | ⟨-, users', rfl, hm'⟩
      · exact ⟨users', rfl, hages, hm'⟩
      · exact ⟨users, rfl, .refl users, hm'⟩
  · rintro _ _ _ ⟨n, hn, -, -⟩
    cases hn

theorem withTransaction_moves (hcallback : ∀ n m users, I m users →
      Moves E (.inside n users users) m (callback n) (Calls I n users)) (retries : ℕ)
    (hm : I m users) :
    Moves E (.outside users) m (withTransaction callback retries) (Rests I users) := by
  induction retries generalizing m users with
  | zero => exact attempt_moves hcallback hm
  | succ retries ih =>
    refine Moves.tryCatch (attempt_moves hcallback hm) (fun _ _ _ h => h) ?_
    rintro e m' _ ⟨users', rfl, hages, hm'⟩
    by_cases ht : e.isTransient = true
    · rw [if_pos ht]
      exact (ih hm').mono fun _ _ _ h => .trans hages h
    · rw [if_neg ht]
      exact Moves.throw ⟨users', rfl, hages, hm'⟩

theorem spares_startSession : startSession.run.Confined (Spares none) :=
  .run_tryCatch (.run_bind (spares_draw _) fun _ => .run_pure) fun _ => .run_pure

theorem persistWithIdentifier_moves {fallback : Working Unit} (hcallback : ∀ n m users, I m users →
      Moves E (.inside n users users) m (callback n) (Calls I n users))
    (hfallback : ∀ m users, I m users →
      Moves E (.outside users) m fallback (Rests (fun _ _ => True) users)) (hm : I m users) :
    Moves E (.outside users) m (persistWithIdentifier callback fallback)
      (Rests (fun _ _ => True) users) := by
  have hrest : ∀ {r : Except Failure Unit} {m' x'}, Rests I users r m' x' →
      Rests (fun _ _ => True) users r m' x' :=
    fun ⟨users', hx, hages, _⟩ => ⟨users', hx, hages, trivial⟩
  refine Moves.spares_bind (x := .outside users) spares_startSession (fun started => ?_)
    fun e => ⟨users, rfl, .refl users, trivial⟩
  cases started with
  | false => exact hfallback m users hm
  | true =>
    refine Moves.bind (R := Rests I users) ?_ ?_ fun e m' x' ⟨users', hx, hages, _⟩ =>
      ⟨users', hx, hages, trivial⟩
    · refine Moves.tryCatch (R := Rests I users) ?_ (fun _ _ _ h => h) ?_
      · refine Moves.spares_bind (x := .outside users) (spares_draw _) (fun retries => ?_)
          fun e => ⟨users, rfl, .refl users, hm⟩
        exact Moves.bind (withTransaction_moves hcallback retries hm) (fun _ m' x' h => Moves.pure h)
          fun _ _ _ h => h
      · intro e m' x' h
        by_cases hu : isTransactionUnavailable e = true
        · rw [if_pos hu]
          exact Moves.pure h
        · rw [if_neg hu]
          exact Moves.throw h
    · rintro completed m' _ ⟨users', rfl, hages, hm'⟩
      cases completed with
      | true => exact Moves.pure ⟨users', rfl, hages, trivial⟩
      | false => exact (hfallback m' users' hm').mono fun _ _ _ h => .trans hages h

end Persisting

end Walks

end Accounts
