import BookLibrary.Accounts.Execution
import BookLibrary.Accounts.StaffCompensation
import BookLibrary.SignIn.Execution

/-!
# Failed updates of both kinds of account

The calls that change identifiers, outside of transactions, and the ones among their
failures that leave the reservations as the account wants them.
-/

namespace Accounts

open AuthIdentifiers Documents Interleaving SignIn

/-- A call that may change an identifier of an account. -/
inductive AccountChange where
  | updateMember (dto : UpdateMemberDto) (actor : Option AuditActor) (id : String)
  | setMemberCredentials (actor : Option AuditActor) (id loginIdentifier password : String)
  | updateStaffUser (dto : UpdateStaffUserDto) (actor : Option AuditActor) (id : String)
  deriving DecidableEq

namespace AccountChange

variable (env : Environment)

def id : AccountChange → String
  | .updateMember _ _ id => id
  | .setMemberCredentials _ id _ _ => id
  | .updateStaffUser _ _ id => id

def subjectType : AccountChange → AuthIdentifierSubjectType
  | .updateStaffUser .. => .staff
  | _ => .member

def handle : AccountChange → Handler Unit
  | .updateMember dto actor id => do
    let _ ← MembersService.update env dto actor id
  | .setMemberCredentials actor id loginIdentifier password => do
    let _ ← MembersService.setMemberCredentials env actor id loginIdentifier password
  | .updateStaffUser dto actor id => do
    let _ ← StaffUsersService.update env dto actor id

/-- Where the failed call, on the account under `id`, does no harm. -/
def Spares (s : Database) (id : String) (l : List Attempt) : AccountChange → Prop
  | .updateMember dto _ _ =>
    match s.member id with
    | some member => MembersService.update.Spares env dto member s l
    | none => True
  | .setMemberCredentials _ _ loginIdentifier _ =>
    Covers (Carries env s (.member, id))
      (MembersService.normalizeLoginIdentifier env loginIdentifier) l
  | .updateStaffUser dto _ _ =>
    match s.staffUser id with
    | some user => StaffUsersService.emailChanged env dto user = true →
        StaffUsersService.update.Spares env dto user (kept l) s l
    | none => True

end AccountChange

/-- The value of a call that has succeeded does not matter to one that has failed. -/
theorem forget_shows {α : Type} {base v : Database} {x : Handler α}
    {P : List Attempt → Database → Prop}
    (hx : Shows none base x.run v fun l r v' => (∃ e, r = .error e) → P l v') :
    Shows none base (x >>= fun _ => pure ()).run v fun l r v' => (∃ e, r = .error e) → P l v' := by
  refine Leads.run_bind hx (fun l a v' _ => Leads.run_pure fun ⟨e, he⟩ => by cases he) ?_
  exact fun l e v' h _ => h ⟨e, rfl⟩

/-- A call that fails for one reason, and has not been committed as a transaction, leaves the
ownership of identifiers intact exactly where its failure spares them. -/
theorem failed_updates_intact {env : Environment} {s s' : Store} (hs : s.committed.Indexed)
    {change : AccountChange} {id : Documents.ObjectId} (hid : ObjectId.parse change.id = some id)
    {l : List (Step Op)} {error : Failure}
    (htrace : Traces exec fallible (change.handle env).run s l (.error error) s')
    (hone : faults (l.filterMap attempt) ≤ 1) (hpath : committed (l.filterMap attempt) = false) :
    Intact env (change.subjectType, id.1) s.committed (l.filterMap attempt) s'.committed ↔
      change.Spares env s.committed id.1 (l.filterMap attempt) := by
  have hshows : Shows none s.committed (change.handle env).run s.committed fun l r v =>
      (∃ e, r = .error e) → faults l ≤ 1 → committed l = false →
        (Intact env (change.subjectType, id.1) s.committed l v ↔
          change.Spares env s.committed id.1 l) := by
    cases change with
    | updateMember dto actor _ =>
      refine forget_shows ((MembersService.update_shows hs hid).mono fun l r v h he hone _ => ?_)
      exact h he hone
    | setMemberCredentials actor _ loginIdentifier password =>
      refine forget_shows ((MembersService.setMemberCredentials_shows hs hid loginIdentifier
        password).mono fun l r v h he hone _ => ?_)
      exact h he hone
    | updateStaffUser dto actor _ => exact forget_shows (StaffUsersService.update_shows hs hid)
  obtain ⟨v, hv, hiff⟩ := hshows s rfl l _ s' htrace
  obtain rfl : s'.committed = v := hv
  exact hiff ⟨error, rfl⟩ hone hpath

section Schedules

/-- How a call on its own ends, with its attempts and the documents that it leaves. -/
def AccountChange.alone (change : AccountChange) (fates : List (Fate Choice)) (s : Database) :
    Option (Option Failure × List Attempt × Database) :=
  (Interleaving.trace execute fails drawsAnything fates (change.handle plain).run (.init s)).map
    fun (l, r, s') =>
      (match r with | .ok _ => none | .error e => some e, l.filterMap attempt, s'.committed)

theorem AccountChange.traces_of_alone {change : AccountChange} {fates : List (Fate Choice)}
    {s s' : Database} {error : Failure} {attempts : List Attempt}
    (h : change.alone fates s = some (some error, attempts, s')) : ∃ l, ∃ store : Store,
      Traces exec fallible (change.handle plain).run (.init s) l (.error error) store ∧
      l.filterMap attempt = attempts ∧ store.committed = s' := by
  obtain ⟨⟨l, r, store⟩, htrace, heq⟩ := Option.map_eq_some_iff.mp h
  cases r with
  | ok a => cases heq
  | error e =>
    cases heq
    exact ⟨l, store, traces_of_trace execute_exec fails_fallible htrace, rfl, rfl⟩

/-- The call of the driver after `n` others is lost. -/
def losing (n : ℕ) (rest : List (Fate Choice)) : List (Fate Choice) :=
  List.replicate n (.reply drawsAnything) ++ .lose :: rest

def movesStaffUser : AccountChange :=
  .updateStaffUser ⟨some "ada@books.local", none, none, none⟩ none staffUserId.1

/-- In a deployment without sessions the save is lost: the new address is released, and the
account has the previous one. -/
theorem failed_updates_intact_run : ∃ l error, ∃ s' : Store,
    Traces exec fallible (movesStaffUser.handle plain).run (.init oneStaffUser) l (.error error) s' ∧
    Intact plain (.staff, staffUserId.1) oneStaffUser (l.filterMap attempt) s'.committed := by
  have hrun : (movesStaffUser.alone (losing 1 (losing 4 [])) oneStaffUser).map (fun (error, l, _) =>
      (error, faults l, [committed l, tried none .save l, kept l, made none .save l,
        made none (.release "ada@library.local") l,
        tried none (.release "ada@library.local") l])) =
      some (some (.thrown ⟨false, ""⟩), 1, [false, true, false, false, false, false]) := by
    decide +kernel
  obtain ⟨⟨error, attempts, s'⟩, halone, hview⟩ := Option.map_eq_some_iff.mp hrun
  simp only [Prod.mk.injEq, List.cons.injEq, and_true] at hview
  obtain ⟨rfl, hone, hpath, htried, hkept, hsave, hmade, hreleased⟩ := hview
  obtain ⟨l, store, htrace, rfl, -⟩ := AccountChange.traces_of_alone halone
  have hindexed : oneStaffUser.Indexed := by decide
  have huser : oneStaffUser.staffUser staffUserId.1 = oneStaffUser.staffUsers.head? := by
    decide +kernel
  have hid : ObjectId.parse movesStaffUser.id = some staffUserId := by decide +kernel
  refine ⟨l, _, store, htrace, ?_⟩
  refine (failed_updates_intact hindexed hid htrace hone.le hpath).mpr ?_
  show AccountChange.Spares plain oneStaffUser staffUserId.1 _ movesStaffUser
  rw [movesStaffUser, AccountChange.Spares, huser]
  intro _
  rw [StaffUsersService.update.Spares, if_pos htried, if_neg (by simp [hsave])]
  exact ⟨fun _ => hmade, fun h => by cases hreleased.symm.trans h⟩

def movesMember : AccountChange :=
  .updateMember ⟨none, some "olivia@library.local", none, none, none, none⟩ none memberId.1

/-- The member's new address is reserved and saved when the revocation of the sessions is
lost. The address is released all the same, and the member still has it. -/
theorem failed_updates_not_intact : ∃ l error, ∃ s' : Store,
    Traces exec fallible (movesMember.handle plain).run (.init oneMember) l (.error error) s' ∧
    faults (l.filterMap attempt) = 1 ∧ committed (l.filterMap attempt) = false ∧
    ¬ Intact plain (.member, memberId.1) oneMember (l.filterMap attempt) s'.committed := by
  have hrun : (movesMember.alone (losing 6 []) oneMember).map (fun (error, l, s') =>
      (error, faults l, (s'.member memberId.1).map (·.email),
        [committed l, acquired none (.member, memberId.1) "olivia@library.local" l,
          (s'.owner "olivia@library.local").isNone])) =
      some (some (.thrown ⟨false, ""⟩), 1, some (some "olivia@library.local"),
        [false, true, true]) := by
    decide +kernel
  obtain ⟨⟨error, attempts, s'⟩, halone, hview⟩ := Option.map_eq_some_iff.mp hrun
  simp only [Prod.mk.injEq, List.cons.injEq, and_true] at hview
  obtain ⟨rfl, hone, hemail, hpath, hacquired, howner⟩ := hview
  obtain ⟨l, store, htrace, rfl, rfl⟩ := AccountChange.traces_of_alone halone
  refine ⟨l, _, store, htrace, hone, hpath, fun hintact => ?_⟩
  obtain ⟨member, hmember, hcarried⟩ := Option.map_eq_some_iff.mp hemail
  have howned := hintact.carried "olivia@library.local" ⟨member, hmember, .inl hcarried⟩
    (.inr hacquired)
  rw [Option.isNone_iff_eq_none.mp howner] at howned
  cases howned

end Schedules

end Accounts
