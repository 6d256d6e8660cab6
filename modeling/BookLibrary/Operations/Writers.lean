import BookLibrary.Accounts.Conduct
import BookLibrary.Accounts.Members
import BookLibrary.Accounts.StaffUsers
import BookLibrary.Operations.Execution
import BookLibrary.Operations.Validity
import BookLibrary.SignIn.Execution

/-!
# All who write reservations

The identifier operations, their reconciler and the offline repair beside the services of
staff users and members, any number of callers of each on one store.
-/

namespace Operations

open AuthIdentifiers Documents Interleaving

/-- A request of a service that writes reservations. -/
inductive WriterCall (A : Type) where
  | operation (call : Call A)
  | createStaffUser (dto : Accounts.CreateStaffUserDto) (actor : Option Accounts.AuditActor)
  | updateStaffUser (dto : Accounts.UpdateStaffUserDto) (actor : Option Accounts.AuditActor)
      (id : String)
  | createMember (dto : Accounts.CreateMemberDto) (actor : Option Accounts.AuditActor)
  | updateMember (dto : Accounts.UpdateMemberDto) (actor : Option Accounts.AuditActor) (id : String)
  | setMemberCredentials (actor : Option Accounts.AuditActor) (id loginIdentifier password : String)

inductive WriterResponse where
  | operation (r : Response)
  | account (r : Except Failure Unit)

/-- A request of an account service. -/
def answerAccount {α : Type} (x : Accounts.Handler α) : Prog Op WriterResponse :=
  (account x).run >>= fun r => .done (.account (r.map fun _ => ()))

variable {A ι : Type} (env : Environment) (accountEnv : SignIn.Environment)
  (aggregates : A → Aggregate)

def writerBody : WriterCall A → Prog Op WriterResponse
  | .operation call => body env aggregates call >>= fun r => .done (.operation r)
  | .createStaffUser dto actor =>
    answerAccount (Accounts.StaffUsersService.create accountEnv dto actor)
  | .updateStaffUser dto actor id =>
    answerAccount (Accounts.StaffUsersService.update accountEnv dto actor id)
  | .createMember dto actor =>
    answerAccount (Accounts.MembersService.create accountEnv dto actor)
  | .updateMember dto actor id =>
    answerAccount (Accounts.MembersService.update accountEnv dto actor id)
  | .setMemberCredentials actor id loginIdentifier password =>
    answerAccount (Accounts.MembersService.setMemberCredentials accountEnv actor id loginIdentifier
      password)

abbrev writers : System (WriterCall A) Op Store WriterResponse Event :=
  service (writerBody env accountEnv aggregates)

/-- The calls of an account service, which creates reservations that are tied to nothing. -/
def Detached : (β : Type) → Accounts.Op β → Prop
  | _, .inr (.inl (.write _ w)) => (Write.account w).Unties
  | _, _ => True

section Detached

open Accounts

variable {α β : Type} {session : Option ℕ}

theorem detached_draw {γ : Type} (op : Accounts.Draw γ) : Detached γ (drawn op) := trivial

theorem detached_perform {op : Accounts.Op β} (h : Detached β op) :
    (Accounts.perform op).run.Confined Detached := perform_confined h (detached_draw _)

theorem detached_raiseDuplicateKey : (raiseDuplicateKey : Accounts.Handler α).run.Confined Detached :=
  confined_raiseDuplicateKey detached_draw

theorem detached_reserve {normalizedIdentifier subjectId : String}
    {claimedType : Option AuthIdentifierType} {createdType : AuthIdentifierType}
    {subjectType : AuthIdentifierSubjectType} {actorId : Option String} :
    (reserve session normalizedIdentifier claimedType createdType subjectType subjectId
      actorId).run.Confined Detached := by
  refine .run_bind (detached_perform trivial) fun found => ?_
  cases found with
  | some existing =>
    refine .run_ite (fun _ => .run_pure) fun _ => .run_ite (fun _ => .run_throw) fun _ => ?_
    exact .run_bind (detached_perform trivial) fun _ => .run_pure
  | none =>
    refine .run_bind (.run_bind (detached_perform trivial) fun id => ?_) fun r => ?_
    · exact .run_ite (fun _ => .run_throw) fun _ => detached_perform ⟨rfl, rfl⟩
    · cases r with
      | duplicateKey => exact .run_throw
      | _ => exact .run_pure

theorem detached_release {normalizedIdentifier subjectId : String}
    {subjectType : AuthIdentifierSubjectType} {actorId : Option String} :
    (release session normalizedIdentifier subjectType subjectId actorId).run.Confined Detached :=
  .run_bind (detached_perform trivial) fun _ =>
    .run_bind (detached_perform trivial) fun _ => .run_pure

theorem detached_recordActivity (e : String → SecurityActivityEvent) :
    (recordActivity e).run.Confined Detached := by
  refine .run_bind (detached_perform trivial) fun id =>
    .run_bind (detached_perform trivial) fun r => ?_
  cases r with
  | duplicateKey => exact detached_raiseDuplicateKey
  | _ => exact .run_pure

theorem detached_revokeSessions {subjectType : AuthIdentifierSubjectType}
    {subjectId reason : String} :
    (revokeSessions subjectType subjectId reason).run.Confined Detached :=
  .run_bind (detached_perform trivial) fun _ =>
    .run_bind (detached_perform trivial) fun _ => .run_pure

/-- `if (c) { x }`, and then the rest. -/
theorem detached_if {c : Prop} [Decidable c] {x : Accounts.Handler PUnit}
    {f : PUnit → Accounts.Handler α} (hx : x.run.Confined Detached)
    (hf : ∀ u, (f u).run.Confined Detached) :
    (if c then x >>= f else f ⟨⟩).run.Confined Detached :=
  .run_ite (fun _ => .run_bind hx hf) fun _ => hf ⟨⟩

theorem detached_toMongoObjectId {value fieldName : String} :
    (toMongoObjectId value fieldName).run.Confined Detached := by
  cases hid : ObjectId.parse value with
  | none =>
    rw [toMongoObjectId_none hid]
    exact .run_throw
  | some id =>
    rw [toMongoObjectId_some hid]
    exact .run_pure

namespace MembersService

open Accounts.MembersService

theorem detached_forIdentifier {identifier : Option String} {f : String → Accounts.Handler Unit}
    (hf : ∀ x, (f x).run.Confined Detached) : (forIdentifier identifier f).run.Confined Detached := by
  cases identifier with
  | none => exact .run_pure
  | some x => exact .run_ite (fun _ => .run_pure) fun _ => hf x

theorem detached_recordMemberChange {member : Member} {actor : Option AuditActor} {b b' : Bool} :
    (recordMemberChange member actor b b').run.Confined Detached := by
  rw [recordMemberChange]
  exact detached_if (detached_recordActivity _) fun _ =>
    .run_ite (fun _ => detached_recordActivity _) fun _ => .run_pure

theorem detached_findDocumentById (id : String) :
    (findDocumentById id).run.Confined Detached := by
  refine .run_bind detached_toMongoObjectId fun id =>
    .run_bind (detached_perform trivial) fun found => ?_
  cases found with
  | some member => exact .run_pure
  | none => exact .run_throw

theorem detached_validateActivePolicy (id : String) :
    (validateActivePolicy id).run.Confined Detached := by
  refine .run_bind detached_toMongoObjectId fun id =>
    .run_bind (detached_perform trivial) fun found => ?_
  cases found with
  | some membershipType => exact .run_ite (fun _ => .run_pure) fun _ => .run_throw
  | none => exact .run_throw

theorem detached_save {loaded now : Member} : (save loaded now).run.Confined Detached := by
  refine .run_bind (detached_perform trivial) fun r => ?_
  cases r with
  | written => exact .run_pure
  | unmatched => exact .run_throw
  | duplicateKey => exact detached_raiseDuplicateKey

theorem detached_create (dto : CreateMemberDto) (actor : Option AuditActor) :
    (create accountEnv dto actor).run.Confined Detached := by
  refine .run_bind (detached_validateActivePolicy _) fun _ =>
    .run_bind (detached_perform trivial) fun taken => .run_ite (fun _ => .run_throw) fun _ => ?_
  refine .run_bind (detached_perform trivial) fun id => .run_bind (detached_perform trivial) fun r => ?_
  cases r with
  | duplicateKey => exact detached_raiseDuplicateKey
  | _ => exact .run_pure

theorem detached_update (dto : UpdateMemberDto) (actor : Option AuditActor) (id : String) :
    (update accountEnv dto actor id).run.Confined Detached := by
  refine .run_bind (detached_findDocumentById id) fun member => ?_
  refine detached_if (detached_forIdentifier fun _ => detached_reserve) fun _ => ?_
  have hpersist : (persist accountEnv dto actor member).run.Confined Detached := by
    refine .run_bind detached_save fun saved => ?_
    refine detached_if (detached_forIdentifier fun _ => detached_release) fun _ => ?_
    refine detached_if detached_revokeSessions fun _ => ?_
    exact .run_bind detached_recordMemberChange fun _ => .run_pure
  have htry : (tryCatch (persist accountEnv dto actor member) fun error => do
      if emailChanged accountEnv dto member then
        forIdentifier (nextEmail accountEnv dto) fun nextEmail =>
          releaseIdentifier nextEmail member.id (actor.map (·.id))
      throw error).run.Confined Detached :=
    .run_tryCatch hpersist fun error =>
      detached_if (detached_forIdentifier fun _ => detached_release) fun _ => .run_throw
  cases dto.membershipTypeId with
  | some membershipTypeId =>
    exact .run_bind (detached_validateActivePolicy membershipTypeId) fun _ => htry
  | none => exact htry

theorem detached_setMemberCredentials (actor : Option AuditActor)
    (id loginIdentifier password : String) :
    (setMemberCredentials accountEnv actor id loginIdentifier password).run.Confined Detached := by
  refine .run_bind (detached_findDocumentById id) fun member => ?_
  refine .run_bind (detached_perform trivial) fun taken => ?_
  refine .run_ite (fun _ => .run_throw) fun _ => .run_bind detached_reserve fun _ => ?_
  refine .run_bind (detached_perform trivial) fun passwordHash =>
    .run_bind (detached_perform trivial) fun passwordUpdatedAt => ?_
  refine .run_tryCatch (.run_bind detached_save fun saved => ?_) fun error =>
    .run_bind detached_release fun _ => .run_throw
  refine detached_if (detached_forIdentifier fun _ => detached_release) fun _ => ?_
  exact .run_bind detached_revokeSessions fun _ =>
    .run_bind detached_recordMemberChange fun _ => .run_pure

end MembersService

namespace StaffUsersService

open Accounts.StaffUsersService

variable {m : Hydrated StaffUser}

theorem detached_lift {x : Accounts.Handler α} (hx : x.run.Confined Detached) :
    ((liftM x : Working α).runFrom m).Confined Detached := .runFrom_liftM hx

theorem detached_save : ((save session).runFrom m).Confined Detached := by
  rw [save, Keeping.runFrom_get_bind]
  have hwrite : Detached _ (.inr (.inl (.write session
      (if m.isNew then .insertStaffUser m.now else .saveStaffUser m.loaded m.now)))) := by
    cases m.isNew with
    | true => trivial
    | false => trivial
  refine .runFrom_bind (detached_lift (detached_perform hwrite)) fun r m' => ?_
  cases r with
  | written => trivial
  | unmatched => trivial
  | duplicateKey => exact detached_lift detached_raiseDuplicateKey

theorem detached_startSession : startSession.run.Confined Detached :=
  .run_tryCatch (.run_bind (detached_perform trivial) fun _ => .run_pure) fun _ => .run_pure

section Persist

variable {callback : ℕ → Working Unit} {fallback : Working Unit}
  (hcallback : ∀ n m, ((callback n).runFrom m).Confined Detached)

include hcallback

theorem detached_attempt : ((Accounts.StaffUsersService.withTransaction.attempt callback).runFrom m).Confined
      Detached := by
  refine .runFrom_bind (detached_lift (detached_perform trivial)) fun n m => ?_
  refine .runFrom_tryCatch (.runFrom_bind (hcallback n m) fun _ m =>
    detached_lift (detached_perform trivial)) fun error m => ?_
  exact .runFrom_bind (detached_lift (detached_perform trivial)) fun _ _ => trivial

theorem detached_withTransaction {retries : ℕ} :
    ((Accounts.StaffUsersService.withTransaction callback retries).runFrom m).Confined
      Detached := by
  induction retries generalizing m with
  | zero => exact detached_attempt hcallback
  | succ retries ih =>
    exact .runFrom_tryCatch (detached_attempt hcallback) fun error m => .runFrom_ite ih trivial

theorem detached_persistWithIdentifier
    (hfallback : ∀ m, (fallback.runFrom m).Confined Detached) :
    ((persistWithIdentifier callback fallback).runFrom m).Confined Detached := by
  refine .runFrom_bind (detached_lift detached_startSession) fun started m => ?_
  cases started with
  | false => exact hfallback m
  | true =>
    refine .runFrom_bind (.runFrom_tryCatch (.runFrom_bind (detached_lift (detached_perform trivial))
      fun retries m => .runFrom_bind (detached_withTransaction hcallback) fun _ _ => trivial)
      fun error m => .runFrom_ite trivial trivial) fun completed m => ?_
    cases completed with
    | true => trivial
    | false => exact hfallback m

end Persist

theorem detached_validateRoles (roles : List SignIn.StaffRole) :
    (validateRoles roles).run.Confined Detached := .run_ite (fun _ => .run_throw) fun _ => .run_pure

theorem detached_create (dto : CreateStaffUserDto) (actor : Option AuditActor) :
    (create accountEnv dto actor).run.Confined Detached := by
  refine .run_bind (detached_validateRoles _) fun roles =>
    .run_bind (detached_perform trivial) fun taken => .run_ite (fun _ => .run_throw) fun _ => ?_
  refine .run_bind (detached_perform trivial) fun passwordHash =>
    .run_bind (detached_perform trivial) fun subjectId =>
      .run_bind (detached_perform trivial) fun passwordUpdatedAt => ?_
  refine .run_bind (.run_keep (detached_persistWithIdentifier (fun n m => ?_) fun m => ?_))
    fun created => .run_pure
  · exact .runFrom_bind (detached_lift detached_reserve) fun _ _ => detached_save
  · refine .runFrom_bind (detached_lift detached_reserve) fun _ _ =>
      .runFrom_tryCatch detached_save fun error m => ?_
    exact .runFrom_bind (detached_lift detached_release) fun _ _ => trivial

theorem detached_findDocumentById (id : String) :
    (findDocumentById id).run.Confined Detached := by
  refine .run_bind detached_toMongoObjectId fun id =>
    .run_bind (detached_perform trivial) fun found => ?_
  cases found with
  | some user => exact .run_pure
  | none => exact .run_throw

theorem detached_persistIdentifierChange {dto : UpdateStaffUserDto} {actor : Option AuditActor}
    {user : StaffUser} {nextRoles : List SignIn.StaffRole} :
    ((persistIdentifierChange accountEnv dto actor user nextRoles).runFrom m).Confined Detached := by
  have hchange : ∀ session m, ((do
      modify (applyUpdates accountEnv dto actor user nextRoles)
      save session
      releaseIdentifier user.email user.id (actor.map (·.id)) session : Working Unit).runFrom
        m).Confined Detached := by
    intro session m
    rw [Keeping.runFrom_modify_bind]
    exact .runFrom_bind detached_save fun _ _ => detached_lift detached_release
  refine detached_persistWithIdentifier (fun n m => ?_) fun m => ?_
  · exact .runFrom_bind (detached_lift detached_reserve) fun _ m => hchange (some n) m
  · refine .runFrom_bind (detached_lift detached_reserve) fun _ m =>
      .runFrom_tryCatch (hchange none m) fun error m => ?_
    exact .runFrom_bind (detached_lift detached_release) fun _ _ => trivial

theorem detached_update (dto : UpdateStaffUserDto) (actor : Option AuditActor) (id : String) :
    (update accountEnv dto actor id).run.Confined Detached := by
  refine .run_bind (detached_findDocumentById id) fun user => ?_
  have hrest : ∀ nextRoles : List SignIn.StaffRole, (do
      let saved ← Keeping.keep ⟨user, user, false⟩
        (if emailChanged accountEnv dto user then
          persistIdentifierChange accountEnv dto actor user nextRoles
        else do
          modify (applyUpdates accountEnv dto actor user nextRoles)
          save none)
      if securityChanged accountEnv dto user nextRoles then
        revokeSessions .staff user.id "staff-account-updated"
      recordChanges dto actor user nextRoles saved.now
      return toResponse saved.now : Accounts.Handler StaffUserResponseDto).run.Confined
        Detached := by
    intro nextRoles
    refine .run_bind (.run_keep (.runFrom_ite (detached_persistIdentifierChange accountEnv) ?_)) fun saved => ?_
    · rw [Keeping.runFrom_modify_bind]
      exact detached_save
    · refine detached_if detached_revokeSessions fun _ => .run_bind ?_ fun _ => .run_pure
      exact detached_if (detached_recordActivity _) fun _ =>
        .run_ite (fun _ => detached_recordActivity _) fun _ => .run_pure
  cases dto.roles with
  | some roles => exact .run_bind (detached_validateRoles roles) hrest
  | none => exact hrest user.roles

end StaffUsersService

end Detached

section System

variable {env accountEnv aggregates}

/-- No call but of a request's own service creates a reservation tied to an operation. -/
def Untying {β : Type} (op : Op β) : Prop :=
  ∀ session w, op.writes = some (session, w) → w.Unties

theorem untying_of_detached {β : Type} {op : Accounts.Op β} (h : Detached β op) :
    Untying (liftOp op) := by
  intro session w hw
  rcases op with ⟨session', q⟩ | c | op
  · cases hw
  · cases c with
    | write session' w' =>
      cases hw
      exact h
    | _ => cases hw
  · cases hw

theorem untying_of_legal {β : Type} {op : Op β} {inputs : OperationInput → Prop} {l : List Event}
    (h : Legal env inputs l op) : Untying op := by
  intro session w hw
  have hwarranted := h.warranted session w hw
  cases w with
  | account w =>
    cases hwarranted with
    | aggregate haggregate =>
      cases w with
      | insertIdentifier => cases haggregate
      | _ => trivial
  | _ => trivial

/-- What a program owes does not depend on the requests that it runs beside. -/
theorem service_conforms {Call Call' ρ ρ' α : Type} {body : Call → Prog Op ρ}
    {body' : Call' → Prog Op ρ'} {legal : Bool → List Event → (β : Type) → Op β → Prop}
    {post : Bool → List Event → α → Prop} {fl : Bool} {l : List Event} {p : Prog Op α}
    (h : Conforms (service body) legal post fl l p) : Conforms (service body') legal post fl l p := by
  induction p generalizing fl l with
  | done a => exact h
  | call op next ih =>
    obtain ⟨hlegal, hreturn, hthrow⟩ := h
    exact ⟨hlegal, fun b hb => ih _ (hreturn b hb), fun hf r hb => ih _ (hthrow hf r hb)⟩

/-- No call of a service that writes reservations creates one tied to an operation. -/
theorem writerBody_conforms (call : WriterCall A) :
    Conforms (writers env accountEnv aggregates) (fun _ _ _ op => Untying op) (fun _ _ _ => True)
      false [] (writerBody env accountEnv aggregates call) := by
  have haccount : ∀ {α : Type} {x : Accounts.Handler α}, x.run.Confined Detached →
      Conforms (writers env accountEnv aggregates) (fun _ _ _ op => Untying op)
        (fun _ _ _ => True) false [] (answerAccount x) := by
    intro α x hx
    have hlift : ∀ (β : Type) (op : Accounts.Op β), Detached β op → Untying (liftOp op) :=
      fun _ _ h => untying_of_detached h
    have hlifted : (account x).run.Confined fun _ op => Untying op := .run_lift hlift hx
    refine .bind ((Conforms.of_confined (F := fun _ => False) hlifted ?_ ?_).mono
      fun _ _ _ _ => trivial)
    · exact fun h => h
    · exact fun _ _ _ h => h
  cases call with
  | operation call =>
    have hcall : Conforms (writers env accountEnv aggregates) (fun _ _ _ op => Untying op)
        (fun _ _ _ => True) false [] (body env aggregates call) :=
      service_conforms ((body_conforms call).weaken untying_of_legal)
    exact .bind (hcall.mono fun _ _ _ _ => trivial)
  | createStaffUser dto actor => exact haccount (StaffUsersService.detached_create accountEnv dto actor)
  | updateStaffUser dto actor id =>
    exact haccount (StaffUsersService.detached_update accountEnv dto actor id)
  | createMember dto actor => exact haccount (MembersService.detached_create accountEnv dto actor)
  | updateMember dto actor id =>
    exact haccount (MembersService.detached_update accountEnv dto actor id)
  | setMemberCredentials actor id loginIdentifier password =>
    exact haccount (MembersService.detached_setMemberCredentials accountEnv actor id loginIdentifier
      password)

/-- A call creates no reservation tied to an operation; nothing more is asked of it. -/
def writersContract (ι : Type) [DecidableEq ι] (env : Environment)
    (accountEnv : SignIn.Environment) (aggregates : A → Aggregate) :
    Contract ι (writers env accountEnv aggregates) where
  inv _ _ := True
  legal _ _ _ _ op := Untying op
  post _ _ _ _ := True
  inv_call _ _ _ _ := trivial
  inv_env _ _ := trivial
  conforms := writerBody_conforms

/-- Every write that is applied heeds the reservations that it finds. -/
def heedful : Gate ι (WriterCall A) Op Store Event := fun _ _ op applied s _ =>
  applied = true → ∀ session w v, op.writes = some (session, w) →
    schema.view s session = some v → w.Heeds v

/-- A heedful call leaves every reservation regular, in the store and in every transaction. -/
theorem regular_step {s s' : Store} {J : List (Entry ι (WriterCall A) Event)} {i : ι} {β : Type}
    {op : Op β} {x : Option β} {evs : List Event} (h : Sessions.Everywhere schema RegularStore s)
    (hop : Untying op) (hgate : heedful i β op x.isSome s J)
    (heff : Sessions.Effect schema seen s op x evs s') :
    Sessions.Everywhere schema RegularStore s' := by
  refine h.step heff ?_ ?_
  · intro session w v happlied hw hv hregular
    exact hregular.write (hgate happlied session w v hw hv) (hop session w hw)
  · intro n t _ _ ht hfree hindexed
    exact h.committed.commit (h.views n t ht) hfree hindexed

end System

section Schedules

abbrev WritersRun := Config ℕ (WriterCall Empty) Op Store WriterResponse Event

def writerTurns (n i : ℕ) (date : Date) (id : ObjectId) : List (Move ℕ (WriterCall Empty) Choice) :=
  List.replicate n (.reply i ⟨date, id, ⟨false, ""⟩, 0⟩)

/-- `heedful`, checked. -/
def checksHeedful (_ : ℕ) (β : Type) (op : Op β) (applied : Bool) (s : Store)
    (_ : List (Entry ℕ (WriterCall Empty) Event)) : Bool :=
  !applied || op.writes.all fun (session, w) => (schema.view s session).all fun v => decide (w.Heeds v)

theorem heedful_of_checks {i : ℕ} {β : Type} {op : Op β} {applied : Bool} {s : Store}
    {J : List (Entry ℕ (WriterCall Empty) Event)} (h : checksHeedful i β op applied s J = true) :
    heedful i β op applied s J := by
  intro happlied session w v hw hv
  rw [checksHeedful, happlied, hw] at h
  simpa [hv] using h

def heedfulDriver : Driver (writers deployment SignIn.plain noAggregates)
    (heedful : Gate ℕ _ _ _ _) Choice := player.driver _ checksHeedful heedful_of_checks

def freeWriters : Driver (writers deployment SignIn.plain noAggregates)
    (anyCall : Gate ℕ _ _ _ _) Choice := player.driver _ (fun _ _ _ _ _ _ => true) fun _ => anyCall_pass

/-- The reservations that are stored. -/
def reserved (c : WritersRun) : List (String × AuthIdentifierStatus) :=
  c.store.committed.identifiers.map fun d => (d.normalizedIdentifier, d.status)

theorem regularStore_contested : RegularStore contested where
  indexed := contested_indexed
  regular d hd := by
    cases List.mem_singleton.mp hd
    refine ⟨by decide, fun htied => ?_⟩
    rcases htied with hpending | hlast
    · exact absurd rfl hpending
    · exact absurd rfl hlast

end Schedules

end Operations
