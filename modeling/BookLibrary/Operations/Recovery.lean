import BookLibrary.Interleaving.Sequential
import BookLibrary.Operations.Crashes
import BookLibrary.Operations.Execution
import BookLibrary.Operations.Reconciliation
import BookLibrary.Operations.Records

/-!
# Reservations that are recovered

Which reservation a request and a pass take for that of an assignment whose reference has not
been stored, against the one that `reserveAssignment` has made.
-/

namespace Operations

open AuthIdentifiers Documents Interleaving

section Evals

variable {α β : Type} {s s' : Store}

/-- The handler may end so on a store that nobody else touches. -/
abbrev EndsWith (x : Handler α) (s : Store) (r : Except Failure α) (s' : Store) : Prop :=
  Evals (Sessions.Op.exec schema) (Sessions.Op.fallible drawFails) x.run s r s'

theorem perform_endsWith {op : Op β} {b : β} :
    EndsWith (perform op) s (.ok b) s' ↔ Sessions.Op.exec schema β op s b s' := by
  constructor
  · intro h
    rcases h with ⟨c, s₁, hexec, hend⟩ | ⟨-, hthrown⟩
    · obtain ⟨heq, rfl⟩ := hend
      cases heq
      exact hexec
    · rcases hthrown with ⟨e, s₁, -, hend, -⟩ | ⟨-, hend, -⟩
      · cases hend
      · cases hend
  · intro h
    exact .inl ⟨b, s', h, rfl, rfl⟩

theorem write_endsWith_of {w : Write} {docs : List Document}
    (h : schema.write w s.committed = .written docs) :
    EndsWith (write none w) s (.ok docs) { s with committed := schema.putAll docs s.committed } := by
  refine Evals.run_bind_ok.mpr ⟨.written docs, _, perform_endsWith.mpr ⟨h.symm, rfl⟩, ?_⟩
  exact Evals.run_pure.mpr ⟨rfl, rfl⟩

theorem findOwn_endsWith {q : OperationQuery β} {b : β} :
    EndsWith (findOwn none q) s (.ok b) s' ↔
      Database.answersOperation β q s.committed b ∧ s' = s := by
  refine perform_endsWith.trans ⟨?_, ?_⟩
  · rintro ⟨⟨v, hv, hb⟩, rfl⟩
    cases hv
    exact ⟨hb, rfl⟩
  · rintro ⟨hb, rfl⟩
    exact ⟨⟨s'.committed, rfl, hb⟩, rfl⟩

/-- A write that returns has met no index. -/
theorem write_endsWith {session : Option ℕ} {w : Write} {docs : List Document}
    (h : EndsWith (write session w) s (.ok docs) s') :
    ∃ v, docs = (schema.write w v).docs := by
  obtain ⟨r, s₁, hwrite, hrest⟩ := Evals.run_bind_ok.mp h
  have hexec := perform_endsWith.mp hwrite
  have hr : ∃ v, r = schema.write w v := by
    cases session with
    | none => exact ⟨s.committed, hexec.1⟩
    | some n =>
      obtain ⟨t, -, heq, -⟩ := hexec
      exact ⟨_, heq⟩
  obtain ⟨v, rfl⟩ := hr
  refine ⟨v, ?_⟩
  cases hw : schema.write w v with
  | written ds =>
    rw [hw] at hrest
    exact Except.ok.inj (Evals.run_pure.mp hrest).1
  | unmatched =>
    rw [hw] at hrest
    exact Except.ok.inj (Evals.run_pure.mp hrest).1
  | duplicateKey =>
    rw [hw] at hrest
    obtain ⟨_, _, -, hthrow⟩ := Evals.run_bind_ok.mp hrest
    cases (Evals.run_throw.mp hthrow).1

end Evals

section Created

open AuthIdentifierService

/-- The pending action that `reserveAssignment` stores. -/
def reservingAction : AuthIdentifierAssignmentAction → AuthIdentifierPendingAction
  | .claim => .claim
  | .replace => .replace
  | .release => .release
  | .retain => .resolveConflict

/-- The reservation is pending for the operation, with the subject and the action of the
assignment. -/
def Alike (operationId : String) (a : AuthIdentifierAssignmentInput) (r : AuthIdentifier) : Prop :=
  Database.isPendingAs operationId a.subjectType a.subjectId (some (reservingAction a.action)) r =
    true

instance (operationId : String) (a : AuthIdentifierAssignmentInput) (r : AuthIdentifier) :
    Decidable (Alike operationId a r) := inferInstanceAs (Decidable (_ = true))

/-- The reservation is stored as `reserveAssignment` has made it for the assignment. -/
def Created (v : Database) (operationId : String) (a : AuthIdentifierAssignmentInput)
    (r : AuthIdentifier) : Prop :=
  r ∈ v.identifiers ∧ ∃ actorId session s s',
    EndsWith (reserveAssignment operationId a actorId session) s (.ok r) s'

variable {operationId : String} {a : AuthIdentifierAssignmentInput} {r : AuthIdentifier}
  {session : Option ℕ} {s s' : Store} {w : Write} {unavailable : Failure}

/-- What is obtained is the one document of the write. -/
theorem obtain_endsWith (h : EndsWith (obtain session w unavailable) s (.ok r) s') :
    ∃ v, reservationOf (Database.unchecked v w).docs = some r := by
  rcases Evals.run_tryCatch.mp h with ⟨r', hr', hbody⟩ | ⟨e, s₁, -, hthrow⟩
  · cases hr'
    obtain ⟨docs, s₁, hwrite, hrest⟩ := Evals.run_bind_ok.mp hbody
    obtain ⟨v, rfl⟩ := write_endsWith hwrite
    refine ⟨v, ?_⟩
    cases hd : reservationOf (schema.write w v).docs with
    | none =>
      rw [hd] at hrest
      cases (Evals.run_throw.mp hrest).1
    | some d =>
      rw [hd] at hrest
      cases (Evals.run_pure.mp hrest).1
      rcases docs_write w v with hnil | hdocs
      · rw [hnil] at hd
        cases hd
      · rw [← hdocs]
        exact hd
  · by_cases hduplicate : e.isDuplicateKey = true
    · rw [if_pos hduplicate] at hthrow
      cases (Evals.run_throw.mp hthrow).1
    · rw [if_neg hduplicate] at hthrow
      cases (Evals.run_throw.mp hthrow).1

theorem reservationOf_update {p : AuthIdentifier → Bool} {f : AuthIdentifier → AuthIdentifier}
    {docs : List AuthIdentifier}
    (h : reservationOf (Accounts.Database.update .identifier p f docs).docs = some r) :
    ∃ d, r = f d := by
  rw [Accounts.Database.update] at h
  split at h
  · cases h
    exact ⟨_, rfl⟩
  · cases h

theorem takeSource_endsWith {id : String} {action : AuthIdentifierPendingAction}
    {sources : List AuthIdentifierStatus} {actorId : String} {now : Date}
    (haction : action = reservingAction a.action)
    (h : EndsWith (obtain session (.updateIdentifier (.takeSource operationId id action sources
      a.subjectType a.subjectId actorId now)) unavailable) s (.ok r) s') :
    Alike operationId a r := by
  obtain ⟨v, hv⟩ := obtain_endsWith h
  obtain ⟨d, rfl⟩ := reservationOf_update hv
  simp [Alike, Database.isPendingAs, Database.isPendingFor, IdentifierUpdate.apply, haction]

theorem upsertIdentifier_endsWith {u : IdentifierUpsert} (hoperation : u.operationId = operationId)
    (hsubject : u.subjectType = a.subjectType ∧ u.subjectId = a.subjectId)
    (haction : u.pendingAction = reservingAction a.action)
    (h : EndsWith (obtain session (.upsertIdentifier u) unavailable) s (.ok r) s') :
    Alike operationId a r := by
  obtain ⟨v, hv⟩ := obtain_endsWith h
  have hr : ∃ old, r = u.reserves old := by
    rw [Database.unchecked] at hv
    split at hv
    · rename_i d _
      cases hv
      exact ⟨some d, rfl⟩
    · rw [Accounts.Database.insert] at hv
      split at hv
      · cases hv
      · cases hv
        exact ⟨none, rfl⟩
  obtain ⟨old, rfl⟩ := hr
  cases old <;>
    simp [Alike, Database.isPendingAs, Database.isPendingFor, IdentifierUpsert.reserves,
      IdentifierUpsert.apply, IdentifierUpsert.created, hoperation, hsubject, haction]

/-- What `reserveAssignment` makes is pending for its operation and assignment. -/
theorem reserveAssignment_endsWith {actorId : String}
    (h : EndsWith (reserveAssignment operationId a actorId session) s (.ok r) s') :
    Alike operationId a r := by
  -- the two that take a reservation over, and the two that look for one of the identifier
  have take : ∀ e, (a.action = .release ∨ a.action = .retain) →
      EndsWith (if a.sourceReservationId.getD "" = "" then
        throw (.unprocessable "Source reservation is required for this assignment")
      else do
        let now ← draw .currentDate
        let sourceReservationId ← castObjectId "_id" (a.sourceReservationId.getD "")
        obtain session (.updateIdentifier (.takeSource operationId sourceReservationId
          (if a.action = .retain then .resolveConflict else .release)
          (if a.action = .retain then [.conflict] else [.active, .conflict])
          a.subjectType a.subjectId actorId now)) e) s (.ok r) s' → Alike operationId a r := by
    intro e haction h
    by_cases hsource : a.sourceReservationId.getD "" = ""
    · rw [if_pos hsource] at h
      cases (Evals.run_throw.mp h).1
    · rw [if_neg hsource] at h
      obtain ⟨now, s₁, -, h⟩ := Evals.run_bind_ok.mp h
      obtain ⟨id, s₂, -, h⟩ := Evals.run_bind_ok.mp h
      refine takeSource_endsWith ?_ h
      rcases haction with heq | heq
      · rw [heq]
        rfl
      · rw [heq]
        rfl
  rw [reserveAssignment] at h
  cases haction : a.action with
  | release =>
    simp only [haction] at h take
    exact take _ (.inl trivial) h
  | retain =>
    simp only [haction] at h take
    exact take _ (.inr trivial) h
  | claim | replace =>
    simp only [haction] at h
    cases hnormalized : a.normalizedIdentifier with
    | none =>
      simp only [hnormalized] at h
      cases (Evals.run_throw.mp h).1
    | some normalizedIdentifier =>
      cases htype : a.identifierType with
      | none =>
        simp only [hnormalized, htype] at h
        cases (Evals.run_throw.mp h).1
      | some identifierType =>
        simp only [hnormalized, htype] at h
        by_cases hempty : normalizedIdentifier = ""
        · rw [if_pos hempty] at h
          cases (Evals.run_throw.mp h).1
        · rw [if_neg hempty] at h
          obtain ⟨now, s₁, -, h⟩ := Evals.run_bind_ok.mp h
          obtain ⟨id, s₂, -, h⟩ := Evals.run_bind_ok.mp h
          exact upsertIdentifier_endsWith rfl ⟨rfl, rfl⟩ (by rw [haction]; rfl) h

end Created

section Recovered

open AuthIdentifierService (findRecoverableReservation)
open AuthIdentifierReconciliationService (findReservation attachReference attachInMemory awaits
  attachMissingReservationReferences)

/-- The handler may answer so on the store. -/
def MayAnswer {α : Type} (x : Handler α) (v : Database) (b : α) : Prop :=
  ∃ s s' : Store, s.committed = v ∧ EndsWith x s (.ok b) s'

/-- The assignment is the stored one of the input, and has no reservation yet. -/
structure Persists (a : AuthIdentifierAssignmentInput) (p : AuthIdentifierOperationAssignment) :
    Prop where
  assignmentId : p.assignmentId = a.assignmentId
  subjectType : p.subjectType = a.subjectType
  subjectId : p.subjectId = a.subjectId
  action : p.action = a.action
  target : p.targetReservationId = none

/-- The references of the assignment in the store are to that reservation, or were there in
`v`. -/
def Refers (d : AuthIdentifierOperation) (assignmentId : String) (created : Option AuthIdentifier)
    (v x : Database) : Prop :=
  ∀ y ∈ x.operations, y.operationId = d.operationId → ∀ q ∈ y.assignments,
    q.assignmentId = assignmentId → ∀ id, q.targetReservationId = some id →
      created.map (·.id) = some id ∨
      ∃ y₀ ∈ v.operations, y₀.operationId = d.operationId ∧ ∃ q₀ ∈ y₀.assignments,
        q₀.assignmentId = assignmentId ∧ q₀.targetReservationId = some id

/-- Whoever looks for the reservation of the assignment comes to the one that was created, and
if there is none, to none: a pass that looks it up, a request that does, and a pass that
attaches reservations, in the store wherever it stops and in memory. -/
structure Recovers (env : Environment) (instanceId : String) (v : Database)
    (d : AuthIdentifierOperation) (a : AuthIdentifierAssignmentInput)
    (p : AuthIdentifierOperationAssignment) (created : Option AuthIdentifier) : Prop where
  found : ∀ r, MayAnswer (findReservation d p) v r → r = created
  recovered : ∀ persisted r, persisted.bind (·.targetReservationId) = none →
    MayAnswer (findRecoverableReservation d.operationId a persisted none) v r → r = created
  attached : ∀ s : Store, s.committed = v →
    Guards (Sessions.Op.exec schema) (Sessions.Op.fallible drawFails)
      (fun s' => Refers d p.assignmentId created v s'.committed)
      (fun r _ => ∀ d', r = .ok d' → ∀ q ∈ d'.assignments, q.assignmentId = p.assignmentId →
        ∀ id, q.targetReservationId = some id → created.map (·.id) = some id)
      (attachMissingReservationReferences env instanceId d).run s

variable {env : Environment} {instanceId : String} {v : Database} {d : AuthIdentifierOperation}
  {a : AuthIdentifierAssignmentInput} {p : AuthIdentifierOperationAssignment}
  {created r : Option AuthIdentifier}

theorem mayAnswer_findOwn {β : Type} {q : OperationQuery β} {b : β} :
    MayAnswer (findOwn none q) v b ↔ Database.answersOperation β q v b := by
  constructor
  · rintro ⟨s, s', rfl, h⟩
    exact (findOwn_endsWith.mp h).1
  · intro h
    exact ⟨.init v, .init v, rfl, findOwn_endsWith.mpr ⟨h, rfl⟩⟩

theorem mayAnswer_findReservation (hp : Persists a p) :
    MayAnswer (findReservation d p) v r ↔
      FindOne (Database.isPendingAs d.operationId a.subjectType a.subjectId
        (pendingActionOf a.action)) v.identifiers r := by
  rw [findReservation, hp.target, hp.subjectType, hp.subjectId, hp.action]
  exact mayAnswer_findOwn

theorem mayAnswer_findRecoverable {persisted : Option AuthIdentifierOperationAssignment}
    (hnone : persisted.bind (·.targetReservationId) = none) :
    MayAnswer (findRecoverableReservation d.operationId a persisted none) v r ↔
      FindOne (fun x => decide (Alike d.operationId a x)) v.identifiers r := by
  have haction : some ((pendingActionOf a.action).getD .resolveConflict) =
      some (reservingAction a.action) := by cases a.action <;> rfl
  have hdecide : (fun x => decide (Alike d.operationId a x)) =
      Database.isPendingAs d.operationId a.subjectType a.subjectId
        (some (reservingAction a.action)) := by
    funext x
    rw [Bool.eq_iff_iff, decide_eq_true_iff]
    exact Iff.rfl
  rw [findRecoverableReservation, hnone, haction, hdecide]
  exact mayAnswer_findOwn

theorem mem_of_adjust {assignmentId : String}
    {f : AuthIdentifierOperationAssignment → AuthIdentifierOperationAssignment}
    {assignments : List AuthIdentifierOperationAssignment} {q : AuthIdentifierOperationAssignment}
    (h : q ∈ adjust assignmentId f assignments) :
    q ∈ assignments ∨ ∃ q₀ ∈ assignments, q₀.assignmentId = assignmentId ∧ q = f q₀ := by
  induction assignments with
  | nil => cases h
  | cons b assignments ih =>
    rw [adjust] at h
    by_cases hid : b.assignmentId = assignmentId
    · rw [if_pos hid] at h
      rcases List.mem_cons.mp h with rfl | h
      · exact .inr ⟨b, List.mem_cons_self, hid, rfl⟩
      · exact .inl (List.mem_cons_of_mem _ h)
    · rw [if_neg hid] at h
      rcases List.mem_cons.mp h with rfl | h
      · exact .inl List.mem_cons_self
      · rcases ih h with hold | ⟨q₀, hq₀, hrest⟩
        · exact .inl (List.mem_cons_of_mem _ hold)
        · exact .inr ⟨q₀, List.mem_cons_of_mem _ hq₀, hrest⟩

theorem mem_of_attachInMemory {reservation : AuthIdentifier}
    {assignments : List AuthIdentifierOperationAssignment} {q : AuthIdentifierOperationAssignment}
    (h : q ∈ attachInMemory reservation assignments) :
    q ∈ assignments ∨ ∃ q₀ ∈ assignments, awaits reservation q₀ = true ∧
      q = { q₀ with targetReservationId := some reservation.id } := by
  induction assignments with
  | nil => cases h
  | cons b assignments ih =>
    rw [attachInMemory] at h
    by_cases hawaits : awaits reservation b = true
    · rw [if_pos hawaits] at h
      rcases List.mem_cons.mp h with rfl | h
      · exact .inr ⟨b, List.mem_cons_self, hawaits, rfl⟩
      · exact .inl (List.mem_cons_of_mem _ h)
    · rw [if_neg hawaits] at h
      rcases List.mem_cons.mp h with rfl | h
      · exact .inl List.mem_cons_self
      · rcases ih h with hold | ⟨q₀, hq₀, hrest⟩
        · exact .inl (List.mem_cons_of_mem _ hold)
        · exact .inr ⟨q₀, List.mem_cons_of_mem _ hq₀, hrest⟩

variable {x : Database} {assignmentId : String}

theorem Refers.refl (d : AuthIdentifierOperation) (assignmentId : String)
    (created : Option AuthIdentifier) (v : Database) : Refers d assignmentId created v v :=
  fun y hy hoperation q hq hid _ htarget => .inr ⟨y, hy, hoperation, q, hq, hid, htarget⟩

/-- An update keeps the references, if it gives the assignment no other than the created
reservation's. -/
theorem Refers.update (h : Refers d assignmentId created v x) {u : OperationUpdate}
    (hu : ∀ y, ∀ q ∈ (u.apply y).assignments, q.assignmentId = assignmentId →
      ∀ id, q.targetReservationId = some id → created.map (·.id) = some id ∨
        ∃ q₀ ∈ y.assignments, q₀.assignmentId = assignmentId ∧ q₀.targetReservationId = some id) :
    Refers d assignmentId created v (schema.wrote (.updateOperation u) x) := by
  by_cases hne : schema.write (.updateOperation u) x = .duplicateKey
  · rw [wrote_of_duplicateKey hne]
    exact h
  · have hunchecked : Database.unchecked x (.updateOperation u) =
        Accounts.Database.update .operation u.selects u.apply x.operations := rfl
    rcases wrote_update hunchecked hne with ⟨y₀, hy₀, -, -, hwrote⟩ | ⟨-, -, hwrote⟩
    · rw [hwrote]
      intro y hy hoperation q hq hid id htarget
      rcases mem_replaceOne.mp hy with rfl | ⟨hy, -⟩
      · rw [OperationUpdate.apply_operationId] at hoperation
        rcases hu y₀ q hq hid id htarget with hcreated | ⟨q₀, hq₀, hid₀, htarget₀⟩
        · exact .inl hcreated
        · exact h y₀ hy₀ hoperation q₀ hq₀ hid₀ id htarget₀
      · exact h y hy hoperation q hq hid id htarget
    · rw [hwrote]
      exact h

/-- What is said of the assignment in memory. -/
structure Remembers (d : AuthIdentifierOperation) (a : AuthIdentifierAssignmentInput)
    (created : Option AuthIdentifier) (d' : AuthIdentifierOperation) : Prop where
  operationId : d'.operationId = d.operationId
  same : ∀ q ∈ d'.assignments, q.assignmentId = a.assignmentId →
    q.subjectType = a.subjectType ∧ q.subjectId = a.subjectId ∧ q.action = a.action
  target : ∀ q ∈ d'.assignments, q.assignmentId = a.assignmentId →
    ∀ id, q.targetReservationId = some id → created.map (·.id) = some id

theorem Remembers.init (hnodup : (d.assignments.map (·.assignmentId)).Nodup)
    (hp : p ∈ d.assignments) (ha : Persists a p) : Remembers d a created d := by
  have heq : ∀ q ∈ d.assignments, q.assignmentId = a.assignmentId → q = p :=
    fun q hq hid => List.inj_on_of_nodup_map hnodup hq hp (hid.trans ha.assignmentId.symm)
  refine ⟨rfl, fun q hq hid => ?_, fun q hq hid id htarget => ?_⟩
  · rw [heq q hq hid]
    exact ⟨ha.subjectType, ha.subjectId, ha.action⟩
  · rw [heq q hq hid, ha.target] at htarget
    cases htarget

/-- A reservation that waits for the like of the assignment is the one that was created. -/
theorem created_of_awaits {reservation : AuthIdentifier} {q : AuthIdentifierOperationAssignment}
    (halike : ∀ r ∈ v.identifiers, Alike d.operationId a r → created = some r)
    (hmem : reservation ∈ v.identifiers)
    (hpending : Database.isPendingFor d.operationId reservation = true)
    (hsame : q.subjectType = a.subjectType ∧ q.subjectId = a.subjectId ∧ q.action = a.action)
    (hawaits : awaits reservation q = true) : created = some reservation := by
  obtain ⟨htype, hid, haction⟩ := hsame
  simp only [awaits, htype, hid, haction, Bool.and_eq_true, decide_eq_true_eq] at hawaits
  obtain ⟨⟨⟨⟨-, htype'⟩, hid'⟩, hsome⟩, haction'⟩ := hawaits
  have hreserving : pendingActionOf a.action = some (reservingAction a.action) := by
    cases haction : a.action with
    | retain =>
      rw [haction] at hsome
      cases hsome
    | _ => rfl
  refine halike reservation hmem ?_
  rw [Alike, Database.isPendingAs, hpending, ← htype', ← hid', ← haction', hreserving]
  simp

/-- One round attaches what was created, or what is another assignment's. -/
theorem attachReference_yields {base : Database} {reservation : AuthIdentifier}
    {d' : AuthIdentifierOperation}
    (halike : ∀ r ∈ v.identifiers, Alike d.operationId a r → created = some r)
    (hmem : reservation ∈ v.identifiers)
    (hpending : Database.isPendingFor d.operationId reservation = true)
    (hd' : Remembers d a created d') :
    Yields (Refers d a.assignmentId created v) none base (attachReference env instanceId d' reservation)
      x fun d'' _ => Remembers d a created d'' := by
  rw [attachReference]
  cases hfind : d'.assignments.find? (awaits reservation) with
  | none => exact .pure hd'
  | some q =>
    have hq := List.mem_of_find?_eq_some hfind
    have hawaits := List.find?_some hfind
    refine updateOperation_then (fun _ h => h.update fun y q' hq' hid id htarget => ?_) fun _ =>
      .pure ⟨hd'.operationId, fun q' hq' hid => ?_, fun q' hq' hid id htarget => ?_⟩
    · rcases mem_of_adjust hq' with hold | ⟨q₀, -, hid₀, rfl⟩
      · exact .inr ⟨q', hold, hid, htarget⟩
      · left
        have hassignment : q.assignmentId = a.assignmentId := hid₀.symm.trans hid
        rw [created_of_awaits halike hmem hpending (hd'.same q hq hassignment) hawaits]
        exact htarget
    · rcases mem_of_attachInMemory hq' with hold | ⟨q₀, hq₀, -, rfl⟩
      · exact hd'.same q' hold hid
      · exact hd'.same q₀ hq₀ hid
    · rcases mem_of_attachInMemory hq' with hold | ⟨q₀, hq₀, hawaits₀, rfl⟩
      · exact hd'.target q' hold hid id htarget
      · rw [created_of_awaits halike hmem hpending (hd'.same q₀ hq₀ hid) hawaits₀]
        exact htarget

theorem attachReferences_yields {base : Database} {reservations : List AuthIdentifier}
    {d' : AuthIdentifierOperation}
    (halike : ∀ r ∈ v.identifiers, Alike d.operationId a r → created = some r)
    (hreservations : ∀ r ∈ reservations, r ∈ v.identifiers ∧
      Database.isPendingFor d.operationId r = true)
    (hd' : Remembers d a created d') :
    Yields (Refers d a.assignmentId created v) none base
      (reservations.foldlM (attachReference env instanceId) d') x
      fun d'' _ => Remembers d a created d'' := by
  induction reservations generalizing d' x with
  | nil => exact .pure hd'
  | cons reservation reservations ih =>
    rw [List.foldlM_cons]
    obtain ⟨hmem, hpending⟩ := hreservations reservation List.mem_cons_self
    refine .bind (attachReference_yields halike hmem hpending hd') fun d'' _ hd'' => ?_
    exact ih (fun r hr => hreservations r (List.mem_cons_of_mem _ hr)) hd''

theorem attachMissingReservationReferences_yields {base : Database}
    (halike : ∀ r ∈ v.identifiers, Alike d.operationId a r → created = some r)
    (hd : Remembers d a created d) :
    Yields (Refers d a.assignmentId created v) none base
      (attachMissingReservationReferences env instanceId d) v
      fun d' _ => Remembers d a created d' := by
  rw [attachMissingReservationReferences]
  refine find_then fun reservations hlisted => ?_
  obtain ⟨order, hperm, rfl⟩ := hlisted
  refine .ite (fun _ => ?_) fun _ => attachReferences_yields halike (fun r hr => ?_) hd
  · refine .bind (R := fun _ _ => True) (.ite (fun _ => .pure trivial) fun _ => ?_)
      fun _ _ _ => .pure hd
    refine updateOperation_then (fun _ h => h.update fun y q hq hid id htarget => ?_) fun _ =>
      .pure trivial
    exact .inr ⟨q, hq, hid, htarget⟩
  · exact List.mem_filter.mp (hperm.mem_iff.mp (List.mem_of_mem_take hr))

/-- The recovery agrees with what was created exactly where the reservation created for a
`retain` is not the question, and no other reservation is pending with the subject and the
action of the assignment. -/
theorem recovers_iff (hnodup : (d.assignments.map (·.assignmentId)).Nodup)
    (hp : p ∈ d.assignments) (ha : Persists a p)
    (hcreated : ∀ r, created = some r → Created v d.operationId a r) :
    Recovers env instanceId v d a p created ↔
      (created = none ∨ a.action ≠ .retain) ∧
      ∀ r ∈ v.identifiers, Alike d.operationId a r → created = some r := by
  have halike : ∀ r, created = some r → r ∈ v.identifiers ∧ Alike d.operationId a r := by
    intro r hr
    obtain ⟨hmem, actorId, session, s, s', hends⟩ := hcreated r hr
    exact ⟨hmem, reserveAssignment_endsWith hends⟩
  constructor
  · intro h
    constructor
    · cases hc : created with
      | none => exact .inl rfl
      | some r₀ =>
        right
        intro hretain
        -- the pass looks for an action that no reservation has
        have hnone : MayAnswer (AuthIdentifierReconciliationService.findReservation d p) v none := by
          rw [mayAnswer_findReservation ha, hretain]
          intro r _
          simp [pendingActionOf, Database.isPendingAs]
        have heq := h.found none hnone
        rw [hc] at heq
        cases heq
    · intro r hr hal
      have hanswer : MayAnswer (findRecoverableReservation d.operationId a none none) v (some r) :=
        (mayAnswer_findRecoverable rfl).mpr ⟨hr, decide_eq_true hal⟩
      exact (h.recovered none (some r) rfl hanswer).symm
  · rintro ⟨hretain, hunique⟩
    have hfound : ∀ r, FindOne (fun x => decide (Alike d.operationId a x)) v.identifiers r →
        r = created := by
      intro r hr
      cases r with
      | some r => exact (hunique r hr.1 (of_decide_eq_true hr.2)).symm
      | none =>
        cases hc : created with
        | none => rfl
        | some r₀ =>
          obtain ⟨hmem, hal⟩ := halike r₀ hc
          exact absurd hal (of_decide_eq_false (hr r₀ hmem))
    refine ⟨fun r hr => ?_, fun persisted r hnone hr => ?_, fun s hs => ?_⟩
    · rw [mayAnswer_findReservation ha] at hr
      by_cases haction : a.action = .retain
      · -- then nothing was created, and nothing is found
        have hnone := hretain.resolve_right (not_not_intro haction)
        rw [haction] at hr
        cases r with
        | none => exact hnone.symm
        | some r =>
          have hselect := hr.2
          simp [pendingActionOf, Database.isPendingAs] at hselect
      · refine hfound r ?_
        have hreserving : pendingActionOf a.action = some (reservingAction a.action) := by
          cases hact : a.action with
          | retain => exact absurd hact haction
          | _ => rfl
        rw [hreserving] at hr
        cases r with
        | some r => exact ⟨hr.1, decide_eq_true hr.2⟩
        | none =>
          intro y hy
          exact decide_eq_false (by rw [Alike, hr y hy]; exact Bool.false_ne_true)
    · exact hfound r ((mayAnswer_findRecoverable hnone).mp hr)
    · have hyields : Yields (Refers d a.assignmentId created v) none v
          (attachMissingReservationReferences env instanceId d) v
          fun d' _ => Remembers d a created d' :=
        attachMissingReservationReferences_yields hunique (.init hnodup hp ha)
      have hguards := hyields s ⟨hs ▸ Refers.refl d a.assignmentId created v, hs⟩
      rw [ha.assignmentId]
      refine hguards.mono fun r s' hend d' hd' => ?_
      obtain ⟨v', -, hremembers⟩ := hend
      exact (hremembers d' hd').target

section Schedules

/-- The first member is to keep the identifier. -/
def retained : AuthIdentifierAssignmentInput :=
  AuthIdentifierService.retainAssignment conflictId.1 resolution ⟨.member, firstMemberId.1⟩

/-- The second is to have another. -/
def replaced : AuthIdentifierAssignmentInput where
  assignmentId := "resolution:member:" ++ secondMemberId.1
  subjectType := .member
  subjectId := secondMemberId.1
  action := .replace
  normalizedIdentifier := some "olivia-2"
  identifierType := some .loginIdentifier
  sourceReservationId := some conflictId.1
  identifierCorrelationHash := none
  correlationKeyVersion := none

def storedAssignment (a : AuthIdentifierAssignmentInput) : AuthIdentifierOperationAssignment where
  assignmentId := a.assignmentId
  subjectType := a.subjectType
  subjectId := a.subjectId
  action := a.action
  sourceReservationId := a.sourceReservationId
  targetReservationId := none
  identifierCorrelationHash := none
  correlationKeyVersion := none
  status := .pending
  appliedAt := none

theorem storedAssignment_persists (a : AuthIdentifierAssignmentInput) :
    Persists a (storedAssignment a) := ⟨rfl, rfl, rfl, rfl, rfl⟩

/-- The resolution of the conflict, before any of its references is stored. -/
def resolving : AuthIdentifierOperation :=
  AuthIdentifierService.newOperation
    (AuthIdentifierService.conflictInput resolution [retained, replaced] administrator) firstId.1
    [storedAssignment retained, storedAssignment replaced] 0

/-- The reservation of the conflict, as `reserveAssignment` has made it for the first member. -/
def retainedReservation : AuthIdentifier :=
  { Accounts.reservation conflictId.1 "olivia" .pending (.member, firstMemberId.1) with
    conflictingSubjects := some [⟨.member, firstMemberId.1⟩, ⟨.member, secondMemberId.1⟩]
    conflictResolutionStatus := some .reviewable
    pendingOperationId := some "resolution"
    pendingAction := some .resolveConflict
    updatedBy := Accounts.staffUserId.1 }

/-- The reservation that it has made for the second. -/
def replacedReservation : AuthIdentifier :=
  { Accounts.reservation firstId.1 "olivia-2" .pending (.member, secondMemberId.1) with
    identifierType := .loginIdentifier
    pendingOperationId := some "resolution"
    pendingAction := some .replace
    createdBy := Accounts.staffUserId.1
    updatedBy := Accounts.staffUserId.1 }

/-- Both reservations are made, and neither is referred to. -/
def bothReserved : Database :=
  { contested with
    identifiers := [replacedReservation, retainedReservation]
    operations := [resolving] }

theorem created_retained : Created bothReserved "resolution" retained retainedReservation := by
  refine ⟨by decide, Accounts.staffUserId.1, none, .init contested, { Sessions.Store.init contested with
    committed := schema.putAll [.identifier retainedReservation] contested }, ?_⟩
  rw [AuthIdentifierService.reserveAssignment]
  show EndsWith (if retained.sourceReservationId.getD "" = "" then _ else _) _ _ _
  rw [if_neg (by decide)]
  refine Evals.run_bind_ok.mpr ⟨0, _, perform_endsWith.mpr rfl, ?_⟩
  have hcast : castObjectId "_id" (retained.sourceReservationId.getD "") = pure conflictId.1 := by
    show castObjectId "_id" conflictId.1 = pure conflictId.1
    rw [castObjectId, ObjectId.parse_text]
  rw [hcast, pure_bind]
  refine Evals.run_tryCatch.mpr (.inl ⟨_, rfl, Evals.run_bind_ok.mpr ⟨[.identifier retainedReservation],
    _, write_endsWith_of (by decide +kernel), Evals.run_pure.mpr ⟨rfl, rfl⟩⟩⟩)

theorem created_replaced : Created bothReserved "resolution" replaced replacedReservation := by
  refine ⟨by decide, Accounts.staffUserId.1, none, .init contested, { Sessions.Store.init contested with
    committed := schema.putAll [.identifier replacedReservation] contested }, ?_⟩
  rw [AuthIdentifierService.reserveAssignment]
  show EndsWith (if "olivia-2" = "" then _ else _) _ _ _
  rw [if_neg (by decide)]
  refine Evals.run_bind_ok.mpr ⟨0, _, perform_endsWith.mpr rfl, ?_⟩
  refine Evals.run_bind_ok.mpr ⟨firstId, _, perform_endsWith.mpr rfl, ?_⟩
  refine Evals.run_tryCatch.mpr (.inl ⟨_, rfl, Evals.run_bind_ok.mpr ⟨[.identifier replacedReservation],
    _, write_endsWith_of (by decide +kernel), Evals.run_pure.mpr ⟨rfl, rfl⟩⟩⟩)

/-- The reservation of the second member is recovered. -/
theorem recovers_replaced : Recovers deployment "pass" bothReserved resolving replaced
    (storedAssignment replaced) (some replacedReservation) := by
  refine (recovers_iff (by decide) (by decide) (storedAssignment_persists replaced) ?_).mpr
    ⟨.inr (by decide), by decide⟩
  intro r hr
  cases hr
  exact created_replaced

/-- That of the first is found by the request, and by no pass. -/
theorem retained_unrecovered : Created bothReserved "resolution" retained retainedReservation ∧
    MayAnswer (findRecoverableReservation resolving.operationId retained
      (some (storedAssignment retained)) none) bothReserved (some retainedReservation) ∧
    ∀ r, MayAnswer (findReservation resolving (storedAssignment retained)) bothReserved r → r = none := by
  refine ⟨created_retained, (mayAnswer_findRecoverable rfl).mpr ⟨by decide, by decide⟩, ?_⟩
  intro r hr
  rw [mayAnswer_findReservation (storedAssignment_persists retained)] at hr
  cases r with
  | none => rfl
  | some r =>
    have hselect := hr.2
    have haction : pendingActionOf retained.action = none := rfl
    rw [haction, Database.isPendingAs] at hselect
    simp at hselect

end Schedules

end Recovered

end Operations
