import BookLibrary.Operations.Mappings
import BookLibrary.Operations.SagaConduct

/-!
# What a saga writes

Whatever its calls answer, a request writes its own operation, the accounts of its assignments
and their reservations, and it leaves a reservation in no status but those of its actions.
-/

namespace Operations

open AuthIdentifiers Documents Interleaving

/-- The writes of a request with that input. -/
inductive SagaWrite (input : OperationInput) : Write → Prop where
  | aggregate {w : Write} (hw : w.isAggregate = true) : SagaWrite input w
  | create {id : String} {assignments : List AuthIdentifierOperationAssignment} {now : Date} :
      SagaWrite input
        (.insertOperation (AuthIdentifierService.newOperation input id assignments now))
  | quiet {u : OperationUpdate} (hu : u.isQuiet = true) : SagaWrite input (.updateOperation u)
  | transition {source target : AuthIdentifierOperationStatus} {now : Date}
      (htarget : target ∈ allowedTransitions source) :
      SagaWrite input (.updateOperation (.transition input.operationId source target now))
  | beginFinalizing {source : AuthIdentifierOperationStatus}
      {result : AuthIdentifierOperationResult} {now : Date}
      (hsource : .finalizing ∈ allowedTransitions source) :
      SagaWrite input (.updateOperation (.beginFinalizing input.operationId source result now))
  | finishTerminal {status : AuthIdentifierOperationStatus}
      {result : AuthIdentifierOperationResult} {eventId : String} {now : Date}
      {expiresAt : Option Date} :
      SagaWrite input
        (.updateOperation (.finishTerminal input.operationId status result eventId now expiresAt))
  | take {a : AuthIdentifierAssignmentInput} (ha : a ∈ input.assignments)
      (haction : a.action = .release ∨ a.action = .retain) {id actorId : String} {now : Date} :
      SagaWrite input (.updateIdentifier (.takeSource input.operationId id
        (if a.action = .retain then .resolveConflict else .release)
        (if a.action = .retain then [.conflict] else [.active, .conflict])
        a.subjectType a.subjectId actorId now))
  | reserve {a : AuthIdentifierAssignmentInput} (ha : a ∈ input.assignments)
      (haction : a.action = .claim ∨ a.action = .replace) {u : IdentifierUpsert}
      (hu : u.operationId = input.operationId ∧ u.subjectType = a.subjectType ∧
        u.subjectId = a.subjectId ∧ a.normalizedIdentifier = some u.normalizedIdentifier) :
      SagaWrite input (.upsertIdentifier u)
  | settle {a : AuthIdentifierAssignmentInput} (ha : a ∈ input.assignments) {id actorId : String}
      {now : Date} :
      SagaWrite input (.updateIdentifier (.finalizeReservation input.operationId id
        (decide (a.action = .release)) actorId now))
  | restore {a : AuthIdentifierAssignmentInput} (ha : a ∈ input.assignments) {id : Option String}
      {actorId : String} {now : Date} :
      SagaWrite input (.updateIdentifier (.restoreReservation input.operationId id
        (AuthIdentifierService.restoredStatus a.action) actorId now))
  | recordEvent {e : SecurityActivityEvent} : SagaWrite input (.recordEvent e)

/-- The calls of a request with that input. -/
def Requests (input : OperationInput) : (β : Type) → Op β → Prop
  | _, .change (.write _ w) => SagaWrite input w
  | _, _ => True

section Confined

variable {input : OperationInput} {α β : Type} {session : Option ℕ}

theorem requests_draw (x : Accounts.Draw β) : Requests input β (.draw x) := trivial

theorem requests_of_modest {op : Op β} (h : Modest session β op) : Requests input β op := by
  cases op with
  | change c =>
    cases c with
    | write session' w => exact .aggregate h.2
    | _ => trivial
  | _ => trivial

namespace AuthIdentifierService

theorem draw_requests {x : Accounts.Draw β} : (draw x).run.Confined (Requests input) :=
  perform_confined (requests_draw x) fun _ => requests_draw

theorem find_requests {q : Query β} : (find session q).run.Confined (Requests input) :=
  perform_confined True.intro fun _ => requests_draw

theorem write_requests {w : Write} (h : SagaWrite input w) :
    (write session w).run.Confined (Requests input) :=
  write_confined h fun _ => requests_draw

theorem updateOperation_requests {u : OperationUpdate} (h : SagaWrite input (.updateOperation u)) :
    (updateOperation session u).run.Confined (Requests input) :=
  .run_bind (write_requests h) fun _ => .run_pure

theorem updateIdentifier_requests {u : IdentifierUpdate}
    (h : SagaWrite input (.updateIdentifier u)) :
    (updateIdentifier session u).run.Confined (Requests input) :=
  .run_bind (write_requests h) fun _ => .run_pure

theorem transition_requests {source target : AuthIdentifierOperationStatus} :
    (transition input.operationId source target session).run.Confined (Requests input) := by
  rw [transition, validateTransition]
  by_cases htarget : target ∈ allowedTransitions source
  · rw [if_pos htarget, pure_bind]
    refine .run_bind draw_requests fun now => ?_
    refine .run_bind (updateOperation_requests (.transition htarget)) fun updated => ?_
    exact .run_ite (fun _ => .run_pure) fun _ => .run_throw
  · rw [if_neg htarget]
    trivial

variable {env : Environment} {aggregate : AggregateAdapter}

theorem createOperation_requests : (createOperation env input session).run.Confined (Requests input) := by
  refine .run_bind draw_requests fun now => .run_bind draw_requests fun id => ?_
  cases input.assignments.mapM persistedAssignment with
  | none => exact .run_throw
  | some assignments =>
    refine .run_ite (fun _ => ?_) fun _ => .run_throw
    exact .run_bind (write_requests .create) fun _ => .run_pure

theorem findOperation_requests {operationId : String} :
    (findOperation operationId session).run.Confined (Requests input) := find_requests

theorem findRecoverableReservation_requests {operationId : String}
    {assignment : AuthIdentifierAssignmentInput}
    {persisted : Option AuthIdentifierOperationAssignment} :
    (findRecoverableReservation operationId assignment persisted session).run.Confined
      (Requests input) := by
  have rest : ∀ referenced, (orPending operationId assignment session referenced).run.Confined
      (Requests input) := by
    intro referenced
    cases referenced with
    | some reservation => exact .run_pure
    | none => exact find_requests
  rw [findRecoverableReservation]
  cases persisted.bind (·.targetReservationId) with
  | none => exact .run_bind .run_pure rest
  | some id => exact .run_bind find_requests rest

theorem markAssignmentApplied_requests {operationId assignmentId : String} :
    (markAssignmentApplied operationId assignmentId session).run.Confined (Requests input) :=
  .run_bind draw_requests fun _ =>
    .run_bind (updateOperation_requests (.quiet rfl)) fun _ => .run_pure

theorem obtain_requests {w : Write} {unavailable : Failure} (h : SagaWrite input w) :
    (obtain session w unavailable).run.Confined (Requests input) := by
  refine .run_tryCatch (.run_bind (write_requests h) fun docs => ?_) fun error => ?_
  · cases reservationOf docs with
    | some reservation => exact .run_pure
    | none => exact .run_throw
  · exact .run_ite (fun _ => .run_throw) fun _ => .run_throw

theorem reserveAssignment_requests {a : AuthIdentifierAssignmentInput} {actorId : String}
    (ha : a ∈ input.assignments) :
    (reserveAssignment input.operationId a actorId session).run.Confined (Requests input) := by
  cases haction : a.action with
  | release | retain =>
    simp only [reserveAssignment, haction]
    refine .run_ite (fun _ => .run_throw) fun _ => .run_bind draw_requests fun now => ?_
    refine .run_bind castObjectId_confined fun id => obtain_requests ?_
    have hwrite := @SagaWrite.take input a ha (by simp [haction]) id actorId now
    rwa [haction] at hwrite
  | claim | replace =>
    simp only [reserveAssignment, haction]
    cases hname : a.normalizedIdentifier with
    | none => exact .run_throw
    | some name =>
      cases a.identifierType with
      | none => exact .run_throw
      | some identifierType =>
        refine .run_ite (fun _ => .run_throw) fun _ => .run_bind draw_requests fun now => ?_
        refine .run_bind draw_requests fun newId => obtain_requests ?_
        exact .reserve ha (by simp [haction]) ⟨rfl, rfl, rfl, hname⟩

theorem finalizeReservation_requests {a : AuthIdentifierAssignmentInput}
    {reservation : AuthIdentifier} {actorId : String} (ha : a ∈ input.assignments) :
    (finalizeReservation input.operationId a reservation actorId session).run.Confined
      (Requests input) :=
  .run_bind draw_requests fun _ => updateIdentifier_requests (.settle ha)

theorem applyAggregate_requests {a : AuthIdentifierAssignmentInput} (haggregate : aggregate.Modest) :
    (applyAggregate aggregate a session).run.Confined (Requests input) := by
  have rest : ∀ alreadyApplied : Bool,
      (if alreadyApplied then return else aggregate.apply a session : Handler Unit).run.Confined
        (Requests input) :=
    fun _ => .run_ite (fun _ => .run_pure) fun _ =>
      (haggregate.apply a session).mono requests_of_modest
  rw [applyAggregate]
  cases happlied : aggregate.isApplied with
  | none => exact .run_bind .run_pure rest
  | some isApplied =>
    exact .run_bind ((haggregate.isApplied isApplied happlied a session).mono requests_of_modest) rest

theorem applyAssignment_requests {a : AuthIdentifierAssignmentInput} (haggregate : aggregate.Modest)
    (ha : a ∈ input.assignments) :
    (applyAssignment input aggregate session a).run.Confined (Requests input) := by
  refine .run_bind findOperation_requests fun operation => ?_
  refine .run_bind findRecoverableReservation_requests fun found => ?_
  have rest : ∀ reservation : AuthIdentifier, (do
      attachReservationReference input.operationId a.assignmentId reservation session
      if (operation.bind fun d =>
          d.assignments.find? fun item => decide (item.assignmentId = a.assignmentId)).map
            (·.status) = some .applied then pure ()
      else do
        applyAggregate aggregate a session
        markAssignmentApplied input.operationId a.assignmentId session
      finalizeReservation input.operationId a reservation input.requestedBy.subjectId session :
        Handler Unit).run.Confined (Requests input) := by
    intro reservation
    refine .run_bind (.run_bind draw_requests fun now => ?_) fun _ => ?_
    · exact .run_bind (updateOperation_requests (.quiet rfl)) fun _ => .run_pure
    · refine .run_ite (fun _ => finalizeReservation_requests ha) fun _ => ?_
      refine .run_bind (applyAggregate_requests haggregate) fun _ => ?_
      exact .run_bind markAssignmentApplied_requests fun _ => finalizeReservation_requests ha
  cases found with
  | some reservation => exact .run_bind .run_pure rest
  | none => exact .run_bind (reserveAssignment_requests ha) rest

theorem applyAssignments_requests (haggregate : aggregate.Modest) :
    (applyAssignments input aggregate session).run.Confined (Requests input) :=
  .run_forM fun _ ha => applyAssignment_requests haggregate ha

theorem compensateAssignment_requests {persisted : AuthIdentifierOperationAssignment}
    (haggregate : aggregate.Modest) :
    (compensateAssignment input aggregate persisted).run.Confined (Requests input) := by
  rw [compensateAssignment]
  cases hfound : input.assignments.find? fun item =>
      decide (item.assignmentId = persisted.assignmentId) with
  | none => exact .run_throw
  | some a =>
    have ha : a ∈ input.assignments := List.mem_of_find?_eq_some hfound
    refine .run_bind ((haggregate.compensate a none).mono requests_of_modest) fun _ => ?_
    refine .run_bind draw_requests fun now => ?_
    have rest : ∀ reservationId : Option String, (do
        updateIdentifier none (.restoreReservation input.operationId reservationId
          (restoredStatus a.action) input.requestedBy.subjectId now)
        let now ← draw .currentDate
        let _ ← updateOperation none (.markCompensated input.operationId a.assignmentId now) :
          Handler Unit).run.Confined (Requests input) := by
      intro reservationId
      refine .run_bind (updateIdentifier_requests (.restore ha)) fun _ => ?_
      refine .run_bind draw_requests fun now => ?_
      exact .run_bind (updateOperation_requests (.quiet rfl)) fun _ => .run_pure
    cases persisted.targetReservationId with
    | some id => exact .run_bind .run_pure rest
    | none =>
      cases a.sourceReservationId with
      | some value =>
        exact .run_bind (.run_bind castObjectId_confined fun _ => .run_pure) rest
      | none => exact .run_bind .run_pure rest

theorem compensateAssignments_requests {operation : AuthIdentifierOperation}
    (haggregate : aggregate.Modest) :
    (compensateAssignments input operation aggregate).run.Confined (Requests input) :=
  .run_forM fun _ _ => compensateAssignment_requests haggregate

theorem synchronizeAppliedAssignments_requests (haggregate : aggregate.Modest) :
    (synchronizeAppliedAssignments input aggregate).run.Confined (Requests input) := by
  refine .run_bind findOperation_requests fun found => ?_
  cases found with
  | none => exact .run_throw
  | some operation =>
    simp only
    cases happlied : aggregate.isApplied with
    | none => exact .run_ite (fun _ => .run_pure) fun _ => .run_throw
    | some isApplied =>
      refine .run_forM fun persisted _ => ?_
      cases input.assignments.find? fun item =>
          decide (item.assignmentId = persisted.assignmentId) with
      | none => exact .run_pure
      | some a =>
        refine .run_bind ((haggregate.isApplied isApplied happlied a none).mono requests_of_modest)
          fun applied => ?_
        exact .run_ite (fun _ => markAssignmentApplied_requests) fun _ => .run_pure

theorem beginFinalizing_requests {source : AuthIdentifierOperationStatus} {status : TerminalStatus} :
    (beginFinalizing input source status session).run.Confined (Requests input) := by
  rw [beginFinalizing, validateTransition]
  by_cases hsource : .finalizing ∈ allowedTransitions source
  · rw [if_pos hsource, pure_bind]
    refine .run_bind draw_requests fun now => ?_
    refine .run_bind (updateOperation_requests (.beginFinalizing hsource)) fun updated => ?_
    exact .run_ite (fun _ => .run_pure) fun _ => .run_throw
  · rw [if_neg hsource]
    trivial

theorem recordIdempotent_requests {e : SecurityActivityEvent} :
    (SecurityActivityService.recordIdempotent session e).run.Confined (Requests input) := by
  refine .run_tryCatch (.run_bind (write_requests .recordEvent) fun _ => .run_pure) fun error => ?_
  exact .run_ite (fun _ => .run_pure) fun _ => .run_throw

theorem replay_requests {operation : AuthIdentifierOperation} :
    (replay operation).run.Confined (Requests input) := by
  rw [replay]
  split
  · exact .run_pure
  · exact .run_throw

theorem finishTerminal_requests {status : TerminalStatus} :
    (finishTerminal env input status session).run.Confined (Requests input) := by
  refine .run_bind (.run_bind recordIdempotent_requests fun _ => .run_pure) fun eventId => ?_
  refine .run_bind draw_requests fun now => ?_
  refine .run_bind (updateOperation_requests .finishTerminal) fun updated => ?_
  refine .run_ite (fun _ => .run_pure) fun _ => .run_bind findOperation_requests fun found => ?_
  cases found with
  | none => exact .run_throw
  | some current => exact .run_ite (fun _ => replay_requests) fun _ => .run_throw

theorem executeInTransaction_requests (haggregate : aggregate.Modest) :
    (executeInTransaction env input aggregate).run.Confined (Requests input) := by
  refine .run_bind draw_requests fun _ => .run_bind draw_requests fun retries => ?_
  refine Sessions.withTransaction_confined trivial (fun _ => trivial) (fun _ => trivial) trivial
    fun n => ?_
  refine .run_bind createOperation_requests fun _ => .run_bind transition_requests fun _ => ?_
  refine .run_bind (applyAssignments_requests haggregate) fun _ => ?_
  exact .run_bind beginFinalizing_requests fun _ => finishTerminal_requests

theorem compensate_requests {operation : AuthIdentifierOperation} (haggregate : aggregate.Modest) :
    (compensate env input operation aggregate).run.Confined (Requests input) := by
  refine .run_bind (compensateAssignments_requests haggregate) fun _ => ?_
  exact .run_bind beginFinalizing_requests fun _ => finishTerminal_requests

theorem fail_requests {error : Failure} (haggregate : aggregate.Modest) :
    (fail env input aggregate error).run.Confined (Requests input) := by
  refine .run_ite (fun _ => ?_) fun _ => .run_bind transition_requests fun _ => .run_throw
  refine .run_bind (.run_tryCatch (synchronizeAppliedAssignments_requests haggregate) fun e =>
    .run_bind transition_requests fun _ => .run_throw) fun _ => ?_
  refine .run_bind transition_requests fun _ => .run_bind findOperation_requests fun found => ?_
  cases found with
  | none => exact .run_throw
  | some latest => exact compensate_requests haggregate

theorem obtainOperation_requests : (obtainOperation env input).run.Confined (Requests input) := by
  refine .run_bind findOperation_requests fun found => ?_
  cases found with
  | some operation => exact .run_pure
  | none =>
    refine .run_tryCatch createOperation_requests fun error => .run_ite (fun _ => ?_) fun _ => .run_throw
    refine .run_bind findOperation_requests fun found => ?_
    cases found with
    | some operation => exact .run_pure
    | none => exact .run_throw

theorem advance_requests (haggregate : aggregate.Modest) :
    (advance env input aggregate).run.Confined (Requests input) := by
  refine .run_bind (.run_tryCatch ?_ fun _ => .run_pure) fun failure => ?_
  · refine .run_bind (applyAssignments_requests haggregate) fun _ => ?_
    exact .run_bind beginFinalizing_requests fun _ => .run_pure
  · cases failure with
    | none => exact finishTerminal_requests
    | some error => exact fail_requests haggregate

theorem executeSaga_requests (haggregate : aggregate.Modest) :
    (executeSaga env input aggregate).run.Confined (Requests input) := by
  refine .run_bind obtainOperation_requests fun operation => ?_
  cases operation.status with
  | completed | failedTerminal => exact replay_requests
  | finalizing => exact finishTerminal_requests
  | compensating => exact compensate_requests haggregate
  | applying => exact advance_requests haggregate
  | pending | failedRetryable =>
    exact .run_bind transition_requests fun _ => advance_requests haggregate

theorem resumeOrReplay_requests {operation : AuthIdentifierOperation}
    (haggregate : aggregate.Modest) :
    (resumeOrReplay env operation input aggregate).run.Confined (Requests input) := by
  have hmanifest : (assertOperationManifest operation input).run.Confined (Requests input) :=
    .run_ite (fun _ => .run_pure) fun _ => .run_throw
  refine .run_ite (fun _ => .run_throw) fun _ => .run_bind hmanifest fun _ => ?_
  refine .run_ite (fun _ => replay_requests) fun _ => .run_ite (fun _ => ?_) fun _ =>
    executeSaga_requests haggregate
  refine .run_ite (fun _ => .run_throw) fun _ => .run_bind recordIdempotent_requests fun _ => ?_
  refine .run_bind draw_requests fun now => ?_
  refine .run_bind (updateOperation_requests (.quiet rfl)) fun _ => executeSaga_requests haggregate

/-- All that a request issues. -/
theorem execute_requests (haggregate : aggregate.Modest) :
    (execute env input aggregate).run.Confined (Requests input) := by
  have hvalidate : (validateInput env input).run.Confined (Requests input) :=
    .run_ite (fun _ => .run_throw) fun _ => .run_ite (fun _ => .run_throw) fun _ =>
      .run_ite (fun _ => .run_pure) fun _ => .run_throw
  refine .run_bind hvalidate fun _ => .run_bind findOperation_requests fun found => ?_
  cases found with
  | some existing => exact resumeOrReplay_requests haggregate
  | none =>
    refine .run_ite (fun _ => executeSaga_requests haggregate) fun _ => ?_
    refine .run_tryCatch (executeInTransaction_requests haggregate) fun error => ?_
    exact .run_ite (fun _ => .run_throw) fun _ => executeSaga_requests haggregate

section Conflict

variable {conflictId : String} {dto : ResolveAuthIdentifierConflictDto}
  {actor : AuthIdentifierSubjectReference}

/-- The assignment of a subject whose replacement is not blank. -/
def replaceAssignment (env : Environment) (conflictId : String)
    (dto : ResolveAuthIdentifierConflictDto) (item : Reassignment) :
    AuthIdentifierAssignmentInput where
  assignmentId := dto.operationId ++ ":" ++ subjectTypeText item.subjectType ++ ":" ++ item.subjectId
  subjectType := item.subjectType
  subjectId := item.subjectId
  action := .replace
  normalizedIdentifier := some (env.toLowerCase (env.trim item.newIdentifier))
  identifierType := some (match item.subjectType with
    | .staff => .email
    | .member => .loginIdentifier)
  sourceReservationId := some conflictId
  identifierCorrelationHash := none
  correlationKeyVersion := none

theorem mapM_reassignment :
    dto.reassignments.mapM (reassignment env conflictId dto) =
      if ∃ item ∈ dto.reassignments, env.toLowerCase (env.trim item.newIdentifier) = "" then
        throw (.unprocessable "Replacement identifier is required")
      else return dto.reassignments.map (replaceAssignment env conflictId dto) := by
  have hround : reassignment env conflictId dto = fun item =>
      if env.toLowerCase (env.trim item.newIdentifier) = "" then
        throw (.unprocessable "Replacement identifier is required")
      else return replaceAssignment env conflictId dto item := by
    funext item
    rw [reassignment, normalizeIdentifier]
    split
    · rfl
    · rfl
  rw [hround]
  exact mapM_check _

/-- The assignments of a mapping: one retains the identifier, the others replace theirs. -/
def conflictAssignments (env : Environment) (conflictId : String)
    (dto : ResolveAuthIdentifierConflictDto) : List AuthIdentifierAssignmentInput :=
  (dto.retainedSubject.map (retainAssignment conflictId dto)).toList ++
    dto.reassignments.map (replaceAssignment env conflictId dto)

theorem action_of_mem_conflictAssignments {a : AuthIdentifierAssignmentInput}
    (ha : a ∈ conflictAssignments env conflictId dto) : a.action = .retain ∨ a.action = .replace := by
  rcases List.mem_append.mp ha with hretained | hreassigned
  · obtain ⟨retained, -, rfl⟩ := Option.map_eq_some_iff.mp (Option.mem_toList.mp hretained)
    exact .inl rfl
  · obtain ⟨item, -, rfl⟩ := List.mem_map.mp hreassigned
    exact .inr rfl

theorem validateConflictMapping_confined {P : (β : Type) → Op β → Prop}
    {subjects : List AuthIdentifierSubjectReference} {original : String} :
    (validateConflictMapping env subjects original dto).run.Confined P := by
  rw [validateConflictMapping, mapM_normalizeIdentifier]
  refine .run_ite (fun _ => .run_throw) fun _ => .run_ite (fun _ => .run_throw) fun _ =>
    .run_ite (fun _ => .run_throw) fun _ => ?_
  refine .run_bind (.run_ite (fun _ => .run_throw) fun _ => .run_pure) fun _ => ?_
  exact .run_ite (fun _ => .run_throw) fun _ => .run_pure

/-- All that the resolution of a conflict issues. -/
theorem resolveConflict_requests :
    (resolveConflict env conflictId dto actor).run.Confined
      (Requests (conflictInput dto (conflictAssignments env conflictId dto) actor)) := by
  refine .run_bind castObjectId_confined fun id => .run_bind find_requests fun found => ?_
  cases found with
  | none => exact .run_throw
  | some conflict =>
    refine .run_ite (fun _ => .run_throw) fun _ => .run_ite (fun _ => .run_throw) fun _ => ?_
    refine .run_bind validateConflictMapping_confined fun _ => ?_
    rw [mapM_reassignment]
    split
    · trivial
    · rw [pure_bind]
      exact execute_requests conflictAggregateAdapter_modest

end Conflict

end AuthIdentifierService

end Confined

end Operations
