import BookLibrary.Accounts.Conduct
import BookLibrary.Operations.Conduct
import BookLibrary.Operations.Conflicts

/-!
# Walking through the saga

Every write of `AuthIdentifierService` is made on what its request has seen.
-/

namespace Operations

open AuthIdentifiers Documents Interleaving

theorem Within.began {l : List Event} {session : Option ℕ} {operationId : String}
    (h : Within l session operationId) : ∀ n ∈ session, .began n ∈ l := fun n hn => (h n hn).1

theorem Within.steady {l m : List Event} {session : Option ℕ} {operationId : String}
    (h : Within l session operationId) (hm : Steady l m) : Within m session operationId :=
  h.mono hm.suffix.subset

namespace AuthIdentifierService

variable {Call ρ : Type} {body : Call → Prog Op ρ} {env : Environment}
  {inputs : OperationInput → Prop} {fl : Bool} {l : List Event} {session : Option ℕ}

theorem validateTransition_paces {source target : AuthIdentifierOperationStatus} :
    Paces body env inputs (Returns fun _ _ => target ∈ allowedTransitions source) fl l
      (validateTransition source target) :=
  Paces.ite (fun h => .pure (.ok h)) fun _ => .throw .error

theorem transition_steps {operationId : String} {source target : AuthIdentifierOperationStatus}
    (hopen : target = .applying ∨ target = .compensating ∨ target = .failedRetryable)
    (hwithin : Within l session operationId) :
    Steps body env inputs fl l (transition operationId source target session) := by
  refine Paces.then (R := fun _ _ => target ∈ allowedTransitions source)
    validateTransition_paces fun fl m _ hm htarget => Steps.draw fun fl now => ?_
  have hwithin' := hwithin.steady hm
  refine Steps.next (updateOperation_steps hwithin'.began (.transition htarget hopen hwithin'))
    fun fl m updated _ => ?_
  exact .ite (fun _ => .pure) fun _ => .throw

theorem write_insertOperation {d : AuthIdentifierOperation} {s : Database}
    (h : schema.write (.insertOperation d) s ≠ .duplicateKey) :
    schema.write (.insertOperation d) s = .written [.operation d] := by
  have hw : schema.write (.insertOperation d) s = Database.unchecked s (.insertOperation d) ∨
      schema.write (.insertOperation d) s = .duplicateKey := by
    by_cases hi : ((Database.unchecked s (.insertOperation d)).docs.foldr
        Accounts.Database.put s).Indexed
    · exact .inl (if_pos hi)
    · exact .inr (if_neg hi)
  have hunchecked := hw.resolve_right h
  rw [hunchecked, Database.unchecked, Accounts.Database.insert] at h ⊢
  split at h
  · exact absurd rfl h
  · next hfree => exact if_neg hfree

/-- The transaction that creates an operation remembers it. -/
theorem createOperation_paces {input : OperationInput} (hinput : inputs input ∧ Valid env input)
    (hs : ∀ n ∈ session, .began n ∈ l) :
    Paces body env inputs (Returns fun d m => d.status = .pending ∧
      ∀ n ∈ session, Inserted m n input.operationId) fl l (createOperation env input session) := by
  refine Paces.draw (fun fl now => Paces.draw (fun fl id => ?_) fun _ => .error) fun _ => .error
  cases hassignments : input.assignments.mapM persistedAssignment with
  | none => exact .throw .error
  | some assignments =>
    refine Paces.ite (fun _ => ?_) fun _ => .throw .error
    refine Paces.next (R := Returns fun _ m => ∀ n ∈ session, Inserted m n input.operationId)
      (write_paces hs (.create hinput.1 hinput.2 hassignments) rfl (fun v hv => .ok fun n hn => ?_)
        fun _ _ => .error) (fun fl m docs _ h => ?_) fun _ _ _ _ => .error
    · cases hn
      rw [write_insertOperation hv]
      exact ⟨_, rfl, rfl, List.mem_cons_self⟩
    · exact .pure (.ok ⟨rfl, h docs rfl⟩)

theorem findOperation_steps {operationId : String} (hs : ∀ n ∈ session, .began n ∈ l) :
    Steps body env inputs fl l (findOperation operationId session) := find_steps hs

/-- The end of `findRecoverableReservation`, by what has been found by its id. -/
def orPending (operationId : String) (assignment : AuthIdentifierAssignmentInput)
    (session : Option ℕ) : Option AuthIdentifier → Handler (Option AuthIdentifier)
  | some reservation => return some reservation
  | none => findOwn session (.findPending operationId assignment.subjectType assignment.subjectId
      (some ((pendingActionOf assignment.action).getD .resolveConflict)))

theorem findRecoverableReservation_steps {operationId : String}
    {assignment : AuthIdentifierAssignmentInput}
    {persisted : Option AuthIdentifierOperationAssignment} (hs : ∀ n ∈ session, .began n ∈ l) :
    Steps body env inputs fl l
      (findRecoverableReservation operationId assignment persisted session) := by
  have rest : ∀ fl m referenced, Steady l m →
      Steps body env inputs fl m (orPending operationId assignment session referenced) := by
    intro fl m referenced hm
    cases referenced with
    | some reservation => exact .pure
    | none => exact find_steps fun n hn => hm.suffix.subset (hs n hn)
  rw [findRecoverableReservation]
  cases persisted.bind (·.targetReservationId) with
  | none => exact Steps.next .pure fun fl m referenced hm => rest fl m referenced hm
  | some id => exact Steps.next (find_steps hs) fun fl m referenced hm => rest fl m referenced hm

theorem markAssignmentApplied_steps {operationId assignmentId : String}
    (hs : ∀ n ∈ session, .began n ∈ l) :
    Steps body env inputs fl l (markAssignmentApplied operationId assignmentId session) := by
  refine Steps.draw fun fl now => ?_
  exact Steps.next (updateOperation_steps hs (.quiet rfl)) fun _ _ _ _ => .pure

theorem obtain_steps {w : Write} {unavailable : Failure} (hs : ∀ n ∈ session, .began n ∈ l)
    (hw : Warranted env inputs l session w) (hrecord : w.isRecord = false) :
    Steps body env inputs fl l (obtain session w unavailable) := by
  refine Steps.handle (Steps.next (write_steps hs hw hrecord) fun fl m docs _ => ?_) ?_
  · cases reservationOf docs with
    | some reservation => exact .pure
    | none => exact .throw
  · intro fl m error _
    exact .ite (fun _ => .throw) fun _ => .throw

theorem castObjectId_steps {path value : String} :
    Steps body env inputs fl l (castObjectId path value) := by
  rw [castObjectId]
  cases ObjectId.parse value with
  | some id => exact .pure
  | none => exact .throw

theorem reserveAssignment_steps {operationId actorId : String}
    {assignment : AuthIdentifierAssignmentInput} (hs : ∀ n ∈ session, .began n ∈ l) :
    Steps body env inputs fl l (reserveAssignment operationId assignment actorId session) := by
  have source : ∀ {fl} {w : String → Date → Write} {unavailable : Failure},
      (∀ id now, ∃ u, w id now = .updateIdentifier u) →
      Steps body env inputs fl l (do
        let now ← draw .currentDate
        let id ← castObjectId "_id" (assignment.sourceReservationId.getD "")
        obtain session (w id now) unavailable) := by
    intro fl w unavailable hw
    refine Steps.draw fun fl now => Steps.next castObjectId_steps fun fl m id hm => ?_
    obtain ⟨u, hu⟩ := hw id now
    rw [hu]
    exact obtain_steps (fun n hn => hm.suffix.subset (hs n hn)) .updateIdentifier rfl
  have target : ∀ {fl} {w : ObjectId → Date → Write} {unavailable : Failure},
      (∀ id now, ∃ u, w id now = .upsertIdentifier u) →
      Steps body env inputs fl l (do
        let now ← draw .currentDate
        let newId ← draw .newObjectId
        obtain session (w newId now) unavailable) := by
    intro fl w unavailable hw
    refine Steps.draw fun fl now => Steps.draw fun fl id => ?_
    obtain ⟨u, hu⟩ := hw id now
    rw [hu]
    exact obtain_steps hs .upsertIdentifier rfl
  rw [reserveAssignment]
  cases assignment.action with
  | release | retain =>
    exact .ite (fun _ => .throw) fun _ => source fun _ _ => ⟨_, rfl⟩
  | claim | replace =>
    cases assignment.normalizedIdentifier with
    | none => exact .throw
    | some normalizedIdentifier =>
      cases assignment.identifierType with
      | none => exact .throw
      | some identifierType =>
        exact .ite (fun _ => .throw) fun _ => target fun _ _ => ⟨_, rfl⟩

theorem attachReservationReference_steps {operationId assignmentId : String}
    {reservation : AuthIdentifier} (hs : ∀ n ∈ session, .began n ∈ l) :
    Steps body env inputs fl l
      (attachReservationReference operationId assignmentId reservation session) := by
  refine Steps.draw fun fl now => ?_
  exact Steps.next (updateOperation_steps hs (.quiet rfl)) fun _ _ _ _ => .pure

theorem finalizeReservation_steps {operationId actorId : String}
    {assignment : AuthIdentifierAssignmentInput} {reservation : AuthIdentifier}
    (hs : ∀ n ∈ session, .began n ∈ l) :
    Steps body env inputs fl l
      (finalizeReservation operationId assignment reservation actorId session) :=
  Steps.draw fun _ _ => updateIdentifier_steps hs

/-- The operation that is left is finalizing, with the result of the verdict. -/
theorem beginFinalizing_paces {input : OperationInput} {source : AuthIdentifierOperationStatus}
    {status : TerminalStatus} (hwithin : Within l session input.operationId) :
    Paces body env inputs (Returns fun _ m => Finalizing m session input.operationId status) fl l
      (beginFinalizing input source status session) := by
  refine Paces.next validateTransition_paces (fun fl m u hm hsource => ?_) fun _ _ _ _ => .error
  refine Paces.draw (fun fl now => ?_) fun _ => .error
  have hwithin' := hwithin.steady hm
  refine Paces.next (updateOperation_paces hwithin'.began (.beginFinalizing (hsource u rfl) hwithin'))
    (fun fl m updated _ h => ?_) fun _ _ _ _ => .error
  refine Paces.ite (fun htrue => .pure (.ok ?_)) fun _ => .throw .error
  obtain ⟨r', rfl, -, hd⟩ := h updated rfl
  obtain ⟨d, hselects, rfl⟩ := hd htrue
  simp only [OperationUpdate.selects, Bool.and_eq_true, decide_eq_true_eq] at hselects
  refine ⟨(OperationUpdate.beginFinalizing input.operationId source (terminalResult input status)
    now).apply d, hselects.1, rfl, ?_, _, List.mem_cons_self, rfl, List.mem_cons_self⟩
  cases status <;> rfl

variable {aggregate : AggregateAdapter} (haggregate : aggregate.Modest)

include haggregate

theorem applyAggregate_steps {assignment : AuthIdentifierAssignmentInput}
    (hs : ∀ n ∈ session, .began n ∈ l) :
    Steps body env inputs fl l (applyAggregate aggregate assignment session) := by
  have rest : ∀ fl m (alreadyApplied : Bool), Steady l m → Steps body env inputs fl m
      (if alreadyApplied = true then return else aggregate.apply assignment session) := by
    intro fl m alreadyApplied hm
    refine Steps.ite (fun _ => .pure) fun _ => ?_
    exact modest_steps (haggregate.apply _ _) fun n hn => hm.suffix.subset (hs n hn)
  rw [applyAggregate]
  cases happlied : aggregate.isApplied with
  | none => exact Steps.next .pure fun fl m applied hm => rest fl m applied hm
  | some isApplied =>
    exact Steps.next (modest_steps (haggregate.isApplied _ happlied _ _) hs)
      fun fl m applied hm => rest fl m applied hm

theorem applyAssignment_steps {input : OperationInput} {assignment : AuthIdentifierAssignmentInput}
    (hs : ∀ n ∈ session, .began n ∈ l) :
    Steps body env inputs fl l (applyAssignment input aggregate session assignment) := by
  have later : ∀ {m}, Steady l m → ∀ n ∈ session, .began n ∈ m :=
    fun hm n hn => hm.suffix.subset (hs n hn)
  refine Steps.next (findOperation_steps hs) fun fl m₁ operation h₁ => ?_
  -- from the reservation on, whether it was found or made
  have settle : ∀ {fl m} (reservation : AuthIdentifier), Steady l m →
      Steps body env inputs fl m (do
        attachReservationReference input.operationId assignment.assignmentId reservation session
        if (operation.bind fun d => d.assignments.find? fun item =>
            decide (item.assignmentId = assignment.assignmentId)).map (·.status) = some .applied then
          finalizeReservation input.operationId assignment reservation
            input.requestedBy.subjectId session
        else do
          applyAggregate aggregate assignment session
          markAssignmentApplied input.operationId assignment.assignmentId session
          finalizeReservation input.operationId assignment reservation
            input.requestedBy.subjectId session) := by
    intro fl m reservation hm
    refine Steps.next (attachReservationReference_steps (later hm)) fun fl m₂ _ h₂ => ?_
    have hm₂ := hm.trans h₂
    refine Steps.ite (fun _ => finalizeReservation_steps (later hm₂)) fun _ => ?_
    refine Steps.next (applyAggregate_steps haggregate (later hm₂)) fun fl m₃ _ h₃ => ?_
    refine Steps.next (markAssignmentApplied_steps (later (hm₂.trans h₃))) fun fl m₄ _ h₄ => ?_
    exact finalizeReservation_steps (later ((hm₂.trans h₃).trans h₄))
  refine Steps.next (findRecoverableReservation_steps (later h₁)) fun fl m₂ found h₂ => ?_
  have hm₂ := h₁.trans h₂
  cases found with
  | some reservation => exact Steps.next .pure fun fl m _ hm => settle _ (hm₂.trans hm)
  | none =>
    exact Steps.next (reserveAssignment_steps (later hm₂)) fun fl m _ hm => settle _ (hm₂.trans hm)

theorem applyAssignments_steps {input : OperationInput} (hs : ∀ n ∈ session, .began n ∈ l) :
    Steps body env inputs fl l (applyAssignments input aggregate session) :=
  .forM fun _ _ _ _ hm => applyAssignment_steps haggregate fun n hn => hm.suffix.subset (hs n hn)

theorem compensateAssignment_steps {input : OperationInput}
    {persisted : AuthIdentifierOperationAssignment} :
    Steps body env inputs fl l (compensateAssignment input aggregate persisted) := by
  rw [compensateAssignment]
  cases input.assignments.find? fun item => decide (item.assignmentId = persisted.assignmentId) with
  | none => exact .throw
  | some assignment =>
    refine Steps.next (modest_steps (haggregate.compensate _ _) outside) fun fl m _ _ => ?_
    refine Steps.draw fun fl now => ?_
    have restore : ∀ fl m (id : Option String), Steps body env inputs fl m (do
        updateIdentifier none (.restoreReservation input.operationId id
          (restoredStatus assignment.action) input.requestedBy.subjectId now)
        let now ← draw .currentDate
        let _ ← updateOperation none
          (.markCompensated input.operationId assignment.assignmentId now)) := by
      intro fl m id
      refine Steps.next (updateIdentifier_steps outside) fun fl m _ _ => Steps.draw fun fl now => ?_
      exact Steps.next (updateOperation_steps outside (.quiet rfl)) fun _ _ _ _ => .pure
    cases persisted.targetReservationId with
    | some id => exact Steps.next .pure fun fl m id _ => restore fl m id
    | none =>
      cases assignment.sourceReservationId with
      | none => exact Steps.next .pure fun fl m id _ => restore fl m id
      | some value =>
        refine Steps.next ?_ fun fl m id _ => restore fl m id
        rw [map_eq_pure_bind]
        exact Steps.next castObjectId_steps fun _ _ _ _ => .pure

theorem compensateAssignments_steps {input : OperationInput} {operation : AuthIdentifierOperation} :
    Steps body env inputs fl l (compensateAssignments input operation aggregate) :=
  .forM fun _ _ _ _ _ => compensateAssignment_steps haggregate

theorem synchronizeAppliedAssignments_steps {input : OperationInput} :
    Steps body env inputs fl l (synchronizeAppliedAssignments input aggregate) := by
  refine Steps.next (findOperation_steps outside) fun fl m found _ => ?_
  cases found with
  | none => exact .throw
  | some operation =>
    cases happlied : aggregate.isApplied with
    | none => exact .ite (fun _ => .pure) fun _ => .throw
    | some isApplied =>
      refine Steps.forM fun persisted _ fl m _ => ?_
      cases input.assignments.find? fun item =>
          decide (item.assignmentId = persisted.assignmentId) with
      | none => exact .pure
      | some assignment =>
        refine Steps.next (modest_steps (haggregate.isApplied _ happlied _ _) outside)
          fun fl m applied _ => ?_
        exact .ite (fun _ => markAssignmentApplied_steps outside) fun _ => .pure

omit haggregate

theorem finishTerminal_walk {input : OperationInput} {status : TerminalStatus}
    (hfinalizing : Finalizing l session input.operationId status)
    (hwithin : Within l session input.operationId) :
    Walk body env inputs (Returns fun _ m => ∀ n ∈ session, Settling n l m) fl l
      (finishTerminal env input status session) := by
  have hrecord : Walk body env inputs (Returns fun eventId m =>
      eventId = SecurityActivityService.terminalEventId input.operationId status ∧ ∃ r,
        m = .wrote session (.recordEvent (SecurityActivityService.terminalEvent
          (terminalInput input status))) r :: l) fl l
      (SecurityActivityService.recordIdentifierOperationTerminal (terminalInput input status)
        session) := by
    refine Walk.next (recordIdempotent_walk hwithin.began (.recordFinalizing hfinalizing hwithin))
      (fun fl m u _ h => Conforms.run_pure (.ok ⟨rfl, h u rfl⟩)) fun _ _ _ _ => .error
  refine Walk.next hrecord (fun fl m eventId _ h => ?_) fun _ _ _ _ => .error
  obtain ⟨rfl, r, rfl⟩ := h eventId rfl
  refine Walk.draw (fun fl now => ?_) fun _ => .error
  have hsub : l ⊆ .wrote session (.recordEvent (SecurityActivityService.terminalEvent
      (terminalInput input status))) r :: l := List.subset_cons_self _ _
  have hwithin' := hwithin.mono hsub
  have hrecorded : Recorded (.wrote session (.recordEvent (SecurityActivityService.terminalEvent
      (terminalInput input status))) r :: l) session
      (SecurityActivityService.terminalEventId input.operationId status) :=
    ⟨_, r, rfl, List.mem_cons_self⟩
  refine Walk.next (updateOperation_paces hwithin'.began
    (.finishTerminal (hfinalizing.mono hsub) hrecorded hwithin')) (fun fl m updated _ h => ?_)
    fun _ _ _ _ => .error
  obtain ⟨r', rfl, hr', -⟩ := h.2 updated rfl
  refine Steps.finish rfl hr' (Steps.ite (fun _ => .pure) fun _ => ?_)
  refine Steps.next (findOperation_steps fun n hn => ?_) fun fl m found _ => ?_
  · exact List.mem_cons_of_mem _ (hwithin'.began n hn)
  · cases found with
    | none => exact .throw
    | some current =>
      refine Steps.ite (fun _ => ?_) fun _ => .throw
      rw [replay]
      split
      · exact .pure
      · exact .throw

theorem replay_steps {operation : AuthIdentifierOperation} :
    Steps body env inputs fl l (replay operation) := by
  rw [replay]
  split
  · exact .pure
  · exact .throw

include haggregate

theorem executeInTransaction_walk {input : OperationInput} (hinput : inputs input ∧ Valid env input) :
    Walk body env inputs (fun _ _ => True) fl l (executeInTransaction env input aggregate) := by
  refine Walk.draw (fun fl _ => withTransaction_walk fun fl l' n _ => ?_) fun _ => True.intro
  have hbegan : ∀ n' ∈ some n, (.began n' : Event) ∈ (.began n :: l' : List Event) := by
    intro n' hn
    cases hn
    exact List.mem_cons_self
  refine Paces.settle (createOperation_paces hinput hbegan) fun fl m d hm hd => ?_
  have hwithin : Within m (some n) input.operationId := fun n' hn =>
    ⟨hm.suffix.subset (hbegan n' hn), hd.2 n' hn⟩
  refine Steps.settle (transition_steps (.inl rfl) hwithin) fun fl m₁ _ h₁ => ?_
  have hwithin₁ := hwithin.steady h₁
  refine Steps.settle (applyAssignments_steps haggregate hwithin₁.began) fun fl m₂ _ h₂ => ?_
  have hwithin₂ := hwithin₁.steady h₂
  refine Paces.settle (beginFinalizing_paces hwithin₂) fun fl m₃ _ h₃ hfinalizing => ?_
  exact (finishTerminal_walk hfinalizing (hwithin₂.steady h₃)).mono fun _ _ _ h a ha => h a ha n rfl

theorem compensate_walk {input : OperationInput} {operation : AuthIdentifierOperation} :
    Walk body env inputs (fun _ _ => True) fl l (compensate env input operation aggregate) := by
  refine Walk.next (compensateAssignments_steps haggregate) (fun fl m _ _ _ => ?_)
    fun _ _ _ _ => True.intro
  refine Walk.next (beginFinalizing_paces .none) (fun fl m _ _ h => ?_) fun _ _ _ _ => True.intro
  exact (finishTerminal_walk (h.2 _ rfl) .none).trivial

theorem fail_walk {input : OperationInput} {error : Failure} :
    Walk body env inputs (fun _ _ => True) fl l (fail env input aggregate error) := by
  have restart : ∀ {fl m α} {error : Failure}, Steps body env inputs fl m (do
      transition input.operationId .applying .failedRetryable none
      throw error : Handler α) := fun {fl m α error} =>
    Steps.next (transition_steps (.inr (.inr rfl)) .none) fun _ _ _ _ => .throw
  refine Conforms.run_ite (fun _ => ?_) fun _ => restart.trivial
  refine Walk.next (Steps.handle (synchronizeAppliedAssignments_steps haggregate)
    fun fl m e _ => restart) (fun fl m _ _ _ => ?_) fun _ _ _ _ => True.intro
  refine Walk.next (transition_steps (.inr (.inl rfl)) .none) (fun fl m _ _ _ => ?_)
    fun _ _ _ _ => True.intro
  refine Walk.next (findOperation_steps outside) (fun fl m found _ _ => ?_) fun _ _ _ _ => True.intro
  cases found with
  | none => exact Conforms.run_throw True.intro
  | some latest => exact compensate_walk haggregate

theorem advance_walk {input : OperationInput} :
    Walk body env inputs (fun _ _ => True) fl l (advance env input aggregate) := by
  have htry : Walk body env inputs (Returns fun failure m => failure = none →
      Finalizing m none input.operationId .completed) fl l (tryCatch (do
        applyAssignments input aggregate none
        beginFinalizing input .applying .completed none
        return none) fun error => return some error : Handler (Option Failure)) := by
    refine Conforms.run_handle (R := fun _ m r => Returns (fun _ m =>
      Finalizing m none input.operationId .completed) m r) ?_ (fun fl m failure h => ?_)
      fun fl m e h => Conforms.run_pure (.ok nofun)
    · refine Walk.next (applyAssignments_steps haggregate outside) (fun fl m _ _ _ => ?_)
        fun _ _ _ _ => .error
      refine Walk.next (beginFinalizing_paces .none) (fun fl m u _ h => ?_) fun _ _ _ _ => .error
      exact Conforms.run_pure (.ok (h.2 u rfl))
    · exact .ok fun _ => h failure rfl
  refine Walk.next htry (fun fl m failure _ h => ?_) fun _ _ _ _ => True.intro
  cases failure with
  | none => exact (finishTerminal_walk (h none rfl rfl) .none).trivial
  | some error => exact fail_walk haggregate

omit haggregate

/-- An operation that is found to be finalizing has been shown. -/
theorem obtainOperation_walk {input : OperationInput} (hinput : inputs input ∧ Valid env input) :
    Walk body env inputs (Returns fun d m => d.status = .finalizing →
      d.operationId = input.operationId ∧ Shown m none (.operation d)) fl l
      (obtainOperation env input) := by
  have hfind : ∀ {fl m}, Paces body env inputs (Returns fun found m => ∀ d ∈ found,
      d.operationId = input.operationId ∧ Shown m none (.operation d)) fl m
      (findOperation input.operationId none) := by
    intro fl m
    refine find_paces outside (fun found v ha => .ok fun d hd => ?_) fun _ _ => .error
    cases hd
    have hfound : FindOne (fun d => decide (d.operationId = input.operationId)) v.operations
        (some d) := ha
    refine ⟨of_decide_eq_true hfound.select, .saw none (.operation input.operationId (some d)),
      List.mem_cons_self, rfl, List.mem_cons_self⟩
  refine Walk.next hfind (fun fl m found _ h => ?_) fun _ _ _ _ => .error
  cases found with
  | some d => exact Conforms.run_pure (.ok fun _ => h.2 _ rfl d rfl)
  | none =>
    refine Conforms.run_handle (createOperation_paces hinput outside) (fun fl m d h => ?_)
      fun fl m e _ => ?_
    · refine .ok fun hstatus => ?_
      rw [(h.2 d rfl).1] at hstatus
      cases hstatus
    · refine Conforms.run_ite (fun _ => ?_) fun _ => Conforms.run_throw .error
      refine Walk.next hfind (fun fl m found _ h => ?_) fun _ _ _ _ => .error
      cases found with
      | some d => exact Conforms.run_pure (.ok fun _ => h.2 _ rfl d rfl)
      | none => exact Conforms.run_throw .error

include haggregate

theorem executeSaga_walk {input : OperationInput} (hinput : inputs input ∧ Valid env input) :
    Walk body env inputs (fun _ _ => True) fl l (executeSaga env input aggregate) := by
  refine Walk.next (obtainOperation_walk hinput) (fun fl m operation _ h => ?_)
    fun _ _ _ _ => True.intro
  have hstart : ∀ {source}, Walk body env inputs (fun _ _ => True) fl m (do
      transition input.operationId source .applying none
      advance env input aggregate) := fun {source} =>
    Walk.next (transition_steps (.inl rfl) .none) (fun _ _ _ _ _ => advance_walk haggregate)
      fun _ _ _ _ => True.intro
  cases hstatus : operation.status with
  | completed | failedTerminal => exact replay_steps.trivial
  | finalizing =>
    obtain ⟨hid, hshown⟩ := h operation rfl hstatus
    exact (finishTerminal_walk ⟨operation, hid, hstatus, rfl, hshown⟩ .none).trivial
  | compensating => exact compensate_walk haggregate
  | applying => exact advance_walk haggregate
  | pending | failedRetryable => exact hstart

theorem resumeOrReplay_walk {operation : AuthIdentifierOperation} {input : OperationInput}
    (hinput : inputs input ∧ Valid env input) :
    Walk body env inputs (fun _ _ => True) fl l (resumeOrReplay env operation input aggregate) := by
  refine Conforms.run_ite (fun _ => Conforms.run_throw True.intro) fun _ => ?_
  refine Walk.next (R := fun _ _ => True) (Conforms.run_ite (fun _ => Conforms.run_pure True.intro)
    fun _ => Conforms.run_throw True.intro) (fun fl m _ _ _ => ?_) fun _ _ _ _ => True.intro
  refine Conforms.run_ite (fun _ => replay_steps.trivial) fun _ => ?_
  refine Conforms.run_ite (fun _ => ?_) fun _ => executeSaga_walk haggregate hinput
  refine Conforms.run_ite (fun _ => Conforms.run_throw True.intro) fun _ => ?_
  refine Walk.next (recordIdempotent_walk outside .recordResumed) (fun fl m _ _ _ => ?_)
    fun _ _ _ _ => True.intro
  refine Walk.draw (fun fl now => ?_) fun _ => True.intro
  exact Walk.next (updateOperation_steps outside (.quiet rfl))
    (fun _ _ _ _ _ => executeSaga_walk haggregate hinput) fun _ _ _ _ => True.intro

omit haggregate in
theorem validateInput_paces {input : OperationInput} :
    Paces body env inputs (Returns fun _ _ => Valid env input) fl l (validateInput env input) := by
  refine .ite (fun _ => .throw .error) fun hid => .ite (fun _ => .throw .error) fun hlength =>
    .ite (fun hnodup => .pure (.ok ?_)) fun _ => .throw .error
  rw [not_or, not_lt] at hlength
  exact ⟨hid, hlength.1, hlength.2, hnodup⟩

theorem execute_walk {input : OperationInput} (hinput : inputs input) :
    Walk body env inputs (fun _ _ => True) fl l (execute env input aggregate) := by
  refine Walk.next validateInput_paces (fun fl m _ _ h => ?_) fun _ _ _ _ => True.intro
  have hinput : inputs input ∧ Valid env input := ⟨hinput, h.2 _ rfl⟩
  refine Walk.next (findOperation_steps outside) (fun fl m found _ _ => ?_) fun _ _ _ _ => True.intro
  cases found with
  | some existing => exact resumeOrReplay_walk haggregate hinput
  | none =>
    refine Conforms.run_ite (fun _ => executeSaga_walk haggregate hinput) fun _ => ?_
    refine Conforms.run_handle (executeInTransaction_walk haggregate hinput)
      (fun _ _ _ _ => True.intro) fun fl m error _ => ?_
    exact Conforms.run_ite (fun _ => Conforms.run_throw True.intro) fun _ =>
      executeSaga_walk haggregate hinput

theorem reconcile_walk {input : OperationInput} (hinput : inputs input) :
    Walk body env inputs (fun _ _ => True) fl l (reconcile env input aggregate) := by
  refine Walk.next validateInput_paces (fun fl m _ _ h => ?_) fun _ _ _ _ => True.intro
  have hinput : inputs input ∧ Valid env input := ⟨hinput, h.2 _ rfl⟩
  refine Walk.next (findOperation_steps outside) (fun fl m found _ _ => ?_) fun _ _ _ _ => True.intro
  cases found with
  | some existing => exact resumeOrReplay_walk haggregate hinput
  | none => exact Conforms.run_throw True.intro

end AuthIdentifierService

namespace AuthIdentifierService

theorem castObjectId_confined {P : (β : Type) → Op β → Prop} {path value : String} :
    (castObjectId path value).run.Confined P := by
  rw [castObjectId]
  cases ObjectId.parse value <;> trivial

theorem perform_confined {β : Type} {P : (β : Type) → Op β → Prop} {op : Op β} (h : P β op)
    (hdraw : ∀ β (x : Accounts.Draw β), P β (.draw x)) : (perform op).run.Confined P :=
  Sessions.perform_confined h (hdraw _ _)

theorem write_confined {P : (β : Type) → Op β → Prop} {session : Option ℕ} {w : Write}
    (h : P _ (.change (.write session w))) (hdraw : ∀ β (x : Accounts.Draw β), P β (.draw x)) :
    (write session w).run.Confined P := by
  refine .run_bind (perform_confined h hdraw) fun r => ?_
  cases r with
  | written docs => exact .run_pure
  | unmatched => exact .run_pure
  | duplicateKey => exact .run_bind (perform_confined (hdraw _ _) hdraw) fun _ => .run_throw

theorem updateIdentifier_confined {P : (β : Type) → Op β → Prop} {session : Option ℕ}
    {u : IdentifierUpdate} (h : P _ (.change (.write session (.updateIdentifier u))))
    (hdraw : ∀ β (x : Accounts.Draw β), P β (.draw x)) :
    (updateIdentifier session u).run.Confined P :=
  .run_bind (write_confined h hdraw) fun _ => .run_pure

/-- The account of an assignment is changed by one write, in the transaction. -/
theorem updateAggregateIdentifier_confined {P : (β : Type) → Op β → Prop} {session : Option ℕ}
    {assignment : AuthIdentifierAssignmentInput} {normalizedIdentifier : String}
    (h : P _ (.change (.write session (.account (.setAccountIdentifier assignment.subjectType
      assignment.subjectId normalizedIdentifier)))))
    (hdraw : ∀ β (x : Accounts.Draw β), P β (.draw x)) :
    (updateAggregateIdentifier assignment normalizedIdentifier session).run.Confined P := by
  have hlift : ∀ β (op : Accounts.Op β), P β (liftOp op) → P β (liftOp op) := fun _ _ h => h
  refine .run_lift hlift (.run_bind (Accounts.perform_confined h (hdraw _ _)) fun r => ?_)
  cases r with
  | written docs => exact .run_pure
  | unmatched => exact .run_throw
  | duplicateKey => exact Accounts.confined_raiseDuplicateKey fun _ => hdraw _ _

theorem conflictAggregateAdapter_modest {conflictId originalIdentifier : String}
    {releaseOnAssignmentId : Option String} :
    (conflictAggregateAdapter conflictId originalIdentifier releaseOnAssignmentId).Modest where
  apply assignment session := by
    have hdraw : ∀ β (x : Accounts.Draw β), Modest session β (.draw x) := fun _ _ => trivial
    have release : (if releaseOnAssignmentId = some assignment.assignmentId then
        releaseOriginalConflict conflictId assignment session else pure ()).run.Confined
        (Modest session) := by
      refine .run_ite (fun _ => ?_) fun _ => .run_pure
      refine .run_bind (perform_confined (hdraw _ _) hdraw) fun now => ?_
      refine .run_bind castObjectId_confined fun id => ?_
      exact updateIdentifier_confined ⟨rfl, rfl⟩ hdraw
    refine .run_ite (fun _ => ?_) fun _ => release
    exact .run_bind (updateAggregateIdentifier_confined ⟨rfl, rfl⟩ hdraw) fun _ => release
  compensate assignment session := by
    have hdraw : ∀ β (x : Accounts.Draw β), Modest session β (.draw x) := fun _ _ => trivial
    have restore : (if releaseOnAssignmentId = some assignment.assignmentId then do
          let id ← castObjectId "_id" conflictId
          updateIdentifier session (.restoreConflict id)
        else pure () : Handler Unit).run.Confined (Modest session) := by
      refine .run_ite (fun _ => ?_) fun _ => .run_pure
      exact .run_bind castObjectId_confined fun id => updateIdentifier_confined ⟨rfl, rfl⟩ hdraw
    refine .run_ite (fun _ => ?_) fun _ => restore
    exact .run_bind (updateAggregateIdentifier_confined ⟨rfl, rfl⟩ hdraw) fun _ => restore
  isApplied isApplied h assignment session := by
    cases h
    refine .run_ite (fun _ => .run_pure) fun _ => ?_
    exact perform_confined (.inr rfl) fun _ _ => trivial

variable {Call ρ : Type} {body : Call → Prog Op ρ} {env : Environment}
  {inputs : OperationInput → Prop} {fl : Bool} {l : List Event}

theorem resolveActiveIdentifier_walk {normalizedIdentifier : String} :
    Walk body env inputs (fun _ _ => True) fl l (resolveActiveIdentifier normalizedIdentifier) := by
  refine Walk.next (find_steps outside) (fun fl m found _ _ => ?_) fun _ _ _ _ => True.intro
  cases found with
  | none => exact Conforms.run_pure True.intro
  | some reservation =>
    refine Conforms.run_ite (fun _ => Conforms.run_pure True.intro) fun _ => ?_
    cases reservation.activationGateOperationId with
    | none => exact Conforms.run_pure True.intro
    | some operationId =>
      refine Walk.next (findOperation_steps outside) (fun fl m gate _ _ => ?_)
        fun _ _ _ _ => True.intro
      exact Conforms.run_ite (fun _ => Conforms.run_pure True.intro) fun _ =>
        Conforms.run_pure True.intro

theorem normalizeIdentifier_steps {value : String} :
    Steps body env inputs fl l (normalizeIdentifier env value) :=
  .ite (fun _ => .throw) fun _ => .pure

theorem validateConflictMapping_steps {subjects : List AuthIdentifierSubjectReference}
    {originalIdentifier : String} {dto : ResolveAuthIdentifierConflictDto} :
    Steps body env inputs fl l (validateConflictMapping env subjects originalIdentifier dto) := by
  refine Steps.ite (fun _ => .throw) fun _ => Steps.ite (fun _ => .throw) fun _ =>
    Steps.ite (fun _ => .throw) fun _ => ?_
  refine Steps.next (Steps.mapM fun _ _ _ _ _ => normalizeIdentifier_steps) fun fl m _ _ => ?_
  exact .ite (fun _ => .throw) fun _ => .pure

theorem resolveConflict_walk {conflictId : String} {dto : ResolveAuthIdentifierConflictDto}
    {actor : AuthIdentifierSubjectReference}
    (hinputs : ∀ assignments, inputs (conflictInput dto assignments actor)) :
    Walk body env inputs (fun _ _ => True) fl l (resolveConflict env conflictId dto actor) := by
  refine Walk.next castObjectId_steps (fun fl m id _ _ => ?_) fun _ _ _ _ => True.intro
  refine Walk.next (find_steps outside) (fun fl m found _ _ => ?_) fun _ _ _ _ => True.intro
  cases found with
  | none => exact Conforms.run_throw True.intro
  | some conflict =>
    refine Conforms.run_ite (fun _ => Conforms.run_throw True.intro) fun _ => ?_
    refine Conforms.run_ite (fun _ => Conforms.run_throw True.intro) fun _ => ?_
    refine Walk.next validateConflictMapping_steps (fun fl m _ _ _ => ?_) fun _ _ _ _ => True.intro
    refine Walk.next (Steps.mapM fun item _ fl m _ => Steps.next normalizeIdentifier_steps
      fun _ _ _ _ => .pure) (fun fl m reassignments _ _ => ?_) fun _ _ _ _ => True.intro
    exact execute_walk conflictAggregateAdapter_modest (hinputs _)

end AuthIdentifierService

end Operations
