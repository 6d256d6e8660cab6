import BookLibrary.Operations.SagaConduct

/-!
# Walking through passes and repairs

Every write of `AuthIdentifierReconciliationService` and `AuthIdentifierRepairService` is made
on what its request has seen: an operation that the pass has claimed, or the parent of the
repair.
-/

namespace Operations

open AuthIdentifiers Documents Interleaving

open AuthIdentifierService (perform_confined write_confined castObjectId_steps)

section Passes

namespace AuthIdentifierReconciliationService

variable {Call ρ : Type} {body : Call → Prog Op ρ} {env : Environment} {instanceId : String}
  {inputs : OperationInput → Prop} {fl : Bool} {l : List Event}

theorem claim_paces {id : String} :
    Paces body env inputs (Returns fun found m => ∀ d ∈ found, Claimed m d) fl l
      (claim env instanceId id) := by
  refine Paces.draw (fun fl now => ?_) fun _ => .error
  refine Paces.next (R := Returns fun docs m => ∀ d, operationOf docs = some d → Claimed m d)
    (write_paces outside (.quiet rfl) rfl (fun v _ => .ok fun d hd => ?_) fun _ _ => .error)
    (fun fl m docs _ h => .pure (.ok (h docs rfl))) fun _ _ _ _ => .error
  have hne : (schema.write (.updateOperation (.claim id instanceId now
      (now + seconds env.leaseSeconds) (now - seconds CLOCK_SKEW_SECONDS))) v).docs ≠ [] := by
    intro hnil
    rw [hnil] at hd
    cases hd
  obtain ⟨x, -, -, hx⟩ := updated_of_docs hne
  rw [hx] at hd ⊢
  cases hd
  exact ⟨_, _, _, _, _, List.mem_cons_self⟩

theorem renewLease_steps {operationId : String} :
    Steps body env inputs fl l (renewLease env instanceId operationId) :=
  .draw fun _ _ => updateOperation_steps outside (.quiet rfl)

theorem releaseLease_steps {operationId : String} :
    Steps body env inputs fl l (releaseLease instanceId operationId) :=
  .draw fun _ _ => Steps.next (updateOperation_steps outside (.quiet rfl)) fun _ _ _ _ => .pure

/-- In memory an operation is given reservations, and no more. -/
structure Attached (d d' : AuthIdentifierOperation) : Prop where
  operationId : d'.operationId = d.operationId
  status : d'.status = d.status
  cleanupStatus : d'.cleanupStatus = d.cleanupStatus
  isFailed : isFailed d' = isFailed d

theorem Attached.refl (d : AuthIdentifierOperation) : Attached d d := ⟨rfl, rfl, rfl, rfl⟩

theorem Attached.trans {d d' d'' : AuthIdentifierOperation} (h : Attached d d')
    (h' : Attached d' d'') : Attached d d'' where
  operationId := h'.operationId.trans h.operationId
  status := h'.status.trans h.status
  cleanupStatus := h'.cleanupStatus.trans h.cleanupStatus
  isFailed := h'.isFailed.trans h.isFailed

theorem Attached.terminalStatus {d d' : AuthIdentifierOperation} (h : Attached d d') :
    terminalStatus d' = terminalStatus d := by
  rw [AuthIdentifierReconciliationService.terminalStatus,
    AuthIdentifierReconciliationService.terminalStatus, h.isFailed]

theorem attachInMemory_compensated (reservation : AuthIdentifier)
    (assignments : List AuthIdentifierOperationAssignment) :
    ((attachInMemory reservation assignments).all fun item => decide (item.status = .compensated)) =
      assignments.all fun item => decide (item.status = .compensated) := by
  induction assignments with
  | nil => rfl
  | cons item rest ih =>
    rw [attachInMemory]
    split
    · rfl
    · rw [List.all_cons, List.all_cons, ih]

theorem attachInMemory_attached (reservation : AuthIdentifier) (d : AuthIdentifierOperation) :
    Attached d { d with assignments := attachInMemory reservation d.assignments } where
  operationId := rfl
  status := rfl
  cleanupStatus := rfl
  isFailed := by simp only [isFailed, attachInMemory_compensated]

theorem attachReference_paces {operation : AuthIdentifierOperation} {reservation : AuthIdentifier} :
    Paces body env inputs (Returns fun d' _ => Attached operation d') fl l
      (attachReference env instanceId operation reservation) := by
  rw [attachReference]
  cases operation.assignments.find? (awaits reservation) with
  | none => exact .pure (.ok (.refl _))
  | some assignment =>
    refine Paces.next (R := fun _ _ => True)
      ((updateOperation_steps outside (.quiet rfl)).paces fun _ _ _ => True.intro)
      (fun fl m _ _ _ => .pure (.ok ?_)) fun _ _ _ _ => .error
    exact attachInMemory_attached reservation operation

/-- What a pass may do with the operation that it has claimed. -/
theorem transition_steps {d : AuthIdentifierOperation} {target : AuthIdentifierOperationStatus}
    (hclaimed : Claimed l d) (hstatus : d.status.isTerminal = false)
    (htarget : target ≠ d.status → target ∈ allowedTransitions d.status ∧ target.isTerminal = false ∨
      target = .failedRetryable ∧ ∃ reservations, .saw none (.listed d reservations) ∈ l ∧
        env.identifierMaxOperationAssignments < reservations.length) :
    Steps body env inputs fl l (transition instanceId d.operationId d.status target) := by
  refine Steps.ite (fun _ => .pure) fun hne => ?_
  have hwarranted : Warranted env inputs l none (.updateOperation
      (.recoverTransition d.operationId instanceId d.status target)) :=
    .recoverTransition hclaimed hstatus (htarget (Ne.symm hne))
  exact Steps.next (updateOperation_steps outside hwarranted) fun _ _ _ _ => .pure

theorem attachMissingReservationReferences_paces {d : AuthIdentifierOperation}
    (hclaimed : Claimed l d) (hstatus : d.status.isTerminal = false) :
    Paces body env inputs (Returns fun d' _ => Attached d d') fl l
      (attachMissingReservationReferences env instanceId d) := by
  refine Paces.next (R := Returns fun reservations m => .saw none (.listed d reservations) ∈ m)
    (find_paces outside (fun _ _ _ => .ok List.mem_cons_self) fun _ _ => .error)
    (fun fl m reservations hm h => ?_) fun _ _ _ _ => .error
  refine Paces.ite (fun hmax => ?_) fun _ => ?_
  · have htarget : AuthIdentifierOperationStatus.failedRetryable ≠ d.status →
        .failedRetryable ∈ allowedTransitions d.status ∧
          AuthIdentifierOperationStatus.failedRetryable.isTerminal = false ∨
        AuthIdentifierOperationStatus.failedRetryable = .failedRetryable ∧ ∃ reservations,
          .saw none (.listed d reservations) ∈ m ∧
            env.identifierMaxOperationAssignments < reservations.length :=
      fun _ => .inr ⟨rfl, reservations, h reservations rfl, hmax⟩
    refine Paces.next (R := fun _ _ => True) ((transition_steps (hclaimed.mono hm.suffix.subset)
      hstatus htarget).paces fun _ _ _ => True.intro) (fun fl m _ _ _ => .pure (.ok (.refl d)))
      fun _ _ _ _ => .error
  · have hfold : ∀ {reservations : List AuthIdentifier} {fl m d'}, Attached d d' →
        Paces body env inputs (Returns fun d'' _ => Attached d d'') fl m
          (reservations.foldlM (attachReference env instanceId) d') := by
      intro reservations
      induction reservations with
      | nil => exact fun hd' => .pure (.ok hd')
      | cons reservation reservations ih =>
        intro fl m d' hd'
        rw [List.foldlM_cons]
        exact Paces.next attachReference_paces (fun fl m d'' _ h => ih (hd'.trans (h d'' rfl)))
          fun _ _ _ _ => .error
    exact hfold (.refl d)

theorem findReservation_steps {operation : AuthIdentifierOperation}
    {assignment : AuthIdentifierOperationAssignment} :
    Steps body env inputs fl l (findReservation operation assignment) := by
  rw [findReservation]
  cases assignment.targetReservationId with
  | none => exact find_steps outside
  | some id => exact find_steps outside

theorem recoverAssignment_steps {operation : AuthIdentifierOperation}
    {assignment : AuthIdentifierOperationAssignment} :
    Steps body env inputs fl l (recoverAssignment instanceId operation assignment) := by
  refine Steps.ite (fun _ => .pure) fun _ => ?_
  refine Steps.next findReservation_steps fun fl m found _ => ?_
  cases found with
  | none => exact .pure
  | some reservation =>
    refine Steps.ite (fun _ => ?_) fun _ => .pure
    exact Steps.next (updateOperation_steps outside (.quiet rfl)) fun _ _ _ _ => .pure

theorem restoreAssignment_steps {operation : AuthIdentifierOperation}
    {assignment : AuthIdentifierOperationAssignment} :
    Steps body env inputs fl l (restoreAssignment instanceId operation assignment) := by
  refine Steps.ite (fun _ => .pure) fun _ => Steps.ite (fun _ => .pure) fun _ => ?_
  refine Steps.next findReservation_steps fun fl m found _ => ?_
  cases found with
  | none => exact .pure
  | some reservation =>
    refine Steps.ite (fun _ => .pure) fun _ => ?_
    refine Steps.next (updateIdentifier_steps outside) fun fl m _ _ => ?_
    exact Steps.next (updateOperation_steps outside (.quiet rfl)) fun _ _ _ _ => .pure

/-- The loop over the assignments, and the transition that it decides on. -/
theorem recover_steps {d : AuthIdentifierOperation} {source : AuthIdentifierOperationStatus}
    {x : Handler (List Bool)} (hclaimed : Claimed l d) (hstatus : d.status = source)
    (hsource : source = .applying ∨ source = .compensating)
    (hx : Steps body env inputs fl l x) :
    Steps body env inputs fl l (do
      let retries ← x
      transition instanceId d.operationId source
        (if retries.any id then .failedRetryable else .finalizing)) := by
  refine Steps.next hx fun fl m retries hm => ?_
  subst hstatus
  refine transition_steps (hclaimed.mono hm.suffix.subset) ?_ fun _ => .inl ?_
  · rcases hsource with h | h <;> rw [h] <;> rfl
  · rcases hsource with h | h <;> rw [h] <;> split <;> decide

theorem finalize_walk {d d' : AuthIdentifierOperation} (hclaimed : Claimed l d)
    (hattached : Attached d d') (hstatus : d.status = .finalizing) :
    Walk body env inputs (fun _ _ => True) fl l (finalize env instanceId d') := by
  refine Walk.next (R := Returns fun eventId m =>
    eventId = SecurityActivityService.terminalEventId d.operationId (terminalStatus d) ∧ l ⊆ m ∧
      Recorded m none (SecurityActivityService.terminalEventId d.operationId (terminalStatus d))) ?_
    (fun fl m eventId _ h => ?_) fun _ _ _ _ => True.intro
  · have hid : d.operationId = (terminalInput d').operationId := hattached.operationId.symm
    have heventId : SecurityActivityService.terminalEventId (terminalInput d').operationId
        (terminalInput d').terminalStatus =
          SecurityActivityService.terminalEventId d.operationId (terminalStatus d) := by
      rw [← hid]
      exact congrArg _ hattached.terminalStatus
    refine Walk.next (recordIdempotent_walk outside (.recordClaimed hclaimed hstatus hid
      hattached.terminalStatus.symm)) (fun fl m u _ h => ?_) fun _ _ _ _ => .error
    obtain ⟨r, rfl⟩ := h u rfl
    refine Conforms.run_pure (.ok ⟨heventId, List.subset_cons_self _ _, _, r, ?_,
      List.mem_cons_self⟩)
    exact congrArg some heventId
  · obtain ⟨rfl, hsub, hrecorded⟩ := h eventId rfl
    refine Walk.draw (fun fl now => ?_) fun _ => True.intro
    rw [hattached.operationId, hattached.terminalStatus, hattached.cleanupStatus]
    refine Walk.next (updateOperation_steps outside (.finalize (hclaimed.mono hsub) hstatus hrecorded
      fun hpending => if_pos hpending)) (fun _ _ _ _ _ => Conforms.run_pure True.intro)
      fun _ _ _ _ => True.intro

theorem cleanup_walk {d : AuthIdentifierOperation} (hclaimed : Claimed l d)
    (hstatus : d.status.isTerminal = true) :
    Walk body env inputs (fun _ _ => True) fl l (cleanup env instanceId d) := by
  -- what has to be seen before the cleanup is over
  have finish : ∀ {fl m}, Claimed m d → Walk body env inputs (fun _ _ => True) fl m (do
      let _ ← renewLease env instanceId d.operationId
      let gateRemaining ← findOwn none (.anyGated d)
      let batchRemaining ← findOwn none (.anyOpenBatch d.operationId)
      if gateRemaining || batchRemaining then return
      else do
        let now ← draw .currentDate
        let _ ← updateOperation none (.finishCleanup d.operationId instanceId now
          (now + days env.retentionDays))) := by
    intro fl m hm
    refine Walk.next renewLease_steps (fun fl m₁ _ h₁ _ => ?_) fun _ _ _ _ => True.intro
    have hm₁ := hm.mono h₁.subset
    refine Walk.next (R := fun m r => Returns (fun gated m => m = .saw none (.gated d gated) :: m₁) m r)
      ((find_paces outside (fun _ _ _ => .ok rfl) fun _ _ => .error).mono
        fun _ _ _ h => h.2) (fun fl m₂ gated h₂ hgated => ?_) fun _ _ _ _ => True.intro
    obtain rfl := hgated gated rfl
    refine Walk.next (find_steps outside) (fun fl m₃ remaining h₃ _ => ?_) fun _ _ _ _ => True.intro
    refine Conforms.run_ite (fun _ => Conforms.run_pure True.intro) fun hnone => ?_
    refine Walk.draw (fun fl now => ?_) fun _ => True.intro
    have hfalse : gated = false := by
      cases gated with
      | false => rfl
      | true => exact absurd rfl hnone
    subst hfalse
    refine Walk.next (updateOperation_steps outside (.finishCleanup hstatus ⟨m₁, h₃, hm₁⟩))
      (fun _ _ _ _ _ => Conforms.run_pure True.intro) fun _ _ _ _ => True.intro
  have expire : ∀ {fl m} {gated : List AuthIdentifier}, Claimed m d →
      Walk body env inputs (fun _ _ => True) fl m (do
        if gated.length < env.identifierMaxOperationAssignments then do
          let batches ← findOwn none (.listOpenBatches d.operationId
            (env.identifierMaxOperationAssignments - gated.length))
          if ¬ batches.isEmpty then do
            let now ← draw .currentDate
            let _ ← write none (.expireBatches (batches.map (·.id)) now)
        let _ ← renewLease env instanceId d.operationId
        let gateRemaining ← findOwn none (.anyGated d)
        let batchRemaining ← findOwn none (.anyOpenBatch d.operationId)
        if gateRemaining || batchRemaining then return
        else do
          let now ← draw .currentDate
          let _ ← updateOperation none (.finishCleanup d.operationId instanceId now
            (now + days env.retentionDays))) := by
    intro fl m gated hm
    refine Conforms.run_ite (fun _ => ?_) fun _ => finish hm
    refine Walk.next (find_steps outside) (fun fl m₁ batches h₁ _ => ?_) fun _ _ _ _ => True.intro
    refine Conforms.run_ite (fun _ => ?_) fun _ => finish (hm.mono h₁.subset)
    refine Walk.draw (fun fl now => ?_) fun _ => True.intro
    exact Walk.next (write_steps outside .expireBatches rfl)
      (fun fl m₂ _ h₂ _ => finish (hm.mono (h₁.trans h₂).subset)) fun _ _ _ _ => True.intro
  refine Walk.next (find_steps outside) (fun fl m gated h _ => ?_) fun _ _ _ _ => True.intro
  refine Conforms.run_ite (fun _ => ?_) fun _ => expire (hclaimed.mono h.subset)
  exact Walk.next (write_steps outside .ungate rfl)
    (fun fl m₁ _ h₁ _ => expire (hclaimed.mono (h.trans h₁).subset)) fun _ _ _ _ => True.intro

theorem process_walk {d : AuthIdentifierOperation} (hclaimed : Claimed l d) :
    Walk body env inputs (fun _ _ => True) fl l (process env instanceId d) := by
  refine Conforms.run_ite (fun hterminal => ?_) fun hopen => ?_
  · exact Conforms.run_ite (fun _ => cleanup_walk hclaimed hterminal) fun _ =>
      Conforms.run_pure True.intro
  · rw [Bool.not_eq_true] at hopen
    refine Walk.next (attachMissingReservationReferences_paces hclaimed hopen)
      (fun fl m d' hm h => ?_) fun _ _ _ _ => True.intro
    have hattached := h.2 d' rfl
    have hclaimed' := hclaimed.mono hm.subset
    have hmove : ∀ {target : AuthIdentifierOperationStatus},
        target ∈ allowedTransitions d.status ∧ target.isTerminal = false →
        Walk body env inputs (fun _ _ => True) fl m
          (transition instanceId d'.operationId d.status target) := by
      intro target htarget
      rw [hattached.operationId]
      exact (transition_steps hclaimed' hopen fun _ => .inl htarget).trivial
    rw [hattached.status]
    cases hstatus : d.status with
    | pending =>
      rw [hstatus] at hmove
      exact hmove (by decide)
    | failedRetryable =>
      rw [hstatus] at hmove
      exact hmove (by split <;> decide)
    | applying =>
      show Walk body env inputs (fun _ _ => True) fl m (recoverApplying instanceId d')
      rw [recoverApplying, hattached.operationId]
      exact (recover_steps hclaimed' hstatus (.inl rfl)
        (.mapM fun _ _ _ _ _ => recoverAssignment_steps)).trivial
    | compensating =>
      show Walk body env inputs (fun _ _ => True) fl m (recoverCompensating instanceId d')
      rw [recoverCompensating, hattached.operationId]
      exact (recover_steps hclaimed' hstatus (.inr rfl)
        (.mapM fun _ _ _ _ _ => restoreAssignment_steps)).trivial
    | finalizing => exact finalize_walk hclaimed' hattached hstatus
    | completed | failedTerminal =>
      rw [hstatus] at hopen
      cases hopen

theorem reconcileCandidates_walk {candidates : List AuthIdentifierOperation}
    {result : ReconciliationResult} :
    Walk body env inputs (fun _ _ => True) fl l
      (reconcileCandidates env instanceId candidates result) := by
  induction candidates generalizing result fl l with
  | nil => exact Conforms.run_pure True.intro
  | cons candidate candidates ih =>
    refine Conforms.run_ite (fun _ => Conforms.run_pure True.intro) fun _ => ?_
    refine Conforms.run_ite (fun _ => ih) fun _ => ?_
    refine Walk.next claim_paces (fun fl m found _ h => ?_) fun _ _ _ _ => True.intro
    cases found with
    | none => exact ih
    | some operation =>
      have hclaimed : Claimed m operation := h.2 _ rfl operation rfl
      refine Walk.next (R := fun _ _ => True) (Conforms.run_handle (R := fun _ _ _ => True)
        (Walk.next (process_walk hclaimed) (fun _ _ _ _ _ => Conforms.run_pure True.intro)
          fun _ _ _ _ => True.intro) (fun _ _ _ _ => True.intro)
        fun _ _ _ _ => Conforms.run_pure True.intro) (fun fl m _ _ _ => ?_)
        fun _ _ _ _ => True.intro
      exact Walk.next releaseLease_steps (fun _ _ _ _ _ => ih) fun _ _ _ _ => True.intro

theorem runBoundedPass_walk :
    Walk body env inputs (fun _ _ => True) fl l (runBoundedPass env instanceId) := by
  refine Walk.draw (fun fl now => ?_) fun _ => True.intro
  exact Walk.next (find_steps outside) (fun _ _ _ _ _ => reconcileCandidates_walk)
    fun _ _ _ _ => True.intro

end AuthIdentifierReconciliationService

end Passes

section Repairs

variable {Call ρ : Type} {body : Call → Prog Op ρ} {env : Environment}
  {inputs : OperationInput → Prop} {fl : Bool} {l : List Event}

theorem normalizeRepairManifest_steps {manifest : RepairManifest} :
    Steps body env inputs fl l (normalizeRepairManifest env manifest) :=
  .ite (fun _ => .throw) fun _ => .ite (fun _ => .throw) fun _ => .pure

theorem deriveRepairManifestKey_steps {keyMaterial : String} {version : ℕ} :
    Steps body env inputs fl l (deriveRepairManifestKey env keyMaterial version) :=
  .ite (fun _ => .throw) fun _ => .pure

theorem hashRepairManifest_steps {manifest : RepairManifest} {keyMaterial : String} {version : ℕ} :
    Steps body env inputs fl l (hashRepairManifest env manifest keyMaterial version) :=
  Steps.next normalizeRepairManifest_steps fun _ _ _ _ =>
    Steps.next deriveRepairManifestKey_steps fun _ _ _ _ => .pure

theorem authorize_steps {token : String} :
    Steps body env inputs fl l (AuthIdentifierRepairAuthorizationService.authorize env token) := by
  refine Steps.ite (fun _ => .throw) fun _ => Steps.handle (Steps.draw fun fl now => ?_)
    fun _ _ _ _ => .throw
  cases env.verifyToken now token with
  | none => exact .throw
  | some payload =>
    refine Steps.ite (fun _ => .throw) fun _ => Steps.next ?_ fun fl m user _ => ?_
    · refine Steps.next (modest_steps ?_ outside) fun fl m user _ => .ite (fun _ => .throw) fun _ => .pure
      have hlift : ∀ β (op : Accounts.Op β), Modest none β (liftOp op) →
          Modest none β (liftOp op) := fun _ _ h => h
      refine .run_lift hlift ?_
      rw [Accounts.StaffUsersService.findDocumentById, Accounts.toMongoObjectId]
      cases ObjectId.parse payload.sub with
      | none => exact .run_throw
      | some id =>
        refine .run_bind .run_pure fun id => ?_
        refine .run_bind (Accounts.perform_confined (.inl rfl) trivial) fun found => ?_
        cases found with
        | none => exact .run_throw
        | some user => exact .run_pure
    · exact .ite (fun _ => .throw) fun _ => .pure

namespace AuthIdentifierRepairService

open AuthIdentifierRepairAuthorizationService (authorize)

theorem loadConflict_steps {conflictId : String} :
    Steps body env inputs fl l (loadConflict conflictId) := by
  refine Steps.next castObjectId_steps fun fl m id _ => ?_
  refine Steps.next (find_steps outside) fun fl m found _ => ?_
  cases found with
  | none => exact .throw
  | some conflict => exact .ite (fun _ => .pure) fun _ => .throw

theorem validateManifestSubjects_steps {conflict : AuthIdentifier} {manifest : RepairManifest} :
    Steps body env inputs fl l (validateManifestSubjects conflict manifest) :=
  .ite (fun _ => .throw) fun _ => .pure

theorem requireKey_steps {version : ℕ} : Steps body env inputs fl l (requireKey env version) := by
  rw [requireKey]
  cases env.keyMaterial version with
  | none => exact .throw
  | some key => exact .ite (fun _ => .throw) fun _ => .pure

theorem verifyPersistedManifest_paces {operation : AuthIdentifierOperation}
    {manifest : RepairManifest} :
    Paces body env inputs (Returns fun _ _ => operation.manifestHash.isSome = true) fl l
      (verifyPersistedManifest env operation manifest) := by
  refine Paces.ite (fun _ => .throw .error) fun hvalid => ?_
  have hsome : operation.manifestHash.isSome = true := by
    cases hhash : operation.manifestHash with
    | some hash => rfl
    | none =>
      rw [hhash] at hvalid
      exact absurd (.inr (.inl rfl)) hvalid
  refine Steps.paces ?_ fun _ _ _ _ _ => hsome
  refine Steps.next requireKey_steps fun fl m key _ => ?_
  refine Steps.next (Steps.next hashRepairManifest_steps fun _ _ _ _ => .pure)
    fun fl m matching _ => .ite (fun _ => .pure) fun _ => .throw

theorem requireOperation_paces {operationId : String} :
    Paces body env inputs (Returns fun d m => d.operationId = operationId ∧
      Shown m none (.operation d)) fl l (requireOperation operationId) := by
  refine Paces.next (R := Returns fun found m => ∀ d ∈ found, d.operationId = operationId ∧
    Shown m none (.operation d)) (find_paces outside (fun found v ha => .ok fun d hd => ?_)
      fun _ _ => .error) (fun fl m found _ h => ?_) fun _ _ _ _ => .error
  · cases hd
    have hfound : FindOne (fun d => decide (d.operationId = operationId)) v.operations (some d) := ha
    exact ⟨of_decide_eq_true hfound.select, .saw none (.operation operationId (some d)),
      List.mem_cons_self, rfl, List.mem_cons_self⟩
  · cases found with
    | none => exact .throw .error
    | some d => exact .pure (.ok (h _ rfl d rfl))

theorem requireOperation_steps {operationId : String} :
    Steps body env inputs fl l (requireOperation operationId) := requireOperation_paces.steps

theorem dryRun_steps {input : OfflineRepairRequest} :
    Steps body env inputs fl l (dryRun env input) := by
  refine Steps.next authorize_steps fun fl m actorId _ => ?_
  refine Steps.next normalizeRepairManifest_steps fun fl m manifest _ => ?_
  refine Steps.next loadConflict_steps fun fl m conflict _ => ?_
  refine Steps.next validateManifestSubjects_steps fun fl m _ _ => ?_
  cases env.repairKeyVersion with
  | none => exact .throw
  | some version =>
    cases version with
    | zero => exact .throw
    | succ version =>
      refine Steps.next requireKey_steps fun fl m key _ => ?_
      refine Steps.next hashRepairManifest_steps fun fl m manifestHash _ => ?_
      refine Steps.next (find_steps outside) fun fl m found _ => ?_
      cases found with
      | some existing => exact .ite (fun _ => .throw) fun _ => .pure
      | none =>
        refine Steps.draw fun fl now => Steps.draw fun fl id => Steps.ite (fun _ => .throw) fun _ => ?_
        refine Steps.next (write_steps outside .createParent rfl) fun fl m _ _ => ?_
        exact Steps.next requireOperation_steps fun _ _ _ _ => .pure

theorem recordResume_walk {operation : AuthIdentifierOperation} {actorId resumeId : String} :
    Walk body env inputs (fun _ _ => True) fl l (recordResume operation actorId resumeId) :=
  (recordIdempotent_walk outside .recordResumed).trivial

variable {session : Option ℕ} (hs : ∀ n ∈ session, .began n ∈ l)

include hs

theorem reserveReplacement_steps {operation : AuthIdentifierOperation} {item : Reassignment} :
    Steps body env inputs fl l (reserveReplacement operation item session) := by
  refine Steps.draw fun fl now => Steps.draw fun fl newId => Steps.handle
    (Steps.next (write_steps hs .upsertIdentifier rfl) fun fl m docs _ => ?_) fun fl m e _ => ?_
  · cases reservationOf docs with
    | some reservation => exact .pure
    | none => exact .throw
  · exact .ite (fun _ => .throw) fun _ => .throw

theorem setAggregateIdentifier_steps {subjectType : AuthIdentifierSubjectType}
    {subjectId identifier : String} :
    Steps body env inputs fl l (setAggregateIdentifier subjectType subjectId identifier session) :=
  Steps.next (write_steps hs (.aggregate rfl) rfl) fun _ _ _ _ => .pure

theorem applyAggregateIdentifier_steps {item : Reassignment} :
    Steps body env inputs fl l (applyAggregateIdentifier item session) := by
  refine Steps.next ?_ fun fl m current hm => ?_
  · cases item.subjectType with
    | staff => exact Steps.next (find_steps hs) fun _ _ _ _ => .pure
    | member => exact Steps.next (find_steps hs) fun _ _ _ _ => .pure
  · cases current with
    | none => exact .throw
    | some current =>
      refine Steps.ite (fun _ => .pure) fun _ => ?_
      exact setAggregateIdentifier_steps fun n hn => hm.suffix.subset (hs n hn)

theorem prepareAssignment_steps {operation : AuthIdentifierOperation} {batchNumber : ℕ}
    {item : Reassignment} {assignment : AuthIdentifierOperationAssignment} :
    Steps body env inputs fl l
      (prepareAssignment operation batchNumber session item assignment) := by
  refine Steps.next (reserveReplacement_steps hs) fun fl m reservation hm => ?_
  refine Steps.next (applyAggregateIdentifier_steps fun n hn => hm.suffix.subset (hs n hn))
    fun fl m' _ hm' => Steps.draw fun fl now => ?_
  exact Steps.next (write_steps (fun n hn => (hm.trans hm').suffix.subset (hs n hn)) .updateBatch rfl)
    fun _ _ _ _ => .pure

theorem compensateAssignment_steps {manifest : RepairManifest} {originalIdentifier : String}
    {assignment : AuthIdentifierOperationAssignment} :
    Steps body env inputs fl l
      (compensateAssignment manifest originalIdentifier session assignment) := by
  rw [compensateAssignment]
  cases manifest.reassignments.reverse.find? fun item =>
      decide (item.subjectType = assignment.subjectType) &&
        decide (item.subjectId = assignment.subjectId) with
  | none => exact .pure
  | some item =>
    refine Steps.next (setAggregateIdentifier_steps hs) fun fl m _ hm => ?_
    cases assignment.targetReservationId with
    | none => exact .pure
    | some id =>
      exact Steps.draw fun fl now => updateIdentifier_steps fun n hn => hm.suffix.subset (hs n hn)

omit hs

theorem began_of_steady {n : ℕ} {l m : List Event} (hm : Steady (.began n :: l) m) :
    ∀ n' ∈ some n, (.began n' : Event) ∈ m := by
  intro n' hn
  cases hn
  exact hm.suffix.subset List.mem_cons_self

theorem prepareBatch_walk {operation : AuthIdentifierOperation} {conflict : AuthIdentifier}
    {reassignments : List Reassignment} {batchNumber batchCount : ℕ} :
    Walk body env inputs (fun _ _ => True) fl l
      (prepareBatch env operation conflict reassignments batchNumber batchCount) := by
  refine Walk.next (find_steps outside) (fun fl m existing _ _ => ?_) fun _ _ _ _ => True.intro
  refine Conforms.run_ite (fun _ => Conforms.run_pure True.intro) fun _ => ?_
  refine Walk.next requireKey_steps (fun fl m key _ _ => ?_) fun _ _ _ _ => True.intro
  refine Walk.next deriveRepairManifestKey_steps (fun fl m derivedKey _ _ => ?_)
    fun _ _ _ _ => True.intro
  refine Walk.draw (fun fl _ => withTransaction_walk fun fl l' n _ => Steps.settles ?_)
    fun _ => True.intro
  generalize reassignments.map (batchAssignment env operation conflict derivedKey) = assignments
  have fill : ∀ {fl m}, Steady (.began n :: l') m → Steps body env inputs fl m (do
      (reassignments.zip assignments).forM fun pair =>
        prepareAssignment operation batchNumber (some n) pair.1 pair.2
      let now ← draw .currentDate
      let _ ← write (some n) (.updateBatch (.prepare operation.operationId batchNumber now))) := by
    intro fl m hm
    refine Steps.next (Steps.forM fun item _ fl m' hm' => ?_) fun fl m' _ hm' => ?_
    · exact prepareAssignment_steps (began_of_steady (hm.trans hm'))
    · refine Steps.draw fun fl now => ?_
      exact Steps.next (write_steps (began_of_steady (hm.trans hm')) .updateBatch rfl)
        fun _ _ _ _ => .pure
  cases existing with
  | none =>
    refine Steps.draw fun fl id => Steps.ite (fun _ => ?_) fun _ => ?_
    · exact Steps.next .throw fun fl m _ hm => fill hm
    · exact Steps.next (write_steps (began_of_steady (.refl _)) .insertBatch rfl)
        fun fl m _ hm => fill hm
  | some batch =>
    refine Steps.ite (fun _ => ?_) fun _ => fill (.refl _)
    exact Steps.next .throw fun fl m _ hm => fill hm

theorem activateBatch_walk {operationId : String} {batchNumber : ℕ} (hparent : Parent l operationId) :
    Walk body env inputs (fun _ _ => True) fl l (activateBatch operationId batchNumber) := by
  refine Walk.next (find_steps outside) (fun fl m found hm _ => ?_) fun _ _ _ _ => True.intro
  cases found with
  | none => exact Conforms.run_pure True.intro
  | some batch =>
    refine Conforms.run_ite (fun _ => Conforms.run_pure True.intro) fun _ => ?_
    refine Conforms.run_ite (fun _ => Conforms.run_throw True.intro) fun _ => ?_
    refine Walk.draw (fun fl _ => withTransaction_walk fun fl l' n hl => Steps.settles ?_)
      fun _ => True.intro
    have hparent' : Parent (.began n :: l') operationId :=
      hparent.mono ((hm.trans hl).trans (List.suffix_cons _ _)).subset
    refine Steps.next (write_steps (began_of_steady (.refl _)) (.activate hparent') rfl)
      fun fl m' _ hm' => Steps.draw fun fl now => ?_
    exact Steps.next (write_steps (began_of_steady hm') .updateBatch rfl) fun _ _ _ _ => .pure

theorem finishParent_walk {operationId actorId : String} {status : TerminalStatus} {n : ℕ}
    (hparent : Parent l operationId) (hbegan : .began n ∈ l) :
    Walk body env inputs (Returns fun _ m => Settling n l m) fl l
      (finishParent operationId actorId status (some n)) := by
  have hs : ∀ {m : List Event}, l ⊆ m → ∀ n' ∈ some n, .began n' ∈ m := by
    intro m hm n' hn
    cases hn
    exact hm hbegan
  have hfinish : ∀ {fl} {input : SecurityActivityService.TerminalInput}
      {result : AuthIdentifierOperationResult}, input.operationId = operationId →
      input.terminalStatus = status → Walk body env inputs (Returns fun _ m => Settling n l m) fl l (do
        let eventId ← SecurityActivityService.recordIdentifierOperationTerminal input (some n)
        let now ← draw .currentDate
        let _ ← updateOperation (some n)
          (.finishRepair operationId status.status result eventId now)) := by
    rintro fl input result rfl rfl
    refine Walk.next (R := Returns fun eventId m => eventId = SecurityActivityService.terminalEventId
      input.operationId input.terminalStatus ∧ ∃ r, m = .wrote (some n) (.recordEvent
        (SecurityActivityService.terminalEvent input)) r :: l)
      (Walk.next (recordIdempotent_walk (hs (List.Subset.refl _)) (.recordRepair hparent))
        (fun fl m u _ h => Conforms.run_pure (.ok ⟨rfl, h u rfl⟩)) fun _ _ _ _ => .error)
      (fun fl m eventId _ h => ?_) fun _ _ _ _ => .error
    obtain ⟨rfl, r, rfl⟩ := h eventId rfl
    refine Walk.draw (fun fl now => ?_) fun _ => .error
    have hsub : l ⊆ .wrote (some n) (.recordEvent (SecurityActivityService.terminalEvent input)) r :: l :=
      List.subset_cons_self _ _
    refine Walk.next (updateOperation_paces (hs hsub) (.finishRepair (hparent.mono hsub)
      ⟨_, r, rfl, List.mem_cons_self⟩)) (fun fl m updated _ h => ?_) fun _ _ _ _ => .error
    obtain ⟨r', rfl, hr', -⟩ := h.2 updated rfl
    exact (Steps.finish rfl hr' .pure).mono fun _ _ _ h a ha => h a ha n rfl
  exact hfinish rfl rfl

theorem completeParent_walk {input : OfflineRepairRequest} {manifest : RepairManifest}
    {actorId : String} (hparent : Parent l input.operationId) :
    Walk body env inputs (fun _ _ => True) fl l (completeParent input manifest actorId) := by
  refine Walk.draw (fun fl _ => withTransaction_walk fun fl l' n hl => ?_) fun _ => True.intro
  refine Walk.draw (fun fl now => ?_) fun _ => .error
  refine Steps.settle castObjectId_steps fun fl m conflictId hm => ?_
  refine Steps.settle (updateIdentifier_steps (began_of_steady hm)) fun fl m' _ hm' => ?_
  refine finishParent_walk (hparent.mono ?_) (began_of_steady (hm.trans hm') n rfl)
  exact ((hl.trans (List.suffix_cons _ _)).trans (hm.trans hm').suffix).subset

theorem finishFailedParent_walk {operationId actorId : String} (hparent : Parent l operationId) :
    Walk body env inputs (fun _ _ => True) fl l (finishFailedParent operationId actorId) := by
  refine Walk.draw (fun fl _ => withTransaction_walk fun fl l' n hl => ?_) fun _ => True.intro
  refine finishParent_walk (hparent.mono ?_) List.mem_cons_self
  exact (hl.trans (List.suffix_cons _ _)).subset

theorem compensateBatch_walk {batch : AuthIdentifierRepairBatch} {manifest : RepairManifest} :
    Walk body env inputs (fun _ _ => True) fl l (compensateBatch batch manifest) := by
  refine Conforms.run_ite (fun _ => Conforms.run_pure True.intro) fun _ => ?_
  refine Walk.next loadConflict_steps (fun fl m conflict _ _ => ?_) fun _ _ _ _ => True.intro
  refine Walk.draw (fun fl _ => withTransaction_walk fun fl l' n hl => Steps.settles ?_)
    fun _ => True.intro
  refine Steps.next (Steps.forM fun assignment _ fl m hm => ?_) fun fl m _ hm => ?_
  · exact compensateAssignment_steps (began_of_steady hm)
  · refine Steps.draw fun fl now => ?_
    exact Steps.next (write_steps (began_of_steady hm) .updateBatch rfl) fun _ _ _ _ => .pure

/-- A move of the table of transitions, whether the parent is where it starts or not. -/
theorem moveStatus_steps {operationId : String} {sources : List AuthIdentifierOperationStatus}
    {target : AuthIdentifierOperationStatus}
    (hmove : ∀ source ∈ sources, target ∈ allowedTransitions source)
    (htarget : target.isTerminal = false) :
    Steps body env inputs fl l
      (updateOperation none (.moveStatus operationId sources target)) :=
  updateOperation_steps outside (.moveStatus hmove htarget)

theorem applyBatches_walk {input : OfflineRepairRequest} {manifest : RepairManifest}
    {operation : AuthIdentifierOperation} {conflict : AuthIdentifier} {actorId : String}
    (hparent : Parent l input.operationId) :
    Walk body env inputs (fun _ _ => True) fl l
      (applyBatches env input manifest operation conflict actorId) := by
  refine Walk.next (Walk.forM fun item _ fl m _ => ?_) (fun fl m₁ _ h₁ _ => ?_)
    fun _ _ _ _ => True.intro
  · exact Walk.next authorize_steps (fun _ _ _ _ _ => prepareBatch_walk) fun _ _ _ _ => True.intro
  refine Walk.next (Walk.forM fun index _ fl m hm => ?_) (fun fl m₂ _ h₂ _ => ?_)
    fun _ _ _ _ => True.intro
  · refine Walk.next authorize_steps (fun fl m' _ hm' _ => ?_) fun _ _ _ _ => True.intro
    exact activateBatch_walk (hparent.mono ((h₁.trans hm).trans hm').subset)
  refine Walk.next authorize_steps (fun fl m₃ _ h₃ _ => ?_) fun _ _ _ _ => True.intro
  refine Walk.next (moveStatus_steps (by decide) rfl) (fun fl m₄ _ h₄ _ => ?_)
    fun _ _ _ _ => True.intro
  exact completeParent_walk (hparent.mono (((h₁.trans h₂).trans h₃).trans h₄).subset)

theorem compensateBatches_walk {input : OfflineRepairRequest} {manifest : RepairManifest}
    {batches : List AuthIdentifierRepairBatch} {actorId : String}
    (hparent : Parent l input.operationId) :
    Walk body env inputs (fun _ _ => True) fl l
      (compensateBatches env input manifest batches actorId) := by
  refine Walk.next (Walk.forM fun batch _ fl m _ => ?_) (fun fl m₁ _ h₁ _ => ?_)
    fun _ _ _ _ => True.intro
  · exact Walk.next authorize_steps (fun _ _ _ _ _ => compensateBatch_walk) fun _ _ _ _ => True.intro
  refine Walk.next authorize_steps (fun fl m₂ _ h₂ _ => ?_) fun _ _ _ _ => True.intro
  refine Walk.next castObjectId_steps (fun fl m₃ conflictId h₃ _ => ?_) fun _ _ _ _ => True.intro
  refine Walk.next (updateIdentifier_steps outside) (fun fl m₄ _ h₄ _ => ?_)
    fun _ _ _ _ => True.intro
  refine Walk.next (moveStatus_steps (by decide) rfl) (fun fl m₅ _ h₅ _ => ?_)
    fun _ _ _ _ => True.intro
  exact finishFailedParent_walk
    (hparent.mono ((((h₁.trans h₂).trans h₃).trans h₄).trans h₅).subset)

/-- The parent of the repair, as `apply` and `cancel` read it, and what they go on with. -/
theorem required_walk {input : OfflineRepairRequest} {manifest : RepairManifest}
    {f : AuthIdentifierOperation → Handler OfflineRepairResult}
    (hf : ∀ fl m d, Parent m input.operationId → Walk body env inputs (fun _ _ => True) fl m (f d)) :
    Walk body env inputs (fun _ _ => True) fl l (do
      let operation ← requireOperation input.operationId
      verifyPersistedManifest env operation manifest
      f operation) := by
  refine Walk.next requireOperation_paces (fun fl m operation _ h => ?_) fun _ _ _ _ => True.intro
  obtain ⟨hid, hshown⟩ := h.2 operation rfl
  refine Walk.next verifyPersistedManifest_paces (fun fl m' u hm' h' => ?_) fun _ _ _ _ => True.intro
  exact hf fl m' operation ⟨operation, hid, h'.2 u rfl, hshown.mono hm'.subset⟩

theorem apply_walk {input : OfflineRepairRequest} :
    Walk body env inputs (fun _ _ => True) fl l (apply env input) := by
  refine Conforms.run_ite (fun _ => Conforms.run_throw True.intro) fun _ => ?_
  refine Walk.next authorize_steps (fun fl m actorId _ _ => ?_) fun _ _ _ _ => True.intro
  refine Walk.next normalizeRepairManifest_steps (fun fl m manifest _ _ => ?_)
    fun _ _ _ _ => True.intro
  refine required_walk fun fl m operation hparent => ?_
  refine Conforms.run_ite (fun _ => Conforms.run_pure True.intro) fun _ => ?_
  refine Walk.next loadConflict_steps (fun fl m₁ conflict h₁ _ => ?_) fun _ _ _ _ => True.intro
  refine Walk.next validateManifestSubjects_steps (fun fl m₂ _ h₂ _ => ?_) fun _ _ _ _ => True.intro
  refine Walk.next recordResume_walk (fun fl m₃ _ h₃ _ => ?_) fun _ _ _ _ => True.intro
  have hparent₃ := hparent.mono ((h₁.trans h₂).trans h₃).subset
  have run : ∀ {fl m}, Parent m input.operationId → Walk body env inputs (fun _ _ => True) fl m (do
      tryCatch (applyBatches env input manifest operation conflict actorId) fun error => do
        let _ ← updateOperation none (.moveStatus input.operationId [.applying] .failedRetryable)
        throw error
      let operation ← requireOperation input.operationId
      return result env operation manifest.reassignments.length false) := by
    intro fl m hm
    refine Walk.next (R := fun _ _ => True) (Conforms.run_handle (applyBatches_walk hm)
      (fun _ _ _ _ => True.intro) fun fl m e _ => ?_) (fun fl m _ _ _ => ?_) fun _ _ _ _ => True.intro
    · exact (Steps.next (moveStatus_steps (by decide) rfl) fun _ _ _ _ => .throw).trivial
    · exact (Steps.next requireOperation_steps fun _ _ _ _ => .pure).trivial
  refine Conforms.run_ite (fun hsource => ?_) fun _ => run hparent₃
  refine Walk.draw (fun fl now => ?_) fun _ => True.intro
  refine Walk.next (updateOperation_steps outside (.startApplying hsource))
    (fun fl m₄ _ h₄ _ => run (hparent₃.mono h₄.subset)) fun _ _ _ _ => True.intro

theorem cancel_walk {input : OfflineRepairRequest} :
    Walk body env inputs (fun _ _ => True) fl l (cancel env input) := by
  refine Walk.next authorize_steps (fun fl m actorId _ _ => ?_) fun _ _ _ _ => True.intro
  refine Walk.next normalizeRepairManifest_steps (fun fl m manifest _ _ => ?_)
    fun _ _ _ _ => True.intro
  refine required_walk fun fl m operation hparent => ?_
  refine Conforms.run_ite (fun _ => Conforms.run_pure True.intro) fun _ => ?_
  refine Walk.next (moveStatus_steps (by decide) rfl) (fun fl m₁ _ h₁ _ => ?_)
    fun _ _ _ _ => True.intro
  refine Walk.next (find_steps outside) (fun fl m₂ batches h₂ _ => ?_) fun _ _ _ _ => True.intro
  refine Walk.next (R := fun _ _ => True) (Conforms.run_handle
    (compensateBatches_walk (hparent.mono (h₁.trans h₂).subset)) (fun _ _ _ _ => True.intro)
    fun fl m e _ => ?_) (fun fl m _ _ _ => ?_) fun _ _ _ _ => True.intro
  · exact (Steps.next (moveStatus_steps (by decide) rfl) fun _ _ _ _ => .throw).trivial
  · exact (Steps.next requireOperation_steps fun _ _ _ _ => .pure).trivial

end AuthIdentifierRepairService

end Repairs

end Operations
