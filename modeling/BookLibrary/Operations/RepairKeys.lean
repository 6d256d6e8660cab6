import BookLibrary.Operations.Crashes
import BookLibrary.Operations.Expiry
import BookLibrary.Operations.SagaWrites

/-!
# The keys of repairs

A repair is created under a version of the correlation key that is there, and keeps that
version. As long as it is not through, its workers need the key: the policy of the keys asks
for the versions of the repairs that are not.
-/

namespace Operations

open AuthIdentifiers Documents Interleaving

/-- The key of the version is there, for those who ask the policy. -/
def Environment.hasKey (env : Environment) (version : ℕ) : Bool :=
  (env.keyMaterial version).any fun material => decide (material ≠ "")

def INCOMPLETE_REPAIR_STATUSES : List AuthIdentifierOperationStatus :=
  [.pending, .applying, .compensating, .finalizing, .failedRetryable]

/-- The filter of the policy's query for repairs. -/
def requiresRepairKey (d : AuthIdentifierOperation) : Bool :=
  decide (d.operationType = .offlineRepair) && d.manifestKeyVersion.isSome &&
    (decide (d.status ∈ INCOMPLETE_REPAIR_STATUSES) || decide (d.cleanupStatus = .pending))

/-- If the policy asks for the version of the operation, its key is there. -/
def Retained (env : Environment) (d : AuthIdentifierOperation) : Prop :=
  requiresRepairKey d = true → ∀ version, d.manifestKeyVersion = some version →
    env.hasKey version = true

/-- A call that creates an operation creates it under a key that is there, or under none. -/
def Keyed (env : Environment) : (β : Type) → Op β → Prop
  | _, .change (.write _ (.insertOperation d)) =>
    ∀ version, d.manifestKeyVersion = some version → env.hasKey version = true
  | _, _ => True

section Confined

variable {env : Environment} {α β : Type} {session : Option ℕ}

theorem keyed_of_quiet {op : Op β} (h : Sessions.Quiet β op) : Keyed env β op := by
  cases op with
  | change c => cases h
  | _ => trivial

/-- What a request creates is no repair. -/
theorem keyed_of_requests {input : OperationInput} {op : Op β} (h : Requests input β op) :
    Keyed env β op := by
  cases op with
  | change c =>
    cases c with
    | write session w =>
      cases w with
      | insertOperation d =>
        cases h with
        | aggregate hw => cases hw
        | create =>
          intro version hversion
          cases hversion
      | _ => trivial
    | _ => trivial
  | _ => trivial

theorem draw_keyed {x : Accounts.Draw β} : (draw x).run.Confined (Keyed env) :=
  AuthIdentifierService.perform_confined trivial fun _ _ => trivial

theorem find_keyed {q : Query β} : (find session q).run.Confined (Keyed env) :=
  AuthIdentifierService.perform_confined trivial fun _ _ => trivial

theorem write_keyed {w : Write} (h : Keyed env _ (.change (.write session w))) :
    (write session w).run.Confined (Keyed env) :=
  AuthIdentifierService.write_confined h fun _ _ => trivial

theorem updateOperation_keyed {u : OperationUpdate} :
    (updateOperation session u).run.Confined (Keyed env) :=
  .run_bind (write_keyed trivial) fun _ => .run_pure

theorem updateIdentifier_keyed {u : IdentifierUpdate} :
    (updateIdentifier session u).run.Confined (Keyed env) :=
  .run_bind (write_keyed trivial) fun _ => .run_pure

theorem castObjectId_keyed {path value : String} :
    (castObjectId path value).run.Confined (Keyed env) :=
  AuthIdentifierService.castObjectId_confined

theorem recordIdempotent_keyed {e : SecurityActivityEvent} :
    (SecurityActivityService.recordIdempotent session e).run.Confined (Keyed env) := by
  refine .run_tryCatch (.run_bind (write_keyed trivial) fun _ => .run_pure) fun error => ?_
  exact .run_ite (fun _ => .run_pure) fun _ => .run_throw

theorem withTransaction_keyed {callback : ℕ → Handler α}
    (h : ∀ n, (callback n).run.Confined (Keyed env)) :
    (withTransaction callback).run.Confined (Keyed env) :=
  .run_bind draw_keyed fun _ => Sessions.withTransaction_confined trivial (fun _ => trivial)
    (fun _ => trivial) trivial h

theorem mapM_keyed {γ : Type} {xs : List γ} {f : γ → Handler α}
    (h : ∀ x ∈ xs, (f x).run.Confined (Keyed env)) : (xs.mapM f).run.Confined (Keyed env) := by
  induction xs with
  | nil => exact .run_pure
  | cons x xs ih =>
    rw [List.mapM_cons]
    refine .run_bind (h x List.mem_cons_self) fun _ => ?_
    exact .run_bind (ih fun y hy => h y (List.mem_cons_of_mem _ hy)) fun _ => .run_pure

theorem foldlM_keyed {γ : Type} {xs : List γ} {f : α → γ → Handler α} {a : α}
    (h : ∀ a x, (f a x).run.Confined (Keyed env)) : (xs.foldlM f a).run.Confined (Keyed env) := by
  induction xs generalizing a with
  | nil => exact .run_pure
  | cons x xs ih =>
    rw [List.foldlM_cons]
    exact .run_bind (h a x) fun _ => ih

namespace AuthIdentifierReconciliationService

variable {instanceId : String} {operation : AuthIdentifierOperation}

theorem transition_keyed {operationId : String} {source target : AuthIdentifierOperationStatus} :
    (transition instanceId operationId source target).run.Confined (Keyed env) :=
  .run_ite (fun _ => .run_pure) fun _ => .run_bind updateOperation_keyed fun _ => .run_pure

theorem attachMissingReservationReferences_keyed :
    (attachMissingReservationReferences env instanceId operation).run.Confined (Keyed env) := by
  refine .run_bind find_keyed fun reservations => .run_ite (fun _ => ?_) fun _ => ?_
  · exact .run_bind transition_keyed fun _ => .run_pure
  · refine foldlM_keyed fun operation reservation => ?_
    rw [attachReference]
    cases operation.assignments.find? (awaits reservation) with
    | none => exact .run_pure
    | some assignment => exact .run_bind updateOperation_keyed fun _ => .run_pure

theorem findReservation_keyed {assignment : AuthIdentifierOperationAssignment} :
    (findReservation operation assignment).run.Confined (Keyed env) := by
  rw [findReservation]
  cases assignment.targetReservationId with
  | none => exact find_keyed
  | some id => exact find_keyed

theorem recoverApplying_keyed :
    (recoverApplying instanceId operation).run.Confined (Keyed env) := by
  refine .run_bind (mapM_keyed fun assignment _ => ?_) fun _ => transition_keyed
  refine .run_ite (fun _ => .run_pure) fun _ => .run_bind findReservation_keyed fun found => ?_
  cases found with
  | none => exact .run_pure
  | some reservation =>
    exact .run_ite (fun _ => .run_bind updateOperation_keyed fun _ => .run_pure) fun _ => .run_pure

theorem recoverCompensating_keyed :
    (recoverCompensating instanceId operation).run.Confined (Keyed env) := by
  refine .run_bind (mapM_keyed fun assignment _ => ?_) fun _ => transition_keyed
  refine .run_ite (fun _ => .run_pure) fun _ => .run_ite (fun _ => .run_pure) fun _ => ?_
  refine .run_bind findReservation_keyed fun found => ?_
  cases found with
  | none => exact .run_pure
  | some reservation =>
    refine .run_ite (fun _ => .run_pure) fun _ => .run_bind updateIdentifier_keyed fun _ => ?_
    exact .run_bind updateOperation_keyed fun _ => .run_pure

theorem finalize_keyed : (finalize env instanceId operation).run.Confined (Keyed env) := by
  refine .run_bind (.run_bind recordIdempotent_keyed fun _ => .run_pure) fun eventId => ?_
  exact .run_bind draw_keyed fun _ => .run_bind updateOperation_keyed fun _ => .run_pure

theorem renewLease_keyed {operationId : String} :
    (renewLease env instanceId operationId).run.Confined (Keyed env) :=
  .run_bind draw_keyed fun _ => updateOperation_keyed

theorem cleanup_keyed : (cleanup env instanceId operation).run.Confined (Keyed env) := by
  have last : (do
      let _ ← renewLease env instanceId operation.operationId
      let gateRemaining ← findOwn none (.anyGated operation)
      let batchRemaining ← findOwn none (.anyOpenBatch operation.operationId)
      if gateRemaining || batchRemaining then return
      else do
        let now ← draw .currentDate
        let _ ← updateOperation none (.finishCleanup operation.operationId instanceId now
          (now + days env.retentionDays)) : Handler Unit).run.Confined (Keyed env) := by
    refine .run_bind renewLease_keyed fun _ => .run_bind find_keyed fun _ =>
      .run_bind find_keyed fun _ => .run_ite (fun _ => .run_pure) fun _ => ?_
    exact .run_bind draw_keyed fun _ => .run_bind updateOperation_keyed fun _ => .run_pure
  refine .run_bind find_keyed fun gated => ?_
  have batches : (do
      if gated.length < env.identifierMaxOperationAssignments then do
        let batches ← findOwn none (.listOpenBatches operation.operationId
          (env.identifierMaxOperationAssignments - gated.length))
        if ¬ batches.isEmpty then do
          let now ← draw .currentDate
          let _ ← write none (.expireBatches (batches.map (·.id)) now)
      let _ ← renewLease env instanceId operation.operationId
      let gateRemaining ← findOwn none (.anyGated operation)
      let batchRemaining ← findOwn none (.anyOpenBatch operation.operationId)
      if gateRemaining || batchRemaining then return
      else do
        let now ← draw .currentDate
        let _ ← updateOperation none (.finishCleanup operation.operationId instanceId now
          (now + days env.retentionDays)) : Handler Unit).run.Confined (Keyed env) := by
    refine .run_ite (fun _ => ?_) fun _ => last
    refine .run_bind find_keyed fun batches => .run_ite (fun _ => ?_) fun _ => last
    exact .run_bind draw_keyed fun _ => .run_bind (write_keyed trivial) fun _ => last
  refine .run_ite (fun _ => ?_) fun _ => batches
  exact .run_bind (write_keyed trivial) fun _ => batches

theorem process_keyed : (process env instanceId operation).run.Confined (Keyed env) := by
  refine .run_ite (fun _ => .run_ite (fun _ => cleanup_keyed) fun _ => .run_pure) fun _ => ?_
  refine .run_bind attachMissingReservationReferences_keyed fun operation => ?_
  cases operation.status with
  | pending => exact transition_keyed
  | failedRetryable => exact transition_keyed
  | applying => exact recoverApplying_keyed
  | compensating => exact recoverCompensating_keyed
  | finalizing => exact finalize_keyed
  | completed => exact .run_pure
  | failedTerminal => exact .run_pure

/-- A pass creates nothing. -/
theorem runBoundedPass_keyed : (runBoundedPass env instanceId).run.Confined (Keyed env) := by
  refine .run_bind draw_keyed fun now => .run_bind find_keyed fun candidates => ?_
  generalize (⟨candidates.length, 0, 0, 0⟩ : ReconciliationResult) = result
  induction candidates generalizing result with
  | nil => exact .run_pure
  | cons candidate candidates ih =>
    refine .run_ite (fun _ => .run_pure) fun _ => .run_ite (fun _ => ih _) fun _ => ?_
    refine .run_bind (.run_bind draw_keyed fun _ => .run_bind (write_keyed trivial)
      fun _ => .run_pure) fun claimed => ?_
    cases claimed with
    | none => exact ih _
    | some operation =>
      refine .run_bind (.run_tryCatch (.run_bind process_keyed fun _ => .run_pure)
        fun _ => .run_pure) fun _ => ?_
      refine .run_bind (.run_bind draw_keyed fun _ => ?_) fun _ => ih _
      exact .run_bind updateOperation_keyed fun _ => .run_pure

end AuthIdentifierReconciliationService

theorem normalizeRepairManifest_keyed {manifest : RepairManifest} :
    (normalizeRepairManifest env manifest).run.Confined (Keyed env) :=
  .run_ite (fun _ => .run_throw) fun _ => .run_ite (fun _ => .run_throw) fun _ => .run_pure

theorem deriveRepairManifestKey_keyed {keyMaterial : String} {version : ℕ} :
    (deriveRepairManifestKey env keyMaterial version).run.Confined (Keyed env) :=
  .run_ite (fun _ => .run_throw) fun _ => .run_pure

theorem hashRepairManifest_keyed {manifest : RepairManifest} {keyMaterial : String} {version : ℕ} :
    (hashRepairManifest env manifest keyMaterial version).run.Confined (Keyed env) :=
  .run_bind normalizeRepairManifest_keyed fun _ =>
    .run_bind deriveRepairManifestKey_keyed fun _ => .run_pure

namespace AuthIdentifierRepairService

open AuthIdentifierRepairAuthorizationService (authorize findActiveById)

variable {input : OfflineRepairRequest} {manifest : RepairManifest}
  {operation : AuthIdentifierOperation} {conflict : AuthIdentifier} {operationId actorId : String}

theorem authorize_keyed {token : String} : (authorize env token).run.Confined (Keyed env) := by
  refine .run_ite (fun _ => .run_throw) fun _ => .run_tryCatch ?_ fun _ => .run_throw
  refine .run_bind draw_keyed fun now => ?_
  cases env.verifyToken now token with
  | none => exact .run_throw
  | some payload =>
    refine .run_ite (fun _ => .run_throw) fun _ => ?_
    refine .run_bind (findActiveById_quiet.mono keyed_of_quiet) fun user => ?_
    exact .run_ite (fun _ => .run_throw) fun _ => .run_pure

theorem loadConflict_keyed {conflictId : String} :
    (loadConflict conflictId).run.Confined (Keyed env) := by
  refine .run_bind castObjectId_keyed fun id => .run_bind find_keyed fun found => ?_
  cases found with
  | none => exact .run_throw
  | some conflict => exact .run_ite (fun _ => .run_pure) fun _ => .run_throw

theorem validateManifestSubjects_keyed :
    (validateManifestSubjects conflict manifest).run.Confined (Keyed env) :=
  .run_ite (fun _ => .run_throw) fun _ => .run_pure

theorem requireKey_keyed {version : ℕ} : (requireKey env version).run.Confined (Keyed env) := by
  rw [requireKey]
  cases env.keyMaterial version with
  | none => exact .run_throw
  | some key => exact .run_ite (fun _ => .run_throw) fun _ => .run_pure

theorem verifyPersistedManifest_keyed :
    (verifyPersistedManifest env operation manifest).run.Confined (Keyed env) := by
  refine .run_ite (fun _ => .run_throw) fun _ => .run_bind requireKey_keyed fun key => ?_
  refine .run_bind (.run_bind hashRepairManifest_keyed fun _ => .run_pure) fun matching => ?_
  exact .run_ite (fun _ => .run_pure) fun _ => .run_throw

theorem requireOperation_keyed : (requireOperation operationId).run.Confined (Keyed env) := by
  refine .run_bind find_keyed fun found => ?_
  cases found with
  | none => exact .run_throw
  | some operation => exact .run_pure

/-- The key is required before anything is done with it. -/
theorem requireKey_eq {version : ℕ} :
    (∃ e, requireKey env version = throw e) ∨
      ∃ key, requireKey env version = pure key ∧ env.hasKey version = true := by
  rw [requireKey]
  cases hmaterial : env.keyMaterial version with
  | none => exact .inl ⟨_, rfl⟩
  | some key =>
    by_cases hempty : key = ""
    · exact .inl ⟨_, if_pos hempty⟩
    · refine .inr ⟨key, if_neg hempty, ?_⟩
      rw [Environment.hasKey, hmaterial]
      exact decide_eq_true hempty

/-- A dry run creates its repair under the version whose key it has. -/
theorem dryRun_keyed : (dryRun env input).run.Confined (Keyed env) := by
  refine .run_bind authorize_keyed fun actorId => ?_
  refine .run_bind normalizeRepairManifest_keyed fun manifest => ?_
  refine .run_bind loadConflict_keyed fun conflict => ?_
  refine .run_bind validateManifestSubjects_keyed fun _ => ?_
  cases env.repairKeyVersion with
  | none => exact .run_throw
  | some version =>
    cases version with
    | zero => exact .run_throw
    | succ version =>
      rcases @requireKey_eq env (version + 1) with ⟨e, hthrow⟩ | ⟨key, hpure, hkey⟩
      · -- without the key the command ends here
        simp only [hthrow]
        trivial
      simp only [hpure]
      refine .run_bind .run_pure fun key => ?_
      refine .run_bind hashRepairManifest_keyed fun hash => .run_bind find_keyed fun found => ?_
      cases found with
      | some existing => exact .run_ite (fun _ => .run_throw) fun _ => .run_pure
      | none =>
        refine .run_bind draw_keyed fun now => .run_bind draw_keyed fun id => ?_
        refine .run_ite (fun _ => .run_throw) fun _ => .run_bind (write_keyed ?_) fun _ => ?_
        · rintro version' ⟨⟩
          exact hkey
        · exact .run_bind requireOperation_keyed fun _ => .run_pure

theorem setAggregateIdentifier_keyed {subjectType : AuthIdentifierSubjectType}
    {subjectId identifier : String} :
    (setAggregateIdentifier subjectType subjectId identifier session).run.Confined (Keyed env) :=
  .run_bind (write_keyed trivial) fun _ => .run_pure

theorem prepareAssignment_keyed {batchNumber : ℕ} {item : Reassignment}
    {assignment : AuthIdentifierOperationAssignment} :
    (prepareAssignment operation batchNumber session item assignment).run.Confined
      (Keyed env) := by
  have reserve : (reserveReplacement operation item session).run.Confined (Keyed env) := by
    refine .run_bind draw_keyed fun now => .run_bind draw_keyed fun newId => ?_
    refine .run_tryCatch (.run_bind (write_keyed trivial) fun docs => ?_) fun error => ?_
    · cases reservationOf docs with
      | some reservation => exact .run_pure
      | none => exact .run_throw
    · exact .run_ite (fun _ => .run_throw) fun _ => .run_throw
  have aggregate : (applyAggregateIdentifier item session).run.Confined (Keyed env) := by
    refine .run_bind ?_ fun current => ?_
    · cases item.subjectType with
      | staff => exact .run_bind find_keyed fun _ => .run_pure
      | member => exact .run_bind find_keyed fun _ => .run_pure
    · cases current with
      | none => exact .run_throw
      | some current =>
        exact .run_ite (fun _ => .run_pure) fun _ => setAggregateIdentifier_keyed
  refine .run_bind reserve fun reservation => .run_bind aggregate fun _ => ?_
  exact .run_bind draw_keyed fun now => .run_bind (write_keyed trivial) fun _ => .run_pure

theorem prepareBatch_keyed {reassignments : List Reassignment} {batchNumber batchCount : ℕ} :
    (prepareBatch env operation conflict reassignments batchNumber batchCount).run.Confined
      (Keyed env) := by
  refine .run_bind find_keyed fun existing => .run_ite (fun _ => .run_pure) fun _ => ?_
  refine .run_bind requireKey_keyed fun key => ?_
  refine .run_bind deriveRepairManifestKey_keyed fun derivedKey => ?_
  refine .run_bind draw_keyed fun _ => withTransaction_keyed fun n => ?_
  generalize reassignments.map (batchAssignment env operation conflict derivedKey) = assignments
  have fill : (do
      (reassignments.zip assignments).forM fun pair =>
        prepareAssignment operation batchNumber (some n) pair.1 pair.2
      let now ← draw .currentDate
      let _ ← write (some n) (.updateBatch (.prepare operation.operationId batchNumber now)) :
        Handler Unit).run.Confined (Keyed env) := by
    refine .run_bind (.run_forM fun _ _ => prepareAssignment_keyed) fun _ => ?_
    exact .run_bind draw_keyed fun now => .run_bind (write_keyed trivial) fun _ => .run_pure
  cases existing with
  | none =>
    refine .run_bind draw_keyed fun id => .run_ite (fun _ => ?_) fun _ => ?_
    · exact .run_bind .run_throw fun _ => fill
    · exact .run_bind (write_keyed trivial) fun _ => fill
  | some batch =>
    refine .run_ite (fun _ => ?_) fun _ => fill
    exact .run_bind .run_throw fun _ => fill

theorem activateBatch_keyed {batchNumber : ℕ} :
    (activateBatch operationId batchNumber).run.Confined (Keyed env) := by
  refine .run_bind find_keyed fun found => ?_
  cases found with
  | none => exact .run_pure
  | some batch =>
    refine .run_ite (fun _ => .run_pure) fun _ => .run_ite (fun _ => .run_throw) fun _ => ?_
    refine .run_bind draw_keyed fun _ => withTransaction_keyed fun n => ?_
    refine .run_bind (write_keyed trivial) fun _ => .run_bind draw_keyed fun now => ?_
    exact .run_bind (write_keyed trivial) fun _ => .run_pure

theorem finishParent_keyed {status : TerminalStatus} :
    (finishParent operationId actorId status session).run.Confined (Keyed env) := by
  refine .run_bind (.run_bind recordIdempotent_keyed fun _ => .run_pure) fun eventId => ?_
  exact .run_bind draw_keyed fun now => .run_bind updateOperation_keyed fun _ => .run_pure

theorem completeParent_keyed :
    (completeParent input manifest actorId).run.Confined (Keyed env) := by
  refine .run_bind draw_keyed fun _ => withTransaction_keyed fun n => ?_
  refine .run_bind draw_keyed fun now => .run_bind castObjectId_keyed fun id => ?_
  exact .run_bind updateIdentifier_keyed fun _ => finishParent_keyed

theorem compensateBatch_keyed {batch : AuthIdentifierRepairBatch} :
    (compensateBatch batch manifest).run.Confined (Keyed env) := by
  refine .run_ite (fun _ => .run_pure) fun _ => .run_bind loadConflict_keyed fun conflict => ?_
  refine .run_bind draw_keyed fun _ => withTransaction_keyed fun n => ?_
  refine .run_bind (.run_forM fun assignment _ => ?_) fun _ => ?_
  · rw [compensateAssignment]
    cases manifest.reassignments.reverse.find? fun item =>
        decide (item.subjectType = assignment.subjectType) &&
          decide (item.subjectId = assignment.subjectId) with
    | none => exact .run_pure
    | some item =>
      refine .run_bind setAggregateIdentifier_keyed fun _ => ?_
      cases assignment.targetReservationId with
      | none => exact .run_pure
      | some id => exact .run_bind draw_keyed fun now => updateIdentifier_keyed
  · exact .run_bind draw_keyed fun now => .run_bind (write_keyed trivial) fun _ => .run_pure

theorem applyBatches_keyed :
    (applyBatches env input manifest operation conflict actorId).run.Confined (Keyed env) := by
  refine .run_bind (.run_forM fun _ _ => ?_) fun _ => .run_bind (.run_forM fun _ _ => ?_) fun _ => ?_
  · exact .run_bind authorize_keyed fun _ => prepareBatch_keyed
  · exact .run_bind authorize_keyed fun _ => activateBatch_keyed
  · refine .run_bind authorize_keyed fun _ => .run_bind updateOperation_keyed fun _ => ?_
    exact completeParent_keyed

/-- The repair as it is read again, and its result. -/
theorem reread_keyed {x : Handler Unit} {f : Failure → Handler Unit} {count : ℕ}
    (hx : x.run.Confined (Keyed env)) (hf : ∀ e, (f e).run.Confined (Keyed env)) :
    (do
      tryCatch x f
      let operation ← requireOperation operationId
      return result env operation count false : Handler OfflineRepairResult).run.Confined
        (Keyed env) :=
  .run_bind (.run_tryCatch hx hf) fun _ => .run_bind requireOperation_keyed fun _ => .run_pure

theorem apply_keyed : (apply env input).run.Confined (Keyed env) := by
  refine .run_ite (fun _ => .run_throw) fun _ => .run_bind authorize_keyed fun actorId => ?_
  refine .run_bind normalizeRepairManifest_keyed fun manifest => ?_
  refine .run_bind requireOperation_keyed fun operation => ?_
  refine .run_bind verifyPersistedManifest_keyed fun _ => .run_ite (fun _ => .run_pure) fun _ => ?_
  refine .run_bind loadConflict_keyed fun conflict => ?_
  refine .run_bind validateManifestSubjects_keyed fun _ => .run_bind recordIdempotent_keyed fun _ => ?_
  have rest : (do
      tryCatch (applyBatches env input manifest operation conflict actorId) fun error => do
        let _ ← updateOperation none (.moveStatus input.operationId [.applying] .failedRetryable)
        throw error
      let operation ← requireOperation input.operationId
      return result env operation manifest.reassignments.length false :
        Handler OfflineRepairResult).run.Confined (Keyed env) :=
    reread_keyed applyBatches_keyed fun _ => .run_bind updateOperation_keyed fun _ => .run_throw
  refine .run_ite (fun _ => ?_) fun _ => rest
  exact .run_bind draw_keyed fun now => .run_bind updateOperation_keyed fun _ => rest

theorem cancel_keyed : (cancel env input).run.Confined (Keyed env) := by
  refine .run_bind authorize_keyed fun actorId => ?_
  refine .run_bind normalizeRepairManifest_keyed fun manifest => ?_
  refine .run_bind requireOperation_keyed fun operation => ?_
  refine .run_bind verifyPersistedManifest_keyed fun _ => .run_ite (fun _ => .run_pure) fun _ => ?_
  refine .run_bind updateOperation_keyed fun _ => .run_bind find_keyed fun batches => ?_
  refine reread_keyed ?_ fun _ => .run_bind updateOperation_keyed fun _ => .run_throw
  refine .run_bind (.run_forM fun _ _ => ?_) fun _ => .run_bind authorize_keyed fun _ => ?_
  · exact .run_bind authorize_keyed fun _ => compensateBatch_keyed
  · refine .run_bind castObjectId_keyed fun id => .run_bind updateIdentifier_keyed fun _ => ?_
    refine .run_bind updateOperation_keyed fun _ => .run_bind draw_keyed fun _ => ?_
    exact withTransaction_keyed fun n => finishParent_keyed

end AuthIdentifierRepairService

end Confined

section Runs

variable {A ι : Type} {env : Environment} {aggregates : A → Aggregate}

/-- Whatever is asked for, what it creates is created under a key that is there. -/
theorem body_keyed (call : Call A) : (body env aggregates call).Confined (Keyed env) := by
  have answer : ∀ {α : Type} {x : Handler α} {response : Except Failure α → Response},
      x.run.Confined (Keyed env) → (respond response x).Confined (Keyed env) :=
    fun hx => .bind hx fun _ => trivial
  cases call with
  | execute input a =>
    exact answer ((AuthIdentifierService.execute_requests (aggregates a).modest).mono
      keyed_of_requests)
  | reconcile input a =>
    refine answer (.mono keyed_of_requests (P := Requests input) ?_)
    refine .run_bind (.run_ite (fun _ => .run_throw) fun _ => .run_ite (fun _ => .run_throw)
      fun _ => .run_ite (fun _ => .run_pure) fun _ => .run_throw) fun _ => ?_
    refine .run_bind AuthIdentifierService.findOperation_requests fun found => ?_
    cases found with
    | none => exact .run_throw
    | some existing => exact AuthIdentifierService.resumeOrReplay_requests (aggregates a).modest
  | resolveActiveIdentifier normalizedIdentifier =>
    refine answer (.run_bind find_keyed fun found => ?_)
    cases found with
    | none => exact .run_pure
    | some reservation =>
      refine .run_ite (fun _ => .run_pure) fun _ => ?_
      cases reservation.activationGateOperationId with
      | none => exact .run_pure
      | some operationId =>
        refine .run_bind find_keyed fun gate => ?_
        exact .run_ite (fun _ => .run_pure) fun _ => .run_pure
  | resolveConflict conflictId dto actor =>
    exact answer (AuthIdentifierService.resolveConflict_requests.mono keyed_of_requests)
  | runBoundedPass instanceId => exact answer AuthIdentifierReconciliationService.runBoundedPass_keyed
  | dryRun input => exact answer AuthIdentifierRepairService.dryRun_keyed
  | apply input => exact answer AuthIdentifierRepairService.apply_keyed
  | cancel input => exact answer AuthIdentifierRepairService.cancel_keyed

/-- A walk through a confined program meets none but the calls that it is confined to. -/
theorem conforms_confined {Call ρ α : Type} {sys : System Call Op Store ρ Event}
    {legal : Bool → List Event → (β : Type) → Op β → Prop} {post : Bool → List Event → α → Prop}
    {P : (β : Type) → Op β → Prop} {p : Prog Op α} {fl : Bool} {l : List Event}
    (h : Conforms sys legal post fl l p) (hp : p.Confined P) :
    Conforms sys (fun fl l β op => legal fl l β op ∧ P β op) post fl l p := by
  induction p generalizing fl l with
  | done a => exact h
  | call op next ih =>
    obtain ⟨hlegal, hanswered, hfailed⟩ := h
    exact ⟨⟨hlegal, hp.1⟩, fun b hb => ih _ (hanswered b hb) (hp.2 _),
      fun hfallible r hr => ih _ (hfailed hfallible r hr) (hp.2 _)⟩

theorem OperationUpdate.apply_manifestKeyVersion (u : OperationUpdate)
    (d : AuthIdentifierOperation) :
    (u.apply d).manifestKeyVersion = d.manifestKeyVersion := by cases u <;> rfl

theorem mem_incomplete_of_open {status : AuthIdentifierOperationStatus}
    (h : status.isTerminal = false) : status ∈ INCOMPLETE_REPAIR_STATUSES := by
  cases status <;> first | decide | cases h

/-- An update makes no operation need a key that it did not need. -/
theorem requiresRepairKey_of_warranted {inputs : OperationInput → Prop} {l : List Event}
    {session : Option ℕ} {u : OperationUpdate} {d : AuthIdentifierOperation}
    (hw : Warranted env inputs l session (.updateOperation u)) (hu : u.selects d = true)
    (h : requiresRepairKey (u.apply d) = true) : requiresRepairKey d = true := by
  rw [requiresRepairKey, OperationUpdate.apply_operationType,
    OperationUpdate.apply_manifestKeyVersion] at h
  simp only [requiresRepairKey, Bool.and_eq_true, Bool.or_eq_true, decide_eq_true_eq] at h ⊢
  refine ⟨h.1, ?_⟩
  rcases open_of_warranted hw hu with hquiet | ⟨operationId, owner, now, expiresAt, rfl⟩ | hopen
  · rw [OperationUpdate.apply_status_of_isQuiet hquiet,
      OperationUpdate.apply_cleanupStatus_of_isQuiet hquiet] at h
    exact h.2
  · -- the cleanup is over: neither the status nor the cleanup asks for the key any more
    simp only [OperationUpdate.selects, Bool.and_eq_true, decide_eq_true_eq] at hu
    exact .inr hu.1.1.1.2
  · exact .inl (mem_incomplete_of_open hopen)

theorem Retained.update {inputs : OperationInput → Prop} {l : List Event} {session : Option ℕ}
    {u : OperationUpdate} {d : AuthIdentifierOperation} (h : Retained env d)
    (hw : Warranted env inputs l session (.updateOperation u)) (hu : u.selects d = true) :
    Retained env (u.apply d) := by
  intro hrequires version hversion
  rw [OperationUpdate.apply_manifestKeyVersion] at hversion
  exact h (requiresRepairKey_of_warranted hw hu hrequires) version hversion

variable [DecidableEq ι] {s s' : Store} {J : List (Entry ι (Call A) Event)} {i : ι} {call : Call A}
  {β : Type} {op : Op β} {x : Option β}

/-- What the store holds, committed or not. -/
abbrev AllRetained (env : Environment) (s : Store) : Prop :=
  Sessions.Everywhere schema (fun v => ∀ d ∈ v.operations, Retained env d) s

theorem AllRetained.step (h : AllRetained env s) (hJ : Journaled env s J)
    (hlegal : Legal env call.inputs (own i J) op) (hkeyed : Keyed env β op)
    (heff : Sessions.Effect schema seen s op x (op.note seen β x) s') : AllRetained env s' := by
  refine Sessions.Everywhere.step h heff (fun session w v hx hw hv hall d hd => ?_)
    fun n t _ _ ht hfree hindexed d hd => ?_
  · rcases operation_of_warranted (hlegal.warranted _ _ hw) (hJ.ledger.view_indexed hv) hd with
      hold | rfl | ⟨u, y, rfl, hy, hu, rfl⟩
    · exact hall d hold
    · cases op with
      | change c =>
        cases c with
        | write session' w' =>
          cases hw
          exact fun _ => hkeyed
        | _ => cases hw
      | _ => cases hw
    · exact (hall y hy).update (hlegal.warranted _ _ hw) hu
  · rcases operation_of_commit hfree hindexed hd with hold | ⟨hview, -⟩
    · exact h.committed d hold
    · exact h.views n t ht d hview

variable (env aggregates ι) in
def keyedContract : Contract ι (operations env aggregates) where
  inv s J := Journaled env s J ∧ AllRetained env s
  legal call _ l β op := Legal env call.inputs l op ∧ Keyed env β op
  post _ _ _ _ := True
  inv_call h _ hop heff :=
    ⟨h.1.step hop.1 heff, h.2.step h.1 hop.1 hop.2 (Sessions.effect_of_applies heff)⟩
  inv_env h heff := by
    subst heff
    exact h
  conforms call := conforms_confined (body_conforms call) (body_keyed call)

/-- Where the keys of the repairs are there at the start, no run leaves one that needs a key
that is not. -/
theorem retained_of_runs {gate : Gate ι (Call A) Op Store Event} {s₀ : Database}
    {c : Config ι (Call A) Op Store Response Event} (hs : s₀.Indexed)
    (h₀ : ∀ d ∈ s₀.operations, Retained env d)
    (hrun : (operations env aggregates).Runs gate (Config.init (.init s₀)) c) :
    c.store.committed.Indexed ∧ ∀ d ∈ c.store.committed.operations, Retained env d := by
  have hinit : Journaled env (Sessions.Store.init s₀) ([] : List (Entry ι (Call A) Event)) ∧
      AllRetained env (Sessions.Store.init s₀) := by
    refine ⟨.init hs, ⟨h₀, fun n t ht => ?_⟩⟩
    cases ht
  have w : WellFormed (keyedContract ι env aggregates) c := (WellFormed.init hinit).runs hrun
  exact ⟨of_decide_eq_true w.inv.1.ledger.indexed, w.inv.2.committed⟩

end Runs

end Operations
