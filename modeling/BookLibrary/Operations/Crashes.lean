import BookLibrary.Accounts.Conduct
import BookLibrary.Operations.Effects
import BookLibrary.Operations.Repair
import BookLibrary.Transactions.Crashes

/-!
# Handlers on their own

The calls of the identifier services on a store that nobody else touches, for requests that
may stop between any two of them.
-/

namespace Operations

open AuthIdentifiers Documents Interleaving

/-- The handler works on the view of one session, what is committed is always of `I`, and
where it ends without an exception it is as `Q` says. -/
abbrev Yields {α : Type} (I : Database → Prop) (session : Option ℕ) (base : Database)
    (x : Handler α) (v : Database) (Q : α → Database → Prop) : Prop :=
  Sessions.Yields schema I drawFails session base x v Q

variable {α β : Type} {I : Database → Prop} {session : Option ℕ} {base v : Database}
  {Q : α → Database → Prop}

theorem draw_then {x : Accounts.Draw β} {f : β → Handler α}
    (h : ∀ b, Yields I session base (f b) v Q) :
    Yields I session base (draw x >>= f) v Q := by
  refine .bind (R := fun _ v' => v' = v) (.of_works (R := fun _ v' => v' = v)
    (Sessions.draw_works (fun _ => rfl) fun _ _ => rfl) fun _ _ h => h) ?_
  rintro b v₁ rfl
  exact h b

theorem find_then {q : Query β} {f : β → Handler α}
    (h : ∀ b, Database.answers β q v b → Yields I session base (f b) v Q) :
    Yields I session base (find session q >>= f) v Q := by
  refine .bind (R := fun b v' => v' = v ∧ Database.answers β q v b)
    (.of_works (R := fun r v' => v' = v ∧ ∀ b, r = .ok b → Database.answers β q v b)
      (Sessions.find_works (fun b hb => ⟨rfl, fun c hc => ?_⟩) fun e => ⟨rfl, fun c hc => ?_⟩)
      fun b v' h => ⟨h.1, h.2 b rfl⟩) ?_
  · cases hc
    exact hb
  · cases hc
  · rintro b v₁ ⟨rfl, hb⟩
    exact h b hb

theorem still_then {x : Handler β} {f : β → Handler α} (hx : x.Still)
    (h : ∀ b, x = pure b → Yields I session base (f b) v Q) :
    Yields I session base (x >>= f) v Q := by
  refine .bind (.of_still (Q := fun b v' => v' = v ∧ x = pure b) hx fun b hb => ⟨rfl, hb⟩) ?_
  rintro b v₁ ⟨rfl, hb⟩
  exact h b hb

theorem quiet_then {x : Handler β} {f : β → Handler α} (hx : x.run.Confined Sessions.Quiet)
    (h : ∀ b, Yields I session base (f b) v Q) : Yields I session base (x >>= f) v Q := by
  refine .bind (.of_works (Sessions.quiet_works hx) fun _ _ h => h) ?_
  rintro b v₁ rfl
  exact h b

/-- A write that ends well has left its documents, or has matched none. -/
theorem write_then {w : Write} {f : List Document → Handler α}
    (hinv : session = none → I v → I (schema.wrote w v))
    (h : schema.write w v ≠ .duplicateKey →
      Yields I session base (f (schema.write w v).docs) (schema.wrote w v) Q) :
    Yields I session base (write session w >>= f) v Q := by
  refine .bind (R := fun docs v' => schema.write w v ≠ .duplicateKey ∧
    docs = (schema.write w v).docs ∧ v' = schema.wrote w v) ?_ ?_
  · refine .bind (R := fun r v' => r = schema.write w v ∧ v' = schema.wrote w v) ?_ ?_
    · refine .of_works (Sessions.write_works
        (R := fun r v' => ∀ b, r = .ok b → b = schema.write w v ∧ v' = schema.wrote w v) hinv
        (fun b hb => ?_) (fun e b hb => ?_) fun e b hb => ?_) fun b v' h => h b rfl
      · cases hb
        exact ⟨rfl, rfl⟩
      · cases hb
      · cases hb
    · rintro r v₁ ⟨rfl, rfl⟩
      cases schema.write w v with
      | written docs => exact .pure ⟨nofun, rfl, rfl⟩
      | unmatched => exact .pure ⟨nofun, rfl, rfl⟩
      | duplicateKey => exact draw_then fun _ => .throw
  · rintro docs v₁ ⟨hne, rfl, rfl⟩
    exact h hne

theorem updateOperation_then {u : OperationUpdate} {f : Bool → Handler α}
    (hinv : session = none → I v → I (schema.wrote (.updateOperation u) v))
    (h : schema.write (.updateOperation u) v ≠ .duplicateKey →
      Yields I session base (f !(schema.write (.updateOperation u) v).docs.isEmpty)
        (schema.wrote (.updateOperation u) v) Q) :
    Yields I session base (updateOperation session u >>= f) v Q := by
  rw [updateOperation, bind_assoc]
  exact write_then hinv h

theorem updateIdentifier_then {u : IdentifierUpdate} {f : Unit → Handler α}
    (hinv : session = none → I v → I (schema.wrote (.updateIdentifier u) v))
    (h : schema.write (.updateIdentifier u) v ≠ .duplicateKey →
      Yields I session base (f ()) (schema.wrote (.updateIdentifier u) v) Q) :
    Yields I session base (updateIdentifier session u >>= f) v Q := by
  rw [updateIdentifier, bind_assoc]
  exact write_then hinv h

/-- Where the callback ends well, what it leaves is committed. -/
theorem withTransaction_yields {P : Database → Prop} {callback : ℕ → Handler α}
    (hcallback : ∀ v n, P v → I v → Yields I (some n) v (callback n) v fun a v' =>
      v'.Indexed → I v' ∧ P v' ∧ Q a v') (hv : P v) :
    Yields I none base (withTransaction callback) v Q := by
  refine draw_then fun retries => Sessions.withTransaction_yields (fun v n hP hI => ?_) hv
  exact (hcallback v n hP hI).mono fun a v' h hindexed => h (of_decide_eq_true hindexed)

theorem castObjectId_still {path value : String} : (castObjectId path value).Still := by
  rw [castObjectId]
  split
  · exact .pure
  · exact .throw

/-- An event is recorded, or is there. -/
theorem recordIdempotent_then {e : SecurityActivityEvent} {f : Unit → Handler α}
    (hinv : session = none → I v → I (schema.wrote (.recordEvent e) v))
    (hold : Yields I session base (f ()) v Q)
    (hnew : Yields I session base (f ()) (schema.wrote (.recordEvent e) v) Q) :
    Yields I session base (SecurityActivityService.recordIdempotent session e >>= f) v Q := by
  let R (v' : Database) : Prop := v' = v ∨ v' = schema.wrote (.recordEvent e) v
  have hwrite : Sessions.Works schema I drawFails session base
      (do let _ ← write session (.recordEvent e) : Handler Unit).run v fun _ v' => R v' := by
    refine Works.run_bind (R := fun _ v' => R v') ?_ (fun _ _ h => .run_pure h) fun _ _ h => h
    refine Works.run_bind (R := fun _ v' => R v') (Sessions.write_works hinv (.inr rfl)
      (fun _ => .inl rfl) fun _ => .inr rfl) (fun r v₁ h => ?_) fun _ _ h => h
    cases r with
    | written docs => exact .run_pure h
    | unmatched => exact .run_pure h
    | duplicateKey =>
      exact Works.run_bind (R := fun _ v' => R v') (Sessions.draw_works (fun _ => h) fun _ _ => h)
        (fun _ _ h => .run_throw h) fun _ _ h => h
  refine .bind (R := fun _ v' => R v') (.of_works (R := fun _ v' => R v') ?_ fun _ _ h => h) ?_
  · refine Works.run_tryCatch hwrite (fun _ _ h => h) fun error v₁ h => ?_
    exact .run_ite (fun _ => .run_pure h) fun _ => .run_throw h
  · intro _ v₁ h
    cases h with
    | inl heq =>
      subst heq
      exact hold
    | inr heq =>
      subst heq
      exact hnew

section Repair

variable {env : Environment}

open AuthIdentifierRepairAuthorizationService (authorize findActiveById)

theorem findActiveById_quiet {id : String} : (findActiveById id).run.Confined Sessions.Quiet := by
  refine .run_bind ?_ fun user => .run_ite (fun _ => .run_throw) fun _ => .run_pure
  have hlift : ∀ β (op : Accounts.Op β), Sessions.Quiet β (liftOp op) →
      Sessions.Quiet β (liftOp op) := fun _ _ h => h
  refine .run_lift hlift ?_
  rw [Accounts.StaffUsersService.findDocumentById, Accounts.toMongoObjectId]
  cases ObjectId.parse id with
  | none => exact .run_throw
  | some id =>
    refine .run_bind .run_pure fun id => ?_
    refine .run_bind (Accounts.perform_confined trivial trivial) fun found => ?_
    cases found with
    | none => exact .run_throw
    | some user => exact .run_pure

theorem authorize_then {token : String} {f : String → Handler α}
    (h : ∀ id, Yields I session base (f id) v Q) :
    Yields I session base (authorize env token >>= f) v Q := by
  refine .bind (R := fun _ v' => v' = v) ?_ fun id v₁ heq => ?_
  · refine .ite (fun _ => .throw) fun _ => .tryCatch (draw_then fun now => ?_) fun _ _ => .throw
    split
    · exact .throw
    · refine .ite (fun _ => .throw) fun _ => quiet_then findActiveById_quiet fun user => ?_
      exact .ite (fun _ => .throw) fun _ => .pure rfl
  · subst heq
    exact h id

theorem normalizeRepairManifest_still {manifest : RepairManifest} :
    (normalizeRepairManifest env manifest).Still :=
  .ite (fun _ => .throw) fun _ => .ite (fun _ => .throw) fun _ => .pure

theorem deriveRepairManifestKey_still {keyMaterial : String} {version : ℕ} :
    (deriveRepairManifestKey env keyMaterial version).Still :=
  .ite (fun _ => .throw) fun _ => .pure

theorem hashRepairManifest_still {manifest : RepairManifest} {keyMaterial : String} {version : ℕ} :
    (hashRepairManifest env manifest keyMaterial version).Still :=
  .bind normalizeRepairManifest_still fun _ => .bind deriveRepairManifestKey_still fun _ => .pure

open AuthIdentifierRepairService

theorem requireKey_still {version : ℕ} : (requireKey env version).Still := by
  rw [requireKey]
  split
  · exact .ite (fun _ => .throw) fun _ => .pure
  · exact .throw

theorem verifyPersistedManifest_still {operation : AuthIdentifierOperation}
    {manifest : RepairManifest} : (verifyPersistedManifest env operation manifest).Still := by
  rw [verifyPersistedManifest]
  refine .ite (fun _ => .throw) fun _ => .bind requireKey_still fun key => ?_
  refine .bind (.bind hashRepairManifest_still fun _ => .pure) fun verified => ?_
  exact .ite (fun _ => .pure) fun _ => .throw

theorem validateManifestSubjects_still {conflict : AuthIdentifier} {manifest : RepairManifest} :
    (validateManifestSubjects conflict manifest).Still :=
  .ite (fun _ => .throw) fun _ => .pure

theorem requireOperation_then {operationId : String} {f : AuthIdentifierOperation → Handler α}
    (h : ∀ d ∈ v.operations, d.operationId = operationId → Yields I none base (f d) v Q) :
    Yields I none base (requireOperation operationId >>= f) v Q := by
  refine .bind (R := fun d v' => v' = v ∧ d ∈ v.operations ∧ d.operationId = operationId)
    (find_then fun r hr => ?_) ?_
  · cases r with
    | none => exact .throw
    | some d => exact .pure ⟨rfl, hr.1, of_decide_eq_true hr.2⟩
  · rintro d v₁ ⟨rfl, hd, hid⟩
    exact h d hd hid

/-- The conflict of a repair, as it is stored. -/
theorem loadConflict_then {conflictId : String} {f : AuthIdentifier → Handler α}
    (h : ∀ d ∈ v.identifiers, castObjectId "_id" conflictId = pure d.id → d.status = .conflict →
      Yields I none base (f d) v Q) :
    Yields I none base (loadConflict conflictId >>= f) v Q := by
  refine .bind (R := fun d v' => v' = v ∧ d ∈ v.identifiers ∧
    castObjectId "_id" conflictId = pure d.id ∧ d.status = .conflict)
    (still_then castObjectId_still fun id hid => find_then fun r hr => ?_) ?_
  · cases r with
    | none => exact .throw
    | some d =>
      have heq : d.id = id := of_decide_eq_true hr.2
      subst heq
      exact .ite (fun hconflict => .pure ⟨rfl, hr.1, hid, hconflict⟩) fun _ => .throw
  · rintro d v₁ ⟨rfl, hd, hid, hconflict⟩
    exact h d hd hid hconflict

end Repair

end Operations
