import BookLibrary.Operations.PassConduct
import BookLibrary.Transactions.Growth

/-!
# The system of the identifier operations

Any number of requests, of reconciliation passes and of commands of an offline repair, on one
store. All that they write they write on what they have seen.
-/

namespace Operations

open AuthIdentifiers Documents Interleaving

/-- The adapter of an aggregate that changes nothing but its aggregate. -/
structure Aggregate extends AggregateAdapter where
  modest : toAggregateAdapter.Modest

/-- A request, a pass, or a command; `A` names the aggregates. -/
inductive Call (A : Type) where
  | execute (input : OperationInput) (aggregate : A)
  | reconcile (input : OperationInput) (aggregate : A)
  | resolveActiveIdentifier (normalizedIdentifier : String)
  | resolveConflict (conflictId : String) (dto : ResolveAuthIdentifierConflictDto)
      (actor : AuthIdentifierSubjectReference)
  | runBoundedPass (instanceId : String)
  | dryRun (input : OfflineRepairRequest)
  | apply (input : OfflineRepairRequest)
  | cancel (input : OfflineRepairRequest)

inductive Response where
  | operation (r : Except Failure OperationResult)
  | subject (r : Except Failure (Option (Option AuthIdentifierSubjectType × Option String)))
  | pass (r : Except Failure ReconciliationResult)
  | repair (r : Except Failure OfflineRepairResult)

def respond {α : Type} (response : Except Failure α → Response) (x : Handler α) :
    Prog Op Response := x.run >>= fun r => .done (response r)

variable {A ι : Type} (env : Environment) (aggregates : A → Aggregate)

def body : Call A → Prog Op Response
  | .execute input a =>
    respond .operation (AuthIdentifierService.execute env input (aggregates a).toAggregateAdapter)
  | .reconcile input a =>
    respond .operation (AuthIdentifierService.reconcile env input (aggregates a).toAggregateAdapter)
  | .resolveActiveIdentifier normalizedIdentifier =>
    respond .subject (AuthIdentifierService.resolveActiveIdentifier normalizedIdentifier)
  | .resolveConflict conflictId dto actor =>
    respond .operation (AuthIdentifierService.resolveConflict env conflictId dto actor)
  | .runBoundedPass instanceId =>
    respond .pass (AuthIdentifierReconciliationService.runBoundedPass env instanceId)
  | .dryRun input => respond .repair (AuthIdentifierRepairService.dryRun env input)
  | .apply input => respond .repair (AuthIdentifierRepairService.apply env input)
  | .cancel input => respond .repair (AuthIdentifierRepairService.cancel env input)

/-- The inputs of the operations that a request may create. -/
def Call.inputs : Call A → OperationInput → Prop
  | .execute input _, input' => input' = input
  | .reconcile input _, input' => input' = input
  | .resolveConflict _ dto actor, input' =>
    ∃ assignments, input' = AuthIdentifierService.conflictInput dto assignments actor
  | _, _ => False

abbrev operations : System (Call A) Op Store Response Event := service (body env aggregates)

theorem respond_conforms {α : Type} {env : Environment} {aggregates : A → Aggregate}
    {inputs : OperationInput → Prop} {response : Except Failure α → Response} {x : Handler α}
    {fl : Bool} {l : List Event} (hx : Walk (body env aggregates) env inputs (fun _ _ => True) fl l x) :
    Conforms (operations env aggregates) (fun _ l _ op => Legal env inputs l op)
      (fun _ _ _ => True) fl l (respond response x) :=
  Conforms.bind (hx.mono fun _ _ _ _ => trivial)

variable {env aggregates}

theorem body_conforms (call : Call A) :
    Conforms (operations env aggregates) (fun _ l _ op => Legal env call.inputs l op)
      (fun _ _ _ => True) false [] (body env aggregates call) := by
  cases call with
  | execute input a =>
    exact respond_conforms (AuthIdentifierService.execute_walk (aggregates a).modest rfl)
  | reconcile input a =>
    exact respond_conforms (AuthIdentifierService.reconcile_walk (aggregates a).modest rfl)
  | resolveActiveIdentifier => exact respond_conforms AuthIdentifierService.resolveActiveIdentifier_walk
  | resolveConflict conflictId dto actor =>
    exact respond_conforms (AuthIdentifierService.resolveConflict_walk fun assignments => ⟨_, rfl⟩)
  | runBoundedPass instanceId =>
    exact respond_conforms AuthIdentifierReconciliationService.runBoundedPass_walk
  | dryRun input => exact respond_conforms AuthIdentifierRepairService.dryRun_steps.trivial
  | apply input => exact respond_conforms AuthIdentifierRepairService.apply_walk
  | cancel input => exact respond_conforms AuthIdentifierRepairService.cancel_walk

variable [DecidableEq ι]

theorem own_suffix {Call Ev : Type} (i j : ι) (call : Call) (evs : List Ev) (J : List (Entry ι Call Ev)) :
    own j J <:+ own j (record i call evs ++ J) := by
  by_cases h : i = j
  · subst h
    rw [own_record_self]
    exact List.suffix_append _ _
  · simp only [own_record_of_ne h, List.suffix_refl]

/-- A write is remembered of a call that made it. -/
theorem writes_of_wrote {β : Type} {op : Op β} {x : Option β} {session : Option ℕ} {w : Write}
    {r : Sessions.WriteResult Document} (h : .wrote session w r ∈ op.note seen β x) :
    op.writes = some (session, w) := by
  cases op with
  | draw => cases h
  | find session' q =>
    cases x with
    | none => cases h
    | some b =>
      obtain ⟨e, -, heq⟩ := List.mem_map.mp h
      cases heq
  | change c =>
    cases x with
    | none => cases c <;> cases h
    | some b =>
      cases c with
      | write session' w' =>
        cases List.mem_singleton.mp h
        rfl
      | startTransaction => cases List.mem_singleton.mp h
      | commitTransaction => cases List.mem_singleton.mp h
      | abortTransaction => cases h

/-- A write that does not fail is remembered. -/
theorem noted_of_writes {β : Type} {op : Op β} {x : Option β} {session : Option ℕ}
    {w : Write} (hw : op.writes = some (session, w))
    (hx : x.isSome = true) : ∃ r, .wrote session w r ∈ op.note seen β x := by
  cases op with
  | change c =>
    cases c with
    | write session' w' =>
      cases hw
      obtain ⟨r, rfl⟩ := Option.isSome_iff_exists.mp hx
      exact ⟨r, List.mem_singleton_self _⟩
    | _ => cases hw
  | _ => cases hw

variable (env) in
/-- What the journal tells: of the transactions, and of each write that it was made on what
its caller has seen. -/
structure Journaled (s : Store) (J : List (Entry ι (Call A) Event)) : Prop where
  ledger : Sessions.Ledger schema s J
  warranted : ∀ e ∈ J, ∀ session w r, e.event = .wrote session w r →
    Warranted env e.call.inputs (own e.caller J) session w

variable {s s' : Store} {J : List (Entry ι (Call A) Event)} {i : ι} {call : Call A} {β : Type}
  {op : Op β} {x : Option β}

theorem Journaled.step (h : Journaled env s J) (hop : Legal env call.inputs (own i J) op)
    (heff : (operations env aggregates).Applies op s x s') :
    Journaled env s' (record i call (op.note seen β x) ++ J) where
  ledger := h.ledger.step schema_lawful hop.disciplined (Sessions.effect_of_applies heff)
  warranted e he session w r hw := by
    rcases List.mem_append.mp he with hnew | hold
    · obtain ⟨hi, hcall, hev⟩ := mem_record.mp hnew
      rw [hw] at hev
      rw [hi, hcall]
      exact (hop.warranted _ _ (writes_of_wrote hev)).mono (own_suffix i i call _ J)
    · exact (h.warranted e hold session w r hw).mono (own_suffix i e.caller call _ J)

variable (env aggregates ι) in
def contract : Contract ι (operations env aggregates) where
  inv := Journaled env
  legal call _ l _ op := Legal env call.inputs l op
  post _ _ _ _ := True
  inv_call h _ hop heff := h.step hop heff
  inv_env h heff := by
    subst heff
    exact h
  conforms := body_conforms

theorem Journaled.init {s₀ : Database} (h : s₀.Indexed) :
    Journaled env (Sessions.Store.init s₀) ([] : List (Entry ι (Call A) Event)) where
  ledger := .init schema (decide_eq_true h)
  warranted e he := by cases he

theorem wellFormed_init {s₀ : Database} (h : s₀.Indexed) :
    WellFormed (contract ι env aggregates) (Config.init (Sessions.Store.init s₀)) :=
  .init (.init h)

end Operations
