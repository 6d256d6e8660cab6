import BookLibrary.Operations.Execution
import BookLibrary.Operations.Growth

/-!
# The lifecycle of an operation

Three services write the status of an operation, and one of them looks at the table of its
transitions. What is committed follows the table all the same, if no operation that is
finalizing is found to have more reservations pending than it may have assignments.
-/

namespace Operations

open AuthIdentifiers Documents Interleaving

/-- The status stays, or moves by the table. -/
def Moves (d d' : AuthIdentifierOperation) : Prop :=
  d'.status = d.status ∨ d'.status ∈ allowedTransitions d.status

/-- The status stays, or the operation ends. -/
def Ends (d d' : AuthIdentifierOperation) : Prop :=
  d'.status = d.status ∨ d.status = .finalizing ∧ d'.status.isTerminal = true

theorem Moves.refl (d : AuthIdentifierOperation) : Moves d d := .inl rfl

theorem Ends.refl (d : AuthIdentifierOperation) : Ends d d := .inl rfl

theorem mem_allowedTransitions_finalizing {status : AuthIdentifierOperationStatus} :
    status ∈ allowedTransitions .finalizing ↔ status.isTerminal = true := by
  cases status <;> decide

theorem Ends.moves {d d' : AuthIdentifierOperation} (h : Ends d d') : Moves d d' := by
  rcases h with hsame | ⟨hfinalizing, hterminal⟩
  · exact .inl hsame
  · refine .inr ?_
    rw [hfinalizing]
    exact mem_allowedTransitions_finalizing.mpr hterminal

theorem Ends.trans {d d' d'' : AuthIdentifierOperation} (h : Ends d d') (h' : Ends d' d'') :
    Ends d d'' := by
  rcases h' with hsame | ⟨hfinalizing, hterminal⟩
  · rw [Ends, hsame]
    exact h
  · rcases h with hsame | ⟨-, hended⟩
    · exact .inr ⟨hsame.symm.trans hfinalizing, hterminal⟩
    · rw [hfinalizing] at hended
      cases hended

/-- An operation that has ended does not move. -/
theorem Moves.terminal {d d' : AuthIdentifierOperation} (h : Moves d d')
    (hd : d.status.isTerminal = true) : d'.status = d.status := by
  rcases h with hsame | hmoved
  · exact hsame
  · cases hstatus : d.status with
    | completed | failedTerminal =>
      rw [hstatus] at hmoved
      cases hmoved
    | _ =>
      rw [hstatus] at hd
      cases hd

theorem TerminalStatus.isTerminal_status (status : TerminalStatus) :
    status.status.isTerminal = true := by cases status <;> rfl

theorem OperationUpdate.apply_status_of_isQuiet {u : OperationUpdate} (h : u.isQuiet = true)
    (d : AuthIdentifierOperation) : (u.apply d).status = d.status := by
  cases u <;> first | rfl | cases h

theorem OperationUpdate.apply_result_of_isQuiet {u : OperationUpdate} (h : u.isQuiet = true)
    (d : AuthIdentifierOperation) : (u.apply d).result = d.result := by
  cases u <;> first | rfl | cases h

theorem OperationUpdate.finishes_of_isQuiet {u : OperationUpdate} (h : u.isQuiet = true) :
    u.finishes = none := by
  cases u <;> first | rfl | cases h

/-- An update that keeps to its filter and to its warrant moves by the table. -/
theorem moves_of_warranted {env : Environment} {inputs : OperationInput → Prop} {l : List Event}
    {session : Option ℕ} {u : OperationUpdate} {d : AuthIdentifierOperation}
    (hw : Warranted env inputs l session (.updateOperation u))
    (hbounded : ∀ x reservations, .saw none (.listed x reservations) ∈ l → x.status = .finalizing →
      reservations.length ≤ env.identifierMaxOperationAssignments)
    (hu : u.selects d = true) : Moves d (u.apply d) := by
  have ended : ∀ {status : TerminalStatus}, d.status = .finalizing →
      status.status ∈ allowedTransitions d.status := by
    intro status hd
    rw [hd]
    exact mem_allowedTransitions_finalizing.mpr status.isTerminal_status
  cases hw with
  | aggregate hw => cases hw
  | quiet hquiet => exact .inl (OperationUpdate.apply_status_of_isQuiet hquiet d)
  | transition htarget =>
    simp only [OperationUpdate.selects, Bool.and_eq_true, decide_eq_true_eq] at hu
    rw [← hu.2] at htarget
    exact .inr htarget
  | beginFinalizing hsource =>
    simp only [OperationUpdate.selects, Bool.and_eq_true, decide_eq_true_eq] at hu
    rw [← hu.2] at hsource
    exact .inr hsource
  | finishTerminal | finishRepair =>
    simp only [OperationUpdate.selects, Bool.and_eq_true, decide_eq_true_eq] at hu
    exact .inr (ended hu.2)
  | finalize =>
    simp only [OperationUpdate.selects, Bool.and_eq_true, decide_eq_true_eq] at hu
    exact .inr (ended hu.1.2)
  | @recoverTransition x owner target hclaimed hstatus htarget =>
    simp only [OperationUpdate.selects, Bool.and_eq_true, decide_eq_true_eq] at hu
    rcases htarget with ⟨hmem, -⟩ | ⟨rfl, reservations, hlisted, hmax⟩
    · rw [← hu.1.2] at hmem
      exact .inr hmem
    · -- the operation may be anything but finalizing
      have hother : x.status ≠ .finalizing := fun hx =>
        absurd hmax (not_lt.mpr (hbounded x reservations hlisted hx))
      rw [Moves, hu.1.2, OperationUpdate.apply]
      cases hx : x.status with
      | pending | applying | compensating => exact .inr (by simp [allowedTransitions])
      | failedRetryable => exact .inl rfl
      | finalizing => exact absurd hx hother
      | completed | failedTerminal =>
        rw [hx] at hstatus
        cases hstatus
  | finishCleanup => exact .inl rfl
  | startApplying hsource =>
    simp only [OperationUpdate.selects, Bool.and_eq_true, decide_eq_true_eq] at hu
    rcases hsource with rfl | rfl
    · exact .inr (by simp [hu.2, OperationUpdate.apply, allowedTransitions])
    · exact .inr (by simp [hu.2, OperationUpdate.apply, allowedTransitions])
  | moveStatus hmove =>
    simp only [OperationUpdate.selects, Bool.and_eq_true, decide_eq_true_eq] at hu
    exact .inr (hmove _ hu.2)

theorem open_of_mem_allowedTransitions {source target : AuthIdentifierOperationStatus}
    (h : target ∈ allowedTransitions source) : source.isTerminal = false := by
  cases source with
  | completed | failedTerminal => cases h
  | _ => rfl

/-- What an update that matters selects has not ended, but for the end of its cleanup. -/
theorem open_of_warranted {env : Environment} {inputs : OperationInput → Prop} {l : List Event}
    {session : Option ℕ} {u : OperationUpdate} {d : AuthIdentifierOperation}
    (hw : Warranted env inputs l session (.updateOperation u)) (hu : u.selects d = true) :
    u.isQuiet = true ∨
      (∃ operationId owner now expiresAt, u = .finishCleanup operationId owner now expiresAt) ∨
      d.status.isTerminal = false := by
  cases hw with
  | aggregate hw => cases hw
  | quiet hquiet => exact .inl hquiet
  | transition htarget | beginFinalizing htarget =>
    simp only [OperationUpdate.selects, Bool.and_eq_true, decide_eq_true_eq] at hu
    rw [← hu.2] at htarget
    exact .inr (.inr (open_of_mem_allowedTransitions htarget))
  | finishTerminal | finishRepair =>
    simp only [OperationUpdate.selects, Bool.and_eq_true, decide_eq_true_eq] at hu
    exact .inr (.inr (by rw [hu.2]; rfl))
  | finalize =>
    simp only [OperationUpdate.selects, Bool.and_eq_true, decide_eq_true_eq] at hu
    exact .inr (.inr (by rw [hu.1.2]; rfl))
  | recoverTransition _ hstatus =>
    simp only [OperationUpdate.selects, Bool.and_eq_true, decide_eq_true_eq] at hu
    exact .inr (.inr (by rw [hu.1.2]; exact hstatus))
  | finishCleanup => exact .inr (.inl ⟨_, _, _, _, rfl⟩)
  | startApplying hsource =>
    simp only [OperationUpdate.selects, Bool.and_eq_true, decide_eq_true_eq] at hu
    refine .inr (.inr ?_)
    rw [hu.2]
    rcases hsource with rfl | rfl <;> rfl
  | moveStatus hmove =>
    simp only [OperationUpdate.selects, Bool.and_eq_true, decide_eq_true_eq] at hu
    exact .inr (.inr (open_of_mem_allowedTransitions (hmove _ hu.2)))

/-- Within a transaction, what is not ended has been created there. -/
theorem ends_of_warranted {env : Environment} {inputs : OperationInput → Prop} {l : List Event}
    {n : ℕ} {u : OperationUpdate} {d : AuthIdentifierOperation}
    (hw : Warranted env inputs l (some n) (.updateOperation u)) (hu : u.selects d = true) :
    Ends d (u.apply d) ∨ Inserted l n d.operationId := by
  cases hw with
  | aggregate hw => cases hw
  | quiet hquiet => exact .inl (.inl (OperationUpdate.apply_status_of_isQuiet hquiet d))
  | transition _ _ hwithin | beginFinalizing _ hwithin | finishTerminal _ _ hwithin =>
    simp only [OperationUpdate.selects, Bool.and_eq_true, decide_eq_true_eq] at hu
    rw [hu.1]
    exact .inr (hwithin n rfl).2
  | @finishRepair _ _ status =>
    simp only [OperationUpdate.selects, Bool.and_eq_true, decide_eq_true_eq] at hu
    exact .inl (.inr ⟨hu.2, status.isTerminal_status⟩)

variable {A ι : Type} [DecidableEq ι] {env : Environment} {aggregates : A → Aggregate}

variable (env) in
/-- A pass that has found an operation finalizing finds no more reservations pending for it
than an operation may have assignments. -/
def pendingBounded : Gate ι (Call A) Op Store Event := fun _ β op _ s _ =>
  match β, op with
  | _, .find _ (.inr (.listPending operation _)) => operation.status = .finalizing →
    (s.committed.identifiers.filter (Database.isPendingFor operation.operationId)).length ≤
      env.identifierMaxOperationAssignments
  | _, _ => True

variable (env) in
/-- What the journal and the views tell under this gate. -/
structure Tabled (s : Store) (J : List (Entry ι (Call A) Event)) : Prop where
  kept : Kept (fun _ _ => True) s J
  bounded : ∀ e ∈ J, ∀ d reservations, e.event = .saw none (.listed d reservations) →
    d.status = .finalizing → reservations.length ≤ env.identifierMaxOperationAssignments
  viewed : Sessions.Viewed schema (fun _ => Sessions.Grows schema (Advances Ends)) s

variable {s s' : Store} {J : List (Entry ι (Call A) Event)} {i : ι} {call : Call A} {β : Type}
  {op : Op β} {x : Option β}

theorem Tabled.own_bounded (h : Tabled env s J) (i : ι) : ∀ d reservations,
    .saw none (.listed d reservations) ∈ own i J → d.status = .finalizing →
    reservations.length ≤ env.identifierMaxOperationAssignments := by
  intro d reservations hmem hd
  obtain ⟨call, he⟩ := mem_own.mp hmem
  exact h.bounded _ he d reservations rfl hd

omit [DecidableEq ι] in
/-- A pass is shown no more reservations than are pending. -/
theorem listed_le {evs : List Event} (hgate : pendingBounded env i β op x.isSome s J)
    (heff : Sessions.Effect schema seen s op x evs s') {d : AuthIdentifierOperation}
    {reservations : List AuthIdentifier} (hmem : .saw none (.listed d reservations) ∈ evs)
    (hd : d.status = .finalizing) : reservations.length ≤ env.identifierMaxOperationAssignments := by
  cases heff with
  | @found _ session q b v hview hanswers =>
    obtain ⟨e, he, heq⟩ := List.mem_map.mp hmem
    cases heq
    cases q with
    | inl q => cases q <;> first | cases List.mem_singleton.mp he | cases he
    | inr q =>
      cases q with
      | listPending operation limit =>
        cases List.mem_singleton.mp he
        cases hview
        obtain ⟨order, hperm, rfl⟩ := hanswers
        have hlength : order.length ≤ env.identifierMaxOperationAssignments := by
          rw [hperm.length_eq]
          exact hgate hd
        exact (List.length_take_le' _ _).trans hlength
      | _ => first | cases List.mem_singleton.mp he | cases he
  | wrote w => cases List.mem_singleton.mp hmem
  | wroteIn w => cases List.mem_singleton.mp hmem
  | began => cases List.mem_singleton.mp hmem
  | committed => cases List.mem_singleton.mp hmem
  | _ => cases hmem

theorem Tabled.step (h : Tabled env s J) (hJ : Journaled env s J)
    (hlegal : Legal env call.inputs (own i J) op) (hgate : pendingBounded env i β op x.isSome s J)
    (heff : Sessions.Effect schema seen s op x (op.note seen β x) s') :
    Tabled env s' (record i call (op.note seen β x) ++ J) where
  kept := h.kept.step hJ (fun _ => trivial) (fun _ _ _ _ _ => trivial) hlegal heff
    fun _ _ _ _ _ _ _ _ _ => trivial
  bounded := by
    intro e he d reservations hev hd
    rcases List.mem_append.mp he with hnew | hold
    · have hmem := (mem_record.mp hnew).2.2
      rw [hev] at hmem
      exact listed_le hgate heff hmem hd
    · exact h.bounded e hold d reservations hev hd
  viewed := h.kept.viewed_step hJ h.viewed Ends.refl (fun _ _ _ => Ends.trans) hlegal heff
    fun n u v d _ hw _ _ hu => ends_of_warranted (hlegal.warranted _ _ hw) hu

section Runs

variable {s₀ : Database} {c c' : Config ι (Call A) Op Store Response Event}

theorem tabled_of_runs (w : WellFormed (contract ι env aggregates) c)
    (hrun : (operations env aggregates).Runs (pendingBounded env) c c')
    (h : Tabled env c.store c.journal) : Tabled env c'.store c'.journal :=
  w.runs_induct (P := Tabled env)
    (fun {_ _ _ _ _ _ _ _ _} hJ h _ hlegal hgate heff =>
      h.step hJ hlegal hgate (Sessions.effect_of_applies heff))
    (fun _ h henv => henv ▸ h) hrun h

theorem Tabled.committed_step (h : Tabled env c.store c.journal)
    (w : WellFormed (contract ι env aggregates) c)
    (hstep : (operations env aggregates).Step (pendingBounded env) c c') :
    Sessions.Grows schema (Advances Moves) c.store.committed c'.store.committed := by
  rcases w.step_cases hstep with hsame | ⟨i, call, fl, β, op, x, -, hlegal, -, heff⟩
  · have heq : c'.store.committed = c.store.committed := by
      rcases hsame with heq | heq <;> rw [heq]
    rw [heq]
    exact fun k d hd => ⟨d, hd, advances_refl Moves.refl d⟩
  · have hviewed : Sessions.Viewed schema (fun _ => Sessions.Grows schema (Advances Moves)) c.store := by
      intro n t ht k d hd
      obtain ⟨d', hd', hle⟩ := h.viewed n t ht k d hd
      exact ⟨d', hd', hle.imp fun _ _ _ => Ends.moves⟩
    refine hviewed.committed_step schema_lawful (advances_refl Moves.refl)
      (Sessions.effect_of_applies heff) fun u _ hu => ?_
    refine grows_of_warranted Moves.refl (hlegal.warranted _ _ hu) w.inv.ledger.indexed ?_
    rintro u d rfl - hselects
    exact moves_of_warranted (hlegal.warranted _ _ hu) (h.own_bounded i) hselects

/-- An operation of the one store is in the other, and has moved at most by the table. -/
theorem moves_of_grows {v v' : Database} (hv : v.Indexed) {d : AuthIdentifierOperation}
    (h : Sessions.Grows schema (Advances Moves) v v') (hd : d ∈ v.operations) :
    ∃ d' ∈ v'.operations, d'.id = d.id ∧ d'.operationId = d.operationId ∧
      (d'.status = d.status ∨ d'.status ∈ allowedTransitions d.status) := by
  obtain ⟨y, hy, hle⟩ := h (.operation d.id) _ (find_operation hv hd)
  obtain ⟨d', rfl, hid, hoperation, -, -, hmoves⟩ := hle.operation
  exact ⟨d', (operation_of_find (k := .operation d.id) hy).1, hid, hoperation, hmoves⟩

/-- Where no operation that is finalizing is found to have more reservations pending than it
may have assignments, every change of a stored status is one of the table, and operations
that have ended stay as they ended. -/
theorem statuses_tabled (hs : s₀.Indexed)
    (hrun : (operations env aggregates).Runs (pendingBounded env) (Config.init (.init s₀)) c) :
    (∀ c', (operations env aggregates).Step (pendingBounded env) c c' →
      ∀ d ∈ c.store.committed.operations, ∃ d' ∈ c'.store.committed.operations,
        d'.id = d.id ∧ d'.operationId = d.operationId ∧
        (d'.status = d.status ∨ d'.status ∈ allowedTransitions d.status)) ∧
    ∀ c', (operations env aggregates).Runs (pendingBounded env) c c' →
      ∀ d ∈ c.store.committed.operations, d.status.isTerminal = true →
        ∃ d' ∈ c'.store.committed.operations,
          d'.id = d.id ∧ d'.operationId = d.operationId ∧ d'.status = d.status := by
  have w : WellFormed (contract ι env aggregates) c := (wellFormed_init hs).runs hrun
  have h : Tabled env c.store c.journal := by
    refine tabled_of_runs (wellFormed_init hs) hrun ⟨.init s₀, ?_, ?_⟩
    · intro e he
      cases he
    · intro n t ht
      cases ht
  refine ⟨fun c' hstep d hd => ?_, fun c' hruns d hd hterminal => ?_⟩
  · exact moves_of_grows (of_decide_eq_true w.inv.ledger.indexed) (h.committed_step w hstep) hd
  · induction hruns with
    | refl => exact ⟨d, hd, rfl, rfl, rfl⟩
    | @tail c₁ c₂ hruns hstep ih =>
      obtain ⟨d₁, hd₁, hid₁, hoperation₁, hstatus₁⟩ := ih
      have w₁ := w.runs hruns
      obtain ⟨d₂, hd₂, hid₂, hoperation₂, hmoves⟩ :=
        moves_of_grows (of_decide_eq_true w₁.inv.ledger.indexed)
          ((tabled_of_runs w hruns h).committed_step w₁ hstep) hd₁
      have hstill : d₂.status = d₁.status := Moves.terminal hmoves (by rw [hstatus₁]; exact hterminal)
      exact ⟨d₂, hd₂, hid₂.trans hid₁, hoperation₂.trans hoperation₁, hstill.trans hstatus₁⟩

end Runs

section Schedules

/-- `pendingBounded`, checked. -/
def checksPending (_ : ℕ) (β : Type) (op : Op β) (_ : Bool) (s : Store)
    (_ : List (Entry ℕ (Call Empty) Event)) : Bool :=
  match β, op with
  | _, .find _ (.inr (.listPending operation _)) => !decide (operation.status = .finalizing) ||
    decide ((s.committed.identifiers.filter (Database.isPendingFor operation.operationId)).length ≤
      deployment.identifierMaxOperationAssignments)
  | _, _ => true

theorem pendingBounded_of_checks {i : ℕ} {β : Type} {op : Op β} {applied : Bool} {s : Store}
    {J : List (Entry ℕ (Call Empty) Event)} (h : checksPending i β op applied s J = true) :
    pendingBounded deployment i β op applied s J := by
  cases op with
  | find session q =>
    cases q with
    | inl q => trivial
    | inr q =>
      cases q with
      | listPending operation limit =>
        intro hfinalizing
        simpa [checksPending, hfinalizing] using h
      | _ => trivial
  | _ => trivial

def tabledDriver : Driver (operations deployment noAggregates)
    (pendingBounded deployment : Gate ℕ _ _ _ _) Choice :=
  player.driver _ checksPending pendingBounded_of_checks

/-- A pass takes a new repair to `applying`, and no step takes it where the table does not. -/
theorem statuses_tabled_run : ∃ c : Run,
    (operations deployment noAggregates).Runs (pendingBounded deployment)
      (Config.init (.init contested)) c ∧ statuses c = [.applying] ∧
    ∀ c', (operations deployment noAggregates).Step (pendingBounded deployment) c c' →
      ∀ d ∈ c.store.committed.operations, ∃ d' ∈ c'.store.committed.operations,
        d'.id = d.id ∧ d'.operationId = d.operationId ∧
        (d'.status = d.status ∨ d'.status ∈ allowedTransitions d.status) := by
  have hrun : ((tabledDriver.play (Config.init (.init contested))
      (dryRuns ++ .start 2 (.runBoundedPass "pass") :: turns 6 2 2000 firstId)).map statuses) =
      some [.applying] := by decide +kernel
  obtain ⟨c, hplay, hstatuses⟩ := Option.map_eq_some_iff.mp hrun
  have hruns := Driver.play_runs hplay
  exact ⟨c, hruns, hstatuses, (statuses_tabled contested_indexed hruns).1⟩

/-- A first pass takes the repair for finished when one batch of two is prepared; the second
batch is prepared all the same, and then a second pass is about to move it. -/
def overtakes : List (Move ℕ (Call Empty) Choice) :=
  dryRuns ++ .start 2 (.apply repairRequest) :: turns 25 2 1000 firstId ++
    .start 3 (.runBoundedPass "pass") :: turns 8 3 2000 firstId ++ turns 18 2 1000 secondId ++
    .start 4 (.runBoundedPass "pass") :: turns 5 4 9000 firstId

/-- The second pass counts two pending reservations where one is the bound, and takes the
operation from `finalizing` to `failed-retryable`. -/
theorem statuses_not_tabled : ∃ c c' : Run,
    (operations deployment noAggregates).Runs anyCall (Config.init (.init contested)) c ∧
    (operations deployment noAggregates).Step anyCall c c' ∧
    statuses c = [.finalizing] ∧ statuses c' = [.failedRetryable] ∧
    AuthIdentifierOperationStatus.failedRetryable ∉ allowedTransitions .finalizing := by
  have hrun : ((freeDriver.play (Config.init (.init contested)) overtakes).bind fun c =>
      (freeDriver.move c (.reply 4 ⟨9000, firstId, ⟨false, ""⟩, 0⟩)).map fun c' =>
        (statuses c, statuses c')) = some ([.finalizing], [.failedRetryable]) := by
    decide +kernel
  obtain ⟨c, hplay, hrest⟩ := Option.bind_eq_some_iff.mp hrun
  obtain ⟨c', hmove, hview⟩ := Option.map_eq_some_iff.mp hrest
  obtain ⟨hbefore, hafter⟩ := Prod.mk.inj hview
  exact ⟨c, c', Driver.play_runs hplay, Driver.move_step hmove, hbefore, hafter, by decide⟩

end Schedules

end Operations
