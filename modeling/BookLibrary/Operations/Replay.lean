import BookLibrary.Operations.Lifecycle

/-!
# Replaying an operation that has ended

A request that repeats an operation is answered from the record, if the record holds a result
and still binds the operation id to what the request asks for.
-/

namespace Operations

open AuthIdentifiers Documents Interleaving

/-- The assignment, without what becomes of it. -/
def terms (a : AuthIdentifierOperationAssignment) : AuthIdentifierOperationAssignment :=
  { a with targetReservationId := none, status := .pending, appliedAt := none }

theorem adjust_terms {assignmentId : String}
    {f : AuthIdentifierOperationAssignment → AuthIdentifierOperationAssignment}
    (hf : ∀ a, terms (f a) = terms a) (assignments : List AuthIdentifierOperationAssignment) :
    (adjust assignmentId f assignments).map terms = assignments.map terms :=
  adjust_map hf assignments

/-- An operation stays bound to its assignments, and what has ended keeps its result. -/
def Binds (d d' : AuthIdentifierOperation) : Prop :=
  d'.assignments.map terms = d.assignments.map terms ∧
    (d.status.isTerminal = true → d'.status = d.status ∧ d'.result = d.result)

theorem Binds.refl (d : AuthIdentifierOperation) : Binds d d := ⟨rfl, fun _ => ⟨rfl, rfl⟩⟩

theorem Binds.trans {d d' d'' : AuthIdentifierOperation} (h : Binds d d') (h' : Binds d' d'') :
    Binds d d'' := by
  refine ⟨h'.1.trans h.1, fun hd => ?_⟩
  obtain ⟨hstatus, hresult⟩ := h.2 hd
  obtain ⟨hstatus', hresult'⟩ := h'.2 (by rw [hstatus]; exact hd)
  exact ⟨hstatus'.trans hstatus, hresult'.trans hresult⟩

/-- The end of an operation leaves a result. -/
def Concluded (d : AuthIdentifierOperation) : Prop :=
  d.status.isTerminal = true → d.result.isSome = true

/-- A pass ends what has a result, and adds no correlation hash to an assignment. -/
def Replayable (d : AuthIdentifierOperation) : OperationUpdate → Prop
  | .finalize .. => d.result.isSome = true
  | .attachMissing _ _ _ _ correlation => correlation = none
  | _ => True

section Updates

variable {env : Environment} {inputs : OperationInput → Prop} {l : List Event}
  {session : Option ℕ} {u : OperationUpdate} {d : AuthIdentifierOperation}

theorem apply_terms (h : Replayable d u) :
    (u.apply d).assignments.map terms = d.assignments.map terms := by
  cases u with
  | attachReference | markApplied | markCompensated | recoverApplied | recoverCompensated =>
    apply adjust_terms
    intro a
    rfl
  | attachMissing _ _ _ _ correlation =>
    cases correlation with
    | none =>
      apply adjust_terms
      intro a
      rfl
    | some correlation => cases h
  | _ => rfl

theorem binds_of_warranted (hw : Warranted env inputs l session (.updateOperation u))
    (hu : u.selects d = true) (h : Replayable d u) : Binds d (u.apply d) := by
  refine ⟨apply_terms h, fun hd => ?_⟩
  rcases open_of_warranted hw hu with hquiet | ⟨operationId, owner, now, expiresAt, rfl⟩ | hopen
  · exact ⟨OperationUpdate.apply_status_of_isQuiet hquiet d,
      OperationUpdate.apply_result_of_isQuiet hquiet d⟩
  · exact ⟨rfl, rfl⟩
  · rw [hd] at hopen
    cases hopen

theorem concluded_of_warranted (hw : Warranted env inputs l session (.updateOperation u))
    (hu : u.selects d = true) (hd : Concluded d) (h : Replayable d u) : Concluded (u.apply d) := by
  intro hterminal
  cases hw with
  | aggregate hw => cases hw
  | quiet hquiet =>
    rw [OperationUpdate.apply_status_of_isQuiet hquiet] at hterminal
    rw [OperationUpdate.apply_result_of_isQuiet hquiet]
    exact hd hterminal
  | transition _ hopen => rcases hopen with rfl | rfl | rfl <;> cases hterminal
  | beginFinalizing | finishTerminal | finishRepair => rfl
  | recoverTransition _ _ htarget =>
    rcases htarget with ⟨-, hopen⟩ | ⟨rfl, -⟩
    · exact absurd (hopen.symm.trans hterminal) (by decide)
    · cases hterminal
  | finalize => exact h
  | finishCleanup => exact hd hterminal
  | startApplying => cases hterminal
  | moveStatus _ hopen => exact absurd (hopen.symm.trans hterminal) (by decide)

end Updates

theorem forall₂_of_mapM {α β : Type} {f : α → Option β} {xs : List α} {ys : List β}
    (h : xs.mapM f = some ys) : List.Forall₂ (fun x y => f x = some y) xs ys := by
  induction xs generalizing ys with
  | nil =>
    cases h
    exact .nil
  | cons x xs ih =>
    rw [List.mapM_cons] at h
    obtain ⟨y, hy, hrest⟩ := Option.bind_eq_some_iff.mp h
    obtain ⟨ys', hys, heq⟩ := Option.bind_eq_some_iff.mp hrest
    cases heq
    exact .cons hy (ih hys)

theorem mem_of_forall₂ {α β : Type} {R : α → β → Prop} {xs : List α} {ys : List β}
    (h : List.Forall₂ R xs ys) {y : β} (hy : y ∈ ys) : ∃ x ∈ xs, R x y := by
  induction h with
  | nil => cases hy
  | cons hxy _ ih =>
    rcases List.mem_cons.mp hy with rfl | hrest
    · exact ⟨_, List.mem_cons_self, hxy⟩
    · obtain ⟨x, hx, hxy⟩ := ih hrest
      exact ⟨x, List.mem_cons_of_mem _ hx, hxy⟩

/-- The source reservations of an input are named by their ids as they are stored. -/
def Canonical (input : OperationInput) : Prop :=
  ∀ a ∈ input.assignments, ∀ value ∈ a.sourceReservationId, ∀ id, ObjectId.parse value = some id →
    id.1 = value

/-- The handler asks for the operation, and returns that result with no other call. -/
def Replays (x : Handler OperationResult) (v : Database) (operationId : String)
    (result : OperationResult) : Prop :=
  ∃ next, x.run = .call (.find none (.inr (.findOperation operationId))) next ∧
    ∀ found, schema.answers _ (.inr (.findOperation operationId)) v found →
      next (some found) = .done (.ok result)

namespace AuthIdentifierService

variable {env : Environment} {input : OperationInput} {d : AuthIdentifierOperation}

theorem validateInput_of_valid (h : Valid env input) : validateInput env input = pure () := by
  have hlength : ¬ (input.assignments.length = 0 ∨
      env.maxAssignments < input.assignments.length) := by
    rw [not_or, not_lt]
    exact ⟨h.length_ne_zero, h.length_le⟩
  rw [validateInput, if_neg h.operationId, if_neg hlength, if_pos h.nodup]

theorem persistedAssignment_eq_some {a : AuthIdentifierAssignmentInput}
    {x : AuthIdentifierOperationAssignment} (h : persistedAssignment a = some x) :
    x = {
      assignmentId := a.assignmentId, subjectType := a.subjectType, subjectId := a.subjectId
      action := a.action, sourceReservationId := x.sourceReservationId, targetReservationId := none
      identifierCorrelationHash := a.identifierCorrelationHash
      correlationKeyVersion := a.correlationKeyVersion, status := .pending, appliedAt := none } ∧
    (a.sourceReservationId = none ∧ x.sourceReservationId = none ∨
      ∃ value id, a.sourceReservationId = some value ∧ ObjectId.parse value = some id ∧
        x.sourceReservationId = some id.1) := by
  rw [persistedAssignment] at h
  cases hvalue : a.sourceReservationId with
  | none =>
    rw [hvalue] at h
    cases h
    exact ⟨rfl, .inl ⟨rfl, rfl⟩⟩
  | some value =>
    rw [hvalue] at h
    cases hparse : ObjectId.parse value with
    | none =>
      simp only [hparse] at h
      cases h
    | some id =>
      simp only [hparse] at h
      cases h
      exact ⟨rfl, .inr ⟨value, id, rfl, hparse, rfl⟩⟩

/-- The stored assignment says what the input says. -/
theorem matchesPersisted_of_terms (hnodup : (input.assignments.map (·.assignmentId)).Nodup)
    (hcanonical : Canonical input) {a : AuthIdentifierAssignmentInput}
    {x p : AuthIdentifierOperationAssignment} (ha : a ∈ input.assignments)
    (hx : persistedAssignment a = some x) (hp : terms x = terms p) :
    matchesPersisted input p = true := by
  obtain ⟨hfields, hsource⟩ := persistedAssignment_eq_some hx
  have hid : a.assignmentId = p.assignmentId :=
    (congrArg (·.assignmentId) hfields).symm.trans (congrArg (·.assignmentId) hp)
  have hfind : input.assignments.find? (fun item => decide (item.assignmentId = p.assignmentId)) =
      some a := by
    rw [← hid]
    exact find_of_mem hnodup ha
  have hsame : a.sourceReservationId.getD "" = p.sourceReservationId.getD "" := by
    rw [← show x.sourceReservationId = p.sourceReservationId from congrArg (·.sourceReservationId) hp]
    rcases hsource with ⟨hnone, hnone'⟩ | ⟨value, id, hsome, hparse, hsome'⟩
    · rw [hnone, hnone']
    · rw [hsome, hsome', Option.getD_some, Option.getD_some]
      exact (hcanonical a ha value hsome id hparse).symm
  rw [matchesPersisted, hfind]
  simp only [Bool.and_eq_true, decide_eq_true_eq]
  exact ⟨⟨⟨⟨⟨(congrArg (·.subjectType) hfields).symm.trans (congrArg (·.subjectType) hp),
    (congrArg (·.subjectId) hfields).symm.trans (congrArg (·.subjectId) hp)⟩,
    (congrArg (·.action) hfields).symm.trans (congrArg (·.action) hp)⟩, hsame⟩,
    (congrArg (·.identifierCorrelationHash) hfields).symm.trans
      (congrArg (·.identifierCorrelationHash) hp)⟩,
    (congrArg (·.correlationKeyVersion) hfields).symm.trans
      (congrArg (·.correlationKeyVersion) hp)⟩

theorem assertOperationManifest_of_terms (hvalid : Valid env input) (hcanonical : Canonical input)
    {assignments : List AuthIdentifierOperationAssignment}
    (hassignments : input.assignments.mapM persistedAssignment = some assignments)
    (hterms : d.assignments.map terms = assignments.map terms) :
    assertOperationManifest d input = pure () := by
  have hstored := forall₂_of_mapM hassignments
  refine if_pos ⟨?_, List.all_eq_true.mpr fun p hp => ?_⟩
  · have hlength := congrArg List.length hterms
    rw [List.length_map, List.length_map] at hlength
    exact hlength.trans hstored.length_eq.symm
  · have hmem : terms p ∈ assignments.map terms := by
      rw [← hterms]
      exact List.mem_map_of_mem hp
    obtain ⟨x, hx, heq⟩ := List.mem_map.mp hmem
    obtain ⟨a, ha, hpersisted⟩ := mem_of_forall₂ hstored hx
    exact matchesPersisted_of_terms hvalid.nodup hcanonical ha hpersisted heq

variable {aggregate : AggregateAdapter} {assignments : List AuthIdentifierOperationAssignment}
  {status : TerminalStatus} {result : AuthIdentifierOperationResult} {v : Database}

/-- What was made of this input, and has ended so, with that result. -/
structure EndedAs (env : Environment) (input : OperationInput) (d : AuthIdentifierOperation)
    (status : TerminalStatus) (result : AuthIdentifierOperationResult) : Prop where
  valid : Valid env input
  canonical : Canonical input
  operationType : d.operationType = input.operationType
  bound : ∃ assignments, input.assignments.mapM persistedAssignment = some assignments ∧
    d.assignments.map terms = assignments.map terms
  status : d.status = status.status
  result : d.result = some result

theorem resumeOrReplay_of_ended (h : EndedAs env input d status result) :
    resumeOrReplay env d input aggregate =
      pure ⟨d.operationId, status, result.httpStatus, true, result⟩ := by
  obtain ⟨assignments, hassignments, hterms⟩ := h.bound
  have hterminal : d.status.isTerminal = true := by
    rw [h.status]
    exact status.isTerminal_status
  rw [resumeOrReplay, if_neg (not_not_intro h.operationType),
    assertOperationManifest_of_terms h.valid h.canonical hassignments hterms, pure_bind,
    if_pos hterminal, replay, h.status, h.result]
  cases status <;> rfl

/-- The operation of that id is found. -/
theorem found_of_answers (hv : v.Indexed) (hd : d ∈ v.operations)
    {found : Option AuthIdentifierOperation}
    (hfound : schema.answers _ (.inr (.findOperation d.operationId)) v found) : found = some d := by
  have hone : FindOne (fun x => decide (x.operationId = d.operationId)) v.operations found := hfound
  exact (hone.eq_find? hv.operationId).symm.trans (find_of_mem hv.operationId hd)

theorem execute_replays (h : EndedAs env input d status result) (hv : v.Indexed)
    (hd : d ∈ v.operations) (hid : d.operationId = input.operationId) :
    Replays (execute env input aggregate) v input.operationId
      ⟨d.operationId, status, result.httpStatus, true, result⟩ := by
  rw [execute, validateInput_of_valid h.valid, pure_bind, ← hid]
  refine ⟨_, rfl, fun found hfound => ?_⟩
  rw [found_of_answers hv hd hfound]
  exact congrArg ExceptT.run (resumeOrReplay_of_ended h)

theorem reconcile_replays (h : EndedAs env input d status result) (hv : v.Indexed)
    (hd : d ∈ v.operations) (hid : d.operationId = input.operationId) :
    Replays (reconcile env input aggregate) v input.operationId
      ⟨d.operationId, status, result.httpStatus, true, result⟩ := by
  rw [reconcile, validateInput_of_valid h.valid, pure_bind, ← hid]
  refine ⟨_, rfl, fun found hfound => ?_⟩
  rw [found_of_answers hv hd hfound]
  exact congrArg ExceptT.run (resumeOrReplay_of_ended h)

end AuthIdentifierService

section Gate

variable {A ι : Type} [DecidableEq ι] {env : Environment} {aggregates : A → Aggregate}

/-- Passes keep what they update `Replayable`. -/
def replayable : Gate ι (Call A) Op Store Event := fun _ β op applied s _ =>
  match β, op, applied with
  | _, .change (.write session (.updateOperation u)), true =>
    ∀ v, schema.view s session = some v → ∀ d ∈ v.operations, u.selects d = true → Replayable d u
  | _, _, _ => True

/-- The operation has been created by a request for that input, and is bound to it. -/
structure MadeBy (env : Environment) (J : List (Entry ι (Call A) Event))
    (d : AuthIdentifierOperation) (input : OperationInput) : Prop where
  valid : Valid env input
  operationId : d.operationId = input.operationId
  operationType : d.operationType = input.operationType
  created : ∃ e ∈ J, e.call.inputs input ∧ ∃ session assignments now r,
    e.event = .wrote session (.insertOperation
      (AuthIdentifierService.newOperation input d.id assignments now)) r ∧
    input.assignments.mapM AuthIdentifierService.persistedAssignment = some assignments ∧
    d.assignments.map terms = assignments.map terms

def AllMade (env : Environment) (J : List (Entry ι (Call A) Event)) (v : Database) : Prop :=
  ∀ d ∈ v.operations, d.manifestHash = none → ∃ input, MadeBy env J d input

variable (env) in
/-- What holds under this gate. -/
structure Answerable (s : Store) (J : List (Entry ι (Call A) Event)) : Prop where
  kept : Kept Binds s J
  concluded : Sessions.Everywhere schema (fun v => ∀ d ∈ v.operations, Concluded d) s
  made : Sessions.Everywhere schema (AllMade env J) s

variable {s s' : Store} {J : List (Entry ι (Call A) Event)} {i : ι} {call : Call A} {β : Type}
  {op : Op β} {x : Option β}

omit [DecidableEq ι] in
theorem replayable_of_writes (hgate : replayable i β op x.isSome s J) (hx : x.isSome = true)
    {session : Option ℕ} {u : OperationUpdate} {v : Database} {d : AuthIdentifierOperation}
    (hw : op.writes = some (session, .updateOperation u)) (hv : schema.view s session = some v)
    (hd : d ∈ v.operations) (hu : u.selects d = true) : Replayable d u := by
  cases op with
  | change c =>
    cases c with
    | write session' w' =>
      cases hw
      rw [hx] at hgate
      exact hgate v hv d hd hu
    | _ => cases hw
  | _ => cases hw

omit [DecidableEq ι] in
theorem MadeBy.mono {J' : List (Entry ι (Call A) Event)} (hJ : J ⊆ J') {d : AuthIdentifierOperation}
    {input : OperationInput} (h : MadeBy env J d input) : MadeBy env J' d input := by
  obtain ⟨e, he, hcreated⟩ := h.created
  exact ⟨h.valid, h.operationId, h.operationType, e, hJ he, hcreated⟩

omit [DecidableEq ι] in
/-- It has been created by that request still when it has come on. -/
theorem MadeBy.update {u : OperationUpdate} {d : AuthIdentifierOperation} {input : OperationInput}
    (h : MadeBy env J d input) (hu : Replayable d u) : MadeBy env J (u.apply d) input := by
  obtain ⟨e, he, hinput, session, assignments, now, r, hev, hassignments, hterms⟩ := h.created
  refine ⟨h.valid, ?_, ?_, e, he, hinput, session, assignments, now, r, ?_, hassignments, ?_⟩
  · rw [OperationUpdate.apply_operationId]
    exact h.operationId
  · rw [OperationUpdate.apply_operationType]
    exact h.operationType
  · rw [OperationUpdate.apply_id]
    exact hev
  · exact (apply_terms hu).trans hterms

theorem Answerable.concluded_step (h : Answerable env s J) (hJ : Journaled env s J)
    (hlegal : Legal env call.inputs (own i J) op) (hgate : replayable i β op x.isSome s J)
    (heff : Sessions.Effect schema seen s op x (op.note seen β x) s') :
    Sessions.Everywhere schema (fun v => ∀ d ∈ v.operations, Concluded d) s' := by
  refine h.concluded.step heff (fun session w v hx hw hv hall d hd => ?_)
    fun n t _ _ ht hfree hindexed d hd => ?_
  · rcases operation_of_warranted (hlegal.warranted _ _ hw) (hJ.ledger.view_indexed hv) hd with
      hold | rfl | ⟨u, y, rfl, hy, hu, rfl⟩
    · exact hall d hold
    · intro hterminal
      cases hlegal.warranted _ _ hw with
      | aggregate hw => cases hw
      | create => cases hterminal
      | createParent => cases hterminal
    · exact concluded_of_warranted (hlegal.warranted _ _ hw) hu (hall y hy)
        (replayable_of_writes hgate hx hw hv hy hu)
  · rcases operation_of_commit hfree hindexed hd with hold | ⟨hview, -⟩
    · exact h.concluded.committed d hold
    · exact h.concluded.views n t ht d hview

theorem Answerable.made_step (h : Answerable env s J) (hJ : Journaled env s J)
    (hlegal : Legal env call.inputs (own i J) op) (hgate : replayable i β op x.isSome s J)
    (heff : Sessions.Effect schema seen s op x (op.note seen β x) s') :
    Sessions.Everywhere schema (AllMade env (record i call (op.note seen β x) ++ J)) s' := by
  have hold : Sessions.Everywhere schema (AllMade env (record i call (op.note seen β x) ++ J)) s :=
    h.made.imp fun v hmade d hd hhash => by
      obtain ⟨input, hinput⟩ := hmade d hd hhash
      exact ⟨input, hinput.mono (List.subset_append_right _ _)⟩
  refine hold.step heff (fun session w v hx hw hv hmade d hd hhash => ?_)
    fun n t _ _ ht hfree hindexed d hd => ?_
  · rcases operation_of_warranted (hlegal.warranted _ _ hw) (hJ.ledger.view_indexed hv) hd with
      hold | rfl | ⟨u, y, rfl, hy, hu, rfl⟩
    · exact hmade d hold hhash
    · obtain ⟨r, hmem⟩ := noted_of_writes hw hx
      cases hlegal.warranted _ _ hw with
      | aggregate hw => cases hw
      | @create _ input id assignments now hinput hvalid hassignments =>
        refine ⟨input, hvalid, rfl, rfl, ⟨i, call, _⟩, List.mem_append_left _ ?_, hinput, session,
          assignments, now, r, rfl, hassignments, rfl⟩
        exact mem_record.mpr ⟨rfl, rfl, hmem⟩
      | createParent => cases hhash
    · rw [OperationUpdate.apply_manifestHash] at hhash
      obtain ⟨input, hinput⟩ := hmade y hy hhash
      exact ⟨input, hinput.update (replayable_of_writes hgate hx hw hv hy hu)⟩
  · rcases operation_of_commit hfree hindexed hd with hsame | ⟨hview, -⟩
    · exact hold.committed d hsame
    · exact hold.views n t ht d hview

theorem Answerable.step (h : Answerable env s J) (hJ : Journaled env s J)
    (hlegal : Legal env call.inputs (own i J) op) (hgate : replayable i β op x.isSome s J)
    (heff : Sessions.Effect schema seen s op x (op.note seen β x) s') :
    Answerable env s' (record i call (op.note seen β x) ++ J) where
  kept := h.kept.step hJ Binds.refl (fun _ _ _ => Binds.trans) hlegal heff
    fun _ _ _ _ hx hw hv hd hu => binds_of_warranted (hlegal.warranted _ _ hw) hu
      (replayable_of_writes hgate hx hw hv hd hu)
  concluded := h.concluded_step hJ hlegal hgate heff
  made := h.made_step hJ hlegal hgate heff

theorem Answerable.grows (h : Answerable env s J) (hJ : Journaled env s J)
    (hlegal : Legal env call.inputs (own i J) op) (hgate : replayable i β op x.isSome s J)
    (heff : Sessions.Effect schema seen s op x (op.note seen β x) s') :
    Sessions.Grows schema (Advances Binds) s.committed s'.committed := by
  refine Sessions.Viewed.committed_step schema_lawful (advances_refl Binds.refl) h.kept.grown.view
    heff fun w hx hw => ?_
  refine grows_of_warranted Binds.refl (hlegal.warranted _ _ hw) hJ.ledger.indexed ?_
  rintro u d rfl hd hu
  exact binds_of_warranted (hlegal.warranted _ _ hw) hu (replayable_of_writes hgate hx hw rfl hd hu)

end Gate

section Runs

variable {A ι : Type} [DecidableEq ι] {env : Environment} {aggregates : A → Aggregate}
  {s₀ : Database} {c c' : Config ι (Call A) Op Store Response Event}

theorem answerable_of_runs (hs : s₀.Indexed) (h₀ : s₀.operations = [])
    (hrun : (operations env aggregates).Runs replayable (Config.init (.init s₀)) c) :
    Answerable env c.store c.journal := by
  have hempty : ∀ d, d ∉ s₀.operations := by
    rw [h₀]
    exact fun d => List.not_mem_nil
  refine (wellFormed_init hs).runs_induct (P := Answerable env)
    (fun {_ _ _ _ _ _ _ _ _} hJ h _ hlegal hgate heff =>
      h.step hJ hlegal hgate (Sessions.effect_of_applies heff))
    (fun _ h henv => henv ▸ h) hrun ⟨.init s₀, ⟨?_, nofun⟩, ⟨?_, nofun⟩⟩
  · exact fun d hd => absurd hd (hempty d)
  · exact fun d hd => absurd hd (hempty d)

theorem grows_of_runs (w : WellFormed (contract ι env aggregates) c)
    (hrun : (operations env aggregates).Runs replayable c c') (h : Answerable env c.store c.journal) :
    Sessions.Grows schema (Advances Binds) c.store.committed c'.store.committed := by
  refine (w.runs_induct (P := fun s J => Answerable env s J ∧
    Sessions.Grows schema (Advances Binds) c.store.committed s.committed)
    (fun {_ _ _ _ _ _ _ _ _} hJ h _ hlegal hgate heff => ?_) (fun _ h henv => henv ▸ h) hrun
    ⟨h, fun k d hd => ⟨d, hd, advances_refl Binds.refl d⟩⟩).2
  have heff' := Sessions.effect_of_applies heff
  exact ⟨h.1.step hJ hlegal hgate heff',
    h.2.trans (ordered Binds.refl fun _ _ _ => Binds.trans) (h.1.grows hJ hlegal hgate heff')⟩

/-- Under this gate what has ended has a result, keeps it, and is replayed to whoever asks for
it by the input that it was created for. -/
theorem ended_replays (hs : s₀.Indexed) (h₀ : s₀.operations = [])
    (hrun : (operations env aggregates).Runs replayable (Config.init (.init s₀)) c) :
    ∀ d ∈ c.store.committed.operations, ∀ status : TerminalStatus, d.status = status.status →
      ∃ result, d.result = some result ∧
        (∀ c', (operations env aggregates).Runs replayable c c' →
          ∃ d' ∈ c'.store.committed.operations, d'.operationId = d.operationId ∧
            d'.status = d.status ∧ d'.result = d.result) ∧
        (d.manifestHash = none → ∃ input, MadeBy env c.journal d input ∧
          (Canonical input → ∀ c', (operations env aggregates).Runs replayable c c' →
            ∀ aggregate,
              Replays (AuthIdentifierService.execute env input aggregate) c'.store.committed
                input.operationId ⟨d.operationId, status, result.httpStatus, true, result⟩ ∧
              Replays (AuthIdentifierService.reconcile env input aggregate) c'.store.committed
                input.operationId ⟨d.operationId, status, result.httpStatus, true, result⟩)) := by
  intro d hd status hstatus
  have w : WellFormed (contract ι env aggregates) c := (wellFormed_init hs).runs hrun
  have h := answerable_of_runs hs h₀ hrun
  have hindexed : c.store.committed.Indexed := of_decide_eq_true w.inv.ledger.indexed
  have hterminal : d.status.isTerminal = true := by
    rw [hstatus]
    exact status.isTerminal_status
  obtain ⟨result, hresult⟩ := Option.isSome_iff_exists.mp (h.concluded.committed d hd hterminal)
  -- later it is there, bound to the same and ended the same
  have later : ∀ c', (operations env aggregates).Runs replayable c c' →
      ∃ d' ∈ c'.store.committed.operations, d'.operationId = d.operationId ∧
        d'.operationType = d.operationType ∧ Binds d d' := by
    intro c' hrun'
    obtain ⟨y, hy, hle⟩ := grows_of_runs w hrun' h (.operation d.id) _ (find_operation hindexed hd)
    obtain ⟨d', rfl, -, hoperation, htype, -, hbinds⟩ := hle.operation
    exact ⟨d', (operation_of_find (k := .operation d.id) hy).1, hoperation, htype, hbinds⟩
  refine ⟨result, hresult, fun c' hrun' => ?_, fun hhash => ?_⟩
  · obtain ⟨d', hd', hoperation, -, hbinds⟩ := later c' hrun'
    exact ⟨d', hd', hoperation, hbinds.2 hterminal⟩
  · obtain ⟨input, hmade⟩ := h.made.committed d hd hhash
    refine ⟨input, hmade, fun hcanonical c' hrun' aggregate => ?_⟩
    obtain ⟨d', hd', hoperation, htype, hbinds⟩ := later c' hrun'
    obtain ⟨hstatus', hresult'⟩ := hbinds.2 hterminal
    obtain ⟨e, he, -, -, assignments, -, -, -, hassignments, hterms⟩ := hmade.created
    have hended : AuthIdentifierService.EndedAs env input d' status result :=
      ⟨hmade.valid, hcanonical, htype.trans hmade.operationType,
        ⟨assignments, hassignments, hbinds.1.trans hterms⟩, hstatus'.trans hstatus,
        hresult'.trans hresult⟩
    have hindexed' : c'.store.committed.Indexed :=
      of_decide_eq_true (w.runs hrun').inv.ledger.indexed
    have hid := hoperation.trans hmade.operationId
    rw [← hoperation]
    exact ⟨AuthIdentifierService.execute_replays hended hindexed' hd' hid,
      AuthIdentifierService.reconcile_replays hended hindexed' hd' hid⟩

end Runs

section Schedules

/-- An aggregate of which nothing is to be changed. -/
def idle : Aggregate where
  apply _ _ := pure ()
  compensate _ _ := pure ()
  isApplied := none
  modest := ⟨fun _ _ => trivial, fun _ _ => trivial, nofun⟩

/-- The second member is given an identifier. -/
def assignmentInput : OperationInput where
  operationId := "assignment"
  operationType := .claim
  assignments := [{
    assignmentId := "assignment:member", subjectType := .member, subjectId := secondMemberId.1
    action := .claim, normalizedIdentifier := some "olivia-2", identifierType := some .loginIdentifier
    sourceReservationId := none, identifierCorrelationHash := none, correlationKeyVersion := none }]
  requestedBy := administrator
  successHttpStatus := none
  successReasonCategory := none
  failureHttpStatus := none
  failureReasonCategory := none
  compensateOnFailure := true
  cleanupStatus := none
  resumeId := none
  retainedSubject := none

theorem canonical_assignmentInput : Canonical assignmentInput := by
  intro a ha value hvalue
  cases List.mem_singleton.mp ha
  cases hvalue

def checksReplayable (d : AuthIdentifierOperation) : OperationUpdate → Bool
  | .finalize .. => d.result.isSome
  | .attachMissing _ _ _ _ correlation => correlation.isNone
  | _ => true

theorem replayable_of_check {d : AuthIdentifierOperation} {u : OperationUpdate}
    (h : checksReplayable d u = true) : Replayable d u := by
  cases u with
  | finalize => exact h
  | attachMissing => exact Option.isNone_iff_eq_none.mp h
  | _ => trivial

/-- `replayable`, checked. -/
def checksReplays {A : Type} (_ : ℕ) (β : Type) (op : Op β) (applied : Bool) (s : Store)
    (_ : List (Entry ℕ (Call A) Event)) : Bool :=
  match β, op with
  | _, .change (.write session (.updateOperation u)) =>
    !applied || (schema.view s session).all fun v =>
      v.operations.all fun d => !u.selects d || checksReplayable d u
  | _, _ => true

theorem replayable_of_checks {A : Type} {i : ℕ} {β : Type} {op : Op β} {applied : Bool} {s : Store}
    {J : List (Entry ℕ (Call A) Event)} (h : checksReplays i β op applied s J = true) :
    replayable i β op applied s J := by
  cases op with
  | change c =>
    cases c with
    | write session w =>
      cases w with
      | updateOperation u =>
        cases applied with
        | false => trivial
        | true =>
          intro v hv d hd hu
          have hall : ((schema.view s session).all fun v =>
            v.operations.all fun d => !u.selects d || checksReplayable d u) = true := h
          rw [hv] at hall
          have hcheck := List.all_eq_true.mp hall d hd
          rw [hu] at hcheck
          exact replayable_of_check hcheck
      | _ => trivial
    | _ => trivial
  | _ => trivial

def replayDriver : Driver (operations deployment fun _ : Unit => idle)
    (replayable : Gate ℕ _ _ _ _) Choice := player.driver _ checksReplays replayable_of_checks

/-- The assignment is made, and made again it is replayed. -/
theorem ended_replays_run : ∃ c : Config ℕ (Call Unit) Op Store Response Event,
    (operations deployment fun _ => idle).Runs replayable (Config.init (.init contested)) c ∧
    ∃ d ∈ c.store.committed.operations, d.status = .completed ∧ ∃ result, d.result = some result ∧
      Replays (AuthIdentifierService.execute deployment assignmentInput idle.toAggregateAdapter)
        c.store.committed "assignment" ⟨d.operationId, .completed, result.httpStatus, true, result⟩ := by
  have hrun : ((replayDriver.play (Config.init (.init contested))
      (.start 1 (.execute assignmentInput ()) ::
        List.replicate 23 (.reply 1 ⟨1000, firstId, ⟨false, ""⟩, 0⟩))).map fun c =>
      c.store.committed.operations.any (fun d => decide (d.status = .completed) &&
        d.manifestHash.isNone) && c.journal.all fun e => match e.call with
          | .execute input _ => decide (input = assignmentInput)
          | _ => false) = some true := by
    decide +kernel
  obtain ⟨c, hplay, hview⟩ := Option.map_eq_some_iff.mp hrun
  obtain ⟨hany, hcalls⟩ := Bool.and_eq_true_iff.mp hview
  obtain ⟨d, hd, hcheck⟩ := List.any_eq_true.mp hany
  obtain ⟨hstatus, hhash⟩ := Bool.and_eq_true_iff.mp hcheck
  have hruns := Driver.play_runs hplay
  obtain ⟨result, hresult, -, hreplays⟩ :=
    ended_replays contested_indexed rfl hruns d hd .completed (of_decide_eq_true hstatus)
  obtain ⟨input, hmade, hagain⟩ := hreplays (Option.isNone_iff_eq_none.mp hhash)
  -- the journal tells of no other input
  obtain ⟨e, he, hinput, -⟩ := hmade.created
  have hcall := List.all_eq_true.mp hcalls e he
  have heq : input = assignmentInput := by
    cases hc : e.call with
    | execute input' a =>
      rw [hc] at hcall hinput
      exact Eq.trans hinput (of_decide_eq_true hcall)
    | _ =>
      rw [hc] at hcall
      cases hcall
  subst heq
  refine ⟨c, hruns, d, hd, of_decide_eq_true hstatus, result, hresult, ?_⟩
  exact (hagain canonical_assignmentInput c .refl _).1

/-- A resolution crashes when it has made its assignments. Two passes end it, with no result. -/
theorem ended_without_result : ∃ c : Run,
    (operations deployment noAggregates).Runs anyCall (Config.init (.init contested)) c ∧
    ∃ d ∈ c.store.committed.operations, d.status = .completed ∧ d.result = none := by
  have hrun : ((freeDriver.play (Config.init (.init contested))
      (.start 1 (.resolveConflict conflictId.1 resolution administrator) ::
        turns 31 1 1000 firstId ++ .crash 1 ::
        .start 2 (.runBoundedPass "pass") :: turns 8 2 2000 firstId ++
        .start 3 (.runBoundedPass "pass") :: turns 8 3 9000 firstId)).map fun c =>
      c.store.committed.operations.any fun d =>
        decide (d.status = .completed) && d.result.isNone) = some true := by
    decide +kernel
  obtain ⟨c, hplay, hany⟩ := Option.map_eq_some_iff.mp hrun
  obtain ⟨d, hd, hcheck⟩ := List.any_eq_true.mp hany
  obtain ⟨hstatus, hresult⟩ := Bool.and_eq_true_iff.mp hcheck
  exact ⟨c, Driver.play_runs hplay, d, hd, of_decide_eq_true hstatus,
    Option.isNone_iff_eq_none.mp hresult⟩

end Schedules

end Operations
