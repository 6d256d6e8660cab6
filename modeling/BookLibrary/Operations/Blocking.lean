import BookLibrary.Operations.Lifecycle
import BookLibrary.Operations.Resumption
import BookLibrary.Operations.SagaWrites

/-!
# Ambiguous identifiers during a resolution

Any number of requests that resolve conflicts on one store. What a saga does on its way leaves
a reservation pending, released or in conflict; only `finalizeReservation` makes it active, and
it does so while the operation is still being applied.
-/

namespace Operations

open AuthIdentifiers Documents Interleaving

structure ResolveConflictCall where
  conflictId : String
  dto : ResolveAuthIdentifierConflictDto
  actor : AuthIdentifierSubjectReference
  deriving DecidableEq

/-- The input of the operation that resolves the conflict. -/
def ResolveConflictCall.input (env : Environment) (call : ResolveConflictCall) : OperationInput :=
  AuthIdentifierService.conflictInput call.dto
    (AuthIdentifierService.conflictAssignments env call.conflictId call.dto) call.actor

abbrev resolutions (env : Environment) :
    System ResolveConflictCall Op Store (Except Failure OperationResult) Event :=
  service fun call =>
    (AuthIdentifierService.resolveConflict env call.conflictId call.dto call.actor).run

/-- The identifiers that a resolution is about: the one in conflict, and its replacements. -/
def ambiguous (env : Environment) (v : Database) (conflictId : String)
    (dto : ResolveAuthIdentifierConflictDto) : Set String :=
  {x | x ∈ dto.replacements env ∨ ∃ id, ObjectId.parse conflictId = some id ∧
    ∃ d ∈ v.identifiers, d.id = id.1 ∧ d.normalizedIdentifier = x}

def Completed (v : Database) (operationId : String) : Prop :=
  ∃ d ∈ v.operations, d.operationId = operationId ∧ d.status = .completed

/-- No reservation of the identifiers is active. -/
def Inactive (X : Set String) (v : Database) : Prop :=
  ∀ d ∈ v.identifiers, d.normalizedIdentifier ∈ X → d.status ≠ .active

/-- The identifiers wait for the operation. -/
structure Awaiting (X : Set String) (operationId : String) (v : Database) : Prop where
  indexed : v.Indexed
  blocked : Completed v operationId ∨ Inactive X v

/-- The operations run as sagas, and `finalizeReservation` makes none of the identifiers active
before the operation is completed. -/
def holdsBack {ι : Type} (X : Set String) (operationId : String) :
    Gate ι ResolveConflictCall Op Store Event := fun _ _ op applied s _ =>
  applied = true → op.commits = none ∧ ∀ reservedBy id actorId now,
    op.writes = some (none, .updateIdentifier (.finalizeReservation reservedBy id false actorId now)) →
    Completed s.committed operationId ∨ ∀ d ∈ s.committed.identifiers,
      d.normalizedIdentifier ∈ X → d.id = id → d.pendingOperationId ≠ some reservedBy

section Writes

variable {input : OperationInput} {w : Write} {v : Database} {X : Set String} {operationId : String}

/-- No update of a saga takes an operation out of its end. -/
theorem SagaWrite.apply_completed {u : OperationUpdate} (hw : SagaWrite input (.updateOperation u))
    {d : AuthIdentifierOperation} (hu : u.selects d = true) (hstatus : d.status = .completed) :
    (u.apply d).status = .completed := by
  cases hw with
  | aggregate haggregate => cases haggregate
  | quiet hquiet => rw [OperationUpdate.apply_status_of_isQuiet hquiet, hstatus]
  | transition htarget =>
    simp only [OperationUpdate.selects, Bool.and_eq_true, decide_eq_true_eq] at hu
    rw [← hu.2, hstatus] at htarget
    cases htarget
  | beginFinalizing hsource =>
    simp only [OperationUpdate.selects, Bool.and_eq_true, decide_eq_true_eq] at hu
    rw [← hu.2, hstatus] at hsource
    cases hsource
  | finishTerminal =>
    simp only [OperationUpdate.selects, Bool.and_eq_true, decide_eq_true_eq] at hu
    cases hstatus.symm.trans hu.2

/-- A document that is a completed operation is followed by one. -/
def StaysCompleted (d d' : Document) : Prop :=
  ∀ x, d = .operation x → x.status = .completed →
    ∃ x', d' = .operation x' ∧ x'.operationId = x.operationId ∧ x'.status = .completed

theorem SagaWrite.staysCompleted (hw : SagaWrite input w) (hv : v.Indexed) {d x : Document}
    (hd : d ∈ (schema.write w v).docs) (hx : Accounts.Database.find d.key v = some x) :
    StaysCompleted x d := by
  rintro y rfl hstatus
  have hwritten := written_of_mem hv hd
  rw [hx] at hwritten
  generalize hfound : some (Accounts.Document.operation y) = found at hwritten
  cases hwritten with
  | account hdocs =>
    cases hw with
    | aggregate haggregate =>
      have haccount := account_docs haggregate hdocs
      have hkey := key_of_find hx
      cases d with
      | staffUser | member | family => cases hkey
      | _ => cases haccount
  | updateOperation hmem hu =>
    cases hfound
    exact ⟨_, rfl, OperationUpdate.apply_operationId _ _, hw.apply_completed hu hstatus⟩
  | _ => cases hfound

theorem Completed.write (h : Completed v operationId) (hw : SagaWrite input w) (hv : v.Indexed) :
    Completed (schema.putAll (schema.write w v).docs v) operationId := by
  obtain ⟨x, hx, hid, hstatus⟩ := h
  have hgrows : Sessions.Grows schema StaysCompleted v (schema.putAll (schema.write w v).docs v) :=
    .write schema_lawful (fun _ y hy hstatus => ⟨y, hy, rfl, hstatus⟩)
      (fun _ hd _ hfind => hw.staysCompleted hv hd hfind) (decide_eq_true hv)
  obtain ⟨d, hd, hstays⟩ := hgrows (.operation x.id) (.operation x) (find_operation hv hx)
  obtain ⟨x', rfl, hid', hstatus'⟩ := hstays x rfl hstatus
  exact ⟨x', (operation_of_find (k := .operation x.id) hd).1, hid'.trans hid, hstatus'⟩

/-- A reservation that is active is one that was, or `finalizeReservation` has made it so. -/
theorem SagaWrite.active (hactions : ∀ a ∈ input.assignments, a.action ≠ .release)
    (hw : SagaWrite input w) (hv : v.Indexed) {d : AuthIdentifier}
    (hd : d ∈ (schema.putAll (schema.write w v).docs v).identifiers) (hactive : d.status = .active) :
    d ∈ v.identifiers ∨ ∃ id actorId now x,
      w = .updateIdentifier (.finalizeReservation input.operationId id false actorId now) ∧
      x ∈ v.identifiers ∧ x.id = id ∧ x.pendingOperationId = some input.operationId ∧
      x.normalizedIdentifier = d.normalizedIdentifier := by
  have hindexed : (schema.putAll (schema.write w v).docs v).Indexed :=
    of_decide_eq_true (schema_lawful.indexed_write w v (decide_eq_true hv))
  rcases written_or_found (decide_eq_true hv) (find_identifier hindexed hd) with hwritten | hold
  · refine .inr ?_
    generalize Accounts.Database.find (Accounts.Document.identifier d).key v = found at hwritten
    generalize hdoc : Accounts.Document.identifier d = doc at hwritten
    cases hwritten with
    | account hdocs =>
      cases hw with
      | aggregate haggregate =>
        rw [← hdoc] at hdocs
        cases account_docs haggregate hdocs
    | createIdentifier | upsertIdentifier =>
      cases hdoc
      cases hactive
    | @updateIdentifier u x hx hu =>
      cases hdoc
      cases hw with
      | aggregate haggregate =>
        cases u with
        | releaseConflict | restoreConflict => cases hactive
        | _ => cases haggregate
      | take => cases hactive
      | @settle a ha id actorId now =>
        simp only [IdentifierUpdate.selects, Bool.and_eq_true, decide_eq_true_eq] at hu
        refine ⟨id, actorId, now, x, ?_, hx, hu.1, hu.2, rfl⟩
        rw [decide_eq_false (hactions a ha)]
      | @restore a ha =>
        have hrestored : AuthIdentifierService.restoredStatus a.action = .active := hactive
        cases haction : a.action with
        | release => exact absurd haction (hactions a ha)
        | _ =>
          rw [haction] at hrestored
          cases hrestored
    | updateIdentifiers =>
      cases hw with
      | aggregate haggregate => cases haggregate
    | _ => cases hdoc
  · exact .inl (identifier_of_find (k := .identifier d.id) hold).1

/-- One write of a saga, which does not make any of the identifiers active too soon. -/
theorem Awaiting.write (h : Awaiting X operationId v)
    (hactions : ∀ a ∈ input.assignments, a.action ≠ .release) (hw : SagaWrite input w)
    (hheld : ∀ reservedBy id actorId now,
      w = .updateIdentifier (.finalizeReservation reservedBy id false actorId now) →
      Completed v operationId ∨ ∀ d ∈ v.identifiers, d.normalizedIdentifier ∈ X → d.id = id →
        d.pendingOperationId ≠ some reservedBy) :
    Awaiting X operationId (schema.putAll (schema.write w v).docs v) where
  indexed := of_decide_eq_true (schema_lawful.indexed_write w v (decide_eq_true h.indexed))
  blocked := by
    by_cases hcompleted : Completed v operationId
    · exact .inl (hcompleted.write hw h.indexed)
    · refine .inr fun d hd hname hactive => ?_
      rcases hw.active hactions h.indexed hd hactive with hold | ⟨id, actorId, now, x, rfl, hx, hid,
        hpending, hsame⟩
      · exact h.blocked.resolve_left hcompleted d hold hname hactive
      · rw [← hsame] at hname
        exact (hheld _ _ _ _ rfl).resolve_left hcompleted x hx hname hid hpending

end Writes

section Resolvers

variable {K : Set Database} {X : Set String} {identifier : String}

/-- The calls of a resolver find one of the databases `K`, each its own. -/
def Finds (K : Set Database) (β : Type) (op : Op β) (b : β) : Prop :=
  ∃ v ∈ K, ∃ s', Sessions.Op.exec schema β op (.init v) b s'

theorem find_ends {α β : Type} {q : Query β} {f : β → Handler α} {Q : Except Failure α → Prop}
    (hok : ∀ v ∈ K, ∀ b, schema.answers β q v b →
      (f b).Ends (Finds K) (Sessions.Op.fallible drawFails) Q) (herr : ∀ e, Q (.error e)) :
    (find none q >>= f).Ends (Finds K) (Sessions.Op.fallible drawFails) Q := by
  refine ⟨fun b hb => ?_, fun _ => ⟨fun e _ => herr _, fun _ => herr _⟩⟩
  obtain ⟨v, hv, s', ⟨v', hview, hanswers⟩, -⟩ := hb
  cases hview
  exact hok v hv b hanswers

theorem find_answered {α β : Type} {q : Query β} {f : β → Handler α} {Q : Except Failure α → Prop}
    (h : (find none q >>= f).Ends (Finds K) (Sessions.Op.fallible drawFails) Q) {v : Database}
    (hv : v ∈ K) {b : β} (hb : schema.answers β q v b) :
    (f b).Ends (Finds K) (Sessions.Op.fallible drawFails) Q :=
  h.1 b ⟨v, hv, .init v, ⟨v, rfl, hb⟩, rfl⟩

/-- Neither the service nor sign-in finds a subject for the identifier, whichever of the
databases each of their calls finds. -/
structure Unresolved (K : Set Database) (identifier : String) : Prop where
  service : (AuthIdentifierService.resolveActiveIdentifier identifier).Ends (Finds K)
    (Sessions.Op.fallible drawFails) fun r => ∀ subject, r ≠ .ok (some subject)
  signIn : ∀ env, SignIn.Refused env {s | ∃ v ∈ K, RepairPlan.Shows v s} identifier

theorem unresolved_of_inactive (h : ∀ v ∈ K, Inactive X v) (hidentifier : identifier ∈ X) :
    Unresolved K identifier where
  service := by
    refine find_ends (fun v hv found hfound => ?_) fun _ _ => nofun
    cases found with
    | none => exact .pure fun _ => nofun
    | some d =>
      have hname : d.normalizedIdentifier = identifier := of_decide_eq_true hfound.2
      simp only
      rw [if_pos (h v hv d hfound.1 (hname ▸ hidentifier))]
      exact .pure fun _ => nofun
  signIn env := by
    refine SignIn.refused_of_shut ?_
    rintro s ⟨v, hv, hshows⟩ d hd hname hactive
    rw [hshows.1] at hd
    exact absurd hactive (h v hv d hd (hname ▸ hidentifier))

/-- An active reservation with no gate is found by the service. -/
theorem not_unresolved_of_active {v : Database} {d : AuthIdentifier} (hd : d ∈ v.identifiers)
    (hactive : d.status = .active) (hgate : d.activationGateOperationId = none) :
    ¬ Unresolved {v} d.normalizedIdentifier := by
  intro h
  have hfound : schema.answers _ (.inl (.findIdentifier d.normalizedIdentifier)) v (some d) :=
    ⟨hd, decide_eq_true rfl⟩
  have hrest := find_answered h.service rfl hfound
  simp only at hrest
  rw [if_neg (not_not_intro hactive), hgate] at hrest
  exact hrest _ rfl

end Resolvers

section Runs

variable {ι : Type} [DecidableEq ι] {env : Environment}

theorem ResolveConflictCall.action_ne_release (call : ResolveConflictCall)
    {a : AuthIdentifierAssignmentInput} (ha : a ∈ (call.input env).assignments) :
    a.action ≠ .release := by
  rcases AuthIdentifierService.action_of_mem_conflictAssignments ha with haction | haction
  · simp [haction]
  · simp [haction]

def resolutionsContract (ι : Type) [DecidableEq ι] (env : Environment) :
    Contract ι (resolutions env) where
  inv _ _ := True
  legal call _ _ β op := Requests (call.input env) β op
  post _ _ _ _ := True
  inv_call _ _ _ _ := trivial
  inv_env _ _ := trivial
  conforms _ := (Conforms.of_confined (F := fun _ => False)
    AuthIdentifierService.resolveConflict_requests (fun h => h) fun _ _ _ h => h).mono
      fun _ _ _ _ => trivial

omit [DecidableEq ι] in
/-- One step of a run of sagas. -/
theorem awaiting_step {s s' : Store} {J : List (Entry ι ResolveConflictCall Event)} {i : ι}
    {call : ResolveConflictCall} {β : Type} {op : Op β} {x : Option β} {evs : List Event}
    {X : Set String} {operationId : String} (h : Awaiting X operationId s.committed)
    (hop : Requests (call.input env) β op) (hgate : holdsBack X operationId i β op x.isSome s J)
    (heff : Sessions.Effect schema seen s op x evs s') : Awaiting X operationId s'.committed := by
  cases heff with
  | wrote w =>
    refine h.write (fun _ => call.action_ne_release) hop fun reservedBy id actorId now hw => ?_
    exact (hgate rfl).2 reservedBy id actorId now (by rw [hw]; rfl)
  | committed => cases (hgate rfl).1
  | _ => exact h

/-- Where no reservation of the identifiers is active at the start, and none is made active
before the operation is completed, nobody is found for them until then. -/
theorem identifiers_blocked {s₀ : Database} (hs : s₀.Indexed) {conflictId : String}
    {dto : ResolveAuthIdentifierConflictDto}
    (hstart : Inactive (ambiguous env s₀ conflictId dto) s₀) :
    ∀ identifier ∈ ambiguous env s₀ conflictId dto, Unresolved
      {v | ∃ c : Config ι ResolveConflictCall Op Store (Except Failure OperationResult) Event,
        (resolutions env).Runs (holdsBack (ambiguous env s₀ conflictId dto) dto.operationId)
          (Config.init (.init s₀)) c ∧
        v = c.store.committed ∧ ¬ Completed v dto.operationId} identifier := by
  refine fun identifier hidentifier => unresolved_of_inactive ?_ hidentifier
  rintro v ⟨c, hrun, rfl, hopen⟩
  have hinit : Awaiting (ambiguous env s₀ conflictId dto) dto.operationId s₀ := ⟨hs, .inr hstart⟩
  have hawaiting : Awaiting (ambiguous env s₀ conflictId dto) dto.operationId c.store.committed := by
    refine WellFormed.runs_induct (k := resolutionsContract ι env)
      (P := fun s _ => Awaiting (ambiguous env s₀ conflictId dto) dto.operationId s.committed)
      ?_ ?_ (.init trivial) hrun hinit
    · intro s s' J i call fl β op x _ h _ hlegal hgate heff
      exact awaiting_step h hlegal hgate (Sessions.effect_of_applies heff)
    · intro s s' J _ h henv
      cases henv
      exact h
  exact hawaiting.blocked.resolve_left hopen

end Runs

section Schedules

abbrev ResolutionRun :=
  Config ℕ ResolveConflictCall Op Store (Except Failure OperationResult) Event

/-- The next `n` calls of the resolution of the conflict, which is the only one. -/
def resolves (n : ℕ) : List (Move ℕ ResolveConflictCall Choice) :=
  .start 1 ⟨conflictId.1, resolution, administrator⟩ ::
    List.replicate n (.reply 1 ⟨1000, firstId, ⟨false, ""⟩, 0⟩)

/-- The statuses of the operations and of the reservations, with their gates. -/
def standing (c : ResolutionRun) : List AuthIdentifierOperationStatus ×
    List (String × AuthIdentifierStatus × Option String) :=
  (c.store.committed.operations.map (·.status), c.store.committed.identifiers.map fun d =>
    (d.normalizedIdentifier, d.status, d.activationGateOperationId))

theorem not_completed_of_standing {c : ResolutionRun}
    {reservations : List (String × AuthIdentifierStatus × Option String)}
    (h : standing c = ([.applying], reservations)) (operationId : String) :
    ¬ Completed c.store.committed operationId := by
  rintro ⟨d, hd, -, hstatus⟩
  have hmem : d.status ∈ c.store.committed.operations.map (·.status) := List.mem_map_of_mem hd
  rw [(Prod.mk.inj h).1, hstatus] at hmem
  cases List.mem_singleton.mp hmem

/-- `holdsBack`, checked: nothing is committed, and nothing made active. -/
def checksHeldBack (_ : ℕ) (β : Type) (op : Op β) (applied : Bool) (_ : Store)
    (_ : List (Entry ℕ ResolveConflictCall Event)) : Bool :=
  !applied || op.commits.isNone && op.writes.all fun
    | (none, .updateIdentifier (.finalizeReservation _ _ released _ _)) => released
    | _ => true

theorem holdsBack_of_checks {X : Set String} {operationId : String} {i : ℕ} {β : Type} {op : Op β}
    {applied : Bool} {s : Store} {J : List (Entry ℕ ResolveConflictCall Event)}
    (h : checksHeldBack i β op applied s J = true) : holdsBack X operationId i β op applied s J := by
  intro happlied
  rw [checksHeldBack, happlied, Bool.not_true, Bool.false_or, Bool.and_eq_true,
    Option.isNone_iff_eq_none] at h
  refine ⟨h.1, fun reservedBy id actorId now hwrites => ?_⟩
  rw [hwrites] at h
  cases h.2

def heldBackDriver (X : Set String) (operationId : String) :
    Driver (resolutions deployment) (holdsBack X operationId : Gate ℕ _ _ _ _) Choice :=
  player.driver _ checksHeldBack holdsBack_of_checks

def freeResolutions : Driver (resolutions deployment) (anyCall : Gate ℕ _ _ _ _) Choice :=
  player.driver _ (fun _ _ _ _ _ _ => true) fun _ => anyCall_pass

theorem inactive_contested (X : Set String) : Inactive X contested := by
  intro d hd _
  cases List.mem_singleton.mp hd
  decide

theorem olivia_mem_ambiguous :
    "olivia" ∈ ambiguous deployment contested conflictId.1 resolution :=
  .inr ⟨conflictId, ObjectId.parse_text _, _, List.mem_cons_self, rfl, rfl⟩

/-- The saga has come to the point where the retained subject's reservation would be made active. -/
theorem identifiers_blocked_olivia : ∃ c : ResolutionRun,
    (resolutions deployment).Runs
      (holdsBack (ambiguous deployment contested conflictId.1 resolution) "resolution")
      (Config.init (.init contested)) c ∧
    standing c = ([.applying], [("olivia", .pending, none)]) ∧
    Unresolved {v | ∃ c : ResolutionRun, (resolutions deployment).Runs
      (holdsBack (ambiguous deployment contested conflictId.1 resolution) "resolution")
        (Config.init (.init contested)) c ∧
      v = c.store.committed ∧ ¬ Completed v "resolution"} "olivia" := by
  have hrun : (((heldBackDriver (ambiguous deployment contested conflictId.1 resolution)
      "resolution").play (Config.init (.init contested)) (resolves 17)).map standing) =
      some ([.applying], [("olivia", .pending, none)]) := by decide +kernel
  obtain ⟨c, hplay, hstanding⟩ := Option.map_eq_some_iff.mp hrun
  exact ⟨c, Driver.play_runs hplay, hstanding,
    identifiers_blocked contested_indexed (inactive_contested _) "olivia" olivia_mem_ambiguous⟩

/-- One call later the retained subject is found, with the rest of the mapping still to come. -/
theorem identifiers_not_blocked : ∃ c : ResolutionRun,
    (resolutions deployment).Runs anyCall (Config.init (.init contested)) c ∧
    standing c = ([.applying], [("olivia", .active, none)]) ∧
    Inactive (ambiguous deployment contested conflictId.1 resolution) contested ∧
    "olivia" ∈ ambiguous deployment contested conflictId.1 resolution ∧
    ¬ Completed c.store.committed "resolution" ∧ ¬ Unresolved {c.store.committed} "olivia" := by
  have hrun : ((freeResolutions.play (Config.init (.init contested)) (resolves 18)).map standing) =
      some ([.applying], [("olivia", .active, none)]) := by decide +kernel
  obtain ⟨c, hplay, hstanding⟩ := Option.map_eq_some_iff.mp hrun
  refine ⟨c, Driver.play_runs hplay, hstanding, inactive_contested _, olivia_mem_ambiguous,
    not_completed_of_standing hstanding _, ?_⟩
  have hmem : ("olivia", .active, none) ∈ c.store.committed.identifiers.map fun d =>
      (d.normalizedIdentifier, d.status, d.activationGateOperationId) := by
    rw [(Prod.mk.inj hstanding).2]
    exact List.mem_singleton_self _
  obtain ⟨d, hd, heq⟩ := List.mem_map.mp hmem
  obtain ⟨hname, hactive, hgate⟩ : d.normalizedIdentifier = "olivia" ∧ d.status = .active ∧
      d.activationGateOperationId = none := by simpa using heq
  rw [← hname]
  exact not_unresolved_of_active hd hactive hgate

end Schedules

end Operations
