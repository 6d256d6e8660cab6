import BookLibrary.Operations.Records
import BookLibrary.Operations.Repair

/-!
# How far a repair has come

A repair moves each subject of its manifest to a new identifier: the identifier is reserved
and the account changed, and later the reservation is activated. What is stored between
any two of its writes says how far each of its items has come since it set out.
-/

namespace Operations

open AuthIdentifiers Documents Interleaving

section Chunks

variable {α : Type}

theorem flatten_toChunks_go (n : ℕ) (xs : List α) (acc : Array α) (chunks : Array (List α)) :
    (List.toChunks.go n xs acc chunks).flatten = chunks.toList.flatten ++ acc.toList ++ xs := by
  induction xs generalizing acc chunks with
  | nil => simp [List.toChunks.go]
  | cons y ys ih =>
    rw [List.toChunks.go]
    split
    · rw [ih]
      simp
    · rw [ih]
      simp

/-- The chunks of a list are the list. -/
theorem flatten_toChunks (n : ℕ) (xs : List α) : (xs.toChunks n).flatten = xs := by
  cases xs with
  | nil => simp [List.toChunks]
  | cons x xs =>
    cases n with
    | zero => simp [List.toChunks]
    | succ n => simp [List.toChunks, flatten_toChunks_go]

end Chunks

def Reassignment.ref (x : Reassignment) : AuthIdentifierSubjectReference :=
  x.toAuthIdentifierSubjectReference

/-- The account with its new identifier: raised by one version, unless it carries it already. -/
def reassigned (identifier : String) : Document → Document
  | .staffUser d =>
    if d.email = identifier then .staffUser d
    else .staffUser { d with email := identifier, authVersion := Accounts.incremented d.authVersion }
  | .member d =>
    if d.loginIdentifier = some identifier then .member d
    else .member { d with
      loginIdentifier := some identifier
      authVersion := Accounts.incremented d.authVersion }
  | d => d

@[simp] theorem reassigned_reassigned (identifier : String) (d : Document) :
    reassigned identifier (reassigned identifier d) = reassigned identifier d := by
  cases d with
  | staffUser d =>
    by_cases h : d.email = identifier
    · simp [reassigned, h]
    · simp [reassigned, h]
  | member d =>
    by_cases h : d.loginIdentifier = some identifier
    · simp [reassigned, h]
    · simp [reassigned, h]
  | _ => rfl

@[simp] theorem reassigned_key (identifier : String) (d : Document) :
    (reassigned identifier d).key = d.key := by
  cases d with
  | staffUser d =>
    by_cases h : d.email = identifier
    · simp [reassigned, h]
    · simp [reassigned, h, Accounts.Document.key]
  | member d =>
    by_cases h : d.loginIdentifier = some identifier
    · simp [reassigned, h]
    · simp [reassigned, h, Accounts.Document.key]
  | _ => rfl

/-- A repair: its manifest, who has asked for it, and the store that it has set out from. Where
the `size` of its batches is fixed, it is said. -/
structure RepairPlan where
  operationId : String
  manifest : RepairManifest
  actorId : String
  start : Database
  size : Option ℕ

namespace RepairPlan

variable (p : RepairPlan)

def items : List Reassignment := p.manifest.reassignments

def identifiers : List String := p.items.map (·.newIdentifier)

/-- The manifest gives every subject one identifier, and every identifier to one subject. -/
structure Distinct : Prop where
  subjects : (p.items.map (·.ref)).Nodup
  identifiers : p.identifiers.Nodup

/-- The reservation of the replacement of `x`. -/
def upsert (x : Reassignment) (now : Date) (newId : String) : IdentifierUpsert where
  operationId := p.operationId
  normalizedIdentifier := x.newIdentifier
  identifierType := match x.subjectType with
    | .staff => .email
    | .member => .loginIdentifier
  subjectType := x.subjectType
  subjectId := x.subjectId
  pendingAction := .replace
  actorId := p.actorId
  now := now
  reclaims := false
  newId := newId

/-- The reservation of the replacement, at some date and under some new id. -/
def Replaces (x : Reassignment) (r : AuthIdentifier) : Prop :=
  ∃ now newId, r = (p.upsert x now newId).reserves (reservation p.start x.newIdentifier)

def activation (ids : List String) : IdentifiersUpdate := .activate p.operationId ids

def Moved (v : Database) (x : Reassignment) : Prop :=
  ∃ d, accountOf p.start x.ref = some d ∧ accountOf v x.ref = some (reassigned x.newIdentifier d)

def Reserved (v : Database) (x : Reassignment) : Prop :=
  ∃ r, p.Replaces x r ∧ reservation v x.newIdentifier = some r

def Activated (v : Database) (x : Reassignment) : Prop :=
  ∃ r, p.Replaces x r ∧ reservation v x.newIdentifier = some ((p.activation []).apply r)

def assignmentId (x : Reassignment) : String :=
  p.operationId ++ ":" ++ subjectTypeText x.subjectType ++ ":" ++ x.subjectId

/-- The assignment of `x` in a batch. -/
structure Assigns (a : AuthIdentifierOperationAssignment) (x : Reassignment) : Prop where
  assignmentId : a.assignmentId = p.assignmentId x
  subjectType : a.subjectType = x.subjectType
  subjectId : a.subjectId = x.subjectId

/-- The assignment is done: the account is moved, and the reservation it names is the one of
the replacement. -/
structure Done (v : Database) (a : AuthIdentifierOperationAssignment) (x : Reassignment) : Prop where
  moved : p.Moved v x
  replaced : p.Reserved v x ∨ p.Activated v x
  target : ∃ r, reservation v x.newIdentifier = some r ∧ a.targetReservationId = some r.id

def Belongs (b : AuthIdentifierRepairBatch) (x : Reassignment) : Prop :=
  ∃ a ∈ b.assignments, a.subjectType = x.subjectType ∧ a.subjectId = x.subjectId

/-- The batches of the repair that are stored. -/
def batches (v : Database) : List AuthIdentifierRepairBatch :=
  v.batches.filter fun b => decide (b.parentOperationId = p.operationId)

/-- A batch is prepared, with all of its assignments done, or activated. -/
structure Kept (v : Database) (b : AuthIdentifierRepairBatch) : Prop where
  status : b.status = .prepared ∨ b.status = .activated
  done : ∀ a ∈ b.assignments, ∃ x ∈ p.items, p.Assigns a x ∧ p.Done v a x
  activated : b.status = .activated → ∀ a ∈ b.assignments, ∃ x ∈ p.items, p.Assigns a x ∧
    p.Activated v x

/-- The batch of that number holds that chunk of the manifest. -/
def Cut (b : AuthIdentifierRepairBatch) : Prop :=
  ∀ n ∈ p.size, ∀ xs, (p.items.toChunks n)[b.batchNumber]? = some xs → ∀ x ∈ xs, Belongs b x

/-- The original after the repair. -/
def settled (conflictId : String) (now : Date) (r : AuthIdentifier) : AuthIdentifier :=
  let u : IdentifierUpdate := .resolveOriginal p.operationId conflictId p.manifest.retainedSubject
    ((p.items.head?.map (·.ref)).getD ⟨.staff, ""⟩) now
  if u.selects r then u.apply r else r

/-- The operation of the repair. -/
def IsParent (v : Database) (d : AuthIdentifierOperation) : Prop :=
  d ∈ v.operations ∧ d.operationId = p.operationId

def Completed (v : Database) : Prop := ∃ d, p.IsParent v d ∧ d.status = .completed

/-- Every item is in a batch that is activated, and the original is settled. -/
structure Finished (v : Database) : Prop where
  activated : ∀ x ∈ p.items, ∃ b ∈ p.batches v, b.status = .activated ∧ Belongs b x
  settled : ∃ conflictId now, castObjectId "_id" p.manifest.conflictId = pure conflictId ∧
    ∀ identifier ∉ p.identifiers, reservation v identifier =
      (reservation p.start identifier).map (p.settled conflictId now)

/-- Every account and every replacement is as it was, or as the manifest says. -/
structure Underway (v : Database) : Prop where
  accounts : ∀ x ∈ p.items, accountOf v x.ref = accountOf p.start x.ref ∨ p.Moved v x
  bystanders : ∀ subject, (∀ x ∈ p.items, x.ref ≠ subject) →
    accountOf v subject = accountOf p.start subject
  reservations : ∀ x ∈ p.items, reservation v x.newIdentifier =
    reservation p.start x.newIdentifier ∨ p.Reserved v x ∨ p.Activated v x

/-- What is stored between any two writes of a repair; the batch of the number `preparing` is
not ready yet. -/
structure Progress (preparing : Option ℕ) (v : Database) : Prop extends p.Underway v where
  indexed : v.Indexed
  untouched : ¬ p.Completed v → ∀ identifier ∉ p.identifiers,
    reservation v identifier = reservation p.start identifier
  finished : p.Completed v → p.Finished v
  kept : ∀ b ∈ p.batches v, some b.batchNumber ≠ preparing → p.Kept v b
  cut : ∀ b ∈ p.batches v, p.Cut b
  parent : ∃ d, p.IsParent v d ∧ d.requestedBy.subjectId = p.actorId ∧
    d.status ∉ [.compensating, .failedTerminal]

variable {p}

theorem mem_batches {v : Database} {b : AuthIdentifierRepairBatch} :
    b ∈ p.batches v ↔ b ∈ v.batches ∧ b.parentOperationId = p.operationId := by
  simp [batches]

theorem Distinct.eq_of_subject (h : p.Distinct) {x y : Reassignment} (hx : x ∈ p.items)
    (hy : y ∈ p.items) (heq : x.ref = y.ref) : x = y := eq_of_key h.subjects hx hy heq

theorem Distinct.eq_of_identifier (h : p.Distinct) {x y : Reassignment} (hx : x ∈ p.items)
    (hy : y ∈ p.items) (heq : x.newIdentifier = y.newIdentifier) : x = y :=
  eq_of_key h.identifiers hx hy heq

theorem Distinct.eq_of_assigns (h : p.Distinct) {x y : Reassignment} (hx : x ∈ p.items)
    (hy : y ∈ p.items) {a : AuthIdentifierOperationAssignment}
    (hsubject : a.subjectType = x.subjectType ∧ a.subjectId = x.subjectId) (ha : p.Assigns a y) :
    x = y := by
  refine h.eq_of_subject hx hy ?_
  have htype := hsubject.1.symm.trans ha.subjectType
  have hid := hsubject.2.symm.trans ha.subjectId
  cases hxr : x.ref
  cases hyr : y.ref
  simp_all [Reassignment.ref]

theorem mem_identifiers {x : Reassignment} (hx : x ∈ p.items) : x.newIdentifier ∈ p.identifiers :=
  List.mem_map_of_mem hx

section Replaces

variable {x : Reassignment} {r : AuthIdentifier}

theorem Replaces.normalizedIdentifier (h : p.Replaces x r) :
    r.normalizedIdentifier = x.newIdentifier := by
  obtain ⟨now, newId, rfl⟩ := h
  exact IdentifierUpsert.reserves_normalizedIdentifier _ _

theorem Replaces.status (h : p.Replaces x r) : r.status = .pending := by
  obtain ⟨now, newId, rfl⟩ := h
  exact IdentifierUpsert.reserves_status _ _

theorem Replaces.pendingOperationId (h : p.Replaces x r) :
    r.pendingOperationId = some p.operationId := by
  obtain ⟨now, newId, rfl⟩ := h
  cases reservation p.start x.newIdentifier <;> rfl

theorem Replaces.subject (h : p.Replaces x r) :
    r.subjectType = some x.subjectType ∧ r.subjectId = some x.subjectId := by
  obtain ⟨now, newId, rfl⟩ := h
  cases reservation p.start x.newIdentifier <;> exact ⟨rfl, rfl⟩

/-- Reserved anew, it is as if it had been reserved at the later date only. -/
theorem Replaces.again (h : p.Replaces x r) (now : Date) (newId : String) :
    p.Replaces x ((p.upsert x now newId).apply r) := by
  obtain ⟨now₀, newId₀, rfl⟩ := h
  refine ⟨now, newId₀, ?_⟩
  cases reservation p.start x.newIdentifier <;> rfl

end Replaces

section Frame

variable {v v' : Database}

/-- Accounts and reservations are the same in both stores. -/
structure Alike (v v' : Database) : Prop where
  account : ∀ subject, accountOf v' subject = accountOf v subject
  reservation : ∀ identifier, reservation v' identifier = reservation v identifier

theorem Alike.put_batch (v : Database) (b : AuthIdentifierRepairBatch) :
    Alike v (v.put (.batch b)) := by
  refine ⟨fun subject => ?_, fun _ => rfl⟩
  rw [accountOf, accountOf]
  cases subject.subjectType <;> rfl

theorem Alike.put_event (v : Database) (e : SecurityActivityEvent) :
    Alike v (v.put (.event e)) := by
  refine ⟨fun subject => ?_, fun _ => rfl⟩
  rw [accountOf, accountOf]
  cases subject.subjectType <;> rfl

theorem accountOf_put_identifier (v : Database) (r : AuthIdentifier)
    (subject : AuthIdentifierSubjectReference) :
    accountOf (v.put (.identifier r)) subject = accountOf v subject := by
  rw [accountOf, accountOf]
  cases subject.subjectType <;> rfl

theorem Alike.put_operation (v : Database) (d : AuthIdentifierOperation) :
    Alike v (v.put (.operation d)) := by
  refine ⟨fun subject => ?_, fun _ => rfl⟩
  rw [accountOf, accountOf]
  cases subject.subjectType <;> rfl

/-- Nothing that has come about in the one store is undone in the other. -/
structure Furthers (p : RepairPlan) (v v' : Database) : Prop where
  done : ∀ a, ∀ x ∈ p.items, p.Done v a x → p.Done v' a x
  activated : ∀ x ∈ p.items, p.Activated v x → p.Activated v' x

theorem Furthers.kept (hfurthers : Furthers p v v') {b : AuthIdentifierRepairBatch}
    (h : p.Kept v b) : p.Kept v' b where
  status := h.status
  done a ha := by
    obtain ⟨x, hx, hassigns, hd⟩ := h.done a ha
    exact ⟨x, hx, hassigns, hfurthers.done a x hx hd⟩
  activated hb a ha := by
    obtain ⟨x, hx, hassigns, hd⟩ := h.activated hb a ha
    exact ⟨x, hx, hassigns, hfurthers.activated x hx hd⟩

/-- Accounts and replacements have been changed, and nothing else. -/
structure Advance (p : RepairPlan) (preparing : Option ℕ) (v v' : Database) : Prop where
  progress : p.Progress preparing v'
  furthers : Furthers p v v'
  batches : v'.batches = v.batches
  operations : v'.operations = v.operations

variable (hlike : Alike v v')

include hlike

theorem Alike.moved {x : Reassignment} : p.Moved v' x ↔ p.Moved v x := by
  rw [Moved, Moved, hlike.account]

theorem Alike.reserved {x : Reassignment} : p.Reserved v' x ↔ p.Reserved v x := by
  rw [Reserved, Reserved, hlike.reservation]

theorem Alike.activated {x : Reassignment} : p.Activated v' x ↔ p.Activated v x := by
  rw [Activated, Activated, hlike.reservation]

theorem Alike.underway (h : p.Underway v) : p.Underway v' where
  accounts x hx := by
    rw [hlike.account, hlike.moved]
    exact h.accounts x hx
  bystanders subject hsubject := by
    rw [hlike.account]
    exact h.bystanders subject hsubject
  reservations x hx := by
    rw [hlike.reservation, hlike.reserved, hlike.activated]
    exact h.reservations x hx

theorem Alike.done {a : AuthIdentifierOperationAssignment} {x : Reassignment}
    (h : p.Done v a x) : p.Done v' a x where
  moved := hlike.moved.mpr h.moved
  replaced := h.replaced.imp hlike.reserved.mpr hlike.activated.mpr
  target := by
    rw [hlike.reservation]
    exact h.target

theorem Alike.furthers : Furthers p v v' where
  done _ _ _ hd := hlike.done hd
  activated _ _ ha := hlike.activated.mpr ha

end Frame

section Progress

variable {v : Database} {preparing : Option ℕ} (h : p.Progress preparing v)

include h

/-- Nothing else but an event has been recorded. -/
theorem Progress.put_event {e : SecurityActivityEvent} (hindexed : (v.put (.event e)).Indexed) :
    p.Progress preparing (v.put (.event e)) := by
  have hlike := Alike.put_event v e
  refine ⟨hlike.underway h.toUnderway, hindexed, h.untouched, ?_, ?_, h.cut, h.parent⟩
  · intro hcompleted
    have hfinished := h.finished hcompleted
    exact ⟨hfinished.activated, hfinished.settled⟩
  · exact fun b hb hne => hlike.furthers.kept (h.kept b hb hne)

/-- An operation of the repair that is not completed has moved on. -/
theorem Progress.put_operation {d d' : AuthIdentifierOperation} (hd : d ∈ v.operations)
    (hindexed : (v.put (.operation d')).Indexed) (hid : d'.id = d.id)
    (hoperationId : d'.operationId = d.operationId) (hrequested : d'.requestedBy = d.requestedBy)
    (hold : d.status ≠ .completed) (hnew : d'.status ∉ [.compensating, .completed, .failedTerminal]) :
    p.Progress preparing (v.put (.operation d')) := by
  have hlike := Alike.put_operation v d'
  have hmem : ∀ x, x ∈ (v.put (.operation d')).operations ↔
      x = d' ∨ x ∈ v.operations ∧ x.id ≠ d'.id := fun x => mem_replaceOne
  have hcompleted : p.Completed (v.put (.operation d')) → p.Completed v := by
    rintro ⟨x, ⟨hx, hxid⟩, hstatus⟩
    rcases (hmem x).mp hx with rfl | ⟨hx, -⟩
    · simp [hstatus] at hnew
    · exact ⟨x, ⟨hx, hxid⟩, hstatus⟩
  have hback : p.Completed v → p.Completed (v.put (.operation d')) := by
    rintro ⟨x, ⟨hx, hxid⟩, hstatus⟩
    refine ⟨x, ⟨(hmem x).mpr (.inr ⟨hx, fun heq => hold ?_⟩), hxid⟩, hstatus⟩
    rw [← eq_of_key h.indexed.operations hx hd (heq.trans hid)]
    exact hstatus
  refine ⟨hlike.underway h.toUnderway, hindexed, ?_, ?_, ?_, h.cut, ?_⟩
  · exact fun hopen => h.untouched fun hc => hopen (hback hc)
  · intro hc
    have hfinished := h.finished (hcompleted hc)
    exact ⟨hfinished.activated, hfinished.settled⟩
  · exact fun b hb hne => hlike.furthers.kept (h.kept b hb hne)
  · obtain ⟨x, ⟨hx, hxid⟩, hactor, hstatus⟩ := h.parent
    by_cases heq : x.id = d'.id
    · obtain rfl := eq_of_key h.indexed.operations hx hd (heq.trans hid)
      refine ⟨d', ⟨(hmem d').mpr (.inl rfl), hoperationId.trans hxid⟩, ?_, ?_⟩
      · rw [hrequested]
        exact hactor
      · simp only [List.mem_cons, not_or] at hnew ⊢
        exact ⟨hnew.1, hnew.2.2⟩
    · exact ⟨x, ⟨(hmem x).mpr (.inr ⟨hx, heq⟩), hxid⟩, hactor, hstatus⟩

/-- A batch of the repair has been stored or changed, before the repair has completed. -/
theorem Progress.put_batch {b : AuthIdentifierRepairBatch} {preparing' : Option ℕ}
    (hindexed : (v.put (.batch b)).Indexed) (hopen : ¬ p.Completed v)
    (hkept : b.parentOperationId = p.operationId → some b.batchNumber ≠ preparing' → p.Kept v b)
    (hcut : b.parentOperationId = p.operationId → p.Cut b)
    (hothers : ∀ b' ∈ p.batches v, b'.id ≠ b.id → some b'.batchNumber ≠ preparing' →
      some b'.batchNumber ≠ preparing) : p.Progress preparing' (v.put (.batch b)) := by
  have hlike := Alike.put_batch v b
  have hmem : ∀ {x}, x ∈ p.batches (v.put (.batch b)) →
      x = b ∧ b.parentOperationId = p.operationId ∨ x ∈ p.batches v ∧ x.id ≠ b.id := by
    intro x hx
    obtain ⟨hx, hparent⟩ := mem_batches.mp hx
    rcases mem_replaceOne.mp hx with rfl | ⟨hx, hne⟩
    · exact .inl ⟨rfl, hparent⟩
    · exact .inr ⟨mem_batches.mpr ⟨hx, hparent⟩, hne⟩
  refine ⟨hlike.underway h.toUnderway, hindexed, h.untouched, fun hc => absurd hc hopen, ?_, ?_,
    h.parent⟩
  · intro x hx hne
    rcases hmem hx with ⟨rfl, hparent⟩ | ⟨hx, hid⟩
    · exact hlike.furthers.kept (hkept hparent hne)
    · exact hlike.furthers.kept (h.kept x hx (hothers x hx hid hne))
  · intro x hx
    rcases hmem hx with ⟨rfl, hparent⟩ | ⟨hx, -⟩
    · exact hcut hparent
    · exact h.cut x hx

theorem Progress.update {v' : Database} (hbatches : v'.batches = v.batches)
    (hoperations : v'.operations = v.operations) (hindexed : v'.Indexed) (hopen : ¬ p.Completed v)
    (hunderway : p.Underway v')
    (huntouched : ∀ identifier ∉ p.identifiers,
      reservation v' identifier = reservation v identifier)
    (hfurthers : Furthers p v v') : Advance p preparing v v' := by
  have hcompleted : p.Completed v' ↔ p.Completed v := by
    rw [Completed, Completed]
    simp only [IsParent, hoperations]
  refine ⟨⟨hunderway, hindexed, fun _ identifier hidentifier => ?_, fun hc => ?_,
    fun b hb hne => ?_, fun b hb => ?_, ?_⟩, hfurthers, hbatches, hoperations⟩
  · rw [huntouched identifier hidentifier]
    exact h.untouched hopen identifier hidentifier
  · exact absurd (hcompleted.mp hc) hopen
  · rw [batches, hbatches] at hb
    exact hfurthers.kept (h.kept b hb hne)
  · rw [batches, hbatches] at hb
    exact h.cut b hb
  · obtain ⟨d, hd, hrest⟩ := h.parent
    rw [IsParent, ← hoperations] at hd
    exact ⟨d, hd, hrest⟩

variable (hp : p.Distinct)

include hp

/-- The replacements of a batch have been activated. -/
theorem Progress.activate {b : AuthIdentifierRepairBatch} (hopen : ¬ p.Completed v)
    (hkept : p.Kept v b) {ids : List String}
    (hids : ids = b.assignments.filterMap (·.targetReservationId))
    (hw : schema.write (.updateIdentifiers (p.activation ids)) v ≠ .duplicateKey) :
    Advance p preparing v (schema.wrote (.updateIdentifiers (p.activation ids)) v) ∧
      ∀ x ∈ p.items, Belongs b x →
        p.Activated (schema.wrote (.updateIdentifiers (p.activation ids)) v) x := by
  obtain ⟨⟨identifiers, hwrote⟩, hreservation⟩ := wrote_identifiers h.indexed hw
  have hindexed := wrote_indexed h.indexed (.updateIdentifiers (p.activation ids))
  obtain ⟨v', hv'⟩ : ∃ v', v' = schema.wrote (.updateIdentifiers (p.activation ids)) v := ⟨_, rfl⟩
  rw [← hv'] at hwrote hreservation hindexed ⊢
  have haccount : ∀ subject, accountOf v' subject = accountOf v subject := by
    intro subject
    rw [hwrote, accountOf, accountOf]
    cases subject.subjectType <;> rfl
  -- a reservation that is named by an assignment is the one of its replacement
  have hnamed : ∀ r ∈ v.identifiers, r.id ∈ ids → ∃ x ∈ p.items,
      r.normalizedIdentifier = x.newIdentifier ∧ (p.Reserved v x ∨ p.Activated v x) := by
    intro r hr hid
    rw [hids, List.mem_filterMap] at hid
    obtain ⟨a, ha, htarget⟩ := hid
    obtain ⟨x, hx, -, hdone⟩ := hkept.done a ha
    obtain ⟨r', hr', htarget'⟩ := hdone.target
    rw [htarget] at htarget'
    have hsame := eq_of_key h.indexed.identifiers hr (reservation_mem hr').1
      (Option.some.inj htarget')
    exact ⟨x, hx, hsame ▸ (reservation_mem hr').2, hdone.replaced⟩
  have hselected : ∀ r, r.id ∉ ids → (p.activation ids).applied r = r := by
    intro r hid
    rw [IdentifiersUpdate.applied, if_neg]
    simp [activation, IdentifiersUpdate.selects, hid]
  have hactive : ∀ x r, p.Replaces x r →
      (p.activation ids).applied ((p.activation []).apply r) = (p.activation []).apply r := by
    intro x r _
    rw [IdentifiersUpdate.applied, if_neg]
    simp [activation, IdentifiersUpdate.selects, IdentifiersUpdate.apply]
  have hactivated : ∀ x ∈ p.items, p.Activated v x → p.Activated v' x := by
    rintro x - ⟨r, hr, heq⟩
    refine ⟨r, hr, ?_⟩
    rw [hreservation, heq, Option.map_some, hactive x r hr]
  have hnow : ∀ x r, p.Replaces x r → reservation v x.newIdentifier = some r → r.id ∈ ids →
      p.Activated v' x := by
    intro x r hr heq hid
    refine ⟨r, hr, ?_⟩
    rw [hreservation, heq, Option.map_some, IdentifiersUpdate.applied, if_pos]
    · rfl
    · simp [activation, IdentifiersUpdate.selects, hid, hr.pendingOperationId]
  have hreserved : ∀ x, p.Reserved v x → p.Reserved v' x ∨ p.Activated v' x := by
    rintro x ⟨r, hr, heq⟩
    by_cases hid : r.id ∈ ids
    · exact .inr (hnow x r hr heq hid)
    · refine .inl ⟨r, hr, ?_⟩
      rw [hreservation, heq, Option.map_some, hselected r hid]
  have hreplaced : ∀ x ∈ p.items, p.Reserved v x ∨ p.Activated v x →
      p.Reserved v' x ∨ p.Activated v' x := by
    rintro x hx (hr | ha)
    · exact hreserved x hr
    · exact .inr (hactivated x hx ha)
  have hsameId : ∀ {identifier r}, reservation v identifier = some r →
      ∃ r', reservation v' identifier = some r' ∧ r'.id = r.id := by
    intro identifier r hr
    refine ⟨(p.activation ids).applied r, ?_, ?_⟩
    · rw [hreservation, hr, Option.map_some]
    · rw [IdentifiersUpdate.applied]
      split
      · exact IdentifiersUpdate.apply_id _ r
      · rfl
  refine ⟨h.update (by rw [hwrote]) (by rw [hwrote]) hindexed hopen ⟨?_, ?_, ?_⟩ ?_
    ⟨?_, hactivated⟩, ?_⟩
  · intro x hx
    rw [Moved, haccount]
    exact h.accounts x hx
  · intro subject hsubject
    rw [haccount]
    exact h.bystanders subject hsubject
  · intro x hx
    rcases h.reservations x hx with heq | hr
    · cases hr : reservation v x.newIdentifier with
      | none =>
        rw [hreservation, hr]
        exact .inl (hr.symm.trans heq)
      | some r =>
        obtain ⟨hmem, hname⟩ := reservation_mem hr
        by_cases hid : r.id ∈ ids
        · obtain ⟨y, hy, hyname, hyr⟩ := hnamed r hmem hid
          obtain rfl := hp.eq_of_identifier hx hy (hname.symm.trans hyname)
          exact .inr (hreplaced x hx hyr)
        · rw [hreservation, hr, Option.map_some, hselected r hid]
          exact .inl (hr.symm.trans heq)
    · exact .inr (hreplaced x hx hr)
  · intro identifier hidentifier
    rw [hreservation]
    cases hr : reservation v identifier with
    | none => rfl
    | some r =>
      obtain ⟨hmem, hname⟩ := reservation_mem hr
      rw [Option.map_some, hselected r]
      intro hid
      obtain ⟨x, hx, heq, -⟩ := hnamed r hmem hid
      rw [hname] at heq
      exact hidentifier (heq ▸ mem_identifiers hx)
  · intro a x hx hdone
    refine ⟨?_, ?_, ?_⟩
    · rw [Moved, haccount]
      exact hdone.moved
    · exact hreplaced x hx hdone.replaced
    · obtain ⟨r, hr, htarget⟩ := hdone.target
      obtain ⟨r', hr', hid⟩ := hsameId hr
      exact ⟨r', hr', htarget.trans (congrArg some hid.symm)⟩
  · rintro x hx ⟨a, ha, hsubject⟩
    obtain ⟨y, hy, hassigns, hdone⟩ := hkept.done a ha
    obtain rfl := hp.eq_of_assigns hx hy hsubject hassigns
    rcases hdone.replaced with ⟨r, hr, heq⟩ | hactive
    · obtain ⟨r', hr', htarget⟩ := hdone.target
      rw [heq] at hr'
      cases hr'
      refine hnow x r hr heq ?_
      rw [hids]
      exact List.mem_filterMap.mpr ⟨a, ha, htarget⟩
    · exact hactivated x hx hactive

/-- An item of a batch that is activated has come all the way. -/
theorem Progress.through {b : AuthIdentifierRepairBatch} (hb : b ∈ p.batches v)
    (hpreparing : some b.batchNumber ≠ preparing) (hactivated : b.status = .activated)
    {x : Reassignment} (hx : x ∈ p.items) (hbelongs : Belongs b x) :
    p.Moved v x ∧ p.Activated v x := by
  obtain ⟨a, ha, hsubject⟩ := hbelongs
  have hkept := h.kept b hb hpreparing
  obtain ⟨y, hy, hassigns, hdone⟩ := hkept.done a ha
  obtain ⟨z, hz, hassigns', hactive⟩ := hkept.activated hactivated a ha
  obtain rfl := hp.eq_of_assigns hx hy hsubject hassigns
  obtain rfl := hp.eq_of_assigns hx hz hsubject hassigns'
  exact ⟨hdone.moved, hactive⟩

omit h hp in
/-- What is settled stays as it is. -/
theorem settled_settled (conflictId : String) (now now' : Date) (r : AuthIdentifier) :
    p.settled conflictId now' (p.settled conflictId now r) = p.settled conflictId now r := by
  by_cases hr : r.id = conflictId ∧ r.status = .conflict
  · cases hretained : p.manifest.retainedSubject with
    | none => simp [settled, IdentifierUpdate.selects, IdentifierUpdate.apply, hr, hretained]
    | some subject => simp [settled, IdentifierUpdate.selects, IdentifierUpdate.apply, hr, hretained]
  · simp [settled, IdentifierUpdate.selects, hr]

omit h hp in
theorem settled_of_status {conflictId : String} {now : Date} {r : AuthIdentifier}
    (hr : r.status ≠ .conflict) : p.settled conflictId now r = r := by
  simp [settled, IdentifierUpdate.selects, hr]

/-- With all of its items in activated batches, the repair completes. -/
theorem Progress.finish {v' : Database} {conflictId : String} {now : Date} (hnone : preparing = none)
    (hall : ∀ x ∈ p.items, ∃ b ∈ p.batches v, b.status = .activated ∧ Belongs b x)
    (hcast : castObjectId "_id" p.manifest.conflictId = pure conflictId) (hindexed : v'.Indexed)
    (haccount : ∀ subject, accountOf v' subject = accountOf v subject)
    (hreservation : ∀ identifier, reservation v' identifier =
      (reservation v identifier).map (p.settled conflictId now))
    (hbatches : v'.batches = v.batches)
    (hparent : ∃ d, p.IsParent v' d ∧ d.requestedBy.subjectId = p.actorId ∧ d.status = .completed) :
    p.Progress preparing v' := by
  subst hnone
  have hsame : ∀ x ∈ p.items, reservation v' x.newIdentifier = reservation v x.newIdentifier := by
    intro x hx
    obtain ⟨b, hb, hactivated, hbelongs⟩ := hall x hx
    obtain ⟨r, -, heq⟩ := (h.through hp hb (by simp) hactivated hx hbelongs).2
    rw [hreservation, heq, Option.map_some, settled_of_status]
    simp [activation, IdentifiersUpdate.apply]
  have hdone : ∀ a, ∀ x ∈ p.items, p.Done v a x → p.Done v' a x := by
    intro a x hx hd
    refine ⟨?_, ?_, ?_⟩
    · rw [Moved, haccount]
      exact hd.moved
    · rw [Reserved, Activated, hsame x hx]
      exact hd.replaced
    · rw [hsame x hx]
      exact hd.target
  have hactivated : ∀ x ∈ p.items, p.Activated v x → p.Activated v' x := by
    intro x hx ha
    rw [Activated, hsame x hx]
    exact ha
  have hcompleted : p.Completed v' := by
    obtain ⟨d, hd, -, hstatus⟩ := hparent
    exact ⟨d, hd, hstatus⟩
  have hmem : p.batches v' = p.batches v := by rw [batches, batches, hbatches]
  refine ⟨⟨?_, ?_, ?_⟩, hindexed, fun hopen => absurd hcompleted hopen, fun _ => ⟨?_, ?_⟩, ?_, ?_, ?_⟩
  · intro x hx
    rw [Moved, haccount]
    exact h.accounts x hx
  · intro subject hsubject
    rw [haccount]
    exact h.bystanders subject hsubject
  · intro x hx
    rw [Reserved, Activated, hsame x hx]
    exact h.reservations x hx
  · rw [hmem]
    exact hall
  · by_cases hc : p.Completed v
    · -- the original has been settled before
      obtain ⟨conflictId', now', hcast', hsettled⟩ := (h.finished hc).settled
      rw [hcast] at hcast'
      cases hcast'
      refine ⟨conflictId, now', hcast, fun identifier hidentifier => ?_⟩
      rw [hreservation, hsettled identifier hidentifier, Option.map_map]
      congr 1
      exact funext fun r => settled_settled conflictId now' now r
    · refine ⟨conflictId, now, hcast, fun identifier hidentifier => ?_⟩
      rw [hreservation, h.untouched hc identifier hidentifier]
  · intro b hb hne
    rw [hmem] at hb
    exact Furthers.kept ⟨hdone, hactivated⟩ (h.kept b hb hne)
  · intro b hb
    rw [hmem] at hb
    exact h.cut b hb
  · obtain ⟨d, hd, hactor, hstatus⟩ := hparent
    exact ⟨d, hd, hactor, by simp [hstatus]⟩

variable {x : Reassignment} (hx : x ∈ p.items)

include hx

/-- The replacement of `x` has been reserved, once or once more. -/
theorem Progress.put_reservation {now : Date} {newId : String} (hopen : ¬ p.Completed v)
    (hw : schema.write (.upsertIdentifier (p.upsert x now newId)) v ≠ .duplicateKey) :
    Advance p preparing v (schema.wrote (.upsertIdentifier (p.upsert x now newId)) v) ∧
      p.Reserved (schema.wrote (.upsertIdentifier (p.upsert x now newId)) v) x ∧
      reservation (schema.wrote (.upsertIdentifier (p.upsert x now newId)) v) x.newIdentifier =
        some ((p.upsert x now newId).reserves (reservation v x.newIdentifier)) := by
  obtain ⟨hselects, -, hwrote, hids⟩ := wrote_upsert h.indexed hw
  have hindexed := wrote_indexed h.indexed (.upsertIdentifier (p.upsert x now newId))
  rw [hwrote] at hindexed ⊢
  replace hselects : ∀ d, reservation v x.newIdentifier = some d →
    (p.upsert x now newId).selects d = true := hselects
  have hreplaces : p.Replaces x
      ((p.upsert x now newId).reserves (reservation v x.newIdentifier)) := by
    rcases h.reservations x hx with heq | ⟨r, hr, heq⟩ | ⟨r, hr, heq⟩
    · rw [heq]
      exact ⟨now, newId, rfl⟩
    · rw [heq]
      exact hr.again now newId
    · -- an active one is not to be had
      have hsel := hselects _ heq
      simp [IdentifierUpsert.selects, upsert, activation, IdentifiersUpdate.apply] at hsel
  obtain ⟨r', hr'⟩ : ∃ r', r' = (p.upsert x now newId).reserves (reservation v x.newIdentifier) :=
    ⟨_, rfl⟩
  replace hids : ∀ r ∈ v.identifiers, r.id = r'.id → r.normalizedIdentifier = r'.normalizedIdentifier := by
    intro r hr hid
    rw [hr', hreplaces.normalizedIdentifier]
    exact hids r hr (hid.trans (congrArg _ hr'))
  rw [← hr'] at hreplaces
  show Advance p preparing v (v.put (.identifier ((p.upsert x now newId).reserves
    (reservation v x.newIdentifier)))) ∧ p.Reserved (v.put (.identifier
      ((p.upsert x now newId).reserves (reservation v x.newIdentifier)))) x ∧
    reservation (v.put (.identifier ((p.upsert x now newId).reserves
      (reservation v x.newIdentifier)))) x.newIdentifier =
        some ((p.upsert x now newId).reserves (reservation v x.newIdentifier))
  replace hindexed : (v.put (.identifier r')).Indexed := hr' ▸ hindexed
  rw [← hr']
  have hnow := reservation_put hids
  rw [hreplaces.normalizedIdentifier] at hnow
  have haccount := accountOf_put_identifier v r'
  have hreserved : p.Reserved (v.put (.identifier r')) x :=
    ⟨r', hreplaces, (hnow _).trans (if_pos rfl)⟩
  have hother : ∀ y ∈ p.items, y ≠ x →
      reservation (v.put (.identifier r')) y.newIdentifier = reservation v y.newIdentifier := by
    intro y hy hne
    exact (hnow _).trans (if_neg fun heq => hne (hp.eq_of_identifier hy hx heq.symm))
  refine ⟨h.update rfl rfl hindexed hopen ⟨?_, ?_, ?_⟩ ?_ ⟨?_, ?_⟩, hreserved,
    (hnow _).trans (if_pos rfl)⟩
  · intro y hy
    rw [Moved, haccount]
    exact h.accounts y hy
  · intro subject hsubject
    rw [haccount]
    exact h.bystanders subject hsubject
  · intro y hy
    by_cases hne : y = x
    · subst hne
      exact .inr (.inl hreserved)
    · rw [Reserved, Activated, hother y hy hne]
      exact h.reservations y hy
  · intro identifier hidentifier
    rw [hnow, if_neg fun heq => hidentifier (by rw [← heq]; exact mem_identifiers hx)]
  · intro a y hy hdone
    refine ⟨?_, ?_, ?_⟩
    · rw [Moved, haccount]
      exact hdone.moved
    · by_cases hyx : y = x
      · subst hyx
        exact .inl hreserved
      · rw [Reserved, Activated, hother y hy hyx]
        exact hdone.replaced
    · obtain ⟨r, hr, htarget⟩ := hdone.target
      by_cases hyx : y = x
      · subst hyx
        -- the reservation has kept its id
        refine ⟨r', (hnow _).trans (if_pos rfl), ?_⟩
        rw [htarget, hr', hr]
        rfl
      · exact ⟨r, (hother y hy hyx).trans hr, htarget⟩
  · intro y hy hactivated
    have hyx : y ≠ x := by
      rintro rfl
      obtain ⟨r, -, heq⟩ := hactivated
      have hsel := hselects _ heq
      simp [IdentifierUpsert.selects, upsert, activation, IdentifiersUpdate.apply] at hsel
    rw [Activated, hother y hy hyx]
    exact hactivated

/-- The account of `x` has been moved. -/
theorem Progress.put_account {d : Document} (hopen : ¬ p.Completed v)
    (hindexed : (v.put (reassigned x.newIdentifier d)).Indexed) (hd : accountOf v x.ref = some d) :
    Advance p preparing v (v.put (reassigned x.newIdentifier d)) ∧
      p.Moved (v.put (reassigned x.newIdentifier d)) x ∧
      ∀ identifier, reservation (v.put (reassigned x.newIdentifier d)) identifier =
        reservation v identifier := by
  obtain ⟨d', hd'⟩ : ∃ d', d' = reassigned x.newIdentifier d := ⟨_, rfl⟩
  have hkey : d'.key = accountKey x.ref.subjectType x.ref.subjectId := by
    rw [hd', reassigned_key]
    exact key_of_find hd
  rw [← hd'] at hindexed ⊢
  have haccount : ∀ subject, accountOf (v.put d') subject =
      if x.ref = subject then some d' else accountOf v subject := by
    intro subject
    rw [accountOf, find_put, hkey]
    by_cases heq : x.ref = subject
    · subst heq
      simp
    · rw [if_neg heq, if_neg]
      · rfl
      · rw [accountKey_inj]
        rintro ⟨htype, hid⟩
        exact heq (by cases hx : x.ref; cases subject; simp_all)
  have hrest : (∀ identifier, reservation (v.put d') identifier = reservation v identifier) ∧
      (v.put d').batches = v.batches ∧ (v.put d').operations = v.operations := by
    cases d' with
    | staffUser | member => exact ⟨fun _ => rfl, rfl, rfl⟩
    | _ => cases hs : x.ref.subjectType <;> simp [accountKey, Accounts.Document.key, hs] at hkey
  obtain ⟨hreservation, hbatches, hoperations⟩ := hrest
  have hmoved : p.Moved (v.put d') x := by
    rw [Moved, haccount, if_pos rfl, hd']
    rcases h.accounts x hx with heq | ⟨d₀, hd₀, heq⟩
    · exact ⟨d, heq.symm.trans hd, rfl⟩
    · rw [hd] at heq
      cases heq
      exact ⟨d₀, hd₀, congrArg some (reassigned_reassigned _ d₀)⟩
  have hother : ∀ y ∈ p.items, y ≠ x → accountOf (v.put d') y.ref = accountOf v y.ref := by
    intro y hy hne
    rw [haccount, if_neg fun heq => hne (hp.eq_of_subject hy hx heq.symm)]
  have hstays : ∀ y ∈ p.items, p.Moved v y → p.Moved (v.put d') y := by
    intro y hy hm
    by_cases hyx : y = x
    · subst hyx
      exact hmoved
    · rw [Moved, hother y hy hyx]
      exact hm
  refine ⟨h.update hbatches hoperations hindexed hopen ⟨?_, ?_, ?_⟩ ?_ ⟨?_, ?_⟩, hmoved,
    hreservation⟩
  · intro y hy
    by_cases hyx : y = x
    · subst hyx
      exact .inr hmoved
    · rw [Moved, hother y hy hyx]
      exact h.accounts y hy
  · intro subject hsubject
    rw [haccount, if_neg (hsubject x hx)]
    exact h.bystanders subject hsubject
  · intro y hy
    rw [Reserved, Activated, hreservation]
    exact h.reservations y hy
  · exact fun identifier _ => hreservation identifier
  · intro a y hy hdone
    refine ⟨hstays y hy hdone.moved, ?_, ?_⟩
    · rw [Reserved, Activated, hreservation]
      exact hdone.replaced
    · rw [hreservation]
      exact hdone.target
  · intro y hy hactivated
    rw [Activated, hreservation]
    exact hactivated

end Progress

end RepairPlan

end Operations
