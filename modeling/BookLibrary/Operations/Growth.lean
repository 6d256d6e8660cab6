import BookLibrary.Operations.System

/-!
# What writes leave as it was

Operations, reservations, batches and events keep what they are known by. How far an
operation comes is for an order on operations to say, which is a parameter here.
-/

namespace Operations

open AuthIdentifiers Documents Interleaving

/-- The later document is the earlier one, which has come on. -/
def Advances (le : AuthIdentifierOperation → AuthIdentifierOperation → Prop) (d d' : Document) :
    Prop :=
  d'.key = d.key ∧ match d, d' with
    | .operation d, .operation d' => d'.operationId = d.operationId ∧
        d'.operationType = d.operationType ∧ d'.manifestHash = d.manifestHash ∧ le d d'
    | .identifier d, .identifier d' => d'.normalizedIdentifier = d.normalizedIdentifier
    | .batch d, .batch d' =>
      d'.parentOperationId = d.parentOperationId ∧ d'.batchNumber = d.batchNumber
    | .event d, .event d' => d' = d
    | _, _ => True

section Order

variable {le : AuthIdentifierOperation → AuthIdentifierOperation → Prop}

theorem advances_refl (hrefl : ∀ d, le d d) (d : Document) : Advances le d d := by
  refine ⟨rfl, ?_⟩
  cases d with
  | operation d => exact ⟨rfl, rfl, rfl, hrefl d⟩
  | identifier d => rfl
  | batch d => exact ⟨rfl, rfl⟩
  | event d => rfl
  | _ => trivial

theorem advances_trans (htrans : ∀ d d' d'', le d d' → le d' d'' → le d d'') {d d' d'' : Document}
    (h : Advances le d d') (h' : Advances le d' d'') : Advances le d d'' := by
  refine ⟨h'.1.trans h.1, ?_⟩
  obtain ⟨hkey, h⟩ := h
  obtain ⟨hkey', h'⟩ := h'
  cases d <;> cases d' <;> first | trivial | cases hkey | skip
  all_goals cases d'' <;> first | trivial | cases hkey' | skip
  · exact Eq.trans h' h
  · exact ⟨h'.1.trans h.1, h'.2.1.trans h.2.1, h'.2.2.1.trans h.2.2.1, htrans _ _ _ h.2.2.2 h'.2.2.2⟩
  · exact ⟨h'.1.trans h.1, h'.2.trans h.2⟩
  · exact Eq.trans h' h

/-- What has come on from an operation is an operation. -/
theorem Advances.operation {d : AuthIdentifierOperation} {x : Document}
    (h : Advances le (.operation d) x) : ∃ d', x = .operation d' ∧ d'.id = d.id ∧
      d'.operationId = d.operationId ∧ d'.operationType = d.operationType ∧
      d'.manifestHash = d.manifestHash ∧ le d d' := by
  obtain ⟨hkey, h⟩ := h
  cases x with
  | operation d' => exact ⟨d', rfl, Accounts.Key.operation.inj hkey, h⟩
  | _ => cases hkey

theorem Advances.imp {R : AuthIdentifierOperation → AuthIdentifierOperation → Prop} {d d' : Document}
    (h : Advances le d d') (himp : ∀ a a', d = .operation a → le a a' → R a a') :
    Advances R d d' := by
  refine ⟨h.1, ?_⟩
  obtain ⟨hkey, h⟩ := h
  cases d <;> cases d' <;> first | trivial | cases hkey | skip
  exact ⟨h.1, h.2.1, h.2.2.1, himp _ _ rfl h.2.2.2⟩

theorem Advances.event {d : SecurityActivityEvent} {x : Document} (h : Advances le (.event d) x) :
    x = .event d := by
  obtain ⟨hkey, h⟩ := h
  cases x with
  | event d' => exact congrArg _ h
  | _ => cases hkey

end Order

/-- What a query shows is there. -/
theorem sighted {β : Type} {q : Query β} {v : Database} {b : β} (hv : schema.indexed v = true)
    (ha : schema.answers β q v b) :
    ∀ e ∈ seen β q b, ∀ d ∈ e.docs, schema.find (schema.key d) v = some d := by
  have hv' : v.Indexed := of_decide_eq_true hv
  intro e he d hd
  have one : ∀ {p : AuthIdentifier → Bool} {r : Option AuthIdentifier}, FindOne p v.identifiers r →
      d ∈ r.toList.map .identifier → schema.find (schema.key d) v = some d := by
    intro p r hr hd
    obtain ⟨x, hx, rfl⟩ := List.mem_map.mp hd
    obtain rfl := Option.mem_toList.mp hx
    exact find_identifier hv' hr.mem
  cases q with
  | inl q =>
    cases q with
    | findIdentifier identifier =>
      obtain rfl := List.mem_singleton.mp he
      exact one ha hd
    | _ => cases he
  | inr q =>
    cases q with
    | findOperation operationId =>
      obtain rfl := List.mem_singleton.mp he
      obtain ⟨x, hx, rfl⟩ := List.mem_map.mp hd
      obtain rfl := Option.mem_toList.mp hx
      have hfound : FindOne (fun d => decide (d.operationId = operationId)) v.operations
          (some x) := ha
      exact find_operation hv' hfound.mem
    | findReservation id =>
      obtain rfl := List.mem_singleton.mp he
      exact one ha hd
    | findPending operationId subjectType subjectId action =>
      obtain rfl := List.mem_singleton.mp he
      exact one ha hd
    | listPending operation limit =>
      obtain rfl := List.mem_singleton.mp he
      obtain ⟨x, hx, rfl⟩ := List.mem_map.mp hd
      obtain ⟨order, hperm, rfl⟩ := ha
      have hmem := hperm.subset ((List.take_sublist _ _).subset hx)
      exact find_identifier hv' (List.mem_filter.mp hmem).1
    | findBatch parentOperationId batchNumber =>
      obtain rfl := List.mem_singleton.mp he
      obtain ⟨x, hx, rfl⟩ := List.mem_map.mp hd
      obtain rfl := Option.mem_toList.mp hx
      have hfound : FindOne (fun d => decide (d.parentOperationId = parentOperationId) &&
          decide (d.batchNumber = batchNumber)) v.batches (some x) := ha
      exact find_batch hv' hfound.mem
    | listBatches parentOperationId =>
      obtain rfl := List.mem_singleton.mp he
      obtain ⟨x, hx, rfl⟩ := List.mem_map.mp hd
      exact find_batch hv' (FindSorted.mem ha hx).1
    | carriesIdentifier | anyGated =>
      obtain rfl := List.mem_singleton.mp he
      cases hd
    | _ => cases he

theorem ordered {le : AuthIdentifierOperation → AuthIdentifierOperation → Prop}
    (hrefl : ∀ d, le d d) (htrans : ∀ d d' d'', le d d' → le d' d'' → le d d'') :
    Sessions.Ordered schema seen (Advances le) Sighting.docs where
  refl := advances_refl hrefl
  trans := advances_trans htrans
  sighted := sighted

/-- What is written of accounts and sessions is no operation, reservation, batch or event. -/
def isAccount : Document → Bool
  | .staffUser _ => true
  | .member _ => true
  | .family _ => true
  | _ => false

theorem account_docs {w : Accounts.Write} {s : Database} (hw : (Write.account w).isAggregate = true)
    {d : Document} (hd : d ∈ (s.unchecked w).docs) : isAccount d = true := by
  cases w with
  | insertStaffUser | insertMember =>
    obtain ⟨rfl, -⟩ := mem_docs_insert hd
    rfl
  | saveStaffUser | saveMember =>
    obtain ⟨x, -, -, rfl⟩ := mem_docs_update hd
    rfl
  | bumpAuthVersion subjectType id =>
    cases subjectType <;>
    · obtain ⟨x, -, -, rfl⟩ := mem_docs_update hd
      rfl
  | setAccountIdentifier subjectType id identifier =>
    cases subjectType <;>
    · obtain ⟨x, -, -, rfl⟩ := mem_docs_update hd
      rfl
  | revokeFamilies subjectType subjectId reason revokedAt =>
    obtain ⟨x, -, rfl⟩ := List.mem_map.mp hd
    rfl
  | _ => cases hw

theorem advances_of_account {le : AuthIdentifierOperation → AuthIdentifierOperation → Prop}
    {x d : Document} (hd : isAccount d = true) (hkey : x.key = d.key) : Advances le x d := by
  refine ⟨hkey.symm, ?_⟩
  cases d <;> try cases hd
  all_goals cases x <;> trivial

section Writes

variable {le : AuthIdentifierOperation → AuthIdentifierOperation → Prop} {env : Environment}
  {inputs : OperationInput → Prop} {l : List Event} {session : Option ℕ} {w : Write} {v : Database}

/-- A write that is warranted lets documents come on, if it lets operations. -/
theorem advances_of_warranted (hw : Warranted env inputs l session w) (hv : v.Indexed)
    (hop : ∀ u d, w = .updateOperation u → d ∈ v.operations → u.selects d = true → le d (u.apply d))
    {d x : Document} (hd : d ∈ (schema.write w v).docs)
    (hx : Accounts.Database.find d.key v = some x) : Advances le x d := by
  have hwritten := written_of_mem hv hd
  rw [hx] at hwritten
  generalize hy : some x = y at hwritten
  have hkey := key_of_find hx
  cases hwritten with
  | account hd =>
    cases hw with
    | aggregate hw => exact advances_of_account (account_docs hw hd) hkey
  | insertOperation => cases hy
  | updateOperation hmem hu =>
    cases hy
    exact ⟨by simp [Accounts.Document.key], by simp, by simp, by simp, hop _ _ rfl hmem hu⟩
  | createIdentifier hu => cases hy
  | upsertIdentifier hd hu =>
    cases hy
    simp only [IdentifierUpsert.selects, Bool.and_eq_true, decide_eq_true_eq] at hu
    exact ⟨rfl, hu.1.symm⟩
  | updateIdentifier hd hu =>
    cases hy
    exact ⟨by simp [Accounts.Document.key], by simp⟩
  | updateIdentifiers hd hu =>
    cases hy
    exact ⟨by simp [Accounts.Document.key], by simp⟩
  | insertBatch => cases hy
  | @updateBatch u d hd hu =>
    cases hy
    cases u <;> exact ⟨rfl, rfl, rfl⟩
  | expireBatch hd hids =>
    cases hy
    exact ⟨rfl, rfl, rfl⟩
  | recordEvent he => cases hy

theorem grows_of_warranted (hrefl : ∀ d, le d d) (hw : Warranted env inputs l session w)
    (hv : schema.indexed v = true)
    (hop : ∀ u d, w = .updateOperation u → d ∈ v.operations → u.selects d = true → le d (u.apply d)) :
    Sessions.Grows schema (Advances le) v (schema.putAll (schema.write w v).docs v) :=
  .write schema_lawful (advances_refl hrefl)
    (fun _ hd _ hx => advances_of_warranted hw (of_decide_eq_true hv) hop hd hx) hv

/-- An operation is there, is new, or has been updated. -/
theorem operation_of_warranted (hw : Warranted env inputs l session w)
    (hv : schema.indexed v = true) {d : AuthIdentifierOperation}
    (hd : d ∈ (schema.putAll (schema.write w v).docs v).operations) :
    d ∈ v.operations ∨ w = .insertOperation d ∨
      ∃ u x, w = .updateOperation u ∧ x ∈ v.operations ∧ u.selects x = true ∧ d = u.apply x := by
  have hindexed : (schema.putAll (schema.write w v).docs v).Indexed :=
    of_decide_eq_true (schema_lawful.indexed_write w v hv)
  rcases written_or_found hv (find_operation hindexed hd) with hwritten | hold
  · refine .inr ?_
    generalize Accounts.Database.find (Accounts.Document.operation d).key v = x at hwritten
    cases hwritten with
    | account hdocs =>
      cases hw with
      | aggregate hw => cases account_docs hw hdocs
    | insertOperation => exact .inl rfl
    | updateOperation hx hu => exact .inr ⟨_, _, rfl, hx, hu, rfl⟩
  · exact .inl (operation_of_find (k := .operation d.id) hold).1

/-- An event is there, or has been recorded. -/
theorem event_of_warranted (hw : Warranted env inputs l session w) (hv : schema.indexed v = true)
    {e : SecurityActivityEvent} (he : e ∈ (schema.putAll (schema.write w v).docs v).activity) :
    e ∈ v.activity ∨ ∃ e', w = .recordEvent e' ∧ e.eventId = e'.eventId := by
  have hindexed : (schema.putAll (schema.write w v).docs v).Indexed :=
    of_decide_eq_true (schema_lawful.indexed_write w v hv)
  rcases written_or_found hv (find_event hindexed he) with hwritten | hold
  · generalize Accounts.Database.find (Accounts.Document.event e).key v = x at hwritten
    cases hwritten with
    | account hdocs =>
      cases hw with
      | aggregate hw => cases account_docs hw hdocs
    | recordEvent he' => exact .inr ⟨_, rfl, rfl⟩
  · exact .inl (event_of_find (k := .event e.id) hold).1

end Writes

section Runs

variable {A ι : Type} [DecidableEq ι] {env : Environment}
  {le : AuthIdentifierOperation → AuthIdentifierOperation → Prop} {s s' : Store}
  {J : List (Entry ι (Call A) Event)} {i : ι} {call : Call A} {β : Type} {op : Op β} {x : Option β}

/-- Documents have come on since they were seen, and what an open transaction has created is
not to be seen by the others. -/
structure Kept (le : AuthIdentifierOperation → AuthIdentifierOperation → Prop) (s : Store)
    (J : List (Entry ι (Call A) Event)) : Prop where
  grown : Sessions.Grown schema (Advances le) Sighting.docs s J
  hidden : ∀ e ∈ J, ∀ n d, e.event = .wrote (some n) (.insertOperation d) (.written [.operation d]) →
    ∀ t, s.transactions n = some t → Accounts.Database.find (.operation d.id) t.snapshot = none

omit [DecidableEq ι] in
theorem Kept.init (s : Database) : Kept le (.init s) ([] : List (Entry ι (Call A) Event)) where
  grown := .init s
  hidden e he := by cases he

/-- What is created is not in the snapshot, since it is not in the view. -/
theorem absent_of_inserted {d : AuthIdentifierOperation} {t : Sessions.Transaction Database Document}
    (hgrows : Sessions.Grows schema (Advances le) t.snapshot (schema.putAll t.buffer t.snapshot))
    (hw : schema.write (.insertOperation d) (schema.putAll t.buffer t.snapshot) =
      .written [.operation d]) : Accounts.Database.find (.operation d.id) t.snapshot = none := by
  have hunchecked := write_of_docs (by rw [hw]; exact List.cons_ne_nil _ _)
  have hmem : Accounts.Document.operation d ∈
      (Database.unchecked (schema.putAll t.buffer t.snapshot) (.insertOperation d)).docs := by
    rw [← hunchecked, hw]
    exact List.mem_singleton_self _
  have hnone := (mem_docs_insert hmem).2
  cases hfind : Accounts.Database.find (.operation d.id) t.snapshot with
  | none => rfl
  | some x =>
    obtain ⟨x', hx', -⟩ := hgrows (.operation d.id) x hfind
    exact absurd (hx'.symm.trans hnone) (Option.some_ne_none _)

theorem Kept.step (h : Kept le s J) (hJ : Journaled env s J) (hrefl : ∀ d, le d d)
    (htrans : ∀ d d' d'', le d d' → le d' d'' → le d d'')
    (hlegal : Legal env call.inputs (own i J) op)
    (heff : Sessions.Effect schema seen s op x (op.note seen β x) s')
    (hop : ∀ session u v d, x.isSome = true → op.writes = some (session, .updateOperation u) →
      schema.view s session = some v → d ∈ v.operations → u.selects d = true → le d (u.apply d)) :
    Kept le s' (record i call (op.note seen β x) ++ J) where
  grown := by
    refine h.grown.step schema_lawful (ordered hrefl htrans) hJ.ledger heff fun session w v hx hw hv => ?_
    refine grows_of_warranted hrefl (hlegal.warranted _ _ hw) (hJ.ledger.view_indexed hv) ?_
    rintro u d rfl hd hu
    exact hop session u v d hx hw hv hd hu
  hidden := by
    -- a transaction that is open was open, with that snapshot, or is new
    have old : ∀ e ∈ J, ∀ n d,
        e.event = .wrote (some n) (.insertOperation d) (.written [.operation d]) →
        ∀ t t' : Sessions.Transaction Database Document, s.transactions n = some t →
        t'.snapshot = t.snapshot → Accounts.Database.find (.operation d.id) t'.snapshot = none := by
      intro e he n d hev t t' ht hsnap
      rw [hsnap]
      exact h.hidden e he n d hev t ht
    have closing : ∀ m, ∀ e ∈ J, ∀ n d,
        e.event = .wrote (some n) (.insertOperation d) (.written [.operation d]) →
        ∀ t, Function.update s.transactions m none n = some t →
        Accounts.Database.find (.operation d.id) t.snapshot = none := by
      intro m e he n d hev t ht
      rcases Sessions.update_cases ht with ⟨-, hnone⟩ | ⟨-, hold⟩
      · cases hnone
      · exact old e he n d hev t t hold rfl
    generalize op.note seen β x = evs at heff
    intro e he n d hev t ht
    rcases List.mem_append.mp he with hnew | hold
    · have hmem := (mem_record.mp hnew).2.2
      rw [hev] at hmem
      cases heff with
      | found hview hanswers =>
        obtain ⟨_, -, heq⟩ := List.mem_map.mp hmem
        cases heq
      | @wroteIn m t₀ w present =>
        obtain ⟨hn, rfl, hr⟩ := Sessions.Event.wrote.inj (List.mem_singleton.mp hmem)
        cases hn
        rcases Sessions.update_cases ht with ⟨-, heq⟩ | ⟨hne, -⟩
        · cases heq
          have habsent : Accounts.Database.find (.operation d.id) t₀.snapshot = none :=
            absent_of_inserted (h.grown.view n t₀ present) hr.symm
          exact habsent
        · exact absurd rfl hne
      | wrote w => cases List.mem_singleton.mp hmem
      | began => cases List.mem_singleton.mp hmem
      | committed => cases List.mem_singleton.mp hmem
      | _ => cases hmem
    · cases heff with
      | lost | found | drew | wrote => exact old e hold n d hev t t ht rfl
      | @wroteIn m t₀ w present =>
        rcases Sessions.update_cases ht with ⟨rfl, heq⟩ | ⟨-, hsame⟩
        · cases heq
          exact old e hold n d hev t₀ _ present rfl
        · exact old e hold n d hev t t hsame rfl
      | began =>
        rcases Sessions.update_cases ht with ⟨rfl, -⟩ | ⟨-, hsame⟩
        · refine absurd (hJ.ledger.session_lt e hold s.started ?_) (lt_irrefl _)
          rw [hev]
          rfl
        · exact old e hold n d hev t t hsame rfl
      | committed => exact closing _ e hold n d hev t ht
      | aborted m => exact closing m e hold n d hev t ht

/-- An operation that has been seen is there, and has come on. -/
theorem Kept.shown_operation (h : Kept le s J) {session : Option ℕ} {v : Database}
    (hv : schema.view s session = some v) {d : AuthIdentifierOperation}
    (hd : Shown (own i J) session (.operation d)) : ∃ d' ∈ v.operations, d'.id = d.id ∧
      d'.operationId = d.operationId ∧ d'.manifestHash = d.manifestHash ∧ le d d' := by
  obtain ⟨ev, hev, hshows⟩ := hd
  obtain ⟨call, he⟩ := mem_own.mp hev
  obtain ⟨y, hy, hle⟩ := h.grown.shown _ he session (.operation d) v hshows hv
  obtain ⟨d', rfl, hid, hoperation, -, hhash, hle'⟩ := hle.operation
  exact ⟨d', (operation_of_find (k := .operation d.id) hy).1, hid, hoperation, hhash, hle'⟩

/-- It is the one operation of its operation id. -/
theorem Kept.shown_unique (h : Kept le s J) (hJ : Journaled env s J) {session : Option ℕ}
    {v : Database} (hv : schema.view s session = some v) {d d' : AuthIdentifierOperation}
    (hd : Shown (own i J) session (.operation d)) (hd' : d' ∈ v.operations)
    (hid : d'.operationId = d.operationId) : d'.manifestHash = d.manifestHash ∧ le d d' := by
  obtain ⟨x, hx, -, hoperation, hhash, hle⟩ := h.shown_operation hv hd
  have hindexed : v.Indexed := of_decide_eq_true (hJ.ledger.view_indexed hv)
  obtain rfl : x = d' := eq_of_key hindexed.operationId hx hd' (hoperation.trans hid.symm)
  exact ⟨hhash, hle⟩

theorem Inserted.shown {l : List Event} {n : ℕ} {operationId : String}
    (h : Inserted l n operationId) : ∃ d, d.operationId = operationId ∧ d.manifestHash = none ∧
      Shown l (some n) (.operation d) := by
  obtain ⟨d, hid, hhash, hwrote⟩ := h
  exact ⟨d, hid, hhash, _, hwrote, rfl, List.mem_singleton_self _⟩

/-- What a transaction has created is not in its snapshot. -/
theorem Kept.absent (h : Kept le s J) (hJ : Journaled env s J) {n : ℕ}
    {t : Sessions.Transaction Database Document} (ht : s.transactions n = some t)
    {d : AuthIdentifierOperation} (hd : d ∈ (schema.putAll t.buffer t.snapshot).operations)
    (hinserted : Inserted (own i J) n d.operationId) :
    Accounts.Database.find (.operation d.id) t.snapshot = none := by
  obtain ⟨d₀, hid, -, hwrote⟩ := hinserted
  obtain ⟨call, he⟩ := mem_own.mp hwrote
  have hview : schema.view s (some n) = some (schema.putAll t.buffer t.snapshot) := by
    rw [Sessions.Schema.view, ht]
    rfl
  obtain ⟨y, hy, hle⟩ := h.grown.shown _ he (some n) (.operation d₀) _
    ⟨rfl, List.mem_singleton_self _⟩ hview
  obtain ⟨d₁, rfl, hkey, hid₁, -⟩ := hle.operation
  have hmem : d₁ ∈ (schema.putAll t.buffer t.snapshot).operations :=
    (operation_of_find (k := .operation d₀.id) hy).1
  have hindexed : (schema.putAll t.buffer t.snapshot).Indexed :=
    of_decide_eq_true (hJ.ledger.views n t ht)
  have hsame : d₁ = d :=
    eq_of_key hindexed.operationId hmem hd (hid₁.trans hid)
  rw [← hsame, hkey]
  exact h.hidden _ he n d₀ rfl t ht

/-- The views have come on from their snapshots, if what is not created within them does. -/
theorem Kept.viewed_step {R : AuthIdentifierOperation → AuthIdentifierOperation → Prop}
    (h : Kept le s J) (hJ : Journaled env s J)
    (hviewed : Sessions.Viewed schema (fun _ => Sessions.Grows schema (Advances R)) s)
    (hrefl : ∀ d, R d d) (htrans : ∀ d d' d'', R d d' → R d' d'' → R d d'')
    (hlegal : Legal env call.inputs (own i J) op)
    (heff : Sessions.Effect schema seen s op x (op.note seen β x) s')
    (hop : ∀ n u v d, x.isSome = true → op.writes = some (some n, .updateOperation u) →
      schema.view s (some n) = some v → d ∈ v.operations → u.selects d = true →
      R d (u.apply d) ∨ Inserted (own i J) n d.operationId) :
    Sessions.Viewed schema (fun _ => Sessions.Grows schema (Advances R)) s' := by
  refine hviewed.step heff (fun _ k d hd => ⟨d, hd, advances_refl hrefl d⟩) (fun _ _ _ hR => hR) ?_
  intro n w t hx hw ht hR k d hd
  have hview : schema.view s (some n) = some (schema.putAll t.buffer t.snapshot) := by
    rw [Sessions.Schema.view, ht]
    rfl
  -- what is created within the transaction is exempt
  let le d d' := R d d' ∨ Accounts.Database.find (.operation d.id) t.snapshot = none
  have hle : ∀ d, le d d := fun d => .inl (hrefl d)
  have hgrows := grows_of_warranted hle (hlegal.warranted _ _ hw) (hJ.ledger.view_indexed hview) (by
    rintro u d₁ rfl hd₁ hu
    exact (hop n u _ d₁ hx hw hview hd₁ hu).imp_right fun hinserted => h.absent hJ ht hd₁ hinserted)
  obtain ⟨d₁, hd₁, hle₁⟩ := hR k d hd
  obtain ⟨d₂, hd₂, hle₂⟩ := hgrows k d₁ hd₁
  refine ⟨d₂, hd₂, advances_trans htrans hle₁ (hle₂.imp fun a a' ha hle => hle.resolve_right ?_)⟩
  have hk : k = .operation a.id := by
    rw [← key_of_find hd₁, ha]
    rfl
  rw [← hk, show Accounts.Database.find k t.snapshot = some d from hd]
  exact Option.some_ne_none d

end Runs

end Operations
