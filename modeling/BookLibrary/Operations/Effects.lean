import BookLibrary.Operations.Service
import BookLibrary.Transactions.Growth

/-!
# What the writes do to operations, reservations and events

Every document that a write leaves, with the document that it stands in for.
-/

namespace Operations

open AuthIdentifiers Documents Interleaving

open Accounts (Key)

theorem mem_of_find {p : α → Bool} {docs : List α} {d : α} (h : docs.find? p = some d) :
    d ∈ docs ∧ p d = true := ⟨List.mem_of_find?_eq_some h, List.find?_some h⟩

/-- With an index on the key, a document is found by its key. -/
theorem find_of_mem {D κ : Type} [DecidableEq κ] {key : D → κ} {docs : List D}
    (h : (docs.map key).Nodup) {d : D} (hd : d ∈ docs) :
    docs.find? (fun x => decide (key x = key d)) = some d := by
  have hfind : FindOne (fun x => decide (key x = key d)) docs (some d) := ⟨hd, by simp⟩
  exact hfind.eq_find? h

theorem eq_of_key {D κ : Type} {key : D → κ} {docs : List D} (h : (docs.map key).Nodup) {d d' : D}
    (hd : d ∈ docs) (hd' : d' ∈ docs) (hkey : key d = key d') : d = d' :=
  List.inj_on_of_nodup_map h hd hd' hkey

section Adjust

variable {assignmentId : String}
  {f : AuthIdentifierOperationAssignment → AuthIdentifierOperationAssignment}
  {assignments : List AuthIdentifierOperationAssignment}

theorem adjust_map {γ : Type} {g : AuthIdentifierOperationAssignment → γ} (hg : ∀ a, g (f a) = g a)
    (assignments : List AuthIdentifierOperationAssignment) :
    (adjust assignmentId f assignments).map g = assignments.map g := by
  induction assignments with
  | nil => rfl
  | cons a assignments ih =>
    rw [adjust]
    split
    · rw [List.map_cons, List.map_cons, hg]
    · rw [List.map_cons, List.map_cons, ih]

/-- Where the ids are all different, only the assignment of the id is changed. -/
theorem mem_adjust (h : (assignments.map (·.assignmentId)).Nodup)
    {a : AuthIdentifierOperationAssignment} (ha : a ∈ adjust assignmentId f assignments) :
    (∃ a₀ ∈ assignments, a₀.assignmentId = assignmentId ∧ a = f a₀) ∨
      a ∈ assignments ∧ a.assignmentId ≠ assignmentId := by
  induction assignments with
  | nil => cases ha
  | cons x xs ih =>
    rw [List.map_cons, List.nodup_cons] at h
    rw [adjust] at ha
    split at ha
    · next hx =>
      rcases List.mem_cons.mp ha with rfl | ha
      · exact .inl ⟨x, List.mem_cons_self, hx, rfl⟩
      · refine .inr ⟨List.mem_cons_of_mem _ ha, fun heq => h.1 ?_⟩
        rw [hx, ← heq]
        exact List.mem_map_of_mem ha
    · next hx =>
      rcases List.mem_cons.mp ha with rfl | ha
      · exact .inr ⟨List.mem_cons_self, hx⟩
      · rcases ih h.2 ha with ⟨a₀, ha₀, hid, heq⟩ | ⟨ha, hne⟩
        · exact .inl ⟨a₀, List.mem_cons_of_mem _ ha₀, hid, heq⟩
        · exact .inr ⟨List.mem_cons_of_mem _ ha, hne⟩

end Adjust

section Updates

@[simp] theorem OperationUpdate.apply_id (u : OperationUpdate) (d : AuthIdentifierOperation) :
    (u.apply d).id = d.id := by cases u <;> rfl

@[simp] theorem OperationUpdate.apply_operationId (u : OperationUpdate)
    (d : AuthIdentifierOperation) : (u.apply d).operationId = d.operationId := by cases u <;> rfl

@[simp] theorem OperationUpdate.apply_operationType (u : OperationUpdate)
    (d : AuthIdentifierOperation) : (u.apply d).operationType = d.operationType := by
  cases u <;> rfl

@[simp] theorem OperationUpdate.apply_manifestHash (u : OperationUpdate)
    (d : AuthIdentifierOperation) : (u.apply d).manifestHash = d.manifestHash := by
  cases u <;> rfl

@[simp] theorem IdentifierUpdate.apply_id (u : IdentifierUpdate) (d : AuthIdentifier) :
    (u.apply d).id = d.id := by
  cases u with
  | resolveOriginal _ _ retained => cases retained <;> rfl
  | _ => rfl

@[simp] theorem IdentifierUpdate.apply_normalizedIdentifier (u : IdentifierUpdate)
    (d : AuthIdentifier) : (u.apply d).normalizedIdentifier = d.normalizedIdentifier := by
  cases u with
  | resolveOriginal _ _ retained => cases retained <;> rfl
  | _ => rfl

@[simp] theorem IdentifiersUpdate.apply_id (u : IdentifiersUpdate) (d : AuthIdentifier) :
    (u.apply d).id = d.id := by cases u <;> rfl

@[simp] theorem IdentifiersUpdate.apply_normalizedIdentifier (u : IdentifiersUpdate)
    (d : AuthIdentifier) : (u.apply d).normalizedIdentifier = d.normalizedIdentifier := by
  cases u <;> rfl

@[simp] theorem IdentifierUpsert.apply_id (u : IdentifierUpsert) (d : AuthIdentifier) :
    (u.apply d).id = d.id := rfl

@[simp] theorem BatchUpdate.apply_id (u : BatchUpdate) (d : AuthIdentifierRepairBatch) :
    (u.apply d).id = d.id := by cases u <;> rfl

end Updates

section Collections

variable {s : Database}

theorem key_of_find {k : Key} {s : Database} {d : Document}
    (h : Accounts.Database.find k s = some d) : d.key = k := by
  cases k <;>
  · obtain ⟨x, hx, rfl⟩ := Option.map_eq_some_iff.mp h
    have hid := List.find?_some hx
    simp only [decide_eq_true_eq] at hid
    rw [← hid]
    rfl

theorem operation_of_find {k : Key} {d : AuthIdentifierOperation}
    (h : Accounts.Database.find k s = some (.operation d)) : d ∈ s.operations ∧ k = .operation d.id := by
  cases k with
  | operation id =>
    obtain ⟨d', hd', heq⟩ := Option.map_eq_some_iff.mp h
    cases heq
    obtain ⟨hmem, hid⟩ := mem_of_find hd'
    exact ⟨hmem, by rw [of_decide_eq_true hid]⟩
  | _ =>
    obtain ⟨_, _, heq⟩ := Option.map_eq_some_iff.mp h
    cases heq

theorem identifier_of_find {k : Key} {d : AuthIdentifier}
    (h : Accounts.Database.find k s = some (.identifier d)) :
    d ∈ s.identifiers ∧ k = .identifier d.id := by
  cases k with
  | identifier id =>
    obtain ⟨d', hd', heq⟩ := Option.map_eq_some_iff.mp h
    cases heq
    obtain ⟨hmem, hid⟩ := mem_of_find hd'
    exact ⟨hmem, by rw [of_decide_eq_true hid]⟩
  | _ =>
    obtain ⟨_, _, heq⟩ := Option.map_eq_some_iff.mp h
    cases heq

theorem batch_of_find {k : Key} {d : AuthIdentifierRepairBatch}
    (h : Accounts.Database.find k s = some (.batch d)) : d ∈ s.batches ∧ k = .batch d.id := by
  cases k with
  | batch id =>
    obtain ⟨d', hd', heq⟩ := Option.map_eq_some_iff.mp h
    cases heq
    obtain ⟨hmem, hid⟩ := mem_of_find hd'
    exact ⟨hmem, by rw [of_decide_eq_true hid]⟩
  | _ =>
    obtain ⟨_, _, heq⟩ := Option.map_eq_some_iff.mp h
    cases heq

theorem event_of_find {k : Key} {d : SecurityActivityEvent}
    (h : Accounts.Database.find k s = some (.event d)) : d ∈ s.activity ∧ k = .event d.id := by
  cases k with
  | event id =>
    obtain ⟨d', hd', heq⟩ := Option.map_eq_some_iff.mp h
    cases heq
    obtain ⟨hmem, hid⟩ := mem_of_find hd'
    exact ⟨hmem, by rw [of_decide_eq_true hid]⟩
  | _ =>
    obtain ⟨_, _, heq⟩ := Option.map_eq_some_iff.mp h
    cases heq

variable (h : s.Indexed)

include h

theorem find_operation {d : AuthIdentifierOperation} (hd : d ∈ s.operations) :
    Accounts.Database.find (.operation d.id) s = some (.operation d) := by
  rw [Accounts.Database.find, find_of_mem h.operations hd]
  rfl

theorem find_identifier {d : AuthIdentifier} (hd : d ∈ s.identifiers) :
    Accounts.Database.find (.identifier d.id) s = some (.identifier d) := by
  rw [Accounts.Database.find, find_of_mem h.identifiers hd]
  rfl

theorem find_batch {d : AuthIdentifierRepairBatch} (hd : d ∈ s.batches) :
    Accounts.Database.find (.batch d.id) s = some (.batch d) := by
  rw [Accounts.Database.find, find_of_mem h.batches hd]
  rfl

theorem find_event {d : SecurityActivityEvent} (hd : d ∈ s.activity) :
    Accounts.Database.find (.event d.id) s = some (.event d) := by
  rw [Accounts.Database.find, find_of_mem h.activity hd]
  rfl

end Collections

theorem find_put (k : Key) (d : Document) (s : Database) :
    Accounts.Database.find k (Accounts.Database.put d s) =
      if d.key = k then some d else Accounts.Database.find k s := by
  have same : ∀ {D : Type} {wrap : D → Document} {mk : String → Key} {key : D → String} {docs : List D}
      (x : D) (id : String), (∀ id id', mk id = mk id' ↔ id = id') → (wrap x).key = mk (key x) →
      ((replaceOne key x docs).find? fun y => decide (key y = id)).map wrap =
        if (wrap x).key = mk id then some (wrap x)
        else (docs.find? fun y => decide (key y = id)).map wrap := by
    intro D wrap mk key docs x id hmk hkey
    rw [find?_replaceOne, hkey]
    by_cases hid : key x = id
    · rw [if_pos hid, if_pos (congrArg mk hid)]
      rfl
    · rw [if_neg hid, if_neg (fun heq => hid ((hmk _ _).mp heq))]
  cases d <;> cases k <;>
    first
      | exact same _ _ (by simp) rfl
      | exact (if_neg (by simp [Accounts.Document.key])).symm

/-- A document that a write leaves, with the document that it stands in for. -/
inductive Written (s : Database) : Write → Option Document → Document → Prop where
  | account {w : Accounts.Write} {x : Option Document} {d : Document}
      (hd : d ∈ (s.unchecked w).docs) : Written s (.account w) x d
  | insertOperation {d : AuthIdentifierOperation} :
      Written s (.insertOperation d) none (.operation d)
  | updateOperation {u : OperationUpdate} {d : AuthIdentifierOperation} (hd : d ∈ s.operations)
      (hu : u.selects d = true) :
      Written s (.updateOperation u) (some (.operation d)) (.operation (u.apply d))
  | createIdentifier {u : IdentifierUpsert} (hu : ∀ d ∈ s.identifiers, u.selects d = false) :
      Written s (.upsertIdentifier u) none (.identifier u.created)
  | upsertIdentifier {u : IdentifierUpsert} {d : AuthIdentifier} (hd : d ∈ s.identifiers)
      (hu : u.selects d = true) :
      Written s (.upsertIdentifier u) (some (.identifier d)) (.identifier (u.apply d))
  | updateIdentifier {u : IdentifierUpdate} {d : AuthIdentifier} (hd : d ∈ s.identifiers)
      (hu : u.selects d = true) :
      Written s (.updateIdentifier u) (some (.identifier d)) (.identifier (u.apply d))
  | updateIdentifiers {u : IdentifiersUpdate} {d : AuthIdentifier} (hd : d ∈ s.identifiers)
      (hu : u.selects d = true) :
      Written s (.updateIdentifiers u) (some (.identifier d)) (.identifier (u.apply d))
  | insertBatch {d : AuthIdentifierRepairBatch} : Written s (.insertBatch d) none (.batch d)
  | updateBatch {u : BatchUpdate} {d : AuthIdentifierRepairBatch} (hd : d ∈ s.batches)
      (hu : u.selects d = true) :
      Written s (.updateBatch u) (some (.batch d)) (.batch (u.apply d))
  | expireBatch {ids : List String} {now : Date} {d : AuthIdentifierRepairBatch}
      (hd : d ∈ s.batches) (hids : d.id ∈ ids) :
      Written s (.expireBatches ids now) (some (.batch d)) (.batch { d with expiresAt := some now })
  | recordEvent {e : SecurityActivityEvent} {id : String}
      (he : ∀ d ∈ s.activity, d.eventId ≠ e.eventId) :
      Written s (.recordEvent e) none (.event { e with id := id })

theorem docs_write (w : Write) (s : Database) :
    (schema.write w s).docs = [] ∨ (schema.write w s).docs = (Database.unchecked s w).docs := by
  by_cases h : ((Database.unchecked s w).docs.foldr Accounts.Database.put s).Indexed
  · exact .inr (congrArg _ (if_pos h))
  · exact .inl (congrArg _ (if_neg h))

theorem mem_docs_update {D : Type} {wrap : D → Document} {p : D → Bool} {f : D → D} {docs : List D}
    {d : Document} (h : d ∈ (Accounts.Database.update wrap p f docs).docs) :
    ∃ x ∈ docs, p x = true ∧ d = wrap (f x) := by
  rw [Accounts.Database.update] at h
  cases hx : docs.find? p with
  | none =>
    rw [hx] at h
    cases h
  | some x =>
    rw [hx] at h
    obtain ⟨hmem, hp⟩ := mem_of_find hx
    exact ⟨x, hmem, hp, List.mem_singleton.mp h⟩

theorem mem_docs_insert {s : Database} {d x : Document} (h : d ∈ (s.insert x).docs) :
    d = x ∧ Accounts.Database.find x.key s = none := by
  rw [Accounts.Database.insert] at h
  by_cases hx : (s.find x.key).isSome = true
  · rw [if_pos hx] at h
    cases h
  · rw [if_neg hx] at h
    exact ⟨List.mem_singleton.mp h, by simpa using hx⟩

theorem written_of_mem {s : Database} (h : s.Indexed) {w : Write} {d : Document}
    (hd : d ∈ (schema.write w s).docs) : Written s w (Accounts.Database.find d.key s) d := by
  replace hd : d ∈ (Database.unchecked s w).docs := by
    rcases docs_write w s with hnone | hall
    · rw [hnone] at hd
      cases hd
    · exact hall ▸ hd
  cases w with
  | account w => exact .account hd
  | insertOperation x =>
    obtain ⟨rfl, hnone⟩ := mem_docs_insert hd
    rw [hnone]
    exact .insertOperation
  | updateOperation u =>
    obtain ⟨x, hx, hu, rfl⟩ := mem_docs_update hd
    rw [Accounts.Document.key, OperationUpdate.apply_id, find_operation h hx]
    exact .updateOperation hx hu
  | upsertIdentifier u =>
    simp only [Database.unchecked] at hd
    split at hd
    · next x hfind =>
      obtain ⟨hx, hu⟩ := mem_of_find hfind
      rw [List.mem_singleton.mp hd, Accounts.Document.key, IdentifierUpsert.apply_id,
        find_identifier h hx]
      exact .upsertIdentifier hx hu
    · next hfind =>
      obtain ⟨rfl, hnone⟩ := mem_docs_insert hd
      rw [hnone]
      exact .createIdentifier fun x hx => by simpa using List.find?_eq_none.mp hfind x hx
  | updateIdentifier u =>
    obtain ⟨x, hx, hu, rfl⟩ := mem_docs_update hd
    rw [Accounts.Document.key, IdentifierUpdate.apply_id, find_identifier h hx]
    exact .updateIdentifier hx hu
  | updateIdentifiers u =>
    obtain ⟨x, hx, rfl⟩ := List.mem_map.mp hd
    rw [Accounts.Document.key, IdentifiersUpdate.apply_id,
      find_identifier h (List.mem_filter.mp hx).1]
    exact .updateIdentifiers (List.mem_filter.mp hx).1 (List.mem_filter.mp hx).2
  | insertBatch x =>
    obtain ⟨rfl, hnone⟩ := mem_docs_insert hd
    rw [hnone]
    exact .insertBatch
  | updateBatch u =>
    obtain ⟨x, hx, hu, rfl⟩ := mem_docs_update hd
    rw [Accounts.Document.key, BatchUpdate.apply_id, find_batch h hx]
    exact .updateBatch hx hu
  | expireBatches ids now =>
    obtain ⟨x, hx, rfl⟩ := List.mem_map.mp hd
    obtain ⟨hx, hids⟩ := List.mem_filter.mp hx
    show Written s _ (Accounts.Database.find (.batch x.id) s) _
    rw [find_batch h hx]
    exact .expireBatch hx (of_decide_eq_true hids)
  | recordEvent e =>
    simp only [Database.unchecked] at hd
    split at hd
    · cases hd
    · next hany =>
      have hfresh : Accounts.Database.find (.event (freshId (s.activity.map (·.id)))) s = none := by
        rw [Accounts.Database.find, Option.map_eq_none_iff, List.find?_eq_none]
        intro x hx hid
        have hmem : x.id ∈ s.activity.map (·.id) := List.mem_map_of_mem hx
        rw [of_decide_eq_true hid] at hmem
        exact freshId_not_mem _ hmem
      rw [List.mem_singleton.mp hd]
      show Written s _ (Accounts.Database.find (.event (freshId (s.activity.map (·.id)))) s) _
      rw [hfresh]
      refine .recordEvent fun x hx heq => hany ?_
      exact List.any_eq_true.mpr ⟨x, hx, decide_eq_true heq⟩

/-- A write that leaves something has broken no index. -/
theorem write_of_docs {w : Write} {s : Database} (h : (schema.write w s).docs ≠ []) :
    schema.write w s = Database.unchecked s w := by
  by_cases hi : ((Database.unchecked s w).docs.foldr Accounts.Database.put s).Indexed
  · exact if_pos hi
  · exact absurd (congrArg _ (if_neg hi)) h

theorem updated_of_docs {u : OperationUpdate} {s : Database}
    (h : (schema.write (.updateOperation u) s).docs ≠ []) :
    ∃ d ∈ s.operations, u.selects d = true ∧
      schema.write (.updateOperation u) s = .written [.operation (u.apply d)] := by
  have hw := write_of_docs h
  rw [hw] at h ⊢
  rw [Database.unchecked, Accounts.Database.update] at h ⊢
  cases hd : s.operations.find? u.selects with
  | none =>
    rw [hd] at h
    exact absurd rfl h
  | some d => exact ⟨d, (mem_of_find hd).1, (mem_of_find hd).2, rfl⟩

/-- An event that is recorded is there, recorded now or before. -/
theorem recorded_of_write {v : Database} (h : v.Indexed) (e : SecurityActivityEvent) :
    ∃ e' ∈ (schema.putAll (schema.write (.recordEvent e) v).docs v).activity,
      e'.eventId = e.eventId := by
  by_cases hany : (v.activity.any fun d => decide (d.eventId = e.eventId)) = true
  · obtain ⟨e', he', hid⟩ := List.any_eq_true.mp hany
    have hunchecked : Database.unchecked v (.recordEvent e) = .unmatched := if_pos hany
    have hdocs : (schema.write (.recordEvent e) v).docs = [] := by
      rcases docs_write (.recordEvent e) v with hnone | hall
      · exact hnone
      · rw [hall, hunchecked]
        rfl
    rw [hdocs]
    exact ⟨e', he', of_decide_eq_true hid⟩
  · have hunchecked : Database.unchecked v (.recordEvent e) =
        .written [.event { e with id := freshId (v.activity.map (·.id)) }] := if_neg hany
    have hindexed : ((Database.unchecked v (.recordEvent e)).docs.foldr Accounts.Database.put
        v).Indexed := by
      rw [hunchecked]
      refine { h with activity := nodup_replaceOne h.activity, eventId := ?_ }
      refine h.eventId.replaceOne_new fun x hx heq => hany ?_
      exact List.any_eq_true.mpr ⟨x, hx, decide_eq_true heq⟩
    have hwrite : schema.write (.recordEvent e) v = Database.unchecked v (.recordEvent e) :=
      if_pos hindexed
    rw [hwrite, hunchecked]
    exact ⟨_, List.mem_cons_self, rfl⟩

/-- The keys of what a write leaves are all different. -/
theorem keys_write {s : Database} (h : s.Indexed) (w : Write) :
    ((schema.write w s).docs.map Accounts.Document.key).Nodup := by
  have one : ∀ {D : Type} {wrap : D → Document} {p : D → Bool} {f : D → D} {docs : List D},
      ((Accounts.Database.update wrap p f docs).docs.map Accounts.Document.key).Nodup := by
    intro D wrap p f docs
    rw [Accounts.Database.update]
    split
    · exact List.nodup_singleton _
    · exact List.nodup_nil
  have new : ∀ x : Document, ((s.insert x).docs.map Accounts.Document.key).Nodup := by
    intro x
    rw [Accounts.Database.insert]
    split
    · exact List.nodup_nil
    · exact List.nodup_singleton _
  have many : ∀ {D : Type} {wrap : D → Document} {mk : String → Key} {key : D → String}
      {p : D → Bool} {f : D → D} {docs : List D}, Function.Injective mk →
      (∀ x, (wrap (f x)).key = mk (key x)) → (docs.map key).Nodup →
      (((docs.filter p).map fun x => wrap (f x)).map Accounts.Document.key).Nodup := by
    intro D wrap mk key p f docs hmk hkey hdocs
    rw [List.map_map]
    have heq : Accounts.Document.key ∘ (fun x => wrap (f x)) = mk ∘ key := funext hkey
    rw [heq, ← List.map_map]
    exact List.Nodup.map hmk (hdocs.sublist (List.filter_sublist.map key))
  rcases docs_write w s with hnone | hall
  · rw [hnone]
    exact List.nodup_nil
  · rw [hall]
    cases w with
    | account w =>
      cases w with
      | revokeFamilies subjectType subjectId reason revokedAt =>
        have hkeys : (s.families.map fun f => f.familyId).Nodup := h.families
        exact many (fun _ _ h => Key.family.inj h) (fun _ => rfl) hkeys
      | bumpAuthVersion subjectType id => cases subjectType <;> exact one
      | setAccountIdentifier subjectType id identifier => cases subjectType <;> exact one
      | insertStaffUser | insertMember | insertIdentifier | recordActivity => exact new _
      | _ => exact one
    | insertOperation x => exact new _
    | updateOperation u => exact one
    | upsertIdentifier u =>
      rw [Database.unchecked]
      split
      · exact List.nodup_singleton _
      · exact new _
    | updateIdentifier u => exact one
    | updateIdentifiers u =>
      exact many (fun _ _ h => Key.identifier.inj h) (fun x => congrArg Key.identifier (u.apply_id x))
        h.identifiers
    | insertBatch x => exact new _
    | updateBatch u => exact one
    | expireBatches ids now =>
      have hkeys : (s.batches.map fun d => d.id).Nodup := h.batches
      exact many (fun _ _ h => Key.batch.inj h) (fun _ => rfl) hkeys
    | recordEvent e =>
      rw [Database.unchecked]
      split
      · exact List.nodup_nil
      · exact List.nodup_singleton _

theorem schema_lawful : schema.Lawful where
  find_put := find_put
  indexed_write w s h := by
    by_cases hi : ((Database.unchecked s w).docs.foldr Accounts.Database.put s).Indexed
    · have hw : schema.write w s = Database.unchecked s w := if_pos hi
      rw [hw]
      exact decide_eq_true hi
    · have hw : (schema.write w s).docs = [] := congrArg _ (if_neg hi)
      rw [hw]
      exact h
  keys_write w s h := keys_write (of_decide_eq_true h) w

/-- What is there after a write has been left by it, or was there. -/
theorem written_or_found {v : Database} (h : schema.indexed v = true) {w : Write} {k : Key}
    {d : Document}
    (hd : Accounts.Database.find k (schema.putAll (schema.write w v).docs v) = some d) :
    Written v w (Accounts.Database.find d.key v) d ∨ Accounts.Database.find k v = some d :=
  (schema_lawful.find_putAll_cases hd).imp_left fun hmem => written_of_mem (of_decide_eq_true h) hmem

section Commit

variable {t : Sessions.Transaction Database Document} {c : Database}
  (hfree : schema.Unconflicted t c) (hindexed : schema.indexed (schema.putAll t.buffer c) = true)

include hfree hindexed

/-- After a commit, an operation is one of the store, or one of the view that nobody else has
changed. -/
theorem operation_of_commit {d : AuthIdentifierOperation}
    (hd : d ∈ (schema.putAll t.buffer c).operations) : d ∈ c.operations ∨
      d ∈ (schema.putAll t.buffer t.snapshot).operations ∧
        Accounts.Database.find (.operation d.id) c =
          Accounts.Database.find (.operation d.id) t.snapshot := by
  have hfind := find_operation (of_decide_eq_true hindexed) hd
  rcases schema_lawful.commit_find hfree (.operation d.id) with ⟨hnew, hsame⟩ | ⟨hnew, -⟩
  · exact .inr ⟨(operation_of_find (k := .operation d.id) (hnew.symm.trans hfind)).1, hsame⟩
  · exact .inl (operation_of_find (k := .operation d.id) (hnew.symm.trans hfind)).1

theorem identifier_of_commit {d : AuthIdentifier}
    (hd : d ∈ (schema.putAll t.buffer c).identifiers) : d ∈ c.identifiers ∨
      d ∈ (schema.putAll t.buffer t.snapshot).identifiers ∧
        Accounts.Database.find (.identifier d.id) c =
          Accounts.Database.find (.identifier d.id) t.snapshot := by
  have hfind := find_identifier (of_decide_eq_true hindexed) hd
  rcases schema_lawful.commit_find hfree (.identifier d.id) with ⟨hnew, hsame⟩ | ⟨hnew, -⟩
  · exact .inr ⟨(identifier_of_find (k := .identifier d.id) (hnew.symm.trans hfind)).1, hsame⟩
  · exact .inl (identifier_of_find (k := .identifier d.id) (hnew.symm.trans hfind)).1

end Commit

end Operations
